import KaspaPortal.Lib.Codec
import KaspaPortal.Lib.Radix

/-!
# Base58 and Base58Check

`src/wallet/key/xpub/base58.rs`. A buffer of the source is the part of it that is in use; a write
past the end of a buffer, where the source would panic, returns nothing.

Hashing for the checksum is a parameter.
-/
namespace KaspaPortal.Wallet.Key
open Lib

def BASE58_ALPHABET : Bytes := ascii "123456789ABCDEFGHJKLMNPQRSTUVWXYZabcdefghijkmnopqrstuvwxyz"
def MAX_BASE58_CHARS : Nat := 175
def MAX_BASE58_BYTES : Nat := 128

inductive Base58EncodeError where
  | inputTooLong | bufferTooSmall
  deriving DecidableEq, Repr

inductive Base58Error where
  | empty | invalidCharacter | overflow | invalidChecksum
  deriving DecidableEq, Repr

/-! ## Encoding -/

/-- One pass of the division by 58: the quotient's bytes and the remainder. -/
def divide58 : Nat → Bytes → Bytes × Nat
  | remainder, [] => ([], remainder)
  | remainder, byte :: number =>
    let value := remainder * 256 + byte.toNat
    let rest := divide58 (value % 58) number
    (UInt8.ofNat (value / 58) :: rest.1, rest.2)

/-- The digits, least significant first, while there is room for them. -/
def base58Digits (room : Nat) (number : Bytes) : Option Bytes :=
  match number.dropWhile (· = 0) with
  | [] => some []
  | number =>
    match room with
    | 0 => none
    | room + 1 => do
      let divided := divide58 0 number
      let digit ← BASE58_ALPHABET[divided.2]?
      let digits ← base58Digits room divided.1
      return digit :: digits

/-- The text that is written to an output of the given length. -/
def base58Encode (data : Bytes) (outLen : Nat) : Option (Except Base58EncodeError Bytes) :=
  if MAX_BASE58_BYTES < data.length then some (.error .inputTooLong)
  else do
    let leadingZeros := (data.takeWhile (· = 0)).length
    let digits ← base58Digits MAX_BASE58_CHARS (data.drop leadingZeros)
    return if leadingZeros + digits.length ≤ outLen then
      .ok (List.replicate leadingZeros 0x31 ++ digits.reverse)
    else .error .bufferTooSmall

/-! ## Decoding -/

def base58CharValue (byte : UInt8) : Option Nat := BASE58_ALPHABET.findIdx? (· = byte)

/-- The multiplication over the bytes of the number, the last one first. -/
def multiply58 (number : Bytes) (digit : Nat) : Nat × Bytes :=
  number.foldr (fun byte state =>
    let carry := state.1 + byte.toNat * 58
    (carry / 256, UInt8.ofNat (carry % 256) :: state.2)) (digit, [])

/-- The carry goes in front of the number; a 32-bit carry has four bytes. -/
def pushCarry : Nat → Nat → Bytes → Except Base58Error Bytes
  | 0, _, number => .ok number
  | bytes + 1, carry, number =>
    if carry = 0 then .ok number
    else if number.length = MAX_BASE58_BYTES then .error .overflow
    else pushCarry bytes (carry / 256) (UInt8.ofNat (carry % 256) :: number)

def mulAddBase58 (number : Bytes) (digit : Nat) : Except Base58Error Bytes :=
  let multiplied := multiply58 number digit
  pushCarry 4 multiplied.1 multiplied.2

def base58Step (number : Bytes) (byte : UInt8) : Except Base58Error Bytes := do
  let digit ← okOr .invalidCharacter (base58CharValue byte)
  mulAddBase58 number digit

def base58Decode (input : Bytes) : Except Base58Error Bytes := do
  if input = [] then throw .empty
  let leadingZeroes := (input.takeWhile (· = 0x31)).length
  let number ← input.foldlM base58Step []
  if leadingZeroes + number.length ≤ MAX_BASE58_BYTES then
    return List.replicate leadingZeroes 0 ++ number
  else throw .overflow

/-! ## The checksum -/

section
variable (sha256 : Bytes → FixedBytes 32)

def sha256d (data : Bytes) : FixedBytes 32 := sha256 (sha256 data).val

def base58checkEncode (data : Bytes) (outLen : Nat) : Option (Except Base58EncodeError Bytes) :=
  if MAX_BASE58_BYTES < data.length + 4 then some (.error .inputTooLong)
  else base58Encode (data ++ (sha256d sha256 data).val.take 4) outLen

def base58checkDecode (input : Bytes) : Except Base58Error Bytes := do
  let raw ← base58Decode input
  if raw.length < 4 then throw .invalidChecksum
  let payload := raw.take (raw.length - 4)
  if payload = [] ∨ raw.drop (raw.length - 4) ≠ (sha256d sha256 payload).val.take 4 then
    throw .invalidChecksum
  return payload

end

end KaspaPortal.Wallet.Key
