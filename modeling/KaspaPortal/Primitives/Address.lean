import KaspaPortal.Lib.Codec
import KaspaPortal.Lib.Json
import KaspaPortal.Lib.Radix
import KaspaPortal.Primitives.Locking

/-!
# Address text

The codec of `src/primitives/address/mod.rs`. A text is its bytes. An encoder returns
nothing where the source would panic: at a value outside the character set, or at a
conversion that fails.

The names and labels of the networks are left out.
-/
namespace KaspaPortal.Primitives
open Lib

/-- The character of every five-bit value. -/
def CHARSET : Bytes := ascii "qpzry9x8gf2tvdw0s3jn54khce6mua7l"
def CHECKSUM_LEN : Nat := 8
/-- The generator of the checksum. -/
def GEN : List UInt64 :=
  [0x98f2bc8e61, 0x79b76d99e2, 0xf33e5fb3c4, 0xae2eabe2a8, 0x1e4f43e470]
def MAX_ADDR_LEN : Nat := 80
def SEPARATOR : UInt8 := 0x3a

/-- What an address can pay to. -/
inductive AddressType where
  | p2pk | p2pkEcdsa | p2sh
  deriving DecidableEq, Repr

/-- The byte in front of the payload. -/
def AddressType.version : AddressType → UInt8
  | .p2pk => 0x00
  | .p2pkEcdsa => 0x01
  | .p2sh => 0x08

/-- The text before the separator; an unknown network has none. -/
def KaspaNetwork.hrp : KaspaNetwork → Option Bytes
  | .unknown => none
  | .mainnet => some (ascii "kaspa")
  | .testnet => some (ascii "kaspatest")
  | .devnet => some (ascii "kaspadev")
  | .simnet => some (ascii "kaspasim")

/-- What a text can be refused for. -/
inductive AddressError where
  | unknownPrefix | tooShort | invalidCharacter (byte : UInt8) | checksumMismatch
  | invalidDataValue | invalidPadding | emptyPayload | unknownVersion (version : UInt8)
  | invalidPayloadLength (length : Nat) (version : UInt8)
  deriving DecidableEq, Repr

/-- A byte as `{:#x}` writes it. -/
def hexText (byte : UInt8) : String := "0x" ++ String.ofList (Nat.toDigits 16 byte.toNat)

def AddressError.message : AddressError → String
  | .unknownPrefix => "Unknown address prefix"
  | .tooShort => "Address too short"
  | .invalidCharacter byte =>
    "Invalid character: '" ++ String.singleton (Char.ofNat byte.toNat) ++ "'"
  | .checksumMismatch => "Checksum mismatch"
  | .invalidDataValue => "Invalid address data value"
  | .invalidPadding => "Invalid address padding"
  | .emptyPayload => "Address payload is empty"
  | .unknownVersion version => "Unknown version: " ++ hexText version
  | .invalidPayloadLength length version =>
    "Invalid payload length " ++ toString length ++ " for address version " ++ hexText version

/-- A version with its payload, of whatever length. -/
structure DecodedAddress where
  version : UInt8
  payload : Bytes
  deriving DecidableEq, Repr

/-- The payload length of each defined address version. -/
def payloadLengthForVersion (version : UInt8) : Option Nat :=
  if version = 0x00 ∨ version = 0x08 then some 32
  else if version = 0x01 then some 33
  else none

/-! ## Checksum -/

/-- One value into the checksum, the five bits that leave it folded back. -/
def polymodStep (checksum : UInt64) (value : UInt8) : UInt64 :=
  let top := checksum >>> 35
  let shifted := ((checksum &&& 0x7ffffffff) <<< 5) + value.toUInt64
  GEN.zipIdx.foldl (fun checksum generator =>
    if (top >>> UInt64.ofNat generator.2) &&& 1 = 1 then checksum ^^^ generator.1 else checksum)
    shifted

/-- The checksum of a list of values. -/
def polymod (values : Bytes) : UInt64 := values.foldl polymodStep 1

/-- What the checksum takes of a prefix and the zero behind it. -/
def prefixValues (hrp : Bytes) : Bytes := hrp.map (· &&& 0x1f) ++ [0]

/-- With its checksum a text has the value one. -/
def verifyChecksum (hrp values : Bytes) : Except AddressError Unit :=
  if polymod (prefixValues hrp ++ values) = 1 then .ok () else .error .checksumMismatch

/-- The checksum that makes the value one. -/
def createChecksum (hrp payload : Bytes) : UInt64 :=
  polymod (prefixValues hrp ++ payload ++ List.replicate CHECKSUM_LEN 0) ^^^ 1

/-! ## Regrouping bits -/

/-- Take values of `toBits` bits while there are enough; each takes `toBits` of the `fuel` bits. -/
def drain (toBits : Nat) (accumulator : UInt32) : Nat → Nat → Bytes → Nat × Bytes
  | 0, bits, output => (bits, output)
  | fuel + 1, bits, output =>
    if toBits ≤ bits then
      let maxValue := (1 <<< UInt32.ofNat toBits) - 1
      drain toBits accumulator fuel (bits - toBits)
        (output ++ [((accumulator >>> UInt32.ofNat (bits - toBits)) &&& maxValue).toUInt8])
    else (bits, output)

/-- The loop over the values; the state is the accumulator, its live bits and the output. -/
def convertLoop (fromBits toBits : Nat) :
    UInt32 → Nat → Bytes → Bytes → Except AddressError (UInt32 × Nat × Bytes)
  | accumulator, bits, output, [] => .ok (accumulator, bits, output)
  | accumulator, bits, output, value :: data =>
    if value.toUInt32 >>> UInt32.ofNat fromBits ≠ 0 then .error .invalidDataValue
    else
      let accumulator := (accumulator <<< UInt32.ofNat fromBits) + value.toUInt32
      let drained := drain toBits accumulator (bits + fromBits) (bits + fromBits) output
      convertLoop fromBits toBits accumulator drained.1 drained.2 data

def convertBits (data : Bytes) (fromBits toBits : Nat) (pad : Bool) : Except AddressError Bytes :=
  match convertLoop fromBits toBits 0 0 [] data with
  | .error error => .error error
  | .ok (accumulator, bits, output) =>
    let maxValue := (1 <<< UInt32.ofNat toBits) - 1
    let rest := (accumulator <<< UInt32.ofNat (toBits - bits)) &&& maxValue
    if pad then .ok (if 0 < bits then output ++ [rest.toUInt8] else output)
    else if fromBits ≤ bits ∨ rest ≠ 0 then .error .invalidPadding
    else .ok output

/-! ## Text -/

def charOf (value : UInt8) : Option UInt8 := CHARSET[value.toNat]?

/-- The values of the checksum's characters. -/
def checksumValues (checksum : UInt64) : Bytes :=
  (List.range CHECKSUM_LEN).map fun index =>
    ((checksum >>> UInt64.ofNat (5 * (CHECKSUM_LEN - 1 - index))) &&& 0x1f).toUInt8

def encodeAddressBytes (payload : Bytes) (version : UInt8) (hrp : Bytes) : Option Bytes := do
  let data ← (convertBits (version :: payload) 8 5 true).toOption
  let body ← data.mapM charOf
  let sum ← (checksumValues (createChecksum hrp data)).mapM charOf
  return hrp ++ [SEPARATOR] ++ body ++ sum

/-- `split_once`. -/
def splitOnce (separator : UInt8) (text : Bytes) : Option (Bytes × Bytes) :=
  match text.dropWhile (· ≠ separator) with
  | [] => none
  | _ :: rest => some (text.takeWhile (· ≠ separator), rest)

def splitAddress (addr : Bytes) : Except AddressError (Bytes × Bytes) :=
  match splitOnce SEPARATOR addr with
  | none => .error .unknownPrefix
  | some (hrp, data) =>
    if hrp = ascii "kaspa" ∨ hrp = ascii "kaspatest" ∨ hrp = ascii "kaspasim" ∨
        hrp = ascii "kaspadev" then
      if data.length < 9 then .error .tooShort else .ok (hrp, data)
    else .error .unknownPrefix

def decodeChar (byte : UInt8) : Except AddressError UInt8 :=
  match CHARSET.findIdx? (· = byte) with
  | some index => .ok (UInt8.ofNat index)
  | none => .error (.invalidCharacter byte)

def decodeChars (data : Bytes) : Except AddressError Bytes := data.mapM decodeChar

def decodeAddressBytes (addr : Bytes) : Except AddressError DecodedAddress := do
  let (hrp, dataPart) ← splitAddress addr
  let values ← decodeChars dataPart
  rejectIf (values.length ≤ CHECKSUM_LEN) AddressError.tooShort
  verifyChecksum hrp values
  let decoded ← convertBits (values.take (values.length - CHECKSUM_LEN)) 5 8 false
  match decoded with
  | [] => .error .emptyPayload
  | version :: payload =>
    match payloadLengthForVersion version with
    | none => .error (.unknownVersion version)
    | some expected =>
      if payload.length ≠ expected then .error (.invalidPayloadLength payload.length version)
      else .ok ⟨version, payload⟩

/-- The network prefix an address names. -/
def addressPrefix (addr : Bytes) : Except AddressError Bytes :=
  match splitAddress addr with
  | .error error => .error error
  | .ok (hrp, _) => .ok hrp

def validateKaspaAddress (addr : Bytes) : Bool := (decodeAddressBytes addr).isOk

/-- The text written for a network, or nothing when it has no prefix or the payload has not
the length of its version. -/
def encodeAddressForNetwork (pubkey : Bytes) (addrType : AddressType) (network : KaspaNetwork) :
    Option Bytes :=
  match network.hrp with
  | none => some []
  | some hrp =>
    if payloadLengthForVersion addrType.version ≠ some pubkey.length then some []
    else encodeAddressBytes pubkey addrType.version hrp

end KaspaPortal.Primitives
