import KaspaPortal.Primitives.Script

/-!
# Standard locking scripts

The networks and the recognizers of `src/primitives/address/mod.rs` and the multisig codec of
`src/primitives/multisig_script.rs`: pay to a key, pay to a script hash, and
`OP_m <key>... OP_n OP_CHECKMULTISIG`.

Other scripts than these are not recognised and have no address.
-/
namespace KaspaPortal.Primitives
open Lib

inductive KaspaNetwork where
  | unknown | mainnet | testnet | devnet | simnet
  deriving DecidableEq, Repr

def KaspaNetwork.toByte : KaspaNetwork → UInt8
  | .unknown => 0
  | .mainnet => 1
  | .testnet => 2
  | .devnet => 3
  | .simnet => 4

def KaspaNetwork.fromWire (value : UInt8) : Option KaspaNetwork :=
  if value = 1 then some .mainnet
  else if value = 2 then some .testnet
  else if value = 3 then some .devnet
  else if value = 4 then some .simnet
  else none

/-- A byte array of the expected length, or nothing. -/
def toArray (n : Nat) (b : Bytes) : Option (FixedBytes n) :=
  if h : b.length = n then some ⟨b, h⟩ else none

theorem toArray_eq_some {n : Nat} {b : Bytes} {a : FixedBytes n} :
    toArray n b = some a ↔ b = a.val := by
  unfold toArray
  split
  · rename_i h
    rw [Option.some.injEq]
    exact ⟨fun he => by rw [← he], fun he => Subtype.ext he⟩
  · rename_i h
    exact ⟨nofun, fun he => absurd (he ▸ a.property) h⟩

/-- What stands between a script's first and last byte when these are as given. -/
def between (first last : UInt8) : Bytes → Option Bytes
  | [] => none
  | b :: rest =>
    if b = first ∧ rest.getLast? = some last then some rest.dropLast else none

/-- The key of `OP_DATA_32 <key> OP_CHECKSIG`. -/
def p2pkXonly (script : Bytes) : Option (FixedBytes 32) :=
  (between OP_DATA_32 OP_CHECKSIG script).bind (toArray 32)

/-- The redeem-script hash of `OP_BLAKE2B <hash> OP_EQUAL`. -/
def p2shHash : Bytes → Option (FixedBytes 32)
  | [] => none
  | b :: rest => if b = OP_BLAKE2B then (between OP_DATA_32 OP_EQUAL rest).bind (toArray 32) else none

def KEY_RECORD_LEN : Nat := 33

/-- A parsed multisig redeem script: the threshold and the key records. -/
structure MultisigScript where
  threshold : UInt8
  records : Bytes
  deriving DecidableEq

/-- Every key record, in script order. -/
def chunks : Nat → Bytes → List Bytes
  | 0, _ => []
  | count + 1, b => b.take KEY_RECORD_LEN :: chunks count (b.drop KEY_RECORD_LEN)

namespace MultisigScript

def keyCount (self : MultisigScript) : UInt8 :=
  UInt8.ofNat (self.records.length / KEY_RECORD_LEN)

/-- The key at `position`, in script order. -/
def key (self : MultisigScript) (position : UInt8) : Option (FixedBytes 32) :=
  let start := position.toNat * KEY_RECORD_LEN + 1
  (slice self.records start (start + 32)).bind (toArray 32)

/-- Every key, in script order. -/
def keys (self : MultisigScript) : List (FixedBytes 32) :=
  (chunks (self.records.length / KEY_RECORD_LEN) self.records).filterMap fun record =>
    toArray 32 (record.drop 1)

end MultisigScript

def smallInt (opcode : UInt8) : Option UInt8 :=
  if OP_1 ≤ opcode ∧ opcode ≤ OP_16 then some (opcode - OP_1 + 1) else none

/-- `script` as a canonical multisig redeem script. -/
def parseMultisig : Bytes → Option MultisigScript
  | [] => none
  | first :: rest => do
    let last ← rest.getLast?
    let declared ← rest.dropLast.getLast?
    let records := rest.dropLast.dropLast
    let threshold ← smallInt first
    let count ← smallInt declared
    if last = OP_CHECKMULTISIG ∧ threshold ≤ count ∧ records.length = count.toNat * KEY_RECORD_LEN ∧
        (chunks count.toNat records).all fun record => record.head? == some OP_DATA_32
    then some ⟨threshold, records⟩
    else none

/-- Most keys a small-integer opcode can declare. -/
def MAX_SCRIPT_KEYS : Nat := 16

def encodedLen (keyCount : Nat) : Nat := keyCount * KEY_RECORD_LEN + 3

/-- The redeem script, when the threshold and the count are valid and it fits the buffer. -/
def encodeMultisig (threshold : UInt8) (keys : List (FixedBytes 32)) (capacity : Nat) : Option Bytes :=
  if 256 ≤ keys.length then none
  else
    let count := UInt8.ofNat keys.length
    let valid := 1 ≤ threshold ∧ threshold ≤ count ∧ keys.length ≤ MAX_SCRIPT_KEYS
    if encodedLen keys.length ≤ capacity ∧ valid then
      some ([OP_1 + threshold - 1] ++ keys.flatMap (fun key => OP_DATA_32 :: key.val) ++
        [OP_1 + count - 1, OP_CHECKMULTISIG])
    else none

end KaspaPortal.Primitives
