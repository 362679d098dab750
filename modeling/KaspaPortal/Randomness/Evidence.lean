import KaspaPortal.Lib.Codec
import KaspaPortal.Lib.Layout
import KaspaPortal.Lib.QueuedMap

/-!
# Beacon evidence

The two sources of `src/randomness/source/` and the encoding of `src/randomness/extractor/canonical.rs`.
A text is its bytes. The lock of the buffer is never poisoned, since nothing panics while it is held.

The blocks of a node are taken as they come; a hash is not compared with any header.
-/
namespace KaspaPortal.Randomness
open Lib

/-- `NetworkId` of `src/primitives/mod.rs`. -/
inductive NetworkId where
  | mainnet
  | testnet (suffix : UInt8)
  | simnet
  | devnet
  deriving DecidableEq, Repr

/-- One observed block. -/
structure KaspaEntropyEvidence where
  blockHash : FixedBytes 32
  daaScore : Option UInt64
  finalized : Bool
  deriving DecidableEq, Repr

/-- A block hash of zeros is a missing one, and an unfinalized block can still change. -/
def KaspaEntropyEvidence.validate (self : KaspaEntropyEvidence) : Except String Unit := do
  rejectIf (self.blockHash.val.all (· == 0)) "zero Kaspa block hash rejected"
  rejectIf (self.finalized = false) "Kaspa randomness evidence must be finalized"

/-- Whether somebody checked the answer. -/
inductive CurbyVerification where
  | rawApiUnverified
  | externallyVerified
  deriving DecidableEq, Repr

/-- One round of the other source, with a commitment to its raw answer. -/
structure CurbyEvidence where
  round : Bytes
  value : Bytes
  rawResponseHash : FixedBytes 32
  retrievedAtMs : UInt64
  verification : CurbyVerification
  deriving DecidableEq, Repr

/-- The lengths that the encoding has room for. -/
def CurbyEvidence.validate (self : CurbyEvidence) : Except String Unit := do
  rejectIf (self.round = [] ∨ 256 < self.round.length) "CURBy round identifier must be 1..=256 bytes"
  rejectIf (¬(16 ≤ self.value.length ∧ self.value.length ≤ 4096)) "CURBy value must be 16..=4096 bytes"
  rejectIf (self.rawResponseHash.val.all (· == 0)) "CURBy raw-response commitment cannot be zero"

/-! ## Observed blocks -/

/-- The most recent blocks, oldest first. -/
structure KaspaBlockBuffer where
  inner : List KaspaEntropyEvidence
  capacity : Nat
  deriving DecidableEq, Repr

namespace KaspaBlockBuffer

def DEFAULT_CAPACITY : Nat := 64

def default : KaspaBlockBuffer := ⟨[], DEFAULT_CAPACITY⟩

/-- A capacity between one block and as many as the evidence holds. -/
def new (capacity : Nat) : Except String KaspaBlockBuffer := do
  rejectIf (¬(1 ≤ capacity ∧ capacity ≤ 256)) "Kaspa block buffer capacity must be 1..=256"
  return ⟨[], capacity⟩

theorem new_default : new DEFAULT_CAPACITY = .ok default := rfl

/-- Whether the block is the last one again. -/
def repeats (self : KaspaBlockBuffer) (value : KaspaEntropyEvidence) : Bool :=
  self.inner.getLast?.any fun existing => existing.blockHash == value.blockHash

/-- Whether the block's score is below the last block's, when both have one. -/
def backwards (self : KaspaBlockBuffer) (value : KaspaEntropyEvidence) : Bool :=
  (self.inner.getLast?.bind KaspaEntropyEvidence.daaScore).any fun previous =>
    value.daaScore.any fun current => decide (current < previous)

/-- The buffer after an accepted block; a rejected one leaves it as it was. -/
def push (self : KaspaBlockBuffer) (value : KaspaEntropyEvidence) :
    Except String KaspaBlockBuffer := do
  value.validate
  if self.repeats value then
    return self
  rejectIf (self.backwards value) "Kaspa evidence DAA score moved backwards"
  return { self with inner := keepLast self.capacity (self.inner ++ [value]) }

/-- The newest blocks, as many as are asked for or none. -/
def recent (self : KaspaBlockBuffer) (count : Nat) : Except String (List KaspaEntropyEvidence) := do
  rejectIf (count = 0 ∨ self.capacity < count) "requested Kaspa evidence count outside buffer bounds"
  rejectIf (self.inner.length < count)
    ("need " ++ toString count ++ " Kaspa blocks but only " ++ toString self.inner.length ++ " observed")
  return self.inner.drop (self.inner.length - count)

end KaspaBlockBuffer

/-! ## Canonical evidence -/

/-- The evidence as bytes, with its length in bits. -/
structure CanonicalEvidence where
  bytes : Bytes
  bitLen : Nat
  deriving DecidableEq, Repr

/-- One to 256 blocks. -/
def validateKaspaCount (kaspa : List KaspaEntropyEvidence) : Except String Unit := do
  rejectIf (kaspa = []) "at least one Kaspa block hash is required"
  rejectIf (256 < kaspa.length) "Kaspa evidence exceeds 256 blocks"

/-- Only two scores that are both present are compared. -/
def ensureMonotonic (previous current : Option UInt64) : Except String Unit :=
  rejectIf (previous.any fun previous => current.any fun current => decide (current < previous))
    "Kaspa evidence DAA scores must be nondecreasing"

/-- A flag, and the number behind it. -/
def appendOptionalU64 : Option UInt64 → Bytes
  | some value => 1 :: beBytes 8 value.toNat
  | none => [0]

/-- The loop of `append_kaspa_evidence`, from the last score seen. -/
def appendKaspaFrom : Option UInt64 → List KaspaEntropyEvidence → Except String Bytes
  | _, [] => return []
  | previousDaaScore, evidence :: rest => do
    evidence.validate
    ensureMonotonic previousDaaScore evidence.daaScore
    let tail ← appendKaspaFrom (evidence.daaScore.or previousDaaScore) rest
    return evidence.blockHash.val ++ appendOptionalU64 evidence.daaScore ++ tail

def appendKaspaEvidence (kaspa : List KaspaEntropyEvidence) : Except String Bytes :=
  appendKaspaFrom none kaspa

/-- A flag, and behind it the fields, those of no fixed length behind their lengths. -/
def appendCurbyEvidence : Option CurbyEvidence → Except String Bytes
  | none => return [0]
  | some curby => do
    curby.validate
    return [1] ++ beBytes 2 curby.round.length ++ curby.round ++ beBytes 2 curby.value.length ++
      curby.value ++ curby.rawResponseHash.val

/-- The first testnets keep their historical codes. -/
def networkCode : NetworkId → UInt8
  | .mainnet => 0
  | .testnet suffix =>
    if suffix = 10 then 10
    else if suffix = 11 then 11
    else if suffix = 12 then 12
    else 0x80 ||| suffix
  | .simnet => 20
  | .devnet => 21

def EVIDENCE_DOMAIN : Bytes := ascii "kaspa-portal/beacon/evidence/v1\x00"

/-- The domain, the network, the blocks behind their number and the other source. -/
def canonicalEvidence (network : NetworkId) (kaspa : List KaspaEntropyEvidence)
    (curby : Option CurbyEvidence) : Except String CanonicalEvidence := do
  validateKaspaCount kaspa
  let kaspaBytes ← appendKaspaEvidence kaspa
  let curbyBytes ← appendCurbyEvidence curby
  let bytes := EVIDENCE_DOMAIN ++ [networkCode network] ++ beBytes 2 kaspa.length ++ kaspaBytes ++
    curbyBytes
  return ⟨bytes, bytes.length * 8⟩

end KaspaPortal.Randomness
