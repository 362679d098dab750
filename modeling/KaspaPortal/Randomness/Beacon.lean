import KaspaPortal.Lib.Chunks
import KaspaPortal.Randomness.Evidence

/-!
# The beacon

`src/randomness/extractor/positions.rs`, `folding.rs` and `src/randomness/beacon/mod.rs`, with
`NetworkId::parse` of `src/primitives/mod.rs`. SHA-256 is given. Lengths are natural numbers, so
the checked products cannot overflow.

Where the evidence comes from, and whether it is random, is outside of the extraction.
-/
namespace KaspaPortal.Randomness
open Lib

/-! ## Networks -/

/-- `char::is_whitespace` -/
def isWhitespace (c : Char) : Bool :=
  let code := c.toNat
  (0x09 ≤ code && code ≤ 0x0d) || code == 0x20 || code == 0x85 || code == 0xa0 || code == 0x1680 ||
    (0x2000 ≤ code && code ≤ 0x200a) || code == 0x2028 || code == 0x2029 || code == 0x202f ||
    code == 0x205f || code == 0x3000

def trim (text : List Char) : List Char := (text.dropWhile isWhitespace).rdropWhile isWhitespace

def toAsciiLowercase (c : Char) : Char :=
  if 'A' ≤ c ∧ c ≤ 'Z' then Char.ofNat (c.toNat + 32) else c

def stripPrefix (front text : List Char) : Option (List Char) :=
  if front.isPrefixOf text then some (text.drop front.length) else none

def isAsciiDigit (c : Char) : Bool := '0' ≤ c && c ≤ '9'

/-- The number that digits write. -/
def decimal (digits : List Char) : Nat := digits.foldl (fun n c => n * 10 + (c.toNat - 48)) 0

/-- White space and capitals do not matter; a test network carries a number from 1 to 127. -/
def NetworkId.parse (value : String) : Except String NetworkId := do
  let normalized := (trim value.toList).map toAsciiLowercase
  if normalized = "mainnet".toList ∨ normalized = "kaspa:mainnet".toList then return .mainnet
  if normalized = "simnet".toList ∨ normalized = "kaspa:simnet".toList then return .simnet
  if normalized = "devnet".toList ∨ normalized = "kaspa:devnet".toList then return .devnet
  let testnet ← okOr "unsupported Kaspa network"
    (stripPrefix "testnet".toList ((stripPrefix "kaspa:".toList normalized).getD normalized))
  let suffix := (stripPrefix ['-'] testnet).getD testnet
  rejectIf (suffix = [] ∨ suffix.all isAsciiDigit = false) "unsupported Kaspa network"
  rejectIf (65535 < decimal suffix) "invalid Kaspa testnet suffix"
  rejectIf (¬(1 ≤ decimal suffix ∧ decimal suffix ≤ 127)) "Kaspa testnet suffix must be 1..=127"
  return .testnet (UInt8.ofNat (decimal suffix))

/-! ## Positions -/

section extractor
variable (sha256 : Bytes → FixedBytes 32)

def POSITIONS_DOMAIN : Bytes := ascii "kaspa-portal/beacon/positions/v1\x00"

/-- The positions of one digest: its four words modulo the length, as long as positions are missing. -/
def appendPositions (seed : Bytes) (bitLen count : Nat) (counter : UInt32) (positions : List Nat) :
    List Nat :=
  let digest := sha256 (POSITIONS_DOMAIN ++ seed ++ beBytes 4 counter.toNat)
  (chunks 8 digest.val).foldl
    (fun positions chunk =>
      if positions.length = count then positions else positions ++ [beNat chunk % bitLen])
    positions

/-- The `while` loop. A digest gives four positions, so `count` rounds are enough. -/
def derivePositionsFrom (seed : Bytes) (bitLen count : Nat) :
    Nat → UInt32 → List Nat → Except String (List Nat)
  | 0, _, positions => return positions
  | fuel + 1, counter, positions =>
    if positions.length < count then do
      let positions := appendPositions sha256 seed bitLen count counter positions
      rejectIf (counter = 0xffffffff) "position counter exhausted"
      derivePositionsFrom seed bitLen count fuel (counter + 1) positions
    else return positions

/-- Digests with ascending counters until there are enough positions. -/
def derivePositions (seed : Bytes) (bitLen count : Nat) : Except String (List Nat) := do
  rejectIf (seed = []) "position seed cannot be empty"
  rejectIf (bitLen = 0) "entropy bit length must be > 0"
  rejectIf (¬(1 ≤ count ∧ count ≤ 4096)) "position count must be 1..=4096"
  derivePositionsFrom sha256 seed bitLen count count 0 []

/-! ## Folding -/

def MAX_CONTEXT_BYTES : Nat := 4096

/-- How many bits are drawn, and how often the draw is folded. -/
structure ExtractorConfig where
  positions : UInt16
  foldingRounds : UInt8
  deriving DecidableEq, Repr

def ExtractorConfig.default : ExtractorConfig := ⟨256, 3⟩

def ExtractorConfig.validate (self : ExtractorConfig) : Except String Unit := do
  rejectIf (¬(8 ≤ self.positions ∧ self.positions ≤ 4096)) "extractor positions must be 8..=4096"
  rejectIf (¬(1 ≤ self.foldingRounds ∧ self.foldingRounds ≤ 16)) "folding rounds must be 1..=16"

/-- The default configuration is a valid one. -/
theorem ExtractorConfig.default_validate : ExtractorConfig.default.validate = .ok () := rfl

/-- Bit `position` of the source, counted from the high end of each byte. -/
def sourceBit (source : Bytes) (position : Nat) : UInt8 :=
  (source.getD (position / 8) 0 >>> UInt8.ofNat (7 - position % 8)) &&& 1

/-- The bits at the positions, packed in their order. -/
def extractBits (source : Bytes) (positions : List Nat) : Bytes :=
  positions.zipIdx.foldl
    (fun output entry =>
      output.modify (entry.2 / 8) (· ||| (sourceBit source entry.1 <<< UInt8.ofNat (7 - entry.2 % 8))))
    (List.replicate ((positions.length + 7) / 8) 0)

def FOLD_DOMAIN : Bytes := ascii "kaspa-portal/beacon/fold/v1\x00"

/-- What a round hashes. -/
def foldPreimage (evidence : Bytes) (evidenceHash seed : FixedBytes 32) (positions : List Nat)
    (round : UInt8) : Bytes :=
  FOLD_DOMAIN ++ [round] ++ seed.val ++ beBytes 4 positions.length ++ extractBits evidence positions ++
    evidenceHash.val

/-- A round draws new positions from its seed and hashes the bits found there. -/
def foldRound (evidence : Bytes) (evidenceHash seed : FixedBytes 32) (bitLen : Nat)
    (positions : UInt16) (round : UInt8) : Except String (FixedBytes 32) := do
  let positions ← derivePositions sha256 seed.val bitLen positions.toNat
  return sha256 (foldPreimage evidence evidenceHash seed positions round)

def SEED_DOMAIN : Bytes := ascii "kaspa-portal/beacon/seed/v1\x00"

/-- The first seed binds the evidence and the context. -/
def initialSeed (evidenceHash : FixedBytes 32) (context : Bytes) : FixedBytes 32 :=
  sha256 (SEED_DOMAIN ++ evidenceHash.val ++ (sha256 context).val)

def WHITEN_DOMAIN : Bytes := ascii "kaspa-portal/beacon/whiten/v1\x00"

def whitenPreimage (output evidenceHash : FixedBytes 32) (context : Bytes) : Bytes :=
  WHITEN_DOMAIN ++ output.val ++ evidenceHash.val ++ (sha256 context).val

/-- The output is hashed once more with what it was made from. -/
def whiten (output evidenceHash : FixedBytes 32) (context : Bytes) : FixedBytes 32 :=
  sha256 (whitenPreimage sha256 output evidenceHash context)

/-- The rounds up to one of them: each takes its seed from the output before. -/
def foldRounds (evidence : Bytes) (evidenceHash seed : FixedBytes 32) (positions : UInt16) :
    Nat → Except String (FixedBytes 32)
  | 0 => return seed
  | round + 1 => do
    let seed ← foldRounds evidence evidenceHash seed positions round
    foldRound sha256 evidence evidenceHash seed (evidence.length * 8) positions (UInt8.ofNat round)

def validateInput (evidence context : Bytes) : Except String Unit := do
  rejectIf (evidence = []) "evidence cannot be empty"
  rejectIf (MAX_CONTEXT_BYTES < context.length) "beacon context exceeds 4096 bytes"

/-- A valid configuration has a round, so the last round's output is what the source returns. -/
def extractAndFold (evidence context : Bytes) (config : ExtractorConfig) :
    Except String (FixedBytes 32) := do
  config.validate
  validateInput evidence context
  let evidenceHash := sha256 evidence
  let output ← foldRounds sha256 evidence evidenceHash (initialSeed sha256 evidenceHash context)
    config.positions config.foldingRounds.toNat
  return whiten sha256 output evidenceHash context

/-! ## Results -/

def BEACON_PROOF_VERSION : UInt16 := 1

/-- What an output is to be made from. -/
structure BeaconRequest where
  network : NetworkId
  context : Bytes
  kaspa : List KaspaEntropyEvidence
  curby : Option CurbyEvidence
  extractor : ExtractorConfig

/-- What is needed to make it again. -/
structure BeaconProof where
  version : UInt16
  network : NetworkId
  context : Bytes
  kaspa : List KaspaEntropyEvidence
  curby : Option CurbyEvidence
  extractor : ExtractorConfig
  deriving DecidableEq

structure BeaconResult where
  output : FixedBytes 32
  proof : BeaconProof
  deriving DecidableEq

/-- What a verifier learns. A proof that does not verify is an answer, not an error. -/
structure BeaconVerification where
  valid : Bool
  output : FixedBytes 32
  usesCurby : Bool
  curbySourceVerified : Bool
  kaspaEvidenceFinalized : Bool
  deriving DecidableEq

/-- The sizes are checked before anything is hashed. -/
def validateRequest (request : BeaconRequest) : Except String Unit := do
  rejectIf (4096 < request.context.length) "beacon context exceeds 4096 bytes"
  rejectIf (request.kaspa = []) "beacon requires at least one finalized Kaspa block hash"
  rejectIf (256 < request.kaspa.length) "beacon accepts at most 256 Kaspa blocks"
  request.kaspa.forM KaspaEntropyEvidence.validate
  request.extractor.validate

/-- Evidence, extraction, and the proof of what was used. -/
def generate (request : BeaconRequest) : Except String BeaconResult := do
  validateRequest request
  let evidence ← canonicalEvidence request.network request.kaspa request.curby
  let output ← extractAndFold sha256 evidence.bytes request.context request.extractor
  return ⟨output, ⟨BEACON_PROOF_VERSION, request.network, request.context, request.kaspa,
    request.curby, request.extractor⟩⟩

/-- The request a proof records. -/
def BeaconProof.request (proof : BeaconProof) : BeaconRequest :=
  ⟨proof.network, proof.context, proof.kaspa, proof.curby, proof.extractor⟩

/-- The output is made again from the proof, and compared. -/
def verifyResult (result : BeaconResult) : Except String BeaconVerification := do
  rejectIf (result.proof.version ≠ BEACON_PROOF_VERSION) "unsupported beacon proof version"
  let rebuilt ← generate sha256 result.proof.request
  return {
    valid := rebuilt.output == result.output
    output := rebuilt.output
    usesCurby := result.proof.curby.isSome
    curbySourceVerified :=
      result.proof.curby.any fun value => value.verification == .externallyVerified
    kaspaEvidenceFinalized := result.proof.kaspa.all KaspaEntropyEvidence.finalized
  }

end extractor

end KaspaPortal.Randomness
