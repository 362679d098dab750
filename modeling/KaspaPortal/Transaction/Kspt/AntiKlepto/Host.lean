import KaspaPortal.Crypto.AntiKlepto
import KaspaPortal.Transaction.Kspt.Codec

/-!
# The host's side of anti-klepto signing

`src/transaction/interchange/kspt/signing/anti_klepto/` (`commitment.rs`, `keys.rs`,
`transaction_body.rs`, `transcript.rs`, `wire.rs`) with the messages of
`src/transaction/signing/anti_klepto/protocol.rs` as their parsers leave them: at least
one record, read by index. The candidate keys of a covenant input are those of
`signing/covenant.rs`. The curve, the signature check and the nonce relation are given.

The transport of the messages and the display of a transcript are left out.
-/
namespace KaspaPortal.Transaction.Kspt.AntiKlepto
open Lib Primitives Model Contract.Covenant Crypto.AntiKlepto

def MAX_COVENANT_KEYS : Nat := 8

/-- The primitives the host's checks rest on. -/
structure HostCrypto extends SignatureCrypto where
  /-- `PublicKey::from_sec1_bytes` accepts the encoding. -/
  validPoint : FixedBytes 33 → Bool
  /-- `verify_nonce_relation`. -/
  verifyNonceRelation : (noncePoint : FixedBytes 33) → (signature : FixedBytes 64) →
    (sessionId : FixedBytes SESSION_ID_LEN) → (hostSecret : FixedBytes 32) → (inputIndex : UInt32) →
    (signatureSlot : UInt8) → (publicKey : FixedBytes 33) → Bool

/-- The primitives of a curve, with the hash that signature messages are made with. -/
def HostCrypto.ofCurve {n : Nat} {Point : Type} [AddCommGroup Point] [Module (ZMod n) Point]
    [DecidableEq Point] (curve : Curve n Point) (signingHash : Bytes → FixedBytes 32) : HostCrypto where
  signingHash := signingHash
  schnorrVerify := curve.schnorrVerify
  validPoint := fun bytes => (curve.fromSec1Bytes bytes).isSome
  verifyNonceRelation := fun noncePoint signature sessionId hostSecret inputIndex signatureSlot publicKey =>
    (curve.verifyNonceRelation noncePoint signature sessionId hostSecret inputIndex signatureSlot
      publicKey).isOk

/-! ## Messages -/

/-- The signer's nonce point for one signature, sent before it knows the host's secret. -/
structure NonceCommitment where
  inputIndex : UInt32
  signatureSlot : UInt8
  publicKey : FixedBytes 33
  noncePoint : FixedBytes 33
  deriving DecidableEq

/-- The slot a signature of the reply stands in. -/
structure SignatureProof where
  inputIndex : UInt32
  signatureSlot : UInt8
  deriving DecidableEq

/-- A commitment as it has been parsed: never empty. -/
structure Commitment where
  sessionId : FixedBytes SESSION_ID_LEN
  transactionDigest : FixedBytes 32
  records : List NonceCommitment
  nonempty : records ≠ []

/-- The signed transaction travels with the proofs and is decoded on its own. -/
structure Signed where
  sessionId : FixedBytes SESSION_ID_LEN
  transactionDigest : FixedBytes 32
  proofs : List SignatureProof
  nonempty : proofs ≠ []

/-- What the host refuses a transcript for. -/
inductive VerifyError where
  | sessionMismatch | transactionMismatch | invalidProof | invalidPublicKey | invalidSignature
  | invalidNonceRelation
  | pskt (error : PsktError)
  deriving DecidableEq, Repr

/-! ## Keys -/

/-- The masks must be consistent, and name branches the script has. -/
def resolveExecutionBranches (script : Bytes) (suppliedMask suppliedTrueMask : UInt16) :
    Except PsktError BranchResolution := do
  rejectIf (suppliedTrueMask &&& ~~~suppliedMask ≠ 0) PsktError.invalidModel
  let resolved ← (resolveCovenantBranches script).mapError fun _ => PsktError.invalidModel
  rejectIf (suppliedMask.toBitVec ≠ resolved.selectorMask) PsktError.invalidModel
  rejectIf (MAX_COVENANT_KEYS < resolved.keys.length) PsktError.invalidModel
  return resolved

/-- The keys on the chosen path, each with its position among all keys. -/
def collectActiveCandidateKeys (resolved : BranchResolution) (suppliedMask suppliedTrueMask : UInt16) :
    List (UInt8 × FixedBytes 32) :=
  (resolved.keys.zipIdx.filter fun entry =>
    entry.1.matchesSelectors suppliedMask.toBitVec suppliedTrueMask.toBitVec).map fun entry =>
      (UInt8.ofNat entry.2, entry.1.key)

def scanActiveCandidateKeys (script : Bytes) (suppliedMask suppliedTrueMask : UInt16) :
    Except PsktError (List (UInt8 × FixedBytes 32)) := do
  let resolved ← resolveExecutionBranches script suppliedMask suppliedTrueMask
  let candidates := collectActiveCandidateKeys resolved suppliedMask suppliedTrueMask
  -- Signing is fail-closed: the selectors leave exactly one key.
  rejectIf (candidates.length ≠ 1) PsktError.invalidModel
  return candidates

/-- The keys that may sign an input, with their positions. -/
def candidateKeysForInput (tx : Transaction) (inputIndex : Nat) :
    Except PsktError (List (UInt8 × FixedBytes 32)) := do
  let input ← okOr .invalidModel (tx.inputs[inputIndex]?)
  rejectIf (input.covenantExecutionPresent = false) PsktError.invalidModel
  let script ← checkedRedeemBytes tx inputIndex
  scanActiveCandidateKeys script input.covenantExecutionMask input.covenantExecutionTrueMask

/-- `script[1..33]` of an input whose script pays to a key. -/
def p2pkSigningKey (tx : Transaction) (inputIndex : Nat) : Except VerifyError (FixedBytes 32) :=
  okOr .invalidPublicKey (toArray 32
    (cut (inputAt tx inputIndex).utxoEntry.scriptPublicKey.script 1 33))

/-- Whether a key may sign an input at all. -/
def pubkeyIsAllowedForInput (tx : Transaction) (inputIndex : Nat) (targetXonly : FixedBytes 32) :
    Except VerifyError Bool :=
  match analyzeInputScript tx inputIndex with
  | (.p2pk, _) => .ok (cut (inputAt tx inputIndex).utxoEntry.scriptPublicKey.script 1 33 == targetXonly.val)
  | (.multisig, some info) | (.p2sh, some info) => .ok (info.pubkeys.any (· == targetXonly))
  | (.p2sh, none) => do
    let candidates ← (candidateKeysForInput tx inputIndex).mapError VerifyError.pskt
    return candidates.any fun candidate => candidate.2 == targetXonly
  | _ => .ok false

/-- The key at a position of a covenant script. -/
def covenantSigningKey (tx : Transaction) (inputIndex : Nat) (pubkeyPos : UInt8) :
    Except VerifyError (FixedBytes 32) := do
  let candidates ← (candidateKeysForInput tx inputIndex).mapError VerifyError.pskt
  let candidate ← okOr .invalidPublicKey (candidates.find? fun candidate => candidate.1 == pubkeyPos)
  return candidate.2

/-- The script's key at a position. A pay-to-key script has one, whatever the position. -/
def signingPubkeyXonly (tx : Transaction) (inputIndex : Nat) (pubkeyPos : UInt8) :
    Except VerifyError (FixedBytes 32) :=
  match analyzeInputScript tx inputIndex with
  | (.p2pk, _) => p2pkSigningKey tx inputIndex
  | (.multisig, some info) | (.p2sh, some info) =>
    okOr .invalidPublicKey (info.pubkeys[pubkeyPos.toNat]?)
  | (.p2sh, none) => covenantSigningKey tx inputIndex pubkeyPos
  | _ => .error .invalidPublicKey

/-! ## Commitment -/

variable (crypto : HostCrypto)

/-- The positions of records come in this order. -/
def precedes (left right : UInt32 × UInt8) : Prop :=
  left.1 < right.1 ∨ left.1 = right.1 ∧ left.2 < right.2

instance (left right : UInt32 × UInt8) : Decidable (precedes left right) :=
  inferInstanceAs (Decidable (_ ∨ _))

def NonceCommitment.position (record : NonceCommitment) : UInt32 × UInt8 :=
  (record.inputIndex, record.signatureSlot)

/-- Records ascend by input and slot, so that none comes twice. -/
def validateCommitmentOrder (previous : Option (UInt32 × UInt8)) (record : NonceCommitment) :
    Except VerifyError Unit :=
  rejectIf (∃ value ∈ previous, ¬ precedes value record.position) VerifyError.invalidProof

/-- The slot must lie behind the signatures that the input had when it was sent. -/
def commitmentPositionIsValid (original : Transaction) (inputIndex slot : Nat) : Bool :=
  match original.inputs[inputIndex]? with
  | none => false
  | some input => if slot < input.sigCount.toNat then false else slot < MAX_SIGS_PER_INPUT

/-- Both points are even. -/
def canonicalPointsAreValid (record : NonceCommitment) : Bool :=
  record.publicKey.val.head? == some 0x02 && record.noncePoint.val.head? == some 0x02 &&
    crypto.validPoint record.publicKey && crypto.validPoint record.noncePoint

/-- Every record names a free slot, an allowed key and a valid point. -/
def validateCommitmentRecord (original : Transaction) (record : NonceCommitment) :
    Except VerifyError Unit := do
  let inputIndex := record.inputIndex.toNat
  rejectIf (commitmentPositionIsValid original inputIndex record.signatureSlot.toNat = false ∨
    canonicalPointsAreValid crypto record = false) VerifyError.invalidProof
  let allowed ← pubkeyIsAllowedForInput original inputIndex (xonly record.publicKey)
  rejectIf (allowed = false) VerifyError.invalidPublicKey

/-- The loop over the records, with the position of the one before. -/
def validateRecords (original : Transaction) :
    Option (UInt32 × UInt8) → List NonceCommitment → Except VerifyError Unit
  | _, [] => .ok ()
  | previous, record :: records => do
    validateCommitmentOrder previous record
    validateCommitmentRecord crypto original record
    validateRecords original (some record.position) records

/-- All records of a commitment. -/
def validateHostCommitment (original : Transaction) (commitment : Commitment) :
    Except VerifyError Unit :=
  validateRecords crypto original none commitment.records

/-! ## Transaction body -/

/-- The fields of the transaction that signing may not change. -/
def sameTransactionHeader (left right : Transaction) : Bool :=
  left.version == right.version && left.inputs.length == right.inputs.length &&
    left.outputs.length == right.outputs.length && left.network == right.network &&
    left.locktime == right.locktime && left.subnetworkId == right.subnetworkId &&
    left.gas == right.gas && left.payload.length == right.payload.length &&
    left.hasStealthTweak == right.hasStealthTweak && left.stealthTweak == right.stealthTweak &&
    left.payload == right.payload

def sameInputBody (left right : Transaction) (index : Nat) : Bool :=
  let a := inputAt left index
  let b := inputAt right index
  a.previousOutpoint == b.previousOutpoint && a.sequence == b.sequence &&
    a.sigOpCount == b.sigOpCount && a.utxoEntry == b.utxoEntry && a.ms45Hint == b.ms45Hint &&
    left.redeemBytes index == right.redeemBytes index && a.sigCount ≤ b.sigCount

/-- Two slots hold the same signature. -/
def sameSignatureSlot (left right : InputSig) : Bool :=
  left.present == right.present && left.signature == right.signature &&
    left.sighashType == right.sighashType && left.pubkeyPos == right.pubkeyPos

/-- The slots up to the original's count. A count past the five slots is an
out-of-bounds read in the source and no agreement here. -/
def sameExistingSignatures (left right : Transaction) (index : Nat) : Bool :=
  let a := inputAt left index
  let b := inputAt right index
  (List.range a.sigCount.toNat).all fun slot =>
    match a.sigs.val[slot]?, b.sigs.val[slot]? with
    | some old, some new => sameSignatureSlot old new
    | _, _ => false

def sameOutputBody (left right : TransactionOutput) : Bool :=
  left.value == right.value && left.scriptPublicKey == right.scriptPublicKey &&
    left.hasCovenant == right.hasCovenant && left.covenantAuthInput == right.covenantAuthInput &&
    left.covenantId == right.covenantId && left.hasDerivationHint == right.hasDerivationHint &&
    left.derivationBranch == right.derivationBranch &&
    left.derivationIndex == right.derivationIndex && left.ms45Hint == right.ms45Hint

/-- The signed transaction is the one that was sent, but for its signatures. -/
def sameTransactionBody (left right : Transaction) : Bool :=
  sameTransactionHeader left right &&
    ((List.range left.inputs.length).all fun index =>
      sameInputBody left right index && sameExistingSignatures left right index) &&
    (List.range left.outputs.length).all fun index =>
      sameOutputBody (outputAt left index) (outputAt right index)

/-! ## Transcript -/

/-- `sigs.get(before..after)` of one input, every slot of it present. -/
def addedSignaturesForInput (original signed : Transaction) (inputIndex : Nat) :
    Except VerifyError Nat := do
  let before := (inputAt original inputIndex).sigCount.toNat
  let after := (inputAt signed inputIndex).sigCount.toNat
  rejectIf (after < before ∨ MAX_SIGS_PER_INPUT < after) VerifyError.transactionMismatch
  let added := ((inputAt signed inputIndex).sigs.val.take after).drop before
  rejectIf (∃ slot ∈ added, slot.present = false) VerifyError.invalidProof
  return added.length

/-- The sum never leaves the machine word: five slots an input. -/
def addedCounts (original signed : Transaction) : List Nat → Except VerifyError Nat
  | [] => .ok 0
  | inputIndex :: rest => do
    let added ← addedSignaturesForInput original signed inputIndex
    let others ← addedCounts original signed rest
    return added + others

/-- How many slots have been filled. -/
def addedSignatureCount (original signed : Transaction) : Except VerifyError Nat := do
  rejectIf (original.inputs.length ≠ signed.inputs.length) VerifyError.transactionMismatch
  addedCounts original signed (List.range original.inputs.length)

/-- The reply answers the commitment: one session, one transaction, as many signatures as records. -/
def validateTranscriptBinding (original signed : Transaction) (commitment : Commitment)
    (signedMessage : Signed) : Except VerifyError Unit := do
  rejectIf (commitment.sessionId ≠ signedMessage.sessionId ∨
    commitment.transactionDigest ≠ signedMessage.transactionDigest) VerifyError.sessionMismatch
  rejectIf (sameTransactionBody original signed = false ∨
    commitment.records.length ≠ signedMessage.proofs.length) VerifyError.transactionMismatch
  let added ← addedSignatureCount original signed
  rejectIf (added ≠ commitment.records.length) VerifyError.transactionMismatch

/-- Proof and record speak of one slot. -/
def validateProofPosition (signed : Transaction) (commitment : NonceCommitment)
    (proof : SignatureProof) : Except VerifyError Unit :=
  rejectIf (commitment.inputIndex ≠ proof.inputIndex ∨ commitment.signatureSlot ≠ proof.signatureSlot ∨
    signed.inputs.length ≤ proof.inputIndex.toNat ∨
    (inputAt signed proof.inputIndex.toNat).sigCount.toNat ≤ proof.signatureSlot.toNat)
    VerifyError.invalidProof

/-- A first signature commits to everything; a further one has the type of the input. -/
def expectedAddedSighash (original : Transaction) (inputIndex : Nat) : UInt8 :=
  let input := inputAt original inputIndex
  if input.sigCount = 0 then SigHashType.all.toByte else input.sighashType

/-- The new signature has the expected type and position. -/
def validateProofSignatureMetadata (original signed : Transaction) (commitment : NonceCommitment)
    (proof : SignatureProof) (actual : InputSig) : Except VerifyError Unit := do
  let inputIndex := proof.inputIndex.toNat
  rejectIf (actual.present = false ∨
    actual.sighashType ≠ (inputAt signed inputIndex).sighashType ∨
    actual.sighashType ≠ expectedAddedSighash original inputIndex) VerifyError.invalidProof
  let expectedXonly ← signingPubkeyXonly signed inputIndex actual.pubkeyPos
  rejectIf (xonly commitment.publicKey ≠ expectedXonly) VerifyError.invalidPublicKey

/-- The signature is valid, and its nonce is the committed one moved by the host's secret. -/
def verifyProofSignature (signed : Transaction) (commitment : Commitment) (hostSecret : FixedBytes 32)
    (commitmentRecord : NonceCommitment) (proof : SignatureProof) (actual : InputSig) :
    Except VerifyError Unit := do
  let inputIndex := proof.inputIndex.toNat
  let expectedXonly ← signingPubkeyXonly signed inputIndex actual.pubkeyPos
  let sighashType ← okOr .invalidSignature (SigHashType.fromByte actual.sighashType)
  let message := calculateSighash crypto.signingHash signed.sighashSource inputIndex sighashType
  rejectIf (crypto.schnorrVerify expectedXonly message actual.signature = false)
    VerifyError.invalidSignature
  rejectIf (crypto.verifyNonceRelation commitmentRecord.noncePoint actual.signature
    commitment.sessionId hostSecret commitmentRecord.inputIndex commitmentRecord.signatureSlot
    commitmentRecord.publicKey = false) VerifyError.invalidNonceRelation

/-- `signed.inputs[input_index].sigs[slot]`. -/
def slotAt (tx : Transaction) (inputIndex slot : Nat) : InputSig :=
  (inputAt tx inputIndex).sigs.val[slot]?.getD .empty

/-- One record with its signature. -/
def verifyTranscriptProof (original signed : Transaction) (commitment : Commitment)
    (signedMessage : Signed) (hostSecret : FixedBytes 32) (index : Nat) : Except VerifyError Unit := do
  let commitmentRecord ← okOr .invalidProof (commitment.records[index]?)
  let proof ← okOr .invalidProof (signedMessage.proofs[index]?)
  validateProofPosition signed commitmentRecord proof
  let actual := slotAt signed proof.inputIndex.toNat proof.signatureSlot.toNat
  validateProofSignatureMetadata original signed commitmentRecord proof actual
  verifyProofSignature crypto signed commitment hostSecret commitmentRecord proof actual

/-- The whole transcript: bindings, body, and every record. -/
def verifyHostTranscript (original signed : Transaction) (commitment : Commitment)
    (signedMessage : Signed) (hostSecret : FixedBytes 32) : Except VerifyError Unit := do
  validateHostCommitment crypto original commitment
  validateTranscriptBinding original signed commitment signedMessage
  (List.range commitment.records.length).forM
    (verifyTranscriptProof crypto original signed commitment signedMessage hostSecret)

/-- The same over the request's and the response's compact bytes. -/
def verifyHostTranscriptWire (original signed : Bytes) (commitment : Commitment)
    (signedMessage : Signed) (hostSecret : FixedBytes 32) : Except VerifyError Unit := do
  let original ← (parseCompactKspt crypto.toSignatureCrypto original (.new .FORMAT)).mapError
    VerifyError.pskt
  let signed ← (parseCompactKspt crypto.toSignatureCrypto signed (.new .FORMAT)).mapError
    VerifyError.pskt
  verifyHostTranscript crypto original signed commitment signedMessage hostSecret

theorem verifyHostTranscriptWire_eq_ok {original signed : Bytes} {commitment : Commitment}
    {signedMessage : Signed} {hostSecret : FixedBytes 32} :
    verifyHostTranscriptWire crypto original signed commitment signedMessage hostSecret = .ok () ↔
      ∃ request response,
        parseCompactKspt crypto.toSignatureCrypto original (.new .FORMAT) = .ok request ∧
        parseCompactKspt crypto.toSignatureCrypto signed (.new .FORMAT) = .ok response ∧
        verifyHostTranscript crypto request response commitment signedMessage hostSecret = .ok () := by
  rw [verifyHostTranscriptWire]
  simp only [bind_eq_ok, mapError_eq_ok]
  constructor
  · intro h
    obtain ⟨request, hrequest, response, hresponse, hverify⟩ := h
    exact ⟨request, response, hrequest, hresponse, hverify⟩
  · intro h
    obtain ⟨request, response, hrequest, hresponse, hverify⟩ := h
    exact ⟨request, hrequest, response, hresponse, hverify⟩

end KaspaPortal.Transaction.Kspt.AntiKlepto
