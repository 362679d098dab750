import KaspaPortal.Transaction.Kspt.AntiKlepto.Host

/-!
# The signer's side of anti-klepto signing

`signing/signature_state.rs`, and `records.rs` and `finalization.rs` of
`signing/anti_klepto/`: how a signature enters an input, the commitments to the nonces
of the signatures added since a point, and the tweak of each of them once the host has
revealed its secret. A run that fails leaves nothing behind here; the source's callers
drop the transaction. Where keys come from is a parameter of the finalizer, as it is in
the source.
-/
namespace KaspaPortal.Transaction.Kspt.AntiKlepto
open Lib Primitives Model Crypto.AntiKlepto

/-! ## Signature slots -/

def hasPubkeyPosition (input : TransactionInput) (pubkeyPosition : UInt8) : Bool :=
  (input.sigs.val.take (min input.sigCount.toNat MAX_SIGS_PER_INPUT)).any fun slot =>
    slot.present && slot.pubkeyPos == pubkeyPosition

/-- The signature as the only one. -/
def setSingleSignature (input : TransactionInput) (signature : FixedBytes 64)
    (sighashType pubkeyPosition : UInt8) (compressedPublicKey : FixedBytes 33) : TransactionInput :=
  { input with
    sigs := ⟨(input.sigs.val.map fun slot => { slot with present := false }).modify 0 fun _ =>
      ⟨signature, sighashType, pubkeyPosition, true, compressedPublicKey⟩, by
        rw [List.length_modify, List.length_map]
        exact input.sigs.property⟩
    sigCount := 1
    sighashType := sighashType }

/-- The signature in the next free slot; nothing when it cannot be added. -/
def appendSignature (input : TransactionInput) (signature : FixedBytes 64)
    (sighashType pubkeyPosition : UInt8) (compressedPublicKey : FixedBytes 33) : Option TransactionInput :=
  let slotIndex := input.sigCount.toNat
  if hasPubkeyPosition input pubkeyPosition then none
  else if MAX_SIGS_PER_INPUT ≤ slotIndex then none
  else if slotIndex ≠ 0 ∧ input.sighashType ≠ sighashType then none
  else some { input with
    sigs := input.sigs.modify slotIndex fun _ =>
      ⟨signature, sighashType, pubkeyPosition, true, compressedPublicKey⟩
    sigCount := input.sigCount + 1
    sighashType := sighashType }

def initialSignatureCounts (tx : Transaction) : List UInt8 := tx.inputs.map (·.sigCount)

/-! ## Records -/

/-- The slots added to one input since `initialCounts`, with the first one's index. -/
def addedSignatures (tx : Transaction) (initialCounts : List UInt8) (inputIndex : Nat) :
    Except PsktError (Nat × List InputSig) := do
  let input ← okOr .invalidSignatureState (tx.inputs[inputIndex]?)
  let start ← okOr .invalidSignatureState (initialCounts[inputIndex]?)
  rejectIf (input.sigCount.toNat < start.toNat ∨ MAX_SIGS_PER_INPUT < input.sigCount.toNat)
    PsktError.invalidSignatureState
  return (start.toNat, (input.sigs.val.take input.sigCount.toNat).drop start.toNat)

/-- The loop over the added slots of one input. -/
def recordSlots {Record : Type} (record : Nat → InputSig → Except PsktError Record) :
    Nat → List InputSig → Except PsktError (List Record)
  | _, [] => .ok []
  | slot, sig :: sigs => do
    let first ← record slot sig
    let rest ← recordSlots record (slot + 1) sigs
    return first :: rest

/-- The loop over the inputs. -/
def recordInputs {Record : Type} (tx : Transaction) (initialCounts : List UInt8)
    (record : Nat → Nat → InputSig → Except PsktError Record) :
    List Nat → Except PsktError (List Record)
  | [] => .ok []
  | inputIndex :: rest => do
    let (start, signatures) ← addedSignatures tx initialCounts inputIndex
    let here ← recordSlots (record inputIndex) start signatures
    let others ← recordInputs tx initialCounts record rest
    return here ++ others

def commitmentRecord (inputIndex slot : Nat) (sig : InputSig) : Except PsktError NonceCommitment := do
  rejectIf (sig.present = false ∨ sig.pubkeyCompressed.val.head? = some 0) PsktError.invalidSignatureState
  rejectIf (2 ^ 32 ≤ inputIndex) PsktError.tooManyInputs
  return {
    inputIndex := UInt32.ofNat inputIndex
    signatureSlot := UInt8.ofNat slot
    publicKey := compressed 0x02 (xonly sig.pubkeyCompressed)
    noncePoint := provisionalNoncePoint sig.signature }

def proofRecord (inputIndex slot : Nat) (sig : InputSig) : Except PsktError SignatureProof := do
  rejectIf (sig.present = false) PsktError.invalidSignatureState
  rejectIf (2 ^ 32 ≤ inputIndex) PsktError.tooManyInputs
  return ⟨UInt32.ofNat inputIndex, UInt8.ofNat slot⟩

/-- Every record, and at least one. -/
def records {Record : Type} (tx : Transaction) (initialCounts : List UInt8)
    (record : Nat → Nat → InputSig → Except PsktError Record) : Except PsktError (List Record) := do
  let made ← recordInputs tx initialCounts record (List.range tx.inputs.length)
  rejectIf (made.length = 0) PsktError.noInputs
  return made

/-- Commit to the nonces of the signatures added since `initialCounts`. -/
def nonceCommitmentRecords (tx : Transaction) (initialCounts : List UInt8) :
    Except PsktError (List NonceCommitment) :=
  records tx initialCounts commitmentRecord

def proofRecords (tx : Transaction) (initialCounts : List UInt8) :
    Except PsktError (List SignatureProof) :=
  records tx initialCounts proofRecord

/-! ## Finalization -/

structure SigningKeyMaterial where
  privateKey : FixedBytes 32
  compressedPublicKey : FixedBytes 33

/-- Where the finalizer gets the key behind a signature. -/
abbrev Resolver := Transaction → FixedBytes 33 → Option SigningKeyMaterial

def finalizationError : AntiKleptoError → PsktError
  | .reusableProvisionalNonce => .reusableNonce
  | _ => .signingFailed

section
variable {n : Nat} {Point : Type} [AddCommGroup Point] [Module (ZMod n) Point] [DecidableEq Point]
  (curve : Curve n Point) (signingHash : Bytes → FixedBytes 32)
  (sessionId : FixedBytes SESSION_ID_LEN) (hostSecret : FixedBytes 32) (resolve : Resolver)

def replaceSignature (signature : FixedBytes 64) (slot : Nat) (input : TransactionInput) : TransactionInput :=
  { input with sigs := input.sigs.modify slot fun sig => { sig with signature := signature } }

def finalizeWithMaterial (tx : Transaction) (inputIndex slot : Nat) (sighashByte : UInt8)
    (provisional : FixedBytes 64) (privateKey : FixedBytes 32) : Except PsktError Transaction := do
  let sighashType ← okOr .invalidSigHashType (SigHashType.fromByte sighashByte)
  let message := calculateSighash signingHash tx.sighashSource inputIndex sighashType
  rejectIf (2 ^ 32 ≤ inputIndex) PsktError.tooManyInputs
  let finalSignature ← (curve.tweakProvisionalSignature privateKey message provisional sessionId hostSecret
    (UInt32.ofNat inputIndex) (UInt8.ofNat slot)).mapError finalizationError
  return tx.modifyInput inputIndex (replaceSignature finalSignature slot)

def finalizeSignatureSlot (tx : Transaction) (inputIndex slot : Nat) : Except PsktError Transaction := do
  let sig := slotAt tx inputIndex slot
  rejectIf (sig.present = false ∨ sig.pubkeyCompressed.val.head? = some 0) PsktError.invalidSignatureState
  let material ← okOr .derivationFailed (resolve tx sig.pubkeyCompressed)
  rejectIf (material.compressedPublicKey ≠ sig.pubkeyCompressed) PsktError.derivationFailed
  finalizeWithMaterial curve signingHash sessionId hostSecret tx inputIndex slot sig.sighashType sig.signature
    material.privateKey

/-- The loop over the slots of one input. -/
def finalizeSlots (inputIndex : Nat) : List Nat → Transaction → Except PsktError Transaction
  | [], tx => .ok tx
  | slot :: slots, tx => do
    let tx ← finalizeSignatureSlot curve signingHash sessionId hostSecret resolve tx inputIndex slot
    finalizeSlots inputIndex slots tx

def finalizeInputSignatures (tx : Transaction) (inputIndex : Nat) (initialCount : UInt8) :
    Except PsktError (Transaction × Nat) := do
  let start := initialCount.toNat
  let stop := (inputAt tx inputIndex).sigCount.toNat
  rejectIf (stop < start ∨ MAX_SIGS_PER_INPUT < stop) PsktError.invalidSignatureState
  let tx ← finalizeSlots curve signingHash sessionId hostSecret resolve inputIndex
    (List.range' start (stop - start)) tx
  return (tx, stop - start)

/-- The loop over the inputs, each with the count it had. -/
def finalizeInputs : List (UInt8 × Nat) → Transaction → Nat → Except PsktError (Transaction × Nat)
  | [], tx, changed => .ok (tx, changed)
  | (initialCount, inputIndex) :: rest, tx, changed => do
    let (tx, added) ← finalizeInputSignatures curve signingHash sessionId hostSecret resolve tx inputIndex
      initialCount
    finalizeInputs rest tx (changed + added)

/-- The finalized transaction and how many signatures were changed. -/
def finalizeMatching (tx : Transaction) (initialCounts : List UInt8) :
    Except PsktError (Transaction × Nat) := do
  rejectIf (initialCounts.length < tx.inputs.length) PsktError.invalidSignatureState
  let (tx, changed) ← finalizeInputs curve signingHash sessionId hostSecret resolve
    (initialCounts.take tx.inputs.length).zipIdx tx 0
  rejectIf (changed = 0) PsktError.noInputs
  return (tx, changed)

/-- `compressed_pubkey_from_raw_key`. -/
def compressedPubkeyFromRawKey (privateKey : FixedBytes 32) : Option (FixedBytes 33) :=
  match scalarFromCanonical n privateKey with
  | none => none
  | some secret => if secret = 0 then none else some (curve.toSec1Bytes (secret • curve.generator))

/-- The one key of a raw-key signer. -/
def rawKeyResolver (privateKey : FixedBytes 32) (publicKey : FixedBytes 33) : Resolver :=
  fun _ sigPubkey => if sigPubkey = publicKey then some ⟨privateKey, publicKey⟩ else none

def finalizeRawKeySignatures (tx : Transaction) (privateKey : FixedBytes 32) (initialCounts : List UInt8) :
    Except PsktError (Transaction × Nat) := do
  let publicKey ← okOr .derivationFailed (compressedPubkeyFromRawKey curve privateKey)
  finalizeMatching curve signingHash sessionId hostSecret (rawKeyResolver privateKey publicKey) tx initialCounts

end

end KaspaPortal.Transaction.Kspt.AntiKlepto
