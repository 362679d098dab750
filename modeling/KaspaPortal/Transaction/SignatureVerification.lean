import KaspaPortal.Contract.Covenant.Branch
import KaspaPortal.Transaction.Kspt.Validation
import KaspaPortal.Transaction.Sighash

/-!
# Signatures a transaction already carries

`src/transaction/signature_verification/mod.rs`, the compact part: every counted
signature is bound to the script key at its position and verified over the
transaction's SIGHASH_ALL message. The JSON format's own slots are not in the model,
and neither are the functions that read them.
-/
namespace KaspaPortal.Transaction
open Lib Primitives Model Kspt Contract.Covenant

inductive SignatureValidationError where
  | invalidModel | invalidSighash | invalidBinding | duplicateBinding | invalidSignature
  deriving DecidableEq, Repr

def validateCovenantExecutionBinding (input : TransactionInput) (selectorMask : BitVec 16) :
    Except SignatureValidationError Unit := do
  rejectIf (input.covenantExecutionPresent = false) SignatureValidationError.invalidBinding
  rejectIf (input.covenantExecutionTrueMask &&& ~~~input.covenantExecutionMask ≠ 0)
    SignatureValidationError.invalidBinding
  rejectIf (input.covenantExecutionMask.toBitVec ≠ selectorMask)
    SignatureValidationError.invalidBinding

/-- The branches of an input's redeem script, when the input's selectors cover them. -/
def resolvedExecution (tx : Transaction) (inputIndex : Nat) :
    Except SignatureValidationError (TransactionInput × BranchResolution) := do
  let input ← okOr .invalidModel (tx.inputs[inputIndex]?)
  let redeem ← (checkedRedeemBytes tx inputIndex).mapError fun _ =>
    SignatureValidationError.invalidModel
  let resolved ← (resolveCovenantBranches redeem).mapError fun _ =>
    SignatureValidationError.invalidBinding
  validateCovenantExecutionBinding input resolved.selectorMask
  return (input, resolved)

/-- The key is on the path the input's selectors choose. -/
def onPath (input : TransactionInput) (binding : BranchKey) : Bool :=
  binding.matchesSelectors input.covenantExecutionMask.toBitVec
    input.covenantExecutionTrueMask.toBitVec

/-- A resolution has at most sixteen keys, so the count never overflows. -/
def activeExecutionKeyCount (input : TransactionInput) (resolved : BranchResolution) : UInt8 :=
  UInt8.ofNat (resolved.keys.countP (onPath input))

def covenantRequiredForExecution (tx : Transaction) (inputIndex : Nat) : Option UInt8 :=
  match resolvedExecution tx inputIndex with
  | .error _ => none
  | .ok (input, resolved) =>
    let count := activeExecutionKeyCount input resolved
    if 0 < count ∧ count.toNat ≤ MAX_SIGS_PER_INPUT then some count else none

def requiredForInput (tx : Transaction) (inputIndex : Nat) : Option UInt8 :=
  match analyzeInputScript tx inputIndex with
  | (.p2pk, _) => some 1
  | (.multisig, some info) | (.p2sh, some info) => some info.m
  | (.p2sh, none) => covenantRequiredForExecution tx inputIndex
  | _ => none

def covenantPositionMatchesExecution (tx : Transaction) (inputIndex : Nat) (position : UInt8) :
    Except SignatureValidationError Unit := do
  let (input, resolved) ← resolvedExecution tx inputIndex
  let binding ← (resolved.keyAt position).mapError fun _ => SignatureValidationError.invalidBinding
  rejectIf (onPath input binding = false) SignatureValidationError.invalidBinding

def p2pkXonlyForPosition (tx : Transaction) (inputIndex : Nat) (position : UInt8) :
    Except SignatureValidationError (FixedBytes 32) := do
  rejectIf (position ≠ 0) SignatureValidationError.invalidBinding
  let input ← okOr .invalidModel (tx.inputs[inputIndex]?)
  okOr .invalidBinding (p2pkXonly input.utxoEntry.scriptPublicKey.script)

def multisigXonlyForPosition (info : MultisigInfo) (position : UInt8) :
    Except SignatureValidationError (FixedBytes 32) :=
  okOr .invalidBinding (info.pubkeys[position.toNat]?)

def covenantXonlyForPosition (tx : Transaction) (inputIndex : Nat) (position : UInt8) :
    Except SignatureValidationError (FixedBytes 32) := do
  let redeem ← (checkedRedeemBytes tx inputIndex).mapError fun _ =>
    SignatureValidationError.invalidModel
  let resolved ← (resolveCovenantBranches redeem).mapError fun _ =>
    SignatureValidationError.invalidBinding
  ((resolved.keyAt position).map (·.key)).mapError fun _ => SignatureValidationError.invalidBinding

def expectedXonlyForPosition (tx : Transaction) (inputIndex : Nat) (position : UInt8) :
    Except SignatureValidationError (FixedBytes 32) :=
  match analyzeInputScript tx inputIndex with
  | (.p2pk, _) => p2pkXonlyForPosition tx inputIndex position
  | (.multisig, some info) | (.p2sh, some info) => multisigXonlyForPosition info position
  | (.p2sh, none) => covenantXonlyForPosition tx inputIndex position
  | _ => .error .invalidBinding

/-- Only a covenant input has a path to check. -/
def checkCovenantPosition (tx : Transaction) (inputIndex : Nat) (position : UInt8) :
    Except SignatureValidationError Unit :=
  if analyzeInputScript tx inputIndex = (.p2sh, none) then
    covenantPositionMatchesExecution tx inputIndex position
  else .ok ()

variable (crypto : SignatureCrypto)

/-- The key, the covenant path and the signature itself. -/
def verifySignatureBytes (tx : Transaction) (inputIndex : Nat) (position sighashByte : UInt8)
    (signature : FixedBytes 64) : Except SignatureValidationError Unit := do
  rejectIf (sighashByte ≠ SigHashType.all.toByte) SignatureValidationError.invalidSighash
  let publicKey ← expectedXonlyForPosition tx inputIndex position
  checkCovenantPosition tx inputIndex position
  let message := calculateSighash crypto.signingHash tx.sighashSource inputIndex .all
  rejectIf (crypto.schnorrVerify publicKey message signature = false)
    SignatureValidationError.invalidSignature

/-- One declared slot: present, at a new position, and verified. -/
def verifyKsptSlot (tx : Transaction) (inputIndex : Nat) (slot : InputSig) (seen : List UInt8) :
    Except SignatureValidationError Unit := do
  rejectIf (slot.present = false) SignatureValidationError.invalidModel
  rejectIf (slot.pubkeyPos ∈ seen) SignatureValidationError.duplicateBinding
  verifySignatureBytes crypto tx inputIndex slot.pubkeyPos slot.sighashType slot.signature

/-- The loop over the slots, with how many are still declared; the count of five
slots never saturates. -/
def verifyKsptSlots (tx : Transaction) (inputIndex : Nat) :
    Nat → List UInt8 → UInt8 → List InputSig → Except SignatureValidationError UInt8
  | _, _, count, [] => .ok count
  | 0, seen, count, slot :: slots => do
    rejectIf (slot.present = true) SignatureValidationError.invalidModel
    verifyKsptSlots tx inputIndex 0 seen count slots
  | declared + 1, seen, count, slot :: slots => do
    verifyKsptSlot crypto tx inputIndex slot seen
    verifyKsptSlots tx inputIndex declared (slot.pubkeyPos :: seen) (count + 1) slots

def verifiedKsptCount (tx : Transaction) (inputIndex : Nat) (input : TransactionInput) :
    Except SignatureValidationError UInt8 := do
  rejectIf (MAX_SIGS_PER_INPUT < input.sigCount.toNat) SignatureValidationError.invalidModel
  verifyKsptSlots crypto tx inputIndex input.sigCount.toNat [] 0 input.sigs.val

def verifiedCount (tx : Transaction) (inputIndex : Nat) : Except SignatureValidationError UInt8 := do
  let input ← okOr .invalidModel (tx.inputs[inputIndex]?)
  verifiedKsptCount crypto tx inputIndex input

/-- The input has exactly the signatures it needs. -/
def inputIsFullySigned (tx : Transaction) (inputIndex : Nat) : Bool :=
  match requiredForInput tx inputIndex with
  | none => false
  | some required =>
    match verifiedCount crypto tx inputIndex with
    | .error _ => false
    | .ok valid => valid == required

def ksptIsFullySigned (tx : Transaction) : Bool :=
  tx.inputs.length != 0 && (List.range tx.inputs.length).all (inputIsFullySigned crypto tx)

end KaspaPortal.Transaction
