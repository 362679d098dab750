import Mathlib.Data.List.Sort
import KaspaPortal.Contract.Script.Push
import KaspaPortal.Transaction.Pskt.Compact
import KaspaPortal.Transaction.Pskt.Schema

/-!
# The verified transaction and its witnesses

`src/transaction/interchange/pskt/pipeline/verified.rs`, `verified/plan.rs` and
`verified/witness.rs`: what a complete transaction is turned into, and the signature
scripts made from it. A verified signature and a verified route are copies of the
compact ones. The covenant plan is in `CovenantPath`.

The transaction is sent by code that is left out; what is sent is the result of
these functions.
-/
namespace KaspaPortal.Transaction.Pskt
open Lib Primitives Contract.Covenant Contract.Script

/-- What an input will reveal, decided before any script is written. -/
inductive VerifiedWitnessPlan where
  | p2pk (signature : Signature)
  | multisig (threshold : UInt8) (signatures : List Signature) (redeemScript : Bytes)
  | covenant (plan : CovenantPlan)
  | specializedCovenant (route : Compact.SpecializedRoute) (signatureScript : Bytes)
      (suppliedMask suppliedTrueMask : UInt16)

/-- What is kept of an input once its signatures are verified. -/
structure VerifiedInput where
  previousTxId : FixedBytes 32
  previousIndex : UInt32
  amount : UInt64
  sequence : UInt64
  sigOpCount : UInt8
  scriptVersion : UInt16
  scriptPublicKey : Bytes
  hasCovenantId : Bool
  witness : VerifiedWitnessPlan

/-- An output, with its covenant binding if it has one. -/
structure VerifiedOutput where
  amount : UInt64
  scriptVersion : UInt16
  scriptPublicKey : Bytes
  covenant : Option (UInt16 × FixedBytes 32)

/-- A transaction whose every input has a plan. -/
structure VerifiedTransaction where
  version : UInt16
  locktime : UInt64
  subnetworkId : FixedBytes 20
  gas : UInt64
  payload : Bytes
  inputs : List VerifiedInput
  outputs : List VerifiedOutput

/-! ## Plans -/

/-- Without a redeem script only a key can be paid to. -/
def requireP2pkScript (index : Nat) (script : Bytes) : Except String Unit :=
  rejectIf (p2pkXonly script = none)
    (inputError index "signature without redeemScript is not canonical P2PK")

/-- One signature for the one key. -/
def exactlyOneSignature (index : Nat) : List Signature → Except String Signature
  | [signature] => .ok signature
  | signatures => .error (inputError index
      ("witness plan requires exactly one verified signature, got " ++
        toString signatures.length))

/-- The one signature stands at the only position. -/
def p2pkWitnessPlan (index : Nat) (input : Compact.Input) : Except String VerifiedWitnessPlan := do
  requireP2pkScript index input.script
  let signature ← exactlyOneSignature index input.signatures
  rejectIf (signature.position ≠ 0) (inputError index "P2PK signature position must be zero")
  return .p2pk signature

def specializedWitnessPlan (specialized : Compact.SpecializedWitness) : VerifiedWitnessPlan :=
  .specializedCovenant specialized.route specialized.signatureScript specialized.suppliedMask
    specialized.suppliedTrueMask

/-- `sort_by_key`, which is stable. -/
def sortByPosition (signatures : List Signature) : List Signature :=
  signatures.insertionSort fun a b => a.position ≤ b.position

/-- Exactly as many signatures as the threshold, in the order of their keys. -/
def multisigWitnessPlan (index : Nat) (input : Compact.Input) (threshold : UInt8) :
    Except String VerifiedWitnessPlan := do
  rejectIf (input.signatures.length ≠ threshold.toNat) (inputError index
    ("verified multisig witness has " ++ toString input.signatures.length ++
      " signatures, expected " ++ toString threshold.toNat))
  return .multisig threshold (sortByPosition input.signatures) input.redeem

section plans
variable (scriptHash : Bytes → FixedBytes 32)

/-- The redeem script is the one the spent script commits to. -/
def requireP2shRedeemBinding (index : Nat) (script redeem : Bytes) : Except String Unit := do
  let committed ← okOr
    (inputError index "redeemScript is present but scriptPublicKey is not canonical P2SH")
    (p2shHash script)
  rejectIf (committed ≠ scriptHash redeem)
    (inputError index "redeemScript hash does not match scriptPublicKey")

/-- The plan of an input whose redeem script is bound to the script it spends. -/
def redeemWitnessPlan (index : Nat) (input : Compact.Input) : Except String VerifiedWitnessPlan :=
  match input.specializedWitness with
  | some specialized => .ok (specializedWitnessPlan specialized)
  | none =>
    match parseMultisigRedeem input.redeem with
    | some (threshold, _) => multisigWitnessPlan index input threshold
    | none => (covenantWitnessPlan index input.path).map .covenant

/-- A redeem script decides the kind of witness. -/
def witnessPlan (index : Nat) (input : Compact.Input) : Except String VerifiedWitnessPlan :=
  if input.redeem = [] then p2pkWitnessPlan index input
  else do
    requireP2shRedeemBinding scriptHash index input.script input.redeem
    redeemWitnessPlan index input

/-- An input with its plan. -/
def verifiedInput (index : Nat) (input : Compact.Input) : Except String VerifiedInput := do
  let witness ← witnessPlan scriptHash index input
  return {
    previousTxId := input.txId
    previousIndex := input.index
    amount := input.amount
    sequence := input.sequence
    sigOpCount := input.sigOpCount
    scriptVersion := input.scriptVersion
    scriptPublicKey := input.script
    hasCovenantId := input.hasCovenantId
    witness := witness }

/-- The loop over the inputs. -/
def verifiedInputs : Nat → List Compact.Input → Except String (List VerifiedInput)
  | _, [] => .ok []
  | index, input :: rest => do
    let first ← verifiedInput scriptHash index input
    let others ← verifiedInputs (index + 1) rest
    return first :: others

def verifiedOutput (output : Compact.Output) : VerifiedOutput where
  amount := output.amount
  scriptVersion := output.scriptVersion
  scriptPublicKey := output.script
  covenant := output.covenant

/-- All inputs or none. -/
def fromCompact (tx : Compact.Transaction) : Except String VerifiedTransaction := do
  let inputs ← verifiedInputs scriptHash 0 tx.inputs
  return {
    version := tx.version
    locktime := tx.locktime
    subnetworkId := tx.subnetwork
    gas := tx.gas
    payload := tx.payload
    inputs := inputs
    outputs := tx.outputs.map verifiedOutput }

end plans

/-! ## Signature scripts -/

/-- `push_data_item`: a signature-script item never needs `OP_PUSHDATA4`. -/
def pushDataItem (data : Bytes) : Except String Bytes := do
  rejectIf (0xffff < data.length) "data item too large"
  return pushData data

/-- `push_schnorr_signature`. -/
def pushSignature (signature : Signature) : Except String Bytes := do
  rejectIf (signature.sighash ≠ SIGHASH_ALL) "witness contains unsupported sighash"
  return [65] ++ signature.bytes.val ++ [signature.sighash]

/-- A selector is a small integer, a signature is data. -/
def pushItem : VerifiedWitnessItem → Except String Bytes
  | .selector value => .ok [if value then OP_1 else OP_0]
  | .signature signature => pushSignature signature

/-- One push after the other. -/
def pushAll {α : Type} (push : α → Except String Bytes) : List α → Except String Bytes
  | [] => .ok []
  | item :: rest => do
    let first ← push item
    let others ← pushAll push rest
    return first ++ others

/-- The signatures in order, and the redeem script last. -/
def materializeMultisig (threshold : UInt8) (signatures : List Signature) (redeemScript : Bytes) :
    Except String Bytes := do
  rejectIf (signatures.length ≠ threshold.toNat) "verified multisig witness cardinality changed"
  let pushes ← pushAll pushSignature signatures
  let redeem ← pushDataItem redeemScript
  return pushes ++ redeem

/-- The script consumes the witness from the top of the stack, so the item it
consumes first is pushed last. -/
def materializeCovenant (plan : CovenantPlan) : Except String Bytes := do
  let pushes ← pushAll pushItem plan.witness.reverse
  let redeem ← pushDataItem plan.redeemScript
  return pushes ++ redeem

/-- The route has written its own script; only the selectors are checked again. -/
def materializeSpecialized (signatureScript : Bytes) (suppliedMask suppliedTrueMask : UInt16) :
    Except String Bytes := do
  rejectIf (suppliedTrueMask &&& ~~~suppliedMask ≠ 0)
    "verified specialized covenant selector plan is invalid"
  return signatureScript

/-- The script that a plan writes, by its kind. -/
def VerifiedWitnessPlan.materializeSignatureScript : VerifiedWitnessPlan → Except String Bytes
  | .p2pk signature => pushSignature signature
  | .multisig threshold signatures redeemScript =>
    materializeMultisig threshold signatures redeemScript
  | .covenant plan => materializeCovenant plan
  | .specializedCovenant _ signatureScript suppliedMask suppliedTrueMask =>
    materializeSpecialized signatureScript suppliedMask suppliedTrueMask

end KaspaPortal.Transaction.Pskt
