import KaspaPortal.Transaction.Model

/-!
# Signature hashes

`src/transaction/sighash/`: the message a signature commits to, for any
representation of a transaction. Every hash is BLAKE2b-256 keyed with one domain
over the concatenation of what the source feeds it; it and the signature check are
given.

How a representation reads its transaction is part of the representation; both
that exist are instances of one source.
-/
namespace KaspaPortal.Transaction
open Lib Model

/-- The primitives signatures rest on. -/
structure SignatureCrypto where
  /-- BLAKE2b-256 keyed with `TransactionSigningHash`. -/
  signingHash : Bytes → FixedBytes 32
  /-- BIP340 verification of a signature of a message under an x-only key. -/
  schnorrVerify : (publicKey message : FixedBytes 32) → (signature : FixedBytes 64) → Bool

/-- The previous output and spending fields of one input. -/
structure SighashInput where
  transactionId : FixedBytes 32
  index : UInt32
  sequence : UInt64
  sigOpCount : UInt8
  scriptVersion : UInt16
  script : Bytes
  amount : UInt64
  deriving DecidableEq

/-- One output, with its covenant binding when present. -/
structure SighashOutput where
  value : UInt64
  scriptVersion : UInt16
  script : Bytes
  covenant : Option (UInt16 × FixedBytes 32)
  deriving DecidableEq

/-- What a signature hash can see of a transaction. -/
structure SighashSource where
  version : UInt16
  inputs : List SighashInput
  outputs : List SighashOutput
  locktime : UInt64
  subnetworkId : FixedBytes 20
  gas : UInt64
  payload : Bytes
  deriving DecidableEq

section components
variable (hash : Bytes → FixedBytes 32) (tx : SighashSource) (sighashType : SigHashType)

def previousOutputsHash : FixedBytes 32 :=
  if sighashType.isAnyOneCanPay then zeros 32
  else hash (tx.inputs.flatMap fun input =>
    input.transactionId.val ++ leBytes 4 input.index.toNat)

def sequencesHash : FixedBytes 32 :=
  if sighashType.isAnyOneCanPay ∨ sighashType.isSighashSingle ∨ sighashType.isSighashNone then zeros 32
  else hash (tx.inputs.flatMap fun input => leBytes 8 input.sequence.toNat)

def sigOpCountsHash : FixedBytes 32 :=
  if sighashType.isAnyOneCanPay then zeros 32
  else hash (tx.inputs.map fun input => input.sigOpCount)

/-- `hash_output`: the bytes fed for one output. -/
def hashOutput (output : SighashOutput) (txVersion : UInt16) : Bytes :=
  leBytes 8 output.value.toNat ++ leBytes 2 output.scriptVersion.toNat ++
    leBytes 8 output.script.length ++ output.script ++
    if 1 ≤ txVersion then
      match output.covenant with
      | some (authorizingInput, covenantId) =>
        [1] ++ leBytes 2 authorizingInput.toNat ++ covenantId.val
      | none => [0]
    else []

def outputsHash (inputIndex : Nat) : FixedBytes 32 :=
  if sighashType.isSighashNone then zeros 32
  else if sighashType.isSighashSingle then
    match tx.outputs[inputIndex]? with
    | none => zeros 32
    | some output => hash (hashOutput output tx.version)
  else hash (tx.outputs.flatMap fun output => hashOutput output tx.version)

def payloadHash : FixedBytes 32 :=
  if tx.subnetworkId = SUBNETWORK_ID_NATIVE ∧ tx.payload = [] then zeros 32
  else hash (leBytes 8 tx.payload.length ++ tx.payload)

end components

/-- The message signed for one input. The source indexes the inputs and its callers
have checked the index; there is nothing to sign past the end. -/
def calculateSighash (hash : Bytes → FixedBytes 32) (tx : SighashSource) (inputIndex : Nat)
    (sighashType : SigHashType) : FixedBytes 32 :=
  match tx.inputs[inputIndex]? with
  | none => zeros 32
  | some input => hash (
      leBytes 2 tx.version.toNat ++
      (previousOutputsHash hash tx sighashType).val ++
      (sequencesHash hash tx sighashType).val ++
      (if tx.version = 0 then (sigOpCountsHash hash tx sighashType).val else []) ++
      input.transactionId.val ++
      leBytes 4 input.index.toNat ++
      leBytes 2 input.scriptVersion.toNat ++
      leBytes 8 input.script.length ++
      input.script ++
      leBytes 8 input.amount.toNat ++
      leBytes 8 input.sequence.toNat ++
      (if tx.version = 0 then [input.sigOpCount] else []) ++
      (outputsHash hash tx sighashType inputIndex).val ++
      leBytes 8 tx.locktime.toNat ++
      tx.subnetworkId.val ++
      leBytes 8 tx.gas.toNat ++
      (payloadHash hash tx).val ++
      [sighashType.toByte])

namespace Model.Transaction

def sighashInput (input : TransactionInput) : SighashInput where
  transactionId := input.previousOutpoint.transactionId
  index := input.previousOutpoint.index
  sequence := input.sequence
  sigOpCount := input.sigOpCount
  scriptVersion := input.utxoEntry.scriptPublicKey.version
  script := input.utxoEntry.scriptPublicKey.script
  amount := input.utxoEntry.amount

def sighashOutput (output : TransactionOutput) : SighashOutput where
  value := output.value
  scriptVersion := output.scriptPublicKey.version
  script := output.scriptPublicKey.script
  covenant := if output.hasCovenant then some (output.covenantAuthInput, output.covenantId) else none

def sighashSource (tx : Transaction) : SighashSource where
  version := tx.version
  inputs := tx.inputs.map sighashInput
  outputs := tx.outputs.map sighashOutput
  locktime := tx.locktime
  subnetworkId := tx.subnetworkId
  gas := tx.gas
  payload := tx.payload

end Model.Transaction

end KaspaPortal.Transaction
