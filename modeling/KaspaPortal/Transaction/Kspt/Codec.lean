import KaspaPortal.Transaction.Kspt.Accepts
import KaspaPortal.Transaction.Kspt.Encode
import KaspaPortal.Transaction.SignatureVerification

/-!
# Compact KSPT of a transaction

`src/transaction/interchange/kspt/codec/`: the signer's transaction as the
encoder's source and the decoder's sink, and the two entry points. On top of the
grammar the sink takes only SIGHASH_ALL signatures, and the header's flag must say
whether the transaction is fully signed.
-/
namespace KaspaPortal.Transaction.Kspt
open Lib Primitives Model

/-- `From<WireError>`. -/
def PsktError.ofWire : WireError → PsktError
  | .bufferTooShort | .countOverflow => .bufferTooShort
  | .outputBufferTooSmall => .outputBufferTooSmall
  | .invalidMagic => .invalidMagic
  | .unsupportedVersion => .unsupportedVersion
  | .invalidFlags => .invalidFlags
  | .scriptTooLong | .redeemTooLong => .scriptTooLong
  | .tooManySignatures => .tooManySignatures
  | .duplicateSignaturePosition => .invalidSignatureState
  | .invalidSigHashType => .invalidSigHashType
  | .invalidNetwork | .missingNetwork | .invalidTrailer => .invalidTrailer
  | .trailingData => .trailingData
  | .tooManyInputs => .tooManyInputs
  | .tooManyOutputs => .tooManyOutputs
  | .payloadTooLong => .payloadTooLong
  | .unsupportedTransactionVersion => .unsupportedTransactionVersion
  | .nonCanonicalEncoding => .nonCanonicalEncoding

/-- Model fields the grammar rejects on encode are model inconsistencies. -/
def encodeError : WireError → PsktError
  | .invalidNetwork | .invalidTrailer | .countOverflow => .invalidModel
  | other => .ofWire other

/-- The transaction's configured capacity, expressed as grammar limits. -/
def limitsOf (tx : Transaction) : Limits where
  maxInputs := UInt32.ofNat tx.limits.maxInputs
  maxOutputs := UInt8.ofNat MAX_OUTPUTS
  maxPayload := tx.limits.maxPayloadBytes

/-! ## Source -/

def ms45 (hint : Ms45Hint) : Option Ms45Derivation :=
  if hint.present then some ⟨hint.cosigner, hint.chain, hint.index⟩ else none

def derivation (present : Bool) (branch : UInt8) (index : UInt32) : Option Derivation :=
  if present then some ⟨branch, index⟩ else none

/-- `inputs[index]`; the encoder only asks for declared ones. -/
def inputAt (tx : Transaction) (index : Nat) : TransactionInput := tx.inputs[index]?.getD .empty

def outputAt (tx : Transaction) (index : Nat) : TransactionOutput := tx.outputs[index]?.getD .empty

def wireInputValue (input : TransactionInput) : Input where
  previousTxId := input.previousOutpoint.transactionId
  previousIndex := input.previousOutpoint.index
  amount := input.utxoEntry.amount
  sequence := input.sequence
  sigOpCount := input.sigOpCount
  scriptVersion := input.utxoEntry.scriptPublicKey.version
  script := input.utxoEntry.scriptPublicKey.script

def wireSignature (slot : InputSig) : Signature := ⟨slot.pubkeyPos, slot.sighashType, slot.signature⟩

def wireOutput (output : TransactionOutput) : Output :=
  ⟨output.value, output.scriptPublicKey.version, output.scriptPublicKey.script⟩

def wireCovenant (output : TransactionOutput) : Option Covenant :=
  if output.hasCovenant then some ⟨output.covenantAuthInput, output.covenantId⟩ else none

def wireExecution (input : TransactionInput) : Option CovenantExecution :=
  if input.covenantExecutionPresent then
    some ⟨input.covenantExecutionMask, input.covenantExecutionTrueMask⟩
  else none

def transactionSource (crypto : SignatureCrypto) (tx : Transaction) : EncodeSource where
  global := {
    flags := if ksptIsFullySigned crypto tx then FLAG_SIGNED_OR_COMPLETE else 0
    version := tx.version
    inputCount := UInt32.ofNat tx.inputs.length
    outputCount := UInt8.ofNat tx.outputs.length
    locktime := tx.locktime
    subnetworkId := tx.subnetworkId
    gas := tx.gas
    payload := tx.payload }
  input := fun index => wireInputValue (inputAt tx index)
  signatureCount := fun index => (inputAt tx index).sigCount.toNat
  signature := fun index slot => wireSignature ((inputAt tx index).sigs.val[slot]?.getD .empty)
  redeem := fun index => match checkedRedeemBytes tx index with
    | .ok redeem => redeem
    | .error _ => []
  output := fun index => wireOutput (outputAt tx index)
  network := tx.network.toByte
  stealth := if tx.hasStealthTweak then some tx.stealthTweak else none
  inputDerivation := fun index =>
    let input := inputAt tx index
    derivation input.hasDerivationHint input.derivationBranch input.derivationIndex
  outputDerivation := fun index =>
    let output := outputAt tx index
    derivation output.hasDerivationHint output.derivationBranch output.derivationIndex
  inputMs45 := fun index => ms45 (inputAt tx index).ms45Hint
  outputMs45 := fun index => ms45 (outputAt tx index).ms45Hint
  covenant := fun index => wireCovenant (outputAt tx index)
  covenantExecution := fun index => wireExecution (inputAt tx index)

/-! ## Sink -/

def ms45Hint (value : Ms45Derivation) : Ms45Hint := ⟨true, value.cosigner, value.chain, value.index⟩

/-- The declared outputs; the eight slots behind them are all empty. -/
def declareOutputs (tx : Transaction) (count : Nat) : Transaction :=
  { tx with outputs := List.replicate count .empty }

def sinkGlobal (value : Global) (tx : Transaction) : Except PsktError Transaction := do
  rejectIf (value.inputCount = 0) PsktError.noInputs
  rejectIf (value.outputCount = 0) PsktError.noOutputs
  let tx ← (tx.declareInputs value.inputCount.toNat).mapError fun _ => PsktError.tooManyInputs
  let tx := { declareOutputs tx value.outputCount.toNat with
    version := value.version
    locktime := value.locktime
    subnetworkId := value.subnetworkId
    gas := value.gas }
  (tx.setPayload value.payload).mapError fun _ => PsktError.storageExhausted

def fillInput (value : Input) (signatureCount : UInt8) (input : TransactionInput) :
    TransactionInput :=
  { input with
    previousOutpoint := ⟨value.previousTxId, value.previousIndex⟩
    utxoEntry := ⟨value.amount, ⟨value.scriptVersion, value.script⟩⟩
    sequence := value.sequence
    sigOpCount := value.sigOpCount
    sigCount := signatureCount
    -- Unsigned inputs carry the project-wide SIGHASH_ALL policy too.
    sighashType := SigHashType.all.toByte }

def fillSlot (value : Signature) (slot : InputSig) : InputSig :=
  { slot with
    pubkeyPos := value.position
    sighashType := value.sighash
    signature := value.bytes
    present := true }

def sinkSignature (index slot : Nat) (value : Signature) (tx : Transaction) :
    Except PsktError Transaction := do
  rejectIf (value.sighash ≠ SigHashType.all.toByte) PsktError.invalidSigHashType
  return tx.modifyInput index fun input =>
    { input with sigs := input.sigs.modify slot (fillSlot value) }

def sinkRedeem (index : Nat) (value : Bytes) (tx : Transaction) : Except PsktError Transaction :=
  if value = [] then .ok tx
  else (tx.storeRedeem index value).mapError fun _ => PsktError.scriptTooLong

def fillOutput (value : Output) (output : TransactionOutput) : TransactionOutput :=
  { output with
    value := value.amount
    scriptPublicKey := ⟨value.scriptVersion, value.script⟩ }

def sinkNetwork (code : UInt8) (tx : Transaction) : Except PsktError Transaction := do
  let network ← okOr PsktError.invalidTrailer (KaspaNetwork.fromWire code)
  return { tx with network := network }

def transactionSink : DecodeSink Transaction PsktError where
  global := sinkGlobal
  input := fun index value signatureCount tx =>
    .ok (tx.modifyInput index (fillInput value signatureCount))
  signature := sinkSignature
  redeem := sinkRedeem
  output := fun index value tx => .ok (tx.modifyOutput index (fillOutput value))
  network := sinkNetwork
  stealth := fun tweak tx => .ok { tx with stealthTweak := tweak, hasStealthTweak := true }
  inputDerivation := fun index value tx => .ok (tx.modifyInput index.toNat fun input =>
    { input with
      hasDerivationHint := true
      derivationBranch := value.branch
      derivationIndex := value.index })
  outputDerivation := fun index value tx => .ok (tx.modifyOutput index.toNat fun output =>
    { output with
      hasDerivationHint := true
      derivationBranch := value.branch
      derivationIndex := value.index })
  inputMs45 := fun index value tx => .ok (tx.modifyInput index.toNat fun input =>
    { input with ms45Hint := ms45Hint value })
  outputMs45 := fun index value tx => .ok (tx.modifyOutput index.toNat fun output =>
    { output with ms45Hint := ms45Hint value })
  covenant := fun index value tx => .ok (tx.modifyOutput index.toNat fun output =>
    { output with
      hasCovenant := true
      covenantAuthInput := value.authorizingInput
      covenantId := value.id })
  covenantExecution := fun index value tx => .ok (tx.modifyInput index.toNat fun input =>
    { input with
      covenantExecutionPresent := true
      covenantExecutionMask := value.suppliedMask
      covenantExecutionTrueMask := value.suppliedTrueMask })

/-! ## Entry points -/

variable (crypto : SignatureCrypto)

/-- The bytes written into an output buffer of `capacity` bytes. -/
def serializeCompactKspt (tx : Transaction) (capacity : Nat) : Except PsktError Bytes := do
  validatePartialSigned tx
  (encode (transactionSource crypto tx) capacity (limitsOf tx)).mapError encodeError

def decodeError : DecodeError PsktError → PsktError
  | .wire error => .ofWire error
  | .sink error => error

/-- The flag of the header says whether the transaction is fully signed. -/
def checkFlag (flags : UInt8) (tx : Transaction) : Except PsktError Unit :=
  rejectIf ((flags &&& FLAG_SIGNED_OR_COMPLETE != 0) ≠ ksptIsFullySigned crypto tx)
    PsktError.invalidSignatureState

/-- Parse into the storage of `tx`: only its limits survive. -/
def parseCompactKspt (data : Bytes) (tx : Transaction) : Except PsktError Transaction := do
  let tx := tx.clear
  let (flags, tx) ← (decode transactionSink data (limitsOf tx) tx).mapError decodeError
  checkFlag crypto flags tx
  validatePartialSigned tx
  return tx

end KaspaPortal.Transaction.Kspt
