import KaspaPortal.Lib.Radix
import KaspaPortal.Primitives.Hex
import KaspaPortal.Transaction.Pskt.Signatures
import KaspaPortal.Transaction.Pskt.Standard.Preservation
import KaspaPortal.Transaction.Pskt.Wire

/-!
# The PSKT serializer

`src/transaction/interchange/pskt/standard/serializer/`: the canonical JSON of a transaction in
hexadecimal behind its magic, with the captured fields put back into the objects they came from. The
output buffer is its capacity and what has been written; the reserved heap buffer of
`serialize_pskt_vec` is taken to be there.

The parser of the same format is not modelled, so that what was captured is any ranges of any
scratch bytes.
-/
namespace KaspaPortal.Transaction.Pskt.Serializer
open Lib Primitives Model Signatures

/-- What is serialized: the model has no place for the block score of an input. -/
structure SerializedTransaction extends StandardTransaction where
  blockDaaScores : List UInt64
  blockDaaScores_length : blockDaaScores.length = tx.inputs.length
  deriving DecidableEq

/-- One input of it. -/
structure SerializedInput where
  input : TransactionInput
  incoming : PartialSigs
  blockDaaScore : UInt64
  deriving DecidableEq

/-- The inputs with what the document said of each. -/
def SerializedTransaction.inputs (self : SerializedTransaction) : List SerializedInput :=
  (self.tx.inputs.zip (self.incoming.zip self.blockDaaScores)).map fun entry =>
    ⟨entry.1, entry.2.1, entry.2.2⟩

/-- Writing with an error of the serializer. Room is the one error that depends on the buffer. -/
abbrev Serializing := Writing PskError Unit

/-! ## The writer -/

namespace HexWriter

/-- Two digits for each byte. -/
def bytes (s : Bytes) : Serializing := putBytes .outputBufferTooSmall (encodeLowerHex s)

/-- One byte of text. -/
def byte (b : UInt8) : Serializing := bytes [b]

/-- A fragment of JSON. -/
def lit (s : String) : Serializing := bytes (ascii s)

/-- A range of the original JSON. -/
def scratchRange (scratch : Bytes) (start stop : UInt32) : Serializing :=
  match slice scratch start.toNat stop.toNat with
  | none => throw .unexpectedToken
  | some range => bytes range

/-- Decimal digits without a leading zero, and zero as one digit. -/
def u64 (v : UInt64) : Serializing :=
  if v = 0 then byte 0x30
  else bytes ((numeral 10 v.toNat).map fun digit => 0x30 + UInt8.ofNat digit)

/-- Amounts are written as strings, since a number of JSON may be read as a float. -/
def u64String (value : UInt64) : Serializing := do
  lit "\""
  u64 value
  lit "\""

/-- The digits of each byte, which are bytes of the JSON. -/
def hexDigits (value : Bytes) : Serializing := value.forM fun b => do
  byte (hexDigit (b >>> 4))
  byte (hexDigit (b &&& 0x0F))

def hexStringField (value : Bytes) : Serializing := do
  lit "\""
  hexDigits value
  lit "\""

end HexWriter

open HexWriter

/-- Four hexadecimal digits, the most significant one first. -/
def emitScriptVersion (version : UInt16) : Serializing := do
  byte (hexDigit ((version >>> 12) &&& 0x0F).toUInt8)
  byte (hexDigit ((version >>> 8) &&& 0x0F).toUInt8)
  byte (hexDigit ((version >>> 4) &&& 0x0F).toUInt8)
  byte (hexDigit (version &&& 0x0F).toUInt8)

/-- Version and script as one string of hexadecimal. -/
def emitScriptPublicKey (spk : ScriptPublicKey) : Serializing := do
  rejectIf (MAX_SCRIPT_SIZE < spk.script.length) PskError.invalidScriptLen
  lit "\""
  emitScriptVersion spk.version
  hexDigits spk.script
  lit "\""

/-- The loops over an array: a comma before every item but the first. -/
def emitSeparated {α : Type} (items : List α) (emit : Nat → α → Serializing) : Serializing :=
  items.zipIdx.forM fun item => do
    if 0 < item.2 then lit ","
    emit item.2 item.1

section preserved

variable (parsed : PsktParsed) (scratch : Bytes)

/-- What the document said is written back as it stood; a field it left out gets the default. -/
def emitValueOrDefault (scope : PsktUnknownScope) (name default : String) : Serializing := do
  match ← StateT.lift (findCapturedValue parsed scratch scope (ascii name)) with
  | some (start, stop) => scratchRange scratch start stop
  | none => lit default

/-- Fields the serializer does not know are written back, unless it has written them already. -/
def emitAdditionalField (scope : PsktUnknownScope) (excluded : List String) (index : Nat) :
    Serializing := do
  match ← StateT.lift (capturedFieldAt parsed scratch index) with
  | none => pure ()
  | some (capturedScope, field) =>
    if capturedScope ≠ scope ∨ (excluded.map ascii).contains field.key then pure ()
    else do
      lit ","
      scratchRange scratch field.fieldStart field.stop

/-- Append captured fields that are not already emitted at canonical positions. -/
def emitAdditionalFields (scope : PsktUnknownScope) (excluded : List String) : Serializing :=
  (List.range parsed.unknownsCount.toNat).forM (emitAdditionalField parsed scratch scope excluded)

/-! ## The global map -/

/-- Captured fields with a place of their own among the global ones. -/
def KNOWN_CAPTURED_FIELDS : List String :=
  ["fallbackLockTime", "inputsModifiable", "outputsModifiable", "xpubs", "id", "proprietaries"]

/-- The format's version is always zero; the transaction's is its own. -/
def emitGlobalVersion (tx : Transaction) : Serializing := do
  lit "\x7b\"version\":0,\"txVersion\":"
  u64 (UInt64.ofNat tx.version.toNat)

def emitGlobalConsensusFields (tx : Transaction) : Serializing := do
  lit ",\"subnetworkId\":"
  hexStringField tx.subnetworkId.val
  lit ",\"gas\":"
  u64String tx.gas
  lit ",\"txPayload\":"
  hexStringField tx.payload

/-- A lock the document left out is written as `null`, whatever the transaction holds. -/
def emitGlobalLocktime (tx : Transaction) (scope : PsktUnknownScope) : Serializing := do
  lit ",\"fallbackLockTime\":"
  let captured ← StateT.lift (findCapturedValue parsed scratch scope (ascii "fallbackLockTime"))
  if captured.isSome then u64String tx.locktime else lit "null"

def emitGlobalModifiability (scope : PsktUnknownScope) : Serializing := do
  lit ",\"inputsModifiable\":"
  emitValueOrDefault parsed scratch scope "inputsModifiable" "true"
  lit ",\"outputsModifiable\":"
  emitValueOrDefault parsed scratch scope "outputsModifiable" "true"

def emitGlobalCounts (tx : Transaction) : Serializing := do
  lit ",\"inputCount\":"
  u64 (UInt64.ofNat tx.inputs.length)
  lit ",\"outputCount\":"
  u64 (UInt64.ofNat tx.outputs.length)

/-- The remaining global fields, from the document or empty. -/
def emitGlobalPreserved (scope : PsktUnknownScope) : Serializing := do
  lit ",\"xpubs\":"
  emitValueOrDefault parsed scratch scope "xpubs" "\x7b\x7d"
  lit ",\"id\":"
  emitValueOrDefault parsed scratch scope "id" "null"
  lit ",\"proprietaries\":"
  emitValueOrDefault parsed scratch scope "proprietaries" "\x7b\x7d"

/-- The global object, its unknown fields last. -/
def emitGlobal (tx : Transaction) : Serializing := do
  emitGlobalVersion tx
  emitGlobalConsensusFields tx
  emitGlobalLocktime parsed scratch tx .global
  emitGlobalModifiability parsed scratch .global
  emitGlobalCounts tx
  emitGlobalPreserved parsed scratch .global
  emitAdditionalFields parsed scratch .global KNOWN_CAPTURED_FIELDS
  lit "\x7d"

/-! ## Inputs -/

/-- Captured fields with a place of their own in an input. -/
def INPUT_CAPTURED_FIELDS : List String :=
  ["minTime", "bip32Derivations", "finalScriptSig", "proprietaries"]

def UTXO_CAPTURED_FIELDS : List String := ["isCoinbase"]

/-- `u32::try_from(index)`, and the scope of that index. -/
def scopeAt (kind : PsktUnknownScopeKind) (error : PskError) (index : Nat) :
    Writing PskError PsktUnknownScope := do
  rejectIf (2 ^ 32 ≤ index) error
  return ⟨kind, UInt32.ofNat index⟩

/-- Amount and script of the spent entry. -/
def emitUtxoIdentity (self : SerializedInput) : Serializing := do
  lit "\x7b\"amount\":"
  u64String self.input.utxoEntry.amount
  lit ",\"scriptPublicKey\":"
  emitScriptPublicKey self.input.utxoEntry.scriptPublicKey
  lit ",\"blockDaaScore\":"
  u64String self.blockDaaScore

/-- The spent entry. Whether it is a coinbase is what the document said, and false otherwise. -/
def emitUtxoEntry (self : SerializedInput) (index : Nat) : Serializing := do
  let scope ← scopeAt .inputUtxo .countMismatch index
  emitUtxoIdentity self
  lit ",\"isCoinbase\":"
  emitValueOrDefault parsed scratch scope "isCoinbase" "false"
  emitAdditionalFields parsed scratch scope UTXO_CAPTURED_FIELDS
  lit "\x7d"

def emitOutpoint (self : SerializedInput) (index : Nat) : Serializing := do
  let scope ← scopeAt .inputOutpoint .countMismatch index
  lit "\x7b\"transactionId\":"
  hexStringField self.input.previousOutpoint.transactionId.val
  lit ",\"index\":"
  u64 (UInt64.ofNat self.input.previousOutpoint.index.toNat)
  emitAdditionalFields parsed scratch scope []
  lit "\x7d"

def emitInputIdentity (self : SerializedInput) (index : Nat) : Serializing := do
  lit "\"utxoEntry\":"
  emitUtxoEntry parsed scratch self index
  lit ",\"previousOutpoint\":"
  emitOutpoint parsed scratch self index
  lit ",\"sequence\":"
  u64String self.input.sequence

/-- A signature under its public key. -/
def emitPartialSigEntry (signature : IncomingPartialSig) : Serializing := do
  hexStringField signature.pubkey.val
  lit ":\x7b\"schnorr\":"
  hexStringField signature.signature.val
  lit "\x7d"

/-- Without signatures the object is empty. -/
def emitPartialSigs (self : SerializedInput) : Serializing :=
  if self.incoming.entries.length = 0 then lit "\x7b\x7d"
  else do
    lit "\x7b"
    emitSeparated self.incoming.entries fun _ signature => emitPartialSigEntry signature
    lit "\x7d"

def emitBip32DerivationsForInput (self : SerializedInput) : Serializing :=
  if self.incoming.entries.length = 0 then lit "\x7b\x7d"
  else do
    lit "\x7b"
    emitSeparated self.incoming.entries fun _ signature => do
      hexStringField signature.pubkey.val
      lit ":null"
    lit "\x7d"

/-- What signing needs of an input. -/
def emitInputSigning (self : SerializedInput) (scope : PsktUnknownScope) : Serializing := do
  lit ",\"minTime\":"
  emitValueOrDefault parsed scratch scope "minTime" "null"
  lit ",\"partialSigs\":"
  emitPartialSigs self
  lit ",\"sighashType\":"
  u64 (UInt64.ofNat self.input.sighashType.toNat)

/-- A redeem script of length zero is written as `null`. -/
def emitRedeemScript (tx : Transaction) (self : SerializedInput) (index : Nat) : Serializing :=
  if self.input.redeemScriptLen = 0 then lit "null"
  else hexStringField (tx.redeemBytes index)

def emitInputBip32Derivations (self : SerializedInput) (scope : PsktUnknownScope) : Serializing := do
  let captured ← StateT.lift (findCapturedValue parsed scratch scope (ascii "bip32Derivations"))
  if captured.isSome then emitValueOrDefault parsed scratch scope "bip32Derivations" "\x7b\x7d"
  else emitBip32DerivationsForInput self

def emitInputScripts (tx : Transaction) (self : SerializedInput) (scope : PsktUnknownScope)
    (index : Nat) : Serializing := do
  lit ",\"redeemScript\":"
  emitRedeemScript tx self index
  lit ",\"sigOpCount\":"
  u64 (UInt64.ofNat self.input.sigOpCount.toNat)
  lit ",\"bip32Derivations\":"
  emitInputBip32Derivations parsed scratch self scope

def emitFinalScriptSig (scope : PsktUnknownScope) : Serializing := do
  lit ",\"finalScriptSig\":"
  emitValueOrDefault parsed scratch scope "finalScriptSig" "null"

/-- The masks are only written when the input has them. -/
def emitCovenantExecution (self : SerializedInput) : Serializing :=
  if self.input.covenantExecutionPresent = false then pure ()
  else do
    lit ",\"covenantExecution\":\x7b\"suppliedMask\":"
    u64 (UInt64.ofNat self.input.covenantExecutionMask.toNat)
    lit ",\"suppliedTrueMask\":"
    u64 (UInt64.ofNat self.input.covenantExecutionTrueMask.toNat)
    lit "\x7d"

def emitInputProprietaries (scope : PsktUnknownScope) : Serializing := do
  lit ",\"proprietaries\":"
  emitValueOrDefault parsed scratch scope "proprietaries" "\x7b\x7d"

def emitInputPreserved (self : SerializedInput) (scope : PsktUnknownScope) : Serializing := do
  emitFinalScriptSig parsed scratch scope
  emitCovenantExecution self
  emitInputProprietaries parsed scratch scope
  emitAdditionalFields parsed scratch scope INPUT_CAPTURED_FIELDS

/-- An input, its unknown fields last. -/
def emitInput (tx : Transaction) (index : Nat) (self : SerializedInput) : Serializing := do
  let scope ← scopeAt .input .countMismatch index
  lit "\x7b"
  emitInputIdentity parsed scratch self index
  emitInputSigning parsed scratch self scope
  emitInputScripts parsed scratch tx self scope index
  emitInputPreserved parsed scratch self scope
  lit "\x7d"

def emitInputsArray (source : SerializedTransaction) : Serializing := do
  lit "["
  emitSeparated source.inputs (emitInput parsed scratch source.tx)
  lit "]"

/-! ## Outputs -/

/-- Captured fields with a place of their own in an output. -/
def OUTPUT_CAPTURED_FIELDS : List String := ["redeemScript", "bip32Derivations", "proprietaries"]

def emitOutputIdentity (output : TransactionOutput) : Serializing := do
  lit "\x7b\"amount\":"
  u64String output.value
  lit ",\"scriptPublicKey\":"
  emitScriptPublicKey output.scriptPublicKey

/-- The authorising input must exist. -/
def validateCovenantBinding (tx : Transaction) (output : TransactionOutput) : Except PskError Unit :=
  rejectIf (output.hasCovenant = true ∧ tx.inputs.length ≤ output.covenantAuthInput.toNat)
    PskError.invalidCovenantBinding

/-- A binding the document wrote as `null` is written as `null` again. -/
def shouldEmitCovenantBinding (index : Nat) (output : TransactionOutput) : Bool :=
  output.hasCovenant || parsed.outputHasCovenantBindingField index

def emitPresentCovenantValue (output : TransactionOutput) : Serializing := do
  lit "\x7b\"authorizingInput\":"
  u64 (UInt64.ofNat output.covenantAuthInput.toNat)
  lit ",\"covenantId\":"
  hexStringField output.covenantId.val
  lit "\x7d"

def emitCovenantValue (output : TransactionOutput) : Serializing :=
  if output.hasCovenant = false then lit "null" else emitPresentCovenantValue output

/-- The check comes before the field is written. -/
def emitCovenantBinding (tx : Transaction) (index : Nat) (output : TransactionOutput) :
    Serializing := do
  StateT.lift (validateCovenantBinding tx output)
  if shouldEmitCovenantBinding parsed index output = false then pure ()
  else do
    lit ",\"covenantBinding\":"
    emitCovenantValue output

def emitOutputPreserved (scope : PsktUnknownScope) : Serializing := do
  lit ",\"redeemScript\":"
  emitValueOrDefault parsed scratch scope "redeemScript" "null"
  lit ",\"bip32Derivations\":"
  emitValueOrDefault parsed scratch scope "bip32Derivations" "\x7b\x7d"
  lit ",\"proprietaries\":"
  emitValueOrDefault parsed scratch scope "proprietaries" "\x7b\x7d"

/-- An output, its unknown fields last. -/
def emitOutput (tx : Transaction) (index : Nat) (output : TransactionOutput) : Serializing := do
  let scope ← scopeAt .output .tooManyOutputs index
  emitOutputIdentity output
  emitCovenantBinding parsed tx index output
  emitOutputPreserved parsed scratch scope
  emitAdditionalFields parsed scratch scope OUTPUT_CAPTURED_FIELDS
  lit "\x7d"

def emitOutputsArray (tx : Transaction) : Serializing := do
  lit "["
  emitSeparated tx.outputs (emitOutput parsed scratch tx)
  lit "]"

/-! ## The envelope -/

/-- The three parts of a document. -/
def emitPsktObject (source : SerializedTransaction) : Serializing := do
  lit "\x7b\"global\":"
  emitGlobal parsed scratch source.tx
  lit ",\"inputs\":"
  emitInputsArray parsed scratch source
  lit ",\"outputs\":"
  emitOutputsArray parsed scratch source.tx
  emitAdditionalFields parsed scratch .topLevel []
  lit "\x7d"

/-- A bundle holds one document in an array. -/
def emitEnvelope (source : SerializedTransaction) (bundle : Bool) : Serializing := do
  if bundle then lit "["
  emitPsktObject parsed scratch source
  if bundle then lit "]"

/-- The three ways in which the amounts of a transaction fail. -/
def monetaryError : TransactionAmountError → PskError
  | .inputTotalOverflow => .inputAmountOverflow
  | .outputTotalOverflow => .outputAmountOverflow
  | .outputsExceedInputs => .outputsExceedInputs

/-- Only the amounts are checked; their fee is not looked at. -/
def validateMonetaryShape (tx : Transaction) : Except PskError Unit := do
  let _ ← tx.checkedAmounts.mapError monetaryError

/-- The declared inputs are there; the outputs are as long as their array. -/
def validateSerializationShape (tx : Transaction) : Except PskError Unit := do
  rejectIf (tx.limits.maxInputs < tx.inputs.length) PskError.tooManyInputs
  rejectIf (MAX_OUTPUTS < tx.outputs.length) PskError.tooManyOutputs
  validateMonetaryShape tx
  validatePreservationMetadata parsed scratch tx.inputs.length tx.outputs.length

/-- A compact envelope is not written by this serializer. -/
def serializationMagic : TxInputFormat → Except PskError Bytes
  | .psktPskb => .ok PSKB_MAGIC
  | .psktSingle => .ok PSKT_MAGIC
  | .ksptCompact => .error .unexpectedToken

/-- The room for the prefix is asked for before the transaction is checked. -/
def emitPskt (source : SerializedTransaction) (format : TxInputFormat) (magic : Bytes) :
    Serializing := do
  putBytes .outputBufferTooSmall magic
  StateT.lift (validateSerializationShape parsed scratch source.tx)
  emitEnvelope parsed scratch source (format = .psktPskb)

/-- Serialize as a PSKB bundle or a single PSKT envelope, into a buffer of `capacity` bytes. -/
def serializePskt (source : SerializedTransaction) (format : TxInputFormat) (capacity : Nat) :
    Except PskError Bytes := do
  let magic ← serializationMagic format
  written (emitPskt parsed scratch source format magic) capacity

/-- The first buffer: the length of what was read, with some room, and never below a page. -/
def psktCapacity (width : PointerWidth) (scratchLen : Nat) : Nat :=
  max 4096 (width.saturatingAdd scratchLen 1024)

theorem psktCapacity_pos (width : PointerWidth) (scratchLen : Nat) :
    0 < psktCapacity width scratchLen := Nat.lt_of_lt_of_le (by decide) (Nat.le_max_left _ _)

/-- The sum saturates, so that the capacity is a length the platform can name. -/
theorem psktCapacity_le (width : PointerWidth) (scratchLen : Nat) :
    psktCapacity width scratchLen ≤ width.usizeMax :=
  Nat.max_le.mpr ⟨Nat.le_of_lt (width.lt_usizeMax (by decide)), width.saturatingAdd_le _ _⟩

/-- Serialize into a heap buffer that grows until the canonical PSKT fits. -/
def serializePsktVec (width : PointerWidth) (source : SerializedTransaction) (format : TxInputFormat) :
    Except PskError Bytes :=
  grow width.usizeMax .outputBufferTooSmall (serializePskt parsed scratch source format)
    (psktCapacity width scratch.length) (psktCapacity_pos width scratch.length)

end preserved

end KaspaPortal.Transaction.Pskt.Serializer
