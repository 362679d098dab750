import KaspaPortal.Transaction.Kspt.Wire

/-!
# The KSPT decoder

`src/transaction/interchange/kspt/wire/decode.rs` with `decode/inputs.rs` and
`decode/trailers.rs`. The trailers come last and run to the end of the input;
their loop keeps a state that allows each kind once and in order. The six kinds
that name a position share one shape, so the source's twelve state fields for
them are one function of the kind.

The reader never looks back: what it has handed to the sink stays handed over,
also when a later byte is refused.
-/
namespace KaspaPortal.Transaction.Kspt
open Lib Primitives Model

/-- What the decoder hands its values to. -/
structure DecodeSink (σ ε : Type) where
  global : Global → σ → Except ε σ
  input : Nat → Input → UInt8 → σ → Except ε σ
  signature : Nat → Nat → Signature → σ → Except ε σ
  redeem : Nat → Bytes → σ → Except ε σ
  output : Nat → Output → σ → Except ε σ
  network : UInt8 → σ → Except ε σ
  stealth : FixedBytes 32 → σ → Except ε σ
  inputDerivation : UInt8 → Derivation → σ → Except ε σ
  outputDerivation : UInt8 → Derivation → σ → Except ε σ
  inputMs45 : UInt8 → Ms45Derivation → σ → Except ε σ
  outputMs45 : UInt8 → Ms45Derivation → σ → Except ε σ
  covenant : UInt8 → Covenant → σ → Except ε σ
  covenantExecution : UInt8 → CovenantExecution → σ → Except ε σ

section decoder
variable {σ ε : Type}

/-! ## Header and global fields -/

/-- Magic, version and flags, each with an error of its own. -/
def readHeader : WireParser σ ε UInt8 := do
  let magic ← readBytes 4
  rejectWire (magic ≠ KSPT_MAGIC) .invalidMagic
  let version ← readU8
  rejectWire (version ≠ KSPT_VERSION) .unsupportedVersion
  let flags ← readU8
  rejectWire (flags &&& ~~~ALLOWED_FLAGS ≠ 0) .invalidFlags
  return flags

/-- `read_global_prefix` and `read_global`. -/
def readGlobal (flags : UInt8) (limits : Limits) : WireParser σ ε Global := do
  let version ← readU16
  rejectWire (supportedTxVersion version = false) .unsupportedTransactionVersion
  let inputCount ← readU32
  rejectWire (limits.maxInputs < inputCount) .tooManyInputs
  let outputCount ← readU8
  rejectWire (limits.maxOutputs < outputCount) .tooManyOutputs
  let locktime ← readU64
  let subnetworkId ← readArray 20
  let gas ← readU64
  let payloadLen ← readU32
  rejectWire (limits.maxPayload < payloadLen.toNat) .payloadTooLong
  let payload ← readBytes payloadLen.toNat
  return ⟨flags, version, inputCount, outputCount, locktime, subnetworkId, gas, payload⟩

/-! ## Inputs -/

/-- The shortest record of an input. -/
def MIN_INPUT_WIRE_BYTES : Nat := 59

/-- A count that the rest of the bytes cannot hold is refused before the first record. -/
def validateInputCapacity (count : UInt32) : WireParser σ ε Unit := do
  let left ← remaining
  rejectWire (left < count.toNat * MIN_INPUT_WIRE_BYTES) .countOverflow

def readInputValue : WireParser σ ε Input := do
  let previousTxId ← readArray 32
  let previousIndex ← readU32
  let amount ← readU64
  let sequence ← readU64
  let sigOpCount ← readU8
  rejectWire (MAX_SIGNATURE_RECORDS < sigOpCount.toNat) .tooManySignatures
  let scriptVersion ← readU16
  let script ← readScript
  return ⟨previousTxId, previousIndex, amount, sequence, sigOpCount, scriptVersion, script⟩

def readSignatureCount : WireParser σ ε UInt8 := do
  let count ← readU8
  rejectWire (MAX_SIGNATURE_RECORDS < count.toNat) .tooManySignatures
  return count

/-- A position that was read before is refused. -/
def readSignature (seen : List UInt8) : WireParser σ ε Signature := do
  let position ← readU8
  rejectWire (position ∈ seen) .duplicateSignaturePosition
  let sighash ← readU8
  rejectWire (validSighash sighash = false) .invalidSigHashType
  let bytes ← readArray 64
  return ⟨position, sighash, bytes⟩

/-- The loop over the slots still to read; positions are not repeated. -/
def readSignatures (sink : DecodeSink σ ε) (index : Nat) :
    Nat → Nat → List UInt8 → WireParser σ ε Unit
  | 0, _, _ => pure ()
  | count + 1, slot, seen => do
    let signature ← readSignature seen
    toSink (sink.signature index slot signature)
    readSignatures sink index count (slot + 1) (signature.position :: seen)

def readRedeem (sink : DecodeSink σ ε) (index : Nat) : WireParser σ ε Unit := do
  let redeemLen ← readU16
  rejectWire (MAX_REDEEM_SIZE < redeemLen.toNat) .redeemTooLong
  let redeem ← readBytes redeemLen.toNat
  toSink (sink.redeem index redeem)

def readInput (sink : DecodeSink σ ε) (index : Nat) : WireParser σ ε Unit := do
  let input ← readInputValue
  let signatureCount ← readSignatureCount
  toSink (sink.input index input signatureCount)
  readSignatures sink index signatureCount.toNat 0 []
  readRedeem sink index

def readInputs (sink : DecodeSink σ ε) : Nat → Nat → WireParser σ ε Unit
  | 0, _ => pure ()
  | count + 1, index => do
    readInput sink index
    readInputs sink count (index + 1)

/-! ## Outputs -/

def readOutputs (sink : DecodeSink σ ε) : Nat → Nat → WireParser σ ε Unit
  | 0, _ => pure ()
  | count + 1, index => do
    let amount ← readU64
    let scriptVersion ← readU16
    let script ← readScript
    toSink (sink.output index ⟨amount, scriptVersion, script⟩)
    readOutputs sink count (index + 1)

/-! ## Trailers -/

/-- The kinds of trailer that name an input or an output. -/
inductive IndexedTrailer where
  | inputDerivation | outputDerivation | inputMs45 | outputMs45 | covenant | covenantExecution
  deriving DecidableEq, Repr

/-- The last position of a kind and every position it took. -/
structure Mark where
  last : Option UInt8
  seen : UInt8 → Bool

/-- What has been read so far: which kinds, and the last position of each. -/
structure TrailerState where
  network : Bool
  stealth : Bool
  lastRank : UInt8
  marks : IndexedTrailer → Mark

namespace TrailerState

def new : TrailerState := ⟨false, false, 0, fun _ => ⟨none, fun _ => false⟩⟩

/-- Record a position of one kind. -/
def mark (state : TrailerState) (kind : IndexedTrailer) (position : UInt8) : TrailerState :=
  { state with marks := fun k =>
      if k = kind then ⟨some position, fun p => p = position ∨ (state.marks k).seen p⟩
      else state.marks k }

end TrailerState

/-- The order of the kinds. -/
def markerRank (marker : UInt8) : Option UInt8 :=
  if marker = NETWORK_MARKER then some 0
  else if marker = MS45_INPUT_MARKER then some 1
  else if marker = MS45_OUTPUT_MARKER then some 2
  else if marker = STEALTH_MARKER then some 3
  else if marker = COVENANT_MARKER then some 4
  else if marker = COVENANT_EXECUTION_MARKER then some 5
  else if marker = INPUT_DERIVATION_MARKER then some 6
  else if marker = OUTPUT_DERIVATION_MARKER then some 7
  else none

def requireCanonicalMarkerOrder (marker : UInt8) (state : TrailerState) :
    Except WireError TrailerState := do
  let rank ← okOr .trailingData (markerRank marker)
  rejectIf (state.network = false ∧ marker ≠ NETWORK_MARKER) WireError.invalidTrailer
  rejectIf (rank < state.lastRank) WireError.invalidTrailer
  return { state with lastRank := rank }

/-- `require_increasing`: not at or before the last position of the kind. -/
def notIncreasing (state : TrailerState) (kind : IndexedTrailer) (position : UInt8) : Prop :=
  (state.marks kind).last.any (position ≤ ·) = true

instance (state : TrailerState) (kind : IndexedTrailer) (position : UInt8) :
    Decidable (notIncreasing state kind position) :=
  inferInstanceAs (Decidable (_ = true))

/-- A trailer that names a position: the position is new and in range, then the body. -/
def readIndexed {α : Type} (kind : IndexedTrailer) (count : Nat) (body : WireParser σ ε α)
    (hand : UInt8 → α → σ → Except ε σ) (state : TrailerState) : WireParser σ ε TrailerState := do
  let position ← readU8
  rejectWire (notIncreasing state kind position) .invalidTrailer
  rejectWire (count ≤ position.toNat ∨ (state.marks kind).seen position = true) .invalidTrailer
  let value ← body
  toSink (hand position value)
  return state.mark kind position

/-- Named once. -/
def readNetwork (sink : DecodeSink σ ε) (state : TrailerState) : WireParser σ ε TrailerState := do
  let code ← readU8
  rejectWire (state.network = true ∨ validNetwork code = false) .invalidNetwork
  toSink (sink.network code)
  return { state with network := true }

/-- Given at most once. -/
def readStealth (sink : DecodeSink σ ε) (state : TrailerState) : WireParser σ ε TrailerState := do
  rejectWire (state.stealth = true) .invalidTrailer
  let tweak ← readArray 32
  toSink (sink.stealth tweak)
  return { state with stealth := true }

def readDerivationBody : WireParser σ ε Derivation := do
  let branch ← readU8
  let index ← readU32
  rejectWire (validDerivation ⟨branch, index⟩ = false) .invalidTrailer
  return ⟨branch, index⟩

def readInputDerivation (sink : DecodeSink σ ε) (inputs : Nat) :
    TrailerState → WireParser σ ε TrailerState :=
  readIndexed .inputDerivation inputs readDerivationBody sink.inputDerivation

def readOutputDerivation (sink : DecodeSink σ ε) (outputs : Nat) :
    TrailerState → WireParser σ ε TrailerState :=
  readIndexed .outputDerivation outputs readDerivationBody sink.outputDerivation

def readMs45Body : WireParser σ ε Ms45Derivation := do
  let cosigner ← readU32
  let chain ← readU32
  let index ← readU32
  rejectWire (validMs45 ⟨cosigner, chain, index⟩ = false) .invalidTrailer
  return ⟨cosigner, chain, index⟩

def readMs45Input (sink : DecodeSink σ ε) (inputs : Nat) :
    TrailerState → WireParser σ ε TrailerState :=
  readIndexed .inputMs45 inputs readMs45Body sink.inputMs45

def readMs45Output (sink : DecodeSink σ ε) (outputs : Nat) :
    TrailerState → WireParser σ ε TrailerState :=
  readIndexed .outputMs45 outputs readMs45Body sink.outputMs45

/-- Reads the authorizing input before it checks the position. -/
def readCovenant (sink : DecodeSink σ ε) (inputs outputs : Nat) (state : TrailerState) :
    WireParser σ ε TrailerState := do
  let position ← readU8
  rejectWire (notIncreasing state .covenant position) .invalidTrailer
  let authorizing ← readU16
  rejectWire (outputs ≤ position.toNat ∨ inputs ≤ authorizing.toNat ∨
    (state.marks .covenant).seen position = true) .invalidTrailer
  let id ← readArray 32
  toSink (sink.covenant position ⟨authorizing, id⟩)
  return state.mark .covenant position

def readExecutionBody : WireParser σ ε CovenantExecution := do
  let suppliedMask ← readU16
  let suppliedTrueMask ← readU16
  rejectWire (validCovenantExecution ⟨suppliedMask, suppliedTrueMask⟩ = false) .invalidTrailer
  return ⟨suppliedMask, suppliedTrueMask⟩

def readCovenantExecution (sink : DecodeSink σ ε) (inputs : Nat) :
    TrailerState → WireParser σ ε TrailerState :=
  readIndexed .covenantExecution inputs readExecutionBody sink.covenantExecution

/-- The body a marker announces, in a state that has passed the order check. -/
def readTrailerBody (sink : DecodeSink σ ε) (inputs outputs : Nat) (marker : UInt8)
    (state : TrailerState) : WireParser σ ε TrailerState :=
  if marker = NETWORK_MARKER then readNetwork sink state
  else if marker = MS45_INPUT_MARKER then readMs45Input sink inputs state
  else if marker = MS45_OUTPUT_MARKER then readMs45Output sink outputs state
  else if marker = STEALTH_MARKER then readStealth sink state
  else if marker = COVENANT_MARKER then readCovenant sink inputs outputs state
  else if marker = COVENANT_EXECUTION_MARKER then readCovenantExecution sink inputs state
  else if marker = INPUT_DERIVATION_MARKER then readInputDerivation sink inputs state
  else if marker = OUTPUT_DERIVATION_MARKER then readOutputDerivation sink outputs state
  else throw (.wire .trailingData)

/-- By its marker; an unknown one is an error. -/
def readTrailer (sink : DecodeSink σ ε) (inputs outputs : Nat) (marker : UInt8)
    (state : TrailerState) : WireParser σ ε TrailerState :=
  match requireCanonicalMarkerOrder marker state with
  | .error error => throw (.wire error)
  | .ok state => readTrailerBody sink inputs outputs marker state

/-- The loop to the end of the input. Every round consumes its marker, so as much
fuel as there are bytes never runs out. -/
def readTrailersLoop (sink : DecodeSink σ ε) (inputs outputs : Nat) :
    Nat → TrailerState → WireParser σ ε TrailerState
  | 0, state => fun st =>
    if st.1 = [] then .ok (state, st) else .error (.wire .bufferTooShort)
  | fuel + 1, state => fun st =>
    if st.1 = [] then .ok (state, st)
    else (do
      let marker ← readU8
      let state ← readTrailer sink inputs outputs marker state
      readTrailersLoop sink inputs outputs fuel state : WireParser σ ε TrailerState) st

/-- Trailers are read until no byte is left. Each takes at least one, so the bytes are fuel enough. -/
def readTrailers (sink : DecodeSink σ ε) (inputs outputs : Nat) : WireParser σ ε Unit := do
  let fuel ← remaining
  let state ← readTrailersLoop sink inputs outputs fuel .new
  rejectWire (state.network = false) .missingNetwork

/-! ## The envelope -/

/-- What follows the global fields, once the sink has taken these. -/
def readBody (sink : DecodeSink σ ε) (global : Global) : WireParser σ ε UInt8 := do
  toSink (sink.global global)
  readInputs sink global.inputCount.toNat 0
  readOutputs sink global.outputCount.toNat 0
  readTrailers sink global.inputCount.toNat global.outputCount.toNat
  return global.flags

/-- Header, global record, body and trailers. -/
def decodeEnvelope (sink : DecodeSink σ ε) (limits : Limits) : WireParser σ ε UInt8 := do
  let flags ← readHeader
  let global ← readGlobal flags limits
  validateInputCapacity global.inputCount
  readBody sink global

/-- Decode `data` into the sink; the trailers run to the end, so a successful
decode has consumed every byte. -/
def decode (sink : DecodeSink σ ε) (data : Bytes) (limits : Limits) (s : σ) :
    Except (DecodeError ε) (UInt8 × σ) :=
  (decodeEnvelope sink limits (data, s)).map fun r => (r.1, r.2.2)

end decoder

end KaspaPortal.Transaction.Kspt
