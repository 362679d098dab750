import KaspaPortal.Transaction.Kspt.Decode

/-!
# The strings of the KSPT grammar

A second description of the format, free of any reader or writer: the values an
envelope holds, the one string that stands for them and when it is well formed.
The decoder accepts exactly these strings and hands their values to the sink in
order.
-/
namespace KaspaPortal.Transaction.Kspt
open Lib Primitives Model

/-! ## Trailers -/

/-- The records behind the outputs, each with the input or output it is about. -/
inductive Trailer where
  | network (code : UInt8)
  | inputMs45 (position : UInt8) (value : Ms45Derivation)
  | outputMs45 (position : UInt8) (value : Ms45Derivation)
  | stealth (tweak : FixedBytes 32)
  | covenant (position : UInt8) (value : Covenant)
  | covenantExecution (position : UInt8) (value : CovenantExecution)
  | inputDerivation (position : UInt8) (value : Derivation)
  | outputDerivation (position : UInt8) (value : Derivation)
  deriving DecidableEq

namespace Trailer

/-- The byte that starts a record. -/
def marker : Trailer → UInt8
  | .network _ => NETWORK_MARKER
  | .inputMs45 .. => MS45_INPUT_MARKER
  | .outputMs45 .. => MS45_OUTPUT_MARKER
  | .stealth _ => STEALTH_MARKER
  | .covenant .. => COVENANT_MARKER
  | .covenantExecution .. => COVENANT_EXECUTION_MARKER
  | .inputDerivation .. => INPUT_DERIVATION_MARKER
  | .outputDerivation .. => OUTPUT_DERIVATION_MARKER

/-- The place of the record's kind in the canonical order. -/
def rank : Trailer → UInt8
  | .network _ => 0
  | .inputMs45 .. => 1
  | .outputMs45 .. => 2
  | .stealth _ => 3
  | .covenant .. => 4
  | .covenantExecution .. => 5
  | .inputDerivation .. => 6
  | .outputDerivation .. => 7

/-- The kinds that carry a position, as the decoder keeps track of them. -/
def kind : Trailer → Option IndexedTrailer
  | .network _ => none
  | .inputMs45 .. => some .inputMs45
  | .outputMs45 .. => some .outputMs45
  | .stealth _ => none
  | .covenant .. => some .covenant
  | .covenantExecution .. => some .covenantExecution
  | .inputDerivation .. => some .inputDerivation
  | .outputDerivation .. => some .outputDerivation

/-- A record about the whole transaction stands at position zero. -/
def position : Trailer → UInt8
  | .network _ => 0
  | .inputMs45 position _ => position
  | .outputMs45 position _ => position
  | .stealth _ => 0
  | .covenant position _ => position
  | .covenantExecution position _ => position
  | .inputDerivation position _ => position
  | .outputDerivation position _ => position

/-- Where the trailer stands in the canonical order. -/
def key (t : Trailer) : Nat := t.rank.toNat * 256 + t.position.toNat

/-- The trailer after its marker. -/
def body : Trailer → Bytes
  | .network code => u8Bytes code
  | .inputMs45 position value | .outputMs45 position value =>
    u8Bytes position ++ (u32Bytes value.cosigner ++ (u32Bytes value.chain ++ u32Bytes value.index))
  | .stealth tweak => tweak.val
  | .covenant position value =>
    u8Bytes position ++ (u16Bytes value.authorizingInput ++ value.id.val)
  | .covenantExecution position value =>
    u8Bytes position ++ (u16Bytes value.suppliedMask ++ u16Bytes value.suppliedTrueMask)
  | .inputDerivation position value | .outputDerivation position value =>
    u8Bytes position ++ (u8Bytes value.branch ++ u32Bytes value.index)

/-- A record is its marker and its body. -/
def bytes (t : Trailer) : Bytes := u8Bytes t.marker ++ t.body

/-- In range and well formed, for so many inputs and outputs. -/
def Valid (inputs outputs : Nat) : Trailer → Prop
  | .network code => validNetwork code = true
  | .inputMs45 position value => position.toNat < inputs ∧ validMs45 value = true
  | .outputMs45 position value => position.toNat < outputs ∧ validMs45 value = true
  | .stealth _ => True
  | .covenant position value =>
    position.toNat < outputs ∧ value.authorizingInput.toNat < inputs
  | .covenantExecution position value =>
    position.toNat < inputs ∧ validCovenantExecution value = true
  | .inputDerivation position value => position.toNat < inputs ∧ validDerivation value = true
  | .outputDerivation position value => position.toNat < outputs ∧ validDerivation value = true

/-- The call of the sink. -/
def hand {σ ε : Type} (sink : DecodeSink σ ε) : Trailer → σ → Except ε σ
  | .network code => sink.network code
  | .inputMs45 position value => sink.inputMs45 position value
  | .outputMs45 position value => sink.outputMs45 position value
  | .stealth tweak => sink.stealth tweak
  | .covenant position value => sink.covenant position value
  | .covenantExecution position value => sink.covenantExecution position value
  | .inputDerivation position value => sink.inputDerivation position value
  | .outputDerivation position value => sink.outputDerivation position value

end Trailer

/-- The network first, then every kind in its order and every position of a kind
in its order. -/
def Canonical (trailers : List Trailer) : Prop :=
  trailers.Pairwise (·.key < ·.key) ∧ ∀ t ∈ trailers.head?, t.rank = 0

/-! ## Envelopes -/

/-- An input with the signatures and the redeem script that follow it. -/
structure WireInput where
  value : Input
  signatures : List Signature
  redeem : Bytes
  deriving DecidableEq

/-- Everything one string stands for. -/
structure Envelope where
  global : Global
  inputs : List WireInput
  outputs : List Output
  trailers : List Trailer
  deriving DecidableEq

/-- The magic, the version and the flags. -/
def headerBytes (flags : UInt8) : Bytes := KSPT_MAGIC ++ (u8Bytes KSPT_VERSION ++ u8Bytes flags)

/-- The counts stand before what they count, the payload behind its own length. -/
def globalBytes (g : Global) : Bytes :=
  u16Bytes g.version ++ (u32Bytes g.inputCount ++ (u8Bytes g.outputCount ++ (u64Bytes g.locktime ++
    (g.subnetworkId.val ++ (u64Bytes g.gas ++ (u32Bytes (UInt32.ofNat g.payload.length) ++
      g.payload))))))

/-- An input without its signatures. -/
def inputBytes (v : Input) : Bytes :=
  v.previousTxId.val ++ (u32Bytes v.previousIndex ++ (u64Bytes v.amount ++ (u64Bytes v.sequence ++
    (u8Bytes v.sigOpCount ++ (u16Bytes v.scriptVersion ++ scriptBytes v.script)))))

/-- The position of the key, the sighash and the signature. -/
def signatureBytes (v : Signature) : Bytes := u8Bytes v.position ++ (u8Bytes v.sighash ++ v.bytes.val)

/-- An input without a redeem script has an empty one. -/
def redeemFieldBytes (redeem : Bytes) : Bytes := u16Bytes (UInt16.ofNat redeem.length) ++ redeem

namespace WireInput

def bytes (i : WireInput) : Bytes :=
  inputBytes i.value ++ (u8Bytes (UInt8.ofNat i.signatures.length) ++
    (i.signatures.flatMap signatureBytes ++ redeemFieldBytes i.redeem))

/-- An input that the decoder takes: every length within its bound, one signature for each key. -/
structure Valid (i : WireInput) : Prop where
  sigOps : i.value.sigOpCount.toNat ≤ MAX_SIGNATURE_RECORDS
  script : i.value.script.length ≤ MAX_SCRIPT_SIZE
  signatures : i.signatures.length ≤ MAX_SIGNATURE_RECORDS
  positions : (i.signatures.map (·.position)).Nodup
  sighashes : ∀ v ∈ i.signatures, validSighash v.sighash = true
  redeem : i.redeem.length ≤ MAX_REDEEM_SIZE

end WireInput

def outputBytes (v : Output) : Bytes :=
  u64Bytes v.amount ++ (u16Bytes v.scriptVersion ++ scriptBytes v.script)

/-- The fields that stand before the first input, against the limits of the device. -/
structure ValidGlobal (limits : Limits) (g : Global) : Prop where
  flags : g.flags &&& ~~~ALLOWED_FLAGS = 0
  version : supportedTxVersion g.version = true
  inputs : g.inputCount ≤ limits.maxInputs
  outputs : g.outputCount ≤ limits.maxOutputs
  payload : g.payload.length ≤ limits.maxPayload
  payloadWidth : g.payload.length < 2 ^ 32

namespace Envelope

def bytes (e : Envelope) : Bytes :=
  headerBytes e.global.flags ++ (globalBytes e.global ++ (e.inputs.flatMap WireInput.bytes ++
    (e.outputs.flatMap outputBytes ++ e.trailers.flatMap Trailer.bytes)))

/-- A string of the grammar: the counts are those declared, each part is well formed, and the
trailers stand in the canonical order behind a network. -/
structure Valid (limits : Limits) (e : Envelope) : Prop where
  global : ValidGlobal limits e.global
  inputCount : e.inputs.length = e.global.inputCount.toNat
  outputCount : e.outputs.length = e.global.outputCount.toNat
  inputs : ∀ i ∈ e.inputs, i.Valid
  outputs : ∀ o ∈ e.outputs, o.script.length ≤ MAX_SCRIPT_SIZE
  trailers : ∀ t ∈ e.trailers, t.Valid e.inputs.length e.outputs.length
  canonical : Canonical e.trailers
  network : e.trailers ≠ []

end Envelope

/-! ## What the sink is told -/

section replay
variable {σ ε : Type}

/-- The signatures of an input, slot after slot. -/
def replaySignatures (sink : DecodeSink σ ε) (index : Nat) :
    Nat → List Signature → σ → Except ε σ
  | _, [], s => .ok s
  | slot, v :: vs, s => do
    let s ← sink.signature index slot v s
    replaySignatures sink index (slot + 1) vs s

/-- The sink is told of an input before its signatures and of its redeem script last. -/
def replayInput (sink : DecodeSink σ ε) (index : Nat) (i : WireInput) (s : σ) : Except ε σ := do
  let s ← sink.input index i.value (UInt8.ofNat i.signatures.length) s
  let s ← replaySignatures sink index 0 i.signatures s
  sink.redeem index i.redeem s

/-- The inputs in their order. -/
def replayInputs (sink : DecodeSink σ ε) : Nat → List WireInput → σ → Except ε σ
  | _, [], s => .ok s
  | index, i :: is, s => do
    let s ← replayInput sink index i s
    replayInputs sink (index + 1) is s

/-- The outputs in their order. -/
def replayOutputs (sink : DecodeSink σ ε) : Nat → List Output → σ → Except ε σ
  | _, [], s => .ok s
  | index, o :: os, s => do
    let s ← sink.output index o s
    replayOutputs sink (index + 1) os s

/-- The trailers in their order. -/
def replayTrailers (sink : DecodeSink σ ε) : List Trailer → σ → Except ε σ
  | [], s => .ok s
  | t :: ts, s => do
    let s ← t.hand sink s
    replayTrailers sink ts s

/-- What the decoder tells the sink of an envelope, call by call. -/
def Envelope.replay (sink : DecodeSink σ ε) (e : Envelope) (s : σ) : Except ε σ := do
  let s ← sink.global e.global s
  let s ← replayInputs sink 0 e.inputs s
  let s ← replayOutputs sink 0 e.outputs s
  replayTrailers sink e.trailers s

end replay

end KaspaPortal.Transaction.Kspt
