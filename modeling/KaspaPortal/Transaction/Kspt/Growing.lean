import KaspaPortal.Lib.Growing
import KaspaPortal.Transaction.Kspt.Codec

/-!
# Growing KSPT buffers

`encode_vec` of `src/transaction/interchange/kspt/wire/mod.rs` and `serialize_compact_kspt_vec` of
`src/transaction/interchange/kspt/codec/partial_signed.rs`. Both start from an estimate that the
sums saturate at, and write again into a buffer of twice the size until the envelope fits.

That both writers end is a matter of the doubling, which is proved once for every writer of this
kind.
-/
namespace KaspaPortal.Transaction.Kspt
open Lib Primitives Model

/-- `1024 + inputs * 192 + outputs * 640 + payload.len()`. -/
def envelopeEstimate (width : PointerWidth) (inputs outputs payload : Nat) : Nat :=
  width.saturatingAdd (width.saturatingAdd (width.saturatingAdd 1024 (width.saturatingMul inputs 192))
    (width.saturatingMul outputs 640)) payload

/-- A first buffer is never empty, so that doubling it gains something. -/
theorem envelopeEstimate_pos (width : PointerWidth) (inputs outputs payload : Nat) :
    0 < envelopeEstimate width inputs outputs payload :=
  width.saturatingAdd_pos _ (width.saturatingAdd_pos _ (width.saturatingAdd_pos _ (by decide)))

/-- The first buffer of `encode_vec`. -/
def encodeVecCapacity (width : PointerWidth) (global : Global) : Nat :=
  envelopeEstimate width global.inputCount.toNat global.outputCount.toNat global.payload.length

theorem encodeVecCapacity_le (width : PointerWidth) (global : Global) :
    encodeVecCapacity width global ≤ width.usizeMax := width.saturatingAdd_le _ _

theorem encodeVecCapacity_pos (width : PointerWidth) (global : Global) :
    0 < encodeVecCapacity width global := envelopeEstimate_pos width _ _ _

/-- Encode into a buffer that grows until the envelope fits. -/
def encodeVec (width : PointerWidth) (source : EncodeSource) (limits : Limits) :
    Except WireError Bytes :=
  grow width.usizeMax .outputBufferTooSmall (fun capacity => encode source capacity limits)
    (encodeVecCapacity width source.global) (encodeVecCapacity_pos width source.global)

/-- The first buffer of the partly signed writer also counts the pool of redeem scripts. -/
def compactCapacity (width : PointerWidth) (tx : Transaction) : Nat :=
  width.saturatingAdd (envelopeEstimate width tx.inputs.length tx.outputs.length tx.payload.length)
    tx.redeemPoolUsed

/-- The sums saturate, so that the estimate is a length the platform can name. -/
theorem compactCapacity_le (width : PointerWidth) (tx : Transaction) :
    compactCapacity width tx ≤ width.usizeMax := width.saturatingAdd_le _ _

theorem compactCapacity_pos (width : PointerWidth) (tx : Transaction) :
    0 < compactCapacity width tx := width.saturatingAdd_pos _ (envelopeEstimate_pos width _ _ _)

/-- Serialize into a dynamically sized buffer. -/
def serializeCompactKsptVec (crypto : SignatureCrypto) (width : PointerWidth) (tx : Transaction) :
    Except PsktError Bytes :=
  grow width.usizeMax .outputBufferTooSmall (serializeCompactKspt crypto tx)
    (compactCapacity width tx) (compactCapacity_pos width tx)

/-! ## The encoder does not look at its buffer -/

/-- Room decides only whether a write fits, never what it writes. -/
abbrev SteadyWire (p : WireWriting) : Prop := Steady WireError.outputBufferTooSmall p

/-- A check that does not report missing room is the same in every buffer. -/
theorem steady_rejectEncode {bad : Prop} [Decidable bad] {error : WireError}
    (h : error ≠ .outputBufferTooSmall) : SteadyWire (rejectEncode bad error) := steady_rejectIf h

/-- The one write that asks for room; all others are made of it. -/
theorem steady_writeBytes (value : Bytes) : SteadyWire (writeBytes value) := steady_putBytes value

theorem steady_writeU8 (value : UInt8) : SteadyWire (writeU8 value) := steady_putBytes _

theorem steady_writeU16 (value : UInt16) : SteadyWire (writeU16 value) := steady_putBytes _

theorem steady_writeU32 (value : UInt32) : SteadyWire (writeU32 value) := steady_putBytes _

theorem steady_writeU64 (value : UInt64) : SteadyWire (writeU64 value) := steady_putBytes _

theorem steady_writeScript (value : Bytes) : SteadyWire (writeScript value) := by
  refine (steady_rejectIf (by decide)).seq (Steady.seq ?_ (steady_writeBytes value))
  exact steady_ite (steady_writeU8 _) ((steady_writeU8 _).seq (steady_writeU16 _))

theorem steady_writeHeader (flags : UInt8) : SteadyWire (writeHeader flags) :=
  (steady_writeBytes _).seq ((steady_writeU8 _).seq (steady_writeU8 flags))

theorem steady_writeGlobal (value : Global) : SteadyWire (writeGlobal value) :=
  (steady_writeU16 _).seq <| (steady_writeU32 _).seq <| (steady_writeU8 _).seq <|
    (steady_writeU64 _).seq <| (steady_writeBytes _).seq <| (steady_writeU64 _).seq <|
    (steady_rejectEncode (by decide)).seq <| (steady_writeU32 _).seq (steady_writeBytes _)

theorem steady_writeInputValue (value : Input) : SteadyWire (writeInputValue value) :=
  (steady_rejectEncode (by decide)).seq <| (steady_writeBytes _).seq <| (steady_writeU32 _).seq <|
    (steady_writeU64 _).seq <| (steady_writeU64 _).seq <| (steady_writeU8 _).seq <|
    (steady_writeU16 _).seq (steady_writeScript _)

theorem steady_writeSignature (signature : Signature) (seen : List UInt8) :
    SteadyWire (writeSignature signature seen) :=
  (steady_rejectEncode (by decide)).seq <| (steady_rejectEncode (by decide)).seq <|
    (steady_writeU8 _).seq <| (steady_writeU8 _).seq (steady_writeBytes _)

/-- By recursion on the slots: each is written, or the envelope is refused, whatever the room. -/
theorem steady_writeSignatureSlots (signature : Nat → Signature) (count slot : Nat)
    (seen : List UInt8) : SteadyWire (writeSignatureSlots signature count slot seen) := by
  induction count generalizing slot seen with
  | zero => exact steady_pure ()
  | succ count ih => exact (steady_writeSignature _ seen).seq (ih _ _)

theorem steady_writeSignatures (source : EncodeSource) (index : Nat) :
    SteadyWire (writeSignatures source index) :=
  (steady_rejectEncode (by decide)).seq <| (steady_writeU8 _).seq (steady_writeSignatureSlots _ _ _ _)

theorem steady_writeRedeem (redeem : Bytes) : SteadyWire (writeRedeem redeem) :=
  (steady_rejectEncode (by decide)).seq <| (steady_rejectEncode (by decide)).seq <|
    (steady_writeU16 _).seq (steady_writeBytes redeem)

theorem steady_writeInput (source : EncodeSource) (index : Nat) :
    SteadyWire (writeInput source index) :=
  (steady_writeInputValue _).seq <| (steady_writeSignatures source index).seq (steady_writeRedeem _)

theorem steady_writeOutput (value : Output) : SteadyWire (writeOutput value) :=
  (steady_writeU64 _).seq <| (steady_writeU16 _).seq (steady_writeScript _)

/-! ### Trailers -/

theorem steady_writeNetwork (code : UInt8) : SteadyWire (writeNetwork code) :=
  (steady_rejectEncode (by decide)).seq <| (steady_writeU8 _).seq (steady_writeU8 code)

theorem steady_writeStealth (tweak : Option (FixedBytes 32)) : SteadyWire (writeStealth tweak) := by
  cases tweak with
  | none => exact steady_pure ()
  | some value => exact (steady_writeU8 _).seq (steady_writeBytes _)

theorem steady_writePosition (index : Nat) : SteadyWire (writePosition index) :=
  (steady_rejectEncode (by decide)).seq (steady_writeU8 _)

theorem steady_writeDerivation (marker : UInt8) (index : Nat) (value : Derivation) :
    SteadyWire (writeDerivation marker index value) :=
  (steady_rejectEncode (by decide)).seq <| (steady_writeU8 marker).seq <|
    (steady_writePosition index).seq <| (steady_writeU8 _).seq (steady_writeU32 _)

theorem steady_writeMs45 (marker : UInt8) (index : Nat) (value : Ms45Derivation) :
    SteadyWire (writeMs45 marker index value) :=
  (steady_rejectEncode (by decide)).seq <| (steady_writeU8 marker).seq <|
    (steady_writePosition index).seq <| (steady_writeU32 _).seq <|
    (steady_writeU32 _).seq (steady_writeU32 _)

theorem steady_writeCovenant (index : Nat) (value : Covenant) :
    SteadyWire (writeCovenant index value) :=
  (steady_writeU8 _).seq <| (steady_writePosition index).seq <| (steady_writeU16 _).seq (steady_writeBytes _)

theorem steady_writeCovenantExecution (index : Nat) (value : CovenantExecution) :
    SteadyWire (writeCovenantExecution index value) :=
  (steady_rejectEncode (by decide)).seq <| (steady_writeU8 _).seq <|
    (steady_writePosition index).seq <| (steady_writeU16 _).seq (steady_writeU16 _)

/-- A hint for each position that has one. -/
theorem steady_writeEach {α : Type} (count : Nat) (value : Nat → Option α)
    {write : Nat → α → WireWriting} (h : ∀ index v, SteadyWire (write index v)) :
    SteadyWire (writeEach count value write) := by
  refine steady_forM _ fun index => ?_
  cases value index with
  | none => exact steady_pure ()
  | some v => exact h index v

theorem steady_writeTrailers (source : EncodeSource) : SteadyWire (writeTrailers source) :=
  (steady_writeNetwork _).seq <|
    ((steady_writeEach _ _ (steady_writeMs45 _)).seq (steady_writeEach _ _ (steady_writeMs45 _))).seq <|
    (steady_writeStealth _).seq <| (steady_writeEach _ _ steady_writeCovenant).seq <|
    (steady_writeEach _ _ steady_writeCovenantExecution).seq <|
    (steady_writeEach _ _ (steady_writeDerivation _)).seq (steady_writeEach _ _ (steady_writeDerivation _))

/-- The whole envelope is written the same way into every buffer it fits. -/
theorem steady_encodeEnvelope (source : EncodeSource) : SteadyWire (encodeEnvelope source) :=
  (steady_writeHeader _).seq <| (steady_writeGlobal _).seq <|
    (steady_forM _ (steady_writeInput source)).seq <|
    (steady_forM _ fun index => steady_writeOutput (source.output index)).seq
      (steady_writeTrailers source)

/-- The limits are checked before the first byte, and do not speak of room. -/
theorem avoids_validateGlobal (global : Global) (limits : Limits) :
    Avoids WireError.outputBufferTooSmall (validateGlobal global limits) :=
  avoids_bind (avoids_rejectIf (by decide)) fun _ =>
    avoids_bind (avoids_rejectIf (by decide)) fun _ =>
    avoids_bind (avoids_rejectIf (by decide)) fun _ =>
    avoids_bind (avoids_rejectIf (by decide)) fun _ => avoids_rejectIf (by decide)

/-- There is one size from which on the encoder succeeds, or fails, in the same way. -/
theorem encode_fits (source : EncodeSource) (limits : Limits) :
    ∃ size result, Fits WireError.outputBufferTooSmall
      (fun capacity => encode source capacity limits) size result :=
  Fits.after (avoids_validateGlobal source.global limits) fun _ _ => (steady_encodeEnvelope source).fits

/-! ## Nor does the check of the transaction -/

/-- A check never reports that the buffer is full. -/
abbrev AvoidsFull {α : Type} (m : Except PsktError α) : Prop := Avoids PsktError.outputBufferTooSmall m

theorem avoids_checkedRedeem (tx : Transaction) (input : TransactionInput) :
    AvoidsFull (checkedRedeem tx input) := by
  refine avoids_ite (avoids_ok []) (avoids_ite (avoids_error (by decide)) (avoids_ite ?_ ?_))
  · exact avoids_bind (avoids_rejectIf (by decide)) fun _ =>
      avoids_bind (avoids_rejectIf (by decide)) fun _ => avoids_ok _
  · exact avoids_bind (avoids_rejectIf (by decide)) fun _ => avoids_ok _

theorem avoids_validateTransactionShape (tx : Transaction) : AvoidsFull (validateTransactionShape tx) :=
  avoids_bind (avoids_rejectIf (by decide)) fun _ =>
    avoids_bind (avoids_rejectIf (by decide)) fun _ =>
    avoids_bind (avoids_rejectIf (by decide)) fun _ =>
    avoids_bind (avoids_rejectIf (by decide)) fun _ =>
    avoids_bind (avoids_rejectIf (by decide)) fun _ => avoids_rejectIf (by decide)

theorem avoids_validateInput (tx : Transaction) (input : TransactionInput) :
    AvoidsFull (validateInput tx input) :=
  avoids_bind (avoids_rejectIf (by decide)) fun _ =>
    avoids_bind (avoids_checkedRedeem tx input) fun _ => avoids_ok ()

theorem avoids_validateOutput (tx : Transaction) (output : TransactionOutput) :
    AvoidsFull (validateOutput tx output) :=
  avoids_bind (avoids_rejectIf (by decide)) fun _ => avoids_rejectIf (by decide)

theorem avoids_validateBaseTransaction (tx : Transaction) : AvoidsFull (validateBaseTransaction tx) := by
  refine avoids_bind (avoids_validateTransactionShape tx) fun _ => avoids_bind ?_ fun _ =>
    avoids_bind (avoids_forM _ (avoids_validateInput tx)) fun _ => avoids_forM _ (avoids_validateOutput tx)
  refine avoids_mapError fun error => ?_
  cases error <;> decide

/-- The slots are checked one after the other, with the positions seen so far. -/
theorem avoids_validateSlots (count : Nat) (seen : List UInt8) (slots : List InputSig) :
    AvoidsFull (validateSlots count seen slots) := by
  induction slots generalizing count seen with
  | nil => exact avoids_ok ()
  | cons slot slots ih =>
    cases count with
    | zero => exact avoids_bind (avoids_rejectIf (by decide)) fun _ => ih 0 seen
    | succ count =>
      refine avoids_bind ?_ fun _ => ih count _
      exact avoids_bind (avoids_rejectIf (by decide)) fun _ =>
        avoids_bind (avoids_rejectIf (by decide)) fun _ => avoids_rejectIf (by decide)

theorem avoids_validateSignedInput (tx : Transaction) (input : TransactionInput) :
    AvoidsFull (validateSignedInput tx input) := by
  refine avoids_bind (avoids_rejectIf (by decide)) fun _ => avoids_bind ?_ fun _ =>
    avoids_bind (avoids_checkedRedeem tx input) fun _ => avoids_ok ()
  exact avoids_bind (avoids_rejectIf (by decide)) fun _ =>
    avoids_bind (avoids_validateSlots _ _ _) fun _ => avoids_rejectIf (by decide)

/-- Nothing is said of room before the envelope is written. -/
theorem avoids_validatePartialSigned (tx : Transaction) : AvoidsFull (validatePartialSigned tx) :=
  avoids_bind (avoids_validateBaseTransaction tx) fun _ => avoids_forM _ (avoids_validateSignedInput tx)

/-- A full buffer is reported under the same name by the outer encoder, and nothing else is. -/
theorem encodeError_eq_full (error : WireError) :
    encodeError error = .outputBufferTooSmall ↔ error = .outputBufferTooSmall := by
  cases error <;> decide

/-- So is the partly signed writer: from one size on its result does not change. -/
theorem serializeCompactKspt_fits (crypto : SignatureCrypto) (tx : Transaction) :
    ∃ size result, Fits PsktError.outputBufferTooSmall (serializeCompactKspt crypto tx) size result := by
  refine Fits.after (avoids_validatePartialSigned tx) fun _ _ => ?_
  obtain ⟨size, result, h⟩ := encode_fits (transactionSource crypto tx) (limitsOf tx)
  exact ⟨size, _, h.mapError encodeError_eq_full⟩

end KaspaPortal.Transaction.Kspt
