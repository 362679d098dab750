import KaspaPortal.Guarantees.KsptCodec
import KaspaPortal.Transaction.Kspt.Growing
import KaspaPortal.Transaction.Pskt.Standard.Serializer

/-!
# The serializers that grow their buffer

The fixed-buffer serializers stop at the first byte that does not fit, before any check that lies
behind it, and write the same bytes into every buffer. So the retries end with what one large buffer
gives, or when no doubling of the first capacity that would be large enough is a `usize`.

The allocator always gives the requested capacity here; a process that runs out of memory is not
modelled.
-/
namespace KaspaPortal.Guarantees
open Lib Primitives Transaction Transaction.Model

/-! ## The PSKT serializer does not look at its buffer -/

section serializer
open Pskt.Serializer Pskt.Serializer.HexWriter

/-- Room decides only whether a write fits, never what it writes. -/
abbrev SteadyJson {α : Type} (p : Writing PskError α) : Prop := Steady PskError.outputBufferTooSmall p

/-- The one write that asks for room; all others are made of it. -/
theorem steady_bytes (s : Bytes) : SteadyJson (bytes s) := steady_putBytes _

theorem steady_lit (s : String) : SteadyJson (lit s) := steady_bytes _

theorem steady_scratchRange (scratch : Bytes) (start stop : UInt32) :
    SteadyJson (scratchRange scratch start stop) := by
  unfold scratchRange
  cases slice scratch start.toNat stop.toNat with
  | none => exact steady_throw (by decide)
  | some range => exact steady_bytes range

/-- Digits are computed before they are written. -/
theorem steady_u64 (v : UInt64) : SteadyJson (u64 v) := steady_ite (steady_bytes _) (steady_bytes _)

theorem steady_u64String (v : UInt64) : SteadyJson (u64String v) :=
  (steady_lit _).seq <| (steady_u64 v).seq (steady_lit _)

theorem steady_hexDigits (value : Bytes) : SteadyJson (hexDigits value) :=
  steady_forM value fun _ => (steady_bytes _).seq (steady_bytes _)

theorem steady_hexStringField (value : Bytes) : SteadyJson (hexStringField value) :=
  (steady_lit _).seq <| (steady_hexDigits value).seq (steady_lit _)

theorem steady_emitScriptPublicKey (spk : ScriptPublicKey) : SteadyJson (emitScriptPublicKey spk) := by
  refine (steady_rejectIf (by decide)).seq <| (steady_lit _).seq <| Steady.seq ?_ <|
    (steady_hexDigits _).seq (steady_lit _)
  exact (steady_bytes _).seq <| (steady_bytes _).seq <| (steady_bytes _).seq (steady_bytes _)

/-- By induction on the items, each with a comma before it but the first. -/
theorem steady_emitSeparated {α : Type} (items : List α) {emit : Nat → α → Serializing}
    (h : ∀ index item, SteadyJson (emit index item)) : SteadyJson (emitSeparated items emit) :=
  steady_forM _ fun _ => steady_ite ((steady_lit _).seq (h _ _)) (h _ _)

section preserved

variable (parsed : PsktParsed) (scratch : Bytes)

/-- Looking up what the document said needs no room. -/
theorem steady_find (scope : PsktUnknownScope) (name : Bytes) :
    SteadyJson (StateT.lift (findCapturedValue parsed scratch scope name)) :=
  steady_lift (avoids_findCapturedValue parsed scratch scope name)

theorem steady_emitValueOrDefault (scope : PsktUnknownScope) (name default : String) :
    SteadyJson (emitValueOrDefault parsed scratch scope name default) := by
  refine steady_bind (steady_find parsed scratch scope _) fun found => ?_
  cases found with
  | none => exact steady_lit default
  | some range => exact steady_scratchRange scratch _ _

/-- By recursion on the captured fields. -/
theorem steady_emitAdditionalFields (scope : PsktUnknownScope) (excluded : List String) :
    SteadyJson (emitAdditionalFields parsed scratch scope excluded) := by
  refine steady_forM _ fun index => ?_
  refine steady_bind (steady_lift (avoids_capturedFieldAt parsed scratch index)) fun found => ?_
  cases found with
  | none => exact steady_pure ()
  | some captured =>
    exact steady_ite (steady_pure ()) ((steady_lit _).seq (steady_scratchRange scratch _ _))

theorem steady_emitGlobalLocktime (tx : Transaction) (scope : PsktUnknownScope) :
    SteadyJson (emitGlobalLocktime parsed scratch tx scope) :=
  (steady_lit _).seq <| steady_bind (steady_find parsed scratch scope _) fun _ =>
    steady_ite (steady_u64String _) (steady_lit _)

theorem steady_emitGlobalConsensusFields (tx : Transaction) :
    SteadyJson (emitGlobalConsensusFields tx) :=
  (steady_lit _).seq <| (steady_hexStringField _).seq <| (steady_lit _).seq <|
    (steady_u64String _).seq <| (steady_lit _).seq (steady_hexStringField _)

theorem steady_emitGlobalPreserved (scope : PsktUnknownScope) :
    SteadyJson (emitGlobalPreserved parsed scratch scope) :=
  (steady_lit _).seq <| (steady_emitValueOrDefault _ _ _ _ _).seq <| (steady_lit _).seq <|
    (steady_emitValueOrDefault _ _ _ _ _).seq <| (steady_lit _).seq (steady_emitValueOrDefault _ _ _ _ _)

/-- The global object. -/
theorem steady_emitGlobal (tx : Transaction) : SteadyJson (emitGlobal parsed scratch tx) := by
  refine Steady.seq ((steady_lit _).seq (steady_u64 _)) <|
    (steady_emitGlobalConsensusFields tx).seq <| (steady_emitGlobalLocktime _ _ tx _).seq <|
    Steady.seq ?_ <| Steady.seq ?_ <| (steady_emitGlobalPreserved _ _ _).seq <|
    (steady_emitAdditionalFields _ _ _ _).seq (steady_lit _)
  · exact (steady_lit _).seq <| (steady_emitValueOrDefault _ _ _ _ _).seq <| (steady_lit _).seq
      (steady_emitValueOrDefault _ _ _ _ _)
  · exact (steady_lit _).seq <| (steady_u64 _).seq <| (steady_lit _).seq (steady_u64 _)

/-- A scope that is missing is an error in every buffer. -/
theorem steady_scopeAt (kind : PsktUnknownScopeKind) {error : PskError} (index : Nat)
    (h : error ≠ .outputBufferTooSmall) : SteadyJson (scopeAt kind error index) :=
  (steady_rejectIf h).seq (steady_pure _)

theorem steady_emitUtxoEntry (self : SerializedInput) (index : Nat) :
    SteadyJson (emitUtxoEntry parsed scratch self index) := by
  refine steady_bind (steady_scopeAt _ index (by decide)) fun scope => Steady.seq ?_ <|
    (steady_lit _).seq <| (steady_emitValueOrDefault _ _ _ _ _).seq <|
    (steady_emitAdditionalFields _ _ _ _).seq (steady_lit _)
  exact (steady_lit _).seq <| (steady_u64String _).seq <| (steady_lit _).seq <|
    (steady_emitScriptPublicKey _).seq <| (steady_lit _).seq (steady_u64String _)

theorem steady_emitOutpoint (self : SerializedInput) (index : Nat) :
    SteadyJson (emitOutpoint parsed scratch self index) :=
  steady_bind (steady_scopeAt _ index (by decide)) fun _ => (steady_lit _).seq <|
    (steady_hexStringField _).seq <| (steady_lit _).seq <| (steady_u64 _).seq <|
    (steady_emitAdditionalFields _ _ _ _).seq (steady_lit _)

theorem steady_emitInputIdentity (self : SerializedInput) (index : Nat) :
    SteadyJson (emitInputIdentity parsed scratch self index) :=
  (steady_lit _).seq <| (steady_emitUtxoEntry _ _ self index).seq <| (steady_lit _).seq <|
    (steady_emitOutpoint _ _ self index).seq <| (steady_lit _).seq (steady_u64String _)

theorem steady_emitPartialSigs (self : SerializedInput) : SteadyJson (emitPartialSigs self) := by
  refine steady_ite (steady_lit _) <| (steady_lit _).seq <| Steady.seq ?_ (steady_lit _)
  exact steady_emitSeparated _ fun _ signature => (steady_hexStringField _).seq <|
    (steady_lit _).seq <| (steady_hexStringField signature.signature.val).seq (steady_lit _)

theorem steady_emitInputSigning (self : SerializedInput) (scope : PsktUnknownScope) :
    SteadyJson (emitInputSigning parsed scratch self scope) :=
  (steady_lit _).seq <| (steady_emitValueOrDefault _ _ _ _ _).seq <| (steady_lit _).seq <|
    (steady_emitPartialSigs self).seq <| (steady_lit _).seq (steady_u64 _)

theorem steady_emitInputBip32Derivations (self : SerializedInput) (scope : PsktUnknownScope) :
    SteadyJson (emitInputBip32Derivations parsed scratch self scope) := by
  refine steady_bind (steady_find parsed scratch scope _) fun _ =>
    steady_ite (steady_emitValueOrDefault _ _ _ _ _) ?_
  refine steady_ite (steady_lit _) <| (steady_lit _).seq <| Steady.seq ?_ (steady_lit _)
  exact steady_emitSeparated _ fun _ _ => (steady_hexStringField _).seq (steady_lit _)

theorem steady_emitInputScripts (tx : Transaction) (self : SerializedInput) (scope : PsktUnknownScope)
    (index : Nat) : SteadyJson (emitInputScripts parsed scratch tx self scope index) :=
  (steady_lit _).seq <| (steady_ite (steady_lit _) (steady_hexStringField _)).seq <|
    (steady_lit _).seq <| (steady_u64 _).seq <| (steady_lit _).seq
      (steady_emitInputBip32Derivations _ _ self scope)

theorem steady_emitInputPreserved (self : SerializedInput) (scope : PsktUnknownScope) :
    SteadyJson (emitInputPreserved parsed scratch self scope) := by
  refine Steady.seq ((steady_lit _).seq (steady_emitValueOrDefault _ _ _ _ _)) <| Steady.seq ?_ <|
    Steady.seq ((steady_lit _).seq (steady_emitValueOrDefault _ _ _ _ _))
      (steady_emitAdditionalFields _ _ _ _)
  exact steady_ite (steady_pure ()) <| (steady_lit _).seq <| (steady_u64 _).seq <|
    (steady_lit _).seq <| (steady_u64 _).seq (steady_lit _)

/-- An input with all its fields. -/
theorem steady_emitInput (tx : Transaction) (index : Nat) (self : SerializedInput) :
    SteadyJson (emitInput parsed scratch tx index self) :=
  steady_bind (steady_scopeAt _ index (by decide)) fun scope => (steady_lit _).seq <|
    (steady_emitInputIdentity _ _ self index).seq <| (steady_emitInputSigning _ _ self scope).seq <|
    (steady_emitInputScripts _ _ tx self scope index).seq <|
    (steady_emitInputPreserved _ _ self scope).seq (steady_lit _)

theorem steady_emitCovenantValue (output : TransactionOutput) :
    SteadyJson (emitCovenantValue output) :=
  steady_ite (steady_lit _) <| (steady_lit _).seq <| (steady_u64 _).seq <| (steady_lit _).seq <|
    (steady_hexStringField _).seq (steady_lit _)

/-- The check of the binding comes before the write, and does not speak of room. -/
theorem steady_emitCovenantBinding (tx : Transaction) (index : Nat) (output : TransactionOutput) :
    SteadyJson (emitCovenantBinding parsed tx index output) := by
  refine Steady.seq (steady_lift (avoids_rejectIf (by decide))) ?_
  exact steady_ite (steady_pure ()) <| (steady_lit _).seq (steady_emitCovenantValue output)

theorem steady_emitOutputPreserved (scope : PsktUnknownScope) :
    SteadyJson (emitOutputPreserved parsed scratch scope) :=
  (steady_lit _).seq <| (steady_emitValueOrDefault _ _ _ _ _).seq <| (steady_lit _).seq <|
    (steady_emitValueOrDefault _ _ _ _ _).seq <| (steady_lit _).seq (steady_emitValueOrDefault _ _ _ _ _)

/-- An output with all its fields. -/
theorem steady_emitOutput (tx : Transaction) (index : Nat) (output : TransactionOutput) :
    SteadyJson (emitOutput parsed scratch tx index output) := by
  refine steady_bind (steady_scopeAt _ index (by decide)) fun scope => Steady.seq ?_ <|
    (steady_emitCovenantBinding _ tx index output).seq <| (steady_emitOutputPreserved _ _ scope).seq <|
    (steady_emitAdditionalFields _ _ _ _).seq (steady_lit _)
  exact (steady_lit _).seq <| (steady_u64String _).seq <| (steady_lit _).seq
    (steady_emitScriptPublicKey _)

/-- The three parts of a document. -/
theorem steady_emitPsktObject (source : SerializedTransaction) :
    SteadyJson (emitPsktObject parsed scratch source) := by
  refine (steady_lit _).seq <| (steady_emitGlobal _ _ source.tx).seq <| (steady_lit _).seq <|
    Steady.seq ?_ <| (steady_lit _).seq <| Steady.seq ?_ <|
    (steady_emitAdditionalFields _ _ _ _).seq (steady_lit _)
  · exact (steady_lit _).seq <| (steady_emitSeparated _ (steady_emitInput _ _ source.tx)).seq (steady_lit _)
  · exact (steady_lit _).seq <| (steady_emitSeparated _ (steady_emitOutput _ _ source.tx)).seq (steady_lit _)

/-- The whole envelope is written the same way into every buffer it fits. -/
theorem steady_emitEnvelope (source : SerializedTransaction) (bundle : Bool) :
    SteadyJson (emitEnvelope parsed scratch source bundle) := by
  have hobject := (steady_emitPsktObject parsed scratch source).seq
    (steady_ite (c := bundle = true) (steady_lit "]") (steady_pure ()))
  exact steady_ite ((steady_lit "[").seq hobject) hobject

/-- The checks before the first byte never report a full buffer. -/
theorem avoids_validateSerializationShape (tx : Transaction) :
    AvoidsFull (validateSerializationShape parsed scratch tx) := by
  refine avoids_bind (avoids_rejectIf (by decide)) fun _ =>
    avoids_bind (avoids_rejectIf (by decide)) fun _ => avoids_bind ?_ fun _ =>
    avoids_validatePreservationMetadata parsed scratch _ _
  refine avoids_bind (avoids_mapError fun error => ?_) fun _ => avoids_ok ()
  cases error <;> decide

theorem avoids_serializationMagic (format : TxInputFormat) :
    AvoidsFull (serializationMagic format) := by
  cases format with
  | ksptCompact => exact avoids_error (by decide)
  | psktPskb => exact avoids_ok _
  | psktSingle => exact avoids_ok _

/-- There is one size from which on the serializer succeeds, or fails, in the same way. -/
theorem serializePskt_fits (source : SerializedTransaction) (format : TxInputFormat) :
    ∃ size result, Fits PskError.outputBufferTooSmall (serializePskt parsed scratch source format)
      size result :=
  Fits.after (avoids_serializationMagic format) fun magic _ => Steady.fits <|
    (steady_putBytes magic).seq <| (steady_lift (avoids_validateSerializationShape _ _ source.tx)).seq <|
    steady_emitEnvelope _ _ source _

end preserved

end serializer

/-- The three serializers that grow their buffer return what the fixed-buffer serializer gives for
every large buffer, on either width of `usize`. -/
theorem growing_serializers (width : PointerWidth) :
    (∀ source limits, ∃ size result,
      GrowsTo width Kspt.WireError.outputBufferTooSmall (Kspt.encodeVecCapacity width source.global)
        (fun capacity => Kspt.encode source capacity limits) size result
        (Kspt.encodeVec width source limits)) ∧
    (∀ crypto tx, ∃ size result,
      GrowsTo width Kspt.PsktError.outputBufferTooSmall (Kspt.compactCapacity width tx)
        (Kspt.serializeCompactKspt crypto tx) size result
        (Kspt.serializeCompactKsptVec crypto width tx)) ∧
    (∀ parsed scratch source format, ∃ size result,
      GrowsTo width Pskt.Serializer.PskError.outputBufferTooSmall
        (Pskt.Serializer.psktCapacity width scratch.length)
        (Pskt.Serializer.serializePskt parsed scratch source format) size result
        (Pskt.Serializer.serializePsktVec parsed scratch width source format)) := by
  refine ⟨fun source limits => ?_, fun crypto tx => ?_, fun parsed scratch source format => ?_⟩
  · obtain ⟨size, result, h⟩ := Kspt.encode_fits source limits
    exact ⟨size, result, grow_growsTo width _ (Kspt.encodeVecCapacity_le width source.global) h⟩
  · obtain ⟨size, result, h⟩ := Kspt.serializeCompactKspt_fits crypto tx
    exact ⟨size, result, grow_growsTo width _ (Kspt.compactCapacity_le width tx) h⟩
  · obtain ⟨size, result, h⟩ := serializePskt_fits parsed scratch source format
    exact ⟨size, result, grow_growsTo width _ (Pskt.Serializer.psktCapacity_le width scratch.length) h⟩

end KaspaPortal.Guarantees
