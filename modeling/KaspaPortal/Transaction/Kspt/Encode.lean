import KaspaPortal.Transaction.Kspt.Envelope

/-!
# The KSPT encoder

`src/transaction/interchange/kspt/wire/encode.rs`. The output buffer is its
capacity and what has been written; the source returns the length of the latter. A
loop over the inputs or the outputs runs over the range of their indices.

A source that changes while it is read does not exist here: it is a value.
-/
namespace KaspaPortal.Transaction.Kspt
open Lib Primitives Model

/-- What the encoder asks for its values. -/
structure EncodeSource where
  global : Global
  input : Nat → Input
  signatureCount : Nat → Nat
  signature : Nat → Nat → Signature
  redeem : Nat → Bytes
  output : Nat → Output
  network : UInt8
  stealth : Option (FixedBytes 32)
  inputDerivation : Nat → Option Derivation
  outputDerivation : Nat → Option Derivation
  inputMs45 : Nat → Option Ms45Derivation
  outputMs45 : Nat → Option Ms45Derivation
  covenant : Nat → Option Covenant
  covenantExecution : Nat → Option CovenantExecution

def rejectEncode (bad : Prop) [Decidable bad] (error : WireError) : WireWriting := rejectIf bad error

/-- The limits are checked before anything is written. -/
def validateGlobal (global : Global) (limits : Limits) : Except WireError Unit := do
  rejectIf (supportedTxVersion global.version = false) WireError.unsupportedTransactionVersion
  rejectIf (global.flags &&& ~~~ALLOWED_FLAGS ≠ 0) WireError.invalidFlags
  rejectIf (limits.maxInputs < global.inputCount) WireError.tooManyInputs
  rejectIf (limits.maxOutputs < global.outputCount) WireError.tooManyOutputs
  rejectIf (limits.maxPayload < global.payload.length) WireError.payloadTooLong

/-- Magic, version and flags. -/
def writeHeader (flags : UInt8) : WireWriting := do
  writeBytes KSPT_MAGIC
  writeU8 KSPT_VERSION
  writeU8 flags

/-- The payload follows its length; a length that does not fit 32 bits is refused. -/
def writeGlobal (value : Global) : WireWriting := do
  writeU16 value.version
  writeU32 value.inputCount
  writeU8 value.outputCount
  writeU64 value.locktime
  writeBytes value.subnetworkId.val
  writeU64 value.gas
  rejectEncode (2 ^ 32 ≤ value.payload.length) .countOverflow
  writeU32 (UInt32.ofNat value.payload.length)
  writeBytes value.payload

/-- The declared count of signature operations has the same limit as the signatures. -/
def writeInputValue (value : Input) : WireWriting := do
  rejectEncode (MAX_SIGNATURE_RECORDS < value.sigOpCount.toNat) .tooManySignatures
  writeBytes value.previousTxId.val
  writeU32 value.previousIndex
  writeU64 value.amount
  writeU64 value.sequence
  writeU8 value.sigOpCount
  writeU16 value.scriptVersion
  writeScript value.script

/-- A position is written once, under a known sighash type. -/
def writeSignature (signature : Signature) (seen : List UInt8) : WireWriting := do
  rejectEncode (signature.position ∈ seen) .duplicateSignaturePosition
  rejectEncode (validSighash signature.sighash = false) .invalidSigHashType
  writeU8 signature.position
  writeU8 signature.sighash
  writeBytes signature.bytes.val

/-- The loop over the slots still to write. -/
def writeSignatureSlots (signature : Nat → Signature) : Nat → Nat → List UInt8 → WireWriting
  | 0, _, _ => pure ()
  | count + 1, slot, seen => do
    writeSignature (signature slot) seen
    writeSignatureSlots signature count (slot + 1) ((signature slot).position :: seen)

/-- The count, then the slots in order. -/
def writeSignatures (source : EncodeSource) (index : Nat) : WireWriting := do
  rejectEncode (MAX_SIGNATURE_RECORDS < source.signatureCount index) .tooManySignatures
  writeU8 (UInt8.ofNat (source.signatureCount index))
  writeSignatureSlots (source.signature index) (source.signatureCount index) 0 []

/-- Both limits are checked, although the second follows from the first. -/
def writeRedeem (redeem : Bytes) : WireWriting := do
  rejectEncode (MAX_REDEEM_SIZE < redeem.length) .redeemTooLong
  rejectEncode (2 ^ 16 ≤ redeem.length) .redeemTooLong
  writeU16 (UInt16.ofNat redeem.length)
  writeBytes redeem

def writeInput (source : EncodeSource) (index : Nat) : WireWriting := do
  writeInputValue (source.input index)
  writeSignatures source index
  writeRedeem (source.redeem index)

/-- An output has no hints here: they are trailers. -/
def writeOutput (value : Output) : WireWriting := do
  writeU64 value.amount
  writeU16 value.scriptVersion
  writeScript value.script

/-! ## Trailers -/

/-- Every envelope names its network. -/
def writeNetwork (code : UInt8) : WireWriting := do
  rejectEncode (validNetwork code = false) .invalidNetwork
  writeU8 NETWORK_MARKER
  writeU8 code

/-- The tweak is only written when there is one. -/
def writeStealth : Option (FixedBytes 32) → WireWriting
  | none => pure ()
  | some value => do
    writeU8 STEALTH_MARKER
    writeBytes value.val

/-- `position`, written: an index that one byte holds. -/
def writePosition (index : Nat) : WireWriting := do
  rejectEncode (256 ≤ index) .countOverflow
  writeU8 (UInt8.ofNat index)

/-- Positions are one byte, so that the position must be below 256. -/
def writeDerivation (marker : UInt8) (index : Nat) (value : Derivation) : WireWriting := do
  rejectEncode (validDerivation value = false) .invalidTrailer
  writeU8 marker
  writePosition index
  writeU8 value.branch
  writeU32 value.index

def writeMs45 (marker : UInt8) (index : Nat) (value : Ms45Derivation) : WireWriting := do
  rejectEncode (validMs45 value = false) .invalidTrailer
  writeU8 marker
  writePosition index
  writeU32 value.cosigner
  writeU32 value.chain
  writeU32 value.index

/-- A covenant hint has no check of its own. -/
def writeCovenant (index : Nat) (value : Covenant) : WireWriting := do
  writeU8 COVENANT_MARKER
  writePosition index
  writeU16 value.authorizingInput
  writeBytes value.id.val

def writeCovenantExecution (index : Nat) (value : CovenantExecution) : WireWriting := do
  rejectEncode (validCovenantExecution value = false) .invalidTrailer
  writeU8 COVENANT_EXECUTION_MARKER
  writePosition index
  writeU16 value.suppliedMask
  writeU16 value.suppliedTrueMask

/-- The loops of the trailers: an index without a value writes nothing. -/
def writeEach {α : Type} (count : Nat) (value : Nat → Option α) (write : Nat → α → WireWriting) :
    WireWriting :=
  (List.range count).forM fun index => match value index with
    | none => pure ()
    | some v => write index v

def writeMs45Trailers (source : EncodeSource) (inputs outputs : Nat) : WireWriting := do
  writeEach inputs source.inputMs45 (writeMs45 MS45_INPUT_MARKER)
  writeEach outputs source.outputMs45 (writeMs45 MS45_OUTPUT_MARKER)

def writeDerivationTrailers (source : EncodeSource) (inputs outputs : Nat) : WireWriting := do
  writeEach inputs source.inputDerivation (writeDerivation INPUT_DERIVATION_MARKER)
  writeEach outputs source.outputDerivation (writeDerivation OUTPUT_DERIVATION_MARKER)

/-- The order of the kinds is fixed, and positions ascend within a kind. -/
def writeTrailers (source : EncodeSource) : WireWriting := do
  let inputs := source.global.inputCount.toNat
  let outputs := source.global.outputCount.toNat
  writeNetwork source.network
  writeMs45Trailers source inputs outputs
  writeStealth source.stealth
  writeEach outputs source.covenant writeCovenant
  writeEach inputs source.covenantExecution writeCovenantExecution
  writeDerivationTrailers source inputs outputs

/-- Inputs, outputs, then the hints of both. -/
def encodeEnvelope (source : EncodeSource) : WireWriting := do
  writeHeader source.global.flags
  writeGlobal source.global
  (List.range source.global.inputCount.toNat).forM (writeInput source)
  (List.range source.global.outputCount.toNat).forM fun index => writeOutput (source.output index)
  writeTrailers source

/-- Encode `source` into a buffer of `capacity` bytes: the bytes written. -/
def encode (source : EncodeSource) (capacity : Nat) (limits : Limits) : Except WireError Bytes := do
  validateGlobal source.global limits
  let ((), writer) ← encodeEnvelope source ⟨capacity, []⟩
  return writer.out

/-! ## The envelope of a source -/

/-- The trailers of one kind, at the indices that have a value. -/
def indexedTrailers {α : Type} (count : Nat) (value : Nat → Option α)
    (make : UInt8 → α → Trailer) : List Trailer :=
  (List.range count).filterMap fun index => (value index).map (make (UInt8.ofNat index))

namespace EncodeSource

/-- The input record a source stands for. -/
def wireInput (source : EncodeSource) (index : Nat) : WireInput where
  value := source.input index
  signatures := (List.range (source.signatureCount index)).map (source.signature index)
  redeem := source.redeem index

/-- The hints a source stands for, in the order they are written. -/
def trailers (source : EncodeSource) : List Trailer :=
  let inputs := source.global.inputCount.toNat
  let outputs := source.global.outputCount.toNat
  .network source.network :: (indexedTrailers inputs source.inputMs45 .inputMs45 ++
    (indexedTrailers outputs source.outputMs45 .outputMs45 ++
      ((source.stealth.map Trailer.stealth).toList ++
        (indexedTrailers outputs source.covenant .covenant ++
          (indexedTrailers inputs source.covenantExecution .covenantExecution ++
            (indexedTrailers inputs source.inputDerivation .inputDerivation ++
              indexedTrailers outputs source.outputDerivation .outputDerivation))))))

/-- The envelope a source stands for; the encoder's string is the one of this value. -/
def envelope (source : EncodeSource) : Envelope where
  global := source.global
  inputs := (List.range source.global.inputCount.toNat).map source.wireInput
  outputs := (List.range source.global.outputCount.toNat).map source.output
  trailers := source.trailers

end EncodeSource

/-! ## What the writers write -/

/-- A check writes nothing, and must not fail. -/
theorem writes_rejectEncode {bad : Prop} [Decidable bad] {error : WireError} :
    Writes (rejectEncode bad error) (¬ bad) [] :=
  writes_rejectIf

theorem writes_writeHeader (flags : UInt8) : Writes (writeHeader flags) True (headerBytes flags) :=
  (writes_bind (writes_writeBytes _) (writes_bind (writes_writeBytes _) (writes_writeBytes _))).congr
    (by simp) fun _ => rfl

/-- A payload is written when its length fits 32 bits. -/
theorem writes_writeGlobal (g : Global) :
    Writes (writeGlobal g) (g.payload.length < 2 ^ 32) (globalBytes g) := by
  refine (writes_bind (writes_writeBytes _) (writes_bind (writes_writeBytes _)
    (writes_bind (writes_writeBytes _) (writes_bind (writes_writeBytes _)
      (writes_bind (writes_writeBytes _) (writes_bind (writes_writeBytes _)
        (writes_bind writes_rejectEncode (writes_bind (writes_writeBytes _)
          (writes_writeBytes _))))))))).congr ?_ fun _ => ?_
  · simp only [true_and, and_true, Nat.not_le]
  · rfl

theorem writes_writeInputValue (v : Input) :
    Writes (writeInputValue v)
      (v.sigOpCount.toNat ≤ MAX_SIGNATURE_RECORDS ∧ v.script.length ≤ MAX_SCRIPT_SIZE)
      (inputBytes v) := by
  refine (writes_bind writes_rejectEncode (writes_bind (writes_writeBytes _)
    (writes_bind (writes_writeBytes _) (writes_bind (writes_writeBytes _)
      (writes_bind (writes_writeBytes _) (writes_bind (writes_writeBytes _)
        (writes_bind (writes_writeBytes _) (writes_writeScript _)))))))).congr ?_ fun _ => ?_
  · simp only [true_and, Nat.not_lt]
  · rfl

theorem writes_writeSignature (v : Signature) (seen : List UInt8) :
    Writes (writeSignature v seen) (v.position ∉ seen ∧ validSighash v.sighash = true)
      (signatureBytes v) := by
  refine (writes_bind writes_rejectEncode (writes_bind writes_rejectEncode
    (writes_bind (writes_writeBytes _) (writes_bind (writes_writeBytes _)
      (writes_writeBytes _))))).congr ?_ fun _ => ?_
  · simp
  · rfl

/-- The slots from `slot` on. -/
def slotsFrom (signature : Nat → Signature) (slot count : Nat) : List Signature :=
  (List.range' slot count).map signature

/-- By recursion on the slots: the positions seen so far are those of the slots before. -/
theorem writes_writeSignatureSlots (signature : Nat → Signature) (count slot : Nat)
    (seen : List UInt8) :
    Writes (writeSignatureSlots signature count slot seen)
      (((slotsFrom signature slot count).map (·.position)).Nodup ∧
        (∀ v ∈ slotsFrom signature slot count, v.position ∉ seen) ∧
        ∀ v ∈ slotsFrom signature slot count, validSighash v.sighash = true)
      ((slotsFrom signature slot count).flatMap signatureBytes) := by
  induction count generalizing slot seen with
  | zero => exact writes_pure.congr (by simp [slotsFrom]) fun _ => rfl
  | succ count ih =>
    have hcons : slotsFrom signature slot (count + 1) =
        signature slot :: slotsFrom signature (slot + 1) count := by
      simp [slotsFrom, List.range'_succ]
    refine (writes_bind (writes_writeSignature (signature slot) seen) (ih (slot + 1) _)).congr ?_
      fun _ => by rw [hcons, List.flatMap_cons]
    rw [hcons, List.map_cons, List.nodup_cons, List.forall_mem_cons, List.forall_mem_cons]
    simp only [List.mem_cons, not_or, List.mem_map, not_exists, not_and]
    constructor
    · intro ⟨⟨hseen, hvalid⟩, hnodup, hnew, hval⟩
      exact ⟨⟨fun u hu => (hnew u hu).1, hnodup⟩, ⟨hseen, fun u hu => (hnew u hu).2⟩, hvalid, hval⟩
    · intro ⟨⟨hfirst, hnodup⟩, ⟨hseen, hnew⟩, hvalid, hval⟩
      exact ⟨⟨hseen, hvalid⟩, hnodup, fun u hu => ⟨hfirst u hu, hnew u hu⟩, hval⟩

theorem writes_writeRedeem (redeem : Bytes) :
    Writes (writeRedeem redeem) (redeem.length ≤ MAX_REDEEM_SIZE) (redeemFieldBytes redeem) := by
  have hmax : MAX_REDEEM_SIZE = 1024 := rfl
  refine (writes_bind writes_rejectEncode (writes_bind writes_rejectEncode
    (writes_bind (writes_writeBytes _) (writes_writeBytes _)))).congr ?_ fun _ => ?_
  · simp only [and_true]
    omega
  · rfl

/-- An input is written exactly when its record is valid. -/
theorem writes_writeInput (source : EncodeSource) (index : Nat) :
    Writes (writeInput source index) (source.wireInput index).Valid
      (source.wireInput index).bytes := by
  refine (writes_bind (writes_writeInputValue _) (writes_bind (writes_bind writes_rejectEncode
    (writes_bind (writes_writeBytes _) (writes_writeSignatureSlots _ _ 0 [])))
      (writes_writeRedeem _))).congr ?_ fun _ => ?_
  · constructor
    · intro ⟨⟨hops, hscript⟩, ⟨hcount, _, hnodup, _, hval⟩, hredeem⟩
      rw [slotsFrom, ← List.range_eq_range'] at hnodup hval
      exact ⟨hops, hscript, by simpa [EncodeSource.wireInput] using hcount, hnodup, hval, hredeem⟩
    · intro hv
      have hcount := hv.signatures
      have hnodup := hv.positions
      have hval := hv.sighashes
      simp only [EncodeSource.wireInput, List.length_map, List.length_range] at hcount
      refine ⟨⟨hv.sigOps, hv.script⟩, ⟨Nat.not_lt.mpr hcount, trivial, ?_⟩, hv.redeem⟩
      rw [slotsFrom, ← List.range_eq_range']
      exact ⟨hnodup, by simp, hval⟩
  · simp only [WireInput.bytes, EncodeSource.wireInput, slotsFrom, ← List.range_eq_range', List.length_map,
      List.length_range, List.nil_append, List.append_assoc]
    rfl

theorem writes_writeOutput (v : Output) :
    Writes (writeOutput v) (v.script.length ≤ MAX_SCRIPT_SIZE) (outputBytes v) := by
  refine (writes_bind (writes_writeBytes _) (writes_bind (writes_writeBytes _)
    (writes_writeScript _))).congr ?_ fun _ => ?_
  · simp only [true_and]
  · rfl

/-- A position above one byte is refused. -/
theorem writes_writePosition (index : Nat) :
    Writes (writePosition index) (index < 256) (u8Bytes (UInt8.ofNat index)) := by
  refine (writes_bind writes_rejectEncode (writes_writeBytes _)).congr ?_ fun _ => ?_
  · simp only [and_true, Nat.not_le]
  · rfl

theorem writes_writeDerivation (marker : UInt8) (index : Nat) (v : Derivation) :
    Writes (writeDerivation marker index v) (validDerivation v = true ∧ index < 256)
      (u8Bytes marker ++ (u8Bytes (UInt8.ofNat index) ++ (u8Bytes v.branch ++ u32Bytes v.index))) := by
  refine (writes_bind writes_rejectEncode (writes_bind (writes_writeBytes _)
    (writes_bind (writes_writePosition _) (writes_bind (writes_writeBytes _)
      (writes_writeBytes _))))).congr ?_ fun _ => ?_
  · simp
  · rfl

theorem writes_writeMs45 (marker : UInt8) (index : Nat) (v : Ms45Derivation) :
    Writes (writeMs45 marker index v) (validMs45 v = true ∧ index < 256)
      (u8Bytes marker ++ (u8Bytes (UInt8.ofNat index) ++
        (u32Bytes v.cosigner ++ (u32Bytes v.chain ++ u32Bytes v.index)))) := by
  refine (writes_bind writes_rejectEncode (writes_bind (writes_writeBytes _)
    (writes_bind (writes_writePosition _) (writes_bind (writes_writeBytes _)
      (writes_bind (writes_writeBytes _) (writes_writeBytes _)))))).congr ?_ fun _ => ?_
  · simp
  · rfl

theorem writes_writeCovenant (index : Nat) (v : Covenant) :
    Writes (writeCovenant index v) (True ∧ index < 256)
      (Trailer.covenant (UInt8.ofNat index) v).bytes := by
  refine (writes_bind (writes_writeBytes _) (writes_bind (writes_writePosition _)
    (writes_bind (writes_writeBytes _) (writes_writeBytes _)))).congr ?_ fun _ => ?_
  · simp
  · rfl

theorem writes_writeCovenantExecution (index : Nat) (v : CovenantExecution) :
    Writes (writeCovenantExecution index v) (validCovenantExecution v = true ∧ index < 256)
      (Trailer.covenantExecution (UInt8.ofNat index) v).bytes := by
  refine (writes_bind writes_rejectEncode (writes_bind (writes_writeBytes _)
    (writes_bind (writes_writePosition _) (writes_bind (writes_writeBytes _)
      (writes_writeBytes _))))).congr ?_ fun _ => ?_
  · simp
  · rfl

theorem writes_writeNetwork (code : UInt8) :
    Writes (writeNetwork code) (validNetwork code = true) (Trailer.network code).bytes := by
  refine (writes_bind writes_rejectEncode (writes_bind (writes_writeBytes _)
    (writes_writeBytes _))).congr ?_ fun _ => ?_
  · simp
  · rfl

theorem writes_writeStealth (value : Option (FixedBytes 32)) :
    Writes (writeStealth value) True
      ((value.map Trailer.stealth).toList.flatMap Trailer.bytes) := by
  cases value with
  | none => exact writes_pure.congr (by simp) fun _ => rfl
  | some v =>
    refine (writes_bind (writes_writeBytes _) (writes_writeBytes _)).congr (by simp) fun _ => ?_
    simp only [Option.map_some, Option.toList_some, List.flatMap_cons, List.flatMap_nil, List.append_nil]
    rfl

/-- Every index that has a value has a valid one, and fits in a byte. -/
def EachFits {α : Type} (count : Nat) (value : Nat → Option α) (valid : α → Prop) : Prop :=
  ∀ index < count, ∀ v, value index = some v → valid v ∧ index < 256

/-- A hint for each position that has one, in ascending order. -/
theorem writes_writeEach {α : Type} (count : Nat) (value : Nat → Option α)
    (write : Nat → α → WireWriting) (make : UInt8 → α → Trailer) (valid : α → Prop)
    (h : ∀ index v, Writes (write index v) (valid v ∧ index < 256) (make (UInt8.ofNat index) v).bytes) :
    Writes (writeEach count value write) (EachFits count value valid)
      ((indexedTrailers count value make).flatMap Trailer.bytes) := by
  have hitem : ∀ index, Writes (match value index with
      | none => pure ()
      | some v => write index v : WireWriting)
      (∀ v, value index = some v → valid v ∧ index < 256)
      (((value index).map (make (UInt8.ofNat index))).toList.flatMap Trailer.bytes) := by
    intro index
    cases value index with
    | none => exact writes_pure.congr (by simp) fun _ => rfl
    | some v => exact (h index v).congr (by simp) fun _ => by simp
  refine (writes_forM (List.range count) fun index _ => hitem index).congr ?_ fun _ => ?_
  · simp only [List.mem_range, EachFits]
  · rw [indexedTrailers, List.filterMap_eq_flatMap_toList, List.flatMap_assoc]

/-- What the trailers of a source must satisfy to be written. -/
structure WritableTrailers (source : EncodeSource) : Prop where
  network : validNetwork source.network = true
  inputMs45 : EachFits source.global.inputCount.toNat source.inputMs45 (validMs45 · = true)
  outputMs45 : EachFits source.global.outputCount.toNat source.outputMs45 (validMs45 · = true)
  covenant : EachFits source.global.outputCount.toNat source.covenant fun _ => True
  covenantExecution : EachFits source.global.inputCount.toNat source.covenantExecution
    (validCovenantExecution · = true)
  inputDerivation : EachFits source.global.inputCount.toNat source.inputDerivation
    (validDerivation · = true)
  outputDerivation : EachFits source.global.outputCount.toNat source.outputDerivation
    (validDerivation · = true)

/-- The trailers of a source are written exactly when each is valid and in range. -/
theorem writes_writeTrailers (source : EncodeSource) :
    Writes (writeTrailers source) (WritableTrailers source)
      (source.trailers.flatMap Trailer.bytes) := by
  refine (writes_bind (writes_writeNetwork _) (writes_bind (writes_bind
    (writes_writeEach _ _ _ .inputMs45 (validMs45 · = true) fun i v => writes_writeMs45 _ i v)
    (writes_writeEach _ _ _ .outputMs45 (validMs45 · = true) fun i v => writes_writeMs45 _ i v))
    (writes_bind (writes_writeStealth _) (writes_bind
      (writes_writeEach _ _ _ .covenant (fun _ => True) writes_writeCovenant)
      (writes_bind (writes_writeEach _ _ _ .covenantExecution (validCovenantExecution · = true)
        writes_writeCovenantExecution)
        (writes_bind
          (writes_writeEach _ _ _ .inputDerivation (validDerivation · = true)
            fun i v => writes_writeDerivation _ i v)
          (writes_writeEach _ _ _ .outputDerivation (validDerivation · = true)
            fun i v => writes_writeDerivation _ i v))))))).congr ?_ fun _ => ?_
  · constructor
    · intro ⟨hn, ⟨hi, ho⟩, _, hc, he, ha, hd⟩
      exact ⟨hn, hi, ho, hc, he, ha, hd⟩
    · intro h
      exact ⟨h.network, ⟨h.inputMs45, h.outputMs45⟩, trivial, h.covenant, h.covenantExecution,
        h.inputDerivation, h.outputDerivation⟩
  · simp only [EncodeSource.trailers, List.flatMap_cons, List.flatMap_append, List.append_assoc]

/-- The string written is that of the envelope the source stands for. -/
theorem writes_encodeEnvelope (source : EncodeSource) :
    Writes (encodeEnvelope source)
      (source.global.payload.length < 2 ^ 32 ∧ (∀ i ∈ source.envelope.inputs, i.Valid) ∧
        (∀ o ∈ source.envelope.outputs, o.script.length ≤ MAX_SCRIPT_SIZE) ∧ WritableTrailers source)
      source.envelope.bytes := by
  refine (writes_bind (writes_writeHeader _) (writes_bind (writes_writeGlobal _)
    (writes_bind (writes_forM _ fun index _ => writes_writeInput source index)
      (writes_bind (writes_forM _ fun index _ => writes_writeOutput (source.output index))
        (writes_writeTrailers source))))).congr ?_ fun _ => ?_
  · simp only [true_and, EncodeSource.envelope, List.forall_mem_map]
  · simp only [Envelope.bytes, EncodeSource.envelope, List.flatMap_map]

/-- The limits of both sides, spelled out. -/
theorem validateGlobal_eq_ok {g : Global} {limits : Limits} {u : Unit} :
    validateGlobal g limits = .ok u ↔ supportedTxVersion g.version = true ∧
      g.flags &&& ~~~ALLOWED_FLAGS = 0 ∧ g.inputCount ≤ limits.maxInputs ∧
      g.outputCount ≤ limits.maxOutputs ∧ g.payload.length ≤ limits.maxPayload := by
  unfold validateGlobal
  simp only [bind_eq_ok, rejectIf_eq_ok]
  simp

/-- The encoder succeeds exactly on a source whose values fit, in a buffer that
holds its envelope. -/
theorem encode_eq_ok {source : EncodeSource} {capacity : Nat} {limits : Limits} {b : Bytes} :
    encode source capacity limits = .ok b ↔ ValidGlobal limits source.global ∧
      (∀ i ∈ source.envelope.inputs, i.Valid) ∧
      (∀ o ∈ source.envelope.outputs, o.script.length ≤ MAX_SCRIPT_SIZE) ∧
      WritableTrailers source ∧ b = source.envelope.bytes ∧ b.length ≤ capacity := by
  have hwrite := writes_encodeEnvelope source ⟨capacity, []⟩
  unfold encode
  constructor
  · intro h
    obtain ⟨_, hg, h⟩ := bind_eq_ok.mp h
    obtain ⟨⟨_, writer⟩, hw, hb⟩ := bind_eq_ok.mp h
    obtain ⟨hversion, hflags, hin, hout, hpay⟩ := validateGlobal_eq_ok.mp hg
    obtain ⟨⟨hwidth, hi, ho, ht⟩, hwriter, hcap⟩ := (hwrite writer (Nat.zero_le _)).mp hw
    have hb : writer.out = b := Except.ok.inj hb
    rw [hwriter] at hb
    simp only [List.nil_append] at hb
    exact ⟨⟨hflags, hversion, hin, hout, hpay, hwidth⟩, hi, ho, ht, hb.symm, by simpa [← hb] using hcap⟩
  · intro ⟨hg, hi, ho, ht, hb, hcap⟩
    refine bind_eq_ok.mpr ⟨(), validateGlobal_eq_ok.mpr ⟨hg.version, hg.flags, hg.inputs, hg.outputs,
      hg.payload⟩, bind_eq_ok.mpr ⟨((), ⟨capacity, b⟩), (hwrite _ (Nat.zero_le _)).mpr
        ⟨⟨hg.payloadWidth, hi, ho, ht⟩, by rw [hb]; rfl, ?_⟩, rfl⟩⟩
    rw [← hb]
    simpa using hcap

/-! ## The trailers it writes are in order -/

/-- The hints of a kind are those of its positions. -/
theorem mem_indexedTrailers {α : Type} {count : Nat} {value : Nat → Option α}
    {make : UInt8 → α → Trailer} {t : Trailer} :
    t ∈ indexedTrailers count value make ↔
      ∃ index < count, ∃ v, value index = some v ∧ make (UInt8.ofNat index) v = t := by
  simp only [indexedTrailers, List.mem_filterMap, List.mem_range, Option.map_eq_some_iff]

/-- In order, and of rank `r` or above. -/
def OrderedFrom (r : Nat) (ts : List Trailer) : Prop :=
  ts.Pairwise (·.key < ·.key) ∧ ∀ t ∈ ts, r ≤ t.rank.toNat

/-- Kinds are ordered before positions. -/
theorem Trailer.key_lt_of_rank {t u : Trailer} (h : t.rank.toNat < u.rank.toNat) : t.key < u.key := by
  have := t.position.toNat_lt
  unfold Trailer.key
  omega

/-- A group of one kind in front of later ones. -/
theorem OrderedFrom.prepend {r : Nat} {group ts : List Trailer}
    (hgroup : group.Pairwise (·.key < ·.key)) (hrank : ∀ t ∈ group, t.rank.toNat = r)
    (h : OrderedFrom (r + 1) ts) : OrderedFrom r (group ++ ts) := by
  refine ⟨List.pairwise_append.mpr ⟨hgroup, h.1, fun t ht u hu => ?_⟩, fun t ht => ?_⟩
  · have hu := h.2 u hu
    have ht := hrank t ht
    exact Trailer.key_lt_of_rank (by omega)
  · obtain ht | ht := List.mem_append.mp ht
    · exact Nat.le_of_eq (hrank t ht).symm
    · exact Nat.le_of_succ_le (h.2 t ht)

/-- The hints of a kind are in order, since the positions ascend and fit one byte. -/
theorem OrderedFrom.indexed {α : Type} {count : Nat} {value : Nat → Option α}
    (make : UInt8 → α → Trailer) {valid : α → Prop} (hfits : EachFits count value valid) {r : Nat}
    (hrank : ∀ p v, (make p v).rank.toNat = r) (hpos : ∀ p v, (make p v).position = p)
    {ts : List Trailer} (h : OrderedFrom (r + 1) ts) :
    OrderedFrom r (indexedTrailers count value make ++ ts) := by
  refine OrderedFrom.prepend ?_ ?_ h
  · rw [indexedTrailers, List.pairwise_filterMap]
    refine (List.pairwise_lt_range (n := count)).imp_of_mem ?_
    intro i j hi hj hlt t ht u hu
    obtain ⟨v, hv, rfl⟩ := Option.map_eq_some_iff.mp ht
    obtain ⟨w, hw, rfl⟩ := Option.map_eq_some_iff.mp hu
    have hj256 := (hfits j (List.mem_range.mp hj) w hw).2
    have hi256 := (hfits i (List.mem_range.mp hi) v hv).2
    rw [Trailer.key, Trailer.key, hrank, hrank, hpos, hpos, UInt8.toNat_ofNat', UInt8.toNat_ofNat']
    omega
  · intro t ht
    obtain ⟨index, _, v, _, rfl⟩ := mem_indexedTrailers.mp ht
    exact hrank _ v

/-- A writable source lists its trailers in the canonical order. -/
theorem WritableTrailers.canonical {source : EncodeSource} (h : WritableTrailers source) :
    Canonical source.trailers := by
  have hD : OrderedFrom 7 (indexedTrailers source.global.outputCount.toNat source.outputDerivation
      .outputDerivation ++ []) :=
    .indexed .outputDerivation h.outputDerivation (fun _ _ => rfl) (fun _ _ => rfl) ⟨.nil, by simp⟩
  rw [List.append_nil] at hD
  have hA := hD.indexed .inputDerivation h.inputDerivation (fun _ _ => rfl) (fun _ _ => rfl)
  have hE := hA.indexed .covenantExecution h.covenantExecution (fun _ _ => rfl) (fun _ _ => rfl)
  have hC := hE.indexed .covenant h.covenant (fun _ _ => rfl) (fun _ _ => rfl)
  have hstealth : ((source.stealth.map Trailer.stealth).toList).Pairwise (·.key < ·.key) ∧
      ∀ t ∈ (source.stealth.map Trailer.stealth).toList, t.rank.toNat = 3 := by
    cases source.stealth <;> simp [Trailer.rank]
  have hS := OrderedFrom.prepend hstealth.1 hstealth.2 hC
  have hO := hS.indexed .outputMs45 h.outputMs45 (fun _ _ => rfl) (fun _ _ => rfl)
  have hI := hO.indexed .inputMs45 h.inputMs45 (fun _ _ => rfl) (fun _ _ => rfl)
  have hN := OrderedFrom.prepend (List.pairwise_singleton _ (Trailer.network source.network))
    (by simp [Trailer.rank]) hI
  exact ⟨hN.1, by simp [EncodeSource.trailers, Trailer.rank]⟩

/-! ## Its trailers by kind and index -/

namespace EncodeSource

/-- The trailer of one kind at one index. -/
def trailerAt (source : EncodeSource) (kind : IndexedTrailer) (index : Nat) : Option Trailer :=
  match kind with
  | .inputMs45 => (source.inputMs45 index).map (.inputMs45 (UInt8.ofNat index))
  | .outputMs45 => (source.outputMs45 index).map (.outputMs45 (UInt8.ofNat index))
  | .covenant => (source.covenant index).map (.covenant (UInt8.ofNat index))
  | .covenantExecution =>
    (source.covenantExecution index).map (.covenantExecution (UInt8.ofNat index))
  | .inputDerivation => (source.inputDerivation index).map (.inputDerivation (UInt8.ofNat index))
  | .outputDerivation => (source.outputDerivation index).map (.outputDerivation (UInt8.ofNat index))

/-- How many indices a kind has. -/
def countOf (source : EncodeSource) : IndexedTrailer → Nat
  | .inputMs45 | .covenantExecution | .inputDerivation => source.global.inputCount.toNat
  | .outputMs45 | .covenant | .outputDerivation => source.global.outputCount.toNat

/-- Every hint is the network, the stealth tweak, or stands at its kind and position. -/
theorem mem_trailers {source : EncodeSource} {t : Trailer} :
    t ∈ source.trailers ↔ t = .network source.network ∨ source.stealth.map .stealth = some t ∨
      ∃ kind, ∃ index < source.countOf kind, source.trailerAt kind index = some t := by
  have hgroup : ∀ {α : Type} {count : Nat} {value : Nat → Option α} {make : UInt8 → α → Trailer},
      t ∈ indexedTrailers count value make ↔
        ∃ index < count, (value index).map (make (UInt8.ofNat index)) = some t := by
    intro α count value make
    simp only [mem_indexedTrailers, Option.map_eq_some_iff]
  simp only [trailers, List.mem_cons, List.mem_append, hgroup, Option.mem_toList, Option.mem_def]
  constructor
  · intro h
    obtain h | h | h | h | h | h | h | h := h
    · exact .inl h
    · exact .inr (.inr ⟨.inputMs45, h⟩)
    · exact .inr (.inr ⟨.outputMs45, h⟩)
    · exact .inr (.inl h)
    · exact .inr (.inr ⟨.covenant, h⟩)
    · exact .inr (.inr ⟨.covenantExecution, h⟩)
    · exact .inr (.inr ⟨.inputDerivation, h⟩)
    · exact .inr (.inr ⟨.outputDerivation, h⟩)
  · intro h
    obtain h | h | ⟨kind, h⟩ := h
    · exact .inl h
    · exact .inr (.inr (.inr (.inl h)))
    · cases kind with
      | inputMs45 => exact .inr (.inl h)
      | outputMs45 => exact .inr (.inr (.inl h))
      | covenant => exact .inr (.inr (.inr (.inr (.inl h))))
      | covenantExecution => exact .inr (.inr (.inr (.inr (.inr (.inl h)))))
      | inputDerivation => exact .inr (.inr (.inr (.inr (.inr (.inr (.inl h))))))
      | outputDerivation => exact .inr (.inr (.inr (.inr (.inr (.inr (.inr h))))))

end EncodeSource

end KaspaPortal.Transaction.Kspt
