import KaspaPortal.Transaction.Kspt.Codec

/-!
# Signature responses

`src/transaction/interchange/kspt/kssn.rs`: the signatures a signer sends back, one for an
input. `try_reserve` is taken to succeed.

Whether the signatures fit a transaction is decided when they are merged, which is not
modelled here.
-/
namespace KaspaPortal.Transaction.Kspt
open Lib Primitives Model

def KSSN_MAGIC : Bytes := [0x4b, 0x53, 0x53, 0x4e]
def KSSN_VERSION_CURRENT : UInt8 := 0x01

/-- A signature with the input it is for. -/
structure InputSignature where
  inputIndex : UInt32
  sighashType : SigHashType
  signature : FixedBytes 64
  deriving DecidableEq

/-- The signer's answer: one signature for each input it signed. -/
structure SignedResponse where
  signatures : List InputSignature
  deriving DecidableEq

namespace SignedResponse

def new : SignedResponse := ⟨[]⟩

/-- An input is answered once. -/
def addSignature (input : InputSignature) (response : SignedResponse) :
    Except PsktError SignedResponse := do
  rejectIf (response.signatures.any fun existing => existing.inputIndex = input.inputIndex)
    PsktError.invalidSignatureState
  return ⟨response.signatures ++ [input]⟩

/-- The response after a number of calls. -/
def build (inputs : List InputSignature) : Except PsktError SignedResponse :=
  inputs.foldlM (fun response input => response.addSignature input) new

def writeSignature (input : InputSignature) : WireWriting := do
  writeU32 input.inputIndex
  writeU8 input.sighashType.toByte
  writeBytes input.signature.val

/-- The count, then the signatures. -/
def writeResponse (response : SignedResponse) : WireWriting := do
  writeBytes KSSN_MAGIC
  writeU8 KSSN_VERSION_CURRENT
  writeU32 (UInt32.ofNat response.signatures.length)
  response.signatures.forM writeSignature

/-- The bytes written into an output buffer of `capacity` bytes. -/
def serialize (response : SignedResponse) (capacity : Nat) : Except PsktError Bytes := do
  rejectIf (2 ^ 32 ≤ response.signatures.length) PsktError.tooManySignatures
  (((writeResponse response) ⟨capacity, []⟩).map fun written => written.2.out).mapError PsktError.ofWire

section reader

abbrev ResponseParser (α : Type) := WireParser SignedResponse PsktError α

/-- Bytes that are no type are refused. -/
def readSighash : ResponseParser SigHashType := do
  let byte ← readU8
  match SigHashType.fromByte byte with
  | some sighashType => pure sighashType
  | none => throw (.wire .invalidSigHashType)

def readInputSignature : ResponseParser InputSignature := do
  let inputIndex ← readU32
  let sighashType ← readSighash
  let signature ← readArray 64
  return ⟨inputIndex, sighashType, signature⟩

def readResponseCount : ResponseParser Nat := do
  let magic ← readBytes 4
  rejectWire (magic ≠ KSSN_MAGIC) .invalidMagic
  let version ← readU8
  rejectWire (version ≠ KSSN_VERSION_CURRENT) .unsupportedVersion
  return (← readU32).toNat

def readSignatureInto : ResponseParser Unit := do
  let input ← readInputSignature
  toSink fun response => response.addSignature input

/-- Nothing may follow the last signature. -/
def readResponse : ResponseParser Unit := do
  let count ← readResponseCount
  readEach readSignatureInto count
  let left ← remaining
  rejectWire (left ≠ 0) .trailingData

end reader

def parse (data : Bytes) : Except PsktError SignedResponse :=
  ((readResponse (data, new)).map fun read => read.2.2).mapError decodeError

end SignedResponse

/-! ## The string of a response -/

def InputSignature.bytes (input : InputSignature) : Bytes :=
  u32Bytes input.inputIndex ++ (u8Bytes input.sighashType.toByte ++ input.signature.val)

/-- The string of an answer. -/
def SignedResponse.bytes (response : SignedResponse) : Bytes :=
  KSSN_MAGIC ++ (u8Bytes KSSN_VERSION_CURRENT ++
    (u32Bytes (UInt32.ofNat response.signatures.length) ++
      response.signatures.flatMap InputSignature.bytes))

/-- The one type that has a byte and is not read back. -/
def SigHashType.Readable (sighashType : SigHashType) : Prop := sighashType ≠ .anyOneCanPay

/-- A type is read from the byte it is written as. -/
theorem fromByte_eq_some {b : UInt8} {sighashType : SigHashType} :
    SigHashType.fromByte b = some sighashType ↔
      SigHashType.Readable sighashType ∧ b = sighashType.toByte := by
  have hto : ∀ t : SigHashType, t ≠ .anyOneCanPay → SigHashType.fromByte t.toByte = some t := by
    intro t ht
    cases t with
    | anyOneCanPay => exact absurd rfl ht
    | _ => rfl
  constructor
  · intro h
    rw [SigHashType.fromByte] at h
    repeat' split at h
    all_goals first
      | (rename_i hb; cases h; exact ⟨SigHashType.noConfusion, hb⟩)
      | cases h
  · intro h
    rw [h.2]
    exact hto sighashType h.1

namespace SignedResponse

/-- A signature is added exactly when no other is for its input. -/
theorem addSignature_eq_ok {input : InputSignature} {response next : SignedResponse} :
    response.addSignature input = .ok next ↔
      (∀ existing ∈ response.signatures, existing.inputIndex ≠ input.inputIndex) ∧
      next = ⟨response.signatures ++ [input]⟩ := by
  simp only [addSignature, bind_eq_ok, rejectIf_eq_ok, List.any_eq_true, not_exists, not_and,
    decide_eq_true_eq]
  constructor
  · intro h
    obtain ⟨_, hfresh, hnext⟩ := h
    exact ⟨hfresh, (Except.ok.inj hnext).symm⟩
  · intro h
    exact ⟨(), h.1, congrArg _ h.2.symm⟩

/-- By induction on the signatures: all are added when their inputs are distinct. -/
theorem foldlM_addSignature {inputs : List InputSignature} {start response : SignedResponse} :
    inputs.foldlM (fun response input => response.addSignature input) start = .ok response ↔
      (inputs.map InputSignature.inputIndex).Nodup ∧
      (∀ input ∈ inputs, ∀ existing ∈ start.signatures, existing.inputIndex ≠ input.inputIndex) ∧
      response = ⟨start.signatures ++ inputs⟩ := by
  induction inputs generalizing start with
  | nil =>
    rw [List.append_nil]
    exact ⟨fun h => ⟨List.nodup_nil, by simp, (Except.ok.inj h).symm⟩, fun h => congrArg _ h.2.2.symm⟩
  | cons input inputs ih =>
    rw [List.foldlM_cons, bind_eq_ok, List.map_cons, List.nodup_cons]
    constructor
    · intro ⟨next, hadd, hrest⟩
      obtain ⟨hfresh, hnext⟩ := addSignature_eq_ok.mp hadd
      obtain ⟨hnodup, hothers, hresponse⟩ := ih.mp hrest
      subst hnext
      refine ⟨⟨?_, hnodup⟩, ?_, by simpa using hresponse⟩
      · intro hmem
        obtain ⟨other, hother, hindex⟩ := List.mem_map.mp hmem
        exact hothers other hother input (by simp) hindex.symm
      · intro other hother existing hexisting
        obtain rfl | hother := List.mem_cons.mp hother
        · exact hfresh existing hexisting
        · exact hothers other hother existing (by simp [hexisting])
    · intro ⟨⟨hnew, hnodup⟩, hothers, hresponse⟩
      refine ⟨⟨start.signatures ++ [input]⟩,
        addSignature_eq_ok.mpr ⟨hothers input (by simp), rfl⟩, ih.mpr ⟨hnodup, ?_, by simpa using hresponse⟩⟩
      intro other hother existing hexisting heq
      obtain hexisting | hexisting := List.mem_append.mp hexisting
      · exact hothers other (by simp [hother]) existing hexisting heq
      · rw [List.mem_singleton.mp hexisting] at heq
        exact hnew (List.mem_map.mpr ⟨other, hother, heq.symm⟩)

/-- The calls succeed when no input is signed twice, and keep the order. -/
theorem build_eq_ok {inputs : List InputSignature} {response : SignedResponse} :
    build inputs = .ok response ↔
      (inputs.map InputSignature.inputIndex).Nodup ∧ response = ⟨inputs⟩ := by
  rw [build, foldlM_addSignature]
  simp [new]

/-! ## Writing -/

theorem writes_writeSignature (input : InputSignature) :
    Writes (writeSignature input) True input.bytes := by
  refine (writes_bind writes_putBytes (writes_bind writes_putBytes writes_putBytes)).congr
    (by simp) fun _ => rfl

theorem writes_writeResponse (response : SignedResponse) :
    Writes (writeResponse response) True response.bytes := by
  refine (writes_bind writes_putBytes (writes_bind writes_putBytes (writes_bind writes_putBytes
    (writes_forM _ fun input _ => writes_writeSignature input)))).congr (by simp) fun _ => rfl

/-- An answer is written exactly when there is room and the count fits. -/
theorem serialize_eq_ok {response : SignedResponse} {capacity : Nat} {b : Bytes} :
    response.serialize capacity = .ok b ↔
      response.signatures.length < 2 ^ 32 ∧ b = response.bytes ∧ b.length ≤ capacity := by
  have hwrite := writes_writeResponse response ⟨capacity, []⟩
  rw [serialize, bind_eq_ok]
  simp only [rejectIf_eq_ok, mapError_eq_ok, map_eq_ok, Nat.not_le]
  constructor
  · intro h
    obtain ⟨_, hlen, ⟨_, writer⟩, hw, hb⟩ := h
    obtain ⟨_, hwriter, hcap⟩ := (hwrite writer (Nat.zero_le _)).mp hw
    rw [hwriter] at hb
    obtain rfl : response.bytes = b := hb
    exact ⟨hlen, rfl, by simpa using hcap⟩
  · intro h
    obtain ⟨hlen, hb, hcap⟩ := h
    subst hb
    refine ⟨(), hlen, ((), ⟨capacity, response.bytes⟩), ?_, rfl⟩
    exact (hwrite _ (Nat.zero_le _)).mpr ⟨trivial, rfl, by simpa using hcap⟩

/-! ## Reading -/

theorem decodes_readSighash :
    Decodes readSighash (fun t => u8Bytes t.toByte) SigHashType.Readable := by
  have hf : ∀ byte : UInt8, Reads (match SigHashType.fromByte byte with
      | some sighashType => pure sighashType
      | none => throw (.wire .invalidSigHashType) : ResponseParser SigHashType)
      fun s w t s' => w = [] ∧ SigHashType.fromByte byte = some t ∧ s' = s := by
    intro byte
    cases hbyte : SigHashType.fromByte byte with
    | none =>
      intro bs s t rest s'
      exact ⟨nofun, fun ⟨_, _, _, h, _⟩ => by cases h⟩
    | some sighashType =>
      refine (reads_pure sighashType).congr fun s w t s' => ?_
      rw [Option.some.injEq, eq_comm (a := t)]
  refine (decodes_readU8.bind hf).congr fun s w t s' => ?_
  constructor
  · intro ⟨byte, _, w', hw, hw', hbyte, hs⟩
    obtain ⟨hreadable, hbyte⟩ := fromByte_eq_some.mp hbyte
    exact ⟨hreadable, by rw [hw, hw', hbyte, List.append_nil], hs⟩
  · intro ⟨hreadable, hw, hs⟩
    exact ⟨t.toByte, trivial, [], by rw [hw, List.append_nil], rfl,
      fromByte_eq_some.mpr ⟨hreadable, rfl⟩, hs⟩

theorem decodes_readInputSignature :
    Decodes readInputSignature InputSignature.bytes fun input =>
      SigHashType.Readable input.sighashType := by
  refine (decodes_readU32.bind fun _ => decodes_readSighash.bind fun _ =>
    decodes_readArray.bind fun _ => reads_pure _).congr fun s w input s' => ?_
  constructor
  · intro ⟨index, _, w₁, hw, t, hreadable, w₂, hw₁, signature, _, w₃, hw₂, hw₃, hinput, hs⟩
    subst hinput
    exact ⟨hreadable, by rw [hw, hw₁, hw₂, hw₃, List.append_nil]; rfl, hs⟩
  · intro ⟨hreadable, hw, hs⟩
    exact ⟨input.inputIndex, trivial, _, hw, input.sighashType, hreadable, _, rfl, input.signature,
      trivial, [], by rw [List.append_nil], rfl, rfl, hs⟩

/-- The count stands behind magic and version. -/
theorem decodes_readResponseCount :
    Decodes readResponseCount (fun count => KSSN_MAGIC ++ (u8Bytes KSSN_VERSION_CURRENT ++
      u32Bytes (UInt32.ofNat count))) (· < 2 ^ 32) := by
  refine (decodes_readBytes.bind fun _ => reads_rejectWire_bind (decodes_readU8.bind fun _ =>
    reads_rejectWire_bind (decodes_readU32.bind fun _ => reads_pure _))).congr
    fun s w count s' => ?_
  constructor
  · intro ⟨magic, _, w₁, hw, hmagic, version, _, w₂, hw₁, hversion, value, _, w₃, hw₂, hw₃, hcount,
      hs⟩
    rw [Decidable.not_not] at hmagic hversion
    refine ⟨by rw [hcount]; exact value.toNat_lt, ?_, hs⟩
    simp only [hw, hw₁, hw₂, hw₃, hmagic, hversion, hcount, UInt32.ofNat_toNat, List.append_nil, id]
  · intro ⟨hcount, hw, hs⟩
    refine ⟨KSSN_MAGIC, rfl, _, hw, by simp, KSSN_VERSION_CURRENT, trivial, _, rfl, by simp,
      UInt32.ofNat count, trivial, [], by rw [List.append_nil], rfl, ?_, hs⟩
    rw [UInt32.toNat_ofNat', Nat.mod_eq_of_lt hcount]

theorem reads_readSignatureInto :
    Reads readSignatureInto fun s w _ s' => ∃ input : InputSignature,
      SigHashType.Readable input.sighashType ∧ w = input.bytes ∧ s.addSignature input = .ok s' := by
  refine (decodes_readInputSignature.bind fun _ => reads_toSink).congr fun s w u s' => ?_
  constructor
  · intro ⟨input, hreadable, w', hw, hw', hs⟩
    exact ⟨input, hreadable, by rw [hw, hw', List.append_nil], hs⟩
  · intro ⟨input, hreadable, hw, hs⟩
    exact ⟨input, hreadable, [], by rw [hw, List.append_nil], rfl, hs⟩

/-- Nothing may follow the last signature. -/
theorem readsAll_trailing :
    ReadsAll (do let left ← remaining; rejectWire (left ≠ 0) .trailingData : ResponseParser Unit)
      fun s w _ s' => w = [] ∧ s' = s := by
  intro bs s u rest s'
  have hrun : (do let left ← remaining; rejectWire (left ≠ 0) .trailingData : ResponseParser Unit)
      (bs, s) = (rejectWire (bs.length ≠ 0) .trailingData : ResponseParser Unit) (bs, s) := rfl
  rw [hrun, rejectWire, reads_rejectIf]
  constructor
  · intro ⟨w, hbs, hw, hleft, hs⟩
    rw [Decidable.not_not, List.length_eq_zero_iff] at hleft
    rw [hleft, hw, List.nil_append] at hbs
    exact ⟨hbs.symm, hleft, hs⟩
  · intro ⟨hrest, hbs, hs⟩
    exact ⟨[], by rw [hbs, hrest]; rfl, rfl, by rw [hbs]; simp, hs⟩

/-- What is accepted is a list of signatures for distinct inputs, in its own bytes. -/
theorem readsAll_readResponse :
    ReadsAll readResponse fun s w _ s' => ∃ inputs : List InputSignature, inputs.length < 2 ^ 32 ∧
      (∀ input ∈ inputs, SigHashType.Readable input.sighashType) ∧ w = bytes ⟨inputs⟩ ∧
      inputs.foldlM (fun response input => response.addSignature input) s = .ok s' := by
  refine (reads_bindAll decodes_readResponseCount fun count => reads_bindAll
    (reads_readEach count reads_readSignatureInto) fun _ => readsAll_trailing).congr
    fun s w u s' => ?_
  constructor
  · intro ⟨count, s₁, w₁, w₂, hw, ⟨hcount, hw₁, hs₁⟩, _, s₂, w₃, w₄, hw₂,
      ⟨inputs, hlen, hreadable, hw₃, hinputs⟩, hw₄, hs'⟩
    subst hs₁ hs' hlen
    refine ⟨inputs, hcount, hreadable, ?_, hinputs⟩
    rw [hw, hw₂, hw₁, hw₃, hw₄, List.append_nil, bytes, List.append_assoc, List.append_assoc]
  · intro ⟨inputs, hcount, hreadable, hw, hinputs⟩
    refine ⟨inputs.length, s, _, inputs.flatMap InputSignature.bytes, ?_, ⟨hcount, rfl, rfl⟩, (), s',
      _, [], (List.append_nil _).symm, ⟨inputs, rfl, hreadable, rfl, hinputs⟩, rfl, rfl⟩
    rw [hw, bytes, List.append_assoc, List.append_assoc]

/-- What is accepted is the one string of the response. -/
theorem parse_eq_ok {data : Bytes} {response : SignedResponse} :
    parse data = .ok response ↔ response.signatures.length < 2 ^ 32 ∧
      (∀ input ∈ response.signatures, SigHashType.Readable input.sighashType) ∧
      (response.signatures.map InputSignature.inputIndex).Nodup ∧ data = response.bytes := by
  rw [parse, mapError_eq_ok, map_eq_ok]
  constructor
  · intro ⟨⟨_, rest, s⟩, h, hs⟩
    obtain ⟨_, inputs, hcount, hreadable, hdata, hinputs⟩ := (readsAll_readResponse ..).mp h
    obtain ⟨hnodup, hresponse⟩ := build_eq_ok.mp hinputs
    obtain rfl : s = response := hs
    subst hresponse
    exact ⟨hcount, hreadable, hnodup, hdata⟩
  · intro ⟨hcount, hreadable, hnodup, hdata⟩
    refine ⟨((), [], response), (readsAll_readResponse ..).mpr ⟨rfl, response.signatures, hcount,
      hreadable, hdata, build_eq_ok.mpr ⟨hnodup, rfl⟩⟩, rfl⟩

end SignedResponse

end KaspaPortal.Transaction.Kspt
