import KaspaPortal.Transaction.Kspt.Envelope

/-!
# The decoder accepts exactly the grammar

One lemma for each reader, from the fields up to the whole envelope. The only
readers that look past what they read are the capacity check, which the length of
any input implies, and the trailer loop, which runs to the end.

Nothing here depends on the sink: what it refuses is part of what the readers'
results say.
-/
namespace KaspaPortal.Transaction.Kspt
open Lib Primitives Model

section fields
variable {σ ε : Type}

/-- A header is accepted exactly in its own bytes, with allowed flags. -/
theorem reads_readHeader :
    Reads (readHeader (σ := σ) (ε := ε)) fun s w flags s' =>
      flags &&& ~~~ALLOWED_FLAGS = 0 ∧ w = headerBytes flags ∧ s' = s := by
  refine (decodes_readBytes.bind fun _ => reads_rejectWire_bind (decodes_readU8.bind fun _ =>
    reads_rejectWire_bind (decodes_readU8.bind fun flags => reads_rejectWire_bind
      (reads_pure flags)))).congr fun s w flags s' => ?_
  constructor
  · intro ⟨magic, _, w₁, hw, hmagic, version, _, w₂, hw₁, hversion, v, _, w₃, hw₂, hflags, hw₃, hv, hs⟩
    have hmagic := Decidable.of_not_not hmagic
    have hversion := Decidable.of_not_not hversion
    rw [hv]
    refine ⟨Decidable.of_not_not hflags, ?_, hs⟩
    rw [hw, hw₁, hw₂, hw₃, hmagic, hversion, List.append_nil]
    rfl
  · intro ⟨hflags, hw, hs⟩
    refine ⟨KSPT_MAGIC, rfl, _, hw, by simp, KSPT_VERSION, trivial, _, rfl, by simp, flags, trivial,
      [], by simp, by simp [hflags], rfl, rfl, hs⟩

/-- The limits are checked where the counts are read, before the payload. -/
theorem reads_readGlobal (flags : UInt8) (limits : Limits) :
    Reads (readGlobal (σ := σ) (ε := ε) flags limits) fun s w g s' =>
      (g.flags = flags ∧ supportedTxVersion g.version = true ∧ g.inputCount ≤ limits.maxInputs ∧
        g.outputCount ≤ limits.maxOutputs ∧ g.payload.length ≤ limits.maxPayload ∧
        g.payload.length < 2 ^ 32) ∧ w = globalBytes g ∧ s' = s := by
  refine (decodes_readU16.bind fun version => reads_rejectWire_bind (decodes_readU32.bind fun _ =>
    reads_rejectWire_bind (decodes_readU8.bind fun _ => reads_rejectWire_bind
      (decodes_readU64.bind fun _ => decodes_readArray.bind fun _ => decodes_readU64.bind fun _ =>
        decodes_readU32.bind fun _ => reads_rejectWire_bind (decodes_readBytes.bind fun _ =>
          reads_pure _))))).congr fun s w g s' => ?_
  constructor
  · intro ⟨version, _, w₁, hw, hversion, inputCount, _, w₂, hw₁, hinputs, outputCount, _, w₃, hw₂,
      houtputs, locktime, _, w₄, hw₃, subnetworkId, _, w₅, hw₄, gas, _, w₆, hw₅, payloadLen, _, w₇,
      hw₆, hpayload, payload, hlen, w₈, hw₇, hw₈, hg, hs⟩
    subst hg
    refine ⟨⟨rfl, by simpa using hversion, UInt32.not_lt.mp hinputs, UInt8.not_lt.mp houtputs,
      by simp only [hlen]; omega, by simp only [hlen]; exact payloadLen.toNat_lt⟩, ?_, hs⟩
    simp only [globalBytes, hlen, UInt32.ofNat_toNat, hw, hw₁, hw₂, hw₃, hw₄, hw₅, hw₆, hw₇, hw₈,
      List.append_nil, id]
  · intro ⟨⟨hflags, hversion, hinputs, houtputs, hpayload, hwidth⟩, hw, hs⟩
    have hlen : (UInt32.ofNat g.payload.length).toNat = g.payload.length := by
      rw [UInt32.toNat_ofNat', Nat.mod_eq_of_lt hwidth]
    refine ⟨g.version, trivial, _, hw, by simp [hversion], g.inputCount, trivial, _, rfl,
      UInt32.not_lt.mpr hinputs, g.outputCount, trivial, _, rfl, UInt8.not_lt.mpr houtputs,
      g.locktime, trivial, _, rfl, g.subnetworkId, trivial, _, rfl, g.gas, trivial, _, rfl,
      UInt32.ofNat g.payload.length, trivial, _, rfl, by omega, g.payload, hlen.symm, [], by simp, rfl,
      ?_, hs⟩
    rw [← hflags]

/-- The count of signature operations is limited where it is read. -/
theorem decodes_readInputValue :
    Decodes (readInputValue (σ := σ) (ε := ε)) inputBytes fun v =>
      v.sigOpCount.toNat ≤ MAX_SIGNATURE_RECORDS ∧ v.script.length ≤ MAX_SCRIPT_SIZE := by
  refine (decodes_readArray.bind fun _ => decodes_readU32.bind fun _ => decodes_readU64.bind fun _ =>
    decodes_readU64.bind fun _ => decodes_readU8.bind fun _ => reads_rejectWire_bind
      (decodes_readU16.bind fun _ => decodes_readScript.bind fun _ => reads_pure _)).congr
    fun s w v s' => ?_
  constructor
  · intro ⟨previousTxId, _, w₁, hw, previousIndex, _, w₂, hw₁, amount, _, w₃, hw₂, sequence, _, w₄,
      hw₃, sigOpCount, _, w₅, hw₄, hops, scriptVersion, _, w₆, hw₅, script, hscript, w₇, hw₆, hw₇, hv,
      hs⟩
    subst hv
    refine ⟨⟨Nat.le_of_not_lt hops, hscript⟩, ?_, hs⟩
    simp only [inputBytes, hw, hw₁, hw₂, hw₃, hw₄, hw₅, hw₆, hw₇, List.append_nil]
  · intro ⟨⟨hops, hscript⟩, hw, hs⟩
    exact ⟨v.previousTxId, trivial, _, hw, v.previousIndex, trivial, _, rfl, v.amount, trivial, _, rfl,
      v.sequence, trivial, _, rfl, v.sigOpCount, trivial, _, rfl, by omega, v.scriptVersion, trivial,
      _, rfl, v.script, hscript, [], by simp, rfl, rfl, hs⟩

theorem decodes_readSignatureCount :
    Decodes (readSignatureCount (σ := σ) (ε := ε)) u8Bytes
      fun count => count.toNat ≤ MAX_SIGNATURE_RECORDS := by
  refine (decodes_readU8.bind fun count => reads_rejectWire_bind (reads_pure count)).congr
    fun s w count s' => ?_
  constructor
  · intro ⟨c, _, w', hw, hc, hw', hcount, hs⟩
    rw [hcount]
    exact ⟨by omega, by rw [hw, hw', List.append_nil], hs⟩
  · intro ⟨hc, hw, hs⟩
    exact ⟨count, trivial, [], by simp [hw], by omega, rfl, rfl, hs⟩

/-- A position that was seen is refused. -/
theorem decodes_readSignature (seen : List UInt8) :
    Decodes (readSignature (σ := σ) (ε := ε) seen) signatureBytes fun v =>
      v.position ∉ seen ∧ validSighash v.sighash = true := by
  refine (decodes_readU8.bind fun _ => reads_rejectWire_bind (decodes_readU8.bind fun _ =>
    reads_rejectWire_bind (decodes_readArray.bind fun _ => reads_pure _))).congr fun s w v s' => ?_
  constructor
  · intro ⟨position, _, w₁, hw, hseen, sighash, _, w₂, hw₁, hsighash, bytes, _, w₃, hw₂, hw₃, hv, hs⟩
    subst hv
    refine ⟨⟨hseen, by simpa using hsighash⟩, ?_, hs⟩
    simp only [signatureBytes, hw, hw₁, hw₂, hw₃, List.append_nil]
  · intro ⟨⟨hseen, hsighash⟩, hw, hs⟩
    exact ⟨v.position, trivial, _, hw, hseen, v.sighash, trivial, _, rfl, by simp [hsighash], v.bytes,
      trivial, [], by simp, rfl, rfl, hs⟩

end fields

/-! ## Inputs and outputs -/

section bodies
variable {σ ε : Type} (sink : DecodeSink σ ε)

/-- By induction on the count: the signatures read are handed on in order, each with a new position. -/
theorem reads_readSignatures (index count slot : Nat) (seen : List UInt8) :
    Reads (readSignatures sink index count slot seen) fun s w _ s' =>
      ∃ vs : List Signature, vs.length = count ∧ (vs.map (·.position)).Nodup ∧
        (∀ v ∈ vs, v.position ∉ seen) ∧ (∀ v ∈ vs, validSighash v.sighash = true) ∧
        w = vs.flatMap signatureBytes ∧ replaySignatures sink index slot vs s = .ok s' := by
  induction count generalizing slot seen with
  | zero =>
    refine (reads_pure ()).congr fun s w u s' => ?_
    constructor
    · intro ⟨hw, _, hs⟩
      exact ⟨[], rfl, by simp, by simp, by simp, hw, by rw [hs]; rfl⟩
    · intro ⟨vs, hlen, _, _, _, hw, hs⟩
      rw [List.length_eq_zero_iff] at hlen
      subst hlen
      exact ⟨hw, rfl, (Except.ok.inj hs).symm⟩
  | succ count ih =>
    refine ((decodes_readSignature seen).bind fun v => reads_bind reads_toSink fun _ =>
      ih (slot + 1) (v.position :: seen)).congr fun s w u s' => ?_
    constructor
    · intro ⟨v, ⟨hseen, hsighash⟩, w', hw, _, s₁, w₁, w₂, hw', ⟨hw₁, hv⟩, vs, hlen, hnodup, hnew, hval,
        hw₂, hreplay⟩
      refine ⟨v :: vs, by simp [hlen], ?_, ?_, ?_, by simp [hw, hw', hw₁, hw₂],
        bind_eq_ok.mpr ⟨s₁, hv, hreplay⟩⟩
      · rw [List.map_cons, List.nodup_cons]
        refine ⟨fun hmem => ?_, hnodup⟩
        obtain ⟨u, hu, hpos⟩ := List.mem_map.mp hmem
        exact hnew u hu (by simp [hpos])
      · intro u hu
        obtain rfl | hu := List.mem_cons.mp hu
        · exact hseen
        · exact fun hc => hnew u hu (List.mem_cons_of_mem _ hc)
      · intro u hu
        obtain rfl | hu := List.mem_cons.mp hu
        · exact hsighash
        · exact hval u hu
    · intro ⟨vs, hlen, hnodup, hnew, hval, hw, hreplay⟩
      cases vs with
      | nil => simp at hlen
      | cons v vs =>
        rw [List.map_cons, List.nodup_cons] at hnodup
        obtain ⟨s₁, hv, hreplay⟩ := bind_eq_ok.mp hreplay
        refine ⟨v, ⟨hnew v (by simp), hval v (by simp)⟩, vs.flatMap signatureBytes,
          by rw [hw, List.flatMap_cons], (), s₁, [], _, rfl, ⟨rfl, hv⟩, vs, by simpa using hlen, hnodup.2, ?_, fun u hu => hval u (by simp [hu]), rfl,
          hreplay⟩
        intro u hu hmem
        obtain hpos | hmem := List.mem_cons.mp hmem
        · exact hnodup.1 (List.mem_map.mpr ⟨u, hu, hpos⟩)
        · exact hnew u (by simp [hu]) hmem

/-- A redeem script within the limit is handed on. -/
theorem reads_readRedeem (index : Nat) :
    Reads (readRedeem sink index) fun s w _ s' => ∃ redeem : Bytes,
      redeem.length ≤ MAX_REDEEM_SIZE ∧ w = redeemFieldBytes redeem ∧
        sink.redeem index redeem s = .ok s' := by
  refine (decodes_readU16.bind fun _ => reads_rejectWire_bind (decodes_readBytes.bind fun _ =>
    reads_toSink)).congr fun s w u s' => ?_
  constructor
  · intro ⟨len, _, w₁, hw, hlen, redeem, hredeem, w₂, hw₁, hw₂, hs⟩
    refine ⟨redeem, by omega, ?_, hs⟩
    rw [hw, hw₁, hw₂, redeemFieldBytes, hredeem, UInt16.ofNat_toNat, List.append_nil, id]
  · intro ⟨redeem, hlen, hw, hs⟩
    have hmax : MAX_REDEEM_SIZE = 1024 := rfl
    have hto : (UInt16.ofNat redeem.length).toNat = redeem.length := by
      rw [UInt16.toNat_ofNat', Nat.mod_eq_of_lt (by omega)]
    exact ⟨UInt16.ofNat redeem.length, trivial, _, hw, by omega, redeem, hto.symm, [], by simp, rfl, hs⟩

/-- An input record is read and handed on exactly in its own bytes. -/
theorem reads_readInput (index : Nat) :
    Reads (readInput sink index) fun s w _ s' => ∃ i : WireInput,
      i.Valid ∧ w = i.bytes ∧ replayInput sink index i s = .ok s' := by
  refine (decodes_readInputValue.bind fun _ => decodes_readSignatureCount.bind fun count =>
    reads_bind reads_toSink fun _ => reads_bind (reads_readSignatures sink index count.toNat 0 [])
      fun _ => reads_readRedeem sink index).congr fun s w u s' => ?_
  constructor
  · intro ⟨v, ⟨hops, hscript⟩, w₁, hw, count, hcount, w₂, hw₁, _, s₁, w₃, w₄, hw₂, ⟨hw₃, hinput⟩, _,
      s₂, w₅, w₆, hw₄, ⟨vs, hlen, hnodup, _, hval, hw₅, hreplay⟩, redeem, hredeem, hw₆, hs⟩
    have hto : UInt8.ofNat vs.length = count := by rw [hlen, UInt8.ofNat_toNat]
    refine ⟨⟨v, vs, redeem⟩, ⟨hops, hscript, by simp only [hlen]; exact hcount, hnodup, hval, hredeem⟩,
      ?_, ?_⟩
    · rw [hw, hw₁, hw₂, hw₃, hw₄, hw₅, hw₆, WireInput.bytes, hto, List.nil_append]
    · refine bind_eq_ok.mpr ⟨s₁, ?_, bind_eq_ok.mpr ⟨s₂, hreplay, hs⟩⟩
      simp only [hto]
      exact hinput
  · intro ⟨i, hv, hw, hreplay⟩
    have hmax : MAX_SIGNATURE_RECORDS = 5 := rfl
    have hsigs := hv.signatures
    have hto : (UInt8.ofNat i.signatures.length).toNat = i.signatures.length := by
      rw [UInt8.toNat_ofNat', Nat.mod_eq_of_lt (by omega)]
    obtain ⟨s₁, hinput, hreplay⟩ := bind_eq_ok.mp hreplay
    obtain ⟨s₂, hreplay, hs⟩ := bind_eq_ok.mp hreplay
    exact ⟨i.value, ⟨hv.sigOps, hv.script⟩, _, hw, UInt8.ofNat i.signatures.length, by omega, _, rfl, (),
      s₁, [], _, rfl, ⟨rfl, hinput⟩, (), s₂, _, _, rfl, ⟨i.signatures, hto.symm, hv.positions, by simp,
        hv.sighashes, rfl, hreplay⟩, i.redeem, hv.redeem, rfl, hs⟩

/-- By induction on the count. -/
theorem reads_readInputs (count index : Nat) :
    Reads (readInputs sink count index) fun s w _ s' => ∃ is : List WireInput,
      is.length = count ∧ (∀ i ∈ is, i.Valid) ∧ w = is.flatMap WireInput.bytes ∧
        replayInputs sink index is s = .ok s' := by
  induction count generalizing index with
  | zero =>
    refine (reads_pure ()).congr fun s w u s' => ?_
    constructor
    · intro ⟨hw, _, hs⟩
      exact ⟨[], rfl, by simp, hw, by rw [hs]; rfl⟩
    · intro ⟨is, hlen, _, hw, hs⟩
      rw [List.length_eq_zero_iff] at hlen
      subst hlen
      exact ⟨hw, rfl, (Except.ok.inj hs).symm⟩
  | succ count ih =>
    refine (reads_bind (reads_readInput sink index) fun _ => ih (index + 1)).congr
      fun s w u s' => ?_
    constructor
    · intro ⟨_, s₁, w₁, w₂, hw, ⟨i, hv, hw₁, hi⟩, is, hlen, hval, hw₂, hreplay⟩
      exact ⟨i :: is, by simp [hlen], List.forall_mem_cons.mpr ⟨hv, hval⟩, by simp [hw, hw₁, hw₂],
        bind_eq_ok.mpr ⟨s₁, hi, hreplay⟩⟩
    · intro ⟨is, hlen, hval, hw, hreplay⟩
      cases is with
      | nil => simp at hlen
      | cons i is =>
        obtain ⟨hv, hval⟩ := List.forall_mem_cons.mp hval
        obtain ⟨s₁, hi, hreplay⟩ := bind_eq_ok.mp hreplay
        exact ⟨(), s₁, _, _, by rw [hw, List.flatMap_cons], ⟨i, hv, rfl, hi⟩, is, by simpa using hlen, hval,
          rfl, hreplay⟩

/-- By induction on the count; outputs have one record each. -/
theorem reads_readOutputs (count index : Nat) :
    Reads (readOutputs sink count index) fun s w _ s' => ∃ os : List Output,
      os.length = count ∧ (∀ o ∈ os, o.script.length ≤ MAX_SCRIPT_SIZE) ∧
        w = os.flatMap outputBytes ∧ replayOutputs sink index os s = .ok s' := by
  induction count generalizing index with
  | zero =>
    refine (reads_pure ()).congr fun s w u s' => ?_
    constructor
    · intro ⟨hw, _, hs⟩
      exact ⟨[], rfl, by simp, hw, by rw [hs]; rfl⟩
    · intro ⟨os, hlen, _, hw, hs⟩
      rw [List.length_eq_zero_iff] at hlen
      subst hlen
      exact ⟨hw, rfl, (Except.ok.inj hs).symm⟩
  | succ count ih =>
    refine (decodes_readU64.bind fun _ => decodes_readU16.bind fun _ => decodes_readScript.bind
      fun _ => reads_bind reads_toSink fun _ => ih (index + 1)).congr fun s w u s' => ?_
    constructor
    · intro ⟨amount, _, w₁, hw, version, _, w₂, hw₁, script, hscript, w₃, hw₂, _, s₁, w₄, w₅, hw₃,
        ⟨hw₄, ho⟩, os, hlen, hval, hw₅, hreplay⟩
      refine ⟨⟨amount, version, script⟩ :: os, by simp [hlen], List.forall_mem_cons.mpr ⟨hscript, hval⟩,
        by simp [hw, hw₁, hw₂, hw₃, hw₄, hw₅, outputBytes], bind_eq_ok.mpr ⟨s₁, ho, hreplay⟩⟩
    · intro ⟨os, hlen, hval, hw, hreplay⟩
      cases os with
      | nil => simp at hlen
      | cons o os =>
        obtain ⟨hv, hval⟩ := List.forall_mem_cons.mp hval
        obtain ⟨s₁, ho, hreplay⟩ := bind_eq_ok.mp hreplay
        refine ⟨o.amount, trivial, _, by rw [hw, List.flatMap_cons, outputBytes, List.append_assoc],
          o.scriptVersion, trivial, _, by rw [List.append_assoc], o.script, hv, os.flatMap outputBytes,
          rfl, (), s₁, [], _, rfl, ⟨rfl, ho⟩, os, by simpa using hlen, hval, rfl, hreplay⟩

end bodies

/-! ## Trailers -/

namespace TrailerState

/-- What the order checks ask of the next trailer. -/
def Admits (state : TrailerState) (t : Trailer) : Prop :=
  (t.rank ≠ 0 → state.network = true) ∧ state.lastRank ≤ t.rank ∧
    match t.kind with
    | none => if t.rank = 0 then state.network = false else state.stealth = false
    | some kind => ¬ notIncreasing state kind t.position ∧
        (state.marks kind).seen t.position = false

/-- The state the trailer leaves. -/
def after (state : TrailerState) (t : Trailer) : TrailerState :=
  let state := { state with lastRank := t.rank }
  match t.kind with
  | none => if t.rank = 0 then { state with network := true } else { state with stealth := true }
  | some kind => state.mark kind t.position

end TrailerState

section trailers
variable {σ ε : Type} (sink : DecodeSink σ ε)

theorem decodes_readDerivationBody :
    Decodes (readDerivationBody (σ := σ) (ε := ε)) (fun v => u8Bytes v.branch ++ u32Bytes v.index)
      fun v => validDerivation v = true := by
  refine (decodes_readU8.bind fun branch => decodes_readU32.bind fun index => reads_rejectWire_bind
    (reads_pure (Derivation.mk branch index))).congr fun s w v s' => ?_
  constructor
  · intro ⟨branch, _, w₁, hw, index, _, w₂, hw₁, hvalid, hw₂, hv, hs⟩
    subst hv
    exact ⟨by simpa using hvalid, by simp [hw, hw₁, hw₂], hs⟩
  · intro ⟨hvalid, hw, hs⟩
    exact ⟨v.branch, trivial, _, hw, v.index, trivial, [], by simp, by simp [hvalid], rfl, rfl, hs⟩

theorem decodes_readMs45Body :
    Decodes (readMs45Body (σ := σ) (ε := ε))
      (fun v => u32Bytes v.cosigner ++ (u32Bytes v.chain ++ u32Bytes v.index))
      fun v => validMs45 v = true := by
  refine (decodes_readU32.bind fun cosigner => decodes_readU32.bind fun chain =>
    decodes_readU32.bind fun index => reads_rejectWire_bind
      (reads_pure (Ms45Derivation.mk cosigner chain index))).congr fun s w v s' => ?_
  constructor
  · intro ⟨cosigner, _, w₁, hw, chain, _, w₂, hw₁, index, _, w₃, hw₂, hvalid, hw₃, hv, hs⟩
    subst hv
    exact ⟨by simpa using hvalid, by simp [hw, hw₁, hw₂, hw₃], hs⟩
  · intro ⟨hvalid, hw, hs⟩
    exact ⟨v.cosigner, trivial, _, hw, v.chain, trivial, _, rfl, v.index, trivial, [], by simp,
      by simp [hvalid], rfl, rfl, hs⟩

theorem decodes_readExecutionBody :
    Decodes (readExecutionBody (σ := σ) (ε := ε))
      (fun v => u16Bytes v.suppliedMask ++ u16Bytes v.suppliedTrueMask)
      fun v => validCovenantExecution v = true := by
  refine (decodes_readU16.bind fun mask => decodes_readU16.bind fun truth => reads_rejectWire_bind
    (reads_pure (CovenantExecution.mk mask truth))).congr fun s w v s' => ?_
  constructor
  · intro ⟨mask, _, w₁, hw, truth, _, w₂, hw₁, hvalid, hw₂, hv, hs⟩
    subst hv
    exact ⟨by simpa using hvalid, by simp [hw, hw₁, hw₂], hs⟩
  · intro ⟨hvalid, hw, hs⟩
    exact ⟨v.suppliedMask, trivial, _, hw, v.suppliedTrueMask, trivial, [], by simp, by simp [hvalid],
      rfl, rfl, hs⟩

/-- The trailers that name a position, for any body. -/
theorem reads_readIndexed {α : Type} (kind : IndexedTrailer) (count : Nat) (body : WireParser σ ε α)
    (enc : α → Bytes) (valid : α → Prop) (hbody : Decodes body enc valid)
    (hand : UInt8 → α → σ → Except ε σ) (state : TrailerState) :
    Reads (readIndexed kind count body hand state) fun s w state' s' => ∃ position value,
      (¬ notIncreasing state kind position ∧ (state.marks kind).seen position = false) ∧
        (position.toNat < count ∧ valid value) ∧ w = u8Bytes position ++ enc value ∧
        hand position value s = .ok s' ∧ state' = state.mark kind position := by
  refine (decodes_readU8.bind fun _ => reads_rejectWire_bind (reads_rejectWire_bind (hbody.bind fun _ =>
    reads_bind reads_toSink fun _ => reads_pure _))).congr fun s w state' s' => ?_
  constructor
  · intro ⟨position, _, w₁, hw, hinc, hrange, value, hvalid, w₂, hw₁, _, s₁, w₃, w₄, hw₂, ⟨hw₃, hs₁⟩,
      hw₄, hstate, hs⟩
    obtain ⟨hrange, hseen⟩ := not_or.mp hrange
    refine ⟨position, value, ⟨hinc, by simpa using hseen⟩, ⟨by omega, hvalid⟩, ?_, by rw [hs]; exact hs₁,
      hstate⟩
    simp [hw, hw₁, hw₂, hw₃, hw₄]
  · intro ⟨position, value, ⟨hinc, hseen⟩, ⟨hrange, hvalid⟩, hw, hs, hstate⟩
    exact ⟨position, trivial, _, hw, hinc, by simp [hseen]; omega, value, hvalid, [], by simp, (), s', [],
      [], rfl, ⟨rfl, hs⟩, rfl, hstate, rfl⟩

/-- The position and the authorising input must both be in range. -/
theorem reads_readCovenant (inputs outputs : Nat) (state : TrailerState) :
    Reads (readCovenant sink inputs outputs state) fun s w state' s' => ∃ position value,
      (¬ notIncreasing state .covenant position ∧ (state.marks .covenant).seen position = false) ∧
        (position.toNat < outputs ∧ value.authorizingInput.toNat < inputs) ∧
        w = u8Bytes position ++ (u16Bytes value.authorizingInput ++ value.id.val) ∧
        sink.covenant position value s = .ok s' ∧ state' = state.mark .covenant position := by
  refine (decodes_readU8.bind fun _ => reads_rejectWire_bind (decodes_readU16.bind fun _ =>
    reads_rejectWire_bind (decodes_readArray.bind fun _ => reads_bind reads_toSink fun _ =>
      reads_pure _))).congr fun s w state' s' => ?_
  constructor
  · intro ⟨position, _, w₁, hw, hinc, authorizing, _, w₂, hw₁, hrange, id, _, w₃, hw₂, _, s₁, w₄, w₅,
      hw₃, ⟨hw₄, hs₁⟩, hw₅, hstate, hs⟩
    obtain ⟨hout, hrange⟩ := not_or.mp hrange
    obtain ⟨hin, hseen⟩ := not_or.mp hrange
    refine ⟨position, ⟨authorizing, id⟩, ⟨hinc, by simpa using hseen⟩, ⟨by omega, Nat.lt_of_not_le hin⟩, ?_,
      by rw [hs]; exact hs₁, hstate⟩
    simp [hw, hw₁, hw₂, hw₃, hw₄, hw₅]
  · intro ⟨position, value, ⟨hinc, hseen⟩, ⟨hout, hin⟩, hw, hs, hstate⟩
    exact ⟨position, trivial, _, hw, hinc, value.authorizingInput, trivial, _, rfl,
      by simp [hseen]; omega, value.id, trivial, [], by simp, (), s', [], [], rfl, ⟨rfl, hs⟩, rfl, hstate,
      rfl⟩

/-- The network is named once. -/
theorem reads_readNetwork (state : TrailerState) :
    Reads (readNetwork sink state) fun s w state' s' => ∃ code,
      state.network = false ∧ validNetwork code = true ∧ w = u8Bytes code ∧
        sink.network code s = .ok s' ∧ state' = { state with network := true } := by
  refine (decodes_readU8.bind fun _ => reads_rejectWire_bind (reads_bind reads_toSink fun _ =>
    reads_pure _)).congr fun s w state' s' => ?_
  constructor
  · intro ⟨code, _, w₁, hw, hbad, _, s₁, w₂, w₃, hw₁, ⟨hw₂, hs₁⟩, hw₃, hstate, hs⟩
    obtain ⟨hnet, hvalid⟩ := not_or.mp hbad
    refine ⟨code, by simpa using hnet, by simpa using hvalid, ?_, by rw [hs]; exact hs₁, hstate⟩
    simp [hw, hw₁, hw₂, hw₃]
  · intro ⟨code, hnet, hvalid, hw, hs, hstate⟩
    exact ⟨code, trivial, [], by simp [hw], by simp [hnet, hvalid], (), s', [], [], rfl, ⟨rfl, hs⟩, rfl,
      hstate, rfl⟩

/-- The tweak is given at most once. -/
theorem reads_readStealth (state : TrailerState) :
    Reads (readStealth sink state) fun s w state' s' => ∃ tweak : FixedBytes 32,
      state.stealth = false ∧ w = tweak.val ∧ sink.stealth tweak s = .ok s' ∧
        state' = { state with stealth := true } := by
  refine (reads_rejectWire_bind (decodes_readArray.bind fun _ => reads_bind reads_toSink fun _ =>
    reads_pure _)).congr fun s w state' s' => ?_
  constructor
  · intro ⟨hst, tweak, _, w₁, hw, _, s₁, w₂, w₃, hw₁, ⟨hw₂, hs₁⟩, hw₃, hstate, hs⟩
    refine ⟨tweak, by simpa using hst, ?_, by rw [hs]; exact hs₁, hstate⟩
    simp [hw, hw₁, hw₂, hw₃]
  · intro ⟨tweak, hst, hw, hs, hstate⟩
    exact ⟨by simp [hst], tweak, trivial, [], by simp [hw], (), s', [], [], rfl, ⟨rfl, hs⟩, rfl, hstate,
      rfl⟩

/-- A marker must not come before one of the last kind, and the network comes first. -/
theorem requireCanonicalMarkerOrder_eq_ok {marker rank : UInt8} (hrank : markerRank marker = some rank)
    {state state' : TrailerState} :
    requireCanonicalMarkerOrder marker state = .ok state' ↔
      ((marker ≠ NETWORK_MARKER → state.network = true) ∧ state.lastRank ≤ rank) ∧
        state' = { state with lastRank := rank } := by
  simp only [requireCanonicalMarkerOrder, hrank, okOr, bind_eq_ok, rejectIf_eq_ok]
  constructor
  · intro ⟨r, hr, _, hnet, _, hle, hstate⟩
    cases hr
    refine ⟨⟨fun hne => ?_, UInt8.not_lt.mp hle⟩, (Except.ok.inj hstate).symm⟩
    by_contra hc
    exact hnet ⟨by simpa using hc, hne⟩
  · intro ⟨⟨hnet, hle⟩, hstate⟩
    refine ⟨rank, rfl, (), fun ⟨hfalse, hne⟩ => ?_, (), UInt8.not_lt.mpr hle, by rw [hstate]; rfl⟩
    rw [hnet hne] at hfalse
    cases hfalse

/-- A trailer in its turn, then its body. -/
theorem reads_ordered (inputs outputs : Nat) (state : TrailerState) (marker rank : UInt8)
    (hrank : markerRank marker = some rank) {body : WireParser σ ε TrailerState}
    (hbody : readTrailerBody sink inputs outputs marker { state with lastRank := rank } = body)
    {Q : σ → Bytes → TrailerState → σ → Prop} (hread : Reads body Q) :
    Reads (readTrailer sink inputs outputs marker state) fun s w state' s' =>
      ((marker ≠ NETWORK_MARKER → state.network = true) ∧ state.lastRank ≤ rank) ∧
        Q s w state' s' := by
  intro bs s state' rest s'
  unfold readTrailer
  cases h : requireCanonicalMarkerOrder marker state with
  | error e =>
    refine ⟨nofun, fun ⟨_, _, hord, _⟩ => ?_⟩
    have := (requireCanonicalMarkerOrder_eq_ok hrank).mpr ⟨hord, rfl⟩
    rw [h] at this
    cases this
  | ok st =>
    obtain ⟨hord, hst⟩ := (requireCanonicalMarkerOrder_eq_ok hrank).mp h
    simp only [hst, hbody]
    rw [hread bs s state' rest s']
    exact ⟨fun ⟨w, hw, hQ⟩ => ⟨w, hw, hord, hQ⟩, fun ⟨w, hw, _, hQ⟩ => ⟨w, hw, hQ⟩⟩

/-- What the readers of the eight kinds have in common. -/
abbrev TrailerReads (inputs outputs : Nat) (marker : UInt8) (state : TrailerState) : Prop :=
  Reads (readTrailer sink inputs outputs marker state) fun s w state' s' => ∃ t : Trailer,
    t.marker = marker ∧ state.Admits t ∧ t.Valid inputs outputs ∧ w = t.body ∧
      t.hand sink s = .ok s' ∧ state' = state.after t

/-- Each of the eight markers is read by its own rule, and all in the same form. -/
theorem reads_network (inputs outputs : Nat) (state : TrailerState) :
    TrailerReads sink inputs outputs NETWORK_MARKER state := by
  refine (reads_ordered sink inputs outputs state NETWORK_MARKER 0 rfl rfl
    (reads_readNetwork sink _)).congr fun s w state' s' => ?_
  constructor
  · intro ⟨⟨_, hle⟩, code, hnet, hvalid, hw, hs, hstate⟩
    exact ⟨.network code, rfl, ⟨fun h => absurd rfl h, hle, hnet⟩, hvalid, hw, hs, hstate⟩
  · intro ⟨t, hm, ⟨_, hle, hadm⟩, hvalid, hw, hs, hstate⟩
    cases t with
    | network code => exact ⟨⟨fun h => absurd rfl h, hle⟩, code, hadm, hvalid, hw, hs, hstate⟩
    | _ => cases hm

theorem reads_stealth (inputs outputs : Nat) (state : TrailerState) :
    TrailerReads sink inputs outputs STEALTH_MARKER state := by
  refine (reads_ordered sink inputs outputs state STEALTH_MARKER 3 rfl rfl
    (reads_readStealth sink _)).congr fun s w state' s' => ?_
  constructor
  · intro ⟨⟨hnet, hle⟩, tweak, hst, hw, hs, hstate⟩
    exact ⟨.stealth tweak, rfl, ⟨fun _ => hnet (by decide), hle, hst⟩, trivial, hw, hs, hstate⟩
  · intro ⟨t, hm, ⟨hnet, hle, hadm⟩, _, hw, hs, hstate⟩
    cases t with
    | stealth tweak => exact ⟨⟨fun _ => hnet (by simp [Trailer.rank]), hle⟩, tweak, hadm, hw, hs, hstate⟩
    | _ => cases hm

/-- The kinds that name a position: `make` is the kind's constructor. -/
theorem reads_indexed {α : Type} (make : UInt8 → α → Trailer) (kind : IndexedTrailer)
    (inputs outputs : Nat) (state : TrailerState) (marker rank : UInt8)
    (hrank : markerRank marker = some rank) (hfirst : marker ≠ NETWORK_MARKER ∧ rank ≠ 0)
    (hmake : ∀ t : Trailer, t.marker = marker ↔ ∃ position value, t = make position value)
    (hparts : ∀ position value, (make position value).rank = rank ∧
      (make position value).kind = some kind ∧ (make position value).position = position)
    {body : WireParser σ ε TrailerState}
    (hbody : readTrailerBody sink inputs outputs marker { state with lastRank := rank } = body)
    (hread : Reads body fun s w state' s' => ∃ position value,
      (¬ notIncreasing { state with lastRank := rank } kind position ∧
        (state.marks kind).seen position = false) ∧
      (make position value).Valid inputs outputs ∧ w = (make position value).body ∧
      (make position value).hand sink s = .ok s' ∧
      state' = TrailerState.mark { state with lastRank := rank } kind position) :
    TrailerReads sink inputs outputs marker state := by
  refine (reads_ordered sink inputs outputs state marker rank hrank hbody hread).congr
    fun s w state' s' => ?_
  constructor
  · intro ⟨⟨hnet, hle⟩, position, value, hadm, hvalid, hw, hs, hstate⟩
    obtain ⟨hr, hk, hp⟩ := hparts position value
    refine ⟨make position value, (hmake _).mpr ⟨position, value, rfl⟩, ⟨fun _ => hnet hfirst.1, ?_, ?_⟩,
      hvalid, hw, hs, ?_⟩
    · rw [hr]
      exact hle
    · rw [hk, hp]
      exact hadm
    · simp only [TrailerState.after, hk, hr, hp]
      exact hstate
  · intro ⟨t, hm, ⟨hnet, hle, hadm⟩, hvalid, hw, hs, hstate⟩
    obtain ⟨position, value, rfl⟩ := (hmake t).mp hm
    obtain ⟨hr, hk, hp⟩ := hparts position value
    rw [hk, hp] at hadm
    rw [hr] at hle hnet
    refine ⟨⟨fun _ => hnet hfirst.2, hle⟩, position, value, hadm, hvalid, hw, hs, ?_⟩
    simp only [TrailerState.after, hk, hr, hp] at hstate
    exact hstate

theorem reads_inputMs45 (inputs outputs : Nat) (state : TrailerState) :
    TrailerReads sink inputs outputs MS45_INPUT_MARKER state := by
  refine reads_indexed sink .inputMs45 .inputMs45 inputs outputs state MS45_INPUT_MARKER 1 rfl
    (by decide) (fun t => ?_) (fun _ _ => ⟨rfl, rfl, rfl⟩) rfl
    (reads_readIndexed _ _ _ _ _ decodes_readMs45Body _ _)
  cases t <;> simp [Trailer.marker] <;> decide

theorem reads_outputMs45 (inputs outputs : Nat) (state : TrailerState) :
    TrailerReads sink inputs outputs MS45_OUTPUT_MARKER state := by
  refine reads_indexed sink .outputMs45 .outputMs45 inputs outputs state MS45_OUTPUT_MARKER 2 rfl
    (by decide) (fun t => ?_) (fun _ _ => ⟨rfl, rfl, rfl⟩) rfl
    (reads_readIndexed _ _ _ _ _ decodes_readMs45Body _ _)
  cases t <;> simp [Trailer.marker] <;> decide

theorem reads_covenant (inputs outputs : Nat) (state : TrailerState) :
    TrailerReads sink inputs outputs COVENANT_MARKER state := by
  refine reads_indexed sink .covenant .covenant inputs outputs state COVENANT_MARKER 4 rfl
    (by decide) (fun t => ?_) (fun _ _ => ⟨rfl, rfl, rfl⟩) rfl (reads_readCovenant sink _ _ _)
  cases t <;> simp [Trailer.marker] <;> decide

theorem reads_covenantExecution (inputs outputs : Nat) (state : TrailerState) :
    TrailerReads sink inputs outputs COVENANT_EXECUTION_MARKER state := by
  refine reads_indexed sink .covenantExecution .covenantExecution inputs outputs state
    COVENANT_EXECUTION_MARKER 5 rfl (by decide) (fun t => ?_) (fun _ _ => ⟨rfl, rfl, rfl⟩) rfl
    (reads_readIndexed _ _ _ _ _ decodes_readExecutionBody _ _)
  cases t <;> simp [Trailer.marker] <;> decide

theorem reads_inputDerivation (inputs outputs : Nat) (state : TrailerState) :
    TrailerReads sink inputs outputs INPUT_DERIVATION_MARKER state := by
  refine reads_indexed sink .inputDerivation .inputDerivation inputs outputs state
    INPUT_DERIVATION_MARKER 6 rfl (by decide) (fun t => ?_) (fun _ _ => ⟨rfl, rfl, rfl⟩) rfl
    (reads_readIndexed _ _ _ _ _ decodes_readDerivationBody _ _)
  cases t <;> simp [Trailer.marker] <;> decide

theorem reads_outputDerivation (inputs outputs : Nat) (state : TrailerState) :
    TrailerReads sink inputs outputs OUTPUT_DERIVATION_MARKER state := by
  refine reads_indexed sink .outputDerivation .outputDerivation inputs outputs state
    OUTPUT_DERIVATION_MARKER 7 rfl (by decide) (fun t => ?_) (fun _ _ => ⟨rfl, rfl, rfl⟩) rfl
    (reads_readIndexed _ _ _ _ _ decodes_readDerivationBody _ _)
  cases t <;> simp [Trailer.marker] <;> decide

/-- A marker of no kind is refused before anything is read. -/
theorem readTrailer_unknown (inputs outputs : Nat) (marker : UInt8) (state : TrailerState)
    (hrank : markerRank marker = none) :
    readTrailer sink inputs outputs marker state = throw (.wire .trailingData) := by
  simp [readTrailer, requireCanonicalMarkerOrder, hrank, okOr, bind, Except.bind]

/-- The order of the kinds is that of their markers. -/
theorem markerRank_marker (t : Trailer) : markerRank t.marker = some t.rank := by
  cases t <;> rfl

/-- Whatever the marker, one trailer is read, checked against the state and handed on. -/
theorem reads_readTrailer (inputs outputs : Nat) (marker : UInt8) (state : TrailerState) :
    TrailerReads sink inputs outputs marker state := by
  by_cases hN : marker = NETWORK_MARKER
  · exact hN ▸ reads_network sink inputs outputs state
  by_cases hI : marker = MS45_INPUT_MARKER
  · exact hI ▸ reads_inputMs45 sink inputs outputs state
  by_cases hO : marker = MS45_OUTPUT_MARKER
  · exact hO ▸ reads_outputMs45 sink inputs outputs state
  by_cases hS : marker = STEALTH_MARKER
  · exact hS ▸ reads_stealth sink inputs outputs state
  by_cases hC : marker = COVENANT_MARKER
  · exact hC ▸ reads_covenant sink inputs outputs state
  by_cases hE : marker = COVENANT_EXECUTION_MARKER
  · exact hE ▸ reads_covenantExecution sink inputs outputs state
  by_cases hA : marker = INPUT_DERIVATION_MARKER
  · exact hA ▸ reads_inputDerivation sink inputs outputs state
  by_cases hD : marker = OUTPUT_DERIVATION_MARKER
  · exact hD ▸ reads_outputDerivation sink inputs outputs state
  have hrank : markerRank marker = none := by
    simp only [markerRank, hN, hI, hO, hS, hC, hE, hA, hD, if_false]
  intro bs s state' rest s'
  rw [readTrailer_unknown sink inputs outputs marker state hrank]
  refine ⟨nofun, fun ⟨_, _, t, hm, _⟩ => ?_⟩
  have := markerRank_marker t
  rw [hm, hrank] at this
  cases this

/-- A marker with its trailer. -/
theorem reads_trailer (inputs outputs : Nat) (state : TrailerState) :
    Reads (readU8 >>= fun marker => readTrailer sink inputs outputs marker state)
      fun s w state' s' => ∃ t : Trailer, state.Admits t ∧ t.Valid inputs outputs ∧ w = t.bytes ∧
        t.hand sink s = .ok s' ∧ state' = state.after t := by
  refine (decodes_readU8.bind fun marker => reads_readTrailer sink inputs outputs marker state).congr
    fun s w state' s' => ?_
  constructor
  · intro ⟨marker, _, w', hw, t, hm, hadm, hvalid, hw', hs, hstate⟩
    exact ⟨t, hadm, hvalid, by rw [hw, hw', ← hm, Trailer.bytes], hs, hstate⟩
  · intro ⟨t, hadm, hvalid, hw, hs, hstate⟩
    exact ⟨t.marker, trivial, t.body, hw, t, rfl, hadm, hvalid, rfl, hs, hstate⟩

end trailers

/-! ## The order of the trailers -/

namespace TrailerState

/-- The state remembers of the trailers read so far what the order checks need. -/
structure Tracks (state : TrailerState) (done : List Trailer) : Prop where
  network : state.network = true ↔ ∃ u ∈ done, u.rank = 0
  stealth : state.stealth = true ↔ ∃ u ∈ done, u.rank = 3
  rank : ∀ r, state.lastRank ≤ r ↔ ∀ u ∈ done, u.rank ≤ r
  last : ∀ kind p, notIncreasing state kind p ↔ ∃ u ∈ done, u.kind = some kind ∧ p ≤ u.position
  seen : ∀ kind p, (state.marks kind).seen p = true ↔
    ∃ u ∈ done, u.kind = some kind ∧ u.position = p

/-- Before the first trailer the state has seen none. -/
theorem tracks_new : Tracks new [] where
  network := by simp [new]
  stealth := by simp [new]
  rank := by simp [new]
  last := by simp [new, notIncreasing]
  seen := by simp [new]

end TrailerState

/-- Only the network and the tweak have no position. -/
theorem Trailer.kind_none {t : Trailer} (h : t.kind = none) :
    t.rank = 0 ∧ t.position = 0 ∨ t.rank = 3 ∧ t.position = 0 := by
  cases t <;> simp_all [Trailer.kind, Trailer.rank, Trailer.position]

theorem Trailer.rank_zero_or_three {t : Trailer} (h : t.rank = 0 ∨ t.rank = 3) : t.kind = none := by
  cases t <;> simp_all [Trailer.kind, Trailer.rank]

/-- A kind has its own rank. -/
theorem Trailer.rank_eq_iff {t u : Trailer} {kind : IndexedTrailer} (h : t.kind = some kind) :
    u.rank = t.rank ↔ u.kind = some kind := by
  cases t <;> cases h <;> cases u <;> simp [Trailer.rank, Trailer.kind]

/-- Trailers are ordered by kind, then by position. -/
theorem Trailer.key_lt_iff {t u : Trailer} :
    u.key < t.key ↔ u.rank < t.rank ∨ u.rank = t.rank ∧ u.position < t.position := by
  have hu := u.position.toNat_lt
  have ht := t.position.toNat_lt
  rw [UInt8.lt_iff_toNat_lt, UInt8.lt_iff_toNat_lt, ← UInt8.toNat_inj]
  unfold Trailer.key
  omega

namespace TrailerState

/-- After the first trailer of a canonical row the network has been named. -/
theorem Tracks.network_iff {state : TrailerState} {done : List Trailer} (h : state.Tracks done)
    (hdone : Canonical done) : state.network = true ↔ done ≠ [] := by
  rw [h.network]
  cases done with
  | nil => simp
  | cons u us => exact ⟨fun _ => List.cons_ne_nil _ _, fun _ => ⟨u, by simp, hdone.2 u rfl⟩⟩

/-- The order checks pass exactly for a trailer that continues the canonical order. -/
theorem admits_iff {state : TrailerState} {done : List Trailer} (h : state.Tracks done)
    (hdone : Canonical done) (t : Trailer) :
    state.Admits t ↔ (∀ u ∈ done, u.key < t.key) ∧ (done = [] → t.rank = 0) := by
  have hnet := h.network_iff hdone
  simp only [Admits, h.rank, hnet, Trailer.key_lt_iff]
  cases hk : t.kind with
  | none =>
    obtain ⟨hrank, hpos⟩ | ⟨hrank, hpos⟩ := Trailer.kind_none hk
    · -- The network trailer: only when nothing has been read.
      have hfalse : state.network = false ↔ done = [] := by
        rw [← Bool.not_eq_true, hnet, not_not]
      simp only [hrank, if_true, hfalse]
      constructor
      · intro ⟨_, _, hnil⟩
        simp [hnil]
      · intro ⟨hlt, _⟩
        have hnil : done = [] := by
          apply List.eq_nil_iff_forall_not_mem.mpr
          intro u hu
          obtain hlt | ⟨_, hlt⟩ := hlt u hu
          · exact UInt8.not_lt_zero hlt
          · exact UInt8.not_lt_zero (hpos ▸ hlt)
        simp [hnil]
    -- The stealth trailer: behind any other, and once.
    · have hst : state.stealth = false ↔ ∀ u ∈ done, u.rank ≠ 3 := by
        rw [← Bool.not_eq_true, h.stealth]
        simp
      have h3 : (3 : UInt8) ≠ 0 := by decide
      simp only [hrank, hst, hpos, h3, if_false]
      constructor
      · intro ⟨hne, hle, hst⟩
        exact ⟨fun u hu => .inl (UInt8.lt_of_le_of_ne (hle u hu) (hst u hu)),
          fun hnil => absurd hnil (hne h3)⟩
      · intro ⟨hlt, hne⟩
        have hlt : ∀ u ∈ done, u.rank < 3 := fun u hu =>
          (hlt u hu).elim id fun hp => absurd hp.2 UInt8.not_lt_zero
        exact ⟨fun _ hnil => hne hnil, fun u hu => UInt8.le_of_lt (hlt u hu),
          fun u hu => UInt8.ne_of_lt (hlt u hu)⟩
  | some kind =>
    have h0 : t.rank ≠ 0 := fun hc => by simp [Trailer.rank_zero_or_three (.inl hc)] at hk
    -- A trailer of some position: positions of one kind increase, so none comes back.
    have hseen : (state.marks kind).seen t.position = false ↔
        ∀ u ∈ done, u.kind = some kind → u.position ≠ t.position := by
      rw [← Bool.not_eq_true, h.seen]
      simp
    simp only [h.last, hseen]
    constructor
    · intro ⟨hne, hle, hinc, _⟩
      refine ⟨fun u hu => ?_, fun hnil => absurd hnil (hne h0)⟩
      by_cases heq : u.rank = t.rank
      · have hukind := (Trailer.rank_eq_iff hk).mp heq
        exact .inr ⟨heq, UInt8.not_le.mp fun hc => hinc ⟨u, hu, hukind, hc⟩⟩
      · exact .inl (UInt8.lt_of_le_of_ne (hle u hu) heq)
    · intro ⟨hlt, hne⟩
      have hpos : ∀ u ∈ done, u.kind = some kind → u.position < t.position := by
        intro u hu hukind
        have heq := (Trailer.rank_eq_iff hk).mpr hukind
        obtain hr | ⟨_, hp⟩ := hlt u hu
        · exact absurd heq (UInt8.ne_of_lt hr)
        · exact hp
      refine ⟨fun _ hnil => h0 (hne hnil), fun u hu => ?_, ?_, fun u hu hukind =>
        UInt8.ne_of_lt (hpos u hu hukind)⟩
      · obtain hr | ⟨hr, _⟩ := hlt u hu
        · exact UInt8.le_of_lt hr
        · exact UInt8.le_of_eq hr
      · intro ⟨u, hu, hukind, hle⟩
        exact UInt8.not_lt.mpr hle (hpos u hu hukind)

/-- The state after a trailer tracks the row with the trailer behind it. -/
theorem tracks_after {state : TrailerState} {done : List Trailer} (h : state.Tracks done) {t : Trailer}
    (ht : ∀ u ∈ done, u.key < t.key) : (state.after t).Tracks (done ++ [t]) := by
  -- keys are ordered by rank first and by position among the trailers of one kind
  have hle : ∀ u ∈ done, u.rank ≤ t.rank := by
    intro u hu
    obtain hr | ⟨hr, _⟩ := Trailer.key_lt_iff.mp (ht u hu)
    · exact UInt8.le_of_lt hr
    · exact UInt8.le_of_eq hr
  have hlast : ∀ u ∈ done, u.kind = t.kind → t.kind ≠ none → u.position < t.position := by
    intro u hu hkind hne
    obtain ⟨kind, hk⟩ := Option.ne_none_iff_exists'.mp hne
    have heq := (Trailer.rank_eq_iff hk).mpr (hkind.trans hk)
    obtain hr | ⟨_, hp⟩ := Trailer.key_lt_iff.mp (ht u hu)
    · exact absurd heq (UInt8.ne_of_lt hr)
    · exact hp
  have hrank : (state.after t).lastRank = t.rank := by
    unfold after
    cases t.kind with
    | none => simp only; split <;> rfl
    | some kind => rfl
  -- a trailer without a position changes only its own flag, one with a position only the marks of
  -- its kind
  refine ⟨?_, ?_, fun r => ?_, fun kind p => ?_, fun kind p => ?_⟩
  · simp only [List.mem_append, List.mem_singleton, or_and_right, exists_or, exists_eq_left, ← h.network]
    cases hk : t.kind with
    | none => obtain ⟨hr, _⟩ | ⟨hr, _⟩ := Trailer.kind_none hk <;> simp [after, hk, hr]
    | some kind =>
      have h0 : t.rank ≠ 0 := fun hc => by simp [Trailer.rank_zero_or_three (.inl hc)] at hk
      simp [after, hk, mark, h0]
  · simp only [List.mem_append, List.mem_singleton, or_and_right, exists_or, exists_eq_left, ← h.stealth]
    cases hk : t.kind with
    | none => obtain ⟨hr, _⟩ | ⟨hr, _⟩ := Trailer.kind_none hk <;> simp [after, hk, hr]
    | some kind =>
      have h3 : t.rank ≠ 3 := fun hc => by simp [Trailer.rank_zero_or_three (.inr hc)] at hk
      simp [after, hk, mark, h3]
  · rw [hrank]
    constructor
    · intro hr u hu
      obtain hu | hu := List.mem_append.mp hu
      · exact UInt8.le_trans (hle u hu) hr
      · rw [List.mem_singleton.mp hu]
        exact hr
    · exact fun hall => hall t (by simp)
  · have hold := h.last kind p
    simp only [List.mem_append, List.mem_singleton, or_and_right, exists_or, exists_eq_left, ← hold]
    cases hk : t.kind with
    | none =>
      have : notIncreasing (state.after t) kind p ↔ notIncreasing state kind p := by
        simp only [after, hk, notIncreasing]
        split <;> rfl
      simp [this]
    | some k =>
      by_cases heq : kind = k
      · subst heq
        have hnew : notIncreasing (state.after t) kind p ↔ p ≤ t.position := by
          simp [after, hk, notIncreasing, mark]
        rw [hnew]
        constructor
        · exact fun hp => .inr ⟨rfl, hp⟩
        · intro hor
          obtain hp | ⟨_, hp⟩ := hor
          · obtain ⟨u, hu, hukind, hp⟩ := hold.mp hp
            exact UInt8.le_trans hp (UInt8.le_of_lt (hlast u hu (hukind.trans hk.symm) (by simp [hk])))
          · exact hp
      · have hnew : notIncreasing (state.after t) kind p ↔ notIncreasing state kind p := by
          simp [after, hk, notIncreasing, mark, heq]
        simp [hnew, Ne.symm heq]
  · simp only [List.mem_append, List.mem_singleton, or_and_right, exists_or, exists_eq_left,
      ← h.seen kind p]
    cases hk : t.kind with
    | none =>
      have : ((state.after t).marks kind).seen p = (state.marks kind).seen p := by
        simp only [after, hk]
        split <;> rfl
      simp [this]
    | some k =>
      by_cases heq : kind = k
      · subst heq
        have hnew : ((state.after t).marks kind).seen p = true ↔
            p = t.position ∨ (state.marks kind).seen p = true := by simp [after, hk, mark]
        rw [hnew, or_comm, eq_comm (a := p)]
        simp
      · simp [after, hk, mark, heq, Ne.symm heq]

end TrailerState

/-- A row stays canonical when the next trailer comes after all before it. -/
theorem canonical_snoc {done : List Trailer} {t : Trailer} (hdone : Canonical done) :
    Canonical (done ++ [t]) ↔ (∀ u ∈ done, u.key < t.key) ∧ (done = [] → t.rank = 0) := by
  cases done with
  | nil => simp [Canonical]
  | cons u us =>
    have hhead := hdone.2
    simp only [Canonical, List.pairwise_append, hdone.1, true_and]
    simp_all

/-- The front of a canonical row is canonical. -/
theorem Canonical.of_append {done rest : List Trailer} (h : Canonical (done ++ rest)) :
    Canonical done := by
  refine ⟨(List.pairwise_append.mp h.1).1, fun t ht => h.2 t ?_⟩
  cases done with
  | nil => cases ht
  | cons u us => exact ht

section loop
variable {σ ε : Type} (sink : DecodeSink σ ε) (inputs outputs : Nat)

theorem Trailer.bytes_ne_nil (t : Trailer) : t.bytes ≠ [] := by
  intro h
  have := congrArg List.length h
  simp [Trailer.bytes] at this

/-- A trailer is never empty, so that only the empty row is the empty string. -/
theorem trailers_eq_nil {ts : List Trailer} : ts.flatMap Trailer.bytes = [] ↔ ts = [] := by
  cases ts with
  | nil => simp
  | cons t ts => simp [Trailer.bytes_ne_nil]

/-- The loop at the end of the input, with any fuel. -/
theorem readTrailersLoop_nil (fuel : Nat) (state : TrailerState) (s : σ) :
    readTrailersLoop sink inputs outputs fuel state ([], s) = .ok (state, ([], s)) := by
  cases fuel <;> simp [readTrailersLoop]

/-- When no byte is left the loop ends, and what it has read is the empty row. -/
theorem readTrailersLoop_end (fuel : Nat) {state state' : TrailerState} {done : List Trailer}
    (hdone : Canonical done) {rest : Bytes} {s s' : σ} :
    readTrailersLoop sink inputs outputs fuel state ([], s) = .ok (state', (rest, s')) ↔
      rest = [] ∧ ∃ ts : List Trailer, [] = ts.flatMap Trailer.bytes ∧ Canonical (done ++ ts) ∧
        (∀ t ∈ ts, t.Valid inputs outputs) ∧ replayTrailers sink ts s = .ok s' ∧
        state' = ts.foldl TrailerState.after state := by
  rw [readTrailersLoop_nil]
  constructor
  · intro h
    cases h
    exact ⟨rfl, [], rfl, by simpa using hdone, by simp, rfl, rfl⟩
  · intro ⟨hrest, ts, hts, _, _, hreplay, hstate⟩
    have hnil := trailers_eq_nil.mp hts.symm
    subst hnil
    cases hreplay
    rw [hrest, hstate]
    rfl

theorem readTrailersLoop_cons (fuel : Nat) (state : TrailerState) {bs : Bytes} (h : bs ≠ []) (s : σ) :
    readTrailersLoop sink inputs outputs (fuel + 1) state (bs, s) =
      ((readU8 >>= fun marker => readTrailer sink inputs outputs marker state) (bs, s) >>= fun r =>
        readTrailersLoop sink inputs outputs fuel r.1 r.2) := by
  have hassoc : (readU8 >>= fun marker => readTrailer sink inputs outputs marker state >>=
      readTrailersLoop sink inputs outputs fuel) =
      ((readU8 >>= fun marker => readTrailer sink inputs outputs marker state) >>=
        readTrailersLoop sink inputs outputs fuel : WireParser σ ε TrailerState) :=
    (bind_assoc ..).symm
  rw [readTrailersLoop]
  simp only [h, if_false]
  exact congrFun hassoc (bs, s)

/-- The loop reads the trailers that continue the canonical order, to the end. -/
theorem readTrailersLoop_eq_ok (fuel : Nat) {state : TrailerState} {done : List Trailer}
    (htracks : state.Tracks done) (hdone : Canonical done) {bs rest : Bytes} {s s' : σ}
    {state' : TrailerState} (hlen : bs.length ≤ fuel) :
    readTrailersLoop sink inputs outputs fuel state (bs, s) = .ok (state', (rest, s')) ↔
      rest = [] ∧ ∃ ts : List Trailer, bs = ts.flatMap Trailer.bytes ∧ Canonical (done ++ ts) ∧
        (∀ t ∈ ts, t.Valid inputs outputs) ∧ replayTrailers sink ts s = .ok s' ∧
        state' = ts.foldl TrailerState.after state := by
  induction fuel generalizing state done bs s with
  | zero =>
    have hbs := List.length_eq_zero_iff.mp (Nat.le_zero.mp hlen)
    subst hbs
    exact readTrailersLoop_end sink inputs outputs 0 hdone
  | succ fuel ih =>
    by_cases hbs : bs = []
    · subst hbs
      exact readTrailersLoop_end sink inputs outputs (fuel + 1) hdone
    rw [readTrailersLoop_cons sink inputs outputs fuel state hbs, bind_eq_ok]
    constructor
    · intro ⟨⟨state₁, rest₁, s₁⟩, h₁, h₂⟩
      obtain ⟨w, hw, t, hadm, hvalid, hwt, hs₁, hstate₁⟩ := (reads_trailer sink inputs outputs state ..).mp h₁
      have hcont := (TrailerState.admits_iff htracks hdone t).mp hadm
      have hnext := (canonical_snoc hdone).mpr hcont
      have hshort : rest₁.length ≤ fuel := by
        have := t.bytes_ne_nil
        have hpos := List.length_pos_iff.mpr this
        rw [hw, hwt, List.length_append] at hlen
        omega
      have htracks₁ : state₁.Tracks (done ++ [t]) := hstate₁ ▸ TrailerState.tracks_after htracks hcont.1
      obtain ⟨hrest, ts, hbs₁, hcan, hval, hreplay, hstate⟩ := (ih htracks₁ hnext hshort).mp h₂
      refine ⟨hrest, t :: ts, by rw [hw, hwt, hbs₁, List.flatMap_cons], by simpa using hcan,
        List.forall_mem_cons.mpr ⟨hvalid, hval⟩, bind_eq_ok.mpr ⟨s₁, hs₁, hreplay⟩, ?_⟩
      rw [hstate, hstate₁, List.foldl_cons]
    · intro ⟨hrest, ts, hts, hcan, hval, hreplay, hstate⟩
      cases ts with
      | nil => exact absurd hts hbs
      | cons t ts =>
        obtain ⟨hvalid, hval⟩ := List.forall_mem_cons.mp hval
        obtain ⟨s₁, hs₁, hreplay⟩ := bind_eq_ok.mp hreplay
        have hcan' : Canonical ((done ++ [t]) ++ ts) := by simpa using hcan
        have hnext := hcan'.of_append
        have hcont := (canonical_snoc hdone).mp hnext
        have hadm := (TrailerState.admits_iff htracks hdone t).mpr hcont
        rw [List.flatMap_cons] at hts
        have hshort : (ts.flatMap Trailer.bytes).length ≤ fuel := by
          have hpos := List.length_pos_iff.mpr t.bytes_ne_nil
          rw [hts, List.length_append] at hlen
          omega
        refine ⟨(state.after t, ts.flatMap Trailer.bytes, s₁), ?_, ?_⟩
        · exact (reads_trailer sink inputs outputs state ..).mpr
            ⟨t.bytes, hts, t, hadm, hvalid, rfl, hs₁, rfl⟩
        · exact (ih (TrailerState.tracks_after htracks hcont.1) hnext hshort).mpr
            ⟨hrest, ts, rfl, hcan', hval, hreplay, hstate⟩

/-- By induction on the trailers. -/
theorem tracks_foldl {state : TrailerState} {done ts : List Trailer} (htracks : state.Tracks done)
    (h : Canonical (done ++ ts)) : (ts.foldl TrailerState.after state).Tracks (done ++ ts) := by
  induction ts generalizing state done with
  | nil => simpa using htracks
  | cons t ts ih =>
    have h' : Canonical ((done ++ [t]) ++ ts) := by simpa using h
    have hcont := (canonical_snoc h.of_append).mp h'.of_append
    have := ih (TrailerState.tracks_after htracks hcont.1) h'
    simpa using this

/-- The trailers accepted are the canonical rows in range, in the bytes they are written as. -/
theorem readsAll_readTrailers :
    ReadsAll (readTrailers sink inputs outputs) fun s w _ s' => ∃ ts : List Trailer,
      w = ts.flatMap Trailer.bytes ∧ Canonical ts ∧ ts ≠ [] ∧
        (∀ t ∈ ts, t.Valid inputs outputs) ∧ replayTrailers sink ts s = .ok s' := by
  intro bs s u rest s'
  have hrun : readTrailers sink inputs outputs (bs, s) =
      (readTrailersLoop sink inputs outputs bs.length .new (bs, s) >>= fun r =>
        rejectWire (r.1.network = false) .missingNetwork r.2) := rfl
  have hloop := @readTrailersLoop_eq_ok σ ε sink inputs outputs bs.length .new []
    TrailerState.tracks_new ⟨List.Pairwise.nil, by simp⟩ bs
  have hnet : ∀ {ts : List Trailer}, Canonical ts →
      (¬ (ts.foldl TrailerState.after .new).network = false ↔ ts ≠ []) := by
    intro ts hcan
    have htracks := tracks_foldl TrailerState.tracks_new (by simpa using hcan)
    rw [Bool.not_eq_false, htracks.network_iff (by simpa using hcan), List.nil_append]
  rw [hrun, bind_eq_ok]
  constructor
  · intro ⟨⟨state, rest₁, s₁⟩, h₁, h₂⟩
    obtain ⟨hrest₁, ts, hbs, hcan, hval, hreplay, hstate⟩ := (hloop (Nat.le_refl _)).mp h₁
    obtain ⟨w, hw, hwnil, hpresent, hs⟩ := (reads_rejectIf rest₁ s₁ u rest s').mp h₂
    rw [hstate] at hpresent
    rw [hwnil, List.nil_append, hrest₁] at hw
    exact ⟨hw.symm, ts, hbs, hcan, (hnet hcan).mp hpresent, hval, hs ▸ hreplay⟩
  · intro ⟨hrest, ts, hbs, hcan, hne, hval, hreplay⟩
    refine ⟨(ts.foldl TrailerState.after .new, [], s'), (hloop (Nat.le_refl _)).mpr
      ⟨rfl, ts, hbs, hcan, hval, hreplay, rfl⟩, ?_⟩
    exact (reads_rejectIf [] s' u rest s').mpr ⟨[], by rw [hrest]; rfl, rfl, (hnet hcan).mpr hne, rfl⟩

end loop

/-! ## The envelope -/

/-- No record is shorter than the bound the decoder checks the count against. -/
theorem WireInput.min_length (i : WireInput) : MIN_INPUT_WIRE_BYTES ≤ i.bytes.length := by
  have hid := i.value.previousTxId.property
  have hscript : 1 ≤ (scriptBytes i.value.script).length := by
    unfold scriptBytes
    split <;> simp
  have hmin : MIN_INPUT_WIRE_BYTES = 59 := rfl
  simp only [WireInput.bytes, inputBytes, redeemFieldBytes, List.length_append, u8Bytes_length,
    u16Bytes_length, u32Bytes_length, u64Bytes_length, hid]
  omega

/-- So the count of inputs cannot be larger than the bytes left allow. -/
theorem inputs_min_length (is : List WireInput) :
    is.length * MIN_INPUT_WIRE_BYTES ≤ (is.flatMap WireInput.bytes).length := by
  induction is with
  | nil => simp
  | cons i is ih =>
    have := i.min_length
    rw [List.length_cons, List.flatMap_cons, List.length_append, Nat.succ_mul]
    omega

section envelope
variable {σ ε : Type} (sink : DecodeSink σ ε)

/-- Everything after the global fields. -/
def BodyReads (g : Global) (s : σ) (w : Bytes) (flags : UInt8) (s' : σ) : Prop :=
  flags = g.flags ∧ ∃ is os ts,
      (is.length = g.inputCount.toNat ∧ os.length = g.outputCount.toNat) ∧
      ((∀ i ∈ is, i.Valid) ∧ (∀ o ∈ os, o.script.length ≤ MAX_SCRIPT_SIZE) ∧
        (∀ t ∈ ts, t.Valid is.length os.length) ∧ Canonical ts ∧ ts ≠ []) ∧
      w = is.flatMap WireInput.bytes ++ (os.flatMap outputBytes ++ ts.flatMap Trailer.bytes) ∧
      Envelope.replay sink ⟨g, is, os, ts⟩ s = .ok s'

/-- The body after the global record. -/
theorem readsAll_readBody (g : Global) :
    ReadsAll (readBody sink g) (BodyReads sink g) := by
  refine (reads_bindAll reads_toSink fun _ => reads_bindAll (reads_readInputs sink _ 0) fun _ =>
    reads_bindAll (reads_readOutputs sink _ 0) fun _ =>
      readsAll_bind (readsAll_readTrailers sink _ _) fun _ => reads_pure g.flags).congr
    fun s w flags s' => ?_
  constructor
  · intro ⟨_, s₁, w₁, w₂, hw, ⟨hw₁, hg⟩, _, s₂, w₃, w₄, hw₂, ⟨is, hilen, hival, hw₃, hi⟩, _, s₃, w₅,
      w₆, hw₄, ⟨os, holen, hoval, hw₅, ho⟩, _, s₄, ⟨ts, hts, hcan, hne, htval, ht⟩, _, hflags, hs⟩
    refine ⟨hflags, is, os, ts, ⟨hilen, holen⟩, ⟨hival, hoval, ?_, hcan, hne⟩, ?_, ?_⟩
    · rw [hilen, holen]
      exact htval
    · rw [hw, hw₁, hw₂, hw₃, hw₄, hw₅, hts, List.nil_append]
    · rw [hs]
      exact bind_eq_ok.mpr ⟨s₁, hg, bind_eq_ok.mpr ⟨s₂, hi, bind_eq_ok.mpr ⟨s₃, ho, ht⟩⟩⟩
  · intro ⟨hflags, is, os, ts, ⟨hilen, holen⟩, ⟨hival, hoval, htval, hcan, hne⟩, hw, hreplay⟩
    obtain ⟨s₁, hg, hreplay⟩ := bind_eq_ok.mp hreplay
    obtain ⟨s₂, hi, hreplay⟩ := bind_eq_ok.mp hreplay
    obtain ⟨s₃, ho, ht⟩ := bind_eq_ok.mp hreplay
    rw [hilen, holen] at htval
    exact ⟨(), s₁, [], _, by rw [hw]; rfl, ⟨rfl, hg⟩, (), s₂, _, _, rfl, ⟨is, hilen, hival, rfl, hi⟩, (),
      s₃, _, _, rfl, ⟨os, holen, hoval, rfl, ho⟩, (), s', ⟨ts, rfl, hcan, hne, htval, ht⟩, rfl, hflags,
      rfl⟩

/-- The capacity check refuses nothing that the inputs behind it would pass. -/
theorem readsAll_capacity (g : Global) :
    ReadsAll (validateInputCapacity g.inputCount >>= fun _ => readBody sink g) (BodyReads sink g) := by
  refine readsAll_room (g.inputCount.toNat * MIN_INPUT_WIRE_BYTES) (fun n => ?_)
    (readsAll_readBody sink g) ?_
  · refine reads_rejectIf.congr fun s w u s' => ?_
    rw [Nat.not_lt]
  · intro s w flags s' ⟨_, is, os, ts, ⟨hilen, _⟩, _, hw, _⟩
    have := inputs_min_length is
    rw [hw, List.length_append, ← hilen]
    omega

/-- The decoder accepts exactly the strings of valid envelopes whose values its sink takes. -/
theorem readsAll_decodeEnvelope (limits : Limits) :
    ReadsAll (decodeEnvelope sink limits) fun s w flags s' => ∃ e : Envelope,
      e.Valid limits ∧ e.global.flags = flags ∧ w = e.bytes ∧ e.replay sink s = .ok s' := by
  refine (reads_bindAll reads_readHeader fun flags => reads_bindAll (reads_readGlobal flags limits)
    fun g => readsAll_capacity sink g).congr fun s w flags s' => ?_
  constructor
  · intro ⟨f, s₁, w₁, w₂, hw, ⟨hallowed, hw₁, hs₁⟩, g, s₂, w₃, w₄, hw₂, ⟨⟨hf, hversion, hin, hout, hpay,
      hwidth⟩, hw₃, hs₂⟩, hflags, is, os, ts, ⟨hilen, holen⟩, ⟨hival, hoval, htval, hcan, hne⟩, hw₄,
      hreplay⟩
    refine ⟨⟨g, is, os, ts⟩, ⟨⟨hf ▸ hallowed, hversion, hin, hout, hpay, hwidth⟩, hilen, holen, hival,
      hoval, htval, hcan, hne⟩, hflags.symm, ?_, ?_⟩
    · rw [hw, hw₁, hw₂, hw₃, hw₄, ← hf]
      rfl
    · rw [hs₂, hs₁] at hreplay
      exact hreplay
  · intro ⟨e, hv, hflags, hw, hreplay⟩
    exact ⟨e.global.flags, s, _, _, hw, ⟨hv.global.flags, rfl, rfl⟩, e.global, s, _, _, rfl,
      ⟨⟨rfl, hv.global.version, hv.global.inputs, hv.global.outputs, hv.global.payload,
        hv.global.payloadWidth⟩, rfl, rfl⟩, hflags.symm, e.inputs, e.outputs, e.trailers,
      ⟨hv.inputCount, hv.outputCount⟩, ⟨hv.inputs, hv.outputs, hv.trailers, hv.canonical, hv.network⟩,
      rfl, hreplay⟩

/-- The decoder accepts the strings of the grammar and nothing else, and hands over
the values they hold. -/
theorem decode_eq_ok {data : Bytes} {limits : Limits} {s s' : σ} {flags : UInt8} :
    decode sink data limits s = .ok (flags, s') ↔ ∃ e : Envelope,
      e.Valid limits ∧ e.global.flags = flags ∧ data = e.bytes ∧ e.replay sink s = .ok s' := by
  unfold decode
  rw [map_eq_ok]
  constructor
  · intro ⟨⟨f, rest, s₁⟩, h, heq⟩
    cases heq
    exact ((readsAll_decodeEnvelope sink limits ..).mp h).2
  · intro h
    exact ⟨(flags, [], s'), (readsAll_decodeEnvelope sink limits ..).mpr ⟨rfl, h⟩, rfl⟩

end envelope

end KaspaPortal.Transaction.Kspt
