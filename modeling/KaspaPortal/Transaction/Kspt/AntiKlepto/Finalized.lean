import KaspaPortal.Transaction.Kspt.AntiKlepto.Session

/-!
# What finalization leaves

A finalized transaction is the provisional one with the signature of every added slot
tweaked, and nothing else. The records and the proofs are those of the added slots, in
order.
-/
namespace KaspaPortal.Transaction.Kspt.AntiKlepto
open Lib Primitives Model Crypto.AntiKlepto

section
variable {n : Nat} {Point : Type} [AddCommGroup Point] [Module (ZMod n) Point] [DecidableEq Point]
  (curve : Curve n Point) (signingHash : Bytes → FixedBytes 32)
  (sessionId : FixedBytes SESSION_ID_LEN) (hostSecret : FixedBytes 32)

/-- The material a resolver hands out names the key of its secret. -/
def Resolves (resolve : Resolver) : Prop :=
  ∀ tx key material, resolve tx key = some material →
    compressedPubkeyFromRawKey curve material.privateKey = some material.compressedPublicKey

/-- The slot's signature replaced by the tweak of it, under the key the slot names. -/
def Tweaked (tx : Transaction) (i slot : Nat) (old new : InputSig) : Prop :=
  ∃ privateKey sighashType signature,
    compressedPubkeyFromRawKey curve privateKey = some old.pubkeyCompressed ∧
    SigHashType.fromByte old.sighashType = some sighashType ∧
    curve.tweakProvisionalSignature privateKey (calculateSighash signingHash tx.sighashSource i sighashType)
      old.signature sessionId hostSecret (UInt32.ofNat i) (UInt8.ofNat slot) = .ok signature ∧
    new = { old with signature := signature }

/-- `tx'` is `tx` with the slots at `done` tweaked. -/
structure FinalizedAt (done : List (Nat × Nat)) (tx tx' : Transaction) : Prop where
  same : SameUnsigned tx tx'
  counts : ∀ i, (inputAt tx' i).sigCount = (inputAt tx i).sigCount
  sighash : ∀ i, (inputAt tx' i).sighashType = (inputAt tx i).sighashType
  kept : ∀ i slot, (i, slot) ∉ done → slotAt tx' i slot = slotAt tx i slot
  tweaked : ∀ i slot, (i, slot) ∈ done →
    Tweaked curve signingHash sessionId hostSecret tx i slot (slotAt tx i slot) (slotAt tx' i slot)

variable {curve signingHash sessionId hostSecret}

theorem Tweaked.congr {tx tx' : Transaction} {i slot : Nat} {old new : InputSig}
    (h : Tweaked curve signingHash sessionId hostSecret tx' i slot old new) (hsame : SameUnsigned tx tx') :
    Tweaked curve signingHash sessionId hostSecret tx i slot old new := by
  unfold Tweaked at h
  rw [hsame.sighashSource] at h
  exact h

theorem FinalizedAt.refl (tx : Transaction) : FinalizedAt curve signingHash sessionId hostSecret [] tx tx :=
  ⟨rfl, fun _ => rfl, fun _ => rfl, fun _ _ _ => rfl, fun _ _ h => by cases h⟩

/-- Two runs over different slots are one run over both. -/
theorem FinalizedAt.trans {first second : List (Nat × Nat)} {tx mid tx' : Transaction}
    (h : FinalizedAt curve signingHash sessionId hostSecret first tx mid)
    (h' : FinalizedAt curve signingHash sessionId hostSecret second mid tx')
    (hdisjoint : ∀ p ∈ first, p ∉ second) :
    FinalizedAt curve signingHash sessionId hostSecret (first ++ second) tx tx' := by
  refine ⟨Eq.trans h'.same h.same, fun i => (h'.counts i).trans (h.counts i),
    fun i => (h'.sighash i).trans (h.sighash i), fun i slot hnot => ?_, fun i slot hmem => ?_⟩
  · rw [List.mem_append, not_or] at hnot
    rw [h'.kept i slot hnot.2, h.kept i slot hnot.1]
  · by_cases hfirst : (i, slot) ∈ first
    · rw [h'.kept i slot (hdisjoint _ hfirst)]
      exact h.tweaked i slot hfirst
    · have hsecond := (List.mem_append.mp hmem).resolve_left hfirst
      have htweaked := (h'.tweaked i slot hsecond).congr h.same
      rw [h.kept i slot hfirst] at htweaked
      exact htweaked

/-- A slot that holds a signature is one of the five slots of a declared input. -/
theorem slot_bounds_of_present {tx : Transaction} {i slot : Nat} (h : (slotAt tx i slot).present = true) :
    i < tx.inputs.length ∧ slot < MAX_SIGS_PER_INPUT := by
  constructor
  · by_contra hnot
    have hat : inputAt tx i = .empty := by
      rw [inputAt, List.getElem?_eq_none (Nat.not_lt.mp hnot), Option.getD_none]
    rw [slotAt, hat] at h
    have hempty : TransactionInput.empty.sigs.val = List.replicate MAX_SIGS_PER_INPUT .empty := rfl
    rw [hempty, List.getElem?_replicate] at h
    split at h <;> cases h
  · by_contra hnot
    have hlen := (inputAt tx i).sigs.property
    rw [slotAt, List.getElem?_eq_none (by omega)] at h
    cases h

theorem slotAt_replaceSignature {tx : Transaction} {i slot : Nat} (signature : FixedBytes 64)
    (hi : i < tx.inputs.length) (hslot : slot < MAX_SIGS_PER_INPUT) (j other : Nat) :
    slotAt (tx.modifyInput i (replaceSignature signature slot)) j other =
      if i = j ∧ slot = other then { slotAt tx j other with signature := signature }
      else slotAt tx j other := by
  have hlen := (inputAt tx j).sigs.property
  rw [slotAt, inputAt_modifyInput]
  by_cases hij : i = j
  · subst hij
    rw [if_pos ⟨rfl, hi⟩]
    simp only [replaceSignature, SigSlots.modify, List.getElem?_modify, true_and]
    by_cases hso : slot = other
    · subst hso
      rw [if_pos rfl, slotAt, List.getElem?_eq_getElem (by omega)]
      simp
    · simp [hso, slotAt]
  · rw [if_neg fun hc => hij hc.1, if_neg fun hc => hij hc.1, slotAt]

theorem finalizeSignatureSlot_finalized {resolve : Resolver} (hresolve : Resolves curve resolve)
    {tx tx' : Transaction} {i slot : Nat}
    (h : finalizeSignatureSlot curve signingHash sessionId hostSecret resolve tx i slot = .ok tx') :
    FinalizedAt curve signingHash sessionId hostSecret [(i, slot)] tx tx' := by
  unfold finalizeSignatureSlot finalizeWithMaterial at h
  simp only [bind_eq_ok, rejectIf_eq_ok, okOr_eq_ok, mapError_eq_ok, not_or, Bool.not_eq_false,
    Decidable.not_not] at h
  obtain ⟨_, ⟨hpresent, _⟩, material, hmaterial, _, hkey, sighashType, hbyte, _, _, signature, htweak, htx⟩ := h
  have htx := Except.ok.inj htx
  obtain ⟨hi, hslot⟩ := slot_bounds_of_present hpresent
  have hslots := slotAt_replaceSignature signature hi hslot
  subst htx
  have hat : ∀ j,
      (inputAt (tx.modifyInput i (replaceSignature signature slot)) j).sigCount = (inputAt tx j).sigCount ∧
      (inputAt (tx.modifyInput i (replaceSignature signature slot)) j).sighashType =
        (inputAt tx j).sighashType := by
    intro j
    rw [inputAt_modifyInput]
    split <;> exact ⟨rfl, rfl⟩
  refine ⟨unsigned_modifyInput _ _ _ fun _ _ => rfl, fun j => (hat j).1, fun j => (hat j).2,
    fun j other hnot => ?_, fun j other hmem => ?_⟩
  · rw [hslots, if_neg]
    intro h
    obtain ⟨hij, hso⟩ := h
    exact hnot (by simp [hij, hso])
  · obtain ⟨hji, hos⟩ := Prod.mk.inj (List.mem_singleton.mp hmem)
    rw [hji, hos, hslots, if_pos ⟨rfl, rfl⟩]
    refine ⟨material.privateKey, sighashType, signature, ?_, hbyte, htweak, rfl⟩
    rw [hresolve _ _ _ hmaterial, hkey]

theorem finalizeSlots_finalized {resolve : Resolver} (hresolve : Resolves curve resolve) {i : Nat}
    {slots : List Nat} {tx tx' : Transaction} (hnodup : slots.Nodup)
    (h : finalizeSlots curve signingHash sessionId hostSecret resolve i slots tx = .ok tx') :
    FinalizedAt curve signingHash sessionId hostSecret (slots.map (i, ·)) tx tx' := by
  induction slots generalizing tx with
  | nil =>
    rw [finalizeSlots] at h
    cases h
    exact .refl _
  | cons slot slots ih =>
    rw [finalizeSlots, bind_eq_ok] at h
    obtain ⟨mid, hmid, hrest⟩ := h
    obtain ⟨hnot, hnodup⟩ := List.nodup_cons.mp hnodup
    refine (finalizeSignatureSlot_finalized hresolve hmid).trans (ih hnodup hrest) ?_
    intro p hp hrest
    rw [List.mem_singleton.mp hp] at hrest
    obtain ⟨other, hother, heq⟩ := List.mem_map.mp hrest
    exact hnot ((Prod.mk.inj heq).2 ▸ hother)

/-- The slots of one entry: from its count to that of the input. -/
def entrySlots (tx : Transaction) (entry : UInt8 × Nat) : List (Nat × Nat) :=
  (List.range' entry.1.toNat ((inputAt tx entry.2).sigCount.toNat - entry.1.toNat)).map (entry.2, ·)

theorem entrySlots_congr {tx tx' : Transaction} {done : List (Nat × Nat)}
    (h : FinalizedAt curve signingHash sessionId hostSecret done tx tx') : entrySlots tx' = entrySlots tx := by
  funext entry
  simp only [entrySlots, h.counts]

theorem finalizeInputSignatures_finalized {resolve : Resolver} (hresolve : Resolves curve resolve)
    {tx tx' : Transaction} {i added : Nat} {initialCount : UInt8}
    (h : finalizeInputSignatures curve signingHash sessionId hostSecret resolve tx i initialCount =
      .ok (tx', added)) :
    FinalizedAt curve signingHash sessionId hostSecret (entrySlots tx (initialCount, i)) tx tx' ∧
      (inputAt tx i).sigCount.toNat ≤ MAX_SIGS_PER_INPUT := by
  unfold finalizeInputSignatures at h
  simp only [bind_eq_ok, rejectIf_eq_ok, not_or, Nat.not_lt] at h
  obtain ⟨_, ⟨_, hfits⟩, final, hfinal, hresult⟩ := h
  cases hresult
  exact ⟨finalizeSlots_finalized hresolve List.nodup_range' hfinal, hfits⟩

theorem finalizeInputs_finalized {resolve : Resolver} (hresolve : Resolves curve resolve)
    {entries : List (UInt8 × Nat)} {tx tx' : Transaction} {changed changed' : Nat}
    (hnodup : (entries.map Prod.snd).Nodup)
    (h : finalizeInputs curve signingHash sessionId hostSecret resolve entries tx changed = .ok (tx', changed')) :
    FinalizedAt curve signingHash sessionId hostSecret (entries.flatMap (entrySlots tx)) tx tx' ∧
      ∀ entry ∈ entries, (inputAt tx entry.2).sigCount.toNat ≤ MAX_SIGS_PER_INPUT := by
  induction entries generalizing tx changed with
  | nil =>
    rw [finalizeInputs] at h
    cases h
    exact ⟨.refl _, by simp⟩
  | cons entry entries ih =>
    obtain ⟨initialCount, i⟩ := entry
    simp only [finalizeInputs, bind_eq_ok] at h
    obtain ⟨⟨mid, added⟩, hmid, hrest⟩ := h
    rw [List.map_cons, List.nodup_cons] at hnodup
    obtain ⟨hhere, hfits⟩ := finalizeInputSignatures_finalized hresolve hmid
    obtain ⟨hothers, hall⟩ := ih hnodup.2 hrest
    rw [entrySlots_congr hhere] at hothers
    refine ⟨hhere.trans hothers ?_, List.forall_mem_cons.mpr ⟨hfits, fun entry hentry => ?_⟩⟩
    · intro p hp hother
      obtain ⟨_, _, rfl⟩ := List.mem_map.mp hp
      obtain ⟨entry, hentry, hmem⟩ := List.mem_flatMap.mp hother
      obtain ⟨_, _, heq⟩ := List.mem_map.mp hmem
      exact hnodup.1 (List.mem_map.mpr ⟨entry, hentry, (Prod.mk.inj heq).1⟩)
    · rw [← hhere.counts]
      exact hall entry hentry

/-- The slots the finalizer visits are the added ones. -/
theorem entries_addedPositions {original tx : Transaction}
    (hlen : tx.inputs.length = original.inputs.length) :
    ((initialSignatureCounts original).take tx.inputs.length).zipIdx.flatMap (entrySlots tx) =
      addedPositions original tx := by
  have htake : (initialSignatureCounts original).take tx.inputs.length = initialSignatureCounts original := by
    rw [List.take_of_length_le]
    simp [initialSignatureCounts, hlen]
  have hzip : (initialSignatureCounts original).zipIdx =
      (List.range original.inputs.length).map fun i => ((inputAt original i).sigCount, i) := by
    apply List.ext_getElem
    · simp [initialSignatureCounts]
    · intro i hi _
      have hi : i < original.inputs.length := by simpa [initialSignatureCounts] using hi
      simp [initialSignatureCounts, inputAt, List.getElem?_eq_getElem hi]
  rw [htake, hzip, List.flatMap_map]
  rfl

theorem finalizeMatching_finalized {resolve : Resolver} (hresolve : Resolves curve resolve)
    {original tx tx' : Transaction} {changed : Nat} (hlen : tx.inputs.length = original.inputs.length)
    (h : finalizeMatching curve signingHash sessionId hostSecret resolve tx
      (initialSignatureCounts original) = .ok (tx', changed)) :
    FinalizedAt curve signingHash sessionId hostSecret (addedPositions original tx) tx tx' ∧
      ∀ i < tx.inputs.length, (inputAt tx i).sigCount.toNat ≤ MAX_SIGS_PER_INPUT := by
  unfold finalizeMatching at h
  simp only [bind_eq_ok, rejectIf_eq_ok] at h
  obtain ⟨_, _, ⟨final, count⟩, hfinal, _, _, hresult⟩ := h
  cases hresult
  have hnodup : ((((initialSignatureCounts original).take tx.inputs.length).zipIdx).map Prod.snd).Nodup := by
    rw [List.zipIdx_map_snd]
    exact List.nodup_range'
  obtain ⟨hfinalized, hfits⟩ := finalizeInputs_finalized hresolve hnodup hfinal
  rw [entries_addedPositions hlen] at hfinalized
  refine ⟨hfinalized, fun i hi => ?_⟩
  have hmem : ((inputAt original i).sigCount, i) ∈
      ((initialSignatureCounts original).take tx.inputs.length).zipIdx := by
    rw [List.mem_zipIdx_iff_getElem?, List.getElem?_take, if_pos hi]
    simp [initialSignatureCounts, inputAt, List.getElem?_eq_getElem (hlen ▸ hi)]
  exact hfits _ hmem

theorem rawKeyResolver_resolves {curve : Curve n Point} {privateKey : FixedBytes 32} {publicKey : FixedBytes 33}
    (h : compressedPubkeyFromRawKey curve privateKey = some publicKey) :
    Resolves curve (rawKeyResolver privateKey publicKey) := by
  intro tx key material hresolve
  rw [rawKeyResolver] at hresolve
  split at hresolve
  case isTrue => cases hresolve; exact h
  case isFalse => cases hresolve

/-- A raw-key signer with a usable key finalizes what any signer does: the added slots, each under the key
it names. -/
theorem finalizeRawKeySignatures_finalized {original tx tx' : Transaction} {privateKey : FixedBytes 32}
    {changed : Nat} (hlen : tx.inputs.length = original.inputs.length)
    (h : finalizeRawKeySignatures curve signingHash sessionId hostSecret tx privateKey
      (initialSignatureCounts original) = .ok (tx', changed)) :
    FinalizedAt curve signingHash sessionId hostSecret (addedPositions original tx) tx tx' := by
  obtain ⟨publicKey, hkey, hfinal⟩ := bind_eq_ok.mp h
  have hresolves := rawKeyResolver_resolves (okOr_eq_ok.mp hkey)
  exact (finalizeMatching_finalized hresolves hlen hfinal).1

end

/-! ## Records of the added slots -/

/-- The slots between two counts. -/
theorem slots_between {tx : Transaction} {i start stop : Nat} (hle : start ≤ stop)
    (hstop : stop ≤ MAX_SIGS_PER_INPUT) :
    ((inputAt tx i).sigs.val.take stop).drop start = (List.range' start (stop - start)).map (slotAt tx i) := by
  have hlen := (inputAt tx i).sigs.property
  apply List.ext_getElem
  · simp
    omega
  · intro k hk hk'
    simp only [List.length_map, List.length_range'] at hk'
    simp only [List.getElem_drop, List.getElem_take, List.getElem_map, List.getElem_range', Nat.one_mul]
    rw [slotAt, List.getElem?_eq_getElem (by omega), Option.getD_some]

section
variable {Record : Type} {record : Nat → Nat → InputSig → Except PsktError Record}
  {make : Nat → Nat → InputSig → Record} {Good : Nat → Nat → InputSig → Prop}
  (spec : ∀ i slot sig r, record i slot sig = .ok r ↔ Good i slot sig ∧ r = make i slot sig)
include spec

theorem recordSlots_eq_ok {f : Nat → InputSig} {i start count : Nat} {made : List Record} :
    recordSlots (record i) start ((List.range' start count).map f) = .ok made ↔
      (∀ slot ∈ List.range' start count, Good i slot (f slot)) ∧
        made = (List.range' start count).map fun slot => make i slot (f slot) := by
  induction count generalizing start made with
  | zero =>
    simp only [List.range'_zero, List.map_nil, recordSlots]
    exact ⟨fun h => ⟨by simp, (Except.ok.inj h).symm⟩, fun ⟨_, h⟩ => by rw [h]⟩
  | succ count ih =>
    simp only [List.range'_succ, List.map_cons, recordSlots, bind_eq_ok, spec, ih, List.forall_mem_cons]
    constructor
    · intro ⟨first, ⟨hgood, hfirst⟩, rest, ⟨hall, hrest⟩, hmade⟩
      rw [← Except.ok.inj hmade, hfirst, hrest]
      exact ⟨⟨hgood, hall⟩, rfl⟩
    · intro ⟨⟨hgood, hall⟩, hmade⟩
      exact ⟨_, ⟨hgood, rfl⟩, _, ⟨hall, rfl⟩, by rw [hmade]; rfl⟩

/-- The positions of the added slots of some inputs. -/
def positionsOf (original tx : Transaction) (indices : List Nat) : List (Nat × Nat) :=
  indices.flatMap fun i =>
    (List.range' (inputAt original i).sigCount.toNat (addedHere original tx i)).map (i, ·)

/-- The count an input had is no more than it has, and that is within its slots. -/
def SlotsFit (original tx : Transaction) (i : Nat) : Prop :=
  (inputAt original i).sigCount.toNat ≤ (inputAt tx i).sigCount.toNat ∧
    (inputAt tx i).sigCount.toNat ≤ MAX_SIGS_PER_INPUT

omit spec in
theorem addedSignatures_eq_ok {original tx : Transaction} (hlen : tx.inputs.length = original.inputs.length)
    {i : Nat} (hi : i < tx.inputs.length) {result : Nat × List InputSig} :
    addedSignatures tx (initialSignatureCounts original) i = .ok result ↔ SlotsFit original tx i ∧
      result = ((inputAt original i).sigCount.toNat,
        (List.range' (inputAt original i).sigCount.toNat (addedHere original tx i)).map (slotAt tx i)) := by
  have hinput : tx.inputs[i]? = some (inputAt tx i) := by
    rw [inputAt, List.getElem?_eq_getElem hi, Option.getD_some]
  have hcount : (initialSignatureCounts original)[i]? = some (inputAt original i).sigCount := by
    simp [initialSignatureCounts, inputAt, List.getElem?_eq_getElem (hlen ▸ hi)]
  unfold addedSignatures
  simp only [bind_eq_ok, hinput, hcount, okOr, Except.ok.injEq, rejectIf_eq_ok, not_or, Nat.not_lt]
  constructor
  · intro h
    obtain ⟨_, hat, _, hstart, _, hfits, hresult⟩ := h
    subst hat hstart
    refine ⟨hfits, ?_⟩
    rw [← Except.ok.inj hresult, slots_between hfits.1 hfits.2]
    rfl
  · intro h
    obtain ⟨hfits, hresult⟩ := h
    refine ⟨_, rfl, _, rfl, (), hfits, ?_⟩
    rw [hresult, slots_between hfits.1 hfits.2]
    rfl

theorem recordInputs_eq_ok {original tx : Transaction} (hlen : tx.inputs.length = original.inputs.length)
    {indices : List Nat} (hindices : ∀ i ∈ indices, i < tx.inputs.length) {made : List Record} :
    recordInputs tx (initialSignatureCounts original) record indices = .ok made ↔
      (∀ i ∈ indices, SlotsFit original tx i) ∧
      (∀ p ∈ positionsOf original tx indices, Good p.1 p.2 (slotAt tx p.1 p.2)) ∧
      made = (positionsOf original tx indices).map fun p => make p.1 p.2 (slotAt tx p.1 p.2) := by
  induction indices generalizing made with
  | nil =>
    simp only [positionsOf, List.flatMap_nil, List.map_nil, recordInputs]
    exact ⟨fun h => ⟨by simp, by simp, (Except.ok.inj h).symm⟩, fun ⟨_, _, h⟩ => by rw [h]⟩
  | cons i indices ih =>
    obtain ⟨hi, hrest⟩ := List.forall_mem_cons.mp hindices
    have hpositions : positionsOf original tx (i :: indices) =
        (List.range' (inputAt original i).sigCount.toNat (addedHere original tx i)).map (i, ·) ++
          positionsOf original tx indices := rfl
    simp only [recordInputs, bind_eq_ok, addedSignatures_eq_ok hlen hi, ih hrest, List.forall_mem_cons]
    rw [hpositions, List.forall_mem_append, List.forall_mem_map, List.map_append, List.map_map]
    constructor
    · intro ⟨_, ⟨hfits, hresult⟩, here, hhere, others, ⟨hall, hgood, hothers⟩, hmade⟩
      rw [hresult, recordSlots_eq_ok spec] at hhere
      rw [← Except.ok.inj hmade, hhere.2, hothers]
      exact ⟨⟨hfits, hall⟩, ⟨hhere.1, hgood⟩, rfl⟩
    · intro ⟨⟨hfits, hall⟩, ⟨hhere, hgood⟩, hmade⟩
      refine ⟨_, ⟨hfits, rfl⟩, _, (recordSlots_eq_ok spec).mpr ⟨hhere, rfl⟩, _, ⟨hall, hgood, rfl⟩, ?_⟩
      rw [hmade]
      rfl

theorem records_eq_ok {original tx : Transaction} (hlen : tx.inputs.length = original.inputs.length)
    {made : List Record} :
    records tx (initialSignatureCounts original) record = .ok made ↔
      (∀ i < tx.inputs.length, SlotsFit original tx i) ∧
      (∀ p ∈ addedPositions original tx, Good p.1 p.2 (slotAt tx p.1 p.2)) ∧
      made = (addedPositions original tx).map (fun p => make p.1 p.2 (slotAt tx p.1 p.2)) ∧ made ≠ [] := by
  have hpositions : positionsOf original tx (List.range tx.inputs.length) = addedPositions original tx := by
    rw [hlen]
    rfl
  unfold records
  simp only [bind_eq_ok, recordInputs_eq_ok spec hlen (fun i hi => List.mem_range.mp hi), hpositions,
    List.mem_range, rejectIf_eq_ok, List.length_eq_zero_iff]
  constructor
  · intro h
    obtain ⟨all, ⟨hfits, hgood, hall⟩, _, hne, hmade⟩ := h
    cases hmade
    exact ⟨hfits, hgood, hall, hne⟩
  · intro h
    obtain ⟨hfits, hgood, hmade, hne⟩ := h
    exact ⟨made, ⟨hfits, hgood, hmade⟩, (), hne, rfl⟩

end

/-- The record of a slot. -/
def commitmentOf (i slot : Nat) (sig : InputSig) : NonceCommitment where
  inputIndex := UInt32.ofNat i
  signatureSlot := UInt8.ofNat slot
  publicKey := compressed 0x02 (xonly sig.pubkeyCompressed)
  noncePoint := provisionalNoncePoint sig.signature

theorem commitmentRecord_eq_ok (i slot : Nat) (sig : InputSig) (r : NonceCommitment) :
    commitmentRecord i slot sig = .ok r ↔
      (sig.present = true ∧ sig.pubkeyCompressed.val.head? ≠ some 0 ∧ i < 2 ^ 32) ∧
        r = commitmentOf i slot sig := by
  unfold commitmentRecord
  simp only [bind_eq_ok, rejectIf_eq_ok, not_or, Bool.not_eq_false, Nat.not_le]
  constructor
  · intro h
    obtain ⟨_, ⟨hpresent, hkey⟩, _, hi, hr⟩ := h
    exact ⟨⟨hpresent, hkey, hi⟩, (Except.ok.inj hr).symm⟩
  · intro h
    obtain ⟨⟨hpresent, hkey, hi⟩, hr⟩ := h
    exact ⟨(), ⟨hpresent, hkey⟩, (), hi, by rw [hr]; rfl⟩

theorem proofRecord_eq_ok (i slot : Nat) (sig : InputSig) (r : SignatureProof) :
    proofRecord i slot sig = .ok r ↔ (sig.present = true ∧ i < 2 ^ 32) ∧
      r = ⟨UInt32.ofNat i, UInt8.ofNat slot⟩ := by
  unfold proofRecord
  simp only [bind_eq_ok, rejectIf_eq_ok, Bool.not_eq_false, Nat.not_le]
  constructor
  · intro h
    obtain ⟨_, hpresent, _, hi, hr⟩ := h
    exact ⟨⟨hpresent, hi⟩, (Except.ok.inj hr).symm⟩
  · intro h
    obtain ⟨⟨hpresent, hi⟩, hr⟩ := h
    exact ⟨(), hpresent, (), hi, by rw [hr]; rfl⟩

end KaspaPortal.Transaction.Kspt.AntiKlepto
