import KaspaPortal.Transaction.Pskt.Signatures

/-!
# Merging signatures by key

The loop over the slots of an input appends an entry for each new key, and an entry with the key of
a slot has its signature. Sorting keeps the entries, so a second merge finds every key again.

Whether a promoted signature verifies is not checked by the loop; that is the verification's part.
-/
namespace KaspaPortal.Guarantees
open Lib Transaction.Model Transaction.Pskt.Signatures

namespace SignaturePromotion

def keys (entries : List IncomingPartialSig) : List (FixedBytes 33) := entries.map (·.pubkey)

/-- The first entry with the key of a slot has its signature. -/
def Found (entries : List IncomingPartialSig) (slot : InputSig) : Prop :=
  ∃ entry, entries.find? (·.pubkey = slot.pubkeyCompressed) = some entry ∧
    entry.signature = slot.signature

/-- An entry made from a slot. -/
def entryOf (slot : InputSig) : IncomingPartialSig := ⟨slot.pubkeyCompressed, slot.signature, true⟩

theorem find?_append_self {entries added : List IncomingPartialSig} {slot : InputSig}
    (h : Found entries slot) : Found (entries ++ added) slot := by
  obtain ⟨entry, hfind, hsignature⟩ := h
  exact ⟨entry, by rw [List.find?_append, hfind]; rfl, hsignature⟩

theorem find?_eq_none_iff {entries : List IncomingPartialSig} {key : FixedBytes 33} :
    entries.find? (·.pubkey = key) = none ↔ key ∉ keys entries := by
  rw [List.find?_eq_none, keys, List.mem_map]
  constructor
  · intro h hmem
    obtain ⟨entry, hentry, hkey⟩ := hmem
    exact h entry hentry (decide_eq_true hkey)
  · intro h entry hentry hkey
    exact h ⟨entry, hentry, of_decide_eq_true hkey⟩

/-- What one slot does: nothing, or it adds its entry. -/
theorem mergeSlot_cases {merged merged' : PartialSigs} {slot : InputSig}
    (h : mergeSlot merged slot = .ok merged') :
    (tagged slot = false ∧ merged' = merged) ∨
    (tagged slot = true ∧ Found merged.entries slot ∧ merged' = merged) ∨
    (tagged slot = true ∧ slot.pubkeyCompressed ∉ keys merged.entries ∧
      merged'.entries = merged.entries ++ [entryOf slot]) := by
  rw [mergeSlot] at h
  by_cases htagged : tagged slot = false
  · rw [if_pos htagged] at h
    exact .inl ⟨htagged, (Except.ok.inj h).symm⟩
  · rw [if_neg htagged] at h
    rw [Bool.not_eq_false] at htagged
    cases hfind : merged.entries.find? (·.pubkey = slot.pubkeyCompressed) with
    | some entry =>
      rw [hfind] at h
      dsimp only at h
      by_cases hsignature : entry.signature = slot.signature
      · rw [if_neg (not_not_intro hsignature)] at h
        exact .inr (.inl ⟨htagged, ⟨entry, hfind, hsignature⟩, (Except.ok.inj h).symm⟩)
      · rw [if_pos hsignature] at h
        cases h
    | none =>
      rw [hfind] at h
      dsimp only at h
      rw [PartialSigs.push] at h
      by_cases hroom : merged.entries.length < MAX_SIGS_PER_INPUT
      · rw [dif_pos hroom] at h
        refine .inr (.inr ⟨htagged, find?_eq_none_iff.mp hfind, ?_⟩)
        rw [← Except.ok.inj h]
        rfl
      · rw [dif_neg hroom] at h
        cases h

theorem mergeSlot_found {merged : PartialSigs} {slot : InputSig}
    (h : tagged slot = true → Found merged.entries slot) : mergeSlot merged slot = .ok merged := by
  rw [mergeSlot]
  by_cases htagged : tagged slot = false
  · exact if_pos htagged
  · rw [if_neg htagged]
    obtain ⟨entry, hfind, hsignature⟩ := h (Bool.not_eq_false _ ▸ htagged)
    rw [hfind]
    exact if_neg (not_not_intro hsignature)

/-- What the loop over the slots adds. -/
structure Adds (slots : List InputSig) (before after added : List IncomingPartialSig) : Prop where
  entries : after = before ++ added
  fresh : ∀ entry ∈ added, entry.pubkey ∉ keys before
  nodup : (keys added).Nodup
  made : ∀ entry ∈ added, ∃ slot ∈ slots, tagged slot = true ∧ entry = entryOf slot
  found : ∀ slot ∈ slots, tagged slot = true → Found after slot

theorem foldlM_mergeSlot {slots : List InputSig} {before after : PartialSigs}
    (h : slots.foldlM mergeSlot before = .ok after) :
    ∃ added, Adds slots before.entries after.entries added := by
  induction slots generalizing before with
  | nil =>
    cases h
    exact ⟨[], (List.append_nil _).symm, fun _ hentry => absurd hentry List.not_mem_nil,
      List.nodup_nil, fun _ hentry => absurd hentry List.not_mem_nil,
      fun _ hslot => absurd hslot List.not_mem_nil⟩
  | cons slot slots ih =>
    rw [List.foldlM_cons] at h
    obtain ⟨next, hstep, hrest⟩ := bind_eq_ok.mp h
    obtain ⟨added, hadds⟩ := ih hrest
    -- The entries of the remaining slots, when this one changes nothing.
    have hsame : next = before → (tagged slot = true → Found before.entries slot) →
        ∃ added, Adds (slot :: slots) before.entries after.entries added := by
      intro hnext hfound
      rw [hnext] at hadds
      refine ⟨added, hadds.entries, hadds.fresh, hadds.nodup, fun entry hentry => ?_,
        fun other hother htagged => ?_⟩
      · obtain ⟨made, hmade, hentry⟩ := hadds.made entry hentry
        exact ⟨made, List.mem_cons_of_mem slot hmade, hentry⟩
      · cases List.mem_cons.mp hother with
        | inl hhead =>
          rw [hhead] at htagged ⊢
          rw [hadds.entries]
          exact find?_append_self (hfound htagged)
        | inr htail => exact hadds.found other htail htagged
    cases mergeSlot_cases hstep with
    | inl huntagged => exact hsame huntagged.2 fun ht => absurd (huntagged.1.symm.trans ht) Bool.false_ne_true
    | inr h =>
      cases h with
      | inl hfound => exact hsame hfound.2.2 fun _ => hfound.2.1
      | inr hnew =>
        obtain ⟨htagged, hfresh, hentries⟩ := hnew
        refine ⟨entryOf slot :: added, ?_, ?_, ?_, ?_, ?_⟩
        · rw [hadds.entries, hentries, List.append_assoc]
          rfl
        · intro entry hentry
          cases List.mem_cons.mp hentry with
          | inl hhead => rw [hhead]; exact hfresh
          | inr htail =>
            intro hmem
            apply hadds.fresh entry htail
            rw [hentries, keys, List.map_append]
            exact List.mem_append_left _ hmem
        · refine List.nodup_cons.mpr ⟨fun hmem => ?_, hadds.nodup⟩
          obtain ⟨entry, hentry, hkey⟩ := List.mem_map.mp hmem
          apply hadds.fresh entry hentry
          rw [hentries, hkey, keys, List.map_append]
          exact List.mem_append_right _ (List.mem_singleton.mpr rfl)
        · intro entry hentry
          cases List.mem_cons.mp hentry with
          | inl hhead => exact ⟨slot, List.mem_cons_self, htagged, hhead⟩
          | inr htail =>
            obtain ⟨made, hmade, hmadeEntry⟩ := hadds.made entry htail
            exact ⟨made, List.mem_cons_of_mem slot hmade, hmadeEntry⟩
        · intro other hother hothertagged
          cases List.mem_cons.mp hother with
          | inl hhead =>
            rw [hhead, hadds.entries, hentries]
            refine find?_append_self ⟨entryOf slot, ?_, rfl⟩
            rw [List.find?_append, find?_eq_none_iff.mpr hfresh, Option.none_or]
            exact List.find?_cons_of_pos (decide_eq_true rfl)
          | inr htail => exact hadds.found other htail hothertagged

/-! ## One input -/

def ByKey (a b : IncomingPartialSig) : Prop := a.pubkey.val ≤ b.pubkey.val

/-- What merging makes of the partial signatures of an input. -/
structure Promoted (input : TransactionInput) (before after : PartialSigs)
    (added : List IncomingPartialSig) : Prop where
  perm : after.entries.Perm (before.entries ++ added)
  unchanged : added = [] → after = before
  sorted : added ≠ [] → after.entries.Pairwise ByKey
  made : ∀ entry ∈ added, ∃ slot ∈ countedSigs input, tagged slot = true ∧ entry = entryOf slot
  /-- No entry is added for a key that is there, or twice. -/
  fresh : (∀ entry ∈ added, entry.pubkey ∉ keys before.entries) ∧ (keys added).Nodup
  covers : ∀ slot ∈ countedSigs input, tagged slot = true →
    ∃ entry ∈ after.entries, entry.pubkey = slot.pubkeyCompressed ∧ entry.signature = slot.signature

theorem mergedPartialSigs_spec {input : TransactionInput} {before after : PartialSigs}
    (h : mergedPartialSigs input before = .ok after) :
    ∃ added, Promoted input before after added ∧
      ∃ merged, Adds (countedSigs input) before.entries merged added ∧ after.entries.Perm merged := by
  obtain ⟨merged, hloop, h⟩ := bind_eq_ok.mp h
  obtain ⟨added, hadds⟩ := foldlM_mergeSlot hloop
  have hperm : after.entries.Perm merged.entries := by
    by_cases hgrown : merged.entries.length ≠ before.entries.length
    · rw [if_pos hgrown] at h
      rw [← Except.ok.inj h]
      exact perm_swapSort _ merged.entries
    · rw [if_neg hgrown] at h
      rw [← Except.ok.inj h]
  have hlength : merged.entries.length = before.entries.length + added.length := by
    rw [hadds.entries, List.length_append]
  refine ⟨added, ⟨by rw [← hadds.entries]; exact hperm, fun hnil => ?_, fun hne => ?_, hadds.made,
    ⟨hadds.fresh, hadds.nodup⟩, fun slot hslot htagged => ?_⟩, merged.entries, hadds, hperm⟩
  · have hsame : merged.entries = before.entries := by
      rw [hadds.entries, hnil, List.append_nil]
    rw [if_neg (not_not_intro (congrArg List.length hsame))] at h
    rw [← Except.ok.inj h]
    cases merged
    cases before
    cases hsame
    rfl
  · have hgrown : merged.entries.length ≠ before.entries.length := by
      have hpos := List.length_pos_of_ne_nil hne
      omega
    rw [if_pos hgrown] at h
    rw [← Except.ok.inj h]
    exact swapSort_sorted (fun entry : IncomingPartialSig => entry.pubkey.val) merged.entries
  · obtain ⟨entry, hfind, hsignature⟩ := hadds.found slot hslot htagged
    have hkey := List.find?_some hfind
    exact ⟨entry, hperm.mem_iff.mpr (List.mem_of_find?_eq_some hfind), of_decide_eq_true hkey,
      hsignature⟩

/-- The keys are those of before and those of the tagged signatures. -/
theorem Promoted.union {input : TransactionInput} {before after : PartialSigs}
    {added : List IncomingPartialSig} (h : Promoted input before after added) (key : FixedBytes 33) :
    key ∈ keys after.entries ↔ key ∈ keys before.entries ∨
      ∃ slot ∈ countedSigs input, tagged slot = true ∧ slot.pubkeyCompressed = key := by
  have hkeys : (keys after.entries).Perm (keys before.entries ++ keys added) := by
    rw [keys, keys, keys, ← List.map_append]
    exact h.perm.map _
  rw [hkeys.mem_iff, List.mem_append]
  constructor
  · intro hmem
    cases hmem with
    | inl hbefore => exact .inl hbefore
    | inr hadded =>
      obtain ⟨entry, hentry, hkey⟩ := List.mem_map.mp hadded
      obtain ⟨slot, hslot, htagged, rfl⟩ := h.made entry hentry
      exact .inr ⟨slot, hslot, htagged, hkey⟩
  · intro hmem
    cases hmem with
    | inl hbefore => exact .inl hbefore
    | inr hslot =>
      obtain ⟨slot, hslot, htagged, hkey⟩ := hslot
      obtain ⟨entry, hentry, hsame, _⟩ := h.covers slot hslot htagged
      have hafter : key ∈ keys after.entries := List.mem_map.mpr ⟨entry, hentry, hsame.trans hkey⟩
      exact List.mem_append.mp (hkeys.mem_iff.mp hafter)

/-- Distinct keys stay distinct. -/
theorem Promoted.nodup {input : TransactionInput} {before after : PartialSigs}
    {added : List IncomingPartialSig} (h : Promoted input before after added)
    (hbefore : (keys before.entries).Nodup) : (keys after.entries).Nodup := by
  have hkeys : (keys after.entries).Perm (keys before.entries ++ keys added) := by
    rw [keys, keys, keys, ← List.map_append]
    exact h.perm.map _
  rw [hkeys.nodup_iff]
  refine List.nodup_append.mpr ⟨hbefore, h.fresh.2, fun key hkey other hother heq => ?_⟩
  obtain ⟨entry, hentry, hadded⟩ := List.mem_map.mp hother
  exact h.fresh.1 entry hentry (by rw [hadded, ← heq]; exact hkey)

/-- Among entries with distinct keys the order does not matter for finding one. -/
theorem found_of_perm {entries entries' : List IncomingPartialSig} {slot : InputSig}
    (hperm : entries'.Perm entries) (hnodup : (keys entries).Nodup) (h : Found entries slot) :
    Found entries' slot := by
  obtain ⟨entry, hfind, hsignature⟩ := h
  have hmem := List.mem_of_find?_eq_some hfind
  have hentry := List.find?_some hfind
  have hkey : entry.pubkey = slot.pubkeyCompressed := of_decide_eq_true hentry
  cases hfind' : entries'.find? (·.pubkey = slot.pubkeyCompressed) with
  | none =>
    have habsent := find?_eq_none_iff.mp hfind'
    exact absurd (List.mem_map.mpr ⟨entry, hperm.mem_iff.mpr hmem, hkey⟩) habsent
  | some other =>
    have hother := hperm.mem_iff.mp (List.mem_of_find?_eq_some hfind')
    have hfound := List.find?_some hfind'
    have hkey' : other.pubkey = slot.pubkeyCompressed := of_decide_eq_true hfound
    have hsame : other = entry := List.inj_on_of_nodup_map hnodup hother hmem (hkey'.trans hkey.symm)
    exact ⟨other, hfind', by rw [hsame]; exact hsignature⟩

/-- Merging again finds every key. -/
theorem mergedPartialSigs_again {input : TransactionInput} {before after : PartialSigs}
    (hbefore : (keys before.entries).Nodup) (h : mergedPartialSigs input before = .ok after) :
    mergedPartialSigs input after = .ok after := by
  obtain ⟨added, hpromoted, merged, hadds, hperm⟩ := mergedPartialSigs_spec h
  have hnodup : (keys merged).Nodup := by
    have hafter := hpromoted.nodup hbefore
    exact ((hperm.map _).nodup_iff).mp hafter
  have hloop : ∀ slots : List InputSig, (∀ slot ∈ slots, slot ∈ countedSigs input) →
      slots.foldlM mergeSlot after = .ok after := by
    intro slots hslots
    induction slots with
    | nil => rfl
    | cons slot slots ih =>
      have hslot := hslots slot List.mem_cons_self
      rw [List.foldlM_cons, mergeSlot_found fun htagged =>
        found_of_perm hperm hnodup (hadds.found slot hslot htagged)]
      exact ih fun other hother => hslots other (List.mem_cons_of_mem slot hother)
  rw [mergedPartialSigs, hloop (countedSigs input) fun _ hslot => hslot]
  exact congrArg Except.ok (if_neg (not_not_intro rfl))

/-! ## All inputs -/

theorem mergeInputs_forall {self : StandardTransaction} {merged : List PartialSigs}
    (h : mergeInputs self = .ok merged) : merged.length = self.tx.inputs.length ∧
      ∀ (i : Nat) (input : TransactionInput) (before after : PartialSigs),
        self.tx.inputs[i]? = some input → self.incoming[i]? = some before → merged[i]? = some after →
          mergedPartialSigs input before = .ok after := by
  have hall := mapM_forall₂ h
  have hlength := hall.length_eq
  rw [List.length_zip, self.incoming_length, Nat.min_self] at hlength
  refine ⟨hlength.symm, fun i input before after hinput hbefore hafter => ?_⟩
  obtain ⟨hi, rfl⟩ := List.getElem?_eq_some_iff.mp hinput
  obtain ⟨hi', rfl⟩ := List.getElem?_eq_some_iff.mp hbefore
  obtain ⟨hi'', rfl⟩ := List.getElem?_eq_some_iff.mp hafter
  have hzip : i < (self.tx.inputs.zip self.incoming).length := by
    rw [List.length_zip]
    omega
  have hpair := List.Forall₂.get hall hzip hi''
  simp only [List.get_eq_getElem, List.getElem_zip] at hpair
  exact hpair

/-- A move either fails and changes nothing, or puts what was merged in place. -/
theorem moveKspSigsToPskt_cases (self : StandardTransaction) :
    (∃ error, moveKspSigsToPskt self = (.error error, self)) ∨
      ∃ merged, mergeInputs self = .ok merged ∧ (moveKspSigsToPskt self).1 = .ok () ∧
        (moveKspSigsToPskt self).2.tx = self.tx ∧ (moveKspSigsToPskt self).2.incoming = merged := by
  rw [moveKspSigsToPskt]
  cases hmerge : mergeInputs self with
  | error error => exact .inl ⟨error, rfl⟩
  | ok merged =>
    refine .inr ⟨merged, rfl, ?_⟩
    dsimp only
    rw [dif_pos (mergeInputs_forall hmerge).1]
    exact ⟨rfl, rfl, rfl⟩

/-- The partial signatures of each input are those before and the new ones. -/
def AllPromoted (self after : StandardTransaction) : Prop :=
  ∀ (i : Nat) (input : TransactionInput) (old new : PartialSigs), self.tx.inputs[i]? = some input →
    self.incoming[i]? = some old → after.incoming[i]? = some new →
      (∃ added, Promoted input old new added) ∧
      (∀ key, key ∈ keys new.entries ↔ key ∈ keys old.entries ∨
        ∃ slot ∈ countedSigs input, tagged slot = true ∧ slot.pubkeyCompressed = key) ∧
      ((keys old.entries).Nodup → (keys new.entries).Nodup)

/-! ## Samples -/

def sampleKey (byte : UInt8) : FixedBytes 33 := ⟨List.replicate 33 byte, List.length_replicate⟩

def sampleSignature (byte : UInt8) : FixedBytes 64 := ⟨List.replicate 64 byte, List.length_replicate⟩

/-- One input with a signature of key 2, and some partial signatures that came with it. -/
def sampleInput : TransactionInput :=
  { TransactionInput.empty with
    sigs := SigSlots.empty.modify 0 fun _ => ⟨sampleSignature 2, 1, 0, true, sampleKey 2⟩
    sigCount := 1 }

def sampleTransaction (incoming : PartialSigs) : StandardTransaction :=
  ⟨{ Transaction.new .FORMAT with inputs := [sampleInput] }, [incoming], rfl⟩

def oneOfKeyThree : PartialSigs := ⟨[⟨sampleKey 3, sampleSignature 3, true⟩], by decide⟩

def twoOfKeyThree : PartialSigs :=
  ⟨[⟨sampleKey 3, sampleSignature 3, true⟩, ⟨sampleKey 3, sampleSignature 4, true⟩], by decide⟩

end SignaturePromotion

open SignaturePromotion

/-- A move fails and changes nothing, or merges the tagged signatures of every input into its
partial signatures by key and touches nothing else; and where no two partial signatures of an input
had one key, moving again changes nothing. -/
theorem signature_promotion (self : StandardTransaction) :
    (∀ error, (moveKspSigsToPskt self).1 = .error error → (moveKspSigsToPskt self).2 = self) ∧
    ((moveKspSigsToPskt self).1 = .ok () → (moveKspSigsToPskt self).2.tx = self.tx ∧
      AllPromoted self (moveKspSigsToPskt self).2) ∧
    ((moveKspSigsToPskt self).1 = .ok () →
      (∀ old ∈ self.incoming, (keys old.entries).Nodup) →
        moveKspSigsToPskt (moveKspSigsToPskt self).2 = (.ok (), (moveKspSigsToPskt self).2)) := by
  cases moveKspSigsToPskt_cases self with
  | inl herror =>
    obtain ⟨error, herror⟩ := herror
    rw [herror]
    exact ⟨fun _ _ => rfl, fun h => (nomatch h), fun h => (nomatch h)⟩
  | inr hmoved =>
    obtain ⟨merged, hmerge, hok, htx, hincoming⟩ := hmoved
    obtain ⟨hlength, hall⟩ := mergeInputs_forall hmerge
    refine ⟨fun error herror => (nomatch hok.symm.trans herror), fun _ => ⟨htx, ?_⟩, fun _ hnodup => ?_⟩
    · intro i input old new hinput hold hnew
      rw [hincoming] at hnew
      obtain ⟨added, hpromoted, _⟩ := mergedPartialSigs_spec (hall i input old new hinput hold hnew)
      exact ⟨⟨added, hpromoted⟩, hpromoted.union, hpromoted.nodup⟩
    · generalize (moveKspSigsToPskt self).2 = moved at htx hincoming ⊢
      have hagain : mergeInputs moved = .ok moved.incoming := by
        have hmap : moved.incoming = (moved.tx.inputs.zip moved.incoming).map Prod.snd := by
          rw [List.map_snd_zip]
          exact Nat.le_of_eq moved.incoming_length
        conv_rhs => rw [hmap]
        apply mapM_eq_map
        intro pair hpair
        obtain ⟨i, hi, hget⟩ := List.mem_iff_getElem.mp hpair
        rw [List.length_zip] at hi
        rw [List.getElem_zip] at hget
        have hold : i < self.incoming.length := by
          rw [self.incoming_length, ← htx]
          omega
        have hfirst := hall i pair.1 self.incoming[i] pair.2
          (by rw [← htx, ← hget]; exact List.getElem?_eq_getElem (by omega))
          (List.getElem?_eq_getElem hold)
          (by rw [← hincoming, ← hget]; exact List.getElem?_eq_getElem (by omega))
        exact mergedPartialSigs_again (hnodup _ (List.getElem_mem hold)) hfirst
      rw [moveKspSigsToPskt, hagain]
      exact dif_pos moved.incoming_length

theorem signature_promotion_sample :
    moveKspSigsToPskt (moveKspSigsToPskt (sampleTransaction oneOfKeyThree)).2 =
      (.ok (), (moveKspSigsToPskt (sampleTransaction oneOfKeyThree)).2) := by
  refine (signature_promotion (sampleTransaction oneOfKeyThree)).2.2 (by decide)
    fun old hold => ?_
  rw [List.mem_singleton.mp hold]
  exact List.nodup_singleton _

/-- Two partial signatures of one key that came with an input are both kept. -/
theorem duplicate_keys_kept :
    (moveKspSigsToPskt (sampleTransaction twoOfKeyThree)).1 = .ok () ∧
      (moveKspSigsToPskt (sampleTransaction twoOfKeyThree)).2.incoming.map
        (fun incoming => keys incoming.entries) = [[sampleKey 2, sampleKey 3, sampleKey 3]] := by
  constructor <;> decide

end KaspaPortal.Guarantees
