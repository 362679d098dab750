import Mathlib.Data.List.Perm.Basic
import KaspaPortal.Wallet.Multisig.Grammar

/-!
# Participants in another order

What a parser with room for its participants makes of them, and of the same participants in another
order: HD45 descriptors parse as one wallet, HD44 descriptors as a permutation of it.
-/
namespace KaspaPortal.Wallet.Multisig
open Lib

section slots
variable {α : Type} {capacity : Nat} {read : Bytes → Except MultisigDescriptorError α}

theorem foldlM_readSlot_iff (hcapacity : capacity ≤ 255) {texts : List Bytes} {kept slots : List α}
    (hkept : kept.length ≤ capacity) :
    texts.foldlM (readSlot capacity read) kept = .ok slots ↔
      kept.length + texts.length ≤ capacity ∧
        ∃ added, slots = kept ++ added ∧ List.Forall₂ (fun text slot => read text = .ok slot) texts added := by
  induction texts generalizing kept with
  | nil =>
    constructor
    · intro h
      cases h
      exact ⟨hkept, [], (List.append_nil _).symm, List.Forall₂.nil⟩
    · intro h
      obtain ⟨_, added, rfl, hnil⟩ := h
      cases hnil
      rw [List.append_nil]
      rfl
  | cons text texts ih =>
    rw [List.foldlM_cons, bind_eq_ok]
    constructor
    · intro h
      obtain ⟨next, hstep, hrest⟩ := h
      rw [readSlot] at hstep
      simp only [bind_eq_ok, rejectIf_eq_ok, not_le] at hstep
      obtain ⟨_, hroom, participant, hparticipant, hnext⟩ := hstep
      cases hnext
      rw [nextSlots, if_neg (by omega)] at hrest
      obtain ⟨hlength, added, rfl, hadded⟩ := (ih (by rw [List.length_append]; exact hroom)).mp hrest
      rw [List.length_append, List.length_singleton] at hlength
      rw [List.length_cons]
      refine ⟨by omega, participant :: added, by rw [List.append_assoc]; rfl, List.Forall₂.cons hparticipant hadded⟩
    · intro h
      obtain ⟨hlength, added, rfl, hadded⟩ := h
      cases hadded with
      | cons hparticipant hadded =>
        rename_i participant added
        rw [List.length_cons] at hlength
        refine ⟨nextSlots kept participant, ?_, ?_⟩
        · rw [readSlot]
          simp only [bind_eq_ok, rejectIf_eq_ok, not_le]
          exact ⟨(), by omega, participant, hparticipant, rfl⟩
        · rw [nextSlots, if_neg (by omega)]
          apply (ih (by rw [List.length_append, List.length_singleton]; omega)).mpr
          rw [List.length_append, List.length_singleton]
          exact ⟨by omega, added, by rw [List.append_assoc]; rfl, hadded⟩

/-- The participants are read when there is room for them and each can be read. -/
theorem readParticipants_iff (hcapacity : capacity ≤ 255) {texts : List Bytes} {slots : List α} :
    readParticipants capacity read texts = .ok slots ↔
      texts.length ≤ capacity ∧ List.Forall₂ (fun text slot => read text = .ok slot) texts slots := by
  rw [readParticipants, foldlM_readSlot_iff hcapacity (Nat.zero_le _)]
  simp

/-- In another order they are read as the same participants in another order. -/
theorem readParticipants_perm (hcapacity : capacity ≤ 255) {texts texts' : List Bytes} {slots : List α}
    (h : readParticipants capacity read texts = .ok slots) (hperm : texts.Perm texts') :
    ∃ slots', readParticipants capacity read texts' = .ok slots' ∧ slots.Perm slots' := by
  obtain ⟨hlength, hslots⟩ := (readParticipants_iff hcapacity).mp h
  obtain ⟨slots', hslots', hperm'⟩ := List.perm_comp_forall₂ hperm.symm hslots
  rw [hperm.length_eq] at hlength
  exact ⟨slots', (readParticipants_iff hcapacity).mpr ⟨hlength, hslots'⟩, hperm'.symm⟩

/-- A greater capacity reads no participant differently. -/
theorem readParticipants_mono {capacity' : Nat} (hle : capacity ≤ capacity') (hcapacity : capacity' ≤ 255)
    {texts : List Bytes} {slots : List α} (h : readParticipants capacity read texts = .ok slots) :
    readParticipants capacity' read texts = .ok slots := by
  obtain ⟨hlength, hslots⟩ := (readParticipants_iff (hle.trans hcapacity)).mp h
  exact (readParticipants_iff hcapacity).mpr ⟨hlength.trans hle, hslots⟩

end slots

/-! ## HD44 -/

section hd
variable {capacity : Nat} {remaining remaining' : Bytes} {participants : List Participant}

theorem parseHd44Participants_perm (hcapacity : capacity ≤ 255)
    (h : parseHd44Participants capacity remaining = .ok participants)
    (hperm : (parts remaining).Perm (parts remaining')) :
    ∃ participants', parseHd44Participants capacity remaining' = .ok participants' ∧
      participants.Perm participants' := by
  have hunique := parseHd44Participants_ok h
  rw [parseHd44Participants] at h
  obtain ⟨slots, hslots, h⟩ := bind_eq_ok.mp h
  obtain ⟨_, _, heq⟩ := bind_eq_ok.mp h
  cases heq
  obtain ⟨slots', hslots', hperm'⟩ := readParticipants_perm hcapacity hslots hperm
  refine ⟨slots', ?_, hperm'⟩
  rw [parseHd44Participants]
  simp only [bind_eq_ok, rejectIf_eq_ok]
  refine ⟨slots', hslots', (), ?_, rfl⟩
  rw [Bool.not_eq_true, hasDuplicate_eq_false]
  exact (hperm'.map _).nodup_iff.mp hunique

theorem parseHd44Participants_mono {capacity' : Nat} (hle : capacity ≤ capacity') (hcapacity : capacity' ≤ 255)
    (h : parseHd44Participants capacity remaining = .ok participants) :
    parseHd44Participants capacity' remaining = .ok participants := by
  rw [parseHd44Participants, bind_eq_ok] at h
  obtain ⟨slots, hslots, hrest⟩ := h
  rw [parseHd44Participants, readParticipants_mono hle hcapacity hslots]
  exact hrest

/-! ## HD45 -/

/-- The canonical order of the texts does not depend on the order they came in. -/
theorem parseHd45Participants_perm (hcapacity : capacity ≤ 255)
    (h : parseHd45Participants capacity remaining = .ok participants)
    (hperm : (parts remaining).Perm (parts remaining')) :
    parseHd45Participants capacity remaining' = .ok participants := by
  rw [parseHd45Participants, bind_eq_ok] at h
  obtain ⟨slots, hslots, hrest⟩ := h
  obtain ⟨slots', hslots', hperm'⟩ := readParticipants_perm hcapacity hslots hperm
  have hkey : ∀ slot ∈ slots, ∀ slot' ∈ slots, slot.1 = slot'.1 → slot = slot' := by
    obtain ⟨_, hread⟩ := slots_of_texts (readParticipants_ok hslots)
    intro slot hmem slot' hmem' htext
    have hslot := hread slot hmem
    rw [htext, hread slot' hmem'] at hslot
    exact (Except.ok.inj hslot).symm
  rw [parseHd45Participants, hslots']
  rw [swapSort_perm Prod.fst hperm' hkey] at hrest
  exact hrest

theorem parseHd45Participants_mono {capacity' : Nat} (hle : capacity ≤ capacity') (hcapacity : capacity' ≤ 255)
    (h : parseHd45Participants capacity remaining = .ok participants) :
    parseHd45Participants capacity' remaining = .ok participants := by
  rw [parseHd45Participants, bind_eq_ok] at h
  obtain ⟨slots, hslots, hrest⟩ := h
  rw [parseHd45Participants, readParticipants_mono hle hcapacity hslots]
  exact hrest

end hd

/-! ## Whole descriptors -/

/-- Two texts of one kind and threshold whose participants are the same in some order. -/
def PermutedParticipants (data data' : Bytes) : Prop :=
  ∃ kind threshold rest rest', descriptorParts data = .ok (kind, threshold, rest) ∧
    descriptorParts data' = .ok (kind, threshold, rest') ∧ (parts rest).Perm (parts rest')

section descriptor
variable {capacity : Nat} {data data' : Bytes} {parsed : ParsedMultisigDescriptor}

theorem parseMultisigDescriptor_ok :
    parseMultisigDescriptor capacity data = .ok parsed ↔ ∃ kind threshold rest,
      descriptorParts data = .ok (kind, threshold, rest) ∧
        parseDescriptorParticipants capacity kind threshold rest = .ok parsed ∧
        validateDescriptorThreshold parsed = .ok () := by
  rw [parseMultisigDescriptor]
  simp only [bind_eq_ok]
  constructor
  · intro h
    obtain ⟨⟨kind, threshold, rest⟩, hparts, descriptor, hread, _, hvalid, heq⟩ := h
    cases heq
    exact ⟨kind, threshold, rest, hparts, hread, hvalid⟩
  · intro h
    obtain ⟨kind, threshold, rest, hparts, hread, hvalid⟩ := h
    exact ⟨_, hparts, parsed, hread, (), hvalid, rfl⟩

/-- A greater capacity parses no descriptor differently. -/
theorem parseMultisigDescriptor_mono {capacity' : Nat} (hle : capacity ≤ capacity') (hcapacity : capacity' ≤ 255)
    (hkind : parsed.kind ≠ .static) (h : parseMultisigDescriptor capacity data = .ok parsed) :
    parseMultisigDescriptor capacity' data = .ok parsed := by
  obtain ⟨kind, threshold, rest, hparts, hread, hvalid⟩ := parseMultisigDescriptor_ok.mp h
  refine parseMultisigDescriptor_ok.mpr ⟨kind, threshold, rest, hparts, ?_, hvalid⟩
  cases kind with
  | static =>
    obtain ⟨keys, _, heq⟩ := bind_eq_ok.mp hread
    cases heq
    exact absurd rfl hkind
  | hd44 =>
    obtain ⟨hd, hhd, heq⟩ := bind_eq_ok.mp hread
    exact bind_eq_ok.mpr ⟨hd, parseHd44Participants_mono hle hcapacity hhd, heq⟩
  | hd45 =>
    obtain ⟨hd, hhd, heq⟩ := bind_eq_ok.mp hread
    exact bind_eq_ok.mpr ⟨hd, parseHd45Participants_mono hle hcapacity hhd, heq⟩

/-- The same participants in another order make the same wallet: the very same one under HD45, one
with its participants in another order under HD44. -/
theorem parseMultisigDescriptor_perm (hcapacity : capacity ≤ 255) (hkind : parsed.kind ≠ .static)
    (h : parseMultisigDescriptor capacity data = .ok parsed) (hperm : PermutedParticipants data data') :
    ∃ parsed', parseMultisigDescriptor capacity data' = .ok parsed' ∧ parsed'.kind = parsed.kind ∧
      parsed'.threshold = parsed.threshold ∧ parsed'.participantCount = parsed.participantCount ∧
      parsed.participants.Perm parsed'.participants ∧
      (parsed.kind = .hd45 → parsed'.participants = parsed.participants) := by
  obtain ⟨kind, threshold, rest, hparts, hread, hvalid⟩ := parseMultisigDescriptor_ok.mp h
  obtain ⟨kind', threshold', rest₁, rest', hparts₁, hparts', hrest⟩ := hperm
  rw [hparts] at hparts₁
  cases hparts₁
  cases kind with
  | static =>
    obtain ⟨keys, _, heq⟩ := bind_eq_ok.mp hread
    cases heq
    exact absurd rfl hkind
  | hd44 =>
    obtain ⟨hd, hhd, heq⟩ := bind_eq_ok.mp hread
    cases heq
    obtain ⟨hd', hhd', hpermuted⟩ := parseHd44Participants_perm hcapacity hhd hrest
    refine ⟨⟨threshold, UInt8.ofNat hd.length, .hd44, [], hd'⟩, ?_, rfl, rfl, rfl, hpermuted, fun h => by cases h⟩
    refine parseMultisigDescriptor_ok.mpr ⟨.hd44, threshold, rest', hparts', ?_, hvalid⟩
    exact bind_eq_ok.mpr ⟨hd', hhd', by rw [hpermuted.length_eq]; rfl⟩
  | hd45 =>
    obtain ⟨hd, hhd, heq⟩ := bind_eq_ok.mp hread
    cases heq
    refine ⟨_, parseMultisigDescriptor_ok.mpr ⟨.hd45, threshold, rest', hparts', ?_, hvalid⟩, rfl, rfl, rfl,
      List.Perm.refl _, fun _ => rfl⟩
    exact bind_eq_ok.mpr ⟨hd, parseHd45Participants_perm hcapacity hhd hrest, rfl⟩

theorem readParticipants_length {α : Type} {read : Bytes → Except MultisigDescriptorError α} {texts : List Bytes}
    {slots : List α} (hcapacity : capacity ≤ 255) (h : readParticipants capacity read texts = .ok slots) :
    slots.length ≤ capacity := by
  obtain ⟨hlength, hslots⟩ := (readParticipants_iff hcapacity).mp h
  rwa [hslots.length_eq] at hlength

/-- What the device and the scripts need of an accepted hierarchical descriptor. -/
theorem parseMultisigDescriptor_shape (hcapacity : capacity ≤ 255) (hkind : parsed.kind ≠ .static)
    (h : parseMultisigDescriptor capacity data = .ok parsed) :
    parsed.participants.length ≤ capacity ∧
      parsed.participantCount = UInt8.ofNat parsed.participants.length ∧
      2 ≤ parsed.participantCount ∧ 1 ≤ parsed.threshold ∧ parsed.threshold ≤ parsed.participantCount := by
  obtain ⟨kind, threshold, rest, _, hread, hvalid⟩ := parseMultisigDescriptor_ok.mp h
  rw [validateDescriptorThreshold] at hvalid
  simp only [bind_eq_ok, rejectIf_eq_ok, not_or] at hvalid
  obtain ⟨_, hcount, hzero, hthreshold⟩ := hvalid
  have hrange : 2 ≤ parsed.participantCount ∧ 1 ≤ parsed.threshold ∧
      parsed.threshold ≤ parsed.participantCount := by
    refine ⟨UInt8.not_lt.mp hcount, ?_, UInt8.not_lt.mp hthreshold⟩
    rw [UInt8.le_iff_toNat_le]
    have hne : parsed.threshold.toNat ≠ 0 := fun hnat => hzero (UInt8.toNat_inj.mp hnat)
    exact Nat.one_le_iff_ne_zero.mpr hne
  cases kind with
  | static =>
    obtain ⟨keys, _, heq⟩ := bind_eq_ok.mp hread
    cases heq
    exact absurd rfl hkind
  | hd44 =>
    obtain ⟨hd, hhd, heq⟩ := bind_eq_ok.mp hread
    cases heq
    rw [parseHd44Participants] at hhd
    obtain ⟨slots, hslots, hhd⟩ := bind_eq_ok.mp hhd
    obtain ⟨_, _, heq⟩ := bind_eq_ok.mp hhd
    cases heq
    exact ⟨readParticipants_length hcapacity hslots, rfl, hrange⟩
  | hd45 =>
    obtain ⟨hd, hhd, heq⟩ := bind_eq_ok.mp hread
    cases heq
    obtain ⟨slots, hslots, rfl, _⟩ := parseHd45Participants_ok hhd
    refine ⟨?_, rfl, hrange⟩
    rw [List.length_map, (perm_swapSort Prod.fst slots).length_eq]
    exact readParticipants_length hcapacity hslots

end descriptor

end KaspaPortal.Wallet.Multisig
