import KaspaPortal.Lib.Result
import KaspaPortal.Randomness.Evidence

/-!
# Observed blocks as evidence

A buffer holds the last blocks it admitted. The encoder takes them when their scores do
not decrease. The buffer compares a score with the last block's only, so a block
without a score lets a lower one in behind it.

Finality is what the source says of a block. Nothing relates the hashes of a buffer to
one another.
-/
namespace KaspaPortal.Randomness
open Lib

/-! ## Runs of a buffer -/

namespace KaspaBlockBuffer

/-- The buffer after a push, accepted or not. -/
def pushed (self : KaspaBlockBuffer) (value : KaspaEntropyEvidence) : KaspaBlockBuffer :=
  (self.push value).toOption.getD self

def pushAll (self : KaspaBlockBuffer) (values : List KaspaEntropyEvidence) : KaspaBlockBuffer :=
  values.foldl pushed self

/-- An accepted block that is not the last one again. -/
def Admits (self : KaspaBlockBuffer) (value : KaspaEntropyEvidence) : Prop :=
  value.validate = .ok () ∧ self.repeats value = false ∧ self.backwards value = false

instance instDecidableAdmits (self : KaspaBlockBuffer) (value : KaspaEntropyEvidence) :
    Decidable (self.Admits value) :=
  inferInstanceAs (Decidable (_ ∧ _ ∧ _))

/-- The admitted blocks of a run, in order. -/
def admitted (self : KaspaBlockBuffer) : List KaspaEntropyEvidence → List KaspaEntropyEvidence
  | [] => []
  | value :: rest =>
    if self.Admits value then value :: (self.pushed value).admitted rest
    else (self.pushed value).admitted rest

/-- A block that would be admitted scores no less than any block still in the buffer. -/
def Follows (self : KaspaBlockBuffer) (value : KaspaEntropyEvidence) : Prop :=
  self.Admits value → ∀ earlier ∈ self.inner, ∀ previous ∈ earlier.daaScore,
    ∀ current ∈ value.daaScore, previous ≤ current

def FollowsAll (self : KaspaBlockBuffer) : List KaspaEntropyEvidence → Prop
  | [] => True
  | value :: rest => self.Follows value ∧ (self.pushed value).FollowsAll rest

theorem pushed_of_admits {self : KaspaBlockBuffer} {value : KaspaEntropyEvidence}
    (h : self.Admits value) :
    self.pushed value = { self with inner := keepLast self.capacity (self.inner ++ [value]) } := by
  obtain ⟨hvalid, hrepeats, hbackwards⟩ := h
  have hpush : self.push value =
      .ok { self with inner := keepLast self.capacity (self.inner ++ [value]) } := by
    rw [push, hvalid, hrepeats, hbackwards]
    rfl
  rw [pushed, hpush]
  rfl

theorem pushed_of_not_admits {self : KaspaBlockBuffer} {value : KaspaEntropyEvidence}
    (h : ¬ self.Admits value) : self.pushed value = self := by
  cases hpush : self.push value with
  | error e =>
    rw [pushed, hpush]
    rfl
  | ok after =>
    rw [pushed, hpush]
    change after = self
    rw [push] at hpush
    obtain ⟨_, hvalid, hpush⟩ := bind_eq_ok.mp hpush
    split at hpush
    case isTrue =>
      cases hpush
      rfl
    case isFalse hrepeats =>
      obtain ⟨_, hbackwards, _⟩ := bind_eq_ok.mp hpush
      have hbackwards := rejectIf_eq_ok.mp hbackwards
      rw [Bool.not_eq_true] at hrepeats hbackwards
      exact absurd ⟨hvalid, hrepeats, hbackwards⟩ h

@[simp] theorem pushed_capacity (self : KaspaBlockBuffer) (value : KaspaEntropyEvidence) :
    (self.pushed value).capacity = self.capacity := by
  by_cases h : self.Admits value
  · rw [pushed_of_admits h]
  · rw [pushed_of_not_admits h]

@[simp] theorem pushAll_capacity (self : KaspaBlockBuffer) (values : List KaspaEntropyEvidence) :
    (self.pushAll values).capacity = self.capacity := by
  induction values generalizing self with
  | nil => rfl
  | cons value rest ih => exact (ih (self.pushed value)).trans (self.pushed_capacity value)

/-- A run keeps the last blocks it admitted. -/
theorem pushAll_inner (self : KaspaBlockBuffer) (values : List KaspaEntropyEvidence)
    (h : self.inner.length ≤ self.capacity) :
    (self.pushAll values).inner = keepLast self.capacity (self.inner ++ self.admitted values) := by
  induction values generalizing self with
  | nil =>
    rw [admitted, List.append_nil, keepLast_of_le h]
    rfl
  | cons value rest ih =>
    change ((self.pushed value).pushAll rest).inner = _
    rw [admitted]
    by_cases hadmits : self.Admits value
    · have hlen : (self.pushed value).inner.length ≤ (self.pushed value).capacity := by
        rw [pushed_of_admits hadmits]
        exact length_keepLast _ _
      rw [ih _ hlen, if_pos hadmits, pushed_capacity, pushed_of_admits hadmits]
      change keepLast self.capacity (keepLast self.capacity (self.inner ++ [value]) ++ _) = _
      rw [keepLast_keepLast_append, List.append_assoc, List.singleton_append]
    · rw [if_neg hadmits, pushed_of_not_admits hadmits]
      exact ih self h

theorem recent_eq_ok {self : KaspaBlockBuffer} {count : Nat} {list : List KaspaEntropyEvidence} :
    self.recent count = .ok list ↔ 0 < count ∧ count ≤ self.capacity ∧
      count ≤ self.inner.length ∧ list = keepLast count self.inner := by
  rw [recent, bind_eq_ok]
  simp only [rejectIf_eq_ok, bind_eq_ok, exists_and_left, exists_const, keepLast]
  constructor
  · intro h
    obtain ⟨hbounds, hlength, hlist⟩ := h
    cases hlist
    exact ⟨by omega, by omega, by omega, rfl⟩
  · intro h
    obtain ⟨hpos, hcapacity, hlength, hlist⟩ := h
    exact ⟨by omega, by omega, by rw [hlist]; rfl⟩

end KaspaBlockBuffer

/-! ## What the encoder takes -/

/-- The scores that are present, in order. -/
def scores (kaspa : List KaspaEntropyEvidence) : List UInt64 :=
  kaspa.filterMap KaspaEntropyEvidence.daaScore

theorem ensureMonotonic_eq_ok {previous current : Option UInt64} :
    ensureMonotonic previous current = .ok () ↔ ∀ p ∈ previous, ∀ c ∈ current, p ≤ c := by
  rw [ensureMonotonic, rejectIf_eq_ok]
  cases previous with
  | none => simp
  | some p =>
    cases current with
    | none => simp
    | some c => simp

/-- A score seen before bounds what follows, and so does every score on the way. -/
theorem appendKaspaFrom_isOk (previous : Option UInt64) (kaspa : List KaspaEntropyEvidence) :
    (∃ bytes, appendKaspaFrom previous kaspa = .ok bytes) ↔
      (∀ evidence ∈ kaspa, evidence.validate = .ok ()) ∧
        (previous.toList ++ scores kaspa).Pairwise (· ≤ ·) := by
  induction kaspa generalizing previous with
  | nil =>
    have hscores : (previous.toList ++ scores []).Pairwise (· ≤ ·) := by
      cases previous <;> simp [scores]
    exact ⟨fun _ => ⟨by simp, hscores⟩, fun _ => ⟨[], rfl⟩⟩
  | cons evidence rest ih =>
    have hstep : (∃ bytes, appendKaspaFrom previous (evidence :: rest) = .ok bytes) ↔
        evidence.validate = .ok () ∧ ensureMonotonic previous evidence.daaScore = .ok () ∧
          ∃ bytes, appendKaspaFrom (evidence.daaScore.or previous) rest = .ok bytes := by
      rw [appendKaspaFrom]
      simp only [bind_eq_ok]
      constructor
      · intro h
        obtain ⟨_, _, hvalid, _, hmonotonic, tail, htail, _⟩ := h
        exact ⟨hvalid, hmonotonic, tail, htail⟩
      · intro h
        obtain ⟨hvalid, hmonotonic, tail, htail⟩ := h
        exact ⟨_, (), hvalid, (), hmonotonic, tail, htail, rfl⟩
    have hscores : scores (evidence :: rest) = evidence.daaScore.toList ++ scores rest := by
      cases hscore : evidence.daaScore with
      | none => rw [scores, List.filterMap_cons_none hscore]; rfl
      | some score => rw [scores, List.filterMap_cons_some hscore]; rfl
    rw [hstep, ih, ensureMonotonic_eq_ok, List.forall_mem_cons, hscores, and_assoc]
    refine and_congr_right fun _ => ?_
    rw [and_left_comm]
    refine and_congr_right fun _ => ?_
    -- The score before the first present one is compared with that one only.
    cases previous with
    | none => cases evidence.daaScore <;> simp
    | some p =>
      cases evidence.daaScore with
      | none => simp
      | some c =>
        simp only [Option.mem_some_iff, forall_eq', Option.some_or, Option.toList_some,
          List.cons_append, List.nil_append, List.pairwise_cons, List.mem_cons, forall_eq_or_imp]
        exact ⟨fun h => ⟨⟨h.1, fun a ha => UInt64.le_trans h.1 (h.2.1 a ha)⟩, h.2⟩,
          fun h => ⟨h.1.1, h.2⟩⟩

theorem canonicalEvidence_isOk (network : NetworkId) (kaspa : List KaspaEntropyEvidence)
    (curby : Option CurbyEvidence) :
    (canonicalEvidence network kaspa curby).isOk = true ↔
      (kaspa ≠ [] ∧ kaspa.length ≤ 256) ∧ (∀ evidence ∈ kaspa, evidence.validate = .ok ()) ∧
        (scores kaspa).Pairwise (· ≤ ·) ∧ ∀ evidence ∈ curby, evidence.validate = .ok () := by
  have hkaspa := appendKaspaFrom_isOk none kaspa
  rw [Option.toList_none, List.nil_append] at hkaspa
  have hcurby : (∃ bytes, appendCurbyEvidence curby = .ok bytes) ↔
      ∀ evidence ∈ curby, evidence.validate = .ok () := by
    cases curby with
    | none => exact ⟨fun _ => by simp, fun _ => ⟨[0], rfl⟩⟩
    | some evidence =>
      rw [appendCurbyEvidence]
      simp only [bind_eq_ok, Option.mem_some_iff, forall_eq']
      exact ⟨fun h => h.choose_spec.choose_spec.1, fun h => ⟨_, (), h, rfl⟩⟩
  have hok : (canonicalEvidence network kaspa curby).isOk = true ↔
      validateKaspaCount kaspa = .ok () ∧ (∃ bytes, appendKaspaEvidence kaspa = .ok bytes) ∧
        ∃ bytes, appendCurbyEvidence curby = .ok bytes := by
    constructor
    · intro h
      obtain ⟨evidence, hevidence⟩ := exists_ok h
      rw [canonicalEvidence] at hevidence
      obtain ⟨_, hcount, hevidence⟩ := bind_eq_ok.mp hevidence
      obtain ⟨kaspaBytes, hkaspaBytes, hevidence⟩ := bind_eq_ok.mp hevidence
      obtain ⟨curbyBytes, hcurbyBytes, _⟩ := bind_eq_ok.mp hevidence
      exact ⟨hcount, ⟨kaspaBytes, hkaspaBytes⟩, curbyBytes, hcurbyBytes⟩
    · intro h
      obtain ⟨hcount, ⟨kaspaBytes, hkaspaBytes⟩, curbyBytes, hcurbyBytes⟩ := h
      rw [canonicalEvidence, hcount, hkaspaBytes, hcurbyBytes]
      rfl
  have hcount : validateKaspaCount kaspa = .ok () ↔ kaspa ≠ [] ∧ kaspa.length ≤ 256 := by
    rw [validateKaspaCount, bind_eq_ok]
    simp only [rejectIf_eq_ok, exists_const, Nat.not_lt]
  rw [hok, hcount, appendKaspaEvidence, hkaspa, hcurby]
  exact and_congr_right fun _ => and_assoc

/-! ## Runs that stay in order -/

namespace KaspaBlockBuffer

theorem scores_sublist {kaspa list : List KaspaEntropyEvidence} (h : kaspa.Sublist list) :
    (scores kaspa).Sublist (scores list) := h.filterMap _

/-- What a buffer keeps: blocks that are valid, no more than its capacity. -/
structure Holds (buffer : KaspaBlockBuffer) : Prop where
  length_le : buffer.inner.length ≤ buffer.capacity
  capacity_le : buffer.capacity ≤ 256
  valid : ∀ evidence ∈ buffer.inner, evidence.validate = .ok ()

theorem Holds.pushed {self : KaspaBlockBuffer} (h : self.Holds) (value : KaspaEntropyEvidence) :
    (self.pushed value).Holds := by
  by_cases hadmits : self.Admits value
  · rw [pushed_of_admits hadmits]
    refine ⟨length_keepLast _ _, h.capacity_le, fun evidence hevidence => ?_⟩
    have hmem := (keepLast_sublist _ _).subset hevidence
    rw [List.mem_append, List.mem_singleton] at hmem
    cases hmem with
    | inl hmem => exact h.valid _ hmem
    | inr heq => exact heq ▸ hadmits.1
  · rwa [pushed_of_not_admits hadmits]

theorem Holds.pushAll {self : KaspaBlockBuffer} (h : self.Holds)
    (values : List KaspaEntropyEvidence) : (self.pushAll values).Holds := by
  induction values generalizing self with
  | nil => exact h
  | cons value rest ih => exact ih (h.pushed value)

theorem pushed_ordered {self : KaspaBlockBuffer} {value : KaspaEntropyEvidence}
    (hordered : (scores self.inner).Pairwise (· ≤ ·)) (hfollows : self.Follows value) :
    (scores (self.pushed value).inner).Pairwise (· ≤ ·) := by
  by_cases hadmits : self.Admits value
  · rw [pushed_of_admits hadmits]
    apply List.Pairwise.sublist (scores_sublist (keepLast_sublist _ _))
    rw [scores, List.filterMap_append, List.pairwise_append]
    refine ⟨hordered, ?_, fun previous hprevious current hcurrent => ?_⟩
    · cases hscore : value.daaScore <;> simp [hscore]
    · obtain ⟨earlier, hearlier, hscore⟩ := List.mem_filterMap.mp hprevious
      have hcurrent : value.daaScore = some current := by simpa using hcurrent
      exact hfollows hadmits earlier hearlier previous hscore current hcurrent
  · rwa [pushed_of_not_admits hadmits]

theorem pushAll_ordered {self : KaspaBlockBuffer} {values : List KaspaEntropyEvidence}
    (hordered : (scores self.inner).Pairwise (· ≤ ·)) (hfollows : self.FollowsAll values) :
    (scores (self.pushAll values).inner).Pairwise (· ≤ ·) := by
  induction values generalizing self with
  | nil => exact hordered
  | cons value rest ih => exact ih (pushed_ordered hordered hfollows.1) hfollows.2

/-- Every list a buffer gives out is usable when its scores do not decrease. -/
theorem Holds.usable_iff {self : KaspaBlockBuffer} (h : self.Holds) :
    (∀ count list, self.recent count = .ok list → ∀ network curby,
        (∀ evidence ∈ curby, evidence.validate = .ok ()) →
          (canonicalEvidence network list curby).isOk = true) ↔
      (scores self.inner).Pairwise (· ≤ ·) := by
  constructor
  · intro husable
    by_cases hnil : self.inner = []
    · rw [hnil]
      exact List.Pairwise.nil
    · have hall : self.recent self.inner.length = .ok self.inner :=
        recent_eq_ok.mpr ⟨List.length_pos_iff.mpr hnil, h.length_le, Nat.le_refl _,
          (keepLast_of_le (Nat.le_refl _)).symm⟩
      have hok := husable _ _ hall .mainnet none (by simp)
      exact ((canonicalEvidence_isOk _ _ _).mp hok).2.2.1
  · intro hordered count list hrecent network curby hcurby
    obtain ⟨hpos, hcapacity, hlength, hlist⟩ := recent_eq_ok.mp hrecent
    have hsub : list.Sublist self.inner := hlist ▸ keepLast_sublist _ _
    have hcount : list.length = count := by
      rw [hlist, keepLast, List.length_drop]
      omega
    refine (canonicalEvidence_isOk _ _ _).mpr ⟨⟨?_, ?_⟩, fun evidence hevidence => ?_, ?_, hcurby⟩
    · exact List.length_pos_iff.mp (by omega)
    · have hcapacity' := h.capacity_le
      omega
    · exact h.valid _ (hsub.subset hevidence)
    · exact hordered.sublist (scores_sublist hsub)

end KaspaBlockBuffer

end KaspaPortal.Randomness

namespace KaspaPortal.Guarantees
open Lib Randomness

/-- A buffer gives out the last admitted blocks in order. The encoder takes all it gives out if and
only if the scores in it do not decrease, which they do not when every admitted block
scores no less than the blocks still there. -/
theorem observed_blocks {capacity : Nat} {buffer : KaspaBlockBuffer}
    (hnew : KaspaBlockBuffer.new capacity = .ok buffer) (values : List KaspaEntropyEvidence) :
    (∀ count list, (buffer.pushAll values).recent count = .ok list →
      list = keepLast count (buffer.admitted values) ∧ list.length = count) ∧
    ((∀ count list, (buffer.pushAll values).recent count = .ok list → ∀ network curby,
        (∀ evidence ∈ curby, evidence.validate = .ok ()) →
          (canonicalEvidence network list curby).isOk = true) ↔
      (scores (buffer.pushAll values).inner).Pairwise (· ≤ ·)) ∧
    (buffer.FollowsAll values →
      ∀ count list, (buffer.pushAll values).recent count = .ok list → ∀ network curby,
        (∀ evidence ∈ curby, evidence.validate = .ok ()) →
          (canonicalEvidence network list curby).isOk = true) := by
  obtain ⟨_, hbounds, hbuffer⟩ := bind_eq_ok.mp hnew
  have hbounds := rejectIf_eq_ok.mp hbounds
  rw [not_not] at hbounds
  cases hbuffer
  have hholds : (KaspaBlockBuffer.mk [] capacity).Holds :=
    ⟨Nat.zero_le _, hbounds.2, by simp⟩
  have husable := (hholds.pushAll values).usable_iff
  refine ⟨fun count list hrecent => ?_, husable, fun hfollows => husable.mpr ?_⟩
  · obtain ⟨hpos, hcapacity, hlength, hlist⟩ := KaspaBlockBuffer.recent_eq_ok.mp hrecent
    rw [KaspaBlockBuffer.pushAll_capacity] at hcapacity
    constructor
    · rw [hlist, KaspaBlockBuffer.pushAll_inner _ _ (Nat.zero_le _)]
      exact keepLast_keepLast hcapacity _
    · rw [hlist, keepLast, List.length_drop]
      omega
  · exact KaspaBlockBuffer.pushAll_ordered List.Pairwise.nil hfollows

namespace ObservedBlocks

/-- A finalized block with a one-byte hash. -/
def block (hash : UInt8) (daaScore : Option UInt64) : KaspaEntropyEvidence where
  blockHash := ⟨List.replicate 32 hash, List.length_replicate⟩
  daaScore := daaScore
  finalized := true

end ObservedBlocks

open ObservedBlocks

/-- A block without a score lets a lower score in behind it. -/
theorem observed_blocks_drop :
    ∃ buffer, KaspaBlockBuffer.new 64 = .ok buffer ∧
      let values := [block 1 (some 10), block 2 none, block 3 (some 5)]
      (buffer.pushAll values).recent 3 = .ok values ∧
        canonicalEvidence .mainnet values none =
          .error "Kaspa evidence DAA scores must be nondecreasing" :=
  ⟨⟨[], 64⟩, rfl, by decide, by decide⟩

/-- Three blocks in order, one without a score. -/
theorem observed_blocks_ordered :
    ∃ buffer, KaspaBlockBuffer.new 64 = .ok buffer ∧
      let values := [block 1 (some 10), block 2 none, block 3 (some 10)]
      (buffer.pushAll values).recent 2 = .ok [block 2 none, block 3 (some 10)] ∧
        (canonicalEvidence .mainnet [block 2 none, block 3 (some 10)] none).isOk = true := by
  have hrecent : ((KaspaBlockBuffer.mk [] 64).pushAll
      [block 1 (some 10), block 2 none, block 3 (some 10)]).recent 2 =
        .ok [block 2 none, block 3 (some 10)] := by
    decide
  have hordered : (scores ((KaspaBlockBuffer.mk [] 64).pushAll
      [block 1 (some 10), block 2 none, block 3 (some 10)]).inner).Pairwise (· ≤ ·) := by
    decide
  have h := @observed_blocks 64 ⟨[], 64⟩ rfl
    [block 1 (some 10), block 2 none, block 3 (some 10)]
  exact ⟨_, rfl, hrecent, h.2.1.mpr hordered 2 _ hrecent .mainnet none (by simp)⟩

end KaspaPortal.Guarantees
