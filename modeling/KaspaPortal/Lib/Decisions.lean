import Mathlib.Algebra.Order.Ring.Nat
import Mathlib.Data.List.Basic

/-!
# Bit masks of nested decisions

A path through nested two-way decisions is a list of decisions, innermost first,
each a single bit and the value it must have. Two masks summarise a path: the
bits it decides and the bits it wants set. While the bits are distinct the masks
determine the path's meaning: `agrees_iff` says that comparing an assignment with
the two masks is asking it for every decision on the path.
-/
namespace KaspaPortal.Lib

variable {w : Nat}

abbrev Path (w : Nat) := List (BitVec w × Bool)

def Path.decided (path : Path w) : BitVec w := path.foldr (fun d mask => d.1 ||| mask) 0

def Path.wanted (path : Path w) : BitVec w :=
  path.foldr (fun d mask => (if d.2 then d.1 else 0) ||| mask) 0

/-- An assignment takes every decision of the path the way the path wants. -/
def Path.takenBy (path : Path w) (truth : BitVec w) : Bool :=
  path.all fun d => (truth &&& d.1 != 0) == d.2

/-- The decisions of the path are distinct bits below `bound`. -/
structure Path.Distinct (path : Path w) (bound : Nat) : Prop where
  single : ∀ d ∈ path, ∃ i < bound, i < w ∧ d.1 = BitVec.twoPow w i
  disjoint : path.Pairwise fun d e => d.1 &&& e.1 = 0

namespace Path
variable {path : Path w} {bit : BitVec w} {value : Bool} {bound : Nat}

@[simp] theorem decided_cons : decided ((bit, value) :: path) = bit ||| decided path := rfl

@[simp] theorem wanted_cons :
    wanted ((bit, value) :: path) = (if value then bit else 0) ||| wanted path := rfl

@[simp] theorem takenBy_cons {truth : BitVec w} :
    takenBy ((bit, value) :: path) truth =
      ((truth &&& bit != 0) == value && takenBy path truth) := rfl

theorem and_eq_zero_iff {x y : BitVec w} :
    x &&& y = 0 ↔ ∀ i, x.getLsbD i = true → y.getLsbD i = false := by
  constructor
  · intro h i hx
    have := congrArg (·.getLsbD i) h
    simpa [hx] using this
  · intro h
    apply BitVec.eq_of_getLsbD_eq
    intro i _
    cases hx : x.getLsbD i with
    | false => simp [hx]
    | true => simp [hx, h i hx]

/-- The wanted bits are among the decided ones. -/
theorem not_wanted (path : Path w) (i : Nat) (h : (decided path).getLsbD i = false) :
    (wanted path).getLsbD i = false := by
  induction path with
  | nil => simp [wanted]
  | cons d path ih =>
    obtain ⟨bit, value⟩ := d
    simp only [wanted_cons, decided_cons, BitVec.getLsbD_or, Bool.or_eq_false_iff] at h ⊢
    refine ⟨?_, ih h.2⟩
    cases value with
    | false => simp
    | true => simpa using h.1

theorem decided_disjoint (path : Path w) (bit : BitVec w) (h : ∀ d ∈ path, bit &&& d.1 = 0) :
    bit &&& decided path = 0 := by
  induction path with
  | nil => simp [decided]
  | cons d path ih =>
    have hd := Iff.mp and_eq_zero_iff (h d (by simp))
    have hp := Iff.mp and_eq_zero_iff (ih fun e he => h e (by simp [he]))
    refine Iff.mpr and_eq_zero_iff fun i hi => ?_
    show (d.1 ||| decided path).getLsbD i = false
    simp [hd i hi, hp i hi]

theorem Distinct.head_disjoint (h : Distinct ((bit, value) :: path) bound) :
    bit &&& decided path = 0 :=
  decided_disjoint path bit (List.pairwise_cons.mp h.disjoint).1

theorem Distinct.tail {d : BitVec w × Bool} (h : Distinct (d :: path) bound) :
    Distinct path bound :=
  ⟨fun e he => h.single e (by simp [he]), (List.pairwise_cons.mp h.disjoint).2⟩

theorem Distinct.mono {bound' : Nat} (h : Distinct path bound) (hle : bound ≤ bound') :
    Distinct path bound' := by
  refine ⟨fun d hd => ?_, h.disjoint⟩
  obtain ⟨i, hi, hw, hbit⟩ := h.single d hd
  exact ⟨i, Nat.lt_of_lt_of_le hi hle, hw, hbit⟩

/-- A decision may be flipped in place. -/
theorem Distinct.flip {value' : Bool} (h : Distinct ((bit, value) :: path) bound) :
    Distinct ((bit, value') :: path) bound := by
  refine ⟨fun d hd => ?_, ?_⟩
  · rcases List.mem_cons.mp hd with rfl | hd
    · exact h.single (bit, value) (by simp)
    · exact h.single d (by simp [hd])
  · exact List.pairwise_cons.mpr (List.pairwise_cons.mp h.disjoint)

theorem twoPow_disjoint {i j : Nat} (h : i ≠ j) : BitVec.twoPow w i &&& BitVec.twoPow w j = 0 := by
  refine Iff.mpr and_eq_zero_iff fun k hk => ?_
  simp only [BitVec.getLsbD_twoPow, Bool.and_eq_true, decide_eq_true_eq] at hk
  simp [BitVec.getLsbD_twoPow]
  omega

/-- The next bit is fresh. -/
theorem Distinct.cons (h : Distinct path bound) (hw : bound < w) (value : Bool) :
    Distinct ((BitVec.twoPow w bound, value) :: path) (bound + 1) := by
  refine ⟨fun d hd => ?_, List.pairwise_cons.mpr ⟨fun d hd => ?_, h.disjoint⟩⟩
  · rcases List.mem_cons.mp hd with rfl | hd
    · exact ⟨bound, Nat.lt_succ_self _, hw, rfl⟩
    · exact (h.mono (Nat.le_succ bound)).single d hd
  · obtain ⟨i, hi, -, hbit⟩ := h.single d hd
    simp only
    rw [hbit]
    exact twoPow_disjoint (Nat.ne_of_gt hi)

theorem Distinct.nil : Distinct ([] : Path w) bound := ⟨nofun, List.Pairwise.nil⟩

/-! ## The walker's updates of the two masks -/

theorem wanted_flip (h : Distinct ((bit, value) :: path) bound) :
    wanted ((bit, value) :: path) ^^^ bit = wanted ((bit, !value) :: path) := by
  have hd := Iff.mp and_eq_zero_iff h.head_disjoint
  apply BitVec.eq_of_getLsbD_eq
  intro i _
  cases hb : bit.getLsbD i with
  | false => cases value <;> simp [hb]
  | true => cases value <;> simp [hb, not_wanted path i (hd i hb)]

theorem clear_or {x y : BitVec w} (h : ∀ i, bit.getLsbD i = true → y.getLsbD i = false)
    (hx : ∀ i, bit.getLsbD i = false → x.getLsbD i = false) : (x ||| y) &&& ~~~bit = y := by
  apply BitVec.eq_of_getLsbD_eq
  intro i hi
  simp only [BitVec.getLsbD_and, BitVec.getLsbD_or, BitVec.getLsbD_not, hi, decide_true,
    Bool.true_and]
  cases hb : bit.getLsbD i with
  | false => simp only [hx i hb, Bool.false_or, Bool.not_false, Bool.and_true]
  | true => simp only [h i hb, Bool.not_true, Bool.and_false]

theorem decided_clear (h : Distinct ((bit, value) :: path) bound) :
    decided ((bit, value) :: path) &&& ~~~bit = decided path :=
  clear_or (Iff.mp and_eq_zero_iff h.head_disjoint) fun _ hi => hi

theorem wanted_clear (h : Distinct ((bit, value) :: path) bound) :
    wanted ((bit, value) :: path) &&& ~~~bit = wanted path := by
  have hd := Iff.mp and_eq_zero_iff h.head_disjoint
  refine clear_or (fun i hi => not_wanted path i (hd i hi)) fun i hi => ?_
  cases value with
  | false => simp
  | true => simpa using hi

/-! ## Comparing an assignment with the masks -/

theorem twoPow_self {i : Nat} (hi : i < w) : (BitVec.twoPow w i).getLsbD i = true := by
  rw [BitVec.getLsbD_twoPow, decide_eq_true hi, decide_eq_true rfl, Bool.and_true]

theorem twoPow_and_eq {truth : BitVec w} {i : Nat} (hi : i < w) :
    (truth &&& BitVec.twoPow w i != 0) = truth.getLsbD i := by
  have hne : BitVec.twoPow w i ≠ 0 := by
    intro h
    have := twoPow_self hi
    simp [h] at this
  rw [BitVec.and_twoPow]
  cases truth.getLsbD i with
  | false => simp
  | true => simpa using hne

/-- An assignment agrees with the masks of a path exactly when it takes every
decision of the path as wanted. -/
theorem agrees_iff (h : Distinct path bound) (truth : BitVec w) :
    (truth ^^^ wanted path) &&& decided path = 0 ↔ takenBy path truth = true := by
  induction path with
  | nil => simp [decided, takenBy]
  | cons d path ih =>
    obtain ⟨bit, value⟩ := d
    obtain ⟨k, -, hk, hbit⟩ := h.single (bit, value) (by simp)
    simp only at hbit
    subst hbit
    have hdis := Iff.mp and_eq_zero_iff h.head_disjoint
    have hself := twoPow_self hk
    have hother (i : Nat) (hne : k ≠ i) : (BitVec.twoPow w k).getLsbD i = false := by
      rw [BitVec.getLsbD_twoPow, decide_eq_false hne, Bool.and_false]
    have hwant := not_wanted path k (hdis k hself)
    have hhead (i : Nat) : ((if value then BitVec.twoPow w k else 0) ||| wanted path).getLsbD i =
        if k = i then value else (wanted path).getLsbD i := by
      by_cases hi : k = i
      · subst hi
        cases value <;> simp [hself, hwant]
      · cases value <;> simp [hi, hother]
    rw [takenBy_cons, Bool.and_eq_true, ← ih h.tail, twoPow_and_eq hk, beq_iff_eq,
      and_eq_zero_iff, and_eq_zero_iff]
    simp only [wanted_cons, decided_cons, BitVec.getLsbD_xor, hhead, BitVec.getLsbD_or]
    constructor
    · intro hall
      refine ⟨?_, fun i hi => ?_⟩
      · have := hall k
        rw [if_pos rfl, hself, Bool.true_or] at this
        by_contra hne
        exact absurd (this (by simpa using hne)) (by decide)
      · by_cases hki : k = i
        · subst hki
          exact hdis k hself
        · have := hall i
          rw [if_neg hki, hother i hki, Bool.false_or] at this
          exact this hi
    · rintro ⟨hkv, hrest⟩ i hi
      by_cases hki : k = i
      · subst hki
        rw [if_pos rfl, hkv] at hi
        simp at hi
      · rw [if_neg hki] at hi
        rw [hother i hki, Bool.false_or]
        exact hrest i hi

/-- A mask of all bits below the bound covers the path. -/
theorem decided_covered (h : Distinct path bound) :
    BitVec.ofNat w (2 ^ bound - 1) &&& decided path = decided path := by
  apply BitVec.eq_of_getLsbD_eq
  intro i hi
  simp only [BitVec.getLsbD_and, BitVec.getLsbD_ofNat, hi, decide_true, Bool.true_and,
    Nat.testBit_two_pow_sub_one]
  cases hd : (decided path).getLsbD i with
  | false => rw [Bool.and_false]
  | true =>
    rw [Bool.and_true, decide_eq_true_eq]
    by_contra hge
    have hoff : ∀ d ∈ path, BitVec.twoPow w i &&& d.1 = 0 := by
      intro d hmem
      obtain ⟨k, hk, -, hbit⟩ := h.single d hmem
      rw [hbit]
      exact twoPow_disjoint (by omega)
    have := Iff.mp and_eq_zero_iff (decided_disjoint path _ hoff) i
      (twoPow_self hi)
    rw [hd] at this
    cases this

end Path
end KaspaPortal.Lib
