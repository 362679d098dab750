import Mathlib.Logic.Function.Iterate
import Mathlib.Tactic.Ring

/-!
# Bounded iteration

A step repeated until a value stops it, within so many rounds. Below a value that the step does not
raise, a monotone step never climbs over it. What a round computes need only be sound on the values
that are visited before one stops the step.
-/
namespace KaspaPortal.Lib

variable {α : Type} {step : α → α} {stops : α → Prop}

/-- One of the first values of the iteration stops it. -/
def StopsWithin (step : α → α) (stops : α → Prop) (rounds : Nat) (start : α) : Prop :=
  ∃ k < rounds, stops (step^[k] start)

theorem not_stopsWithin_zero {start : α} : ¬ StopsWithin step stops 0 start :=
  fun ⟨_, hlt, _⟩ => absurd hlt (Nat.not_lt_zero _)

theorem stopsWithin_succ {rounds : Nat} {start : α} :
    StopsWithin step stops (rounds + 1) start ↔
      stops start ∨ StopsWithin step stops rounds (step start) := by
  constructor
  · intro h
    obtain ⟨k, hlt, hstops⟩ := h
    cases k with
    | zero => exact .inl hstops
    | succ k => exact .inr ⟨k, Nat.lt_of_succ_lt_succ hlt, hstops⟩
  · intro h
    cases h with
    | inl hstops => exact ⟨0, Nat.zero_lt_succ rounds, hstops⟩
    | inr hrest =>
      obtain ⟨k, hlt, hstops⟩ := hrest
      exact ⟨k + 1, Nat.succ_lt_succ hlt, hstops⟩

theorem StopsWithin.mono {rounds more : Nat} {start : α} (hle : rounds ≤ more)
    (h : StopsWithin step stops rounds start) : StopsWithin step stops more start :=
  h.imp fun _ hk => ⟨Nat.lt_of_lt_of_le hk.1 hle, hk.2⟩

/-- A value the rounds come to before any value stops them. -/
def Visits (step : α → α) (stops : α → Prop) (rounds : Nat) (start value : α) : Prop :=
  ∃ k < rounds, step^[k] start = value ∧ ∀ j < k, ¬ stops (step^[j] start)

theorem visits_start {rounds : Nat} {start : α} : Visits step stops (rounds + 1) start start :=
  ⟨0, Nat.zero_lt_succ rounds, rfl, fun _ hj => absurd hj (Nat.not_lt_zero _)⟩

/-- What is visited from the second value on is visited from the first. -/
theorem Visits.succ {rounds : Nat} {start value : α} (hgoes : ¬ stops start)
    (h : Visits step stops rounds (step start) value) :
    Visits step stops (rounds + 1) start value := by
  obtain ⟨k, hlt, hvalue, hbefore⟩ := h
  refine ⟨k + 1, Nat.succ_lt_succ hlt, hvalue, fun j hj => ?_⟩
  cases j with
  | zero => exact hgoes
  | succ j => exact hbefore j (Nat.lt_of_succ_lt_succ hj)

/-- A step that climbs by at least a stride until it stops, and stops above a ceiling, soon stops. -/
theorem stopsWithin_of_stride {step : Nat → Nat} {stops inv : Nat → Prop} {stride ceiling : Nat}
    (hclimb : ∀ n, inv n → ¬ stops n → n ≤ ceiling ∧ n + stride ≤ step n ∧ inv (step n))
    {rounds start : Nat} (hstart : inv start) (hroom : ceiling < start + rounds * stride) :
    StopsWithin step stops (rounds + 1) start := by
  induction rounds generalizing start with
  | zero =>
    rw [stopsWithin_succ]
    by_cases hstops : stops start
    · exact .inl hstops
    · have hbelow := (hclimb start hstart hstops).1
      omega
  | succ rounds ih =>
    rw [stopsWithin_succ]
    by_cases hstops : stops start
    · exact .inl hstops
    · obtain ⟨_, hstride, hinv⟩ := hclimb start hstart hstops
      rw [Nat.succ_mul] at hroom
      exact .inr (ih hinv (by omega))

/-- A step that takes an eighth off the way to a ceiling, but for a stride, comes within nine strides
of it or stops; it then has only so many strides to go. -/
theorem stopsWithin_of_contraction {step : Nat → Nat} {stops inv : Nat → Prop} {stride ceiling : Nat}
    (hclimb : ∀ n, inv n → ¬ stops n → n ≤ ceiling ∧ n + stride ≤ step n ∧
      8 * (ceiling - step n) ≤ 7 * (ceiling - n) + 8 * stride ∧ inv (step n))
    {rounds scale start : Nat} (hstart : inv start)
    (hscale : 7 ^ rounds * scale ≤ 8 ^ rounds) (hway : ceiling - start ≤ 8 * stride + scale * stride)
    (hpos : 0 < stride) : StopsWithin step stops (rounds + 11) start := by
  -- What is left of the way beyond eight strides shrinks by an eighth each round.
  have hshrinks : ∀ (k n : Nat), inv n → ¬ StopsWithin step stops k n →
      inv (step^[k] n) ∧
        8 ^ k * (ceiling - step^[k] n - 8 * stride) ≤ 7 ^ k * (ceiling - n - 8 * stride) := by
    intro k
    induction k with
    | zero => exact fun n hn _ => ⟨hn, Nat.le_refl _⟩
    | succ k ih =>
      intro n hn hgoes
      rw [stopsWithin_succ, not_or] at hgoes
      obtain ⟨_, _, hway, hinv⟩ := hclimb n hn hgoes.1
      obtain ⟨hlast, hshrunk⟩ := ih (step n) hinv hgoes.2
      refine ⟨hlast, ?_⟩
      rw [Function.iterate_succ_apply]
      calc 8 ^ (k + 1) * (ceiling - step^[k] (step n) - 8 * stride)
          = 8 * (8 ^ k * (ceiling - step^[k] (step n) - 8 * stride)) := by rw [Nat.pow_succ]; ring
        _ ≤ 8 * (7 ^ k * (ceiling - step n - 8 * stride)) := Nat.mul_le_mul_left 8 hshrunk
        _ = 7 ^ k * (8 * (ceiling - step n - 8 * stride)) := by ring
        _ ≤ 7 ^ k * (7 * (ceiling - n - 8 * stride)) := Nat.mul_le_mul_left _ (by omega)
        _ = 7 ^ (k + 1) * (ceiling - n - 8 * stride) := by rw [Nat.pow_succ]; ring
  by_cases hstops : StopsWithin step stops rounds start
  · exact hstops.mono (Nat.le_add_right rounds 11)
  · obtain ⟨hinv, hshrunk⟩ := hshrinks rounds start hstart hstops
    have hleft : ceiling - step^[rounds] start - 8 * stride ≤ stride := by
      have hpow : 0 < 8 ^ rounds := Nat.pow_pos (by decide)
      refine Nat.le_of_mul_le_mul_left ?_ hpow
      calc 8 ^ rounds * (ceiling - step^[rounds] start - 8 * stride)
          ≤ 7 ^ rounds * (ceiling - start - 8 * stride) := hshrunk
        _ ≤ 7 ^ rounds * (scale * stride) := Nat.mul_le_mul_left _ (by omega)
        _ = 7 ^ rounds * scale * stride := by ring
        _ ≤ 8 ^ rounds * stride := Nat.mul_le_mul_right stride hscale
    have hlast : StopsWithin step stops 11 (step^[rounds] start) :=
      stopsWithin_of_stride (fun n hn hgoes =>
        ⟨(hclimb n hn hgoes).1, (hclimb n hn hgoes).2.1, (hclimb n hn hgoes).2.2.2⟩) hinv (by omega)
    obtain ⟨k, hlt, hk⟩ := hlast
    rw [← Function.iterate_add_apply] at hk
    exact ⟨k + rounds, by omega, hk⟩

end KaspaPortal.Lib
