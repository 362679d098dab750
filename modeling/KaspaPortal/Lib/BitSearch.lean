import Mathlib.Algebra.Order.Ring.Nat
import Mathlib.Data.Nat.Find

/-!
# Searching for the largest fitting value bit by bit

A bit is kept when the value with it fits. Nothing is asked of the test: the search ends on the
largest fitting value exactly when every value obtained from that one by clearing low bits fits.
These values are at least the largest power of two in it, so it is enough that the test is monotone
from a power of two on that fits (`bitSearch_eq_of_monotone`).
-/
namespace KaspaPortal.Lib

variable {fits : Nat → Bool} {bits best w : Nat}

/-- Fixes the lowest `bits` bits from the top, starting from `best`. -/
def bitSearch (fits : Nat → Bool) : Nat → Nat → Nat
  | 0, best => best
  | bits + 1, best =>
    bitSearch fits bits (if fits (best + 2 ^ bits) then best + 2 ^ bits else best)

/-- The value with its lowest bits cleared. -/
def clearLow (k w : Nat) : Nat := w / 2 ^ k * 2 ^ k

theorem clearLow_le (k w : Nat) : clearLow k w ≤ w := Nat.div_mul_le_self w _

/-- A multiple of the cleared power stays below. -/
theorem le_clearLow {k c : Nat} (hdvd : 2 ^ k ∣ c) (hle : c ≤ w) : c ≤ clearLow k w := by
  obtain ⟨q, rfl⟩ := hdvd
  rw [clearLow, Nat.mul_comm (w / 2 ^ k)]
  apply Nat.mul_le_mul_left
  exact (Nat.le_div_iff_mul_le (Nat.two_pow_pos k)).mpr (by rwa [Nat.mul_comm])

theorem clearLow_eq {k c : Nat} (hdvd : 2 ^ k ∣ c) (hle : c ≤ w) (hlt : w < c + 2 ^ k) :
    clearLow k w = c := by
  obtain ⟨q, rfl⟩ := hdvd
  rw [clearLow, Nat.mul_comm, Nat.div_eq_of_lt_le]
  · rwa [Nat.mul_comm]
  · rwa [Nat.add_mul, Nat.one_mul, Nat.mul_comm]

theorem bitSearch_lt : bitSearch fits bits best < best + 2 ^ bits := by
  induction bits generalizing best with
  | zero => exact Nat.lt_succ_self best
  | succ bits ih =>
    rw [bitSearch, Nat.pow_succ]
    split
    · have hkept := @ih (best + 2 ^ bits)
      omega
    · have hleft := @ih best
      omega

/-- What the search ends on fits, unless no bit was ever kept. -/
theorem bitSearch_fits : bitSearch fits bits best = best ∨ fits (bitSearch fits bits best) := by
  induction bits generalizing best with
  | zero => exact .inl rfl
  | succ bits ih =>
    rw [bitSearch]
    split
    case isTrue hfits =>
      obtain heq | hfound := @ih (best + 2 ^ bits)
      · rw [heq]
        exact .inr hfits
      · exact .inr hfound
    case isFalse => exact ih

/-- Where something fits, something fits best. -/
theorem exists_largest {bound n : Nat} (hbound : ∀ m, fits m → m ≤ bound) (h : fits n) :
    ∃ largest, fits largest ∧ ∀ m, fits m → m ≤ largest := by
  let P := fun m => fits m = true
  have hspec : P (Nat.findGreatest P bound) := Nat.findGreatest_spec (hbound n h) h
  exact ⟨_, hspec, fun m hm => Nat.le_findGreatest (P := P) (hbound m hm) hm⟩

/-- Clearing low bits leaves nothing or a value above every power of two that was below. -/
theorem pow_le_clearLow {j k : Nat} (hle : 2 ^ k ≤ w) (hpos : 0 < clearLow j w) :
    2 ^ k ≤ clearLow j w := by
  have hw : w ≠ 0 := (Nat.lt_of_lt_of_le hpos (clearLow_le j w)).ne'
  have hj : 2 ^ j ≤ w := by
    by_contra hlt
    rw [clearLow, Nat.div_eq_of_lt (Nat.lt_of_not_le hlt), Nat.zero_mul] at hpos
    exact Nat.lt_irrefl 0 hpos
  have hjlog : j ≤ Nat.log2 w := (Nat.le_log2 hw).mpr hj
  have hklog : k ≤ Nat.log2 w := (Nat.le_log2 hw).mpr hle
  calc 2 ^ k ≤ 2 ^ Nat.log2 w := Nat.pow_le_pow_right (by decide) hklog
    _ ≤ clearLow j w := le_clearLow (Nat.pow_dvd_pow 2 hjlog) (Nat.log2_self_le hw)

/-- The search ends on the largest fitting value exactly when every longer prefix of it than the
start fits as well. -/
theorem bitSearch_eq_iff (hdvd : 2 ^ bits ∣ best) (hle : best ≤ w) (hlt : w < best + 2 ^ bits)
    (hlargest : ∀ v, fits v → v ≤ w) :
    bitSearch fits bits best = w ↔ ∀ k < bits, best < clearLow k w → fits (clearLow k w) := by
  induction bits generalizing best with
  | zero =>
    rw [Nat.pow_zero] at hlt
    have hw : best = w := by omega
    exact ⟨fun _ k hk => absurd hk (Nat.not_lt_zero k), fun _ => hw⟩
  | succ bits ih =>
    rw [Nat.pow_succ] at hdvd hlt
    have hdvdBest : 2 ^ bits ∣ best := Nat.dvd_trans (Nat.dvd_mul_right _ 2) hdvd
    rw [bitSearch]
    by_cases hbit : best + 2 ^ bits ≤ w
    · -- The answer has this bit: it is found when the bit is kept.
      have hdvdNext : 2 ^ bits ∣ best + 2 ^ bits := Nat.dvd_add hdvdBest (Nat.dvd_refl _)
      have hcleared : clearLow bits w = best + 2 ^ bits := clearLow_eq hdvdNext hbit (by omega)
      have hpos := Nat.two_pow_pos bits
      by_cases hfits : fits (best + 2 ^ bits)
      · rw [if_pos hfits, ih hdvdNext hbit (by omega)]
        constructor
        · intro h k hk _
          obtain hkept | hsame := Nat.lt_or_ge (best + 2 ^ bits) (clearLow k w)
          · have hkbits : k ≠ bits := by
              intro heq
              rw [heq, hcleared] at hkept
              exact Nat.lt_irrefl _ hkept
            exact h k (by omega) hkept
          · have hk' : 2 ^ k ∣ best + 2 ^ bits :=
              Nat.dvd_trans (Nat.pow_dvd_pow 2 (Nat.le_of_lt_succ hk)) hdvdNext
            rw [Nat.le_antisymm hsame (le_clearLow hk' hbit)]
            exact hfits
        · intro h k hk hkept
          exact h k (Nat.lt_succ_of_lt hk) (by omega)
      · rw [if_neg hfits]
        have hshort : bitSearch fits bits best < best + 2 ^ bits := bitSearch_lt
        constructor
        · intro heq
          omega
        · intro h
          have hlast := h bits (Nat.lt_succ_self bits) (by omega)
          rw [hcleared] at hlast
          exact absurd hlast hfits
    · -- The answer does not, and no larger value fits.
      have hfits : ¬ fits (best + 2 ^ bits) := fun hfits => hbit (hlargest _ hfits)
      rw [if_neg hfits, ih hdvdBest hle (by omega)]
      constructor
      · intro h k hk hkept
        obtain hlt' | hge := Nat.lt_or_ge k bits
        · exact h k hlt' hkept
        · have hk' : k = bits := by omega
          rw [hk', clearLow_eq hdvdBest hle (by omega)] at hkept
          exact absurd hkept (Nat.lt_irrefl best)
      · exact fun h k hk => h k (Nat.lt_succ_of_lt hk)

/-- A test that is monotone from a fitting power of two on is searched correctly. -/
theorem bitSearch_eq_of_monotone {k : Nat} (hpow : fits (2 ^ k))
    (hmono : ∀ u v, 2 ^ k ≤ u → u ≤ v → fits v → fits u) (hfits : fits w) (hlt : w < 2 ^ bits)
    (hlargest : ∀ v, fits v → v ≤ w) : bitSearch fits bits 0 = w := by
  rw [bitSearch_eq_iff (Nat.dvd_zero _) (Nat.zero_le w) (by rwa [Nat.zero_add]) hlargest]
  intro j _ hpos
  exact hmono _ w (pow_le_clearLow (hlargest _ hpow) hpos) (clearLow_le j w) hfits

/-- A search that finds something kept a power of two first. -/
theorem exists_pow_of_bitSearch (h : bitSearch fits bits 0 ≠ 0) :
    ∃ k < bits, fits (2 ^ k) := by
  induction bits with
  | zero => exact absurd rfl h
  | succ bits ih =>
    by_cases hfits : fits (2 ^ bits)
    · exact ⟨bits, Nat.lt_succ_self bits, hfits⟩
    · rw [bitSearch, Nat.zero_add, if_neg hfits] at h
      obtain ⟨k, hk, hfits'⟩ := ih h
      exact ⟨k, Nat.lt_succ_of_lt hk, hfits'⟩

end KaspaPortal.Lib
