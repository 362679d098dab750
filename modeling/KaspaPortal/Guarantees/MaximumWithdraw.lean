import KaspaPortal.Transaction.Mass

/-!
# The largest withdrawal from a covenant thread

Small payouts weigh more storage mass than large ones, so a withdrawal can fit where a smaller one
does not. The bitwise search starts from powers of two, and is right where the fits are monotone
from one of these on.

* `maximum_withdraw`: monotone fits are enough; amounts, rate and cap that make them so; and a
  power of two has to fit for the search to be right about anything.
* `maximum_withdraw_missed`: a thread whose cap lies between two powers of two that do not fit.

The fees are those of `ThreadWithdrawFee`; the covenant output fills two storage units.
-/
set_option maxRecDepth 100000

namespace KaspaPortal.Transaction.ThreadWithdrawFee
open Lib

variable {spend : ThreadWithdrawFee} {cap minimumReturn w : UInt64}

/-- A withdrawal under the cap whose fee leaves the minimum in the covenant. -/
def Fits (spend : ThreadWithdrawFee) (cap minimumReturn withdraw : UInt64) : Prop :=
  0 < withdraw ∧ withdraw ≤ cap ∧ spend.leavesReturn withdraw minimumReturn = true

/-- The largest withdrawal that fits; zero only when none does. -/
structure Maximum (spend : ThreadWithdrawFee) (cap minimumReturn best : UInt64) : Prop where
  fits : best = 0 ∨ spend.Fits cap minimumReturn best
  largest : ∀ withdraw, spend.Fits cap minimumReturn withdraw → withdraw ≤ best

/-- The test of the search, on the naturals. -/
def fitsAt (spend : ThreadWithdrawFee) (cap minimumReturn : UInt64) (n : Nat) : Bool :=
  decide (n ≤ (spend.ceiling cap minimumReturn).toNat) &&
    spend.leavesReturn (UInt64.ofNat n) minimumReturn

/-- The ceiling refuses nothing that leaves the minimum behind. -/
theorem fits_iff : spend.Fits cap minimumReturn w ↔
    0 < w.toNat ∧ spend.fitsAt cap minimumReturn w.toNat = true := by
  rw [Fits, fitsAt, UInt64.ofNat_toNat, Bool.and_eq_true, decide_eq_true_iff, ceiling_toNat,
    UInt64.le_iff_toNat_le, UInt64.lt_iff_toNat_lt]
  apply and_congr Iff.rfl
  constructor
  · intro h
    have hle := le_of_leavesReturn h.2
    exact ⟨by omega, h.2⟩
  · intro h
    exact ⟨by omega, h.2⟩

theorem lt_of_fitsAt {n : Nat} (h : spend.fitsAt cap minimumReturn n = true) : n < 2 ^ 64 := by
  rw [fitsAt, Bool.and_eq_true, decide_eq_true_iff] at h
  exact Nat.lt_of_le_of_lt h.1 (UInt64.toNat_lt _)

theorem shiftLeft_toNat {bit : Nat} (h : bit < 64) :
    ((1 : UInt64) <<< UInt64.ofNat bit).toNat = 2 ^ bit := by
  have hpow : 2 ^ bit < 2 ^ 64 := Nat.pow_lt_pow_right (by decide) h
  rw [UInt64.toNat_shiftLeft, ofNat_toNat (by omega), Nat.mod_eq_of_lt h, Nat.shiftLeft_eq]
  rw [show (1 : UInt64).toNat = 1 from rfl, Nat.one_mul, Nat.mod_eq_of_lt hpow]

/-- A step keeps the bit when the amount with it fits; nothing overflows. -/
theorem fixBit_toNat {best : UInt64} {bit : Nat} (hbit : bit < 64)
    (hroom : best.toNat + 2 ^ bit < 2 ^ 64) :
    (spend.fixBit cap minimumReturn best bit).toNat =
      if spend.fitsAt cap minimumReturn (best.toNat + 2 ^ bit) then best.toNat + 2 ^ bit
      else best.toNat := by
  have hcandidate : (best + (1 : UInt64) <<< UInt64.ofNat bit).toNat = best.toNat + 2 ^ bit := by
    rw [UInt64.toNat_add, shiftLeft_toNat hbit, Nat.mod_eq_of_lt hroom]
  have hofNat : UInt64.ofNat (best.toNat + 2 ^ bit) = best + (1 : UInt64) <<< UInt64.ofNat bit := by
    rw [← hcandidate, UInt64.ofNat_toNat]
  simp only [fixBit, fitsAt, hofNat, UInt64.le_iff_toNat_le, hcandidate]
  split
  · exact hcandidate
  · rfl

/-- The 64 steps are the search over the naturals. -/
theorem foldl_fixBit_toNat {bits : Nat} {best : UInt64} (hbits : bits ≤ 64)
    (hroom : best.toNat + 2 ^ bits ≤ 2 ^ 64) :
    ((List.range bits).reverse.foldl (spend.fixBit cap minimumReturn) best).toNat =
      bitSearch (spend.fitsAt cap minimumReturn) bits best.toNat := by
  induction bits generalizing best with
  | zero => rfl
  | succ bits ih =>
    rw [Nat.pow_succ] at hroom
    have hpos := Nat.two_pow_pos bits
    have hstep : (spend.fixBit cap minimumReturn best bits).toNat = _ :=
      fixBit_toNat (by omega) (by omega)
    rw [List.range_succ, List.reverse_append, List.reverse_singleton, List.singleton_append,
      List.foldl_cons, ih (by omega), hstep, bitSearch]
    rw [hstep]
    split
    · omega
    · omega

theorem maximumWithdraw_toNat : (spend.maximumWithdraw cap minimumReturn).toNat =
    bitSearch (spend.fitsAt cap minimumReturn) 64 0 := by
  rw [maximumWithdraw, foldl_fixBit_toNat (Nat.le_refl 64) (by decide)]
  rfl

theorem fits_maximumWithdraw : spend.maximumWithdraw cap minimumReturn = 0 ∨
    spend.Fits cap minimumReturn (spend.maximumWithdraw cap minimumReturn) := by
  have hsearch := @bitSearch_fits (spend.fitsAt cap minimumReturn) 64 0
  rw [← maximumWithdraw_toNat] at hsearch
  rw [fits_iff]
  obtain hzero | hfits := hsearch
  · exact .inl (UInt64.toNat_inj.mp hzero)
  · obtain hzero | hpos := Nat.eq_zero_or_pos (spend.maximumWithdraw cap minimumReturn).toNat
    · exact .inl (UInt64.toNat_inj.mp hzero)
    · exact .inr ⟨hpos, hfits⟩

/-- Where a withdrawal fits, one of them is the largest. -/
theorem exists_largest_fits (h : spend.Fits cap minimumReturn w) :
    ∃ best, spend.Fits cap minimumReturn best ∧
      ∀ withdraw, spend.Fits cap minimumReturn withdraw → withdraw ≤ best := by
  have hw := fits_iff.mp h
  obtain ⟨best, hbest, hlargest⟩ := exists_largest
    (fun n hn => Nat.le_of_lt (lt_of_fitsAt hn)) hw.2
  have htoNat := ofNat_toNat (lt_of_fitsAt hbest)
  refine ⟨UInt64.ofNat best, fits_iff.mpr ?_, fun withdraw hfits => ?_⟩
  · rw [htoNat]
    exact ⟨Nat.lt_of_lt_of_le hw.1 (hlargest w.toNat hw.2), hbest⟩
  · rw [UInt64.le_iff_toNat_le, htoNat]
    exact hlargest withdraw.toNat (fits_iff.mp hfits).2

/-- On the naturals, what fits is what passes the test of the search. -/
theorem fits_ofNat_iff {n : Nat} (hpos : 0 < n) (hlt : n < 2 ^ 64) :
    spend.Fits cap minimumReturn (UInt64.ofNat n) ↔ spend.fitsAt cap minimumReturn n = true := by
  rw [fits_iff, ofNat_toNat hlt, and_iff_right hpos]

/-! ## Monotone fits -/

/-- From a fitting power of two on, every amount below a fitting one fits. -/
def MonotoneFits (spend : ThreadWithdrawFee) (cap minimumReturn : UInt64) : Prop :=
  ∃ bit < 64, spend.Fits cap minimumReturn (UInt64.ofNat (2 ^ bit)) ∧
    ∀ u v : UInt64, 2 ^ bit ≤ u.toNat → u ≤ v → spend.Fits cap minimumReturn v →
      spend.Fits cap minimumReturn u

/-- No withdrawal fits. -/
def FitsNothing (spend : ThreadWithdrawFee) (cap minimumReturn : UInt64) : Prop :=
  ∀ withdraw, ¬ spend.Fits cap minimumReturn withdraw

/-- Monotone fits lead the search to the largest withdrawal. -/
theorem maximum_of_monotoneFits (h : spend.MonotoneFits cap minimumReturn) :
    spend.Maximum cap minimumReturn (spend.maximumWithdraw cap minimumReturn) := by
  obtain ⟨bit, hbit, hpow, hmono⟩ := h
  have hlt : 2 ^ bit < 2 ^ 64 := Nat.pow_lt_pow_right (by decide) hbit
  obtain ⟨best, hbest, hlargest⟩ := exists_largest_fits hpow
  have hfound : spend.maximumWithdraw cap minimumReturn = best := by
    rw [← UInt64.toNat_inj, maximumWithdraw_toNat]
    refine bitSearch_eq_of_monotone ((fits_ofNat_iff (Nat.two_pow_pos bit) hlt).mp hpow) ?_
      (fits_iff.mp hbest).2 best.toNat_lt ?_
    · intro u v hle huv hv
      have hu : u < 2 ^ 64 := Nat.lt_of_le_of_lt huv (lt_of_fitsAt hv)
      have hpos : 0 < u := Nat.lt_of_lt_of_le (Nat.two_pow_pos bit) hle
      refine (fits_ofNat_iff hpos hu).mp (hmono _ (UInt64.ofNat v) ?_ ?_
        ((fits_ofNat_iff (Nat.lt_of_lt_of_le hpos huv) (lt_of_fitsAt hv)).mpr hv))
      · rwa [ofNat_toNat hu]
      · rwa [UInt64.le_iff_toNat_le, ofNat_toNat hu, ofNat_toNat (lt_of_fitsAt hv)]
    · intro v hv
      obtain rfl | hpos := Nat.eq_zero_or_pos v
      · exact Nat.zero_le _
      · have hle := hlargest _ ((fits_ofNat_iff hpos (lt_of_fitsAt hv)).mpr hv)
        rwa [UInt64.le_iff_toNat_le, ofNat_toNat (lt_of_fitsAt hv)] at hle
  rw [hfound]
  exact ⟨.inr hbest, hlargest⟩

theorem maximum_of_fitsNothing (h : spend.FitsNothing cap minimumReturn) :
    spend.Maximum cap minimumReturn (spend.maximumWithdraw cap minimumReturn) where
  fits := .inl (fits_maximumWithdraw.resolve_right (h _))
  largest withdraw hfits := absurd hfits (h withdraw)

/-- The search cannot be right about a withdrawal when no power of two fits. -/
theorem exists_pow_of_maximum
    (h : spend.Maximum cap minimumReturn (spend.maximumWithdraw cap minimumReturn)) :
    (∃ bit < 64, spend.Fits cap minimumReturn (UInt64.ofNat (2 ^ bit))) ∨
      spend.FitsNothing cap minimumReturn := by
  by_cases hzero : bitSearch (spend.fitsAt cap minimumReturn) 64 0 = 0
  · right
    intro withdraw hfits
    have hle := UInt64.le_iff_toNat_le.mp (h.largest withdraw hfits)
    rw [maximumWithdraw_toNat, hzero] at hle
    exact absurd (fits_iff.mp hfits).1 (Nat.not_lt_of_le hle)
  · left
    obtain ⟨bit, hbit, hpow⟩ := exists_pow_of_bitSearch hzero
    have hlt : 2 ^ bit < 2 ^ 64 := Nat.pow_lt_pow_right (by decide) hbit
    exact ⟨bit, hbit, (fits_ofNat_iff (Nat.two_pow_pos bit) hlt).mpr hpow⟩

/-! ## Amounts that make the fits monotone -/

/-- What is left for a withdrawal once the minimum and the least fee are set aside. -/
def affordable (spend : ThreadWithdrawFee) (cap minimumReturn : UInt64) : Nat :=
  min (spend.threadAmount.toNat - minimumReturn.toNat -
    max (2500 * spend.feeRateSompiPerGram.toNat) spend.minimumFee.toNat) cap.toNat

/-- More grams than any withdrawal from `least` up to the affordable one weighs. -/
def mostGrams (spend : ThreadWithdrawFee) (cap minimumReturn : UInt64) (least : Nat) : Nat :=
  max (threadGrams spend.threadAmount.toNat least (spend.threadAmount.toNat -
    spend.affordable cap minimumReturn - spend.minimumFee.toNat)) 2500

/-- A power of two below the affordable withdrawal is large enough a payout, and the affordable
withdrawal leaves enough in the thread, for the storage mass to be within the limit and paid for. -/
def StorageLight (spend : ThreadWithdrawFee) (cap minimumReturn : UInt64) : Prop :=
  0 < minimumReturn.toNat ∧ ∃ bit, 2 ^ bit ≤ spend.affordable cap minimumReturn ∧
    spend.mostGrams cap minimumReturn (2 ^ bit) ≤ 500000 ∧
    spend.mostGrams cap minimumReturn (2 ^ bit) * spend.feeRateSompiPerGram.toNat < 2 ^ 64 ∧
    spend.affordable cap minimumReturn +
      max (spend.mostGrams cap minimumReturn (2 ^ bit) * spend.feeRateSompiPerGram.toNat)
        spend.minimumFee.toNat + minimumReturn.toNat ≤ spend.threadAmount.toNat

theorem threadGrams_le {spent withdraw rest withdraw' rest' : Nat} (hwithdraw : withdraw ≤ withdraw')
    (hrest : rest ≤ rest') : threadGrams spent withdraw' rest' ≤ threadGrams spent withdraw rest := by
  rw [threadGrams, threadGrams]
  have hpayout : 1000000000000 / max withdraw' 1 ≤ 1000000000000 / max withdraw 1 :=
    Nat.div_le_div_left (by omega) (by omega)
  have hthread : 4000000000000 / max rest' 1 ≤ 4000000000000 / max rest 1 :=
    Nat.div_le_div_left (by omega) (by omega)
  omega

/-- Nothing above the affordable withdrawal fits. -/
theorem le_affordable (hreturn : 0 < minimumReturn.toNat)
    (h : spend.Fits cap minimumReturn w) : w.toNat ≤ spend.affordable cap minimumReturn := by
  obtain ⟨hpos, hcap, hleaves⟩ := h
  rw [UInt64.lt_iff_toNat_lt] at hpos
  rw [UInt64.le_iff_toNat_le] at hcap
  have hfloor := le_of_leavesReturn hleaves
  obtain ⟨-, -, hpaid⟩ := (leavesReturn_iff hpos (by omega)).mp hleaves
  have hleast : 2500 * spend.feeRateSompiPerGram.toNat ≤
      max { spend with withdraw := w }.grams 2500 * spend.feeRateSompiPerGram.toNat :=
    Nat.mul_le_mul_right _ (Nat.le_max_right _ _)
  rw [affordable]
  omega

/-- From the power of two up to the affordable withdrawal everything fits. -/
theorem fits_of_storageLight (hreturn : 0 < minimumReturn.toNat) {least : Nat} (hleast : 0 < least)
    (hgrams : spend.mostGrams cap minimumReturn least ≤ 500000)
    (hfits : spend.mostGrams cap minimumReturn least * spend.feeRateSompiPerGram.toNat < 2 ^ 64)
    (hpaid : spend.affordable cap minimumReturn +
      max (spend.mostGrams cap minimumReturn least * spend.feeRateSompiPerGram.toNat)
        spend.minimumFee.toNat + minimumReturn.toNat ≤ spend.threadAmount.toNat)
    (hle : least ≤ w.toNat) (hmost : w.toNat ≤ spend.affordable cap minimumReturn) :
    spend.Fits cap minimumReturn w := by
  have hw : max { spend with withdraw := w }.grams 2500 ≤
      spend.mostGrams cap minimumReturn least := by
    have hrest : spend.threadAmount.toNat - spend.affordable cap minimumReturn - spend.minimumFee.toNat ≤
        spend.threadAmount.toNat - w.toNat - spend.minimumFee.toNat := by omega
    have hle := @threadGrams_le spend.threadAmount.toNat _ _ _ _ hle hrest
    rw [grams, mostGrams]
    dsimp only
    omega
  have hprice : max { spend with withdraw := w }.grams 2500 * spend.feeRateSompiPerGram.toNat ≤
      spend.mostGrams cap minimumReturn least * spend.feeRateSompiPerGram.toNat :=
    Nat.mul_le_mul_right _ hw
  refine ⟨?_, ?_, (leavesReturn_iff (by omega) (by omega)).mpr ⟨by omega, by omega, by omega⟩⟩
  · rw [UInt64.lt_iff_toNat_lt, UInt64.toNat_zero]
    omega
  · rw [UInt64.le_iff_toNat_le]
    exact Nat.le_trans hmost (Nat.min_le_right _ _)

/-- Light storage mass makes the fits monotone. -/
theorem monotoneFits_of_storageLight (h : spend.StorageLight cap minimumReturn) :
    spend.MonotoneFits cap minimumReturn := by
  obtain ⟨hreturn, bit, hpow, hgrams, hfits, hpaid⟩ := h
  have hlt : 2 ^ bit < 2 ^ 64 := by
    have hcap := cap.toNat_lt
    have hmin : spend.affordable cap minimumReturn ≤ cap.toNat := Nat.min_le_right _ _
    omega
  have hbit : bit < 64 := (Nat.pow_lt_pow_iff_right (by decide)).mp hlt
  refine ⟨bit, hbit, ?_, fun u v hu huv hv => ?_⟩
  · refine fits_of_storageLight hreturn (Nat.two_pow_pos bit) hgrams hfits hpaid ?_ ?_
    · rw [ofNat_toNat hlt]
    · rwa [ofNat_toNat hlt]
  · have hmost := le_affordable hreturn hv
    rw [UInt64.le_iff_toNat_le] at huv
    exact fits_of_storageLight hreturn (Nat.two_pow_pos bit) hgrams hfits hpaid hu
      (Nat.le_trans huv hmost)

end KaspaPortal.Transaction.ThreadWithdrawFee

namespace KaspaPortal.Guarantees
open Lib Transaction ThreadWithdrawFee

/-- The search returns the largest withdrawal where the fits are monotone from a fitting power of
two on, as light storage mass makes them, or where nothing fits. Where it does, a power of two fits
or nothing does. -/
theorem maximum_withdraw (spend : ThreadWithdrawFee) (cap minimumReturn : UInt64) :
    (spend.MonotoneFits cap minimumReturn ∨ spend.FitsNothing cap minimumReturn →
      spend.Maximum cap minimumReturn (spend.maximumWithdraw cap minimumReturn)) ∧
    (spend.StorageLight cap minimumReturn → spend.MonotoneFits cap minimumReturn) ∧
    (spend.Maximum cap minimumReturn (spend.maximumWithdraw cap minimumReturn) →
      (∃ bit < 64, spend.Fits cap minimumReturn (UInt64.ofNat (2 ^ bit))) ∨
        spend.FitsNothing cap minimumReturn) :=
  ⟨fun h => h.elim maximum_of_monotoneFits maximum_of_fitsNothing, monotoneFits_of_storageLight,
    exists_pow_of_maximum⟩

/-- A thread of ten KAS with a cap of one: the storage mass stays light down to 2 ^ 26 sompi. -/
theorem maximum_withdraw_storage_light :
    let spend : ThreadWithdrawFee := ⟨1000000000, 0, 300000, 100⟩
    spend.StorageLight 100000000 10000000 ∧
      spend.Maximum 100000000 10000000 (spend.maximumWithdraw 100000000 10000000) := by
  intro spend
  have hlight : spend.StorageLight 100000000 10000000 := ⟨by decide, 26, by decide⟩
  obtain ⟨hmaximum, hmonotone, -⟩ := maximum_withdraw spend 100000000 10000000
  exact ⟨hlight, hmaximum (.inl (hmonotone hlight))⟩

/-- 2050000 sompi can be withdrawn, and the search, which tries 2097152 and 1048576 first, finds
nothing. -/
theorem maximum_withdraw_missed :
    let spend : ThreadWithdrawFee := ⟨1000000000, 0, 300000, 1⟩
    spend.maximumWithdraw 2050000 10000000 = 0 ∧ spend.Fits 2050000 10000000 2050000 ∧
      ¬ spend.Maximum 2050000 10000000 (spend.maximumWithdraw 2050000 10000000) := by
  intro spend
  have hnone : spend.maximumWithdraw 2050000 10000000 = 0 := by decide
  have hfits : spend.Fits 2050000 10000000 2050000 := ⟨by decide, by decide, by decide⟩
  refine ⟨hnone, hfits, fun hmaximum => ?_⟩
  have hle := hmaximum.largest 2050000 hfits
  rw [hnone] at hle
  exact absurd hle (by decide)

end KaspaPortal.Guarantees
