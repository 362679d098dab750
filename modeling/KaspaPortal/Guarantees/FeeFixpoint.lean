import KaspaPortal.Lib.Iteration
import KaspaPortal.Transaction.Builder.Covenant
import KaspaPortal.Transaction.Builder.Standard
import KaspaPortal.Transaction.Estimate
import KaspaPortal.Transaction.Model

/-!
# The fee of a payment pays for the change it leaves

A higher fee leaves less change, and less change weighs more. The passes climb from the minimum fee
and stop at the first fee that pays for itself, or below the change that is not worth returning.

* `fee_fixpoint`: a fee that is returned pays for the transaction planned with it, and is the least
  that does.
* `fee_converges`: the 256 passes end with a fee when the fee that the change requires stays apart
  from the fee that leaves it, or crosses it at a slope of at most seven eighths, or when the fee to
  be found is within 253 grams' fee.
* `fee_does_not_converge`: a payment of 10000 KAS for which the two run close to each other.
* `estimate_eq_analysis`: the estimate before signing is the analysis after it.

The results are about the planner's own mass formula; that a node prices the same way is the subject
of `estimate_eq_analysis`.
-/
set_option maxRecDepth 100000

namespace KaspaPortal.Transaction.StandardBuilder
open Lib CovenantBuilder

namespace FeeTerms

variable {terms : FeeTerms}

/-- The fee that the change left by a fee requires. -/
def nextFee (terms : FeeTerms) (fee : Nat) : Nat :=
  terms.requiredSompi (terms.availableFee.toNat - fee)

/-- A fee above what is available, one that leaves dust, or one that pays for itself. -/
def Settled (terms : FeeTerms) (fee : Nat) : Prop :=
  terms.availableFee.toNat < fee ∨ terms.availableFee.toNat - fee < 9999901 ∨
    terms.nextFee fee ≤ fee

/-- A fee the passes try before one is settled. -/
def Tries (terms : FeeTerms) (passes : Nat) (start fee : UInt64) : Prop :=
  Visits terms.nextFee terms.Settled passes start.toNat fee.toNat

/-- Every fee that is tried, and leaves something, can be checked. -/
structure PricedFrom (terms : FeeTerms) (passes : Nat) (start : UInt64) : Prop where
  kept : ∀ fee ≤ terms.availableFee, terms.Tries passes start fee →
    isDust (terms.availableFee - fee) = false →
      ∃ required, terms.requiredWithChange (terms.availableFee - fee) = .ok required
  omitted : ∀ fee ≤ terms.availableFee, terms.Tries passes start fee →
    isDust (terms.availableFee - fee) = true → ∃ required, terms.requiredNoChange = .ok required

/-- No mass or fee computation of the passes overflows or exceeds a limit. -/
abbrev Priced (terms : FeeTerms) : Prop := terms.PricedFrom MAX_FEE_PASSES terms.minimumFee

theorem PricedFrom.succ {passes : Nat} {fee required : UInt64} (hunsettled : ¬ terms.Settled fee.toNat)
    (hnext : terms.nextFee fee.toNat = required.toNat) (h : terms.PricedFrom (passes + 1) fee) :
    terms.PricedFrom passes required := by
  have htries : ∀ other, terms.Tries passes required other → terms.Tries (passes + 1) fee other := by
    intro other hother
    rw [Tries, ← hnext] at hother
    exact hother.succ hunsettled
  exact ⟨fun other hle hother => h.kept other hle (htries other hother),
    fun other hle hother => h.omitted other hle (htries other hother)⟩

/-- The passes end with a fee when they come to a settled one. -/
theorem settle_ok {passes : Nat} {fee : UInt64} (hpriced : terms.PricedFrom passes fee)
    (hstops : StopsWithin terms.nextFee terms.Settled passes fee.toNat) :
    ∃ result, terms.settle passes fee = .ok result := by
  induction passes generalizing fee with
  | zero => exact absurd hstops not_stopsWithin_zero
  | succ passes ih =>
    rw [settle]
    split
    case isTrue => exact ⟨fee, rfl⟩
    case isFalse hwithin =>
      have hle := UInt64.not_lt.mp hwithin
      have hsub := UInt64.toNat_sub_of_le _ _ hle
      split
      case isTrue hdust =>
        obtain ⟨required, hrequired⟩ := hpriced.omitted fee hle visits_start hdust
        rw [bind_of_ok hrequired]
        exact ⟨_, rfl⟩
      case isFalse hkept =>
        obtain ⟨required, hrequired⟩ :=
          hpriced.kept fee hle visits_start (Bool.eq_false_iff.mpr hkept)
        have hnext : terms.nextFee fee.toNat = required.toNat := by
          rw [requiredWithChange_toNat hrequired, hsub, nextFee]
        rw [bind_of_ok hrequired]
        split
        case isTrue => exact ⟨fee, rfl⟩
        case isFalse hshort =>
          rw [UInt64.le_iff_toNat_le, ← hnext] at hshort
          rw [isDust_iff, hsub] at hkept
          have hunsettled : ¬ terms.Settled fee.toNat := by
            rw [UInt64.le_iff_toNat_le] at hle
            rw [Settled]
            omega
          rw [stopsWithin_succ, hnext] at hstops
          exact ih (hpriced.succ hunsettled hnext) (hstops.resolve_left hunsettled)

theorem nextFee_monotone {fee fee' : Nat} (h : fee ≤ fee') : terms.nextFee fee ≤ terms.nextFee fee' :=
  requiredSompi_antitone (Nat.sub_le_sub_left h _)

/-- A fee the passes go on from, once they are above the size fee, is raised by a gram's fee. -/
theorem nextFee_stride {fee : Nat} (hunsettled : ¬ terms.Settled fee)
    (hbase : max terms.sizeFee terms.minimumFee.toNat ≤ fee) :
    terms.rate ∣ terms.nextFee fee ∧ fee < terms.nextFee fee ∧
      (terms.rate ∣ fee → fee + terms.rate ≤ terms.nextFee fee) := by
  have hraised : fee < terms.nextFee fee := by
    rw [Settled] at hunsettled
    omega
  have hstorage : terms.nextFee fee =
      terms.storageGrams (terms.availableFee.toNat - fee) * terms.rate := by
    rw [nextFee, requiredSompi] at hraised ⊢
    omega
  refine ⟨hstorage ▸ Nat.dvd_mul_left _ _, hraised, fun hdvd => ?_⟩
  obtain ⟨grams, hgrams⟩ := hdvd
  have hmore : grams < terms.storageGrams (terms.availableFee.toNat - fee) := by
    apply @Nat.lt_of_mul_lt_mul_right terms.rate
    rw [← hstorage, Nat.mul_comm grams, ← hgrams]
    exact hraised
  calc fee + terms.rate = (grams + 1) * terms.rate := by rw [hgrams]; ring
    _ ≤ terms.storageGrams (terms.availableFee.toNat - fee) * terms.rate :=
      Nat.mul_le_mul_right _ hmore
    _ = terms.nextFee fee := hstorage.symm

theorem base_le_nextFee (fee : Nat) :
    max terms.sizeFee terms.minimumFee.toNat ≤ terms.nextFee fee := by
  rw [nextFee, requiredSompi]
  omega

theorem rate_pos : 0 < terms.rate := by
  have hleast : MIN_STANDARD_FEE_RATE_SOMPI_PER_GRAM.toNat = 100 := rfl
  rw [rate, toNat_max, hleast]
  omega

/-! ## Settling near the first fee -/

/-- The fee that the change requires and the fee it leaves stay `stride` apart where they come closest,
at the change of the root of `10^12` times the rate. -/
def Apart (terms : FeeTerms) (stride : Nat) : Prop :=
  (terms.availableFee.toNat + stride + terms.rate * (spentMass terms.inputs 2 + 1) -
    terms.rate * (1000000000000 / max terms.amount.toNat 1)) ^ 2 ≤ 4 * (terms.rate * 1000000000000)

/-- Two numbers whose product is as large as a square's quarter add up to its side. -/
theorem side_le_add {side a b : Nat} (h : side ^ 2 ≤ 4 * (a * b)) : side ≤ a + b := by
  by_contra hlt
  have hsquare : (a + b + 1) ^ 2 ≤ side ^ 2 := Nat.pow_le_pow_left (by omega) 2
  have hmean : 4 * (a * b) ≤ (a + b) ^ 2 := by
    rw [add_sq]
    obtain hle | hle := Nat.le_total a b
    · obtain ⟨d, rfl⟩ := Nat.exists_eq_add_of_le hle
      nlinarith
    · obtain ⟨d, rfl⟩ := Nat.exists_eq_add_of_le hle
      nlinarith
  nlinarith

/-- Curves that are apart raise every fee by as much. -/
theorem stride_of_apart {stride fee : Nat} (h : terms.Apart stride)
    (hfee : fee < terms.availableFee.toNat) : fee + stride ≤ terms.nextFee fee := by
  set change := terms.availableFee.toNat - fee with hchange
  set quotient := 1000000000000 / change with hquotient
  have hcovers : 1000000000000 ≤ change * (quotient + 1) :=
    Nat.le_of_lt (Nat.lt_mul_div_succ _ (by omega))
  have hsides : terms.availableFee.toNat + stride + terms.rate * (spentMass terms.inputs 2 + 1) -
      terms.rate * (1000000000000 / max terms.amount.toNat 1) ≤
        change + terms.rate * (quotient + 1) := by
    refine side_le_add (Nat.le_trans h (Nat.mul_le_mul_left 4 ?_))
    calc terms.rate * 1000000000000 ≤ terms.rate * (change * (quotient + 1)) :=
          Nat.mul_le_mul_left _ hcovers
      _ = change * (terms.rate * (quotient + 1)) := by ring
  have hgrams : terms.rate * (1000000000000 / max terms.amount.toNat 1) + terms.rate * quotient ≤
      terms.storageGrams change * terms.rate + terms.rate * spentMass terms.inputs 2 := by
    have hmax : max change 1 = change := Nat.max_eq_left (by omega)
    have hsum : 1000000000000 / max terms.amount.toNat 1 + quotient ≤
        terms.storageGrams change + spentMass terms.inputs 2 := by
      rw [storageGrams, hmax]
      omega
    have hscaled := Nat.mul_le_mul_left terms.rate hsum
    rw [Nat.mul_add, Nat.mul_add] at hscaled
    rwa [Nat.mul_comm (terms.storageGrams change)]
  have hrequired : terms.storageGrams change * terms.rate ≤ terms.nextFee fee := by
    rw [nextFee, requiredSompi, ← hchange]
    omega
  rw [Nat.mul_add, Nat.mul_add, Nat.mul_one] at hsides
  omega

/-- A fee that pays for itself, or the largest fee that leaves change worth keeping, is less than 253
strides above the first fee required: of a gram's fee each, or as far as the curves are apart. -/
def SettlesNear (terms : FeeTerms) : Prop :=
  ∃ ceiling stride, (stride = terms.rate ∨ terms.Apart stride) ∧
    (terms.minimumFee.toNat ≤ ceiling ∧ terms.nextFee ceiling ≤ ceiling ∨
      terms.availableFee.toNat - 9999901 ≤ ceiling) ∧
    ceiling < terms.nextFee terms.minimumFee.toNat + 253 * stride

/-- The first two fees settle, or the third is in whole grams and still below a fee that pays. -/
theorem stopsWithin_of_third {rounds : Nat}
    (h : terms.rate ∣ terms.nextFee (terms.nextFee terms.minimumFee.toNat) →
      terms.nextFee terms.minimumFee.toNat ≤
        terms.nextFee (terms.nextFee terms.minimumFee.toNat) →
      (∀ fee, terms.minimumFee.toNat ≤ fee → terms.nextFee fee ≤ fee →
        terms.nextFee (terms.nextFee terms.minimumFee.toNat) ≤ fee) →
      StopsWithin terms.nextFee terms.Settled rounds
        (terms.nextFee (terms.nextFee terms.minimumFee.toNat))) :
    StopsWithin terms.nextFee terms.Settled (rounds + 2) terms.minimumFee.toNat := by
  rw [stopsWithin_succ]
  by_cases hzero : terms.Settled terms.minimumFee.toNat
  · exact .inl hzero
  refine .inr (stopsWithin_succ.mpr ?_)
  by_cases hone : terms.Settled (terms.nextFee terms.minimumFee.toNat)
  · exact .inl hone
  obtain ⟨hdvd, hraised, _⟩ := nextFee_stride hone (base_le_nextFee _)
  refine .inr (h hdvd (Nat.le_of_lt hraised) fun fee hmin hpays => ?_)
  have hfirst : terms.nextFee terms.minimumFee.toNat ≤ fee :=
    Nat.le_trans (nextFee_monotone hmin) hpays
  exact Nat.le_trans (nextFee_monotone hfirst) hpays

/-- The passes are enough for a fee that is so near. -/
theorem stopsWithin_of_settlesNear (h : terms.SettlesNear) :
    StopsWithin terms.nextFee terms.Settled MAX_FEE_PASSES terms.minimumFee.toNat := by
  obtain ⟨ceiling, stride, happart, hceiling, hroom⟩ := h
  -- From the third fee on: whole grams, above the size fee and below a ceiling that pays for itself.
  let inv := fun fee => terms.rate ∣ fee ∧ max terms.sizeFee terms.minimumFee.toNat ≤ fee ∧
    (terms.minimumFee.toNat ≤ ceiling ∧ terms.nextFee ceiling ≤ ceiling → fee ≤ ceiling)
  have hclimb : ∀ fee, inv fee → ¬ terms.Settled fee →
      fee ≤ ceiling ∧ fee + stride ≤ terms.nextFee fee ∧ inv (terms.nextFee fee) := by
    intro fee hinv hunsettled
    obtain ⟨hdvd, hge, hle⟩ := hinv
    obtain ⟨hnext, _, hstride⟩ := nextFee_stride hunsettled hge
    refine ⟨?_, ?_, hnext, base_le_nextFee fee,
      fun hpays => Nat.le_trans (nextFee_monotone (hle hpays)) hpays.2⟩
    · cases hceiling with
      | inl hpays => exact hle hpays
      | inr hlast =>
        rw [Settled] at hunsettled
        omega
    · cases happart with
      | inl heq => exact heq ▸ hstride hdvd
      | inr happart =>
        rw [Settled] at hunsettled
        exact stride_of_apart happart (by omega)
  refine @stopsWithin_of_third terms 254 fun hdvd hfirst hbelow => ?_
  exact stopsWithin_of_stride hclimb
    ⟨hdvd, base_le_nextFee _, fun hpays => hbelow ceiling hpays.1 hpays.2⟩ (by omega)

/-! ## Settling where the required fee rises slowly -/

/-- At a fee that pays for itself, a sompi more takes at most seven eighths of a sompi more. -/
def Contracts (terms : FeeTerms) : Prop :=
  ∃ fee, terms.minimumFee.toNat ≤ fee ∧ terms.nextFee fee ≤ fee ∧
    8 * (terms.rate * 1000000000000) ≤ 7 * (terms.availableFee.toNat - fee) ^ 2

/-- A reciprocal falls with a slope of at most the one at the smaller argument, but for its
rounding. -/
theorem mul_div_sub_div_le {c small large rate : Nat} (hpos : 0 < small) (hle : small ≤ large)
    (hslope : 8 * (rate * c) ≤ 7 * small ^ 2) :
    8 * (rate * (c / small - c / large)) ≤ 7 * (large - small) + 8 * rate := by
  set high := c / small with hhigh
  set low := c / large with hlow
  have hhighLe : high * small ≤ c := Nat.div_mul_le_self c small
  have hlowLt : c < (low + 1) * large := by
    rw [Nat.mul_comm]
    exact Nat.lt_mul_div_succ c (by omega)
  obtain ⟨gap, rfl⟩ := Nat.exists_eq_add_of_le hle
  rw [Nat.add_sub_cancel_left]
  obtain hclose | hfar := Nat.le_total high (low + 1)
  · have hone : rate * (high - low) ≤ rate * 1 := Nat.mul_le_mul_left rate (by omega)
    omega
  · obtain ⟨steps, hsteps⟩ := Nat.exists_eq_add_of_le hfar
    have hgap : steps * (small + gap) ≤ high * gap := by
      rw [hsteps] at hhighLe ⊢
      nlinarith
    have hslow : 8 * (rate * steps) ≤ 7 * gap := by
      refine Nat.le_of_mul_le_mul_left ?_ (Nat.mul_pos hpos (show 0 < small + gap by omega))
      calc small * (small + gap) * (8 * (rate * steps))
          = 8 * rate * small * (steps * (small + gap)) := by ring
        _ ≤ 8 * rate * small * (high * gap) := Nat.mul_le_mul_left _ hgap
        _ = 8 * (rate * (high * small)) * gap := by ring
        _ ≤ 8 * (rate * c) * gap :=
          Nat.mul_le_mul_right gap (Nat.mul_le_mul_left 8 (Nat.mul_le_mul_left rate hhighLe))
        _ ≤ 7 * small ^ 2 * gap := Nat.mul_le_mul_right gap hslope
        _ = small * small * (7 * gap) := by ring
        _ ≤ small * (small + gap) * (7 * gap) :=
          Nat.mul_le_mul_right _ (Nat.mul_le_mul_left small (Nat.le_add_right small gap))
    have hdiff : high - low = steps + 1 := by omega
    rw [hdiff, Nat.mul_add, Nat.mul_one]
    omega

/-- Below a fee that pays for itself is the least one, which is exactly what its change requires. -/
theorem exists_least_fee {fee : Nat} (hmin : terms.minimumFee.toNat ≤ fee)
    (hpays : terms.nextFee fee ≤ fee) :
    ∃ least ≤ fee, terms.minimumFee.toNat ≤ least ∧ terms.nextFee least = least := by
  classical
  let P := fun n => terms.minimumFee.toNat ≤ n ∧ terms.nextFee n ≤ n
  have hexists : ∃ n, P n := ⟨fee, hmin, hpays⟩
  obtain ⟨hleastMin, hleastPays⟩ := Nat.find_spec hexists
  refine ⟨Nat.find hexists, Nat.find_min' hexists ⟨hmin, hpays⟩, hleastMin, ?_⟩
  refine Nat.le_antisymm hleastPays (Nat.find_min' hexists ⟨?_, nextFee_monotone hleastPays⟩)
  exact Nat.le_trans (Nat.le_max_right _ _) (base_le_nextFee _)

/-- A pass takes an eighth off the way to the fee, but for a gram's fee. -/
theorem nextFee_contracts {fee other : Nat} (hfixed : terms.nextFee fee = fee)
    (hslope : 8 * (terms.rate * 1000000000000) ≤ 7 * (terms.availableFee.toNat - fee) ^ 2)
    (hother : other ≤ fee) :
    8 * (fee - terms.nextFee other) ≤ 7 * (fee - other) + 8 * terms.rate := by
  have hrate := @rate_pos terms
  have hbase := @base_le_nextFee terms other
  have hleft : 0 < terms.availableFee.toNat - fee := by
    by_contra hzero
    have hnone : terms.availableFee.toNat - fee = 0 := by omega
    rw [hnone] at hslope
    omega
  obtain hsmall | hlarge := Nat.le_total fee (max terms.sizeFee terms.minimumFee.toNat)
  · omega
  · have hkept := mul_div_sub_div_le hleft
      (show _ ≤ terms.availableFee.toNat - other by omega) hslope
    have hfee : fee = max (max terms.sizeFee
        (terms.storageGrams (terms.availableFee.toNat - fee) * terms.rate))
          terms.minimumFee.toNat := by
      conv_lhs => rw [← hfixed, nextFee, requiredSompi]
    have hgrams : terms.storageGrams (terms.availableFee.toNat - fee) ≤
        terms.storageGrams (terms.availableFee.toNat - other) +
          (1000000000000 / (terms.availableFee.toNat - fee) -
            1000000000000 / (terms.availableFee.toNat - other)) := by
      rw [storageGrams, storageGrams, Nat.max_eq_left (show 1 ≤ terms.availableFee.toNat - fee by omega),
        Nat.max_eq_left (show 1 ≤ terms.availableFee.toNat - other by omega)]
      omega
    have hprice := Nat.mul_le_mul_right terms.rate hgrams
    rw [Nat.add_mul, Nat.mul_comm (_ - _) terms.rate] at hprice
    have hrequired : terms.storageGrams (terms.availableFee.toNat - other) * terms.rate ≤
        terms.nextFee other := by
      rw [nextFee, requiredSompi]
      omega
    omega

/-- The passes are enough where they contract. -/
theorem stopsWithin_of_contracts (h : terms.Contracts) :
    StopsWithin terms.nextFee terms.Settled MAX_FEE_PASSES terms.minimumFee.toNat := by
  obtain ⟨fee, hmin, hpays, hslope⟩ := h
  obtain ⟨least, hle, hleastMin, hfixed⟩ := exists_least_fee hmin hpays
  have hsquare : (terms.availableFee.toNat - fee) ^ 2 ≤ (terms.availableFee.toNat - least) ^ 2 :=
    Nat.pow_le_pow_left (by omega) 2
  have hslope : 8 * (terms.rate * 1000000000000) ≤ 7 * (terms.availableFee.toNat - least) ^ 2 := by
    omega
  let inv := fun fee => terms.rate ∣ fee ∧ max terms.sizeFee terms.minimumFee.toNat ≤ fee ∧
    fee ≤ least
  have hclimb : ∀ fee, inv fee → ¬ terms.Settled fee →
      fee ≤ least ∧ fee + terms.rate ≤ terms.nextFee fee ∧
        8 * (least - terms.nextFee fee) ≤ 7 * (least - fee) + 8 * terms.rate ∧
          inv (terms.nextFee fee) := by
    intro fee hinv hunsettled
    obtain ⟨hdvd, hge, hbelow⟩ := hinv
    obtain ⟨hnext, _, hstride⟩ := nextFee_stride hunsettled hge
    refine ⟨hbelow, hstride hdvd, nextFee_contracts hfixed hslope hbelow, hnext,
      base_le_nextFee fee, ?_⟩
    rw [← hfixed]
    exact nextFee_monotone hbelow
  -- A fee of storage mass is at most `2 * 10^12` grams' fee.
  have hway : least - terms.nextFee (terms.nextFee terms.minimumFee.toNat) ≤
      8 * terms.rate + 2000000000000 * terms.rate := by
    have hbase := @base_le_nextFee terms (terms.nextFee terms.minimumFee.toNat)
    have hgrams : terms.storageGrams (terms.availableFee.toNat - least) ≤ 2000000000000 := by
      have hpayment := Nat.div_le_self 1000000000000 (max terms.amount.toNat 1)
      have hchange := Nat.div_le_self 1000000000000 (max (terms.availableFee.toNat - least) 1)
      rw [storageGrams]
      omega
    have hprice := Nat.mul_le_mul_right terms.rate hgrams
    have hfee : least = max (max terms.sizeFee
        (terms.storageGrams (terms.availableFee.toNat - least) * terms.rate))
          terms.minimumFee.toNat := by
      conv_lhs => rw [← hfixed, nextFee, requiredSompi]
    omega
  refine @stopsWithin_of_third terms 254 fun hdvd _ hbelow => ?_
  have hstart : inv (terms.nextFee (terms.nextFee terms.minimumFee.toNat)) :=
    ⟨hdvd, base_le_nextFee _, hbelow least hleastMin (Nat.le_of_eq hfixed)⟩
  exact @stopsWithin_of_contraction _ _ _ _ _ hclimb 243 2000000000000 _ hstart (by norm_num) hway
    rate_pos

/-- The fee settles near the first one that is required, or the passes contract towards it. -/
def SettlesSoon (terms : FeeTerms) : Prop := terms.SettlesNear ∨ terms.Contracts

/-- With one input every storage mass can be computed, so pricing is up to the rate and the size. -/
theorem priced_of_single {utxo : CovenantBuilder.UtxoEntry} {triple : UInt64 × UInt64 × UInt64}
    {required : UInt64} (hselected : terms.selected = [utxo])
    (hlengths : terms.outputScriptLengths.length = 2) (hrate : terms.rate ≤ 9000000)
    (hestimate : estimateNonContextualFee 1 terms.outputScriptLengths terms.payloadLen
      (max terms.feeRate MIN_STANDARD_FEE_RATE_SOMPI_PER_GRAM) = .ok triple)
    (homitted : terms.requiredNoChange = .ok required) : terms.Priced where
  omitted _ _ _ _ := ⟨required, homitted⟩
  kept fee _ _ _ := by
    set change := terms.availableFee - fee
    obtain ⟨mass, hmass, hbound⟩ := storageMassEstimate_single utxo.amount terms.amount change
    obtain ⟨nonContextual, compute, transient⟩ := triple
    have hproduct : mass.toNat * terms.rate ≤ 2000000000000 * 9000000 :=
      Nat.mul_le_mul hbound hrate
    have hfee : (UInt64.ofNat (mass.toNat * terms.rate)).toNat = mass.toNat * terms.rate :=
      ofNat_toNat (by omega)
    have hscripts : okOr "missing output script length for fee estimate"
        (if 2 ≤ terms.outputScriptLengths.length then some (terms.outputScriptLengths.take 2)
          else none) = .ok terms.outputScriptLengths := by
      rw [hlengths, if_pos (Nat.le_refl 2), List.take_of_length_le (Nat.le_of_eq hlengths)]
      rfl
    refine ⟨max (max nonContextual (UInt64.ofNat (mass.toNat * terms.rate))) terms.minimumFee,
      (bind_of_ok hscripts).trans ?_⟩
    have houtputs : ¬ terms.outputScriptLengths.length ≠
        [(terms.amount, (1 : UInt64)), (change, 1)].length := not_not_intro hlengths
    rw [requiredMassFeeForScripts, if_neg houtputs, inputs, hselected]
    refine (bind_of_ok hestimate).trans ((bind_of_ok hmass).trans ?_)
    exact bind_of_ok (okOr_checkedMul_eq _ hfee)

end FeeTerms

end KaspaPortal.Transaction.StandardBuilder

namespace KaspaPortal.Guarantees
open Lib Transaction StandardBuilder CovenantBuilder Model

namespace FeeFixpoint

/-- An output of the wallet to spend. -/
def utxo (amount : UInt64) : CovenantBuilder.UtxoEntry :=
  ⟨List.replicate 64 0x30, 0, amount, p2pkScript (zeros 32), 0, none⟩

/-- Sending `amount` out of one output, at the minimum fee and without a payload. -/
def fee (spent amount feeRate : UInt64) : Except String UInt64 :=
  storageMassFeeWithPayload [utxo spent] spent amount 0 0 [34, 34] feeRate

def terms (spent amount feeRate : UInt64) : FeeTerms :=
  feeTerms [utxo spent] spent amount 0 0 [34, 34] feeRate

end FeeFixpoint

open FeeFixpoint

/-- A fee within what the selection leaves pays for the transaction that is planned with it, and
where that transaction keeps its change no lower fee would: not from the minimum on, and not with
change that is worth keeping. -/
theorem fee_fixpoint {selected : List CovenantBuilder.UtxoEntry}
    {selectedTotal amount requestedFee feeRate fee : UInt64} {payloadLen : Nat} {lengths : List Nat}
    (h : storageMassFeeWithPayload selected selectedTotal amount requestedFee payloadLen lengths
      feeRate = .ok fee)
    (havailable : fee ≤ selectedTotal - amount) :
    let terms := feeTerms selected selectedTotal amount requestedFee payloadLen lengths feeRate
    ∃ change required, calculateChange selectedTotal amount fee = .ok change ∧
      terms.requiredOf change = .ok required ∧ required ≤ fee ∧ terms.minimumFee ≤ fee ∧
        (change ≠ 0 → terms.PaysForItself fee ∧ ∀ other, terms.PaysForItself other → fee ≤ other) := by
  intro terms
  obtain ⟨change, required, hfee⟩ := storageMassFeeWithPayload_pays h havailable
  refine ⟨change, required, hfee.planned, hfee.requires, hfee.paid, hfee.minimum,
    fun hne => ⟨hfee.kept hne, ?_⟩⟩
  intro other hother
  exact storageMassFeeWithPayload_le h hother

/-- Half a KAS out of one. -/
theorem fee_fixpoint_sample :
    ∃ change required, calculateChange 100000000 50000000 3463680 = .ok change ∧
      (terms 100000000 50000000 110).requiredOf change = .ok required ∧ required ≤ 3463680 ∧
        (terms 100000000 50000000 110).minimumFee ≤ 3463680 ∧
          (change ≠ 0 → (terms 100000000 50000000 110).PaysForItself 3463680 ∧
            ∀ other, (terms 100000000 50000000 110).PaysForItself other → 3463680 ≤ other) := by
  have hfee : fee 100000000 50000000 110 = .ok 3463680 := by decide
  exact fee_fixpoint hfee (by decide)

/-- Where the fees that are tried can be checked and the passes settle soon, a fee is returned. -/
theorem fee_converges {selected : List CovenantBuilder.UtxoEntry}
    {selectedTotal amount requestedFee feeRate required : UInt64} {payloadLen : Nat}
    {lengths : List Nat}
    (hrequired : checkedRequired amount (max MINIMUM_PLANNER_FEE requestedFee) = .ok required)
    (hamount : amount ≤ selectedTotal)
    (hpriced : (feeTerms selected selectedTotal amount requestedFee payloadLen lengths
      feeRate).Priced)
    (hsoon : (feeTerms selected selectedTotal amount requestedFee payloadLen lengths
      feeRate).SettlesSoon) :
    ∃ fee, storageMassFeeWithPayload selected selectedTotal amount requestedFee payloadLen lengths
      feeRate = .ok fee := by
  obtain ⟨fee, hfee⟩ := FeeTerms.settle_ok hpriced
    (hsoon.elim FeeTerms.stopsWithin_of_settlesNear FeeTerms.stopsWithin_of_contracts)
  exact ⟨fee, storageMassFeeWithPayload_eq_ok.mpr ⟨⟨required, hrequired⟩, hamount, hfee⟩⟩

/-- Half a KAS out of one: the change of 46536320 sompi pays for itself. -/
theorem fee_converges_sample : ∃ result, fee 100000000 50000000 110 = .ok result := by
  have hrequired : checkedRequired 50000000 (max MINIMUM_PLANNER_FEE 0) = .ok 50300000 := by
    decide
  have hestimate : estimateNonContextualFee 1 [34, 34] 0
      (max 110 MIN_STANDARD_FEE_RATE_SOMPI_PER_GRAM) = .ok (223960, 2036, 1264) := by
    decide
  have homitted : (terms 100000000 50000000 110).requiredNoChange = .ok 1100000 := by
    decide
  have hpriced : (terms 100000000 50000000 110).Priced :=
    FeeTerms.priced_of_single rfl rfl (by decide) hestimate homitted
  have hsoon : (terms 100000000 50000000 110).SettlesSoon :=
    .inr ⟨3463680, by decide, by decide, by decide⟩
  exact fee_converges hrequired (by decide) hpriced hsoon

/-- From 10000.2 KAS, 10000 KAS cannot be sent: the fee creeps up by a gram a pass towards change that
would be left out, and is given up on halfway. -/
theorem fee_does_not_converge :
    checkedRequired 1000000000000 (max MINIMUM_PLANNER_FEE 0) = .ok 1000000300000 ∧
      (1000000000000 : UInt64) ≤ 1000020000000 ∧
      (terms 1000020000000 1000000000000 100).Priced ∧
      fee 1000020000000 1000000000000 100 =
        .error "payload-aware storage-mass fee calculation did not converge" ∧
      ¬ ∃ result, fee 1000020000000 1000000000000 100 = .ok result := by
  have hestimate : estimateNonContextualFee 1 [34, 34] 0
      (max 100 MIN_STANDARD_FEE_RATE_SOMPI_PER_GRAM) = .ok (203600, 2036, 1264) := by
    decide
  have homitted : (terms 1000020000000 1000000000000 100).requiredNoChange = .ok 300000 := by
    decide
  have hfee : fee 1000020000000 1000000000000 100 =
      .error "payload-aware storage-mass fee calculation did not converge" := by
    decide
  refine ⟨by decide, by decide,
    FeeTerms.priced_of_single rfl rfl (by decide) hestimate homitted, hfee, ?_⟩
  intro h
  obtain ⟨result, hresult⟩ := h
  rw [hfee] at hresult
  cases hresult

end KaspaPortal.Guarantees

/-!
## Planned fees are the fees of the signed transaction

`estimate_non_contextual_fee_for_shape` computes sizes, masses and the fee from counts and
lengths; `analyze_verified` computes them from the transaction that was signed.
-/
namespace KaspaPortal.Guarantees
open Lib Primitives Transaction Pskt CovenantBuilder Model

/-- The result of an estimate for masses a signed transaction has. -/
def estimateOf (analysis : TransactionAnalysis) (fee : UInt64) :
    Except String (UInt64 × UInt64 × UInt64) :=
  if analysis.computeMassValid && analysis.transientMassValid then
    .ok (fee, analysis.computeMass, analysis.transientMass)
  else .error "planned transaction exceeds Kaspa non-contextual mass limits"

theorem estimateOf_eq {analysis : TransactionAnalysis}
    (hcompute : analysis.computeMassValid = decide (analysis.computeMass ≤ MAX_COMPUTE_MASS))
    (htransient :
      analysis.transientMassValid = decide (analysis.transientMass ≤ MAX_TRANSIENT_MASS))
    (fee : UInt64) :
    estimateOf analysis fee =
      if analysis.computeMass ≤ MAX_COMPUTE_MASS ∧ analysis.transientMass ≤ MAX_TRANSIENT_MASS then
        .ok (fee, analysis.computeMass, analysis.transientMass)
      else .error "planned transaction exceeds Kaspa non-contextual mass limits" := by
  rw [estimateOf, hcompute, htransient, ← Bool.decide_and]
  simp only [decide_eq_true_eq]

section
variable {tx : ConsensusTransaction} {shape : SignedInputShape}
  {size compute transient normalized rate fee : UInt64}

/-- An estimate repeats a computation of the signed transaction's masses step by step. -/
theorem estimate_signed (hversion : tx.txVersion = 0)
    (hplain : ∀ output ∈ tx.outputs, output.covenant = none)
    (hshape : ∀ input ∈ tx.inputs, shape.Signs input)
    (hlen : shape.signatureScriptLen.toNat < 2 ^ 63)
    (hsize : estimatedSerializedSize tx = .ok size) (hcompute : computeMass tx size = .ok compute)
    (htransient : transient.toNat = size.toNat * 4)
    (hnormalized : normalizeMass transient MAX_COMPUTE_MASS MAX_TRANSIENT_MASS = .ok normalized)
    (hfee : fee.toNat = (max compute normalized).toNat *
      (max rate MIN_STANDARD_FEE_RATE_SOMPI_PER_GRAM).toNat) :
    estimateNonContextualFeeForShape shape tx.inputs.length (outputScriptLengths tx)
        tx.payload.length rate =
      if compute ≤ MAX_COMPUTE_MASS ∧ transient ≤ MAX_TRANSIENT_MASS then
        .ok (fee, compute, transient)
      else .error "planned transaction exceeds Kaspa non-contextual mass limits" := by
  have hplan := estimatedPlanSize_signed hversion hplain hshape hlen hsize hcompute
  obtain ⟨scripts, hscripts, hsum⟩ := bind_eq_ok.mp hcompute
  obtain ⟨signatures, hsignatures, hsum⟩ := bind_eq_ok.mp hsum
  obtain ⟨inputCount, hcount, _⟩ := bind_eq_ok.mp hplan
  have hsigOps := sigOpMass_signed hshape (lengthU64_toNat hcount) hsignatures
  rw [estimateNonContextualFeeForShape, bind_of_ok hplan,
    bind_of_ok (planScriptMass_signed.trans hscripts)]
  refine (bind_of_ok hcount).trans ?_
  refine (bind_of_ok (okOr_eq_ok.mpr hsigOps)).trans ?_
  refine (bind_of_ok hsum).trans ?_
  refine (bind_of_ok (okOr_checkedMul_eq _ htransient)).trans ?_
  split
  case isTrue hlimits =>
    refine (bind_of_ok hnormalized).trans ?_
    exact bind_of_ok (okOr_checkedMul_eq _ hfee)
  case isFalse hlimits =>
    rfl

end

/-- The estimate from counts and lengths is the analysis of every signed transaction that has
them: the same masses, its minimum fee at the minimum rate and its recommended fee at its own rate,
refused exactly when one of the masses is over its limit. A script has no more bytes than memory
addresses, which bounds the shape. -/
theorem estimate_eq_analysis {verified : VerifiedTransaction} {transaction : ConsensusTransaction}
    {storageMass rate : UInt64} {analysis : TransactionAnalysis} {shape : SignedInputShape}
    (htransaction : toConsensus verified = .ok (transaction, storageMass))
    (hanalysis : analyzeVerified verified rate = .ok analysis)
    (hversion : transaction.txVersion = 0)
    (hplain : ∀ output ∈ transaction.outputs, output.covenant = none)
    (hshape : ∀ input ∈ transaction.inputs, shape.Signs input)
    (hlen : shape.signatureScriptLen.toNat < 2 ^ 63) :
    estimateNonContextualFeeForShape shape transaction.inputs.length
        (outputScriptLengths transaction) transaction.payload.length
        MIN_STANDARD_FEE_RATE_SOMPI_PER_GRAM = estimateOf analysis analysis.minimumFeeSompi ∧
      estimateNonContextualFeeForShape shape transaction.inputs.length
        (outputScriptLengths transaction) transaction.payload.length rate =
          estimateOf analysis analysis.recommendedFeeSompi := by
  obtain ⟨transaction', storageMass', htransaction', hsize, hcompute, htransient, hnormalized,
    hmass, hminimum, hrecommended, hcomputeValid, htransientValid⟩ := analyzeVerified_spec hanalysis
  cases htransaction.symm.trans htransaction'
  have hestimate := fun fee => estimateOf_eq hcomputeValid htransientValid fee
  rw [hestimate, hestimate]
  rw [hmass] at hminimum hrecommended
  constructor
  · exact estimate_signed hversion hplain hshape hlen hsize hcompute htransient hnormalized hminimum
  · exact estimate_signed hversion hplain hshape hlen hsize hcompute htransient hnormalized
      hrecommended

namespace FeeEstimate

/-- Two signed inputs of ten KAS, two outputs and three bytes of payload. -/
def signed : VerifiedTransaction where
  version := 0
  locktime := 0
  subnetworkId := zeros 20
  gas := 0
  payload := [1, 2, 3]
  inputs := [
    ⟨zeros 32, 0, 1000000000, 0, 1, 0, p2pkScript (zeros 32), false, .p2pk ⟨0, SIGHASH_ALL, zeros 64⟩⟩,
    ⟨zeros 32, 1, 1000000000, 0, 1, 0, p2pkScript (zeros 32), false, .p2pk ⟨0, SIGHASH_ALL, zeros 64⟩⟩]
  outputs := [⟨100000000, 0, p2shScript (zeros 32), none⟩,
    ⟨1800000000, 0, p2pkScript (zeros 32), none⟩]

def transaction : ConsensusTransaction where
  txVersion := 0
  inputs := [⟨zeros 32, 0, 65 :: ((zeros 64).val ++ [SIGHASH_ALL]), 0, 1⟩,
    ⟨zeros 32, 1, 65 :: ((zeros 64).val ++ [SIGHASH_ALL]), 0, 1⟩]
  outputs := [⟨100000000, 0, p2shScript (zeros 32), none⟩,
    ⟨1800000000, 0, p2pkScript (zeros 32), none⟩]
  locktime := 0
  subnetworkId := zeros 20
  gas := 0
  payload := [1, 2, 3]

end FeeEstimate

open FeeEstimate

theorem estimate_eq_analysis_sample : ∃ analysis storageMass,
    toConsensus signed = .ok (transaction, storageMass) ∧
      analyzeVerified signed 150 = .ok analysis ∧
      estimateNonContextualFee 2 [35, 34] 3 100 =
        estimateOf analysis analysis.minimumFeeSompi ∧
      estimateNonContextualFee 2 [35, 34] 3 150 =
        estimateOf analysis analysis.recommendedFeeSompi := by
  have hanalyzed : (analyzeVerified signed 150).isOk = true := by decide
  obtain ⟨analysis, hanalysis⟩ := exists_ok hanalyzed
  have htransaction : toConsensus signed = .ok (transaction, 8555) := by decide
  have hshape : ∀ input ∈ transaction.inputs, SignedInputShape.P2PK.Signs input :=
    List.forall_mem_cons.mpr ⟨⟨rfl, rfl⟩, List.forall_mem_singleton.mpr ⟨rfl, rfl⟩⟩
  have hplain : ∀ output ∈ transaction.outputs, output.covenant = none :=
    List.forall_mem_cons.mpr ⟨rfl, List.forall_mem_singleton.mpr rfl⟩
  refine ⟨analysis, 8555, htransaction, hanalysis, ?_⟩
  exact estimate_eq_analysis htransaction hanalysis rfl hplain hshape (by decide)

end KaspaPortal.Guarantees
