import Mathlib.Algebra.Order.BigOperators.Group.List
import KaspaPortal.Contract.Covenant.Allowance

/-!
# The allowance cap across inputs

Each allowance input asks output 0 to return its own amount less the cap.
Nothing keeps several inputs from pointing at the same output 0, so together
they bind it only to the largest of their amounts. `allowance_outflow_capped_iff`
gives the amounts for which that is still enough.

Fees and the other output of a spend are the transaction's own affair: the cap is
about what leaves the script's outputs.
-/
namespace KaspaPortal.Guarantees
open Lib Primitives Transaction Contract.Script Engine Contract.Covenant

namespace AllowanceOutflow

structure AllowanceTerms where
  ownerPubkey : FixedBytes 32
  beneficiaryPubkey : FixedBytes 32
  maxWithdrawSompi : UInt64
  minSequence : UInt64
  startDaa : UInt64

def AllowanceTerms.script (terms : AllowanceTerms) : Bytes :=
  buildAllowanceScript terms.ownerPubkey terms.beneficiaryPubkey terms.maxWithdrawSompi
    terms.minSequence terms.startDaa

def ownSpk (c : Crypto) (terms : AllowanceTerms) : Bytes :=
  spkBytes 0 (p2shScript (c.blake2b terms.script))

/-- The amounts of the inputs the allowance locks. -/
def lockedAmounts (c : Crypto) (terms : AllowanceTerms) (t : PopulatedTransaction) : List UInt64 :=
  (t.entries.filter (·.spk = ownSpk c terms)).map UtxoEntry.amount

/-- What the outputs pay back to the allowance. -/
def returned (c : Crypto) (terms : AllowanceTerms) (t : PopulatedTransaction) : Nat :=
  ((t.tx.outputs.filter (·.spk = ownSpk c terms)).map (·.value.toNat)).sum

/-- Every allowance input is unlocked through the beneficiary path. -/
def BeneficiarySpends (c : Crypto) (terms : AllowanceTerms) (t : PopulatedTransaction) : Prop :=
  ∀ (i : Nat) e, t.entries[i]? = some e → e.spk = ownSpk c terms →
    ∃ selector rest, asBool selector = false ∧
      succeeds ⟨c, t, i⟩ terms.script (selector :: rest) = true

def total (amounts : List UInt64) : Nat := (amounts.map UInt64.toNat).sum

def largest (amounts : List UInt64) : Nat := (amounts.map UInt64.toNat).foldr max 0

/-- However a beneficiary spends allowance inputs of these amounts, at most the
cap leaves per input. -/
def OutflowCapped (c : Crypto) (terms : AllowanceTerms) (amounts : List UInt64) : Prop :=
  ∀ t, lockedAmounts c terms t = amounts → BeneficiarySpends c terms t →
    total amounts ≤ returned c terms t + amounts.length * terms.maxWithdrawSompi.toNat

/-- Nothing exceeds signed 64-bit script arithmetic. -/
structure Fits (terms : AllowanceTerms) (amounts : List UInt64) : Prop where
  cap : terms.maxWithdrawSompi.toNat < 2 ^ 63
  sequence : terms.minSequence.toNat < 2 ^ 63
  start : terms.startDaa.toNat < 2 ^ 63
  each : ∀ a ∈ amounts, a.toNat < 2 ^ 63
  count : amounts.length ≤ 2 ^ 63

theorem le_largest {amounts : List UInt64} {a : UInt64} (h : a ∈ amounts) :
    a.toNat ≤ largest amounts := by
  induction amounts with
  | nil => cases h
  | cons b bs ih =>
    simp only [largest, List.map_cons, List.foldr_cons]
    rcases List.mem_cons.mp h with rfl | h
    · exact Nat.le_max_left _ _
    · exact Nat.le_trans (ih h) (Nat.le_max_right _ _)

theorem largest_le {amounts : List UInt64} {n : Nat} (h : ∀ a ∈ amounts, a.toNat ≤ n) :
    largest amounts ≤ n := by
  induction amounts with
  | nil => exact Nat.zero_le n
  | cons b bs ih =>
    simp only [largest, List.map_cons, List.foldr_cons]
    exact Nat.max_le.mpr ⟨h b (by simp), ih fun a ha => h a (by simp [ha])⟩

theorem total_le {amounts : List UInt64} {n : Nat} (h : ∀ a ∈ amounts, a.toNat ≤ n) :
    total amounts ≤ amounts.length * n := by
  have := List.sum_le_card_nsmul (amounts.map UInt64.toNat) n (by simpa using h)
  simpa [total] using this

section spends
variable {c : Crypto} {terms : AllowanceTerms} {t : PopulatedTransaction}

theorem mem_lockedAmounts {a : UInt64} : a ∈ lockedAmounts c terms t ↔
    ∃ (i : Nat) (e : UtxoEntry), t.entries[i]? = some e ∧ e.spk = ownSpk c terms ∧ e.amount = a := by
  simp only [lockedAmounts, List.mem_map, List.mem_filter, decide_eq_true_eq]
  constructor
  · rintro ⟨e, ⟨he, hspk⟩, ha⟩
    obtain ⟨i, hi⟩ := List.getElem?_of_mem he
    exact ⟨i, e, hi, hspk, ha⟩
  · rintro ⟨i, e, hi, hspk, ha⟩
    exact ⟨e, ⟨List.mem_of_getElem? hi, hspk⟩, ha⟩

/-- What each allowance input has checked about the transaction. -/
theorem beneficiaryPath_of_spends (h : BeneficiarySpends c terms t) {i : Nat} {e : UtxoEntry}
    (he : t.entries[i]? = some e) (hspk : e.spk = ownSpk c terms) :
    ∃ w, BeneficiaryPath ⟨c, t, i⟩ e terms.beneficiaryPubkey terms.maxWithdrawSompi
      terms.minSequence terms.startDaa w := by
  obtain ⟨selector, rest, hsel, hacc⟩ := h i e he hspk
  exact ⟨_, (allowance_accepts_iff he hsel).mp hacc⟩

/-- A spend in which some input is an allowance input is within range. -/
theorem fits_of_spends (h : BeneficiarySpends c terms t) (hne : lockedAmounts c terms t ≠ []) :
    Fits terms (lockedAmounts c terms t) := by
  obtain ⟨a, ha⟩ := List.exists_mem_of_ne_nil _ hne
  obtain ⟨i, e, he, hspk, rfl⟩ := mem_lockedAmounts.mp ha
  obtain ⟨w, hw⟩ := beneficiaryPath_of_spends h he hspk
  have hlock : ∀ {v : UInt64} {met : Nat → Prop}, LockPasses v met → v.toNat < 2 ^ 63 := by
    rintro v met (rfl | ⟨hv, -⟩)
    · exact Nat.two_pow_pos 63
    · exact hv
  refine ⟨hw.fits.2.2, hlock hw.matured, hlock hw.start, fun a ha => ?_, ?_⟩
  · obtain ⟨i, e, he, hspk, rfl⟩ := mem_lockedAmounts.mp ha
    obtain ⟨w, hw⟩ := beneficiaryPath_of_spends h he hspk
    exact hw.fits.2.1
  · -- allowance inputs all lie among the first `2 ^ 63`
    have hsplit := List.take_append_drop (2 ^ 63) t.entries
    have hlate : (t.entries.drop (2 ^ 63)).filter (·.spk = ownSpk c terms) = [] := by
      rw [List.filter_eq_nil_iff]
      intro e he hspk
      obtain ⟨k, hk⟩ := List.getElem?_of_mem he
      rw [List.getElem?_drop] at hk
      obtain ⟨w, hw⟩ := beneficiaryPath_of_spends h hk (of_decide_eq_true hspk)
      exact absurd hw.fits.1 (by simp)
    rw [lockedAmounts, List.length_map, ← hsplit, List.filter_append, hlate, List.append_nil]
    exact Nat.le_trans (List.length_filter_le _ _) (by rw [List.length_take]; exact Nat.min_le_left _ _)

/-- Output 0 returns the largest amount less the cap, and that is all the
inputs ask for together. -/
theorem returned_ge (h : BeneficiarySpends c terms t) :
    largest (lockedAmounts c terms t) ≤ returned c terms t + terms.maxWithdrawSompi.toNat := by
  refine largest_le fun a ha => ?_
  obtain ⟨i, e, he, hspk, rfl⟩ := mem_lockedAmounts.mp ha
  obtain ⟨w, hw⟩ := beneficiaryPath_of_spends h he hspk
  obtain ⟨o₀, o₁, hout, ho, -, hle⟩ := hw.returns
  have hret : o₀.value.toNat ≤ returned c terms t := by
    have hout' : t.tx.outputs = [o₀, o₁] := hout
    simp only [returned, hout', List.filter_cons, ho, hspk, decide_true, if_true, List.map_cons,
      List.sum_cons]
    exact Nat.le_add_right _ _
  omega

end spends

/-- One beneficiary transaction spending all the amounts: the least output 0
every input agrees to, and one other output. -/
def jointSpend (c : Crypto) (terms : AllowanceTerms) (amounts : List UInt64) :
    PopulatedTransaction where
  tx := {
    txVersion := 0
    inputs := amounts.map fun _ => ⟨filled 0 32, 0, [], terms.minSequence, 1⟩
    outputs := [
      ⟨UInt64.ofNat (largest amounts - terms.maxWithdrawSompi.toNat), 0,
        p2shScript (c.blake2b terms.script), none⟩,
      ⟨1, 0, [], none⟩]
    locktime := terms.startDaa
    subnetworkId := filled 0 20
    gas := 0
    payload := [] }
  entries := amounts.map fun a => ⟨a, 0, p2shScript (c.blake2b terms.script), none⟩
  entries_length := by simp

section joint
variable (c : Crypto) (terms : AllowanceTerms) (amounts : List UInt64)

theorem lockedAmounts_jointSpend : lockedAmounts c terms (jointSpend c terms amounts) = amounts := by
  simp [lockedAmounts, jointSpend, ownSpk, UtxoEntry.spk, List.filter_map, Function.comp_def]

variable {terms amounts}

theorem largest_lt (hfit : Fits terms amounts) : largest amounts < 2 ^ 63 := by
  have : largest amounts ≤ 2 ^ 63 - 1 := largest_le fun a ha => Nat.le_sub_one_of_lt (hfit.each a ha)
  omega

theorem toNat_firstValue (hfit : Fits terms amounts) :
    (UInt64.ofNat (largest amounts - terms.maxWithdrawSompi.toNat)).toNat =
      largest amounts - terms.maxWithdrawSompi.toNat := by
  have := largest_lt hfit
  rw [UInt64.toNat_ofNat']
  omega

theorem returned_jointSpend (hfit : Fits terms amounts) :
    returned c terms (jointSpend c terms amounts) =
      largest amounts - terms.maxWithdrawSompi.toNat := by
  have hother : ¬ spkBytes 0 [] = ownSpk c terms := by
    simp [ownSpk, spkBytes_inj, p2shScript]
  simp only [returned, jointSpend, ConsensusOutput.spk, List.filter_cons, List.filter_nil, hother]
  simp [ownSpk, toNat_firstValue hfit]

theorem beneficiarySpends_jointSpend (hfit : Fits terms amounts)
    (hsign : CanSign c terms.beneficiaryPubkey) :
    BeneficiarySpends c terms (jointSpend c terms amounts) := by
  intro i e he hspk
  obtain ⟨sig, hsig⟩ := hsign (jointSpend c terms amounts) i
  obtain ⟨a, ha, rfl⟩ : ∃ a, amounts[i]? = some a ∧
      e = ⟨a, 0, p2shScript (c.blake2b terms.script), none⟩ := by
    simpa [jointSpend, eq_comm] using he
  have hi := (List.getElem?_eq_some_iff.mp ha).1
  have hmem := List.mem_of_getElem? ha
  have hcount := hfit.count
  refine ⟨[], [sig], rfl, (allowance_accepts_iff he rfl).mpr ⟨⟨[], sig, rfl, rfl, hsig⟩,
    Or.inr ⟨hfit.start, Nat.le_refl _⟩, Or.inr ⟨hfit.sequence, ?_⟩, ?_, _, _, rfl, rfl, ?_, ?_⟩⟩
  · exact ⟨⟨filled 0 32, 0, [], terms.minSequence, 1⟩, by simp [jointSpend, hi], Nat.le_refl _⟩
  · exact ⟨by simp only; omega, hfit.each a hmem, hfit.cap⟩
  · have := largest_lt hfit
    rw [toNat_firstValue hfit]
    omega
  · have := le_largest hmem
    rw [toNat_firstValue hfit]
    simp only
    omega

end joint
end AllowanceOutflow
open AllowanceOutflow

/-- At most the cap leaves per allowance input exactly when all the amounts but
the largest total at most one cap less than that, or no such spend is within
signed 64-bit range at all. -/
theorem allowance_outflow_capped_iff (c : Crypto) (terms : AllowanceTerms) (amounts : List UInt64)
    (hne : amounts ≠ []) (hsign : CanSign c terms.beneficiaryPubkey) :
    OutflowCapped c terms amounts ↔
      (Fits terms amounts → total amounts ≤
        largest amounts + (amounts.length - 1) * terms.maxWithdrawSompi.toNat) := by
  obtain ⟨k, hk⟩ : ∃ k, amounts.length = k + 1 :=
    Nat.exists_eq_succ_of_ne_zero (by simpa using hne)
  simp only [OutflowCapped, hk, Nat.add_sub_cancel, Nat.add_mul, Nat.one_mul]
  constructor
  · intro hcap hfit
    by_cases hl : largest amounts ≤ terms.maxWithdrawSompi.toNat
    · -- no single amount exceeds the cap, so the bound holds without any script
      have ht : total amounts ≤ amounts.length * largest amounts :=
        total_le fun a ha => le_largest ha
      have := Nat.mul_le_mul_left k hl
      rw [hk, Nat.add_mul, Nat.one_mul] at ht
      omega
    · have := hcap _ (lockedAmounts_jointSpend c terms amounts)
        (beneficiarySpends_jointSpend c hfit hsign)
      rw [returned_jointSpend c hfit] at this
      omega
  · rintro hbound t rfl hspends
    have hret := returned_ge hspends
    have := hbound (fits_of_spends hspends hne)
    omega

namespace AllowanceOutflow

def sampleTerms : AllowanceTerms := ⟨filled 1 32, filled 2 32, 100, 5, 0⟩

/-- Two deposits of 1000 share one return of 900; 1100 go elsewhere. -/
def sharedReturn : PopulatedTransaction where
  tx := {
    txVersion := 0
    inputs := [⟨filled 3 32, 0, [], 5, 1⟩, ⟨filled 4 32, 0, [], 5, 1⟩]
    outputs := [⟨900, 0, p2shScript (sampleCrypto.blake2b sampleTerms.script), none⟩,
      ⟨1100, 0, [], none⟩]
    locktime := 0
    subnetworkId := filled 0 20
    gas := 0
    payload := [] }
  entries := List.replicate 2 ⟨1000, 0, p2shScript (sampleCrypto.blake2b sampleTerms.script), none⟩
  entries_length := rfl

end AllowanceOutflow

theorem allowance_outflow_capped_iff_sample :
    ([1000, 1000] : List UInt64) ≠ [] ∧ CanSign sampleCrypto sampleTerms.beneficiaryPubkey ∧
    (OutflowCapped sampleCrypto sampleTerms [1000, 1000] ↔
      (Fits sampleTerms [1000, 1000] → total [1000, 1000] ≤ largest [1000, 1000] + (2 - 1) * 100)) :=
  ⟨by simp, canSign_sampleCrypto _,
    allowance_outflow_capped_iff sampleCrypto sampleTerms [1000, 1000] (by simp)
      (canSign_sampleCrypto _)⟩

/-- 2000 in, 900 back: 1100 leave through two inputs capped at 100 each. -/
theorem allowance_shared_return_exceeds_cap :
    lockedAmounts sampleCrypto sampleTerms sharedReturn = [1000, 1000] ∧
    BeneficiarySpends sampleCrypto sampleTerms sharedReturn ∧
    ¬ total [1000, 1000] ≤ returned sampleCrypto sampleTerms sharedReturn +
      2 * sampleTerms.maxWithdrawSompi.toNat := by
  refine ⟨by decide, fun i e he _ => ?_, by decide⟩
  match i with
  | 0 => exact ⟨[], [List.replicate 64 2], rfl, by decide⟩
  | 1 => exact ⟨[], [List.replicate 64 2], rfl, by decide⟩
  | i + 2 => simp [sharedReturn] at he

end KaspaPortal.Guarantees
