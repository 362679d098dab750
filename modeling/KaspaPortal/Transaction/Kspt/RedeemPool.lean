import Mathlib.Algebra.Order.BigOperators.Group.List
import KaspaPortal.Transaction.Kspt.View

/-!
# Redeem scripts kept through `store_redeem`

A redeem script that does not fit its input is kept in the transaction's pool, which
only grows. So whatever else was done to the transaction, the scripts it has now fit
in one pool, which is what a parser that starts from an empty pool needs.
-/
namespace KaspaPortal.Transaction.Kspt
open Lib Primitives Transaction Transaction.Model

/-- Everything about redeem scripts is as in `tx`, or the input has none. -/
def KeepsRedeems (tx tx' : Transaction) : Prop :=
  tx'.redeemPool = tx.redeemPool ∧ tx'.redeemPoolUsed = tx.redeemPoolUsed ∧
    ∀ (i : Nat) (input' : TransactionInput), tx'.inputs[i]? = some input' →
      input'.redeemScriptLen = 0 ∨ ∃ input, tx.inputs[i]? = some input ∧
        input'.redeemScript = input.redeemScript ∧ input'.redeemScriptLen = input.redeemScriptLen ∧
        input'.redeemInPool = input.redeemInPool ∧
        input'.redeemScriptOffset = input.redeemScriptOffset

/-- The redeem scripts of a transaction came there through `store_redeem`, whatever
else was done to it. -/
inductive RedeemsStored : Transaction → Prop where
  | fresh (limits : TransactionLimits) : RedeemsStored (.new limits)
  | store {tx tx' : Transaction} {index : Nat} {data : Bytes} (h : RedeemsStored tx)
      (hstore : tx.storeRedeem index data = .ok tx') : RedeemsStored tx'
  | edit {tx tx' : Transaction} (h : RedeemsStored tx) (hkeep : KeepsRedeems tx tx') :
      RedeemsStored tx'

/-- What an input has in the pool. -/
def pooled (input : TransactionInput) : Nat :=
  if input.redeemScriptLen ≠ 0 ∧ input.redeemInPool = true then input.redeemScriptLen else 0

/-- Only long scripts are in the pool, and the pool has room for all of them. -/
structure PoolFits (tx : Transaction) : Prop where
  total : (tx.inputs.map pooled).sum ≤ tx.redeemPoolUsed
  short : ∀ input ∈ tx.inputs, input.redeemInPool = false → input.redeemScriptLen ≤ MAX_SCRIPT_SIZE
  used : tx.redeemPoolUsed ≤ REDEEM_POOL_SIZE

/-- Changing one item changes a sum by no more than that item's new value. -/
theorem sum_map_modify_le {α : Type} (l : List α) (i : Nat) (f : α → α) (g : α → Nat) (bound : Nat)
    (hf : ∀ a, g (f a) ≤ g a + bound) : ((l.modify i f).map g).sum ≤ (l.map g).sum + bound := by
  induction l generalizing i with
  | nil => simp
  | cons a l ih =>
    cases i with
    | zero =>
      have := hf a
      simp only [List.modify_zero_cons, List.map_cons, List.sum_cons]
      omega
    | succ i =>
      have := ih i
      simp only [List.modify_succ_cons, List.map_cons, List.sum_cons]
      omega

/-- Storing changes one input, and the pool grows by what the input now has there. -/
theorem PoolFits.change {tx tx' : Transaction} {index : Nat} {f : TransactionInput → TransactionInput}
    (h : PoolFits tx) (grows : Nat) (hin : tx'.inputs = tx.inputs.modify index f)
    (hused : tx'.redeemPoolUsed = tx.redeemPoolUsed + grows)
    (hpool : tx'.redeemPoolUsed ≤ REDEEM_POOL_SIZE) (hf : ∀ input, pooled (f input) ≤ grows)
    (hshort : ∀ input, (f input).redeemInPool = false →
      (f input).redeemScriptLen ≤ MAX_SCRIPT_SIZE) : PoolFits tx' := by
  refine ⟨?_, fun input hmem hfalse => ?_, hpool⟩
  · have hsum := sum_map_modify_le tx.inputs index f pooled grows fun a =>
      Nat.le_trans (hf a) (Nat.le_add_left ..)
    have := h.total
    rw [hin, hused]
    omega
  · rw [hin] at hmem
    obtain ⟨i, hi⟩ := List.mem_iff_getElem?.mp hmem
    rw [List.getElem?_modify] at hi
    obtain ⟨old, hold, rfl⟩ := Option.map_eq_some_iff.mp hi
    by_cases heq : index = i
    · simp only [heq, if_true] at hfalse ⊢
      exact hshort old hfalse
    · simp only [heq, if_false] at hfalse ⊢
      exact h.short old (List.mem_of_getElem? hold) hfalse

theorem PoolFits.store {tx tx' : Transaction} {index : Nat} {data : Bytes} (h : PoolFits tx)
    (hstore : tx.storeRedeem index data = .ok tx') : PoolFits tx' := by
  have hused := h.used
  unfold Transaction.storeRedeem at hstore
  simp only at hstore
  split at hstore
  · cases hstore
    exact h.change 0 rfl rfl hused (fun _ => by simp [pooled]) fun _ _ => Nat.zero_le _
  split at hstore
  · rename_i hlen
    cases hstore
    exact h.change 0 rfl rfl hused (fun _ => by simp [pooled]) fun _ _ => hlen
  split at hstore
  · cases hstore
  split at hstore
  · cases hstore
  rename_i hfit
  cases hstore
  refine h.change data.length rfl rfl (Nat.not_lt.mp hfit) (fun _ => ?_) (fun _ hfalse => by cases hfalse)
  unfold pooled
  split
  · exact Nat.le_refl _
  · exact Nat.zero_le _

/-- A list whose items keep their value or lose it has no larger sum. -/
theorem sum_map_le_of_getElem {α : Type} (g : α → Nat) (l l' : List α)
    (h : ∀ (i : Nat) (a' : α), l'[i]? = some a' → g a' = 0 ∨ ∃ a, l[i]? = some a ∧ g a' = g a) :
    (l'.map g).sum ≤ (l.map g).sum := by
  induction l' generalizing l with
  | nil => simp
  | cons a' l' ih =>
    have hfirst := h 0 a' rfl
    cases l with
    | nil =>
      have hrest := ih [] fun i b hb => by simpa using h (i + 1) b (by simpa using hb)
      have hzero : g a' = 0 := by simpa using hfirst
      simpa [hzero] using hrest
    | cons a l =>
      have hrest := ih l fun i b hb => by simpa using h (i + 1) b (by simpa using hb)
      have hle : g a' ≤ g a := by
        obtain hzero | ⟨b, hb, heq⟩ := hfirst
        · omega
        · cases hb
          omega
      simp only [List.map_cons, List.sum_cons]
      omega

theorem RedeemsStored.poolFits {tx : Transaction} (h : RedeemsStored tx) : PoolFits tx := by
  induction h with
  | fresh limits => exact ⟨by simp [Transaction.new], by simp [Transaction.new], by simp [Transaction.new]⟩
  | store _ hstore ih => exact ih.store hstore
  | @edit tx tx' _ hkeep ih =>
    obtain ⟨_, hused, hinputs⟩ := hkeep
    refine ⟨?_, fun input hmem hfalse => ?_, hused ▸ ih.used⟩
    · rw [hused]
      refine Nat.le_trans (sum_map_le_of_getElem pooled tx.inputs tx'.inputs fun i a' ha' => ?_) ih.total
      obtain hzero | ⟨a, ha, _, hlen, hin, _⟩ := hinputs i a' ha'
      · exact .inl (by simp [pooled, hzero])
      · exact .inr ⟨a, ha, by simp [pooled, hlen, hin]⟩
    · obtain ⟨i, hi⟩ := List.mem_iff_getElem?.mp hmem
      obtain hzero | ⟨a, ha, _, hlen, hin, _⟩ := hinputs i input hi
      · rw [hzero]
        exact Nat.zero_le _
      · rw [hlen]
        exact ih.short a (List.mem_of_getElem? ha) (hin ▸ hfalse)

theorem poolNeed_le {tx : Transaction} (h : PoolFits tx) {input : TransactionInput}
    (hmem : input ∈ tx.inputs) {r : Bytes} (hr : checkedRedeem tx input = .ok r) :
    poolNeed r ≤ pooled input := by
  have hlen := (checkedRedeem_length hr).1
  unfold poolNeed pooled
  split
  · rename_i hlong
    have hin : input.redeemInPool = true := by
      by_contra hc
      have := h.short input hmem (by simpa using hc)
      omega
    rw [if_pos ⟨by omega, hin⟩]
    omega
  · exact Nat.zero_le _

end KaspaPortal.Transaction.Kspt
