import KaspaPortal.Lib.Result
import Mathlib.Data.Option.Basic

/-!
# Runs of a step function

A step that is not possible ends the run. What every step keeps, every run keeps. A record of what
happened, newest first, explains itself when each of its entries is justified by those before it.
-/
namespace KaspaPortal.Lib

variable {σ α : Type} {step : σ → α → Option σ}

/-- Each step of the run is taken where the condition holds. -/
def Along (step : σ → α → Option σ) (condition : σ → α → Prop) : σ → List α → Prop
  | _, [] => True
  | s, a :: rest => condition s a ∧ ∀ next, step s a = some next → Along step condition next rest

theorem Along.cons {condition : σ → α → Prop} {s next : σ} {a : α} {rest : List α}
    (hcondition : condition s a) (hnext : step s a = some next)
    (hrest : Along step condition next rest) : Along step condition s (a :: rest) := by
  refine ⟨hcondition, fun other hother => ?_⟩
  cases hnext.symm.trans hother
  exact hrest

/-- What each step keeps where the condition holds is kept along a run that meets it. -/
theorem Along.invariant {condition : σ → α → Prop} {inv : σ → Prop}
    (hstep : ∀ s a s', inv s → condition s a → step s a = some s' → inv s') {items : List α}
    {start final : σ} (halong : Along step condition start items) (hstart : inv start)
    (h : items.foldlM step start = some final) : inv final := by
  induction items generalizing start with
  | nil =>
    cases h
    exact hstart
  | cons a rest ih =>
    rw [List.foldlM_cons] at h
    obtain ⟨next, hnext, hrest⟩ := Option.bind_eq_some_iff.mp h
    exact ih (halong.2 next hnext) (hstep start a next hstart halong.1 hnext) hrest

/-- Conditions that say the same of each step say the same of a run. -/
theorem Along.congr {condition condition' : σ → α → Prop} (h : ∀ s a, condition s a ↔ condition' s a)
    (start : σ) (items : List α) : Along step condition start items ↔ Along step condition' start items := by
  induction items generalizing start with
  | nil => exact Iff.rfl
  | cons a rest ih =>
    rw [Along, Along, h]
    simp only [ih]

/-- A condition on the items alone holds along every run of them. -/
theorem Along.of_forall {allowed : α → Prop} {items : List α} (h : ∀ a ∈ items, allowed a)
    (start : σ) : Along step (fun _ a => allowed a) start items := by
  induction items generalizing start with
  | nil => trivial
  | cons a rest ih =>
    refine ⟨h a List.mem_cons_self, fun next _ => ?_⟩
    exact ih (fun b hb => h b (List.mem_cons_of_mem a hb)) next

/-- What each step of a loop keeps is kept by the loop. -/
theorem foldlM_preserves {σ α ε : Type} {step : σ → α → Except ε σ} {inv : σ → Prop} {items : List α}
    {start final : σ}
    (hstep : ∀ s a s', a ∈ items → inv s → step s a = .ok s' → inv s')
    (h : items.foldlM step start = .ok final) (hstart : inv start) : inv final := by
  induction items generalizing start with
  | nil =>
    cases h
    exact hstart
  | cons a rest ih =>
    rw [List.foldlM_cons] at h
    obtain ⟨next, hnext, hrest⟩ := bind_eq_ok.mp h
    refine ih (fun s b s' hb => hstep s b s' (List.mem_cons_of_mem a hb)) hrest ?_
    exact hstep start a next List.mem_cons_self hstart hnext

/-! ## Records -/

/-- Every entry is justified by those before it. -/
def Explained (justified : α → List α → Prop) : List α → Prop
  | [] => True
  | entry :: past => justified entry past ∧ Explained justified past

namespace Explained

variable {justified : α → List α → Prop} {record : List α}

theorem of_suffix (h : Explained justified record) {entry : α} {past : List α}
    (hsuffix : entry :: past <:+ record) : justified entry past := by
  induction record with
  | nil => exact absurd (List.suffix_nil.mp hsuffix) (List.cons_ne_nil _ _)
  | cons first rest ih =>
    obtain heq | hrest := List.suffix_cons_iff.mp hsuffix
    · cases heq
      exact h.1
    · exact ih h.2 hrest

/-- Entries that need no reason may follow any others. -/
theorem append (h : Explained justified record) {entries : List α}
    (hentries : ∀ entry ∈ entries, ∀ past, justified entry past) :
    Explained justified (entries ++ record) := by
  induction entries with
  | nil => exact h
  | cons first rest ih =>
    exact ⟨hentries first List.mem_cons_self _,
      ih fun entry hmem => hentries entry (List.mem_cons_of_mem _ hmem)⟩

end Explained

end KaspaPortal.Lib
