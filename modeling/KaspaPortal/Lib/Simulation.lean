import Mathlib.Data.List.Basic

/-!
# Two computations side by side

Two computations that may fail agree when they fail together and succeed with related
values. A loop over one list keeps the agreement its step keeps.
-/
namespace KaspaPortal.Lib

variable {ε ε' α β α' β' ι : Type}

/-- Both fail, or both succeed with related values. -/
def Agree (R : α → β → Prop) : Except ε α → Except ε' β → Prop
  | .ok a, .ok b => R a b
  | .error _, .error _ => True
  | _, _ => False

namespace Agree

variable {R : α → β → Prop} {x : Except ε α} {y : Except ε' β}

theorem error {e : ε} {e' : ε'} : Agree R (.error e : Except ε α) (.error e' : Except ε' β) := trivial

theorem ok {a : α} {b : β} (h : R a b) : Agree R (.ok a : Except ε α) (.ok b : Except ε' β) := h

theorem of_ok {a : α} (h : Agree R x y) (hx : x = .ok a) : ∃ b, y = .ok b ∧ R a b := by
  subst hx
  cases y with
  | error e' => exact h.elim
  | ok b => exact ⟨b, rfl, h⟩

theorem bind {S : α' → β' → Prop} {f : α → Except ε α'} {g : β → Except ε' β'} (h : Agree R x y)
    (hrest : ∀ a b, R a b → Agree S (f a) (g b)) : Agree S (x >>= f) (y >>= g) := by
  cases x with
  | error e =>
    cases y with
    | error e' => trivial
    | ok b => exact h.elim
  | ok a =>
    cases y with
    | error e' => exact h.elim
    | ok b => exact hrest a b h

theorem foldlM {f : α → ι → Except ε α} {g : β → ι → Except ε' β} {items : List ι}
    (hstep : ∀ a b, ∀ i ∈ items, R a b → Agree R (f a i) (g b i)) {a : α} {b : β} (h : R a b) :
    Agree R (items.foldlM f a) (items.foldlM g b) := by
  induction items generalizing a b with
  | nil => exact h
  | cons i items ih =>
    rw [List.foldlM_cons, List.foldlM_cons]
    apply (hstep a b i List.mem_cons_self h).bind
    intro a' b' h'
    apply ih
    · intro a b j hj
      exact hstep a b j (List.mem_cons_of_mem _ hj)
    · exact h'

theorem toOption_eq {z : Except ε' α} (h : Agree (fun a b => a = b) x z) : x.toOption = z.toOption := by
  cases x with
  | error e =>
    cases z with
    | ok b => exact h.elim
    | error e' => rfl
  | ok a =>
    cases z with
    | error e' => exact h.elim
    | ok b => exact congrArg some h

/-- Two computations that agree with a third agree with each other. -/
theorem through {γ ε'' : Type} {S : β → γ → Prop} {T : α → β → Prop} {R : α → γ → Prop} {z : Except ε'' γ}
    (h : Agree R x z) (h' : Agree S y z) (hrelate : ∀ a b c, R a c → S b c → T a b) : Agree T x y := by
  cases z with
  | error e'' =>
    cases x with
    | ok a => exact h.elim
    | error e =>
      cases y with
      | ok b => exact h'.elim
      | error e' => trivial
  | ok c =>
    cases x with
    | error e => exact h.elim
    | ok a =>
      cases y with
      | error e' => exact h'.elim
      | ok b => exact hrelate a b c h h'

end Agree

end KaspaPortal.Lib
