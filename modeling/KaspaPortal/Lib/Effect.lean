import Mathlib.Data.List.Forall2
import KaspaPortal.Lib.Result

/-!
# Computations that keep their state when they fail

A computation that fails leaves behind what it has changed so far. A relation between the states
before and after that holds of no change, and of two changes one after the other, holds of a
computation as soon as it holds of each single change in it.
-/
namespace KaspaPortal.Lib

variable {σ ε α β : Type}

abbrev Effect (σ ε α : Type) := ExceptT ε (StateM σ) α

/-- The result and the state that is left. -/
def outcome (m : Effect σ ε α) (s : σ) : Except ε α × σ := m.run.run s

/-- A step that changes nothing. -/
def Effect.ofExcept (result : Except ε α) : Effect σ ε α := ExceptT.mk (pure result)

theorem outcome_bind (m : Effect σ ε α) (f : α → Effect σ ε β) (s : σ) :
    outcome (m >>= f) s = match outcome m s with
      | (.ok a, s') => outcome (f a) s'
      | (.error e, s') => (.error e, s') := by
  rw [outcome, outcome, ExceptT.run_bind, StateT.run_bind]
  cases hresult : (m.run.run s : Except ε α × σ) with
  | mk result next =>
    cases result with
    | error e => rfl
    | ok a => rfl

/-- A relation that changes made one after the other stay in. -/
structure Cumulative (R : σ → σ → Prop) : Prop where
  refl : ∀ s, R s s
  trans : ∀ s t u, R s t → R t u → R s u

/-- From `s` the computation leaves a state in the relation, whatever its result. -/
def Leads (R : σ → σ → Prop) (s : σ) (m : Effect σ ε α) : Prop := R s (outcome m s).2

section leads

variable {R : σ → σ → Prop} {s : σ}

theorem leads_pure (h : Cumulative R) (a : α) : Leads R s (pure a : Effect σ ε α) := h.refl s

theorem leads_ofExcept (h : Cumulative R) (result : Except ε α) :
    Leads R s (Effect.ofExcept result : Effect σ ε α) := h.refl s

theorem leads_modify {f : σ → σ} (h : R s (f s)) : Leads R s (modify f : Effect σ ε Unit) := h

/-- What follows may start from any state that the first part leads to. -/
theorem leads_bind (h : Cumulative R) {m : Effect σ ε α} {f : α → Effect σ ε β} (hm : Leads R s m)
    (hf : ∀ a t, R s t → Leads R t (f a)) : Leads R s (m >>= f) := by
  have hmove : R s (outcome m s).2 := hm
  rw [Leads, outcome_bind]
  cases hresult : outcome m s with
  | mk result next =>
    rw [hresult] at hmove
    cases result with
    | error e => exact hmove
    | ok a => exact h.trans _ _ _ hmove (hf a next hmove)

/-- After a step that changes nothing one goes on from the same state. -/
theorem leads_bind_ofExcept (h : Cumulative R) {result : Except ε α} {f : α → Effect σ ε β}
    (hf : ∀ a, result = .ok a → Leads R s (f a)) : Leads R s (Effect.ofExcept result >>= f) := by
  cases result with
  | error e => exact h.refl s
  | ok a => exact hf a rfl

theorem leads_bind_get {f : σ → Effect σ ε β} (hf : Leads R s (f s)) :
    Leads R s ((get : Effect σ ε σ) >>= f) := hf

/-- A loop with an accumulator. -/
theorem leads_foldlM (h : Cumulative R) {step : β → α → Effect σ ε β} {items : List α}
    (hstep : ∀ b a s, a ∈ items → Leads R s (step b a)) (start : β) (s : σ) :
    Leads R s (items.foldlM step start) := by
  induction items generalizing start s with
  | nil => exact leads_pure h start
  | cons a rest ih =>
    rw [List.foldlM_cons]
    apply leads_bind h (hstep start a s List.mem_cons_self)
    intro b t _
    exact ih (fun b a s hmem => hstep b a s (List.mem_cons_of_mem _ hmem)) b t

end leads

/-! ## Lists that change entry by entry -/

section entries
variable {P : α → α → Prop}

theorem Cumulative.forall₂ (h : Cumulative P) : Cumulative (List.Forall₂ P) := by
  constructor
  case refl =>
    intro items
    exact List.forall₂_same.mpr fun a _ => h.refl a
  case trans =>
    intro first second third hfirst hsecond
    induction hfirst generalizing third with
    | nil => exact hsecond
    | cons hab _ ih =>
      cases hsecond with
      | cons hbc hrest => exact List.Forall₂.cons (h.trans _ _ _ hab hbc) (ih _ hrest)

theorem forall₂_modify (h : Cumulative P) {f : α → α} {items : List α} {index : Nat}
    (hf : ∀ a, items[index]? = some a → P a (f a)) : List.Forall₂ P items (items.modify index f) := by
  induction items generalizing index with
  | nil =>
    rw [List.modify_nil]
    exact List.Forall₂.nil
  | cons a rest ih =>
    cases index with
    | zero => exact List.Forall₂.cons (hf a rfl) (h.forall₂.refl rest)
    | succ index => exact List.Forall₂.cons (h.refl a) (ih hf)

theorem forall₂_right {items after : List α} (h : List.Forall₂ P items after) {b : α} (hb : b ∈ after) :
    ∃ a ∈ items, P a b := by
  induction h with
  | nil => exact absurd hb List.not_mem_nil
  | cons hab _ ih =>
    obtain rfl | hrest := List.mem_cons.mp hb
    · exact ⟨_, List.mem_cons_self, hab⟩
    · obtain ⟨a, ha, hab⟩ := ih hrest
      exact ⟨a, List.mem_cons_of_mem _ ha, hab⟩

theorem forall₂_getElem? {items after : List α} (h : List.Forall₂ P items after) (index : Nat) :
    Option.Rel P items[index]? after[index]? := by
  induction h generalizing index with
  | nil => exact Option.Rel.none
  | cons hab _ ih =>
    cases index with
    | zero => exact Option.Rel.some hab
    | succ index => exact ih index

theorem forall₂_map_eq {items after : List α} (h : List.Forall₂ P items after) {f : α → β}
    (hf : ∀ a b, P a b → f b = f a) : after.map f = items.map f := by
  induction h with
  | nil => rfl
  | cons hab _ ih => rw [List.map_cons, List.map_cons, hf _ _ hab, ih]

theorem forall₂_mono {Q : α → α → Prop} {items after : List α} (h : List.Forall₂ P items after)
    (hPQ : ∀ a b, a ∈ items → P a b → Q a b) : List.Forall₂ Q items after := by
  induction h with
  | nil => exact List.Forall₂.nil
  | cons hab _ ih =>
    exact List.Forall₂.cons (hPQ _ _ List.mem_cons_self hab)
      (ih fun a b hmem => hPQ a b (List.mem_cons_of_mem _ hmem))

end entries

end KaspaPortal.Lib
