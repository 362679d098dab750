/-!
# Computations that keep their state when they fail

A step that works on a state in place returns its result together with the state it
leaves, and it leaves one also when it fails.
-/
namespace KaspaPortal.Lib

variable {ε σ α β : Type}

/-- What a step on a state of type `σ` returns, and the state it leaves. -/
abbrev Outcome (ε σ α : Type) := Except ε α × σ

/-- The next step runs on the state the first one left, unless the first one failed. -/
def Outcome.andThen (first : Outcome ε σ α) (next : α → σ → Outcome ε σ β) : Outcome ε σ β :=
  match first with
  | (.ok a, s) => next a s
  | (.error e, s) => (.error e, s)

@[simp] theorem Outcome.andThen_ok (a : α) (s : σ) (next : α → σ → Outcome ε σ β) :
    Outcome.andThen (.ok a, s) next = next a s := rfl

@[simp] theorem Outcome.andThen_error (e : ε) (s : σ) (next : α → σ → Outcome ε σ β) :
    Outcome.andThen (.error e, s) next = (.error e, s) := rfl

/-- What the first step establishes and the next keeps holds of the state both leave. -/
theorem Outcome.andThen_state {P : σ → Prop} {first : Outcome ε σ α}
    {next : α → σ → Outcome ε σ β} (hfirst : P first.2)
    (hnext : ∀ a, first.1 = .ok a → P (next a first.2).2) : P (first.andThen next).2 := by
  obtain ⟨result, s⟩ := first
  cases result with
  | error e => exact hfirst
  | ok a => exact hnext a rfl

theorem Outcome.andThen_eq_ok {first : Outcome ε σ α} {next : α → σ → Outcome ε σ β}
    {b : β} {t : σ} :
    first.andThen next = (.ok b, t) ↔ ∃ a s, first = (.ok a, s) ∧ next a s = (.ok b, t) := by
  obtain ⟨result, s⟩ := first
  cases result with
  | error e =>
    constructor
    · intro h
      cases h
    · intro h
      obtain ⟨a, s', h, -⟩ := h
      cases h
  | ok a =>
    constructor
    · intro h
      exact ⟨a, s, rfl, h⟩
    · intro h
      obtain ⟨a', s', h, hnext⟩ := h
      cases h
      exact hnext

/-- The outcome without the value it returns. -/
def Outcome.forget (x : Outcome ε σ α) : Outcome ε σ Unit :=
  (x.1.map fun _ => (), x.2)

theorem Outcome.forget_andThen {first : Outcome ε σ α} {next : α → σ → Outcome ε σ β}
    (rest : σ → Outcome ε σ Unit) (hnext : ∀ a s, (next a s).forget = rest s) :
    (first.andThen next).forget = first.forget.andThen fun _ => rest := by
  obtain ⟨result, s⟩ := first
  cases result with
  | error e => rfl
  | ok a => exact hnext a s

theorem Outcome.andThen_assoc {γ : Type} (first : Outcome ε σ α) (next : α → σ → Outcome ε σ β)
    (last : β → σ → Outcome ε σ γ) :
    (first.andThen next).andThen last = first.andThen fun a s => (next a s).andThen last := by
  obtain ⟨result, s⟩ := first
  cases result with
  | error e => rfl
  | ok a => rfl

end KaspaPortal.Lib
