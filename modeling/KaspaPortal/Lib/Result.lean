import Mathlib.Data.List.Perm.Basic

/-!
# Computations that may fail

What a successful run of a sequence says about its parts.
-/
namespace KaspaPortal.Lib

variable {ε α β : Type}

/-- A sequence succeeds when its first part does and the rest does on its value. -/
theorem bind_eq_ok {x : Except ε α} {f : α → Except ε β} {b : β} :
    (x >>= f) = .ok b ↔ ∃ a, x = .ok a ∧ f a = .ok b := by
  cases x with
  | error e => exact ⟨nofun, nofun⟩
  | ok a => exact ⟨fun h => ⟨a, rfl, h⟩, fun ⟨_, hx, h⟩ => by cases hx; exact h⟩

/-- A sequence whose first part succeeds is its rest. -/
theorem bind_of_ok {x : Except ε α} {f : α → Except ε β} {a : α} (h : x = .ok a) :
    (x >>= f) = f a := by
  rw [h]
  rfl

theorem map_eq_ok {x : Except ε α} {f : α → β} {b : β} :
    x.map f = .ok b ↔ ∃ a, x = .ok a ∧ f a = b := by
  cases x <;> simp [Except.map]

@[simp] theorem mapError_ok {ε' : Type} {f : ε → ε'} {a : α} :
    (Except.ok a : Except ε α).mapError f = .ok a := rfl

@[simp] theorem mapError_error {ε' : Type} {f : ε → ε'} {e : ε} :
    (Except.error e : Except ε α).mapError f = .error (f e) := rfl

theorem mapError_eq_ok {ε' : Type} {x : Except ε α} {f : ε → ε'} {a : α} :
    x.mapError f = .ok a ↔ x = .ok a := by
  cases x <;> simp

theorem exists_ok {x : Except ε α} (h : x.isOk = true) : ∃ a, x = .ok a := by
  cases x with
  | error e => cases h
  | ok a => exact ⟨a, rfl⟩

/-- The source's `ok_or`. -/
def okOr (error : ε) : Option α → Except ε α
  | some a => .ok a
  | none => .error error

theorem okOr_eq_ok {error : ε} {x : Option α} {a : α} : okOr error x = .ok a ↔ x = some a := by
  cases x with
  | none => exact ⟨nofun, nofun⟩
  | some b => exact ⟨fun h => by cases h; rfl, fun h => by cases h; rfl⟩

/-- Two checks pass when each passes. -/
theorem seq_eq_ok {first second : Except ε Unit} {u : Unit} :
    (first >>= fun _ => second) = .ok u ↔ first = .ok () ∧ second = .ok () := by
  cases first with
  | error error => exact ⟨nofun, nofun⟩
  | ok => exact ⟨fun h => ⟨rfl, h⟩, fun h => h.2⟩

/-- A check of every item passes when each passes. -/
theorem forM_eq_ok {f : α → Except ε Unit} {items : List α} {u : Unit} :
    items.forM f = .ok u ↔ ∀ a ∈ items, f a = .ok () := by
  induction items with
  | nil => exact ⟨fun _ => by simp, fun _ => rfl⟩
  | cons a items ih =>
    rw [List.forall_mem_cons, ← ih]
    have hcons : (a :: items).forM f = (f a >>= fun _ => items.forM f) := rfl
    rw [hcons, bind_eq_ok]
    exact ⟨fun ⟨_, ha, hrest⟩ => ⟨ha, hrest⟩, fun ⟨ha, hrest⟩ => ⟨(), ha, hrest⟩⟩

/-- A list can be mapped when each of its items can. -/
theorem mapM_succeeds {f : α → Except ε β} {items : List α} (h : ∀ a ∈ items, ∃ b, f a = .ok b) :
    ∃ mapped, items.mapM f = .ok mapped := by
  induction items with
  | nil => exact ⟨[], rfl⟩
  | cons a items ih =>
    obtain ⟨b, hb⟩ := h a List.mem_cons_self
    obtain ⟨mapped, hmapped⟩ := ih fun a ha => h a (List.mem_cons_of_mem _ ha)
    rw [List.mapM_cons]
    exact ⟨b :: mapped, bind_eq_ok.mpr ⟨b, hb, bind_eq_ok.mpr ⟨mapped, hmapped, rfl⟩⟩⟩

theorem mapM_eq_map {f : α → Except ε β} {g : α → β} {items : List α}
    (h : ∀ a ∈ items, f a = .ok (g a)) : items.mapM f = .ok (items.map g) := by
  induction items with
  | nil => rfl
  | cons a items ih =>
    rw [List.mapM_cons, h a List.mem_cons_self, ih fun a ha => h a (List.mem_cons_of_mem _ ha)]
    rfl

theorem toOption_eq_some {x : Except ε α} {a : α} : x.toOption = some a ↔ x = .ok a := by
  cases x with
  | error e => exact ⟨nofun, nofun⟩
  | ok b => exact ⟨fun h => by cases h; rfl, fun h => by cases h; rfl⟩

theorem toOption_bind {x : Except ε α} {f : α → Except ε β} :
    (x >>= f).toOption = x.toOption.bind fun a => (f a).toOption := by
  cases x with
  | error e => rfl
  | ok a => rfl

theorem toOption_mapM {f : α → Except ε β} {items : List α} :
    (items.mapM f).toOption = items.mapM fun a => (f a).toOption := by
  induction items with
  | nil => rfl
  | cons a items ih =>
    rw [List.mapM_cons, List.mapM_cons, toOption_bind]
    apply Option.bind_congr
    intro b _
    rw [toOption_bind, ih]
    rfl

/-- Checking every item on the way to what it is mapped to. -/
theorem mapM_check {check : α → Except ε Unit} {g : α → β} {items : List α} {mapped : List β} :
    (items.mapM fun a => do check a; return g a) = .ok mapped ↔
      (∀ a ∈ items, check a = .ok ()) ∧ mapped = items.map g := by
  induction items generalizing mapped with
  | nil =>
    constructor
    · intro h
      cases h
      exact ⟨List.forall_mem_nil _, rfl⟩
    · intro h
      rw [h.2]
      rfl
  | cons a items ih =>
    rw [List.mapM_cons, List.forall_mem_cons, List.map_cons]
    simp only [bind_eq_ok]
    constructor
    · intro h
      obtain ⟨b, ⟨_, hcheck, hb⟩, rest, hrest, heq⟩ := h
      obtain ⟨hall, rfl⟩ := ih.mp hrest
      cases hb
      cases heq
      exact ⟨⟨hcheck, hall⟩, rfl⟩
    · intro h
      obtain ⟨⟨hcheck, hall⟩, rfl⟩ := h
      exact ⟨g a, ⟨(), hcheck, rfl⟩, items.map g, ih.mpr ⟨hall, rfl⟩, rfl⟩

theorem mapM_congr {m : Type → Type} [Monad m] [LawfulMonad m] {f g : α → m β} {items : List α}
    (h : ∀ a ∈ items, f a = g a) : items.mapM f = items.mapM g := by
  induction items with
  | nil => rfl
  | cons a items ih =>
    rw [List.mapM_cons, List.mapM_cons, h a List.mem_cons_self, ih fun a ha => h a (List.mem_cons_of_mem _ ha)]

theorem mapM_eq_some {f : α → Option β} {items : List α} {mapped : List β} :
    items.mapM f = some mapped ↔ List.Forall₂ (fun a b => f a = some b) items mapped := by
  induction items generalizing mapped with
  | nil =>
    constructor
    · intro h
      cases h
      exact List.Forall₂.nil
    · intro h
      cases h
      rfl
  | cons a items ih =>
    rw [List.mapM_cons]
    constructor
    · intro h
      obtain ⟨b, hb, h⟩ := Option.bind_eq_some_iff.mp h
      obtain ⟨rest, hrest, h⟩ := Option.bind_eq_some_iff.mp h
      cases h
      exact List.Forall₂.cons hb (ih.mp hrest)
    · intro h
      cases h with
      | cons hb hrest =>
        rw [hb, ih.mpr hrest]
        rfl

theorem mapM_isSome {f : α → Option β} {items : List α} :
    (items.mapM f).isSome = true ↔ ∀ a ∈ items, (f a).isSome = true := by
  induction items with
  | nil => exact iff_of_true rfl fun a ha => absurd ha List.not_mem_nil
  | cons a items ih =>
    rw [List.mapM_cons, List.forall_mem_cons, ← ih]
    cases f a with
    | none => exact iff_of_false Bool.false_ne_true fun h => Bool.false_ne_true h.1
    | some b =>
      cases items.mapM f with
      | none => exact iff_of_false Bool.false_ne_true fun h => Bool.false_ne_true h.2
      | some mapped => exact iff_of_true rfl ⟨rfl, rfl⟩

/-- What a search returns, one of its items returned. -/
theorem findSomeM_eq_ok {f : α → Except ε (Option β)} {items : List α} {b : β}
    (h : items.findSomeM? f = .ok (some b)) : ∃ a ∈ items, f a = .ok (some b) := by
  induction items with
  | nil => cases h
  | cons a items ih =>
    rw [List.findSomeM?_cons] at h
    obtain ⟨found, hfound, h⟩ := bind_eq_ok.mp h
    cases found with
    | some b' =>
      cases h
      exact ⟨a, List.mem_cons_self, hfound⟩
    | none =>
      obtain ⟨a', hmem, ha'⟩ := ih h
      exact ⟨a', List.mem_cons_of_mem a hmem, ha'⟩

theorem mapM_forall₂ {f : α → Except ε β} {items : List α} {mapped : List β}
    (h : items.mapM f = .ok mapped) : List.Forall₂ (fun a b => f a = .ok b) items mapped := by
  induction items generalizing mapped with
  | nil =>
    cases h
    exact List.Forall₂.nil
  | cons a items ih =>
    rw [List.mapM_cons] at h
    obtain ⟨b, hb, h⟩ := bind_eq_ok.mp h
    obtain ⟨rest, hrest, h⟩ := bind_eq_ok.mp h
    cases h
    exact List.Forall₂.cons hb (ih hrest)

/-- A permutation of the items permutes what they map to. -/
theorem mapM_perm {f : α → Option β} {items items' : List α} (h : items.Perm items') {mapped : List β}
    (hmapped : items.mapM f = some mapped) : ∃ mapped', items'.mapM f = some mapped' ∧ mapped.Perm mapped' := by
  obtain ⟨mapped', hforall, hperm⟩ := List.perm_comp_forall₂ h.symm (mapM_eq_some.mp hmapped)
  exact ⟨mapped', mapM_eq_some.mpr hforall, hperm.symm⟩

/-! ## Tags -/

/-- Tags that are read as they are written and not otherwise. -/
theorem tag_eq_ok {α β ε : Type} {parse : β → Except ε α} {tag : α → β} (hwritten : ∀ a, parse (tag a) = .ok a)
    (hread : ∀ b a, parse b = .ok a → b = tag a) {b : β} {a : α} : parse b = .ok a ↔ b = tag a := by
  constructor
  · exact hread b a
  · intro h
    rw [h, hwritten]

end KaspaPortal.Lib
