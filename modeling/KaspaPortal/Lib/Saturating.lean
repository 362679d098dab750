import KaspaPortal.Lib.Result
import Mathlib.Algebra.Order.Ring.Nat

/-!
# Saturating and checked arithmetic on 64-bit counters
-/
namespace KaspaPortal.Lib

def u64Max : UInt64 := 18446744073709551615

/-- The source's `saturating_add`. -/
def saturatingAdd (a b : UInt64) : UInt64 := if a ≤ u64Max - b then a + b else u64Max

/-- The source's `saturating_sub`. -/
def saturatingSub (a b : UInt64) : UInt64 := if b ≤ a then a - b else 0

/-- The source's `checked_add`. -/
def checkedAdd (a b : UInt64) : Option UInt64 :=
  if a.toNat + b.toNat < 2 ^ 64 then some (a + b) else none

/-- The source's `checked_sub`. -/
def checkedSub (a b : UInt64) : Option UInt64 := if b ≤ a then some (a - b) else none

/-- The source's `checked_mul`. -/
def checkedMul (a b : UInt64) : Option UInt64 :=
  if a.toNat * b.toNat < 2 ^ 64 then some (a * b) else none

/-- The source's `checked_add(1)`. -/
def checkedSucc (a : UInt64) : Option UInt64 := if a = u64Max then none else some (a + 1)

theorem ofNat_toNat {n : Nat} (h : n < 2 ^ 64) : (UInt64.ofNat n).toNat = n :=
  UInt64.toNat_ofNat_of_lt' h

theorem toNat_max (a b : UInt64) : (max a b).toNat = max a.toNat b.toNat := by
  rw [show max a b = if a ≤ b then b else a from rfl, Nat.max_def]
  simp only [UInt64.le_iff_toNat_le]
  split
  · rfl
  · rfl

theorem toNat_min (a b : UInt64) : (min a b).toNat = min a.toNat b.toNat := by
  rw [show min a b = if a ≤ b then a else b from rfl, Nat.min_def]
  simp only [UInt64.le_iff_toNat_le]
  split
  · rfl
  · rfl

theorem saturatingAdd_toNat {a b : UInt64} (h : a.toNat + b.toNat < 2 ^ 64) :
    (saturatingAdd a b).toNat = a.toNat + b.toNat := by
  have hle : a ≤ u64Max - b := by
    rw [UInt64.le_iff_toNat_le, UInt64.toNat_sub_of_le _ _ (UInt64.le_iff_toNat_le.mpr ?_)]
    · have hmax : u64Max.toNat = 2 ^ 64 - 1 := by decide
      omega
    · have hmax : u64Max.toNat = 2 ^ 64 - 1 := by decide
      omega
  rw [saturatingAdd, if_pos hle, UInt64.toNat_add, Nat.mod_eq_of_lt h]

/-- A sum that does not fit counts as the largest number. -/
theorem toNat_saturatingAdd (a b : UInt64) :
    (saturatingAdd a b).toNat = min (a.toNat + b.toNat) u64Max.toNat := by
  have hmax : u64Max.toNat = 2 ^ 64 - 1 := by decide
  have ha := a.toNat_lt
  have hb := b.toNat_lt
  by_cases h : a.toNat + b.toNat < 2 ^ 64
  · rw [saturatingAdd_toNat h]
    omega
  · have hgt : ¬ a ≤ u64Max - b := by
      rw [UInt64.le_iff_toNat_le, UInt64.toNat_sub_of_le _ _ (UInt64.le_iff_toNat_le.mpr (by omega))]
      omega
    rw [saturatingAdd, if_neg hgt]
    omega

theorem saturatingSub_toNat {a b : UInt64} (h : b.toNat ≤ a.toNat) :
    (saturatingSub a b).toNat = a.toNat - b.toNat := by
  have hle : b ≤ a := UInt64.le_iff_toNat_le.mpr h
  rw [saturatingSub, if_pos hle, UInt64.toNat_sub_of_le _ _ hle]

/-- A difference that does not exist counts as zero, as it does in the naturals. -/
theorem toNat_saturatingSub (a b : UInt64) : (saturatingSub a b).toNat = a.toNat - b.toNat := by
  obtain h | h := Nat.le_total b.toNat a.toNat
  · exact saturatingSub_toNat h
  · rw [saturatingSub]
    split
    case isTrue hle =>
      rw [UInt64.toNat_sub_of_le _ _ hle]
    case isFalse =>
      rw [Nat.sub_eq_zero_of_le h]
      rfl

theorem checkedAdd_eq_some {a b c : UInt64} :
    checkedAdd a b = some c ↔ c.toNat = a.toNat + b.toNat := by
  rw [checkedAdd]
  split
  case isTrue h =>
    rw [Option.some.injEq, ← UInt64.toNat_inj, UInt64.toNat_add, Nat.mod_eq_of_lt h]
    exact eq_comm
  case isFalse h =>
    have hc := c.toNat_lt
    exact ⟨nofun, fun heq => by omega⟩

theorem checkedSub_eq_some {a b c : UInt64} :
    checkedSub a b = some c ↔ a.toNat = b.toNat + c.toNat := by
  rw [checkedSub]
  split
  case isTrue h =>
    have hle := UInt64.le_iff_toNat_le.mp h
    rw [Option.some.injEq, ← UInt64.toNat_inj, UInt64.toNat_sub_of_le _ _ h]
    omega
  case isFalse h =>
    rw [UInt64.le_iff_toNat_le] at h
    exact ⟨nofun, fun heq => by omega⟩

/-- Two amounts taken off one after the other. -/
theorem checkedSub_bind_eq_some {a b c d : UInt64} :
    (checkedSub a b).bind (checkedSub · c) = some d ↔
      a.toNat = b.toNat + c.toNat + d.toNat := by
  constructor
  · intro h
    obtain ⟨rest, hrest, h⟩ := Option.bind_eq_some_iff.mp h
    rw [checkedSub_eq_some] at hrest h
    omega
  · intro h
    have hrest : (a - b).toNat = a.toNat - b.toNat :=
      UInt64.toNat_sub_of_le _ _ (UInt64.le_iff_toNat_le.mpr (by omega))
    refine Option.bind_eq_some_iff.mpr ⟨a - b, ?_, ?_⟩
    · rw [checkedSub_eq_some]
      omega
    · rw [checkedSub_eq_some]
      omega

theorem checkedMul_eq_some {a b c : UInt64} :
    checkedMul a b = some c ↔ c.toNat = a.toNat * b.toNat := by
  rw [checkedMul]
  split
  case isTrue h =>
    rw [Option.some.injEq, ← UInt64.toNat_inj, UInt64.toNat_mul, Nat.mod_eq_of_lt h]
    exact eq_comm
  case isFalse h =>
    have hc := c.toNat_lt
    exact ⟨nofun, fun heq => absurd hc (by rw [heq]; exact h)⟩

theorem okOr_checkedAdd {a b c : UInt64} {error : String}
    (h : okOr error (checkedAdd a b) = .ok c) : c.toNat = a.toNat + b.toNat :=
  checkedAdd_eq_some.mp (okOr_eq_ok.mp h)

theorem okOr_checkedMul {a b c : UInt64} {error : String}
    (h : okOr error (checkedMul a b) = .ok c) : c.toNat = a.toNat * b.toNat :=
  checkedMul_eq_some.mp (okOr_eq_ok.mp h)

theorem okOr_checkedAdd_eq {a b c : UInt64} (error : String) (h : c.toNat = a.toNat + b.toNat) :
    okOr error (checkedAdd a b) = .ok c :=
  okOr_eq_ok.mpr (checkedAdd_eq_some.mpr h)

theorem okOr_checkedMul_eq {a b c : UInt64} (error : String) (h : c.toNat = a.toNat * b.toNat) :
    okOr error (checkedMul a b) = .ok c :=
  okOr_eq_ok.mpr (checkedMul_eq_some.mpr h)

theorem sum_map_const {α : Type} {f : α → Nat} {c : Nat} {items : List α}
    (h : ∀ a ∈ items, f a = c) : (items.map f).sum = items.length * c := by
  rw [List.map_congr_left h, List.map_const', List.sum_replicate_nat]

/-- A loop whose every step adds a weight adds all the weights. -/
theorem foldlM_weight {σ α ε : Type} {step : σ → α → Except ε σ} {measure : σ → Nat} {weight : α → Nat}
    {items : List α} {start final : σ}
    (hstep : ∀ a ∈ items, ∀ s s', step s a = .ok s' → measure s' = measure s + weight a)
    (h : items.foldlM step start = .ok final) :
    measure final = measure start + (items.map weight).sum := by
  induction items generalizing start with
  | nil =>
    cases h
    rfl
  | cons a items ih =>
    rw [List.foldlM_cons] at h
    obtain ⟨next, hnext, hrest⟩ := bind_eq_ok.mp h
    have hfirst := hstep a List.mem_cons_self start next hnext
    have hothers := ih (fun b hb => hstep b (List.mem_cons_of_mem a hb)) hrest
    rw [hothers, hfirst, List.map_cons, List.sum_cons, Nat.add_assoc]

/-- A loop that can add any weight below the bound adds weights that stay below it together. -/
theorem foldlM_reaches {α ε : Type} {step : UInt64 → α → Except ε UInt64} {weight : α → Nat}
    {items : List α} {start final : UInt64}
    (hstep : ∀ a ∈ items, ∀ s s' : UInt64, s'.toNat = s.toNat + weight a → step s a = .ok s')
    (hfinal : final.toNat = start.toNat + (items.map weight).sum) :
    items.foldlM step start = .ok final := by
  induction items generalizing start with
  | nil =>
    have hsame : final.toNat = start.toNat := hfinal
    rw [UInt64.toNat_inj.mp hsame]
    rfl
  | cons a items ih =>
    rw [List.map_cons, List.sum_cons] at hfinal
    have hbound := final.toNat_lt
    have hnext : (UInt64.ofNat (start.toNat + weight a)).toNat = start.toNat + weight a :=
      ofNat_toNat (by omega)
    rw [List.foldlM_cons, hstep a List.mem_cons_self start _ hnext]
    refine ih (fun b hb => hstep b (List.mem_cons_of_mem a hb)) ?_
    omega

end KaspaPortal.Lib
