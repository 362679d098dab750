import KaspaPortal.Lib.Layout

/-!
# Self-delimiting encodings

When the front of a string can be read in one way only, so can a sequence of such
records: equal concatenations hold records that mean the same, one by one.
What a record means is a function of the value, since an encoding may leave parts out.
-/
namespace KaspaPortal.Lib

variable {α β : Type}

/-- The front of a string determines what the record there means, and where it ends. -/
def Delimits (enc : α → Bytes) (valid : α → Prop) (meaning : α → β) : Prop :=
  ∀ ⦃a b : α⦄, valid a → valid b → ∀ ⦃r s : Bytes⦄,
    enc a ++ r = enc b ++ s → meaning a = meaning b ∧ r = s

theorem Delimits.flatMap {enc : α → Bytes} {valid : α → Prop} {meaning : α → β}
    (h : Delimits enc valid meaning) (hne : ∀ a, enc a ≠ []) {l l' : List α}
    (hl : ∀ a ∈ l, valid a) (hl' : ∀ a ∈ l', valid a) (heq : l.flatMap enc = l'.flatMap enc) :
    l.map meaning = l'.map meaning := by
  induction l generalizing l' with
  | nil =>
    cases l' with
    | nil => rfl
    | cons b l' =>
      rw [List.flatMap_nil, List.flatMap_cons] at heq
      exact absurd (List.append_eq_nil_iff.mp heq.symm).1 (hne b)
  | cons a l ih =>
    cases l' with
    | nil =>
      rw [List.flatMap_nil, List.flatMap_cons] at heq
      exact absurd (List.append_eq_nil_iff.mp heq).1 (hne a)
    | cons b l' =>
      rw [List.flatMap_cons, List.flatMap_cons] at heq
      obtain ⟨ha, hl⟩ := List.forall_mem_cons.mp hl
      obtain ⟨hb, hl'⟩ := List.forall_mem_cons.mp hl'
      obtain ⟨hmeaning, hrest⟩ := h ha hb heq
      rw [List.map_cons, List.map_cons, hmeaning, ih hl hl' hrest]

/-- As many records on either side, whatever follows them. -/
theorem Delimits.flatMap_append {enc : α → Bytes} {valid : α → Prop} {meaning : α → β}
    (h : Delimits enc valid meaning) {l l' : List α} (hlen : l.length = l'.length)
    (hl : ∀ a ∈ l, valid a) (hl' : ∀ a ∈ l', valid a) {r s : Bytes}
    (heq : l.flatMap enc ++ r = l'.flatMap enc ++ s) : l.map meaning = l'.map meaning ∧ r = s := by
  induction l generalizing l' with
  | nil =>
    cases l' with
    | nil => exact ⟨rfl, heq⟩
    | cons b l' => cases hlen
  | cons a l ih =>
    cases l' with
    | nil => cases hlen
    | cons b l' =>
      rw [List.flatMap_cons, List.flatMap_cons, List.append_assoc, List.append_assoc] at heq
      obtain ⟨ha, hl⟩ := List.forall_mem_cons.mp hl
      obtain ⟨hb, hl'⟩ := List.forall_mem_cons.mp hl'
      obtain ⟨hmeaning, hrest⟩ := h ha hb heq
      obtain ⟨hmap, htail⟩ := ih (Nat.succ.inj hlen) hl hl' hrest
      exact ⟨by rw [List.map_cons, List.map_cons, hmeaning, hmap], htail⟩

theorem leBytes_append_inj {width x y : Nat} {r s : Bytes} (hx : x < 256 ^ width)
    (hy : y < 256 ^ width) (h : leBytes width x ++ r = leBytes width y ++ s) : x = y ∧ r = s := by
  obtain ⟨hxy, hrs⟩ := List.append_inj h (by rw [leBytes_length, leBytes_length])
  have hnum := congrArg leNat hxy
  rw [leNat_leBytes _ _ hx, leNat_leBytes _ _ hy] at hnum
  exact ⟨hnum, hrs⟩

theorem u16_append_inj {x y : UInt16} {r s : Bytes}
    (h : leBytes 2 x.toNat ++ r = leBytes 2 y.toNat ++ s) : x = y ∧ r = s := by
  obtain ⟨hnum, hrs⟩ := leBytes_append_inj x.toNat_lt y.toNat_lt h
  exact ⟨UInt16.toNat.inj hnum, hrs⟩

theorem u32_append_inj {x y : UInt32} {r s : Bytes}
    (h : leBytes 4 x.toNat ++ r = leBytes 4 y.toNat ++ s) : x = y ∧ r = s := by
  obtain ⟨hnum, hrs⟩ := leBytes_append_inj x.toNat_lt y.toNat_lt h
  exact ⟨UInt32.toNat.inj hnum, hrs⟩

theorem u64_append_inj {x y : UInt64} {r s : Bytes}
    (h : leBytes 8 x.toNat ++ r = leBytes 8 y.toNat ++ s) : x = y ∧ r = s := by
  obtain ⟨hnum, hrs⟩ := leBytes_append_inj x.toNat_lt y.toNat_lt h
  exact ⟨UInt64.toNat.inj hnum, hrs⟩

theorem fixed_append_inj {n : Nat} {x y : FixedBytes n} {r s : Bytes}
    (h : x.val ++ r = y.val ++ s) : x = y ∧ r = s := by
  obtain ⟨hxy, hrs⟩ := List.append_inj h (by rw [x.property, y.property])
  exact ⟨Subtype.ext hxy, hrs⟩

/-- A string behind its own length. -/
theorem counted_append_inj {width : Nat} {x y r s : Bytes} (hx : x.length < 256 ^ width)
    (hy : y.length < 256 ^ width)
    (h : leBytes width x.length ++ (x ++ r) = leBytes width y.length ++ (y ++ s)) :
    x = y ∧ r = s := by
  obtain ⟨hlen, hrest⟩ := leBytes_append_inj hx hy h
  exact List.append_inj hrest hlen

/-! ## Big-endian lengths -/

theorem beBytes_append_inj {width x y : Nat} {r s : Bytes} (hx : x < 256 ^ width)
    (hy : y < 256 ^ width) (h : beBytes width x ++ r = beBytes width y ++ s) : x = y ∧ r = s := by
  obtain ⟨hxy, hrs⟩ := List.append_inj h (by rw [beBytes_length, beBytes_length])
  have hnum := congrArg beNat hxy
  rw [beNat_beBytes _ _ hx, beNat_beBytes _ _ hy] at hnum
  exact ⟨hnum, hrs⟩

/-- A string behind its own length. -/
theorem be_counted_append_inj {width : Nat} {x y r s : Bytes} (hx : x.length < 256 ^ width)
    (hy : y.length < 256 ^ width)
    (h : beBytes width x.length ++ (x ++ r) = beBytes width y.length ++ (y ++ s)) :
    x = y ∧ r = s := by
  obtain ⟨hlen, hrest⟩ := beBytes_append_inj hx hy h
  exact List.append_inj hrest hlen

end KaspaPortal.Lib
