import Mathlib.Data.List.Sort
import KaspaPortal.Lib.Bytes

/-!
# Sorting by swaps with the left neighbour

The loop that takes each item in turn and swaps it to the left while its neighbour has a greater
key. Items with different keys come out in one order, whatever order they went in.
-/
namespace KaspaPortal.Lib

variable {α : Type} (key : α → Bytes)

/-- The part before an item, from its nearest neighbour on, once the item has been swapped in. -/
def swapLeft (item : α) : List α → List α
  | [] => [item]
  | left :: before => if key item < key left then left :: swapLeft item before else item :: left :: before

/-- The items, from the last to the first. -/
def sortReversed (items : List α) : List α := items.foldl (fun before item => swapLeft key item before) []

/-- `for index in 1..count`, with its inner loop. -/
def swapSort (items : List α) : List α := (sortReversed key items).reverse

theorem perm_swapLeft (item : α) (before : List α) : (swapLeft key item before).Perm (item :: before) := by
  induction before with
  | nil => exact List.Perm.refl _
  | cons left before ih =>
    rw [swapLeft]
    split
    · exact (ih.cons left).trans (List.Perm.swap item left before)
    · exact List.Perm.refl _

theorem swapLeft_sorted {item : α} {before : List α} (h : before.Pairwise fun a b => key b ≤ key a) :
    (swapLeft key item before).Pairwise fun a b => key b ≤ key a := by
  induction before with
  | nil => exact List.pairwise_singleton _ _
  | cons left before ih =>
    obtain ⟨hleft, hbefore⟩ := List.pairwise_cons.mp h
    rw [swapLeft]
    split
    · rename_i hlt
      apply List.Pairwise.cons _ (ih hbefore)
      intro b hb
      obtain hb | hb := List.mem_cons.mp ((perm_swapLeft key item before).mem_iff.mp hb)
      · exact hb ▸ List.le_of_lt hlt
      · exact hleft b hb
    · rename_i hge
      apply List.Pairwise.cons _ h
      intro b hb
      have hle : key left ≤ key item := List.not_lt.mp hge
      obtain rfl | hb := List.mem_cons.mp hb
      · exact hle
      · exact List.le_trans (hleft b hb) hle

theorem foldl_swapLeft (items before : List α) :
    (items.foldl (fun before item => swapLeft key item before) before).Perm (items.reverse ++ before) := by
  induction items generalizing before with
  | nil => exact List.Perm.refl _
  | cons item items ih =>
    rw [List.foldl_cons, List.reverse_cons, List.append_assoc, List.singleton_append]
    exact (ih _).trans ((perm_swapLeft key item before).append_left _)

theorem foldl_swapLeft_sorted {items before : List α} (h : before.Pairwise fun a b => key b ≤ key a) :
    (items.foldl (fun before item => swapLeft key item before) before).Pairwise
      fun a b => key b ≤ key a := by
  induction items generalizing before with
  | nil => exact h
  | cons item items ih => exact ih (swapLeft_sorted key h)

theorem perm_swapSort (items : List α) : (swapSort key items).Perm items := by
  have h := foldl_swapLeft key items []
  rw [List.append_nil] at h
  exact (List.reverse_perm _).trans (h.trans (List.reverse_perm _))

theorem swapSort_sorted (items : List α) : (swapSort key items).Pairwise fun a b => key a ≤ key b :=
  List.pairwise_reverse.mpr (foldl_swapLeft_sorted key List.Pairwise.nil)

/-- The order of the items does not matter when equal keys mean equal items. -/
theorem swapSort_perm {items items' : List α} (h : items.Perm items')
    (hkey : ∀ a ∈ items, ∀ b ∈ items, key a = key b → a = b) : swapSort key items = swapSort key items' := by
  apply List.Perm.eq_of_pairwise _ (swapSort_sorted key items) (swapSort_sorted key items')
  · exact (perm_swapSort key items).trans (h.trans (perm_swapSort key items').symm)
  · intro a b ha hb hab hba
    apply hkey a ((perm_swapSort key items).mem_iff.mp ha) b
    · exact h.mem_iff.mpr ((perm_swapSort key items').mem_iff.mp hb)
    · exact List.le_antisymm hab hba

theorem swapSort_of_sorted {items : List α} (h : items.Pairwise fun a b => key a ≤ key b)
    (hkey : ∀ a ∈ items, ∀ b ∈ items, key a = key b → a = b) : swapSort key items = items := by
  apply List.Perm.eq_of_pairwise _ (swapSort_sorted key items) h (perm_swapSort key items)
  intro a b ha hb hab hba
  exact hkey a ((perm_swapSort key items).mem_iff.mp ha) b hb (List.le_antisymm hab hba)

/-- `(1..count).any(|index| items[index - 1] == items[index])` -/
def equalNeighbours (items : List Bytes) : Bool := (items.zip items.tail).any fun pair => pair.1 == pair.2

/-- Among sorted keys equal ones are neighbours. -/
theorem equalNeighbours_eq_false {keys : List Bytes} (h : keys.Pairwise fun a b => a ≤ b) :
    equalNeighbours keys = false ↔ keys.Nodup := by
  induction keys with
  | nil => simp [equalNeighbours]
  | cons first keys ih =>
    obtain ⟨hfirst, hkeys⟩ := List.pairwise_cons.mp h
    cases keys with
    | nil => simp [equalNeighbours]
    | cons second keys =>
      have hsplit : equalNeighbours (first :: second :: keys) =
          (first == second || equalNeighbours (second :: keys)) := rfl
      rw [hsplit, Bool.or_eq_false_iff, ih hkeys, beq_eq_false_iff_ne]
      constructor
      · intro hboth
        apply List.nodup_cons.mpr ⟨_, hboth.2⟩
        intro hmem
        -- The second lies between the first and any later one.
        obtain hsecond | hlater := List.mem_cons.mp hmem
        · exact hboth.1 hsecond
        · have hle := (List.pairwise_cons.mp hkeys).1 first hlater
          exact hboth.1 (List.le_antisymm (hfirst second List.mem_cons_self) hle)
      · intro hnodup
        obtain ⟨hnew, hrest⟩ := List.nodup_cons.mp hnodup
        exact ⟨fun heq => hnew (heq ▸ List.mem_cons_self), hrest⟩

end KaspaPortal.Lib
