import Mathlib.Algebra.Order.Floor.Div

/-!
# Cutting a list into pieces

A list is cut into pieces of one size, the last of which may be shorter, and the pieces
in their order make up the list again.
-/
namespace KaspaPortal.Lib

variable {α : Type}

/-- The pieces of `size` items. -/
def chunks (size : Nat) (l : List α) : List (List α) :=
  (List.range (l.length ⌈/⌉ size)).map fun i => (l.drop (i * size)).take size

@[simp] theorem length_chunks (size : Nat) (l : List α) :
    (chunks size l).length = l.length ⌈/⌉ size := by
  rw [chunks, List.length_map, List.length_range]

theorem getElem_chunks (size : Nat) (l : List α) (i : Nat) (h : i < (chunks size l).length) :
    (chunks size l)[i] = (l.drop (i * size)).take size := by
  simp only [chunks, List.getElem_map, List.getElem_range]

/-- The first `count` pieces make up a front of the list. -/
theorem flatten_map_range (size count : Nat) (l : List α) :
    ((List.range count).map fun i => (l.drop (i * size)).take size).flatten =
      l.take (count * size) := by
  induction count with
  | zero => simp
  | succ count ih =>
    rw [List.range_succ, List.map_append, List.flatten_append, ih, Nat.succ_mul, List.take_add]
    simp

theorem flatten_chunks {size : Nat} (hsize : 0 < size) (l : List α) :
    (chunks size l).flatten = l := by
  have hcover : l.length ≤ size * (l.length ⌈/⌉ size) := (ceilDiv_le_iff_le_mul hsize).mp le_rfl
  rw [chunks, flatten_map_range, List.take_of_length_le]
  rwa [Nat.mul_comm]

theorem length_getElem_chunks_le (size : Nat) (l : List α) (i : Nat)
    (h : i < (chunks size l).length) : (chunks size l)[i].length ≤ size := by
  rw [getElem_chunks]
  exact List.length_take_le _ _

/-- No piece is empty. -/
theorem length_getElem_chunks_pos {size : Nat} (hsize : 0 < size) (l : List α) (i : Nat)
    (h : i < (chunks size l).length) : 0 < (chunks size l)[i].length := by
  rw [getElem_chunks, List.length_take, List.length_drop]
  rw [length_chunks] at h
  have hstart : ¬ l.length ≤ size * i := fun hle =>
    Nat.not_le_of_lt h ((ceilDiv_le_iff_le_mul hsize).mpr hle)
  rw [Nat.mul_comm] at hstart
  omega

/-! ## Cutting into a number of pieces -/

theorem ceilDiv_pos {a b : Nat} (hb : 0 < b) (ha : 0 < a) : 0 < a ⌈/⌉ b := by
  by_contra hzero
  have hle : a ≤ b * 0 := (ceilDiv_le_iff_le_mul hb).mp (Nat.le_of_not_lt hzero)
  omega

/-- Cut so as to fill at most `count` pieces, a list fills at most that many. -/
theorem length_chunks_ceilDiv_le {l : List α} {count : Nat} (hcount : 0 < count)
    (hl : 0 < l.length) : (chunks (l.length ⌈/⌉ count) l).length ≤ count := by
  have hsize : 0 < l.length ⌈/⌉ count := ceilDiv_pos hcount hl
  rw [length_chunks, ceilDiv_le_iff_le_mul hsize, Nat.mul_comm]
  exact (ceilDiv_le_iff_le_mul hcount).mp le_rfl

/-- Two items and two pieces make at least two pieces. -/
theorem two_le_length_chunks_ceilDiv {l : List α} {count : Nat} (hcount : 2 ≤ count)
    (hl : 2 ≤ l.length) : 2 ≤ (chunks (l.length ⌈/⌉ count) l).length := by
  have hpos : 0 < count := by omega
  have hsize : 0 < l.length ⌈/⌉ count := ceilDiv_pos hpos (by omega)
  rw [length_chunks]
  by_contra hone
  have hle : l.length ≤ (l.length ⌈/⌉ count) * 1 := (ceilDiv_le_iff_le_mul hsize).mp (by omega)
  have hless : l.length ⌈/⌉ count ≤ l.length - 1 := by
    rw [ceilDiv_le_iff_le_mul hpos]
    calc l.length ≤ 2 * (l.length - 1) := by omega
      _ ≤ count * (l.length - 1) := Nat.mul_le_mul_right _ hcount
  omega

end KaspaPortal.Lib
