import Mathlib.Data.List.Infix

/-!
# Writing into fixed buffers

A write or a read out of range fails. A buffer that starts with some content is written to behind it.
-/
namespace KaspaPortal.Lib

variable {α : Type} {buf content data : List α}

/-- The source's `buf[pos..pos + data.len()].copy_from_slice(data)`. -/
def copyAt (buf : List α) (pos : Nat) (data : List α) : Option (List α) :=
  if pos + data.length ≤ buf.length then
    some (buf.take pos ++ data ++ buf.drop (pos + data.length))
  else none

/-- The source's `buf[..len]`. -/
def upTo (buf : List α) (len : Nat) : Option (List α) :=
  if len ≤ buf.length then some (buf.take len) else none

theorem copyAt_isSome {pos : Nat} :
    (copyAt buf pos data).isSome = true ↔ pos + data.length ≤ buf.length := by
  rw [copyAt]
  split
  case isTrue h => exact ⟨fun _ => h, fun _ => rfl⟩
  case isFalse h => exact ⟨nofun, fun hle => absurd hle h⟩

/-- What stood before the position stays, and the data follow it. -/
theorem copyAt_append (hpre : content <+: buf) (hroom : (content ++ data).length ≤ buf.length) :
    ∃ written, copyAt buf content.length data = some written ∧ content ++ data <+: written ∧
      written.length = buf.length := by
  rw [List.length_append] at hroom
  refine ⟨_, if_pos hroom, ?_, ?_⟩
  · rw [List.prefix_iff_eq_take.mp hpre |>.symm]
    exact List.prefix_append _ _
  · rw [List.length_append, List.length_append, List.length_take, List.length_drop]
    omega

theorem upTo_of_prefix (hpre : content <+: buf) : upTo buf content.length = some content := by
  rw [upTo, if_pos hpre.length_le, ← List.prefix_iff_eq_take.mp hpre]

end KaspaPortal.Lib
