import Mathlib.Data.List.Basic
import Mathlib.Data.List.DropRight
import Mathlib.Algebra.Order.Ring.Nat
import Mathlib.Tactic.Ring

/-!
# Byte strings and fixed-width little-endian integers

General facts about octet lists: the fixed-width little-endian writer, its
reader, and how the two cancel. Nothing here mentions a script, a transaction
or a wire format; every width is a parameter.
-/
namespace KaspaPortal.Lib

abbrev Bytes := List UInt8

/-- A byte array whose length is part of its type. -/
abbrev FixedBytes (n : Nat) := { b : Bytes // b.length = n }

/-- The bytes of an ASCII text. -/
def ascii (s : String) : Bytes := s.toList.map fun c => UInt8.ofNat c.toNat

/-- The `width` low octets of `value`, least significant first. -/
def leBytes : Nat → Nat → Bytes
  | 0, _ => []
  | width + 1, value => UInt8.ofNat value :: leBytes width (value / 256)

/-- The number a little-endian octet list denotes. -/
def leNat : Bytes → Nat
  | [] => 0
  | b :: bs => b.toNat + 256 * leNat bs

@[simp] theorem leBytes_length (width value : Nat) : (leBytes width value).length = width := by
  induction width generalizing value with
  | zero => rfl
  | succ width ih => simp [leBytes, ih]

theorem leNat_lt (b : Bytes) : leNat b < 256 ^ b.length := by
  induction b with
  | nil => simp [leNat]
  | cons x xs ih =>
    have hx : x.toNat < 256 := x.toNat_lt
    simp only [leNat, List.length_cons, Nat.pow_succ]
    omega

theorem leNat_leBytes (width value : Nat) (h : value < 256 ^ width) :
    leNat (leBytes width value) = value := by
  induction width generalizing value with
  | zero =>
    have hz : value = 0 := by simpa using h
    simp [leBytes, leNat, hz]
  | succ width ih =>
    have hd : value / 256 < 256 ^ width := by
      apply Nat.div_lt_of_lt_mul
      simpa [Nat.pow_succ, Nat.mul_comm] using h
    simp only [leBytes, leNat, ih _ hd, UInt8.toNat_ofNat']
    omega

theorem leBytes_leNat (b : Bytes) : leBytes b.length (leNat b) = b := by
  induction b with
  | nil => rfl
  | cons x xs ih =>
    have hx : x.toNat < 256 := x.toNat_lt
    have hd : (x.toNat + 256 * leNat xs) / 256 = leNat xs := by omega
    have hb : UInt8.ofNat (x.toNat + 256 * leNat xs) = x := by
      apply UInt8.toNat.inj
      rw [UInt8.toNat_ofNat']
      omega
    simp only [List.length_cons, leNat, leBytes, hd, hb, ih]

theorem leBytes_toNat_inj {a b : UInt64} (h : leBytes 8 a.toNat = leBytes 8 b.toNat) : a = b := by
  have := congrArg leNat h
  rw [leNat_leBytes _ _ a.toNat_lt, leNat_leBytes _ _ b.toNat_lt] at this
  exact UInt64.toNat.inj this

/-- Widening a value that already fits only appends zero octets. -/
theorem leBytes_add (k j value : Nat) (h : value < 256 ^ k) :
    leBytes (k + j) value = leBytes k value ++ List.replicate j 0 := by
  induction k generalizing value with
  | zero =>
    have hz : value = 0 := by simpa using h
    subst hz
    rw [Nat.zero_add]
    induction j with
    | zero => rfl
    | succ j ih =>
      simp only [leBytes, Nat.zero_div, List.replicate_succ, List.nil_append] at ih ⊢
      rw [ih]
      rfl
  | succ k ih =>
    have hd : value / 256 < 256 ^ k := by
      apply Nat.div_lt_of_lt_mul
      simpa [Nat.pow_succ, Nat.mul_comm] using h
    rw [Nat.add_right_comm]
    simp only [leBytes, ih _ hd, List.cons_append]

/-- The top octet of a `k + 1` octet value is its quotient by `256 ^ k`. -/
theorem leBytes_succ_last (k value : Nat) :
    leBytes (k + 1) value = leBytes k value ++ [UInt8.ofNat (value / 256 ^ k)] := by
  induction k generalizing value with
  | zero => simp [leBytes]
  | succ k ih =>
    rw [leBytes, ih (value / 256), leBytes, Nat.div_div_eq_div_mul, Nat.pow_succ, Nat.mul_comm 256]
    rfl

/-- Cutting a middle segment out of a concatenation at its own offsets. -/
theorem slice_append (pre mid post : Bytes) :
    ((pre ++ mid ++ post).take (pre.length + mid.length)).drop pre.length = mid := by
  rw [← List.length_append, List.take_left, List.drop_left]

/-- `data` copied over a buffer from `offset` on. The source panics when it does
not fit; every caller has checked that it does. -/
def FixedBytes.write {n : Nat} (buffer : FixedBytes n) (offset : Nat) (data : Bytes) :
    FixedBytes n :=
  if h : offset + data.length ≤ n then
    ⟨buffer.val.take offset ++ data ++ buffer.val.drop (offset + data.length), by
      have := buffer.property
      simp
      omega⟩
  else buffer

/-- `b` cut at two positions. -/
def cut (b : Bytes) (start stop : Nat) : Bytes := (b.take stop).drop start

theorem FixedBytes.cut_write_self {n : Nat} (buffer : FixedBytes n) (offset : Nat) (data : Bytes)
    (h : offset + data.length ≤ n) :
    cut (buffer.write offset data).val offset (offset + data.length) = data := by
  have hb := buffer.property
  have ht : (buffer.val.take offset).length = offset := by simp; omega
  unfold FixedBytes.write cut
  rw [dif_pos h]
  have := slice_append (buffer.val.take offset) data (buffer.val.drop (offset + data.length))
  rwa [ht] at this

/-- What lies before the offset is not touched. -/
theorem FixedBytes.cut_write_below {n : Nat} (buffer : FixedBytes n) (offset : Nat) (data : Bytes)
    (start stop : Nat) (h : stop ≤ offset) :
    cut (buffer.write offset data).val start stop = cut buffer.val start stop := by
  have hb := buffer.property
  unfold FixedBytes.write cut
  split
  · rename_i hfit
    have ht : stop ≤ (buffer.val.take offset).length := by simp; omega
    simp only [List.append_assoc]
    rw [List.take_append_of_le_length ht, List.take_take, Nat.min_eq_left h]
  · rfl

end KaspaPortal.Lib
