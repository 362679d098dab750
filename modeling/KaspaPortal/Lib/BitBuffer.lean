import Mathlib.Data.List.GetD
import KaspaPortal.Lib.Bytes

/-!
# Bits of byte buffers

The bits of a buffer are numbered from the highest bit of its first byte on, and a field of a buffer
is the number that consecutive bits write. A buffer is determined by its bits.
-/
namespace KaspaPortal.Lib

/-- The bit at a position of a buffer, the highest bit of each byte first. -/
def bitAt (data : Bytes) (position : Nat) : Bool :=
  (data.getD (position / 8) 0).toNat.testBit (7 - position % 8)

theorem byte_eq_of_testBit {a b : UInt8} (h : ∀ k < 8, a.toNat.testBit k = b.toNat.testBit k) :
    a = b := by
  apply UInt8.toNat_inj.mp
  apply Nat.eq_of_testBit_eq
  intro k
  by_cases hk : k < 8
  · exact h k hk
  · have hpow : 256 ≤ 2 ^ k := Nat.pow_le_pow_right (show 0 < 2 by decide) (Nat.not_lt.mp hk)
    rw [Nat.testBit_lt_two_pow (Nat.lt_of_lt_of_le a.toNat_lt hpow),
      Nat.testBit_lt_two_pow (Nat.lt_of_lt_of_le b.toNat_lt hpow)]

theorem shiftRight_and_one {byte : UInt8} {k : Nat} (h : k < 8) :
    (byte >>> UInt8.ofNat k) &&& 1 = if byte.toNat.testBit k then 1 else 0 := by
  have hk : (UInt8.ofNat k).toNat = k := UInt8.toNat_ofNat_of_lt' (Nat.lt_trans h (by decide))
  apply UInt8.toNat_inj.mp
  rw [UInt8.toNat_and, UInt8.toNat_shiftRight, hk, Nat.mod_eq_of_lt h, UInt8.toNat_one,
    Nat.and_one_is_mod, Nat.shiftRight_eq_div_pow, Nat.testBit_eq_decide_div_mod_eq]
  have hbit := Nat.mod_two_eq_zero_or_one (byte.toNat / 2 ^ k)
  cases hbit with
  | inl hzero => rw [hzero]; rfl
  | inr hone => rw [hone]; rfl

/-- Adding a power of two to a byte that lacks it sets one bit. -/
theorem testBit_add_shiftLeft {byte : UInt8} {k : Nat} (hk : k < 8)
    (hclear : byte.toNat.testBit k = false) (j : Nat) :
    (byte + (1 <<< UInt8.ofNat k)).toNat.testBit j = (byte.toNat.testBit j || decide (j = k)) := by
  have hamount : (UInt8.ofNat k).toNat = k :=
    UInt8.toNat_ofNat_of_lt' (Nat.lt_trans hk (by decide))
  have hdisjoint : byte.toBitVec &&& BitVec.twoPow 8 k = 0#8 := by
    apply BitVec.eq_of_getLsbD_eq
    intro i hi
    rw [BitVec.getLsbD_and, BitVec.getLsbD_twoPow, BitVec.getLsbD_zero]
    by_cases hik : k = i
    · rw [← hik, ← BitVec.testBit_toNat]
      exact Bool.and_eq_false_imp.mpr fun hset => absurd (hclear.symm.trans hset) Bool.false_ne_true
    · simp [hik]
  have hpower : (1 <<< UInt8.ofNat k : UInt8).toBitVec = BitVec.twoPow 8 k := by
    rw [BitVec.twoPow_eq]
    apply BitVec.eq_of_toNat_eq
    change ((1 : UInt8) <<< UInt8.ofNat k).toNat = _
    rw [UInt8.toNat_shiftLeft, hamount, Nat.mod_eq_of_lt hk, BitVec.toNat_shiftLeft]
    rfl
  have hsum : (byte + (1 <<< UInt8.ofNat k)).toBitVec = byte.toBitVec ||| BitVec.twoPow 8 k := by
    rw [UInt8.toBitVec_add, hpower, BitVec.add_eq_or_of_and_eq_zero _ _ hdisjoint]
  change (byte + (1 <<< UInt8.ofNat k)).toBitVec.toNat.testBit j = _
  rw [hsum, BitVec.testBit_toNat, BitVec.getLsbD_or, BitVec.getLsbD_twoPow]
  have hsame : decide (k = j) = decide (j = k) := decide_eq_decide.mpr eq_comm
  rw [decide_eq_true hk, Bool.true_and, hsame]
  rfl

/-- Buffers of one length with the same bits are equal. -/
theorem bitAt_ext {a b : Bytes} (hlength : a.length = b.length)
    (h : ∀ position < 8 * a.length, bitAt a position = bitAt b position) : a = b := by
  apply List.ext_getElem hlength
  intro index ha hb
  apply byte_eq_of_testBit
  intro k hk
  have hposition : 8 * index + (7 - k) < 8 * a.length := by omega
  have hbit := h _ hposition
  have hdiv : (8 * index + (7 - k)) / 8 = index := by omega
  have hmod : 7 - (8 * index + (7 - k)) % 8 = k := by omega
  rwa [bitAt, bitAt, hdiv, hmod, List.getD_eq_getElem _ _ ha, List.getD_eq_getElem _ _ hb] at hbit

/-- A byte in which one more bit is set. -/
theorem bitAt_set {data : Bytes} {position : Nat} (hroom : position / 8 < data.length)
    (hclear : bitAt data position = false) (other : Nat) :
    bitAt (data.set (position / 8) (data[position / 8] + (1 <<< UInt8.ofNat (7 - position % 8))))
      other = (bitAt data other || decide (other = position)) := by
  rw [bitAt, List.getD_eq_getElem _ _ hroom] at hclear
  by_cases hbyte : other / 8 = position / 8
  · have hsame : (7 - other % 8 = 7 - position % 8) ↔ other = position := by omega
    rw [bitAt, hbyte, List.getD_eq_getElem _ _ (by rwa [List.length_set]), List.getElem_set_self,
      testBit_add_shiftLeft (by omega) hclear, bitAt, hbyte,
      List.getD_eq_getElem _ _ hroom, decide_eq_decide.mpr hsame]
  · have hne : other ≠ position := fun heq => hbyte (by rw [heq])
    rw [bitAt, List.getD_eq_getElem?_getD, List.getElem?_set_ne (Ne.symm hbyte),
      ← List.getD_eq_getElem?_getD, decide_eq_false hne, Bool.or_false]
    rfl

/-! ## Fields -/

/-- The number that consecutive bits write. -/
def bitField (data : Bytes) (offset : Nat) : Nat → Nat
  | 0 => 0
  | width + 1 => 2 * bitField data offset width + (bitAt data (offset + width)).toNat

theorem bitField_lt (data : Bytes) (offset width : Nat) : bitField data offset width < 2 ^ width := by
  induction width with
  | zero => exact Nat.one_pos
  | succ width ih =>
    have hbit := Bool.toNat_lt (bitAt data (offset + width))
    rw [bitField, Nat.pow_succ]
    omega

theorem testBit_bitField (data : Bytes) (offset width : Nat) {j : Nat} (h : j < width) :
    (bitField data offset width).testBit j = bitAt data (offset + (width - 1 - j)) := by
  induction width generalizing j with
  | zero => exact absurd h (Nat.not_lt_zero j)
  | succ width ih =>
    have hbit := Bool.toNat_lt (bitAt data (offset + width))
    rw [bitField]
    cases j with
    | zero =>
      rw [Nat.testBit_zero, Nat.mul_add_mod, Nat.mod_eq_of_lt hbit, Nat.add_sub_cancel, Nat.sub_zero]
      cases bitAt data (offset + width) <;> rfl
    | succ j =>
      have hhalf : (2 * bitField data offset width + (bitAt data (offset + width)).toNat) / 2 =
          bitField data offset width := by omega
      have hplace : width + 1 - 1 - (j + 1) = width - 1 - j := by omega
      rw [Nat.testBit_succ, hhalf, ih (Nat.lt_of_succ_lt_succ h), hplace]

end KaspaPortal.Lib
