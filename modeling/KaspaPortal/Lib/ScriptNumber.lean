import KaspaPortal.Lib.Bytes

/-!
# Signed script numbers

The number format of Bitcoin-style stack machines: least significant octet
first, the top bit of the last octet is the sign, zero is the empty string.
`encodeNum` writes the shortest form. `decodeNum` reads any form of at most
eight octets: padding with zeros is allowed, and so is a negative zero, so it
accepts every operand a machine insisting on shortest forms would accept.
-/
namespace KaspaPortal.Lib

/-- Octets of the shortest form of a magnitude, sign bit included. -/
def numWidth (m : Nat) : Nat := if m = 0 then 0 else (m.log2 + 1) / 8 + 1

/-- The weight of the sign bit of a `width`-octet number. -/
def signWeight (width : Nat) : Nat := 128 * 256 ^ (width - 1)

def encodeNum (z : Int) : Bytes :=
  leBytes (numWidth z.natAbs)
    (z.natAbs + if z < 0 then signWeight (numWidth z.natAbs) else 0)

/-- Operands longer than eight octets are refused. -/
def decodeNum (b : Bytes) : Option Int :=
  if 8 < b.length then none
  else if leNat b < signWeight b.length then some (leNat b)
  else some (-((leNat b - signWeight b.length : Nat) : Int))

/-- The truth value of a stack item: false is zero in any form, negative zero included. -/
def asBool : Bytes → Bool
  | [] => false
  | [b] => b &&& 0x7f != 0
  | b :: bs => b != 0 || asBool bs

theorem lt_signWeight (m : Nat) : m < signWeight (numWidth m) := by
  unfold numWidth signWeight
  split
  · omega
  · rename_i hm
    have hlt : m < 2 ^ (m.log2 + 1) := Nat.lt_log2_self
    have hpow : 128 * 256 ^ ((m.log2 + 1) / 8 + 1 - 1) = 2 ^ (8 * ((m.log2 + 1) / 8) + 7) := by
      rw [Nat.add_sub_cancel, Nat.pow_add, Nat.pow_mul]
      norm_num [Nat.mul_comm]
    rw [hpow]
    exact Nat.lt_of_lt_of_le hlt (Nat.pow_le_pow_right (by decide) (by omega))

theorem signWeight_double {width : Nat} (h : width ≠ 0) : 2 * signWeight width = 256 ^ width := by
  obtain ⟨k, rfl⟩ := Nat.exists_eq_succ_of_ne_zero h
  simp only [signWeight, Nat.succ_eq_add_one, Nat.add_sub_cancel, Nat.pow_succ]
  omega

/-- A magnitude needs more than eight octets exactly from `2 ^ 63` on. -/
theorem numWidth_le_eight (m : Nat) : numWidth m ≤ 8 ↔ m < 2 ^ 63 := by
  unfold numWidth
  split
  · rename_i hm
    simp [hm]
  · rename_i hm
    rw [← Nat.log2_lt hm]
    omega

theorem leNat_encodeNum (z : Int) :
    leNat (encodeNum z) =
      z.natAbs + if z < 0 then signWeight (numWidth z.natAbs) else 0 := by
  apply leNat_leBytes
  have hm := lt_signWeight z.natAbs
  split
  · have hw : numWidth z.natAbs ≠ 0 := by
      unfold numWidth
      split <;> omega
    have := signWeight_double hw
    omega
  · by_cases hz : z.natAbs = 0
    · simp [hz]
    · have hw : numWidth z.natAbs ≠ 0 := by
        simp only [numWidth, hz, if_false]
        omega
      have := signWeight_double hw
      omega

@[simp] theorem encodeNum_length (z : Int) : (encodeNum z).length = numWidth z.natAbs := by
  simp [encodeNum]

theorem decodeNum_encodeNum (z : Int) (h : z.natAbs < 2 ^ 63) :
    decodeNum (encodeNum z) = some z := by
  have hw : ¬ 8 < numWidth z.natAbs := by
    have := (numWidth_le_eight z.natAbs).mpr h
    omega
  have hm := lt_signWeight z.natAbs
  simp only [decodeNum, encodeNum_length, hw, if_false, leNat_encodeNum]
  by_cases hz : z < 0
  · rw [if_pos hz, if_neg (by omega)]
    congr 1
    omega
  · rw [if_neg hz, Nat.add_zero, if_pos hm]
    congr 1
    omega

theorem decodeNum_encodeNum_none (z : Int) (h : 2 ^ 63 ≤ z.natAbs) :
    decodeNum (encodeNum z) = none := by
  have hw : 8 < numWidth z.natAbs := by
    by_contra hn
    have := (numWidth_le_eight z.natAbs).mp (by omega)
    omega
  simp [decodeNum, hw]

/-- Every number has one shortest form and no two share it. -/
@[simp] theorem encodeNum_inj {a b : Int} : encodeNum a = encodeNum b ↔ a = b := by
  refine ⟨fun h => ?_, congrArg encodeNum⟩
  have hv := congrArg leNat h
  have hw := congrArg List.length h
  rw [encodeNum_length, encodeNum_length] at hw
  rw [leNat_encodeNum, leNat_encodeNum, hw] at hv
  have ha := lt_signWeight a.natAbs
  have hb := lt_signWeight b.natAbs
  rw [hw] at ha
  -- the sign bit outweighs either magnitude, so the signs agree
  split at hv <;> split at hv <;> omega

/-- An unsigned 64-bit value read back as a signed number: from `2 ^ 63` on the
top bit counts as the sign. -/
theorem decodeNum_leBytes_eight (v : UInt64) : decodeNum (leBytes 8 v.toNat) =
    some (if v.toNat < 2 ^ 63 then (v.toNat : Int) else -((v.toNat - 2 ^ 63 : Nat) : Int)) := by
  have hval := leNat_leBytes 8 v.toNat v.toNat_lt
  have hsw : signWeight 8 = 2 ^ 63 := by decide
  simp only [decodeNum, leBytes_length, hval, hsw, Nat.lt_irrefl, if_false]
  split <;> rfl

end KaspaPortal.Lib
