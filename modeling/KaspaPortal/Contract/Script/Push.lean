import KaspaPortal.Lib.ScriptNumber
import KaspaPortal.Primitives.Script

/-!
# Script pushes

`src/contract/script/push.rs` and `src/contract/script/number.rs`. The source
appends to a vector; here each function is the bytes it appends. `pushed` is
what an element leaves on the stack, and the lemmas say that every push the
builders write is one element that pushes exactly the intended bytes: data as
it is, an integer in its shortest script form.

A push is never executed here; that a machine reads it as the same data is
said beside the machine.
-/
set_option maxRecDepth 100000

namespace KaspaPortal.Contract.Script
open Lib Primitives

/-- What `push_data` can push. A longer item does not fit the widest length
field and the source panics on it. -/
def Pushable (data : Bytes) : Prop := data.length < 2 ^ 32

instance (data : Bytes) : Decidable (Pushable data) := inferInstanceAs (Decidable (_ < _))

theorem pushable_of_le {data : Bytes} {n : Nat} (h : data.length ≤ n) (hn : n < 2 ^ 32) :
    Pushable data :=
  Nat.lt_of_le_of_lt h hn

def pushData (data : Bytes) : Bytes :=
  if data.length ≤ 75 then UInt8.ofNat data.length :: data
  else if data.length ≤ 0xff then OP_PUSHDATA1 :: (leBytes 1 data.length ++ data)
  else if data.length ≤ 0xffff then OP_PUSHDATA2 :: (leBytes 2 data.length ++ data)
  else OP_PUSHDATA4 :: (leBytes 4 data.length ++ data)

def pushPubkey (publicKey : FixedBytes 32) : Bytes := OP_DATA_32 :: publicKey.val

/-- `value.to_le_bytes()` without its trailing zeros, and a zero octet more
when the top bit would read as a sign. -/
def trimmedInt (value : Nat) : Bytes :=
  let bytes := (leBytes 8 value).rdropWhile (· == 0)
  if bytes.getLast?.any (fun last => last &&& 0x80 != 0) then bytes ++ [0] else bytes

def pushInt (value : UInt64) : Bytes :=
  if value = 0 then [OP_0]
  else if value ≤ 16 then [0x50 + UInt8.ofNat value.toNat]
  else UInt8.ofNat (trimmedInt value.toNat).length :: trimmedInt value.toNat

/-- The bytes an element pushes; `none` for an opcode that is not a push. -/
def pushed (e : Element) : Option Bytes :=
  if e.opcode ≤ OP_PUSHDATA4 then some e.data
  else if OP_1 ≤ e.opcode ∧ e.opcode ≤ OP_16 then some [e.opcode - 0x50]
  else none

/-- `enc` is one element wherever it stands, and that element pushes `data`. -/
structure PushesAs (enc data : Bytes) : Prop where
  nonempty : enc ≠ []
  reads : ∀ rest, ∃ e, readElement (enc ++ rest) 0 = some (e, enc.length) ∧ pushed e = some data

theorem pushData_pushes (data : Bytes) (h : Pushable data) : PushesAs (pushData data) data := by
  unfold Pushable at h
  unfold pushData
  split
  · rename_i h75
    refine ⟨by simp, fun rest => ?_⟩
    by_cases hz : data = []
    · subst hz
      exact ⟨⟨OP_0, []⟩, readElement_opcode OP_0 rest (Or.inl rfl), rfl⟩
    · refine ⟨_, by simpa [Nat.add_comm] using readElement_direct data rest hz h75, ?_⟩
      have hle : UInt8.ofNat data.length ≤ OP_PUSHDATA4 := by
        rw [UInt8.le_iff_toNat_le, UInt8.toNat_ofNat', show OP_PUSHDATA4.toNat = 78 from rfl]
        omega
      simp [pushed, hle]
  · split
    · rename_i h1
      refine ⟨by simp, fun rest => ⟨⟨OP_PUSHDATA1, data⟩, ?_, rfl⟩⟩
      have := readElement_pushdata OP_PUSHDATA1 1 data rest (by simp) (by omega)
      simpa [Nat.add_comm, Nat.add_left_comm] using this
    · split
      · rename_i h2
        refine ⟨by simp, fun rest => ⟨⟨OP_PUSHDATA2, data⟩, ?_, rfl⟩⟩
        have := readElement_pushdata OP_PUSHDATA2 2 data rest (by simp) (by omega)
        simpa [Nat.add_comm, Nat.add_left_comm] using this
      · refine ⟨by simp, fun rest => ⟨⟨OP_PUSHDATA4, data⟩, ?_, rfl⟩⟩
        have := readElement_pushdata OP_PUSHDATA4 4 data rest (by simp) (by omega)
        simpa [Nat.add_comm, Nat.add_left_comm] using this

theorem pushPubkey_pushes (key : FixedBytes 32) : PushesAs (pushPubkey key) key.val := by
  have hlen := key.property
  have h : pushPubkey key = pushData key.val := by
    simp [pushPubkey, pushData, hlen]
  rw [h]
  exact pushData_pushes key.val (pushable_of_le hlen.le (by decide))

/-- The sign bit of an octet, as a bound on its value. -/
theorem signBit_iff (b : UInt8) : (b &&& 0x80 != 0) = decide (128 ≤ b.toNat) := by
  have h : ∀ n : Fin 256, (UInt8.ofNat n.val &&& 0x80 != 0) = decide (128 ≤ n.val) := by
    decide
  have hb := h ⟨b.toNat, b.toNat_lt⟩
  simpa using hb

theorem rdropWhile_zeros (xs : Bytes) (top : UInt8) (j : Nat) (h : top ≠ 0) :
    (xs ++ [top] ++ List.replicate j 0).rdropWhile (· == 0) = xs ++ [top] := by
  induction j with
  | zero => simp [h]
  | succ j ih =>
    rw [List.replicate_succ', ← List.append_assoc, List.rdropWhile_concat]
    simpa using ih

/-- What `push_int` writes above sixteen is the shortest script number. -/
theorem trimmedInt_eq (value : Nat) (h0 : value ≠ 0) (h : value < 2 ^ 64) :
    trimmedInt value = encodeNum value := by
  -- `k` is the place of the highest octet that is not zero
  obtain ⟨k, hk⟩ : ∃ k, k = value.log2 / 8 := ⟨_, rfl⟩
  have hlo : 2 ^ value.log2 ≤ value := Nat.log2_self_le h0
  have hhi : value < 2 ^ (value.log2 + 1) := Nat.lt_log2_self
  have hlog : value.log2 < 64 := (Nat.log2_lt h0).mpr h
  have hp : 256 ^ k = 2 ^ (8 * k) := by
    rw [show (256 : Nat) = 2 ^ 8 from rfl, ← Nat.pow_mul]
  have hp1 : 256 ^ (k + 1) = 2 ^ (8 * k + 8) := by
    rw [show (256 : Nat) = 2 ^ 8 from rfl, ← Nat.pow_mul, Nat.mul_add]
  have hge : 256 ^ k ≤ value := by
    rw [hp]
    exact Nat.le_trans (Nat.pow_le_pow_right (by decide) (by omega)) hlo
  have hlt : value < 256 ^ (k + 1) := by
    rw [hp1]
    exact Nat.lt_of_lt_of_le hhi (Nat.pow_le_pow_right (by decide) (by omega))
  have htop : value / 256 ^ k < 256 := by
    apply Nat.div_lt_of_lt_mul
    simpa [Nat.pow_succ] using hlt
  have htop0 : 0 < value / 256 ^ k := Nat.div_pos hge (Nat.pow_pos (by decide))
  have hto : (UInt8.ofNat (value / 256 ^ k)).toNat = value / 256 ^ k := by
    rw [UInt8.toNat_ofNat']
    omega
  have hne : UInt8.ofNat (value / 256 ^ k) ≠ 0 := by
    intro hc
    rw [hc] at hto
    simp at hto
    omega
  have htrim : (leBytes 8 value).rdropWhile (· == 0) = leBytes (k + 1) value := by
    have h8 : 8 = (k + 1) + (7 - k) := by omega
    rw [h8, leBytes_add _ _ _ hlt, leBytes_succ_last, rdropWhile_zeros _ _ _ hne]
  have hlast : (leBytes (k + 1) value).getLast? = some (UInt8.ofNat (value / 256 ^ k)) := by
    rw [leBytes_succ_last]
    simp
  have henc : encodeNum (value : Int) = leBytes (numWidth value) value := by
    rw [encodeNum, Int.natAbs_natCast, if_neg (by omega), Nat.add_zero]
  simp only [trimmedInt, htrim, hlast, Option.any_some, signBit_iff, hto, henc]
  -- a highest octet with its sign bit set is followed by a zero octet
  by_cases hs : 128 ≤ value / 256 ^ k
  · have hmul : 128 * 256 ^ k ≤ value := (Nat.le_div_iff_mul_le (Nat.pow_pos (by decide))).mp hs
    have hsign : 8 * k + 7 ≤ value.log2 := by
      rw [Nat.le_log2 h0, Nat.pow_add, ← hp]
      omega
    have hw : numWidth value = k + 1 + 1 := by
      simp only [numWidth, h0, if_false]
      omega
    rw [hw, leBytes_add _ _ _ hlt]
    simp [hs]
  · have hmul : value < 128 * 256 ^ k := by
      have := (Nat.div_lt_iff_lt_mul (Nat.pow_pos (by decide : 0 < 256))).mp (Nat.lt_of_not_le hs)
      omega
    have hsign : value.log2 < 8 * k + 7 := by
      rw [Nat.log2_lt h0, Nat.pow_add, ← hp]
      omega
    have hw : numWidth value = k + 1 := by
      simp only [numWidth, h0, if_false]
      omega
    rw [hw]
    simp [hs]

/-- Every `u64` is pushed as its shortest script number. -/
theorem pushInt_pushes (value : UInt64) : PushesAs (pushInt value) (encodeNum value.toNat) := by
  unfold pushInt
  split
  · rename_i hz
    subst hz
    exact ⟨by simp, fun rest => ⟨_, readElement_opcode OP_0 rest (Or.inl rfl), by decide⟩⟩
  · rename_i hz
    have hz' : value.toNat ≠ 0 := fun h => hz (UInt64.toNat.inj (by simpa using h))
    split
    · rename_i h16
      have h16' : value.toNat ≤ 16 := UInt64.le_iff_toNat_le.mp h16
      have small : ∀ n : Fin 17, 0 < n.val →
          0x4e < (0x50 + UInt8.ofNat n.val : UInt8) ∧
          pushed ⟨0x50 + UInt8.ofNat n.val, []⟩ = some (encodeNum (n.val : Int)) := by
        decide
      obtain ⟨hop, hpush⟩ := small ⟨value.toNat, by omega⟩ (by simp; omega)
      exact ⟨by simp, fun rest => ⟨_, readElement_opcode _ rest (Or.inr hop), hpush⟩⟩
    · have heq := trimmedInt_eq value.toNat hz' value.toNat_lt
      have hlen : (trimmedInt value.toNat).length ≤ 75 := by
        have hl : value.toNat.log2 < 64 := (Nat.log2_lt hz').mpr value.toNat_lt
        rw [heq, encodeNum_length, Int.natAbs_natCast]
        simp only [numWidth, hz', if_false]
        omega
      have h := pushData_pushes (trimmedInt value.toNat) (pushable_of_le hlen (by decide))
      rw [pushData, if_pos hlen] at h
      rwa [heq] at h ⊢

end KaspaPortal.Contract.Script
