import KaspaPortal.Lib.Bytes

/-!
# Hexadecimal

`src/primitives/bytes.rs`: the canonical lower-case form, and the reader of either case.

Text that is not of these two forms is an error, never a shorter string.
-/
set_option maxRecDepth 100000

namespace KaspaPortal.Primitives
open Lib

def decodeLowerHexNibble (value : UInt8) : Option UInt8 :=
  if 0x30 ≤ value ∧ value ≤ 0x39 then some (value - 0x30)
  else if 0x61 ≤ value ∧ value ≤ 0x66 then some (value - 0x61 + 10)
  else none

/-- The bytes of a text of even length. -/
def decodeLowerHex : Bytes → Option Bytes
  | [] => some []
  | [_] => none
  | high :: low :: rest => do
    let high ← decodeLowerHexNibble high
    let low ← decodeLowerHexNibble low
    let bytes ← decodeLowerHex rest
    return (high <<< 4 + low) :: bytes

def decodeHexNibble (value : UInt8) : Option UInt8 :=
  if 0x30 ≤ value ∧ value ≤ 0x39 then some (value - 0x30)
  else if 0x61 ≤ value ∧ value ≤ 0x66 then some (value - 0x61 + 10)
  else if 0x41 ≤ value ∧ value ≤ 0x46 then some (value - 0x41 + 10)
  else none

/-- Hexadecimal text in either case. -/
def decodeHex : Bytes → Option Bytes
  | [] => some []
  | [_] => none
  | high :: low :: rest => do
    let high ← decodeHexNibble high
    let low ← decodeHexNibble low
    let bytes ← decodeHex rest
    return (high <<< 4 + low) :: bytes

def hexDigit (value : UInt8) : UInt8 := if value < 10 then 0x30 + value else 0x61 + (value - 10)

def encodeLowerHex : Bytes → Bytes
  | [] => []
  | value :: rest => hexDigit (value >>> 4) :: hexDigit (value &&& 0x0f) :: encodeLowerHex rest

theorem hexDigits_byte (value : UInt8) :
    decodeLowerHexNibble (hexDigit (value >>> 4)) = some (value >>> 4) ∧
      decodeLowerHexNibble (hexDigit (value &&& 0x0f)) = some (value &&& 0x0f) ∧
      (value >>> 4) <<< 4 + (value &&& 0x0f) = value := by
  have hall : ∀ n : Fin 256,
      decodeLowerHexNibble (hexDigit (UInt8.ofFin n >>> 4)) = some (UInt8.ofFin n >>> 4) ∧
        decodeLowerHexNibble (hexDigit (UInt8.ofFin n &&& 0x0f)) = some (UInt8.ofFin n &&& 0x0f) ∧
        (UInt8.ofFin n >>> 4) <<< 4 + (UInt8.ofFin n &&& 0x0f) = UInt8.ofFin n := by
    decide
  exact hall value.toFin

theorem decodeLowerHex_encodeLowerHex (bytes : Bytes) :
    decodeLowerHex (encodeLowerHex bytes) = some bytes := by
  induction bytes with
  | nil => rfl
  | cons value bytes ih =>
    obtain ⟨hhigh, hlow, hvalue⟩ := hexDigits_byte value
    rw [encodeLowerHex, decodeLowerHex, hhigh, hlow, ih]
    exact congrArg (fun first => some (first :: bytes)) hvalue

theorem encodeLowerHex_length (bytes : Bytes) : (encodeLowerHex bytes).length = 2 * bytes.length := by
  induction bytes with
  | nil => rfl
  | cons value bytes ih => simp only [encodeLowerHex, List.length_cons, ih]; omega

theorem encodeLowerHex_take (bytes : Bytes) (count : Nat) :
    (encodeLowerHex bytes).take (2 * count) = encodeLowerHex (bytes.take count) := by
  induction bytes generalizing count with
  | nil => simp [encodeLowerHex]
  | cons value bytes ih =>
    cases count with
    | zero => rfl
    | succ count => simp only [encodeLowerHex, Nat.mul_succ, List.take_succ_cons, ih]

theorem encodeLowerHex_drop (bytes : Bytes) (count : Nat) :
    (encodeLowerHex bytes).drop (2 * count) = encodeLowerHex (bytes.drop count) := by
  induction bytes generalizing count with
  | nil => simp [encodeLowerHex]
  | cons value bytes ih =>
    cases count with
    | zero => rfl
    | succ count => simp only [encodeLowerHex, Nat.mul_succ, List.drop_succ_cons, ih]

theorem encodeLowerHex_inj {bytes bytes' : Bytes} (h : encodeLowerHex bytes = encodeLowerHex bytes') :
    bytes = bytes' := by
  have hread := congrArg decodeLowerHex h
  rwa [decodeLowerHex_encodeLowerHex, decodeLowerHex_encodeLowerHex, Option.some.injEq] at hread

theorem decodeLowerHexNibble_ok {digit value : UInt8} (h : decodeLowerHexNibble digit = some value) :
    value < 16 ∧ hexDigit value = digit := by
  have hall : ∀ n : Fin 256, (decodeLowerHexNibble (UInt8.ofFin n)).all fun value =>
      decide (value < 16) && hexDigit value == UInt8.ofFin n := by
    decide
  have hdigit := hall digit.toFin
  change (decodeLowerHexNibble digit).all _ = true at hdigit
  rw [h] at hdigit
  simpa using hdigit

/-- The nibbles of a byte that two nibbles make. -/
theorem nibbles_byte {high low : UInt8} (hhigh : high < 16) (hlow : low < 16) :
    (high <<< 4 + low) >>> 4 = high ∧ (high <<< 4 + low) &&& 0x0f = low := by
  have hall : ∀ high low : Fin 16,
      (UInt8.ofNat high.val <<< 4 + UInt8.ofNat low.val) >>> 4 = UInt8.ofNat high.val ∧
        (UInt8.ofNat high.val <<< 4 + UInt8.ofNat low.val) &&& 0x0f = UInt8.ofNat low.val := by
    decide
  simpa using hall ⟨high.toNat, hhigh⟩ ⟨low.toNat, hlow⟩

/-- Lower-case text is the encoding of its bytes. -/
theorem decodeLowerHex_canonical {text bytes : Bytes} (h : decodeLowerHex text = some bytes) :
    text = encodeLowerHex bytes := by
  induction text using decodeLowerHex.induct generalizing bytes with
  | case1 => cases h; rfl
  | case2 => cases h
  | case3 high low rest ih =>
    rw [decodeLowerHex] at h
    simp only [Option.bind_eq_bind, Option.bind_eq_some_iff] at h
    obtain ⟨highValue, hhigh, lowValue, hlow, tail, htail, heq⟩ := h
    cases heq
    obtain ⟨hhighLt, hhighDigit⟩ := decodeLowerHexNibble_ok hhigh
    obtain ⟨hlowLt, hlowDigit⟩ := decodeLowerHexNibble_ok hlow
    obtain ⟨htop, hbottom⟩ := nibbles_byte hhighLt hlowLt
    rw [encodeLowerHex, htop, hbottom, hhighDigit, hlowDigit, ← ih htail]

/-- The digits `0`..`9` and `a`..`f` are those with a value. -/
theorem decodeLowerHexNibble_isSome (digit : UInt8) :
    (decodeLowerHexNibble digit).isSome = true ↔
      (0x30 ≤ digit ∧ digit ≤ 0x39) ∨ (0x61 ≤ digit ∧ digit ≤ 0x66) := by
  rw [decodeLowerHexNibble]
  split
  case isTrue hdecimal => simp [hdecimal]
  case isFalse hdecimal =>
    split
    case isTrue hletter => simp [hletter]
    case isFalse hletter => simp [hdecimal, hletter]

/-- A text of an even number of such digits is the encoding of some bytes. -/
theorem lowerHex_iff (text : Bytes) :
    (text.length % 2 = 0 ∧ ∀ digit ∈ text, (decodeLowerHexNibble digit).isSome = true) ↔
      ∃ bytes, text = encodeLowerHex bytes := by
  constructor
  · intro h
    obtain ⟨heven, hdigits⟩ := h
    induction text using decodeLowerHex.induct with
    | case1 => exact ⟨[], rfl⟩
    | case2 => cases heven
    | case3 high low rest ih =>
      rw [List.forall_mem_cons, List.forall_mem_cons] at hdigits
      obtain ⟨hhigh, hlow, hrest⟩ := hdigits
      have hlength : rest.length % 2 = 0 := by
        rw [List.length_cons, List.length_cons] at heven
        omega
      obtain ⟨bytes, hbytes⟩ := ih hlength hrest
      obtain ⟨highValue, hhigh⟩ := Option.isSome_iff_exists.mp hhigh
      obtain ⟨lowValue, hlow⟩ := Option.isSome_iff_exists.mp hlow
      refine ⟨(highValue <<< 4 + lowValue) :: bytes, decodeLowerHex_canonical ?_⟩
      rw [decodeLowerHex, hhigh, hlow, hbytes, decodeLowerHex_encodeLowerHex]
      rfl
  · intro h
    obtain ⟨bytes, rfl⟩ := h
    induction bytes with
    | nil => exact ⟨rfl, by simp [encodeLowerHex]⟩
    | cons value bytes ih =>
      obtain ⟨hhigh, hlow, -⟩ := hexDigits_byte value
      rw [encodeLowerHex, List.forall_mem_cons, List.forall_mem_cons, hhigh, hlow, List.length_cons,
        List.length_cons, Nat.add_assoc, Nat.add_mod_right]
      exact ⟨ih.1, rfl, rfl, ih.2⟩

/-! ## The order of texts -/

theorem hexDigit_lt {high low : UInt8} (hhigh : high < 16) (hlow : low < high) : hexDigit low < hexDigit high := by
  have hall : ∀ high low : Fin 16, low < high → hexDigit (UInt8.ofNat low.val) < hexDigit (UInt8.ofNat high.val) := by
    decide
  simpa using hall ⟨high.toNat, hhigh⟩ ⟨low.toNat, lt_trans hlow hhigh⟩ hlow

theorem nibbles_lt {value value' : UInt8} (h : value < value') :
    value >>> 4 < value' >>> 4 ∨ value >>> 4 = value' >>> 4 ∧ value &&& 0x0f < value' &&& 0x0f := by
  have hhigh : ∀ byte : UInt8, (byte >>> 4).toNat = byte.toNat / 16 := by
    intro byte
    rw [UInt8.toNat_shiftRight, Nat.shiftRight_eq_div_pow]
    rfl
  have hlow : ∀ byte : UInt8, (byte &&& 0x0f).toNat = byte.toNat % 16 := by
    intro byte
    rw [UInt8.toNat_and]
    exact Nat.and_two_pow_sub_one_eq_mod byte.toNat 4
  rw [UInt8.lt_iff_toNat_lt] at h
  rw [UInt8.lt_iff_toNat_lt, UInt8.lt_iff_toNat_lt, ← UInt8.toNat_inj, hhigh, hhigh, hlow, hlow]
  omega

theorem shiftRight_lt (value : UInt8) : value >>> 4 < 16 := by
  rw [UInt8.lt_iff_toNat_lt, UInt8.toNat_shiftRight, Nat.shiftRight_eq_div_pow]
  have := value.toNat_lt
  change value.toNat / 16 < 16
  omega

theorem and_lt (value : UInt8) : value &&& 0x0f < 16 := by
  rw [UInt8.lt_iff_toNat_lt, UInt8.toNat_and]
  exact Nat.lt_succ_of_le Nat.and_le_right

/-- Lower-case texts are in the order of their bytes. -/
theorem encodeLowerHex_lt {bytes bytes' : Bytes} (h : bytes < bytes') : encodeLowerHex bytes < encodeLowerHex bytes' := by
  induction bytes generalizing bytes' with
  | nil =>
    cases bytes' with
    | nil => exact absurd h (List.lt_irrefl [])
    | cons value bytes' => exact List.nil_lt_cons _ _
  | cons value bytes ih =>
    cases bytes' with
    | nil => exact absurd h (List.not_lt_nil _)
    | cons value' bytes' =>
      rw [encodeLowerHex, encodeLowerHex, List.cons_lt_cons_iff, List.cons_lt_cons_iff]
      obtain hlt | ⟨rfl, hlt⟩ := List.cons_lt_cons_iff.mp h
      · obtain hhigh | ⟨hhigh, hlow⟩ := nibbles_lt hlt
        · exact Or.inl (hexDigit_lt (shiftRight_lt value') hhigh)
        · exact Or.inr ⟨congrArg hexDigit hhigh, Or.inl (hexDigit_lt (and_lt value') hlow)⟩
      · exact Or.inr ⟨rfl, Or.inr ⟨rfl, ih hlt⟩⟩

/-- The reader of either case reads the lower-case form. -/
theorem decodeHex_of_lower {text bytes : Bytes} (h : decodeLowerHex text = some bytes) :
    decodeHex text = some bytes := by
  have hnibble {digit value : UInt8} (hdigit : decodeLowerHexNibble digit = some value) :
      decodeHexNibble digit = some value := by
    rw [decodeLowerHexNibble] at hdigit
    rw [decodeHexNibble]
    split at hdigit
    · rwa [if_pos ‹_›]
    · split at hdigit
      · rwa [if_neg ‹_›, if_pos ‹_›]
      · cases hdigit
  induction text using decodeLowerHex.induct generalizing bytes with
  | case1 => exact h
  | case2 => cases h
  | case3 high low rest ih =>
    rw [decodeLowerHex] at h
    simp only [Option.bind_eq_bind, Option.bind_eq_some_iff] at h
    obtain ⟨top, htop, bottom, hbottom, tail, htail, heq⟩ := h
    rw [decodeHex, hnibble htop, hnibble hbottom, ih htail]
    exact heq

/-- Digits and the letters up to f. -/
theorem mem_encodeLowerHex {bytes : Bytes} {digit : UInt8} (h : digit ∈ encodeLowerHex bytes) :
    (0x30 ≤ digit ∧ digit ≤ 0x39) ∨ (0x61 ≤ digit ∧ digit ≤ 0x66) := by
  have hdigit : ∀ n : Fin 256, n.val < 16 →
      (0x30 ≤ hexDigit (UInt8.ofFin n) ∧ hexDigit (UInt8.ofFin n) ≤ 0x39) ∨
        (0x61 ≤ hexDigit (UInt8.ofFin n) ∧ hexDigit (UInt8.ofFin n) ≤ 0x66) := by
    decide
  induction bytes with
  | nil => cases h
  | cons value bytes ih =>
    rw [encodeLowerHex, List.mem_cons, List.mem_cons] at h
    obtain rfl | rfl | h := h
    · exact hdigit (value >>> 4).toFin (UInt8.lt_iff_toNat_lt.mp (shiftRight_lt value))
    · exact hdigit (value &&& 0x0f).toFin (UInt8.lt_iff_toNat_lt.mp (and_lt value))
    · exact ih h

end KaspaPortal.Primitives
