import KaspaPortal.Lib.Bytes
import Mathlib.Data.Nat.Digits.Lemmas

/-!
# Numbers in digits

The number that a list of digits of one width writes, most significant first. Digit lists
of one length are determined by their number.
-/
namespace KaspaPortal.Lib

/-- The number that digits of `width` bits write. -/
def number (width : Nat) (digits : Bytes) : Nat :=
  digits.foldl (fun value digit => value * 2 ^ width + digit.toNat) 0

/-- Every digit fits its width. -/
def Digits (width : Nat) (digits : Bytes) : Prop := ∀ digit ∈ digits, digit.toNat < 2 ^ width

@[simp] theorem number_nil (width : Nat) : number width [] = 0 := rfl

theorem number_concat (width : Nat) (digits : Bytes) (digit : UInt8) :
    number width (digits ++ [digit]) = number width digits * 2 ^ width + digit.toNat := by
  rw [number, List.foldl_append]
  rfl

theorem number_append (width : Nat) (digits digits' : Bytes) :
    number width (digits ++ digits') =
      number width digits * 2 ^ (width * digits'.length) + number width digits' := by
  induction digits' using List.reverseRecOn with
  | nil => simp
  | append_singleton digits' digit ih =>
    rw [← List.append_assoc, number_concat, number_concat, ih, List.length_append,
      List.length_singleton, Nat.mul_succ, Nat.pow_add]
    ring

theorem number_cons (width : Nat) (digit : UInt8) (digits : Bytes) :
    number width (digit :: digits) =
      digit.toNat * 2 ^ (width * digits.length) + number width digits := by
  have h := number_append width [digit] digits
  rwa [show number width [digit] = digit.toNat by simp [number]] at h

/-- The lowest digits of a number, the highest of them first, write its low part. -/
theorem number_map_range {width value : Nat} {digit : Nat → UInt8} {n : Nat}
    (h : ∀ k < n, (digit k).toNat = value / 2 ^ (width * k) % 2 ^ width) :
    number width ((List.range n).map fun index => digit (n - 1 - index)) =
      value % 2 ^ (width * n) := by
  induction n with
  | zero => simp [Nat.mod_one]
  | succ n ih =>
    have hrest : (List.range n).map (fun index => digit (n + 1 - 1 - (index + 1))) =
        (List.range n).map fun index => digit (n - 1 - index) := by
      apply List.map_congr_left
      intro index _
      rw [Nat.add_sub_cancel, Nat.sub_sub, Nat.add_comm 1 index]
    rw [List.range_succ_eq_map, List.map_cons, List.map_map, number_cons, List.length_map,
      List.length_range]
    change (digit n).toNat * 2 ^ (width * n) +
      number width ((List.range n).map fun index => digit (n + 1 - 1 - (index + 1))) = _
    rw [hrest, ih fun k hk => h k (Nat.lt_succ_of_lt hk), h n (Nat.lt_succ_self n), Nat.mul_succ,
      Nat.pow_add, Nat.mod_mul, Nat.mul_comm, Nat.add_comm]

theorem Digits.concat {width : Nat} {digits : Bytes} {digit : UInt8} :
    Digits width (digits ++ [digit]) ↔ Digits width digits ∧ digit.toNat < 2 ^ width := by
  simp [Digits, or_imp, forall_and]

theorem digits_byte (bytes : Bytes) : Digits 8 bytes := fun digit _ => digit.toNat_lt

theorem number_lt {width : Nat} {digits : Bytes} (h : Digits width digits) :
    number width digits < 2 ^ (width * digits.length) := by
  induction digits using List.reverseRecOn with
  | nil => simp
  | append_singleton digits digit ih =>
    obtain ⟨hdigits, hdigit⟩ := Digits.concat.mp h
    have hbound := ih hdigits
    rw [number_concat, List.length_append, List.length_singleton, Nat.mul_succ, Nat.pow_add]
    calc
      number width digits * 2 ^ width + digit.toNat < (number width digits + 1) * 2 ^ width := by
        rw [Nat.add_mul, Nat.one_mul]
        omega
      _ ≤ 2 ^ (width * digits.length) * 2 ^ width := Nat.mul_le_mul_right _ hbound

/-- Digits of one length are determined by their number. -/
theorem number_inj {width : Nat} {digits digits' : Bytes} (h : Digits width digits)
    (h' : Digits width digits') (hlength : digits.length = digits'.length)
    (hnumber : number width digits = number width digits') : digits = digits' := by
  induction digits using List.reverseRecOn generalizing digits' with
  | nil => exact (List.length_eq_zero_iff.mp hlength.symm).symm
  | append_singleton digits digit ih =>
    cases digits' using List.reverseRecOn with
    | nil => simp at hlength
    | append_singleton digits' digit' =>
      obtain ⟨hdigits, hdigit⟩ := Digits.concat.mp h
      obtain ⟨hdigits', hdigit'⟩ := Digits.concat.mp h'
      rw [number_concat, number_concat] at hnumber
      have hlast : digit.toNat = digit'.toNat := by
        have hmod := congrArg (· % 2 ^ width) hnumber
        rwa [Nat.mul_comm, Nat.mul_add_mod, Nat.mod_eq_of_lt hdigit, Nat.mul_comm,
          Nat.mul_add_mod, Nat.mod_eq_of_lt hdigit'] at hmod
      have hfront : number width digits = number width digits' := by
        rw [hlast] at hnumber
        exact Nat.eq_of_mul_eq_mul_right (Nat.two_pow_pos width) (Nat.add_right_cancel hnumber)
      rw [List.length_append, List.length_append] at hlength
      rw [ih hdigits hdigits' (Nat.add_right_cancel hlength) hfront, UInt8.toNat.inj hlast]

/-- A digit below the others is added without a carry. -/
theorem mul_two_pow_add_eq_xor {width digit : Nat} (h : digit < 2 ^ width) (value : Nat) :
    value * 2 ^ width + digit = value * 2 ^ width ^^^ digit := by
  have hpos := Nat.two_pow_pos width
  have hdiv : (value * 2 ^ width ^^^ digit) / 2 ^ width = value := by
    rw [Nat.xor_div_two_pow, Nat.mul_div_cancel _ hpos, Nat.div_eq_of_lt h, Nat.xor_zero]
  have hmod : (value * 2 ^ width ^^^ digit) % 2 ^ width = digit := by
    rw [Nat.xor_mod_two_pow, Nat.mul_mod_left, Nat.zero_xor, Nat.mod_eq_of_lt h]
  have hsplit := Nat.div_add_mod (value * 2 ^ width ^^^ digit) (2 ^ width)
  rw [hdiv, hmod, Nat.mul_comm] at hsplit
  exact hsplit

/-!
## Numerals

The digits of a number in any base, most significant first. A number has one numeral without
leading zeros, and every other numeral of it has zeros in front of that one.
-/

variable {base : Nat}

/-- The numeral of a number, which is empty for zero. -/
def numeral (base n : Nat) : List Nat := (Nat.digits base n).reverse

/-- The number that digits write. -/
def numeralValue (base : Nat) (digits : List Nat) : Nat := Nat.ofDigits base digits.reverse

@[simp] theorem numeral_zero : numeral base 0 = [] := by
  rw [numeral, Nat.digits_zero, List.reverse_nil]

@[simp] theorem numeralValue_nil : numeralValue base [] = 0 := rfl

theorem numeralValue_cons (digit : Nat) (digits : List Nat) :
    numeralValue base (digit :: digits) = digit * base ^ digits.length + numeralValue base digits := by
  rw [numeralValue, List.reverse_cons, Nat.ofDigits_append, Nat.ofDigits_singleton,
    List.length_reverse, Nat.add_comm, Nat.mul_comm]
  rfl

@[simp] theorem numeralValue_zero_cons (digits : List Nat) :
    numeralValue base (0 :: digits) = numeralValue base digits := by
  rw [numeralValue_cons, Nat.zero_mul, Nat.zero_add]

theorem numeralValue_numeral (base n : Nat) : numeralValue base (numeral base n) = n := by
  rw [numeralValue, numeral, List.reverse_reverse, Nat.ofDigits_digits]

theorem numeral_eq_nil {n : Nat} (h : numeral base n = []) : n = 0 := by
  rw [← numeralValue_numeral base n, h]
  rfl

theorem numeral_step (hbase : 1 < base) {n : Nat} (hn : n ≠ 0) :
    numeral base n = numeral base (n / base) ++ [n % base] := by
  rw [numeral, Nat.digits_def' hbase (Nat.pos_of_ne_zero hn), List.reverse_cons]
  rfl

theorem numeral_length_le_iff (hbase : 1 < base) {n k : Nat} :
    (numeral base n).length ≤ k ↔ n < base ^ k := by
  rw [numeral, List.length_reverse, Nat.digits_length_le_iff hbase]

theorem numeral_lt (hbase : 1 < base) {n digit : Nat} (h : digit ∈ numeral base n) :
    digit < base :=
  Nat.digits_lt_base hbase (List.mem_reverse.mp h)

/-- Digits that do not start with a zero are the numeral of what they write. -/
theorem numeral_numeralValue (hbase : 1 < base) {digits : List Nat}
    (hdigits : ∀ digit ∈ digits, digit < base) (hhead : digits.head? ≠ some 0) :
    numeral base (numeralValue base digits) = digits := by
  rw [numeral, numeralValue, Nat.digits_ofDigits base hbase, List.reverse_reverse]
  · exact fun digit hdigit => hdigits digit (List.mem_reverse.mp hdigit)
  · intro hne hzero
    rw [List.getLast_reverse] at hzero
    exact hhead (by rw [List.head?_eq_some_head (List.reverse_ne_nil_iff.mp hne), hzero])

/-- A numeral does not start with a zero. -/
theorem numeral_head (hbase : 1 < base) (n : Nat) : (numeral base n).head? ≠ some 0 := by
  intro hhead
  by_cases hn : n = 0
  · rw [hn, numeral_zero] at hhead
    cases hhead
  · have hlast := Nat.getLast_digit_ne_zero base hn
    rw [numeral, List.head?_reverse, List.getLast?_eq_getLast_of_ne_nil
      (Nat.digits_ne_nil_iff_ne_zero.mpr hn)] at hhead
    exact hlast (Option.some.inj hhead)

/-- Digits are zeros and the numeral of what they write. -/
theorem eq_zeros_append_numeral (hbase : 1 < base) {digits : List Nat}
    (hdigits : ∀ digit ∈ digits, digit < base) :
    digits = List.replicate (digits.takeWhile (· = 0)).length 0 ++
      numeral base (numeralValue base digits) := by
  induction digits with
  | nil => simp
  | cons digit digits ih =>
    by_cases hzero : digit = 0
    · have hrest := ih fun d hd => hdigits d (List.mem_cons_of_mem digit hd)
      rw [hzero, numeralValue_zero_cons, List.takeWhile_cons_of_pos (by simp), List.length_cons,
        List.replicate_succ, List.cons_append, ← hrest]
    · rw [List.takeWhile_cons_of_neg (by simpa using hzero), List.length_nil, List.replicate_zero,
        List.nil_append, numeral_numeralValue hbase hdigits]
      simpa using hzero

end KaspaPortal.Lib
