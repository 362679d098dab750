import KaspaPortal.Lib.Radix

/-!
# Secret scalars

`src/wallet/derivation/bip32/scalar.rs`: the comparison with the order of the group and the
reduced addition, byte by byte from the last one.
-/
namespace KaspaPortal.Wallet.Bip32
open Lib

/-- n = FFFFFFFFFFFFFFFFFFFFFFFFFFFFFFFEBAAEDCE6AF48A03BBFD25E8CD0364141 -/
def SECP256K1_ORDER : FixedBytes 32 :=
  ⟨[0xFF, 0xFF, 0xFF, 0xFF, 0xFF, 0xFF, 0xFF, 0xFF, 0xFF, 0xFF, 0xFF, 0xFF, 0xFF, 0xFF, 0xFF, 0xFE,
    0xBA, 0xAE, 0xDC, 0xE6, 0xAF, 0x48, 0xA0, 0x3B, 0xBF, 0xD2, 0x5E, 0x8C, 0xD0, 0x36, 0x41, 0x41], rfl⟩

def isZero (value : FixedBytes 32) : Bool :=
  value.val.foldl (fun accumulator byte => accumulator ||| byte) 0 == 0

/-- The loop of `subtract`, with what the bytes to the right have left: the output so far
and the borrow. -/
def subtractBytes : Bytes → Bytes → Bytes × UInt16
  | l :: left, r :: right =>
    let (output, borrow) := subtractBytes left right
    let minuend := l.toUInt16
    let subtrahend := r.toUInt16 + borrow
    let difference := minuend - subtrahend
    (difference.toUInt8 :: output, (difference >>> 15) &&& 1)
  | _, _ => ([], 0)

/-- The first loop of `scalar_add_mod_n`: the sum and the carry. -/
def addBytes : Bytes → Bytes → Bytes × UInt16
  | l :: left, r :: right =>
    let (sum, carry) := addBytes left right
    let word := l.toUInt16 + r.toUInt16 + carry
    (word.toUInt8 :: sum, word >>> 8)
  | _, _ => ([], 0)

theorem length_subtractBytes {left right : Bytes} (h : left.length = right.length) :
    (subtractBytes left right).1.length = left.length := by
  induction left generalizing right with
  | nil => rfl
  | cons l left ih =>
    cases right with
    | nil => cases h
    | cons r right => simp [subtractBytes, ih (Nat.succ.inj h)]

theorem length_addBytes {left right : Bytes} (h : left.length = right.length) :
    (addBytes left right).1.length = left.length := by
  induction left generalizing right with
  | nil => rfl
  | cons l left ih =>
    cases right with
    | nil => cases h
    | cons r right => simp [addBytes, ih (Nat.succ.inj h)]

/-- Fixed-width subtraction: `(left - right mod 2^256, borrow)`. -/
def subtract (left right : FixedBytes 32) : FixedBytes 32 × UInt16 :=
  (⟨(subtractBytes left.val right.val).1, by
      rw [length_subtractBytes (left.property.trans right.property.symm), left.property]⟩,
    (subtractBytes left.val right.val).2)

def isLessThanOrder (value : FixedBytes 32) : Bool :=
  let (_, borrow) := subtract value SECP256K1_ORDER
  borrow == 1

/-- One byte of `reduced` or of `sum`, by a mask of ones or of zeros. -/
def select (mask reduced sum : UInt8) : UInt8 := (reduced &&& mask) + (sum &&& ~~~mask)

def scalarAddModN (left right : FixedBytes 32) : FixedBytes 32 :=
  let sum : FixedBytes 32 := ⟨(addBytes left.val right.val).1, by
    rw [length_addBytes (left.property.trans right.property.symm), left.property]⟩
  let carry := (addBytes left.val right.val).2
  let reduced := subtract sum SECP256K1_ORDER
  -- Reduce if the addition overflowed 2^256 or if sum >= n.
  let shouldReduce := carry != 0 || reduced.2 == 0
  let mask : UInt8 := 0 - (if shouldReduce then 1 else 0)
  ⟨List.zipWith (select mask) reduced.1.val sum.val, by
    rw [List.length_zipWith, reduced.1.property, sum.property, Nat.min_self]⟩

/-! ## The numbers behind the bytes -/

/-- The order as a number. -/
def ORDER : Nat := 0xFFFFFFFFFFFFFFFFFFFFFFFFFFFFFFFEBAAEDCE6AF48A03BBFD25E8CD0364141

theorem number_order : number 8 SECP256K1_ORDER.val = ORDER := by decide

theorem order_lt : ORDER < 2 ^ 256 := by decide

instance neZero_order : NeZero ORDER := ⟨by decide⟩

theorem number_byte_cons (byte : UInt8) (bytes : Bytes) :
    number 8 (byte :: bytes) = byte.toNat * 2 ^ (8 * bytes.length) + number 8 bytes := number_cons 8 byte bytes

theorem pow_bytes_succ (length : Nat) : 2 ^ (8 * (length + 1)) = 2 ^ (8 * length) * 2 ^ 8 := by
  rw [← Nat.pow_add]
  rfl

theorem number_lt_word (value : FixedBytes 32) : number 8 value.val < 2 ^ 256 := by
  have h := number_lt (digits_byte value.val)
  rwa [value.property] at h

/-- One byte of the subtraction, and the borrow it passes on. -/
theorem subtract_byte (l r : UInt8) {borrow : UInt16} (hborrow : borrow.toNat ≤ 1) :
    ((l.toUInt16 - (r.toUInt16 + borrow)) >>> 15 &&& 1).toNat ≤ 1 ∧
      (l.toUInt16 - (r.toUInt16 + borrow)).toUInt8.toNat + r.toNat + borrow.toNat =
        l.toNat + 256 * ((l.toUInt16 - (r.toUInt16 + borrow)) >>> 15 &&& 1).toNat := by
  have hl := l.toNat_lt
  have hr := r.toNat_lt
  have hword : (l.toUInt16 - (r.toUInt16 + borrow)).toNat =
      (2 ^ 16 - (r.toNat + borrow.toNat) + l.toNat) % 2 ^ 16 := by
    rw [UInt16.toNat_sub, UInt16.toNat_add, UInt8.toNat_toUInt16, UInt8.toNat_toUInt16,
      Nat.mod_eq_of_lt (by omega : r.toNat + borrow.toNat < 2 ^ 16)]
  have htop : ((l.toUInt16 - (r.toUInt16 + borrow)) >>> 15 &&& 1).toNat =
      (l.toUInt16 - (r.toUInt16 + borrow)).toNat / 2 ^ 15 % 2 := by
    rw [UInt16.toNat_and, UInt16.toNat_shiftRight]
    exact Nat.and_one_is_mod _ |>.trans (by rw [Nat.shiftRight_eq_div_pow]; rfl)
  rw [htop, UInt16.toNat_toUInt8, hword]
  omega

/-- One byte of the sum, and the carry it passes on. -/
theorem add_byte (l r : UInt8) {carry : UInt16} (hcarry : carry.toNat ≤ 1) :
    ((l.toUInt16 + r.toUInt16 + carry) >>> 8).toNat ≤ 1 ∧
      (l.toUInt16 + r.toUInt16 + carry).toUInt8.toNat + 256 * ((l.toUInt16 + r.toUInt16 + carry) >>> 8).toNat =
        l.toNat + r.toNat + carry.toNat := by
  have hl := l.toNat_lt
  have hr := r.toNat_lt
  have hword : (l.toUInt16 + r.toUInt16 + carry).toNat = l.toNat + r.toNat + carry.toNat := by
    rw [UInt16.toNat_add, UInt16.toNat_add, UInt8.toNat_toUInt16, UInt8.toNat_toUInt16]
    omega
  have htop : ((l.toUInt16 + r.toUInt16 + carry) >>> 8).toNat =
      (l.toUInt16 + r.toUInt16 + carry).toNat / 2 ^ 8 := by
    rw [UInt16.toNat_shiftRight, Nat.shiftRight_eq_div_pow]
    rfl
  rw [htop, UInt16.toNat_toUInt8, hword]
  omega

/-- The difference of two numbers, with a borrow of the next power where it is negative. -/
theorem subtractBytes_number {left right : Bytes} (h : left.length = right.length) :
    (subtractBytes left right).2.toNat ≤ 1 ∧
      number 8 (subtractBytes left right).1 + number 8 right =
        number 8 left + (subtractBytes left right).2.toNat * 2 ^ (8 * left.length) := by
  induction left generalizing right with
  | nil =>
    cases right with
    | nil => exact ⟨by decide, rfl⟩
    | cons r right => cases h
  | cons l left ih =>
    cases right with
    | nil => cases h
    | cons r right =>
      have hlength := Nat.succ.inj h
      obtain ⟨hborrow, hrest⟩ := ih hlength
      obtain ⟨hnext, hbyte⟩ := subtract_byte l r hborrow
      have hpower := pow_bytes_succ left.length
      refine ⟨hnext, ?_⟩
      simp only [subtractBytes, number_byte_cons, length_subtractBytes hlength, ← hlength, List.length_cons, hpower]
      generalize 2 ^ (8 * left.length) = power at hrest ⊢
      generalize (l.toUInt16 - (r.toUInt16 + (subtractBytes left right).2)).toUInt8.toNat = byte at hbyte ⊢
      generalize ((l.toUInt16 - (r.toUInt16 + (subtractBytes left right).2)) >>> 15 &&& 1).toNat = next
        at hbyte ⊢
      calc
        byte * power + number 8 (subtractBytes left right).1 + (r.toNat * power + number 8 right) =
            (byte + r.toNat) * power + (number 8 (subtractBytes left right).1 + number 8 right) := by ring
        _ = (byte + r.toNat + (subtractBytes left right).2.toNat) * power + number 8 left := by
            rw [hrest]
            ring
        _ = l.toNat * power + number 8 left + next * (power * 2 ^ 8) := by
            rw [hbyte]
            ring

/-- The sum of two numbers, with a carry of the next power. -/
theorem addBytes_number {left right : Bytes} (h : left.length = right.length) :
    (addBytes left right).2.toNat ≤ 1 ∧
      number 8 (addBytes left right).1 + (addBytes left right).2.toNat * 2 ^ (8 * left.length) =
        number 8 left + number 8 right := by
  induction left generalizing right with
  | nil =>
    cases right with
    | nil => exact ⟨by decide, rfl⟩
    | cons r right => cases h
  | cons l left ih =>
    cases right with
    | nil => cases h
    | cons r right =>
      have hlength := Nat.succ.inj h
      obtain ⟨hcarry, hrest⟩ := ih hlength
      obtain ⟨hnext, hbyte⟩ := add_byte l r hcarry
      have hpower := pow_bytes_succ left.length
      refine ⟨hnext, ?_⟩
      simp only [addBytes, number_byte_cons, length_addBytes hlength, ← hlength, List.length_cons, hpower]
      generalize 2 ^ (8 * left.length) = power at hrest ⊢
      generalize (l.toUInt16 + r.toUInt16 + (addBytes left right).2).toUInt8.toNat = byte at hbyte ⊢
      generalize ((l.toUInt16 + r.toUInt16 + (addBytes left right).2) >>> 8).toNat = next at hbyte ⊢
      calc
        byte * power + number 8 (addBytes left right).1 + next * (power * 2 ^ 8) =
            (byte + 256 * next) * power + number 8 (addBytes left right).1 := by ring
        _ = (l.toNat + r.toNat) * power +
              (number 8 (addBytes left right).1 + (addBytes left right).2.toNat * power) := by
            rw [hbyte]
            ring
        _ = l.toNat * power + number 8 left + (r.toNat * power + number 8 right) := by
            rw [hrest]
            ring

theorem subtract_number (left right : FixedBytes 32) :
    (subtract left right).2.toNat ≤ 1 ∧
      number 8 (subtract left right).1.val + number 8 right.val =
        number 8 left.val + (subtract left right).2.toNat * 2 ^ 256 := by
  have h := subtractBytes_number (left.property.trans right.property.symm)
  rwa [left.property] at h

theorem select_ones (reduced sum : UInt8) : select 255 reduced sum = reduced := by
  have hall : reduced &&& 255 = reduced := UInt8.and_neg_one
  have hnone : sum &&& ~~~255 = 0 := UInt8.and_zero
  rw [select, hall, hnone, UInt8.add_zero]

theorem select_zeros (reduced sum : UInt8) : select 0 reduced sum = sum := by
  have hall : sum &&& ~~~0 = sum := UInt8.and_neg_one
  rw [select, hall, UInt8.and_zero, UInt8.zero_add]

theorem zipWith_select_ones {reduced sum : Bytes} (h : reduced.length = sum.length) :
    List.zipWith (select 255) reduced sum = reduced := by
  induction reduced generalizing sum with
  | nil => rfl
  | cons byte reduced ih =>
    cases sum with
    | nil => cases h
    | cons byte' sum => rw [List.zipWith_cons_cons, select_ones, ih (Nat.succ.inj h)]

theorem zipWith_select_zeros {reduced sum : Bytes} (h : reduced.length = sum.length) :
    List.zipWith (select 0) reduced sum = sum := by
  induction reduced generalizing sum with
  | nil => exact (List.length_eq_zero_iff.mp h.symm).symm
  | cons byte reduced ih =>
    cases sum with
    | nil => cases h
    | cons byte' sum => rw [List.zipWith_cons_cons, select_zeros, ih (Nat.succ.inj h)]

/-! ## What the functions compute -/

theorem isLessThanOrder_iff (value : FixedBytes 32) :
    isLessThanOrder value = true ↔ number 8 value.val < ORDER := by
  have hvalue := number_lt_word value
  have horder := order_lt
  have hout := number_lt_word (subtract value SECP256K1_ORDER).1
  obtain ⟨hborrow, hsum⟩ := subtract_number value SECP256K1_ORDER
  rw [number_order] at hsum
  have hword : isLessThanOrder value = true ↔ (subtract value SECP256K1_ORDER).2.toNat = 1 := by
    rw [isLessThanOrder, beq_iff_eq, ← UInt16.toNat_inj]
    rfl
  rw [hword]
  omega

theorem foldl_or_eq_zero (bytes : Bytes) (start : UInt8) :
    bytes.foldl (fun accumulator byte => accumulator ||| byte) start = 0 ↔
      start = 0 ∧ number 8 bytes = 0 := by
  induction bytes generalizing start with
  | nil => simp
  | cons byte bytes ih =>
    have hpos := Nat.two_pow_pos (8 * bytes.length)
    rw [List.foldl_cons, ih, UInt8.or_eq_zero_iff, number_byte_cons, Nat.add_eq_zero_iff,
      Nat.mul_eq_zero, and_assoc, ← UInt8.toNat_inj (a := byte)]
    simp

theorem isZero_iff (value : FixedBytes 32) : isZero value = true ↔ number 8 value.val = 0 := by
  rw [isZero, beq_iff_eq, foldl_or_eq_zero]
  simp

/-- The mask takes the reduced sum whole or leaves the sum as it is. -/
theorem scalarAddModN_val (left right : FixedBytes 32) {sum : FixedBytes 32}
    (hsum : sum.val = (addBytes left.val right.val).1) :
    (scalarAddModN left right).val =
      if (addBytes left.val right.val).2 ≠ 0 ∨ (subtract sum SECP256K1_ORDER).2 = 0 then
        (subtract sum SECP256K1_ORDER).1.val
      else sum.val := by
  have hlength := (subtract sum SECP256K1_ORDER).1.property.trans sum.property.symm
  obtain ⟨bytes, hbytes⟩ := sum
  subst hsum
  simp only [scalarAddModN]
  split
  · rename_i hreduce
    rw [if_pos (by simpa using hreduce)]
    exact zipWith_select_ones hlength
  · rename_i hkeep
    rw [if_neg (by simpa using hkeep)]
    exact zipWith_select_zeros hlength

/-- The carry, the borrow and the mask together reduce the sum once. -/
theorem scalarAddModN_number {left right : FixedBytes 32} (hleft : number 8 left.val < ORDER)
    (hright : number 8 right.val < ORDER) :
    number 8 (scalarAddModN left right).val = (number 8 left.val + number 8 right.val) % ORDER := by
  have hlength := left.property.trans right.property.symm
  have horder := order_lt
  obtain ⟨hcarry, hsum⟩ := addBytes_number hlength
  obtain ⟨sum, hbytes⟩ : ∃ sum : FixedBytes 32, sum.val = (addBytes left.val right.val).1 :=
    ⟨⟨_, (length_addBytes hlength).trans left.property⟩, rfl⟩
  obtain ⟨hborrow, hreduced⟩ := subtract_number sum SECP256K1_ORDER
  have hlow := number_lt_word (subtract sum SECP256K1_ORDER).1
  rw [number_order] at hreduced
  rw [← hbytes, left.property] at hsum
  rw [scalarAddModN_val left right hbytes]
  simp only [ne_eq, ← UInt16.toNat_inj, UInt16.toNat_zero]
  split
  case isTrue hreduce =>
    have htotal : number 8 left.val + number 8 right.val =
        number 8 (subtract sum SECP256K1_ORDER).1.val + ORDER := by omega
    rw [htotal, Nat.add_mod_right, Nat.mod_eq_of_lt (by omega)]
  case isFalse hkeep =>
    have htotal : number 8 left.val + number 8 right.val = number 8 sum.val := by omega
    rw [htotal, Nat.mod_eq_of_lt (by omega)]

end KaspaPortal.Wallet.Bip32
