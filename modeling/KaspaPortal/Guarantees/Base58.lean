import KaspaPortal.Wallet.Key.Base58

/-!
# Base58 text stands for one byte string

Encoding divides by 58 until nothing is left and decoding multiplies by 58 and adds. Both keep the
number that the bytes write; the leading zeros are counted beside it.

The checksum of the Base58Check form is a hash and a parameter; the bijection is about the digits
below it.
-/
namespace KaspaPortal.Wallet.Key
open Lib

/-- The number that bytes write. -/
def byteValue (bytes : Bytes) : Nat := numeralValue 256 (bytes.map UInt8.toNat)

/-- The bytes of a number, without leading zeros. -/
def bytesOf (n : Nat) : Bytes := (numeral 256 n).map UInt8.ofNat

/-- The character of a digit. -/
def base58Char (digit : Nat) : UInt8 := BASE58_ALPHABET.getD digit 0

/-! ## Bytes and their number -/

theorem byteValue_cons (byte : UInt8) (bytes : Bytes) :
    byteValue (byte :: bytes) = byte.toNat * 256 ^ bytes.length + byteValue bytes := by
  rw [byteValue, List.map_cons, numeralValue_cons, List.length_map]
  rfl

theorem byteValue_lt (bytes : Bytes) : byteValue bytes < 256 ^ bytes.length := by
  induction bytes with
  | nil => decide
  | cons byte bytes ih =>
    have hbyte := byte.toNat_lt
    rw [byteValue_cons, List.length_cons, Nat.pow_succ]
    calc byte.toNat * 256 ^ bytes.length + byteValue bytes
        < (byte.toNat + 1) * 256 ^ bytes.length := by rw [Nat.succ_mul]; omega
      _ ≤ 256 * 256 ^ bytes.length := Nat.mul_le_mul_right _ hbyte
      _ = 256 ^ bytes.length * 256 := Nat.mul_comm _ _

theorem map_ofNat_toNat (bytes : Bytes) : (bytes.map UInt8.toNat).map UInt8.ofNat = bytes := by
  rw [List.map_map]
  exact (List.map_congr_left fun byte _ => UInt8.ofNat_toNat).trans (List.map_id bytes)

theorem map_toNat_ofNat {digits : List Nat} (h : ∀ digit ∈ digits, digit < 256) :
    (digits.map UInt8.ofNat).map UInt8.toNat = digits := by
  rw [List.map_map]
  refine (List.map_congr_left fun digit hdigit => ?_).trans (List.map_id digits)
  exact UInt8.toNat_ofNat_of_lt' (h digit hdigit)

theorem toNats_lt (bytes : Bytes) : ∀ digit ∈ bytes.map UInt8.toNat, digit < 256 := by
  intro digit hdigit
  obtain ⟨byte, _, rfl⟩ := List.mem_map.mp hdigit
  exact byte.toNat_lt

theorem toNat_bytesOf (n : Nat) : (bytesOf n).map UInt8.toNat = numeral 256 n :=
  map_toNat_ofNat fun _ hdigit => numeral_lt (by decide) hdigit

theorem byteValue_bytesOf (n : Nat) : byteValue (bytesOf n) = n := by
  rw [byteValue, toNat_bytesOf, numeralValue_numeral]

theorem bytesOf_length_le_iff {n k : Nat} : (bytesOf n).length ≤ k ↔ n < 256 ^ k := by
  rw [bytesOf, List.length_map, numeral_length_le_iff (by decide)]

/-- Bytes that do not start with a zero are those of their number. -/
theorem bytesOf_byteValue {bytes : Bytes} (h : bytes.head? ≠ some 0) :
    bytesOf (byteValue bytes) = bytes := by
  rw [bytesOf, byteValue, numeral_numeralValue (by decide) (toNats_lt bytes), map_ofNat_toNat]
  rw [List.head?_map]
  intro hzero
  obtain ⟨byte, hbyte, hnat⟩ := Option.map_eq_some_iff.mp hzero
  rw [hbyte] at h
  exact h (congrArg some (UInt8.toNat_inj.mp hnat))

/-- Bytes are leading zeros and the bytes of their number. -/
theorem eq_zeros_append_bytesOf (bytes : Bytes) :
    bytes = List.replicate (bytes.takeWhile (· = 0)).length 0 ++ bytesOf (byteValue bytes) := by
  induction bytes with
  | nil => rfl
  | cons byte bytes ih =>
    by_cases hzero : byte = 0
    · have hvalue : byteValue (byte :: bytes) = byteValue bytes := by
        rw [byteValue_cons, hzero, UInt8.toNat_zero, Nat.zero_mul, Nat.zero_add]
      rw [hvalue, hzero, List.takeWhile_cons_of_pos (by decide), List.length_cons,
        List.replicate_succ, List.cons_append, ← ih]
    · rw [List.takeWhile_cons_of_neg (by simpa using hzero), List.length_nil, List.replicate_zero,
        List.nil_append, bytesOf_byteValue]
      simpa using hzero

/-! ## Division -/

theorem divide58_spec {remainder : Nat} (number : Bytes) (h : remainder < 58) :
    (divide58 remainder number).1.length = number.length ∧ (divide58 remainder number).2 < 58 ∧
      remainder * 256 ^ number.length + byteValue number =
        58 * byteValue (divide58 remainder number).1 + (divide58 remainder number).2 := by
  induction number generalizing remainder with
  | nil =>
    refine ⟨rfl, h, ?_⟩
    change remainder * 256 ^ 0 + 0 = 58 * 0 + remainder
    omega
  | cons byte number ih =>
    have hbyte := byte.toNat_lt
    obtain ⟨hlength, hlt, hvalue⟩ := ih (Nat.mod_lt (remainder * 256 + byte.toNat) (by decide))
    have hquotient : (UInt8.ofNat ((remainder * 256 + byte.toNat) / 58)).toNat =
        (remainder * 256 + byte.toNat) / 58 :=
      UInt8.toNat_ofNat_of_lt' (Nat.div_lt_of_lt_mul (show _ < 58 * 256 by omega))
    have hsplit := Nat.div_add_mod (remainder * 256 + byte.toNat) 58
    rw [divide58]
    refine ⟨by rw [List.length_cons, List.length_cons, hlength], hlt, ?_⟩
    rw [byteValue_cons, byteValue_cons, hquotient, hlength, List.length_cons]
    calc remainder * 256 ^ (number.length + 1) +
          (byte.toNat * 256 ^ number.length + byteValue number)
        = (remainder * 256 + byte.toNat) * 256 ^ number.length + byteValue number := by ring
      _ = (58 * ((remainder * 256 + byte.toNat) / 58) + (remainder * 256 + byte.toNat) % 58) *
            256 ^ number.length + byteValue number := by rw [hsplit]
      _ = 58 * ((remainder * 256 + byte.toNat) / 58 * 256 ^ number.length) +
            ((remainder * 256 + byte.toNat) % 58 * 256 ^ number.length + byteValue number) := by ring
      _ = _ := by rw [hvalue]; ring

theorem byteValue_dropWhile (number : Bytes) :
    byteValue (number.dropWhile (· = 0)) = byteValue number := by
  induction number with
  | nil => rfl
  | cons byte number ih =>
    by_cases hzero : byte = 0
    · rw [List.dropWhile_cons_of_pos (by simpa using hzero), ih, byteValue_cons, hzero,
        UInt8.toNat_zero, Nat.zero_mul, Nat.zero_add]
    · rw [List.dropWhile_cons_of_neg (by simpa using hzero)]

theorem byteValue_ne_zero {number : Bytes} (h : number.dropWhile (· = 0) ≠ []) :
    byteValue number ≠ 0 := by
  rw [← byteValue_dropWhile]
  have hhead := List.head?_dropWhile_not (· = (0 : UInt8)) number
  cases hdrop : number.dropWhile (· = 0) with
  | nil => exact absurd hdrop h
  | cons byte rest =>
    rw [hdrop] at hhead
    have hbyte : byte.toNat ≠ 0 := by
      intro hzero
      have hne : ¬ byte = 0 := by simpa using hhead
      exact hne (UInt8.toNat_inj.mp hzero)
    rw [byteValue_cons]
    have hpos : 0 < byte.toNat * 256 ^ rest.length :=
      Nat.mul_pos (Nat.pos_of_ne_zero hbyte) (Nat.pow_pos (by decide))
    omega

theorem getElem_alphabet {digit : Nat} (h : digit < 58) :
    BASE58_ALPHABET[digit]? = some (base58Char digit) := by
  have hlt : digit < BASE58_ALPHABET.length := h
  rw [base58Char, List.getD_eq_getElem?_getD, List.getElem?_eq_getElem hlt]
  rfl

/-- The digits of the number, with room for all of them. -/
theorem base58Digits_eq {room : Nat} {number : Bytes}
    (h : (numeral 58 (byteValue number)).length ≤ room) :
    base58Digits room number = some ((numeral 58 (byteValue number)).map base58Char).reverse := by
  induction room generalizing number with
  | zero =>
    have hzero := List.length_eq_zero_iff.mp (Nat.le_zero.mp h)
    have hnil : number.dropWhile (· = 0) = [] := by
      by_contra hne
      exact byteValue_ne_zero hne (numeral_eq_nil hzero)
    rw [base58Digits, hnil, hzero]
    rfl
  | succ room ih =>
    cases hdrop : number.dropWhile (· = 0) with
    | nil =>
      have hvalue : byteValue number = 0 := by rw [← byteValue_dropWhile, hdrop]; rfl
      rw [base58Digits, hdrop, hvalue, numeral_zero]
      rfl
    | cons byte rest =>
      have hne : byteValue number ≠ 0 := byteValue_ne_zero (by rw [hdrop]; exact List.cons_ne_nil _ _)
      obtain ⟨_, hlt, hvalue⟩ := divide58_spec (byte :: rest) (show 0 < 58 by decide)
      rw [Nat.zero_mul, Nat.zero_add, ← hdrop, byteValue_dropWhile] at hvalue
      have hquotient : byteValue (divide58 0 (number.dropWhile (· = 0))).1 = byteValue number / 58 := by
        rw [hdrop] at hvalue ⊢
        omega
      have hremainder : (divide58 0 (number.dropWhile (· = 0))).2 = byteValue number % 58 := by
        rw [hdrop] at hvalue ⊢
        omega
      have hstep := numeral_step (show 1 < 58 by decide) hne
      rw [hstep, List.length_append, List.length_singleton] at h
      have hrest := @ih (divide58 0 (number.dropWhile (· = 0))).1
        (by rw [hquotient]; exact Nat.le_of_succ_le_succ h)
      rw [hquotient, hdrop] at hrest
      rw [hdrop] at hremainder
      rw [base58Digits, hdrop]
      dsimp only
      rw [hremainder, getElem_alphabet (Nat.mod_lt _ (by decide)), hrest, hstep, List.map_append,
        List.reverse_append]
      rfl

/-- The text of data. -/
def base58Text (data : Bytes) : Bytes :=
  List.replicate (data.takeWhile (· = 0)).length 0x31 ++
    (numeral 58 (byteValue data)).map base58Char

/-- A buffer of 175 digits is long enough for 128 bytes. -/
theorem base58Encode_eq {data : Bytes} (h : data.length ≤ MAX_BASE58_BYTES) (outLen : Nat) :
    base58Encode data outLen = some (if (base58Text data).length ≤ outLen then .ok (base58Text data)
      else .error .bufferTooSmall) := by
  have hdrop : data.drop (data.takeWhile (· = 0)).length = data.dropWhile (· = 0) := by
    calc data.drop (data.takeWhile (· = 0)).length
        = (data.takeWhile (· = 0) ++ data.dropWhile (· = 0)).drop
            (data.takeWhile (· = 0)).length := by rw [List.takeWhile_append_dropWhile]
      _ = data.dropWhile (· = 0) := List.drop_left
  have hroom : (numeral 58 (byteValue data)).length ≤ MAX_BASE58_CHARS := by
    rw [numeral_length_le_iff (by decide)]
    calc byteValue data < 256 ^ data.length := byteValue_lt data
      _ ≤ 256 ^ 128 := Nat.pow_le_pow_right (by decide) h
      _ ≤ 58 ^ 175 := by norm_num
  rw [base58Encode, if_neg (Nat.not_lt.mpr h)]
  dsimp only
  rw [hdrop, base58Digits_eq (by rw [byteValue_dropWhile]; exact hroom), byteValue_dropWhile]
  simp only [Option.bind_eq_bind, Option.bind_some, List.length_reverse, List.reverse_reverse]
  rw [base58Text, List.length_append, List.length_replicate]
  rfl

/-! ## Multiplication -/

theorem multiply58_spec {digit : Nat} (number : Bytes) (h : digit < 58) :
    (multiply58 number digit).2.length = number.length ∧ (multiply58 number digit).1 < 58 ∧
      (multiply58 number digit).1 * 256 ^ number.length + byteValue (multiply58 number digit).2 =
        58 * byteValue number + digit := by
  induction number with
  | nil =>
    refine ⟨rfl, h, ?_⟩
    change digit * 256 ^ 0 + 0 = 58 * 0 + digit
    omega
  | cons byte number ih =>
    have hbyte := byte.toNat_lt
    obtain ⟨hlength, hlt, hvalue⟩ := ih
    have hmultiplied : multiply58 (byte :: number) digit =
        (((multiply58 number digit).1 + byte.toNat * 58) / 256,
          UInt8.ofNat (((multiply58 number digit).1 + byte.toNat * 58) % 256) ::
            (multiply58 number digit).2) := rfl
    have hlow : (UInt8.ofNat (((multiply58 number digit).1 + byte.toNat * 58) % 256)).toNat =
        ((multiply58 number digit).1 + byte.toNat * 58) % 256 :=
      UInt8.toNat_ofNat_of_lt' (Nat.mod_lt _ (by decide))
    have hsplit := Nat.div_add_mod ((multiply58 number digit).1 + byte.toNat * 58) 256
    rw [hmultiplied]
    refine ⟨by rw [List.length_cons, List.length_cons, hlength], ?_, ?_⟩
    · exact Nat.div_lt_of_lt_mul (by omega)
    · rw [byteValue_cons, byteValue_cons, hlow, hlength, List.length_cons]
      generalize hcarry : (multiply58 number digit).1 + byte.toNat * 58 = carry at *
      calc carry / 256 * 256 ^ (number.length + 1) +
            (carry % 256 * 256 ^ number.length + byteValue (multiply58 number digit).2)
          = (256 * (carry / 256) + carry % 256) * 256 ^ number.length +
              byteValue (multiply58 number digit).2 := by ring
        _ = ((multiply58 number digit).1 + byte.toNat * 58) * 256 ^ number.length +
              byteValue (multiply58 number digit).2 := by rw [hsplit, hcarry]
        _ = (multiply58 number digit).1 * 256 ^ number.length +
              byteValue (multiply58 number digit).2 +
                58 * (byte.toNat * 256 ^ number.length) := by ring
        _ = _ := by rw [hvalue]; ring

/-- Bytes as short as their number allows are those of the number. -/
theorem bytesOf_of_length {bytes : Bytes} (h : bytes.length ≤ (bytesOf (byteValue bytes)).length) :
    bytesOf (byteValue bytes) = bytes := by
  have hsplit := eq_zeros_append_bytesOf bytes
  have hlength := congrArg List.length hsplit
  rw [List.length_append, List.length_replicate] at hlength
  have hzeros : (bytes.takeWhile (· = 0)).length = 0 := by omega
  rw [hzeros, List.replicate_zero, List.nil_append] at hsplit
  exact hsplit.symm

theorem bytesOf_length_mono {m n : Nat} (h : m ≤ n) : (bytesOf m).length ≤ (bytesOf n).length :=
  bytesOf_length_le_iff.mpr (Nat.lt_of_le_of_lt h (bytesOf_length_le_iff.mp (Nat.le_refl _)))

/-- A carry of less than one byte goes in front, if there is room. -/
theorem pushCarry_byte {carry : Nat} (number : Bytes) (hzero : carry ≠ 0) (h : carry < 256) :
    pushCarry 4 carry number = if number.length = MAX_BASE58_BYTES then .error .overflow
      else .ok (UInt8.ofNat carry :: number) := by
  rw [pushCarry, if_neg hzero, Nat.div_eq_of_lt h, Nat.mod_eq_of_lt h]
  rfl

/-- One digit more: the number is multiplied by 58, unless it no longer fits. -/
theorem mulAddBase58_eq {n digit : Nat} (hn : n < 256 ^ MAX_BASE58_BYTES) (h : digit < 58) :
    mulAddBase58 (bytesOf n) digit =
      if 58 * n + digit < 256 ^ MAX_BASE58_BYTES then .ok (bytesOf (58 * n + digit))
      else .error .overflow := by
  obtain ⟨hlength, hcarry, hvalue⟩ := multiply58_spec (bytesOf n) h
  rw [byteValue_bytesOf] at hvalue
  have hroom : (bytesOf n).length ≤ MAX_BASE58_BYTES := bytesOf_length_le_iff.mpr hn
  rw [mulAddBase58]
  generalize (multiply58 (bytesOf n) digit).1 = carry at *
  generalize (multiply58 (bytesOf n) digit).2 = number at *
  by_cases hzero : carry = 0
  · rw [hzero, Nat.zero_mul, Nat.zero_add] at hvalue
    have hfits : 58 * n + digit < 256 ^ MAX_BASE58_BYTES := by
      rw [← hvalue]
      refine Nat.lt_of_lt_of_le (byteValue_lt number) (Nat.pow_le_pow_right (by decide) ?_)
      rwa [hlength]
    have hbytes : bytesOf (58 * n + digit) = number := by
      rw [← hvalue]
      apply bytesOf_of_length
      rw [hlength, hvalue]
      exact bytesOf_length_mono (by omega)
    rw [if_pos hfits, hbytes, hzero]
    rfl
  · rw [pushCarry_byte number hzero (by omega)]
    have hbyte : (UInt8.ofNat carry).toNat = carry :=
      UInt8.toNat_ofNat_of_lt' (Nat.lt_trans hcarry (by decide))
    have hbytes : bytesOf (58 * n + digit) = UInt8.ofNat carry :: number := by
      rw [← hvalue, ← hbyte, ← hlength, ← byteValue_cons, hbyte]
      apply bytesOf_byteValue
      intro hhead
      rw [Option.some.inj hhead, UInt8.toNat_zero] at hbyte
      exact hzero hbyte.symm
    have hfits : 58 * n + digit < 256 ^ MAX_BASE58_BYTES ↔ ¬ number.length = MAX_BASE58_BYTES := by
      rw [← bytesOf_length_le_iff, hbytes, List.length_cons]
      omega
    by_cases hfull : number.length = MAX_BASE58_BYTES
    · rw [if_pos hfull, if_neg (by rw [hfits]; exact not_not_intro hfull)]
    · rw [if_neg hfull, if_pos (hfits.mpr hfull), hbytes]

/-! ## Digits and characters -/

theorem base58CharValue_char {digit : Nat} (h : digit < 58) :
    base58CharValue (base58Char digit) = some digit := by
  have hall : ∀ digit : Fin 58, base58CharValue (base58Char digit) = some digit.val := by decide
  exact hall ⟨digit, h⟩

theorem base58Char_of_value {byte : UInt8} {digit : Nat} (h : base58CharValue byte = some digit) :
    digit < 58 ∧ byte = base58Char digit := by
  obtain ⟨hlt, heq, _⟩ := List.findIdx?_eq_some_iff_getElem.mp h
  have hdigit : digit < 58 := hlt
  refine ⟨hdigit, ?_⟩
  have hget := getElem_alphabet hdigit
  rw [List.getElem?_eq_getElem hlt] at hget
  rw [← Option.some.inj hget]
  exact (of_decide_eq_true heq).symm

theorem base58Step_char {number : Bytes} {digit : Nat} (h : digit < 58) :
    base58Step number (base58Char digit) = mulAddBase58 number digit := by
  rw [base58Step, base58CharValue_char h]
  rfl

/-- Reading digits after a number that is already there. -/
theorem foldlM_digits {digits : List Nat} (hdigits : ∀ digit ∈ digits, digit < 58) {n : Nat}
    (hn : n < 256 ^ MAX_BASE58_BYTES) :
    (digits.map base58Char).foldlM base58Step (bytesOf n) =
      if n * 58 ^ digits.length + numeralValue 58 digits < 256 ^ MAX_BASE58_BYTES then
        .ok (bytesOf (n * 58 ^ digits.length + numeralValue 58 digits))
      else .error .overflow := by
  induction digits generalizing n with
  | nil =>
    have hvalue : n * 58 ^ ([] : List Nat).length + numeralValue 58 [] = n := by
      rw [List.length_nil, Nat.pow_zero, Nat.mul_one, numeralValue_nil, Nat.add_zero]
    rw [hvalue, if_pos hn]
    rfl
  | cons digit digits ih =>
    have hdigit := hdigits digit List.mem_cons_self
    have hvalue : n * 58 ^ (digit :: digits).length + numeralValue 58 (digit :: digits) =
        (58 * n + digit) * 58 ^ digits.length + numeralValue 58 digits := by
      rw [numeralValue_cons, List.length_cons]
      ring
    rw [List.map_cons, List.foldlM_cons, base58Step_char hdigit, mulAddBase58_eq hn hdigit, hvalue]
    by_cases hfits : 58 * n + digit < 256 ^ MAX_BASE58_BYTES
    · rw [if_pos hfits]
      exact ih (fun d hd => hdigits d (List.mem_cons_of_mem digit hd)) hfits
    · have hgrows : 58 * n + digit ≤ (58 * n + digit) * 58 ^ digits.length :=
        Nat.le_mul_of_pos_right _ (Nat.pow_pos (by decide))
      rw [if_neg hfits, if_neg (by omega)]
      rfl

theorem exists_digits {text number result : Bytes}
    (h : text.foldlM base58Step number = .ok result) :
    ∃ digits : List Nat, (∀ digit ∈ digits, digit < 58) ∧ text = digits.map base58Char := by
  induction text generalizing number with
  | nil => exact ⟨[], fun _ hdigit => absurd hdigit List.not_mem_nil, rfl⟩
  | cons byte text ih =>
    rw [List.foldlM_cons] at h
    obtain ⟨next, hstep, hrest⟩ := bind_eq_ok.mp h
    obtain ⟨digit, hdigit, _⟩ := bind_eq_ok.mp hstep
    obtain ⟨hlt, hchar⟩ := base58Char_of_value (okOr_eq_ok.mp hdigit)
    obtain ⟨digits, hdigits, htext⟩ := ih hrest
    refine ⟨digit :: digits, ?_, by rw [List.map_cons, ← hchar, ← htext]⟩
    intro d hd
    cases List.mem_cons.mp hd with
    | inl hhead => rw [hhead]; exact hlt
    | inr htail => exact hdigits d htail

/-- Leading ones are leading zero digits. -/
theorem leadingOnes_map {digits : List Nat} (hdigits : ∀ digit ∈ digits, digit < 58) :
    ((digits.map base58Char).takeWhile (· = 0x31)).length =
      (digits.takeWhile (· = 0)).length := by
  induction digits with
  | nil => rfl
  | cons digit digits ih =>
    have hone : (base58Char digit = 0x31) ↔ digit = 0 := by
      have hall : ∀ digit : Fin 58, base58Char digit = 0x31 ↔ digit.val = 0 := by decide
      exact hall ⟨digit, hdigits digit List.mem_cons_self⟩
    rw [List.map_cons]
    by_cases hzero : digit = 0
    · rw [List.takeWhile_cons_of_pos (by simpa using hone.mpr hzero),
        List.takeWhile_cons_of_pos (by simpa using hzero), List.length_cons, List.length_cons,
        ih fun d hd => hdigits d (List.mem_cons_of_mem digit hd)]
    · rw [List.takeWhile_cons_of_neg (by simpa using fun hc => hzero (hone.mp hc)),
        List.takeWhile_cons_of_neg (by simpa using hzero)]
      rfl

/-- What decoding does with a text of digits. -/
theorem base58Decode_digits {digits : List Nat} (hdigits : ∀ digit ∈ digits, digit < 58)
    (hne : digits ≠ []) :
    base58Decode (digits.map base58Char) =
      if (digits.takeWhile (· = 0)).length + (bytesOf (numeralValue 58 digits)).length ≤
          MAX_BASE58_BYTES then
        .ok (List.replicate (digits.takeWhile (· = 0)).length 0 ++
          bytesOf (numeralValue 58 digits))
      else .error .overflow := by
  have hfold := @foldlM_digits digits hdigits 0 (by decide)
  rw [Nat.zero_mul, Nat.zero_add] at hfold
  have hempty : ¬ digits.map base58Char = [] := fun h => hne (List.map_eq_nil_iff.mp h)
  have hstart : ([] : Bytes) = bytesOf 0 := by rw [bytesOf, numeral_zero]; rfl
  rw [base58Decode, if_neg hempty, leadingOnes_map hdigits, hstart, hfold]
  by_cases hfits : numeralValue 58 digits < 256 ^ MAX_BASE58_BYTES
  · rw [if_pos hfits]
    rfl
  · have hlong : ¬ (bytesOf (numeralValue 58 digits)).length ≤ MAX_BASE58_BYTES := by
      rw [bytesOf_length_le_iff]
      exact hfits
    rw [if_neg hfits, if_neg (by omega)]
    rfl

/-! ## Both ways -/

theorem base58Text_eq (data : Bytes) :
    base58Text data = (List.replicate (data.takeWhile (· = 0)).length 0 ++
      numeral 58 (byteValue data)).map base58Char := by
  rw [base58Text, List.map_append, List.map_replicate]
  rfl

theorem numeralValue_zeros (count : Nat) (digits : List Nat) :
    numeralValue 58 (List.replicate count 0 ++ digits) = numeralValue 58 digits := by
  induction count with
  | zero => rfl
  | succ count ih => rw [List.replicate_succ, List.cons_append, numeralValue_zero_cons, ih]

/-- Zeros in front of something that does not start with a zero are counted exactly. -/
theorem takeWhile_zeros {α : Type} [DecidableEq α] {zero : α} (count : Nat) {rest : List α}
    (h : rest.head? ≠ some zero) :
    (List.replicate count zero ++ rest).takeWhile (· = zero) = List.replicate count zero := by
  induction count with
  | zero =>
    cases rest with
    | nil => rfl
    | cons first rest =>
      have hfirst : ¬ first = zero := fun hc => h (congrArg some hc)
      exact List.takeWhile_cons_of_neg (by simpa using hfirst)
  | succ count ih =>
    rw [List.replicate_succ, List.cons_append, List.takeWhile_cons_of_pos (by simp), ih]

/-- The text of data decodes to it. -/
theorem base58Decode_text {data : Bytes} (hne : data ≠ []) (h : data.length ≤ MAX_BASE58_BYTES) :
    base58Decode (base58Text data) = .ok data := by
  have hsplit := eq_zeros_append_bytesOf data
  rw [base58Text_eq]
  generalize hzeros : (data.takeWhile (· = 0)).length = zeros at hsplit ⊢
  generalize hvalue : byteValue data = value at hsplit ⊢
  have hdigits : ∀ digit ∈ List.replicate zeros 0 ++ numeral 58 value, digit < 58 := by
    intro digit hdigit
    cases List.mem_append.mp hdigit with
    | inl hzero => rw [List.eq_of_mem_replicate hzero]; decide
    | inr hnumeral => exact numeral_lt (by decide) hnumeral
  have hsome : List.replicate zeros 0 ++ numeral 58 value ≠ [] := by
    intro hnil
    obtain ⟨hleft, hright⟩ := List.append_eq_nil_iff.mp hnil
    rw [(List.replicate_eq_nil_iff 0).mp hleft, numeral_eq_nil hright, bytesOf, numeral_zero] at hsplit
    exact hne hsplit
  have hlength := congrArg List.length hsplit
  rw [List.length_append, List.length_replicate] at hlength
  rw [base58Decode_digits hdigits hsome, takeWhile_zeros zeros (numeral_head (by decide) value),
    List.length_replicate, numeralValue_zeros, numeralValue_numeral, if_pos (by omega), ← hsplit]

/-- A text that is accepted is the text of what it decodes to. -/
theorem base58Text_of_decode {text data : Bytes} (h : base58Decode text = .ok data) :
    data.length ≤ MAX_BASE58_BYTES ∧ base58Text data = text := by
  have hsome : ¬ text = [] := by
    intro hnil
    rw [hnil] at h
    cases h
  have hread := h
  rw [base58Decode, if_neg hsome] at hread
  obtain ⟨number, hnumber, _⟩ := bind_eq_ok.mp hread
  obtain ⟨digits, hdigits, rfl⟩ := exists_digits hnumber
  rw [base58Decode_digits hdigits fun hnil => hsome (List.map_eq_nil_iff.mpr hnil)] at h
  by_cases hroom : (digits.takeWhile (· = 0)).length +
      (bytesOf (numeralValue 58 digits)).length ≤ MAX_BASE58_BYTES
  · rw [if_pos hroom] at h
    have hdata := Except.ok.inj h
    have hhead : (bytesOf (numeralValue 58 digits)).head? ≠ some 0 := by
      intro hzero
      apply numeral_head (show 1 < 256 by decide) (numeralValue 58 digits)
      rw [← toNat_bytesOf, List.head?_map, hzero]
      rfl
    have hvalue : byteValue data = numeralValue 58 digits := by
      rw [← hdata, ← byteValue_dropWhile, List.dropWhile_append_of_pos
        (fun byte hbyte => by simpa using List.eq_of_mem_replicate hbyte), byteValue_dropWhile,
        byteValue_bytesOf]
    have hzeros : (data.takeWhile (· = 0)).length = (digits.takeWhile (· = 0)).length := by
      rw [← hdata, takeWhile_zeros _ hhead, List.length_replicate]
    refine ⟨?_, ?_⟩
    · rw [← hdata, List.length_append, List.length_replicate]
      exact hroom
    · rw [base58Text_eq, hvalue, hzeros, ← eq_zeros_append_numeral (by decide) hdigits]
  · rw [if_neg hroom] at h
    cases h

/-- The checksum that encoding appends is the one that decoding looks for. -/
theorem base58checkDecode_text (sha256 : Bytes → FixedBytes 32) {payload : Bytes}
    (hne : payload ≠ []) (h : payload.length ≤ 124) :
    base58checkDecode sha256 (base58Text (payload ++ (sha256d sha256 payload).val.take 4)) =
      .ok payload := by
  have hchecksum : ((sha256d sha256 payload).val.take 4).length = 4 := by
    rw [List.length_take, (sha256d sha256 payload).property]
    rfl
  have hlength : (payload ++ (sha256d sha256 payload).val.take 4).length = payload.length + 4 := by
    rw [List.length_append, hchecksum]
  have hraw := base58Decode_text (fun hnil => hne (List.append_eq_nil_iff.mp hnil).1)
    (show (payload ++ (sha256d sha256 payload).val.take 4).length ≤ 128 by omega)
  have hsize : payload.length + 4 - 4 = payload.length := by omega
  rw [base58checkDecode, hraw]
  refine (if_neg (by omega)).trans ?_
  dsimp only
  rw [hlength, hsize, List.take_left, List.drop_left]
  exact if_neg fun hbad => hbad.elim hne fun hdifferent => hdifferent rfl

/-- Every byte string of 1 to 128 bytes has a text, which is written to every output that has room
for it and decodes to the bytes; every text that decodes is the one its value is written as; and a
payload of 1 to 124 bytes comes back through the checksum layer. -/
theorem base58_bijection (sha256 : Bytes → FixedBytes 32) :
    (∀ data : Bytes, data ≠ [] → data.length ≤ 128 →
      ∃ text, base58Decode text = .ok data ∧
        ∀ outLen, base58Encode data outLen =
          some (if text.length ≤ outLen then .ok text else .error .bufferTooSmall)) ∧
    (∀ (text data : Bytes) (outLen : Nat), base58Decode text = .ok data → text.length ≤ outLen →
      base58Encode data outLen = some (.ok text)) ∧
    ∀ payload : Bytes, payload ≠ [] → payload.length ≤ 124 →
      ∃ text, base58checkDecode sha256 text = .ok payload ∧
        ∀ outLen, base58checkEncode sha256 payload outLen =
          some (if text.length ≤ outLen then .ok text else .error .bufferTooSmall) := by
  refine ⟨fun data hne h => ?_, fun text data outLen hdecode hroom => ?_, fun payload hne h => ?_⟩
  · exact ⟨base58Text data, base58Decode_text hne h, base58Encode_eq h⟩
  · obtain ⟨hlength, htext⟩ := base58Text_of_decode hdecode
    rw [base58Encode_eq hlength, htext, if_pos hroom]
  · refine ⟨_, base58checkDecode_text sha256 hne h, fun outLen => ?_⟩
    have hlength : (payload ++ (sha256d sha256 payload).val.take 4).length ≤ 128 := by
      rw [List.length_append, List.length_take]
      omega
    rw [base58checkEncode, if_neg (Nat.not_lt.mpr (show payload.length + 4 ≤ MAX_BASE58_BYTES by rw [MAX_BASE58_BYTES]; omega))]
    exact base58Encode_eq hlength outLen

theorem base58_bijection_sample :
    base58Encode [0, 0, 1, 2] 9 = some (.ok (ascii "115T")) :=
  (base58_bijection fun _ => ⟨List.replicate 32 0, rfl⟩).2.1 (ascii "115T") [0, 0, 1, 2] 9
    (by decide) (by decide)

end KaspaPortal.Wallet.Key
