import KaspaPortal.Primitives.Address

/-!
# Regrouping and checksum of addresses

What the conversion between bit widths keeps is the number that the values write; the
checksum is linear in the exclusive or.

The generator polynomial is the source's table; that it is a good one is not the
subject.
-/
namespace KaspaPortal.Primitives
open Lib

/-! ## Words -/

/-- Shift amounts below the width of a word are themselves. -/
theorem toNat_ofNat_small {n : Nat} (h : n < 32) : (UInt32.ofNat n).toNat % 32 = n := by
  rw [UInt32.toNat_ofNat', Nat.mod_eq_of_lt (show n < 2 ^ 32 by omega), Nat.mod_eq_of_lt h]

theorem maxValue_toNat {toBits : Nat} (h : toBits ≤ 8) :
    ((1 : UInt32) <<< UInt32.ofNat toBits - 1).toNat = 2 ^ toBits - 1 := by
  have hall : ∀ n : Fin 9, ((1 : UInt32) <<< UInt32.ofNat n.val - 1).toNat = 2 ^ n.val - 1 := by
    decide
  exact hall ⟨toBits, by omega⟩

/-- The mask keeps the low bits. -/
theorem and_maxValue {toBits : Nat} (h : toBits ≤ 8) (word : UInt32) :
    (word &&& ((1 <<< UInt32.ofNat toBits) - 1)).toNat = word.toNat % 2 ^ toBits := by
  rw [UInt32.toNat_and, maxValue_toNat h, Nat.and_two_pow_sub_one_eq_mod]

/-- So what is emitted is a digit of the target base. -/
theorem digit_toNat {toBits : Nat} (h : toBits ≤ 8) (word : UInt32) :
    (word &&& ((1 <<< UInt32.ofNat toBits) - 1)).toUInt8.toNat = word.toNat % 2 ^ toBits := by
  have hlt : word.toNat % 2 ^ toBits < 256 :=
    lt_of_lt_of_le (Nat.mod_lt _ (Nat.two_pow_pos _)) (Nat.pow_le_pow_right (by decide) h)
  rw [UInt32.toNat_toUInt8, and_maxValue h, Nat.mod_eq_of_lt hlt]

/-- Shifts are division and multiplication of natural numbers, within a word. -/
theorem shiftRight_toNat {n : Nat} (h : n < 32) (word : UInt32) :
    (word >>> UInt32.ofNat n).toNat = word.toNat / 2 ^ n := by
  rw [UInt32.toNat_shiftRight, toNat_ofNat_small h, Nat.shiftRight_eq_div_pow]

theorem shiftLeft_toNat {n : Nat} (h : n < 32) (word : UInt32) :
    (word <<< UInt32.ofNat n).toNat = word.toNat * 2 ^ n % 2 ^ 32 := by
  rw [UInt32.toNat_shiftLeft, toNat_ofNat_small h, Nat.shiftLeft_eq]

/-! ## Regrouping -/

/-- The output writes the number of the data but for the live bits of the accumulator. -/
structure Regrouped (fromBits toBits : Nat) (data output : Bytes) (accumulator : UInt32)
    (bits : Nat) : Prop where
  digits : Digits toBits output
  total : fromBits * data.length = toBits * output.length + bits
  value : number fromBits data = number toBits output * 2 ^ bits + accumulator.toNat % 2 ^ bits

/-- The inner loop emits one digit at a time and keeps fewer bits than a digit has. -/
theorem drain_regroups {fromBits toBits fuel bits : Nat} {data output : Bytes}
    {accumulator : UInt32} (hpos : 0 < toBits) (hto : toBits ≤ 8) (hbits : bits < 32)
    (hfuel : bits ≤ fuel) (h : Regrouped fromBits toBits data output accumulator bits) :
    Regrouped fromBits toBits data (drain toBits accumulator fuel bits output).2 accumulator
        (drain toBits accumulator fuel bits output).1 ∧
      (drain toBits accumulator fuel bits output).1 < toBits := by
  induction fuel generalizing bits output with
  | zero => exact ⟨h, by rw [drain]; omega⟩
  | succ fuel ih =>
    rw [drain]
    by_cases hle : toBits ≤ bits
    · rw [if_pos hle]
      apply ih (by omega) (by omega)
      have hdigit : ((accumulator >>> UInt32.ofNat (bits - toBits)) &&&
          ((1 <<< UInt32.ofNat toBits) - 1)).toUInt8.toNat =
          accumulator.toNat / 2 ^ (bits - toBits) % 2 ^ toBits := by
        rw [digit_toNat hto, shiftRight_toNat (by omega)]
      refine ⟨?_, ?_, ?_⟩
      · refine Digits.concat.mpr ⟨h.digits, ?_⟩
        rw [hdigit]
        exact Nat.mod_lt _ (Nat.two_pow_pos _)
      · have htotal := h.total
        rw [List.length_append, List.length_singleton, Nat.mul_succ]
        omega
      · have hsplit : 2 ^ bits = 2 ^ (bits - toBits) * 2 ^ toBits := by
          rw [← Nat.pow_add, Nat.sub_add_cancel hle]
        rw [h.value, number_concat, hdigit, hsplit, Nat.mod_mul]
        ring
    · rw [if_neg hle]
      exact ⟨h, Nat.not_le.mp hle⟩

/-- The next value joins the live bits. -/
theorem Regrouped.push {fromBits toBits bits : Nat} {data output : Bytes} {accumulator : UInt32}
    (h : Regrouped fromBits toBits data output accumulator bits) (hbits : bits + fromBits < 32)
    {value : UInt8} (hvalue : value.toNat < 2 ^ fromBits) :
    Regrouped fromBits toBits (data ++ [value]) output
      ((accumulator <<< UInt32.ofNat fromBits) + value.toUInt32) (bits + fromBits) := by
  have hsplit : 2 ^ (bits + fromBits) = 2 ^ fromBits * 2 ^ bits := by rw [Nat.pow_add, Nat.mul_comm]
  have hdvd : 2 ^ (bits + fromBits) ∣ 2 ^ 32 := Nat.pow_dvd_pow 2 (by omega)
  have hlive : ((accumulator <<< UInt32.ofNat fromBits) + value.toUInt32).toNat %
      2 ^ (bits + fromBits) = accumulator.toNat % 2 ^ bits * 2 ^ fromBits + value.toNat := by
    rw [UInt32.toNat_add, shiftLeft_toNat (by omega), UInt8.toNat_toUInt32, Nat.mod_mod_of_dvd _ hdvd,
      Nat.add_mod, Nat.mod_mod_of_dvd _ hdvd, ← Nat.add_mod, hsplit, Nat.mod_mul,
      Nat.mul_comm accumulator.toNat, Nat.mul_add_mod, Nat.mod_eq_of_lt hvalue,
      Nat.mul_add_div (Nat.two_pow_pos fromBits), Nat.div_eq_of_lt hvalue, Nat.add_zero]
    ring
  refine ⟨h.digits, ?_, ?_⟩
  · have htotal := h.total
    rw [List.length_append, List.length_singleton, Nat.mul_succ]
    omega
  · rw [number_concat, h.value, hlive, Nat.pow_add]
    ring

/-- The source's test of an input value is its bound. -/
theorem value_fits {fromBits : Nat} (h : fromBits < 32) (value : UInt8) :
    value.toUInt32 >>> UInt32.ofNat fromBits ≠ 0 ↔ ¬ value.toNat < 2 ^ fromBits := by
  rw [ne_eq, not_iff_not, ← UInt32.toNat_inj, shiftRight_toNat h, UInt8.toNat_toUInt32]
  exact Nat.div_eq_zero_iff_lt (Nat.two_pow_pos _)

/-- By induction on the input: what has been emitted and what is left over are the input's bits. -/
theorem convertLoop_regroups {fromBits toBits : Nat} (hpos : 0 < toBits) (hto : toBits ≤ 8)
    (hfrom : fromBits ≤ 8) {accumulator : UInt32} {bits : Nat} {before output data : Bytes}
    (hbits : bits < toBits) (h : Regrouped fromBits toBits before output accumulator bits)
    (hdata : Digits fromBits data) :
    ∃ accumulator' bits' output', convertLoop fromBits toBits accumulator bits output data =
        .ok (accumulator', bits', output') ∧ bits' < toBits ∧
      Regrouped fromBits toBits (before ++ data) output' accumulator' bits' := by
  induction data generalizing accumulator bits before output with
  | nil => exact ⟨accumulator, bits, output, rfl, hbits, by rwa [List.append_nil]⟩
  | cons value data ih =>
    have hvalue := hdata value List.mem_cons_self
    rw [convertLoop, if_neg (by rw [value_fits (by omega)]; exact not_not.mpr hvalue)]
    obtain ⟨hdrained, hlt⟩ := drain_regroups hpos hto (by omega) le_rfl
      (h.push (by omega) hvalue)
    have hnext := ih hlt hdrained fun digit hdigit => hdata digit (List.mem_cons_of_mem _ hdigit)
    rwa [List.append_assoc] at hnext

/-- An accepted input has no value above its base. -/
theorem convertLoop_digits {fromBits toBits : Nat} (hfrom : fromBits < 32) {accumulator : UInt32}
    {bits : Nat} {output data : Bytes} {final : UInt32 × Nat × Bytes}
    (h : convertLoop fromBits toBits accumulator bits output data = .ok final) :
    Digits fromBits data := by
  induction data generalizing accumulator bits output with
  | nil => exact fun _ hdigit => absurd hdigit List.not_mem_nil
  | cons value data ih =>
    rw [convertLoop] at h
    by_cases hvalue : value.toUInt32 >>> UInt32.ofNat fromBits ≠ 0
    · rw [if_pos hvalue] at h
      cases h
    · rw [if_neg hvalue] at h
      rw [value_fits hfrom, not_not] at hvalue
      exact List.forall_mem_cons.mpr ⟨hvalue, ih h⟩

theorem regrouped_nil (fromBits toBits : Nat) : Regrouped fromBits toBits [] [] 0 0 :=
  ⟨fun _ hdigit => absurd hdigit List.not_mem_nil, rfl, by simp [Nat.mod_one]⟩

/-- What stands in the accumulator, moved to the front of a digit. -/
theorem rest_toNat {toBits bits : Nat} (hto : toBits ≤ 8) (hbits : bits ≤ toBits)
    (accumulator : UInt32) :
    ((accumulator <<< UInt32.ofNat (toBits - bits)) &&&
      ((1 <<< UInt32.ofNat toBits) - 1)).toNat =
      accumulator.toNat % 2 ^ bits * 2 ^ (toBits - bits) := by
  have hdvd : 2 ^ toBits ∣ 2 ^ 32 := Nat.pow_dvd_pow 2 (by omega)
  have hsplit : 2 ^ toBits = 2 ^ bits * 2 ^ (toBits - bits) := by
    rw [← Nat.pow_add, Nat.add_sub_cancel' hbits]
  rw [and_maxValue hto, shiftLeft_toNat (by omega), Nat.mod_mod_of_dvd _ hdvd, hsplit,
    Nat.mul_mod_mul_right]

/-- With padding, the output writes the data and zeros behind it. -/
theorem convertBits_pad (fromBits toBits : Nat) (hpos : 0 < toBits) (hto : toBits ≤ 8)
    (hfrom : fromBits ≤ 8) {data : Bytes} (hdata : Digits fromBits data) :
    ∃ output zeros, convertBits data fromBits toBits true = .ok output ∧ Digits toBits output ∧
      zeros < toBits ∧ toBits * output.length = fromBits * data.length + zeros ∧
      number toBits output = number fromBits data * 2 ^ zeros := by
  obtain ⟨accumulator, bits, output, hloop, hbits, h⟩ := convertLoop_regroups hpos hto hfrom
    hpos (regrouped_nil fromBits toBits) hdata
  rw [List.nil_append] at h
  have htotal := h.total
  have hvalue := h.value
  rw [convertBits, hloop]
  dsimp only
  rw [if_pos rfl]
  by_cases hzero : 0 < bits
  · have hdigit : ((accumulator <<< UInt32.ofNat (toBits - bits)) &&&
        ((1 <<< UInt32.ofNat toBits) - 1)).toUInt8.toNat =
        accumulator.toNat % 2 ^ bits * 2 ^ (toBits - bits) := by
      rw [digit_toNat hto, ← and_maxValue hto, rest_toNat hto hbits.le]
    have hsplit : 2 ^ toBits = 2 ^ bits * 2 ^ (toBits - bits) := by
      rw [← Nat.pow_add, Nat.add_sub_cancel' hbits.le]
    rw [if_pos hzero]
    refine ⟨_, toBits - bits, rfl, Digits.concat.mpr ⟨h.digits, ?_⟩, by omega, ?_, ?_⟩
    · rw [hdigit, hsplit]
      exact Nat.mul_lt_mul_of_pos_right (Nat.mod_lt _ (Nat.two_pow_pos _)) (Nat.two_pow_pos _)
    · rw [List.length_append, List.length_singleton, Nat.mul_succ]
      omega
    · rw [number_concat, hdigit, hvalue, hsplit]
      ring
  · have hbits0 : bits = 0 := by omega
    subst hbits0
    rw [if_neg hzero]
    refine ⟨output, 0, rfl, h.digits, hpos, by omega, ?_⟩
    rw [hvalue, Nat.pow_zero, Nat.mod_one, Nat.add_zero, Nat.mul_one, Nat.mul_one]

/-- Without padding, the data writes the output and fewer zeros than a value has. -/
theorem convertBits_exact {fromBits toBits : Nat} (hpos : 0 < toBits) (hto : toBits ≤ 8)
    (hfrom : fromBits ≤ 8) {data output : Bytes} :
    convertBits data fromBits toBits false = .ok output ↔
      Digits fromBits data ∧ Digits toBits output ∧
        ∃ zeros, zeros < toBits ∧ zeros < fromBits ∧
          fromBits * data.length = toBits * output.length + zeros ∧
          number fromBits data = number toBits output * 2 ^ zeros := by
  by_cases hdata : Digits fromBits data
  · obtain ⟨accumulator, bits, found, hloop, hbits, h⟩ := convertLoop_regroups hpos hto hfrom
      hpos (regrouped_nil fromBits toBits) hdata
    rw [List.nil_append] at h
    have hrest : ((accumulator <<< UInt32.ofNat (toBits - bits)) &&&
        ((1 <<< UInt32.ofNat toBits) - 1)) ≠ 0 ↔ accumulator.toNat % 2 ^ bits ≠ 0 := by
      rw [ne_eq, ne_eq, not_iff_not, ← UInt32.toNat_inj, rest_toNat hto hbits.le]
      change _ = 0 ↔ _
      rw [Nat.mul_eq_zero]
      exact or_iff_left (Nat.two_pow_pos _).ne'
    rw [convertBits, hloop]
    dsimp only
    rw [if_neg Bool.false_ne_true]
    constructor
    · intro hok
      by_cases hbad : fromBits ≤ bits ∨ ((accumulator <<< UInt32.ofNat (toBits - bits)) &&&
          ((1 <<< UInt32.ofNat toBits) - 1)) ≠ 0
      · rw [if_pos hbad] at hok
        cases hok
      · rw [if_neg hbad] at hok
        cases hok
        rw [not_or, hrest, not_not] at hbad
        refine ⟨hdata, h.digits, bits, hbits, by omega, h.total, ?_⟩
        rw [h.value, hbad.2, Nat.add_zero]
    · intro hout
      obtain ⟨-, hdigits, zeros, hzeros, hfewer, htotal, hvalue⟩ := hout
      have htotal' := h.total
      -- Both lengths divide the same number with a remainder below `toBits`.
      have hlen : found.length = output.length := by
        have hdiv := congrArg (· / toBits) (htotal'.symm.trans htotal)
        simp only [Nat.mul_add_div hpos, Nat.div_eq_of_lt hbits, Nat.div_eq_of_lt hzeros] at hdiv
        omega
      have hbits' : bits = zeros := by
        rw [hlen] at htotal'
        omega
      subst hbits'
      have hlive := Nat.mod_lt accumulator.toNat (Nat.two_pow_pos bits)
      have heq := h.value.symm.trans hvalue
      have hnumber : number toBits found = number toBits output := by
        have hdiv := congrArg (· / 2 ^ bits) heq
        simp only [Nat.mul_comm _ (2 ^ bits), Nat.mul_add_div (Nat.two_pow_pos bits),
          Nat.div_eq_of_lt hlive, Nat.mul_div_cancel_left _ (Nat.two_pow_pos bits)] at hdiv
        omega
      have hsame := number_inj h.digits hdigits hlen hnumber
      have hzero : accumulator.toNat % 2 ^ bits = 0 := by
        rw [hnumber] at heq
        omega
      rw [if_neg, hsame]
      rw [not_or, hrest, not_not]
      exact ⟨by omega, hzero⟩
  · refine iff_of_false (fun hok => ?_) fun h => hdata h.1
    rw [convertBits] at hok
    cases hloop : convertLoop fromBits toBits 0 0 [] data with
    | error error =>
      rw [hloop] at hok
      cases hok
    | ok final => exact hdata (convertLoop_digits (by omega) hloop)

/-! ## The checksum is linear -/

/-- The generators that the top bits of a checksum select. -/
def selected (checksum : UInt64) : UInt64 :=
  GEN.zipIdx.foldl (fun sum generator =>
    sum ^^^ if ((checksum >>> 35) >>> UInt64.ofNat generator.2) &&& 1 = 1 then generator.1 else 0) 0

/-- One step without a value. -/
def feed (checksum : UInt64) : UInt64 :=
  ((checksum &&& 0x7ffffffff) <<< 5) ^^^ selected checksum

theorem bit_cases (word : UInt64) : word &&& 1 = 0 ∨ word &&& 1 = 1 := by
  have hbit : (word &&& 1).toNat = word.toNat % 2 := by
    rw [UInt64.toNat_and]
    exact Nat.and_one_is_mod _
  rcases Nat.mod_two_eq_zero_or_one word.toNat with h | h
  · exact .inl (UInt64.toNat_inj.mp (hbit.trans h))
  · exact .inr (UInt64.toNat_inj.mp (hbit.trans h))

/-- The checksum is linear: each of its steps commutes with exclusive or. -/
theorem xor_and (a b mask : UInt64) : (a ^^^ b) &&& mask = (a &&& mask) ^^^ (b &&& mask) := by
  apply UInt64.toNat_inj.mp
  rw [UInt64.toNat_and, UInt64.toNat_xor, UInt64.toNat_xor, UInt64.toNat_and, UInt64.toNat_and,
    Nat.and_xor_distrib_right]

/-- Choosing a generator by a bit is linear in the bit. -/
theorem select_xor (a b : UInt64) (index : Nat) (generator : UInt64) :
    (if (((a ^^^ b) >>> 35) >>> UInt64.ofNat index) &&& 1 = 1 then generator else 0) =
      (if ((a >>> 35) >>> UInt64.ofNat index) &&& 1 = 1 then generator else 0) ^^^
        (if ((b >>> 35) >>> UInt64.ofNat index) &&& 1 = 1 then generator else 0) := by
  rw [UInt64.shiftRight_xor, UInt64.shiftRight_xor, xor_and]
  rcases bit_cases ((a >>> 35) >>> UInt64.ofNat index) with ha | ha <;>
    rcases bit_cases ((b >>> 35) >>> UInt64.ofNat index) with hb | hb <;> rw [ha, hb] <;> simp

/-- Sums of selected generators add up, whatever the generators. -/
theorem fold_select_xor (a b : UInt64) (generators : List (UInt64 × Nat)) (s t : UInt64) :
    generators.foldl (fun sum generator => sum ^^^
        if (((a ^^^ b) >>> 35) >>> UInt64.ofNat generator.2) &&& 1 = 1 then generator.1 else 0)
        (s ^^^ t) =
      generators.foldl (fun sum generator => sum ^^^
          if ((a >>> 35) >>> UInt64.ofNat generator.2) &&& 1 = 1 then generator.1 else 0) s ^^^
        generators.foldl (fun sum generator => sum ^^^
          if ((b >>> 35) >>> UInt64.ofNat generator.2) &&& 1 = 1 then generator.1 else 0) t := by
  induction generators generalizing s t with
  | nil => rfl
  | cons generator generators ih =>
    rw [List.foldl_cons, List.foldl_cons, List.foldl_cons, ← ih, select_xor]
    congr 1
    ac_rfl

/-- And so is a whole step. -/
theorem feed_xor (a b : UInt64) : feed (a ^^^ b) = feed a ^^^ feed b := by
  have hselected : selected (a ^^^ b) = selected a ^^^ selected b :=
    fold_select_xor a b GEN.zipIdx 0 0
  rw [feed, feed, feed, hselected, xor_and, UInt64.shiftLeft_xor]
  ac_rfl

theorem fold_select (top s : UInt64) (generators : List (UInt64 × Nat)) (t : UInt64) :
    generators.foldl (fun checksum generator =>
        if (top >>> UInt64.ofNat generator.2) &&& 1 = 1 then checksum ^^^ generator.1 else checksum)
        (s ^^^ t) =
      s ^^^ generators.foldl (fun sum generator => sum ^^^
        if (top >>> UInt64.ofNat generator.2) &&& 1 = 1 then generator.1 else 0) t := by
  induction generators generalizing t with
  | nil => rfl
  | cons generator generators ih =>
    rw [List.foldl_cons, List.foldl_cons, ← ih]
    congr 1
    by_cases hbit : (top >>> UInt64.ofNat generator.2) &&& 1 = 1
    · rw [if_pos hbit, if_pos hbit, UInt64.xor_assoc]
    · rw [if_neg hbit, if_neg hbit, UInt64.xor_zero]

/-- The low bits move up, and nothing of them is lost. -/
theorem low_toNat (checksum : UInt64) :
    ((checksum &&& 0x7ffffffff) <<< 5).toNat = checksum.toNat % 2 ^ 35 * 2 ^ 5 := by
  have hmask : (checksum &&& 0x7ffffffff).toNat = checksum.toNat % 2 ^ 35 := by
    rw [UInt64.toNat_and]
    exact Nat.and_two_pow_sub_one_eq_mod _ 35
  have hlt := Nat.mod_lt checksum.toNat (Nat.two_pow_pos 35)
  rw [UInt64.toNat_shiftLeft, hmask, Nat.shiftLeft_eq]
  change _ * 2 ^ 5 % 2 ^ 64 = _
  exact Nat.mod_eq_of_lt (by omega)

/-- The value of a step is added without a carry. -/
theorem polymodStep_eq (checksum : UInt64) {value : UInt8} (h : value.toNat < 2 ^ 5) :
    polymodStep checksum value = feed checksum ^^^ value.toUInt64 := by
  have hlow := low_toNat checksum
  have hlt := Nat.mod_lt checksum.toNat (Nat.two_pow_pos 35)
  have hadd : ((checksum &&& 0x7ffffffff) <<< 5) + value.toUInt64 =
      (((checksum &&& 0x7ffffffff) <<< 5) ^^^ value.toUInt64) ^^^ 0 := by
    apply UInt64.toNat_inj.mp
    rw [UInt64.xor_zero, UInt64.toNat_add, UInt64.toNat_xor, hlow, UInt8.toNat_toUInt64,
      ← mul_two_pow_add_eq_xor h]
    exact Nat.mod_eq_of_lt (by omega)
  rw [polymodStep, feed, selected, hadd, fold_select]
  ac_rfl

/-- Below the top bits no generator is selected. -/
theorem feed_small {checksum : UInt64} (h : checksum.toNat < 2 ^ 35) :
    (feed checksum).toNat = checksum.toNat * 2 ^ 5 := by
  have htop : checksum >>> 35 = 0 := by
    apply UInt64.toNat_inj.mp
    rw [UInt64.toNat_shiftRight]
    change checksum.toNat >>> 35 = 0
    rw [Nat.shiftRight_eq_div_pow, Nat.div_eq_of_lt h]
  have hselected : selected checksum = 0 := by
    rw [selected, htop]
    decide
  rw [feed, hselected, UInt64.xor_zero, low_toNat, Nat.mod_eq_of_lt h]

/-- Up to eight values are added to what as many zeros leave. -/
theorem foldl_polymodStep {values : Bytes} (h : Digits 5 values) (hlen : values.length ≤ 8)
    (checksum : UInt64) :
    values.foldl polymodStep checksum =
      (List.replicate values.length 0).foldl polymodStep checksum ^^^
        UInt64.ofNat (number 5 values) := by
  induction values using List.reverseRecOn with
  | nil => simp
  | append_singleton values value ih =>
    obtain ⟨hvalues, hvalue⟩ := Digits.concat.mp h
    rw [List.length_append, List.length_singleton] at hlen ⊢
    have hsmall : number 5 values < 2 ^ 35 := lt_of_lt_of_le (number_lt hvalues)
      (Nat.pow_le_pow_right (by decide) (by omega))
    have hpacked : (UInt64.ofNat (number 5 values)).toNat = number 5 values := by
      rw [UInt64.toNat_ofNat']
      exact Nat.mod_eq_of_lt (by omega)
    have hnext : feed (UInt64.ofNat (number 5 values)) ^^^ value.toUInt64 =
        UInt64.ofNat (number 5 (values ++ [value])) := by
      apply UInt64.toNat_inj.mp
      rw [UInt64.toNat_xor, feed_small (by rw [hpacked]; exact hsmall), hpacked,
        UInt8.toNat_toUInt64, ← mul_two_pow_add_eq_xor hvalue, ← number_concat, UInt64.toNat_ofNat']
      refine (Nat.mod_eq_of_lt ?_).symm
      rw [number_concat]
      omega
    have hzero : UInt8.toUInt64 0 = 0 := rfl
    rw [List.foldl_append, List.foldl_cons, List.foldl_nil, ih hvalues (by omega),
      List.replicate_succ', List.foldl_append, List.foldl_cons, List.foldl_nil, polymodStep_eq _ hvalue,
      polymodStep_eq _ (by decide), feed_xor, hzero, UInt64.xor_zero, UInt64.xor_assoc, hnext]

/-- A checksum has forty bits. -/
theorem feed_lt (checksum : UInt64) : (feed checksum).toNat < 2 ^ 40 := by
  have hlow : ((checksum &&& 0x7ffffffff) <<< 5).toNat < 2 ^ 40 := by
    rw [low_toNat]
    have hlt := Nat.mod_lt checksum.toNat (Nat.two_pow_pos 35)
    omega
  have hselected : (selected checksum).toNat < 2 ^ 40 := by
    have hfold : ∀ (generators : List (UInt64 × Nat)) (sum : UInt64),
        (∀ generator ∈ generators, generator.1.toNat < 2 ^ 40) → sum.toNat < 2 ^ 40 →
        (generators.foldl (fun sum generator => sum ^^^
          if ((checksum >>> 35) >>> UInt64.ofNat generator.2) &&& 1 = 1 then generator.1 else 0)
          sum).toNat < 2 ^ 40 := by
      intro generators
      induction generators with
      | nil => exact fun _ _ hsum => hsum
      | cons generator generators ih =>
        intro sum hgenerators hsum
        refine ih _ (fun g hg => hgenerators g (List.mem_cons_of_mem _ hg)) ?_
        rw [UInt64.toNat_xor]
        refine Nat.xor_lt_two_pow hsum ?_
        split
        · exact hgenerators generator List.mem_cons_self
        · decide
    exact hfold GEN.zipIdx 0 (by decide) (by decide)
  rw [feed, UInt64.toNat_xor]
  exact Nat.xor_lt_two_pow hlow hselected

/-- The checksum values make the checksum of any payload one, and no others do. -/
theorem polymod_eq_one {hrp payload sum : Bytes} (hsum : Digits 5 sum)
    (hlen : sum.length = CHECKSUM_LEN) :
    polymod (prefixValues hrp ++ (payload ++ sum)) = 1 ↔
      UInt64.ofNat (number 5 sum) = createChecksum hrp payload := by
  have hfold : polymod (prefixValues hrp ++ (payload ++ sum)) =
      polymod (prefixValues hrp ++ payload ++ List.replicate CHECKSUM_LEN 0) ^^^
        UInt64.ofNat (number 5 sum) := by
    rw [polymod, polymod, ← List.append_assoc, List.foldl_append,
      foldl_polymodStep hsum (by rw [hlen]; decide), hlen, ← List.foldl_append]
  rw [hfold, createChecksum]
  constructor
  · intro h
    rw [← h, ← UInt64.xor_assoc, UInt64.xor_self, UInt64.zero_xor]
  · intro h
    rw [h, ← UInt64.xor_assoc, UInt64.xor_self, UInt64.zero_xor]

theorem createChecksum_lt (hrp payload : Bytes) : (createChecksum hrp payload).toNat < 2 ^ 40 := by
  have hzero : UInt8.toUInt64 0 = 0 := rfl
  have hreplicate : List.replicate CHECKSUM_LEN (0 : UInt8) = List.replicate 7 0 ++ [0] := by decide
  rw [createChecksum, polymod, hreplicate, ← List.append_assoc, List.foldl_append, List.foldl_cons,
    List.foldl_nil, polymodStep_eq _ (by decide), hzero, UInt64.xor_zero, UInt64.toNat_xor]
  exact Nat.xor_lt_two_pow (feed_lt _) (by decide)

/-- The characters of a checksum write it. -/
theorem checksumValues_number (checksum : UInt64) :
    Digits 5 (checksumValues checksum) ∧ (checksumValues checksum).length = CHECKSUM_LEN ∧
      number 5 (checksumValues checksum) = checksum.toNat % 2 ^ 40 := by
  have hdigit : ∀ shift : Nat, shift < 64 →
      ((checksum >>> UInt64.ofNat shift) &&& 0x1f).toUInt8.toNat =
        checksum.toNat / 2 ^ shift % 32 := by
    intro shift hshift
    have hand : ((checksum >>> UInt64.ofNat shift) &&& 0x1f).toNat =
        checksum.toNat / 2 ^ shift % 32 := by
      rw [UInt64.toNat_and, UInt64.toNat_shiftRight, UInt64.toNat_ofNat',
        Nat.mod_eq_of_lt (show shift < 2 ^ 64 by omega), Nat.mod_eq_of_lt hshift,
        Nat.shiftRight_eq_div_pow]
      exact Nat.and_two_pow_sub_one_eq_mod _ 5
    rw [UInt64.toNat_toUInt8, hand]
    exact Nat.mod_eq_of_lt (lt_trans (Nat.mod_lt _ (by decide)) (by decide))
  refine ⟨?_, by simp [checksumValues], ?_⟩
  · intro digit hdigitMem
    obtain ⟨index, hindex, rfl⟩ := List.mem_map.mp hdigitMem
    rw [List.mem_range] at hindex
    rw [hdigit _ (by rw [CHECKSUM_LEN]; omega)]
    exact Nat.mod_lt _ (by decide)
  · have hlow : ∀ k < CHECKSUM_LEN, ((checksum >>> UInt64.ofNat (5 * k)) &&& 0x1f).toUInt8.toNat =
        checksum.toNat / 2 ^ (5 * k) % 2 ^ 5 := by
      intro k hk
      rw [CHECKSUM_LEN] at hk
      exact hdigit (5 * k) (by omega)
    exact number_map_range hlow

/-! ## Characters -/

/-- Every digit has a letter, found again at its place, and no letter is the separator. -/
theorem charset_index : ∀ index : Fin 32, ∃ byte, CHARSET[index.val]? = some byte ∧
    CHARSET.findIdx? (· = byte) = some index.val ∧ byte ≠ SEPARATOR := by
  have hall : ∀ index : Fin 32, ∃ h : index.val < CHARSET.length,
      CHARSET.findIdx? (· = CHARSET.get ⟨index.val, h⟩) = some index.val ∧
        CHARSET.get ⟨index.val, h⟩ ≠ SEPARATOR := by decide
  intro index
  obtain ⟨hlt, hfind, hother⟩ := hall index
  exact ⟨CHARSET.get ⟨index.val, hlt⟩, List.getElem?_eq_getElem hlt, hfind, hother⟩

/-- A value of five bits has a character, which is read back as the value. -/
theorem charOf_digit {value : UInt8} (h : value.toNat < 2 ^ 5) :
    ∃ byte, charOf value = some byte ∧ decodeChar byte = .ok value ∧ byte ≠ SEPARATOR := by
  obtain ⟨byte, hbyte, hfind, hother⟩ := charset_index ⟨value.toNat, h⟩
  refine ⟨byte, hbyte, ?_, hother⟩
  rw [decodeChar, hfind]
  exact congrArg Except.ok (UInt8.toNat.inj (by
    rw [UInt8.toNat_ofNat']
    exact Nat.mod_eq_of_lt value.toNat_lt))

/-- A letter that is accepted is the one its digit is written as. -/
theorem decodeChar_ok {byte value : UInt8} (h : decodeChar byte = .ok value) :
    value.toNat < 2 ^ 5 ∧ charOf value = some byte := by
  rw [decodeChar] at h
  cases hfind : CHARSET.findIdx? (· = byte) with
  | none =>
    rw [hfind] at h
    cases h
  | some index =>
    rw [hfind] at h
    cases h
    obtain ⟨hlt, hbyte, -⟩ := List.findIdx?_eq_some_iff_getElem.mp hfind
    have hlt' : index < 32 := hlt
    have hnat : (UInt8.ofNat index).toNat = index := by
      rw [UInt8.toNat_ofNat']
      exact Nat.mod_eq_of_lt (by omega)
    rw [charOf, hnat, List.getElem?_eq_getElem hlt]
    exact ⟨hlt', congrArg some (of_decide_eq_true hbyte)⟩

/-- Digits are written as letters that read back as them. -/
theorem mapM_charOf {values : Bytes} (h : Digits 5 values) :
    ∃ text, values.mapM charOf = some text ∧ decodeChars text = .ok values ∧
      text.length = values.length ∧ SEPARATOR ∉ text := by
  induction values with
  | nil => exact ⟨[], rfl, rfl, rfl, List.not_mem_nil⟩
  | cons value values ih =>
    obtain ⟨byte, hbyte, hdecode, hother⟩ := charOf_digit (h value List.mem_cons_self)
    obtain ⟨text, htext, hvalues, hlength, hothers⟩ :=
      ih fun digit hdigit => h digit (List.mem_cons_of_mem _ hdigit)
    refine ⟨byte :: text, ?_, ?_, ?_, ?_⟩
    · rw [List.mapM_cons, hbyte, htext]
      rfl
    · rw [decodeChars] at hvalues ⊢
      rw [List.mapM_cons, hdecode, hvalues]
      rfl
    · rw [List.length_cons, List.length_cons, hlength]
    · rw [List.mem_cons, not_or]
      exact ⟨hother.symm, hothers⟩

/-- And text that is accepted is the text of its digits. -/
theorem decodeChars_ok {text values : Bytes} (h : decodeChars text = .ok values) :
    Digits 5 values ∧ values.mapM charOf = some text ∧ text.length = values.length := by
  induction text generalizing values with
  | nil =>
    cases h
    exact ⟨fun _ hdigit => absurd hdigit List.not_mem_nil, rfl, rfl⟩
  | cons byte text ih =>
    rw [decodeChars, List.mapM_cons, bind_eq_ok] at h
    obtain ⟨value, hvalue, h⟩ := h
    rw [bind_eq_ok] at h
    obtain ⟨rest, hrest, heq⟩ := h
    cases heq
    obtain ⟨hlt, hchar⟩ := decodeChar_ok hvalue
    obtain ⟨hdigits, htext, hlength⟩ := ih hrest
    refine ⟨List.forall_mem_cons.mpr ⟨hlt, hdigits⟩, ?_, ?_⟩
    · rw [List.mapM_cons, hchar, htext]
      rfl
    · rw [List.length_cons, List.length_cons, hlength]

/-! ## The whole text -/

/-- Regrouping back and forth. -/
theorem convertBits_inverse {data bytes : Bytes} :
    convertBits data 5 8 false = .ok bytes ↔ convertBits bytes 8 5 true = .ok data := by
  obtain ⟨output, zeros, hpad, hdigits, hzeros, htotal, hvalue⟩ :=
    convertBits_pad 8 5 (by decide) (by decide) le_rfl (digits_byte bytes)
  rw [hpad, convertBits_exact (by decide) le_rfl (by decide)]
  constructor
  · intro h
    obtain ⟨hdata, -, zeros', hzeros', hfewer, htotal', hvalue'⟩ := h
    have hsame : zeros = zeros' := by omega
    subst hsame
    have heq : output = data := number_inj hdigits hdata (by omega) (hvalue.trans hvalue'.symm)
    rw [heq]
  · intro h
    cases h
    exact ⟨hdigits, digits_byte bytes, zeros, by omega, hzeros, htotal, hvalue⟩

/-- The text is split at the first separator. -/
theorem splitOnce_append {separator : UInt8} {front : Bytes} (h : separator ∉ front)
    (rest : Bytes) :
    splitOnce separator (front ++ [separator] ++ rest) = some (front, rest) := by
  have hfront : ∀ b ∈ front, decide (b ≠ separator) = true := by
    intro b hb
    exact decide_eq_true fun heq => h (heq ▸ hb)
  have hstop : decide (separator ≠ separator) = false := decide_eq_false (not_not.mpr rfl)
  rw [splitOnce, List.append_assoc, List.dropWhile_append_of_pos hfront,
    List.takeWhile_append_of_pos hfront, List.singleton_append,
    List.dropWhile_cons_of_neg (by rw [hstop]; exact Bool.false_ne_true),
    List.takeWhile_cons_of_neg (by rw [hstop]; exact Bool.false_ne_true), List.append_nil]

/-- What is split off holds no separator. -/
theorem splitOnce_eq_some {separator : UInt8} {text front rest : Bytes}
    (h : splitOnce separator text = some (front, rest)) : text = front ++ [separator] ++ rest := by
  rw [splitOnce] at h
  have hsplit := (List.takeWhile_append_dropWhile (p := (· ≠ separator)) (l := text)).symm
  cases hdrop : text.dropWhile (· ≠ separator) with
  | nil =>
    rw [hdrop] at h
    cases h
  | cons b behind =>
    rw [hdrop] at h
    cases h
    have hb : b = separator := by
      have hhead := List.head?_dropWhile_not (· ≠ separator) text
      rw [hdrop] at hhead
      simpa using hhead
    rw [hdrop, hb] at hsplit
    rw [List.append_assoc]
    exact hsplit

/-- The prefixes of addresses. -/
def IsPrefix (hrp : Bytes) : Prop := ∃ network : KaspaNetwork, network.hrp = some hrp

/-- The prefixes of the four networks. -/
theorem isPrefix_iff {hrp : Bytes} :
    IsPrefix hrp ↔ hrp = ascii "kaspa" ∨ hrp = ascii "kaspatest" ∨ hrp = ascii "kaspasim" ∨
      hrp = ascii "kaspadev" := by
  constructor
  · intro h
    obtain ⟨network, hnetwork⟩ := h
    cases network with
    | unknown => cases hnetwork
    | mainnet => exact .inl (Option.some.inj hnetwork).symm
    | testnet => exact .inr (.inl (Option.some.inj hnetwork).symm)
    | devnet => exact .inr (.inr (.inr (Option.some.inj hnetwork).symm))
    | simnet => exact .inr (.inr (.inl (Option.some.inj hnetwork).symm))
  · intro h
    rcases h with rfl | rfl | rfl | rfl
    · exact ⟨.mainnet, rfl⟩
    · exact ⟨.testnet, rfl⟩
    · exact ⟨.simnet, rfl⟩
    · exact ⟨.devnet, rfl⟩

theorem isPrefix_separator {hrp : Bytes} (h : IsPrefix hrp) : SEPARATOR ∉ hrp := by
  rcases isPrefix_iff.mp h with rfl | rfl | rfl | rfl <;> decide

/-- A prefix, a separator, and enough letters for a checksum. -/
theorem splitAddress_ok {addr hrp data : Bytes} :
    splitAddress addr = .ok (hrp, data) ↔
      IsPrefix hrp ∧ 9 ≤ data.length ∧ addr = hrp ++ [SEPARATOR] ++ data := by
  constructor
  · intro h
    rw [splitAddress] at h
    cases hsplit : splitOnce SEPARATOR addr with
    | none =>
      rw [hsplit] at h
      cases h
    | some parts =>
      obtain ⟨hrp', data'⟩ := parts
      rw [hsplit] at h
      dsimp only at h
      split at h
      case isTrue hhuman =>
        split at h
        case isTrue => cases h
        case isFalse hlength =>
          cases h
          exact ⟨isPrefix_iff.mpr hhuman, Nat.not_lt.mp hlength, splitOnce_eq_some hsplit⟩
      case isFalse => cases h
  · intro h
    obtain ⟨hhuman, hlength, rfl⟩ := h
    rw [splitAddress, splitOnce_append (isPrefix_separator hhuman)]
    dsimp only
    rw [if_pos (isPrefix_iff.mp hhuman), if_neg (by omega)]

/-- The values an address text carries: a prefix, the regrouped bytes and their checksum. -/
structure Carries (addr hrp data sum : Bytes) (version : UInt8) (payload : Bytes) : Prop where
  data_ok : convertBits (version :: payload) 8 5 true = .ok data
  sum_eq : sum = checksumValues (createChecksum hrp data)
  text : ∃ body tail, data.mapM charOf = some body ∧ sum.mapM charOf = some tail ∧
    addr = hrp ++ [SEPARATOR] ++ body ++ tail

/-- What is written: the digits of version and payload, then those of the checksum. -/
theorem encodeAddressBytes_eq_some {addr hrp payload : Bytes} {version : UInt8} :
    encodeAddressBytes payload version hrp = some addr ↔
      ∃ data sum, Carries addr hrp data sum version payload := by
  simp only [encodeAddressBytes, Option.bind_eq_bind, Option.bind_eq_some_iff, Option.pure_def,
    Option.some.injEq]
  constructor
  · intro h
    obtain ⟨data, hdata, body, hbody, tail, htail, heq⟩ := h
    cases hconvert : convertBits (version :: payload) 8 5 true with
    | error error =>
      rw [hconvert] at hdata
      cases hdata
    | ok data' =>
      rw [hconvert] at hdata
      cases hdata
      exact ⟨data, _, hconvert, rfl, body, tail, hbody, htail, heq.symm⟩
  · intro h
    obtain ⟨data, sum, hdata, rfl, body, tail, hbody, htail, heq⟩ := h
    exact ⟨data, by rw [hdata]; rfl, body, hbody, tail, htail, heq.symm⟩

/-- The checksum is right exactly when it is the one that would be written. -/
theorem verifyChecksum_ok {hrp data sum : Bytes} (hsum : Digits 5 sum)
    (hlen : sum.length = CHECKSUM_LEN) :
    verifyChecksum hrp (data ++ sum) = .ok () ↔ sum = checksumValues (createChecksum hrp data) := by
  have hverify : verifyChecksum hrp (data ++ sum) = .ok () ↔
      polymod (prefixValues hrp ++ (data ++ sum)) = 1 := by
    rw [verifyChecksum]
    by_cases hone : polymod (prefixValues hrp ++ (data ++ sum)) = 1
    · rw [if_pos hone]
      exact iff_of_true rfl hone
    · rw [if_neg hone]
      exact iff_of_false (fun h => by cases h) hone
  obtain ⟨hdigits, hlength, hnumber⟩ := checksumValues_number (createChecksum hrp data)
  rw [hverify, polymod_eq_one hsum hlen]
  have hbound : number 5 sum < 2 ^ 40 := by
    have hlt := number_lt hsum
    rwa [hlen] at hlt
  have hword : (UInt64.ofNat (number 5 sum)).toNat = number 5 sum := by
    rw [UInt64.toNat_ofNat']
    exact Nat.mod_eq_of_lt (by omega)
  constructor
  · intro h
    refine number_inj hsum hdigits (hlen.trans hlength.symm) ?_
    rw [hnumber, ← h, hword, Nat.mod_eq_of_lt hbound]
  · intro h
    apply UInt64.toNat_inj.mp
    rw [hword, h, hnumber, Nat.mod_eq_of_lt (createChecksum_lt hrp data)]

/-- Writing goes part by part. -/
theorem mapM_charOf_append {data sum text : Bytes} :
    (data ++ sum).mapM charOf = some text ↔
      ∃ body tail, data.mapM charOf = some body ∧ sum.mapM charOf = some tail ∧
        text = body ++ tail := by
  rw [List.mapM_append]
  simp only [Option.bind_eq_bind, Option.bind_eq_some_iff, Option.pure_def, Option.some.injEq]
  constructor
  · intro h
    obtain ⟨body, hbody, tail, htail, heq⟩ := h
    exact ⟨body, tail, hbody, htail, heq.symm⟩
  · intro h
    obtain ⟨body, tail, hbody, htail, heq⟩ := h
    exact ⟨body, hbody, tail, htail, heq.symm⟩

/-- An accepted address carries its payload, and every address that carries one is accepted. -/
theorem decodeAddressBytes_ok {addr : Bytes} {decoded : DecodedAddress} :
    decodeAddressBytes addr = .ok decoded ↔
      payloadLengthForVersion decoded.version = some decoded.payload.length ∧
        ∃ hrp data sum, IsPrefix hrp ∧
          Carries addr hrp data sum decoded.version decoded.payload := by
  constructor
  · intro h
    rw [decodeAddressBytes, bind_eq_ok] at h
    obtain ⟨parts, hsplit, h⟩ := h
    obtain ⟨hrp, part⟩ := parts
    dsimp only at h
    rw [bind_eq_ok] at h
    obtain ⟨values, hvalues, h⟩ := h
    rw [bind_eq_ok] at h
    obtain ⟨u, hlong, h⟩ := h
    rw [rejectIf_eq_ok] at hlong
    rw [bind_eq_ok] at h
    obtain ⟨v, hverify, h⟩ := h
    rw [bind_eq_ok] at h
    obtain ⟨bytes, hconvert, h⟩ := h
    obtain ⟨hhuman, -, rfl⟩ := splitAddress_ok.mp hsplit
    obtain ⟨hdigits, htext, -⟩ := decodeChars_ok hvalues
    have hcut := (List.take_append_drop (values.length - CHECKSUM_LEN) values).symm
    have hlen : (values.drop (values.length - CHECKSUM_LEN)).length = CHECKSUM_LEN := by
      rw [List.length_drop]
      omega
    have hsum : Digits 5 (values.drop (values.length - CHECKSUM_LEN)) :=
      fun digit hdigit => hdigits digit (List.mem_of_mem_drop hdigit)
    rw [hcut] at hverify htext
    -- the read digits are the data followed by the checksum, and the text splits at the same place
    obtain ⟨body, tail, hbody, htail, rfl⟩ := mapM_charOf_append.mp htext
    cases bytes with
    | nil => cases h
    | cons version payload =>
      dsimp only at h
      cases hexpected : payloadLengthForVersion version with
      | none =>
        rw [hexpected] at h
        cases h
      | some expected =>
        rw [hexpected] at h
        dsimp only at h
        by_cases hpayload : payload.length ≠ expected
        · rw [if_pos hpayload] at h
          cases h
        · rw [if_neg hpayload] at h
          cases h
          rw [not_not] at hpayload
          refine ⟨hexpected.trans (congrArg some hpayload.symm), hrp, _, _, hhuman,
            convertBits_inverse.mp hconvert, (verifyChecksum_ok hsum hlen).mp hverify, body, tail,
            hbody, htail, ?_⟩
          rw [List.append_assoc _ body]
  · intro h
    obtain ⟨hexpected, hrp, data, sum, hhuman, hdata, hsum, body, tail, hbody, htail, rfl⟩ := h
    -- the converse runs the decoder on the text that the carried parts spell
    have hback := convertBits_inverse.mpr hdata
    obtain ⟨hdigits, -, zeros, -, -, htotal, -⟩ :=
      (convertBits_exact (by decide) le_rfl (by decide)).mp hback
    obtain ⟨hsumDigits, hsumLength, -⟩ := checksumValues_number (createChecksum hrp data)
    rw [← hsum] at hsumDigits hsumLength
    have hdata0 : 0 < data.length := by
      rw [List.length_cons] at htotal
      omega
    have hvalues : Digits 5 (data ++ sum) := by
      intro digit hdigit
      rcases List.mem_append.mp hdigit with hmem | hmem
      · exact hdigits digit hmem
      · exact hsumDigits digit hmem
    have hmap := mapM_charOf_append.mpr ⟨body, tail, hbody, htail, rfl⟩
    obtain ⟨text, htext, hdecode, htextLength, -⟩ := mapM_charOf hvalues
    rw [hmap] at htext
    cases htext
    have hcount : (data ++ sum).length = data.length + CHECKSUM_LEN := by
      rw [List.length_append, hsumLength]
    rw [List.append_assoc _ body, decodeAddressBytes, bind_eq_ok]
    refine ⟨(hrp, body ++ tail), splitAddress_ok.mpr ⟨hhuman, ?_, rfl⟩, ?_⟩
    · rw [htextLength, hcount, CHECKSUM_LEN]
      omega
    dsimp only
    rw [bind_eq_ok]
    refine ⟨data ++ sum, hdecode, ?_⟩
    rw [bind_eq_ok]
    refine ⟨(), rejectIf_eq_ok.mpr (by omega), ?_⟩
    rw [bind_eq_ok]
    refine ⟨(), (verifyChecksum_ok hsumDigits hsumLength).mpr hsum, ?_⟩
    rw [bind_eq_ok]
    have htake : (data ++ sum).take ((data ++ sum).length - CHECKSUM_LEN) = data := by
      rw [hcount, Nat.add_sub_cancel, List.take_left]
    refine ⟨decoded.version :: decoded.payload, by rw [htake]; exact hback, ?_⟩
    dsimp only
    rw [hexpected]
    dsimp only
    rw [if_neg (not_not.mpr rfl)]

/-- Every payload of bytes has an address text. -/
theorem carries_exists (hrp payload : Bytes) (version : UInt8) :
    ∃ addr data sum, Carries addr hrp data sum version payload := by
  obtain ⟨data, zeros, hdata, hdigits, -, -, -⟩ :=
    convertBits_pad 8 5 (by decide) (by decide) le_rfl (digits_byte (version :: payload))
  obtain ⟨hsum, -, -⟩ := checksumValues_number (createChecksum hrp data)
  obtain ⟨body, hbody, -⟩ := mapM_charOf hdigits
  obtain ⟨tail, htail, -⟩ := mapM_charOf hsum
  exact ⟨_, data, _, hdata, rfl, body, tail, hbody, htail, rfl⟩

/-- The prefix of an address can be read without its payload. -/
theorem addressPrefix_of_carries {addr hrp data sum payload : Bytes} {version : UInt8}
    (hhuman : IsPrefix hrp) (h : Carries addr hrp data sum version payload)
    (hlength : payloadLengthForVersion version = some payload.length) :
    addressPrefix addr = .ok hrp := by
  have hdecode : decodeAddressBytes addr = .ok ⟨version, payload⟩ :=
    decodeAddressBytes_ok.mpr ⟨hlength, hrp, data, sum, hhuman, h⟩
  obtain ⟨body, tail, -, -, rfl⟩ := h.text
  rw [decodeAddressBytes, bind_eq_ok] at hdecode
  obtain ⟨parts, hsplit, -⟩ := hdecode
  obtain ⟨hrp', part⟩ := parts
  obtain ⟨hhuman', hlong, heq⟩ := splitAddress_ok.mp hsplit
  have hfirst := splitOnce_append (isPrefix_separator hhuman) (body ++ tail)
  have hsecond := splitOnce_append (isPrefix_separator hhuman') part
  rw [← heq, List.append_assoc _ body, hfirst] at hsecond
  cases hsecond
  rw [addressPrefix, hsplit]

/-- The text of every address fits the buffer that takes it. -/
theorem encodeAddressForNetwork_fits {pubkey text : Bytes} {addrType : AddressType}
    {network : KaspaNetwork} (h : encodeAddressForNetwork pubkey addrType network = some text) :
    text.length ≤ MAX_ADDR_LEN := by
  rw [encodeAddressForNetwork] at h
  cases hhrp : network.hrp with
  | none =>
    rw [hhrp] at h
    cases h
    exact Nat.zero_le _
  | some hrp =>
    rw [hhrp] at h
    dsimp only at h
    split at h
    case isTrue =>
      cases h
      exact Nat.zero_le _
    case isFalse hpayload =>
      rw [not_not] at hpayload
      obtain ⟨data, sum, hdata, rfl, body, tail, hbody, htail, rfl⟩ :=
        encodeAddressBytes_eq_some.mp h
      obtain ⟨hdigits, -, zeros, -, hzeros, htotal, -⟩ :=
        (convertBits_exact (by decide) le_rfl (by decide)).mp (convertBits_inverse.mpr hdata)
      obtain ⟨hsum, hsumLength, -⟩ := checksumValues_number (createChecksum hrp data)
      obtain ⟨body', hbody', -, hbodyLength, -⟩ := mapM_charOf hdigits
      obtain ⟨tail', htail', -, htailLength, -⟩ := mapM_charOf hsum
      rw [hbody] at hbody'
      rw [htail] at htail'
      cases hbody'
      cases htail'
      have hhuman : hrp.length ≤ 9 := by
        rcases isPrefix_iff.mp ⟨network, hhrp⟩ with rfl | rfl | rfl | rfl <;> decide
      have hcount : pubkey.length ≤ 33 := by
        cases addrType with
        | p2pk => exact (Option.some.inj hpayload).symm.le.trans (by decide)
        | p2pkEcdsa => exact (Option.some.inj hpayload).symm.le
        | p2sh => exact (Option.some.inj hpayload).symm.le.trans (by decide)
      rw [List.length_cons] at htotal
      simp only [List.length_append, List.length_singleton, hbodyLength, htailLength, hsumLength,
        CHECKSUM_LEN, MAX_ADDR_LEN]
      omega

end KaspaPortal.Primitives
