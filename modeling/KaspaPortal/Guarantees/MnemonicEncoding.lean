import KaspaPortal.Lib.Result
import KaspaPortal.Wallet.Mnemonic.Encoding

/-!
# Mnemonics are entropy with its checksum

Eleven bits are read for each index and written back at the same place. The bits of the buffer are
followed one at a time: a field that is read holds the bits it covers, and a write sets the bits of
its value and no others.

The words of the list are indices here; the checksum's hash is a parameter.
-/
namespace KaspaPortal.Wallet.Mnemonic
open Lib

/-! ## Reading -/

/-- One more bit of a field that still fits its word. -/
theorem extractBit_eq {data : Bytes} {bitOffset i field : Nat} (hfield : field < 2 ^ 15)
    (hroom : bitOffset + i < 8 * data.length) :
    extractBit data bitOffset (UInt16.ofNat field) i =
      some (UInt16.ofNat (2 * field + (bitAt data (bitOffset + i)).toNat)) := by
  have hbyte : (bitOffset + i) / 8 < data.length := by omega
  have hword : (UInt16.ofNat field).toNat = field :=
    UInt16.toNat_ofNat_of_lt' (Nat.lt_trans hfield (by decide))
  have hbit : bitAt data (bitOffset + i) =
      (data[(bitOffset + i) / 8]).toNat.testBit (7 - (bitOffset + i) % 8) := by
    rw [bitAt, List.getD_eq_getElem _ _ hbyte]
  rw [extractBit, List.getElem?_eq_getElem hbyte]
  change some _ = _
  rw [shiftRight_and_one (by omega), ← hbit]
  apply congrArg some
  apply UInt16.toNat_inj.mp
  rw [UInt16.toNat_add, UInt16.toNat_shiftLeft, hword]
  cases bitAt data (bitOffset + i) <;> simp [Nat.shiftLeft_eq] <;> omega

/-- The bits that have been read make up the field. -/
theorem extractBits_eq {data : Bytes} {bitOffset numBits : Nat} (hwidth : numBits ≤ 16)
    (hroom : bitOffset + numBits ≤ 8 * data.length) :
    extractBits data bitOffset numBits = some (UInt16.ofNat (bitField data bitOffset numBits)) := by
  induction numBits with
  | zero => rfl
  | succ numBits ih =>
    have hbefore := ih (by omega) (by omega)
    have hfield : bitField data bitOffset numBits < 2 ^ 15 :=
      Nat.lt_of_lt_of_le (bitField_lt data bitOffset numBits)
        (Nat.pow_le_pow_right (by decide) (by omega))
    rw [extractBits] at hbefore ⊢
    rw [List.range_succ, List.foldlM_append, hbefore, bitField]
    refine Option.bind_eq_some_iff.mpr ⟨_, rfl, ?_⟩
    exact Option.bind_eq_some_iff.mpr ⟨_, extractBit_eq hfield (by omega), rfl⟩

theorem mapM_some {α β : Type} {f : α → β} (items : List α) :
    items.mapM (fun item => some (f item)) = some (items.map f) := by
  induction items with
  | nil => rfl
  | cons item items ih =>
    rw [List.mapM_cons, ih]
    rfl

/-- The indices of a buffer. -/
def indicesOf (words : Nat) (combined : Bytes) : Indices words :=
  ⟨(List.range words).map fun i => UInt16.ofNat (bitField combined (i * 11) 11), by simp⟩

theorem entropyToIndices_eq {words : Nat} {combined : Bytes} (hroom : words * 11 ≤ 8 * combined.length) :
    entropyToIndices words combined = some (indicesOf words combined) := by
  have hall : (List.range words).mapM (fun i => extractBits combined (i * 11) 11) =
      some (indicesOf words combined).val := by
    rw [indicesOf, ← mapM_some]
    apply Lib.mapM_congr
    intro i hi
    have hlt := List.mem_range.mp hi
    exact extractBits_eq (by decide) (by omega)
  rw [entropyToIndices, hall]
  exact dif_pos (indicesOf words combined).property

/-! ## Writing -/

/-- A bit of the value is set where it is one, and nothing else changes. -/
theorem writeBit_spec {data : Bytes} {bitOffset numBits i : Nat} (value : UInt16)
    (hwidth : numBits ≤ 16) (hi : i < numBits) (hroom : bitOffset + i < 8 * data.length)
    (hclear : bitAt data (bitOffset + i) = false) :
    ∃ written, writeBit bitOffset value numBits data i = some written ∧
      written.length = data.length ∧
      ∀ position, bitAt written position = (bitAt data position ||
        (decide (position = bitOffset + i) && value.toNat.testBit (numBits - 1 - i))) := by
  have hbyte : (bitOffset + i) / 8 < data.length := by omega
  have hshift : (UInt16.ofNat (numBits - 1 - i)).toNat = numBits - 1 - i :=
    UInt16.toNat_ofNat_of_lt' (Nat.lt_of_lt_of_le (show numBits - 1 - i < 16 by omega) (by decide))
  have hbit : ((value >>> UInt16.ofNat (numBits - 1 - i)) &&& 1 = 1) ↔
      value.toNat.testBit (numBits - 1 - i) = true := by
    rw [← UInt16.toNat_inj, UInt16.toNat_and, UInt16.toNat_shiftRight, hshift,
      Nat.mod_eq_of_lt (by omega), UInt16.toNat_one, Nat.and_one_is_mod,
      Nat.shiftRight_eq_div_pow, Nat.testBit_eq_decide_div_mod_eq, decide_eq_true_eq]
  rw [writeBit]
  by_cases hset : value.toNat.testBit (numBits - 1 - i) = true
  · refine ⟨data.set ((bitOffset + i) / 8)
      (data[(bitOffset + i) / 8] + (1 <<< UInt8.ofNat (7 - (bitOffset + i) % 8))),
      (if_pos (hbit.mpr hset)).trans ?_, List.length_set, fun position => ?_⟩
    · rw [List.getElem?_eq_getElem hbyte]
      rfl
    · rw [bitAt_set hbyte hclear, hset, Bool.and_true]
  · refine ⟨data, if_neg (fun h => hset (hbit.mp h)), rfl, fun position => ?_⟩
    rw [Bool.not_eq_true _ |>.mp hset, Bool.and_false, Bool.or_false]

/-- A value is written into its place, if nothing has been written there. -/
theorem writeBits_spec {data : Bytes} {bitOffset numBits : Nat} (value : UInt16)
    (hwidth : numBits ≤ 16) (hroom : bitOffset + numBits ≤ 8 * data.length)
    (hclear : ∀ position, bitOffset ≤ position → bitAt data position = false) :
    ∃ written, writeBits data bitOffset value numBits = some written ∧
      written.length = data.length ∧
      ∀ position, bitAt written position =
        if bitOffset ≤ position ∧ position < bitOffset + numBits then
          value.toNat.testBit (numBits - 1 - (position - bitOffset))
        else bitAt data position := by
  -- After `done` bits, as many places have been written.
  have hloop : ∀ done ≤ numBits, ∃ written,
      (List.range done).foldlM (writeBit bitOffset value numBits) data = some written ∧
      written.length = data.length ∧
      ∀ position, bitAt written position =
        if bitOffset ≤ position ∧ position < bitOffset + done then
          value.toNat.testBit (numBits - 1 - (position - bitOffset))
        else bitAt data position := by
    intro done
    induction done with
    | zero =>
      intro _
      refine ⟨data, rfl, rfl, fun position => ?_⟩
      rw [if_neg (by omega)]
    | succ done ih =>
      intro hdone
      obtain ⟨before, hbefore, hlength, hbits⟩ := ih (by omega)
      have hfree : bitAt before (bitOffset + done) = false := by
        rw [hbits, if_neg (by omega)]
        exact hclear _ (Nat.le_add_right _ _)
      obtain ⟨written, hwritten, hsame, hset⟩ := writeBit_spec value hwidth
        (show done < numBits by omega) (show bitOffset + done < 8 * before.length by omega) hfree
      refine ⟨written, ?_, hsame.trans hlength, fun position => ?_⟩
      · rw [List.range_succ, List.foldlM_append, hbefore]
        change (writeBit bitOffset value numBits before done).bind some = _
        rw [hwritten]
        rfl
      · rw [hset, hbits]
        by_cases hlast : position = bitOffset + done
        · have hplace : position - bitOffset = done := by omega
          rw [if_neg (by omega), if_pos (by omega), hplace, hclear position (by omega),
            decide_eq_true hlast, Bool.true_and, Bool.false_or]
        · rw [decide_eq_false hlast, Bool.false_and, Bool.or_false]
          by_cases hin : bitOffset ≤ position ∧ position < bitOffset + done
          · rw [if_pos hin, if_pos (by omega)]
          · rw [if_neg hin, if_neg (by omega)]
  exact hloop numBits (Nat.le_refl _)

/-- The indices are written one behind the other. -/
theorem writeIndices_spec {bits : Bytes} {bitPos : Nat} (indices : List UInt16)
    (hroom : bitPos + indices.length * 11 ≤ 8 * bits.length)
    (hclear : ∀ position, bitPos ≤ position → bitAt bits position = false) :
    ∃ written, writeIndices bits bitPos indices = some written ∧
      written.length = bits.length ∧
      ∀ position, bitAt written position =
        if bitPos ≤ position ∧ position < bitPos + indices.length * 11 then
          (indices.getD ((position - bitPos) / 11) 0).toNat.testBit (10 - (position - bitPos) % 11)
        else bitAt bits position := by
  induction indices generalizing bits bitPos with
  | nil =>
    refine ⟨bits, rfl, rfl, fun position => ?_⟩
    rw [List.length_nil, if_neg (by omega)]
  | cons idx rest ih =>
    rw [List.length_cons] at hroom ⊢
    obtain ⟨first, hfirst, hlength, hbits⟩ := writeBits_spec idx (show 11 ≤ 16 by decide)
      (show bitPos + 11 ≤ 8 * bits.length by omega) hclear
    have hfree : ∀ position, bitPos + 11 ≤ position → bitAt first position = false := by
      intro position hposition
      rw [hbits, if_neg (by omega)]
      exact hclear position (by omega)
    obtain ⟨written, hwritten, hsame, hplaces⟩ := ih (show bitPos + 11 + rest.length * 11 ≤
      8 * first.length by omega) hfree
    refine ⟨written, ?_, hsame.trans hlength, fun position => ?_⟩
    · rw [writeIndices, hfirst]
      exact hwritten
    · rw [hplaces, hbits]
      by_cases hlater : bitPos + 11 ≤ position ∧ position < bitPos + 11 + rest.length * 11
      · have hindex : (position - bitPos) / 11 = (position - (bitPos + 11)) / 11 + 1 := by omega
        have hplace : (position - bitPos) % 11 = (position - (bitPos + 11)) % 11 := by omega
        rw [if_pos hlater, if_pos (by omega), hindex, hplace, List.getD_cons_succ]
      · rw [if_neg hlater]
        by_cases hhere : bitPos ≤ position ∧ position < bitPos + 11
        · have hindex : (position - bitPos) / 11 = 0 := by omega
          have hplace : (position - bitPos) % 11 = position - bitPos := by omega
          rw [if_pos hhere, if_pos (by omega), hindex, hplace, List.getD_cons_zero]
        · rw [if_neg hhere, if_neg (by omega)]

theorem bitAt_zeroBuffer (room position : Nat) : bitAt (zeroBuffer room) position = false := by
  have hbyte : (zeroBuffer room).getD (position / 8) 0 = 0 := by
    rw [zeroBuffer, List.getD_eq_getElem?_getD, List.getElem?_replicate]
    split <;> rfl
  rw [bitAt, hbyte, UInt8.toNat_zero, Nat.zero_testBit]

/-! ## Both ways -/

section
variable {words room : Nat}

/-- Writing indices of eleven bits into an empty buffer and reading them again. -/
theorem writeIndices_reads (hroom : words * 11 ≤ 8 * room) {indices : Indices words}
    (hindices : ∀ index ∈ indices.val, index < 2048) :
    ∃ written, writeIndices (zeroBuffer room) 0 indices.val = some written ∧
      written.length = room ∧ indicesOf words written = indices ∧
      ∀ position, words * 11 ≤ position → bitAt written position = false := by
  have hlength : (zeroBuffer room).length = room := List.length_replicate
  obtain ⟨written, hwritten, hsame, hplaces⟩ := @writeIndices_spec (zeroBuffer room) 0 indices.val
    (by rw [indices.property, hlength]; omega) fun position _ => bitAt_zeroBuffer room position
  rw [indices.property] at hplaces
  refine ⟨written, hwritten, hsame.trans hlength, Subtype.ext ?_, fun position hposition => ?_⟩
  · apply List.ext_getElem
    · rw [(indicesOf words written).property, indices.property]
    · intro i hi hi'
      have hword : i < words := by rwa [indices.property] at hi'
      have hlt := UInt16.lt_iff_toNat_lt.mp (hindices _ (List.getElem_mem hi'))
      have hfield : bitField written (i * 11) 11 = (indices.val[i]).toNat := by
        apply Nat.eq_of_testBit_eq
        intro j
        by_cases hj : j < 11
        · have hindex : (i * 11 + (11 - 1 - j) - 0) / 11 = i := by omega
          have hplace : 10 - (i * 11 + (11 - 1 - j) - 0) % 11 = j := by omega
          rw [testBit_bitField written (i * 11) 11 hj, hplaces, if_pos (by omega), hindex, hplace,
            List.getD_eq_getElem _ _ hi']
        · have hpow : 2 ^ 11 ≤ 2 ^ j := Nat.pow_le_pow_right (by decide) (Nat.not_lt.mp hj)
          rw [Nat.testBit_lt_two_pow (Nat.lt_of_lt_of_le (bitField_lt written (i * 11) 11) hpow),
            Nat.testBit_lt_two_pow (Nat.lt_of_lt_of_le hlt hpow)]
      simp only [indicesOf, List.getElem_map, List.getElem_range]
      rw [hfield, UInt16.ofNat_toNat]
  · rw [hplaces, if_neg (by omega), bitAt_zeroBuffer]

/-- Reading indices off a buffer and writing them again, if the rest of the buffer is empty. -/
theorem writeIndices_indicesOf {combined : Bytes} (hlength : combined.length = room)
    (hroom : words * 11 ≤ 8 * room)
    (hclear : ∀ position, words * 11 ≤ position → position < 8 * room →
      bitAt combined position = false) :
    writeIndices (zeroBuffer room) 0 (indicesOf words combined).val = some combined := by
  have hempty : (zeroBuffer room).length = room := List.length_replicate
  obtain ⟨written, hwritten, hsame, hplaces⟩ := @writeIndices_spec (zeroBuffer room) 0
    (indicesOf words combined).val (by rw [(indicesOf words combined).property, hempty]; omega)
    fun position _ => bitAt_zeroBuffer room position
  rw [hwritten]
  apply congrArg some
  apply bitAt_ext (by rw [hsame, hempty, hlength])
  intro position hposition
  rw [hsame, hempty] at hposition
  rw [hplaces, (indicesOf words combined).property]
  by_cases hin : position < words * 11
  · have hindex : (position - 0) / 11 < words := by omega
    have hmod := Nat.mod_lt (position - 0) (show 0 < 11 by decide)
    have hget : ((indicesOf words combined).val.getD ((position - 0) / 11) 0).toNat =
        bitField combined ((position - 0) / 11 * 11) 11 := by
      rw [List.getD_eq_getElem _ _ (by rwa [(indicesOf words combined).property])]
      simp only [indicesOf, List.getElem_map, List.getElem_range]
      exact UInt16.toNat_ofNat_of_lt' (Nat.lt_trans (bitField_lt combined _ 11) (by decide))
    have hplace : (position - 0) / 11 * 11 + (11 - 1 - (10 - (position - 0) % 11)) = position := by
      omega
    rw [if_pos (by omega), hget, testBit_bitField combined _ 11 (by omega), hplace]
  · rw [if_neg (by omega), bitAt_zeroBuffer, hclear position (by omega) hposition]

/-- The indices of a buffer have eleven bits. -/
theorem indicesOf_lt (combined : Bytes) : ∀ index ∈ (indicesOf words combined).val, index < 2048 := by
  intro index hindex
  obtain ⟨i, _, rfl⟩ := List.mem_map.mp hindex
  have hfield := bitField_lt combined (i * 11) 11
  rw [UInt16.lt_iff_toNat_lt, UInt16.toNat_ofNat_of_lt' (Nat.lt_trans hfield (by decide))]
  exact hfield

end

/-! ## The checksum -/

theorem highNibble_testBit {k : Nat} (h : k < 8) : (0xF0 : Nat).testBit k = decide (4 ≤ k) := by
  have hall : ∀ k : Fin 8, (0xF0 : Nat).testBit k.val = decide (4 ≤ k.val) := by decide
  exact hall ⟨k, h⟩

theorem shiftRight_four_testBit (byte : UInt8) (k : Nat) :
    (byte >>> 4).toNat.testBit k = byte.toNat.testBit (4 + k) := by
  rw [UInt8.toNat_shiftRight]
  exact Nat.testBit_shiftRight byte.toNat

theorem and_highNibble_testBit (hash : UInt8) {k : Nat} (h : k < 8) :
    (hash &&& 0xF0).toNat.testBit k = (hash.toNat.testBit k && decide (4 ≤ k)) := by
  rw [UInt8.toNat_and, Nat.testBit_and]
  exact congrArg (hash.toNat.testBit k && ·) (highNibble_testBit h)

/-- A byte with an empty low half is the checksum byte of every hash that agrees with its high
half. -/
theorem eq_checksumByte_iff {byte hash : UInt8}
    (hclear : ∀ k < 4, byte.toNat.testBit k = false) :
    byte = hash &&& 0xF0 ↔ byte >>> 4 = hash >>> 4 := by
  constructor
  · intro h
    apply byte_eq_of_testBit
    intro k hk
    rw [shiftRight_four_testBit, shiftRight_four_testBit, h]
    by_cases hlow : 4 + k < 8
    · rw [and_highNibble_testBit hash hlow, decide_eq_true (by omega), Bool.and_true]
    · have hpow : 2 ^ 8 ≤ 2 ^ (4 + k) := Nat.pow_le_pow_right (by decide) (Nat.not_lt.mp hlow)
      rw [Nat.testBit_lt_two_pow (Nat.lt_of_lt_of_le (UInt8.toNat_lt _) hpow),
        Nat.testBit_lt_two_pow (Nat.lt_of_lt_of_le (UInt8.toNat_lt _) hpow)]
  · intro h
    apply byte_eq_of_testBit
    intro k hk
    rw [and_highNibble_testBit hash hk]
    by_cases hlow : k < 4
    · rw [hclear k hlow, decide_eq_false (by omega), Bool.and_false]
    · have hplace : 4 + (k - 4) = k := by omega
      have hbit := congrArg (fun byte => byte.toNat.testBit (k - 4)) h
      rw [shiftRight_four_testBit, shiftRight_four_testBit, hplace] at hbit
      rw [hbit, decide_eq_true (by omega), Bool.and_true]

/-- A buffer with one byte more than the entropy. -/
theorem exists_append_last {bits : Bytes} {n : Nat} (h : bits.length = n + 1) :
    ∃ (entropy : FixedBytes n) (last : UInt8), bits = entropy.val ++ [last] := by
  have hne : bits ≠ [] := List.ne_nil_of_length_pos (by omega)
  refine ⟨⟨bits.dropLast, ?_⟩, bits.getLast hne, (List.dropLast_append_getLast hne).symm⟩
  rw [List.length_dropLast]
  omega

theorem bitAt_last {n : Nat} (entropy : FixedBytes n) (last : UInt8) {k : Nat} (h : k < 8) :
    bitAt (entropy.val ++ [last]) (8 * n + (7 - k)) = last.toNat.testBit k := by
  have hindex : (8 * n + (7 - k)) / 8 = n := by omega
  have hplace : 7 - (8 * n + (7 - k)) % 8 = k := by omega
  rw [bitAt, hindex, hplace, List.getD_eq_getElem?_getD, List.getElem?_append_right
    (by rw [entropy.property]), entropy.property, Nat.sub_self]
  rfl

theorem append_last_inj {n : Nat} {entropy entropy' : FixedBytes n} {last last' : UInt8}
    (h : entropy.val ++ [last] = entropy'.val ++ [last']) : entropy = entropy' ∧ last = last' := by
  obtain ⟨hentropy, hlast⟩ :=
    List.append_inj h (entropy.property.trans entropy'.property.symm)
  exact ⟨Subtype.ext hentropy, (List.cons.inj hlast).1⟩

/-! ## Twelve words -/

theorem indicesToEntropy12_eq {indices : Indices 12} {entropy : FixedBytes 16} {last : UInt8}
    (h : writeIndices (zeroBuffer 17) 0 indices.val = some (entropy.val ++ [last])) :
    indicesToEntropy12 indices = some (entropy.val, last >>> 4) := by
  have hentropy : upTo (entropy.val ++ [last]) 16 = some entropy.val := by
    have hprefix := upTo_of_prefix (List.prefix_append entropy.val [last])
    rwa [entropy.property] at hprefix
  have hlast : (entropy.val ++ [last])[16]? = some last := by
    rw [List.getElem?_append_right (by rw [entropy.property]), entropy.property]
    rfl
  rw [indicesToEntropy12, h]
  change (upTo (entropy.val ++ [last]) 16).bind _ = _
  rw [hentropy]
  change ((entropy.val ++ [last])[16]?).bind _ = _
  rw [hlast]
  rfl

theorem checksumByte_clear (entropy : FixedBytes 16) (hash : UInt8) {position : Nat}
    (hposition : 12 * 11 ≤ position) (hlt : position < 8 * 17) :
    bitAt (entropy.val ++ [hash &&& 0xF0]) position = false := by
  have hplace : position = 8 * 16 + (7 - (135 - position)) := by omega
  rw [hplace, bitAt_last entropy _ (by omega), and_highNibble_testBit hash (by omega),
    decide_eq_false (by omega), Bool.and_false]

section
variable (sha256FirstByte : Bytes → UInt8)

theorem mnemonicFromEntropy12_eq (entropy : FixedBytes 16) :
    mnemonicFromEntropy12 sha256FirstByte entropy =
      some ⟨indicesOf 12 (entropy.val ++ [sha256FirstByte entropy.val &&& 0xF0])⟩ := by
  have hlength : (entropy.val ++ [sha256FirstByte entropy.val &&& 0xF0]).length = 17 := by
    rw [List.length_append, entropy.property]
    rfl
  rw [mnemonicFromEntropy12, entropyToIndices12, entropyToIndices_eq (by rw [hlength]; decide)]
  rfl

/-- The bits that the words of an entropy stand for. -/
theorem writeIndices_mnemonic12 {entropy : FixedBytes 16} {mnemonic : Mnemonic12}
    (h : mnemonicFromEntropy12 sha256FirstByte entropy = some mnemonic) :
    writeIndices (zeroBuffer 17) 0 mnemonic.indices.val =
      some (entropy.val ++ [sha256FirstByte entropy.val &&& 0xF0]) := by
  rw [mnemonicFromEntropy12_eq] at h
  rw [← Option.some.inj h]
  apply writeIndices_indicesOf
  · rw [List.length_append, entropy.property]
    rfl
  · decide
  · exact fun position hposition hlt => checksumByte_clear entropy _ hposition hlt

theorem validateMnemonic12_iff {mnemonic : Mnemonic12}
    (hindices : ∀ index ∈ mnemonic.indices.val, index < 2048) :
    validateMnemonic12 sha256FirstByte mnemonic = some (.ok ()) ↔
      ∃ entropy, mnemonicFromEntropy12 sha256FirstByte entropy = some mnemonic := by
  obtain ⟨bits, hbits, hlength, hreads, hclear⟩ :=
    writeIndices_reads (show 12 * 11 ≤ 8 * 17 by decide) hindices
  obtain ⟨entropy, last, rfl⟩ := exists_append_last hlength
  have hlast : ∀ k < 4, last.toNat.testBit k = false := by
    intro k hk
    rw [← bitAt_last entropy last (by omega)]
    exact hclear _ (by omega)
  have hvalid : validateMnemonic12 sha256FirstByte mnemonic = some (.ok ()) ↔
      last = sha256FirstByte entropy.val &&& 0xF0 := by
    rw [eq_checksumByte_iff hlast, validateMnemonic12, indicesToEntropy12_eq hbits]
    change some (if last >>> 4 ≠ _ then _ else _) = some _ ↔ _
    by_cases hsame : last >>> 4 = sha256FirstByte entropy.val >>> 4
    · rw [if_neg (not_not_intro hsame)]
      exact ⟨fun _ => hsame, fun _ => rfl⟩
    · rw [if_pos hsame]
      exact ⟨fun h => (nomatch Option.some.inj h), fun h => absurd h hsame⟩
  rw [hvalid]
  constructor
  · intro hchecksum
    refine ⟨entropy, ?_⟩
    rw [mnemonicFromEntropy12_eq, ← hchecksum, hreads]
  · intro h
    obtain ⟨source, hsource⟩ := h
    have hsame := hbits.symm.trans (writeIndices_mnemonic12 sha256FirstByte hsource)
    obtain ⟨hentropy, hlast⟩ := append_last_inj (Option.some.inj hsame)
    rw [hlast, hentropy]

end

/-! ## Twenty-four words -/

theorem indicesToEntropy24_eq {indices : Indices 24} {entropy : FixedBytes 32} {last : UInt8}
    (h : writeIndices (zeroBuffer 33) 0 indices.val = some (entropy.val ++ [last])) :
    indicesToEntropy24 indices = some (entropy.val, last) := by
  have hentropy : upTo (entropy.val ++ [last]) 32 = some entropy.val := by
    have hprefix := upTo_of_prefix (List.prefix_append entropy.val [last])
    rwa [entropy.property] at hprefix
  have hlast : (entropy.val ++ [last])[32]? = some last := by
    rw [List.getElem?_append_right (by rw [entropy.property]), entropy.property]
    rfl
  rw [indicesToEntropy24, h]
  change (upTo (entropy.val ++ [last]) 32).bind _ = _
  rw [hentropy]
  change ((entropy.val ++ [last])[32]?).bind _ = _
  rw [hlast]
  rfl

section
variable (sha256FirstByte : Bytes → UInt8)

theorem mnemonicFromEntropy24_eq (entropy : FixedBytes 32) :
    mnemonicFromEntropy24 sha256FirstByte entropy =
      some ⟨indicesOf 24 (entropy.val ++ [sha256FirstByte entropy.val])⟩ := by
  have hlength : (entropy.val ++ [sha256FirstByte entropy.val]).length = 33 := by
    rw [List.length_append, entropy.property]
    rfl
  rw [mnemonicFromEntropy24, entropyToIndices24, entropyToIndices_eq (by rw [hlength])]
  rfl

/-- Twenty-four words take up every bit of the buffer. -/
theorem writeIndices_mnemonic24 {entropy : FixedBytes 32} {mnemonic : Mnemonic24}
    (h : mnemonicFromEntropy24 sha256FirstByte entropy = some mnemonic) :
    writeIndices (zeroBuffer 33) 0 mnemonic.indices.val =
      some (entropy.val ++ [sha256FirstByte entropy.val]) := by
  rw [mnemonicFromEntropy24_eq] at h
  rw [← Option.some.inj h]
  apply writeIndices_indicesOf
  · rw [List.length_append, entropy.property]
    rfl
  · decide
  · exact fun position hposition hlt => absurd hlt (Nat.not_lt.mpr hposition)

theorem validateMnemonic24_iff {mnemonic : Mnemonic24}
    (hindices : ∀ index ∈ mnemonic.indices.val, index < 2048) :
    validateMnemonic24 sha256FirstByte mnemonic = some (.ok ()) ↔
      ∃ entropy, mnemonicFromEntropy24 sha256FirstByte entropy = some mnemonic := by
  obtain ⟨bits, hbits, hlength, hreads, _⟩ :=
    writeIndices_reads (show 24 * 11 ≤ 8 * 33 by decide) hindices
  obtain ⟨entropy, last, rfl⟩ := exists_append_last hlength
  have hvalid : validateMnemonic24 sha256FirstByte mnemonic = some (.ok ()) ↔
      last = sha256FirstByte entropy.val := by
    rw [validateMnemonic24, indicesToEntropy24_eq hbits]
    change some (if last ≠ _ then _ else _) = some _ ↔ _
    by_cases hsame : last = sha256FirstByte entropy.val
    · rw [if_neg (not_not_intro hsame)]
      exact ⟨fun _ => hsame, fun _ => rfl⟩
    · rw [if_pos hsame]
      exact ⟨fun h => (nomatch Option.some.inj h), fun h => absurd h hsame⟩
  rw [hvalid]
  constructor
  · intro hchecksum
    refine ⟨entropy, ?_⟩
    rw [mnemonicFromEntropy24_eq, ← hchecksum, hreads]
  · intro h
    obtain ⟨source, hsource⟩ := h
    have hsame := hbits.symm.trans (writeIndices_mnemonic24 sha256FirstByte hsource)
    obtain ⟨hentropy, hlast⟩ := append_last_inj (Option.some.inj hsame)
    rw [hlast, hentropy]

/-- Words of eleven bits are accepted exactly when they are those of some entropy, which the
indices give back; and every entropy has words of eleven bits. -/
theorem mnemonic_encoding :
    ((∀ mnemonic : Mnemonic12, (∀ index ∈ mnemonic.indices.val, index < 2048) →
        (validateMnemonic12 sha256FirstByte mnemonic = some (.ok ()) ↔
          ∃! entropy, mnemonicFromEntropy12 sha256FirstByte entropy = some mnemonic)) ∧
      ∀ entropy : FixedBytes 16, ∃ mnemonic,
        mnemonicFromEntropy12 sha256FirstByte entropy = some mnemonic ∧
        (∀ index ∈ mnemonic.indices.val, index < 2048) ∧
        indicesToEntropy12 mnemonic.indices =
          some (entropy.val, sha256FirstByte entropy.val >>> 4)) ∧
    (∀ mnemonic : Mnemonic24, (∀ index ∈ mnemonic.indices.val, index < 2048) →
        (validateMnemonic24 sha256FirstByte mnemonic = some (.ok ()) ↔
          ∃! entropy, mnemonicFromEntropy24 sha256FirstByte entropy = some mnemonic)) ∧
      ∀ entropy : FixedBytes 32, ∃ mnemonic,
        mnemonicFromEntropy24 sha256FirstByte entropy = some mnemonic ∧
        (∀ index ∈ mnemonic.indices.val, index < 2048) ∧
        indicesToEntropy24 mnemonic.indices =
          some (entropy.val, sha256FirstByte entropy.val) := by
  refine ⟨⟨fun mnemonic hindices => ?_, fun entropy => ?_⟩, fun mnemonic hindices => ?_,
    fun entropy => ?_⟩
  · rw [validateMnemonic12_iff sha256FirstByte hindices]
    constructor
    · intro h
      obtain ⟨entropy, hentropy⟩ := h
      refine ⟨entropy, hentropy, fun other hother => ?_⟩
      have hsame := (writeIndices_mnemonic12 sha256FirstByte hother).symm.trans
        (writeIndices_mnemonic12 sha256FirstByte hentropy)
      exact (append_last_inj (Option.some.inj hsame)).1
    · exact fun h => h.exists
  · have hmnemonic := mnemonicFromEntropy12_eq sha256FirstByte entropy
    refine ⟨_, hmnemonic, indicesOf_lt _, ?_⟩
    rw [indicesToEntropy12_eq (writeIndices_mnemonic12 sha256FirstByte hmnemonic)]
    have hclear : ∀ k < 4, (sha256FirstByte entropy.val &&& 0xF0).toNat.testBit k = false := by
      intro k hk
      rw [and_highNibble_testBit _ (by omega), decide_eq_false (by omega), Bool.and_false]
    rw [(eq_checksumByte_iff hclear).mp rfl]
  · rw [validateMnemonic24_iff sha256FirstByte hindices]
    constructor
    · intro h
      obtain ⟨entropy, hentropy⟩ := h
      refine ⟨entropy, hentropy, fun other hother => ?_⟩
      have hsame := (writeIndices_mnemonic24 sha256FirstByte hother).symm.trans
        (writeIndices_mnemonic24 sha256FirstByte hentropy)
      exact (append_last_inj (Option.some.inj hsame)).1
    · exact fun h => h.exists
  · have hmnemonic := mnemonicFromEntropy24_eq sha256FirstByte entropy
    refine ⟨_, hmnemonic, indicesOf_lt _, ?_⟩
    rw [indicesToEntropy24_eq (writeIndices_mnemonic24 sha256FirstByte hmnemonic)]

/-- Eleven times the first word and the fourth are the words of zeros, if their hash starts
with `0x37`. -/
theorem mnemonic_encoding_sample :
    validateMnemonic12 (fun _ => 0x37) ⟨⟨List.replicate 11 0 ++ [3], rfl⟩⟩ = some (.ok ()) := by
  have hindices : ∀ index ∈ List.replicate 11 (0 : UInt16) ++ [3], index < 2048 := by
    intro index hindex
    cases List.mem_append.mp hindex with
    | inl hzero => rw [List.eq_of_mem_replicate hzero]; decide
    | inr hlast => rw [List.mem_singleton.mp hlast]; decide
  refine ((mnemonic_encoding fun _ => 0x37).1.1 ⟨⟨List.replicate 11 0 ++ [3], rfl⟩⟩ hindices).mpr ?_
  refine ⟨⟨List.replicate 16 0, rfl⟩, by decide, fun other hother => ?_⟩
  have hbits := writeIndices_mnemonic12 (fun _ => 0x37) hother
  have hzeros : writeIndices (zeroBuffer 17) 0 (List.replicate 11 (0 : UInt16) ++ [3]) =
      some (List.replicate 16 0 ++ [0x30]) := by
    decide
  have hsame := Option.some.inj (hbits.symm.trans hzeros)
  exact Subtype.ext (List.append_inj hsame other.property).1

end

end KaspaPortal.Wallet.Mnemonic
