import Mathlib.Data.List.DropRight
import KaspaPortal.Primitives.AddressCodec
import KaspaPortal.Wallet.Multisig.Permuted

/-!
# Descriptors as the wallets write them

One line without spaces: the name of the kind, a digit, and the keys behind commas. The parser finds
the keys again, one part each.
-/
namespace KaspaPortal.Wallet.Multisig
open Lib Lib.Json Primitives Wallet.Key

/-- The name of the kind, up to the parenthesis. -/
def kindText : MultisigDescriptorKind → Bytes
  | .static => ascii "multi("
  | .hd44 => ascii "multi_hd("
  | .hd45 => ascii "multi_hd45("

/-- Every key behind a comma. -/
def listedKeys (keys : List Bytes) : Bytes := keys.flatMap fun key => 0x2c :: key

def writtenDescriptor (kind : MultisigDescriptorKind) (threshold : UInt8) (keys : List Bytes) : Bytes :=
  kindText kind ++ [0x30 + threshold] ++ listedKeys keys ++ ascii ")"

/-- A byte of a key: neither a separator nor a space. -/
def PlainByte (byte : UInt8) : Prop :=
  byte ≠ 0x2c ∧ byte ≠ 0x20 ∧ byte ≠ 0x09 ∧ byte ≠ 0x0d ∧ byte ≠ 0x0a

structure PlainKey (key : Bytes) : Prop where
  ne_nil : key ≠ []
  plain : ∀ byte ∈ key, PlainByte byte

theorem plainByte_of_hex {byte : UInt8} (h : (0x30 ≤ byte ∧ byte ≤ 0x39) ∨ (0x61 ≤ byte ∧ byte ≤ 0x66)) :
    PlainByte byte := by
  refine ⟨?_, ?_, ?_, ?_, ?_⟩ <;>
  · intro heq
    rw [heq] at h
    revert h
    decide

/-! ## Trimming -/

theorem rdropWhile_of_last {p : UInt8 → Bool} (front : Bytes) {last : UInt8} (h : p last = false) :
    (front ++ [last]).rdropWhile p = front ++ [last] :=
  List.rdropWhile_concat_neg p front last (by rw [h]; exact Bool.false_ne_true)

theorem trimTrailing_plain {text : Bytes} (h : ∀ byte ∈ text, PlainByte byte) :
    trimTrailingAsciiWhitespace text = text := by
  cases List.eq_nil_or_concat' text with
  | inl hnil =>
    rw [hnil]
    rfl
  | inr hlast =>
    obtain ⟨front, last, rfl⟩ := hlast
    obtain ⟨_, hspace, htab, hreturn, hnewline⟩ := h last (by simp)
    exact rdropWhile_of_last front (by simp [hspace, htab, hreturn, hnewline])

theorem trimAscii_plain {text : Bytes} (h : ∀ byte ∈ text, PlainByte byte) : trimAscii text = text := by
  have hdrop : text.dropWhile (fun byte => byte = 0x20 ∨ byte = 0x09 ∨ byte = 0x0d) = text := by
    cases text with
    | nil => rfl
    | cons first rest =>
      obtain ⟨_, hspace, htab, hreturn, _⟩ := h first (by simp)
      exact List.dropWhile_cons_of_neg (by simp [hspace, htab, hreturn])
  rw [trimAscii, hdrop, trimTrailing_plain h]

/-! ## Parts -/

theorem splitOnce_of_notMem {separator : UInt8} {text : Bytes} (h : separator ∉ text) :
    splitOnce separator text = none := by
  have hdrop : text.dropWhile (· ≠ separator) = [] := by
    rw [List.dropWhile_eq_nil_iff]
    intro byte hbyte
    exact decide_eq_true fun heq => h (heq ▸ hbyte)
  rw [splitOnce, hdrop]

theorem PlainKey.comma_notMem {key : Bytes} (h : PlainKey key) : (0x2c : UInt8) ∉ key :=
  fun hmem => (h.plain 0x2c hmem).1 rfl

/-- The keys behind the first one come back as they were listed. -/
theorem partsWithin_listed {key : Bytes} {keys : List Bytes} {fuel : Nat} (hkey : PlainKey key)
    (hkeys : ∀ other ∈ keys, PlainKey other) (hfuel : keys.length < fuel) :
    partsWithin fuel (key ++ listedKeys keys) = key :: keys := by
  induction keys generalizing key fuel with
  | nil =>
    obtain ⟨fuel, rfl⟩ : ∃ n, fuel = n + 1 := ⟨fuel - 1, by simp at hfuel; omega⟩
    rw [listedKeys, List.flatMap_nil, List.append_nil, partsWithin, if_neg hkey.ne_nil, nextPart,
      splitOnce_of_notMem hkey.comma_notMem]
    simp only
    rw [trimAscii_plain hkey.plain]
    cases fuel <;> rfl
  | cons next keys ih =>
    obtain ⟨fuel, rfl⟩ : ∃ n, fuel = n + 1 := ⟨fuel - 1, by omega⟩
    have htext : key ++ listedKeys (next :: keys) = key ++ [0x2c] ++ (next ++ listedKeys keys) := by
      simp [listedKeys]
    have hne : key ++ [0x2c] ++ (next ++ listedKeys keys) ≠ [] := by simp
    rw [htext, partsWithin, if_neg hne, nextPart, splitOnce_append hkey.comma_notMem]
    simp only
    rw [trimAscii_plain hkey.plain]
    rw [List.length_cons] at hfuel
    rw [ih (hkeys next (by simp)) (fun other hother => hkeys other (by simp [hother])) (by omega)]

theorem length_listedKeys (keys : List Bytes) : keys.length ≤ (listedKeys keys).length := by
  induction keys with
  | nil => exact Nat.le_refl _
  | cons key keys ih =>
    rw [listedKeys, List.flatMap_cons, List.length_append, List.length_cons, List.length_cons]
    rw [listedKeys] at ih
    omega

theorem parts_listed {key : Bytes} {keys : List Bytes} (hkey : PlainKey key)
    (hkeys : ∀ other ∈ keys, PlainKey other) : parts (key ++ listedKeys keys) = key :: keys := by
  apply partsWithin_listed hkey hkeys
  have hlength := length_listedKeys keys
  have hfirst := List.length_pos_iff.mpr hkey.ne_nil
  rw [List.length_append]
  omega

/-! ## The line -/

section line
variable {kind : MultisigDescriptorKind} {threshold : UInt8} {key : Bytes} {keys : List Bytes}

theorem newline_notMem_listedKeys (hkeys : ∀ key ∈ keys, PlainKey key) : (0x0a : UInt8) ∉ listedKeys keys := by
  intro hmem
  obtain ⟨key, hkey, hbyte⟩ := List.mem_flatMap.mp hmem
  obtain heq | hbyte := List.mem_cons.mp hbyte
  · cases heq
  · exact ((hkeys key hkey).plain 0x0a hbyte).2.2.2.2 rfl

theorem digit_range {threshold : UInt8} (h : threshold < 10) : 0x30 ≤ 0x30 + threshold ∧ 0x30 + threshold ≤ 0x39 := by
  rw [UInt8.lt_iff_toNat_lt] at h
  have hvalue : (0x30 + threshold).toNat = 0x30 + threshold.toNat := by
    rw [UInt8.toNat_add]
    exact Nat.mod_eq_of_lt (by change 0x30 + threshold.toNat < 256; change _ < 10 at h; omega)
  rw [UInt8.le_iff_toNat_le, UInt8.le_iff_toNat_le, hvalue]
  change 0x30 ≤ 0x30 + threshold.toNat ∧ 0x30 + threshold.toNat ≤ 0x39
  change _ < 10 at h
  omega

theorem digit_plain {threshold : UInt8} (h : threshold < 10) : PlainByte (0x30 + threshold) :=
  plainByte_of_hex (.inl (digit_range h))

theorem newline_notMem_written (hthreshold : threshold < 10) (hkeys : ∀ key ∈ keys, PlainKey key) :
    (0x0a : UInt8) ∉ writtenDescriptor kind threshold keys := by
  intro hmem
  simp only [writtenDescriptor, List.mem_append, List.mem_singleton] at hmem
  obtain ((hname | hdigit) | hlisted) | hclose := hmem
  · revert hname
    cases kind <;> decide
  · exact (digit_plain hthreshold).2.2.2.2 hdigit.symm
  · exact newline_notMem_listedKeys hkeys hlisted
  · revert hclose
    decide

/-- Nothing stands around the line. -/
theorem descriptorLine_written (hthreshold : threshold < 10) (hkeys : ∀ key ∈ keys, PlainKey key) :
    descriptorLine (trimTrailingAsciiWhitespace (writtenDescriptor kind threshold keys)) =
      writtenDescriptor kind threshold keys := by
  have htrailing : trimTrailingAsciiWhitespace (writtenDescriptor kind threshold keys) =
      writtenDescriptor kind threshold keys := rdropWhile_of_last _ rfl
  have htrim : trimAscii (writtenDescriptor kind threshold keys) = writtenDescriptor kind threshold keys := by
    have hfirst : (writtenDescriptor kind threshold keys).dropWhile
        (fun byte => byte = 0x20 ∨ byte = 0x09 ∨ byte = 0x0d) = writtenDescriptor kind threshold keys := by
      cases kind <;> rfl
    rw [trimAscii, hfirst, htrailing]
  have hsplit : (writtenDescriptor kind threshold keys).splitOn 0x0a = [writtenDescriptor kind threshold keys] := by
    apply List.splitOnP_eq_singleton
    intro byte hbyte
    rw [beq_eq_false_iff_ne]
    intro heq
    exact newline_notMem_written hthreshold hkeys (heq ▸ hbyte)
  rw [htrailing, descriptorLine, hsplit, List.map_singleton, htrim]
  cases kind <;> rfl

theorem splitThreshold_written (hthreshold : threshold < 10) (rest : Bytes) :
    splitThreshold ([0x30 + threshold] ++ [0x2c] ++ rest) = .ok (threshold, rest) := by
  have hcomma : (0x2c : UInt8) ∉ [0x30 + threshold] := by
    rw [List.mem_singleton]
    exact fun heq => (digit_plain hthreshold).1 heq.symm
  have htrim : trimAscii [0x30 + threshold] = [0x30 + threshold] := by
    apply trimAscii_plain
    intro byte hbyte
    rw [List.mem_singleton.mp hbyte]
    exact digit_plain hthreshold
  have hdigit : isAsciiDigit (0x30 + threshold) = true := by
    simp [isAsciiDigit, digit_range hthreshold]
  have hvalue : decimalValue [0x30 + threshold] = threshold.toNat := by
    rw [decimalValue, List.foldl_cons, List.foldl_nil, UInt8.add_comm, UInt8.add_sub_cancel]
    exact Nat.zero_add _
  have hsmall : ¬256 ≤ threshold.toNat := Nat.not_le.mpr threshold.toNat_lt
  rw [splitThreshold, splitOnce_append hcomma]
  simp only [bind_eq_ok, okOr_eq_ok, rejectIf_eq_ok]
  refine ⟨([0x30 + threshold], rest), rfl, (), ?_, (), ?_, ?_⟩
  · simp [htrim, hdigit]
  · rw [htrim, hvalue]
    exact hsmall
  · simp only
    rw [htrim, hvalue, UInt8.ofNat_toNat]
    rfl

/-- The parser finds the kind, the digit and the list of the keys. -/
theorem descriptorParts_written (hthreshold : threshold < 10) (hkeys : ∀ other ∈ key :: keys, PlainKey other) :
    descriptorParts (writtenDescriptor kind threshold (key :: keys)) =
      .ok (kind, threshold, key ++ listedKeys keys) := by
  have htext : writtenDescriptor kind threshold (key :: keys) = kindText kind ++
      (([0x30 + threshold] ++ [0x2c] ++ (key ++ listedKeys keys)) ++ ascii ")") := by
    simp [writtenDescriptor, listedKeys]
  have hbody : descriptorBody (writtenDescriptor kind threshold (key :: keys)) =
      .ok (kind, [0x30 + threshold] ++ [0x2c] ++ (key ++ listedKeys keys)) := by
    have hclose : (ascii ")").isSuffixOf (writtenDescriptor kind threshold (key :: keys)) = true := by
      rw [List.isSuffixOf_iff_suffix]
      exact List.suffix_append _ _
    have hinner : ((writtenDescriptor kind threshold (key :: keys)).drop (kindText kind).length).dropLast =
        [0x30 + threshold] ++ [0x2c] ++ (key ++ listedKeys keys) := by
      rw [htext, List.drop_left]
      exact List.dropLast_concat
    rw [← hinner]
    have hhd45 : (ascii "multi_hd45(").isPrefixOf (writtenDescriptor kind threshold (key :: keys)) =
        decide (kind = .hd45) := by
      rw [htext]
      cases kind <;> rfl
    have hhd44 : (ascii "multi_hd(").isPrefixOf (writtenDescriptor kind threshold (key :: keys)) =
        decide (kind = .hd44) := by
      rw [htext]
      cases kind <;> rfl
    have hstatic : (ascii "multi(").isPrefixOf (writtenDescriptor kind threshold (key :: keys)) =
        decide (kind = .static) := by
      rw [htext]
      cases kind <;> rfl
    rw [descriptorBody, hhd45, hhd44, hstatic, hclose]
    cases kind <;> rfl
  rw [descriptorParts, descriptorLine_written hthreshold hkeys, hbody]
  simp only [bind_eq_ok]
  exact ⟨_, rfl, _, splitThreshold_written hthreshold _, rfl⟩

end line

/-! ## Keys -/

theorem digits_plain {bytes : Bytes} : ∀ byte ∈ encodeLowerHex bytes, PlainByte byte :=
  fun _ hbyte => plainByte_of_hex (mem_encodeLowerHex hbyte)

end KaspaPortal.Wallet.Multisig
