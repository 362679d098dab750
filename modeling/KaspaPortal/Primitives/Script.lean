import KaspaPortal.Lib.Bytes

/-!
# Script elements

`src/primitives/opcode.rs` and `src/primitives/script.rs`: the opcode bytes and
the one reader every script walker goes through. Offsets are natural numbers;
the source's checked additions cannot fail on a script that fits in memory.

Opcodes that no function here reads by name are bytes like others.
-/
namespace KaspaPortal.Primitives
open Lib

/-- The empty push. -/
abbrev OP_0 : UInt8 := 0x00
/-- Up to 75 the opcode is the number of bytes it pushes. -/
abbrev OP_DATA_32 : UInt8 := 0x20
/-- The longer pushes carry their length in one, two or four bytes. -/
abbrev OP_PUSHDATA1 : UInt8 := 0x4c
abbrev OP_PUSHDATA2 : UInt8 := 0x4d
abbrev OP_PUSHDATA4 : UInt8 := 0x4e
abbrev OP_1 : UInt8 := 0x51
/-- The last of the small integers, and the last opcode that pushes. -/
abbrev OP_16 : UInt8 := 0x60
abbrev OP_IF : UInt8 := 0x63
abbrev OP_NOTIF : UInt8 := 0x64
abbrev OP_ELSE : UInt8 := 0x67
abbrev OP_ENDIF : UInt8 := 0x68
abbrev OP_VERIFY : UInt8 := 0x69
abbrev OP_DROP : UInt8 := 0x75
abbrev OP_DUP : UInt8 := 0x76
/-- Copies the item at the depth it takes off the stack. -/
abbrev OP_PICK : UInt8 := 0x79
abbrev OP_SWAP : UInt8 := 0x7c
abbrev OP_CAT : UInt8 := 0x7e
/-- Takes a part of an item, between two positions. -/
abbrev OP_SUBSTR : UInt8 := 0x7f
abbrev OP_EQUAL : UInt8 := 0x87
abbrev OP_EQUALVERIFY : UInt8 := 0x88
abbrev OP_NOT : UInt8 := 0x91
abbrev OP_ADD : UInt8 := 0x93
abbrev OP_SUB : UInt8 := 0x94
abbrev OP_NUMEQUALVERIFY : UInt8 := 0x9d
abbrev OP_LESSTHANOREQUAL : UInt8 := 0xa1
abbrev OP_GREATERTHANOREQUAL : UInt8 := 0xa2
/-- Includes the lower bound and excludes the upper one. -/
abbrev OP_WITHIN : UInt8 := 0xa5
/-- Checks a proof under the tag on top of the stack. -/
abbrev OP_ZK_PRECOMPILE : UInt8 := 0xa6
abbrev OP_SHA256 : UInt8 := 0xa8
abbrev OP_BLAKE2B : UInt8 := 0xaa
abbrev OP_CHECKSIG : UInt8 := 0xac
abbrev OP_CHECKSIGVERIFY : UInt8 := 0xad
abbrev OP_CHECKMULTISIG : UInt8 := 0xae
/-- Unlike its ancestor, the lock check takes its operand off the stack. -/
abbrev OP_CHECKLOCKTIMEVERIFY : UInt8 := 0xb0
abbrev OP_CHECKSEQUENCEVERIFY : UInt8 := 0xb1
/-- The introspection opcodes read the spending transaction. -/
abbrev OP_TX_INPUT_COUNT : UInt8 := 0xb3
abbrev OP_TX_OUTPUT_COUNT : UInt8 := 0xb4
abbrev OP_TX_INPUT_INDEX : UInt8 := 0xb9
abbrev OP_TX_INPUT_SCRIPT_SIG_SUBSTR : UInt8 := 0xbc
/-- The amount of the entry an input spends. -/
abbrev OP_TX_INPUT_AMOUNT : UInt8 := 0xbe
abbrev OP_TX_INPUT_SPK : UInt8 := 0xbf
abbrev OP_TX_OUTPUT_AMOUNT : UInt8 := 0xc2
abbrev OP_TX_OUTPUT_SPK : UInt8 := 0xc3
abbrev OP_TX_INPUT_SCRIPT_SIG_LEN : UInt8 := 0xc9
/-- The covenant opcodes read the tags of entries and outputs. -/
abbrev OP_INPUT_COVENANT_ID : UInt8 := 0xcf
abbrev OP_COV_INPUT_COUNT : UInt8 := 0xd0
abbrev OP_COV_OUTPUT_COUNT : UInt8 := 0xd2
/-- The position of an output among all, from its position among those of a covenant. -/
abbrev OP_COV_OUTPUT_IDX : UInt8 := 0xd3
/-- Checks a signature over an item rather than over the transaction. -/
abbrev OP_CHECKSIGFROMSTACK : UInt8 := 0xd7

/-- One script element. Non-push opcodes, `OP_0` and small integers carry no data. -/
structure Element where
  opcode : UInt8
  data : Bytes
  deriving DecidableEq, Repr

/-- `script.get(start..stop)`. -/
def slice (script : Bytes) (start stop : Nat) : Option Bytes :=
  if start ≤ stop ∧ stop ≤ script.length then some ((script.take stop).drop start) else none

/-- The width of an element's header and the length of the data after it. -/
def elementHeader (script : Bytes) (offset : Nat) (opcode : UInt8) : Option (Nat × Nat) :=
  if 0x01 ≤ opcode ∧ opcode ≤ 0x4b then some (1, opcode.toNat)
  else if opcode = OP_PUSHDATA1 then (script[offset + 1]?).map fun b => (2, b.toNat)
  else if opcode = OP_PUSHDATA2 then (slice script (offset + 1) (offset + 3)).map fun b => (3, leNat b)
  else if opcode = OP_PUSHDATA4 then (slice script (offset + 1) (offset + 5)).map fun b => (5, leNat b)
  else some (1, 0)

/-- The element at `offset` and the offset just past it. `none` past the end or
on a truncated push. -/
def readElement (script : Bytes) (offset : Nat) : Option (Element × Nat) := do
  let opcode ← script[offset]?
  let (header, length) ← elementHeader script offset opcode
  let start := offset + header
  let stop := start + length
  let data ← slice script start stop
  return (⟨opcode, data⟩, stop)

/-- A range that was cut lies within the script. -/
theorem slice_eq_some {script data : Bytes} {start stop : Nat}
    (h : slice script start stop = some data) :
    start ≤ stop ∧ stop ≤ script.length ∧ data = (script.take stop).drop start := by
  unfold slice at h
  split at h
  · rename_i hb
    exact ⟨hb.1, hb.2, by simpa using h.symm⟩
  · cases h

/-- Cutting out the middle of three parts. -/
theorem slice_append (pre mid post : Bytes) :
    slice (pre ++ (mid ++ post)) pre.length (pre.length + mid.length) = some mid := by
  unfold slice
  rw [if_pos (by simp), ← List.append_assoc, Lib.slice_append]

/-- An element spans at least its opcode and stays inside the script. -/
theorem readElement_bounds {script : Bytes} {offset next : Nat} {e : Element}
    (h : readElement script offset = some (e, next)) : offset < next ∧ next ≤ script.length := by
  unfold readElement at h
  simp only [bind, Option.bind_eq_some_iff] at h
  obtain ⟨op, _, ⟨header, length⟩, hh, data, hs, hr⟩ := h
  have hpos : 0 < header := by
    unfold elementHeader at hh
    split at hh
    · cases hh; decide
    · split at hh
      · obtain ⟨b, _, hb⟩ := Option.map_eq_some_iff.mp hh
        cases hb; decide
      · split at hh
        · obtain ⟨b, _, hb⟩ := Option.map_eq_some_iff.mp hh
          cases hb; decide
        · split at hh
          · obtain ⟨b, _, hb⟩ := Option.map_eq_some_iff.mp hh
            cases hb; decide
          · cases hh; decide
  have hb := slice_eq_some hs
  simp only [pure, Option.some.injEq, Prod.mk.injEq] at hr
  omega

/-- An element's data is what its bytes end with. -/
theorem readElement_data {script : Bytes} {next : Nat} {e : Element}
    (h : readElement script 0 = some (e, next)) : ∃ header, script.take next = header ++ e.data := by
  unfold readElement at h
  simp only [bind, Option.bind_eq_some_iff] at h
  obtain ⟨op, _, ⟨header, length⟩, _, data, hs, hr⟩ := h
  simp only [pure, Option.some.injEq, Prod.mk.injEq] at hr
  obtain ⟨rfl, rfl⟩ := hr
  obtain ⟨-, -, hdata⟩ := slice_eq_some hs
  refine ⟨(script.take (0 + header + length)).take (0 + header), ?_⟩
  rw [hdata, List.take_append_drop]

/-- The reader sees only what follows the offset. -/
theorem readElement_append (pre rest : Bytes) :
    readElement (pre ++ rest) pre.length =
      (readElement rest 0).map fun (e, next) => (e, pre.length + next) := by
  have hget : ∀ k, (pre ++ rest)[pre.length + k]? = rest[k]? := fun k => by
    rw [List.getElem?_append_right (by omega), Nat.add_sub_cancel_left]
  have hslice : ∀ i j, slice (pre ++ rest) (pre.length + i) (pre.length + j) = slice rest i j := by
    intro i j
    have htd : ((pre ++ rest).take (pre.length + j)).drop (pre.length + i) =
        (rest.take j).drop i := by
      rw [List.take_append, List.take_of_length_le (by omega), Nat.add_sub_cancel_left,
        List.drop_append, List.drop_of_length_le (by omega), Nat.add_sub_cancel_left,
        List.nil_append]
    unfold slice
    rw [htd, List.length_append]
    by_cases hc : i ≤ j ∧ j ≤ rest.length
    · rw [if_pos hc, if_pos (by omega)]
    · rw [if_neg hc, if_neg (by omega)]
  have hhead : ∀ op, elementHeader (pre ++ rest) pre.length op = elementHeader rest 0 op := by
    intro op
    simp only [elementHeader, hget, hslice, Nat.zero_add]
  have h0 := hget 0
  simp only [Nat.add_zero] at h0
  simp only [readElement, h0, hhead, bind, pure]
  cases rest[0]? with
  | none => rfl
  | some op =>
    simp only [Option.bind_some]
    cases elementHeader rest 0 op with
    | none => rfl
    | some hl =>
      obtain ⟨header, length⟩ := hl
      simp only [Option.bind_some, Nat.add_assoc, hslice, Nat.zero_add]
      cases slice rest header (header + length) <;> rfl

/-- `OP_0` and every opcode above the pushes is a single byte. -/
theorem readElement_opcode (op : UInt8) (rest : Bytes) (h : op = 0 ∨ 0x4e < op) :
    readElement (op :: rest) 0 = some (⟨op, []⟩, 1) := by
  have hh : elementHeader (op :: rest) 0 op = some (1, 0) := by
    unfold elementHeader
    rcases h with rfl | h
    · rfl
    · have hn : 0x4e < op.toNat := UInt8.lt_iff_toNat_lt.mp h
      have h1 : ¬ (0x01 ≤ op ∧ op ≤ 0x4b) := by
        intro hc
        have := UInt8.le_iff_toNat_le.mp hc.2
        simp at this
        omega
      rw [if_neg h1, if_neg, if_neg, if_neg]
      all_goals
        rintro rfl
        exact absurd hn (by decide)
  simp [readElement, hh, slice, bind, pure]

/-- A direct push: the opcode is the data's length. -/
theorem readElement_direct (data rest : Bytes) (h0 : data ≠ []) (h : data.length ≤ 75) :
    readElement (UInt8.ofNat data.length :: (data ++ rest)) 0 =
      some (⟨UInt8.ofNat data.length, data⟩, 1 + data.length) := by
  have hpos : 0 < data.length := List.length_pos_iff.mpr h0
  have hto : (UInt8.ofNat data.length).toNat = data.length := by
    rw [UInt8.toNat_ofNat']
    omega
  have hh : elementHeader (UInt8.ofNat data.length :: (data ++ rest)) 0
      (UInt8.ofNat data.length) = some (1, data.length) := by
    unfold elementHeader
    rw [if_pos, hto]
    exact ⟨UInt8.le_iff_toNat_le.mpr (by rw [hto]; exact hpos),
      UInt8.le_iff_toNat_le.mpr (by rw [hto]; exact h)⟩
  have hs := slice_append [UInt8.ofNat data.length] data rest
  simp only [List.length_singleton, List.singleton_append] at hs
  simp [readElement, hh, hs, bind, pure]

/-- A push with an explicit length field of one, two or four bytes. -/
theorem readElement_pushdata (op : UInt8) (width : Nat) (data rest : Bytes)
    (hop : op = OP_PUSHDATA1 ∧ width = 1 ∨ op = OP_PUSHDATA2 ∧ width = 2 ∨
      op = OP_PUSHDATA4 ∧ width = 4)
    (h : data.length < 256 ^ width) :
    readElement (op :: (leBytes width data.length ++ (data ++ rest))) 0 =
      some (⟨op, data⟩, 1 + width + data.length) := by
  have hv := leNat_leBytes width data.length h
  have hfield : slice (op :: (leBytes width data.length ++ (data ++ rest))) 1 (1 + width) =
      some (leBytes width data.length) := by
    have := slice_append [op] (leBytes width data.length) (data ++ rest)
    simpa only [List.length_singleton, List.singleton_append, leBytes_length] using this
  have hdata : slice (op :: (leBytes width data.length ++ (data ++ rest))) (1 + width)
      (1 + width + data.length) = some data := by
    have := slice_append (op :: leBytes width data.length) data rest
    simpa only [List.length_cons, leBytes_length, List.cons_append, Nat.add_comm] using this
  have hh : elementHeader (op :: (leBytes width data.length ++ (data ++ rest))) 0 op =
      some (1 + width, data.length) := by
    rcases hop with ⟨rfl, rfl⟩ | ⟨rfl, rfl⟩ | ⟨rfl, rfl⟩
    · have hb : (UInt8.ofNat data.length).toNat = data.length := by
        rw [UInt8.toNat_ofNat']
        omega
      rw [elementHeader, if_neg (by decide), if_pos rfl]
      simp [leBytes, hb]
    · simp only [elementHeader, Nat.zero_add, hfield, Option.map_some, hv]
      rfl
    · simp only [elementHeader, Nat.zero_add, hfield, Option.map_some, hv]
      rfl
  simp only [readElement, List.getElem?_cons_zero, bind, Option.bind_some, hh, Nat.zero_add, hdata,
    pure]

end KaspaPortal.Primitives
