import KaspaPortal.Contract.Script.Push
import KaspaPortal.Lib.Result

/-!
# Scripts as lists of elements

The readers of `src/contract/script/number.rs`, `locktime.rs` and `complete_elements` of
`mod.rs`. The walk carries the rest of the script where the source carries an offset. Over them,
a script is a row of items, each an opcode, an integer or data: it reads back as the
elements of its items, and an integer before an opcode is found among these.

Only readers are here. What the elements do when they run is the machine's part.
-/
namespace KaspaPortal.Contract.Script
open Lib Primitives

/-- What the search keeps of an element: whether an integer stood before an opcode. -/
inductive ScriptItem where
  | opcode
  | integer (value : UInt64)
  | oversizedInteger
  deriving DecidableEq, Repr

/-- Read as unsigned and without a sign bit. -/
def readScriptInt (data : Bytes) : UInt64 := UInt64.ofNat (leNat data)

/-- More than eight bytes cannot be an amount. -/
def classifyPush (data : Bytes) : ScriptItem :=
  if 8 < data.length then .oversizedInteger else .integer (readScriptInt data)

def classifyElement (element : Element) : ScriptItem :=
  if element.opcode ≤ OP_PUSHDATA4 then classifyPush element.data
  else if OP_1 ≤ element.opcode ∧ element.opcode ≤ OP_16 then
    .integer (UInt64.ofNat (element.opcode.toNat - OP_1.toNat + 1))
  else .opcode

/-- One trailing zero octet is a sign and is dropped. -/
def elementInteger (element : Element) : Option UInt64 :=
  let element := if element.data.getLast? = some 0 then { element with data := element.data.dropLast }
    else element
  match classifyElement element with
  | .integer value => some value
  | _ => none

/-- A script that ends inside an element is an error of the search. -/
def nextScriptItem (script : Bytes) : Except String (Nat × ScriptItem) := do
  let (element, next) ← okOr "Truncated script item" (readElement script 0)
  return (next, classifyElement element)

/-- What stands before the opcode looked for. -/
def precedingResult : ScriptItem → Except String (Option UInt64)
  | .integer value => .ok (some value)
  | .oversizedInteger => .error "Script integer exceeds 8 bytes"
  | .opcode => .ok none

/-- The search stops at the first opcode that matches, whatever follows it. -/
def findPrecedingFuel (targetOpcode : UInt8) :
    Nat → ScriptItem → Bytes → Except String (Option UInt64)
  | 0, _, _ => .ok none
  | _ + 1, _, [] => .ok none
  | fuel + 1, previous, currentOpcode :: rest =>
    if currentOpcode = targetOpcode then precedingResult previous
    else do
      let (next, item) ← nextScriptItem (currentOpcode :: rest)
      findPrecedingFuel targetOpcode fuel item ((currentOpcode :: rest).drop next)

/-- Every item is at least one byte, so as many steps as there are bytes reach the end. -/
def findPrecedingScriptInteger (script : Bytes) (targetOpcode : UInt8) :
    Except String (Option UInt64) :=
  findPrecedingFuel targetOpcode script.length .opcode script

/-- The integer before the first absolute lock. -/
def extractCltvLocktime (script : Bytes) : Except String (Option UInt64) :=
  findPrecedingScriptInteger script OP_CHECKLOCKTIMEVERIFY

/-- The integer before the first relative lock. -/
def extractCsvSequence (script : Bytes) : Except String (Option UInt64) :=
  findPrecedingScriptInteger script OP_CHECKSEQUENCEVERIFY

/-- Every element takes at least one byte, so that the length of the script is fuel enough. -/
def elementsFuel : Nat → Bytes → Option (List Element)
  | _, [] => some []
  | 0, _ :: _ => none
  | fuel + 1, b :: rest =>
    (readElement (b :: rest) 0).bind fun (e, next) =>
      (elementsFuel fuel ((b :: rest).drop next)).map (e :: ·)

/-- The elements of a script that ends with its last one. -/
def completeElements (script : Bytes) : Option (List Element) := elementsFuel script.length script

/-! ## Elements that are read -/

theorem elementsFuel_enough (fuel : Nat) (script : Bytes) (h : script.length ≤ fuel) :
    elementsFuel fuel script = completeElements script := by
  induction fuel using Nat.strong_induction_on generalizing script with
  | _ fuel ih =>
    cases script with
    | nil => cases fuel <;> rfl
    | cons b rest =>
      obtain ⟨fuel, rfl⟩ : ∃ n, fuel = n + 1 := ⟨fuel - 1, by simp at h; omega⟩
      simp only [completeElements, List.length_cons, elementsFuel]
      cases hr : readElement (b :: rest) 0 with
      | none => rfl
      | some en =>
        obtain ⟨e, next⟩ := en
        have hb := readElement_bounds hr
        have hd : ((b :: rest).drop next).length ≤ rest.length := by
          simp only [List.length_drop, List.length_cons]
          omega
        simp only [List.length_cons] at h
        simp only [Option.bind_some]
        rw [ih fuel (by omega) _ (by omega)]
        by_cases hf : rest.length < fuel + 1
        · rw [ih rest.length hf _ hd]
        · omega

@[simp] theorem completeElements_nil : completeElements [] = some [] := rfl

/-- One element in front of a script. -/
theorem completeElements_element (enc rest : Bytes) (e : Element) (hne : enc ≠ [])
    (h : readElement (enc ++ rest) 0 = some (e, enc.length)) :
    completeElements (enc ++ rest) = (completeElements rest).map (e :: ·) := by
  obtain ⟨b, bs, rfl⟩ := List.exists_cons_of_ne_nil hne
  rw [List.cons_append] at h ⊢
  rw [completeElements, List.length_cons, elementsFuel, h]
  simp only [Option.bind_some]
  rw [← List.cons_append, List.drop_left, elementsFuel_enough _ _ (by simp)]

theorem readElement_opcode_eq {b : UInt8} {rest : Bytes} {e : Element} {next : Nat}
    (h : readElement (b :: rest) 0 = some (e, next)) : e.opcode = b := by
  unfold readElement at h
  simp only [bind, Option.bind_eq_some_iff, List.getElem?_cons_zero, Option.some.injEq,
    exists_eq_left', pure, Prod.mk.injEq] at h
  obtain ⟨_, _, _, _, he, _⟩ := h
  rw [← he]

theorem leNat_lt_of_short {b : Bytes} (h : b.length ≤ 4) : leNat b < 2 ^ 32 :=
  Nat.lt_of_lt_of_le (leNat_lt b) (Nat.pow_le_pow_right (show 0 < 256 by decide) h)

/-- No length field holds more than four octets. -/
theorem elementHeader_lt {script : Bytes} {offset header length : Nat} {opcode : UInt8}
    (h : elementHeader script offset opcode = some (header, length)) : length < 2 ^ 32 := by
  unfold elementHeader at h
  split at h
  · cases h
    exact Nat.lt_trans opcode.toNat_lt (by decide)
  split at h
  · obtain ⟨b, _, hb⟩ := Option.map_eq_some_iff.mp h
    cases hb
    exact Nat.lt_trans b.toNat_lt (by decide)
  split at h
  · obtain ⟨b, hslice, hb⟩ := Option.map_eq_some_iff.mp h
    cases hb
    obtain ⟨_, _, rfl⟩ := slice_eq_some hslice
    refine leNat_lt_of_short ?_
    rw [List.length_drop, List.length_take]
    omega
  split at h
  · obtain ⟨b, hslice, hb⟩ := Option.map_eq_some_iff.mp h
    cases hb
    obtain ⟨_, _, rfl⟩ := slice_eq_some hslice
    refine leNat_lt_of_short ?_
    rw [List.length_drop, List.length_take]
    omega
  · cases h
    decide

/-- No push is longer than its length field can say. -/
theorem readElement_data_lt {script : Bytes} {offset next : Nat} {e : Element}
    (h : readElement script offset = some (e, next)) : e.data.length < 2 ^ 32 := by
  unfold readElement at h
  obtain ⟨opcode, _, h⟩ := Option.bind_eq_some_iff.mp h
  obtain ⟨⟨header, length⟩, hheader, h⟩ := Option.bind_eq_some_iff.mp h
  obtain ⟨data, hdata, h⟩ := Option.bind_eq_some_iff.mp h
  cases h
  obtain ⟨_, _, rfl⟩ := slice_eq_some hdata
  have hlt := elementHeader_lt hheader
  rw [List.length_drop, List.length_take]
  omega

/-- The same of every element of a script. -/
theorem elementsFuel_data_lt {fuel : Nat} {script : Bytes} {elements : List Element}
    (h : elementsFuel fuel script = some elements) : ∀ e ∈ elements, e.data.length < 2 ^ 32 := by
  induction fuel generalizing script elements with
  | zero =>
    cases script with
    | nil =>
      cases h
      exact List.forall_mem_nil _
    | cons b rest => cases h
  | succ fuel ih =>
    cases script with
    | nil =>
      cases h
      exact List.forall_mem_nil _
    | cons b rest =>
      obtain ⟨⟨e, next⟩, hread, hrest⟩ := Option.bind_eq_some_iff.mp h
      obtain ⟨tail, htail, helements⟩ := Option.map_eq_some_iff.mp hrest
      rw [← helements]
      exact List.forall_mem_cons.mpr ⟨readElement_data_lt hread, ih htail⟩

/-- The integer before the first `target` among elements. -/
def precedingInteger (target : UInt8) : ScriptItem → List Element → Except String (Option UInt64)
  | _, [] => .ok none
  | previous, e :: rest =>
    if e.opcode = target then precedingResult previous
    else precedingInteger target (classifyElement e) rest

/-- The search over bytes is the search over elements. -/
theorem findPrecedingFuel_eq {target : UInt8} {fuel : Nat} {previous : ScriptItem} {script : Bytes}
    {elements : List Element} (h : elementsFuel fuel script = some elements) :
    findPrecedingFuel target fuel previous script = precedingInteger target previous elements := by
  induction fuel generalizing previous script elements with
  | zero =>
    cases script with
    | nil =>
      cases h
      rfl
    | cons b rest => cases h
  | succ fuel ih =>
    cases script with
    | nil =>
      cases h
      rfl
    | cons b rest =>
      obtain ⟨⟨e, next⟩, hread, hrest⟩ := Option.bind_eq_some_iff.mp h
      obtain ⟨tail, htail, helements⟩ := Option.map_eq_some_iff.mp hrest
      rw [← helements, findPrecedingFuel, precedingInteger, readElement_opcode_eq hread]
      split
      · rfl
      · rw [nextScriptItem, hread]
        exact ih htail

/-- So the search can be reasoned about on the elements the builder wrote. -/
theorem findPrecedingScriptInteger_eq {script : Bytes} {elements : List Element}
    (h : completeElements script = some elements) (target : UInt8) :
    findPrecedingScriptInteger script target = precedingInteger target .opcode elements :=
  findPrecedingFuel_eq h

/-! ## Items -/

/-- What a builder pushes next. -/
inductive Item where
  | op (opcode : UInt8)
  | int (value : UInt64)
  | data (bytes : Bytes)

/-- The element of `push_int`. -/
def intElement (value : UInt64) : Element :=
  if value = 0 then ⟨OP_0, []⟩
  else if value ≤ 16 then ⟨0x50 + UInt8.ofNat value.toNat, []⟩
  else ⟨UInt8.ofNat (trimmedInt value.toNat).length, trimmedInt value.toNat⟩

/-- The element of `push_data`. -/
def dataElement (bytes : Bytes) : Element :=
  if bytes.length ≤ 75 then ⟨UInt8.ofNat bytes.length, bytes⟩
  else if bytes.length ≤ 0xff then ⟨OP_PUSHDATA1, bytes⟩
  else if bytes.length ≤ 0xffff then ⟨OP_PUSHDATA2, bytes⟩
  else ⟨OP_PUSHDATA4, bytes⟩

namespace Item

/-- An item as the builder writes it. -/
def bytes : Item → Bytes
  | op opcode => [opcode]
  | int value => pushInt value
  | data bytes => pushData bytes

/-- An item as a reader sees it. -/
def element : Item → Element
  | op opcode => ⟨opcode, []⟩
  | int value => intElement value
  | data bytes => dataElement bytes

/-- An opcode that pushes nothing that follows it, or data that can be pushed. -/
def Readable : Item → Prop
  | op opcode => opcode = 0 ∨ OP_PUSHDATA4 < opcode
  | int _ => True
  | data bytes => Pushable bytes

end Item

/-- The script of a row of items. -/
def scriptOf (items : List Item) : Bytes := items.flatMap Item.bytes

@[simp] theorem scriptOf_nil : scriptOf [] = [] := rfl

@[simp] theorem scriptOf_cons (item : Item) (items : List Item) :
    scriptOf (item :: items) = item.bytes ++ scriptOf items := rfl

@[simp] theorem scriptOf_append (front back : List Item) :
    scriptOf (front ++ back) = scriptOf front ++ scriptOf back := List.flatMap_append

/-- A key is pushed like other data of its length. -/
theorem pushPubkey_eq (key : FixedBytes 32) : pushPubkey key = pushData key.val := by
  simp [pushPubkey, pushData, key.property]

/-- A salt is pushed by its length, which the builders write out. -/
theorem pushSalt_eq (salt : FixedBytes 8) : (0x08 : UInt8) :: salt.val = pushData salt.val := by
  simp [pushData, salt.property]

theorem pushSalt16_eq (salt : FixedBytes 16) : (0x10 : UInt8) :: salt.val = pushData salt.val := by
  simp [pushData, salt.property]

/-- An integer is pushed in as few bytes as it needs. -/
theorem trimmedInt_eq_leBytes {value : Nat} (h0 : value ≠ 0) (h : value < 2 ^ 64) :
    trimmedInt value = leBytes (numWidth value) value := by
  rw [trimmedInt_eq value h0 h, encodeNum, Int.natAbs_natCast, if_neg (by omega), Nat.add_zero]

/-- These bytes are the integer. -/
theorem leNat_trimmedInt {value : Nat} (h0 : value ≠ 0) (h : value < 2 ^ 64) :
    leNat (trimmedInt value) = value := by
  have hnum := leNat_encodeNum (value : Int)
  rw [← trimmedInt_eq value h0 h, Int.natAbs_natCast, if_neg (by omega), Nat.add_zero] at hnum
  exact hnum

theorem length_trimmedInt {value : Nat} (h0 : value ≠ 0) (h : value < 2 ^ 64) :
    (trimmedInt value).length = numWidth value := by
  rw [trimmedInt_eq_leBytes h0 h, leBytes_length]

/-- Nine bytes are needed from `2 ^ 63` on: the top bit of the eighth is the sign. -/
theorem numWidth_le_nine {value : Nat} (h : value < 2 ^ 64) : numWidth value ≤ 9 := by
  unfold numWidth
  split
  · omega
  · rename_i h0
    have hlog : value.log2 < 64 := (Nat.log2_lt h0).mpr h
    omega

/-- What the builder wrote of an item is read as its element, whatever follows. -/
theorem Item.reads {item : Item} (h : item.Readable) (rest : Bytes) :
    readElement (item.bytes ++ rest) 0 = some (item.element, item.bytes.length) := by
  cases item with
  | op opcode => exact readElement_opcode opcode rest h
  | int value =>
    simp only [bytes, element, pushInt, intElement]
    split
    · exact readElement_opcode OP_0 rest (Or.inl rfl)
    · rename_i hz
      have hz' : value.toNat ≠ 0 := fun hn => hz (UInt64.toNat.inj (by simpa using hn))
      split
      · rename_i h16
        have h16' : value.toNat ≤ 16 := UInt64.le_iff_toNat_le.mp h16
        have small : ∀ n : Fin 17, 0 < n.val → OP_PUSHDATA4 < (0x50 + UInt8.ofNat n.val : UInt8) := by
          decide
        exact readElement_opcode _ rest (Or.inr (small ⟨value.toNat, by omega⟩ (by simp; omega)))
      · have hlen := length_trimmedInt hz' value.toNat_lt
        have hwidth := numWidth_le_nine value.toNat_lt
        have hne : trimmedInt value.toNat ≠ [] := by
          intro hnil
          have hzero := leNat_trimmedInt hz' value.toNat_lt
          rw [hnil] at hzero
          exact hz' hzero.symm
        have hread := readElement_direct (trimmedInt value.toNat) rest hne (by omega)
        simpa [Nat.add_comm] using hread
  | data bytes =>
    have hfit : bytes.length < 2 ^ 32 := h
    simp only [Item.bytes, element, pushData, dataElement]
    split
    · rename_i h75
      by_cases hz : bytes = []
      · subst hz
        exact readElement_opcode OP_0 rest (Or.inl rfl)
      · simpa [Nat.add_comm] using readElement_direct bytes rest hz h75
    · split
      · have hread := readElement_pushdata OP_PUSHDATA1 1 bytes rest (by simp) (by omega)
        simpa [Nat.add_comm, Nat.add_left_comm] using hread
      · split
        · have hread := readElement_pushdata OP_PUSHDATA2 2 bytes rest (by simp) (by omega)
          simpa [Nat.add_comm, Nat.add_left_comm] using hread
        · have hread := readElement_pushdata OP_PUSHDATA4 4 bytes rest (by simp) (by omega)
          simpa [Nat.add_comm, Nat.add_left_comm] using hread

theorem Item.bytes_ne_nil (item : Item) : item.bytes ≠ [] := by
  cases item with
  | op opcode => exact List.cons_ne_nil _ _
  | int value => exact (pushInt_pushes value).nonempty
  | data bytes =>
    simp only [Item.bytes, pushData]
    split
    · exact List.cons_ne_nil _ _
    · split
      · exact List.cons_ne_nil _ _
      · split <;> exact List.cons_ne_nil _ _

/-- A row of items reads back as their elements. -/
theorem completeElements_scriptOf {items : List Item} (h : ∀ item ∈ items, item.Readable) :
    completeElements (scriptOf items) = some (items.map Item.element) := by
  induction items with
  | nil => rfl
  | cons item items ih =>
    obtain ⟨hitem, hitems⟩ := List.forall_mem_cons.mp h
    rw [scriptOf_cons, completeElements_element _ _ _ item.bytes_ne_nil (Item.reads hitem _),
      ih hitems]
    rfl

/-! ## Integers that are read -/

/-- An integer as `find_preceding_script_integer` sees it: nine octets are too many. -/
def intItem (value : UInt64) : ScriptItem :=
  if value.toNat < 2 ^ 63 then .integer value else .oversizedInteger

/-- Bytes with the value of an integer read as it. -/
theorem readScriptInt_eq {data : Bytes} {value : UInt64} (h : leNat data = value.toNat) :
    readScriptInt data = value := by
  rw [readScriptInt, h, UInt64.ofNat_toNat]

/-- A zero byte for the sign leaves the value. -/
theorem leNat_concat_zero (bytes : Bytes) : leNat (bytes ++ [0]) = leNat bytes := by
  induction bytes with
  | nil => rfl
  | cons b bytes ih => rw [List.cons_append, leNat, leNat, ih]

/-- Small integers, opcode by opcode. -/
theorem classifyElement_small (n : Nat) (h0 : 0 < n) (h : n ≤ 16) :
    classifyElement ⟨0x50 + UInt8.ofNat n, []⟩ = .integer (UInt64.ofNat n) ∧
      (0x50 + UInt8.ofNat n : UInt8) ≤ OP_16 := by
  have small : ∀ n : Fin 17, 0 < n.val →
      classifyElement ⟨0x50 + UInt8.ofNat n.val, []⟩ = .integer (UInt64.ofNat n.val) ∧
        (0x50 + UInt8.ofNat n.val : UInt8) ≤ OP_16 := by
    decide
  exact small ⟨n, by omega⟩ h0

theorem toNat_ofNat_length {data : Bytes} (h : data.length ≤ 75) :
    (UInt8.ofNat data.length).toNat = data.length := by
  rw [UInt8.toNat_ofNat']
  omega

theorem classifyElement_direct (data : Bytes) (h : data.length ≤ 75) (data' : Bytes) :
    classifyElement ⟨UInt8.ofNat data.length, data'⟩ = classifyPush data' := by
  have hle : UInt8.ofNat data.length ≤ OP_PUSHDATA4 := by
    rw [UInt8.le_iff_toNat_le, toNat_ofNat_length h, show OP_PUSHDATA4.toNat = 78 from rfl]
    omega
  rw [classifyElement, if_pos hle]

/-- An integer is recognised unless it needs a ninth byte. -/
theorem classifyElement_intElement (value : UInt64) :
    classifyElement (intElement value) = intItem value := by
  unfold intElement intItem
  split
  · rename_i hz
    rw [hz]
    rfl
  · rename_i hz
    have hz' : value.toNat ≠ 0 := fun hn => hz (UInt64.toNat.inj (by simpa using hn))
    split
    · rename_i h16
      have h16' : value.toNat ≤ 16 := UInt64.le_iff_toNat_le.mp h16
      rw [(classifyElement_small value.toNat (Nat.pos_of_ne_zero hz') h16').1, UInt64.ofNat_toNat,
        if_pos (by omega)]
    · have hlen := length_trimmedInt hz' value.toNat_lt
      have hwidth := numWidth_le_nine value.toNat_lt
      have height := numWidth_le_eight value.toNat
      rw [classifyElement_direct _ (by omega), classifyPush, hlen]
      by_cases hlt : value.toNat < 2 ^ 63
      · rw [if_neg (by omega), if_pos hlt,
          readScriptInt_eq (leNat_trimmedInt hz' value.toNat_lt)]
      · rw [if_pos (by omega), if_neg hlt]

/-- `element_integer` drops the sign octet, so it reads every integer that is pushed. -/
@[simp] theorem elementInteger_intElement (value : UInt64) :
    elementInteger (intElement value) = some value := by
  unfold intElement elementInteger
  split
  · rename_i hz
    rw [hz]
    rfl
  · rename_i hz
    have hz' : value.toNat ≠ 0 := fun hn => hz (UInt64.toNat.inj (by simpa using hn))
    split
    · rename_i h16
      have h16' : value.toNat ≤ 16 := UInt64.le_iff_toNat_le.mp h16
      have hnone : ([] : Bytes).getLast? ≠ some 0 := by simp
      simp only [if_neg hnone]
      rw [(classifyElement_small value.toNat (Nat.pos_of_ne_zero hz') h16').1, UInt64.ofNat_toNat]
    · have hlen := length_trimmedInt hz' value.toNat_lt
      have hnum := leNat_trimmedInt hz' value.toNat_lt
      have hwidth := numWidth_le_nine value.toNat_lt
      by_cases hlast : (trimmedInt value.toNat).getLast? = some 0
      · have hsplit : trimmedInt value.toNat = (trimmedInt value.toNat).dropLast ++ [0] :=
          (List.dropLast_append_getLast? 0 hlast).symm
        have hdrop : leNat (trimmedInt value.toNat).dropLast = value.toNat := by
          rw [← leNat_concat_zero, ← hsplit, hnum]
        simp only [if_pos hlast]
        rw [classifyElement_direct _ (by omega), classifyPush, List.length_dropLast,
          if_neg (by omega), readScriptInt_eq hdrop]
      · have hshort : (trimmedInt value.toNat).length ≤ 8 := by
          -- Nine octets end in the sign, which is zero.
          by_contra hnine
          apply hlast
          have hnine : numWidth value.toNat = 8 + 1 := by omega
          rw [trimmedInt_eq_leBytes hz' value.toNat_lt, hnine,
            leBytes_add 8 1 value.toNat value.toNat_lt]
          simp
        simp only [if_neg hlast]
        rw [classifyElement_direct _ (by omega), classifyPush, if_neg (by omega),
          readScriptInt_eq hnum]

theorem intElement_opcode_le (value : UInt64) : (intElement value).opcode ≤ OP_16 := by
  unfold intElement
  split
  · decide
  · rename_i hz
    have hz' : value.toNat ≠ 0 := fun hn => hz (UInt64.toNat.inj (by simpa using hn))
    split
    · rename_i h16
      have h16' : value.toNat ≤ 16 := UInt64.le_iff_toNat_le.mp h16
      exact (classifyElement_small value.toNat (Nat.pos_of_ne_zero hz') h16').2
    · have hlen := length_trimmedInt hz' value.toNat_lt
      have hwidth := numWidth_le_nine value.toNat_lt
      rw [UInt8.le_iff_toNat_le, toNat_ofNat_length (by omega), show OP_16.toNat = 96 from rfl]
      omega

@[simp] theorem dataElement_data (bytes : Bytes) : (dataElement bytes).data = bytes := by
  unfold dataElement
  split
  · rfl
  · split
    · rfl
    · split <;> rfl

theorem dataElement_opcode_le (bytes : Bytes) : (dataElement bytes).opcode ≤ OP_16 := by
  unfold dataElement
  split
  · rename_i h75
    rw [UInt8.le_iff_toNat_le, toNat_ofNat_length h75, show OP_16.toNat = 96 from rfl]
    omega
  · split
    · exact show OP_PUSHDATA1 ≤ OP_16 by decide
    · split
      · exact show OP_PUSHDATA2 ≤ OP_16 by decide
      · exact show OP_PUSHDATA4 ≤ OP_16 by decide

/-! ## The element before an opcode -/

/-- The element before the first `target`. -/
def precedingElement (target : UInt8) : Element → List Element → Option Element
  | _, [] => none
  | previous, e :: rest =>
    if e.opcode = target then some previous else precedingElement target e rest

/-- The integer is the element before the target, classified. -/
theorem precedingInteger_eq (target : UInt8) (previous : Element) (elements : List Element) :
    precedingInteger target (classifyElement previous) elements =
      match precedingElement target previous elements with
      | none => .ok none
      | some e => precedingResult (classifyElement e) := by
  induction elements generalizing previous with
  | nil => rfl
  | cons e elements ih =>
    rw [precedingInteger, precedingElement]
    by_cases h : e.opcode = target
    · rw [if_pos h, if_pos h]
    · rw [if_neg h, if_neg h]
      exact ih e

theorem classifyElement_op {target : UInt8} (h : OP_16 < target) :
    classifyElement ⟨target, []⟩ = .opcode := by
  have hpush : ¬ target ≤ OP_PUSHDATA4 := by
    rw [UInt8.le_iff_toNat_le]
    rw [UInt8.lt_iff_toNat_lt] at h
    change ¬ target.toNat ≤ 78
    change 96 < target.toNat at h
    omega
  rw [classifyElement, if_neg hpush, if_neg fun hsmall => UInt8.not_lt.mpr hsmall.2 h]

/-- The integer before an opcode is that of the element before it, which is no integer when the
opcode stands first. -/
theorem findPrecedingScriptInteger_of_element {script : Bytes} {elements : List Element}
    (h : completeElements script = some elements) {target : UInt8} (htarget : OP_16 < target) :
    findPrecedingScriptInteger script target =
      match precedingElement target ⟨target, []⟩ elements with
      | none => .ok none
      | some e => precedingResult (classifyElement e) := by
  rw [findPrecedingScriptInteger_eq h, ← classifyElement_op htarget, precedingInteger_eq]

/-- The search passes over what is not its target and remembers it. -/
theorem precedingElement_int {target : UInt8} (h : OP_16 < target) (previous : Element)
    (value : UInt64) (rest : List Element) :
    precedingElement target previous (intElement value :: rest) =
      precedingElement target (intElement value) rest := by
  refine if_neg fun heq => ?_
  exact absurd (heq ▸ intElement_opcode_le value) (UInt8.not_le.mpr h)

theorem precedingElement_data {target : UInt8} (h : OP_16 < target) (previous : Element)
    (bytes : Bytes) (rest : List Element) :
    precedingElement target previous (dataElement bytes :: rest) =
      precedingElement target (dataElement bytes) rest := by
  refine if_neg fun heq => ?_
  exact absurd (heq ▸ dataElement_opcode_le bytes) (UInt8.not_le.mpr h)

theorem precedingElement_op {target opcode : UInt8} (h : opcode ≠ target) (previous : Element)
    (rest : List Element) :
    precedingElement target previous (⟨opcode, []⟩ :: rest) =
      precedingElement target ⟨opcode, []⟩ rest := if_neg h

theorem precedingElement_nil (target : UInt8) (previous : Element) :
    precedingElement target previous [] = none := rfl

/-- At its target the search gives what it passed last. -/
theorem precedingElement_found (target : UInt8) (previous : Element) (rest : List Element) :
    precedingElement target previous (⟨target, []⟩ :: rest) = some previous := if_pos rfl

/-- The integer that `find_preceding_script_integer` reads, where it can. -/
theorem precedingResult_intElement (value : UInt64) :
    (precedingResult (classifyElement (intElement value))).toOption =
      if value.toNat < 2 ^ 63 then some (some value) else none := by
  rw [classifyElement_intElement, intItem]
  by_cases h : value.toNat < 2 ^ 63
  · rw [if_pos h, if_pos h]
    rfl
  · rw [if_neg h, if_neg h]
    rfl

end KaspaPortal.Contract.Script
