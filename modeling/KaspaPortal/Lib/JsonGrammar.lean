import KaspaPortal.Lib.Json

/-!
# The grammar of JSON documents

Which byte strings are the text of which document. Texts are printable and have no
escapes, numbers have no leading zero, and blanks may stand around every token. How deep a
document nests and whether an object repeats a key are properties of the document.
-/
namespace KaspaPortal.Lib.Json

/-! ## Tokens -/

def isBlank (b : UInt8) : Bool := b = 0x20 ∨ b = 0x0a ∨ b = 0x0d ∨ b = 0x09

def isDigit (b : UInt8) : Bool := 0x30 ≤ b ∧ b ≤ 0x39

/-- Printable, and neither a quote nor a backslash. -/
def isPlain (b : UInt8) : Bool := 0x20 ≤ b ∧ b ≤ 0x7e ∧ b ≠ 0x22 ∧ b ≠ 0x5c

def Blank (w : Bytes) : Prop := ∀ b ∈ w, isBlank b = true

def Plain (s : Bytes) : Prop := ∀ b ∈ s, isPlain b = true

/-- Zero, or digits that do not start with zero. -/
structure Canonical (digits : Bytes) : Prop where
  nonempty : digits ≠ []
  isDigit : ∀ b ∈ digits, Json.isDigit b = true
  no_leading_zero : digits.head? = some 0x30 → digits.length = 1

/-- The number that digits write. -/
def digitsValue (digits : Bytes) : Nat :=
  digits.foldl (fun value b => value * 10 + (b - 0x30).toNat) 0

theorem Blank.nil : Blank [] := fun _ h => absurd h List.not_mem_nil

theorem Blank.append {w w' : Bytes} (h : Blank w) (h' : Blank w') : Blank (w ++ w') := by
  intro b hb
  rcases List.mem_append.mp hb with hw | hw'
  · exact h b hw
  · exact h' b hw'

/-! ## Values -/

/-- Texts of items with commas between them. -/
inductive ItemsText (value : Bytes → Json → Prop) : Bytes → List Json → Prop
  | last {w text w' : Bytes} {item : Json} (hw : Blank w) (h : value text item) (hw' : Blank w') :
    ItemsText value (w ++ text ++ w') [item]
  | cons {w text w' rest : Bytes} {item : Json} {items : List Json} (hw : Blank w)
    (h : value text item) (hw' : Blank w') (hrest : ItemsText value rest items) :
    ItemsText value (w ++ text ++ w' ++ [0x2c] ++ rest) (item :: items)

/-- A key, a colon and a value. -/
inductive MemberText (value : Bytes → Json → Prop) : Bytes → Bytes × Json → Prop
  | intro {w key w' text : Bytes} {item : Json} (hw : Blank w) (hkey : Plain key)
    (hw' : Blank w') (h : value text item) :
    MemberText value (quoted key ++ w ++ [0x3a] ++ w' ++ text) (key, item)

inductive MembersText (value : Bytes → Json → Prop) : Bytes → Members → Prop
  | last {w text w' : Bytes} {member : Bytes × Json} (hw : Blank w)
    (h : MemberText value text member) (hw' : Blank w') :
    MembersText value (w ++ text ++ w') [member]
  | cons {w text w' rest : Bytes} {member : Bytes × Json} {members : Members} (hw : Blank w)
    (h : MemberText value text member) (hw' : Blank w') (hrest : MembersText value rest members) :
    MembersText value (w ++ text ++ w' ++ [0x2c] ++ rest) (member :: members)

/-- The text of a document, without blanks around it. -/
inductive ValueText : Bytes → Json → Prop
  | null : ValueText (ascii "null") .null
  | true : ValueText (ascii "true") (.bool true)
  | false : ValueText (ascii "false") (.bool false)
  | number {digits : Bytes} (h : Canonical digits) : ValueText digits (.number (digitsValue digits))
  | string {s : Bytes} (h : Plain s) : ValueText (quoted s) (.string s)
  | emptyArray {w : Bytes} (hw : Blank w) : ValueText ([0x5b] ++ w ++ [0x5d]) (.array [])
  | array {body : Bytes} {items : List Json} (h : ItemsText ValueText body items) :
    ValueText ([0x5b] ++ body ++ [0x5d]) (.array items)
  | emptyObject {w : Bytes} (hw : Blank w) : ValueText ([0x7b] ++ w ++ [0x7d]) (.object [])
  | object {body : Bytes} {members : Members} (h : MembersText ValueText body members) :
    ValueText ([0x7b] ++ body ++ [0x7d]) (.object members)

/-- The text of a document with blanks around it. -/
def DocumentText (text : Bytes) (document : Json) : Prop :=
  ∃ w body w', text = w ++ body ++ w' ∧ Blank w ∧ ValueText body document ∧ Blank w'

/-! ## Properties of documents -/

mutual
/-- How many containers stand inside each other. -/
def depth : Json → Nat
  | null | bool _ | number _ | string _ => 0
  | array items => itemsDepth items + 1
  | object members => membersDepth members + 1

def itemsDepth : List Json → Nat
  | [] => 0
  | item :: items => max (depth item) (itemsDepth items)

def membersDepth : List (Bytes × Json) → Nat
  | [] => 0
  | (_, item) :: members => max (depth item) (membersDepth members)
end

mutual
/-- No object repeats a key, at any depth. -/
def KeysDistinct : Json → Prop
  | null | bool _ | number _ | string _ => True
  | array items => ItemsKeysDistinct items
  | object members => (members.map Prod.fst).Nodup ∧ MembersKeysDistinct members

def ItemsKeysDistinct : List Json → Prop
  | [] => True
  | item :: items => KeysDistinct item ∧ ItemsKeysDistinct items

def MembersKeysDistinct : List (Bytes × Json) → Prop
  | [] => True
  | (_, item) :: members => KeysDistinct item ∧ MembersKeysDistinct members
end

mutual
/-- Every number is below the bound, at any depth. -/
def numbersBelow (bound : Nat) : Json → Bool
  | null | bool _ | string _ => true
  | number value => value < bound
  | array items => itemsNumbersBelow bound items
  | object members => membersNumbersBelow bound members

def itemsNumbersBelow (bound : Nat) : List Json → Bool
  | [] => true
  | item :: items => numbersBelow bound item && itemsNumbersBelow bound items

def membersNumbersBelow (bound : Nat) : List (Bytes × Json) → Bool
  | [] => true
  | (_, item) :: members => numbersBelow bound item && membersNumbersBelow bound members
end

theorem itemsDepth_le {items : List Json} {n : Nat} :
    itemsDepth items ≤ n ↔ ∀ item ∈ items, item.depth ≤ n := by
  induction items with
  | nil => simp [itemsDepth]
  | cons item items ih => rw [itemsDepth, max_le_iff, ih, List.forall_mem_cons]

theorem membersDepth_le {members : Members} {n : Nat} :
    membersDepth members ≤ n ↔ ∀ member ∈ members, member.2.depth ≤ n := by
  induction members with
  | nil => simp [membersDepth]
  | cons member members ih =>
    obtain ⟨key, item⟩ := member
    rw [membersDepth, max_le_iff, ih, List.forall_mem_cons]

theorem itemsKeysDistinct_iff {items : List Json} :
    ItemsKeysDistinct items ↔ ∀ item ∈ items, item.KeysDistinct := by
  induction items with
  | nil => simp [ItemsKeysDistinct]
  | cons item items ih => rw [ItemsKeysDistinct, ih, List.forall_mem_cons]

theorem membersKeysDistinct_iff {members : Members} :
    MembersKeysDistinct members ↔ ∀ member ∈ members, member.2.KeysDistinct := by
  induction members with
  | nil => simp [MembersKeysDistinct]
  | cons member members ih =>
    obtain ⟨key, item⟩ := member
    rw [MembersKeysDistinct, ih, List.forall_mem_cons]

/-! ## Texts under a condition on their values -/

theorem itemsText_and {value : Bytes → Json → Prop} {P : Json → Prop} {body : Bytes}
    {items : List Json} :
    ItemsText (fun text item => value text item ∧ P item) body items ↔
      ItemsText value body items ∧ ∀ item ∈ items, P item := by
  constructor
  · intro h
    induction h with
    | last hw h hw' => exact ⟨.last hw h.1 hw', fun item hitem => List.mem_singleton.mp hitem ▸ h.2⟩
    | cons hw h hw' _ ih => exact ⟨.cons hw h.1 hw' ih.1, List.forall_mem_cons.mpr ⟨h.2, ih.2⟩⟩
  · intro h
    obtain ⟨hbody, hitems⟩ := h
    induction hbody with
    | last hw h hw' => exact .last hw ⟨h, hitems _ List.mem_cons_self⟩ hw'
    | cons hw h hw' _ ih =>
      rw [List.forall_mem_cons] at hitems
      exact .cons hw ⟨h, hitems.1⟩ hw' (ih hitems.2)

theorem memberText_and {value : Bytes → Json → Prop} {P : Json → Prop} {text : Bytes}
    {member : Bytes × Json} :
    MemberText (fun text item => value text item ∧ P item) text member ↔
      MemberText value text member ∧ P member.2 := by
  constructor
  · intro h
    cases h with
    | intro hw hkey hw' h => exact ⟨.intro hw hkey hw' h.1, h.2⟩
  · intro h
    obtain ⟨htext, hmember⟩ := h
    cases htext with
    | intro hw hkey hw' h => exact .intro hw hkey hw' ⟨h, hmember⟩

theorem membersText_and {value : Bytes → Json → Prop} {P : Json → Prop} {body : Bytes}
    {members : Members} :
    MembersText (fun text item => value text item ∧ P item) body members ↔
      MembersText value body members ∧ ∀ member ∈ members, P member.2 := by
  constructor
  · intro h
    induction h with
    | last hw h hw' =>
      obtain ⟨htext, hmember⟩ := memberText_and.mp h
      exact ⟨.last hw htext hw', fun member hmem => List.mem_singleton.mp hmem ▸ hmember⟩
    | cons hw h hw' _ ih =>
      obtain ⟨htext, hmember⟩ := memberText_and.mp h
      exact ⟨.cons hw htext hw' ih.1, List.forall_mem_cons.mpr ⟨hmember, ih.2⟩⟩
  · intro h
    obtain ⟨hbody, hmembers⟩ := h
    induction hbody with
    | last hw h hw' => exact .last hw (memberText_and.mpr ⟨h, hmembers _ List.mem_cons_self⟩) hw'
    | cons hw h hw' _ ih =>
      rw [List.forall_mem_cons] at hmembers
      exact .cons hw (memberText_and.mpr ⟨h, hmembers.1⟩) hw' (ih hmembers.2)

/-! ## Places inside a text -/

/-- An item of a list of items, with what stands before and after its text. -/
inductive ItemAt (value : Bytes → Json → Prop) :
    Bytes → List Json → Bytes → Bytes → Bytes → Json → Prop
  | last {w text w' : Bytes} {item : Json} (hw : Blank w) (h : value text item) (hw' : Blank w') :
    ItemAt value (w ++ text ++ w') [item] w text w' item
  | first {w text w' rest : Bytes} {item : Json} {items : List Json} (hw : Blank w)
    (h : value text item) (hw' : Blank w') (hrest : ItemsText value rest items) :
    ItemAt value (w ++ text ++ w' ++ [0x2c] ++ rest) (item :: items) w text (w' ++ [0x2c] ++ rest)
      item
  | later {w text w' rest before inner after : Bytes} {item innerItem : Json} {items : List Json}
    (hw : Blank w) (h : value text item) (hw' : Blank w')
    (hrest : ItemAt value rest items before inner after innerItem) :
    ItemAt value (w ++ text ++ w' ++ [0x2c] ++ rest) (item :: items)
      (w ++ text ++ w' ++ [0x2c] ++ before) inner after innerItem

inductive MemberAt (value : Bytes → Json → Prop) :
    Bytes → Members → Bytes → Bytes → Bytes → Bytes × Json → Prop
  | last {w text w' : Bytes} {member : Bytes × Json} (hw : Blank w)
    (h : MemberText value text member) (hw' : Blank w') :
    MemberAt value (w ++ text ++ w') [member] w text w' member
  | first {w text w' rest : Bytes} {member : Bytes × Json} {members : Members} (hw : Blank w)
    (h : MemberText value text member) (hw' : Blank w') (hrest : MembersText value rest members) :
    MemberAt value (w ++ text ++ w' ++ [0x2c] ++ rest) (member :: members) w text
      (w' ++ [0x2c] ++ rest) member
  | later {w text w' rest before inner after : Bytes} {member innerMember : Bytes × Json}
    {members : Members} (hw : Blank w) (h : MemberText value text member) (hw' : Blank w')
    (hrest : MemberAt value rest members before inner after innerMember) :
    MemberAt value (w ++ text ++ w' ++ [0x2c] ++ rest) (member :: members)
      (w ++ text ++ w' ++ [0x2c] ++ before) inner after innerMember

/-- A value at any depth of a document, with what stands before and after its text. -/
inductive Occurs (input : Bytes) (document : Json) : Bytes → Bytes → Bytes → Json → Prop
  | root {w text w' : Bytes} (hinput : input = w ++ text ++ w') (hw : Blank w)
    (h : ValueText text document) (hw' : Blank w') : Occurs input document w text w' document
  | item {before body after b text a : Bytes} {items : List Json} {item : Json}
    (hparent : Occurs input document before ([0x5b] ++ body ++ [0x5d]) after (.array items))
    (hitem : ItemAt ValueText body items b text a item) :
    Occurs input document (before ++ [0x5b] ++ b) text (a ++ [0x5d] ++ after) item
  | member {before body after b a key w w' text : Bytes} {members : Members} {item : Json}
    (hparent : Occurs input document before ([0x7b] ++ body ++ [0x7d]) after (.object members))
    (hmember : MemberAt ValueText body members b (quoted key ++ w ++ [0x3a] ++ w' ++ text) a
      (key, item)) (hw : Blank w) (hkey : Plain key) (hw' : Blank w') (h : ValueText text item) :
    Occurs input document (before ++ [0x7b] ++ b ++ quoted key ++ w ++ [0x3a] ++ w') text
      (a ++ [0x7d] ++ after) item

/-- A member at any depth of a document, with what stands before and after its text. -/
inductive OccursMember (input : Bytes) (document : Json) :
    Bytes → Bytes → Bytes → Bytes × Json → Prop
  | intro {before body after b text a : Bytes} {members : Members} {member : Bytes × Json}
    (hparent : Occurs input document before ([0x7b] ++ body ++ [0x7d]) after (.object members))
    (hmember : MemberAt ValueText body members b text a member) :
    OccursMember input document (before ++ [0x7b] ++ b) text (a ++ [0x7d] ++ after) member

theorem ItemAt.split {value : Bytes → Json → Prop} {body before text after : Bytes}
    {items : List Json} {item : Json} (h : ItemAt value body items before text after item) :
    body = before ++ text ++ after ∧ value text item ∧ item ∈ items := by
  induction h with
  | last hw h hw' => exact ⟨rfl, h, List.mem_cons_self⟩
  | first hw h hw' hrest => exact ⟨by simp, h, List.mem_cons_self⟩
  | later hw h hw' hrest ih =>
    obtain ⟨hbody, htext, hmem⟩ := ih
    exact ⟨by rw [hbody]; simp, htext, List.mem_cons_of_mem _ hmem⟩

theorem MemberAt.split {value : Bytes → Json → Prop} {body before text after : Bytes}
    {members : Members} {member : Bytes × Json}
    (h : MemberAt value body members before text after member) :
    body = before ++ text ++ after ∧ MemberText value text member ∧ member ∈ members := by
  induction h with
  | last hw h hw' => exact ⟨rfl, h, List.mem_cons_self⟩
  | first hw h hw' hrest => exact ⟨by simp, h, List.mem_cons_self⟩
  | later hw h hw' hrest ih =>
    obtain ⟨hbody, htext, hmem⟩ := ih
    exact ⟨by rw [hbody]; simp, htext, List.mem_cons_of_mem _ hmem⟩

/-- Behind an item stands a blank or a comma, or nothing. -/
theorem ItemAt.after {value : Bytes → Json → Prop} {body before text after : Bytes}
    {items : List Json} {item : Json} (h : ItemAt value body items before text after item) :
    Blank after ∨ ∃ w rest, Blank w ∧ after = w ++ 0x2c :: rest := by
  induction h with
  | last hw h hw' => exact .inl hw'
  | first hw h hw' hrest => exact .inr ⟨_, _, hw', by simp; rfl⟩
  | later hw h hw' hrest ih => exact ih

theorem MemberAt.after {value : Bytes → Json → Prop} {body before text after : Bytes}
    {members : Members} {member : Bytes × Json}
    (h : MemberAt value body members before text after member) :
    Blank after ∨ ∃ w rest, Blank w ∧ after = w ++ 0x2c :: rest := by
  induction h with
  | last hw h hw' => exact .inl hw'
  | first hw h hw' hrest => exact .inr ⟨_, _, hw', by simp; rfl⟩
  | later hw h hw' hrest ih => exact ih

/-- A place inside a document is one of its input, holds a value no deeper than the document
and repeats no key the document does not repeat. -/
theorem Occurs.split {input before text after : Bytes} {document value : Json}
    (h : Occurs input document before text after value) :
    input = before ++ text ++ after ∧ ValueText text value ∧ value.depth ≤ document.depth ∧
      (document.KeysDistinct → value.KeysDistinct) := by
  induction h with
  | root hinput hw h hw' => exact ⟨hinput, h, le_rfl, id⟩
  | item hparent hitem ih =>
    obtain ⟨hinput, -, hdepth, hkeys⟩ := ih
    obtain ⟨hbody, htext, hmem⟩ := hitem.split
    rw [depth] at hdepth
    have hitemDepth := itemsDepth_le.mp le_rfl _ hmem
    refine ⟨by rw [hinput, hbody]; simp, htext, by omega, fun hdistinct => ?_⟩
    exact itemsKeysDistinct_iff.mp (hkeys hdistinct) _ hmem
  | member hparent hmember hw hkey hw' h ih =>
    obtain ⟨hinput, -, hdepth, hkeys⟩ := ih
    obtain ⟨hbody, htext, hmem⟩ := hmember.split
    rw [depth] at hdepth
    have hmemberDepth := membersDepth_le.mp le_rfl _ hmem
    refine ⟨by rw [hinput, hbody]; simp, h, ?_, fun hdistinct => ?_⟩
    · dsimp only at hmemberDepth
      omega
    · exact membersKeysDistinct_iff.mp (hkeys hdistinct).2 _ hmem

end KaspaPortal.Lib.Json
