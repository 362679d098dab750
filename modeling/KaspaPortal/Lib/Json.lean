import KaspaPortal.Lib.Bytes

/-!
# JSON documents

Documents whose numbers are non-negative integers and whose texts are byte strings.
An object is the list of its members in the order a reader goes through them; a
lookup takes the first with the name.
-/
namespace KaspaPortal.Lib

/-- An ASCII byte string as text, for messages. -/
def text (b : Bytes) : String := String.ofList (b.map fun c => Char.ofNat c.toNat)

/-- A document. -/
inductive Json where
  | null
  | bool (value : Bool)
  | number (value : Nat)
  | string (value : Bytes)
  | array (items : List Json)
  | object (members : List (Bytes × Json))
  deriving Repr

/-- The members of an object, in order. -/
abbrev Members := List (Bytes × Json)

namespace Members

/-- The first member with the name. -/
def get (members : Members) (key : Bytes) : Option Json :=
  (members.find? fun member => member.1 == key).map Prod.snd

def has (members : Members) (key : Bytes) : Bool := (members.get key).isSome

end Members

namespace Json

/-- A value that stands for none. -/
def isNull : Json → Bool
  | null => true
  | _ => false

/-- The number when it fits 64 bits. -/
def asU64 : Json → Option UInt64
  | number value => if value < 2 ^ 64 then some (UInt64.ofNat value) else none
  | _ => none

def asStr : Json → Option Bytes
  | string value => some value
  | _ => none

def asArray : Json → Option (List Json)
  | array items => some items
  | _ => none

def asObject : Json → Option Members
  | object members => some members
  | _ => none

/-- Only a text is read as one. -/
theorem asStr_eq_some {json : Json} {value : Bytes} : json.asStr = some value ↔ json = string value := by
  cases json with
  | string value' => rw [asStr, Option.some.injEq, string.injEq]
  | _ => exact ⟨nofun, nofun⟩

/-- Only a list is read as one. -/
theorem asArray_eq_some {json : Json} {items : List Json} : json.asArray = some items ↔ json = array items := by
  cases json with
  | array items' => rw [asArray, Option.some.injEq, array.injEq]
  | _ => exact ⟨nofun, nofun⟩

/-- Only an object is read as one. -/
theorem asObject_eq_some {json : Json} {object : Members} :
    json.asObject = some object ↔ json = .object object := by
  cases json with
  | object members => rw [asObject, Option.some.injEq, Json.object.injEq]
  | _ => exact ⟨nofun, nofun⟩

/-- A member of an object; nothing has one otherwise. -/
def get (self : Json) (key : Bytes) : Option Json :=
  self.asObject.bind fun members => members.get key

/-! ## Text of a document -/

/-- A text that needs no escapes. -/
def quoted (value : Bytes) : Bytes := [0x22] ++ value ++ [0x22]

/-- A number in decimal. -/
def digits (value : Nat) : Bytes := ascii (toString value)

end Json

end KaspaPortal.Lib
