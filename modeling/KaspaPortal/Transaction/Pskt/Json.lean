import KaspaPortal.Lib.Codec
import KaspaPortal.Lib.JsonGrammar

/-!
# Restricted JSON

`src/transaction/interchange/pskt/schema/json.rs` and `numbers.rs`: the syntax every
reader of the format checks first, and its integers. A cursor is what is left to
read. The source counts the nesting up to its limit; here the nesting still allowed
counts down, and the loops over the members of a container take as much fuel as there
are bytes left, since every member consumes some.

What the check lets through is read a second time by a library, which is a parameter
where it is needed.
-/
namespace KaspaPortal.Transaction.Pskt
open Lib

def MAX_JSON_NESTING : Nat := 32
def JS_MAX_SAFE_U64 : UInt64 := 9007199254740991

/-- A member list is never too long for memory here. -/
inductive JsonSyntaxError where
  | unexpectedToken | invalidNumber | invalidString | duplicateKey | nestingTooDeep | trailingData
  deriving DecidableEq, Repr

/-- `Display`. -/
def JsonSyntaxError.message : JsonSyntaxError → String
  | .unexpectedToken => "invalid canonical JSON structure"
  | .invalidNumber => "PSKT JSON numbers must be canonical non-negative integers"
  | .invalidString => "PSKT JSON strings must be printable ASCII without escapes"
  | .duplicateKey => "duplicate JSON object key"
  | .nestingTooDeep => "PSKT JSON exceeds maximum nesting depth"
  | .trailingData => "PSKT JSON contains trailing data"

namespace Cursor

def QUOTE : UInt8 := 0x22
def COMMA : UInt8 := 0x2c
def COLON : UInt8 := 0x3a
def BACKSLASH : UInt8 := 0x5c
def LBRACKET : UInt8 := 0x5b
def RBRACKET : UInt8 := 0x5d
def LBRACE : UInt8 := 0x7b
def RBRACE : UInt8 := 0x7d

def isBlank (b : UInt8) : Bool := b = 0x20 ∨ b = 0x0a ∨ b = 0x0d ∨ b = 0x09

def isDigit (b : UInt8) : Bool := 0x30 ≤ b ∧ b ≤ 0x39

/-- Printable ASCII that needs no escape. -/
def isPlain (b : UInt8) : Bool := 0x20 ≤ b ∧ b ≤ 0x7e ∧ b ≠ QUOTE ∧ b ≠ BACKSLASH

def ws (rest : Bytes) : Bytes := rest.dropWhile isBlank

def consumeIf (expected : UInt8) : Bytes → Option Bytes
  | [] => none
  | b :: rest => if b = expected then some rest else none

def byte (expected : UInt8) (rest : Bytes) : Except JsonSyntaxError Bytes :=
  okOr .unexpectedToken (consumeIf expected (ws rest))

/-- A string, with its content. -/
def string (rest : Bytes) : Except JsonSyntaxError (Bytes × Bytes) := do
  let rest ← byte QUOTE rest
  let after ← okOr .invalidString (consumeIf QUOTE (rest.dropWhile isPlain))
  return (rest.takeWhile isPlain, after)

/-- `.`, `e`, `E`, `+` or `-`. -/
def continuesNumber (b : UInt8) : Bool :=
  b = 0x2e ∨ b = 0x65 ∨ b = 0x45 ∨ b = 0x2b ∨ b = 0x2d

/-- `0` or a digit run without a leading zero. -/
def number (rest : Bytes) : Except JsonSyntaxError Bytes := do
  let digits := rest.takeWhile isDigit
  let after := rest.dropWhile isDigit
  rejectIf (digits.head? = some 0x30 ∧ 1 < digits.length ∨ after.head?.any continuesNumber = true)
    JsonSyntaxError.invalidNumber
  return after

def literal (expected : Bytes) (rest : Bytes) : Except JsonSyntaxError Bytes := do
  rejectIf (rest.take expected.length ≠ expected) JsonSyntaxError.unexpectedToken
  return rest.drop expected.length

/-- After a list item: whether the list ends. -/
def listEnd (close : UInt8) (rest : Bytes) : Except JsonSyntaxError (Bool × Bytes) :=
  match consumeIf COMMA (ws rest) with
  | some rest => .ok (false, rest)
  | none =>
    match consumeIf close (ws rest) with
    | some rest => .ok (true, rest)
    | none => .error .unexpectedToken

def rejectDuplicateKeys (keys : List Bytes) : Except JsonSyntaxError Unit :=
  rejectIf (¬ keys.Nodup) JsonSyntaxError.duplicateKey

section containers
variable (value : Bytes → Except JsonSyntaxError Bytes)

/-- One member; with its key. -/
def objectMember (rest : Bytes) : Except JsonSyntaxError (Bytes × Bytes) := do
  let (key, rest) ← string rest
  let rest ← byte COLON rest
  let rest ← value rest
  return (key, rest)

def objectLoop : Nat → List Bytes → Bytes → Except JsonSyntaxError Bytes
  | 0, _, _ => .error .unexpectedToken
  | fuel + 1, keys, rest => do
    let (key, rest) ← objectMember value rest
    let (ended, rest) ← listEnd RBRACE rest
    if ended then
      rejectDuplicateKeys (keys ++ [key])
      return rest
    else objectLoop fuel (keys ++ [key]) rest

def object (rest : Bytes) : Except JsonSyntaxError Bytes := do
  let rest ← byte LBRACE rest
  match consumeIf RBRACE (ws rest) with
  | some rest => return rest
  | none => objectLoop value rest.length [] (ws rest)

def arrayLoop : Nat → Bytes → Except JsonSyntaxError Bytes
  | 0, _ => .error .unexpectedToken
  | fuel + 1, rest => do
    let rest ← value rest
    let (ended, rest) ← listEnd RBRACKET rest
    if ended then return rest
    else arrayLoop fuel rest

def array (rest : Bytes) : Except JsonSyntaxError Bytes := do
  let rest ← byte LBRACKET rest
  match consumeIf RBRACKET (ws rest) with
  | some rest => return rest
  | none => arrayLoop value rest.length (ws rest)

end containers

/-- One value; `inner` reads what stands inside a container, or is why none may open. -/
def valueWith (inner : Except JsonSyntaxError (Bytes → Except JsonSyntaxError Bytes))
    (rest : Bytes) : Except JsonSyntaxError Bytes :=
  match ws rest with
  | [] => .error .unexpectedToken
  | b :: after =>
    if b = LBRACE then do object (← inner) (b :: after)
    else if b = LBRACKET then do array (← inner) (b :: after)
    else if b = QUOTE then do return (← string (b :: after)).2
    else if isDigit b then number (b :: after)
    else if b = 0x74 then literal (ascii "true") (b :: after)
    else if b = 0x66 then literal (ascii "false") (b :: after)
    else if b = 0x6e then literal (ascii "null") (b :: after)
    else .error .unexpectedToken

/-- One value with `n` more levels of containers allowed. -/
def value : Nat → Bytes → Except JsonSyntaxError Bytes
  | 0 => valueWith (.error .nestingTooDeep)
  | n + 1 => valueWith (.ok (value n))

end Cursor

def validateCanonicalJson (input : Bytes) : Except JsonSyntaxError Unit := do
  let rest ← Cursor.value MAX_JSON_NESTING input
  rejectIf (Cursor.ws rest ≠ []) JsonSyntaxError.trailingData

/-! ## Integers -/

inductive JsonNumberError where
  | nonCanonical | overflow | unsafeInteger
  deriving DecidableEq, Repr

/-- The value of a run of digits. -/
def decimal (digits : Bytes) : Nat := digits.foldl (fun value b => value * 10 + (b - 0x30).toNat) 0

def parseCanonicalU64Bytes (bytes : Bytes) : Except JsonNumberError UInt64 := do
  rejectIf (bytes = [] ∨ bytes.all Cursor.isDigit = false ∨
    (1 < bytes.length ∧ bytes.head? = some 0x30)) JsonNumberError.nonCanonical
  -- A prefix that does not fit makes the whole not fit.
  rejectIf (2 ^ 64 ≤ decimal bytes) JsonNumberError.overflow
  return UInt64.ofNat (decimal bytes)

def jsonNumberIsExactInteger (value : UInt64) : Bool := value ≤ JS_MAX_SAFE_U64

/-- The digits that are not refused for their shape. -/
theorem canonical_iff {digits : Bytes} :
    ¬(digits = [] ∨ digits.all Cursor.isDigit = false ∨
      (1 < digits.length ∧ digits.head? = some 0x30)) ↔ Json.Canonical digits := by
  constructor
  · intro h
    obtain ⟨hnonempty, hdigits, hzero⟩ : digits ≠ [] ∧ ¬ digits.all Cursor.isDigit = false ∧
        ¬(1 < digits.length ∧ digits.head? = some 0x30) := by
      simpa only [not_or] using h
    have hlong := List.length_pos_iff.mpr hnonempty
    exact ⟨hnonempty, List.all_eq_true.mp (Bool.not_eq_false _ ▸ hdigits),
      fun hhead => by have := mt (⟨·, hhead⟩) hzero; omega⟩
  · intro h hrefused
    rcases hrefused with hempty | hdigits | ⟨hlong, hhead⟩
    · exact h.nonempty hempty
    · have hall : digits.all Cursor.isDigit = true := List.all_eq_true.mpr h.isDigit
      exact absurd hall (hdigits ▸ Bool.false_ne_true)
    · have hone := h.no_leading_zero hhead
      omega

/-- The texts read as integers are canonical digits of a number of 64 bits. -/
theorem parseCanonicalU64Bytes_ok {digits : Bytes} {value : UInt64} :
    parseCanonicalU64Bytes digits = .ok value ↔ Json.Canonical digits ∧ Json.digitsValue digits = value.toNat := by
  rw [parseCanonicalU64Bytes, bind_eq_ok]
  constructor
  · intro h
    obtain ⟨_, hshape, h⟩ := h
    obtain ⟨_, hfits, h⟩ := bind_eq_ok.mp h
    cases h
    have hlt := Nat.not_le.mp (rejectIf_eq_ok.mp hfits)
    exact ⟨canonical_iff.mp (rejectIf_eq_ok.mp hshape), (UInt64.toNat_ofNat_of_lt' hlt).symm⟩
  · intro h
    obtain ⟨hcanonical, hvalue⟩ := h
    have hdecimal : decimal digits = value.toNat := hvalue
    refine ⟨(), rejectIf_neg (canonical_iff.mpr hcanonical), ?_⟩
    rw [hdecimal]
    refine bind_eq_ok.mpr ⟨(), rejectIf_neg (Nat.not_le.mpr value.toNat_lt), ?_⟩
    rw [UInt64.ofNat_toNat]
    rfl

/-- The integers of a document: a decimal text, or a number that JavaScript holds exactly. -/
inductive ExactInteger : Json → UInt64 → Prop
  | text {digits : Bytes} {value : UInt64} (hcanonical : Json.Canonical digits)
    (hvalue : Json.digitsValue digits = value.toNat) : ExactInteger (.string digits) value
  | legacy {value : UInt64} (hexact : value ≤ JS_MAX_SAFE_U64) : ExactInteger (.number value.toNat) value

theorem asU64_number {number : Nat} {value : UInt64} :
    (Json.number number).asU64 = some value ↔ number = value.toNat := by
  rw [Json.asU64]
  split
  case isTrue hfits =>
    rw [Option.some.injEq, ← UInt64.toNat_inj, UInt64.toNat_ofNat_of_lt' hfits]
  case isFalse hfits =>
    constructor
    · intro h
      cases h
    · intro h
      exact absurd (h ▸ value.toNat_lt) hfits

/-- How a number is read where an integer is wanted. -/
theorem exactNumber_ok {number : Nat} {value : UInt64} {unsigned unsafeInteger : String} :
    (do
      let integer ← okOr unsigned (Json.number number).asU64
      rejectIf (jsonNumberIsExactInteger integer = false) unsafeInteger
      return integer : Except String UInt64) = .ok value ↔ ExactInteger (.number number) value := by
  rw [bind_eq_ok]
  constructor
  · intro h
    obtain ⟨value', hnumber, h⟩ := h
    obtain ⟨_, hexact, h⟩ := bind_eq_ok.mp h
    cases h
    rw [asU64_number.mp (okOr_eq_ok.mp hnumber)]
    exact .legacy (of_decide_eq_true (Bool.not_eq_false _ ▸ rejectIf_eq_ok.mp hexact))
  · intro h
    cases h with
    | legacy hexact =>
      refine ⟨value, okOr_eq_ok.mpr (asU64_number.mpr rfl), bind_eq_ok.mpr ⟨(), rejectIf_neg ?_, rfl⟩⟩
      rw [jsonNumberIsExactInteger, decide_eq_true hexact]
      exact Bool.noConfusion

end KaspaPortal.Transaction.Pskt
