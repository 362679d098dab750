import KaspaPortal.Transaction.Pskt.Json

/-!
# Tokens, and skipping a value

`src/transaction/interchange/pskt/standard/syntax/tokenizer.rs` and `skip_value` of
`parser/helpers.rs`. A tokenizer is what is left to read. The source keeps the states of
the open containers in an array with a depth; here they are a list, the innermost first.
The loop over tokens takes as much fuel as there are bytes left.

The parser that consumes the tokens is not modelled, apart from the function that skips.
-/
namespace KaspaPortal.Transaction.Pskt.Standard
open Lib

inductive PskError where
  | truncatedEnvelope | unexpectedToken | jsonNestingTooDeep
  deriving DecidableEq, Repr

inductive Tok where
  | lBrace | rBrace | lBracket | rBracket | colon | comma
  | str (content : Bytes)
  | num (digits : Bytes)
  | true | false | null
  | eof
  deriving DecidableEq, Repr

namespace Tokenizer

def punctuation (b : UInt8) : Option Tok :=
  if b = Cursor.LBRACE then some .lBrace
  else if b = Cursor.RBRACE then some .rBrace
  else if b = Cursor.LBRACKET then some .lBracket
  else if b = Cursor.RBRACKET then some .rBracket
  else if b = Cursor.COLON then some .colon
  else if b = Cursor.COMMA then some .comma
  else none

def skipWs (rest : Bytes) : Bytes := rest.dropWhile Cursor.isBlank

/-- What stands behind the opening quote, with the content read so far. -/
def readString (content : Bytes) : Bytes → Except PskError (Tok × Bytes)
  | [] => .error .truncatedEnvelope
  | c :: rest =>
    if c = Cursor.QUOTE then .ok (.str content, rest)
    else if c = Cursor.BACKSLASH ∨ ¬(0x20 ≤ c ∧ c ≤ 0x7e) then .error .unexpectedToken
    else readString (content ++ [c]) rest

/-- A number and its first digit. -/
def readNumber (first : UInt8) (rest : Bytes) : Except PskError (Tok × Bytes) :=
  if first = 0x30 then
    if rest.head?.any Cursor.isDigit then .error .unexpectedToken else .ok (.num [first], rest)
  else
    let after := rest.dropWhile Cursor.isDigit
    if after.head?.any fun c => decide (c = 0x2e ∨ c = 0x65 ∨ c = 0x45) then
      .error .unexpectedToken
    else .ok (.num (first :: rest.takeWhile Cursor.isDigit), after)

def readKeyword (expected : Bytes) (tok : Tok) (rest : Bytes) : Except PskError (Tok × Bytes) :=
  if rest.length < expected.length then .error .truncatedEnvelope
  else if rest.take expected.length ≠ expected then .error .unexpectedToken
  else .ok (tok, rest.drop expected.length)

def nextToken (rest : Bytes) : Except PskError (Tok × Bytes) :=
  match skipWs rest with
  | [] => .ok (.eof, [])
  | b :: after =>
    match punctuation b with
    | some token => .ok (token, after)
    | none =>
      if b = Cursor.QUOTE then readString [] after
      else if Cursor.isDigit b then readNumber b after
      else if b = 0x74 then readKeyword (ascii "true") .true (b :: after)
      else if b = 0x66 then readKeyword (ascii "false") .false (b :: after)
      else if b = 0x6e then readKeyword (ascii "null") .null (b :: after)
      else .error .unexpectedToken

theorem nextToken_cons {b : UInt8} (hb : Cursor.isBlank b = false) (rest : Bytes) :
    nextToken (b :: rest) =
      match punctuation b with
      | some token => .ok (token, rest)
      | none =>
        if b = Cursor.QUOTE then readString [] rest
        else if Cursor.isDigit b then readNumber b rest
        else if b = 0x74 then readKeyword (ascii "true") .true (b :: rest)
        else if b = 0x66 then readKeyword (ascii "false") .false (b :: rest)
        else if b = 0x6e then readKeyword (ascii "null") .null (b :: rest)
        else .error .unexpectedToken := by
  have hskip : skipWs (b :: rest) = b :: rest :=
    List.dropWhile_cons_of_neg (by rw [hb]; exact Bool.false_ne_true)
  rw [nextToken, hskip]

end Tokenizer

def parseU64Num (bytes : Bytes) : Except PskError UInt64 :=
  (parseCanonicalU64Bytes bytes).mapError fun _ => .unexpectedToken

/-! ## Skipping -/

inductive ContainerState where
  | objectKeyOrEnd | objectKey | objectColon | objectValue | objectCommaOrEnd
  | arrayValueOrEnd | arrayValue | arrayCommaOrEnd
  deriving DecidableEq, Repr

/-- A container opens inside one that goes on with `parentNext`. -/
def pushContainer (parentNext childInitial : ContainerState) (below : List ContainerState) :
    Except PskError (List ContainerState) :=
  if below.length + 1 ≥ MAX_JSON_NESTING then .error .jsonNestingTooDeep
  else .ok (childInitial :: parentNext :: below)

def processNestedValue (token : Tok) (parentNext : ContainerState) (below : List ContainerState) :
    Except PskError (List ContainerState) :=
  match token with
  | .num digits =>
    match parseU64Num digits with
    | .error error => .error error
    | .ok _ => .ok (parentNext :: below)
  | .str _ | .true | .false | .null => .ok (parentNext :: below)
  | .lBrace => pushContainer parentNext .objectKeyOrEnd below
  | .lBracket => pushContainer parentNext .arrayValueOrEnd below
  | _ => .error .unexpectedToken

/-- What a token makes of the innermost container, above the others. -/
def processContainerToken (state : ContainerState) (token : Tok) (below : List ContainerState) :
    Except PskError (List ContainerState) :=
  match state with
  | .objectKeyOrEnd =>
    match token with
    | .rBrace => .ok below
    | .str _ => .ok (.objectColon :: below)
    | _ => .error .unexpectedToken
  | .objectKey =>
    match token with
    | .str _ => .ok (.objectColon :: below)
    | _ => .error .unexpectedToken
  | .objectColon =>
    match token with
    | .colon => .ok (.objectValue :: below)
    | _ => .error .unexpectedToken
  | .objectValue => processNestedValue token .objectCommaOrEnd below
  | .objectCommaOrEnd =>
    match token with
    | .comma => .ok (.objectKey :: below)
    | .rBrace => .ok below
    | _ => .error .unexpectedToken
  | .arrayValueOrEnd =>
    match token with
    | .rBracket => .ok below
    | other => processNestedValue other .arrayCommaOrEnd below
  | .arrayValue => processNestedValue token .arrayCommaOrEnd below
  | .arrayCommaOrEnd =>
    match token with
    | .comma => .ok (.arrayValue :: below)
    | .rBracket => .ok below
    | _ => .error .unexpectedToken

def nextContainerToken (rest : Bytes) : Except PskError (Tok × Bytes) :=
  match Tokenizer.nextToken rest with
  | .error error => .error error
  | .ok (.eof, _) => .error .truncatedEnvelope
  | .ok (token, rest) => .ok (token, rest)

/-- The loop until every container is closed. -/
def skipContainers : Nat → List ContainerState → Bytes → Except PskError Bytes
  | _, [], rest => .ok rest
  | 0, _ :: _, _ => .error .truncatedEnvelope
  | fuel + 1, state :: below, rest =>
    match nextContainerToken rest with
    | .error error => .error error
    | .ok (token, rest) =>
      match processContainerToken state token below with
      | .error error => .error error
      | .ok stack => skipContainers fuel stack rest

/-- A container whose opening token was read. -/
def skipUntilMatching (close : Tok) (rest : Bytes) : Except PskError Bytes :=
  match close with
  | .rBrace => skipContainers rest.length [.objectKeyOrEnd] rest
  | .rBracket => skipContainers rest.length [.arrayValueOrEnd] rest
  | _ => .error .unexpectedToken

def skipValue (rest : Bytes) : Except PskError Bytes :=
  match Tokenizer.nextToken rest with
  | .error error => .error error
  | .ok (token, rest) =>
    match token with
    | .num digits =>
      match parseU64Num digits with
      | .error error => .error error
      | .ok _ => .ok rest
    | .str _ | .true | .false | .null => .ok rest
    | .lBrace => skipUntilMatching .rBrace rest
    | .lBracket => skipUntilMatching .rBracket rest
    | _ => .error .unexpectedToken

/-! ## A member with an unknown key -/

def expectString (rest : Bytes) : Except PskError (Bytes × Bytes) :=
  match Tokenizer.nextToken rest with
  | .error error => .error error
  | .ok (.str content, rest) => .ok (content, rest)
  | .ok _ => .error .unexpectedToken

def expectColon (rest : Bytes) : Except PskError Bytes :=
  match Tokenizer.nextToken rest with
  | .error error => .error error
  | .ok (.colon, rest) => .ok rest
  | .ok _ => .error .unexpectedToken

/-- What the schema parsers do with a member whose key they do not know: the bytes that
`preserve_unknown` captures, and what is left. -/
def preserveUnknown (rest : Bytes) : Except PskError (Bytes × Bytes) := do
  let (_, behindKey) ← expectString rest
  let behindColon ← expectColon behindKey
  let after ← skipValue behindColon
  return (rest.take (rest.length - after.length), after)

end KaspaPortal.Transaction.Pskt.Standard
