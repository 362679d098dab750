import KaspaPortal.Primitives.Hex
import KaspaPortal.Transaction.Pskt.Json

/-!
# The PSKT schema and its check of a document

`src/transaction/interchange/pskt/schema/mod.rs` and `tables.rs`, and the adapter
`pipeline/schema_validate.rs` that applies them to a JSON document: which fields a
scope has, which must be there, which may be null, and the broad type of each. The
class of a field is read by nothing and left out.

Errors name the field that was refused and keep the source's texts; the first
failing check decides which one is reported.
-/
namespace KaspaPortal.Transaction.Pskt
open Lib Primitives

def PSKT_VERSION : UInt64 := 0
def MAX_SUPPORTED_TX_VERSION : UInt64 := 1
def SIGHASH_ALL : UInt8 := 1
def MAX_SIGNATURES_PER_INPUT : UInt8 := 5

/-- The objects of a document, each with fields of its own. -/
inductive Scope where
  | topLevel | global | input | inputUtxo | inputOutpoint | output | covenantExecution
  | covenantBinding | partialSignature
  deriving DecidableEq, Repr

/-- Whether `null` may stand for an absent value. -/
inductive NullRule where
  | forbidden | allowedAsDefault
  deriving DecidableEq, Repr

/-- The shapes a field's value can be asked for. -/
inductive ValueKind where
  | object | array | boolean | exactUnsigned | string | hexString | scriptPublicKey
  deriving DecidableEq, Repr

/-- What stands for a field that is absent or `null`. -/
inductive DefaultRule where
  | none | zero | one | false | emptyObject | emptyBytes | nativeSubnetwork
  deriving DecidableEq, Repr

/-- The rule's name, as `{:?}` prints it. -/
def DefaultRule.debugName : DefaultRule → String
  | .none => "None"
  | .zero => "Zero"
  | .one => "One"
  | .false => "False"
  | .emptyObject => "EmptyObject"
  | .emptyBytes => "EmptyBytes"
  | .nativeSubnetwork => "NativeSubnetwork"

/-- One row of the schema. -/
structure FieldSpec where
  name : String
  required : Bool
  nullRule : NullRule
  kind : ValueKind
  default : DefaultRule
  deriving DecidableEq, Repr

/-- A field that must be there and is never null. -/
def needed (name : String) (kind : ValueKind) : FieldSpec := ⟨name, true, .forbidden, kind, .none⟩

/-- A field that may be left out but not null. -/
def optional (name : String) (kind : ValueKind) (default : DefaultRule) : FieldSpec :=
  ⟨name, false, .forbidden, kind, default⟩

/-- A field that may be left out or null. -/
def nullable (name : String) (kind : ValueKind) (default : DefaultRule) : FieldSpec :=
  ⟨name, false, .allowedAsDefault, kind, default⟩

/-- The tables of the source, in its order. -/
def TOP_LEVEL_FIELDS : List FieldSpec :=
  [needed "global" .object, needed "inputs" .array, needed "outputs" .array]

def GLOBAL_FIELDS : List FieldSpec :=
  [needed "version" .exactUnsigned,
   needed "txVersion" .exactUnsigned,
   needed "inputCount" .exactUnsigned,
   needed "outputCount" .exactUnsigned,
   nullable "fallbackLockTime" .exactUnsigned .zero,
   optional "inputsModifiable" .boolean .false,
   optional "outputsModifiable" .boolean .false,
   optional "xpubs" .object .emptyObject,
   nullable "id" .string .none,
   optional "proprietaries" .object .emptyObject,
   nullable "subnetworkId" .hexString .nativeSubnetwork,
   nullable "gas" .exactUnsigned .zero,
   nullable "txPayload" .hexString .emptyBytes]

/-- Only the outpoint, the spent entry and the sighash type must be there. -/
def INPUT_FIELDS : List FieldSpec :=
  [needed "utxoEntry" .object,
   needed "previousOutpoint" .object,
   needed "sighashType" .exactUnsigned,
   optional "sequence" .exactUnsigned .zero,
   nullable "minTime" .exactUnsigned .zero,
   optional "partialSigs" .object .emptyObject,
   nullable "redeemScript" .hexString .emptyBytes,
   optional "sigOpCount" .exactUnsigned .one,
   optional "bip32Derivations" .object .emptyObject,
   nullable "finalScriptSig" .hexString .emptyBytes,
   nullable "covenantExecution" .object .none,
   optional "proprietaries" .object .emptyObject,
   optional "minimumSignatures" .exactUnsigned .one]

/-- The fields of the spent entry. -/
def UTXO_FIELDS : List FieldSpec :=
  [needed "amount" .exactUnsigned,
   needed "scriptPublicKey" .scriptPublicKey,
   optional "blockDaaScore" .exactUnsigned .zero,
   optional "isCoinbase" .boolean .false,
   nullable "covenantId" .hexString .none]

def OUTPOINT_FIELDS : List FieldSpec :=
  [needed "transactionId" .hexString, needed "index" .exactUnsigned]

def OUTPUT_FIELDS : List FieldSpec :=
  [needed "amount" .exactUnsigned,
   needed "scriptPublicKey" .scriptPublicKey,
   nullable "redeemScript" .hexString .emptyBytes,
   optional "bip32Derivations" .object .emptyObject,
   nullable "covenantBinding" .object .none,
   optional "proprietaries" .object .emptyObject]

/-- Both masks are needed once the object is there. -/
def COVENANT_EXECUTION_FIELDS : List FieldSpec :=
  [needed "suppliedMask" .exactUnsigned, needed "suppliedTrueMask" .exactUnsigned]

def COVENANT_BINDING_FIELDS : List FieldSpec :=
  [needed "authorizingInput" .exactUnsigned, needed "covenantId" .hexString]

/-- A partial signature is keyed by its public key; the object holds the signature. -/
def PARTIAL_SIGNATURE_FIELDS : List FieldSpec := [needed "schnorr" .hexString]

def fields : Scope → List FieldSpec
  | .topLevel => TOP_LEVEL_FIELDS
  | .global => GLOBAL_FIELDS
  | .input => INPUT_FIELDS
  | .inputUtxo => UTXO_FIELDS
  | .inputOutpoint => OUTPOINT_FIELDS
  | .output => OUTPUT_FIELDS
  | .covenantExecution => COVENANT_EXECUTION_FIELDS
  | .covenantBinding => COVENANT_BINDING_FIELDS
  | .partialSignature => PARTIAL_SIGNATURE_FIELDS

/-- The names are distinct within a scope, so the first row with a name is the only one. -/
def fieldSpec (scope : Scope) (name : Bytes) : Option FieldSpec :=
  (fields scope).find? fun spec => ascii spec.name == name

/-- A field the schema does not know has no default. -/
def defaultRule (scope : Scope) (name : Bytes) : DefaultRule :=
  ((fieldSpec scope name).map (·.default)).getD .none

def supportedTxVersionU64 (version : UInt64) : Bool := version ≤ MAX_SUPPORTED_TX_VERSION

/-! ## The check of a document -/

/-- `input[3]` and the like. -/
def at_ (name : String) (index : Nat) : String := name ++ "[" ++ toString index ++ "]"

/-- A number is asked of the schema, and a rule that is not one is an error of the program. -/
def defaultU64 (scope : Scope) (field : String) : Except String UInt64 :=
  match defaultRule scope (ascii field) with
  | .zero => .ok 0
  | .one => .ok 1
  | other => .error (field ++ " has no unsigned-integer default (" ++ other.debugName ++ ")")

/-- A member of `object` as an object; `label` names it. -/
def requiredObject (object : Members) (key label : String) : Except String Members :=
  okOr (label ++ " must be an object") ((object.get (ascii key)).bind Json.asObject)

def requiredArray (object : Members) (key label : String) : Except String (List Json) :=
  okOr (label ++ " must be an array") ((object.get (ascii key)).bind Json.asArray)

def optionalObject (value : Option Json) (label : String) : Except String (Option Members) :=
  match value with
  | none | some .null => .ok none
  | some (.object object) => .ok (some object)
  | some _ => .error (label ++ " must be an object or null")

/-- An amount is a number or a string of digits. Both are read without rounding. -/
def parseExactUnsigned (value : Json) (label : String) : Except String UInt64 :=
  match value with
  | .string digits => (parseCanonicalU64Bytes digits).mapError fun _ =>
      label ++ " must be a canonical unsigned decimal string"
  | .number value => do
    let integer ← okOr (label ++ " must be an unsigned integer") (Json.number value).asU64
    rejectIf (jsonNumberIsExactInteger integer = false)
      ("legacy numeric " ++ label ++
        " exceeds JavaScript's exact integer range; encode it as a decimal string")
    return integer
  | _ => .error (label ++ " must be a decimal string or exact legacy integer")

/-- `0`..`9` or `a`..`f`. -/
def isLowerHex (b : UInt8) : Bool := Cursor.isDigit b ∨ (0x61 ≤ b ∧ b ≤ 0x66)

/-- Lower-case digits, two for each byte. -/
def validateHex (value : Bytes) (label : String) : Except String Unit :=
  rejectIf (¬ (value.length % 2 = 0 ∧ value.all isLowerHex = true))
    (label ++ " must be even-length lowercase hexadecimal")

/-- Two bytes of version stand before the script. -/
def validateScriptPublicKeyShape (value : Bytes) (label : String) : Except String Unit := do
  rejectIf (value.length < 4) (label ++ " must contain a four-hex-digit script version")
  validateHex value label

/-- The shape of one value. -/
def validateKind (value : Json) (kind : ValueKind) (label : String) : Except String Unit :=
  match kind, value with
  | .object, .object _ | .array, .array _ | .boolean, .bool _ | .string, .string _ => .ok ()
  | .exactUnsigned, _ => (parseExactUnsigned value label).map fun _ => ()
  | .hexString, _ => do
    let value ← okOr (label ++ " must be a lowercase hexadecimal string") value.asStr
    validateHex value label
  | .scriptPublicKey, _ => do
    let value ← okOr (label ++ " must be a scriptPublicKey string") value.asStr
    validateScriptPublicKeyShape value label
  | _, _ => .error (label ++ " has the wrong JSON type")

/-- In the order of the table, so that the first missing field names the error. -/
def validateRequiredFields (object : Members) (scope : Scope) (label : String) :
    Except String Unit :=
  (fields scope).forM fun spec =>
    rejectIf (spec.required = true ∧ object.has (ascii spec.name) = false)
      ("missing " ++ label ++ "." ++ spec.name)

/-- Fields the schema does not know are kept as they are. -/
def validateObjectField (scope : Scope) (label : String) (key : Bytes) (value : Json) :
    Except String Unit :=
  match fieldSpec scope key with
  | none => .ok ()
  | some spec =>
    if value.isNull then
      rejectIf (spec.nullRule = .forbidden) (label ++ "." ++ text key ++ " must not be null")
    else validateKind value spec.kind (label ++ "." ++ text key)

/-- Required fields first, then every member the schema knows. -/
def validateObject (object : Members) (scope : Scope) (label : String) : Except String Unit := do
  validateRequiredFields object scope label
  object.forM fun (key, value) => validateObjectField scope label key value

/-- The two objects every input holds. -/
def validateInputNestedObjects (input : Members) (label : String) : Except String Unit := do
  let utxo ← requiredObject input "utxoEntry" (label ++ ".utxoEntry")
  validateObject utxo .inputUtxo (label ++ ".utxoEntry")
  let outpoint ← requiredObject input "previousOutpoint" (label ++ ".previousOutpoint")
  validateObject outpoint .inputOutpoint (label ++ ".previousOutpoint")
  match ← optionalObject (input.get (ascii "covenantExecution")) (label ++ ".covenantExecution") with
  | none => return ()
  | some execution => validateObject execution .covenantExecution (label ++ ".covenantExecution")

/-- At least one, and no more than an input has slots for. -/
def validateMinimumSignatures (value : Json) (label : String) : Except String Unit := do
  let count ← parseExactUnsigned value (label ++ ".minimumSignatures")
  rejectIf (count = 0 ∨ MAX_SIGNATURES_PER_INPUT.toNat < count.toNat)
    (label ++ ".minimumSignatures must be within 1..=" ++ toString MAX_SIGNATURES_PER_INPUT.toNat)

/-- Only the type that commits to everything. -/
def validateSighashType (value : Json) (label : String) : Except String Unit := do
  let sighash ← parseExactUnsigned value (label ++ ".sighashType")
  rejectIf (sighash.toNat ≠ SIGHASH_ALL.toNat)
    (label ++ ".sighashType is unsupported: " ++ toString sighash.toNat)

/-- Check a member when it is there. -/
def whenPresent (value : Option Json) (check : Json → Except String Unit) : Except String Unit :=
  match value with
  | none => .ok ()
  | some value => check value

/-- Rules of values, which the table cannot say. -/
def validateInputSemantics (input : Members) (label : String) : Except String Unit := do
  whenPresent (input.get (ascii "sighashType")) (validateSighashType · label)
  whenPresent (input.get (ascii "minimumSignatures")) (validateMinimumSignatures · label)

def validatePartialSignatureObject (value : Json) (label : String) : Except String Unit := do
  let signature ← okOr (label ++ " must be an object") value.asObject
  validateObject signature .partialSignature label

/-- Every member is a partial signature, whatever its name. -/
def validateInputPartials (input : Members) (label : String) : Except String Unit := do
  match ← optionalObject (input.get (ascii "partialSigs")) (label ++ ".partialSigs") with
  | none => return ()
  | some partials =>
    rejectIf (MAX_SIGNATURES_PER_INPUT.toNat < partials.length)
      (label ++ ".partialSigs exceeds the five-signature consumer limit")
    partials.forM fun (key, value) =>
      validatePartialSignatureObject value (label ++ ".partialSigs[" ++ text key ++ "]")

/-- An error names the input by its position. -/
def validateInput (value : Json) (index : Nat) : Except String Unit := do
  let label := at_ "input" index
  let input ← okOr (label ++ " must be an object") value.asObject
  validateObject input .input label
  validateInputNestedObjects input label
  validateInputSemantics input label
  validateInputPartials input label

def validateOutput (value : Json) (index : Nat) : Except String Unit := do
  let label := at_ "output" index
  let output ← okOr (label ++ " must be an object") value.asObject
  validateObject output .output label
  match ← optionalObject (output.get (ascii "covenantBinding")) (label ++ ".covenantBinding") with
  | none => return ()
  | some binding => validateObject binding .covenantBinding (label ++ ".covenantBinding")

/-- Every value of an array, with its position. -/
def forEach (check : Json → Nat → Except String Unit) (values : List Json) : Except String Unit :=
  values.zipIdx.forM fun (value, index) => check value index

/-- A field of the global map that was already required to be there. -/
def globalUnsigned (global : Members) (field : String) : Except String UInt64 := do
  let value ← okOr ("missing global." ++ field) (global.get (ascii field))
  parseExactUnsigned value ("global." ++ field)

/-- The version of the format, which is not the transaction's. -/
def validatePsktVersion (global : Members) : Except String Unit := do
  let version ← globalUnsigned global "version"
  rejectIf (version ≠ PSKT_VERSION) ("unsupported PSKT version: " ++ toString version.toNat)

def validateTransactionVersion (global : Members) : Except String Unit := do
  let txVersion ← globalUnsigned global "txVersion"
  rejectIf (supportedTxVersionU64 txVersion = false)
    ("unsupported transaction version: " ++ toString txVersion.toNat)

/-- The counts must be those of the two arrays. -/
def validateDeclaredCounts (global : Members) (inputLen outputLen : Nat) : Except String Unit := do
  let declaredInputs ← globalUnsigned global "inputCount"
  let declaredOutputs ← globalUnsigned global "outputCount"
  rejectIf (declaredInputs.toNat ≠ inputLen ∨ declaredOutputs.toNat ≠ outputLen)
    "declared PSKT input/output counts do not match arrays"

def validateGlobalSemantics (global : Members) (inputLen outputLen : Nat) : Except String Unit := do
  validatePsktVersion global
  validateTransactionVersion global
  validateDeclaredCounts global inputLen outputLen

/-- Every check of a document, in the order of the source. -/
def validateDocument (document : Members) : Except String Unit := do
  validateObject document .topLevel "PSKT"
  let global ← requiredObject document "global" "PSKT.global"
  validateObject global .global "global"
  let inputs ← requiredArray document "inputs" "PSKT.inputs"
  let outputs ← requiredArray document "outputs" "PSKT.outputs"
  forEach validateInput inputs
  validateGlobalSemantics global inputs.length outputs.length
  forEach validateOutput outputs

/-! ## What the check accepts -/

/-- What a value of each kind is. -/
def KindFits : ValueKind → Json → Prop
  | .object, value => ∃ members, value = .object members
  | .array, value => ∃ items, value = .array items
  | .boolean, value => ∃ flag, value = .bool flag
  | .string, value => ∃ content, value = .string content
  | .exactUnsigned, value => ∃ integer, ExactInteger value integer
  | .hexString, value => ∃ bytes, value = .string (encodeLowerHex bytes)
  | .scriptPublicKey, value => ∃ bytes : Bytes, value = .string (encodeLowerHex bytes) ∧ 2 ≤ bytes.length

/-- Null where the field allows it, else a value of its kind. -/
def FieldFits (spec : FieldSpec) (value : Json) : Prop :=
  if value.isNull = true then spec.nullRule = .allowedAsDefault else KindFits spec.kind value

/-- The fields the scope requires are there, and every member it knows fits. -/
structure FitsScope (object : Members) (scope : Scope) : Prop where
  required : ∀ spec ∈ fields scope, spec.required = true → object.has (ascii spec.name) = true
  fits : ∀ key value spec, (key, value) ∈ object → fieldSpec scope key = some spec → FieldFits spec value

/-- Acceptance of a number, in either spelling. -/
theorem parseExactUnsigned_ok {value : Json} {label : String} {integer : UInt64} :
    parseExactUnsigned value label = .ok integer ↔ ExactInteger value integer := by
  cases value with
  | string digits =>
    rw [parseExactUnsigned, mapError_eq_ok, parseCanonicalU64Bytes_ok]
    constructor
    · intro h
      exact .text h.1 h.2
    · intro h
      cases h with
      | text hcanonical hvalue => exact ⟨hcanonical, hvalue⟩
  | number number => exact exactNumber_ok
  | _ => exact ⟨nofun, nofun⟩

/-- The two ways the source recognises a digit agree. -/
theorem isLowerHex_iff (digit : UInt8) :
    isLowerHex digit = true ↔ (decodeLowerHexNibble digit).isSome = true := by
  rw [decodeLowerHexNibble_isSome, isLowerHex, decide_eq_true_iff, Cursor.isDigit, decide_eq_true_iff]

/-- Accepted text is the lower-case hexadecimal of some bytes. -/
theorem validateHex_ok {value : Bytes} {label : String} :
    validateHex value label = .ok () ↔ ∃ bytes, value = encodeLowerHex bytes := by
  rw [validateHex, rejectIf_eq_ok, not_not, List.all_eq_true, ← lowerHex_iff]
  simp only [isLowerHex_iff]

/-- The hexadecimal of at least two bytes. -/
theorem validateScriptPublicKeyShape_ok {value : Bytes} {label : String} :
    validateScriptPublicKeyShape value label = .ok () ↔
      ∃ bytes : Bytes, value = encodeLowerHex bytes ∧ 2 ≤ bytes.length := by
  rw [validateScriptPublicKeyShape, bind_eq_ok]
  constructor
  · intro h
    obtain ⟨_, hlong, h⟩ := h
    obtain ⟨bytes, rfl⟩ := validateHex_ok.mp h
    have hlong := rejectIf_eq_ok.mp hlong
    rw [encodeLowerHex_length] at hlong
    exact ⟨bytes, rfl, by omega⟩
  · intro h
    obtain ⟨bytes, rfl, hlong⟩ := h
    refine ⟨(), rejectIf_neg ?_, validateHex_ok.mpr ⟨bytes, rfl⟩⟩
    rw [encodeLowerHex_length]
    omega

/-- A text that is looked at as a byte string. -/
theorem textField_ok {value : Json} {error : String} {check : Bytes → Except String Unit} {Good : Bytes → Prop}
    (hcheck : ∀ text, check text = .ok () ↔ Good text) :
    (okOr error value.asStr >>= check) = .ok () ↔ ∃ text, value = .string text ∧ Good text := by
  rw [bind_eq_ok]
  simp only [okOr_eq_ok, Json.asStr_eq_some, hcheck]

/-- The check of a shape decides the shape. -/
theorem validateKind_ok {value : Json} {kind : ValueKind} {label : String} :
    validateKind value kind label = .ok () ↔ KindFits kind value := by
  cases kind with
  | exactUnsigned =>
    rw [validateKind, map_eq_ok]
    simp only [parseExactUnsigned_ok, KindFits, and_true]
  | hexString =>
    refine (textField_ok fun text => validateHex_ok).trans ?_
    constructor
    · intro h
      obtain ⟨text, rfl, bytes, rfl⟩ := h
      exact ⟨bytes, rfl⟩
    · intro h
      obtain ⟨bytes, rfl⟩ := h
      exact ⟨_, rfl, bytes, rfl⟩
  | scriptPublicKey =>
    refine (textField_ok fun text => validateScriptPublicKeyShape_ok).trans ?_
    constructor
    · intro h
      obtain ⟨text, rfl, bytes, rfl, hlong⟩ := h
      exact ⟨bytes, rfl, hlong⟩
    · intro h
      obtain ⟨bytes, rfl, hlong⟩ := h
      exact ⟨_, rfl, bytes, rfl, hlong⟩
  | _ => cases value <;> simp [validateKind, KindFits]

/-- A member the schema does not know is let through. -/
theorem validateObjectField_ok {scope : Scope} {label : String} {key : Bytes} {value : Json} :
    validateObjectField scope label key value = .ok () ↔
      ∀ spec, fieldSpec scope key = some spec → FieldFits spec value := by
  rw [validateObjectField]
  cases hspec : fieldSpec scope key with
  | none => exact ⟨nofun, fun _ => rfl⟩
  | some spec =>
    have hsole : (∀ spec', some spec = some spec' → FieldFits spec' value) ↔ FieldFits spec value :=
      ⟨fun h => h spec rfl, fun h spec' heq => Option.some.inj heq ▸ h⟩
    rw [hsole, FieldFits]
    dsimp only
    split
    case isTrue =>
      rw [rejectIf_eq_ok]
      cases spec.nullRule <;> simp
    case isFalse => exact validateKind_ok

/-- The check of one object, whatever it is called. -/
theorem validateObject_ok {object : Members} {scope : Scope} {label : String} :
    validateObject object scope label = .ok () ↔ FitsScope object scope := by
  rw [validateObject, bind_eq_ok, validateRequiredFields]
  simp only [forM_eq_ok, rejectIf_eq_ok, validateObjectField_ok]
  constructor
  · intro h
    obtain ⟨_, hrequired, hfits⟩ := h
    refine ⟨fun spec hspec hneeded => ?_, fun key value spec hmem => hfits (key, value) hmem spec⟩
    exact Bool.not_eq_false _ ▸ fun habsent => hrequired spec hspec ⟨hneeded, habsent⟩
  · intro h
    refine ⟨(), fun spec hspec hmissing => ?_, fun member hmem spec => h.fits member.1 member.2 spec hmem⟩
    exact absurd (h.required spec hspec hmissing.1) (hmissing.2 ▸ Bool.false_ne_true)

/-- A member that is an object of a scope. -/
def ObjectAt (object : Members) (key : String) (scope : Scope) : Prop :=
  ∃ inner, object.get (ascii key) = some (.object inner) ∧ FitsScope inner scope

/-- A member that is left out or null, or an object with a property. -/
def OptionalAt (object : Members) (key : String) (Good : Members → Prop) : Prop :=
  object.get (ascii key) = none ∨ object.get (ascii key) = some .null ∨
    ∃ inner, object.get (ascii key) = some (.object inner) ∧ Good inner

/-- A member that is left out, or an integer with a property. -/
def IntegerIfThere (object : Members) (key : String) (Good : UInt64 → Prop) : Prop :=
  ∀ value, object.get (ascii key) = some value → ∃ integer, ExactInteger value integer ∧ Good integer

theorem requiredObject_ok {object inner : Members} {key label : String} :
    requiredObject object key label = .ok inner ↔ object.get (ascii key) = some (.object inner) := by
  rw [requiredObject, okOr_eq_ok, Option.bind_eq_some_iff]
  simp only [Json.asObject_eq_some, exists_eq_right]

theorem requiredArray_ok {object : Members} {items : List Json} {key label : String} :
    requiredArray object key label = .ok items ↔ object.get (ascii key) = some (.array items) := by
  rw [requiredArray, okOr_eq_ok, Option.bind_eq_some_iff]
  simp only [Json.asArray_eq_some, exists_eq_right]

/-- An optional object is checked only when it is there and not `null`. -/
theorem optionalAt_ok {object : Members} {key label : String} {check : Members → Except String Unit}
    {Good : Members → Prop} (hcheck : ∀ inner, check inner = .ok () ↔ Good inner) :
    (do
      match ← optionalObject (object.get (ascii key)) label with
      | none => return ()
      | some inner => check inner : Except String Unit) = .ok () ↔ OptionalAt object key Good := by
  rw [OptionalAt]
  cases hget : object.get (ascii key) with
  | none => exact ⟨fun _ => .inl rfl, fun _ => rfl⟩
  | some value =>
    cases value with
    | null => exact ⟨fun _ => .inr (.inl rfl), fun _ => rfl⟩
    | object inner =>
      constructor
      · intro h
        exact .inr (.inr ⟨inner, rfl, (hcheck inner).mp h⟩)
      · intro h
        rcases h with h | h | ⟨inner', h, hgood⟩
        · cases h
        · cases h
        · cases h
          exact (hcheck inner).mpr hgood
    | _ =>
      constructor
      · intro h
        cases h
      · intro h
        rcases h with h | h | ⟨inner', h, hgood⟩ <;> cases h

/-- An absent value passes every check. -/
theorem whenPresent_ok {value : Option Json} {check : Json → Except String Unit} :
    whenPresent value check = .ok () ↔ ∀ json, value = some json → check json = .ok () := by
  cases value with
  | none => exact ⟨nofun, fun _ => rfl⟩
  | some json => exact ⟨fun h json' heq => Option.some.inj heq ▸ h, fun h => h json rfl⟩

/-- An integer that is read and then looked at. -/
theorem checkedInteger_ok {value : Json} {label : String} {bad : UInt64 → Prop} [DecidablePred bad]
    {error : UInt64 → String} :
    (do
      let integer ← parseExactUnsigned value label
      rejectIf (bad integer) (error integer) : Except String Unit) = .ok () ↔
        ∃ integer, ExactInteger value integer ∧ ¬ bad integer := by
  rw [bind_eq_ok]
  simp only [parseExactUnsigned_ok, rejectIf_eq_ok]

theorem validateMinimumSignatures_ok {value : Json} {label : String} :
    validateMinimumSignatures value label = .ok () ↔ ∃ count, ExactInteger value count ∧
      ¬(count = 0 ∨ MAX_SIGNATURES_PER_INPUT.toNat < count.toNat) :=
  checkedInteger_ok

theorem validateSighashType_ok {value : Json} {label : String} :
    validateSighashType value label = .ok () ↔ ∃ sighash, ExactInteger value sighash ∧
      ¬ sighash.toNat ≠ SIGHASH_ALL.toNat :=
  checkedInteger_ok

/-- An input that the check accepts. -/
structure InputFits (input : Members) : Prop where
  scope : FitsScope input .input
  utxoEntry : ObjectAt input "utxoEntry" .inputUtxo
  previousOutpoint : ObjectAt input "previousOutpoint" .inputOutpoint
  covenantExecution : OptionalAt input "covenantExecution" (FitsScope · .covenantExecution)
  sighashType : IntegerIfThere input "sighashType" fun sighash => sighash.toNat = SIGHASH_ALL.toNat
  minimumSignatures : IntegerIfThere input "minimumSignatures" fun count =>
    count ≠ 0 ∧ count.toNat ≤ MAX_SIGNATURES_PER_INPUT.toNat
  partialSigs : OptionalAt input "partialSigs" fun partials =>
    partials.length ≤ MAX_SIGNATURES_PER_INPUT.toNat ∧ ∀ member ∈ partials,
      ∃ signature, member.2 = .object signature ∧ FitsScope signature .partialSignature

/-- Both objects are there, and fit their scopes. -/
theorem validateInputNestedObjects_ok {input : Members} {label : String} :
    validateInputNestedObjects input label = .ok () ↔ ObjectAt input "utxoEntry" .inputUtxo ∧
      ObjectAt input "previousOutpoint" .inputOutpoint ∧
      OptionalAt input "covenantExecution" (FitsScope · .covenantExecution) := by
  rw [validateInputNestedObjects, bind_eq_ok]
  constructor
  · intro h
    obtain ⟨utxo, hutxo, h⟩ := h
    obtain ⟨_, hutxoFits, h⟩ := bind_eq_ok.mp h
    obtain ⟨outpoint, houtpoint, h⟩ := bind_eq_ok.mp h
    obtain ⟨_, houtpointFits, h⟩ := bind_eq_ok.mp h
    exact ⟨⟨utxo, requiredObject_ok.mp hutxo, validateObject_ok.mp hutxoFits⟩,
      ⟨outpoint, requiredObject_ok.mp houtpoint, validateObject_ok.mp houtpointFits⟩,
      (optionalAt_ok fun _ => validateObject_ok).mp h⟩
  · intro h
    obtain ⟨⟨utxo, hutxo, hutxoFits⟩, ⟨outpoint, houtpoint, houtpointFits⟩, hexecution⟩ := h
    refine ⟨utxo, requiredObject_ok.mpr hutxo, bind_eq_ok.mpr ⟨(), validateObject_ok.mpr hutxoFits, ?_⟩⟩
    refine bind_eq_ok.mpr ⟨outpoint, requiredObject_ok.mpr houtpoint, ?_⟩
    exact bind_eq_ok.mpr ⟨(), validateObject_ok.mpr houtpointFits,
      (optionalAt_ok fun _ => validateObject_ok).mpr hexecution⟩

theorem validateInputSemantics_ok {input : Members} {label : String} :
    validateInputSemantics input label = .ok () ↔
      (IntegerIfThere input "sighashType" fun sighash => sighash.toNat = SIGHASH_ALL.toNat) ∧
      IntegerIfThere input "minimumSignatures" fun count =>
        count ≠ 0 ∧ count.toNat ≤ MAX_SIGNATURES_PER_INPUT.toNat := by
  rw [validateInputSemantics, seq_eq_ok]
  simp only [whenPresent_ok, validateSighashType_ok, validateMinimumSignatures_ok, IntegerIfThere, not_or,
    not_not, Nat.not_lt, ne_eq]

theorem validatePartialSignatureObject_ok {value : Json} {label : String} :
    validatePartialSignatureObject value label = .ok () ↔
      ∃ signature, value = .object signature ∧ FitsScope signature .partialSignature := by
  rw [validatePartialSignatureObject, bind_eq_ok]
  simp only [okOr_eq_ok, Json.asObject_eq_some, validateObject_ok]

/-- All members fit, when there are any. -/
theorem validateInputPartials_ok {input : Members} {label : String} :
    validateInputPartials input label = .ok () ↔
      OptionalAt input "partialSigs" fun partials =>
        partials.length ≤ MAX_SIGNATURES_PER_INPUT.toNat ∧ ∀ member ∈ partials,
          ∃ signature, member.2 = .object signature ∧ FitsScope signature .partialSignature := by
  refine optionalAt_ok fun partials => ?_
  rw [seq_eq_ok]
  simp only [rejectIf_eq_ok, forM_eq_ok, validatePartialSignatureObject_ok, Nat.not_lt]

/-- An input is accepted exactly when it fits; the position only names the error. -/
theorem validateInput_ok {value : Json} {index : Nat} :
    validateInput value index = .ok () ↔ ∃ input, value = .object input ∧ InputFits input := by
  rw [validateInput, bind_eq_ok]
  constructor
  · intro h
    obtain ⟨input, hinput, h⟩ := h
    obtain ⟨_, hscope, h⟩ := bind_eq_ok.mp h
    obtain ⟨_, hnested, h⟩ := bind_eq_ok.mp h
    obtain ⟨_, hsemantics, hpartials⟩ := bind_eq_ok.mp h
    obtain ⟨hutxo, houtpoint, hexecution⟩ := validateInputNestedObjects_ok.mp hnested
    obtain ⟨hsighash, hminimum⟩ := validateInputSemantics_ok.mp hsemantics
    exact ⟨input, Json.asObject_eq_some.mp (okOr_eq_ok.mp hinput), validateObject_ok.mp hscope, hutxo,
      houtpoint, hexecution, hsighash, hminimum, validateInputPartials_ok.mp hpartials⟩
  · intro h
    obtain ⟨input, rfl, hfits⟩ := h
    refine ⟨input, rfl, bind_eq_ok.mpr ⟨(), validateObject_ok.mpr hfits.scope, ?_⟩⟩
    refine bind_eq_ok.mpr ⟨(), ?_, bind_eq_ok.mpr ⟨(), ?_, ?_⟩⟩
    · exact validateInputNestedObjects_ok.mpr
        ⟨hfits.utxoEntry, hfits.previousOutpoint, hfits.covenantExecution⟩
    · exact validateInputSemantics_ok.mpr ⟨hfits.sighashType, hfits.minimumSignatures⟩
    · exact validateInputPartials_ok.mpr hfits.partialSigs

/-- An output that the check accepts. -/
structure OutputFits (output : Members) : Prop where
  scope : FitsScope output .output
  covenantBinding : OptionalAt output "covenantBinding" (FitsScope · .covenantBinding)

theorem validateOutput_ok {value : Json} {index : Nat} :
    validateOutput value index = .ok () ↔ ∃ output, value = .object output ∧ OutputFits output := by
  rw [validateOutput, bind_eq_ok]
  constructor
  · intro h
    obtain ⟨output, houtput, h⟩ := h
    obtain ⟨_, hscope, h⟩ := bind_eq_ok.mp h
    exact ⟨output, Json.asObject_eq_some.mp (okOr_eq_ok.mp houtput), validateObject_ok.mp hscope,
      (optionalAt_ok fun _ => validateObject_ok).mp h⟩
  · intro h
    obtain ⟨output, rfl, hfits⟩ := h
    exact ⟨output, rfl, bind_eq_ok.mpr ⟨(), validateObject_ok.mpr hfits.scope,
      (optionalAt_ok fun _ => validateObject_ok).mpr hfits.covenantBinding⟩⟩

/-- A check of each element is a property of each element. -/
theorem forEach_ok {check : Json → Nat → Except String Unit} {Good : Json → Prop}
    (hcheck : ∀ value index, check value index = .ok () ↔ Good value) (values : List Json) :
    forEach check values = .ok () ↔ ∀ value ∈ values, Good value := by
  rw [forEach, forM_eq_ok]
  constructor
  · intro h value hmem
    obtain ⟨index, hlt, hget⟩ := List.getElem_of_mem hmem
    have hindexed : (value, index) ∈ values.zipIdx := by
      rw [List.mem_zipIdx_iff_getElem?, List.getElem?_eq_getElem hlt, hget]
    exact (hcheck value index).mp (h _ hindexed)
  · intro h indexed hmem
    exact (hcheck indexed.1 indexed.2).mpr (h indexed.1 (List.fst_mem_of_mem_zipIdx hmem))

theorem inputs_ok {inputs : List Json} :
    forEach validateInput inputs = .ok () ↔
      ∀ value ∈ inputs, ∃ input, value = .object input ∧ InputFits input := by
  apply forEach_ok
  intro value index
  exact validateInput_ok

theorem outputs_ok {outputs : List Json} :
    forEach validateOutput outputs = .ok () ↔
      ∀ value ∈ outputs, ∃ output, value = .object output ∧ OutputFits output := by
  apply forEach_ok
  intro value index
  exact validateOutput_ok

/-- A member that is the integer. -/
def IntegerAt (object : Members) (key : String) (integer : UInt64) : Prop :=
  ∃ value, object.get (ascii key) = some value ∧ ExactInteger value integer

theorem globalUnsigned_ok {global : Members} {field : String} {integer : UInt64} :
    globalUnsigned global field = .ok integer ↔ IntegerAt global field integer := by
  rw [globalUnsigned, bind_eq_ok]
  simp only [okOr_eq_ok, parseExactUnsigned_ok, IntegerAt]

/-- The global map declares a version this schema has, a transaction version that is supported, and the
counts of the arrays. -/
structure Declares (global : Members) (inputLen outputLen : Nat) : Prop where
  version : IntegerAt global "version" PSKT_VERSION
  txVersion : ∃ txVersion, IntegerAt global "txVersion" txVersion ∧ txVersion ≤ MAX_SUPPORTED_TX_VERSION
  inputCount : ∃ count, IntegerAt global "inputCount" count ∧ count.toNat = inputLen
  outputCount : ∃ count, IntegerAt global "outputCount" count ∧ count.toNat = outputLen

/-- The global values are accepted exactly when they declare the two lengths. -/
theorem validateGlobalSemantics_ok {global : Members} {inputLen outputLen : Nat} :
    validateGlobalSemantics global inputLen outputLen = .ok () ↔ Declares global inputLen outputLen := by
  rw [validateGlobalSemantics, bind_eq_ok]
  constructor
  · intro h
    obtain ⟨_, hversion, h⟩ := h
    obtain ⟨_, htxVersion, hcounts⟩ := bind_eq_ok.mp h
    obtain ⟨version, hread, hversion⟩ := bind_eq_ok.mp hversion
    obtain ⟨txVersion, htx, htxVersion⟩ := bind_eq_ok.mp htxVersion
    obtain ⟨inputs, hinputs, hcounts⟩ := bind_eq_ok.mp hcounts
    obtain ⟨outputs, houtputs, hcounts⟩ := bind_eq_ok.mp hcounts
    have hsame := not_not.mp (rejectIf_eq_ok.mp hversion)
    have hsupported : supportedTxVersionU64 txVersion = true :=
      Bool.not_eq_false _ ▸ rejectIf_eq_ok.mp htxVersion
    obtain ⟨hin, hout⟩ := not_or.mp (rejectIf_eq_ok.mp hcounts)
    exact ⟨hsame ▸ globalUnsigned_ok.mp hread, ⟨txVersion, globalUnsigned_ok.mp htx, of_decide_eq_true hsupported⟩,
      ⟨inputs, globalUnsigned_ok.mp hinputs, not_not.mp hin⟩,
      ⟨outputs, globalUnsigned_ok.mp houtputs, not_not.mp hout⟩⟩
  · intro h
    obtain ⟨hversion, ⟨txVersion, htx, hsupported⟩, ⟨inputs, hinputs, hin⟩, ⟨outputs, houtputs, hout⟩⟩ := h
    refine ⟨(), ?_, bind_eq_ok.mpr ⟨(), ?_, ?_⟩⟩
    · exact bind_eq_ok.mpr ⟨PSKT_VERSION, globalUnsigned_ok.mpr hversion, rejectIf_neg (not_not.mpr rfl)⟩
    · have hknown : ¬ supportedTxVersionU64 txVersion = false := by
        rw [supportedTxVersionU64, decide_eq_true hsupported]
        exact Bool.noConfusion
      exact bind_eq_ok.mpr ⟨txVersion, globalUnsigned_ok.mpr htx, rejectIf_neg hknown⟩
    · refine bind_eq_ok.mpr ⟨inputs, globalUnsigned_ok.mpr hinputs, ?_⟩
      refine bind_eq_ok.mpr ⟨outputs, globalUnsigned_ok.mpr houtputs, rejectIf_neg ?_⟩
      exact not_or.mpr ⟨not_not.mpr hin, not_not.mpr hout⟩

/-- A document that the check accepts. -/
structure FitsSchema (document global : Members) (inputs outputs : List Json) : Prop where
  topLevel : FitsScope document .topLevel
  globalMap : document.get (ascii "global") = some (.object global)
  globalFits : FitsScope global .global
  inputArray : document.get (ascii "inputs") = some (.array inputs)
  outputArray : document.get (ascii "outputs") = some (.array outputs)
  inputsFit : ∀ value ∈ inputs, ∃ input, value = .object input ∧ InputFits input
  declares : Declares global inputs.length outputs.length
  outputsFit : ∀ value ∈ outputs, ∃ output, value = .object output ∧ OutputFits output

/-- The check of a document accepts exactly what the tables describe, scope by scope, with the counts that
the arrays have. Which member is looked at first and what it is called in a message plays no part. -/
theorem validateDocument_iff (document : Members) :
    validateDocument document = .ok () ↔
      ∃ global inputs outputs, FitsSchema document global inputs outputs := by
  rw [validateDocument, bind_eq_ok]
  constructor
  · intro h
    obtain ⟨_, htop, h⟩ := h
    obtain ⟨global, hglobal, h⟩ := bind_eq_ok.mp h
    obtain ⟨_, hglobalFits, h⟩ := bind_eq_ok.mp h
    obtain ⟨inputs, hinputs, h⟩ := bind_eq_ok.mp h
    obtain ⟨outputs, houtputs, h⟩ := bind_eq_ok.mp h
    obtain ⟨_, hinputsFit, h⟩ := bind_eq_ok.mp h
    obtain ⟨_, hdeclares, houtputsFit⟩ := bind_eq_ok.mp h
    exact ⟨global, inputs, outputs, validateObject_ok.mp htop, requiredObject_ok.mp hglobal,
      validateObject_ok.mp hglobalFits, requiredArray_ok.mp hinputs, requiredArray_ok.mp houtputs,
      inputs_ok.mp hinputsFit, validateGlobalSemantics_ok.mp hdeclares,
      outputs_ok.mp houtputsFit⟩
  · intro h
    obtain ⟨global, inputs, outputs, hfits⟩ := h
    refine ⟨(), validateObject_ok.mpr hfits.topLevel, ?_⟩
    refine bind_eq_ok.mpr ⟨global, requiredObject_ok.mpr hfits.globalMap, ?_⟩
    refine bind_eq_ok.mpr ⟨(), validateObject_ok.mpr hfits.globalFits, ?_⟩
    refine bind_eq_ok.mpr ⟨inputs, requiredArray_ok.mpr hfits.inputArray, ?_⟩
    refine bind_eq_ok.mpr ⟨outputs, requiredArray_ok.mpr hfits.outputArray, ?_⟩
    refine bind_eq_ok.mpr ⟨(), inputs_ok.mpr hfits.inputsFit, ?_⟩
    refine bind_eq_ok.mpr ⟨(), validateGlobalSemantics_ok.mpr hfits.declares, ?_⟩
    exact outputs_ok.mpr hfits.outputsFit

/-! ## The tables -/

/-- What a field that is left out stands for. -/
def DefaultRule.value : DefaultRule → Option Json
  | .none => .none
  | .zero => some (.number 0)
  | .one => some (.number 1)
  | .false => some (.bool Bool.false)
  | .emptyObject => some (.object [])
  | .emptyBytes => some (.string [])
  | .nativeSubnetwork => some (.string (encodeLowerHex (List.replicate 20 0)))

/-- The kinds a default may stand for. -/
def DefaultRule.serves : DefaultRule → ValueKind → Bool
  | .none, _ => true
  | .zero, kind | .one, kind => kind = .exactUnsigned
  | .false, kind => kind = .boolean
  | .emptyObject, kind => kind = .object
  | .emptyBytes, kind | .nativeSubnetwork, kind => kind = .hexString

/-- A default that serves a kind passes the check of the kind. -/
theorem DefaultRule.serves_fits {rule : DefaultRule} {kind : ValueKind} (h : rule.serves kind = true)
    {value : Json} (hvalue : rule.value = some value) : KindFits kind value := by
  cases rule with
  | none => cases hvalue
  | zero =>
    cases hvalue
    obtain rfl := of_decide_eq_true h
    have hexact : ExactInteger (.number (UInt64.toNat 0)) 0 := .legacy (by decide)
    exact ⟨0, hexact⟩
  | one =>
    cases hvalue
    obtain rfl := of_decide_eq_true h
    have hexact : ExactInteger (.number (UInt64.toNat 1)) 1 := .legacy (by decide)
    exact ⟨1, hexact⟩
  | false => cases hvalue; obtain rfl := of_decide_eq_true h; exact ⟨_, rfl⟩
  | emptyObject => cases hvalue; obtain rfl := of_decide_eq_true h; exact ⟨_, rfl⟩
  | emptyBytes => cases hvalue; obtain rfl := of_decide_eq_true h; exact ⟨[], rfl⟩
  | nativeSubnetwork => cases hvalue; obtain rfl := of_decide_eq_true h; exact ⟨_, rfl⟩

/-- Every default of every table passes the check of its own field, a field that must be there has none and
is never null, and no scope names a field twice. -/
theorem fields_consistent (scope : Scope) :
    ((fields scope).map (·.name)).Nodup ∧
      ∀ spec ∈ fields scope,
        (∀ value, spec.default.value = some value → FieldFits spec value) ∧
        (spec.required = true → spec.default = .none ∧ spec.nullRule = .forbidden) := by
  have hall : ∀ spec ∈ fields scope, spec.default.serves spec.kind = true ∧
      (spec.required = true → spec.default = .none ∧ spec.nullRule = .forbidden) := by
    cases scope <;> decide
  refine ⟨by cases scope <;> decide, fun spec hspec => ⟨fun value hvalue => ?_, (hall spec hspec).2⟩⟩
  have hnotNull : ¬ value.isNull = true := by
    cases hrule : spec.default with
    | none => rw [hrule] at hvalue; cases hvalue
    | _ => rw [hrule] at hvalue; cases hvalue; exact Bool.false_ne_true
  rw [FieldFits, if_neg hnotNull]
  exact DefaultRule.serves_fits (hall spec hspec).1 hvalue

/-- The integer fields that may be left out are those a reader finds an integer default for. -/
theorem defaultU64_ok (scope : Scope) {spec : FieldSpec} (hspec : spec ∈ fields scope)
    (hkind : spec.kind = .exactUnsigned) :
    (∃ value, defaultU64 scope spec.name = .ok value) ↔ spec.required = false := by
  have hall : ∀ spec ∈ fields scope, spec.kind = .exactUnsigned →
      ((defaultU64 scope spec.name).isOk = true ↔ spec.required = false) := by
    cases scope <;> decide
  rw [← hall spec hspec hkind]
  constructor
  · intro h
    obtain ⟨value, hvalue⟩ := h
    rw [hvalue]
    rfl
  · intro h
    exact exists_ok h

end KaspaPortal.Transaction.Pskt
