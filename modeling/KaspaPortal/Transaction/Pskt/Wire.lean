import KaspaPortal.Lib.Layout
import KaspaPortal.Primitives.Hex
import KaspaPortal.Transaction.Model
import KaspaPortal.Transaction.Pskt.Schema

/-!
# The PSKT envelope and its exact values

`src/transaction/interchange/pskt/pipeline/wire.rs`: the magic and the hexadecimal body
around one JSON document, and the integers, scripts and hints in it. The JSON library is
a parameter: it is handed a text only after the restricted grammar has accepted it.
`document_mut`, the functions that attach a derivation to a document and `attach_sole_signature`
are not modelled.
-/
namespace KaspaPortal.Transaction.Pskt
open Lib Primitives Model

def PSKB_MAGIC : Bytes := ascii "PSKB"
def PSKT_MAGIC : Bytes := ascii "PSKT"
def MAX_PSKT_JSON_BYTES : Nat := 2 * MAX_PAYLOAD_SIZE + 65535
def MAX_PSKT_WIRE_HEX_CHARS : Nat := 2 * (4 + 2 * MAX_PSKT_JSON_BYTES)
def HARDENED_BIT : UInt32 := 0x80000000

/-- `serde_json::from_slice` into a value. -/
abbrev FromSlice := Bytes → Except String Json

inductive Format where
  | pskb | pskt
  deriving DecidableEq, Repr

/-- `decode_lower_hex`: the bytes of a text, or which field is not one. -/
def decodeHexField (value : Bytes) (field : String) : Except String Bytes :=
  okOr (field ++ " must be even-length lowercase hexadecimal") (decodeLowerHex value)

def parseStrictJson (fromSlice : FromSlice) (json : Bytes) : Except String Json := do
  (validateCanonicalJson json).mapError JsonSyntaxError.message
  (fromSlice json).mapError ("JSON parse after canonical validation: " ++ ·)

def decodedWireFormat (wire : Bytes) : Except String Format := do
  rejectIf (wire.length < 4) "payload too short"
  if wire.take 4 = PSKB_MAGIC then return .pskb
  else if wire.take 4 = PSKT_MAGIC then return .pskt
  else throw "Not a PSKT/PSKB payload"

def decodeJsonBodyHex (fromSlice : FromSlice) (bodyHex : Bytes) : Except String Json := do
  rejectIf (MAX_PSKT_JSON_BYTES * 2 < bodyHex.length) "PSKT JSON exceeds signer-compatible size"
  let inner ← okOr "inner PSKT JSON hex must be even-length lowercase hexadecimal"
    (decodeLowerHex bodyHex)
  parseStrictJson fromSlice inner

/-- `decode`: the format and the root value of an envelope. -/
def decodeWire (fromSlice : FromSlice) (wireHex : Bytes) : Except String (Format × Json) := do
  rejectIf (MAX_PSKT_WIRE_HEX_CHARS < wireHex.length) "PSKT/PSKB payload exceeds host resource ceiling"
  let wire ← decodeHexField wireHex "outer PSKT/PSKB hex"
  let format ← decodedWireFormat wire
  let root ← decodeJsonBodyHex fromSlice (wire.drop 4)
  return (format, root)

/-- `serde_json::to_vec`. -/
abbrev ToVec := Json → Except String Bytes

def Format.magic : Format → Bytes
  | .pskb => PSKB_MAGIC
  | .pskt => PSKT_MAGIC

/-- The body of an envelope. `same` is the comparison of two JSON values, which is not that of their texts:
the library's maps have no order. -/
def encodeJsonBodyHex (toVec : ToVec) (fromSlice : FromSlice) (same : Json → Json → Bool) (root : Json) :
    Except String Bytes := do
  let json ← (toVec root).mapError ("JSON encode: " ++ ·)
  rejectIf (MAX_PSKT_JSON_BYTES < json.length) "PSKT JSON exceeds signer-compatible size"
  let reparsed ← parseStrictJson fromSlice json
  rejectIf (same reparsed root = false) "PSKT JSON value is not canonical under the signer grammar"
  return encodeLowerHex json

/-- `encode`. -/
def encodeWire (toVec : ToVec) (fromSlice : FromSlice) (same : Json → Json → Bool) (format : Format)
    (root : Json) : Except String Bytes := do
  let body ← encodeJsonBodyHex toVec fromSlice same root
  return encodeLowerHex (format.magic ++ body)

/-- The one document of an envelope. -/
def document (root : Json) : Format → Except String Json
  | .pskt => .ok root
  | .pskb => do
    let entries ← okOr "PSKB not array" root.asArray
    match entries with
    | [entry] => return entry
    | _ => throw ("PSKB must have 1 entry, got " ++ toString entries.length)

/-! ## Values -/

def parseDecimal (value : Bytes) (field : String) : Except String UInt64 :=
  (parseCanonicalU64Bytes value).mapError fun
    | .nonCanonical => field ++ " must be a canonical unsigned decimal string"
    | .overflow => field ++ " exceeds u64"
    | .unsafeInteger => field ++ " exceeds JavaScript's exact integer range"

def parseLegacyNumber (number : Json) (field : String) : Except String UInt64 := do
  let value ← okOr (field ++ " must be an unsigned integer") number.asU64
  rejectIf (jsonNumberIsExactInteger value = false)
    ("legacy numeric " ++ field ++
      " exceeds JavaScript's exact integer range; encode it as a decimal string")
  return value

def parseExactU64 (value : Json) (field : String) : Except String UInt64 :=
  match value with
  | .string digits => parseDecimal digits field
  | .number value => parseLegacyNumber (.number value) field
  | _ => .error (field ++ " must be a decimal string")

/-- `uN::try_from`, for a narrower unsigned integer. -/
def narrow {α : Type} (bits : Nat) (ofNat : Nat → α) (value : UInt64) (error : String) :
    Except String α := do
  rejectIf (2 ^ bits ≤ value.toNat) error
  return ofNat value.toNat

/-- A script version, most significant byte first, and the script. -/
def parseSpk (value : Bytes) : Except String (UInt16 × Bytes) := do
  match ← decodeHexField value "scriptPublicKey" with
  | high :: low :: script => return (UInt16.ofNat (high.toNat * 256 + low.toNat), script)
  | bytes => throw ("scriptPublicKey must start with a 2-byte version, got " ++
      toString bytes.length ++ " bytes")

/-! ## Derivation hints -/

def SIGNER_DERIVATION_FIELD : Bytes := ascii "kassignerDerivation"

def parseDerivationBranch (hint : Members) : Except String UInt8 := do
  let value ← okOr "kassignerDerivation.branch is missing" (hint.get (ascii "branch"))
  let branch ← narrow 8 UInt8.ofNat (← parseExactU64 value "kassignerDerivation.branch")
    "kassignerDerivation.branch must be 0 or 1"
  rejectIf (1 < branch) "kassignerDerivation.branch must be 0 or 1"
  return branch

def parseDerivationIndex (hint : Members) : Except String UInt32 := do
  let value ← okOr "kassignerDerivation.index is missing" (hint.get (ascii "index"))
  let index ← narrow 32 UInt32.ofNat (← parseExactU64 value "kassignerDerivation.index")
    "kassignerDerivation.index must be a non-hardened u32"
  rejectIf (HARDENED_BIT ≤ index) "kassignerDerivation.index must be a non-hardened u32"
  return index

def parseDerivation (value : Json) : Except String (Option (UInt8 × UInt32)) := do
  let map ← okOr "proprietaries must be an object" value.asObject
  match map.get SIGNER_DERIVATION_FIELD with
  | none => return none
  | some value =>
    let hint ← okOr "kassignerDerivation must be an object" value.asObject
    let branch ← parseDerivationBranch hint
    let index ← parseDerivationIndex hint
    return some (branch, index)

/-! ## What the readers accept -/

theorem decodeHexField_ok {value bytes : Bytes} {field : String} :
    decodeHexField value field = .ok bytes ↔ value = encodeLowerHex bytes := by
  rw [decodeHexField, okOr_eq_ok]
  constructor
  · intro h
    exact decodeLowerHex_canonical h
  · intro h
    rw [h, decodeLowerHex_encodeLowerHex]

theorem parseStrictJson_ok {fromSlice : FromSlice} {json : Bytes} {root : Json} :
    parseStrictJson fromSlice json = .ok root ↔
      validateCanonicalJson json = .ok () ∧ fromSlice json = .ok root := by
  rw [parseStrictJson, bind_eq_ok]
  simp only [mapError_eq_ok]
  constructor
  · intro h
    obtain ⟨_, hcanonical, hroot⟩ := h
    exact ⟨hcanonical, hroot⟩
  · intro h
    exact ⟨(), h⟩

theorem Format.magic_length (format : Format) : format.magic.length = 4 := by
  cases format <;> rfl

theorem decodedWireFormat_ok {wire : Bytes} {format : Format} :
    decodedWireFormat wire = .ok format ↔ wire.take 4 = format.magic := by
  have hmagics : PSKT_MAGIC ≠ PSKB_MAGIC := by decide
  rw [decodedWireFormat, bind_eq_ok]
  constructor
  · intro h
    obtain ⟨_, -, h⟩ := h
    split at h
    case isTrue hpskb => cases h; exact hpskb
    case isFalse =>
      split at h
      case isTrue hpskt => cases h; exact hpskt
      case isFalse => cases h
  · intro h
    have hlong := congrArg List.length h
    rw [List.length_take, format.magic_length] at hlong
    refine ⟨(), rejectIf_neg (by omega), ?_⟩
    cases format with
    | pskb => exact if_pos h
    | pskt =>
      have hother : wire.take 4 ≠ PSKB_MAGIC := fun hpskb => hmagics (h.symm.trans hpskb)
      exact (if_neg hother).trans (if_pos h)

theorem decodeJsonBodyHex_ok {fromSlice : FromSlice} {bodyHex : Bytes} {root : Json} :
    decodeJsonBodyHex fromSlice bodyHex = .ok root ↔
      ∃ json, bodyHex = encodeLowerHex json ∧ json.length ≤ MAX_PSKT_JSON_BYTES ∧
        validateCanonicalJson json = .ok () ∧ fromSlice json = .ok root := by
  rw [decodeJsonBodyHex, bind_eq_ok]
  constructor
  · intro h
    obtain ⟨_, hshort, h⟩ := h
    obtain ⟨json, hjson, h⟩ := bind_eq_ok.mp h
    have hbody := decodeLowerHex_canonical (okOr_eq_ok.mp hjson)
    have hfits := Nat.not_lt.mp (rejectIf_eq_ok.mp hshort)
    rw [hbody, encodeLowerHex_length] at hfits
    exact ⟨json, hbody, by omega, parseStrictJson_ok.mp h⟩
  · intro h
    obtain ⟨json, rfl, hfits, hstrict⟩ := h
    refine ⟨(), rejectIf_neg ?_, bind_eq_ok.mpr ⟨json, ?_, parseStrictJson_ok.mpr hstrict⟩⟩
    · rw [encodeLowerHex_length]
      omega
    · rw [okOr_eq_ok, decodeLowerHex_encodeLowerHex]

/-- An envelope is read exactly from the lowercase hexadecimal of the magic and of the lowercase hexadecimal
of one canonical document within the limit: there is one text for a format and a document's text. -/
theorem decodeWire_iff (fromSlice : FromSlice) (wireHex : Bytes) (format : Format) (root : Json) :
    decodeWire fromSlice wireHex = .ok (format, root) ↔
      ∃ json, wireHex = encodeLowerHex (format.magic ++ encodeLowerHex json) ∧
        json.length ≤ MAX_PSKT_JSON_BYTES ∧ validateCanonicalJson json = .ok () ∧
        fromSlice json = .ok root := by
  rw [decodeWire, bind_eq_ok]
  constructor
  · intro h
    obtain ⟨_, -, h⟩ := h
    obtain ⟨wire, hwire, h⟩ := bind_eq_ok.mp h
    obtain ⟨format', hformat, h⟩ := bind_eq_ok.mp h
    obtain ⟨root', hbody, h⟩ := bind_eq_ok.mp h
    cases h
    obtain ⟨json, hjson, hstrict⟩ := decodeJsonBodyHex_ok.mp hbody
    have hsplit := List.take_append_drop 4 wire
    rw [decodedWireFormat_ok.mp hformat, hjson] at hsplit
    exact ⟨json, hsplit ▸ decodeHexField_ok.mp hwire, hstrict⟩
  · intro h
    obtain ⟨json, rfl, hfits, hstrict⟩ := h
    have hmagic := format.magic_length
    have hhead : (format.magic ++ encodeLowerHex json).take 4 = format.magic := List.take_left' hmagic
    have htail : (format.magic ++ encodeLowerHex json).drop 4 = encodeLowerHex json :=
      List.drop_left' hmagic
    refine ⟨(), rejectIf_neg ?_, bind_eq_ok.mpr ⟨_, decodeHexField_ok.mpr rfl, ?_⟩⟩
    · rw [encodeLowerHex_length, List.length_append, encodeLowerHex_length, hmagic,
        MAX_PSKT_WIRE_HEX_CHARS]
      omega
    · refine bind_eq_ok.mpr ⟨format, decodedWireFormat_ok.mpr hhead, bind_eq_ok.mpr ⟨root, ?_, rfl⟩⟩
      rw [htail]
      exact decodeJsonBodyHex_ok.mpr ⟨json, rfl, hfits, hstrict⟩

/-- What is written is read back, as a value the library takes for the one written. -/
theorem encodeWire_decodes {toVec : ToVec} {fromSlice : FromSlice} {same : Json → Json → Bool}
    {format : Format} {root : Json} {wire : Bytes}
    (h : encodeWire toVec fromSlice same format root = .ok wire) :
    ∃ reparsed, decodeWire fromSlice wire = .ok (format, reparsed) ∧ same reparsed root = true := by
  obtain ⟨body, hbody, h⟩ := bind_eq_ok.mp h
  cases h
  obtain ⟨json, -, hbody⟩ := bind_eq_ok.mp hbody
  obtain ⟨_, hfits, hbody⟩ := bind_eq_ok.mp hbody
  obtain ⟨reparsed, hstrict, hbody⟩ := bind_eq_ok.mp hbody
  obtain ⟨_, hsame, hbody⟩ := bind_eq_ok.mp hbody
  cases hbody
  have hsame : same reparsed root = true := Bool.not_eq_false _ ▸ rejectIf_eq_ok.mp hsame
  refine ⟨reparsed, (decodeWire_iff _ _ _ _).mpr ⟨json, rfl, ?_, parseStrictJson_ok.mp hstrict⟩, hsame⟩
  exact Nat.not_lt.mp (rejectIf_eq_ok.mp hfits)

/-- A PSKT is its document and a PSKB an array of nothing else. -/
theorem document_ok {root doc : Json} {format : Format} :
    document root format = .ok doc ↔
      root = match format with
        | .pskt => doc
        | .pskb => .array [doc] := by
  cases format with
  | pskt =>
    constructor
    · intro h
      exact Except.ok.inj h
    · intro h
      exact congrArg Except.ok h
  | pskb =>
    rw [document, bind_eq_ok]
    constructor
    · intro h
      obtain ⟨entries, hentries, h⟩ := h
      split at h
      case h_1 entry => cases h; exact Json.asArray_eq_some.mp (okOr_eq_ok.mp hentries)
      case h_2 => cases h
    · intro h
      rw [h]
      exact ⟨[doc], rfl, rfl⟩

theorem parseExactU64_ok {json : Json} {field : String} {value : UInt64} :
    parseExactU64 json field = .ok value ↔ ExactInteger json value := by
  cases json with
  | string digits =>
    rw [parseExactU64, parseDecimal, mapError_eq_ok, parseCanonicalU64Bytes_ok]
    constructor
    · intro h
      exact .text h.1 h.2
    · intro h
      cases h with
      | text hcanonical hvalue => exact ⟨hcanonical, hvalue⟩
  | number number => exact exactNumber_ok
  | _ => exact ⟨nofun, nofun⟩

/-- A script public key is the lowercase hexadecimal of its version, most significant byte first, and its
script. -/
theorem parseSpk_iff (value : Bytes) (version : UInt16) (script : Bytes) :
    parseSpk value = .ok (version, script) ↔
      value = encodeLowerHex (beBytes 2 version.toNat ++ script) := by
  have hword : ∀ high low : UInt8, beNat [high, low] = high.toNat * 256 + low.toNat := by
    intro high low
    change low.toNat + 256 * (high.toNat + 256 * 0) = _
    omega
  rw [parseSpk, bind_eq_ok]
  constructor
  · intro h
    obtain ⟨bytes, hbytes, h⟩ := h
    split at h
    case h_1 high low script' =>
      cases h
      have hlt : high.toNat * 256 + low.toNat < 2 ^ 16 := by
        have := high.toNat_lt
        have := low.toNat_lt
        omega
      have hversion := beBytes_beNat [high, low]
      rw [hword] at hversion
      rw [UInt16.toNat_ofNat_of_lt' hlt]
      exact (decodeHexField_ok.mp hbytes).trans (congrArg (fun word => encodeLowerHex (word ++ script)) hversion.symm)
    case h_2 => cases h
  · intro h
    refine ⟨beBytes 2 version.toNat ++ script, decodeHexField_ok.mpr h, ?_⟩
    obtain ⟨high, low, hpair⟩ := List.length_eq_two.mp (beBytes_length 2 version.toNat)
    have hversion := beNat_beBytes 2 version.toNat version.toNat_lt
    rw [hpair, hword] at hversion
    rw [hpair]
    change Except.ok (UInt16.ofNat (high.toNat * 256 + low.toNat), script) = _
    rw [hversion, UInt16.ofNat_toNat]

theorem narrow_ok {α : Type} {bits : Nat} {ofNat : Nat → α} {value : UInt64} {error : String} {a : α} :
    narrow bits ofNat value error = .ok a ↔ value.toNat < 2 ^ bits ∧ ofNat value.toNat = a := by
  rw [narrow, bind_eq_ok]
  constructor
  · intro h
    obtain ⟨_, hfits, h⟩ := h
    cases h
    exact ⟨Nat.not_le.mp (rejectIf_eq_ok.mp hfits), rfl⟩
  · intro h
    obtain ⟨hfits, rfl⟩ := h
    exact ⟨(), rejectIf_neg (Nat.not_le.mpr hfits), rfl⟩

/-- A member of a hint that is an exact integer below a bound. -/
def HintMember (hint : Members) (name : String) (bound value : Nat) : Prop :=
  value < bound ∧ ∃ json exact, hint.get (ascii name) = some json ∧ ExactInteger json exact ∧
    exact.toNat = value

/-- How a member of a hint is read, at any width. -/
theorem hintMember_iff {α : Type} {bits bound : Nat} {ofNat : Nat → α} {toNat : α → Nat} {bad : α → Prop}
    [DecidablePred bad] (hround : ∀ n < 2 ^ bits, toNat (ofNat n) = n)
    (hback : ∀ a, toNat a < 2 ^ bits ∧ ofNat (toNat a) = a) (hbad : ∀ a, bad a ↔ bound ≤ toNat a)
    {hint : Members} {name field missing invalid : String} {a : α} :
    (do
      let value ← okOr missing (hint.get (ascii name))
      let a ← narrow bits ofNat (← parseExactU64 value field) invalid
      rejectIf (bad a) invalid
      return a : Except String α) = .ok a ↔ HintMember hint name bound (toNat a) := by
  rw [bind_eq_ok]
  constructor
  · intro h
    obtain ⟨json, hjson, h⟩ := h
    obtain ⟨exact, hexact, h⟩ := bind_eq_ok.mp h
    obtain ⟨a', ha, h⟩ := bind_eq_ok.mp h
    obtain ⟨_, hsmall, h⟩ := bind_eq_ok.mp h
    cases h
    obtain ⟨hfits, rfl⟩ := narrow_ok.mp ha
    have hlt := Nat.not_le.mp (mt (hbad _).mpr (rejectIf_eq_ok.mp hsmall))
    exact ⟨hlt, json, exact, okOr_eq_ok.mp hjson, parseExactU64_ok.mp hexact, (hround _ hfits).symm⟩
  · intro h
    obtain ⟨hsmall, json, exact, hjson, hexact, hsame⟩ := h
    obtain ⟨hfits, hvalue⟩ := hback a
    rw [← hsame] at hfits hvalue
    refine ⟨json, okOr_eq_ok.mpr hjson, bind_eq_ok.mpr ⟨exact, parseExactU64_ok.mpr hexact, ?_⟩⟩
    refine bind_eq_ok.mpr ⟨a, narrow_ok.mpr ⟨hfits, hvalue⟩, bind_eq_ok.mpr ⟨(), rejectIf_neg ?_, rfl⟩⟩
    exact mt (hbad a).mp (Nat.not_le.mpr hsmall)

theorem parseDerivationBranch_ok {hint : Members} {branch : UInt8} :
    parseDerivationBranch hint = .ok branch ↔ HintMember hint "branch" 2 branch.toNat := by
  refine hintMember_iff (fun n hn => UInt8.toNat_ofNat_of_lt' hn)
    (fun a => ⟨a.toNat_lt, UInt8.ofNat_toNat⟩) fun a => ?_
  rw [UInt8.lt_iff_toNat_lt]
  rfl

theorem parseDerivationIndex_ok {hint : Members} {index : UInt32} :
    parseDerivationIndex hint = .ok index ↔ HintMember hint "index" HARDENED_BIT.toNat index.toNat :=
  hintMember_iff (fun n hn => UInt32.toNat_ofNat_of_lt' hn) (fun a => ⟨a.toNat_lt, UInt32.ofNat_toNat⟩)
    fun a => UInt32.le_iff_toNat_le

/-- A hint is a branch of zero or one and an index that is not hardened. Proprietary fields without one are
accepted too, and whatever else they hold is not looked at. -/
theorem parseDerivation_iff (value : Json) (derivation : Option (UInt8 × UInt32)) :
    parseDerivation value = .ok derivation ↔
      ∃ map : Members, value = .object map ∧
        match derivation with
        | none => map.get SIGNER_DERIVATION_FIELD = none
        | some (branch, index) => ∃ hint : Members,
            map.get SIGNER_DERIVATION_FIELD = some (.object hint) ∧
            HintMember hint "branch" 2 branch.toNat ∧
            HintMember hint "index" HARDENED_BIT.toNat index.toNat := by
  rw [parseDerivation, bind_eq_ok]
  constructor
  · intro h
    obtain ⟨map, hmap, h⟩ := h
    refine ⟨map, Json.asObject_eq_some.mp (okOr_eq_ok.mp hmap), ?_⟩
    split at h
    case h_1 hnone => cases h; exact hnone
    case h_2 value' hsome =>
      obtain ⟨hint, hhint, h⟩ := bind_eq_ok.mp h
      obtain ⟨branch, hbranch, h⟩ := bind_eq_ok.mp h
      obtain ⟨index, hindex, h⟩ := bind_eq_ok.mp h
      cases h
      rw [Json.asObject_eq_some.mp (okOr_eq_ok.mp hhint)] at hsome
      exact ⟨hint, hsome, parseDerivationBranch_ok.mp hbranch, parseDerivationIndex_ok.mp hindex⟩
  · intro h
    obtain ⟨map, rfl, h⟩ := h
    refine ⟨map, rfl, ?_⟩
    match derivation, h with
    | none, hnone => rw [hnone]; rfl
    | some (branch, index), h =>
      obtain ⟨hint, hsome, hbranch, hindex⟩ := h
      rw [hsome]
      refine bind_eq_ok.mpr ⟨hint, rfl, bind_eq_ok.mpr ⟨branch, parseDerivationBranch_ok.mpr hbranch, ?_⟩⟩
      exact bind_eq_ok.mpr ⟨index, parseDerivationIndex_ok.mpr hindex, rfl⟩

end KaspaPortal.Transaction.Pskt
