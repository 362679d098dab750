import KaspaPortal.Lib.Json
import KaspaPortal.Primitives.Hex
import KaspaPortal.Primitives.Locking

/-!
# Account keys

`src/wallet/key/account.rs`: the payload of a watch-only account key and its canonical text.

The derivation of an account key from a seed is not part of this module.
-/
namespace KaspaPortal.Wallet.Key
open Lib Lib.Json Primitives

def ACCOUNT_KEY_VERSION : Bytes := [0x03, 0x8f, 0x33, 0x2e]
def ACCOUNT_KEY_PAYLOAD_LEN : Nat := 78
def ACCOUNT_KEY_TEXT_PREFIX : Bytes := ascii "kpub1:"
def ACCOUNT_KEY_TEXT_LEN : Nat := ACCOUNT_KEY_TEXT_PREFIX.length + ACCOUNT_KEY_PAYLOAD_LEN * 2
def ACCOUNT_KEY_DEPTH : UInt8 := 3
def ACCOUNT_KEY_CHILD_INDEX : Bytes := [0x80, 0x00, 0x00, 0x00]

def validateAccountKeyPayload (payload : Bytes) : Bool :=
  payload.length == ACCOUNT_KEY_PAYLOAD_LEN && payload.take 4 == ACCOUNT_KEY_VERSION &&
    payload[4]? == some ACCOUNT_KEY_DEPTH && cut payload 9 13 == ACCOUNT_KEY_CHILD_INDEX &&
    (payload[45]? == some 0x02 || payload[45]? == some 0x03)

def encodeAccountKeyText (payload : FixedBytes ACCOUNT_KEY_PAYLOAD_LEN) : Option Bytes :=
  if validateAccountKeyPayload payload.val then
    some (ACCOUNT_KEY_TEXT_PREFIX ++ encodeLowerHex payload.val)
  else none

def decodeAccountKeyText (text : Bytes) : Option (FixedBytes ACCOUNT_KEY_PAYLOAD_LEN) := do
  if text.length ≠ ACCOUNT_KEY_TEXT_LEN ∨ ¬ACCOUNT_KEY_TEXT_PREFIX.isPrefixOf text then none
  let bytes ← decodeLowerHex (text.drop ACCOUNT_KEY_TEXT_PREFIX.length)
  let output ← toArray ACCOUNT_KEY_PAYLOAD_LEN bytes
  if validateAccountKeyPayload output.val then some output else none

theorem length_cut_payload (payload : FixedBytes ACCOUNT_KEY_PAYLOAD_LEN) {start len : Nat}
    (h : start + len ≤ ACCOUNT_KEY_PAYLOAD_LEN) :
    (cut payload.val start (start + len)).length = len := by
  rw [cut, List.length_drop, List.length_take, payload.property]
  omega

/-- `payload[start..start + len]` -/
def field (payload : FixedBytes ACCOUNT_KEY_PAYLOAD_LEN) (start len : Nat)
    (h : start + len ≤ ACCOUNT_KEY_PAYLOAD_LEN) : FixedBytes len :=
  ⟨cut payload.val start (start + len), length_cut_payload payload h⟩

/-- The text is the prefix and the digits of the payload. -/
theorem decodeAccountKeyText_ok {text : Bytes} {payload : FixedBytes ACCOUNT_KEY_PAYLOAD_LEN}
    (h : decodeAccountKeyText text = some payload) :
    text = ACCOUNT_KEY_TEXT_PREFIX ++ encodeLowerHex payload.val ∧
      validateAccountKeyPayload payload.val = true := by
  rw [decodeAccountKeyText] at h
  split at h
  case isTrue => cases h
  case isFalse hshape =>
    obtain ⟨_, hhead⟩ := not_or.mp hshape
    rw [not_not, List.isPrefixOf_iff_prefix] at hhead
    obtain ⟨digits, rfl⟩ := hhead
    rw [List.drop_left] at h
    obtain ⟨bytes, hbytes, h⟩ := Option.bind_eq_some_iff.mp h
    obtain ⟨output, houtput, hvalid⟩ := Option.bind_eq_some_iff.mp h
    split at hvalid
    case isFalse => cases hvalid
    case isTrue hvalidate =>
      cases hvalid
      rw [toArray_eq_some] at houtput
      rw [decodeLowerHex_canonical hbytes, houtput]
      exact ⟨rfl, hvalidate⟩

theorem encodeAccountKeyText_eq_some {payload : FixedBytes ACCOUNT_KEY_PAYLOAD_LEN} {text : Bytes} :
    encodeAccountKeyText payload = some text ↔ validateAccountKeyPayload payload.val = true ∧
      text = ACCOUNT_KEY_TEXT_PREFIX ++ encodeLowerHex payload.val := by
  rw [encodeAccountKeyText]
  split
  case isTrue hvalid => simp [hvalid, eq_comm]
  case isFalse hinvalid => simp [hinvalid]

theorem length_accountKeyText (payload : FixedBytes ACCOUNT_KEY_PAYLOAD_LEN) :
    (ACCOUNT_KEY_TEXT_PREFIX ++ encodeLowerHex payload.val).length = ACCOUNT_KEY_TEXT_LEN := by
  rw [List.length_append, encodeLowerHex_length, payload.property, ACCOUNT_KEY_TEXT_LEN, Nat.mul_comm]

/-- The canonical text of a payload is read back. -/
theorem decodeAccountKeyText_encode {payload : FixedBytes ACCOUNT_KEY_PAYLOAD_LEN} {text : Bytes}
    (h : encodeAccountKeyText payload = some text) : decodeAccountKeyText text = some payload := by
  obtain ⟨hvalid, rfl⟩ := encodeAccountKeyText_eq_some.mp h
  have hshape : ¬((ACCOUNT_KEY_TEXT_PREFIX ++ encodeLowerHex payload.val).length ≠ ACCOUNT_KEY_TEXT_LEN ∨
      ¬ACCOUNT_KEY_TEXT_PREFIX.isPrefixOf (ACCOUNT_KEY_TEXT_PREFIX ++ encodeLowerHex payload.val) = true) := by
    rw [length_accountKeyText, List.isPrefixOf_iff_prefix]
    simp
  have harray : toArray ACCOUNT_KEY_PAYLOAD_LEN payload.val = some payload := toArray_eq_some.mpr rfl
  rw [decodeAccountKeyText, if_neg hshape, List.drop_left, decodeLowerHex_encodeLowerHex, Option.bind_eq_bind,
    Option.bind_some, harray, Option.bind_eq_bind, Option.bind_some, if_pos hvalid]

/-- The fields that every account key shares. -/
theorem validateAccountKeyPayload_ok {payload : Bytes} (h : validateAccountKeyPayload payload = true) :
    payload.take 5 = ACCOUNT_KEY_VERSION ++ [ACCOUNT_KEY_DEPTH] ∧ cut payload 9 13 = ACCOUNT_KEY_CHILD_INDEX := by
  rw [validateAccountKeyPayload] at h
  simp only [Bool.and_eq_true, beq_iff_eq] at h
  obtain ⟨⟨⟨⟨_, hversion⟩, hdepth⟩, hchild⟩, _⟩ := h
  refine ⟨?_, hchild⟩
  rw [List.take_add_one, hversion, hdepth]
  rfl

theorem drop_eq_cut (payload : FixedBytes ACCOUNT_KEY_PAYLOAD_LEN) {start stop : Nat} (h : start ≤ stop)
    (hstop : stop ≤ ACCOUNT_KEY_PAYLOAD_LEN) :
    payload.val.drop start = cut payload.val start stop ++ payload.val.drop stop := by
  have hlength : start ≤ (payload.val.take stop).length := by
    rw [List.length_take, payload.property]
    exact Nat.le_min.mpr ⟨h, h.trans hstop⟩
  rw [cut, ← List.drop_append_of_le_length hlength, List.take_append_drop]

/-- Where the fields of the tail of a payload lie. -/
theorem drop_fingerprint (payload : FixedBytes ACCOUNT_KEY_PAYLOAD_LEN) :
    payload.val.drop 9 = cut payload.val 9 13 ++ (cut payload.val 13 45 ++ cut payload.val 45 78) := by
  rw [drop_eq_cut payload (show 9 ≤ 13 by decide) (by decide),
    drop_eq_cut payload (show 13 ≤ 45 by decide) (by decide),
    drop_eq_cut payload (show 45 ≤ 78 by decide) (by decide),
    List.drop_eq_nil_of_le (i := 78) payload.property.le, List.append_nil]

/-- The fields of a whole payload. -/
theorem payload_fields {payload : FixedBytes ACCOUNT_KEY_PAYLOAD_LEN}
    (h : validateAccountKeyPayload payload.val = true) :
    payload.val = ACCOUNT_KEY_VERSION ++ ([ACCOUNT_KEY_DEPTH] ++ cut payload.val 5 9 ++ cut payload.val 9 13 ++
      cut payload.val 13 45 ++ cut payload.val 45 78) := by
  obtain ⟨hhead, _⟩ := validateAccountKeyPayload_ok h
  calc
    payload.val = payload.val.take 5 ++ payload.val.drop 5 := (List.take_append_drop 5 payload.val).symm
    _ = _ := by
      rw [hhead, drop_eq_cut payload (show 5 ≤ 9 by decide) (by decide), drop_fingerprint]
      simp only [List.append_assoc]

/-- Two account keys are the same but for the parent fingerprint when their texts are the same but
for its eight digits. -/
theorem sameButFingerprint_iff {text text' : Bytes} {payload payload' : FixedBytes ACCOUNT_KEY_PAYLOAD_LEN}
    (h : decodeAccountKeyText text = some payload) (h' : decodeAccountKeyText text' = some payload') :
    (text.take 16 = text'.take 16 ∧ text.drop 24 = text'.drop 24) ↔
      cut payload.val 45 78 = cut payload'.val 45 78 ∧ cut payload.val 13 45 = cut payload'.val 13 45 := by
  obtain ⟨rfl, hvalid⟩ := decodeAccountKeyText_ok h
  obtain ⟨rfl, hvalid'⟩ := decodeAccountKeyText_ok h'
  obtain ⟨hhead, hchild⟩ := validateAccountKeyPayload_ok hvalid
  obtain ⟨hhead', hchild'⟩ := validateAccountKeyPayload_ok hvalid'
  have htake : ∀ bytes : Bytes, (ACCOUNT_KEY_TEXT_PREFIX ++ encodeLowerHex bytes).take 16 =
      ACCOUNT_KEY_TEXT_PREFIX ++ encodeLowerHex (bytes.take 5) := by
    intro bytes
    rw [← encodeLowerHex_take]
    rfl
  have hdrop : ∀ bytes : Bytes, (ACCOUNT_KEY_TEXT_PREFIX ++ encodeLowerHex bytes).drop 24 =
      encodeLowerHex (bytes.drop 9) := by
    intro bytes
    rw [← encodeLowerHex_drop]
    rfl
  rw [htake, htake, hdrop, hdrop, hhead, hhead', drop_fingerprint, drop_fingerprint, hchild, hchild']
  have hlength : ∀ key : FixedBytes ACCOUNT_KEY_PAYLOAD_LEN, (cut key.val 13 45).length = 32 := by
    intro key
    exact (field key 13 32 (by decide)).property
  constructor
  · intro h
    have htail := List.append_cancel_left (encodeLowerHex_inj h.2)
    obtain ⟨hchain, hkey⟩ := List.append_inj htail ((hlength payload).trans (hlength payload').symm)
    exact ⟨hkey, hchain⟩
  · intro h
    rw [h.1, h.2]
    exact ⟨rfl, rfl⟩

end KaspaPortal.Wallet.Key
