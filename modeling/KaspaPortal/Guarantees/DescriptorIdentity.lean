import KaspaPortal.Transaction.Multisig
import KaspaPortal.Wallet.Multisig.Grammar
import KaspaPortal.Wallet.Multisig.Written

/-!
# Who signs under a descriptor

Static and HD44 descriptors compare the keys themselves. HD45 descriptors compare kpub texts, and a
text also names the fingerprint of a parent that nothing checks.

An identity is a public key with its chain code. Who holds the private key is outside of any text.
-/
set_option maxRecDepth 100000

namespace KaspaPortal.Guarantees
open Lib Lib.Json Wallet.Key Wallet.Multisig

/-- No two participants share a static key, or a public key and chain code. -/
def DistinctIdentities (parsed : ParsedMultisigDescriptor) : Prop :=
  parsed.staticPublicKeys.Nodup ∧ (parsed.participants.map fun p => (p.publicKey, p.chainCode)).Nodup

/-- The kpub texts of an HD45 descriptor. -/
def hd45Texts (data : Bytes) : List Bytes :=
  match descriptorParts data with
  | .ok (.hd45, _, participants) => (parts participants).foldl nextSlots []
  | _ => []

/-- Texts that are the same outside the eight digits of the parent fingerprint. -/
def SameButFingerprint (text text' : Bytes) : Prop :=
  text.take 16 = text'.take 16 ∧ text.drop 24 = text'.drop 24

instance decidableSameButFingerprint (text text' : Bytes) : Decidable (SameButFingerprint text text') :=
  inferInstanceAs (Decidable (_ ∧ _))

/-- Two slots have one identity when their texts are the same but for the fingerprint. -/
theorem identity_eq_iff {text text' : Bytes} {slot slot' : Bytes × Participant}
    (h : readHd45 text = .ok slot) (h' : readHd45 text' = .ok slot') :
    (slot.2.publicKey, slot.2.chainCode) = (slot'.2.publicKey, slot'.2.chainCode) ↔
      SameButFingerprint slot.1 slot'.1 := by
  obtain ⟨payload, hpayload, htext, hkey, hchain⟩ := readHd45_ok h
  obtain ⟨payload', hpayload', htext', hkey', hchain'⟩ := readHd45_ok h'
  rw [Prod.mk.injEq, hkey, hchain, hkey', hchain', htext, htext', SameButFingerprint,
    sameButFingerprint_iff hpayload hpayload', Subtype.ext_iff, Subtype.ext_iff]
  rfl

/-- The identities of an accepted HD45 descriptor are different exactly when no two of its texts
differ in the fingerprint alone. -/
theorem hd45_distinct_iff {capacity : Nat} {remaining : Bytes} {participants : List Participant}
    (h : parseHd45Participants capacity remaining = .ok participants) :
    (participants.map fun p => (p.publicKey, p.chainCode)).Nodup ↔
      ((parts remaining).foldl nextSlots []).Pairwise fun text text' => ¬SameButFingerprint text text' := by
  obtain ⟨slots, hslots, rfl, hunique⟩ := parseHd45Participants_ok h
  obtain ⟨htexts, hread⟩ := slots_of_texts (readParticipants_ok hslots)
  have hperm := ((perm_swapSort Prod.fst slots).map Prod.snd).map fun p => (p.publicKey, p.chainCode)
  rw [hperm.nodup_iff, List.map_map, ← htexts, List.Nodup, List.pairwise_map, List.pairwise_map]
  constructor
  · intro hdistinct
    apply hdistinct.imp_of_mem
    intro slot slot' hmem hmem' hne hsame
    exact hne ((identity_eq_iff (hread slot hmem) (hread slot' hmem')).mpr hsame)
  · intro hdistinct
    apply hdistinct.imp_of_mem
    intro slot slot' hmem hmem' hne hsame
    exact hne ((identity_eq_iff (hread slot hmem) (hread slot' hmem')).mp hsame)

/-- An accepted descriptor names different identities exactly when no two of its kpub texts are the
same outside the fingerprint. -/
theorem descriptor_distinct_iff (capacity : Nat) (data : Bytes) (parsed : ParsedMultisigDescriptor)
    (h : parseMultisigDescriptor capacity data = .ok parsed) :
    DistinctIdentities parsed ↔
      (hd45Texts data).Pairwise fun text text' => ¬SameButFingerprint text text' := by
  rw [parseMultisigDescriptor] at h
  simp only [bind_eq_ok] at h
  obtain ⟨⟨kind, threshold, participants⟩, hparts, descriptor, hread, _, _, heq⟩ := h
  cases heq
  rw [hd45Texts, hparts, DistinctIdentities]
  cases kind with
  | static =>
    obtain ⟨keys, hkeys, heq⟩ := bind_eq_ok.mp hread
    cases heq
    exact ⟨fun _ => List.Pairwise.nil, fun _ => ⟨parseStaticParticipants_ok hkeys, List.nodup_nil⟩⟩
  | hd44 =>
    obtain ⟨hd, hparticipants, heq⟩ := bind_eq_ok.mp hread
    cases heq
    exact ⟨fun _ => List.Pairwise.nil, fun _ => ⟨List.nodup_nil, parseHd44Participants_ok hparticipants⟩⟩
  | hd45 =>
    obtain ⟨hd, hparticipants, heq⟩ := bind_eq_ok.mp hread
    cases heq
    have hiff := hd45_distinct_iff hparticipants
    exact ⟨fun hdistinct => hiff.mp hdistinct.2, fun htexts => ⟨List.nodup_nil, hiff.mpr htexts⟩⟩

/-! ## One key under two fingerprints -/

/-- The text of an account key. -/
def kpubText (fingerprint chainCodeAndKey : Bytes) : Bytes :=
  ACCOUNT_KEY_TEXT_PREFIX ++ Primitives.encodeLowerHex
    (ACCOUNT_KEY_VERSION ++ [ACCOUNT_KEY_DEPTH] ++ fingerprint ++ ACCOUNT_KEY_CHILD_INDEX ++ chainCodeAndKey)

/-- Chain code and public key of an account. -/
def firstAccount : Bytes :=
  [0xf0, 0x45, 0x3f, 0x08, 0x94, 0xcc, 0x8c, 0x84, 0xeb, 0xf6, 0xe6, 0x20, 0x8e, 0x0c, 0x79, 0x16,
    0xe9, 0xdd, 0xbd, 0x14, 0x91, 0x9f, 0x9b, 0xbb, 0x92, 0xb0, 0x69, 0x0b, 0x4e, 0x35, 0x33, 0x92,
    0x02, 0x03, 0x27, 0xc7, 0x13, 0x69, 0x72, 0x88, 0x3e, 0xab, 0x5a, 0x77, 0x22, 0xec, 0x3d, 0x43,
    0x02, 0xf8, 0x88, 0x80, 0x4e, 0xcc, 0xe6, 0x16, 0x58, 0xae, 0x96, 0x2a, 0x2c, 0x56, 0xbb, 0x75,
    0x71]

def secondAccount : Bytes :=
  [0x29, 0x08, 0xbe, 0x01, 0xd7, 0x57, 0x35, 0x94, 0x4f, 0x29, 0xbe, 0xfb, 0xdb, 0xcd, 0x17, 0x3a,
    0xb0, 0x0d, 0xf2, 0xd4, 0x4c, 0x6d, 0x5a, 0xb5, 0x1a, 0x83, 0x94, 0x13, 0xfd, 0xa9, 0x0c, 0xbf,
    0x03, 0x5b, 0x98, 0x6b, 0x58, 0x4d, 0xe2, 0x44, 0xf5, 0xd6, 0xa1, 0x93, 0x91, 0x92, 0xf6, 0x76,
    0xa9, 0xf2, 0x99, 0x2a, 0x63, 0xb0, 0xf4, 0x3c, 0xdc, 0x45, 0x2d, 0xcb, 0x40, 0xd9, 0xdd, 0x70,
    0x81]

/-- A 2-of-2 wallet whose two cosigners are one account key. -/
def sharedKeyDescriptor : Bytes :=
  ascii "multi_hd45(2," ++ kpubText [0x40, 0x5a, 0xb6, 0x83] firstAccount ++ ascii "," ++
    kpubText [0x40, 0x5a, 0xb6, 0x84] firstAccount ++ ascii ")"

/-- The text is accepted although two cosigners hold one key. -/
theorem descriptor_not_distinct :
    ¬∀ (capacity : Nat) (data : Bytes) (parsed : ParsedMultisigDescriptor),
      parseMultisigDescriptor capacity data = .ok parsed → DistinctIdentities parsed := by
  intro hall
  have hshared : (parseMultisigDescriptor 16 sharedKeyDescriptor).toOption.map (fun parsed =>
      decide (parsed.participants.map fun p => (p.publicKey, p.chainCode)).Nodup) = some false := by
    decide
  cases hparse : parseMultisigDescriptor 16 sharedKeyDescriptor with
  | error e =>
    rw [hparse] at hshared
    cases hshared
  | ok parsed =>
    rw [hparse] at hshared
    have hdistinct := (hall 16 sharedKeyDescriptor parsed hparse).2
    have hnot := Option.some.inj hshared
    exact of_decide_eq_false hnot hdistinct

/-- Two different accounts. -/
def sampleDescriptor : Bytes :=
  ascii "multi_hd45(1," ++ kpubText [0xa7, 0x45, 0x72, 0x70] secondAccount ++ ascii "," ++
    kpubText [0x40, 0x5a, 0xb6, 0x83] firstAccount ++ ascii ")"

theorem descriptor_distinct_sample :
    ∃ parsed, parseMultisigDescriptor 5 sampleDescriptor = .ok parsed ∧ DistinctIdentities parsed := by
  have hok : (parseMultisigDescriptor 5 sampleDescriptor).isOk = true := by decide
  obtain ⟨parsed, hparsed⟩ := exists_ok hok
  refine ⟨parsed, hparsed, (descriptor_distinct_iff 5 sampleDescriptor parsed hparsed).mpr ?_⟩
  decide

end KaspaPortal.Guarantees

/-!
## Exported descriptors

What a wallet writes, the parser reads as the same participants in the same order. The parser sorts
kpub texts and the device serialized entries: the two orders are one.
-/
namespace KaspaPortal.Transaction.Multisig
open Lib Primitives Wallet.Key Wallet.Multisig

variable {room : Nat} {text text' bytes : Bytes} {v45 : Bool} {parts : Participant}

/-! ## What is written -/

/-- One key of a descriptor. -/
def keyText (v45 : Bool) (parts : Participant) : Option Bytes :=
  if v45 then serializeKpubParts parts
  else some (encodeLowerHex parts.publicKey.val ++ encodeLowerHex parts.chainCode.val)

/-- A write succeeds when the room is not exceeded. -/
theorem push_eq_some : DescriptorText.push room text bytes = some text' ↔
    text' = text ++ bytes ∧ text'.length ≤ room := by
  rw [DescriptorText.push]
  constructor
  · intro h
    split at h
    · cases h
      rw [List.length_append]
      exact ⟨rfl, by assumption⟩
    · cases h
  · intro h
    obtain ⟨rfl, hroom⟩ := h
    rw [if_pos (by rwa [List.length_append] at hroom)]

/-- Hexadecimal is written like other text. -/
theorem hex_eq_push : DescriptorText.hex room text bytes = DescriptorText.push room text (encodeLowerHex bytes) := by
  rw [DescriptorText.hex, DescriptorText.push, encodeLowerHex_length, Nat.mul_comm]

/-- A cosigner is a comma and the text of its key. -/
theorem writeCosigner_eq_some : MultisigConfig.writeCosigner v45 room text parts = some text' ↔
    ∃ key, keyText v45 parts = some key ∧ text' = text ++ 0x2c :: key ∧ text'.length ≤ room := by
  cases v45 with
  | true =>
    simp only [MultisigConfig.writeCosigner, keyText, if_true, Option.bind_eq_bind, Option.bind_eq_some_iff,
      push_eq_some]
    constructor
    · intro h
      obtain ⟨_, ⟨rfl, _⟩, key, hkey, rfl, hroom⟩ := h
      exact ⟨key, hkey, by simp, hroom⟩
    · intro h
      obtain ⟨key, hkey, rfl, hroom⟩ := h
      refine ⟨text ++ [0x2c], ⟨rfl, ?_⟩, key, hkey, by simp, hroom⟩
      simp only [List.length_append, List.length_cons, List.length_nil] at hroom ⊢
      omega
  | false =>
    simp only [MultisigConfig.writeCosigner, keyText, Bool.false_eq_true, if_false, Option.bind_eq_bind,
      Option.bind_eq_some_iff, hex_eq_push, push_eq_some, Option.some.injEq]
    constructor
    · intro h
      obtain ⟨_, ⟨rfl, _⟩, _, ⟨rfl, _⟩, rfl, hroom⟩ := h
      exact ⟨_, rfl, by simp, hroom⟩
    · intro h
      obtain ⟨_, rfl, rfl, hroom⟩ := h
      refine ⟨text ++ [0x2c], ⟨rfl, ?_⟩, _, ⟨rfl, ?_⟩, by simp, hroom⟩ <;>
      · simp only [List.length_append, List.length_cons, List.length_nil] at hroom ⊢
        omega

/-- By induction on the slots. -/
theorem writeCosigners_eq_some {slots : List Participant} (htext : text.length ≤ room) :
    slots.foldlM (MultisigConfig.writeCosigner v45 room) text = some text' ↔
      ∃ keys, List.Forall₂ (fun parts key => keyText v45 parts = some key) slots keys ∧
        text' = text ++ listedKeys keys ∧ text'.length ≤ room := by
  induction slots generalizing text with
  | nil =>
    constructor
    · intro h
      cases h
      exact ⟨[], List.Forall₂.nil, (List.append_nil _).symm, htext⟩
    · intro h
      obtain ⟨_, hnil, rfl, _⟩ := h
      cases hnil
      exact congrArg some (List.append_nil _).symm
  | cons parts slots ih =>
    rw [List.foldlM_cons, Option.bind_eq_bind, Option.bind_eq_some_iff]
    constructor
    · intro h
      obtain ⟨next, hstep, hrest⟩ := h
      obtain ⟨key, hkey, rfl, hroom⟩ := writeCosigner_eq_some.mp hstep
      obtain ⟨keys, hkeys, rfl, hroom'⟩ := (ih hroom).mp hrest
      exact ⟨key :: keys, .cons hkey hkeys, by simp [listedKeys], hroom'⟩
    · intro h
      obtain ⟨_, hkeys, rfl, hroom⟩ := h
      cases hkeys with
      | cons hkey hkeys =>
        rename_i key keys
        have hlisted : text ++ listedKeys (key :: keys) = text ++ 0x2c :: key ++ listedKeys keys := by
          simp [listedKeys]
        have hstep : (text ++ 0x2c :: key).length ≤ room := by
          rw [hlisted, List.length_append] at hroom
          exact (Nat.le_add_right _ _).trans hroom
        refine ⟨_, writeCosigner_eq_some.mpr ⟨key, hkey, rfl, hstep⟩, (ih hstep).mpr ⟨keys, hkeys, hlisted, hroom⟩⟩

/-- The written text is the line of the keys of the slots in use. -/
theorem writeDescriptor_eq_some {config : MultisigConfig} : config.writeDescriptor room = some text ↔
    ∃ keys, List.Forall₂ (fun parts key => keyText config.v45 parts = some key)
        ((List.range config.n.toNat).map config.cosignerParts) keys ∧
      text = writtenDescriptor (if config.v45 then .hd45 else .hd44) config.m keys ∧ text.length ≤ room := by
  have hhead : (if config.v45 then ascii "multi_hd45(" else ascii "multi_hd(") =
      kindText (if config.v45 then .hd45 else .hd44) := by
    cases config.v45 <;> rfl
  simp only [MultisigConfig.writeDescriptor, hhead, Option.bind_eq_bind, Option.bind_eq_some_iff, push_eq_some,
    List.nil_append]
  constructor
  · intro h
    obtain ⟨_, ⟨rfl, _⟩, _, ⟨rfl, hdigit⟩, _, hwritten, rfl, hroom⟩ := h
    obtain ⟨keys, hkeys, rfl, _⟩ := (writeCosigners_eq_some hdigit).mp hwritten
    exact ⟨keys, hkeys, rfl, hroom⟩
  · intro h
    obtain ⟨keys, hkeys, rfl, hroom⟩ := h
    have hlength := hroom
    simp only [writtenDescriptor, List.length_append] at hlength
    refine ⟨_, ⟨rfl, by omega⟩, _, ⟨rfl, by simp only [List.length_append]; omega⟩, _, ?_, rfl, hroom⟩
    apply (writeCosigners_eq_some (by simp only [List.length_append]; omega)).mpr
    exact ⟨keys, hkeys, rfl, by simp only [List.length_append]; omega⟩

/-! ## What is read back -/

/-- A key is written when its payload passes the checks of the reader. -/
theorem serializeKpubParts_eq_some : serializeKpubParts parts = some text ↔
    validateAccountKeyPayload (kpubPayload parts).val = true ∧
      text = ACCOUNT_KEY_TEXT_PREFIX ++ encodeLowerHex (ACCOUNT_KEY_VERSION ++ serializedParts parts) :=
  encodeAccountKeyText_eq_some

/-- What was read of a key text writes the text again. -/
theorem serialize_of_readHd45 {part : Bytes} {slot : Bytes × Participant} (h : readHd45 part = .ok slot) :
    serializeKpubParts slot.2 = some slot.1 := by
  have htext := readHd45_serialized h
  obtain ⟨payload, hpayload, hpart, _, _⟩ := readHd45_ok h
  obtain ⟨hpart', hvalid⟩ := decodeAccountKeyText_ok hpayload
  have hsame : kpubPayload slot.2 = payload := by
    apply Subtype.ext
    apply encodeLowerHex_inj
    refine @List.append_cancel_left _ ACCOUNT_KEY_TEXT_PREFIX _ _ ?_
    rw [← hpart', ← hpart]
    exact htext.symm
  rw [serializeKpubParts_eq_some, hsame]
  exact ⟨hvalid, htext⟩

/-- A written kpub is read as its participant. -/
theorem readHd45_serialize (h : serializeKpubParts parts = some text) : readHd45 text = .ok (text, parts) := by
  have hdecode := decodeAccountKeyText_encode h
  obtain ⟨hvalid, htext⟩ := serializeKpubParts_eq_some.mp h
  have hlength : text.length = HD45_KPUB_LEN := by
    rw [htext]
    exact length_accountKeyText (kpubPayload parts)
  have hdepth : (kpubPayload parts).val[4]? = some 3 := by
    have htake := congrArg (fun bytes => bytes[4]?) (validateAccountKeyPayload_ok hvalid).1
    rwa [List.getElem?_take_of_lt (by decide)] at htake
  obtain ⟨slot, hslot⟩ : ∃ slot, readHd45 text = .ok slot := by
    rw [readHd45]
    simp only [bind_eq_ok, rejectIf_eq_ok, okOr_eq_ok]
    exact ⟨_, (), not_not.mpr hlength, _, hdecode, (), not_not.mpr hdepth, rfl⟩
  obtain ⟨_, _, hpart, _, _⟩ := readHd45_ok hslot
  have hserialized := readHd45_serialized hslot
  rw [hpart, htext] at hserialized
  have hentry := List.append_cancel_left (encodeLowerHex_inj (List.append_cancel_left hserialized))
  rw [hslot, serializedParts_inj hentry, ← hpart]

/-- A key text contains no separator. -/
theorem kpub_plain (h : serializeKpubParts parts = some text) : PlainKey text := by
  obtain ⟨_, rfl⟩ := serializeKpubParts_eq_some.mp h
  have hprefix : ∀ byte ∈ ACCOUNT_KEY_TEXT_PREFIX, PlainByte byte := by
    unfold PlainByte
    decide
  refine ⟨by simp [ACCOUNT_KEY_TEXT_PREFIX, ascii], ?_⟩
  intro byte hbyte
  obtain hbyte | hbyte := List.mem_append.mp hbyte
  · exact hprefix byte hbyte
  · exact digits_plain byte hbyte

/-- A legacy participant has no more than its key and its chain code. -/
structure Legacy (parts : Participant) : Prop where
  compressed : parts.publicKey.val.head? = some 0x02 ∨ parts.publicKey.val.head? = some 0x03
  eq : parts = { emptySlot with publicKey := parts.publicKey, chainCode := parts.chainCode }

theorem decodeHexBytes_encode {len : Nat} (bytes : FixedBytes len) :
    decodeHexBytes len (encodeLowerHex bytes.val) = .ok bytes := by
  have harray : toArray len bytes.val = some bytes := toArray_eq_some.mpr rfl
  have hdecode : decodeHex (encodeLowerHex bytes.val) = some bytes.val :=
    decodeHex_of_lower (decodeLowerHex_encodeLowerHex bytes.val)
  rw [decodeHexBytes]
  simp only [bind_eq_ok, rejectIf_eq_ok, okOr_eq_ok]
  refine ⟨(), ?_, ?_⟩
  · rw [encodeLowerHex_length, bytes.property, Nat.mul_comm]
    exact not_not.mpr rfl
  · rw [hdecode]
    exact harray

/-- The older form has neither depth nor fingerprint. -/
theorem legacy_of_readHd44 {part : Bytes} (h : readHd44 part = .ok parts) : Legacy parts := by
  rw [readHd44] at h
  simp only [bind_eq_ok, rejectIf_eq_ok] at h
  obtain ⟨_, _, publicKey, _, _, hhead, chainCode, _, heq⟩ := h
  cases heq
  refine ⟨?_, rfl⟩
  by_contra hneither
  exact hhead (not_or.mp hneither)

/-- Such a key reads back as itself. -/
theorem readHd44_written (h : Legacy parts) :
    readHd44 (encodeLowerHex parts.publicKey.val ++ encodeLowerHex parts.chainCode.val) = .ok parts := by
  have hkey : (encodeLowerHex parts.publicKey.val).length = 66 := by
    rw [encodeLowerHex_length, parts.publicKey.property]
  have hchain : (encodeLowerHex parts.chainCode.val).length = 64 := by
    rw [encodeLowerHex_length, parts.chainCode.property]
  rw [readHd44]
  simp only [bind_eq_ok, rejectIf_eq_ok]
  refine ⟨(), ?_, parts.publicKey, ?_, (), ?_, parts.chainCode, ?_, ?_⟩
  · rw [List.length_append, hkey, hchain]
    exact not_not.mpr rfl
  · rw [List.take_left' hkey]
    exact decodeHexBytes_encode parts.publicKey
  · intro hneither
    exact h.compressed.elim hneither.1 hneither.2
  · rw [List.drop_left' hkey]
    exact decodeHexBytes_encode parts.chainCode
  · exact congrArg Except.ok h.eq.symm

theorem legacy_plain (parts : Participant) :
    PlainKey (encodeLowerHex parts.publicKey.val ++ encodeLowerHex parts.chainCode.val) := by
  constructor
  · intro hnil
    have hlength := congrArg List.length hnil
    rw [List.length_append, encodeLowerHex_length, parts.publicKey.property] at hlength
    simp at hlength
  · intro byte hbyte
    obtain hbyte | hbyte := List.mem_append.mp hbyte
    · exact digits_plain byte hbyte
    · exact digits_plain byte hbyte

/-! ## Whole texts -/

/-- The text of an account key. -/
def accountText (parts : Participant) : Bytes :=
  ACCOUNT_KEY_TEXT_PREFIX ++ encodeLowerHex (ACCOUNT_KEY_VERSION ++ serializedParts parts)

/-- The text of the older form. -/
def legacyText (parts : Participant) : Bytes :=
  encodeLowerHex parts.publicKey.val ++ encodeLowerHex parts.chainCode.val

/-- An account key at the depth and the child number of every account. -/
def AccountLevel (parts : Participant) : Prop := validateAccountKeyPayload (kpubPayload parts).val = true

instance (parts : Participant) : Decidable (AccountLevel parts) := inferInstanceAs (Decidable (_ = true))

theorem serialize_accountText (h : AccountLevel parts) : serializeKpubParts parts = some (accountText parts) :=
  serializeKpubParts_eq_some.mpr ⟨h, rfl⟩

/-- Different keys have different texts. -/
theorem accountText_inj {parts parts' : Participant} (h : accountText parts = accountText parts') :
    parts = parts' :=
  serializedParts_inj (List.append_cancel_left (encodeLowerHex_inj (List.append_cancel_left h)))

/-- The texts are in the order of the payloads. -/
theorem accountText_le {parts parts' : Participant} (h : serializedParts parts ≤ serializedParts parts') :
    accountText parts ≤ accountText parts' := by
  apply List.not_lt.mp
  intro hlt
  by_cases hparts : serializedParts parts < serializedParts parts'
  · have hgt : accountText parts < accountText parts' := by
      apply List.append_left_lt
      apply encodeLowerHex_lt
      exact List.append_left_lt hparts
    exact List.lt_asymm hlt hgt
  · have heq := serializedParts_inj (List.le_antisymm h (List.not_lt.mp hparts))
    rw [heq] at hlt
    exact List.lt_irrefl _ hlt

theorem keys_of_account {slots : List Participant} {keys : List Bytes}
    (h : List.Forall₂ (fun parts key => keyText true parts = some key) slots keys) :
    keys = slots.map accountText ∧ ∀ parts ∈ slots, AccountLevel parts := by
  induction h with
  | nil => exact ⟨rfl, fun parts hparts => by cases hparts⟩
  | cons hkey _ ih =>
    obtain ⟨hvalid, htext⟩ := serializeKpubParts_eq_some.mp hkey
    rw [List.map_cons, ← ih.1, htext]
    exact ⟨rfl, List.forall_mem_cons.mpr ⟨hvalid, ih.2⟩⟩

/-- For slots of account keys the key texts are these. -/
theorem forall₂_account {slots : List Participant} (h : ∀ parts ∈ slots, AccountLevel parts) :
    List.Forall₂ (fun parts key => keyText true parts = some key) slots (slots.map accountText) := by
  rw [List.forall₂_map_right_iff, List.forall₂_same]
  exact fun parts hparts => serialize_accountText (h parts hparts)

theorem forall₂_legacy (slots : List Participant) :
    List.Forall₂ (fun parts key => keyText false parts = some key) slots (slots.map legacyText) := by
  rw [List.forall₂_map_right_iff, List.forall₂_same]
  exact fun _ _ => rfl

section whole
variable {threshold : UInt8} {participants : List Participant}

/-- Two to five participants, and a threshold that they can reach. -/
structure Shape (threshold : UInt8) (count : Nat) : Prop where
  two_le : 2 ≤ count
  le_max : count ≤ Model.MAX_MULTISIG_KEYS
  ne_zero : threshold ≠ 0
  le_count : threshold.toNat ≤ count

theorem Shape.lt_ten {count : Nat} (h : Shape threshold count) : threshold < 10 := by
  rw [UInt8.lt_iff_toNat_lt]
  have hmax : count ≤ 5 := h.le_max
  have := h.le_count
  change threshold.toNat < 10
  omega

theorem Shape.toNat_ofNat {count : Nat} (h : Shape threshold count) : (UInt8.ofNat count).toNat = count :=
  UInt8.toNat_ofNat_of_lt' (lt_of_le_of_lt h.le_max (by decide))

/-- A threshold and a count in range, with distinct keys, pass the checks of a descriptor. -/
theorem Shape.validate {count : Nat} (h : Shape threshold count) (kind : MultisigDescriptorKind)
    (keys : List (FixedBytes 32)) (participants : List Participant) :
    validateDescriptorThreshold ⟨threshold, UInt8.ofNat count, kind, keys, participants⟩ = .ok () := by
  rw [validateDescriptorThreshold]
  simp only [bind_eq_ok, rejectIf_eq_ok, not_or]
  refine ⟨(), ?_, h.ne_zero, ?_⟩
  · rw [UInt8.not_lt, UInt8.le_iff_toNat_le, h.toNat_ofNat]
    exact h.two_le
  · rw [UInt8.not_lt, UInt8.le_iff_toNat_le, h.toNat_ofNat]
    exact h.le_count

/-- The parser goes through the written keys. -/
theorem parse_written {kind : MultisigDescriptorKind} {keys : List Bytes} {parsed : ParsedMultisigDescriptor}
    (hshape : Shape threshold keys.length) (hplain : ∀ key ∈ keys, PlainKey key)
    (hread : ∀ rest, Wallet.Multisig.parts rest = keys →
      parseDescriptorParticipants Model.MAX_MULTISIG_KEYS kind threshold rest = .ok parsed)
    (hvalid : validateDescriptorThreshold parsed = .ok ()) :
    parseMultisigDescriptor Model.MAX_MULTISIG_KEYS (writtenDescriptor kind threshold keys) = .ok parsed := by
  cases keys with
  | nil => exact absurd hshape.two_le (by decide)
  | cons key keys =>
    refine parseMultisigDescriptor_ok.mpr ⟨kind, threshold, key ++ listedKeys keys,
      descriptorParts_written hshape.lt_ten hplain, hread _ ?_, hvalid⟩
    exact parts_listed (hplain key List.mem_cons_self) fun other hother =>
      hplain other (List.mem_cons_of_mem key hother)

/-- A written descriptor of the older form is accepted again. -/
theorem parse_legacy (hshape : Shape threshold participants.length)
    (hlegacy : ∀ parts ∈ participants, Legacy parts)
    (hdistinct : (participants.map fun p => (p.publicKey, p.chainCode)).Nodup) :
    parseMultisigDescriptor Model.MAX_MULTISIG_KEYS
        (writtenDescriptor .hd44 threshold (participants.map legacyText)) =
      .ok ⟨threshold, UInt8.ofNat participants.length, .hd44, [], participants⟩ := by
  apply parse_written (by rwa [List.length_map]) _ _ (hshape.validate _ _ _)
  · intro key hkey
    obtain ⟨parts, _, rfl⟩ := List.mem_map.mp hkey
    exact legacy_plain parts
  · intro rest hrest
    have hslots : readParticipants Model.MAX_MULTISIG_KEYS readHd44 (Wallet.Multisig.parts rest) = .ok participants := by
      rw [hrest, readParticipants_iff (by decide), List.length_map, List.forall₂_map_left_iff, List.forall₂_same]
      exact ⟨hshape.le_max, fun parts hparts => readHd44_written (hlegacy parts hparts)⟩
    refine bind_eq_ok.mpr ⟨participants, ?_, rfl⟩
    rw [parseHd44Participants, hslots]
    refine bind_eq_ok.mpr ⟨participants, rfl, bind_eq_ok.mpr ⟨(), ?_, rfl⟩⟩
    rw [rejectIf_eq_ok, Bool.not_eq_true, hasDuplicate_eq_false]
    exact hdistinct

/-- The order of the serialized entries is the order that the parser gives the texts. -/
theorem parse_account (hshape : Shape threshold participants.length)
    (haccount : ∀ parts ∈ participants, AccountLevel parts) (hdistinct : participants.Nodup)
    (hsorted : participants.Pairwise fun a b => serializedParts a ≤ serializedParts b) :
    parseMultisigDescriptor Model.MAX_MULTISIG_KEYS
        (writtenDescriptor .hd45 threshold (participants.map accountText)) =
      .ok ⟨threshold, UInt8.ofNat participants.length, .hd45, [], participants⟩ := by
  apply parse_written (by rwa [List.length_map]) _ _ (hshape.validate _ _ _)
  · intro key hkey
    obtain ⟨parts, hparts, rfl⟩ := List.mem_map.mp hkey
    exact kpub_plain (serialize_accountText (haccount parts hparts))
  · intro rest hrest
    let slots := participants.map fun parts => (accountText parts, parts)
    have htexts : slots.map Prod.fst = participants.map accountText := List.map_map
    have hparts : slots.map Prod.snd = participants := by
      rw [List.map_map]
      exact List.map_id participants
    have hslots : readParticipants Model.MAX_MULTISIG_KEYS readHd45 (Wallet.Multisig.parts rest) = .ok slots := by
      rw [hrest, readParticipants_iff (by decide), List.length_map, List.forall₂_map_left_iff,
        List.forall₂_map_right_iff, List.forall₂_same]
      exact ⟨hshape.le_max, fun parts hparts =>
        readHd45_serialize (serialize_accountText (haccount parts hparts))⟩
    have htextSorted : (slots.map Prod.fst).Pairwise fun a b => a ≤ b := by
      rw [htexts, List.pairwise_map]
      exact hsorted.imp accountText_le
    have hsort : swapSort Prod.fst slots = slots := by
      apply swapSort_of_sorted Prod.fst (List.pairwise_map.mp htextSorted)
      intro a ha b hb heq
      obtain ⟨parts, _, rfl⟩ := List.mem_map.mp ha
      obtain ⟨parts', _, rfl⟩ := List.mem_map.mp hb
      rw [accountText_inj heq]
    have hunique : (slots.map Prod.fst).Nodup := by
      rw [htexts]
      exact hdistinct.map fun _ _ => accountText_inj
    refine bind_eq_ok.mpr ⟨participants, ?_, rfl⟩
    rw [parseHd45Participants, hslots]
    refine bind_eq_ok.mpr ⟨slots, rfl, bind_eq_ok.mpr ⟨(), ?_, ?_⟩⟩
    · rw [hsort, rejectIf_eq_ok, Bool.not_eq_true, equalNeighbours_eq_false htextSorted]
      exact hunique
    · rw [hsort, hparts]
      rfl

end whole

end KaspaPortal.Transaction.Multisig

namespace KaspaPortal.Guarantees
open Lib Primitives Wallet.Key Wallet.Multisig Transaction.Multisig Transaction.Model

/-! ## Room -/

theorem length_accountText (parts : Participant) : (accountText parts).length = KPUB_MAX_LEN :=
  length_accountKeyText (kpubPayload parts)

theorem length_legacyText (parts : Participant) : (legacyText parts).length = 130 := by
  rw [legacyText, List.length_append, encodeLowerHex_length, encodeLowerHex_length, parts.publicKey.property,
    parts.chainCode.property]

/-- The longest list of keys still fits the buffer. -/
theorem length_listedKeys_le {keys : List Bytes} (h : ∀ key ∈ keys, key.length ≤ DESCRIPTOR_KEY_MAX_LEN) :
    (listedKeys keys).length ≤ keys.length * (1 + DESCRIPTOR_KEY_MAX_LEN) := by
  induction keys with
  | nil => exact Nat.zero_le _
  | cons key keys ih =>
    have hkey := h key List.mem_cons_self
    have hkeys := ih fun other hother => h other (List.mem_cons_of_mem key hother)
    rw [listedKeys] at hkeys
    rw [listedKeys, List.flatMap_cons, List.length_append, List.length_cons, List.length_cons, Nat.succ_mul]
    omega

/-- A full key set fits. -/
theorem length_written_le {kind : MultisigDescriptorKind} {threshold : UInt8} {keys : List Bytes}
    (hcount : keys.length ≤ Transaction.Model.MAX_MULTISIG_KEYS)
    (h : ∀ key ∈ keys, key.length ≤ DESCRIPTOR_KEY_MAX_LEN) :
    (writtenDescriptor kind threshold keys).length ≤ DESCRIPTOR_MAX_LEN := by
  have hname : (kindText kind).length ≤ (ascii "multi_hd45(").length := by
    cases kind <;> decide
  have hkeys := (length_listedKeys_le h).trans (Nat.mul_le_mul_right (1 + DESCRIPTOR_KEY_MAX_LEN) hcount)
  have hclose : (ascii ")").length = 1 := rfl
  rw [writtenDescriptor, DESCRIPTOR_MAX_LEN, List.length_append, List.length_append, List.length_append,
    List.length_singleton, hclose]
  omega

/-! ## Slots -/

theorem slots_eq_take (config : MultisigConfig) {count : Nat} (h : count ≤ Transaction.Model.MAX_MULTISIG_KEYS) :
    (List.range count).map config.cosignerParts = config.cosigners.take count := by
  rw [← config.five] at h
  apply List.ext_getElem
  · rw [List.length_map, List.length_range, List.length_take, Nat.min_eq_left h]
  · intro i hi _
    rw [List.length_map, List.length_range] at hi
    rw [List.getElem_map, List.getElem_range, List.getElem_take, MultisigConfig.cosignerParts,
      List.getElem?_eq_getElem (hi.trans_le h), Option.getD_some]

/-- A full wallet has room for its entries, whatever its kind. -/
theorem write_entries {config : MultisigConfig} {participants : List Participant} {entry : Participant → Bytes}
    (hslots : (List.range config.n.toNat).map config.cosignerParts = participants)
    (hcount : participants.length ≤ Transaction.Model.MAX_MULTISIG_KEYS)
    (hentries : List.Forall₂ (fun parts key => keyText config.v45 parts = some key) participants
      (participants.map entry))
    (hlength : ∀ parts, (entry parts).length ≤ DESCRIPTOR_KEY_MAX_LEN) :
    config.writeDescriptor DESCRIPTOR_MAX_LEN =
      some (writtenDescriptor (if config.v45 then .hd45 else .hd44) config.m (participants.map entry)) := by
  refine writeDescriptor_eq_some.mpr ⟨participants.map entry, ?_, rfl, ?_⟩
  · rw [hslots]
    exact hentries
  · apply length_written_le (by rwa [List.length_map])
    intro key hkey
    obtain ⟨parts, _, rfl⟩ := List.mem_map.mp hkey
    exact hlength parts

/-- A wallet of account keys in the order of their entries is written as it is. -/
theorem write_account {config : MultisigConfig} {participants : List Participant} (hv45 : config.v45 = true)
    (hslots : (List.range config.n.toNat).map config.cosignerParts = participants)
    (hcount : participants.length ≤ Transaction.Model.MAX_MULTISIG_KEYS)
    (haccount : ∀ parts ∈ participants, AccountLevel parts) :
    config.writeDescriptor DESCRIPTOR_MAX_LEN =
      some (writtenDescriptor .hd45 config.m (participants.map accountText)) := by
  have hentries := forall₂_account haccount
  rw [← hv45] at hentries
  have hlength : ∀ parts, (accountText parts).length ≤ DESCRIPTOR_KEY_MAX_LEN := by
    intro parts
    rw [length_accountText]
    decide
  have hwrite := write_entries hslots hcount hentries hlength
  rwa [hv45, if_pos rfl] at hwrite

/-- What the writer gives for slots of the older form. -/
theorem write_legacy {config : MultisigConfig} {participants : List Participant} (hv45 : config.v45 = false)
    (hslots : (List.range config.n.toNat).map config.cosignerParts = participants)
    (hcount : participants.length ≤ Transaction.Model.MAX_MULTISIG_KEYS) :
    config.writeDescriptor DESCRIPTOR_MAX_LEN =
      some (writtenDescriptor .hd44 config.m (participants.map legacyText)) := by
  have hentries := forall₂_legacy participants
  rw [← hv45] at hentries
  have hlength : ∀ parts, (legacyText parts).length ≤ DESCRIPTOR_KEY_MAX_LEN := by
    intro parts
    rw [length_legacyText]
    decide
  have hwrite := write_entries hslots hcount hentries hlength
  rwa [hv45, if_neg Bool.false_ne_true] at hwrite

/-! ## Parsed wallets -/

theorem legacy_slots {texts : List Bytes} {slots : List Participant}
    (h : List.Forall₂ (fun text slot => readHd44 text = .ok slot) texts slots) :
    ∀ parts ∈ slots, Legacy parts := by
  induction h with
  | nil => exact fun parts hparts => by cases hparts
  | cons hread _ ih => exact List.forall_mem_cons.mpr ⟨legacy_of_readHd44 hread, ih⟩

theorem legacy_participants {rest : Bytes} {hd : List Participant}
    (h : parseHd44Participants Transaction.Model.MAX_MULTISIG_KEYS rest = .ok hd) :
    ∀ parts ∈ hd, Legacy parts := by
  rw [parseHd44Participants] at h
  obtain ⟨slots, hslots, h⟩ := bind_eq_ok.mp h
  obtain ⟨_, _, heq⟩ := bind_eq_ok.mp h
  cases heq
  exact legacy_slots ((readParticipants_iff (by decide)).mp hslots).2

/-- The participants of an accepted HD45 descriptor are different account keys in order. -/
theorem account_participants {rest : Bytes} {hd : List Participant}
    (h : parseHd45Participants Transaction.Model.MAX_MULTISIG_KEYS rest = .ok hd) :
    (∀ parts ∈ hd, AccountLevel parts) ∧ hd.Nodup ∧
      hd.Pairwise fun a b => serializedParts a ≤ serializedParts b := by
  obtain ⟨slots, hslots, rfl, hunique⟩ := parseHd45Participants_ok h
  obtain ⟨_, hread⟩ := slots_of_texts (readParticipants_ok hslots)
  have hperm := perm_swapSort Prod.fst slots
  have htext : ∀ slot ∈ slots, AccountLevel slot.2 ∧ slot.1 = accountText slot.2 := by
    intro slot hslot
    exact serializeKpubParts_eq_some.mp (serialize_of_readHd45 (hread slot hslot))
  refine ⟨?_, ?_, serializedParts_sorted hread⟩
  · intro parts hparts
    obtain ⟨slot, hslot, rfl⟩ := List.mem_map.mp hparts
    exact (htext slot (hperm.mem_iff.mp hslot)).1
  · have htexts : slots.map Prod.fst = (slots.map Prod.snd).map accountText := by
      rw [List.map_map]
      exact List.map_congr_left fun slot hslot => (htext slot hslot).2
    rw [htexts] at hunique
    exact (hperm.map Prod.snd).nodup_iff.mpr hunique.of_map

/-- The key of an account is compressed. -/
theorem compressed_of_accountLevel {parts : Participant} (h : AccountLevel parts) :
    parts.publicKey.val.head? = some 0x02 ∨ parts.publicKey.val.head? = some 0x03 := by
  -- The 46th byte of the payload is the first one of the key.
  have hhead : (kpubPayload parts).val[45]? = parts.publicKey.val.head? := by
    have hfront : (ACCOUNT_KEY_VERSION ++ ([parts.depth] ++ parts.parentFingerprint.val ++
        parts.childNumber.val ++ parts.chainCode.val)).length = 45 := by
      simp only [List.length_append, List.length_singleton, parts.parentFingerprint.property,
        parts.childNumber.property, parts.chainCode.property]
      rfl
    change (ACCOUNT_KEY_VERSION ++ (_ ++ parts.publicKey.val))[45]? = _
    rw [← List.append_assoc, List.getElem?_append_right hfront.le, hfront, List.head?_eq_getElem?]
  rw [AccountLevel, validateAccountKeyPayload] at h
  simp only [Bool.and_eq_true, Bool.or_eq_true, beq_iff_eq, hhead] at h
  exact h.2

/-- The participants of an accepted hierarchical descriptor have compressed keys. -/
theorem compressed_participants {data : Bytes} {parsed : ParsedMultisigDescriptor} (hkind : parsed.kind ≠ .static)
    (h : parseMultisigDescriptor Transaction.Model.MAX_MULTISIG_KEYS data = .ok parsed) :
    ∀ parts ∈ parsed.participants,
      parts.publicKey.val.head? = some 0x02 ∨ parts.publicKey.val.head? = some 0x03 := by
  obtain ⟨kind, threshold, rest, _, hread, _⟩ := parseMultisigDescriptor_ok.mp h
  cases kind with
  | static =>
    obtain ⟨keys, _, heq⟩ := bind_eq_ok.mp hread
    cases heq
    exact absurd rfl hkind
  | hd44 =>
    obtain ⟨hd, hhd, heq⟩ := bind_eq_ok.mp hread
    cases heq
    exact fun parts hparts => (legacy_participants hhd parts hparts).compressed
  | hd45 =>
    obtain ⟨hd, hhd, heq⟩ := bind_eq_ok.mp hread
    cases heq
    exact fun parts hparts => compressed_of_accountLevel ((account_participants hhd).1 parts hparts)

/-- What the device exports after an import: the same descriptor. -/
theorem parsed_export {data : Bytes} {parsed : ParsedMultisigDescriptor} (hkind : parsed.kind ≠ .static)
    (h : parseMultisigDescriptor Transaction.Model.MAX_MULTISIG_KEYS data = .ok parsed) :
    ∃ text, (MultisigConfig.fromDescriptor parsed).writeDescriptor DESCRIPTOR_MAX_LEN = some text ∧
      parseMultisigDescriptor Transaction.Model.MAX_MULTISIG_KEYS text = .ok parsed := by
  obtain ⟨hroom, hcount, htwo, hone, hthreshold⟩ := parseMultisigDescriptor_shape (by decide) hkind h
  have hn : parsed.participantCount.toNat = parsed.participants.length := by
    rw [hcount]
    exact UInt8.toNat_ofNat_of_lt' (lt_of_le_of_lt hroom (by decide))
  have hshape : Shape parsed.threshold parsed.participants.length := by
    refine ⟨?_, hroom, ?_, ?_⟩
    · rw [← hn]
      exact UInt8.le_iff_toNat_le.mp htwo
    · intro hzero
      rw [hzero] at hone
      revert hone
      decide
    · rw [← hn]
      exact UInt8.le_iff_toNat_le.mp hthreshold
  have hslots : (List.range (MultisigConfig.fromDescriptor parsed).n.toNat).map
      (MultisigConfig.fromDescriptor parsed).cosignerParts = parsed.participants := by
    have hslot : (MultisigConfig.fromDescriptor parsed).n.toNat ≤ Transaction.Model.MAX_MULTISIG_KEYS :=
      hn.trans_le hroom
    rw [slots_eq_take _ hslot]
    change (MultisigConfig.padSlots parsed.participants).take parsed.participantCount.toNat = _
    rw [hn, MultisigConfig.take_padSlots hroom]
  obtain ⟨kind, threshold, rest, _, hread, _⟩ := parseMultisigDescriptor_ok.mp h
  cases kind with
  | static =>
    obtain ⟨keys, _, heq⟩ := bind_eq_ok.mp hread
    cases heq
    exact absurd rfl hkind
  | hd44 =>
    obtain ⟨hd, hhd, heq⟩ := bind_eq_ok.mp hread
    cases heq
    exact ⟨_, write_legacy rfl hslots hroom,
      parse_legacy hshape (legacy_participants hhd) (parseHd44Participants_ok hhd)⟩
  | hd45 =>
    obtain ⟨hd, hhd, heq⟩ := bind_eq_ok.mp hread
    cases heq
    obtain ⟨haccount, hdistinct, hsorted⟩ := account_participants hhd
    exact ⟨_, write_account rfl hslots hroom haccount, parse_account hshape haccount hdistinct hsorted⟩

/-! ## Wallets under construction -/

/-- A 45' wallet of a shape whose slots are set with account keys and sorted, in any order. -/
inductive Built (m n : UInt8) : MultisigConfig → Prop
  | new : Built m n { MultisigConfig.new with m, n, v45 := true }
  | setCosigner {config config' : MultisigConfig} {index : Nat} {parts : Participant} :
    Built m n config → AccountLevel parts → config.setCosigner index parts = (true, config') → Built m n config'
  | sortCosigners {config : MultisigConfig} : Built m n config → Built m n config.sortCosigners

/-- Slots that are empty or hold different account keys. -/
structure Slots (m n : UInt8) (config : MultisigConfig) : Prop where
  m_eq : config.m = m
  n_eq : config.n = n
  v45_eq : config.v45 = true
  filled : ∀ parts ∈ config.cosigners, parts = emptySlot ∨ AccountLevel parts
  distinct : config.cosigners.Pairwise fun a b => AccountLevel a → a ≠ b

variable {m n : UInt8} {config : MultisigConfig}

/-- A written slot is an account key; the others stay as they were. -/
theorem Slots.setCosigner {config' : MultisigConfig} {index : Nat} {parts : Participant} (h : Slots m n config)
    (hparts : AccountLevel parts) (hset : config.setCosigner index parts = (true, config')) :
    Slots m n config' := by
  rw [MultisigConfig.setCosigner] at hset
  split at hset
  case isTrue => cases hset
  case isFalse hnew =>
    cases hset
    rw [Bool.or_eq_true, not_or, Bool.not_eq_true, Bool.not_eq_true] at hnew
    have hother : ∀ slot < Transaction.Model.MAX_MULTISIG_KEYS, slot ≠ index →
        config.cosignerParts slot ≠ parts := by
      intro slot hslot hne heq
      have hnone := List.any_eq_false.mp hnew.2 slot (List.mem_range.mpr hslot)
      rw [heq] at hnone
      simp [hne] at hnone
    have hget : ∀ slot (hslot : slot < config.cosigners.length),
        config.cosignerParts slot = config.cosigners[slot] := by
      intro slot hslot
      rw [MultisigConfig.cosignerParts, List.getElem?_eq_getElem hslot, Option.getD_some]
    refine ⟨h.m_eq, h.n_eq, h.v45_eq, ?_, ?_⟩
    · intro other hmem
      obtain hmem | rfl := List.mem_or_eq_of_mem_set hmem
      · exact h.filled other hmem
      · exact Or.inr hparts
    · rw [List.pairwise_iff_getElem]
      intro i j hi hj hij
      rw [List.length_set] at hi hj
      rw [List.getElem_set, List.getElem_set]
      split
      case isTrue hindex =>
        subst hindex
        rw [if_neg (Nat.ne_of_lt hij), ← hget j hj]
        exact fun _ heq => hother j (config.five ▸ hj) (Nat.ne_of_gt hij) heq.symm
      case isFalse hindex =>
        split
        case isTrue hindex' =>
          rw [← hget i hi]
          exact fun _ => hother i (config.five ▸ hi) (Ne.symm hindex)
        case isFalse => exact List.pairwise_iff_getElem.mp h.distinct i j hi hj hij

/-- Sorting permutes the slots that are in use. -/
theorem Slots.sortCosigners (h : Slots m n config) : Slots m n config.sortCosigners := by
  rw [MultisigConfig.sortCosigners, if_pos h.v45_eq]
  have hperm := config.perm_sortedSlots
  refine ⟨h.m_eq, h.n_eq, h.v45_eq, ?_, ?_⟩
  · exact fun parts hmem => h.filled parts (hperm.mem_iff.mp hmem)
  · refine (hperm.pairwise_iff ?_).mpr h.distinct
    intro a b hdistinct hb heq
    exact hdistinct (heq ▸ hb) heq.symm

/-- The invariant of the construction. -/
theorem slots_of_built (h : Built m n config) : Slots m n config := by
  induction h with
  | new =>
    refine ⟨rfl, rfl, rfl, ?_, ?_⟩
    · intro parts hparts
      exact Or.inl (List.eq_of_mem_replicate hparts)
    · rw [List.pairwise_iff_getElem]
      intro i j hi hj hij haccount
      have hempty : ¬AccountLevel emptySlot := by decide
      simp only [MultisigConfig.new, List.getElem_replicate] at haccount
      exact absurd haccount hempty
  | setCosigner _ hparts hset ih => exact ih.setCosigner hparts hset
  | sortCosigners _ ih => exact ih.sortCosigners

/-- The written slots are the sorted ones. -/
theorem sortCosigners_slots (h : Slots m n config) (hn : n.toNat ≤ Transaction.Model.MAX_MULTISIG_KEYS) :
    (List.range n.toNat).map config.sortCosigners.cosignerParts =
        swapSort serializedParts (config.cosigners.take n.toNat) ∧
      config.sortCosigners.cosigners.take n.toNat = swapSort serializedParts (config.cosigners.take n.toNat) := by
  have hlength : (swapSort serializedParts (config.cosigners.take n.toNat)).length = n.toNat := by
    rw [(perm_swapSort serializedParts _).length_eq, List.length_take, config.five, Nat.min_eq_left hn]
  have htake : config.sortCosigners.cosigners.take n.toNat =
      swapSort serializedParts (config.cosigners.take n.toNat) := by
    rw [MultisigConfig.sortCosigners, if_pos h.v45_eq]
    change config.sortedSlots.take n.toNat = _
    rw [MultisigConfig.sortedSlots, h.n_eq]
    exact List.take_left' hlength
  rw [slots_eq_take _ hn]
  exact ⟨htake, htake⟩

/-- The slots in use of a sorted wallet, once they are account keys. -/
theorem parse_built (h : Slots m n config) (hshape : Shape m n.toNat)
    (haccount : ∀ parts ∈ config.cosigners.take n.toNat, AccountLevel parts) :
    config.sortCosigners.writeDescriptor DESCRIPTOR_MAX_LEN = some (writtenDescriptor .hd45 m
        ((config.sortCosigners.cosigners.take n.toNat).map accountText)) ∧
      parseMultisigDescriptor Transaction.Model.MAX_MULTISIG_KEYS (writtenDescriptor .hd45 m
          ((config.sortCosigners.cosigners.take n.toNat).map accountText)) =
        .ok ⟨m, n, .hd45, [], config.sortCosigners.cosigners.take n.toNat⟩ := by
  obtain ⟨hslots, htake⟩ := sortCosigners_slots h hshape.le_max
  have hsorted := h.sortCosigners
  have hperm := perm_swapSort serializedParts (config.cosigners.take n.toNat)
  rw [htake]
  have hcount : (swapSort serializedParts (config.cosigners.take n.toNat)).length = n.toNat := by
    rw [hperm.length_eq, List.length_take, config.five, Nat.min_eq_left hshape.le_max]
  have haccount' : ∀ parts ∈ swapSort serializedParts (config.cosigners.take n.toNat), AccountLevel parts :=
    fun parts hparts => haccount parts (hperm.mem_iff.mp hparts)
  have hdistinct : (config.cosigners.take n.toNat).Nodup := by
    apply (h.distinct.sublist (List.take_sublist n.toNat config.cosigners)).imp_of_mem
    intro a b ha _ hne
    exact hne (haccount a ha)
  constructor
  · have hwrite := write_account hsorted.v45_eq (hsorted.n_eq.symm ▸ hslots)
      (by rw [hcount]; exact hshape.le_max) haccount'
    rwa [hsorted.m_eq] at hwrite
  · have hparse := parse_account (by rwa [hcount]) haccount' (hperm.nodup_iff.mpr hdistinct)
      (swapSort_sorted serializedParts _)
    rwa [hcount, UInt8.ofNat_toNat] at hparse

theorem shape_of_valid (hvalid : validConfig m n = true) (hn : 2 ≤ n) : Shape m n.toNat := by
  simp only [validConfig, Bool.and_eq_true, bne_iff_ne, decide_eq_true_eq] at hvalid
  obtain ⟨⟨⟨hm, _⟩, hle⟩, hmax⟩ := hvalid
  exact ⟨UInt8.le_iff_toNat_le.mp hn, hmax, hm, UInt8.le_iff_toNat_le.mp hle⟩

/-- A filled slot of a built wallet holds an account key. -/
theorem accountLevel_of_filled (h : Slots m n config) (hn : n.toNat ≤ Transaction.Model.MAX_MULTISIG_KEYS)
    (hfilled : ∀ index < n.toNat, config.sortCosigners.slotEmpty index = false) :
    ∀ parts ∈ config.cosigners.take n.toNat, AccountLevel parts := by
  obtain ⟨hslots, _⟩ := sortCosigners_slots h hn
  intro parts hparts
  rw [← (perm_swapSort serializedParts _).mem_iff, ← hslots] at hparts
  obtain ⟨index, hindex, rfl⟩ := List.mem_map.mp hparts
  rw [List.mem_range] at hindex
  have hkept := hfilled index hindex
  rw [MultisigConfig.slotEmpty, if_neg (by omega), beq_eq_false_iff_ne] at hkept
  have hbound : index < config.sortCosigners.cosigners.length := by
    rw [config.sortCosigners.five]
    omega
  have hget : config.sortCosigners.cosignerParts index =
      config.sortCosigners.cosigners.get ⟨index, hbound⟩ := by
    rw [MultisigConfig.cosignerParts, List.getElem?_eq_getElem hbound, Option.getD_some, List.get_eq_getElem]
  obtain hempty | haccount := h.sortCosigners.filled _ (List.get_mem _ ⟨index, hbound⟩)
  · rw [hget, hempty] at hkept
    exact absurd rfl hkept
  · rwa [hget]

/-- A wallet that could be written has account keys in its slots in use. -/
theorem accountLevel_of_written {room : Nat} {text : Bytes} (h : Slots m n config)
    (hn : n.toNat ≤ Transaction.Model.MAX_MULTISIG_KEYS)
    (hwrite : config.sortCosigners.writeDescriptor room = some text) :
    (∀ parts ∈ config.cosigners.take n.toNat, AccountLevel parts) ∧
      text = writtenDescriptor .hd45 m ((config.sortCosigners.cosigners.take n.toNat).map accountText) := by
  obtain ⟨hslots, htake⟩ := sortCosigners_slots h hn
  obtain ⟨keys, hkeys, htext, _⟩ := writeDescriptor_eq_some.mp hwrite
  rw [h.sortCosigners.n_eq, h.sortCosigners.v45_eq, hslots] at hkeys
  obtain ⟨rfl, haccount⟩ := keys_of_account hkeys
  rw [h.sortCosigners.v45_eq, h.sortCosigners.m_eq, if_pos rfl] at htext
  refine ⟨fun parts hparts => haccount parts ?_, by rw [htext, htake]⟩
  exact (perm_swapSort serializedParts _).mem_iff.mpr hparts

/-- Exported descriptors are read back. A parsed wallet is written as a text that fits, parses again to
the same descriptor and is written again as itself. A 45' wallet whose slots were set with account keys
and sorted is read back with its participants in its own order, and it is written once no slot in use is
empty. -/
theorem descriptor_export :
    (∀ (data : Bytes) (parsed : ParsedMultisigDescriptor),
      parseMultisigDescriptor Transaction.Model.MAX_MULTISIG_KEYS data = .ok parsed → parsed.kind ≠ .static →
      ∃ text, (MultisigConfig.fromDescriptor parsed).writeDescriptor DESCRIPTOR_MAX_LEN = some text ∧
        text.length ≤ DESCRIPTOR_MAX_LEN ∧
        parseMultisigDescriptor Transaction.Model.MAX_MULTISIG_KEYS text = .ok parsed ∧
        ∀ again, parseMultisigDescriptor Transaction.Model.MAX_MULTISIG_KEYS text = .ok again →
          (MultisigConfig.fromDescriptor again).writeDescriptor DESCRIPTOR_MAX_LEN = some text) ∧
    ∀ (m n : UInt8) (config : MultisigConfig), validConfig m n = true → 2 ≤ n → Built m n config →
      (∀ room text, config.sortCosigners.writeDescriptor room = some text →
        parseMultisigDescriptor Transaction.Model.MAX_MULTISIG_KEYS text =
          .ok ⟨m, n, .hd45, [], config.sortCosigners.cosigners.take n.toNat⟩) ∧
      ((∀ index < n.toNat, config.sortCosigners.slotEmpty index = false) →
        ∃ text, config.sortCosigners.writeDescriptor DESCRIPTOR_MAX_LEN = some text) := by
  constructor
  · intro data parsed hparse hkind
    obtain ⟨text, hwrite, hread⟩ := parsed_export hkind hparse
    obtain ⟨_, _, _, hroom⟩ := writeDescriptor_eq_some.mp hwrite
    refine ⟨text, hwrite, hroom, hread, ?_⟩
    intro again hagain
    rw [hread] at hagain
    cases hagain
    exact hwrite
  · intro m n config hvalid hn hbuilt
    have hslots := slots_of_built hbuilt
    have hshape := shape_of_valid hvalid hn
    constructor
    · intro room text hwrite
      obtain ⟨haccount, rfl⟩ := accountLevel_of_written hslots hshape.le_max hwrite
      exact (parse_built hslots hshape haccount).2
    · intro hfilled
      exact ⟨_, (parse_built hslots hshape (accountLevel_of_filled hslots hshape.le_max hfilled)).1⟩

/-- The accounts of a descriptor, set in the other order. -/
def sampleParts (fingerprint chainCodeAndKey : Bytes) : Participant :=
  ((readHd45 (kpubText fingerprint chainCodeAndKey)).toOption.map Prod.snd).getD emptySlot

/-- Two cosigners, of which one is enough. -/
def sampleWallet : MultisigConfig :=
  (((({ MultisigConfig.new with m := 1, n := 2, v45 := true } : MultisigConfig).setCosigner 0
    (sampleParts [0xa7, 0x45, 0x72, 0x70] secondAccount)).2).setCosigner 1
    (sampleParts [0x40, 0x5a, 0xb6, 0x83] firstAccount)).2

theorem descriptor_export_sample :
    ∃ text, sampleWallet.sortCosigners.writeDescriptor DESCRIPTOR_MAX_LEN = some text ∧
      parseMultisigDescriptor Transaction.Model.MAX_MULTISIG_KEYS text =
        .ok ⟨1, 2, .hd45, [], sampleWallet.sortCosigners.cosigners.take 2⟩ := by
  have hbuilt : Built 1 2 sampleWallet := by
    have hfirst : Built 1 2 (({ MultisigConfig.new with m := 1, n := 2, v45 := true } : MultisigConfig).setCosigner 0
        (sampleParts [0xa7, 0x45, 0x72, 0x70] secondAccount)).2 :=
      Built.new.setCosigner (by decide) (Prod.ext (by decide) rfl)
    exact hfirst.setCosigner (by decide) (Prod.ext (by decide) rfl)
  obtain ⟨hread, hwritten⟩ := descriptor_export.2 1 2 sampleWallet (by decide) (by decide) hbuilt
  obtain ⟨text, htext⟩ := hwritten (by decide)
  exact ⟨text, htext, hread _ text htext⟩

end KaspaPortal.Guarantees
