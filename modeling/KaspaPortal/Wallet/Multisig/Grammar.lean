import KaspaPortal.Lib.Codec
import KaspaPortal.Lib.Result
import KaspaPortal.Lib.Sorting
import KaspaPortal.Primitives.Address
import KaspaPortal.Wallet.Key.Account

/-!
# Multisig descriptors

`src/wallet/multisig/grammar.rs`: the bounded parser of `multi(...)`, `multi_hd(...)` and
`multi_hd45(...)`. The parallel arrays of the source are lists of the slots that
`participant_count` counts.

Texts of errors are left out: no function of the model reads them.
-/
namespace KaspaPortal.Wallet.Multisig
open Lib Lib.Json Primitives Wallet.Key

/-- A key and a chain code, in hexadecimal. -/
def HD44_PARTICIPANT_HEX_LEN : Nat := 130
def HD45_KPUB_LEN : Nat := ACCOUNT_KEY_TEXT_LEN
def STATIC_KEY_HEX_LEN : Nat := 64

/-- The three texts a wallet can be given as. -/
inductive MultisigDescriptorKind where
  | static | hd44 | hd45
  deriving DecidableEq, Repr

/-- What a text is refused for; the first reason found. -/
inductive MultisigDescriptorError where
  | unsupportedFormat | invalidThreshold | tooFewParticipants | tooManyParticipants
  | invalidParticipantLength | invalidHex | invalidCompressedPublicKey | invalidKpub
  | invalidKpubDepth | duplicateParticipant
  deriving DecidableEq, Repr

/-- One slot of the arrays of a hierarchical descriptor. -/
structure Participant where
  publicKey : FixedBytes 33
  chainCode : FixedBytes 32
  depth : UInt8
  parentFingerprint : FixedBytes 4
  childNumber : FixedBytes 4
  deriving DecidableEq

/-- A descriptor with its keys in the order of the text. -/
structure ParsedMultisigDescriptor where
  threshold : UInt8
  participantCount : UInt8
  kind : MultisigDescriptorKind
  staticPublicKeys : List (FixedBytes 32)
  participants : List Participant
  deriving DecidableEq

def ParsedMultisigDescriptor.isHd45 (self : ParsedMultisigDescriptor) : Bool := self.kind == .hd45

/-! ## Lines and parts -/

/-- White space at the end of a text is no part of it. -/
def trimTrailingAsciiWhitespace (data : Bytes) : Bytes :=
  data.rdropWhile fun byte => byte = 0x0a ∨ byte = 0x0d ∨ byte = 0x20 ∨ byte = 0x09

def trimAscii (data : Bytes) : Bytes :=
  trimTrailingAsciiWhitespace (data.dropWhile fun byte => byte = 0x20 ∨ byte = 0x09 ∨ byte = 0x0d)

/-- Headers and comments may surround the line of the descriptor. -/
def descriptorLine (data : Bytes) : Bytes :=
  (((data.splitOn 0x0a).map trimAscii).find? fun line =>
    (ascii "multi_hd45(").isPrefixOf line || (ascii "multi_hd(").isPrefixOf line ||
      (ascii "multi(").isPrefixOf line).getD data

/-- The kind and what stands between the brackets. -/
def descriptorBody (data : Bytes) : Except MultisigDescriptorError (MultisigDescriptorKind × Bytes) := do
  let (kind, head) ←
    if (ascii "multi_hd45(").isPrefixOf data then .ok (.hd45, ascii "multi_hd45(")
    else if (ascii "multi_hd(").isPrefixOf data then .ok (.hd44, ascii "multi_hd(")
    else if (ascii "multi(").isPrefixOf data then .ok (.static, ascii "multi(")
    else .error .unsupportedFormat
  rejectIf (¬(ascii ")").isSuffixOf data) MultisigDescriptorError.unsupportedFormat
  return (kind, (data.drop head.length).dropLast)

def isAsciiDigit (byte : UInt8) : Bool := 0x30 ≤ byte && byte ≤ 0x39

/-- At most three digits, so the `u16` never saturates. -/
def decimalValue (digits : Bytes) : Nat :=
  digits.foldl (fun threshold digit => threshold * 10 + (digit - 0x30).toNat) 0

/-- Up to three digits, then the list. -/
def splitThreshold (inner : Bytes) : Except MultisigDescriptorError (UInt8 × Bytes) := do
  let (head, participants) ← okOr .tooFewParticipants (splitOnce 0x2c inner)
  let digits := trimAscii head
  rejectIf (digits = [] ∨ 3 < digits.length ∨ ¬digits.all isAsciiDigit)
    MultisigDescriptorError.invalidThreshold
  rejectIf (256 ≤ decimalValue digits) MultisigDescriptorError.invalidThreshold
  return (UInt8.ofNat (decimalValue digits), participants)

/-- Up to the next comma, without the white space around it. -/
def nextPart (remaining : Bytes) : Bytes × Bytes :=
  match splitOnce 0x2c remaining with
  | some (part, tail) => (trimAscii part, tail)
  | none => (trimAscii remaining, [])

/-- The parts that `while !remaining.is_empty()` goes through, within `fuel` of them. -/
def partsWithin : Nat → Bytes → List Bytes
  | 0, _ => []
  | fuel + 1, remaining =>
    if remaining = [] then [] else (nextPart remaining).1 :: partsWithin fuel (nextPart remaining).2

/-- Every part takes at least a byte. -/
def parts (remaining : Bytes) : List Bytes := partsWithin remaining.length remaining

/-! ## Participants -/

/-- Exactly as many digits as the field has. -/
def decodeHexBytes (len : Nat) (hex : Bytes) : Except MultisigDescriptorError (FixedBytes len) := do
  rejectIf (hex.length ≠ len * 2) MultisigDescriptorError.invalidParticipantLength
  okOr .invalidHex ((decodeHex hex).bind (toArray len))

/-- A key alone. -/
def readStatic (part : Bytes) : Except MultisigDescriptorError (FixedBytes 32) := do
  rejectIf (part.length ≠ STATIC_KEY_HEX_LEN) MultisigDescriptorError.invalidParticipantLength
  decodeHexBytes 32 part

/-- A key and a chain code. Depth and fingerprint are not part of this form. -/
def readHd44 (part : Bytes) : Except MultisigDescriptorError Participant := do
  rejectIf (part.length ≠ HD44_PARTICIPANT_HEX_LEN) MultisigDescriptorError.invalidParticipantLength
  let publicKey ← decodeHexBytes 33 (part.take 66)
  rejectIf (publicKey.val.head? ≠ some 0x02 ∧ publicKey.val.head? ≠ some 0x03)
    MultisigDescriptorError.invalidCompressedPublicKey
  let chainCode ← decodeHexBytes 32 (part.drop 66)
  return {
    publicKey, chainCode, depth := 0
    parentFingerprint := ⟨[0, 0, 0, 0], rfl⟩
    childNumber := ⟨[0, 0, 0, 0], rfl⟩ }

/-- The encoded text, by which the participants are sorted, and the slots. -/
def readHd45 (part : Bytes) : Except MultisigDescriptorError (Bytes × Participant) := do
  rejectIf (part.length ≠ HD45_KPUB_LEN) MultisigDescriptorError.invalidParticipantLength
  let payload ← okOr .invalidKpub (decodeAccountKeyText part)
  rejectIf (payload.val[4]? ≠ some 3) MultisigDescriptorError.invalidKpubDepth
  return (part, {
    publicKey := field payload 45 33 (by decide)
    chainCode := field payload 13 32 (by decide)
    depth := payload.val[4]?.getD 0
    parentFingerprint := field payload 5 4 (by decide)
    childNumber := field payload 9 4 (by decide) })

section slots
variable {α : Type}

/-- `participant_count` is a byte: the 256th participant wraps it to zero, and the slots are
filled again from the first. -/
def nextSlots (slots : List α) (participant : α) : List α :=
  if slots.length = 255 then [] else slots ++ [participant]

/-- A slot beyond the capacity is refused before it is read. -/
def readSlot (capacity : Nat) (read : Bytes → Except MultisigDescriptorError α) (slots : List α)
    (part : Bytes) : Except MultisigDescriptorError (List α) := do
  rejectIf (capacity ≤ slots.length) MultisigDescriptorError.tooManyParticipants
  let participant ← read part
  return nextSlots slots participant

/-- One slot after the other, as long as there is room. -/
def readParticipants (capacity : Nat) (read : Bytes → Except MultisigDescriptorError α)
    (texts : List Bytes) : Except MultisigDescriptorError (List α) :=
  texts.foldlM (readSlot capacity read) []

end slots

/-- The pairs of `for left in 0..count { for right in left + 1..count }`. -/
def hasDuplicate {α : Type} [DecidableEq α] : List α → Bool
  | [] => false
  | left :: rest => rest.any (fun right => left == right) || hasDuplicate rest

/-- Keys may not repeat. -/
def parseStaticParticipants (capacity : Nat) (remaining : Bytes) :
    Except MultisigDescriptorError (List (FixedBytes 32)) := do
  let keys ← readParticipants capacity readStatic (parts remaining)
  rejectIf (hasDuplicate keys) MultisigDescriptorError.duplicateParticipant
  return keys

/-- Key and chain code together may not repeat. -/
def parseHd44Participants (capacity : Nat) (remaining : Bytes) :
    Except MultisigDescriptorError (List Participant) := do
  let participants ← readParticipants capacity readHd44 (parts remaining)
  rejectIf (hasDuplicate (participants.map fun p => (p.publicKey, p.chainCode)))
    MultisigDescriptorError.duplicateParticipant
  return participants

/-- The texts are sorted before the keys are used, so that their order does not matter. -/
def parseHd45Participants (capacity : Nat) (remaining : Bytes) :
    Except MultisigDescriptorError (List Participant) := do
  let slots ← readParticipants capacity readHd45 (parts remaining)
  let sorted := swapSort Prod.fst slots
  rejectIf (equalNeighbours (sorted.map Prod.fst)) MultisigDescriptorError.duplicateParticipant
  return sorted.map Prod.snd

/-- At least two participants, and a threshold they can reach. -/
def validateDescriptorThreshold (parsed : ParsedMultisigDescriptor) : Except MultisigDescriptorError Unit := do
  rejectIf (parsed.participantCount < 2) MultisigDescriptorError.tooFewParticipants
  rejectIf (parsed.threshold = 0 ∨ parsed.participantCount < parsed.threshold)
    MultisigDescriptorError.invalidThreshold

def parseDescriptorParticipants (capacity : Nat) (kind : MultisigDescriptorKind) (threshold : UInt8)
    (participants : Bytes) : Except MultisigDescriptorError ParsedMultisigDescriptor :=
  match kind with
  | .static => do
    let keys ← parseStaticParticipants capacity participants
    return ⟨threshold, UInt8.ofNat keys.length, kind, keys, []⟩
  | .hd44 => do
    let hd ← parseHd44Participants capacity participants
    return ⟨threshold, UInt8.ofNat hd.length, kind, [], hd⟩
  | .hd45 => do
    let hd ← parseHd45Participants capacity participants
    return ⟨threshold, UInt8.ofNat hd.length, kind, [], hd⟩

/-- The kind, the threshold and the rest of the text. -/
def descriptorParts (data : Bytes) :
    Except MultisigDescriptorError (MultisigDescriptorKind × UInt8 × Bytes) := do
  let (kind, inner) ← descriptorBody (descriptorLine (trimTrailingAsciiWhitespace data))
  let (threshold, participants) ← splitThreshold inner
  return (kind, threshold, participants)

/-- The text of a wallet: kind, threshold, list, and the checks of the whole. -/
def parseMultisigDescriptor (capacity : Nat) (data : Bytes) :
    Except MultisigDescriptorError ParsedMultisigDescriptor := do
  let (kind, threshold, participants) ← descriptorParts data
  let parsed ← parseDescriptorParticipants capacity kind threshold participants
  validateDescriptorThreshold parsed
  return parsed

/-! ## What an accepted descriptor holds -/

section slots
variable {α β : Type}

theorem nextSlots_forall₂ {R : α → β → Prop} {as : List α} {bs : List β} (h : List.Forall₂ R as bs) {a : α}
    {b : β} (hlast : R a b) : List.Forall₂ R (nextSlots as a) (nextSlots bs b) := by
  rw [nextSlots, nextSlots, h.length_eq]
  split
  · exact List.Forall₂.nil
  · exact List.rel_append h (List.Forall₂.cons hlast List.Forall₂.nil)

/-- By induction on the texts: each is read into the next slot. -/
theorem foldlM_readSlot {capacity : Nat} {read : Bytes → Except MultisigDescriptorError α}
    {texts kept : List Bytes} {slots slots' : List α}
    (h : List.Forall₂ (fun text slot => read text = .ok slot) kept slots)
    (hread : texts.foldlM (readSlot capacity read) slots = .ok slots') :
    List.Forall₂ (fun text slot => read text = .ok slot) (texts.foldl nextSlots kept) slots' := by
  induction texts generalizing kept slots with
  | nil =>
    cases hread
    exact h
  | cons text texts ih =>
    rw [List.foldlM_cons, bind_eq_ok] at hread
    obtain ⟨next, hstep, hrest⟩ := hread
    rw [readSlot] at hstep
    simp only [bind_eq_ok, rejectIf_eq_ok] at hstep
    obtain ⟨_, _, participant, hparticipant, hnext⟩ := hstep
    cases hnext
    exact ih (nextSlots_forall₂ h hparticipant) hrest

/-- Every slot holds what its text reads as. -/
theorem readParticipants_ok {capacity : Nat} {read : Bytes → Except MultisigDescriptorError α}
    {texts : List Bytes} {slots : List α} (h : readParticipants capacity read texts = .ok slots) :
    List.Forall₂ (fun text slot => read text = .ok slot) (texts.foldl nextSlots []) slots :=
  foldlM_readSlot List.Forall₂.nil h

/-- The pairwise search finds what is not distinct. -/
theorem hasDuplicate_eq_false [DecidableEq α] {items : List α} : hasDuplicate items = false ↔ items.Nodup := by
  induction items with
  | nil => simp [hasDuplicate]
  | cons left rest ih =>
    have hleft : (rest.any fun right => left == right) = false ↔ left ∉ rest := by
      rw [← Bool.not_eq_true, List.any_eq_true]
      simp
    rw [hasDuplicate, Bool.or_eq_false_iff, ih, List.nodup_cons, hleft]

end slots

theorem parseStaticParticipants_ok {capacity : Nat} {remaining : Bytes} {keys : List (FixedBytes 32)}
    (h : parseStaticParticipants capacity remaining = .ok keys) : keys.Nodup := by
  rw [parseStaticParticipants] at h
  simp only [bind_eq_ok, rejectIf_eq_ok] at h
  obtain ⟨_, _, _, hunique, heq⟩ := h
  cases heq
  rwa [Bool.not_eq_true, hasDuplicate_eq_false] at hunique

theorem parseHd44Participants_ok {capacity : Nat} {remaining : Bytes} {participants : List Participant}
    (h : parseHd44Participants capacity remaining = .ok participants) :
    (participants.map fun p => (p.publicKey, p.chainCode)).Nodup := by
  rw [parseHd44Participants] at h
  simp only [bind_eq_ok, rejectIf_eq_ok] at h
  obtain ⟨_, _, _, hunique, heq⟩ := h
  cases heq
  rwa [Bool.not_eq_true, hasDuplicate_eq_false] at hunique

/-- The slots in the order of their texts, which are all different. -/
theorem parseHd45Participants_ok {capacity : Nat} {remaining : Bytes} {participants : List Participant}
    (h : parseHd45Participants capacity remaining = .ok participants) :
    ∃ slots, readParticipants capacity readHd45 (parts remaining) = .ok slots ∧
      participants = (swapSort Prod.fst slots).map Prod.snd ∧ (slots.map Prod.fst).Nodup := by
  rw [parseHd45Participants] at h
  simp only [bind_eq_ok, rejectIf_eq_ok] at h
  obtain ⟨slots, hslots, _, hunique, heq⟩ := h
  cases heq
  refine ⟨slots, hslots, rfl, ?_⟩
  have hsorted : ((swapSort Prod.fst slots).map Prod.fst).Pairwise fun a b => a ≤ b :=
    List.pairwise_map.mpr (swapSort_sorted Prod.fst slots)
  rw [Bool.not_eq_true, equalNeighbours_eq_false hsorted] at hunique
  exact ((perm_swapSort Prod.fst slots).map Prod.fst).nodup_iff.mp hunique

/-- What was read of a key text is its payload. -/
theorem readHd45_ok {part : Bytes} {slot : Bytes × Participant} (h : readHd45 part = .ok slot) :
    ∃ payload, decodeAccountKeyText part = some payload ∧ slot.1 = part ∧
      slot.2.publicKey = field payload 45 33 (by decide) ∧
      slot.2.chainCode = field payload 13 32 (by decide) := by
  rw [readHd45] at h
  simp only [bind_eq_ok, rejectIf_eq_ok, okOr_eq_ok] at h
  obtain ⟨_, _, payload, hpayload, _, _, heq⟩ := h
  cases heq
  exact ⟨payload, hpayload, rfl, rfl, rfl⟩

/-- Every slot carries the text it was read from. -/
theorem slots_of_texts {texts : List Bytes} {slots : List (Bytes × Participant)}
    (h : List.Forall₂ (fun text slot => readHd45 text = .ok slot) texts slots) :
    slots.map Prod.fst = texts ∧ ∀ slot ∈ slots, readHd45 slot.1 = .ok slot := by
  induction h with
  | nil => exact ⟨rfl, fun slot hslot => by cases hslot⟩
  | cons hread _ ih =>
    obtain ⟨_, _, htext, _⟩ := readHd45_ok hread
    refine ⟨by rw [List.map_cons, htext, ih.1], ?_⟩
    intro slot hslot
    obtain rfl | hslot := List.mem_cons.mp hslot
    · rwa [htext]
    · exact ih.2 slot hslot

end KaspaPortal.Wallet.Multisig
