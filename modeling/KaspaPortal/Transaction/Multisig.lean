import KaspaPortal.Primitives.Address
import KaspaPortal.Transaction.Model
import KaspaPortal.Wallet.Bip32.Child
import KaspaPortal.Wallet.Multisig.Permuted

/-!
# The device's multisig wallets

`src/transaction/model/multisig.rs` and `multisig/derivation.rs`: the configuration a descriptor
names, the redeem script of its current address, and the check of an untrusted hint. The parallel
arrays are one list of five slots, and the script buffer is the bytes that are in use. The labels and
the store of the wallets are left out.
-/
namespace KaspaPortal.Transaction.Multisig
open Lib Primitives Crypto.AntiKlepto Transaction.Model Wallet.Bip32 Wallet.Multisig

/-- An empty slot. -/
def emptySlot : Participant where
  publicKey := zeros 33
  chainCode := zeros 32
  depth := 0
  parentFingerprint := zeros 4
  childNumber := zeros 4

structure MultisigConfig where
  m : UInt8
  n : UInt8
  /-- The slots, filled or not. -/
  cosigners : List Participant
  five : cosigners.length = Model.MAX_MULTISIG_KEYS
  addrIndex : UInt32
  v45 : Bool
  cosignerIndex : UInt8
  chain : UInt8
  /-- The first `script_len` bytes of the script. -/
  script : Bytes
  deriving DecidableEq

def validConfig (m n : UInt8) : Bool := m != 0 && n != 0 && m ≤ n && n.toNat ≤ Model.MAX_MULTISIG_KEYS

/-- The account key of cosigner `index`; an index past the slots panics in the source and is read as an
empty slot here. -/
def MultisigConfig.cosignerParts (self : MultisigConfig) (index : Nat) : Participant :=
  self.cosigners[index]?.getD emptySlot

def serializedParts (parts : Participant) : Bytes :=
  [parts.depth] ++ parts.parentFingerprint.val ++ parts.childNumber.val ++ parts.chainCode.val ++
    parts.publicKey.val

section curve
variable {Point : Type} [AddCommGroup Point] [Module (ZMod ORDER) Point] [DecidableEq Point]
  (curve : Curve ORDER Point) (hmacSha512 : Bytes → Bytes → FixedBytes 64)

/-- The child of one slot. -/
def deriveChildAt (v45 : Bool) (parts : Participant) (cosigner chain index : UInt32) :
    Option (FixedBytes 32) := do
  let parent : ExtendedPubKey := ⟨parts.publicKey, parts.chainCode, max parts.depth 3⟩
  let family ← if v45 then (deriveChildPub curve hmacSha512 parent cosigner).toOption else some parent
  let chainKey ← (deriveChildPub curve hmacSha512 family chain).toOption
  let address ← (deriveChildPub curve hmacSha512 chainKey index).toOption
  return address.xOnly

/-- The children of the slots in use; the others stay zero and nothing reads them. -/
def deriveChildrenAt (config : MultisigConfig) (cosigner chain index : UInt32) :
    Option (List (FixedBytes 32)) :=
  (List.range (min config.n.toNat Model.MAX_MULTISIG_KEYS)).mapM fun slot =>
    deriveChildAt curve hmacSha512 config.v45 (config.cosignerParts slot) cosigner chain index

def deriveMultisigChildren (config : MultisigConfig) : Option (List (FixedBytes 32)) :=
  let cosigner := if config.v45 then config.cosignerIndex.toUInt32 else 0
  let chain := if config.v45 then config.chain.toUInt32 else 0
  deriveChildrenAt curve hmacSha512 config cosigner chain config.addrIndex

def sortXonlyChildren (children : List (FixedBytes 32)) : List (FixedBytes 32) := swapSort Subtype.val children

def encodeRedeem (m n : UInt8) (children : List (FixedBytes 32)) : Option Bytes :=
  if validConfig m n = false then none else encodeMultisig m (children.take n.toNat) MAX_SCRIPT_SIZE

def writeMultisigScript (config : MultisigConfig) (children : List (FixedBytes 32)) : Nat × MultisigConfig :=
  match encodeRedeem config.m config.n children with
  | none => (0, config)
  | some script => (script.length, { config with script })

namespace MultisigConfig

/-- 45' preserves the order of the parents; legacy 44' sorts derived children. -/
def buildScript (self : MultisigConfig) : Nat × MultisigConfig :=
  if validConfig self.m self.n = false then (0, self)
  else
    match deriveMultisigChildren curve hmacSha512 self with
    | none => (0, self)
    | some children =>
      writeMultisigScript self (if self.v45 then children else sortXonlyChildren children)

/-- Hints are lookup indexes, not authorization. -/
def matchesAt (scriptHash : Bytes → FixedBytes 32) (self : MultisigConfig) (hint : Ms45Hint)
    (hash : FixedBytes 32) : Bool :=
  if !self.v45 || !hint.present || 1 < hint.chain || 0x80000000 ≤ hint.cosigner ||
      0x80000000 ≤ hint.index || !validConfig self.m self.n then false
  else
    match deriveChildrenAt curve hmacSha512 self hint.cosigner hint.chain hint.index with
    | none => false
    | some children =>
      match encodeRedeem self.m self.n children with
      | none => false
      | some redeem => scriptHash redeem == hash

end MultisigConfig

end curve

namespace MultisigConfig

/-- The slots in use in the order of their serialized entries, before the others. -/
def sortedSlots (self : MultisigConfig) : List Participant :=
  swapSort serializedParts (self.cosigners.take self.n.toNat) ++ self.cosigners.drop self.n.toNat

theorem perm_sortedSlots (self : MultisigConfig) : self.sortedSlots.Perm self.cosigners := by
  have hperm := (perm_swapSort serializedParts (self.cosigners.take self.n.toNat)).append_right
    (self.cosigners.drop self.n.toNat)
  rwa [List.take_append_drop] at hperm

/-- The 45' parents in the order of their serialized entries; legacy 44' is left as it is. -/
def sortCosigners (self : MultisigConfig) : MultisigConfig :=
  if self.v45 then
    { self with cosigners := self.sortedSlots, five := self.perm_sortedSlots.length_eq.trans self.five }
  else self

def containsCosigner (self : MultisigConfig) (parts : Participant) (except : Option Nat) : Bool :=
  (List.range Model.MAX_MULTISIG_KEYS).any fun slot =>
    decide (some slot ≠ except) && self.cosignerParts slot == parts

/-- Store one full cosigner entry. -/
def setCosigner (self : MultisigConfig) (index : Nat) (parts : Participant) : Bool × MultisigConfig :=
  if Model.MAX_MULTISIG_KEYS ≤ index || self.containsCosigner parts (some index) then (false, self)
  else
    (true, { self with
      cosigners := self.cosigners.set index parts
      five := List.length_set.trans self.five })

/-- The P2SH address of the script, and nothing without one. -/
def address (scriptHash : Bytes → FixedBytes 32) (self : MultisigConfig) (network : KaspaNetwork) :
    Option Bytes :=
  if self.script = [] then some []
  else encodeAddressForNetwork (scriptHash self.script).val .p2sh network

/-- The arrays of a parsed descriptor: its participants, and zeros in the slots behind them. -/
def padSlots (participants : List Participant) : List Participant :=
  (participants ++ List.replicate Model.MAX_MULTISIG_KEYS emptySlot).take Model.MAX_MULTISIG_KEYS

theorem length_padSlots (participants : List Participant) :
    (padSlots participants).length = Model.MAX_MULTISIG_KEYS := by
  rw [padSlots, List.length_take, List.length_append, List.length_replicate]
  exact Nat.min_eq_left (Nat.le_add_left _ _)

/-- The participants are in the first slots. -/
theorem take_padSlots {participants : List Participant} (h : participants.length ≤ Model.MAX_MULTISIG_KEYS) :
    (padSlots participants).take participants.length = participants := by
  rw [padSlots, List.take_take, Nat.min_eq_left h]
  exact List.take_left' rfl

/-- The wallet a parsed hierarchical descriptor names. -/
def fromDescriptor (parsed : ParsedMultisigDescriptor) : MultisigConfig where
  m := parsed.threshold
  n := parsed.participantCount
  cosigners := padSlots parsed.participants
  five := length_padSlots parsed.participants
  addrIndex := 0
  v45 := parsed.isHd45
  cosignerIndex := 0
  chain := 0
  script := []

end MultisigConfig

/-! ## Descriptor text -/

theorem length_serializedParts (parts : Participant) : (serializedParts parts).length = 74 := by
  simp only [serializedParts, List.length_append, List.length_singleton, parts.parentFingerprint.property,
    parts.childNumber.property, parts.chainCode.property, parts.publicKey.property]

/-- The version and the serialized entry. -/
def kpubPayload (parts : Participant) : FixedBytes Wallet.Key.ACCOUNT_KEY_PAYLOAD_LEN :=
  ⟨Wallet.Key.ACCOUNT_KEY_VERSION ++ serializedParts parts, by
    rw [List.length_append, length_serializedParts]
    rfl⟩

/-- Complete account-key metadata in canonical `kpub1:` text. -/
def serializeKpubParts (parts : Participant) : Option Bytes :=
  Wallet.Key.encodeAccountKeyText (kpubPayload parts)

def KPUB_MAX_LEN : Nat := Wallet.Key.ACCOUNT_KEY_TEXT_LEN

/-- Widest key of a descriptor: a 45' kpub, or a legacy public key and chain code in hex. -/
def DESCRIPTOR_KEY_MAX_LEN : Nat :=
  let legacy := 2 * (33 + 32)
  if legacy < KPUB_MAX_LEN then KPUB_MAX_LEN else legacy

/-- A one-digit threshold and a full key set. -/
def DESCRIPTOR_MAX_LEN : Nat :=
  (ascii "multi_hd45(").length + 1 + Model.MAX_MULTISIG_KEYS * (1 + DESCRIPTOR_KEY_MAX_LEN) + 1

namespace DescriptorText

/-- What has been written into a buffer of `room` bytes, with more bytes behind it. -/
def push (room : Nat) (text bytes : Bytes) : Option Bytes :=
  if text.length + bytes.length ≤ room then some (text ++ bytes) else none

def hex (room : Nat) (text bytes : Bytes) : Option Bytes :=
  if text.length + bytes.length * 2 ≤ room then some (text ++ encodeLowerHex bytes) else none

end DescriptorText

namespace MultisigConfig

/-- One turn of the loop of `write_descriptor`. -/
def writeCosigner (v45 : Bool) (room : Nat) (text : Bytes) (parts : Participant) : Option Bytes := do
  let text ← DescriptorText.push room text [0x2c]
  if v45 then
    let encoded ← serializeKpubParts parts
    DescriptorText.push room text encoded
  else
    let text ← DescriptorText.hex room text parts.publicKey.val
    DescriptorText.hex room text parts.chainCode.val

/-- The descriptor in a buffer of `room` bytes: kpubs for 45' wallets, public keys and chain codes in
hex otherwise. -/
def writeDescriptor (self : MultisigConfig) (room : Nat) : Option Bytes := do
  let head := if self.v45 then ascii "multi_hd45(" else ascii "multi_hd("
  let text ← DescriptorText.push room [] head
  let text ← DescriptorText.push room text [0x30 + self.m]
  let text ← ((List.range self.n.toNat).map self.cosignerParts).foldlM (writeCosigner self.v45 room) text
  DescriptorText.push room text (ascii ")")

def new : MultisigConfig where
  m := 0
  n := 0
  cosigners := List.replicate Model.MAX_MULTISIG_KEYS emptySlot
  five := List.length_replicate
  addrIndex := 0
  v45 := false
  cosignerIndex := 0
  chain := 0
  script := []

/-- An in-range slot without participant data. -/
def slotEmpty (self : MultisigConfig) (index : Nat) : Bool :=
  if Model.MAX_MULTISIG_KEYS ≤ index then false
  else (self.cosignerParts index).publicKey == emptySlot.publicKey

end MultisigConfig

/-! ## One order of the participants -/

/-- A kpub text is the version and the serialized entry of its participant. -/
theorem readHd45_serialized {part : Bytes} {slot : Bytes × Participant} (h : readHd45 part = .ok slot) :
    slot.1 = Wallet.Key.ACCOUNT_KEY_TEXT_PREFIX ++
      encodeLowerHex (Wallet.Key.ACCOUNT_KEY_VERSION ++ serializedParts slot.2) := by
  rw [readHd45] at h
  simp only [bind_eq_ok, rejectIf_eq_ok, okOr_eq_ok, ne_eq, not_not] at h
  obtain ⟨_, _, payload, hpayload, _, hdepth, heq⟩ := h
  cases heq
  obtain ⟨htext, hvalid⟩ := Wallet.Key.decodeAccountKeyText_ok hpayload
  have hentry : serializedParts (Participant.mk (Wallet.Key.field payload 45 33 (by decide))
      (Wallet.Key.field payload 13 32 (by decide)) (payload.val[4]?.getD 0)
      (Wallet.Key.field payload 5 4 (by decide)) (Wallet.Key.field payload 9 4 (by decide))) =
      [Wallet.Key.ACCOUNT_KEY_DEPTH] ++ cut payload.val 5 9 ++ cut payload.val 9 13 ++ cut payload.val 13 45 ++
        cut payload.val 45 78 := by
    rw [hdepth]
    rfl
  calc
    part = Wallet.Key.ACCOUNT_KEY_TEXT_PREFIX ++ encodeLowerHex payload.val := htext
    _ = _ := by rw [hentry, ← Wallet.Key.payload_fields hvalid]

theorem serializedParts_inj {parts parts' : Participant} (h : serializedParts parts = serializedParts parts') :
    parts = parts' := by
  obtain ⟨publicKey, chainCode, depth, parentFingerprint, childNumber⟩ := parts
  obtain ⟨publicKey', chainCode', depth', parentFingerprint', childNumber'⟩ := parts'
  rw [serializedParts, serializedParts] at h
  obtain ⟨h, hkey⟩ := List.append_inj' h (publicKey.property.trans publicKey'.property.symm)
  obtain ⟨h, hchain⟩ := List.append_inj' h (chainCode.property.trans chainCode'.property.symm)
  obtain ⟨h, hchild⟩ := List.append_inj' h (childNumber.property.trans childNumber'.property.symm)
  obtain ⟨h, hparent⟩ := List.append_inj' h (parentFingerprint.property.trans parentFingerprint'.property.symm)
  rw [Participant.mk.injEq]
  exact ⟨Subtype.ext hkey, Subtype.ext hchain, List.head_eq_of_cons_eq h, Subtype.ext hparent, Subtype.ext hchild⟩

/-- The slots of sorted texts are in the order of their serialized entries. -/
theorem serializedParts_sorted {slots : List (Bytes × Participant)}
    (hread : ∀ slot ∈ slots, readHd45 slot.1 = .ok slot) :
    ((swapSort Prod.fst slots).map Prod.snd).Pairwise fun a b => serializedParts a ≤ serializedParts b := by
  rw [List.pairwise_map]
  apply (swapSort_sorted Prod.fst slots).imp_of_mem
  intro slot slot' hmem hmem' hle
  have htext := readHd45_serialized (hread slot ((perm_swapSort Prod.fst slots).mem_iff.mp hmem))
  have htext' := readHd45_serialized (hread slot' ((perm_swapSort Prod.fst slots).mem_iff.mp hmem'))
  apply List.not_lt.mp
  intro hlt
  apply List.not_lt.mpr hle
  rw [htext, htext']
  apply List.append_left_lt
  apply encodeLowerHex_lt
  exact List.append_left_lt hlt

theorem MultisigConfig.sortCosigners_of_sorted {config : MultisigConfig}
    (h : config.v45 = true → config.sortedSlots = config.cosigners) : config.sortCosigners = config := by
  rw [MultisigConfig.sortCosigners]
  split
  case isFalse => rfl
  case isTrue hv45 => simp only [h hv45]

/-- The device's order of serialized entries is the order of the texts. -/
theorem sortCosigners_fromDescriptor {data : Bytes} {parsed : ParsedMultisigDescriptor}
    (h : parseMultisigDescriptor Model.MAX_MULTISIG_KEYS data = .ok parsed) :
    (MultisigConfig.fromDescriptor parsed).sortCosigners = MultisigConfig.fromDescriptor parsed := by
  apply MultisigConfig.sortCosigners_of_sorted
  intro hv45
  have hkind : parsed.kind = .hd45 := beq_iff_eq.mp hv45
  have hhierarchical : parsed.kind ≠ .static := by
    rw [hkind]
    decide
  obtain ⟨hroom, hcount, _⟩ := parseMultisigDescriptor_shape (by decide) hhierarchical h
  have hn : parsed.participantCount.toNat = parsed.participants.length := by
    rw [hcount]
    exact UInt8.toNat_ofNat_of_lt' (lt_of_le_of_lt hroom (by decide))
  have hsorted : parsed.participants.Pairwise fun a b => serializedParts a ≤ serializedParts b := by
    obtain ⟨kind, threshold, rest, _, hread, _⟩ := parseMultisigDescriptor_ok.mp h
    cases kind with
    | static =>
      obtain ⟨keys, _, heq⟩ := bind_eq_ok.mp hread
      cases heq
      cases hkind
    | hd44 =>
      obtain ⟨hd, _, heq⟩ := bind_eq_ok.mp hread
      cases heq
      cases hkind
    | hd45 =>
      obtain ⟨hd, hhd, heq⟩ := bind_eq_ok.mp hread
      cases heq
      obtain ⟨slots, hslots, rfl, _⟩ := parseHd45Participants_ok hhd
      exact serializedParts_sorted (slots_of_texts (readParticipants_ok hslots)).2
  have htake : (MultisigConfig.fromDescriptor parsed).cosigners.take parsed.participantCount.toNat =
      parsed.participants := by
    rw [hn]
    exact MultisigConfig.take_padSlots hroom
  calc
    (MultisigConfig.fromDescriptor parsed).sortedSlots
      = swapSort serializedParts parsed.participants ++
          (MultisigConfig.fromDescriptor parsed).cosigners.drop parsed.participantCount.toNat :=
        congrArg (swapSort serializedParts · ++ _) htake
    _ = parsed.participants ++
          (MultisigConfig.fromDescriptor parsed).cosigners.drop parsed.participantCount.toNat := by
        rw [swapSort_of_sorted serializedParts hsorted fun a _ b _ h => serializedParts_inj h]
    _ = (MultisigConfig.fromDescriptor parsed).cosigners := by
        nth_rewrite 1 [← htake]
        exact List.take_append_drop _ _

end KaspaPortal.Transaction.Multisig
