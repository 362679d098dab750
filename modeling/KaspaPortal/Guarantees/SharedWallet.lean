import KaspaPortal.Guarantees.Bip32Agreement
import KaspaPortal.Guarantees.DescriptorIdentity
import KaspaPortal.Transaction.Multisig
import KaspaPortal.Wallet.Multisig.Descriptor
import KaspaPortal.Wallet.Multisig.Permuted

/-!
# Host and device share one wallet

From the participants of a hierarchical descriptor there is one script for an address. The host
comes to it by its points, the device by compressed keys, and both whatever order the text has.

The curve is a parameter, and so is the hash of the script. What a cosigner's device displays
is not followed.
-/
set_option maxRecDepth 100000

namespace KaspaPortal.Guarantees
open Lib Primitives Crypto.AntiKlepto Transaction.Model Transaction.Multisig Wallet.Bip32 Wallet.Multisig

/-! ## One participant -/

section child
variable {Point : Type} [AddCommGroup Point] [Module (ZMod ORDER) Point] {curve : Curve ORDER Point}
  {hmacSha512 : Bytes → Bytes → FixedBytes 64}

/-- A key of the host and a key of the device at one node of the derivation. -/
def SameNode (curve : Curve ORDER Point) (host : ExtPubKey Point) (device : ExtendedPubKey) : Prop :=
  ∃ node, HostOf host node ∧ PublicOf curve device node

theorem SameNode.xOnly {host : ExtPubKey Point} {device : ExtendedPubKey} (h : SameNode curve host device) :
    host.xOnlyBytes curve = device.xOnly := by
  obtain ⟨node, hhost, hdevice⟩ := h
  rw [ExtPubKey.xOnlyBytes, ExtendedPubKey.xOnly, hdevice.pubkey, hhost.point]

variable [DecidableEq Point]

theorem SameNode.child {host : ExtPubKey Point} {device : ExtendedPubKey} (h : SameNode curve host device)
    {index : UInt32} (hindex : index < 0x80000000) :
    Agree (SameNode curve) (host.deriveChild curve hmacSha512 index)
      (deriveChildPub curve hmacSha512 device index) := by
  obtain ⟨node, hhost, hdevice⟩ := h
  have hnormal := UInt32.not_le.mpr hindex
  apply (hhost.child hnormal).through (hdevice.child hnormal)
  intro host device node hhost hdevice
  exact ⟨node, hhost, hdevice⟩

/-- The first byte of a compressed key. The compact keys that points are read from too would be hashed
differently by host and device, and no descriptor has one. -/
def Compressed (publicKey : FixedBytes 33) : Prop :=
  publicKey.val.head? = some 0x02 ∨ publicKey.val.head? = some 0x03

/-- The account key the host and the device start from. -/
theorem parent_sameNode {publicKey : FixedBytes 33} {key : { P : Point // P ≠ 0 }} (chainCode : FixedBytes 32)
    (depth : UInt8) (htag : Compressed publicKey) (h : publicKeyFromSec1 curve publicKey = some key) :
    parent curve publicKey chainCode = .ok ⟨key, chainCode, 3⟩ ∧
      SameNode curve ⟨key, chainCode, 3⟩ ⟨publicKey, chainCode, depth⟩ := by
  refine ⟨by rw [parent, h]; rfl, (key.val, chainCode), ⟨rfl, rfl⟩, ?_⟩
  rw [publicKeyFromSec1] at h
  split at h
  case h_2 => cases h
  case h_1 P hP =>
    split at h
    case isFalse => cases h
    case isTrue =>
      cases h
      obtain ⟨hne, hbytes⟩ := Crypto.Adaptor.toSec1Bytes_of_fromSec1Bytes curve htag hP
      exact ⟨hne, hbytes.symm, rfl⟩

variable {p : Participant} {key : { P : Point // P ≠ 0 }} {cosigner chain index : UInt32}

theorem derive44_eq (htag : Compressed p.publicKey) (h : publicKeyFromSec1 curve p.publicKey = some key)
    (hindex : index < 0x80000000) :
    (derive44 curve hmacSha512 p.publicKey p.chainCode index).toOption =
      deriveChildAt curve hmacSha512 false p cosigner 0 index := by
  obtain ⟨hparent, hsame⟩ := parent_sameNode p.chainCode (max p.depth 3) htag h
  have hagree : Agree (fun a b => a = b) (derive44 curve hmacSha512 p.publicKey p.chainCode index)
      (do
        let chainKey ← deriveChildPub curve hmacSha512 ⟨p.publicKey, p.chainCode, max p.depth 3⟩ 0
        let address ← deriveChildPub curve hmacSha512 chainKey index
        return address.xOnly) := by
    rw [derive44, hparent]
    apply (hsame.child (by decide)).bind
    intro host device hsame
    apply (hsame.child hindex).bind
    intro host device hsame
    exact Agree.ok hsame.xOnly
  rw [hagree.toOption_eq, toOption_bind, deriveChildAt]
  apply Option.bind_congr
  intro chainKey _
  rw [toOption_bind]
  rfl

theorem derive45_eq (htag : Compressed p.publicKey) (h : publicKeyFromSec1 curve p.publicKey = some key)
    (hcosigner : cosigner < 0x80000000) (hchain : chain < 0x80000000) (hindex : index < 0x80000000) :
    (derive45 curve hmacSha512 ⟨p.publicKey, p.chainCode, p.parentFingerprint⟩ cosigner chain index).toOption =
      deriveChildAt curve hmacSha512 true p cosigner chain index := by
  obtain ⟨hparent, hsame⟩ := parent_sameNode p.chainCode (max p.depth 3) htag h
  have hagree : Agree (fun a b => a = b)
      (derive45 curve hmacSha512 ⟨p.publicKey, p.chainCode, p.parentFingerprint⟩ cosigner chain index)
      (do
        let family ← deriveChildPub curve hmacSha512 ⟨p.publicKey, p.chainCode, max p.depth 3⟩ cosigner
        let chainKey ← deriveChildPub curve hmacSha512 family chain
        let address ← deriveChildPub curve hmacSha512 chainKey index
        return address.xOnly) := by
    rw [derive45, derived45Compressed, hparent]
    simp only [bind_assoc]
    apply (hsame.child hcosigner).bind
    intro host device hsame
    apply (hsame.child hchain).bind
    intro host device hsame
    apply (hsame.child hindex).bind
    intro host device hsame
    exact Agree.ok hsame.xOnly
  rw [hagree.toOption_eq, toOption_bind, deriveChildAt]
  apply Option.bind_congr
  intro family _
  rw [toOption_bind]
  apply Option.bind_congr
  intro chainKey _
  rw [toOption_bind]
  rfl

end child

/-! ## The script of an address -/

section script
variable {Point : Type} [AddCommGroup Point] [Module (ZMod ORDER) Point] [DecidableEq Point]
  (curve : Curve ORDER Point) (hmacSha512 : Bytes → Bytes → FixedBytes 64)

/-- The children of the participants, which HD44 sorts. -/
def walletKeys (parsed : ParsedMultisigDescriptor) (cosigner chain index : UInt32) :
    Option (List (FixedBytes 32)) := do
  let children ← parsed.participants.mapM fun p =>
    deriveChildAt curve hmacSha512 parsed.isHd45 p cosigner chain index
  return if parsed.isHd45 then children else sortXonlyChildren children

/-- The script of an address, from the participants alone. -/
def walletScript (parsed : ParsedMultisigDescriptor) (cosigner chain index : UInt32) : Option Bytes := do
  let keys ← walletKeys curve hmacSha512 parsed cosigner chain index
  encodeMultisig parsed.threshold keys MAX_SCRIPT_SIZE

/-- What the device builds for an address of the wallet. -/
def deviceScript (parsed : ParsedMultisigDescriptor) (cosigner chain : UInt8) (index : UInt32) : Option Bytes :=
  let config : MultisigConfig :=
    { MultisigConfig.fromDescriptor parsed with cosignerIndex := cosigner, chain, addrIndex := index }
  let (length, built) := config.buildScript curve hmacSha512
  if length = 0 then none else some built.script

variable {curve hmacSha512}

theorem sortKeys_eq (keys : List (FixedBytes 32)) : sortKeys keys = sortXonlyChildren keys := by
  have hle : (sortKeys keys).Pairwise fun a b => decide (a.val ≤ b.val) = true := by
    apply List.pairwise_mergeSort
    · intro a b c hab hbc
      rw [decide_eq_true_eq] at hab hbc ⊢
      exact List.le_trans hab hbc
    · intro a b
      rw [Bool.or_eq_true, decide_eq_true_eq, decide_eq_true_eq]
      exact List.le_total a.val b.val
  have hsorted := hle.imp fun {a b} h => of_decide_eq_true h
  apply List.Perm.eq_of_pairwise _ hsorted (swapSort_sorted Subtype.val keys)
  · exact (List.mergeSort_perm keys _).trans (perm_swapSort Subtype.val keys).symm
  · intro a b _ _ hab hba
    exact Subtype.ext (List.le_antisymm hab hba)

/-- A permutation of the participants of a legacy wallet leaves its sorted keys. -/
theorem walletKeys_perm {parsed parsed' : ParsedMultisigDescriptor} {cosigner chain index : UInt32}
    (hkind : parsed.isHd45 = false) (hkind' : parsed'.isHd45 = false)
    (hperm : parsed.participants.Perm parsed'.participants) :
    walletKeys curve hmacSha512 parsed cosigner chain index =
      walletKeys curve hmacSha512 parsed' cosigner chain index := by
  rw [walletKeys, walletKeys, hkind, hkind']
  cases hchildren : parsed.participants.mapM fun p =>
      deriveChildAt curve hmacSha512 false p cosigner chain index with
  | none =>
    cases hchildren' : parsed'.participants.mapM fun p =>
        deriveChildAt curve hmacSha512 false p cosigner chain index with
    | none => rfl
    | some children' =>
      obtain ⟨children, hsome, _⟩ := mapM_perm hperm.symm hchildren'
      rw [hchildren] at hsome
      cases hsome
  | some children =>
    obtain ⟨children', hchildren', hpermuted⟩ := mapM_perm hperm hchildren
    rw [hchildren']
    have hsort : sortXonlyChildren children = sortXonlyChildren children' :=
      swapSort_perm Subtype.val hpermuted fun a _ b _ h => Subtype.ext h
    exact congrArg some hsort

theorem checkPublicKey_ok {publicKey : FixedBytes 33} :
    MultisigDescriptor.checkPublicKey curve publicKey = .ok () ↔
      ∃ key, publicKeyFromSec1 curve publicKey = some key := by
  rw [MultisigDescriptor.checkPublicKey, bind_eq_ok]
  simp only [okOr_eq_ok]
  constructor
  · intro h
    obtain ⟨key, hkey, _⟩ := h
    exact ⟨key, hkey⟩
  · intro h
    obtain ⟨key, hkey⟩ := h
    exact ⟨key, hkey, rfl⟩

/-- The host takes a descriptor whose public keys are all points. -/
theorem fromCanonical_ok {parsed : ParsedMultisigDescriptor} {descriptor : MultisigDescriptor}
    (hkind : parsed.kind ≠ .static) :
    MultisigDescriptor.fromCanonical curve parsed = .ok descriptor ↔
      (∀ p ∈ parsed.participants, ∃ key, publicKeyFromSec1 curve p.publicKey = some key) ∧
        descriptor = if parsed.isHd45 then
            .hierarchicalDeterministic45 parsed.threshold
              (parsed.participants.map fun p => ⟨p.publicKey, p.chainCode, p.parentFingerprint⟩)
          else .hierarchicalDeterministic44 parsed.threshold
            (parsed.participants.map fun p => (p.publicKey, p.chainCode)) := by
  obtain ⟨threshold, count, kind, keys, participants⟩ := parsed
  simp only [← checkPublicKey_ok]
  cases kind with
  | static => exact absurd rfl hkind
  | hd44 =>
    rw [MultisigDescriptor.fromCanonical, bind_eq_ok]
    simp only [mapM_check]
    constructor
    · intro h
      obtain ⟨_, ⟨hall, rfl⟩, heq⟩ := h
      cases heq
      exact ⟨hall, rfl⟩
    · intro h
      obtain ⟨hall, rfl⟩ := h
      exact ⟨_, ⟨hall, rfl⟩, rfl⟩
  | hd45 =>
    rw [MultisigDescriptor.fromCanonical, bind_eq_ok]
    simp only [mapM_check]
    constructor
    · intro h
      obtain ⟨_, ⟨hall, rfl⟩, heq⟩ := h
      cases heq
      exact ⟨hall, rfl⟩
    · intro h
      obtain ⟨hall, rfl⟩ := h
      exact ⟨_, ⟨hall, rfl⟩, rfl⟩

/-- The keys of the host, once it has checked the participants. -/
theorem publicKeysAt_eq {parsed : ParsedMultisigDescriptor} {descriptor : MultisigDescriptor}
    (hkind : parsed.kind ≠ .static) (htags : ∀ p ∈ parsed.participants, Compressed p.publicKey)
    (h : MultisigDescriptor.fromCanonical curve parsed = .ok descriptor) {cosigner chain index : UInt32}
    (hcosigner : cosigner < 0x80000000) (hchain : chain ≤ 1) (hindex : index < 0x80000000) :
    descriptor.threshold = parsed.threshold ∧
      (descriptor.publicKeysAt curve hmacSha512 index cosigner chain).toOption =
        walletKeys curve hmacSha512 parsed cosigner (if parsed.isHd45 then chain else 0) index := by
  obtain ⟨hkeys, rfl⟩ := (fromCanonical_ok hkind).mp h
  rw [walletKeys]
  cases hd45 : parsed.isHd45 with
  | false =>
    refine ⟨rfl, ?_⟩
    have hmap : ((parsed.participants.map fun p => (p.publicKey, p.chainCode)).mapM fun key =>
        derive44 curve hmacSha512 key.1 key.2 index).toOption = parsed.participants.mapM fun p =>
          deriveChildAt curve hmacSha512 false p cosigner 0 index := by
      rw [toOption_mapM, List.mapM_map]
      apply mapM_congr
      intro p hp
      obtain ⟨key, hkey⟩ := hkeys p hp
      exact derive44_eq (htags p hp) hkey hindex
    simp only [Bool.false_eq_true, if_false]
    rw [MultisigDescriptor.publicKeysAt, toOption_bind, hmap]
    apply Option.bind_congr
    intro children _
    rw [sortKeys_eq]
    rfl
  | true =>
    refine ⟨rfl, ?_⟩
    have hchain' : chain < 0x80000000 := UInt32.lt_of_le_of_lt hchain (by decide)
    have hmap : ((parsed.participants.map fun p =>
        (⟨p.publicKey, p.chainCode, p.parentFingerprint⟩ : Hd45AccountKey)).mapM fun entry =>
          derive45 curve hmacSha512 entry cosigner chain index).toOption = parsed.participants.mapM fun p =>
            deriveChildAt curve hmacSha512 true p cosigner chain index := by
      rw [toOption_mapM, List.mapM_map]
      apply mapM_congr
      intro p hp
      obtain ⟨key, hkey⟩ := hkeys p hp
      exact derive45_eq (htags p hp) hkey hcosigner hchain' hindex
    simp only [if_true]
    rw [MultisigDescriptor.publicKeysAt, rejectIf_neg (UInt32.not_lt.mpr hchain)]
    change Except.toOption (List.mapM _ _) = _
    rw [hmap]
    exact (Option.bind_fun_some _).symm

/-- Both capacities hold a script of at most five keys. -/
theorem encodeMultisig_capacity {threshold : UInt8} {keys : List (FixedBytes 32)} {capacity : Nat}
    (h : encodedLen keys.length ≤ capacity) :
    encodeMultisig threshold keys capacity = encodeMultisig threshold keys (encodedLen keys.length) := by
  rw [encodeMultisig, encodeMultisig]
  simp only [h, le_refl, true_and]

theorem encodeMultisig_ne_nil {threshold : UInt8} {keys : List (FixedBytes 32)} {capacity : Nat} {script : Bytes}
    (h : encodeMultisig threshold keys capacity = some script) : script.length ≠ 0 := by
  rw [encodeMultisig] at h
  split at h
  case isTrue => cases h
  case isFalse =>
    dsimp only at h
    split at h
    case isFalse => cases h
    case isTrue =>
      cases h
      simp

/-- The keys are as many as the participants. -/
theorem walletKeys_length {parsed : ParsedMultisigDescriptor} {cosigner chain index : UInt32}
    {keys : List (FixedBytes 32)} (h : walletKeys curve hmacSha512 parsed cosigner chain index = some keys) :
    keys.length = parsed.participants.length := by
  rw [walletKeys] at h
  obtain ⟨children, hchildren, heq⟩ := Option.bind_eq_some_iff.mp h
  have hlength := (mapM_eq_some.mp hchildren).length_eq
  cases heq
  cases parsed.isHd45 with
  | true => exact hlength.symm
  | false => exact ((perm_swapSort Subtype.val children).length_eq).trans hlength.symm

/-- An accepted hierarchical descriptor with room on the device. -/
structure OnDevice (parsed : ParsedMultisigDescriptor) : Prop where
  kind : parsed.kind ≠ .static
  compressed : ∀ p ∈ parsed.participants, Compressed p.publicKey
  room : parsed.participants.length ≤ Transaction.Model.MAX_MULTISIG_KEYS
  count : parsed.participantCount = UInt8.ofNat parsed.participants.length
  range : 2 ≤ parsed.participantCount ∧ 1 ≤ parsed.threshold ∧ parsed.threshold ≤ parsed.participantCount

variable {parsed : ParsedMultisigDescriptor}

theorem OnDevice.count_toNat (h : OnDevice parsed) :
    parsed.participantCount.toNat = parsed.participants.length := by
  rw [h.count]
  apply UInt8.toNat_ofNat_of_lt'
  exact lt_of_le_of_lt h.room (by decide)

theorem OnDevice.valid (h : OnDevice parsed) : validConfig parsed.threshold parsed.participantCount = true := by
  have hroom := h.room
  obtain ⟨hcount, hzero, hthreshold⟩ := h.range
  rw [validConfig, h.count_toNat]
  rw [UInt8.le_iff_toNat_le] at hcount hzero
  simp only [Bool.and_eq_true, bne_iff_ne, decide_eq_true_eq, ne_eq]
  refine ⟨⟨⟨?_, ?_⟩, hthreshold⟩, hroom⟩
  · intro h
    rw [h] at hzero
    exact absurd hzero (by decide)
  · intro h
    rw [h] at hcount
    exact absurd hcount (by decide)

variable (hmacSha512) in
/-- The host's script is the wallet's. -/
theorem hostScript_eq {descriptor : MultisigDescriptor} (hdevice : OnDevice parsed)
    (h : MultisigDescriptor.fromCanonical curve parsed = .ok descriptor) {cosigner chain index : UInt32}
    (hcosigner : cosigner < 0x80000000) (hchain : chain ≤ 1) (hindex : index < 0x80000000) :
    (hostScript curve hmacSha512 descriptor index cosigner chain).toOption =
      walletScript curve hmacSha512 parsed cosigner (if parsed.isHd45 then chain else 0) index := by
  obtain ⟨hthreshold, hkeys⟩ : _ ∧ (descriptor.publicKeysAt curve hmacSha512 index cosigner chain).toOption = _ :=
    publicKeysAt_eq hdevice.kind hdevice.compressed h hcosigner hchain hindex
  rw [hostScript, toOption_bind, hkeys, walletScript]
  apply Option.bind_congr
  intro keys hsome
  have hlength := walletKeys_length hsome
  have hroom : keys.length ≤ 5 := hlength ▸ hdevice.room
  have hfits : encodedLen keys.length ≤ MAX_SCRIPT_SIZE := by
    rw [encodedLen, MAX_SCRIPT_SIZE, KEY_RECORD_LEN]
    omega
  have hmin : min keys.length MAX_SCRIPT_KEYS = keys.length := Nat.min_eq_left (hroom.trans (by decide))
  rw [buildRedeemScript, hthreshold, hmin, encodeMultisig_capacity hfits]
  cases encodeMultisig parsed.threshold keys (encodedLen keys.length) with
  | none => rfl
  | some script => rfl

/-- The children the device derives are those of the participants. -/
theorem deriveChildrenAt_eq (hdevice : OnDevice parsed) (config : MultisigConfig) (cosigner chain index : UInt32)
    (hcosigners : config.cosigners = MultisigConfig.padSlots parsed.participants) (hn : config.n = parsed.participantCount) :
    deriveChildrenAt curve hmacSha512 config cosigner chain index =
      parsed.participants.mapM fun p => deriveChildAt curve hmacSha512 config.v45 p cosigner chain index := by
  have hparts : (List.range parsed.participants.length).map config.cosignerParts = parsed.participants := by
    rw [slots_eq_take config hdevice.room, hcosigners, MultisigConfig.take_padSlots hdevice.room]
  rw [deriveChildrenAt, hn, hdevice.count_toNat, Nat.min_eq_left hdevice.room]
  nth_rewrite 2 [← hparts]
  rw [List.mapM_map]
  rfl

/-- The script of as many children as there are participants. -/
theorem encodeRedeem_eq (hdevice : OnDevice parsed) {children : List (FixedBytes 32)}
    (hlength : children.length = parsed.participants.length) :
    encodeRedeem parsed.threshold parsed.participantCount children =
      encodeMultisig parsed.threshold children MAX_SCRIPT_SIZE := by
  rw [encodeRedeem, hdevice.valid, if_neg Bool.false_ne_true.symm, hdevice.count_toNat, ← hlength, List.take_length]

/-- A script is written when it can be encoded. -/
theorem writeMultisigScript_script (hdevice : OnDevice parsed) {config : MultisigConfig}
    (hm : config.m = parsed.threshold) (hn : config.n = parsed.participantCount) {keys : List (FixedBytes 32)}
    (hlength : keys.length = parsed.participants.length) :
    (if (writeMultisigScript config keys).1 = 0 then none
      else some (writeMultisigScript config keys).2.script) =
      encodeMultisig parsed.threshold keys MAX_SCRIPT_SIZE := by
  rw [writeMultisigScript, hm, hn, encodeRedeem_eq hdevice hlength]
  cases hscript : encodeMultisig parsed.threshold keys MAX_SCRIPT_SIZE with
  | none => rfl
  | some script => exact if_neg (encodeMultisig_ne_nil hscript)

theorem deviceScript_eq (hdevice : OnDevice parsed) (cosigner chain : UInt8) (index : UInt32) :
    deviceScript curve hmacSha512 parsed cosigner chain index =
      walletScript curve hmacSha512 parsed (if parsed.isHd45 then cosigner.toUInt32 else 0)
        (if parsed.isHd45 then chain.toUInt32 else 0) index := by
  have hchildren : deriveMultisigChildren curve hmacSha512 { MultisigConfig.fromDescriptor parsed with
      cosignerIndex := cosigner, chain, addrIndex := index } = parsed.participants.mapM fun p =>
        deriveChildAt curve hmacSha512 parsed.isHd45 p (if parsed.isHd45 then cosigner.toUInt32 else 0)
          (if parsed.isHd45 then chain.toUInt32 else 0) index :=
    deriveChildrenAt_eq hdevice _ _ _ _ rfl rfl
  rw [deviceScript, MultisigConfig.buildScript, hchildren, walletScript, walletKeys,
    if_neg (by rw [Bool.not_eq_false]; exact hdevice.valid)]
  cases hmapped : parsed.participants.mapM fun p =>
      deriveChildAt curve hmacSha512 parsed.isHd45 p (if parsed.isHd45 then cosigner.toUInt32 else 0)
        (if parsed.isHd45 then chain.toUInt32 else 0) index with
  | none => rfl
  | some children =>
    have hlength : (if parsed.isHd45 then children else sortXonlyChildren children).length =
        parsed.participants.length := by
      rw [(mapM_eq_some.mp hmapped).length_eq]
      cases parsed.isHd45 with
      | true => rfl
      | false => exact (perm_swapSort Subtype.val children).length_eq
    exact writeMultisigScript_script hdevice rfl rfl hlength

/-- The device recognizes the script of a hint that names it. -/
theorem matchesAt_of_script (hdevice : OnDevice parsed) (hd45 : parsed.isHd45 = true)
    (scriptHash : Bytes → FixedBytes 32) {cosigner chain index : UInt32} (hcosigner : cosigner < 0x80000000)
    (hchain : chain ≤ 1) (hindex : index < 0x80000000) {script : Bytes}
    (h : walletScript curve hmacSha512 parsed cosigner chain index = some script) :
    (MultisigConfig.fromDescriptor parsed).matchesAt curve hmacSha512 scriptHash ⟨true, cosigner, chain, index⟩
      (scriptHash script) = true := by
  have hchildren : deriveChildrenAt curve hmacSha512 (MultisigConfig.fromDescriptor parsed) cosigner chain index =
      parsed.participants.mapM fun p => deriveChildAt curve hmacSha512 parsed.isHd45 p cosigner chain index :=
    deriveChildrenAt_eq hdevice _ _ _ _ rfl rfl
  rw [walletScript, walletKeys, hd45] at h
  obtain ⟨keys, hkeys, hscript⟩ := Option.bind_eq_some_iff.mp h
  obtain ⟨children, hmapped, heq⟩ := Option.bind_eq_some_iff.mp hkeys
  cases heq
  have hlength := (mapM_eq_some.mp hmapped).length_eq.symm
  have hguard : (!(MultisigConfig.fromDescriptor parsed).v45 || !true || decide (1 < chain) ||
      decide (0x80000000 ≤ cosigner) || decide (0x80000000 ≤ index) ||
      !validConfig parsed.threshold parsed.participantCount) = false := by
    have hv45 : (MultisigConfig.fromDescriptor parsed).v45 = true := hd45
    simp [hv45, hdevice.valid, UInt32.not_lt.mpr hchain, UInt32.not_le.mpr hcosigner, UInt32.not_le.mpr hindex]
  rw [MultisigConfig.matchesAt]
  change (if _ = true then false else _) = true
  have hredeem : encodeRedeem (MultisigConfig.fromDescriptor parsed).m
      (MultisigConfig.fromDescriptor parsed).n children = some script :=
    (encodeRedeem_eq hdevice hlength).trans hscript
  rw [if_neg (by rw [Bool.not_eq_true]; exact hguard), hchildren, hd45, hmapped]
  simp only [hredeem]
  exact beq_self_eq_true _

variable (hmacSha512) in
/-- Host and device build one script. -/
theorem host_eq_device {descriptor : MultisigDescriptor} (hdevice : OnDevice parsed)
    (h : MultisigDescriptor.fromCanonical curve parsed = .ok descriptor) (cosigner : UInt8) {chain : UInt8}
    {index : UInt32}
    (hchain : chain ≤ 1) (hindex : index < 0x80000000) :
    deviceScript curve hmacSha512 parsed cosigner chain index =
      (hostScript curve hmacSha512 descriptor index cosigner.toUInt32 chain.toUInt32).toOption := by
  have hcosigner : cosigner.toUInt32 < 0x80000000 := by
    rw [UInt32.lt_iff_toNat_lt, UInt8.toNat_toUInt32]
    exact lt_trans cosigner.toNat_lt (by decide)
  have hchain' : chain.toUInt32 ≤ 1 := by
    rw [UInt32.le_iff_toNat_le, UInt8.toNat_toUInt32]
    exact UInt8.le_iff_toNat_le.mp hchain
  rw [hostScript_eq hmacSha512 hdevice h hcosigner hchain' hindex, deviceScript_eq hdevice]
  cases hd45 : parsed.isHd45 with
  | true => rfl
  | false =>
    -- Legacy children do not look at the family.
    rw [walletScript, walletScript, walletKeys, walletKeys, hd45]
    rfl

/-- The participants in another order make the same script. -/
theorem walletScript_perm {parsed' : ParsedMultisigDescriptor} {cosigner chain index : UInt32}
    (hkind : parsed'.kind = parsed.kind) (hthreshold : parsed'.threshold = parsed.threshold)
    (hperm : parsed.participants.Perm parsed'.participants)
    (hd45 : parsed.kind = .hd45 → parsed'.participants = parsed.participants) :
    walletScript curve hmacSha512 parsed' cosigner chain index =
      walletScript curve hmacSha512 parsed cosigner chain index := by
  rw [walletScript, walletScript, hthreshold]
  congr 1
  cases hv45 : parsed.isHd45 with
  | false =>
    have hv45' : parsed'.isHd45 = false := by rwa [ParsedMultisigDescriptor.isHd45, hkind]
    exact (walletKeys_perm hv45 hv45' hperm).symm
  | true =>
    have hparticipants := hd45 (beq_iff_eq.mp hv45)
    rw [walletKeys, walletKeys, hparticipants, ParsedMultisigDescriptor.isHd45, hkind]
    rfl

end script

/-- A descriptor that both accept names one wallet: whatever the order of its participants, host and
device build the same script for every address, and the device recognizes it by its hint. Sorting the
parents once more by their serialized entries changes nothing. -/
theorem shared_wallet {Point : Type} [AddCommGroup Point] [Module (ZMod ORDER) Point] [DecidableEq Point]
    (curve : Curve ORDER Point) (hmacSha512 : Bytes → Bytes → FixedBytes 64)
    (scriptHash : Bytes → FixedBytes 32) (data data' : Bytes) (descriptor : MultisigDescriptor)
    (parsed : ParsedMultisigDescriptor) (hhost : MultisigDescriptor.parse curve data = .ok descriptor)
    (hdevice : parseMultisigDescriptor Transaction.Model.MAX_MULTISIG_KEYS data = .ok parsed)
    (hkind : parsed.kind ≠ .static) (hperm : PermutedParticipants data data') :
    ∃ descriptor' parsed', MultisigDescriptor.parse curve data' = .ok descriptor' ∧
      parseMultisigDescriptor Transaction.Model.MAX_MULTISIG_KEYS data' = .ok parsed' ∧
      (MultisigConfig.fromDescriptor parsed).sortCosigners = MultisigConfig.fromDescriptor parsed ∧
      (∀ (cosigner chain : UInt8) (index : UInt32), chain ≤ 1 → index < 0x80000000 →
        let script := hostScript curve hmacSha512 descriptor index cosigner.toUInt32 chain.toUInt32
        deviceScript curve hmacSha512 parsed cosigner chain index = script.toOption ∧
          deviceScript curve hmacSha512 parsed' cosigner chain index = script.toOption ∧
          (hostScript curve hmacSha512 descriptor' index cosigner.toUInt32 chain.toUInt32).toOption =
            script.toOption) ∧
      (parsed.isHd45 = true → ∀ cosigner chain index : UInt32, cosigner < 0x80000000 → chain ≤ 1 →
        index < 0x80000000 → ∀ script, hostScript curve hmacSha512 descriptor index cosigner chain = .ok script →
          hostScript curve hmacSha512 descriptor' index cosigner chain = .ok script ∧
          (MultisigConfig.fromDescriptor parsed).matchesAt curve hmacSha512 scriptHash
            ⟨true, cosigner, chain, index⟩ (scriptHash script) = true ∧
          (MultisigConfig.fromDescriptor parsed').matchesAt curve hmacSha512 scriptHash
            ⟨true, cosigner, chain, index⟩ (scriptHash script) = true) := by
  have hfits : Transaction.Model.MAX_MULTISIG_KEYS ≤ 255 := by decide
  have hwider : Transaction.Model.MAX_MULTISIG_KEYS ≤ Wallet.Multisig.MAX_MULTISIG_KEYS := by decide
  have hwide : Wallet.Multisig.MAX_MULTISIG_KEYS ≤ 255 := by decide
  obtain ⟨wide, hwideParse, hcanonical⟩ := bind_eq_ok.mp hhost
  -- host and device parse with different key limits, and the wider one accepts what the narrower
  -- does
  rw [mapError_eq_ok, parseMultisigDescriptor_mono hwider hwide hkind hdevice] at hwideParse
  cases hwideParse
  obtain ⟨parsed', hparse', hkind', hthreshold, hcount, hparticipants, hd45⟩ :=
    parseMultisigDescriptor_perm hfits hkind hdevice hperm
  have hstatic' : parsed'.kind ≠ .static := hkind' ▸ hkind
  have honDevice : OnDevice parsed := by
    obtain ⟨hroom, hlength, hrange⟩ := parseMultisigDescriptor_shape hfits hkind hdevice
    exact ⟨hkind, compressed_participants hkind hdevice, hroom, hlength, hrange⟩
  have honDevice' : OnDevice parsed' := by
    obtain ⟨hroom, hlength, hrange⟩ := parseMultisigDescriptor_shape hfits hstatic' hparse'
    exact ⟨hstatic', compressed_participants hstatic' hparse', hroom, hlength, hrange⟩
  obtain ⟨hkeys, _⟩ := (fromCanonical_ok hkind).mp hcanonical
  obtain ⟨descriptor', hcanonical'⟩ : ∃ descriptor', MultisigDescriptor.fromCanonical curve parsed' =
      .ok descriptor' :=
    ⟨_, (fromCanonical_ok hstatic').mpr ⟨fun p hp => hkeys p (hparticipants.mem_iff.mpr hp), rfl⟩⟩
  refine ⟨descriptor', parsed', ?_, hparse', sortCosigners_fromDescriptor hdevice, ?_, ?_⟩
  · exact bind_eq_ok.mpr ⟨parsed', mapError_eq_ok.mpr (parseMultisigDescriptor_mono hwider hwide hstatic' hparse'),
      hcanonical'⟩
  · intro cosigner chain index hchain hindex
    have hscript : deviceScript curve hmacSha512 parsed' cosigner chain index =
        deviceScript curve hmacSha512 parsed cosigner chain index := by
      rw [deviceScript_eq honDevice', deviceScript_eq honDevice, ParsedMultisigDescriptor.isHd45, hkind']
      exact walletScript_perm hkind' hthreshold hparticipants hd45
    have hhostScript := host_eq_device hmacSha512 honDevice hcanonical cosigner hchain hindex
    have hhostScript' := host_eq_device hmacSha512 honDevice' hcanonical' cosigner hchain hindex
    exact ⟨hhostScript, hscript.trans hhostScript, hhostScript'.symm.trans (hscript.trans hhostScript)⟩
  · intro hv45 cosigner chain index hcosigner hchain hindex script hscript
    have hv45' : parsed'.isHd45 = true := by rwa [ParsedMultisigDescriptor.isHd45, hkind']
    have hwallet := hostScript_eq hmacSha512 honDevice hcanonical hcosigner hchain hindex
    have hwallet' := hostScript_eq hmacSha512 honDevice' hcanonical' hcosigner hchain hindex
    rw [hscript, hv45] at hwallet
    rw [hv45', walletScript_perm hkind' hthreshold hparticipants hd45] at hwallet'
    -- permuted participants give one wallet script, so both hosts build the same bytes
    have hboth := hwallet'.trans hwallet.symm
    refine ⟨?_, ?_, ?_⟩
    · cases hresult : hostScript curve hmacSha512 descriptor' index cosigner chain with
      | error e =>
        rw [hresult] at hboth
        cases hboth
      | ok script' =>
        rw [hresult] at hboth
        cases hboth
        rfl
    · exact matchesAt_of_script honDevice hv45 scriptHash hcosigner hchain hindex hwallet.symm
    · apply matchesAt_of_script honDevice' hv45' scriptHash hcosigner hchain hindex
      rw [walletScript_perm hkind' hthreshold hparticipants hd45]
      exact hwallet.symm

/-! ## A wallet on the cyclic group -/

/-- An account key whose point is a small scalar. -/
def smallAccount (scalar : UInt8) : Bytes :=
  kpubText [0, 0, 0, scalar] (List.replicate 32 scalar ++ [0x02] ++ List.replicate 31 0 ++ [scalar])

def smallParticipants (first second : UInt8) : Bytes := smallAccount first ++ [0x2c] ++ smallAccount second

def smallDescriptor (first second : UInt8) : Bytes :=
  Lib.ascii "multi_hd45(2," ++ smallParticipants first second ++ [0x29]

theorem smallDescriptor_parts :
    descriptorParts (smallDescriptor 5 6) = .ok (.hd45, 2, smallParticipants 5 6) ∧
      descriptorParts (smallDescriptor 6 5) = .ok (.hd45, 2, smallParticipants 6 5) ∧
      parts (smallParticipants 5 6) = [smallAccount 5, smallAccount 6] ∧
      parts (smallParticipants 6 5) = [smallAccount 6, smallAccount 5] := by
  decide

/-- Both orders of two cosigners. -/
theorem shared_wallet_cyclic :
    ∃ parsed parsed', parseMultisigDescriptor 5 (smallDescriptor 5 6) = .ok parsed ∧
      parseMultisigDescriptor 5 (smallDescriptor 6 5) = .ok parsed' ∧
      deviceScript cyclicCurve sampleHmac parsed' 1 0 7 = deviceScript cyclicCurve sampleHmac parsed 1 0 7 := by
  obtain ⟨hdata, hdata', hparts, hparts'⟩ := smallDescriptor_parts
  have hperm : PermutedParticipants (smallDescriptor 5 6) (smallDescriptor 6 5) := by
    refine ⟨_, _, _, _, hdata, hdata', ?_⟩
    rw [hparts, hparts']
    exact List.Perm.swap _ _ _
  have hhost : (MultisigDescriptor.parse cyclicCurve (smallDescriptor 5 6)).isOk = true := by decide
  have hdevice : (parseMultisigDescriptor 5 (smallDescriptor 5 6)).isOk = true := by decide
  have hkind : (parseMultisigDescriptor 5 (smallDescriptor 5 6)).toOption.map (·.kind) = some .hd45 := by
    decide
  obtain ⟨descriptor, hdescriptor⟩ := exists_ok hhost
  obtain ⟨parsed, hparsed⟩ := exists_ok hdevice
  rw [hparsed] at hkind
  have hhierarchical : parsed.kind ≠ .static := by
    have hd45 : parsed.kind = .hd45 := Option.some.inj hkind
    rw [hd45]
    decide
  obtain ⟨_, parsed', _, hparsed', _, hscripts, _⟩ := shared_wallet cyclicCurve sampleHmac
    (fun _ => Transaction.Model.zeros 32) _ _ descriptor parsed hdescriptor hparsed hhierarchical hperm
  obtain ⟨hscript, hscript', _⟩ := hscripts 1 0 7 (by decide) (by decide)
  exact ⟨parsed, parsed', hparsed, hparsed', hscript'.trans hscript.symm⟩

end KaspaPortal.Guarantees
