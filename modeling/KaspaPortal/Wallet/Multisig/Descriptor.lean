import KaspaPortal.Primitives.AddressCodec
import KaspaPortal.Wallet.Bip32.Child
import KaspaPortal.Wallet.Multisig.Grammar

/-!
# The host's descriptors

`src/wallet/multisig/descriptor.rs`, `redeem_script.rs` and `address_index.rs`. Errors of the grammar
are kept as they are, without the texts the source renders for them.

Which cosigner a device belongs to is not known to a descriptor.
-/
namespace KaspaPortal.Wallet.Multisig
open Lib Primitives Crypto.AntiKlepto Wallet.Bip32

/-- Most cosigners one `OP_CHECKMULTISIG` redeem script may name. -/
def MAX_MULTISIG_KEYS : Nat := MAX_SCRIPT_KEYS

structure Hd45AccountKey where
  publicKey : FixedBytes 33
  chainCode : FixedBytes 32
  parentFingerprint : FixedBytes 4
  deriving DecidableEq

inductive MultisigDescriptor where
  | static (threshold : UInt8) (publicKeys : List (FixedBytes 32))
  | hierarchicalDeterministic44 (threshold : UInt8) (accountKeys : List (FixedBytes 33 × FixedBytes 32))
  | hierarchicalDeterministic45 (threshold : UInt8) (accountKeys : List Hd45AccountKey)
  deriving DecidableEq

inductive DescriptorError where
  | grammar (error : MultisigDescriptorError)
  | invalidCompressedPubkey
  deriving DecidableEq, Repr

/-- `keys.sort()` -/
def sortKeys (keys : List (FixedBytes 32)) : List (FixedBytes 32) :=
  keys.mergeSort fun key key' => decide (key.val ≤ key'.val)

def buildRedeemScript (threshold : UInt8) (publicKeys : List (FixedBytes 32)) : Except String Bytes :=
  let m := threshold.toNat
  let n := publicKeys.length
  okOr s!"Invalid {m}-of-{n} multisig"
    (encodeMultisig threshold publicKeys (encodedLen (min publicKeys.length MAX_SCRIPT_KEYS)))

section curve
variable {Point : Type} [AddCommGroup Point] [Module (ZMod ORDER) Point] [DecidableEq Point]
  (curve : Curve ORDER Point) (hmacSha512 : Bytes → Bytes → FixedBytes 64)

/-- `PublicKey::from_sec1_bytes` -/
def publicKeyFromSec1 (bytes : FixedBytes 33) : Option { P : Point // P ≠ 0 } :=
  match curve.fromSec1Bytes bytes with
  | some P => if h : P ≠ 0 then some ⟨P, h⟩ else none
  | none => none

namespace MultisigDescriptor

def checkPublicKey (publicKey : FixedBytes 33) : Except DescriptorError Unit := do
  let _ ← okOr .invalidCompressedPubkey (publicKeyFromSec1 curve publicKey)

def fromCanonical (parsed : ParsedMultisigDescriptor) : Except DescriptorError MultisigDescriptor :=
  match parsed.kind with
  | .static => .ok (.static parsed.threshold parsed.staticPublicKeys)
  | .hd44 => do
    let accountKeys ← parsed.participants.mapM fun p => do
      checkPublicKey curve p.publicKey
      return (p.publicKey, p.chainCode)
    return .hierarchicalDeterministic44 parsed.threshold accountKeys
  | .hd45 => do
    let accountKeys ← parsed.participants.mapM fun p => do
      checkPublicKey curve p.publicKey
      return Hd45AccountKey.mk p.publicKey p.chainCode p.parentFingerprint
    return .hierarchicalDeterministic45 parsed.threshold accountKeys

def parse (value : Bytes) : Except DescriptorError MultisigDescriptor := do
  let parsed ← (parseMultisigDescriptor MAX_MULTISIG_KEYS value).mapError .grammar
  fromCanonical curve parsed

def threshold : MultisigDescriptor → UInt8
  | .static threshold _ => threshold
  | .hierarchicalDeterministic44 threshold _ => threshold
  | .hierarchicalDeterministic45 threshold _ => threshold

end MultisigDescriptor

def parent (publicKey : FixedBytes 33) (chainCode : FixedBytes 32) : Except String (ExtPubKey Point) := do
  let key ← okOr "Invalid compressed pubkey: crypto error" (publicKeyFromSec1 curve publicKey)
  return { key, chainCode, depth := 3 }

def derive44 (publicKey : FixedBytes 33) (chainCode : FixedBytes 32) (addressIndex : UInt32) :
    Except String (FixedBytes 32) := do
  let parent ← parent curve publicKey chainCode
  let chainKey ← parent.deriveChild curve hmacSha512 0
  let child ← chainKey.deriveChild curve hmacSha512 addressIndex
  return child.xOnlyBytes curve

def derived45Compressed (entry : Hd45AccountKey) (cosigner chain addressIndex : UInt32) :
    Except String (FixedBytes 33) := do
  let parent ← parent curve entry.publicKey entry.chainCode
  let family ← parent.deriveChild curve hmacSha512 cosigner
  let chainKey ← family.deriveChild curve hmacSha512 chain
  let child ← chainKey.deriveChild curve hmacSha512 addressIndex
  return curve.toSec1Bytes child.key.val

def derive45 (entry : Hd45AccountKey) (cosigner chain addressIndex : UInt32) :
    Except String (FixedBytes 32) := do
  let compressed ← derived45Compressed curve hmacSha512 entry cosigner chain addressIndex
  return xonly compressed

def MultisigDescriptor.publicKeysAt (self : MultisigDescriptor) (addressIndex cosigner chain : UInt32) :
    Except String (List (FixedBytes 32)) :=
  match self with
  | .static _ publicKeys => .ok (sortKeys publicKeys)
  | .hierarchicalDeterministic44 _ accountKeys => do
    let keys ← accountKeys.mapM fun (pk, cc) => derive44 curve hmacSha512 pk cc addressIndex
    return sortKeys keys
  | .hierarchicalDeterministic45 _ accountKeys => do
    rejectIf (1 < chain) "45' multisig chain must be 0 or 1"
    accountKeys.mapM fun entry => derive45 curve hmacSha512 entry cosigner chain addressIndex

/-- The redeem script of one address of the wallet. -/
def hostScript (descriptor : MultisigDescriptor) (addressIndex cosigner chain : UInt32) :
    Except String Bytes := do
  let keys ← descriptor.publicKeysAt curve hmacSha512 addressIndex cosigner chain
  buildRedeemScript descriptor.threshold keys

/-! ## The index of an address -/

/-- One member of the object that names the derivation of each key. -/
structure Bip32Derivation where
  publicKey : FixedBytes 33
  keyFingerprint : FixedBytes 4
  cosigner : UInt32
  chain : UInt32
  addressIndex : UInt32
  deriving DecidableEq

namespace MultisigDescriptor

def isHd : MultisigDescriptor → Bool
  | .static _ _ => false
  | _ => true

def isHd45 : MultisigDescriptor → Bool
  | .hierarchicalDeterministic45 _ _ => true
  | _ => false

def participantCount : MultisigDescriptor → Nat
  | .static _ publicKeys => publicKeys.length
  | .hierarchicalDeterministic44 _ accountKeys => accountKeys.length
  | .hierarchicalDeterministic45 _ accountKeys => accountKeys.length

/-- The members in no particular order; of two under one key the later stays. -/
def bip32Derivations (self : MultisigDescriptor) (addressIndex cosigner chain : UInt32) :
    Except String (List Bip32Derivation) :=
  match self with
  | .hierarchicalDeterministic45 _ accountKeys => do
    rejectIf (1 < chain) "45' multisig chain must be 0 or 1"
    accountKeys.foldlM (fun members entry => do
      let compressed ← derived45Compressed curve hmacSha512 entry cosigner chain addressIndex
      return members.filter (·.publicKey ≠ compressed) ++
        [⟨compressed, entry.parentFingerprint, cosigner, chain, addressIndex⟩]) []
  | _ => .ok []

end MultisigDescriptor

def MAX_DISCOVERY_INDEX : Nat := 100

structure ResolvedMultisigPath where
  index : UInt32
  cosigner : UInt32
  chain : UInt32
  deriving DecidableEq

variable (scriptHash : Bytes → FixedBytes 32)

def scriptToP2shAddress (redeemScript hrp : Bytes) : Option Bytes :=
  encodeAddressBytes (scriptHash redeemScript).val AddressType.p2sh.version hrp

/-- No address where the text of one cannot be written, which is nowhere. -/
def addressAt (descriptor : MultisigDescriptor) (hrp : Bytes) (cosigner chain index : UInt32) :
    Except String (Option Bytes) := do
  let script ← hostScript curve hmacSha512 descriptor index cosigner chain
  return scriptToP2shAddress scriptHash script hrp

/-- The numbers below `count`. -/
def below (count : Nat) : List UInt32 := (List.range count).map UInt32.ofNat

def scanFamily (descriptor : MultisigDescriptor) (sourceAddress hrp : Bytes) (cosigner chain : UInt32) :
    Except String (Option ResolvedMultisigPath) :=
  (below MAX_DISCOVERY_INDEX).findSomeM? fun index => do
    let address ← addressAt curve hmacSha512 scriptHash descriptor hrp cosigner chain index
    return if address = some sourceAddress then some ⟨index, cosigner, chain⟩ else none

def scanShape (descriptor : MultisigDescriptor) : Nat × Nat :=
  if descriptor.isHd45 then (descriptor.participantCount, 2) else (1, 1)

/-- The address is left out of the text of the error. -/
def scanHierarchicalPath (descriptor : MultisigDescriptor) (sourceAddress : Bytes) :
    Except String ResolvedMultisigPath := do
  let hrp ← (addressPrefix sourceAddress).mapError AddressError.message
  let (cosigners, chains) := scanShape descriptor
  let found ← (below chains).findSomeM? fun chain => (below cosigners).findSomeM? fun cosigner =>
    scanFamily curve hmacSha512 scriptHash descriptor sourceAddress hrp cosigner chain
  okOr "Could not find address index for multisig source address" found

/-- A static descriptor has one address, which is not compared with the source's. -/
def resolveAddressPath (descriptor : MultisigDescriptor) (sourceAddress : Bytes) (requestedIndex : UInt32) :
    Except String ResolvedMultisigPath :=
  if !descriptor.isHd then .ok ⟨requestedIndex, 0, 0⟩
  else scanHierarchicalPath curve hmacSha512 scriptHash descriptor sourceAddress

variable {curve hmacSha512 scriptHash} {descriptor : MultisigDescriptor} {sourceAddress : Bytes}
  {requestedIndex : UInt32} {path : ResolvedMultisigPath}

/-- The path found is one whose script has the address. -/
theorem resolveAddressPath_ok (hhd : descriptor.isHd = true)
    (h : resolveAddressPath curve hmacSha512 scriptHash descriptor sourceAddress requestedIndex = .ok path) :
    ∃ hrp script, addressPrefix sourceAddress = .ok hrp ∧
      hostScript curve hmacSha512 descriptor path.index path.cosigner path.chain = .ok script ∧
      scriptToP2shAddress scriptHash script hrp = some sourceAddress := by
  rw [resolveAddressPath, hhd] at h
  obtain ⟨hrp, hprefix, h⟩ := bind_eq_ok.mp h
  obtain ⟨found, hfound, h⟩ := bind_eq_ok.mp h
  rw [okOr_eq_ok] at h
  subst h
  obtain ⟨chain, -, hchain⟩ := findSomeM_eq_ok hfound
  obtain ⟨cosigner, -, hcosigner⟩ := findSomeM_eq_ok hchain
  obtain ⟨index, -, hindex⟩ := findSomeM_eq_ok hcosigner
  obtain ⟨address, haddress, hindex⟩ := bind_eq_ok.mp hindex
  obtain ⟨script, hscript, haddress⟩ := bind_eq_ok.mp haddress
  cases haddress
  have hpath := Except.ok.inj hindex
  split at hpath
  case isTrue hsame =>
    cases hpath
    exact ⟨hrp, script, mapError_eq_ok.mp hprefix, hscript, hsame⟩
  case isFalse => cases hpath

end curve

end KaspaPortal.Wallet.Multisig
