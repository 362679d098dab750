import Mathlib.Data.Nat.Bitwise
import KaspaPortal.Crypto.Adaptor
import KaspaPortal.Lib.Simulation
import KaspaPortal.Wallet.Bip32.Scalar

/-!
# Child keys

`src/wallet/derivation/bip32/child.rs` with its extended keys, and the host's own public
derivation in `src/wallet/account/derivation.rs`, over any group of the order of the curve and
any function in the place of HMAC-SHA512.

Fingerprints and the texts of extended keys are left out. Depths saturate and are compared by
nothing.
-/
namespace KaspaPortal.Wallet.Bip32
open Lib Crypto.AntiKlepto

def HARDENED_BIT : UInt32 := 0x80000000

/-- What a derivation fails with. -/
inductive Bip32Error where
  | invalidKey | invalidChainCode | curveError | emptyPath
  deriving DecidableEq, Repr

/-- A private key with its chain code. The depth saturates and is not checked. -/
structure ExtendedPrivKey where
  key : FixedBytes 32
  chainCode : FixedBytes 32
  depth : UInt8
  deriving DecidableEq

structure ExtendedPubKey where
  pubkey : FixedBytes 33
  chainCode : FixedBytes 32
  depth : UInt8
  deriving DecidableEq

def ExtendedPubKey.xOnly (self : ExtendedPubKey) : FixedBytes 32 := xonly self.pubkey

/-- `u32::to_be_bytes` -/
def toBeBytes (index : UInt32) : Bytes := (leBytes 4 index.toNat).reverse

def saturatingSucc (depth : UInt8) : UInt8 := if depth = 255 then 255 else depth + 1

theorem length_take_digest (digest : FixedBytes 64) : (digest.val.take 32).length = 32 := by
  simp [digest.property]

theorem length_drop_digest (digest : FixedBytes 64) : (digest.val.drop 32).length = 32 := by
  simp [digest.property]

/-- The left half of the digest is added to the key, the right half is the next chain code. -/
def digestLeft (digest : FixedBytes 64) : FixedBytes 32 :=
  ⟨digest.val.take 32, length_take_digest digest⟩

def digestRight (digest : FixedBytes 64) : FixedBytes 32 :=
  ⟨digest.val.drop 32, length_drop_digest digest⟩

/-- `SecretKey::from_slice` -/
def secretKeyFromSlice (bytes : FixedBytes 32) : Option (ZMod ORDER) :=
  (scalarFromCanonical ORDER bytes).filter (· ≠ 0)

section curve
variable {Point : Type} [AddCommGroup Point] [Module (ZMod ORDER) Point] (curve : Curve ORDER Point)
  (hmacSha512 : Bytes → Bytes → FixedBytes 64)

namespace ExtendedPrivKey

def publicKeyCompressed (self : ExtendedPrivKey) : Except Bip32Error (FixedBytes 33) := do
  let sk ← okOr .curveError (secretKeyFromSlice self.key)
  return curve.toSec1Bytes (sk • curve.generator)

/-- Chain code and depth are kept. -/
def toXpub (self : ExtendedPrivKey) : Except Bip32Error ExtendedPubKey := do
  let pubkey ← self.publicKeyCompressed curve
  return { pubkey, chainCode := self.chainCode, depth := self.depth }

end ExtendedPrivKey

/-- A hardened child hashes the private key, any other child the public one. -/
def deriveChild (parent : ExtendedPrivKey) (index : UInt32) : Except Bip32Error ExtendedPrivKey := do
  let isHardened := index &&& HARDENED_BIT ≠ 0
  let head ← if isHardened then pure (0x00 :: parent.key.val)
    else do
      let pubkey ← parent.publicKeyCompressed curve
      pure pubkey.val
  let i := hmacSha512 parent.chainCode.val (head ++ toBeBytes index)
  let il := digestLeft i
  rejectIf (isLessThanOrder il = false) Bip32Error.invalidKey
  let childKey := scalarAddModN il parent.key
  rejectIf (isZero childKey = true) Bip32Error.invalidKey
  return { key := childKey, chainCode := digestRight i, depth := saturatingSucc parent.depth }

/-- A digest whose left half is not below the order has no child. -/
def scalarAndChainCode (digest : FixedBytes 64) : Except Bip32Error (ZMod ORDER × FixedBytes 32) := do
  let il := digestLeft digest
  rejectIf (isLessThanOrder il = false) Bip32Error.invalidKey
  let scalar ← okOr .invalidKey (scalarFromCanonical ORDER il)
  return (scalar, digestRight digest)

def childPublicScalar (parent : ExtendedPubKey) (index : UInt32) :
    Except Bip32Error (ZMod ORDER × FixedBytes 32) :=
  scalarAndChainCode (hmacSha512 parent.chainCode.val (parent.pubkey.val ++ toBeBytes index))

/-- The key must be the encoding of a point. -/
def decodeParentPoint (parent : ExtendedPubKey) : Except Bip32Error Point :=
  okOr .curveError (curve.fromSec1Bytes parent.pubkey)

section points
variable [DecidableEq Point]

/-- The point at infinity is no key. -/
def validateChildPoint (childPoint : Point) : Except Bip32Error Unit :=
  rejectIf (childPoint = 0) Bip32Error.invalidKey

/-- Hardened indices cannot be derived from a public key. -/
def deriveChildPub (parent : ExtendedPubKey) (index : UInt32) : Except Bip32Error ExtendedPubKey := do
  rejectIf (index &&& HARDENED_BIT ≠ 0) Bip32Error.invalidKey
  let (ilScalar, childChainCode) ← childPublicScalar hmacSha512 parent index
  let parentPoint ← decodeParentPoint curve parent
  let childPoint := ilScalar • curve.generator + parentPoint
  validateChildPoint childPoint
  return {
    pubkey := curve.toSec1Bytes childPoint
    chainCode := childChainCode
    depth := saturatingSucc parent.depth }

end points

end curve

/-! ## The host -/

/-- A public key is a point other than zero. -/
structure ExtPubKey (Point : Type) [Zero Point] where
  key : { P : Point // P ≠ 0 }
  chainCode : FixedBytes 32
  depth : UInt8

namespace ExtPubKey

variable {Point : Type} [AddCommGroup Point] [Module (ZMod ORDER) Point] (curve : Curve ORDER Point)
  (hmacSha512 : Bytes → Bytes → FixedBytes 64)

def xOnlyBytes (self : ExtPubKey Point) : FixedBytes 32 := xonly (curve.toSec1Bytes self.key.val)

/-- The HMAC takes a key of any length, so it is always made. The depth wraps at 256, as it does
in builds without overflow checks. -/
def deriveChild [DecidableEq Point] (self : ExtPubKey Point) (index : UInt32) :
    Except String (ExtPubKey Point) := do
  rejectIf (0x80000000 ≤ index) "Cannot derive hardened child from public key"
  let parentBytes := curve.toSec1Bytes self.key.val
  let result := hmacSha512 self.chainCode.val (parentBytes.val ++ toBeBytes index)
  let tweak ← okOr "Invalid tweak: crypto error" (scalarFromCanonical ORDER (digestLeft result))
  let childPoint := self.key.val + tweak • curve.generator
  if h : childPoint ≠ 0 then
    return { key := ⟨childPoint, h⟩, chainCode := digestRight result, depth := self.depth + 1 }
  else throw "Invalid child key: crypto error"

end ExtPubKey

/-! ## Scalars and their bytes -/

/-- Big-endian bytes read from the other end. -/
theorem leNat_reverse (bytes : Bytes) : leNat bytes.reverse = number 8 bytes := by
  induction bytes using List.reverseRecOn with
  | nil => rfl
  | append_singleton bytes byte ih =>
    rw [List.reverse_append, List.reverse_singleton, List.singleton_append, leNat, ih, number_concat]
    omega

/-- The scalar of a key. -/
def scalarOf (bytes : FixedBytes 32) : ZMod ORDER := (number 8 bytes.val : Nat)

/-- A scalar is accepted below the order. -/
theorem scalarFromCanonical_eq (bytes : FixedBytes 32) :
    scalarFromCanonical ORDER bytes =
      if number 8 bytes.val < ORDER then some (scalarOf bytes) else none := by
  rw [scalarFromCanonical, reduce, leNat_reverse, scalarOf]

theorem scalarOf_eq_zero {bytes : FixedBytes 32} (h : number 8 bytes.val < ORDER) :
    scalarOf bytes = 0 ↔ number 8 bytes.val = 0 := by
  rw [scalarOf, ZMod.natCast_eq_zero_iff]
  constructor
  · exact fun hdvd => Nat.eq_zero_of_dvd_of_lt hdvd h
  · exact fun hzero => hzero ▸ Nat.dvd_zero _

/-- A secret key is one that is not zero either. -/
theorem secretKeyFromSlice_of_valid {bytes : FixedBytes 32} (hpos : 0 < number 8 bytes.val)
    (hlt : number 8 bytes.val < ORDER) : secretKeyFromSlice bytes = some (scalarOf bytes) := by
  have hne : scalarOf bytes ≠ 0 := fun hzero => hpos.ne' ((scalarOf_eq_zero hlt).mp hzero)
  rw [secretKeyFromSlice, scalarFromCanonical_eq, if_pos hlt]
  simp [hne]

/-- The reduced sum of bytes is the sum of scalars. -/
theorem scalarOf_add {left right : FixedBytes 32} (hleft : number 8 left.val < ORDER)
    (hright : number 8 right.val < ORDER) :
    scalarOf (scalarAddModN left right) = scalarOf left + scalarOf right := by
  rw [scalarOf, scalarAddModN_number hleft hright, ZMod.natCast_mod, Nat.cast_add]
  rfl

/-- The top bit of an index is the hardened one. -/
theorem hardened_iff (index : UInt32) : index &&& HARDENED_BIT ≠ 0 ↔ 0x80000000 ≤ index := by
  have hlt := index.toNat_lt
  have hbit : (index &&& HARDENED_BIT).toNat = (index.toNat.testBit 31).toNat * 2 ^ 31 := by
    rw [UInt32.toNat_and]
    exact Nat.and_two_pow index.toNat 31
  have htest : index.toNat.testBit 31 = decide (2 ^ 31 ≤ index.toNat) := by
    rw [Nat.testBit_eq_decide_div_mod_eq]
    apply decide_eq_decide.mpr
    omega
  have hle : (0x80000000 ≤ index) ↔ 2 ^ 31 ≤ index.toNat := UInt32.le_iff_toNat_le
  rw [ne_eq, ← UInt32.toNat_inj, hbit, htest, hle]
  simp

/-! ## The derivation on points -/

section points
variable {Point : Type} [AddCommGroup Point] [Module (ZMod ORDER) Point] (curve : Curve ORDER Point)
  (hmacSha512 : Bytes → Bytes → FixedBytes 64)

/-- What the derivation of a child is for: a point moved by the digest of itself, its chain code
and the index, when the digest is a scalar and the sum is a point. -/
def childNode [DecidableEq Point] (parent : Point × FixedBytes 32) (index : UInt32) :
    Except Unit (Point × FixedBytes 32) :=
  let digest := hmacSha512 parent.2.val ((curve.toSec1Bytes parent.1).val ++ toBeBytes index)
  let child := scalarOf (digestLeft digest) • curve.generator + parent.1
  if number 8 (digestLeft digest).val < ORDER ∧ child ≠ 0 then .ok (child, digestRight digest) else .error ()

/-- A valid secret key and the point it multiplies the generator to. -/
structure PrivateOf (key : ExtendedPrivKey) (node : Point × FixedBytes 32) : Prop where
  pos : 0 < number 8 key.key.val
  lt : number 8 key.key.val < ORDER
  point : node.1 = scalarOf key.key • curve.generator
  chainCode : node.2 = key.chainCode

/-- The public key stands for a point of the group and its chain code. -/
structure PublicOf (key : ExtendedPubKey) (node : Point × FixedBytes 32) : Prop where
  ne_zero : node.1 ≠ 0
  pubkey : key.pubkey = curve.toSec1Bytes node.1
  chainCode : node.2 = key.chainCode

/-- The same of the host's representation. -/
structure HostOf (key : ExtPubKey Point) (node : Point × FixedBytes 32) : Prop where
  point : node.1 = key.key.val
  chainCode : node.2 = key.chainCode

variable {curve hmacSha512}

theorem PrivateOf.publicKeyCompressed {key : ExtendedPrivKey} {node : Point × FixedBytes 32}
    (h : PrivateOf curve key node) : key.publicKeyCompressed curve = .ok (curve.toSec1Bytes node.1) := by
  rw [ExtendedPrivKey.publicKeyCompressed, secretKeyFromSlice_of_valid h.pos h.lt, h.point]
  rfl

/-- The public key of a private one stands for the same node. -/
theorem PrivateOf.toXpub {key : ExtendedPrivKey} {node : Point × FixedBytes 32}
    (h : PrivateOf curve key node) :
    key.toXpub curve = .ok ⟨curve.toSec1Bytes node.1, key.chainCode, key.depth⟩ := by
  rw [ExtendedPrivKey.toXpub, h.publicKeyCompressed]
  rfl

/-- The generator has the order of the group of scalars. -/
def HasOrder (curve : Curve ORDER Point) : Prop := ∀ k : ZMod ORDER, k • curve.generator = 0 → k = 0

variable [DecidableEq Point]

/-- The child of a private key stands for the child of its node, or fails where that does. -/
theorem PrivateOf.child (horder : HasOrder curve) {key : ExtendedPrivKey} {node : Point × FixedBytes 32}
    (h : PrivateOf curve key node) {index : UInt32} (hindex : ¬0x80000000 ≤ index) :
    Agree (PrivateOf curve) (deriveChild curve hmacSha512 key index) (childNode curve hmacSha512 node index) := by
  have hhead := h.publicKeyCompressed
  rw [deriveChild, childNode, h.chainCode, hhead]
  simp only [hardened_iff, if_neg hindex]
  change Agree _ (rejectIf _ _ >>= _) _
  generalize hmacSha512 key.chainCode.val
    ((curve.toSec1Bytes node.1).val ++ toBeBytes index) = digest
  by_cases hlt : number 8 (digestLeft digest).val < ORDER
  case neg =>
    have hreject : isLessThanOrder (digestLeft digest) = false := by
      rwa [← Bool.not_eq_true, isLessThanOrder_iff]
    rw [rejectIf_pos hreject, if_neg fun hboth => hlt hboth.1]
    exact Agree.error
  case pos =>
    have haccept : ¬isLessThanOrder (digestLeft digest) = false := by
      rwa [Bool.not_eq_false, isLessThanOrder_iff]
    have hnumber := scalarAddModN_number hlt h.lt
    have hsum := scalarOf_add hlt h.lt
    have hbound : number 8 (scalarAddModN (digestLeft digest) key.key).val < ORDER := by
      rw [hnumber]
      exact Nat.mod_lt _ (by decide)
    have hpoint : scalarOf (digestLeft digest) • curve.generator + node.1 =
        scalarOf (scalarAddModN (digestLeft digest) key.key) • curve.generator := by
      rw [h.point, hsum, add_smul]
    rw [rejectIf_neg haccept, hpoint]
    by_cases hzero : isZero (scalarAddModN (digestLeft digest) key.key) = true
    case pos =>
      have hscalar := (scalarOf_eq_zero hbound).mpr ((isZero_iff _).mp hzero)
      rw [if_neg fun hboth => hboth.2 (by rw [hscalar, zero_smul])]
      change Agree _ (rejectIf _ _ >>= _) _
      rw [rejectIf_pos hzero]
      exact Agree.error
    case neg =>
      have hne := mt (isZero_iff _).mpr hzero
      have hscalar := mt (scalarOf_eq_zero hbound).mp hne
      rw [if_pos ⟨hlt, fun hpointZero => hscalar (horder _ hpointZero)⟩]
      change Agree _ (rejectIf _ _ >>= _) _
      rw [rejectIf_neg hzero]
      exact Agree.ok ⟨Nat.pos_of_ne_zero hne, hbound, rfl, rfl⟩

/-- The same on the public side, for an index that is not hardened. -/
theorem PublicOf.child {key : ExtendedPubKey} {node : Point × FixedBytes 32}
    (h : PublicOf curve key node) {index : UInt32} (hindex : ¬0x80000000 ≤ index) :
    Agree (PublicOf curve) (deriveChildPub curve hmacSha512 key index)
      (childNode curve hmacSha512 node index) := by
  have hdecode : decodeParentPoint curve key = .ok node.1 := by
    rw [decodeParentPoint, h.pubkey, Crypto.Adaptor.fromSec1Bytes_toSec1Bytes curve h.ne_zero]
    rfl
  have hnormal : ¬index &&& HARDENED_BIT ≠ 0 := mt (hardened_iff index).mp hindex
  rw [deriveChildPub, childNode, childPublicScalar, scalarAndChainCode, hdecode, rejectIf_neg hnormal,
    h.chainCode, h.pubkey]
  generalize hmacSha512 key.chainCode.val
    ((curve.toSec1Bytes node.1).val ++ toBeBytes index) = digest
  by_cases hlt : number 8 (digestLeft digest).val < ORDER
  case neg =>
    have hreject : isLessThanOrder (digestLeft digest) = false := by
      rwa [← Bool.not_eq_true, isLessThanOrder_iff]
    simp only [rejectIf_pos hreject]
    rw [if_neg fun hboth => hlt hboth.1]
    exact Agree.error
  case pos =>
    have haccept : ¬isLessThanOrder (digestLeft digest) = false := by
      rwa [Bool.not_eq_false, isLessThanOrder_iff]
    simp only [rejectIf_neg haccept, scalarFromCanonical_eq, if_pos hlt]
    change Agree _ (rejectIf _ _ >>= _) _
    by_cases hzero : scalarOf (digestLeft digest) • curve.generator + node.1 = 0
    case pos =>
      rw [rejectIf_pos hzero, if_neg fun hboth => hboth.2 hzero]
      exact Agree.error
    case neg =>
      rw [rejectIf_neg hzero, if_pos ⟨hlt, hzero⟩]
      exact Agree.ok ⟨hzero, rfl, rfl⟩

/-- And on the host. -/
theorem HostOf.child {key : ExtPubKey Point} {node : Point × FixedBytes 32}
    (h : HostOf key node) {index : UInt32} (hindex : ¬0x80000000 ≤ index) :
    Agree HostOf (key.deriveChild curve hmacSha512 index) (childNode curve hmacSha512 node index) := by
  rw [ExtPubKey.deriveChild, childNode, rejectIf_neg hindex, h.chainCode, h.point]
  change Agree HostOf (okOr _ (scalarFromCanonical ORDER _) >>= _) _
  generalize hmacSha512 key.chainCode.val
    ((curve.toSec1Bytes key.key.val).val ++ toBeBytes index) = digest
  rw [scalarFromCanonical_eq, add_comm _ key.key.val]
  by_cases hlt : number 8 (digestLeft digest).val < ORDER
  case neg =>
    rw [if_neg hlt, if_neg fun hboth => hlt hboth.1]
    exact Agree.error
  case pos =>
    rw [if_pos hlt]
    change Agree _ (if h : _ then _ else _) _
    by_cases hzero : key.key.val + scalarOf (digestLeft digest) • curve.generator ≠ 0
    case neg =>
      rw [dif_neg hzero, if_neg fun hboth => hzero hboth.2]
      exact Agree.error
    case pos =>
      rw [dif_pos hzero, if_pos ⟨hlt, hzero⟩]
      exact Agree.ok ⟨rfl, rfl⟩

end points

end KaspaPortal.Wallet.Bip32
