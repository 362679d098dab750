import KaspaPortal.Wallet.Bip32.Child

/-!
# Private and public derivation agree

Along a path of normal indices the private keys, the public keys of the device and those of the
host follow one derivation on points.

Hardened steps exist only on the private side and are not part of the comparison. HMAC-SHA512
and the group are parameters.
-/
set_option maxRecDepth 100000

namespace KaspaPortal.Guarantees
open Lib Crypto.AntiKlepto Wallet.Bip32

section derivation
variable {Point : Type} [AddCommGroup Point] [Module (ZMod ORDER) Point] [DecidableEq Point]
  {curve : Curve ORDER Point} (hmacSha512 : Bytes → Bytes → FixedBytes 64) {path : List UInt32}
  {node : Point × FixedBytes 32}

theorem private_path (horder : HasOrder curve) (hpath : ∀ index ∈ path, index < 0x80000000)
    {key : ExtendedPrivKey} (h : PrivateOf curve key node) :
    Agree (PrivateOf curve) (path.foldlM (deriveChild curve hmacSha512) key)
      (path.foldlM (childNode curve hmacSha512) node) := by
  apply Agree.foldlM _ h
  intro key node index hindex h
  exact h.child horder (UInt32.not_le.mpr (hpath index hindex))

theorem public_path (hpath : ∀ index ∈ path, index < 0x80000000) {key : ExtendedPubKey}
    (h : PublicOf curve key node) :
    Agree (PublicOf curve) (path.foldlM (deriveChildPub curve hmacSha512) key)
      (path.foldlM (childNode curve hmacSha512) node) := by
  apply Agree.foldlM _ h
  intro key node index hindex h
  exact h.child (UInt32.not_le.mpr (hpath index hindex))

theorem host_path (hpath : ∀ index ∈ path, index < 0x80000000) {key : ExtPubKey Point}
    (h : HostOf key node) :
    Agree HostOf (path.foldlM (ExtPubKey.deriveChild curve hmacSha512) key)
      (path.foldlM (childNode curve hmacSha512) node) := by
  apply Agree.foldlM _ h
  intro key node index hindex h
  exact h.child (UInt32.not_le.mpr (hpath index hindex))

end derivation

/-- The reduced addition of bytes is the addition of numbers, and every path leads all three
derivations to one public key and chain code, or none of them. -/
theorem bip32_agreement {Point : Type} [AddCommGroup Point] [Module (ZMod ORDER) Point]
    [DecidableEq Point] (curve : Curve ORDER Point) (horder : HasOrder curve)
    (hmacSha512 : Bytes → Bytes → FixedBytes 64) :
    (∀ a b : FixedBytes 32, number 8 a.val < ORDER → number 8 b.val < ORDER →
      number 8 (scalarAddModN a b).val = (number 8 a.val + number 8 b.val) % ORDER) ∧
    ∀ (parent : ExtendedPrivKey) (path : List UInt32), 0 < number 8 parent.key.val →
      number 8 parent.key.val < ORDER → (∀ index ∈ path, index < 0x80000000) →
      ∃ xpub, parent.toXpub curve = .ok xpub ∧
        Agree (fun child pub => 0 < number 8 child.key.val ∧ number 8 child.key.val < ORDER ∧
            child.publicKeyCompressed curve = .ok pub.pubkey ∧ child.chainCode = pub.chainCode)
          (path.foldlM (deriveChild curve hmacSha512) parent)
          (path.foldlM (deriveChildPub curve hmacSha512) xpub) ∧
        ∀ host : ExtPubKey Point, curve.toSec1Bytes host.key.val = xpub.pubkey →
          host.chainCode = xpub.chainCode →
          Agree (fun child hostChild =>
              child.publicKeyCompressed curve = .ok (curve.toSec1Bytes hostChild.key.val) ∧
                child.chainCode = hostChild.chainCode)
            (path.foldlM (deriveChild curve hmacSha512) parent)
            (path.foldlM (ExtPubKey.deriveChild curve hmacSha512) host) := by
  refine ⟨fun a b ha hb => scalarAddModN_number ha hb, ?_⟩
  intro parent path hpos hlt hpath
  have hne : scalarOf parent.key • curve.generator ≠ 0 := by
    intro hzero
    exact hpos.ne' ((scalarOf_eq_zero hlt).mp (horder _ hzero))
  have hprivate : PrivateOf curve parent (scalarOf parent.key • curve.generator, parent.chainCode) :=
    ⟨hpos, hlt, rfl, rfl⟩
  have hnodes := private_path hmacSha512 horder hpath hprivate
  refine ⟨_, hprivate.toXpub, ?_, ?_⟩
  · have hpublic : PublicOf curve ⟨curve.toSec1Bytes (scalarOf parent.key • curve.generator),
        parent.chainCode, parent.depth⟩ (scalarOf parent.key • curve.generator, parent.chainCode) :=
      ⟨hne, rfl, rfl⟩
    apply hnodes.through (public_path hmacSha512 hpath hpublic)
    intro child pub node hchild hpub
    refine ⟨hchild.pos, hchild.lt, ?_, hchild.chainCode.symm.trans hpub.chainCode⟩
    rw [hchild.publicKeyCompressed, hpub.pubkey]
  · intro host hkey hchain
    have hpoint : scalarOf parent.key • curve.generator = host.key.val := by
      change curve.toSec1Bytes host.key.val = curve.toSec1Bytes _ at hkey
      have hdecoded := Crypto.Adaptor.fromSec1Bytes_toSec1Bytes curve hne
      rw [← hkey, Crypto.Adaptor.fromSec1Bytes_toSec1Bytes curve host.key.property] at hdecoded
      exact (Option.some.inj hdecoded).symm
    have hhost : HostOf host (scalarOf parent.key • curve.generator, parent.chainCode) :=
      ⟨hpoint, hchain.symm⟩
    apply hnodes.through (host_path hmacSha512 hpath hhost)
    intro child hostChild node hchild hhostChild
    refine ⟨?_, hchild.chainCode.symm.trans hhostChild.chainCode⟩
    rw [hchild.publicKeyCompressed, hhostChild.point]

/-! ## A cyclic group -/

/-- The scalars themselves as points: a point and its opposite have the smaller of the two as
x-coordinate, and the greater is odd. -/
def cyclicOdd (P : ZMod ORDER) : Bool := decide (ORDER / 2 < P.val)

def cyclicX (P : ZMod ORDER) : FixedBytes 32 := scalarToBytes (if cyclicOdd P then -P else P)

theorem cyclicOdd_neg (P : ZMod ORDER) (h : P ≠ 0) : cyclicOdd (-P) = !cyclicOdd P := by
  have hval := (ZMod.val_ne_zero P).mpr h
  have hlt := ZMod.val_lt P
  have hneg : (-P).val = ORDER - P.val := by rw [ZMod.neg_val, if_neg h]
  have hparity : ORDER % 2 = 1 := by decide
  rw [cyclicOdd, cyclicOdd, hneg, ← decide_not]
  apply decide_eq_decide.mpr
  omega

theorem cyclicX_neg (P : ZMod ORDER) : cyclicX (-P) = cyclicX P := by
  by_cases h : P = 0
  · rw [h, neg_zero]
  · rw [cyclicX, cyclicX, cyclicOdd_neg P h, neg_neg]
    cases cyclicOdd P with
    | true => rfl
    | false => rfl

theorem scalarToBytes_scalarOf {bytes : FixedBytes 32} (h : number 8 bytes.val < ORDER) :
    scalarToBytes (scalarOf bytes) = bytes := by
  have hval : (scalarOf bytes).val = leNat bytes.val.reverse := by
    rw [scalarOf, ZMod.val_natCast, Nat.mod_eq_of_lt h, leNat_reverse]
  have hbytes := leBytes_leNat bytes.val.reverse
  rw [List.length_reverse, bytes.property] at hbytes
  apply Subtype.ext
  calc
    (leBytes 32 (scalarOf bytes).val).reverse = (leBytes 32 (leNat bytes.val.reverse)).reverse :=
      congrArg (fun value => (leBytes 32 value).reverse) hval
    _ = bytes.val := by rw [hbytes, List.reverse_reverse]

/-- The even scalar below half the order that the bytes write. -/
def cyclicLift (r : FixedBytes 32) : Option (ZMod ORDER) :=
  (secretKeyFromSlice r).filter fun P => !cyclicOdd P

theorem cyclicLift_eq_some (r : FixedBytes 32) (P : ZMod ORDER) :
    cyclicLift r = some P ↔ P ≠ 0 ∧ cyclicOdd P = false ∧ cyclicX P = r := by
  rw [cyclicLift, secretKeyFromSlice, Option.filter_eq_some_iff, Option.filter_eq_some_iff,
    Bool.not_eq_true', decide_eq_true_eq]
  constructor
  · intro h
    obtain ⟨⟨hscalar, hne⟩, heven⟩ := h
    rw [scalarFromCanonical_eq] at hscalar
    split at hscalar
    case isFalse => cases hscalar
    case isTrue hlt =>
      cases hscalar
      refine ⟨hne, heven, ?_⟩
      rw [cyclicX, heven]
      exact scalarToBytes_scalarOf hlt
  · intro h
    obtain ⟨hne, heven, hx⟩ := h
    refine ⟨⟨?_, hne⟩, heven⟩
    rw [← hx, cyclicX, heven]
    exact Crypto.Adaptor.scalarFromCanonical_toBytes (by decide) P

def cyclicCurve : Curve ORDER (ZMod ORDER) where
  generator := 1
  generator_ne_zero := by decide
  x := cyclicX
  isOdd := cyclicOdd
  x_neg := cyclicX_neg
  isOdd_neg := cyclicOdd_neg
  lift := cyclicLift
  lift_eq_some := cyclicLift_eq_some
  sha256 _ := Transaction.Model.zeros 32

theorem cyclicCurve_hasOrder : HasOrder cyclicCurve := by
  intro k h
  change k • (1 : ZMod ORDER) = 0 at h
  rwa [smul_eq_mul, mul_one] at h

/-- A secret key and a digest below the order. -/
def sampleKey : ExtendedPrivKey := ⟨⟨List.replicate 31 0 ++ [5], rfl⟩, Transaction.Model.zeros 32, 3⟩

/-- A digest that tells even keys from odd ones. -/
def sampleHmac (_ message : Bytes) : FixedBytes 64 :=
  ⟨List.replicate 63 1 ++ [message.headD 0], by simp⟩

-- The linter would run the derivation that occurs in the types of the hypotheses.
set_option linter.constructorNameAsVariable false in
/-- Two steps that both sides take. -/
theorem bip32_agreement_cyclic :
    ∃ xpub child pub, sampleKey.toXpub cyclicCurve = .ok xpub ∧
      [0, 7].foldlM (deriveChild cyclicCurve sampleHmac) sampleKey = .ok child ∧
      [0, 7].foldlM (deriveChildPub cyclicCurve sampleHmac) xpub = .ok pub ∧
      child.publicKeyCompressed cyclicCurve = .ok pub.pubkey ∧ child.chainCode = pub.chainCode := by
  obtain ⟨_, hall⟩ := bip32_agreement cyclicCurve cyclicCurve_hasOrder sampleHmac
  obtain ⟨xpub, hxpub, hagree, _⟩ := hall sampleKey [0, 7] (by decide) (by decide) (by simp)
  have hok : ([0, 7].foldlM (deriveChild cyclicCurve sampleHmac) sampleKey).isOk = true := by
    decide
  obtain ⟨child, hchild⟩ := exists_ok hok
  obtain ⟨pub, hpub, _, _, hpubkey, hchain⟩ := hagree.of_ok hchild
  exact ⟨xpub, child, pub, hxpub, hchild, hpub, hpubkey, hchain⟩

end KaspaPortal.Guarantees
