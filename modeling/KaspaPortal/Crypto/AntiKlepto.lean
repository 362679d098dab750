import KaspaPortal.Lib.Codec
import KaspaPortal.Lib.Result
import KaspaPortal.Lib.Schnorr
import KaspaPortal.Transaction.Model

/-!
# Host-assisted nonces

`src/crypto/anti_klepto.rs` and the verification of `src/crypto/schnorr/mod.rs`, over
any group of prime order with x-coordinates of 32 bytes and any hash in the place of
SHA-256. Scalars are read and written big-endian, as the curve library does.

Nothing is said about forgery, and nothing about how a signer chooses its secrets:
the relation of nonce, commitment and host secret is an equation.
-/
namespace KaspaPortal.Crypto.AntiKlepto
open Lib Transaction.Model

def SESSION_ID_LEN : Nat := 16

def HOST_SCALAR_DOMAIN : Bytes := ascii "KaspaPortal/anti-klepto/host-scalar/v1"

inductive AntiKleptoError where
  | invalidPrivateKey | invalidProvisionalSignature | reusableProvisionalNonce | invalidHostContribution
  | invalidNoncePoint | invalidFinalSignature
  deriving DecidableEq, Repr

/-- The curve and the hash. -/
structure Curve (n : Nat) (Point : Type) [AddCommGroup Point] [Module (ZMod n) Point] extends
    CurveGroup n Point (FixedBytes 32) where
  sha256 : Bytes → FixedBytes 32

/-- A tag byte and an x-coordinate. -/
def compressed (tag : UInt8) (x : FixedBytes 32) : FixedBytes 33 := ⟨tag :: x.val, by simp [x.property]⟩

/-- `key[1..33]`. -/
def xonly (key : FixedBytes 33) : FixedBytes 32 := ⟨key.val.drop 1, by simp [key.property]⟩

def rBytes (signature : FixedBytes 64) : FixedBytes 32 :=
  ⟨signature.val.take 32, by simp [signature.property]⟩

def sBytes (signature : FixedBytes 64) : FixedBytes 32 :=
  ⟨signature.val.drop 32, by simp [signature.property]⟩

def signatureOf (r s : FixedBytes 32) : FixedBytes 64 :=
  ⟨r.val ++ s.val, by simp [r.property, s.property]⟩

/-- `Scalar::reduce`. -/
def reduce (n : Nat) (bytes : FixedBytes 32) : ZMod n := (leNat bytes.val.reverse : Nat)

/-- `ScalarValue::from_slice`. -/
def scalarFromCanonical (n : Nat) (bytes : FixedBytes 32) : Option (ZMod n) :=
  if leNat bytes.val.reverse < n then some (reduce n bytes) else none

/-- `Scalar::to_bytes`. -/
def scalarToBytes {n : Nat} (scalar : ZMod n) : FixedBytes 32 :=
  ⟨(leBytes 32 scalar.val).reverse, by simp⟩

/-- BIP340 nonces have an even point, so its encoding is `0x02 || R.x`. -/
def provisionalNoncePoint (signature : FixedBytes 64) : FixedBytes 33 :=
  compressed 0x02 (rBytes signature)

def canonicalPublicKey (publicX : FixedBytes 32) : FixedBytes 33 := compressed 0x02 publicX

@[simp] theorem xonly_compressed (tag : UInt8) (x : FixedBytes 32) : xonly (compressed tag x) = x := by
  apply Subtype.ext
  simp [xonly, compressed]

@[simp] theorem compressed_head (tag : UInt8) (x : FixedBytes 32) :
    (compressed tag x).val.head? = some tag := rfl

@[simp] theorem rBytes_signatureOf (r s : FixedBytes 32) : rBytes (signatureOf r s) = r := by
  apply Subtype.ext
  simp only [rBytes, signatureOf]
  rw [List.take_left' r.property]

namespace Curve

variable {n : Nat} {Point : Type} [AddCommGroup Point] [Module (ZMod n) Point] (curve : Curve n Point)

def taggedHash (tag : String) (data : Bytes) : FixedBytes 32 :=
  let tagHash := (curve.sha256 (ascii tag)).val
  curve.sha256 (tagHash ++ tagHash ++ data)

def challenge (nonceX publicX message : FixedBytes 32) : ZMod n :=
  reduce n (curve.taggedHash "BIP0340/challenge" (nonceX.val ++ publicX.val ++ message.val))

/-- `PublicKey::from_sec1_bytes` of 33 bytes: a compressed encoding, or a compact one, which stands for
the even point. -/
def fromSec1Bytes (bytes : FixedBytes 33) : Option Point :=
  match bytes.val.head? with
  | some 0x02 => curve.lift (xonly bytes)
  | some 0x03 => (curve.lift (xonly bytes)).map fun P => -P
  -- SEC1 compact
  | some 0x05 => curve.lift (xonly bytes)
  | _ => none

/-- The compressed encoding of a point. -/
def toSec1Bytes (P : Point) : FixedBytes 33 := compressed (if curve.isOdd P then 0x03 else 0x02) (curve.x P)

/-- `point_x_and_parity` -/
def pointXAndParity [DecidableEq Point] (P : Point) : Option (FixedBytes 32 × Bool) :=
  if P = 0 then none else some (curve.x P, curve.isOdd P)

/-- BIP340; the curve library also refuses a zero response. -/
def schnorrVerify [DecidableEq Point] (publicX message : FixedBytes 32) (signature : FixedBytes 64) : Bool :=
  match curve.lift publicX, scalarFromCanonical n (sBytes signature) with
  | some P, some s => decide (s ≠ 0) &&
      decide (curve.Verifies P (curve.challenge (rBytes signature) publicX message) s (rBytes signature))
  | _, _ => false

def hostScalarMaterial (sessionId : FixedBytes SESSION_ID_LEN) (hostSecret : FixedBytes 32)
    (inputIndex : UInt32) (signatureSlot : UInt8) (publicKey noncePoint : FixedBytes 33) : FixedBytes 32 :=
  curve.sha256 (HOST_SCALAR_DOMAIN ++ sessionId.val ++ hostSecret.val ++ leBytes 4 inputIndex.toNat ++
    [signatureSlot] ++ publicKey.val ++ noncePoint.val)

def nonzeroHostScalar (material : FixedBytes 32) : Except AntiKleptoError (ZMod n) :=
  let scalar := reduce n material
  if scalar = 0 then .error .invalidHostContribution else .ok scalar

def hostScalar (sessionId : FixedBytes SESSION_ID_LEN) (hostSecret : FixedBytes 32) (inputIndex : UInt32)
    (signatureSlot : UInt8) (publicKey noncePoint : FixedBytes 33) : Except AntiKleptoError (ZMod n) :=
  nonzeroHostScalar
    (curve.hostScalarMaterial sessionId hostSecret inputIndex signatureSlot publicKey noncePoint)

def nonzeroNonceSum (left right : ZMod n) : Except AntiKleptoError (ZMod n) :=
  let sum := left + right
  if sum = 0 then .error .invalidHostContribution else .ok sum

/-- BIP340 signs with the secret whose point is even. -/
def normalizedSecretAndPublicX (privateKey : FixedBytes 32) :
    Except AntiKleptoError (ZMod n × FixedBytes 32) := do
  let rawSecret ← okOr .invalidPrivateKey (scalarFromCanonical n privateKey)
  rejectIf (rawSecret = 0) AntiKleptoError.invalidPrivateKey
  return (curve.normalize rawSecret, curve.x (rawSecret • curve.generator))

/-- The BIP340 nonce for all-zero auxiliary randomness, before it is normalized. -/
def zeroAuxNonce (secret : ZMod n) (publicX message : FixedBytes 32) : ZMod n :=
  let mask := curve.taggedHash "BIP0340/aux" (zeros 32).val
  let masked := List.zipWith (fun secretByte maskByte => secretByte ^^^ maskByte)
    (scalarToBytes secret).val mask.val
  reduce n (curve.taggedHash "BIP0340/nonce" (masked ++ publicX.val ++ message.val))

/-- Recover the provisional nonce `k = s - e*d` and refuse one that is not fresh. -/
def provisionalNonce (provisional : FixedBytes 64) (secret : ZMod n) (publicX message : FixedBytes 32) :
    Except AntiKleptoError (ZMod n) := do
  let response ← okOr .invalidProvisionalSignature (scalarFromCanonical n (sBytes provisional))
  let nonce := response - curve.challenge (rBytes provisional) publicX message * secret
  rejectIf (nonce = 0) AntiKleptoError.invalidProvisionalSignature
  let deterministic := curve.zeroAuxNonce secret publicX message
  rejectIf (nonce * nonce = deterministic * deterministic) AntiKleptoError.reusableProvisionalNonce
  return nonce

section points
variable [DecidableEq Point]

def tweakProvisionalSignature (privateKey message : FixedBytes 32) (provisional : FixedBytes 64)
    (sessionId : FixedBytes SESSION_ID_LEN) (hostSecret : FixedBytes 32) (inputIndex : UInt32)
    (signatureSlot : UInt8) : Except AntiKleptoError (FixedBytes 64) := do
  let (secret, publicX) ← curve.normalizedSecretAndPublicX privateKey
  let publicKey := canonicalPublicKey publicX
  let noncePoint := provisionalNoncePoint provisional
  let provisionalNonce ← curve.provisionalNonce provisional secret publicX message
  let contribution ← curve.hostScalar sessionId hostSecret inputIndex signatureSlot publicKey noncePoint
  let combined ← nonzeroNonceSum provisionalNonce contribution
  let combinedPoint := combined • curve.generator
  let (nonceX, oddY) ← okOr .invalidNoncePoint (curve.pointXAndParity combinedPoint)
  let normalizedNonce := if oddY then -combined else combined
  let finalChallenge := curve.challenge nonceX publicX message
  let finalResponse := normalizedNonce + finalChallenge * secret
  let signature := signatureOf nonceX (scalarToBytes finalResponse)
  rejectIf (curve.schnorrVerify publicX message signature = false) AntiKleptoError.invalidFinalSignature
  return signature

/-- The nonce relation; the signature itself is verified by the caller. -/
def verifyNonceRelation (provisionalNoncePoint : FixedBytes 33) (finalSignature : FixedBytes 64)
    (sessionId : FixedBytes SESSION_ID_LEN) (hostSecret : FixedBytes 32) (inputIndex : UInt32)
    (signatureSlot : UInt8) (publicKey : FixedBytes 33) : Except AntiKleptoError Unit := do
  rejectIf (publicKey.val.head? ≠ some 0x02 ∨ provisionalNoncePoint.val.head? ≠ some 0x02)
    AntiKleptoError.invalidNoncePoint
  let provisionalKey ← okOr .invalidNoncePoint (curve.fromSec1Bytes provisionalNoncePoint)
  let _ ← okOr .invalidNoncePoint (curve.fromSec1Bytes publicKey)
  let contribution ←
    curve.hostScalar sessionId hostSecret inputIndex signatureSlot publicKey provisionalNoncePoint
  let expected := provisionalKey + contribution • curve.generator
  let (expectedX, _) ← okOr .invalidNoncePoint (curve.pointXAndParity expected)
  rejectIf (expectedX ≠ rBytes finalSignature) AntiKleptoError.invalidFinalSignature

/-! ## The tweaked signature -/

theorem pointXAndParity_eq_some {P : Point} {x : FixedBytes 32} {odd : Bool} :
    curve.pointXAndParity P = some (x, odd) ↔ P ≠ 0 ∧ x = curve.x P ∧ odd = curve.isOdd P := by
  unfold pointXAndParity
  split
  · rename_i hzero
    exact ⟨nofun, fun h => absurd hzero h.1⟩
  · rename_i hne
    rw [Option.some.injEq, Prod.mk.injEq]
    exact ⟨fun ⟨hx, hodd⟩ => ⟨hne, hx.symm, hodd.symm⟩, fun ⟨_, hx, hodd⟩ => ⟨hx.symm, hodd.symm⟩⟩

theorem schnorrVerify_eq_true {publicX message : FixedBytes 32} {signature : FixedBytes 64} :
    curve.schnorrVerify publicX message signature = true ↔ ∃ P s, curve.lift publicX = some P ∧
      scalarFromCanonical n (sBytes signature) = some s ∧ s ≠ 0 ∧
      curve.Verifies P (curve.challenge (rBytes signature) publicX message) s (rBytes signature) := by
  unfold schnorrVerify
  split
  · rename_i P s hP hs
    simp only [Bool.and_eq_true, decide_eq_true_eq, hP, hs, Option.some.injEq]
    constructor
    · intro ⟨hne, hverifies⟩
      exact ⟨P, s, rfl, rfl, hne, hverifies⟩
    · intro ⟨P', s', hP', hs', hne, hverifies⟩
      subst hP' hs'
      exact ⟨hne, hverifies⟩
  · rename_i hnone
    constructor
    · exact nofun
    · intro ⟨P, s, hP, hs, _⟩
      exact absurd hs (hnone P s hP)

/-- The parts of a tweak: the recovered nonce, the host's scalar, and the x-coordinate of
their sum. -/
theorem tweakProvisionalSignature_eq_ok {privateKey message hostSecret : FixedBytes 32}
    {provisional signature : FixedBytes 64} {sessionId : FixedBytes SESSION_ID_LEN} {inputIndex : UInt32}
    {signatureSlot : UInt8}
    (h : curve.tweakProvisionalSignature privateKey message provisional sessionId hostSecret inputIndex
      signatureSlot = .ok signature) :
    ∃ secret publicX nonce contribution,
      curve.normalizedSecretAndPublicX privateKey = .ok (secret, publicX) ∧
      curve.provisionalNonce provisional secret publicX message = .ok nonce ∧
      curve.hostScalar sessionId hostSecret inputIndex signatureSlot (canonicalPublicKey publicX)
        (provisionalNoncePoint provisional) = .ok contribution ∧
      (nonce + contribution) • curve.generator ≠ 0 ∧
      rBytes signature = curve.x ((nonce + contribution) • curve.generator) ∧
      curve.schnorrVerify publicX message signature = true := by
  unfold tweakProvisionalSignature nonzeroNonceSum at h
  simp only [bind_eq_ok, okOr_eq_ok, rejectIf_eq_ok, Bool.not_eq_false] at h
  obtain ⟨⟨secret, publicX⟩, hkey, nonce, hnonce, contribution, hcontribution, combined, hsum, ⟨nonceX, odd⟩,
    hpoint, _, hfinal, hsignature⟩ := h
  split at hsum
  · cases hsum
  cases hsum
  cases hsignature
  obtain ⟨hne, hx, _⟩ := curve.pointXAndParity_eq_some.mp hpoint
  refine ⟨secret, publicX, nonce, contribution, hkey, hnonce, hcontribution, hne, ?_, hfinal⟩
  rw [rBytes_signatureOf]
  exact hx

end points

theorem fromSec1Bytes_even (x : FixedBytes 32) : curve.fromSec1Bytes (compressed 0x02 x) = curve.lift x := by
  unfold fromSec1Bytes
  rw [xonly_compressed]
  rfl

/-- The key of a secret, as the signer names it and as verifiers read it. -/
theorem normalizedSecretAndPublicX_eq_ok {privateKey publicX : FixedBytes 32} {secret : ZMod n} :
    curve.normalizedSecretAndPublicX privateKey = .ok (secret, publicX) ↔ ∃ raw : ZMod n,
      scalarFromCanonical n privateKey = some raw ∧ raw ≠ 0 ∧ secret = curve.normalize raw ∧
      publicX = curve.x (raw • curve.generator) := by
  unfold normalizedSecretAndPublicX
  simp only [bind_eq_ok, okOr_eq_ok, rejectIf_eq_ok]
  constructor
  · intro ⟨raw, hraw, _, hne, hpair⟩
    have hpair := Prod.mk.inj (Except.ok.inj hpair)
    exact ⟨raw, hraw, hne, hpair.1.symm, hpair.2.symm⟩
  · intro ⟨raw, hraw, hne, hsecret, hpublic⟩
    exact ⟨raw, hraw, (), hne, by rw [hsecret, hpublic]; rfl⟩

theorem provisionalNonce_eq_ok {provisional : FixedBytes 64} {secret nonce : ZMod n}
    {publicX message : FixedBytes 32}
    (h : curve.provisionalNonce provisional secret publicX message = .ok nonce) :
    ∃ response, scalarFromCanonical n (sBytes provisional) = some response ∧
      nonce = response - curve.challenge (rBytes provisional) publicX message * secret := by
  unfold provisionalNonce at h
  simp only [bind_eq_ok, okOr_eq_ok, rejectIf_eq_ok] at h
  obtain ⟨response, hresponse, _, _, _, _, hnonce⟩ := h
  exact ⟨response, hresponse, (Except.ok.inj hnonce).symm⟩

theorem lift_publicX [Fact n.Prime] {privateKey publicX : FixedBytes 32} {secret : ZMod n}
    (h : curve.normalizedSecretAndPublicX privateKey = .ok (secret, publicX)) :
    curve.lift publicX = some (secret • curve.generator) := by
  obtain ⟨raw, _, hne, hsecret, hpublic⟩ := curve.normalizedSecretAndPublicX_eq_ok.mp h
  rw [hpublic, hsecret]
  exact curve.lift_x hne

section points
variable [DecidableEq Point] [Fact n.Prime]

/-- The nonce the signer recovers from a valid signature is that of the even point a
verifier reads off it. -/
theorem lift_provisional {privateKey publicX message : FixedBytes 32} {secret nonce : ZMod n}
    {provisional : FixedBytes 64}
    (hkey : curve.normalizedSecretAndPublicX privateKey = .ok (secret, publicX))
    (hverify : curve.schnorrVerify publicX message provisional = true)
    (hnonce : curve.provisionalNonce provisional secret publicX message = .ok nonce) :
    curve.lift (rBytes provisional) = some (nonce • curve.generator) := by
  obtain ⟨P, response, hP, hresponse, _, hverifies⟩ := curve.schnorrVerify_eq_true.mp hverify
  obtain ⟨response', hresponse', hnonce⟩ := curve.provisionalNonce_eq_ok hnonce
  rw [hresponse] at hresponse'
  cases hresponse'
  rw [curve.lift_publicX hkey] at hP
  cases hP
  rw [hnonce]
  exact hverifies.lift_nonce

/-- A tweaked signature verifies, and its nonce is the provisional one moved by the host's
scalar: the signer's `k + h` and the verifier's `R + h G` meet in one point. -/
theorem tweakProvisionalSignature_relation {privateKey publicX message hostSecret : FixedBytes 32}
    {secret : ZMod n} {provisional signature : FixedBytes 64} {sessionId : FixedBytes SESSION_ID_LEN}
    {inputIndex : UInt32} {signatureSlot : UInt8}
    (hkey : curve.normalizedSecretAndPublicX privateKey = .ok (secret, publicX))
    (hprovisional : curve.schnorrVerify publicX message provisional = true)
    (h : curve.tweakProvisionalSignature privateKey message provisional sessionId hostSecret inputIndex
      signatureSlot = .ok signature) :
    curve.schnorrVerify publicX message signature = true ∧
      curve.verifyNonceRelation (provisionalNoncePoint provisional) signature sessionId hostSecret
        inputIndex signatureSlot (canonicalPublicKey publicX) = .ok () := by
  obtain ⟨secret', publicX', nonce, contribution, hkey', hnonce, hcontribution, hne, hr, hverify⟩ :=
    curve.tweakProvisionalSignature_eq_ok h
  rw [hkey] at hkey'
  cases hkey'
  refine ⟨hverify, ?_⟩
  have hpoint : curve.fromSec1Bytes (provisionalNoncePoint provisional) = some (nonce • curve.generator) := by
    rw [provisionalNoncePoint, curve.fromSec1Bytes_even]
    exact curve.lift_provisional hkey hprovisional hnonce
  have hpublic : curve.fromSec1Bytes (canonicalPublicKey publicX) = some (secret • curve.generator) := by
    rw [canonicalPublicKey, curve.fromSec1Bytes_even]
    exact curve.lift_publicX hkey
  have hsum : curve.pointXAndParity (nonce • curve.generator + contribution • curve.generator) =
      some (curve.x ((nonce + contribution) • curve.generator),
        curve.isOdd ((nonce + contribution) • curve.generator)) := by
    rw [← add_smul]
    exact curve.pointXAndParity_eq_some.mpr ⟨hne, rfl, rfl⟩
  unfold verifyNonceRelation
  simp only [bind_eq_ok, okOr_eq_ok, rejectIf_eq_ok, Decidable.not_not]
  exact ⟨(), by simp [canonicalPublicKey, provisionalNoncePoint, compressed], _, hpoint, _, hpublic,
    contribution, hcontribution, _, hsum, hr.symm⟩

end points

end Curve

end KaspaPortal.Crypto.AntiKlepto
