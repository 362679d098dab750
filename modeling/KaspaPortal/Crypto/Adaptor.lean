import KaspaPortal.Crypto.AntiKlepto

/-!
# Adaptor signatures

`src/crypto/adaptor.rs`, over any group of prime order with x-coordinates of 32 bytes and
any hash in the place of SHA-256.

Nothing is said about forgery or about what an adaptor hides; the results are equations
of the scheme. Nonces are given by the caller.
-/
namespace KaspaPortal.Crypto.Adaptor
open Lib Crypto.AntiKlepto

inductive AdaptorError where
  | invalidPrivateKey | invalidAdaptorPoint | invalidNonce | invalidPreSignature
  | invalidCompletedSignature | invalidHostContribution
  deriving DecidableEq, Repr

structure AdaptorPreSignature where
  bytes : FixedBytes 64
  /-- `+1` when false, `-1` when true: completion adds that many `t` to `s'`. -/
  negated : Bool
  deriving DecidableEq

def NONCE_DOMAIN : Bytes := ascii "KaspaPortal Private Swap Adaptor Nonce v1" ++ [0]
def HOST_DOMAIN : Bytes := ascii "KaspaPortal Private Swap Anti-Klepto v1" ++ [0]

/-! ## Scalars -/

section scalars
variable {n : Nat}

def nonzeroReducedScalar (digest : FixedBytes 32) (error : AdaptorError) :
    Except AdaptorError (ZMod n) :=
  let scalar := reduce n digest
  if scalar = 0 then .error error else .ok scalar

def nonzeroScalarSum (left right : ZMod n) (error : AdaptorError) : Except AdaptorError (ZMod n) :=
  let sum := left + right
  if sum = 0 then .error error else .ok sum

end scalars

/-! ## Completion and extraction -/

def completeAdaptorPresignature (n : Nat) (presig : AdaptorPreSignature)
    (adaptorSecret : FixedBytes 32) : Except AdaptorError (FixedBytes 64) := do
  let t ← okOr .invalidAdaptorPoint (scalarFromCanonical n adaptorSecret)
  rejectIf (t = 0) AdaptorError.invalidAdaptorPoint
  let sPrime ← okOr .invalidPreSignature (scalarFromCanonical n (sBytes presig.bytes))
  let completed := if presig.negated then sPrime - t else sPrime + t
  return signatureOf (rBytes presig.bytes) (scalarToBytes completed)

/-- Fails unless both share the nonce and the recovered secret is nonzero. -/
def extractAdaptorSecret (n : Nat) (completed : FixedBytes 64) (presig : AdaptorPreSignature) :
    Except AdaptorError (FixedBytes 32) := do
  rejectIf (rBytes completed ≠ rBytes presig.bytes) AdaptorError.invalidCompletedSignature
  let s ← okOr .invalidCompletedSignature (scalarFromCanonical n (sBytes completed))
  let sPrime ← okOr .invalidPreSignature (scalarFromCanonical n (sBytes presig.bytes))
  let delta := s - sPrime
  rejectIf (delta = 0) AdaptorError.invalidCompletedSignature
  let secret := if presig.negated then -delta else delta
  return scalarToBytes secret

section curve
variable {n : Nat} {Point : Type} [AddCommGroup Point] [Module (ZMod n) Point] (curve : Curve n Point)

def publicKeyToPoint (encoded : FixedBytes 33) : Except AdaptorError Point :=
  okOr .invalidNonce (curve.fromSec1Bytes encoded)

def xonlyToPoint (x : FixedBytes 32) : Except AdaptorError Point :=
  okOr .invalidAdaptorPoint (curve.fromSec1Bytes (compressed 0x02 x))

def normalizedSecretAndPublicX (privateKey : FixedBytes 32) :
    Except AdaptorError (ZMod n × FixedBytes 32) := do
  let raw ← okOr .invalidPrivateKey (scalarFromCanonical n privateKey)
  rejectIf (raw = 0) AdaptorError.invalidPrivateKey
  return (curve.normalize raw, curve.x (raw • curve.generator))

def baseNonceScalar (secret : ZMod n) (publicX message adaptorPointX : FixedBytes 32)
    (sessionId : FixedBytes SESSION_ID_LEN) (auxRand : FixedBytes 32) :
    Except AdaptorError (ZMod n) :=
  nonzeroReducedScalar (curve.sha256 (NONCE_DOMAIN ++ (scalarToBytes secret).val ++ publicX.val ++
    message.val ++ adaptorPointX.val ++ sessionId.val ++ auxRand.val)) .invalidNonce

def hostScalar (sessionId : FixedBytes SESSION_ID_LEN) (hostSecret publicX : FixedBytes 32)
    (baseNoncePoint : FixedBytes 33) (message adaptorPointX : FixedBytes 32) :
    Except AdaptorError (ZMod n) :=
  nonzeroReducedScalar (curve.sha256 (HOST_DOMAIN ++ sessionId.val ++ hostSecret.val ++ publicX.val ++
    baseNoncePoint.val ++ message.val ++ adaptorPointX.val)) .invalidHostContribution

/-- The device's nonce point before the host reveals its contribution. -/
def adaptorBaseNoncePoint (privateKey message adaptorPointX : FixedBytes 32)
    (sessionId : FixedBytes SESSION_ID_LEN) (auxRand : FixedBytes 32) :
    Except AdaptorError (FixedBytes 33) := do
  let (secret, publicX) ← normalizedSecretAndPublicX curve privateKey
  let _ ← xonlyToPoint curve adaptorPointX
  let nonce ← baseNonceScalar curve secret publicX message adaptorPointX sessionId auxRand
  return curve.toSec1Bytes (nonce • curve.generator)

section points
variable [DecidableEq Point]

def adaptorPointFromSecret (secret : FixedBytes 32) :
    Except AdaptorError (FixedBytes 32 × FixedBytes 32) := do
  let raw ← okOr .invalidPrivateKey (scalarFromCanonical n secret)
  rejectIf (raw = 0) AdaptorError.invalidPrivateKey
  let (x, odd) ← okOr .invalidAdaptorPoint (curve.pointXAndParity (raw • curve.generator))
  let normalized := if odd then -raw else raw
  return (scalarToBytes normalized, x)

def verifyAdaptorPresignature (publicX message : FixedBytes 32) (presig : AdaptorPreSignature)
    (adaptorPointX : FixedBytes 32) : Except AdaptorError Unit := do
  let p ← xonlyToPoint curve publicX
  let t ← xonlyToPoint curve adaptorPointX
  let r ← xonlyToPoint curve (rBytes presig.bytes)
  let s ← okOr .invalidPreSignature (scalarFromCanonical n (sBytes presig.bytes))
  let e := curve.challenge (rBytes presig.bytes) publicX message
  let signedT := if presig.negated then -t else t
  rejectIf (s • curve.generator ≠ r + -signedT + e • p) AdaptorError.invalidPreSignature

def verifyHostNonceRelation (publicX message adaptorPointX : FixedBytes 32)
    (sessionId : FixedBytes SESSION_ID_LEN) (hostSecret : FixedBytes 32)
    (baseNoncePoint : FixedBytes 33) (presig : AdaptorPreSignature) : Except AdaptorError Unit := do
  let base ← publicKeyToPoint curve baseNoncePoint
  let t ← xonlyToPoint curve adaptorPointX
  let r ← xonlyToPoint curve (rBytes presig.bytes)
  let host ← hostScalar curve sessionId hostSecret publicX baseNoncePoint message adaptorPointX
  let expected := base + host • curve.generator
  let signedT := if presig.negated then -t else t
  let recovered := if presig.negated then -(r + -signedT) else r + -signedT
  rejectIf (expected ≠ recovered) AdaptorError.invalidHostContribution

/-- The pre-signature, once the host has revealed its secret. When the sum of the points is
odd, the whole nonce expression is negated. -/
def createAdaptorPresignature (privateKey message adaptorPointX : FixedBytes 32)
    (sessionId : FixedBytes SESSION_ID_LEN) (auxRand hostSecret : FixedBytes 32) :
    Except AdaptorError AdaptorPreSignature := do
  let (secret, publicX) ← normalizedSecretAndPublicX curve privateKey
  let tPoint ← xonlyToPoint curve adaptorPointX
  let baseNonce ← baseNonceScalar curve secret publicX message adaptorPointX sessionId auxRand
  let baseNoncePoint := curve.toSec1Bytes (baseNonce • curve.generator)
  let host ← hostScalar curve sessionId hostSecret publicX baseNoncePoint message adaptorPointX
  let combined ← nonzeroScalarSum baseNonce host AdaptorError.invalidHostContribution
  let candidate := combined • curve.generator + tPoint
  let (rx, odd) ← okOr .invalidNonce (curve.pointXAndParity candidate)
  let signedNonce := if odd then -combined else combined
  let challenge := curve.challenge rx publicX message
  let response := signedNonce + challenge * secret
  let presig : AdaptorPreSignature := ⟨signatureOf rx (scalarToBytes response), odd⟩
  verifyAdaptorPresignature curve publicX message presig adaptorPointX
  return presig

end points

end curve

/-! ## Encodings -/

theorem sBytes_signatureOf (r s : FixedBytes 32) : sBytes (signatureOf r s) = s := by
  apply Subtype.ext
  simp only [sBytes, signatureOf]
  rw [List.drop_left' r.property]

/-- A scalar is read back from its bytes. -/
theorem scalarFromCanonical_toBytes {n : Nat} [NeZero n] (hn : n ≤ 256 ^ 32) (scalar : ZMod n) :
    scalarFromCanonical n (scalarToBytes scalar) = some scalar := by
  have hlt := ZMod.val_lt scalar
  have hvalue : leNat (scalarToBytes scalar).val.reverse = scalar.val := by
    simp only [scalarToBytes, List.reverse_reverse]
    exact leNat_leBytes 32 _ (lt_of_lt_of_le hlt hn)
  rw [scalarFromCanonical, hvalue, if_pos hlt, reduce, hvalue, ZMod.natCast_zmod_val]

section points
variable {n : Nat} {Point : Type} [AddCommGroup Point] [Module (ZMod n) Point] (curve : Curve n Point)

theorem xonlyToPoint_ok {x : FixedBytes 32} {P : Point} :
    xonlyToPoint curve x = .ok P ↔ curve.lift x = some P := by
  rw [xonlyToPoint, okOr_eq_ok, curve.fromSec1Bytes_even]

/-- A point is read back from its compressed encoding. -/
theorem fromSec1Bytes_toSec1Bytes {P : Point} (h : P ≠ 0) :
    curve.fromSec1Bytes (curve.toSec1Bytes P) = some P := by
  rw [Curve.toSec1Bytes, Curve.fromSec1Bytes]
  cases hodd : curve.isOdd P with
  | false =>
    simp only [Bool.false_eq_true, if_false, compressed_head, xonly_compressed]
    exact (curve.lift_eq_some _ _).mpr ⟨h, hodd, rfl⟩
  | true =>
    have hneg : curve.lift (curve.x P) = some (-P) := by
      rw [curve.lift_eq_some, curve.isOdd_neg P h, hodd]
      exact ⟨neg_ne_zero.mpr h, rfl, curve.x_neg P⟩
    simp only [if_true, compressed_head, xonly_compressed, hneg, Option.map_some, neg_neg]

/-- The compressed encoding of a point is the one it was read from. -/
theorem toSec1Bytes_of_fromSec1Bytes {bytes : FixedBytes 33} {P : Point}
    (htag : bytes.val.head? = some 0x02 ∨ bytes.val.head? = some 0x03)
    (h : curve.fromSec1Bytes bytes = some P) : P ≠ 0 ∧ curve.toSec1Bytes P = bytes := by
  obtain ⟨bytes, hlength⟩ := bytes
  cases bytes with
  | nil => cases hlength
  | cons tag x =>
    rw [Curve.fromSec1Bytes] at h
    rw [Curve.toSec1Bytes]
    obtain htag | htag := htag
    · cases htag
      obtain ⟨hne, heven, hx⟩ := (curve.lift_eq_some _ _).mp h
      refine ⟨hne, ?_⟩
      rw [heven, hx]
      rfl
    · cases htag
      obtain ⟨Q, hQ, rfl⟩ := Option.map_eq_some_iff.mp h
      obtain ⟨hne, heven, hx⟩ := (curve.lift_eq_some _ _).mp hQ
      refine ⟨neg_ne_zero.mpr hne, ?_⟩
      rw [curve.isOdd_neg Q hne, heven, curve.x_neg, hx]
      rfl

/-- The even point with the x-coordinate of a point is that point or its opposite. -/
theorem lift_x_of_parity {P : Point} (h : P ≠ 0) :
    curve.lift (curve.x P) = some (if curve.isOdd P then -P else P) := by
  rw [curve.lift_eq_some]
  cases hodd : curve.isOdd P with
  | false => exact ⟨h, hodd, rfl⟩
  | true =>
    simp only [if_true]
    rw [curve.isOdd_neg P h, hodd]
    exact ⟨neg_ne_zero.mpr h, rfl, curve.x_neg P⟩

/-- The x-coordinate of a multiple does not depend on the sign of the point. -/
theorem x_smul_sign (k : ZMod n) (P : Point) (odd : Bool) :
    curve.x (k • if odd then -P else P) = curve.x (k • P) := by
  cases odd with
  | true => rw [if_pos rfl, smul_neg, curve.x_neg]
  | false => rw [if_neg Bool.false_ne_true]

theorem normalizedSecretAndPublicX_ok {privateKey publicX : FixedBytes 32} {secret : ZMod n} :
    normalizedSecretAndPublicX curve privateKey = .ok (secret, publicX) ↔
      curve.normalizedSecretAndPublicX privateKey = .ok (secret, publicX) := by
  rw [curve.normalizedSecretAndPublicX_eq_ok, normalizedSecretAndPublicX]
  simp only [bind_eq_ok, okOr_eq_ok, rejectIf_eq_ok]
  constructor
  · intro h
    obtain ⟨raw, hraw, u, hne, heq⟩ := h
    cases heq
    exact ⟨raw, hraw, hne, rfl, rfl⟩
  · intro h
    obtain ⟨raw, hraw, hne, rfl, rfl⟩ := h
    exact ⟨raw, hraw, (), hne, rfl⟩

theorem nonzeroReducedScalar_ok {digest : FixedBytes 32} {error : AdaptorError} {k : ZMod n}
    (h : nonzeroReducedScalar digest error = .ok k) : k ≠ 0 := by
  rw [nonzeroReducedScalar] at h
  split at h
  case isTrue => cases h
  case isFalse hne =>
    cases h
    exact hne

/-- An adaptor secret, and the even point of its scalar. -/
theorem adaptorPointFromSecret_ok [DecidableEq Point] [Fact n.Prime] {secret adaptorSecret x : FixedBytes 32}
    (h : adaptorPointFromSecret curve secret = .ok (adaptorSecret, x)) :
    ∃ t : ZMod n, t ≠ 0 ∧ adaptorSecret = scalarToBytes t ∧
      curve.lift x = some (t • curve.generator) := by
  rw [adaptorPointFromSecret] at h
  simp only [bind_eq_ok, okOr_eq_ok, rejectIf_eq_ok] at h
  obtain ⟨raw, hraw, u, hne, point, hpoint, heq⟩ := h
  obtain ⟨x', odd⟩ := point
  obtain ⟨hzero, rfl, rfl⟩ := curve.pointXAndParity_eq_some.mp hpoint
  cases heq
  refine ⟨curve.normalize raw, ?_, rfl, curve.lift_x hne⟩
  rw [CurveGroup.normalize]
  split
  · exact neg_ne_zero.mpr hne
  · exact hne

/-- The parts of a pre-signature: its two nonces and the sum with the adaptor point. -/
theorem createAdaptorPresignature_ok [DecidableEq Point]
    {privateKey message adaptorX auxRand hostSecret : FixedBytes 32}
    {sessionId : FixedBytes SESSION_ID_LEN} {presig : AdaptorPreSignature}
    (h : createAdaptorPresignature curve privateKey message adaptorX sessionId auxRand hostSecret =
      .ok presig) :
    ∃ secret publicX T baseNonce host rx,
      normalizedSecretAndPublicX curve privateKey = .ok (secret, publicX) ∧
      curve.lift adaptorX = some T ∧
      baseNonceScalar curve secret publicX message adaptorX sessionId auxRand = .ok baseNonce ∧
      hostScalar curve sessionId hostSecret publicX (curve.toSec1Bytes (baseNonce • curve.generator))
        message adaptorX = .ok host ∧
      (baseNonce + host) • curve.generator + T ≠ 0 ∧
      rx = curve.x ((baseNonce + host) • curve.generator + T) ∧
      presig.negated = curve.isOdd ((baseNonce + host) • curve.generator + T) ∧
      presig.bytes = signatureOf rx (scalarToBytes
        ((if presig.negated then -(baseNonce + host) else baseNonce + host) +
          curve.challenge rx publicX message * secret)) ∧
      verifyAdaptorPresignature curve publicX message presig adaptorX = .ok () := by
  rw [createAdaptorPresignature] at h
  simp only [bind_eq_ok, okOr_eq_ok, xonlyToPoint_ok] at h
  obtain ⟨key, hkey, T, hT, baseNonce, hbase, host, hhost, combined, hsum, point, hpoint, u, hverify,
    heq⟩ := h
  obtain ⟨secret, publicX⟩ := key
  obtain ⟨rx, odd⟩ := point
  rw [nonzeroScalarSum] at hsum
  split at hsum
  case isTrue => cases hsum
  case isFalse =>
    cases hsum
    cases heq
    obtain ⟨hne, hrx, hodd⟩ := curve.pointXAndParity_eq_some.mp hpoint
    exact ⟨secret, publicX, T, baseNonce, host, rx, hkey, hT, hbase, hhost, hne, hrx, hodd, rfl, hverify⟩

end points

end KaspaPortal.Crypto.Adaptor
