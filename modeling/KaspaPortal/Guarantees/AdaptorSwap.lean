import Mathlib.Tactic.Abel
import KaspaPortal.Crypto.Adaptor
import KaspaPortal.Guarantees.AntiKleptoHost

/-!
# Adaptor swaps complete

The pre-signature, its checks, its completion and the extraction share one sign convention:
in every combination of parities each of them agrees with the others.

The group, its order and the hash are parameters. Nothing is said about forgery.
-/
set_option maxRecDepth 100000

namespace KaspaPortal.Guarantees
open Lib Crypto.AntiKlepto Crypto.Adaptor

/-- Validity as BIP340 defines it; a zero response is a valid one. -/
def Bip340Valid {n : Nat} {Point : Type} [AddCommGroup Point] [Module (ZMod n) Point]
    (curve : Curve n Point) (publicX message : FixedBytes 32) (signature : FixedBytes 64) : Prop :=
  ∃ P s, curve.lift publicX = some P ∧ scalarFromCanonical n (sBytes signature) = some s ∧
    curve.Verifies P (curve.challenge (rBytes signature) publicX message) s (rBytes signature)

section swap
variable {n : Nat} {Point : Type} [AddCommGroup Point] [Module (ZMod n) Point] [Fact n.Prime]
  {curve : Curve n Point}

theorem schnorrVerify_of_valid [DecidableEq Point] {publicX message : FixedBytes 32} {signature : FixedBytes 64}
    (h : Bip340Valid curve publicX message signature)
    (hresponse : scalarFromCanonical n (sBytes signature) ≠ some 0) :
    curve.schnorrVerify publicX message signature = true := by
  obtain ⟨P, s, hP, hs, hverifies⟩ := h
  refine curve.schnorrVerify_eq_true.mpr ⟨P, s, hP, hs, fun hzero => ?_, hverifies⟩
  rw [hs, hzero] at hresponse
  exact hresponse rfl

/-- The equation of the completed signature, for either parity of the sum of the points. -/
theorem completed_verifies {k d e t : ZMod n} {T : Point} (hT : T = t • curve.generator)
    (hne : k • curve.generator + T ≠ 0) {odd : Bool} (hodd : odd = curve.isOdd (k • curve.generator + T)) :
    curve.Verifies (d • curve.generator) e
      (if odd then (if odd then -k else k) + e * d - t else (if odd then -k else k) + e * d + t)
      (curve.x (k • curve.generator + T)) := by
  rw [CurveGroup.Verifies, lift_x_of_parity curve hne, ← hodd, hT]
  cases odd with
  | true =>
    simp only [if_true, Option.some.injEq, sub_smul, add_smul, neg_smul, mul_smul]
    abel
  | false =>
    simp only [Bool.false_eq_true, if_false, Option.some.injEq, add_smul, mul_smul]
    abel

/-- The host finds the committed nonce moved by its scalar, for either parity. -/
theorem nonceRelation_holds {k h : ZMod n} {T : Point} (hne : (k + h) • curve.generator + T ≠ 0)
    {odd : Bool} (hodd : odd = curve.isOdd ((k + h) • curve.generator + T)) :
    ∃ R, curve.lift (curve.x ((k + h) • curve.generator + T)) = some R ∧
      k • curve.generator + h • curve.generator =
        if odd then -(R + -(if odd then -T else T)) else R + -(if odd then -T else T) := by
  refine ⟨_, lift_x_of_parity curve hne, ?_⟩
  rw [← hodd]
  cases odd with
  | true =>
    simp only [if_true, add_smul]
    abel
  | false =>
    simp only [Bool.false_eq_true, if_false, add_smul]
    abel

/-- Completing a pre-signature moves its response by the secret, and extraction moves it back. -/
theorem complete_extract (hn : n ≤ 256 ^ 32) {presig : AdaptorPreSignature} {sPrime t : ZMod n}
    (hs : scalarFromCanonical n (sBytes presig.bytes) = some sPrime) (ht : t ≠ 0) :
    ∃ signature, completeAdaptorPresignature n presig (scalarToBytes t) = .ok signature ∧
      rBytes signature = rBytes presig.bytes ∧
      scalarFromCanonical n (sBytes signature) =
        some (if presig.negated then sPrime - t else sPrime + t) ∧
      extractAdaptorSecret n signature presig = .ok (scalarToBytes t) := by
  have hneZero : NeZero n := ⟨(Fact.out : n.Prime).ne_zero⟩
  have hresponse : scalarFromCanonical n (sBytes (signatureOf (rBytes presig.bytes)
      (scalarToBytes (if presig.negated then sPrime - t else sPrime + t)))) =
      some (if presig.negated then sPrime - t else sPrime + t) := by
    rw [sBytes_signatureOf, scalarFromCanonical_toBytes hn]
  refine ⟨_, ?_, rBytes_signatureOf _ _, hresponse, ?_⟩
  · rw [completeAdaptorPresignature]
    simp only [bind_eq_ok, okOr_eq_ok, rejectIf_eq_ok]
    exact ⟨t, scalarFromCanonical_toBytes hn t, (), ht, sPrime, hs, rfl⟩
  · rw [extractAdaptorSecret]
    simp only [bind_eq_ok, okOr_eq_ok, rejectIf_eq_ok, not_not]
    refine ⟨(), rBytes_signatureOf _ _, _, hresponse, sPrime, hs, (), ?_, ?_⟩
    · cases presig.negated with
      | true =>
        rw [if_pos rfl, sub_sub_cancel_left]
        exact neg_ne_zero.mpr ht
      | false =>
        rw [if_neg Bool.false_ne_true, add_sub_cancel_left]
        exact ht
    · cases presig.negated with
      | true =>
        rw [if_pos rfl, if_pos rfl, sub_sub_cancel_left, neg_neg]
        rfl
      | false =>
        rw [if_neg Bool.false_ne_true, if_neg Bool.false_ne_true, add_sub_cancel_left]
        rfl

end swap

/-- Whenever a pre-signature is made for an adaptor point, both checks accept it, the secret
of the point completes it to a valid signature, and that signature gives the secret back. -/
theorem adaptor_swap {n : Nat} {Point : Type} [AddCommGroup Point] [Module (ZMod n) Point]
    [DecidableEq Point] [Fact n.Prime] (hn : n ≤ 256 ^ 32) (curve : Curve n Point)
    (privateKey message auxRand hostSecret secret adaptorSecret adaptorX : FixedBytes 32)
    (sessionId : FixedBytes SESSION_ID_LEN) (presig : AdaptorPreSignature)
    (hpoint : adaptorPointFromSecret curve secret = .ok (adaptorSecret, adaptorX))
    (hcreate : createAdaptorPresignature curve privateKey message adaptorX sessionId auxRand
      hostSecret = .ok presig) :
    ∃ claimer publicX base signature,
      curve.normalizedSecretAndPublicX privateKey = .ok (claimer, publicX) ∧
      adaptorBaseNoncePoint curve privateKey message adaptorX sessionId auxRand = .ok base ∧
      verifyAdaptorPresignature curve publicX message presig adaptorX = .ok () ∧
      verifyHostNonceRelation curve publicX message adaptorX sessionId hostSecret base presig =
        .ok () ∧
      completeAdaptorPresignature n presig adaptorSecret = .ok signature ∧
      Bip340Valid curve publicX message signature ∧
      (scalarFromCanonical n (sBytes signature) ≠ some 0 →
        curve.schnorrVerify publicX message signature = true) ∧
      extractAdaptorSecret n signature presig = .ok adaptorSecret := by
  obtain ⟨t, ht, rfl, hlift⟩ := adaptorPointFromSecret_ok curve hpoint
  obtain ⟨claimer, publicX, T, k, h, rx, hkey, hT, hbase, hhost, hne, rfl, hodd, hbytes, hverify⟩ :=
    createAdaptorPresignature_ok curve hcreate
  have hTt : T = t • curve.generator := Option.some.inj (hT.symm.trans hlift)
  have hkey' := (normalizedSecretAndPublicX_ok curve).mp hkey
  have hk : k ≠ 0 := nonzeroReducedScalar_ok hbase
  have hneZero : NeZero n := ⟨(Fact.out : n.Prime).ne_zero⟩
  have hr : rBytes presig.bytes = curve.x ((k + h) • curve.generator + T) := by
    rw [hbytes, rBytes_signatureOf]
  have hs : scalarFromCanonical n (sBytes presig.bytes) =
      some ((if presig.negated then -(k + h) else k + h) +
        curve.challenge (curve.x ((k + h) • curve.generator + T)) publicX message * claimer) := by
    rw [hbytes, sBytes_signatureOf, scalarFromCanonical_toBytes hn]
  obtain ⟨signature, hcomplete, hrx, hresponse, hextract⟩ := complete_extract hn hs ht
  have hvalid : Bip340Valid curve publicX message signature := by
    refine ⟨_, _, curve.lift_publicX hkey', hresponse, ?_⟩
    rw [hrx, hr]
    exact completed_verifies hTt hne hodd
  refine ⟨claimer, publicX, curve.toSec1Bytes (k • curve.generator), signature, hkey', ?_, hverify, ?_,
    hcomplete, hvalid, schnorrVerify_of_valid hvalid, hextract⟩
  · rw [adaptorBaseNoncePoint]
    simp only [bind_eq_ok]
    exact ⟨_, hkey, T, (xonlyToPoint_ok curve).mpr hT, k, hbase, rfl⟩
  · obtain ⟨R, hR, hrelation⟩ := nonceRelation_holds hne hodd
    rw [verifyHostNonceRelation, publicKeyToPoint,
      fromSec1Bytes_toSec1Bytes curve (curve.smul_generator_ne_zero hk)]
    simp only [bind_eq_ok, xonlyToPoint_ok, rejectIf_eq_ok, not_not]
    exact ⟨_, rfl, T, hT, R, by rw [hr]; exact hR, h, hhost, hrelation⟩

/-- A swap on the small curve whose nonce expression is negated. -/
theorem adaptor_swap_small :
    ∃ presig signature,
      createAdaptorPresignature smallCurve (smallX 3) (smallX 9) (smallX 2)
        (Transaction.Model.zeros 16) (smallX 1) (smallX 4) = .ok presig ∧ presig.negated = true ∧
      completeAdaptorPresignature 7 presig (smallX 2) = .ok signature ∧
      extractAdaptorSecret 7 signature presig = .ok (smallX 2) := by
  have hpoint : adaptorPointFromSecret smallCurve (smallX 5) = .ok (smallX 2, smallX 2) := by
    decide
  have hnegated : (createAdaptorPresignature smallCurve (smallX 3) (smallX 9) (smallX 2)
      (Transaction.Model.zeros 16) (smallX 1) (smallX 4)).toOption.map (·.negated) = some true := by
    decide
  cases hcreate : createAdaptorPresignature smallCurve (smallX 3) (smallX 9) (smallX 2)
      (Transaction.Model.zeros 16) (smallX 1) (smallX 4) with
  | error error =>
    rw [hcreate] at hnegated
    cases hnegated
  | ok presig =>
    rw [hcreate] at hnegated
    obtain ⟨_, _, _, signature, -, -, -, -, hcomplete, -, -, hextract⟩ := adaptor_swap (by decide)
      smallCurve (smallX 3) (smallX 9) (smallX 1) (smallX 4) (smallX 5) (smallX 2) (smallX 2)
      (Transaction.Model.zeros 16) presig hpoint hcreate
    exact ⟨presig, signature, rfl, Option.some.inj hnegated, hcomplete, hextract⟩

end KaspaPortal.Guarantees
