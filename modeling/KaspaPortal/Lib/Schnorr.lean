import Mathlib.Algebra.Field.ZMod
import Mathlib.Algebra.Module.Torsion.Field

/-!
# Signatures over a group with x-coordinates

A group of prime order whose elements other than zero are known by an x-coordinate up
to sign, with the sign read off as a parity; the verification equation of BIP340 over
it, and what it says about the nonce behind a signature.
-/
namespace KaspaPortal.Lib

/-- The x-coordinate and the parity of a point determine it, and its opposite has the
same x-coordinate and the other parity. -/
structure CurveGroup (n : Nat) (Point X : Type) [AddCommGroup Point] [Module (ZMod n) Point] where
  generator : Point
  generator_ne_zero : generator ≠ 0
  x : Point → X
  isOdd : Point → Bool
  x_neg : ∀ P, x (-P) = x P
  isOdd_neg : ∀ P, P ≠ 0 → isOdd (-P) = !isOdd P
  /-- The even point with an x-coordinate. -/
  lift : X → Option Point
  lift_eq_some : ∀ r P, lift r = some P ↔ P ≠ 0 ∧ isOdd P = false ∧ x P = r

namespace CurveGroup

variable {n : Nat} {Point X : Type} [AddCommGroup Point] [Module (ZMod n) Point]
  (curve : CurveGroup n Point X)

/-- The scalar or its opposite, whichever has an even point. -/
def normalize (k : ZMod n) : ZMod n :=
  if curve.isOdd (k • curve.generator) then -k else k

/-- The equation of BIP340: a response `s` to the challenge `e` under the key `P`, for
the nonce with x-coordinate `r`. -/
def Verifies (P : Point) (e s : ZMod n) (r : X) : Prop :=
  curve.lift r = some (s • curve.generator - e • P)

instance [DecidableEq Point] (P : Point) (e s : ZMod n) (r : X) :
    Decidable (curve.Verifies P e s r) :=
  inferInstanceAs (Decidable (_ = _))

section prime
variable [Fact n.Prime]

theorem smul_generator_ne_zero {k : ZMod n} (h : k ≠ 0) : k • curve.generator ≠ 0 := by
  intro hzero
  obtain hk | hg := smul_eq_zero.mp hzero
  · exact h hk
  · exact curve.generator_ne_zero hg

/-- A key's x-coordinate leads back to the key of the normalized secret. -/
theorem lift_x {k : ZMod n} (h : k ≠ 0) :
    curve.lift (curve.x (k • curve.generator)) = some (curve.normalize k • curve.generator) := by
  have hne := curve.smul_generator_ne_zero h
  rw [curve.lift_eq_some]
  unfold normalize
  split
  · rename_i hodd
    rw [neg_smul, curve.isOdd_neg _ hne, hodd]
    exact ⟨neg_ne_zero.mpr hne, rfl, curve.x_neg _⟩
  · rename_i hodd
    exact ⟨hne, by simpa using hodd, rfl⟩

end prime

/-- The nonce behind a signature is recovered from the response and the secret. -/
theorem Verifies.lift_nonce {d e s : ZMod n} {r : X} (h : curve.Verifies (d • curve.generator) e s r) :
    curve.lift r = some ((s - e * d) • curve.generator) := by
  rw [sub_smul, mul_smul]
  exact h

end CurveGroup

end KaspaPortal.Lib
