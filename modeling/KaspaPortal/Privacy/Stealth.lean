import KaspaPortal.Transaction.Kspt.Signing.EntryPoints
import KaspaPortal.Wallet.Multisig.Descriptor

/-!
# Stealth payments

`src/privacy/stealth/` (`keys.rs`, `derivation.rs`, `metadata.rs`, `payment.rs`): what a payer makes of
two published keys, and the key that `sign_stealth_input` of
`src/transaction/interchange/kspt/signing/multi_address.rs` signs with. A result of `none` is the
x-coordinate of the zero point, which stops the program.

The text form of the two keys, the scanner and the announcements are left out. The curve and the hash
are parameters.
-/
namespace KaspaPortal.Privacy.Stealth
open Lib Crypto.AntiKlepto Wallet.Bip32 Wallet.Multisig Transaction.Kspt

/-- The tag of the tweak. -/
def STEALTH_TAG : Bytes := ascii "KasStealth"

/-- The tag of the byte a scanner filters by. -/
def VIEW_TAG : Bytes := ascii "KasStealthViewTag"

/-- The errors of the curve library are shown as `crypto error`. -/
def scalarFromBytes (bytes : FixedBytes 32) : Except String (ZMod ORDER) :=
  okOr "Invalid scalar: crypto error" (scalarFromCanonical ORDER bytes)

theorem length_shiftedDigest (hash : FixedBytes 32) : (0 :: hash.val.take 31 : Bytes).length = 32 := by
  rw [List.length_cons, List.length_take, hash.property]
  rfl

/-- A digest that is no scalar loses its last byte, and 31 bytes are below the order. -/
def shiftedDigest (hash : FixedBytes 32) : FixedBytes 32 := ⟨0 :: hash.val.take 31, length_shiftedDigest hash⟩

/-- What a payee publishes: one key to find payments with and one to be paid to. -/
structure StealthMeta (Point : Type) [Zero Point] where
  scanPubkey : { P : Point // P ≠ 0 }
  spendPubkey : { P : Point // P ≠ 0 }

/-- What a payer announces beside the key that is paid. -/
structure StealthPayment where
  oneTimePubkey : FixedBytes 32
  ephemeralPubkey : FixedBytes 32
  stealthIndex : UInt32
  viewTag : UInt8

section curve
variable {Point : Type} [AddCommGroup Point] [Module (ZMod ORDER) Point] (curve : Curve ORDER Point)

/-- One byte of the shared secret's hash, so that a scanner can skip most payments. -/
def viewTag (sharedSecretX : FixedBytes 32) : UInt8 :=
  (curve.sha256 (VIEW_TAG ++ sharedSecretX.val)).val.headD 0

/-- The tweak, and an index that is not hardened, both from one hash. -/
def stealthTweak (sharedSecretX : FixedBytes 32) (counter : UInt32) : ZMod ORDER × UInt32 :=
  let hash := curve.sha256 (STEALTH_TAG ++ sharedSecretX.val ++ toBeBytes counter)
  let primitive := (scalarFromCanonical ORDER hash).getD (reduce ORDER (shiftedDigest hash))
  (primitive, UInt32.ofNat (leNat (hash.val.take 4).reverse) &&& 0x7fffffff)

section points
variable [DecidableEq Point]

/-- The zero point has no x-coordinate. -/
def xOnlyFromAffine (P : Point) : Option (FixedBytes 32) :=
  if P = 0 then none else some (xonly (curve.toSec1Bytes P))

/-- A published coordinate is lifted to the point with an even y. -/
def pubkeyFromXonly (bytes : Bytes) : Except String { P : Point // P ≠ 0 } :=
  if h : bytes.length = 32 then
    okOr "Invalid pubkey: crypto error" (publicKeyFromSec1 curve (compressed 0x02 ⟨bytes, h⟩))
  else .error ("xonly pubkey must be 32 bytes, got " ++ toString bytes.length)

/-- The scan key is two steps below the account, the spend key is the account's own. -/
def deriveStealthMeta (hmacSha512 : Bytes → Bytes → FixedBytes 64) (accountKey : ExtPubKey Point) :
    Except String (StealthMeta Point) := do
  let branch ← accountKey.deriveChild curve hmacSha512 2
  let scanKey ← branch.deriveChild curve hmacSha512 0
  let scanPubkey ← pubkeyFromXonly curve (scanKey.xOnlyBytes curve).val
  let spendPubkey ← pubkeyFromXonly curve (accountKey.xOnlyBytes curve).val
  return { scanPubkey, spendPubkey }

/-- The payer's side: the shared point is the ephemeral secret times the scan key, and the paid
key is the spend key plus the tweak. -/
def generateStealthPayment (keys : StealthMeta Point) (entropy : FixedBytes 32) :
    Option (Except String StealthPayment) :=
  match scalarFromBytes entropy with
  | .error error => some (.error error)
  | .ok ephemeralSecret =>
    let ephemeralPoint := ephemeralSecret • curve.generator
    if ephemeralPoint = 0 then some (.error "Bad ephemeral point: crypto error")
    else do
      let sharedX ← xOnlyFromAffine curve (ephemeralSecret • keys.scanPubkey.val)
      let (tweak, stealthIndex) := stealthTweak curve sharedX 0
      let oneTimePubkey ← xOnlyFromAffine curve (keys.spendPubkey.val + tweak • curve.generator)
      return .ok {
        oneTimePubkey
        ephemeralPubkey := xonly (curve.toSec1Bytes ephemeralPoint)
        stealthIndex
        viewTag := viewTag curve sharedX }

/-- The key of a stealth input: the account's, of the sign that makes its point even, plus the tweak. A
sum of zero, which stops the source, has no key here. -/
def stealthMaterial (accountKey : ExtendedPrivKey) (stealthTweak : FixedBytes 32) :
    Option SigningKeyMaterial := do
  let accountPrimitive ← scalarFromCanonical ORDER accountKey.key
  let tweak ← scalarFromCanonical ORDER stealthTweak
  let combinedScalar := curve.normalize accountPrimitive + tweak
  let combinedPoint := combinedScalar • curve.generator
  if combinedPoint = 0 then none
  else return ⟨scalarToBytes combinedScalar, curve.toSec1Bytes combinedPoint⟩

end points

/-! ## What the functions compute -/

variable {curve}

/-- The normalized scalar makes the even point of the two. -/
theorem normalize_smul (k : ZMod ORDER) : curve.normalize k • curve.generator =
    if curve.isOdd (k • curve.generator) then -(k • curve.generator) else k • curve.generator := by
  rw [CurveGroup.normalize]
  split
  · rw [neg_smul]
  · rfl

section points
variable [DecidableEq Point]

theorem xOnlyFromAffine_eq_some {P : Point} {x : FixedBytes 32} :
    xOnlyFromAffine curve P = some x ↔ P ≠ 0 ∧ curve.x P = x := by
  rw [xOnlyFromAffine, Curve.toSec1Bytes, xonly_compressed]
  by_cases h : P = 0
  · simp [h]
  · simp [h]

/-- A published x-coordinate is read as the even point of the two that have it. -/
theorem pubkeyFromXonly_ok {P : Point} (h : P ≠ 0) {key : { P : Point // P ≠ 0 }}
    (hkey : pubkeyFromXonly curve (xonly (curve.toSec1Bytes P)).val = .ok key) :
    key.val = if curve.isOdd P then -P else P := by
  rw [Curve.toSec1Bytes, xonly_compressed, pubkeyFromXonly, dif_pos (curve.x P).property, okOr_eq_ok,
    publicKeyFromSec1] at hkey
  have hlift : curve.fromSec1Bytes (compressed 0x02 (curve.x P)) =
      some (if curve.isOdd P then -P else P) := by
    rw [Curve.fromSec1Bytes, compressed_head, xonly_compressed]
    exact Crypto.Adaptor.lift_x_of_parity curve h
  rw [hlift] at hkey
  generalize (if curve.isOdd P then -P else P) = even at hkey ⊢
  simp only at hkey
  split at hkey
  case isTrue => exact congrArg Subtype.val (Option.some.inj hkey).symm
  case isFalse => cases hkey

/-- Both published keys are the even points of the keys they come from. -/
theorem deriveStealthMeta_ok {hmacSha512 : Bytes → Bytes → FixedBytes 64} {accountKey : ExtPubKey Point}
    {keys : StealthMeta Point} (h : deriveStealthMeta curve hmacSha512 accountKey = .ok keys) :
    ∃ scanKey, [2, 0].foldlM (ExtPubKey.deriveChild curve hmacSha512) accountKey = .ok scanKey ∧
      (keys.scanPubkey.val = if curve.isOdd scanKey.key.val then -scanKey.key.val else scanKey.key.val) ∧
      keys.spendPubkey.val =
        if curve.isOdd accountKey.key.val then -accountKey.key.val else accountKey.key.val := by
  simp only [deriveStealthMeta, bind_eq_ok] at h
  obtain ⟨branch, hbranch, scanKey, hscan, scanPubkey, hscanPubkey, spendPubkey, hspendPubkey, h⟩ := h
  cases h
  refine ⟨scanKey, ?_, ?_, ?_⟩
  · rw [List.foldlM_cons, hbranch]
    exact congrArg (· >>= pure) hscan
  · exact pubkeyFromXonly_ok scanKey.key.property hscanPubkey
  · exact pubkeyFromXonly_ok accountKey.key.property hspendPubkey

/-- What a payment holds, in terms of the ephemeral secret and the shared coordinate. -/
theorem generateStealthPayment_ok {keys : StealthMeta Point} {entropy : FixedBytes 32}
    {payment : StealthPayment} (h : generateStealthPayment curve keys entropy = some (.ok payment)) :
    ∃ (secret : ZMod ORDER) (sharedX : FixedBytes 32), secret • curve.generator ≠ 0 ∧
      curve.x (secret • keys.scanPubkey.val) = sharedX ∧
      keys.spendPubkey.val + (stealthTweak curve sharedX 0).1 • curve.generator ≠ 0 ∧
      payment = {
        oneTimePubkey := curve.x (keys.spendPubkey.val + (stealthTweak curve sharedX 0).1 • curve.generator)
        ephemeralPubkey := curve.x (secret • curve.generator)
        stealthIndex := (stealthTweak curve sharedX 0).2
        viewTag := viewTag curve sharedX } := by
  rw [generateStealthPayment] at h
  split at h
  case h_1 => cases h
  case h_2 secret hsecret =>
    simp only at h
    split at h
    case isTrue => cases h
    case isFalse hpoint =>
      simp only [Option.bind_eq_bind, Option.bind_eq_some_iff] at h
      obtain ⟨sharedX, hshared, oneTime, honeTime, h⟩ := h
      obtain ⟨hne, rfl⟩ := xOnlyFromAffine_eq_some.mp honeTime
      cases h
      refine ⟨secret, sharedX, hpoint, (xOnlyFromAffine_eq_some.mp hshared).2, hne, ?_⟩
      rw [Curve.toSec1Bytes, xonly_compressed]

end points

end curve

end KaspaPortal.Privacy.Stealth
