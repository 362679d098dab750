import KaspaPortal.Wallet.Bip32.Child

/-!
# Sealed messages

`src/crypto/ecies.rs`. AES-256-GCM and BLAKE2b-256 are given, and allocation is taken to succeed. In a group
of prime order the shared point is never zero.

Secrecy is not the subject: what is said is that an intended reader gets the message back, and when a
blob is refused for its shape.
-/
namespace KaspaPortal.Crypto.Ecies
open Lib Crypto.AntiKlepto Wallet.Bip32

/-- The tag in front of the shared coordinate. -/
def DERIVATION_DOMAIN : Bytes := ascii "KaspaPortal-ECIES-v1"

/-- AES-256-GCM without associated data: the ciphertext and its tag, and the message again. -/
structure Aead where
  encrypt : (key : FixedBytes 32) → (nonce : FixedBytes 12) → Bytes → Option (Bytes × FixedBytes 16)
  decrypt : (key : FixedBytes 32) → (nonce : FixedBytes 12) → Bytes → (tag : FixedBytes 16) → Option Bytes

/-- What was encrypted decrypts, under the same key and nonce. -/
def Aead.Opens (cipher : Aead) : Prop :=
  ∀ key nonce plaintext ciphertext tag, cipher.encrypt key nonce plaintext = some (ciphertext, tag) →
    cipher.decrypt key nonce ciphertext tag = some plaintext

theorem length_slice {bytes : Bytes} {start count : Nat} (h : start + count ≤ bytes.length) :
    ((bytes.drop start).take count).length = count := by
  rw [List.length_take, List.length_drop]
  omega

/-- `bytes[start..start + count]` -/
def slice {bytes : Bytes} (start count : Nat) (h : start + count ≤ bytes.length) : FixedBytes count :=
  ⟨(bytes.drop start).take count, length_slice h⟩

theorem rng_secret_le (rngBytes : FixedBytes 44) : 0 + 32 ≤ rngBytes.val.length := by
  rw [rngBytes.property]
  decide

theorem rng_nonce_le (rngBytes : FixedBytes 44) : 32 + 12 ≤ rngBytes.val.length := by
  rw [rngBytes.property]

section curve
variable {Point : Type} [AddCommGroup Point] [Module (ZMod ORDER) Point] (curve : Curve ORDER Point)
  (blake2b256 : Bytes → FixedBytes 32) (cipher : Aead)

/-- The even point with a coordinate, as recipients are published. -/
def liftX (xBytes : FixedBytes 32) : Option Point := curve.fromSec1Bytes (compressed 0x02 xBytes)

/-- The key that both sides hash from the shared point. -/
def aesKey (sharedPoint : Point) : FixedBytes 32 := blake2b256 (DERIVATION_DOMAIN ++ (curve.x sharedPoint).val)

/-- The wire is the ephemeral key, the nonce, the ciphertext and the tag. -/
def encrypt (recipientXonly : FixedBytes 32) (plaintext : Bytes) (rngBytes : FixedBytes 44) :
    Except String Bytes := do
  let ephScalar ← okOr "bad ephemeral key" (secretKeyFromSlice (slice 0 32 (rng_secret_le rngBytes)))
  let ephPubBytes := curve.toSec1Bytes (ephScalar • curve.generator)
  let recipientPoint ← okOr "invalid recipient pubkey" (liftX curve recipientXonly)
  let key := aesKey curve blake2b256 (ephScalar • recipientPoint)
  let nonce := slice 32 12 (rng_nonce_le rngBytes)
  let sealed ← okOr "encryption failed" (cipher.encrypt key nonce plaintext)
  return ephPubBytes.val ++ nonce.val ++ sealed.1 ++ sealed.2.val

/-- 33 bytes with the tag of a compressed or a compact point are an encoding, whether or not of a point. -/
def ephemeralPoint (ephPubBytes : FixedBytes 33) : Except String Point := do
  rejectIf (ephPubBytes.val.head? ≠ some 0x02 ∧ ephPubBytes.val.head? ≠ some 0x03 ∧
    ephPubBytes.val.head? ≠ some 0x05) "bad ephemeral pubkey"
  okOr "invalid ephemeral point" (curve.fromSec1Bytes ephPubBytes)

/-- A message behind its ephemeral key and nonce and before its tag. -/
def openWire (privateKey : FixedBytes 32) (ephPubBytes : FixedBytes 33) (nonce : FixedBytes 12)
    (ciphertext : Bytes) (tag : FixedBytes 16) : Except String Bytes := do
  let ephPoint ← ephemeralPoint curve ephPubBytes
  let privScalar ← okOr "bad private key" (secretKeyFromSlice privateKey)
  okOr "decryption failed"
    (cipher.decrypt (aesKey curve blake2b256 (privScalar • ephPoint)) nonce ciphertext tag)

theorem wire_key_le {wire : Bytes} (h : ¬wire.length < 61) : 0 + 33 ≤ wire.length := by omega

theorem wire_nonce_le {wire : Bytes} (h : ¬wire.length < 61) : 33 + 12 ≤ wire.length := by omega

theorem wire_tag_le {wire : Bytes} (h : ¬wire.length < 61) : wire.length - 16 + 16 ≤ wire.length := by omega

/-- Anything shorter than an empty message is refused before it is cut. -/
def decrypt (privateKey : FixedBytes 32) (wire : Bytes) : Except String Bytes :=
  if h : wire.length < 61 then .error "ciphertext too short"
  else
    openWire curve blake2b256 cipher privateKey (slice 0 33 (wire_key_le h)) (slice 33 12 (wire_nonce_le h))
      ((wire.drop 45).take (wire.length - 61)) (slice (wire.length - 16) 16 (wire_tag_le h))

end curve

end KaspaPortal.Crypto.Ecies
