import KaspaPortal.Crypto.Ecies
import KaspaPortal.Guarantees.Bip32Agreement
import KaspaPortal.Privacy.Stealth

/-!
# What x-only keys are enough for

A sender lifts an x-coordinate and may hit the opposite of the owner's point. Sealed messages and stealth
payments use only the x-coordinate of the point both sides share, so neither needs to know the sign.

Nothing is said about who else could read a message or link a payment.
-/
set_option maxRecDepth 100000

/-! ## Sealed messages -/

namespace KaspaPortal.Guarantees
open Lib Crypto.AntiKlepto Crypto.Ecies Wallet.Bip32

section sealing
variable {Point : Type} [AddCommGroup Point] [Module (ZMod ORDER) Point] {curve : Curve ORDER Point}
  {blake2b256 : Bytes → FixedBytes 32} {cipher : Aead}

/-- The wire is cut where it was put together. -/
theorem decrypt_parts (privateKey : FixedBytes 32) (ephPubBytes : FixedBytes 33) (nonce : FixedBytes 12)
    (ciphertext : Bytes) (tag : FixedBytes 16) :
    Crypto.Ecies.decrypt curve blake2b256 cipher privateKey
        (ephPubBytes.val ++ nonce.val ++ ciphertext ++ tag.val) =
      openWire curve blake2b256 cipher privateKey ephPubBytes nonce ciphertext tag := by
  have hlength : (ephPubBytes.val ++ nonce.val ++ ciphertext ++ tag.val).length = ciphertext.length + 61 := by
    simp only [List.length_append, ephPubBytes.property, nonce.property, tag.property]
    omega
  have hfront : (ephPubBytes.val ++ nonce.val).length = 45 := by
    rw [List.length_append, ephPubBytes.property, nonce.property]
  rw [Crypto.Ecies.decrypt, dif_neg (by omega)]
  congr 1
  · apply Subtype.ext
    change (List.drop 0 _).take 33 = _
    rw [List.drop_zero, List.append_assoc, List.append_assoc, List.take_left' ephPubBytes.property]
  · apply Subtype.ext
    change (List.drop 33 _).take 12 = _
    rw [List.append_assoc, List.append_assoc, List.drop_left' ephPubBytes.property,
      List.take_left' nonce.property]
  · rw [hlength, List.append_assoc, List.drop_left' hfront]
    exact List.take_left' (by omega)
  · apply Subtype.ext
    change (List.drop _ _).take 16 = _
    rw [List.drop_left' (by rw [hlength, List.length_append, hfront]; omega),
      List.take_of_length_le (Nat.le_of_eq tag.property)]

theorem secretKeyFromSlice_ne_zero {bytes : FixedBytes 32} {secret : ZMod ORDER}
    (h : secretKeyFromSlice bytes = some secret) : secret ≠ 0 :=
  of_decide_eq_true (Option.filter_eq_some_iff.mp h).2

theorem ephemeralPoint_toSec1Bytes {P : Point} (h : P ≠ 0) :
    ephemeralPoint curve (curve.toSec1Bytes P) = .ok P := by
  have htag : ¬((curve.toSec1Bytes P).val.head? ≠ some 0x02 ∧ (curve.toSec1Bytes P).val.head? ≠ some 0x03 ∧
      (curve.toSec1Bytes P).val.head? ≠ some 0x05) := by
    rw [Curve.toSec1Bytes, compressed_head]
    cases curve.isOdd P with
    | true => exact fun hother => hother.2.1 rfl
    | false => exact fun hother => hother.1 rfl
  rw [ephemeralPoint, rejectIf_neg htag, Crypto.Adaptor.fromSec1Bytes_toSec1Bytes curve h]
  rfl

/-- A message sealed for the x-only key of a secret opens with the secret. -/
theorem sealed_message_opens (curve : Curve ORDER Point) (horder : HasOrder curve)
    (blake2b256 : Bytes → FixedBytes 32) (cipher : Aead) (hopens : cipher.Opens) (privateKey : FixedBytes 32)
    (secret : ZMod ORDER) (plaintext : Bytes) (rngBytes : FixedBytes 44) (wire : Bytes)
    (hkey : secretKeyFromSlice privateKey = some secret)
    (hwire : Crypto.Ecies.encrypt curve blake2b256 cipher (curve.x (secret • curve.generator)) plaintext
      rngBytes = .ok wire) :
    Crypto.Ecies.decrypt curve blake2b256 cipher privateKey wire = .ok plaintext := by
  have hpoint : ∀ {k : ZMod ORDER}, k ≠ 0 → k • curve.generator ≠ 0 := fun hk hzero => hk (horder _ hzero)
  simp only [Crypto.Ecies.encrypt, bind_eq_ok, okOr_eq_ok] at hwire
  obtain ⟨ephemeral, hephemeral, recipient, hrecipient, sealed, hsealed, hwire⟩ := hwire
  cases hwire
  rw [liftX, Curve.fromSec1Bytes, compressed_head, xonly_compressed] at hrecipient
  change curve.lift _ = _ at hrecipient
  rw [Crypto.Adaptor.lift_x_of_parity curve (hpoint (secretKeyFromSlice_ne_zero hkey))] at hrecipient
  -- Either side multiplies the generator by both secrets.
  have hshared : curve.x (ephemeral • recipient) = curve.x (secret • ephemeral • curve.generator) := by
    rw [← Option.some.inj hrecipient, Crypto.Adaptor.x_smul_sign, smul_comm]
  rw [aesKey, hshared] at hsealed
  rw [decrypt_parts, openWire, ephemeralPoint_toSec1Bytes (hpoint (secretKeyFromSlice_ne_zero hephemeral)), hkey]
  change okOr _ (cipher.decrypt (aesKey curve blake2b256 _) _ _ _) = _
  rw [aesKey, hopens _ _ _ _ _ hsealed]
  rfl

end sealing

def byteSum (data : Bytes) : UInt8 := data.foldl (· + ·) 0

/-- A stand-in for a hash: the sum of the bytes. -/
def sumHash (data : Bytes) : FixedBytes 32 := ⟨List.replicate 31 0 ++ [byteSum data], by simp⟩

def shiftOf (key : FixedBytes 32) (nonce : FixedBytes 12) : UInt8 :=
  byteSum key.val + byteSum nonce.val

/-- A cipher that adds a byte of the key and a byte of the nonce, with a tag that only they make. -/
def shiftAead : Aead where
  encrypt key nonce plaintext :=
    some (plaintext.map (· + shiftOf key nonce),
      ⟨List.replicate 15 (shiftOf key nonce) ++ [byteSum plaintext], by simp⟩)
  decrypt key nonce ciphertext tag :=
    let plaintext := ciphertext.map (· - shiftOf key nonce)
    if tag.val = List.replicate 15 (shiftOf key nonce) ++ [byteSum plaintext] then some plaintext
    else none

theorem shiftAead_opens : shiftAead.Opens := by
  intro key nonce plaintext ciphertext tag h
  cases h
  have hback : (plaintext.map (· + shiftOf key nonce)).map (· - shiftOf key nonce) = plaintext := by
    rw [List.map_map]
    exact (List.map_congr_left fun byte _ => UInt8.add_sub_cancel byte _).trans (List.map_id plaintext)
  simp only [shiftAead, hback, if_true]

/-- The ephemeral key 257 and a nonce of the bytes from 0 to 11. -/
def sampleRng : FixedBytes 44 := ⟨List.replicate 30 0 ++ [1, 1] ++ (List.range 12).map UInt8.ofNat, by simp⟩

/-- A message to the sample key. -/
theorem sealed_message_opens_cyclic :
    ∃ wire, Crypto.Ecies.encrypt cyclicCurve sumHash shiftAead
        (cyclicCurve.x (scalarOf sampleKey.key • cyclicCurve.generator)) [1, 2, 3] sampleRng = .ok wire ∧
      Crypto.Ecies.decrypt cyclicCurve sumHash shiftAead sampleKey.key wire = .ok [1, 2, 3] := by
  obtain ⟨wire, hwire⟩ := exists_ok (by decide : (Crypto.Ecies.encrypt cyclicCurve sumHash shiftAead
    (cyclicCurve.x (scalarOf sampleKey.key • cyclicCurve.generator)) [1, 2, 3] sampleRng).isOk = true)
  exact ⟨wire, hwire, sealed_message_opens cyclicCurve cyclicCurve_hasOrder sumHash shiftAead shiftAead_opens
    sampleKey.key (scalarOf sampleKey.key) [1, 2, 3] sampleRng wire
    (secretKeyFromSlice_of_valid (by decide) (by decide)) hwire⟩

end KaspaPortal.Guarantees

/-! ## Stealth payments -/

namespace KaspaPortal.Guarantees
open Lib Crypto.AntiKlepto Wallet.Bip32 Transaction.Model Transaction.Kspt Privacy.Stealth

/-- A stealth input whose key is the account's plus the tweak is signed with that key. -/
theorem signStealthInput_signs (signer : Signer) (inputIndex : Nat) (account : AccountKeys)
    (sighashType : SigHashType) (signingEntropy : Option (FixedBytes 32)) {tx : Transaction}
    {material : SigningKeyMaterial} {signature : FixedBytes 64}
    (hmaterial : account.stealthMaterial tx.stealthTweak = some material)
    (hsign : signer.signInput tx inputIndex material.privateKey sighashType signingEntropy = some signature) :
    outcome (signStealthInput signer inputIndex account (xonly material.compressedPublicKey) sighashType
        signingEntropy) tx =
      (.ok true, tx.modifyInput inputIndex fun input =>
        setSingleSignature input signature sighashType.toByte 0 material.compressedPublicKey) := by
  have hget : outcome (get : Signing Transaction) tx = (.ok tx, tx) := rfl
  have hpure (result : Except PsktError SigningKeyMaterial) :
      outcome (Effect.ofExcept result : Signing SigningKeyMaterial) tx = (result, tx) := rfl
  have hsigned : outcome (signSingle signer inputIndex material sighashType signingEntropy 0) tx =
      (.ok (), tx.modifyInput inputIndex fun input =>
        setSingleSignature input signature sighashType.toByte 0 material.compressedPublicKey) := by
    have hone : outcome (signOne signer inputIndex material.privateKey sighashType signingEntropy) tx =
        (.ok signature, tx) := by
      rw [signOne, outcome_bind, hget]
      simp only [hsign]
      rfl
    rw [signSingle, outcome_bind, hone]
    rfl
  rw [signStealthInput, outcome_bind, hget]
  simp only [hmaterial]
  rw [outcome_bind, hpure]
  simp only [okOr, ne_eq, not_true_eq_false, if_false]
  rw [outcome_bind, hsigned]
  rfl

section payment
variable {Point : Type} [AddCommGroup Point] [Module (ZMod ORDER) Point] [DecidableEq Point]
  {curve : Curve ORDER Point} {account : ExtendedPrivKey}

theorem stealthMaterial_eq (hlt : number 8 account.key.val < ORDER) {tweak : ZMod ORDER}
    (hne : curve.normalize (scalarOf account.key) • curve.generator + tweak • curve.generator ≠ 0) :
    ∃ privateKey, stealthMaterial curve account (scalarToBytes tweak) = some ⟨privateKey, curve.toSec1Bytes
      (curve.normalize (scalarOf account.key) • curve.generator + tweak • curve.generator)⟩ := by
  rw [← add_smul] at hne ⊢
  refine ⟨scalarToBytes (curve.normalize (scalarOf account.key) + tweak), ?_⟩
  rw [stealthMaterial, scalarFromCanonical_eq, if_pos hlt,
    Crypto.Adaptor.scalarFromCanonical_toBytes (by decide) tweak]
  exact if_neg hne

/-- A payment to the published keys of an account is found by the account's scan key: from the ephemeral
key it makes the view tag and the index of the payment, and the tweak with which the account signs for the
one-time key. -/
theorem stealth_payment_spendable (curve : Curve ORDER Point) (horder : HasOrder curve)
    (hmacSha512 : Bytes → Bytes → FixedBytes 64) (account : ExtendedPrivKey) (accountKey : ExtPubKey Point)
    (entropy : FixedBytes 32) (keys : StealthMeta Point) (payment : StealthPayment)
    (hpos : 0 < number 8 account.key.val) (hlt : number 8 account.key.val < ORDER)
    (hpoint : scalarOf account.key • curve.generator = accountKey.key.val)
    (hchain : account.chainCode = accountKey.chainCode)
    (hkeys : deriveStealthMeta curve hmacSha512 accountKey = .ok keys)
    (hpayment : generateStealthPayment curve keys entropy = some (.ok payment)) :
    ∃ scanKey ephemeral, [2, 0].foldlM (deriveChild curve hmacSha512) account = .ok scanKey ∧
      curve.lift payment.ephemeralPubkey = some ephemeral ∧
      let sharedX := curve.x (scalarOf scanKey.key • ephemeral)
      let tweak := scalarToBytes (stealthTweak curve sharedX 0).1
      viewTag curve sharedX = payment.viewTag ∧ (stealthTweak curve sharedX 0).2 = payment.stealthIndex ∧
        ∃ material, stealthMaterial curve account tweak = some material ∧
          xonly material.compressedPublicKey = payment.oneTimePubkey ∧
          ∀ (signer : Signer) (inputIndex : Nat) (addresses : AccountKeys) (sighashType : SigHashType)
            (signingEntropy : Option (FixedBytes 32)) (tx : Transaction) (signature : FixedBytes 64),
            addresses.stealthMaterial = stealthMaterial curve account → tx.stealthTweak = tweak →
            signer.signInput tx inputIndex material.privateKey sighashType signingEntropy = some signature →
            outcome (signStealthInput signer inputIndex addresses payment.oneTimePubkey sighashType
                signingEntropy) tx =
              (.ok true, tx.modifyInput inputIndex fun input =>
                setSingleSignature input signature sighashType.toByte 0 material.compressedPublicKey) := by
  obtain ⟨hostKey, hhost, hscan, hspend⟩ := deriveStealthMeta_ok hkeys
  obtain ⟨secret, sharedX, hephemeral, hshared, hne, rfl⟩ := generateStealthPayment_ok hpayment
  have hprivate : PrivateOf curve account (accountKey.key.val, accountKey.chainCode) :=
    ⟨hpos, hlt, hpoint.symm, hchain.symm⟩
  have hpath : ∀ index ∈ ([2, 0] : List UInt32), index < 0x80000000 := by simp
  -- Both sides derive the same scan key, one its secret and one its point.
  have hnodes : Agree (fun host key => host.key.val = scalarOf key.key • curve.generator)
      ([2, 0].foldlM (ExtPubKey.deriveChild curve hmacSha512) accountKey)
      ([2, 0].foldlM (deriveChild curve hmacSha512) account) := by
    apply (host_path hmacSha512 hpath ⟨rfl, rfl⟩).through (private_path hmacSha512 horder hpath hprivate)
    intro host key node hhost hkey
    exact hhost.point.symm.trans hkey.point
  obtain ⟨scanKey, hderived, hscanPoint⟩ := hnodes.of_ok hhost
  refine ⟨scanKey, _, hderived, Crypto.Adaptor.lift_x_of_parity curve hephemeral, ?_⟩
  have hsame : curve.x (scalarOf scanKey.key • if curve.isOdd (secret • curve.generator)
      then -(secret • curve.generator) else secret • curve.generator) = sharedX := by
    rw [Crypto.Adaptor.x_smul_sign, smul_comm, ← hscanPoint, ← hshared, hscan, Crypto.Adaptor.x_smul_sign]
  rw [hsame]
  have hspendPoint : keys.spendPubkey.val = curve.normalize (scalarOf account.key) • curve.generator := by
    rw [hspend, normalize_smul, hpoint]
  rw [hspendPoint] at hne
  obtain ⟨privateKey, hmaterial⟩ := stealthMaterial_eq hlt hne
  rw [hspendPoint]
  refine ⟨rfl, rfl, _, hmaterial, by rw [Curve.toSec1Bytes, xonly_compressed], ?_⟩
  intro signer inputIndex addresses sighashType signingEntropy tx signature haddresses htweak hsign
  have hstealth : addresses.stealthMaterial tx.stealthTweak = some ⟨privateKey, curve.toSec1Bytes
      (curve.normalize (scalarOf account.key) • curve.generator +
        (stealthTweak curve sharedX 0).1 • curve.generator)⟩ := by
    rw [haddresses, htweak, hmaterial]
  have hsigned := signStealthInput_signs signer inputIndex addresses sighashType signingEntropy hstealth hsign
  rwa [Curve.toSec1Bytes, xonly_compressed] at hsigned

end payment

/-- The cyclic curve with a hash that depends on what it is given. -/
def hashingCurve : Curve ORDER (ZMod ORDER) := { cyclicCurve with sha256 := sumHash }

theorem samplePoint_ne_zero : scalarOf sampleKey.key • hashingCurve.generator ≠ 0 := by decide

/-- The account of the sample key, as a host knows it. -/
def sampleAccount : ExtPubKey (ZMod ORDER) := ⟨⟨_, samplePoint_ne_zero⟩, sampleKey.chainCode, sampleKey.depth⟩

/-- The account of the sample key, as the device knows it. -/
def sampleAddresses : AccountKeys where
  findAddressIndexForPubkey := fun _ => none
  deriveAddressKey := fun _ => none
  deriveChangeKey := fun _ => none
  stealthMaterial := stealthMaterial hashingCurve sampleKey

/-- A signature that shows its key. -/
def keySigner : Signer :=
  ⟨fun _ _ key _ _ => some ⟨key.val ++ key.val, by rw [List.length_append, key.property]⟩, fun _ => none⟩

/-- One input, and the tweak of the payment it spends. -/
def stealthSpend (tweak : FixedBytes 32) : Transaction :=
  { Transaction.new .FORMAT with
    inputs := [TransactionInput.empty]
    hasStealthTweak := true
    stealthTweak := tweak }

/-- A payment to the sample account, signed for with the tweak its scan key finds. -/
theorem stealth_payment_spendable_cyclic :
    ∃ keys payment tweak material signature,
      deriveStealthMeta hashingCurve sampleHmac sampleAccount = .ok keys ∧
      generateStealthPayment hashingCurve keys sampleKey.key = some (.ok payment) ∧
      stealthMaterial hashingCurve sampleKey tweak = some material ∧
      xonly material.compressedPublicKey = payment.oneTimePubkey ∧
      signature.val = material.privateKey.val ++ material.privateKey.val ∧
      outcome (signStealthInput keySigner 0 sampleAddresses payment.oneTimePubkey .all none)
          (stealthSpend tweak) =
        (.ok true, (stealthSpend tweak).modifyInput 0 fun input =>
          setSingleSignature input signature SigHashType.all.toByte 0 material.compressedPublicKey) := by
  have hderived : (deriveStealthMeta hashingCurve sampleHmac sampleAccount).isOk = true := by decide
  obtain ⟨keys, hkeys⟩ := exists_ok hderived
  have hpaid : ((deriveStealthMeta hashingCurve sampleHmac sampleAccount).toOption.bind fun keys =>
      generateStealthPayment hashingCurve keys sampleKey.key).any Except.isOk = true := by decide
  rw [hkeys] at hpaid
  obtain ⟨result, hresult, hok⟩ := (Option.any_eq_true _ _).mp hpaid
  obtain ⟨payment, rfl⟩ := exists_ok hok
  obtain ⟨_, _, _, _, _, _, material, hmaterial, hkey, hsigns⟩ := stealth_payment_spendable hashingCurve
    cyclicCurve_hasOrder sampleHmac sampleKey sampleAccount sampleKey.key keys payment (by decide) (by decide)
    rfl rfl hkeys hresult
  refine ⟨keys, payment, _, material, _, hkeys, hresult, hmaterial, hkey, ?_,
    hsigns keySigner 0 sampleAddresses .all none (stealthSpend _) _ rfl rfl rfl⟩
  rfl

end KaspaPortal.Guarantees
