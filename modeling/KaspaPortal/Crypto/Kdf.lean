import KaspaPortal.Lib.Bytes
import KaspaPortal.Lib.Codec
import KaspaPortal.Lib.Result
import KaspaPortal.Transaction.Model

/-!
# Password keys

`src/crypto/kdf/password.rs`: the two fixed profiles, the metadata that names them and the salt that Argon2id
is given. SHA-256 and Argon2id are parameters, and allocation is taken to succeed.

How costly a guess is depends on Argon2id and is not the subject; the workspaces and the wiping of
buffers are left out.
-/
set_option maxRecDepth 100000

namespace KaspaPortal.Crypto.Kdf
open Lib

def KDF_ID_ARGON2ID : UInt8 := 2
def ARGON2_VERSION_13 : UInt8 := 0x13
def PROFILE_VERSION_1 : UInt8 := 1
def PROFILE_VERSION_2 : UInt8 := 2
/-- The salts of the callers have this length by their type. -/
def SALT_SIZE : Nat := 16
def KEY_SIZE : Nat := 32
def MAX_PASSWORD_SIZE : Nat := 128
/-- The parameters of a derivation on the wire. -/
def METADATA_SIZE : Nat := 12
/-- The profile of the device. -/
def V1_MEMORY_KIB : UInt32 := 8192
def V1_TIME_COST : UInt32 := 3
def V1_PARALLELISM : UInt32 := 1
/-- The profile of the host, with more memory and the same passes. -/
def V2_MEMORY_KIB : UInt32 := 65536

def EFFECTIVE_SALT_DOMAIN : Bytes := ascii "KaspaPortal/Argon2id/effective-salt/v1"

/-- Every purpose has a domain of its own, so that one password gives it its own key. -/
inductive PasswordKdfPurpose where
  | portableBackup | persistentWallet | encryptedTransport | deviceBoundBackup
  deriving DecidableEq, Repr

/-- What a derivation fails with. -/
inductive PasswordKdfError where
  | invalidPasswordLength | unsupportedParameters | allocationFailed | derivationFailed
  deriving DecidableEq, Repr

/-- The cost parameters and their version. -/
structure PasswordKdfParams where
  profileVersion : UInt8
  argonVersion : UInt8
  mCostKib : UInt32
  tCost : UInt32
  pCost : UInt32
  deriving DecidableEq, Repr

def PasswordKdfPurpose.domain : PasswordKdfPurpose → Bytes
  | .portableBackup => ascii "KaspaPortal/password-kdf/portable-backup/v1"
  | .persistentWallet => ascii "KaspaPortal/password-kdf/persistent-wallet/v1"
  | .encryptedTransport => ascii "KaspaPortal/password-kdf/encrypted-transport/v1"
  | .deviceBoundBackup => ascii "KaspaPortal/password-kdf/device-bound-backup/v1"

namespace PasswordKdfParams

def current : PasswordKdfParams where
  profileVersion := PROFILE_VERSION_1
  argonVersion := ARGON2_VERSION_13
  mCostKib := V1_MEMORY_KIB
  tCost := V1_TIME_COST
  pCost := V1_PARALLELISM

def host : PasswordKdfParams :=
  { current with
    profileVersion := PROFILE_VERSION_2
    mCostKib := V2_MEMORY_KIB }

/-- All five fields must be those of the profile. -/
def isProfile (self profile : PasswordKdfParams) : Bool :=
  self.profileVersion == profile.profileVersion && self.argonVersion == profile.argonVersion &&
    self.mCostKib == profile.mCostKib && self.tCost == profile.tCost && self.pCost == profile.pCost

def isCurrent (self : PasswordKdfParams) : Bool := self.isProfile current

def isHost (self : PasswordKdfParams) : Bool := self.isProfile host

/-- The version names the one profile that the other fields must match. -/
def isSupported (self : PasswordKdfParams) : Bool :=
  if self.profileVersion = PROFILE_VERSION_1 then self.isCurrent
  else if self.profileVersion = PROFILE_VERSION_2 then self.isHost
  else false

end PasswordKdfParams

/-! ## Metadata -/

/-- The layout of the parameters. -/
def metadataBytes (parameters : PasswordKdfParams) : Bytes :=
  [KDF_ID_ARGON2ID, parameters.profileVersion, parameters.argonVersion, parameters.pCost.toUInt8] ++
    leBytes 4 parameters.mCostKib.toNat ++ leBytes 4 parameters.tCost.toNat

theorem length_metadataBytes (parameters : PasswordKdfParams) :
    (metadataBytes parameters).length = METADATA_SIZE := by
  simp [metadataBytes, METADATA_SIZE]

/-- Only the two profiles are written. -/
def encodeMetadata (parameters : PasswordKdfParams) : Except PasswordKdfError (FixedBytes METADATA_SIZE) := do
  rejectIf (parameters.isSupported = false) PasswordKdfError.unsupportedParameters
  return ⟨metadataBytes parameters, length_metadataBytes parameters⟩

/-- The fields at their offsets. -/
def metadataFields (input : Bytes) : PasswordKdfParams where
  profileVersion := input.getD 1 0
  argonVersion := input.getD 2 0
  mCostKib := UInt32.ofNat (leNat (cut input 4 8))
  tCost := UInt32.ofNat (leNat (cut input 8 12))
  pCost := (input.getD 3 0).toUInt32

/-- And only the two profiles are read. -/
def parseMetadata (input : Bytes) : Except PasswordKdfError PasswordKdfParams := do
  rejectIf (input.length ≠ METADATA_SIZE ∨ input.getD 0 0 ≠ KDF_ID_ARGON2ID)
    PasswordKdfError.unsupportedParameters
  let parameters := metadataFields input
  rejectIf (parameters.isSupported = false) PasswordKdfError.unsupportedParameters
  return parameters

/-! ## Derivation -/

/-- The domain of the purpose stands behind its length, so that it is cut off in one way only. -/
def saltMaterial (purpose : PasswordKdfPurpose) (salt : FixedBytes SALT_SIZE) : Bytes :=
  EFFECTIVE_SALT_DOMAIN ++ [UInt8.ofNat purpose.domain.length] ++ purpose.domain ++ salt.val

section derivation
variable (sha256 : Bytes → FixedBytes 32)
  (argon2id : PasswordKdfParams → Bytes → FixedBytes 32 → Option (FixedBytes KEY_SIZE))

/-- The salt that the derivation is given. -/
def deriveEffectiveSalt (purpose : PasswordKdfPurpose) (salt : FixedBytes SALT_SIZE) : FixedBytes 32 :=
  sha256 (saltMaterial purpose salt)

/-- The length of the password and the profile, before any work. -/
def validateCurrentInputs (password : Bytes) (parameters : PasswordKdfParams) : Except PasswordKdfError Unit := do
  rejectIf (password.length = 0 ∨ MAX_PASSWORD_SIZE < password.length) PasswordKdfError.invalidPasswordLength
  rejectIf (parameters.isSupported = false) PasswordKdfError.unsupportedParameters

def deriveKey32WithParams (purpose : PasswordKdfPurpose) (password : Bytes) (salt : FixedBytes SALT_SIZE)
    (parameters : PasswordKdfParams) : Except PasswordKdfError (FixedBytes KEY_SIZE) := do
  validateCurrentInputs password parameters
  okOr .derivationFailed (argon2id parameters password (deriveEffectiveSalt sha256 purpose salt))

end derivation

/-! ## What is accepted -/

/-- A profile is its five fields. -/
theorem isProfile_iff {parameters profile : PasswordKdfParams} :
    parameters.isProfile profile = true ↔ parameters = profile := by
  cases parameters
  cases profile
  simp [PasswordKdfParams.isProfile, and_assoc]

/-- Nothing between the two profiles is supported. -/
theorem isSupported_iff {parameters : PasswordKdfParams} :
    parameters.isSupported = true ↔ parameters = .current ∨ parameters = .host := by
  constructor
  · intro h
    rw [PasswordKdfParams.isSupported] at h
    split at h
    case isTrue => exact Or.inl (isProfile_iff.mp h)
    case isFalse =>
      split at h
      case isTrue => exact Or.inr (isProfile_iff.mp h)
      case isFalse => cases h
  · intro h
    obtain rfl | rfl := h
    · decide
    · decide

/-- Supported parameters read back as themselves. -/
theorem metadataFields_metadataBytes {parameters : PasswordKdfParams} (h : parameters.isSupported = true) :
    metadataFields (metadataBytes parameters) = parameters := by
  obtain rfl | rfl := isSupported_iff.mp h
  · decide
  · decide

theorem leBytes_word {word : Bytes} (h : word.length = 4) :
    leBytes 4 (UInt32.ofNat (leNat word)).toNat = word := by
  have hlt := leNat_lt word
  rw [h] at hlt
  have hbytes := leBytes_leNat word
  rw [h] at hbytes
  rw [UInt32.toNat_ofNat_of_lt' hlt, hbytes]

/-- The metadata names every byte of its string. -/
theorem metadataBytes_metadataFields {input : Bytes} (hlength : input.length = METADATA_SIZE)
    (hid : input.getD 0 0 = KDF_ID_ARGON2ID) : metadataBytes (metadataFields input) = input := by
  obtain _ | ⟨id, _ | ⟨profile, _ | ⟨argon, _ | ⟨parallel, rest⟩⟩⟩⟩ := input
  case cons.cons.cons.cons =>
    have hrest : rest.length = 8 := by
      simp only [List.length_cons, METADATA_SIZE] at hlength
      omega
    have hmemory : leBytes 4 (UInt32.ofNat (leNat (rest.take 4))).toNat = rest.take 4 :=
      leBytes_word (by rw [List.length_take, hrest]; rfl)
    have htime : leBytes 4 (UInt32.ofNat (leNat (rest.drop 4))).toNat = rest.drop 4 :=
      leBytes_word (by rw [List.length_drop, hrest])
    have hcut : cut (id :: profile :: argon :: parallel :: rest) 8 12 = rest.drop 4 := by
      change (rest.take 8).drop 4 = rest.drop 4
      rw [List.take_of_length_le (Nat.le_of_eq hrest)]
    rw [metadataBytes, metadataFields, hcut]
    change [KDF_ID_ARGON2ID, profile, argon, parallel.toUInt32.toUInt8] ++
      leBytes 4 (UInt32.ofNat (leNat (rest.take 4))).toNat ++ _ = _
    rw [hmemory, htime, UInt8.toUInt8_toUInt32, List.append_assoc, List.take_append_drop]
    exact congrArg (· :: profile :: argon :: parallel :: rest) hid.symm
  all_goals simp [METADATA_SIZE] at hlength

/-- Metadata is accepted exactly in the bytes that supported parameters are written as. -/
theorem parseMetadata_ok {input : Bytes} {parameters : PasswordKdfParams} :
    parseMetadata input = .ok parameters ↔
      parameters.isSupported = true ∧ metadataBytes parameters = input := by
  simp only [parseMetadata, bind_eq_ok, rejectIf_eq_ok, not_or, not_not, Bool.not_eq_false]
  constructor
  · intro h
    obtain ⟨_, ⟨hlength, hid⟩, _, hsupported, h⟩ := h
    cases h
    exact ⟨hsupported, metadataBytes_metadataFields hlength hid⟩
  · intro h
    obtain ⟨hsupported, rfl⟩ := h
    have hfields := metadataFields_metadataBytes hsupported
    refine ⟨(), ⟨length_metadataBytes parameters, rfl⟩, (), by rwa [hfields], ?_⟩
    rw [hfields]
    rfl

theorem encodeMetadata_ok {parameters : PasswordKdfParams} {bytes : FixedBytes METADATA_SIZE} :
    encodeMetadata parameters = .ok bytes ↔
      parameters.isSupported = true ∧ metadataBytes parameters = bytes.val := by
  simp only [encodeMetadata, bind_eq_ok, rejectIf_eq_ok, Bool.not_eq_false]
  constructor
  · intro h
    obtain ⟨_, hsupported, h⟩ := h
    cases h
    exact ⟨hsupported, rfl⟩
  · intro h
    exact ⟨(), h.1, congrArg Except.ok (Subtype.ext h.2)⟩

/-! ## Salts -/

theorem length_domain_lt (purpose : PasswordKdfPurpose) : purpose.domain.length < 256 := by
  cases purpose <;> decide

/-- The domains are distinct. -/
theorem domain_inj {purpose purpose' : PasswordKdfPurpose} (h : purpose.domain = purpose'.domain) :
    purpose = purpose' := by
  cases purpose <;> cases purpose' <;> first | rfl | exact absurd h (by decide)

/-- What is hashed names the purpose and the salt. -/
theorem saltMaterial_inj {purpose purpose' : PasswordKdfPurpose} {salt salt' : FixedBytes SALT_SIZE}
    (h : saltMaterial purpose salt = saltMaterial purpose' salt') : purpose = purpose' ∧ salt = salt' := by
  simp only [saltMaterial, List.append_assoc] at h
  have hbehind := List.append_cancel_left h
  rw [List.singleton_append, List.singleton_append, List.cons_eq_cons] at hbehind
  obtain ⟨hlength, hrest⟩ := hbehind
  have hcount := congrArg UInt8.toNat hlength
  rw [UInt8.toNat_ofNat_of_lt' (length_domain_lt purpose),
    UInt8.toNat_ofNat_of_lt' (length_domain_lt purpose')] at hcount
  obtain ⟨hdomain, hsalt⟩ := List.append_inj hrest hcount
  exact ⟨domain_inj hdomain, Subtype.ext hsalt⟩

end KaspaPortal.Crypto.Kdf

namespace KaspaPortal.Guarantees
open Lib Crypto.Kdf

/-- A collision of the two strings that are hashed for the effective salts. -/
structure SaltCollision (sha256 : Bytes → FixedBytes 32) (purpose purpose' : PasswordKdfPurpose)
    (salt salt' : FixedBytes SALT_SIZE) : Prop where
  different : saltMaterial purpose salt ≠ saltMaterial purpose' salt'
  collide : sha256 (saltMaterial purpose salt) = sha256 (saltMaterial purpose' salt')

/-- Metadata is canonical and names one of two profiles. A key is made of a password of fitting length under
such a profile, and another purpose or salt has the same effective salt exactly if its material collides. -/
theorem password_keys_canonical (sha256 : Bytes → FixedBytes 32)
    (argon2id : PasswordKdfParams → Bytes → FixedBytes 32 → Option (FixedBytes KEY_SIZE)) :
    (∀ input parameters, parseMetadata input = .ok parameters ↔
      ∃ bytes, encodeMetadata parameters = .ok bytes ∧ bytes.val = input) ∧
    (∀ input parameters, parseMetadata input = .ok parameters →
      parameters = .current ∨ parameters = .host) ∧
    (∀ purpose password salt parameters key,
      deriveKey32WithParams sha256 argon2id purpose password salt parameters = .ok key ↔
        (0 < password.length ∧ password.length ≤ MAX_PASSWORD_SIZE) ∧
          (parameters = .current ∨ parameters = .host) ∧
          argon2id parameters password (deriveEffectiveSalt sha256 purpose salt) = some key) ∧
    ∀ purpose purpose' salt salt',
      deriveEffectiveSalt sha256 purpose salt = deriveEffectiveSalt sha256 purpose' salt' ↔
        (purpose = purpose' ∧ salt = salt') ∨ SaltCollision sha256 purpose purpose' salt salt' := by
  refine ⟨?_, ?_, ?_, ?_⟩
  · intro input parameters
    rw [parseMetadata_ok]
    constructor
    · intro h
      exact ⟨⟨metadataBytes parameters, length_metadataBytes parameters⟩,
        encodeMetadata_ok.mpr ⟨h.1, rfl⟩, h.2⟩
    · intro h
      obtain ⟨bytes, hencode, rfl⟩ := h
      exact encodeMetadata_ok.mp hencode
  · intro input parameters h
    exact isSupported_iff.mp (parseMetadata_ok.mp h).1
  · intro purpose password salt parameters key
    rw [← isSupported_iff]
    simp only [deriveKey32WithParams, validateCurrentInputs, bind_eq_ok, rejectIf_eq_ok, okOr_eq_ok, not_or,
      Nat.not_lt, Bool.not_eq_false, ← Nat.pos_iff_ne_zero]
    constructor
    · intro h
      obtain ⟨_, ⟨_, hpassword, hsupported⟩, hkey⟩ := h
      exact ⟨hpassword, hsupported, hkey⟩
    · intro h
      obtain ⟨hpassword, hsupported, hkey⟩ := h
      exact ⟨(), ⟨(), hpassword, hsupported⟩, hkey⟩
  · intro purpose purpose' salt salt'
    constructor
    · intro h
      by_cases hsame : saltMaterial purpose salt = saltMaterial purpose' salt'
      · exact Or.inl (saltMaterial_inj hsame)
      · exact Or.inr ⟨hsame, h⟩
    · intro h
      obtain ⟨rfl, rfl⟩ | hcollision := h
      · rfl
      · exact hcollision.collide

end KaspaPortal.Guarantees
