import Mathlib.Logic.Function.Iterate
import KaspaPortal.Primitives.AddressCodec

/-!
# Addresses are canonical

Encoding and decoding an address are inverse to each other, so an address text stands for
one network, version and payload, and no other text stands for these.

The checksum is the source's own polynomial. What it detects is proved for a single
changed character; for more changes nothing is claimed.
-/
namespace KaspaPortal.Guarantees
open Lib Primitives

/-- A network with a prefix, an address type and a payload of its length. -/
structure Addressable (network : KaspaNetwork) (hrp : Bytes) (addrType : AddressType)
    (payload : Bytes) : Prop where
  hrp : network.hrp = some hrp
  length : payloadLengthForVersion addrType.version = some payload.length

theorem version_inj {addrType addrType' : AddressType} (h : addrType.version = addrType'.version) :
    addrType = addrType' := by
  cases addrType <;> cases addrType' <;> first | rfl | cases h

theorem version_of_length {version : UInt8} {length : Nat}
    (h : payloadLengthForVersion version = some length) :
    ∃ addrType : AddressType, addrType.version = version := by
  rw [payloadLengthForVersion] at h
  split at h
  case isTrue hversion =>
    rcases hversion with rfl | rfl
    · exact ⟨.p2pk, rfl⟩
    · exact ⟨.p2sh, rfl⟩
  case isFalse =>
    split at h
    case isTrue hversion => exact ⟨.p2pkEcdsa, hversion.symm⟩
    case isFalse => cases h

theorem hrp_inj {network network' : KaspaNetwork} {hrp : Bytes} (h : network.hrp = some hrp)
    (h' : network'.hrp = some hrp) : network = network' := by
  have hsame := h.trans h'.symm
  cases network <;> cases network' <;> first | rfl | exact absurd hsame (by decide)

theorem decodes_of_encodes {network : KaspaNetwork} {hrp payload addr : Bytes} {addrType : AddressType}
    (h : Addressable network hrp addrType payload)
    (hencode : encodeAddressBytes payload addrType.version hrp = some addr) :
    decodeAddressBytes addr = .ok ⟨addrType.version, payload⟩ ∧ addressPrefix addr = .ok hrp := by
  obtain ⟨data, sum, hcarries⟩ := encodeAddressBytes_eq_some.mp hencode
  have hhuman : IsPrefix hrp := ⟨network, h.hrp⟩
  exact ⟨decodeAddressBytes_ok.mpr ⟨h.length, hrp, data, sum, hhuman, hcarries⟩,
    addressPrefix_of_carries hhuman hcarries h.length⟩

theorem encodes_of_decodes {addr : Bytes} {decoded : DecodedAddress}
    (h : decodeAddressBytes addr = .ok decoded) :
    ∃ network hrp addrType, Addressable network hrp addrType decoded.payload ∧
      decoded.version = addrType.version ∧ addressPrefix addr = .ok hrp ∧
      encodeAddressBytes decoded.payload decoded.version hrp = some addr := by
  obtain ⟨hlength, hrp, data, sum, hhuman, hcarries⟩ := decodeAddressBytes_ok.mp h
  obtain ⟨network, hnetwork⟩ := hhuman
  obtain ⟨addrType, hversion⟩ := version_of_length hlength
  exact ⟨network, hrp, addrType, ⟨hnetwork, by rw [hversion]; exact hlength⟩, hversion.symm,
    addressPrefix_of_carries ⟨network, hnetwork⟩ hcarries hlength,
    encodeAddressBytes_eq_some.mpr ⟨data, sum, hcarries⟩⟩

/-- The texts the check passes are exactly the addresses that can be written. -/
theorem validateKaspaAddress_iff (addr : Bytes) :
    validateKaspaAddress addr = true ↔
      ∃ network hrp addrType payload, Addressable network hrp addrType payload ∧
        encodeAddressBytes payload addrType.version hrp = some addr := by
  rw [validateKaspaAddress]
  constructor
  · intro h
    cases hdecode : decodeAddressBytes addr with
    | error error => rw [hdecode] at h; cases h
    | ok decoded =>
      obtain ⟨network, hrp, addrType, haddressable, hversion, -, hencode⟩ := encodes_of_decodes hdecode
      exact ⟨network, hrp, addrType, decoded.payload, haddressable, hversion ▸ hencode⟩
  · intro h
    obtain ⟨network, hrp, addrType, payload, haddressable, hencode⟩ := h
    rw [(decodes_of_encodes haddressable hencode).1]
    rfl

/-- Decoding inverts encoding, encoding inverts decoding, and one text has one network,
version and payload. -/
theorem address_codec :
    (∀ network hrp addrType payload, Addressable network hrp addrType payload →
      ∃ addr, encodeAddressBytes payload addrType.version hrp = some addr ∧
        encodeAddressForNetwork payload addrType network = some addr ∧
        decodeAddressBytes addr = .ok ⟨addrType.version, payload⟩ ∧
        addressPrefix addr = .ok hrp) ∧
      (∀ addr decoded, decodeAddressBytes addr = .ok decoded →
        ∃ network hrp addrType, Addressable network hrp addrType decoded.payload ∧
          decoded.version = addrType.version ∧ addressPrefix addr = .ok hrp ∧
          encodeAddressBytes decoded.payload decoded.version hrp = some addr) ∧
      ∀ network network' hrp hrp' addrType addrType' payload payload' addr,
        Addressable network hrp addrType payload →
          Addressable network' hrp' addrType' payload' →
            encodeAddressBytes payload addrType.version hrp = some addr →
              encodeAddressBytes payload' addrType'.version hrp' = some addr →
                network = network' ∧ addrType = addrType' ∧ payload = payload' := by
  refine ⟨?_, ?_, ?_⟩
  · intro network hrp addrType payload h
    obtain ⟨addr, hcarries⟩ := carries_exists hrp payload addrType.version
    have hencode := encodeAddressBytes_eq_some.mpr hcarries
    obtain ⟨hdecode, hhuman⟩ := decodes_of_encodes h hencode
    refine ⟨addr, hencode, ?_, hdecode, hhuman⟩
    rw [encodeAddressForNetwork, h.hrp]
    dsimp only
    rw [if_neg (not_not.mpr h.length), hencode]
  · intro addr decoded hdecode
    exact encodes_of_decodes hdecode
  · intro network network' hrp hrp' addrType addrType' payload payload' addr h h' hencode hencode'
    obtain ⟨hdecode, hhuman⟩ := decodes_of_encodes h hencode
    obtain ⟨hdecode', hhuman'⟩ := decodes_of_encodes h' hencode'
    have hdecoded := Except.ok.inj (hdecode.symm.trans hdecode')
    have hsame := Except.ok.inj (hhuman.symm.trans hhuman')
    rw [DecodedAddress.mk.injEq] at hdecoded
    subst hsame
    exact ⟨hrp_inj h.hrp h'.hrp, version_inj hdecoded.1, hdecoded.2⟩

theorem address_codec_zeros :
    ∃ addr, encodeAddressBytes (List.replicate 32 0) 0x00 (ascii "kaspa") = some addr ∧
      decodeAddressBytes addr = .ok ⟨0x00, List.replicate 32 0⟩ := by
  obtain ⟨addr, hencode, -, hdecode, -⟩ := address_codec.1 .mainnet (ascii "kaspa") .p2pk
    (List.replicate 32 0) ⟨rfl, rfl⟩
  exact ⟨addr, hencode, hdecode⟩

end KaspaPortal.Guarantees

/-!
## The address checksum detects every single error

A step of the checksum is linear and injective on 40 bits, since the lowest five bits of the
generators are the five unit vectors. The difference made by one character is therefore still
there after any number of later steps.
-/
namespace KaspaPortal.Primitives
open Lib

/-- The generators are told apart by their lowest bits. -/
theorem selected_low {checksum : UInt64} (h : checksum.toNat < 2 ^ 40) :
    (selected checksum).toNat % 2 ^ 5 = (checksum >>> 35).toNat := by
  have hall : ∀ top : Fin 32,
      (GEN.zipIdx.foldl (fun (sum : UInt64) (generator : UInt64 × Nat) =>
        sum ^^^ if (UInt64.ofNat top.val >>> UInt64.ofNat generator.2) &&& 1 = 1 then generator.1
          else 0) 0).toNat % 2 ^ 5 = top.val := by
    decide
  have htop : (checksum >>> 35).toNat < 32 := by
    rw [UInt64.toNat_shiftRight]
    change checksum.toNat >>> 35 < 32
    rw [Nat.shiftRight_eq_div_pow]
    omega
  have hcase := hall ⟨(checksum >>> 35).toNat, htop⟩
  rw [UInt64.ofNat_toNat] at hcase
  exact hcase

/-- Feeding loses no difference. -/
theorem feed_ne_zero {checksum : UInt64} (hlt : checksum.toNat < 2 ^ 40) (hne : checksum ≠ 0) :
    feed checksum ≠ 0 := by
  intro hzero
  have hselected : selected checksum = (checksum &&& 0x7ffffffff) <<< 5 := by
    have hxor := congrArg (((checksum &&& 0x7ffffffff) <<< 5) ^^^ ·) hzero
    simp only [feed, ← UInt64.xor_assoc, UInt64.xor_self, UInt64.zero_xor, UInt64.xor_zero] at hxor
    exact hxor
  have htop := selected_low hlt
  rw [hselected, low_toNat, Nat.mul_mod_left] at htop
  have hsmall : checksum.toNat < 2 ^ 35 := by
    rw [UInt64.toNat_shiftRight] at htop
    change 0 = checksum.toNat >>> 35 at htop
    rw [Nat.shiftRight_eq_div_pow] at htop
    omega
  have hfed := feed_small hsmall
  rw [hzero, UInt64.toNat_zero] at hfed
  exact hne (UInt64.toNat_inj.mp (by rw [UInt64.toNat_zero]; omega))

theorem iterate_feed_ne_zero {checksum : UInt64} (hlt : checksum.toNat < 2 ^ 40)
    (hne : checksum ≠ 0) (n : Nat) : feed^[n] checksum ≠ 0 := by
  induction n generalizing checksum with
  | zero => exact hne
  | succ n ih =>
    rw [Function.iterate_succ_apply]
    exact ih (feed_lt checksum) (feed_ne_zero hlt hne)

/-- The values read after a difference carry it on. -/
theorem foldl_polymodStep_xor {values : Bytes} (h : Digits 5 values) (a b : UInt64) :
    values.foldl polymodStep a ^^^ values.foldl polymodStep b = feed^[values.length] (a ^^^ b) := by
  induction values generalizing a b with
  | nil => rfl
  | cons value values ih =>
    have hvalue := h value List.mem_cons_self
    have hcancel : feed a ^^^ value.toUInt64 ^^^ (feed b ^^^ value.toUInt64) = feed (a ^^^ b) := by
      rw [feed_xor, UInt64.xor_comm (feed b), UInt64.xor_assoc,
        ← UInt64.xor_assoc value.toUInt64, UInt64.xor_self, UInt64.zero_xor]
    rw [List.foldl_cons, List.foldl_cons, ih fun digit hdigit => h digit (List.mem_cons_of_mem _ hdigit),
      polymodStep_eq a hvalue, polymodStep_eq b hvalue, hcancel, List.length_cons,
      Function.iterate_succ_apply]

/-- Changing one value changes the checksum. -/
theorem polymod_change {front behind : Bytes} {value value' : UInt8} (hbehind : Digits 5 behind)
    (hvalue : value.toNat < 2 ^ 5) (hvalue' : value'.toNat < 2 ^ 5) (hne : value ≠ value') :
    polymod (front ++ value :: behind) ≠ polymod (front ++ value' :: behind) := by
  intro hsame
  have hdifference := foldl_polymodStep_xor hbehind (polymodStep (front.foldl polymodStep 1) value)
    (polymodStep (front.foldl polymodStep 1) value')
  have hchange : polymodStep (front.foldl polymodStep 1) value ^^^
      polymodStep (front.foldl polymodStep 1) value' = value.toUInt64 ^^^ value'.toUInt64 := by
    rw [polymodStep_eq _ hvalue, polymodStep_eq _ hvalue', UInt64.xor_comm (feed _) value.toUInt64,
      UInt64.xor_assoc, ← UInt64.xor_assoc (feed _), UInt64.xor_self, UInt64.zero_xor]
  have hlt : (value.toUInt64 ^^^ value'.toUInt64).toNat < 2 ^ 40 := by
    rw [UInt64.toNat_xor, UInt8.toNat_toUInt64, UInt8.toNat_toUInt64]
    exact Nat.xor_lt_two_pow (by omega) (by omega)
  have hdistinct : value.toUInt64 ^^^ value'.toUInt64 ≠ 0 := by
    intro hzero
    rw [UInt64.xor_eq_zero_iff, ← UInt64.toNat_inj, UInt8.toNat_toUInt64, UInt8.toNat_toUInt64]
      at hzero
    exact hne (UInt8.toNat_inj.mp hzero)
  rw [hchange] at hdifference
  apply iterate_feed_ne_zero hlt hdistinct behind.length
  rw [polymod, polymod, List.foldl_append, List.foldl_append, List.foldl_cons, List.foldl_cons]
    at hsame
  rw [← hdifference, hsame, UInt64.xor_self]

end KaspaPortal.Primitives

namespace KaspaPortal.Guarantees
open Lib Primitives

/-- A text that differs in one value fails where the text itself passes. -/
theorem verifyChecksum_change {hrp front behind : Bytes} {value value' : UInt8}
    (hvalues : Digits 5 (front ++ value :: behind)) (hvalue' : value'.toNat < 2 ^ 5)
    (hne : value ≠ value') (h : verifyChecksum hrp (front ++ value :: behind) = .ok ()) :
    verifyChecksum hrp (front ++ value' :: behind) = .error .checksumMismatch := by
  have hall := List.forall_mem_append.mp hvalues
  obtain ⟨hvalue, hbehind⟩ := List.forall_mem_cons.mp hall.2
  rw [verifyChecksum] at h ⊢
  split at h
  case isFalse => cases h
  case isTrue hone =>
    rw [if_neg]
    intro hother
    rw [← List.append_assoc] at hone hother
    exact polymod_change hbehind hvalue hvalue' hne (hone.trans hother.symm)

theorem decodeChars_split {front behind values : Bytes} {byte : UInt8}
    (h : decodeChars (front ++ byte :: behind) = .ok values) :
    ∃ frontValues value behindValues, decodeChars front = .ok frontValues ∧
      decodeChar byte = .ok value ∧ decodeChars behind = .ok behindValues ∧
        values = frontValues ++ value :: behindValues := by
  rw [decodeChars, List.mapM_append] at h
  obtain ⟨frontValues, hfront, h⟩ := bind_eq_ok.mp h
  obtain ⟨rest, hrest, h⟩ := bind_eq_ok.mp h
  rw [List.mapM_cons] at hrest
  obtain ⟨value, hvalue, hrest⟩ := bind_eq_ok.mp hrest
  obtain ⟨behindValues, hbehind, hrest⟩ := bind_eq_ok.mp hrest
  cases hrest
  cases h
  exact ⟨frontValues, value, behindValues, hfront, hvalue, hbehind, rfl⟩

theorem decodeChars_join {front behind frontValues behindValues : Bytes} {byte value : UInt8}
    (hfront : decodeChars front = .ok frontValues) (hvalue : decodeChar byte = .ok value)
    (hbehind : decodeChars behind = .ok behindValues) :
    decodeChars (front ++ byte :: behind) = .ok (frontValues ++ value :: behindValues) := by
  have hrest : (byte :: behind).mapM decodeChar = .ok (value :: behindValues) := by
    rw [List.mapM_cons]
    exact (bind_of_ok hvalue).trans (bind_of_ok hbehind)
  rw [decodeChars, List.mapM_append]
  exact (bind_of_ok hfront).trans (bind_of_ok hrest)

theorem decodeChar_charset {byte : UInt8} (h : byte ∈ CHARSET) :
    ∃ value, decodeChar byte = .ok value := by
  obtain ⟨index, hlt, hget⟩ := List.getElem_of_mem h
  obtain ⟨byte', hbyte', hfind, _⟩ := charset_index ⟨index, hlt⟩
  have hsame : byte' = byte := by
    rw [List.getElem?_eq_getElem hlt, hget] at hbyte'
    exact (Option.some.inj hbyte').symm
  refine ⟨UInt8.ofNat index, ?_⟩
  rw [decodeChar, ← hsame, hfind]

/-- Replacing any character of the data part of an accepted address by any other character of the
alphabet is refused for its checksum. -/
theorem checksum_detects {addr hrp data : Bytes} {decoded : DecodedAddress} {i : Nat}
    {byte byte' : UInt8} (h : decodeAddressBytes addr = .ok decoded)
    (hsplit : splitAddress addr = .ok (hrp, data)) (hbyte : data[i]? = some byte)
    (hbyte' : byte' ∈ CHARSET) (hne : byte ≠ byte') :
    decodeAddressBytes (hrp ++ [SEPARATOR] ++ data.set i byte') = .error .checksumMismatch := by
  obtain ⟨hhuman, hlong, _⟩ := splitAddress_ok.mp hsplit
  obtain ⟨⟨hrp', data'⟩, hsplit', h⟩ := bind_eq_ok.mp h
  cases hsplit.symm.trans hsplit'
  obtain ⟨values, hvalues, h⟩ := bind_eq_ok.mp h
  obtain ⟨_, hshort, h⟩ := bind_eq_ok.mp h
  obtain ⟨_, hsum, _⟩ := bind_eq_ok.mp h
  obtain ⟨hlt, hget⟩ := List.getElem?_eq_some_iff.mp hbyte
  have hdata : data = data.take i ++ byte :: data.drop (i + 1) := by
    rw [← hget, List.getElem_cons_drop, List.take_append_drop]
  rw [hdata] at hvalues
  obtain ⟨front, value, behind, hfront, hvalue, hbehind, rfl⟩ := decodeChars_split hvalues
  obtain ⟨value', hvalue'⟩ := decodeChar_charset hbyte'
  have hdistinct : value ≠ value' := by
    intro hsame
    rw [hsame] at hvalue
    have hchar := (decodeChar_ok hvalue).2.symm.trans (decodeChar_ok hvalue').2
    exact hne (Option.some.inj hchar)
  have hdecoded : decodeChars (data.set i byte') = .ok (front ++ value' :: behind) := by
    rw [List.set_eq_take_append_cons_drop, if_pos hlt]
    exact decodeChars_join hfront hvalue' hbehind
  have hdigits := (decodeChars_ok hvalues).1
  have hmismatch := verifyChecksum_change hdigits (decodeChar_ok hvalue').1 hdistinct hsum
  have hsplit'' : splitAddress (hrp ++ [SEPARATOR] ++ data.set i byte') =
      .ok (hrp, data.set i byte') :=
    splitAddress_ok.mpr ⟨hhuman, by rwa [List.length_set], rfl⟩
  have hlength : ¬ (front ++ value' :: behind).length ≤ CHECKSUM_LEN := by
    have hlength := rejectIf_eq_ok.mp hshort
    rwa [List.length_append, List.length_cons] at hlength ⊢
  rw [decodeAddressBytes]
  refine (bind_of_ok hsplit'').trans ((bind_of_ok hdecoded).trans ?_)
  refine (bind_of_ok (rejectIf_neg hlength)).trans ?_
  rw [hmismatch]
  rfl

theorem checksum_detects_sample :
    decodeAddressBytes (ascii "kaspa" ++ [SEPARATOR] ++
      (ascii "qqqqqqqqqqqqqqqqqqqqqqqqqqqqqqqqqqqqqqqqqqqqqqqqqqqqqkx9awp4e").set 7 0x70) =
        .error .checksumMismatch := by
  have haccepted : ∃ decoded, decodeAddressBytes
      (ascii "kaspa:qqqqqqqqqqqqqqqqqqqqqqqqqqqqqqqqqqqqqqqqqqqqqqqqqqqqqkx9awp4e") = .ok decoded :=
    ⟨⟨0, List.replicate 32 0⟩, by decide +kernel⟩
  obtain ⟨decoded, hdecoded⟩ := haccepted
  have hbyte : (ascii "qqqqqqqqqqqqqqqqqqqqqqqqqqqqqqqqqqqqqqqqqqqqqqqqqqqqqkx9awp4e")[7]? =
      some 0x71 := by
    decide
  exact checksum_detects hdecoded (by decide) hbyte (by decide) (by decide)

end KaspaPortal.Guarantees
