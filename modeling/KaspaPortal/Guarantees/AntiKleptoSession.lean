import KaspaPortal.Transaction.Kspt.AntiKlepto.Finalized
import KaspaPortal.Guarantees.AntiKleptoHost

/-!
# An honest anti-klepto session is accepted

A signer adds valid signatures, commits to their nonces, learns the host's secret and
tweaks them. The host then accepts, provided an input's first signature is
SIGHASH_ALL, which is the only type the host takes there.

The session is one run with an honest signer. What a dishonest one can get accepted
is the subject of the host's side.
-/
set_option maxRecDepth 100000

namespace KaspaPortal.Guarantees
open Lib Primitives Transaction Transaction.Model Transaction.Kspt Transaction.Kspt.AntiKlepto
  Crypto.AntiKlepto

/-! ## The body -/

section body
variable {original tx : Transaction} (hsame : SameUnsigned original tx)
include hsame

theorem same_header : sameTransactionHeader original tx = true := by
  have hwiped : sameTransactionHeader (unsigned original) (unsigned tx) =
      sameTransactionHeader original tx := by
    simp [sameTransactionHeader, unsigned]
  rw [← hwiped, hsame]
  simp [sameTransactionHeader]

theorem same_input {i : Nat} (hgrows : (inputAt original i).sigCount.toNat ≤ (inputAt tx i).sigCount.toNat) :
    sameInputBody original tx i = true := by
  have hinput := hsame.inputAt i
  have hpoint : (inputAt tx i).previousOutpoint = (inputAt original i).previousOutpoint :=
    (congrArg TransactionInput.previousOutpoint hinput :)
  have hsequence : (inputAt tx i).sequence = (inputAt original i).sequence :=
    (congrArg TransactionInput.sequence hinput :)
  have hops : (inputAt tx i).sigOpCount = (inputAt original i).sigOpCount :=
    (congrArg TransactionInput.sigOpCount hinput :)
  have hutxo : (inputAt tx i).utxoEntry = (inputAt original i).utxoEntry :=
    (congrArg TransactionInput.utxoEntry hinput :)
  have hms45 : (inputAt tx i).ms45Hint = (inputAt original i).ms45Hint :=
    (congrArg TransactionInput.ms45Hint hinput :)
  have hredeem : tx.redeemBytes i = original.redeemBytes i := by
    rw [← unsigned_redeemBytes, hsame, unsigned_redeemBytes]
  have hcount : (inputAt original i).sigCount ≤ (inputAt tx i).sigCount := UInt8.le_iff_toNat_le.mpr hgrows
  simp [sameInputBody, hpoint, hsequence, hops, hutxo, hms45, hredeem, hcount]

omit hsame in
theorem same_existing {i : Nat} (hfits : (inputAt original i).sigCount.toNat ≤ MAX_SIGS_PER_INPUT)
    (hkept : ∀ slot < (inputAt original i).sigCount.toNat, slotAt tx i slot = slotAt original i slot) :
    sameExistingSignatures original tx i = true := by
  simp only [sameExistingSignatures, List.all_eq_true, List.mem_range]
  intro slot hslot
  rw [slotAt_eq_getElem (by omega), slotAt_eq_getElem (by omega), hkept slot hslot]
  simp [sameSignatureSlot]

theorem same_body (hfits : ∀ i < original.inputs.length, SlotsFit original tx i)
    (hkept : ∀ i, ∀ slot < (inputAt original i).sigCount.toNat, slotAt tx i slot = slotAt original i slot) :
    sameTransactionBody original tx = true := by
  have houtputs : tx.outputs = original.outputs := (congrArg Transaction.outputs hsame :)
  simp only [sameTransactionBody, Bool.and_eq_true, List.all_eq_true, List.mem_range]
  refine ⟨⟨same_header hsame, fun i hi => ⟨same_input hsame (hfits i hi).1, ?_⟩⟩, fun i hi => ?_⟩
  · exact same_existing (Nat.le_trans (hfits i hi).1 (hfits i hi).2) (hkept i)
  · simp [outputAt, houtputs, sameOutputBody]

end body

/-! ## The added slots -/

section session
variable {n : Nat} {Point : Type} [AddCommGroup Point] [Module (ZMod n) Point] [DecidableEq Point]
  {curve : Curve n Point} {signingHash : Bytes → FixedBytes 32} {hostSecret : FixedBytes 32}
  {sessionId : FixedBytes SESSION_ID_LEN}

/-- The input's first signature is SIGHASH_ALL. -/
def FirstSighashAll (original provisional : Transaction) : Prop :=
  ∀ i, (inputAt original i).sigCount.toNat = 0 → (inputAt provisional i).sigCount.toNat ≠ 0 →
    (inputAt provisional i).sighashType = SigHashType.all.toByte

/-- The tweaked signature verifies, and its nonce is the committed one moved by the host's
scalar. -/
structure MovedNonce (curve : Curve n Point) (signingHash : Bytes → FixedBytes 32)
    (hostSecret : FixedBytes 32) (commitment : Commitment) (final : Transaction)
    (record : NonceCommitment) : Prop where
  verifies : ∃ sighashType, SigHashType.fromByte (record.slotOf final).sighashType = some sighashType ∧
    curve.schnorrVerify (xonly record.publicKey) (calculateSighash signingHash final.sighashSource
      record.inputIndex.toNat sighashType) (record.slotOf final).signature = true
  nonce : ∃ R h, curve.lift (xonly record.noncePoint) = some R ∧
    curve.hostScalar commitment.sessionId hostSecret record.inputIndex record.signatureSlot record.publicKey
      record.noncePoint = .ok h ∧
    rBytes (record.slotOf final).signature = curve.x (R + h • curve.generator)

theorem addedPositions_congr {original tx tx' : Transaction}
    (h : ∀ i, (inputAt tx' i).sigCount = (inputAt tx i).sigCount) :
    addedPositions original tx' = addedPositions original tx := by
  simp only [addedPositions, addedHere, h]

theorem mem_addedPositions_iff {original tx : Transaction} (hlen : tx.inputs.length = original.inputs.length)
    {i slot : Nat} : (i, slot) ∈ addedPositions original tx ↔ Added original tx i slot :=
  mem_addedPositions hlen.symm

/-- The key behind a compressed key, and its x-coordinate. -/
theorem compressedPubkey_normalized {privateKey : FixedBytes 32} {key : FixedBytes 33}
    (h : compressedPubkeyFromRawKey curve privateKey = some key) :
    ∃ secret, curve.normalizedSecretAndPublicX privateKey = .ok (secret, xonly key) := by
  unfold compressedPubkeyFromRawKey at h
  split at h
  · cases h
  rename_i raw hraw
  split at h
  · cases h
  rename_i hne
  cases h
  exact ⟨_, curve.normalizedSecretAndPublicX_eq_ok.mpr ⟨raw, hraw, hne, rfl, by simp [Curve.toSec1Bytes]⟩⟩

theorem verifyNonceRelation_eq_ok {noncePoint publicKey : FixedBytes 33} {signature : FixedBytes 64}
    {inputIndex : UInt32} {signatureSlot : UInt8}
    (h : curve.verifyNonceRelation noncePoint signature sessionId hostSecret inputIndex signatureSlot
      publicKey = .ok ()) :
    ∃ R s, curve.lift (xonly noncePoint) = some R ∧
      curve.hostScalar sessionId hostSecret inputIndex signatureSlot publicKey noncePoint = .ok s ∧
      rBytes signature = curve.x (R + s • curve.generator) := by
  unfold Curve.verifyNonceRelation at h
  simp only [bind_eq_ok, rejectIf_eq_ok, okOr_eq_ok, not_or, Decidable.not_not] at h
  obtain ⟨_, ⟨_, htag⟩, R, hR, _, _, s, hs, ⟨x, odd⟩, hpoint, hx⟩ := h
  obtain ⟨_, hpointx, _⟩ := curve.pointXAndParity_eq_some.mp hpoint
  refine ⟨R, s, ?_, hs, hx ▸ hpointx⟩
  simpa [Curve.fromSec1Bytes, htag] using hR

/-- What a slot has after the tweak of a valid provisional signature. -/
structure FinalSlot (curve : Curve n Point) (signingHash : Bytes → FixedBytes 32)
    (sessionId : FixedBytes SESSION_ID_LEN) (hostSecret : FixedBytes 32) (original : Transaction)
    (i slot : Nat) (old new : InputSig) : Prop where
  rest : new = { old with signature := new.signature }
  key : (curve.lift (xonly old.pubkeyCompressed)).isSome = true
  noncePoint : (curve.lift (rBytes old.signature)).isSome = true
  verifies : ∃ sighashType, SigHashType.fromByte old.sighashType = some sighashType ∧
    curve.schnorrVerify (xonly old.pubkeyCompressed)
      (calculateSighash signingHash original.sighashSource i sighashType) new.signature = true
  relation : curve.verifyNonceRelation (provisionalNoncePoint old.signature) new.signature sessionId
    hostSecret (UInt32.ofNat i) (UInt8.ofNat slot) (compressed 0x02 (xonly old.pubkeyCompressed)) = .ok ()

theorem finalSlot_of_tweaked [Fact n.Prime] {original provisional : Transaction} {i slot : Nat}
    {old new : InputSig} (hsame : SameUnsigned original provisional)
    (hvalid : ValidProvisional (.ofCurve curve signingHash) original i old)
    (htweaked : Tweaked curve signingHash sessionId hostSecret provisional i slot old new) :
    FinalSlot curve signingHash sessionId hostSecret original i slot old new := by
  obtain ⟨privateKey, sighashType, signature, hkey, hbyte, htweak, hnew⟩ := htweaked.congr hsame
  obtain ⟨secret, hsecret⟩ := compressedPubkey_normalized hkey
  obtain ⟨sighashType', hbyte', hverify⟩ := hvalid.verifies
  rw [hbyte] at hbyte'
  cases hbyte'
  have hverify : curve.schnorrVerify (xonly old.pubkeyCompressed)
      (calculateSighash signingHash original.sighashSource i sighashType) old.signature = true := hverify
  obtain ⟨hfinal, hrelation⟩ := curve.tweakProvisionalSignature_relation hsecret hverify htweak
  obtain ⟨P, s, hP, _, _, hnonce⟩ := curve.schnorrVerify_eq_true.mp hverify
  rw [hnew]
  refine ⟨rfl, ?_, ?_, ⟨sighashType, hbyte, hfinal⟩, hrelation⟩
  · rw [hP]
    rfl
  · rw [hnonce]
    rfl

/-! ## The session -/

/-- A session in progress: what the signer added, what the finalizer made of it. -/
structure Session (curve : Curve n Point) (signingHash : Bytes → FixedBytes 32)
    (hostSecret : FixedBytes 32) (original provisional final : Transaction) (commitment : Commitment) :
    Prop where
  first : FirstSighashAll original provisional
  same : SameUnsigned original provisional
  inputs : ∀ i, InputExtends (.ofCurve curve signingHash) original provisional i
  records : commitment.records = (addedPositions original provisional).map fun p =>
    commitmentOf p.1 p.2 (slotAt provisional p.1 p.2)
  present : ∀ p ∈ addedPositions original provisional,
    (slotAt provisional p.1 p.2).present = true ∧ p.1 < 2 ^ 32
  finalized : FinalizedAt curve signingHash commitment.sessionId hostSecret
    (addedPositions original provisional) provisional final
  fits : ∀ i < provisional.inputs.length, (inputAt provisional i).sigCount.toNat ≤ MAX_SIGS_PER_INPUT

namespace Session

variable {original provisional final : Transaction} {commitment : Commitment}
  (s : Session curve signingHash hostSecret original provisional final commitment)
include s

theorem final_same : SameUnsigned original final := Eq.trans s.finalized.same s.same

theorem added_bounds {i slot : Nat} (h : (i, slot) ∈ addedPositions original provisional) :
    Added original provisional i slot ∧ slot < MAX_SIGS_PER_INPUT ∧ (UInt32.ofNat i).toNat = i ∧
      (UInt8.ofNat slot).toNat = slot := by
  have hadded := (mem_addedPositions_iff s.same.length).mp h
  have hfits := s.fits i hadded.input
  have hdeclared := hadded.declared
  have hsize : MAX_SIGS_PER_INPUT = 5 := rfl
  have hi := (s.present _ h).2
  refine ⟨hadded, by omega, ?_, ?_⟩
  · rw [UInt32.toNat_ofNat', Nat.mod_eq_of_lt hi]
  · rw [UInt8.toNat_ofNat', Nat.mod_eq_of_lt (by omega)]

theorem slotsFit {i : Nat} (hi : i < original.inputs.length) : SlotsFit original final i := by
  simp only [SlotsFit, s.finalized.counts]
  exact ⟨(s.inputs i).grows, s.fits i (s.same.length ▸ hi)⟩

theorem kept (i slot : Nat) (h : slot < (inputAt original i).sigCount.toNat) :
    slotAt final i slot = slotAt original i slot := by
  rw [s.finalized.kept i slot, (s.inputs i).kept slot h]
  intro hmem
  have hnew := ((mem_addedPositions_iff s.same.length).mp hmem).new
  omega

theorem finalSlot [Fact n.Prime] {i slot : Nat} (h : (i, slot) ∈ addedPositions original provisional) :
    FinalSlot curve signingHash commitment.sessionId hostSecret original i slot (slotAt provisional i slot)
      (slotAt final i slot) := by
  obtain ⟨hadded, _⟩ := s.added_bounds h
  exact finalSlot_of_tweaked s.same ((s.inputs i).added slot hadded.new hadded.declared).1
    (s.finalized.tweaked i slot h)

theorem ordered : (commitment.records.map NonceCommitment.position).IsChain precedes := by
  have : Trans precedes precedes precedes := ⟨precedes_trans⟩
  rw [List.isChain_iff_pairwise, s.records, List.map_map, List.pairwise_map]
  refine (addedPositions_ordered original provisional).imp_of_mem fun {a b} ha hb hab => ?_
  obtain ⟨_, _, ha1, ha2⟩ := s.added_bounds ha
  obtain ⟨_, _, hb1, hb2⟩ := s.added_bounds hb
  simp only [Function.comp_apply, NonceCommitment.position, commitmentOf, precedes, UInt32.lt_iff_toNat_lt,
    UInt8.lt_iff_toNat_lt, ha1, ha2, hb1, hb2]
  obtain hab | ⟨heq, hab⟩ := hab
  · exact .inl hab
  · exact .inr ⟨by rw [heq], hab⟩

theorem committable [Fact n.Prime] {i slot : Nat} (h : (i, slot) ∈ addedPositions original provisional) :
    Committable (.ofCurve curve signingHash) original (commitmentOf i slot (slotAt provisional i slot)) := by
  obtain ⟨hadded, hslot, hi, hs⟩ := s.added_bounds h
  have hfinal := s.finalSlot h
  have hvalid := ((s.inputs i).added slot hadded.new hadded.declared).1
  refine ⟨?_, ?_, ?_, ?_, ?_⟩
  · simp only [commitmentOf, hi]
    exact s.same.length ▸ hadded.input
  · simp only [commitmentOf, hi, hs]
    exact hadded.new
  · simp only [commitmentOf, hs]
    exact hslot
  · simp only [canonicalPointsAreValid, commitmentOf, HostCrypto.ofCurve, provisionalNoncePoint,
      curve.fromSec1Bytes_even, hfinal.key, hfinal.noncePoint, compressed_head]
    rfl
  · simp only [commitmentOf, hi, xonly_compressed]
    exact pubkeyIsAllowed_of_signing hvalid.key

theorem addsSlots {i : Nat} (hi : i < original.inputs.length) : AddsSlots original final i := by
  obtain ⟨hgrows, hfits⟩ := s.slotsFit hi
  refine ⟨hgrows, hfits, fun slot hle hlt => ?_⟩
  rw [s.finalized.counts] at hlt
  have hmem : (i, slot) ∈ addedPositions original provisional :=
    (mem_addedPositions_iff s.same.length).mpr ⟨s.same.length ▸ hi, hle, hlt⟩
  obtain ⟨_, _, _, _, _, _, hnew⟩ := s.finalized.tweaked i slot hmem
  rw [hnew]
  exact (s.present _ hmem).1

theorem proofHolds [Fact n.Prime] {i slot : Nat} (h : (i, slot) ∈ addedPositions original provisional) :
    ProofHolds (.ofCurve curve signingHash) original final commitment hostSecret
      (commitmentOf i slot (slotAt provisional i slot)) ⟨UInt32.ofNat i, UInt8.ofNat slot⟩ := by
  obtain ⟨hadded, _, hi, hs⟩ := s.added_bounds h
  obtain ⟨hvalid, hsighash⟩ := (s.inputs i).added slot hadded.new hadded.declared
  have hfinal := s.finalSlot h
  have hslot : (commitmentOf i slot (slotAt provisional i slot)).slotOf final =
      { slotAt provisional i slot with signature := (slotAt final i slot).signature } := by
    simp only [NonceCommitment.slotOf, commitmentOf, hi, hs]
    exact hfinal.rest
  have hexpected : (slotAt provisional i slot).sighashType = expectedAddedSighash original i := by
    rw [hsighash]
    unfold expectedAddedSighash
    simp only
    split
    · rename_i hzero
      have hzero : (inputAt original i).sigCount.toNat = 0 := by rw [hzero]; rfl
      exact s.first i hzero (by have := hadded.declared; omega)
    · rename_i hne
      exact (s.inputs i).sighash fun hzero => hne (UInt8.toNat.inj hzero)
  obtain ⟨sighashType, hbyte, hverify⟩ := hfinal.verifies
  refine ⟨rfl, rfl, ?_, ?_, ?_, ?_, ?_, ?_, ?_⟩
  · simp only [commitmentOf, hi]
    exact s.finalized.same.length ▸ hadded.input
  · simp only [commitmentOf, hi, hs, s.finalized.counts]
    exact hadded.declared
  · rw [hslot]
    exact (s.present _ h).1
  · rw [hslot]
    simp only [commitmentOf, hi, s.finalized.sighash]
    exact hsighash
  · rw [hslot]
    simp only [commitmentOf, hi]
    exact hexpected
  · rw [hslot]
    refine ⟨xonly (slotAt provisional i slot).pubkeyCompressed, sighashType, ?_, ?_, hbyte, ?_⟩
    · simp only [commitmentOf, hi, s.final_same.signingPubkeyXonly]
      exact hvalid.key
    · simp only [commitmentOf, xonly_compressed]
    · simp only [commitmentOf, hi, s.final_same.sighashSource]
      exact hverify
  · rw [hslot]
    simp only [commitmentOf, HostCrypto.ofCurve]
    rw [hfinal.relation]
    rfl

/-- Every record comes from an added slot. -/
theorem record_source {index : Nat} {record : NonceCommitment} (h : commitment.records[index]? = some record) :
    ∃ i slot, (addedPositions original provisional)[index]? = some (i, slot) ∧
      record = commitmentOf i slot (slotAt provisional i slot) := by
  rw [s.records, List.getElem?_map, Option.map_eq_some_iff] at h
  obtain ⟨⟨i, slot⟩, hp, hrecord⟩ := h
  exact ⟨i, slot, hp, hrecord.symm⟩

/-- The proofs of the finalized transaction. -/
theorem proofRecords_final : proofRecords final (initialSignatureCounts original) =
    .ok ((addedPositions original provisional).map fun p => ⟨UInt32.ofNat p.1, UInt8.ofNat p.2⟩) := by
  refine (records_eq_ok proofRecord_eq_ok s.final_same.length).mpr ⟨fun i hi => ?_, ?_, ?_, ?_⟩
  · exact s.slotsFit (s.final_same.length ▸ hi)
  · intro ⟨i, slot⟩ hmem
    rw [addedPositions_congr s.finalized.counts] at hmem
    obtain ⟨_, _, _, _, _, _, hnew⟩ := s.finalized.tweaked i slot hmem
    rw [hnew]
    exact s.present _ hmem
  · rw [addedPositions_congr s.finalized.counts]
  · intro hnil
    apply commitment.nonempty
    rw [s.records, List.map_eq_nil_iff.mp hnil]
    rfl

theorem accepted [Fact n.Prime] (signedMessage : Signed)
    (hsession : commitment.sessionId = signedMessage.sessionId)
    (hdigest : commitment.transactionDigest = signedMessage.transactionDigest)
    (hproofs : signedMessage.proofs =
      (addedPositions original provisional).map fun p => ⟨UInt32.ofNat p.1, UInt8.ofNat p.2⟩) :
    Accepted (.ofCurve curve signingHash) original final commitment signedMessage hostSecret := by
  refine ⟨s.ordered, fun record hmem => ?_, hsession, hdigest, ?_, ?_, s.final_same.length.symm,
    fun i hi => s.addsSlots hi, ?_, fun index record hindex => ?_⟩
  · obtain ⟨index, hindex⟩ := List.mem_iff_getElem?.mp hmem
    obtain ⟨i, slot, hp, hrecord⟩ := s.record_source hindex
    rw [hrecord]
    exact s.committable (List.mem_of_getElem? hp)
  · exact same_body s.final_same (fun i hi => s.slotsFit hi) fun i => s.kept i
  · rw [hproofs, s.records, List.length_map, List.length_map]
  · rw [← addedPositions_length, addedPositions_congr s.finalized.counts, s.records, List.length_map]
  · obtain ⟨i, slot, hp, hrecord⟩ := s.record_source hindex
    refine ⟨⟨UInt32.ofNat i, UInt8.ofNat slot⟩, ?_, ?_⟩
    · rw [hproofs, List.getElem?_map, hp, Option.map_some]
    · rw [hrecord]
      exact s.proofHolds (List.mem_of_getElem? hp)

end Session

end session

/-- The host accepts the transcript of an honest session, whatever the keys and the host's
secret, and every signature of it has the committed nonce moved by the host's scalar. -/
theorem anti_klepto_completes {n : Nat} {Point : Type} [AddCommGroup Point] [Module (ZMod n) Point]
    [DecidableEq Point] [Fact n.Prime] (curve : Curve n Point) (signingHash : Bytes → FixedBytes 32)
    (resolve : Resolver) (hostSecret : FixedBytes 32) (original provisional final : Transaction)
    (changed : Nat) (commitment : Commitment) (hresolve : Resolves curve resolve)
    (hsigns : Signs (.ofCurve curve signingHash) original provisional)
    (hfirst : FirstSighashAll original provisional)
    (hcommitment : nonceCommitmentRecords provisional (initialSignatureCounts original) =
      .ok commitment.records)
    (hfinal : finalizeMatching curve signingHash commitment.sessionId hostSecret resolve provisional
      (initialSignatureCounts original) = .ok (final, changed)) :
    ∃ signedMessage : Signed,
      proofRecords final (initialSignatureCounts original) = .ok signedMessage.proofs ∧
      signedMessage.sessionId = commitment.sessionId ∧
      signedMessage.transactionDigest = commitment.transactionDigest ∧
      verifyHostTranscript (.ofCurve curve signingHash) original final commitment signedMessage hostSecret =
        .ok () ∧
      ∀ record ∈ commitment.records, MovedNonce curve signingHash hostSecret commitment final record := by
  obtain ⟨hsame, hextends⟩ := hsigns.extends
  obtain ⟨_, hgood, hrecords, _⟩ := (records_eq_ok commitmentRecord_eq_ok hsame.length).mp hcommitment
  obtain ⟨hfinalized, hfits⟩ := finalizeMatching_finalized hresolve hsame.length hfinal
  have s : Session curve signingHash hostSecret original provisional final commitment :=
    ⟨hfirst, hsame, hextends, hrecords, fun p hp => ⟨(hgood p hp).1, (hgood p hp).2.2⟩, hfinalized, hfits⟩
  have hnonempty : ((addedPositions original provisional).map fun p =>
      (⟨UInt32.ofNat p.1, UInt8.ofNat p.2⟩ : SignatureProof)) ≠ [] := by
    intro hnil
    apply commitment.nonempty
    rw [s.records, List.map_eq_nil_iff.mp hnil]
    rfl
  have haccepted := s.accepted ⟨commitment.sessionId, commitment.transactionDigest, _, hnonempty⟩ rfl rfl rfl
  refine ⟨_, s.proofRecords_final, rfl, rfl, verifyHostTranscript_eq_ok.mpr haccepted, fun record hmem => ?_⟩
  obtain ⟨index, hindex⟩ := List.mem_iff_getElem?.mp hmem
  obtain ⟨_, _, hproof⟩ := haccepted.proofs index record hindex
  obtain ⟨key, sighashType, _, hkey, hbyte, hverify⟩ := hproof.checked.verified
  refine ⟨⟨sighashType, hbyte, hkey ▸ hverify⟩, verifyNonceRelation_eq_ok ?_⟩
  obtain ⟨u, hu⟩ := exists_ok hproof.checked.nonce
  exact hu

/-! ## A session on the small curve -/

/-- A request to spend one output of the key `1`. -/
def smallRequest : Transaction :=
  { Transaction.new .FORMAT with
    network := .testnet
    inputs := [{ TransactionInput.empty with utxoEntry := ⟨1000, ⟨0, smallKeyScript⟩⟩ }]
    outputs := [{ TransactionOutput.empty with value := 900, scriptPublicKey := ⟨0, smallKeyScript⟩ }] }

/-- A provisional signature of the key, for a sighash type and with a nonce. -/
def smallSig (sighashType : SigHashType) (r : UInt8) : InputSig :=
  ⟨signatureOf (smallX r) (smallX 2), sighashType.toByte, 0, true, compressed 2 (smallX 1)⟩

/-- The request with that signature. -/
def smallProvisional (sig : InputSig) : Transaction :=
  smallRequest.modifyInput 0 fun _ => AntiKlepto.setSingleSignature (inputAt smallRequest 0) sig.signature sig.sighashType
    sig.pubkeyPos sig.pubkeyCompressed

def smallResolver : Resolver := rawKeyResolver (smallX 1) (compressed 2 (smallX 1))

theorem smallResolver_resolves : Resolves smallCurve smallResolver := by
  have hkey : AntiKlepto.compressedPubkeyFromRawKey smallCurve (smallX 1) = some (compressed 2 (smallX 1)) := by
    decide
  exact rawKeyResolver_resolves hkey

theorem smallProvisional_signs {sig : InputSig} (hvalid : ValidProvisional smallCrypto smallRequest 0 sig) :
    Signs smallCrypto smallRequest (smallProvisional sig) :=
  .add (.done _) rfl hvalid (.inr ⟨rfl, rfl⟩)

def smallFinal (sig : InputSig) : Except PsktError (Transaction × Nat) :=
  finalizeMatching smallCurve smallHash (zeros 16) (smallX 4) smallResolver (smallProvisional sig)
    (initialSignatureCounts smallRequest)

/-- The commitment to the nonce of the signature. -/
def smallSessionCommitment (r : UInt8) : Commitment where
  sessionId := zeros 16
  transactionDigest := zeros 32
  records := [⟨0, 0, compressed 2 (smallX 1), compressed 2 (smallX r)⟩]
  nonempty := by simp

theorem smallSig_all_valid : ValidProvisional smallCrypto smallRequest 0 (smallSig .all 1) :=
  ⟨by decide, .all, rfl, by decide⟩

theorem smallSig_none_valid : ValidProvisional smallCrypto smallRequest 0 (smallSig .none 3) :=
  ⟨by decide, .none, rfl, by decide⟩

theorem anti_klepto_completes_small : ∃ final changed signedMessage,
    smallFinal (smallSig .all 1) = .ok (final, changed) ∧
    verifyHostTranscript smallCrypto smallRequest final (smallSessionCommitment 1) signedMessage (smallX 4) =
      .ok () := by
  obtain ⟨⟨final, changed⟩, hfinal⟩ : ∃ result, smallFinal (smallSig .all 1) = .ok result :=
    exists_ok (by decide)
  have hfirst : FirstSighashAll smallRequest (smallProvisional (smallSig .all 1)) := by
    intro i _ hne
    cases i with
    | zero => rfl
    | succ i => exact absurd rfl hne
  obtain ⟨signedMessage, _, _, _, hverify, _⟩ := anti_klepto_completes smallCurve smallHash smallResolver
    (smallX 4) smallRequest _ final changed (smallSessionCommitment 1) smallResolver_resolves
    (smallProvisional_signs smallSig_all_valid) hfirst (by decide) hfinal
  exact ⟨final, changed, signedMessage, hfinal, hverify⟩

/-- The signer may sign with any sighash type and the finalizer takes it; the host refuses
an input's first signature that is not SIGHASH_ALL. -/
theorem anti_klepto_other_sighash_refused : ¬ ∀ (resolve : Resolver) (hostSecret : FixedBytes 32)
    (original provisional final : Transaction) (changed : Nat) (commitment : Commitment),
    Resolves smallCurve resolve → Signs smallCrypto original provisional →
    nonceCommitmentRecords provisional (initialSignatureCounts original) = .ok commitment.records →
    finalizeMatching smallCurve smallHash commitment.sessionId hostSecret resolve provisional
      (initialSignatureCounts original) = .ok (final, changed) →
    ∃ signedMessage : Signed,
      proofRecords final (initialSignatureCounts original) = .ok signedMessage.proofs ∧
      verifyHostTranscript smallCrypto original final commitment signedMessage hostSecret = .ok () := by
  intro hclaim
  obtain ⟨⟨final, changed⟩, hfinal⟩ : ∃ result, smallFinal (smallSig .none 3) = .ok result :=
    exists_ok (by decide)
  obtain ⟨signedMessage, _, hverify⟩ := hclaim smallResolver (smallX 4) smallRequest _ final changed
    (smallSessionCommitment 3) smallResolver_resolves (smallProvisional_signs smallSig_none_valid)
    (by decide) hfinal
  obtain ⟨_, _, hproof⟩ := (verifyHostTranscript_eq_ok.mp hverify).proofs 0 _ rfl
  have hbyte : (smallFinal (smallSig .none 3)).map (fun result => (slotAt result.1 0 0).sighashType) =
      .ok SigHashType.none.toByte := by
    decide
  rw [hfinal] at hbyte
  have hexpected : (slotAt final 0 0).sighashType = SigHashType.all.toByte := hproof.expected
  exact absurd ((Except.ok.inj hbyte).symm.trans hexpected) (by decide)

end KaspaPortal.Guarantees
