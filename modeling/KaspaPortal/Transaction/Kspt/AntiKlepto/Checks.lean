import Mathlib.Data.List.Chain
import KaspaPortal.Transaction.Kspt.AntiKlepto.Host
import KaspaPortal.Transaction.Kspt.View

/-!
# What the host's checks establish

Each check of the host, as the facts its success stands for, up to the transcript as a
whole.

The parameters of the host stay parameters: a check of a signature stands for whatever
it accepts.
-/
namespace KaspaPortal.Transaction.Kspt.AntiKlepto
open Lib Primitives Model Crypto.AntiKlepto

/-! ## Order of the records -/

theorem precedes_trans {a b c : UInt32 × UInt8} (hab : precedes a b) (hbc : precedes b c) :
    precedes a c := by
  unfold precedes at *
  obtain hab | ⟨hab, hab'⟩ := hab
  · obtain hbc | ⟨hbc, _⟩ := hbc
    · exact .inl (UInt32.lt_trans hab hbc)
    · exact .inl (hbc ▸ hab)
  · obtain hbc | ⟨hbc, hbc'⟩ := hbc
    · exact .inl (hab ▸ hbc)
    · exact .inr ⟨hab.trans hbc, UInt8.lt_trans hab' hbc'⟩

theorem precedes_irrefl (a : UInt32 × UInt8) : ¬ precedes a a := by
  intro h
  obtain h | ⟨_, h⟩ := h
  · exact UInt32.lt_irrefl _ h
  · exact UInt8.lt_irrefl _ h

variable {crypto : HostCrypto}

theorem validateCommitmentOrder_eq_ok {previous : Option (UInt32 × UInt8)} {record : NonceCommitment}
    {u : Unit} :
    validateCommitmentOrder previous record = .ok u ↔ ∀ value ∈ previous, precedes value record.position := by
  unfold validateCommitmentOrder
  rw [rejectIf_eq_ok]
  constructor
  · intro h value hmem
    by_contra hnot
    exact h ⟨value, hmem, hnot⟩
  · intro h ⟨value, hmem, hnot⟩
    exact hnot (h value hmem)

theorem validateRecords_eq_ok {original : Transaction} {records : List NonceCommitment}
    {previous : Option (UInt32 × UInt8)} {u : Unit} :
    validateRecords crypto original previous records = .ok u ↔
      (previous.toList ++ records.map NonceCommitment.position).IsChain precedes ∧
      ∀ record ∈ records, validateCommitmentRecord crypto original record = .ok () := by
  induction records generalizing previous with
  | nil => cases previous <;> simp [validateRecords]
  | cons record records ih =>
    unfold validateRecords
    simp only [bind_eq_ok, validateCommitmentOrder_eq_ok, ih, List.forall_mem_cons]
    cases previous with
    | none =>
      simp only [Option.toList_none, Option.toList_some, List.nil_append, List.map_cons, List.singleton_append]
      constructor
      · intro ⟨_, _, _, hrecord, hchain, hrest⟩
        exact ⟨hchain, hrecord, hrest⟩
      · intro ⟨hchain, hrecord, hrest⟩
        exact ⟨(), nofun, (), hrecord, hchain, hrest⟩
    | some value =>
      simp only [Option.toList_some, List.singleton_append, List.map_cons, List.isChain_cons_cons]
      constructor
      · intro ⟨_, horder, _, hrecord, hchain, hrest⟩
        exact ⟨⟨horder value rfl, hchain⟩, hrecord, hrest⟩
      · intro ⟨⟨horder, hchain⟩, hrecord, hrest⟩
        exact ⟨(), fun v hv => by cases hv; exact horder, (), hrecord, hchain, hrest⟩

/-! ## One record -/

/-- The record is for a free slot of an input of the request and for one of its keys. -/
structure Committable (crypto : HostCrypto) (original : Transaction) (record : NonceCommitment) : Prop where
  input : record.inputIndex.toNat < original.inputs.length
  free : (inputAt original record.inputIndex.toNat).sigCount.toNat ≤ record.signatureSlot.toNat
  slot : record.signatureSlot.toNat < MAX_SIGS_PER_INPUT
  points : canonicalPointsAreValid crypto record = true
  allowed : pubkeyIsAllowedForInput original record.inputIndex.toNat (xonly record.publicKey) = .ok true

theorem commitmentPositionIsValid_eq_true {original : Transaction} {inputIndex slot : Nat} :
    commitmentPositionIsValid original inputIndex slot = true ↔ inputIndex < original.inputs.length ∧
      (inputAt original inputIndex).sigCount.toNat ≤ slot ∧ slot < MAX_SIGS_PER_INPUT := by
  unfold commitmentPositionIsValid inputAt
  by_cases hi : inputIndex < original.inputs.length
  · rw [List.getElem?_eq_getElem hi, Option.getD_some]
    by_cases hslot : slot < original.inputs[inputIndex].sigCount.toNat
    · simp only [hslot, if_true, Bool.false_eq_true, false_iff]
      omega
    · simp only [hslot, if_false, decide_eq_true_eq]
      omega
  · simp [hi]

theorem validateCommitmentRecord_eq_ok {original : Transaction} {record : NonceCommitment} {u : Unit} :
    validateCommitmentRecord crypto original record = .ok u ↔ Committable crypto original record := by
  unfold validateCommitmentRecord
  simp only [bind_eq_ok, rejectIf_eq_ok, not_or, Bool.not_eq_false, commitmentPositionIsValid_eq_true]
  constructor
  · intro h
    obtain ⟨_, ⟨⟨hinput, hfree, hslot⟩, hpoints⟩, allowed, hallowed, htrue⟩ := h
    exact ⟨hinput, hfree, hslot, hpoints, htrue ▸ hallowed⟩
  · intro h
    exact ⟨(), ⟨⟨h.input, h.free, h.slot⟩, h.points⟩, true, h.allowed, rfl⟩

/-! ## Added signatures -/

/-- One input's slots from the original count on are signatures. -/
structure AddsSlots (original signed : Transaction) (inputIndex : Nat) : Prop where
  grows : (inputAt original inputIndex).sigCount.toNat ≤ (inputAt signed inputIndex).sigCount.toNat
  fits : (inputAt signed inputIndex).sigCount.toNat ≤ MAX_SIGS_PER_INPUT
  present : ∀ slot, (inputAt original inputIndex).sigCount.toNat ≤ slot →
    slot < (inputAt signed inputIndex).sigCount.toNat → (slotAt signed inputIndex slot).present = true

/-- How many signatures an input got. -/
def addedHere (original signed : Transaction) (inputIndex : Nat) : Nat :=
  (inputAt signed inputIndex).sigCount.toNat - (inputAt original inputIndex).sigCount.toNat

theorem slotAt_eq_getElem {tx : Transaction} {inputIndex slot : Nat} (h : slot < MAX_SIGS_PER_INPUT) :
    (inputAt tx inputIndex).sigs.val[slot]? = some (slotAt tx inputIndex slot) := by
  have hlen := (inputAt tx inputIndex).sigs.property
  rw [slotAt, List.getElem?_eq_getElem (by omega), Option.getD_some]

theorem addedSignaturesForInput_eq_ok {original signed : Transaction} {inputIndex count : Nat} :
    addedSignaturesForInput original signed inputIndex = .ok count ↔
      AddsSlots original signed inputIndex ∧ count = addedHere original signed inputIndex := by
  have hlen := (inputAt signed inputIndex).sigs.property
  have hsize : MAX_SIGS_PER_INPUT = 5 := rfl
  -- the slots checked are those from the original count up to the new one
  have hmem : (inputAt signed inputIndex).sigCount.toNat ≤ MAX_SIGS_PER_INPUT → ∀ slot : InputSig,
      slot ∈ ((inputAt signed inputIndex).sigs.val.take (inputAt signed inputIndex).sigCount.toNat).drop
        (inputAt original inputIndex).sigCount.toNat ↔
      ∃ i, (inputAt original inputIndex).sigCount.toNat ≤ i ∧
        i < (inputAt signed inputIndex).sigCount.toNat ∧ slotAt signed inputIndex i = slot := by
    intro hfits slot
    rw [List.mem_iff_getElem?]
    constructor
    · intro h
      obtain ⟨j, hj⟩ := h
      rw [List.getElem?_drop, List.getElem?_take] at hj
      split at hj
      · rename_i hlt
        rw [slotAt_eq_getElem (by omega)] at hj
        exact ⟨_, Nat.le_add_right _ j, hlt, Option.some.inj hj⟩
      · cases hj
    · intro h
      obtain ⟨i, hle, hlt, hslot⟩ := h
      refine ⟨i - (inputAt original inputIndex).sigCount.toNat, ?_⟩
      rw [List.getElem?_drop, Nat.add_sub_cancel' hle, List.getElem?_take, if_pos hlt,
        slotAt_eq_getElem (by omega), hslot]
  unfold addedSignaturesForInput
  simp only [bind_eq_ok, rejectIf_eq_ok, not_or, Nat.not_lt]
  constructor
  · intro h
    obtain ⟨_, ⟨hgrows, hfits⟩, _, hpresent, hcount⟩ := h
    refine ⟨⟨hgrows, hfits, fun slot hle hlt => ?_⟩, ?_⟩
    · by_contra hnot
      exact hpresent ⟨_, (hmem hfits _).mpr ⟨slot, hle, hlt, rfl⟩, by simpa using hnot⟩
    · have hcount := Except.ok.inj hcount
      rw [← hcount]
      simp only [List.length_drop, List.length_take, hlen, addedHere]
      omega
  · intro h
    obtain ⟨h, hcount⟩ := h
    refine ⟨(), ⟨h.grows, h.fits⟩, (), ?_, ?_⟩
    · intro h
      obtain ⟨slot, hin, hfalse⟩ := h
      obtain ⟨i, hle, hlt, rfl⟩ := (hmem h.fits slot).mp hin
      rw [h.present i hle hlt] at hfalse
      cases hfalse
    · have hfits := h.fits
      have hleft : (((inputAt signed inputIndex).sigs.val.take
          (inputAt signed inputIndex).sigCount.toNat).drop
            (inputAt original inputIndex).sigCount.toNat).length = count := by
        simp only [List.length_drop, List.length_take, hlen, hcount, addedHere]
        omega
      rw [hleft]
      rfl

theorem addedCounts_eq_ok {original signed : Transaction} {indices : List Nat} {count : Nat} :
    addedCounts original signed indices = .ok count ↔
      (∀ i ∈ indices, AddsSlots original signed i) ∧
        count = (indices.map (addedHere original signed)).sum := by
  induction indices generalizing count with
  | nil =>
    simp only [addedCounts, List.map_nil, List.sum_nil]
    exact ⟨fun h => ⟨by simp, (Except.ok.inj h).symm⟩, fun ⟨_, h⟩ => by rw [h]⟩
  | cons i rest ih =>
    unfold addedCounts
    simp only [bind_eq_ok, addedSignaturesForInput_eq_ok, ih, List.forall_mem_cons, List.map_cons,
      List.sum_cons]
    constructor
    · intro ⟨_, ⟨hhere, hcount⟩, _, ⟨hrest, hothers⟩, hsum⟩
      rw [hcount, hothers] at hsum
      exact ⟨⟨hhere, hrest⟩, (Except.ok.inj hsum).symm⟩
    · intro ⟨⟨hhere, hrest⟩, hsum⟩
      exact ⟨_, ⟨hhere, rfl⟩, _, ⟨hrest, rfl⟩, by rw [hsum]; rfl⟩

/-- Slot `slot` of input `inputIndex` is a signature that `signed` has and `original`
has not. -/
structure Added (original signed : Transaction) (inputIndex slot : Nat) : Prop where
  input : inputIndex < signed.inputs.length
  new : (inputAt original inputIndex).sigCount.toNat ≤ slot
  declared : slot < (inputAt signed inputIndex).sigCount.toNat

/-- Where the added signatures are. -/
def addedPositions (original signed : Transaction) : List (Nat × Nat) :=
  (List.range original.inputs.length).flatMap fun inputIndex =>
    (List.range' (inputAt original inputIndex).sigCount.toNat (addedHere original signed inputIndex)).map
      (inputIndex, ·)

theorem mem_addedPositions {original signed : Transaction} (hcount : original.inputs.length = signed.inputs.length) {i slot : Nat} :
    (i, slot) ∈ addedPositions original signed ↔ Added original signed i slot := by
  simp only [addedPositions, List.mem_flatMap, List.mem_range, List.mem_map, List.mem_range'_1,
    Prod.mk.injEq, addedHere]
  constructor
  · intro ⟨j, hj, s, ⟨hle, hlt⟩, hji, hss⟩
    subst hji hss
    exact ⟨hcount ▸ hj, hle, by omega⟩
  · intro h
    have hnew := h.new
    have hdeclared := h.declared
    exact ⟨i, hcount ▸ h.input, slot, ⟨hnew, by omega⟩, rfl, rfl⟩

theorem addedPositions_length {original signed : Transaction} : (addedPositions original signed).length =
    ((List.range original.inputs.length).map (addedHere original signed)).sum := by
  simp [addedPositions, List.length_flatMap]

/-- They are listed input by input and slot by slot. -/
theorem addedPositions_ordered (original signed : Transaction) :
    (addedPositions original signed).Pairwise fun a b => a.1 < b.1 ∨ a.1 = b.1 ∧ a.2 < b.2 := by
  unfold addedPositions
  rw [List.pairwise_flatMap]
  constructor
  · intro i _
    rw [List.pairwise_map]
    exact (List.pairwise_lt_range' 1).imp fun h => .inr ⟨rfl, h⟩
  · refine List.pairwise_lt_range.imp fun {i j} hij a ha b hb => .inl ?_
    obtain ⟨_, _, rfl⟩ := List.mem_map.mp ha
    obtain ⟨_, _, rfl⟩ := List.mem_map.mp hb
    exact hij

/-! ## The transcript -/

/-- The slot's signature verifies under the script's key at its position, which is the
key of the record, and has the nonce the record commits to. -/
structure NonceChecked (crypto : HostCrypto) (signed : Transaction) (commitment : Commitment)
    (hostSecret : FixedBytes 32) (record : NonceCommitment) (actual : InputSig) : Prop where
  verified : ∃ key sighashType,
    signingPubkeyXonly signed record.inputIndex.toNat actual.pubkeyPos = .ok key ∧
    xonly record.publicKey = key ∧ SigHashType.fromByte actual.sighashType = some sighashType ∧
    crypto.schnorrVerify key (calculateSighash crypto.signingHash signed.sighashSource
      record.inputIndex.toNat sighashType) actual.signature = true
  nonce : crypto.verifyNonceRelation record.noncePoint actual.signature commitment.sessionId hostSecret
    record.inputIndex record.signatureSlot record.publicKey = true

def NonceCommitment.slotOf (record : NonceCommitment) (tx : Transaction) : InputSig :=
  slotAt tx record.inputIndex.toNat record.signatureSlot.toNat

/-- What one proof establishes about its record. -/
structure ProofHolds (crypto : HostCrypto) (original signed : Transaction) (commitment : Commitment)
    (hostSecret : FixedBytes 32) (record : NonceCommitment) (proof : SignatureProof) : Prop where
  inputIndex : record.inputIndex = proof.inputIndex
  signatureSlot : record.signatureSlot = proof.signatureSlot
  input : record.inputIndex.toNat < signed.inputs.length
  declared : record.signatureSlot.toNat < (inputAt signed record.inputIndex.toNat).sigCount.toNat
  present : (record.slotOf signed).present = true
  sighash : (record.slotOf signed).sighashType = (inputAt signed record.inputIndex.toNat).sighashType
  expected : (record.slotOf signed).sighashType = expectedAddedSighash original record.inputIndex.toNat
  checked : NonceChecked crypto signed commitment hostSecret record (record.slotOf signed)

theorem validateProofPosition_eq_ok {signed : Transaction} {record : NonceCommitment}
    {proof : SignatureProof} {u : Unit} :
    validateProofPosition signed record proof = .ok u ↔ record.inputIndex = proof.inputIndex ∧
      record.signatureSlot = proof.signatureSlot ∧ proof.inputIndex.toNat < signed.inputs.length ∧
      proof.signatureSlot.toNat < (inputAt signed proof.inputIndex.toNat).sigCount.toNat := by
  unfold validateProofPosition
  simp only [rejectIf_eq_ok, not_or, Decidable.not_not, Nat.not_le]

theorem verifyTranscriptProof_eq_ok {original signed : Transaction} {commitment : Commitment}
    {signedMessage : Signed} {hostSecret : FixedBytes 32} {index : Nat} {u : Unit} :
    verifyTranscriptProof crypto original signed commitment signedMessage hostSecret index = .ok u ↔
      ∃ record proof, commitment.records[index]? = some record ∧
        signedMessage.proofs[index]? = some proof ∧
        ProofHolds crypto original signed commitment hostSecret record proof := by
  unfold verifyTranscriptProof validateProofSignatureMetadata verifyProofSignature
  simp only [bind_eq_ok, okOr_eq_ok, validateProofPosition_eq_ok, rejectIf_eq_ok, not_or, Decidable.not_not,
    Bool.not_eq_false]
  constructor
  · intro h
    obtain ⟨record, hrecord, proof, hproof, _, ⟨hindex, hslot, hinput, hdeclared⟩, _,
      ⟨_, ⟨hpresent, hsighash, hexpected⟩, key, hkey, hxonly⟩, key', hkey', sighashType, hbyte, _, hverify,
      hnonce⟩ := h
    rw [hkey] at hkey'
    cases hkey'
    rw [← hindex] at hinput hdeclared hpresent hsighash hexpected hkey hbyte hverify hnonce
    rw [← hslot] at hdeclared hpresent hsighash hexpected hkey hbyte hverify hnonce
    exact ⟨record, proof, hrecord, hproof, ⟨hindex, hslot, hinput, hdeclared, hpresent, hsighash,
      hexpected, ⟨key, sighashType, hkey, hxonly, hbyte, hverify⟩, hnonce⟩⟩
  · intro h
    obtain ⟨record, proof, hrecord, hproof, h⟩ := h
    obtain ⟨⟨key, sighashType, hkey, hxonly, hbyte, hverify⟩, hnonce⟩ := h.checked
    refine ⟨record, hrecord, proof, hproof, ?_⟩
    rw [← h.inputIndex, ← h.signatureSlot]
    exact ⟨(), ⟨rfl, rfl, h.input, h.declared⟩, (), ⟨(), ⟨h.present, h.sighash, h.expected⟩, key, hkey,
      hxonly⟩, key, hkey, sighashType, hbyte, (), hverify, hnonce⟩

/-- What an accepted transcript establishes. -/
structure Accepted (crypto : HostCrypto) (original signed : Transaction) (commitment : Commitment)
    (signedMessage : Signed) (hostSecret : FixedBytes 32) : Prop where
  ordered : (commitment.records.map NonceCommitment.position).IsChain precedes
  committable : ∀ record ∈ commitment.records, Committable crypto original record
  session : commitment.sessionId = signedMessage.sessionId
  digest : commitment.transactionDigest = signedMessage.transactionDigest
  body : sameTransactionBody original signed = true
  proofCount : commitment.records.length = signedMessage.proofs.length
  inputCount : original.inputs.length = signed.inputs.length
  adds : ∀ i < original.inputs.length, AddsSlots original signed i
  count : ((List.range original.inputs.length).map (addedHere original signed)).sum =
    commitment.records.length
  proofs : ∀ (index : Nat) (record : NonceCommitment), commitment.records[index]? = some record →
    ∃ proof, signedMessage.proofs[index]? = some proof ∧
      ProofHolds crypto original signed commitment hostSecret record proof

theorem verifyHostTranscript_eq_ok {original signed : Transaction} {commitment : Commitment}
    {signedMessage : Signed} {hostSecret : FixedBytes 32} :
    verifyHostTranscript crypto original signed commitment signedMessage hostSecret = .ok () ↔
      Accepted crypto original signed commitment signedMessage hostSecret := by
  unfold verifyHostTranscript validateHostCommitment validateTranscriptBinding addedSignatureCount
  simp only [bind_eq_ok, validateRecords_eq_ok, validateCommitmentRecord_eq_ok, rejectIf_eq_ok, not_or,
    Decidable.not_not, Bool.not_eq_false, addedCounts_eq_ok, forM_eq_ok, verifyTranscriptProof_eq_ok,
    List.mem_range, Option.toList_none, List.nil_append]
  constructor
  · intro h
    obtain ⟨_, ⟨hordered, hcommittable⟩, _, ⟨_, ⟨hsession, hdigest⟩, _, ⟨hbody, hproofs⟩, added,
      ⟨_, hinputs, hadds, hsum⟩, hcount⟩, hholds⟩ := h
    refine ⟨hordered, hcommittable, hsession, hdigest, hbody, hproofs, hinputs, hadds, hsum ▸ hcount,
      fun index record hrecord => ?_⟩
    obtain ⟨record', proof, hrecord', hproof, h⟩ :=
      hholds index (List.getElem?_eq_some_iff.mp hrecord).1
    rw [hrecord] at hrecord'
    cases hrecord'
    exact ⟨proof, hproof, h⟩
  · intro h
    refine ⟨(), ⟨h.ordered, h.committable⟩, (), ⟨(), ⟨h.session, h.digest⟩, (), ⟨h.body, h.proofCount⟩, _,
      ⟨(), h.inputCount, h.adds, rfl⟩, h.count⟩, fun index hindex => ?_⟩
    obtain ⟨proof, hproof, hholds⟩ := h.proofs index _ (List.getElem?_eq_getElem hindex)
    exact ⟨_, proof, List.getElem?_eq_getElem hindex, hproof, hholds⟩

end KaspaPortal.Transaction.Kspt.AntiKlepto
