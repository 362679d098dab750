import KaspaPortal.Transaction.Kspt.AntiKlepto.Checks

/-!
# What the host's acceptance of an anti-klepto transcript means

Every added signature is covered by a record: the host never looks for a signature
without one, it only counts. The comparison of the two transactions leaves two fields
of an input out, and it is complete exactly when these agree.

The signature check and the nonce relation are parameters; what a passed check means
is taken from them and not from the curve.
-/
namespace KaspaPortal.Guarantees
open Lib Primitives Transaction Transaction.Model Transaction.Kspt Transaction.Kspt.AntiKlepto
  Crypto.AntiKlepto

variable {crypto : HostCrypto} {original signed : Transaction} {commitment : Commitment}
  {signedMessage : Signed} {hostSecret : FixedBytes 32}

/-! ## A small curve -/

/-- An x-coordinate below 256. -/
def smallX (k : UInt8) : FixedBytes 32 := ⟨List.replicate 31 0 ++ [k], rfl⟩

def smallHash (b : Bytes) : FixedBytes 32 := smallX (b.foldl (fun h x => 31 * h + x) 7)

instance primeSeven : Fact (Nat.Prime 7) := ⟨by decide⟩

/-- Seven points: a point and its opposite have the smaller of the two as x-coordinate. -/
def smallCurve : Curve 7 (ZMod 7) where
  generator := 1
  generator_ne_zero := by decide
  x P := smallX (UInt8.ofNat (min P.val (-P).val))
  isOdd P := decide (3 < P.val)
  x_neg := by decide
  isOdd_neg := by decide
  lift r := if r = smallX 1 then some 1 else if r = smallX 2 then some 2
    else if r = smallX 3 then some 3 else none
  lift_eq_some := by
    intro r P
    constructor
    · intro h
      split at h
      · cases h
        subst r
        decide
      split at h
      · cases h
        subst r
        decide
      split at h
      · cases h
        subst r
        decide
      · cases h
    · intro ⟨hne, heven, hx⟩
      subst hx
      revert P
      decide
  sha256 := smallHash

def smallCrypto : HostCrypto := .ofCurve smallCurve smallHash

/-- A script that pays to the key `1`. -/
def smallKeyScript : Bytes := [OP_DATA_32] ++ (smallX 1).val ++ [OP_CHECKSIG]

/-- A request to spend one output of the key, with a derivation hint. -/
def requestEnvelope : Envelope where
  global := ⟨0, 0, 1, 1, 0, zeros 20, 0, []⟩
  inputs := [⟨⟨zeros 32, 0, 1000, 0, 1, 0, smallKeyScript⟩, [], []⟩]
  outputs := [⟨900, 0, smallKeyScript⟩]
  trailers := [.network 2, .inputDerivation 0 ⟨0, 7⟩]

/-- The request, signed, with the derivation hint the signer puts there. -/
def responseEnvelope (hint : UInt32) : Envelope where
  global := ⟨1, 0, 1, 1, 0, zeros 20, 0, []⟩
  inputs := [⟨⟨zeros 32, 0, 1000, 0, 1, 0, smallKeyScript⟩,
    [⟨0, 1, signatureOf (smallX 1) (smallX 2)⟩], []⟩]
  outputs := [⟨900, 0, smallKeyScript⟩]
  trailers := [.network 2, .inputDerivation 0 ⟨0, hint⟩]

def smallCommitment : Commitment where
  sessionId := zeros 16
  transactionDigest := zeros 32
  records := [⟨0, 0, compressed 2 (smallX 1), compressed 2 (smallX 2)⟩]
  nonempty := by simp

def smallSigned : Signed where
  sessionId := zeros 16
  transactionDigest := zeros 32
  proofs := [⟨0, 0⟩]
  nonempty := by simp

/-- The host accepts the response whatever the hint in it. -/
theorem small_response_accepted (hint : UInt32) (h : hint = 7 ∨ hint = 8) :
    ∃ original signed,
      parseCompactKspt smallCrypto.toSignatureCrypto requestEnvelope.bytes (.new .FORMAT) = .ok original ∧
      parseCompactKspt smallCrypto.toSignatureCrypto (responseEnvelope hint).bytes (.new .FORMAT) =
        .ok signed ∧
      verifyHostTranscript smallCrypto original signed smallCommitment smallSigned (zeros 32) = .ok () := by
  have hwire : verifyHostTranscriptWire smallCrypto requestEnvelope.bytes (responseEnvelope hint).bytes
      smallCommitment smallSigned (zeros 32) = .ok () := by
    obtain h | h := h
    · rw [h]
      decide +kernel
    · rw [h]
      decide +kernel
  exact (verifyHostTranscriptWire_eq_ok smallCrypto).mp hwire

/-! ## Coverage -/

/-- The position of a record among the inputs and slots. -/
def place (record : NonceCommitment) : Nat × Nat :=
  (record.inputIndex.toNat, record.signatureSlot.toNat)

theorem places_nodup (records : List NonceCommitment)
    (h : (records.map NonceCommitment.position).IsChain precedes) : (records.map place).Nodup := by
  have : Trans precedes precedes precedes := ⟨precedes_trans⟩
  have hpairs := List.isChain_iff_pairwise.mp h
  rw [List.pairwise_map] at hpairs
  rw [List.Nodup, List.pairwise_map]
  refine hpairs.imp fun {a b} hab heq => ?_
  have hfirst : a.inputIndex = b.inputIndex := UInt32.toNat.inj (congrArg Prod.fst heq)
  have hsecond : a.signatureSlot = b.signatureSlot := UInt8.toNat.inj (congrArg Prod.snd heq)
  have hpos : a.position = b.position := by simp [NonceCommitment.position, hfirst, hsecond]
  rw [hpos] at hab
  exact precedes_irrefl _ hab

theorem record_added (h : Accepted crypto original signed commitment signedMessage hostSecret)
    {record : NonceCommitment} (hmem : record ∈ commitment.records) :
    Added original signed record.inputIndex.toNat record.signatureSlot.toNat := by
  obtain ⟨index, hindex⟩ := List.mem_iff_getElem?.mp hmem
  obtain ⟨proof, _, hproof⟩ := h.proofs index record hindex
  exact ⟨hproof.input, (h.committable record hmem).free, hproof.declared⟩

/-- The records are as many as the added signatures and no two are for one slot, so no
slot is left over. -/
theorem added_mem_places (h : Accepted crypto original signed commitment signedMessage hostSecret)
    {i slot : Nat} (hadded : Added original signed i slot) :
    (i, slot) ∈ commitment.records.map place := by
  have hsubset : commitment.records.map place ⊆ addedPositions original signed := by
    intro position hmem
    obtain ⟨record, hrecord, rfl⟩ := List.mem_map.mp hmem
    exact (mem_addedPositions h.inputCount).mpr (record_added h hrecord)
  have hsub := List.subperm_of_subset (places_nodup commitment.records h.ordered) hsubset
  have hlen : (addedPositions original signed).length ≤ (commitment.records.map place).length := by
    rw [addedPositions_length, h.count, List.length_map]
  exact (hsub.perm_of_length_le hlen).mem_iff.mpr ((mem_addedPositions h.inputCount).mpr hadded)

/-- An accepted transcript has a record for every added signature and no other record for its slot, and
that signature is the script key's and has the record's nonce. -/
theorem added_signatures_are_committed (crypto : HostCrypto) (original signed : Transaction)
    (commitment : Commitment) (signedMessage : Signed) (hostSecret : FixedBytes 32)
    (h : verifyHostTranscript crypto original signed commitment signedMessage hostSecret = .ok ()) :
    (∀ record ∈ commitment.records,
      Added original signed record.inputIndex.toNat record.signatureSlot.toNat) ∧
    ∀ i slot, Added original signed i slot → ∃ (index : Nat) (record : NonceCommitment),
      commitment.records[index]? = some record ∧
      record.inputIndex.toNat = i ∧ record.signatureSlot.toNat = slot ∧
      NonceChecked crypto signed commitment hostSecret record (slotAt signed i slot) ∧
      ∀ (other : Nat) (record' : NonceCommitment), commitment.records[other]? = some record' →
        record'.inputIndex.toNat = i → record'.signatureSlot.toNat = slot → other = index := by
  have h := verifyHostTranscript_eq_ok.mp h
  refine ⟨fun record hmem => record_added h hmem, fun i slot hadded => ?_⟩
  obtain ⟨index, hindex⟩ := List.mem_iff_getElem?.mp (added_mem_places h hadded)
  rw [List.getElem?_map, Option.map_eq_some_iff] at hindex
  obtain ⟨record, hrecord, hplace⟩ := hindex
  have hi : record.inputIndex.toNat = i := congrArg Prod.fst hplace
  have hslot : record.signatureSlot.toNat = slot := congrArg Prod.snd hplace
  obtain ⟨proof, _, hproof⟩ := h.proofs index record hrecord
  have hchecked := hproof.checked
  simp only [NonceCommitment.slotOf, hi, hslot] at hchecked
  refine ⟨index, record, hrecord, hi, hslot, hchecked, fun other record' hrecord' hi' hslot' => ?_⟩
  have hnodup := places_nodup commitment.records h.ordered
  have hsame : (commitment.records.map place)[other]? = (commitment.records.map place)[index]? := by
    simp only [List.getElem?_map, hrecord, hrecord', Option.map_some, place, hi, hi', hslot, hslot']
  have hlt : other < (commitment.records.map place).length := by
    rw [List.length_map]
    exact (List.getElem?_eq_some_iff.mp hrecord').1
  exact (List.getElem?_inj hlt hnodup).mp hsame

theorem added_signatures_are_committed_small : ∃ original signed,
    verifyHostTranscript smallCrypto original signed smallCommitment smallSigned (zeros 32) = .ok () ∧
    Added original signed 0 0 := by
  obtain ⟨original, signed, _, _, hverify⟩ := small_response_accepted 7 (.inl rfl)
  refine ⟨original, signed, hverify, ?_⟩
  exact (added_signatures_are_committed smallCrypto original signed smallCommitment smallSigned _ hverify).1
    _ (List.mem_singleton.mpr rfl)

/-! ## The transaction body -/

/-- A view with its signatures left out. -/
def withoutSignatures (view : WireView) : WireView :=
  { view with inputs := view.inputs.map fun input => { input with signatures := [] } }

/-- `signed` is `original` with signatures appended to those its inputs have. -/
structure OnlySignaturesAdded (original signed : Transaction) : Prop where
  rest : withoutSignatures (wireView signed) = withoutSignatures (wireView original)
  appended : ∀ i < original.inputs.length,
    (inputView original i).signatures <+: (inputView signed i).signatures

/-- The fields of an input that the host does not compare. -/
def SameUncompared (original signed : Transaction) : Prop :=
  ∀ i < original.inputs.length,
    (inputView signed i).derivation = (inputView original i).derivation ∧
    (inputView signed i).covenantExecution = (inputView original i).covenantExecution

theorem sameExistingSignatures_prefix {index : Nat}
    (h : sameExistingSignatures original signed index = true)
    (hcount : (inputAt original index).sigCount ≤ (inputAt signed index).sigCount) :
    (inputView original index).signatures <+: (inputView signed index).signatures := by
  have hcount : (inputAt original index).sigCount.toNat ≤ (inputAt signed index).sigCount.toNat :=
    UInt8.le_iff_toNat_le.mp hcount
  have hsame : declaredSignatures (inputAt original index) =
      (declaredSignatures (inputAt signed index)).take (inputAt original index).sigCount.toNat := by
    unfold declaredSignatures
    rw [← List.map_take, List.take_take, Nat.min_eq_left hcount]
    apply List.ext_getElem?
    intro slot
    simp only [List.getElem?_map, List.getElem?_take]
    split
    · rename_i hslot
      simp only [sameExistingSignatures, List.all_eq_true, List.mem_range] at h
      have hone := h slot hslot
      split at hone
      · rename_i old new hold hnew
        simp only [sameSignatureSlot, Bool.and_eq_true, beq_iff_eq] at hone
        obtain ⟨⟨⟨_, hsignature⟩, hsighash⟩, hpos⟩ := hone
        simp only [hold, hnew, Option.map_some, wireSignature, hsignature, hsighash, hpos]
      · cases hone
    · rfl
  simp only [inputView]
  rw [hsame]
  exact List.take_prefix _ _

/-- What the comparison of two transactions establishes, at one input. -/
theorem sameInputBody_view {index : Nat} (h : sameInputBody original signed index = true)
    (hrest : (inputView signed index).derivation = (inputView original index).derivation ∧
      (inputView signed index).covenantExecution = (inputView original index).covenantExecution) :
    { inputView signed index with signatures := [] } = { inputView original index with signatures := [] } := by
  simp only [sameInputBody, Bool.and_eq_true, beq_iff_eq] at h
  obtain ⟨⟨⟨⟨⟨⟨hpoint, hseq⟩, hops⟩, hutxo⟩, hms45⟩, hredeem⟩, _⟩ := h
  obtain ⟨hderivation, hexecution⟩ := hrest
  simp only [inputView] at hderivation hexecution
  simp only [inputView, ← hpoint, ← hseq, ← hops, ← hutxo, ← hms45, ← hredeem, hderivation, hexecution]

theorem sameOutputBody_view {left right : TransactionOutput} (h : sameOutputBody left right = true) :
    outputView right = outputView left := by
  simp only [sameOutputBody, Bool.and_eq_true, beq_iff_eq] at h
  obtain ⟨⟨⟨⟨⟨⟨⟨⟨hvalue, hscript⟩, hhas⟩, hauth⟩, hid⟩, hhint⟩, hbranch⟩, hindex⟩, hms45⟩ := h
  simp only [outputView, wireCovenant, hvalue, hscript, hhas, hauth, hid, hhint, hbranch, hindex, hms45]

theorem same_outputs (hlen : original.outputs.length = signed.outputs.length)
    (h : ∀ i < original.outputs.length, sameOutputBody (outputAt original i) (outputAt signed i) = true) :
    signed.outputs.map outputView = original.outputs.map outputView := by
  apply List.ext_getElem
  · simp [hlen]
  · intro i hi' hi
    rw [List.length_map] at hi hi'
    have hview := sameOutputBody_view (h i hi)
    simp only [outputAt, List.getElem?_eq_getElem hi, List.getElem?_eq_getElem hi', Option.getD_some] at hview
    simpa using hview

/-- Views that agree apart from signatures agree in every input's other fields. -/
theorem OnlySignaturesAdded.sameUncompared (h : OnlySignaturesAdded original signed)
    (hinputs : original.inputs.length = signed.inputs.length) : SameUncompared original signed := by
  intro i hi
  have hrest := congrArg (fun view => view.inputs[i]?) h.rest
  simp only [withoutSignatures, wireView, List.map_map, List.getElem?_map, List.getElem?_range hi,
    List.getElem?_range (hinputs ▸ hi), Option.map_some, Function.comp_apply, Option.some.injEq] at hrest
  have hderivation := congrArg InputView.derivation hrest
  have hexecution := congrArg InputView.covenantExecution hrest
  exact ⟨hderivation, hexecution⟩

/-- An accepted response differs from the request only by appended signatures exactly
when the hints and selectors of its inputs, which the host does not compare, are those
of the request. -/
theorem host_accepts_body_iff (crypto : HostCrypto) (original signed : Transaction)
    (commitment : Commitment) (signedMessage : Signed) (hostSecret : FixedBytes 32)
    (h : verifyHostTranscript crypto original signed commitment signedMessage hostSecret = .ok ()) :
    OnlySignaturesAdded original signed ↔ SameUncompared original signed := by
  have hbody := (verifyHostTranscript_eq_ok.mp h).body
  simp only [sameTransactionBody, sameTransactionHeader, Bool.and_eq_true, beq_iff_eq, List.all_eq_true,
    List.mem_range] at hbody
  obtain ⟨⟨⟨⟨⟨⟨⟨⟨⟨⟨⟨⟨hversion, hinputs⟩, houtputs⟩, hnetwork⟩, hlocktime⟩, hsubnetwork⟩, hgas⟩, _⟩,
    hhas⟩, htweak⟩, hpayload⟩, hin⟩, hout⟩ := hbody
  constructor
  · exact fun hadded => hadded.sameUncompared hinputs
  · intro hsame
    refine ⟨?_, fun i hi => ?_⟩
    · have hviews : (wireView signed).inputs.map (fun input => { input with signatures := [] }) =
          (wireView original).inputs.map (fun input => { input with signatures := [] }) := by
        simp only [wireView, List.map_map, ← hinputs]
        apply List.map_congr_left
        intro i hi
        have hi := List.mem_range.mp hi
        exact sameInputBody_view (hin i hi).1 (hsame i hi)
      simp only [withoutSignatures, hviews]
      simp only [wireView, ← hversion, same_outputs houtputs hout, ← hnetwork, ← hlocktime,
        ← hsubnetwork, ← hgas, ← hpayload, ← hhas, ← htweak]
    · obtain ⟨hone, hexisting⟩ := hin i hi
      simp only [sameInputBody, Bool.and_eq_true, decide_eq_true_eq] at hone
      exact sameExistingSignatures_prefix hexisting hone.2

/-- The hint of the first input, after parsing. -/
def firstHint (bytes : Bytes) : Except PsktError (Option Derivation) :=
  (parseCompactKspt smallCrypto.toSignatureCrypto bytes (.new .FORMAT)).map fun tx => (inputView tx 0).derivation

theorem firstHint_of_parse {bytes : Bytes} {tx : Transaction}
    (h : parseCompactKspt smallCrypto.toSignatureCrypto bytes (.new .FORMAT) = .ok tx) :
    firstHint bytes = .ok (inputView tx 0).derivation := by
  rw [firstHint, h]
  rfl

theorem host_accepts_body_iff_small : ∃ original signed,
    verifyHostTranscript smallCrypto original signed smallCommitment smallSigned (zeros 32) = .ok () ∧
    (OnlySignaturesAdded original signed ↔ SameUncompared original signed) := by
  obtain ⟨original, signed, _, _, hverify⟩ := small_response_accepted 7 (.inl rfl)
  exact ⟨original, signed, hverify,
    host_accepts_body_iff smallCrypto original signed smallCommitment smallSigned _ hverify⟩

/-- A signer may change the derivation hint of an input: the host accepts. -/
theorem host_accepts_changed_hint : ¬ ∀ (crypto : HostCrypto) (request response : Bytes)
    (original signed : Transaction) (commitment : Commitment) (signedMessage : Signed)
    (hostSecret : FixedBytes 32),
    parseCompactKspt crypto.toSignatureCrypto request (.new .FORMAT) = .ok original →
    parseCompactKspt crypto.toSignatureCrypto response (.new .FORMAT) = .ok signed →
    verifyHostTranscript crypto original signed commitment signedMessage hostSecret = .ok () →
    OnlySignaturesAdded original signed := by
  intro hclaim
  obtain ⟨original, signed, horiginal, hsigned, hverify⟩ := small_response_accepted 8 (.inr rfl)
  have hadded := hclaim _ _ _ _ _ _ _ _ horiginal hsigned hverify
  have haccepted := verifyHostTranscript_eq_ok.mp hverify
  have hinput : 0 < original.inputs.length :=
    Nat.lt_of_lt_of_eq (record_added haccepted (List.mem_singleton.mpr rfl)).input haccepted.inputCount.symm
  have hsame := (hadded.sameUncompared haccepted.inputCount 0 hinput).1
  have hrequest := firstHint_of_parse horiginal
  have hresponse := firstHint_of_parse hsigned
  rw [hsame, ← hrequest] at hresponse
  exact absurd hresponse (by decide +kernel)

end KaspaPortal.Guarantees
