import KaspaPortal.Transaction.Kspt.AntiKlepto.Checks
import KaspaPortal.Transaction.Kspt.AntiKlepto.Signer

/-!
# A signer's session

What putting signatures into a transaction and finalizing them leaves as it was. All
that the checks read of a transaction apart from its signatures is a function of the
transaction with the signature state wiped, and neither step changes that.

The session's messages are values here; that they survive the wire is proved with
their layouts.
-/
namespace KaspaPortal.Transaction.Kspt.AntiKlepto
open Lib Primitives Model Crypto.AntiKlepto Contract.Covenant

/-! ## The unsigned transaction -/

def unsignedInput (input : TransactionInput) : TransactionInput :=
  { input with sigs := .empty, sigCount := 0, sighashType := 0 }

/-- The transaction with the signature state of its inputs wiped. -/
def unsigned (tx : Transaction) : Transaction := { tx with inputs := tx.inputs.map unsignedInput }

theorem unsigned_input (tx : Transaction) (i : Nat) :
    (unsigned tx).inputs[i]? = (tx.inputs[i]?).map unsignedInput :=
  List.getElem?_map

theorem unsigned_sighashSource (tx : Transaction) : (unsigned tx).sighashSource = tx.sighashSource := by
  simp only [Transaction.sighashSource, unsigned, List.map_map]
  rfl

theorem unsigned_redeemBytes (tx : Transaction) (i : Nat) : (unsigned tx).redeemBytes i = tx.redeemBytes i := by
  simp only [Transaction.redeemBytes, unsigned_input]
  cases tx.inputs[i]? <;> rfl

theorem unsigned_checkedRedeemBytes (tx : Transaction) (i : Nat) :
    checkedRedeemBytes (unsigned tx) i = checkedRedeemBytes tx i := by
  simp only [checkedRedeemBytes, unsigned_input]
  cases tx.inputs[i]? <;> rfl

theorem unsigned_analyzeInputScript (tx : Transaction) (i : Nat) :
    analyzeInputScript (unsigned tx) i = analyzeInputScript tx i := by
  unfold analyzeInputScript tryAnalyzeInputScript
  rw [unsigned_input, unsigned_checkedRedeemBytes]
  cases tx.inputs[i]? <;> rfl

theorem unsigned_candidateKeysForInput (tx : Transaction) (i : Nat) :
    candidateKeysForInput (unsigned tx) i = candidateKeysForInput tx i := by
  simp only [candidateKeysForInput, unsigned_input, unsigned_checkedRedeemBytes]
  cases tx.inputs[i]? <;> rfl

theorem unsigned_script (tx : Transaction) (i : Nat) :
    (inputAt (unsigned tx) i).utxoEntry.scriptPublicKey = (inputAt tx i).utxoEntry.scriptPublicKey := by
  simp only [inputAt, unsigned_input]
  cases tx.inputs[i]? <;> rfl

theorem unsigned_signingPubkeyXonly (tx : Transaction) (i : Nat) (position : UInt8) :
    signingPubkeyXonly (unsigned tx) i position = signingPubkeyXonly tx i position := by
  simp only [signingPubkeyXonly, p2pkSigningKey, covenantSigningKey, unsigned_analyzeInputScript, unsigned_script,
    unsigned_candidateKeysForInput]

/-- Two transactions that differ in their signature state only. -/
def SameUnsigned (tx tx' : Transaction) : Prop := unsigned tx' = unsigned tx

section same
variable {tx tx' : Transaction} (h : SameUnsigned tx tx')
include h

theorem SameUnsigned.length : tx'.inputs.length = tx.inputs.length := by
  simpa [unsigned] using congrArg (fun t => t.inputs.length) h

theorem SameUnsigned.sighashSource : tx'.sighashSource = tx.sighashSource := by
  rw [← unsigned_sighashSource, h, unsigned_sighashSource]

theorem SameUnsigned.signingPubkeyXonly (i : Nat) (position : UInt8) :
    signingPubkeyXonly tx' i position = signingPubkeyXonly tx i position := by
  rw [← unsigned_signingPubkeyXonly, h, unsigned_signingPubkeyXonly]

theorem SameUnsigned.inputAt (i : Nat) :
    unsignedInput (inputAt tx' i) = unsignedInput (inputAt tx i) := by
  have hone := congrArg (fun t => t.inputs[i]?) h
  simp only [unsigned_input] at hone
  simp only [Kspt.inputAt]
  cases htx : tx.inputs[i]? with
  | none =>
    rw [htx, Option.map_none, Option.map_eq_none_iff] at hone
    rw [hone]
  | some input =>
    rw [htx, Option.map_some, Option.map_eq_some_iff] at hone
    obtain ⟨input', hinput', heq⟩ := hone
    rw [hinput', Option.getD_some, Option.getD_some, heq]

end same

/-- A script's key at a position is one of its keys. -/
theorem pubkeyIsAllowed_of_signing {tx : Transaction} {i : Nat} {position : UInt8} {key : FixedBytes 32}
    (h : signingPubkeyXonly tx i position = .ok key) : pubkeyIsAllowedForInput tx i key = .ok true := by
  unfold signingPubkeyXonly at h
  unfold pubkeyIsAllowedForInput
  split at h
  · rw [p2pkSigningKey, okOr_eq_ok, toArray_eq_some] at h
    simp [h]
  · rw [okOr_eq_ok] at h
    simp only [Except.ok.injEq, List.any_eq_true, beq_iff_eq]
    exact ⟨key, List.mem_of_getElem? h, rfl⟩
  · rw [okOr_eq_ok] at h
    simp only [Except.ok.injEq, List.any_eq_true, beq_iff_eq]
    exact ⟨key, List.mem_of_getElem? h, rfl⟩
  · simp only [covenantSigningKey, bind_eq_ok, okOr_eq_ok] at h
    obtain ⟨candidates, hcandidates, candidate, hfind, hkey⟩ := h
    rw [bind_eq_ok]
    refine ⟨candidates, hcandidates, ?_⟩
    have hany : (candidates.any fun candidate => candidate.2 == key) = true := by
      rw [List.any_eq_true]
      exact ⟨candidate, List.mem_of_find?_eq_some hfind, by rw [Except.ok.inj hkey]; simp⟩
    rw [hany]
    rfl
  · cases h

/-! ## Changing one input -/

theorem inputAt_modifyInput (tx : Transaction) (i j : Nat) (f : TransactionInput → TransactionInput) :
    inputAt (tx.modifyInput i f) j =
      if i = j ∧ j < tx.inputs.length then f (inputAt tx j) else inputAt tx j := by
  simp only [inputAt, Transaction.modifyInput, List.getElem?_modify]
  by_cases hj : j < tx.inputs.length
  · rw [List.getElem?_eq_getElem hj]
    by_cases hij : i = j <;> simp [hij, hj]
  · simp [hj]

theorem unsigned_modifyInput (tx : Transaction) (i : Nat) (f : TransactionInput → TransactionInput)
    (hf : ∀ input, tx.inputs[i]? = some input → unsignedInput (f input) = unsignedInput input) :
    SameUnsigned tx (tx.modifyInput i f) := by
  have hinputs : (tx.inputs.modify i f).map unsignedInput = tx.inputs.map unsignedInput := by
    apply List.ext_getElem?
    intro j
    simp only [List.getElem?_map, List.getElem?_modify]
    cases hj : tx.inputs[j]? with
    | none => rfl
    | some input =>
      by_cases hij : i = j
      · subst hij
        simp [hf input hj]
      · simp [hij]
  simp only [SameUnsigned, unsigned, Transaction.modifyInput, hinputs]

/-! ## Putting a signature into an input -/

/-- One of the two ways a signature enters an input that keeps the ones it has. -/
def AddsSignature (input : TransactionInput) (sig : InputSig) (input' : TransactionInput) : Prop :=
  appendSignature input sig.signature sig.sighashType sig.pubkeyPos sig.pubkeyCompressed = some input' ∨
    input.sigCount = 0 ∧
      input' = setSingleSignature input sig.signature sig.sighashType sig.pubkeyPos sig.pubkeyCompressed

/-- What adding a signature does to an input. -/
structure SignatureAdded (input : TransactionInput) (sig : InputSig) (input' : TransactionInput) : Prop where
  rest : unsignedInput input' = unsignedInput input
  room : input.sigCount.toNat < MAX_SIGS_PER_INPUT
  count : input'.sigCount.toNat = input.sigCount.toNat + 1
  sighash : input'.sighashType = sig.sighashType
  agrees : input.sigCount.toNat ≠ 0 → input.sighashType = sig.sighashType
  added : input'.sigs.val[input.sigCount.toNat]? = some { sig with present := true }
  kept : ∀ slot < input.sigCount.toNat, input'.sigs.val[slot]? = input.sigs.val[slot]?

theorem appendSignature_added {input input' : TransactionInput} {sig : InputSig}
    (h : appendSignature input sig.signature sig.sighashType sig.pubkeyPos sig.pubkeyCompressed =
      some input') : SignatureAdded input sig input' := by
  unfold appendSignature at h
  simp only at h
  split at h
  · cases h
  split at h
  · cases h
  rename_i hroom
  split at h
  · cases h
  rename_i hagrees
  cases h
  have hsize : MAX_SIGS_PER_INPUT = 5 := rfl
  have hlen := input.sigs.property
  refine ⟨rfl, Nat.not_le.mp hroom, ?_, rfl, ?_, ?_, ?_⟩
  · rw [UInt8.toNat_add]
    have hone : (1 : UInt8).toNat = 1 := rfl
    omega
  · intro hne
    by_contra hnot
    exact hagrees ⟨hne, hnot⟩
  · simp only [SigSlots.modify]
    rw [List.getElem?_modify_eq, List.getElem?_eq_getElem (by omega)]
    rfl
  · intro slot hslot
    simp only [SigSlots.modify]
    have hne : input.sigCount.toNat ≠ slot := by omega
    simp [List.getElem?_modify, hne]

theorem AddsSignature.signatureAdded {input input' : TransactionInput} {sig : InputSig}
    (h : AddsSignature input sig input') : SignatureAdded input sig input' := by
  obtain h | ⟨hzero, h⟩ := h
  · exact appendSignature_added h
  · have hcount : input.sigCount.toNat = 0 := by rw [hzero]; rfl
    have hlen := input.sigs.property
    subst h
    refine ⟨rfl, by rw [hcount]; decide, by rw [hcount]; rfl, rfl, fun hne => absurd hcount hne, ?_, ?_⟩
    · rw [hcount]
      simp only [setSingleSignature]
      rw [List.getElem?_modify_eq, List.getElem?_map,
        List.getElem?_eq_getElem (by rw [hlen]; decide)]
      rfl
    · intro slot hslot
      omega

/-! ## A signer's run -/

/-- The signature verifies under the script's key at its position, which is the key it
names. -/
structure ValidProvisional (crypto : HostCrypto) (tx : Transaction) (i : Nat) (sig : InputSig) : Prop where
  key : signingPubkeyXonly tx i sig.pubkeyPos = .ok (xonly sig.pubkeyCompressed)
  verifies : ∃ sighashType, SigHashType.fromByte sig.sighashType = some sighashType ∧
    crypto.schnorrVerify (xonly sig.pubkeyCompressed)
      (calculateSighash crypto.signingHash tx.sighashSource i sighashType) sig.signature = true

/-- A signer adds valid signatures, one after the other. -/
inductive Signs (crypto : HostCrypto) : Transaction → Transaction → Prop where
  | done (tx : Transaction) : Signs crypto tx tx
  | add {original tx : Transaction} {i : Nat} {input input' : TransactionInput} {sig : InputSig}
      (h : Signs crypto original tx) (hi : tx.inputs[i]? = some input)
      (hvalid : ValidProvisional crypto tx i sig) (hadds : AddsSignature input sig input') :
      Signs crypto original (tx.modifyInput i fun _ => input')

/-- One input of a signed transaction against the same input before. -/
structure InputExtends (crypto : HostCrypto) (original tx : Transaction) (i : Nat) : Prop where
  grows : (inputAt original i).sigCount.toNat ≤ (inputAt tx i).sigCount.toNat
  kept : ∀ slot < (inputAt original i).sigCount.toNat, slotAt tx i slot = slotAt original i slot
  sighash : (inputAt original i).sigCount.toNat ≠ 0 →
    (inputAt tx i).sighashType = (inputAt original i).sighashType
  added : ∀ slot, (inputAt original i).sigCount.toNat ≤ slot → slot < (inputAt tx i).sigCount.toNat →
    ValidProvisional crypto original i (slotAt tx i slot) ∧
      (slotAt tx i slot).sighashType = (inputAt tx i).sighashType

theorem ValidProvisional.congr {crypto : HostCrypto} {tx tx' : Transaction} {i : Nat} {sig : InputSig}
    (h : ValidProvisional crypto tx' i sig) (hsame : SameUnsigned tx tx') :
    ValidProvisional crypto tx i sig := by
  obtain ⟨hkey, hverifies⟩ := h
  rw [hsame.signingPubkeyXonly] at hkey
  rw [hsame.sighashSource] at hverifies
  exact ⟨hkey, hverifies⟩

theorem InputExtends.add {crypto : HostCrypto} {original tx : Transaction} {i : Nat}
    {input input' : TransactionInput} {sig : InputSig} (h : InputExtends crypto original tx i)
    (hsame : SameUnsigned original tx) (hi : tx.inputs[i]? = some input)
    (hvalid : ValidProvisional crypto tx i sig) (hadds : SignatureAdded input sig input') :
    InputExtends crypto original (tx.modifyInput i fun _ => input') i := by
  have hat : inputAt tx i = input := by rw [inputAt, hi, Option.getD_some]
  have hlt := (List.getElem?_eq_some_iff.mp hi).1
  have hat' : inputAt (tx.modifyInput i fun _ => input') i = input' := by
    rw [inputAt_modifyInput, if_pos ⟨rfl, hlt⟩]
  have hgrows := h.grows
  rw [hat] at hgrows
  have hcount := hadds.count
  have hkeeps : ∀ slot < input.sigCount.toNat,
      slotAt (tx.modifyInput i fun _ => input') i slot = slotAt tx i slot := by
    intro slot hslot
    simp only [slotAt, hat', hat, hadds.kept slot hslot]
  refine ⟨?_, fun slot hslot => ?_, fun hne => ?_, fun slot hle hslot => ?_⟩
  · rw [hat']
    omega
  · rw [hkeeps slot (by omega)]
    exact h.kept slot hslot
  · rw [hat', hadds.sighash, ← hadds.agrees (by omega), ← hat]
    exact h.sighash hne
  · rw [hat'] at hslot ⊢
    by_cases hnew : slot = input.sigCount.toNat
    · have hslotAt : slotAt (tx.modifyInput i fun _ => input') i slot = { sig with present := true } := by
        rw [slotAt, hat', hnew, hadds.added, Option.getD_some]
      rw [hslotAt, hadds.sighash]
      have hvalid := hvalid.congr hsame
      exact ⟨⟨hvalid.key, hvalid.verifies⟩, rfl⟩
    · have hold : slot < input.sigCount.toNat := by omega
      have hnonzero : input.sigCount.toNat ≠ 0 := by omega
      obtain ⟨hprovisional, hsighash⟩ := h.added slot hle (by rw [hat]; exact hold)
      rw [hkeeps slot hold, hadds.sighash, ← hadds.agrees hnonzero, ← hat]
      exact ⟨hprovisional, hsighash⟩

theorem inputExtends_frame {crypto : HostCrypto} {original tx : Transaction} {i j : Nat}
    {f : TransactionInput → TransactionInput} (h : InputExtends crypto original tx j) (hne : i ≠ j) :
    InputExtends crypto original (tx.modifyInput i f) j := by
  have hat : inputAt (tx.modifyInput i f) j = inputAt tx j := by
    rw [inputAt_modifyInput, if_neg fun hc => hne hc.1]
  obtain ⟨hgrows, hkept, hsighash, hadded⟩ := h
  refine ⟨?_, ?_, ?_, ?_⟩ <;> simp only [slotAt, hat] at * <;> assumption

/-- A signer's run keeps the unsigned transaction and extends every input. -/
theorem Signs.extends {crypto : HostCrypto} {original tx : Transaction} (h : Signs crypto original tx) :
    SameUnsigned original tx ∧ ∀ i, InputExtends crypto original tx i := by
  induction h with
  | done =>
    exact ⟨rfl, fun i => ⟨Nat.le_refl _, fun _ _ => rfl, fun _ => rfl,
      fun slot hle hlt => absurd hlt (Nat.not_lt.mpr hle)⟩⟩
  | @add tx i input input' sig _ hi hvalid hadds ih =>
    obtain ⟨hsame, hextends⟩ := ih
    have hadded := hadds.signatureAdded
    have hstep : SameUnsigned tx (tx.modifyInput i fun _ => input') := by
      apply unsigned_modifyInput
      intro old hold
      rw [hi] at hold
      cases hold
      exact hadded.rest
    refine ⟨Eq.trans hstep hsame, fun j => ?_⟩
    by_cases hij : i = j
    · subst hij
      exact (hextends i).add hsame hi hvalid hadded
    · exact inputExtends_frame (hextends j) hij

end KaspaPortal.Transaction.Kspt.AntiKlepto
