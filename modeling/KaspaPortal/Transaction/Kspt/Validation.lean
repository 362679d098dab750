import KaspaPortal.Lib.Codec
import KaspaPortal.Transaction.Model

/-!
# Checks on the signer's transaction

`src/transaction/interchange/kspt/error.rs`, `validation.rs` and `script.rs`: the
consistency a transaction must have before it is encoded or signed, and what
script controls an input. `num_inputs` never exceeds the slots here, so the
source's check of that is not repeated.
-/
namespace KaspaPortal.Transaction.Kspt
open Lib Primitives Model

/-- Everything the compact format and the signer refuse a transaction for. -/
inductive PsktError where
  | bufferTooShort | invalidMagic | unsupportedVersion | tooManyInputs | tooManyOutputs
  | scriptTooLong | payloadTooLong | invalidSigHashType | outputBufferTooSmall | noInputs | noOutputs
  | invalidFlags | trailingData | invalidModel | tooManySignatures | invalidSignatureState
  | invalidTrailer | invalidInputIndex | derivationFailed | signingFailed | reusableNonce
  | inputAmountOverflow | outputAmountOverflow | outputsExceedInputs | storageExhausted
  | unsupportedTransactionVersion | nonCanonicalEncoding
  deriving DecidableEq, Repr

/-- The amounts of the model fail with these errors of the format. -/
def mapAmountError : TransactionAmountError → PsktError
  | .inputTotalOverflow => .inputAmountOverflow
  | .outputTotalOverflow => .outputAmountOverflow
  | .outputsExceedInputs => .outputsExceedInputs

/-- The checked totals, with the format's errors. -/
def transactionAmounts (tx : Transaction) : Except PsktError TransactionAmounts :=
  tx.checkedAmounts.mapError mapAmountError

/-- The redeem script from the shared pool; the pool itself has its full length. -/
def checkedPoolRedeemBytes (tx : Transaction) (start len : Nat) : Except PsktError Bytes := do
  rejectIf (REDEEM_POOL_SIZE < tx.redeemPoolUsed ∨ tx.redeemPoolUsed < start + len)
    PsktError.invalidModel
  rejectIf (REDEEM_POOL_SIZE < start + len) PsktError.invalidModel
  return cut tx.redeemPool.val start (start + len)

/-- An inline script that claims more than an input can hold is no model of anything. -/
def checkedInlineRedeemBytes (input : TransactionInput) (len : Nat) : Except PsktError Bytes := do
  rejectIf (MAX_SCRIPT_SIZE < len) PsktError.invalidModel
  return input.redeemScript.val.take len

/-- The redeem script an input refers to, once its place is known to be in bounds. -/
def checkedRedeem (tx : Transaction) (input : TransactionInput) : Except PsktError Bytes :=
  let len := input.redeemScriptLen
  if len = 0 then .ok []
  else if MAX_REDEEM_SIZE < len then .error .scriptTooLong
  else if input.redeemInPool then checkedPoolRedeemBytes tx input.redeemScriptOffset.toNat len
  else checkedInlineRedeemBytes input len

/-- The redeem script of an input, wherever it is stored. -/
def checkedRedeemBytes (tx : Transaction) (inputIndex : Nat) : Except PsktError Bytes := do
  let input ← okOr .invalidInputIndex (tx.inputs[inputIndex]?)
  checkedRedeem tx input

/-- The counts and lengths that do not depend on a single input. -/
def validateTransactionShape (tx : Transaction) : Except PsktError Unit := do
  rejectIf (tx.inputs.length = 0) PsktError.noInputs
  rejectIf (tx.limits.maxInputs < tx.inputs.length) PsktError.tooManyInputs
  rejectIf (tx.outputs.length = 0) PsktError.noOutputs
  rejectIf (MAX_OUTPUTS < tx.outputs.length) PsktError.tooManyOutputs
  rejectIf (min tx.limits.maxPayloadBytes MAX_PAYLOAD_SIZE < tx.payload.length)
    PsktError.payloadTooLong
  rejectIf (REDEEM_POOL_SIZE < tx.redeemPoolUsed) PsktError.invalidModel

/-- An input's script fits and its redeem script is stored where it says. -/
def validateInput (tx : Transaction) (input : TransactionInput) : Except PsktError Unit := do
  rejectIf (MAX_SCRIPT_SIZE < input.utxoEntry.scriptPublicKey.script.length) PsktError.scriptTooLong
  let _ ← checkedRedeem tx input

def validateInputs (tx : Transaction) : Except PsktError Unit :=
  tx.inputs.forM (validateInput tx)

/-- An output's script fits, and a covenant names an input that exists. -/
def validateOutput (tx : Transaction) (output : TransactionOutput) : Except PsktError Unit := do
  rejectIf (MAX_SCRIPT_SIZE < output.scriptPublicKey.script.length) PsktError.scriptTooLong
  rejectIf (output.hasCovenant = true ∧ tx.inputs.length ≤ output.covenantAuthInput.toNat)
    PsktError.invalidInputIndex

def validateOutputs (tx : Transaction) : Except PsktError Unit :=
  tx.outputs.forM (validateOutput tx)

/-- Everything but the signatures. -/
def validateBaseTransaction (tx : Transaction) : Except PsktError Unit := do
  validateTransactionShape tx
  let _ ← transactionAmounts tx
  validateInputs tx
  validateOutputs tx

/-- A declared slot holds a SIGHASH_ALL signature of a key no earlier slot names. -/
def validatePresentSignature (slot : InputSig) (seenPositions : List UInt8) :
    Except PsktError Unit := do
  rejectIf (slot.present = false) PsktError.invalidSignatureState
  rejectIf (slot.sighashType ≠ SigHashType.all.toByte) PsktError.invalidSigHashType
  rejectIf (slot.pubkeyPos ∈ seenPositions) PsktError.invalidSignatureState

/-- The loop over the slots: the first `count` are signatures, the rest are free. -/
def validateSlots : Nat → List UInt8 → List InputSig → Except PsktError Unit
  | _, _, [] => .ok ()
  | 0, seen, slot :: slots => do
    rejectIf (slot.present = true) PsktError.invalidSignatureState
    validateSlots 0 seen slots
  | count + 1, seen, slot :: slots => do
    validatePresentSignature slot seen
    validateSlots count (slot.pubkeyPos :: seen) slots

/-- The declared slots come first, and the input's sighash is that of its first signature. -/
def validateSignatureSlots (input : TransactionInput) : Except PsktError Unit := do
  rejectIf (MAX_SIGS_PER_INPUT < input.sigCount.toNat) PsktError.tooManySignatures
  validateSlots input.sigCount.toNat [] input.sigs.val
  rejectIf (input.sigCount.toNat ≠ 0 ∧
    some input.sighashType ≠ input.sigs.val[0]?.map (·.sighashType)) PsktError.invalidSignatureState

/-- An input's sighash is unset or SIGHASH_ALL. -/
def validateSignedInput (tx : Transaction) (input : TransactionInput) : Except PsktError Unit := do
  rejectIf (input.sighashType ≠ 0 ∧ input.sighashType ≠ SigHashType.all.toByte)
    PsktError.invalidSigHashType
  validateSignatureSlots input
  let _ ← checkedRedeem tx input

/-- A transaction that some or all of its signers have signed. -/
def validatePartialSigned (tx : Transaction) : Except PsktError Unit := do
  validateBaseTransaction tx
  tx.inputs.forM (validateSignedInput tx)

/-! ## The script that controls an input -/

/-- Behind a P2SH script the redeem script is looked at for a multisig. -/
def tryAnalyzeInputScript (tx : Transaction) (inputIndex : Nat) :
    Option (ScriptType × Option MultisigInfo) :=
  match tx.inputs[inputIndex]? with
  | none => none
  | some input =>
    let script := input.utxoEntry.scriptPublicKey.script
    let scriptType := detectScriptType script
    if scriptType = .p2sh ∧ input.redeemScriptLen ≠ 0 then
      match checkedRedeemBytes tx inputIndex with
      | .error _ => none
      | .ok redeem =>
        some (.p2sh, if detectScriptType redeem = .multisig then parseMultisigScript redeem else none)
    else
      some (scriptType, if scriptType = .multisig then parseMultisigScript script else none)

/-- An input that cannot be read counts as unknown. -/
def analyzeInputScript (tx : Transaction) (inputIndex : Nat) : ScriptType × Option MultisigInfo :=
  (tryAnalyzeInputScript tx inputIndex).getD (.unknown, none)

/-! ## What the checks establish -/

theorem checkedPoolRedeemBytes_eq_ok {tx : Transaction} {start len : Nat} {r : Bytes} :
    checkedPoolRedeemBytes tx start len = .ok r ↔ tx.redeemPoolUsed ≤ REDEEM_POOL_SIZE ∧
      start + len ≤ tx.redeemPoolUsed ∧ r = cut tx.redeemPool.val start (start + len) := by
  unfold checkedPoolRedeemBytes
  simp only [bind_eq_ok, rejectIf_eq_ok, not_or, Nat.not_lt]
  constructor
  · intro ⟨_, ⟨hused, hend⟩, _, _, hr⟩
    exact ⟨hused, hend, (Except.ok.inj hr).symm⟩
  · intro ⟨hused, hend, hr⟩
    exact ⟨(), ⟨hused, hend⟩, (), Nat.le_trans hend hused, by rw [hr]; rfl⟩

theorem checkedInlineRedeemBytes_eq_ok {input : TransactionInput} {len : Nat} {r : Bytes} :
    checkedInlineRedeemBytes input len = .ok r ↔
      len ≤ MAX_SCRIPT_SIZE ∧ r = input.redeemScript.val.take len := by
  unfold checkedInlineRedeemBytes
  simp only [bind_eq_ok, rejectIf_eq_ok, Nat.not_lt]
  constructor
  · intro ⟨_, hlen, hr⟩
    exact ⟨hlen, (Except.ok.inj hr).symm⟩
  · intro ⟨hlen, hr⟩
    exact ⟨(), hlen, by rw [hr]; rfl⟩

/-- A redeem script has the length its input declares, within the format's bound. -/
theorem checkedRedeem_length {tx : Transaction} {input : TransactionInput} {r : Bytes}
    (h : checkedRedeem tx input = .ok r) :
    r.length = input.redeemScriptLen ∧ r.length ≤ MAX_REDEEM_SIZE := by
  unfold checkedRedeem at h
  simp only at h
  split at h
  · rename_i hzero
    cases h
    exact ⟨by simp [hzero], by simp⟩
  split at h
  · cases h
  rename_i hmax
  have hlen : r.length = input.redeemScriptLen := by
    split at h
    · obtain ⟨hused, hend, rfl⟩ := checkedPoolRedeemBytes_eq_ok.mp h
      have hpool := tx.redeemPool.property
      simp only [cut, List.length_drop, List.length_take, hpool]
      omega
    · obtain ⟨hfit, rfl⟩ := checkedInlineRedeemBytes_eq_ok.mp h
      have hbuf := input.redeemScript.property
      simp only [List.length_take, hbuf]
      omega
  exact ⟨hlen, by omega⟩

/-- The checked reader returns what the model's own reader does. -/
theorem redeemBytes_of_checked {tx : Transaction} {index : Nat} {input : TransactionInput} {r : Bytes}
    (hi : tx.inputs[index]? = some input) (h : checkedRedeem tx input = .ok r) :
    tx.redeemBytes index = r := by
  unfold checkedRedeem at h
  simp only [Transaction.redeemBytes, hi]
  simp only at h
  split at h
  · rename_i hzero
    cases h
    rw [if_pos hzero]
  rename_i hzero
  split at h
  · cases h
  rw [if_neg hzero]
  split at h
  · rename_i hpool
    obtain ⟨_, _, rfl⟩ := checkedPoolRedeemBytes_eq_ok.mp h
    rw [if_pos hpool]
  · rename_i hpool
    obtain ⟨_, rfl⟩ := checkedInlineRedeemBytes_eq_ok.mp h
    rw [if_neg hpool]

/-- The declared slots hold SIGHASH_ALL signatures, the others none. -/
structure ValidSlots (input : TransactionInput) : Prop where
  count : input.sigCount.toNat ≤ MAX_SIGS_PER_INPUT
  present : ∀ slot ∈ input.sigs.val.take input.sigCount.toNat,
    slot.present = true ∧ slot.sighashType = SigHashType.all.toByte
  free : ∀ slot ∈ input.sigs.val.drop input.sigCount.toNat, slot.present = false
  positions : ((input.sigs.val.take input.sigCount.toNat).map (·.pubkeyPos)).Nodup
  sighash : input.sigCount.toNat ≠ 0 →
    some input.sighashType = input.sigs.val[0]?.map (·.sighashType)

/-- The loop over the slots, as what it accepts. -/
theorem validateSlots_eq_ok (slots : List InputSig) :
    ∀ (count : Nat) (seen : List UInt8), validateSlots count seen slots = .ok () ↔
      (∀ slot ∈ slots.take count,
        slot.present = true ∧ slot.sighashType = SigHashType.all.toByte) ∧
      (∀ slot ∈ slots.drop count, slot.present = false) ∧
      ((slots.take count).map (·.pubkeyPos)).Nodup ∧
      ∀ slot ∈ slots.take count, slot.pubkeyPos ∉ seen := by
  induction slots with
  | nil =>
    intro count seen
    cases count <;> simp [validateSlots]
  | cons slot slots ih =>
    intro count seen
    cases count with
    | zero =>
      have hrest := ih 0 seen
      simp only [List.take_zero, List.drop_zero] at hrest ⊢
      simp only [validateSlots, bind_eq_ok, rejectIf_eq_ok, hrest, List.forall_mem_cons, Bool.not_eq_true]
      constructor
      · intro ⟨_, hfree, h⟩
        exact ⟨by simp, ⟨hfree, h.2.1⟩, by simp, by simp⟩
      · intro ⟨h₁, ⟨hfree, h⟩, h₃, h₄⟩
        exact ⟨(), hfree, h₁, h, h₃, h₄⟩
    | succ count =>
      have hrest := ih count (slot.pubkeyPos :: seen)
      have hslot : validatePresentSignature slot seen = .ok () ↔ slot.present = true ∧
          slot.sighashType = SigHashType.all.toByte ∧ slot.pubkeyPos ∉ seen := by
        unfold validatePresentSignature
        simp only [bind_eq_ok, rejectIf_eq_ok]
        simp
      have hstep : validateSlots (count + 1) seen (slot :: slots) =
          (validatePresentSignature slot seen >>= fun _ =>
            validateSlots count (slot.pubkeyPos :: seen) slots) := rfl
      rw [hstep, bind_eq_ok, List.take_succ_cons, List.drop_succ_cons, List.map_cons, List.nodup_cons,
        List.forall_mem_cons, List.forall_mem_cons]
      simp only [hrest, List.mem_cons, not_or, List.mem_map, not_exists, not_and]
      constructor
      · intro ⟨_, hs, hpres, hfree, hnodup, hnew⟩
        obtain ⟨h₁, h₂, h₃⟩ := hslot.mp hs
        exact ⟨⟨⟨h₁, h₂⟩, hpres⟩, hfree, ⟨fun u hu => (hnew u hu).1, hnodup⟩, h₃, fun u hu => (hnew u hu).2⟩
      · intro ⟨⟨⟨h₁, h₂⟩, hpres⟩, hfree, ⟨hfirst, hnodup⟩, h₃, hnew⟩
        exact ⟨(), hslot.mpr ⟨h₁, h₂, h₃⟩, hpres, hfree, hnodup, fun u hu => ⟨hfirst u hu, hnew u hu⟩⟩

/-- The check accepts exactly the valid slots. -/
theorem validateSignatureSlots_eq_ok {input : TransactionInput} {u : Unit} :
    validateSignatureSlots input = .ok u ↔ ValidSlots input := by
  unfold validateSignatureSlots
  simp only [bind_eq_ok, rejectIf_eq_ok]
  constructor
  · intro ⟨_, hcount, _, hslots, hsighash⟩
    obtain ⟨hpresent, hfree, hpos, _⟩ := (validateSlots_eq_ok _ _ _).mp hslots
    exact ⟨Nat.not_lt.mp hcount, hpresent, hfree, hpos, fun hne =>
      Decidable.of_not_not fun hc => hsighash ⟨hne, hc⟩⟩
  · intro h
    exact ⟨(), Nat.not_lt.mpr h.count, (), (validateSlots_eq_ok _ _ _).mpr
      ⟨h.present, h.free, h.positions, by simp⟩, fun ⟨hne, hc⟩ => hc (h.sighash hne)⟩

/-- A transaction that may be serialized. -/
structure ValidSigned (tx : Transaction) : Prop where
  inputCount : tx.inputs.length ≠ 0 ∧ tx.inputs.length ≤ tx.limits.maxInputs
  outputCount : tx.outputs.length ≠ 0 ∧ tx.outputs.length ≤ MAX_OUTPUTS
  payload : tx.payload.length ≤ min tx.limits.maxPayloadBytes MAX_PAYLOAD_SIZE
  pool : tx.redeemPoolUsed ≤ REDEEM_POOL_SIZE
  amounts : ∃ amounts, tx.checkedAmounts = .ok amounts
  scripts : ∀ input ∈ tx.inputs, input.utxoEntry.scriptPublicKey.script.length ≤ MAX_SCRIPT_SIZE
  redeems : ∀ input ∈ tx.inputs, ∃ r, checkedRedeem tx input = .ok r
  outputs : ∀ output ∈ tx.outputs, output.scriptPublicKey.script.length ≤ MAX_SCRIPT_SIZE ∧
    (output.hasCovenant = true → output.covenantAuthInput.toNat < tx.inputs.length)
  sighashes : ∀ input ∈ tx.inputs,
    input.sighashType = 0 ∨ input.sighashType = SigHashType.all.toByte
  slots : ∀ input ∈ tx.inputs, ValidSlots input

/-- The check accepts exactly the valid signed transactions. -/
theorem validatePartialSigned_eq_ok {tx : Transaction} :
    validatePartialSigned tx = .ok () ↔ ValidSigned tx := by
  have hinput : ∀ input, validateInput tx input = .ok () ↔
      input.utxoEntry.scriptPublicKey.script.length ≤ MAX_SCRIPT_SIZE ∧
        ∃ r, checkedRedeem tx input = .ok r := by
    intro input
    unfold validateInput
    simp only [bind_eq_ok, rejectIf_eq_ok, Nat.not_lt]
    exact ⟨fun ⟨_, hlen, r, hr, _⟩ => ⟨hlen, r, hr⟩, fun ⟨hlen, r, hr⟩ => ⟨(), hlen, r, hr, rfl⟩⟩
  have houtput : ∀ output, validateOutput tx output = .ok () ↔
      output.scriptPublicKey.script.length ≤ MAX_SCRIPT_SIZE ∧
        (output.hasCovenant = true → output.covenantAuthInput.toNat < tx.inputs.length) := by
    intro output
    unfold validateOutput
    simp only [bind_eq_ok, rejectIf_eq_ok, Nat.not_lt, not_and, Nat.not_le]
    exact ⟨fun ⟨_, hlen, hcov⟩ => ⟨hlen, hcov⟩, fun ⟨hlen, hcov⟩ => ⟨(), hlen, hcov⟩⟩
  have hsigned : ∀ input, validateSignedInput tx input = .ok () ↔
      (input.sighashType = 0 ∨ input.sighashType = SigHashType.all.toByte) ∧ ValidSlots input ∧
        ∃ r, checkedRedeem tx input = .ok r := by
    intro input
    unfold validateSignedInput
    simp only [bind_eq_ok, rejectIf_eq_ok, validateSignatureSlots_eq_ok, not_and, Decidable.not_not]
    constructor
    · intro ⟨_, hsighash, _, hslots, r, hr, _⟩
      exact ⟨Decidable.or_iff_not_imp_left.mpr hsighash, hslots, r, hr⟩
    · intro ⟨hsighash, hslots, r, hr⟩
      exact ⟨(), Decidable.or_iff_not_imp_left.mp hsighash, (), hslots, r, hr, rfl⟩
  unfold validatePartialSigned validateBaseTransaction validateTransactionShape transactionAmounts
    validateInputs validateOutputs
  simp only [bind_eq_ok, rejectIf_eq_ok, mapError_eq_ok, forM_eq_ok, hinput, houtput, hsigned, Nat.not_lt]
  constructor
  · intro ⟨_, ⟨_, ⟨_, hin, _, hmax, _, hout, _, houtmax, _, hpay, hpool⟩, amounts, hamounts, _, hinputs,
      houtputs⟩, hslots⟩
    exact ⟨⟨hin, hmax⟩, ⟨hout, houtmax⟩, hpay, hpool, ⟨amounts, hamounts⟩, fun i hi => (hinputs i hi).1,
      fun i hi => (hinputs i hi).2, houtputs, fun i hi => (hslots i hi).1,
      fun i hi => (hslots i hi).2.1⟩
  · intro h
    obtain ⟨amounts, hamounts⟩ := h.amounts
    exact ⟨(), ⟨(), ⟨(), h.inputCount.1, (), h.inputCount.2, (), h.outputCount.1, (), h.outputCount.2, (),
      h.payload, h.pool⟩, amounts, hamounts, (), fun i hi => ⟨h.scripts i hi, h.redeems i hi⟩,
      h.outputs⟩, fun i hi => ⟨h.sighashes i hi, h.slots i hi, h.redeems i hi⟩⟩

end KaspaPortal.Transaction.Kspt
