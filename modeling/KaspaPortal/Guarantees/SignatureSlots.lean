import KaspaPortal.Guarantees.KsptCodec
import KaspaPortal.Transaction.Kspt.Signing.Calls

/-!
# Signing keeps the signature slots

The slot rules are those the serializer checks. An entry point may fail between two inputs, so what is
shown of a call is shown of the transaction it leaves, whatever its result.

Finding keys and making signatures are parameters of the calls.
-/
namespace KaspaPortal.Guarantees
open Lib Primitives Transaction Transaction.Model Transaction.Kspt

/-! ## What the serializer takes -/

def Serializes (crypto : SignatureCrypto) (tx : Transaction) : Prop :=
  ∃ capacity b, serializeCompactKspt crypto tx capacity = .ok b

section serialized
variable {crypto : SignatureCrypto} {sighash : UInt8} {tx after : Transaction}

theorem edits_length (h : Edits (SameBody sighash) tx after) : after.inputs.length = tx.inputs.length :=
  h.inputs.length_eq.symm

/-- What holds of an input whatever its signatures still holds after a call. -/
theorem edited_forall {P Q : TransactionInput → Prop} (h : Edits (SameBody sighash) tx after)
    (hP : ∀ input ∈ tx.inputs, P input)
    (hQ : ∀ before input, SameBody sighash before input → P before → Q input) :
    ∀ input ∈ after.inputs, Q input := by
  intro input hmem
  obtain ⟨before, hbefore, hsame⟩ := forall₂_right h.inputs hmem
  exact hQ before input hsame (hP before hbefore)

theorem inputAt_edited (h : Edits (SameBody sighash) tx after) (index : Nat) :
    SameBody sighash (inputAt tx index) (inputAt after index) := by
  have hat := forall₂_getElem? h.inputs index
  rw [inputAt, inputAt]
  generalize tx.inputs[index]? = before at hat
  generalize after.inputs[index]? = input at hat
  cases hat with
  | none => exact SameBody.refl _
  | some hsame => exact hsame

theorem checkedRedeem_edited (h : Edits (SameBody sighash) tx after) {before input : TransactionInput}
    (hinput : SameBody sighash before input) : checkedRedeem after input = checkedRedeem tx before := by
  rw [h.frame, hinput.body]
  rfl

/-- The encoder gets the same values but for the flag and the signatures. -/
theorem source_edited (h : Edits (SameBody sighash) tx after) :
    transactionSource crypto after = { transactionSource crypto tx with
      global := { (transactionSource crypto tx).global with flags := (transactionSource crypto after).global.flags }
      signatureCount := (transactionSource crypto after).signatureCount
      signature := (transactionSource crypto after).signature } := by
  have hinput : ∀ index, inputAt after index = { inputAt tx index with
      sigs := (inputAt after index).sigs
      sigCount := (inputAt after index).sigCount
      sighashType := (inputAt after index).sighashType } := fun index => (inputAt_edited h index).body
  have hredeem : ∀ index, checkedRedeemBytes after index = checkedRedeemBytes tx index := by
    intro index
    have hat := forall₂_getElem? h.inputs index
    rw [checkedRedeemBytes, checkedRedeemBytes]
    generalize tx.inputs[index]? = before at hat
    generalize after.inputs[index]? = input at hat
    cases hat with
    | none => rfl
    | some hsame => exact checkedRedeem_edited h hsame
  have hvalue : ∀ index, wireInputValue (inputAt after index) = wireInputValue (inputAt tx index) := by
    intro index
    rw [hinput index]
    rfl
  have houtput : ∀ index, outputAt after index = outputAt tx index := by
    intro index
    rw [outputAt, h.field (f := Transaction.outputs) fun _ => rfl]
    rfl
  have hglobal : (transactionSource crypto after).global = { (transactionSource crypto tx).global with
      flags := (transactionSource crypto after).global.flags } := by
    simp only [transactionSource, Global.mk.injEq, true_and]
    rw [edits_length h]
    exact ⟨h.field (f := Transaction.version) fun _ => rfl, rfl,
      h.field (f := fun tx => UInt8.ofNat tx.outputs.length) fun _ => rfl,
      h.field (f := Transaction.locktime) fun _ => rfl, h.field (f := Transaction.subnetworkId) fun _ => rfl,
      h.field (f := Transaction.gas) fun _ => rfl, h.field (f := Transaction.payload) fun _ => rfl⟩
  rw [EncodeSource.mk.injEq]
  refine ⟨hglobal, funext hvalue, rfl, rfl, ?_, ?_, ?_, ?_, ?_, ?_, ?_, ?_, ?_, ?_⟩
  · funext index
    simp only [transactionSource, hredeem index]
  · funext index
    simp only [transactionSource, houtput index]
  · exact h.field (f := fun tx => tx.network.toByte) fun _ => rfl
  · exact h.field (f := fun tx => if tx.hasStealthTweak then some tx.stealthTweak else none) fun _ => rfl
  · funext index
    simp only [transactionSource]
    rw [hinput index]
  · funext index
    simp only [transactionSource, houtput index]
  · funext index
    simp only [transactionSource]
    rw [hinput index]
  · funext index
    simp only [transactionSource, houtput index]
  · funext index
    simp only [transactionSource, houtput index]
  · funext index
    simp only [transactionSource]
    rw [hinput index]
    rfl

theorem validSigned_edited (h : Edits (SameBody SigHashType.all.toByte) tx after)
    (hslots : ∀ input ∈ after.inputs, ValidSlots input) (hv : ValidSigned tx) : ValidSigned after := by
  have hlength := edits_length h
  have hlimits : after.limits = tx.limits := h.field (f := Transaction.limits) fun _ => rfl
  have houtputs : after.outputs = tx.outputs := h.field (f := Transaction.outputs) fun _ => rfl
  constructor
  case inputCount =>
    rw [hlength, hlimits]
    exact hv.inputCount
  case outputCount =>
    rw [houtputs]
    exact hv.outputCount
  case payload =>
    rw [hlimits, h.field (f := Transaction.payload) fun _ => rfl]
    exact hv.payload
  case pool =>
    rw [h.field (f := Transaction.redeemPoolUsed) fun _ => rfl]
    exact hv.pool
  case amounts =>
    have hamounts : after.inputs.map (·.utxoEntry.amount) = tx.inputs.map (·.utxoEntry.amount) :=
      forall₂_map_eq h.inputs fun before input hsame => by rw [hsame.body]
    rw [Transaction.checkedAmounts, hamounts, houtputs]
    exact hv.amounts
  case scripts => exact edited_forall h hv.scripts fun before input hsame hscript => by rwa [hsame.body]
  case redeems =>
    exact edited_forall h hv.redeems fun before input hsame hredeem => by rwa [checkedRedeem_edited h hsame]
  case outputs =>
    rw [hlength, houtputs]
    exact hv.outputs
  case sighashes =>
    refine edited_forall h hv.sighashes fun before input hsame hbefore => ?_
    obtain hkept | hnew := hsame.sighashType
    · rwa [hkept]
    · exact .inr hnew
  case slots => exact hslots

/-- A transaction that serializes still does, if the signatures it has got are SIGHASH_ALL ones. -/
theorem serializes_edited (h : Edits (SameBody SigHashType.all.toByte) tx after)
    (hslots : ∀ input ∈ after.inputs, ValidSlots input) (hserializes : Serializes crypto tx) :
    Serializes crypto after := by
  obtain ⟨capacity, b, hserialize⟩ := hserializes
  obtain ⟨hvalid, hg, hi, ho, ht, _, _⟩ := serializeCompactKspt_eq_ok.mp hserialize
  have hv := validatePartialSigned_eq_ok.mp hvalid
  have hv' := validSigned_edited h hslots hv
  have hsource : transactionSource crypto after = _ := source_edited h
  refine ⟨_, _, serializeCompactKspt_eq_ok.mpr
    ⟨validatePartialSigned_eq_ok.mpr hv', ?_, ?_, ?_, ?_, rfl, le_refl _⟩⟩
  · have hflags : (transactionSource crypto after).global.flags &&& ~~~ALLOWED_FLAGS = 0 := by
      change (if ksptIsFullySigned crypto after then FLAG_SIGNED_OR_COMPLETE else 0) &&& ~~~ALLOWED_FLAGS = 0
      split
      case isTrue => decide
      case isFalse => decide
    rw [hsource, limitsOf, h.field (f := Transaction.limits) fun _ => rfl]
    exact ⟨hflags, hg.version, hg.inputs, hg.outputs, hg.payload, hg.payloadWidth⟩
  · refine envelope_inputs_forall (P := WireInput.Valid) hv' fun input hmem r hr => ?_
    obtain ⟨before, hbefore, hsame⟩ := forall₂_right h.inputs hmem
    obtain ⟨index, hindex⟩ := List.mem_iff_getElem?.mp hbefore
    have hredeem : checkedRedeem tx before = .ok r := (checkedRedeem_edited h hsame).symm.trans hr
    have hwire : (transactionSource crypto tx).envelope.inputs[index]? = _ :=
      envelope_input hv (List.getElem?_eq_some_iff.mp hindex).1
    rw [source_wireInput hindex hredeem (hv.slots before hbefore).count] at hwire
    have hvalid' := hi _ (List.mem_of_getElem? hwire)
    have hslot := hslots input hmem
    have hbody : wireInputValue input = wireInputValue before := by
      rw [hsame.body]
      rfl
    constructor
    case sigOps =>
      rw [hbody]
      exact hvalid'.sigOps
    case script =>
      rw [hbody]
      exact hvalid'.script
    case signatures =>
      rw [declaredSignatures, List.length_map, List.length_take]
      exact (Nat.min_le_left _ _).trans hslot.count
    case positions =>
      rw [declaredSignatures, List.map_map]
      exact hslot.positions
    case sighashes =>
      intro signature hsignature
      obtain ⟨slot, hmem', rfl⟩ := List.mem_map.mp hsignature
      rw [wireSignature, (hslot.present slot hmem').2]
      exact (by decide : validSighash SigHashType.all.toByte = true)
    case redeem => exact hvalid'.redeem
  · have houtputs : (transactionSource crypto after).envelope.outputs =
        (transactionSource crypto tx).envelope.outputs := by
      rw [hsource]
      rfl
    rw [houtputs]
    exact ho
  · rw [hsource]
    exact ⟨ht.network, ht.inputMs45, ht.outputMs45, ht.covenant, ht.covenantExecution, ht.inputDerivation,
      ht.outputDerivation⟩

end serialized

/-- Whatever its result, a call leaves every input within the slot rules. The entry points that sign with
the seeds keep the signatures in their slots and add to them. The single-key and multi-address ones leave
the signatures of an input as they are, or make the signature they made for it the only one. With
SIGHASH_ALL a transaction that serializes still does. -/
theorem signature_slots_kept (crypto : SignatureCrypto) (signer : Signer) (entry : EntryPoint)
    (sighashType : SigHashType) (tx : Transaction) (hrules : ∀ input ∈ tx.inputs, SlotRules input) :
    let after := (outcome (entry.call signer sighashType) tx).2
    (∀ input ∈ after.inputs, SlotRules input) ∧
      List.Forall₂ (fun input input' =>
        (entry.ofSeeds = true → signatures input <+: signatures input') ∧
        (entry.ofSeeds = false → signatures input' = signatures input ∨
          ∃ slot, signatures input' = [slot] ∧ signer.SignsFor sighashType input slot.signature))
        tx.inputs after.inputs ∧
      (sighashType = .all → Serializes crypto tx → Serializes crypto after) := by
  intro after
  have hcall : Edits (Kept signer entry.ofSeeds sighashType) tx after :=
    call_kept signer entry sighashType tx hrules
  have hafter : ∀ input ∈ after.inputs, SlotRules input := by
    intro input hmem
    obtain ⟨before, _, hkept⟩ := forall₂_right hcall.inputs hmem
    exact hkept.rules
  refine ⟨hafter, hcall.inputs.imp fun before input hkept => ⟨hkept.appended, hkept.replaced⟩, ?_⟩
  intro hall hserializes
  rw [hall] at hcall
  refine serializes_edited ⟨hcall.frame, hcall.inputs.imp fun before input hkept => hkept.toSameBody⟩ ?_ hserializes
  intro input hmem
  obtain ⟨before, hbefore, hkept⟩ := forall₂_right hcall.inputs hmem
  obtain ⟨capacity, b, hserialize⟩ := hserializes
  have hv := validatePartialSigned_eq_ok.mp (serializeCompactKspt_eq_ok.mp hserialize).1
  refine validSlots_iff.mpr ⟨hkept.rules, fun slot hslot => ?_⟩
  obtain hold | hnew := hkept.fresh slot hslot
  · exact (validSlots_iff.mp (hv.slots before hbefore)).2 slot hold
  · exact hnew

/-! ## A signature on an input -/

def zeroSigner : Signer := ⟨fun _ _ _ _ _ => some (zeros 64), fun _ => some (zeros 33)⟩

/-- A seed that has every key. -/
def zeroContext : SigningContext where
  seedCount := 1
  accountXonly := fun _ => none
  accountMaterial := fun _ => none
  directAddressMaterial := fun _ _ => some ⟨zeros 32, zeros 33⟩
  cachedAddressMaterial := fun _ _ => none
  kip22Material := fun _ _ => none
  ms45Material := fun _ _ => none

/-- A signature at position 3. -/
def sampleSlot : InputSig := ⟨zeros 64, SigHashType.all.toByte, 3, true, zeros 33⟩

def signedInput : TransactionInput :=
  { inputAt sampleTransaction 0 with
    sigs := SigSlots.empty.modify 0 fun _ => sampleSlot
    sigCount := 1
    sighashType := SigHashType.all.toByte }

def signedSample : Transaction := { sampleTransaction with inputs := [signedInput] }

theorem signedSample_rules : ∀ input ∈ signedSample.inputs, SlotRules input := by
  intro input hmem
  obtain rfl := List.mem_singleton.mp hmem
  have hvalid : validateSignatureSlots signedInput = .ok () := rfl
  exact (validSlots_iff.mp (validateSignatureSlots_eq_ok.mp hvalid)).1

/-- Another signature than the one at position 3. -/
def nines : FixedBytes 64 := ⟨List.replicate 64 9, by simp⟩

def nineSigner : Signer := ⟨fun _ _ _ _ _ => some nines, fun _ => some (zeros 33)⟩

/-- A single key replaces the signature; the seeds sign the input that has none. -/
theorem signature_slots_kept_sample :
    let replaced := (outcome ((EntryPoint.inPlace (zeros 32) none).call nineSigner .all) signedSample).2
    let added := (outcome ((EntryPoint.multisig zeroContext none none).call nineSigner .all)
      sampleTransaction).2
    (signatures (inputAt replaced 0)).map InputSig.signature = [nines] ∧
      (signatures (inputAt added 0)).map InputSig.signature = [nines] ∧
      (∀ input ∈ replaced.inputs, SlotRules input) ∧
      (∀ input ∈ added.inputs, SlotRules input) ∧ Serializes noCrypto added := by
  intro replaced added
  have hunsigned : ∀ input ∈ sampleTransaction.inputs, SlotRules input := by
    intro input hmem
    obtain rfl := List.mem_singleton.mp hmem
    have hvalid : validateSignatureSlots (inputAt sampleTransaction 0) = .ok () := rfl
    exact (validSlots_iff.mp (validateSignatureSlots_eq_ok.mp hvalid)).1
  obtain ⟨hreplaced, -, -⟩ := signature_slots_kept noCrypto nineSigner (.inPlace (zeros 32) none) .all
    signedSample signedSample_rules
  obtain ⟨hadded, -, hserializes⟩ := signature_slots_kept noCrypto nineSigner
    (.multisig zeroContext none none) .all sampleTransaction hunsigned
  exact ⟨by decide +kernel, by decide +kernel, hreplaced, hadded,
    hserializes rfl ⟨200, exists_ok (by decide +kernel)⟩⟩

/-- Signing with a single key drops the signature, and a signature of another sighash than SIGHASH_ALL is
not serialized. -/
theorem single_key_drops_signature :
    (∀ input ∈ signedSample.inputs, SlotRules input) ∧
      sampleSlot ∈ signatures (inputAt signedSample 0) ∧
      sampleSlot ∉ signatures (inputAt
        (outcome ((EntryPoint.inPlace (zeros 32) none).call zeroSigner .all) signedSample).2 0) ∧
      Serializes noCrypto sampleTransaction ∧
      ¬ Serializes noCrypto
        (outcome ((EntryPoint.multisig zeroContext none none).call zeroSigner .none) sampleTransaction).2 := by
  refine ⟨signedSample_rules, by decide +kernel, by decide +kernel, ⟨200, exists_ok (by decide +kernel)⟩, ?_⟩
  · intro h
    obtain ⟨capacity, b, hserialize⟩ := h
    have hvalid := (serializeCompactKspt_eq_ok.mp hserialize).1
    have hinvalid : validatePartialSigned (outcome ((EntryPoint.multisig zeroContext none none).call zeroSigner
        .none) sampleTransaction).2 = .error .invalidSigHashType := by decide
    exact absurd (hinvalid.symm.trans hvalid) (by decide)

end KaspaPortal.Guarantees
