import KaspaPortal.Transaction.Kspt.InputControl
import KaspaPortal.Transaction.Kspt.Replay

/-!
# What the compact format carries of a transaction

The view leaves out where a redeem script is stored, the free signature slots, the
sighash byte of an input without signatures and the values of hints that are
absent. Whether a transaction is fully signed depends on its view alone.
-/
namespace KaspaPortal.Transaction.Kspt
open Lib Primitives Model

/-- What the format carries of an input. -/
structure InputView where
  previousOutpoint : Outpoint
  sequence : UInt64
  sigOpCount : UInt8
  utxoEntry : Model.UtxoEntry
  /-- The signatures in slot order, each with its position and sighash byte. -/
  signatures : List Signature
  redeem : Bytes
  derivation : Option Derivation
  ms45 : Option Ms45Derivation
  covenantExecution : Option CovenantExecution
  deriving DecidableEq

/-- What the format carries of an output. -/
structure OutputView where
  value : UInt64
  scriptPublicKey : ScriptPublicKey
  covenant : Option Covenant
  derivation : Option Derivation
  ms45 : Option Ms45Derivation
  deriving DecidableEq

/-- What the format carries of a transaction. -/
structure WireView where
  version : UInt16
  inputs : List InputView
  outputs : List OutputView
  network : KaspaNetwork
  locktime : UInt64
  subnetworkId : FixedBytes 20
  gas : UInt64
  payload : Bytes
  stealthTweak : Option (FixedBytes 32)
  deriving DecidableEq

/-- The redeem script by its bytes, the hints as they are written. -/
def inputView (tx : Transaction) (index : Nat) : InputView :=
  let input := inputAt tx index
  { previousOutpoint := input.previousOutpoint
    sequence := input.sequence
    sigOpCount := input.sigOpCount
    utxoEntry := input.utxoEntry
    signatures := declaredSignatures input
    redeem := tx.redeemBytes index
    derivation := derivation input.hasDerivationHint input.derivationBranch input.derivationIndex
    ms45 := ms45 input.ms45Hint
    covenantExecution := wireExecution input }

def outputView (output : TransactionOutput) : OutputView where
  value := output.value
  scriptPublicKey := output.scriptPublicKey
  covenant := wireCovenant output
  derivation := derivation output.hasDerivationHint output.derivationBranch output.derivationIndex
  ms45 := ms45 output.ms45Hint

def wireView (tx : Transaction) : WireView where
  version := tx.version
  inputs := (List.range tx.inputs.length).map (inputView tx)
  outputs := tx.outputs.map outputView
  network := tx.network
  locktime := tx.locktime
  subnetworkId := tx.subnetworkId
  gas := tx.gas
  payload := tx.payload
  stealthTweak := if tx.hasStealthTweak then some tx.stealthTweak else none

/-! ## The view decides completion -/

/-- The same view has the same inputs, one by one. -/
theorem wireView_inputs {tx tx' : Transaction} (h : wireView tx' = wireView tx) :
    tx'.inputs.length = tx.inputs.length ∧
      ∀ i < tx.inputs.length, inputView tx' i = inputView tx i := by
  have hin := congrArg WireView.inputs h
  simp only [wireView] at hin
  have hlen : tx'.inputs.length = tx.inputs.length := by simpa using congrArg List.length hin
  refine ⟨hlen, fun i hi => ?_⟩
  have hget := congrArg (fun l => l[i]?) hin
  simpa [hlen, hi] using hget

/-- What a signature hash sees of an input is in the view. -/
def InputView.sighashInput (v : InputView) : SighashInput where
  transactionId := v.previousOutpoint.transactionId
  index := v.previousOutpoint.index
  sequence := v.sequence
  sigOpCount := v.sigOpCount
  scriptVersion := v.utxoEntry.scriptPublicKey.version
  script := v.utxoEntry.scriptPublicKey.script
  amount := v.utxoEntry.amount

/-- What a signature hash sees of an output. -/
def OutputView.sighashOutput (v : OutputView) : SighashOutput where
  value := v.value
  scriptVersion := v.scriptPublicKey.version
  script := v.scriptPublicKey.script
  covenant := v.covenant.map fun c => (c.authorizingInput, c.id)

/-- What a signature hash sees of a transaction. -/
def WireView.sighashSource (v : WireView) : SighashSource where
  version := v.version
  inputs := v.inputs.map InputView.sighashInput
  outputs := v.outputs.map OutputView.sighashOutput
  locktime := v.locktime
  subnetworkId := v.subnetworkId
  gas := v.gas
  payload := v.payload

/-- A signature hash sees nothing but the view. -/
theorem sighashSource_eq (tx : Transaction) : tx.sighashSource = (wireView tx).sighashSource := by
  have hin : tx.inputs.map Transaction.sighashInput =
      (List.range tx.inputs.length).map fun i => (inputView tx i).sighashInput := by
    apply List.ext_getElem
    · simp
    · intro i hi _
      rw [List.length_map] at hi
      simp [inputView, inputAt, List.getElem?_eq_getElem hi, InputView.sighashInput,
        Transaction.sighashInput]
  have hout : Transaction.sighashOutput = fun output => (outputView output).sighashOutput := by
    funext output
    simp only [Transaction.sighashOutput, outputView, OutputView.sighashOutput, wireCovenant]
    split <;> rfl
  simp only [Transaction.sighashSource, WireView.sighashSource, wireView, hin, List.map_map, Function.comp_def,
    hout]

/-- Whether an input is signed depends on the view. -/
theorem inputIsFullySigned_congr {crypto : SignatureCrypto} {tx tx' : Transaction}
    (hv : ValidSigned tx) (hv' : ValidSigned tx') (h : wireView tx' = wireView tx) {i : Nat}
    (hi : i < tx.inputs.length) :
    inputIsFullySigned crypto tx' i = inputIsFullySigned crypto tx i := by
  obtain ⟨hlen, hviews⟩ := wireView_inputs h
  have hget : tx.inputs[i]? = some tx.inputs[i] := List.getElem?_eq_getElem hi
  have hget' : tx'.inputs[i]? = some tx'.inputs[i] := List.getElem?_eq_getElem (hlen ▸ hi)
  obtain ⟨r, hr⟩ := hv.redeems _ (List.getElem_mem hi)
  obtain ⟨r', hr'⟩ := hv'.redeems _ (List.getElem_mem (hlen ▸ hi))
  have hslots := hv.slots _ (List.getElem_mem hi)
  have hslots' := hv'.slots _ (List.getElem_mem (hlen ▸ hi))
  have hview := hviews i hi
  have hutxo := congrArg InputView.utxoEntry hview
  have hsigs := congrArg InputView.signatures hview
  have hredeem := congrArg InputView.redeem hview
  have hexec := congrArg InputView.covenantExecution hview
  simp only [inputView, inputAt, hget, hget', Option.getD_some, redeemBytes_of_checked hget hr,
    redeemBytes_of_checked hget' hr'] at hutxo hsigs hredeem hexec
  have hmessage : tx'.sighashSource = tx.sighashSource := by
    rw [sighashSource_eq, sighashSource_eq, h]
  rw [Bool.eq_iff_iff, inputIsFullySigned_iff hget' hr' hslots', inputIsFullySigned_iff hget hr hslots, hutxo,
    hsigs, hredeem, hexec, hmessage]

/-- Whether a transaction is signed depends on the view. -/
theorem ksptIsFullySigned_congr {crypto : SignatureCrypto} {tx tx' : Transaction}
    (hv : ValidSigned tx) (hv' : ValidSigned tx') (h : wireView tx' = wireView tx) :
    ksptIsFullySigned crypto tx' = ksptIsFullySigned crypto tx := by
  have hlen := (wireView_inputs h).1
  unfold ksptIsFullySigned
  rw [hlen]
  congr 1
  rw [Bool.eq_iff_iff, List.all_eq_true, List.all_eq_true]
  simp only [List.mem_range]
  constructor
  · intro hall i hi
    rw [← inputIsFullySigned_congr hv hv' h hi]
    exact hall i hi
  · intro hall i hi
    rw [inputIsFullySigned_congr hv hv' h hi]
    exact hall i hi

/-! ## Fields of an input -/

/-- The fields an input is written with determine those of the model. -/
theorem wireInputValue_eq {a b : TransactionInput} (h : wireInputValue a = wireInputValue b) :
    a.previousOutpoint = b.previousOutpoint ∧ a.sequence = b.sequence ∧
      a.sigOpCount = b.sigOpCount ∧ a.utxoEntry = b.utxoEntry := by
  simp only [wireInputValue, Input.mk.injEq] at h
  obtain ⟨hid, hindex, hamount, hseq, hops, hversion, hscript⟩ := h
  exact ⟨Outpoint.ext hid hindex, hseq, hops, Model.UtxoEntry.ext hamount (ScriptPublicKey.ext hversion hscript)⟩

/-- The declared slots hold the signatures that were read. -/
theorem Shows.declared {tx : Transaction} {input : TransactionInput} {w : WireInput}
    (h : Shows tx input w) : declaredSignatures input = w.signatures := by
  have hwire : ∀ v : Signature, wireSignature (fillSlot v .empty) = v := fun _ => rfl
  rw [declaredSignatures, h.sigs, h.count, List.take_left' (by simp)]
  simp [Function.comp_def, hwire]

/-- The slots of a filled input are valid. -/
theorem Shows.validSlots {tx : Transaction} {input : TransactionInput} {w : WireInput}
    (h : Shows tx input w) (hall : SignsAll w) (hlen : w.signatures.length ≤ MAX_SIGS_PER_INPUT)
    (hpos : (w.signatures.map (·.position)).Nodup) : ValidSlots input := by
  have htake : input.sigs.val.take input.sigCount.toNat =
      w.signatures.map fun v => fillSlot v .empty := by
    rw [h.sigs, h.count, List.take_left' (by simp)]
  have hdrop : input.sigs.val.drop input.sigCount.toNat =
      List.replicate (MAX_SIGS_PER_INPUT - w.signatures.length) .empty := by
    rw [h.sigs, h.count, List.drop_left' (by simp)]
  refine ⟨by rw [h.count]; exact hlen, ?_, ?_, ?_, fun hne => ?_⟩
  · rw [htake]
    intro slot hslot
    obtain ⟨v, hv, rfl⟩ := List.mem_map.mp hslot
    exact ⟨rfl, hall v hv⟩
  · rw [hdrop]
    intro slot hslot
    rw [(List.mem_replicate.mp hslot).2]
    rfl
  · rw [htake, List.map_map]
    exact hpos
  · rw [h.count] at hne
    rw [h.sigs, h.sighash]
    cases hs : w.signatures with
    | nil => simp [hs] at hne
    | cons v vs =>
      have hv := hall v (by simp [hs])
      simp [fillSlot, hv]

/-! ## Hints -/

/-- A trailer written for an index names that index. -/
theorem WritableTrailers.trailerAt {source : EncodeSource} (h : WritableTrailers source)
    {kind : IndexedTrailer} {i : Nat} {t : Trailer} (hi : i < source.countOf kind)
    (ht : source.trailerAt kind i = some t) : t.kind = some kind ∧ t.position.toNat = i := by
  have hto : i < 256 → (UInt8.ofNat i).toNat = i := fun hlt => by
    rw [UInt8.toNat_ofNat', Nat.mod_eq_of_lt hlt]
  cases kind with
  | inputMs45 =>
    obtain ⟨v, hv, rfl⟩ := Option.map_eq_some_iff.mp ht
    exact ⟨rfl, hto (h.inputMs45 i hi v hv).2⟩
  | outputMs45 =>
    obtain ⟨v, hv, rfl⟩ := Option.map_eq_some_iff.mp ht
    exact ⟨rfl, hto (h.outputMs45 i hi v hv).2⟩
  | covenant =>
    obtain ⟨v, hv, rfl⟩ := Option.map_eq_some_iff.mp ht
    exact ⟨rfl, hto (h.covenant i hi v hv).2⟩
  | covenantExecution =>
    obtain ⟨v, hv, rfl⟩ := Option.map_eq_some_iff.mp ht
    exact ⟨rfl, hto (h.covenantExecution i hi v hv).2⟩
  | inputDerivation =>
    obtain ⟨v, hv, rfl⟩ := Option.map_eq_some_iff.mp ht
    exact ⟨rfl, hto (h.inputDerivation i hi v hv).2⟩
  | outputDerivation =>
    obtain ⟨v, hv, rfl⟩ := Option.map_eq_some_iff.mp ht
    exact ⟨rfl, hto (h.outputDerivation i hi v hv).2⟩

/-- A transaction carries the trailers its source lists. -/
theorem carries_source {crypto : SignatureCrypto} {tx : Transaction}
    (h : WritableTrailers (transactionSource crypto tx)) (hin : tx.inputs.length < 2 ^ 32)
    (hout : tx.outputs.length < 2 ^ 8) :
    CarriesExactly (transactionSource crypto tx) (transactionSource crypto tx).trailers := by
  refine ⟨fun kind i t => ?_, fun code hmem => ?_, fun tweak => ?_⟩
  · rw [EncodeSource.mem_trailers]
    constructor
    · intro ht
      have hlt := trailerAt_lt ht hin hout
      exact ⟨.inr (.inr ⟨kind, i, hlt, ht⟩), h.trailerAt hlt ht⟩
    · intro ⟨hmem, hkind, hpos⟩
      obtain rfl | hst | ⟨kind', i', hlt, ht⟩ := hmem
      · cases hkind
      · obtain ⟨tweak, _, rfl⟩ := Option.map_eq_some_iff.mp hst
        cases hkind
      · obtain ⟨hkind', hpos'⟩ := h.trailerAt hlt ht
        rw [hkind'] at hkind
        cases hkind
        rw [hpos'] at hpos
        rwa [hpos] at ht
  · obtain hnet | hst | ⟨kind, i, hlt, ht⟩ := EncodeSource.mem_trailers.mp hmem
    · exact (Trailer.network.inj hnet).symm
    · obtain ⟨tweak, _, hc⟩ := Option.map_eq_some_iff.mp hst
      cases hc
    · cases (h.trailerAt hlt ht).1
  · rw [EncodeSource.mem_trailers]
    constructor
    · intro hst
      exact .inr (.inl (by rw [hst]; rfl))
    · intro hmem
      obtain hnet | hst | ⟨kind, i, hlt, ht⟩ := hmem
      · cases hnet
      · obtain ⟨other, hother, heq⟩ := Option.map_eq_some_iff.mp hst
        rw [hother, Trailer.stealth.inj heq]
      · cases (h.trailerAt hlt ht).1

/-- The hints of an input and of an output, at every index. -/
structure SameHints (tx tx' : Transaction) : Prop where
  network : tx'.network = tx.network
  stealth : (if tx'.hasStealthTweak then some tx'.stealthTweak else none) =
    if tx.hasStealthTweak then some tx.stealthTweak else none
  inputDerivation : ∀ i, derivation (inputAt tx' i).hasDerivationHint (inputAt tx' i).derivationBranch
      (inputAt tx' i).derivationIndex =
    derivation (inputAt tx i).hasDerivationHint (inputAt tx i).derivationBranch
      (inputAt tx i).derivationIndex
  inputMs45 : ∀ i, ms45 (inputAt tx' i).ms45Hint = ms45 (inputAt tx i).ms45Hint
  execution : ∀ i, wireExecution (inputAt tx' i) = wireExecution (inputAt tx i)
  covenant : ∀ i, wireCovenant (outputAt tx' i) = wireCovenant (outputAt tx i)
  outputDerivation : ∀ i, derivation (outputAt tx' i).hasDerivationHint
      (outputAt tx' i).derivationBranch (outputAt tx' i).derivationIndex =
    derivation (outputAt tx i).hasDerivationHint (outputAt tx i).derivationBranch
      (outputAt tx i).derivationIndex
  outputMs45 : ∀ i, ms45 (outputAt tx' i).ms45Hint = ms45 (outputAt tx i).ms45Hint

/-- Every network has its own byte. -/
theorem toByte_injective : Function.Injective KaspaNetwork.toByte := by
  intro a b h
  cases a <;> cases b <;> first | rfl | cases h

/-- Two transactions that carry the same trailers have the same hints. -/
theorem CarriesExactly.sameHints {crypto : SignatureCrypto} {tx tx' : Transaction} {ts : List Trailer}
    (h : CarriesExactly (transactionSource crypto tx) ts)
    (h' : CarriesExactly (transactionSource crypto tx') ts) (hcan : Canonical ts) (hne : ts ≠ []) : SameHints tx tx' := by
  have hat : ∀ kind i, (transactionSource crypto tx').trailerAt kind i =
      (transactionSource crypto tx).trailerAt kind i := by
    intro kind i
    apply Option.ext
    intro t
    rw [h'.indexed, h.indexed]
  obtain ⟨code, hcode⟩ := hcan.network hne
  have hmem := ((hcode (.network code)).mpr rfl).1
  refine ⟨?_, ?_, fun i => ?_, fun i => ?_, fun i => ?_, fun i => ?_, fun i => ?_, fun i => ?_⟩
  · exact toByte_injective ((h'.network code hmem).trans (h.network code hmem).symm)
  · apply Option.ext
    intro tweak
    exact (h'.stealth tweak).trans (h.stealth tweak).symm
  · exact Option.map_injective (fun _ _ he => (Trailer.inputDerivation.inj he).2) (hat .inputDerivation i)
  · exact Option.map_injective (fun _ _ he => (Trailer.inputMs45.inj he).2) (hat .inputMs45 i)
  · exact Option.map_injective (fun _ _ he => (Trailer.covenantExecution.inj he).2) (hat .covenantExecution i)
  · exact Option.map_injective (fun _ _ he => (Trailer.covenant.inj he).2) (hat .covenant i)
  · exact Option.map_injective (fun _ _ he => (Trailer.outputDerivation.inj he).2) (hat .outputDerivation i)
  · exact Option.map_injective (fun _ _ he => (Trailer.outputMs45.inj he).2) (hat .outputMs45 i)

end KaspaPortal.Transaction.Kspt
