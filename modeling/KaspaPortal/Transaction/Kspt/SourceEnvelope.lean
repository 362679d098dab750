import KaspaPortal.Transaction.Kspt.RedeemPool

/-!
# The envelope of a valid transaction

What the serializer writes of a transaction that passes the shape checks is an
envelope the decoder accepts, and a transaction filled from that envelope shows all
that the format carries of the first one.
-/
namespace KaspaPortal.Transaction.Kspt
open Lib Primitives Transaction Transaction.Model

variable {crypto : SignatureCrypto}
variable {tx : Transaction}

theorem source_counts (crypto : SignatureCrypto) (hv : ValidSigned tx) :
    (transactionSource crypto tx).global.inputCount.toNat = tx.inputs.length ∧
      (transactionSource crypto tx).global.outputCount.toNat = tx.outputs.length := by
  have hin := hv.inputCount.2
  have hlim := tx.limits.maxInputs_le
  have hmax : MAX_INPUTS = 65535 := rfl
  have hout := hv.outputCount.2
  have hmaxout : MAX_OUTPUTS = 8 := rfl
  simp only [transactionSource]
  rw [UInt32.toNat_ofNat', UInt8.toNat_ofNat', Nat.mod_eq_of_lt (by omega), Nat.mod_eq_of_lt (by omega)]
  exact ⟨rfl, rfl⟩

theorem source_lengths (hv : ValidSigned tx) :
    tx.inputs.length < 2 ^ 32 ∧ tx.outputs.length < 2 ^ 8 := by
  have hin := hv.inputCount.2
  have hlim := tx.limits.maxInputs_le
  have hmax : MAX_INPUTS = 65535 := rfl
  have hout := hv.outputCount.2
  have hmaxout : MAX_OUTPUTS = 8 := rfl
  omega

/-- The wire form of one input. -/
theorem source_wireInput {i : Nat} {input : TransactionInput} {r : Bytes}
    (hi : tx.inputs[i]? = some input) (hr : checkedRedeem tx input = .ok r)
    (hcount : input.sigCount.toNat ≤ MAX_SIGS_PER_INPUT) :
    (transactionSource crypto tx).wireInput i =
      ⟨wireInputValue input, declaredSignatures input, r⟩ := by
  have hat : inputAt tx i = input := by rw [inputAt, hi, Option.getD_some]
  have hsigs : (List.range input.sigCount.toNat).map
      (fun slot => wireSignature (input.sigs.val[slot]?.getD .empty)) = declaredSignatures input := by
    have hfive := input.sigs.property
    apply List.ext_getElem
    · simp [declaredSignatures]
      omega
    · intro slot hslot hdecl
      simp only [List.length_map, List.length_range] at hslot
      simp only [declaredSignatures, List.getElem_map, List.getElem_range, List.getElem_take]
      rw [List.getElem?_eq_getElem (by omega), Option.getD_some]
  simp only [EncodeSource.wireInput, transactionSource, hat, checkedRedeemBytes_of hi hr, hsigs]

/-- The storage has room for the transaction. -/
def Admits (storage tx : Transaction) : Prop :=
  tx.inputs.length ≤ storage.limits.maxInputs ∧ tx.payload.length ≤ storage.limits.maxPayloadBytes

theorem source_trailers_valid (hv : ValidSigned tx)
    (ht : WritableTrailers (transactionSource crypto tx)) :
    ∀ t ∈ (transactionSource crypto tx).trailers, t.Valid tx.inputs.length tx.outputs.length := by
  obtain ⟨hin, hout⟩ := source_counts crypto hv
  intro t hmem
  obtain hnet | hst | ⟨kind, i, hi, hat⟩ := EncodeSource.mem_trailers.mp hmem
  · rw [hnet]
    exact ht.network
  · obtain ⟨tweak, _, hst⟩ := Option.map_eq_some_iff.mp hst
    rw [← hst]
    trivial
  · have hpos : t.position.toNat < (transactionSource crypto tx).countOf kind := by
      rw [(ht.trailerAt hi hat).2]
      exact hi
    cases kind with
    | inputMs45 =>
      obtain ⟨v, hsome, hmake⟩ := Option.map_eq_some_iff.mp hat
      subst hmake
      exact ⟨by rw [← hin]; exact hpos, (ht.inputMs45 i hi v hsome).1⟩
    | outputMs45 =>
      obtain ⟨v, hsome, hmake⟩ := Option.map_eq_some_iff.mp hat
      subst hmake
      exact ⟨by rw [← hout]; exact hpos, (ht.outputMs45 i hi v hsome).1⟩
    | covenantExecution =>
      obtain ⟨v, hsome, hmake⟩ := Option.map_eq_some_iff.mp hat
      subst hmake
      exact ⟨by rw [← hin]; exact hpos, (ht.covenantExecution i hi v hsome).1⟩
    | inputDerivation =>
      obtain ⟨v, hsome, hmake⟩ := Option.map_eq_some_iff.mp hat
      subst hmake
      exact ⟨by rw [← hin]; exact hpos, (ht.inputDerivation i hi v hsome).1⟩
    | outputDerivation =>
      obtain ⟨v, hsome, hmake⟩ := Option.map_eq_some_iff.mp hat
      subst hmake
      exact ⟨by rw [← hout]; exact hpos, (ht.outputDerivation i hi v hsome).1⟩
    | covenant =>
      obtain ⟨v, hsome, hmake⟩ := Option.map_eq_some_iff.mp hat
      subst hmake
      have hlt : i < tx.outputs.length := hout ▸ hi
      refine ⟨by rw [← hout]; exact hpos, ?_⟩
      have hcov : wireCovenant tx.outputs[i] = some v := by
        simpa [transactionSource, outputAt, List.getElem?_eq_getElem hlt] using hsome
      unfold wireCovenant at hcov
      split at hcov
      · rename_i hhas
        cases hcov
        exact (hv.outputs _ (List.getElem_mem hlt)).2 hhas
      · cases hcov

theorem source_envelope_valid {storage : Transaction} (hv : ValidSigned tx) (hroom : Admits storage tx)
    (hg : ValidGlobal (limitsOf tx) (transactionSource crypto tx).global)
    (hi : ∀ i ∈ (transactionSource crypto tx).envelope.inputs, i.Valid)
    (ho : ∀ o ∈ (transactionSource crypto tx).envelope.outputs, o.script.length ≤ MAX_SCRIPT_SIZE)
    (ht : WritableTrailers (transactionSource crypto tx)) :
    (transactionSource crypto tx).envelope.Valid (limitsOf storage) := by
  obtain ⟨hin, hout⟩ := source_counts crypto hv
  have hinlen : (transactionSource crypto tx).envelope.inputs.length = tx.inputs.length := by
    simp only [EncodeSource.envelope, List.length_map, List.length_range, hin]
  have houtlen : (transactionSource crypto tx).envelope.outputs.length = tx.outputs.length := by
    simp only [EncodeSource.envelope, List.length_map, List.length_range, hout]
  refine ⟨⟨hg.flags, hg.version, ?_, hg.outputs, hroom.2, hg.payloadWidth⟩, hinlen.trans hin.symm,
    houtlen.trans hout.symm, hi, ho, ?_, ht.canonical, List.cons_ne_nil _ _⟩
  · have hlim := storage.limits.maxInputs_le
    have hmax : MAX_INPUTS = 65535 := rfl
    rw [UInt32.le_iff_toNat_le]
    refine Nat.le_trans (Nat.le_of_eq hin) ?_
    simp only [limitsOf, UInt32.toNat_ofNat']
    rw [Nat.mod_eq_of_lt (by omega)]
    exact hroom.1
  · rw [hinlen, houtlen]
    exact source_trailers_valid hv ht

/-! ## What comes back -/

theorem envelope_input {i : Nat} (hv : ValidSigned tx) (hi : i < tx.inputs.length) :
    (transactionSource crypto tx).envelope.inputs[i]? =
      some ((transactionSource crypto tx).wireInput i) := by
  simp [EncodeSource.envelope, (source_counts crypto hv).1, hi]

theorem envelope_outputs (hv : ValidSigned tx) :
    (transactionSource crypto tx).envelope.outputs = tx.outputs.map wireOutput := by
  simp only [EncodeSource.envelope, (source_counts crypto hv).2]
  apply List.ext_getElem
  · simp
  · intro i _ hi
    rw [List.length_map] at hi
    simp [transactionSource, outputAt, List.getElem?_eq_getElem hi]

/-- What a transaction filled from the envelope of `tx` shares with `tx`, at one input. -/
theorem reproduced_input {tx' : Transaction} (hv : ValidSigned tx)
    (hrep : Reproduces crypto tx' (transactionSource crypto tx).envelope) {i : Nat}
    (hi : i < tx.inputs.length) :
    ∃ input', tx'.inputs[i]? = some input' ∧ Shows tx' input' ⟨wireInputValue tx.inputs[i],
      declaredSignatures tx.inputs[i], tx.redeemBytes i⟩ := by
  have hget := List.getElem?_eq_getElem hi
  obtain ⟨r, hr⟩ := hv.redeems _ (List.getElem_mem hi)
  have hwire : (transactionSource crypto tx).wireInput i = _ :=
    source_wireInput hget hr (hv.slots _ (List.getElem_mem hi)).count
  obtain ⟨input', hget', hshows⟩ := hrep.inputs i _ (envelope_input hv hi)
  rw [hwire] at hshows
  rw [redeemBytes_of_checked hget hr]
  exact ⟨input', hget', hshows⟩

theorem reproduced_view {tx' : Transaction} (hv : ValidSigned tx)
    (ht : WritableTrailers (transactionSource crypto tx))
    (hrep : Reproduces crypto tx' (transactionSource crypto tx).envelope) :
    wireView tx' = wireView tx := by
  obtain ⟨hinlt, houtlt⟩ := source_lengths hv
  have hhints := (carries_source ht hinlt houtlt).sameHints hrep.trailers ht.canonical
    (List.cons_ne_nil _ _)
  obtain ⟨hversion, hlock, hsub, hgas, hpay⟩ := hrep.global
  have hinlen : tx'.inputs.length = tx.inputs.length := by
    rw [hrep.inputCount]
    simp [EncodeSource.envelope, (source_counts crypto hv).1]
  have hinputs : (List.range tx'.inputs.length).map (inputView tx') =
      (List.range tx.inputs.length).map (inputView tx) := by
    rw [hinlen]
    apply List.map_congr_left
    intro i hi
    have hi := List.mem_range.mp hi
    obtain ⟨input', hget', hshows⟩ := reproduced_input hv hrep hi
    have hat : inputAt tx i = tx.inputs[i] := by
      rw [inputAt, List.getElem?_eq_getElem hi, Option.getD_some]
    have hat' : inputAt tx' i = input' := by rw [inputAt, hget', Option.getD_some]
    have hd := hhints.inputDerivation i
    have hm := hhints.inputMs45 i
    have he := hhints.execution i
    rw [hat, hat'] at hd hm he
    obtain ⟨hpoint, hseq, hops, hutxo⟩ := wireInputValue_eq hshows.value
    simp only [inputView, hat, hat', hpoint, hseq, hops, hutxo, hshows.declared,
      redeemBytes_of_checked hget' hshows.redeem, hd, hm, he]
  have houtputs : tx'.outputs.map outputView = tx.outputs.map outputView := by
    have hwire : tx'.outputs.map wireOutput = tx.outputs.map wireOutput := by
      rw [hrep.outputs, envelope_outputs hv]
    have hlen : tx'.outputs.length = tx.outputs.length := by simpa using congrArg List.length hwire
    apply List.ext_getElem
    · simp [hlen]
    · intro i hi' hi
      rw [List.length_map] at hi hi'
      have hone := congrArg (fun l => l[i]?) hwire
      simp only [List.getElem?_map, List.getElem?_eq_getElem hi, List.getElem?_eq_getElem hi',
        Option.map_some, Option.some.injEq, wireOutput, Output.mk.injEq] at hone
      have hat : outputAt tx i = tx.outputs[i] := by
        rw [outputAt, List.getElem?_eq_getElem hi, Option.getD_some]
      have hat' : outputAt tx' i = tx'.outputs[i] := by
        rw [outputAt, List.getElem?_eq_getElem hi', Option.getD_some]
      have hc := hhints.covenant i
      have hd := hhints.outputDerivation i
      have hm := hhints.outputMs45 i
      rw [hat, hat'] at hc hd hm
      have hspk : tx'.outputs[i].scriptPublicKey = tx.outputs[i].scriptPublicKey :=
        ScriptPublicKey.ext hone.2.1 hone.2.2
      simp only [List.getElem_map, outputView, hone.1, hspk, hc, hd, hm]
  simp only [wireView, hinputs, houtputs, hhints.network, hhints.stealth, hversion, hlock, hsub, hgas, hpay]
  rfl

theorem view_amounts (tx : Transaction) :
    tx.inputs.map (·.utxoEntry.amount) = (wireView tx).inputs.map (·.utxoEntry.amount) ∧
      tx.outputs.map (·.value) = (wireView tx).outputs.map (·.value) := by
  constructor
  · apply List.ext_getElem
    · simp [wireView]
    · intro i hi _
      rw [List.length_map] at hi
      simp [wireView, inputView, inputAt, List.getElem?_eq_getElem hi]
  · simp [wireView, outputView, Function.comp_def]

theorem reproduced_valid {storage tx' : Transaction} (hv : ValidSigned tx) (hroom : Admits storage tx)
    (hi : ∀ i ∈ (transactionSource crypto tx).envelope.inputs, i.Valid)
    (hrep : Reproduces crypto tx' (transactionSource crypto tx).envelope)
    (hview : wireView tx' = wireView tx) (hlimits : tx'.limits = storage.limits) :
    ValidSigned tx' := by
  obtain ⟨_, _, _, _, hpay⟩ := hrep.global
  have hpay : tx'.payload = tx.payload := hpay
  have hinlen := (wireView_inputs hview).1
  have houtlen : tx'.outputs.length = tx.outputs.length := by
    simpa [wireView] using congrArg (fun v => v.outputs.length) hview
  -- what an input must satisfy is read from the wire input that it shows
  have hshown : ∀ input' ∈ tx'.inputs, ∃ w ∈ (transactionSource crypto tx).envelope.inputs,
      Shows tx' input' w := by
    intro input' hmem
    obtain ⟨i, hi'⟩ := List.mem_iff_getElem?.mp hmem
    have hlt : i < (transactionSource crypto tx).envelope.inputs.length := by
      rw [← hrep.inputCount]
      exact (List.getElem?_eq_some_iff.mp hi').1
    obtain ⟨input, hget, hshows⟩ := hrep.inputs i _ (List.getElem?_eq_getElem hlt)
    rw [hi'] at hget
    cases hget
    exact ⟨_, List.getElem_mem hlt, hshows⟩
  have houtput : ∀ output' ∈ tx'.outputs, ∃ output ∈ tx.outputs,
      outputView output' = outputView output := by
    intro output' hmem
    have hin : outputView output' ∈ (wireView tx').outputs := List.mem_map_of_mem hmem
    rw [hview] at hin
    obtain ⟨output, hout, heq⟩ := List.mem_map.mp hin
    exact ⟨output, hout, heq.symm⟩
  refine ⟨?_, ?_, ?_, hrep.pool, ?_, ?_, ?_, ?_, ?_, ?_⟩
  · rw [hinlen, hlimits]
    exact ⟨hv.inputCount.1, hroom.1⟩
  · rw [houtlen]
    exact hv.outputCount
  · have := hv.payload
    rw [hpay, hlimits]
    exact Nat.le_min.mpr ⟨hroom.2, Nat.le_trans this (Nat.min_le_right ..)⟩
  · obtain ⟨amounts, hamounts⟩ := hv.amounts
    refine ⟨amounts, ?_⟩
    rw [← hamounts]
    simp only [Transaction.checkedAmounts, (view_amounts tx').1, (view_amounts tx').2, (view_amounts tx).1,
      (view_amounts tx).2, hview]
  · intro input' hmem
    obtain ⟨w, hw, hshows⟩ := hshown input' hmem
    have hscript := congrArg Input.script hshows.value
    simp only [wireInputValue] at hscript
    rw [hscript]
    exact (hi w hw).script
  · intro input' hmem
    obtain ⟨w, _, hshows⟩ := hshown input' hmem
    exact ⟨w.redeem, hshows.redeem⟩
  · intro output' hmem
    obtain ⟨output, hout, heq⟩ := houtput output' hmem
    have hspk : output'.scriptPublicKey = output.scriptPublicKey :=
      congrArg OutputView.scriptPublicKey heq
    have hcov : wireCovenant output' = wireCovenant output := congrArg OutputView.covenant heq
    obtain ⟨hlen, hauth⟩ := hv.outputs output hout
    refine ⟨hspk ▸ hlen, fun hhas => ?_⟩
    unfold wireCovenant at hcov
    rw [if_pos hhas] at hcov
    split at hcov
    · rename_i hhad
      have hsame := congrArg Covenant.authorizingInput (Option.some.inj hcov)
      simp only at hsame
      rw [hsame, hinlen]
      exact hauth hhad
    · cases hcov
  · intro input' hmem
    obtain ⟨w, _, hshows⟩ := hshown input' hmem
    exact .inr hshows.sighash
  · intro input' hmem
    obtain ⟨w, hw, hshows⟩ := hshown input' hmem
    exact hshows.validSlots (hrep.signsAll w hw) (hi w hw).signatures (hi w hw).positions

/-- The inputs of an envelope, one for one with those of the transaction. -/
theorem envelope_inputs_forall {P : WireInput → Prop} (hv : ValidSigned tx)
    (h : ∀ input ∈ tx.inputs, ∀ r, checkedRedeem tx input = .ok r →
      P ⟨wireInputValue input, declaredSignatures input, r⟩) :
    ∀ w ∈ (transactionSource crypto tx).envelope.inputs, P w := by
  intro w hw
  obtain ⟨i, hi⟩ := List.mem_iff_getElem?.mp hw
  have hlt : i < tx.inputs.length := by
    have := (List.getElem?_eq_some_iff.mp hi).1
    simpa [EncodeSource.envelope, (source_counts crypto hv).1] using this
  obtain ⟨r, hr⟩ := hv.redeems _ (List.getElem_mem hlt)
  rw [envelope_input hv hlt] at hi
  cases hi
  rw [source_wireInput (List.getElem?_eq_getElem hlt) hr (hv.slots _ (List.getElem_mem hlt)).count]
  exact h _ (List.getElem_mem hlt) r hr

theorem envelope_pool (hv : ValidSigned tx) (hfits : PoolFits tx) :
    ((transactionSource crypto tx).envelope.inputs.map fun w => poolNeed w.redeem).sum ≤
      REDEEM_POOL_SIZE := by
  refine Nat.le_trans ?_ (Nat.le_trans hfits.total hfits.used)
  apply List.Forall₂.sum_le_sum
  rw [List.forall₂_iff_get]
  have hlen : (transactionSource crypto tx).envelope.inputs.length = tx.inputs.length := by
    simp [EncodeSource.envelope, (source_counts crypto hv).1]
  refine ⟨by simp [hlen], fun i hi hi' => ?_⟩
  rw [List.length_map] at hi hi'
  obtain ⟨r, hr⟩ := hv.redeems _ (List.getElem_mem hi')
  have hwire := @envelope_input crypto tx i hv hi'
  rw [source_wireInput (List.getElem?_eq_getElem hi') hr (hv.slots _ (List.getElem_mem hi')).count,
    List.getElem?_eq_getElem hi, Option.some.injEq] at hwire
  simp only [List.get_eq_getElem, List.getElem_map, hwire]
  exact poolNeed_le hfits (List.getElem_mem hi') hr

end KaspaPortal.Transaction.Kspt
