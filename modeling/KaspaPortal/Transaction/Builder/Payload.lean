import KaspaPortal.Transaction.Builder.Funding
import KaspaPortal.Transaction.Builder.Standard

/-!
# Payments that carry a payload

`src/transaction/builder/standard/payload.rs`: of the prefixes of the largest-first order, the one
whose complete plan pays the least. The encoded text is left out; the plan is what it encodes.

Fetching the entries is left out too.
-/
namespace KaspaPortal.Transaction.StandardBuilder
open Lib Primitives CovenantBuilder

def PAYLOAD_MAX_INPUTS : Nat := 8
def PAYLOAD_MAX_FEE_PASSES : Nat := 8

/-- `sort_by_key` on the reversed amount, which keeps the order of equal amounts. -/
def sortLargestFirst (utxos : List CovenantBuilder.UtxoEntry) : List CovenantBuilder.UtxoEntry :=
  utxos.insertionSort fun left right => right.amount ≤ left.amount

/-- The sum of the outputs, in the machine's arithmetic. -/
def outputTotal (plan : UnsignedTransactionPlan) : UInt64 :=
  plan.outputs.foldl (fun total output => total + output.amount) 0

/-- The length of the change script, when the wallet has a change address. -/
def potentialChangeScriptLength (wallet : WalletData) : Option (Option Nat) :=
  match wallet.changeAddresses[wallet.nextChangeIndex]? with
  | none => some none
  | some address => (addressToScriptPubkey address).toOption.map fun script => some script.length

section
variable (wallet : WalletData) (prepared : PreparedSend) (amount requestedFee : UInt64)
  (payload : Bytes) (feeRate : UInt64)

/-- The passes over a selection, each with the fee the one before asked for. -/
def payloadPasses (selected : List CovenantBuilder.UtxoEntry) (total : UInt64) :
    Nat → UInt64 → Option (UInt64 × UnsignedTransactionPlan)
  | 0, _ => none
  | passes + 1, fee => do
    let required ← (checkedRequired amount fee).toOption
    if total < required then none
    else
      let plan ← (planPayment wallet selected [prepared.output] fee).toOption
      let plan := { plan with payload }
      let (nonContextualFee, _, _) ← (estimateNonContextualFee plan.inputs.length
        (plan.outputs.map fun output => output.scriptPublicKey.length) plan.payload.length
        feeRate).toOption
      if nonContextualFee ≤ fee then
        let paid ← checkedSub total (outputTotal plan)
        return (paid, plan)
      else
        payloadPasses selected total passes
          (max (max nonContextualFee requestedFee) MINIMUM_PLANNER_FEE)

/-- The complete plan and its fee for spending exactly `selected`. -/
def planPayloadSend (selected : List CovenantBuilder.UtxoEntry) :
    Option (UInt64 × UnsignedTransactionPlan) := do
  let total ← (selectedTotal selected).toOption
  let changeLength ← potentialChangeScriptLength wallet
  let lengths := prepared.output.scriptPublicKey.length :: changeLength.toList
  let fee ← (storageMassFeeWithPayload selected total amount requestedFee payload.length lengths
    feeRate).toOption
  payloadPasses wallet prepared amount requestedFee payload feeRate selected total
    PAYLOAD_MAX_FEE_PASSES fee

/-- What the search has read of the order, and the best plan so far. -/
structure PrefixSearch where
  total : UInt64
  best : Option (UInt64 × UnsignedTransactionPlan)

/-- One prefix: the first `count` candidates, the last of which is `utxo`. -/
def tryPrefix (candidates : List CovenantBuilder.UtxoEntry) (minimumRequired : UInt64)
    (state : PrefixSearch) (step : CovenantBuilder.UtxoEntry × Nat) : Except String PrefixSearch := do
  let (utxo, count) := step
  let total ← okOr "UTXO total exceeds supported monetary range" (checkedAdd state.total utxo.amount)
  if total < minimumRequired then return { state with total }
  else
    match planPayloadSend wallet prepared amount requestedFee payload feeRate
      (candidates.take count) with
    | none => return { state with total }
    | some (fee, plan) =>
      if state.best.all fun best => decide (fee < best.1) then return ⟨total, some (fee, plan)⟩
      else return { state with total }

/-- The cheapest plan of the prefixes within the input limit. -/
def bestPrefix (candidates : List CovenantBuilder.UtxoEntry) (minimumRequired : UInt64) :
    Except String PrefixSearch :=
  ((candidates.take PAYLOAD_MAX_INPUTS).zipIdx 1).foldlM
    (tryPrefix wallet prepared amount requestedFee payload feeRate candidates minimumRequired)
    ⟨0, none⟩

/-- `create_send_with_payload_from_utxos`: the plan that is encoded. -/
def createSendWithPayloadFromUtxos (utxos : List CovenantBuilder.UtxoEntry) :
    Except String UnsignedTransactionPlan := do
  let candidates := sortLargestFirst utxos
  let minimumRequired ← checkedRequired amount (max MINIMUM_PLANNER_FEE requestedFee)
  let state ← bestPrefix wallet prepared amount requestedFee payload feeRate candidates
    minimumRequired
  match state.best with
  | some (_, plan) =>
    rejectIf (CovenantBuilder.MAX_PAYLOAD_SIZE < plan.payload.length)
      s!"transaction payload exceeds the {CovenantBuilder.MAX_PAYLOAD_SIZE}-byte consensus limit"
    return plan
  | none =>
    let available ← selectedTotal (candidates.take PAYLOAD_MAX_INPUTS)
    throw s!"Insufficient funds within the current {PAYLOAD_MAX_INPUTS}-UTXO selection limit: have {available} sompi, need at least {minimumRequired} sompi plus mass fees. Raise the Advanced UTXO limit or choose UTXOs manually."

end

/-! ## One plan -/

/-- The fee that the final outputs of a plan require. -/
def UnsignedTransactionPlan.requiredFee (plan : UnsignedTransactionPlan)
    (feeRate minimumFee : UInt64) : Except String UInt64 :=
  requiredMassFeeForScripts (plan.inputs.map fun input => (input.utxo.amount, 1)) plan.inputs.length
    (plan.outputs.map fun output => (output.amount, 1))
    (plan.outputs.map fun output => output.scriptPublicKey.length) plan.payload.length feeRate
    minimumFee

/-- A plan that spends the selection, loses nothing but its fee and pays what its outputs require. -/
structure PaidPlan (selected : List CovenantBuilder.UtxoEntry) (payload : Bytes)
    (feeRate minimumFee paid : UInt64) (plan : UnsignedTransactionPlan) : Prop where
  inputs : plan.inputs = selected.map PlannedInput.p2pk
  payload : plan.payload = payload
  conserves : amounts selected =
    (plan.outputs.map fun output => output.amount.toNat).sum + paid.toNat
  required : ∃ required, plan.requiredFee feeRate minimumFee = .ok required ∧ required ≤ paid

theorem selectedTotal_toNat {selected : List CovenantBuilder.UtxoEntry} {total : UInt64}
    (h : selectedTotal selected = .ok total) : total.toNat = amounts selected := by
  have hsum : total.toNat = 0 + amounts selected := by
    refine foldlM_weight ?_ h
    intro utxo _ total total' hstep
    exact okOr_checkedAdd hstep
  rw [hsum, Nat.zero_add]

/-- The size estimate raises the rate itself. -/
theorem estimate_effectiveRate (inputCount : Nat) (lengths : List Nat) (payloadLen : Nat)
    (feeRate : UInt64) :
    estimateNonContextualFee inputCount lengths payloadLen
        (max feeRate MIN_STANDARD_FEE_RATE_SOMPI_PER_GRAM) =
      estimateNonContextualFee inputCount lengths payloadLen feeRate := by
  have hrate : max (max feeRate MIN_STANDARD_FEE_RATE_SOMPI_PER_GRAM)
      MIN_STANDARD_FEE_RATE_SOMPI_PER_GRAM = max feeRate MIN_STANDARD_FEE_RATE_SOMPI_PER_GRAM := by
    rw [← UInt64.toNat_inj, toNat_max, toNat_max, max_assoc, max_self]
  rw [estimateNonContextualFee, estimateNonContextualFee, estimateNonContextualFeeForShape,
    estimateNonContextualFeeForShape, hrate]

/-- The fee for the size is part of the required fee. -/
theorem requiredMassFeeForScripts_estimate {inputs outputs : List (UInt64 × UInt64)}
    {inputCount payloadLen : Nat} {lengths : List Nat} {feeRate minimumFee required : UInt64}
    (h : requiredMassFeeForScripts inputs inputCount outputs lengths payloadLen feeRate minimumFee =
      .ok required) :
    ∃ nonContextual compute transient,
      estimateNonContextualFee inputCount lengths payloadLen feeRate =
        .ok (nonContextual, compute, transient) ∧ nonContextual ≤ required := by
  rw [requiredMassFeeForScripts] at h
  split at h
  case isTrue => cases h
  case isFalse =>
    obtain ⟨⟨nonContextual, compute, transient⟩, hestimate, h⟩ := bind_eq_ok.mp h
    obtain ⟨storageMass, hstorage, h⟩ := bind_eq_ok.mp h
    obtain ⟨storageFee, hfee, h⟩ := bind_eq_ok.mp h
    cases h
    rw [estimate_effectiveRate] at hestimate
    refine ⟨nonContextual, compute, transient, hestimate, ?_⟩
    rw [UInt64.le_iff_toNat_le, toNat_max, toNat_max]
    omega

section
variable {wallet : WalletData} {prepared : PreparedSend} {amount requestedFee feeRate : UInt64}
  {payload : Bytes} {selected : List CovenantBuilder.UtxoEntry}

/-- The fee loop's question for a selection. -/
def payloadTerms (prepared : PreparedSend) (changeLength : Option Nat) (amount requestedFee : UInt64)
    (payload : Bytes) (feeRate : UInt64) (selected : List CovenantBuilder.UtxoEntry)
    (total : UInt64) : FeeTerms :=
  feeTerms selected total amount requestedFee payload.length
    (prepared.output.scriptPublicKey.length :: changeLength.toList) feeRate

/-- A send has one recipient, so what its plan spends is the amount. -/
theorem spendTotal_eq {spendTotal : UInt64} (hprepared : prepared.output.amount = amount)
    (h : checkedSum [prepared.output.amount] = .ok spendTotal) : spendTotal = amount := by
  have hsum := checkedSum_toNat h
  rw [← hprepared]
  exact UInt64.toNat_inj.mp hsum

theorem inputAmounts_p2pk (selected : List CovenantBuilder.UtxoEntry) :
    (selected.map PlannedInput.p2pk).map (fun input => (input.utxo.amount, (1 : UInt64))) =
      selected.map fun utxo => (utxo.amount, 1) := by
  rw [List.map_map]
  rfl

/-- The length the search expects is that of the script a plan with change pays to. -/
theorem potentialChangeScriptLength_of {address script : Bytes}
    (haddress : wallet.changeAddresses[wallet.nextChangeIndex]? = some address)
    (hscript : addressToScriptPubkey address = .ok script) :
    potentialChangeScriptLength wallet = some (some script.length) := by
  rw [potentialChangeScriptLength, haddress]
  exact congrArg (fun result => result.toOption.map fun script => some script.length) hscript

/-- The plan made with a fee that the loop returned, and that is available, is paid by it. -/
theorem payment_paid {changeLength : Option Nat} {total fee : UInt64}
    {plan : UnsignedTransactionPlan} (hprepared : prepared.output.amount = amount)
    (hlength : potentialChangeScriptLength wallet = some changeLength)
    (htotal : selectedTotal selected = .ok total)
    (hfee : storageMassFeeWithPayload selected total amount requestedFee payload.length
      (prepared.output.scriptPublicKey.length :: changeLength.toList) feeRate = .ok fee)
    (havailable : fee ≤ total - amount)
    (hplan : planPayment wallet selected [prepared.output] fee = .ok plan) :
    PaidPlan selected payload feeRate (max MINIMUM_PLANNER_FEE requestedFee) fee
      { plan with payload } := by
  obtain ⟨hinputs, total', spendTotal, change', htotal', hspend, hchange', houtputs⟩ :=
    planPayment_spec hplan
  cases htotal.symm.trans htotal'
  have hspendTotal := spendTotal_eq hprepared hspend
  obtain ⟨change, required, hpays⟩ := storageMassFeeWithPayload_pays hfee havailable
  rw [hspendTotal] at hchange'
  cases hpays.planned.symm.trans hchange'
  have hconserves := hpays.conserves
  rw [selectedTotal_toNat htotal] at hconserves
  have hinputAmounts : plan.inputs.map (fun input => (input.utxo.amount, (1 : UInt64))) =
      selected.map fun utxo => (utxo.amount, 1) := by
    rw [hinputs]
    exact inputAmounts_p2pk selected
  have hinputCount : plan.inputs.length = selected.length := by rw [hinputs, List.length_map]
  cases houtputs with
  | inl hwhole =>
    obtain ⟨hzero, houtputs⟩ := hwhole
    have hrequired := hpays.requires
    rw [FeeTerms.requiredOf, if_pos hzero] at hrequired
    obtain ⟨length, hhead, hrequired⟩ := bind_eq_ok.mp hrequired
    cases hhead
    refine ⟨hinputs, rfl, ?_, required, ?_, hpays.paid⟩
    · simp only [houtputs, List.map_cons, List.map_nil, List.sum_cons, List.sum_nil, hprepared]
      rw [hconserves, hzero]
      rfl
    · rw [UnsignedTransactionPlan.requiredFee]
      simp only [hinputAmounts, hinputCount, houtputs, List.map_cons, List.map_nil, hprepared]
      exact hrequired
  | inr hkept =>
    obtain ⟨hne, address, script, index, haddress, hscript, houtputs⟩ := hkept
    have hrequired := hpays.requires
    rw [FeeTerms.requiredOf, if_neg hne] at hrequired
    cases hlength.symm.trans (potentialChangeScriptLength_of haddress hscript)
    obtain ⟨lengths, hlengths, hrequired⟩ := bind_eq_ok.mp hrequired
    cases hlengths
    refine ⟨hinputs, rfl, ?_, required, ?_, hpays.paid⟩
    · simp only [houtputs, List.map_append, List.map_cons, List.map_nil, List.sum_append,
        List.sum_cons, List.sum_nil, hprepared]
      rw [hconserves]
      rfl
    · rw [UnsignedTransactionPlan.requiredFee]
      simp only [hinputAmounts, hinputCount, houtputs, List.map_append, List.map_cons, List.map_nil,
        hprepared]
      exact hrequired

/-- The outputs of a paid plan fit the counter they are added up in. -/
theorem outputTotal_toNat {plan : UnsignedTransactionPlan} {total : UInt64}
    (h : (plan.outputs.map fun output => output.amount.toNat).sum ≤ total.toNat) :
    (outputTotal plan).toNat = (plan.outputs.map fun output => output.amount.toNat).sum := by
  have hsum : ∀ (outputs : List PlannedOutput) (start : UInt64),
      start.toNat + (outputs.map fun output => output.amount.toNat).sum < 2 ^ 64 →
      (outputs.foldl (fun total output => total + output.amount) start).toNat =
        start.toNat + (outputs.map fun output => output.amount.toNat).sum := by
    intro outputs
    induction outputs with
    | nil => exact fun _ _ => rfl
    | cons output outputs ih =>
      intro start hbound
      rw [List.map_cons, List.sum_cons] at hbound ⊢
      have hnext : (start + output.amount).toNat = start.toNat + output.amount.toNat := by
        rw [UInt64.toNat_add, Nat.mod_eq_of_lt (by omega)]
      rw [List.foldl_cons, ih _ (by omega), hnext, Nat.add_assoc]
  have hbound := total.toNat_lt
  rw [outputTotal, hsum plan.outputs 0 (by rw [UInt64.toNat_zero]; omega), UInt64.toNat_zero,
    Nat.zero_add]

/-- What a complete plan says about its fee and the selection it spends. -/
structure PayloadPlan (wallet : WalletData) (prepared : PreparedSend) (amount requestedFee : UInt64)
    (payload : Bytes) (feeRate : UInt64) (selected : List CovenantBuilder.UtxoEntry) (paid : UInt64)
    (plan : UnsignedTransactionPlan) : Prop where
  pays : PaidPlan selected payload feeRate (max MINIMUM_PLANNER_FEE requestedFee) paid plan
  covers : amount.toNat + (max MINIMUM_PLANNER_FEE requestedFee).toNat ≤ amounts selected
  available : amount.toNat + paid.toNat ≤ amounts selected
  least : ∀ changeLength total other, potentialChangeScriptLength wallet = some changeLength →
    selectedTotal selected = .ok total →
    (payloadTerms prepared changeLength amount requestedFee payload feeRate selected
      total).PaysForItself other → paid ≤ other

theorem planPayloadSend_spec {paid : UInt64} {plan : UnsignedTransactionPlan}
    (hprepared : prepared.output.amount = amount)
    (h : planPayloadSend wallet prepared amount requestedFee payload feeRate selected =
      some (paid, plan)) :
    PayloadPlan wallet prepared amount requestedFee payload feeRate selected paid plan := by
  obtain ⟨total, htotal, h⟩ := Option.bind_eq_some_iff.mp h
  obtain ⟨changeLength, hlength, h⟩ := Option.bind_eq_some_iff.mp h
  obtain ⟨fee, hfee, h⟩ := Option.bind_eq_some_iff.mp h
  have htotal := toOption_eq_some.mp htotal
  have hfee := toOption_eq_some.mp hfee
  have hamount := (storageMassFeeWithPayload_eq_ok.mp hfee).2.1
  rw [PAYLOAD_MAX_FEE_PASSES, payloadPasses] at h
  obtain ⟨required, hrequired, h⟩ := Option.bind_eq_some_iff.mp h
  have hrequired : required.toNat = amount.toNat + fee.toNat :=
    okOr_checkedAdd (toOption_eq_some.mp hrequired)
  split at h
  case isTrue => cases h
  case isFalse hcovered =>
    rw [UInt64.lt_iff_toNat_lt, hrequired] at hcovered
    have havailable : fee ≤ total - amount := by
      rw [UInt64.le_iff_toNat_le, UInt64.toNat_sub_of_le _ _ hamount]
      omega
    obtain ⟨planned, hplanned, h⟩ := Option.bind_eq_some_iff.mp h
    obtain ⟨⟨nonContextual, compute, transient⟩, hestimate, h⟩ := Option.bind_eq_some_iff.mp h
    have hpaid := payment_paid hprepared hlength htotal hfee havailable
      (toOption_eq_some.mp hplanned)
    obtain ⟨least, hleast, hleastFee⟩ := hpaid.required
    obtain ⟨size, _, _, hsize, hsizeLe⟩ := requiredMassFeeForScripts_estimate hleast
    cases (toOption_eq_some.mp hestimate).symm.trans hsize
    have hsizeFee : nonContextual ≤ fee := UInt64.le_trans hsizeLe hleastFee
    have hfirst := (if_pos hsizeFee).symm.trans h
    obtain ⟨rest, hrest, hresult⟩ := Option.bind_eq_some_iff.mp hfirst
    cases hresult
    have hconserves := hpaid.conserves
    rw [← selectedTotal_toNat htotal] at hconserves
    have houtputs := @outputTotal_toNat { planned with payload } total (by omega)
    have hrest := checkedSub_eq_some.mp hrest
    have hsame : paid = fee := by
      apply UInt64.toNat_inj.mp
      rw [houtputs] at hrest
      omega
    rw [hsame]
    refine ⟨hpaid, ?_, ?_, ?_⟩
    · obtain ⟨_, _, hpays⟩ := storageMassFeeWithPayload_pays hfee havailable
      have hminimum : (max MINIMUM_PLANNER_FEE requestedFee).toNat ≤ fee.toNat :=
        UInt64.le_iff_toNat_le.mp hpays.minimum
      rw [← selectedTotal_toNat htotal]
      omega
    · rw [← selectedTotal_toNat htotal]
      exact Nat.le_of_not_lt hcovered
    · intro changeLength' total' other hlength' htotal' hother
      cases hlength.symm.trans hlength'
      cases htotal.symm.trans htotal'
      exact storageMassFeeWithPayload_le hfee hother

/-! ## Every plan of a selection -/

/-- A plan that `plan_payment` makes of the selection with some fee, and that pays what its own
outputs require. -/
structure ValidPlan (wallet : WalletData) (prepared : PreparedSend) (requestedFee : UInt64)
    (payload : Bytes) (feeRate : UInt64) (selected : List CovenantBuilder.UtxoEntry) (paid : UInt64)
    (plan : UnsignedTransactionPlan) : Prop where
  planned : ∃ fee planned, planPayment wallet selected [prepared.output] fee = .ok planned ∧
    plan = { planned with payload }
  pays : PaidPlan selected payload feeRate (max MINIMUM_PLANNER_FEE requestedFee) paid plan

theorem calculateChange_ok {total spend fee change : UInt64}
    (h : calculateChange total spend fee = .ok change) :
    spend.toNat + fee.toNat ≤ total.toNat ∧
      (change ≠ 0 → isDust change = false ∧ change.toNat = total.toNat - spend.toNat - fee.toNat) := by
  obtain ⟨required, hrequired, h⟩ := bind_eq_ok.mp h
  obtain ⟨rest, hrest, h⟩ := bind_eq_ok.mp h
  have hrequired := okOr_checkedAdd hrequired
  have hrest := checkedSub_eq_some.mp (okOr_eq_ok.mp hrest)
  refine ⟨by omega, fun hne => ?_⟩
  cases h
  split at hne
  case isTrue => exact absurd rfl hne
  case isFalse hkept =>
    rw [if_neg hkept]
    exact ⟨Bool.eq_false_iff.mpr hkept, by omega⟩

/-- A valid plan keeps a change that pays for itself, or pays the whole remainder. -/
theorem ValidPlan.cases {changeLength : Option Nat} {total paid : UInt64}
    {plan : UnsignedTransactionPlan} (hprepared : prepared.output.amount = amount)
    (hlength : potentialChangeScriptLength wallet = some changeLength)
    (htotal : selectedTotal selected = .ok total)
    (h : ValidPlan wallet prepared requestedFee payload feeRate selected paid plan) :
    let terms := payloadTerms prepared changeLength amount requestedFee payload feeRate selected total
    amount.toNat + paid.toNat ≤ total.toNat ∧ terms.minimumFee ≤ paid ∧
      (terms.PaysForItself paid ∨ total.toNat = amount.toNat + paid.toNat ∧
        ∃ required, terms.requiredNoChange = .ok required ∧ required ≤ paid) := by
  intro terms
  obtain ⟨⟨fee, planned, hplanned, rfl⟩, hinputs, -, hconserves, required, hrequired, hpaid⟩ := h
  obtain ⟨-, total', spendTotal, change, htotal', hspend, hchange, houtputs⟩ :=
    planPayment_spec hplanned
  cases htotal.symm.trans htotal'
  have hspendTotal := spendTotal_eq hprepared hspend
  rw [hspendTotal] at hchange
  obtain ⟨hcovered, hkept⟩ := calculateChange_ok hchange
  rw [← selectedTotal_toNat htotal] at hconserves
  have hinputs : planned.inputs = selected.map PlannedInput.p2pk := hinputs
  have hinputAmounts : planned.inputs.map (fun input => (input.utxo.amount, (1 : UInt64))) =
      selected.map fun utxo => (utxo.amount, 1) := by
    rw [hinputs]
    exact inputAmounts_p2pk selected
  have hinputCount : planned.inputs.length = selected.length := by rw [hinputs, List.length_map]
  rw [UnsignedTransactionPlan.requiredFee] at hrequired
  have hminimum : terms.minimumFee ≤ paid := by
    rw [UInt64.le_iff_toNat_le] at hpaid ⊢
    refine Nat.le_trans ?_ hpaid
    rw [requiredMassFeeForScripts_toNat hrequired]
    exact Nat.le_max_right _ _
  cases houtputs with
  | inl hwhole =>
    obtain ⟨-, houtputs⟩ := hwhole
    simp only [houtputs, List.map_cons, List.map_nil, List.sum_cons, List.sum_nil,
      hprepared] at hconserves
    simp only [hinputAmounts, hinputCount, houtputs, List.map_cons, List.map_nil,
      hprepared] at hrequired
    exact ⟨by omega, hminimum, .inr ⟨by omega, required, hrequired, hpaid⟩⟩
  | inr hchanged =>
    obtain ⟨hne, address, script, index, haddress, hscript, houtputs⟩ := hchanged
    obtain ⟨hdust, hrest⟩ := hkept hne
    cases hlength.symm.trans (potentialChangeScriptLength_of haddress hscript)
    simp only [houtputs, List.map_append, List.map_cons, List.map_nil, List.sum_append,
      List.sum_cons, List.sum_nil, hprepared] at hconserves
    simp only [hinputAmounts, hinputCount, houtputs, List.map_append, List.map_cons, List.map_nil,
      hprepared] at hrequired
    have hamount : amount ≤ total := UInt64.le_iff_toNat_le.mpr (by omega)
    have havailable : terms.availableFee.toNat = total.toNat - amount.toNat :=
      UInt64.toNat_sub_of_le _ _ hamount
    have hle : paid ≤ terms.availableFee := by
      rw [UInt64.le_iff_toNat_le, havailable]
      omega
    have hleft : terms.availableFee - paid = change := by
      rw [← UInt64.toNat_inj, UInt64.toNat_sub_of_le _ _ hle, havailable]
      omega
    refine ⟨by omega, hminimum, .inl ⟨hminimum, hle, hleft ▸ hdust, required, ?_, hpaid⟩⟩
    rw [hleft]
    exact (bind_of_ok rfl).trans hrequired

/-- A selection that gives a plan has no valid plan that pays less. -/
theorem PayloadPlan.le_valid {changeLength : Option Nat} {total paid other : UInt64}
    {plan otherPlan : UnsignedTransactionPlan} (hprepared : prepared.output.amount = amount)
    (hlength : potentialChangeScriptLength wallet = some changeLength)
    (htotal : selectedTotal selected = .ok total)
    (h : PayloadPlan wallet prepared amount requestedFee payload feeRate selected paid plan)
    (hvalid : ValidPlan wallet prepared requestedFee payload feeRate selected other otherPlan) :
    paid ≤ other := by
  obtain ⟨-, -, hkept | hwhole⟩ := hvalid.cases hprepared hlength htotal
  · exact h.least changeLength total other hlength htotal hkept
  · have havailable := h.available
    rw [← selectedTotal_toNat htotal, hwhole.1] at havailable
    exact UInt64.le_iff_toNat_le.mpr (by omega)

/-- A fee that is returned and available gives a plan, when one can be made with it. -/
theorem planPayloadSend_of_fee {changeLength : Option Nat} {total fee : UInt64}
    {planned : UnsignedTransactionPlan} (hprepared : prepared.output.amount = amount)
    (hlength : potentialChangeScriptLength wallet = some changeLength)
    (htotal : selectedTotal selected = .ok total)
    (hfee : storageMassFeeWithPayload selected total amount requestedFee payload.length
      (prepared.output.scriptPublicKey.length :: changeLength.toList) feeRate = .ok fee)
    (havailable : fee ≤ total - amount)
    (hplan : planPayment wallet selected [prepared.output] fee = .ok planned) :
    planPayloadSend wallet prepared amount requestedFee payload feeRate selected =
      some (fee, { planned with payload }) := by
  have hpaid := payment_paid hprepared hlength htotal hfee havailable hplan
  have hamount := (storageMassFeeWithPayload_eq_ok.mp hfee).2.1
  have hsub := UInt64.toNat_sub_of_le _ _ hamount
  have hcovered : amount.toNat + fee.toNat ≤ total.toNat := by
    rw [UInt64.le_iff_toNat_le, hsub] at havailable
    rw [UInt64.le_iff_toNat_le] at hamount
    omega
  have hbound := total.toNat_lt
  have hsum : (UInt64.ofNat (amount.toNat + fee.toNat)).toNat = amount.toNat + fee.toNat :=
    ofNat_toNat (by omega)
  obtain ⟨required, hrequired, hrequiredFee⟩ := hpaid.required
  obtain ⟨size, compute, transient, hsize, hsizeLe⟩ := requiredMassFeeForScripts_estimate hrequired
  have hconserves := hpaid.conserves
  rw [← selectedTotal_toNat htotal] at hconserves
  have houtputs := @outputTotal_toNat { planned with payload } total (by omega)
  refine Option.bind_eq_some_iff.mpr ⟨total, toOption_eq_some.mpr htotal, ?_⟩
  refine Option.bind_eq_some_iff.mpr ⟨changeLength, hlength, ?_⟩
  refine Option.bind_eq_some_iff.mpr ⟨fee, toOption_eq_some.mpr hfee, ?_⟩
  rw [PAYLOAD_MAX_FEE_PASSES, payloadPasses]
  refine Option.bind_eq_some_iff.mpr
    ⟨_, toOption_eq_some.mpr (okOr_checkedAdd_eq _ hsum), ?_⟩
  rw [if_neg (by rw [UInt64.lt_iff_toNat_lt, hsum]; omega)]
  refine Option.bind_eq_some_iff.mpr ⟨planned, toOption_eq_some.mpr hplan, ?_⟩
  refine Option.bind_eq_some_iff.mpr
    ⟨(size, compute, transient), toOption_eq_some.mpr hsize, ?_⟩
  refine (if_pos (UInt64.le_trans hsizeLe hrequiredFee)).trans ?_
  refine Option.bind_eq_some_iff.mpr ⟨fee, checkedSub_eq_some.mpr ?_, rfl⟩
  rw [houtputs]
  exact hconserves

/-! ## The search over the prefixes -/

/-- What the search knows of the first `count` candidates. -/
structure Searched (wallet : WalletData) (prepared : PreparedSend) (amount requestedFee : UInt64)
    (payload : Bytes) (feeRate : UInt64) (candidates : List CovenantBuilder.UtxoEntry) (count : Nat)
    (state : PrefixSearch) : Prop where
  total : state.total.toNat = amounts (candidates.take count)
  found : ∀ fee plan, state.best = some (fee, plan) → ∃ k, 0 < k ∧ k ≤ count ∧
    planPayloadSend wallet prepared amount requestedFee payload feeRate (candidates.take k) =
      some (fee, plan)
  least : ∀ k fee plan, 0 < k → k ≤ count →
    planPayloadSend wallet prepared amount requestedFee payload feeRate (candidates.take k) =
      some (fee, plan) → ∃ best, state.best = some best ∧ best.1 ≤ fee

variable {candidates : List CovenantBuilder.UtxoEntry} {minimumRequired : UInt64}

/-- A prefix that gives no plan leaves the best one as it is. -/
theorem Searched.skip {count : Nat} {state : PrefixSearch} {total : UInt64}
    (h : Searched wallet prepared amount requestedFee payload feeRate candidates count state)
    (htotal : total.toNat = amounts (candidates.take (count + 1)))
    (hnone : planPayloadSend wallet prepared amount requestedFee payload feeRate
      (candidates.take (count + 1)) = none) :
    Searched wallet prepared amount requestedFee payload feeRate candidates (count + 1)
      { state with total } where
  total := htotal
  found fee plan hbest := by
    obtain ⟨k, hpos, hle, hplan⟩ := h.found fee plan hbest
    exact ⟨k, hpos, Nat.le_succ_of_le hle, hplan⟩
  least k fee plan hpos hle hplan := by
    obtain hlt | heq := Nat.lt_or_eq_of_le hle
    · exact h.least k fee plan hpos (Nat.le_of_lt_succ hlt) hplan
    · rw [heq, hnone] at hplan
      cases hplan

/-- Trying one more candidate. -/
theorem tryPrefix_searched {count : Nat} {state next : PrefixSearch} {utxo : CovenantBuilder.UtxoEntry}
    (hprepared : prepared.output.amount = amount)
    (hminimum : minimumRequired.toNat = amount.toNat + (max MINIMUM_PLANNER_FEE requestedFee).toNat)
    (hutxo : candidates[count]? = some utxo)
    (h : Searched wallet prepared amount requestedFee payload feeRate candidates count state)
    (hnext : tryPrefix wallet prepared amount requestedFee payload feeRate candidates minimumRequired
      state (utxo, count + 1) = .ok next) :
    Searched wallet prepared amount requestedFee payload feeRate candidates (count + 1) next := by
  obtain ⟨total, htotal, hnext⟩ := bind_eq_ok.mp hnext
  have htotal : total.toNat = amounts (candidates.take (count + 1)) := by
    rw [okOr_checkedAdd htotal, h.total, List.take_add_one, hutxo]
    exact (amounts_append (candidates.take count) [utxo]).symm
  split at hnext
  -- a prefix below the amount and the least fee plans nothing, so skipping it loses nothing
  case isTrue hshort =>
    cases hnext
    refine h.skip htotal (Option.eq_none_iff_forall_ne_some.mpr fun result hresult => ?_)
    have hcovers := (planPayloadSend_spec hprepared hresult).covers
    rw [UInt64.lt_iff_toNat_lt] at hshort
    omega
  case isFalse =>
    split at hnext
    case h_1 hnone =>
      cases hnext
      exact h.skip htotal hnone
    case h_2 fee plan hplan =>
      split at hnext
      case isTrue hbetter =>
        cases hnext
        refine ⟨htotal, ?_, ?_⟩
        · intro fee' plan' hbest
          cases hbest
          exact ⟨count + 1, Nat.zero_lt_succ count, Nat.le_refl _, hplan⟩
        · intro k fee' plan' hpos hle hother
          refine ⟨(fee, plan), rfl, ?_⟩
          obtain hlt | heq := Nat.lt_or_eq_of_le hle
          · obtain ⟨best, hbest, hbestLe⟩ := h.least k fee' plan' hpos (Nat.le_of_lt_succ hlt) hother
            rw [hbest] at hbetter
            exact UInt64.le_trans (UInt64.le_of_lt (of_decide_eq_true hbetter)) hbestLe
          · rw [heq, hplan] at hother
            cases hother
            exact UInt64.le_refl fee
      -- the earlier plan stays on equal fees
      case isFalse hworse =>
        cases hnext
        refine ⟨htotal, ?_, ?_⟩
        · intro fee' plan' hbest
          obtain ⟨k, hpos, hle, hfound⟩ := h.found fee' plan' hbest
          exact ⟨k, hpos, Nat.le_succ_of_le hle, hfound⟩
        · intro k fee' plan' hpos hle hother
          obtain hlt | heq := Nat.lt_or_eq_of_le hle
          · exact h.least k fee' plan' hpos (Nat.le_of_lt_succ hlt) hother
          · rw [heq, hplan] at hother
            cases hother
            cases hbest : state.best with
            | none =>
              rw [hbest] at hworse
              exact absurd rfl hworse
            | some best =>
              rw [hbest] at hworse
              exact ⟨best, rfl, UInt64.not_lt.mp fun hlt => hworse (decide_eq_true hlt)⟩

/-- Trying the candidates from some place on. -/
theorem foldlM_tryPrefix_searched {done rest : List CovenantBuilder.UtxoEntry}
    {state final : PrefixSearch} (hprepared : prepared.output.amount = amount)
    (hminimum : minimumRequired.toNat = amount.toNat + (max MINIMUM_PLANNER_FEE requestedFee).toNat)
    (hsplit : done ++ rest <+: candidates)
    (h : Searched wallet prepared amount requestedFee payload feeRate candidates done.length state)
    (hfinal : (rest.zipIdx (done.length + 1)).foldlM (tryPrefix wallet prepared amount requestedFee
      payload feeRate candidates minimumRequired) state = .ok final) :
    Searched wallet prepared amount requestedFee payload feeRate candidates
      (done.length + rest.length) final := by
  induction rest generalizing done state with
  | nil =>
    cases hfinal
    exact h
  | cons utxo rest ih =>
    rw [List.zipIdx_cons, List.foldlM_cons] at hfinal
    obtain ⟨next, hnext, hfinal⟩ := bind_eq_ok.mp hfinal
    have hutxo : candidates[done.length]? = some utxo := by
      obtain ⟨suffix, hcandidates⟩ := hsplit
      rw [← hcandidates, List.append_assoc, List.getElem?_append_right (Nat.le_refl _), Nat.sub_self]
      rfl
    have hsearched := tryPrefix_searched hprepared hminimum hutxo h hnext
    have hlength : (done ++ [utxo]).length = done.length + 1 := List.length_append
    have hrest := @ih (done ++ [utxo]) next (by rwa [List.append_assoc]) (hlength ▸ hsearched)
      (hlength ▸ hfinal)
    rw [hlength] at hrest
    rwa [List.length_cons, Nat.add_comm rest.length, ← Nat.add_assoc]

theorem bestPrefix_searched {final : PrefixSearch} (hprepared : prepared.output.amount = amount)
    (hminimum : minimumRequired.toNat = amount.toNat + (max MINIMUM_PLANNER_FEE requestedFee).toNat)
    (h : bestPrefix wallet prepared amount requestedFee payload feeRate candidates minimumRequired =
      .ok final) :
    Searched wallet prepared amount requestedFee payload feeRate candidates
      (candidates.take PAYLOAD_MAX_INPUTS).length final := by
  have hstart : Searched wallet prepared amount requestedFee payload feeRate candidates 0 ⟨0, none⟩ :=
    ⟨rfl, fun _ _ hbest => (nomatch hbest), fun _ _ _ hpos hle _ => absurd hpos (by omega)⟩
  have hsearched := @foldlM_tryPrefix_searched wallet prepared amount requestedFee feeRate payload
    candidates minimumRequired [] (candidates.take PAYLOAD_MAX_INPUTS) ⟨0, none⟩ final hprepared
    hminimum (List.take_prefix _ _) hstart h
  rwa [List.length_nil, Nat.zero_add] at hsearched

end

end KaspaPortal.Transaction.StandardBuilder
