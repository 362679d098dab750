import KaspaPortal.Guarantees.FeeFixpoint
import KaspaPortal.Transaction.Builder.Payload
import KaspaPortal.Transaction.Model

/-!
# What a payment with a payload spends and pays

The chosen plan loses nothing and pays the fee its own outputs require. It is the cheapest of the
valid plans of the prefixes of the largest-first order that the fee loop is able to answer for.

The loop asks for the fee of a plan that keeps its change as long as the change is no dust. Where no
such fee is within the remainder, the prefix is dropped, also when a plan without change would be
valid: `dearer_prefix_chosen`.
-/
set_option maxRecDepth 100000

namespace KaspaPortal.Guarantees
open Lib Primitives Transaction StandardBuilder CovenantBuilder Model

namespace PayloadSend

section
variable {terms : FeeTerms} {wallet : WalletData} {prepared : PreparedSend}
  {amount requestedFee feeRate : UInt64} {payload : Bytes}
  {selected : List CovenantBuilder.UtxoEntry}

/-- The fee loop ends within what is available if there is anything to be found: a fee pays for a
change worth keeping, or there is none to keep, or the smallest one does not require too much. -/
def EndsWithin (terms : FeeTerms) : Prop :=
  (∃ fee, terms.PaysForItself fee) ∨ isDust (terms.availableFee - terms.minimumFee) = true ∨
    terms.nextFee (terms.availableFee.toNat - 9999901) ≤ terms.availableFee.toNat

/-- The selection can be asked about: the wallet can receive the change, the fees that are tried can be
computed and settle soon, and they end within what is available. -/
structure Answers (wallet : WalletData) (prepared : PreparedSend) (amount requestedFee : UInt64)
    (payload : Bytes) (feeRate : UInt64) (selected : List CovenantBuilder.UtxoEntry)
    (changeLength : Option Nat) (total : UInt64) : Prop where
  script : potentialChangeScriptLength wallet = some changeLength
  index : wallet.nextChangeIndex < 2 ^ 32
  sums : selectedTotal selected = .ok total
  priced : (payloadTerms prepared changeLength amount requestedFee payload feeRate selected
    total).Priced
  soon : (payloadTerms prepared changeLength amount requestedFee payload feeRate selected
    total).SettlesSoon
  within : EndsWithin (payloadTerms prepared changeLength amount requestedFee payload feeRate selected
    total)

/-- Fees that do not jump over the dust end there at the latest. -/
theorem settle_within {passes : Nat} {fee result : UInt64} (h : terms.settle passes fee = .ok result)
    (hfee : fee ≤ terms.availableFee)
    (hkept : ∀ other ≤ terms.availableFee, fee ≤ other →
      isDust (terms.availableFee - other) = false → terms.nextFee other.toNat ≤
        terms.availableFee.toNat)
    (hwhole : ∃ required, terms.requiredNoChange = .ok required ∧ required ≤ terms.availableFee) :
    result ≤ terms.availableFee := by
  induction passes generalizing fee with
  | zero => cases h
  | succ passes ih =>
    rw [FeeTerms.settle, if_neg (UInt64.not_lt.mpr hfee)] at h
    split at h
    case isTrue =>
      obtain ⟨required, hrequired, hle⟩ := hwhole
      rw [bind_of_ok hrequired] at h
      cases h
      rw [if_pos hle]
      exact UInt64.le_refl _
    case isFalse hdust =>
      obtain ⟨required, hrequired, h⟩ := bind_eq_ok.mp h
      split at h
      case isTrue =>
        cases h
        exact hfee
      case isFalse hshort =>
        have hdust := Bool.eq_false_iff.mpr hdust
        have hnext : terms.nextFee fee.toNat = required.toNat := by
          rw [FeeTerms.requiredWithChange_toNat hrequired, FeeTerms.nextFee,
            UInt64.toNat_sub_of_le _ _ hfee]
        have hle := hkept fee hfee (UInt64.le_refl fee) hdust
        rw [hnext] at hle
        have hraised := UInt64.le_of_lt (UInt64.not_le.mp hshort)
        exact ih h (UInt64.le_iff_toNat_le.mpr hle) fun other hother hge =>
          hkept other hother (UInt64.le_trans hraised hge)

/-- The loop ends within what is available when some plan of the selection is valid. -/
theorem settle_available {passes : Nat} {fee other : UInt64}
    (h : terms.settle passes terms.minimumFee = .ok fee) (hwithin : EndsWithin terms)
    (hminimum : terms.minimumFee ≤ other) (hother : other ≤ terms.availableFee)
    (hvalid : terms.PaysForItself other ∨ other = terms.availableFee ∧
      ∃ required, terms.requiredNoChange = .ok required ∧ required ≤ other) :
    fee ≤ terms.availableFee := by
  obtain hkept | ⟨rfl, hwhole⟩ := hvalid
  · exact UInt64.le_trans (FeeTerms.settle_least h hkept hkept.minimum) hother
  · obtain ⟨cheaper, hcheaper⟩ | hdust | hlast := hwithin
    · exact UInt64.le_trans (FeeTerms.settle_least h hcheaper hcheaper.minimum) hcheaper.available
    · refine settle_within h hminimum (fun other hother hge hkept => ?_) hwhole
      rw [Bool.eq_false_iff, Ne, isDust_iff, UInt64.toNat_sub_of_le _ _ hother] at hkept
      rw [isDust_iff, UInt64.toNat_sub_of_le _ _ hminimum] at hdust
      rw [UInt64.le_iff_toNat_le] at hge
      omega
    · refine settle_within h hminimum (fun other hother _ hkept => ?_) hwhole
      rw [Bool.eq_false_iff, Ne, isDust_iff, UInt64.toNat_sub_of_le _ _ hother] at hkept
      exact Nat.le_trans (FeeTerms.nextFee_monotone (by omega)) hlast

/-- A fee that is available makes a plan, whose change goes to the wallet's next address. -/
theorem planPayment_succeeds {changeLength : Option Nat} {total fee : UInt64}
    (hprepared : prepared.output.amount = amount)
    (hanswers : Answers wallet prepared amount requestedFee payload feeRate selected changeLength total)
    (hfee : storageMassFeeWithPayload selected total amount requestedFee payload.length
      (prepared.output.scriptPublicKey.length :: changeLength.toList) feeRate = .ok fee)
    (havailable : fee ≤ total - amount) :
    ∃ planned, planPayment wallet selected [prepared.output] fee = .ok planned := by
  obtain ⟨change, required, hpaid⟩ := storageMassFeeWithPayload_pays hfee havailable
  have hspend : checkedSum ([prepared.output].map PlannedOutput.amount) = .ok amount := by
    rw [List.map_cons, hprepared]
    exact bind_eq_ok.mpr ⟨amount, okOr_checkedAdd_eq _ (Nat.zero_add _).symm, rfl⟩
  have hplanned : calculateChange total amount fee = .ok change := hpaid.planned
  rw [planPayment, bind_of_ok hanswers.sums, bind_of_ok hspend, bind_of_ok hplanned]
  split
  case isFalse => exact ⟨_, rfl⟩
  case isTrue hpos =>
    have hne : change ≠ 0 := by
      intro hzero
      rw [hzero] at hpos
      exact absurd hpos (by decide)
    -- The fee of a plan with change was computed, so the change script has a length.
    obtain ⟨_, hrequired, _⟩ := (hpaid.kept hne).required
    obtain ⟨lengths, hlengths, _⟩ := bind_eq_ok.mp hrequired
    have hlengths := okOr_eq_ok.mp hlengths
    split at hlengths
    case isFalse => cases hlengths
    case isTrue htwo =>
      have hscript := hanswers.script
      rw [potentialChangeScriptLength] at hscript
      split at hscript
      case h_1 =>
        cases hscript
        exact absurd htwo (Nat.not_succ_le_self 1)
      case h_2 address haddress =>
        obtain ⟨script, hscript, -⟩ := Option.map_eq_some_iff.mp hscript
        rw [haddress, if_pos hanswers.index]
        refine ⟨_, bind_eq_ok.mpr ⟨address, rfl, bind_eq_ok.mpr ⟨script, ?_, rfl⟩⟩⟩
        exact toOption_eq_some.mp hscript

/-- A selection that can be asked about, and has a valid plan, gives a plan. -/
theorem planPayloadSend_succeeds {changeLength : Option Nat} {total other : UInt64}
    {plan : UnsignedTransactionPlan} (hprepared : prepared.output.amount = amount)
    (hanswers : Answers wallet prepared amount requestedFee payload feeRate selected changeLength total)
    (hvalid : ValidPlan wallet prepared requestedFee payload feeRate selected other plan) :
    ∃ paid plan, planPayloadSend wallet prepared amount requestedFee payload feeRate selected =
      some (paid, plan) := by
  obtain ⟨hcovered, hminimum, hkept⟩ := hvalid.cases hprepared hanswers.script hanswers.sums
  set terms := payloadTerms prepared changeLength amount requestedFee payload feeRate selected total
  have hamount : amount ≤ total := UInt64.le_iff_toNat_le.mpr (by omega)
  have havailable : terms.availableFee.toNat = total.toNat - amount.toNat :=
    UInt64.toNat_sub_of_le _ _ hamount
  have hother : other ≤ terms.availableFee := by
    rw [UInt64.le_iff_toNat_le, havailable]
    omega
  obtain ⟨fee, hsettled⟩ := FeeTerms.settle_ok hanswers.priced
    (hanswers.soon.elim FeeTerms.stopsWithin_of_settlesNear FeeTerms.stopsWithin_of_contracts)
  have hbound := total.toNat_lt
  have hminimumNat := UInt64.le_iff_toNat_le.mp hminimum
  have hrequired : (UInt64.ofNat (amount.toNat + terms.minimumFee.toNat)).toNat =
      amount.toNat + terms.minimumFee.toNat := ofNat_toNat (by omega)
  have hfee : storageMassFeeWithPayload selected total amount requestedFee payload.length
      (prepared.output.scriptPublicKey.length :: changeLength.toList) feeRate = .ok fee :=
    storageMassFeeWithPayload_eq_ok.mpr
      ⟨⟨_, okOr_checkedAdd_eq _ hrequired⟩, hamount, hsettled⟩
  have hwithin : fee ≤ total - amount := by
    refine settle_available hsettled hanswers.within hminimum hother (hkept.imp_right fun hwhole => ?_)
    have hsame : other.toNat = terms.availableFee.toNat := by omega
    exact ⟨UInt64.toNat_inj.mp hsame, hwhole.2⟩
  obtain ⟨planned, hplanned⟩ := planPayment_succeeds hprepared hanswers hfee hwithin
  exact ⟨_, _, planPayloadSend_of_fee hprepared hanswers.script hanswers.sums hfee hwithin hplanned⟩

end

end PayloadSend

open PayloadSend

theorem sortLargestFirst_perm (utxos : List CovenantBuilder.UtxoEntry) :
    (sortLargestFirst utxos).Perm utxos :=
  List.perm_insertionSort _ utxos

/-- A prefix longer than the list is the list. -/
theorem shorter_prefix {α : Type} (items : List α) {k limit : Nat} (hpos : 0 < k) (hle : k ≤ limit)
    (hsome : 0 < (items.take limit).length) :
    ∃ k', 0 < k' ∧ k' ≤ (items.take limit).length ∧ items.take k = items.take k' := by
  rw [List.length_take] at hsome ⊢
  obtain hwithin | hover := Nat.le_total k items.length
  · exact ⟨k, hpos, Nat.le_min.mpr ⟨hle, hwithin⟩, rfl⟩
  · refine ⟨items.length, by omega, by omega, ?_⟩
    rw [List.take_of_length_le hover, List.take_length]

/-- The prepared output pays the amount that is asked for. The inputs are the first few UTXOs of the
largest-first order, each as often as it is listed; the fee is what the inputs have over the outputs
and pays what these require. No valid plan of a prefix that can be asked about, or that gives a plan,
pays less. -/
theorem payload_send {wallet : WalletData} {prepared : PreparedSend} {destination payload : Bytes}
    {amount fee requestedFee feeRate : UInt64} {utxos : List CovenantBuilder.UtxoEntry}
    {plan : UnsignedTransactionPlan}
    (hprepared : prepareSend wallet destination amount fee = .ok prepared)
    (h : createSendWithPayloadFromUtxos wallet prepared amount requestedFee payload feeRate utxos =
      .ok plan) :
    ∃ count paid, 0 < count ∧ count ≤ PAYLOAD_MAX_INPUTS ∧
      plan.inputs.map PlannedInput.utxo = (sortLargestFirst utxos).take count ∧
      (plan.inputs.map PlannedInput.utxo).Subperm utxos ∧
      ((utxos.map CovenantBuilder.UtxoEntry.outpoint).Nodup →
        (plan.inputs.map fun input => input.utxo.outpoint).Nodup) ∧
      (plan.inputs.map fun input => input.utxo.amount.toNat).sum =
        (plan.outputs.map fun output => output.amount.toNat).sum + paid.toNat ∧
      (∃ required, plan.requiredFee feeRate (max MINIMUM_PLANNER_FEE requestedFee) = .ok required ∧
        required ≤ paid) ∧
      ∀ k other otherPlan, 0 < k → k ≤ PAYLOAD_MAX_INPUTS →
        ValidPlan wallet prepared requestedFee payload feeRate ((sortLargestFirst utxos).take k) other
          otherPlan →
        ((planPayloadSend wallet prepared amount requestedFee payload feeRate
            ((sortLargestFirst utxos).take k)).isSome = true ∨
          ∃ changeLength total, Answers wallet prepared amount requestedFee payload feeRate
            ((sortLargestFirst utxos).take k) changeLength total) →
        paid ≤ other := by
  have hamount := prepareSend_amount hprepared
  obtain ⟨minimumRequired, hminimum, h⟩ := bind_eq_ok.mp h
  obtain ⟨state, hstate, h⟩ := bind_eq_ok.mp h
  -- the loop keeps the cheapest plan among the prefixes that it has tried
  have hsearched := bestPrefix_searched hamount (okOr_checkedAdd hminimum) hstate
  split at h
  case h_2 =>
    obtain ⟨available, _, h⟩ := bind_eq_ok.mp h
    cases h
  case h_1 paid best hbest =>
    obtain ⟨_, _, h⟩ := bind_eq_ok.mp h
    cases h
    obtain ⟨count, hpos, hle, hplan⟩ := hsearched.found paid plan hbest
    have hspec := planPayloadSend_spec hamount hplan
    have hinputs : plan.inputs.map PlannedInput.utxo = (sortLargestFirst utxos).take count := by
      rw [hspec.pays.inputs, List.map_map]
      exact List.map_id _
    have hcount : count ≤ PAYLOAD_MAX_INPUTS := Nat.le_trans hle (List.length_take_le _ _)
    have hsubperm : ((sortLargestFirst utxos).take count).Subperm utxos :=
      (List.take_sublist _ _).subperm.trans (sortLargestFirst_perm utxos).subperm
    refine ⟨count, paid, hpos, hcount, hinputs, hinputs ▸ hsubperm, ?_, ?_, hspec.pays.required, ?_⟩
    · intro hnodup
      have houtpoints : plan.inputs.map (fun input => input.utxo.outpoint) =
          ((sortLargestFirst utxos).take count).map CovenantBuilder.UtxoEntry.outpoint := by
        rw [← hinputs, List.map_map]
        rfl
      rw [houtpoints]
      have hsorted := ((sortLargestFirst_perm utxos).map
        CovenantBuilder.UtxoEntry.outpoint).nodup_iff.mpr hnodup
      exact hsorted.sublist ((List.take_sublist _ _).map _)
    · rw [← hspec.pays.conserves, amounts, ← hinputs, List.map_map]
      rfl
    · intro k other otherPlan hk hkLe hvalid hanswers
      obtain ⟨paid', plan', hplan'⟩ : ∃ paid plan, planPayloadSend wallet prepared amount requestedFee
          payload feeRate ((sortLargestFirst utxos).take k) = some (paid, plan) := by
        obtain hsome | ⟨changeLength, total, hanswers⟩ := hanswers
        · obtain ⟨⟨paid', plan'⟩, hplan'⟩ := Option.isSome_iff_exists.mp hsome
          exact ⟨paid', plan', hplan'⟩
        · exact planPayloadSend_succeeds hamount hanswers hvalid
      -- prefixes past the whole list repeat it, so only those of the list are compared
      have hleast : paid ≤ paid' := by
        obtain ⟨k', hk', hkLe', htake⟩ := shorter_prefix (sortLargestFirst utxos) hk hkLe
          (Nat.lt_of_lt_of_le hpos hle)
        rw [htake] at hplan'
        obtain ⟨_, hsame, hbestLe⟩ := hsearched.least k' paid' plan' hk' hkLe' hplan'
        cases hbest.symm.trans hsame
        exact hbestLe
      obtain ⟨total, htotal, hrest⟩ := Option.bind_eq_some_iff.mp hplan'
      obtain ⟨changeLength, hlength, -⟩ := Option.bind_eq_some_iff.mp hrest
      exact UInt64.le_trans hleast ((planPayloadSend_spec hamount hplan').le_valid hamount hlength
        (toOption_eq_some.mp htotal) hvalid)

namespace PayloadSend

def address : Bytes := ascii "kaspa:qqqqqqqqqqqqqqqqqqqqqqqqqqqqqqqqqqqqqqqqqqqqqqqqqqqqqkx9awp4e"

def wallet : WalletData := ⟨[address], [address], 0⟩

def utxo (id : UInt8) (amount : UInt64) : CovenantBuilder.UtxoEntry :=
  ⟨List.replicate 64 id, 0, amount, p2pkScript (zeros 32), 0, none⟩

def prepared : PreparedSend := ⟨.new 20000000 (p2pkScript (zeros 32)), 20000000, 0⟩

def utxos : List CovenantBuilder.UtxoEntry := [utxo 0x31 30000000, utxo 0x30 42558152]

/-- Both UTXOs are spent: the larger one alone would leave change that weighs too much. -/
def plan : UnsignedTransactionPlan where
  txVersion := 0
  inputs := [.p2pk (utxo 0x30 42558152), .p2pk (utxo 0x31 30000000)]
  outputs := [.new 20000000 (p2pkScript (zeros 32)),
    ⟨51291552, p2pkScript (zeros 32), some (1, 0)⟩]
  payload := [1, 2, 3]

end PayloadSend

open PayloadSend

/-- Two inputs are spent, and no valid plan of the two pays less. -/
theorem payload_send_sample : ∃ (count : Nat) (paid : UInt64), 0 < count ∧
    count ≤ PAYLOAD_MAX_INPUTS ∧
    plan.inputs.map PlannedInput.utxo = (sortLargestFirst utxos).take count ∧
    (plan.inputs.map fun input => input.utxo.amount.toNat).sum =
      (plan.outputs.map fun output => output.amount.toNat).sum + paid.toNat ∧
    ∀ other otherPlan, ValidPlan wallet prepared 0 [1, 2, 3] 1 ((sortLargestFirst utxos).take 2) other
      otherPlan → paid ≤ other := by
  have hprepared : prepareSend wallet address 20000000 0 = .ok prepared := by decide
  have hsend : createSendWithPayloadFromUtxos wallet prepared 20000000 0 [1, 2, 3] 1 utxos =
      .ok plan := by
    decide
  obtain ⟨count, paid, hpos, hle, hinputs, _, _, hconserves, _, hleast⟩ :=
    payload_send hprepared hsend
  refine ⟨count, paid, hpos, hle, hinputs, hconserves, fun other otherPlan hvalid => ?_⟩
  exact hleast 2 other otherPlan (by decide) (by decide) hvalid (.inl (by decide))

namespace PayloadSend

def tenKas : PreparedSend := ⟨.new 1000000000 (p2pkScript (zeros 32)), 1000000000, 0⟩

/-- The first covers ten KAS and a fee without change, but not the fee of a plan with change. -/
def coins : List CovenantBuilder.UtxoEntry := [utxo 0x30 1010500000, utxo 0x31 500000000]

def chosen : UnsignedTransactionPlan where
  txVersion := 0
  inputs := [.p2pk (utxo 0x30 1010500000), .p2pk (utxo 0x31 500000000)]
  outputs := [.new 1000000000 (p2pkScript (zeros 32)),
    ⟨493136500, p2pkScript (zeros 32), some (1, 0)⟩]
  payload := [1, 2, 3]

def withoutChange : UnsignedTransactionPlan where
  txVersion := 0
  inputs := [.p2pk (utxo 0x30 1010500000)]
  outputs := [.new 1000000000 (p2pkScript (zeros 32))]
  payload := [1, 2, 3]

end PayloadSend

/-- The first UTXO alone has a valid plan that pays 10500000 sompi, of which 8948500 are required.
The plan that is chosen spends both and pays 17363500. -/
theorem dearer_prefix_chosen :
    prepareSend wallet address 1000000000 0 = .ok tenKas ∧
      createSendWithPayloadFromUtxos wallet tenKas 1000000000 0 [1, 2, 3] 5500 coins = .ok chosen ∧
      (chosen.inputs.map fun input => input.utxo.amount.toNat).sum =
        (chosen.outputs.map fun output => output.amount.toNat).sum + 17363500 ∧
      ValidPlan wallet tenKas 0 [1, 2, 3] 5500 ((sortLargestFirst coins).take 1) 10500000
        withoutChange := by
  refine ⟨by decide, by decide, by decide, ⟨10500000, ?_⟩, rfl, rfl, by decide,
    8948500, by decide, by decide⟩
  exact ⟨{ withoutChange with payload := [] }, by decide, rfl⟩

end KaspaPortal.Guarantees
