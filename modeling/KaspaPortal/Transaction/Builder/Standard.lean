import KaspaPortal.Transaction.Builder.Covenant
import KaspaPortal.Transaction.Estimate

/-!
# Standard payments

`src/transaction/builder/standard.rs` and `src/transaction/builder/planning/`: the fee of a payment
whose storage mass depends on the change that the fee leaves.

The reading of options around the planner is left out; rate, amount and entries are its arguments.
-/
namespace KaspaPortal.Transaction.StandardBuilder
open Lib Primitives CovenantBuilder

def MINIMUM_PLANNER_FEE : UInt64 := 300000
def MAX_FEE_PASSES : Nat := 256

/-- `calculate_change`: dust is not returned. -/
def calculateChange (selectedTotal spendTotal fee : UInt64) : Except String UInt64 := do
  let required ← okOr "Spend plus fee exceeds supported monetary range" (checkedAdd spendTotal fee)
  let change ← okOr s!"Selected UTXOs: {selectedTotal} sompi, need {required} sompi"
    (checkedSub selectedTotal required)
  return if isDust change then 0 else change

/-- What a payment leaves for change is planned as change unless it is dust. -/
theorem calculateChange_eq {selectedTotal amount fee : UInt64} (hamount : amount ≤ selectedTotal)
    (hfee : fee ≤ selectedTotal - amount) :
    calculateChange selectedTotal amount fee =
      .ok (if isDust (selectedTotal - amount - fee) then 0 else selectedTotal - amount - fee) := by
  have hsub := UInt64.toNat_sub_of_le _ _ hamount
  have hrest := UInt64.toNat_sub_of_le _ _ hfee
  have hamountNat := UInt64.le_iff_toNat_le.mp hamount
  have hfeeNat := UInt64.le_iff_toNat_le.mp hfee
  have hbound := selectedTotal.toNat_lt
  have hrequired : (UInt64.ofNat (amount.toNat + fee.toNat)).toNat = amount.toNat + fee.toNat :=
    ofNat_toNat (by omega)
  refine (bind_of_ok (okOr_checkedAdd_eq _ hrequired)).trans ?_
  refine bind_of_ok (okOr_eq_ok.mpr (checkedSub_eq_some.mpr ?_))
  rw [hrequired]
  omega

/-! ## Plans -/

/-- The watch-only wallet, as far as a payment reads it. -/
structure WalletData where
  receiveAddresses : List Bytes
  changeAddresses : List Bytes
  nextChangeIndex : Nat

structure PlannedInput where
  utxo : CovenantBuilder.UtxoEntry
  sequence : UInt64
  sigOpCount : UInt8
  redeemScript : Option Bytes
  deriving DecidableEq

def PlannedInput.p2pk (utxo : CovenantBuilder.UtxoEntry) : PlannedInput where
  utxo
  sequence := 0
  sigOpCount := 1
  redeemScript := none

structure PlannedOutput where
  amount : UInt64
  scriptPublicKey : Bytes
  /-- The branch and index of an output of the wallet. -/
  derivationHint : Option (UInt8 × UInt32)
  deriving DecidableEq

def PlannedOutput.new (amount : UInt64) (scriptPublicKey : Bytes) : PlannedOutput where
  amount
  scriptPublicKey
  derivationHint := none

structure UnsignedTransactionPlan where
  txVersion : UInt16
  inputs : List PlannedInput
  outputs : List PlannedOutput
  payload : Bytes
  deriving DecidableEq

def UnsignedTransactionPlan.standard (inputs : List CovenantBuilder.UtxoEntry)
    (outputs : List PlannedOutput) : UnsignedTransactionPlan where
  txVersion := 0
  inputs := inputs.map PlannedInput.p2pk
  outputs
  payload := []

def planPayment (wallet : WalletData) (selected : List CovenantBuilder.UtxoEntry)
    (recipients : List PlannedOutput) (fee : UInt64) : Except String UnsignedTransactionPlan := do
  let total ← selectedTotal selected
  let spendTotal ← checkedSum (recipients.map PlannedOutput.amount)
  let change ← calculateChange total spendTotal fee
  if 0 < change then
    let address ← okOr "No more change addresses. Re-import kpub."
      wallet.changeAddresses[wallet.nextChangeIndex]?
    let script ← addressToScriptPubkey address
    let index ← okOr "Change derivation index exceeds u32"
      (if wallet.nextChangeIndex < 2 ^ 32 then some (UInt32.ofNat wallet.nextChangeIndex) else none)
    return .standard selected (recipients ++ [⟨change, script, some (1, index)⟩])
  else return .standard selected recipients

structure PreparedSend where
  output : PlannedOutput
  required : UInt64
  fee : UInt64
  deriving DecidableEq

def validateRecipientAmount (amount : UInt64) : Except String Unit := do
  rejectIf (amount = 0) "amount must be > 0"
  rejectIf (isDust amount = true) s!"amount too small ({amount} sompi)"

def prepareSend (wallet : WalletData) (destination : Bytes) (amount fee : UInt64) :
    Except String PreparedSend := do
  validateRecipientAmount amount
  let required ← checkedRequired amount fee
  let network ← walletAddressPrefix wallet.receiveAddresses
  let script ← addressToScriptPubkeyOn destination network
  return ⟨.new amount script, required, fee⟩

/-- What a plan made with a fee consists of. -/
structure Payment (wallet : WalletData) (selected : List CovenantBuilder.UtxoEntry)
    (recipients : List PlannedOutput) (fee : UInt64) (plan : UnsignedTransactionPlan) : Prop where
  inputs : plan.inputs = selected.map PlannedInput.p2pk
  outputs : ∃ total spendTotal change, selectedTotal selected = .ok total ∧
    checkedSum (recipients.map PlannedOutput.amount) = .ok spendTotal ∧
    calculateChange total spendTotal fee = .ok change ∧
      (change = 0 ∧ plan.outputs = recipients ∨
        change ≠ 0 ∧ ∃ address script index,
          wallet.changeAddresses[wallet.nextChangeIndex]? = some address ∧
          addressToScriptPubkey address = .ok script ∧
          plan.outputs = recipients ++ [⟨change, script, some (1, index)⟩])

theorem planPayment_spec {wallet : WalletData} {selected : List CovenantBuilder.UtxoEntry}
    {recipients : List PlannedOutput} {fee : UInt64} {plan : UnsignedTransactionPlan}
    (h : planPayment wallet selected recipients fee = .ok plan) :
    Payment wallet selected recipients fee plan := by
  obtain ⟨total, htotal, h⟩ := bind_eq_ok.mp h
  obtain ⟨spendTotal, hspend, h⟩ := bind_eq_ok.mp h
  obtain ⟨change, hchange, h⟩ := bind_eq_ok.mp h
  split at h
  case isTrue hpos =>
    obtain ⟨address, haddress, h⟩ := bind_eq_ok.mp h
    obtain ⟨script, hscript, h⟩ := bind_eq_ok.mp h
    obtain ⟨index, _, h⟩ := bind_eq_ok.mp h
    cases h
    have hne : change ≠ 0 := by
      intro hzero
      rw [hzero] at hpos
      exact absurd hpos (by decide)
    exact ⟨rfl, total, spendTotal, change, htotal, hspend, hchange,
      .inr ⟨hne, address, script, index, okOr_eq_ok.mp haddress, hscript, rfl⟩⟩
  case isFalse hzero =>
    cases h
    have hzero : change = 0 := by
      rw [UInt64.lt_iff_toNat_lt] at hzero
      exact UInt64.toNat_inj.mp (Nat.eq_zero_of_not_pos hzero)
    exact ⟨rfl, total, spendTotal, change, htotal, hspend, hchange, .inl ⟨hzero, rfl⟩⟩

theorem prepareSend_amount {wallet : WalletData} {destination : Bytes} {amount fee : UInt64}
    {prepared : PreparedSend} (h : prepareSend wallet destination amount fee = .ok prepared) :
    prepared.output.amount = amount := by
  obtain ⟨_, _, h⟩ := bind_eq_ok.mp h
  obtain ⟨required, _, h⟩ := bind_eq_ok.mp h
  obtain ⟨network, _, h⟩ := bind_eq_ok.mp h
  obtain ⟨script, _, h⟩ := bind_eq_ok.mp h
  cases h
  rfl

/-! ## The fee a transaction requires -/

def requiredMassFeeForScripts (inputs : List (UInt64 × UInt64)) (inputCount : Nat)
    (outputs : List (UInt64 × UInt64)) (outputScriptLengths : List Nat) (payloadLen : Nat)
    (feeRate minimumFee : UInt64) : Except String UInt64 := do
  if outputScriptLengths.length ≠ outputs.length then
    throw "missing output script length for fee estimate"
  let effectiveFeeRate := max feeRate MIN_STANDARD_FEE_RATE_SOMPI_PER_GRAM
  let (nonContextualFee, _, _) ←
    estimateNonContextualFee inputCount outputScriptLengths payloadLen effectiveFeeRate
  let storageMass ← storageMassEstimate inputs outputs
  let storageFee ← okOr "Estimated storage fee exceeds supported range"
    (checkedMul storageMass effectiveFeeRate)
  return max (max nonContextualFee storageFee) minimumFee

def requiredMassFee (inputs : List (UInt64 × UInt64)) (inputCount : Nat)
    (outputs : List (UInt64 × UInt64)) (outputScriptLength payloadLen : Nat)
    (feeRate minimumFee : UInt64) : Except String UInt64 :=
  requiredMassFeeForScripts inputs inputCount outputs [outputScriptLength] payloadLen feeRate
    minimumFee

/-! ## The fee loop -/

/-- What every pass of the fee loop reads. -/
structure FeeTerms where
  selected : List CovenantBuilder.UtxoEntry
  amount : UInt64
  payloadLen : Nat
  outputScriptLengths : List Nat
  feeRate : UInt64
  minimumFee : UInt64
  availableFee : UInt64

namespace FeeTerms

def inputs (terms : FeeTerms) : List (UInt64 × UInt64) :=
  terms.selected.map fun utxo => (utxo.amount, 1)

def requiredWithChange (terms : FeeTerms) (change : UInt64) : Except String UInt64 := do
  -- `get(..2)`
  let scriptLengths ← okOr "missing output script length for fee estimate"
    (if 2 ≤ terms.outputScriptLengths.length then some (terms.outputScriptLengths.take 2) else none)
  requiredMassFeeForScripts terms.inputs terms.selected.length [(terms.amount, 1), (change, 1)]
    scriptLengths terms.payloadLen terms.feeRate terms.minimumFee

def requiredNoChange (terms : FeeTerms) : Except String UInt64 := do
  let scriptLength ← okOr "missing output script length for fee estimate"
    terms.outputScriptLengths.head?
  requiredMassFee terms.inputs terms.selected.length [(terms.amount, 1)] scriptLength
    terms.payloadLen terms.feeRate terms.minimumFee

/-- The passes of the loop. A fee above what is available is for the caller to refuse. -/
def settle (terms : FeeTerms) : Nat → UInt64 → Except String UInt64
  | 0, _ => .error "payload-aware storage-mass fee calculation did not converge"
  | passes + 1, fee =>
    if terms.availableFee < fee then .ok fee
    else if isDust (terms.availableFee - fee) then do
      let required ← terms.requiredNoChange
      return if required ≤ terms.availableFee then terms.availableFee else required
    else do
      let required ← terms.requiredWithChange (terms.availableFee - fee)
      if required ≤ fee then return fee else terms.settle passes required

end FeeTerms

/-- `storage_mass_fee_with_payload`. -/
def storageMassFeeWithPayload (selected : List CovenantBuilder.UtxoEntry) (selectedTotal amount requestedFee : UInt64)
    (payloadLen : Nat) (outputScriptLengths : List Nat) (feeRate : UInt64) :
    Except String UInt64 := do
  let minimumFee := max MINIMUM_PLANNER_FEE requestedFee
  let _ ← checkedRequired amount minimumFee
  let availableFee ← okOr "Selected value is below payment amount" (checkedSub selectedTotal amount)
  FeeTerms.settle
    ⟨selected, amount, payloadLen, outputScriptLengths, feeRate, minimumFee, availableFee⟩
    MAX_FEE_PASSES minimumFee

/-- The terms of a fee question whose amount is covered. -/
def feeTerms (selected : List CovenantBuilder.UtxoEntry) (selectedTotal amount requestedFee : UInt64)
    (payloadLen : Nat) (outputScriptLengths : List Nat) (feeRate : UInt64) : FeeTerms where
  selected
  amount
  payloadLen
  outputScriptLengths
  feeRate
  minimumFee := max MINIMUM_PLANNER_FEE requestedFee
  availableFee := selectedTotal - amount

theorem storageMassFeeWithPayload_eq_ok {selected : List CovenantBuilder.UtxoEntry}
    {selectedTotal amount requestedFee feeRate fee : UInt64} {payloadLen : Nat} {lengths : List Nat} :
    storageMassFeeWithPayload selected selectedTotal amount requestedFee payloadLen lengths feeRate =
        .ok fee ↔
      (∃ required, checkedRequired amount (max MINIMUM_PLANNER_FEE requestedFee) = .ok required) ∧
        amount ≤ selectedTotal ∧
        (feeTerms selected selectedTotal amount requestedFee payloadLen lengths feeRate).settle
          MAX_FEE_PASSES (max MINIMUM_PLANNER_FEE requestedFee) = .ok fee := by
  constructor
  · intro h
    obtain ⟨required, hrequired, h⟩ := bind_eq_ok.mp h
    obtain ⟨available, havailable, h⟩ := bind_eq_ok.mp h
    have hsub := okOr_eq_ok.mp havailable
    rw [checkedSub] at hsub
    split at hsub
    case isFalse => cases hsub
    case isTrue hle =>
      cases hsub
      exact ⟨⟨required, hrequired⟩, hle, h⟩
  · intro h
    obtain ⟨⟨required, hrequired⟩, hle, hsettle⟩ := h
    refine bind_eq_ok.mpr ⟨required, hrequired, bind_eq_ok.mpr ⟨selectedTotal - amount, ?_, hsettle⟩⟩
    rw [checkedSub, if_pos hle]
    rfl

/-! ## The required fee in plain numbers -/

theorem requiredMassFeeForScripts_toNat {inputs outputs : List (UInt64 × UInt64)}
    {inputCount payloadLen : Nat} {lengths : List Nat} {feeRate minimumFee required : UInt64}
    (h : requiredMassFeeForScripts inputs inputCount outputs lengths payloadLen feeRate minimumFee =
      .ok required) :
    required.toNat =
      max (max (max (planMass .P2PK inputCount lengths payloadLen)
            (2 * planBytes .P2PK inputCount lengths payloadLen) *
          (max feeRate MIN_STANDARD_FEE_RATE_SOMPI_PER_GRAM).toNat)
        ((harmonic outputs - spentMass inputs (pluralities outputs)) *
          (max feeRate MIN_STANDARD_FEE_RATE_SOMPI_PER_GRAM).toNat)) minimumFee.toNat := by
  rw [requiredMassFeeForScripts] at h
  split at h
  case isTrue => cases h
  case isFalse =>
    obtain ⟨⟨nonContextual, compute, transient⟩, hestimate, h⟩ := bind_eq_ok.mp h
    obtain ⟨storageMass, hstorage, h⟩ := bind_eq_ok.mp h
    obtain ⟨storageFee, hfee, h⟩ := bind_eq_ok.mp h
    cases h
    have hrate : max (max feeRate MIN_STANDARD_FEE_RATE_SOMPI_PER_GRAM)
        MIN_STANDARD_FEE_RATE_SOMPI_PER_GRAM =
          max feeRate MIN_STANDARD_FEE_RATE_SOMPI_PER_GRAM := by
      rw [← UInt64.toNat_inj, toNat_max, toNat_max, max_assoc, max_self]
    rw [toNat_max, toNat_max, okOr_checkedMul hfee, storageMassEstimate_toNat hstorage,
      estimateNonContextualFeeForShape_toNat hestimate, hrate]

namespace FeeTerms

variable {terms : FeeTerms}

/-- The fee rate in force, in sompi a gram. -/
def rate (terms : FeeTerms) : Nat := (max terms.feeRate MIN_STANDARD_FEE_RATE_SOMPI_PER_GRAM).toNat

/-- The fee for the size of a plan with a payment and a change output. -/
def sizeFee (terms : FeeTerms) : Nat :=
  let lengths := terms.outputScriptLengths.take 2
  max (planMass .P2PK terms.selected.length lengths terms.payloadLen)
    (2 * planBytes .P2PK terms.selected.length lengths terms.payloadLen) * terms.rate

/-- Grams of storage for the payment and the change, less what the inputs take off. -/
def storageGrams (terms : FeeTerms) (change : Nat) : Nat :=
  1000000000000 / max terms.amount.toNat 1 + 1000000000000 / max change 1 -
    spentMass terms.inputs 2

/-- The fee that a plan which keeps this change requires. -/
def requiredSompi (terms : FeeTerms) (change : Nat) : Nat :=
  max (max terms.sizeFee (terms.storageGrams change * terms.rate)) terms.minimumFee.toNat

theorem requiredWithChange_toNat {change required : UInt64}
    (h : terms.requiredWithChange change = .ok required) :
    required.toNat = terms.requiredSompi change.toNat := by
  obtain ⟨lengths, hlengths, h⟩ := bind_eq_ok.mp h
  have hlengths := okOr_eq_ok.mp hlengths
  split at hlengths
  case isFalse => cases hlengths
  case isTrue =>
    cases hlengths
    rw [requiredMassFeeForScripts_toNat h, harmonic_pair]
    rfl

/-- Less change weighs more. -/
theorem requiredSompi_antitone {change change' : Nat} (h : change ≤ change') :
    terms.requiredSompi change' ≤ terms.requiredSompi change := by
  have hgrams : 1000000000000 / max change' 1 ≤ 1000000000000 / max change 1 :=
    Nat.div_le_div_left (by omega) (by omega)
  have hstorage : terms.storageGrams change' ≤ terms.storageGrams change := by
    rw [storageGrams, storageGrams]
    omega
  have hfee : terms.storageGrams change' * terms.rate ≤ terms.storageGrams change * terms.rate :=
    Nat.mul_le_mul_right terms.rate hstorage
  rw [requiredSompi, requiredSompi]
  omega

theorem minimumFee_le_requiredSompi (change : Nat) :
    terms.minimumFee.toNat ≤ terms.requiredSompi change :=
  Nat.le_max_right _ _

theorem minimumFee_le_requiredNoChange {required : UInt64}
    (h : terms.requiredNoChange = .ok required) : terms.minimumFee.toNat ≤ required.toNat := by
  obtain ⟨scriptLength, _, h⟩ := bind_eq_ok.mp h
  rw [requiredMassFeeForScripts_toNat h]
  exact Nat.le_max_right _ _

/-! ## Where the passes end -/

/-- A fee, from the minimum on, whose change is kept and pays for it. -/
structure PaysForItself (terms : FeeTerms) (fee : UInt64) : Prop where
  minimum : terms.minimumFee ≤ fee
  available : fee ≤ terms.availableFee
  kept : isDust (terms.availableFee - fee) = false
  required : ∃ required, terms.requiredWithChange (terms.availableFee - fee) = .ok required ∧
    required ≤ fee

/-- The fee of a transaction, with the change it leaves or without any. -/
def requiredOf (terms : FeeTerms) (change : UInt64) : Except String UInt64 :=
  if change = 0 then terms.requiredNoChange else terms.requiredWithChange change

/-- The passes end with a kept change that pays for itself or with the whole remainder. -/
theorem settle_sound {passes : Nat} {fee result : UInt64} (h : terms.settle passes fee = .ok result)
    (havailable : result ≤ terms.availableFee) :
    (isDust (terms.availableFee - result) = false ∧
        ∃ required, terms.requiredWithChange (terms.availableFee - result) = .ok required ∧
          required ≤ result) ∨
      result = terms.availableFee ∧
        ∃ required, terms.requiredNoChange = .ok required ∧ required ≤ result := by
  induction passes generalizing fee with
  | zero => cases h
  | succ passes ih =>
    rw [settle] at h
    split at h
    case isTrue hover =>
      cases h
      rw [UInt64.lt_iff_toNat_lt] at hover
      rw [UInt64.le_iff_toNat_le] at havailable
      omega
    case isFalse =>
      split at h
      case isTrue =>
        obtain ⟨required, hrequired, h⟩ := bind_eq_ok.mp h
        split at h
        case isTrue hcovered =>
          cases h
          exact .inr ⟨rfl, required, hrequired, hcovered⟩
        case isFalse hshort =>
          cases h
          exact absurd havailable hshort
      case isFalse hkept =>
        obtain ⟨required, hrequired, h⟩ := bind_eq_ok.mp h
        split at h
        case isTrue hpaid =>
          cases h
          exact .inl ⟨Bool.eq_false_iff.mpr hkept, required, hrequired, hpaid⟩
        case isFalse => exact ih h

/-- No pass climbs over a fee that pays for itself. -/
theorem settle_least {passes : Nat} {fee result other : UInt64}
    (h : terms.settle passes fee = .ok result) (hother : terms.PaysForItself other)
    (hfee : fee ≤ other) : result ≤ other := by
  induction passes generalizing fee with
  | zero => cases h
  | succ passes ih =>
    rw [settle] at h
    split at h
    case isTrue =>
      cases h
      exact hfee
    case isFalse hover =>
      split at h
      case isTrue hdust =>
        -- The change of the other fee is smaller, and dust is the smallest change.
        have hsmaller := hother.kept
        rw [Bool.eq_false_iff, Ne, isDust_iff, UInt64.toNat_sub_of_le _ _ hother.available]
          at hsmaller
        rw [isDust_iff, UInt64.toNat_sub_of_le _ _ (UInt64.not_lt.mp hover)] at hdust
        rw [UInt64.le_iff_toNat_le] at hfee
        omega
      case isFalse =>
        obtain ⟨required, hrequired, h⟩ := bind_eq_ok.mp h
        split at h
        case isTrue =>
          cases h
          exact hfee
        case isFalse =>
          obtain ⟨covered, hcovered, hpays⟩ := hother.required
          apply ih h
          rw [UInt64.le_iff_toNat_le] at hfee hpays ⊢
          rw [requiredWithChange_toNat hrequired,
            UInt64.toNat_sub_of_le _ _ (UInt64.not_lt.mp hover)]
          rw [requiredWithChange_toNat hcovered, UInt64.toNat_sub_of_le _ _ hother.available] at hpays
          exact Nat.le_trans (requiredSompi_antitone (by omega)) hpays

end FeeTerms

section
variable {selected : List CovenantBuilder.UtxoEntry} {payloadLen : Nat} {lengths : List Nat}
  {selectedTotal amount requestedFee feeRate fee other : UInt64}

/-- What a payment and a fee leave for change, and the fee that the planned transaction requires. -/
structure PaidFee (terms : FeeTerms) (selectedTotal fee change required : UInt64) : Prop where
  planned : calculateChange selectedTotal terms.amount fee = .ok change
  conserves : selectedTotal.toNat = terms.amount.toNat + change.toNat + fee.toNat
  requires : terms.requiredOf change = .ok required
  paid : required ≤ fee
  minimum : terms.minimumFee ≤ fee
  kept : change ≠ 0 → terms.PaysForItself fee

/-- A fee within what is available pays for the transaction that is planned with it. -/
theorem storageMassFeeWithPayload_pays
    (h : storageMassFeeWithPayload selected selectedTotal amount requestedFee payloadLen lengths
      feeRate = .ok fee) (havailable : fee ≤ selectedTotal - amount) :
    ∃ change required, PaidFee
      (feeTerms selected selectedTotal amount requestedFee payloadLen lengths feeRate) selectedTotal
      fee change required := by
  obtain ⟨_, hamount, hsettle⟩ := storageMassFeeWithPayload_eq_ok.mp h
  have hchange := calculateChange_eq hamount havailable
  have hrest := UInt64.toNat_sub_of_le _ _ havailable
  rw [UInt64.toNat_sub_of_le _ _ hamount] at hrest
  have hamountNat := UInt64.le_iff_toNat_le.mp hamount
  have havailableNat := UInt64.le_iff_toNat_le.mp havailable
  rw [UInt64.toNat_sub_of_le _ _ hamount] at havailableNat
  obtain hkept | hwhole := FeeTerms.settle_sound hsettle havailable
  · obtain ⟨hdust, required, hrequired, hpaid⟩ := hkept
    have hdust : isDust (selectedTotal - amount - fee) = false := hdust
    have hne : selectedTotal - amount - fee ≠ 0 := by
      intro hzero
      rw [hzero] at hdust
      cases hdust
    have hminimum : (feeTerms selected selectedTotal amount requestedFee payloadLen lengths
        feeRate).minimumFee ≤ fee := by
      rw [UInt64.le_iff_toNat_le] at hpaid ⊢
      refine Nat.le_trans ?_ hpaid
      rw [FeeTerms.requiredWithChange_toNat hrequired]
      exact FeeTerms.minimumFee_le_requiredSompi _
    refine ⟨selectedTotal - amount - fee, required, ?_, ?_, ?_, hpaid, hminimum, fun _ => ?_⟩
    · exact hchange.trans (congrArg Except.ok (if_neg (Bool.eq_false_iff.mp hdust)))
    · change selectedTotal.toNat = amount.toNat + _ + fee.toNat
      omega
    · rw [FeeTerms.requiredOf, if_neg hne]
      exact hrequired
    · exact ⟨hminimum, havailable, hdust, required, hrequired, hpaid⟩
  · obtain ⟨hfee, required, hrequired, hpaid⟩ := hwhole
    have hfee : fee = selectedTotal - amount := hfee
    have hminimum : (feeTerms selected selectedTotal amount requestedFee payloadLen lengths
        feeRate).minimumFee ≤ fee :=
      UInt64.le_iff_toNat_le.mpr (Nat.le_trans (FeeTerms.minimumFee_le_requiredNoChange hrequired)
        (UInt64.le_iff_toNat_le.mp hpaid))
    refine ⟨0, required, ?_, ?_, hrequired, hpaid, hminimum, fun hne => absurd rfl hne⟩
    · refine hchange.trans ?_
      rw [hfee, UInt64.sub_self]
      rfl
    · change selectedTotal.toNat = amount.toNat + 0 + fee.toNat
      rw [hfee, UInt64.toNat_sub_of_le _ _ hamount]
      omega

/-- No fee that pays for its change is below the one returned. -/
theorem storageMassFeeWithPayload_le
    (h : storageMassFeeWithPayload selected selectedTotal amount requestedFee payloadLen lengths
      feeRate = .ok fee)
    (hother : (feeTerms selected selectedTotal amount requestedFee payloadLen lengths
      feeRate).PaysForItself other) : fee ≤ other :=
  FeeTerms.settle_least (storageMassFeeWithPayload_eq_ok.mp h).2.2 hother hother.minimum

end

end KaspaPortal.Transaction.StandardBuilder
