import KaspaPortal.Contract.Covenant.Branch
import KaspaPortal.Transaction.Builder.Funding

/-!
# Withdrawals from and top-ups of a global thread

`src/transaction/builder/pskb/global_thread.rs` and the plans of `src/transaction/builder/pskb/model.rs`
that it makes. The `proprietaries` of a plan are always empty here and are left out.

That the planned transaction meets the thread's script is proved next to the script, where the machine
is.
-/
namespace KaspaPortal.Transaction.GlobalThread
open Lib Primitives Contract.Covenant

/-! ## Plans -/

/-- The complete selector assignment that chooses a covenant input's path. -/
structure CovenantExecution where
  suppliedMask : BitVec 16
  suppliedTrueMask : BitVec 16
  deriving DecidableEq

/-- How a covenant input is spent: its sequence, its signatures, and the branch it takes. -/
structure CovenantInputPolicy where
  sequence : UInt64
  sigOpCount : UInt8
  minimumSignatures : UInt8
  minTime : Option UInt64
  execution : Option CovenantExecution

/-- An input of the document. -/
structure PskbInputPlan where
  utxo : CovenantBuilder.UtxoEntry
  sourceScriptPublicKey : Bytes
  sequence : UInt64
  blockDaaScore : UInt64
  sigOpCount : UInt8
  minimumSignatures : UInt8
  redeemScript : Option Bytes
  minTime : Option UInt64
  covenantExecution : Option CovenantExecution
  deriving DecidableEq

namespace PskbInputPlan

/-- An input that spends a covenant script. -/
def covenant (utxo : CovenantBuilder.UtxoEntry) (sourceScriptPublicKey redeemScript : Bytes)
    (policy : CovenantInputPolicy) : PskbInputPlan where
  utxo
  sourceScriptPublicKey
  sequence := policy.sequence
  blockDaaScore := 0
  sigOpCount := policy.sigOpCount
  minimumSignatures := policy.minimumSignatures
  redeemScript := some redeemScript
  minTime := policy.minTime
  covenantExecution := policy.execution

/-- An input of the wallet. -/
def p2pk (utxo : CovenantBuilder.UtxoEntry) (sourceScriptPublicKey : Bytes) : PskbInputPlan where
  utxo
  sourceScriptPublicKey
  sequence := 0
  blockDaaScore := 0
  sigOpCount := 1
  minimumSignatures := 1
  redeemScript := none
  minTime := some 0
  covenantExecution := none

end PskbInputPlan

/-- The input that authorises an output, and the covenant's id. -/
structure CovenantBinding where
  authorizingInput : UInt16
  covenantId : FixedBytes 32
  deriving DecidableEq

structure PskbOutputPlan where
  amount : UInt64
  scriptPublicKey : Bytes
  /-- No field at all, an explicit null, or a binding. -/
  covenantBindingField : Option (Option CovenantBinding)
  deriving DecidableEq

namespace PskbOutputPlan

/-- An output without a binding field. -/
def plain (amount : UInt64) (scriptPublicKey : Bytes) : PskbOutputPlan :=
  ⟨amount, scriptPublicKey, none⟩

def withBindingField (self : PskbOutputPlan) (covenantBinding : Option CovenantBinding) :
    PskbOutputPlan :=
  { self with covenantBindingField := some covenantBinding }

/-- The output of the transaction that the plan is made into: its script has version zero. -/
def consensus (self : PskbOutputPlan) : ConsensusOutput where
  value := self.amount
  spkVersion := 0
  spkScript := self.scriptPublicKey
  covenant := self.covenantBindingField.join.map fun binding =>
    (binding.authorizingInput, binding.covenantId)

end PskbOutputPlan

structure PskbGlobalPlan where
  txVersion : UInt16
  fallbackLockTime : Option UInt64
  transactionPayload : Option Bytes
  deriving DecidableEq

/-- The document, before it is written. -/
structure PskbPlan where
  globals : PskbGlobalPlan
  inputs : List PskbInputPlan
  outputs : List PskbOutputPlan
  deriving DecidableEq

/-! ## Policies -/

/-- Minimum economically useful continuation under the storage-mass rules. -/
def MIN_THREAD_CONTINUATION_SOMPI : UInt64 := 10000000

/-- What the scripts of the two kinds of thread need of a spend. -/
structure GlobalThreadPolicy where
  withdrawalLockTime : Option UInt64
  withdrawalSelector : Option Bool
  topupSelector : Option Bool
  topupSequence : UInt64
  deriving DecidableEq

namespace GlobalThreadPolicy

/-- The beneficiary withdraws through ELSE; the owner tops up through IF. -/
def allowance (cltvLockTime : UInt64) : GlobalThreadPolicy where
  withdrawalLockTime := if 0 < cltvLockTime then some cltvLockTime else none
  withdrawalSelector := some false
  topupSelector := some true
  topupSequence := 0

/-- The spending limit has one branch, and no selector. -/
def spendingLimit : GlobalThreadPolicy where
  withdrawalLockTime := some 0
  withdrawalSelector := none
  topupSelector := none
  topupSequence := 0

/-- A top-up needs the cooldown too, since the branch is the same. -/
def spendingLimitTopup (csvSequence : UInt64) : GlobalThreadPolicy :=
  { spendingLimit with topupSequence := csvSequence }

end GlobalThreadPolicy

/-- Each refusal with the amounts it is about. -/
inductive GlobalThreadPlanError where
  | balanceTooLow (total fee : UInt64)
  | withdrawalNotAboveFee (withdrawal fee : UInt64)
  | continuationTooSmall (continuation : UInt64)
  | arithmeticOverflow (operation : String)
  | selectedFundsTooLow (selectedTotal fee : UInt64)
  | invalidRedeemScript
  deriving DecidableEq

/-- Every selector of the thread's script: the top-level one from the policy, the computed ones
(whose value the script ignores) false. -/
def threadExecution (redeemScript : Bytes) (topLevel : Option Bool) :
    Except GlobalThreadPlanError CovenantExecution := do
  let branches ← (resolveCovenantBranches redeemScript).mapError
    fun _ => GlobalThreadPlanError.invalidRedeemScript
  return ⟨branches.selectorMask, if topLevel = some true then 1 else 0⟩

/-- An overflow names the operation. -/
def checkedUtxoTotal (utxos : List CovenantBuilder.UtxoEntry) (operation : String) :
    Except GlobalThreadPlanError UInt64 :=
  utxos.foldlM (fun total utxo =>
    okOr (.arithmeticOverflow operation) (checkedAdd total utxo.amount)) 0

/-! ## Withdrawals -/

structure GlobalThreadWithdrawalRequest where
  threadUtxos : List CovenantBuilder.UtxoEntry
  covenantScriptPublicKey : Bytes
  destinationScriptPublicKey : Bytes
  redeemScript : Bytes
  covenantId : FixedBytes 32
  withdrawal : UInt64
  fee : UInt64
  csvSequence : UInt64
  policy : GlobalThreadPolicy

/-- The document, with what the user is shown of it. -/
structure GlobalThreadWithdrawalPlan where
  plan : PskbPlan
  total : UInt64
  userReceives : UInt64
  continuation : UInt64
  isClose : Bool
  deriving DecidableEq

/-- Both the balance and the withdrawal must exceed the fee. -/
def validateWithdrawalBalances (total withdrawal fee : UInt64) :
    Except GlobalThreadPlanError Unit :=
  if total ≤ fee then .error (.balanceTooLow total fee)
  else if withdrawal ≤ fee then .error (.withdrawalNotAboveFee withdrawal fee)
  else .ok ()

/-- What stays in the thread. -/
def continuationAmount (total withdrawal : UInt64) (isClose : Bool) :
    Except GlobalThreadPlanError UInt64 :=
  if isClose then .ok 0
  else okOr (.arithmeticOverflow "subtracting withdrawal from thread balance")
    (checkedSub total withdrawal)

/-- What leaves it, after the fee. -/
def receiveAmount (total withdrawal fee : UInt64) (isClose : Bool) :
    Except GlobalThreadPlanError UInt64 :=
  okOr (.arithmeticOverflow "subtracting fee from withdrawal value")
    (checkedSub (if isClose then total else withdrawal) fee)

/-- A thread that goes on must hold enough to go on. -/
def validateContinuation (continuation : UInt64) (isClose : Bool) :
    Except GlobalThreadPlanError Unit :=
  if !isClose ∧ continuation < MIN_THREAD_CONTINUATION_SOMPI then
    .error (.continuationTooSmall continuation)
  else .ok ()

def withdrawalAmounts (total withdrawal fee : UInt64) :
    Except GlobalThreadPlanError (Bool × UInt64 × UInt64) := do
  validateWithdrawalBalances total withdrawal fee
  let isClose := decide (total ≤ withdrawal)
  let continuation ← continuationAmount total withdrawal isClose
  validateContinuation continuation isClose
  let userReceives ← receiveAmount total withdrawal fee isClose
  return (isClose, continuation, userReceives)

namespace GlobalThreadWithdrawalRequest

/-- All entries of the thread, under one policy. -/
def withdrawalInputs (request : GlobalThreadWithdrawalRequest) (execution : CovenantExecution) :
    List PskbInputPlan :=
  request.threadUtxos.map fun utxo =>
    .covenant utxo request.covenantScriptPublicKey request.redeemScript
      ⟨request.csvSequence, 1, 1, some 0, some execution⟩

def binding (request : GlobalThreadWithdrawalRequest) : CovenantBinding := ⟨0, request.covenantId⟩

/-- The continuation comes first, and is the only output bound to the covenant. -/
def withdrawalOutputs (request : GlobalThreadWithdrawalRequest) (isClose : Bool)
    (continuation userReceives : UInt64) : List PskbOutputPlan :=
  (if isClose then []
    else [(PskbOutputPlan.plain continuation request.covenantScriptPublicKey).withBindingField
      (some request.binding)]) ++
  [(PskbOutputPlan.plain userReceives request.destinationScriptPublicKey).withBindingField none]

def withdrawalPlan (request : GlobalThreadWithdrawalRequest) (inputs : List PskbInputPlan)
    (outputs : List PskbOutputPlan) : PskbPlan where
  globals := ⟨1, request.policy.withdrawalLockTime, none⟩
  inputs
  outputs

end GlobalThreadWithdrawalRequest

/-- Amounts, inputs and outputs; the amounts are checked before anything is built. -/
def planGlobalThreadWithdrawal (request : GlobalThreadWithdrawalRequest) :
    Except GlobalThreadPlanError GlobalThreadWithdrawalPlan := do
  let total ← checkedUtxoTotal request.threadUtxos "summing thread UTXOs"
  let (isClose, continuation, userReceives) ←
    withdrawalAmounts total request.withdrawal request.fee
  let execution ← threadExecution request.redeemScript request.policy.withdrawalSelector
  let inputs := request.withdrawalInputs execution
  let outputs := request.withdrawalOutputs isClose continuation userReceives
  return { plan := request.withdrawalPlan inputs outputs, total, userReceives, continuation, isClose }

/-! ## Top-ups -/

structure GlobalThreadTopupRequest where
  threadUtxo : CovenantBuilder.UtxoEntry
  walletUtxos : List CovenantBuilder.UtxoEntry
  covenantScriptPublicKey : Bytes
  redeemScript : Bytes
  covenantId : FixedBytes 32
  fee : UInt64
  policy : GlobalThreadPolicy

structure GlobalThreadTopupPlan where
  plan : PskbPlan
  walletTotal : UInt64
  continuation : UInt64
  deriving DecidableEq

/-- A wallet input keeps the DAA score of its UTXO. -/
def walletInput (utxo : CovenantBuilder.UtxoEntry) : PskbInputPlan :=
  { PskbInputPlan.p2pk utxo utxo.scriptPublicKey with blockDaaScore := utxo.blockDaaScore }

/-- The thread's input first, then those of the wallet. -/
def planGlobalThreadTopup (request : GlobalThreadTopupRequest) :
    Except GlobalThreadPlanError GlobalThreadTopupPlan := do
  let walletTotal ← checkedUtxoTotal request.walletUtxos "summing wallet top-up UTXOs"
  rejectIf (walletTotal ≤ request.fee)
    (GlobalThreadPlanError.selectedFundsTooLow walletTotal request.fee)
  let combined ← okOr (.arithmeticOverflow "adding thread and wallet balances")
    (checkedAdd request.threadUtxo.amount walletTotal)
  let continuation ← okOr (.arithmeticOverflow "subtracting fee from top-up continuation")
    (checkedSub combined request.fee)
  let execution ← threadExecution request.redeemScript request.policy.topupSelector
  let threadInput := PskbInputPlan.covenant request.threadUtxo request.covenantScriptPublicKey
    request.redeemScript ⟨request.policy.topupSequence, 1, 1, some 0, some execution⟩
  let output := (PskbOutputPlan.plain continuation request.covenantScriptPublicKey).withBindingField
    (some ⟨0, request.covenantId⟩)
  return {
    plan := {
      globals := ⟨1, some 0, none⟩
      inputs := threadInput :: request.walletUtxos.map walletInput
      outputs := [output] }
    walletTotal
    continuation }

/-! ## What the planners accept -/

/-- A total that did not overflow is the sum. -/
theorem checkedUtxoTotal_toNat {utxos : List CovenantBuilder.UtxoEntry} {operation : String}
    {total : UInt64} (h : checkedUtxoTotal utxos operation = .ok total) :
    total.toNat = CovenantBuilder.amounts utxos := by
  have hsum : total.toNat = 0 + CovenantBuilder.amounts utxos := by
    refine foldlM_weight ?_ h
    intro utxo _ total total' hstep
    exact checkedAdd_eq_some.mp (okOr_eq_ok.mp hstep)
  omega

variable {total withdrawal fee continuation userReceives : UInt64} {isClose : Bool}

/-- A withdrawal pays its fee out of what leaves the thread. -/
theorem withdrawalAmounts_spec
    (h : withdrawalAmounts total withdrawal fee = .ok (isClose, continuation, userReceives)) :
    total.toNat = continuation.toNat + userReceives.toNat + fee.toNat ∧
      ((isClose = true ∧ total ≤ withdrawal ∧ continuation = 0) ∨
        (isClose = false ∧ MIN_THREAD_CONTINUATION_SOMPI ≤ continuation ∧
          total.toNat = continuation.toNat + withdrawal.toNat)) := by
  obtain ⟨_, -, h⟩ := bind_eq_ok.mp h
  obtain ⟨left, hleft, h⟩ := bind_eq_ok.mp h
  obtain ⟨_, hvalid, h⟩ := bind_eq_ok.mp h
  obtain ⟨received, hreceived, h⟩ := bind_eq_ok.mp h
  cases h
  have hfee := checkedSub_eq_some.mp (okOr_eq_ok.mp hreceived)
  by_cases hclose : total ≤ withdrawal
  · simp only [hclose, decide_true, continuationAmount, if_true] at hleft hfee ⊢
    cases hleft
    refine ⟨?_, Or.inl ⟨trivial, trivial, rfl⟩⟩
    rw [UInt64.toNat_zero]
    omega
  · simp only [hclose, decide_false, continuationAmount, Bool.false_eq_true, if_false] at hleft hfee ⊢
    have hkept := checkedSub_eq_some.mp (okOr_eq_ok.mp hleft)
    have hmin : MIN_THREAD_CONTINUATION_SOMPI ≤ continuation := by
      unfold validateContinuation at hvalid
      split at hvalid
      · cases hvalid
      · rename_i hsmall
        simp only [hclose, decide_false, Bool.not_false, true_and] at hsmall
        exact UInt64.not_lt.mp hsmall
    exact ⟨by omega, Or.inr ⟨trivial, hmin, by omega⟩⟩

end KaspaPortal.Transaction.GlobalThread
