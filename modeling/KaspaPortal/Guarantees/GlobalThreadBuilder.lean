import KaspaPortal.Contract.Covenant.GlobalThread
import KaspaPortal.Contract.Readback
import KaspaPortal.Engine.Ledger
import KaspaPortal.Transaction.Builder.GlobalThread

/-!
# What a planned withdrawal or top-up does with the thread's balance

The planners are not given the cap of the thread: a withdrawal leaves what it does not take, and it
is the thread's script that refuses one above the cap. The script runs for each input and compares
the continuation with the amount of its own input only, so the cap bounds what leaves a thread of one
output; a withdrawal from several outputs of a thread is bounded for each of them.

The signing and the broadcast of a plan are not followed.
-/
namespace KaspaPortal.Guarantees
open Lib Primitives Transaction Contract.Script Contract.Covenant Engine GlobalThread

namespace GlobalThreadBuilder

def inputTotal (plan : PskbPlan) : Nat := (plan.inputs.map fun input => input.utxo.amount.toNat).sum

def outputTotal (plan : PskbPlan) : Nat := (plan.outputs.map fun output => output.amount.toNat).sum

variable {request : GlobalThreadWithdrawalRequest} {planned : GlobalThreadWithdrawalPlan}

/-- The whole balance goes to the destination. -/
structure Closed (request : GlobalThreadWithdrawalRequest) (planned : GlobalThreadWithdrawalPlan) :
    Prop where
  enough : CovenantBuilder.amounts request.threadUtxos ≤ request.withdrawal.toNat
  outputs : planned.plan.outputs =
    [⟨planned.userReceives, request.destinationScriptPublicKey, some none⟩]
  nothing : planned.continuation = 0

/-- One output goes back to the thread's script under its id, with at least the minimum and exactly
what the withdrawal leaves. -/
structure Continued (request : GlobalThreadWithdrawalRequest)
    (planned : GlobalThreadWithdrawalPlan) : Prop where
  outputs : planned.plan.outputs =
    [⟨planned.continuation, request.covenantScriptPublicKey, some (some ⟨0, request.covenantId⟩)⟩,
      ⟨planned.userReceives, request.destinationScriptPublicKey, some none⟩]
  minimum : MIN_THREAD_CONTINUATION_SOMPI ≤ planned.continuation
  remains : CovenantBuilder.amounts request.threadUtxos =
    planned.continuation.toNat + request.withdrawal.toNat

/-- An accepted withdrawal conserves value and either closes the thread or continues it. -/
structure Withdraws (request : GlobalThreadWithdrawalRequest) (planned : GlobalThreadWithdrawalPlan) :
    Prop where
  spends : inputTotal planned.plan = CovenantBuilder.amounts request.threadUtxos
  conserves : inputTotal planned.plan = outputTotal planned.plan + request.fee.toNat
  settles : Closed request planned ∨ Continued request planned

theorem withdrawal_spec (h : planGlobalThreadWithdrawal request = .ok planned) :
    Withdraws request planned := by
  obtain ⟨total, htotal, h⟩ := bind_eq_ok.mp h
  obtain ⟨⟨isClose, continuation, userReceives⟩, hamounts, h⟩ := bind_eq_ok.mp h
  obtain ⟨execution, -, h⟩ := bind_eq_ok.mp h
  cases h
  have hsum := checkedUtxoTotal_toNat htotal
  have hspent : inputTotal (request.withdrawalPlan (request.withdrawalInputs execution)
      (request.withdrawalOutputs isClose continuation userReceives)) =
      CovenantBuilder.amounts request.threadUtxos := by
    unfold inputTotal GlobalThreadWithdrawalRequest.withdrawalPlan
      GlobalThreadWithdrawalRequest.withdrawalInputs
    rw [List.map_map]
    rfl
  obtain ⟨hconserves, hcases⟩ := withdrawalAmounts_spec hamounts
  refine ⟨hspent, ?_, ?_⟩
  · rw [hspent, ← hsum, hconserves]
    rcases hcases with ⟨rfl, -, rfl⟩ | ⟨rfl, -, -⟩
    · simp [outputTotal, GlobalThreadWithdrawalRequest.withdrawalPlan,
        GlobalThreadWithdrawalRequest.withdrawalOutputs, PskbOutputPlan.plain,
        PskbOutputPlan.withBindingField]
    · simp [outputTotal, GlobalThreadWithdrawalRequest.withdrawalPlan,
        GlobalThreadWithdrawalRequest.withdrawalOutputs, PskbOutputPlan.plain,
        PskbOutputPlan.withBindingField]
  · rcases hcases with ⟨rfl, hle, rfl⟩ | ⟨rfl, hmin, hremains⟩
    · refine Or.inl ⟨?_, rfl, rfl⟩
      rw [← hsum]
      exact UInt64.le_iff_toNat_le.mp hle
    · exact Or.inr ⟨rfl, hmin, hsum.symm.trans hremains⟩

/-- What leaves the thread stays within a cap exactly when what was asked for does, or when the
balance that a close takes does. -/
theorem Withdraws.within_iff (h : Withdraws request planned) (cap : UInt64) :
    CovenantBuilder.amounts request.threadUtxos ≤ planned.continuation.toNat + cap.toNat ↔
      request.withdrawal ≤ cap ∨ CovenantBuilder.amounts request.threadUtxos ≤ cap.toNat := by
  rw [UInt64.le_iff_toNat_le]
  rcases h.settles with hclosed | hcontinued
  · have henough := hclosed.enough
    rw [hclosed.nothing, UInt64.toNat_zero]
    omega
  · have hremains := hcontinued.remains
    omega

/-- An accepted top-up conserves value and leaves the thread more than it held, in one output on its
script. -/
structure ToppedUp (request : GlobalThreadTopupRequest) (planned : GlobalThreadTopupPlan) : Prop where
  spends : inputTotal planned.plan =
    request.threadUtxo.amount.toNat + CovenantBuilder.amounts request.walletUtxos
  conserves : inputTotal planned.plan = outputTotal planned.plan + request.fee.toNat
  outputs : planned.plan.outputs =
    [⟨planned.continuation, request.covenantScriptPublicKey, some (some ⟨0, request.covenantId⟩)⟩]
  grows : request.threadUtxo.amount < planned.continuation

theorem topup_spec {request : GlobalThreadTopupRequest} {planned : GlobalThreadTopupPlan}
    (h : planGlobalThreadTopup request = .ok planned) : ToppedUp request planned := by
  obtain ⟨walletTotal, hwallet, h⟩ := bind_eq_ok.mp h
  obtain ⟨_, hfunds, h⟩ := bind_eq_ok.mp h
  obtain ⟨combined, hcombined, h⟩ := bind_eq_ok.mp h
  obtain ⟨continuation, hcontinuation, h⟩ := bind_eq_ok.mp h
  obtain ⟨execution, -, h⟩ := bind_eq_ok.mp h
  cases h
  have hsum := checkedUtxoTotal_toNat hwallet
  have hadded := checkedAdd_eq_some.mp (okOr_eq_ok.mp hcombined)
  have hleft := checkedSub_eq_some.mp (okOr_eq_ok.mp hcontinuation)
  have hpaid : ¬ walletTotal.toNat ≤ request.fee.toNat := fun hle =>
    rejectIf_eq_ok.mp hfunds (UInt64.le_iff_toNat_le.mpr hle)
  have hspent : request.threadUtxo.amount.toNat + ((request.walletUtxos.map walletInput).map
      fun input => input.utxo.amount.toNat).sum =
      request.threadUtxo.amount.toNat + CovenantBuilder.amounts request.walletUtxos := by
    rw [List.map_map]
    rfl
  have hgrows : request.threadUtxo.amount < continuation := UInt64.lt_iff_toNat_lt.mpr (by omega)
  refine ⟨hspent, ?_, rfl, hgrows⟩
  refine hspent.trans ?_
  simp only [outputTotal, PskbOutputPlan.plain, PskbOutputPlan.withBindingField, List.map_cons,
    List.map_nil, List.sum_cons, List.sum_nil]
  omega

/-- The thread input of a top-up waits as long as the policy says. -/
theorem topup_sequence {request : GlobalThreadTopupRequest} {planned : GlobalThreadTopupPlan}
    (h : planGlobalThreadTopup request = .ok planned) :
    planned.plan.inputs.head?.map (·.sequence) = some request.policy.topupSequence := by
  obtain ⟨walletTotal, -, h⟩ := bind_eq_ok.mp h
  obtain ⟨_, -, h⟩ := bind_eq_ok.mp h
  obtain ⟨combined, -, h⟩ := bind_eq_ok.mp h
  obtain ⟨continuation, -, h⟩ := bind_eq_ok.mp h
  obtain ⟨execution, -, h⟩ := bind_eq_ok.mp h
  cases h
  rfl

/-- A top-up of a spending limit passes the cooldown of its script under the policy made for it. Under the
policy for withdrawals it passes no cooldown but zero. -/
theorem spending_limit_topup_matures {request : GlobalThreadTopupRequest} {planned : GlobalThreadTopupPlan}
    {env : Env} {input : ConsensusInput} (cooldown : UInt64)
    (h : planGlobalThreadTopup request = .ok planned)
    (hinput : env.tx.tx.inputs[env.index]? = some input)
    (hsequence : planned.plan.inputs.head?.map (·.sequence) = some input.sequence) :
    (request.policy = .spendingLimitTopup cooldown → sequenceMet env cooldown.toNat) ∧
      (request.policy = .spendingLimit → (sequenceMet env cooldown.toNat ↔ cooldown = 0)) := by
  have hpolicy : input.sequence = request.policy.topupSequence :=
    Option.some.inj (hsequence.symm.trans (topup_sequence h))
  have hmet : sequenceMet env cooldown.toNat ↔ cooldown ≤ request.policy.topupSequence := by
    rw [UInt64.le_iff_toNat_le, ← hpolicy]
    constructor
    · intro hmet
      obtain ⟨input', hinput', hle⟩ := hmet
      obtain rfl := Option.some.inj (hinput.symm.trans hinput')
      exact hle
    · intro hle
      exact ⟨input, hinput, hle⟩
  constructor
  · intro htopup
    rw [hmet, htopup]
    exact UInt64.le_refl cooldown
  · intro hwithdrawal
    rw [hmet, hwithdrawal]
    exact UInt64.le_zero_iff

/-- A withdrawal from an allowance passes the start of its script under the policy made for it. -/
theorem allowance_withdrawal_matures {env : Env} (start : UInt64)
    (h : planGlobalThreadWithdrawal request = .ok planned) (hpolicy : request.policy = .allowance start)
    (hlock : env.tx.tx.locktime = planned.plan.globals.fallbackLockTime.getD 0) :
    lockTimeMet env start.toNat := by
  obtain ⟨_, -, h⟩ := bind_eq_ok.mp h
  obtain ⟨⟨isClose, continuation, userReceives⟩, -, h⟩ := bind_eq_ok.mp h
  obtain ⟨_, -, h⟩ := bind_eq_ok.mp h
  cases h
  have hlock : env.tx.tx.locktime = request.policy.withdrawalLockTime.getD 0 := hlock
  rw [lockTimeMet, hlock, hpolicy]
  change start.toNat ≤ ((if 0 < start then some start else none).getD 0).toNat
  split
  case isTrue => exact Nat.le_refl _
  case isFalse hzero =>
    rw [UInt64.not_lt] at hzero
    exact UInt64.le_iff_toNat_le.mp hzero

/-- The transaction of a planned withdrawal, whose inputs are the thread's outputs, and the input
`index` spent under the thread's script along the capped path. -/
structure Spends (c : Crypto) (terms : GlobalCovenant) (request : GlobalThreadWithdrawalRequest)
    (planned : GlobalThreadWithdrawalPlan) (t : PopulatedTransaction) (index : Nat) (w : Stack) :
    Prop where
  redeem : request.redeemScript = terms.script
  outputs : t.tx.outputs = planned.plan.outputs.map PskbOutputPlan.consensus
  entries : t.entries.map (fun entry => (entry.amount, entry.covenantId)) =
    request.threadUtxos.map fun utxo => (utxo.amount, some request.covenantId)
  passes : succeeds ⟨c, t, index⟩ request.redeemScript w = true
  capped : terms.capped w

/-- The script of an input refuses a withdrawal that takes more than the cap from that input. -/
theorem Withdraws.capped {c : Crypto} {terms : GlobalCovenant} {t : PopulatedTransaction}
    {index : Nat} {w : Stack} {utxo : CovenantBuilder.UtxoEntry} (h : Withdraws request planned)
    (hutxo : request.threadUtxos[index]? = some utxo)
    (hspends : Spends c terms request planned t index w) :
    utxo.amount.toNat ≤ planned.continuation.toNat + terms.maxWithdrawSompi.toNat := by
  obtain ⟨e, he, hentry⟩ : ∃ e, t.entries[index]? = some e ∧
      (e.amount, e.covenantId) = (utxo.amount, some request.covenantId) := by
    have hlisted := congrArg (·[index]?) hspends.entries
    simp only [List.getElem?_map, hutxo, Option.map_some] at hlisted
    exact Option.map_eq_some_iff.mp hlisted
  obtain ⟨hamount, hid⟩ := Prod.mk.inj hentry
  have hbytes : covenantIdBytes e = request.covenantId.val := by simp [covenantIdBytes, hid]
  have hpasses := hspends.passes
  rw [hspends.redeem] at hpasses
  rw [← hamount]
  rcases capped_enforced he hpasses hspends.capped with ⟨k, out, htag, hout, -, -, -, hle⟩ | ⟨-, hle⟩
  · rw [hbytes] at htag
    have htagged : k ∈ taggedOutputs t.tx request.covenantId.val := by simp [htag]
    obtain ⟨out', hout', hcovenant⟩ := mem_taggedOutputs.mp htagged
    obtain rfl := Option.some.inj (hout.symm.trans hout')
    have hmem := List.mem_of_getElem? hout
    rw [hspends.outputs] at hmem
    rcases h.settles with hclosed | hcontinued
    · rw [hclosed.outputs, List.map_singleton, List.mem_singleton] at hmem
      rw [hmem] at hcovenant
      cases hcovenant
    · rw [hcontinued.outputs, List.map_cons, List.map_singleton, List.mem_pair] at hmem
      rcases hmem with rfl | rfl
      · exact hle
      · cases hcovenant
  · have hcap := UInt64.le_iff_toNat_le.mp hle
    omega

end GlobalThreadBuilder
open GlobalThreadBuilder

/-- Accepted withdrawals and top-ups conserve value. A withdrawal leaves exactly what it does not
take, so it stays within the cap when the request does. Each input whose script lets the transaction
pass gives up no more than the cap, and so does a thread of one output. -/
theorem global_thread_conserves :
    (∀ request planned, planGlobalThreadWithdrawal request = .ok planned →
      Withdraws request planned ∧
      (∀ cap : UInt64,
        CovenantBuilder.amounts request.threadUtxos ≤ planned.continuation.toNat + cap.toNat ↔
          request.withdrawal ≤ cap ∨ CovenantBuilder.amounts request.threadUtxos ≤ cap.toNat) ∧
      ∀ c terms t index w utxo, request.threadUtxos[index]? = some utxo →
        Spends c terms request planned t index w →
        utxo.amount.toNat ≤ planned.continuation.toNat + terms.maxWithdrawSompi.toNat ∧
        (request.threadUtxos = [utxo] → CovenantBuilder.amounts request.threadUtxos ≤
          planned.continuation.toNat + terms.maxWithdrawSompi.toNat)) ∧
    ∀ request planned, planGlobalThreadTopup request = .ok planned → ToppedUp request planned := by
  refine ⟨fun request planned h => ?_, fun request planned h => topup_spec h⟩
  have hspec := withdrawal_spec h
  refine ⟨hspec, hspec.within_iff, fun c terms t index w utxo hutxo hspends => ?_⟩
  have hcapped := hspec.capped hutxo hspends
  refine ⟨hcapped, fun hsole => ?_⟩
  rw [hsole]
  exact hcapped

namespace GlobalThreadBuilder

def thread : CovenantBuilder.UtxoEntry := ⟨List.replicate 32 1, 0, 100000000, [], 0, some (filled 9 32)⟩

/-- Half of a thread of 1 KAS, under a spending limit with the given redeem script. -/
def half (redeemScript : Bytes) : GlobalThreadWithdrawalRequest where
  threadUtxos := [thread]
  covenantScriptPublicKey := p2shScript (filled 2 32)
  destinationScriptPublicKey := CovenantBuilder.p2pkScript (filled 3 32)
  redeemScript
  covenantId := filled 9 32
  withdrawal := 50000000
  fee := 10000
  csvSequence := 5
  policy := .spendingLimit

/-- A spending limit of 0.6 KAS. -/
def terms : GlobalCovenant := .spendingLimit (filled 1 32) 60000000 5 (filled 7 8)

/-- The transaction of the withdrawal, as consensus sees it. -/
def transaction : PopulatedTransaction where
  tx := {
    txVersion := 1
    inputs := [⟨filled 2 32, 0, [], 5, 1⟩]
    outputs := [⟨50000000, 0, p2shScript (filled 2 32), some (0, filled 9 32)⟩,
      ⟨49990000, 0, CovenantBuilder.p2pkScript (filled 3 32), none⟩]
    locktime := 0
    subnetworkId := filled 0 20
    gas := 0
    payload := [] }
  entries := [⟨100000000, 0, p2shScript (filled 2 32), some (filled 9 32)⟩]
  entries_length := rfl

/-- A spending limit of 1000 sompi. -/
def tightLimit : GlobalSpendingLimitFields := ⟨filled 1 32, 1000, 5, filled 7 8⟩

end GlobalThreadBuilder

theorem global_thread_conserves_sample :
    ∃ planned, planGlobalThreadWithdrawal (half terms.script) = .ok planned ∧
      Withdraws (half terms.script) planned ∧
      Spends sampleCrypto terms (half terms.script) planned transaction 0 [List.replicate 64 1] ∧
      CovenantBuilder.amounts (half terms.script).threadUtxos ≤
        planned.continuation.toNat + terms.maxWithdrawSompi.toNat := by
  have haccepted : (planGlobalThreadWithdrawal (half terms.script)).isOk = true := by decide
  obtain ⟨planned, hplanned⟩ := exists_ok haccepted
  obtain ⟨hspec, -, hcapped⟩ := global_thread_conserves.1 _ planned hplanned
  have houtputs : (planGlobalThreadWithdrawal (half terms.script)).toOption.map (·.plan.outputs) =
      some [⟨50000000, p2shScript (filled 2 32), some (some ⟨0, filled 9 32⟩)⟩,
        ⟨49990000, CovenantBuilder.p2pkScript (filled 3 32), some none⟩] := by decide
  rw [hplanned] at houtputs
  have hspends : Spends sampleCrypto terms (half terms.script) planned transaction 0
      [List.replicate 64 1] := by
    refine ⟨rfl, ?_, by decide, by decide, trivial⟩
    have hlisted : planned.plan.outputs = _ := Option.some.inj houtputs
    rw [hlisted]
    rfl
  exact ⟨planned, hplanned, hspec, hspends, (hcapped _ _ _ 0 _ thread rfl hspends).2 rfl⟩

/-- A withdrawal of 50000000 sompi is planned on a thread whose cap is 1000. -/
theorem global_thread_over_cap :
    globalSpendingLimitScriptFields (half (scriptOf tightLimit.items)).redeemScript =
        some tightLimit ∧
      ∃ planned, planGlobalThreadWithdrawal (half (scriptOf tightLimit.items)) = .ok planned ∧
        ¬ CovenantBuilder.amounts (half (scriptOf tightLimit.items)).threadUtxos ≤
          planned.continuation.toNat + tightLimit.maxWithdrawSompi.toNat := by
  refine ⟨(globalSpendingLimit_recognized_iff tightLimit).mpr (by decide), ?_⟩
  have haccepted : (planGlobalThreadWithdrawal (half (scriptOf tightLimit.items))).isOk = true := by
    decide
  obtain ⟨planned, hplanned⟩ := exists_ok haccepted
  refine ⟨planned, hplanned, fun hwithin => ?_⟩
  have hasked := ((withdrawal_spec hplanned).within_iff tightLimit.maxWithdrawSompi).mp hwithin
  exact absurd hasked (by decide)

end KaspaPortal.Guarantees
