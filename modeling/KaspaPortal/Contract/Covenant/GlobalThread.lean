import KaspaPortal.Engine.Rules

/-!
# Covenant-id threads

`src/contract/covenant/script/global_thread.rs` and the two global covenants
built on it, `build_global_spending_limit_script` of `spending_limit.rs` and
`build_global_allowance_script` of `allowance.rs`. `enforced_iff` says once
what the shared fragment checks; both covenants are then read through it.

What is said of one spend is said here; how the tagged output moves from spend
to spend is the subject of the ledger and of its runs.
-/
namespace KaspaPortal.Contract.Covenant
open Lib Primitives Transaction Contract.Script Engine

/-- One tagged output continues the thread; none closes it. Any other count fails. -/
def appendGlobalThreadEnforcement (maxWithdrawSompi : UInt64) : Bytes :=
  [OP_TX_INPUT_INDEX, OP_INPUT_COVENANT_ID, OP_DUP, OP_COV_OUTPUT_COUNT, OP_DUP] ++ pushInt 1 ++
    [OP_EQUAL] ++
  [OP_IF, OP_DROP] ++ pushInt 0 ++
    [OP_COV_OUTPUT_IDX, OP_DUP, OP_TX_OUTPUT_SPK, OP_TX_INPUT_INDEX, OP_TX_INPUT_SPK,
      OP_EQUALVERIFY, OP_TX_OUTPUT_AMOUNT, OP_TX_INPUT_INDEX, OP_TX_INPUT_AMOUNT] ++
    pushInt maxWithdrawSompi ++ [OP_SUB, OP_GREATERTHANOREQUAL, OP_VERIFY] ++
  [OP_ELSE] ++ pushInt 0 ++
    [OP_EQUALVERIFY, OP_DROP, OP_TX_INPUT_INDEX, OP_TX_INPUT_AMOUNT] ++
    pushInt maxWithdrawSompi ++ [OP_LESSTHANOREQUAL, OP_VERIFY] ++
  [OP_ENDIF, OP_1]

/-- The owner alone, after the cooldown and within the cap. -/
def buildGlobalSpendingLimitScript (ownerPubkey : FixedBytes 32)
    (maxWithdrawSompi cooldownDaa : UInt64) (salt : FixedBytes 8) : Bytes :=
  [0x08] ++ salt.val ++ [OP_DROP] ++
  pushPubkey ownerPubkey ++ [OP_CHECKSIGVERIFY] ++
  pushInt cooldownDaa ++ [OP_CHECKSEQUENCEVERIFY] ++
  appendGlobalThreadEnforcement maxWithdrawSompi

/-- The owner freely, or the beneficiary after the optional locks and within the cap. -/
def buildGlobalAllowanceScript (ownerPubkey beneficiaryPubkey : FixedBytes 32)
    (maxWithdrawSompi cooldownDaa startDaa : UInt64) (salt : FixedBytes 8) : Bytes :=
  [0x08] ++ salt.val ++ [OP_DROP] ++
  [OP_IF] ++ pushPubkey ownerPubkey ++ [OP_CHECKSIG] ++
  [OP_ELSE] ++ pushPubkey beneficiaryPubkey ++ [OP_CHECKSIGVERIFY] ++
    (if 0 < startDaa then pushInt startDaa ++ [OP_CHECKLOCKTIMEVERIFY] else []) ++
    (if 0 < cooldownDaa then pushInt cooldownDaa ++ [OP_CHECKSEQUENCEVERIFY] else []) ++
    appendGlobalThreadEnforcement maxWithdrawSompi ++
  [OP_ENDIF]

/-! ## Nested form -/

section programs
variable (ownerPubkey beneficiaryPubkey : FixedBytes 32)
  (maxWithdrawSompi cooldownDaa startDaa : UInt64) (salt : FixedBytes 8)

/-- The shared fragment, as a structured program. -/
def globalThreadProgram : List (Stmt Instr) :=
  [op .txInputIndex, op .inputCovenantId, op .dup, op .covOutputCount, op .dup, num 1, op .equal,
    .ifElse
      [op .drop, num 0, op .covOutputIdx, op .dup, op .txOutputSpk, op .txInputIndex,
        op .txInputSpk, op .equalVerify, op .txOutputAmount, op .txInputIndex, op .txInputAmount,
        num maxWithdrawSompi, op .sub, op .greaterThanOrEqual, op .verify]
      [num 0, op .equalVerify, op .drop, op .txInputIndex, op .txInputAmount,
        num maxWithdrawSompi, op .lessThanOrEqual, op .verify],
    data [1]]

def globalSpendingLimitProgram : List (Stmt Instr) :=
  [data salt.val, op .drop, data ownerPubkey.val, op .checkSigVerify, num cooldownDaa,
    op .checkSequenceVerify] ++ globalThreadProgram maxWithdrawSompi

/-- A clause that is left out for a zero. -/
def whenSet (value : UInt64) (check : Instr) : List (Stmt Instr) :=
  if 0 < value then [num value, op check] else []

def globalAllowanceProgram : List (Stmt Instr) :=
  [data salt.val, op .drop,
    .ifElse [data ownerPubkey.val, op .checkSig]
      ([data beneficiaryPubkey.val, op .checkSigVerify] ++
        whenSet startDaa .checkLockTimeVerify ++ whenSet cooldownDaa .checkSequenceVerify ++
        globalThreadProgram maxWithdrawSompi)]

/-- The fragment's bytes are its program, before whatever follows. -/
theorem tokenize_globalThread (rest : Bytes) :
    tokenize (appendGlobalThreadEnforcement maxWithdrawSompi ++ rest) =
      (tokenize rest).map (flattenAll (globalThreadProgram maxWithdrawSompi) ++ ·) := by
  unfold appendGlobalThreadEnforcement
  simp [globalThreadProgram, Function.comp_def]

theorem tokenize_globalSpendingLimitScript :
    tokenize (buildGlobalSpendingLimitScript ownerPubkey maxWithdrawSompi cooldownDaa salt) =
      some (flattenAll (globalSpendingLimitProgram ownerPubkey maxWithdrawSompi cooldownDaa salt)) := by
  have h := tokenize_globalThread maxWithdrawSompi []
  unfold buildGlobalSpendingLimitScript
  simp [globalSpendingLimitProgram, List.append_nil] at h ⊢
  simp [h]

theorem tokenize_globalAllowanceScript :
    tokenize (buildGlobalAllowanceScript ownerPubkey beneficiaryPubkey maxWithdrawSompi cooldownDaa
        startDaa salt) =
      some (flattenAll (globalAllowanceProgram ownerPubkey beneficiaryPubkey maxWithdrawSompi
        cooldownDaa startDaa salt)) := by
  unfold buildGlobalAllowanceScript
  simp only [globalAllowanceProgram, whenSet]
  split <;> split <;> simp [tokenize_globalThread]

end programs

/-! ## What the fragment checks -/

/-- Exactly one tagged output, on the same script and short of the spent amount
by at most the cap. -/
def Continues (tx : ConsensusTransaction) (e : UtxoEntry) (maxWithdrawSompi : UInt64) : Prop :=
  ∃ k out, taggedOutputs tx (covenantIdBytes e) = [k] ∧ tx.outputs[k]? = some out ∧ k < 2 ^ 63 ∧
    out.spk = e.spk ∧ out.value.toNat < 2 ^ 63 ∧
    e.amount.toNat ≤ out.value.toNat + maxWithdrawSompi.toNat

/-- No tagged output, and no more than the cap spent. -/
def Closes (tx : ConsensusTransaction) (e : UtxoEntry) (maxWithdrawSompi : UInt64) : Prop :=
  taggedOutputs tx (covenantIdBytes e) = [] ∧ e.amount ≤ maxWithdrawSompi

/-- What the fragment asks, and that it leaves a true item on what it found. -/
theorem evals_globalThread {env : Env} {e : UtxoEntry} {maxWithdrawSompi : UInt64} {s r : Stack}
    (he : env.tx.entries[env.index]? = some e) :
    Evals env (globalThreadProgram maxWithdrawSompi) s r ↔
      (env.index < 2 ^ 63 ∧ e.amount.toNat < 2 ^ 63 ∧ maxWithdrawSompi.toNat < 2 ^ 63) ∧
      (Continues env.tx.tx e maxWithdrawSompi ∨ Closes env.tx.tx e maxWithdrawSompi) ∧
      [1] :: s = r := by
  simp only [globalThreadProgram]
  simp [he, evals_outputPaysOwn he, evals_outputKeeps he, -evals_txOutputSpk, -evals_txOutputAmount]
  constructor
  · rintro ⟨hi, -, m, h, rfl⟩
    rcases h with ⟨hone, rfl, h⟩ | ⟨-, ⟨hnone, rfl⟩, -, ha, hm, hle⟩
    · obtain ⟨k, hk, hk63, -, ⟨out, hout, hspk⟩, ⟨-, -, ha, hm⟩, out', hout', hv, hle⟩ := h
      obtain rfl : out = out' := Option.some.inj (hout.symm.trans hout')
      obtain ⟨k', hk'⟩ := List.length_eq_one_iff.mp hone
      obtain rfl : k' = k := by simpa [hk'] using hk
      exact ⟨⟨hi, ha, hm⟩, Or.inl ⟨k', out, hk', hout, hk63, hspk, hv, hle⟩, rfl⟩
    · exact ⟨⟨hi, ha, hm⟩, Or.inr ⟨hnone, UInt64.le_iff_toNat_le.mpr hle⟩, rfl⟩
  · rintro ⟨⟨hi, ha, hm⟩, h, rfl⟩
    rcases h with ⟨k, out, htag, hout, hk63, hspk, hv, hle⟩ | ⟨htag, hle⟩
    · exact ⟨hi, by simp [htag], s, Or.inl ⟨by simp [htag], rfl, k, by simp [htag], hk63, ⟨hk63, hi⟩,
        ⟨out, hout, hspk⟩, ⟨hk63, hi, ha, hm⟩, out, hout, hv, hle⟩, rfl⟩
    · exact ⟨hi, by simp [htag], s,
        Or.inr ⟨by simp [htag], ⟨htag, rfl⟩, hi, ha, hm, UInt64.le_iff_toNat_le.mp hle⟩, rfl⟩

/-! ## The two covenants -/

/-- The two covenants of a thread, with their terms. -/
inductive GlobalCovenant where
  | spendingLimit (ownerPubkey : FixedBytes 32) (maxWithdrawSompi cooldownDaa : UInt64)
      (salt : FixedBytes 8)
  | allowance (ownerPubkey beneficiaryPubkey : FixedBytes 32)
      (maxWithdrawSompi cooldownDaa startDaa : UInt64) (salt : FixedBytes 8)

namespace GlobalCovenant

/-- The script of each by its builder. -/
def script : GlobalCovenant → Bytes
  | .spendingLimit owner max cooldown salt => buildGlobalSpendingLimitScript owner max cooldown salt
  | .allowance owner beneficiary max cooldown start salt =>
    buildGlobalAllowanceScript owner beneficiary max cooldown start salt

def maxWithdrawSompi : GlobalCovenant → UInt64
  | .spendingLimit _ max _ _ => max
  | .allowance _ _ max _ _ _ => max

/-- The witness takes the capped path: the only one of the spending limit, the
beneficiary's (selector false) of the allowance. -/
def capped : GlobalCovenant → Stack → Prop
  | .spendingLimit _ _ _ _, _ => True
  | .allowance _ _ _ _ _ _, w => ∃ selector rest, w = selector :: rest ∧ asBool selector = false

end GlobalCovenant

section accepts
variable {env : Env} {e : UtxoEntry} {w : Stack}

/-- Everything the spending limit accepts. -/
theorem spendingLimit_accepts_iff {owner : FixedBytes 32} {max cooldown : UInt64}
    {salt : FixedBytes 8} (he : env.tx.entries[env.index]? = some e) :
    succeeds env (buildGlobalSpendingLimitScript owner max cooldown salt) w = true ↔
      (∃ sig, w = [sig] ∧ env.crypto.checkSig env.tx env.index sig owner.val = true) ∧
      (cooldown.toNat < 2 ^ 63 ∧ sequenceMet env cooldown.toNat) ∧
      (env.index < 2 ^ 63 ∧ e.amount.toNat < 2 ^ 63 ∧ max.toNat < 2 ^ 63) ∧
      (Continues env.tx.tx e max ∨ Closes env.tx.tx e max) := by
  rw [succeeds_iff (tokenize_globalSpendingLimitScript owner max cooldown salt)]
  simp [globalSpendingLimitProgram, evals_globalThread he]
  constructor
  · rintro ⟨⟨sig, rfl, hsig, hc, hmet, hfit, h⟩, -⟩
    exact ⟨⟨sig, rfl, hsig⟩, ⟨hc, hmet⟩, hfit, h⟩
  · rintro ⟨⟨sig, rfl, hsig⟩, ⟨hc, hmet⟩, hfit, h⟩
    exact ⟨⟨sig, rfl, hsig, hc, hmet, hfit, h⟩, rfl⟩

/-- On the capped path the thread fragment has its say. -/
theorem capped_enforced {terms : GlobalCovenant} (he : env.tx.entries[env.index]? = some e)
    (h : succeeds env terms.script w = true) (hc : terms.capped w) :
    Continues env.tx.tx e terms.maxWithdrawSompi ∨ Closes env.tx.tx e terms.maxWithdrawSompi := by
  cases terms with
  | spendingLimit owner max cooldown salt =>
    exact ((spendingLimit_accepts_iff he).mp h).2.2.2
  | allowance owner beneficiary max cooldown start salt =>
    obtain ⟨selector, rest, rfl, hsel⟩ := hc
    have h' := (succeeds_iff (tokenize_globalAllowanceScript ..) _).mp h
    simp only [globalAllowanceProgram] at h'
    simp [hsel] at h'
    obtain ⟨v, ⟨sig, s, -, -, hev⟩, -⟩ := h'
    rw [evals_append] at hev
    obtain ⟨s₁, -, hev⟩ := hev
    rw [evals_append] at hev
    obtain ⟨s₂, -, hev⟩ := hev
    exact ((evals_globalThread he).mp hev).2.1

end accepts
end KaspaPortal.Contract.Covenant
