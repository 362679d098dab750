import KaspaPortal.Contract.Covenant.GlobalThread

/-!
# The per-output allowance

`build_allowance_script` of `src/contract/covenant/script/allowance.rs`. Unlike
the global covenants it carries no id: the beneficiary path asks output 0 to go
back to the script being spent, short by at most the cap, beside exactly one
other output.

Which wallet spends the output and what its signature looks like is a parameter
of the machine; nothing is said of the fees a node asks for.
-/
namespace KaspaPortal.Contract.Covenant
open Lib Primitives Transaction Contract.Script Engine

def buildAllowanceScript (ownerPubkey beneficiaryPubkey : FixedBytes 32)
    (maxWithdrawSompi minSequence startDaa : UInt64) : Bytes :=
  [OP_IF] ++ pushPubkey ownerPubkey ++ [OP_CHECKSIG] ++
  [OP_ELSE] ++ pushPubkey beneficiaryPubkey ++ [OP_CHECKSIGVERIFY] ++
    (if 0 < startDaa then pushInt startDaa ++ [OP_CHECKLOCKTIMEVERIFY] else []) ++
    [OP_TX_INPUT_INDEX, OP_TX_INPUT_SPK] ++ pushInt 0 ++ [OP_TX_OUTPUT_SPK, OP_EQUALVERIFY] ++
    pushInt 0 ++ [OP_TX_OUTPUT_AMOUNT, OP_TX_INPUT_INDEX, OP_TX_INPUT_AMOUNT] ++
    pushInt maxWithdrawSompi ++ [OP_SUB, OP_GREATERTHANOREQUAL, OP_VERIFY] ++
    (if 0 < minSequence then pushInt minSequence ++ [OP_CHECKSEQUENCEVERIFY] else []) ++
    [OP_TX_OUTPUT_COUNT] ++ pushInt 2 ++ [OP_EQUAL] ++
  [OP_ENDIF]

section
variable (ownerPubkey beneficiaryPubkey : FixedBytes 32)
  (maxWithdrawSompi minSequence startDaa : UInt64)

/-- Output 0 returns to the spent script, short by at most the cap. -/
def returnsWithinCap : List (Stmt Instr) :=
  [op .txInputIndex, op .txInputSpk, num 0, op .txOutputSpk, op .equalVerify,
    num 0, op .txOutputAmount, op .txInputIndex, op .txInputAmount, num maxWithdrawSompi, op .sub,
    op .greaterThanOrEqual, op .verify]

def allowanceProgram : List (Stmt Instr) :=
  [.ifElse [data ownerPubkey.val, op .checkSig]
    ([data beneficiaryPubkey.val, op .checkSigVerify] ++ whenSet startDaa .checkLockTimeVerify ++
      returnsWithinCap maxWithdrawSompi ++ whenSet minSequence .checkSequenceVerify ++
      [op .txOutputCount, num 2, op .equal])]

theorem tokenize_allowanceScript :
    tokenize (buildAllowanceScript ownerPubkey beneficiaryPubkey maxWithdrawSompi minSequence
        startDaa) =
      some (flattenAll (allowanceProgram ownerPubkey beneficiaryPubkey maxWithdrawSompi minSequence
        startDaa)) := by
  unfold buildAllowanceScript
  simp only [allowanceProgram, whenSet, returnsWithinCap]
  split <;> split <;> simp

end

section accepts
variable {env : Env} {e : UtxoEntry} {s r : Stack}

/-- An optional lock passes when it is unset or met. -/
def LockPasses (value : UInt64) (met : Nat → Prop) : Prop :=
  value = 0 ∨ value.toNat < 2 ^ 63 ∧ met value.toNat

theorem evals_whenSet {value : UInt64} {check : Instr} {met : Nat → Prop} {p : List (Stmt Instr)}
    (h : ∀ p s, Evals env (.instr check :: p) (encodeNum value.toNat :: s) r ↔
      (value.toNat < 2 ^ 63 ∧ met value.toNat) ∧ Evals env p s r) :
    Evals env (whenSet value check ++ p) s r ↔ LockPasses value met ∧ Evals env p s r := by
  unfold whenSet LockPasses
  split
  · rename_i hpos
    have hne : value ≠ 0 := fun hc => by simp [hc] at hpos
    simp [hne, h]
  · rename_i hpos
    have hz : value = 0 := UInt64.le_zero_iff.mp (UInt64.not_lt.mp hpos)
    simp [hz]

theorem evals_returnsWithinCap {maxWithdrawSompi : UInt64} {p : List (Stmt Instr)}
    (he : env.tx.entries[env.index]? = some e) :
    Evals env (returnsWithinCap maxWithdrawSompi ++ p) s r ↔
      (env.index < 2 ^ 63 ∧ e.amount.toNat < 2 ^ 63 ∧ maxWithdrawSompi.toNat < 2 ^ 63) ∧
      (∃ out : ConsensusOutput, env.tx.tx.outputs[0]? = some out ∧ out.spk = e.spk ∧
        out.value.toNat < 2 ^ 63 ∧ e.amount.toNat ≤ out.value.toNat + maxWithdrawSompi.toNat) ∧
      Evals env p s r := by
  simp only [returnsWithinCap, List.cons_append, List.nil_append]
  simp [he]
  constructor
  · rintro ⟨hi, out, hout, hspk, out', hout', hv, -, ha, hm, -, -, -, hle, hp⟩
    obtain rfl : out = out' := Option.some.inj (hout.symm.trans hout')
    exact ⟨⟨hi, ha, hm⟩, ⟨out, hout, hspk.symm, hv, by omega⟩, hp⟩
  · rintro ⟨⟨hi, ha, hm⟩, ⟨out, hout, hspk, hv, hle⟩, hp⟩
    refine ⟨hi, out, hout, hspk.symm, out, hout, hv, hi, ha, hm, ?_, hv, ?_, ?_, hp⟩
    all_goals omega

theorem evals_twoOutputs {v : Bytes} (hv : asBool v = true) :
    Evals env [op .txOutputCount, num 2, op .equal] s [v] ↔
      env.tx.tx.outputs.length = 2 ∧ s = [] ∧ v = [1] := by
  simp only [evals_txOutputCount, evals_push, evals_equal, evals_nil]
  simp
  constructor
  · rintro ⟨-, rfl, rfl⟩
    simp only [asBool_boolBytes, decide_eq_true_eq] at hv
    exact ⟨by exact_mod_cast hv, rfl, by simp [hv, boolBytes]⟩
  · rintro ⟨hlen, rfl, rfl⟩
    simp [hlen, boolBytes]

/-- The conditions the beneficiary path puts on the input it unlocks. -/
structure BeneficiaryPath (env : Env) (e : UtxoEntry) (beneficiaryPubkey : FixedBytes 32)
    (maxWithdrawSompi minSequence startDaa : UInt64) (w : Stack) : Prop where
  signed : ∃ selector sig, w = [selector, sig] ∧ asBool selector = false ∧
    env.crypto.checkSig env.tx env.index sig beneficiaryPubkey.val = true
  start : LockPasses startDaa (lockTimeMet env)
  matured : LockPasses minSequence (sequenceMet env)
  fits : env.index < 2 ^ 63 ∧ e.amount.toNat < 2 ^ 63 ∧ maxWithdrawSompi.toNat < 2 ^ 63
  returns : ∃ o₀ o₁, env.tx.tx.outputs = [o₀, o₁] ∧ o₀.spk = e.spk ∧ o₀.value.toNat < 2 ^ 63 ∧
    e.amount.toNat ≤ o₀.value.toNat + maxWithdrawSompi.toNat

/-- Everything the allowance accepts under a false selector. -/
theorem allowance_accepts_iff {owner beneficiary : FixedBytes 32}
    {maxWithdraw minSequence start : UInt64} {selector : Bytes}
    (he : env.tx.entries[env.index]? = some e) (hsel : asBool selector = false) :
    succeeds env (buildAllowanceScript owner beneficiary maxWithdraw minSequence start)
        (selector :: s) = true ↔
      BeneficiaryPath env e beneficiary maxWithdraw minSequence start (selector :: s) := by
  rw [succeeds_iff (tokenize_allowanceScript owner beneficiary maxWithdraw minSequence start)]
  simp only [allowanceProgram, List.append_assoc]
  simp [hsel]
  have hlock : ∀ r p s, Evals env (.instr .checkLockTimeVerify :: p) (encodeNum start.toNat :: s) r ↔
      (start.toNat < 2 ^ 63 ∧ lockTimeMet env start.toNat) ∧ Evals env p s r := by
    simp [and_assoc]
  have hseq : ∀ r p s,
      Evals env (.instr .checkSequenceVerify :: p) (encodeNum minSequence.toNat :: s) r ↔
      (minSequence.toNat < 2 ^ 63 ∧ sequenceMet env minSequence.toNat) ∧ Evals env p s r := by
    simp [and_assoc]
  simp only [evals_whenSet (hlock _), evals_returnsWithinCap he, evals_whenSet (hseq _)]
  constructor
  · rintro ⟨v, ⟨sig, s', rfl, hsig, hstart, hfit, ⟨o₀, h₀, hspk, hv, hle⟩, hmat, htwo⟩, htrue⟩
    obtain ⟨hlen, rfl, -⟩ := (evals_twoOutputs htrue).mp htwo
    obtain ⟨a, b, hab⟩ := List.length_eq_two.mp hlen
    obtain rfl : a = o₀ := by simpa [hab] using h₀
    exact ⟨⟨selector, sig, rfl, hsel, hsig⟩, hstart, hmat, hfit, a, b, hab, hspk, hv, hle⟩
  · rintro ⟨⟨selector', sig, hw, -, hsig⟩, hstart, hmat, hfit, o₀, o₁, hout, hspk, hv, hle⟩
    obtain ⟨rfl, rfl⟩ := List.cons.inj hw
    refine ⟨[1], ⟨sig, [], rfl, hsig, hstart, hfit, ⟨o₀, by simp [hout], hspk, hv, hle⟩, hmat, ?_⟩,
      rfl⟩
    exact (evals_twoOutputs rfl).mpr ⟨by simp [hout], rfl, rfl⟩

end accepts
end KaspaPortal.Contract.Covenant
