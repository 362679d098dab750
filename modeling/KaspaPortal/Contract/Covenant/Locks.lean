import KaspaPortal.Engine.Rules

/-!
# Time- and goal-locked covenants

`src/contract/covenant/script/savings.rs`, `dms.rs` and `private_swap.rs` beside
it, and `src/contract/commit_reveal/script.rs`. As in the other builders, the
bytes come first, then the nested program they flatten to. The optional clauses
of the piggy bank change its shape, so its program is a function of the goal and
the deadline just as the builder is.
-/
namespace KaspaPortal.Contract.Covenant
open Lib Primitives Transaction Contract.Script Engine

/-- Broken by the owner once the goal or the deadline is reached; anybody may deposit. -/
def buildPiggyBankScript (ownerPubkey : FixedBytes 32) (thresholdSompi deadlineDaa : UInt64)
    (salt : FixedBytes 8) : Bytes :=
  [0x08] ++ salt.val ++ [OP_DROP] ++
  [OP_IF] ++ pushPubkey ownerPubkey ++
    (if thresholdSompi > 0 ∨ deadlineDaa > 0 then
      [OP_CHECKSIGVERIFY, OP_IF] ++
        (if thresholdSompi > 0 then
          [OP_0, OP_TX_OUTPUT_AMOUNT] ++ pushInt thresholdSompi ++ [OP_GREATERTHANOREQUAL]
        else [OP_0]) ++
      [OP_ELSE] ++
        (if deadlineDaa > 0 then pushInt deadlineDaa ++ [OP_CHECKLOCKTIMEVERIFY, OP_1]
        else [OP_0]) ++
      [OP_ENDIF]
    else [OP_CHECKSIG]) ++
  -- Deposit path
  [OP_ELSE, OP_TX_INPUT_INDEX, OP_TX_INPUT_SPK, OP_TX_INPUT_INDEX, OP_TX_OUTPUT_SPK,
    OP_EQUALVERIFY, OP_TX_INPUT_INDEX, OP_TX_OUTPUT_AMOUNT, OP_TX_INPUT_INDEX,
    OP_TX_INPUT_AMOUNT, OP_GREATERTHANOREQUAL, OP_ENDIF]

/-- Either of two keys, each after the lock. -/
def buildTimelockedSavingsScript (wallet1Pubkey wallet2Pubkey : FixedBytes 32)
    (locktimeDaa : UInt64) : Bytes :=
  [OP_IF] ++ pushPubkey wallet1Pubkey ++ [OP_CHECKSIGVERIFY] ++ pushInt locktimeDaa ++
    [OP_CHECKLOCKTIMEVERIFY, OP_1] ++
  [OP_ELSE] ++ pushPubkey wallet2Pubkey ++ [OP_CHECKSIGVERIFY] ++ pushInt locktimeDaa ++
    [OP_CHECKLOCKTIMEVERIFY, OP_1] ++
  [OP_ENDIF]

/-- The owner at any time, the heir after the coin has rested. -/
def buildDmsCsvScript (ownerPubkey heirPubkey : FixedBytes 32) (inactivityDaa : UInt64) : Bytes :=
  [OP_IF] ++ pushPubkey ownerPubkey ++ [OP_CHECKSIG] ++
  [OP_ELSE] ++ pushInt inactivityDaa ++ [OP_CHECKSEQUENCEVERIFY] ++ pushPubkey heirPubkey ++
    [OP_CHECKSIG] ++
  [OP_ENDIF]

/-- The owner signs either branch: after the lock, or with the two parts of the committed preimage. -/
def buildCommitRevealScript (ownerPubkey committedHash : FixedBytes 32) (locktimeDaa : UInt64) :
    Bytes :=
  [OP_IF] ++ pushPubkey ownerPubkey ++ [OP_CHECKSIGVERIFY] ++ pushInt locktimeDaa ++
    [OP_CHECKLOCKTIMEVERIFY, OP_1] ++
  -- The second part is on top, so `CAT` joins them in order
  [OP_ELSE] ++ pushPubkey ownerPubkey ++ [OP_CHECKSIGVERIFY, OP_CAT, OP_BLAKE2B] ++
    pushData committedHash.val ++ [OP_EQUALVERIFY, OP_1] ++
  [OP_ENDIF]

/-- Five coins. -/
def PRIVATE_SWAP_MAX_FEE_SOMPI : UInt64 := 500000000

/-- A claim may keep back no more than the fee. -/
def appendClaimFeeBound : Bytes :=
  pushInt 0 ++ [OP_TX_INPUT_AMOUNT, OP_DUP] ++
  pushInt 0 ++ [OP_TX_OUTPUT_AMOUNT, OP_GREATERTHANOREQUAL, OP_VERIFY] ++
  pushInt 0 ++ [OP_TX_OUTPUT_AMOUNT, OP_SUB] ++
  pushInt PRIVATE_SWAP_MAX_FEE_SOMPI ++ [OP_LESSTHANOREQUAL, OP_VERIFY]

/-- Destinations are compared with their version in front. -/
def versionedDestination (script : Bytes) : Bytes := [0x00, 0x00] ++ script

/-- A claim to the fixed output, or a refund after the lock. -/
def buildPrivateSwapScript (ownerPubkey claimerPubkey : FixedBytes 32) (claimerOutputSpk : Bytes)
    (refundLocktimeDaa : UInt64) (salt : FixedBytes 16) : Except String Bytes :=
  if refundLocktimeDaa = 0 then .error "Private Swap refund timeout must be nonzero"
  else if salt.val.all (· == 0) then .error "Private Swap salt must be nonzero"
  else if claimerOutputSpk.length < 3 ∨ claimerOutputSpk.length > 73 then
    .error "Private Swap destination script length is unsupported"
  else if ownerPubkey = claimerPubkey then
    .error "Private Swap owner and claimer keys must differ"
  else .ok <|
    pushData salt.val ++ [OP_DROP] ++
    [OP_IF] ++ pushPubkey claimerPubkey ++ [OP_CHECKSIGVERIFY] ++
      [OP_TX_INPUT_COUNT] ++ pushInt 1 ++ [OP_NUMEQUALVERIFY] ++
      [OP_TX_OUTPUT_COUNT] ++ pushInt 1 ++ [OP_NUMEQUALVERIFY] ++
      pushInt 0 ++ [OP_TX_OUTPUT_SPK] ++ pushData (versionedDestination claimerOutputSpk) ++
      [OP_EQUALVERIFY] ++ appendClaimFeeBound ++ [OP_1] ++
    -- The funding owner recovers after the timeout
    [OP_ELSE] ++ pushPubkey ownerPubkey ++ [OP_CHECKSIGVERIFY] ++ pushInt refundLocktimeDaa ++
      [OP_CHECKLOCKTIMEVERIFY, OP_1] ++
    [OP_ENDIF]

/-! ## Nested form -/

section programs
variable (owner other committedHash : FixedBytes 32) (threshold deadline locktime : UInt64)
  (salt : FixedBytes 8) (swapSalt : FixedBytes 16) (destination : Bytes)

/-- Signed by a key, once the lock time is reached. -/
def signedAfter (key : FixedBytes 32) (lock : UInt64) : List (Stmt Instr) :=
  [data key.val, op .checkSigVerify, num lock, op .checkLockTimeVerify, data [1]]

/-- The amount branch of the piggy bank; without a goal it leaves false. -/
def goalProgram : List (Stmt Instr) :=
  if threshold > 0 then [num 0, op .txOutputAmount, num threshold, op .greaterThanOrEqual]
  else [data []]

/-- The time branch of the piggy bank; without a deadline it leaves false. -/
def deadlineProgram : List (Stmt Instr) :=
  if deadline > 0 then [num deadline, op .checkLockTimeVerify, data [1]] else [data []]

/-- The owner's branch, with the conditions that are set. -/
def breakProgram : List (Stmt Instr) :=
  if threshold > 0 ∨ deadline > 0 then
    [data owner.val, op .checkSigVerify, .ifElse (goalProgram threshold) (deadlineProgram deadline)]
  else [data owner.val, op .checkSig]

/-- The deposit branch: the same script, and no smaller amount. -/
def depositProgram : List (Stmt Instr) :=
  [op .txInputIndex, op .txInputSpk, op .txInputIndex, op .txOutputSpk, op .equalVerify,
    op .txInputIndex, op .txOutputAmount, op .txInputIndex, op .txInputAmount,
    op .greaterThanOrEqual]

/-- Each script below, as a structured program. -/
def piggyBankProgram : List (Stmt Instr) :=
  [data salt.val, op .drop, .ifElse (breakProgram owner threshold deadline) depositProgram]

def timelockedSavingsProgram : List (Stmt Instr) :=
  [.ifElse (signedAfter owner locktime) (signedAfter other locktime)]

def dmsProgram : List (Stmt Instr) :=
  [.ifElse [data owner.val, op .checkSig]
    [num locktime, op .checkSequenceVerify, data other.val, op .checkSig]]

def revealProgram : List (Stmt Instr) :=
  [data owner.val, op .checkSigVerify, op .cat, op .blake2b, data committedHash.val,
    op .equalVerify, data [1]]

def commitRevealProgram : List (Stmt Instr) :=
  [.ifElse (signedAfter owner locktime) (revealProgram owner committedHash)]

def claimFeeProgram : List (Stmt Instr) :=
  [num 0, op .txInputAmount, op .dup, num 0, op .txOutputAmount, op .greaterThanOrEqual, op .verify,
    num 0, op .txOutputAmount, op .sub, num PRIVATE_SWAP_MAX_FEE_SOMPI, op .lessThanOrEqual,
    op .verify]

def claimProgram : List (Stmt Instr) :=
  [data other.val, op .checkSigVerify, op .txInputCount, num 1, op .numEqualVerify,
    op .txOutputCount, num 1, op .numEqualVerify, num 0, op .txOutputSpk,
    data (versionedDestination destination), op .equalVerify] ++ claimFeeProgram ++ [data [1]]

def privateSwapProgram : List (Stmt Instr) :=
  [data swapSalt.val, op .drop, .ifElse (claimProgram other destination) (signedAfter owner locktime)]

/-- The bytes of the builder are the program. This is what the proofs below start from. -/
theorem tokenize_piggyBankScript :
    tokenize (buildPiggyBankScript owner threshold deadline salt) =
      some (flattenAll (piggyBankProgram owner threshold deadline salt)) := by
  have hz : encodeNum 0 = [] := rfl
  unfold buildPiggyBankScript
  by_cases ht : threshold > 0 <;> by_cases hd : deadline > 0 <;>
    simp [piggyBankProgram, breakProgram, goalProgram, deadlineProgram, depositProgram, ht, hd, hz]

theorem tokenize_timelockedSavingsScript :
    tokenize (buildTimelockedSavingsScript owner other locktime) =
      some (flattenAll (timelockedSavingsProgram owner other locktime)) := by
  unfold buildTimelockedSavingsScript
  simp [timelockedSavingsProgram, signedAfter]

theorem tokenize_dmsCsvScript :
    tokenize (buildDmsCsvScript owner other locktime) =
      some (flattenAll (dmsProgram owner other locktime)) := by
  unfold buildDmsCsvScript
  simp [dmsProgram]

theorem tokenize_commitRevealScript :
    tokenize (buildCommitRevealScript owner committedHash locktime) =
      some (flattenAll (commitRevealProgram owner committedHash locktime)) := by
  unfold buildCommitRevealScript
  simp [commitRevealProgram, signedAfter, revealProgram]

variable {owner other locktime swapSalt destination}

theorem tokenize_privateSwapScript {script : Bytes}
    (h : buildPrivateSwapScript owner other destination locktime swapSalt = .ok script) :
    tokenize script =
      some (flattenAll (privateSwapProgram owner other locktime swapSalt destination)) := by
  unfold buildPrivateSwapScript at h
  split at h
  · cases h
  split at h
  · cases h
  split at h
  · cases h
  rename_i hlen
  split at h
  · cases h
  obtain rfl := Except.ok.inj h
  have hdest : Pushable (versionedDestination destination) := by
    simp only [Pushable, versionedDestination, List.length_append]
    simp
    omega
  simp [privateSwapProgram, claimProgram, claimFeeProgram, appendClaimFeeBound, signedAfter, hdest]

end programs

/-! ## What the fragments accept -/

/-- A fragment that runs to the end of the script and leaves one true item. -/
def Accepts (env : Env) (p : List (Stmt Instr)) (s : Stack) : Prop :=
  ∃ v, Evals env p s [v] ∧ asBool v = true

section accepts
variable {env : Env} {p q : List (Stmt Instr)} {s : Stack} {owner other committedHash : FixedBytes 32}
  {threshold deadline lock : UInt64} {destination : Bytes}

/-- A branching script accepts by one of its branches, chosen by the last item of the witness. -/
theorem accepts_ifElse : Accepts env [.ifElse p q] s ↔
    ∃ x s', s = x :: s' ∧
      (asBool x = true ∧ Accepts env p s' ∨ asBool x = false ∧ Accepts env q s') := by
  unfold Accepts
  constructor
  · intro h
    obtain ⟨v, h, hv⟩ := h
    simp only [evals_ifElse, evals_nil] at h
    obtain ⟨x, s', hs, m, hm, rfl⟩ := h
    refine ⟨x, s', hs, ?_⟩
    cases hm with
    | inl hm => exact Or.inl ⟨hm.1, v, hm.2, hv⟩
    | inr hm => exact Or.inr ⟨hm.1, v, hm.2, hv⟩
  · intro h
    obtain ⟨x, s', hs, h⟩ := h
    simp only [evals_ifElse, evals_nil]
    cases h with
    | inl h =>
      obtain ⟨hx, v, hp, hv⟩ := h
      exact ⟨v, ⟨x, s', hs, [v], Or.inl ⟨hx, hp⟩, rfl⟩, hv⟩
    | inr h =>
      obtain ⟨hx, v, hq, hv⟩ := h
      exact ⟨v, ⟨x, s', hs, [v], Or.inr ⟨hx, hq⟩, rfl⟩, hv⟩

/-- A salt pushed and dropped changes nothing. -/
theorem accepts_salted {salt : Bytes} :
    Accepts env (data salt :: op .drop :: p) s ↔ Accepts env p s := by
  simp [Accepts]

/-- A branch that leaves false is closed, whatever lies below. -/
theorem accepts_false : ¬ Accepts env [data []] s := by
  intro ⟨v, h, hv⟩
  simp only [evals_push, evals_nil, List.cons.injEq] at h
  rw [← h.1] at hv
  cases hv

/-- A branch that ends on a signature takes exactly one item. -/
theorem accepts_checkSig : Accepts env [data owner.val, op .checkSig] s ↔
    ∃ sig, s = [sig] ∧ env.crypto.checkSig env.tx env.index sig owner.val = true := by
  simp only [Accepts, evals_push, evals_checkSig, evals_nil]
  constructor
  · intro h
    obtain ⟨v, ⟨key, sig, s', hs, hv⟩, hb⟩ := h
    simp only [List.cons.injEq] at hs hv
    obtain ⟨rfl, rfl⟩ := hs
    obtain ⟨rfl, rfl⟩ := hv
    exact ⟨sig, rfl, by simpa using hb⟩
  · intro h
    obtain ⟨sig, hs, hsig⟩ := h
    exact ⟨[1], ⟨owner.val, sig, [], by rw [hs], by simp [hsig, boolBytes]⟩, rfl⟩

/-- A signature in front of further checks. -/
theorem accepts_checkSigVerify : Accepts env (data owner.val :: op .checkSigVerify :: p) s ↔
    ∃ sig s', s = sig :: s' ∧ env.crypto.checkSig env.tx env.index sig owner.val = true ∧
      Accepts env p s' := by
  simp only [Accepts, evals_push, evals_checkSigVerify]
  constructor
  · intro h
    obtain ⟨v, ⟨key, sig, s', hs, hsig, hp⟩, hv⟩ := h
    obtain ⟨rfl, rfl⟩ := List.cons.inj hs
    exact ⟨sig, s', rfl, hsig, v, hp, hv⟩
  · intro h
    obtain ⟨sig, s', hs, hsig, v, hp, hv⟩ := h
    exact ⟨v, ⟨owner.val, sig, s', by rw [hs], hsig, hp⟩, hv⟩

/-- A lock that does not fit the script's numbers is never met. -/
theorem accepts_lockTime :
    Accepts env [num lock, op .checkLockTimeVerify, data [1]] s ↔
      s = [] ∧ lock.toNat < 2 ^ 63 ∧ lockTimeMet env lock.toNat := by
  simp only [Accepts]
  simp
  constructor
  · intro ⟨⟨hl, hm, hs⟩, _⟩
    exact ⟨hs, hl, hm⟩
  · intro ⟨hs, hl, hm⟩
    exact ⟨⟨hl, hm, hs⟩, rfl⟩

/-- A signature and a lock. -/
theorem accepts_signedAfter : Accepts env (signedAfter owner lock) s ↔
    ∃ sig, s = [sig] ∧ env.crypto.checkSig env.tx env.index sig owner.val = true ∧
      lock.toNat < 2 ^ 63 ∧ lockTimeMet env lock.toNat := by
  rw [signedAfter, accepts_checkSigVerify]
  simp only [accepts_lockTime]
  constructor
  · intro ⟨sig, s', hs, hsig, hs', hl⟩
    exact ⟨sig, by rw [hs, hs'], hsig, hl⟩
  · intro ⟨sig, hs, hsig, hl⟩
    exact ⟨sig, [], hs, hsig, rfl, hl⟩

/-- The goal is met by the amount that leaves. -/
theorem accepts_goal (h : threshold > 0) : Accepts env (goalProgram threshold) s ↔
    s = [] ∧ threshold.toNat < 2 ^ 63 ∧ ∃ out : ConsensusOutput, env.tx.tx.outputs[0]? = some out ∧
      out.value.toNat < 2 ^ 63 ∧ threshold ≤ out.value := by
  simp only [Accepts, goalProgram, if_pos h]
  simp
  constructor
  · intro ⟨out, ⟨ho, hv, ht, hs⟩, hle⟩
    exact ⟨hs, ht, out, ho, hv, UInt64.le_iff_toNat_le.mpr hle⟩
  · intro ⟨hs, ht, out, ho, hv, hle⟩
    exact ⟨out, ⟨ho, hv, ht, hs⟩, UInt64.le_iff_toNat_le.mp hle⟩

/-- The deadline is met by the transaction's lock. -/
theorem accepts_deadline (h : deadline > 0) : Accepts env (deadlineProgram deadline) s ↔
    s = [] ∧ deadline.toNat < 2 ^ 63 ∧ lockTimeMet env deadline.toNat := by
  rw [deadlineProgram, if_pos h, accepts_lockTime]

/-- A deposit needs no witness. -/
theorem accepts_deposit : Accepts env depositProgram s ↔
    s = [] ∧ env.index < 2 ^ 63 ∧ ∃ entry : UtxoEntry, env.tx.entries[env.index]? = some entry ∧
      ∃ out : ConsensusOutput, env.tx.tx.outputs[env.index]? = some out ∧ entry.spk = out.spk ∧
        out.value.toNat < 2 ^ 63 ∧ entry.amount.toNat < 2 ^ 63 ∧ entry.amount ≤ out.value := by
  simp only [Accepts, depositProgram]
  simp
  constructor
  · intro ⟨entry, out, out', entry', ⟨hi, he, _, ho, ⟨hspk, hs⟩, _, ho', hv, _, he', ha, _⟩, hle⟩
    -- the script looks the output and the entry up twice
    rw [he] at he'
    rw [ho] at ho'
    obtain rfl := Option.some.inj he'
    obtain rfl := Option.some.inj ho'
    exact ⟨hs, hi, entry, he, out, ho, hspk, hv, ha, UInt64.le_iff_toNat_le.mpr hle⟩
  · intro ⟨hs, hi, entry, he, out, ho, hspk, hv, ha, hle⟩
    exact ⟨entry, out, out, entry, ⟨hi, he, hi, ho, ⟨hspk, hs⟩, hi, ho, hv, hi, he, ha, hv, ha⟩,
      UInt64.le_iff_toNat_le.mp hle⟩

/-- A relative lock and a signature. -/
theorem accepts_heir :
    Accepts env [num lock, op .checkSequenceVerify, data other.val, op .checkSig] s ↔
      (∃ sig, s = [sig] ∧ env.crypto.checkSig env.tx env.index sig other.val = true) ∧
        lock.toNat < 2 ^ 63 ∧ sequenceMet env lock.toNat := by
  rw [← accepts_checkSig]
  simp only [Accepts, evals_push, evals_checkSequenceVerify, List.cons.injEq]
  constructor
  · intro h
    obtain ⟨v, ⟨x, s', ⟨hx, hs⟩, lv, hlv, hm, hp⟩, hv⟩ := h
    rw [← hx, decodeLock_encodeNum_iff] at hlv
    rw [← hlv.2] at hm
    exact ⟨⟨v, by rw [hs]; exact hp, hv⟩, hlv.1, hm⟩
  · intro h
    obtain ⟨⟨v, hp, hv⟩, hl, hm⟩ := h
    exact ⟨v, ⟨_, s, ⟨rfl, rfl⟩, lock.toNat, decodeLock_encodeNum_iff.mpr ⟨hl, rfl⟩, hm, hp⟩, hv⟩

/-- Two parts whose concatenation hashes to what was committed, and a signature. -/
theorem accepts_reveal : Accepts env (revealProgram owner committedHash) s ↔
    ∃ sig partB partA, s = [sig, partB, partA] ∧
      env.crypto.checkSig env.tx env.index sig owner.val = true ∧
      env.crypto.blake2b (partA ++ partB) = committedHash := by
  rw [revealProgram, accepts_checkSigVerify]
  simp only [Accepts]
  simp
  constructor
  · intro ⟨sig, b, a, hs, hsig, hh, _⟩
    exact ⟨sig, b, a, hs, hsig, Subtype.ext hh⟩
  · intro ⟨sig, b, a, hs, hsig, hh⟩
    exact ⟨sig, b, a, hs, hsig, congrArg Subtype.val hh, rfl⟩

/-- The claim fee is bounded between the first input and the first output. -/
theorem evals_claimFee {r : Stack} : Evals env (claimFeeProgram ++ p) s r ↔
    ∃ entry : UtxoEntry, env.tx.entries[0]? = some entry ∧
      ∃ out : ConsensusOutput, env.tx.tx.outputs[0]? = some out ∧
      out.value.toNat < 2 ^ 63 ∧ entry.amount.toNat < 2 ^ 63 ∧ out.value ≤ entry.amount ∧
        entry.amount.toNat - out.value.toNat ≤ PRIVATE_SWAP_MAX_FEE_SOMPI.toNat ∧ Evals env p s r := by
  have hmax : PRIVATE_SWAP_MAX_FEE_SOMPI.toNat < 2 ^ 63 := by decide
  simp only [claimFeeProgram, List.cons_append, List.nil_append, evals_firstAmount,
    evals_coversFirst, evals_leavesFee]
  constructor
  · intro ⟨entry, he, ha, out, ho, ⟨hv, _⟩, hle, out', ho', _, hfee, hp⟩
    -- the script looks the output up twice
    rw [ho] at ho'
    obtain rfl := Option.some.inj ho'
    exact ⟨entry, he, out, ho, hv, ha, UInt64.le_iff_toNat_le.mpr hle, by omega, hp⟩
  · intro ⟨entry, he, out, ho, hv, ha, hle, hfee, hp⟩
    rw [UInt64.le_iff_toNat_le] at hle
    exact ⟨entry, he, ha, out, ho, ⟨hv, ha⟩, hle, out, ho, ⟨hv, ha, hmax⟩, by omega, hp⟩

/-- The claim reads input 0 and output 0, the only ones a claim can have. -/
theorem accepts_claim : Accepts env (claimProgram other destination) s ↔
    ∃ sig, s = [sig] ∧ env.crypto.checkSig env.tx env.index sig other.val = true ∧
      env.tx.tx.inputs.length = 1 ∧ ∃ out : ConsensusOutput, env.tx.tx.outputs = [out] ∧
        out.spk = versionedDestination destination ∧
        ∃ entry : UtxoEntry, env.tx.entries[0]? = some entry ∧
          out.value.toNat < 2 ^ 63 ∧ entry.amount.toNat < 2 ^ 63 ∧ out.value ≤ entry.amount ∧
            entry.amount.toNat - out.value.toNat ≤ PRIVATE_SWAP_MAX_FEE_SOMPI.toNat := by
  rw [claimProgram, List.append_assoc, List.cons_append, List.cons_append, accepts_checkSigVerify]
  simp only [Accepts]
  simp [evals_claimFee]
  constructor
  · intro ⟨sig, hs, hsig, ⟨_, hin, _, hout, out, ho, hspk, entry, he, out', ho', h⟩, _⟩
    rw [ho] at ho'
    obtain rfl := Option.some.inj ho'
    have houts : env.tx.tx.outputs = [out] := by
      obtain ⟨o, hos⟩ := List.length_eq_one_iff.mp (by omega : env.tx.tx.outputs.length = 1)
      rw [hos] at ho ⊢
      rw [Option.some.inj ho]
    exact ⟨sig, hs, hsig, by omega, out, houts, hspk, entry, he, h⟩
  · intro ⟨sig, hs, hsig, hin, out, ho, hspk, entry, he, hv, ha, hle, hfee⟩
    have ho0 : env.tx.tx.outputs[0]? = some out := by rw [ho]; rfl
    have hlen : env.tx.tx.outputs.length = 1 := by rw [ho]; rfl
    exact ⟨sig, hs, hsig, ⟨by omega, by omega, by omega, by omega, out, ho0, hspk, entry, he,
      out, ho0, hv, ha, hle, hfee⟩, rfl⟩

end accepts

end KaspaPortal.Contract.Covenant
