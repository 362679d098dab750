import KaspaPortal.Engine.Rules

/-!
# Oracle publication script

`src/contract/oracle/script/`. The publication redeem script is a twenty-octet
prefix that carries price and time, and a constant body. The roll branch reads
its own signature script to rebuild the body behind a new prefix; the passthrough
branch asks for itself unchanged. Each step of the roll branch is a fragment of
its own here, with a lemma for what it checks and what it leaves on the stack.

What the journal proves about prices is decided outside of the script, by the
image that the parameters name. The heartbeat covenant is only counted.
-/
namespace KaspaPortal.Contract.Oracle
open Lib Primitives Transaction Contract.Script Engine

/-- What an update may take from the covenant's amount. -/
def ORACLE_MB_MAX_FEE_SOMPI : UInt64 := 1000000

/-- The script's code has one length for all parameters; the checks below cut it by this number. -/
def ORACLE_MB_BODY_LEN : UInt64 := 288

/-- The state in front of the code is twenty bytes. -/
def ORACLE_MB_REDEEM_LEN : UInt64 := 308

/-- The tag of the proof system. -/
def RISC0_TAG : UInt8 := 0x21

/-- What an oracle is built for. Price and time are state and not among them. -/
structure OracleParams where
  imageId : FixedBytes 32
  controlId : FixedBytes 32
  setRoot : FixedBytes 32
  hashfn : UInt8
  heartbeatCovId : FixedBytes 32

/-- The state: price and time, each pushed and dropped. -/
def oracleMbPrefix (price t : UInt64) : Bytes :=
  [0x08] ++ leBytes 8 price.toNat ++ [0x75] ++ [0x08] ++ leBytes 8 t.toNat ++ [0x75]

/-- One input and one output of the covenant, the output being the first of the transaction. -/
def pushOracleMbSingletonStrict : Bytes :=
  [OP_TX_INPUT_INDEX, OP_INPUT_COVENANT_ID, OP_DUP, OP_COV_INPUT_COUNT] ++ pushInt 1 ++
    [OP_NUMEQUALVERIFY, OP_COV_OUTPUT_COUNT] ++ pushInt 1 ++ [OP_NUMEQUALVERIFY]

/-- The update, with a proof. -/
def pushOracleRollBranch (params : OracleParams) : Bytes :=
  -- co-roll: exactly one heartbeat input
  pushData params.heartbeatCovId.val ++ [OP_COV_INPUT_COUNT] ++ pushInt 1 ++ [OP_NUMEQUALVERIFY] ++
  -- set_root pin: J[16:48] == set_root
  pushInt 0 ++ [OP_PICK] ++ pushInt 16 ++ pushInt 48 ++ [OP_SUBSTR] ++
    pushData params.setRoot.val ++ [OP_EQUALVERIFY] ++
  pushInt 0 ++ [OP_PICK] ++ pushInt 0 ++ pushInt 8 ++ [OP_SUBSTR] ++ pushInt 1 ++
    pushInt (((1 : UInt64) <<< 60) + 1) ++ [OP_WITHIN, OP_VERIFY] ++
  -- new_T >= old_T
  pushInt 0 ++ [OP_PICK] ++ pushInt 8 ++ pushInt 16 ++ [OP_SUBSTR, OP_TX_INPUT_INDEX,
    OP_TX_INPUT_INDEX, OP_TX_INPUT_SCRIPT_SIG_LEN, OP_DUP] ++
    pushInt (ORACLE_MB_REDEEM_LEN - 11) ++ [OP_SUB, OP_SWAP] ++
    pushInt (ORACLE_MB_REDEEM_LEN - 19) ++
    [OP_SUB, OP_TX_INPUT_SCRIPT_SIG_SUBSTR, OP_GREATERTHANOREQUAL, OP_VERIFY] ++
  pushData [0x08] ++ pushInt 1 ++ [OP_PICK] ++ pushInt 0 ++ pushInt 8 ++ [OP_SUBSTR, OP_CAT] ++
    pushData [0x75, 0x08] ++ [OP_CAT] ++ pushInt 1 ++ [OP_PICK] ++ pushInt 8 ++ pushInt 16 ++
    [OP_SUBSTR, OP_CAT] ++ pushData [0x75] ++ [OP_CAT] ++
  -- next_redeem = next_prefix || self_body
  [OP_TX_INPUT_INDEX, OP_TX_INPUT_INDEX, OP_TX_INPUT_SCRIPT_SIG_LEN, OP_DUP] ++
    pushInt ORACLE_MB_BODY_LEN ++ [OP_SUB, OP_SWAP, OP_TX_INPUT_SCRIPT_SIG_SUBSTR, OP_CAT] ++
  pushOracleMbSingletonStrict ++
  -- next_spk == output[0].spk
  [OP_BLAKE2B] ++ pushData [0x87] ++ [OP_CAT] ++ pushData [0xaa, 0x20] ++ [OP_SWAP, OP_CAT] ++
    pushData [0x00, 0x00] ++ [OP_SWAP, OP_CAT] ++ pushInt 0 ++
    [OP_TX_OUTPUT_SPK, OP_EQUALVERIFY] ++
  -- output[0].amount >= input.amount - max_fee
  pushInt 0 ++ [OP_TX_OUTPUT_AMOUNT, OP_TX_INPUT_INDEX, OP_TX_INPUT_AMOUNT] ++
    pushInt ORACLE_MB_MAX_FEE_SOMPI ++ [OP_SUB, OP_GREATERTHANOREQUAL, OP_VERIFY] ++
  [OP_SHA256] ++ pushData params.imageId.val ++ pushData params.controlId.val ++
    pushData [params.hashfn] ++ pushData [RISC0_TAG] ++ [OP_ZK_PRECOMPILE, OP_VERIFY] ++
  [OP_1]

/-- Any other spend keeps the script, and all of the amount but the fee. -/
def pushOraclePassthroughBranch : Bytes :=
  [OP_TX_INPUT_INDEX, OP_INPUT_COVENANT_ID, OP_DUP, OP_COV_INPUT_COUNT] ++ pushInt 1 ++
    [OP_NUMEQUALVERIFY, OP_DUP, OP_COV_OUTPUT_COUNT] ++ pushInt 1 ++ [OP_NUMEQUALVERIFY] ++
    pushInt 0 ++ [OP_COV_OUTPUT_IDX, OP_DUP, OP_TX_OUTPUT_SPK, OP_TX_INPUT_INDEX, OP_TX_INPUT_SPK,
      OP_EQUALVERIFY, OP_TX_OUTPUT_AMOUNT, OP_TX_INPUT_INDEX, OP_TX_INPUT_AMOUNT] ++
    pushInt ORACLE_MB_MAX_FEE_SOMPI ++ [OP_SUB, OP_GREATERTHANOREQUAL, OP_VERIFY, OP_1]

def buildOracleMbPublishBody (params : OracleParams) : Bytes :=
  [OP_IF] ++ pushOracleRollBranch params ++ [OP_ELSE] ++ pushOraclePassthroughBranch ++ [OP_ENDIF]

/-- State and code. A new state is a new script. -/
def buildOracleMbRedeem (price t : UInt64) (params : OracleParams) : Bytes :=
  oracleMbPrefix price t ++ buildOracleMbPublishBody params

/-- The first script is one like every later one. -/
def buildOracleMbGenesisRedeem (genesisPrice genesisT : UInt64) (params : OracleParams) : Bytes :=
  buildOracleMbRedeem genesisPrice genesisT params

/-- `heartbeat.rs`: the keyless singleton every roll has to spend and recreate. -/
def buildOracleMbHeartbeatScript : Bytes :=
  [OP_TX_INPUT_INDEX, OP_INPUT_COVENANT_ID, OP_DUP, OP_COV_INPUT_COUNT] ++ pushInt 1 ++
    [OP_NUMEQUALVERIFY, OP_DUP, OP_COV_OUTPUT_COUNT] ++ pushInt 1 ++ [OP_NUMEQUALVERIFY] ++
    pushInt 0 ++ [OP_COV_OUTPUT_IDX, OP_DUP, OP_TX_OUTPUT_SPK, OP_TX_INPUT_INDEX, OP_TX_INPUT_SPK,
      OP_EQUALVERIFY, OP_TX_OUTPUT_AMOUNT, OP_TX_INPUT_INDEX, OP_TX_INPUT_AMOUNT,
      OP_GREATERTHANOREQUAL, OP_VERIFY, OP_1]

/-! ## Lengths -/

theorem oracleMbPrefix_length (price t : UInt64) : (oracleMbPrefix price t).length = 20 := by
  simp [oracleMbPrefix]

/-- The code is as long as it says it is. -/
theorem publishBody_length (params : OracleParams) :
    (buildOracleMbPublishBody params).length = ORACLE_MB_BODY_LEN.toNat := by
  have hfix (x : FixedBytes 32) : (pushData x.val).length = 33 := by simp [pushData, x.property]
  have hone (b : UInt8) : (pushData [b]).length = 2 := by simp [pushData]
  have htwo (a b : UInt8) : (pushData [a, b]).length = 3 := by simp [pushData]
  have hsmall : (pushInt 0).length = 1 ∧ (pushInt 1).length = 1 ∧ (pushInt 8).length = 1 ∧
      (pushInt 16).length = 1 ∧ (pushInt 48).length = 2 := by decide
  have hwide : (pushInt (((1 : UInt64) <<< 60) + 1)).length = 9 ∧
      (pushInt (ORACLE_MB_REDEEM_LEN - 11)).length = 3 ∧
      (pushInt (ORACLE_MB_REDEEM_LEN - 19)).length = 3 ∧
      (pushInt ORACLE_MB_BODY_LEN).length = 3 ∧
      (pushInt ORACLE_MB_MAX_FEE_SOMPI).length = 4 := by decide
  unfold buildOracleMbPublishBody pushOracleRollBranch pushOraclePassthroughBranch
    pushOracleMbSingletonStrict
  simp only [List.length_append, hfix, hone, htwo, hsmall, hwide, List.length_cons,
    List.length_nil]
  rfl

/-- And so is the whole script. -/
theorem redeem_length (price t : UInt64) (params : OracleParams) :
    (buildOracleMbRedeem price t params).length = ORACLE_MB_REDEEM_LEN.toNat := by
  rw [buildOracleMbRedeem, List.length_append, oracleMbPrefix_length, publishBody_length]
  rfl

/-! ## Nested form -/

/-- `J[start:stop]`, `J` standing `depth` below the top. -/
def pickSlice (depth start stop : UInt64) : List (Stmt Instr) :=
  [num depth, op .pick, num start, num stop, op .substr]

/-- Exactly one heartbeat input. -/
def coRollProgram (heartbeatCovId : FixedBytes 32) : List (Stmt Instr) :=
  [data heartbeatCovId.val, op .covInputCount, num 1, op .numEqualVerify]

/-- The journal names the set of publishers. -/
def setRootProgram (setRoot : FixedBytes 32) : List (Stmt Instr) :=
  pickSlice 0 16 48 ++ [data setRoot.val, op .equalVerify]

/-- The price is at least one and at most `2 ^ 60`. -/
def priceProgram : List (Stmt Instr) :=
  pickSlice 0 0 8 ++ [num 1, num (((1 : UInt64) <<< 60) + 1), op .within, op .verify]

/-- The new time is not before the one in the script being spent. -/
def monotoneProgram : List (Stmt Instr) :=
  pickSlice 0 8 16 ++ [op .txInputIndex, op .txInputIndex, op .txInputScriptSigLen, op .dup,
    num (ORACLE_MB_REDEEM_LEN - 11), op .sub, op .swap, num (ORACLE_MB_REDEEM_LEN - 19), op .sub,
    op .txInputScriptSigSubstr, op .greaterThanOrEqual, op .verify]

/-- The state of the next script, from the journal. -/
def nextPrefixProgram : List (Stmt Instr) :=
  data [0x08] :: pickSlice 1 0 8 ++ [op .cat, data [0x75, 0x08], op .cat] ++
    pickSlice 1 8 16 ++ [op .cat, data [0x75], op .cat]

/-- The code of the next script is the tail of this one. -/
def nextRedeemProgram : List (Stmt Instr) :=
  [op .txInputIndex, op .txInputIndex, op .txInputScriptSigLen, op .dup, num ORACLE_MB_BODY_LEN,
    op .sub, op .swap, op .txInputScriptSigSubstr, op .cat]

/-- One input and one output with the tag, the output being the first. -/
def singletonProgram : List (Stmt Instr) :=
  [op .txInputIndex, op .inputCovenantId, op .dup, op .covInputCount, num 1, op .numEqualVerify,
    op .covOutputCount, num 1, op .numEqualVerify]

/-- The output must pay to the next script's hash. -/
def nextSpkProgram : List (Stmt Instr) :=
  [op .blake2b, data [0x87], op .cat, data [0xaa, 0x20], op .swap, op .cat, data [0x00, 0x00],
    op .swap, op .cat, num 0, op .txOutputSpk, op .equalVerify]

/-- All but the allowed fee stays in the covenant. -/
def conserveProgram : List (Stmt Instr) :=
  [num 0, op .txOutputAmount, op .txInputIndex, op .txInputAmount, num ORACLE_MB_MAX_FEE_SOMPI,
    op .sub, op .greaterThanOrEqual, op .verify]

/-- The proof is of this journal, for the image of the parameters. -/
def precompileProgram (params : OracleParams) : List (Stmt Instr) :=
  [op .sha256, data params.imageId.val, data params.controlId.val, data [params.hashfn],
    data [RISC0_TAG], op .zkPrecompile, op .verify, data [1]]

/-- The checks of the update in the order of the builder. -/
def rollProgram (params : OracleParams) : List (Stmt Instr) :=
  coRollProgram params.heartbeatCovId ++ (setRootProgram params.setRoot ++ (priceProgram ++
    (monotoneProgram ++ (nextPrefixProgram ++ (nextRedeemProgram ++ (singletonProgram ++
      (nextSpkProgram ++ (conserveProgram ++ precompileProgram params))))))))

/-- The other branch: one input and one output again, the same script, and the amount. -/
def passthroughProgram : List (Stmt Instr) :=
  [op .txInputIndex, op .inputCovenantId, op .dup, op .covInputCount, num 1, op .numEqualVerify,
    op .dup, op .covOutputCount, num 1, op .numEqualVerify, num 0, op .covOutputIdx, op .dup,
    op .txOutputSpk, op .txInputIndex, op .txInputSpk, op .equalVerify, op .txOutputAmount,
    op .txInputIndex, op .txInputAmount, num ORACLE_MB_MAX_FEE_SOMPI, op .sub,
    op .greaterThanOrEqual, op .verify, data [1]]

/-- The whole script as a structured program. -/
def redeemProgram (price t : UInt64) (params : OracleParams) : List (Stmt Instr) :=
  [data (leBytes 8 price.toNat), op .drop, data (leBytes 8 t.toNat), op .drop,
    .ifElse (rollProgram params) passthroughProgram]

/-- The bytes of the builder are this program. -/
theorem tokenize_redeem (price t : UInt64) (params : OracleParams) :
    tokenize (buildOracleMbRedeem price t params) =
      some (flattenAll (redeemProgram price t params)) := by
  have hprefix (v : UInt64) (rest : Bytes) : tokenize (0x08 :: (leBytes 8 v.toNat ++ 0x75 :: rest)) =
      (tokenize rest).map ([.instr (.push (leBytes 8 v.toNat)), .instr .drop] ++ ·) := by
    have := tokenize_salt ⟨leBytes 8 v.toNat, leBytes_length _ _⟩ (OP_DROP :: rest)
    simpa [Function.comp_def] using this
  have hpush : Pushable [0x08] ∧ Pushable [0x75, 0x08] ∧ Pushable [0x75] ∧ Pushable [0x87] ∧
      Pushable [0xaa, 0x20] ∧ Pushable [0x00, 0x00] ∧ Pushable [params.hashfn] ∧
      Pushable [RISC0_TAG] := by
    refine ⟨?_, ?_, ?_, ?_, ?_, ?_, pushable_of_le (n := 1) (by simp) (by decide), ?_⟩ <;> decide
  unfold buildOracleMbRedeem oracleMbPrefix buildOracleMbPublishBody pushOracleRollBranch
    pushOraclePassthroughBranch pushOracleMbSingletonStrict
  simp [redeemProgram, rollProgram, passthroughProgram, coRollProgram, setRootProgram,
    priceProgram, monotoneProgram, nextPrefixProgram, nextRedeemProgram, singletonProgram,
    nextSpkProgram, conserveProgram, precompileProgram, pickSlice, hprefix, hpush]

/-! ## What the fragments check -/

section fragments
variable {env : Env} {input : ConsensusInput} {e : UtxoEntry} {J : Bytes} {s r : Stack}
  {p : List (Stmt Instr)}

/-- A slice is taken of an item that stays where it is. -/
theorem evals_pickSlice {depth start stop : UInt64}
    (h : Evals env (pickSlice depth start stop ++ p) s r) :
    ∃ x part, s[depth.toNat]? = some x ∧ slice x start.toNat stop.toNat = some part ∧
      Evals env p (part :: s) r := by
  simp only [pickSlice, List.cons_append, List.nil_append] at h
  simp at h
  obtain ⟨-, x, hx, -, -, part, hpart, hp⟩ := h
  exact ⟨x, part, hx, hpart, hp⟩

/-- The length of the own signature script, above a position that far from its end. -/
theorem evals_ownTail {back : UInt64} (hin : env.tx.tx.inputs[env.index]? = some input)
    (h : Evals env (op .txInputIndex :: op .txInputIndex :: op .txInputScriptSigLen :: op .dup ::
      num back :: op .sub :: op .swap :: p) s r) :
    Evals env p (encodeNum input.sigScript.length ::
      encodeNum (input.sigScript.length - back.toNat) :: encodeNum env.index :: s) r := by
  simp [hin] at h
  exact h.2.2.2.2

/-- There is one input with the tag. -/
theorem evals_oneInput (he : env.tx.entries[env.index]? = some e)
    (h : Evals env (op .txInputIndex :: op .inputCovenantId :: op .dup :: op .covInputCount ::
      num 1 :: op .numEqualVerify :: p) s r) : Evals env p (covenantIdBytes e :: s) r := by
  simp [he] at h
  exact h.2.2.2

/-- There is one output with the tag, and its position is found. -/
theorem evals_oneOutput {id : Bytes} (h : Evals env (op .dup :: op .covOutputCount :: num 1 ::
      op .numEqualVerify :: num 0 :: op .covOutputIdx :: p) (id :: s) r) :
    ∃ k, taggedOutputs env.tx.tx id = [k] ∧ Evals env p (encodeNum k :: s) r := by
  simp at h
  obtain ⟨-, hone, k, hk, -, hp⟩ := h
  obtain ⟨k', hk'⟩ := List.length_eq_one_iff.mp (by exact_mod_cast hone.symm)
  obtain rfl : k' = k := by simpa [hk'] using hk
  exact ⟨k', hk', hp⟩

/-- The output at the position on the stack has the script of the input. -/
theorem evals_sameSpk {k : Nat} (he : env.tx.entries[env.index]? = some e)
    (h : Evals env (op .dup :: op .txOutputSpk :: op .txInputIndex :: op .txInputSpk ::
      op .equalVerify :: p) (encodeNum k :: s) r) :
    ∃ out, env.tx.tx.outputs[k]? = some out ∧ out.spk = e.spk ∧
      Evals env p (encodeNum k :: s) r := by
  obtain ⟨x, s', hs, hp⟩ := evals_dup.mp h
  cases hs
  obtain ⟨-, ⟨out, hout, hspk⟩, hp⟩ := (evals_outputPaysOwn he).mp hp
  exact ⟨out, hout, hspk, hp⟩

/-- The heartbeat check leaves the stack as it was. -/
theorem evals_coRoll {heartbeatCovId : FixedBytes 32}
    (h : Evals env (coRollProgram heartbeatCovId ++ p) s r) : Evals env p s r := by
  simp only [coRollProgram, List.cons_append, List.nil_append] at h
  simp at h
  exact h.2.2

/-- A program that passed the check has the root in its journal. -/
theorem evals_setRoot {setRoot : FixedBytes 32}
    (h : Evals env (setRootProgram setRoot ++ p) (J :: s) r) :
    slice J 16 48 = some setRoot.val ∧ Evals env p (J :: s) r := by
  rw [setRootProgram, List.append_assoc] at h
  obtain ⟨x, part, hx, hslice, hp⟩ := evals_pickSlice h
  cases hx
  simp at hp
  exact ⟨hp.1 ▸ hslice, hp.2⟩

theorem evals_price (h : Evals env (priceProgram ++ p) (J :: s) r) : Evals env p (J :: s) r := by
  rw [priceProgram, List.append_assoc] at h
  obtain ⟨x, part, -, -, hp⟩ := evals_pickSlice h
  simp at hp
  obtain ⟨zx, -, -, hp⟩ := hp
  exact hp

/-- It read both times as numbers and found them in order. -/
theorem evals_monotone (hin : env.tx.tx.inputs[env.index]? = some input)
    (h : Evals env (monotoneProgram ++ p) (J :: s) r) :
    (∃ newT oldT zn zo, slice J 8 16 = some newT ∧
      slice input.sigScript (input.sigScript.length - 297) (input.sigScript.length - 289) =
        some oldT ∧ decodeNum newT = some zn ∧ decodeNum oldT = some zo ∧ zo ≤ zn) ∧
    Evals env p (J :: s) r := by
  rw [monotoneProgram, List.append_assoc] at h
  obtain ⟨x, newT, hx, hnew, hp⟩ := evals_pickSlice h
  cases hx
  obtain ⟨oldT, -, hold, hp⟩ := evals_sigScriptSubstr hin (evals_subNum (evals_ownTail hin hp))
  rw [Int.toNat_sub, Int.toNat_sub] at hold
  simp at hp
  obtain ⟨zn, hzn, zo, hzo, hle, hp⟩ := hp
  exact ⟨⟨newT, oldT, zn, zo, hnew, hold, hzn, hzo, hle⟩, hp⟩

/-- The new state is made of the journal's price and time. -/
theorem evals_nextPrefix (h : Evals env (nextPrefixProgram ++ p) (J :: s) r) :
    ∃ price t, slice J 0 8 = some price ∧ slice J 8 16 = some t ∧
      Evals env p ((0x08 :: (price ++ 0x75 :: 0x08 :: (t ++ [0x75]))) :: J :: s) r := by
  rw [nextPrefixProgram, List.append_assoc, List.append_assoc, List.append_assoc, List.cons_append,
    evals_push] at h
  obtain ⟨x, price, hx, hprice, h⟩ := evals_pickSlice h
  cases hx
  simp only [List.cons_append, List.nil_append] at h
  simp at h
  obtain ⟨x, t, hx, ht, h⟩ := evals_pickSlice h
  cases hx
  simp at h
  exact ⟨price, t, hprice, ht, h⟩

/-- The new script has the code of the old one. -/
theorem evals_nextRedeem {x : Bytes} (hin : env.tx.tx.inputs[env.index]? = some input)
    (h : Evals env (nextRedeemProgram ++ p) (x :: s) r) :
    ∃ body, slice input.sigScript (input.sigScript.length - 288) input.sigScript.length = some body ∧
      288 ≤ input.sigScript.length ∧ Evals env p ((x ++ body) :: s) r := by
  obtain ⟨body, hlen, hbody, hp⟩ := evals_sigScriptSubstr hin (evals_ownTail hin h)
  rw [Int.toNat_sub] at hbody
  simp at hp
  exact ⟨body, hbody, Int.ofNat_le.mp (Int.sub_nonneg.mp hlen), hp⟩

/-- There is one output with the tag. -/
theorem evals_singleton (he : env.tx.entries[env.index]? = some e)
    (h : Evals env (singletonProgram ++ p) s r) :
    (taggedOutputs env.tx.tx (covenantIdBytes e)).length = 1 ∧ Evals env p s r := by
  have hp := evals_oneInput he h
  simp at hp
  exact ⟨by exact_mod_cast hp.2.1.symm, hp.2.2⟩

/-- The first output pays to the script on the stack. -/
theorem evals_nextSpk {x : Bytes} (h : Evals env (nextSpkProgram ++ p) (x :: s) r) :
    (∃ out : ConsensusOutput, env.tx.tx.outputs[0]? = some out ∧
      out.spk = spkBytes 0 (p2shScript (env.crypto.blake2b x))) ∧ Evals env p s r := by
  simp only [nextSpkProgram, List.cons_append, List.nil_append] at h
  simp at h
  obtain ⟨out, hout, hspk, hp⟩ := h
  exact ⟨⟨out, hout, hspk.symm⟩, hp⟩

/-- The first output holds what the input held, but for the fee. -/
theorem evals_conserve (he : env.tx.entries[env.index]? = some e)
    (h : Evals env (conserveProgram ++ p) s r) :
    (∃ out : ConsensusOutput, env.tx.tx.outputs[0]? = some out ∧
      e.amount.toNat ≤ out.value.toNat + ORACLE_MB_MAX_FEE_SOMPI.toNat) ∧ Evals env p s r := by
  rw [conserveProgram, List.cons_append, num, evals_push] at h
  obtain ⟨-, ⟨out, hout, -, hle⟩, hp⟩ := (evals_outputKeeps he).mp h
  exact ⟨⟨out, hout, hle⟩, hp⟩

/-- A program that ends on one item had the proof of its journal checked. -/
theorem evals_precompile {params : OracleParams} {v : Bytes}
    (h : Evals env (precompileProgram params) (J :: s) [v]) :
    ∃ sealData controlDigests controlIndex claim, s = [sealData, controlDigests, controlIndex, claim] ∧
      env.crypto.risc0 ⟨claim, controlIndex, controlDigests, sealData,
        (env.crypto.sha256 J).val, params.imageId.val, params.controlId.val, [params.hashfn]⟩ = true := by
  simp only [precompileProgram, RISC0_TAG] at h
  simp [evals_risc0] at h
  obtain ⟨sealData, controlDigests, controlIndex, claim, hs, hproof, -⟩ := h
  exact ⟨sealData, controlDigests, controlIndex, claim, hs, hproof⟩

/-- What an accepted passthrough has checked. -/
def PassesThrough (env : Env) (e : UtxoEntry) : Prop :=
  ∃ k out, taggedOutputs env.tx.tx (covenantIdBytes e) = [k] ∧ env.tx.tx.outputs[k]? = some out ∧
    out.spk = e.spk ∧ e.amount.toNat ≤ out.value.toNat + ORACLE_MB_MAX_FEE_SOMPI.toNat

/-- What a spend by the other branch satisfies. -/
theorem evals_passthrough (he : env.tx.entries[env.index]? = some e)
    (h : Evals env passthroughProgram s r) : PassesThrough env e := by
  obtain ⟨k, hk, hp⟩ := evals_oneOutput (evals_oneInput he h)
  obtain ⟨out, hout, hspk, hp⟩ := evals_sameSpk he hp
  obtain ⟨-, ⟨out', hout', -, hle⟩, -⟩ := (evals_outputKeeps he).mp hp
  cases hout.symm.trans hout'
  exact ⟨k, out, hk, hout, hspk, hle⟩

/-! ## The two branches -/

/-- A receipt verifies for this journal under the oracle's image. -/
def ProvedJournal (c : Crypto) (params : OracleParams) (J : Bytes) : Prop :=
  ∃ claim controlIndex controlDigests sealData, c.risc0 ⟨claim, controlIndex, controlDigests,
    sealData, (c.sha256 J).val, params.imageId.val, params.controlId.val, [params.hashfn]⟩ = true

/-- The fields of the journal, read as the script's state will hold them. -/
def journalPrice (J : Bytes) : UInt64 := UInt64.ofNat (leNat (J.take 8))

def journalT (J : Bytes) : UInt64 := UInt64.ofNat (leNat ((J.take 16).drop 8))

theorem leBytes_of_slice {b field : Bytes} (start : Nat)
    (h : slice b start (start + 8) = some field) :
    leBytes 8 (UInt64.ofNat (leNat ((b.take (start + 8)).drop start))).toNat = field := by
  obtain ⟨-, hlen, rfl⟩ := slice_eq_some h
  have h8 : ((b.take (start + 8)).drop start).length = 8 := by
    rw [List.length_drop, List.length_take]
    omega
  have hlt := leNat_lt ((b.take (start + 8)).drop start)
  rw [h8] at hlt
  have hnat : (UInt64.ofNat (leNat ((b.take (start + 8)).drop start))).toNat =
      leNat ((b.take (start + 8)).drop start) := by
    rw [UInt64.toNat_ofNat']
    omega
  have hback := leBytes_leNat ((b.take (start + 8)).drop start)
  rw [h8] at hback
  rw [hnat, hback]

/-- The fields the roll branch slices out of its own signature script: the
committed time and the body. -/
theorem slice_ownRedeem {sigScript front : Bytes} {price t : UInt64} {params : OracleParams}
    (h : sigScript = front ++ buildOracleMbRedeem price t params) :
    slice sigScript (sigScript.length - 297) (sigScript.length - 289) = some (leBytes 8 t.toNat) ∧
    slice sigScript (sigScript.length - 288) sigScript.length =
      some (buildOracleMbPublishBody params) := by
  have hbody : (buildOracleMbPublishBody params).length = 288 := publishBody_length params
  have hlen : sigScript.length = front.length + 308 := by
    rw [h, List.length_append, redeem_length]
    rfl
  constructor
  · -- octets 11 to 19 of the redeem script
    have hsplit : sigScript = (front ++ (0x08 :: leBytes 8 price.toNat ++ [0x75, 0x08])) ++
        (leBytes 8 t.toNat ++ (0x75 :: buildOracleMbPublishBody params)) := by
      rw [h, buildOracleMbRedeem, oracleMbPrefix]
      simp
    have hslice := Primitives.slice_append (front ++ (0x08 :: leBytes 8 price.toNat ++ [0x75, 0x08]))
      (leBytes 8 t.toNat) (0x75 :: buildOracleMbPublishBody params)
    have hpre : (front ++ (0x08 :: leBytes 8 price.toNat ++ [0x75, 0x08])).length =
        front.length + 11 := by simp
    rw [← hsplit, hpre, leBytes_length] at hslice
    rwa [show sigScript.length - 297 = front.length + 11 by omega,
      show sigScript.length - 289 = front.length + 11 + 8 by omega]
  · have hsplit : sigScript = (front ++ oracleMbPrefix price t) ++
        (buildOracleMbPublishBody params ++ []) := by
      rw [h, buildOracleMbRedeem]
      simp
    have hslice := Primitives.slice_append (front ++ oracleMbPrefix price t)
      (buildOracleMbPublishBody params) []
    rw [← hsplit, List.length_append, oracleMbPrefix_length, hbody] at hslice
    rwa [show sigScript.length - 288 = front.length + 20 by omega,
      show sigScript.length = front.length + 20 + 288 by omega]

/-- What an accepted roll has checked. -/
structure Rolls (env : Env) (params : OracleParams) (e : UtxoEntry) (t : UInt64) (J : Bytes) :
    Prop where
  proved : ProvedJournal env.crypto params J
  singleton : (taggedOutputs env.tx.tx (covenantIdBytes e)).length = 1
  next : ∃ out, env.tx.tx.outputs[0]? = some out ∧
    out.spk = spkBytes 0 (p2shScript (env.crypto.blake2b
      (buildOracleMbRedeem (journalPrice J) (journalT J) params))) ∧
    e.amount.toNat ≤ out.value.toNat + ORACLE_MB_MAX_FEE_SOMPI.toNat
  monotone : ∃ zo zn, decodeNum (leBytes 8 t.toNat) = some zo ∧
    decodeNum (leBytes 8 (journalT J).toNat) = some zn ∧ zo ≤ zn

/-- An update is of the kind the contract allows: every check of the branch, put together. -/
theorem roll_sound {params : OracleParams} {price t : UInt64} {front v : Bytes}
    (hin : env.tx.tx.inputs[env.index]? = some input)
    (he : env.tx.entries[env.index]? = some e)
    (hsig : input.sigScript = front ++ buildOracleMbRedeem price t params)
    (h : Evals env (rollProgram params) (J :: s) [v]) : Rolls env params e t J := by
  obtain ⟨hT, hbody⟩ := slice_ownRedeem hsig
  obtain ⟨-, h⟩ := evals_setRoot (evals_coRoll h)
  obtain ⟨⟨newT, oldT, zn, zo, hnew, hold, hzn, hzo, hle⟩, h⟩ := evals_monotone hin (evals_price h)
  obtain ⟨price', t', hp, ht, h⟩ := evals_nextPrefix h
  obtain ⟨body, hb, -, h⟩ := evals_nextRedeem hin h
  obtain ⟨hone, h⟩ := evals_singleton he h
  obtain ⟨⟨out, hout, hspk⟩, h⟩ := evals_nextSpk h
  obtain ⟨⟨out', hout', hamount⟩, h⟩ := evals_conserve he h
  obtain ⟨sealData, controlDigests, controlIndex, claim, -, hproof⟩ := evals_precompile h
  obtain rfl : out = out' := Option.some.inj (hout.symm.trans hout')
  obtain rfl : leBytes 8 t.toNat = oldT := Option.some.inj (hT.symm.trans hold)
  obtain rfl : buildOracleMbPublishBody params = body := Option.some.inj (hbody.symm.trans hb)
  obtain rfl : leBytes 8 (journalPrice J).toNat = price' := leBytes_of_slice 0 hp
  obtain rfl : leBytes 8 (journalT J).toNat = t' := leBytes_of_slice 8 ht
  obtain rfl : leBytes 8 (journalT J).toNat = newT := leBytes_of_slice 8 hnew
  refine ⟨⟨claim, controlIndex, controlDigests, sealData, hproof⟩, hone, ⟨out, hout, ?_, hamount⟩,
    ⟨zo, zn, hzo, hzn, hle⟩⟩
  rw [hspk, buildOracleMbRedeem, oracleMbPrefix]
  simp

/-- The journal is what lay on top of the stack. -/
theorem roll_journal {params : OracleParams} (h : Evals env (rollProgram params) s r) :
    ∃ J s', s = J :: s' := by
  have h := evals_coRoll h
  cases s with
  | nil =>
    simp only [setRootProgram, pickSlice, List.cons_append, List.nil_append] at h
    simp at h
  | cons J s' => exact ⟨J, s', rfl⟩

/-- An accepted spend of the publication script takes one of its branches. -/
theorem redeem_cases {params : OracleParams} {price t : UInt64} {front : Bytes} {w : Stack}
    (hin : env.tx.tx.inputs[env.index]? = some input)
    (he : env.tx.entries[env.index]? = some e)
    (hsig : input.sigScript = front ++ buildOracleMbRedeem price t params)
    (h : succeeds env (buildOracleMbRedeem price t params) w = true) :
    (∃ selector J rest, w = selector :: J :: rest ∧ asBool selector = true ∧
      Rolls env params e t J) ∨ PassesThrough env e := by
  obtain ⟨v, h, -⟩ := (succeeds_iff (tokenize_redeem price t params) w).mp h
  simp only [redeemProgram] at h
  simp at h
  obtain ⟨selector, s, rfl, ⟨hsel, h⟩ | ⟨-, h⟩⟩ := h
  · obtain ⟨J, rest, rfl⟩ := roll_journal h
    exact Or.inl ⟨selector, J, rest, rfl, hsel, roll_sound hin he hsig h⟩
  · exact Or.inr (evals_passthrough he h)

end fragments
end KaspaPortal.Contract.Oracle
