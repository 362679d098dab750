import KaspaPortal.Engine.Rules

/-!
# Crowdfund redeem script

`src/contract/crowdfund/script.rs`. The campaign id is a keyed hash of the
campaign's terms; `keyedHash` stands for keyed BLAKE2b-256. The sweep arm
unrolls one guarded block per possible input, each keeping the running total on
the stack; `totalProgram` is that loop and `evals_total_sound` its invariant.

The proof system is a parameter of the machine. What a proof is a proof of is
decided by its verifying key and is not looked at here.
-/
namespace KaspaPortal.Contract.Crowdfund
open Lib Primitives Transaction Contract.Script Engine

/-- The script is written for this many inputs. -/
def CROWDFUND_MAX_CONTRIBUTORS : Nat := 8

def CROWDFUND_MAX_TX_INPUTS : UInt64 := UInt64.ofNat CROWDFUND_MAX_CONTRIBUTORS

/-- What a sweep may take from the total. -/
def CROWDFUND_MAX_SWEEP_FEE_SOMPI : UInt64 := 500000000

/-- The end of a signature script that names the campaign: a push of the id, and two bytes. -/
def CAMPAIGN_TAIL_LEN : UInt64 := 35

def CAMPAIGN_ID_START_FROM_END : UInt64 := 34

def CAMPAIGN_ID_END_FROM_END : UInt64 := 2

def GROTH16_TAG : UInt8 := 0x20

/-- What a campaign is created with. -/
structure CrowdfundScript where
  contributorPubkey : FixedBytes 32
  goalSompi : UInt64
  locktimeDaa : UInt64
  verifyingKeyHash : FixedBytes 32
  organizerOutputSpk : Bytes
  salt : FixedBytes 8

/-- `b"KaspaPortalCrowdfundV1"`. -/
def campaignDomain : Bytes :=
  [0x4b, 0x61, 0x73, 0x70, 0x61, 0x50, 0x6f, 0x72, 0x74, 0x61, 0x6c, 0x43, 0x72, 0x6f, 0x77, 0x64,
    0x66, 0x75, 0x6e, 0x64, 0x56, 0x31]

/-- What the campaign id hashes, in order. -/
def campaignPreimage (goalSompi locktimeDaa : UInt64) (verifyingKeyHash : FixedBytes 32)
    (organizerOutputSpk : Bytes) : Bytes :=
  verifyingKeyHash.val ++ leBytes 8 goalSompi.toNat ++ leBytes 8 locktimeDaa.toNat ++
    leBytes 8 organizerOutputSpk.length ++ organizerOutputSpk

/-- The id is a hash of everything the contributors have in common. -/
def crowdfundCampaignId (keyedHash : Bytes → Bytes → FixedBytes 32)
    (goalSompi locktimeDaa : UInt64) (verifyingKeyHash : FixedBytes 32)
    (organizerOutputSpk : Bytes) : FixedBytes 32 :=
  keyedHash campaignDomain
    (campaignPreimage goalSompi locktimeDaa verifyingKeyHash organizerOutputSpk)

def CrowdfundScript.campaignId (keyedHash : Bytes → Bytes → FixedBytes 32)
    (config : CrowdfundScript) : FixedBytes 32 :=
  crowdfundCampaignId keyedHash config.goalSompi config.locktimeDaa config.verifyingKeyHash
    config.organizerOutputSpk

/-- What a campaign must have. -/
def validateConfig (config : CrowdfundScript) : Except String Unit :=
  if config.goalSompi = 0 then .error "Crowdfunding goal must be greater than zero"
  else if config.locktimeDaa = 0 then
    .error "Crowdfunding refund timeout must be greater than zero"
  else if config.organizerOutputSpk.length < 3 ∨ 260 < config.organizerOutputSpk.length then
    .error "Crowdfunding organizer output script length is unsupported"
  else if config.salt.val.all (· == 0) then .error "Crowdfunding salt must not be all zero"
  else .ok ()

def appendProofVerification (verifyingKeyHash : FixedBytes 32) : Bytes :=
  [OP_DUP, OP_BLAKE2B] ++ pushData verifyingKeyHash.val ++ [OP_EQUALVERIFY] ++
    pushData [GROTH16_TAG] ++ [OP_ZK_PRECOMPILE, OP_VERIFY]

/-- At least one input, and no more than the script looks at. -/
def appendInputBounds : Bytes :=
  [OP_TX_INPUT_COUNT] ++ pushInt 1 ++ [OP_GREATERTHANOREQUAL, OP_VERIFY] ++
  [OP_TX_INPUT_COUNT] ++ pushInt CROWDFUND_MAX_TX_INPUTS ++ [OP_LESSTHANOREQUAL, OP_VERIFY]

/-- The signature script of an input must have the campaign's id at a fixed distance from its end. -/
def appendCampaignIsolation (index : UInt64) (campaignId : FixedBytes 32) : Bytes :=
  pushInt index ++ pushInt index ++ [OP_TX_INPUT_SCRIPT_SIG_LEN, OP_DUP] ++
    pushInt CAMPAIGN_TAIL_LEN ++ [OP_GREATERTHANOREQUAL, OP_VERIFY, OP_DUP] ++
    pushInt CAMPAIGN_ID_START_FROM_END ++ [OP_SUB, OP_SWAP] ++
    pushInt CAMPAIGN_ID_END_FROM_END ++ [OP_SUB, OP_TX_INPUT_SCRIPT_SIG_SUBSTR] ++
    pushData campaignId.val ++ [OP_EQUALVERIFY]

/-- One round of the loop over the possible inputs. -/
def appendInputBlock (campaignId : FixedBytes 32) (index : Nat) : Bytes :=
  [OP_TX_INPUT_COUNT] ++ pushInt (UInt64.ofNat (index + 1)) ++ [OP_GREATERTHANOREQUAL, OP_IF] ++
    appendCampaignIsolation (UInt64.ofNat index) campaignId ++
    pushInt (UInt64.ofNat index) ++ [OP_TX_INPUT_AMOUNT, OP_ADD, OP_ENDIF]

def appendCampaignInputsTotal (campaignId : FixedBytes 32) : Bytes :=
  pushInt 0 ++ (List.range CROWDFUND_MAX_CONTRIBUTORS).flatMap (appendInputBlock campaignId)

/-- One output to the organizer, of at least the goal and at most the fee below the total. -/
def appendSweepConstraints (goalSompi : UInt64) (organizerSpk : Bytes) : Bytes :=
  [OP_DUP] ++ pushInt goalSompi ++ [OP_GREATERTHANOREQUAL, OP_VERIFY] ++
  [OP_TX_OUTPUT_COUNT] ++ pushInt 1 ++ [OP_NUMEQUALVERIFY] ++
  pushInt 0 ++ [OP_TX_OUTPUT_SPK] ++ pushData organizerSpk ++ [OP_EQUALVERIFY] ++
  [OP_DUP] ++ pushInt 0 ++ [OP_TX_OUTPUT_AMOUNT, OP_GREATERTHANOREQUAL, OP_VERIFY] ++
  pushInt 0 ++ [OP_TX_OUTPUT_AMOUNT, OP_SUB] ++ pushInt CROWDFUND_MAX_SWEEP_FEE_SOMPI ++
    [OP_LESSTHANOREQUAL, OP_VERIFY]

def crowdfundRedeemScript (keyedHash : Bytes → Bytes → FixedBytes 32) (config : CrowdfundScript) :
    Except String Bytes := do
  validateConfig config
  let campaignId := config.campaignId keyedHash
  return pushData config.salt.val ++ [OP_DROP] ++
    [OP_IF] ++ pushPubkey config.contributorPubkey ++ [OP_CHECKSIGVERIFY] ++
      pushInt config.locktimeDaa ++ [OP_CHECKLOCKTIMEVERIFY] ++
    [OP_ELSE] ++ appendProofVerification config.verifyingKeyHash ++ appendInputBounds ++
      appendCampaignInputsTotal campaignId ++
      appendSweepConstraints config.goalSompi config.organizerOutputSpk ++
    [OP_ENDIF] ++ pushData campaignId.val ++ [OP_DROP, OP_1]

/-! ## Nested form -/

/-- The check of one input, as a structured program. -/
def isolationProgram (index : UInt64) (campaignId : FixedBytes 32) : List (Stmt Instr) :=
  [num index, num index, op .txInputScriptSigLen, op .dup, num CAMPAIGN_TAIL_LEN,
    op .greaterThanOrEqual, op .verify, op .dup, num CAMPAIGN_ID_START_FROM_END, op .sub, op .swap,
    num CAMPAIGN_ID_END_FROM_END, op .sub, op .txInputScriptSigSubstr, data campaignId.val,
    op .equalVerify]

/-- Only inputs that exist are checked and added. -/
def inputBlockProgram (campaignId : FixedBytes 32) (index : Nat) : List (Stmt Instr) :=
  [op .txInputCount, num (UInt64.ofNat (index + 1)), op .greaterThanOrEqual,
    .ifThen (isolationProgram (UInt64.ofNat index) campaignId ++
      [num (UInt64.ofNat index), op .txInputAmount, op .add])]

def proofProgram (verifyingKeyHash : FixedBytes 32) : List (Stmt Instr) :=
  [op .dup, op .blake2b, data verifyingKeyHash.val, op .equalVerify, data [GROTH16_TAG],
    op .zkPrecompile, op .verify]

def boundsProgram : List (Stmt Instr) :=
  [op .txInputCount, num 1, op .greaterThanOrEqual, op .verify,
    op .txInputCount, num CROWDFUND_MAX_TX_INPUTS, op .lessThanOrEqual, op .verify]

/-- The amounts of all inputs are added up. -/
def totalProgram (campaignId : FixedBytes 32) : List (Stmt Instr) :=
  num 0 :: (List.range CROWDFUND_MAX_CONTRIBUTORS).flatMap (inputBlockProgram campaignId)

def constraintsProgram (goalSompi : UInt64) (organizerSpk : Bytes) : List (Stmt Instr) :=
  [op .dup, num goalSompi, op .greaterThanOrEqual, op .verify,
    op .txOutputCount, num 1, op .numEqualVerify,
    num 0, op .txOutputSpk, data organizerSpk, op .equalVerify,
    op .dup, num 0, op .txOutputAmount, op .greaterThanOrEqual, op .verify,
    num 0, op .txOutputAmount, op .sub, num CROWDFUND_MAX_SWEEP_FEE_SOMPI, op .lessThanOrEqual,
    op .verify]

/-- The organizer's branch: proof, bounds, total, output. -/
def sweepProgram (config : CrowdfundScript) (campaignId : FixedBytes 32) : List (Stmt Instr) :=
  proofProgram config.verifyingKeyHash ++ (boundsProgram ++ (totalProgram campaignId ++
    constraintsProgram config.goalSompi config.organizerOutputSpk))

/-- The whole script. -/
def crowdfundProgram (config : CrowdfundScript) (campaignId : FixedBytes 32) :
    List (Stmt Instr) :=
  [data config.salt.val, op .drop,
    .ifElse
      [data config.contributorPubkey.val, op .checkSigVerify, num config.locktimeDaa,
        op .checkLockTimeVerify]
      (sweepProgram config campaignId),
    data campaignId.val, op .drop, data [1]]

theorem tokenize_inputBlock (campaignId : FixedBytes 32) (index : Nat) (rest : Bytes) :
    tokenize (appendInputBlock campaignId index ++ rest) =
      (tokenize rest).map (flattenAll (inputBlockProgram campaignId index) ++ ·) := by
  unfold appendInputBlock appendCampaignIsolation
  simp [inputBlockProgram, isolationProgram, Function.comp_def]

theorem tokenize_inputBlocks (campaignId : FixedBytes 32) (indices : List Nat) (rest : Bytes) :
    tokenize (indices.flatMap (appendInputBlock campaignId) ++ rest) =
      (tokenize rest).map (flattenAll (indices.flatMap (inputBlockProgram campaignId)) ++ ·) := by
  induction indices with
  | nil => simp
  | cons index indices ih =>
    rw [List.flatMap_cons, List.flatMap_cons, List.append_assoc, tokenize_inputBlock, ih]
    simp [Function.comp_def]

/-- The bytes of the builder are this program. -/
theorem tokenize_crowdfundScript {keyedHash : Bytes → Bytes → FixedBytes 32}
    {config : CrowdfundScript} {script : Bytes}
    (h : crowdfundRedeemScript keyedHash config = .ok script) :
    tokenize script = some (flattenAll (crowdfundProgram config (config.campaignId keyedHash))) := by
  unfold crowdfundRedeemScript at h
  cases hv : validateConfig config with
  | error e => rw [hv] at h; cases h
  | ok u =>
    rw [hv] at h
    obtain rfl := Except.ok.inj h
    have hspk : Pushable config.organizerOutputSpk := by
      unfold validateConfig at hv
      split at hv
      · cases hv
      · split at hv
        · cases hv
        · split at hv
          · cases hv
          · rename_i hlen
            exact pushable_of_le (n := 260) (by omega) (by decide)
    have htag : Pushable [GROTH16_TAG] := by decide
    unfold appendProofVerification appendInputBounds appendCampaignInputsTotal
      appendSweepConstraints
    simp [crowdfundProgram, sweepProgram, proofProgram, boundsProgram, totalProgram,
      constraintsProgram, tokenize_inputBlocks, hspk, htag]

/-! ## What the fragments check -/

section fragments
variable {env : Env} {s r : Stack} {p : List (Stmt Instr)}

/-- The id stands where the redeem script's fixed tail pushes it: the 32 octets
that end two octets before the end, behind one more octet. -/
def CarriesCampaignTail (sigScript : Bytes) (campaignId : FixedBytes 32) : Prop :=
  ∃ front head dropOne, sigScript = front ++ head :: (campaignId.val ++ dropOne) ∧
    dropOne.length = 2

/-- What the script compared is the id at its place in the tail. -/
theorem carriesCampaignTail_of_slice {sigScript : Bytes} {campaignId : FixedBytes 32}
    (hlen : 35 ≤ sigScript.length)
    (h : slice sigScript (sigScript.length - 34) (sigScript.length - 2) = some campaignId.val) :
    CarriesCampaignTail sigScript campaignId := by
  obtain ⟨-, -, hid⟩ := slice_eq_some h
  generalize hn : sigScript.length = n at hlen hid
  have hlt : n - 35 < sigScript.length := by omega
  refine ⟨sigScript.take (n - 35), sigScript[n - 35], sigScript.drop (n - 2), ?_,
    by rw [List.length_drop]; omega⟩
  have hfront : sigScript.take (n - 34) = sigScript.take (n - 35) ++ [sigScript[n - 35]] := by
    rw [List.take_append_getElem hlt]
    congr 1
    omega
  have hmid : sigScript.take (n - 2) = sigScript.take (n - 34) ++ campaignId.val := by
    rw [hid, show sigScript.take (n - 34) = (sigScript.take (n - 2)).take (n - 34) by
      rw [List.take_take, Nat.min_eq_left (by omega)], List.take_append_drop]
  calc sigScript = sigScript.take (n - 2) ++ sigScript.drop (n - 2) :=
        (List.take_append_drop _ _).symm
    _ = _ := by simp only [hmid, hfront, List.append_assoc, List.cons_append, List.nil_append]

/-- The signature script an input has, of at least `least` octets: its length stands
above the input's position. -/
theorem evals_sigScriptAtLeast {index least : UInt64}
    (h : Evals env (num index :: num index :: op .txInputScriptSigLen :: op .dup :: num least ::
      op .greaterThanOrEqual :: op .verify :: p) s r) :
    ∃ input, env.tx.tx.inputs[index.toNat]? = some input ∧ least.toNat ≤ input.sigScript.length ∧
      Evals env p (encodeNum input.sigScript.length :: encodeNum index.toNat :: s) r := by
  simp at h
  obtain ⟨-, input, hin, -, -, hlen, hp⟩ := h
  exact ⟨input, hin, hlen, hp⟩

/-- Two distances from its end, measured below the length of a signature script. -/
theorem evals_tailRange {start stop : UInt64} {n k : Nat}
    (h : Evals env (op .dup :: num start :: op .sub :: op .swap :: num stop :: op .sub :: p)
      (encodeNum n :: encodeNum k :: s) r) :
    Evals env p (encodeNum (n - stop.toNat) :: encodeNum (n - start.toNat) :: encodeNum k :: s) r := by
  obtain ⟨x, s', hs, h⟩ := evals_dup.mp h
  cases hs
  obtain ⟨y, x, s', hs, h⟩ := evals_swap.mp (evals_subNum h)
  cases hs
  exact evals_subNum h

/-- A program that passed the check found the id there. -/
theorem evals_isolation {index : UInt64} {campaignId : FixedBytes 32}
    (h : Evals env (isolationProgram index campaignId ++ p) s r) :
    (∃ input, env.tx.tx.inputs[index.toNat]? = some input ∧
      CarriesCampaignTail input.sigScript campaignId) ∧ Evals env p s r := by
  obtain ⟨input, hin, hlen, h⟩ := evals_sigScriptAtLeast h
  obtain ⟨part, -, hpart, h⟩ := evals_sigScriptSubstr hin (evals_tailRange h)
  rw [Int.toNat_sub, Int.toNat_sub] at hpart
  simp at h
  obtain ⟨rfl, hp⟩ := h
  exact ⟨⟨input, hin, carriesCampaignTail_of_slice hlen hpart⟩, hp⟩

/-- The amount at a position, zero past the last input. -/
def amountAt (t : PopulatedTransaction) (index : Nat) : Nat :=
  (t.entries[index]?.map (·.amount.toNat)).getD 0

/-- One round of the loop adds the input's amount, or nothing past the end. -/
theorem evals_inputBlock {index total : Nat} {campaignId : FixedBytes 32}
    (hi : index < CROWDFUND_MAX_CONTRIBUTORS)
    (h : Evals env (inputBlockProgram campaignId index ++ p) (encodeNum total :: s) r) :
    (∀ input, env.tx.tx.inputs[index]? = some input →
      CarriesCampaignTail input.sigScript campaignId) ∧
    Evals env p (encodeNum ((total + amountAt env.tx index : Nat) : Int) :: s) r := by
  unfold CROWDFUND_MAX_CONTRIBUTORS at hi
  have hn : (UInt64.ofNat index).toNat = index := by
    rw [UInt64.toNat_ofNat']
    omega
  have hn1 : (UInt64.ofNat (index + 1)).toNat = index + 1 := by
    rw [UInt64.toNat_ofNat']
    omega
  simp only [inputBlockProgram, List.cons_append, List.nil_append] at h
  generalize UInt64.ofNat (index + 1) = k1 at h hn1
  generalize UInt64.ofNat index = k at h hn
  simp at h
  obtain ⟨-, -, m, ⟨hle, hin⟩ | ⟨hgt, rfl⟩, hp⟩ := h
  · obtain ⟨⟨input, hinput, htail⟩, hadd⟩ := evals_isolation hin
    simp at hadd
    obtain ⟨-, e, he, -, -, -, -, rfl⟩ := hadd
    rw [hn] at he hinput
    have hamount : amountAt env.tx index = e.amount.toNat := by simp [amountAt, he]
    rw [hamount, Nat.cast_add]
    refine ⟨fun input' hinput' => ?_, hp⟩
    obtain rfl : input = input' := Option.some.inj (hinput.symm.trans hinput')
    exact htail
  · have hnone : env.tx.tx.inputs[index]? = none := List.getElem?_eq_none (by omega)
    have hzero : amountAt env.tx index = 0 := by
      rw [amountAt, List.getElem?_eq_none (by rw [env.tx.entries_length]; omega)]
      rfl
    rw [hzero]
    refine ⟨fun input hinput => ?_, hp⟩
    rw [hnone] at hinput
    cases hinput

/-- The whole loop: every input in reach carries the tail, and the total is the
sum of their amounts. -/
theorem evals_inputBlocks {campaignId : FixedBytes 32} (n index total : Nat)
    (hn : index + n ≤ CROWDFUND_MAX_CONTRIBUTORS)
    (h : Evals env ((List.range' index n).flatMap (inputBlockProgram campaignId) ++ p)
      (encodeNum total :: s) r) :
    (∀ i, index ≤ i → i < index + n → ∀ input, env.tx.tx.inputs[i]? = some input →
      CarriesCampaignTail input.sigScript campaignId) ∧
    Evals env p (encodeNum ((total + ((List.range' index n).map (amountAt env.tx)).sum : Nat) : Int)
      :: s) r := by
  induction n generalizing index total with
  | zero => exact ⟨fun i h₁ h₂ => by omega, by simpa using h⟩
  | succ n ih =>
    rw [List.range'_succ, List.flatMap_cons, List.append_assoc] at h
    obtain ⟨hfirst, h⟩ := evals_inputBlock (by omega) h
    obtain ⟨hrest, h⟩ := ih (index + 1) _ (by omega) h
    refine ⟨fun i h₁ h₂ => ?_, ?_⟩
    · rcases Nat.eq_or_lt_of_le h₁ with rfl | hlt
      · exact hfirst
      · exact hrest i hlt (by omega)
    · rw [List.range'_succ, List.map_cons, List.sum_cons, ← Nat.add_assoc]
      exact h

/-- Adding up by index, with zero past the end, adds up the list. -/
theorem sum_getElem?_getD (amount : UtxoEntry → Nat) : ∀ (entries : List UtxoEntry) (n : Nat),
    entries.length ≤ n →
    ((List.range n).map fun i => (entries[i]?.map amount).getD 0).sum = (entries.map amount).sum
  | [], n, _ => by simp
  | e :: entries, n + 1, h => by
    have ih := sum_getElem?_getD amount entries n (by simpa using h)
    rw [List.range_succ_eq_map]
    simpa [Function.comp_def] using ih

/-- What is left on the stack is the total, and every input had the id in its tail. -/
theorem evals_total {campaignId : FixedBytes 32}
    (hlen : env.tx.tx.inputs.length ≤ CROWDFUND_MAX_CONTRIBUTORS)
    (h : Evals env (totalProgram campaignId ++ p) s r) :
    (∀ input ∈ env.tx.tx.inputs, CarriesCampaignTail input.sigScript campaignId) ∧
    Evals env p (encodeNum ((env.tx.entries.map (·.amount.toNat)).sum : Nat) :: s) r := by
  rw [totalProgram, List.cons_append, evals_push, List.range_eq_range'] at h
  obtain ⟨htails, h⟩ := evals_inputBlocks _ 0 0 (by omega) h
  refine ⟨fun input hinput => ?_, ?_⟩
  · obtain ⟨i, hi⟩ := List.getElem?_of_mem hinput
    have := (List.getElem?_eq_some_iff.mp hi).1
    exact htails i (Nat.zero_le i) (by omega) input hi
  · rw [← List.range_eq_range', Nat.zero_add] at h
    rwa [← sum_getElem?_getD _ _ _ (env.tx.entries_length.trans_le hlen)]

/-- The bounds on the number of inputs. -/
theorem evals_bounds (h : Evals env (boundsProgram ++ p) s r) :
    (1 ≤ env.tx.tx.inputs.length ∧ env.tx.tx.inputs.length ≤ CROWDFUND_MAX_CONTRIBUTORS) ∧
      Evals env p s r := by
  have hmax : CROWDFUND_MAX_TX_INPUTS.toNat = CROWDFUND_MAX_CONTRIBUTORS := by decide
  simp only [boundsProgram, List.cons_append, List.nil_append] at h
  simp [hmax] at h
  obtain ⟨hpos, hmax, hp⟩ : 1 ≤ env.tx.tx.inputs.length ∧
      env.tx.tx.inputs.length ≤ CROWDFUND_MAX_CONTRIBUTORS ∧ Evals env p s r := by
    tauto
  exact ⟨⟨hpos, hmax⟩, hp⟩

/-- The proof check leaves something of the witness behind. -/
theorem evals_proof {verifyingKeyHash : FixedBytes 32}
    (h : Evals env (proofProgram verifyingKeyHash ++ p) s r) : ∃ s', Evals env p s' r := by
  rw [evals_append] at h
  obtain ⟨s', -, hp⟩ := h
  exact ⟨s', hp⟩

/-- The total reaches the goal. -/
theorem evals_goal {goalSompi : UInt64} {total : Nat}
    (h : Evals env (op .dup :: num goalSompi :: op .greaterThanOrEqual :: op .verify :: p)
      (encodeNum total :: s) r) :
    goalSompi.toNat ≤ total ∧ Evals env p (encodeNum total :: s) r := by
  simp at h
  exact h.2.2

/-- There is one output, and it pays the script. -/
theorem evals_soleOutput {spk : Bytes}
    (h : Evals env (op .txOutputCount :: num 1 :: op .numEqualVerify :: num 0 :: op .txOutputSpk ::
      data spk :: op .equalVerify :: p) s r) :
    ∃ out, env.tx.tx.outputs = [out] ∧ out.spk = spk ∧ Evals env p s r := by
  simp at h
  obtain ⟨-, hone, out₀, hout₀, hspk, hp⟩ := h
  obtain ⟨out, hout⟩ := List.length_eq_one_iff.mp (by exact_mod_cast hone.symm)
  rw [hout, List.getElem?_cons_zero] at hout₀
  obtain rfl := Option.some.inj hout₀
  exact ⟨out, hout, hspk, hp⟩

/-- The bounds on the output. -/
theorem evals_constraints {goalSompi : UInt64} {organizerSpk : Bytes} {total : Nat}
    (h : Evals env (constraintsProgram goalSompi organizerSpk) (encodeNum total :: s) r) :
    goalSompi.toNat ≤ total ∧ ∃ out, env.tx.tx.outputs = [out] ∧ out.spk = organizerSpk ∧
      out.value.toNat ≤ total ∧
      total ≤ out.value.toNat + CROWDFUND_MAX_SWEEP_FEE_SOMPI.toNat := by
  obtain ⟨hgoal, h⟩ := evals_goal h
  obtain ⟨out, hout, hspk, h⟩ := evals_soleOutput h
  obtain ⟨o₁, h₁, -, hwithin, h⟩ := evals_coversFirst.mp h
  obtain ⟨o₂, h₂, -, hfee, -⟩ := evals_leavesFee.mp h
  obtain ⟨rfl, rfl⟩ : out = o₁ ∧ out = o₂ := by
    simp only [hout, List.getElem?_cons_zero, Option.some.injEq] at h₁ h₂
    exact ⟨h₁, h₂⟩
  exact ⟨hgoal, out, hout, hspk, hwithin, hfee⟩

end fragments
end KaspaPortal.Contract.Crowdfund
