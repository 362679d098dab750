import KaspaPortal.Contract.Crowdfund

/-!
# The two ways to spend a contribution

A contribution is refunded to its contributor after the timeout or swept with
everything else in the transaction to the organizer. The sweep's facts come from
the fragments of the script in order: input bounds, the unrolled loop over the
inputs, and the constraints on the total it leaves.

The loop reads the campaign id of an input at a fixed distance from the end of
its signature script. It does not read the push opcode in front of the id nor
the two opcodes behind it, so an input need not end with the tail that
`crowdfundRedeemScript` writes (`crowdfund_sweep_without_tail`); the builder
leaves such inputs to add their own value to the sweep.

The proof of a sweep is checked by a parameter, and the signature of a refund by
another.
-/
set_option maxRecDepth 100000

namespace KaspaPortal.Guarantees
open Lib Primitives Transaction Contract.Script Engine Contract.Crowdfund

namespace CrowdfundSpends

/-- Signed by the contributor, with a transaction lock time past the timeout. -/
def Refunds (env : Env) (w : Stack) (config : CrowdfundScript) : Prop :=
  (∃ sig ∈ w, env.crypto.checkSig env.tx env.index sig config.contributorPubkey.val = true) ∧
    config.locktimeDaa ≤ env.tx.tx.locktime

def inputTotal (t : PopulatedTransaction) : Nat := (t.entries.map (·.amount.toNat)).sum

/-- What a sweep checks: the number of inputs, the place of the campaign id in
each, the goal, and the one output with its bounded fee. -/
structure Sweeps (env : Env) (config : CrowdfundScript) (campaignId : FixedBytes 32) : Prop where
  inputs : 1 ≤ env.tx.tx.inputs.length ∧
    env.tx.tx.inputs.length ≤ CROWDFUND_MAX_TX_INPUTS.toNat
  tails : ∀ input ∈ env.tx.tx.inputs, CarriesCampaignTail input.sigScript campaignId
  goal : config.goalSompi.toNat ≤ inputTotal env.tx
  output : ∃ out, env.tx.tx.outputs = [out] ∧ out.spk = config.organizerOutputSpk ∧
    (0 : Int) ≤ (inputTotal env.tx : Int) - out.value.toNat ∧
    (inputTotal env.tx : Int) - out.value.toNat ≤ CROWDFUND_MAX_SWEEP_FEE_SOMPI.toNat

/-- Equal terms, the contributor's key and the salt apart. -/
def SameCampaign (a b : CrowdfundScript) : Prop :=
  a.goalSompi = b.goalSompi ∧ a.locktimeDaa = b.locktimeDaa ∧
    a.verifyingKeyHash = b.verifyingKeyHash ∧ a.organizerOutputSpk = b.organizerOutputSpk

/-- The two campaigns' preimages do not collide. -/
def NoCollision (keyedHash : Bytes → Bytes → FixedBytes 32) (a b : CrowdfundScript) : Prop :=
  let preimage (x : CrowdfundScript) :=
    campaignPreimage x.goalSompi x.locktimeDaa x.verifyingKeyHash x.organizerOutputSpk
  keyedHash campaignDomain (preimage a) = keyedHash campaignDomain (preimage b) →
    preimage a = preimage b

/-- The end of every redeem script of the campaign: the push of its id, dropped
again, and the final true. -/
def campaignTail (campaignId : FixedBytes 32) : Bytes :=
  pushData campaignId.val ++ [OP_DROP, OP_1]

/-- The preimage is read back field by field: every field but the last has a
fixed width. -/
theorem campaignPreimage_inj {g g' l l' : UInt64} {k k' : FixedBytes 32} {o o' : Bytes}
    (h : campaignPreimage g l k o = campaignPreimage g' l' k' o') :
    g = g' ∧ l = l' ∧ k = k' ∧ o = o' := by
  simp only [campaignPreimage, List.append_assoc] at h
  obtain ⟨hk, h⟩ := List.append_inj h (by rw [k.property, k'.property])
  obtain ⟨hg, h⟩ := List.append_inj h (by simp)
  obtain ⟨hl, h⟩ := List.append_inj h (by simp)
  obtain ⟨-, ho⟩ := List.append_inj h (by simp)
  exact ⟨leBytes_toNat_inj hg, leBytes_toNat_inj hl, Subtype.ext hk, ho⟩

theorem sweep_sound {env : Env} {config : CrowdfundScript} {campaignId : FixedBytes 32}
    {s r : Stack} (h : Evals env (sweepProgram config campaignId) s r) :
    Sweeps env config campaignId := by
  obtain ⟨s, h⟩ := evals_proof h
  obtain ⟨hcount, h⟩ := evals_bounds h
  obtain ⟨htails, h⟩ := evals_total hcount.2 h
  obtain ⟨hgoal, out, hout, hspk, hle, hfee⟩ := evals_constraints h
  exact ⟨hcount, htails, hgoal, out, hout, hspk, by rw [inputTotal]; omega,
    by rw [inputTotal]; omega⟩

end CrowdfundSpends
open CrowdfundSpends

/-- Every accepted spend of a contribution is a refund or a sweep, and the
campaign id fixes the campaign's terms. -/
theorem crowdfund_spends {keyedHash : Bytes → Bytes → FixedBytes 32} {config : CrowdfundScript}
    {script : Bytes} (hbuild : crowdfundRedeemScript keyedHash config = .ok script) {env : Env}
    {w : Stack} (hacc : succeeds env script w = true) :
    (Refunds env w config ∨ Sweeps env config (config.campaignId keyedHash)) ∧
    ∀ other, NoCollision keyedHash other config →
      other.campaignId keyedHash = config.campaignId keyedHash → SameCampaign other config := by
  constructor
  · obtain ⟨v, hev, -⟩ := (succeeds_iff (tokenize_crowdfundScript hbuild) w).mp hacc
    simp only [crowdfundProgram] at hev
    simp at hev
    obtain ⟨selector, s, rfl, ⟨-, sig, rfl, hsig, -, hmet⟩ | ⟨-, hsweep⟩, -⟩ := hev
    · exact Or.inl ⟨⟨sig, by simp, hsig⟩, UInt64.le_iff_toNat_le.mpr hmet⟩
    · exact Or.inr (sweep_sound hsweep)
  · intro other hcoll heq
    exact campaignPreimage_inj (hcoll heq)

namespace CrowdfundSpends

def sampleHash (_ data : Bytes) : FixedBytes 32 := padTo32 data

def sampleConfig : CrowdfundScript where
  contributorPubkey := filled 1 32
  goalSompi := 1000
  locktimeDaa := 5000
  verifyingKeyHash := padTo32 [1]
  organizerOutputSpk := spkBytes 0 (pushPubkey (filled 9 32) ++ [OP_CHECKSIG])
  salt := filled 7 8

def sampleScript : Bytes := (crowdfundRedeemScript sampleHash sampleConfig).toOption.getD []

/-- Two contributions of 600 and 500 swept to the organizer for a fee of 50. -/
def sampleSweep : PopulatedTransaction where
  tx := {
    txVersion := 0
    inputs := [⟨filled 2 32, 0, pushData sampleScript, 0, 0⟩,
      ⟨filled 3 32, 0, pushData sampleScript, 0, 0⟩]
    outputs := [⟨1050, 0, pushPubkey (filled 9 32) ++ [OP_CHECKSIG], none⟩]
    locktime := 0
    subnetworkId := filled 0 20
    gas := 0
    payload := [] }
  entries := [⟨600, 0, p2shScript (sampleCrypto.blake2b sampleScript), none⟩,
    ⟨500, 0, p2shScript (sampleCrypto.blake2b sampleScript), none⟩]
  entries_length := rfl

/-- The one proof that verifies here is `[2]` of the public input `[3]` under the key `[1]`. -/
def sampleEnv : Env where
  crypto := { sampleCrypto with
    groth16 := fun verifyingKey proof inputs =>
      decide (verifyingKey = [1] ∧ proof = [2] ∧ inputs = [[3]]) }
  tx := sampleSweep
  index := 0

end CrowdfundSpends

theorem crowdfund_spends_sweep :
    crowdfundRedeemScript sampleHash sampleConfig = .ok sampleScript ∧
    succeeds sampleEnv sampleScript [[], [1], [2], [1], [3]] = true ∧
    (Refunds sampleEnv [[], [1], [2], [1], [3]] sampleConfig ∨
      Sweeps sampleEnv sampleConfig (sampleConfig.campaignId sampleHash)) := by
  have hbuild : crowdfundRedeemScript sampleHash sampleConfig = .ok sampleScript := rfl
  have hacc : succeeds sampleEnv sampleScript [[], [1], [2], [1], [3]] = true := by decide
  exact ⟨hbuild, hacc, (crowdfund_spends hbuild hacc).1⟩

namespace CrowdfundSpends

/-- `OP_2`, as true a result as the tail's `OP_1`. -/
def opTwo : UInt8 := 0x52

/-- The campaign's tail with another last opcode: a redeem script anyone can spend. -/
def openRedeem : Bytes :=
  pushData (sampleConfig.campaignId sampleHash).val ++ [OP_DROP, opTwo]

/-- The sweep of one contribution together with an input of `openRedeem`. -/
def mixedSweep : PopulatedTransaction where
  tx := { sampleSweep.tx with
    inputs := [⟨filled 2 32, 0, pushData sampleScript, 0, 0⟩,
      ⟨filled 3 32, 0, pushData openRedeem, 0, 0⟩] }
  entries := [⟨600, 0, p2shScript (sampleCrypto.blake2b sampleScript), none⟩,
    ⟨500, 0, p2shScript (sampleCrypto.blake2b openRedeem), none⟩]
  entries_length := rfl

def mixedEnv : Env := { sampleEnv with tx := mixedSweep, index := 0 }

end CrowdfundSpends

/-- The contribution is swept although the other input's signature script does
not end with the tail, and nobody signed for a refund. -/
theorem crowdfund_sweep_without_tail :
    crowdfundRedeemScript sampleHash sampleConfig = .ok sampleScript ∧
    campaignTail (sampleConfig.campaignId sampleHash) <:+ sampleScript ∧
    succeeds mixedEnv sampleScript [[], [1], [2], [1], [3]] = true ∧
    ¬ Refunds mixedEnv [[], [1], [2], [1], [3]] sampleConfig ∧
    ∃ input ∈ mixedEnv.tx.tx.inputs,
      ¬ campaignTail (sampleConfig.campaignId sampleHash) <:+ input.sigScript := by
  refine ⟨rfl, by decide, by decide, ?_, ?_⟩
  · rintro ⟨-, hlock⟩
    exact absurd hlock (by decide)
  · exact ⟨⟨filled 3 32, 0, pushData openRedeem, 0, 0⟩, by decide, by decide⟩

end KaspaPortal.Guarantees
