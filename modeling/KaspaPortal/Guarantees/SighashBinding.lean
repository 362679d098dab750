import KaspaPortal.Lib.Framing
import KaspaPortal.Transaction.Sighash

/-!
# What a signature hash binds

The message of a SIGHASH_ALL signature is a hash of hashes. As long as the hash has no
collision among the strings it is given for two transactions, and none of them goes to
the zeros that stand for an absent part, equal messages come from transactions that
agree on everything a signature is meant to fix.

The other types of a signature hash leave parts of a transaction free by design and
are not compared.
-/
set_option maxRecDepth 100000

namespace KaspaPortal.Guarantees
open Lib Transaction Transaction.Model

namespace SighashBinding

variable {hash : Bytes → FixedBytes 32}

/-! ## The strings that are hashed -/

def outpointBytes (tx : SighashSource) : Bytes :=
  tx.inputs.flatMap fun input => input.transactionId.val ++ leBytes 4 input.index.toNat

def sequenceBytes (tx : SighashSource) : Bytes :=
  tx.inputs.flatMap fun input => leBytes 8 input.sequence.toNat

def sigOpBytes (tx : SighashSource) : Bytes := tx.inputs.map fun input => input.sigOpCount

def outputBytes (tx : SighashSource) : Bytes :=
  tx.outputs.flatMap fun output => hashOutput output tx.version

def payloadBytes (tx : SighashSource) : Bytes := leBytes 8 tx.payload.length ++ tx.payload

/-- The transaction's own part of the message, behind the input's. -/
def tailBytes (hash : Bytes → FixedBytes 32) (tx : SighashSource) : Bytes :=
  (hash (outputBytes tx)).val ++ (leBytes 8 tx.locktime.toNat ++ (tx.subnetworkId.val ++
    (leBytes 8 tx.gas.toNat ++ ((payloadHash hash tx).val ++ [SigHashType.all.toByte]))))

def inputBytes (tx : SighashSource) (input : SighashInput) (rest : Bytes) : Bytes :=
  input.transactionId.val ++ (leBytes 4 input.index.toNat ++ (leBytes 2 input.scriptVersion.toNat ++
    (leBytes 8 input.script.length ++ (input.script ++ (leBytes 8 input.amount.toNat ++
      (leBytes 8 input.sequence.toNat ++
        ((if tx.version = 0 then [input.sigOpCount] else []) ++ rest)))))))

def messageBytes (hash : Bytes → FixedBytes 32) (tx : SighashSource) (input : SighashInput) : Bytes :=
  leBytes 2 tx.version.toNat ++ ((hash (outpointBytes tx)).val ++ ((hash (sequenceBytes tx)).val ++
    ((if tx.version = 0 then (hash (sigOpBytes tx)).val else []) ++
      inputBytes tx input (tailBytes hash tx))))

/-- Every string the hash is given for the message of an input. -/
def hashed (hash : Bytes → FixedBytes 32) (tx : SighashSource) (input : SighashInput) : List Bytes :=
  [messageBytes hash tx input, outpointBytes tx, sequenceBytes tx, outputBytes tx] ++
    (if tx.version = 0 then [sigOpBytes tx] else []) ++
    if tx.subnetworkId = SUBNETWORK_ID_NATIVE ∧ tx.payload = [] then [] else [payloadBytes tx]

theorem calculateSighash_eq {tx : SighashSource} {index : Nat} {input : SighashInput}
    (hi : tx.inputs[index]? = some input) :
    calculateSighash hash tx index .all = hash (messageBytes hash tx input) := by
  have hprev : previousOutputsHash hash tx .all = hash (outpointBytes tx) := if_neg (by decide)
  have hseq : sequencesHash hash tx .all = hash (sequenceBytes tx) := if_neg (by decide)
  have hops : sigOpCountsHash hash tx .all = hash (sigOpBytes tx) := if_neg (by decide)
  have hout : outputsHash hash tx .all index = hash (outputBytes tx) := by
    rw [outputsHash, if_neg (by decide), if_neg (by decide), outputBytes]
  rw [calculateSighash, hi]
  simp only [hprev, hseq, hops, hout, messageBytes, inputBytes, tailBytes, List.append_assoc]

/-- No collision among the strings, and none of them hashes to zeros. -/
structure Binding (hash : Bytes → FixedBytes 32) (strings : List Bytes) : Prop where
  injective : ∀ a ∈ strings, ∀ b ∈ strings, hash a = hash b → a = b
  nonzero : ∀ a ∈ strings, hash a ≠ zeros 32

/-- Lengths are 64-bit integers, as every length of the source's is. -/
structure Addressable (tx : SighashSource) : Prop where
  inputs : ∀ input ∈ tx.inputs, input.script.length < 2 ^ 64
  outputs : ∀ output ∈ tx.outputs, output.script.length < 2 ^ 64
  payload : tx.payload.length < 2 ^ 64

/-! ## Reading the strings back -/

theorem outpoints_delimit : Delimits
    (fun input : SighashInput => input.transactionId.val ++ leBytes 4 input.index.toNat)
    (fun _ => True) fun input => (input.transactionId, input.index) := by
  intro a b _ _ r s h
  simp only [List.append_assoc] at h
  obtain ⟨hid, h⟩ := fixed_append_inj h
  obtain ⟨hindex, h⟩ := u32_append_inj h
  exact ⟨Prod.ext hid hindex, h⟩

theorem sequences_delimit : Delimits
    (fun input : SighashInput => leBytes 8 input.sequence.toNat) (fun _ => True) (·.sequence) := by
  intro a b _ _ r s h
  exact u64_append_inj h

/-- What the hash of the outputs covers of one output. -/
def covered (version : UInt16) (output : SighashOutput) :
    UInt64 × UInt16 × Bytes × Option (UInt16 × FixedBytes 32) :=
  (output.value, output.scriptVersion, output.script,
    if 1 ≤ version then output.covenant else none)

theorem outputs_delimit (version : UInt16) : Delimits (fun output => hashOutput output version)
    (fun output => output.script.length < 2 ^ 64) (covered version) := by
  intro a b ha hb r s h
  simp only [hashOutput, List.append_assoc] at h
  obtain ⟨hvalue, h⟩ := u64_append_inj h
  obtain ⟨hversion, h⟩ := u16_append_inj h
  obtain ⟨hscript, h⟩ := counted_append_inj ha hb h
  by_cases hv : 1 ≤ version
  · rw [if_pos hv, if_pos hv] at h
    have hcovenant : a.covenant = b.covenant ∧ r = s := by
      cases hca : a.covenant with
      | none =>
        cases hcb : b.covenant with
        | none => simpa [hca, hcb] using h
        | some tag => simp [hca, hcb] at h
      | some tag =>
        cases hcb : b.covenant with
        | none => simp [hca, hcb] at h
        | some tag' =>
          rw [hca, hcb] at h
          simp only [List.cons_append, List.nil_append, List.append_assoc, List.cons.injEq,
            true_and] at h
          obtain ⟨hauth, h⟩ := u16_append_inj h
          obtain ⟨hid, h⟩ := fixed_append_inj h
          exact ⟨congrArg some (Prod.ext hauth hid), h⟩
    simp [covered, hv, hvalue, hversion, hscript, hcovenant]
  · rw [if_neg hv, if_neg hv] at h
    exact ⟨by simp [covered, hv, hvalue, hversion, hscript], h⟩

theorem hashOutput_ne_nil (version : UInt16) (output : SighashOutput) :
    hashOutput output version ≠ [] := by
  intro h
  have hlen := congrArg List.length h
  simp [hashOutput] at hlen

/-- The signed input's own fields, and what follows them. -/
theorem inputBytes_inj {tx tx' : SighashSource} {input input' : SighashInput} {r s : Bytes}
    (hversion : tx.version = tx'.version) (hlen : input.script.length < 2 ^ 64)
    (hlen' : input'.script.length < 2 ^ 64) (h : inputBytes tx input r = inputBytes tx' input' s) :
    (input.transactionId = input'.transactionId ∧ input.index = input'.index ∧
      input.scriptVersion = input'.scriptVersion ∧ input.script = input'.script ∧
      input.amount = input'.amount ∧ input.sequence = input'.sequence) ∧ r = s := by
  unfold inputBytes at h
  obtain ⟨hid, h⟩ := fixed_append_inj h
  obtain ⟨hindex, h⟩ := u32_append_inj h
  obtain ⟨hsv, h⟩ := u16_append_inj h
  obtain ⟨hscript, h⟩ := counted_append_inj hlen hlen' h
  obtain ⟨hamount, h⟩ := u64_append_inj h
  obtain ⟨hsequence, h⟩ := u64_append_inj h
  rw [hversion] at h
  refine ⟨⟨hid, hindex, hsv, hscript, hamount, hsequence⟩, ?_⟩
  split at h
  · exact (List.cons.inj h).2
  · exact h

/-- Equal payload hashes come from equal payloads. -/
theorem payload_eq {tx tx' : SighashSource} {strings : List Bytes} (hb : Binding hash strings)
    (ha : Addressable tx) (ha' : Addressable tx')
    (hmem : ¬ (tx.subnetworkId = SUBNETWORK_ID_NATIVE ∧ tx.payload = []) → payloadBytes tx ∈ strings)
    (hmem' : ¬ (tx'.subnetworkId = SUBNETWORK_ID_NATIVE ∧ tx'.payload = []) →
      payloadBytes tx' ∈ strings)
    (h : payloadHash hash tx = payloadHash hash tx') : tx.payload = tx'.payload := by
  unfold payloadHash at h
  by_cases hnone : tx.subnetworkId = SUBNETWORK_ID_NATIVE ∧ tx.payload = []
  · rw [if_pos hnone] at h
    by_cases hnone' : tx'.subnetworkId = SUBNETWORK_ID_NATIVE ∧ tx'.payload = []
    · rw [hnone.2, hnone'.2]
    · rw [if_neg hnone'] at h
      exact absurd h.symm (hb.nonzero _ (hmem' hnone'))
  · rw [if_neg hnone] at h
    by_cases hnone' : tx'.subnetworkId = SUBNETWORK_ID_NATIVE ∧ tx'.payload = []
    · rw [if_pos hnone'] at h
      exact absurd h (hb.nonzero _ (hmem hnone))
    · rw [if_neg hnone'] at h
      have hbytes := hb.injective _ (hmem hnone) _ (hmem' hnone') h
      unfold payloadBytes at hbytes
      exact (counted_append_inj (r := []) (s := []) ha.payload ha'.payload (by simpa using hbytes)).1

/-! ## What two signed transactions share -/

/-- The two transactions, and the inputs signed in them, agree on all that is signed. -/
structure SameCommitments (tx tx' : SighashSource) (input input' : SighashInput) : Prop where
  version : tx.version = tx'.version
  outpoints : tx.inputs.map (fun input => (input.transactionId, input.index)) =
    tx'.inputs.map fun input => (input.transactionId, input.index)
  sequences : tx.inputs.map (·.sequence) = tx'.inputs.map (·.sequence)
  sigOpCounts : tx.version = 0 → tx.inputs.map (·.sigOpCount) = tx'.inputs.map (·.sigOpCount)
  outpoint : input.transactionId = input'.transactionId ∧ input.index = input'.index
  script : input.scriptVersion = input'.scriptVersion ∧ input.script = input'.script
  amount : input.amount = input'.amount
  sequence : input.sequence = input'.sequence
  outputs : tx.outputs.map (fun output => (output.value, output.scriptVersion, output.script)) =
    tx'.outputs.map fun output => (output.value, output.scriptVersion, output.script)
  covenants : 1 ≤ tx.version → tx.outputs.map (·.covenant) = tx'.outputs.map (·.covenant)
  locktime : tx.locktime = tx'.locktime
  subnetworkId : tx.subnetworkId = tx'.subnetworkId
  gas : tx.gas = tx'.gas
  payload : tx.payload = tx'.payload

end SighashBinding
open SighashBinding

/-- Two inputs with the same SIGHASH_ALL message are the same input of transactions that
agree on everything the signature commits to. -/
theorem sighash_all_binds {hash : Bytes → FixedBytes 32} {tx tx' : SighashSource} {index index' : Nat}
    {input input' : SighashInput} (hi : tx.inputs[index]? = some input)
    (hi' : tx'.inputs[index']? = some input') (ha : SighashBinding.Addressable tx)
    (ha' : SighashBinding.Addressable tx')
    (hb : Binding hash (hashed hash tx input ++ hashed hash tx' input'))
    (h : calculateSighash hash tx index .all = calculateSighash hash tx' index' .all) :
    SameCommitments tx tx' input input' := by
  rw [calculateSighash_eq hi, calculateSighash_eq hi'] at h
  -- equal digests are equal messages, which are then read field by field from the front
  have hmessage := hb.injective _ (by simp [hashed]) _ (by simp [hashed]) h
  unfold messageBytes at hmessage
  obtain ⟨hversion, hmessage⟩ := u16_append_inj hmessage
  obtain ⟨hprev, hmessage⟩ := fixed_append_inj hmessage
  obtain ⟨hseq, hmessage⟩ := fixed_append_inj hmessage
  have houtpoints := hb.injective _ (by simp [hashed]) _ (by simp [hashed]) hprev
  have hsequences := hb.injective _ (by simp [hashed]) _ (by simp [hashed]) hseq
  -- the operation counts are hashed in version 0 only
  have hops : (tx.version = 0 → sigOpBytes tx = sigOpBytes tx') ∧
      inputBytes tx input (tailBytes hash tx) = inputBytes tx' input' (tailBytes hash tx') := by
    by_cases hv : tx.version = 0
    · have hv' : tx'.version = 0 := hversion ▸ hv
      rw [if_pos hv, if_pos hv'] at hmessage
      obtain ⟨hops, hrest⟩ := fixed_append_inj hmessage
      exact ⟨fun _ => hb.injective _ (by simp [hashed, hv]) _ (by simp [hashed, hv']) hops, hrest⟩
    · have hv' : tx'.version ≠ 0 := hversion ▸ hv
      rw [if_neg hv, if_neg hv'] at hmessage
      exact ⟨fun hz => absurd hz hv, hmessage⟩
  obtain ⟨⟨hid, hindex, hsv, hscript, hamount, hsequence⟩, htail⟩ := inputBytes_inj hversion
    (ha.inputs _ (List.mem_of_getElem? hi)) (ha'.inputs _ (List.mem_of_getElem? hi')) hops.2
  unfold tailBytes at htail
  obtain ⟨houtputs, htail⟩ := fixed_append_inj htail
  obtain ⟨hlocktime, htail⟩ := u64_append_inj htail
  obtain ⟨hsubnetwork, htail⟩ := fixed_append_inj htail
  obtain ⟨hgas, htail⟩ := u64_append_inj htail
  obtain ⟨hpayload, _⟩ := fixed_append_inj htail
  have hout := hb.injective _ (by simp [hashed]) _ (by simp [hashed]) houtputs
  unfold outputBytes at hout
  rw [← hversion] at hout
  have hcovered := (outputs_delimit tx.version).flatMap (hashOutput_ne_nil tx.version) ha.outputs
    ha'.outputs hout
  refine {
    version := hversion
    outpoints := outpoints_delimit.flatMap (fun a => ?_) (fun _ _ => trivial) (fun _ _ => trivial)
      houtpoints
    sequences := sequences_delimit.flatMap (fun a => ?_) (fun _ _ => trivial) (fun _ _ => trivial)
      hsequences
    sigOpCounts := hops.1
    outpoint := ⟨hid, hindex⟩
    script := ⟨hsv, hscript⟩
    amount := hamount
    sequence := hsequence
    outputs := ?_
    covenants := fun hv => ?_
    locktime := hlocktime
    subnetworkId := hsubnetwork
    gas := hgas
    payload := payload_eq hb ha ha' (fun hn => by simp [hashed, hn])
      (fun hn => by simp [hashed, hn]) hpayload }
  · intro hnil
    have hlen := congrArg List.length hnil
    simp at hlen
  · intro hnil
    have hlen := congrArg List.length hnil
    simp at hlen
  · have := congrArg (List.map fun c : UInt64 × UInt16 × Bytes × Option (UInt16 × FixedBytes 32) =>
      (c.1, c.2.1, c.2.2.1)) hcovered
    simpa [covered, Function.comp_def] using this
  · have := congrArg (List.map fun c : UInt64 × UInt16 × Bytes × Option (UInt16 × FixedBytes 32) =>
      c.2.2.2) hcovered
    simpa [covered, Function.comp_def, hv] using this

namespace SighashBinding

/-- Tells strings apart by their length. -/
def lengthHash (b : Bytes) : FixedBytes 32 := ⟨leBytes 32 (b.length + 1), leBytes_length ..⟩

def smallInput (amount : UInt64) : SighashInput := ⟨zeros 32, 0, 5, 1, 0, [0x51], amount⟩

/-- One signed input, and one whose amount the signature does not cover. -/
def smallSource (other : UInt64) : SighashSource where
  version := 0
  inputs := [smallInput 7, smallInput other]
  outputs := [⟨3, 0, [0x51, 0x52], none⟩]
  locktime := 0
  subnetworkId := SUBNETWORK_ID_NATIVE
  gas := 0
  payload := []

theorem small_addressable (other : UInt64) : SighashBinding.Addressable (smallSource other) := by
  constructor <;> simp [smallSource, smallInput]

end SighashBinding

theorem sighash_all_binds_small :
    calculateSighash lengthHash (smallSource 1) 0 .all =
      calculateSighash lengthHash (smallSource 2) 0 .all ∧
    SameCommitments (smallSource 1) (smallSource 2) (smallInput 7) (smallInput 7) := by
  have h : calculateSighash lengthHash (smallSource 1) 0 .all =
      calculateSighash lengthHash (smallSource 2) 0 .all := by decide
  have hb : Binding lengthHash (hashed lengthHash (smallSource 1) (smallInput 7) ++
      hashed lengthHash (smallSource 2) (smallInput 7)) := by
    constructor <;> decide
  exact ⟨h, sighash_all_binds rfl rfl (small_addressable 1) (small_addressable 2) hb h⟩

end KaspaPortal.Guarantees
