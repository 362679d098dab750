import KaspaPortal.Contract.Merkle
import KaspaPortal.Transaction.Pskt.Specialized.MerkleClaim

/-!
# What the Merkle whitelist binds

The proof levels of the script bind the item they start from to the committed
tree, whatever siblings and directions the witness supplies (`proved_mem`).
Output 0 is compared with another witness item, the last one, which no level
looks at. An honest witness carries the destination twice; nothing in the
script asks the two copies to be the same.

* `merkle_whitelist_output_tied`: with equal copies output 0 is a leaf, and
  with any last item the same proof pays that item.
* `merkle_whitelist_bypassed`: such a payment to a destination that is no leaf.
* `merkle_proofs`, `merkleClaim_accepted`: the generated proofs do what they
  are for.
-/
set_option maxRecDepth 100000

namespace KaspaPortal.Guarantees
open Lib Primitives Transaction Contract.Script Engine Contract.Merkle

namespace MerkleWhitelist

/-- The hash has no second preimage of anything hashed for the tree, and no
preimage of the padding node. -/
structure HashBinds (blake2b : Bytes → FixedBytes 32) (leaves : List Bytes) : Prop where
  leaf : ∀ leaf ∈ leaves, ∀ x, blake2b x = blake2b leaf → x = leaf
  pair : ∀ a b, (a, b) ∈ combinedPairs (hashPair blake2b) (Nat.clog 2 leaves.length)
    (leafLevel blake2b leaves) → ∀ x, blake2b x = hashPair blake2b a b → x = a.val ++ b.val
  zero : ∀ x, blake2b x ≠ zeroNode

/-- One level of the script, for some direction and sibling. -/
def LevelStep (blake2b : Bytes → FixedBytes 32) (y z : FixedBytes 32) : Prop :=
  ∃ (first : Bool) (sibling : Bytes),
    z = blake2b (if first then y.val ++ sibling else sibling ++ y.val)

variable {blake2b : Bytes → FixedBytes 32} {leaves : List Bytes}

/-- The levels take their directions and siblings off the stack and never look below them. -/
theorem climbs_of_climb {n : Nat} {current node : FixedBytes 32} {s s' : Stack}
    (h : climb blake2b n current s = some (node, s')) :
    Climbs (LevelStep blake2b) n current node ∧ ∃ taken, s = taken ++ s' ∧
      ∀ other, climb blake2b n current (taken ++ other) = some (node, other) := by
  induction n generalizing current s with
  | zero =>
    obtain ⟨rfl, rfl⟩ : current = node ∧ s = s' := by simpa [climb] using h
    exact ⟨.here _, [], rfl, fun _ => rfl⟩
  | succ n ih =>
    cases s with
    | nil => simp [climb] at h
    | cons direction s =>
      cases s with
      | nil => simp [climb] at h
      | cons sibling s =>
        obtain ⟨hc, taken, rfl, hfree⟩ := ih h
        exact ⟨.up ⟨asBool direction, sibling, rfl⟩ hc, direction :: sibling :: taken, rfl, hfree⟩

/-- A level reaches a node of the tree only from one of that node's children. -/
theorem levelStep_binds (h : HashBinds blake2b leaves) (a b : FixedBytes 32)
    (hab : (a, b) ∈ combinedPairs (hashPair blake2b) (Nat.clog 2 leaves.length)
      (leafLevel blake2b leaves)) (y : FixedBytes 32)
    (hstep : LevelStep blake2b y (hashPair blake2b a b)) : y = a ∨ y = b := by
  obtain ⟨first, sibling, heq⟩ := hstep
  have hcat := h.pair a b hab _ heq.symm
  cases first with
  | true =>
    exact Or.inl (Subtype.ext (List.append_inj_left hcat (by rw [y.property, a.property])))
  | false =>
    exact Or.inr (Subtype.ext (List.append_inj_right' hcat (by rw [y.property, b.property])))

/-- An item the levels lead from to the root is one of the leaves. -/
theorem proved_mem (h : HashBinds blake2b leaves) (hne : leaves ≠ []) {item : Bytes}
    (hc : Climbs (LevelStep blake2b) (Nat.clog 2 leaves.length) (blake2b item)
      (computeMerkleRoot blake2b leaves)) : item ∈ leaves := by
  have hmem := mem_of_climbs (hashPair blake2b) (leafLevel_length leaves) (levelStep_binds h)
    (ascend_computeMerkleRoot hne) hc
  rcases List.mem_append.mp hmem with hleaf | hpad
  · obtain ⟨leaf, hl, heq⟩ := List.mem_map.mp hleaf
    rw [h.leaf leaf hl item heq.symm]
    exact hl
  · exact absurd (List.eq_of_mem_replicate hpad) (h.zero item)

theorem clog_of_padded {depth : UInt8} (h : 2 ^ depth.toNat = nextPowerOfTwo leaves.length) :
    depth.toNat = Nat.clog 2 leaves.length :=
  Nat.pow_right_injective (le_refl 2) h

end MerkleWhitelist
open MerkleWhitelist

/-- On every witness the whitelist branch accepts, the item it proves is a leaf, and output 0
carries a leaf when the last witness item repeats the proved one. The script does not ask for
that: every signed transaction passes with the same proof and its own output 0 as last item. -/
theorem merkle_whitelist_output_tied (env : Env) (ownerPubkey : FixedBytes 32)
    (leaves : List Bytes) (hne : leaves ≠ []) (depth : UInt8)
    (hdepth : 2 ^ depth.toNat = nextPowerOfTwo leaves.length) (locktimeDaa : UInt64)
    (hhash : HashBinds env.crypto.blake2b leaves) (selector : Bytes) (rest : Stack)
    (hsel : asBool selector = false)
    (hacc : succeeds env (buildMerkleWhitelistScript ownerPubkey
      (computeMerkleRoot env.crypto.blake2b leaves) depth locktimeDaa) (selector :: rest) = true) :
    (∃ proved ∈ leaves, rest[1]? = some proved) ∧
    (rest.getLast? = rest[1]? → ∃ out, env.tx.tx.outputs[0]? = some out ∧ out.spk ∈ leaves) ∧
    ∀ (other : Env) (out : ConsensusOutput), other.crypto.blake2b = env.crypto.blake2b →
      (∀ sig, rest.head? = some sig →
        other.crypto.checkSig other.tx other.index sig ownerPubkey.val = true) →
      other.tx.tx.outputs[0]? = some out →
      succeeds other (buildMerkleWhitelistScript ownerPubkey
        (computeMerkleRoot env.crypto.blake2b leaves) depth locktimeDaa)
        (selector :: (rest.dropLast ++ [out.spk])) = true := by
  obtain ⟨sig, leaf, path, last, out, rfl, -, hclimb, hout, rfl⟩ :=
    (whitelist_accepts_iff hsel).mp hacc
  rw [clog_of_padded hdepth] at hclimb
  obtain ⟨hclimbs, taken, rfl, hfree⟩ := climbs_of_climb hclimb
  have hproved : leaf ∈ leaves := proved_mem hhash hne hclimbs
  refine ⟨⟨leaf, hproved, rfl⟩, fun htied => ?_, fun other out' hhash' hsig hout' => ?_⟩
  · have hlast : (sig :: leaf :: (taken ++ [out.spk])).getLast? = some out.spk := by
      rw [← List.cons_append, ← List.cons_append, List.getLast?_concat]
    have hsame : out.spk = leaf := Option.some.inj (hlast.symm.trans htied)
    exact ⟨out, hout, hsame ▸ hproved⟩
  · have hfront : (sig :: leaf :: (taken ++ [out.spk])).dropLast = sig :: leaf :: taken := by
      rw [← List.cons_append, ← List.cons_append, List.dropLast_concat]
    rw [hfront]
    refine (whitelist_accepts_iff hsel).mpr
      ⟨sig, leaf, taken ++ [out'.spk], out'.spk, out', rfl, hsig sig rfl, ?_, hout', rfl⟩
    rw [clog_of_padded hdepth, hhash']
    exact hfree [out'.spk]

namespace MerkleWhitelist

def payTo (octet : UInt8) : Bytes := pushPubkey (filled octet 32) ++ [OP_CHECKSIG]

def sampleLeaves : List Bytes := [spkBytes 0 (payTo 1), spkBytes 0 (payTo 2)]

/-- A hash that tells the strings of the two-leaf tree from everything else. -/
def sampleHash (x : Bytes) : FixedBytes 32 :=
  if x = spkBytes 0 (payTo 1) then filled 11 32
  else if x = spkBytes 0 (payTo 2) then filled 12 32
  else if x = (filled 11 32).val ++ (filled 12 32).val then filled 13 32
  else filled 14 32

theorem sampleHash_binds : HashBinds sampleHash sampleLeaves := by
  have h1 : sampleHash (spkBytes 0 (payTo 1)) = filled 11 32 := by decide
  have h2 : sampleHash (spkBytes 0 (payTo 2)) = filled 12 32 := by decide
  have hp : hashPair sampleHash (filled 11 32) (filled 12 32) = filled 13 32 := by decide
  have h12 : filled 11 32 ≠ filled 12 32 := by decide
  refine ⟨fun leaf hl x hx => ?_, fun a b hab x hx => ?_, fun x => ?_⟩
  · simp only [sampleLeaves, List.mem_cons, List.not_mem_nil, or_false] at hl
    rcases hl with rfl | rfl
    · rw [h1] at hx
      unfold sampleHash at hx
      split at hx
      · assumption
      · exfalso
        revert hx
        split
        · decide
        · split <;> decide
    · rw [h2] at hx
      unfold sampleHash at hx
      split at hx
      · exact absurd hx h12
      · split at hx
        · assumption
        · exfalso
          revert hx
          split <;> decide
  · obtain ⟨rfl, rfl⟩ : a = filled 11 32 ∧ b = filled 12 32 := by
      have hpairs : combinedPairs (hashPair sampleHash) (Nat.clog 2 sampleLeaves.length)
          (leafLevel sampleHash sampleLeaves) = [(filled 11 32, filled 12 32)] := by
        decide
      simpa [hpairs] using hab
    rw [hp] at hx
    unfold sampleHash at hx
    split at hx
    · exact absurd hx (by decide)
    · split at hx
      · exact absurd hx (by decide)
      · split at hx
        · assumption
        · exact absurd hx (by decide)
  · unfold sampleHash
    split
    · decide
    · split
      · decide
      · split <;> decide

def sampleEnv (destination : Bytes) : Env :=
  soleSpend { sampleCrypto with blake2b := sampleHash } [] 1000 [⟨900, 0, destination, none⟩]

/-- The redeem script over the two leaves, one level deep. -/
def sampleVault : Bytes :=
  buildMerkleWhitelistScript (filled 5 32) (computeMerkleRoot sampleHash sampleLeaves) 1 0

/-- A proof of the first leaf, and `last` as the item compared with output 0. -/
def sampleWitness (last : Bytes) : Stack :=
  [List.replicate 64 5, spkBytes 0 (payTo 1), [1], (filled 12 32).val, last]

end MerkleWhitelist

theorem merkle_whitelist_output_tied_sample :
    HashBinds sampleHash sampleLeaves ∧
    succeeds (sampleEnv (payTo 1)) sampleVault ([] :: sampleWitness (spkBytes 0 (payTo 1))) = true ∧
    (∃ out, (sampleEnv (payTo 1)).tx.tx.outputs[0]? = some out ∧ out.spk ∈ sampleLeaves) ∧
    succeeds (sampleEnv (payTo 3)) sampleVault ([] :: sampleWitness (spkBytes 0 (payTo 3))) = true := by
  have hacc : succeeds (sampleEnv (payTo 1)) sampleVault
      ([] :: sampleWitness (spkBytes 0 (payTo 1))) = true := by decide
  obtain ⟨-, htied, hfree⟩ := merkle_whitelist_output_tied (sampleEnv (payTo 1)) (filled 5 32)
    sampleLeaves (by decide) 1 (by decide) 0 sampleHash_binds []
    (sampleWitness (spkBytes 0 (payTo 1))) rfl hacc
  have hsig : ∀ sig, (sampleWitness (spkBytes 0 (payTo 1))).head? = some sig →
      (sampleEnv (payTo 3)).crypto.checkSig (sampleEnv (payTo 3)).tx (sampleEnv (payTo 3)).index sig
        (filled 5 32).val = true := by
    intro sig hhead
    obtain rfl := Option.some.inj hhead
    decide
  exact ⟨sampleHash_binds, hacc, htied rfl,
    hfree (sampleEnv (payTo 3)) ⟨900, 0, payTo 3, none⟩ rfl hsig rfl⟩

/-- A proof of a whitelisted destination carries a payment to another one: the
script accepts, and output 0 is not a leaf. -/
theorem merkle_whitelist_bypassed :
    HashBinds sampleHash sampleLeaves ∧
    2 ^ (1 : UInt8).toNat = nextPowerOfTwo sampleLeaves.length ∧
    succeeds (sampleEnv (payTo 3)) sampleVault ([] :: sampleWitness (spkBytes 0 (payTo 3))) = true ∧
    ∃ out, (sampleEnv (payTo 3)).tx.tx.outputs[0]? = some out ∧ out.spk ∉ sampleLeaves :=
  ⟨sampleHash_binds, by decide, by decide, ⟨900, 0, payTo 3, none⟩, rfl, by decide⟩

end KaspaPortal.Guarantees

/-!
## Proofs of whitelisted destinations

The proof made for a leaf verifies, in the check of a claim and in the vault's script; what
verifies with a proof of the right length is a leaf.
-/
namespace KaspaPortal.Guarantees
open Lib Primitives Transaction Contract.Script Engine Contract.Merkle Transaction.Pskt.Specialized
open MerkleWhitelist

namespace MerkleProofs

variable {blake2b : Bytes → FixedBytes 32} {leaves : List Bytes}

theorem verifyMerkleRoot_ok {index : Nat} {destSpk : Bytes} {proof : List MerkleProofItem}
    {root : FixedBytes 32} :
    verifyMerkleRoot blake2b index destSpk proof root = .ok () ↔
      proof.foldl (merkleStep blake2b) (blake2b destSpk) = root := by
  rw [verifyMerkleRoot, rejectIf_eq_ok, not_not]

/-- The check climbs the tree a level an item, whatever the directions. -/
theorem climbs_of_fold (blake2b : Bytes → FixedBytes 32) (proof : List MerkleProofItem) (current : FixedBytes 32) :
    Climbs (LevelStep blake2b) proof.length current (proof.foldl (merkleStep blake2b) current) := by
  induction proof generalizing current with
  | nil => exact .here current
  | cons item proof ih =>
    refine .up ⟨decide (item.direction = 1), item.sibling.val, ?_⟩ (ih _)
    by_cases hdirection : item.direction = 1
    · rw [merkleStep, if_pos hdirection, decide_eq_true hdirection]
      rfl
    · rw [merkleStep, if_neg hdirection, decide_eq_false hdirection]
      rfl

theorem log2_nextPowerOfTwo (n : Nat) : Nat.log2 (nextPowerOfTwo n) = Nat.clog 2 n :=
  Nat.log2_two_pow

end MerkleProofs
open MerkleProofs

/-- The generated proof of every leaf has one item a level and verifies, with the check and
with the script's levels; data that verifies with as many items is a leaf. -/
theorem merkle_proofs (blake2b : Bytes → FixedBytes 32) (leaves : List Bytes) (hne : leaves ≠ [])
    (hhash : HashBinds blake2b leaves) :
    (∀ i leaf, leaves[i]? = some leaf →
      (generateMerkleProof blake2b leaves i).length = Nat.log2 (nextPowerOfTwo leaves.length) ∧
        (generateMerkleProof blake2b leaves i).foldl (merkleStep blake2b) (blake2b leaf) =
          computeMerkleRoot blake2b leaves ∧
        (∀ index, verifyMerkleRoot blake2b index leaf (generateMerkleProof blake2b leaves i)
          (computeMerkleRoot blake2b leaves) = .ok ()) ∧
        ∀ rest, climb blake2b (Nat.log2 (nextPowerOfTwo leaves.length)) (blake2b leaf)
          (proofPath (generateMerkleProof blake2b leaves i) ++ rest) =
            some (computeMerkleRoot blake2b leaves, rest)) ∧
      ∀ data,
        (∀ index proof, proof.length = Nat.log2 (nextPowerOfTwo leaves.length) →
          verifyMerkleRoot blake2b index data proof (computeMerkleRoot blake2b leaves) = .ok () →
            data ∈ leaves) ∧
          ∀ path rest, climb blake2b (Nat.log2 (nextPowerOfTwo leaves.length)) (blake2b data) path =
            some (computeMerkleRoot blake2b leaves, rest) → data ∈ leaves := by
  rw [log2_nextPowerOfTwo]
  refine ⟨fun i leaf hleaf => ?_, fun data => ⟨fun index proof hlength hverify => ?_,
    fun path rest hclimb => ?_⟩⟩
  · obtain ⟨hlength, hfold, hdirections⟩ := generateMerkleProof_folds blake2b hleaf
    refine ⟨hlength, hfold, fun index => verifyMerkleRoot_ok.mpr hfold, fun rest => ?_⟩
    rw [← hlength, climb_proofPath hdirections, hfold]
  · have hclimbs := climbs_of_fold blake2b proof (blake2b data)
    rw [verifyMerkleRoot_ok.mp hverify, hlength] at hclimbs
    exact proved_mem hhash hne hclimbs
  · exact proved_mem hhash hne (climbs_of_climb hclimb).1

theorem merkle_proofs_sample :
    (generateMerkleProof sampleHash sampleLeaves 0).foldl (merkleStep sampleHash)
        (sampleHash (spkBytes 0 (payTo 1))) = computeMerkleRoot sampleHash sampleLeaves ∧
      (generateMerkleProof sampleHash sampleLeaves 0).length = 1 :=
  have h := (merkle_proofs sampleHash sampleLeaves (by decide) sampleHash_binds).1 0
    (spkBytes 0 (payTo 1)) rfl
  ⟨h.2.1, h.1.trans (by decide)⟩

/-- A claim that the pipeline binds opens the vault: its witness carries the redeem script, and
the script accepts it when the signature holds and output 0 pays the destination. -/
theorem merkleClaim_accepted {env : Env} {ownerPubkey : FixedBytes 32} {leaves : List Bytes}
    {depth : UInt8} {locktimeDaa : UInt64} {i index : Nat} {leaf script : Bytes}
    {mask truth : UInt16} {signature : Pskt.Signature} {out : ConsensusOutput}
    (hleaf : leaves[i]? = some leaf)
    (hbind : bindMerkleTemplate env.crypto.blake2b index leaf
      (generateMerkleProof env.crypto.blake2b leaves i)
      ⟨computeMerkleRoot env.crypto.blake2b leaves, depth⟩ mask truth (some signature)
      (buildMerkleWhitelistScript ownerPubkey (computeMerkleRoot env.crypto.blake2b leaves) depth
        locktimeDaa) = .ok script)
    (hsig : env.crypto.checkSig env.tx env.index (signature.bytes.val ++ [signature.sighash])
      ownerPubkey.val = true)
    (hout : env.tx.tx.outputs[0]? = some out) (hspk : out.spk = leaf) :
    ∃ witness, sigStack script = some (buildMerkleWhitelistScript ownerPubkey
        (computeMerkleRoot env.crypto.blake2b leaves) depth locktimeDaa :: witness) ∧
      succeeds env (buildMerkleWhitelistScript ownerPubkey
        (computeMerkleRoot env.crypto.blake2b leaves) depth locktimeDaa) witness = true := by
  rw [bindMerkleTemplate, bind_eq_ok] at hbind
  obtain ⟨u, hclaim, hbind⟩ := hbind
  rw [bind_eq_ok] at hbind
  obtain ⟨v, -, hwitness⟩ := hbind
  rw [validateMerkleClaim, bind_eq_ok] at hclaim
  obtain ⟨w, hdepth, -⟩ := hclaim
  rw [rejectIf_eq_ok, not_not] at hdepth
  obtain ⟨hlength, hfold, hdirections⟩ :=
    generateMerkleProof_folds env.crypto.blake2b hleaf
  refine ⟨_, buildMerkleWitness_stack hwitness, ?_⟩
  refine (whitelist_accepts_iff rfl).mpr ⟨_, leaf, _, leaf, out, rfl, hsig, ?_, hout, hspk⟩
  rw [← hdepth, climb_proofPath hdirections, hfold]

end KaspaPortal.Guarantees
