import Mathlib.Data.Nat.Log
import KaspaPortal.Lib.MerkleTree
import KaspaPortal.Engine.Rules

/-!
# Merkle-whitelist vault

`src/contract/merkle/script.rs`: the root of a list of destinations and the
redeem script that asks for a proof against it. `climb` is what the script's
levels compute from the witness; `whitelist_accepts_iff` is what the whole
whitelist branch accepts.

The hash of the tree is a parameter; a binding result names the strings of the
tree it is asked not to collide on.
-/
namespace KaspaPortal.Contract.Merkle
open Lib Primitives Transaction Contract.Script Engine

/-! ## The root -/

def zeroNode : FixedBytes 32 := ⟨List.replicate 32 0, by simp⟩

/-- `usize::next_power_of_two`. -/
def nextPowerOfTwo (n : Nat) : Nat := 2 ^ Nat.clog 2 n

def hashPair (blake2b : Bytes → FixedBytes 32) (left right : FixedBytes 32) : FixedBytes 32 :=
  blake2b (left.val ++ right.val)

/-- The `while level.len() > 1` loop; every round halves the level, so its
length is fuel enough. -/
def mergeLevels (blake2b : Bytes → FixedBytes 32) :
    Nat → List (FixedBytes 32) → List (FixedBytes 32)
  | 0, level => level
  | fuel + 1, level =>
    if 1 < level.length then mergeLevels blake2b fuel (nextLevel (hashPair blake2b) level)
    else level

/-- The hashed leaves, padded with zero nodes. -/
def leafLevel (blake2b : Bytes → FixedBytes 32) (leaves : List Bytes) : List (FixedBytes 32) :=
  leaves.map blake2b ++ List.replicate (nextPowerOfTwo leaves.length - leaves.length) zeroNode

def computeMerkleRoot (blake2b : Bytes → FixedBytes 32) (leaves : List Bytes) : FixedBytes 32 :=
  if leaves.isEmpty then zeroNode
  else
    let level := leafLevel blake2b leaves
    (mergeLevels blake2b level.length level).headD zeroNode

section root
variable {blake2b : Bytes → FixedBytes 32}

theorem leafLevel_length (leaves : List Bytes) :
    (leafLevel blake2b leaves).length = 2 ^ Nat.clog 2 leaves.length := by
  have := Nat.le_pow_clog (by decide : 1 < 2) leaves.length
  simp only [leafLevel, nextPowerOfTwo, List.length_append, List.length_map, List.length_replicate]
  omega

theorem mergeLevels_eq (rounds fuel : Nat) (level : List (FixedBytes 32))
    (hlen : level.length = 2 ^ rounds) (hfuel : rounds ≤ fuel) :
    mergeLevels blake2b fuel level = ascend (hashPair blake2b) rounds level := by
  induction rounds generalizing fuel level with
  | zero =>
    have h1 : ¬ 1 < level.length := by omega
    cases fuel with
    | zero => rfl
    | succ fuel => rw [mergeLevels, if_neg h1, ascend]
  | succ rounds ih =>
    obtain ⟨fuel, rfl⟩ : ∃ n, fuel = n + 1 := ⟨fuel - 1, by omega⟩
    have hpos := Nat.two_pow_pos rounds
    rw [Nat.pow_succ] at hlen
    rw [mergeLevels, if_pos (by omega), ascend]
    exact ih fuel _ (nextLevel_length _ (by omega)) (by omega)

/-- The root is the single node left after as many rounds as the padded size
has halvings. -/
theorem ascend_computeMerkleRoot {leaves : List Bytes} (h : leaves ≠ []) :
    ascend (hashPair blake2b) (Nat.clog 2 leaves.length) (leafLevel blake2b leaves) =
      [computeMerkleRoot blake2b leaves] := by
  have hlen : (leafLevel blake2b leaves).length = 2 ^ Nat.clog 2 leaves.length :=
    leafLevel_length leaves
  have hone := ascend_length (hashPair blake2b) _ _ hlen
  obtain ⟨root, hroot⟩ := List.length_eq_one_iff.mp hone
  have hfuel : Nat.clog 2 leaves.length ≤ (leafLevel blake2b leaves).length := by
    rw [hlen]
    exact Nat.lt_two_pow_self.le
  rw [hroot, computeMerkleRoot, if_neg (by simpa using h)]
  simp only
  rw [mergeLevels_eq _ _ _ hlen hfuel, hroot]
  rfl

end root

/-! ## The script -/

def appendOwnerRefundBranch (ownerPubkey : FixedBytes 32) (locktimeDaa : UInt64) : Bytes :=
  [OP_IF] ++ pushPubkey ownerPubkey ++ [OP_CHECKSIGVERIFY] ++ pushInt locktimeDaa ++
    [OP_CHECKLOCKTIMEVERIFY, OP_1, OP_ELSE]

/-- One round of the `for _ in 0..depth` loop. -/
def appendLevel : Bytes := [OP_SWAP, OP_IF, OP_SWAP, OP_ENDIF, OP_CAT, OP_BLAKE2B]

def appendLevels : Nat → Bytes
  | 0 => []
  | n + 1 => appendLevel ++ appendLevels n

def appendWhitelistBranch (ownerPubkey merkleRoot : FixedBytes 32) (depth : UInt8) : Bytes :=
  pushPubkey ownerPubkey ++ [OP_CHECKSIGVERIFY, OP_BLAKE2B] ++ appendLevels depth.toNat ++
    pushData merkleRoot.val ++ [OP_EQUALVERIFY] ++ pushInt 0 ++
    [OP_TX_OUTPUT_SPK, OP_EQUALVERIFY, OP_1]

def buildMerkleWhitelistScript (ownerPubkey merkleRoot : FixedBytes 32) (depth : UInt8)
    (locktimeDaa : UInt64) : Bytes :=
  appendOwnerRefundBranch ownerPubkey locktimeDaa ++
    appendWhitelistBranch ownerPubkey merkleRoot depth ++ [OP_ENDIF]

section programs
variable (ownerPubkey merkleRoot : FixedBytes 32) (depth : UInt8) (locktimeDaa : UInt64)

def levelProgram : List (Stmt Instr) := [op .swap, .ifThen [op .swap], op .cat, op .blake2b]

def levelsProgram : Nat → List (Stmt Instr)
  | 0 => []
  | n + 1 => levelProgram ++ levelsProgram n

def whitelistProgram : List (Stmt Instr) :=
  [data ownerPubkey.val, op .checkSigVerify, op .blake2b] ++ levelsProgram depth.toNat ++
    [data merkleRoot.val, op .equalVerify, num 0, op .txOutputSpk, op .equalVerify, data [1]]

def merkleWhitelistProgram : List (Stmt Instr) :=
  [.ifElse
    [data ownerPubkey.val, op .checkSigVerify, num locktimeDaa, op .checkLockTimeVerify, data [1]]
    (whitelistProgram ownerPubkey merkleRoot depth)]

theorem tokenize_levels (n : Nat) (rest : Bytes) :
    tokenize (appendLevels n ++ rest) =
      (tokenize rest).map (flattenAll (levelsProgram n) ++ ·) := by
  induction n with
  | zero => simp [appendLevels, levelsProgram]
  | succ n ih =>
    unfold appendLevels appendLevel
    simp [levelsProgram, levelProgram, ih, Function.comp_def]

theorem tokenize_merkleWhitelistScript :
    tokenize (buildMerkleWhitelistScript ownerPubkey merkleRoot depth locktimeDaa) =
      some (flattenAll (merkleWhitelistProgram ownerPubkey merkleRoot depth locktimeDaa)) := by
  unfold buildMerkleWhitelistScript appendOwnerRefundBranch appendWhitelistBranch
  simp [merkleWhitelistProgram, whitelistProgram, tokenize_levels]

end programs

/-! ## What the whitelist branch accepts -/

/-- The node after `n` levels, and what is left of the witness: each level takes
a direction and a sibling off it. -/
def climb (blake2b : Bytes → FixedBytes 32) :
    Nat → FixedBytes 32 → Stack → Option (FixedBytes 32 × Stack)
  | 0, current, s => some (current, s)
  | n + 1, current, direction :: sibling :: s =>
    climb blake2b n
      (blake2b (if asBool direction then current.val ++ sibling else sibling ++ current.val)) s
  | _ + 1, _, _ => none

section accepts
variable {env : Env} {s r : Stack} {p : List (Stmt Instr)}

theorem evals_level {current : FixedBytes 32} : Evals env (levelProgram ++ p) (current.val :: s) r ↔
    ∃ direction sibling s', s = direction :: sibling :: s' ∧
      Evals env p ((env.crypto.blake2b (if asBool direction then current.val ++ sibling
        else sibling ++ current.val)).val :: s') r := by
  simp only [levelProgram, List.cons_append, List.nil_append]
  rcases s with _ | ⟨direction, _ | ⟨sibling, s⟩⟩
  · simp
  · simp
  · cases hd : asBool direction <;> simp [hd]

theorem evals_levels {n : Nat} {current : FixedBytes 32} :
    Evals env (levelsProgram n ++ p) (current.val :: s) r ↔
      ∃ node s', climb env.crypto.blake2b n current s = some (node, s') ∧
        Evals env p (node.val :: s') r := by
  induction n generalizing current s with
  | zero => simp [levelsProgram, climb]
  | succ n ih =>
    rw [levelsProgram, List.append_assoc, evals_level]
    constructor
    · rintro ⟨direction, sibling, s', rfl, h⟩
      exact ih.mp h
    · rintro ⟨node, s', hc, hp⟩
      match s with
      | direction :: sibling :: s => exact ⟨direction, sibling, s, rfl, ih.mpr ⟨node, s', hc, hp⟩⟩
      | [] => simp [climb] at hc
      | [_] => simp [climb] at hc

/-- Everything the whitelist branch accepts. The last witness item is compared
with output 0 and with nothing else. -/
theorem whitelist_accepts_iff {owner root : FixedBytes 32} {depth : UInt8} {locktime : UInt64}
    {selector : Bytes} (hsel : asBool selector = false) :
    succeeds env (buildMerkleWhitelistScript owner root depth locktime) (selector :: s) = true ↔
      ∃ (sig leaf : Bytes) (path : Stack) (last : Bytes) (out : ConsensusOutput),
        s = sig :: leaf :: path ∧ env.crypto.checkSig env.tx env.index sig owner.val = true ∧
        climb env.crypto.blake2b depth.toNat (env.crypto.blake2b leaf) path = some (root, [last]) ∧
        env.tx.tx.outputs[0]? = some out ∧ out.spk = last := by
  rw [succeeds_iff (tokenize_merkleWhitelistScript owner root depth locktime)]
  simp only [merkleWhitelistProgram, whitelistProgram, List.cons_append, List.nil_append]
  simp [hsel, evals_levels]
  constructor
  · rintro ⟨⟨sig, leaf, path, rfl, hsig, node, hn, out, hc, rfl, hout⟩, -⟩
    exact ⟨sig, leaf, path, rfl, hsig, out, hc, hout⟩
  · rintro ⟨sig, leaf, path, rfl, hsig, out, hc, hout⟩
    exact ⟨⟨sig, leaf, path, rfl, hsig, root.val, root.property, out, hc, rfl, hout⟩, rfl⟩

end accepts
end KaspaPortal.Contract.Merkle
