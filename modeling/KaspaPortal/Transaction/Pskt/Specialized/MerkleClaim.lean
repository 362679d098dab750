import KaspaPortal.Contract.Merkle
import KaspaPortal.Transaction.Pskt.Verified

/-!
# Merkle proofs and the claim they open

`generate_merkle_proof` of `src/contract/merkle/script.rs`, and the merkle part of
`src/transaction/interchange/pskt/pipeline/specialized/claims.rs` behind the recognizer and
the parser of the proof.
-/
namespace KaspaPortal.Transaction.Pskt.Specialized
open Lib Primitives Contract.Script Contract.Merkle Engine

structure MerkleProofItem where
  sibling : FixedBytes 32
  direction : UInt8
  deriving DecidableEq

/-! ## Making a proof -/

def siblingIndex (idx : Nat) : Nat := if idx % 2 = 0 then idx + 1 else idx - 1

/-- The `while level.len() > 1` loop; every round halves the level. A level whose length is a
power of two has every sibling. -/
def proofLevels (blake2b : Bytes → FixedBytes 32) :
    Nat → List (FixedBytes 32) → Nat → List MerkleProofItem
  | 0, _, _ => []
  | fuel + 1, level, idx =>
    if 1 < level.length then
      ⟨level.getD (siblingIndex idx) zeroNode, if idx % 2 = 0 then 1 else 0⟩ ::
        proofLevels blake2b fuel (nextLevel (hashPair blake2b) level) (idx / 2)
    else []

def generateMerkleProof (blake2b : Bytes → FixedBytes 32) (leaves : List Bytes) (leafIndex : Nat) :
    List MerkleProofItem :=
  if leaves.isEmpty ∨ leaves.length ≤ leafIndex then []
  else
    let level := leafLevel blake2b leaves
    proofLevels blake2b level.length level leafIndex

/-! ## Checking a proof -/

def merkleStep (blake2b : Bytes → FixedBytes 32) (current : FixedBytes 32) (item : MerkleProofItem) :
    FixedBytes 32 :=
  if item.direction = 1 then hashPair blake2b current item.sibling
  else hashPair blake2b item.sibling current

section checks
variable (blake2b : Bytes → FixedBytes 32)

def verifyMerkleRoot (index : Nat) (destSpk : Bytes) (proof : List MerkleProofItem)
    (expectedRoot : FixedBytes 32) : Except String Unit :=
  rejectIf (proof.foldl (merkleStep blake2b) (blake2b destSpk) ≠ expectedRoot)
    s!"input[{index}] merkle proof does not match redeem root"

/-- The true-selector bits of a proof; `level` is the number of bits below. -/
def merkleTruthFrom (truth : UInt16) : Nat → List MerkleProofItem → UInt16
  | _, [] => truth
  | level, item :: rest =>
    merkleTruthFrom (truth + item.direction.toUInt16 <<< UInt16.ofNat (level + 1)) (level + 1) rest

def merkleTruthFromProof (proof : List MerkleProofItem) : UInt16 := merkleTruthFrom 0 0 proof

structure MerkleTemplate where
  root : FixedBytes 32
  depth : UInt8

def validateMerkleClaim (index : Nat) (proof : List MerkleProofItem) (template : MerkleTemplate)
    (mask truth : UInt16) : Except String Unit := do
  let count := proof.length
  let depth := template.depth.toNat
  rejectIf (count ≠ depth)
    s!"input[{index}] merkle proof depth {count} does not match redeem depth {depth}"
  rejectIf (mask ≠ 0xffff >>> UInt16.ofNat (15 - depth))
    s!"input[{index}] merkle covenantExecution does not select the claim branch"
  rejectIf (truth ≠ merkleTruthFromProof proof)
    s!"input[{index}] merkle proof directions do not match covenantExecution"

end checks

/-! ## The witness -/

def pushLevel (item : MerkleProofItem) : Except String Bytes := do
  let sibling ← pushDataItem item.sibling.val
  return sibling ++ [if item.direction = 0 then OP_0 else OP_1]

def buildMerkleWitness (destSpk : Bytes) (proof : List MerkleProofItem)
    (signature : Signature) (redeem : Bytes) : Except String Bytes := do
  let last ← pushDataItem destSpk
  let levels ← pushAll pushLevel proof.reverse
  let leaf ← pushDataItem destSpk
  let signed ← pushSignature signature
  let script ← pushDataItem redeem
  return last ++ levels ++ leaf ++ signed ++ [OP_0] ++ script

/-- `bind_merkle` of a recognized template and a parsed proof; nothing is written before the
input is signed. -/
def bindMerkleTemplate (blake2b : Bytes → FixedBytes 32) (index : Nat) (destSpk : Bytes)
    (proof : List MerkleProofItem) (template : MerkleTemplate) (mask truth : UInt16)
    (signature : Option Signature) (redeem : Bytes) : Except String Bytes := do
  validateMerkleClaim index proof template mask truth
  verifyMerkleRoot blake2b index destSpk proof template.root
  match signature with
  | none => return []
  | some signature => buildMerkleWitness destSpk proof signature redeem

/-! ## What the loops compute -/

section levels
variable {blake2b : Bytes → FixedBytes 32}

/-- A node and the sibling beside it give the node above them. -/
theorem merkleStep_sibling {level : List (FixedBytes 32)} {rounds idx : Nat} {node : FixedBytes 32}
    (hlen : level.length = 2 ^ (rounds + 1)) (hnode : level[idx]? = some node) :
    (nextLevel (hashPair blake2b) level)[idx / 2]? =
      some (merkleStep blake2b node
        ⟨level.getD (siblingIndex idx) zeroNode, if idx % 2 = 0 then 1 else 0⟩) := by
  obtain ⟨hidx, -⟩ := List.getElem?_eq_some_iff.mp hnode
  rw [hlen, Nat.pow_succ] at hidx
  have hsiblingLt : siblingIndex idx < level.length := by
    rw [siblingIndex, hlen, Nat.pow_succ]
    split <;> omega
  have hsibling : level[siblingIndex idx]? = some (level.getD (siblingIndex idx) zeroNode) := by
    rw [List.getD_eq_getElem?_getD, List.getElem?_eq_getElem hsiblingLt]
    rfl
  rcases Nat.mod_two_eq_zero_or_one idx with heven | hodd
  · have hleft : 2 * (idx / 2) = idx := by omega
    have hright : 2 * (idx / 2) + 1 = siblingIndex idx := by
      rw [siblingIndex, if_pos heven, hleft]
    rw [merkleStep, if_pos heven, if_pos rfl]
    exact getElem?_nextLevel _ (by rw [hleft]; exact hnode) (by rw [hright]; exact hsibling)
  · have hodd' : ¬ idx % 2 = 0 := by omega
    have hleft : 2 * (idx / 2) = siblingIndex idx := by
      rw [siblingIndex, if_neg hodd']
      omega
    have hright : 2 * (idx / 2) + 1 = idx := by omega
    have hzero : (0 : UInt8) ≠ 1 := by decide
    rw [merkleStep, if_neg hodd', if_neg hzero]
    exact getElem?_nextLevel _ (by rw [hleft]; exact hsibling) (by rw [hright]; exact hnode)

/-- The proof has one item a round, and folding it from a node gives the root. -/
theorem proofLevels_folds {rounds fuel idx : Nat} {level : List (FixedBytes 32)}
    {node root : FixedBytes 32} (hlen : level.length = 2 ^ rounds) (hfuel : rounds ≤ fuel)
    (hnode : level[idx]? = some node) (hroot : ascend (hashPair blake2b) rounds level = [root]) :
    (proofLevels blake2b fuel level idx).length = rounds ∧
      (proofLevels blake2b fuel level idx).foldl (merkleStep blake2b) node = root ∧
      ∀ item ∈ proofLevels blake2b fuel level idx, item.direction = 0 ∨ item.direction = 1 := by
  induction rounds generalizing fuel level idx node with
  | zero =>
    have hshort : ¬ 1 < level.length := by omega
    have hnil : proofLevels blake2b fuel level idx = [] := by
      cases fuel with
      | zero => rfl
      | succ fuel => rw [proofLevels, if_neg hshort]
    rw [ascend] at hroot
    have hidx : idx = 0 := by
      obtain ⟨hlt, -⟩ := List.getElem?_eq_some_iff.mp hnode
      omega
    subst hidx
    rw [hroot] at hnode
    rw [hnil]
    exact ⟨rfl, (Option.some.inj hnode).symm, fun item h => absurd h List.not_mem_nil⟩
  | succ rounds ih =>
    obtain ⟨fuel, rfl⟩ : ∃ n, fuel = n + 1 := ⟨fuel - 1, by omega⟩
    have hlong : 1 < level.length := by
      have hpos := Nat.two_pow_pos rounds
      rw [hlen, Nat.pow_succ]
      omega
    have hnext : (nextLevel (hashPair blake2b) level).length = 2 ^ rounds :=
      nextLevel_length _ (by rw [hlen, Nat.pow_succ, Nat.mul_comm])
    rw [ascend] at hroot
    obtain ⟨hlength, hfold, hdirections⟩ :=
      ih hnext (Nat.le_of_succ_le_succ hfuel) (merkleStep_sibling hlen hnode) hroot
    rw [proofLevels, if_pos hlong]
    refine ⟨by rw [List.length_cons, hlength], by rw [List.foldl_cons, hfold], ?_⟩
    refine List.forall_mem_cons.mpr ⟨?_, hdirections⟩
    dsimp only
    split
    · exact .inr rfl
    · exact .inl rfl

/-- The proof of a leaf. -/
theorem generateMerkleProof_folds (blake2b : Bytes → FixedBytes 32) {leaves : List Bytes} {i : Nat}
    {leaf : Bytes}
    (hleaf : leaves[i]? = some leaf) :
    (generateMerkleProof blake2b leaves i).length = Nat.clog 2 leaves.length ∧
      (generateMerkleProof blake2b leaves i).foldl (merkleStep blake2b) (blake2b leaf) =
        computeMerkleRoot blake2b leaves ∧
      ∀ item ∈ generateMerkleProof blake2b leaves i, item.direction = 0 ∨ item.direction = 1 := by
  obtain ⟨hlt, -⟩ := List.getElem?_eq_some_iff.mp hleaf
  have hne : leaves ≠ [] := by
    intro hnil
    rw [hnil] at hlt
    exact absurd hlt (Nat.not_lt_zero _)
  have hnode : (leafLevel blake2b leaves)[i]? = some (blake2b leaf) := by
    rw [leafLevel, List.getElem?_append_left (by rw [List.length_map]; exact hlt), List.getElem?_map,
      hleaf]
    rfl
  have hfuel : Nat.clog 2 leaves.length ≤ (leafLevel blake2b leaves).length := by
    rw [leafLevel_length]
    exact Nat.lt_two_pow_self.le
  have hbad : ¬(leaves.isEmpty = true ∨ leaves.length ≤ i) := by
    rw [List.isEmpty_iff, not_or]
    exact ⟨hne, by omega⟩
  rw [generateMerkleProof, if_neg hbad]
  exact proofLevels_folds (leafLevel_length leaves) hfuel hnode (ascend_computeMerkleRoot hne)

end levels

/-! ## What the script sees of a proof -/

/-- The items of the levels, the first level on top. -/
def proofPath (proof : List MerkleProofItem) : Stack :=
  proof.flatMap fun item => [if item.direction = 0 then [] else [1], item.sibling.val]

/-- The script's levels fold a proof as the check does. -/
theorem climb_proofPath {blake2b : Bytes → FixedBytes 32} {proof : List MerkleProofItem}
    (hdirections : ∀ item ∈ proof, item.direction = 0 ∨ item.direction = 1)
    (current : FixedBytes 32) (rest : Stack) :
    climb blake2b proof.length current (proofPath proof ++ rest) =
      some (proof.foldl (merkleStep blake2b) current, rest) := by
  induction proof generalizing current with
  | nil => rfl
  | cons item proof ih =>
    obtain ⟨hitem, hproof⟩ := List.forall_mem_cons.mp hdirections
    have hstep : blake2b (if asBool (if item.direction = 0 then [] else [1]) then
        current.val ++ item.sibling.val else item.sibling.val ++ current.val) =
        merkleStep blake2b current item := by
      rcases hitem with h | h
      · rw [merkleStep, h]
        rfl
      · rw [merkleStep, h]
        rfl
    rw [List.length_cons, List.foldl_cons, ← ih hproof, ← hstep]
    rfl

theorem pushDataItem_pushes {data enc : Bytes} (h : pushDataItem data = .ok enc) :
    PushesAs enc data := by
  rw [pushDataItem, bind_eq_ok] at h
  obtain ⟨u, hshort, heq⟩ := h
  rw [rejectIf_eq_ok] at hshort
  cases heq
  exact pushData_pushes data (pushable_of_le (Nat.not_lt.mp hshort) (by decide))

theorem pushSignature_pushes {signature : Signature} {enc : Bytes}
    (h : pushSignature signature = .ok enc) :
    PushesAs enc (signature.bytes.val ++ [signature.sighash]) := by
  rw [pushSignature, bind_eq_ok] at h
  obtain ⟨u, -, heq⟩ := h
  cases heq
  have hlen : (signature.bytes.val ++ [signature.sighash]).length = 65 := by
    rw [List.length_append, signature.bytes.property]
    rfl
  have hpush : pushData (signature.bytes.val ++ [signature.sighash]) =
      [65] ++ signature.bytes.val ++ [signature.sighash] := by
    rw [pushData, if_pos (by omega), hlen]
    rfl
  rw [← hpush]
  exact pushData_pushes _ (pushable_of_le hlen.le (by decide))

theorem pushLevels_pushes {proof : List MerkleProofItem} {enc : Bytes}
    (h : pushAll pushLevel proof = .ok enc) :
    PushesAll enc (proofPath proof.reverse).reverse := by
  induction proof generalizing enc with
  | nil =>
    cases h
    exact .nil
  | cons item proof ih =>
    rw [pushAll, bind_eq_ok] at h
    obtain ⟨first, hfirst, h⟩ := h
    rw [bind_eq_ok] at h
    obtain ⟨others, hothers, heq⟩ := h
    cases heq
    rw [pushLevel, bind_eq_ok] at hfirst
    obtain ⟨sibling, hsibling, heq⟩ := hfirst
    cases heq
    have hdirection : PushesAs [if item.direction = 0 then OP_0 else OP_1]
        (if item.direction = 0 then [] else [1]) := by
      by_cases hzero : item.direction = 0
      · rw [if_pos hzero, if_pos hzero]
        exact pushesAs_zero
      · rw [if_neg hzero, if_neg hzero]
        exact pushesAs_one
    have hpath : (proofPath (item :: proof).reverse).reverse =
        [item.sibling.val, if item.direction = 0 then [] else [1]] ++
          (proofPath proof.reverse).reverse := by
      simp [proofPath]
    rw [hpath]
    exact (PushesAll.cons (pushDataItem_pushes hsibling) (.single hdirection)).append (ih hothers)

/-- What a claim's witness leaves on the stack. -/
theorem buildMerkleWitness_stack {destSpk redeem script : Bytes} {proof : List MerkleProofItem}
    {signature : Signature} (h : buildMerkleWitness destSpk proof signature redeem = .ok script) :
    sigStack script = some (redeem :: [] :: (signature.bytes.val ++ [signature.sighash]) ::
      destSpk :: (proofPath proof ++ [destSpk])) := by
  rw [buildMerkleWitness, bind_eq_ok] at h
  obtain ⟨last, hlast, h⟩ := h
  rw [bind_eq_ok] at h
  obtain ⟨levels, hlevels, h⟩ := h
  rw [bind_eq_ok] at h
  obtain ⟨leaf, hleaf, h⟩ := h
  rw [bind_eq_ok] at h
  obtain ⟨signed, hsigned, h⟩ := h
  rw [bind_eq_ok] at h
  obtain ⟨pushed, hpushed, heq⟩ := h
  cases heq
  have hall := (((((PushesAll.single (pushDataItem_pushes hlast)).append
    (pushLevels_pushes hlevels)).append (.single (pushDataItem_pushes hleaf))).append
    (.single (pushSignature_pushes hsigned))).append (.single pushesAs_zero)).append
    (.single (pushDataItem_pushes hpushed))
  rw [sigStack_of_pushesAll hall]
  simp

end KaspaPortal.Transaction.Pskt.Specialized
