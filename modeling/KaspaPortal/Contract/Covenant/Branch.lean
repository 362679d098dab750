import KaspaPortal.Lib.Decisions
import KaspaPortal.Lib.Result
import KaspaPortal.Primitives.Script

/-!
# Covenant branch resolver

`src/contract/covenant/branch.rs`: one pass over the script that gives every
branch a selector bit and every canonical signature key the masks of the branches
around it. The source's arrays with a length are lists here; the open frames are
a list with the innermost first.

The lookups of a single key by its position or by a truth assignment are left
out: the signer and the host read the resolution itself.
-/
namespace KaspaPortal.Contract.Covenant
open Lib Primitives

/-- One selector bit for each branch of the whole script, open or closed. -/
def MAX_COVENANT_BRANCH_DEPTH : Nat := 16

def MAX_COVENANT_BRANCH_KEYS : Nat := 16

inductive BranchResolveError where
  | malformedScript
  | branchDepthExceeded
  | tooManyKeys
  | ambiguousKey
  | keyNotFound
  | positionOutOfRange
  deriving DecidableEq, Repr

/-- A signature key with the branches it stands in. -/
structure BranchKey where
  key : FixedBytes 32
  /-- The decisions active on the way to the key. -/
  decisionMask : BitVec 16
  /-- The truth value the spender must supply for each of them. -/
  ifMask : BitVec 16
  deriving DecidableEq

/-- Every decision on the way is supplied, and with the value the key needs. -/
def BranchKey.matchesSelectors (self : BranchKey) (suppliedMask suppliedTrueMask : BitVec 16) :
    Bool :=
  suppliedMask &&& self.decisionMask == self.decisionMask &&
    (suppliedTrueMask ^^^ self.ifMask) &&& self.decisionMask == 0

/-- No two entries bind the same key to the same branch. -/
structure BranchResolution where
  keys : List BranchKey
  selectorMask : BitVec 16
  keys_length : keys.length ≤ MAX_COVENANT_BRANCH_KEYS
  keys_nodup : keys.Nodup

namespace BranchResolution

/-- A signature names its key by the position in the resolution. -/
def keyAt (self : BranchResolution) (position : UInt8) : Except BranchResolveError BranchKey :=
  okOr .positionOutOfRange (self.keys[position.toNat]?)

/-- The same key may stand again in another branch, but not twice in one. -/
def push (self : BranchResolution) (item : BranchKey) :
    Except BranchResolveError BranchResolution :=
  if hmem : item ∈ self.keys then .error .ambiguousKey
  else if hlen : MAX_COVENANT_BRANCH_KEYS ≤ self.keys.length then .error .tooManyKeys
  else .ok {
    keys := self.keys ++ [item]
    selectorMask := self.selectorMask
    keys_length := by simp; omega
    keys_nodup := by
      rw [List.nodup_append]
      exact ⟨self.keys_nodup, by simp, fun a ha b hb => by
        rintro rfl
        exact hmem (List.mem_singleton.mp hb ▸ ha)⟩ }

end BranchResolution

/-- An open branch: its selector bit, and whether its `ELSE` has been passed. -/
structure Frame where
  bit : BitVec 16
  inElse : Bool
  deriving DecidableEq

/-- The state of the walk; the masks are those of the branches open here. -/
structure BranchParser where
  out : BranchResolution
  frames : List Frame
  nextBranch : Nat
  decisionMask : BitVec 16
  ifMask : BitVec 16

/-- The width of a 32-byte key push: its length byte plus the key. -/
def KEY_PUSH : Nat := 33

namespace BranchParser

def new : BranchParser where
  out := ⟨[], 0, Nat.zero_le _, List.nodup_nil⟩
  frames := []
  nextBranch := 0
  decisionMask := 0
  ifMask := 0

/-- A `NOTIF` starts in the arm that a false selector takes. -/
def enterBranch (self : BranchParser) (opcode : UInt8) : Except BranchResolveError BranchParser :=
  if MAX_COVENANT_BRANCH_DEPTH ≤ self.nextBranch then .error .branchDepthExceeded
  else
    let bit := 1#16 <<< self.nextBranch
    .ok {
      out := { self.out with selectorMask := self.out.selectorMask ||| bit }
      frames := ⟨bit, false⟩ :: self.frames
      nextBranch := self.nextBranch + 1
      decisionMask := self.decisionMask ||| bit
      ifMask := if opcode = OP_IF then self.ifMask ||| bit else self.ifMask }

/-- The other arm needs the opposite value; a second `ELSE` is refused. -/
def enterElse (self : BranchParser) : Except BranchResolveError BranchParser :=
  match self.frames with
  | [] => .error .malformedScript
  | frame :: outer =>
    if frame.inElse then .error .malformedScript
    else .ok { self with
      frames := ⟨frame.bit, true⟩ :: outer
      ifMask := self.ifMask ^^^ frame.bit }

/-- The branch's bit leaves both masks. -/
def leaveBranch (self : BranchParser) : Except BranchResolveError BranchParser :=
  match self.frames with
  | [] => .error .malformedScript
  | frame :: outer => .ok { self with
      frames := outer
      decisionMask := self.decisionMask &&& ~~~frame.bit
      ifMask := self.ifMask &&& ~~~frame.bit }

/-- A byte array of the expected length, or nothing. -/
def tryInto (n : Nat) (b : Bytes) : Option (FixedBytes n) :=
  if h : b.length = n then some ⟨b, h⟩ else none

/-- Record a 32-byte key push that a CHECKSIG(VERIFY) consumes. -/
def inspectKeyPush (self : BranchParser) (rest : Bytes) :
    Except BranchResolveError BranchParser := do
  let key ← okOr .malformedScript (slice rest 1 KEY_PUSH)
  if rest[KEY_PUSH]? = some OP_CHECKSIG ∨ rest[KEY_PUSH]? = some OP_CHECKSIGVERIFY then
    let key ← okOr .malformedScript (tryInto 32 key)
    let out ← self.out.push ⟨key, self.decisionMask, self.ifMask⟩
    return { self with out := out }
  else return self

/-- Interpret the opcode at the start of `rest`; with how many bytes it spans. -/
def step (self : BranchParser) (rest : Bytes) (opcode : UInt8) :
    Except BranchResolveError (BranchParser × Nat) :=
  if opcode = OP_IF ∨ opcode = OP_NOTIF then (self.enterBranch opcode).map (·, 1)
  else if opcode = OP_ELSE then self.enterElse.map (·, 1)
  else if opcode = OP_ENDIF then self.leaveBranch.map (·, 1)
  else if opcode = OP_DATA_32 then (self.inspectKeyPush rest).map (·, KEY_PUSH)
  else if 0x01 ≤ opcode ∧ opcode ≤ 0x4e then do
    let (_, stop) ← okOr .malformedScript (readElement rest 0)
    if stop = 0 then .error .malformedScript else return (self, stop)
  else .ok (self, 1)

/-- A script that ends inside a branch has no resolution. -/
def finish (self : BranchParser) : Except BranchResolveError BranchResolution :=
  if self.frames ≠ [] then .error .malformedScript else .ok self.out

/-- The loop over the script, `skip` bytes of the element just read still ahead.
An element that runs past the end leaves some of them over. -/
def walk : Nat → BranchParser → Bytes → Except BranchResolveError BranchParser
  | 0, self, [] => .ok self
  | _ + 1, _, [] => .error .malformedScript
  | skip + 1, self, _ :: rest => walk skip self rest
  | 0, self, opcode :: rest => do
    let (next, width) ← self.step (opcode :: rest) opcode
    walk (width - 1) next rest

end BranchParser

/-- The keys of the script in the order they are met, with their branches. -/
def resolveCovenantBranches (script : Bytes) : Except BranchResolveError BranchResolution := do
  let parser ← BranchParser.walk 0 BranchParser.new script
  parser.finish

end KaspaPortal.Contract.Covenant
