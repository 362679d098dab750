import KaspaPortal.Contract.Covenant.Branch

/-!
# Witness consumption order along one selected covenant path

`src/contract/covenant/execution.rs`: the script is parsed into nested nodes and
the nodes are walked along a complete selector assignment. The walk keeps a count
of the stack items the script itself produced and records every witness item the
path takes. Depths are integers; the source's `isize` cannot overflow on a script
that fits in memory.

What a condition that the script computes turns out to be is not known here; the
walk is along selectors alone.
-/
namespace KaspaPortal.Contract.Covenant
open Lib Primitives

/-- Signature checks a selector and signature witness cannot satisfy on its own. -/
def SIGNATURE_CHECKS : List UInt8 := [0xab, OP_CHECKSIG, OP_CHECKSIGVERIFY, 0xae, 0xaf, 0xd7]

inductive WitnessItem where
  | selector (value : Bool)
  | signature (position : UInt8)
  deriving DecidableEq, Repr

inductive ExecutionError where
  | malformedScript
  | branchDepthExceeded
  | tooManyKeys
  | incompleteSelectors
  | unsupportedSignatureCheck
  | unsupportedOpcode
  | witnessDataRequired
  | dataDependentBranch
  deriving DecidableEq, Repr

inductive Node where
  /-- Any data push, small integers included. -/
  | push
  /-- A key push with its CHECKSIG or CHECKSIGVERIFY. -/
  | keyCheck (position : UInt8) (verify : Bool)
  | op (opcode : UInt8)
  | branch (bit : BitVec 16) (notif : Bool) (body otherwise : List Node)

structure OpenBranch where
  bit : BitVec 16
  notif : Bool
  body : List Node
  otherwise : Option (List Node)

/-- The open branches, innermost first, and the nodes outside all of them. -/
structure Parser where
  stack : List OpenBranch
  root : List Node
  nextBranch : Nat
  nextKey : Nat

namespace OpenBranch

/-- Append to the arm being read. -/
def add (self : OpenBranch) (node : Node) : OpenBranch :=
  match self.otherwise with
  | some otherwise => { self with otherwise := some (otherwise ++ [node]) }
  | none => { self with body := self.body ++ [node] }

def close (self : OpenBranch) : Node :=
  .branch self.bit self.notif self.body (self.otherwise.getD [])

end OpenBranch

namespace Parser

/-- `current().push(node)`. -/
def add (self : Parser) (node : Node) : Parser :=
  match self.stack with
  | branch :: outer => { self with stack := branch.add node :: outer }
  | [] => { self with root := self.root ++ [node] }

def enterBranch (self : Parser) (opcode : UInt8) : Except ExecutionError Parser :=
  if MAX_COVENANT_BRANCH_DEPTH ≤ self.stack.length ∨ 16 ≤ self.nextBranch then
    .error .branchDepthExceeded
  else .ok { self with
    nextBranch := self.nextBranch + 1
    stack := ⟨1#16 <<< self.nextBranch, opcode == OP_NOTIF, [], none⟩ :: self.stack }

def enterElse (self : Parser) : Except ExecutionError Parser :=
  match self.stack with
  | branch :: outer =>
    if branch.otherwise.isNone then
      .ok { self with stack := { branch with otherwise := some [] } :: outer }
    else .error .malformedScript
  | [] => .error .malformedScript

def leaveBranch (self : Parser) : Except ExecutionError Parser :=
  match self.stack with
  | branch :: outer => .ok ({ self with stack := outer }.add branch.close)
  | [] => .error .malformedScript

/-- A 32-byte push directly followed by CHECKSIG or CHECKSIGVERIFY is a key; with
the offset the element ends at. -/
def keyPush (self : Parser) (script : Bytes) (position : Nat) :
    Except ExecutionError (Parser × Nat) :=
  let stop := position + 33
  if script.length < stop then .error .malformedScript
  else if script[stop]? ≠ some OP_CHECKSIG ∧ script[stop]? ≠ some OP_CHECKSIGVERIFY then
    .ok (self.add .push, stop)
  else if MAX_COVENANT_BRANCH_KEYS ≤ self.nextKey then .error .tooManyKeys
  else if 256 ≤ self.nextKey then .error .tooManyKeys
  else
    let verify := decide (script[stop]? = some OP_CHECKSIGVERIFY)
    .ok ({ self with nextKey := self.nextKey + 1 }.add
      (.keyCheck (UInt8.ofNat self.nextKey) verify), stop + 1)

def dataPush (self : Parser) (script : Bytes) (position : Nat) :
    Except ExecutionError (Parser × Nat) := do
  let (_, stop) ← okOr .malformedScript (readElement script position)
  return (self.add .push, stop)

/-- The element at `position`, with the offset its operands end at, or 0 when it
has none to skip. -/
def element (self : Parser) (script : Bytes) (position : Nat) (opcode : UInt8) :
    Except ExecutionError (Parser × Nat) :=
  if opcode = OP_IF ∨ opcode = OP_NOTIF then (self.enterBranch opcode).map (·, 0)
  else if opcode = OP_ELSE then self.enterElse.map (·, 0)
  else if opcode = OP_ENDIF then self.leaveBranch.map (·, 0)
  else if opcode = OP_DATA_32 then self.keyPush script position
  else if 0x01 ≤ opcode ∧ opcode ≤ 0x4e then self.dataPush script position
  else if opcode = 0x00 ∨ opcode = 0x4f ∨ (0x51 ≤ opcode ∧ opcode ≤ 0x60) then
    .ok (self.add .push, 0)
  else .ok (self.add (.op opcode), 0)

/-- The loop over `script.iter().enumerate()` from `position` on. -/
def walk (script : Bytes) : Bytes → Nat → Nat → Parser → Except ExecutionError Parser
  | [], _, _, self => .ok self
  | opcode :: rest, position, operandsEnd, self =>
    if operandsEnd ≤ position then do
      let (next, operandsEnd) ← self.element script position opcode
      walk script rest (position + 1) operandsEnd next
    else walk script rest (position + 1) operandsEnd self

/-- The program and the mask of its selector bits. -/
def parse (script : Bytes) : Except ExecutionError (List Node × BitVec 16) := do
  let parser ← walk script script 0 0 ⟨[], [], 0, 0⟩
  if parser.stack ≠ [] then .error .malformedScript
  else return (parser.root, BitVec.ofNat 16 (2 ^ parser.nextBranch - 1))

end Parser

/-- Stack items an opcode pops and pushes, for opcodes whose effect is fixed. -/
def stackEffect (opcode : UInt8) : Option (Nat × Nat) :=
  if opcode = 0x61 then some (0, 0)
  else if opcode ∈ [0x69, 0x75, 0xb0, 0xb1] then some (1, 0)
  else if opcode = 0x6d then some (2, 0)
  else if opcode = 0x6e then some (2, 4)
  else if opcode ∈ [0x76, 0x82] then some (1, 2)
  else if opcode = 0x77 then some (2, 1)
  else if opcode ∈ [0x78, 0x7d] then some (2, 3)
  else if opcode = 0x7b then some (3, 3)
  else if opcode = 0x7c then some (2, 2)
  else if opcode ∈ [0x7f, 0xa5, 0xbc] then some (3, 1)
  else if opcode ∈ [0x88, 0x9d] then some (2, 0)
  else if opcode ∈ [0x8b, 0x8c, 0x8f, 0x90, 0x91, 0x92, 0xa8, 0xaa] then some (1, 1)
  else if opcode ∈ [0x7e, 0x87, 0x93, 0x94, 0x9a, 0x9b, 0x9c, 0x9e, 0x9f, 0xa0, 0xa1, 0xa2, 0xa3,
      0xa4] then some (2, 1)
  else if opcode ∈ [0xb3, 0xb4, 0xb9] then some (0, 1)
  else if opcode ∈ [0xbe, 0xbf, 0xc2, 0xc3, 0xc9, 0xcb, 0xcf, 0xd0, 0xd2, 0xd5] then some (1, 1)
  else if opcode = 0xd3 then some (2, 1)
  else none

def opcodeError (opcode : UInt8) : ExecutionError :=
  if opcode ∈ SIGNATURE_CHECKS then .unsupportedSignatureCheck else .unsupportedOpcode

/-- The effect of an opcode on the tracer's path, or why it has none. -/
def effectOf (opcode : UInt8) : Except ExecutionError (Nat × Nat) :=
  okOr (opcodeError opcode) (stackEffect opcode)

/-- Both arms of a computed branch must agree on their stack effect. -/
def joinArms (body otherwise : Nat × Int) : Except ExecutionError (Int × Int) :=
  if body.2 ≠ otherwise.2 then .error .dataDependentBranch
  else .ok ((max body.1 otherwise.1 : Nat), body.2)

mutual
/-- One node of a pure block, from the depth reached and the need so far. -/
def pureStep : Node → Int × Int → Except ExecutionError (Int × Int)
  | .push, (depth, need) => .ok (depth + 1, max need (-depth))
  | .keyCheck _ _, _ => .error .dataDependentBranch
  | .op opcode, (depth, need) => do
    let (pops, pushes) ← effectOf opcode
    let below := depth - pops
    return (below + pushes, max need (-below))
  | .branch _ _ body otherwise, (depth, need) => do
    -- the condition pops one item; the arms' need counts from below it
    let below := depth - 1
    let (thenDepth, thenNeed) ← pureRun body (0, 0)
    let (elseDepth, elseNeed) ← pureRun otherwise (0, 0)
    let (armsNeed, delta) ← joinArms (thenNeed.toNat, thenDepth) (elseNeed.toNat, elseDepth)
    return (below + delta, max need (armsNeed - below))

def pureRun : List Node → Int × Int → Except ExecutionError (Int × Int)
  | [], acc => .ok acc
  | node :: rest, acc => pureStep node acc >>= pureRun rest
end

/-- Items a pure block needs below it, and its net stack effect. -/
def pureEffect (nodes : List Node) : Except ExecutionError (Nat × Int) := do
  let (depth, need) ← pureRun nodes (0, 0)
  return (need.toNat, depth)

def armsEffect (body otherwise : List Node) : Except ExecutionError (Int × Int) := do
  let thenEffect ← pureEffect body
  let elseEffect ← pureEffect otherwise
  joinArms thenEffect elseEffect

mutual
def isKeyed : Node → Bool
  | .keyCheck _ _ => true
  | .branch _ _ body otherwise => holdsKeyCheck body || holdsKeyCheck otherwise
  | .push => false
  | .op _ => false

def holdsKeyCheck : List Node → Bool
  | [] => false
  | node :: rest => isKeyed node || holdsKeyCheck rest
end

structure Walk where
  produced : Nat
  items : List WitnessItem
  deriving DecidableEq

namespace Walk

def pop (self : Walk) (count : Nat) : Except ExecutionError Walk :=
  if self.produced < count then .error .witnessDataRequired
  else .ok { self with produced := self.produced - count }

/-- The value the assignment supplies for a selector bit. -/
def supplied (suppliedTrueMask bit : BitVec 16) : Bool := suppliedTrueMask &&& bit != 0

mutual
def step (suppliedTrueMask : BitVec 16) : Node → Walk → Except ExecutionError Walk
  | .push, self => .ok { self with produced := self.produced + 1 }
  | .keyCheck position verify, self =>
    -- the signature beneath the key must come from the witness
    if self.produced ≠ 0 then .error .unsupportedSignatureCheck
    else .ok ⟨if verify then 0 else 1, self.items ++ [.signature position]⟩
  | .op opcode, self => do
    let (pops, pushes) ← effectOf opcode
    let self ← self.pop pops
    return { self with produced := self.produced + pushes }
  | .branch bit notif body otherwise, self =>
    let value := supplied suppliedTrueMask bit
    if self.produced = 0 then
      let self := { self with items := self.items ++ [.selector value] }
      if value != notif then run suppliedTrueMask body self
      else run suppliedTrueMask otherwise self
    else do
      let self ← self.pop 1
      if holdsKeyCheck body || holdsKeyCheck otherwise then
        if value != notif then run suppliedTrueMask body self
        else run suppliedTrueMask otherwise self
      else
        let (need, delta) ← armsEffect body otherwise
        if (self.produced : Int) < need then .error .witnessDataRequired
        else return { self with produced := ((self.produced : Int) + delta).toNat }

def run (suppliedTrueMask : BitVec 16) : List Node → Walk → Except ExecutionError Walk
  | [], self => .ok self
  | node :: rest, self => step suppliedTrueMask node self >>= run suppliedTrueMask rest
end

/-- The arm a branch with this condition takes. -/
def arm (value notif : Bool) (body otherwise : List Node) : List Node :=
  if value != notif then body else otherwise

theorem run_arm (truth : BitVec 16) (value notif : Bool) (body otherwise : List Node) (w : Walk) :
    (if value != notif then run truth body w else run truth otherwise w) =
      run truth (arm value notif body otherwise) w := by
  unfold arm
  split <;> rfl

/-! What a successful step has done. -/

section steps
variable {truth : BitVec 16} {w w' : Walk}

theorem pop_eq_ok {count : Nat} :
    w.pop count = .ok w' ↔ count ≤ w.produced ∧ w' = { w with produced := w.produced - count } := by
  unfold pop
  split
  · rename_i h
    exact ⟨nofun, fun h' => absurd h'.1 (Nat.not_le_of_lt h)⟩
  · rename_i h
    exact ⟨fun h' => ⟨Nat.le_of_not_lt h, (Except.ok.inj h').symm⟩, fun h' => by rw [h'.2]⟩

theorem step_op {opcode : UInt8} (h : step truth (.op opcode) w = .ok w') :
    ∃ pops pushes, stackEffect opcode = some (pops, pushes) ∧ pops ≤ w.produced ∧
      w' = { w with produced := w.produced - pops + pushes } := by
  simp only [step] at h
  obtain ⟨⟨pops, pushes⟩, heff, h⟩ := bind_eq_ok.mp h
  obtain ⟨popped, hpop, h⟩ := bind_eq_ok.mp h
  obtain ⟨hle, rfl⟩ := pop_eq_ok.mp hpop
  exact ⟨pops, pushes, okOr_eq_ok.mp heff, hle, (Except.ok.inj h).symm⟩

theorem step_keyCheck {position : UInt8} {verify : Bool}
    (h : step truth (.keyCheck position verify) w = .ok w') :
    w.produced = 0 ∧ w' = ⟨if verify then 0 else 1, w.items ++ [.signature position]⟩ := by
  simp only [step] at h
  split at h
  · cases h
  · rename_i hz
    exact ⟨by simpa using hz, (Except.ok.inj h).symm⟩

/-- A branch takes its selector from the witness, or is computed: with a key
check in it it is followed as named, otherwise only its arms' effect counts. -/
theorem step_branch {bit : BitVec 16} {notif : Bool} {body otherwise : List Node}
    (h : step truth (.branch bit notif body otherwise) w = .ok w') :
    (w.produced = 0 ∧ run truth (arm (supplied truth bit) notif body otherwise)
      { w with items := w.items ++ [.selector (supplied truth bit)] } = .ok w') ∨
    (1 ≤ w.produced ∧ (holdsKeyCheck body || holdsKeyCheck otherwise) = true ∧
      run truth (arm (supplied truth bit) notif body otherwise)
        { w with produced := w.produced - 1 } = .ok w') ∨
    (1 ≤ w.produced ∧ (holdsKeyCheck body || holdsKeyCheck otherwise) = false ∧
      ∃ need delta, armsEffect body otherwise = .ok (need, delta) ∧
        need ≤ ((w.produced - 1 : Nat) : Int) ∧
        w' = { w with produced := (((w.produced - 1 : Nat) : Int) + delta).toNat }) := by
  simp only [step] at h
  by_cases hz : w.produced = 0
  · rw [if_pos hz, run_arm] at h
    exact Or.inl ⟨hz, h⟩
  · rw [if_neg hz] at h
    obtain ⟨popped, hpop, h⟩ := bind_eq_ok.mp h
    obtain ⟨hle, rfl⟩ := pop_eq_ok.mp hpop
    refine Or.inr ?_
    by_cases hk : (holdsKeyCheck body || holdsKeyCheck otherwise) = true
    · rw [if_pos hk, run_arm] at h
      exact Or.inl ⟨hle, hk, h⟩
    · rw [if_neg hk] at h
      obtain ⟨⟨need, delta⟩, harms, h⟩ := bind_eq_ok.mp h
      simp only at h
      split at h
      · cases h
      · rename_i hneed
        exact Or.inr ⟨hle, by simpa using hk, need, delta, harms, by omega,
          (Except.ok.inj h).symm⟩

end steps
end Walk

/-- Witness items the path chosen by a complete selector assignment consumes, in
the order the script consumes them. -/
def traceWitness (script : Bytes) (suppliedMask suppliedTrueMask : BitVec 16) :
    Except ExecutionError (List WitnessItem) := do
  let (program, selectorMask) ← Parser.parse script
  if suppliedMask ≠ selectorMask ∨ suppliedTrueMask &&& ~~~suppliedMask ≠ 0 then
    .error .incompleteSelectors
  else
    let walk ← Walk.run suppliedTrueMask program ⟨0, []⟩
    return walk.items

end KaspaPortal.Contract.Covenant
