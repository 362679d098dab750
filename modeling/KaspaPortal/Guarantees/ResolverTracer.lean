import KaspaPortal.Transaction.Pskt.CovenantPath

/-!
# The resolver and the tracer agree

The resolver keeps two masks while it reads a script, the tracer builds a tree and
walks it. Both are compared with a third reading: every key check of the tree with
the path of decisions around it. `Lockstep` relates the two parsers after any
prefix of a script; `run_signatures` says which of the keys a walk signs.

Nothing is executed here. That a real stack behaves as the tracer counts is the
subject of the witness machine.
-/
namespace KaspaPortal.Guarantees
open Lib Primitives Contract.Covenant Transaction.Pskt

namespace ResolverTracer

/-- A key check and the decisions that lead to it, innermost first. -/
structure KeyPath where
  position : UInt8
  path : Path 16

mutual
/-- The keys of a tree, each with the path that leads to it. -/
def nodeKeys (path : Path 16) : Node → List KeyPath
  | .keyCheck position _ => [⟨position, path⟩]
  | .branch bit notif body otherwise =>
    keysOf ((bit, !notif) :: path) body ++ keysOf ((bit, notif) :: path) otherwise
  | .push => []
  | .op _ => []

def keysOf (path : Path 16) : List Node → List KeyPath
  | [] => []
  | node :: rest => nodeKeys path node ++ keysOf path rest
end

theorem keysOf_append (path : Path 16) (a b : List Node) :
    keysOf path (a ++ b) = keysOf path a ++ keysOf path b := by
  induction a with
  | nil => rfl
  | cons node a ih => rw [List.cons_append, keysOf, keysOf, ih, List.append_assoc]

/-! ## The tree under construction -/

/-- The decisions around the node the tracer reads next. -/
def openPath : List OpenBranch → Path 16
  | [] => []
  | branch :: outer => (branch.bit, branch.otherwise.isSome == branch.notif) :: openPath outer

/-- The key checks read so far, in script order. -/
def openKeys (root : List Node) : List OpenBranch → List KeyPath
  | [] => keysOf [] root
  | branch :: outer => openKeys root outer ++
      (keysOf ((branch.bit, !branch.notif) :: openPath outer) branch.body ++
        keysOf ((branch.bit, branch.notif) :: openPath outer) (branch.otherwise.getD []))

theorem openPath_add (p : Parser) (node : Node) : openPath (p.add node).stack = openPath p.stack := by
  unfold Parser.add
  split
  · rename_i branch outer hs
    rw [hs]
    unfold OpenBranch.add
    split <;> simp_all [openPath]
  · rfl

/-- Adding a node to the open branch adds its keys, under the path of the branch. -/
theorem openKeys_add (p : Parser) (node : Node) :
    openKeys (p.add node).root (p.add node).stack =
      openKeys p.root p.stack ++ nodeKeys (openPath p.stack) node := by
  unfold Parser.add
  split
  · rename_i branch outer hs
    rw [hs]
    unfold OpenBranch.add
    cases ho : branch.otherwise with
    | some otherwise => simp [openKeys, openPath, ho, keysOf_append, keysOf]
    | none => simp [openKeys, openPath, ho, keysOf_append, keysOf]
  · rename_i hs
    simp [openKeys, openPath, hs, keysOf_append, keysOf]

/-- Closing a branch leaves the keys where they were. -/
theorem openKeys_close (root : List Node) (branch : OpenBranch) (outer : List OpenBranch) :
    openKeys root outer ++ nodeKeys (openPath outer) branch.close =
      openKeys root (branch :: outer) := rfl

/-! ## Lockstep -/

/-- What the resolver records of a key, from its place in the script. -/
def recorded (entry : BranchKey × Nat) : UInt8 × BitVec 16 × BitVec 16 :=
  (UInt8.ofNat entry.2, entry.1.decisionMask, entry.1.ifMask)

/-- What both walkers know of a key. -/
def summary (k : KeyPath) : UInt8 × BitVec 16 × BitVec 16 :=
  (k.position, k.path.decided, k.path.wanted)

/-- The two parsers after the same prefix of a script. -/
structure Lockstep (r : BranchParser) (p : Parser) : Prop where
  nextBranch : r.nextBranch = p.nextBranch
  nextKey : r.out.keys.length = p.nextKey
  frames : r.frames = p.stack.map fun b => ⟨b.bit, b.otherwise.isSome⟩
  decided : r.decisionMask = (openPath p.stack).decided
  wanted : r.ifMask = (openPath p.stack).wanted
  distinct : (openPath p.stack).Distinct p.nextBranch
  keys : r.out.keys.zipIdx.map recorded = (openKeys p.root p.stack).map summary
  keysDistinct : ∀ k ∈ openKeys p.root p.stack, k.path.Distinct p.nextBranch

section steps
variable {r r' : BranchParser} {p p' : Parser}

@[simp] theorem add_nextBranch (node : Node) : (p.add node).nextBranch = p.nextBranch := by
  unfold Parser.add
  split <;> rfl

@[simp] theorem add_nextKey (node : Node) : (p.add node).nextKey = p.nextKey := by
  unfold Parser.add
  split <;> rfl

theorem add_frames (node : Node) : ((p.add node).stack.map fun b => (⟨b.bit, b.otherwise.isSome⟩ : Frame)) =
    p.stack.map fun b => ⟨b.bit, b.otherwise.isSome⟩ := by
  unfold Parser.add
  split
  · rename_i branch outer hs
    rw [hs]
    unfold OpenBranch.add
    split <;> simp_all
  · rfl

/-- Appending a node to the tree, when the resolver has recorded the node's keys. -/
theorem lockstep_of_add {node : Node} (nextBranch : r.nextBranch = p.nextBranch)
    (nextKey : r.out.keys.length = p.nextKey)
    (frames : r.frames = p.stack.map fun b => ⟨b.bit, b.otherwise.isSome⟩)
    (decided : r.decisionMask = (openPath p.stack).decided)
    (wanted : r.ifMask = (openPath p.stack).wanted)
    (distinct : (openPath p.stack).Distinct p.nextBranch)
    (keys : r.out.keys.zipIdx.map recorded =
      (openKeys p.root p.stack ++ nodeKeys (openPath p.stack) node).map summary)
    (keysDistinct : ∀ k ∈ openKeys p.root p.stack ++ nodeKeys (openPath p.stack) node,
      k.path.Distinct p.nextBranch) : Lockstep r (p.add node) := by
  refine ⟨?_, ?_, ?_, ?_, ?_, ?_, ?_, ?_⟩
  · rw [add_nextBranch, nextBranch]
  · rw [add_nextKey, nextKey]
  · rw [add_frames, frames]
  · rw [openPath_add, decided]
  · rw [openPath_add, wanted]
  · rw [openPath_add, add_nextBranch]
    exact distinct
  · rw [openKeys_add, keys]
  · rw [openKeys_add, add_nextBranch]
    exact keysDistinct

/-- A node without keys changes nothing the resolver sees. -/
theorem lockstep_add (h : Lockstep r p) {node : Node} (hnode : ∀ path, nodeKeys path node = []) :
    Lockstep r (p.add node) := by
  apply lockstep_of_add h.nextBranch h.nextKey h.frames h.decided h.wanted h.distinct
  · rw [hnode, List.append_nil]
    exact h.keys
  · rw [hnode, List.append_nil]
    exact h.keysDistinct

/-- Both walkers open a branch at the same opcode, under the same selector bit. -/
theorem lockstep_enter (h : Lockstep r p) {opcode : UInt8}
    (hop : opcode = OP_IF ∨ opcode = OP_NOTIF) (hr : r.enterBranch opcode = .ok r')
    (hp : p.enterBranch opcode = .ok p') : Lockstep r' p' := by
  unfold BranchParser.enterBranch at hr
  unfold Parser.enterBranch at hp
  split at hr
  · cases hr
  · rename_i hbound
    split at hp
    · cases hp
    · cases hr
      cases hp
      have hlt : p.nextBranch < 16 := by
        rw [← h.nextBranch]
        exact Nat.lt_of_not_le hbound
      have hpath : openPath (⟨1#16 <<< p.nextBranch, opcode == OP_NOTIF, [], none⟩ :: p.stack) =
          (BitVec.twoPow 16 p.nextBranch, opcode == OP_IF) :: openPath p.stack := by
        rw [BitVec.twoPow_eq]
        rcases hop with rfl | rfl <;> rfl
      have hkeys : openKeys p.root (⟨1#16 <<< p.nextBranch, opcode == OP_NOTIF, [], none⟩ ::
          p.stack) = openKeys p.root p.stack := by
        simp [openKeys, keysOf]
      refine ⟨?_, h.nextKey, ?_, ?_, ?_, ?_, ?_, ?_⟩
      · simp only [h.nextBranch]
      · simp [h.nextBranch, h.frames]
      · simp only [hpath, Path.decided_cons, h.decided, h.nextBranch, BitVec.twoPow_eq]
        exact BitVec.or_comm _ _
      · simp only [hpath, Path.wanted_cons, h.wanted, h.nextBranch, BitVec.twoPow_eq, beq_iff_eq]
        split
        · exact BitVec.or_comm _ _
        · simp
      · rw [hpath]
        exact h.distinct.cons hlt _
      · rw [hkeys]
        exact h.keys
      · rw [hkeys]
        exact fun k hk => (h.keysDistinct k hk).mono (Nat.le_succ _)

/-- Both turn to the other side. -/
theorem lockstep_else (h : Lockstep r p) (hr : r.enterElse = .ok r') (hp : p.enterElse = .ok p') :
    Lockstep r' p' := by
  unfold BranchParser.enterElse at hr
  unfold Parser.enterElse at hp
  cases hs : p.stack with
  | nil => simp [hs] at hp
  | cons branch outer =>
    have hframes := h.frames
    rw [hs, List.map_cons] at hframes
    simp only [hframes] at hr
    simp only [hs] at hp
    split at hr
    · cases hr
    · split at hp
      · rename_i hnone
        cases hr
        cases hp
        have ho : branch.otherwise = none := by simpa using hnone
        have hdist := h.distinct
        rw [hs, openPath, ho] at hdist
        have hkeys : openKeys p.root ({ branch with otherwise := some [] } :: outer) =
            openKeys p.root p.stack := by
          simp [hs, openKeys, ho]
        have hpath : openPath ({ branch with otherwise := some [] } :: outer) =
            (branch.bit, !((none : Option (List Node)).isSome == branch.notif)) :: openPath outer := by
          cases branch.notif <;> simp [openPath]
        refine ⟨h.nextBranch, h.nextKey, by simp, ?_, ?_, ?_, ?_, ?_⟩
        · simp only [h.decided, hs, openPath, Path.decided_cons]
        · show r.ifMask ^^^ branch.bit = _
          rw [hpath, h.wanted, hs, openPath, ho]
          exact Path.wanted_flip hdist
        · rw [hpath]
          exact hdist.flip
        · rw [hkeys]
          exact h.keys
        · rw [hkeys]
          exact h.keysDistinct
      · cases hp

/-- Both close it, and are back in the branch around it. -/
theorem lockstep_leave (h : Lockstep r p) (hr : r.leaveBranch = .ok r')
    (hp : p.leaveBranch = .ok p') : Lockstep r' p' := by
  unfold BranchParser.leaveBranch at hr
  unfold Parser.leaveBranch at hp
  cases hs : p.stack with
  | nil => simp [hs] at hp
  | cons branch outer =>
    have hframes := h.frames
    rw [hs, List.map_cons] at hframes
    simp only [hframes] at hr
    simp only [hs] at hp
    cases hr
    cases hp
    have hdist := h.distinct
    rw [hs, openPath] at hdist
    have hkeys := h.keys
    have hkeysDistinct := h.keysDistinct
    rw [hs, ← openKeys_close] at hkeys hkeysDistinct
    apply lockstep_of_add
    · exact h.nextBranch
    · exact h.nextKey
    · rfl
    · simp only [h.decided, hs, openPath]
      exact Path.decided_clear hdist
    · simp only [h.wanted, hs, openPath]
      exact Path.wanted_clear hdist
    · exact hdist.tail
    · exact hkeys
    · exact hkeysDistinct

/-- Both record a key with the same position and the same path. -/
theorem lockstep_key (h : Lockstep r p) {key : FixedBytes 32} {out : BranchResolution}
    {verify : Bool} (hout : r.out.push ⟨key, r.decisionMask, r.ifMask⟩ = .ok out) :
    Lockstep { r with out := out }
      ({ p with nextKey := p.nextKey + 1 }.add (.keyCheck (UInt8.ofNat p.nextKey) verify)) := by
  have hkeys : out.keys = r.out.keys ++ [⟨key, r.decisionMask, r.ifMask⟩] := by
    unfold BranchResolution.push at hout
    split at hout
    · cases hout
    · split at hout
      · cases hout
      · cases hout
        rfl
  apply lockstep_of_add
  · exact h.nextBranch
  · rw [hkeys, List.length_append, List.length_singleton, h.nextKey]
  · exact h.frames
  · exact h.decided
  · exact h.wanted
  · exact h.distinct
  · rw [hkeys, List.zipIdx_append, List.map_append, List.map_append, h.keys]
    simp [nodeKeys, recorded, summary, h.nextKey, h.decided, h.wanted]
  · intro k hk
    rcases List.mem_append.mp hk with hk | hk
    · exact h.keysDistinct k hk
    · obtain rfl := List.mem_singleton.mp hk
      exact h.distinct

end steps

/-! ## The two loops -/

/-- The opcodes that make a pushed key a signing one. -/
def IsCheck (opcode : Option UInt8) : Prop :=
  opcode = some OP_CHECKSIG ∨ opcode = some OP_CHECKSIGVERIFY

/-- The resolver still skips `skip` bytes where the tracer skips to `operandsEnd`.
After a key the tracer also skips the check, which the resolver reads as an
opcode of its own. -/
def Aligned (rest : Bytes) (position operandsEnd skip : Nat) : Prop :=
  max operandsEnd position = position + skip ∨
    (operandsEnd = position + skip + 1 ∧ IsCheck (rest[skip]?))

section loops
variable {r r' : BranchParser} {p p' : Parser} {script pre rest : Bytes}

/-- A push is a key for one walker exactly when it is for the other. -/
theorem key_lockstep (h : Lockstep r p) {opcode : UInt8} {stop : Nat}
    (hscript : script = pre ++ opcode :: rest)
    (hr : r.inspectKeyPush (opcode :: rest) = .ok r')
    (hp : p.keyPush script pre.length = .ok (p', stop)) :
    Lockstep r' p' ∧ Aligned rest (pre.length + 1) stop (KEY_PUSH - 1) := by
  have hcheck : script[pre.length + 33]? = (opcode :: rest)[KEY_PUSH]? := by
    rw [hscript, List.getElem?_append_right (by omega), Nat.add_sub_cancel_left]
    rfl
  unfold BranchParser.inspectKeyPush at hr
  obtain ⟨key, -, hr⟩ := bind_eq_ok.mp hr
  unfold Parser.keyPush at hp
  simp only [hcheck] at hp
  split at hp
  · cases hp
  · split at hp
    · rename_i hno
      rw [if_neg (by tauto)] at hr
      cases hr
      cases hp
      exact ⟨lockstep_add h fun _ => rfl, Or.inl (by simp only [KEY_PUSH]; omega)⟩
    · rename_i hyes
      split at hp
      · cases hp
      · split at hp
        · cases hp
        · cases hp
          have hc : (opcode :: rest)[KEY_PUSH]? = some OP_CHECKSIG ∨
              (opcode :: rest)[KEY_PUSH]? = some OP_CHECKSIGVERIFY := by tauto
          rw [if_pos hc] at hr
          obtain ⟨key', -, hr⟩ := bind_eq_ok.mp hr
          obtain ⟨out, hout, hr⟩ := bind_eq_ok.mp hr
          cases hr
          exact ⟨lockstep_key h hout, Or.inr ⟨by simp only [KEY_PUSH], hc⟩⟩

/-- Control opcodes span one byte on both sides. -/
theorem control_lockstep {x : Except BranchResolveError BranchParser}
    {y : Except ExecutionError Parser} {width stop : Nat}
    (hxy : ∀ a b, x = .ok a → y = .ok b → Lockstep a b) (hr : x.map (·, 1) = .ok (r', width))
    (hp : y.map (·, 0) = .ok (p', stop)) :
    Lockstep r' p' ∧ Aligned rest (pre.length + 1) stop (width - 1) := by
  obtain ⟨a, ha, hra⟩ := map_eq_ok.mp hr
  obtain ⟨b, hb, hpb⟩ := map_eq_ok.mp hp
  obtain ⟨rfl, rfl⟩ := Prod.mk.inj hra
  obtain ⟨rfl, rfl⟩ := Prod.mk.inj hpb
  exact ⟨hxy a b ha hb, Or.inl (by omega)⟩

/-- The two parsers read one element each. -/
theorem element_lockstep (h : Lockstep r p) {opcode : UInt8} {width stop : Nat}
    (hscript : script = pre ++ opcode :: rest)
    (hr : r.step (opcode :: rest) opcode = .ok (r', width))
    (hp : p.element script pre.length opcode = .ok (p', stop)) :
    Lockstep r' p' ∧ Aligned rest (pre.length + 1) stop (width - 1) := by
  have hone : Aligned rest (pre.length + 1) 0 (1 - 1) := Or.inl (by omega)
  unfold BranchParser.step at hr
  unfold Parser.element at hp
  by_cases hif : opcode = OP_IF ∨ opcode = OP_NOTIF
  · rw [if_pos hif] at hr hp
    exact control_lockstep (fun _ _ => lockstep_enter h hif) hr hp
  rw [if_neg hif] at hr hp
  by_cases helse : opcode = OP_ELSE
  · rw [if_pos helse] at hr hp
    exact control_lockstep (fun _ _ => lockstep_else h) hr hp
  rw [if_neg helse] at hr hp
  by_cases hend : opcode = OP_ENDIF
  · rw [if_pos hend] at hr hp
    exact control_lockstep (fun _ _ => lockstep_leave h) hr hp
  rw [if_neg hend] at hr hp
  by_cases hkey : opcode = OP_DATA_32
  · rw [if_pos hkey] at hr hp
    obtain ⟨a, ha, hra⟩ := map_eq_ok.mp hr
    cases hra
    exact key_lockstep h hscript ha hp
  rw [if_neg hkey] at hr hp
  by_cases hpush : 0x01 ≤ opcode ∧ opcode ≤ 0x4e
  · rw [if_pos hpush] at hr hp
    obtain ⟨⟨e, next⟩, he, hr⟩ := bind_eq_ok.mp hr
    obtain ⟨⟨e', next'⟩, he', hp⟩ := bind_eq_ok.mp hp
    rw [okOr_eq_ok] at he he'
    -- the same element, read at two offsets
    rw [hscript, readElement_append, he] at he'
    cases he'
    simp only at hr hp
    split at hr
    · cases hr
    · cases hr
      cases hp
      exact ⟨lockstep_add h fun _ => rfl, Or.inl (by omega)⟩
  rw [if_neg hpush] at hr hp
  cases hr
  split at hp
  · cases hp
    exact ⟨lockstep_add h fun _ => rfl, hone⟩
  · cases hp
    exact ⟨lockstep_add h fun _ => rfl, hone⟩

/-- The resolver passes over a signature check. -/
theorem step_check {opcode : UInt8} (h : IsCheck (some opcode)) :
    r.step (opcode :: rest) opcode = .ok (r, 1) := by
  rcases h with h | h
  · cases h
    rfl
  · cases h
    rfl

/-- By induction on the script: the walkers stay in step from opcode to opcode. -/
theorem walk_lockstep {skip operandsEnd : Nat} (hscript : script = pre ++ rest)
    (h : Lockstep r p) (ha : Aligned rest pre.length operandsEnd skip)
    (hr : BranchParser.walk skip r rest = .ok r')
    (hp : Parser.walk script rest pre.length operandsEnd p = .ok p') : Lockstep r' p' := by
  induction rest generalizing pre r p skip operandsEnd with
  | nil =>
    cases skip with
    | zero =>
      cases hr
      cases hp
      exact h
    | succ skip => cases hr
  | cons opcode rest ih =>
    have hnext : script = (pre ++ [opcode]) ++ rest := by simp [hscript]
    have hlen : pre.length + 1 = (pre ++ [opcode]).length := by simp
    cases skip with
    | succ skip =>
      rw [BranchParser.walk] at hr
      have hgt : ¬ operandsEnd ≤ pre.length := by
        rcases ha with ha | ⟨ha, -⟩ <;> omega
      rw [Parser.walk, if_neg hgt, hlen] at hp
      refine ih hnext h ?_ hr hp
      rcases ha with ha | ⟨ha, hc⟩
      · exact Or.inl (by omega)
      · exact Or.inr ⟨by omega, by simpa using hc⟩
    | zero =>
      rw [BranchParser.walk] at hr
      obtain ⟨⟨next, width⟩, hstep, hr⟩ := bind_eq_ok.mp hr
      rcases ha with ha | ⟨ha, hc⟩
      · rw [Parser.walk, if_pos (by omega)] at hp
        obtain ⟨⟨next', stop⟩, helem, hp⟩ := bind_eq_ok.mp hp
        obtain ⟨hl, ha'⟩ := element_lockstep h hscript hstep helem
        rw [hlen] at hp ha'
        exact ih hnext hl ha' hr hp
      · -- the check behind a key: the tracer is past it already
        rw [Parser.walk, if_neg (by omega), hlen] at hp
        rw [step_check (by simpa using hc)] at hstep
        cases hstep
        exact ih hnext h (Or.inl (by omega)) hr hp

end loops

/-! ## The keys a walk signs -/

/-- The keys an assignment reaches, in script order. -/
def reached (truth : BitVec 16) (keys : List KeyPath) : List UInt8 :=
  (keys.filter fun k => k.path.takenBy truth).map KeyPath.position

theorem reached_append (truth : BitVec 16) (a b : List KeyPath) :
    reached truth (a ++ b) = reached truth a ++ reached truth b := by
  simp [reached]

mutual
/-- On a path that is not taken no key is reached. -/
theorem reached_off_node (truth : BitVec 16) (path : Path 16) (h : path.takenBy truth = false)
    (node : Node) : reached truth (nodeKeys path node) = [] := by
  cases node with
  | push => rfl
  | op opcode => rfl
  | keyCheck position verify => simp [reached, nodeKeys, h]
  | branch bit notif body otherwise =>
    have hcons (value : Bool) : Path.takenBy ((bit, value) :: path) truth = false := by
      rw [Path.takenBy_cons, h, Bool.and_false]
    rw [nodeKeys, reached_append, reached_off truth _ (hcons _) body,
      reached_off truth _ (hcons _) otherwise, List.append_nil]

/-- Nothing is reached behind a decision the assignment takes the other way. -/
theorem reached_off (truth : BitVec 16) (path : Path 16) (h : path.takenBy truth = false)
    (nodes : List Node) : reached truth (keysOf path nodes) = [] := by
  cases nodes with
  | nil => rfl
  | cons node rest =>
    rw [keysOf, reached_append, reached_off_node truth path h node, reached_off truth path h rest,
      List.append_nil]
end

mutual
theorem nodeKeys_of_keyless (path : Path 16) (node : Node) (h : isKeyed node = false) :
    nodeKeys path node = [] := by
  cases node with
  | push => rfl
  | op opcode => rfl
  | keyCheck position verify => cases h
  | branch bit notif body otherwise =>
    rw [isKeyed, Bool.or_eq_false_iff] at h
    rw [nodeKeys, keysOf_of_keyless _ body h.1, keysOf_of_keyless _ otherwise h.2, List.append_nil]

theorem keysOf_of_keyless (path : Path 16) (nodes : List Node) (h : holdsKeyCheck nodes = false) :
    keysOf path nodes = [] := by
  cases nodes with
  | nil => rfl
  | cons node rest =>
    rw [holdsKeyCheck, Bool.or_eq_false_iff] at h
    rw [keysOf, nodeKeys_of_keyless path node h.1, keysOf_of_keyless path rest h.2,
      List.append_nil]
end

/-- Of a branch the assignment reaches the keys of the arm it takes. -/
theorem reached_branch (truth : BitVec 16) (path : Path 16) (h : path.takenBy truth = true)
    (bit : BitVec 16) (notif : Bool) (body otherwise : List Node) :
    ∃ path', path'.takenBy truth = true ∧
      reached truth (nodeKeys path (.branch bit notif body otherwise)) =
        reached truth (keysOf path'
          (Walk.arm (Walk.supplied truth bit) notif body otherwise)) := by
  have hcons (value : Bool) : Path.takenBy ((bit, value) :: path) truth =
      (Walk.supplied truth bit == value) := by
    rw [Path.takenBy_cons, h, Bool.and_true]
    rfl
  rw [nodeKeys, reached_append]
  unfold Walk.arm
  by_cases hv : Walk.supplied truth bit = notif
  · have htaken : Path.takenBy ((bit, notif) :: path) truth = true := by rw [hcons, hv, beq_self_eq_true]
    have hoff : Path.takenBy ((bit, !notif) :: path) truth = false := by rw [hcons, hv]; simp
    rw [hv, bne_self_eq_false, if_neg (by decide), reached_off truth _ hoff, List.nil_append]
    exact ⟨_, htaken, rfl⟩
  · have hnot : Walk.supplied truth bit = !notif := Bool.eq_not_of_ne hv
    have htaken : Path.takenBy ((bit, !notif) :: path) truth = true := by
      rw [hcons, hnot, beq_self_eq_true]
    have hoff : Path.takenBy ((bit, notif) :: path) truth = false := by rw [hcons, hnot]; simp
    rw [if_pos (by simpa using hv), reached_off truth _ hoff, List.append_nil]
    exact ⟨_, htaken, rfl⟩

theorem pathPositions_append (a b : List WitnessItem) :
    pathPositions (a ++ b) = pathPositions a ++ pathPositions b :=
  List.filterMap_append ..

mutual
/-- By cases on the node: the trace takes exactly the keys on the path. -/
theorem step_signatures (truth : BitVec 16) (path : Path 16) (hpath : path.takenBy truth = true)
    (node : Node) (w w' : Walk) (h : Walk.step truth node w = .ok w') :
    pathPositions w'.items = pathPositions w.items ++ reached truth (nodeKeys path node) := by
  cases node with
  | push =>
    obtain rfl := Except.ok.inj h
    exact (List.append_nil _).symm
  | op opcode =>
    obtain ⟨pops, pushes, -, -, rfl⟩ := Walk.step_op h
    exact (List.append_nil _).symm
  | keyCheck position verify =>
    obtain ⟨-, rfl⟩ := Walk.step_keyCheck h
    simp [reached, nodeKeys, hpath, pathPositions]
  | branch bit notif body otherwise =>
    obtain ⟨path', hpath', hreached⟩ := reached_branch truth path hpath bit notif body otherwise
    have harm : ∀ v : Walk, Walk.run truth (Walk.arm (Walk.supplied truth bit) notif body otherwise)
        v = .ok w' → pathPositions w'.items = pathPositions v.items ++
          reached truth (keysOf path' (Walk.arm (Walk.supplied truth bit) notif body otherwise)) := by
      intro v hv
      unfold Walk.arm at hv ⊢
      split at hv
      · rename_i hc
        rw [if_pos hc]
        exact run_signatures truth path' hpath' body v w' hv
      · rename_i hc
        rw [if_neg hc]
        exact run_signatures truth path' hpath' otherwise v w' hv
    rw [hreached]
    rcases Walk.step_branch h with ⟨-, hrun⟩ | ⟨-, -, hrun⟩ | ⟨-, hkeyless, need, delta, -, -, rfl⟩
    · rw [harm _ hrun, pathPositions_append]
      simp [pathPositions]
    · rw [harm _ hrun]
    · rw [Bool.or_eq_false_iff] at hkeyless
      have harms : keysOf path' (Walk.arm (Walk.supplied truth bit) notif body otherwise) = [] := by
        unfold Walk.arm
        split
        · exact keysOf_of_keyless path' body hkeyless.1
        · exact keysOf_of_keyless path' otherwise hkeyless.2
      rw [harms]
      exact (List.append_nil _).symm

/-- A walk signs exactly the keys its assignment reaches, in script order. -/
theorem run_signatures (truth : BitVec 16) (path : Path 16) (hpath : path.takenBy truth = true)
    (nodes : List Node) (w w' : Walk) (h : Walk.run truth nodes w = .ok w') :
    pathPositions w'.items = pathPositions w.items ++ reached truth (keysOf path nodes) := by
  cases nodes with
  | nil =>
    obtain rfl := Except.ok.inj h
    exact (List.append_nil _).symm
  | cons node rest =>
    rw [Walk.run] at h
    obtain ⟨v, hstep, hrest⟩ := bind_eq_ok.mp h
    rw [run_signatures truth path hpath rest v w' hrest,
      step_signatures truth path hpath node w v hstep, keysOf, reached_append, List.append_assoc]
end

/-! ## From paths back to masks -/

theorem lockstep_new : Lockstep BranchParser.new ⟨[], [], 0, 0⟩ :=
  ⟨rfl, rfl, rfl, rfl, rfl, Path.Distinct.nil, rfl, nofun⟩

/-- The parsers of a script both succeed on, at its end. -/
theorem parsed {script : Bytes} {mask truth : BitVec 16} {r : BranchResolution}
    {items : List WitnessItem} (hr : resolveCovenantBranches script = .ok r)
    (ht : traceWitness script mask truth = .ok items) :
    ∃ (rp : BranchParser) (p : Parser) (w : Walk), Lockstep rp p ∧ rp.out = r ∧ p.stack = [] ∧
      mask = BitVec.ofNat 16 (2 ^ p.nextBranch - 1) ∧
      Walk.run truth p.root ⟨0, []⟩ = .ok w ∧ w.items = items := by
  obtain ⟨rp, hwalk, hfinish⟩ := bind_eq_ok.mp hr
  obtain ⟨⟨program, selectorMask⟩, hparse, ht⟩ := bind_eq_ok.mp ht
  obtain ⟨p, hpwalk, hparse⟩ := bind_eq_ok.mp hparse
  have hlock : Lockstep rp p :=
    walk_lockstep (show script = [] ++ script from rfl) lockstep_new (Or.inl rfl) hwalk hpwalk
  unfold BranchParser.finish at hfinish
  split at hfinish
  · cases hfinish
  · split at hparse
    · cases hparse
    · rename_i hopen
      obtain ⟨rfl, rfl⟩ := Prod.mk.inj (Except.ok.inj hparse)
      simp only at ht
      split at ht
      · cases ht
      · rename_i hmask
        obtain ⟨w, hrun, hw⟩ := bind_eq_ok.mp ht
        refine ⟨rp, p, w, hlock, Except.ok.inj hfinish, by simpa using hopen, ?_, hrun,
          Except.ok.inj hw⟩
        by_contra hne
        exact hmask (Or.inl hne)

/-- What `matches_selectors` compares, on the masks alone. -/
def selects (mask truth : BitVec 16) (k : UInt8 × BitVec 16 × BitVec 16) : Bool :=
  mask &&& k.2.1 == k.2.1 && (truth ^^^ k.2.2) &&& k.2.1 == 0

/-- The masks of a key select it exactly when its path is taken. -/
theorem selects_summary {k : KeyPath} {bound : Nat} (h : k.path.Distinct bound)
    (truth : BitVec 16) :
    selects (BitVec.ofNat 16 (2 ^ bound - 1)) truth (summary k) = k.path.takenBy truth := by
  have hcover := Path.decided_covered h
  have hagree := Path.agrees_iff h truth
  simp only [selects, summary, hcover, beq_self_eq_true, Bool.true_and]
  rw [Bool.eq_iff_iff, beq_iff_eq]
  exact hagree

/-- The keys the resolver selects are those the tracer reaches. -/
theorem reached_eq {rp : BranchParser} {p : Parser} (h : Lockstep rp p) (hs : p.stack = [])
    (truth : BitVec 16) :
    reached truth (keysOf [] p.root) = (rp.out.keys.zipIdx.filter fun entry =>
      entry.1.matchesSelectors (BitVec.ofNat 16 (2 ^ p.nextBranch - 1)) truth).map
        fun entry => UInt8.ofNat entry.2 := by
  have hkeys := h.keys
  have hdist := h.keysDistinct
  rw [hs] at hkeys hdist
  have hfilter := congrArg (fun l => (l.filter
    (selects (BitVec.ofNat 16 (2 ^ p.nextBranch - 1)) truth)).map Prod.fst) hkeys
  simp only [List.filter_map, List.map_map] at hfilter
  have htaken : (openKeys p.root []).filter
      (selects (BitVec.ofNat 16 (2 ^ p.nextBranch - 1)) truth ∘ summary) =
        (keysOf [] p.root).filter fun k => k.path.takenBy truth :=
    List.filter_congr fun k hk => selects_summary (hdist k hk) truth
  rw [htaken] at hfilter
  exact hfilter.symm

/-- Positions picked from a list in order are increasing. -/
theorem picked_increasing {keys : List BranchKey} (hlen : keys.length ≤ 16)
    (wanted : BranchKey × Nat → Bool) :
    ((keys.zipIdx.filter wanted).map fun entry => UInt8.ofNat entry.2).Pairwise (· < ·) := by
  have hsorted : keys.zipIdx.Pairwise fun a b => a.2 < b.2 := by
    rw [← List.pairwise_map (f := Prod.snd) (R := (· < ·)), List.zipIdx_map_snd]
    exact List.pairwise_lt_range'
  rw [List.pairwise_map]
  refine (hsorted.filter wanted).imp_of_mem fun {a b} ha hb hlt => ?_
  have hbound : ∀ e ∈ keys.zipIdx.filter wanted, e.2 < 16 := by
    intro e he
    have hget := List.mem_zipIdx_iff_getElem?.mp (List.mem_of_mem_filter he)
    exact Nat.lt_of_lt_of_le (List.getElem?_eq_some_iff.mp hget).1 hlen
  have ha' := hbound a ha
  have hb' := hbound b hb
  rw [UInt8.lt_iff_toNat_lt, UInt8.toNat_ofNat', UInt8.toNat_ofNat']
  omega

/-- Filtering the numbered keys finds the positions of the wanted ones. -/
theorem mem_picked {keys : List BranchKey} (hlen : keys.length ≤ 16)
    (wanted : BranchKey → Bool) (position : UInt8) :
    position ∈ ((keys.zipIdx.filter fun entry => wanted entry.1).map
        fun entry => UInt8.ofNat entry.2) ↔
      ∃ key, keys[position.toNat]? = some key ∧ wanted key = true := by
  simp only [List.mem_map, List.mem_filter, List.mem_zipIdx_iff_getElem?, Prod.exists]
  constructor
  · rintro ⟨key, i, ⟨hget, hwant⟩, rfl⟩
    have hi := (List.getElem?_eq_some_iff.mp hget).1
    have : (UInt8.ofNat i).toNat = i := by
      rw [UInt8.toNat_ofNat']
      omega
    exact ⟨key, by rw [this]; exact hget, hwant⟩
  · rintro ⟨key, hget, hwant⟩
    exact ⟨key, position.toNat, ⟨hget, hwant⟩, UInt8.ofNat_toNat⟩

/-- The positions of a traced path are the resolver's, picked by the selectors. -/
theorem traced_positions {script : Bytes} {mask truth : BitVec 16} {r : BranchResolution}
    {items : List WitnessItem} (hr : resolveCovenantBranches script = .ok r)
    (ht : traceWitness script mask truth = .ok items) :
    pathPositions items = (r.keys.zipIdx.filter fun entry =>
      entry.1.matchesSelectors mask truth).map fun entry => UInt8.ofNat entry.2 := by
  obtain ⟨rp, p, w, hlock, rfl, hopen, hmask, hrun, rfl⟩ := parsed hr ht
  rw [run_signatures truth [] rfl p.root _ w hrun, hmask, ← reached_eq hlock hopen truth]
  rfl

/-- The path asks for the keys its selectors match, and for no other. -/
theorem mem_traced {script : Bytes} {mask truth : BitVec 16} {r : BranchResolution}
    {items : List WitnessItem} (hr : resolveCovenantBranches script = .ok r)
    (ht : traceWitness script mask truth = .ok items) (position : UInt8) :
    position ∈ pathPositions items ↔
      ∃ key, r.keys[position.toNat]? = some key ∧ key.matchesSelectors mask truth = true := by
  rw [traced_positions hr ht]
  exact mem_picked r.keys_length (·.matchesSelectors mask truth) position

/-- The trace names positions in ascending order. -/
theorem traced_increasing {script : Bytes} {mask truth : BitVec 16} {r : BranchResolution}
    {items : List WitnessItem} (hr : resolveCovenantBranches script = .ok r)
    (ht : traceWitness script mask truth = .ok items) :
    (pathPositions items).Pairwise (· < ·) := by
  rw [traced_positions hr ht]
  exact picked_increasing r.keys_length _

end ResolverTracer
open ResolverTracer

/-- On a script both accept, the tracer's signatures are the resolver's keys that
the assignment matches, each once and in order; and the signatures an input needs
are as many as the planner lays out. -/
theorem resolver_tracer_agree (script : Bytes) (mask truth : BitVec 16) {r : BranchResolution}
    {items : List WitnessItem} (hr : resolveCovenantBranches script = .ok r)
    (ht : traceWitness script mask truth = .ok items) :
    (pathPositions items).Pairwise (· < ·) ∧
    (∀ position, position ∈ pathPositions items ↔
      ∃ key, r.keyAt position = .ok key ∧ key.matchesSelectors mask truth = true) ∧
    ∀ index input, input.redeem = script → input.covenantExecution = some (mask, truth) →
      genericCovenantRequired index input = .ok (some (pathPositions items).length) ∧
      ∀ plan, covenantWitnessPlan index input = .ok plan →
        plan.signatures.length = (pathPositions items).length := by
  refine ⟨traced_increasing hr ht, fun position => ?_,
    fun index input hredeem hexec => ⟨?_, fun plan hplan => ?_⟩⟩
  · simpa only [BranchResolution.keyAt, okOr_eq_ok] using mem_traced hr ht position
  · simp only [genericCovenantRequired, hexec, hredeem, ht]
  · have hmap := covenantWitnessPlan_positions hexec (by rw [hredeem]; exact ht) hplan
    rw [← hmap, List.length_map]

namespace ResolverTracer

/-- `IF <a> CHECKSIG ELSE IF <b> CHECKSIG ELSE 1 ENDIF ENDIF`. -/
def nestedEscrow : Bytes :=
  [OP_IF] ++ (OP_DATA_32 :: List.replicate 32 0xa1) ++ [OP_CHECKSIG, OP_ELSE, OP_IF] ++
    (OP_DATA_32 :: List.replicate 32 0xb2) ++ [OP_CHECKSIG, OP_ELSE, OP_1, OP_ENDIF, OP_ENDIF]

/-- The inner branch's key has signed. -/
def signedInput : Input :=
  ⟨[⟨1, 1, ⟨List.replicate 64 7, by simp⟩⟩], nestedEscrow, some (0b11, 0b10)⟩

end ResolverTracer

/-- A nested escrow: the inner branch is decided by the second selector. -/
theorem resolver_tracer_agree_nested :
    traceWitness nestedEscrow 0b11 0b10 =
      .ok [.selector false, .selector true, .signature 1] ∧
    (∃ r, resolveCovenantBranches nestedEscrow = .ok r ∧
      ∃ key, r.keyAt 1 = .ok key ∧ key.matchesSelectors 0b11 0b10 = true) ∧
    ∃ plan, covenantWitnessPlan 0 signedInput = .ok plan ∧
      genericCovenantRequired 0 signedInput = .ok (some plan.signatures.length) := by
  have ht : traceWitness nestedEscrow 0b11 0b10 =
      .ok [.selector false, .selector true, .signature 1] := by rfl
  have hok : (resolveCovenantBranches nestedEscrow).isOk = true := by decide
  cases hr : resolveCovenantBranches nestedEscrow with
  | error e => rw [hr] at hok; cases hok
  | ok r =>
    obtain ⟨-, hkeys, hcount⟩ := resolver_tracer_agree nestedEscrow 0b11 0b10 hr ht
    obtain ⟨hrequired, hplanned⟩ := hcount 0 signedInput rfl rfl
    refine ⟨ht, ⟨r, rfl, (hkeys 1).mp (by decide)⟩, _, rfl, ?_⟩
    rw [hrequired, hplanned _ rfl]

end KaspaPortal.Guarantees
