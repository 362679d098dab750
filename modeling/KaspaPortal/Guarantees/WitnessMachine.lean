import KaspaPortal.Contract.Covenant.Execution

/-!
# A stack machine under the tracer

The tracer only counts the items a script has produced. The machine here has a
real stack, on which witness items and produced values are told apart, and notes
where each witness item is taken off it. What a computed condition turns out to be
comes from a stream of arbitrary booleans. `run_simulates` relates the tracer's
counter to that stack, `pureRun_simulates` the summary of a block without keys.

Only the number and the order of the items matter. What they are, and whether a
check on them passes, is the script machine's part.
-/
namespace KaspaPortal.Guarantees
open Lib Primitives Contract.Covenant

namespace WitnessMachine

inductive Cell where
  | witness (item : WitnessItem)
  | produced
  deriving DecidableEq

/-- What took a witness item off the stack. -/
inductive Place where
  | condition
  | keyCheck (position : UInt8)
  | operand
  deriving DecidableEq

structure Machine where
  /-- Top first. -/
  stack : List Cell
  taken : List (Place × WitnessItem)
  /-- The values the conditions still to be computed will have. -/
  conditions : Nat → Bool

namespace Machine

/-- Take the top cell; nothing is left to take on an empty stack. -/
def pop (place : Place) (m : Machine) : Option (Cell × Machine) :=
  match m.stack with
  | [] => none
  | .produced :: rest => some (.produced, { m with stack := rest })
  | .witness item :: rest =>
    some (.witness item, { m with stack := rest, taken := m.taken ++ [(place, item)] })

def popOperands : Nat → Machine → Option Machine
  | 0, m => some m
  | count + 1, m => (m.pop .operand).bind fun popped => popOperands count popped.2

def push (count : Nat) (m : Machine) : Machine :=
  { m with stack := List.replicate count .produced ++ m.stack }

/-- The value a branch follows, with the condition `cell` taken off: the
assignment's for a witness selector and where the branch holds a key, any value
otherwise. -/
def follow (supplied keyed : Bool) (cell : Cell) (m : Machine) : Bool × Machine :=
  if cell ≠ .produced ∨ keyed then (supplied, m)
  else (m.conditions 0, { m with conditions := fun n => m.conditions (n + 1) })

mutual
def step (truth : BitVec 16) : Node → Machine → Option Machine
  | .push, m => some (m.push 1)
  | .keyCheck position verify, m =>
    ((m.push 1).pop (.keyCheck position)).bind fun key =>
      (key.2.pop (.keyCheck position)).map fun signature =>
        signature.2.push (if verify then 0 else 1)
  | .op opcode, m =>
    (stackEffect opcode).bind fun effect =>
      (m.popOperands effect.1).map fun popped => popped.push effect.2
  | .branch bit notif body otherwise, m =>
    (m.pop .condition).bind fun popped =>
      let followed := follow (Walk.supplied truth bit)
        (holdsKeyCheck body || holdsKeyCheck otherwise) popped.1 popped.2
      if followed.1 != notif then run truth body followed.2 else run truth otherwise followed.2

def run (truth : BitVec 16) : List Node → Machine → Option Machine
  | [], m => some m
  | node :: rest, m => (step truth node m).bind (run truth rest)
end

end Machine

/-- Where each kind of witness item belongs. -/
def consumedAt : WitnessItem → Place × WitnessItem
  | .selector value => (.condition, .selector value)
  | .signature position => (.keyCheck position, .signature position)

/-- `count` produced values on top of `base`. -/
def atop (count : Nat) (base : List Cell) : List Cell := List.replicate count .produced ++ base

section cells
variable {m : Machine} {base : List Cell}

theorem atop_push (count more : Nat) (h : m.stack = atop count base) :
    (m.push more).stack = atop (count + more) base := by
  simp [Machine.push, atop, h, ← List.append_assoc, Nat.add_comm count]

theorem pop_produced (place : Place) (count : Nat) (h : m.stack = atop (count + 1) base) :
    m.pop place = some (.produced, { m with stack := atop count base }) := by
  simp [Machine.pop, h, atop, List.replicate_succ]

theorem pop_witness (place : Place) {item : WitnessItem}
    (h : m.stack = .witness item :: base) :
    m.pop place = some (.witness item,
      { m with stack := base, taken := m.taken ++ [(place, item)] }) := by
  simp [Machine.pop, h]

theorem popOperands_produced (count left : Nat) (h : m.stack = atop (left + count) base) :
    m.popOperands count = some { m with stack := atop left base } := by
  induction count generalizing m with
  | zero =>
    cases m
    simp_all [Machine.popOperands]
  | succ count ih =>
    rw [Machine.popOperands, pop_produced _ (left + count) (by rw [h, Nat.add_assoc]),
      Option.bind_some]
    exact ih rfl

end cells

/-! ## Blocks without keys -/

theorem pureStep_grows (node : Node) (acc acc' : Int × Int) (h : pureStep node acc = .ok acc') :
    acc.2 ≤ acc'.2 := by
  obtain ⟨depth, need⟩ := acc
  cases node with
  | push =>
    obtain rfl := Except.ok.inj h
    exact le_max_left _ _
  | keyCheck position verify => cases h
  | op opcode =>
    simp only [pureStep] at h
    obtain ⟨⟨pops, pushes⟩, -, h⟩ := bind_eq_ok.mp h
    obtain rfl := Except.ok.inj h
    exact le_max_left _ _
  | branch bit notif body otherwise =>
    simp only [pureStep] at h
    obtain ⟨⟨td, tn⟩, -, h⟩ := bind_eq_ok.mp h
    obtain ⟨⟨ed, en⟩, -, h⟩ := bind_eq_ok.mp h
    obtain ⟨⟨armsNeed, delta⟩, -, h⟩ := bind_eq_ok.mp h
    obtain rfl := Except.ok.inj h
    exact le_max_left _ _

theorem pureRun_grows (nodes : List Node) (acc acc' : Int × Int)
    (h : pureRun nodes acc = .ok acc') : acc.2 ≤ acc'.2 := by
  induction nodes generalizing acc with
  | nil =>
    obtain rfl := Except.ok.inj h
    exact le_refl _
  | cons node rest ih =>
    rw [pureRun] at h
    obtain ⟨mid, hstep, hrest⟩ := bind_eq_ok.mp h
    exact (pureStep_grows node acc mid hstep).trans (ih mid hrest)

mutual
theorem pureStep_keyless (node : Node) (acc acc' : Int × Int) (h : pureStep node acc = .ok acc') :
    isKeyed node = false := by
  cases node with
  | push => rfl
  | op opcode => rfl
  | keyCheck position verify => cases h
  | branch bit notif body otherwise =>
    simp only [pureStep] at h
    obtain ⟨mt, ht, h⟩ := bind_eq_ok.mp h
    obtain ⟨me, he, h⟩ := bind_eq_ok.mp h
    rw [isKeyed, pureRun_keyless body _ mt ht, pureRun_keyless otherwise _ me he, Bool.or_false]

theorem pureRun_keyless (nodes : List Node) (acc acc' : Int × Int)
    (h : pureRun nodes acc = .ok acc') : holdsKeyCheck nodes = false := by
  cases nodes with
  | nil => rfl
  | cons node rest =>
    rw [pureRun] at h
    obtain ⟨mid, hstep, hrest⟩ := bind_eq_ok.mp h
    rw [holdsKeyCheck, pureStep_keyless node acc mid hstep, pureRun_keyless rest mid acc' hrest,
      Bool.or_false]
end

theorem joinArms_eq_ok {body otherwise : Nat × Int} {need delta : Int}
    (h : joinArms body otherwise = .ok (need, delta)) :
    body.2 = delta ∧ otherwise.2 = delta ∧ (body.1 : Int) ≤ need ∧ (otherwise.1 : Int) ≤ need := by
  unfold joinArms at h
  split at h
  · cases h
  · rename_i heq
    obtain ⟨rfl, rfl⟩ := Prod.mk.inj (Except.ok.inj h)
    have : otherwise.2 = body.2 := by
      by_contra hne
      exact heq (Ne.symm hne)
    refine ⟨rfl, this, ?_, ?_⟩
    · exact_mod_cast Nat.le_max_left _ _
    · exact_mod_cast Nat.le_max_right _ _

/-- The outcome of a block: `count` produced values atop the same base, and no
witness item taken. -/
def Leaves (m : Machine) (base : List Cell) (count : Int) (result : Option Machine) : Prop :=
  ∃ m', result = some m' ∧ 0 ≤ count ∧ m'.stack = atop count.toNat base ∧ m'.taken = m.taken

theorem follow_named {supplied keyed : Bool} {cell : Cell} {m : Machine}
    (h : cell ≠ .produced ∨ keyed = true) : m.follow supplied keyed cell = (supplied, m) := by
  rw [Machine.follow, if_pos h]

theorem step_branch_eq (truth bit : BitVec 16) (notif : Bool) (body otherwise : List Node)
    (m : Machine) : m.step truth (.branch bit notif body otherwise) =
      (m.pop .condition).bind fun popped =>
        let followed := Machine.follow (Walk.supplied truth bit)
          (holdsKeyCheck body || holdsKeyCheck otherwise) popped.1 popped.2
        followed.2.run truth (Walk.arm followed.1 notif body otherwise) := by
  rw [Machine.step]
  congr 1
  funext popped
  unfold Walk.arm
  simp only
  split <;> rfl

/-- A computed branch without keys: whichever arm is taken, what both arms leave
is left. -/
theorem computedBranch_leaves (truth bit : BitVec 16) (notif : Bool) {body otherwise : List Node}
    (hkeyless : (holdsKeyCheck body || holdsKeyCheck otherwise) = false) {base : List Cell}
    {left : Nat} {count : Int}
    (hbody : ∀ m : Machine, m.stack = atop left base → Leaves m base count (m.run truth body))
    (hother : ∀ m : Machine, m.stack = atop left base → Leaves m base count (m.run truth otherwise))
    (m : Machine) (hm : m.stack = atop (left + 1) base) :
    Leaves m base count (m.step truth (.branch bit notif body otherwise)) := by
  rw [step_branch_eq, pop_produced _ left hm, Option.bind_some, hkeyless]
  simp only [Machine.follow, ne_eq, not_true, Bool.false_eq_true, or_false, if_false]
  unfold Walk.arm
  split
  · exact hbody _ rfl
  · exact hother _ rfl

mutual
theorem pureStep_simulates (truth : BitVec 16) (node : Node) (depth need depth' need' : Int)
    (h : pureStep node (depth, need) = .ok (depth', need')) (K : Int) (hneed : need' ≤ K)
    (hK : 0 ≤ K + depth) (m : Machine) (base : List Cell)
    (hm : m.stack = atop (K + depth).toNat base) :
    Leaves m base (K + depth') (m.step truth node) := by
  cases node with
  | push =>
    obtain ⟨rfl, -⟩ := Prod.mk.inj (Except.ok.inj h)
    refine ⟨m.push 1, by rw [Machine.step], by omega, ?_, rfl⟩
    rw [atop_push _ 1 hm]
    congr 1
    omega
  | keyCheck position verify => cases h
  | op opcode =>
    simp only [pureStep] at h
    obtain ⟨⟨pops, pushes⟩, heff, h⟩ := bind_eq_ok.mp h
    obtain ⟨rfl, rfl⟩ := Prod.mk.inj (Except.ok.inj h)
    have hbelow : -(depth - (pops : Int)) ≤ K := (le_max_right _ _).trans hneed
    have hsplit : m.stack = atop ((K + depth - pops).toNat + pops) base := by
      rw [hm]
      congr 1
      omega
    refine ⟨Machine.push pushes { m with stack := atop (K + depth - pops).toNat base }, ?_, by omega,
      ?_, rfl⟩
    · rw [Machine.step, okOr_eq_ok.mp heff, Option.bind_some,
        popOperands_produced pops _ hsplit, Option.map_some]
    · rw [atop_push _ pushes rfl]
      congr 1
      omega
  | branch bit notif body otherwise =>
    have hkeyless := pureStep_keyless _ _ _ h
    rw [isKeyed] at hkeyless
    simp only [pureStep] at h
    obtain ⟨⟨td, tn⟩, ht, h⟩ := bind_eq_ok.mp h
    obtain ⟨⟨ed, en⟩, he, h⟩ := bind_eq_ok.mp h
    obtain ⟨⟨armsNeed, delta⟩, hjoin, h⟩ := bind_eq_ok.mp h
    obtain ⟨rfl, rfl⟩ := Prod.mk.inj (Except.ok.inj h)
    obtain ⟨rfl, hed, htn, hen⟩ := joinArms_eq_ok hjoin
    simp only at hed htn hen
    -- what the arms need is there once the condition is gone
    have harms : armsNeed - (depth - 1) ≤ K := (le_max_right _ _).trans hneed
    have hpop : m.stack = atop ((K + (depth - 1)).toNat + 1) base := by
      rw [hm]
      congr 1
      omega
    have hdelta (d : Int) : K + (depth - 1) + d = K + (depth - 1 + d) := by omega
    refine computedBranch_leaves truth bit notif hkeyless (fun v hv => ?_) (fun v hv => ?_) m hpop
    · rw [← hdelta]
      exact pureRun_simulates truth body 0 0 td tn ht (K + (depth - 1)) (by omega) (by omega) v base
        (by rw [hv, Int.add_zero])
    · rw [← hed, ← hdelta]
      exact pureRun_simulates truth otherwise 0 0 ed en he (K + (depth - 1)) (by omega) (by omega) v
        base (by rw [hv, Int.add_zero])

/-- A block without keys runs on any stack with the produced values it needs,
whatever its conditions turn out to be: it changes their number as summarised and
takes no witness item. -/
theorem pureRun_simulates (truth : BitVec 16) (nodes : List Node) (depth need depth' need' : Int)
    (h : pureRun nodes (depth, need) = .ok (depth', need')) (K : Int) (hneed : need' ≤ K)
    (hK : 0 ≤ K + depth) (m : Machine) (base : List Cell)
    (hm : m.stack = atop (K + depth).toNat base) :
    Leaves m base (K + depth') (m.run truth nodes) := by
  cases nodes with
  | nil =>
    obtain ⟨rfl, -⟩ := Prod.mk.inj (Except.ok.inj h)
    exact ⟨m, by rw [Machine.run], hK, hm, rfl⟩
  | cons node rest =>
    rw [pureRun] at h
    obtain ⟨⟨mid, midNeed⟩, hstep, hrest⟩ := bind_eq_ok.mp h
    have hgrow : midNeed ≤ need' := pureRun_grows rest (mid, midNeed) (depth', need') hrest
    obtain ⟨m₁, hm₁, hle, hs, hk⟩ := pureStep_simulates truth node depth need mid midNeed hstep K
      (hgrow.trans hneed) hK m base hm
    obtain ⟨m₂, hm₂, hle', hs', hk'⟩ := pureRun_simulates truth rest mid midNeed depth' need' hrest K
      hneed hle m₁ base hs
    exact ⟨m₂, by rw [Machine.run, hm₁, Option.bind_some, hm₂], hle', hs', hk'.trans hk⟩
end

/-! ## The walk -/

/-- The outcome of a walk that took `new` off the front of the witness. -/
def Consumes (m : Machine) (new rest : List WitnessItem) (count : Nat) (result : Option Machine) :
    Prop :=
  ∃ m', result = some m' ∧ m'.stack = atop count (rest.map .witness) ∧
    m'.taken = m.taken ++ new.map consumedAt

mutual
theorem step_simulates (truth : BitVec 16) (node : Node) (w w' : Walk)
    (h : Walk.step truth node w = .ok w') :
    ∃ new, w'.items = w.items ++ new ∧ ∀ (m : Machine) (rest : List WitnessItem),
      m.stack = atop w.produced ((new ++ rest).map .witness) →
      Consumes m new rest w'.produced (m.step truth node) := by
  cases node with
  | push =>
    obtain rfl := Except.ok.inj h
    refine ⟨[], by simp, fun m rest hm => ⟨m.push 1, by rw [Machine.step], ?_, by simp [Machine.push]⟩⟩
    exact atop_push _ 1 hm
  | op opcode =>
    obtain ⟨pops, pushes, heff, hle, rfl⟩ := Walk.step_op h
    refine ⟨[], by simp, fun m rest hm => ?_⟩
    have hsplit : m.stack = atop (w.produced - pops + pops) (rest.map .witness) := by
      rw [hm, Nat.sub_add_cancel hle, List.nil_append]
    refine ⟨Machine.push pushes { m with stack := atop (w.produced - pops) (rest.map .witness) }, ?_,
      atop_push _ pushes rfl, by simp [Machine.push]⟩
    rw [Machine.step, heff, Option.bind_some, popOperands_produced pops _ hsplit, Option.map_some]
  | keyCheck position verify =>
    obtain ⟨hz, rfl⟩ := Walk.step_keyCheck h
    refine ⟨[.signature position], rfl, fun m rest hm => ?_⟩
    rw [hz] at hm
    -- nothing produced is left, so beneath the key lies the next witness item
    have hkey := pop_produced (.keyCheck position) 0 (atop_push 0 1 hm)
    rw [Machine.step, hkey, Option.bind_some, pop_witness (.keyCheck position) rfl, Option.map_some]
    refine ⟨_, rfl, ?_, rfl⟩
    have hatop : (rest.map Cell.witness) = atop 0 (rest.map .witness) := rfl
    rw [atop_push 0 _ hatop]
    cases verify <;> rfl
  | branch bit notif body otherwise =>
    have harm : ∀ v : Walk, Walk.run truth (Walk.arm (Walk.supplied truth bit) notif body otherwise)
        v = .ok w' → ∃ new, w'.items = v.items ++ new ∧ ∀ (m : Machine) (rest : List WitnessItem),
          m.stack = atop v.produced ((new ++ rest).map .witness) →
          Consumes m new rest w'.produced
            (m.run truth (Walk.arm (Walk.supplied truth bit) notif body otherwise)) := by
      intro v hv
      unfold Walk.arm at hv ⊢
      split at hv
      · rename_i hc
        rw [if_pos hc]
        exact run_simulates truth body v w' hv
      · rename_i hc
        rw [if_neg hc]
        exact run_simulates truth otherwise v w' hv
    rcases Walk.step_branch h with ⟨hz, hrun⟩ | ⟨hle, hkeyed, hrun⟩ |
      ⟨hle, hkeyless, need, delta, heffect, hneed, rfl⟩
    · obtain ⟨new, hnew, hsim⟩ := harm _ hrun
      refine ⟨.selector (Walk.supplied truth bit) :: new, by rw [hnew]; simp, fun m rest hm => ?_⟩
      rw [hz] at hm
      have hcell : Cell.witness (.selector (Walk.supplied truth bit)) ≠ .produced := nofun
      rw [step_branch_eq, pop_witness .condition hm, Option.bind_some]
      simp only [follow_named (Or.inl hcell)]
      obtain ⟨m', hm', hs, hk⟩ := hsim { m with
        stack := (new ++ rest).map .witness
        taken := m.taken ++ [(.condition, .selector (Walk.supplied truth bit))] } rest
        (by rw [hz]; rfl)
      exact ⟨m', hm', hs, by rw [hk]; simp [consumedAt]⟩
    · obtain ⟨new, hnew, hsim⟩ := harm _ hrun
      refine ⟨new, hnew, fun m rest hm => ?_⟩
      have hpop : m.stack = atop (w.produced - 1 + 1) ((new ++ rest).map .witness) := by
        rw [hm, Nat.sub_add_cancel hle]
      rw [step_branch_eq, pop_produced _ _ hpop, Option.bind_some]
      simp only [follow_named (Or.inr hkeyed)]
      exact hsim _ rest rfl
    · obtain ⟨⟨tn, td⟩, ht, heffect⟩ := bind_eq_ok.mp heffect
      obtain ⟨⟨en, ed⟩, he, hjoin⟩ := bind_eq_ok.mp heffect
      obtain ⟨⟨td', tn'⟩, hbody, hte⟩ := bind_eq_ok.mp ht
      obtain ⟨⟨ed', en'⟩, hother, hee⟩ := bind_eq_ok.mp he
      obtain ⟨rfl, rfl⟩ := Prod.mk.inj (Except.ok.inj hte)
      obtain ⟨rfl, rfl⟩ := Prod.mk.inj (Except.ok.inj hee)
      obtain ⟨rfl, hed, htn, hen⟩ := joinArms_eq_ok hjoin
      simp only at hed htn hen
      refine ⟨[], by simp, fun m rest hm => ?_⟩
      have hpop : m.stack = atop (w.produced - 1 + 1) (rest.map .witness) := by
        rw [hm, Nat.sub_add_cancel hle, List.nil_append]
      have hleaves := computedBranch_leaves truth bit notif hkeyless
        (fun v hv => pureRun_simulates truth body 0 0 td' tn' hbody ((w.produced - 1 : Nat) : Int)
          (by omega) (by omega) v _ (by rw [hv, Int.add_zero, Int.toNat_natCast]))
        (fun v hv => by
          simp only [← hed]
          exact pureRun_simulates truth otherwise 0 0 ed' en' hother ((w.produced - 1 : Nat) : Int)
            (by omega) (by omega) v _ (by rw [hv, Int.add_zero, Int.toNat_natCast]))
        m hpop
      obtain ⟨m', hm', -, hs, hk⟩ := hleaves
      exact ⟨m', hm', hs, by rw [hk]; simp⟩

/-- The tracer's walk, on the machine: with the items it records on top of the
witness, the machine takes exactly those, in order and where they belong. -/
theorem run_simulates (truth : BitVec 16) (nodes : List Node) (w w' : Walk)
    (h : Walk.run truth nodes w = .ok w') :
    ∃ new, w'.items = w.items ++ new ∧ ∀ (m : Machine) (rest : List WitnessItem),
      m.stack = atop w.produced ((new ++ rest).map .witness) →
      Consumes m new rest w'.produced (m.run truth nodes) := by
  cases nodes with
  | nil =>
    obtain rfl := Except.ok.inj h
    exact ⟨[], by simp, fun m rest hm => ⟨m, by rw [Machine.run], hm, by simp⟩⟩
  | cons node rest =>
    rw [Walk.run] at h
    obtain ⟨v, hstep, hrest⟩ := bind_eq_ok.mp h
    obtain ⟨new, hnew, hsim⟩ := step_simulates truth node w v hstep
    obtain ⟨new', hnew', hsim'⟩ := run_simulates truth rest v w' hrest
    refine ⟨new ++ new', by rw [hnew', hnew, List.append_assoc], fun m tail hm => ?_⟩
    rw [List.append_assoc] at hm
    obtain ⟨m₁, hm₁, hs, hk⟩ := hsim m (new' ++ tail) hm
    obtain ⟨m₂, hm₂, hs', hk'⟩ := hsim' m₁ tail hs
    refine ⟨m₂, by rw [Machine.run, hm₁, Option.bind_some, hm₂], hs', ?_⟩
    rw [hk', hk, List.map_append, List.append_assoc]
end

end WitnessMachine
open WitnessMachine

/-- On a stack of exactly the traced items, first item on top, every run of the
script ends, whatever its computed conditions are: it has taken those items in
order, each selector at a branch and each signature at its key, and nothing of the
witness is left. -/
theorem traced_witness_consumed (script : Bytes) (mask truth : BitVec 16)
    {items : List WitnessItem} (h : traceWitness script mask truth = .ok items) :
    ∃ program, Parser.parse script = .ok (program, mask) ∧
      ∀ conditions, ∃ m,
        Machine.run truth program ⟨items.map .witness, [], conditions⟩ = some m ∧
        m.taken = items.map consumedAt ∧ ∃ left, m.stack = List.replicate left .produced := by
  obtain ⟨⟨program, selectorMask⟩, hparse, h⟩ := bind_eq_ok.mp h
  simp only at h
  split at h
  · cases h
  · rename_i hmask
    obtain ⟨w, hrun, hw⟩ := bind_eq_ok.mp h
    obtain rfl : w.items = items := Except.ok.inj hw
    have hcomplete : mask = selectorMask := by
      by_contra hne
      exact hmask (Or.inl hne)
    refine ⟨program, by rw [hcomplete]; exact hparse, fun conditions => ?_⟩
    obtain ⟨new, hnew, hsim⟩ := run_simulates truth program ⟨0, []⟩ w hrun
    obtain rfl : w.items = new := hnew
    obtain ⟨m, hm, hstack, htaken⟩ := hsim ⟨w.items.map .witness, [], conditions⟩ []
      (by rw [List.append_nil]; rfl)
    exact ⟨m, hm, htaken, w.produced, by rw [hstack, atop, List.map_nil, List.append_nil]⟩

namespace WitnessMachine

/-- `IF <key> CHECKSIGVERIFY 1 1 IF 1ADD ELSE NOP ENDIF ELSE 1 ENDIF`: the inner
condition is computed and its branch holds no key. -/
def computedInside : Bytes :=
  [OP_IF] ++ (OP_DATA_32 :: List.replicate 32 0xa1) ++ [OP_CHECKSIGVERIFY, OP_1, OP_1, OP_IF, 0x8b,
    OP_ELSE, 0x61, OP_ENDIF, OP_ELSE, OP_1, OP_ENDIF]

end WitnessMachine

theorem traced_witness_consumed_computed :
    traceWitness computedInside 0b11 0b01 = .ok [.selector true, .signature 0] ∧
    ∃ program, Parser.parse computedInside = .ok (program, 0b11) ∧
      ∃ m, Machine.run 0b01 program ⟨[.witness (.selector true), .witness (.signature 0)], [],
          fun _ => true⟩ = some m ∧
        m.taken = [(.condition, .selector true), (.keyCheck 0, .signature 0)] := by
  have h : traceWitness computedInside 0b11 0b01 = .ok [.selector true, .signature 0] := by rfl
  obtain ⟨program, hparse, hrun⟩ := traced_witness_consumed computedInside 0b11 0b01 h
  obtain ⟨m, hm, htaken, -⟩ := hrun fun _ => true
  exact ⟨h, program, hparse, m, hm, htaken⟩

end KaspaPortal.Guarantees
