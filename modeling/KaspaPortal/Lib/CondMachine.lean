import Mathlib.Data.Option.Basic

/-!
# Machines with a condition stack, and their structured programs

A flat program is a list of tokens; `IF`, `ELSE` and `ENDIF` tokens drive a
stack of conditions and every other token runs only while the innermost
condition is taken. A structured program nests its arms instead. `run_flatten`
proves that running the flat form of a structured program is evaluating its
arms, so a program's meaning can be read off its nesting. The state, the
instructions and the way a condition is taken off the state are parameters.
-/
namespace KaspaPortal.Lib

/-- What a flat program is made of. -/
inductive Token (ι : Type) where
  | instr (i : ι)
  | opIf
  | opElse
  | opEndIf
  deriving DecidableEq, Repr

/-- An open condition: its arm runs, its other arm would, or it stands inside an arm that does not run. -/
inductive Cond where
  | taken | untaken | skipped
  deriving DecidableEq, Repr

/-- A statement of a structured program. -/
inductive Stmt (ι : Type) where
  | instr (i : ι)
  | ifThen (body : List (Stmt ι))
  | ifElse (body other : List (Stmt ι))

/-- A machine: what its instructions do, and how it takes a condition off its state. -/
structure Machine (ι σ : Type) where
  /-- One instruction; `none` is failure. -/
  step : ι → σ → Option σ
  /-- Take a condition off the state. -/
  test : σ → Option (Bool × σ)

/-- A nested condition of an arm that is not taken is pushed as `skipped`, so
only the innermost condition decides. -/
def executing : List Cond → Bool
  | [] => true
  | c :: _ => c == .taken

namespace Machine
variable {ι σ : Type} (m : Machine ι σ)

/-- Nothing but the condition tokens is looked at in an arm that does not run. -/
def stepToken : Token ι → σ × List Cond → Option (σ × List Cond)
  | .instr i, (s, cs) => if executing cs then (m.step i s).map (·, cs) else some (s, cs)
  | .opIf, (s, cs) =>
    if executing cs then
      (m.test s).map fun (b, s') => (s', (if b then .taken else .untaken) :: cs)
    else some (s, .skipped :: cs)
  | .opElse, (s, .taken :: cs) => some (s, .untaken :: cs)
  | .opElse, (s, .untaken :: cs) => some (s, .taken :: cs)
  | .opElse, (s, .skipped :: cs) => some (s, .skipped :: cs)
  | .opElse, (_, []) => none
  | .opEndIf, (s, _ :: cs) => some (s, cs)
  | .opEndIf, (_, []) => none

/-- The tokens one after the other, until one fails. -/
def run : List (Token ι) → σ × List Cond → Option (σ × List Cond)
  | [], st => some st
  | t :: ts, st => (m.stepToken t st).bind (run ts)

/-- A whole program succeeds when it runs to its end outside every condition. -/
def exec (program : List (Token ι)) (s : σ) : Option σ :=
  match m.run program (s, []) with
  | some (s', []) => some s'
  | _ => none

mutual
/-- A condition chooses which arm is evaluated. -/
def evalStmt : Stmt ι → σ → Option σ
  | .instr i, s => m.step i s
  | .ifThen body, s => (m.test s).bind fun (b, s') => if b then eval body s' else some s'
  | .ifElse body other, s =>
    (m.test s).bind fun (b, s') => if b then eval body s' else eval other s'

def eval : List (Stmt ι) → σ → Option σ
  | [], s => some s
  | x :: xs, s => (evalStmt x s).bind (eval xs)
end

end Machine

mutual
def Stmt.flatten {ι : Type} : Stmt ι → List (Token ι)
  | .instr i => [.instr i]
  | .ifThen body => .opIf :: (flattenAll body ++ [.opEndIf])
  | .ifElse body other => .opIf :: (flattenAll body ++ .opElse :: (flattenAll other ++ [.opEndIf]))

/-- The flat form of a structured program. -/
def flattenAll {ι : Type} : List (Stmt ι) → List (Token ι)
  | [] => []
  | x :: xs => x.flatten ++ flattenAll xs
end

attribute [simp] Stmt.flatten flattenAll

@[simp] theorem flattenAll_append {ι : Type} (p q : List (Stmt ι)) :
    flattenAll (p ++ q) = flattenAll p ++ flattenAll q := by
  induction p with
  | nil => simp [flattenAll]
  | cons x xs ih => simp [flattenAll, ih]

namespace Machine
variable {ι σ : Type} (m : Machine ι σ)

@[simp] theorem run_cons (t : Token ι) (ts : List (Token ι)) (st : σ × List Cond) :
    m.run (t :: ts) st = (m.stepToken t st).bind (m.run ts) := rfl

mutual
/-- An arm that is not taken leaves the state alone, however it nests. -/
theorem run_flatten_stmt_skip (x : Stmt ι) (rest : List (Token ι)) (s : σ) (cs : List Cond)
    (h : executing cs = false) : m.run (x.flatten ++ rest) (s, cs) = m.run rest (s, cs) := by
  cases x with
  | instr i => simp [Stmt.flatten, stepToken, h]
  | ifThen body =>
    simp only [Stmt.flatten, List.cons_append, List.append_assoc, run_cons, stepToken, h,
      Bool.false_eq_true, if_false, Option.bind_some]
    rw [run_flatten_skip body _ s _ rfl]
    simp [stepToken]
  | ifElse body other =>
    simp only [Stmt.flatten, List.cons_append, List.append_assoc, run_cons, stepToken, h,
      Bool.false_eq_true, if_false, Option.bind_some]
    rw [run_flatten_skip body _ s _ rfl]
    simp only [run_cons, stepToken, Option.bind_some]
    rw [run_flatten_skip other _ s _ rfl]
    simp [stepToken]

theorem run_flatten_skip (p : List (Stmt ι)) (rest : List (Token ι)) (s : σ) (cs : List Cond)
    (h : executing cs = false) : m.run (flattenAll p ++ rest) (s, cs) = m.run rest (s, cs) := by
  cases p with
  | nil => rfl
  | cons x xs =>
    rw [flattenAll, List.append_assoc, run_flatten_stmt_skip x _ s cs h,
      run_flatten_skip xs rest s cs h]
end

mutual
/-- The statement for one statement of what `run_flatten` says of many. -/
theorem run_flatten_stmt (x : Stmt ι) (rest : List (Token ι)) (s : σ) (cs : List Cond)
    (h : executing cs = true) :
    m.run (x.flatten ++ rest) (s, cs) = (m.evalStmt x s).bind fun s' => m.run rest (s', cs) := by
  cases x with
  | instr i => simp [Stmt.flatten, stepToken, h, evalStmt, Option.bind_map]
  | ifThen body =>
    simp only [Stmt.flatten, List.cons_append, List.append_assoc, run_cons, stepToken, h, if_true,
      evalStmt]
    cases m.test s with
    | none => rfl
    | some bs =>
      obtain ⟨b, s'⟩ := bs
      cases b with
      | true =>
        simp only [Option.map_some, Option.bind_some, if_true]
        rw [run_flatten body _ s' _ rfl]
        simp [stepToken]
      | false =>
        simp only [Option.map_some, Option.bind_some, Bool.false_eq_true, if_false]
        rw [m.run_flatten_skip body _ s' _ rfl]
        simp [stepToken]
  | ifElse body other =>
    simp only [Stmt.flatten, List.cons_append, List.append_assoc, run_cons, stepToken, h, if_true,
      evalStmt]
    cases m.test s with
    | none => rfl
    | some bs =>
      obtain ⟨b, s'⟩ := bs
      cases b with
      | true =>
        simp only [Option.map_some, Option.bind_some, if_true]
        rw [run_flatten body _ s' _ rfl]
        congr 1
        funext s''
        simp only [run_cons, stepToken, Option.bind_some]
        rw [m.run_flatten_skip other _ s'' _ rfl]
        simp [stepToken]
      | false =>
        simp only [Option.map_some, Option.bind_some, Bool.false_eq_true, if_false]
        rw [m.run_flatten_skip body _ s' _ rfl]
        simp only [run_cons, stepToken, Option.bind_some]
        rw [run_flatten other _ s' _ rfl]
        simp [stepToken]

/-- Running a flattened program is evaluating its statements and then running on. -/
theorem run_flatten (p : List (Stmt ι)) (rest : List (Token ι)) (s : σ) (cs : List Cond)
    (h : executing cs = true) :
    m.run (flattenAll p ++ rest) (s, cs) = (m.eval p s).bind fun s' => m.run rest (s', cs) := by
  cases p with
  | nil => rfl
  | cons x xs =>
    rw [flattenAll, List.append_assoc, run_flatten_stmt x _ s cs h, eval, Option.bind_assoc]
    congr 1
    funext s'
    exact run_flatten xs rest s' cs h
end

/-- A flattened program does what its statements evaluate to. -/
theorem exec_flatten (p : List (Stmt ι)) (s : σ) : m.exec (flattenAll p) s = m.eval p s := by
  have h := m.run_flatten p [] s [] rfl
  rw [List.append_nil] at h
  rw [exec, h]
  cases m.eval p s <;> rfl

/-! ## Rules: what a successful evaluation says, statement by statement -/

theorem eval_nil_iff (s r : σ) : m.eval [] s = some r ↔ s = r := by
  simp [eval]

/-- One instruction, then the rest. -/
theorem eval_instr_iff (i : ι) (p : List (Stmt ι)) (s r : σ) :
    m.eval (.instr i :: p) s = some r ↔ ∃ s', m.step i s = some s' ∧ m.eval p s' = some r := by
  simp [eval, evalStmt, Option.bind_eq_some_iff]

/-- The body or nothing, then the rest. -/
theorem eval_ifThen_iff (body p : List (Stmt ι)) (s r : σ) :
    m.eval (.ifThen body :: p) s = some r ↔
      ∃ b s', m.test s = some (b, s') ∧
        ∃ s'', (b = true ∧ m.eval body s' = some s'' ∨ b = false ∧ s' = s'') ∧
          m.eval p s'' = some r := by
  simp only [eval, evalStmt, Option.bind_eq_some_iff, Prod.exists]
  constructor
  · rintro ⟨s'', ⟨b, s', ht, hb⟩, hp⟩
    cases b <;> simp_all
  · rintro ⟨b, s', ht, s'', hb, hp⟩
    refine ⟨s'', ⟨b, s', ht, ?_⟩, hp⟩
    cases b <;> simp_all

/-- One of the two arms, then the rest. -/
theorem eval_ifElse_iff (body other p : List (Stmt ι)) (s r : σ) :
    m.eval (.ifElse body other :: p) s = some r ↔
      ∃ b s', m.test s = some (b, s') ∧
        ∃ s'', (b = true ∧ m.eval body s' = some s'' ∨ b = false ∧ m.eval other s' = some s'') ∧
          m.eval p s'' = some r := by
  simp only [eval, evalStmt, Option.bind_eq_some_iff, Prod.exists]
  constructor
  · rintro ⟨s'', ⟨b, s', ht, hb⟩, hp⟩
    cases b <;> simp_all
  · rintro ⟨b, s', ht, s'', hb, hp⟩
    refine ⟨s'', ⟨b, s', ht, ?_⟩, hp⟩
    cases b <;> simp_all

/-- A program in two parts passes a state on between them. -/
theorem eval_append_iff (p q : List (Stmt ι)) (s r : σ) :
    m.eval (p ++ q) s = some r ↔ ∃ s', m.eval p s = some s' ∧ m.eval q s' = some r := by
  induction p generalizing s with
  | nil => simp [eval]
  | cons x xs ih =>
    simp only [List.cons_append, eval, Option.bind_eq_some_iff, ih]
    constructor
    · rintro ⟨a, ha, b, hb, hq⟩
      exact ⟨b, ⟨a, ha, hb⟩, hq⟩
    · rintro ⟨b, ⟨a, ha, hb⟩, hq⟩
      exact ⟨a, ha, b, hb, hq⟩

end Machine
end KaspaPortal.Lib
