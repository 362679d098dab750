import KaspaPortal.Contract.Covenant.Execution

/-!
# Signatures and witness of a generic covenant input

The covenant part of `src/transaction/interchange/pskt/pipeline/compact/verify.rs`
and `.../verified/plan.rs`: how many signatures an input needs and how they are
laid out. Of an input only the fields these functions read are kept.
-/
namespace KaspaPortal.Transaction.Pskt
open Lib Contract.Covenant

structure Signature where
  position : UInt8
  sighash : UInt8
  bytes : FixedBytes 64
  deriving DecidableEq

structure Input where
  signatures : List Signature
  redeem : Bytes
  covenantExecution : Option (BitVec 16 × BitVec 16)

inductive VerifiedWitnessItem where
  | selector (value : Bool)
  | signature (signature : Signature)
  deriving DecidableEq

/-- The covenant case of `VerifiedWitnessPlan`. -/
structure CovenantPlan where
  witness : List VerifiedWitnessItem
  redeemScript : Bytes
  suppliedMask : BitVec 16
  suppliedTrueMask : BitVec 16

/-- The variant's name, as `{:?}` prints it. -/
def debugName : ExecutionError → String
  | .malformedScript => "MalformedScript"
  | .branchDepthExceeded => "BranchDepthExceeded"
  | .tooManyKeys => "TooManyKeys"
  | .incompleteSelectors => "IncompleteSelectors"
  | .unsupportedSignatureCheck => "UnsupportedSignatureCheck"
  | .unsupportedOpcode => "UnsupportedOpcode"
  | .witnessDataRequired => "WitnessDataRequired"
  | .dataDependentBranch => "DataDependentBranch"

def inputError (index : Nat) (text : String) : String :=
  "input[" ++ toString index ++ "] " ++ text

def invalidPath (index : Nat) (error : ExecutionError) : String :=
  inputError index ("covenantExecution path is invalid: " ++ debugName error)

/-- The key positions whose signatures the path consumes. -/
def pathPositions (path : List WitnessItem) : List UInt8 :=
  path.filterMap fun
    | .signature position => some position
    | .selector _ => none

/-- Exactly the signatures the chosen path consumes; `none` when no generic plan
exists for it. -/
def genericCovenantRequired (index : Nat) (input : Input) : Except String (Option Nat) :=
  match input.covenantExecution with
  | none => .ok none
  | some (mask, truth) =>
    match traceWitness input.redeem mask truth with
    | .ok path => .ok (some (pathPositions path).length)
    | .error .incompleteSelectors | .error .unsupportedSignatureCheck
    | .error .unsupportedOpcode | .error .witnessDataRequired | .error .dataDependentBranch =>
      .ok none
    | .error error => .error (invalidPath index error)

/-- The complete selector assignment and the witness items its path consumes. -/
def covenantPath (index : Nat) (input : Input) :
    Except String (BitVec 16 × BitVec 16 × List WitnessItem) := do
  let (mask, truth) ← okOr (inputError index "covenant is missing covenantExecution")
    input.covenantExecution
  let path ← (traceWitness input.redeem mask truth).mapError (invalidPath index)
  return (mask, truth, path)

/-- One item of the plan: a selector as it is, or the signature the input carries
for the position. -/
def planItem (index : Nat) (input : Input) : WitnessItem → Except String VerifiedWitnessItem
  | .selector value => .ok (.selector value)
  | .signature position =>
    (okOr (inputError index "covenant path signature is missing")
      (input.signatures.find? fun signature => signature.position == position)).map
      .signature

def covenantWitnessPlan (index : Nat) (input : Input) : Except String CovenantPlan := do
  let (suppliedMask, suppliedTrueMask, path) ← covenantPath index input
  let witness ← path.mapM (planItem index input)
  return ⟨witness, input.redeem, suppliedMask, suppliedTrueMask⟩

/-- The signatures a plan lays out, in its order. -/
def CovenantPlan.signatures (plan : CovenantPlan) : List Signature :=
  plan.witness.filterMap fun
    | .signature signature => some signature
    | .selector _ => none

theorem planItem_signature {index : Nat} {input : Input} {position : UInt8}
    {item : VerifiedWitnessItem} (h : planItem index input (.signature position) = .ok item) :
    ∃ signature, item = .signature signature ∧ signature.position = position := by
  cases hf : input.signatures.find? fun signature => signature.position == position with
  | none => simp [planItem, hf, okOr, Except.map] at h
  | some signature =>
    have hpos : signature.position = position := by simpa using List.find?_some hf
    simp only [planItem, hf, okOr, Except.map, Except.ok.injEq] at h
    exact ⟨signature, h.symm, hpos⟩

theorem planned_positions {index : Nat} {input : Input} {path : List WitnessItem} (plan : CovenantPlan)
    (h : path.mapM (planItem index input) = .ok plan.witness) :
    plan.signatures.map Signature.position = pathPositions path := by
  obtain ⟨witness, redeem, mask, truth⟩ := plan
  unfold CovenantPlan.signatures
  simp only at h ⊢
  induction path generalizing witness with
  | nil =>
    cases h
    rfl
  | cons item path ih =>
    rw [List.mapM_cons] at h
    obtain ⟨planned, hitem, h⟩ := bind_eq_ok.mp h
    obtain ⟨rest, hrest, h⟩ := bind_eq_ok.mp h
    obtain rfl : planned :: rest = witness := Except.ok.inj h
    cases item with
    | selector value =>
      obtain rfl : VerifiedWitnessItem.selector value = planned := Except.ok.inj hitem
      exact ih rest hrest
    | signature position =>
      obtain ⟨signature, rfl, rfl⟩ := planItem_signature hitem
      simp only [List.filterMap_cons, List.map_cons, ih rest hrest, pathPositions]

/-- The planner lays out one signature for each position of the path, in its order. -/
theorem covenantWitnessPlan_positions {index : Nat} {input : Input} {plan : CovenantPlan}
    {mask truth : BitVec 16} {path : List WitnessItem}
    (hexec : input.covenantExecution = some (mask, truth))
    (hpath : traceWitness input.redeem mask truth = .ok path)
    (h : covenantWitnessPlan index input = .ok plan) :
    plan.signatures.map Signature.position = pathPositions path := by
  unfold covenantWitnessPlan at h
  obtain ⟨⟨m, t, items⟩, hcov, h⟩ := bind_eq_ok.mp h
  obtain ⟨witness, hmap, h⟩ := bind_eq_ok.mp h
  obtain rfl := Except.ok.inj h
  have : items = path := by
    simp [covenantPath, hexec, hpath, okOr, mapError_ok, bind, Except.bind, pure,
      Except.pure] at hcov
    exact hcov.2.2.symm
  subst this
  exact planned_positions _ hmap

end KaspaPortal.Transaction.Pskt
