import KaspaPortal.Lib.Result
import KaspaPortal.Transaction.Consensus

/-!
# Covenant identity

`src/contract/covenant/identity.rs` and `covenant_genesis` of `src/transaction/consensus/model.rs`.
The keyed BLAKE2b is a parameter, given its key and everything that the source feeds it.

That different preimages have different ids is never assumed in general. Where it is needed, it is
a hypothesis about the two strings at hand.
-/
namespace KaspaPortal.Contract.Covenant
open Lib Transaction

/-- Domain key of the consensus hasher. -/
def COVENANT_ID_DOMAIN : Bytes := ascii "CovenantID"

structure GenesisOutpoint where
  transactionId : FixedBytes 32
  index : UInt32
  deriving DecidableEq

structure AuthorizedOutput where
  index : UInt32
  value : UInt64
  spkVersion : UInt16
  spkScript : Bytes
  deriving DecidableEq

structure CovenantGenesis where
  covenantId : FixedBytes 32
  outpoint : GenesisOutpoint
  authorizingInput : UInt16
  outputs : List AuthorizedOutput
  deriving DecidableEq

inductive CovenantProofError where
  | noAuthorizedOutputs | outputsNotOrdered | idMismatch | mixedAuthorizingInputs
  | noSuchInput (input : UInt16)
  deriving DecidableEq, Repr

def AuthorizedOutput.committed (output : AuthorizedOutput) : Bytes :=
  leBytes 4 output.index.toNat ++ (leBytes 8 output.value.toNat ++
    (leBytes 2 output.spkVersion.toNat ++
      (leBytes 8 output.spkScript.length ++ output.spkScript)))

/-- What the id commits to. -/
def committed (genesis : GenesisOutpoint) (outputs : List AuthorizedOutput) : Bytes :=
  genesis.transactionId.val ++ (leBytes 4 genesis.index.toNat ++
    (leBytes 8 outputs.length ++ outputs.flatMap AuthorizedOutput.committed))

section
variable (keyedHash : Bytes → Bytes → FixedBytes 32)

def covenantId (genesis : GenesisOutpoint) (outputs : List AuthorizedOutput) : FixedBytes 32 :=
  keyedHash COVENANT_ID_DOMAIN (committed genesis outputs)

/-- The source's test of the neighbouring pairs. -/
def ascending : List AuthorizedOutput → Bool
  | first :: second :: rest => first.index < second.index && ascending (second :: rest)
  | _ => true

def verifyGenesis (claimed : FixedBytes 32) (genesis : GenesisOutpoint)
    (outputs : List AuthorizedOutput) : Except CovenantProofError Unit := do
  if outputs = [] then throw .noAuthorizedOutputs
  if ¬ ascending outputs then throw .outputsNotOrdered
  if covenantId keyedHash genesis outputs ≠ claimed then throw .idMismatch

/-- One pass of the loop over the outputs: the authorizing input, once one is known, and the
outputs that name it. -/
def genesisOutput (claimed : FixedBytes 32) (state : Option UInt16 × List AuthorizedOutput)
    (item : ConsensusOutput × Nat) : Except CovenantProofError (Option UInt16 × List AuthorizedOutput) :=
  match item.1.covenant.filter (·.2 = claimed) with
  | none => .ok state
  | some (input, _) =>
    if state.1.getD input ≠ input then .error .mixedAuthorizingInputs
    else if item.2 < 2 ^ 32 then
      .ok (some (state.1.getD input), state.2 ++
        [⟨UInt32.ofNat item.2, item.1.value, item.1.spkVersion, item.1.spkScript⟩])
    else .error .outputsNotOrdered

def covenantGenesis (tx : ConsensusTransaction) (claimed : FixedBytes 32) :
    Except CovenantProofError CovenantGenesis := do
  let (authorizingInput, outputs) ← tx.outputs.zipIdx.foldlM (genesisOutput claimed) (none, [])
  let authorizingInput ← okOr .noAuthorizedOutputs authorizingInput
  let input ← okOr (.noSuchInput authorizingInput) tx.inputs[authorizingInput.toNat]?
  let outpoint : GenesisOutpoint := ⟨input.prevTxId, input.prevIndex⟩
  verifyGenesis keyedHash claimed outpoint outputs
  return ⟨claimed, outpoint, authorizingInput, outputs⟩

end

end KaspaPortal.Contract.Covenant
