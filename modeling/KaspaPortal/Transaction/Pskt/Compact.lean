import KaspaPortal.Lib.Json
import KaspaPortal.Primitives.Hex
import KaspaPortal.Transaction.Kspt.Replay
import KaspaPortal.Transaction.Pskt.CovenantPath
import KaspaPortal.Transaction.Sighash

/-!
# The host's compact transaction

`src/transaction/interchange/pskt/pipeline/compact.rs` with `compact/parser.rs`,
`compact/sighash.rs` and `compact/verify.rs`: the transaction both formats are
translated to, as source and sink of the compact grammar, and the verification of the
signatures it carries.

The texts of the verification's errors are kept. The curve and the hashes are
parameters.
-/
namespace KaspaPortal.Transaction.Pskt
open Lib Primitives Model Contract.Covenant

namespace Compact

/-- The claims whose signature scripts are put together in ways of their own. -/
inductive SpecializedRoute where
  | privateSwapClaim | oracleV1Claim | commitRevealClaim | merkleClaim
  deriving DecidableEq, Repr

/-- A signature script made for one route, with the branches it takes. -/
structure SpecializedWitness where
  route : SpecializedRoute
  signatureScript : Bytes
  suppliedMask : UInt16
  suppliedTrueMask : UInt16
  deriving DecidableEq

/-- An input as the host holds it. The last four fields are hints of the envelope. -/
structure Input where
  txId : FixedBytes 32
  index : UInt32
  amount : UInt64
  sequence : UInt64
  sigOpCount : UInt8
  scriptVersion : UInt16
  script : Bytes
  /-- Not part of the compact format; read for storage mass. -/
  hasCovenantId : Bool
  signatures : List Signature
  redeem : Bytes
  derivation : Option (UInt8 × UInt32)
  ms45 : Option (UInt32 × UInt32 × UInt32)
  covenantExecution : Option (UInt16 × UInt16)
  /-- Host-only, and not part of the compact format either. -/
  specializedWitness : Option SpecializedWitness
  deriving DecidableEq

/-- Stands for an input out of range. It is never written. -/
def Input.empty : Input :=
  ⟨zeros 32, 0, 0, 0, 0, 0, [], false, [], [], none, none, none, none⟩

/-- An output with its hints. -/
structure Output where
  amount : UInt64
  scriptVersion : UInt16
  script : Bytes
  derivation : Option (UInt8 × UInt32)
  ms45 : Option (UInt32 × UInt32 × UInt32)
  covenant : Option (UInt16 × FixedBytes 32)
  deriving DecidableEq

def Output.empty : Output := ⟨0, 0, [], none, none, none⟩

/-- A transaction as the host holds it; all of it but the completeness of an input goes on the wire. -/
structure Transaction where
  flags : UInt8
  version : UInt16
  locktime : UInt64
  subnetwork : FixedBytes 20
  gas : UInt64
  payload : Bytes
  network : UInt8
  inputs : List Input
  outputs : List Output
  stealth : Option (FixedBytes 32)
  deriving DecidableEq

/-- What the covenant path functions read. -/
def Input.path (self : Input) : Pskt.Input where
  signatures := self.signatures
  redeem := self.redeem
  covenantExecution := self.covenantExecution.map fun (mask, truth) =>
    (mask.toBitVec, truth.toBitVec)

end Compact

def Signature.empty : Signature := ⟨0, 0, zeros 64⟩

/-! ## Encoding -/

section source
open Compact

def wireDerivation (value : UInt8 × UInt32) : Kspt.Derivation := ⟨value.1, value.2⟩

def wireMs45 (value : UInt32 × UInt32 × UInt32) : Kspt.Ms45Derivation :=
  ⟨value.1, value.2.1, value.2.2⟩

/-- What the wire says of an input, apart from its records. -/
def compactInput (input : Compact.Input) : Kspt.Input where
  previousTxId := input.txId
  previousIndex := input.index
  amount := input.amount
  sequence := input.sequence
  sigOpCount := input.sigOpCount
  scriptVersion := input.scriptVersion
  script := input.script

def compactSignature (signature : Signature) : Kspt.Signature :=
  ⟨signature.position, signature.sighash, signature.bytes⟩

def compactOutput (output : Compact.Output) : Kspt.Output :=
  ⟨output.amount, output.scriptVersion, output.script⟩

/-- The encoder only asks for inputs and outputs the counts declare. -/
def compactSource (tx : Compact.Transaction) : Kspt.EncodeSource where
  global := {
    flags := tx.flags
    version := tx.version
    inputCount := UInt32.ofNat tx.inputs.length
    outputCount := UInt8.ofNat tx.outputs.length
    locktime := tx.locktime
    subnetworkId := tx.subnetwork
    gas := tx.gas
    payload := tx.payload }
  input := fun index => compactInput (tx.inputs[index]?.getD .empty)
  signatureCount := fun index => (tx.inputs[index]?.getD .empty).signatures.length
  signature := fun index slot =>
    compactSignature ((tx.inputs[index]?.getD .empty).signatures[slot]?.getD .empty)
  redeem := fun index => (tx.inputs[index]?.getD .empty).redeem
  output := fun index => compactOutput (tx.outputs[index]?.getD .empty)
  network := tx.network
  stealth := tx.stealth
  inputDerivation := fun index => (tx.inputs[index]?.getD .empty).derivation.map wireDerivation
  outputDerivation := fun index => (tx.outputs[index]?.getD .empty).derivation.map wireDerivation
  inputMs45 := fun index => (tx.inputs[index]?.getD .empty).ms45.map wireMs45
  outputMs45 := fun index => (tx.outputs[index]?.getD .empty).ms45.map wireMs45
  covenant := fun index => (tx.outputs[index]?.getD .empty).covenant.map fun (input, id) =>
    ⟨input, id⟩
  covenantExecution := fun index =>
    (tx.inputs[index]?.getD .empty).covenantExecution.map fun (mask, truth) => ⟨mask, truth⟩

end source

/-! ## Decoding -/

section sink
open Compact

/-- Nothing before the global record. -/
abbrev HostSink := Option Compact.Transaction

/-- `transaction_mut`, and what is done to the transaction. -/
def onTransaction (f : Compact.Transaction → Except String Compact.Transaction) (sink : HostSink) :
    Except String HostSink := do
  let tx ← okOr "KSPT global record was not decoded" sink
  return some (← f tx)

/-- `get_mut` on the inputs, and what is done to the entry. -/
def onInput (index : Nat) (error : String) (f : Compact.Input → Except String Compact.Input) :
    HostSink → Except String HostSink :=
  onTransaction fun tx => do
    let input ← okOr error (tx.inputs[index]?)
    return { tx with inputs := tx.inputs.set index (← f input) }

/-- A hint for an output that is not there is an error. -/
def onOutput (index : Nat) (error : String) (f : Compact.Output → Compact.Output) :
    HostSink → Except String HostSink :=
  onTransaction fun tx => do
    let output ← okOr error (tx.outputs[index]?)
    return { tx with outputs := tx.outputs.set index (f output) }

/-- The global record starts the transaction. -/
def sinkGlobal (value : Kspt.Global) (_ : HostSink) : Except String HostSink :=
  .ok (some {
    flags := value.flags
    version := value.version
    locktime := value.locktime
    subnetwork := value.subnetworkId
    gas := value.gas
    payload := value.payload
    network := 0
    inputs := []
    outputs := []
    stealth := none })

/-- An input as it is taken, before its signatures and hints. -/
def decodedInput (value : Kspt.Input) : Compact.Input where
  txId := value.previousTxId
  index := value.previousIndex
  amount := value.amount
  sequence := value.sequence
  sigOpCount := value.sigOpCount
  scriptVersion := value.scriptVersion
  script := value.script
  hasCovenantId := false
  signatures := []
  redeem := []
  derivation := none
  ms45 := none
  covenantExecution := none
  specializedWitness := none

def decodedOutput (value : Kspt.Output) : Compact.Output where
  amount := value.amount
  scriptVersion := value.scriptVersion
  script := value.script
  derivation := none
  ms45 := none
  covenant := none

def sinkInput (index : Nat) (value : Kspt.Input) (_ : UInt8) : HostSink → Except String HostSink :=
  onTransaction fun tx => do
    rejectIf (index ≠ tx.inputs.length) "KSPT input order is invalid"
    return { tx with inputs := tx.inputs ++ [decodedInput value] }

def sinkSignature (index slot : Nat) (value : Kspt.Signature) : HostSink → Except String HostSink :=
  onInput index "KSPT signature input is invalid" fun input => do
    rejectIf (slot ≠ input.signatures.length) "KSPT signature slot order is invalid"
    return { input with
      signatures := input.signatures ++ [⟨value.position, value.sighash, value.bytes⟩] }

def sinkOutput (index : Nat) (value : Kspt.Output) : HostSink → Except String HostSink :=
  onTransaction fun tx => do
    rejectIf (index ≠ tx.outputs.length) "KSPT output order is invalid"
    return { tx with outputs := tx.outputs ++ [decodedOutput value] }

def hostSink : Kspt.DecodeSink HostSink String where
  global := sinkGlobal
  input := sinkInput
  signature := sinkSignature
  redeem := fun index value => onInput index "KSPT redeem input is invalid" fun input =>
    .ok { input with redeem := value }
  output := sinkOutput
  network := fun code => onTransaction fun tx => .ok { tx with network := code }
  stealth := fun tweak => onTransaction fun tx => .ok { tx with stealth := some tweak }
  inputDerivation := fun index value =>
    onInput index.toNat "KSPT input derivation position is invalid" fun input =>
      .ok { input with derivation := some (value.branch, value.index) }
  outputDerivation := fun index value =>
    onOutput index.toNat "KSPT output derivation position is invalid" fun output =>
      { output with derivation := some (value.branch, value.index) }
  inputMs45 := fun index value =>
    onInput index.toNat "KSPT input multisig position is invalid" fun input =>
      .ok { input with ms45 := some (value.cosigner, value.chain, value.index) }
  outputMs45 := fun index value =>
    onOutput index.toNat "KSPT output multisig position is invalid" fun output =>
      { output with ms45 := some (value.cosigner, value.chain, value.index) }
  covenant := fun index value =>
    onOutput index.toNat "KSPT covenant position is invalid" fun output =>
      { output with covenant := some (value.authorizingInput, value.id) }
  covenantExecution := fun index value =>
    onInput index.toNat "KSPT covenant execution position is invalid" fun input =>
      .ok { input with covenantExecution := some (value.suppliedMask, value.suppliedTrueMask) }

def decodeError : Kspt.DecodeError String → String
  | .wire error => error.message
  | .sink error => error

/-- `parse`: the flags are the envelope's. -/
def parseCompact (data : Bytes) (limits : Kspt.Limits) : Except String Compact.Transaction := do
  let (flags, sink) ← (Kspt.decode hostSink data limits none).mapError decodeError
  let tx ← okOr "KSPT global record was not decoded" sink
  return { tx with flags := flags }

/-! ## What the sink keeps -/

theorem onTransaction_ok {f : Compact.Transaction → Except String Compact.Transaction}
    {tx tx' : Compact.Transaction} (h : f tx = .ok tx') : onTransaction f (some tx) = .ok (some tx') :=
  bind_of_ok h

theorem onInput_some {index : Nat} {error : String} {f : Compact.Input → Except String Compact.Input}
    {tx : Compact.Transaction} {input input' : Compact.Input} (hinput : tx.inputs[index]? = some input)
    (hf : f input = .ok input') :
    onInput index error f (some tx) = .ok (some { tx with inputs := tx.inputs.set index input' }) := by
  apply onTransaction_ok
  rw [bind_of_ok (okOr_eq_ok.mpr hinput), bind_of_ok hf]
  rfl

theorem onInput_modify {index : Nat} {error : String} {f : Compact.Input → Compact.Input}
    {tx : Compact.Transaction} (hlt : index < tx.inputs.length) :
    onInput index error (fun input => .ok (f input)) (some tx) =
      .ok (some { tx with inputs := tx.inputs.modify index f }) := by
  have hset : tx.inputs.modify index f = tx.inputs.set index (f tx.inputs[index]) := by
    rw [List.modify_eq_set_getElem?, List.getElem?_eq_getElem hlt]
    rfl
  rw [hset]
  exact onInput_some (List.getElem?_eq_getElem hlt) rfl

theorem onOutput_modify {index : Nat} {error : String} {f : Compact.Output → Compact.Output}
    {tx : Compact.Transaction} (hlt : index < tx.outputs.length) :
    onOutput index error f (some tx) = .ok (some { tx with outputs := tx.outputs.modify index f }) := by
  have hset : tx.outputs.modify index f = tx.outputs.set index (f tx.outputs[index]) := by
    rw [List.modify_eq_set_getElem?, List.getElem?_eq_getElem hlt]
    rfl
  apply onTransaction_ok
  rw [hset, bind_of_ok (okOr_eq_ok.mpr (List.getElem?_eq_getElem hlt))]
  rfl

/-- A signature as it is taken, under the position it was sent with. -/
def decodedSignature (value : Kspt.Signature) : Signature := ⟨value.position, value.sighash, value.bytes⟩

/-- The input that the records of an envelope make, before its trailers. -/
def signedInput (record : Kspt.WireInput) : Compact.Input :=
  { decodedInput record.value with
    signatures := record.signatures.map decodedSignature
    redeem := record.redeem }

/-- The last input with more signatures. -/
def appendSignatures (input : Compact.Input) (values : List Kspt.Signature) : Compact.Input :=
  { input with signatures := input.signatures ++ values.map decodedSignature }

/-- By induction on the signatures: each is appended to the last input. -/
theorem replaySignatures_host (values : List Kspt.Signature) {tx : Compact.Transaction}
    {done : List Compact.Input} {input : Compact.Input} (hinputs : tx.inputs = done ++ [input]) :
    Kspt.replaySignatures hostSink done.length input.signatures.length values (some tx) =
      .ok (some { tx with inputs := done ++ [appendSignatures input values] }) := by
  induction values generalizing tx input with
  | nil =>
    rw [appendSignatures, List.map_nil, List.append_nil, ← hinputs]
    rfl
  | cons value values ih =>
    have hlast : tx.inputs[done.length]? = some input := by
      rw [hinputs, List.getElem?_append_right (Nat.le_refl _), Nat.sub_self]
      rfl
    have hset : tx.inputs.set done.length (appendSignatures input [value]) =
        done ++ [appendSignatures input [value]] := by
      rw [hinputs, List.set_append_right _ _ (Nat.le_refl _), Nat.sub_self]
      rfl
    have hhand : hostSink.signature done.length input.signatures.length value (some tx) =
        .ok (some { tx with inputs := done ++ [appendSignatures input [value]] }) := by
      rw [← hset]
      exact onInput_some hlast (bind_of_ok (rejectIf_neg (not_not.mpr rfl)))
    have hnext := @ih { tx with inputs := done ++ [appendSignatures input [value]] } _ rfl
    have hlength : (appendSignatures input [value]).signatures.length = input.signatures.length + 1 :=
      List.length_append
    have hall : appendSignatures (appendSignatures input [value]) values =
        appendSignatures input (value :: values) := by
      simp only [appendSignatures, List.append_assoc, List.map_cons, List.map_nil, List.cons_append,
        List.nil_append]
    rw [hlength, hall] at hnext
    rw [Kspt.replaySignatures, bind_of_ok hhand]
    exact hnext

/-- An input is taken when it is the next one, and so are its signatures and its redeem script. -/
theorem replayInput_host (record : Kspt.WireInput) (tx : Compact.Transaction) :
    Kspt.replayInput hostSink tx.inputs.length record (some tx) =
      .ok (some { tx with inputs := tx.inputs ++ [signedInput record] }) := by
  have hvalue : hostSink.input tx.inputs.length record.value (UInt8.ofNat record.signatures.length) (some tx) =
      .ok (some { tx with inputs := tx.inputs ++ [decodedInput record.value] }) := by
    apply onTransaction_ok
    rw [bind_of_ok (rejectIf_neg (not_not.mpr rfl))]
    rfl
  have hsigned : Kspt.replaySignatures hostSink tx.inputs.length 0 record.signatures
      (some { tx with inputs := tx.inputs ++ [decodedInput record.value] }) =
        .ok (some { tx with inputs := tx.inputs ++
          [appendSignatures (decodedInput record.value) record.signatures] }) :=
    @replaySignatures_host record.signatures { tx with inputs := tx.inputs ++ [decodedInput record.value] }
      tx.inputs (decodedInput record.value) rfl
  have hredeem : hostSink.redeem tx.inputs.length record.redeem
      (some { tx with inputs := tx.inputs ++
        [appendSignatures (decodedInput record.value) record.signatures] }) =
        .ok (some { tx with inputs := tx.inputs ++ [signedInput record] }) := by
    have hset : (tx.inputs ++ [appendSignatures (decodedInput record.value) record.signatures]).set
        tx.inputs.length (signedInput record) = tx.inputs ++ [signedInput record] := by
      rw [List.set_append_right _ _ (Nat.le_refl _), Nat.sub_self]
      rfl
    rw [← hset]
    exact onInput_some List.getElem?_concat_length rfl
  rw [Kspt.replayInput, bind_of_ok hvalue, bind_of_ok hsigned, hredeem]

/-- By induction on the records: the inputs are taken in order. -/
theorem replayInputs_host (records : List Kspt.WireInput) (tx : Compact.Transaction) :
    Kspt.replayInputs hostSink tx.inputs.length records (some tx) =
      .ok (some { tx with inputs := tx.inputs ++ records.map signedInput }) := by
  induction records generalizing tx with
  | nil =>
    rw [List.map_nil, List.append_nil]
    rfl
  | cons record records ih =>
    have hnext := ih { tx with inputs := tx.inputs ++ [signedInput record] }
    rw [List.length_append, List.append_assoc] at hnext
    rw [Kspt.replayInputs, bind_of_ok (replayInput_host record tx), List.map_cons]
    exact hnext

theorem replayOutputs_host (outputs : List Kspt.Output) (tx : Compact.Transaction) :
    Kspt.replayOutputs hostSink tx.outputs.length outputs (some tx) =
      .ok (some { tx with outputs := tx.outputs ++ outputs.map decodedOutput }) := by
  induction outputs generalizing tx with
  | nil =>
    rw [List.map_nil, List.append_nil]
    rfl
  | cons output outputs ih =>
    have hhand : hostSink.output tx.outputs.length output (some tx) =
        .ok (some { tx with outputs := tx.outputs ++ [decodedOutput output] }) := by
      apply onTransaction_ok
      rw [bind_of_ok (rejectIf_neg (not_not.mpr rfl))]
      rfl
    have hnext := ih { tx with outputs := tx.outputs ++ [decodedOutput output] }
    rw [List.length_append, List.append_assoc] at hnext
    rw [Kspt.replayOutputs, bind_of_ok hhand, List.map_cons]
    exact hnext

/-- An input without what a trailer can set. -/
def unhintedInput (input : Compact.Input) : Compact.Input :=
  { input with derivation := none, ms45 := none, covenantExecution := none }

/-- An output without what a trailer can set. -/
def unhintedOutput (output : Compact.Output) : Compact.Output :=
  { output with derivation := none, ms45 := none, covenant := none }

/-- A transaction without what a trailer can set. -/
def unhinted (tx : Compact.Transaction) : Compact.Transaction :=
  { tx with
    inputs := tx.inputs.map unhintedInput
    outputs := tx.outputs.map unhintedOutput
    network := 0
    stealth := none }

/-- Removing the hints leaves the number of inputs and outputs. -/
theorem unhinted_lengths {tx tx' : Compact.Transaction} (h : unhinted tx' = unhinted tx) :
    tx'.inputs.length = tx.inputs.length ∧ tx'.outputs.length = tx.outputs.length := by
  have hin := congrArg (fun tx => tx.inputs.length) h
  have hout := congrArg (fun tx => tx.outputs.length) h
  simp only [unhinted, List.length_map] at hin hout
  exact ⟨hin, hout⟩

/-- A change of hints does not show once they are removed. -/
theorem unhinted_modifyInput (tx : Compact.Transaction) (index : Nat) {f : Compact.Input → Compact.Input}
    (hf : ∀ input, unhintedInput (f input) = unhintedInput input) :
    unhinted { tx with inputs := tx.inputs.modify index f } = unhinted tx := by
  simp only [unhinted, Kspt.map_modify _ _ hf]

theorem unhinted_modifyOutput (tx : Compact.Transaction) (index : Nat)
    {f : Compact.Output → Compact.Output} (hf : ∀ output, unhintedOutput (f output) = unhintedOutput output) :
    unhinted { tx with outputs := tx.outputs.modify index f } = unhinted tx := by
  simp only [unhinted, Kspt.map_modify _ _ hf]

/-- A changed input leaves the hints at every other position. -/
theorem trailerAt_modifyInput {tx : Compact.Transaction} {index i : Nat} (hlt : index < tx.inputs.length)
    (f : Compact.Input → Compact.Input) (hi : ¬index = i) (kind : Kspt.IndexedTrailer) :
    (compactSource { tx with inputs := tx.inputs.modify index f }).trailerAt kind i =
      (compactSource tx).trailerAt kind i := by
  cases kind <;>
    simp only [Kspt.EncodeSource.trailerAt, compactSource, Kspt.getD_modify hlt, if_neg hi]

theorem trailerAt_modifyOutput {tx : Compact.Transaction} {index i : Nat}
    (hlt : index < tx.outputs.length) (f : Compact.Output → Compact.Output) (hi : ¬index = i)
    (kind : Kspt.IndexedTrailer) :
    (compactSource { tx with outputs := tx.outputs.modify index f }).trailerAt kind i =
      (compactSource tx).trailerAt kind i := by
  cases kind <;>
    simp only [Kspt.EncodeSource.trailerAt, compactSource, Kspt.getD_modify hlt, if_neg hi]

/-- A trailer in range is taken: it sets the hint it names, and nothing else changes. -/
theorem hand_host {t : Kspt.Trailer} {tx : Compact.Transaction}
    (hv : t.Valid tx.inputs.length tx.outputs.length) :
    ∃ tx', t.hand hostSink (some tx) = .ok (some tx') ∧
      Kspt.Takes (compactSource tx) (compactSource tx') t ∧ unhinted tx' = unhinted tx := by
  cases t with
  | network code =>
    exact ⟨{ tx with network := code }, rfl, ⟨fun kind i => by cases kind <;> rfl, rfl, rfl⟩, rfl⟩
  | stealth tweak =>
    exact ⟨{ tx with stealth := some tweak }, rfl, ⟨fun kind i => by cases kind <;> rfl, rfl, rfl⟩, rfl⟩
  | inputMs45 position value | covenantExecution position value | inputDerivation position value =>
    have hat := Kspt.getD_modify hv.1
    refine ⟨_, onInput_modify hv.1, Kspt.Takes.of_trailerAt rfl ?_ (fun other ho => ?_)
      (fun other i hi => trailerAt_modifyInput hv.1 _ hi other) rfl rfl,
      unhinted_modifyInput _ _ fun _ => rfl⟩
    · simp [Kspt.EncodeSource.trailerAt, compactSource, Kspt.Trailer.position, hat, wireDerivation, wireMs45]
    · cases other <;> first
        | exact absurd rfl ho
        | simp only [Kspt.EncodeSource.trailerAt, compactSource, Kspt.Trailer.position, hat, if_true]
  | outputMs45 position value | covenant position value | outputDerivation position value =>
    have hat := Kspt.getD_modify hv.1
    refine ⟨_, onOutput_modify hv.1, Kspt.Takes.of_trailerAt rfl ?_ (fun other ho => ?_)
      (fun other i hi => trailerAt_modifyOutput hv.1 _ hi other) rfl rfl,
      unhinted_modifyOutput _ _ fun _ => rfl⟩
    · simp [Kspt.EncodeSource.trailerAt, compactSource, Kspt.Trailer.position, hat, wireDerivation, wireMs45]
    · cases other <;> first
        | exact absurd rfl ho
        | simp only [Kspt.EncodeSource.trailerAt, compactSource, Kspt.Trailer.position, hat, if_true]

/-- The transaction of a sink, or an empty one before the global record. -/
def hostTransaction (sink : HostSink) : Compact.Transaction :=
  sink.getD ⟨0, 0, 0, zeros 20, 0, [], 0, [], [], none⟩

/-- Trailers in range are all taken. -/
theorem replayTrailers_host {ts : List Kspt.Trailer} {tx : Compact.Transaction}
    (hv : ∀ t ∈ ts, t.Valid tx.inputs.length tx.outputs.length) :
    ∃ tx', Kspt.replayTrailers hostSink ts (some tx) = .ok (some tx') ∧ unhinted tx' = unhinted tx := by
  induction ts generalizing tx with
  | nil => exact ⟨tx, rfl, rfl⟩
  | cons t ts ih =>
    obtain ⟨ht, hts⟩ := List.forall_mem_cons.mp hv
    obtain ⟨tx₁, hhand, -, hsame⟩ := hand_host ht
    obtain ⟨hin, hout⟩ := unhinted_lengths hsame
    rw [← hin, ← hout] at hts
    obtain ⟨tx', hreplay, hsame'⟩ := ih hts
    exact ⟨tx', (bind_of_ok hhand).trans hreplay, hsame'.trans hsame⟩

/-- In their canonical order, exactly the trailers read are carried: none overwrites another. -/
theorem replayTrailers_carries {ts : List Kspt.Trailer} {tx tx' : Compact.Transaction}
    (hbare : Kspt.CarriesExactly (compactSource tx) []) (hts : ts.Pairwise (·.key < ·.key))
    (hv : ∀ t ∈ ts, t.Valid tx.inputs.length tx.outputs.length)
    (h : Kspt.replayTrailers hostSink ts (some tx) = .ok (some tx')) :
    Kspt.CarriesExactly (compactSource tx') ts := by
  have hstep : ∀ {sink sink' : HostSink} {t : Kspt.Trailer},
      (∃ tx, sink = some tx ∧ t.Valid tx.inputs.length tx.outputs.length) →
      t.hand hostSink sink = .ok sink' →
      Kspt.Takes (compactSource (hostTransaction sink)) (compactSource (hostTransaction sink')) t ∧
        ∀ u : Kspt.Trailer, (∃ tx, sink = some tx ∧ u.Valid tx.inputs.length tx.outputs.length) →
          ∃ tx, sink' = some tx ∧ u.Valid tx.inputs.length tx.outputs.length := by
    intro sink sink' t hfits hhand
    obtain ⟨tx, rfl, ht⟩ := hfits
    obtain ⟨tx', hhand', htakes, hsame⟩ := hand_host ht
    obtain rfl := Except.ok.inj (hhand'.symm.trans hhand)
    obtain ⟨hin, hout⟩ := unhinted_lengths hsame
    refine ⟨htakes, fun u hu => ?_⟩
    obtain ⟨_, heq, hu⟩ := hu
    obtain rfl := Option.some.inj heq
    exact ⟨tx', rfl, by rwa [hin, hout]⟩
  have hbare : Kspt.CarriesExactly (compactSource (hostTransaction (some tx))) [] := hbare
  exact (Kspt.CarriesExactly.run hstep hts hbare (fun t ht => ⟨tx, rfl, hv t ht⟩) h).1

/-- The transaction that the records of an envelope make, before its trailers. -/
def recorded (e : Kspt.Envelope) : Compact.Transaction where
  flags := e.global.flags
  version := e.global.version
  locktime := e.global.locktime
  subnetwork := e.global.subnetworkId
  gas := e.global.gas
  payload := e.global.payload
  network := 0
  inputs := e.inputs.map signedInput
  outputs := e.outputs.map decodedOutput
  stealth := none

/-- The records alone carry no hint. -/
theorem recorded_bare (e : Kspt.Envelope) : Kspt.CarriesExactly (compactSource (recorded e)) [] := by
  refine ⟨fun kind i t => ?_, by simp, by simp [compactSource, recorded]⟩
  have hin : ((recorded e).inputs[i]?.getD .empty).derivation = none ∧
      ((recorded e).inputs[i]?.getD .empty).ms45 = none ∧
      ((recorded e).inputs[i]?.getD .empty).covenantExecution = none := by
    rw [recorded, List.getElem?_map]
    cases e.inputs[i]? <;> exact ⟨rfl, rfl, rfl⟩
  have hout : ((recorded e).outputs[i]?.getD .empty).derivation = none ∧
      ((recorded e).outputs[i]?.getD .empty).ms45 = none ∧
      ((recorded e).outputs[i]?.getD .empty).covenant = none := by
    rw [recorded, List.getElem?_map]
    cases e.outputs[i]? <;> exact ⟨rfl, rfl, rfl⟩
  cases kind <;> simp [Kspt.EncodeSource.trailerAt, compactSource, hin, hout]

/-- The records of an input do not show its hints. -/
theorem wireInput_unhinted (tx : Compact.Transaction) (i : Nat) :
    (compactSource (unhinted tx)).wireInput i = (compactSource tx).wireInput i := by
  have hget : (unhinted tx).inputs[i]? = tx.inputs[i]?.map unhintedInput := List.getElem?_map ..
  simp only [Kspt.EncodeSource.wireInput, compactSource, hget]
  cases tx.inputs[i]? <;> rfl

theorem output_unhinted (tx : Compact.Transaction) (i : Nat) :
    (compactSource (unhinted tx)).output i = (compactSource tx).output i := by
  have hget : (unhinted tx).outputs[i]? = tx.outputs[i]?.map unhintedOutput := List.getElem?_map ..
  simp only [compactSource, hget]
  cases tx.outputs[i]? <;> rfl

/-- The records of an envelope are read off the transaction they made. -/
theorem recorded_wireInput {e : Kspt.Envelope} {i : Nat} {record : Kspt.WireInput}
    (h : e.inputs[i]? = some record) : (compactSource (recorded e)).wireInput i = record := by
  have hget : (recorded e).inputs[i]? = some (signedInput record) := by
    rw [recorded, List.getElem?_map, h]
    rfl
  have hsignatures : (List.range record.signatures.length).map (fun slot =>
      compactSignature ((record.signatures.map decodedSignature)[slot]?.getD .empty)) =
        record.signatures := by
    apply List.ext_getElem
    · simp
    · intro slot _ hslot
      rw [List.getElem_map, List.getElem_range, List.getElem?_map, List.getElem?_eq_getElem hslot]
      rfl
  simp only [Kspt.EncodeSource.wireInput, compactSource, hget, Option.getD_some, signedInput,
    List.length_map, hsignatures]
  rfl

theorem recorded_output {e : Kspt.Envelope} {i : Nat} {value : Kspt.Output}
    (h : e.outputs[i]? = some value) : (compactSource (recorded e)).output i = value := by
  have hget : (recorded e).outputs[i]? = some (decodedOutput value) := by
    rw [recorded, List.getElem?_map, h]
    rfl
  simp only [compactSource, hget]
  rfl

/-- A hint at a place belongs to a declared input or output. -/
theorem compact_trailerAt_lt {tx : Compact.Transaction} (hin : tx.inputs.length < 2 ^ 32)
    (hout : tx.outputs.length < 2 ^ 8) (kind : Kspt.IndexedTrailer) (i : Nat) (t : Kspt.Trailer)
    (h : (compactSource tx).trailerAt kind i = some t) : i < (compactSource tx).countOf kind := by
  have hinputs : (UInt32.ofNat tx.inputs.length).toNat = tx.inputs.length := UInt32.toNat_ofNat_of_lt' hin
  have houtputs : (UInt8.ofNat tx.outputs.length).toNat = tx.outputs.length :=
    UInt8.toNat_ofNat_of_lt' hout
  have hempty : (tx.inputs.length ≤ i → tx.inputs[i]? = none) ∧ (tx.outputs.length ≤ i → tx.outputs[i]? = none) :=
    ⟨List.getElem?_eq_none, List.getElem?_eq_none⟩
  by_contra hge
  rw [Nat.not_lt] at hge
  cases kind <;> simp only [Kspt.EncodeSource.countOf, compactSource, hinputs, houtputs] at hge <;>
    simp [Kspt.EncodeSource.trailerAt, compactSource, hempty, hge, Compact.Input.empty,
      Compact.Output.empty] at h

/-- The records are taken in their order, whatever stood in the sink. -/
theorem replay_recorded (e : Kspt.Envelope) (sink : HostSink) :
    e.replay hostSink sink = Kspt.replayTrailers hostSink e.trailers (some (recorded e)) := by
  have hinputs := replayInputs_host e.inputs { recorded e with inputs := [], outputs := [] }
  have houtputs := replayOutputs_host e.outputs { recorded e with outputs := [] }
  have hglobal : hostSink.global e.global sink =
      .ok (some { recorded e with inputs := [], outputs := [] }) := rfl
  rw [Kspt.Envelope.replay, bind_of_ok hglobal]
  exact (bind_of_ok hinputs).trans (bind_of_ok houtputs)

/-- A transaction with the records and the trailers of a valid envelope is the source of that envelope. -/
theorem source_envelope {limits : Kspt.Limits} {e : Kspt.Envelope} {tx : Compact.Transaction}
    (hv : e.Valid limits) (hsame : unhinted tx = unhinted (recorded e))
    (hcarries : Kspt.CarriesExactly (compactSource tx) e.trailers) : (compactSource tx).envelope = e := by
  obtain ⟨hin, hout⟩ := unhinted_lengths hsame
  have hinputCount : tx.inputs.length = e.global.inputCount.toNat :=
    (hin.trans (List.length_map _)).trans hv.inputCount
  have houtputCount : tx.outputs.length = e.global.outputCount.toNat :=
    (hout.trans (List.length_map _)).trans hv.outputCount
  have hfield : ∀ {α : Type} (f : Compact.Transaction → α), (∀ tx, f (unhinted tx) = f tx) →
      f tx = f (recorded e) := fun f hf => ((hf tx).symm.trans (congrArg f hsame)).trans (hf _)
  have hglobal : (compactSource tx).global = e.global := by
    have hglobal : (compactSource tx).global = (compactSource (recorded e)).global :=
      hfield (fun tx => (compactSource tx).global) fun tx => by simp [compactSource, unhinted]
    rw [hglobal]
    simp only [compactSource, recorded, List.length_map, hv.inputCount, hv.outputCount,
      UInt32.ofNat_toNat, UInt8.ofNat_toNat]
  have hinputs : (List.range e.global.inputCount.toNat).map (compactSource tx).wireInput = e.inputs := by
    rw [← hv.inputCount]
    apply List.ext_getElem
    · simp
    · intro i _ hi
      rw [List.getElem_map, List.getElem_range]
      exact (hfield (fun tx => (compactSource tx).wireInput i) fun tx => wireInput_unhinted tx i).trans
        (recorded_wireInput (List.getElem?_eq_getElem hi))
  have houtputs : (List.range e.global.outputCount.toNat).map (compactSource tx).output = e.outputs := by
    rw [← hv.outputCount]
    apply List.ext_getElem
    · simp
    · intro i _ hi
      rw [List.getElem_map, List.getElem_range]
      exact (hfield (fun tx => (compactSource tx).output i) fun tx => output_unhinted tx i).trans
        (recorded_output (List.getElem?_eq_getElem hi))
  have htrailers : (compactSource tx).trailers = e.trailers := by
    refine hcarries.trailers_eq hv.canonical hv.network hv.trailers ?_
    apply compact_trailerAt_lt
    · rw [hinputCount]
      exact e.global.inputCount.toNat_lt
    · rw [houtputCount]
      exact e.global.outputCount.toNat_lt
  obtain ⟨global, inputs, outputs, trailers⟩ := e
  simp only [Kspt.EncodeSource.envelope, hglobal, hinputs, houtputs, htrailers]

/-- A valid envelope is taken as a whole, and the transaction it makes is the source of that envelope. -/
theorem replay_host {limits : Kspt.Limits} {e : Kspt.Envelope} (hv : e.Valid limits) (sink : HostSink) :
    ∃ tx, e.replay hostSink sink = .ok (some tx) ∧ (compactSource tx).envelope = e ∧
      Kspt.WritableTrailers (compactSource tx) := by
  have hvalid : ∀ t ∈ e.trailers, t.Valid (recorded e).inputs.length (recorded e).outputs.length := by
    have hin : (recorded e).inputs.length = e.inputs.length := List.length_map _
    have hout : (recorded e).outputs.length = e.outputs.length := List.length_map _
    rw [hin, hout]
    exact hv.trailers
  obtain ⟨tx, hreplay, hsame⟩ := replayTrailers_host hvalid
  have hcarries := replayTrailers_carries (recorded_bare e) hv.canonical.1 hvalid hreplay
  exact ⟨tx, (replay_recorded e sink).trans hreplay, source_envelope hv hsame hcarries,
    hcarries.writable hv.canonical hv.network hvalid⟩

end sink

/-! ## Signature hashes -/

namespace Compact

/-- What the signature hash sees of an input. -/
def sighashInput (input : Compact.Input) : SighashInput where
  transactionId := input.txId
  index := input.index
  sequence := input.sequence
  sigOpCount := input.sigOpCount
  scriptVersion := input.scriptVersion
  script := input.script
  amount := input.amount

def sighashOutput (output : Compact.Output) : SighashOutput where
  value := output.amount
  scriptVersion := output.scriptVersion
  script := output.script
  covenant := output.covenant

/-- What the signature hash sees of the transaction: not the network, and none of the hints. -/
def Transaction.sighashSource (tx : Compact.Transaction) : SighashSource where
  version := tx.version
  inputs := tx.inputs.map sighashInput
  outputs := tx.outputs.map sighashOutput
  locktime := tx.locktime
  subnetworkId := tx.subnetwork
  gas := tx.gas
  payload := tx.payload

end Compact

/-! ## Verification -/

/-- `(threshold, keys)` of a multisig redeem script within signer capacity. -/
def parseMultisigRedeem (script : Bytes) : Option (UInt8 × UInt8) :=
  (signerMultisig script).map fun parsed => (parsed.threshold, parsed.keyCount)

/-- The key at a position of a multisig script. -/
def multisigXonly (redeem : Bytes) (position : UInt8) : Option (FixedBytes 32) :=
  (parseMultisig redeem).bind fun parsed => parsed.key position

def hexByte (value : UInt8) : String := text (encodeLowerHex [value])

/-- Only signatures over the whole transaction are accepted. -/
def requireSighashAll (signature : Signature) (index : Nat) : Except String Unit :=
  rejectIf (signature.sighash ≠ 0x01)
    (inputError index ("signed KSPT changed sighash type to 0x" ++ hexByte signature.sighash))

def signaturePosition (index : Nat) (position : UInt8) (rest : String) : String :=
  inputError index ("signature position " ++ toString position.toNat ++ rest)

/-- A pay-to-key output is signed at position zero. -/
def p2pkBoundKey (input : Compact.Input) (index : Nat) (position : UInt8) :
    Except String (FixedBytes 32) :=
  okOr (inputError index "signature is not bound to a canonical P2PK key")
    ((p2pkXonly input.script).filter fun _ => position == 0)

/-- The variant's name, as `{:?}` prints it. -/
def branchErrorName : BranchResolveError → String
  | .malformedScript => "MalformedScript"
  | .branchDepthExceeded => "BranchDepthExceeded"
  | .tooManyKeys => "TooManyKeys"
  | .ambiguousKey => "AmbiguousKey"
  | .keyNotFound => "KeyNotFound"
  | .positionOutOfRange => "PositionOutOfRange"

def resolveBranches (redeem : Bytes) (index : Nat) : Except String BranchResolution :=
  (resolveCovenantBranches redeem).mapError fun error =>
    inputError index ("invalid covenant branch structure: " ++ branchErrorName error)

/-- The binding of a position, on the path the selectors choose when there are any. -/
def matchesExecution (binding : BranchKey) : Option (UInt16 × UInt16) → Bool
  | none => true
  | some (mask, truth) => binding.matchesSelectors mask.toBitVec truth.toBitVec

/-- A covenant signature is bound to the key of its branch, and the branch must be one that the stated
execution takes. -/
def covenantBoundKey (input : Compact.Input) (index : Nat) (position : UInt8) :
    Except String (FixedBytes 32) := do
  let branches ← resolveBranches input.redeem index
  let binding ← (branches.keyAt position).mapError fun _ => inputError index
    ("covenant signature position " ++ toString position.toNat ++ " has no branch-bound key")
  rejectIf (matchesExecution binding input.covenantExecution = false) (inputError index
    ("covenant signature position " ++ toString position.toNat ++
      " is outside the proven execution branch"))
  return binding.key

/-- The key a signature must be checked with: the script's own, or the one at the slot of its
redeem script. -/
def boundPublicKey (input : Compact.Input) (index : Nat) (signature : Signature) :
    Except String (FixedBytes 32) :=
  if input.redeem = [] then p2pkBoundKey input index signature.position
  else if (parseMultisigRedeem input.redeem).isSome then
    okOr (signaturePosition index signature.position " has no bound public key")
      (multisigXonly input.redeem signature.position)
  else covenantBoundKey input index signature.position

/-- Whether the spent script is a bare key. -/
def canonicalP2pk (input : Compact.Input) : Bool := (p2pkXonly input.script).isSome

/-- How many signatures complete an input; none when nothing completes it. -/
def requiredSignatureCount (index : Nat) (input : Compact.Input) : Except String (Option Nat) :=
  if input.redeem = [] then .ok (if canonicalP2pk input then some 1 else none)
  else
    match parseMultisigRedeem input.redeem with
    | some (threshold, _) => .ok (some threshold.toNat)
    | none =>
      if input.specializedWitness.isSome then
        .ok (if input.signatures.length = 1 then some 1 else none)
      else genericCovenantRequired index input.path

section verification
variable (crypto : SignatureCrypto)

/-- `sighash_all`, at an index its callers have checked. -/
def sighashAll (tx : Compact.Transaction) (index : Nat) : FixedBytes 32 :=
  calculateSighash crypto.signingHash tx.sighashSource index .all

/-- `verify_bip340`: the key, the encoding and the equation are one check of the
primitive. -/
def verifyBip340 (publicKey message : FixedBytes 32) (signature : FixedBytes 64) :
    Except String Unit :=
  rejectIf (crypto.schnorrVerify publicKey message signature = false)
    "Schnorr signature verification failed"

/-- A signature is checked against the key its position stands for, and no position is used twice. -/
def verifyOneInputSignature (input : Compact.Input) (index : Nat) (signature : Signature)
    (message : FixedBytes 32) (seen : List UInt8) : Except String Unit := do
  requireSighashAll signature index
  rejectIf (signature.position ∈ seen) (inputError index
    ("contains duplicate signature position " ++ toString signature.position.toNat))
  let publicKey ← boundPublicKey input index signature
  (verifyBip340 crypto publicKey message signature.bytes).mapError fun error =>
    signaturePosition index signature.position (": " ++ error)

/-- The loop over the signatures, with the positions already seen. -/
def verifySignatures (input : Compact.Input) (index : Nat) (message : FixedBytes 32) :
    List UInt8 → List Signature → Except String Unit
  | _, [] => .ok ()
  | seen, signature :: rest => do
    verifyOneInputSignature crypto input index signature message seen
    verifySignatures input index message (signature.position :: seen) rest

/-- An input without signatures has nothing to verify. -/
def verifyInputSignatures (tx : Compact.Transaction) (index : Nat) (input : Compact.Input) :
    Except String Unit :=
  verifySignatures crypto input index (sighashAll crypto tx index) [] input.signatures

/-- One input of `verified_complete`; the loop goes on while it holds. -/
def inputComplete (tx : Compact.Transaction) (index : Nat) (input : Compact.Input) :
    Except String Bool := do
  match ← requiredSignatureCount index input with
  | none => return false
  | some required =>
    if input.signatures.length ≠ required then return false
    else do
      verifyInputSignatures crypto tx index input
      return true

/-- All inputs in order; the first error ends the check. -/
def inputsComplete (tx : Compact.Transaction) : Nat → List Compact.Input → Except String Bool
  | _, [] => .ok true
  | index, input :: rest => do
    if ← inputComplete crypto tx index input then inputsComplete tx (index + 1) rest
    else return false

/-- A transaction without inputs is not complete. -/
def verifiedComplete (tx : Compact.Transaction) : Except String Bool :=
  if tx.inputs = [] then .ok false else inputsComplete crypto tx 0 tx.inputs

end verification

end KaspaPortal.Transaction.Pskt
