import KaspaPortal.Lib.CondMachine
import KaspaPortal.Contract.Script.Push
import KaspaPortal.Transaction.Consensus

/-!
# The script machine the builders write for

The consensus engine is not part of the repository; this is its behaviour as
the builders document it, for the opcodes their scripts use. Stack items are
byte strings, top first. Arithmetic is on signed 64-bit script numbers and
fails when a result does not fit. `CHECKLOCKTIMEVERIFY` and
`CHECKSEQUENCEVERIFY` pop their operand. A script succeeds when it leaves one
item and that item is true.

Where the real engine refuses more (a selector that is not the shortest
boolean, a padded number, a finalized input at a lock time, a size limit) the
machine here accepts: what it proves of every accepted spend holds of fewer.
That some spend is accepted is a result about the checks the builders document:
the lock opcodes look at no finalized input and at no sequence whose lock is
disabled, and no item is too large. Hashes, signature checks and the proof precompile are parameters.
-/
namespace KaspaPortal.Engine
open Lib Primitives Transaction Contract.Script

abbrev Stack := List Bytes

/-- The operands of the succinct-receipt precompile, in the order they are pushed. -/
structure Risc0Claim where
  claim : Bytes
  controlIndex : Bytes
  controlDigests : Bytes
  sealData : Bytes
  journalHash : Bytes
  imageId : Bytes
  controlId : Bytes
  hashfn : Bytes
  deriving DecidableEq

structure Crypto where
  blake2b : Bytes → FixedBytes 32
  sha256 : Bytes → FixedBytes 32
  /-- Whether a signature for the given input verifies under a key. -/
  checkSig : PopulatedTransaction → Nat → (signature key : Bytes) → Bool
  groth16 : (verifyingKey proof : Bytes) → (publicInputs : List Bytes) → Bool
  risc0 : Risc0Claim → Bool

/-- What one script execution can see: the transaction and the input it spends. -/
structure Env where
  crypto : Crypto
  tx : PopulatedTransaction
  index : Nat

inductive Instr where
  | push (data : Bytes)
  | verify | drop | dup | pick | swap | cat | substr | equal | equalVerify
  | add | sub | numEqualVerify | lessThanOrEqual | greaterThanOrEqual | within
  | zkPrecompile | sha256 | blake2b | checkSig | checkSigVerify
  | checkLockTimeVerify | checkSequenceVerify
  | txInputCount | txOutputCount | txInputIndex | txInputScriptSigSubstr | txInputScriptSigLen
  | txInputAmount | txInputSpk | txOutputAmount | txOutputSpk
  | inputCovenantId | covInputCount | covOutputCount | covOutputIdx
  | other (opcode : UInt8)
  deriving DecidableEq, Repr

def ofOpcode (op : UInt8) : Token Instr :=
  if op = OP_IF then .opIf
  else if op = OP_ELSE then .opElse
  else if op = OP_ENDIF then .opEndIf
  else .instr <|
    if op = OP_VERIFY then .verify
    else if op = OP_DROP then .drop
    else if op = OP_DUP then .dup
    else if op = OP_PICK then .pick
    else if op = OP_SWAP then .swap
    else if op = OP_CAT then .cat
    else if op = OP_SUBSTR then .substr
    else if op = OP_EQUAL then .equal
    else if op = OP_EQUALVERIFY then .equalVerify
    else if op = OP_ADD then .add
    else if op = OP_SUB then .sub
    else if op = OP_NUMEQUALVERIFY then .numEqualVerify
    else if op = OP_LESSTHANOREQUAL then .lessThanOrEqual
    else if op = OP_GREATERTHANOREQUAL then .greaterThanOrEqual
    else if op = OP_WITHIN then .within
    else if op = OP_ZK_PRECOMPILE then .zkPrecompile
    else if op = OP_SHA256 then .sha256
    else if op = OP_BLAKE2B then .blake2b
    else if op = OP_CHECKSIG then .checkSig
    else if op = OP_CHECKSIGVERIFY then .checkSigVerify
    else if op = OP_CHECKLOCKTIMEVERIFY then .checkLockTimeVerify
    else if op = OP_CHECKSEQUENCEVERIFY then .checkSequenceVerify
    else if op = OP_TX_INPUT_COUNT then .txInputCount
    else if op = OP_TX_OUTPUT_COUNT then .txOutputCount
    else if op = OP_TX_INPUT_INDEX then .txInputIndex
    else if op = OP_TX_INPUT_SCRIPT_SIG_SUBSTR then .txInputScriptSigSubstr
    else if op = OP_TX_INPUT_SCRIPT_SIG_LEN then .txInputScriptSigLen
    else if op = OP_TX_INPUT_AMOUNT then .txInputAmount
    else if op = OP_TX_INPUT_SPK then .txInputSpk
    else if op = OP_TX_OUTPUT_AMOUNT then .txOutputAmount
    else if op = OP_TX_OUTPUT_SPK then .txOutputSpk
    else if op = OP_INPUT_COVENANT_ID then .inputCovenantId
    else if op = OP_COV_INPUT_COUNT then .covInputCount
    else if op = OP_COV_OUTPUT_COUNT then .covOutputCount
    else if op = OP_COV_OUTPUT_IDX then .covOutputIdx
    else .other op

def ofElement (e : Element) : Token Instr :=
  match pushed e with
  | some data => .instr (.push data)
  | none => ofOpcode e.opcode

/-- Every element of a script in order; `fuel` bounds the walk and a script's
own length always suffices, since an element spans at least one byte. -/
def tokenizeFuel : Nat → Bytes → Option (List (Token Instr))
  | _, [] => some []
  | 0, _ :: _ => none
  | fuel + 1, b :: rest =>
    (readElement (b :: rest) 0).bind fun (e, next) =>
      (tokenizeFuel fuel ((b :: rest).drop next)).map (ofElement e :: ·)

def tokenize (script : Bytes) : Option (List (Token Instr)) := tokenizeFuel script.length script

def boolBytes (b : Bool) : Bytes := if b then [1] else []

/-- A non-negative operand naming an input, an output or a position. -/
def decodeIndex (b : Bytes) : Option Nat :=
  (decodeNum b).bind fun z => if 0 ≤ z then some z.toNat else none

/-- A number pushed by arithmetic or introspection must fit 64 bits with sign. -/
def pushNum (z : Int) (s : Stack) : Option Stack :=
  if z.natAbs < 2 ^ 63 then some (encodeNum z :: s) else none

/-- The operand of a lock is unsigned and at most eight bytes. -/
def decodeLock (b : Bytes) : Option Nat := if 8 < b.length then none else some (leNat b)

def lockTimeMet (env : Env) (value : Nat) : Prop := value ≤ env.tx.tx.locktime.toNat

def sequenceMet (env : Env) (value : Nat) : Prop :=
  ∃ input, env.tx.tx.inputs[env.index]? = some input ∧ value ≤ input.sequence.toNat

instance (env : Env) (value : Nat) : Decidable (lockTimeMet env value) :=
  inferInstanceAs (Decidable (_ ≤ _))

instance (env : Env) (value : Nat) : Decidable (sequenceMet env value) :=
  match h : env.tx.tx.inputs[env.index]? with
  | none => .isFalse fun ⟨_, hi, _⟩ => by rw [h] at hi; cases hi
  | some input =>
    decidable_of_iff (value ≤ input.sequence.toNat)
      ⟨fun hv => ⟨input, h, hv⟩, fun ⟨_, hi, hv⟩ => by rw [h] at hi; cases hi; exact hv⟩

def zeroHash : Bytes := List.replicate 32 0

/-- An output without a covenant id reads as the zero hash. -/
def covenantIdBytes (e : UtxoEntry) : Bytes :=
  match e.covenantId with
  | some id => id.val
  | none => zeroHash

/-- Outputs tagged with a covenant id, by position. -/
def taggedOutputs (tx : ConsensusTransaction) (id : Bytes) : List Nat :=
  (List.range tx.outputs.length).filter fun k =>
    (tx.outputs[k]?.bind ConsensusOutput.covenant).any fun tag => tag.2.val == id

/-- Inputs whose spent output carries a covenant id. -/
def taggedInputs (t : PopulatedTransaction) (id : Bytes) : List Nat :=
  (List.range t.entries.length).filter fun k =>
    (t.entries[k]?.bind UtxoEntry.covenantId).any fun tag => tag.val == id

/-- The proof precompile: the tag picks the verifier and its operands. -/
def zkPrecompile (c : Crypto) : Stack → Option Stack
  | tag :: s =>
    if tag = [0x20] then
      match s with
      | verifyingKey :: proof :: count :: rest =>
        (decodeIndex count).bind fun n =>
          if n ≤ rest.length then
            some (boolBytes (c.groth16 verifyingKey proof (rest.take n)) :: rest.drop n)
          else none
      | _ => none
    else if tag = [0x21] then
      match s with
      | hashfn :: controlId :: imageId :: journalHash :: sealData :: controlDigests :: controlIndex ::
          claim :: rest =>
        some (boolBytes (c.risc0 ⟨claim, controlIndex, controlDigests, sealData, journalHash, imageId,
          controlId, hashfn⟩) :: rest)
      | _ => none
    else none
  | [] => none

def pop1 (f : Bytes → Stack → Option Stack) : Stack → Option Stack
  | x :: s => f x s
  | [] => none

/-- The second operand is on top. -/
def pop2 (f : Bytes → Bytes → Stack → Option Stack) : Stack → Option Stack
  | y :: x :: s => f x y s
  | _ => none

def pop3 (f : Bytes → Bytes → Bytes → Stack → Option Stack) : Stack → Option Stack
  | z :: y :: x :: s => f x y z s
  | _ => none

def binary (f : Int → Int → Stack → Option Stack) : Stack → Option Stack :=
  pop2 fun a b s => (decodeNum a).bind fun za => (decodeNum b).bind fun zb => f za zb s

/-- An opcode that looks something up at the position on top of the stack. -/
def indexed {α : Type} (lookup : Nat → Option α) (f : α → Stack → Option Stack) :
    Stack → Option Stack :=
  pop1 fun k s => (decodeIndex k).bind fun n => (lookup n).bind fun a => f a s

def guarded (cond : Prop) [Decidable cond] (s : Stack) : Option Stack :=
  if cond then some s else none

def stepInstr (env : Env) : Instr → Stack → Option Stack
  | .push data => fun s => some (data :: s)
  | .verify => pop1 fun x s => guarded (asBool x = true) s
  | .drop => pop1 fun _ s => some s
  | .dup => pop1 fun x s => some (x :: x :: s)
  | .pick => pop1 fun k s => (decodeIndex k).bind fun n => (s[n]?).map (· :: s)
  | .swap => pop2 fun x y s => some (x :: y :: s)
  | .cat => pop2 fun x y s => some ((x ++ y) :: s)
  | .substr => pop3 fun x b e s =>
    (decodeIndex b).bind fun start => (decodeIndex e).bind fun stop =>
      (slice x start stop).map (· :: s)
  | .equal => pop2 fun x y s => some (boolBytes (x = y) :: s)
  | .equalVerify => pop2 fun x y s => guarded (x = y) s
  | .add => binary fun a b => pushNum (a + b)
  | .sub => binary fun a b => pushNum (a - b)
  | .numEqualVerify => binary fun a b s => guarded (a = b) s
  | .lessThanOrEqual => binary fun a b s => some (boolBytes (a ≤ b) :: s)
  | .greaterThanOrEqual => binary fun a b s => some (boolBytes (b ≤ a) :: s)
  | .within => pop3 fun x lo hi s =>
    (decodeNum x).bind fun zx => (decodeNum lo).bind fun zlo => (decodeNum hi).bind fun zhi =>
      some (boolBytes (zlo ≤ zx ∧ zx < zhi) :: s)
  | .zkPrecompile => zkPrecompile env.crypto
  | .sha256 => pop1 fun x s => some ((env.crypto.sha256 x).val :: s)
  | .blake2b => pop1 fun x s => some ((env.crypto.blake2b x).val :: s)
  | .checkSig => pop2 fun sig key s =>
    some (boolBytes (env.crypto.checkSig env.tx env.index sig key) :: s)
  | .checkSigVerify => pop2 fun sig key s =>
    guarded (env.crypto.checkSig env.tx env.index sig key = true) s
  | .checkLockTimeVerify => pop1 fun x s => (decodeLock x).bind fun v => guarded (lockTimeMet env v) s
  | .checkSequenceVerify => pop1 fun x s => (decodeLock x).bind fun v => guarded (sequenceMet env v) s
  | .txInputCount => pushNum env.tx.tx.inputs.length
  | .txOutputCount => pushNum env.tx.tx.outputs.length
  | .txInputIndex => pushNum env.index
  | .txInputScriptSigSubstr => pop3 fun k b e s =>
    (decodeIndex k).bind fun n => (env.tx.tx.inputs[n]?).bind fun input =>
      (decodeIndex b).bind fun start => (decodeIndex e).bind fun stop =>
        (slice input.sigScript start stop).map (· :: s)
  | .txInputScriptSigLen =>
    indexed (env.tx.tx.inputs[·]?) fun input => pushNum input.sigScript.length
  | .txInputAmount => indexed (env.tx.entries[·]?) fun entry => pushNum entry.amount.toNat
  | .txInputSpk => indexed (env.tx.entries[·]?) fun entry s => some (entry.spk :: s)
  | .txOutputAmount => indexed (env.tx.tx.outputs[·]?) fun out => pushNum out.value.toNat
  | .txOutputSpk => indexed (env.tx.tx.outputs[·]?) fun out s => some (out.spk :: s)
  | .inputCovenantId => indexed (env.tx.entries[·]?) fun entry s =>
    some (covenantIdBytes entry :: s)
  | .covInputCount => pop1 fun id s => pushNum (taggedInputs env.tx id).length s
  | .covOutputCount => pop1 fun id s => pushNum (taggedOutputs env.tx.tx id).length s
  | .covOutputIdx => pop2 fun id k s =>
    (decodeIndex k).bind fun n => ((taggedOutputs env.tx.tx id)[n]?).bind fun out => pushNum out s
  | .other _ => fun _ => none

def testTop : Stack → Option (Bool × Stack)
  | x :: s => some (asBool x, s)
  | [] => none

def machine (env : Env) : Machine Instr Stack := ⟨stepInstr env, testTop⟩

def execScript (env : Env) (script : Bytes) (s : Stack) : Option Stack :=
  (tokenize script).bind fun program => (machine env).exec program s

/-- A witness, top item first, on which a script succeeds. -/
def succeeds (env : Env) (script : Bytes) (witness : Stack) : Bool :=
  match execScript env script witness with
  | some [v] => asBool v
  | _ => false

def pushOnly : Token Instr → Option Bytes
  | .instr (.push data) => some data
  | _ => none

/-- The items a signature script pushes, last push first; it may hold nothing else. -/
def sigStack (sigScript : Bytes) : Option Stack :=
  (tokenize sigScript).bind fun program => (program.mapM pushOnly).map List.reverse

/-- `redeem` locks the output that input `index` spends. -/
def LockedBy (c : Crypto) (t : PopulatedTransaction) (index : Nat) (redeem : Bytes) : Prop :=
  ∃ e, t.entries[index]? = some e ∧ e.spk = spkBytes 0 (p2shScript (c.blake2b redeem))

/-- The transaction has one input and that input spends an output locked by `redeem`. -/
structure SoleInput (env : Env) (redeem : Bytes) : Prop where
  inputs : env.tx.tx.inputs.length = 1
  index : env.index = 0
  locked : LockedBy env.crypto env.tx 0 redeem

/-- The holder of a key can sign any input of any transaction. -/
def CanSign (c : Crypto) (key : FixedBytes 32) : Prop :=
  ∀ t index, ∃ signature, c.checkSig t index signature key.val = true

/-- The input at `env.index` spends a pay-to-script-hash output by revealing
`redeem` on top of `witness`, and the script accepts. -/
structure SpendsP2sh (env : Env) (redeem : Bytes) (witness : Stack) : Prop where
  locked : LockedBy env.crypto env.tx env.index redeem
  sigScript : ∃ input, env.tx.tx.inputs[env.index]? = some input ∧
    sigStack input.sigScript = some (redeem :: witness)
  accepted : succeeds env redeem witness = true

end KaspaPortal.Engine
