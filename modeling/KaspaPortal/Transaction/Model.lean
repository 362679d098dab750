import KaspaPortal.Primitives.Locking
import KaspaPortal.Lib.Result

/-!
# The signer's transaction

`src/transaction/model/`: the transaction a signer parses, reviews and signs. The
declared inputs and outputs are lists; the spare slots behind them, which
`clear` wipes and nothing reads, are not kept, so `num_inputs` and `num_outputs`
are the lengths. A script is the bytes up to its length. The signature slots
stay five, with their own count and presence flags, because the checks compare
these. Redeem scripts keep the source's two storage places.

`block_daa_score`, the incoming partial signatures of the JSON format and
`pubkey_compressed` of slots that were read from the compact format are not read by
the functions modelled here, except that finalization reads the compressed key.
-/
namespace KaspaPortal.Transaction.Model
open Lib Primitives

/-- The format's own limits. A signer sets lower ones for itself, as `TransactionLimits`. -/
def MAX_INPUTS : Nat := 65535
def MAX_OUTPUTS : Nat := 8
/-- Redeem scripts have a limit of their own, since the longer ones are kept in a pool. -/
def MAX_SCRIPT_SIZE : Nat := 512
def MAX_REDEEM_SIZE : Nat := 1024
def MAX_PAYLOAD_SIZE : Nat := 250000
def MAX_SIGS_PER_INPUT : Nat := 5
def MAX_MULTISIG_KEYS : Nat := 5
def REDEEM_POOL_SIZE : Nat := 2048

def SUBNETWORK_ID_NATIVE : FixedBytes 20 := ⟨List.replicate 20 0, rfl⟩

/-- `[0u8; n]`. -/
def zeros (n : Nat) : FixedBytes n := ⟨List.replicate n 0, List.length_replicate⟩

/-- The types of the source. `anyOneCanPay` is the bare flag for a single input. -/
inductive SigHashType where
  | all | none | single | anyOneCanPay | allAnyOneCanPay | noneAnyOneCanPay | singleAnyOneCanPay
  deriving DecidableEq, Repr

namespace SigHashType

def toByte : SigHashType → UInt8
  | .all => 0b00000001
  | .none => 0b00000010
  | .single => 0b00000100
  | .anyOneCanPay => 0b10000000
  | .allAnyOneCanPay => 0b10000001
  | .noneAnyOneCanPay => 0b10000010
  | .singleAnyOneCanPay => 0b10000100

/-- A byte that is none of these types is refused. -/
def fromByte (b : UInt8) : Option SigHashType :=
  if b = 0b00000001 then some .all
  else if b = 0b00000010 then some .none
  else if b = 0b00000100 then some .single
  else if b = 0b10000001 then some .allAnyOneCanPay
  else if b = 0b10000010 then some .noneAnyOneCanPay
  else if b = 0b10000100 then some .singleAnyOneCanPay
  else Option.none

/-- The type is read bit by bit where the signature hash is computed. -/
def isAnyOneCanPay (self : SigHashType) : Bool := self.toByte &&& 0b10000000 != 0
def isSighashNone (self : SigHashType) : Bool := self.toByte &&& 0b00000010 != 0
def isSighashSingle (self : SigHashType) : Bool := self.toByte &&& 0b00000100 != 0

end SigHashType

/-- Which address of a multisig wallet an input or an output belongs to. -/
structure Ms45Hint where
  present : Bool
  cosigner : UInt32
  chain : UInt32
  index : UInt32
  deriving DecidableEq

def Ms45Hint.none : Ms45Hint := ⟨false, 0, 0, 0⟩

@[ext] structure Outpoint where
  transactionId : FixedBytes 32
  index : UInt32
  deriving DecidableEq

@[ext] structure ScriptPublicKey where
  version : UInt16
  script : Bytes
  deriving DecidableEq

/-- What a transaction spends, as the signer was told. -/
@[ext] structure UtxoEntry where
  amount : UInt64
  scriptPublicKey : ScriptPublicKey
  deriving DecidableEq

/-- One signature slot of an input. -/
structure InputSig where
  signature : FixedBytes 64
  sighashType : UInt8
  pubkeyPos : UInt8
  present : Bool
  /-- The compressed key that made the signature; the compact format leaves it zero. -/
  pubkeyCompressed : FixedBytes 33
  deriving DecidableEq

/-- An unused slot. -/
def InputSig.empty : InputSig := ⟨zeros 64, 0, 0, false, zeros 33⟩

/-- The five slots of an input. -/
abbrev SigSlots := { l : List InputSig // l.length = MAX_SIGS_PER_INPUT }

def SigSlots.empty : SigSlots := ⟨List.replicate MAX_SIGS_PER_INPUT .empty, rfl⟩

/-- A slot out of range changes nothing. -/
def SigSlots.modify (slots : SigSlots) (slot : Nat) (f : InputSig → InputSig) : SigSlots :=
  ⟨slots.val.modify slot f, by rw [List.length_modify]; exact slots.property⟩

/-- An input with its signature slots, its hints, and where its redeem script is kept. -/
structure TransactionInput where
  previousOutpoint : Outpoint
  sequence : UInt64
  sigOpCount : UInt8
  utxoEntry : UtxoEntry
  sigs : SigSlots
  sigCount : UInt8
  sighashType : UInt8
  /-- Where a redeem script of at most `MAX_SCRIPT_SIZE` bytes is kept. -/
  redeemScript : FixedBytes MAX_SCRIPT_SIZE
  redeemScriptLen : Nat
  redeemInPool : Bool
  redeemScriptOffset : UInt16
  hasDerivationHint : Bool
  derivationBranch : UInt8
  derivationIndex : UInt32
  ms45Hint : Ms45Hint
  covenantExecutionPresent : Bool
  covenantExecutionMask : UInt16
  covenantExecutionTrueMask : UInt16
  deriving DecidableEq

def TransactionInput.empty : TransactionInput where
  previousOutpoint := ⟨zeros 32, 0⟩
  sequence := 0
  sigOpCount := 1
  utxoEntry := ⟨0, ⟨0, []⟩⟩
  sigs := .empty
  sigCount := 0
  sighashType := 0
  redeemScript := zeros _
  redeemScriptLen := 0
  redeemInPool := false
  redeemScriptOffset := 0
  hasDerivationHint := false
  derivationBranch := 0
  derivationIndex := 0
  ms45Hint := .none
  covenantExecutionPresent := false
  covenantExecutionMask := 0
  covenantExecutionTrueMask := 0

/-- An output with its covenant binding and its hints. -/
structure TransactionOutput where
  value : UInt64
  scriptPublicKey : ScriptPublicKey
  hasCovenant : Bool
  covenantAuthInput : UInt16
  covenantId : FixedBytes 32
  derivationBranch : UInt8
  derivationIndex : UInt32
  hasDerivationHint : Bool
  ms45Hint : Ms45Hint
  deriving DecidableEq

def TransactionOutput.empty : TransactionOutput where
  value := 0
  scriptPublicKey := ⟨0, []⟩
  hasCovenant := false
  covenantAuthInput := 0
  covenantId := zeros 32
  derivationBranch := 0
  derivationIndex := 0
  hasDerivationHint := false
  ms45Hint := .none

/-- Resource ceilings. The defaults are the format's own; a signer with less
memory passes lower ones, never higher. -/
structure TransactionLimits where
  maxInputs : Nat
  maxPayloadBytes : Nat
  maxInputs_le : maxInputs ≤ MAX_INPUTS
  deriving DecidableEq

def TransactionLimits.FORMAT : TransactionLimits := ⟨MAX_INPUTS, MAX_PAYLOAD_SIZE, Nat.le_refl _⟩

/-- The signer's transaction. Inputs and outputs beyond the counts do not exist here, and redeem
scripts that are too long for an input share the pool. -/
structure Transaction where
  version : UInt16
  inputs : List TransactionInput
  outputs : List TransactionOutput
  network : KaspaNetwork
  locktime : UInt64
  subnetworkId : FixedBytes 20
  gas : UInt64
  payload : Bytes
  stealthTweak : FixedBytes 32
  hasStealthTweak : Bool
  /-- Where the longer redeem scripts are kept, one after the other. -/
  redeemPool : FixedBytes REDEEM_POOL_SIZE
  redeemPoolUsed : Nat
  limits : TransactionLimits
  deriving DecidableEq

/-- The three ways in which the amounts of a transaction fail. -/
inductive TransactionAmountError where
  | inputTotalOverflow | outputTotalOverflow | outputsExceedInputs
  deriving DecidableEq, Repr

/-- What does not fit the transaction's own storage. -/
inductive TransactionStorageError where
  | tooManyInputs | payloadTooLarge | redeemScriptTooLarge | redeemPoolFull
  deriving DecidableEq, Repr

/-- Both totals, and the fee as what is left between them. -/
structure TransactionAmounts where
  inputTotal : UInt64
  outputTotal : UInt64
  fee : UInt64
  deriving DecidableEq

/-- `total.checked_add`, along a list. -/
def checkedSum (error : TransactionAmountError) :
    UInt64 → List UInt64 → Except TransactionAmountError UInt64
  | total, [] => .ok total
  | total, value :: values =>
    if total.toNat + value.toNat < 2 ^ 64 then checkedSum error (total + value) values
    else .error error

namespace Transaction

/-- An empty transaction bounded by `limits`. -/
def new (limits : TransactionLimits) : Transaction where
  version := 0
  inputs := []
  outputs := []
  network := .unknown
  locktime := 0
  subnetworkId := SUBNETWORK_ID_NATIVE
  gas := 0
  payload := []
  stealthTweak := zeros 32
  hasStealthTweak := false
  redeemPool := zeros _
  redeemPoolUsed := 0
  limits := limits

/-- Everything is reset but the limits. -/
def clear (tx : Transaction) : Transaction := new tx.limits

def modifyInput (tx : Transaction) (index : Nat) (f : TransactionInput → TransactionInput) :
    Transaction :=
  { tx with inputs := tx.inputs.modify index f }

def modifyOutput (tx : Transaction) (index : Nat) (f : TransactionOutput → TransactionOutput) :
    Transaction :=
  { tx with outputs := tx.outputs.modify index f }

/-- `ensure_input_slots` and the declaration of that many inputs. -/
def declareInputs (tx : Transaction) (count : Nat) : Except TransactionStorageError Transaction :=
  if tx.limits.maxInputs < count then .error .tooManyInputs
  else .ok { tx with inputs := List.replicate count .empty }

/-- A payload above the limit leaves the transaction as it was. -/
def setPayload (tx : Transaction) (payload : Bytes) : Except TransactionStorageError Transaction :=
  if tx.limits.maxPayloadBytes < payload.length then .error .payloadTooLarge
  else .ok { tx with payload := payload }

/-- The redeem script of input `index`, from the place its flags name. -/
def redeemBytes (tx : Transaction) (index : Nat) : Bytes :=
  match tx.inputs[index]? with
  | none => []
  | some input =>
    if input.redeemScriptLen = 0 then []
    else if input.redeemInPool then
      cut tx.redeemPool.val input.redeemScriptOffset.toNat
        (input.redeemScriptOffset.toNat + input.redeemScriptLen)
    else input.redeemScript.val.take input.redeemScriptLen

/-- Scripts up to `MAX_SCRIPT_SIZE` go inline, longer ones into the shared pool. -/
def storeRedeem (tx : Transaction) (index : Nat) (data : Bytes) :
    Except TransactionStorageError Transaction :=
  let len := data.length
  if len = 0 then
    .ok (tx.modifyInput index fun input =>
      { input with redeemScriptLen := 0, redeemInPool := false })
  else if len ≤ MAX_SCRIPT_SIZE then
    .ok (tx.modifyInput index fun input =>
      { input with
        redeemScript := input.redeemScript.write 0 data
        redeemScriptLen := len
        redeemInPool := false })
  else if MAX_REDEEM_SIZE < len then .error .redeemScriptTooLarge
  else if REDEEM_POOL_SIZE < tx.redeemPoolUsed + len then .error .redeemPoolFull
  else
    let off := tx.redeemPoolUsed
    .ok { tx with
      redeemPool := tx.redeemPool.write off data
      redeemPoolUsed := off + len
      inputs := tx.inputs.modify index fun input =>
        { input with
          redeemScriptOffset := UInt16.ofNat off
          redeemScriptLen := len
          redeemInPool := true } }

/-- Aggregate amounts; a total past 64 bits or outputs above inputs is an error. -/
def checkedAmounts (tx : Transaction) : Except TransactionAmountError TransactionAmounts := do
  let inputTotal ← checkedSum .inputTotalOverflow 0 (tx.inputs.map (·.utxoEntry.amount))
  let outputTotal ← checkedSum .outputTotalOverflow 0 (tx.outputs.map (·.value))
  if inputTotal < outputTotal then .error .outputsExceedInputs
  else return ⟨inputTotal, outputTotal, inputTotal - outputTotal⟩

end Transaction

/-! ## Script types -/

inductive ScriptType where
  | p2pk | p2sh | multisig | unknown
  deriving DecidableEq, Repr

/-- A multisig script within the signer's key capacity. -/
def signerMultisig (script : Bytes) : Option MultisigScript :=
  (parseMultisig script).filter fun parsed => parsed.keyCount.toNat ≤ MAX_MULTISIG_KEYS

/-- By shape: of a bare key and of a script hash only the fixed bytes are looked at. -/
def detectScriptType (script : Bytes) : ScriptType :=
  if script.length = 34 ∧ script[0]? = some OP_DATA_32 ∧ script[33]? = some OP_CHECKSIG then .p2pk
  else if script.length = 35 ∧ script[0]? = some OP_BLAKE2B ∧ script[1]? = some OP_DATA_32 ∧
      script[34]? = some OP_EQUAL then .p2sh
  else if (signerMultisig script).isSome then .multisig
  else .unknown

structure MultisigInfo where
  m : UInt8
  n : UInt8
  /-- The first `n` of the source's key array. -/
  pubkeys : List (FixedBytes 32)
  deriving DecidableEq

/-- The threshold and the keys of a script the signer can sign. -/
def parseMultisigScript (script : Bytes) : Option MultisigInfo :=
  (signerMultisig script).map fun parsed => ⟨parsed.threshold, parsed.keyCount, parsed.keys⟩

end KaspaPortal.Transaction.Model
