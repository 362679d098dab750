import KaspaPortal.Contract.Covenant.Escrow
import KaspaPortal.Contract.Covenant.GlobalThread
import KaspaPortal.Contract.Covenant.Locks
import KaspaPortal.Contract.Script.Elements
import KaspaPortal.Primitives.Locking

/-!
# Recognizing covenant scripts

The `*_script_fields` of `src/contract/covenant/script/` and the builders of `payjoin.rs` and
`oracle_v1.rs`. Every recognizer reads its fields off the elements, builds the script again
and compares, so it is one definition applied to a builder and a reader.

A recognizer that finds no fields says nothing about the script: it may be of another family,
or of none.
-/
namespace KaspaPortal.Contract.Covenant
open Lib Primitives Contract.Script

/-- The owner after the lock, or the beneficiary in a transaction of enough inputs and outputs whose
first two inputs come from different scripts. -/
def buildPayjoinCovenantScript (ownerPubkey beneficiaryPubkey : FixedBytes 32)
    (locktimeDaa minInputs minOutputs : UInt64) : Bytes :=
  [OP_IF] ++ pushPubkey ownerPubkey ++ [OP_CHECKSIGVERIFY] ++ pushInt locktimeDaa ++
    [OP_CHECKLOCKTIMEVERIFY, OP_1] ++
  [OP_ELSE] ++ pushPubkey beneficiaryPubkey ++ [OP_CHECKSIGVERIFY] ++
    [OP_TX_INPUT_COUNT] ++ pushInt minInputs ++ [OP_GREATERTHANOREQUAL, OP_VERIFY] ++
    [OP_TX_OUTPUT_COUNT] ++ pushInt minOutputs ++ [OP_GREATERTHANOREQUAL, OP_VERIFY] ++
    -- The first two inputs must come from different addresses
    pushInt 0 ++ [OP_TX_INPUT_SPK] ++ pushInt 1 ++ [OP_TX_INPUT_SPK, OP_EQUAL, OP_NOT, OP_VERIFY] ++
    [OP_1] ++
  [OP_ENDIF]

/-- The owner after the lock, or the beneficiary with the oracle's signature of a fixed message. -/
def buildOracleV1CovenantScript (ownerPubkey beneficiaryPubkey oraclePubkey : FixedBytes 32)
    (expectedMessageCommitment : FixedBytes 32) (locktimeDaa : UInt64) (salt : FixedBytes 16) :
    Bytes :=
  [0x10] ++ salt.val ++ [OP_DROP] ++
  [OP_IF] ++ pushPubkey ownerPubkey ++ [OP_CHECKSIGVERIFY] ++ pushInt locktimeDaa ++
    [OP_CHECKLOCKTIMEVERIFY, OP_1] ++
  [OP_ELSE] ++ pushPubkey beneficiaryPubkey ++ [OP_CHECKSIGVERIFY] ++
    pushData expectedMessageCommitment.val ++ pushPubkey oraclePubkey ++
    [OP_CHECKSIGFROMSTACK, OP_VERIFY, OP_1] ++
  [OP_ENDIF]

/-! ## Reading fields -/

/-- `elements.get(index)?.data.try_into().ok()?`. -/
def arrayAt (n : Nat) (elements : List Element) (index : Nat) : Option (FixedBytes n) :=
  (elements[index]?).bind fun e => toArray n e.data

/-- `element_integer(elements.get(index)?)?`. -/
def integerAt (elements : List Element) (index : Nat) : Option UInt64 :=
  (elements[index]?).bind elementInteger

/-- `elements.get(index)?.data.get(2..)?`: a destination without its script version. -/
def destinationAt (elements : List Element) (index : Nat) : Option Bytes :=
  (elements[index]?).bind fun e => slice e.data 2 e.data.length

/-- The fields that are read, if they build the script again. -/
def recognizeBy {Fields : Type} (build : Fields → Option Bytes)
    (read : Bytes → List Element → Option Fields) (script : Bytes) : Option Fields := do
  let elements ← completeElements script
  let fields ← read script elements
  if build fields = some script then some fields else none

/-- The terms of a dead man's switch. -/
structure DmsFields where
  ownerPubkey : FixedBytes 32
  heirPubkey : FixedBytes 32
  inactivityDaa : UInt64
  deriving DecidableEq

def DmsFields.build (fields : DmsFields) : Option Bytes :=
  some (buildDmsCsvScript fields.ownerPubkey fields.heirPubkey fields.inactivityDaa)

/-- The keys and the inactivity stand at fixed places. -/
def dmsScriptFields : Bytes → Option DmsFields :=
  recognizeBy DmsFields.build fun _ elements => do
    let ownerPubkey ← arrayAt 32 elements 1
    let inactivityDaa ← integerAt elements 4
    let heirPubkey ← arrayAt 32 elements 6
    return { ownerPubkey, heirPubkey, inactivityDaa }

/-- The terms of savings that either of two wallets can spend after the lock. -/
structure TimelockedSavingsFields where
  wallet1Pubkey : FixedBytes 32
  wallet2Pubkey : FixedBytes 32
  locktimeDaa : UInt64
  deriving DecidableEq

def TimelockedSavingsFields.build (fields : TimelockedSavingsFields) : Option Bytes :=
  some (buildTimelockedSavingsScript fields.wallet1Pubkey fields.wallet2Pubkey fields.locktimeDaa)

/-- The keys and the lock stand at fixed places. -/
def timelockedSavingsScriptFields : Bytes → Option TimelockedSavingsFields :=
  recognizeBy TimelockedSavingsFields.build fun _ elements => do
    let wallet1Pubkey ← arrayAt 32 elements 1
    let locktimeDaa ← integerAt elements 3
    let wallet2Pubkey ← arrayAt 32 elements 7
    return { wallet1Pubkey, wallet2Pubkey, locktimeDaa }

/-- The terms of a joint payment. -/
structure PayjoinFields where
  ownerPubkey : FixedBytes 32
  beneficiaryPubkey : FixedBytes 32
  locktimeDaa : UInt64
  minInputs : UInt64
  minOutputs : UInt64
  deriving DecidableEq

def PayjoinFields.build (fields : PayjoinFields) : Option Bytes :=
  some (buildPayjoinCovenantScript fields.ownerPubkey fields.beneficiaryPubkey fields.locktimeDaa
    fields.minInputs fields.minOutputs)

/-- The keys, the lock and the two counts stand at fixed places. -/
def payjoinScriptFields : Bytes → Option PayjoinFields :=
  recognizeBy PayjoinFields.build fun _ elements => do
    let ownerPubkey ← arrayAt 32 elements 1
    let locktimeDaa ← integerAt elements 3
    let beneficiaryPubkey ← arrayAt 32 elements 7
    let minInputs ← integerAt elements 10
    let minOutputs ← integerAt elements 14
    return { ownerPubkey, beneficiaryPubkey, locktimeDaa, minInputs, minOutputs }

/-- The terms of a payment an oracle decides. -/
structure OracleV1Fields where
  ownerPubkey : FixedBytes 32
  beneficiaryPubkey : FixedBytes 32
  oraclePubkey : FixedBytes 32
  messageCommitment : FixedBytes 32
  locktimeDaa : UInt64
  salt : FixedBytes 16
  deriving DecidableEq

def OracleV1Fields.build (fields : OracleV1Fields) : Option Bytes :=
  some (buildOracleV1CovenantScript fields.ownerPubkey fields.beneficiaryPubkey
    fields.oraclePubkey fields.messageCommitment fields.locktimeDaa fields.salt)

/-- Everything stands at a fixed place behind the salt. -/
def oracleV1ScriptFields : Bytes → Option OracleV1Fields :=
  recognizeBy OracleV1Fields.build fun _ elements => do
    let salt ← arrayAt 16 elements 0
    let ownerPubkey ← arrayAt 32 elements 3
    let locktimeDaa ← integerAt elements 5
    let beneficiaryPubkey ← arrayAt 32 elements 9
    let messageCommitment ← arrayAt 32 elements 11
    let oraclePubkey ← arrayAt 32 elements 12
    return { ownerPubkey, beneficiaryPubkey, oraclePubkey, messageCommitment, locktimeDaa, salt }

/-- A zero goal or deadline is unset. -/
structure PiggyBankFields where
  ownerPubkey : FixedBytes 32
  thresholdSompi : UInt64
  deadlineDaa : UInt64
  salt : FixedBytes 8
  deriving DecidableEq

def PiggyBankFields.build (fields : PiggyBankFields) : Option Bytes :=
  some (buildPiggyBankScript fields.ownerPubkey fields.thresholdSompi fields.deadlineDaa fields.salt)

/-- The goal check is the first `>=`; without a goal the first `>=` is the deposit path's, which
compares two amounts and not a pushed integer. -/
def piggyBankScriptFields : Bytes → Option PiggyBankFields :=
  recognizeBy PiggyBankFields.build fun script elements => do
    let salt ← arrayAt 8 elements 0
    let ownerPubkey ← arrayAt 32 elements 3
    let thresholdSompi ← (findPrecedingScriptInteger script OP_GREATERTHANOREQUAL).toOption
    let deadlineDaa ← (extractCltvLocktime script).toOption
    return { ownerPubkey, thresholdSompi := thresholdSompi.getD 0,
             deadlineDaa := deadlineDaa.getD 0, salt }

/-- A zero cooldown or start is unset. -/
structure GlobalAllowanceFields where
  ownerPubkey : FixedBytes 32
  beneficiaryPubkey : FixedBytes 32
  maxWithdrawSompi : UInt64
  cooldownDaa : UInt64
  startDaa : UInt64
  salt : FixedBytes 8
  deriving DecidableEq

def GlobalAllowanceFields.build (fields : GlobalAllowanceFields) : Option Bytes :=
  some (buildGlobalAllowanceScript fields.ownerPubkey fields.beneficiaryPubkey
    fields.maxWithdrawSompi fields.cooldownDaa fields.startDaa fields.salt)

/-- The optional clauses shift every later element, so they and the cap are read by the opcode
each one precedes. -/
def globalAllowanceScriptFields : Bytes → Option GlobalAllowanceFields :=
  recognizeBy GlobalAllowanceFields.build fun script elements => do
    let salt ← arrayAt 8 elements 0
    let ownerPubkey ← arrayAt 32 elements 3
    let beneficiaryPubkey ← arrayAt 32 elements 6
    let maxWithdrawSompi ← (findPrecedingScriptInteger script OP_SUB).toOption.join
    let cooldownDaa ← (extractCsvSequence script).toOption
    let startDaa ← (extractCltvLocktime script).toOption
    return { ownerPubkey, beneficiaryPubkey, maxWithdrawSompi,
             cooldownDaa := cooldownDaa.getD 0, startDaa := startDaa.getD 0, salt }

/-- The terms of a capped thread. The cooldown is always written. -/
structure GlobalSpendingLimitFields where
  ownerPubkey : FixedBytes 32
  maxWithdrawSompi : UInt64
  cooldownDaa : UInt64
  salt : FixedBytes 8
  deriving DecidableEq

def GlobalSpendingLimitFields.build (fields : GlobalSpendingLimitFields) : Option Bytes :=
  some (buildGlobalSpendingLimitScript fields.ownerPubkey fields.maxWithdrawSompi
    fields.cooldownDaa fields.salt)

/-- The cooldown stands at a fixed place, the cap is read by the subtraction it precedes. -/
def globalSpendingLimitScriptFields : Bytes → Option GlobalSpendingLimitFields :=
  recognizeBy GlobalSpendingLimitFields.build fun script elements => do
    let salt ← arrayAt 8 elements 0
    let ownerPubkey ← arrayAt 32 elements 2
    let cooldownDaa ← integerAt elements 4
    let maxWithdrawSompi ← (findPrecedingScriptInteger script OP_SUB).toOption.join
    return { ownerPubkey, maxWithdrawSompi, cooldownDaa, salt }

/-- The destinations exclude the two-byte script version that the script commits to. -/
structure EscrowFields where
  alicePubkey : FixedBytes 32
  bobPubkey : FixedBytes 32
  arbiterPubkey : FixedBytes 32
  aliceSpk : Bytes
  bobSpk : Bytes
  salt : FixedBytes 8
  deriving DecidableEq

def EscrowFields.build (fields : EscrowFields) : Option Bytes :=
  some (buildEscrowScript fields.alicePubkey fields.bobPubkey fields.arbiterPubkey fields.aliceSpk
    fields.bobSpk fields.salt)

/-- The destinations are read without their version, which the builder puts back. -/
def escrowScriptFields : Bytes → Option EscrowFields :=
  recognizeBy EscrowFields.build fun _ elements => do
    let salt ← arrayAt 8 elements 0
    let alicePubkey ← arrayAt 32 elements 3
    let bobSpk ← destinationAt elements 7
    let bobPubkey ← arrayAt 32 elements 12
    let aliceSpk ← destinationAt elements 16
    let arbiterPubkey ← arrayAt 32 elements 21
    return { alicePubkey, bobPubkey, arbiterPubkey, aliceSpk, bobSpk, salt }

/-- The terms of a swap, with the destination without its version. -/
structure PrivateSwapFields where
  ownerPubkey : FixedBytes 32
  claimerPubkey : FixedBytes 32
  claimerOutputSpk : Bytes
  refundLocktimeDaa : UInt64
  salt : FixedBytes 16
  deriving DecidableEq

/-- A destination that cannot be pushed has no script. -/
def PrivateSwapFields.build (fields : PrivateSwapFields) : Option Bytes :=
  (buildPrivateSwapScript fields.ownerPubkey fields.claimerPubkey fields.claimerOutputSpk
    fields.refundLocktimeDaa fields.salt).toOption

/-- The owner and the lock of the refund stand last. -/
def privateSwapScriptFields : Bytes → Option PrivateSwapFields :=
  recognizeBy PrivateSwapFields.build fun _ elements => do
    let salt ← arrayAt 16 elements 0
    let claimerPubkey ← arrayAt 32 elements 3
    let claimerOutputSpk ← destinationAt elements 13
    let ownerPubkey ← arrayAt 32 elements 30
    let refundLocktimeDaa ← integerAt elements 32
    return { ownerPubkey, claimerPubkey, claimerOutputSpk, refundLocktimeDaa, salt }

end KaspaPortal.Contract.Covenant
