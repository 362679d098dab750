import KaspaPortal.Lib.Saturating
import KaspaPortal.Primitives.Address
import KaspaPortal.Primitives.Hex
import KaspaPortal.Transaction.Consensus
import KaspaPortal.Transaction.Mass
import Mathlib.Data.List.Sort

/-!
# Covenant deposits

`src/transaction/builder/covenant/`: the selection of the funding inputs, the fee and dust
policies, and the document that is encoded. Its JSON text is left out; what it carries is a
record here. The UTXOs are those fetched for the wallet's addresses.

The wallet's state, its addresses and the node it asks are arguments here. Signing and
sending come after it.
-/
namespace KaspaPortal.Transaction.CovenantBuilder
open Lib Primitives

/-! ## Requests -/

/-- Smaller change would make the transaction too heavy. -/
def KIP9_MIN_CHANGE_SOMPI : UInt64 := 10000000
def MIN_GENESIS_SOMPI : UInt64 := 10000000
/-- In bytes of the payload itself, not of its text. -/
def MAX_PAYLOAD_SIZE : Nat := 250000

/-- An entry as the wallet knows it. -/
structure UtxoEntry where
  txId : Bytes
  index : UInt32
  amount : UInt64
  scriptPublicKey : Bytes
  blockDaaScore : UInt64
  covenantId : Option (FixedBytes 32)
  deriving DecidableEq

/-- How the output tells that it belongs to a covenant: by a payload, or by its binding. -/
inductive CovenantEncoding where
  | payload (payloadHex : Bytes) (tagGenesis : Bool)
  | boundGenesis
  deriving DecidableEq

def CovenantEncoding.tagGenesis : CovenantEncoding → Bool
  | .payload _ tagGenesis => tagGenesis
  | .boundGenesis => true

def CovenantEncoding.usesTaggedGenesisPolicy : CovenantEncoding → Bool
  | .payload _ true => true
  | _ => false

/-- What a manual selection does with change below the storage-mass floor. -/
inductive CovenantDustPolicy where
  | preserve | foldSubKip9Change
  deriving DecidableEq

/-- What the caller asks for. -/
structure CovenantBuildRequest where
  receiveAddresses : List Bytes
  covenantAddress : Bytes
  sendAmount : UInt64
  fee : UInt64
  changeAddress : Bytes
  utxoIndicesCsv : List Char
  dustPolicy : CovenantDustPolicy
  encoding : CovenantEncoding

/-- The request after its addresses have been read. -/
structure CovenantPlanInput where
  sendAmount : UInt64
  fee : UInt64
  dustPolicy : CovenantDustPolicy
  utxoIndicesCsv : List Char
  encoding : CovenantEncoding
  covenantScript : Bytes
  changeScript : Bytes
  payload : Option Bytes
  deriving DecidableEq

/-- `OP_DATA_32 <x-only key> OP_CHECKSIG`. -/
def p2pkScript (publicKey : FixedBytes 32) : Bytes := OP_DATA_32 :: (publicKey.val ++ [OP_CHECKSIG])

/-- The script an address stands for. -/
def addressToScriptPubkey (addr : Bytes) : Except String Bytes := do
  let decoded ← (decodeAddressBytes addr).mapError AddressError.message
  let payload ← okOr ("Unsupported script version: " ++ hexText decoded.version)
    (toArray 32 decoded.payload)
  if decoded.version = 0x00 then return p2pkScript payload
  else if decoded.version = 0x08 then return p2shScript payload
  else throw ("Unsupported script version: " ++ hexText decoded.version)

def textOf (b : Bytes) : String := String.ofList (b.map fun byte => Char.ofNat byte.toNat)

/-- The same, for an address of the given network only. -/
def addressToScriptPubkeyOn (addr expected : Bytes) : Except String Bytes := do
  let network ← (addressPrefix addr).mapError AddressError.message
  rejectIf (network ≠ expected)
    s!"Address is on the '{textOf network}' network, but this transaction is on '{textOf expected}'"
  addressToScriptPubkey addr

/-- The network of the wallet is that of its first address. -/
def walletAddressPrefix (receiveAddresses : List Bytes) : Except String Bytes := do
  let first ← okOr "Wallet has no receive address" receiveAddresses.head?
  (addressPrefix first).mapError AddressError.message

/-- The reason a payload is not hex is left out of the message. -/
def CovenantEncoding.payloadBytes : CovenantEncoding → Except String (Option Bytes)
  | .payload payloadHex _ => (okOr "Bad payload hex" (decodeHex payloadHex)).map some
  | .boundGenesis => .ok none

/-- All addresses are checked before anything is selected. -/
def prepareRequest (request : CovenantBuildRequest) : Except String CovenantPlanInput := do
  let network ← walletAddressPrefix request.receiveAddresses
  let covenantScript ← addressToScriptPubkeyOn request.covenantAddress network
  let changeScript ← addressToScriptPubkeyOn request.changeAddress network
  let payload ← request.encoding.payloadBytes
  return {
    sendAmount := request.sendAmount
    fee := request.fee
    dustPolicy := request.dustPolicy
    utxoIndicesCsv := request.utxoIndicesCsv
    encoding := request.encoding
    covenantScript
    changeScript
    payload }

/-! ## Selection -/

/-- `DepositFeePolicy`. -/
structure DepositFeePolicy where
  payloadLen : UInt64
  tagGenesis : Bool

/-- The fee of a deposit with so many inputs. -/
def DepositFeePolicy.calculate (policy : DepositFeePolicy) (inputCount : UInt64) :
    Except String UInt64 :=
  CovenantFeeShape.calculate ⟨inputCount, 0, policy.payloadLen, if policy.tagGenesis then 32 else 0⟩

/-- The characters `str::trim` removes. -/
def isWhitespace (c : Char) : Bool :=
  let n := c.toNat
  (0x09 ≤ n && n ≤ 0x0d) || n == 0x20 || n == 0x85 || n == 0xa0 || n == 0x1680 ||
    (0x2000 ≤ n && n ≤ 0x200a) || n == 0x2028 || n == 0x2029 || n == 0x202f || n == 0x205f ||
    n == 0x3000

def trim (text : List Char) : List Char :=
  ((text.dropWhile isWhitespace).reverse.dropWhile isWhitespace).reverse

/-- `str::parse::<usize>`: decimal digits after an optional plus sign. -/
def parseUsize (text : List Char) : Option Nat :=
  let digits := match text with
    | '+' :: rest => rest
    | _ => text
  if digits = [] ∨ digits.all Char.isDigit = false then none
  else
    let value := digits.foldl (fun value digit => 10 * value + (digit.toNat - 0x30)) 0
    if value < 2 ^ 64 then some value else none

/-- Parts that are not a number are left out. -/
def parseManualIndices (csv : List Char) : List Nat :=
  (csv.splitOn ',').filterMap fun value => parseUsize (trim value)

/-- The sum is checked. -/
def checkedTarget (sendAmount fee : UInt64) : Except String UInt64 :=
  okOr "Send amount plus fee exceeds supported monetary range" (checkedAdd sendAmount fee)

def checkedTotal (total amount : UInt64) : Except String UInt64 :=
  okOr "Selected UTXO total exceeds supported monetary range" (checkedAdd total amount)

/-- What a selection holds, with the fee it was made for. -/
structure SelectionResult where
  selected : List UtxoEntry
  total : UInt64
  fee : UInt64
  target : UInt64
  usedManualSelection : Bool
  deriving DecidableEq

/-- The loop over the listed indices. -/
def pickIndices (utxos : List UtxoEntry) :
    List Nat → List UtxoEntry × UInt64 → Except String (List UtxoEntry × UInt64)
  | [], picked => .ok picked
  | index :: rest, (selected, total) => do
    let utxo ← okOr s!"UTXO index {index} out of range (have {utxos.length})" utxos[index]?
    let total ← checkedTotal total utxo.amount
    pickIndices utxos rest (selected ++ [utxo], total)

/-- The entries at the indices, in their order. An index without an entry is an error. -/
def selectManual (utxos : List UtxoEntry) (indices : List Nat) (sendAmount requestedFee : UInt64)
    (policy : DepositFeePolicy) : Except String SelectionResult := do
  let (selected, total) ← pickIndices utxos indices ([], 0)
  let calculated ← policy.calculate (UInt64.ofNat selected.length)
  let fee := max requestedFee calculated
  let target ← checkedTarget sendAmount fee
  return ⟨selected, total, fee, target, true⟩

/-- The loop over the UTXOs, until what is selected covers the target. -/
def takeUntilCovered (sendAmount : UInt64) (policy : DepositFeePolicy) :
    List UtxoEntry → SelectionResult → Except String SelectionResult
  | [], state => .ok state
  | utxo :: rest, state => do
    let total ← checkedTotal state.total utxo.amount
    let selected := state.selected ++ [utxo]
    let calculated ← policy.calculate (UInt64.ofNat selected.length)
    let fee := max state.fee calculated
    let target ← checkedTarget sendAmount fee
    let state := { state with selected, total, fee, target }
    if target ≤ total then .ok state else takeUntilCovered sendAmount policy rest state

/-- Entries in order until they cover the amount and the fee, which grows with every input. -/
def selectAutomatic (utxos : List UtxoEntry) (sendAmount requestedFee : UInt64)
    (policy : DepositFeePolicy) : Except String SelectionResult := do
  let target ← checkedTarget sendAmount requestedFee
  takeUntilCovered sendAmount policy utxos ⟨[], 0, requestedFee, target, false⟩

/-- Manual selection when there is at least one index. -/
def select (utxos : List UtxoEntry) (sendAmount requestedFee : UInt64) (utxoIndicesCsv : List Char)
    (policy : DepositFeePolicy) : Except String SelectionResult :=
  let manualIndices := parseManualIndices utxoIndicesCsv
  if manualIndices = [] then selectAutomatic utxos sendAmount requestedFee policy
  else selectManual utxos manualIndices sendAmount requestedFee policy

/-! ## The plan -/

/-- The entries, what is sent and what is paid. -/
structure SelectedPlan where
  selected : List UtxoEntry
  adjustedSend : UInt64
  fee : UInt64
  deriving DecidableEq

/-- A manual selection that does not cover the amount sends what it does cover. -/
def selectedSendAmount (requested total fee target : UInt64) (usedManualSelection : Bool) :
    Except String UInt64 :=
  if target ≤ total then .ok requested
  else if total ≤ fee ∨ usedManualSelection = false then
    .error s!"Insufficient funds: {total} < {target}"
  else okOr "Covenant send adjustment underflow" (checkedSub total fee)

/-- A tagged genesis that asks for nothing sends all that the fee leaves. -/
def applyGenesisSendPolicy (input : CovenantPlanInput) (selected total fee : UInt64) :
    Except String UInt64 :=
  if input.encoding.usesTaggedGenesisPolicy = false ∨ input.sendAmount ≠ 0 ∨ total ≤ fee then
    .ok selected
  else okOr "Covenant genesis adjustment underflow" (checkedSub total fee)

/-- Under a manual selection, change too small to return is added to what is sent. -/
def applyDustPolicy (policy : CovenantDustPolicy) (selected total fee : UInt64)
    (usedManualSelection : Bool) : Except String UInt64 :=
  if policy ≠ .foldSubKip9Change ∨ usedManualSelection = false then .ok selected
  else do
    let change ← okOr "Covenant dust-policy arithmetic underflow"
      ((checkedSub total selected).bind (checkedSub · fee))
    if change = 0 ∨ KIP9_MIN_CHANGE_SOMPI ≤ change then return selected
    else okOr "Covenant dust-fold arithmetic underflow" (checkedSub total fee)

/-- The amount in KAS is left out of the message. -/
def validateGenesisMinimum (input : CovenantPlanInput) (adjusted : UInt64) : Except String Unit :=
  if input.encoding.usesTaggedGenesisPolicy = false ∨ MIN_GENESIS_SOMPI ≤ adjusted then .ok ()
  else .error s!"Genesis funding {adjusted} sompi is too small for a covenant thread. Fund at least 0.1 KAS so the tagged output clears the storage-mass floor."

def adjustedSend (input : CovenantPlanInput) (selection : SelectionResult) :
    Except String UInt64 := do
  let selected ← selectedSendAmount input.sendAmount selection.total selection.fee selection.target
    selection.usedManualSelection
  let adjusted ← applyGenesisSendPolicy input selected selection.total selection.fee
  let adjusted ← applyDustPolicy input.dustPolicy adjusted selection.total selection.fee
    selection.usedManualSelection
  validateGenesisMinimum input adjusted
  return adjusted

/-- Selection, then the amount that is really sent. -/
def selectPlan (input : CovenantPlanInput) (utxos : List UtxoEntry) :
    Except String SelectedPlan := do
  let policy : DepositFeePolicy :=
    ⟨UInt64.ofNat ((input.payload.map List.length).getD 0), input.encoding.tagGenesis⟩
  let selection ← select utxos input.sendAmount input.fee input.utxoIndicesCsv policy
  let adjusted ← adjustedSend input selection
  return ⟨selection.selected, adjusted, selection.fee⟩

/-- Largest amounts first, then by transaction id and output index. -/
def displayedBefore (left right : UtxoEntry) : Prop :=
  right.amount < left.amount ∨ right.amount = left.amount ∧
    (left.txId < right.txId ∨ left.txId = right.txId ∧ left.index ≤ right.index)

instance displayedBefore_decidable (left right : UtxoEntry) :
    Decidable (displayedBefore left right) :=
  inferInstanceAs (Decidable (_ ∨ _))

/-- The order in which the indices of the caller are to be read. -/
def sortForDisplay (utxos : List UtxoEntry) : List UtxoEntry := utxos.insertionSort displayedBefore

/-! ## The document -/

section document

-- `covenant_id`, of the funding outpoint and the authorized output.
variable (covenantId : (transactionId : FixedBytes 32) → (index : UInt32) → ConsensusOutput →
  FixedBytes 32)

/-- The first input authorises the output; the id is a hash of its outpoint and of the output. -/
def computeGenesisBinding (encoding : CovenantEncoding) (selected : List UtxoEntry)
    (adjustedSend : UInt64) (covenantScript : Bytes) :
    Except String (UInt16 × FixedBytes 32) := do
  let funding ← okOr "No UTXOs selected" selected.head?
  let txid ← okOr (if encoding = .boundGenesis then "Bad txid" else "Bad funding txid")
    (decodeHex funding.txId)
  let transactionId ← okOr
    (if encoding = .boundGenesis then "txid not 32 bytes" else "funding txid not 32 bytes")
    (toArray 32 txid)
  return (0, covenantId transactionId funding.index ⟨adjustedSend, 0, covenantScript, none⟩)

def genesisBinding (input : CovenantPlanInput) (plan : SelectedPlan) :
    Except String (Option (UInt16 × FixedBytes 32)) :=
  if input.encoding.tagGenesis then
    (computeGenesisBinding covenantId input.encoding plan.selected plan.adjustedSend
      input.covenantScript).map some
  else .ok none

/-- An output of the document. -/
structure PskbOutput where
  amount : UInt64
  script : Bytes
  covenant : Option (UInt16 × FixedBytes 32)
  deriving DecidableEq

/-- `selection::checked_total`. -/
def selectedTotal (selected : List UtxoEntry) : Except String UInt64 :=
  selected.foldlM (fun total utxo =>
    okOr "UTXO total exceeds supported monetary range" (checkedAdd total utxo.amount)) 0

/-- The covenant output first, then the change if there is any. -/
def plannedOutputs (input : CovenantPlanInput) (plan : SelectedPlan)
    (binding : Option (UInt16 × FixedBytes 32)) : Except String (List PskbOutput) := do
  let total ← selectedTotal plan.selected
  let change ← okOr "Covenant output arithmetic underflow"
    ((checkedSub total plan.adjustedSend).bind (checkedSub · plan.fee))
  let covenant : PskbOutput := ⟨plan.adjustedSend, input.covenantScript, binding⟩
  return covenant :: if 0 < change then [⟨change, input.changeScript, none⟩] else []

/-- The encoded document: P2PK inputs of sequence zero with one signature operation. -/
structure CovenantDocument where
  txVersion : UInt16
  inputs : List UtxoEntry
  outputs : List PskbOutput
  payload : Option Bytes
  deriving DecidableEq

def encodeDocument (txVersion : UInt16) (inputs : List UtxoEntry) (outputs : List PskbOutput)
    (payload : Option Bytes) : Except String CovenantDocument := do
  rejectIf (MAX_PAYLOAD_SIZE < (payload.map List.length).getD 0)
    s!"transaction payload exceeds the {MAX_PAYLOAD_SIZE}-byte consensus limit"
  rejectIf (2 ^ 32 ≤ inputs.length) "PSKB input count exceeds KSPT v1 capacity"
  rejectIf (2 ^ 16 ≤ outputs.length) "PSKB output count exceeds 65535"
  return ⟨txVersion, inputs, outputs, payload⟩

def encodePlan (input : CovenantPlanInput) (plan : SelectedPlan) (outputs : List PskbOutput)
    (binding : Option (UInt16 × FixedBytes 32)) : Except String CovenantDocument :=
  match input.encoding with
  | .payload _ _ => do
    let payload ← okOr "Covenant payload encoding requires payload bytes" input.payload
    let txVersion := if outputs.any fun output => output.covenant.isSome then 1 else 0
    encodeDocument txVersion plan.selected outputs (some payload)
  | .boundGenesis => do
    rejectIf (binding = none) "Bound genesis encoding requires a covenant binding"
    encodeDocument 1 plan.selected outputs none

/-- The selected plan and the document encoded from it. -/
def encodeFromUtxos (input : CovenantPlanInput) (utxos : List UtxoEntry) :
    Except String (SelectedPlan × CovenantDocument) := do
  let utxos := sortForDisplay utxos
  let plan ← selectPlan input utxos
  let binding ← genesisBinding covenantId input plan
  let outputs ← plannedOutputs input plan binding
  let document ← encodePlan input plan outputs binding
  return (plan, document)

/-- All of it: plan, binding, outputs and the document. -/
def build (request : CovenantBuildRequest) (utxos : List UtxoEntry) :
    Except String (SelectedPlan × CovenantDocument) := do
  let input ← prepareRequest request
  encodeFromUtxos covenantId input utxos

end document

end KaspaPortal.Transaction.CovenantBuilder
