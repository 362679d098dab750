import KaspaPortal.Engine.Rules
import KaspaPortal.Lib.Result
import KaspaPortal.Lib.Saturating

/-!
# Shipment escrow

`src/contract/shipping_escrow/`: the tranches of `script.rs`, the funded state
of `state_zero.rs` and the in-transit state of `state_one.rs`. The state is the
spent amount: the total until pickup, the remainder until delivery.

Both states are scripts of single spends. That a shipment passes through them
in order is a result about the spends and not part of the scripts.
-/
namespace KaspaPortal.Contract.ShippingEscrow
open Lib Primitives Transaction Contract.Script Engine

/-- The four parties, the price with its fee, the two deadlines and a salt that keeps equal
shipments apart. -/
structure ShippingEscrowScriptRequest where
  sellerPubkey : FixedBytes 32
  delivererPubkey : FixedBytes 32
  buyerPubkey : FixedBytes 32
  arbiterPubkey : FixedBytes 32
  productSompi : UInt64
  feeSompi : UInt64
  cltv1Deadline : UInt64
  cltv2Deadline : UInt64
  salt : FixedBytes 8

/-- What the price splits into: the seller gets `first` at pickup and `second` at delivery, and
`remainder` is what pickup leaves. -/
structure ShippingEscrowTranches where
  total : UInt64
  first : UInt64
  second : UInt64
  remainder : UInt64
  deriving DecidableEq, Repr

/-- Every sum is checked; an odd product leaves the odd sompi to the second tranche. -/
def ShippingEscrowTranches.new (productSompi feeSompi : UInt64) :
    Except String ShippingEscrowTranches := do
  let total ← okOr "Shipping escrow total exceeds supported monetary range"
    (checkedAdd productSompi feeSompi)
  let firstTranche := productSompi / 2
  let second ← okOr "Shipping escrow tranche underflow" (checkedSub productSompi firstTranche)
  let remainder ← okOr "Shipping escrow tranche underflow" (checkedSub total firstTranche)
  return ⟨total, firstTranche, second, remainder⟩

/-- The versioned pay-to-key script, as an output is compared with it. -/
def p2pkScriptPublicKey (pubkey : FixedBytes 32) : Bytes :=
  [0x00, 0x00] ++ [0x20] ++ pubkey.val ++ [OP_CHECKSIG]

/-- What the in-transit script is written from. -/
structure StateOneConfig where
  remainder : UInt64
  feeSompi : UInt64
  deliveryDeadline : UInt64
  sellerSpk : Bytes
  delivererSpk : Bytes
  buyerSpk : Bytes
  buyerPubkey : FixedBytes 32
  arbiterPubkey : FixedBytes 32

/-- What the funded script is written from, which holds the in-transit script as well. -/
structure StateZeroConfig where
  total : UInt64
  remainder : UInt64
  feeSompi : UInt64
  pickupDeadline : UInt64
  deliveryDeadline : UInt64
  sellerSpk : Bytes
  delivererSpk : Bytes
  buyerSpk : Bytes
  delivererPubkey : FixedBytes 32
  buyerPubkey : FixedBytes 32
  arbiterPubkey : FixedBytes 32

/-- What the funded state hands on to the in-transit state. -/
def StateZeroConfig.stateOne (config : StateZeroConfig) : StateOneConfig where
  remainder := config.remainder
  feeSompi := config.feeSompi
  deliveryDeadline := config.deliveryDeadline
  sellerSpk := config.sellerSpk
  delivererSpk := config.delivererSpk
  buyerSpk := config.buyerSpk
  buyerPubkey := config.buyerPubkey
  arbiterPubkey := config.arbiterPubkey

namespace StateOne

/-- Delivered: the buyer, else the arbiter, else the deadline lets the seller and the deliverer
be paid. Refunded: the arbiter alone sends everything to the buyer. -/
def appendDeliveryOrRefund (config : StateOneConfig) : Bytes :=
  [OP_IF] ++
    [OP_IF] ++ pushPubkey config.buyerPubkey ++ [OP_CHECKSIGVERIFY] ++
    [OP_ELSE] ++
      [OP_IF] ++ pushPubkey config.arbiterPubkey ++ [OP_CHECKSIGVERIFY] ++
      [OP_ELSE] ++ pushInt config.deliveryDeadline ++ [OP_CHECKLOCKTIMEVERIFY] ++
      [OP_ENDIF] ++
    [OP_ENDIF] ++
    pushInt 0 ++ [OP_TX_OUTPUT_SPK] ++ pushData config.sellerSpk ++ [OP_EQUALVERIFY] ++
    pushInt 1 ++ [OP_TX_OUTPUT_SPK] ++ pushData config.delivererSpk ++ [OP_EQUALVERIFY] ++
    pushInt 1 ++ [OP_TX_OUTPUT_AMOUNT] ++ pushInt config.feeSompi ++ [OP_EQUALVERIFY] ++
    [OP_TX_OUTPUT_COUNT] ++ pushInt 2 ++ [OP_EQUALVERIFY, OP_1] ++
  [OP_ELSE] ++
    pushPubkey config.arbiterPubkey ++ [OP_CHECKSIGVERIFY] ++
    pushInt 0 ++ [OP_TX_OUTPUT_SPK] ++ pushData config.buyerSpk ++ [OP_EQUALVERIFY] ++
    [OP_TX_OUTPUT_COUNT] ++ pushInt 1 ++ [OP_EQUALVERIFY, OP_1] ++
  [OP_ENDIF]

/-- Any other amount ends on a false item. -/
def appendDispatch (config : StateOneConfig) : Bytes :=
  [OP_DUP] ++ pushInt config.remainder ++ [OP_EQUAL, OP_IF, OP_DROP] ++
    appendDeliveryOrRefund config ++
  [OP_ELSE, OP_DROP, OP_0, OP_ENDIF]

end StateOne

namespace StateZero

/-- Picked up: the deliverer carries the remainder on to the same script and pays the seller.
Refunded: the arbiter or the deadline sends everything to the buyer. -/
def appendPickupOrRefund (config : StateZeroConfig) : Bytes :=
  [OP_IF] ++ pushPubkey config.delivererPubkey ++ [OP_CHECKSIGVERIFY] ++
    pushInt 0 ++ [OP_TX_OUTPUT_SPK, OP_TX_INPUT_INDEX, OP_TX_INPUT_SPK, OP_EQUALVERIFY] ++
    pushInt 0 ++ [OP_TX_OUTPUT_AMOUNT] ++ pushInt config.remainder ++ [OP_EQUALVERIFY] ++
    pushInt 1 ++ [OP_TX_OUTPUT_SPK] ++ pushData config.sellerSpk ++ [OP_EQUALVERIFY] ++
    [OP_TX_OUTPUT_COUNT] ++ pushInt 2 ++ [OP_EQUALVERIFY, OP_1] ++
  [OP_ELSE] ++
    [OP_IF] ++ pushPubkey config.arbiterPubkey ++ [OP_CHECKSIGVERIFY] ++
    [OP_ELSE] ++ pushInt config.pickupDeadline ++ [OP_CHECKLOCKTIMEVERIFY] ++
    [OP_ENDIF] ++
    pushInt 0 ++ [OP_TX_OUTPUT_SPK] ++ pushData config.buyerSpk ++ [OP_EQUALVERIFY] ++
    [OP_TX_OUTPUT_COUNT] ++ pushInt 1 ++ [OP_EQUALVERIFY, OP_1] ++
  [OP_ENDIF]

/-- The spent amount tells the state: the total is not yet picked up, all else goes to the other
script. -/
def appendDispatch (config : StateZeroConfig) : Bytes :=
  [OP_DUP] ++ pushInt config.total ++ [OP_EQUAL, OP_IF, OP_DROP] ++
    appendPickupOrRefund config ++
  [OP_ELSE] ++
    StateOne.appendDispatch config.stateOne ++
  [OP_ENDIF]

end StateZero

/-- The request's parties as the scripts that outputs are compared with. -/
def stateZeroConfig (request : ShippingEscrowScriptRequest) (tranches : ShippingEscrowTranches) :
    StateZeroConfig where
  total := tranches.total
  remainder := tranches.remainder
  feeSompi := request.feeSompi
  pickupDeadline := request.cltv1Deadline
  deliveryDeadline := request.cltv2Deadline
  sellerSpk := p2pkScriptPublicKey request.sellerPubkey
  delivererSpk := p2pkScriptPublicKey request.delivererPubkey
  buyerSpk := p2pkScriptPublicKey request.buyerPubkey
  delivererPubkey := request.delivererPubkey
  buyerPubkey := request.buyerPubkey
  arbiterPubkey := request.arbiterPubkey

/-- The one script of a shipment, for both of its states. -/
def buildShipEscrowScript (request : ShippingEscrowScriptRequest) : Except String Bytes := do
  let tranches ← ShippingEscrowTranches.new request.productSompi request.feeSompi
  return [0x08] ++ request.salt.val ++ [OP_DROP, OP_TX_INPUT_INDEX, OP_TX_INPUT_AMOUNT] ++
    StateZero.appendDispatch (stateZeroConfig request tranches)

/-! ## Nested form -/

/-- The check that output `k` pays a fixed script. -/
def outputSpkIs (k : UInt64) (spk : Bytes) : List (Stmt Instr) :=
  [num k, op .txOutputSpk, data spk, op .equalVerify]

/-- The check that output `k` holds a fixed amount, as equal bytes. -/
def outputAmountIs (k amount : UInt64) : List (Stmt Instr) :=
  [num k, op .txOutputAmount, num amount, op .equalVerify]

/-- The check of the number of outputs, which ends a branch with a true item. -/
def outputCountIs (n : UInt64) : List (Stmt Instr) :=
  [op .txOutputCount, num n, op .equalVerify, data [1]]

def signedBy (key : FixedBytes 32) : List (Stmt Instr) := [data key.val, op .checkSigVerify]

/-- A branch nobody signs, open from the deadline on. -/
def after (deadline : UInt64) : List (Stmt Instr) := [num deadline, op .checkLockTimeVerify]

/-- The in-transit branches, as a structured program. -/
def deliveryOrRefundProgram (config : StateOneConfig) : List (Stmt Instr) :=
  [.ifElse
    (.ifElse (signedBy config.buyerPubkey)
        [.ifElse (signedBy config.arbiterPubkey) (after config.deliveryDeadline)] ::
      outputSpkIs 0 config.sellerSpk ++ outputSpkIs 1 config.delivererSpk ++
        outputAmountIs 1 config.feeSompi ++ outputCountIs 2)
    (signedBy config.arbiterPubkey ++ outputSpkIs 0 config.buyerSpk ++ outputCountIs 1)]

def stateOneProgram (config : StateOneConfig) : List (Stmt Instr) :=
  [op .dup, num config.remainder, op .equal,
    .ifElse (op .drop :: deliveryOrRefundProgram config) [op .drop, data []]]

/-- The funded branches, as a structured program. -/
def pickupOrRefundProgram (config : StateZeroConfig) : List (Stmt Instr) :=
  [.ifElse
    (signedBy config.delivererPubkey ++
      [num 0, op .txOutputSpk, op .txInputIndex, op .txInputSpk, op .equalVerify] ++
      outputAmountIs 0 config.remainder ++ outputSpkIs 1 config.sellerSpk ++ outputCountIs 2)
    (.ifElse (signedBy config.arbiterPubkey) (after config.pickupDeadline) ::
      outputSpkIs 0 config.buyerSpk ++ outputCountIs 1)]

def stateZeroProgram (config : StateZeroConfig) : List (Stmt Instr) :=
  [op .dup, num config.total, op .equal,
    .ifElse (op .drop :: pickupOrRefundProgram config) (stateOneProgram config.stateOne)]

/-- The whole script: the amount of the own input is on the stack before the states are told apart. -/
def shipEscrowProgram (salt : FixedBytes 8) (config : StateZeroConfig) : List (Stmt Instr) :=
  [data salt.val, op .drop, op .txInputIndex, op .txInputAmount] ++ stateZeroProgram config

theorem pushable_p2pk (key : FixedBytes 32) : Pushable (p2pkScriptPublicKey key) :=
  pushable_of_le (n := 36) (by simp [p2pkScriptPublicKey, key.property]) (by decide)

/-- The bytes of the builder are this program, for the tranches the builder computes. -/
theorem tokenize_shipEscrowScript {request : ShippingEscrowScriptRequest} {script : Bytes}
    (h : buildShipEscrowScript request = .ok script) :
    ∃ tranches, ShippingEscrowTranches.new request.productSompi request.feeSompi = .ok tranches ∧
      tokenize script = some (flattenAll
        (shipEscrowProgram request.salt (stateZeroConfig request tranches))) := by
  unfold buildShipEscrowScript at h
  cases ht : ShippingEscrowTranches.new request.productSompi request.feeSompi with
  | error e => rw [ht] at h; cases h
  | ok tranches =>
    rw [ht] at h
    obtain rfl := Except.ok.inj h
    refine ⟨tranches, rfl, ?_⟩
    unfold StateZero.appendDispatch StateOne.appendDispatch StateZero.appendPickupOrRefund
      StateOne.appendDeliveryOrRefund
    have hp := pushable_p2pk
    simp [stateZeroConfig, shipEscrowProgram, stateZeroProgram, stateOneProgram,
      pickupOrRefundProgram, deliveryOrRefundProgram, signedBy, after, outputSpkIs, outputAmountIs,
      outputCountIs, StateZeroConfig.stateOne, hp]

end KaspaPortal.Contract.ShippingEscrow
