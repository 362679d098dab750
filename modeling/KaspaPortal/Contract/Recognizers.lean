import KaspaPortal.Contract.Covenant.Recognize
import KaspaPortal.Contract.Merkle
import KaspaPortal.Contract.ShippingEscrow

/-!
# Families of contract scripts

The recognizers of `src/contract/commit_reveal/script.rs`, `src/contract/merkle/script.rs` and
`src/contract/shipping_escrow/terms.rs`, and all twelve families side by side.

Contracts of the source without a recognizer are not among the twelve.
-/
namespace KaspaPortal.Contract.Covenant
open Lib Primitives Contract.Script Contract.ShippingEscrow Contract.Merkle

/-- The terms of a commitment that is revealed or expires. -/
structure CommitRevealFields where
  ownerPubkey : FixedBytes 32
  committedHash : FixedBytes 32
  locktimeDaa : UInt64
  deriving DecidableEq

def CommitRevealFields.build (fields : CommitRevealFields) : Option Bytes :=
  some (buildCommitRevealScript fields.ownerPubkey fields.committedHash fields.locktimeDaa)

/-- The key, the lock and the commitment stand at fixed places. -/
def commitRevealScriptFields : Bytes → Option CommitRevealFields :=
  recognizeBy CommitRevealFields.build fun _ elements => do
    let ownerPubkey ← arrayAt 32 elements 1
    let locktimeDaa ← integerAt elements 3
    let committedHash ← arrayAt 32 elements 11
    return { ownerPubkey, committedHash, locktimeDaa }

/-- The terms of a whitelist, with its depth instead of its destinations. -/
structure MerkleWhitelistFields where
  ownerPubkey : FixedBytes 32
  merkleRoot : FixedBytes 32
  depth : UInt8
  locktimeDaa : UInt64
  deriving DecidableEq

def MerkleWhitelistFields.build (fields : MerkleWhitelistFields) : Option Bytes :=
  some (buildMerkleWhitelistScript fields.ownerPubkey fields.merkleRoot fields.depth
    fields.locktimeDaa)

/-- How many elements the script has beside its levels. -/
def FIXED_ELEMENTS : Nat := 17
/-- How many elements a level has. -/
def LAYER_ELEMENTS : Nat := 6

/-- The depth is read off the number of elements, and the root stands behind the levels. -/
def merkleWhitelistScriptFields : Bytes → Option MerkleWhitelistFields :=
  recognizeBy MerkleWhitelistFields.build fun _ elements => do
    let rest ← if FIXED_ELEMENTS ≤ elements.length then
      some (elements.length - FIXED_ELEMENTS) else none
    let layers := rest / LAYER_ELEMENTS
    let ownerPubkey ← arrayAt 32 elements 1
    let locktimeDaa ← integerAt elements 3
    let merkleRoot ← arrayAt 32 elements (10 + layers * LAYER_ELEMENTS)
    let depth ← if layers < 256 then some (UInt8.ofNat layers) else none
    return { ownerPubkey, merkleRoot, depth, locktimeDaa }

/-- Everything `buildShipEscrowScript` is given. -/
structure ShippingEscrowTerms where
  sellerPubkey : FixedBytes 32
  delivererPubkey : FixedBytes 32
  buyerPubkey : FixedBytes 32
  arbiterPubkey : FixedBytes 32
  productSompi : UInt64
  feeSompi : UInt64
  cltv1Deadline : UInt64
  cltv2Deadline : UInt64
  salt : FixedBytes 8
  deriving DecidableEq

namespace ShippingEscrowTerms

def request (terms : ShippingEscrowTerms) : ShippingEscrowScriptRequest where
  sellerPubkey := terms.sellerPubkey
  delivererPubkey := terms.delivererPubkey
  buyerPubkey := terms.buyerPubkey
  arbiterPubkey := terms.arbiterPubkey
  productSompi := terms.productSompi
  feeSompi := terms.feeSompi
  cltv1Deadline := terms.cltv1Deadline
  cltv2Deadline := terms.cltv2Deadline
  salt := terms.salt

def build (terms : ShippingEscrowTerms) : Option Bytes :=
  (buildShipEscrowScript terms.request).toOption

end ShippingEscrowTerms

/-- `spk_pubkey`: the key of a P2PK script public key. -/
def spkPubkeyAt (elements : List Element) (index : Nat) : Option (FixedBytes 32) :=
  (elements[index]?).bind fun e => (slice e.data 3 35).bind (toArray 32)

/-- The price is what the total leaves over the fee. -/
def shipEscrowTerms : Bytes → Option ShippingEscrowTerms :=
  recognizeBy ShippingEscrowTerms.build fun _ elements => do
    let feeSompi ← integerAt elements 75
    let sellerPubkey ← spkPubkeyAt elements 23
    let delivererPubkey ← arrayAt 32 elements 10
    let buyerPubkey ← spkPubkeyAt elements 39
    let arbiterPubkey ← arrayAt 32 elements 31
    let productSompi ← (integerAt elements 5).bind fun total => checkedSub total feeSompi
    let cltv1Deadline ← integerAt elements 34
    let cltv2Deadline ← integerAt elements 61
    let salt ← arrayAt 8 elements 0
    return { sellerPubkey, delivererPubkey, buyerPubkey, arbiterPubkey, productSompi, feeSompi,
             cltv1Deadline, cltv2Deadline, salt }

/-! ## The families -/

/-- The twelve families of scripts. -/
inductive Family where
  | dms | timelockedSavings | payjoin | oracleV1 | piggyBank | globalAllowance | globalSpendingLimit
  | escrow | privateSwap | commitReveal | merkleWhitelist | shippingEscrow
  deriving DecidableEq, Repr

namespace Family

/-- The parameters of a family's builder. -/
def Fields : Family → Type
  | dms => DmsFields
  | timelockedSavings => TimelockedSavingsFields
  | payjoin => PayjoinFields
  | oracleV1 => OracleV1Fields
  | piggyBank => PiggyBankFields
  | globalAllowance => GlobalAllowanceFields
  | globalSpendingLimit => GlobalSpendingLimitFields
  | escrow => EscrowFields
  | privateSwap => PrivateSwapFields
  | commitReveal => CommitRevealFields
  | merkleWhitelist => MerkleWhitelistFields
  | shippingEscrow => ShippingEscrowTerms

/-- The script, where the builder does not report an error. -/
def build : (family : Family) → family.Fields → Option Bytes
  | dms => DmsFields.build
  | timelockedSavings => TimelockedSavingsFields.build
  | payjoin => PayjoinFields.build
  | oracleV1 => OracleV1Fields.build
  | piggyBank => PiggyBankFields.build
  | globalAllowance => GlobalAllowanceFields.build
  | globalSpendingLimit => GlobalSpendingLimitFields.build
  | escrow => EscrowFields.build
  | privateSwap => PrivateSwapFields.build
  | commitReveal => CommitRevealFields.build
  | merkleWhitelist => MerkleWhitelistFields.build
  | shippingEscrow => ShippingEscrowTerms.build

/-- The recognizer of a family. -/
def recognize : (family : Family) → Bytes → Option family.Fields
  | dms => dmsScriptFields
  | timelockedSavings => timelockedSavingsScriptFields
  | payjoin => payjoinScriptFields
  | oracleV1 => oracleV1ScriptFields
  | piggyBank => piggyBankScriptFields
  | globalAllowance => globalAllowanceScriptFields
  | globalSpendingLimit => globalSpendingLimitScriptFields
  | escrow => escrowScriptFields
  | privateSwap => privateSwapScriptFields
  | commitReveal => commitRevealScriptFields
  | merkleWhitelist => merkleWhitelistScriptFields
  | shippingEscrow => shipEscrowTerms

/-- What the builder can push: it panics on a destination that no push holds. -/
def Pushes : (family : Family) → family.Fields → Prop
  | escrow, fields => Pushable (versionedDestination fields.aliceSpk) ∧
      Pushable (versionedDestination fields.bobSpk)
  | _, _ => True

end Family

end KaspaPortal.Contract.Covenant
