import KaspaPortal.Transaction.Consensus
import KaspaPortal.Transaction.Mass
import KaspaPortal.Transaction.Pskt.Verified

/-!
# Transaction mass and fee analysis

`src/transaction/interchange/pskt/pipeline/consensus.rs` and `analyze_verified` of
`src/transaction/mass.rs`. The storage mass stands beside the transaction it was computed for.

The document the analysis is taken from has been verified before; here it is a transaction
with its spent outputs.
-/
namespace KaspaPortal.Transaction
open Lib Primitives Pskt

def TRANSIENT_BYTE_TO_MASS_FACTOR : UInt64 := 4
def MAX_COMPUTE_MASS : UInt64 := 500000
def MAX_TRANSIENT_MASS : UInt64 := 1000000

/-! ## The transaction to broadcast -/

/-- `storage_mass_for`: of each spent output its amount, script length and covenant. -/
def storageMassFor (inputs : List (UInt64 × Nat × Bool)) (outputs : List ConsensusOutput) :
    Except String UInt64 :=
  storageMassEstimate (inputs.map fun spent => (spent.1, utxoPlurality spent.2.1 spent.2.2))
    (outputs.map fun output =>
      (output.value, utxoPlurality output.spkScript.length output.covenant.isSome))

def consensusInput (input : VerifiedInput) : Except String ConsensusInput := do
  let sigScript ← input.witness.materializeSignatureScript
  return {
    prevTxId := input.previousTxId
    prevIndex := input.previousIndex
    sigScript := sigScript
    sequence := input.sequence
    sigOpCount := input.sigOpCount }

def consensusOutput (output : VerifiedOutput) : ConsensusOutput where
  value := output.amount
  spkVersion := output.scriptVersion
  spkScript := output.scriptPublicKey
  covenant := output.covenant

/-- The transaction with its storage mass. -/
def toConsensus (verified : VerifiedTransaction) : Except String (ConsensusTransaction × UInt64) := do
  let inputs ← verified.inputs.mapM consensusInput
  let outputs := verified.outputs.map consensusOutput
  let storageMass ← storageMassFor
    (verified.inputs.map fun input =>
      (input.amount, input.scriptPublicKey.length, input.hasCovenantId)) outputs
  return ({
    txVersion := verified.version
    inputs := inputs
    outputs := outputs
    locktime := verified.locktime
    subnetworkId := verified.subnetworkId
    gas := verified.gas
    payload := verified.payload }, storageMass)

def checkedTotal (amounts : List UInt64) (kind : String) : Except String UInt64 :=
  amounts.foldlM (fun total amount =>
    okOr s!"{kind} amount total overflow" (checkedAdd total amount)) 0

/-- Spent amounts minus outputs. -/
def verifiedFee (verified : VerifiedTransaction) : Except String UInt64 := do
  let spent ← checkedTotal (verified.inputs.map VerifiedInput.amount) "input"
  let created ← checkedTotal (verified.outputs.map VerifiedOutput.amount) "output"
  okOr "transaction outputs exceed inputs" (checkedSub spent created)

/-! ## Analysis -/

/-- A length as `u64::try_from` takes it. -/
def lengthU64 (length : Nat) (error : String) : Except String UInt64 :=
  if length < 2 ^ 64 then .ok (UInt64.ofNat length) else .error error

def inputSize (txVersion : UInt16) (size : UInt64) (input : ConsensusInput) :
    Except String UInt64 := do
  let sigLen ← lengthU64 input.sigScript.length "signature script length exceeds u64"
  okOr "transaction size overflow"
    (checkedAdd size (32 + 4 + 8 + sigLen + 8 + if 1 ≤ txVersion then 2 else 0))

def outputSize (size : UInt64) (output : ConsensusOutput) : Except String UInt64 := do
  let scriptLen ← lengthU64 output.spkScript.length "script length exceeds u64"
  -- A covenant binding adds its authorizing input and its id.
  let binding : UInt64 := if output.covenant.isSome then 2 + 32 else 0
  okOr "transaction size overflow" (checkedAdd size (8 + 2 + 8 + scriptLen + binding))

def estimatedSerializedSize (transaction : ConsensusTransaction) : Except String UInt64 := do
  let base : UInt64 := 2 + 8 + 8 + 8 + 20 + 8 + 32 + 8
  let size ← transaction.inputs.foldlM (inputSize transaction.txVersion) base
  let size ← transaction.outputs.foldlM outputSize size
  let payloadLen ← lengthU64 transaction.payload.length "payload length exceeds u64"
  okOr "transaction size overflow" (checkedAdd size payloadLen)

def scriptMass (total : UInt64) (output : ConsensusOutput) : Except String UInt64 := do
  let scriptLen ← lengthU64 output.spkScript.length "script length exceeds u64"
  let scriptBytes ← okOr "script mass overflow" (checkedAdd 2 scriptLen)
  let mass ← okOr "script mass overflow" (checkedMul scriptBytes MASS_PER_SCRIPT_PUBLIC_KEY_BYTE)
  okOr "script mass overflow" (checkedAdd total mass)

/-- The count is a byte, so its product with the mass cannot saturate. -/
def signatureMass (total : UInt64) (input : ConsensusInput) : Except String UInt64 :=
  okOr "signature-operation mass overflow"
    (checkedAdd total (input.sigOpCount.toUInt64 * MASS_PER_SIG_OP))

def computeMass (transaction : ConsensusTransaction) (estimatedSize : UInt64) :
    Except String UInt64 := do
  let scripts ← transaction.outputs.foldlM scriptMass 0
  let signatures ← transaction.inputs.foldlM signatureMass 0
  okOr "compute mass overflow"
    (((checkedMul estimatedSize MASS_PER_TX_BYTE).bind (checkedAdd · scripts)).bind
      (checkedAdd · signatures))

def divCeil (a b : UInt64) : UInt64 := if a % b = 0 then a / b else a / b + 1

def normalizeMass (mass referenceLimit dimensionLimit : UInt64) : Except String UInt64 :=
  okOr "mass normalization overflow" ((checkedMul mass referenceLimit).map (divCeil · dimensionLimit))

structure TransactionAnalysis where
  estimatedSerializedBytes : UInt64
  computeMass : UInt64
  transientMass : UInt64
  normalizedTransientMass : UInt64
  storageMass : UInt64
  normalizedMass : UInt64
  maximumMass : UInt64
  feeSompi : UInt64
  feeMass : UInt64
  feeRateSompiPerGram : UInt64
  minimumFeeSompi : UInt64
  recommendedFeeRateSompiPerGram : UInt64
  recommendedFeeSompi : UInt64
  computeMassValid : Bool
  transientMassValid : Bool
  storageMassValid : Bool
  massValid : Bool
  feeSufficient : Bool
  deriving DecidableEq, Repr

def analyzeVerified (verified : VerifiedTransaction) (recommendedFeeRateSompiPerGram : UInt64) :
    Except String TransactionAnalysis := do
  let (transaction, storageMass) ← toConsensus verified
  let feeSompi ← verifiedFee verified
  let estimatedSerializedBytes ← estimatedSerializedSize transaction
  let compute ← computeMass transaction estimatedSerializedBytes
  let transientMass ← okOr "transient mass overflow"
    (checkedMul estimatedSerializedBytes TRANSIENT_BYTE_TO_MASS_FACTOR)
  let normalizedTransientMass ← normalizeMass transientMass MAX_COMPUTE_MASS MAX_TRANSIENT_MASS
  let normalizedStorageMass ← normalizeMass storageMass MAX_COMPUTE_MASS MAX_STORAGE_MASS
  let feeMass := max compute normalizedTransientMass
  let minimumFeeSompi ← okOr "minimum fee overflow"
    (checkedMul feeMass MIN_STANDARD_FEE_RATE_SOMPI_PER_GRAM)
  let recommendedRate := max recommendedFeeRateSompiPerGram MIN_STANDARD_FEE_RATE_SOMPI_PER_GRAM
  let recommendedFeeSompi ← okOr "recommended fee overflow" (checkedMul feeMass recommendedRate)
  let computeMassValid := decide (compute ≤ MAX_COMPUTE_MASS)
  let transientMassValid := decide (transientMass ≤ MAX_TRANSIENT_MASS)
  let storageMassValid := decide (storageMass ≤ MAX_STORAGE_MASS)
  return {
    estimatedSerializedBytes
    computeMass := compute
    transientMass
    normalizedTransientMass
    storageMass
    normalizedMass := max (max compute normalizedTransientMass) normalizedStorageMass
    maximumMass := MAX_COMPUTE_MASS
    feeSompi
    feeMass
    feeRateSompiPerGram := if feeMass = 0 then 0 else feeSompi / feeMass
    minimumFeeSompi
    recommendedFeeRateSompiPerGram := recommendedRate
    recommendedFeeSompi
    computeMassValid
    transientMassValid
    storageMassValid
    massValid := computeMassValid && transientMassValid && storageMassValid
    feeSufficient := decide (recommendedFeeSompi ≤ feeSompi) }

/-! ## What the analysis computes -/

theorem lengthU64_toNat {length : Nat} {error : String} {value : UInt64}
    (h : lengthU64 length error = .ok value) : value.toNat = length := by
  rw [lengthU64] at h
  split at h
  case isTrue hlt =>
    rw [← Except.ok.inj h]
    exact ofNat_toNat hlt
  case isFalse => cases h

/-- Serialized bytes of an input. -/
def inputBytes (txVersion : UInt16) (input : ConsensusInput) : Nat :=
  52 + input.sigScript.length + if 1 ≤ txVersion then 2 else 0

/-- Serialized bytes of an output. -/
def outputBytes (output : ConsensusOutput) : Nat :=
  18 + output.spkScript.length + if output.covenant.isSome then 34 else 0

theorem inputSize_toNat {txVersion : UInt16} {size size' : UInt64} {input : ConsensusInput}
    (hlen : input.sigScript.length < 2 ^ 63) (h : inputSize txVersion size input = .ok size') :
    size'.toNat = size.toNat + inputBytes txVersion input := by
  obtain ⟨sigLen, hsig, h⟩ := bind_eq_ok.mp h
  have hsig := lengthU64_toNat hsig
  rw [okOr_checkedAdd h, inputBytes]
  congr 1
  split
  · simp only [UInt64.toNat_add, hsig, UInt64.reduceToNat]
    omega
  · simp only [UInt64.toNat_add, hsig, UInt64.reduceToNat]
    omega

theorem outputSize_toNat {size size' : UInt64} {output : ConsensusOutput}
    (hlen : output.spkScript.length < 2 ^ 63) (h : outputSize size output = .ok size') :
    size'.toNat = size.toNat + outputBytes output := by
  obtain ⟨scriptLen, hscript, h⟩ := bind_eq_ok.mp h
  have hscript := lengthU64_toNat hscript
  rw [okOr_checkedAdd h, outputBytes]
  congr 1
  split
  · simp only [UInt64.toNat_add, hscript, UInt64.reduceToNat]
    omega
  · simp only [UInt64.toNat_add, hscript, UInt64.reduceToNat]
    omega

theorem estimatedSerializedSize_toNat {tx : ConsensusTransaction} {size : UInt64}
    (hinputs : ∀ input ∈ tx.inputs, input.sigScript.length < 2 ^ 63)
    (houtputs : ∀ output ∈ tx.outputs, output.spkScript.length < 2 ^ 63)
    (h : estimatedSerializedSize tx = .ok size) :
    size.toNat = 94 + (tx.inputs.map (inputBytes tx.txVersion)).sum +
      (tx.outputs.map outputBytes).sum + tx.payload.length := by
  obtain ⟨afterInputs, hin, h⟩ := bind_eq_ok.mp h
  obtain ⟨afterOutputs, hout, h⟩ := bind_eq_ok.mp h
  obtain ⟨payloadLen, hpayload, h⟩ := bind_eq_ok.mp h
  have hin : afterInputs.toNat = 94 + (tx.inputs.map (inputBytes tx.txVersion)).sum := by
    refine foldlM_weight ?_ hin
    intro input hmem size size' hstep
    exact inputSize_toNat (hinputs input hmem) hstep
  have hout : afterOutputs.toNat = afterInputs.toNat + (tx.outputs.map outputBytes).sum := by
    refine foldlM_weight ?_ hout
    intro output hmem size size' hstep
    exact outputSize_toNat (houtputs output hmem) hstep
  rw [okOr_checkedAdd h, lengthU64_toNat hpayload, hout, hin]

theorem scriptMass_toNat {total total' : UInt64} {output : ConsensusOutput}
    (h : scriptMass total output = .ok total') :
    total'.toNat = total.toNat + 10 * (2 + output.spkScript.length) := by
  obtain ⟨scriptLen, hscript, h⟩ := bind_eq_ok.mp h
  obtain ⟨scriptBytes, hbytes, h⟩ := bind_eq_ok.mp h
  obtain ⟨mass, hmass, h⟩ := bind_eq_ok.mp h
  rw [okOr_checkedAdd h, okOr_checkedMul hmass, okOr_checkedAdd hbytes, lengthU64_toNat hscript,
    Nat.mul_comm]
  rfl

theorem signatureMass_toNat {total total' : UInt64} {input : ConsensusInput}
    (h : signatureMass total input = .ok total') :
    total'.toNat = total.toNat + 1000 * input.sigOpCount.toNat := by
  have hcount := input.sigOpCount.toNat_lt
  rw [okOr_checkedAdd h, UInt64.toNat_mul, UInt8.toNat_toUInt64,
    show MASS_PER_SIG_OP.toNat = 1000 from rfl]
  omega

theorem computeMass_toNat {tx : ConsensusTransaction} {size mass : UInt64}
    (h : computeMass tx size = .ok mass) :
    mass.toNat = size.toNat + (tx.outputs.map fun output => 10 * (2 + output.spkScript.length)).sum +
      (tx.inputs.map fun input => 1000 * input.sigOpCount.toNat).sum := by
  obtain ⟨scripts, hscripts, h⟩ := bind_eq_ok.mp h
  obtain ⟨signatures, hsignatures, h⟩ := bind_eq_ok.mp h
  have hscripts : scripts.toNat =
      0 + (tx.outputs.map fun output => 10 * (2 + output.spkScript.length)).sum := by
    refine foldlM_weight ?_ hscripts
    intro output _ total total' hstep
    exact scriptMass_toNat hstep
  have hsignatures : signatures.toNat =
      0 + (tx.inputs.map fun input => 1000 * input.sigOpCount.toNat).sum := by
    refine foldlM_weight ?_ hsignatures
    intro input _ total total' hstep
    exact signatureMass_toNat hstep
  obtain ⟨withScripts, h, hadd⟩ := Option.bind_eq_some_iff.mp (okOr_eq_ok.mp h)
  obtain ⟨bytes, hbytes, hscriptsAdd⟩ := Option.bind_eq_some_iff.mp h
  rw [checkedAdd_eq_some.mp hadd, checkedAdd_eq_some.mp hscriptsAdd, checkedMul_eq_some.mp hbytes,
    hscripts, hsignatures]
  rw [show MASS_PER_TX_BYTE.toNat = 1 from rfl, Nat.mul_one, Nat.zero_add, Nat.zero_add]

/-- The transient mass of a byte weighs two grams of compute mass. -/
theorem normalizeMass_transient {size transient normalized : UInt64}
    (htransient : transient.toNat = size.toNat * 4)
    (h : normalizeMass transient MAX_COMPUTE_MASS MAX_TRANSIENT_MASS = .ok normalized) :
    normalized.toNat = 2 * size.toNat := by
  obtain ⟨product, hproduct, hceil⟩ := Option.map_eq_some_iff.mp (okOr_eq_ok.mp h)
  have hproduct := checkedMul_eq_some.mp hproduct
  rw [htransient, show MAX_COMPUTE_MASS.toNat = 500000 from rfl] at hproduct
  have hlimit : MAX_TRANSIENT_MASS.toNat = 1000000 := rfl
  have hmod : product % MAX_TRANSIENT_MASS = 0 := by
    rw [← UInt64.toNat_inj, UInt64.toNat_mod, hlimit, hproduct]
    exact Nat.mod_eq_zero_of_dvd ⟨2 * size.toNat, by ring⟩
  rw [← hceil, divCeil, if_pos hmod, UInt64.toNat_div, hlimit, hproduct]
  omega

/-- What each mass and fee of an analysis is computed from. -/
theorem analyzeVerified_spec {tx : VerifiedTransaction} {rate : UInt64}
    {analysis : TransactionAnalysis} (h : analyzeVerified tx rate = .ok analysis) :
    ∃ transaction storageMass, toConsensus tx = .ok (transaction, storageMass) ∧
      estimatedSerializedSize transaction = .ok analysis.estimatedSerializedBytes ∧
      computeMass transaction analysis.estimatedSerializedBytes = .ok analysis.computeMass ∧
      analysis.transientMass.toNat = analysis.estimatedSerializedBytes.toNat * 4 ∧
      normalizeMass analysis.transientMass MAX_COMPUTE_MASS MAX_TRANSIENT_MASS =
        .ok analysis.normalizedTransientMass ∧
      analysis.feeMass = max analysis.computeMass analysis.normalizedTransientMass ∧
      analysis.minimumFeeSompi.toNat = analysis.feeMass.toNat * 100 ∧
      analysis.recommendedFeeSompi.toNat = analysis.feeMass.toNat *
        (max rate MIN_STANDARD_FEE_RATE_SOMPI_PER_GRAM).toNat ∧
      analysis.computeMassValid = decide (analysis.computeMass ≤ MAX_COMPUTE_MASS) ∧
      analysis.transientMassValid = decide (analysis.transientMass ≤ MAX_TRANSIENT_MASS) := by
  obtain ⟨⟨transaction, storageMass⟩, htransaction, h⟩ := bind_eq_ok.mp h
  obtain ⟨fee, _, h⟩ := bind_eq_ok.mp h
  obtain ⟨size, hsize, h⟩ := bind_eq_ok.mp h
  obtain ⟨compute, hcompute, h⟩ := bind_eq_ok.mp h
  obtain ⟨transient, htransient, h⟩ := bind_eq_ok.mp h
  obtain ⟨normalized, hnormalized, h⟩ := bind_eq_ok.mp h
  obtain ⟨storage, _, h⟩ := bind_eq_ok.mp h
  obtain ⟨minimum, hminimum, h⟩ := bind_eq_ok.mp h
  obtain ⟨recommended, hrecommended, h⟩ := bind_eq_ok.mp h
  cases h
  exact ⟨transaction, storageMass, htransaction, hsize, hcompute, okOr_checkedMul htransient,
    hnormalized, rfl, okOr_checkedMul hminimum, okOr_checkedMul hrecommended, rfl, rfl⟩

/-- The minimum fee covers the compute mass and two grams for every serialized byte. -/
theorem minimumFee_toNat {tx : VerifiedTransaction} {rate : UInt64} {analysis : TransactionAnalysis}
    (h : analyzeVerified tx rate = .ok analysis) :
    ∃ transaction storageMass, toConsensus tx = .ok (transaction, storageMass) ∧
      ∃ size compute, estimatedSerializedSize transaction = .ok size ∧
        computeMass transaction size = .ok compute ∧
        analysis.minimumFeeSompi.toNat = 100 * max compute.toNat (2 * size.toNat) := by
  obtain ⟨transaction, storageMass, htransaction, hsize, hcompute, htransient, hnormalized, hmass,
    hminimum, _⟩ := analyzeVerified_spec h
  refine ⟨transaction, storageMass, htransaction, _, _, hsize, hcompute, ?_⟩
  rw [hminimum, hmass, toNat_max, normalizeMass_transient htransient hnormalized, Nat.mul_comm]

end KaspaPortal.Transaction
