import KaspaPortal.Transaction.Analysis
import Mathlib.Algebra.Order.BigOperators.Group.List

/-!
# The fee of a planned transaction

`estimate_non_contextual_fee_for_shape` of `src/transaction/mass.rs`: sizes and masses from the
counts and lengths a planner knows before anything is signed.

The shape is what the planner believes. That the built transaction has it is proved with the
builders.
-/
namespace KaspaPortal.Transaction
open Lib

/-- Final signed shape shared by every input of a planned transaction. -/
structure SignedInputShape where
  signatureScriptLen : UInt64
  sigOpCount : UInt8
  deriving DecidableEq, Repr

/-- One Schnorr signature push. -/
def SignedInputShape.P2PK : SignedInputShape where
  signatureScriptLen := 66
  sigOpCount := 1

def planOutputSize (size : UInt64) (scriptLen : Nat) : Except String UInt64 := do
  let scriptLen ← lengthU64 scriptLen "script length exceeds u64"
  let outputBytes ← okOr "transaction size overflow" (checkedAdd (8 + 2 + 8) scriptLen)
  okOr "transaction size overflow" (checkedAdd size outputBytes)

def estimatedPlanSize (signatureScriptLen : UInt64) (inputCount : Nat)
    (outputScriptLengths : List Nat) (payloadLen : Nat) : Except String UInt64 := do
  let base : UInt64 := 2 + 8 + 8 + 8 + 20 + 8 + 32 + 8
  let inputCount ← lengthU64 inputCount "input count exceeds u64"
  let payloadLen ← lengthU64 payloadLen "payload length exceeds u64"
  let inputBytes ← okOr "transaction size overflow"
    ((checkedAdd (32 + 4 + 8 + 8) signatureScriptLen).bind (checkedMul · inputCount))
  let size ← okOr "transaction size overflow"
    ((checkedAdd base payloadLen).bind (checkedAdd · inputBytes))
  outputScriptLengths.foldlM planOutputSize size

def planScriptMass (total : UInt64) (scriptLen : Nat) : Except String UInt64 := do
  let scriptLen ← lengthU64 scriptLen "script length exceeds u64"
  let scriptBytes ← okOr "script mass overflow" (checkedAdd 2 scriptLen)
  let mass ← okOr "script mass overflow" (checkedMul scriptBytes MASS_PER_SCRIPT_PUBLIC_KEY_BYTE)
  okOr "script mass overflow" (checkedAdd total mass)

/-- The fee, the compute mass and the transient mass. -/
def estimateNonContextualFeeForShape (inputShape : SignedInputShape) (inputCount : Nat)
    (outputScriptLengths : List Nat) (payloadLen : Nat) (feeRateSompiPerGram : UInt64) :
    Except String (UInt64 × UInt64 × UInt64) := do
  let estimatedSerializedBytes ←
    estimatedPlanSize inputShape.signatureScriptLen inputCount outputScriptLengths payloadLen
  let scripts ← outputScriptLengths.foldlM planScriptMass 0
  let inputCount ← lengthU64 inputCount "input count exceeds u64"
  let sigOpMass ← okOr "signature-operation mass overflow"
    ((checkedMul inputCount inputShape.sigOpCount.toUInt64).bind (checkedMul · MASS_PER_SIG_OP))
  let compute ← okOr "compute mass overflow"
    (((checkedMul estimatedSerializedBytes MASS_PER_TX_BYTE).bind (checkedAdd · scripts)).bind
      (checkedAdd · sigOpMass))
  let transient ← okOr "transient mass overflow"
    (checkedMul estimatedSerializedBytes TRANSIENT_BYTE_TO_MASS_FACTOR)
  unless compute ≤ MAX_COMPUTE_MASS ∧ transient ≤ MAX_TRANSIENT_MASS do
    throw "planned transaction exceeds Kaspa non-contextual mass limits"
  let normalizedTransient ← normalizeMass transient MAX_COMPUTE_MASS MAX_TRANSIENT_MASS
  let feeMass := max compute normalizedTransient
  let fee ← okOr "fee estimate overflow"
    (checkedMul feeMass (max feeRateSompiPerGram MIN_STANDARD_FEE_RATE_SOMPI_PER_GRAM))
  return (fee, compute, transient)

def estimateNonContextualFee (inputCount : Nat) (outputScriptLengths : List Nat) (payloadLen : Nat)
    (feeRateSompiPerGram : UInt64) : Except String (UInt64 × UInt64 × UInt64) :=
  estimateNonContextualFeeForShape .P2PK inputCount outputScriptLengths payloadLen
    feeRateSompiPerGram

/-! ## The plan and the signed transaction -/

/-- An input signed in the planned shape. -/
def SignedInputShape.Signs (shape : SignedInputShape) (input : ConsensusInput) : Prop :=
  input.sigScript.length = shape.signatureScriptLen.toNat ∧ input.sigOpCount = shape.sigOpCount

def outputScriptLengths (tx : ConsensusTransaction) : List Nat :=
  tx.outputs.map fun output => output.spkScript.length

theorem lengthU64_eq {length : Nat} {value : UInt64} (error : String) (h : value.toNat = length) :
    lengthU64 length error = .ok value := by
  have hlt := value.toNat_lt
  rw [lengthU64, if_pos (by omega), ← h, UInt64.ofNat_toNat]

theorem planOutputSize_eq {size size' : UInt64} {scriptLen : Nat}
    (h : size'.toNat = size.toNat + (18 + scriptLen)) : planOutputSize size scriptLen = .ok size' := by
  have hbound := size'.toNat_lt
  have hlen : (UInt64.ofNat scriptLen).toNat = scriptLen := ofNat_toNat (by omega)
  have hbytes : (UInt64.ofNat (18 + scriptLen)).toNat = 18 + scriptLen := ofNat_toNat (by omega)
  refine bind_eq_ok.mpr ⟨UInt64.ofNat scriptLen, lengthU64_eq _ hlen, ?_⟩
  refine bind_eq_ok.mpr ⟨UInt64.ofNat (18 + scriptLen), okOr_checkedAdd_eq _ ?_, ?_⟩
  · rw [hbytes, hlen]
    rfl
  · apply okOr_checkedAdd_eq
    rw [hbytes, h]

/-- A plan has the size of its 94 fixed bytes, its equal inputs, its outputs and its payload. -/
theorem estimatedPlanSize_eq {signatureScriptLen size : UInt64} {inputCount payloadLen : Nat}
    {scriptLengths : List Nat} (hlen : signatureScriptLen.toNat < 2 ^ 63)
    (h : size.toNat = 94 + inputCount * (52 + signatureScriptLen.toNat) +
      (scriptLengths.map (18 + ·)).sum + payloadLen) :
    estimatedPlanSize signatureScriptLen inputCount scriptLengths payloadLen = .ok size := by
  have hbound := size.toNat_lt
  have hcount : inputCount ≤ inputCount * (52 + signatureScriptLen.toNat) :=
    Nat.le_mul_of_pos_right inputCount (by omega)
  generalize hinputs : inputCount * (52 + signatureScriptLen.toNat) = inputBytes at h hcount
  have hcountNat : (UInt64.ofNat inputCount).toNat = inputCount := ofNat_toNat (by omega)
  have hpayloadNat : (UInt64.ofNat payloadLen).toNat = payloadLen := ofNat_toNat (by omega)
  have hshapeNat : (UInt64.ofNat (52 + signatureScriptLen.toNat)).toNat =
      52 + signatureScriptLen.toNat := ofNat_toNat (by omega)
  have hinputsNat : (UInt64.ofNat inputBytes).toNat = inputBytes := ofNat_toNat (by omega)
  have hbaseNat : (UInt64.ofNat (94 + payloadLen)).toNat = 94 + payloadLen :=
    ofNat_toNat (by omega)
  have hsizeNat : (UInt64.ofNat (94 + payloadLen + inputBytes)).toNat =
      94 + payloadLen + inputBytes := ofNat_toNat (by omega)
  refine bind_eq_ok.mpr ⟨UInt64.ofNat inputCount, lengthU64_eq _ hcountNat, ?_⟩
  refine bind_eq_ok.mpr ⟨UInt64.ofNat payloadLen, lengthU64_eq _ hpayloadNat, ?_⟩
  refine bind_eq_ok.mpr ⟨UInt64.ofNat inputBytes, okOr_eq_ok.mpr ?_, ?_⟩
  · apply Option.bind_eq_some_iff.mpr
    refine ⟨UInt64.ofNat (52 + signatureScriptLen.toNat), checkedAdd_eq_some.mpr ?_,
      checkedMul_eq_some.mpr ?_⟩
    · rw [hshapeNat]
      rfl
    · rw [hinputsNat, hshapeNat, hcountNat, Nat.mul_comm, hinputs]
  refine bind_eq_ok.mpr ⟨UInt64.ofNat (94 + payloadLen + inputBytes), okOr_eq_ok.mpr ?_, ?_⟩
  · apply Option.bind_eq_some_iff.mpr
    refine ⟨UInt64.ofNat (94 + payloadLen), checkedAdd_eq_some.mpr ?_, checkedAdd_eq_some.mpr ?_⟩
    · rw [hbaseNat, hpayloadNat]
      rfl
    · rw [hsizeNat, hbaseNat, hinputsNat]
  · refine @foldlM_reaches _ _ _ (18 + ·) _ _ _ (fun scriptLen _ s s' hs => planOutputSize_eq hs) ?_
    omega

/-- Serialized bytes of a plan. -/
def planBytes (shape : SignedInputShape) (inputCount : Nat) (scriptLengths : List Nat)
    (payloadLen : Nat) : Nat :=
  94 + inputCount * (52 + shape.signatureScriptLen.toNat) + (scriptLengths.map (18 + ·)).sum +
    payloadLen

/-- Compute mass of a plan. -/
def planMass (shape : SignedInputShape) (inputCount : Nat) (scriptLengths : List Nat)
    (payloadLen : Nat) : Nat :=
  planBytes shape inputCount scriptLengths payloadLen +
    (scriptLengths.map fun scriptLen => 10 * (2 + scriptLen)).sum +
    inputCount * shape.sigOpCount.toNat * 1000

theorem planOutputSize_toNat {size size' : UInt64} {scriptLen : Nat}
    (h : planOutputSize size scriptLen = .ok size') :
    size'.toNat = size.toNat + (18 + scriptLen) := by
  obtain ⟨length, hlength, h⟩ := bind_eq_ok.mp h
  obtain ⟨bytes, hbytes, h⟩ := bind_eq_ok.mp h
  rw [okOr_checkedAdd h, okOr_checkedAdd hbytes, lengthU64_toNat hlength]
  rfl

theorem planScriptMass_toNat {total total' : UInt64} {scriptLen : Nat}
    (h : planScriptMass total scriptLen = .ok total') :
    total'.toNat = total.toNat + 10 * (2 + scriptLen) := by
  obtain ⟨length, hlength, h⟩ := bind_eq_ok.mp h
  obtain ⟨scriptBytes, hbytes, h⟩ := bind_eq_ok.mp h
  obtain ⟨mass, hmass, h⟩ := bind_eq_ok.mp h
  rw [okOr_checkedAdd h, okOr_checkedMul hmass, okOr_checkedAdd hbytes, lengthU64_toNat hlength,
    Nat.mul_comm]
  rfl

theorem estimatedPlanSize_toNat {shape : SignedInputShape} {inputCount payloadLen : Nat}
    {scriptLengths : List Nat} {size : UInt64}
    (h : estimatedPlanSize shape.signatureScriptLen inputCount scriptLengths payloadLen = .ok size) :
    size.toNat = planBytes shape inputCount scriptLengths payloadLen := by
  obtain ⟨count, hcount, h⟩ := bind_eq_ok.mp h
  obtain ⟨payload, hpayload, h⟩ := bind_eq_ok.mp h
  obtain ⟨inputBytes, hinputs, h⟩ := bind_eq_ok.mp h
  obtain ⟨fixed, hfixed, h⟩ := bind_eq_ok.mp h
  obtain ⟨each, heach, hinputs⟩ := Option.bind_eq_some_iff.mp (okOr_eq_ok.mp hinputs)
  obtain ⟨base, hbase, hfixed⟩ := Option.bind_eq_some_iff.mp (okOr_eq_ok.mp hfixed)
  have houtputs : size.toNat = fixed.toNat + (scriptLengths.map (18 + ·)).sum := by
    refine foldlM_weight ?_ h
    intro scriptLen _ size size' hstep
    exact planOutputSize_toNat hstep
  have heach : each.toNat = 52 + shape.signatureScriptLen.toNat := checkedAdd_eq_some.mp heach
  have hbase : base.toNat = 94 + payload.toNat := checkedAdd_eq_some.mp hbase
  rw [houtputs, checkedAdd_eq_some.mp hfixed, hbase, checkedMul_eq_some.mp hinputs, heach,
    lengthU64_toNat hcount, lengthU64_toNat hpayload, planBytes, Nat.mul_comm]
  omega

/-- The fee of a plan is its rate for the larger of the compute mass and two grams a byte. -/
theorem estimateNonContextualFeeForShape_toNat {shape : SignedInputShape}
    {inputCount payloadLen : Nat} {scriptLengths : List Nat} {rate fee compute transient : UInt64}
    (h : estimateNonContextualFeeForShape shape inputCount scriptLengths payloadLen rate =
      .ok (fee, compute, transient)) :
    fee.toNat = max (planMass shape inputCount scriptLengths payloadLen)
        (2 * planBytes shape inputCount scriptLengths payloadLen) *
      (max rate MIN_STANDARD_FEE_RATE_SOMPI_PER_GRAM).toNat := by
  obtain ⟨size, hsize, h⟩ := bind_eq_ok.mp h
  obtain ⟨scripts, hscripts, h⟩ := bind_eq_ok.mp h
  obtain ⟨count, hcount, h⟩ := bind_eq_ok.mp h
  obtain ⟨sigOpMass, hsigOps, h⟩ := bind_eq_ok.mp h
  obtain ⟨mass, hmass, h⟩ := bind_eq_ok.mp h
  obtain ⟨bytes, hbytes, h⟩ := bind_eq_ok.mp h
  split at h
  case isFalse => cases h
  case isTrue =>
    obtain ⟨normalized, hnormalized, h⟩ := bind_eq_ok.mp h
    obtain ⟨priced, hpriced, h⟩ := bind_eq_ok.mp h
    cases h
    have hscripts : scripts.toNat =
        0 + (scriptLengths.map fun scriptLen => 10 * (2 + scriptLen)).sum := by
      refine foldlM_weight ?_ hscripts
      intro scriptLen _ total total' hstep
      exact planScriptMass_toNat hstep
    obtain ⟨ops, hops, hsigOps⟩ := Option.bind_eq_some_iff.mp (okOr_eq_ok.mp hsigOps)
    obtain ⟨withScripts, hmass, hadd⟩ := Option.bind_eq_some_iff.mp (okOr_eq_ok.mp hmass)
    obtain ⟨once, honce, hscriptsAdd⟩ := Option.bind_eq_some_iff.mp hmass
    have hmassNat : compute.toNat = planMass shape inputCount scriptLengths payloadLen := by
      rw [checkedAdd_eq_some.mp hadd, checkedAdd_eq_some.mp hscriptsAdd, checkedMul_eq_some.mp honce,
        checkedMul_eq_some.mp hsigOps, checkedMul_eq_some.mp hops, hscripts,
        estimatedPlanSize_toNat hsize, lengthU64_toNat hcount, UInt8.toNat_toUInt64,
        show MASS_PER_TX_BYTE.toNat = 1 from rfl, show MASS_PER_SIG_OP.toNat = 1000 from rfl,
        planMass, Nat.mul_one, Nat.zero_add]
    rw [okOr_checkedMul hpriced, toNat_max, hmassNat,
      normalizeMass_transient (okOr_checkedMul hbytes) hnormalized, estimatedPlanSize_toNat hsize]

section
variable {tx : ConsensusTransaction} {shape : SignedInputShape}

theorem inputBytes_planned (hversion : tx.txVersion = 0)
    (hshape : ∀ input ∈ tx.inputs, shape.Signs input) :
    (tx.inputs.map (inputBytes tx.txVersion)).sum =
      tx.inputs.length * (52 + shape.signatureScriptLen.toNat) := by
  apply sum_map_const
  intro input hmem
  rw [inputBytes, hversion, (hshape input hmem).1, if_neg (by decide), Nat.add_zero]

theorem outputBytes_planned (hplain : ∀ output ∈ tx.outputs, output.covenant = none) :
    (tx.outputs.map outputBytes).sum = ((outputScriptLengths tx).map (18 + ·)).sum := by
  rw [outputScriptLengths, List.map_map]
  congr 1
  apply List.map_congr_left
  intro output hmem
  rw [outputBytes, hplain output hmem]
  rfl

theorem signatures_planned (hshape : ∀ input ∈ tx.inputs, shape.Signs input) :
    (tx.inputs.map fun input => 1000 * input.sigOpCount.toNat).sum =
      tx.inputs.length * (1000 * shape.sigOpCount.toNat) := by
  apply sum_map_const
  intro input hmem
  rw [(hshape input hmem).2]

/-- The script masses fit, so no script is as long as a size could overflow by. -/
theorem spkScript_length_lt {mass size : UInt64} (h : computeMass tx size = .ok mass) :
    ∀ output ∈ tx.outputs, output.spkScript.length < 2 ^ 63 := by
  intro output hmem
  have hmass := computeMass_toNat h
  have hbound := mass.toNat_lt
  have hone : 10 * (2 + output.spkScript.length) ≤
      (tx.outputs.map fun output => 10 * (2 + output.spkScript.length)).sum :=
    List.le_sum_of_mem (List.mem_map.mpr ⟨output, hmem, rfl⟩)
  omega

theorem estimatedPlanSize_signed {size mass : UInt64} (hversion : tx.txVersion = 0)
    (hplain : ∀ output ∈ tx.outputs, output.covenant = none)
    (hshape : ∀ input ∈ tx.inputs, shape.Signs input)
    (hlen : shape.signatureScriptLen.toNat < 2 ^ 63)
    (hsize : estimatedSerializedSize tx = .ok size) (hmass : computeMass tx size = .ok mass) :
    estimatedPlanSize shape.signatureScriptLen tx.inputs.length (outputScriptLengths tx)
      tx.payload.length = .ok size := by
  apply estimatedPlanSize_eq hlen
  have hinputs : ∀ input ∈ tx.inputs, input.sigScript.length < 2 ^ 63 := by
    intro input hmem
    rw [(hshape input hmem).1]
    exact hlen
  rw [estimatedSerializedSize_toNat hinputs (spkScript_length_lt hmass) hsize,
    inputBytes_planned hversion hshape, outputBytes_planned hplain]

theorem planScriptMass_signed :
    (outputScriptLengths tx).foldlM planScriptMass 0 = tx.outputs.foldlM scriptMass 0 :=
  List.foldlM_map

/-- The signature operations of a plan are those of its signed inputs, counted one by one. -/
theorem sigOpMass_signed {signatures inputCount : UInt64}
    (hshape : ∀ input ∈ tx.inputs, shape.Signs input)
    (hcount : inputCount.toNat = tx.inputs.length)
    (h : tx.inputs.foldlM signatureMass 0 = .ok signatures) :
    (checkedMul inputCount shape.sigOpCount.toUInt64).bind (checkedMul · MASS_PER_SIG_OP) =
      some signatures := by
  have hsum : signatures.toNat =
      0 + (tx.inputs.map fun input => 1000 * input.sigOpCount.toNat).sum := by
    refine foldlM_weight ?_ h
    intro input _ total total' hstep
    exact signatureMass_toNat hstep
  rw [signatures_planned hshape] at hsum
  have hbound := signatures.toNat_lt
  have hops : (UInt64.ofNat (tx.inputs.length * shape.sigOpCount.toNat)).toNat =
      tx.inputs.length * shape.sigOpCount.toNat := by
    apply ofNat_toNat
    rw [Nat.mul_left_comm] at hsum
    omega
  apply Option.bind_eq_some_iff.mpr
  refine ⟨UInt64.ofNat (tx.inputs.length * shape.sigOpCount.toNat), checkedMul_eq_some.mpr ?_,
    checkedMul_eq_some.mpr ?_⟩
  · rw [hops, hcount, UInt8.toNat_toUInt64]
  · rw [hsum, hops, show MASS_PER_SIG_OP.toNat = 1000 from rfl, Nat.mul_left_comm]
    omega

end

end KaspaPortal.Transaction
