import KaspaPortal.Lib.BitSearch
import KaspaPortal.Lib.Result
import KaspaPortal.Lib.Saturating

/-!
# Storage mass and the fees of covenants

`src/transaction/builder/planning/amounts.rs` and the covenant fee estimates of
`src/transaction/mass.rs`. Amounts come with the plurality of their outputs.

The node's own mass calculator is not part of the repository.
-/
namespace KaspaPortal.Transaction
open Lib

def MASS_PER_TX_BYTE : UInt64 := 1
def MASS_PER_SCRIPT_PUBLIC_KEY_BYTE : UInt64 := 10
/-- Signature checks weigh more than bytes. -/
def MASS_PER_SIG_OP : UInt64 := 1000
/-- Storage mass is this constant over an amount: small outputs are heavy. -/
def STORAGE_MASS_C : UInt64 := 1000000000000
def MAX_STORAGE_MASS : UInt64 := 500000
def MIN_STANDARD_FEE_RATE_SOMPI_PER_GRAM : UInt64 := 100

/-- Heavier transactions are not relayed. -/
def MAX_STANDARD_MASS : UInt64 := 100000
/-- Amounts from here on are never dust. -/
def DUST_THRESHOLD : UInt64 := 20000000

/-- An amount is dust when an output of it alone would be too heavy. Zero counts as dust. -/
def isDust (amount : UInt64) : Bool :=
  if amount = 0 then true
  else if DUST_THRESHOLD ≤ amount then false
  else decide (MAX_STANDARD_MASS < STORAGE_MASS_C / amount)

/-- The sum is checked; it does not saturate. -/
def checkedRequired (amount fee : UInt64) : Except String UInt64 :=
  okOr "Amount plus fee exceeds supported monetary range" (checkedAdd amount fee)

/-- An overflow names the sum and stops. -/
def checkedSum (values : List UInt64) : Except String UInt64 :=
  values.foldlM (fun total value =>
    okOr "Amount total exceeds supported monetary range" (checkedAdd total value)) 0

/-- Storage units of 100 bytes the output fills; 63 of its bytes are fixed. -/
def utxoPlurality (scriptLen : Nat) (hasCovenantId : Bool) : UInt64 :=
  let covenantBytes := if hasCovenantId then 32 else 0
  let bytes := 63 + scriptLen + covenantBytes
  UInt64.ofNat ((bytes + 99) / 100)

/-- How many storage units the entries occupy. -/
def pluralityTotal (entries : List (UInt64 × UInt64)) (kind : String) : Except String UInt64 :=
  entries.foldlM (fun total entry =>
    okOr s!"{kind} plurality exceeds supported range" (checkedAdd total entry.2)) 0

/-- Each term is rounded down by itself. -/
def storageMassTerm (amount plurality : UInt64) (kind : String) : Except String UInt64 :=
  okOr s!"{kind} storage-mass term exceeds supported range"
    (((checkedMul STORAGE_MASS_C plurality).bind (checkedMul · plurality)).map
      fun weighted => weighted / max amount 1)

/-- The sum of the terms. -/
def harmonicMass (entries : List (UInt64 × UInt64)) (kind : String) : Except String UInt64 :=
  entries.foldlM (fun total entry => do
    let term ← storageMassTerm entry.1 entry.2 kind
    okOr s!"{kind} storage mass exceeds supported range" (checkedAdd total term)) 0

/-- With few entries on either side, the inputs are weighed harmonically like the outputs. -/
def usesRelaxedStorageMass (inputsPlurality outputsPlurality : UInt64) : Bool :=
  inputsPlurality == 1 || outputsPlurality == 1 || (inputsPlurality == 2 && outputsPlurality == 2)

/-- Otherwise by their mean amount. -/
def arithmeticInputMass (ins : List (UInt64 × UInt64)) (inputsPlurality : UInt64) :
    Except String UInt64 := do
  let inputSum ← (checkedSum (ins.map Prod.fst)).mapError
    fun _ => "Input amount total exceeds supported monetary range"
  let meanInput := max (inputSum / max inputsPlurality 1) 1
  okOr "Arithmetic input storage mass exceeds supported range"
    (checkedMul inputsPlurality (STORAGE_MASS_C / meanInput))

/-- A negative mass counts as none. -/
def storageMassEstimate (ins outs : List (UInt64 × UInt64)) : Except String UInt64 := do
  let outputsPlurality ← pluralityTotal outs "Output"
  let inputsPlurality ← pluralityTotal ins "Input"
  let harmonicOutputs ← harmonicMass outs "Output"
  let inputMass ←
    if usesRelaxedStorageMass inputsPlurality outputsPlurality then harmonicMass ins "Input"
    else arithmeticInputMass ins inputsPlurality
  return saturatingSub harmonicOutputs inputMass

/-- An amount is dust exactly when it is below 0.09999901 KAS. -/
theorem isDust_iff {amount : UInt64} : isDust amount = true ↔ amount.toNat < 9999901 := by
  have hthreshold : DUST_THRESHOLD.toNat = 20000000 := rfl
  have hquotient : (STORAGE_MASS_C / amount).toNat = 1000000000000 / amount.toNat :=
    UInt64.toNat_div _ _
  rw [isDust]
  split
  case isTrue hzero =>
    rw [hzero]
    decide
  case isFalse hzero =>
    have hpos : amount.toNat ≠ 0 := fun h => hzero (UInt64.toNat_inj.mp h)
    split
    case isTrue hlarge =>
      have hlarge := UInt64.le_iff_toNat_le.mp hlarge
      exact ⟨nofun, fun h => by omega⟩
    case isFalse hsmall =>
      rw [decide_eq_true_eq, UInt64.lt_iff_toNat_lt, hquotient,
        show MAX_STANDARD_MASS.toNat = 100000 from rfl, Nat.lt_iff_add_one_le,
        Nat.le_div_iff_mul_le (by omega)]
      omega

/-! ## The storage mass in plain numbers -/

/-- The storage mass of outputs, each of `10^12 p² / amount` grams for its plurality. -/
def harmonic (entries : List (UInt64 × UInt64)) : Nat :=
  (entries.map fun entry =>
    1000000000000 * entry.2.toNat * entry.2.toNat / max entry.1.toNat 1).sum

def pluralities (entries : List (UInt64 × UInt64)) : Nat :=
  (entries.map fun entry => entry.2.toNat).sum

/-- A payment and a change output, each of one storage unit. -/
theorem harmonic_pair (amount change : UInt64) :
    harmonic [(amount, 1), (change, 1)] =
      1000000000000 / max amount.toNat 1 + 1000000000000 / max change.toNat 1 := by
  simp only [harmonic, List.map_cons, List.map_nil, List.sum_cons, List.sum_nil,
    UInt64.toNat_one, Nat.mul_one, Nat.add_zero]

/-- A payment of one storage unit and a covenant output of two. -/
theorem harmonic_thread (withdraw rest : UInt64) :
    harmonic [(withdraw, 1), (rest, 2)] =
      1000000000000 / max withdraw.toNat 1 + 4000000000000 / max rest.toNat 1 := by
  simp only [harmonic, List.map_cons, List.map_nil, List.sum_cons, List.sum_nil, UInt64.toNat_one,
    UInt64.reduceToNat, Nat.mul_one, Nat.add_zero]

theorem pluralityTotal_toNat {entries : List (UInt64 × UInt64)} {kind : String} {total : UInt64}
    (h : pluralityTotal entries kind = .ok total) : total.toNat = pluralities entries := by
  have hsum : total.toNat = 0 + pluralities entries := by
    refine foldlM_weight ?_ h
    intro entry _ total total' hstep
    exact okOr_checkedAdd hstep
  rw [hsum, Nat.zero_add]

/-- Within range the term is the quotient of natural numbers. -/
theorem storageMassTerm_toNat {amount plurality term : UInt64} {kind : String}
    (h : storageMassTerm amount plurality kind = .ok term) :
    term.toNat =
      1000000000000 * plurality.toNat * plurality.toNat / max amount.toNat 1 := by
  obtain ⟨weighted, hweighted, hterm⟩ := Option.map_eq_some_iff.mp (okOr_eq_ok.mp h)
  obtain ⟨once, honce, htwice⟩ := Option.bind_eq_some_iff.mp hweighted
  rw [← hterm, UInt64.toNat_div, toNat_max, checkedMul_eq_some.mp htwice,
    checkedMul_eq_some.mp honce]
  rfl

/-- So is the sum of the terms, as long as nothing overflowed. -/
theorem harmonicMass_toNat {entries : List (UInt64 × UInt64)} {kind : String} {mass : UInt64}
    (h : harmonicMass entries kind = .ok mass) : mass.toNat = harmonic entries := by
  have hsum : mass.toNat = 0 + harmonic entries := by
    refine foldlM_weight ?_ h
    intro entry _ total total' hstep
    obtain ⟨term, hterm, hadd⟩ := bind_eq_ok.mp hstep
    rw [okOr_checkedAdd hadd, storageMassTerm_toNat hterm]
  rw [hsum, Nat.zero_add]

/-- An output of one storage unit weighs at most `10^12` grams. -/
theorem storageMassTerm_unit (amount : UInt64) (kind : String) :
    storageMassTerm amount 1 kind = .ok (STORAGE_MASS_C / max amount 1) := rfl

/-- Two outputs are weighed together when each of them is and the sum fits. -/
theorem harmonicMass_two {amount amount' plurality plurality' a b : UInt64} {kind : String}
    (ha : storageMassTerm amount plurality kind = .ok a)
    (hb : storageMassTerm amount' plurality' kind = .ok b) (hfits : a.toNat + b.toNat < 2 ^ 64) :
    harmonicMass [(amount, plurality), (amount', plurality')] kind =
      .ok (UInt64.ofNat (a.toNat + b.toNat)) := by
  have hzero : a.toNat = (0 : UInt64).toNat + a.toNat := (Nat.zero_add _).symm
  refine bind_eq_ok.mpr ⟨a, (bind_of_ok ha).trans (okOr_checkedAdd_eq _ hzero), ?_⟩
  refine bind_eq_ok.mpr ⟨_, ?_, rfl⟩
  exact (bind_of_ok hb).trans (okOr_checkedAdd_eq _ (ofNat_toNat hfits))

/-- A payment and a change output of one storage unit each can always be weighed. -/
theorem harmonicMass_pair (amount change : UInt64) (kind : String) :
    ∃ mass, harmonicMass [(amount, 1), (change, 1)] kind = .ok mass ∧
      mass.toNat ≤ 2000000000000 := by
  have hterm (value : UInt64) : (STORAGE_MASS_C / max value 1).toNat ≤ 1000000000000 := by
    rw [UInt64.toNat_div, show STORAGE_MASS_C.toNat = 1000000000000 from rfl]
    exact Nat.div_le_self _ _
  have hfirst := hterm amount
  have hsecond := hterm change
  refine ⟨_, harmonicMass_two (storageMassTerm_unit amount kind) (storageMassTerm_unit change kind)
    (by omega), ?_⟩
  rw [ofNat_toNat (by omega)]
  omega

/-- The storage mass that spent outputs take off: harmonic or from their mean amount. -/
def spentMass (ins : List (UInt64 × UInt64)) (outputsPlurality : Nat) : Nat :=
  let count := pluralities ins
  if count = 1 ∨ outputsPlurality = 1 ∨ count = 2 ∧ outputsPlurality = 2 then harmonic ins
  else count * (1000000000000 / max ((ins.map fun entry => entry.1.toNat).sum / max count 1) 1)

theorem usesRelaxedStorageMass_iff {inputsPlurality outputsPlurality : UInt64} :
    usesRelaxedStorageMass inputsPlurality outputsPlurality = true ↔
      inputsPlurality.toNat = 1 ∨ outputsPlurality.toNat = 1 ∨
        inputsPlurality.toNat = 2 ∧ outputsPlurality.toNat = 2 := by
  simp only [usesRelaxedStorageMass, Bool.or_eq_true, Bool.and_eq_true, beq_iff_eq,
    ← UInt64.toNat_inj, or_assoc, UInt64.reduceToNat]

/-- A checked sum is the sum. -/
theorem checkedSum_toNat {values : List UInt64} {total : UInt64} (h : checkedSum values = .ok total) :
    total.toNat = (values.map UInt64.toNat).sum := by
  have hsum : total.toNat = 0 + (values.map UInt64.toNat).sum := by
    refine foldlM_weight ?_ h
    intro value _ total total' hstep
    exact okOr_checkedAdd hstep
  rw [hsum, Nat.zero_add]

theorem arithmeticInputMass_toNat {ins : List (UInt64 × UInt64)} {count mass : UInt64}
    (h : arithmeticInputMass ins count = .ok mass) :
    mass.toNat = count.toNat *
      (1000000000000 / max ((ins.map fun entry => entry.1.toNat).sum / max count.toNat 1) 1) := by
  obtain ⟨inputSum, hinputSum, h⟩ := bind_eq_ok.mp h
  have hinputSum := checkedSum_toNat (mapError_eq_ok.mp hinputSum)
  rw [List.map_map] at hinputSum
  rw [okOr_checkedMul h, UInt64.toNat_div, toNat_max, UInt64.toNat_div, toNat_max, hinputSum]
  rfl

/-- An estimate that was given is the formula over natural numbers. -/
theorem storageMassEstimate_toNat {ins outs : List (UInt64 × UInt64)} {mass : UInt64}
    (h : storageMassEstimate ins outs = .ok mass) :
    mass.toNat = harmonic outs - spentMass ins (pluralities outs) := by
  obtain ⟨outputsPlurality, houtputs, h⟩ := bind_eq_ok.mp h
  obtain ⟨inputsPlurality, hinputs, h⟩ := bind_eq_ok.mp h
  obtain ⟨harmonicOutputs, hharmonic, h⟩ := bind_eq_ok.mp h
  have hrelaxed := @usesRelaxedStorageMass_iff inputsPlurality outputsPlurality
  rw [pluralityTotal_toNat hinputs, pluralityTotal_toNat houtputs] at hrelaxed
  split at h
  case isTrue hcase =>
    obtain ⟨inputMass, hmass, h⟩ := bind_eq_ok.mp h
    cases h
    rw [toNat_saturatingSub, harmonicMass_toNat hharmonic, harmonicMass_toNat hmass, spentMass,
      if_pos (hrelaxed.mp hcase)]
  case isFalse hcase =>
    obtain ⟨inputMass, hmass, h⟩ := bind_eq_ok.mp h
    cases h
    rw [toNat_saturatingSub, harmonicMass_toNat hharmonic, arithmeticInputMass_toNat hmass, spentMass,
      if_neg (fun hcount => hcase (hrelaxed.mpr hcount)), pluralityTotal_toNat hinputs]

/-- The storage mass of spending one output into two can always be computed. -/
theorem storageMassEstimate_single (spent amount change : UInt64) :
    ∃ mass, storageMassEstimate [(spent, 1)] [(amount, 1), (change, 1)] = .ok mass ∧
      mass.toNat ≤ 2000000000000 := by
  obtain ⟨harmonicOutputs, houtputs, hbound⟩ := harmonicMass_pair amount change "Output"
  have houtputCount : pluralityTotal [(amount, 1), (change, 1)] "Output" = .ok 2 := rfl
  have hinputCount : pluralityTotal [(spent, 1)] "Input" = .ok 1 := rfl
  have hrelaxed : usesRelaxedStorageMass 1 2 = true := rfl
  have hinput : harmonicMass [(spent, 1)] "Input" = .ok (STORAGE_MASS_C / max spent 1) := by
    have hzero : (STORAGE_MASS_C / max spent 1).toNat =
        (0 : UInt64).toNat + (STORAGE_MASS_C / max spent 1).toNat := (Nat.zero_add _).symm
    refine bind_eq_ok.mpr ⟨_, ?_, rfl⟩
    exact (bind_of_ok (storageMassTerm_unit spent "Input")).trans (okOr_checkedAdd_eq _ hzero)
  refine ⟨saturatingSub harmonicOutputs (STORAGE_MASS_C / max spent 1), ?_, ?_⟩
  · rw [storageMassEstimate, bind_of_ok houtputCount, bind_of_ok hinputCount, bind_of_ok houtputs,
      if_pos hrelaxed, bind_of_ok hinput]
    rfl
  · rw [toNat_saturatingSub]
    omega

/-- The storage mass of spending a covenant thread of `spent` sompi: `withdraw` is paid out, `rest`
goes back to the thread. An output of the thread fills two storage units, so it weighs four times
as much, and the spent one is taken off by the mean amount of its units. -/
def threadGrams (spent withdraw rest : Nat) : Nat :=
  1000000000000 / max withdraw 1 + 4000000000000 / max rest 1 -
    2 * (1000000000000 / max (spent / 2) 1)

theorem arithmeticInputMass_single (spent count : UInt64) :
    arithmeticInputMass [(spent, count)] count =
      okOr "Arithmetic input storage mass exceeds supported range"
        (checkedMul count (STORAGE_MASS_C / max (spent / max count 1) 1)) := by
  have hsum : checkedSum [spent] = .ok spent :=
    bind_eq_ok.mpr ⟨spent, okOr_checkedAdd_eq _ (Nat.zero_add _).symm, rfl⟩
  exact bind_of_ok (mapError_eq_ok.mpr hsum)

/-- The storage mass of spending a covenant thread can always be computed. -/
theorem storageMassEstimate_thread (spent withdraw rest : UInt64) :
    ∃ mass, storageMassEstimate [(spent, 2)] [(withdraw, 1), (rest, 2)] = .ok mass ∧
      mass.toNat = threadGrams spent.toNat withdraw.toNat rest.toNat := by
  have hterm (c amount : UInt64) : (c / max amount 1).toNat ≤ c.toNat := by
    rw [UInt64.toNat_div]
    exact Nat.div_le_self _ _
  have hpayout := hterm STORAGE_MASS_C withdraw
  have hrest := hterm 4000000000000 rest
  have hmean := hterm STORAGE_MASS_C (spent / 2)
  rw [show STORAGE_MASS_C.toNat = 1000000000000 from rfl] at hpayout hmean
  rw [show (4000000000000 : UInt64).toNat = 4000000000000 from rfl] at hrest
  have houtputCount : pluralityTotal [(withdraw, 1), (rest, 2)] "Output" = .ok 3 := rfl
  have hinputCount : pluralityTotal [(spent, 2)] "Input" = .ok 2 := rfl
  have hstrict : ¬ usesRelaxedStorageMass 2 3 = true := by decide
  have hweighted : (checkedMul STORAGE_MASS_C 2).bind (checkedMul · 2) = some 4000000000000 := by
    decide
  have hthread : storageMassTerm rest 2 "Output" = .ok (4000000000000 / max rest 1) := by
    rw [storageMassTerm, hweighted, Option.map_some, okOr]
  have houtputs := harmonicMass_two (storageMassTerm_unit withdraw "Output") hthread (by omega)
  have hinput : ∃ mass, arithmeticInputMass [(spent, 2)] 2 = .ok mass := by
    have htwo : (2 : UInt64).toNat = 2 := rfl
    have hcount : max (2 : UInt64) 1 = 2 := by decide
    rw [arithmeticInputMass_single, hcount]
    refine ⟨_, okOr_eq_ok.mpr (checkedMul_eq_some.mpr (ofNat_toNat ?_))⟩
    rw [htwo]
    omega
  obtain ⟨inputMass, hinput⟩ := hinput
  have hestimate : ∃ mass, storageMassEstimate [(spent, 2)] [(withdraw, 1), (rest, 2)] =
      .ok mass := by
    rw [storageMassEstimate, bind_of_ok houtputCount, bind_of_ok hinputCount, bind_of_ok houtputs,
      if_neg hstrict, bind_of_ok hinput]
    exact ⟨_, rfl⟩
  obtain ⟨mass, hmass⟩ := hestimate
  refine ⟨mass, hmass, ?_⟩
  have hspent : spentMass [(spent, 2)] 3 = 2 * (1000000000000 / max (spent.toNat / 2) 1) := by
    have hplural : pluralities [(spent, 2)] = 2 := rfl
    have hcount : ¬ ((2 : Nat) = 1 ∨ (3 : Nat) = 1 ∨ (2 : Nat) = 2 ∧ (3 : Nat) = 2) := by decide
    have hmax : max (2 : Nat) 1 = 2 := rfl
    rw [spentMass, hplural, if_neg hcount, hmax]
    rfl
  have hplural : pluralities [(withdraw, 1), (rest, 2)] = 3 := rfl
  rw [storageMassEstimate_toNat hmass, hplural, hspent, harmonic_thread, threadGrams]

/-- The transaction priced for a covenant: its funding inputs, at most one covenant input carrying
`redeemBytes`, a covenant output with its binding, a change output and a payload. -/
structure CovenantFeeShape where
  p2pkInputs : UInt64
  redeemBytes : UInt64
  payloadBytes : UInt64
  bindingBytes : UInt64
  deriving DecidableEq, Repr

namespace CovenantFeeShape

/-- The fee covers a little more than the mass asks for. -/
def FEE_MARKUP_PERCENT : UInt64 := 115
/-- No covenant spend pays less. -/
def MINIMUM_FEE : UInt64 := 100000
def BASE_TRANSACTION_BYTES : UInt64 := 46
/-- Outpoint and sequence, a signature script, and the lengths between them. -/
def PER_P2PK_INPUT_BYTES : UInt64 := 45 + 66 + 4
def P2SH_INPUT_FIXED_BYTES : UInt64 := 118
def COVENANT_OUTPUT_BYTES : UInt64 := 35
def CHANGE_OUTPUT_BYTES : UInt64 := 43
def FRAMING_BYTES : UInt64 := 10
def SCRIPT_PUBLIC_KEY_MASS : UInt64 := (35 + 34) * MASS_PER_SCRIPT_PUBLIC_KEY_BYTE

/-- Bytes first, then their mass, then the fee with its markup. -/
def calculate (shape : CovenantFeeShape) : Except String UInt64 := do
  let p2shInputs : UInt64 := if 0 < shape.redeemBytes then 1 else 0
  let inputCount ← okOr "Covenant fee input-count overflow" (checkedAdd shape.p2pkInputs p2shInputs)
  let p2pkBytes ← okOr "Covenant fee input-byte estimate overflow"
    (checkedMul shape.p2pkInputs PER_P2PK_INPUT_BYTES)
  let p2shInputBytes ← okOr "Covenant P2SH input-byte estimate overflow"
    (checkedAdd P2SH_INPUT_FIXED_BYTES shape.redeemBytes)
  let covenantOutputBytes ← okOr "Covenant fee output-byte estimate overflow"
    (checkedAdd COVENANT_OUTPUT_BYTES shape.bindingBytes)
  let estimatedTransactionBytes ← okOr "Covenant transaction-byte estimate overflow"
    (((((checkedAdd BASE_TRANSACTION_BYTES p2pkBytes).bind
      (checkedAdd · (p2shInputBytes * p2shInputs))).bind
      (checkedAdd · covenantOutputBytes)).bind
      (checkedAdd · CHANGE_OUTPUT_BYTES)).bind
      (checkedAdd · shape.payloadBytes) |>.bind (checkedAdd · FRAMING_BYTES))
  let signatureOperationMass ← okOr "Covenant signature-operation mass overflow"
    (checkedMul inputCount MASS_PER_SIG_OP)
  let computeMass ← okOr "Covenant compute-mass estimate overflow"
    (((checkedMul estimatedTransactionBytes MASS_PER_TX_BYTE).bind
      (checkedAdd · signatureOperationMass)).bind
      (checkedAdd · SCRIPT_PUBLIC_KEY_MASS))
  let fee ← okOr "Covenant fee estimate overflow"
    (((checkedMul computeMass MIN_STANDARD_FEE_RATE_SOMPI_PER_GRAM).bind
      (checkedMul · FEE_MARKUP_PERCENT)).map (· / 100))
  return max fee MINIMUM_FEE

end CovenantFeeShape

/-- A spend that pays `withdraw` out of a covenant thread and returns the rest to it. -/
structure ThreadWithdrawFee where
  threadAmount : UInt64
  withdraw : UInt64
  minimumFee : UInt64
  feeRateSompiPerGram : UInt64
  deriving DecidableEq, Repr

namespace ThreadWithdrawFee

/-- The compute mass of a thread's spend is taken as fixed. -/
def COMPUTE_MASS : UInt64 := 2500
def PAYOUT_SCRIPT_LEN : Nat := 34
def COVENANT_SCRIPT_LEN : Nat := 35

/-- What stays after the withdrawal and the fee floor, when both it and the withdrawal exist. -/
def remainder (spend : ThreadWithdrawFee) : Option UInt64 :=
  ((checkedSub spend.threadAmount spend.withdraw).bind (checkedSub · spend.minimumFee)).filter
    fun value => 0 < value && 0 < spend.withdraw

def calculate (spend : ThreadWithdrawFee) : Except String UInt64 :=
  match spend.remainder with
  | none => .ok spend.minimumFee
  | some remainder => do
    let covenant := utxoPlurality COVENANT_SCRIPT_LEN true
    let storage ← storageMassEstimate [(spend.threadAmount, covenant)]
      [(spend.withdraw, utxoPlurality PAYOUT_SCRIPT_LEN false), (remainder, covenant)]
    if MAX_STORAGE_MASS < storage then
      throw "withdrawal leaves too small a remainder (storage mass)"
    let fee ← okOr "thread withdrawal fee overflow"
      (checkedMul (max storage COMPUTE_MASS) spend.feeRateSompiPerGram)
    return max fee spend.minimumFee

/-- Whether a withdrawal still leaves an output worth returning. -/
def leavesReturn (spend : ThreadWithdrawFee) (withdraw minimumReturn : UInt64) : Bool :=
  match { spend with withdraw }.calculate with
  | .ok fee =>
    match (checkedSub spend.threadAmount withdraw).bind (checkedSub · fee) with
    | some left => minimumReturn ≤ left
    | none => false
  | .error _ => false

/-- No withdrawal is above the cap, or above what the thread can spare. -/
def ceiling (spend : ThreadWithdrawFee) (cap minimumReturn : UInt64) : UInt64 :=
  min (saturatingSub (saturatingSub spend.threadAmount minimumReturn) spend.minimumFee) cap

/-- One of the 64 steps of the search. -/
def fixBit (spend : ThreadWithdrawFee) (cap minimumReturn best : UInt64) (bit : Nat) : UInt64 :=
  let candidate := best + (1 : UInt64) <<< UInt64.ofNat bit
  if candidate ≤ spend.ceiling cap minimumReturn && spend.leavesReturn candidate minimumReturn then
    candidate
  else best

/-- From the top bit down: a bit is kept when the withdrawal with it still fits. This finds the
largest fitting amount only where a smaller one always fits too. -/
def maximumWithdraw (spend : ThreadWithdrawFee) (cap minimumReturn : UInt64) : UInt64 :=
  (List.range 64).reverse.foldl (spend.fixBit cap minimumReturn) 0

/-- The grams a withdrawal is priced by. -/
def grams (spend : ThreadWithdrawFee) : Nat :=
  threadGrams spend.threadAmount.toNat spend.withdraw.toNat
    (spend.threadAmount.toNat - spend.withdraw.toNat - spend.minimumFee.toNat)

/-- The fee of a withdrawal that leaves something after the fee floor. -/
theorem calculate_eq_ok_iff {spend : ThreadWithdrawFee} {fee : UInt64}
    (hpos : 0 < spend.withdraw.toNat)
    (hleft : spend.withdraw.toNat + spend.minimumFee.toNat < spend.threadAmount.toNat) :
    spend.calculate = .ok fee ↔ spend.grams ≤ 500000 ∧
      max spend.grams 2500 * spend.feeRateSompiPerGram.toNat < 2 ^ 64 ∧
      fee.toNat =
        max (max spend.grams 2500 * spend.feeRateSompiPerGram.toNat) spend.minimumFee.toNat := by
  have hthread := spend.threadAmount.toNat_lt
  have hrest : (UInt64.ofNat (spend.threadAmount.toNat - spend.withdraw.toNat -
      spend.minimumFee.toNat)).toNat =
        spend.threadAmount.toNat - spend.withdraw.toNat - spend.minimumFee.toNat :=
    ofNat_toNat (by omega)
  have hremainder : spend.remainder = some (UInt64.ofNat
      (spend.threadAmount.toNat - spend.withdraw.toNat - spend.minimumFee.toNat)) := by
    refine Option.filter_eq_some_iff.mpr ⟨checkedSub_bind_eq_some.mpr (by omega), ?_⟩
    rw [Bool.and_eq_true, decide_eq_true_iff, decide_eq_true_iff, UInt64.lt_iff_toNat_lt,
      UInt64.lt_iff_toNat_lt, hrest, UInt64.toNat_zero]
    omega
  obtain ⟨storage, hstorage, hgrams⟩ := storageMassEstimate_thread spend.threadAmount
    spend.withdraw (UInt64.ofNat (spend.threadAmount.toNat - spend.withdraw.toNat -
      spend.minimumFee.toNat))
  rw [hrest] at hgrams
  change storage.toNat = spend.grams at hgrams
  have hlimit : MAX_STORAGE_MASS.toNat = 500000 := rfl
  have hcompute : (max storage COMPUTE_MASS).toNat = max spend.grams 2500 := by
    rw [toNat_max, hgrams]
    rfl
  rw [calculate, hremainder]
  change (storageMassEstimate [(spend.threadAmount, 2)] [(spend.withdraw, 1), (_, 2)] >>= _) = _ ↔ _
  rw [bind_of_ok hstorage]
  split
  case isTrue hheavy =>
    rw [UInt64.lt_iff_toNat_lt, hlimit, hgrams] at hheavy
    exact ⟨nofun, fun h => absurd h.1 (Nat.not_le_of_lt hheavy)⟩
  case isFalse hlight =>
    rw [UInt64.lt_iff_toNat_lt, hlimit, hgrams] at hlight
    rw [and_iff_right (Nat.le_of_not_lt hlight), bind_eq_ok]
    constructor
    · rintro ⟨priced, hpriced, hfee⟩
      have hproduct := checkedMul_eq_some.mp (okOr_eq_ok.mp hpriced)
      rw [hcompute] at hproduct
      cases hfee
      rw [toNat_max, ← hproduct]
      exact ⟨priced.toNat_lt, rfl⟩
    · rintro ⟨hfits, hfee⟩
      have hpriced := ofNat_toNat hfits
      refine ⟨UInt64.ofNat (max spend.grams 2500 * spend.feeRateSompiPerGram.toNat),
        okOr_eq_ok.mpr (checkedMul_eq_some.mpr ?_), ?_⟩
      · rw [hcompute]
        exact hpriced
      · refine congrArg Except.ok (UInt64.toNat_inj.mp ?_)
        rw [toNat_max, hpriced, hfee]

/-- A withdrawal that leaves something after the fee floor leaves the minimum when its mass is
within the limit, its fee does not overflow and the amounts suffice. -/
theorem leavesReturn_iff {spend : ThreadWithdrawFee} {withdraw minimumReturn : UInt64}
    (hpos : 0 < withdraw.toNat)
    (hleft : withdraw.toNat + spend.minimumFee.toNat < spend.threadAmount.toNat) :
    spend.leavesReturn withdraw minimumReturn = true ↔
      { spend with withdraw }.grams ≤ 500000 ∧
      max { spend with withdraw }.grams 2500 * spend.feeRateSompiPerGram.toNat < 2 ^ 64 ∧
      withdraw.toNat + max (max { spend with withdraw }.grams 2500 *
        spend.feeRateSompiPerGram.toNat) spend.minimumFee.toNat + minimumReturn.toNat ≤
          spend.threadAmount.toNat := by
  have hpriced (fee : UInt64) :=
    @calculate_eq_ok_iff { spend with withdraw } fee hpos hleft
  dsimp only at hpriced
  rw [leavesReturn]
  split
  case h_1 fee hfee =>
    obtain ⟨hlight, hfits, hfee⟩ := (hpriced fee).mp hfee
    rw [and_iff_right hlight, and_iff_right hfits, ← hfee]
    split
    case h_1 left hrest =>
      rw [checkedSub_bind_eq_some] at hrest
      rw [decide_eq_true_iff, UInt64.le_iff_toNat_le]
      omega
    case h_2 hnone =>
      refine ⟨nofun, fun hle => ?_⟩
      have htoNat : (UInt64.ofNat (spend.threadAmount.toNat - withdraw.toNat - fee.toNat)).toNat =
          spend.threadAmount.toNat - withdraw.toNat - fee.toNat :=
        ofNat_toNat (Nat.lt_of_le_of_lt (by omega) spend.threadAmount.toNat_lt)
      have hsome : (checkedSub spend.threadAmount withdraw).bind (checkedSub · fee) = some _ :=
        checkedSub_bind_eq_some.mpr (by rw [htoNat]; omega)
      rw [hnone] at hsome
      cases hsome
  case h_2 error herror =>
    refine ⟨nofun, fun ⟨hlight, hfits, _⟩ => ?_⟩
    have hfloor := spend.minimumFee.toNat_lt
    have hfee := (hpriced (UInt64.ofNat _)).mpr
      ⟨hlight, hfits, ofNat_toNat (Nat.max_lt.mpr ⟨hfits, hfloor⟩)⟩
    rw [herror] at hfee
    cases hfee

/-- No fee is below the floor. -/
theorem minimumFee_le {spend : ThreadWithdrawFee} {fee : UInt64} (h : spend.calculate = .ok fee) :
    spend.minimumFee.toNat ≤ fee.toNat := by
  rw [calculate] at h
  split at h
  case h_1 => exact Nat.le_of_eq (congrArg UInt64.toNat (Except.ok.inj h))
  case h_2 =>
    obtain ⟨storage, _, h⟩ := bind_eq_ok.mp h
    split at h
    case isTrue => cases h
    case isFalse =>
      obtain ⟨priced, _, h⟩ := bind_eq_ok.mp h
      cases h
      rw [toNat_max]
      exact Nat.le_max_right _ _

/-- A withdrawal that leaves the minimum behind leaves the fee floor as well. -/
theorem le_of_leavesReturn {spend : ThreadWithdrawFee} {withdraw minimumReturn : UInt64}
    (h : spend.leavesReturn withdraw minimumReturn = true) :
    withdraw.toNat + spend.minimumFee.toNat + minimumReturn.toNat ≤ spend.threadAmount.toNat := by
  rw [leavesReturn] at h
  split at h
  case h_1 fee hfee =>
    have hfloor := minimumFee_le hfee
    split at h
    case h_1 left hleft =>
      obtain ⟨rest, hrest, hleft⟩ := Option.bind_eq_some_iff.mp hleft
      rw [checkedSub_eq_some] at hrest hleft
      have hreturn := UInt64.le_iff_toNat_le.mp (of_decide_eq_true h)
      change spend.minimumFee.toNat ≤ fee.toNat at hfloor
      omega
    case h_2 => cases h
  case h_2 => cases h

theorem ceiling_toNat (spend : ThreadWithdrawFee) (cap minimumReturn : UInt64) :
    (spend.ceiling cap minimumReturn).toNat =
      min (spend.threadAmount.toNat - minimumReturn.toNat - spend.minimumFee.toNat) cap.toNat := by
  rw [ceiling, toNat_min, toNat_saturatingSub, toNat_saturatingSub]

end ThreadWithdrawFee

end KaspaPortal.Transaction
