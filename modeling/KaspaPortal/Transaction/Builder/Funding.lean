import KaspaPortal.Transaction.Builder.Covenant

/-!
# What the covenant builder selects

A listed selection is the UTXOs at the listed indices; an automatic one is the shortest prefix
that covers the amount and the fee of that many inputs.
-/
namespace KaspaPortal.Transaction.CovenantBuilder
open Lib Primitives

/-- The markup on the compute mass of a deposit with `count` funding inputs, in sompi. -/
def DepositFeePolicy.estimate (policy : DepositFeePolicy) (count : Nat) : Nat :=
  max (115 * (824 + 1115 * count + policy.payloadLen.toNat + if policy.tagGenesis then 32 else 0))
    100000

theorem DepositFeePolicy.calculate_toNat {policy : DepositFeePolicy} {count fee : UInt64}
    (h : policy.calculate count = .ok fee) : fee.toNat = policy.estimate count.toNat := by
  obtain ⟨inputCount, hcount, h⟩ := bind_eq_ok.mp h
  obtain ⟨p2pkBytes, hp2pk, h⟩ := bind_eq_ok.mp h
  obtain ⟨p2shInputBytes, hp2sh, h⟩ := bind_eq_ok.mp h
  obtain ⟨covenantOutputBytes, hcovenant, h⟩ := bind_eq_ok.mp h
  obtain ⟨estimated, hestimated, h⟩ := bind_eq_ok.mp h
  obtain ⟨sigMass, hsig, h⟩ := bind_eq_ok.mp h
  obtain ⟨compute, hcompute, h⟩ := bind_eq_ok.mp h
  obtain ⟨marked, hmarked, h⟩ := bind_eq_ok.mp h
  cases h
  simp only [okOr_eq_ok, Option.bind_eq_some_iff, Option.map_eq_some_iff, checkedAdd_eq_some,
    checkedMul_eq_some] at hcount hp2pk hcovenant hestimated hsig hcompute hmarked
  obtain ⟨b4, ⟨b3, ⟨b2, ⟨b1, ⟨b0, h0, h1⟩, h2⟩, h3⟩, h4⟩, h5⟩ := hestimated
  obtain ⟨m1, ⟨m0, hm0, hm1⟩, hm2⟩ := hcompute
  obtain ⟨scaled, ⟨priced, hpriced, hscaled⟩, rfl⟩ := hmarked
  -- There is no covenant input to price.
  simp only [UInt64.lt_irrefl, if_false, UInt64.mul_zero, UInt64.reduceToNat,
    CovenantFeeShape.BASE_TRANSACTION_BYTES, CovenantFeeShape.PER_P2PK_INPUT_BYTES,
    CovenantFeeShape.COVENANT_OUTPUT_BYTES, CovenantFeeShape.CHANGE_OUTPUT_BYTES,
    CovenantFeeShape.FRAMING_BYTES, CovenantFeeShape.SCRIPT_PUBLIC_KEY_MASS,
    CovenantFeeShape.FEE_MARKUP_PERCENT, MASS_PER_SIG_OP, MASS_PER_TX_BYTE,
    MASS_PER_SCRIPT_PUBLIC_KEY_BYTE, MIN_STANDARD_FEE_RATE_SOMPI_PER_GRAM, UInt64.reduceAdd,
    UInt64.reduceMul] at hcount hp2pk hcovenant h0 h1 h2 h3 h4 h5 hsig hm0 hm1 hm2 hpriced hscaled
  have hcovenant : covenantOutputBytes.toNat = 35 + if policy.tagGenesis then 32 else 0 := by
    rw [hcovenant]
    split
    · rfl
    · rfl
  have hscaled : scaled.toNat = 100 * (115 * (824 + 1115 * count.toNat +
      policy.payloadLen.toNat + if policy.tagGenesis then 32 else 0)) := by
    omega
  rw [toNat_max, UInt64.toNat_div, hscaled, estimate, show (100 : UInt64).toNat = 100 from rfl,
    Nat.mul_div_cancel_left _ (by decide)]
  rfl

variable {input : CovenantPlanInput} {utxos selected : List UtxoEntry}

def payloadLen (input : CovenantPlanInput) : Nat := (input.payload.map List.length).getD 0

def policyOf (input : CovenantPlanInput) : DepositFeePolicy :=
  ⟨UInt64.ofNat (payloadLen input), input.encoding.tagGenesis⟩

/-- What a deposit with `count` funding inputs pays. -/
def paid (input : CovenantPlanInput) (count : Nat) : Nat :=
  max input.fee.toNat ((policyOf input).estimate count)

def amounts (utxos : List UtxoEntry) : Nat := (utxos.map fun utxo => utxo.amount.toNat).sum

/-- The amount to send and the fee are covered. -/
def Covers (input : CovenantPlanInput) (selected : List UtxoEntry) : Prop :=
  input.sendAmount.toNat + paid input selected.length ≤ amounts selected

/-- The funding inputs: those listed, or the shortest prefix that covers the target. -/
def Funding (input : CovenantPlanInput) (utxos selected : List UtxoEntry) : Prop :=
  if parseManualIndices input.utxoIndicesCsv = [] then
    selected ≠ [] ∧ selected <+: utxos ∧ Covers input selected ∧
      ∀ shorter, shorter <+: selected → shorter ≠ [] → shorter ≠ selected → ¬ Covers input shorter
  else (parseManualIndices input.utxoIndicesCsv).map (utxos[·]?) = selected.map some

@[simp] theorem amounts_nil : amounts [] = 0 := rfl

@[simp] theorem amounts_append (first second : List UtxoEntry) :
    amounts (first ++ second) = amounts first + amounts second := by
  rw [amounts, List.map_append, List.sum_append]
  rfl

@[simp] theorem amounts_singleton (utxo : UtxoEntry) : amounts [utxo] = utxo.amount.toNat := rfl

theorem DepositFeePolicy.estimate_mono (policy : DepositFeePolicy) {count count' : Nat}
    (h : count ≤ count') : policy.estimate count ≤ policy.estimate count' := by
  rw [estimate, estimate]
  omega

/-- What a selection in progress records about its UTXOs. -/
structure Selecting (input : CovenantPlanInput) (state : SelectionResult) : Prop where
  total : state.total.toNat = amounts state.selected
  fee : state.fee.toNat =
    if state.selected = [] then input.fee.toNat else paid input state.selected.length
  target : state.target.toNat = input.sendAmount.toNat + state.fee.toNat

theorem pickIndices_spec {indices : List Nat} {picked result : List UtxoEntry × UInt64}
    (h : pickIndices utxos indices picked = .ok result) :
    ∃ listed, indices.map (utxos[·]?) = listed.map some ∧ result.1 = picked.1 ++ listed ∧
      result.2.toNat = picked.2.toNat + amounts listed := by
  induction indices generalizing picked with
  | nil =>
    cases h
    exact ⟨[], rfl, (List.append_nil _).symm, rfl⟩
  | cons index rest ih =>
    obtain ⟨utxo, hutxo, h⟩ := bind_eq_ok.mp h
    obtain ⟨total, htotal, h⟩ := bind_eq_ok.mp h
    obtain ⟨listed, hmap, hselected, hsum⟩ := ih h
    refine ⟨utxo :: listed, ?_, ?_, ?_⟩
    · rw [List.map_cons, List.map_cons, hmap, okOr_eq_ok.mp hutxo]
    · rw [hselected, List.append_assoc]
      rfl
    · rw [hsum, okOr_checkedAdd htotal, Nat.add_assoc]
      rfl

theorem selectManual_spec {indices : List Nat} {result : SelectionResult}
    (hindices : indices ≠ []) (hlen : result.selected.length < 2 ^ 64)
    (h : selectManual utxos indices input.sendAmount input.fee (policyOf input) = .ok result) :
    indices.map (utxos[·]?) = result.selected.map some ∧ Selecting input result ∧
      result.usedManualSelection = true := by
  obtain ⟨⟨selected, total⟩, hpick, h⟩ := bind_eq_ok.mp h
  obtain ⟨calculated, hcalculated, h⟩ := bind_eq_ok.mp h
  obtain ⟨target, htarget, h⟩ := bind_eq_ok.mp h
  cases h
  obtain ⟨listed, hmap, hselected, hsum⟩ := pickIndices_spec hpick
  have hsome : selected ≠ [] := by
    intro hnil
    rw [show listed = selected from hselected.symm, hnil] at hmap
    exact hindices (List.map_eq_nil_iff.mp hmap)
  have hfee : (max input.fee calculated).toNat = paid input selected.length := by
    rw [toNat_max, DepositFeePolicy.calculate_toNat hcalculated, ofNat_toNat hlen]
    rfl
  refine ⟨?_, ⟨?_, ?_, okOr_checkedAdd htarget⟩, rfl⟩
  · rw [hmap, show listed = selected from hselected.symm]
  · rw [show listed = selected from hselected.symm] at hsum
    rw [hsum]
    exact Nat.zero_add _
  · rw [if_neg hsome]
    exact hfee

theorem covers_iff {state : SelectionResult} (h : Selecting input state)
    (hsome : state.selected ≠ []) : Covers input state.selected ↔ state.target ≤ state.total := by
  rw [UInt64.le_iff_toNat_le, h.target, h.total, h.fee, if_neg hsome]
  rfl

/-- One more UTXO raises the fee to that of the longer selection. -/
theorem Selecting.next {state : SelectionResult} {utxo : UtxoEntry} {total calculated target : UInt64}
    (hstate : Selecting input state) (hlen : (state.selected ++ [utxo]).length < 2 ^ 64)
    (htotal : checkedTotal state.total utxo.amount = .ok total)
    (hcalculated : (policyOf input).calculate (UInt64.ofNat (state.selected ++ [utxo]).length) =
      .ok calculated)
    (htarget : checkedTarget input.sendAmount (max state.fee calculated) = .ok target) :
    Selecting input ⟨state.selected ++ [utxo], total, max state.fee calculated, target,
      state.usedManualSelection⟩ := by
  refine ⟨?_, ?_, okOr_checkedAdd htarget⟩
  · rw [okOr_checkedAdd htotal, hstate.total, amounts_append, amounts_singleton]
  · have hcalculated := DepositFeePolicy.calculate_toNat hcalculated
    rw [ofNat_toNat hlen] at hcalculated
    have hmono := (policyOf input).estimate_mono
      (show state.selected.length ≤ (state.selected ++ [utxo]).length by simp)
    have hfee := hstate.fee
    rw [if_neg (by simp), toNat_max, hcalculated, paid]
    change max state.fee.toNat _ = max input.fee.toNat _
    split at hfee
    · rw [hfee]
    · rw [paid] at hfee
      rw [hfee, Nat.max_assoc, Nat.max_eq_right hmono]

theorem takeUntilCovered_length {rest : List UtxoEntry} {state result : SelectionResult}
    (h : takeUntilCovered input.sendAmount (policyOf input) rest state = .ok result) :
    state.selected.length ≤ result.selected.length := by
  induction rest generalizing state with
  | nil =>
    cases h
    exact Nat.le_refl _
  | cons utxo rest ih =>
    obtain ⟨total, _, h⟩ := bind_eq_ok.mp h
    obtain ⟨calculated, _, h⟩ := bind_eq_ok.mp h
    obtain ⟨target, _, h⟩ := bind_eq_ok.mp h
    have hnext : state.selected.length ≤ (state.selected ++ [utxo]).length := by simp
    split at h
    · cases h
      exact hnext
    · exact Nat.le_trans hnext (ih h)

/-- The loop stops at the first prefix that covers the target, or at the end. -/
theorem takeUntilCovered_spec {rest : List UtxoEntry} {state result : SelectionResult}
    (hstate : Selecting input state) (hlen : result.selected.length < 2 ^ 64)
    (hshort : ∀ shorter, shorter <+: state.selected → shorter ≠ [] → ¬ Covers input shorter)
    (h : takeUntilCovered input.sendAmount (policyOf input) rest state = .ok result) :
    Selecting input result ∧ result.usedManualSelection = state.usedManualSelection ∧
      result.selected <+: state.selected ++ rest ∧
      ∀ shorter, shorter <+: result.selected → shorter ≠ [] → shorter ≠ result.selected →
        ¬ Covers input shorter := by
  induction rest generalizing state with
  | nil =>
    cases h
    rw [List.append_nil]
    exact ⟨hstate, rfl, List.prefix_refl _, fun shorter hpre hsome _ => hshort shorter hpre hsome⟩
  | cons utxo rest ih =>
    have hstep : (state.selected ++ [utxo]).length ≤ result.selected.length := by
      obtain ⟨total, _, hrest⟩ := bind_eq_ok.mp h
      obtain ⟨calculated, _, hrest⟩ := bind_eq_ok.mp hrest
      obtain ⟨target, _, hrest⟩ := bind_eq_ok.mp hrest
      split at hrest
      · cases hrest
        exact Nat.le_refl _
      · exact takeUntilCovered_length hrest
    obtain ⟨total, htotal, h⟩ := bind_eq_ok.mp h
    obtain ⟨calculated, hcalculated, h⟩ := bind_eq_ok.mp h
    obtain ⟨target, htarget, h⟩ := bind_eq_ok.mp h
    have hnext := hstate.next (Nat.lt_of_le_of_lt hstep hlen) htotal hcalculated htarget
    split at h
    case isTrue =>
      cases h
      refine ⟨hnext, rfl, ⟨rest, by simp⟩, fun shorter hpre hsome hne => ?_⟩
      obtain heq | hpre := List.prefix_concat_iff.mp hpre
      · exact absurd heq hne
      · exact hshort shorter hpre hsome
    case isFalse hshortfall =>
      have huncovered := mt (covers_iff hnext (by simp)).mp hshortfall
      obtain ⟨hselecting, hmanual, hpre, hall⟩ := ih hnext (fun shorter hpre hsome => by
        obtain heq | hpre := List.prefix_concat_iff.mp hpre
        · rw [heq]
          exact huncovered
        · exact hshort shorter hpre hsome) h
      rw [List.append_assoc] at hpre
      exact ⟨hselecting, hmanual, hpre, hall⟩

theorem Funding.unique {selected' : List UtxoEntry} (h : Funding input utxos selected)
    (h' : Funding input utxos selected') : selected = selected' := by
  rw [Funding] at h h'
  split at h
  case isTrue hauto =>
    rw [if_pos hauto] at h'
    by_contra hne
    obtain hpre | hpre := List.prefix_or_prefix_of_prefix h.2.1 h'.2.1
    · exact h'.2.2.2 selected hpre h.1 hne h.2.2.1
    · exact h.2.2.2 selected' hpre h'.1 (Ne.symm hne) h'.2.2.1
  case isFalse hmanual =>
    rw [if_neg hmanual] at h'
    exact List.map_injective_iff.mpr (Option.some_injective _) (h.symm.trans h')

/-- A selection that can be sent is the funding. -/
theorem select_spec {selection : SelectionResult} {send : UInt64}
    (hsome : selection.selected ≠ []) (hlen : selection.selected.length < 2 ^ 64)
    (h : select utxos input.sendAmount input.fee input.utxoIndicesCsv (policyOf input) = .ok selection)
    (hsend : selectedSendAmount input.sendAmount selection.total selection.fee selection.target
      selection.usedManualSelection = .ok send) :
    Funding input utxos selection.selected ∧ Selecting input selection ∧
      selection.usedManualSelection = decide (parseManualIndices input.utxoIndicesCsv ≠ []) := by
  rw [select] at h
  rw [Funding]
  split at h
  case isTrue hauto =>
    rw [if_pos hauto]
    obtain ⟨target, htarget, h⟩ := bind_eq_ok.mp h
    have hstart : Selecting input ⟨[], 0, input.fee, target, false⟩ :=
      ⟨rfl, rfl, okOr_checkedAdd htarget⟩
    obtain ⟨hselecting, hmanual, hpre, hshort⟩ := takeUntilCovered_spec hstart hlen
      (fun shorter hpre hne => absurd (List.prefix_nil.mp hpre) hne) h
    rw [hmanual, selectedSendAmount] at hsend
    rw [hmanual, hauto]
    split at hsend
    case isTrue hcovered =>
      exact ⟨⟨hsome, hpre, (covers_iff hselecting hsome).mpr hcovered, hshort⟩, hselecting, rfl⟩
    case isFalse =>
      rw [if_pos (.inr rfl)] at hsend
      cases hsend
  case isFalse hmanual =>
    rw [if_neg hmanual]
    obtain ⟨hmap, hselecting, hused⟩ := selectManual_spec hmanual hlen h
    exact ⟨hmap, hselecting, by rw [hused, decide_eq_true hmanual]⟩

/-! ## Outpoints -/

def UtxoEntry.outpoint (utxo : UtxoEntry) : Bytes × UInt32 := (utxo.txId, utxo.index)

/-- Where the outpoints of the UTXOs differ, a listing repeats one when it repeats an index. -/
theorem listed_nodup {indices : List Nat} (hutxos : (utxos.map UtxoEntry.outpoint).Nodup)
    (hlisted : indices.map (utxos[·]?) = selected.map some) :
    (selected.map UtxoEntry.outpoint).Nodup ↔ indices.Nodup := by
  have hpoints : indices.map ((utxos.map UtxoEntry.outpoint)[·]?) =
      (selected.map UtxoEntry.outpoint).map some := by
    have hmapped := congrArg (List.map (Option.map UtxoEntry.outpoint)) hlisted
    simpa [Function.comp_def] using hmapped
  rw [← List.nodup_map_iff (Option.some_injective _), ← hpoints]
  constructor
  · exact List.Nodup.of_map _
  · refine List.Nodup.map_on fun index hindex index' _ heq => ?_
    have hsome : (utxos.map UtxoEntry.outpoint)[index]? ∈
        (selected.map UtxoEntry.outpoint).map some := hpoints ▸ List.mem_map_of_mem hindex
    obtain ⟨point, _, hpoint⟩ := List.mem_map.mp hsome
    obtain ⟨hlt, _⟩ := List.getElem?_eq_some_iff.mp hpoint.symm
    exact (List.getElem?_inj hlt hutxos).mp heq

/-- The loop takes UTXOs off the front and adds up their amounts. -/
theorem takeUntilCovered_taken {sendAmount : UInt64} {policy : DepositFeePolicy}
    {rest : List UtxoEntry} {state result : SelectionResult}
    (htotal : state.total.toNat = amounts state.selected)
    (h : takeUntilCovered sendAmount policy rest state = .ok result) :
    result.total.toNat = amounts result.selected ∧
      ∃ taken, taken <+: rest ∧ result.selected = state.selected ++ taken := by
  induction rest generalizing state with
  | nil =>
    cases h
    exact ⟨htotal, [], List.nil_prefix, (List.append_nil _).symm⟩
  | cons utxo rest ih =>
    obtain ⟨total, hadd, h⟩ := bind_eq_ok.mp h
    obtain ⟨calculated, _, h⟩ := bind_eq_ok.mp h
    obtain ⟨target, _, h⟩ := bind_eq_ok.mp h
    have hnext : total.toNat = amounts (state.selected ++ [utxo]) := by
      rw [okOr_checkedAdd hadd, htotal, amounts_append, amounts_singleton]
    split at h
    · cases h
      exact ⟨hnext, [utxo], List.prefix_append [utxo] rest, rfl⟩
    · obtain ⟨hsum, taken, htaken, hselected⟩ := ih hnext h
      refine ⟨hsum, utxo :: taken, (List.prefix_cons_inj utxo).mpr htaken, ?_⟩
      rw [hselected, List.append_assoc]
      rfl

/-- What any successful selection is. -/
theorem select_selected {sendAmount requestedFee : UInt64} {csv : List Char}
    {policy : DepositFeePolicy} {result : SelectionResult}
    (h : select utxos sendAmount requestedFee csv policy = .ok result) :
    result.total.toNat = amounts result.selected ∧
      if parseManualIndices csv = [] then result.selected <+: utxos
      else (parseManualIndices csv).map (utxos[·]?) = result.selected.map some := by
  rw [select] at h
  split at h
  case isTrue hauto =>
    obtain ⟨target, _, h⟩ := bind_eq_ok.mp h
    obtain ⟨htotal, taken, htaken, hselected⟩ := takeUntilCovered_taken rfl h
    rw [if_pos hauto, hselected]
    exact ⟨hselected ▸ htotal, htaken⟩
  case isFalse hmanual =>
    obtain ⟨⟨selected, total⟩, hpick, h⟩ := bind_eq_ok.mp h
    obtain ⟨calculated, _, h⟩ := bind_eq_ok.mp h
    obtain ⟨target, _, h⟩ := bind_eq_ok.mp h
    cases h
    obtain ⟨listed, hmap, hselected, hsum⟩ := pickIndices_spec hpick
    obtain rfl : selected = listed := hselected
    rw [if_neg hmanual]
    exact ⟨hsum.trans (Nat.zero_add _), hmap⟩

end KaspaPortal.Transaction.CovenantBuilder
