import KaspaPortal.Transaction.Analysis
import KaspaPortal.Transaction.Builder.Funding
import KaspaPortal.Transaction.Model
import Mathlib.Data.List.Dedup

/-!
# The fee of a covenant deposit and the node minimum

The builder prices the compute mass with a markup. The node also asks two grams, at the same rate,
for every serialized byte, and a long payload makes these the larger.

The node's minimum is the rule that the repository documents; other policies of a node are not
considered.
-/
namespace KaspaPortal.Transaction
open Lib Primitives Pskt

namespace CovenantBuilder

variable {input : CovenantPlanInput} {utxos selected : List UtxoEntry}

/-- The funding exceeds what is sent and paid, and no policy folds the rest into the deposit. -/
def leavesChange (input : CovenantPlanInput) (selected : List UtxoEntry) : Bool :=
  let spent := input.sendAmount.toNat + paid input selected.length
  decide (spent < amounts selected) &&
    !(input.encoding.usesTaggedGenesisPolicy && input.sendAmount == 0) &&
    !(input.dustPolicy == .foldSubKip9Change &&
      decide (parseManualIndices input.utxoIndicesCsv ≠ []) &&
      decide (amounts selected - spent < KIP9_MIN_CHANGE_SOMPI.toNat))

theorem selectedSendAmount_cases {requested total fee target send : UInt64} {manual : Bool}
    (h : selectedSendAmount requested total fee target manual = .ok send) :
    target.toNat ≤ total.toNat ∧ send.toNat = requested.toNat ∨
      total.toNat < target.toNat ∧ total.toNat = fee.toNat + send.toNat := by
  rw [selectedSendAmount] at h
  split at h
  case isTrue hcovered =>
    cases h
    exact .inl ⟨UInt64.le_iff_toNat_le.mp hcovered, rfl⟩
  case isFalse hshort =>
    rw [UInt64.le_iff_toNat_le, Nat.not_le] at hshort
    split at h
    case isTrue => cases h
    case isFalse => exact .inr ⟨hshort, checkedSub_eq_some.mp (okOr_eq_ok.mp h)⟩

theorem applyGenesisSendPolicy_cases {selected total fee send : UInt64}
    (h : applyGenesisSendPolicy input selected total fee = .ok send) :
    ((input.encoding.usesTaggedGenesisPolicy && input.sendAmount == 0) = false ∨
        total.toNat ≤ fee.toNat) ∧ send.toNat = selected.toNat ∨
      (input.encoding.usesTaggedGenesisPolicy && input.sendAmount == 0) = true ∧
        total.toNat = fee.toNat + send.toNat := by
  rw [applyGenesisSendPolicy] at h
  split at h
  case isTrue hkept =>
    cases h
    refine .inl ⟨?_, rfl⟩
    obtain hplain | hsend | hsmall := hkept
    · exact .inl (by rw [hplain, Bool.false_and])
    · exact .inl (by rw [beq_false_of_ne hsend, Bool.and_false])
    · exact .inr (UInt64.le_iff_toNat_le.mp hsmall)
  case isFalse hswept =>
    rw [not_or, not_or, Bool.not_eq_false, not_not] at hswept
    refine .inr ⟨?_, checkedSub_eq_some.mp (okOr_eq_ok.mp h)⟩
    rw [hswept.1, hswept.2.1]
    rfl

theorem applyDustPolicy_cases {policy : CovenantDustPolicy} {selected total fee send : UInt64}
    {manual : Bool} (h : applyDustPolicy policy selected total fee manual = .ok send) :
    (policy == .foldSubKip9Change && manual) = false ∧ send.toNat = selected.toNat ∨
      (policy == .foldSubKip9Change && manual) = true ∧
        ((total.toNat = selected.toNat + fee.toNat ∨
            selected.toNat + fee.toNat + KIP9_MIN_CHANGE_SOMPI.toNat ≤ total.toNat) ∧
          send.toNat = selected.toNat ∨
        total.toNat < selected.toNat + fee.toNat + KIP9_MIN_CHANGE_SOMPI.toNat ∧
          total.toNat = fee.toNat + send.toNat) := by
  rw [applyDustPolicy] at h
  split at h
  case isTrue hkept =>
    cases h
    refine .inl ⟨?_, rfl⟩
    obtain hpolicy | hmanual := hkept
    · rw [beq_false_of_ne hpolicy, Bool.false_and]
    · rw [hmanual, Bool.and_false]
  case isFalse hfolds =>
    rw [not_or, not_not, Bool.not_eq_false] at hfolds
    refine .inr ⟨by rw [hfolds.1, hfolds.2]; rfl, ?_⟩
    obtain ⟨change, hchange, h⟩ := bind_eq_ok.mp h
    obtain ⟨remaining, hremaining, hchange⟩ := Option.bind_eq_some_iff.mp (okOr_eq_ok.mp hchange)
    rw [checkedSub_eq_some] at hremaining hchange
    split at h
    case isTrue hkept =>
      cases h
      rw [UInt64.le_iff_toNat_le, ← UInt64.toNat_inj, show (0 : UInt64).toNat = 0 from rfl] at hkept
      exact .inl ⟨by omega, rfl⟩
    case isFalse hsmall =>
      rw [UInt64.le_iff_toNat_le] at hsmall
      have hfolded := checkedSub_eq_some.mp (okOr_eq_ok.mp h)
      exact .inr ⟨by omega, hfolded⟩

/-- What is neither sent nor paid goes to a change output, when it is left. -/
theorem adjustedSend_spec {selection : SelectionResult} {adjusted : UInt64}
    (hsome : selection.selected ≠ []) (hselecting : Selecting input selection)
    (hmanual : selection.usedManualSelection =
      decide (parseManualIndices input.utxoIndicesCsv ≠ []))
    (h : adjustedSend input selection = .ok adjusted) :
    adjusted.toNat + selection.fee.toNat < selection.total.toNat ↔
      leavesChange input selection.selected = true := by
  obtain ⟨send, hsend, h⟩ := bind_eq_ok.mp h
  obtain ⟨genesis, hgenesis, h⟩ := bind_eq_ok.mp h
  obtain ⟨dust, hdust, h⟩ := bind_eq_ok.mp h
  obtain ⟨_, _, h⟩ := bind_eq_ok.mp h
  cases h
  have htarget := hselecting.target
  have hfee := hselecting.fee
  rw [if_neg hsome] at hfee
  have hselected := selectedSendAmount_cases hsend
  have hswept := applyGenesisSendPolicy_cases hgenesis
  have hfolded := applyDustPolicy_cases hdust
  rw [leavesChange, ← hmanual, ← hfee, ← hselecting.total, Bool.and_eq_true, Bool.and_eq_true,
    decide_eq_true_iff, Bool.not_eq_true', Bool.not_eq_true']
  generalize (input.encoding.usesTaggedGenesisPolicy && input.sendAmount == 0) = swept at *
  generalize (input.dustPolicy == .foldSubKip9Change && selection.usedManualSelection) = folds at *
  rw [Bool.and_eq_false_iff, decide_eq_false_iff_not]
  clear h hsend hgenesis hdust hselecting
  cases swept with
  | false =>
    cases folds with
    | false =>
      simp only [true_or, true_and, reduceCtorEq, false_and, or_false, and_true] at *
      omega
    | true =>
      simp only [true_or, true_and, reduceCtorEq, false_and, or_false, false_or, and_true] at *
      omega
  | true =>
    simp only [Bool.true_eq_false, false_or, true_and, and_false, false_and, iff_false,
      Nat.not_lt] at *
    omega

/-! ## The document -/

theorem addressToScriptPubkeyOn_length {addr expected script : Bytes}
    (h : addressToScriptPubkeyOn addr expected = .ok script) : script.length ≤ 35 := by
  obtain ⟨network, _, h⟩ := bind_eq_ok.mp h
  obtain ⟨_, _, h⟩ := bind_eq_ok.mp h
  obtain ⟨decoded, _, h⟩ := bind_eq_ok.mp h
  obtain ⟨payload, _, h⟩ := bind_eq_ok.mp h
  split at h
  case isTrue =>
    cases h
    simp [p2pkScript, payload.property]
  case isFalse =>
    split at h
    case isTrue =>
      cases h
      simp [p2shScript, payload.property]
    case isFalse => cases h

/-- What a prepared request fixes about its scripts and payload. -/
theorem prepareRequest_spec {request : CovenantBuildRequest}
    (h : prepareRequest request = .ok input) :
    input.covenantScript.length ≤ 35 ∧ input.changeScript.length ≤ 35 ∧
      (input.encoding = .boundGenesis → input.payload = none) := by
  obtain ⟨network, _, h⟩ := bind_eq_ok.mp h
  obtain ⟨covenantScript, hcovenant, h⟩ := bind_eq_ok.mp h
  obtain ⟨changeScript, hchange, h⟩ := bind_eq_ok.mp h
  obtain ⟨payload, hpayload, h⟩ := bind_eq_ok.mp h
  cases h
  refine ⟨addressToScriptPubkeyOn_length hcovenant, addressToScriptPubkeyOn_length hchange, ?_⟩
  intro hencoding
  change request.encoding = .boundGenesis at hencoding
  rw [hencoding] at hpayload
  exact (Except.ok.inj hpayload).symm

theorem genesisBinding_isSome {covenantId} {plan : SelectedPlan} {binding}
    (h : genesisBinding covenantId input plan = .ok binding) :
    binding.isSome = input.encoding.tagGenesis := by
  rw [genesisBinding] at h
  split at h
  case isTrue htag =>
    obtain ⟨bound, _, rfl⟩ := map_eq_ok.mp h
    exact htag.symm
  case isFalse htag =>
    cases h
    exact (Bool.not_eq_true _ ▸ htag).symm

theorem encodeDocument_spec {txVersion : UInt16} {outputs : List PskbOutput} {payload : Option Bytes}
    {document : CovenantDocument}
    (h : encodeDocument txVersion selected outputs payload = .ok document) :
    document = ⟨txVersion, selected, outputs, payload⟩ ∧ selected.length < 2 ^ 32 ∧
      (payload.map List.length).getD 0 ≤ MAX_PAYLOAD_SIZE := by
  obtain ⟨_, hpayload, h⟩ := bind_eq_ok.mp h
  obtain ⟨_, hinputs, h⟩ := bind_eq_ok.mp h
  obtain ⟨_, _, h⟩ := bind_eq_ok.mp h
  cases h
  exact ⟨rfl, Nat.not_le.mp (rejectIf_eq_ok.mp hinputs), Nat.not_lt.mp (rejectIf_eq_ok.mp hpayload)⟩

theorem encodePlan_spec {plan : SelectedPlan} {outputs : List PskbOutput}
    {binding : Option (UInt16 × FixedBytes 32)} {document : CovenantDocument}
    (hpayload : input.encoding = .boundGenesis → input.payload = none)
    (htagged : (outputs.any fun output => output.covenant.isSome) = input.encoding.tagGenesis)
    (h : encodePlan input plan outputs binding = .ok document) :
    document.inputs = plan.selected ∧ document.outputs = outputs ∧
      document.txVersion = (if input.encoding.tagGenesis then 1 else 0) ∧
      (document.payload.getD []).length = payloadLen input ∧
      payloadLen input ≤ MAX_PAYLOAD_SIZE ∧ plan.selected.length < 2 ^ 32 := by
  rw [encodePlan] at h
  split at h
  case h_1 payloadHex tagGenesis hencoding =>
    obtain ⟨payload, hsome, h⟩ := bind_eq_ok.mp h
    obtain ⟨rfl, hlen, hsize⟩ := encodeDocument_spec h
    rw [payloadLen, okOr_eq_ok.mp hsome]
    refine ⟨rfl, rfl, ?_, rfl, hsize, hlen⟩
    rw [htagged]
  case h_2 hencoding =>
    obtain ⟨_, _, h⟩ := bind_eq_ok.mp h
    obtain ⟨rfl, hlen, _⟩ := encodeDocument_spec h
    rw [payloadLen, hpayload hencoding, hencoding]
    exact ⟨rfl, rfl, rfl, rfl, Nat.zero_le _, hlen⟩

theorem plannedOutputs_spec {plan : SelectedPlan} {binding : Option (UInt16 × FixedBytes 32)}
    {outputs : List PskbOutput} (h : plannedOutputs input plan binding = .ok outputs) :
    ∃ change, outputs = ⟨plan.adjustedSend, input.covenantScript, binding⟩ ::
        (if 0 < change then [⟨change, input.changeScript, none⟩] else []) ∧
      amounts plan.selected = plan.adjustedSend.toNat + plan.fee.toNat + change.toNat := by
  obtain ⟨total, htotal, h⟩ := bind_eq_ok.mp h
  obtain ⟨change, hchange, h⟩ := bind_eq_ok.mp h
  cases h
  refine ⟨change, rfl, ?_⟩
  have htotal : total.toNat = 0 + amounts plan.selected := by
    refine foldlM_weight ?_ htotal
    intro utxo _ total total' hstep
    exact okOr_checkedAdd hstep
  obtain ⟨remaining, hremaining, hchange⟩ := Option.bind_eq_some_iff.mp (okOr_eq_ok.mp hchange)
  rw [checkedSub_eq_some] at hremaining hchange
  omega

/-- What a build hands over: the funding, the fee that was priced for it, and a document with the
covenant output and the change that is left. -/
structure Planned (input : CovenantPlanInput) (utxos : List UtxoEntry) (plan : SelectedPlan)
    (document : CovenantDocument) : Prop where
  funding : Funding input utxos plan.selected
  fee : plan.fee.toNat = paid input plan.selected.length
  inputs : document.inputs = plan.selected
  outputs : ∃ binding change, binding.isSome = input.encoding.tagGenesis ∧
    (0 < change ↔ leavesChange input plan.selected = true) ∧
    document.outputs = ⟨plan.adjustedSend, input.covenantScript, binding⟩ ::
      (if 0 < change then [⟨change, input.changeScript, none⟩] else [])
  txVersion : document.txVersion = if input.encoding.tagGenesis then 1 else 0
  payload : (document.payload.getD []).length = payloadLen input
  payload_le : payloadLen input ≤ MAX_PAYLOAD_SIZE

theorem planned {covenantId} {plan : SelectedPlan} {document : CovenantDocument}
    (hpayload : input.encoding = .boundGenesis → input.payload = none)
    (hsome : document.inputs ≠ [])
    (h : encodeFromUtxos covenantId input utxos = .ok (plan, document)) :
    Planned input (sortForDisplay utxos) plan document := by
  obtain ⟨plan', hplan, h⟩ := bind_eq_ok.mp h
  obtain ⟨binding, hbinding, h⟩ := bind_eq_ok.mp h
  obtain ⟨outputs, houtputs, h⟩ := bind_eq_ok.mp h
  obtain ⟨document', hdocument, h⟩ := bind_eq_ok.mp h
  cases h
  have hbound := genesisBinding_isSome hbinding
  obtain ⟨change, houtputs, htotal⟩ := plannedOutputs_spec houtputs
  have htagged : (outputs.any fun output => output.covenant.isSome) = input.encoding.tagGenesis := by
    rw [houtputs, ← hbound]
    split
    · simp
    · simp
  obtain ⟨hinputs, hdocOutputs, hversion, hlen, hle, hcount⟩ := encodePlan_spec hpayload htagged hdocument
  obtain ⟨selection, hselect, hplan⟩ := bind_eq_ok.mp hplan
  obtain ⟨adjusted, hadjusted, hplan⟩ := bind_eq_ok.mp hplan
  cases hplan
  rw [hinputs] at hsome
  obtain ⟨send, hsend, _⟩ := bind_eq_ok.mp hadjusted
  obtain ⟨hfunding, hselecting, hmanual⟩ :=
    select_spec hsome (Nat.lt_trans hcount (by decide)) hselect hsend
  have hfee := hselecting.fee
  rw [if_neg hsome] at hfee
  refine ⟨hfunding, hfee, hinputs, ⟨binding, change, hbound, ?_, hdocOutputs.trans houtputs⟩,
    hversion, hlen, hle⟩
  rw [← adjustedSend_spec hsome hselecting hmanual hadjusted, hselecting.total, htotal,
    UInt64.lt_iff_toNat_lt]
  exact (Nat.lt_add_right_iff_pos).symm

/-- What the builder makes of a request with inputs is planned as its checked form says. -/
theorem build_planned {covenantId} {request : CovenantBuildRequest} {plan : SelectedPlan}
    {document : CovenantDocument} (h : build covenantId request utxos = .ok (plan, document))
    (hsome : document.inputs ≠ []) :
    ∃ input, prepareRequest request = .ok input ∧ Planned input (sortForDisplay utxos) plan document := by
  obtain ⟨input, hprepare, hencode⟩ := bind_eq_ok.mp h
  obtain ⟨-, -, hpayload⟩ := prepareRequest_spec hprepare
  exact ⟨input, hprepare, planned hpayload hsome hencode⟩

/-! ## The signed transaction -/

/-- A P2PK input of the document, signed. -/
structure SignedInput (utxo : UtxoEntry) (spent : VerifiedInput) : Prop where
  outpoint : decodeHex utxo.txId = some spent.previousTxId.val ∧ spent.previousIndex = utxo.index
  amount : spent.amount = utxo.amount
  sequence : spent.sequence = 0
  sigOpCount : spent.sigOpCount = 1
  script : spent.scriptVersion = 0 ∧ spent.scriptPublicKey = utxo.scriptPublicKey
  hasCovenantId : spent.hasCovenantId = false
  witness : ∃ signature, spent.witness = .p2pk signature

/-- The verified transaction of a document whose inputs are all signed. One without inputs is never
complete. -/
structure CovenantDocument.Signed (document : CovenantDocument) (tx : VerifiedTransaction) :
    Prop where
  spends : document.inputs ≠ []
  version : tx.version = document.txVersion
  locktime : tx.locktime = 0
  subnetworkId : tx.subnetworkId.val = List.replicate 20 0
  gas : tx.gas = 0
  payload : tx.payload = document.payload.getD []
  inputs : List.Forall₂ SignedInput document.inputs tx.inputs
  outputs : tx.outputs =
    document.outputs.map fun output => ⟨output.amount, 0, output.script, output.covenant⟩

theorem pushSignature_length {signature : Signature} {push : Bytes}
    (h : pushSignature signature = .ok push) : push.length = 66 := by
  obtain ⟨_, _, h⟩ := bind_eq_ok.mp h
  cases h
  simp [signature.bytes.property]

/-- Every consensus input of a signed document carries one signature. -/
theorem consensusInputs_signed {spent : List VerifiedInput} {inputs : List ConsensusInput}
    (hsigned : List.Forall₂ SignedInput selected spent)
    (h : List.Forall₂ (fun a b => consensusInput a = .ok b) spent inputs) :
    inputs.length = selected.length ∧
      ∀ consensus ∈ inputs, consensus.sigScript.length = 66 ∧ consensus.sigOpCount = 1 := by
  induction hsigned generalizing inputs with
  | nil =>
    cases h
    exact ⟨rfl, List.forall_mem_nil _⟩
  | cons hfirst _ ih =>
    cases h with
    | cons hconsensus hrest =>
      obtain ⟨hlen, hall⟩ := ih hrest
      obtain ⟨sigScript, hscript, hconsensus⟩ := bind_eq_ok.mp hconsensus
      cases hconsensus
      obtain ⟨signature, hwitness⟩ := hfirst.witness
      rw [hwitness] at hscript
      refine ⟨by rw [List.length_cons, List.length_cons, hlen], List.forall_mem_cons.mpr ⟨?_, hall⟩⟩
      exact ⟨pushSignature_length hscript, hfirst.sigOpCount⟩

/-- Serialized bytes of the signed deposit. -/
def signedBytes (input : CovenantPlanInput) (selected : List UtxoEntry) : Nat :=
  let tagged := input.encoding.tagGenesis
  94 + selected.length * (118 + if tagged then 2 else 0) +
    (18 + input.covenantScript.length + if tagged then 34 else 0) +
    (if leavesChange input selected then 18 + input.changeScript.length else 0) + payloadLen input

/-- Compute mass of the signed deposit. -/
def signedMass (input : CovenantPlanInput) (selected : List UtxoEntry) : Nat :=
  signedBytes input selected + 10 * (2 + input.covenantScript.length) +
    (if leavesChange input selected then 10 * (2 + input.changeScript.length) else 0) +
    1000 * selected.length

/-- The markup covers the compute mass of every deposit to standard scripts. -/
theorem signedMass_le_paid (hcovenant : input.covenantScript.length ≤ 35)
    (hchange : input.changeScript.length ≤ 35)
    (hpayload : payloadLen input ≤ MAX_PAYLOAD_SIZE) (hsome : 0 < selected.length) :
    100 * signedMass input selected ≤ paid input selected.length := by
  have hlen : (UInt64.ofNat (payloadLen input)).toNat = payloadLen input :=
    ofNat_toNat (Nat.lt_of_le_of_lt hpayload (by decide))
  rw [signedMass, signedBytes, paid, DepositFeePolicy.estimate]
  simp only [policyOf, hlen]
  split
  · split
    · omega
    · omega
  · split
    · omega
    · omega

/-- The node minimum of the signed deposit. -/
theorem minimumFee_signed {plan : SelectedPlan} {document : CovenantDocument}
    {tx : VerifiedTransaction} {rate : UInt64} {analysis : TransactionAnalysis}
    (hcovenant : input.covenantScript.length ≤ 35) (hchange : input.changeScript.length ≤ 35)
    (hplanned : Planned input utxos plan document) (hsigned : document.Signed tx)
    (hanalysis : analyzeVerified tx rate = .ok analysis) :
    analysis.minimumFeeSompi.toNat =
      100 * max (signedMass input plan.selected) (2 * signedBytes input plan.selected) := by
  obtain ⟨transaction, storageMass, htransaction, size, compute, hsize, hcompute, hminimum⟩ :=
    minimumFee_toNat hanalysis
  obtain ⟨inputs, hinputs, htransaction⟩ := bind_eq_ok.mp htransaction
  obtain ⟨_, _, htransaction⟩ := bind_eq_ok.mp htransaction
  cases htransaction
  have hinputsSigned := hsigned.inputs
  rw [hplanned.inputs] at hinputsSigned
  obtain ⟨hcount, hall⟩ := consensusInputs_signed hinputsSigned (mapM_forall₂ hinputs)
  obtain ⟨binding, change, hbinding, hleft, houtputs⟩ := hplanned.outputs
  have hinputBytes : (inputs.map (inputBytes tx.version)).sum =
      plan.selected.length * (118 + if input.encoding.tagGenesis then 2 else 0) := by
    rw [← hcount]
    apply sum_map_const
    intro consensus hmem
    rw [inputBytes, (hall consensus hmem).1, hsigned.version, hplanned.txVersion]
    cases input.encoding.tagGenesis with
    | false => rfl
    | true => rfl
  have hsignatures : (inputs.map fun spent => 1000 * spent.sigOpCount.toNat).sum =
      plan.selected.length * 1000 := by
    rw [← hcount]
    apply sum_map_const
    intro consensus hmem
    rw [(hall consensus hmem).2]
    rfl
  -- `leavesChange` alone decides whether the signed transaction has a second output
  have hconsensus : tx.outputs.map consensusOutput =
      ⟨plan.adjustedSend, 0, input.covenantScript, binding⟩ ::
        if leavesChange input plan.selected then [⟨change, 0, input.changeScript, none⟩] else [] := by
    rw [hsigned.outputs, houtputs]
    by_cases hpos : 0 < change
    · rw [if_pos hpos, if_pos (hleft.mp hpos)]
      rfl
    · rw [if_neg hpos, if_neg (mt hleft.mpr hpos)]
      rfl
  have hscripts : ∀ output ∈ tx.outputs.map consensusOutput, output.spkScript.length < 2 ^ 63 := by
    rw [hconsensus]
    intro output hmem
    split at hmem
    · simp only [List.mem_cons, List.not_mem_nil, or_false] at hmem
      obtain rfl | rfl := hmem
      · exact Nat.lt_of_le_of_lt hcovenant (by decide)
      · exact Nat.lt_of_le_of_lt hchange (by decide)
    · rw [List.mem_singleton.mp hmem]
      exact Nat.lt_of_le_of_lt hcovenant (by decide)
  have hsize := estimatedSerializedSize_toNat
    (fun consensus hmem => by rw [(hall consensus hmem).1]; decide) hscripts hsize
  have hcompute := computeMass_toNat hcompute
  simp only at hsize hcompute
  rw [hinputBytes, hconsensus, hsigned.payload, hplanned.payload] at hsize
  rw [hsignatures, hconsensus] at hcompute
  -- both counts are linear once the list of outputs is known
  have hbytes : size.toNat = signedBytes input plan.selected := by
    rw [hsize, signedBytes]
    generalize leavesChange input plan.selected = leaves
    cases leaves with
    | false =>
      simp only [Bool.false_eq_true, if_false, List.map_cons, List.map_nil, List.sum_cons,
        List.sum_nil, outputBytes, hbinding]
      omega
    | true =>
      simp only [if_true, List.map_cons, List.map_nil, List.sum_cons, List.sum_nil, outputBytes,
        hbinding, Option.isSome_none, Bool.false_eq_true, if_false]
      omega
  have hmass : compute.toNat = signedMass input plan.selected := by
    rw [hcompute, hbytes, signedMass]
    generalize leavesChange input plan.selected = leaves
    cases leaves with
    | false =>
      simp only [Bool.false_eq_true, if_false, List.map_cons, List.map_nil, List.sum_cons,
        List.sum_nil]
      omega
    | true =>
      simp only [if_true, List.map_cons, List.map_nil, List.sum_cons, List.sum_nil]
      omega
  rw [hminimum, hbytes, hmass]

end CovenantBuilder

end KaspaPortal.Transaction

namespace KaspaPortal.Guarantees
open Lib Primitives Transaction Pskt CovenantBuilder Model

/-- A deposit pays the node minimum of its signed transaction exactly when the fee of its funding
covers 200 sompi for every serialized byte. -/
theorem deposit_fee {request : CovenantBuildRequest} {input : CovenantPlanInput}
    {utxos : List CovenantBuilder.UtxoEntry} {covenantId} {plan : SelectedPlan}
    {document : CovenantDocument} {tx : VerifiedTransaction} {rate : UInt64}
    {analysis : TransactionAnalysis} (hprepare : prepareRequest request = .ok input)
    (hbuild : encodeFromUtxos covenantId input utxos = .ok (plan, document))
    (hsigned : document.Signed tx) (hanalysis : analyzeVerified tx rate = .ok analysis) :
    (∃! funding, Funding input (sortForDisplay utxos) funding) ∧
      ∀ funding, Funding input (sortForDisplay utxos) funding →
        (analysis.minimumFeeSompi ≤ plan.fee ↔
          200 * signedBytes input funding ≤ paid input funding.length) := by
  obtain ⟨hcovenant, hchange, hpayload⟩ := prepareRequest_spec hprepare
  have hplanned := planned hpayload hsigned.spends hbuild
  refine ⟨⟨plan.selected, hplanned.funding, fun other h => h.unique hplanned.funding⟩, ?_⟩
  intro funding hfunding
  rw [hfunding.unique hplanned.funding, UInt64.le_iff_toNat_le,
    minimumFee_signed hcovenant hchange hplanned hsigned hanalysis, hplanned.fee]
  have hsome : 0 < plan.selected.length := by
    rw [List.length_pos_iff, ← hplanned.inputs]
    exact hsigned.spends
  have hmass := signedMass_le_paid hcovenant hchange hplanned.payload_le hsome
  omega

namespace DepositFee

/-- A deposit of one KAS with a payload of so many zero bytes. -/
def request (payloadBytes : Nat) : CovenantBuildRequest where
  receiveAddresses := [ascii "kaspa:qqqqqqqqqqqqqqqqqqqqqqqqqqqqqqqqqqqqqqqqqqqqqqqqqqqqqkx9awp4e"]
  covenantAddress := ascii "kaspa:pqqqqqqqqqqqqqqqqqqqqqqqqqqqqqqqqqqqqqqqqqqqqqqqqqqqqlmtfk4dg"
  sendAmount := 100000000
  fee := 0
  changeAddress := ascii "kaspa:qqqqqqqqqqqqqqqqqqqqqqqqqqqqqqqqqqqqqqqqqqqqqqqqqqqqqkx9awp4e"
  utxoIndicesCsv := []
  dustPolicy := .preserve
  encoding := .payload (List.replicate (2 * payloadBytes) 0x30) false

def input (payloadBytes : Nat) : CovenantPlanInput where
  sendAmount := 100000000
  fee := 0
  dustPolicy := .preserve
  utxoIndicesCsv := []
  encoding := .payload (List.replicate (2 * payloadBytes) 0x30) false
  covenantScript := p2shScript (zeros 32)
  changeScript := p2pkScript (zeros 32)
  payload := some (List.replicate payloadBytes 0)

def utxo : CovenantBuilder.UtxoEntry :=
  ⟨List.replicate 64 0x30, 0, 1000000000, p2pkScript (zeros 32), 0, none⟩

def plan (fee : UInt64) : SelectedPlan := ⟨[utxo], 100000000, fee⟩

def document (payloadBytes : Nat) (fee : UInt64) : CovenantDocument where
  txVersion := 0
  inputs := [utxo]
  outputs := [⟨100000000, p2shScript (zeros 32), none⟩,
    ⟨900000000 - fee, p2pkScript (zeros 32), none⟩]
  payload := some (List.replicate payloadBytes 0)

/-- The document with a signature in its input. -/
def signed (payloadBytes : Nat) (fee : UInt64) : VerifiedTransaction where
  version := 0
  locktime := 0
  subnetworkId := zeros 20
  gas := 0
  payload := List.replicate payloadBytes 0
  inputs := [⟨zeros 32, 0, 1000000000, 0, 1, 0, p2pkScript (zeros 32), false,
    .p2pk ⟨0, SIGHASH_ALL, zeros 64⟩⟩]
  outputs := [⟨100000000, 0, p2shScript (zeros 32), none⟩,
    ⟨900000000 - fee, 0, p2pkScript (zeros 32), none⟩]

/-- The request is prepared whatever the length of its payload. -/
theorem prepareRequest_request (payloadBytes : Nat) :
    prepareRequest (request payloadBytes) = .ok (input payloadBytes) := by
  have hnetwork : walletAddressPrefix (request 0).receiveAddresses = .ok (ascii "kaspa") := by decide
  have hcovenant : addressToScriptPubkeyOn (request 0).covenantAddress (ascii "kaspa") =
      .ok (p2shScript (zeros 32)) := by decide +kernel
  have hchange : addressToScriptPubkeyOn (request 0).changeAddress (ascii "kaspa") =
      .ok (p2pkScript (zeros 32)) := by decide +kernel
  have hdigits : decodeHex (List.replicate (2 * payloadBytes) 0x30) =
      some (List.replicate payloadBytes 0) := by
    induction payloadBytes with
    | zero => rfl
    | succ n ih =>
      rw [Nat.mul_succ, List.replicate_succ, List.replicate_succ, decodeHex, ih]
      rfl
  have hpayload : (request payloadBytes).encoding.payloadBytes =
      .ok (some (List.replicate payloadBytes 0)) := by
    change (okOr "Bad payload hex" (decodeHex _)).map some = _
    rw [hdigits]
    rfl
  exact bind_eq_ok.mpr ⟨_, hnetwork, bind_eq_ok.mpr ⟨_, hcovenant, bind_eq_ok.mpr ⟨_, hchange,
    bind_eq_ok.mpr ⟨_, hpayload, rfl⟩⟩⟩⟩

theorem document_signed (payloadBytes : Nat) (fee : UInt64) :
    (document payloadBytes fee).Signed (signed payloadBytes fee) where
  spends := by simp [document]
  version := rfl
  locktime := rfl
  subnetworkId := rfl
  gas := rfl
  payload := rfl
  inputs := List.Forall₂.cons
    ⟨⟨by decide, rfl⟩, rfl, rfl, rfl, ⟨rfl, rfl⟩, rfl, ⟨_, rfl⟩⟩ List.Forall₂.nil
  outputs := rfl

end DepositFee

open DepositFee

theorem deposit_fee_sample : ∃ analysis,
    analyzeVerified (signed 2 223215) 100 = .ok analysis ∧
      ((∃! funding, Funding (input 2) (sortForDisplay [utxo]) funding) ∧
        ∀ funding, Funding (input 2) (sortForDisplay [utxo]) funding →
          (analysis.minimumFeeSompi ≤ (plan 223215).fee ↔
            200 * signedBytes (input 2) funding ≤ paid (input 2) funding.length)) := by
  have hbuild : encodeFromUtxos (fun _ _ _ => zeros 32) (input 2) [utxo] =
      .ok (plan 223215, document 2 223215) := by
    decide
  have hok : (analyzeVerified (signed 2 223215) 100).isOk = true := by decide
  obtain ⟨analysis, hanalysis⟩ := exists_ok hok
  exact ⟨analysis, hanalysis,
    deposit_fee (prepareRequest_request 2) hbuild (document_signed 2 223215) hanalysis⟩

/-- With 2000 bytes of payload the fee stays below the node minimum. -/
theorem deposit_fee_short :
    prepareRequest (request 2000) = .ok (input 2000) ∧
      encodeFromUtxos (fun _ _ _ => zeros 32) (input 2000) [utxo] =
        .ok (plan 452985, document 2000 452985) ∧
      (document 2000 452985).Signed (signed 2000 452985) ∧
      (analyzeVerified (signed 2000 452985) 100).map TransactionAnalysis.minimumFeeSompi =
        .ok 463400 ∧
      ¬ (463400 : UInt64) ≤ (plan 452985).fee :=
  ⟨prepareRequest_request 2000, by decide +kernel, document_signed 2000 452985, by decide +kernel,
    by decide⟩

/-!
## Selections of the covenant builder

An automatic selection takes UTXOs off the front of the list. A manual one takes what the text
lists, and where the text lists an index twice its UTXO is taken and counted twice.
-/
open Lib Transaction CovenantBuilder

/-- A selection spends every outpoint once, and its total is that of the distinct UTXOs, exactly
when no index of the text stands twice. -/
theorem covenant_selection {utxos : List CovenantBuilder.UtxoEntry} {sendAmount requestedFee : UInt64}
    {csv : List Char} {policy : DepositFeePolicy} {result : SelectionResult}
    (hutxos : (utxos.map CovenantBuilder.UtxoEntry.outpoint).Nodup)
    (h : select utxos sendAmount requestedFee csv policy = .ok result) :
    (result.selected.map CovenantBuilder.UtxoEntry.outpoint).Nodup ∧
        result.total.toNat = amounts result.selected.dedup ↔
      (parseManualIndices csv).Nodup := by
  obtain ⟨htotal, hselected⟩ := select_selected h
  have hpoints : (result.selected.map CovenantBuilder.UtxoEntry.outpoint).Nodup ↔ (parseManualIndices csv).Nodup := by
    split at hselected
    case isTrue hauto =>
      have hsub := (hselected.sublist.map CovenantBuilder.UtxoEntry.outpoint).nodup hutxos
      rw [hauto]
      exact ⟨fun _ => List.nodup_nil, fun _ => hsub⟩
    case isFalse => exact listed_nodup hutxos hselected
  rw [← hpoints]
  refine ⟨And.left, fun hnodup => ⟨hnodup, ?_⟩⟩
  rw [hnodup.of_map.dedup, htotal]

namespace CovenantSelection

/-- 1 KAS under a transaction id of its own. -/
def utxo (id : UInt8) : CovenantBuilder.UtxoEntry :=
  ⟨List.replicate 32 id, 0, 100000000, List.replicate 34 0, 0, none⟩

def policy : DepositFeePolicy := ⟨0, false⟩

end CovenantSelection

open CovenantSelection

theorem covenant_selection_sample :
    ∃ result, select [utxo 1, utxo 2] 150000000 0 "0, 1".toList policy = .ok result ∧
      (result.selected.map CovenantBuilder.UtxoEntry.outpoint).Nodup := by
  have h : select [utxo 1, utxo 2] 150000000 0 "0, 1".toList policy =
      .ok ⟨[utxo 1, utxo 2], 200000000, 351210, 150351210, true⟩ := by decide
  have hindices : (parseManualIndices "0, 1".toList).Nodup := by decide
  exact ⟨_, h, ((covenant_selection (by decide) h).mpr hindices).1⟩

/-- Two distinct outpoints, one of which is listed twice. -/
theorem covenant_selection_repeated :
    ([utxo 1, utxo 2].map CovenantBuilder.UtxoEntry.outpoint).Nodup ∧
      ∃ result, select [utxo 1, utxo 2] 150000000 0 "1,1".toList policy = .ok result ∧
        result.selected = [utxo 2, utxo 2] ∧ result.total = 200000000 ∧
        ¬ (result.selected.map CovenantBuilder.UtxoEntry.outpoint).Nodup ∧
        result.total.toNat ≠ amounts result.selected.dedup := by
  have h : select [utxo 1, utxo 2] 150000000 0 "1,1".toList policy =
      .ok ⟨[utxo 2, utxo 2], 200000000, 351210, 150351210, true⟩ := by decide
  exact ⟨by decide, _, h, rfl, rfl, by decide, by decide⟩

end KaspaPortal.Guarantees
