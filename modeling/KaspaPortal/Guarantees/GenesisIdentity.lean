import KaspaPortal.Contract.Covenant.Identity
import KaspaPortal.Lib.Framing

/-!
# One id proves one genesis

What the id commits to can be read back: the ascending indices bound the number of outputs, and
every script stands behind its length. The loop over the outputs of a transaction keeps those that
are bound to the id, in order, and the one input that they name.

The hash is a parameter, and injectivity is asked of the two preimages that are compared.
-/
namespace KaspaPortal.Guarantees
open Lib Transaction Contract.Covenant

namespace GenesisIdentity

/-! ## Reading the commitment -/

/-- Scripts are slices of memory, whose lengths are 64-bit integers. -/
def Addressable (outputs : List AuthorizedOutput) : Prop :=
  ∀ output ∈ outputs, output.spkScript.length < 2 ^ 64

theorem outputs_delimit : Delimits AuthorizedOutput.committed
    (fun output => output.spkScript.length < 2 ^ 64) id := by
  intro a b ha hb r s h
  simp only [AuthorizedOutput.committed, List.append_assoc] at h
  obtain ⟨hindex, h⟩ := u32_append_inj h
  obtain ⟨hvalue, h⟩ := u64_append_inj h
  obtain ⟨hversion, h⟩ := u16_append_inj h
  obtain ⟨hscript, hrest⟩ := counted_append_inj ha hb h
  cases a
  cases b
  cases hindex
  cases hvalue
  cases hversion
  cases hscript
  exact ⟨rfl, hrest⟩

theorem ascending_pairwise {outputs : List AuthorizedOutput} (h : ascending outputs = true) :
    outputs.Pairwise fun a b => a.index < b.index := by
  apply List.isChain_iff_pairwise.mp
  induction outputs with
  | nil => exact List.IsChain.nil
  | cons first rest ih =>
    cases rest with
    | nil => exact List.IsChain.singleton first
    | cons second rest =>
      rw [ascending, Bool.and_eq_true, decide_eq_true_iff] at h
      exact List.IsChain.cons_cons h.1 (ih h.2)

/-- Ascending indices of 32 bits are at most so many. -/
theorem ascending_length {outputs : List AuthorizedOutput} (h : ascending outputs = true) :
    outputs.length < 2 ^ 64 := by
  have hnodup : (outputs.map fun output => output.index.toNat).Nodup := by
    rw [List.Nodup, List.pairwise_map]
    exact (ascending_pairwise h).imp fun hlt => Nat.ne_of_lt (UInt32.lt_iff_toNat_lt.mp hlt)
  have hrange : (outputs.map fun output => output.index.toNat) ⊆ List.range (2 ^ 32) := by
    intro index hindex
    obtain ⟨output, _, rfl⟩ := List.mem_map.mp hindex
    exact List.mem_range.mpr output.index.toNat_lt
  have hle := (List.subperm_of_subset hnodup hrange).length_le
  rw [List.length_map, List.length_range] at hle
  omega

theorem committed_inj {genesis genesis' : GenesisOutpoint} {outputs outputs' : List AuthorizedOutput}
    (hlength : outputs.length < 2 ^ 64) (hlength' : outputs'.length < 2 ^ 64)
    (haddressable : Addressable outputs) (haddressable' : Addressable outputs')
    (h : committed genesis outputs = committed genesis' outputs') :
    genesis = genesis' ∧ outputs = outputs' := by
  rw [committed, committed] at h
  obtain ⟨hid, h⟩ := fixed_append_inj h
  obtain ⟨hindex, h⟩ := u32_append_inj h
  obtain ⟨hcount, h⟩ := leBytes_append_inj (show outputs.length < 256 ^ 8 from hlength)
    (show outputs'.length < 256 ^ 8 from hlength') h
  have hrecords := outputs_delimit.flatMap_append hcount haddressable haddressable'
    (congrArg (· ++ []) h)
  rw [List.map_id, List.map_id] at hrecords
  cases genesis
  cases genesis'
  cases hid
  cases hindex
  exact ⟨rfl, hrecords.1⟩

theorem verifyGenesis_eq_ok {keyedHash : Bytes → Bytes → FixedBytes 32} {claimed : FixedBytes 32}
    {genesis : GenesisOutpoint} {outputs : List AuthorizedOutput} {u : Unit} :
    verifyGenesis keyedHash claimed genesis outputs = .ok u ↔
      outputs ≠ [] ∧ ascending outputs = true ∧ covenantId keyedHash genesis outputs = claimed := by
  rw [verifyGenesis]
  by_cases hempty : outputs = []
  · rw [if_pos hempty]
    exact ⟨fun h => (nomatch h), fun h => absurd hempty h.1⟩
  · rw [if_neg hempty]
    by_cases hordered : ascending outputs = true
    · by_cases hid : covenantId keyedHash genesis outputs = claimed
      · refine ⟨fun _ => ⟨hempty, hordered, hid⟩, fun _ => ?_⟩
        simp [hordered, hid, pure, Except.pure]
      · refine ⟨fun h => ?_, fun h => absurd h.2.2 hid⟩
        simp [hordered, hid, throw, throwThe, MonadExceptOf.throw] at h
    · refine ⟨fun h => ?_, fun h => absurd h.2.1 hordered⟩
      simp [hordered, bind, Except.bind, throw, throwThe, MonadExceptOf.throw] at h

/-! ## The loop over the outputs -/

/-- Whether an output is bound to an id. -/
def bound (claimed : FixedBytes 32) (item : ConsensusOutput × Nat) : Bool :=
  item.1.covenant.map Prod.snd = some claimed

/-- An authorized output is one of the transaction at its place. -/
structure Records (output : AuthorizedOutput) (item : ConsensusOutput × Nat) : Prop where
  index : output.index.toNat = item.2
  value : output.value = item.1.value
  spkVersion : output.spkVersion = item.1.spkVersion
  spkScript : output.spkScript = item.1.spkScript

section
variable {claimed : FixedBytes 32} {state state' : Option UInt16 × List AuthorizedOutput}

/-- An output is passed over, or it names the one authorizing input and is kept. -/
theorem genesisOutput_cases {item : ConsensusOutput × Nat}
    (h : genesisOutput claimed state item = .ok state') :
    (bound claimed item = false ∧ state' = state) ∨
    ∃ input output, item.1.covenant = some (input, claimed) ∧
      (∀ pinned, state.1 = some pinned → pinned = input) ∧ Records output item ∧
      state' = (some input, state.2 ++ [output]) := by
  rw [genesisOutput] at h
  cases hcovenant : item.1.covenant with
  | none =>
    rw [hcovenant] at h
    refine .inl ⟨?_, (Except.ok.inj h).symm⟩
    rw [bound, hcovenant]
    rfl
  | some covenant =>
    obtain ⟨input, id⟩ := covenant
    by_cases hid : id = claimed
    · have hfilter : (some (input, id)).filter (·.2 = claimed) = some (input, id) :=
        Option.filter_some_pos (decide_eq_true hid)
      rw [hcovenant, hfilter] at h
      dsimp only at h
      by_cases hpinned : state.1.getD input = input
      · rw [if_neg (not_not_intro hpinned), hpinned] at h
        by_cases hindex : item.2 < 2 ^ 32
        · rw [if_pos hindex] at h
          refine .inr ⟨input, _, by rw [hid], fun pinned hsome => ?_, ⟨?_, rfl, rfl, rfl⟩,
            (Except.ok.inj h).symm⟩
          · rw [hsome] at hpinned
            exact hpinned
          · exact UInt32.toNat_ofNat_of_lt' hindex
        · rw [if_neg hindex] at h
          cases h
      · rw [if_pos hpinned] at h
        cases h
    · have hfilter : (some (input, id)).filter (·.2 = claimed) = none :=
        Option.filter_some_neg (decide_eq_false hid)
      rw [hcovenant, hfilter] at h
      refine .inl ⟨?_, (Except.ok.inj h).symm⟩
      rw [bound, hcovenant]
      exact decide_eq_false fun hsome => hid (Option.some.inj hsome)

/-- The outputs that the loop adds are the bound ones, and all of them name one input. -/
theorem genesisOutputs_spec {items : List (ConsensusOutput × Nat)}
    (h : items.foldlM (genesisOutput claimed) state = .ok state') :
    (∀ pinned, state.1 = some pinned → state'.1 = some pinned) ∧
    (∀ item ∈ items.filter (bound claimed), ∃ input, state'.1 = some input ∧
      item.1.covenant = some (input, claimed)) ∧
    ∃ added, state'.2 = state.2 ++ added ∧ List.Forall₂ Records added (items.filter (bound claimed)) := by
  induction items generalizing state with
  | nil =>
    cases h
    refine ⟨fun _ hpinned => hpinned, fun item hitem => absurd hitem List.not_mem_nil, [],
      (List.append_nil _).symm, List.Forall₂.nil⟩
  | cons item items ih =>
    rw [List.foldlM_cons] at h
    obtain ⟨next, hstep, hrest⟩ := bind_eq_ok.mp h
    obtain ⟨hkeeps, hnames, added, hadded, hrecords⟩ := ih hrest
    cases genesisOutput_cases hstep with
    | inl hpassed =>
      rw [hpassed.2] at hkeeps hadded
      rw [List.filter_cons_of_neg (by rw [hpassed.1]; exact Bool.false_ne_true)]
      exact ⟨hkeeps, hnames, added, hadded, hrecords⟩
    | inr hkept =>
      obtain ⟨input, output, hcovenant, hpinned, hrecord, rfl⟩ := hkept
      have hbound : bound claimed item = true := by
        rw [bound, hcovenant]
        exact decide_eq_true rfl
      have hinput := hkeeps input rfl
      rw [List.filter_cons_of_pos hbound]
      refine ⟨fun pinned hsome => by rw [hinput, hpinned pinned hsome], fun other hother => ?_,
        output :: added, ?_, List.Forall₂.cons hrecord hrecords⟩
      · cases List.mem_cons.mp hother with
        | inl hhead => exact ⟨input, hinput, by rw [hhead, hcovenant]⟩
        | inr htail => exact hnames other htail
      · rw [hadded, List.append_assoc]
        rfl

end

/-! ## Both parts -/

variable (keyedHash : Bytes → Bytes → FixedBytes 32)

/-- What a transaction proves about an id. -/
structure Extracted (tx : ConsensusTransaction) (claimed : FixedBytes 32) (g : CovenantGenesis) :
    Prop where
  covenantId : g.covenantId = claimed
  outputs : List.Forall₂ Records g.outputs (tx.outputs.zipIdx.filter (bound claimed))
  ordered : g.outputs.Pairwise fun a b => a.index < b.index
  names : ∀ output ∈ tx.outputs, output.covenant.map Prod.snd = some claimed →
    output.covenant = some (g.authorizingInput, claimed)
  spends : ∃ input, tx.inputs[g.authorizingInput.toNat]? = some input ∧
    g.outpoint = ⟨input.prevTxId, input.prevIndex⟩
  verified : verifyGenesis keyedHash claimed g.outpoint g.outputs = .ok ()

variable {keyedHash}

theorem covenantGenesis_extracts {tx : ConsensusTransaction} {claimed : FixedBytes 32}
    {g : CovenantGenesis} (h : covenantGenesis keyedHash tx claimed = .ok g) :
    Extracted keyedHash tx claimed g := by
  rw [covenantGenesis] at h
  obtain ⟨state, hloop, h⟩ := bind_eq_ok.mp h
  obtain ⟨authorizing, hauthorizing, h⟩ := bind_eq_ok.mp h
  obtain ⟨input, hinput, h⟩ := bind_eq_ok.mp h
  obtain ⟨u, hverified, h⟩ := bind_eq_ok.mp h
  cases h
  obtain ⟨_, hnames, added, hadded, hrecords⟩ := genesisOutputs_spec hloop
  rw [List.nil_append] at hadded
  rw [← hadded] at hrecords
  refine ⟨rfl, hrecords, ascending_pairwise (verifyGenesis_eq_ok.mp hverified).2.1,
    fun output houtput hid => ?_, ⟨input, okOr_eq_ok.mp hinput, rfl⟩, hverified⟩
  obtain ⟨index, hindex, rfl⟩ := List.mem_iff_getElem.mp houtput
  have hitem : (tx.outputs[index], index) ∈ tx.outputs.zipIdx.filter (bound claimed) := by
    refine List.mem_filter.mpr ⟨?_, decide_eq_true hid⟩
    exact List.mem_zipIdx_iff_getElem?.mpr (List.getElem?_eq_getElem hindex)
  obtain ⟨named, hnamed, hcovenant⟩ := hnames _ hitem
  rw [hcovenant, Option.some.inj (hnamed.symm.trans (okOr_eq_ok.mp hauthorizing))]

/-- Two verified geneses of one id are the same. -/
theorem verifyGenesis_unique {claimed : FixedBytes 32} {genesis genesis' : GenesisOutpoint}
    {outputs outputs' : List AuthorizedOutput} (haddressable : Addressable outputs)
    (haddressable' : Addressable outputs')
    (hinjective : Set.InjOn (keyedHash COVENANT_ID_DOMAIN)
      {committed genesis outputs, committed genesis' outputs'})
    (h : verifyGenesis keyedHash claimed genesis outputs = .ok ())
    (h' : verifyGenesis keyedHash claimed genesis' outputs' = .ok ()) :
    genesis = genesis' ∧ outputs = outputs' := by
  obtain ⟨_, hordered, hid⟩ := verifyGenesis_eq_ok.mp h
  obtain ⟨_, hordered', hid'⟩ := verifyGenesis_eq_ok.mp h'
  apply committed_inj (ascending_length hordered) (ascending_length hordered') haddressable
    haddressable'
  apply hinjective (Set.mem_insert _ _) (Set.mem_insert_of_mem _ rfl)
  exact hid.trans hid'.symm

/-- The digest of the second output of the transaction below, bound at its first input. -/
def sampleId : FixedBytes 32 :=
  ⟨[0x6e, 0xdb, 0x2f, 0xd0, 0x67, 0xfb, 0xae, 0x55, 0x8a, 0xd9, 0xc4, 0x06, 0x1a, 0x17, 0x8d, 0xa5,
    0xe2, 0x72, 0xf0, 0xac, 0xce, 0x38, 0x55, 0x82, 0x1c, 0xe6, 0xe9, 0x95, 0x91, 0x71, 0xaf, 0x85], rfl⟩

def sampleOutpoint : GenesisOutpoint := ⟨⟨List.replicate 32 0x88, rfl⟩, 3⟩

def sampleTransaction : ConsensusTransaction where
  txVersion := 1
  inputs := [⟨sampleOutpoint.transactionId, sampleOutpoint.index, [], 0, 1⟩]
  outputs := [⟨5, 0, [0x51], none⟩, ⟨1000, 0, [0x51], some (0, sampleId)⟩]
  locktime := 0
  subnetworkId := ⟨List.replicate 20 0, List.length_replicate⟩
  gas := 0
  payload := []

def sampleOutputs : List AuthorizedOutput := [⟨1, 1000, 0, [0x51]⟩]

/-- The hash, as far as the sample knows it. -/
def sampleHash (_ data : Bytes) : FixedBytes 32 :=
  if data = committed sampleOutpoint sampleOutputs then sampleId
  else ⟨List.replicate 32 0x11, List.length_replicate⟩

end GenesisIdentity

open GenesisIdentity

/-- One id proves one genesis, by whatever outputs it is claimed; and what is extracted from a
transaction are the outputs that are bound to the id, in order, with the input that they all name
and the outpoint that it spends. -/
theorem genesis_identity (keyedHash : Bytes → Bytes → FixedBytes 32) :
    (∀ (claimed : FixedBytes 32) (genesis genesis' : GenesisOutpoint)
        (outputs outputs' : List AuthorizedOutput),
      GenesisIdentity.Addressable outputs → GenesisIdentity.Addressable outputs' →
      Set.InjOn (keyedHash COVENANT_ID_DOMAIN)
        {committed genesis outputs, committed genesis' outputs'} →
      verifyGenesis keyedHash claimed genesis outputs = .ok () →
      verifyGenesis keyedHash claimed genesis' outputs' = .ok () →
      genesis = genesis' ∧ outputs = outputs') ∧
    ∀ (tx : ConsensusTransaction) (claimed : FixedBytes 32) (g : CovenantGenesis),
      covenantGenesis keyedHash tx claimed = .ok g → Extracted keyedHash tx claimed g :=
  ⟨fun _ _ _ _ _ haddressable haddressable' hinjective h h' =>
    verifyGenesis_unique haddressable haddressable' hinjective h h',
    fun _ _ _ h => covenantGenesis_extracts h⟩

/-- The second output of the transaction is the genesis of its id, and at the next index of the outpoint's
transaction there is none of it. -/
theorem genesis_identity_sample :
    Extracted sampleHash sampleTransaction sampleId ⟨sampleId, sampleOutpoint, 0, sampleOutputs⟩ ∧
      verifyGenesis sampleHash sampleId ⟨sampleOutpoint.transactionId, 4⟩ sampleOutputs ≠ .ok () := by
  obtain ⟨hunique, hextracts⟩ := genesis_identity sampleHash
  have hextracted := hextracts sampleTransaction sampleId ⟨sampleId, sampleOutpoint, 0, sampleOutputs⟩ (by decide)
  refine ⟨hextracted, fun hother => ?_⟩
  have haddressable : GenesisIdentity.Addressable sampleOutputs := by
    unfold GenesisIdentity.Addressable
    decide
  have hinjective : Set.InjOn (sampleHash COVENANT_ID_DOMAIN)
      {committed sampleOutpoint sampleOutputs, committed ⟨sampleOutpoint.transactionId, 4⟩ sampleOutputs} := by
    rw [Set.injOn_pair]
    intro hsame
    exact absurd hsame (by decide)
  obtain ⟨hsame, _⟩ := hunique sampleId sampleOutpoint ⟨sampleOutpoint.transactionId, 4⟩ sampleOutputs
    sampleOutputs haddressable haddressable hinjective hextracted.verified hother
  exact absurd hsame (by decide)

end KaspaPortal.Guarantees
