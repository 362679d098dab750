import KaspaPortal.Engine.Ledger
import KaspaPortal.Contract.Oracle

/-!
# The lineage of the oracle output

What the publication script is for is a machine of its own: a price, a time and
an amount, which advance by a proved journal or stay, the time never going back
and the amount losing at most the fee. `LineageAt` reads that state off a ledger.
A run of accepted transactions simulates the machine as long as every roll keeps
the covenant id on the output the roll branch inspects.

Whether a journal is true is not the subject, only which journals a run advances
by.
-/
set_option maxRecDepth 100000

namespace KaspaPortal.Guarantees
open Lib Primitives Transaction Contract.Script Engine Contract.Oracle

namespace OracleLineage

/-- What the lineage publishes and holds. -/
structure Published where
  price : UInt64
  t : UInt64
  amount : UInt64

/-- One step of the abstract lineage. -/
structure Advances (c : Crypto) (params : OracleParams) (s s' : Published) : Prop where
  published : (s'.price = s.price ∧ s'.t = s.t) ∨
    ∃ J, ProvedJournal c params J ∧ s'.price = journalPrice J ∧ s'.t = journalT J
  monotone : s.t ≤ s'.t
  conserves : s.amount.toNat ≤ s'.amount.toNat + ORACLE_MB_MAX_FEE_SOMPI.toNat

def lineageSpk (c : Crypto) (params : OracleParams) (price t : UInt64) : Bytes :=
  spkBytes 0 (p2shScript (c.blake2b (buildOracleMbRedeem price t params)))

/-- Exactly one unspent output carries the id, on the script that publishes `s`. -/
def LineageAt (c : Crypto) (params : OracleParams) (id : FixedBytes 32) (L : Ledger)
    (s : Published) : Prop :=
  ∃ o e, (∀ o' e', Tagged L id o' e' ↔ o' = o ∧ e' = e) ∧
    e.spk = lineageSpk c params s.price s.t ∧ e.amount = s.amount

/-- Nothing but a publication script has its hash. -/
def CollisionFree (c : Crypto) (params : OracleParams) : Prop :=
  ∀ price t x, c.blake2b x = c.blake2b (buildOracleMbRedeem price t params) →
    x = buildOracleMbRedeem price t params

/-- A transaction the network accepts: it honours the tag rule and every tagged
output it spends is spent through a script that accepts. -/
structure Accepted (c : Crypto) (id : FixedBytes 32) (txId : FixedBytes 32)
    (t : PopulatedTransaction) (L L' : Ledger) : Prop where
  applies : Applies txId t L L'
  authorized : AuthorizedTags id t
  spends : ∀ (i : Nat) e, t.entries[i]? = some e → e.covenantId = some id →
    ∃ redeem w, SpendsP2sh ⟨c, t, i⟩ redeem w

/-- Every input that rolls the lineage keeps the id on output zero, and its
journal's time is not the negative zero of the number format. -/
def RollsInPlace (id : FixedBytes 32) (t : PopulatedTransaction) : Prop :=
  ∀ (i : Nat) e input redeem selector J rest, t.entries[i]? = some e → e.covenantId = some id →
    t.tx.inputs[i]? = some input →
    sigStack input.sigScript = some (redeem :: selector :: J :: rest) → asBool selector = true →
    0 ∈ taggedOutputs t.tx id.val ∧ (journalT J).toNat ≠ 2 ^ 63

def LineageStep (c : Crypto) (id : FixedBytes 32) (L L' : Ledger) : Prop :=
  ∃ txId t, Accepted c id txId t L L' ∧ RollsInPlace id t

section step
variable {c : Crypto} {params : OracleParams} {id : FixedBytes 32} {L L' : Ledger}
  {s : Published}

theorem redeem_inj {price price' t t' : UInt64}
    (h : buildOracleMbRedeem price t params = buildOracleMbRedeem price' t' params) :
    price = price' ∧ t = t' := by
  have hprefix := List.append_cancel_right h
  simp only [oracleMbPrefix, List.append_assoc] at hprefix
  obtain ⟨hp, hrest⟩ := List.append_inj (List.append_cancel_left hprefix) (by simp)
  have hrest := List.append_cancel_left (List.append_cancel_left hrest)
  exact ⟨leBytes_toNat_inj hp, leBytes_toNat_inj (List.append_cancel_right hrest)⟩

theorem redeem_of_spk (hc : CollisionFree c params) {price t : UInt64} {redeem : Bytes}
    (h : spkBytes 0 (p2shScript (c.blake2b redeem)) = lineageSpk c params price t) :
    redeem = buildOracleMbRedeem price t params :=
  hc price t redeem (p2shScript_inj.mp (spkBytes_inj.mp h).2)

/-- A ledger is on one state of the lineage at most. -/
theorem lineageAt_unique (hc : CollisionFree c params) {s' : Published}
    (h : LineageAt c params id L s) (h' : LineageAt c params id L s') : s' = s := by
  obtain ⟨o, e, hone, hspk, hamount⟩ := h
  obtain ⟨o', e', hone', hspk', hamount'⟩ := h'
  obtain ⟨-, rfl⟩ := (hone o' e').mp ((hone' o' e').mpr ⟨rfl, rfl⟩)
  obtain ⟨hp, ht⟩ := redeem_inj (redeem_of_spk hc (hspk'.symm.trans hspk))
  cases s
  cases s'
  simp only [Published.mk.injEq]
  exact ⟨hp, ht, hamount'.symm.trans hamount⟩

theorem uniqueTag_of_lineageAt (h : LineageAt c params id L s) : UniqueTag L id := by
  obtain ⟨o, e, hone, -⟩ := h
  intro o₁ o₂ e₁ e₂ h₁ h₂
  rw [((hone _ _).mp h₁).1, ((hone _ _).mp h₂).1]

/-- The comparison of the roll branch, on signed numbers, orders the times
themselves below `2 ^ 63`. -/
theorem time_le {t t' : UInt64} (ht : t.toNat < 2 ^ 63) (hne : t'.toNat ≠ 2 ^ 63)
    (h : ∃ zo zn, decodeNum (leBytes 8 t.toNat) = some zo ∧
      decodeNum (leBytes 8 t'.toNat) = some zn ∧ zo ≤ zn) : t ≤ t' ∧ t'.toNat < 2 ^ 63 := by
  obtain ⟨zo, zn, hzo, hzn, hle⟩ := h
  rw [decodeNum_leBytes_eight] at hzo hzn
  rw [if_pos ht, Option.some.injEq] at hzo
  by_cases hlt : t'.toNat < 2 ^ 63
  · rw [if_pos hlt, Option.some.injEq] at hzn
    exact ⟨UInt64.le_iff_toNat_le.mpr (by omega), hlt⟩
  · -- the new time reads as a number below zero, or as zero for the excluded value
    rw [if_neg hlt, Option.some.injEq] at hzn
    omega

/-- What an accepted spend of the lineage output leaves, whichever branch it took. -/
theorem spend_continues (hc : CollisionFree c params) (ht : s.t.toNat < 2 ^ 63)
    {t : PopulatedTransaction} {i : Nat} {e : UtxoEntry} {redeem : Bytes} {w : Stack}
    (he : t.entries[i]? = some e) (htag : e.covenantId = some id)
    (hspk : e.spk = lineageSpk c params s.price s.t) (hamount : e.amount = s.amount)
    (hspend : SpendsP2sh ⟨c, t, i⟩ redeem w) (hroll : RollsInPlace id t) :
    ∃ k out s', taggedOutputs t.tx id.val = [k] ∧ t.tx.outputs[k]? = some out ∧
      out.spk = lineageSpk c params s'.price s'.t ∧ out.value = s'.amount ∧
      Advances c params s s' ∧ s'.t.toNat < 2 ^ 63 := by
  obtain ⟨e', he', hspk'⟩ := hspend.locked
  obtain rfl : e = e' := Option.some.inj (he.symm.trans he')
  obtain rfl := redeem_of_spk hc (hspk'.symm.trans hspk)
  obtain ⟨input, hin, hsig⟩ := hspend.sigScript
  obtain ⟨front, hfront⟩ := sigStack_ends hsig (by rw [redeem_length]; decide)
  have hid := covenantIdBytes_of_tagged htag
  rcases redeem_cases hin he hfront hspend.accepted with
    ⟨selector, J, rest, rfl, hsel, hrolls⟩ | ⟨k, out, hk, hout, hsame, hle⟩
  · obtain ⟨hmem, hne⟩ := hroll i e input _ selector J rest he htag hin hsig hsel
    obtain ⟨out, hout, hnext, hle⟩ := hrolls.next
    obtain ⟨k, hk⟩ := List.length_eq_one_iff.mp hrolls.singleton
    rw [hid] at hk
    obtain rfl : 0 = k := List.mem_singleton.mp (hk ▸ hmem)
    obtain ⟨hmono, hlt⟩ := time_le ht hne hrolls.monotone
    rw [hamount] at hle
    exact ⟨0, out, ⟨journalPrice J, journalT J, out.value⟩, hk, hout, hnext, rfl,
      ⟨Or.inr ⟨J, hrolls.proved, rfl, rfl⟩, hmono, hle⟩, hlt⟩
  · rw [hid] at hk
    rw [hamount] at hle
    exact ⟨k, out, ⟨s.price, s.t, out.value⟩, hk, hout, hsame.trans hspk, rfl,
      ⟨Or.inl ⟨rfl, rfl⟩, UInt64.le_refl _, hle⟩, ht⟩

/-- One accepted transaction advances the lineage or leaves it alone. -/
theorem lineageStep_advances (hc : CollisionFree c params) (ht : s.t.toNat < 2 ^ 63)
    (hL : LineageAt c params id L s) (h : LineageStep c id L L') :
    ∃ s', LineageAt c params id L' s' ∧ Advances c params s s' ∧ s'.t.toNat < 2 ^ 63 := by
  obtain ⟨txId, t, hacc, hroll⟩ := h
  have hunique := uniqueTag_of_lineageAt hL
  obtain ⟨o, e, hone, hspk, hamount⟩ := hL
  rcases thread_step hacc.applies hacc.authorized hunique with
    hsame | ⟨i, o', e', he, htag, hnew⟩
  · refine ⟨s, ⟨o, e, fun o' e' => (hsame o' e').trans (hone o' e'), hspk, hamount⟩,
      ⟨Or.inl ⟨rfl, rfl⟩, UInt64.le_refl _, Nat.le_add_right _ _⟩, ht⟩
  · obtain ⟨rfl, rfl⟩ := (hone o' e').mp htag
    obtain ⟨redeem, w, hspend⟩ := hacc.spends i e' he htag.2
    obtain ⟨k, out, s', hk, hout, hspk', hvalue, hadv, hlt⟩ :=
      spend_continues hc ht he htag.2 hspk hamount hspend hroll
    exact ⟨s', ⟨_, out.entry, tagged_single hnew hacc.applies hk hout, hspk', hvalue⟩, hadv, hlt⟩

end step
end OracleLineage
open OracleLineage

/-- In every run of accepted transactions whose rolls keep the id on output zero,
from a lineage that starts below the sign bit: the ledger is on exactly one state
of the lineage, reached by steps of the abstract lineage from the first, its time
is not before the first, and the next transaction is such a step again. -/
theorem oracle_lineage (c : Crypto) (params : OracleParams) (id : FixedBytes 32)
    (hc : CollisionFree c params) {L₀ L : Ledger} {s₀ : Published}
    (hstart : LineageAt c params id L₀ s₀) (ht : s₀.t.toNat < 2 ^ 63)
    (hrun : Relation.ReflTransGen (LineageStep c id) L₀ L) :
    ∃ s, LineageAt c params id L s ∧ (∀ s', LineageAt c params id L s' → s' = s) ∧
      Relation.ReflTransGen (Advances c params) s₀ s ∧ s₀.t ≤ s.t ∧
      ∀ L', LineageStep c id L L' → ∃ s', LineageAt c params id L' s' ∧ Advances c params s s' := by
  -- the invariant carries the bound on the time, which the signed comparison needs
  have hinv : ∃ s, LineageAt c params id L s ∧ Relation.ReflTransGen (Advances c params) s₀ s ∧
      s₀.t ≤ s.t ∧ s.t.toNat < 2 ^ 63 := by
    induction hrun with
    | refl => exact ⟨s₀, hstart, .refl, UInt64.le_refl _, ht⟩
    | tail _ hstep ih =>
      obtain ⟨s, hL, hsteps, hle, hlt⟩ := ih
      obtain ⟨s', hL', hadv, hlt'⟩ := lineageStep_advances hc hlt hL hstep
      exact ⟨s', hL', hsteps.tail hadv, UInt64.le_trans hle hadv.monotone, hlt'⟩
  obtain ⟨s, hL, hsteps, hle, hlt⟩ := hinv
  refine ⟨s, hL, fun s' => lineageAt_unique hc hL, hsteps, hle, fun L' hstep => ?_⟩
  obtain ⟨s', hL', hadv, -⟩ := lineageStep_advances hc hlt hL hstep
  exact ⟨s', hL', hadv⟩

namespace OracleLineage

def sampleParams : OracleParams := ⟨filled 1 32, filled 2 32, filled 3 32, 1, filled 9 32⟩

def sampleId : FixedBytes 32 := filled 8 32

/-- A digest that tells the publication scripts apart by what they publish. -/
def publicationDigest (x : Bytes) : FixedBytes 32 :=
  let price := UInt64.ofNat (leNat ((x.take 9).drop 1))
  let t := UInt64.ofNat (leNat ((x.take 19).drop 11))
  if x = buildOracleMbRedeem price t sampleParams then
    ⟨leBytes 8 price.toNat ++ leBytes 8 t.toNat ++ List.replicate 16 1, by simp⟩
  else filled 0 32

/-- The seal of a receipt is the hash of its journal. -/
def publicationCrypto : Crypto where
  blake2b := publicationDigest
  sha256 := padTo32
  checkSig _ _ _ _ := false
  groth16 _ _ _ := false
  risc0 receipt := receipt.sealData == receipt.journalHash

theorem publicationDigest_redeem (price t : UInt64) :
    (publicationDigest (buildOracleMbRedeem price t sampleParams)).val =
      leBytes 8 price.toNat ++ leBytes 8 t.toNat ++ List.replicate 16 1 := by
  have hp : ((buildOracleMbRedeem price t sampleParams).take 9).drop 1 = leBytes 8 price.toNat := by
    simp [buildOracleMbRedeem, oracleMbPrefix]
  have ht : ((buildOracleMbRedeem price t sampleParams).take 19).drop 11 = leBytes 8 t.toNat := by
    simp [buildOracleMbRedeem, oracleMbPrefix, List.take_append, List.drop_append]
  simp only [publicationDigest, hp, ht, leNat_leBytes 8 _ (UInt64.toNat_lt _), UInt64.ofNat_toNat,
    if_true]

theorem publicationCrypto_collisionFree : CollisionFree publicationCrypto sampleParams := by
  intro price t x h
  have hval : (publicationDigest x).val =
      leBytes 8 price.toNat ++ leBytes 8 t.toNat ++ List.replicate 16 1 := by
    rw [← publicationDigest_redeem]
    exact congrArg Subtype.val h
  simp only [publicationDigest] at hval
  split at hval
  · rename_i hx
    obtain ⟨hpt, -⟩ := List.append_inj hval (by simp)
    obtain ⟨hp, ht⟩ := List.append_inj hpt (by simp)
    rw [hx, leBytes_toNat_inj hp, leBytes_toNat_inj ht]
  · have hlast := congrArg (·[31]?) hval
    simp [filled] at hlast

def sampleRedeem : Bytes := buildOracleMbGenesisRedeem 100 5 sampleParams

/-- Price 101 at time 6. -/
def sampleJournal : Bytes := leBytes 8 101 ++ leBytes 8 6 ++ List.replicate 32 3

def lineageEntry (amount : UInt64) (redeem : Bytes) : UtxoEntry :=
  ⟨amount, 0, p2shScript (publicationDigest redeem), some sampleId⟩

def heartbeatId : FixedBytes 32 := filled 9 32

def heartbeatSpk : Bytes := p2shScript (publicationDigest buildOracleMbHeartbeatScript)

def heartbeatEntry : UtxoEntry := ⟨5000000, 0, heartbeatSpk, some heartbeatId⟩

/-- The genesis output and a heartbeat output. -/
def genesisLedger : Ledger := fun o =>
  if o = ⟨filled 4 32, 0⟩ then some (lineageEntry 5000000 sampleRedeem)
  else if o = ⟨filled 4 32, 1⟩ then some heartbeatEntry
  else none

/-- Rolls the genesis output to the sample journal, and the heartbeat with it. -/
def sampleRoll (outputs : List ConsensusOutput) : PopulatedTransaction where
  tx := {
    txVersion := 1
    inputs := [⟨filled 4 32, 0, [OP_1, OP_1, OP_1] ++ pushData (padTo32 sampleJournal).val ++
        pushData sampleJournal ++ [OP_1] ++ pushData sampleRedeem, 0, 0⟩,
      ⟨filled 4 32, 1, pushData buildOracleMbHeartbeatScript, 0, 0⟩]
    outputs := outputs
    locktime := 0
    subnetworkId := filled 0 20
    gas := 0
    payload := [] }
  entries := [lineageEntry 5000000 sampleRedeem, heartbeatEntry]
  entries_length := rfl

/-- The next publication script on output zero, tagged or not. -/
def nextOutput (tag : Option (UInt16 × FixedBytes 32)) : ConsensusOutput :=
  ⟨4000000, 0, p2shScript (publicationDigest (buildOracleMbRedeem 101 6 sampleParams)), tag⟩

def heartbeatOutput : ConsensusOutput := ⟨5000000, 0, heartbeatSpk, some (1, heartbeatId)⟩

def inPlace : List ConsensusOutput := [nextOutput (some (0, sampleId)), heartbeatOutput]

/-- The publication script untagged, the id on another script. -/
def displaced : List ConsensusOutput :=
  [nextOutput none, ⟨500000, 0, [OP_1], some (0, sampleId)⟩, heartbeatOutput]

theorem genesis_lineageAt :
    LineageAt publicationCrypto sampleParams sampleId genesisLedger ⟨100, 5, 5000000⟩ := by
  refine ⟨⟨filled 4 32, 0⟩, lineageEntry 5000000 sampleRedeem, fun o e => ?_, rfl, rfl⟩
  constructor
  · rintro ⟨h, htag⟩
    unfold genesisLedger at h
    split at h
    · rename_i ho
      exact ⟨ho, (Option.some.inj h).symm⟩
    · split at h
      · obtain rfl := Option.some.inj h
        exact absurd htag (by decide)
      · cases h
  · rintro ⟨rfl, rfl⟩
    exact ⟨rfl, rfl⟩

theorem sampleRoll_sigScript (outputs : List ConsensusOutput) :
    ∃ input, (sampleRoll outputs).tx.inputs[0]? = some input ∧
      sigStack input.sigScript = some [sampleRedeem, [1], sampleJournal,
        (padTo32 sampleJournal).val, [1], [1], [1]] :=
  ⟨_, rfl, by decide⟩

theorem sampleRoll_spends (outputs : List ConsensusOutput)
    (h : succeeds ⟨publicationCrypto, sampleRoll outputs, 0⟩ sampleRedeem
      [[1], sampleJournal, (padTo32 sampleJournal).val, [1], [1], [1]] = true) :
    SpendsP2sh ⟨publicationCrypto, sampleRoll outputs, 0⟩ sampleRedeem
      [[1], sampleJournal, (padTo32 sampleJournal).val, [1], [1], [1]] :=
  ⟨⟨_, rfl, rfl⟩, sampleRoll_sigScript outputs, h⟩

theorem heartbeatId_ne : heartbeatId ≠ sampleId := by decide

/-- Only the first input carries the oracle's id. -/
theorem sampleRoll_tagged {outputs : List ConsensusOutput} {i : Nat} {e : UtxoEntry}
    (he : (sampleRoll outputs).entries[i]? = some e) (htag : e.covenantId = some sampleId) :
    i = 0 := by
  have hentries : (sampleRoll outputs).entries =
      [lineageEntry 5000000 sampleRedeem, heartbeatEntry] := rfl
  rw [hentries] at he
  cases i with
  | zero => rfl
  | succ i =>
    cases i with
    | zero =>
      rw [List.getElem?_cons_succ, List.getElem?_cons_zero] at he
      rw [← Option.some.inj he] at htag
      exact absurd (Option.some.inj htag) heartbeatId_ne
    | succ i =>
      rw [List.getElem?_cons_succ, List.getElem?_cons_succ, List.getElem?_nil] at he
      cases he

theorem sampleRoll_accepted (outputs : List ConsensusOutput) (hlen : outputs.length ≤ 2 ^ 32)
    (hauth : ∀ out ∈ outputs, ∀ auth, out.covenant = some (auth, sampleId) → auth = 0)
    (h : succeeds ⟨publicationCrypto, sampleRoll outputs, 0⟩ sampleRedeem
      [[1], sampleJournal, (padTo32 sampleJournal).val, [1], [1], [1]] = true) :
    Accepted publicationCrypto sampleId (filled 5 32) (sampleRoll outputs) genesisLedger
      (applyTx (filled 5 32) (sampleRoll outputs) genesisLedger) := by
  refine ⟨⟨fun index => ?_, ?_, ?_, hlen, rfl⟩, ?_, ?_⟩
  · have hne (k : UInt32) : (⟨filled 5 32, index⟩ : Outpoint) ≠ ⟨filled 4 32, k⟩ := by
      intro h
      exact absurd (congrArg Outpoint.txId h) (show filled 5 32 ≠ filled 4 32 by decide)
    simp [genesisLedger, hne]
  · intro i input hin
    match i with
    | 0 =>
      obtain rfl : _ = input := Option.some.inj hin
      rfl
    | 1 =>
      obtain rfl : _ = input := Option.some.inj hin
      rfl
    | i + 2 => simp [sampleRoll] at hin
  · show [(⟨filled 4 32, 0⟩ : Outpoint), ⟨filled 4 32, 1⟩].Nodup
    decide
  · intro out hout auth htag
    obtain rfl := hauth out hout auth htag
    exact ⟨_, rfl, rfl⟩
  · intro i e he htag
    obtain rfl := sampleRoll_tagged he htag
    exact ⟨_, _, sampleRoll_spends outputs h⟩

theorem inPlace_accepted : Accepted publicationCrypto sampleId (filled 5 32) (sampleRoll inPlace)
    genesisLedger (applyTx (filled 5 32) (sampleRoll inPlace) genesisLedger) := by
  refine sampleRoll_accepted inPlace (by decide) ?_ (by decide)
  intro out hout auth htag
  simp only [inPlace, List.mem_cons, List.not_mem_nil, or_false] at hout
  rcases hout with rfl | rfl
  · exact (congrArg Prod.fst (Option.some.inj htag)).symm
  · exact absurd (congrArg Prod.snd (Option.some.inj htag)) heartbeatId_ne

theorem displaced_accepted : Accepted publicationCrypto sampleId (filled 5 32)
    (sampleRoll displaced) genesisLedger
    (applyTx (filled 5 32) (sampleRoll displaced) genesisLedger) := by
  refine sampleRoll_accepted displaced (by decide) ?_ (by decide)
  intro out hout auth htag
  simp only [displaced, List.mem_cons, List.not_mem_nil, or_false] at hout
  rcases hout with rfl | rfl | rfl
  · cases htag
  · exact (congrArg Prod.fst (Option.some.inj htag)).symm
  · exact absurd (congrArg Prod.snd (Option.some.inj htag)) heartbeatId_ne

theorem inPlace_rollsInPlace : RollsInPlace sampleId (sampleRoll inPlace) := by
  intro i e input redeem selector J rest he htag hin hsig _
  obtain rfl := sampleRoll_tagged he htag
  obtain ⟨input', hin', hstack⟩ := sampleRoll_sigScript inPlace
  obtain rfl : input' = input := Option.some.inj (hin'.symm.trans hin)
  have hJ := hstack.symm.trans hsig
  simp only [Option.some.injEq, List.cons.injEq] at hJ
  obtain ⟨-, -, rfl, -⟩ := hJ
  exact ⟨by decide, by decide⟩

end OracleLineage

theorem oracle_lineage_roll :
    LineageAt publicationCrypto sampleParams sampleId genesisLedger ⟨100, 5, 5000000⟩ ∧
    ∃ s, LineageAt publicationCrypto sampleParams sampleId
      (applyTx (filled 5 32) (sampleRoll inPlace) genesisLedger) s ∧ 5 ≤ s.t := by
  refine ⟨genesis_lineageAt, ?_⟩
  obtain ⟨s, hL, -, -, hle, -⟩ := oracle_lineage publicationCrypto sampleParams sampleId
    publicationCrypto_collisionFree genesis_lineageAt (by decide)
    (.single ⟨filled 5 32, sampleRoll inPlace, inPlace_accepted, inPlace_rollsInPlace⟩)
  exact ⟨s, hL, hle⟩

/-- A roll with the publication script on an untagged output zero and the id on
another script is accepted, the heartbeat it spends included, and no lineage is
left. -/
theorem oracle_roll_displaces_lineage :
    CollisionFree publicationCrypto sampleParams ∧
    LineageAt publicationCrypto sampleParams sampleId genesisLedger ⟨100, 5, 5000000⟩ ∧
    SpendsP2sh ⟨publicationCrypto, sampleRoll displaced, 1⟩ buildOracleMbHeartbeatScript [] ∧
    ∃ L', Accepted publicationCrypto sampleId (filled 5 32) (sampleRoll displaced) genesisLedger L' ∧
      ∀ s, ¬ LineageAt publicationCrypto sampleParams sampleId L' s := by
  refine ⟨publicationCrypto_collisionFree, genesis_lineageAt,
    ⟨⟨_, rfl, rfl⟩, ⟨_, rfl, by decide⟩, by decide⟩, _, displaced_accepted, ?_⟩
  rintro s ⟨o, e, hone, hspk, -⟩
  have htag : Tagged (applyTx (filled 5 32) (sampleRoll displaced) genesisLedger) sampleId
      ⟨filled 5 32, 1⟩ ⟨500000, 0, [OP_1], some sampleId⟩ := ⟨rfl, rfl⟩
  obtain ⟨-, rfl⟩ := (hone _ _).mp htag
  have := congrArg List.length hspk
  simp [lineageSpk, UtxoEntry.spk, spkBytes, p2shScript] at this

end KaspaPortal.Guarantees
