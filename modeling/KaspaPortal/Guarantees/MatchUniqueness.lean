import KaspaPortal.Indexer.Backed

/-!
# Repeated deliveries and their matches

The window of recent ids suppresses a repeated delivery only while it remembers it. One
that it has forgotten is scanned again, and published again next to the matches that are
still retained.

The scanner that delivers transactions is not modelled: any sequence of deliveries is
allowed.
-/
namespace KaspaPortal.Guarantees
open Lib Indexer

/-- No two retained matches are of the same matcher and the same transaction. -/
def UniqueMatches (store : MemoryStore) : Prop :=
  (store.matches.map fun item => (item.matcherId, item.txid)).Nodup

/-- The window remembers the transaction, or no match of it that stays is found again. -/
def DeliversOnce : Delivery → IndexerEngine → Prop
  | .block _, _ => True
  | .transaction tx, engine =>
    validateTransaction engine.config tx = .ok () →
    engine.config.mode.retainsMatches = true →
    tx.txid ∉ engine.recentTxids.order →
    ∀ item ∈ keepLast (engine.config.maxMatches - (scan tx engine.matcherList).length)
      (engine.store.purgeExpired tx.observedAtMs).2.matches,
      item.txid = tx.txid → ∀ found ∈ scan tx engine.matcherList, item.matcherId ≠ found.matcherId

/-- Calls other than a restore, with each delivery as above. -/
def DeliversEachOnce : EngineOp → IndexerEngine → Prop
  | .restoreSnapshot _, _ => False
  | .restoreState _, _ => False
  | op, engine => op.Delivering DeliversOnce engine

namespace MatchUniqueness

variable {config : IndexerConfig} {engine : IndexerEngine} {store : MemoryStore}

theorem unique_of_sublist {after : MemoryStore} (h : UniqueMatches store)
    (hsub : after.matches.Sublist store.matches) : UniqueMatches after :=
  h.sublist (hsub.map _)

/-- Each matcher finds a transaction once. -/
theorem scan_nodup (h : engine.Sound config) (tx : IndexedTransaction) :
    ((scan tx engine.matcherList).map fun item => (item.matcherId, item.txid)).Nodup := by
  have hids : engine.matcherList.map Matcher.id = engine.matchers.keys := by
    rw [IndexerEngine.matcherList, List.map_map]
    exact List.map_congr_left h.matchers.keyed
  have hnodup : (engine.matcherList.map Matcher.id).Nodup := hids ▸ engine.matchers.keys_nodup
  have hfound : ((engine.matcherList.filter fun matcher => matcher.rule.matches tx).map
      Matcher.id).Nodup := hnodup.sublist (List.filter_sublist.map _)
  rw [scan, List.map_map]
  have hpairs := hfound.map (f := fun id => (id, tx.txid)) fun a b hab => congrArg Prod.fst hab
  rwa [List.map_map] at hpairs

theorem purgeExpired_sublist (h : engine.Sound config) (nowMs : UInt64) :
    (engine.store.purgeExpired nowMs).2.matches.Sublist engine.store.matches := by
  obtain ⟨expired, kept, -, heq⟩ := MemoryStore.purgeExpired_spec h.store.sound nowMs
  rw [heq]
  exact List.filter_sublist

/-- What inserting a transaction, or not, leaves of the matches. -/
theorem inserted_matches (h : store.Checked config) (tx : IndexedTransaction) (retained : Bool) :
    ∀ inserted, inserted = (if retained then (store.insertTransaction tx).2 else store) →
      inserted.Sound ∧ inserted.config = config ∧ inserted.matches.Sublist store.matches ∧
        (tx.txid ∈ store.tx → inserted.matches = store.matches) := by
  rintro inserted rfl
  split
  case isFalse => exact ⟨h.sound, h.config_eq, List.Sublist.refl _, fun _ => rfl⟩
  case isTrue =>
    have hconfig := (MemoryStore.insertTransaction_frame h.sound tx).1.trans h.config_eq
    refine ⟨h.sound.insertTransaction tx, hconfig, ?_⟩
    by_cases hmem : tx.txid ∈ store.tx
    · rw [MemoryStore.insertTransaction_of_mem hmem]
      exact ⟨List.Sublist.refl _, fun _ => rfl⟩
    · rw [(MemoryStore.insertTransaction_of_notMem h.sound hmem).2.2.2]
      exact ⟨List.filter_sublist, fun hmem' => absurd hmem' hmem⟩

/-- What taking in a transaction leaves of the matches. -/
theorem ingestedStore_matches (h : engine.Sound config) (tx : IndexedTransaction) :
    ∃ kept, kept.Sublist (engine.store.purgeExpired tx.observedAtMs).2.matches ∧
      (tx.txid ∈ (engine.store.purgeExpired tx.observedAtMs).2.tx →
        kept = (engine.store.purgeExpired tx.observedAtMs).2.matches) ∧
      (engine.ingestedStore tx).matches =
        if engine.config.mode.retainsMatches then
          keepLast config.maxMatches (kept ++ scan tx engine.matcherList)
        else kept := by
  obtain ⟨hsound, hconfig, hsub, hsame⟩ := inserted_matches
    (h.store.purgeExpired tx.observedAtMs) tx
    (engine.config.mode.retainsTransaction (!(scan tx engine.matcherList).isEmpty)) _ rfl
  refine ⟨_, hsub, hsame, ?_⟩
  rw [IndexerEngine.ingestedStore]
  cases hretains : engine.config.mode.retainsMatches with
  | false => rfl
  | true =>
    obtain ⟨evictions, heq⟩ :=
      MemoryStore.foldl_insertMatch hsound (scan tx engine.matcherList)
    rw [if_pos rfl, if_pos rfl, heq, hconfig]

/-- The matches that stay are of other transactions, or by matchers that do not find this one. -/
theorem pairs_disjoint_iff (old found : List IndexedMatch) :
    (∀ a ∈ old.map fun item => (item.matcherId, item.txid),
      ∀ b ∈ found.map fun item => (item.matcherId, item.txid), a ≠ b) ↔
    ∀ item ∈ old, ∀ new ∈ found, item.txid = new.txid → item.matcherId ≠ new.matcherId := by
  simp only [List.forall_mem_map, ne_eq, Prod.mk.injEq, not_and']

/-- A transaction that is taken in leaves unique matches just when it is delivered once. -/
theorem unique_freshIngest_iff (h : engine.Sound config) (hbacked : engine.store.Backed)
    (hunique : UniqueMatches engine.store) {tx : IndexedTransaction}
    (hvalid : validateTransaction config tx = .ok ()) (hfresh : tx.txid ∉ engine.recentTxids.order) :
    UniqueMatches (engine.freshIngest tx).store ↔ DeliversOnce (.transaction tx) engine := by
  have hpurgedBacked := backed_purgeExpired h.store.sound hbacked tx.observedAtMs
  have hpurgedUnique := unique_of_sublist hunique (purgeExpired_sublist h tx.observedAtMs)
  have hmatches : (engine.freshIngest tx).store.matches = (engine.ingestedStore tx).matches := by
    rw [(IndexerEngine.freshIngest_effect engine tx).1]
    rfl
  obtain ⟨kept, hsub, hsame, heq⟩ := ingestedStore_matches h tx
  have hkeptUnique : (kept.map fun item => (item.matcherId, item.txid)).Nodup :=
    hpurgedUnique.sublist (hsub.map _)
  rw [UniqueMatches, hmatches, heq, DeliversOnce, h.config_eq]
  cases hretains : config.mode.retainsMatches with
  | false =>
    rw [if_neg Bool.false_ne_true]
    exact iff_of_true hkeptUnique fun _ htrue => absurd htrue Bool.false_ne_true
  | true =>
    have hscan := scan_nodup h tx
    have htxid : ∀ new ∈ scan tx engine.matcherList, new.txid = tx.txid :=
      fun new hnew => (mem_scan hnew).1
    generalize scan tx engine.matcherList = found at hscan htxid
    have hkept : ((keepLast (config.maxMatches - found.length) kept).map fun item =>
        (item.matcherId, item.txid)).Nodup :=
      hkeptUnique.sublist ((keepLast_sublist _ _).map _)
    have hnew : ((keepLast config.maxMatches found).map fun item =>
        (item.matcherId, item.txid)).Nodup := hscan.sublist ((keepLast_sublist _ _).map _)
    rw [if_pos rfl, keepLast_append, List.map_append, List.nodup_append, pairs_disjoint_iff,
      and_iff_right hkept, and_iff_right hnew]
    by_cases hmem : tx.txid ∈ (engine.store.purgeExpired tx.observedAtMs).2.tx
    · rw [hsame hmem]
      rcases Nat.le_total found.length config.maxMatches with hle | hle
      · rw [keepLast_of_le hle]
        constructor
        · intro hdisjoint _ _ _ item hitem hid new hfound
          exact hdisjoint item hitem new hfound (hid.trans (htxid new hfound).symm)
        · intro honce item hitem new hfound hid
          exact honce hvalid rfl hfresh item hitem (hid.trans (htxid new hfound)) new hfound
      · -- more matches than the limit push every earlier one out
        have hnone : ∀ l : List IndexedMatch, keepLast (config.maxMatches - found.length) l = [] := by
          intro l
          rw [Nat.sub_eq_zero_of_le hle, keepLast, Nat.sub_zero, List.drop_length]
        rw [hnone]
        exact iff_of_true (fun _ hitem => absurd hitem List.not_mem_nil)
          fun _ _ _ _ hitem => absurd hitem List.not_mem_nil
    · have hother : ∀ item ∈ (engine.store.purgeExpired tx.observedAtMs).2.matches,
          item.txid ≠ tx.txid := fun item hitem hid => hmem (hid ▸ hpurgedBacked item hitem)
      refine iff_of_true (fun item hitem new hfound hid => ?_) fun _ _ _ item hitem hid => ?_
      · have hold := hsub.subset ((keepLast_sublist _ _).subset hitem)
        exact absurd (hid.trans (htxid new ((keepLast_sublist _ _).subset hfound)))
          (hother item hold)
      · exact absurd hid (hother item ((keepLast_sublist _ _).subset hitem))

/-! ## One call -/

theorem unique_ingestTransaction_iff (h : engine.Sound config) (hbacked : engine.store.Backed)
    (hunique : UniqueMatches engine.store) (tx : IndexedTransaction) :
    UniqueMatches (engine.ingestTransaction tx).2.store ↔ DeliversOnce (.transaction tx) engine := by
  rcases IndexerEngine.ingestTransaction_cases h tx with
    ⟨error, hinvalid, heq⟩ | ⟨-, hknown, heq⟩ | ⟨hvalid, hfresh, heq⟩
  · rw [heq, DeliversOnce, h.config_eq]
    refine iff_of_true hunique fun hvalid => ?_
    rw [hinvalid] at hvalid
    cases hvalid
  · rw [heq]
    exact iff_of_true (unique_of_sublist hunique (purgeExpired_sublist h tx.observedAtMs))
      fun _ _ hfresh => absurd hknown hfresh
  · rw [heq]
    exact unique_freshIngest_iff h hbacked hunique hvalid hfresh

theorem unique_ingestBlock (h : engine.Sound config) (hunique : UniqueMatches engine.store)
    (block : IndexedBlock) : UniqueMatches (engine.ingestBlock block).2.store := by
  rw [IndexerEngine.ingestBlock]
  split
  case isTrue => exact hunique
  case isFalse =>
    have hbegun : UniqueMatches (engine.beginBlock block).store :=
      unique_of_sublist hunique (purgeExpired_sublist h block.observedAtMs)
    have hretained : UniqueMatches ((engine.beginBlock block).retainBlock block).store := by
      rw [(IndexerEngine.retainBlock_effect (engine.beginBlock block) block).1]
      split
      case isTrue =>
        have hframe := MemoryStore.insertBlock_frame
          (h.store.sound.purgeExpired block.observedAtMs) block
        have hsame : ((engine.beginBlock block).store.insertBlock block).2.matches =
          (engine.beginBlock block).store.matches := hframe.2.2.2
        exact unique_of_sublist hbegun (hsame ▸ List.Sublist.refl _)
      case isFalse => exact hbegun
    exact hretained

theorem unique_deliverAll (h : engine.Sound config) (hbacked : engine.store.Backed)
    (hunique : UniqueMatches engine.store) {items : List Delivery}
    (honce : Delivers DeliversOnce items engine) :
    UniqueMatches (deliverAll items engine).2.store := by
  have hall := deliverAll_keeps
    (fun engine => engine.Sound config ∧ engine.store.Backed ∧ UniqueMatches engine.store)
    DeliversOnce ?_ ⟨h, hbacked, hunique⟩ honce
  · exact hall.2.2
  · intro delivery engine hengine hok
    refine ⟨hengine.1.deliver delivery, ?_⟩
    cases delivery with
    | block value =>
      exact ⟨backed_ingestBlock hengine.1 hengine.2.1 value,
        unique_ingestBlock hengine.1 hengine.2.2 value⟩
    | transaction value =>
      exact ⟨backed_ingestTransaction hengine.1 hengine.2.1 value,
        (unique_ingestTransaction_iff hengine.1 hengine.2.1 hengine.2.2 value).mpr hok⟩

theorem unique_run (h : engine.Sound config) (hbacked : engine.store.Backed)
    (hunique : UniqueMatches engine.store) {op : EngineOp} (hop : DeliversEachOnce op engine) :
    UniqueMatches (op.run engine).store := by
  cases op with
  | ingestTransaction tx => exact (unique_ingestTransaction_iff h hbacked hunique tx).mpr hop
  | ingestBlock block => exact unique_ingestBlock h hunique block
  | purgeExpired nowMs => exact unique_of_sublist hunique (purgeExpired_sublist h nowMs)
  | applySyncBatches batches checkpoint =>
    exact applySyncBatches_keeps (fun engine => UniqueMatches engine.store) hunique
      (fun hvalid hlen => unique_deliverAll h hbacked hunique (hop hvalid hlen))
      fun engine hengine => (IndexerEngine.setCheckpoint_store engine _).symm ▸ hengine
  | reconcileVirtualChain delta =>
    have horphans : UniqueMatches (engine.removeOrphans delta.removedBlockHashes).2.store := by
      refine unique_of_sublist hunique ?_
      have hmatches := (MemoryStore.removeChainBlocks_spec h.store.sound
        delta.removedBlockHashes).2.2.2.1
      exact hmatches ▸ List.filter_sublist
    exact reconcileVirtualChain_keeps (fun engine => UniqueMatches engine.store) hunique
      (fun hvalid => unique_deliverAll (h.removeOrphans _)
        (backed_removeChainBlocks h.store.sound hbacked _) horphans (hop hvalid))
      (fun engine hengine => (IndexerEngine.setCheckpoint_store engine _).symm ▸ hengine)
      fun _ _ hengine => hengine
  | restoreSnapshot snapshot => exact hop.elim
  | restoreState state => exact hop.elim
  | addMatcher rule =>
    have hstore : ((EngineOp.addMatcher rule).run engine).store = engine.store :=
      IndexerEngine.addMatcher_store engine rule
    rw [hstore]
    exact hunique
  | setCheckpoint checkpoint =>
    have hstore : ((EngineOp.setCheckpoint checkpoint).run engine).store = engine.store :=
      IndexerEngine.setCheckpoint_store engine checkpoint
    rw [hstore]
    exact hunique
  | clear => exact List.nodup_nil
  | start _ => exact hunique
  | stop => exact hunique
  | removeMatcher _ => exact hunique
  | drainEvents => exact hunique

theorem restoresBacked_of_deliversEachOnce {op : EngineOp} (hop : DeliversEachOnce op engine) :
    RestoresBacked config op engine := by
  cases op with
  | restoreSnapshot snapshot => exact hop.elim
  | restoreState state => exact hop.elim
  | _ => trivial

/-- A run without restores in which each delivery is made once keeps the matches unique. -/
theorem unique_of_run {issued : List UInt64} (h : Run config DeliversEachOnce engine issued) :
    engine.store.Backed ∧ UniqueMatches engine.store := by
  induction h with
  | new h =>
    rw [IndexerEngine.new] at h
    split at h
    case h_1 => cases h
    case h_2 =>
      cases h
      exact ⟨fun _ hitem => absurd hitem List.not_mem_nil, List.nodup_nil⟩
  | call hrun op hop ih =>
    exact ⟨backed_run hrun.sound ih.1 op (restoresBacked_of_deliversEachOnce hop),
      unique_run hrun.sound ih.1 ih.2 hop⟩
  | reorder _ _ _ ih => exact ih

end MatchUniqueness

open MatchUniqueness

/-- In a run without restores whose deliveries are each made once, no two retained matches
are of the same matcher and transaction, and a further delivery keeps it so just when it is
made once too. -/
theorem retained_matches_unique {config : IndexerConfig} {engine : IndexerEngine}
    {issued : List UInt64} (h : Run config DeliversEachOnce engine issued) :
    UniqueMatches engine.store ∧
      ∀ tx : IndexedTransaction, UniqueMatches (engine.ingestTransaction tx).2.store ↔
        DeliversOnce (.transaction tx) engine :=
  ⟨(unique_of_run h).2, unique_ingestTransaction_iff h.sound (unique_of_run h).1 (unique_of_run h).2⟩

namespace MatchUniqueness

def pairConfig : IndexerConfig := { IndexerConfig.smallest with maxTransactions := 2, maxMatches := 2 }

def delivered (txid : String) (addresses : List String) : IndexedTransaction where
  txid := txid
  blockHash := none
  daaScore := none
  observedAtMs := 0
  addresses := addresses
  payload := []

/-- A matcher finds a transaction, which is delivered again while the window remembers it.
Another transaction pushes it out of the window. It comes a third time when the matcher that
found it is gone. -/
def knownDeliveries : List EngineOp :=
  [.addMatcher (.address "x"), .addMatcher (.address "y"),
    .ingestTransaction (delivered "a" ["x"]), .ingestTransaction (delivered "a" ["x"]),
    .ingestTransaction (delivered "b" ["y"]), .removeMatcher 1,
    .ingestTransaction (delivered "a" ["x"])]

end MatchUniqueness

/-- The last delivery is scanned again, and its match of the first time is retained. -/
theorem retained_matches_unique_redelivered :
    (runAll knownDeliveries (.initial pairConfig)).store.matches.map
        (fun item => (item.matcherId, item.txid)) = [(1, "a"), (2, "b")] ∧
      UniqueMatches (runAll knownDeliveries (.initial pairConfig)).store ∧
      ∀ tx : IndexedTransaction,
        UniqueMatches
          ((runAll knownDeliveries (.initial pairConfig)).ingestTransaction tx).2.store ↔
          DeliversOnce (.transaction tx) (runAll knownDeliveries (.initial pairConfig)) := by
  have hnew : IndexerEngine.new pairConfig = .ok (.initial pairConfig) := rfl
  have honce : Calls DeliversEachOnce knownDeliveries (.initial pairConfig) := by
    simp only [knownDeliveries, Calls, DeliversEachOnce, EngineOp.Delivering, DeliversOnce]
    refine ⟨trivial, trivial, ?_, ?_, ?_, trivial, ?_, trivial⟩ <;> decide
  exact ⟨by decide, retained_matches_unique ((Run.new hnew).calls honce)⟩

namespace MatchUniqueness

/-- A matched transaction, one that pushes it out of a window of one, and it again. -/
def redelivery : List EngineOp :=
  [.addMatcher (.address "x"), .ingestTransaction (delivered "a" ["x"]),
    .ingestTransaction (delivered "b" []), .ingestTransaction (delivered "a" ["x"])]

def afterRedelivery : IndexerEngine := runAll redelivery (.initial pairConfig)

end MatchUniqueness

/-- Both matches of the transaction delivered twice are retained. -/
theorem redelivered_match_doubled :
    (∃ issued, Reachable pairConfig afterRedelivery issued) ∧
      (∀ op ∈ redelivery, op.Restoring pairConfig fun _ => False) ∧
      ¬ UniqueMatches afterRedelivery.store := by
  refine ⟨⟨_, (Run.new rfl).reaches redelivery⟩, ?_, ?_⟩
  · simp [redelivery, EngineOp.Restoring]
  · rw [UniqueMatches]
    decide

end KaspaPortal.Guarantees
