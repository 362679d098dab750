import KaspaPortal.Indexer.Invariant

/-!
# What deliveries add to the store, and what they cost it

A delivery stores at most one record. It may lose others: those that have expired by its time, and
the oldest one when the store is full.

How often a record was seen before is the window's part; here a delivery is looked at by itself.
-/
namespace KaspaPortal.Indexer
open Lib

namespace MemoryStore

variable {store : MemoryStore}

theorem purgeExpired_frame (h : store.Sound) (nowMs : UInt64) :
    (store.purgeExpired nowMs).2.config = store.config ∧
      (store.purgeExpired nowMs).2.blockOrder = store.blockOrder ∧
      (store.purgeExpired nowMs).2.blocks = store.blocks := by
  obtain ⟨expired, kept, _, heq⟩ := purgeExpired_spec h nowMs
  rw [heq]
  exact ⟨rfl, rfl, rfl⟩

/-- A purge loses a transaction when the oldest has expired. -/
theorem purgeExpired_size (h : store.Sound) (nowMs : UInt64) :
    ∃ lost, (store.purgeExpired nowMs).2.txOrder.length + lost = store.txOrder.length ∧
      (lost = 0 ↔ ¬ (store.config.transactionTtlMs ≠ 0 ∧ ∃ oldest ∈ store.allTransactions.head?,
        hasExpired store.config.transactionTtlMs nowMs oldest = true)) := by
  by_cases httl : store.config.transactionTtlMs = 0
  · rw [purgeExpired_of_fresh (.inl httl)]
    exact ⟨0, rfl, iff_of_true rfl fun hlost => hlost.1 httl⟩
  · obtain ⟨hids, _⟩ := purgeExpired_records h nowMs httl
    obtain ⟨expired, kept, hsplit, heq⟩ := purgeExpired_spec h nowMs
    rw [heq] at hids ⊢
    refine ⟨expired.length, by rw [hsplit, List.length_append, Nat.add_comm], ?_⟩
    obtain rfl : expired = _ := hids
    rw [List.length_map, List.length_eq_zero_iff]
    cases store.allTransactions with
    | nil => simp
    | cons oldest rest => simp [List.takeWhile_cons, httl]

/-- An insertion loses a transaction when it succeeds and there is no room. -/
theorem insertTransaction_size (h : store.Sound) (value : IndexedTransaction) :
    ∃ lost, (store.insertTransaction value).2.txOrder.length + lost =
        store.txOrder.length + (store.insertTransaction value).1.toNat ∧
      (lost = 0 ↔ ¬ ((store.insertTransaction value).1 = true ∧
        store.config.maxTransactions ≤ store.txOrder.length)) := by
  by_cases hv : value.txid ∈ store.tx
  · rw [insertTransaction_of_mem hv]
    exact ⟨0, rfl, iff_of_true rfl (by simp)⟩
  · have horder := (insertTransaction_order h value).2
    have hle := h.transactions_le
    rw [pushKey, if_neg fun hmem => hv ((h.mem_tx_iff _).mpr hmem)] at horder
    rw [(insertTransaction_of_notMem h hv).1, horder, keepLast, List.length_drop, List.length_append,
      List.length_singleton]
    refine ⟨store.txOrder.length + 1 - store.config.maxTransactions, ?_, ?_⟩
    · simp only [Bool.toNat_true]
      omega
    · simp only [true_and]
      omega

theorem insertBlock_size (h : store.Sound) (value : IndexedBlock) :
    ∃ lost, (store.insertBlock value).2.blockOrder.length + lost =
        store.blockOrder.length + (store.insertBlock value).1.toNat ∧
      (lost = 0 ↔ ¬ ((store.insertBlock value).1 = true ∧
        store.config.maxBlocks ≤ store.blockOrder.length)) := by
  by_cases hv : value.hash ∈ store.blocks
  · rw [insertBlock_of_mem hv]
    exact ⟨0, rfl, iff_of_true rfl (by simp)⟩
  · obtain ⟨hinserted, hsound, hrecords⟩ := insertBlock_of_notMem h hv
    have hle := h.blocks_le
    have hlen : (store.insertBlock value).2.blockOrder.length =
        (keepLast store.config.maxBlocks (store.allBlocks ++ [value])).length := by
      rw [← hrecords, allBlocks, hsound.blocks.length_records]
    rw [hinserted, hlen, keepLast, List.length_drop, List.length_append, List.length_singleton,
      allBlocks, h.blocks.length_records]
    refine ⟨store.blockOrder.length + 1 - store.config.maxBlocks, ?_, ?_⟩
    · simp only [Bool.toNat_true]
      omega
    · simp only [true_and]
      omega

/-- Matches leave the transactions and the blocks as they are. -/
theorem foldl_insertMatch_frame (items : List IndexedMatch) (store : MemoryStore) :
    (items.foldl insertMatch store).txOrder = store.txOrder ∧
      (items.foldl insertMatch store).blockOrder = store.blockOrder := by
  induction items generalizing store with
  | nil => exact ⟨rfl, rfl⟩
  | cons item items ih =>
    obtain ⟨evictions, heq⟩ := insertMatch_eq store item
    rw [List.foldl_cons, (ih _).1, (ih _).2, heq]
    exact ⟨rfl, rfl⟩

end MemoryStore

namespace Delivery

def observedAtMs : Delivery → UInt64
  | block value => value.observedAtMs
  | transaction value => value.observedAtMs

/-- The transaction is inserted. -/
def storesTransaction : Delivery → IndexerEngine → Bool
  | block _, _ => false
  | transaction value, engine =>
    decide (value.txid ∉ engine.recentTxids.order) &&
      engine.config.mode.retainsTransaction (!(scan value engine.matcherList).isEmpty) &&
      ((engine.store.purgeExpired value.observedAtMs).2.insertTransaction value).1

/-- The block is inserted. -/
def storesBlock : Delivery → IndexerEngine → Bool
  | block value, engine => engine.config.mode.retainsBlocks &&
      ((engine.store.purgeExpired value.observedAtMs).2.insertBlock value).1
  | transaction _, _ => false

/-- The matches that are published. -/
def published : Delivery → IndexerEngine → List IndexedMatch
  | block _, _ => []
  | transaction value, engine =>
    if value.txid ∈ engine.recentTxids.order then [] else scan value engine.matcherList

/-- The oldest transaction has expired at the time of the delivery, or the delivery stores one and
there is no room for it. -/
def LosesTransaction (delivery : Delivery) (engine : IndexerEngine) : Prop :=
  (engine.store.config.transactionTtlMs ≠ 0 ∧ ∃ oldest ∈ engine.store.allTransactions.head?,
    MemoryStore.hasExpired engine.store.config.transactionTtlMs delivery.observedAtMs oldest = true) ∨
  delivery.storesTransaction engine = true ∧
    engine.store.config.maxTransactions ≤ engine.store.counts.1

/-- The delivery stores a block and there is no room for it. -/
def LosesBlock (delivery : Delivery) (engine : IndexerEngine) : Prop :=
  delivery.storesBlock engine = true ∧ engine.store.config.maxBlocks ≤ engine.store.counts.2.1

end Delivery

namespace IndexerEngine

variable {config : IndexerConfig} {engine : IndexerEngine}

theorem Sound.counts (h : engine.Sound config) :
    engine.store.counts.1 = engine.store.txOrder.length ∧
      engine.store.counts.2.1 = engine.store.blockOrder.length :=
  ⟨h.store.sound.transactions.len_eq, h.store.sound.blocks.len_eq⟩

/-- The queues a transaction taken in leaves. -/
theorem ingestedStore_orders (engine : IndexerEngine) (tx : IndexedTransaction)
    (hfresh : tx.txid ∉ engine.recentTxids.order) (h : engine.Sound config) :
    ∃ lost, (engine.ingestedStore tx).txOrder.length + lost =
        (engine.store.purgeExpired tx.observedAtMs).2.txOrder.length +
          (Delivery.storesTransaction (.transaction tx) engine).toNat ∧
      (lost = 0 ↔ ¬ (Delivery.storesTransaction (.transaction tx) engine = true ∧
        engine.store.config.maxTransactions ≤
          (engine.store.purgeExpired tx.observedAtMs).2.txOrder.length)) ∧
      (engine.ingestedStore tx).blockOrder = engine.store.blockOrder := by
  have hpurged := h.store.sound.purgeExpired tx.observedAtMs
  obtain ⟨hconfig, hblocks, _⟩ := MemoryStore.purgeExpired_frame h.store.sound tx.observedAtMs
  obtain ⟨lost, hsize, hlost⟩ := MemoryStore.insertTransaction_size hpurged tx
  have hframe := MemoryStore.insertTransaction_frame hpurged tx
  rw [hconfig] at hlost
  simp only [ingestedStore, Delivery.storesTransaction, decide_eq_true hfresh, Bool.true_and]
  cases engine.config.mode.retainsTransaction (!(scan tx engine.matcherList).isEmpty) with
  | false =>
    refine ⟨0, ?_, iff_of_true rfl (by simp), ?_⟩
    · split
      · exact congrArg List.length (MemoryStore.foldl_insertMatch_frame _ _).1
      · rfl
    · split
      · exact (MemoryStore.foldl_insertMatch_frame _ _).2.trans hblocks
      · exact hblocks
  | true =>
    refine ⟨lost, ?_, hlost, ?_⟩
    · rw [Bool.true_and, ← hsize]
      split
      · exact congrArg (List.length · + lost) (MemoryStore.foldl_insertMatch_frame _ _).1
      · rfl
    · split
      · exact (MemoryStore.foldl_insertMatch_frame _ _).2.trans (hframe.2.2.trans hblocks)
      · exact hframe.2.2.trans hblocks

/-- The store a block leaves. -/
theorem ingestBlock_store {value : IndexedBlock} (hrun : (engine.ingestBlock value).1 = .ok ()) :
    (engine.ingestBlock value).2.store =
      (if engine.config.mode.retainsBlocks then
        ((engine.store.purgeExpired value.observedAtMs).2.insertBlock value).2
      else (engine.store.purgeExpired value.observedAtMs).2).takeEvictions.2 := by
  rw [IndexerEngine.ingestBlock] at hrun ⊢
  split at hrun
  case isTrue => cases hrun
  case isFalse hblank =>
    rw [if_neg hblank]
    have hstore := (retainBlock_effect (engine.beginBlock value) value).1
    exact congrArg (fun store => store.takeEvictions.2) hstore

/-- The store a transaction leaves. -/
theorem ingestTransaction_store (h : engine.Sound config) {tx : IndexedTransaction}
    (hrun : ((engine.ingestTransaction tx).forget).1 = .ok ()) :
    (engine.ingestTransaction tx).2.store =
      if tx.txid ∈ engine.recentTxids.order then (engine.store.purgeExpired tx.observedAtMs).2
      else (engine.ingestedStore tx).takeEvictions.2 := by
  obtain ⟨error, _, heq⟩ | ⟨_, hmem, heq⟩ | ⟨_, hfresh, heq⟩ := ingestTransaction_cases h tx
  · rw [heq] at hrun
    cases hrun
  · rw [heq, if_pos hmem]
    rfl
  · rw [heq, if_neg hfresh]
    exact (freshIngest_effect engine tx).1

end IndexerEngine

namespace Delivery

variable {config : IndexerConfig} {engine : IndexerEngine}

/-- One delivery and the transactions of the store. -/
theorem transactions_step (delivery : Delivery) (h : engine.Sound config)
    (hrun : (delivery.run engine).1 = .ok ()) :
    ∃ lost, (delivery.run engine).2.store.counts.1 + lost =
        engine.store.counts.1 + (delivery.storesTransaction engine).toNat ∧
      (lost = 0 ↔ ¬ delivery.LosesTransaction engine) := by
  have hafter := (h.deliver delivery).counts.1
  obtain ⟨purged, hpurge, hpurged⟩ :=
    MemoryStore.purgeExpired_size h.store.sound delivery.observedAtMs
  rw [hafter, h.counts.1, LosesTransaction, h.counts.1, not_or, ← hpurged]
  cases delivery with
  | block value =>
    refine ⟨purged, ?_, by simp [storesTransaction]⟩
    have hframe := MemoryStore.insertBlock_frame
      (h.store.sound.purgeExpired value.observedAtMs) value
    change ((engine.ingestBlock value).2.store.txOrder.length + purged = _)
    rw [IndexerEngine.ingestBlock_store hrun]
    refine Eq.trans ?_ hpurge
    split
    · exact congrArg (List.length · + purged) hframe.2.2.1
    · rfl
  | transaction tx =>
    change (∃ lost, (engine.ingestTransaction tx).2.store.txOrder.length + lost = _ ∧ _)
    rw [IndexerEngine.ingestTransaction_store h hrun]
    by_cases hmem : tx.txid ∈ engine.recentTxids.order
    · rw [if_pos hmem]
      exact ⟨purged, hpurge.trans (by simp [storesTransaction, hmem]), by simp [storesTransaction, hmem]⟩
    · rw [if_neg hmem]
      obtain ⟨lost, hsize, hlost, _⟩ := IndexerEngine.ingestedStore_orders engine tx hmem h
      refine ⟨lost + purged, ?_, ?_⟩
      · change (engine.ingestedStore tx).txOrder.length + (lost + purged) = _
        change (engine.store.purgeExpired tx.observedAtMs).2.txOrder.length + purged = _ at hpurge
        omega
      · rw [Nat.add_eq_zero_iff, hlost, and_comm]
        refine and_congr_right fun hzero => ?_
        rw [hzero] at hpurge
        rw [← hpurge]
        rfl

/-- One delivery and the blocks of the store. -/
theorem blocks_step (delivery : Delivery) (h : engine.Sound config)
    (hrun : (delivery.run engine).1 = .ok ()) :
    ∃ lost, (delivery.run engine).2.store.counts.2.1 + lost =
        engine.store.counts.2.1 + (delivery.storesBlock engine).toNat ∧
      (lost = 0 ↔ ¬ delivery.LosesBlock engine) := by
  have hafter := (h.deliver delivery).counts.2
  obtain ⟨hconfig, horder, _⟩ :=
    MemoryStore.purgeExpired_frame h.store.sound delivery.observedAtMs
  rw [hafter, h.counts.2, LosesBlock, h.counts.2]
  cases delivery with
  | block value =>
    obtain ⟨lost, hsize, hlost⟩ := MemoryStore.insertBlock_size
      (h.store.sound.purgeExpired value.observedAtMs) value
    change (∃ lost, (engine.ingestBlock value).2.store.blockOrder.length + lost = _ ∧ _)
    change (engine.store.purgeExpired value.observedAtMs).2.config = _ at hconfig
    change (engine.store.purgeExpired value.observedAtMs).2.blockOrder = _ at horder
    rw [hconfig, horder] at hlost
    rw [horder] at hsize
    rw [IndexerEngine.ingestBlock_store hrun, storesBlock]
    cases engine.config.mode.retainsBlocks with
    | false => exact ⟨0, congrArg List.length horder, by simp⟩
    | true => exact ⟨lost, hsize, hlost⟩
  | transaction tx =>
    refine ⟨0, ?_, by simp [storesBlock]⟩
    change (engine.ingestTransaction tx).2.store.blockOrder.length = _
    rw [IndexerEngine.ingestTransaction_store h hrun]
    by_cases hmem : tx.txid ∈ engine.recentTxids.order
    · rw [if_pos hmem]
      exact congrArg List.length horder
    · rw [if_neg hmem]
      obtain ⟨_, _, _, hblocks⟩ := IndexerEngine.ingestedStore_orders engine tx hmem h
      exact congrArg List.length hblocks

end Delivery

/-- What a number of deliveries count, each at the engine it meets. -/
def tally (count : Delivery → IndexerEngine → Nat) : List Delivery → IndexerEngine → Nat
  | [], _ => 0
  | delivery :: rest, engine => count delivery engine + tally count rest (delivery.run engine).2

theorem deliverAll_cons_eq_ok {delivery : Delivery} {rest : List Delivery} {engine after : IndexerEngine} :
    deliverAll (delivery :: rest) engine = (.ok (), after) ↔
      (delivery.run engine).1 = .ok () ∧ deliverAll rest (delivery.run engine).2 = (.ok (), after) := by
  rw [deliverAll, Outcome.andThen_eq_ok]
  constructor
  · intro h
    obtain ⟨_, next, hrun, hrest⟩ := h
    rw [hrun]
    exact ⟨rfl, hrest⟩
  · intro h
    exact ⟨(), (delivery.run engine).2, Prod.ext h.1 rfl, h.2⟩

/-- A size that each delivery raises by what it stores and lowers by what it loses: over a whole
delivery it grows by what is stored, less what is lost. -/
theorem deliverAll_size {config : IndexerConfig} {size : IndexerEngine → Nat}
    {stores : Delivery → IndexerEngine → Nat} {loses : Delivery → IndexerEngine → Prop}
    (hstep : ∀ delivery engine, engine.Sound config → (delivery.run engine).1 = .ok () →
      ∃ lost, size (delivery.run engine).2 + lost = size engine + stores delivery engine ∧
        (lost = 0 ↔ ¬ loses delivery engine))
    {items : List Delivery} {engine after : IndexerEngine} (h : engine.Sound config)
    (hrun : deliverAll items engine = (.ok (), after)) :
    ∃ lost, size after + lost = size engine + tally stores items engine ∧
      (lost = 0 ↔ Delivers (fun delivery engine => ¬ loses delivery engine) items engine) := by
  induction items generalizing engine with
  | nil =>
    cases hrun
    exact ⟨0, rfl, iff_of_true rfl trivial⟩
  | cons delivery items ih =>
    obtain ⟨hfirst, hrest⟩ := deliverAll_cons_eq_ok.mp hrun
    obtain ⟨lost, hsize, hlost⟩ := hstep delivery engine h hfirst
    obtain ⟨lost', hsize', hlost'⟩ := ih (h.deliver delivery) hrest
    refine ⟨lost + lost', ?_, ?_⟩
    · rw [tally]
      omega
    · rw [Nat.add_eq_zero_iff, hlost, hlost', Delivers, imp_iff_right hfirst]

/-- Nothing is counted when nothing is counted at any delivery. -/
theorem tally_eq_zero_iff {count : Delivery → IndexerEngine → Nat} {items : List Delivery}
    {engine after : IndexerEngine} (hrun : deliverAll items engine = (.ok (), after)) :
    tally count items engine = 0 ↔
      Delivers (fun delivery engine => count delivery engine = 0) items engine := by
  induction items generalizing engine with
  | nil => exact iff_of_true rfl trivial
  | cons delivery items ih =>
    obtain ⟨hfirst, hrest⟩ := deliverAll_cons_eq_ok.mp hrun
    rw [tally, Nat.add_eq_zero_iff, ih hrest, Delivers, imp_iff_right hfirst]

theorem tally_append {count : Delivery → IndexerEngine → Nat} {first rest : List Delivery}
    {engine after : IndexerEngine} (hrun : deliverAll first engine = (.ok (), after)) :
    tally count (first ++ rest) engine = tally count first engine + tally count rest after := by
  induction first generalizing engine with
  | nil =>
    cases hrun
    exact (Nat.zero_add _).symm
  | cons delivery first ih =>
    obtain ⟨_, hrest⟩ := deliverAll_cons_eq_ok.mp hrun
    rw [List.cons_append, tally, tally, ih hrest, Nat.add_assoc]

/-! ## What the size tells -/

/-- The size shows what is stored: nothing is lost on the way, or nothing is stored. -/
def SizeTells (stores : Delivery → IndexerEngine → Bool) (loses : Delivery → IndexerEngine → Prop)
    (items : List Delivery) (engine : IndexerEngine) : Prop :=
  Delivers (fun delivery engine => ¬ loses delivery engine) items engine ∨
    Delivers (fun delivery engine => stores delivery engine = false) items engine

/-- The batches of a delta one by one, each at the engine it meets. -/
def EachBatch (ok : List Delivery → IndexerEngine → Prop) : List BlockBatch → IndexerEngine → Prop
  | [], _ => True
  | batch :: rest, engine =>
    ok batch.deliveries engine ∧ EachBatch ok rest (deliverAll batch.deliveries engine).2

/-- How many deliveries store a record. -/
abbrev tallyStored (stores : Delivery → IndexerEngine → Bool) :
    List Delivery → IndexerEngine → Nat :=
  tally fun delivery engine => (stores delivery engine).toNat

theorem tallyStored_eq_zero_iff {stores : Delivery → IndexerEngine → Bool} {items : List Delivery}
    {engine after : IndexerEngine} (hrun : deliverAll items engine = (.ok (), after)) :
    tallyStored stores items engine = 0 ↔
      Delivers (fun delivery engine => stores delivery engine = false) items engine := by
  rw [tally_eq_zero_iff hrun]
  simp only [Bool.toNat_eq_zero]

/-- The growth of a size is at most what is stored, and equal to it when the size shows it. -/
theorem deliverAll_growth {config : IndexerConfig} {size : IndexerEngine → Nat}
    {stores : Delivery → IndexerEngine → Bool} {loses : Delivery → IndexerEngine → Prop}
    (hstep : ∀ delivery engine, engine.Sound config → (delivery.run engine).1 = .ok () →
      ∃ lost, size (delivery.run engine).2 + lost = size engine + (stores delivery engine).toNat ∧
        (lost = 0 ↔ ¬ loses delivery engine))
    {items : List Delivery} {engine after : IndexerEngine} (h : engine.Sound config)
    (hrun : deliverAll items engine = (.ok (), after)) :
    size after - size engine ≤ tallyStored stores items engine ∧
      (size after - size engine = tallyStored stores items engine ↔
        SizeTells stores loses items engine) := by
  obtain ⟨lost, hsize, hlost⟩ := deliverAll_size hstep h hrun
  change size after + lost = size engine + tallyStored stores items engine at hsize
  rw [SizeTells, ← hlost, ← tallyStored_eq_zero_iff hrun]
  constructor
  · omega
  · omega

theorem transactions_growth {config : IndexerConfig} {items : List Delivery}
    {engine after : IndexerEngine} (h : engine.Sound config)
    (hrun : deliverAll items engine = (.ok (), after)) :
    after.store.counts.1 - engine.store.counts.1 ≤
        tallyStored Delivery.storesTransaction items engine ∧
      (after.store.counts.1 - engine.store.counts.1 =
          tallyStored Delivery.storesTransaction items engine ↔
        SizeTells Delivery.storesTransaction Delivery.LosesTransaction items engine) :=
  @deliverAll_growth config (fun engine => engine.store.counts.1) _ _
    (fun delivery _ hsound hok => delivery.transactions_step hsound hok) _ _ _ h hrun

theorem blocks_growth {config : IndexerConfig} {items : List Delivery}
    {engine after : IndexerEngine} (h : engine.Sound config)
    (hrun : deliverAll items engine = (.ok (), after)) :
    after.store.counts.2.1 - engine.store.counts.2.1 ≤
        tallyStored Delivery.storesBlock items engine ∧
      (after.store.counts.2.1 - engine.store.counts.2.1 =
          tallyStored Delivery.storesBlock items engine ↔
        SizeTells Delivery.storesBlock Delivery.LosesBlock items engine) :=
  @deliverAll_growth config (fun engine => engine.store.counts.2.1) _ _
    (fun delivery _ hsound hok => delivery.blocks_step hsound hok) _ _ _ h hrun

/-! ## Collecting the matches -/

theorem length_scan_le {config : IndexerConfig} {engine : IndexerEngine} (h : engine.Sound config)
    (tx : IndexedTransaction) : (scan tx engine.matcherList).length ≤ 4096 := by
  rw [scan, List.length_map]
  refine (List.length_filter_le _ _).trans ?_
  rw [IndexerEngine.matcherList, List.length_map]
  exact h.matchers.length_le

/-- What the loops publish. -/
abbrev tallyPublished : List Delivery → IndexerEngine → Nat :=
  tally fun delivery engine => (delivery.published engine).length

section collects

/-! A total that stands for a number, and goes on standing for it as matches are added. -/

variable {α : Type} {stands : α → Nat → Prop} {collect : α → List IndexedMatch → α}
  (hcollect : ∀ total found count, found.length ≤ 4096 → stands total count →
    stands (collect total found) (count + found.length))
include hcollect

theorem ingestTransactions_collects {config : IndexerConfig} {txs : List IndexedTransaction}
    {total result : α} {count : Nat} {engine after : IndexerEngine} (h : engine.Sound config)
    (hstands : stands total count)
    (hrun : IndexerEngine.ingestTransactions collect total txs engine = (.ok result, after)) :
    stands result (count + tallyPublished (txs.map .transaction) engine) := by
  induction txs generalizing total count engine with
  | nil =>
    cases hrun
    exact hstands
  | cons tx txs ih =>
    rw [IndexerEngine.ingestTransactions, Outcome.andThen_eq_ok] at hrun
    obtain ⟨found, next, hfirst, hrest⟩ := hrun
    have hpublished : found = Delivery.published (.transaction tx) engine := by
      rw [Delivery.published]
      obtain ⟨error, _, heq⟩ | ⟨_, hmem, heq⟩ | ⟨_, hfresh, heq⟩ :=
        IndexerEngine.ingestTransaction_cases h tx
      · rw [heq] at hfirst
        cases hfirst
      · rw [heq] at hfirst
        rw [if_pos hmem]
        exact (Except.ok.inj (congrArg Prod.fst hfirst)).symm
      · rw [heq] at hfirst
        rw [if_neg hfresh]
        exact (Except.ok.inj (congrArg Prod.fst hfirst)).symm
    have hnext : (Delivery.run (.transaction tx) engine).2 = next := congrArg Prod.snd hfirst
    have hlen : found.length ≤ 4096 := by
      rw [hpublished, Delivery.published]
      split
      · exact Nat.zero_le _
      · exact length_scan_le h tx
    have hrest := ih (hnext ▸ h.deliver (.transaction tx)) (hcollect total found count hlen hstands) hrest
    rw [List.map_cons, tallyPublished, tally, hnext, ← hpublished, ← Nat.add_assoc]
    exact hrest

theorem ingestBatch_collects {config : IndexerConfig} {batch : BlockBatch} {total result : α}
    {count : Nat} {engine after : IndexerEngine} (h : engine.Sound config)
    (hstands : stands total count)
    (hrun : IndexerEngine.ingestBatch collect total batch engine = (.ok result, after)) :
    stands result (count + tallyPublished batch.deliveries engine) ∧
      deliverAll batch.deliveries engine = (.ok (), after) := by
  have hdelivered := forget_ingestBatch collect total batch engine
  rw [hrun] at hdelivered
  rw [IndexerEngine.ingestBatch, Outcome.andThen_eq_ok] at hrun
  obtain ⟨_, next, hblock, hrest⟩ := hrun
  have hnext : (Delivery.run (.block batch.block) engine).2 = next := congrArg Prod.snd hblock
  have hsound : next.Sound config := hnext ▸ h.deliver (.block batch.block)
  refine ⟨?_, hdelivered.symm⟩
  have hall := ingestTransactions_collects hcollect hsound hstands hrest
  rw [BlockBatch.deliveries, tallyPublished, tally, hnext]
  exact (Nat.zero_add (tallyPublished (batch.transactions.map .transaction) next)).symm ▸ hall

end collects

end KaspaPortal.Indexer
