import KaspaPortal.Indexer.Added

/-!
# What sync reports count

The counts of added records are differences of sizes, taken over a whole sync or over each accepted
block. Where the store loses records in between, they tell less than was inserted.

What the node leaves out of a batch cannot be seen in a report, and is not the subject.
-/
namespace KaspaPortal.Guarantees
open Lib Indexer

/-- The transactions that deliveries insert. -/
abbrev insertedTransactions : List Delivery → IndexerEngine → Nat :=
  tallyStored Delivery.storesTransaction

/-- The blocks that deliveries insert. -/
abbrev insertedBlocks : List Delivery → IndexerEngine → Nat := tallyStored Delivery.storesBlock

/-- The number of transactions tells how many were inserted. -/
abbrev TransactionsTell : List Delivery → IndexerEngine → Prop :=
  SizeTells Delivery.storesTransaction Delivery.LosesTransaction

/-- The number of blocks tells how many were inserted. -/
abbrev BlocksTell : List Delivery → IndexerEngine → Prop :=
  SizeTells Delivery.storesBlock Delivery.LosesBlock

/-- A counter that stops at its maximum stands for the number it reached or passed. -/
def Capped (counter : UInt64) (count : Nat) : Prop := counter.toNat = min count u64Max.toNat

theorem capped_countUp {total : UInt64} {found : List IndexedMatch} {count : Nat}
    (hlen : found.length ≤ 4096) (h : Capped total count) :
    Capped (IndexerEngine.countUp total found.length) (count + found.length) := by
  rw [Capped] at h ⊢
  rw [IndexerEngine.countUp, toNat_saturatingAdd, h, ofNat_toNat (by omega)]
  omega

theorem syncBatches_spec {config : IndexerConfig} {batches : List BlockBatch}
    {added result : UInt64} {count : Nat} {engine after : IndexerEngine} (h : engine.Sound config)
    (hadded : Capped added count)
    (hrun : IndexerEngine.syncBatches added batches engine = (.ok result, after)) :
    Capped result (count + tallyPublished (batches.flatMap BlockBatch.deliveries) engine) ∧
      deliverAll (batches.flatMap BlockBatch.deliveries) engine = (.ok (), after) := by
  have hdelivered := forget_syncBatches added batches engine
  rw [hrun] at hdelivered
  refine ⟨?_, hdelivered.symm⟩
  clear hdelivered
  induction batches generalizing added count engine with
  | nil =>
    cases hrun
    exact hadded
  | cons batch batches ih =>
    rw [IndexerEngine.syncBatches, Outcome.andThen_eq_ok] at hrun
    obtain ⟨next, reached, hbatch, hrest⟩ := hrun
    obtain ⟨hnext, hreached⟩ := ingestBatch_collects
      (fun _ _ _ hlen hstands => capped_countUp hlen hstands) h hadded hbatch
    have hsound : reached.Sound config := by
      have hall := h.deliverAll batch.deliveries
      rw [hreached] at hall
      exact hall
    have hall := ih hsound hnext hrest
    rw [List.flatMap_cons, tallyPublished, tally_append hreached, ← Nat.add_assoc]
    exact hall

/-- The loop over accepted blocks adds up the growth over each, which tells what was inserted when
it does so for each. -/
theorem acceptBatches_spec {config : IndexerConfig} {batches : List BlockBatch}
    {added result : IndexerEngine.AddedCounts} {engine after : IndexerEngine}
    (h : engine.Sound config)
    (hrun : IndexerEngine.acceptBatches added batches engine = (.ok result, after)) :
    (result.transactions ≤ added.transactions +
        insertedTransactions (batches.flatMap BlockBatch.deliveries) engine ∧
      (result.transactions = added.transactions +
          insertedTransactions (batches.flatMap BlockBatch.deliveries) engine ↔
        EachBatch TransactionsTell batches engine)) ∧
    (result.blocks ≤ added.blocks + insertedBlocks (batches.flatMap BlockBatch.deliveries) engine ∧
      (result.blocks = added.blocks +
          insertedBlocks (batches.flatMap BlockBatch.deliveries) engine ↔
        EachBatch BlocksTell batches engine)) ∧
    result.matches = added.matches +
      tallyPublished (batches.flatMap BlockBatch.deliveries) engine := by
  induction batches generalizing added engine with
  | nil =>
    cases hrun
    exact ⟨⟨Nat.le_refl _, iff_of_true rfl trivial⟩, ⟨Nat.le_refl _, iff_of_true rfl trivial⟩, rfl⟩
  | cons batch batches ih =>
    rw [IndexerEngine.acceptBatches, Outcome.andThen_eq_ok] at hrun
    obtain ⟨addedMatches, next, hbatch, hrest⟩ := hrun
    have hcounts : ∀ (total : Nat) (found : List IndexedMatch) (count : Nat), found.length ≤ 4096 →
        total = count → total + found.length = count + found.length := by
      intro total found count _ htotal
      rw [htotal]
    obtain ⟨hmatches, hnext⟩ := ingestBatch_collects hcounts h rfl hbatch
    have hsound : next.Sound config := by
      have hall := h.deliverAll batch.deliveries
      rw [hnext] at hall
      exact hall
    have htx : next.store.counts.1 - engine.store.counts.1 ≤
          insertedTransactions batch.deliveries engine ∧
        (next.store.counts.1 - engine.store.counts.1 =
          insertedTransactions batch.deliveries engine ↔ TransactionsTell batch.deliveries engine) :=
      transactions_growth h hnext
    have hblock : next.store.counts.2.1 - engine.store.counts.2.1 ≤
          insertedBlocks batch.deliveries engine ∧
        (next.store.counts.2.1 - engine.store.counts.2.1 =
          insertedBlocks batch.deliveries engine ↔ BlocksTell batch.deliveries engine) :=
      blocks_growth h hnext
    -- the rest is counted from the engine that this batch leaves
    have hsplit : ∀ count, tally count ((batch :: batches).flatMap BlockBatch.deliveries) engine =
        tally count batch.deliveries engine +
          tally count (batches.flatMap BlockBatch.deliveries) next := by
      intro count
      rw [List.flatMap_cons, tally_append hnext]
    obtain ⟨⟨htxs, htxsiff⟩, ⟨hblocks, hblocksiff⟩, hfound⟩ := ih hsound hrest
    dsimp only at htxs htxsiff hblocks hblocksiff hfound
    rw [EachBatch, EachBatch, hnext, ← htx.2, ← hblock.2, ← htxsiff, ← hblocksiff]
    have htxsplit : insertedTransactions ((batch :: batches).flatMap BlockBatch.deliveries) engine =
        insertedTransactions batch.deliveries engine +
          insertedTransactions (batches.flatMap BlockBatch.deliveries) next := hsplit _
    have hfoundsplit : tallyPublished ((batch :: batches).flatMap BlockBatch.deliveries) engine =
        tallyPublished batch.deliveries engine +
          tallyPublished (batches.flatMap BlockBatch.deliveries) next := hsplit _
    have hblocksplit : insertedBlocks ((batch :: batches).flatMap BlockBatch.deliveries) engine =
        insertedBlocks batch.deliveries engine +
          insertedBlocks (batches.flatMap BlockBatch.deliveries) next := hsplit _
    refine ⟨⟨?_, ?_⟩, ⟨?_, ?_⟩, ?_⟩
    · rw [htxsplit]
      omega
    · rw [htxsplit]
      omega
    · rw [hblocksplit]
      omega
    · rw [hblocksplit]
      omega
    · rw [hfound, hmatches, hfoundsplit, Nat.add_assoc]

/-- Where a sync succeeds, its report counts what it inserted exactly when the sizes of the store
tell it: over the whole sync, or for a delta over each accepted block. The matches are counted as
they are published. -/
theorem sync_reports {config : IndexerConfig} {engine : IndexerEngine} {issued : List UInt64}
    (h : Reachable config engine issued) :
    (∀ batches checkpoint report after,
      engine.applySyncBatches batches checkpoint = (.ok report, after) →
      (report.transactionsAdded.toNat =
            insertedTransactions (batches.flatMap BlockBatch.deliveries) engine ∧
          report.blocksAdded.toNat =
            insertedBlocks (batches.flatMap BlockBatch.deliveries) engine ∧
          report.matchesAdded.toNat =
            tallyPublished (batches.flatMap BlockBatch.deliveries) engine ↔
        TransactionsTell (batches.flatMap BlockBatch.deliveries) engine ∧
          BlocksTell (batches.flatMap BlockBatch.deliveries) engine ∧
          tallyPublished (batches.flatMap BlockBatch.deliveries) engine < 2 ^ 64)) ∧
    ∀ delta report after trimmed, engine.reconcileVirtualChain delta = (.ok report, after) →
      trimmed = (engine.removeOrphans delta.removedBlockHashes).2 →
      (report.addedTransactions =
            insertedTransactions (delta.accepted.flatMap BlockBatch.deliveries) trimmed ∧
          report.addedBlocks = insertedBlocks (delta.accepted.flatMap BlockBatch.deliveries) trimmed ∧
          report.addedMatches =
            tallyPublished (delta.accepted.flatMap BlockBatch.deliveries) trimmed ↔
        EachBatch TransactionsTell delta.accepted trimmed ∧
          EachBatch BlocksTell delta.accepted trimmed) := by
  have hsound := h.sound
  constructor
  · intro batches checkpoint report after hrun
    rw [IndexerEngine.applySyncBatches] at hrun
    split at hrun
    case h_1 => cases hrun
    case h_2 =>
    split at hrun
    case isTrue => cases hrun
    case isFalse =>
    rw [Outcome.andThen_eq_ok] at hrun
    obtain ⟨matchesAdded, synced, hsync, hrest⟩ := hrun
    rw [Outcome.andThen_eq_ok] at hrest
    obtain ⟨_, checked, _, hreport⟩ := hrest
    cases hreport
    have hzero : Capped 0 0 := (Nat.zero_min _).symm
    obtain ⟨hmatches, hdelivered⟩ := syncBatches_spec hsound hzero hsync
    have hsynced : synced.Sound config := by
      have hall := hsound.deliverAll (batches.flatMap BlockBatch.deliveries)
      rw [hdelivered] at hall
      exact hall
    have hcounts := hsynced.counts
    have htxle := hsynced.store.sound.transactions_le
    have hblockle := hsynced.store.sound.blocks_le
    rw [hsynced.store.config_eq] at htxle hblockle
    have hmaxtx := hsynced.bounded.transactions_le
    have hmaxblock := hsynced.bounded.blocks_le
    rw [ofNat_toNat (by omega), ofNat_toNat (by omega)]
    have htx := (transactions_growth hsound hdelivered).2
    have hblock := (blocks_growth hsound hdelivered).2
    -- the counter of matches is the only one that can saturate
    have hmax : u64Max.toNat = 2 ^ 64 - 1 := by decide
    rw [Capped, Nat.zero_add, hmax] at hmatches
    refine and_congr htx (and_congr hblock ?_)
    change matchesAdded.toNat = tallyPublished _ engine ↔ _
    rw [hmatches]
    omega
  · intro delta report after trimmed hrun htrimmed
    rw [IndexerEngine.reconcileVirtualChain] at hrun
    split at hrun
    case h_1 => cases hrun
    case h_2 =>
    rw [Outcome.andThen_eq_ok] at hrun
    obtain ⟨added, accepted, haccept, hrest⟩ := hrun
    rw [Outcome.andThen_eq_ok] at hrest
    obtain ⟨_, checked, _, hreport⟩ := hrest
    cases hreport
    rw [← htrimmed] at haccept
    -- the batches are accepted by the engine that the removal left behind
    have hstart : trimmed.Sound config := htrimmed ▸ hsound.removeOrphans _
    obtain ⟨htx, hblock, hmatches⟩ := acceptBatches_spec hstart haccept
    have htx := htx.2
    have hblock := hblock.2
    dsimp only at htx hblock hmatches
    rw [Nat.zero_add] at htx hblock hmatches
    rw [← htx, ← hblock]
    exact ⟨fun hall => ⟨hall.1, hall.2.1⟩, fun hall => ⟨hall.1, hall.2, hmatches⟩⟩

namespace SyncReports

def transaction (txid : String) : IndexedTransaction := ⟨txid, none, none, 0, [], []⟩

/-- One block with one transaction. -/
def batch (hash txid : String) : BlockBatch := ⟨⟨hash, none, 0, [txid]⟩, [transaction txid]⟩

/-- Room for one transaction, which the store holds. -/
def full : IndexerEngine :=
  (EngineOp.ingestTransaction (transaction "a")).run (.initial .smallest)

theorem full_reachable : Reachable .smallest full [] :=
  .call (.new rfl) (.ingestTransaction (transaction "a")) trivial

/-- What a sync of one batch reports. -/
def report (transactionsAdded : UInt64) : SyncReport := ⟨transactionsAdded, 1, 0, .default⟩

theorem sync_eq {engine : IndexerEngine} {batches : List BlockBatch} {expected : SyncReport}
    (h : (engine.applySyncBatches batches .default).1 = .ok expected) :
    engine.applySyncBatches batches .default =
      (.ok expected, (engine.applySyncBatches batches .default).2) := Prod.ext h rfl

end SyncReports

open SyncReports

theorem sync_reports_room :
    TransactionsTell (batch "b" "c").deliveries (.initial .smallest) := by
  have hstart : Reachable .smallest (.initial .smallest) [] := .new rfl
  have hreport : ((IndexerEngine.initial .smallest).applySyncBatches [batch "b" "c"] .default).1 =
      .ok (report 1) := by decide
  exact (((sync_reports hstart).1 _ _ _ _ (sync_eq hreport)).mp
    ⟨by decide, by decide, by decide⟩).1

/-- The full store takes the transaction and gives up the one it held: one was inserted, and the
report counts none. -/
theorem sync_reports_full :
    Reachable .smallest full [] ∧ ∃ after,
      full.applySyncBatches [batch "b" "c"] .default = (.ok (report 0), after) ∧
      (report 0).transactionsAdded.toNat ≠
        insertedTransactions ([batch "b" "c"].flatMap BlockBatch.deliveries) full := by
  have hreport : (full.applySyncBatches [batch "b" "c"] .default).1 = .ok (report 0) := by
    decide
  have hinserted : insertedTransactions ([batch "b" "c"].flatMap BlockBatch.deliveries) full = 1 := by
    decide
  refine ⟨full_reachable, _, sync_eq hreport, ?_⟩
  rw [hinserted]
  decide

end KaspaPortal.Guarantees
