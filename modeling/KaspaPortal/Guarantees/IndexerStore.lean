import KaspaPortal.Indexer.Backed
import KaspaPortal.Indexer.Invariant

/-!
# The store of the indexer, over whole runs

The queues list their maps and the limits hold after every call. That a retained match
names a retained transaction holds as long as restored snapshots bring the transactions
of their matches: a restore takes the matches as they come.

Time is an argument of each call and may go back: none of the results asks for an order
of the calls' times.
-/
namespace KaspaPortal.Guarantees
open Lib Indexer


/-- The queues enumerate the keys of their maps, the counts are within the configured
limits, and each retained match names a retained transaction. -/
structure StoreInvariant (config : IndexerConfig) (store : MemoryStore) : Prop where
  txOrder_nodup : store.txOrder.Nodup
  txOrder_keys : ∀ id, id ∈ store.txOrder ↔ id ∈ store.tx
  blockOrder_nodup : store.blockOrder.Nodup
  blockOrder_keys : ∀ hash, hash ∈ store.blockOrder ↔ hash ∈ store.blocks
  transactions_le : store.counts.1 ≤ config.maxTransactions
  blocks_le : store.counts.2.1 ≤ config.maxBlocks
  matches_le : store.counts.2.2 ≤ config.maxMatches
  backed : store.Backed

theorem storeInvariant_of_backed {config : IndexerConfig} {engine : IndexerEngine}
    (h : engine.Sound config) (hbacked : engine.store.Backed) :
    StoreInvariant config engine.store where
  txOrder_nodup := h.store.sound.transactions.nodup
  txOrder_keys := h.store.sound.transactions.mem_iff
  blockOrder_nodup := h.store.sound.blocks.nodup
  blockOrder_keys := h.store.sound.blocks.mem_iff
  transactions_le := by
    have hle := h.store.sound.transactions_le
    rw [h.store.config_eq] at hle
    exact h.store.sound.transactions.len_eq.trans_le hle
  blocks_le := by
    have hle := h.store.sound.blocks_le
    rw [h.store.config_eq] at hle
    exact h.store.sound.blocks.len_eq.trans_le hle
  matches_le := by
    have hle := h.store.sound.matches_le
    rw [h.store.config_eq] at hle
    exact hle
  backed := hbacked

/-- In a run whose restores bring the transactions of their matches the invariant holds
throughout, and a further call keeps it just when it is another such call. -/
theorem indexer_store_invariant {config : IndexerConfig} {engine : IndexerEngine}
    {issued : List UInt64} (h : Run config (RestoresBacked config) engine issued) :
    StoreInvariant config engine.store ∧
      ∀ op : EngineOp, StoreInvariant config (op.run engine).store ↔
        RestoresBacked config op engine := by
  have hsound := h.sound
  have hbacked := backed_of_run h
  refine ⟨storeInvariant_of_backed hsound hbacked, fun op => ⟨fun hinv => ?_, fun hop => ?_⟩⟩
  · exact restoresBacked_of_backed hsound op hinv.backed
  · exact storeInvariant_of_backed (hsound.run op) (backed_run hsound hbacked op hop)

namespace IndexerStore

/-- Room for two records of each kind, and a window of two ids. -/
def config : IndexerConfig :=
  { IndexerConfig.smallest with
    maxTransactions := 2, maxBlocks := 2, maxMatches := 2, dedupeWindow := 2 }

def paying (txid address : String) : IndexedTransaction where
  txid := txid
  blockHash := none
  daaScore := none
  observedAtMs := 0
  addresses := [address]
  payload := []

/-- Three transactions of which the first is evicted, and the third comes with its match. -/
def backedSnapshot : IndexerSnapshot where
  transactions := [paying "p" "x", paying "q" "y", paying "r" "x"]
  blocks := [{ hash := "h", daaScore := none, observedAtMs := 0, txids := ["r"] }]
  «matches» := [{ matcherId := 1, txid := "r", observedAtMs := 0 }]

/-- Found transactions beyond the limit, a restore, and one more found transaction. -/
def operations : List EngineOp :=
  [.addMatcher (.address "x"), .ingestTransaction (paying "a" "x"),
    .ingestBlock { hash := "g", daaScore := none, observedAtMs := 0, txids := ["a"] },
    .ingestTransaction (paying "b" "x"), .ingestTransaction (paying "c" "x"),
    .restoreSnapshot backedSnapshot, .ingestTransaction (paying "d" "x")]

end IndexerStore

open IndexerStore

/-- At the end the store is full: the restored match and the new one name its transactions. -/
theorem indexer_store_invariant_restored :
    (runAll operations (.initial config)).store.counts = (2, 1, 2) ∧
      StoreInvariant config (runAll operations (.initial config)).store ∧
      ∀ op : EngineOp, StoreInvariant config (op.run (runAll operations (.initial config))).store ↔
        RestoresBacked config op (runAll operations (.initial config)) := by
  have hbacked : Calls (RestoresBacked config) operations (.initial config) := by
    simp only [operations, Calls, RestoresBacked, EngineOp.Restoring, SnapshotBacked]
    decide
  exact ⟨by decide, indexer_store_invariant ((Run.new rfl).calls hbacked)⟩

/-- A snapshot of one match and no transaction passes the checks, and the match is retained. -/
def orphanMatch : IndexerSnapshot where
  transactions := []
  blocks := []
  «matches» := [{ matcherId := 1, txid := "a", observedAtMs := 0 }]

theorem restored_match_unbacked :
    Reachable .smallest ((EngineOp.restoreSnapshot orphanMatch).run (.initial .smallest)) [] ∧
      ¬ StoreInvariant .smallest
        ((EngineOp.restoreSnapshot orphanMatch).run (.initial .smallest)).store := by
  refine ⟨.call (.new rfl) (.restoreSnapshot orphanMatch) trivial, fun hinv => ?_⟩
  have hmem := hinv.backed { matcherId := 1, txid := "a", observedAtMs := 0 } (by decide)
  exact absurd hmem (by decide)

end KaspaPortal.Guarantees

/-!
## Purging by age

The purge takes expired transactions off the front of the queue and stops at the first that has
not expired. The queue is in the order of arrival; the times are those the callers gave.
-/
namespace KaspaPortal.Guarantees
open Lib Indexer

/-- Older than the time to live, by the observation time of the transaction. -/
def Expired (ttl nowMs : UInt64) (tx : IndexedTransaction) : Prop :=
  ttl.toNat < nowMs.toNat - tx.observedAtMs.toNat

theorem hasExpired_iff {ttl nowMs : UInt64} {tx : IndexedTransaction} :
    MemoryStore.hasExpired ttl nowMs tx = true ↔ Expired ttl nowMs tx := by
  rw [MemoryStore.hasExpired, Bool.not_eq_true', decide_eq_false_iff_not, UInt64.le_iff_toNat_le,
    toNat_saturatingSub, Nat.not_le, Expired]

/-- What a purge by age is to do: nothing that has expired stays, everything else does, and the ids
are those of what went. -/
structure Purged (ttl nowMs : UInt64) (before after : MemoryStore) (ids : List String) : Prop where
  expired_gone : ∀ tx ∈ after.allTransactions, ¬ Expired ttl nowMs tx
  fresh_kept : ∀ tx ∈ before.allTransactions, ¬ Expired ttl nowMs tx → tx ∈ after.allTransactions
  ids_removed : ∀ id, id ∈ ids ↔ id ∈ before.tx ∧ id ∉ after.tx
  ids_nodup : ids.Nodup

theorem purge_fresh_kept {store : MemoryStore} (h : store.Sound) {nowMs : UInt64}
    (httl : store.config.transactionTtlMs ≠ 0) {tx : IndexedTransaction}
    (htx : tx ∈ store.allTransactions) (hfresh : ¬ Expired store.config.transactionTtlMs nowMs tx) :
    tx ∈ (store.purgeExpired nowMs).2.allTransactions := by
  rw [(MemoryStore.purgeExpired_records h nowMs httl).2]
  have hsplit := List.takeWhile_append_dropWhile
    (p := MemoryStore.hasExpired store.config.transactionTtlMs nowMs) (l := store.allTransactions)
  rw [← hsplit, List.mem_append] at htx
  refine htx.resolve_left fun hgone => hfresh ?_
  exact hasExpired_iff.mp (List.mem_takeWhile_imp hgone)

/-- The queue without its front: the ids there are what the map has lost. -/
theorem purge_ids {store : MemoryStore} (h : store.Sound) (nowMs : UInt64) :
    (∀ id, id ∈ (store.purgeExpired nowMs).1 ↔
      id ∈ store.tx ∧ id ∉ (store.purgeExpired nowMs).2.tx) ∧
      (store.purgeExpired nowMs).1.Nodup := by
  have hafter := h.purgeExpired nowMs
  obtain ⟨expired, kept, hsplit, heq⟩ := MemoryStore.purgeExpired_spec h nowMs
  obtain ⟨hnodup, _, hdisjoint⟩ := List.nodup_append.mp (hsplit ▸ h.transactions.nodup)
  rw [heq] at hafter ⊢
  refine ⟨fun id => ?_, hnodup⟩
  rw [h.mem_tx_iff, hafter.mem_tx_iff, hsplit, List.mem_append]
  constructor
  · intro hid
    exact ⟨.inl hid, fun hkept => hdisjoint id hid id hkept rfl⟩
  · intro hid
    exact hid.1.resolve_right hid.2

/-- A purge does all it is to do exactly when, in the order of arrival, nothing that has expired
stands behind a transaction that has not. -/
theorem ttl_purge {config : IndexerConfig} {engine : IndexerEngine} {issued : List UInt64}
    (h : Reachable config engine issued) (httl : 0 < config.transactionTtlMs) (nowMs : UInt64) :
    Purged config.transactionTtlMs nowMs engine.store (engine.purgeExpired nowMs).store
        (engine.store.purgeExpired nowMs).1 ↔
      engine.store.allTransactions.Pairwise fun earlier later =>
        Expired config.transactionTtlMs nowMs later →
          Expired config.transactionTtlMs nowMs earlier := by
  have hstore := h.sound.store
  have hconfig := hstore.config_eq
  have hnonzero : engine.store.config.transactionTtlMs ≠ 0 := by
    rw [hconfig]
    exact Ne.symm (UInt64.ne_of_lt httl)
  have hrecords := (MemoryStore.purgeExpired_records hstore.sound nowMs hnonzero).2
  have hgone : (∀ tx ∈ (engine.purgeExpired nowMs).store.allTransactions,
      ¬ Expired config.transactionTtlMs nowMs tx) ↔
      engine.store.allTransactions.Pairwise fun earlier later =>
        Expired config.transactionTtlMs nowMs later →
          Expired config.transactionTtlMs nowMs earlier := by
    change (∀ tx ∈ (engine.store.purgeExpired nowMs).2.allTransactions, _) ↔ _
    rw [hrecords, hconfig]
    simp only [← hasExpired_iff, Bool.not_eq_true]
    exact forall_dropWhile_iff
  obtain ⟨hids, hnodup⟩ := purge_ids hstore.sound nowMs
  rw [← hgone]
  refine ⟨Purged.expired_gone, fun hexpired => ⟨hexpired, fun tx htx hfresh => ?_, hids, hnodup⟩⟩
  rw [← hconfig] at hfresh
  exact purge_fresh_kept hstore.sound hnonzero htx hfresh

namespace TtlPurge

/-- Room for two transactions, which expire after ten milliseconds. -/
def config : IndexerConfig :=
  { IndexerConfig.smallest with maxTransactions := 2, dedupeWindow := 2, transactionTtlMs := 10 }

def transaction (txid : String) (observedAtMs : UInt64) : IndexedTransaction :=
  ⟨txid, none, none, observedAtMs, [], []⟩

/-- Two transactions, the first arrived first. -/
def arrived (first second : UInt64) : IndexerEngine :=
  runAll [.ingestTransaction (transaction "a" first), .ingestTransaction (transaction "b" second)]
    (.initial config)

theorem arrived_reachable (first second : UInt64) : Reachable config (arrived first second) [] :=
  .call (.call (.new rfl) (.ingestTransaction (transaction "a" first)) trivial)
    (.ingestTransaction (transaction "b" second)) trivial

end TtlPurge

open TtlPurge

theorem ttl_purge_in_order :
    Purged 10 65 (arrived 50 60).store ((arrived 50 60).purgeExpired 65).store
      ((arrived 50 60).store.purgeExpired 65).1 := by
  refine (ttl_purge (arrived_reachable 50 60) (by decide) 65).mpr ?_
  rw [show (arrived 50 60).store.allTransactions = [transaction "a" 50, transaction "b" 60] by
    decide]
  simp [Expired, transaction, config]

/-- The second transaction is older than the first, and stays behind it. -/
theorem ttl_purge_out_of_order :
    Reachable config (arrived 100 50) [] ∧
      ((arrived 100 50).purgeExpired 70).store.allTransactions =
        [transaction "a" 100, transaction "b" 50] ∧
      Expired 10 70 (transaction "b" 50) ∧
      ¬ Purged 10 70 (arrived 100 50).store ((arrived 100 50).purgeExpired 70).store
        ((arrived 100 50).store.purgeExpired 70).1 := by
  have hkept : ((arrived 100 50).purgeExpired 70).store.allTransactions =
      [transaction "a" 100, transaction "b" 50] := by decide
  have hold : Expired 10 70 (transaction "b" 50) := by simp [Expired, transaction]
  refine ⟨arrived_reachable 100 50, hkept, hold, fun h => ?_⟩
  exact h.expired_gone (transaction "b" 50) (by rw [hkept]; simp) hold

end KaspaPortal.Guarantees
