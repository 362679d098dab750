import KaspaPortal.Indexer.Invariant

/-!
# Matches and the transactions they name

A match comes after its transaction and goes before it, so each retained match names a
retained transaction, until a restore brings matches of its own.
-/
namespace KaspaPortal.Indexer
open Lib


variable {config : IndexerConfig} {store : MemoryStore} {engine : IndexerEngine}

/-! ## One operation of the store -/

theorem backed_insertTransaction (h : store.Sound) (hbacked : store.Backed)
    (value : IndexedTransaction) : (store.insertTransaction value).2.Backed := by
  intro item hitem
  by_cases hv : value.txid ∈ store.tx
  · rw [MemoryStore.insertTransaction_of_mem hv] at hitem ⊢
    exact hbacked item hitem
  · obtain ⟨-, hsound, -, hmatches⟩ := MemoryStore.insertTransaction_of_notMem h hv
    rw [hmatches, List.mem_filter, decide_eq_true_iff] at hitem
    have hnotMem : value.txid ∉ store.txOrder := fun hmem => hv ((h.mem_tx_iff _).mpr hmem)
    have horder := (MemoryStore.insertTransaction_order h value).2
    rw [pushKey, if_neg hnotMem] at horder
    have hsplit := pastLast_append_keepLast store.config.maxTransactions
      (store.txOrder ++ [value.txid])
    have hmem : item.txid ∈ store.txOrder ++ [value.txid] :=
      List.mem_append_left _ ((h.mem_tx_iff _).mp (hbacked item hitem.1))
    rw [← hsplit] at hmem
    rw [hsound.mem_tx_iff, horder]
    exact (List.mem_append.mp hmem).resolve_left hitem.2

/-- A transaction is retained once it is inserted. -/
theorem mem_insertTransaction_self (h : store.Sound) (hlimit : 0 < store.config.maxTransactions)
    (value : IndexedTransaction) : value.txid ∈ (store.insertTransaction value).2.tx := by
  obtain ⟨hsound, horder⟩ := MemoryStore.insertTransaction_order h value
  rw [hsound.mem_tx_iff, horder, pushKey]
  split
  case isTrue hmem => exact hmem
  case isFalse => exact mem_keepLast_concat hlimit _ _

theorem backed_insertBlock (h : store.Sound) (hbacked : store.Backed) (value : IndexedBlock) :
    (store.insertBlock value).2.Backed := by
  obtain ⟨-, htx, -, hmatches⟩ := MemoryStore.insertBlock_frame h value
  intro item hitem
  rw [hmatches] at hitem
  rw [htx]
  exact hbacked item hitem

theorem backed_purgeExpired (h : store.Sound) (hbacked : store.Backed) (nowMs : UInt64) :
    (store.purgeExpired nowMs).2.Backed := by
  obtain ⟨expired, kept, -, heq⟩ := MemoryStore.purgeExpired_spec h nowMs
  rw [heq]
  intro item hitem
  obtain ⟨hmem, hkept⟩ := List.mem_filter.mp hitem
  obtain ⟨tx, htx⟩ := Finmap.mem_iff.mp (hbacked item hmem)
  exact KeyedMap.mem_retain.mpr ⟨tx, htx, hkept⟩

theorem backed_removeChainBlocks (h : store.Sound) (hbacked : store.Backed) (removed : List String) :
    (store.removeChainBlocks removed).2.Backed := by
  obtain ⟨hsound, htxs, -, hmatches, -⟩ := MemoryStore.removeChainBlocks_spec h removed
  intro item hitem
  rw [hmatches, List.mem_filter] at hitem
  obtain ⟨tx, htx⟩ := Finmap.mem_iff.mp (hbacked item hitem.1)
  have hid := h.transactions.keyed htx
  rw [htx, Option.any_some] at hitem
  have hmem : tx ∈ (store.removeChainBlocks removed).2.allTransactions := by
    rw [htxs, List.mem_filter]
    exact ⟨h.transactions.mem_records.mpr (hid.symm ▸ htx), hitem.2⟩
  rw [← hid]
  exact Finmap.mem_of_lookup_eq_some (hsound.transactions.mem_records.mp hmem)

/-! ## One call -/

/-- The matches of a transaction come after the transaction, and go before it. -/
theorem backed_freshIngest (h : engine.Sound config) (hbacked : engine.store.Backed)
    (tx : IndexedTransaction) : (engine.freshIngest tx).store.Backed := by
  rw [(IndexerEngine.freshIngest_effect engine tx).1]
  have hpurged := h.store.purgeExpired tx.observedAtMs
  have hpurgedBacked := backed_purgeExpired h.store.sound hbacked tx.observedAtMs
  have hlimit : 0 < (engine.store.purgeExpired tx.observedAtMs).2.config.maxTransactions := by
    rw [hpurged.config_eq]
    exact h.bounded.transactions_pos
  suffices hstore : (engine.ingestedStore tx).Backed from hstore
  rw [IndexerEngine.ingestedStore]
  generalize (engine.store.purgeExpired tx.observedAtMs).2 = purged at hpurged hpurgedBacked hlimit
  have hinserted := hpurged.sound.insertTransaction tx
  have hinsertedBacked := backed_insertTransaction hpurged.sound hpurgedBacked tx
  split
  case isFalse =>
    split
    case isTrue => exact hinsertedBacked
    case isFalse => exact hpurgedBacked
  case isTrue hretains =>
    cases hfound : scan tx engine.matcherList with
    | nil =>
      split
      case isTrue => exact hinsertedBacked
      case isFalse => exact hpurgedBacked
    | cons first rest =>
      rw [List.isEmpty_cons, Bool.not_false,
        if_pos (IndexingMode.retainsTransaction_of_match hretains)]
      obtain ⟨evictions, heq⟩ := MemoryStore.foldl_insertMatch hinserted (first :: rest)
      rw [heq]
      intro item hitem
      rcases List.mem_append.mp (List.mem_of_mem_drop hitem) with hold | hnew
      · exact hinsertedBacked item hold
      · rw [← hfound] at hnew
        rw [(mem_scan hnew).1]
        exact mem_insertTransaction_self hpurged.sound hlimit tx

theorem backed_ingestTransaction (h : engine.Sound config) (hbacked : engine.store.Backed)
    (tx : IndexedTransaction) : (engine.ingestTransaction tx).2.store.Backed := by
  rcases IndexerEngine.ingestTransaction_cases h tx with ⟨error, -, heq⟩ | ⟨-, -, heq⟩ | ⟨-, -, heq⟩
  · rw [heq]
    exact hbacked
  · rw [heq]
    exact backed_purgeExpired h.store.sound hbacked _
  · rw [heq]
    exact backed_freshIngest h hbacked tx

theorem backed_ingestBlock (h : engine.Sound config) (hbacked : engine.store.Backed)
    (block : IndexedBlock) : (engine.ingestBlock block).2.store.Backed := by
  rw [IndexerEngine.ingestBlock]
  split
  case isTrue => exact hbacked
  case isFalse =>
    have hbegun : (engine.beginBlock block).store.Backed :=
      backed_purgeExpired h.store.sound hbacked _
    have hretained : ((engine.beginBlock block).retainBlock block).store.Backed := by
      rw [(IndexerEngine.retainBlock_effect (engine.beginBlock block) block).1]
      split
      case isTrue => exact backed_insertBlock (h.store.sound.purgeExpired _) hbegun block
      case isFalse => exact hbegun
    exact hretained

theorem backed_deliverAll (h : engine.Sound config) (hbacked : engine.store.Backed)
    (items : List Delivery) : (deliverAll items engine).2.store.Backed := by
  have hboth : (deliverAll items engine).2.Sound config ∧
      (deliverAll items engine).2.store.Backed :=
    deliverAll_keeps (fun engine => engine.Sound config ∧ engine.store.Backed)
      (fun _ _ => True)
      (fun delivery engine hengine _ => by
        refine ⟨hengine.1.deliver delivery, ?_⟩
        cases delivery with
        | block value => exact backed_ingestBlock hengine.1 hengine.2 value
        | transaction value => exact backed_ingestTransaction hengine.1 hengine.2 value)
      ⟨h, hbacked⟩ (delivers_of_forall (fun _ _ => trivial) items engine)
  exact hboth.2

/-! ## Restoring -/

/-- The last matches of a snapshot name transactions that its replay leaves. -/
def SnapshotBacked (config : IndexerConfig) (snapshot : IndexerSnapshot) : Prop :=
  ∀ item ∈ keepLast config.maxMatches snapshot.matches,
    item.txid ∈ (snapshot.transactions.map IndexedTransaction.txid).foldl
      (pushKey config.maxTransactions) []

/-- A restore that passes its checks brings the transactions of its matches. -/
def RestoresBacked (config : IndexerConfig) (op : EngineOp) (_ : IndexerEngine) : Prop :=
  op.Restoring config (SnapshotBacked config)

theorem backed_restore_iff (config : IndexerConfig) (snapshot : IndexerSnapshot) :
    (MemoryStore.restore config snapshot).Backed ↔ SnapshotBacked config snapshot := by
  obtain ⟨hsound, -, horder, hmatches⟩ := MemoryStore.restore_spec config snapshot
  rw [MemoryStore.Backed, SnapshotBacked, hmatches, ← horder]
  exact forall₂_congr fun item _ => hsound.mem_tx_iff item.txid

theorem restoreSnapshot_store (h : engine.Sound config) (snapshot : IndexerSnapshot) :
    (engine.restoreSnapshot snapshot).2.store =
      if validateSnapshot config snapshot = .ok () then MemoryStore.restore config snapshot
      else engine.store := by
  rw [IndexerEngine.restoreSnapshot, h.config_eq]
  cases hcheck : validateSnapshot config snapshot with
  | error error => exact (if_neg (fun herror => by cases herror)).symm
  | ok u => exact (if_pos rfl).symm

theorem restoreState_store (h : engine.Sound config) (state : PersistedIndexerState) :
    (engine.restoreState state).2.store =
      if IndexerEngine.checkState config state = .ok () then
        MemoryStore.restore config state.snapshot
      else engine.store := by
  rw [IndexerEngine.restoreState, h.config_eq]
  cases hcheck : IndexerEngine.checkState config state with
  | error error => exact (if_neg (fun herror => by cases herror)).symm
  | ok u =>
    rw [if_pos rfl]
    dsimp only
    split <;> rfl

/-! ## Runs -/

/-- Calls other than a restore keep the matches backed. -/
theorem backed_run (h : engine.Sound config) (hbacked : engine.store.Backed) (op : EngineOp)
    (hop : RestoresBacked config op engine) : (op.run engine).store.Backed := by
  cases op with
  | ingestTransaction tx => exact backed_ingestTransaction h hbacked tx
  | ingestBlock block => exact backed_ingestBlock h hbacked block
  | purgeExpired nowMs => exact backed_purgeExpired h.store.sound hbacked nowMs
  | applySyncBatches batches checkpoint =>
    exact applySyncBatches_keeps (fun engine => engine.store.Backed) hbacked
      (fun _ _ => backed_deliverAll h hbacked _)
      fun engine hengine => (IndexerEngine.setCheckpoint_store engine _).symm ▸ hengine
  | reconcileVirtualChain delta =>
    have horphans : (engine.removeOrphans delta.removedBlockHashes).2.store.Backed :=
      backed_removeChainBlocks h.store.sound hbacked _
    exact reconcileVirtualChain_keeps (fun engine => engine.store.Backed) hbacked
      (fun _ => backed_deliverAll (h.removeOrphans _) horphans _)
      (fun engine hengine => (IndexerEngine.setCheckpoint_store engine _).symm ▸ hengine)
      fun _ _ hengine => hengine
  | restoreSnapshot snapshot =>
    have hstore : ((EngineOp.restoreSnapshot snapshot).run engine).store = _ :=
      restoreSnapshot_store h snapshot
    rw [hstore]
    split
    case isTrue hcheck => exact (backed_restore_iff config snapshot).mpr (hop hcheck)
    case isFalse => exact hbacked
  | restoreState state =>
    have hstore : ((EngineOp.restoreState state).run engine).store = _ :=
      restoreState_store h state
    rw [hstore]
    split
    case isTrue hcheck => exact (backed_restore_iff config state.snapshot).mpr (hop hcheck)
    case isFalse => exact hbacked
  | addMatcher rule =>
    have hstore : ((EngineOp.addMatcher rule).run engine).store = engine.store :=
      IndexerEngine.addMatcher_store engine rule
    rw [hstore]
    exact hbacked
  | setCheckpoint checkpoint =>
    have hstore : ((EngineOp.setCheckpoint checkpoint).run engine).store = engine.store :=
      IndexerEngine.setCheckpoint_store engine checkpoint
    rw [hstore]
    exact hbacked
  | clear => exact fun _ hitem => absurd hitem List.not_mem_nil
  | start _ => exact hbacked
  | stop => exact hbacked
  | removeMatcher _ => exact hbacked
  | drainEvents => exact hbacked

/-- A restore that passes its checks leaves matches that are not backed, if it brings them. -/
theorem restoresBacked_of_backed (h : engine.Sound config) (op : EngineOp)
    (hbacked : (op.run engine).store.Backed) : RestoresBacked config op engine := by
  cases op with
  | restoreSnapshot snapshot =>
    intro hcheck
    have hstore : ((EngineOp.restoreSnapshot snapshot).run engine).store = _ :=
      restoreSnapshot_store h snapshot
    rw [hstore, if_pos hcheck] at hbacked
    exact (backed_restore_iff config snapshot).mp hbacked
  | restoreState state =>
    intro hcheck
    have hstore : ((EngineOp.restoreState state).run engine).store = _ :=
      restoreState_store h state
    rw [hstore, if_pos hcheck] at hbacked
    exact (backed_restore_iff config state.snapshot).mp hbacked
  | _ => trivial

theorem backed_of_run {issued : List UInt64}
    (h : Run config (RestoresBacked config) engine issued) : engine.store.Backed := by
  induction h with
  | new h =>
    rw [IndexerEngine.new] at h
    split at h
    case h_1 => cases h
    case h_2 =>
      cases h
      exact fun _ hitem => absurd hitem List.not_mem_nil
  | call hrun op hop ih => exact backed_run hrun.sound ih op hop
  | reorder _ _ _ ih => exact ih

end KaspaPortal.Indexer
