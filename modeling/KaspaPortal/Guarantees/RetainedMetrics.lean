import KaspaPortal.Indexer.Invariant

/-!
# The counters of retained records

The counters go up with each record that is inserted, down with those that a reorganised
chain takes back, and are set anew by a restore. They do not follow a record that expires,
that is pushed out by a limit, or that goes with its transaction.

The counters of observed and of refused records are not compared with anything.
-/
namespace KaspaPortal.Guarantees
open Lib Indexer

/-- The counters of retained records are the counts of the store. -/
structure MetricsAgree (engine : IndexerEngine) : Prop where
  transactions : engine.metrics.transactions.toNat = engine.store.counts.1
  blocks : engine.metrics.blocks.toNat = engine.store.counts.2.1
  «matches» : engine.metrics.matches.toNat = engine.store.counts.2.2

/-- The oldest transaction has not expired. -/
def NothingExpired (engine : IndexerEngine) (nowMs : UInt64) : Prop :=
  engine.store.config.transactionTtlMs = 0 ∨
    MemoryStore.frontExpired engine.store.config.transactionTtlMs nowMs engine.store.txOrder
      (engine.store, []) = false

/-- There is room for what an accepted delivery adds, and nothing expires at its time. -/
def EvictsNothing : Delivery → IndexerEngine → Prop
  | .block block, engine => blank block.hash = false →
    NothingExpired engine block.observedAtMs ∧
      (engine.config.mode.retainsBlocks = true → block.hash ∉ engine.store.blocks →
        engine.store.blocks.len < engine.config.maxBlocks)
  | .transaction tx, engine => validateTransaction engine.config tx = .ok () →
    NothingExpired engine tx.observedAtMs ∧
      (tx.txid ∉ engine.recentTxids.order →
        (engine.config.mode.retainsTransaction (!(scan tx engine.matcherList).isEmpty) = true →
          tx.txid ∉ engine.store.tx → engine.store.tx.len < engine.config.maxTransactions) ∧
        (engine.config.mode.retainsMatches = true →
          engine.store.matches.length + (scan tx engine.matcherList).length ≤
            engine.config.maxMatches))

/-- No delivery and no purge evicts a record, and no restore fails half way. -/
def CallEvictsNothing : EngineOp → IndexerEngine → Prop
  | .purgeExpired nowMs, engine => NothingExpired engine nowMs
  | .restoreState state, engine => IndexerEngine.checkState engine.config state = .ok () →
    ∃ id, nextMatcherId (IndexerEngine.collectMatchers state.matchers) = .ok id
  | op, engine => op.Delivering EvictsNothing engine

namespace RetainedMetrics

variable {config : IndexerConfig} {engine : IndexerEngine}

/-- Counters and counts, of an engine that is being worked on. -/
def Agrees (metrics : IndexerMetrics) (store : MemoryStore) : Prop :=
  metrics.transactions.toNat = store.tx.len ∧ metrics.blocks.toNat = store.blocks.len ∧
    metrics.matches.toNat = store.matches.length

theorem metricsAgree_iff : MetricsAgree engine ↔ Agrees engine.metrics engine.store :=
  ⟨fun h => ⟨h.transactions, h.blocks, h.matches⟩, fun h => ⟨h.1, h.2.1, h.2.2⟩⟩

theorem countUp_toNat {field : UInt64} {count limit : Nat} (hfield : field.toNat = count)
    (hlimit : count < limit) (hbound : limit ≤ 1000000) :
    (IndexerEngine.countUp field 1).toNat = count + 1 := by
  rw [IndexerEngine.countUp, saturatingAdd_toNat, hfield]
  · rfl
  · rw [hfield]
    have hone : (UInt64.ofNat 1).toNat = 1 := rfl
    omega

/-! ## One record -/

/-- A purge in which nothing expires is no change. -/
theorem purgeExpired_of_fresh {nowMs : UInt64} (h : NothingExpired engine nowMs) :
    engine.purgeExpired nowMs = engine := by
  rw [IndexerEngine.purgeExpired, MemoryStore.purgeExpired_of_fresh h]
  simp

theorem agrees_retainTransaction (h : engine.Sound config)
    (hagrees : Agrees engine.metrics engine.store) (tx : IndexedTransaction) (isMatch : Bool)
    (hroom : engine.config.mode.retainsTransaction isMatch = true → tx.txid ∉ engine.store.tx →
      engine.store.tx.len < engine.config.maxTransactions) :
    Agrees (engine.retainTransaction tx isMatch).metrics
        (engine.retainTransaction tx isMatch).store ∧
      (engine.retainTransaction tx isMatch).store.matches = engine.store.matches := by
  rw [IndexerEngine.retainTransaction]
  split
  case isTrue => exact ⟨hagrees, rfl⟩
  case isFalse hmode =>
    rw [Bool.not_eq_false] at hmode
    by_cases hmem : tx.txid ∈ engine.store.tx
    · rw [MemoryStore.insertTransaction_of_mem hmem]
      exact ⟨hagrees, rfl⟩
    · have hlt := hroom hmode hmem
      rw [h.config_eq] at hlt
      have hlen := h.store.sound.transactions.len_eq
      obtain ⟨htrue, hsound, -, -⟩ := MemoryStore.insertTransaction_of_notMem h.store.sound hmem
      obtain ⟨-, hblocks, -⟩ := MemoryStore.insertTransaction_frame h.store.sound tx
      obtain ⟨hrecords, hmatches⟩ := MemoryStore.insertTransaction_of_room h.store.sound hmem
        (by rw [h.store.config_eq, ← hlen]; exact hlt)
      have hcount : (engine.store.insertTransaction tx).2.tx.len = engine.store.tx.len + 1 := by
        rw [hsound.transactions.len_eq, ← hsound.transactions.length_records]
        have hold := h.store.sound.transactions.length_records
        rw [MemoryStore.allTransactions] at hrecords
        rw [hrecords, List.length_append, hlen]
        exact congrArg (· + 1) hold
      generalize engine.store.insertTransaction tx = inserted at htrue hblocks hmatches hcount
      obtain ⟨flag, store⟩ := inserted
      dsimp only at htrue hblocks hmatches hcount
      subst htrue
      refine ⟨⟨?_, ?_, ?_⟩, hmatches⟩
      · rw [hcount]
        exact countUp_toNat hagrees.1 hlt h.bounded.transactions_le
      · rw [hblocks]
        exact hagrees.2.1
      · rw [hmatches]
        exact hagrees.2.2

theorem agrees_publishMatch (h : engine.Sound config)
    (hagrees : Agrees engine.metrics engine.store) (item : IndexedMatch)
    (hroom : engine.config.mode.retainsMatches = true →
      engine.store.matches.length < engine.config.maxMatches) :
    Agrees (engine.publishMatch item).metrics (engine.publishMatch item).store ∧
      (engine.config.mode.retainsMatches = true → (engine.publishMatch item).store.matches.length =
        engine.store.matches.length + 1) := by
  rw [IndexerEngine.publishMatch]
  split
  case isFalse hmode => exact ⟨hagrees, fun hretains => absurd hretains hmode⟩
  case isTrue hmode =>
    have hlt := hroom hmode
    rw [h.config_eq] at hlt
    obtain ⟨evictions, heq⟩ := MemoryStore.insertMatch_eq engine.store item
    rw [IndexerEngine.pushEvents, heq, h.store.config_eq, keepLast_of_le]
    · have hlen : (engine.store.matches ++ [item]).length = engine.store.matches.length + 1 :=
        List.length_append
      refine ⟨⟨hagrees.1, hagrees.2.1, ?_⟩, fun _ => hlen⟩
      exact (countUp_toNat hagrees.2.2 hlt h.bounded.matches_le).trans hlen.symm
    · rw [List.length_append]
      exact hlt

theorem agrees_publishMatches (h : engine.Sound config)
    (hagrees : Agrees engine.metrics engine.store) (items : List IndexedMatch)
    (hroom : engine.config.mode.retainsMatches = true →
      engine.store.matches.length + items.length ≤ engine.config.maxMatches) :
    Agrees (engine.publishMatches items).metrics (engine.publishMatches items).store := by
  induction items generalizing engine with
  | nil => exact hagrees
  | cons item items ih =>
    have hfirst : engine.config.mode.retainsMatches = true →
        engine.store.matches.length < engine.config.maxMatches := by
      intro hretains
      have hle := hroom hretains
      rw [List.length_cons] at hle
      omega
    obtain ⟨hagrees', hlen⟩ := agrees_publishMatch h hagrees item hfirst
    apply ih (h.publishMatch item) hagrees'
    rw [(IndexerEngine.publishMatch_effect engine item).2.1]
    intro hretains
    have hle := hroom hretains
    rw [List.length_cons] at hle
    rw [hlen hretains]
    omega

theorem agrees_retainBlock (h : engine.Sound config)
    (hagrees : Agrees engine.metrics engine.store) (block : IndexedBlock)
    (hroom : engine.config.mode.retainsBlocks = true → block.hash ∉ engine.store.blocks →
      engine.store.blocks.len < engine.config.maxBlocks) :
    Agrees (engine.retainBlock block).metrics (engine.retainBlock block).store := by
  rw [IndexerEngine.retainBlock]
  split
  case isTrue => exact hagrees
  case isFalse hmode =>
    rw [Bool.not_eq_false] at hmode
    by_cases hmem : block.hash ∈ engine.store.blocks
    · rw [MemoryStore.insertBlock_of_mem hmem]
      exact hagrees
    · have hlt := hroom hmode hmem
      rw [h.config_eq] at hlt
      have hlen := h.store.sound.blocks.len_eq
      obtain ⟨htrue, hsound, -⟩ := MemoryStore.insertBlock_of_notMem h.store.sound hmem
      obtain ⟨-, htx, -, hmatches⟩ := MemoryStore.insertBlock_frame h.store.sound block
      have hrecords := MemoryStore.insertBlock_of_room h.store.sound hmem
        (by rw [h.store.config_eq, ← hlen]; exact hlt)
      have hcount : (engine.store.insertBlock block).2.blocks.len = engine.store.blocks.len + 1 := by
        rw [hsound.blocks.len_eq, ← hsound.blocks.length_records]
        have hold := h.store.sound.blocks.length_records
        rw [MemoryStore.allBlocks] at hrecords
        rw [hrecords, List.length_append, hlen]
        exact congrArg (· + 1) hold
      generalize engine.store.insertBlock block = inserted at htrue htx hmatches hcount
      obtain ⟨flag, store⟩ := inserted
      dsimp only at htrue htx hmatches hcount
      subst htrue
      refine ⟨?_, ?_, ?_⟩
      · rw [htx]
        exact hagrees.1
      · rw [hcount]
        exact countUp_toNat hagrees.2.1 hlt (h.bounded.blocks_le.trans (by decide))
      · rw [hmatches]
        exact hagrees.2.2

/-! ## One call -/

theorem agrees_ingestTransaction (h : engine.Sound config)
    (hagrees : Agrees engine.metrics engine.store) {tx : IndexedTransaction}
    (hfits : EvictsNothing (.transaction tx) engine) :
    Agrees (engine.ingestTransaction tx).2.metrics (engine.ingestTransaction tx).2.store := by
  have hvalidated : validateTransaction engine.config tx = validateTransaction config tx := by
    rw [h.config_eq]
  rw [EvictsNothing, hvalidated] at hfits
  rcases IndexerEngine.ingestTransaction_cases h tx with
    ⟨error, -, heq⟩ | ⟨hvalid, -, heq⟩ | ⟨hvalid, hfresh, heq⟩
  · rw [heq]
    exact hagrees
  · have hbegun : engine.beginTransaction tx = { engine with metrics := { engine.metrics with
        transactionsObserved := IndexerEngine.countUp engine.metrics.transactionsObserved 1 } } :=
      purgeExpired_of_fresh (hfits hvalid).1
    rw [heq, hbegun]
    exact hagrees
  · obtain ⟨hexpired, hroom⟩ := hfits hvalid
    obtain ⟨hroom, hmatches⟩ := hroom hfresh
    have hbegun : engine.beginTransaction tx = { engine with metrics := { engine.metrics with
        transactionsObserved := IndexerEngine.countUp engine.metrics.transactionsObserved 1 } } :=
      purgeExpired_of_fresh hexpired
    have hbegunSound := h.beginTransaction tx
    have hcounted := hbegunSound.countFresh tx.txid
      (scan tx (engine.beginTransaction tx).matcherList)
    rw [heq, IndexerEngine.freshIngest]
    rw [hbegun] at hcounted ⊢
    obtain ⟨hretained, hsame⟩ := agrees_retainTransaction hcounted hagrees tx _ hroom
    refine agrees_publishMatches (hcounted.retainTransaction hvalid _) hretained _ ?_
    rw [hsame, (IndexerEngine.retainTransaction_effect (IndexerEngine.countFresh _ _ _) tx _).2.1]
    exact hmatches

theorem agrees_ingestBlock (h : engine.Sound config)
    (hagrees : Agrees engine.metrics engine.store) {block : IndexedBlock}
    (hfits : EvictsNothing (.block block) engine) :
    Agrees (engine.ingestBlock block).2.metrics (engine.ingestBlock block).2.store := by
  rw [IndexerEngine.ingestBlock]
  split
  case isTrue => exact hagrees
  case isFalse hblank =>
    rw [Bool.not_eq_true] at hblank
    obtain ⟨hexpired, hroom⟩ := hfits hblank
    have hsound : (engine.beginBlock block).Sound config :=
      h.update rfl (h.store.purgeExpired _) h.recent rfl rfl rfl
    have hbegun : engine.beginBlock block = { engine with
        metrics := { engine.metrics with
          blocksObserved := IndexerEngine.countUp engine.metrics.blocksObserved 1 }
        lastBlockAtMs := some block.observedAtMs } := by
      have hpurged : ({ engine with metrics := { engine.metrics with
          blocksObserved := IndexerEngine.countUp engine.metrics.blocksObserved 1 } } :
          IndexerEngine).purgeExpired block.observedAtMs = _ := purgeExpired_of_fresh hexpired
      rw [IndexerEngine.beginBlock, hpurged]
    have hretained : Agrees ((engine.beginBlock block).retainBlock block).metrics
        ((engine.beginBlock block).retainBlock block).store := by
      rw [hbegun] at hsound ⊢
      exact agrees_retainBlock hsound hagrees block hroom
    exact hretained

theorem agrees_deliverAll (h : engine.Sound config) (hagrees : Agrees engine.metrics engine.store)
    {items : List Delivery} (hfits : Delivers EvictsNothing items engine) :
    Agrees (deliverAll items engine).2.metrics (deliverAll items engine).2.store := by
  have hall := deliverAll_keeps
    (fun engine => engine.Sound config ∧ Agrees engine.metrics engine.store) EvictsNothing ?_
    ⟨h, hagrees⟩ hfits
  · exact hall.2
  · intro delivery engine hengine hok
    refine ⟨hengine.1.deliver delivery, ?_⟩
    cases delivery with
    | block value => exact agrees_ingestBlock hengine.1 hengine.2 hok
    | transaction value => exact agrees_ingestTransaction hengine.1 hengine.2 hok

theorem saturatingSub_count {field : UInt64} {before after : Nat} (hfield : field.toNat = before)
    (hle : after ≤ before) :
    (saturatingSub field (UInt64.ofNat (before - after))).toNat = after := by
  have hlt := field.toNat_lt
  have hamount : (UInt64.ofNat (before - after)).toNat = before - after :=
    ofNat_toNat (by omega)
  rw [saturatingSub_toNat, hamount, hfield]
  · omega
  · rw [hamount, hfield]
    omega

/-- What is taken back is counted down by as much. -/
theorem agrees_removeOrphans (h : engine.Sound config)
    (hagrees : Agrees engine.metrics engine.store) (removed : List String) :
    Agrees (engine.removeOrphans removed).2.metrics (engine.removeOrphans removed).2.store := by
  obtain ⟨hsound, htxs, hblocks, hmatches, -⟩ :=
    MemoryStore.removeChainBlocks_spec h.store.sound removed
  have hcounts := MemoryStore.removeChainBlocks_counts engine.store removed
  have htxLen : (engine.store.removeChainBlocks removed).2.tx.len ≤ engine.store.tx.len := by
    rw [hsound.transactions.len_eq, ← hsound.transactions.length_records,
      h.store.sound.transactions.len_eq, ← h.store.sound.transactions.length_records]
    exact (congrArg List.length htxs).trans_le (List.length_filter_le _ _)
  have hblockLen : (engine.store.removeChainBlocks removed).2.blocks.len ≤
      engine.store.blocks.len := by
    rw [hsound.blocks.len_eq, ← hsound.blocks.length_records,
      h.store.sound.blocks.len_eq, ← h.store.sound.blocks.length_records]
    exact (congrArg List.length hblocks).trans_le (List.length_filter_le _ _)
  have hmatchLen : (engine.store.removeChainBlocks removed).2.matches.length ≤
      engine.store.matches.length :=
    (congrArg List.length hmatches).trans_le (List.length_filter_le _ _)
  rw [IndexerEngine.removeOrphans]
  generalize engine.store.removeChainBlocks removed = result at hcounts htxLen hblockLen hmatchLen
  obtain ⟨counts, store⟩ := result
  dsimp only at hcounts htxLen hblockLen hmatchLen
  subst hcounts
  exact ⟨saturatingSub_count hagrees.1 htxLen, saturatingSub_count hagrees.2.1 hblockLen,
    saturatingSub_count hagrees.2.2 hmatchLen⟩

/-- A restore sets the counters anew. -/
theorem agrees_rebuildRuntimeState (hbounded : config.Bounded)
    (hstore : engine.store.Checked config) :
    Agrees engine.rebuildRuntimeState.metrics engine.rebuildRuntimeState.store := by
  have htx := hstore.sound.transactions_le
  have hblocks := hstore.sound.blocks_le
  have hmatches := hstore.sound.matches_le
  rw [hstore.config_eq] at htx hblocks hmatches
  rw [← hstore.sound.transactions.len_eq] at htx
  rw [← hstore.sound.blocks.len_eq] at hblocks
  have htxMax := hbounded.transactions_le
  have hblocksMax := hbounded.blocks_le
  have hmatchesMax := hbounded.matches_le
  have htxFits : engine.store.tx.len < 2 ^ 64 := by omega
  have hblocksFit : engine.store.blocks.len < 2 ^ 64 := by omega
  have hmatchesFit : engine.store.matches.length < 2 ^ 64 := by omega
  exact ⟨ofNat_toNat htxFits, ofNat_toNat hblocksFit, ofNat_toNat hmatchesFit⟩

theorem agrees_restoreState (h : engine.Sound config)
    (hagrees : Agrees engine.metrics engine.store) {state : PersistedIndexerState}
    (hnext : IndexerEngine.checkState engine.config state = .ok () →
      ∃ id, nextMatcherId (IndexerEngine.collectMatchers state.matchers) = .ok id) :
    Agrees (engine.restoreState state).2.metrics (engine.restoreState state).2.store := by
  cases hcheck : IndexerEngine.checkState engine.config state with
  | error error =>
    rw [IndexerEngine.restoreState, hcheck]
    exact hagrees
  | ok u =>
    obtain ⟨id, hid⟩ := hnext hcheck
    rw [IndexerEngine.restoreState, hcheck]
    dsimp only
    rw [hid]
    rw [h.config_eq] at hcheck ⊢
    exact agrees_rebuildRuntimeState h.bounded
      (MemoryStore.Checked.restore (IndexerEngine.checkState_ok hcheck).2.2)

theorem agrees_restoreSnapshot (h : engine.Sound config)
    (hagrees : Agrees engine.metrics engine.store) (snapshot : IndexerSnapshot) :
    Agrees (engine.restoreSnapshot snapshot).2.metrics (engine.restoreSnapshot snapshot).2.store := by
  rw [IndexerEngine.restoreSnapshot, h.config_eq]
  split
  case h_1 => exact hagrees
  case h_2 hcheck =>
    exact agrees_rebuildRuntimeState h.bounded (MemoryStore.Checked.restore hcheck)

theorem agrees_setCheckpoint (hagrees : Agrees engine.metrics engine.store)
    (checkpoint : SyncCheckpoint) :
    Agrees (engine.setCheckpoint checkpoint).2.metrics
      (engine.setCheckpoint checkpoint).2.store := by
  rw [IndexerEngine.setCheckpoint]
  split <;> exact hagrees

theorem agrees_addMatcher (hagrees : Agrees engine.metrics engine.store) (rule : MatchRule) :
    Agrees (engine.addMatcher rule).2.metrics (engine.addMatcher rule).2.store := by
  rw [IndexerEngine.addMatcher]
  split
  case h_1 => exact hagrees
  case h_2 =>
    split
    case isTrue => exact hagrees
    case isFalse =>
      dsimp only
      split <;> exact hagrees

/-! ## Runs -/

theorem agrees_run (h : engine.Sound config) (hagrees : Agrees engine.metrics engine.store)
    {op : EngineOp} (hop : CallEvictsNothing op engine) :
    Agrees (op.run engine).metrics (op.run engine).store := by
  cases op with
  | ingestTransaction tx => exact agrees_ingestTransaction h hagrees hop
  | ingestBlock block => exact agrees_ingestBlock h hagrees hop
  | purgeExpired nowMs =>
    have hpurged : (EngineOp.purgeExpired nowMs).run engine = engine := purgeExpired_of_fresh hop
    rw [hpurged]
    exact hagrees
  | applySyncBatches batches checkpoint =>
    exact applySyncBatches_keeps (fun engine => Agrees engine.metrics engine.store) hagrees
      (fun hvalid hlen => agrees_deliverAll h hagrees (hop hvalid hlen))
      fun _ hengine => agrees_setCheckpoint hengine _
  | reconcileVirtualChain delta =>
    exact reconcileVirtualChain_keeps (fun engine => Agrees engine.metrics engine.store) hagrees
      (fun hvalid => agrees_deliverAll (h.removeOrphans _) (agrees_removeOrphans h hagrees _)
        (hop hvalid))
      (fun _ hengine => agrees_setCheckpoint hengine _)
      fun _ _ hengine => hengine
  | restoreSnapshot snapshot => exact agrees_restoreSnapshot h hagrees snapshot
  | restoreState state => exact agrees_restoreState h hagrees hop
  | addMatcher rule => exact agrees_addMatcher hagrees rule
  | setCheckpoint checkpoint => exact agrees_setCheckpoint hagrees checkpoint
  | clear => exact ⟨rfl, rfl, rfl⟩
  | start _ => exact hagrees
  | stop => exact hagrees
  | removeMatcher _ => exact hagrees
  | drainEvents => exact hagrees

end RetainedMetrics

open RetainedMetrics

/-- In a run in which nothing is evicted and no restore fails half way, the counters of
retained records are the counts of the store. -/
theorem retained_metrics_agree {config : IndexerConfig} {engine : IndexerEngine}
    {issued : List UInt64} (h : Run config CallEvictsNothing engine issued) :
    MetricsAgree engine := by
  rw [metricsAgree_iff]
  induction h with
  | new h =>
    rw [IndexerEngine.new] at h
    split at h
    case h_1 => cases h
    case h_2 =>
      cases h
      exact ⟨rfl, rfl, rfl⟩
  | call hrun op hop ih => exact agrees_run hrun.sound ih hop
  | reorder _ _ _ ih => exact ih

namespace RetainedMetrics

def plain (txid : String) : IndexedTransaction where
  txid := txid
  blockHash := none
  daaScore := none
  observedAtMs := 0
  addresses := []
  payload := []

/-- Room for two records of each kind. -/
def roomForTwo : IndexerConfig :=
  { IndexerConfig.smallest with maxTransactions := 2, maxBlocks := 2, maxMatches := 2 }

def block (hash : String) : IndexedBlock where
  hash := hash
  daaScore := none
  observedAtMs := 0
  txids := []

/-- A block, a transaction that a matcher finds and one that it does not; then a block and a
transaction that are known already. -/
def mixedDeliveries : List EngineOp :=
  [.addMatcher (.address "x"), .ingestBlock (block "b"),
    .ingestTransaction { plain "a" with addresses := ["x"] }, .ingestTransaction (plain "c"),
    .ingestBlock (block "b"), .ingestTransaction (plain "c")]

end RetainedMetrics

theorem retained_metrics_agree_deliveries :
    (runAll mixedDeliveries (.initial roomForTwo)).store.counts = (2, 1, 1) ∧
      MetricsAgree (runAll mixedDeliveries (.initial roomForTwo)) := by
  have hnew : IndexerEngine.new roomForTwo = .ok (.initial roomForTwo) := rfl
  have hfits : Calls CallEvictsNothing mixedDeliveries (.initial roomForTwo) := by
    simp only [mixedDeliveries, Calls, CallEvictsNothing, EngineOp.Delivering, EvictsNothing,
      NothingExpired]
    refine ⟨trivial, ?_, ?_, ?_, ?_, ?_, trivial⟩ <;> decide
  exact ⟨by decide, retained_metrics_agree ((Run.new hnew).calls hfits)⟩

namespace RetainedMetrics

/-- Two transactions, in a store with room for one. -/
def twoTransactions : List EngineOp :=
  [.ingestTransaction (plain "a"), .ingestTransaction (plain "b")]

end RetainedMetrics

/-- Two transactions are counted as retained, and one is. -/
theorem evicted_transaction_counted :
    (∃ issued, Reachable .smallest (runAll twoTransactions (.initial .smallest)) issued) ∧
      ¬ MetricsAgree (runAll twoTransactions (.initial .smallest)) := by
  refine ⟨⟨_, (Run.new rfl).reaches twoTransactions⟩, fun h => ?_⟩
  exact absurd h.transactions (by decide)

end KaspaPortal.Guarantees
