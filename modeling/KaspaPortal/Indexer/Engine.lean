import KaspaPortal.Indexer.Store
import KaspaPortal.Lib.Outcome
import Mathlib.Data.List.AList
import Mathlib.Data.List.Sort

/-!
# The indexer engine

`indexer/engine.rs` and `metrics.rs`. A step that fails part way keeps what it has done.
The table of matchers is a map with an order, since its values are iterated.

Who calls the engine, and where its events go, is left out.
-/
namespace KaspaPortal.Indexer
open Lib

/-- What the engine counts. Retained records and observed ones are counted apart. -/
structure IndexerMetrics where
  transactions : UInt64
  blocks : UInt64
  «matches» : UInt64
  transactionsObserved : UInt64
  blocksObserved : UInt64
  matchesObserved : UInt64
  duplicateTransactions : UInt64
  cacheHits : UInt64
  cacheMisses : UInt64
  evictions : UInt64
  ttlEvictions : UInt64
  sizeEvictions : UInt64
  rejectedRecords : UInt64
  deriving DecidableEq, Repr

def IndexerMetrics.default : IndexerMetrics where
  transactions := 0
  blocks := 0
  «matches» := 0
  transactionsObserved := 0
  blocksObserved := 0
  matchesObserved := 0
  duplicateTransactions := 0
  cacheHits := 0
  cacheMisses := 0
  evictions := 0
  ttlEvictions := 0
  sizeEvictions := 0
  rejectedRecords := 0

/-- The whole state of the indexer. -/
structure IndexerEngine where
  config : IndexerConfig
  store : MemoryStore
  recentTxids : RecentKeys
  matchers : AList fun _ : UInt64 => Matcher
  nextMatcherId : UInt64
  running : Bool
  lastBlockAtMs : Option UInt64
  metrics : IndexerMetrics
  checkpoint : SyncCheckpoint
  events : List IndexerEvent

/-- What a call on the engine returns, and the engine it leaves. -/
abbrev EngineOutcome (α : Type) := Outcome String IndexerEngine α

/-! ## Checks of records -/

/-- What is checked of a transaction before it is stored. -/
def validateTransaction (config : IndexerConfig) (tx : IndexedTransaction) : Except String Unit :=
  if blank tx.txid then .error "transaction id cannot be empty"
  else if tx.payload.length > config.maxPayloadBytes then
    .error "transaction payload exceeds configured bound"
  else if tx.addresses.length > config.maxAddressesPerTransaction then
    .error "transaction address count exceeds configured bound"
  else if tx.addresses.any fun address => decide (address.utf8ByteSize > 256) then
    .error "indexed address exceeds 256 bytes"
  else .ok ()

/-- A snapshot is checked record by record; its matches are not looked at. -/
def validateSnapshot (config : IndexerConfig) (snapshot : IndexerSnapshot) : Except String Unit :=
  match snapshot.transactions.forM (validateTransaction config) with
  | .error error => .error error
  | .ok () =>
    if snapshot.blocks.any fun block => blank block.hash then
      .error "snapshot contains an empty block hash"
    else .ok ()

/-- Each rule passes its check, and the ids are not zero and not among the ids `seen`. -/
def validateMatchersFrom : List UInt64 → List Matcher → Except String Unit
  | _, [] => .ok ()
  | seen, matcher :: matchers =>
    match matcher.rule.validate with
    | .error error => .error error
    | .ok () =>
      if matcher.id = 0 ∨ matcher.id ∈ seen then
        .error "persisted matcher ids must be non-zero and unique"
      else validateMatchersFrom (matcher.id :: seen) matchers

/-- The table of a state is checked before it replaces the engine's. -/
def validateMatchers (matchers : List Matcher) : Except String Unit :=
  if matchers.length > 4096 then .error "persisted matcher count exceeds 4096"
  else validateMatchersFrom [] matchers

/-- The largest id of the table, or zero. -/
def largestMatcherId (matchers : AList fun _ : UInt64 => Matcher) : UInt64 :=
  matchers.keys.foldl max 0

/-- One above the largest id in use. -/
def nextMatcherId (matchers : AList fun _ : UInt64 => Matcher) : Except String UInt64 :=
  match checkedSucc (largestMatcherId matchers) with
  | some id => .ok id
  | none => .error "matcher id exhausted"

namespace IndexerEngine

/-- An engine that has seen nothing. -/
def initial (config : IndexerConfig) : IndexerEngine where
  config := config
  store := MemoryStore.new config
  recentTxids := RecentKeys.new config.dedupeWindow
  matchers := ∅
  nextMatcherId := 1
  running := false
  lastBlockAtMs := none
  metrics := IndexerMetrics.default
  checkpoint := SyncCheckpoint.default
  events := []

def new (config : IndexerConfig) : Except String IndexerEngine :=
  match config.validate with
  | .error error => .error error
  | .ok () => .ok (initial config)

/-- A counter goes up, and stays at its maximum. -/
def countUp (field : UInt64) (amount : Nat) : UInt64 := saturatingAdd field (UInt64.ofNat amount)

/-- Events wait until they are drained. -/
def pushEvents (engine : IndexerEngine) (events : List IndexerEvent) : IndexerEngine :=
  { engine with events := engine.events ++ events }

def start (engine : IndexerEngine) (nowMs : UInt64) : IndexerEngine :=
  { engine with running := true, lastBlockAtMs := some (engine.lastBlockAtMs.getD nowMs) }

def stop (engine : IndexerEngine) : IndexerEngine := { engine with running := false }

/-! ## Matchers -/

/-- The values of the table, in its order. -/
def matcherList (engine : IndexerEngine) : List Matcher :=
  engine.matchers.entries.map Sigma.snd

/-- A rule is checked before an id is given to it. -/
def addMatcher (engine : IndexerEngine) (rule : MatchRule) : EngineOutcome UInt64 :=
  match rule.validate with
  | .error error => (.error error, engine)
  | .ok () =>
    if engine.matchers.entries.length ≥ 4096 then (.error "matcher limit reached", engine)
    else
      let id := engine.nextMatcherId
      match checkedSucc id with
      | none => (.error "matcher id exhausted", engine)
      | some next => (.ok id, { engine with
          nextMatcherId := next
          matchers := engine.matchers.insert id { id := id, rule := rule } })

/-- Whether the matcher was there, and the engine without it. -/
def removeMatcher (engine : IndexerEngine) (id : UInt64) : Bool × IndexerEngine :=
  (decide (id ∈ engine.matchers), { engine with matchers := engine.matchers.erase id })

/-! ## Records coming in -/

/-- A refused record only shows in a counter. -/
def countRejected (engine : IndexerEngine) : IndexerEngine :=
  { engine with metrics := { engine.metrics with
      rejectedRecords := countUp engine.metrics.rejectedRecords 1 } }

/-- What has grown too old is dropped, and counted. -/
def purgeExpired (engine : IndexerEngine) (nowMs : UInt64) : IndexerEngine :=
  let (expired, store) := engine.store.purgeExpired nowMs
  { engine with
    store := store
    metrics := { engine.metrics with
      evictions := expired.foldl (fun count _ => countUp count 1) engine.metrics.evictions
      ttlEvictions := expired.foldl (fun count _ => countUp count 1) engine.metrics.ttlEvictions }
    events := engine.events ++ expired.map (IndexerEvent.evicted "transaction_ttl") }

/-- What the store had no room for is counted when it is noticed. -/
def recordSizeEvictions (engine : IndexerEngine) : IndexerEngine :=
  let (evictions, store) := engine.store.takeEvictions
  { engine with
    store := store
    metrics := { engine.metrics with
      evictions := evictions.foldl (fun count _ => countUp count 1) engine.metrics.evictions
      sizeEvictions :=
        evictions.foldl (fun count _ => countUp count 1) engine.metrics.sizeEvictions }
    events := engine.events ++ evictions.map fun eviction =>
      IndexerEvent.evicted eviction.kind eviction.id }

/-- Whether a transaction is kept depends on the mode, and on whether it matched. -/
def retainTransaction (engine : IndexerEngine) (tx : IndexedTransaction) (isMatch : Bool) :
    IndexerEngine :=
  if engine.config.mode.retainsTransaction isMatch = false then engine
  else
    match engine.store.insertTransaction tx with
    | (true, store) => { engine with
        store := store
        metrics := { engine.metrics with transactions := countUp engine.metrics.transactions 1 }
        events := engine.events ++ [.transaction tx.txid] }
    | (false, store) => { engine with
        store := store
        metrics := { engine.metrics with
          duplicateTransactions := countUp engine.metrics.duplicateTransactions 1 } }

/-- A match is stored in modes that keep matches, and announced in any mode. -/
def publishMatch (engine : IndexerEngine) (item : IndexedMatch) : IndexerEngine :=
  let retained :=
    if engine.config.mode.retainsMatches then
      { engine with
        store := engine.store.insertMatch item
        metrics := { engine.metrics with «matches» := countUp engine.metrics.matches 1 } }
    else engine
  retained.pushEvents [.match item.matcherId item.txid]

def publishMatches (engine : IndexerEngine) (items : List IndexedMatch) : IndexerEngine :=
  items.foldl publishMatch engine

/-- The transaction counts as observed, and the expired records are gone. -/
def beginTransaction (engine : IndexerEngine) (tx : IndexedTransaction) : IndexerEngine :=
  purgeExpired
    { engine with metrics := { engine.metrics with
        transactionsObserved := countUp engine.metrics.transactionsObserved 1 } }
    tx.observedAtMs

/-- The window already holds the id. -/
def countDuplicate (engine : IndexerEngine) (recentTxids : RecentKeys) : IndexerEngine :=
  { engine with
    recentTxids := recentTxids
    metrics := { engine.metrics with
      duplicateTransactions := countUp engine.metrics.duplicateTransactions 1
      cacheHits := countUp engine.metrics.cacheHits 1 } }

/-- The window takes the id, and the matches found are counted. -/
def countFresh (engine : IndexerEngine) (recentTxids : RecentKeys) (found : List IndexedMatch) :
    IndexerEngine :=
  { engine with
    recentTxids := recentTxids
    metrics := { engine.metrics with
      cacheMisses := countUp engine.metrics.cacheMisses 1
      matchesObserved := countUp engine.metrics.matchesObserved found.length } }

/-- A transaction that was seen is not matched again. -/
def ingestTransaction (engine : IndexerEngine) (tx : IndexedTransaction) :
    EngineOutcome (List IndexedMatch) :=
  match validateTransaction engine.config tx with
  | .error error => (.error error, engine.countRejected)
  | .ok () =>
    let begun := engine.beginTransaction tx
    match begun.recentTxids.observe tx.txid with
    | (false, recentTxids) => (.ok [], begun.countDuplicate recentTxids)
    | (true, recentTxids) =>
      let found := scan tx begun.matcherList
      let counted := begun.countFresh recentTxids found
      let retained := counted.retainTransaction tx (!found.isEmpty)
      (.ok found, (retained.publishMatches found).recordSizeEvictions)

/-- The block counts as observed, and the expired records are gone. -/
def beginBlock (engine : IndexerEngine) (block : IndexedBlock) : IndexerEngine :=
  { purgeExpired
    { engine with metrics := { engine.metrics with
        blocksObserved := countUp engine.metrics.blocksObserved 1 } }
    block.observedAtMs with lastBlockAtMs := some block.observedAtMs }

/-- Kept in modes that keep blocks. -/
def retainBlock (engine : IndexerEngine) (block : IndexedBlock) : IndexerEngine :=
  if engine.config.mode.retainsBlocks = false then engine
  else
    match engine.store.insertBlock block with
    | (true, store) => { engine with
        store := store
        metrics := { engine.metrics with blocks := countUp engine.metrics.blocks 1 } }
    | (false, store) => { engine with store := store }

/-- A block without a hash is refused. -/
def ingestBlock (engine : IndexerEngine) (block : IndexedBlock) : EngineOutcome Unit :=
  if blank block.hash then (.error "block hash cannot be empty", engine.countRejected)
  else
    let retained := (engine.beginBlock block).retainBlock block
    (.ok (), (retained.pushEvents [.block block.hash]).recordSizeEvictions)

/-! ## Whole deliveries -/

/-- A checkpoint that does not validate is refused. -/
def setCheckpoint (engine : IndexerEngine) (checkpoint : SyncCheckpoint) : EngineOutcome Unit :=
  match checkpoint.validate with
  | .error error => (.error error, engine)
  | .ok () => (.ok (), { engine with
      checkpoint := checkpoint
      events := engine.events ++
        [.checkpoint checkpoint.virtualDaaScore checkpoint.blockHash] })

/-- The loop over the transactions of a batch, up to the first failure. -/
def ingestTransactions {α : Type} (collect : α → List IndexedMatch → α) :
    α → List IndexedTransaction → IndexerEngine → EngineOutcome α
  | total, [], engine => (.ok total, engine)
  | total, tx :: txs, engine =>
    (engine.ingestTransaction tx).andThen fun found engine =>
      ingestTransactions collect (collect total found) txs engine

/-- A block, then its transactions. -/
def ingestBatch {α : Type} (collect : α → List IndexedMatch → α) (total : α)
    (batch : BlockBatch) (engine : IndexerEngine) : EngineOutcome α :=
  (engine.ingestBlock batch.block).andThen fun _ engine =>
    ingestTransactions collect total batch.transactions engine

/-- The loop of `apply_sync_batches`: how many matches were added. -/
def syncBatches : UInt64 → List BlockBatch → IndexerEngine → EngineOutcome UInt64
  | added, [], engine => (.ok added, engine)
  | added, batch :: batches, engine =>
    (ingestBatch (fun added found => countUp added found.length) added batch engine).andThen
      fun added engine => syncBatches added batches engine

/-- The batches in order; the checkpoint moves last. -/
def applySyncBatches (engine : IndexerEngine) (batches : List BlockBatch)
    (checkpoint : SyncCheckpoint) : EngineOutcome SyncReport :=
  match checkpoint.validate with
  | .error error => (.error error, engine)
  | .ok () =>
    if batches.length > 100000 then
      (.error "sync batch count exceeds hard safety bound", engine)
    else
      let before := engine.store.counts
      (syncBatches 0 batches engine).andThen fun matchesAdded synced =>
        let after := synced.store.counts
        (synced.setCheckpoint checkpoint).andThen fun _ engine =>
          (.ok { transactionsAdded := UInt64.ofNat (after.1 - before.1)
                 blocksAdded := UInt64.ofNat (after.2.1 - before.2.1)
                 matchesAdded := matchesAdded
                 checkpoint := checkpoint }, engine)

/-- The ids of the stored transactions, in their order. -/
def rebuildRecentTxids (engine : IndexerEngine) : IndexerEngine :=
  let recentTxids := engine.store.allTransactions.foldl
    (fun keys tx => (keys.observe tx.txid).2) engine.recentTxids.clear
  { engine with recentTxids := recentTxids }

/-- What the blocks of a delta have added so far. -/
structure AddedCounts where
  blocks : Nat
  transactions : Nat
  «matches» : Nat
  deriving DecidableEq, Repr

/-- The loop of `reconcile_virtual_chain` over the accepted blocks. -/
def acceptBatches : AddedCounts → List BlockBatch → IndexerEngine → EngineOutcome AddedCounts
  | added, [], engine => (.ok added, engine)
  | added, batch :: batches, engine =>
    let before := engine.store.counts
    (ingestBatch (fun added found => added + found.length) added.matches batch engine).andThen
      fun addedMatches engine =>
        let after := engine.store.counts
        acceptBatches
          { blocks := added.blocks + (after.2.1 - before.2.1)
            transactions := added.transactions + (after.1 - before.1)
            «matches» := addedMatches } batches engine

/-- The blocks taken back are gone, and the window holds the ids that remain. -/
def removeOrphans (engine : IndexerEngine) (removedHashes : List String) :
    (Nat × Nat × Nat) × IndexerEngine :=
  let (removed, store) := engine.store.removeChainBlocks removedHashes
  (removed, rebuildRecentTxids { engine with
    store := store
    metrics := { engine.metrics with
      blocks := saturatingSub engine.metrics.blocks (UInt64.ofNat removed.1)
      transactions := saturatingSub engine.metrics.transactions (UInt64.ofNat removed.2.1)
      «matches» := saturatingSub engine.metrics.matches (UInt64.ofNat removed.2.2) } })

/-- Removed blocks go first, then the accepted ones are ingested. -/
def reconcileVirtualChain (engine : IndexerEngine) (delta : VirtualChainDelta) :
    EngineOutcome ReconciliationReport :=
  match delta.validate with
  | .error error => (.error error, engine)
  | .ok () =>
    let (removed, trimmed) := engine.removeOrphans delta.removedBlockHashes
    (acceptBatches { blocks := 0, transactions := 0, «matches» := 0 } delta.accepted trimmed).andThen
      fun added engine =>
        (engine.setCheckpoint delta.checkpoint).andThen fun _ engine =>
          (.ok { removedBlocks := removed.1
                 removedTransactions := removed.2.1
                 removedMatches := removed.2.2
                 addedBlocks := added.blocks
                 addedTransactions := added.transactions
                 addedMatches := added.matches
                 checkpoint := delta.checkpoint },
            engine.pushEvents [.reconciled removed.1 added.blocks])

/-! ## Saving and restoring -/

def snapshot (engine : IndexerEngine) : IndexerSnapshot := engine.store.snapshot

/-- The matchers go by their ids, in ascending order. -/
def persistedState (engine : IndexerEngine) : PersistedIndexerState :=
  PersistedIndexerState.new engine.snapshot engine.checkpoint
    (engine.matcherList.insertionSort Matcher.idLe)

/-- What can be computed from a restored store is computed again. -/
def rebuildRuntimeState (engine : IndexerEngine) : IndexerEngine :=
  let rebuilt := engine.rebuildRecentTxids
  let (transactions, blocks, found) := rebuilt.store.counts
  { rebuilt with
    metrics := { IndexerMetrics.default with
      transactions := UInt64.ofNat transactions
      blocks := UInt64.ofNat blocks
      «matches» := UInt64.ofNat found }
    lastBlockAtMs := rebuilt.store.allBlocks.getLast?.map IndexedBlock.observedAtMs }

/-- The source's `collect` of matchers under their ids. -/
def collectMatchers (matchers : List Matcher) : AList fun _ : UInt64 => Matcher :=
  matchers.foldl (fun table matcher => table.insert matcher.id matcher) ∅

/-- The checks a saved state has to pass before anything is replaced. -/
def checkState (config : IndexerConfig) (state : PersistedIndexerState) : Except String Unit :=
  match state.validateSchema with
  | .error error => .error error.toText
  | .ok () =>
    match state.checkpoint.validate with
    | .error error => .error error
    | .ok () =>
      match validateMatchers state.matchers with
      | .error error => .error error
      | .ok () => validateSnapshot config state.snapshot

/-- The store and the matchers are replaced first; the id counter may then fail. -/
def restoreState (engine : IndexerEngine) (state : PersistedIndexerState) : EngineOutcome Unit :=
  match checkState engine.config state with
  | .error error => (.error error, engine)
  | .ok () =>
    let replaced := { engine with
      store := MemoryStore.restore engine.config state.snapshot
      matchers := collectMatchers state.matchers }
    match Indexer.nextMatcherId replaced.matchers with
    | .error error => (.error error, replaced)
    | .ok id => (.ok (), { rebuildRuntimeState { replaced with
        nextMatcherId := id
        checkpoint := state.checkpoint } with events := [] })

/-- A snapshot replaces the store only after all of it has been checked. -/
def restoreSnapshot (engine : IndexerEngine) (snapshot : IndexerSnapshot) : EngineOutcome Unit :=
  match validateSnapshot engine.config snapshot with
  | .error error => (.error error, engine)
  | .ok () => (.ok (), { rebuildRuntimeState { engine with
      store := MemoryStore.restore engine.config snapshot } with events := [] })

def drainEvents (engine : IndexerEngine) : List IndexerEvent × IndexerEngine :=
  (engine.events, { engine with events := [] })

/-- Empties the store, the events, the counters and the checkpoint, and keeps the matchers. -/
def clear (engine : IndexerEngine) : IndexerEngine :=
  { engine with
    store := engine.store.clear
    recentTxids := engine.recentTxids.clear
    events := []
    metrics := IndexerMetrics.default
    checkpoint := SyncCheckpoint.default
    lastBlockAtMs := none }

end IndexerEngine

end KaspaPortal.Indexer
