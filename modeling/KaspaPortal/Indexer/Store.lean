import KaspaPortal.Indexer.Records
import KaspaPortal.Lib.QueuedMap

/-!
# The in-memory store

`indexer/storage/memory.rs` and `dedupe.rs`: bounded maps of transactions and blocks
with their arrival queues, the queue of matches, and the window of recent keys.

The maps are lists without repeated keys; how the source hashes a key is not
modelled.
-/
namespace KaspaPortal.Indexer
open Lib

/-- What a trim reports for the metrics. -/
structure StoreEviction where
  kind : String
  id : String
  deriving DecidableEq, Repr

/-- Every map with the order in which its keys came. -/
structure MemoryStore where
  config : IndexerConfig
  tx : KeyedMap String IndexedTransaction
  txOrder : List String
  blocks : KeyedMap String IndexedBlock
  blockOrder : List String
  «matches» : List IndexedMatch
  pendingEvictions : List StoreEviction

namespace MemoryStore

def new (config : IndexerConfig) : MemoryStore where
  config := config
  tx := ∅
  txOrder := []
  blocks := ∅
  blockOrder := []
  «matches» := []
  pendingEvictions := []

/-- The source's `transactions()`. -/
def allTransactions (store : MemoryStore) : List IndexedTransaction :=
  records store.txOrder store.tx

/-- The source's `blocks()`. -/
def allBlocks (store : MemoryStore) : List IndexedBlock := records store.blockOrder store.blocks

/-- All that is retained, in order. -/
def snapshot (store : MemoryStore) : IndexerSnapshot where
  transactions := store.allTransactions
  blocks := store.allBlocks
  «matches» := store.matches

/-- How many of each are retained. -/
def counts (store : MemoryStore) : Nat × Nat × Nat :=
  (store.tx.len, store.blocks.len, store.matches.length)

/-! ## Trimming -/

/-- A transaction takes its matches with it. -/
def evictTransaction (id : String) (store : MemoryStore) : MemoryStore :=
  { store with
    tx := store.tx.erase id
    «matches» := store.matches.filter fun value => value.txid != id
    pendingEvictions := store.pendingEvictions ++ [{ kind := "transaction_size", id := id }] }

/-- Oldest first, until the bound is met. -/
def trimTransactions (store : MemoryStore) : MemoryStore :=
  let drained := drainWhile (fun _ s => decide (s.config.maxTransactions < s.tx.len))
    evictTransaction store.txOrder store
  { drained.2 with txOrder := drained.1 }

def evictBlock (id : String) (store : MemoryStore) : MemoryStore :=
  { store with
    blocks := store.blocks.erase id
    pendingEvictions := store.pendingEvictions ++ [{ kind := "block_size", id := id }] }

def trimBlocks (store : MemoryStore) : MemoryStore :=
  let drained := drainWhile (fun _ s => decide (s.config.maxBlocks < s.blocks.len))
    evictBlock store.blockOrder store
  { drained.2 with blockOrder := drained.1 }

/-- Matches are evicted one by one and named by both their ids. -/
def evictMatch (value : IndexedMatch) (store : MemoryStore) : MemoryStore :=
  { store with
    pendingEvictions := store.pendingEvictions ++
      [{ kind := "match_size", id := toString value.matcherId ++ ":" ++ value.txid }] }

def trimMatches (store : MemoryStore) : MemoryStore :=
  let drained := drainWhile (fun queue s => decide (s.config.maxMatches < queue.length))
    evictMatch store.matches store
  { drained.2 with «matches» := drained.1 }

/-! ## Inserting -/

/-- A new record stands last. -/
def pushTransaction (store : MemoryStore) (value : IndexedTransaction) : MemoryStore :=
  { store with
    tx := store.tx.insert value.txid value
    txOrder := store.txOrder ++ [value.txid] }

/-- A known id changes nothing, not even its record. -/
def insertTransaction (store : MemoryStore) (value : IndexedTransaction) : Bool × MemoryStore :=
  if value.txid ∈ store.tx then (false, store)
  else (true, (store.pushTransaction value).trimTransactions)

def pushBlock (store : MemoryStore) (value : IndexedBlock) : MemoryStore :=
  { store with
    blocks := store.blocks.insert value.hash value
    blockOrder := store.blockOrder ++ [value.hash] }

/-- A known hash changes nothing. -/
def insertBlock (store : MemoryStore) (value : IndexedBlock) : Bool × MemoryStore :=
  if value.hash ∈ store.blocks then (false, store)
  else (true, (store.pushBlock value).trimBlocks)

/-- A match is not looked for among those retained. -/
def insertMatch (store : MemoryStore) (value : IndexedMatch) : MemoryStore :=
  trimMatches { store with «matches» := store.matches ++ [value] }

/-- The reports are handed over once. -/
def takeEvictions (store : MemoryStore) : List StoreEviction × MemoryStore :=
  (store.pendingEvictions, { store with pendingEvictions := [] })

/-- A snapshot is inserted record by record, under the bounds; what it evicts is not reported. -/
def restore (config : IndexerConfig) (snapshot : IndexerSnapshot) : MemoryStore :=
  let store := snapshot.transactions.foldl (fun store value => (store.insertTransaction value).2)
    (new config)
  let store := snapshot.blocks.foldl (fun store value => (store.insertBlock value).2) store
  let store := snapshot.matches.foldl insertMatch store
  { store with pendingEvictions := [] }

def clear (store : MemoryStore) : MemoryStore := new store.config

/-! ## Removing -/

/-- The matches of other transactions stay in their order. -/
def removeMatchesForTransactions (items : List IndexedMatch) (ids : List String) :
    List IndexedMatch :=
  if ids.isEmpty then items else items.filter fun value => decide (value.txid ∉ ids)

/-- The front of the queue is expired, or names no transaction. -/
def frontExpired (ttl nowMs : UInt64) : List String → MemoryStore × List String → Bool
  | [], _ => false
  | id :: _, (store, _) =>
    match store.tx.lookup id with
    | none => true
    | some transaction => !decide (saturatingSub nowMs transaction.observedAtMs ≤ ttl)

/-- An id without a record is skipped. -/
def dropExpired (id : String) : MemoryStore × List String → MemoryStore × List String
  | (store, expired) =>
    match store.tx.lookup id with
    | none => (store, expired)
    | some _ => ({ store with tx := store.tx.erase id }, expired ++ [id])

/-- The ids that were purged, oldest first, and the store without them. -/
def purgeExpired (store : MemoryStore) (nowMs : UInt64) : List String × MemoryStore :=
  if store.config.transactionTtlMs = 0 then ([], store)
  else
    let drained := drainWhile (frontExpired store.config.transactionTtlMs nowMs) dropExpired
      store.txOrder (store, [])
    let purged := { drained.2.1 with txOrder := drained.1 }
    let expired := drained.2.2
    (expired, { purged with
      «matches» := removeMatchesForTransactions purged.matches expired })

/-- The transaction sits in a block that is taken back. -/
def orphaned (removedHashes : List String) (transaction : IndexedTransaction) : Bool :=
  transaction.blockHash.any fun hash => decide (hash ∈ removedHashes)

/-- How many blocks, transactions and matches go with the blocks taken back. -/
def removeChainBlocks (store : MemoryStore) (removedHashes : List String) :
    (Nat × Nat × Nat) × MemoryStore :=
  if removedHashes.isEmpty then ((0, 0, 0), store)
  else
    let removedTxids := (store.tx.retain fun _ tx => orphaned removedHashes tx).keys
    let after := { store with
      blocks := store.blocks.retain fun hash _ => decide (hash ∉ removedHashes)
      blockOrder := store.blockOrder.filter fun hash => decide (hash ∉ removedHashes)
      tx := store.tx.retain fun txid _ => decide (txid ∉ removedTxids)
      txOrder := store.txOrder.filter fun txid => decide (txid ∉ removedTxids)
      «matches» := store.matches.filter fun item => decide (item.txid ∉ removedTxids) }
    ((store.blocks.len - after.blocks.len, store.tx.len - after.tx.len,
      store.matches.length - after.matches.length), after)

end MemoryStore

/-! ## The window of recent keys -/

/-- The keys seen last, as a queue and as a set. -/
structure RecentKeys where
  capacity : Nat
  set : Finset String
  order : List String

namespace RecentKeys

def new (capacity : Nat) : RecentKeys where
  capacity := capacity
  set := ∅
  order := []

/-- Oldest first, until the capacity is met. -/
def trim (keys : RecentKeys) : RecentKeys :=
  let drained := drainWhile (fun queue _ => decide (keys.capacity < queue.length))
    (fun key set => set.erase key) keys.order keys.set
  { keys with set := drained.2, order := drained.1 }

/-- True only for a key that was not in the window. -/
def observe (keys : RecentKeys) (key : String) : Bool × RecentKeys :=
  if key ∈ keys.set then (false, keys)
  else (true, trim { keys with set := insert key keys.set, order := keys.order ++ [key] })

def clear (keys : RecentKeys) : RecentKeys := { keys with set := ∅, order := [] }

end RecentKeys

end KaspaPortal.Indexer
