import KaspaPortal.Indexer.Engine

/-!
# The indexer's interface

`indexer/facade.rs`: one engine behind a lock. A call either works on the engine in
place, or on a copy that takes its place only when the call succeeds.

The lock is never poisoned, and a call never waits for another: the calls of a run
come one after the other.
-/
namespace KaspaPortal.Indexer
open Lib

/-- The source's `with`. -/
def withEngine {α : Type} (action : IndexerEngine → EngineOutcome α) (engine : IndexerEngine) :
    Outcome Error IndexerEngine α :=
  ((action engine).1.mapError .indexer, (action engine).2)

def withAtomic {α : Type} (action : IndexerEngine → EngineOutcome α) :
    IndexerEngine → Outcome Error IndexerEngine α :=
  withEngine fun engine =>
    match action engine with
    | (.ok result, staged) => (.ok result, staged)
    | (.error error, _) => (.error error, engine)

/-- Expired records are purged before the engine is read, if the clock can be. -/
def withFresh {α : Type} (nowMs : Except String UInt64)
    (action : IndexerEngine → EngineOutcome α) (engine : IndexerEngine) :
    Outcome Error IndexerEngine α :=
  match nowMs with
  | .error error => (.error (.indexer error), engine)
  | .ok now => withEngine (fun engine => action (engine.purgeExpired now)) engine

def ingestBlockBatch (batch : BlockBatch) :
    IndexerEngine → Outcome Error IndexerEngine BlockScanReport :=
  withAtomic fun engine =>
    (IndexerEngine.ingestBatch (fun total found => total ++ found) [] batch engine).andThen
      fun found engine =>
        (.ok { blockHash := batch.block.hash
               transactionsScanned := batch.transactions.length
               «matches» := found }, engine)

/-- The calls of the interface. `read` stands for those that return part of the engine
and change nothing but purge what has expired. -/
inductive ApiCall where
  | start (nowMs : Except String UInt64)
  | stop
  | addMatcher (rule : MatchRule)
  | removeMatcher (id : UInt64)
  | ingestTransaction (tx : IndexedTransaction)
  | ingestBlock (block : IndexedBlock)
  | ingestBlockBatch (batch : BlockBatch)
  | read (nowMs : Except String UInt64)
  | drainEvents (nowMs : Except String UInt64)
  | restoreSnapshot (snapshot : IndexerSnapshot)
  | setCheckpoint (checkpoint : SyncCheckpoint)
  | restoreState (state : PersistedIndexerState)
  | applySyncBatches (batches : List BlockBatch) (checkpoint : SyncCheckpoint)
  | reconcileVirtualChain (delta : VirtualChainDelta)
  | clear

/-- A step that cannot fail. -/
def succeed (action : IndexerEngine → IndexerEngine) (engine : IndexerEngine) :
    EngineOutcome Unit := (.ok (), action engine)

/-- Whether the call succeeds, and the engine it leaves. -/
def ApiCall.run : ApiCall → IndexerEngine → Outcome Error IndexerEngine Unit
  | start nowMs, engine =>
    match nowMs with
    | .error error => (.error (.indexer error), engine)
    | .ok now => withEngine (succeed (·.start now)) engine
  | stop, engine => withEngine (succeed IndexerEngine.stop) engine
  | addMatcher rule, engine => (withEngine (·.addMatcher rule) engine).forget
  | removeMatcher id, engine => withEngine (succeed fun engine => (engine.removeMatcher id).2) engine
  | ingestTransaction tx, engine => (withEngine (·.ingestTransaction tx) engine).forget
  | ingestBlock block, engine => withEngine (·.ingestBlock block) engine
  | ingestBlockBatch batch, engine => (Indexer.ingestBlockBatch batch engine).forget
  | read nowMs, engine => withFresh nowMs (succeed id) engine
  | drainEvents nowMs, engine =>
    withFresh nowMs (succeed fun engine => engine.drainEvents.2) engine
  | restoreSnapshot snapshot, engine => withEngine (·.restoreSnapshot snapshot) engine
  | setCheckpoint checkpoint, engine => withEngine (·.setCheckpoint checkpoint) engine
  | restoreState state, engine => withEngine (·.restoreState state) engine
  | applySyncBatches batches checkpoint, engine =>
    (withAtomic (·.applySyncBatches batches checkpoint) engine).forget
  | reconcileVirtualChain delta, engine =>
    (withAtomic (·.reconcileVirtualChain delta) engine).forget
  | clear, engine => withEngine (succeed IndexerEngine.clear) engine

end KaspaPortal.Indexer
