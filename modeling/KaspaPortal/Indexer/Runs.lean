import KaspaPortal.Indexer.Engine

/-!
# Runs of the engine

The calls of `indexer/engine.rs` as steps, and the engines that runs of them reach.
A batch is a sequence of deliveries, one record at a time, up to the first failure.

A run is one of the engine. Two engines over one storage are not modelled.
-/
namespace KaspaPortal.Indexer
open Lib

/-! ## Deliveries -/

/-- A record that a node delivers. -/
inductive Delivery where
  | block (value : IndexedBlock)
  | transaction (value : IndexedTransaction)

def Delivery.run : Delivery → IndexerEngine → EngineOutcome Unit
  | block value, engine => engine.ingestBlock value
  | transaction value, engine => (engine.ingestTransaction value).forget

def deliverAll : List Delivery → IndexerEngine → EngineOutcome Unit
  | [], engine => (.ok (), engine)
  | delivery :: rest, engine =>
    (delivery.run engine).andThen fun _ engine => deliverAll rest engine

def BlockBatch.deliveries (batch : BlockBatch) : List Delivery :=
  .block batch.block :: batch.transactions.map .transaction

theorem deliverAll_append (first rest : List Delivery) (engine : IndexerEngine) :
    deliverAll (first ++ rest) engine =
      (deliverAll first engine).andThen fun _ engine => deliverAll rest engine := by
  induction first generalizing engine with
  | nil => rfl
  | cons delivery first ih =>
    rw [List.cons_append, deliverAll, deliverAll, Outcome.andThen_assoc]
    congr 1
    funext _ engine
    exact ih engine

theorem forget_ingestTransactions {α : Type} (collect : α → List IndexedMatch → α) (total : α)
    (txs : List IndexedTransaction) (engine : IndexerEngine) :
    (IndexerEngine.ingestTransactions collect total txs engine).forget =
      deliverAll (txs.map .transaction) engine := by
  induction txs generalizing total engine with
  | nil => rfl
  | cons tx txs ih =>
    exact Outcome.forget_andThen (deliverAll (txs.map .transaction)) fun found engine => ih _ engine

theorem forget_ingestBatch {α : Type} (collect : α → List IndexedMatch → α) (total : α)
    (batch : BlockBatch) (engine : IndexerEngine) :
    (IndexerEngine.ingestBatch collect total batch engine).forget =
      deliverAll batch.deliveries engine := by
  have hblock : (engine.ingestBlock batch.block).forget = engine.ingestBlock batch.block := by
    rw [IndexerEngine.ingestBlock]
    split <;> rfl
  rw [IndexerEngine.ingestBatch,
    Outcome.forget_andThen (deliverAll (batch.transactions.map .transaction)) fun _ engine =>
      forget_ingestTransactions collect total batch.transactions engine, hblock]
  rfl

theorem forget_syncBatches (added : UInt64) (batches : List BlockBatch) (engine : IndexerEngine) :
    (IndexerEngine.syncBatches added batches engine).forget =
      deliverAll (batches.flatMap BlockBatch.deliveries) engine := by
  induction batches generalizing added engine with
  | nil => rfl
  | cons batch batches ih =>
    rw [IndexerEngine.syncBatches,
      Outcome.forget_andThen (deliverAll (batches.flatMap BlockBatch.deliveries))
        fun _ engine => ih _ engine,
      forget_ingestBatch, List.flatMap_cons, deliverAll_append]

theorem forget_acceptBatches (added : IndexerEngine.AddedCounts) (batches : List BlockBatch)
    (engine : IndexerEngine) :
    (IndexerEngine.acceptBatches added batches engine).forget =
      deliverAll (batches.flatMap BlockBatch.deliveries) engine := by
  induction batches generalizing added engine with
  | nil => rfl
  | cons batch batches ih =>
    rw [IndexerEngine.acceptBatches,
      Outcome.forget_andThen (deliverAll (batches.flatMap BlockBatch.deliveries))
        fun _ engine => ih _ engine,
      forget_ingestBatch, List.flatMap_cons, deliverAll_append]

theorem syncBatches_state (added : UInt64) (batches : List BlockBatch) (engine : IndexerEngine) :
    (IndexerEngine.syncBatches added batches engine).2 =
      (deliverAll (batches.flatMap BlockBatch.deliveries) engine).2 :=
  congrArg Prod.snd (forget_syncBatches added batches engine)

theorem acceptBatches_state (added : IndexerEngine.AddedCounts) (batches : List BlockBatch)
    (engine : IndexerEngine) :
    (IndexerEngine.acceptBatches added batches engine).2 =
      (deliverAll (batches.flatMap BlockBatch.deliveries) engine).2 :=
  congrArg Prod.snd (forget_acceptBatches added batches engine)

/-- Each delivery that is made meets a condition on it and the engine it meets. -/
def Delivers (ok : Delivery → IndexerEngine → Prop) : List Delivery → IndexerEngine → Prop
  | [], _ => True
  | delivery :: rest, engine => ok delivery engine ∧
    ((delivery.run engine).1 = .ok () → Delivers ok rest (delivery.run engine).2)

theorem delivers_of_forall {ok : Delivery → IndexerEngine → Prop} (h : ∀ delivery engine, ok delivery engine)
    (items : List Delivery) (engine : IndexerEngine) : Delivers ok items engine := by
  induction items generalizing engine with
  | nil => trivial
  | cons delivery items ih => exact ⟨h delivery engine, fun _ => ih _⟩

/-- What each delivery keeps, all of them keep. -/
theorem deliverAll_keeps (P : IndexerEngine → Prop) (ok : Delivery → IndexerEngine → Prop)
    (hstep : ∀ delivery engine, P engine → ok delivery engine → P (delivery.run engine).2)
    {items : List Delivery} {engine : IndexerEngine} (h : P engine)
    (hok : Delivers ok items engine) : P (deliverAll items engine).2 := by
  induction items generalizing engine with
  | nil => exact h
  | cons delivery items ih =>
    have hfirst := hstep delivery engine h hok.1
    exact Outcome.andThen_state hfirst fun _ hrun => ih hfirst (hok.2 hrun)

/-- What the deliveries of a sync establish and a checkpoint keeps, the sync establishes. -/
theorem applySyncBatches_keeps (P : IndexerEngine → Prop) {engine : IndexerEngine}
    {batches : List BlockBatch} {checkpoint : SyncCheckpoint} (h : P engine)
    (hdelivered : checkpoint.validate = .ok () → batches.length ≤ 100000 →
      P (deliverAll (batches.flatMap BlockBatch.deliveries) engine).2)
    (hcheckpoint : ∀ engine, P engine → P (engine.setCheckpoint checkpoint).2) :
    P (engine.applySyncBatches batches checkpoint).2 := by
  rw [IndexerEngine.applySyncBatches]
  split
  case h_1 => exact h
  case h_2 hvalid =>
    split
    case isTrue => exact h
    case isFalse hlen =>
      have hsynced := hdelivered hvalid (Nat.le_of_not_lt hlen)
      rw [← syncBatches_state 0] at hsynced
      refine Outcome.andThen_state hsynced fun _ _ => ?_
      exact Outcome.andThen_state (hcheckpoint _ hsynced) fun _ _ => hcheckpoint _ hsynced

theorem reconcileVirtualChain_keeps (P : IndexerEngine → Prop) {engine : IndexerEngine}
    {delta : VirtualChainDelta} (h : P engine)
    (haccepted : delta.validate = .ok () →
      P (deliverAll (delta.accepted.flatMap BlockBatch.deliveries)
        (engine.removeOrphans delta.removedBlockHashes).2).2)
    (hcheckpoint : ∀ engine, P engine → P (engine.setCheckpoint delta.checkpoint).2)
    (hevents : ∀ engine events, P engine → P (engine.pushEvents events)) :
    P (engine.reconcileVirtualChain delta).2 := by
  rw [IndexerEngine.reconcileVirtualChain]
  split
  case h_1 => exact h
  case h_2 hvalid =>
    have haccepted := haccepted hvalid
    rw [← acceptBatches_state { blocks := 0, transactions := 0, «matches» := 0 }] at haccepted
    refine Outcome.andThen_state haccepted fun _ _ => ?_
    exact Outcome.andThen_state (hcheckpoint _ haccepted) fun _ _ =>
      hevents _ _ (hcheckpoint _ haccepted)

/-! ## Calls -/

inductive EngineOp where
  | start (nowMs : UInt64)
  | stop
  | addMatcher (rule : MatchRule)
  | removeMatcher (id : UInt64)
  | ingestTransaction (tx : IndexedTransaction)
  | ingestBlock (block : IndexedBlock)
  | purgeExpired (nowMs : UInt64)
  | setCheckpoint (checkpoint : SyncCheckpoint)
  | applySyncBatches (batches : List BlockBatch) (checkpoint : SyncCheckpoint)
  | reconcileVirtualChain (delta : VirtualChainDelta)
  | restoreSnapshot (snapshot : IndexerSnapshot)
  | restoreState (state : PersistedIndexerState)
  | drainEvents
  | clear

/-- The engine a call leaves, whether it succeeds or not. -/
def EngineOp.run : EngineOp → IndexerEngine → IndexerEngine
  | start nowMs, engine => engine.start nowMs
  | stop, engine => engine.stop
  | addMatcher rule, engine => (engine.addMatcher rule).2
  | removeMatcher id, engine => (engine.removeMatcher id).2
  | ingestTransaction tx, engine => (engine.ingestTransaction tx).2
  | ingestBlock block, engine => (engine.ingestBlock block).2
  | purgeExpired nowMs, engine => engine.purgeExpired nowMs
  | setCheckpoint checkpoint, engine => (engine.setCheckpoint checkpoint).2
  | applySyncBatches batches checkpoint, engine => (engine.applySyncBatches batches checkpoint).2
  | reconcileVirtualChain delta, engine => (engine.reconcileVirtualChain delta).2
  | restoreSnapshot snapshot, engine => (engine.restoreSnapshot snapshot).2
  | restoreState state, engine => (engine.restoreState state).2
  | drainEvents, engine => engine.drainEvents.2
  | clear, engine => engine.clear

/-- Each delivery that a call makes meets a condition on it and the engine it meets. -/
def EngineOp.Delivering (ok : Delivery → IndexerEngine → Prop) : EngineOp → IndexerEngine → Prop
  | ingestTransaction tx, engine => ok (.transaction tx) engine
  | ingestBlock block, engine => ok (.block block) engine
  | applySyncBatches batches checkpoint, engine =>
    checkpoint.validate = .ok () → batches.length ≤ 100000 →
      Delivers ok (batches.flatMap BlockBatch.deliveries) engine
  | reconcileVirtualChain delta, engine =>
    delta.validate = .ok () → Delivers ok (delta.accepted.flatMap BlockBatch.deliveries)
      (engine.removeOrphans delta.removedBlockHashes).2
  | _, _ => True

/-- A snapshot that a call puts in place of the store meets a condition. -/
def EngineOp.Restoring (config : IndexerConfig) (ok : IndexerSnapshot → Prop) : EngineOp → Prop
  | restoreSnapshot snapshot => validateSnapshot config snapshot = .ok () → ok snapshot
  | restoreState state => IndexerEngine.checkState config state = .ok () → ok state.snapshot
  | _ => True

/-- The matcher ids a call hands out. -/
def EngineOp.issues : EngineOp → IndexerEngine → List UInt64
  | addMatcher rule, engine =>
    match (engine.addMatcher rule).1 with
    | .ok id => [id]
    | .error _ => []
  | _, _ => []

/-- The engines that calls meeting a condition lead to, with the matcher ids handed out
so far. Between two calls the table of matchers may come in any order. -/
inductive Run (config : IndexerConfig) (allowed : EngineOp → IndexerEngine → Prop) :
    IndexerEngine → List UInt64 → Prop
  | new {engine : IndexerEngine} (h : IndexerEngine.new config = .ok engine) :
    Run config allowed engine []
  | call {engine : IndexerEngine} {issued : List UInt64} (h : Run config allowed engine issued)
    (op : EngineOp) (ok : allowed op engine) :
    Run config allowed (op.run engine) (issued ++ op.issues engine)
  | reorder {engine : IndexerEngine} {issued : List UInt64} (h : Run config allowed engine issued)
    (matchers : AList fun _ : UInt64 => Matcher)
    (hmatchers : matchers.entries.Perm engine.matchers.entries) :
    Run config allowed { engine with matchers := matchers } issued

/-- Any sequence of calls. -/
abbrev Reachable (config : IndexerConfig) : IndexerEngine → List UInt64 → Prop :=
  Run config fun _ _ => True

/-- A list of calls, one after the other. -/
def runAll (ops : List EngineOp) (engine : IndexerEngine) : IndexerEngine :=
  ops.foldl (fun engine op => op.run engine) engine

/-- Calls in a row that each meet a condition on the call and the engine it meets. -/
def Calls (allowed : EngineOp → IndexerEngine → Prop) : List EngineOp → IndexerEngine → Prop
  | [], _ => True
  | op :: rest, engine => allowed op engine ∧ Calls allowed rest (op.run engine)

/-- The matcher ids that calls in a row hand out, the first one first. -/
def issuedBy : List EngineOp → IndexerEngine → List UInt64
  | [], _ => []
  | op :: rest, engine => op.issues engine ++ issuedBy rest (op.run engine)

/-- A run goes on with any calls that are allowed. -/
theorem Run.calls {config : IndexerConfig} {allowed : EngineOp → IndexerEngine → Prop}
    {engine : IndexerEngine} {issued : List UInt64} (h : Run config allowed engine issued)
    {ops : List EngineOp} (hops : Calls allowed ops engine) :
    Run config allowed (runAll ops engine) (issued ++ issuedBy ops engine) := by
  induction ops generalizing engine issued with
  | nil =>
    rw [issuedBy, List.append_nil]
    exact h
  | cons op ops ih =>
    obtain ⟨hop, hrest⟩ := hops
    have hrun := ih (.call h op hop) hrest
    rw [List.append_assoc] at hrun
    exact hrun

/-- Where every call is allowed, so are calls in a row. -/
theorem calls_of_forall {allowed : EngineOp → IndexerEngine → Prop}
    (h : ∀ op engine, allowed op engine) (ops : List EngineOp) (engine : IndexerEngine) :
    Calls allowed ops engine := by
  induction ops generalizing engine with
  | nil => trivial
  | cons op ops ih => exact ⟨h op engine, ih _⟩

/-- Any calls in a row lead from one reachable engine to another. -/
theorem Run.reaches {config : IndexerConfig} {engine : IndexerEngine} {issued : List UInt64}
    (h : Reachable config engine issued) (ops : List EngineOp) :
    Reachable config (runAll ops engine) (issued ++ issuedBy ops engine) :=
  h.calls (calls_of_forall (fun _ _ => trivial) ops engine)

end KaspaPortal.Indexer
