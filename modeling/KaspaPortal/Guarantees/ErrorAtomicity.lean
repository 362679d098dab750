import KaspaPortal.Indexer.Facade
import KaspaPortal.Indexer.Invariant

/-!
# Calls that fail

A failing call of the interface leaves the engine as it was, up to the counter of
rejected records. The one exception is a restore whose matchers leave no id for the
next one: it has replaced the store and the matchers by the time it fails.

Failures of the allocator and of the storage behind a snapshot are not among the
errors of a call.
-/
namespace KaspaPortal.Guarantees
open Lib Indexer

/-- The same store, matchers, next matcher id, checkpoint, window and events, and the same
counters but for rejected records. -/
structure UnchangedByError (before after : IndexerEngine) : Prop where
  store : after.store = before.store
  matchers : after.matchers.entries.Perm before.matchers.entries
  nextMatcherId : after.nextMatcherId = before.nextMatcherId
  checkpoint : after.checkpoint = before.checkpoint
  recentTxids : after.recentTxids = before.recentTxids
  events : after.events = before.events
  metrics : ∃ count, after.metrics = { before.metrics with rejectedRecords := count }

/-- The engine holds what restoring a saved state would put in place first. -/
def AlreadyHolds (engine : IndexerEngine) (state : PersistedIndexerState) : Prop :=
  engine.store = MemoryStore.restore engine.config state.snapshot ∧
    engine.matchers.entries.Perm (IndexerEngine.collectMatchers state.matchers).entries

/-- The call restores a state that passes its checks and leaves no id for a next matcher. -/
def ExhaustsIds (engine : IndexerEngine) (call : ApiCall) (state : PersistedIndexerState) : Prop :=
  call = .restoreState state ∧ IndexerEngine.checkState engine.config state = .ok () ∧
    u64Max ∈ state.matchers.map Matcher.id

namespace ErrorAtomicity

variable {α : Type} {engine after : IndexerEngine} {error : Error}

theorem unchanged_refl (engine : IndexerEngine) : UnchangedByError engine engine :=
  ⟨rfl, List.Perm.refl _, rfl, rfl, rfl, rfl, ⟨engine.metrics.rejectedRecords, rfl⟩⟩

theorem unchanged_countRejected (engine : IndexerEngine) :
    UnchangedByError engine engine.countRejected :=
  ⟨rfl, List.Perm.refl _, rfl, rfl, rfl, rfl, ⟨_, rfl⟩⟩

/-- An action keeps the engine when it fails. -/
def FailsUnchanged (action : IndexerEngine → EngineOutcome α) : Prop :=
  ∀ engine error after, action engine = (.error error, after) → UnchangedByError engine after

theorem withEngine_error {action : IndexerEngine → EngineOutcome α}
    (h : withEngine action engine = (.error error, after)) :
    ∃ text, action engine = (.error text, after) := by
  rw [withEngine] at h
  obtain ⟨hresult, hstate⟩ := Prod.mk.inj h
  cases hx : (action engine).1 with
  | error text => exact ⟨text, Prod.ext hx hstate⟩
  | ok a =>
    rw [hx, mapError_ok] at hresult
    cases hresult

theorem withAtomic_error {action : IndexerEngine → EngineOutcome α}
    (h : withAtomic action engine = (.error error, after)) : after = engine := by
  obtain ⟨text, h⟩ := withEngine_error h
  split at h
  · cases h
  · exact (Prod.mk.inj h).2.symm

theorem forget_error {x : Outcome Error IndexerEngine α}
    (h : x.forget = (.error error, after)) : x = (.error error, after) := by
  obtain ⟨result, engine⟩ := x
  cases result with
  | error e =>
    cases h
    rfl
  | ok a => cases h

/-- A call in place on the engine fails unchanged when its action does. -/
theorem withEngine_unchanged {action : IndexerEngine → EngineOutcome α}
    (haction : FailsUnchanged action) (h : withEngine action engine = (.error error, after)) :
    UnchangedByError engine after := by
  obtain ⟨text, htext⟩ := withEngine_error h
  exact haction engine text after htext

theorem succeed_failsUnchanged (action : IndexerEngine → IndexerEngine) :
    FailsUnchanged (succeed action) := by
  intro engine error after h
  cases h

theorem withFresh_unchanged (nowMs : Except String UInt64) (action : IndexerEngine → IndexerEngine)
    (h : withFresh nowMs (succeed action) engine = (.error error, after)) :
    UnchangedByError engine after := by
  cases nowMs with
  | error text =>
    cases h
    exact unchanged_refl engine
  | ok now =>
    have haction : FailsUnchanged fun engine : IndexerEngine =>
        succeed action (engine.purgeExpired now) := by
      intro engine error after herror
      cases herror
    exact withEngine_unchanged haction h

theorem addMatcher_failsUnchanged (rule : MatchRule) :
    FailsUnchanged fun engine => engine.addMatcher rule := by
  intro engine error after h
  dsimp only at h
  rw [IndexerEngine.addMatcher] at h
  split at h
  case h_1 =>
    cases h
    exact unchanged_refl engine
  case h_2 =>
    split at h
    case isTrue =>
      cases h
      exact unchanged_refl engine
    case isFalse =>
      dsimp only at h
      split at h
      case h_1 =>
        cases h
        exact unchanged_refl engine
      case h_2 => cases h

theorem ingestTransaction_failsUnchanged (tx : IndexedTransaction) :
    FailsUnchanged fun engine => engine.ingestTransaction tx := by
  intro engine error after h
  dsimp only at h
  rw [IndexerEngine.ingestTransaction] at h
  split at h
  case h_1 =>
    cases h
    exact unchanged_countRejected engine
  case h_2 =>
    dsimp only at h
    split at h <;> cases h

theorem ingestBlock_failsUnchanged (block : IndexedBlock) :
    FailsUnchanged fun engine => engine.ingestBlock block := by
  intro engine error after h
  dsimp only at h
  rw [IndexerEngine.ingestBlock] at h
  split at h
  case isTrue =>
    cases h
    exact unchanged_countRejected engine
  case isFalse => cases h

theorem setCheckpoint_failsUnchanged (checkpoint : SyncCheckpoint) :
    FailsUnchanged fun engine => engine.setCheckpoint checkpoint := by
  intro engine error after h
  dsimp only at h
  rw [IndexerEngine.setCheckpoint] at h
  split at h
  case h_1 =>
    cases h
    exact unchanged_refl engine
  case h_2 => cases h

theorem restoreSnapshot_failsUnchanged (snapshot : IndexerSnapshot) :
    FailsUnchanged fun engine => engine.restoreSnapshot snapshot := by
  intro engine error after h
  dsimp only at h
  rw [IndexerEngine.restoreSnapshot] at h
  split at h
  case h_1 =>
    cases h
    exact unchanged_refl engine
  case h_2 => cases h

/-! ## The id left for a next matcher -/

theorem foldl_max_eq_u64Max (ids : List UInt64) (start : UInt64) :
    ids.foldl max start = u64Max ↔ start = u64Max ∨ u64Max ∈ ids := by
  induction ids generalizing start with
  | nil => simp
  | cons id ids ih =>
    rw [List.foldl_cons, ih, List.mem_cons]
    have hmax : max start id = u64Max ↔ start = u64Max ∨ u64Max = id := by
      have htop : u64Max.toNat = 2 ^ 64 - 1 := by decide
      have hstart := start.toNat_lt
      have hid := id.toNat_lt
      have hdef : max start id = if start ≤ id then id else start := rfl
      rw [hdef]
      simp only [← UInt64.toNat_inj, htop]
      split
      case isTrue hle =>
        have hle := UInt64.le_iff_toNat_le.mp hle
        omega
      case isFalse hlt =>
        have hlt : ¬ start.toNat ≤ id.toNat := fun hle => hlt (UInt64.le_iff_toNat_le.mpr hle)
        omega
    rw [hmax, or_assoc]

/-- No id is left just when the largest one is taken. -/
theorem nextMatcherId_error_iff (matchers : AList fun _ : UInt64 => Matcher) :
    (∃ error, Indexer.nextMatcherId matchers = .error error) ↔ u64Max ∈ matchers.keys := by
  have hzero : (0 : UInt64) ≠ u64Max := by decide
  have hiff := foldl_max_eq_u64Max matchers.keys 0
  rw [or_iff_right hzero] at hiff
  rw [← hiff, Indexer.nextMatcherId, largestMatcherId, checkedSucc]
  by_cases heq : matchers.keys.foldl max 0 = u64Max
  · rw [if_pos heq]
    exact iff_of_true ⟨_, rfl⟩ heq
  · rw [if_neg heq]
    refine iff_of_false (fun h => ?_) heq
    obtain ⟨error, h⟩ := h
    cases h

theorem keys_collectMatchers {items : List Matcher} (h : validateMatchers items = .ok ()) :
    u64Max ∈ (IndexerEngine.collectMatchers items).keys ↔ u64Max ∈ items.map Matcher.id := by
  have hnodup := (MatchersChecked.validateMatchers_ok h).2.2
  rw [AList.keys, List.keys, MatchersChecked.collectMatchers_entries hnodup, List.map_reverse,
    List.mem_reverse, List.map_map]
  rfl

/-- A restore fails in its checks, or once the store and the matchers are replaced. -/
theorem restoreState_error (state : PersistedIndexerState) (text : String) :
    engine.restoreState state = (.error text, after) →
      (∃ error, IndexerEngine.checkState engine.config state = .error error) ∧ after = engine ∨
      IndexerEngine.checkState engine.config state = .ok () ∧
        u64Max ∈ state.matchers.map Matcher.id ∧
        after = { engine with
          store := MemoryStore.restore engine.config state.snapshot
          matchers := IndexerEngine.collectMatchers state.matchers } := by
  intro h
  rw [IndexerEngine.restoreState] at h
  split at h
  case h_1 error hcheck =>
    cases h
    exact .inl ⟨⟨_, hcheck⟩, rfl⟩
  case h_2 hcheck =>
    have hvalid := (IndexerEngine.checkState_ok hcheck).2.1
    cases hnext : Indexer.nextMatcherId (IndexerEngine.collectMatchers state.matchers) with
    | error error =>
      have hkeys := (nextMatcherId_error_iff _).mp ⟨error, hnext⟩
      dsimp only at h
      rw [hnext] at h
      cases h
      exact .inr ⟨hcheck, (keys_collectMatchers hvalid).mp hkeys, rfl⟩
    | ok id =>
      dsimp only at h
      rw [hnext] at h
      cases h

/-- A restore that leaves no id for a next matcher does fail. -/
theorem restoreState_exhausted {state : PersistedIndexerState}
    (hcheck : IndexerEngine.checkState engine.config state = .ok ())
    (hmax : u64Max ∈ state.matchers.map Matcher.id) :
    ∃ text, engine.restoreState state = (.error text, { engine with
      store := MemoryStore.restore engine.config state.snapshot
      matchers := IndexerEngine.collectMatchers state.matchers }) := by
  have hvalid := (IndexerEngine.checkState_ok hcheck).2.1
  obtain ⟨text, htext⟩ := (nextMatcherId_error_iff _).mpr ((keys_collectMatchers hvalid).mpr hmax)
  refine ⟨text, ?_⟩
  rw [IndexerEngine.restoreState, hcheck]
  dsimp only
  rw [htext]

theorem unchanged_replaced_iff (engine : IndexerEngine) (state : PersistedIndexerState) :
    UnchangedByError engine { engine with
      store := MemoryStore.restore engine.config state.snapshot
      matchers := IndexerEngine.collectMatchers state.matchers } ↔ AlreadyHolds engine state := by
  constructor
  · intro h
    exact ⟨h.store.symm, h.matchers.symm⟩
  · intro h
    exact ⟨h.1.symm, h.2.symm, rfl, rfl, rfl, rfl, ⟨engine.metrics.rejectedRecords, rfl⟩⟩

/-- Calls other than a restore of a saved state fail unchanged. -/
theorem failing_call_unchanged {call : ApiCall} (hcall : ∀ state, call ≠ .restoreState state)
    (h : call.run engine = (.error error, after)) : UnchangedByError engine after := by
  cases call with
  | start nowMs =>
    cases nowMs with
    | error text =>
      cases h
      exact unchanged_refl engine
    | ok now => exact withEngine_unchanged (succeed_failsUnchanged _) h
  | stop => exact withEngine_unchanged (succeed_failsUnchanged _) h
  | addMatcher rule => exact withEngine_unchanged (addMatcher_failsUnchanged rule) (forget_error h)
  | removeMatcher id => exact withEngine_unchanged (succeed_failsUnchanged _) h
  | ingestTransaction tx =>
    exact withEngine_unchanged (ingestTransaction_failsUnchanged tx) (forget_error h)
  | ingestBlock block => exact withEngine_unchanged (ingestBlock_failsUnchanged block) h
  | ingestBlockBatch batch =>
    rw [withAtomic_error (forget_error h)]
    exact unchanged_refl engine
  | read nowMs => exact withFresh_unchanged nowMs _ h
  | drainEvents nowMs => exact withFresh_unchanged nowMs _ h
  | restoreSnapshot snapshot =>
    exact withEngine_unchanged (restoreSnapshot_failsUnchanged snapshot) h
  | setCheckpoint checkpoint =>
    exact withEngine_unchanged (setCheckpoint_failsUnchanged checkpoint) h
  | restoreState state => exact absurd rfl (hcall state)
  | applySyncBatches batches checkpoint =>
    rw [withAtomic_error (forget_error h)]
    exact unchanged_refl engine
  | reconcileVirtualChain delta =>
    rw [withAtomic_error (forget_error h)]
    exact unchanged_refl engine
  | clear => exact withEngine_unchanged (succeed_failsUnchanged _) h

theorem failing_restoreState_unchanged_iff (engine : IndexerEngine)
    (state : PersistedIndexerState) :
    (∀ error after, (ApiCall.restoreState state).run engine = (.error error, after) →
      UnchangedByError engine after) ↔
    (IndexerEngine.checkState engine.config state = .ok () →
      u64Max ∈ state.matchers.map Matcher.id → AlreadyHolds engine state) := by
  constructor
  · intro h hcheck hmax
    obtain ⟨text, htext⟩ := restoreState_exhausted hcheck hmax
    rw [← unchanged_replaced_iff]
    apply h (.indexer text)
    show withEngine (fun engine => engine.restoreState state) engine = _
    rw [withEngine, htext]
    rfl
  · intro h error after herror
    have herror : withEngine (fun engine => engine.restoreState state) engine =
      (.error error, after) := herror
    obtain ⟨text, htext⟩ := withEngine_error herror
    rcases restoreState_error state text htext with ⟨-, rfl⟩ | ⟨hcheck, hmax, rfl⟩
    · exact unchanged_refl after
    · exact (unchanged_replaced_iff engine state).mpr (h hcheck hmax)

end ErrorAtomicity

open ErrorAtomicity

/-- In any state, a call that fails leaves it unchanged just when it does not restore a state
that passes its checks and holds a matcher with the largest id, or when the records and the
matchers of that state are in place already. -/
theorem failing_call_unchanged_iff (engine : IndexerEngine) (call : ApiCall) :
    (∀ error after, call.run engine = (.error error, after) → UnchangedByError engine after) ↔
      ∀ state, ExhaustsIds engine call state → AlreadyHolds engine state := by
  by_cases hcall : ∃ state, call = .restoreState state
  · obtain ⟨state, rfl⟩ := hcall
    rw [failing_restoreState_unchanged_iff]
    constructor
    · intro h other hother
      obtain ⟨heq, hcheck, hmax⟩ := hother
      cases heq
      exact h hcheck hmax
    · intro h hcheck hmax
      exact h state ⟨rfl, hcheck, hmax⟩
  · refine iff_of_true (fun error after h => ?_) fun state hstate => absurd ⟨state, hstate.1⟩ hcall
    exact failing_call_unchanged (fun state heq => hcall ⟨state, heq⟩) h

/-- A saved state without records whose one matcher has the largest id. -/
def lastIdState : PersistedIndexerState :=
  PersistedIndexerState.new { transactions := [], blocks := [], «matches» := [] }
    SyncCheckpoint.default [{ id := u64Max, rule := .address "x" }]

/-- Restored into a new engine, it fails and leaves its matcher behind. -/
theorem failed_restore_keeps_matchers :
    ∃ after, (ApiCall.restoreState lastIdState).run (.initial .smallest) =
        (.error (.indexer "matcher id exhausted"), after) ∧
      after.matchers.keys = [u64Max] ∧ ¬ UnchangedByError (.initial .smallest) after := by
  refine ⟨_, rfl, by decide, fun h => ?_⟩
  exact absurd h.matchers.length_eq (by decide)

end KaspaPortal.Guarantees
