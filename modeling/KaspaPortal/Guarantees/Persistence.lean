import KaspaPortal.Indexer.Invariant

/-!
# Saving an engine and restoring it

A restore into a new engine brings back the records in their order, the checkpoint and
the matchers. It fails when the matchers leave no id for a next one, and it hands out
the id after the largest that is left, also when a removed matcher had it.

The text in which a state is stored is left out; a state is restored as it was saved.
-/
namespace KaspaPortal.Guarantees
open Lib Indexer

/-- A new engine takes over everything that was saved, and the next matcher it adds gets
an id that no retained match has from a matcher the saved engine added. -/
structure PersistsFully (config : IndexerConfig) (engine : IndexerEngine)
    (issued : List UInt64) : Prop where
  succeeds : ((IndexerEngine.initial config).restoreState engine.persistedState).1 = .ok ()
  snapshot : ((IndexerEngine.initial config).restoreState engine.persistedState).2.snapshot =
    engine.snapshot
  checkpoint : ((IndexerEngine.initial config).restoreState engine.persistedState).2.checkpoint =
    engine.checkpoint
  matchers :
    ((IndexerEngine.initial config).restoreState engine.persistedState).2.matchers.entries.Perm
      engine.matchers.entries
  persisted :
    ((IndexerEngine.initial config).restoreState engine.persistedState).2.persistedState =
      engine.persistedState
  fresh : ∀ rule id,
    (((IndexerEngine.initial config).restoreState engine.persistedState).2.addMatcher rule).1 =
      .ok id → ¬ (id ∈ issued ∧ ∃ item ∈ engine.store.matches, item.matcherId = id)

/-- The largest id of the matchers leaves a next one, which is not an id that was handed out
and that a retained match has, unless no matcher can be added at all. -/
def NextIdUnused (engine : IndexerEngine) (issued : List UInt64) : Prop :=
  largestMatcherId engine.matchers ≠ u64Max ∧
    ¬ (largestMatcherId engine.matchers + 1 ∈ issued ∧
      (∃ item ∈ engine.store.matches, item.matcherId = largestMatcherId engine.matchers + 1) ∧
      engine.matchers.entries.length < 4096 ∧ largestMatcherId engine.matchers + 1 ≠ u64Max)

namespace Persistence

variable {config : IndexerConfig} {engine : IndexerEngine}

instance idLe_total : Std.Total Matcher.idLe where
  total a b := by
    rcases Nat.le_total a.id.toNat b.id.toNat with h | h
    · exact .inl (UInt64.le_iff_toNat_le.mpr h)
    · exact .inr (UInt64.le_iff_toNat_le.mpr h)

instance idLe_trans : IsTrans Matcher Matcher.idLe where
  trans a b c hab hbc :=
    UInt64.le_iff_toNat_le.mpr
      ((UInt64.le_iff_toNat_le.mp hab).trans (UInt64.le_iff_toNat_le.mp hbc))

/-- The largest of some numbers is one of them, and none is larger. -/
theorem foldl_max_spec (ids : List UInt64) (start : UInt64) :
    (ids.foldl max start = start ∨ ids.foldl max start ∈ ids) ∧
      start ≤ ids.foldl max start ∧ ∀ id ∈ ids, id ≤ ids.foldl max start := by
  induction ids generalizing start with
  | nil => exact ⟨.inl rfl, UInt64.le_refl _, fun _ h => absurd h List.not_mem_nil⟩
  | cons id ids ih =>
    obtain ⟨hmem, hstart, hall⟩ := ih (max start id)
    have hdef : max start id = if start ≤ id then id else start := rfl
    have hboth : start ≤ max start id ∧ id ≤ max start id := by
      rw [hdef]
      split
      case isTrue h => exact ⟨h, UInt64.le_refl _⟩
      case isFalse h => exact ⟨UInt64.le_refl _, UInt64.le_of_lt (UInt64.not_le.mp h)⟩
    have heither : max start id = start ∨ max start id = id := by
      rw [hdef]
      split
      case isTrue => exact .inr rfl
      case isFalse => exact .inl rfl
    rw [List.foldl_cons, List.forall_mem_cons, List.mem_cons]
    refine ⟨?_, UInt64.le_trans hboth.1 hstart, UInt64.le_trans hboth.2 hstart, hall⟩
    rcases hmem with heq | hmem
    · rw [heq]
      exact heither.imp (fun h => h) .inl
    · exact .inr (.inr hmem)

theorem largestMatcherId_perm {a b : AList fun _ : UInt64 => Matcher}
    (h : a.entries.Perm b.entries) : largestMatcherId a = largestMatcherId b := by
  have hkeys : ∀ id, id ∈ a.keys ↔ id ∈ b.keys := fun id => (h.map Sigma.fst).mem_iff
  obtain ⟨hamem, hazero, hale⟩ := foldl_max_spec a.keys 0
  obtain ⟨hbmem, hbzero, hble⟩ := foldl_max_spec b.keys 0
  rw [largestMatcherId, largestMatcherId]
  apply UInt64.le_antisymm
  · rcases hamem with heq | hmem
    · rw [heq]
      exact hbzero
    · exact hble _ ((hkeys _).mp hmem)
  · rcases hbmem with heq | hmem
    · rw [heq]
      exact hazero
    · exact hale _ ((hkeys _).mpr hmem)

/-! ## The saved matchers -/

theorem validateMatchersFrom_of {seen : List UInt64} {items : List Matcher}
    (hvalid : ∀ matcher ∈ items, matcher.id ≠ 0 ∧ matcher.rule.validate = .ok () ∧
      matcher.id ∉ seen) (hnodup : (items.map Matcher.id).Nodup) :
    validateMatchersFrom seen items = .ok () := by
  induction items generalizing seen with
  | nil => rfl
  | cons matcher items ih =>
    rw [List.forall_mem_cons] at hvalid
    rw [List.map_cons, List.nodup_cons] at hnodup
    obtain ⟨⟨hzero, hrule, hseen⟩, hrest⟩ := hvalid
    rw [validateMatchersFrom, hrule]
    dsimp only
    rw [if_neg (not_or.mpr ⟨hzero, hseen⟩)]
    refine ih (fun other hother => ?_) hnodup.2
    obtain ⟨hzero', hrule', hseen'⟩ := hrest other hother
    refine ⟨hzero', hrule', ?_⟩
    rw [List.mem_cons, not_or]
    exact ⟨fun heq => hnodup.1 (heq ▸ List.mem_map_of_mem hother), hseen'⟩

theorem map_id_matcherList (h : engine.Sound config) :
    engine.matcherList.map Matcher.id = engine.matchers.keys := by
  rw [IndexerEngine.matcherList, List.map_map]
  exact List.map_congr_left h.matchers.keyed

theorem sorted_perm (engine : IndexerEngine) :
    (engine.matcherList.insertionSort Matcher.idLe).Perm engine.matcherList :=
  List.perm_insertionSort _ _

theorem sorted_nodup (h : engine.Sound config) :
    ((engine.matcherList.insertionSort Matcher.idLe).map Matcher.id).Nodup := by
  rw [((sorted_perm engine).map Matcher.id).nodup_iff, map_id_matcherList h]
  exact engine.matchers.keys_nodup

theorem validateMatchers_sorted (h : engine.Sound config) :
    validateMatchers (engine.matcherList.insertionSort Matcher.idLe) = .ok () := by
  have hlen : (engine.matcherList.insertionSort Matcher.idLe).length ≤ 4096 := by
    rw [List.length_insertionSort, IndexerEngine.matcherList, List.length_map]
    exact h.matchers.length_le
  rw [validateMatchers, if_neg (Nat.not_lt_of_le hlen)]
  refine validateMatchersFrom_of (fun matcher hmatcher => ?_) (sorted_nodup h)
  rw [(sorted_perm engine).mem_iff, IndexerEngine.matcherList, List.mem_map] at hmatcher
  obtain ⟨entry, hentry, rfl⟩ := hmatcher
  refine ⟨?_, h.matchers.rules_valid entry hentry, List.not_mem_nil⟩
  rw [h.matchers.keyed entry hentry]
  exact h.matchers.nonzero entry hentry

/-- The matchers collected from what was saved are those of the saved engine. -/
theorem collect_sorted_perm (h : engine.Sound config) :
    (IndexerEngine.collectMatchers
      (engine.matcherList.insertionSort Matcher.idLe)).entries.Perm engine.matchers.entries := by
  rw [MatchersChecked.collectMatchers_entries (sorted_nodup h)]
  refine (List.reverse_perm _).trans (((sorted_perm engine).map _).trans ?_)
  rw [IndexerEngine.matcherList, List.map_map]
  have hself : engine.matchers.entries.map
      ((fun matcher => (⟨matcher.id, matcher⟩ : Sigma fun _ : UInt64 => Matcher)) ∘ Sigma.snd) =
        engine.matchers.entries := by
    conv_rhs => rw [← List.map_id engine.matchers.entries]
    apply List.map_congr_left
    intro entry hentry
    have hkey := h.matchers.keyed entry hentry
    obtain ⟨id, matcher⟩ := entry
    exact congrArg (fun id => (⟨id, matcher⟩ : Sigma fun _ : UInt64 => Matcher)) hkey
  exact .of_eq hself

/-- Tables of the same matchers are saved alike. -/
theorem sorted_eq_of_perm {other : IndexerEngine} (h : engine.Sound config)
    (hperm : other.matchers.entries.Perm engine.matchers.entries) :
    other.matcherList.insertionSort Matcher.idLe = engine.matcherList.insertionSort Matcher.idLe := by
  have hlists : other.matcherList.Perm engine.matcherList := by
    rw [IndexerEngine.matcherList, IndexerEngine.matcherList]
    exact hperm.map Sigma.snd
  have hids : (engine.matcherList.map Matcher.id).Nodup :=
    map_id_matcherList h ▸ engine.matchers.keys_nodup
  refine List.Perm.eq_of_pairwise ?_ (List.pairwise_insertionSort Matcher.idLe _)
    (List.pairwise_insertionSort Matcher.idLe _)
    ((sorted_perm other).trans (hlists.trans (sorted_perm engine).symm))
  intro a b ha hb hab hba
  rw [List.mem_insertionSort] at ha hb
  exact List.inj_on_of_nodup_map hids (hlists.subset ha) hb (UInt64.le_antisymm hab hba)

/-! ## The restored engine -/

theorem validateSnapshot_own (h : engine.Sound config) :
    validateSnapshot config engine.snapshot = .ok () := by
  have htxs : engine.snapshot.transactions.forM (validateTransaction config) = .ok () :=
    forM_eq_ok.mpr h.store.transactions_valid
  have hblocks : engine.snapshot.blocks.any (fun block => blank block.hash) = false := by
    rw [List.any_eq_false]
    intro block hblock
    rw [h.store.blocks_valid block hblock]
    exact Bool.false_ne_true
  rw [validateSnapshot, htxs]
  dsimp only
  rw [hblocks]
  rfl

theorem checkState_own (h : engine.Sound config) :
    IndexerEngine.checkState config engine.persistedState = .ok () := by
  have hcheckpoint : engine.persistedState.checkpoint.validate = .ok () := h.checkpoint_valid
  have hmatchers : validateMatchers engine.persistedState.matchers = .ok () :=
    validateMatchers_sorted h
  have hsnapshot : validateSnapshot config engine.persistedState.snapshot = .ok () :=
    validateSnapshot_own h
  have hschema : engine.persistedState.validateSchema = .ok () := if_pos rfl
  rw [IndexerEngine.checkState, hschema]
  dsimp only
  rw [hcheckpoint]
  dsimp only
  rw [hmatchers]
  exact hsnapshot

/-- The id after the largest of the restored matchers. -/
theorem nextMatcherId_collected (h : engine.Sound config) :
    nextMatcherId (IndexerEngine.collectMatchers engine.persistedState.matchers) =
      if largestMatcherId engine.matchers = u64Max then .error "matcher id exhausted"
      else .ok (largestMatcherId engine.matchers + 1) := by
  have hlargest := largestMatcherId_perm (collect_sorted_perm h)
  have hsaved : engine.persistedState.matchers = engine.matcherList.insertionSort Matcher.idLe := rfl
  rw [hsaved, nextMatcherId, hlargest, checkedSucc]
  by_cases hmax : largestMatcherId engine.matchers = u64Max
  · rw [if_pos hmax, if_pos hmax]
  · rw [if_neg hmax, if_neg hmax]

/-- What a new engine holds after the restore. -/
theorem restoreState_own (h : engine.Sound config)
    (hmax : largestMatcherId engine.matchers ≠ u64Max) :
    ∃ restored,
      (IndexerEngine.initial config).restoreState engine.persistedState = (.ok (), restored) ∧
      restored.store = MemoryStore.restore config engine.snapshot ∧
      restored.checkpoint = engine.checkpoint ∧
      restored.matchers = IndexerEngine.collectMatchers engine.persistedState.matchers ∧
      restored.nextMatcherId = largestMatcherId engine.matchers + 1 := by
  have hcheck : IndexerEngine.checkState (IndexerEngine.initial config).config
      engine.persistedState = .ok () := checkState_own h
  have hnext := nextMatcherId_collected h
  rw [if_neg hmax] at hnext
  rw [IndexerEngine.restoreState, hcheck]
  dsimp only
  rw [hnext]
  exact ⟨_, rfl, rfl, rfl, rfl, rfl⟩

theorem restoreState_own_fails (h : engine.Sound config)
    (hmax : largestMatcherId engine.matchers = u64Max) :
    ((IndexerEngine.initial config).restoreState engine.persistedState).1 ≠ .ok () := by
  have hcheck : IndexerEngine.checkState (IndexerEngine.initial config).config
      engine.persistedState = .ok () := checkState_own h
  have hnext := nextMatcherId_collected h
  rw [if_pos hmax] at hnext
  rw [IndexerEngine.restoreState, hcheck]
  dsimp only
  rw [hnext]
  intro hok
  cases hok

/-- The id a matcher gets, and when it gets one. -/
theorem addMatcher_ok_iff (rule : MatchRule) (id : UInt64) :
    (engine.addMatcher rule).1 = .ok id ↔ rule.validate = .ok () ∧
      engine.matchers.entries.length < 4096 ∧ engine.nextMatcherId ≠ u64Max ∧
      engine.nextMatcherId = id := by
  rw [IndexerEngine.addMatcher]
  cases hrule : rule.validate with
  | error error =>
    refine iff_of_false (fun h => by cases h) fun h => ?_
    cases h.1
  | ok u =>
    dsimp only
    by_cases hlen : engine.matchers.entries.length ≥ 4096
    · rw [if_pos hlen]
      exact iff_of_false (fun h => by cases h) fun h => absurd h.2.1 (Nat.not_lt_of_le hlen)
    · rw [if_neg hlen, checkedSucc]
      by_cases hmax : engine.nextMatcherId = u64Max
      · rw [if_pos hmax]
        exact iff_of_false (fun h => by cases h) fun h => h.2.2.1 hmax
      · rw [if_neg hmax]
        constructor
        · intro h
          cases h
          exact ⟨rfl, Nat.lt_of_not_le hlen, hmax, rfl⟩
        · intro h
          rw [← h.2.2.2]

end Persistence

open Persistence

/-- At every reachable engine, saving and restoring is faithful, and the next id is unused,
just when the largest id of its matchers leaves such an id. -/
theorem persists_fully_iff {config : IndexerConfig} {engine : IndexerEngine}
    {issued : List UInt64} (h : Reachable config engine issued) :
    PersistsFully config engine issued ↔ NextIdUnused engine issued := by
  have hsound := h.sound
  constructor
  · intro hfull
    have hmax : largestMatcherId engine.matchers ≠ u64Max := fun heq =>
      restoreState_own_fails hsound heq hfull.succeeds
    obtain ⟨restored, hrestored, -, -, -, hnext⟩ := restoreState_own hsound hmax
    refine ⟨hmax, fun hused => ?_⟩
    obtain ⟨hissued, hmatched, hlen, hlast⟩ := hused
    refine hfull.fresh (.address "x") (largestMatcherId engine.matchers + 1) ?_
      ⟨hissued, hmatched⟩
    rw [addMatcher_ok_iff]
    have hperm := hfull.matchers
    rw [hrestored] at hperm ⊢
    exact ⟨rfl, hperm.length_eq.trans_lt hlen, hnext ▸ hlast, hnext⟩
  · intro hunused
    obtain ⟨hmax, hunused⟩ := hunused
    obtain ⟨restored, hrestored, hstore, hcheckpoint, hmatchers, hnext⟩ :=
      restoreState_own hsound hmax
    have hperm : restored.matchers.entries.Perm engine.matchers.entries :=
      hmatchers ▸ collect_sorted_perm hsound
    have hsnapshot : restored.snapshot = engine.snapshot := by
      have hconfig := hsound.store.config_eq
      rw [IndexerEngine.snapshot, hstore, IndexerEngine.snapshot]
      conv_lhs => rw [← hconfig]
      exact MemoryStore.restore_snapshot hsound.store.sound
    constructor
    · rw [hrestored]
    · rw [hrestored]
      exact hsnapshot
    · rw [hrestored]
      exact hcheckpoint
    · rw [hrestored]
      exact hperm
    · rw [hrestored]
      rw [IndexerEngine.persistedState, IndexerEngine.persistedState, hsnapshot, hcheckpoint,
        sorted_eq_of_perm hsound hperm]
    · intro rule id hadd hused
      rw [hrestored, addMatcher_ok_iff] at hadd
      obtain ⟨-, hlen, hlast, hid⟩ := hadd
      rw [hnext] at hlast hid
      rw [← hid] at hused
      exact hunused ⟨hused.1, hused.2, hperm.length_eq.symm.trans_lt hlen, hlast⟩

namespace Persistence

def found : IndexedTransaction where
  txid := "a"
  blockHash := none
  daaScore := none
  observedAtMs := 0
  addresses := ["x"]
  payload := []

/-- Two matchers, of which the first to be removed has the smaller id, and records of each kind. -/
def keptMatcher : List EngineOp :=
  [.addMatcher (.address "x"), .addMatcher (.address "y"), .ingestTransaction found,
    .ingestBlock { hash := "h", daaScore := some 7, observedAtMs := 0, txids := ["a"] },
    .setCheckpoint { virtualDaaScore := some 7, blockHash := some "h" }, .removeMatcher 1]

end Persistence

/-- The id that was removed with a match left behind is below that of the other matcher. -/
theorem persists_fully_kept_matcher :
    (runAll keptMatcher (.initial .smallest)).store.counts = (1, 1, 1) ∧
      issuedBy keptMatcher (.initial .smallest) = [1, 2] ∧
      PersistsFully .smallest (runAll keptMatcher (.initial .smallest)) [1, 2] := by
  have hreachable := (Run.new (rfl : IndexerEngine.new .smallest = .ok _)).reaches keptMatcher
  exact ⟨by decide, by decide, (persists_fully_iff hreachable).mpr ⟨by decide, by decide⟩⟩

namespace Persistence

/-- A matcher that found a transaction is removed. -/
def removedMatcher : List EngineOp :=
  [.addMatcher (.address "x"), .ingestTransaction found, .removeMatcher 1]

end Persistence

/-- Its id is handed out again after a restore, while its match is retained. -/
theorem removed_id_reissued :
    Reachable .smallest (runAll removedMatcher (.initial .smallest)) [1] ∧
      ¬ PersistsFully .smallest (runAll removedMatcher (.initial .smallest)) [1] := by
  refine ⟨.call (.call (.call (.new rfl) (.addMatcher (.address "x")) trivial)
    (.ingestTransaction found) trivial) (.removeMatcher 1) trivial, fun hfull => ?_⟩
  exact hfull.fresh (.address "x") 1 (by decide) ⟨by decide, by decide⟩

end KaspaPortal.Guarantees
