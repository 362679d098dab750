import KaspaPortal.Indexer.Replay
import KaspaPortal.Indexer.Runs
import KaspaPortal.Lib.Result

/-!
# What every call keeps

The parts of an engine that stay well formed whatever is called, failing calls included:
its store, its window, its matchers and its checkpoint.

What is kept is shape. Which records are there after a call is said by the retention of
the store.
-/
namespace KaspaPortal.Indexer
open Lib

/-! ## The store -/

/-- A sound store of checked records. -/
structure MemoryStore.Checked (config : IndexerConfig) (store : MemoryStore) : Prop where
  sound : store.Sound
  config_eq : store.config = config
  transactions_valid : ∀ tx ∈ store.allTransactions, validateTransaction config tx = .ok ()
  blocks_valid : ∀ block ∈ store.allBlocks, blank block.hash = false

namespace MemoryStore.Checked

variable {config : IndexerConfig} {store : MemoryStore}

/-- An empty store is checked. -/
theorem new (config : IndexerConfig) : Checked config (MemoryStore.new config) where
  sound := new_sound config
  config_eq := rfl
  transactions_valid _ h := absurd h List.not_mem_nil
  blocks_valid _ h := absurd h List.not_mem_nil

/-- A transaction is checked before it is stored. -/
theorem insertTransaction (h : store.Checked config) {value : IndexedTransaction}
    (hv : validateTransaction config value = .ok ()) :
    (store.insertTransaction value).2.Checked config where
  sound := h.sound.insertTransaction value
  config_eq := (insertTransaction_frame h.sound value).1.trans h.config_eq
  transactions_valid tx htx := by
    rcases mem_insertTransaction h.sound htx with hold | rfl
    · exact h.transactions_valid tx hold
    · exact hv
  blocks_valid block hblock := by
    obtain ⟨-, hblocks, horder⟩ := insertTransaction_frame h.sound value
    apply h.blocks_valid block
    rw [allBlocks, ← hblocks, ← horder]
    exact hblock

/-- A block needs a hash; nothing else of it is checked. -/
theorem insertBlock (h : store.Checked config) {value : IndexedBlock}
    (hv : blank value.hash = false) : (store.insertBlock value).2.Checked config where
  sound := h.sound.insertBlock value
  config_eq := (insertBlock_frame h.sound value).1.trans h.config_eq
  transactions_valid tx htx := by
    obtain ⟨-, htxs, horder, -⟩ := insertBlock_frame h.sound value
    apply h.transactions_valid tx
    rw [allTransactions, ← htxs, ← horder]
    exact htx
  blocks_valid block hblock := by
    rcases mem_insertBlock h.sound hblock with hold | rfl
    · exact h.blocks_valid block hold
    · exact hv

theorem insertMatch (h : store.Checked config) (value : IndexedMatch) :
    (store.insertMatch value).Checked config := by
  have hsound := h.sound.insertMatch value
  obtain ⟨evictions, heq⟩ := insertMatch_eq store value
  rw [heq] at hsound ⊢
  exact ⟨hsound, h.config_eq, h.transactions_valid, h.blocks_valid⟩

/-- Purging only removes records. -/
theorem purgeExpired (h : store.Checked config) (nowMs : UInt64) :
    (store.purgeExpired nowMs).2.Checked config := by
  have hsound := h.sound.purgeExpired nowMs
  obtain ⟨expired, kept, hsplit, heq⟩ := purgeExpired_spec h.sound nowMs
  have hrecords := (Indexes.discard expired kept (hsplit ▸ h.sound.transactions)).2
  rw [heq] at hsound ⊢
  refine ⟨hsound, h.config_eq, fun tx htx => h.transactions_valid tx ?_, h.blocks_valid⟩
  rw [allTransactions, hrecords] at htx
  rw [allTransactions, hsplit]
  exact List.mem_of_mem_drop htx

/-- So does the removal of orphaned blocks. -/
theorem removeChainBlocks (h : store.Checked config) (removed : List String) :
    (store.removeChainBlocks removed).2.Checked config := by
  obtain ⟨hsound, htxs, hblocks, -, hconfig⟩ := removeChainBlocks_spec h.sound removed
  refine ⟨hsound, hconfig.trans h.config_eq, fun tx htx => ?_, fun block hblock => ?_⟩
  · rw [htxs] at htx
    exact h.transactions_valid tx (List.mem_of_mem_filter htx)
  · rw [hblocks] at hblock
    exact h.blocks_valid block (List.mem_of_mem_filter hblock)

theorem takeEvictions (h : store.Checked config) : store.takeEvictions.2.Checked config :=
  ⟨⟨h.sound.transactions, h.sound.blocks, h.sound.transactions_le, h.sound.blocks_le,
    h.sound.matches_le⟩, h.config_eq, h.transactions_valid, h.blocks_valid⟩

theorem validateSnapshot_ok {snapshot : IndexerSnapshot}
    (h : validateSnapshot config snapshot = .ok ()) :
    (∀ tx ∈ snapshot.transactions, validateTransaction config tx = .ok ()) ∧
      ∀ block ∈ snapshot.blocks, blank block.hash = false := by
  rw [validateSnapshot] at h
  cases hforM : snapshot.transactions.forM (validateTransaction config) with
  | error error =>
    rw [hforM] at h
    cases h
  | ok u =>
    rw [hforM] at h
    refine ⟨forM_eq_ok.mp hforM, ?_⟩
    by_cases hany : snapshot.blocks.any (fun block => blank block.hash) = true
    · rw [if_pos hany] at h
      cases h
    · simpa using hany

/-- A restored store holds the snapshot's records, which have been checked as a whole. -/
theorem restore {snapshot : IndexerSnapshot} (h : validateSnapshot config snapshot = .ok ()) :
    (MemoryStore.restore config snapshot).Checked config := by
  obtain ⟨hsound, hconfig, -, -⟩ := restore_spec config snapshot
  obtain ⟨htxs, hblocks⟩ := mem_restore config snapshot
  obtain ⟨hvalid, hblank⟩ := validateSnapshot_ok h
  exact ⟨hsound, hconfig, fun tx htx => hvalid tx (htxs tx htx),
    fun block hblock => hblank block (hblocks block hblock)⟩

end MemoryStore.Checked

/-! ## The table of matchers -/

/-- Checked matchers under their own ids, which are not zero. -/
structure MatchersChecked (matchers : AList fun _ : UInt64 => Matcher) : Prop where
  keyed : ∀ entry ∈ matchers.entries, entry.2.id = entry.1
  nonzero : ∀ entry ∈ matchers.entries, entry.1 ≠ 0
  rules_valid : ∀ entry ∈ matchers.entries, entry.2.rule.validate = .ok ()
  length_le : matchers.entries.length ≤ 4096

namespace MatchersChecked

variable {matchers : AList fun _ : UInt64 => Matcher}

theorem empty : MatchersChecked ∅ :=
  ⟨fun _ h => absurd h List.not_mem_nil, fun _ h => absurd h List.not_mem_nil,
    fun _ h => absurd h List.not_mem_nil, Nat.zero_le _⟩

/-- An entry of the new table is the new matcher or was there before. -/
theorem mem_insert {matcher : Matcher} {entry : Sigma fun _ : UInt64 => Matcher}
    (h : entry ∈ (matchers.insert matcher.id matcher).entries) :
    entry = ⟨matcher.id, matcher⟩ ∨ entry ∈ matchers.entries := by
  rw [AList.entries_insert] at h
  exact (List.mem_cons.mp h).imp_right fun hmem => (List.kerase_sublist _ _).subset hmem

theorem length_insert_le (matcher : Matcher) :
    (matchers.insert matcher.id matcher).entries.length ≤ matchers.entries.length + 1 := by
  rw [AList.entries_insert, List.length_cons]
  exact Nat.succ_le_succ (List.kerase_sublist _ _).length_le

/-- A new matcher keeps the table checked while there is room for it. -/
theorem insert (h : MatchersChecked matchers) (matcher : Matcher) (hid : matcher.id ≠ 0)
    (hrule : matcher.rule.validate = .ok ()) (hlen : matchers.entries.length < 4096) :
    MatchersChecked (matchers.insert matcher.id matcher) where
  keyed entry hentry := by
    rcases mem_insert hentry with rfl | hold
    · rfl
    · exact h.keyed entry hold
  nonzero entry hentry := by
    rcases mem_insert hentry with rfl | hold
    · exact hid
    · exact h.nonzero entry hold
  rules_valid entry hentry := by
    rcases mem_insert hentry with rfl | hold
    · exact hrule
    · exact h.rules_valid entry hold
  length_le := (length_insert_le matcher).trans hlen

theorem erase (h : MatchersChecked matchers) (id : UInt64) :
    MatchersChecked (matchers.erase id) := by
  have hsublist : (matchers.erase id).entries.Sublist matchers.entries := List.kerase_sublist _ _
  exact ⟨fun entry hentry => h.keyed entry (hsublist.subset hentry),
    fun entry hentry => h.nonzero entry (hsublist.subset hentry),
    fun entry hentry => h.rules_valid entry (hsublist.subset hentry),
    hsublist.length_le.trans h.length_le⟩

/-- The order of the table does not matter. -/
theorem perm {other : AList fun _ : UInt64 => Matcher} (h : MatchersChecked matchers)
    (hperm : other.entries.Perm matchers.entries) : MatchersChecked other :=
  ⟨fun entry hentry => h.keyed entry (hperm.subset hentry),
    fun entry hentry => h.nonzero entry (hperm.subset hentry),
    fun entry hentry => h.rules_valid entry (hperm.subset hentry),
    hperm.length_eq.trans_le h.length_le⟩

/-- What the check of a list of matchers establishes. -/
theorem validateMatchersFrom_ok {seen : List UInt64} {items : List Matcher}
    (h : validateMatchersFrom seen items = .ok ()) :
    (∀ matcher ∈ items, matcher.id ≠ 0 ∧ matcher.rule.validate = .ok () ∧ matcher.id ∉ seen) ∧
      (items.map Matcher.id).Nodup := by
  induction items generalizing seen with
  | nil => exact ⟨fun _ hmem => absurd hmem List.not_mem_nil, List.nodup_nil⟩
  | cons matcher items ih =>
    rw [validateMatchersFrom] at h
    split at h
    case h_1 => cases h
    case h_2 hrule =>
      split at h
      case isTrue => cases h
      case isFalse hid =>
        rw [not_or] at hid
        obtain ⟨hrest, hnodup⟩ := ih h
        refine ⟨?_, ?_⟩
        · rw [List.forall_mem_cons]
          refine ⟨⟨hid.1, hrule, hid.2⟩, fun other hother => ?_⟩
          obtain ⟨hzero, hvalid, hnew⟩ := hrest other hother
          exact ⟨hzero, hvalid, fun hmem => hnew (List.mem_cons_of_mem _ hmem)⟩
        · rw [List.map_cons, List.nodup_cons]
          refine ⟨fun hmem => ?_, hnodup⟩
          obtain ⟨other, hother, heq⟩ := List.mem_map.mp hmem
          exact (hrest other hother).2.2 (heq ▸ List.mem_cons_self)

theorem validateMatchers_ok {items : List Matcher} (h : validateMatchers items = .ok ()) :
    items.length ≤ 4096 ∧
      (∀ matcher ∈ items, matcher.id ≠ 0 ∧ matcher.rule.validate = .ok ()) ∧
      (items.map Matcher.id).Nodup := by
  rw [validateMatchers] at h
  split at h
  case isTrue => cases h
  case isFalse hlen =>
    obtain ⟨hvalid, hnodup⟩ := validateMatchersFrom_ok h
    exact ⟨Nat.le_of_not_lt hlen,
      fun matcher hmem => ⟨(hvalid matcher hmem).1, (hvalid matcher hmem).2.1⟩, hnodup⟩

/-- Matchers with distinct ids all end up in the table, and the ones before them stay. -/
theorem foldl_insert_entries {items : List Matcher} (hnodup : (items.map Matcher.id).Nodup)
    (hnew : ∀ matcher ∈ items, matcher.id ∉ matchers) :
    (items.foldl (fun table matcher => table.insert matcher.id matcher) matchers).entries =
      (items.map fun matcher => ⟨matcher.id, matcher⟩).reverse ++ matchers.entries := by
  induction items generalizing matchers with
  | nil => rfl
  | cons matcher items ih =>
    rw [List.map_cons, List.nodup_cons] at hnodup
    have hfresh := hnew matcher List.mem_cons_self
    rw [List.foldl_cons, ih hnodup.2, AList.entries_insert_of_notMem hfresh, List.map_cons,
      List.reverse_cons, List.append_assoc]
    · rfl
    · intro other hother
      rw [AList.mem_insert, not_or]
      refine ⟨fun heq => ?_, hnew other (List.mem_cons_of_mem _ hother)⟩
      exact hnodup.1 (heq ▸ List.mem_map_of_mem hother)

/-- Matchers with distinct ids are collected each under its own. -/
theorem collectMatchers_entries {items : List Matcher} (hnodup : (items.map Matcher.id).Nodup) :
    (IndexerEngine.collectMatchers items).entries =
      (items.map fun matcher => ⟨matcher.id, matcher⟩).reverse := by
  rw [IndexerEngine.collectMatchers, foldl_insert_entries hnodup fun _ _ => AList.notMem_empty _,
    AList.empty_entries, List.append_nil]

/-- A restored table holds the checked matchers of the state. -/
theorem collect {items : List Matcher} (h : validateMatchers items = .ok ()) :
    MatchersChecked (IndexerEngine.collectMatchers items) := by
  obtain ⟨hlen, hvalid, hnodup⟩ := validateMatchers_ok h
  have hmem : ∀ entry ∈ (IndexerEngine.collectMatchers items).entries,
      ∃ matcher ∈ items, entry = ⟨matcher.id, matcher⟩ := by
    intro entry hentry
    rw [collectMatchers_entries hnodup, List.mem_reverse, List.mem_map] at hentry
    obtain ⟨matcher, hmatcher, heq⟩ := hentry
    exact ⟨matcher, hmatcher, heq.symm⟩
  refine ⟨fun entry hentry => ?_, fun entry hentry => ?_, fun entry hentry => ?_, ?_⟩
  · obtain ⟨matcher, -, rfl⟩ := hmem entry hentry
    rfl
  · obtain ⟨matcher, hmatcher, rfl⟩ := hmem entry hentry
    exact (hvalid matcher hmatcher).1
  · obtain ⟨matcher, hmatcher, rfl⟩ := hmem entry hentry
    exact (hvalid matcher hmatcher).2
  · rw [collectMatchers_entries hnodup, List.length_reverse, List.length_map]
    exact hlen

end MatchersChecked

/-! ## The engine -/

namespace IndexerEngine

/-- What holds of an engine between any two calls. -/
structure Sound (config : IndexerConfig) (engine : IndexerEngine) : Prop where
  bounded : config.Bounded
  config_eq : engine.config = config
  store : engine.store.Checked config
  recent : engine.recentTxids.Sound
  matchers : MatchersChecked engine.matchers
  next_nonzero : engine.nextMatcherId ≠ 0
  checkpoint_valid : engine.checkpoint.validate = .ok ()

variable {config : IndexerConfig} {engine : IndexerEngine}

/-- A new engine is sound. -/
theorem Sound.new (h : IndexerEngine.new config = .ok engine) : engine.Sound config := by
  rw [IndexerEngine.new] at h
  cases hvalid : config.validate with
  | error error =>
    rw [hvalid] at h
    cases h
  | ok u =>
    rw [hvalid] at h
    cases h
    exact ⟨IndexerConfig.bounded_of_validate hvalid, rfl, .new config, RecentKeys.new_sound _,
      .empty, (by decide : (1 : UInt64) ≠ 0), rfl⟩

/-- A change of the store and the window. -/
theorem Sound.update (h : engine.Sound config) {after : IndexerEngine}
    (hconfig : after.config = engine.config) (hstore : after.store.Checked config)
    (hrecent : after.recentTxids.Sound) (hmatchers : after.matchers = engine.matchers)
    (hnext : after.nextMatcherId = engine.nextMatcherId)
    (hcheckpoint : after.checkpoint = engine.checkpoint) : after.Sound config :=
  ⟨h.bounded, hconfig.trans h.config_eq, hstore, hrecent, hmatchers ▸ h.matchers,
    hnext ▸ h.next_nonzero, hcheckpoint ▸ h.checkpoint_valid⟩

theorem Sound.purgeExpired (h : engine.Sound config) (nowMs : UInt64) :
    (engine.purgeExpired nowMs).Sound config :=
  h.update rfl (h.store.purgeExpired nowMs) h.recent rfl rfl rfl

theorem Sound.recordSizeEvictions (h : engine.Sound config) :
    engine.recordSizeEvictions.Sound config :=
  h.update rfl h.store.takeEvictions h.recent rfl rfl rfl

/-- The store a transaction leaves, and what stays as it was. -/
theorem retainTransaction_effect (engine : IndexerEngine) (tx : IndexedTransaction)
    (isMatch : Bool) :
    (engine.retainTransaction tx isMatch).store =
        (if engine.config.mode.retainsTransaction isMatch then
          (engine.store.insertTransaction tx).2 else engine.store) ∧
      (engine.retainTransaction tx isMatch).config = engine.config ∧
      (engine.retainTransaction tx isMatch).recentTxids = engine.recentTxids ∧
      (engine.retainTransaction tx isMatch).matchers = engine.matchers ∧
      (engine.retainTransaction tx isMatch).nextMatcherId = engine.nextMatcherId ∧
      (engine.retainTransaction tx isMatch).checkpoint = engine.checkpoint := by
  rw [IndexerEngine.retainTransaction]
  split
  case isTrue hmode =>
    rw [hmode]
    exact ⟨rfl, rfl, rfl, rfl, rfl, rfl⟩
  case isFalse hmode =>
    rw [Bool.not_eq_false] at hmode
    rw [hmode, if_pos rfl]
    split
    case h_1 store heq => exact ⟨by rw [heq], rfl, rfl, rfl, rfl, rfl⟩
    case h_2 store heq => exact ⟨by rw [heq], rfl, rfl, rfl, rfl, rfl⟩

/-- What publishing a match does to the store and to the counters. -/
theorem publishMatch_effect (engine : IndexerEngine) (item : IndexedMatch) :
    (engine.publishMatch item).store =
        (if engine.config.mode.retainsMatches then engine.store.insertMatch item
          else engine.store) ∧
      (engine.publishMatch item).config = engine.config ∧
      (engine.publishMatch item).recentTxids = engine.recentTxids ∧
      (engine.publishMatch item).matchers = engine.matchers ∧
      (engine.publishMatch item).nextMatcherId = engine.nextMatcherId ∧
      (engine.publishMatch item).checkpoint = engine.checkpoint := by
  rw [IndexerEngine.publishMatch]
  split
  case isTrue => exact ⟨rfl, rfl, rfl, rfl, rfl, rfl⟩
  case isFalse => exact ⟨rfl, rfl, rfl, rfl, rfl, rfl⟩

/-- The store that publishing matches leaves, and what stays as it was. -/
theorem publishMatches_effect (engine : IndexerEngine) (items : List IndexedMatch) :
    (engine.publishMatches items).store =
        (if engine.config.mode.retainsMatches then
          items.foldl MemoryStore.insertMatch engine.store else engine.store) ∧
      (engine.publishMatches items).config = engine.config ∧
      (engine.publishMatches items).recentTxids = engine.recentTxids ∧
      (engine.publishMatches items).matchers = engine.matchers ∧
      (engine.publishMatches items).nextMatcherId = engine.nextMatcherId ∧
      (engine.publishMatches items).checkpoint = engine.checkpoint := by
  induction items generalizing engine with
  | nil =>
    refine ⟨?_, rfl, rfl, rfl, rfl, rfl⟩
    rw [List.foldl_nil, ite_self]
    rfl
  | cons item items ih =>
    obtain ⟨hstore, hconfig, hrecent, hmatchers, hnext, hcheckpoint⟩ := ih (engine.publishMatch item)
    obtain ⟨hstore', hconfig', hrecent', hmatchers', hnext', hcheckpoint'⟩ :=
      publishMatch_effect engine item
    refine ⟨hstore.trans ?_, hconfig.trans hconfig', hrecent.trans hrecent',
      hmatchers.trans hmatchers', hnext.trans hnext', hcheckpoint.trans hcheckpoint'⟩
    rw [hconfig', hstore']
    split
    case isTrue => rfl
    case isFalse => rfl

/-- What keeping a block does, in modes that keep blocks and in those that do not. -/
theorem retainBlock_effect (engine : IndexerEngine) (block : IndexedBlock) :
    (engine.retainBlock block).store =
        (if engine.config.mode.retainsBlocks then (engine.store.insertBlock block).2
          else engine.store) ∧
      (engine.retainBlock block).config = engine.config ∧
      (engine.retainBlock block).recentTxids = engine.recentTxids ∧
      (engine.retainBlock block).matchers = engine.matchers ∧
      (engine.retainBlock block).nextMatcherId = engine.nextMatcherId ∧
      (engine.retainBlock block).checkpoint = engine.checkpoint := by
  rw [IndexerEngine.retainBlock]
  split
  case isTrue hmode =>
    rw [hmode]
    exact ⟨rfl, rfl, rfl, rfl, rfl, rfl⟩
  case isFalse hmode =>
    rw [Bool.not_eq_false] at hmode
    rw [hmode, if_pos rfl]
    split
    case h_1 store heq => exact ⟨by rw [heq], rfl, rfl, rfl, rfl, rfl⟩
    case h_2 store heq => exact ⟨by rw [heq], rfl, rfl, rfl, rfl, rfl⟩

/-- The step of every delivery that stores something. -/
theorem Sound.retainTransaction (h : engine.Sound config) {tx : IndexedTransaction}
    (htx : validateTransaction config tx = .ok ()) (isMatch : Bool) :
    (engine.retainTransaction tx isMatch).Sound config := by
  obtain ⟨hstore, hconfig, hrecent, hmatchers, hnext, hcheckpoint⟩ :=
    retainTransaction_effect engine tx isMatch
  refine h.update hconfig ?_ (hrecent ▸ h.recent) hmatchers hnext hcheckpoint
  rw [hstore]
  split
  case isTrue => exact h.store.insertTransaction htx
  case isFalse => exact h.store

theorem Sound.retainBlock (h : engine.Sound config) {block : IndexedBlock}
    (hblank : blank block.hash = false) : (engine.retainBlock block).Sound config := by
  obtain ⟨hstore, hconfig, hrecent, hmatchers, hnext, hcheckpoint⟩ :=
    retainBlock_effect engine block
  refine h.update hconfig ?_ (hrecent ▸ h.recent) hmatchers hnext hcheckpoint
  rw [hstore]
  split
  case isTrue => exact h.store.insertBlock hblank
  case isFalse => exact h.store

theorem Sound.publishMatch (h : engine.Sound config) (item : IndexedMatch) :
    (engine.publishMatch item).Sound config := by
  obtain ⟨hstore, hconfig, hrecent, hmatchers, hnext, hcheckpoint⟩ :=
    publishMatch_effect engine item
  refine h.update hconfig ?_ (hrecent ▸ h.recent) hmatchers hnext hcheckpoint
  rw [hstore]
  split
  case isTrue => exact h.store.insertMatch item
  case isFalse => exact h.store

theorem Sound.publishMatches (h : engine.Sound config) (items : List IndexedMatch) :
    (engine.publishMatches items).Sound config := by
  induction items generalizing engine with
  | nil => exact h
  | cons item items ih => exact ih (h.publishMatch item)

/-- The engine after a transaction whose id the window did not hold. -/
def freshIngest (engine : IndexerEngine) (tx : IndexedTransaction) : IndexerEngine :=
  let begun := engine.beginTransaction tx
  let found := scan tx begun.matcherList
  (((begun.countFresh (begun.recentTxids.observe tx.txid).2 found).retainTransaction tx
    (!found.isEmpty)).publishMatches found).recordSizeEvictions

/-- A transaction is rejected, suppressed as a repetition, or taken in. -/
theorem ingestTransaction_cases (h : engine.Sound config) (tx : IndexedTransaction) :
    (∃ error, validateTransaction config tx = .error error ∧
      engine.ingestTransaction tx = (.error error, engine.countRejected)) ∨
    (validateTransaction config tx = .ok () ∧ tx.txid ∈ engine.recentTxids.order ∧
      engine.ingestTransaction tx =
        (.ok [], (engine.beginTransaction tx).countDuplicate engine.recentTxids)) ∨
    (validateTransaction config tx = .ok () ∧ tx.txid ∉ engine.recentTxids.order ∧
      engine.ingestTransaction tx = (.ok (scan tx engine.matcherList), engine.freshIngest tx)) := by
  rw [IndexerEngine.ingestTransaction, h.config_eq]
  cases hvalid : validateTransaction config tx with
  | error error => exact .inl ⟨error, rfl, rfl⟩
  | ok u =>
    right
    dsimp only
    have hobserve := (RecentKeys.observe_spec h.recent tx.txid).1
    by_cases hmem : tx.txid ∈ engine.recentTxids.order
    · left
      refine ⟨rfl, hmem, ?_⟩
      have hset := (h.recent.mem_iff _).mpr hmem
      have hsame : (engine.beginTransaction tx).recentTxids.observe tx.txid =
        (false, engine.recentTxids) := if_pos hset
      rw [hsame]
    · right
      refine ⟨rfl, hmem, ?_⟩
      have hnew : ((engine.beginTransaction tx).recentTxids.observe tx.txid) =
          (true, (engine.recentTxids.observe tx.txid).2) :=
        Prod.ext (hobserve.trans (decide_eq_true hmem)) rfl
      rw [freshIngest, hnew]
      rfl

/-- The store after a transaction was taken in: purged, with it, and with its matches. -/
def ingestedStore (engine : IndexerEngine) (tx : IndexedTransaction) : MemoryStore :=
  let purged := (engine.store.purgeExpired tx.observedAtMs).2
  let found := scan tx engine.matcherList
  let inserted :=
    if engine.config.mode.retainsTransaction (!found.isEmpty) then (purged.insertTransaction tx).2
    else purged
  if engine.config.mode.retainsMatches then found.foldl MemoryStore.insertMatch inserted
  else inserted

/-- What a first delivery does to the store, and that it leaves the configuration and the table
of matchers. -/
theorem freshIngest_effect (engine : IndexerEngine) (tx : IndexedTransaction) :
    (engine.freshIngest tx).store = (engine.ingestedStore tx).takeEvictions.2 ∧
      (engine.freshIngest tx).config = engine.config ∧
      (engine.freshIngest tx).recentTxids = (engine.recentTxids.observe tx.txid).2 ∧
      (engine.freshIngest tx).matchers = engine.matchers ∧
      (engine.freshIngest tx).nextMatcherId = engine.nextMatcherId ∧
      (engine.freshIngest tx).checkpoint = engine.checkpoint := by
  obtain ⟨hstore, hconfig, hrecent, hmatchers, hnext, hcheckpoint⟩ :=
    retainTransaction_effect ((engine.beginTransaction tx).countFresh
      ((engine.beginTransaction tx).recentTxids.observe tx.txid).2
      (scan tx (engine.beginTransaction tx).matcherList)) tx
      (!(scan tx (engine.beginTransaction tx).matcherList).isEmpty)
  obtain ⟨hstore', hconfig', hrecent', hmatchers', hnext', hcheckpoint'⟩ :=
    publishMatches_effect _ (scan tx (engine.beginTransaction tx).matcherList)
  refine ⟨?_, hconfig'.trans hconfig, hrecent'.trans hrecent, hmatchers'.trans hmatchers,
    hnext'.trans hnext, hcheckpoint'.trans hcheckpoint⟩
  refine (congrArg (fun store => store.takeEvictions.2) hstore').trans ?_
  rw [hconfig, hstore]
  rfl

theorem Sound.beginTransaction (h : engine.Sound config) (tx : IndexedTransaction) :
    (engine.beginTransaction tx).Sound config :=
  h.update rfl (h.store.purgeExpired _) h.recent rfl rfl rfl

theorem Sound.countFresh (h : engine.Sound config) (txid : String) (found : List IndexedMatch) :
    (engine.countFresh (engine.recentTxids.observe txid).2 found).Sound config :=
  h.update rfl h.store (RecentKeys.observe_spec h.recent txid).2.1 rfl rfl rfl

/-- A first delivery keeps the engine sound, whatever it matches. -/
theorem Sound.freshIngest (h : engine.Sound config) {tx : IndexedTransaction}
    (htx : validateTransaction config tx = .ok ()) : (engine.freshIngest tx).Sound config :=
  ((((h.beginTransaction tx).countFresh _ _).retainTransaction htx _).publishMatches
    _).recordSizeEvictions

theorem Sound.ingestTransaction (h : engine.Sound config) (tx : IndexedTransaction) :
    (engine.ingestTransaction tx).2.Sound config := by
  rcases ingestTransaction_cases h tx with ⟨error, -, heq⟩ | ⟨-, -, heq⟩ | ⟨hvalid, -, heq⟩
  · rw [heq]
    exact h.update rfl h.store h.recent rfl rfl rfl
  · rw [heq]
    exact (h.beginTransaction tx).update rfl (h.beginTransaction tx).store h.recent rfl rfl rfl
  · rw [heq]
    exact h.freshIngest hvalid

theorem Sound.ingestBlock (h : engine.Sound config) (block : IndexedBlock) :
    (engine.ingestBlock block).2.Sound config := by
  rw [IndexerEngine.ingestBlock]
  split
  case isTrue => exact h.update rfl h.store h.recent rfl rfl rfl
  case isFalse hblank =>
    rw [Bool.not_eq_true] at hblank
    have hbegun : (engine.beginBlock block).Sound config :=
      h.update rfl (h.store.purgeExpired _) h.recent rfl rfl rfl
    have hretained := hbegun.retainBlock hblank
    exact hretained.update rfl hretained.store.takeEvictions hretained.recent rfl rfl rfl

/-- So does every delivery, accepted or refused. -/
theorem Sound.deliver (h : engine.Sound config) (delivery : Delivery) :
    (delivery.run engine).2.Sound config := by
  cases delivery with
  | block value => exact h.ingestBlock value
  | transaction value => exact h.ingestTransaction value

/-- By induction on the deliveries. -/
theorem Sound.deliverAll (h : engine.Sound config) (items : List Delivery) :
    (Indexer.deliverAll items engine).2.Sound config :=
  deliverAll_keeps _ (fun _ _ => True) (fun delivery _ hsound _ => hsound.deliver delivery) h
    (delivers_of_forall (fun _ _ => trivial) items engine)

/-- A successor that did not overflow is not zero, so a new id never is. -/
theorem checkedSucc_nonzero {a b : UInt64} (h : checkedSucc a = some b) : b ≠ 0 := by
  rw [checkedSucc] at h
  split at h
  case isTrue => cases h
  case isFalse hmax =>
    intro hzero
    cases h
    apply hmax
    have hback : a = 0 - 1 := by rw [← hzero, UInt64.add_sub_cancel]
    rw [hback]
    decide

/-- The limit on the number of matchers is checked before the id is taken. -/
theorem Sound.addMatcher (h : engine.Sound config) (rule : MatchRule) :
    (engine.addMatcher rule).2.Sound config := by
  rw [IndexerEngine.addMatcher]
  split
  case h_1 => exact h
  case h_2 hrule =>
    split
    case isTrue => exact h
    case isFalse hlen =>
      dsimp only
      split
      case h_1 => exact h
      case h_2 next hsucc =>
        refine ⟨h.bounded, h.config_eq, h.store, h.recent, ?_, ?_, h.checkpoint_valid⟩
        · exact h.matchers.insert { id := engine.nextMatcherId, rule := rule }
            h.next_nonzero hrule (Nat.lt_of_not_le hlen)
        · exact checkedSucc_nonzero hsucc

theorem setCheckpoint_store (engine : IndexerEngine) (checkpoint : SyncCheckpoint) :
    (engine.setCheckpoint checkpoint).2.store = engine.store := by
  rw [IndexerEngine.setCheckpoint]
  split <;> rfl

theorem addMatcher_store (engine : IndexerEngine) (rule : MatchRule) :
    (engine.addMatcher rule).2.store = engine.store := by
  rw [IndexerEngine.addMatcher]
  split
  case h_1 => rfl
  case h_2 =>
    split
    case isTrue => rfl
    case isFalse =>
      dsimp only
      split <;> rfl

theorem Sound.setCheckpoint (h : engine.Sound config) (checkpoint : SyncCheckpoint) :
    (engine.setCheckpoint checkpoint).2.Sound config := by
  rw [IndexerEngine.setCheckpoint]
  split
  case h_1 => exact h
  case h_2 hvalid =>
    exact ⟨h.bounded, h.config_eq, h.store, h.recent, h.matchers, h.next_nonzero, hvalid⟩

/-- Observing keys keeps the recent ones distinct and within the capacity. -/
theorem foldl_observe_sound {keys : RecentKeys} (h : keys.Sound) (txs : List IndexedTransaction) :
    (txs.foldl (fun keys tx => (keys.observe tx.txid).2) keys).Sound := by
  induction txs generalizing keys with
  | nil => exact h
  | cons tx txs ih => exact ih (RecentKeys.observe_spec h tx.txid).2.1

/-- Records that a reorganisation removed are gone; the recent keys are made again from what is left. -/
theorem Sound.removeOrphans (h : engine.Sound config) (removed : List String) :
    (engine.removeOrphans removed).2.Sound config :=
  h.update rfl (h.store.removeChainBlocks removed)
    (foldl_observe_sound (RecentKeys.clear_sound _) _) rfl rfl rfl

theorem Sound.applySyncBatches (h : engine.Sound config) (batches : List BlockBatch)
    (checkpoint : SyncCheckpoint) : (engine.applySyncBatches batches checkpoint).2.Sound config :=
  applySyncBatches_keeps _ h (fun _ _ => h.deliverAll _)
    fun _ hsound => hsound.setCheckpoint checkpoint

theorem Sound.reconcileVirtualChain (h : engine.Sound config) (delta : VirtualChainDelta) :
    (engine.reconcileVirtualChain delta).2.Sound config :=
  reconcileVirtualChain_keeps _ h (fun _ => (h.removeOrphans _).deliverAll _)
    (fun _ hsound => hsound.setCheckpoint _)
    fun _ _ hsound => hsound.update rfl hsound.store hsound.recent rfl rfl rfl

/-- What has been checked before a state replaces the engine's. -/
theorem checkState_ok {state : PersistedIndexerState} (h : checkState config state = .ok ()) :
    state.checkpoint.validate = .ok () ∧ validateMatchers state.matchers = .ok () ∧
      validateSnapshot config state.snapshot = .ok () := by
  rw [checkState] at h
  split at h
  case h_1 => cases h
  case h_2 =>
    split at h
    case h_1 => cases h
    case h_2 hcheckpoint =>
      split at h
      case h_1 => cases h
      case h_2 hmatchers => exact ⟨hcheckpoint, hmatchers, h⟩

/-- The counter of a restored table starts above its largest id. -/
theorem nextMatcherId_nonzero {matchers : AList fun _ : UInt64 => Matcher} {id : UInt64}
    (h : Indexer.nextMatcherId matchers = .ok id) : id ≠ 0 := by
  rw [Indexer.nextMatcherId] at h
  split at h
  case h_1 next hsucc =>
    cases h
    exact checkedSucc_nonzero hsucc
  case h_2 => cases h

/-- A refused state changes nothing; an accepted one has been checked as a whole. -/
theorem Sound.restoreState (h : engine.Sound config) (state : PersistedIndexerState) :
    (engine.restoreState state).2.Sound config := by
  rw [IndexerEngine.restoreState, h.config_eq]
  split
  case h_1 => exact h
  case h_2 hcheck =>
    obtain ⟨hcheckpoint, hmatchers, hsnapshot⟩ := checkState_ok hcheck
    have hstore := MemoryStore.Checked.restore hsnapshot
    have hcollected := MatchersChecked.collect hmatchers
    dsimp only
    split
    case h_1 =>
      exact ⟨h.bounded, rfl, hstore, h.recent, hcollected, h.next_nonzero, h.checkpoint_valid⟩
    case h_2 id hnext =>
      exact ⟨h.bounded, rfl, hstore, foldl_observe_sound (RecentKeys.clear_sound _) _,
        hcollected, nextMatcherId_nonzero hnext, hcheckpoint⟩

theorem Sound.restoreSnapshot (h : engine.Sound config) (snapshot : IndexerSnapshot) :
    (engine.restoreSnapshot snapshot).2.Sound config := by
  rw [IndexerEngine.restoreSnapshot, h.config_eq]
  split
  case h_1 => exact h
  case h_2 hsnapshot =>
    exact h.update h.config_eq.symm (MemoryStore.Checked.restore hsnapshot)
      (foldl_observe_sound (RecentKeys.clear_sound _) _) rfl rfl rfl

theorem Sound.clear (h : engine.Sound config) : engine.clear.Sound config := by
  have hstore : engine.store.clear.Checked config := by
    rw [MemoryStore.clear, h.store.config_eq]
    exact .new config
  exact ⟨h.bounded, h.config_eq, hstore, RecentKeys.clear_sound _, h.matchers, h.next_nonzero, rfl⟩

/-- One operation keeps the engine sound. -/
theorem Sound.run (h : engine.Sound config) (op : EngineOp) : (op.run engine).Sound config := by
  cases op with
  | start nowMs => exact h.update rfl h.store h.recent rfl rfl rfl
  | stop => exact h.update rfl h.store h.recent rfl rfl rfl
  | addMatcher rule => exact h.addMatcher rule
  | removeMatcher id =>
    exact ⟨h.bounded, h.config_eq, h.store, h.recent, h.matchers.erase id, h.next_nonzero,
      h.checkpoint_valid⟩
  | ingestTransaction tx => exact h.ingestTransaction tx
  | ingestBlock block => exact h.ingestBlock block
  | purgeExpired nowMs => exact h.purgeExpired nowMs
  | setCheckpoint checkpoint => exact h.setCheckpoint checkpoint
  | applySyncBatches batches checkpoint => exact h.applySyncBatches batches checkpoint
  | reconcileVirtualChain delta => exact h.reconcileVirtualChain delta
  | restoreSnapshot snapshot => exact h.restoreSnapshot snapshot
  | restoreState state => exact h.restoreState state
  | drainEvents => exact h.update rfl h.store h.recent rfl rfl rfl
  | clear => exact h.clear

end IndexerEngine

/-- Every reachable engine is sound, from the step lemma by induction on the run. -/
theorem Run.sound {config : IndexerConfig} {allowed : EngineOp → IndexerEngine → Prop}
    {engine : IndexerEngine} {issued : List UInt64} (h : Run config allowed engine issued) :
    engine.Sound config := by
  induction h with
  | new h => exact .new h
  | call _ op _ ih => exact ih.run op
  | reorder _ matchers hmatchers ih =>
    exact ⟨ih.bounded, ih.config_eq, ih.store, ih.recent, ih.matchers.perm hmatchers,
      ih.next_nonzero, ih.checkpoint_valid⟩

end KaspaPortal.Indexer
