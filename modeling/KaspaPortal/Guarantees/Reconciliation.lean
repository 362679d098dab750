import KaspaPortal.Indexer.Invariant

/-!
# Reorganised chains

A delta takes blocks back and brings others. What it takes back goes with its
transactions, what it brings is retained even if the window of recent ids or the store
knew it before, and everything else stays where it was.

Records are known by their ids, so a second record with an id never enters; the delta
itself is taken from the node as it is.
-/
namespace KaspaPortal.Guarantees
open Lib Indexer

/-- What stays of a store without the blocks taken back. -/
def keptSnapshot (removedHashes : List String) (store : MemoryStore) : IndexerSnapshot where
  transactions := store.allTransactions.filter fun tx => !MemoryStore.orphaned removedHashes tx
  blocks := store.allBlocks.filter fun block => decide (block.hash ∉ removedHashes)
  «matches» := store.matches.filter fun item =>
    !(store.tx.lookup item.txid).any (MemoryStore.orphaned removedHashes)

/-- How many different transactions there are. -/
def distinctTransactions (txs : List IndexedTransaction) : Nat :=
  (txs.map IndexedTransaction.txid).toFinset.card

def distinctBlocks (blocks : List IndexedBlock) : Nat :=
  (blocks.map IndexedBlock.hash).toFinset.card

/-- The limits leave room for what stays and what comes. -/
structure WithinLimits (config : IndexerConfig) (kept : IndexerSnapshot)
    (accepted : List BlockBatch) (addedMatches : Nat) : Prop where
  transactions : distinctTransactions
    (kept.transactions ++ accepted.flatMap BlockBatch.transactions) ≤ config.maxTransactions
  blocks : distinctBlocks (kept.blocks ++ accepted.map BlockBatch.block) ≤ config.maxBlocks
  «matches» : config.mode.retainsMatches = true →
    kept.matches.length + addedMatches ≤ config.maxMatches

/-- What a delta is to leave of the engine it meets. -/
structure Reconciled (delta : VirtualChainDelta) (before after : IndexerEngine) : Prop where
  transactions_accepted : ∀ batch ∈ delta.accepted, ∀ tx ∈ batch.transactions,
    tx.txid ∈ after.store.tx
  blocks_accepted : ∀ batch ∈ delta.accepted, batch.block.hash ∈ after.store.blocks
  orphans_supplied : ∀ tx ∈ after.store.allTransactions,
    MemoryStore.orphaned delta.removedBlockHashes tx = true →
      ∃ batch ∈ delta.accepted, tx ∈ batch.transactions
  transactions_kept :
    (keptSnapshot delta.removedBlockHashes before.store).transactions <+:
      after.store.allTransactions
  blocks_kept :
    (keptSnapshot delta.removedBlockHashes before.store).blocks <+: after.store.allBlocks
  matches_kept :
    (keptSnapshot delta.removedBlockHashes before.store).matches <+: after.store.matches
  checkpoint : after.checkpoint = delta.checkpoint

namespace Reconciliation

variable {config : IndexerConfig} {kept : IndexerSnapshot} {txs : List IndexedTransaction}
  {blocks : List IndexedBlock} {count : Nat} {store : MemoryStore} {engine : IndexerEngine}

/-! ## Room -/

theorem card_map_le_append {α : Type} (key : α → String) (kept first rest : List α) :
    ((kept ++ first).map key).toFinset.card ≤ ((kept ++ (first ++ rest)).map key).toFinset.card := by
  apply Finset.card_le_card
  intro id hid
  rw [List.mem_toFinset] at hid ⊢
  rw [← List.append_assoc, List.map_append]
  exact List.mem_append_left _ hid

theorem distinctTransactions_le_append (kept first rest : List IndexedTransaction) :
    distinctTransactions (kept ++ first) ≤ distinctTransactions (kept ++ (first ++ rest)) :=
  card_map_le_append _ kept first rest

theorem distinctBlocks_le_append (kept first rest : List IndexedBlock) :
    distinctBlocks (kept ++ first) ≤ distinctBlocks (kept ++ (first ++ rest)) :=
  card_map_le_append _ kept first rest

/-- A queue of keys from a set that has one more has room below the size of the set. -/
theorem length_lt_of_notMem {ids : List String} {id : String} {all : List String} {cap : Nat}
    (hnodup : ids.Nodup) (hids : ids ⊆ all) (hmem : id ∈ all) (hnew : id ∉ ids)
    (hcap : all.toFinset.card ≤ cap) : ids.length < cap := by
  have hinsert : insert id ids.toFinset ⊆ all.toFinset := by
    intro other hother
    rw [Finset.mem_insert, List.mem_toFinset] at hother
    rw [List.mem_toFinset]
    rcases hother with heq | hold
    · exact heq ▸ hmem
    · exact hids hold
  have hcard := Finset.card_le_card hinsert
  rw [Finset.card_insert_of_notMem (by rwa [List.mem_toFinset]),
    List.toFinset_card_of_nodup hnodup] at hcard
  omega

/-! ## What the store holds on the way -/

theorem mem_tx_iff_records (h : store.Sound) {id : String} :
    id ∈ store.tx ↔ id ∈ store.allTransactions.map IndexedTransaction.txid := by
  rw [h.txids, h.mem_tx_iff]

theorem mem_blocks_iff_records (h : store.Sound) {hash : String} :
    hash ∈ store.blocks ↔ hash ∈ store.allBlocks.map IndexedBlock.hash := by
  rw [h.hashes, h.blocks.mem_iff]

/-- The store holds what was kept, and behind it what was delivered so far. -/
structure Holds (config : IndexerConfig) (kept : IndexerSnapshot) (txs : List IndexedTransaction)
    (blocks : List IndexedBlock) (count : Nat) (store : MemoryStore) : Prop where
  transactions_held : ∃ fresh, store.allTransactions = kept.transactions ++ fresh ∧ fresh ⊆ txs
  txids : ∀ tx ∈ txs, tx.txid ∈ store.tx
  blocks_held : ∃ fresh, store.allBlocks = kept.blocks ++ fresh ∧ fresh ⊆ blocks
  hashes : ∀ block ∈ blocks, block.hash ∈ store.blocks
  matches_held : ∃ found, store.matches = keepLast config.maxMatches (kept.matches ++ found) ∧
    found.length = count

theorem Holds.mem_tx (hsound : store.Sound) (h : Holds config kept txs blocks count store)
    {id : String} (hid : id ∈ (kept.transactions ++ txs).map IndexedTransaction.txid) :
    id ∈ store.tx := by
  obtain ⟨fresh, hfresh, -⟩ := h.transactions_held
  rw [List.map_append, List.mem_append] at hid
  rcases hid with hold | hnew
  · rw [mem_tx_iff_records hsound, hfresh, List.map_append]
    exact List.mem_append_left _ hold
  · obtain ⟨tx, htx, rfl⟩ := List.mem_map.mp hnew
    exact h.txids tx htx

theorem Holds.insertTransaction (hchecked : store.Checked config)
    (h : Holds config kept txs blocks count store) (tx : IndexedTransaction)
    (hroom : distinctTransactions (kept.transactions ++ (txs ++ [tx])) ≤ config.maxTransactions) :
    Holds config kept (txs ++ [tx]) blocks count (store.insertTransaction tx).2 := by
  obtain ⟨fresh, hfresh, hsubset⟩ := h.transactions_held
  obtain ⟨-, hblocks, horder⟩ := MemoryStore.insertTransaction_frame hchecked.sound tx
  by_cases hv : tx.txid ∈ store.tx
  · rw [MemoryStore.insertTransaction_of_mem hv]
    refine ⟨⟨fresh, hfresh, fun _ hmem => List.mem_append_left _ (hsubset hmem)⟩,
      fun other hother => ?_, h.blocks_held, h.hashes, h.matches_held⟩
    rcases List.mem_append.mp hother with hold | hnew
    · exact h.txids other hold
    · rw [List.mem_singleton.mp hnew]
      exact hv
  · have hlt : store.txOrder.length < store.config.maxTransactions := by
      rw [hchecked.config_eq]
      refine length_lt_of_notMem hchecked.sound.transactions.nodup ?_ ?_
        (fun hmem => hv ((hchecked.sound.mem_tx_iff _).mpr hmem)) hroom
      · rw [← hchecked.sound.txids, hfresh]
        apply List.map_subset
        intro other hother
        rcases List.mem_append.mp hother with hold | hnew
        · exact List.mem_append_left _ hold
        · exact List.mem_append_right _ (List.mem_append_left _ (hsubset hnew))
      · apply List.mem_map_of_mem
        exact List.mem_append_right _ (List.mem_append_right _ List.mem_cons_self)
    obtain ⟨hrecords, hmatches⟩ := MemoryStore.insertTransaction_of_room hchecked.sound hv hlt
    have hsound := hchecked.sound.insertTransaction tx
    refine ⟨⟨fresh ++ [tx], ?_, ?_⟩, fun other hother => ?_, ?_, ?_, ?_⟩
    · rw [hrecords, hfresh, List.append_assoc]
    · exact List.append_subset.mpr ⟨fun _ hmem => List.mem_append_left _ (hsubset hmem),
        List.subset_append_right _ _⟩
    · rw [mem_tx_iff_records hsound, hrecords, List.map_append, List.mem_append]
      rcases List.mem_append.mp hother with hold | hnew
      · exact .inl ((mem_tx_iff_records hchecked.sound).mp (h.txids other hold))
      · exact .inr (List.mem_map_of_mem hnew)
    · rw [MemoryStore.allBlocks, hblocks, horder]
      exact h.blocks_held
    · rw [hblocks]
      exact h.hashes
    · rw [hmatches]
      exact h.matches_held

theorem Holds.insertBlock (hchecked : store.Checked config)
    (h : Holds config kept txs blocks count store) (block : IndexedBlock)
    (hroom : distinctBlocks (kept.blocks ++ (blocks ++ [block])) ≤ config.maxBlocks) :
    Holds config kept txs (blocks ++ [block]) count (store.insertBlock block).2 := by
  obtain ⟨fresh, hfresh, hsubset⟩ := h.blocks_held
  obtain ⟨-, htx, horder, hmatches⟩ := MemoryStore.insertBlock_frame hchecked.sound block
  by_cases hv : block.hash ∈ store.blocks
  · rw [MemoryStore.insertBlock_of_mem hv]
    refine ⟨h.transactions_held, h.txids,
      ⟨fresh, hfresh, fun _ hmem => List.mem_append_left _ (hsubset hmem)⟩,
      fun other hother => ?_, h.matches_held⟩
    rcases List.mem_append.mp hother with hold | hnew
    · exact h.hashes other hold
    · rw [List.mem_singleton.mp hnew]
      exact hv
  · have hlt : store.blockOrder.length < store.config.maxBlocks := by
      rw [hchecked.config_eq]
      refine length_lt_of_notMem hchecked.sound.blocks.nodup ?_ ?_
        (fun hmem => hv ((hchecked.sound.blocks.mem_iff _).mp hmem)) hroom
      · rw [← hchecked.sound.hashes, hfresh]
        apply List.map_subset
        intro other hother
        rcases List.mem_append.mp hother with hold | hnew
        · exact List.mem_append_left _ hold
        · exact List.mem_append_right _ (List.mem_append_left _ (hsubset hnew))
      · apply List.mem_map_of_mem
        exact List.mem_append_right _ (List.mem_append_right _ List.mem_cons_self)
    have hrecords := MemoryStore.insertBlock_of_room hchecked.sound hv hlt
    have hsound := hchecked.sound.insertBlock block
    refine ⟨?_, ?_, ⟨fresh ++ [block], ?_, ?_⟩, fun other hother => ?_, ?_⟩
    · rw [MemoryStore.allTransactions, htx, horder]
      exact h.transactions_held
    · rw [htx]
      exact h.txids
    · rw [hrecords, hfresh, List.append_assoc]
    · exact List.append_subset.mpr ⟨fun _ hmem => List.mem_append_left _ (hsubset hmem),
        List.subset_append_right _ _⟩
    · rw [mem_blocks_iff_records hsound, hrecords, List.map_append, List.mem_append]
      rcases List.mem_append.mp hother with hold | hnew
      · exact .inl ((mem_blocks_iff_records hchecked.sound).mp (h.hashes other hold))
      · exact .inr (List.mem_map_of_mem hnew)
    · rw [hmatches]
      exact h.matches_held

theorem Holds.insertMatch (hconfig : store.config = config)
    (h : Holds config kept txs blocks count store) (item : IndexedMatch) :
    Holds config kept txs blocks (count + 1) (store.insertMatch item) := by
  obtain ⟨found, hfound, hlength⟩ := h.matches_held
  obtain ⟨evictions, heq⟩ := MemoryStore.insertMatch_eq store item
  rw [heq, hconfig, hfound, keepLast_keepLast_append, List.append_assoc]
  refine ⟨h.transactions_held, h.txids, h.blocks_held, h.hashes, ⟨found ++ [item], rfl, ?_⟩⟩
  rw [List.length_append, hlength, List.length_singleton]

theorem Holds.insertMatches (hchecked : store.Checked config)
    (h : Holds config kept txs blocks count store) (items : List IndexedMatch) :
    Holds config kept txs blocks (count + items.length)
      (items.foldl MemoryStore.insertMatch store) := by
  induction items generalizing store count with
  | nil => exact h
  | cons item items ih =>
    have hrest := ih (hchecked.insertMatch item) (h.insertMatch hchecked.config_eq item)
    rw [List.length_cons, Nat.add_comm items.length, ← Nat.add_assoc]
    exact hrest

theorem Holds.takeEvictions (h : Holds config kept txs blocks count store) :
    Holds config kept txs blocks count store.takeEvictions.2 :=
  ⟨h.transactions_held, h.txids, h.blocks_held, h.hashes, h.matches_held⟩

/-! ## What the engine holds on the way -/

/-- The engine holds what was kept and delivered, and its window knows no other ids. -/
structure Progress (config : IndexerConfig) (kept : IndexerSnapshot)
    (txs : List IndexedTransaction) (blocks : List IndexedBlock) (count : Nat)
    (engine : IndexerEngine) : Prop where
  sound : engine.Sound config
  holds : Holds config kept txs blocks (if config.mode.retainsMatches then count else 0) engine.store
  window : engine.recentTxids.order ⊆ (kept.transactions ++ txs).map IndexedTransaction.txid

theorem mem_pushKey {cap : Nat} {keys : List String} {id other : String}
    (h : other ∈ pushKey cap keys id) : other ∈ keys ∨ other = id := by
  rw [pushKey] at h
  split at h
  case isTrue => exact .inl h
  case isFalse => simpa using (keepLast_sublist _ _).subset h

theorem ingestedStore_eq (h : engine.Sound config) (httl : config.transactionTtlMs = 0)
    (hmode : config.mode.retainsTransactions = true) (tx : IndexedTransaction) :
    engine.ingestedStore tx =
      if config.mode.retainsMatches then
        (scan tx engine.matcherList).foldl MemoryStore.insertMatch
          (engine.store.insertTransaction tx).2
      else (engine.store.insertTransaction tx).2 := by
  have hfresh : engine.store.purgeExpired tx.observedAtMs = ([], engine.store) :=
    MemoryStore.purgeExpired_of_fresh (.inl (by rw [h.store.config_eq]; exact httl))
  have hretains : engine.config.mode.retainsTransaction (!(scan tx engine.matcherList).isEmpty) =
      true := by
    rw [h.config_eq, IndexingMode.retainsTransaction, hmode, Bool.true_or]
  rw [IndexerEngine.ingestedStore, hfresh, hretains, h.config_eq]
  rfl

theorem Progress.ingestTransaction (h : Progress config kept txs blocks count engine)
    (httl : config.transactionTtlMs = 0) (hmode : config.mode.retainsTransactions = true)
    {tx : IndexedTransaction} {found : List IndexedMatch} {after : IndexerEngine}
    (hroom : distinctTransactions (kept.transactions ++ (txs ++ [tx])) ≤ config.maxTransactions)
    (hrun : engine.ingestTransaction tx = (.ok found, after)) :
    Progress config kept (txs ++ [tx]) blocks (count + found.length) after := by
  have hsound : after.Sound config := by
    have hafter := h.sound.ingestTransaction tx
    rw [hrun] at hafter
    exact hafter
  have hinserted := h.holds.insertTransaction h.sound.store tx hroom
  have hgrows : (kept.transactions ++ txs).map IndexedTransaction.txid ⊆
      (kept.transactions ++ (txs ++ [tx])).map IndexedTransaction.txid := by
    rw [← List.append_assoc]
    exact List.map_subset _ (List.subset_append_left _ _)
  rcases IndexerEngine.ingestTransaction_cases h.sound tx with
    ⟨error, -, heq⟩ | ⟨-, hseen, heq⟩ | ⟨hvalid, -, heq⟩
  · rw [heq] at hrun
    cases hrun
  · -- the window knows the id, so the store holds it already
    rw [heq] at hrun
    cases hrun
    have hmem := h.holds.mem_tx h.sound.store.sound (h.window hseen)
    have hfresh : engine.store.purgeExpired tx.observedAtMs = ([], engine.store) :=
      MemoryStore.purgeExpired_of_fresh (.inl (by rw [h.sound.store.config_eq]; exact httl))
    have hstore : ((engine.beginTransaction tx).countDuplicate engine.recentTxids).store =
        engine.store := congrArg Prod.snd hfresh
    rw [MemoryStore.insertTransaction_of_mem hmem] at hinserted
    refine ⟨hsound, ?_, fun _ hid => hgrows (h.window hid)⟩
    rw [hstore]
    exact hinserted
  · rw [heq] at hrun
    cases hrun
    obtain ⟨hstore, -, hrecent, -⟩ := IndexerEngine.freshIngest_effect engine tx
    refine ⟨hsound, ?_, fun id hid => ?_⟩
    · rw [hstore, ingestedStore_eq h.sound httl hmode]
      apply Holds.takeEvictions
      split
      case isTrue hmatches =>
        rw [if_pos hmatches] at hinserted
        exact hinserted.insertMatches (h.sound.store.insertTransaction hvalid) _
      case isFalse hmatches =>
        rw [if_neg hmatches] at hinserted
        exact hinserted
    · rw [hrecent, (RecentKeys.observe_spec h.sound.recent tx.txid).2.2.1] at hid
      rcases mem_pushKey hid with hold | hnew
      · exact hgrows (h.window hold)
      · rw [hnew]
        apply List.mem_map_of_mem
        exact List.mem_append_right _ (List.mem_append_right _ List.mem_cons_self)

theorem Progress.ingestBlock (h : Progress config kept txs blocks count engine)
    (httl : config.transactionTtlMs = 0) (hmode : config.mode.retainsBlocks = true)
    {block : IndexedBlock} {after : IndexerEngine}
    (hroom : distinctBlocks (kept.blocks ++ (blocks ++ [block])) ≤ config.maxBlocks)
    (hrun : engine.ingestBlock block = (.ok (), after)) :
    Progress config kept txs (blocks ++ [block]) count after := by
  have hsound : after.Sound config := by
    have hafter := h.sound.ingestBlock block
    rw [hrun] at hafter
    exact hafter
  rw [IndexerEngine.ingestBlock] at hrun
  split at hrun
  case isTrue => cases hrun
  case isFalse =>
    cases hrun
    have hfresh : engine.store.purgeExpired block.observedAtMs = ([], engine.store) :=
      MemoryStore.purgeExpired_of_fresh (.inl (by rw [h.sound.store.config_eq]; exact httl))
    have hbegun : (engine.beginBlock block).store = engine.store := congrArg Prod.snd hfresh
    obtain ⟨hstore, -, hrecent, -⟩ :=
      IndexerEngine.retainBlock_effect (engine.beginBlock block) block
    have hretains : (engine.beginBlock block).config.mode.retainsBlocks = true := by
      rw [← hmode, ← h.sound.config_eq]
      rfl
    rw [hretains, if_pos rfl, hbegun] at hstore
    refine ⟨hsound, ?_, fun id hid => h.window ?_⟩
    · have hinserted := (h.holds.insertBlock h.sound.store block hroom).takeEvictions
      rw [← hstore] at hinserted
      exact hinserted
    · have hsame : ((((engine.beginBlock block).retainBlock block).pushEvents
          [.block block.hash]).recordSizeEvictions).recentTxids = engine.recentTxids := hrecent
      rwa [hsame] at hid

/-! ## The loops over what is delivered -/

/-- How the loop of `reconcile_virtual_chain` counts matches. -/
abbrev addFound (added : Nat) (found : List IndexedMatch) : Nat := added + found.length

theorem Progress.ingestTransactions (h : Progress config kept txs blocks count engine)
    (httl : config.transactionTtlMs = 0) (hmode : config.mode.retainsTransactions = true)
    {items : List IndexedTransaction} {total : Nat} {after : IndexerEngine}
    (hroom : distinctTransactions (kept.transactions ++ (txs ++ items)) ≤ config.maxTransactions)
    (hrun : IndexerEngine.ingestTransactions addFound count items engine = (.ok total, after)) :
    Progress config kept (txs ++ items) blocks total after := by
  induction items generalizing txs count engine with
  | nil =>
    cases hrun
    rw [List.append_nil]
    exact h
  | cons tx items ih =>
    rw [IndexerEngine.ingestTransactions, Outcome.andThen_eq_ok] at hrun
    obtain ⟨found, next, hfirst, hrest⟩ := hrun
    rw [List.append_cons] at hroom ⊢
    have hfits := (distinctTransactions_le_append _ _ items).trans hroom
    exact ih (h.ingestTransaction httl hmode hfits hfirst) hroom hrest

theorem Progress.acceptBatches (h : Progress config kept txs blocks count engine)
    (httl : config.transactionTtlMs = 0) (htxs : config.mode.retainsTransactions = true)
    (hblocks : config.mode.retainsBlocks = true) {batches : List BlockBatch}
    {added total : IndexerEngine.AddedCounts} {after : IndexerEngine} (hcount : added.matches = count)
    (hroom : distinctTransactions
      (kept.transactions ++ (txs ++ batches.flatMap BlockBatch.transactions)) ≤ config.maxTransactions)
    (hroom' : distinctBlocks (kept.blocks ++ (blocks ++ batches.map BlockBatch.block)) ≤
      config.maxBlocks)
    (hrun : IndexerEngine.acceptBatches added batches engine = (.ok total, after)) :
    Progress config kept (txs ++ batches.flatMap BlockBatch.transactions)
      (blocks ++ batches.map BlockBatch.block) total.matches after := by
  induction batches generalizing txs blocks count added engine with
  | nil =>
    cases hrun
    rw [List.flatMap_nil, List.map_nil, List.append_nil, List.append_nil, hcount]
    exact h
  | cons batch batches ih =>
    rw [IndexerEngine.acceptBatches, Outcome.andThen_eq_ok] at hrun
    obtain ⟨addedMatches, next, hfirst, hrest⟩ := hrun
    rw [IndexerEngine.ingestBatch, Outcome.andThen_eq_ok] at hfirst
    obtain ⟨u, begun, hblock, hbatch⟩ := hfirst
    rw [List.flatMap_cons, ← List.append_assoc txs] at hroom ⊢
    rw [List.map_cons, List.append_cons] at hroom' ⊢
    rw [hcount] at hbatch
    have hbegun := h.ingestBlock httl hblocks ((distinctBlocks_le_append _ _ _).trans hroom') hblock
    have hnext := hbegun.ingestTransactions httl htxs
      ((distinctTransactions_le_append _ _ _).trans hroom) hbatch
    exact ih hnext rfl hroom hroom' hrest

/-! ## From the removal on -/

theorem foldl_observe_order {keys : RecentKeys} (h : keys.Sound) (items : List IndexedTransaction)
    {id : String} (hid : id ∈ (items.foldl (fun keys tx => (keys.observe tx.txid).2) keys).order) :
    id ∈ keys.order ∨ id ∈ items.map IndexedTransaction.txid := by
  induction items generalizing keys with
  | nil => exact .inl hid
  | cons tx items ih =>
    obtain ⟨-, hsound, horder, -⟩ := RecentKeys.observe_spec h tx.txid
    rcases ih hsound hid with hkeys | hrest
    · rw [horder] at hkeys
      rcases mem_pushKey hkeys with hold | heq
      · exact .inl hold
      · exact .inr (List.mem_cons.mpr (.inl heq))
    · exact .inr (List.mem_cons_of_mem _ hrest)

/-- The window is rebuilt from what is kept, so it forgets the orphans. -/
theorem progress_removeOrphans (h : engine.Sound config) (removed : List String) :
    Progress config (keptSnapshot removed engine.store) [] [] 0 (engine.removeOrphans removed).2 := by
  obtain ⟨hsound, htxs, hblocks, hmatches, -⟩ :=
    MemoryStore.removeChainBlocks_spec h.store.sound removed
  refine ⟨h.removeOrphans removed, ⟨⟨[], ?_, List.nil_subset _⟩, ?_, ⟨[], ?_, List.nil_subset _⟩,
    ?_, ⟨[], ?_, (ite_self 0).symm⟩⟩, fun id hid => ?_⟩
  · rw [List.append_nil]
    exact htxs
  · exact fun _ hmem => absurd hmem List.not_mem_nil
  · rw [List.append_nil]
    exact hblocks
  · exact fun _ hmem => absurd hmem List.not_mem_nil
  · rw [List.append_nil, keepLast_of_le]
    · exact hmatches
    · have hle := hsound.matches_le
      rwa [hmatches, (h.store.removeChainBlocks removed).config_eq] at hle
  · rw [List.append_nil]
    rw [keptSnapshot, ← htxs]
    rcases foldl_observe_order (RecentKeys.clear_sound _) _ hid with hclear | hmem
    · exact absurd hclear List.not_mem_nil
    · exact hmem

theorem keepLast_prefix {cap : Nat} {first rest : List IndexedMatch}
    (h : first.length + rest.length ≤ cap) : first <+: keepLast cap (first ++ rest) := by
  rw [keepLast_of_le]
  · exact List.prefix_append _ _
  · rwa [List.length_append]

theorem setCheckpoint_ok {checkpoint : SyncCheckpoint} {after : IndexerEngine} {u : Unit}
    (h : engine.setCheckpoint checkpoint = (.ok u, after)) :
    after.store = engine.store ∧ after.checkpoint = checkpoint := by
  rw [IndexerEngine.setCheckpoint] at h
  split at h
  case h_1 => cases h
  case h_2 =>
    cases h
    exact ⟨rfl, rfl⟩

/-- What the store holds at the end is what a delta is to leave. -/
theorem Holds.reconciled {delta : VirtualChainDelta} {before after : IndexerEngine}
    (h : Holds config (keptSnapshot delta.removedBlockHashes before.store)
      (delta.accepted.flatMap BlockBatch.transactions) (delta.accepted.map BlockBatch.block)
      count after.store)
    (hroom : (keptSnapshot delta.removedBlockHashes before.store).matches.length + count ≤
      config.maxMatches) (hcheckpoint : after.checkpoint = delta.checkpoint) :
    Reconciled delta before after where
  transactions_accepted batch hbatch tx htx := h.txids tx (List.mem_flatMap.mpr ⟨batch, hbatch, htx⟩)
  blocks_accepted batch hbatch := h.hashes batch.block (List.mem_map_of_mem hbatch)
  orphans_supplied tx htx horphaned := by
    obtain ⟨fresh, hfresh, hsubset⟩ := h.transactions_held
    rw [hfresh, List.mem_append] at htx
    rcases htx with hkept | hnew
    · have hnot := (List.mem_filter.mp hkept).2
      rw [horphaned] at hnot
      cases hnot
    · exact List.mem_flatMap.mp (hsubset hnew)
  transactions_kept := by
    obtain ⟨fresh, hfresh, -⟩ := h.transactions_held
    rw [hfresh]
    exact List.prefix_append _ _
  blocks_kept := by
    obtain ⟨fresh, hfresh, -⟩ := h.blocks_held
    rw [hfresh]
    exact List.prefix_append _ _
  matches_kept := by
    obtain ⟨found, hfound, hlength⟩ := h.matches_held
    rw [hfound]
    exact keepLast_prefix (hlength ▸ hroom)
  checkpoint := hcheckpoint

end Reconciliation

open Reconciliation

/-- A delta that is applied brings all it delivers, leaves of the blocks it takes back only
what it delivers again, and keeps everything else in its order. The store holds a transaction or a
block once, by its id or hash, and of several with one the record that came first stays. -/
theorem delta_reconciled {config : IndexerConfig} {engine after : IndexerEngine}
    {issued : List UInt64} {delta : VirtualChainDelta} {report : ReconciliationReport}
    (h : Reachable config engine issued) (htxs : config.mode.retainsTransactions = true)
    (hblocks : config.mode.retainsBlocks = true) (httl : config.transactionTtlMs = 0)
    (hok : engine.reconcileVirtualChain delta = (.ok report, after))
    (hlimits : WithinLimits config (keptSnapshot delta.removedBlockHashes engine.store)
      delta.accepted report.addedMatches) :
    Reconciled delta engine after := by
  rw [IndexerEngine.reconcileVirtualChain] at hok
  split at hok
  case h_1 => cases hok
  case h_2 =>
    dsimp only at hok
    rw [Outcome.andThen_eq_ok] at hok
    obtain ⟨added, accepted, haccepted, hok⟩ := hok
    rw [Outcome.andThen_eq_ok] at hok
    obtain ⟨u, checked, hchecked, hok⟩ := hok
    cases hok
    have hprogress := (progress_removeOrphans h.sound delta.removedBlockHashes).acceptBatches httl
      htxs hblocks rfl hlimits.transactions hlimits.blocks haccepted
    rw [List.nil_append, List.nil_append] at hprogress
    obtain ⟨hstore, hcheckpoint⟩ := setCheckpoint_ok hchecked
    have hholds := hprogress.holds
    rw [← hstore] at hholds
    refine Holds.reconciled hholds ?_ hcheckpoint
    split
    case isTrue hmode => exact hlimits.matches hmode
    case isFalse =>
      refine le_trans (List.length_filter_le _ _) ?_
      rw [← h.sound.store.config_eq]
      exact h.sound.store.sound.matches_le

namespace Reconciliation

def blockAt (hash : String) : IndexedBlock where
  hash := hash
  daaScore := none
  observedAtMs := 0
  txids := ["a"]

def minedIn (hash : String) : IndexedTransaction where
  txid := "a"
  blockHash := some hash
  daaScore := none
  observedAtMs := 0
  addresses := []
  payload := []

/-- An engine that retains a transaction in a block. -/
def beforeReorg : IndexerEngine :=
  runAll [.ingestBlock (blockAt "old"), .ingestTransaction (minedIn "old")] (.initial .smallest)

/-- The chain takes the block back and accepts the same transaction in another. -/
def reorg : VirtualChainDelta where
  removedBlockHashes := ["old"]
  accepted := [{ block := blockAt "new", transactions := [minedIn "new"] }]
  checkpoint := { virtualDaaScore := some 11, blockHash := some "new" }

def reorgReport : ReconciliationReport where
  removedBlocks := 1
  removedTransactions := 1
  removedMatches := 0
  addedBlocks := 1
  addedTransactions := 1
  addedMatches := 0
  checkpoint := reorg.checkpoint

end Reconciliation

theorem delta_reconciled_reaccepted :
    Reconciled reorg beforeReorg (beforeReorg.reconcileVirtualChain reorg).2 := by
  have hreachable := (Run.new (rfl : IndexerEngine.new .smallest = .ok _)).reaches
    [.ingestBlock (blockAt "old"), .ingestTransaction (minedIn "old")]
  have hok : beforeReorg.reconcileVirtualChain reorg =
      (.ok reorgReport, (beforeReorg.reconcileVirtualChain reorg).2) := Prod.ext (by decide) rfl
  refine delta_reconciled hreachable rfl rfl rfl hok ⟨?_, ?_, fun _ => ?_⟩
  · decide
  · decide
  · decide

end KaspaPortal.Guarantees
