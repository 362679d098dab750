import KaspaPortal.Indexer.Retention

/-!
# Replaying saved records

Restoring inserts the saved records one by one: what is left of them, and when all of
them are left in their order.

Where a record does not fit any more the oldest ones go, as on any other insertion.
-/
namespace KaspaPortal.Indexer
open Lib

namespace MemoryStore

variable {store : MemoryStore}

/-- What a replay of transactions into a store without matches leaves. -/
theorem foldl_insertTransaction (h : store.Sound) (hmatches : store.matches = [])
    (values : List IndexedTransaction) :
    (values.foldl (fun store value => (store.insertTransaction value).2) store).Sound ∧
      (values.foldl (fun store value => (store.insertTransaction value).2) store).matches = [] ∧
      (values.foldl (fun store value => (store.insertTransaction value).2) store).config =
        store.config ∧
      (values.foldl (fun store value => (store.insertTransaction value).2) store).blockOrder =
        store.blockOrder ∧
      (values.foldl (fun store value => (store.insertTransaction value).2) store).txOrder =
        (values.map IndexedTransaction.txid).foldl (pushKey store.config.maxTransactions)
          store.txOrder := by
  induction values generalizing store with
  | nil => exact ⟨h, hmatches, rfl, rfl, rfl⟩
  | cons value values ih =>
    obtain ⟨hsound, horder⟩ := insertTransaction_order h value
    obtain ⟨hconfig, hblocks, hblockOrder⟩ := insertTransaction_frame h value
    have hnone : (store.insertTransaction value).2.matches = [] := by
      by_cases hv : value.txid ∈ store.tx
      · rw [insertTransaction_of_mem hv]
        exact hmatches
      · rw [(insertTransaction_of_notMem h hv).2.2.2, hmatches]
        rfl
    obtain ⟨hsound', hmatches', hconfig', hblockOrder', horder'⟩ := ih hsound hnone
    rw [hconfig, horder] at horder'
    exact ⟨hsound', hmatches', hconfig'.trans hconfig, hblockOrder'.trans hblockOrder, horder'⟩

theorem foldl_insertBlock (h : store.Sound) (values : List IndexedBlock) :
    (values.foldl (fun store value => (store.insertBlock value).2) store).Sound ∧
      (values.foldl (fun store value => (store.insertBlock value).2) store).tx = store.tx ∧
      (values.foldl (fun store value => (store.insertBlock value).2) store).txOrder =
        store.txOrder ∧
      (values.foldl (fun store value => (store.insertBlock value).2) store).matches =
        store.matches ∧
      (values.foldl (fun store value => (store.insertBlock value).2) store).config =
        store.config := by
  induction values generalizing store with
  | nil => exact ⟨h, rfl, rfl, rfl, rfl⟩
  | cons value values ih =>
    obtain ⟨hconfig, htx, horder, hmatches⟩ := insertBlock_frame h value
    obtain ⟨hsound', htx', horder', hmatches', hconfig'⟩ := ih (h.insertBlock value)
    exact ⟨hsound', htx'.trans htx, horder'.trans horder, hmatches'.trans hmatches,
      hconfig'.trans hconfig⟩

theorem foldl_insertMatch (h : store.Sound) (values : List IndexedMatch) :
    ∃ evictions, values.foldl MemoryStore.insertMatch store =
      { store with
        «matches» := keepLast store.config.maxMatches (store.matches ++ values)
        pendingEvictions := evictions } := by
  induction values using List.reverseRecOn with
  | nil =>
    refine ⟨store.pendingEvictions, ?_⟩
    rw [List.append_nil, keepLast_of_le h.matches_le]
    rfl
  | append_singleton values value ih =>
    obtain ⟨evictions, hvalues⟩ := ih
    rw [List.foldl_append, hvalues, List.foldl_cons, List.foldl_nil]
    obtain ⟨evictions', hvalue⟩ := insertMatch_eq { store with
      «matches» := keepLast store.config.maxMatches (store.matches ++ values)
      pendingEvictions := evictions } value
    refine ⟨evictions', ?_⟩
    rw [hvalue]
    dsimp only
    rw [keepLast_keepLast_append, List.append_assoc]

/-- What restoring a snapshot leaves: the window of its transactions, and its last matches. -/
theorem restore_spec (config : IndexerConfig) (snapshot : IndexerSnapshot) :
    (restore config snapshot).Sound ∧
      (restore config snapshot).config = config ∧
      (restore config snapshot).txOrder =
        (snapshot.transactions.map IndexedTransaction.txid).foldl
          (pushKey config.maxTransactions) [] ∧
      (restore config snapshot).matches = keepLast config.maxMatches snapshot.matches := by
  obtain ⟨hsound, hnone, hconfig, -, horder⟩ :=
    foldl_insertTransaction (new_sound config) rfl snapshot.transactions
  obtain ⟨hsound', -, horder', hmatches', hconfig'⟩ := foldl_insertBlock hsound snapshot.blocks
  obtain ⟨evictions, heq⟩ := foldl_insertMatch hsound' snapshot.matches
  rw [restore, heq]
  refine ⟨⟨hsound'.transactions, hsound'.blocks, hsound'.transactions_le, hsound'.blocks_le,
    length_keepLast _ _⟩, hconfig'.trans hconfig, horder'.trans horder, ?_⟩
  rw [hconfig', hconfig, hmatches', hnone]
  rfl

theorem mem_foldl_insertTransaction (h : store.Sound) {values : List IndexedTransaction}
    {tx : IndexedTransaction}
    (htx : tx ∈
      (values.foldl (fun store value => (store.insertTransaction value).2) store).allTransactions) :
    tx ∈ store.allTransactions ∨ tx ∈ values := by
  induction values generalizing store with
  | nil => exact .inl htx
  | cons value values ih =>
    rcases ih (h.insertTransaction value) htx with hmem | hmem
    · rcases mem_insertTransaction h hmem with hold | rfl
      · exact .inl hold
      · exact .inr List.mem_cons_self
    · exact .inr (List.mem_cons_of_mem _ hmem)

theorem mem_foldl_insertBlock (h : store.Sound) {values : List IndexedBlock}
    {block : IndexedBlock}
    (hblock : block ∈ (values.foldl (fun store value => (store.insertBlock value).2) store).allBlocks) :
    block ∈ store.allBlocks ∨ block ∈ values := by
  induction values generalizing store with
  | nil => exact .inl hblock
  | cons value values ih =>
    rcases ih (h.insertBlock value) hblock with hmem | hmem
    · rcases mem_insertBlock h hmem with hold | rfl
      · exact .inl hold
      · exact .inr List.mem_cons_self
    · exact .inr (List.mem_cons_of_mem _ hmem)

/-- The transactions are replayed first, then the blocks, and the matches touch neither. -/
theorem restore_records (config : IndexerConfig) (snapshot : IndexerSnapshot) :
    (restore config snapshot).allTransactions =
        (snapshot.transactions.foldl (fun store value => (store.insertTransaction value).2)
          (new config)).allTransactions ∧
      (restore config snapshot).allBlocks =
        (snapshot.blocks.foldl (fun store value => (store.insertBlock value).2)
          (snapshot.transactions.foldl (fun store value => (store.insertTransaction value).2)
            (new config))).allBlocks ∧
      (snapshot.transactions.foldl (fun store value => (store.insertTransaction value).2)
        (new config)).allBlocks = [] := by
  obtain ⟨hsound, -, -, hblockOrder, -⟩ :=
    foldl_insertTransaction (new_sound config) rfl snapshot.transactions
  obtain ⟨hsound', htx', horder', -, -⟩ := foldl_insertBlock hsound snapshot.blocks
  obtain ⟨evictions, heq⟩ := foldl_insertMatch hsound' snapshot.matches
  rw [restore, heq]
  refine ⟨?_, rfl, ?_⟩
  · unfold allTransactions
    rw [← htx', ← horder']
  · rw [allBlocks, hblockOrder]
    rfl

/-- A restored store holds records of the snapshot only. -/
theorem mem_restore (config : IndexerConfig) (snapshot : IndexerSnapshot) :
    (∀ tx ∈ (restore config snapshot).allTransactions, tx ∈ snapshot.transactions) ∧
      ∀ block ∈ (restore config snapshot).allBlocks, block ∈ snapshot.blocks := by
  obtain ⟨htxs, hblocks, hnone⟩ := restore_records config snapshot
  have hsound := (foldl_insertTransaction (new_sound config) rfl snapshot.transactions).1
  constructor
  · intro tx htx
    rw [htxs] at htx
    exact (mem_foldl_insertTransaction (new_sound config) htx).resolve_left List.not_mem_nil
  · intro block hblock
    rw [hblocks] at hblock
    have hmem := mem_foldl_insertBlock hsound hblock
    rw [hnone] at hmem
    exact hmem.resolve_left List.not_mem_nil

/-- With room for all of them, a replay leaves every transaction in its place. -/
theorem foldl_insertTransaction_of_room (h : store.Sound) (values : List IndexedTransaction)
    (hnodup : (store.txOrder ++ values.map IndexedTransaction.txid).Nodup)
    (hroom : (store.txOrder ++ values.map IndexedTransaction.txid).length ≤
      store.config.maxTransactions) :
    (values.foldl (fun store value => (store.insertTransaction value).2) store).allTransactions =
      store.allTransactions ++ values := by
  induction values generalizing store with
  | nil => exact (List.append_nil _).symm
  | cons value values ih =>
    rw [List.map_cons, List.append_cons] at hnodup hroom
    have hfresh : value.txid ∉ store.tx := by
      intro hmem
      have hold := (List.nodup_append.mp hnodup).1
      exact (List.nodup_append.mp hold).2.2 _ ((h.mem_tx_iff _).mp hmem) _ List.mem_cons_self rfl
    have hlt : store.txOrder.length < store.config.maxTransactions := by
      rw [List.length_append, List.length_append] at hroom
      simp only [List.length_singleton] at hroom
      omega
    have hrecords := (insertTransaction_of_room h hfresh hlt).1
    have hsound := h.insertTransaction value
    have horder : (store.insertTransaction value).2.txOrder = store.txOrder ++ [value.txid] := by
      rw [← hsound.txids, hrecords, List.map_append, h.txids]
      rfl
    have hconfig := (insertTransaction_frame h value).1
    have hrest := ih hsound (by rw [horder]; exact hnodup) (by rw [horder, hconfig]; exact hroom)
    rw [List.foldl_cons, hrest, hrecords, List.append_assoc]
    rfl

theorem Sound.hashes (h : store.Sound) :
    store.allBlocks.map IndexedBlock.hash = store.blockOrder :=
  h.blocks.map_key_records

theorem foldl_insertBlock_of_room (h : store.Sound) (values : List IndexedBlock)
    (hnodup : (store.blockOrder ++ values.map IndexedBlock.hash).Nodup)
    (hroom : (store.blockOrder ++ values.map IndexedBlock.hash).length ≤ store.config.maxBlocks) :
    (values.foldl (fun store value => (store.insertBlock value).2) store).allBlocks =
      store.allBlocks ++ values := by
  induction values generalizing store with
  | nil => exact (List.append_nil _).symm
  | cons value values ih =>
    rw [List.map_cons, List.append_cons] at hnodup hroom
    have hfresh : value.hash ∉ store.blocks := by
      intro hmem
      have hold := (List.nodup_append.mp hnodup).1
      exact (List.nodup_append.mp hold).2.2 _ ((h.blocks.mem_iff _).mpr hmem) _
        List.mem_cons_self rfl
    have hlt : store.blockOrder.length < store.config.maxBlocks := by
      rw [List.length_append, List.length_append] at hroom
      simp only [List.length_singleton] at hroom
      omega
    have hrecords := insertBlock_of_room h hfresh hlt
    have hsound := h.insertBlock value
    have horder : (store.insertBlock value).2.blockOrder = store.blockOrder ++ [value.hash] := by
      rw [← hsound.hashes, hrecords, List.map_append, h.hashes]
      rfl
    have hconfig := (insertBlock_frame h value).1
    have hrest := ih hsound (by rw [horder]; exact hnodup) (by rw [horder, hconfig]; exact hroom)
    rw [List.foldl_cons, hrest, hrecords, List.append_assoc]
    rfl

/-- A sound store's own snapshot restores to the same records, in the same order. -/
theorem restore_snapshot (h : store.Sound) :
    (restore store.config store.snapshot).snapshot = store.snapshot := by
  have hids : ([] ++ store.allTransactions.map IndexedTransaction.txid) = store.txOrder := h.txids
  have hhashes : ([] ++ store.allBlocks.map IndexedBlock.hash) = store.blockOrder := h.hashes
  obtain ⟨hsound, -, hconfig, hblockOrder, -⟩ :=
    foldl_insertTransaction (new_sound store.config) rfl store.allTransactions
  obtain ⟨htxs, hblocks, hnone⟩ := restore_records store.config store.snapshot
  have htxs' := foldl_insertTransaction_of_room (new_sound store.config) _
    (hids.symm ▸ h.transactions.nodup) (hids.symm ▸ h.transactions_le)
  have hblocks' := foldl_insertBlock_of_room hsound store.allBlocks
    (by rw [hblockOrder]; exact hhashes.symm ▸ h.blocks.nodup)
    (by rw [hblockOrder, hconfig]; exact hhashes.symm ▸ h.blocks_le)
  have hmatches := (restore_spec store.config store.snapshot).2.2.2
  have hlast : keepLast store.config.maxMatches store.snapshot.matches = store.matches :=
    keepLast_of_le h.matches_le
  have htransactions : (restore store.config store.snapshot).allTransactions =
      store.allTransactions := htxs.trans htxs'
  have hallBlocks : (restore store.config store.snapshot).allBlocks = store.allBlocks := by
    refine hblocks.trans (hblocks'.trans ?_)
    rw [show (store.snapshot.transactions) = store.allTransactions from rfl] at hnone
    rw [hnone]
    rfl
  rw [snapshot, hmatches, hlast, htransactions, hallBlocks]
  rfl

end MemoryStore

end KaspaPortal.Indexer
