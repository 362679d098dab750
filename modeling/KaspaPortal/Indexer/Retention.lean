import KaspaPortal.Indexer.Store

/-!
# What each operation of the store retains

The records of a store in order of arrival are its abstract state: inserting keeps the
last of them, and purging and taking back remove some.
-/
namespace KaspaPortal.Indexer
open Lib

namespace MemoryStore

variable {store : MemoryStore}

/-- The queues list the keys of their maps once, within the configured limits. -/
structure Sound (store : MemoryStore) : Prop where
  transactions : Indexes IndexedTransaction.txid store.txOrder store.tx
  blocks : Indexes IndexedBlock.hash store.blockOrder store.blocks
  transactions_le : store.txOrder.length ≤ store.config.maxTransactions
  blocks_le : store.blockOrder.length ≤ store.config.maxBlocks
  matches_le : store.matches.length ≤ store.config.maxMatches

/-- Every retained match names a retained transaction. -/
def Backed (store : MemoryStore) : Prop := ∀ item ∈ store.matches, item.txid ∈ store.tx

theorem new_sound (config : IndexerConfig) : (new config).Sound where
  transactions := Indexes.empty
  blocks := Indexes.empty
  transactions_le := Nat.zero_le _
  blocks_le := Nat.zero_le _
  matches_le := Nat.zero_le _

theorem Sound.txids (h : Sound store) :
    store.allTransactions.map IndexedTransaction.txid = store.txOrder :=
  h.transactions.map_key_records

/-! ## Transactions -/

theorem foldl_evictTransaction (gone : List String) (store : MemoryStore) :
    gone.foldl (fun store id => evictTransaction id store) store =
      { store with
        tx := store.tx.retain fun id _ => decide (id ∉ gone)
        «matches» := store.matches.filter fun value => decide (value.txid ∉ gone)
        pendingEvictions := store.pendingEvictions ++
          gone.map fun id => { kind := "transaction_size", id := id } } := by
  rw [← KeyedMap.foldl_erase]
  induction gone generalizing store with
  | nil => simp
  | cons id gone ih =>
    rw [List.foldl_cons, ih]
    simp only [evictTransaction, List.foldl_cons, List.filter_filter, List.map_cons,
      List.append_assoc, List.singleton_append]
    congr 1
    apply List.filter_congr
    intro value _
    by_cases hid : value.txid = id <;> simp [hid]

theorem trimTransactions_eq
    (h : Indexes IndexedTransaction.txid store.txOrder store.tx) :
    store.trimTransactions =
      { (pastLast store.config.maxTransactions store.txOrder).foldl
          (fun store id => evictTransaction id store) store with
        txOrder := keepLast store.config.maxTransactions store.txOrder } := by
  rw [trimTransactions, drainWhile_eq store.config.maxTransactions
    fun queue s => Indexes IndexedTransaction.txid queue s.tx ∧ s.config = store.config]
  · intro id rest s hs
    have hrest := (Indexes.discard [id] rest hs.1).1
    rw [← KeyedMap.foldl_erase] at hrest
    exact ⟨hrest, hs.2⟩
  · intro queue s hs
    rw [hs.1.len_eq, hs.2]
  · exact ⟨h, rfl⟩

/-- Only the transactions, their matches and the list of evictions change. -/
theorem trimTransactions_frame (h : Indexes IndexedTransaction.txid store.txOrder store.tx) :
    store.trimTransactions.config = store.config ∧
      store.trimTransactions.blocks = store.blocks ∧
      store.trimTransactions.blockOrder = store.blockOrder := by
  rw [trimTransactions_eq h, foldl_evictTransaction]
  exact ⟨rfl, rfl, rfl⟩

theorem insertTransaction_of_mem {value : IndexedTransaction} (hv : value.txid ∈ store.tx) :
    store.insertTransaction value = (false, store) := if_pos hv

/-- A new transaction goes to the back, and what is past the limit goes with its matches. -/
theorem insertTransaction_of_notMem (h : store.Sound) {value : IndexedTransaction}
    (hv : value.txid ∉ store.tx) :
    (store.insertTransaction value).1 = true ∧
      (store.insertTransaction value).2.Sound ∧
      (store.insertTransaction value).2.allTransactions =
        keepLast store.config.maxTransactions (store.allTransactions ++ [value]) ∧
      (store.insertTransaction value).2.matches = store.matches.filter fun item =>
        decide (item.txid ∉
          pastLast store.config.maxTransactions (store.txOrder ++ [value.txid])) := by
  have hpush : Indexes IndexedTransaction.txid (store.pushTransaction value).txOrder
    (store.pushTransaction value).tx := h.transactions.push hv
  have htrim := hpush.trim store.config.maxTransactions
  have hrecords : (store.pushTransaction value).allTransactions = store.allTransactions ++ [value] :=
    h.transactions.records_push hv
  rw [insertTransaction, if_neg hv, trimTransactions_eq hpush, foldl_evictTransaction]
  refine ⟨rfl, ⟨htrim.1, h.blocks, length_keepLast _ _, h.blocks_le, ?_⟩, ?_, rfl⟩
  · exact (List.length_filter_le _ _).trans h.matches_le
  · rw [← hrecords]
    exact htrim.2

theorem mem_insertTransaction (h : store.Sound) {value tx : IndexedTransaction}
    (htx : tx ∈ (store.insertTransaction value).2.allTransactions) :
    tx ∈ store.allTransactions ∨ tx = value := by
  by_cases hv : value.txid ∈ store.tx
  · rw [insertTransaction_of_mem hv] at htx
    exact .inl htx
  · rw [(insertTransaction_of_notMem h hv).2.2.1] at htx
    simpa using List.mem_of_mem_drop htx

theorem insertTransaction_frame (h : store.Sound) (value : IndexedTransaction) :
    (store.insertTransaction value).2.config = store.config ∧
      (store.insertTransaction value).2.blocks = store.blocks ∧
      (store.insertTransaction value).2.blockOrder = store.blockOrder := by
  rw [insertTransaction]
  split
  case isTrue => exact ⟨rfl, rfl, rfl⟩
  case isFalse hv => exact trimTransactions_frame (h.transactions.push hv)

/-! ## Blocks and matches -/

theorem foldl_evictBlock (gone : List String) (store : MemoryStore) :
    gone.foldl (fun store id => evictBlock id store) store =
      { store with
        blocks := store.blocks.retain fun id _ => decide (id ∉ gone)
        pendingEvictions := store.pendingEvictions ++
          gone.map fun id => { kind := "block_size", id := id } } := by
  rw [← KeyedMap.foldl_erase]
  induction gone generalizing store with
  | nil => simp
  | cons id gone ih =>
    rw [List.foldl_cons, ih]
    simp only [evictBlock, List.foldl_cons, List.map_cons, List.append_assoc,
      List.singleton_append]

theorem trimBlocks_eq (h : Indexes IndexedBlock.hash store.blockOrder store.blocks) :
    store.trimBlocks =
      { (pastLast store.config.maxBlocks store.blockOrder).foldl
          (fun store id => evictBlock id store) store with
        blockOrder := keepLast store.config.maxBlocks store.blockOrder } := by
  rw [trimBlocks, drainWhile_eq store.config.maxBlocks
    fun queue s => Indexes IndexedBlock.hash queue s.blocks ∧ s.config = store.config]
  · intro id rest s hs
    have hrest := (Indexes.discard [id] rest hs.1).1
    rw [← KeyedMap.foldl_erase] at hrest
    exact ⟨hrest, hs.2⟩
  · intro queue s hs
    rw [hs.1.len_eq, hs.2]
  · exact ⟨h, rfl⟩

theorem insertBlock_of_mem {value : IndexedBlock} (hv : value.hash ∈ store.blocks) :
    store.insertBlock value = (false, store) := if_pos hv

theorem insertBlock_of_notMem (h : store.Sound) {value : IndexedBlock}
    (hv : value.hash ∉ store.blocks) :
    (store.insertBlock value).1 = true ∧
      (store.insertBlock value).2.Sound ∧
      (store.insertBlock value).2.allBlocks =
        keepLast store.config.maxBlocks (store.allBlocks ++ [value]) := by
  have hpush : Indexes IndexedBlock.hash (store.pushBlock value).blockOrder
    (store.pushBlock value).blocks := h.blocks.push hv
  have htrim := hpush.trim store.config.maxBlocks
  have hrecords : (store.pushBlock value).allBlocks = store.allBlocks ++ [value] :=
    h.blocks.records_push hv
  rw [insertBlock, if_neg hv, trimBlocks_eq hpush, foldl_evictBlock]
  refine ⟨rfl, ⟨h.transactions, htrim.1, h.transactions_le, length_keepLast _ _, h.matches_le⟩, ?_⟩
  rw [← hrecords]
  exact htrim.2

theorem mem_insertBlock (h : store.Sound) {value block : IndexedBlock}
    (hblock : block ∈ (store.insertBlock value).2.allBlocks) :
    block ∈ store.allBlocks ∨ block = value := by
  by_cases hv : value.hash ∈ store.blocks
  · rw [insertBlock_of_mem hv] at hblock
    exact .inl hblock
  · rw [(insertBlock_of_notMem h hv).2.2] at hblock
    simpa using List.mem_of_mem_drop hblock

theorem Sound.insertTransaction (h : store.Sound) (value : IndexedTransaction) :
    (store.insertTransaction value).2.Sound := by
  by_cases hv : value.txid ∈ store.tx
  · rw [insertTransaction_of_mem hv]
    exact h
  · exact (insertTransaction_of_notMem h hv).2.1

theorem Sound.insertBlock (h : store.Sound) (value : IndexedBlock) :
    (store.insertBlock value).2.Sound := by
  by_cases hv : value.hash ∈ store.blocks
  · rw [insertBlock_of_mem hv]
    exact h
  · exact (insertBlock_of_notMem h hv).2.1

theorem insertBlock_frame (h : store.Sound) (value : IndexedBlock) :
    (store.insertBlock value).2.config = store.config ∧
      (store.insertBlock value).2.tx = store.tx ∧
      (store.insertBlock value).2.txOrder = store.txOrder ∧
      (store.insertBlock value).2.matches = store.matches := by
  rw [insertBlock]
  split
  case isTrue => exact ⟨rfl, rfl, rfl, rfl⟩
  case isFalse hv =>
    have hpush : Indexes IndexedBlock.hash (store.pushBlock value).blockOrder
      (store.pushBlock value).blocks := h.blocks.push hv
    rw [trimBlocks_eq hpush, foldl_evictBlock]
    exact ⟨rfl, rfl, rfl, rfl⟩

theorem foldl_evictMatch (gone : List IndexedMatch) (store : MemoryStore) :
    ∃ evictions, gone.foldl (fun store value => evictMatch value store) store =
      { store with pendingEvictions := evictions } := by
  induction gone generalizing store with
  | nil => exact ⟨store.pendingEvictions, rfl⟩
  | cons value gone ih => exact ih _

/-- The last matches stay, and nothing else changes but the list of evictions. -/
theorem insertMatch_eq (store : MemoryStore) (value : IndexedMatch) :
    ∃ evictions, store.insertMatch value =
      { store with
        «matches» := keepLast store.config.maxMatches (store.matches ++ [value])
        pendingEvictions := evictions } := by
  rw [insertMatch, trimMatches, drainWhile_eq store.config.maxMatches
    fun _ s => s.config = store.config]
  · obtain ⟨evictions, hgone⟩ := foldl_evictMatch
      (pastLast store.config.maxMatches (store.matches ++ [value]))
      { store with «matches» := store.matches ++ [value] }
    exact ⟨evictions, by rw [hgone]⟩
  · intro value rest s hs
    exact hs
  · intro queue s hs
    rw [hs]
  · rfl

theorem Sound.insertMatch (h : store.Sound) (value : IndexedMatch) :
    (store.insertMatch value).Sound := by
  obtain ⟨evictions, heq⟩ := insertMatch_eq store value
  rw [heq]
  exact ⟨h.transactions, h.blocks, h.transactions_le, h.blocks_le, length_keepLast _ _⟩

/-! ## Purging and taking back -/

theorem removeMatchesForTransactions_eq (items : List IndexedMatch) (ids : List String) :
    removeMatchesForTransactions items ids =
      items.filter fun item => decide (item.txid ∉ ids) := by
  cases ids with
  | nil => simp [removeMatchesForTransactions]
  | cons id ids => rfl

theorem retain_notMem_nil (m : KeyedMap String IndexedTransaction) :
    m.retain (fun id _ => decide (id ∉ ([] : List String))) = m :=
  (KeyedMap.foldl_erase m []).symm

/-- Older than the time to live. -/
def hasExpired (ttl nowMs : UInt64) (transaction : IndexedTransaction) : Bool :=
  !decide (saturatingSub nowMs transaction.observedAtMs ≤ ttl)

/-- What is purged is the front of the queue, as far as it has expired. -/
theorem purgeExpired_split (h : store.Sound) (nowMs : UInt64) :
    ∃ expired kept, store.txOrder = expired ++ kept ∧
      store.purgeExpired nowMs = (expired, { store with
        tx := store.tx.retain fun id _ => decide (id ∉ expired)
        txOrder := kept
        «matches» := store.matches.filter fun item => decide (item.txid ∉ expired) }) ∧
      (store.config.transactionTtlMs ≠ 0 →
        (∀ id ∈ expired, ∀ transaction, store.tx.lookup id = some transaction →
          hasExpired store.config.transactionTtlMs nowMs transaction = true) ∧
        ∀ id ∈ kept.head?, ∀ transaction, store.tx.lookup id = some transaction →
          hasExpired store.config.transactionTtlMs nowMs transaction = false) := by
  rw [purgeExpired]
  split
  case isTrue hzero =>
    refine ⟨[], store.txOrder, rfl, ?_, fun httl => absurd hzero httl⟩
    rw [retain_notMem_nil]
    simp
  case isFalse =>
    -- the loop ties the drained store to the ids it has dropped, and each of them was expired at the
    -- start
    have htied := drainWhile_keeps
      (frontExpired store.config.transactionTtlMs nowMs) dropExpired
      (fun queue s => store.txOrder = s.2 ++ queue ∧
        s.1 = { store with tx := store.tx.retain fun id _ => decide (id ∉ s.2) } ∧
        ∀ id ∈ s.2, ∀ transaction, store.tx.lookup id = some transaction →
          hasExpired store.config.transactionTtlMs nowMs transaction = true)
      ?_ store.txOrder (store, []) ⟨rfl, ?_, by simp⟩
    · have hstops := drainWhile_stops (frontExpired store.config.transactionTtlMs nowMs) dropExpired
        store.txOrder (store, [])
      generalize drainWhile _ dropExpired store.txOrder (store, []) = drained at htied hstops
      obtain ⟨kept, after, expired⟩ := drained
      obtain ⟨hsplit, hstore, hexpired⟩ := htied
      refine ⟨expired, kept, hsplit, ?_, fun _ => ⟨hexpired, fun id hid transaction hlookup => ?_⟩⟩
      · dsimp only at hstore ⊢
        rw [hstore, removeMatchesForTransactions_eq]
      · cases kept with
        | nil => cases hid
        | cons front kept =>
          obtain rfl : front = id := Option.some.inj hid
          have hkept : front ∉ expired := fun hmem =>
            (List.nodup_append.mp (hsplit ▸ h.transactions.nodup)).2.2 front hmem front (by simp) rfl
          have hafter : after.tx.lookup front = some transaction := by
            dsimp only at hstore
            rw [hstore]
            exact KeyedMap.lookup_retain.mpr ⟨hlookup, decide_eq_true hkept⟩
          have hwithin := hstops.resolve_left (by simp)
          simp only [frontExpired, hafter] at hwithin
          exact hwithin
    · intro id rest s hs hfront
      obtain ⟨s, expired⟩ := s
      obtain ⟨hsplit, hstore, hexpired⟩ := hs
      have hindexes := (Indexes.discard expired (id :: rest) (hsplit ▸ h.transactions)).1
      obtain ⟨transaction, hlookup⟩ :=
        Finmap.mem_iff.mp ((hindexes.mem_iff id).mp List.mem_cons_self)
      dsimp only at hstore hsplit hexpired
      rw [frontExpired, hstore, hlookup] at hfront
      rw [dropExpired, hstore, hlookup]
      refine ⟨by rw [hsplit, List.append_assoc]; rfl, ?_, ?_⟩
      · dsimp only
        rw [← KeyedMap.foldl_erase, ← KeyedMap.foldl_erase, List.foldl_append]
        rfl
      · intro purged hpurged other hother
        obtain hpurged | hpurged := List.mem_append.mp hpurged
        · exact hexpired purged hpurged other hother
        · rw [List.mem_singleton.mp hpurged, (KeyedMap.lookup_retain.mp hlookup).1] at hother
          cases hother
          exact hfront
    · rw [retain_notMem_nil]

/-- What has expired is the front of the queue, and goes with its matches. -/
theorem purgeExpired_spec (h : store.Sound) (nowMs : UInt64) :
    ∃ expired kept, store.txOrder = expired ++ kept ∧
      store.purgeExpired nowMs = (expired, { store with
        tx := store.tx.retain fun id _ => decide (id ∉ expired)
        txOrder := kept
        «matches» := store.matches.filter fun item => decide (item.txid ∉ expired) }) := by
  obtain ⟨expired, kept, hsplit, heq, _⟩ := purgeExpired_split h nowMs
  exact ⟨expired, kept, hsplit, heq⟩

/-- The ids that are purged are those of the transactions at the front that have expired. -/
theorem purgeExpired_records (h : store.Sound) (nowMs : UInt64)
    (httl : store.config.transactionTtlMs ≠ 0) :
    (store.purgeExpired nowMs).1 =
        (store.allTransactions.takeWhile (hasExpired store.config.transactionTtlMs nowMs)).map
          IndexedTransaction.txid ∧
      (store.purgeExpired nowMs).2.allTransactions =
        store.allTransactions.dropWhile (hasExpired store.config.transactionTtlMs nowMs) := by
  obtain ⟨expired, kept, hsplit, heq, hfront⟩ := purgeExpired_split h nowMs
  obtain ⟨hexpired, hkept⟩ := hfront httl
  have hindexes : Indexes IndexedTransaction.txid (expired ++ kept) store.tx :=
    hsplit ▸ h.transactions
  have hmem : ∀ id ∈ expired, id ∈ store.tx := fun id hid =>
    (hindexes.mem_iff id).mp (List.mem_append_left _ hid)
  have hids := hindexes.map_key_of_mem hmem
  have hall : store.allTransactions = records expired store.tx ++ records kept store.tx := by
    rw [allTransactions, hsplit, records, List.filterMap_append]
    rfl
  have hgone : ∀ tx ∈ records expired store.tx,
      hasExpired store.config.transactionTtlMs nowMs tx = true := by
    intro tx htx
    obtain ⟨id, hid, hlookup⟩ := List.mem_filterMap.mp htx
    exact hexpired id hid tx hlookup
  have hstay : ∀ tx ∈ (records kept store.tx).head?,
      hasExpired store.config.transactionTtlMs nowMs tx = false := by
    intro tx htx
    cases kept with
    | nil => cases htx
    | cons id kept =>
      obtain ⟨front, hlookup⟩ := Finmap.mem_iff.mp
        ((hindexes.mem_iff id).mp (List.mem_append_right _ List.mem_cons_self))
      rw [records, List.filterMap_cons_some (f := fun k => store.tx.lookup k) hlookup] at htx
      exact hkept id rfl tx (hlookup.trans htx)
  have hafter : (store.purgeExpired nowMs).2.allTransactions = records kept store.tx := by
    have hdrop := (Indexes.discard expired kept hindexes).2
    have hlen : expired.length = (records expired store.tx).length := by
      rw [← List.length_map IndexedTransaction.txid, hids]
    rw [heq, allTransactions]
    refine hdrop.trans ?_
    rw [← hsplit, ← allTransactions, hall, hlen, List.drop_left]
  rw [hafter, heq, hall, List.takeWhile_append_of_pos hgone, List.dropWhile_append_of_pos hgone]
  generalize records kept store.tx = rest at hstay
  cases rest with
  | nil => simpa using hids.symm
  | cons front rest =>
    rw [List.takeWhile_cons_of_neg (by simp [hstay front rfl]),
      List.dropWhile_cons_of_neg (by simp [hstay front rfl]), List.append_nil, hids]
    exact ⟨rfl, rfl⟩

theorem Sound.purgeExpired (h : store.Sound) (nowMs : UInt64) :
    (store.purgeExpired nowMs).2.Sound := by
  obtain ⟨expired, kept, hsplit, heq⟩ := purgeExpired_spec h nowMs
  have hkept : kept.length ≤ store.txOrder.length := by
    rw [hsplit, List.length_append]
    omega
  rw [heq]
  exact ⟨(Indexes.discard expired kept (hsplit ▸ h.transactions)).1, h.blocks,
    hkept.trans h.transactions_le, h.blocks_le, (List.length_filter_le _ _).trans h.matches_le⟩

/-- Nothing is purged when the oldest transaction has not expired. -/
theorem purgeExpired_of_fresh {nowMs : UInt64}
    (h : store.config.transactionTtlMs = 0 ∨
      frontExpired store.config.transactionTtlMs nowMs store.txOrder (store, []) = false) :
    store.purgeExpired nowMs = ([], store) := by
  rw [purgeExpired]
  split
  case isTrue => rfl
  case isFalse httl =>
    rw [drainWhile_of_within (h.resolve_left httl)]
    rfl

/-- What the blocks taken back leave. -/
theorem removeChainBlocks_spec (h : store.Sound) (removed : List String) :
    (store.removeChainBlocks removed).2.Sound ∧
      (store.removeChainBlocks removed).2.allTransactions =
        store.allTransactions.filter (fun tx => !orphaned removed tx) ∧
      (store.removeChainBlocks removed).2.allBlocks =
        store.allBlocks.filter (fun block => decide (block.hash ∉ removed)) ∧
      (store.removeChainBlocks removed).2.matches =
        store.matches.filter (fun item => !(store.tx.lookup item.txid).any (orphaned removed)) ∧
      (store.removeChainBlocks removed).2.config = store.config := by
  rw [removeChainBlocks]
  cases removed with
  | nil =>
    have hnone : orphaned [] = fun _ => false := by
      funext tx
      simp [orphaned]
    refine ⟨h, ?_, ?_, ?_, rfl⟩
    · simp [hnone]
    · simp
    · simp [hnone]
  | cons hash removed =>
    have hmem : ∀ txid, txid ∈ (store.tx.retain fun _ tx => orphaned (hash :: removed) tx).keys ↔
        (store.tx.lookup txid).any (orphaned (hash :: removed)) = true := by
      intro txid
      rw [Finmap.mem_keys, KeyedMap.mem_retain, Option.any_eq_true]
    generalize (store.tx.retain fun _ tx => orphaned (hash :: removed) tx).keys = gone at hmem
    rw [if_neg (by simp)]
    refine ⟨⟨h.transactions.retain _, h.blocks.retain _,
      (List.length_filter_le _ _).trans h.transactions_le,
      (List.length_filter_le _ _).trans h.blocks_le,
      (List.length_filter_le _ _).trans h.matches_le⟩, ?_, ?_, ?_, rfl⟩
    · refine (h.transactions.records_retain _).trans (List.filter_congr ?_)
      intro tx htx
      have hlookup := h.transactions.mem_records.mp htx
      have hgone := hmem tx.txid
      rw [hlookup, Option.any_some] at hgone
      cases horphaned : orphaned (hash :: removed) tx <;> simp [hgone, horphaned]
    · exact h.blocks.records_retain _
    · apply List.filter_congr
      intro item _
      have hgone := hmem item.txid
      cases hany : (store.tx.lookup item.txid).any (orphaned (hash :: removed)) <;>
        simp [hgone, hany]

/-- The counts of what was taken back are what the store has less of. -/
theorem removeChainBlocks_counts (store : MemoryStore) (removed : List String) :
    (store.removeChainBlocks removed).1 =
      (store.blocks.len - (store.removeChainBlocks removed).2.blocks.len,
        store.tx.len - (store.removeChainBlocks removed).2.tx.len,
        store.matches.length - (store.removeChainBlocks removed).2.matches.length) := by
  rw [removeChainBlocks]
  split
  case isTrue => simp
  case isFalse => rfl

/-! ## One insertion in the queue -/

theorem Sound.mem_tx_iff (h : store.Sound) (id : String) : id ∈ store.tx ↔ id ∈ store.txOrder :=
  (h.transactions.mem_iff id).symm

/-- One insertion, in terms of the queue of ids. -/
theorem insertTransaction_order (h : store.Sound) (value : IndexedTransaction) :
    (store.insertTransaction value).2.Sound ∧
      (store.insertTransaction value).2.txOrder =
        pushKey store.config.maxTransactions store.txOrder value.txid := by
  by_cases hv : value.txid ∈ store.tx
  · rw [insertTransaction_of_mem hv, pushKey, if_pos ((h.mem_tx_iff _).mp hv)]
    exact ⟨h, rfl⟩
  · obtain ⟨-, hsound, hrecords, -⟩ := insertTransaction_of_notMem h hv
    refine ⟨hsound, ?_⟩
    rw [← hsound.txids, hrecords, map_keepLast, List.map_append, h.txids, pushKey,
      if_neg fun hmem => hv ((h.mem_tx_iff _).mpr hmem)]
    rfl

/-- With room for it, a new transaction goes to the back and nothing else changes. -/
theorem insertTransaction_of_room (h : store.Sound) {value : IndexedTransaction}
    (hv : value.txid ∉ store.tx) (hroom : store.txOrder.length < store.config.maxTransactions) :
    (store.insertTransaction value).2.allTransactions = store.allTransactions ++ [value] ∧
      (store.insertTransaction value).2.matches = store.matches := by
  obtain ⟨-, -, hrecords, hmatches⟩ := insertTransaction_of_notMem h hv
  rw [hrecords, hmatches, pastLast_of_le, keepLast_of_le]
  · simp
  · rw [List.length_append, allTransactions, h.transactions.length_records]
    exact hroom
  · rw [List.length_append]
    exact hroom

theorem insertBlock_of_room (h : store.Sound) {value : IndexedBlock}
    (hv : value.hash ∉ store.blocks) (hroom : store.blockOrder.length < store.config.maxBlocks) :
    (store.insertBlock value).2.allBlocks = store.allBlocks ++ [value] := by
  obtain ⟨-, -, hrecords⟩ := insertBlock_of_notMem h hv
  rw [hrecords, keepLast_of_le]
  rw [List.length_append, allBlocks, h.blocks.length_records]
  exact hroom

end MemoryStore

/-! ## The window of recent keys -/

namespace RecentKeys

/-- The set holds the keys of the queue, each queued once, within the capacity. -/
structure Sound (keys : RecentKeys) : Prop where
  nodup : keys.order.Nodup
  mem_iff : ∀ key, key ∈ keys.set ↔ key ∈ keys.order
  length_le : keys.order.length ≤ keys.capacity

theorem clear_sound (keys : RecentKeys) : keys.clear.Sound where
  nodup := List.nodup_nil
  mem_iff _ := by simp [clear]
  length_le := Nat.zero_le _

theorem new_sound (capacity : Nat) : (new capacity).Sound := clear_sound (new capacity)

theorem mem_foldl_erase (set : Finset String) (gone : List String) (key : String) :
    key ∈ gone.foldl (fun set key => set.erase key) set ↔ key ∈ set ∧ key ∉ gone := by
  induction gone generalizing set with
  | nil => simp
  | cons g gone ih =>
    rw [List.foldl_cons, ih, Finset.mem_erase, List.mem_cons, not_or]
    tauto

/-- Observing a key queues it, and drops what is past the capacity. -/
theorem observe_spec {keys : RecentKeys} (h : keys.Sound) (key : String) :
    (keys.observe key).1 = decide (key ∉ keys.order) ∧
      (keys.observe key).2.Sound ∧
      (keys.observe key).2.order = pushKey keys.capacity keys.order key ∧
      (keys.observe key).2.capacity = keys.capacity := by
  by_cases hkey : key ∈ keys.set
  · have horder := (h.mem_iff key).mp hkey
    rw [observe, if_pos hkey, pushKey, if_pos horder]
    exact ⟨by simp [horder], h, rfl, rfl⟩
  · have horder : key ∉ keys.order := fun hmem => hkey ((h.mem_iff key).mpr hmem)
    have hsplit := pastLast_append_keepLast keys.capacity (keys.order ++ [key])
    have hnodup : (keys.order ++ [key]).Nodup := by
      rw [← List.concat_eq_append]
      exact h.nodup.concat horder
    rw [observe, if_neg hkey, pushKey, if_neg horder, trim, drainWhile_eq keys.capacity
      (fun _ _ => True) (fun _ _ _ _ => trivial) (fun _ _ _ => rfl) _ _ trivial]
    rw [← hsplit] at hnodup
    refine ⟨by simp [horder], ⟨(List.nodup_append.mp hnodup).2.1, ?_, length_keepLast _ _⟩, rfl, rfl⟩
    intro k
    have hmem : k ∈ keys.order ++ [key] ↔
        k ∈ pastLast keys.capacity (keys.order ++ [key]) ∨
          k ∈ keepLast keys.capacity (keys.order ++ [key]) := by
      rw [← List.mem_append, hsplit]
    have hdisjoint : k ∈ pastLast keys.capacity (keys.order ++ [key]) →
        k ∉ keepLast keys.capacity (keys.order ++ [key]) :=
      fun hgone hkept => (List.nodup_append.mp hnodup).2.2 k hgone k hkept rfl
    rw [mem_foldl_erase, Finset.mem_insert, h.mem_iff]
    rw [List.mem_append, List.mem_singleton] at hmem
    tauto

end RecentKeys

end KaspaPortal.Indexer
