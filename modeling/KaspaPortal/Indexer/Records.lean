import KaspaPortal.Lib.Bytes
import KaspaPortal.Lib.Saturating

/-!
# What the indexer is configured with, receives and keeps

`indexer/config.rs`, `event.rs`, `matcher/mod.rs`, `scanner/mod.rs`, `sync/mod.rs` and
the records of `storage`. The untyped `raw` value a record may carry is left out.
-/
namespace KaspaPortal.Indexer
open Lib

/-! ## Configuration -/

/-- Which records are kept. All are matched, whatever is kept. -/
inductive IndexingMode where
  | all
  | transactions
  | «matches»
  | blocks
  | custom (transactions «matches» blocks : Bool)
  deriving DecidableEq, Repr

namespace IndexingMode

def retainsTransactions : IndexingMode → Bool
  | all | transactions => true
  | «matches» | blocks => false
  | custom retained _ _ => retained

def retainsMatches : IndexingMode → Bool
  | all | «matches» => true
  | transactions | blocks => false
  | custom _ retained _ => retained

def retainsBlocks : IndexingMode → Bool
  | all | blocks => true
  | transactions | «matches» => false
  | custom _ _ retained => retained

/-- A transaction that matched is kept wherever matches are. -/
def retainsTransaction (mode : IndexingMode) (isMatch : Bool) : Bool :=
  mode.retainsTransactions || (mode.retainsMatches && isMatch)

/-- A mode that keeps a match keeps its transaction. -/
theorem retainsTransaction_of_match {mode : IndexingMode} (h : mode.retainsMatches = true) :
    mode.retainsTransaction true = true := by
  rw [retainsTransaction, h, Bool.and_true, Bool.or_true]

end IndexingMode

/-- The limits of the store and the windows of its caches. -/
structure IndexerConfig where
  mode : IndexingMode
  maxTransactions : Nat
  maxBlocks : Nat
  maxMatches : Nat
  dedupeWindow : Nat
  scannerStaleAfterMs : UInt64
  transactionTtlMs : UInt64
  maxPayloadBytes : Nat
  maxAddressesPerTransaction : Nat
  maxQueryPage : Nat
  deriving DecidableEq, Repr

/-- No limit may be zero, or above its safety bound. -/
def validateLimits (config : IndexerConfig) : Except String Unit :=
  if config.maxTransactions = 0 ∨ config.maxBlocks = 0 ∨ config.maxMatches = 0 then
    .error "index limits must be > 0"
  else if config.maxTransactions > 1000000 then
    .error "max_transactions exceeds hard safety bound"
  else if config.maxBlocks > 100000 then .error "max_blocks exceeds hard safety bound"
  else if config.maxMatches > 1000000 then .error "max_matches exceeds hard safety bound"
  else .ok ()

def IndexerConfig.validate (config : IndexerConfig) : Except String Unit :=
  match validateLimits config with
  | .error error => .error error
  | .ok () =>
    if config.dedupeWindow = 0 ∨ config.dedupeWindow > 1000000 then
      .error "dedupe_window must be 1..=1000000"
    else if config.scannerStaleAfterMs = 0 ∨ config.scannerStaleAfterMs > 86400000 then
      .error "scanner_stale_after_ms must be 1..=86400000"
    else if ¬(1 ≤ config.maxQueryPage ∧ config.maxQueryPage ≤ 4096) then
      .error "max_query_page must be 1..=4096"
    else if config.maxPayloadBytes > 1048576 then .error "max_payload_bytes exceeds 1 MiB"
    else if config.maxAddressesPerTransaction > 4096 then
      .error "max_addresses_per_transaction exceeds hard safety bound"
    else .ok ()

/-- What a checked configuration promises about the limits of the store. -/
structure IndexerConfig.Bounded (config : IndexerConfig) : Prop where
  transactions_pos : 0 < config.maxTransactions
  blocks_pos : 0 < config.maxBlocks
  matches_pos : 0 < config.maxMatches
  transactions_le : config.maxTransactions ≤ 1000000
  blocks_le : config.maxBlocks ≤ 100000
  matches_le : config.maxMatches ≤ 1000000

/-- What the checks of a configuration amount to. -/
theorem IndexerConfig.bounded_of_validate {config : IndexerConfig}
    (h : config.validate = .ok ()) : config.Bounded := by
  have hlimits : validateLimits config = .ok () := by
    rw [validate] at h
    cases hl : validateLimits config with
    | error error =>
      rw [hl] at h
      cases h
    | ok u => rfl
  rw [validateLimits] at hlimits
  split at hlimits
  · cases hlimits
  split at hlimits
  · cases hlimits
  split at hlimits
  · cases hlimits
  split at hlimits
  · cases hlimits
  constructor <;> omega

/-- The smallest limits a configuration may have, with nothing expiring. -/
def IndexerConfig.smallest : IndexerConfig where
  mode := .all
  maxTransactions := 1
  maxBlocks := 1
  maxMatches := 1
  dedupeWindow := 1
  scannerStaleAfterMs := 1
  transactionTtlMs := 0
  maxPayloadBytes := 0
  maxAddressesPerTransaction := 1
  maxQueryPage := 1

example : IndexerConfig.smallest.validate = .ok () := by decide

/-! ## Records and events -/

/-- A transaction as the node reports it. -/
structure IndexedTransaction where
  txid : String
  blockHash : Option String
  daaScore : Option UInt64
  observedAtMs : UInt64
  addresses : List String
  payload : Bytes
  deriving DecidableEq, Repr

/-- A block with the ids of its transactions. -/
structure IndexedBlock where
  hash : String
  daaScore : Option UInt64
  observedAtMs : UInt64
  txids : List String
  deriving DecidableEq, Repr

/-- A match names its matcher and its transaction, and carries neither. -/
structure IndexedMatch where
  matcherId : UInt64
  txid : String
  observedAtMs : UInt64
  deriving DecidableEq, Repr

inductive IndexerEvent where
  | transaction (txid : String)
  | block (hash : String)
  | «match» (matcherId : UInt64) (txid : String)
  | evicted (evictionKind : String) (id : String)
  | reconciled (removedBlocks acceptedBlocks : Nat)
  | checkpoint (virtualDaaScore : Option UInt64) (blockHash : Option String)
  deriving DecidableEq, Repr

/-- Unicode's `White_Space`. -/
def isWhitespace (c : Char) : Bool :=
  (9 ≤ c.toNat && c.toNat ≤ 13) || c.toNat == 0x20 || c.toNat == 0x85 || c.toNat == 0xA0 ||
    c.toNat == 0x1680 || (0x2000 ≤ c.toNat && c.toNat ≤ 0x200A) || c.toNat == 0x2028 ||
    c.toNat == 0x2029 || c.toNat == 0x202F || c.toNat == 0x205F || c.toNat == 0x3000

/-- The source's `trim().is_empty()`. -/
def blank (text : String) : Bool := text.toList.all isWhitespace

/-! ## Matchers -/

/-- What a matcher looks for. -/
inductive MatchRule where
  | address (value : String)
  | payloadPrefix (value : Bytes)
  | payloadContains (value : Bytes)
  | payloadExact (value : Bytes)
  | payloadSuffix (value : Bytes)
  deriving DecidableEq, Repr

/-- An empty pattern would match everything. -/
def validatePayloadMatcher (value : Bytes) : Except String Unit :=
  if value.isEmpty then .error "payload matcher cannot be empty"
  else if value.length > 4096 then .error "payload matcher exceeds 4096 bytes"
  else .ok ()

/-- Some window of `haystack` is `needle`. -/
def contains (haystack needle : Bytes) : Bool :=
  decide (needle.length ≤ haystack.length) &&
    (List.range (haystack.length - needle.length + 1)).any fun start =>
      (haystack.drop start).take needle.length == needle

namespace MatchRule

def validate : MatchRule → Except String Unit
  | address value => if blank value then .error "address matcher cannot be empty" else .ok ()
  | payloadPrefix value | payloadContains value | payloadExact value | payloadSuffix value =>
    validatePayloadMatcher value

def «matches» : MatchRule → IndexedTransaction → Bool
  | address value, transaction => transaction.addresses.any (· == value)
  | payloadPrefix value, transaction => value.isPrefixOf transaction.payload
  | payloadContains value, transaction => contains transaction.payload value
  | payloadExact value, transaction => transaction.payload == value
  | payloadSuffix value, transaction => value.isSuffixOf transaction.payload

end MatchRule

/-- A rule under the id the engine gave it. -/
structure Matcher where
  id : UInt64
  rule : MatchRule
  deriving DecidableEq, Repr

/-- The order of matchers by id. -/
def Matcher.idLe (a b : Matcher) : Prop := a.id ≤ b.id

instance Matcher.decidableIdLe : DecidableRel Matcher.idLe :=
  fun a b => inferInstanceAs (Decidable (a.id ≤ b.id))

/-- The matches of a transaction, in the order of the matchers. -/
def scan (transaction : IndexedTransaction) (matchers : List Matcher) : List IndexedMatch :=
  (matchers.filter fun matcher => matcher.rule.matches transaction).map fun matcher =>
    { matcherId := matcher.id, txid := transaction.txid, observedAtMs := transaction.observedAtMs }

/-- A match is of this transaction, by a matcher of the table. -/
theorem mem_scan {transaction : IndexedTransaction} {matchers : List Matcher} {item : IndexedMatch}
    (h : item ∈ scan transaction matchers) :
    item.txid = transaction.txid ∧
      ∃ matcher ∈ matchers, item.matcherId = matcher.id ∧ matcher.rule.matches transaction := by
  obtain ⟨matcher, hmatcher, rfl⟩ := List.mem_map.mp h
  obtain ⟨hmem, hmatches⟩ := List.mem_filter.mp hmatcher
  exact ⟨rfl, matcher, hmem, rfl, hmatches⟩

/-! ## Deliveries from a node -/

/-- A block with its transactions, as they are synced. -/
structure BlockBatch where
  block : IndexedBlock
  transactions : List IndexedTransaction
  deriving DecidableEq, Repr

structure BlockScanReport where
  blockHash : String
  transactionsScanned : Nat
  «matches» : List IndexedMatch
  deriving DecidableEq, Repr

/-- How far the index has come. -/
structure SyncCheckpoint where
  virtualDaaScore : Option UInt64
  blockHash : Option String
  deriving DecidableEq, Repr

def SyncCheckpoint.default : SyncCheckpoint where
  virtualDaaScore := none
  blockHash := none

def SyncCheckpoint.validate (checkpoint : SyncCheckpoint) : Except String Unit :=
  if checkpoint.blockHash.any blank then .error "checkpoint block hash cannot be empty" else .ok ()

structure SyncReport where
  transactionsAdded : UInt64
  blocksAdded : UInt64
  matchesAdded : UInt64
  checkpoint : SyncCheckpoint
  deriving DecidableEq, Repr

/-- What a reorganisation removes and adds. -/
structure VirtualChainDelta where
  removedBlockHashes : List String
  accepted : List BlockBatch
  checkpoint : SyncCheckpoint
  deriving DecidableEq, Repr

def VirtualChainDelta.validate (delta : VirtualChainDelta) : Except String Unit :=
  match delta.checkpoint.validate with
  | .error error => .error error
  | .ok () =>
    if delta.removedBlockHashes.any blank then
      .error "virtual-chain delta contains an empty removed block hash"
    else if delta.removedBlockHashes.length > 100000 ∨ delta.accepted.length > 100000 then
      .error "virtual-chain delta exceeds hard safety bound"
    else .ok ()

structure ReconciliationReport where
  removedBlocks : Nat
  removedTransactions : Nat
  removedMatches : Nat
  addedBlocks : Nat
  addedTransactions : Nat
  addedMatches : Nat
  checkpoint : SyncCheckpoint
  deriving DecidableEq, Repr

/-! ## What is saved -/

/-- The records of a store. -/
structure IndexerSnapshot where
  transactions : List IndexedTransaction
  blocks : List IndexedBlock
  «matches» : List IndexedMatch
  deriving DecidableEq, Repr

def indexerStateSchema : UInt32 := 1

/-- What is saved of an engine. Counters are not among it. -/
structure PersistedIndexerState where
  schema : UInt32
  snapshot : IndexerSnapshot
  checkpoint : SyncCheckpoint
  matchers : List Matcher
  deriving DecidableEq, Repr

def PersistedIndexerState.new (snapshot : IndexerSnapshot) (checkpoint : SyncCheckpoint)
    (matchers : List Matcher) : PersistedIndexerState where
  schema := indexerStateSchema
  snapshot := snapshot
  checkpoint := checkpoint
  matchers := matchers

/-- The two kinds of error the indexer reports. -/
inductive Error where
  | indexer (text : String)
  | storage (text : String)
  deriving DecidableEq, Repr

def Error.toText : Error → String
  | indexer text => "indexer error: " ++ text
  | storage text => "storage error: " ++ text

/-- Other schemas are refused. -/
def PersistedIndexerState.validateSchema (state : PersistedIndexerState) : Except Error Unit :=
  if state.schema = indexerStateSchema then .ok ()
  else .error <| .storage ("unsupported indexer state schema " ++ toString state.schema ++ " (expected " ++
    toString indexerStateSchema ++ ")")

end KaspaPortal.Indexer
