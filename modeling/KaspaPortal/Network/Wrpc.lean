import KaspaPortal.Lib.Bytes
import KaspaPortal.Lib.Result
import KaspaPortal.Primitives.Hex

/-!
# Kaspa wRPC frames

`src/network/wrpc/` as the native client builds it: the operations, the request and response
encodings, and `validate_response` of `src/platform/native/websocket_io.rs`. The text of a remote
error is kept as its bytes. The UTXO entries of a payload are those of `src/network/codec/responses/utxo.rs`,
read as `src/network/codec/primitives/reader.rs` does; a reader is what is left to read.

The other decoders of responses are left out, and so is the encoding of the requests' own payloads.
-/
namespace KaspaPortal.Network
open Lib Primitives

/-- What a request can fail with. -/
inductive NetworkError where
  | invalidUrl
  | connectionFailed (reason : String)
  | connectTimeout
  | responseTimeout
  | sendFailed
  | unexpectedResponse (reason : String)
  | mismatchedRequestId (expected actual : UInt64)
  | mismatchedOperation (expected actual : UInt8)
  | remoteError (code : UInt8) (reason : Bytes)
  | truncatedPayload
  | invalidLength
  | invalidEncoding (reason : String)
  deriving DecidableEq, Repr

/-- The calls of the client. -/
inductive Operation where
  | subscribe
  | submitTransaction
  | getBlock
  | getBlocks
  | getBlockDagInfo
  | getUtxosByAddresses
  | getFeeEstimate
  deriving DecidableEq, Repr

/-- The code of a call on the wire. -/
def Operation.code : Operation → UInt8
  | .subscribe => 3
  | .submitTransaction => 125
  | .getBlock => 126
  | .getBlocks => 129
  | .getBlockDagInfo => 131
  | .getUtxosByAddresses => 135
  | .getFeeEstimate => 147

def Operation.fromCode (code : UInt8) : Option Operation :=
  if code = 3 then some .subscribe
  else if code = 125 then some .submitTransaction
  else if code = 126 then some .getBlock
  else if code = 129 then some .getBlocks
  else if code = 131 then some .getBlockDagInfo
  else if code = 135 then some .getUtxosByAddresses
  else if code = 147 then some .getFeeEstimate
  else none

/-! ## Requests -/

structure WrpcRequest where
  id : UInt64
  operation : Operation
  payload : Bytes

/-- The number, the operation, and the payload behind its length. -/
def WrpcRequest.encode (request : WrpcRequest) : Except NetworkError Bytes :=
  if request.payload.length < 2 ^ 32 then
    .ok ([1] ++ leBytes 8 request.id.toNat ++ [request.operation.code] ++
      leBytes 4 request.payload.length ++ request.payload)
  else .error .invalidLength

/-! ## Responses -/

/-- Code zero is success and the last code a notification; all others are errors. -/
inductive ResponseKind where
  | success
  | error (code : UInt8)
  | notification
  deriving DecidableEq, Repr

/-- A response before it is matched with a call. -/
structure WrpcResponse where
  id : Option UInt64
  operation : Option Operation
  rawOperation : Option UInt8
  kind : ResponseKind
  payload : Bytes

/-- The next bytes, or the error that the payload is cut short. -/
def readExact (length : Nat) (data : Bytes) : Except NetworkError (Bytes × Bytes) :=
  if data.length < length then .error .truncatedPayload
  else .ok (data.take length, data.drop length)

def readU8 : Bytes → Except NetworkError (UInt8 × Bytes)
  | [] => .error .truncatedPayload
  | byte :: rest => .ok (byte, rest)

/-- A tag says whether the number follows. -/
def readOptionalId (data : Bytes) : Except NetworkError (Option UInt64 × Bytes) := do
  let (tag, rest) ← readU8 data
  if tag = 0 then return (none, rest)
  else if tag = 1 then
    let (value, rest) ← readExact 8 rest
    return (some (UInt64.ofNat (leNat value)), rest)
  else throw (.invalidEncoding s!"invalid response id tag {tag}")

def readOptionalOperation (data : Bytes) : Except NetworkError (Option UInt8 × Bytes) := do
  let (tag, rest) ← readU8 data
  if tag = 0 then return (none, rest)
  else if tag = 1 then
    let (code, rest) ← readU8 rest
    return (some code, rest)
  else throw (.invalidEncoding s!"invalid operation tag {tag}")

def responseKind (code : UInt8) : ResponseKind :=
  if code = 0 then .success else if code = 0xff then .notification else .error code

/-- The fields of a response in the order they are sent. -/
def decodeResponse (data : Bytes) : Except NetworkError WrpcResponse := do
  let (id, rest) ← readOptionalId data
  let (kind, rest) ← readU8 rest
  let (rawOperation, rest) ← readOptionalOperation rest
  return ⟨id, rawOperation.bind Operation.fromCode, rawOperation, responseKind kind, rest⟩

/-- `error_payload::decode`, before the lossy reading as text. -/
def errorReason (payload : Bytes) : Bytes :=
  let length := leNat ((payload.drop 6).take 4)
  if 10 < payload.length ∧ 10 + length ≤ payload.length then (payload.drop 10).take length
  else payload

/-- A response is for a call when its number is the call's, its operation, if it names one, is the
call's, and its kind is success. -/
def validateResponse (frame : Bytes) (expectedId : UInt64) (expectedOperation : Operation) :
    Except NetworkError Bytes := do
  let decoded ← decodeResponse frame
  match decoded.id with
  | none => throw (.unexpectedResponse
      "Kaspa notification received where RPC response was required")
  | some actual =>
    if actual ≠ expectedId then throw (.mismatchedRequestId expectedId actual)
    else if decoded.rawOperation.isSome ∧ decoded.operation ≠ some expectedOperation then
      throw (.mismatchedOperation expectedOperation.code (decoded.rawOperation.getD 0))
    else
      match decoded.kind with
      | .success => return decoded.payload
      | .error code => throw (.remoteError code (errorReason decoded.payload))
      | .notification => throw (.unexpectedResponse
          "Kaspa notification received where RPC response was required")

/-- A validated payload is that of a success frame with the request's id, whose operation is absent
or the request's. -/
theorem validateResponse_eq_ok {frame payload : Bytes} {id : UInt64} {operation : Operation}
    (h : validateResponse frame id operation = .ok payload) :
    ∃ decoded, decodeResponse frame = .ok decoded ∧ decoded.id = some id ∧
      decoded.kind = .success ∧
      (decoded.rawOperation = none ∨ decoded.operation = some operation) ∧
      decoded.payload = payload := by
  obtain ⟨decoded, hdecoded, h⟩ := bind_eq_ok.mp h
  refine ⟨decoded, hdecoded, ?_⟩
  split at h
  case h_1 => cases h
  case h_2 actual hid =>
    split at h
    case isTrue => cases h
    case isFalse hactual =>
      split at h
      case isTrue => cases h
      case isFalse hoperation =>
        have hoperation : decoded.rawOperation = none ∨ decoded.operation = some operation := by
          obtain hnone | hsome := decoded.rawOperation.eq_none_or_eq_some
          · exact .inl hnone
          · refine .inr (not_not.mp fun hne => hoperation ⟨?_, hne⟩)
            rw [hsome.choose_spec]
            rfl
        split at h
        case h_1 hkind =>
          cases h
          rw [hid, not_not.mp hactual]
          exact ⟨rfl, hkind, hoperation, rfl⟩
        case h_2 => cases h
        case h_3 => cases h

/-! ## UTXO entries -/

/-- 16 MiB. -/
def MAX_BLOB_BYTES : Nat := 16777216
/-- More entries than this are refused before the first is read. -/
def MAX_UTXOS : Nat := 1000000
/-- Version, transaction id and index. -/
def OUTPOINT_BYTES : Nat := 37
def SPENDABLE_SCRIPT_VERSION : UInt16 := 0
def RESPONSE_PRESENT : UInt8 := 1
def RESPONSE : String := "GetUtxosByAddressesResponse"

/-- The ids are hexadecimal text. -/
structure UtxoEntry where
  txId : Bytes
  index : UInt32
  amount : UInt64
  scriptPublicKey : Bytes
  blockDaaScore : UInt64
  covenantId : Option Bytes
  deriving DecidableEq, Repr

def readU16 (data : Bytes) : Except NetworkError (UInt16 × Bytes) := do
  let (value, rest) ← readExact 2 data
  return (UInt16.ofNat (leNat value), rest)

def readU32 (data : Bytes) : Except NetworkError (UInt32 × Bytes) := do
  let (value, rest) ← readExact 4 data
  return (UInt32.ofNat (leNat value), rest)

def readU64 (data : Bytes) : Except NetworkError (UInt64 × Bytes) := do
  let (value, rest) ← readExact 8 data
  return (UInt64.ofNat (leNat value), rest)

/-- Tags other than 0 and 1 are refused. -/
def readBool (data : Bytes) : Except NetworkError (Bool × Bytes) := do
  let (tag, rest) ← readU8 data
  if tag = 0 then return (false, rest)
  else if tag = 1 then return (true, rest)
  else throw (.invalidEncoding s!"invalid bool tag {tag}")

/-- The length is checked before the bytes are taken. -/
def readBytes (maximum : Nat) (data : Bytes) : Except NetworkError (Bytes × Bytes) := do
  let (length, rest) ← readU32 data
  if maximum < length.toNat then throw .invalidLength else readExact length.toNat rest

/-- Nothing may be left behind a value. -/
def requireConsumed (rest : Bytes) (response : String) : Except NetworkError Unit :=
  if rest = [] then .ok () else .error (.invalidEncoding s!"trailing bytes after {response}")

/-- The metadata may be absent, and is dropped otherwise. -/
def skipEntryMetadata (data : Bytes) : Except NetworkError Bytes := do
  let (_, rest) ← readU8 data
  let (metadataTag, rest) ← readU8 rest
  if metadataTag = 1 then
    let (_, rest) ← readU8 rest
    let (_, rest) ← readU8 rest
    let (_, rest) ← readBytes MAX_BLOB_BYTES rest
    return rest
  else return rest

/-- The outpoint has a length of its own, which must be the expected one. -/
def decodeOutpoint (indexInResponse : Nat) (data : Bytes) : Except NetworkError ((Bytes × UInt32) × Bytes) := do
  let (outpoint, rest) ← readBytes MAX_BLOB_BYTES data
  let length := outpoint.length
  if length = OUTPOINT_BYTES then
    return ((encodeLowerHex (cut outpoint 1 33), UInt32.ofNat (leNat (cut outpoint 33 37))), rest)
  else throw (.invalidEncoding s!"entry {indexInResponse}: outpoint {length} bytes")

/-- Entries of the first two versions have no covenant id. -/
def decodeCovenantId (version : UInt8) (data : Bytes) : Except NetworkError (Option Bytes) :=
  if version ≤ 1 then .ok none
  else do
    let (tag, rest) ← readU8 data
    if tag ≠ 1 then return none
    else
      let (covenantId, _) ← readExact 32 rest
      return some (encodeLowerHex covenantId)

/-- One entry. Bytes behind its fields are not looked at. -/
def decodeEntry (data : Bytes) (indexInResponse : Nat) : Except NetworkError UtxoEntry := do
  let rest ← skipEntryMetadata data
  let ((txId, index), rest) ← decodeOutpoint indexInResponse rest
  let (utxoBlob, _) ← readBytes MAX_BLOB_BYTES rest
  let (version, rest) ← readU8 utxoBlob
  let (amount, rest) ← readU64 rest
  let (scriptVersion, rest) ← readU16 rest
  if scriptVersion = SPENDABLE_SCRIPT_VERSION then
    let (scriptPublicKey, rest) ← readBytes MAX_BLOB_BYTES rest
    let (blockDaaScore, rest) ← readU64 rest
    let (_, rest) ← readBool rest
    let covenantId ← decodeCovenantId version rest
    return { txId, index, amount, scriptPublicKey, blockDaaScore, covenantId }
  else throw (.invalidEncoding s!"entry {indexInResponse}: script version {scriptVersion} is not spendable")

/-- The loop over the entries. -/
def readEntries : (count : Nat) → (indexInResponse : Nat) → Bytes → Except NetworkError (List UtxoEntry × Bytes)
  | 0, _, data => .ok ([], data)
  | count + 1, indexInResponse, data => do
    let (blob, rest) ← readBytes MAX_BLOB_BYTES data
    let entry ← decodeEntry blob indexInResponse
    let (entries, rest) ← readEntries count (indexInResponse + 1) rest
    return (entry :: entries, rest)

/-- The count, then the entries, then nothing. -/
def decodeEntries (entriesBlob : Bytes) : Except NetworkError (List UtxoEntry) := do
  let (count, rest) ← readU32 entriesBlob
  if MAX_UTXOS < count.toNat then throw .invalidLength
  else
    let (entries, rest) ← readEntries count.toNat 0 rest
    requireConsumed rest "UTXO entry list"
    return entries

/-- The response is marked as present, and has a length. -/
def responseBody (data : Bytes) (maxBytes : Nat) (response : String) : Except NetworkError Bytes := do
  let (marker, rest) ← readU8 data
  if marker = RESPONSE_PRESENT then
    let (body, rest) ← readBytes maxBytes rest
    requireConsumed rest response
    let (_, rest) ← readU16 body
    return rest
  else throw (.invalidEncoding s!"{response} is missing its payload marker")

/-- The entries inside the body inside the response. -/
def decodeUtxos (data : Bytes) : Except NetworkError (List UtxoEntry) := do
  let response ← responseBody data MAX_BLOB_BYTES RESPONSE
  let (entriesBlob, _) ← readBytes MAX_BLOB_BYTES response
  decodeEntries entriesBlob

/-- Bytes behind their length. -/
def sized (bytes : Bytes) : Bytes := leBytes 4 bytes.length ++ bytes

/-- The bytes are split at the length. -/
theorem readExact_ok {length : Nat} {data value rest : Bytes} :
    readExact length data = .ok (value, rest) ↔ value.length = length ∧ data = value ++ rest := by
  rw [readExact]
  split
  case isTrue hshort =>
    constructor
    · intro h
      cases h
    · intro h
      rw [h.2, List.length_append, h.1] at hshort
      omega
  case isFalse hlong =>
    rw [Except.ok.injEq, Prod.mk.injEq]
    constructor
    · intro h
      obtain ⟨rfl, rfl⟩ := h
      exact ⟨List.length_take_of_le (by omega), (List.take_append_drop _ _).symm⟩
    · intro h
      obtain ⟨rfl, rfl⟩ := h
      exact ⟨List.take_left, List.drop_left⟩

theorem readU8_ok {data rest : Bytes} {value : UInt8} :
    readU8 data = .ok (value, rest) ↔ data = value :: rest := by
  cases data with
  | nil => simp [readU8]
  | cons byte tail => rw [readU8, Except.ok.injEq, Prod.mk.injEq, List.cons.injEq]

theorem requireConsumed_ok {rest : Bytes} {response : String} {done : Unit} :
    requireConsumed rest response = .ok done ↔ rest = [] := by
  rw [requireConsumed]
  split
  case isTrue hrest => simp [hrest]
  case isFalse hrest => simp [hrest]

/-- Four bytes in front, and every four bytes are some number. -/
theorem readU32_ok {data rest : Bytes} {value : UInt32} :
    readU32 data = .ok (value, rest) ↔ data = leBytes 4 value.toNat ++ rest := by
  rw [readU32, bind_eq_ok]
  constructor
  · intro h
    obtain ⟨⟨word, rest'⟩, hread, h⟩ := h
    obtain ⟨hlength, rfl⟩ := readExact_ok.mp hread
    cases h
    have hlt := leNat_lt word
    rw [hlength] at hlt
    have hbytes := leBytes_leNat word
    rw [hlength] at hbytes
    rw [UInt32.toNat_ofNat_of_lt' hlt, hbytes]
  · intro h
    refine ⟨(leBytes 4 value.toNat, rest), readExact_ok.mpr ⟨leBytes_length 4 _, h⟩, ?_⟩
    change Except.ok (UInt32.ofNat (leNat (leBytes 4 value.toNat)), rest) = _
    rw [leNat_leBytes 4 _ value.toNat_lt, UInt32.ofNat_toNat]

/-- A value behind its length, within the maximum. -/
theorem readBytes_ok {maximum : Nat} {data value rest : Bytes} (hmaximum : maximum < 2 ^ 32) :
    readBytes maximum data = .ok (value, rest) ↔ value.length ≤ maximum ∧ data = sized value ++ rest := by
  rw [readBytes, bind_eq_ok]
  constructor
  · intro h
    obtain ⟨⟨length, rest'⟩, hlength, h⟩ := h
    obtain rfl := readU32_ok.mp hlength
    simp only at h
    split at h
    case isTrue => cases h
    case isFalse hfits =>
      obtain ⟨hvalue, rfl⟩ := readExact_ok.mp h
      rw [sized, hvalue, List.append_assoc]
      exact ⟨Nat.le_of_not_lt hfits, rfl⟩
  · intro h
    obtain ⟨hfits, rfl⟩ := h
    have hlength : (UInt32.ofNat value.length).toNat = value.length :=
      UInt32.toNat_ofNat_of_lt' (lt_of_le_of_lt hfits hmaximum)
    refine ⟨(UInt32.ofNat value.length, value ++ rest), ?_, ?_⟩
    · rw [readU32_ok, hlength, sized, List.append_assoc]
    · simp only
      rw [hlength, if_neg (Nat.not_lt.mpr hfits)]
      exact readExact_ok.mpr ⟨rfl, rfl⟩

/-- By induction on the count: the entries are read one after the other, each from a blob of its own. -/
theorem readEntries_ok {count index : Nat} {data rest : Bytes} {entries : List UtxoEntry} :
    readEntries count index data = .ok (entries, rest) ↔
      ∃ blobs : List Bytes, blobs.length = count ∧ (∀ blob ∈ blobs, blob.length ≤ MAX_BLOB_BYTES) ∧
        data = blobs.flatMap sized ++ rest ∧
        (blobs.zipIdx index).mapM (fun blob => decodeEntry blob.1 blob.2) = .ok entries := by
  induction count generalizing index data entries with
  | zero =>
    constructor
    · intro h
      cases h
      exact ⟨[], rfl, by simp, rfl, rfl⟩
    · intro h
      obtain ⟨blobs, hlength, _, rfl, hentries⟩ := h
      obtain rfl := List.length_eq_zero_iff.mp hlength
      cases hentries
      rfl
  | succ count ih =>
    rw [readEntries, bind_eq_ok]
    constructor
    · intro h
      obtain ⟨⟨blob, rest'⟩, hblob, h⟩ := h
      obtain ⟨entry, hentry, h⟩ := bind_eq_ok.mp h
      obtain ⟨⟨found, rest''⟩, hfound, h⟩ := bind_eq_ok.mp h
      cases h
      obtain ⟨hfits, rfl⟩ := (readBytes_ok (by decide)).mp hblob
      obtain ⟨blobs, rfl, hblobs, rfl, hentries⟩ := ih.mp hfound
      refine ⟨blob :: blobs, rfl, List.forall_mem_cons.mpr ⟨hfits, hblobs⟩, ?_, ?_⟩
      · rw [List.flatMap_cons, List.append_assoc]
      · rw [List.zipIdx_cons, List.mapM_cons, hentry, bind_of_ok rfl, hentries]
        rfl
    · intro h
      obtain ⟨blobs, hlength, hblobs, rfl, hentries⟩ := h
      cases blobs with
      | nil => cases hlength
      | cons blob blobs =>
        obtain ⟨hfits, hblobs⟩ := List.forall_mem_cons.mp hblobs
        rw [List.zipIdx_cons, List.mapM_cons] at hentries
        obtain ⟨entry, hentry, h⟩ := bind_eq_ok.mp hentries
        obtain ⟨found, hfound, h⟩ := bind_eq_ok.mp h
        cases h
        refine ⟨(blob, blobs.flatMap sized ++ rest), ?_, ?_⟩
        · rw [readBytes_ok (by decide), List.flatMap_cons, List.append_assoc]
          exact ⟨hfits, rfl⟩
        · refine bind_eq_ok.mpr ⟨entry, hentry, bind_eq_ok.mpr ⟨(found, rest), ?_, rfl⟩⟩
          exact ih.mpr ⟨blobs, Nat.succ.inj hlength, hblobs, rfl, hfound⟩

end KaspaPortal.Network

namespace KaspaPortal.Guarantees
open Lib Network

/-- A list of entries is read exactly from the count and the sized entries, one after the other, each of
which is read, with nothing behind them. -/
theorem decodeEntries_iff (entriesBlob : Bytes) (entries : List UtxoEntry) :
    decodeEntries entriesBlob = .ok entries ↔
      ∃ blobs : List Bytes, blobs.length ≤ MAX_UTXOS ∧ (∀ blob ∈ blobs, blob.length ≤ MAX_BLOB_BYTES) ∧
        entriesBlob = leBytes 4 blobs.length ++ blobs.flatMap sized ∧
        blobs.zipIdx.mapM (fun blob => decodeEntry blob.1 blob.2) = .ok entries := by
  rw [decodeEntries, bind_eq_ok]
  constructor
  · intro h
    obtain ⟨⟨count, rest⟩, hcount, h⟩ := h
    obtain rfl := readU32_ok.mp hcount
    simp only at h
    split at h
    case isTrue => cases h
    case isFalse hfew =>
      obtain ⟨⟨found, rest'⟩, hfound, h⟩ := bind_eq_ok.mp h
      obtain ⟨_, hconsumed, h⟩ := bind_eq_ok.mp h
      cases h
      obtain ⟨blobs, hlength, hblobs, rfl, hentries⟩ := readEntries_ok.mp hfound
      obtain rfl := requireConsumed_ok.mp hconsumed
      refine ⟨blobs, hlength ▸ Nat.le_of_not_lt hfew, hblobs, ?_, hentries⟩
      rw [hlength, List.append_nil]
  · intro h
    obtain ⟨blobs, hfew, hblobs, rfl, hentries⟩ := h
    have hlength : (UInt32.ofNat blobs.length).toNat = blobs.length :=
      UInt32.toNat_ofNat_of_lt' (lt_of_le_of_lt hfew (by decide))
    refine ⟨(UInt32.ofNat blobs.length, blobs.flatMap sized), ?_, ?_⟩
    · rw [readU32_ok, hlength]
    · simp only
      rw [hlength, if_neg (Nat.not_lt.mpr hfew)]
      refine bind_eq_ok.mpr ⟨(entries, []), ?_, rfl⟩
      exact readEntries_ok.mpr ⟨blobs, rfl, hblobs, (List.append_nil _).symm, hentries⟩

/-- The response in a payload is what follows the two version bytes of the one sized body behind the
marker. The version itself is not looked at. -/
theorem responseBody_iff {maxBytes : Nat} (hmaximum : maxBytes < 2 ^ 32) (data : Bytes)
    (response : String) (body : Bytes) :
    responseBody data maxBytes response = .ok body ↔
      ∃ version : Bytes, version.length = 2 ∧ (version ++ body).length ≤ maxBytes ∧
        data = RESPONSE_PRESENT :: sized (version ++ body) := by
  rw [responseBody, bind_eq_ok]
  constructor
  · intro h
    obtain ⟨⟨marker, rest⟩, hmarker, h⟩ := h
    obtain rfl := readU8_ok.mp hmarker
    simp only at h
    split at h
    case isFalse => cases h
    case isTrue hpresent =>
      obtain ⟨⟨bytes, rest'⟩, hbytes, hrest⟩ := bind_eq_ok.mp h
      obtain ⟨_, hconsumed, hword⟩ := bind_eq_ok.mp hrest
      obtain ⟨⟨_, rest''⟩, hversion, hbody⟩ := bind_eq_ok.mp hword
      obtain ⟨⟨version, behind⟩, hread, hvalue⟩ := bind_eq_ok.mp hversion
      cases hvalue
      cases hbody
      obtain ⟨hfits, rfl⟩ := (readBytes_ok hmaximum).mp hbytes
      obtain rfl := requireConsumed_ok.mp hconsumed
      obtain ⟨hlength, rfl⟩ := readExact_ok.mp hread
      exact ⟨version, hlength, hfits, by rw [hpresent, List.append_nil]⟩
  · intro h
    obtain ⟨version, hlength, hfits, rfl⟩ := h
    refine ⟨(RESPONSE_PRESENT, sized (version ++ body)), readU8_ok.mpr rfl, ?_⟩
    refine (if_pos rfl).trans (bind_eq_ok.mpr ⟨(version ++ body, []), ?_, ?_⟩)
    · exact (readBytes_ok hmaximum).mpr ⟨hfits, (List.append_nil _).symm⟩
    · refine bind_eq_ok.mpr ⟨(), requireConsumed_ok.mpr rfl, ?_⟩
      refine bind_eq_ok.mpr ⟨(UInt16.ofNat (leNat version), body), ?_, rfl⟩
      exact bind_eq_ok.mpr ⟨(version, body), readExact_ok.mpr ⟨hlength, rfl⟩, rfl⟩

/-- The answer to a UTXO query is read exactly from the marker and one sized body: its version, the sized
list of entries, and anything behind that list, which no reader looks at. -/
theorem decodeUtxos_iff (data : Bytes) (entries : List UtxoEntry) :
    decodeUtxos data = .ok entries ↔
      ∃ version entriesBlob ignored : Bytes, version.length = 2 ∧
        (version ++ (sized entriesBlob ++ ignored)).length ≤ MAX_BLOB_BYTES ∧
        data = RESPONSE_PRESENT :: sized (version ++ (sized entriesBlob ++ ignored)) ∧
        decodeEntries entriesBlob = .ok entries := by
  rw [decodeUtxos, bind_eq_ok]
  constructor
  · intro h
    obtain ⟨response, hresponse, h⟩ := h
    obtain ⟨version, hlength, hfits, hdata⟩ := (responseBody_iff (by decide) _ _ _).mp hresponse
    obtain ⟨⟨entriesBlob, ignored⟩, hblob, hentries⟩ := bind_eq_ok.mp h
    obtain ⟨_, rfl⟩ := (readBytes_ok (by decide)).mp hblob
    exact ⟨version, entriesBlob, ignored, hlength, hfits, hdata, hentries⟩
  · intro h
    obtain ⟨version, entriesBlob, ignored, hlength, hfits, hdata, hentries⟩ := h
    have hblob : entriesBlob.length ≤ MAX_BLOB_BYTES := by
      simp only [sized, List.length_append] at hfits
      omega
    refine ⟨sized entriesBlob ++ ignored, ?_, ?_⟩
    · exact (responseBody_iff (by decide) _ _ _).mpr ⟨version, hlength, hfits, hdata⟩
    · exact bind_eq_ok.mpr ⟨(entriesBlob, ignored), (readBytes_ok (by decide)).mpr ⟨hblob, rfl⟩, hentries⟩

end KaspaPortal.Guarantees
