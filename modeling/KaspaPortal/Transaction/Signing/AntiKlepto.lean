import KaspaPortal.Lib.Layout
import KaspaPortal.Transaction.Kspt.AntiKlepto.Host

/-!
# The anti-klepto wire format

`src/transaction/signing/anti_klepto/protocol.rs`: four messages behind one header. A commitment
and a signed reply carry a table of records that is read by index, a request and a signed reply
a transaction up to the end of the message. Lengths and counts go on the wire as 32 bits, so
that the source's checked sums do not overflow a 64-bit `usize`. The hash is given.

The state machines of the two sides are left to their callers: a message is parsed whatever came
before it.
-/
namespace KaspaPortal.Transaction.Signing.AntiKlepto
open Lib Model Crypto.AntiKlepto

open Kspt.AntiKlepto (NonceCommitment SignatureProof)

def MAGIC : Bytes := [0x4b, 0x41, 0x4b, 0x50]
def VERSION : UInt8 := 1
def HASH_LEN : Nat := 32

/-- Magic, version, kind and session id. -/
def HEADER_LEN : Nat := 4 + 1 + 1 + SESSION_ID_LEN
def REVEAL_LEN : Nat := HEADER_LEN + HASH_LEN
/-- The header, two hashes and the length of the transaction. -/
def REQUEST_FIXED_LEN : Nat := HEADER_LEN + HASH_LEN + HASH_LEN + 4
def COMMITMENT_FIXED_LEN : Nat := HEADER_LEN + HASH_LEN + 4
/-- Input index, slot, public key and nonce point. -/
def COMMITMENT_RECORD_LEN : Nat := 4 + 1 + 33 + 33
def SIGNED_FIXED_LEN : Nat := HEADER_LEN + HASH_LEN + 4
/-- Input index and slot. The signature itself stands in the transaction. -/
def SIGNATURE_PROOF_LEN : Nat := 4 + 1

/-- The three hashes of the protocol have domains of their own. -/
def HOST_COMMIT_DOMAIN : Bytes := ascii "KaspaPortal/anti-klepto/host-commit/v1"
def TX_DIGEST_DOMAIN : Bytes := ascii "KaspaPortal/anti-klepto/tx/v1"
def SESSION_DOMAIN : Bytes := ascii "KaspaPortal/anti-klepto/session/v1"

/-- Two messages from the host and two from the signer. -/
inductive MessageKind where
  | request | commitment | reveal | signed
  deriving DecidableEq, Repr

/-- What the layout refuses; the last three are failed bindings between fields. -/
inductive WireError where
  | truncated | invalidMagic | unsupportedVersion | wrongKind | invalidLength | tooManyProofs
  | outputTooSmall | sessionMismatch | transactionMismatch | hostCommitmentMismatch
  deriving DecidableEq, Repr

/-- What every message begins with. -/
structure Header where
  version : UInt8
  kind : MessageKind
  sessionId : FixedBytes SESSION_ID_LEN
  deriving DecidableEq

/-- The host's request: its commitment, and the transaction with its digest. -/
structure Request where
  sessionId : FixedBytes SESSION_ID_LEN
  hostCommitment : FixedBytes HASH_LEN
  transactionDigest : FixedBytes HASH_LEN
  transaction : Bytes
  deriving DecidableEq

/-- A parsed commitment keeps the bytes of its records; there is at least one. -/
structure Commitment where
  sessionId : FixedBytes SESSION_ID_LEN
  transactionDigest : FixedBytes HASH_LEN
  recordBytes : Bytes
  count : Nat
  nonzero : count ≠ 0
  length_recordBytes : recordBytes.length = count * COMMITMENT_RECORD_LEN

/-- A parsed reply keeps the bytes of its proofs; there is at least one. -/
structure Signed where
  sessionId : FixedBytes SESSION_ID_LEN
  transactionDigest : FixedBytes HASH_LEN
  proofBytes : Bytes
  proofCount : Nat
  transaction : Bytes
  nonzero : proofCount ≠ 0
  length_proofBytes : proofBytes.length = proofCount * SIGNATURE_PROOF_LEN

def MessageKind.toByte : MessageKind → UInt8
  | .request => 1
  | .commitment => 2
  | .reveal => 3
  | .signed => 4

/-- The kinds are numbered from one; a parser asks for one of them. -/
def MessageKind.fromByte : UInt8 → Except WireError MessageKind
  | 1 => .ok .request
  | 2 => .ok .commitment
  | 3 => .ok .reveal
  | 4 => .ok .signed
  | _ => .error .wrongKind

/-- A tag reads as a kind exactly when it is the one the kind is written as. -/
theorem MessageKind.fromByte_eq_ok {byte : UInt8} {kind : MessageKind} :
    MessageKind.fromByte byte = .ok kind ↔ byte = kind.toByte := by
  apply tag_eq_ok
  · intro kind
    cases kind <;> rfl
  · intro byte kind h
    unfold MessageKind.fromByte at h
    split at h <;> cases h <;> rfl

/-! ## Digests -/

section
variable (sha256 : Bytes → FixedBytes 32)

/-- The domain is hashed before the parts. Nothing separates the parts. -/
def domainHash (domain : Bytes) (parts : List Bytes) : FixedBytes HASH_LEN :=
  sha256 (domain ++ parts.flatten)

/-- What the host publishes of its secret before it learns the signer's nonces. -/
def hostCommitment (hostSecret : FixedBytes HASH_LEN) : FixedBytes HASH_LEN :=
  domainHash sha256 HOST_COMMIT_DOMAIN [hostSecret.val]

def transactionDigest (transaction : Bytes) : FixedBytes HASH_LEN :=
  domainHash sha256 TX_DIGEST_DOMAIN [transaction]

/-- The session is named by what the host has committed to and what is to be signed. -/
def sessionId (commitment txDigest : FixedBytes HASH_LEN) : FixedBytes SESSION_ID_LEN :=
  array SESSION_ID_LEN
    ((domainHash sha256 SESSION_DOMAIN [commitment.val, txDigest.val]).val.take SESSION_ID_LEN)

end

/-! ## Parts of messages -/

/-- Checked before the first byte is written. -/
def ensureOutput (output : Bytes) (needed : Nat) : Except WireError Unit :=
  rejectIf (output.length < needed) WireError.outputTooSmall

/-- A table has at least one record, and its count fits 32 bits. -/
def nonzeroCount (count : Nat) : Except WireError Nat := do
  rejectIf (count = 0) WireError.tooManyProofs
  rejectIf (2 ^ 32 ≤ count) WireError.tooManyProofs
  return count

/-- `u32::try_from(transaction.len())`. -/
def transactionLen (transaction : Bytes) : Except WireError Nat := do
  rejectIf (2 ^ 32 ≤ transaction.length) WireError.invalidLength
  return transaction.length

/-- Counts and lengths are little-endian. -/
def readU32 (input : Bytes) : Except WireError Nat := do
  rejectIf (input.length < 4) WireError.truncated
  return leNat (input.take 4)

/-- The rest of the message, which must have the declared length. -/
def exactTail (input : Bytes) (start length : Nat) : Except WireError Bytes := do
  rejectIf (start + length ≠ input.length) WireError.invalidLength
  return cut input start (start + length)

/-- The layout of the header. -/
def headerSlices (kind : MessageKind) (sessionId : FixedBytes SESSION_ID_LEN) : List Slice :=
  [⟨0, 4, MAGIC⟩, ⟨4, 5, [VERSION]⟩, ⟨5, 6, [kind.toByte]⟩, ⟨6, HEADER_LEN, sessionId.val⟩]

/-- The header is written before the fields behind it. -/
def writeHeader (output : Bytes) (kind : MessageKind) (sessionId : FixedBytes SESSION_ID_LEN) :
    Except WireError Bytes := do
  ensureOutput output HEADER_LEN
  return writeSlices output (headerSlices kind sessionId)

/-- The kind is checked against the one that is asked for, last of all. -/
def parseHeader (input : Bytes) (expected : MessageKind) : Except WireError Header := do
  rejectIf (input.length < HEADER_LEN) WireError.truncated
  rejectIf (input.take 4 ≠ MAGIC) WireError.invalidMagic
  rejectIf (byteAt input 4 ≠ VERSION) WireError.unsupportedVersion
  let kind ← MessageKind.fromByte (byteAt input 5)
  rejectIf (kind ≠ expected) WireError.wrongKind
  return ⟨VERSION, kind, array SESSION_ID_LEN (cut input 6 HEADER_LEN)⟩

/-- The layout of a record. -/
def commitmentRecordSlices (record : NonceCommitment) : List Slice :=
  [⟨0, 4, leBytes 4 record.inputIndex.toNat⟩, ⟨4, 5, [record.signatureSlot]⟩,
    ⟨5, 38, record.publicKey.val⟩, ⟨38, 71, record.noncePoint.val⟩]

/-- A record is read from its own slice, at fixed offsets. -/
def readCommitmentRecord (bytes : Bytes) : NonceCommitment where
  inputIndex := UInt32.ofNat (leNat (bytes.take 4))
  signatureSlot := byteAt bytes 4
  publicKey := array 33 (cut bytes 5 38)
  noncePoint := array 33 (cut bytes 38 71)

def signatureProofSlices (proof : SignatureProof) : List Slice :=
  [⟨0, 4, leBytes 4 proof.inputIndex.toNat⟩, ⟨4, 5, [proof.signatureSlot]⟩]

/-- The proof in the body of `Signed::proof`. -/
def readSignatureProof (bytes : Bytes) : SignatureProof where
  inputIndex := UInt32.ofNat (leNat (bytes.take 4))
  signatureSlot := byteAt bytes 4

/-! ## Requests -/

section
variable (sha256 : Bytes → FixedBytes 32)

/-- The request carries its own digests; nothing of it is left for the caller to compute. -/
def encodeRequest (hostSecret : FixedBytes HASH_LEN) (transaction output : Bytes) :
    Except WireError (Nat × Bytes) := do
  let txLen ← transactionLen transaction
  let needed := REQUEST_FIXED_LEN + transaction.length
  ensureOutput output needed
  let hostCommit := hostCommitment sha256 hostSecret
  let txDigest := transactionDigest sha256 transaction
  let session := sessionId sha256 hostCommit txDigest
  let output ← writeHeader output .request session
  return (needed, writeSlices output
    [⟨HEADER_LEN, HEADER_LEN + 32, hostCommit.val⟩, ⟨HEADER_LEN + 32, HEADER_LEN + 64, txDigest.val⟩,
      ⟨HEADER_LEN + 64, REQUEST_FIXED_LEN, leBytes 4 txLen⟩, ⟨REQUEST_FIXED_LEN, needed, transaction⟩])

/-- The digest must be that of the transaction, and the session that of the two hashes. -/
def validateRequestBinding (header : Header) (hostCommitmentValue transactionDigestValue :
    FixedBytes HASH_LEN) (transaction : Bytes) : Except WireError Unit := do
  rejectIf (transactionDigest sha256 transaction ≠ transactionDigestValue)
    WireError.transactionMismatch
  rejectIf (sessionId sha256 hostCommitmentValue transactionDigestValue ≠ header.sessionId)
    WireError.sessionMismatch

/-- The bindings are checked after the layout. -/
def parseRequest (input : Bytes) : Except WireError Request := do
  let header ← parseHeader input .request
  rejectIf (input.length < REQUEST_FIXED_LEN) WireError.truncated
  let hostCommitmentValue := array HASH_LEN (cut input HEADER_LEN (HEADER_LEN + 32))
  let transactionDigestValue := array HASH_LEN (cut input (HEADER_LEN + 32) (HEADER_LEN + 64))
  let transactionLen ← readU32 (cut input (HEADER_LEN + 64) REQUEST_FIXED_LEN)
  let transaction ← exactTail input REQUEST_FIXED_LEN transactionLen
  validateRequestBinding sha256 header hostCommitmentValue transactionDigestValue transaction
  return ⟨header.sessionId, hostCommitmentValue, transactionDigestValue, transaction⟩

end

/-! ## Commitments -/

/-- The count, then the records one after the other. -/
def encodeCommitment (session : FixedBytes SESSION_ID_LEN) (txDigest : FixedBytes HASH_LEN)
    (records : List NonceCommitment) (output : Bytes) : Except WireError (Nat × Bytes) := do
  let count ← nonzeroCount records.length
  let needed := COMMITMENT_FIXED_LEN + records.length * COMMITMENT_RECORD_LEN
  ensureOutput output needed
  let output ← writeHeader output .commitment session
  let output := writeSlices output
    [⟨HEADER_LEN, HEADER_LEN + 32, txDigest.val⟩,
      ⟨HEADER_LEN + 32, COMMITMENT_FIXED_LEN, leBytes 4 count⟩]
  -- `write_commitment_record` gets the range of one record, which is as long as it asks for.
  return (needed, writeSlices output
    (tableSlices COMMITMENT_FIXED_LEN COMMITMENT_RECORD_LEN commitmentRecordSlices records))

/-- The records stay bytes: they are read by index later. -/
def parseCommitment (input : Bytes) : Except WireError Commitment := do
  let header ← parseHeader input .commitment
  rejectIf (input.length < COMMITMENT_FIXED_LEN) WireError.truncated
  let transactionDigest := array HASH_LEN (cut input HEADER_LEN (HEADER_LEN + 32))
  let count ← readU32 (cut input (HEADER_LEN + 32) COMMITMENT_FIXED_LEN)
  if hzero : count = 0 then throw WireError.tooManyProofs
  else if hlen : COMMITMENT_FIXED_LEN + count * COMMITMENT_RECORD_LEN = input.length then
    return { sessionId := header.sessionId, transactionDigest
             recordBytes := input.drop COMMITMENT_FIXED_LEN, count, nonzero := hzero
             length_recordBytes := by rw [List.length_drop, ← hlen, Nat.add_sub_cancel_left] }
  else throw WireError.invalidLength

namespace Commitment
variable (commitment : Commitment)

def len : Nat := commitment.count

/-- Out of range there is no record. -/
def record (index : Nat) : Option NonceCommitment :=
  if commitment.count ≤ index then none
  else some (readCommitmentRecord (cut commitment.recordBytes (index * COMMITMENT_RECORD_LEN)
    ((index + 1) * COMMITMENT_RECORD_LEN)))

/-- The records that `record` gives, in their order. -/
def records : List NonceCommitment :=
  tableRecords COMMITMENT_RECORD_LEN commitment.count readCommitmentRecord commitment.recordBytes

end Commitment

/-! ## Reveals -/

/-- The host's secret, under the session it belongs to. -/
def encodeReveal (session : FixedBytes SESSION_ID_LEN) (hostSecret : FixedBytes HASH_LEN)
    (output : Bytes) : Except WireError (Nat × Bytes) := do
  ensureOutput output REVEAL_LEN
  let output ← writeHeader output .reveal session
  return (REVEAL_LEN, writeSlices output [⟨HEADER_LEN, REVEAL_LEN, hostSecret.val⟩])

/-- Whether the secret opens the commitment is not checked here. -/
def parseReveal (input : Bytes) :
    Except WireError (FixedBytes SESSION_ID_LEN × FixedBytes HASH_LEN) := do
  let header ← parseHeader input .reveal
  rejectIf (input.length ≠ REVEAL_LEN) WireError.invalidLength
  return (header.sessionId, array HASH_LEN (cut input HEADER_LEN REVEAL_LEN))

/-! ## Signed replies -/

/-- The count, the records, then the length of the transaction and the transaction. -/
def encodeSigned (session : FixedBytes SESSION_ID_LEN) (txDigest : FixedBytes HASH_LEN)
    (proofs : List SignatureProof) (transaction output : Bytes) : Except WireError (Nat × Bytes) := do
  let count ← nonzeroCount proofs.length
  let txLen ← transactionLen transaction
  let lengthOffset := SIGNED_FIXED_LEN + proofs.length * SIGNATURE_PROOF_LEN
  let txStart := lengthOffset + 4
  let needed := txStart + transaction.length
  ensureOutput output needed
  let output ← writeHeader output .signed session
  let output := writeSlices output
    [⟨HEADER_LEN, HEADER_LEN + 32, txDigest.val⟩, ⟨HEADER_LEN + 32, SIGNED_FIXED_LEN, leBytes 4 count⟩]
  let output := writeSlices output
    (tableSlices SIGNED_FIXED_LEN SIGNATURE_PROOF_LEN signatureProofSlices proofs)
  return (needed, writeSlices output
    [⟨lengthOffset, txStart, leBytes 4 txLen⟩, ⟨txStart, needed, transaction⟩])

/-- The declared transaction must end where the message does. -/
def parseSigned (input : Bytes) : Except WireError Signed := do
  let header ← parseHeader input .signed
  rejectIf (input.length < SIGNED_FIXED_LEN) WireError.truncated
  let transactionDigest := array HASH_LEN (cut input HEADER_LEN (HEADER_LEN + 32))
  let proofCount ← readU32 (cut input (HEADER_LEN + 32) SIGNED_FIXED_LEN)
  if hzero : proofCount = 0 then throw WireError.tooManyProofs
  else
    let lengthOffset := SIGNED_FIXED_LEN + proofCount * SIGNATURE_PROOF_LEN
    let txStart := lengthOffset + 4
    if hroom : txStart ≤ input.length then do
      let transactionLen ← readU32 (cut input lengthOffset txStart)
      let transaction ← exactTail input txStart transactionLen
      return { sessionId := header.sessionId, transactionDigest
               proofBytes := cut input SIGNED_FIXED_LEN lengthOffset, proofCount, transaction
               nonzero := hzero
               length_proofBytes := by
                 rw [length_cut (by omega), Nat.add_sub_cancel_left] }
    else throw WireError.truncated

namespace Signed
variable (signed : Signed)

/-- The slot of the n-th signature. -/
def proof (index : Nat) : Option SignatureProof :=
  if signed.proofCount ≤ index then none
  else
    let offset := index * SIGNATURE_PROOF_LEN
    some (readSignatureProof (cut signed.proofBytes offset (offset + SIGNATURE_PROOF_LEN)))

/-- The proofs that `proof` gives, in their order. -/
def proofs : List SignatureProof :=
  tableRecords SIGNATURE_PROOF_LEN signed.proofCount readSignatureProof signed.proofBytes

end Signed

end KaspaPortal.Transaction.Signing.AntiKlepto
