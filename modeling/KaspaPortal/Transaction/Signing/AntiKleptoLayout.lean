import KaspaPortal.Transaction.Signing.AntiKlepto

/-!
# Layouts of the anti-klepto messages

What each encoder copies, as one row of slices, and that each parser accepts exactly the inputs
that hold such a row.
-/
namespace KaspaPortal.Transaction.Signing.AntiKlepto
open Lib Model Crypto.AntiKlepto
open Kspt.AntiKlepto (NonceCommitment SignatureProof)

/-! ## Parts -/

theorem contiguous_headerSlices (kind : MessageKind) (session : FixedBytes SESSION_ID_LEN) :
    Contiguous 0 (headerSlices kind session) := by
  simp [headerSlices, Contiguous, MAGIC, HEADER_LEN, session.property]

theorem length_headerSlices (kind : MessageKind) (session : FixedBytes SESSION_ID_LEN) :
    (contents (headerSlices kind session)).length = HEADER_LEN := by
  simp [headerSlices, MAGIC, HEADER_LEN, session.property]
  omega

theorem ensureOutput_eq_ok {output : Bytes} {needed : Nat} {u : Unit} :
    ensureOutput output needed = .ok u ↔ needed ≤ output.length := by
  rw [ensureOutput, rejectIf_eq_ok, Nat.not_lt]

/-- A header that was written stands at the front, and the rest of the buffer is untouched. -/
theorem writeHeader_eq_ok {output output' : Bytes} {kind : MessageKind}
    {session : FixedBytes SESSION_ID_LEN} :
    writeHeader output kind session = .ok output' ↔
      HEADER_LEN ≤ output.length ∧ output' = writeSlices output (headerSlices kind session) := by
  simp only [writeHeader, bind_eq_ok, ensureOutput_eq_ok]
  constructor
  · intro h
    obtain ⟨_, hroom, hout⟩ := h
    exact ⟨hroom, (Except.ok.inj hout).symm⟩
  · intro h
    exact ⟨(), h.1, by rw [h.2]; rfl⟩

/-- The counts a message can carry. -/
theorem nonzeroCount_eq_ok {count n : Nat} :
    nonzeroCount count = .ok n ↔ (count ≠ 0 ∧ count < 2 ^ 32) ∧ n = count := by
  simp only [nonzeroCount, bind_eq_ok, rejectIf_eq_ok]
  constructor
  · intro h
    obtain ⟨_, hzero, _, hlarge, hn⟩ := h
    exact ⟨⟨hzero, Nat.lt_of_not_le hlarge⟩, (Except.ok.inj hn).symm⟩
  · intro h
    obtain ⟨⟨hzero, hlarge⟩, hn⟩ := h
    exact ⟨(), hzero, (), Nat.not_le_of_lt hlarge, by rw [hn]; rfl⟩

theorem transactionLen_eq_ok {transaction : Bytes} {n : Nat} :
    transactionLen transaction = .ok n ↔ transaction.length < 2 ^ 32 ∧ n = transaction.length := by
  simp only [transactionLen, bind_eq_ok, rejectIf_eq_ok]
  constructor
  · intro h
    obtain ⟨_, hlarge, hn⟩ := h
    exact ⟨Nat.lt_of_not_le hlarge, (Except.ok.inj hn).symm⟩
  · intro h
    exact ⟨(), Nat.not_le_of_lt h.1, by rw [h.2]; rfl⟩

/-- Four bytes are the number they are written as, and every four bytes are some number. -/
theorem readU32_eq_ok {input : Bytes} (hlen : input.length = 4) {n : Nat} :
    readU32 input = .ok n ↔ leBytes 4 n = input ∧ n < 2 ^ 32 := by
  simp only [readU32, bind_eq_ok, rejectIf_eq_ok, hlen, List.take_of_length_le hlen.le]
  constructor
  · intro h
    obtain ⟨_, _, hn⟩ := h
    have hn := Except.ok.inj hn
    have hbytes := leBytes_leNat input
    have hsmall := leNat_lt input
    rw [hlen] at hbytes hsmall
    rw [← hn]
    exact ⟨hbytes, hsmall⟩
  · intro h
    obtain ⟨hbytes, hsmall⟩ := h
    refine ⟨(), by omega, ?_⟩
    rw [← hbytes, leNat_leBytes 4 n hsmall]
    rfl

/-- The tail is all that is left. -/
theorem exactTail_eq_ok {input tail : Bytes} {start length : Nat} :
    exactTail input start length = .ok tail ↔
      start + length = input.length ∧ tail = input.drop start := by
  simp only [exactTail, bind_eq_ok, rejectIf_eq_ok, Decidable.not_not]
  constructor
  · intro h
    obtain ⟨_, hlen, htail⟩ := h
    rw [hlen, cut, List.take_length] at htail
    exact ⟨hlen, (Except.ok.inj htail).symm⟩
  · intro h
    obtain ⟨hlen, htail⟩ := h
    refine ⟨(), hlen, ?_⟩
    rw [hlen, cut, List.take_length, htail]
    rfl

/-- A header is accepted exactly in inputs that hold its layout at the front. -/
theorem parseHeader_eq_ok {input : Bytes} {expected : MessageKind} {header : Header} :
    parseHeader input expected = .ok header ↔ (header.version = VERSION ∧ header.kind = expected) ∧
      HEADER_LEN ≤ input.length ∧ Holds input (headerSlices expected header.sessionId) := by
  simp only [parseHeader, bind_eq_ok, rejectIf_eq_ok, Decidable.not_not, MessageKind.fromByte_eq_ok,
    headerSlices, holds_cons, holds_nil, and_true]
  constructor
  · intro h
    obtain ⟨_, hlong, _, hmagic, _, hversion, kind, hkind, _, hexpected, hheader⟩ := h
    have hheader := Except.ok.inj hheader
    subst hheader hexpected
    have hroom : HEADER_LEN ≤ input.length := Nat.le_of_not_lt hlong
    have hlen : 22 ≤ input.length := hroom
    have hversionByte : cut input 4 5 = [VERSION] := by
      rw [cut_byteAt (by omega), hversion]
    have hkindByte : cut input 5 6 = [kind.toByte] := by
      rw [cut_byteAt (by omega), hkind]
    exact ⟨⟨rfl, rfl⟩, hroom, hmagic, hversionByte, hkindByte,
      (val_array (length_cut hroom)).symm⟩
  · intro h
    obtain ⟨⟨hheaderVersion, hheaderKind⟩, hroom, hmagic, hversion, hkind, hsession⟩ := h
    refine ⟨(), Nat.not_lt_of_le hroom, (), hmagic, (), byteAt_of_cut hversion, expected,
      byteAt_of_cut hkind, (), rfl, ?_⟩
    obtain ⟨version, kind, session⟩ := header
    simp only at hheaderVersion hheaderKind hsession
    rw [hsession, array_val, hheaderVersion, hheaderKind]
    rfl

/-! ## Records -/

theorem contiguous_commitmentRecordSlices (record : NonceCommitment) :
    Contiguous 0 (commitmentRecordSlices record) := by
  simp [commitmentRecordSlices, Contiguous, record.publicKey.property, record.noncePoint.property]

theorem length_commitmentRecordSlices (record : NonceCommitment) :
    (contents (commitmentRecordSlices record)).length = COMMITMENT_RECORD_LEN := by
  simp [commitmentRecordSlices, COMMITMENT_RECORD_LEN, record.publicKey.property,
    record.noncePoint.property]

/-- A record reads back as itself. -/
theorem readCommitmentRecord_contents (record : NonceCommitment) :
    readCommitmentRecord (contents (commitmentRecordSlices record)) = record := by
  have hold := (((contiguous_commitmentRecordSlices record).holds_iff_eq rfl).mpr rfl).1
  generalize contents (commitmentRecordSlices record) = row at hold ⊢
  simp only [commitmentRecordSlices, holds_cons, holds_nil, and_true] at hold
  obtain ⟨hindex, hslot, hkey, hpoint⟩ := hold
  have hindex : row.take 4 = leBytes 4 record.inputIndex.toNat := hindex
  rw [readCommitmentRecord, hindex, leNat_leBytes 4 _ record.inputIndex.toNat_lt,
    byteAt_of_cut hslot, hkey, hpoint, array_val, array_val, UInt32.ofNat_toNat]

/-- Any row of the right length is the row some record is written as. -/
theorem contents_readCommitmentRecord (row : Bytes) (hlen : row.length = COMMITMENT_RECORD_LEN) :
    contents (commitmentRecordSlices (readCommitmentRecord row)) = row := by
  have hlen : row.length = 71 := hlen
  have hindex : (row.take 4).length = 4 := by
    rw [List.length_take]
    omega
  have hbytes := leBytes_leNat (row.take 4)
  have hsmall := leNat_lt (row.take 4)
  rw [hindex] at hbytes hsmall
  refine (((contiguous_commitmentRecordSlices _).holds_iff_eq
    (length_commitmentRecordSlices _)).mp ⟨?_, hlen⟩).symm
  simp only [commitmentRecordSlices, holds_cons, holds_nil, and_true]
  refine ⟨?_, cut_byteAt (by omega), (val_array (length_cut (by omega))).symm,
    (val_array (length_cut (by omega))).symm⟩
  rw [readCommitmentRecord, UInt32.toNat_ofNat_of_lt' hsmall, hbytes]
  rfl

theorem contiguous_signatureProofSlices (proof : SignatureProof) :
    Contiguous 0 (signatureProofSlices proof) := by
  simp [signatureProofSlices, Contiguous]

theorem length_signatureProofSlices (proof : SignatureProof) :
    (contents (signatureProofSlices proof)).length = SIGNATURE_PROOF_LEN := by
  simp [signatureProofSlices, SIGNATURE_PROOF_LEN]

theorem readSignatureProof_contents (proof : SignatureProof) :
    readSignatureProof (contents (signatureProofSlices proof)) = proof := by
  have hold := (((contiguous_signatureProofSlices proof).holds_iff_eq rfl).mpr rfl).1
  generalize contents (signatureProofSlices proof) = row at hold ⊢
  simp only [signatureProofSlices, holds_cons, holds_nil, and_true] at hold
  obtain ⟨hindex, hslot⟩ := hold
  have hindex : row.take 4 = leBytes 4 proof.inputIndex.toNat := hindex
  rw [readSignatureProof, hindex, leNat_leBytes 4 _ proof.inputIndex.toNat_lt, byteAt_of_cut hslot,
    UInt32.ofNat_toNat]

/-- The same of the rows of a signed reply. -/
theorem contents_readSignatureProof (row : Bytes) (hlen : row.length = SIGNATURE_PROOF_LEN) :
    contents (signatureProofSlices (readSignatureProof row)) = row := by
  have hlen : row.length = 5 := hlen
  have hindex : (row.take 4).length = 4 := by
    rw [List.length_take]
    omega
  have hbytes := leBytes_leNat (row.take 4)
  have hsmall := leNat_lt (row.take 4)
  rw [hindex] at hbytes hsmall
  refine (((contiguous_signatureProofSlices _).holds_iff_eq
    (length_signatureProofSlices _)).mp ⟨?_, hlen⟩).symm
  simp only [signatureProofSlices, holds_cons, holds_nil, and_true]
  refine ⟨?_, cut_byteAt (by omega)⟩
  rw [readSignatureProof, UInt32.toNat_ofNat_of_lt' hsmall, hbytes]
  rfl

/-! ## Reveals -/

/-- The layout of a reveal: nothing behind the secret. -/
def revealSlices (session : FixedBytes SESSION_ID_LEN) (hostSecret : FixedBytes HASH_LEN) : List Slice :=
  headerSlices .reveal session ++ [⟨HEADER_LEN, REVEAL_LEN, hostSecret.val⟩]

theorem contiguous_revealSlices (session : FixedBytes SESSION_ID_LEN) (hostSecret : FixedBytes HASH_LEN) :
    Contiguous 0 (revealSlices session hostSecret) := by
  refine contiguous_append.mpr ⟨contiguous_headerSlices .reveal session, ?_⟩
  rw [length_headerSlices]
  simp [Contiguous, REVEAL_LEN, hostSecret.property]

theorem length_revealSlices (session : FixedBytes SESSION_ID_LEN) (hostSecret : FixedBytes HASH_LEN) :
    (contents (revealSlices session hostSecret)).length = REVEAL_LEN := by
  simp [revealSlices, length_headerSlices, REVEAL_LEN, hostSecret.property]

/-- A reveal can always be written where there is room. -/
theorem encodes_reveal (session : FixedBytes SESSION_ID_LEN) (hostSecret : FixedBytes HASH_LEN) :
    Encodes (encodeReveal session hostSecret) True (contents (revealSlices session hostSecret)) := by
  apply encodes_writeSlices (contiguous_revealSlices session hostSecret)
    (length_revealSlices session hostSecret)
  intro out r
  simp only [encodeReveal, bind_eq_ok, ensureOutput_eq_ok, writeHeader_eq_ok, revealSlices,
    writeSlices_append]
  constructor
  · intro h
    obtain ⟨_, hroom, _, ⟨_, hout⟩, hr⟩ := h
    rw [hout] at hr
    exact ⟨trivial, hroom, (Except.ok.inj hr).symm⟩
  · intro h
    obtain ⟨_, hroom, hr⟩ := h
    exact ⟨(), hroom, _, ⟨le_trans (Nat.le_add_right _ _) hroom, rfl⟩, by rw [hr]; rfl⟩

/-- A reveal is accepted exactly in the bytes it is written as. -/
theorem parseReveal_eq_ok {input : Bytes} {session : FixedBytes SESSION_ID_LEN}
    {hostSecret : FixedBytes HASH_LEN} :
    parseReveal input = .ok (session, hostSecret) ↔
      input = contents (revealSlices session hostSecret) := by
  rw [← (contiguous_revealSlices session hostSecret).holds_iff_eq
    (length_revealSlices session hostSecret)]
  simp only [parseReveal, bind_eq_ok, rejectIf_eq_ok, Decidable.not_not, parseHeader_eq_ok,
    revealSlices, holds_append, holds_cons, holds_nil, and_true]
  constructor
  · intro h
    obtain ⟨header, ⟨_, _, hheader⟩, _, hlen, hr⟩ := h
    obtain ⟨hsession, hsecret⟩ := Prod.mk.inj (Except.ok.inj hr)
    subst hsession hsecret
    exact ⟨⟨hheader, (val_array (length_cut hlen.ge)).symm⟩, hlen⟩
  · intro h
    obtain ⟨⟨hheader, hsecret⟩, hlen⟩ := h
    refine ⟨⟨VERSION, .reveal, session⟩, ⟨⟨rfl, rfl⟩, ?_, hheader⟩, (), hlen, ?_⟩
    · rw [hlen]
      exact Nat.le_add_right _ _
    · rw [hsecret, array_val]
      rfl

/-! ## Requests -/

/-- The layout of a request, the transaction last. -/
def requestSlices (session : FixedBytes SESSION_ID_LEN) (hostCommit txDigest : FixedBytes HASH_LEN)
    (transaction : Bytes) : List Slice :=
  headerSlices .request session ++
    [⟨HEADER_LEN, HEADER_LEN + 32, hostCommit.val⟩, ⟨HEADER_LEN + 32, HEADER_LEN + 64, txDigest.val⟩,
      ⟨HEADER_LEN + 64, REQUEST_FIXED_LEN, leBytes 4 transaction.length⟩,
      ⟨REQUEST_FIXED_LEN, REQUEST_FIXED_LEN + transaction.length, transaction⟩]

theorem contiguous_requestSlices (session : FixedBytes SESSION_ID_LEN)
    (hostCommit txDigest : FixedBytes HASH_LEN) (transaction : Bytes) :
    Contiguous 0 (requestSlices session hostCommit txDigest transaction) := by
  refine contiguous_append.mpr ⟨contiguous_headerSlices .request session, ?_⟩
  rw [length_headerSlices]
  simp [Contiguous, REQUEST_FIXED_LEN, HASH_LEN, hostCommit.property, txDigest.property]

theorem length_requestSlices (session : FixedBytes SESSION_ID_LEN)
    (hostCommit txDigest : FixedBytes HASH_LEN) (transaction : Bytes) :
    (contents (requestSlices session hostCommit txDigest transaction)).length =
      REQUEST_FIXED_LEN + transaction.length := by
  simp [requestSlices, length_headerSlices, REQUEST_FIXED_LEN, HASH_LEN, hostCommit.property,
    txDigest.property]
  omega

section
variable (sha256 : Bytes → FixedBytes 32)

/-- What `encode_request` writes for a secret and a transaction. -/
def requestWire (hostSecret : FixedBytes HASH_LEN) (transaction : Bytes) : List Slice :=
  let hostCommit := hostCommitment sha256 hostSecret
  let txDigest := transactionDigest sha256 transaction
  requestSlices (sessionId sha256 hostCommit txDigest) hostCommit txDigest transaction

/-- Only a transaction whose length does not fit 32 bits is refused. -/
theorem encodes_request (hostSecret : FixedBytes HASH_LEN) (transaction : Bytes) :
    Encodes (encodeRequest sha256 hostSecret transaction) (transaction.length < 2 ^ 32)
      (contents (requestWire sha256 hostSecret transaction)) := by
  apply encodes_writeSlices (contiguous_requestSlices _ _ _ transaction)
    (length_requestSlices _ _ _ transaction)
  intro out r
  simp only [encodeRequest, bind_eq_ok, ensureOutput_eq_ok, writeHeader_eq_ok, transactionLen_eq_ok,
    requestSlices, writeSlices_append]
  constructor
  · intro h
    obtain ⟨_, ⟨hsmall, hn⟩, _, hroom, _, ⟨_, hout⟩, hr⟩ := h
    rw [hout, hn] at hr
    exact ⟨hsmall, hroom, (Except.ok.inj hr).symm⟩
  · intro h
    obtain ⟨hsmall, hroom, hr⟩ := h
    refine ⟨_, ⟨hsmall, rfl⟩, (), hroom, _, ⟨le_trans ?_ hroom, rfl⟩, by rw [hr]; rfl⟩
    rw [REQUEST_FIXED_LEN]
    omega

/-- A request is accepted exactly when its hashes bind and the input is the row of its fields. -/
theorem parseRequest_eq_ok {input : Bytes} {request : Request} :
    parseRequest sha256 input = .ok request ↔
      (request.transaction.length < 2 ^ 32 ∧
        transactionDigest sha256 request.transaction = request.transactionDigest ∧
        sessionId sha256 request.hostCommitment request.transactionDigest = request.sessionId) ∧
      input = contents (requestSlices request.sessionId request.hostCommitment
        request.transactionDigest request.transaction) := by
  rw [← (contiguous_requestSlices request.sessionId request.hostCommitment request.transactionDigest
    request.transaction).holds_iff_eq (length_requestSlices _ _ _ _)]
  simp only [requestSlices, holds_append, holds_cons, holds_nil, and_true]
  constructor
  · intro h
    simp only [parseRequest, bind_eq_ok, rejectIf_eq_ok, parseHeader_eq_ok, exactTail_eq_ok,
      validateRequestBinding, Decidable.not_not] at h
    obtain ⟨header, ⟨_, _, hheader⟩, _, hlong, n, hn, tail, ⟨hlen, htail⟩, _,
      ⟨_, hdigest, hsession⟩, hr⟩ := h
    have hroom : REQUEST_FIXED_LEN ≤ input.length := Nat.le_of_not_lt hlong
    have hwidth : (cut input (HEADER_LEN + 64) REQUEST_FIXED_LEN).length = 4 := length_cut hroom
    rw [readU32_eq_ok hwidth] at hn
    obtain ⟨hbytes, hsmall⟩ := hn
    have hr := Except.ok.inj hr
    subst hr
    have htailLen : tail.length = n := by
      rw [htail, List.length_drop]
      omega
    rw [← htailLen] at hlen hbytes hsmall
    have hfit : 90 ≤ input.length := hroom
    refine ⟨⟨hsmall, hdigest, hsession⟩, ⟨hheader, (val_array (length_cut ?_)).symm,
      (val_array (length_cut ?_)).symm, hbytes.symm, ?_⟩, hlen.symm⟩
    · exact le_trans (by decide) hfit
    · exact le_trans (by decide) hfit
    · rw [hlen, cut, List.take_length, htail]
  · intro h
    obtain ⟨⟨hsmall, hdigest, hsession⟩, ⟨hheader, hcommit, htxDigest, htxLen, htx⟩, hlen⟩ := h
    have hroom : REQUEST_FIXED_LEN ≤ input.length := by omega
    have hheaderRoom : HEADER_LEN ≤ input.length := le_trans (by decide) hroom
    have hwidth : (cut input (HEADER_LEN + 64) REQUEST_FIXED_LEN).length = 4 := length_cut hroom
    have htail : input.drop REQUEST_FIXED_LEN = request.transaction := by
      rw [← hlen, cut, List.take_length] at htx
      exact htx
    simp only [parseRequest, bind_eq_ok, rejectIf_eq_ok, parseHeader_eq_ok, exactTail_eq_ok,
      validateRequestBinding, Decidable.not_not]
    refine ⟨⟨VERSION, .request, request.sessionId⟩, ⟨⟨rfl, rfl⟩, hheaderRoom, hheader⟩, (),
      Nat.not_lt_of_le hroom, request.transaction.length,
      (readU32_eq_ok hwidth).mpr ⟨htxLen.symm, hsmall⟩, request.transaction, ⟨hlen.symm, htail.symm⟩,
      (), ?_, ?_⟩
    · rw [hcommit, htxDigest, array_val, array_val]
      exact ⟨(), hdigest, hsession⟩
    · rw [hcommit, htxDigest, array_val, array_val]
      rfl

end

/-! ## Commitments -/

/-- The layout of a commitment: its records follow the count as a table. -/
def commitmentSlices (session : FixedBytes SESSION_ID_LEN) (txDigest : FixedBytes HASH_LEN)
    (records : List NonceCommitment) : List Slice :=
  headerSlices .commitment session ++
    [⟨HEADER_LEN, HEADER_LEN + 32, txDigest.val⟩,
      ⟨HEADER_LEN + 32, COMMITMENT_FIXED_LEN, leBytes 4 records.length⟩] ++
    tableSlices COMMITMENT_FIXED_LEN COMMITMENT_RECORD_LEN commitmentRecordSlices records

theorem length_commitmentTable (records : List NonceCommitment) :
    (contents (tableSlices COMMITMENT_FIXED_LEN COMMITMENT_RECORD_LEN commitmentRecordSlices
      records)).length = records.length * COMMITMENT_RECORD_LEN := by
  rw [contents_tableSlices, length_flatMap_width length_commitmentRecordSlices]

/-- The rows of the table lie one after the other, from the end of the fixed fields. -/
theorem contiguous_commitmentTable (records : List NonceCommitment) :
    Contiguous COMMITMENT_FIXED_LEN
      (tableSlices COMMITMENT_FIXED_LEN COMMITMENT_RECORD_LEN commitmentRecordSlices records) :=
  contiguous_tableSlices _ length_commitmentRecordSlices contiguous_commitmentRecordSlices records

theorem contiguous_commitmentSlices (session : FixedBytes SESSION_ID_LEN)
    (txDigest : FixedBytes HASH_LEN) (records : List NonceCommitment) :
    Contiguous 0 (commitmentSlices session txDigest records) := by
  refine contiguous_append.mpr ⟨contiguous_append.mpr
    ⟨contiguous_headerSlices .commitment session, ?_⟩, ?_⟩
  · rw [length_headerSlices]
    simp [Contiguous, COMMITMENT_FIXED_LEN, HASH_LEN, txDigest.property]
  · have hfixed := contiguous_commitmentTable records
    rw [contents_append, List.length_append, length_headerSlices]
    simpa [COMMITMENT_FIXED_LEN, txDigest.property, HASH_LEN, Nat.add_assoc] using hfixed

theorem length_commitmentSlices (session : FixedBytes SESSION_ID_LEN)
    (txDigest : FixedBytes HASH_LEN) (records : List NonceCommitment) :
    (contents (commitmentSlices session txDigest records)).length =
      COMMITMENT_FIXED_LEN + records.length * COMMITMENT_RECORD_LEN := by
  rw [commitmentSlices, contents_append, contents_append, List.length_append, List.length_append,
    length_headerSlices, length_commitmentTable]
  simp [COMMITMENT_FIXED_LEN, txDigest.property, HASH_LEN, Nat.add_assoc]

/-- Only an empty table, or one whose count does not fit 32 bits, is refused. -/
theorem encodes_commitment (session : FixedBytes SESSION_ID_LEN) (txDigest : FixedBytes HASH_LEN)
    (records : List NonceCommitment) :
    Encodes (encodeCommitment session txDigest records)
      (records.length ≠ 0 ∧ records.length < 2 ^ 32)
      (contents (commitmentSlices session txDigest records)) := by
  apply encodes_writeSlices (contiguous_commitmentSlices session txDigest records)
    (length_commitmentSlices session txDigest records)
  intro out r
  simp only [encodeCommitment, bind_eq_ok, ensureOutput_eq_ok, writeHeader_eq_ok, nonzeroCount_eq_ok,
    commitmentSlices, writeSlices_append]
  constructor
  · intro h
    obtain ⟨_, ⟨hcount, hn⟩, _, hroom, _, ⟨_, hout⟩, hr⟩ := h
    rw [hout, hn] at hr
    exact ⟨hcount, hroom, (Except.ok.inj hr).symm⟩
  · intro h
    obtain ⟨hcount, hroom, hr⟩ := h
    refine ⟨_, ⟨hcount, rfl⟩, (), hroom, _, ⟨le_trans ?_ hroom, rfl⟩, by rw [hr]; rfl⟩
    rw [COMMITMENT_FIXED_LEN]
    omega

/-- What acceptance says of the input, with the records still as bytes. -/
theorem parseCommitment_eq_ok {input : Bytes} {commitment : Commitment} :
    parseCommitment input = .ok commitment ↔
      Holds input (headerSlices .commitment commitment.sessionId) ∧
      cut input HEADER_LEN (HEADER_LEN + 32) = commitment.transactionDigest.val ∧
      cut input (HEADER_LEN + 32) COMMITMENT_FIXED_LEN = leBytes 4 commitment.count ∧
      commitment.count < 2 ^ 32 ∧ input.drop COMMITMENT_FIXED_LEN = commitment.recordBytes ∧
      input.length = COMMITMENT_FIXED_LEN + commitment.count * COMMITMENT_RECORD_LEN := by
  simp only [parseCommitment, bind_eq_ok, rejectIf_eq_ok, parseHeader_eq_ok]
  constructor
  · intro h
    obtain ⟨header, ⟨_, _, hheader⟩, _, hlong, n, hn, hr⟩ := h
    have hroom : COMMITMENT_FIXED_LEN ≤ input.length := Nat.le_of_not_lt hlong
    have hwidth : (cut input (HEADER_LEN + 32) COMMITMENT_FIXED_LEN).length = 4 := length_cut hroom
    rw [readU32_eq_ok hwidth] at hn
    split at hr
    · cases hr
    · split at hr
      · rename_i hlen
        have hr := Except.ok.inj hr
        subst hr
        refine ⟨hheader, (val_array (length_cut ?_)).symm, hn.1.symm, hn.2, rfl, hlen.symm⟩
        exact le_trans (by decide) hroom
      · cases hr
  · intro h
    obtain ⟨hheader, hdigest, hcount, hsmall, hrecords, hlen⟩ := h
    have hroom : COMMITMENT_FIXED_LEN ≤ input.length := by omega
    have hheaderRoom : HEADER_LEN ≤ input.length := le_trans (by decide) hroom
    have hwidth : (cut input (HEADER_LEN + 32) COMMITMENT_FIXED_LEN).length = 4 := length_cut hroom
    refine ⟨⟨VERSION, .commitment, commitment.sessionId⟩, ⟨⟨rfl, rfl⟩, hheaderRoom, hheader⟩, (),
      Nat.not_lt_of_le hroom, commitment.count,
      (readU32_eq_ok hwidth).mpr ⟨hcount.symm, hsmall⟩, ?_⟩
    rw [dif_neg commitment.nonzero, dif_pos hlen.symm]
    obtain ⟨session, digest, recordBytes, count, hnonzero, hbytes⟩ := commitment
    simp only at hdigest hrecords ⊢
    subst hrecords
    simp only [hdigest, array_val]
    rfl

/-- Reading by index is reading the list of records. -/
theorem Commitment.record_eq (commitment : Commitment) (index : Nat) :
    commitment.record index = commitment.records[index]? := by
  rw [records, getElem?_tableRecords, record]
  by_cases h : commitment.count ≤ index
  · rw [if_pos h, if_neg (Nat.not_lt_of_le h)]
  · rw [if_neg h, if_pos (Nat.lt_of_not_le h)]

theorem Commitment.length_records (commitment : Commitment) :
    commitment.records.length = commitment.len := length_tableRecords _ _ _

/-- The table of a parsed commitment is what the encoder writes for its records. -/
theorem Commitment.contents_records (commitment : Commitment) :
    contents (tableSlices COMMITMENT_FIXED_LEN COMMITMENT_RECORD_LEN commitmentRecordSlices
      commitment.records) = commitment.recordBytes := by
  rw [contents_tableSlices]
  exact @flatMap_tableRecords _ _ (fun r => contents (commitmentRecordSlices r)) _
    contents_readCommitmentRecord _ _ commitment.length_recordBytes

/-- An accepted commitment is the row of its own records. -/
theorem wire_of_parseCommitment {input : Bytes} {commitment : Commitment}
    (h : parseCommitment input = .ok commitment) :
    (commitment.records.length ≠ 0 ∧ commitment.records.length < 2 ^ 32) ∧
      input = contents (commitmentSlices commitment.sessionId commitment.transactionDigest
        commitment.records) := by
  obtain ⟨hheader, hdigest, hcount, hsmall, hrecords, hlen⟩ := parseCommitment_eq_ok.mp h
  have hlength : commitment.records.length = commitment.count := commitment.length_records
  rw [hlength]
  refine ⟨⟨commitment.nonzero, hsmall⟩, ?_⟩
  rw [← hlength] at hlen
  refine ((contiguous_commitmentSlices _ _ _).holds_iff_eq (length_commitmentSlices _ _ _)).mp
    ⟨?_, hlen⟩
  have htable : Holds input (tableSlices COMMITMENT_FIXED_LEN COMMITMENT_RECORD_LEN
      commitmentRecordSlices commitment.records) := by
    rw [holds_iff_from (contiguous_commitmentTable _), commitment.contents_records, hrecords,
      List.take_length]
  rw [commitmentSlices, holds_append, holds_append, holds_cons, holds_cons, hlength]
  exact ⟨⟨hheader, hdigest, hcount, holds_nil⟩, htable⟩

/-- The row of a table that can be written is accepted, and gives the table back. -/
theorem parseCommitment_wire {session : FixedBytes SESSION_ID_LEN} {txDigest : FixedBytes HASH_LEN}
    {records : List NonceCommitment} (hcount : records.length ≠ 0 ∧ records.length < 2 ^ 32) :
    ∃ commitment, parseCommitment (contents (commitmentSlices session txDigest records)) = .ok commitment ∧
      (commitment.sessionId, commitment.transactionDigest, commitment.records) =
        (session, txDigest, records) := by
  have hwire := ((contiguous_commitmentSlices session txDigest records).holds_iff_eq
    (length_commitmentSlices session txDigest records)).mpr rfl
  generalize contents (commitmentSlices session txDigest records) = input at hwire ⊢
  obtain ⟨hold, hlen⟩ := hwire
  rw [commitmentSlices, holds_append, holds_append, holds_cons, holds_cons] at hold
  obtain ⟨⟨hheader, hdigest, hlenBytes, _⟩, htable⟩ := hold
  have hrow : input.drop COMMITMENT_FIXED_LEN =
      records.flatMap fun record => contents (commitmentRecordSlices record) := by
    rw [holds_iff_from (contiguous_commitmentTable _), length_commitmentTable,
      contents_tableSlices] at htable
    rw [← htable, List.take_of_length_le]
    rw [List.length_drop, hlen, Nat.add_sub_cancel_left]
  refine ⟨{ sessionId := session, transactionDigest := txDigest
            recordBytes := input.drop COMMITMENT_FIXED_LEN, count := records.length
            nonzero := hcount.1
            length_recordBytes := by rw [List.length_drop, hlen, Nat.add_sub_cancel_left] }, ?_, ?_⟩
  · exact parseCommitment_eq_ok.mpr ⟨hheader, hdigest, hlenBytes, hcount.2, rfl, hlen⟩
  · simp only [Commitment.records]
    rw [hrow, tableRecords_flatMap length_commitmentRecordSlices readCommitmentRecord_contents]

/-! ## Signed replies -/

/-- The offset of the transaction's length. -/
def lengthOffset (count : Nat) : Nat := SIGNED_FIXED_LEN + count * SIGNATURE_PROOF_LEN

/-- The layout of a signed reply: the table of slots, then the transaction behind its length. -/
def signedSlices (session : FixedBytes SESSION_ID_LEN) (txDigest : FixedBytes HASH_LEN)
    (proofs : List SignatureProof) (transaction : Bytes) : List Slice :=
  let offset := lengthOffset proofs.length
  headerSlices .signed session ++
    [⟨HEADER_LEN, HEADER_LEN + 32, txDigest.val⟩,
      ⟨HEADER_LEN + 32, SIGNED_FIXED_LEN, leBytes 4 proofs.length⟩] ++
    tableSlices SIGNED_FIXED_LEN SIGNATURE_PROOF_LEN signatureProofSlices proofs ++
    [⟨offset, offset + 4, leBytes 4 transaction.length⟩,
      ⟨offset + 4, offset + 4 + transaction.length, transaction⟩]

theorem length_proofTable (proofs : List SignatureProof) :
    (contents (tableSlices SIGNED_FIXED_LEN SIGNATURE_PROOF_LEN signatureProofSlices proofs)).length =
      proofs.length * SIGNATURE_PROOF_LEN := by
  rw [contents_tableSlices, length_flatMap_width length_signatureProofSlices]

theorem contiguous_proofTable (proofs : List SignatureProof) :
    Contiguous SIGNED_FIXED_LEN
      (tableSlices SIGNED_FIXED_LEN SIGNATURE_PROOF_LEN signatureProofSlices proofs) :=
  contiguous_tableSlices _ length_signatureProofSlices contiguous_signatureProofSlices proofs

theorem length_signedFront (session : FixedBytes SESSION_ID_LEN) (txDigest : FixedBytes HASH_LEN)
    (count : Nat) :
    (contents (headerSlices .signed session ++
      [⟨HEADER_LEN, HEADER_LEN + 32, txDigest.val⟩,
        ⟨HEADER_LEN + 32, SIGNED_FIXED_LEN, leBytes 4 count⟩])).length = SIGNED_FIXED_LEN := by
  rw [contents_append, List.length_append, length_headerSlices]
  simp [SIGNED_FIXED_LEN, txDigest.property, HASH_LEN, Nat.add_assoc]

/-- The transaction follows the table wherever the table ends. -/
theorem contiguous_signedSlices (session : FixedBytes SESSION_ID_LEN) (txDigest : FixedBytes HASH_LEN)
    (proofs : List SignatureProof) (transaction : Bytes) :
    Contiguous 0 (signedSlices session txDigest proofs transaction) := by
  refine contiguous_append.mpr ⟨contiguous_append.mpr ⟨contiguous_append.mpr
    ⟨contiguous_headerSlices .signed session, ?_⟩, ?_⟩, ?_⟩
  · rw [length_headerSlices]
    simp [Contiguous, SIGNED_FIXED_LEN, HASH_LEN, txDigest.property]
  · rw [length_signedFront, Nat.zero_add]
    exact contiguous_proofTable proofs
  · rw [contents_append, List.length_append, length_signedFront, length_proofTable, Nat.zero_add]
    simp [Contiguous, lengthOffset]

theorem length_signedSlices (session : FixedBytes SESSION_ID_LEN) (txDigest : FixedBytes HASH_LEN)
    (proofs : List SignatureProof) (transaction : Bytes) :
    (contents (signedSlices session txDigest proofs transaction)).length =
      lengthOffset proofs.length + 4 + transaction.length := by
  rw [signedSlices, contents_append, contents_append, List.length_append, List.length_append,
    length_signedFront, length_proofTable]
  simp [lengthOffset, Nat.add_assoc]

/-- Besides the table, the length of the transaction must fit 32 bits. -/
theorem encodes_signed (session : FixedBytes SESSION_ID_LEN) (txDigest : FixedBytes HASH_LEN)
    (proofs : List SignatureProof) (transaction : Bytes) :
    Encodes (encodeSigned session txDigest proofs transaction)
      ((proofs.length ≠ 0 ∧ proofs.length < 2 ^ 32) ∧ transaction.length < 2 ^ 32)
      (contents (signedSlices session txDigest proofs transaction)) := by
  apply encodes_writeSlices (contiguous_signedSlices session txDigest proofs transaction)
    (length_signedSlices session txDigest proofs transaction)
  intro out r
  simp only [encodeSigned, bind_eq_ok, ensureOutput_eq_ok, writeHeader_eq_ok, nonzeroCount_eq_ok,
    transactionLen_eq_ok, signedSlices, writeSlices_append]
  constructor
  · intro h
    obtain ⟨_, ⟨hcount, hn⟩, _, ⟨hsmall, hm⟩, _, hroom, _, ⟨_, hout⟩, hr⟩ := h
    rw [hout, hn, hm] at hr
    exact ⟨⟨hcount, hsmall⟩, hroom, (Except.ok.inj hr).symm⟩
  · intro h
    obtain ⟨⟨hcount, hsmall⟩, hroom, hr⟩ := h
    refine ⟨_, ⟨hcount, rfl⟩, _, ⟨hsmall, rfl⟩, (), hroom, _, ⟨le_trans ?_ hroom, rfl⟩, by rw [hr]; rfl⟩
    rw [lengthOffset, SIGNED_FIXED_LEN]
    omega

/-- What acceptance says of the input, with the slots still as bytes. -/
theorem parseSigned_eq_ok {input : Bytes} {signed : Signed} :
    parseSigned input = .ok signed ↔
      Holds input (headerSlices .signed signed.sessionId) ∧
      cut input HEADER_LEN (HEADER_LEN + 32) = signed.transactionDigest.val ∧
      cut input (HEADER_LEN + 32) SIGNED_FIXED_LEN = leBytes 4 signed.proofCount ∧
      signed.proofCount < 2 ^ 32 ∧
      cut input SIGNED_FIXED_LEN (lengthOffset signed.proofCount) = signed.proofBytes ∧
      cut input (lengthOffset signed.proofCount) (lengthOffset signed.proofCount + 4) =
        leBytes 4 signed.transaction.length ∧
      signed.transaction.length < 2 ^ 32 ∧
      input.drop (lengthOffset signed.proofCount + 4) = signed.transaction ∧
      input.length = lengthOffset signed.proofCount + 4 + signed.transaction.length := by
  simp only [parseSigned, bind_eq_ok, rejectIf_eq_ok, parseHeader_eq_ok]
  constructor
  · intro h
    obtain ⟨header, ⟨_, _, hheader⟩, _, hlong, n, hn, hr⟩ := h
    have hroom : SIGNED_FIXED_LEN ≤ input.length := Nat.le_of_not_lt hlong
    have hwidth : (cut input (HEADER_LEN + 32) SIGNED_FIXED_LEN).length = 4 := length_cut hroom
    rw [readU32_eq_ok hwidth] at hn
    split at hr
    · cases hr
    · split at hr
      · rename_i htxRoom
        simp only [bind_eq_ok, exactTail_eq_ok] at hr
        obtain ⟨m, hm, tail, ⟨hlen, htail⟩, hr⟩ := hr
        have hr := Except.ok.inj hr
        subst hr
        rw [readU32_eq_ok (by rw [length_cut htxRoom, Nat.add_sub_cancel_left])] at hm
        have htailLen : tail.length = m := by
          rw [htail, List.length_drop]
          omega
        rw [← htailLen] at hm hlen
        refine ⟨hheader, (val_array (length_cut ?_)).symm, hn.1.symm, hn.2, rfl, hm.1.symm, hm.2,
          htail.symm, hlen.symm⟩
        exact le_trans (by decide) hroom
      · cases hr
  · intro h
    obtain ⟨hheader, hdigest, hcount, hsmall, hproofs, htxLen, htxSmall, htx, hlen⟩ := h
    unfold lengthOffset at hproofs htxLen htx hlen
    have htxRoom : SIGNED_FIXED_LEN + signed.proofCount * SIGNATURE_PROOF_LEN + 4 ≤ input.length := by
      omega
    have hroom : SIGNED_FIXED_LEN ≤ input.length := by omega
    have hheaderRoom : HEADER_LEN ≤ input.length := le_trans (by decide) hroom
    have hwidth : (cut input (HEADER_LEN + 32) SIGNED_FIXED_LEN).length = 4 := length_cut hroom
    have htxWidth : (cut input (SIGNED_FIXED_LEN + signed.proofCount * SIGNATURE_PROOF_LEN)
        (SIGNED_FIXED_LEN + signed.proofCount * SIGNATURE_PROOF_LEN + 4)).length = 4 := by
      rw [length_cut htxRoom, Nat.add_sub_cancel_left]
    refine ⟨⟨VERSION, .signed, signed.sessionId⟩, ⟨⟨rfl, rfl⟩, hheaderRoom, hheader⟩, (),
      Nat.not_lt_of_le hroom, signed.proofCount,
      (readU32_eq_ok hwidth).mpr ⟨hcount.symm, hsmall⟩, ?_⟩
    rw [dif_neg signed.nonzero, dif_pos htxRoom]
    simp only [bind_eq_ok, exactTail_eq_ok]
    refine ⟨signed.transaction.length, (readU32_eq_ok htxWidth).mpr ⟨htxLen.symm, htxSmall⟩,
      signed.transaction, ⟨hlen.symm, htx.symm⟩, ?_⟩
    obtain ⟨session, digest, proofBytes, count, transaction, hnonzero, hbytes⟩ := signed
    simp only at hdigest hproofs ⊢
    subst hproofs
    simp only [hdigest, array_val]
    rfl

/-- Reading by index is reading the list of slots. -/
theorem Signed.proof_eq (signed : Signed) (index : Nat) : signed.proof index = signed.proofs[index]? := by
  rw [proofs, getElem?_tableRecords, proof, Nat.succ_mul]
  by_cases h : signed.proofCount ≤ index
  · rw [if_pos h, if_neg (Nat.not_lt_of_le h)]
  · rw [if_neg h, if_pos (Nat.lt_of_not_le h)]

theorem Signed.length_proofs (signed : Signed) : signed.proofs.length = signed.proofCount :=
  length_tableRecords _ _ _

/-- The slots, written again, are the bytes they were read from. -/
theorem Signed.contents_proofs (signed : Signed) :
    contents (tableSlices SIGNED_FIXED_LEN SIGNATURE_PROOF_LEN signatureProofSlices signed.proofs) =
      signed.proofBytes := by
  rw [contents_tableSlices]
  exact @flatMap_tableRecords _ _ (fun r => contents (signatureProofSlices r)) _
    contents_readSignatureProof _ _ signed.length_proofBytes

/-- An accepted reply is the row of its own slots and transaction. -/
theorem wire_of_parseSigned {input : Bytes} {signed : Signed} (h : parseSigned input = .ok signed) :
    ((signed.proofs.length ≠ 0 ∧ signed.proofs.length < 2 ^ 32) ∧
        signed.transaction.length < 2 ^ 32) ∧
      input = contents (signedSlices signed.sessionId signed.transactionDigest signed.proofs
        signed.transaction) := by
  obtain ⟨hheader, hdigest, hcount, hsmall, hproofs, htxLen, htxSmall, htx, hlen⟩ :=
    parseSigned_eq_ok.mp h
  rw [signed.length_proofs]
  refine ⟨⟨⟨signed.nonzero, hsmall⟩, htxSmall⟩, ?_⟩
  rw [← signed.length_proofs] at hlen
  refine ((contiguous_signedSlices _ _ _ _).holds_iff_eq (length_signedSlices _ _ _ _)).mp ⟨?_, hlen⟩
  have htable : Holds input (tableSlices SIGNED_FIXED_LEN SIGNATURE_PROOF_LEN signatureProofSlices
      signed.proofs) := by
    rw [holds_iff_from (contiguous_proofTable _), signed.contents_proofs, signed.length_proofBytes,
      ← hproofs, cut, List.drop_take, lengthOffset, Nat.add_sub_cancel_left]
  have htail : cut input (lengthOffset signed.proofCount + 4)
      (lengthOffset signed.proofCount + 4 + signed.transaction.length) = signed.transaction := by
    rw [signed.length_proofs] at hlen
    rw [← hlen, cut, List.take_length, htx]
  simp only [signedSlices, holds_append, holds_cons, signed.length_proofs]
  exact ⟨⟨⟨hheader, hdigest, hcount, holds_nil⟩, htable⟩, htxLen, htail, holds_nil⟩

/-- The row of a reply that can be written is accepted, and gives the reply back. -/
theorem parseSigned_wire {session : FixedBytes SESSION_ID_LEN} {txDigest : FixedBytes HASH_LEN}
    {proofs : List SignatureProof} {transaction : Bytes}
    (hvalid : (proofs.length ≠ 0 ∧ proofs.length < 2 ^ 32) ∧ transaction.length < 2 ^ 32) :
    ∃ signed, parseSigned (contents (signedSlices session txDigest proofs transaction)) = .ok signed ∧
      (signed.sessionId, signed.transactionDigest, signed.proofs, signed.transaction) =
        (session, txDigest, proofs, transaction) := by
  have hwire := ((contiguous_signedSlices session txDigest proofs transaction).holds_iff_eq
    (length_signedSlices session txDigest proofs transaction)).mpr rfl
  generalize contents (signedSlices session txDigest proofs transaction) = input at hwire ⊢
  obtain ⟨hold, hlen⟩ := hwire
  simp only [signedSlices, holds_append, holds_cons] at hold
  obtain ⟨⟨⟨hheader, hdigest, hcountBytes, _⟩, htable⟩, htxLen, htx, _⟩ := hold
  have hroom : lengthOffset proofs.length ≤ input.length := by omega
  have hbytes : (cut input SIGNED_FIXED_LEN (lengthOffset proofs.length)).length =
      proofs.length * SIGNATURE_PROOF_LEN := by
    rw [length_cut hroom, lengthOffset, Nat.add_sub_cancel_left]
  have hrow : cut input SIGNED_FIXED_LEN (lengthOffset proofs.length) =
      proofs.flatMap fun proof => contents (signatureProofSlices proof) := by
    rw [holds_iff_from (contiguous_proofTable _), length_proofTable, contents_tableSlices] at htable
    rw [cut, List.drop_take, lengthOffset, Nat.add_sub_cancel_left, htable]
  have htail : input.drop (lengthOffset proofs.length + 4) = transaction := by
    rw [← hlen, cut, List.take_length] at htx
    exact htx
  refine ⟨{ sessionId := session, transactionDigest := txDigest
            proofBytes := cut input SIGNED_FIXED_LEN (lengthOffset proofs.length)
            proofCount := proofs.length, transaction, nonzero := hvalid.1.1
            length_proofBytes := hbytes }, ?_, ?_⟩
  · exact parseSigned_eq_ok.mpr ⟨hheader, hdigest, hcountBytes, hvalid.1.2, rfl, htxLen, hvalid.2,
      htail, hlen⟩
  · simp only [Signed.proofs]
    rw [hrow, tableRecords_flatMap length_signatureProofSlices readSignatureProof_contents]

end KaspaPortal.Transaction.Signing.AntiKlepto
