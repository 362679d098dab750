import KaspaPortal.Crypto.AntiKlepto
import KaspaPortal.Lib.Layout

/-!
# The private-swap transport

`src/transaction/signing/covenant/protocol/private_swap.rs`: requests with a payload of up to
`MAX_PAYLOAD_LEN` bytes, reveals and responses, under the field rules of their kinds. A
pre-signing request also carries the session id that hashes its payload; the hash is given.

Which message may follow which is decided by the callers: a message is accepted for itself.
-/
namespace KaspaPortal.Transaction.Signing.PrivateSwap
open Lib Model Crypto.AntiKlepto

def REQUEST_MAGIC : Bytes := [0x50, 0x53, 0x57, 0x47]
def REVEAL_MAGIC : Bytes := [0x50, 0x53, 0x57, 0x52]
def RESPONSE_MAGIC : Bytes := [0x50, 0x53, 0x57, 0x53]
def VERSION : UInt8 := 1
def SESSION_ID_LEN : Nat := 16
/-- Everything before the payload. -/
def REQUEST_HEADER_LEN : Nat := 221
def REVEAL_LEN : Nat := 117
def RESPONSE_LEN : Nat := 280
/-- Longer payloads are refused by both sides. -/
def MAX_PAYLOAD_LEN : Nat := 2600

/-- The two hash domains end in a zero byte, as the source writes them. -/
def SESSION_DOMAIN : Bytes := ascii "KaspaPortal Private Swap Session v1\x00"
def TX_DOMAIN : Bytes := ascii "KaspaPortal Private Swap KSPT v1\x00"

/-- The four steps of a swap, from asking for the key to completing the signature. -/
inductive RequestKind where
  | keyInfo | bind | preSign | complete
  deriving DecidableEq, Repr

/-- A pre-signing request has two answers: the nonce, and the pre-signature. -/
inductive ResponseKind where
  | keyInfo | binding | nonce | preSignature | completed
  deriving DecidableEq, Repr

/-- Every failed field rule gives `invalidFields`; the error does not say which one. -/
inductive ProtocolError where
  | invalidMagic | unsupportedVersion | invalidKind | invalidLength | invalidFields | outputTooSmall
  deriving DecidableEq, Repr

/-- A request. The payload of a pre-signing request is the transaction its session id hashes. -/
structure PrivateSwapRequest where
  kind : RequestKind
  sessionId : FixedBytes SESSION_ID_LEN
  hostCommitment : FixedBytes 32
  keyId : FixedBytes 32
  bindingToken : FixedBytes 32
  adaptorPoint : FixedBytes 32
  presignature : FixedBytes 64
  presignatureNegated : Bool
  payload : Bytes
  deriving DecidableEq

/-- The host's secret for a session, with the sighash it is used for. -/
structure PrivateSwapReveal where
  sessionId : FixedBytes SESSION_ID_LEN
  keyId : FixedBytes 32
  sighash : FixedBytes 32
  hostSecret : FixedBytes 32
  deriving DecidableEq

/-- An answer. All kinds have one shape, with zeros where a kind has nothing to say. -/
structure PrivateSwapResponse where
  kind : ResponseKind
  sessionId : FixedBytes SESSION_ID_LEN
  keyId : FixedBytes 32
  claimPubkey : FixedBytes 32
  bindingToken : FixedBytes 32
  adaptorPoint : FixedBytes 32
  commitment : FixedBytes 32
  noncePoint : FixedBytes 33
  signature : FixedBytes 64
  negated : Bool
  deriving DecidableEq

/-! ## Enumerations -/

def RequestKind.toByte : RequestKind → UInt8
  | .keyInfo => 0
  | .bind => 1
  | .preSign => 2
  | .complete => 3

def ResponseKind.toByte : ResponseKind → UInt8
  | .keyInfo => 0
  | .binding => 1
  | .nonce => 2
  | .preSignature => 3
  | .completed => 4

/-- `u8::from(bool)`. -/
def boolByte (value : Bool) : UInt8 := if value then 1 else 0

/-- A tag outside the four is refused. -/
def parseRequestKind : UInt8 → Except ProtocolError RequestKind
  | 0 => .ok .keyInfo
  | 1 => .ok .bind
  | 2 => .ok .preSign
  | 3 => .ok .complete
  | _ => .error .invalidKind

def parseResponseKind : UInt8 → Except ProtocolError ResponseKind
  | 0 => .ok .keyInfo
  | 1 => .ok .binding
  | 2 => .ok .nonce
  | 3 => .ok .preSignature
  | 4 => .ok .completed
  | _ => .error .invalidKind

/-- A flag is 0 or 1; other bytes are refused, so that a flag has one encoding. -/
def parseBool : UInt8 → Except ProtocolError Bool
  | 0 => .ok false
  | 1 => .ok true
  | _ => .error .invalidFields

/-- A tag reads as a kind exactly when it is the one the kind is written as. -/
theorem parseRequestKind_eq_ok {byte : UInt8} {kind : RequestKind} :
    parseRequestKind byte = .ok kind ↔ byte = kind.toByte := by
  apply tag_eq_ok
  · intro kind
    cases kind <;> rfl
  · intro byte kind h
    unfold parseRequestKind at h
    split at h <;> cases h <;> rfl

theorem parseResponseKind_eq_ok {byte : UInt8} {kind : ResponseKind} :
    parseResponseKind byte = .ok kind ↔ byte = kind.toByte := by
  apply tag_eq_ok
  · intro kind
    cases kind <;> rfl
  · intro byte kind h
    unfold parseResponseKind at h
    split at h <;> cases h <;> rfl

/-- A flag reads as a truth value exactly when it is the byte the value is written as. -/
theorem parseBool_eq_ok {byte : UInt8} {value : Bool} :
    parseBool byte = .ok value ↔ byte = boolByte value := by
  apply tag_eq_ok
  · intro value
    cases value <;> rfl
  · intro byte value h
    unfold parseBool at h
    split at h <;> cases h <;> rfl

/-! ## Session ids -/

section
variable (sha256 : Bytes → FixedBytes 32)

/-- The domain is hashed before the parts. Nothing separates the parts. -/
def domainHash (domain : Bytes) (parts : List Bytes) : FixedBytes 32 := sha256 (domain ++ parts.flatten)

/-- What a session binds of a transaction. -/
def transactionDigest (transaction : Bytes) : FixedBytes 32 := domainHash sha256 TX_DOMAIN [transaction]

/-- The session is named by a hash of everything it is about. -/
def sessionId (hostCommitment : FixedBytes 32) (transaction : Bytes) (keyId adaptorPoint : FixedBytes 32) :
    FixedBytes SESSION_ID_LEN :=
  array SESSION_ID_LEN ((domainHash sha256 SESSION_DOMAIN
    [hostCommitment.val, (transactionDigest sha256 transaction).val, keyId.val, adaptorPoint.val]).val.take
      SESSION_ID_LEN)

end

/-! ## Field rules -/

section
variable (request : PrivateSwapRequest)

/-- A request for the key carries nothing else. -/
def validateKeyInfoRequest : Except ProtocolError Unit :=
  rejectIf (¬ (request.sessionId = zeros SESSION_ID_LEN ∧ request.hostCommitment = zeros 32 ∧
    request.keyId = zeros 32 ∧ request.bindingToken = zeros 32 ∧ request.adaptorPoint = zeros 32 ∧
    request.presignature = zeros 64 ∧ request.presignatureNegated = false ∧ request.payload = []))
    ProtocolError.invalidFields

/-- Binding names the key and the adaptor point, and has no session yet. -/
def validateBindRequest : Except ProtocolError Unit :=
  rejectIf (¬ (request.sessionId = zeros SESSION_ID_LEN ∧ request.hostCommitment = zeros 32 ∧
    request.keyId ≠ zeros 32 ∧ request.bindingToken = zeros 32 ∧ request.adaptorPoint ≠ zeros 32 ∧
    request.presignature = zeros 64 ∧ request.presignatureNegated = false ∧ request.payload ≠ []))
    ProtocolError.invalidFields

/-- Everything but the pre-signature is present, and the session id must be the hash of what the
request carries. -/
def validatePresignRequest (sha256 : Bytes → FixedBytes 32) : Except ProtocolError Unit := do
  rejectIf (¬ (request.hostCommitment ≠ zeros 32 ∧ request.keyId ≠ zeros 32 ∧
    request.bindingToken ≠ zeros 32 ∧ request.adaptorPoint ≠ zeros 32 ∧
    request.presignature = zeros 64 ∧ request.presignatureNegated = false ∧ request.payload ≠ []))
    ProtocolError.invalidFields
  let expected := sessionId sha256 request.hostCommitment request.payload request.keyId
    request.adaptorPoint
  rejectIf (request.sessionId ≠ expected) ProtocolError.invalidFields

/-- Completion carries the pre-signature outside any session. -/
def validateCompleteRequest : Except ProtocolError Unit :=
  rejectIf (¬ (request.sessionId = zeros SESSION_ID_LEN ∧ request.hostCommitment = zeros 32 ∧
    request.keyId ≠ zeros 32 ∧ request.bindingToken ≠ zeros 32 ∧ request.adaptorPoint ≠ zeros 32 ∧
    request.presignature ≠ zeros 64 ∧ request.payload ≠ []))
    ProtocolError.invalidFields

/-- The length of the payload is checked before the rules of the kind. -/
def validateRequest (sha256 : Bytes → FixedBytes 32) : Except ProtocolError Unit := do
  rejectIf (MAX_PAYLOAD_LEN < request.payload.length) ProtocolError.invalidLength
  match request.kind with
  | .keyInfo => validateKeyInfoRequest request
  | .bind => validateBindRequest request
  | .preSign => validatePresignRequest request sha256
  | .complete => validateCompleteRequest request

end

section
variable (response : PrivateSwapResponse)

/-- Every answer names the key, the claim key and the adaptor point. -/
def validateResponseIdentity : Except ProtocolError Unit :=
  rejectIf (¬ (response.keyId ≠ zeros 32 ∧ response.claimPubkey ≠ zeros 32 ∧
    response.adaptorPoint ≠ zeros 32)) ProtocolError.invalidFields

/-- The keys and the adaptor point alone. -/
def validateKeyInfoResponse : Except ProtocolError Unit :=
  rejectIf (¬ (response.sessionId = zeros SESSION_ID_LEN ∧ response.bindingToken = zeros 32 ∧
    response.commitment = zeros 32 ∧ response.noncePoint = zeros 33 ∧ response.signature = zeros 64 ∧
    response.negated = false)) ProtocolError.invalidFields

/-- A token and a commitment for the adaptor point, outside any session. -/
def validateBindingResponse : Except ProtocolError Unit :=
  rejectIf (¬ (response.sessionId = zeros SESSION_ID_LEN ∧ response.bindingToken ≠ zeros 32 ∧
    response.commitment ≠ zeros 32 ∧ response.noncePoint = zeros 33 ∧ response.signature = zeros 64 ∧
    response.negated = false)) ProtocolError.invalidFields

/-- The nonce and its commitment inside a session, and no signature yet. -/
def validateNonceResponse : Except ProtocolError Unit :=
  rejectIf (¬ (response.sessionId ≠ zeros SESSION_ID_LEN ∧ response.bindingToken ≠ zeros 32 ∧
    response.commitment ≠ zeros 32 ∧ response.noncePoint ≠ zeros 33 ∧ response.signature = zeros 64 ∧
    response.negated = false)) ProtocolError.invalidFields

/-- The pre-signature inside a session, with the nonce it was made for. -/
def validatePresignatureResponse : Except ProtocolError Unit :=
  rejectIf (¬ (response.sessionId ≠ zeros SESSION_ID_LEN ∧ response.bindingToken ≠ zeros 32 ∧
    response.commitment ≠ zeros 32 ∧ response.noncePoint ≠ zeros 33 ∧ response.signature ≠ zeros 64))
    ProtocolError.invalidFields

/-- The completed signature. It has no session and no nonce left. -/
def validateCompletedResponse : Except ProtocolError Unit :=
  rejectIf (¬ (response.sessionId = zeros SESSION_ID_LEN ∧ response.bindingToken ≠ zeros 32 ∧
    response.commitment ≠ zeros 32 ∧ response.noncePoint = zeros 33 ∧ response.signature ≠ zeros 64 ∧
    response.negated = false)) ProtocolError.invalidFields

/-- The identity is checked first, then the shape of the kind. -/
def validateResponse : Except ProtocolError Unit := do
  validateResponseIdentity response
  match response.kind with
  | .keyInfo => validateKeyInfoResponse response
  | .binding => validateBindingResponse response
  | .nonce => validateNonceResponse response
  | .preSignature => validatePresignatureResponse response
  | .completed => validateCompletedResponse response

end

/-! ## Requests -/

/-- The layout of a request: every field at its offset, the payload last. -/
def requestSlices (request : PrivateSwapRequest) : List Slice :=
  [⟨0, 4, REQUEST_MAGIC⟩, ⟨4, 5, [VERSION]⟩, ⟨5, 6, [request.kind.toByte]⟩,
    ⟨6, 22, request.sessionId.val⟩, ⟨22, 54, request.hostCommitment.val⟩, ⟨54, 86, request.keyId.val⟩,
    ⟨86, 118, request.bindingToken.val⟩, ⟨118, 150, request.adaptorPoint.val⟩,
    ⟨150, 214, request.presignature.val⟩, ⟨214, 215, [boolByte request.presignatureNegated]⟩,
    ⟨215, 219, beBytes 4 request.payload.length⟩,
    -- Reserved bytes are authenticated by transport shape and must remain zero.
    ⟨219, 221, [0, 0]⟩,
    ⟨REQUEST_HEADER_LEN, REQUEST_HEADER_LEN + request.payload.length, request.payload⟩]

/-- The magic and the version, checked before the tag. -/
def validateRequestPrefix (input : Bytes) : Except ProtocolError Unit := do
  rejectIf (input.length < REQUEST_HEADER_LEN ∨ ¬ REQUEST_MAGIC <+: input) ProtocolError.invalidMagic
  rejectIf (byteAt input 4 ≠ VERSION) ProtocolError.unsupportedVersion
  rejectIf (byteAt input 219 ≠ 0 ∨ byteAt input 220 ≠ 0) ProtocolError.invalidFields

/-- The declared payload must make up the rest of the input. -/
def validateRequestPayloadLength (input : Bytes) : Except ProtocolError Unit :=
  let payloadLen := beNat (cut input 215 219)
  rejectIf (MAX_PAYLOAD_LEN < payloadLen ∨ REQUEST_HEADER_LEN + payloadLen ≠ input.length)
    ProtocolError.invalidLength

section
variable (sha256 : Bytes → FixedBytes 32)

/-- Nothing is written before all checks have passed. -/
def encodeRequest (request : PrivateSwapRequest) (out : Bytes) : Except ProtocolError (Nat × Bytes) := do
  validateRequest request sha256
  let total := REQUEST_HEADER_LEN + request.payload.length
  rejectIf (out.length < total) ProtocolError.outputTooSmall
  return (total, writeSlices out (requestSlices request))

/-- The same rules after the fields have been read, so that what is read could have been written. -/
def parseRequest (input : Bytes) : Except ProtocolError PrivateSwapRequest := do
  validateRequestPrefix input
  let kind ← parseRequestKind (byteAt input 5)
  validateRequestPayloadLength input
  let presignatureNegated ← parseBool (byteAt input 214)
  let request : PrivateSwapRequest :=
    { kind
      sessionId := array SESSION_ID_LEN (cut input 6 22)
      hostCommitment := array 32 (cut input 22 54)
      keyId := array 32 (cut input 54 86)
      bindingToken := array 32 (cut input 86 118)
      adaptorPoint := array 32 (cut input 118 150)
      presignature := array 64 (cut input 150 214)
      presignatureNegated
      payload := input.drop REQUEST_HEADER_LEN }
  validateRequest request sha256
  return request

theorem contiguous_requestSlices (request : PrivateSwapRequest) :
    Contiguous 0 (requestSlices request) := by
  simp [requestSlices, Contiguous, REQUEST_MAGIC, REQUEST_HEADER_LEN, request.sessionId.property,
    request.hostCommitment.property, request.keyId.property, request.bindingToken.property,
    request.adaptorPoint.property, request.presignature.property, SESSION_ID_LEN]

/-- The written fields are as long as the encoder announces. -/
theorem length_requestSlices (request : PrivateSwapRequest) :
    (contents (requestSlices request)).length = REQUEST_HEADER_LEN + request.payload.length := by
  simp [requestSlices, REQUEST_MAGIC, REQUEST_HEADER_LEN, request.sessionId.property,
    request.hostCommitment.property, request.keyId.property, request.bindingToken.property,
    request.adaptorPoint.property, request.presignature.property, SESSION_ID_LEN]
  omega

/-- The encoder writes the fields of a valid request, and refuses every other one. -/
theorem encodes_request (request : PrivateSwapRequest) :
    Encodes (encodeRequest sha256 request) (validateRequest request sha256 = .ok ())
      (contents (requestSlices request)) := by
  apply encodes_writeSlices (contiguous_requestSlices request) (length_requestSlices request)
  intro out r
  simp only [encodeRequest, bind_eq_ok, rejectIf_eq_ok]
  constructor
  · intro h
    obtain ⟨_, hvalid, _, hroom, hr⟩ := h
    exact ⟨hvalid, Nat.le_of_not_lt hroom, (Except.ok.inj hr).symm⟩
  · intro h
    obtain ⟨hvalid, hroom, hr⟩ := h
    exact ⟨(), hvalid, (), Nat.not_lt_of_le hroom, by rw [hr]; rfl⟩

/-- What a parsed request says of the input: every field stands at its offset, and nothing follows. -/
theorem holds_of_parseRequest {input : Bytes} {request : PrivateSwapRequest}
    (h : parseRequest sha256 input = .ok request) :
    validateRequest request sha256 = .ok () ∧ Holds input (requestSlices request) ∧
      input.length = REQUEST_HEADER_LEN + request.payload.length := by
  simp only [parseRequest, validateRequestPrefix, validateRequestPayloadLength, bind_eq_ok,
    rejectIf_eq_ok, parseRequestKind_eq_ok, parseBool_eq_ok, not_or, Decidable.not_not,
    prefix_iff_cut] at h
  obtain ⟨_, ⟨_, ⟨hlong, hmagic⟩, _, hversion, hzero, hzero'⟩, kind, hkind, _, ⟨_, hlen⟩, negated,
    hnegated, _, hvalid, hrequest⟩ := h
  have hrequest := Except.ok.inj hrequest
  subst hrequest
  have hroom : 221 ≤ input.length := Nat.le_of_not_lt hlong
  have hpayload : (input.drop REQUEST_HEADER_LEN).length = beNat (cut input 215 219) := by
    rw [List.length_drop, ← hlen, Nat.add_sub_cancel_left]
  have hfield : ∀ start stop n, stop ≤ 221 → stop - start = n →
      cut input start stop = (array n (cut input start stop)).val := fun start stop n hstop hn =>
    (val_array (by rw [length_cut (le_trans hstop hroom), hn])).symm
  have hbyte : ∀ index, index < 221 → cut input index (index + 1) = [byteAt input index] :=
    fun index hindex => cut_byteAt (lt_of_lt_of_le hindex hroom)
  refine ⟨hvalid, ?_, ?_⟩
  · simp only [requestSlices, holds_cons, holds_nil, and_true, hpayload]
    refine ⟨hmagic, ?_, ?_, hfield 6 22 16 (by omega) rfl, hfield 22 54 32 (by omega) rfl,
      hfield 54 86 32 (by omega) rfl, hfield 86 118 32 (by omega) rfl, hfield 118 150 32 (by omega) rfl,
      hfield 150 214 64 (by omega) rfl, ?_, ?_, ?_, ?_⟩
    · rw [hbyte 4 (by omega), hversion]
    · rw [hbyte 5 (by omega), hkind]
    · rw [hbyte 214 (by omega), hnegated]
    · have hwidth : (cut input 215 219).length = 4 := length_cut (by omega)
      have hread := beBytes_beNat (cut input 215 219)
      rw [hwidth] at hread
      exact hread.symm
    · have hjoin : cut input 219 220 ++ cut input 220 221 = cut input 219 221 :=
        cut_append_cut (by omega) (by omega)
      rw [← hjoin, hbyte 219 (by omega), hbyte 220 (by omega), hzero, hzero']
      rfl
    · rw [hlen, cut, List.take_length]
  · rw [hpayload, hlen]

/-- Bytes that hold a valid request's fields read back as it. -/
theorem parseRequest_of_holds {input : Bytes} {request : PrivateSwapRequest}
    (hvalid : validateRequest request sha256 = .ok ()) (hold : Holds input (requestSlices request))
    (hlen : input.length = REQUEST_HEADER_LEN + request.payload.length) :
    parseRequest sha256 input = .ok request := by
  have hshort : ¬ MAX_PAYLOAD_LEN < request.payload.length := by
    simp only [validateRequest, bind_eq_ok, rejectIf_eq_ok] at hvalid
    exact hvalid.choose_spec.1
  simp only [requestSlices, holds_cons, holds_nil, and_true] at hold
  obtain ⟨hmagic, hversion, hkind, hsession, hhost, hkey, htoken, hadaptor, hpresignature, hnegated,
    hpayloadLen, hreserved, hpayload⟩ := hold
  have hrest : input.drop REQUEST_HEADER_LEN = request.payload := by
    rw [← hlen, cut, List.take_length] at hpayload
    exact hpayload
  have hzero : byteAt input 219 = 0 := by
    have hfirst : byteAt (cut input 219 221) 0 = byteAt input 219 := byteAt_cut (by omega)
    rw [hreserved] at hfirst
    exact hfirst.symm
  have hzero' : byteAt input 220 = 0 := by
    have hsecond : byteAt (cut input 219 221) 1 = byteAt input 220 := byteAt_cut (by omega)
    rw [hreserved] at hsecond
    exact hsecond.symm
  have hnum : beNat (beBytes 4 request.payload.length) = request.payload.length := by
    rw [MAX_PAYLOAD_LEN] at hshort
    exact beNat_beBytes 4 _ (by omega)
  simp only [parseRequest, validateRequestPrefix, validateRequestPayloadLength, bind_eq_ok,
    rejectIf_eq_ok, parseRequestKind_eq_ok, parseBool_eq_ok, not_or, Decidable.not_not,
    prefix_iff_cut]
  rw [byteAt_of_cut hversion, byteAt_of_cut hkind, byteAt_of_cut hnegated, hzero, hzero', hsession,
    hhost, hkey, htoken, hadaptor, hpresignature, hpayloadLen, hnum, hrest]
  simp only [array_val]
  exact ⟨(), ⟨(), ⟨by omega, hmagic⟩, (), trivial, trivial, trivial⟩, _, rfl, (), ⟨hshort, hlen.symm⟩, _, rfl, (),
    hvalid, rfl⟩

/-- A request is accepted exactly in the bytes it is written as. -/
theorem parseRequest_eq_ok {input : Bytes} {request : PrivateSwapRequest} :
    parseRequest sha256 input = .ok request ↔
      validateRequest request sha256 = .ok () ∧ input = contents (requestSlices request) := by
  rw [← (contiguous_requestSlices request).holds_iff_eq (length_requestSlices request)]
  exact ⟨holds_of_parseRequest sha256, fun h => parseRequest_of_holds sha256 h.1 h.2.1 h.2.2⟩

/-- What is written reads back, and only what is written is read. -/
theorem request_roundTrips : RoundTrips (encodeRequest sha256) (parseRequest sha256) id :=
  .of_iff (encodes_request sha256) fun _ _ => parseRequest_eq_ok sha256

end

/-! ## Reveals -/

/-- The layout of a reveal. Its length is fixed. -/
def revealSlices (reveal : PrivateSwapReveal) : List Slice :=
  [⟨0, 4, REVEAL_MAGIC⟩, ⟨4, 5, [VERSION]⟩, ⟨5, 21, reveal.sessionId.val⟩, ⟨21, 53, reveal.keyId.val⟩,
    ⟨53, 85, reveal.sighash.val⟩, ⟨85, 117, reveal.hostSecret.val⟩]

/-- All four fields must be set. -/
def encodeReveal (reveal : PrivateSwapReveal) (out : Bytes) : Except ProtocolError (Nat × Bytes) := do
  rejectIf (out.length < REVEAL_LEN) ProtocolError.outputTooSmall
  rejectIf (reveal.sessionId = zeros SESSION_ID_LEN ∨ reveal.keyId = zeros 32 ∨
    reveal.sighash = zeros 32 ∨ reveal.hostSecret = zeros 32) ProtocolError.invalidFields
  return (REVEAL_LEN, writeSlices out (revealSlices reveal))

/-- The same checks on what is read. -/
def parseReveal (input : Bytes) : Except ProtocolError PrivateSwapReveal := do
  rejectIf (input.length ≠ REVEAL_LEN ∨ ¬ REVEAL_MAGIC <+: input) ProtocolError.invalidMagic
  rejectIf (byteAt input 4 ≠ VERSION) ProtocolError.unsupportedVersion
  let reveal : PrivateSwapReveal :=
    { sessionId := array SESSION_ID_LEN (cut input 5 21)
      keyId := array 32 (cut input 21 53)
      sighash := array 32 (cut input 53 85)
      hostSecret := array 32 (cut input 85 117) }
  rejectIf (reveal.sessionId = zeros SESSION_ID_LEN ∨ reveal.keyId = zeros 32 ∨
    reveal.sighash = zeros 32 ∨ reveal.hostSecret = zeros 32) ProtocolError.invalidFields
  return reveal

/-- What both sides check of a reveal. -/
def PrivateSwapReveal.Valid (reveal : PrivateSwapReveal) : Prop :=
  ¬ (reveal.sessionId = zeros SESSION_ID_LEN ∨ reveal.keyId = zeros 32 ∨ reveal.sighash = zeros 32 ∨
    reveal.hostSecret = zeros 32)

theorem contiguous_revealSlices (reveal : PrivateSwapReveal) : Contiguous 0 (revealSlices reveal) := by
  simp [revealSlices, Contiguous, REVEAL_MAGIC, reveal.sessionId.property, reveal.keyId.property,
    reveal.sighash.property, reveal.hostSecret.property, SESSION_ID_LEN]

theorem length_revealSlices (reveal : PrivateSwapReveal) :
    (contents (revealSlices reveal)).length = REVEAL_LEN := by
  simp [revealSlices, REVEAL_MAGIC, REVEAL_LEN, reveal.sessionId.property, reveal.keyId.property,
    reveal.sighash.property, reveal.hostSecret.property, SESSION_ID_LEN]

/-- The encoder writes a valid reveal, and refuses every other one. -/
theorem encodes_reveal (reveal : PrivateSwapReveal) :
    Encodes (encodeReveal reveal) reveal.Valid (contents (revealSlices reveal)) := by
  apply encodes_writeSlices (contiguous_revealSlices reveal) (length_revealSlices reveal)
  intro out r
  simp only [encodeReveal, bind_eq_ok, rejectIf_eq_ok]
  constructor
  · intro h
    obtain ⟨_, hroom, _, hvalid, hr⟩ := h
    exact ⟨hvalid, Nat.le_of_not_lt hroom, (Except.ok.inj hr).symm⟩
  · intro h
    obtain ⟨hvalid, hroom, hr⟩ := h
    exact ⟨(), Nat.not_lt_of_le hroom, (), hvalid, by rw [hr]; rfl⟩

/-- A reveal is accepted exactly in the bytes it is written as. -/
theorem parseReveal_eq_ok {input : Bytes} {reveal : PrivateSwapReveal} :
    parseReveal input = .ok reveal ↔ reveal.Valid ∧ input = contents (revealSlices reveal) := by
  rw [← (contiguous_revealSlices reveal).holds_iff_eq (length_revealSlices reveal),
    PrivateSwapReveal.Valid]
  simp only [parseReveal, bind_eq_ok, rejectIf_eq_ok, not_or, Decidable.not_not, prefix_iff_cut,
    revealSlices, holds_cons, holds_nil, and_true]
  constructor
  · intro h
    obtain ⟨_, ⟨hlen, hmagic⟩, _, hversion, _, hvalid, hreveal⟩ := h
    have hreveal := Except.ok.inj hreveal
    subst hreveal
    have hfield : ∀ start stop n, stop ≤ REVEAL_LEN → stop - start = n →
        cut input start stop = (array n (cut input start stop)).val := fun start stop n hstop hn =>
      (val_array (by rw [length_cut (by rw [hlen]; exact hstop), hn])).symm
    have hbyte : cut input 4 5 = [VERSION] := by
      rw [cut_byteAt (by rw [hlen]; decide), hversion]
    exact ⟨hvalid, ⟨hmagic, hbyte, hfield 5 21 16 (by decide) rfl,
      hfield 21 53 32 (by decide) rfl, hfield 53 85 32 (by decide) rfl,
      hfield 85 117 32 (by decide) rfl⟩, hlen⟩
  · intro h
    obtain ⟨hvalid, ⟨hmagic, hversion, hsession, hkey, hsighash, hsecret⟩, hlen⟩ := h
    rw [byteAt_of_cut hversion, hsession, hkey, hsighash, hsecret]
    simp only [array_val]
    exact ⟨(), ⟨hlen, hmagic⟩, (), trivial, (), hvalid, rfl⟩

theorem reveal_roundTrips : RoundTrips encodeReveal parseReveal id :=
  .of_iff encodes_reveal fun _ _ => parseReveal_eq_ok

/-! ## Responses -/

/-- The layout of an answer. Its length is fixed, whatever the kind. -/
def responseSlices (response : PrivateSwapResponse) : List Slice :=
  [⟨0, 4, RESPONSE_MAGIC⟩, ⟨4, 5, [VERSION]⟩, ⟨5, 6, [response.kind.toByte]⟩,
    ⟨6, 22, response.sessionId.val⟩, ⟨22, 54, response.keyId.val⟩, ⟨54, 86, response.claimPubkey.val⟩,
    ⟨86, 118, response.bindingToken.val⟩, ⟨118, 150, response.adaptorPoint.val⟩,
    ⟨150, 182, response.commitment.val⟩, ⟨182, 215, response.noncePoint.val⟩,
    ⟨215, 279, response.signature.val⟩, ⟨279, 280, [boolByte response.negated]⟩]

/-- An answer is checked before the room for it. -/
def encodeResponse (response : PrivateSwapResponse) (out : Bytes) :
    Except ProtocolError (Nat × Bytes) := do
  validateResponse response
  rejectIf (out.length < RESPONSE_LEN) ProtocolError.outputTooSmall
  return (RESPONSE_LEN, writeSlices out (responseSlices response))

def parseResponse (input : Bytes) : Except ProtocolError PrivateSwapResponse := do
  rejectIf (input.length ≠ RESPONSE_LEN ∨ ¬ RESPONSE_MAGIC <+: input) ProtocolError.invalidMagic
  rejectIf (byteAt input 4 ≠ VERSION) ProtocolError.unsupportedVersion
  let kind ← parseResponseKind (byteAt input 5)
  -- The source writes the `match` of `parse_bool` out here.
  let negated ← parseBool (byteAt input 279)
  let response : PrivateSwapResponse :=
    { kind
      sessionId := array SESSION_ID_LEN (cut input 6 22)
      keyId := array 32 (cut input 22 54)
      claimPubkey := array 32 (cut input 54 86)
      bindingToken := array 32 (cut input 86 118)
      adaptorPoint := array 32 (cut input 118 150)
      commitment := array 32 (cut input 150 182)
      noncePoint := array 33 (cut input 182 215)
      signature := array 64 (cut input 215 279)
      negated }
  validateResponse response
  return response

theorem contiguous_responseSlices (response : PrivateSwapResponse) :
    Contiguous 0 (responseSlices response) := by
  simp [responseSlices, Contiguous, RESPONSE_MAGIC, response.sessionId.property,
    response.keyId.property, response.claimPubkey.property, response.bindingToken.property,
    response.adaptorPoint.property, response.commitment.property, response.noncePoint.property,
    response.signature.property, SESSION_ID_LEN]

theorem length_responseSlices (response : PrivateSwapResponse) :
    (contents (responseSlices response)).length = RESPONSE_LEN := by
  simp [responseSlices, RESPONSE_MAGIC, RESPONSE_LEN, response.sessionId.property,
    response.keyId.property, response.claimPubkey.property, response.bindingToken.property,
    response.adaptorPoint.property, response.commitment.property, response.noncePoint.property,
    response.signature.property, SESSION_ID_LEN]

/-- The encoder writes an answer that passes the checks of its kind, and refuses every other one. -/
theorem encodes_response (response : PrivateSwapResponse) :
    Encodes (encodeResponse response) (validateResponse response = .ok ())
      (contents (responseSlices response)) := by
  apply encodes_writeSlices (contiguous_responseSlices response) (length_responseSlices response)
  intro out r
  simp only [encodeResponse, bind_eq_ok, rejectIf_eq_ok]
  constructor
  · intro h
    obtain ⟨_, hvalid, _, hroom, hr⟩ := h
    exact ⟨hvalid, Nat.le_of_not_lt hroom, (Except.ok.inj hr).symm⟩
  · intro h
    obtain ⟨hvalid, hroom, hr⟩ := h
    exact ⟨(), hvalid, (), Nat.not_lt_of_le hroom, by rw [hr]; rfl⟩

/-- An answer is accepted exactly in the bytes it is written as. -/
theorem parseResponse_eq_ok {input : Bytes} {response : PrivateSwapResponse} :
    parseResponse input = .ok response ↔
      validateResponse response = .ok () ∧ input = contents (responseSlices response) := by
  rw [← (contiguous_responseSlices response).holds_iff_eq (length_responseSlices response)]
  simp only [parseResponse, bind_eq_ok, rejectIf_eq_ok, not_or, Decidable.not_not, prefix_iff_cut,
    parseResponseKind_eq_ok, parseBool_eq_ok, responseSlices, holds_cons, holds_nil, and_true]
  constructor
  · intro h
    obtain ⟨_, ⟨hlen, hmagic⟩, _, hversion, kind, hkind, negated, hnegated, _, hvalid, hresponse⟩ := h
    have hresponse := Except.ok.inj hresponse
    subst hresponse
    have hfield : ∀ start stop n, stop ≤ RESPONSE_LEN → stop - start = n →
        cut input start stop = (array n (cut input start stop)).val := fun start stop n hstop hn =>
      (val_array (by rw [length_cut (by rw [hlen]; exact hstop), hn])).symm
    have hversionByte : cut input 4 5 = [VERSION] := by
      rw [cut_byteAt (by rw [hlen]; decide), hversion]
    have hkindByte : cut input 5 6 = [kind.toByte] := by
      rw [cut_byteAt (by rw [hlen]; decide), hkind]
    have hnegatedByte : cut input 279 280 = [boolByte negated] := by
      rw [cut_byteAt (by rw [hlen]; decide), hnegated]
    exact ⟨hvalid, ⟨hmagic, hversionByte, hkindByte, hfield 6 22 16 (by decide) rfl,
      hfield 22 54 32 (by decide) rfl, hfield 54 86 32 (by decide) rfl,
      hfield 86 118 32 (by decide) rfl, hfield 118 150 32 (by decide) rfl,
      hfield 150 182 32 (by decide) rfl, hfield 182 215 33 (by decide) rfl,
      hfield 215 279 64 (by decide) rfl, hnegatedByte⟩, hlen⟩
  · intro h
    obtain ⟨hvalid, ⟨hmagic, hversion, hkind, hsession, hkey, hpubkey, htoken, hadaptor, hcommitment,
      hnonce, hsignature, hnegated⟩, hlen⟩ := h
    rw [byteAt_of_cut hversion, byteAt_of_cut hkind, byteAt_of_cut hnegated, hsession, hkey, hpubkey,
      htoken, hadaptor, hcommitment, hnonce, hsignature]
    simp only [array_val]
    exact ⟨(), ⟨hlen, hmagic⟩, (), trivial, _, rfl, _, rfl, (), hvalid, rfl⟩

theorem response_roundTrips : RoundTrips encodeResponse parseResponse id :=
  .of_iff encodes_response fun _ _ => parseResponse_eq_ok

end KaspaPortal.Transaction.Signing.PrivateSwap
