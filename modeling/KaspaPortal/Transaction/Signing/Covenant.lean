import KaspaPortal.Lib.Layout
import KaspaPortal.Transaction.Model

/-!
# The covenant-signing envelope

`src/transaction/signing/covenant/protocol/` (`mod.rs`, `validation.rs`): the three messages of
the protocol, each with the layout its encoder copies to, the field rules of its kind, and
the parser that reads the same offsets. `usize` arithmetic is checked in the source and
cannot overflow below the length limits, so lengths are numbers here.

Which message may follow which is decided by the callers. What a binding token stands for is
not known to the protocol.
-/
namespace KaspaPortal.Transaction.Signing.Covenant
open Lib Model

def REQUEST_MAGIC : Bytes := [0x43, 0x56, 0x53, 0x47]
def REVEAL_MAGIC : Bytes := [0x43, 0x56, 0x52, 0x56]
def RESPONSE_MAGIC : Bytes := [0x43, 0x56, 0x53, 0x52]
def VERSION : UInt8 := 1
def SESSION_ID_LEN : Nat := 16
/-- Everything before the script and the context. -/
def REQUEST_HEADER_LEN : Nat := 156
def REVEAL_LEN : Nat := 117
def RESPONSE_LEN : Nat := 247
/-- Longer scripts are refused by both sides. -/
def MAX_SCRIPT_LEN : Nat := 3072
def MAX_CONTEXT_LEN : Nat := 1024

/-- What the host asks of the signer: its key, a signature over a known or an opaque script, or
a binding of a script to its key. -/
inductive RequestKind where
  | keyInfo | known | opaqueRequest | bind
  deriving DecidableEq, Repr

/-- Schemes whose message the signer can rebuild itself. -/
inductive KnownScheme where
  | none | sha256Preimage | oracleV1
  deriving DecidableEq, Repr

/-- How the script mentions the signer's key. -/
inductive BindingHint where
  | none | keyPresent | fixedCheckSigFromStack
  deriving DecidableEq, Repr

/-- One answer to each step of the exchange. -/
inductive ResponseKind where
  | keyInfo | nonceCommitment | signature | binding
  deriving DecidableEq, Repr

/-- The errors of the envelope. None says more than which check refused it. -/
inductive ProtocolError where
  | invalidMagic | unsupportedVersion | invalidKind | invalidScheme | invalidBinding | invalidLength
  | invalidFields | outputTooSmall
  deriving DecidableEq, Repr

/-- A request, with the script and the context at full length. -/
structure CovenantSignRequest where
  kind : RequestKind
  scheme : KnownScheme
  binding : BindingHint
  sessionId : FixedBytes SESSION_ID_LEN
  hostCommitment : FixedBytes 32
  keyId : FixedBytes 32
  bindingToken : FixedBytes 32
  commitment : FixedBytes 32
  script : Bytes
  context : Bytes
  deriving DecidableEq

/-- The host's half of the nonce, sent once the signer has committed to its own. -/
structure CovenantSignReveal where
  sessionId : FixedBytes SESSION_ID_LEN
  keyId : FixedBytes 32
  commitment : FixedBytes 32
  hostSecret : FixedBytes 32
  deriving DecidableEq

/-- An answer. All kinds have one shape, with zeros where a kind has nothing to say. -/
structure CovenantSignResponse where
  kind : ResponseKind
  sessionId : FixedBytes SESSION_ID_LEN
  keyId : FixedBytes 32
  pubkeyX : FixedBytes 32
  bindingToken : FixedBytes 32
  commitment : FixedBytes 32
  noncePoint : FixedBytes 33
  signature : FixedBytes 64
  deriving DecidableEq

/-! ## Enumerations -/

def RequestKind.toByte : RequestKind → UInt8
  | .keyInfo => 0
  | .known => 1
  | .opaqueRequest => 2
  | .bind => 3

def KnownScheme.toByte : KnownScheme → UInt8
  | .none => 0
  | .sha256Preimage => 1
  | .oracleV1 => 2

def BindingHint.toByte : BindingHint → UInt8
  | .none => 0
  | .keyPresent => 1
  | .fixedCheckSigFromStack => 2

def ResponseKind.toByte : ResponseKind → UInt8
  | .keyInfo => 0
  | .nonceCommitment => 1
  | .signature => 2
  | .binding => 3

/-- Only the four tags are read; a fifth is an error rather than a default. -/
def parseKind : UInt8 → Except ProtocolError RequestKind
  | 0 => .ok .keyInfo
  | 1 => .ok .known
  | 2 => .ok .opaqueRequest
  | 3 => .ok .bind
  | _ => .error .invalidKind

def parseScheme : UInt8 → Except ProtocolError KnownScheme
  | 0 => .ok .none
  | 1 => .ok .sha256Preimage
  | 2 => .ok .oracleV1
  | _ => .error .invalidScheme

def parseBinding : UInt8 → Except ProtocolError BindingHint
  | 0 => .ok .none
  | 1 => .ok .keyPresent
  | 2 => .ok .fixedCheckSigFromStack
  | _ => .error .invalidBinding

/-- The `match` on the kind byte in `parse_response`. -/
def parseResponseKind : UInt8 → Except ProtocolError ResponseKind
  | 0 => .ok .keyInfo
  | 1 => .ok .nonceCommitment
  | 2 => .ok .signature
  | 3 => .ok .binding
  | _ => .error .invalidKind

/-- A tag reads as a kind exactly when it is the one the kind is written as. -/
theorem parseKind_eq_ok {byte : UInt8} {kind : RequestKind} :
    parseKind byte = .ok kind ↔ byte = kind.toByte := by
  apply tag_eq_ok
  · intro kind
    cases kind <;> rfl
  · intro byte kind h
    unfold parseKind at h
    split at h <;> cases h <;> rfl

theorem parseScheme_eq_ok {byte : UInt8} {scheme : KnownScheme} :
    parseScheme byte = .ok scheme ↔ byte = scheme.toByte := by
  apply tag_eq_ok
  · intro scheme
    cases scheme <;> rfl
  · intro byte scheme h
    unfold parseScheme at h
    split at h <;> cases h <;> rfl

theorem parseBinding_eq_ok {byte : UInt8} {binding : BindingHint} :
    parseBinding byte = .ok binding ↔ byte = binding.toByte := by
  apply tag_eq_ok
  · intro binding
    cases binding <;> rfl
  · intro byte binding h
    unfold parseBinding at h
    split at h <;> cases h <;> rfl

theorem parseResponseKind_eq_ok {byte : UInt8} {kind : ResponseKind} :
    parseResponseKind byte = .ok kind ↔ byte = kind.toByte := by
  apply tag_eq_ok
  · intro kind
    cases kind <;> rfl
  · intro byte kind h
    unfold parseResponseKind at h
    split at h <;> cases h <;> rfl

/-! ## Field rules -/

/-- What the field rules look at: lengths stand for the script and the context. -/
structure RequestValidationFields where
  kind : RequestKind
  scheme : KnownScheme
  binding : BindingHint
  sessionId : FixedBytes SESSION_ID_LEN
  hostCommitment : FixedBytes 32
  keyId : FixedBytes 32
  bindingToken : FixedBytes 32
  commitment : FixedBytes 32
  scriptLen : Nat
  contextLen : Nat

/-- A known scheme fixes how the key is bound. -/
def expectedKnownBinding : KnownScheme → BindingHint
  | .sha256Preimage | .oracleV1 => .fixedCheckSigFromStack
  | .none => .none

/-- Checked before any field, on both sides. -/
def validateLengths (scriptLen contextLen : Nat) : Except ProtocolError Unit :=
  rejectIf (MAX_SCRIPT_LEN < scriptLen ∨ MAX_CONTEXT_LEN < contextLen) ProtocolError.invalidLength

def requestTotalLen (scriptLen contextLen : Nat) : Nat := REQUEST_HEADER_LEN + scriptLen + contextLen

section
variable (fields : RequestValidationFields)

/-- A request for the key carries nothing else. -/
def validateKeyInfoFields : Except ProtocolError Unit :=
  rejectIf (¬ (fields.scheme = .none ∧ fields.binding = .none ∧
    fields.sessionId = zeros SESSION_ID_LEN ∧ fields.hostCommitment = zeros 32 ∧
    fields.keyId = zeros 32 ∧ fields.bindingToken = zeros 32 ∧ fields.commitment = zeros 32 ∧
    fields.scriptLen = 0 ∧ fields.contextLen = 0)) ProtocolError.invalidFields

/-- A binding request has no session yet, and names the key and the script it binds. -/
def validateBindFields : Except ProtocolError Unit :=
  let base := fields.sessionId = zeros SESSION_ID_LEN ∧ fields.hostCommitment = zeros 32 ∧
    fields.keyId ≠ zeros 32 ∧ fields.bindingToken = zeros 32 ∧ fields.scriptLen ≠ 0
  let shape := if fields.scheme = .none then
      (fields.binding = .none ∨ fields.binding = .keyPresent) ∧ fields.commitment = zeros 32 ∧
        fields.contextLen = 0
    else fields.binding = expectedKnownBinding fields.scheme ∧ fields.contextLen ≠ 0
  rejectIf (¬ (base ∧ shape)) ProtocolError.invalidFields

/-- A known script is signed inside a session, under the binding its scheme fixes. -/
def validateKnownFields : Except ProtocolError Unit :=
  rejectIf (¬ (fields.scheme ≠ .none ∧ fields.binding = expectedKnownBinding fields.scheme ∧
    fields.sessionId ≠ zeros SESSION_ID_LEN ∧ fields.hostCommitment ≠ zeros 32 ∧
    fields.keyId ≠ zeros 32 ∧ fields.bindingToken ≠ zeros 32 ∧ fields.scriptLen ≠ 0 ∧
    fields.contextLen ≠ 0)) ProtocolError.invalidFields

/-- An opaque script is signed inside a session, and at most hints that the key is in it. -/
def validateOpaqueFields : Except ProtocolError Unit :=
  rejectIf (¬ (fields.scheme = .none ∧ (fields.binding = .none ∨ fields.binding = .keyPresent) ∧
    fields.sessionId ≠ zeros SESSION_ID_LEN ∧ fields.hostCommitment ≠ zeros 32 ∧
    fields.keyId ≠ zeros 32 ∧ fields.bindingToken ≠ zeros 32 ∧ fields.scriptLen ≠ 0 ∧
    fields.contextLen = 0)) ProtocolError.invalidFields

/-- Every kind has its own rules. -/
def validateFields : Except ProtocolError Unit :=
  match fields.kind with
  | .keyInfo => validateKeyInfoFields fields
  | .bind => validateBindFields fields
  | .known => validateKnownFields fields
  | .opaqueRequest => validateOpaqueFields fields

end

section
variable (response : CovenantSignResponse)

/-- The public key alone. -/
def keyInfoResponseValid : Prop :=
  response.sessionId = zeros SESSION_ID_LEN ∧ response.bindingToken = zeros 32 ∧
    response.commitment = zeros 32 ∧ response.noncePoint = zeros 33 ∧ response.signature = zeros 64
  deriving Decidable

/-- A token and a commitment, outside any session. -/
def bindingResponseValid : Prop :=
  response.sessionId = zeros SESSION_ID_LEN ∧ response.bindingToken ≠ zeros 32 ∧
    response.commitment ≠ zeros 32 ∧ response.noncePoint = zeros 33 ∧ response.signature = zeros 64
  deriving Decidable

/-- The signer's nonce point; even, as the signature scheme asks. -/
def nonceResponseValid : Prop :=
  response.sessionId ≠ zeros SESSION_ID_LEN ∧ response.bindingToken ≠ zeros 32 ∧
    byteAt response.noncePoint.val 0 = 0x02 ∧ response.signature = zeros 64
  deriving Decidable

/-- The signature, with the point it was made for. -/
def signatureResponseValid : Prop :=
  response.sessionId ≠ zeros SESSION_ID_LEN ∧ response.bindingToken ≠ zeros 32 ∧
    byteAt response.noncePoint.val 0 = 0x02 ∧ response.signature ≠ zeros 64
  deriving Decidable

def responseShapeValid : Bool :=
  match response.kind with
  | .keyInfo => keyInfoResponseValid response
  | .binding => bindingResponseValid response
  | .nonceCommitment => nonceResponseValid response
  | .signature => signatureResponseValid response

/-- The key is named in every answer. -/
def validateResponse : Except ProtocolError Unit := do
  rejectIf (response.keyId = zeros 32 ∨ response.pubkeyX = zeros 32) ProtocolError.invalidFields
  rejectIf (responseShapeValid response = false) ProtocolError.invalidFields

end

/-! ## Requests -/

def CovenantSignRequest.validationFields (request : CovenantSignRequest) : RequestValidationFields where
  kind := request.kind
  scheme := request.scheme
  binding := request.binding
  sessionId := request.sessionId
  hostCommitment := request.hostCommitment
  keyId := request.keyId
  bindingToken := request.bindingToken
  commitment := request.commitment
  scriptLen := request.script.length
  contextLen := request.context.length

/-- What `encode_request` copies, in its order. -/
def requestSlices (request : CovenantSignRequest) : List Slice :=
  let scriptEnd := REQUEST_HEADER_LEN + request.script.length
  [⟨0, 4, REQUEST_MAGIC⟩, ⟨4, 5, [VERSION]⟩, ⟨5, 6, [request.kind.toByte]⟩,
    ⟨6, 7, [request.scheme.toByte]⟩, ⟨7, 8, [request.binding.toByte]⟩,
    ⟨8, 24, request.sessionId.val⟩, ⟨24, 56, request.hostCommitment.val⟩, ⟨56, 88, request.keyId.val⟩,
    ⟨88, 120, request.bindingToken.val⟩, ⟨120, 152, request.commitment.val⟩,
    ⟨152, 154, beBytes 2 request.script.length⟩, ⟨154, 156, beBytes 2 request.context.length⟩,
    ⟨REQUEST_HEADER_LEN, scriptEnd, request.script⟩,
    ⟨scriptEnd, scriptEnd + request.context.length, request.context⟩]

/-- Nothing is written before all checks have passed. -/
def encodeRequest (request : CovenantSignRequest) (out : Bytes) : Except ProtocolError (Nat × Bytes) := do
  validateLengths request.script.length request.context.length
  validateFields request.validationFields
  let total := requestTotalLen request.script.length request.context.length
  rejectIf (out.length < total) ProtocolError.outputTooSmall
  return (total, writeSlices out (requestSlices request))

/-- The magic and the version, checked before the tags. -/
def validateRequestPrefix (input : Bytes) : Except ProtocolError Unit := do
  rejectIf (input.length < REQUEST_HEADER_LEN ∨ ¬ REQUEST_MAGIC <+: input) ProtocolError.invalidMagic
  rejectIf (byteAt input 4 ≠ VERSION) ProtocolError.unsupportedVersion

/-- The declared lengths must make up the whole input; nothing may be left behind it. -/
def parseRequest (input : Bytes) : Except ProtocolError CovenantSignRequest := do
  validateRequestPrefix input
  let kind ← parseKind (byteAt input 5)
  let scheme ← parseScheme (byteAt input 6)
  let binding ← parseBinding (byteAt input 7)
  let sessionId := array SESSION_ID_LEN (cut input 8 24)
  let hostCommitment := array 32 (cut input 24 56)
  let keyId := array 32 (cut input 56 88)
  let bindingToken := array 32 (cut input 88 120)
  let commitment := array 32 (cut input 120 152)
  let scriptLen := beNat (cut input 152 154)
  let contextLen := beNat (cut input 154 156)
  validateLengths scriptLen contextLen
  rejectIf (requestTotalLen scriptLen contextLen ≠ input.length) ProtocolError.invalidLength
  validateFields ⟨kind, scheme, binding, sessionId, hostCommitment, keyId, bindingToken, commitment,
    scriptLen, contextLen⟩
  let scriptEnd := REQUEST_HEADER_LEN + scriptLen
  return ⟨kind, scheme, binding, sessionId, hostCommitment, keyId, bindingToken, commitment,
    cut input REQUEST_HEADER_LEN scriptEnd, input.drop scriptEnd⟩

/-- What encoder and parser both check. -/
def CovenantSignRequest.Valid (request : CovenantSignRequest) : Prop :=
  validateLengths request.script.length request.context.length = .ok () ∧
    validateFields request.validationFields = .ok ()

/-- The fields lie one after the other, without a gap. -/
theorem contiguous_requestSlices (request : CovenantSignRequest) :
    Contiguous 0 (requestSlices request) := by
  simp [requestSlices, Contiguous, REQUEST_MAGIC, REQUEST_HEADER_LEN, request.sessionId.property,
    request.hostCommitment.property, request.keyId.property, request.bindingToken.property,
    request.commitment.property, SESSION_ID_LEN]

/-- The written fields are as long as the encoder announces. -/
theorem length_requestSlices (request : CovenantSignRequest) :
    (contents (requestSlices request)).length =
      requestTotalLen request.script.length request.context.length := by
  simp [requestSlices, REQUEST_MAGIC, requestTotalLen, REQUEST_HEADER_LEN, request.sessionId.property,
    request.hostCommitment.property, request.keyId.property, request.bindingToken.property,
    request.commitment.property, SESSION_ID_LEN]
  omega

/-- The encoder writes the fields of a valid request, and refuses every other one. -/
theorem encodes_request (request : CovenantSignRequest) :
    Encodes (encodeRequest request) request.Valid (contents (requestSlices request)) := by
  apply encodes_writeSlices (contiguous_requestSlices request) (length_requestSlices request)
  intro out r
  simp only [encodeRequest, bind_eq_ok, rejectIf_eq_ok]
  constructor
  · intro h
    obtain ⟨_, hlengths, _, hfields, _, hroom, hr⟩ := h
    exact ⟨⟨hlengths, hfields⟩, Nat.le_of_not_lt hroom, (Except.ok.inj hr).symm⟩
  · intro h
    obtain ⟨hvalid, hroom, hr⟩ := h
    exact ⟨(), hvalid.1, (), hvalid.2, (), Nat.not_lt_of_le hroom, by rw [hr]; rfl⟩

/-- A parsed request holds its fields at the encoder's offsets. -/
theorem holds_of_parseRequest {input : Bytes} {request : CovenantSignRequest}
    (h : parseRequest input = .ok request) :
    request.Valid ∧ Holds input (requestSlices request) ∧
      input.length = requestTotalLen request.script.length request.context.length := by
  simp only [parseRequest, validateRequestPrefix, bind_eq_ok, rejectIf_eq_ok, parseKind_eq_ok,
    parseScheme_eq_ok, parseBinding_eq_ok] at h
  obtain ⟨_, ⟨_, hhead, hversion⟩, kind, hkind, scheme, hscheme, binding, hbinding, _, hlengths, _,
    htotal, _, hfields, hrequest⟩ := h
  rw [not_or, Decidable.not_not, prefix_iff_cut] at hhead
  obtain ⟨hlong, hmagic⟩ := hhead
  rw [Decidable.not_not] at hversion htotal
  have hlen : 156 ≤ input.length := Nat.le_of_not_lt hlong
  have hscript : (cut input REQUEST_HEADER_LEN (REQUEST_HEADER_LEN + beNat (cut input 152 154))).length =
      beNat (cut input 152 154) := by
    rw [length_cut, Nat.add_sub_cancel_left]
    rw [← htotal, requestTotalLen]
    omega
  have hcontext : (input.drop (REQUEST_HEADER_LEN + beNat (cut input 152 154))).length =
      beNat (cut input 154 156) := by
    rw [List.length_drop, ← htotal, requestTotalLen, Nat.add_sub_cancel_left]
  have hrequest := Except.ok.inj hrequest
  subst hrequest
  have harray : ∀ start stop n, stop ≤ 156 → stop - start = n →
      cut input start stop = (array n (cut input start stop)).val := fun start stop n hstop hn =>
    (val_array (by rw [length_cut (le_trans hstop hlen), hn])).symm
  have hbyte : ∀ index, index < 156 → cut input index (index + 1) = [byteAt input index] :=
    fun index hindex => cut_byteAt (lt_of_lt_of_le hindex hlen)
  refine ⟨⟨?_, ?_⟩, ?_, ?_⟩
  · simp only [hscript, hcontext]
    exact hlengths
  · simp only [CovenantSignRequest.validationFields, hscript, hcontext]
    exact hfields
  · simp only [requestSlices, holds_cons, holds_nil, and_true, true_and, hscript, hcontext]
    refine ⟨hmagic, ?_, ?_, ?_, ?_, harray 8 24 16 (by omega) rfl, harray 24 56 32 (by omega) rfl,
      harray 56 88 32 (by omega) rfl, harray 88 120 32 (by omega) rfl,
      harray 120 152 32 (by omega) rfl, ?_, ?_, ?_⟩
    · rw [hbyte 4 (by omega), hversion]
    · rw [hbyte 5 (by omega), hkind]
    · rw [hbyte 6 (by omega), hscheme]
    · rw [hbyte 7 (by omega), hbinding]
    · have hwidth : (cut input 152 154).length = 2 := length_cut (by omega)
      have hread := beBytes_beNat (cut input 152 154)
      rw [hwidth] at hread
      exact hread.symm
    · have hwidth : (cut input 154 156).length = 2 := length_cut (by omega)
      have hread := beBytes_beNat (cut input 154 156)
      rw [hwidth] at hread
      exact hread.symm
    · rw [requestTotalLen] at htotal
      rw [htotal, cut, List.take_length]
  · simp only [hscript, hcontext]
    exact htotal.symm

/-- Bytes that hold a valid request's fields read back as it. -/
theorem parseRequest_of_holds {input : Bytes} {request : CovenantSignRequest} (hvalid : request.Valid)
    (hold : Holds input (requestSlices request))
    (hlen : input.length = requestTotalLen request.script.length request.context.length) :
    parseRequest input = .ok request := by
  obtain ⟨hlengths, hfields⟩ := hvalid
  have hshort := hlengths
  rw [validateLengths, rejectIf_eq_ok, not_or, MAX_SCRIPT_LEN, MAX_CONTEXT_LEN] at hshort
  simp only [requestSlices, holds_cons, holds_nil, and_true] at hold
  obtain ⟨hmagic, hversion, hkind, hscheme, hbinding, hsession, hhost, hkey, htoken, hcommitment,
    hscriptLen, hcontextLen, hscript, hcontext⟩ := hold
  have hhead : ¬ (input.length < REQUEST_HEADER_LEN ∨ ¬ REQUEST_MAGIC <+: input) := by
    rw [not_or, Decidable.not_not, prefix_iff_cut]
    refine ⟨?_, hmagic⟩
    rw [hlen, requestTotalLen]
    omega
  have hrest : input.drop (REQUEST_HEADER_LEN + request.script.length) = request.context := by
    have htotal : REQUEST_HEADER_LEN + request.script.length + request.context.length = input.length :=
      hlen.symm
    rw [htotal, cut, List.take_length] at hcontext
    exact hcontext
  simp only [parseRequest, validateRequestPrefix, bind_eq_ok, rejectIf_eq_ok, parseKind_eq_ok,
    parseScheme_eq_ok, parseBinding_eq_ok]
  rw [byteAt_of_cut hversion, byteAt_of_cut hkind, byteAt_of_cut hscheme, byteAt_of_cut hbinding,
    hsession, hhost, hkey, htoken, hcommitment, hscriptLen, hcontextLen,
    beNat_beBytes 2 _ (by omega), beNat_beBytes 2 _ (by omega), hscript, hrest]
  simp only [array_val]
  exact ⟨(), ⟨(), hhead, not_not_intro rfl⟩, _, rfl, _, rfl, _, rfl, (), hlengths, (),
    not_not_intro hlen.symm, (), hfields, rfl⟩

/-- A request is parsed exactly from what the encoder writes for it. -/
theorem parseRequest_eq_ok {input : Bytes} {request : CovenantSignRequest} :
    parseRequest input = .ok request ↔
      request.Valid ∧ input = contents (requestSlices request) := by
  rw [← (contiguous_requestSlices request).holds_iff_eq (length_requestSlices request)]
  exact ⟨holds_of_parseRequest, fun h => parseRequest_of_holds h.1 h.2.1 h.2.2⟩

/-! ## Reveals -/

/-- The layout of a reveal. -/
def revealSlices (reveal : CovenantSignReveal) : List Slice :=
  [⟨0, 4, REVEAL_MAGIC⟩, ⟨4, 5, [VERSION]⟩, ⟨5, 21, reveal.sessionId.val⟩, ⟨21, 53, reveal.keyId.val⟩,
    ⟨53, 85, reveal.commitment.val⟩, ⟨85, 117, reveal.hostSecret.val⟩]

/-- A reveal names its session and its key. -/
def encodeReveal (reveal : CovenantSignReveal) (out : Bytes) : Except ProtocolError (Nat × Bytes) := do
  rejectIf (out.length < REVEAL_LEN) ProtocolError.outputTooSmall
  rejectIf (reveal.sessionId = zeros SESSION_ID_LEN ∨ reveal.keyId = zeros 32)
    ProtocolError.invalidFields
  return (REVEAL_LEN, writeSlices out (revealSlices reveal))

def parseReveal (input : Bytes) : Except ProtocolError CovenantSignReveal := do
  rejectIf (input.length ≠ REVEAL_LEN ∨ ¬ REVEAL_MAGIC <+: input) ProtocolError.invalidMagic
  rejectIf (byteAt input 4 ≠ VERSION) ProtocolError.unsupportedVersion
  let reveal : CovenantSignReveal :=
    { sessionId := array SESSION_ID_LEN (cut input 5 21)
      keyId := array 32 (cut input 21 53)
      commitment := array 32 (cut input 53 85)
      hostSecret := array 32 (cut input 85 117) }
  rejectIf (reveal.sessionId = zeros SESSION_ID_LEN ∨ reveal.keyId = zeros 32)
    ProtocolError.invalidFields
  return reveal

/-- What both sides check of a reveal. -/
def CovenantSignReveal.Valid (reveal : CovenantSignReveal) : Prop :=
  ¬ (reveal.sessionId = zeros SESSION_ID_LEN ∨ reveal.keyId = zeros 32)

theorem contiguous_revealSlices (reveal : CovenantSignReveal) : Contiguous 0 (revealSlices reveal) := by
  simp [revealSlices, Contiguous, REVEAL_MAGIC, reveal.sessionId.property, reveal.keyId.property,
    reveal.commitment.property, reveal.hostSecret.property, SESSION_ID_LEN]

theorem length_revealSlices (reveal : CovenantSignReveal) :
    (contents (revealSlices reveal)).length = REVEAL_LEN := by
  simp [revealSlices, REVEAL_MAGIC, REVEAL_LEN, reveal.sessionId.property, reveal.keyId.property,
    reveal.commitment.property, reveal.hostSecret.property, SESSION_ID_LEN]

theorem encodes_reveal (reveal : CovenantSignReveal) :
    Encodes (encodeReveal reveal) reveal.Valid (contents (revealSlices reveal)) := by
  apply encodes_writeSlices (contiguous_revealSlices reveal) (length_revealSlices reveal)
  intro out r
  simp only [encodeReveal, bind_eq_ok, rejectIf_eq_ok]
  constructor
  · intro h
    obtain ⟨_, hroom, _, hvalid, hr⟩ := h
    exact ⟨hvalid, Nat.le_of_not_lt hroom, (Except.ok.inj hr).symm⟩
  · intro h
    obtain ⟨hvalid, hroom, hr⟩ := h
    exact ⟨(), Nat.not_lt_of_le hroom, (), hvalid, by rw [hr]; rfl⟩

/-- A reveal is accepted exactly in the bytes it is written as. -/
theorem parseReveal_eq_ok {input : Bytes} {reveal : CovenantSignReveal} :
    parseReveal input = .ok reveal ↔ reveal.Valid ∧ input = contents (revealSlices reveal) := by
  rw [← (contiguous_revealSlices reveal).holds_iff_eq (length_revealSlices reveal)]
  simp only [parseReveal, bind_eq_ok, rejectIf_eq_ok, not_or, Decidable.not_not, prefix_iff_cut,
    revealSlices, holds_cons, holds_nil, and_true]
  constructor
  · intro h
    obtain ⟨_, ⟨hlen, hmagic⟩, _, hversion, _, hvalid, hreveal⟩ := h
    have hreveal := Except.ok.inj hreveal
    subst hreveal
    have hfield : ∀ start stop n, stop ≤ REVEAL_LEN → stop - start = n →
        cut input start stop = (array n (cut input start stop)).val := fun start stop n hstop hn =>
      (val_array (by rw [length_cut (by rw [hlen]; exact hstop), hn])).symm
    have hbyte : cut input 4 5 = [VERSION] := by
      rw [cut_byteAt (by rw [hlen]; decide), hversion]
    exact ⟨not_or.mpr hvalid, ⟨hmagic, hbyte, hfield 5 21 16 (by decide) rfl,
      hfield 21 53 32 (by decide) rfl, hfield 53 85 32 (by decide) rfl,
      hfield 85 117 32 (by decide) rfl⟩, hlen⟩
  · intro h
    obtain ⟨hvalid, ⟨hmagic, hversion, hsession, hkey, hcommitment, hsecret⟩, hlen⟩ := h
    rw [byteAt_of_cut hversion, hsession, hkey, hcommitment, hsecret]
    simp only [array_val]
    exact ⟨(), ⟨hlen, hmagic⟩, (), trivial, (), not_or.mp hvalid, rfl⟩

/-! ## Responses -/

/-- The layout of an answer. -/
def responseSlices (response : CovenantSignResponse) : List Slice :=
  [⟨0, 4, RESPONSE_MAGIC⟩, ⟨4, 5, [VERSION]⟩, ⟨5, 6, [response.kind.toByte]⟩,
    ⟨6, 22, response.sessionId.val⟩, ⟨22, 54, response.keyId.val⟩, ⟨54, 86, response.pubkeyX.val⟩,
    ⟨86, 118, response.bindingToken.val⟩, ⟨118, 150, response.commitment.val⟩,
    ⟨150, 183, response.noncePoint.val⟩, ⟨183, 247, response.signature.val⟩]

def encodeResponse (response : CovenantSignResponse) (out : Bytes) :
    Except ProtocolError (Nat × Bytes) := do
  validateResponse response
  rejectIf (out.length < RESPONSE_LEN) ProtocolError.outputTooSmall
  return (RESPONSE_LEN, writeSlices out (responseSlices response))

def parseResponse (input : Bytes) : Except ProtocolError CovenantSignResponse := do
  rejectIf (input.length ≠ RESPONSE_LEN ∨ ¬ RESPONSE_MAGIC <+: input) ProtocolError.invalidMagic
  rejectIf (byteAt input 4 ≠ VERSION) ProtocolError.unsupportedVersion
  let kind ← parseResponseKind (byteAt input 5)
  let response : CovenantSignResponse :=
    { kind
      sessionId := array SESSION_ID_LEN (cut input 6 22)
      keyId := array 32 (cut input 22 54)
      pubkeyX := array 32 (cut input 54 86)
      bindingToken := array 32 (cut input 86 118)
      commitment := array 32 (cut input 118 150)
      noncePoint := array 33 (cut input 150 183)
      signature := array 64 (cut input 183 247) }
  validateResponse response
  return response

theorem contiguous_responseSlices (response : CovenantSignResponse) :
    Contiguous 0 (responseSlices response) := by
  simp [responseSlices, Contiguous, RESPONSE_MAGIC, response.sessionId.property,
    response.keyId.property, response.pubkeyX.property, response.bindingToken.property,
    response.commitment.property, response.noncePoint.property, response.signature.property,
    SESSION_ID_LEN]

theorem length_responseSlices (response : CovenantSignResponse) :
    (contents (responseSlices response)).length = RESPONSE_LEN := by
  simp [responseSlices, RESPONSE_MAGIC, RESPONSE_LEN, response.sessionId.property,
    response.keyId.property, response.pubkeyX.property, response.bindingToken.property,
    response.commitment.property, response.noncePoint.property, response.signature.property,
    SESSION_ID_LEN]

theorem encodes_response (response : CovenantSignResponse) :
    Encodes (encodeResponse response) (validateResponse response = .ok ())
      (contents (responseSlices response)) := by
  apply encodes_writeSlices (contiguous_responseSlices response) (length_responseSlices response)
  intro out r
  simp only [encodeResponse, bind_eq_ok, rejectIf_eq_ok]
  constructor
  · intro h
    obtain ⟨_, hvalid, _, hroom, hr⟩ := h
    exact ⟨hvalid, Nat.le_of_not_lt hroom, (Except.ok.inj hr).symm⟩
  · intro h
    obtain ⟨hvalid, hroom, hr⟩ := h
    exact ⟨(), hvalid, (), Nat.not_lt_of_le hroom, by rw [hr]; rfl⟩

/-- An answer is accepted exactly in the bytes it is written as, so no two texts carry the same one. -/
theorem parseResponse_eq_ok {input : Bytes} {response : CovenantSignResponse} :
    parseResponse input = .ok response ↔
      validateResponse response = .ok () ∧ input = contents (responseSlices response) := by
  rw [← (contiguous_responseSlices response).holds_iff_eq (length_responseSlices response)]
  simp only [parseResponse, bind_eq_ok, rejectIf_eq_ok, not_or, Decidable.not_not, prefix_iff_cut,
    parseResponseKind_eq_ok, responseSlices, holds_cons, holds_nil, and_true]
  constructor
  · intro h
    obtain ⟨_, ⟨hlen, hmagic⟩, _, hversion, kind, hkind, _, hvalid, hresponse⟩ := h
    have hresponse := Except.ok.inj hresponse
    subst hresponse
    have hfield : ∀ start stop n, stop ≤ RESPONSE_LEN → stop - start = n →
        cut input start stop = (array n (cut input start stop)).val := fun start stop n hstop hn =>
      (val_array (by rw [length_cut (by rw [hlen]; exact hstop), hn])).symm
    have hversionByte : cut input 4 5 = [VERSION] := by
      rw [cut_byteAt (by rw [hlen]; decide), hversion]
    have hkindByte : cut input 5 6 = [kind.toByte] := by
      rw [cut_byteAt (by rw [hlen]; decide), hkind]
    exact ⟨hvalid, ⟨hmagic, hversionByte, hkindByte, hfield 6 22 16 (by decide) rfl,
      hfield 22 54 32 (by decide) rfl, hfield 54 86 32 (by decide) rfl,
      hfield 86 118 32 (by decide) rfl, hfield 118 150 32 (by decide) rfl,
      hfield 150 183 33 (by decide) rfl, hfield 183 247 64 (by decide) rfl⟩, hlen⟩
  · intro h
    obtain ⟨hvalid, ⟨hmagic, hversion, hkind, hsession, hkey, hpubkey, htoken, hcommitment, hnonce,
      hsignature⟩, hlen⟩ := h
    rw [byteAt_of_cut hversion, byteAt_of_cut hkind, hsession, hkey, hpubkey, htoken, hcommitment,
      hnonce, hsignature]
    simp only [array_val]
    exact ⟨(), ⟨hlen, hmagic⟩, (), trivial, _, rfl, (), hvalid, rfl⟩

/-! ## Round trips -/

/-- What is written reads back, and only what is written is read. -/
theorem request_roundTrips : RoundTrips encodeRequest parseRequest id :=
  .of_iff encodes_request fun _ _ => parseRequest_eq_ok

theorem reveal_roundTrips : RoundTrips encodeReveal parseReveal id :=
  .of_iff encodes_reveal fun _ _ => parseReveal_eq_ok

theorem response_roundTrips : RoundTrips encodeResponse parseResponse id :=
  .of_iff encodes_response fun _ _ => parseResponse_eq_ok

end KaspaPortal.Transaction.Signing.Covenant
