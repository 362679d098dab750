import KaspaPortal.Transaction.Kspt.SignedResponse
import KaspaPortal.Transaction.Signing.AntiKleptoLayout
import KaspaPortal.Transaction.Signing.Covenant
import KaspaPortal.Transaction.Signing.PrivateSwap

/-!
# Round trips of the signing protocols' messages

The ten messages of anti-klepto signing, covenant signing and private swaps. What an encoder
writes into a buffer is parsed as the message it was given, and what a parser accepts is
encoded again as the same bytes. An anti-klepto request goes out with the commitment to the host's
secret in the place of the secret, so it is encoded again from a secret with that commitment.

What a message makes its receiver do is not followed here.
-/
namespace KaspaPortal.Guarantees
open Lib Transaction.Signing

section
variable (sha256 : Bytes → FixedBytes 32)

/-- The request a secret and a transaction make. -/
def madeRequest (hostSecret : FixedBytes AntiKlepto.HASH_LEN) (transaction : Bytes) :
    AntiKlepto.Request :=
  let hostCommitment := AntiKlepto.hostCommitment sha256 hostSecret
  let transactionDigest := AntiKlepto.transactionDigest sha256 transaction
  { sessionId := AntiKlepto.sessionId sha256 hostCommitment transactionDigest
    hostCommitment, transactionDigest, transaction }

structure RequestRoundTrips : Prop where
  parse_encode : ∀ hostSecret transaction out count out',
    AntiKlepto.encodeRequest sha256 hostSecret transaction out = .ok (count, out') →
      AntiKlepto.parseRequest sha256 (out'.take count) = .ok (madeRequest sha256 hostSecret transaction)
  encode_parse : ∀ input request hostSecret out,
    AntiKlepto.parseRequest sha256 input = .ok request →
    request.hostCommitment = AntiKlepto.hostCommitment sha256 hostSecret →
    input.length ≤ out.length →
      ∃ out', AntiKlepto.encodeRequest sha256 hostSecret request.transaction out =
        .ok (input.length, out') ∧ out'.take input.length = input

/-- A commitment as the encoder takes it, with the records that its accessor gives. -/
def commitmentFields (commitment : AntiKlepto.Commitment) :=
  (commitment.sessionId, commitment.transactionDigest, commitment.records)

def signedFields (signed : AntiKlepto.Signed) :=
  (signed.sessionId, signed.transactionDigest, signed.proofs, signed.transaction)

/-- The messages of the three protocols. -/
structure SigningCodecs : Prop where
  antiKleptoRequest : RequestRoundTrips sha256
  antiKleptoCommitment : RoundTrips
    (fun message => AntiKlepto.encodeCommitment message.1 message.2.1 message.2.2)
    AntiKlepto.parseCommitment commitmentFields
  commitmentRecords : ∀ commitment : AntiKlepto.Commitment,
    commitment.len = commitment.records.length ∧
      ∀ index, commitment.record index = commitment.records[index]?
  antiKleptoReveal : RoundTrips (fun message => AntiKlepto.encodeReveal message.1 message.2)
    AntiKlepto.parseReveal id
  antiKleptoSigned : RoundTrips
    (fun message => AntiKlepto.encodeSigned message.1 message.2.1 message.2.2.1 message.2.2.2)
    AntiKlepto.parseSigned signedFields
  signedProofs : ∀ signed : AntiKlepto.Signed, signed.proofCount = signed.proofs.length ∧
    ∀ index, signed.proof index = signed.proofs[index]?
  covenantRequest : RoundTrips Covenant.encodeRequest Covenant.parseRequest id
  covenantReveal : RoundTrips Covenant.encodeReveal Covenant.parseReveal id
  covenantResponse : RoundTrips Covenant.encodeResponse Covenant.parseResponse id
  privateSwapRequest : RoundTrips (PrivateSwap.encodeRequest sha256) (PrivateSwap.parseRequest sha256) id
  privateSwapReveal : RoundTrips PrivateSwap.encodeReveal PrivateSwap.parseReveal id
  privateSwapResponse : RoundTrips PrivateSwap.encodeResponse PrivateSwap.parseResponse id

theorem request_roundTrips : RequestRoundTrips sha256 where
  parse_encode := by
    intro hostSecret transaction out count out' henc
    obtain ⟨hsmall, hwire⟩ := (AntiKlepto.encodes_request sha256 hostSecret transaction).take_eq henc
    rw [hwire]
    apply (AntiKlepto.parseRequest_eq_ok sha256).mpr
    exact ⟨⟨hsmall, rfl, rfl⟩, rfl⟩
  encode_parse := by
    intro input request hostSecret out hparse hcommit hroom
    obtain ⟨⟨hsmall, hdigest, hsession⟩, hinput⟩ := (AntiKlepto.parseRequest_eq_ok sha256).mp hparse
    have hwire : input = contents (AntiKlepto.requestWire sha256 hostSecret request.transaction) := by
      rw [hinput, AntiKlepto.requestWire, ← hsession, ← hdigest, hcommit]
    have hout := (AntiKlepto.encodes_request sha256 hostSecret request.transaction).succeeds hsmall
      (hwire ▸ hroom)
    rwa [← hwire] at hout

theorem commitment_roundTrips : RoundTrips
    (fun message => AntiKlepto.encodeCommitment message.1 message.2.1 message.2.2)
    AntiKlepto.parseCommitment commitmentFields :=
  .of_wire (fun message => AntiKlepto.encodes_commitment message.1 message.2.1 message.2.2)
    (fun _ _ => AntiKlepto.wire_of_parseCommitment) fun _ => AntiKlepto.parseCommitment_wire

theorem signed_roundTrips : RoundTrips
    (fun message => AntiKlepto.encodeSigned message.1 message.2.1 message.2.2.1 message.2.2.2)
    AntiKlepto.parseSigned signedFields :=
  .of_wire (fun message => AntiKlepto.encodes_signed message.1 message.2.1 message.2.2.1 message.2.2.2)
    (fun _ _ => AntiKlepto.wire_of_parseSigned) fun _ => AntiKlepto.parseSigned_wire

theorem reveal_roundTrips : RoundTrips (fun message => AntiKlepto.encodeReveal message.1 message.2)
    AntiKlepto.parseReveal id :=
  .of_iff (fun message => AntiKlepto.encodes_reveal message.1 message.2) fun _ _ =>
    AntiKlepto.parseReveal_eq_ok.trans (iff_of_eq (true_and _)).symm

end

/-- Encoder and parser of each of the ten messages invert each other. -/
theorem signing_codecs (sha256 : Bytes → FixedBytes 32) : SigningCodecs sha256 where
  antiKleptoRequest := request_roundTrips sha256
  antiKleptoCommitment := commitment_roundTrips
  commitmentRecords := fun commitment => ⟨commitment.length_records.symm, commitment.record_eq⟩
  antiKleptoReveal := reveal_roundTrips
  antiKleptoSigned := signed_roundTrips
  signedProofs := fun signed => ⟨signed.length_proofs.symm, signed.proof_eq⟩
  covenantRequest := Covenant.request_roundTrips
  covenantReveal := Covenant.reveal_roundTrips
  covenantResponse := Covenant.response_roundTrips
  privateSwapRequest := PrivateSwap.request_roundTrips sha256
  privateSwapReveal := PrivateSwap.reveal_roundTrips
  privateSwapResponse := PrivateSwap.response_roundTrips

/-!
## Signature responses round trip

The parser accepts the strings of the responses it can rebuild. A signature of the one type
that `from_byte` does not know, and a signature for every index there is, are written all the
same: the first cannot be read, the second cannot be counted.
-/
open Lib Transaction Transaction.Model Transaction.Kspt

/-- A response is read back as it was built exactly when all its types are known to the parser and
its count fits the field. Whatever is read is written as it was. -/
theorem signed_response_round_trip {inputs : List InputSignature} {response : SignedResponse}
    {capacity : Nat} (h : SignedResponse.build inputs = .ok response)
    (hroom : response.bytes.length ≤ capacity) :
    ((∃ data, response.serialize capacity = .ok data ∧ SignedResponse.parse data = .ok response) ↔
      response.signatures.length < 2 ^ 32 ∧
        ∀ input ∈ response.signatures, input.sighashType ≠ .anyOneCanPay) ∧
    ∀ data parsed, SignedResponse.parse data = .ok parsed → ∀ room, data.length ≤ room →
      parsed.serialize room = .ok data := by
  obtain ⟨hnodup, hresponse⟩ := SignedResponse.build_eq_ok.mp h
  constructor
  · constructor
    · intro ⟨data, _, hparse⟩
      obtain ⟨hcount, hreadable, _⟩ := SignedResponse.parse_eq_ok.mp hparse
      exact ⟨hcount, hreadable⟩
    · intro ⟨hcount, hreadable⟩
      have hindices : (response.signatures.map InputSignature.inputIndex).Nodup := hresponse ▸ hnodup
      exact ⟨response.bytes, SignedResponse.serialize_eq_ok.mpr ⟨hcount, rfl, hroom⟩,
        SignedResponse.parse_eq_ok.mpr ⟨hcount, hreadable, hindices, rfl⟩⟩
  · intro data parsed hparse room hdata
    obtain ⟨hcount, _, _, hbytes⟩ := SignedResponse.parse_eq_ok.mp hparse
    exact SignedResponse.serialize_eq_ok.mpr ⟨hcount, hbytes, hdata⟩

namespace SignedResponses

def sample (sighashType : SigHashType) : InputSignature := ⟨0, sighashType, zeros 64⟩

/-- Signatures of two inputs, of two types. -/
def twoInputs : List InputSignature := [⟨7, .none, ⟨List.replicate 64 1, by simp⟩⟩, sample .all]

end SignedResponses

open SignedResponses

theorem signed_response_round_trip_sample :
    ∃ data, SignedResponse.serialize ⟨twoInputs⟩ 200 = .ok data ∧ SignedResponse.parse data = .ok ⟨twoInputs⟩ ∧
      SignedResponse.serialize ⟨twoInputs⟩ data.length = .ok data := by
  have hbuilt : SignedResponse.build twoInputs = .ok ⟨twoInputs⟩ := by decide
  obtain ⟨hread, hwritten⟩ := @signed_response_round_trip twoInputs ⟨twoInputs⟩ 200 hbuilt
    (by decide +kernel)
  obtain ⟨data, hdata, hparse⟩ := hread.mpr (by decide)
  exact ⟨data, hdata, hparse, hwritten data _ hparse data.length (Nat.le_refl _)⟩

/-- The response is built and written, and the parser refuses what was written. -/
theorem signed_response_refused :
    SignedResponse.build [sample .anyOneCanPay] = .ok ⟨[sample .anyOneCanPay]⟩ ∧
      ∃ data, SignedResponse.serialize ⟨[sample .anyOneCanPay]⟩ 78 = .ok data ∧
        SignedResponse.parse data = .error .invalidSigHashType :=
  ⟨rfl, _, rfl, rfl⟩

end KaspaPortal.Guarantees
