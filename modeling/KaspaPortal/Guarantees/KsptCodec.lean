import KaspaPortal.Transaction.Kspt.SourceEnvelope
import KaspaPortal.Transaction.Pskt.Compact

/-!
# The compact format is canonical

Every string the parser accepts is the one string the serializer makes of the
result, and every transaction the serializer accepts comes back with all that the
format carries. The two sides meet in the grammar's envelopes: the decoder accepts
exactly their strings, the encoder writes exactly the string of its source's
envelope. The host has a sink and a source of its own for the same grammar, so it
reads the same envelope from a string as the signer does.

The host takes more strings than the signer: it asks for no agreement of the flag with
the signatures and for no script it can sign. Which of them its verification then
refuses is not settled here.
-/
namespace KaspaPortal.Guarantees
open Lib Primitives Transaction Transaction.Model Transaction.Kspt

variable {crypto : SignatureCrypto}

/-- Parsing, in terms of the envelope. -/
theorem parseCompactKspt_eq_ok {b : Bytes} {storage tx : Transaction} :
    parseCompactKspt crypto b storage = .ok tx ↔ ∃ e : Envelope, e.Valid (limitsOf storage) ∧
      b = e.bytes ∧ e.replay transactionSink (.new storage.limits) = .ok tx ∧
      (e.global.flags &&& FLAG_SIGNED_OR_COMPLETE != 0) = ksptIsFullySigned crypto tx ∧
      validatePartialSigned tx = .ok () := by
  have hdecode : ∀ flags tx', (decode transactionSink b (limitsOf storage.clear) storage.clear).mapError
      decodeError = .ok (flags, tx') ↔ ∃ e : Envelope, e.Valid (limitsOf storage) ∧
        e.global.flags = flags ∧ b = e.bytes ∧
        e.replay transactionSink (.new storage.limits) = .ok tx' := by
    intro flags tx'
    rw [mapError_eq_ok, decode_eq_ok]
    rfl
  unfold parseCompactKspt
  simp only [bind_eq_ok, checkFlag, rejectIf_eq_ok, Decidable.not_not]
  constructor
  · intro h
    obtain ⟨⟨flags, tx'⟩, h, _, hflag, _, hvalid, htx⟩ := h
    obtain ⟨e, hv, hflags, hb, hreplay⟩ := (hdecode flags tx').mp h
    cases htx
    exact ⟨e, hv, hb, hreplay, hflags ▸ hflag, hvalid⟩
  · intro h
    obtain ⟨e, hv, hb, hreplay, hflag, hvalid⟩ := h
    exact ⟨(e.global.flags, tx), (hdecode _ _).mpr ⟨e, hv, rfl, hb, hreplay⟩, (), hflag, (), hvalid, rfl⟩

/-- Serializing, in terms of the envelope. -/
theorem serializeCompactKspt_eq_ok {tx : Transaction} {capacity : Nat} {b : Bytes} :
    serializeCompactKspt crypto tx capacity = .ok b ↔ validatePartialSigned tx = .ok () ∧
      ValidGlobal (limitsOf tx) (transactionSource crypto tx).global ∧
      (∀ i ∈ (transactionSource crypto tx).envelope.inputs, i.Valid) ∧
      (∀ o ∈ (transactionSource crypto tx).envelope.outputs, o.script.length ≤ MAX_SCRIPT_SIZE) ∧
      WritableTrailers (transactionSource crypto tx) ∧
      b = (transactionSource crypto tx).envelope.bytes ∧ b.length ≤ capacity := by
  unfold serializeCompactKspt
  simp only [bind_eq_ok, mapError_eq_ok, encode_eq_ok]
  constructor
  · intro ⟨_, hvalid, h⟩
    exact ⟨hvalid, h⟩
  · intro ⟨hvalid, h⟩
    exact ⟨(), hvalid, h⟩

/-- The one allowed flag is the whole byte. -/
theorem allowed_flags {flags : UInt8} (h : flags &&& ~~~ALLOWED_FLAGS = 0) :
    flags = if (flags &&& FLAG_SIGNED_OR_COMPLETE != 0) then FLAG_SIGNED_OR_COMPLETE else 0 := by
  have hall : ∀ n < 256, n &&& 254 = 0 → n = 0 ∨ n = 1 := by decide +kernel
  have hnat := congrArg UInt8.toNat h
  rw [UInt8.toNat_and] at hnat
  obtain h0 | h1 := hall flags.toNat flags.toNat_lt hnat
  · rw [show flags = 0 from UInt8.toNat.inj h0]
    rfl
  · rw [show flags = 1 from UInt8.toNat.inj h1]
    rfl

/-- What was parsed is the source of the envelope it was parsed from. -/
theorem envelope_of_parse {b : Bytes} {storage tx : Transaction}
    (h : parseCompactKspt crypto b storage = .ok tx) :
    ∃ e : Envelope, e.Valid (limitsOf storage) ∧ b = e.bytes ∧ Reproduces crypto tx e ∧
      tx.limits = storage.limits ∧ (transactionSource crypto tx).envelope = e := by
  obtain ⟨e, hv, hb, hreplay, hflag, -⟩ := parseCompactKspt_eq_ok.mp h
  obtain ⟨hrep, hlimits⟩ := Envelope.replay_reproduces crypto hv hreplay
  have hflags : (transactionSource crypto tx).global.flags = e.global.flags := by
    rw [allowed_flags hv.global.flags, hflag]
    rfl
  exact ⟨e, hv, hb, hrep, hlimits, hrep.envelope_eq hv hflags⟩

/-- What was parsed serializes to what it was parsed from. -/
theorem serialize_of_parse {b : Bytes} {storage tx : Transaction}
    (h : parseCompactKspt crypto b storage = .ok tx) {capacity : Nat} (hcap : b.length ≤ capacity) :
    serializeCompactKspt crypto tx capacity = .ok b := by
  obtain ⟨_, _, _, _, _, hvalid⟩ := parseCompactKspt_eq_ok.mp h
  obtain ⟨e, hv, hb, hrep, hlimits, henv⟩ := envelope_of_parse h
  have hglobal : (transactionSource crypto tx).global = e.global := congrArg Envelope.global henv
  have hl : limitsOf tx = limitsOf storage := by rw [limitsOf, hlimits]; rfl
  refine serializeCompactKspt_eq_ok.mpr ⟨hvalid, ?_, ?_, ?_, ?_, ?_, hcap⟩
  · rw [hglobal, hl]
    exact hv.global
  · rw [henv]
    exact hv.inputs
  · rw [henv]
    exact hv.outputs
  · exact hrep.trailers.writable hv.canonical hv.network hv.trailers
  · rw [henv, hb]

/-- Every accepted string is the serialization of what it was parsed into, so two
accepted strings with the same result are the same string. -/
theorem kspt_is_canonical (crypto : SignatureCrypto) (b : Bytes) (storage tx : Transaction)
    (h : parseCompactKspt crypto b storage = .ok tx) :
    (∀ capacity, b.length ≤ capacity → serializeCompactKspt crypto tx capacity = .ok b) ∧
      ∀ b' storage', parseCompactKspt crypto b' storage' = .ok tx → b' = b := by
  refine ⟨fun capacity hcap => serialize_of_parse h hcap, fun b' storage' h' => ?_⟩
  have hb := serialize_of_parse h (Nat.le_max_left b.length b'.length)
  have hb' := serialize_of_parse h' (Nat.le_max_right b.length b'.length)
  exact Except.ok.inj (hb'.symm.trans hb)

/-- No signature verifies. -/
def noCrypto : SignatureCrypto := ⟨fun _ => zeros 32, fun _ _ _ => false⟩

/-- A script that pays to the key of zeros. -/
def zeroKeyScript : Bytes := [OP_DATA_32] ++ (zeros 32).val ++ [OP_CHECKSIG]

/-- One input and one output of a key, on the test network, with a derivation hint. -/
def sampleEnvelope : Envelope where
  global := ⟨0, 0, 1, 1, 0, zeros 20, 0, []⟩
  inputs := [⟨⟨zeros 32, 0, 1000, 0, 1, 0, zeroKeyScript⟩, [], []⟩]
  outputs := [⟨900, 0, zeroKeyScript⟩]
  trailers := [.network 2, .inputDerivation 0 ⟨0, 7⟩]

theorem kspt_is_canonical_sample :
    ∃ tx, parseCompactKspt noCrypto sampleEnvelope.bytes (.new .FORMAT) = .ok tx ∧
      serializeCompactKspt noCrypto tx 200 = .ok sampleEnvelope.bytes := by
  obtain ⟨tx, htx⟩ : ∃ tx, parseCompactKspt noCrypto sampleEnvelope.bytes (.new .FORMAT) = .ok tx :=
    exists_ok (by decide +kernel)
  exact ⟨tx, htx, (kspt_is_canonical noCrypto _ _ tx htx).1 200 (by decide +kernel)⟩

/-- Every transaction the serializer accepts, its redeem scripts stored through
`store_redeem`, is parsed back with all that the format carries. -/
theorem kspt_round_trip (crypto : SignatureCrypto) (tx storage : Transaction) (capacity : Nat) (b : Bytes)
    (hstored : RedeemsStored tx) (hroom : Admits storage tx)
    (h : serializeCompactKspt crypto tx capacity = .ok b) :
    ∃ tx', parseCompactKspt crypto b storage = .ok tx' ∧ wireView tx' = wireView tx := by
  obtain ⟨hvalid, hg, hi, ho, ht, hb, _⟩ := serializeCompactKspt_eq_ok.mp h
  have hv := validatePartialSigned_eq_ok.mp hvalid
  have henv := source_envelope_valid hv hroom hg hi ho ht
  obtain ⟨hin, hout⟩ := source_counts crypto hv
  have hsigns : ∀ w ∈ (transactionSource crypto tx).envelope.inputs, SignsAll w := by
    refine envelope_inputs_forall (P := SignsAll) hv ?_
    intro input hmem r _ v hmemv
    obtain ⟨slot, hslot, rfl⟩ := List.mem_map.mp hmemv
    exact ((hv.slots input hmem).present slot hslot).2
  have hne : (transactionSource crypto tx).envelope.inputs.length ≠ 0 ∧
      (transactionSource crypto tx).envelope.outputs.length ≠ 0 := by
    simp only [EncodeSource.envelope, List.length_map, List.length_range, hin, hout]
    exact ⟨hv.inputCount.1, hv.outputCount.1⟩
  have hcount : (transactionSource crypto tx).envelope.inputs.length ≤ storage.limits.maxInputs := by
    simp only [EncodeSource.envelope, List.length_map, List.length_range, hin]
    exact hroom.1
  obtain ⟨tx', hreplay⟩ := Envelope.replay_succeeds henv hne hcount hroom.2 hsigns
    (envelope_pool hv hstored.poolFits)
  obtain ⟨hrep, hlimits⟩ := Envelope.replay_reproduces crypto henv hreplay
  have hview := reproduced_view hv ht hrep
  have hv' := reproduced_valid hv hroom hi hrep hview hlimits
  refine ⟨tx', parseCompactKspt_eq_ok.mpr ⟨_, henv, hb, hreplay, ?_,
    validatePartialSigned_eq_ok.mpr hv'⟩, hview⟩
  rw [ksptIsFullySigned_congr hv hv' hview]
  simp only [EncodeSource.envelope, transactionSource]
  cases ksptIsFullySigned crypto tx <;> rfl

/-- The sample, built by hand. -/
def sampleTransaction : Transaction :=
  { Transaction.new .FORMAT with
    network := .testnet
    inputs := [{ TransactionInput.empty with
      utxoEntry := ⟨1000, ⟨0, zeroKeyScript⟩⟩
      hasDerivationHint := true
      derivationIndex := 7 }]
    outputs := [{ TransactionOutput.empty with value := 900, scriptPublicKey := ⟨0, zeroKeyScript⟩ }] }

/-- A script of one key. -/
def oneOfOne : Bytes := [OP_1, OP_DATA_32] ++ (zeros 32).val ++ [OP_1, OP_CHECKMULTISIG]

/-- With a second input, which pays to the hash of a script. -/
def unsignedSpend : Transaction :=
  { sampleTransaction with
    inputs := sampleTransaction.inputs ++ [{ TransactionInput.empty with
      utxoEntry := ⟨500, ⟨0, [OP_BLAKE2B, OP_DATA_32] ++ (zeros 32).val ++ [OP_EQUAL]⟩⟩ }] }

def signInputWith (signature : FixedBytes 64) (input : TransactionInput) : TransactionInput :=
  { input with
    sigs := input.sigs.modify 0 fun _ => ⟨signature, SigHashType.all.toByte, 0, true, zeros 33⟩
    sigCount := 1
    sighashType := SigHashType.all.toByte }

/-- Both inputs signed, and the second with its redeem script. -/
def signedSpend : Except TransactionStorageError Transaction := do
  let tx ← unsignedSpend.storeRedeem 1 oneOfOne
  return { tx with inputs := tx.inputs.map (signInputWith ⟨List.replicate 64 5, by simp⟩) }

theorem unsignedSpend_stored : RedeemsStored unsignedSpend := by
  refine .edit (.fresh .FORMAT) ⟨rfl, rfl, fun i input hi => .inl ?_⟩
  have hnone : ∀ input ∈ unsignedSpend.inputs, input.redeemScriptLen = 0 := by decide
  exact hnone input (List.mem_of_getElem? hi)

theorem signedSpend_stored {tx : Transaction} (h : signedSpend = .ok tx) : RedeemsStored tx := by
  obtain ⟨stored, hstore, heq⟩ := bind_eq_ok.mp h
  cases heq
  refine .edit (.store unsignedSpend_stored hstore) ⟨rfl, rfl, fun i input hi => .inr ?_⟩
  rw [List.getElem?_map] at hi
  obtain ⟨before, hbefore, rfl⟩ := Option.map_eq_some_iff.mp hi
  exact ⟨before, hbefore, rfl, rfl, rfl, rfl⟩

/-- A redeem script and two signatures. -/
theorem kspt_round_trip_sample :
    ∃ tx b tx', signedSpend = .ok tx ∧ serializeCompactKspt noCrypto tx 462 = .ok b ∧
      parseCompactKspt noCrypto b (.new .FORMAT) = .ok tx' ∧ wireView tx' = wireView tx := by
  obtain ⟨tx, htx⟩ : ∃ tx, signedSpend = .ok tx := exists_ok (by decide)
  have hwritten : (signedSpend.toOption.any fun tx =>
      (serializeCompactKspt noCrypto tx 462).isOk && decide (tx.inputs.length = 2 ∧ tx.payload = [])) = true := by
    decide +kernel
  rw [htx] at hwritten
  change ((serializeCompactKspt noCrypto tx 462).isOk && _) = true at hwritten
  rw [Bool.and_eq_true, decide_eq_true_eq] at hwritten
  obtain ⟨hwritten, hinputs, hpayload⟩ := hwritten
  obtain ⟨b, hb⟩ := exists_ok hwritten
  obtain ⟨tx', hparse, hview⟩ := kspt_round_trip noCrypto tx (.new .FORMAT) 462 b (signedSpend_stored htx)
    ⟨by rw [hinputs]; decide, by rw [hpayload]; decide⟩ hb
  exact ⟨tx, b, tx', htx, hb, hparse, hview⟩

/-! ## The host's side of the format -/

/-- The string of a valid envelope is read as a transaction that is the source of the envelope. -/
theorem parseCompact_bytes {limits : Limits} {e : Envelope} (hv : e.Valid limits) :
    ∃ tx, Pskt.parseCompact e.bytes limits = .ok tx ∧ (Pskt.compactSource tx).envelope = e ∧
      WritableTrailers (Pskt.compactSource tx) := by
  obtain ⟨tx, hreplay, henv, hwritable⟩ := Pskt.replay_host hv none
  have hflags : tx.flags = e.global.flags := congrArg (·.global.flags) henv
  have hdecode : (decode Pskt.hostSink e.bytes limits none).mapError Pskt.decodeError =
      .ok (e.global.flags, some tx) := by
    rw [mapError_eq_ok, decode_eq_ok]
    exact ⟨e, hv, rfl, rfl, hreplay⟩
  have hsame : { tx with flags := e.global.flags } = tx := by rw [← hflags]
  refine ⟨tx, ?_, henv, hwritable⟩
  rw [Pskt.parseCompact, bind_of_ok hdecode]
  exact congrArg Except.ok hsame

/-- The host accepts a string exactly when it is that of a valid envelope. -/
theorem parseCompact_accepts_iff (data : Bytes) (limits : Limits) :
    (∃ tx, Pskt.parseCompact data limits = .ok tx) ↔ ∃ e : Envelope, e.Valid limits ∧ data = e.bytes := by
  constructor
  · intro h
    obtain ⟨tx, h⟩ := h
    obtain ⟨⟨flags, sink⟩, hdecode, -⟩ := bind_eq_ok.mp h
    obtain ⟨e, hv, -, hdata, -⟩ := (decode_eq_ok _).mp (mapError_eq_ok.mp hdecode)
    exact ⟨e, hv, hdata⟩
  · intro h
    obtain ⟨e, hv, rfl⟩ := h
    obtain ⟨tx, hparse, -⟩ := parseCompact_bytes hv
    exact ⟨tx, hparse⟩

/-- Every string the host accepts is the one it writes for the result. -/
theorem host_codec_canonical {data : Bytes} {limits : Limits} {tx : Pskt.Compact.Transaction}
    (h : Pskt.parseCompact data limits = .ok tx) {capacity : Nat} (hcap : data.length ≤ capacity) :
    encode (Pskt.compactSource tx) capacity limits = .ok data := by
  obtain ⟨e, hv, rfl⟩ := (parseCompact_accepts_iff data limits).mp ⟨tx, h⟩
  obtain ⟨tx', hparse, henv, hwritable⟩ := parseCompact_bytes hv
  obtain rfl := Except.ok.inj (hparse.symm.trans h)
  have hglobal : (Pskt.compactSource tx').global = e.global := congrArg Envelope.global henv
  refine encode_eq_ok.mpr ⟨?_, ?_, ?_, hwritable, ?_, hcap⟩
  · rw [hglobal]
    exact hv.global
  · rw [henv]
    exact hv.inputs
  · rw [henv]
    exact hv.outputs
  · rw [henv]

/-- The host accepts every string the signer accepts, and reads the same envelope from it. -/
theorem host_reads_what_signer_reads {data : Bytes} {storage tx : Transaction}
    (h : parseCompactKspt crypto data storage = .ok tx) :
    ∃ hostTx, Pskt.parseCompact data (limitsOf storage) = .ok hostTx ∧
      (Pskt.compactSource hostTx).envelope = (transactionSource crypto tx).envelope := by
  obtain ⟨e, hv, rfl, -, -, henv⟩ := envelope_of_parse h
  obtain ⟨hostTx, hparse, hhost, -⟩ := parseCompact_bytes hv
  exact ⟨hostTx, hparse, hhost.trans henv.symm⟩

end KaspaPortal.Guarantees
