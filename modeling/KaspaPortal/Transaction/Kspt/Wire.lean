import KaspaPortal.Lib.Codec
import KaspaPortal.Transaction.Model

/-!
# Compact KSPT wire values

`src/transaction/interchange/kspt/wire/model.rs`, `io.rs`, `error.rs` and
`../format.rs`: the values of the grammar, its limits and checks, and the
primitive reads and writes with the exact strings they stand for. The grammar is
independent of the transaction it fills: the decoder hands every value to a
sink, the encoder asks a source for them.

The limits on counts and on the payload are the receiver's; the grammar is
handed them.
-/
namespace KaspaPortal.Transaction.Kspt
open Lib Primitives Model

def KSPT_MAGIC : Bytes := [0x4b, 0x53, 0x50, 0x54]
def KSPT_VERSION : UInt8 := 0x01
/-- The only flag: the transaction has been through a signer. -/
def FLAG_SIGNED_OR_COMPLETE : UInt8 := 0x01
/-- Every other bit of the flag byte must be clear. -/
def ALLOWED_FLAGS : UInt8 := FLAG_SIGNED_OR_COMPLETE

def STEALTH_MARKER : UInt8 := 0x53
def COVENANT_MARKER : UInt8 := 0x43
def NETWORK_MARKER : UInt8 := 0x4e
def OUTPUT_DERIVATION_MARKER : UInt8 := 0x44
def INPUT_DERIVATION_MARKER : UInt8 := 0x41
def COVENANT_EXECUTION_MARKER : UInt8 := 0x45
def MS45_INPUT_MARKER : UInt8 := 0x49
def MS45_OUTPUT_MARKER : UInt8 := 0x4f

def MAX_SIGNATURE_RECORDS : Nat := MAX_SIGS_PER_INPUT
/-- This lead byte announces a two-byte length; it is not a length itself. -/
def EXTENDED_SCRIPT_LENGTH : UInt8 := 0xff
def MAX_SUPPORTED_TX_VERSION : UInt16 := 1

/-- Versions 0 and 1 are known. -/
def supportedTxVersion (version : UInt16) : Bool := version ≤ MAX_SUPPORTED_TX_VERSION

/-- What the grammar refuses, apart from what a sink refuses. -/
inductive WireError where
  | bufferTooShort | outputBufferTooSmall | invalidMagic | unsupportedVersion | invalidFlags
  | countOverflow | scriptTooLong | redeemTooLong | tooManySignatures | duplicateSignaturePosition
  | invalidSigHashType | invalidNetwork | missingNetwork | invalidTrailer | trailingData
  | tooManyInputs | tooManyOutputs | payloadTooLong | unsupportedTransactionVersion
  | nonCanonicalEncoding
  deriving DecidableEq, Repr

/-- `Display`. -/
def WireError.message : WireError → String
  | .bufferTooShort => "KSPT is truncated"
  | .outputBufferTooSmall => "KSPT output buffer is too small"
  | .invalidMagic => "invalid KSPT magic"
  | .unsupportedVersion => "unsupported KSPT version"
  | .invalidFlags => "invalid KSPT flags"
  | .countOverflow => "KSPT count exceeds wire capacity"
  | .scriptTooLong => "KSPT script exceeds protocol limit"
  | .redeemTooLong => "KSPT redeem script exceeds u16 wire capacity"
  | .tooManySignatures => "KSPT input has too many signatures"
  | .duplicateSignaturePosition => "KSPT repeats a signature public-key position"
  | .invalidSigHashType => "KSPT contains an invalid sighash type"
  | .invalidNetwork => "KSPT contains an invalid network code"
  | .missingNetwork => "KSPT v1 is missing its network trailer"
  | .invalidTrailer => "KSPT contains an invalid or duplicate trailer"
  | .trailingData => "KSPT contains unrecognized trailing data"
  | .tooManyInputs => "KSPT declares more inputs than the consumer permits"
  | .tooManyOutputs => "KSPT declares more outputs than the consumer permits"
  | .payloadTooLong => "KSPT payload exceeds the consumer limit"
  | .unsupportedTransactionVersion => "unsupported KSPT transaction version"
  | .nonCanonicalEncoding => "KSPT encodes a value in a non-canonical form"

/-- A decoder fails by the grammar, or because its sink would not take a value. -/
inductive DecodeError (ε : Type) where
  | wire (error : WireError)
  | sink (error : ε)
  deriving DecidableEq

/-- What the receiving side has room for. The grammar checks these before it reads a record. -/
structure Limits where
  maxInputs : UInt32
  maxOutputs : UInt8
  maxPayload : Nat
  deriving DecidableEq

/-- The fields before the first record. -/
structure Global where
  flags : UInt8
  version : UInt16
  inputCount : UInt32
  outputCount : UInt8
  locktime : UInt64
  subnetworkId : FixedBytes 20
  gas : UInt64
  payload : Bytes
  deriving DecidableEq

/-- An input without its signatures and its redeem script, which follow it as records of their own. -/
structure Input where
  previousTxId : FixedBytes 32
  previousIndex : UInt32
  amount : UInt64
  sequence : UInt64
  sigOpCount : UInt8
  scriptVersion : UInt16
  script : Bytes
  deriving DecidableEq

/-- A signature with the place of its key in the script and its sighash byte. -/
structure Signature where
  position : UInt8
  sighash : UInt8
  bytes : FixedBytes 64
  deriving DecidableEq

structure Output where
  amount : UInt64
  scriptVersion : UInt16
  script : Bytes
  deriving DecidableEq

/-- A branch and an index below an account key. -/
structure Derivation where
  branch : UInt8
  index : UInt32
  deriving DecidableEq

/-- The cosigner, the chain and the index of a multisig address. -/
structure Ms45Derivation where
  cosigner : UInt32
  chain : UInt32
  index : UInt32
  deriving DecidableEq

/-- Which branches of a covenant script the signer has chosen, and which of them are taken. -/
structure CovenantExecution where
  suppliedMask : UInt16
  suppliedTrueMask : UInt16
  deriving DecidableEq

/-- The input that authorises a covenant output, and the covenant's id. -/
structure Covenant where
  authorizingInput : UInt16
  id : FixedBytes 32
  deriving DecidableEq

/-- A branch can only be true if it was supplied. -/
def validCovenantExecution (value : CovenantExecution) : Bool :=
  value.suppliedTrueMask &&& ~~~value.suppliedMask == 0

/-- The three sighash types, each with and without the single-input flag. -/
def validSighash (value : UInt8) : Bool :=
  value ∈ ([0x01, 0x02, 0x04, 0x81, 0x82, 0x84] : List UInt8)

/-- The four networks have the codes 1 to 4. -/
def validNetwork (value : UInt8) : Bool := 1 ≤ value ∧ value ≤ 4

/-- Only the two branches of an account, and no hardened index. -/
def validDerivation (value : Derivation) : Bool := value.branch ≤ 1 ∧ value.index < 0x80000000

def validMs45 (value : Ms45Derivation) : Bool :=
  value.chain ≤ 1 ∧ value.cosigner < 0x80000000 ∧ value.index < 0x80000000

/-! ## Primitive reads -/

section readers
variable {σ ε : Type}

abbrev WireParser (σ ε α : Type) := Parser σ (DecodeError ε) α

/-- Hand a value to the sink. -/
def toSink (f : σ → Except ε σ) : WireParser σ ε Unit := emit .sink f

/-- A check of the grammar inside a parser that also feeds a sink. -/
def rejectWire (bad : Prop) [Decidable bad] (error : WireError) : WireParser σ ε Unit :=
  rejectIf bad (DecodeError.wire error : DecodeError ε)

/-- The next bytes, or the error that there are too few. -/
def readBytes (count : Nat) : WireParser σ ε Bytes := takeBytes (.wire .bufferTooShort) count

def readArray (n : Nat) : WireParser σ ε (FixedBytes n) := takeArray (.wire .bufferTooShort) n

def readU8 : WireParser σ ε UInt8 := do
  return UInt8.ofNat (leNat (← readArray 1).val)

/-- Integers are little-endian throughout. -/
def readU16 : WireParser σ ε UInt16 := do
  return UInt16.ofNat (leNat (← readArray 2).val)

def readU32 : WireParser σ ε UInt32 := do
  return UInt32.ofNat (leNat (← readArray 4).val)

def readU64 : WireParser σ ε UInt64 := do
  return UInt64.ofNat (leNat (← readArray 8).val)

/-- How many bytes are left: the trailers are read until none is. -/
def remaining : WireParser σ ε Nat := bytesLeft

/-- A length is one byte, or the marker and two bytes. -/
def readScriptLength (lead : UInt8) : WireParser σ ε Nat :=
  if lead = EXTENDED_SCRIPT_LENGTH then do
    let len := (← readU16).toNat
    -- Lengths below the marker have exactly one encoding: the short form.
    rejectWire (len < EXTENDED_SCRIPT_LENGTH.toNat) .nonCanonicalEncoding
    return len
  else return lead.toNat

/-- The limit is checked before the script is taken. -/
def readScript : WireParser σ ε Bytes := do
  let lead ← readU8
  let len ← readScriptLength lead
  rejectWire (MAX_SCRIPT_SIZE < len) .scriptTooLong
  readBytes len

end readers

/-! ## Primitive writes -/

abbrev WireWriting := Writing WireError Unit

/-- A write that finds no room fails, and leaves what was already written. -/
def writeBytes (value : Bytes) : WireWriting := putBytes .outputBufferTooSmall value
def writeU8 (value : UInt8) : WireWriting := writeBytes (leBytes 1 value.toNat)
def writeU16 (value : UInt16) : WireWriting := writeBytes (leBytes 2 value.toNat)
def writeU32 (value : UInt32) : WireWriting := writeBytes (leBytes 4 value.toNat)
def writeU64 (value : UInt64) : WireWriting := writeBytes (leBytes 8 value.toNat)

/-- The short form wherever it can be used, so that a length has one encoding. -/
def writeScriptLength (len : Nat) : WireWriting :=
  if len < EXTENDED_SCRIPT_LENGTH.toNat then writeU8 (UInt8.ofNat len)
  else do
    writeU8 EXTENDED_SCRIPT_LENGTH
    writeU16 (UInt16.ofNat len)

/-- The writer refuses the scripts that the reader would. -/
def writeScript (value : Bytes) : WireWriting := do
  rejectIf (MAX_SCRIPT_SIZE < value.length) WireError.scriptTooLong
  writeScriptLength value.length
  writeBytes value

/-! ## The strings they stand for -/

def u8Bytes (value : UInt8) : Bytes := leBytes 1 value.toNat
def u16Bytes (value : UInt16) : Bytes := leBytes 2 value.toNat
def u32Bytes (value : UInt32) : Bytes := leBytes 4 value.toNat
def u64Bytes (value : UInt64) : Bytes := leBytes 8 value.toNat

/-- The string a script is written as. -/
def scriptBytes (value : Bytes) : Bytes :=
  (if value.length < EXTENDED_SCRIPT_LENGTH.toNat then u8Bytes (UInt8.ofNat value.length)
    else u8Bytes EXTENDED_SCRIPT_LENGTH ++ u16Bytes (UInt16.ofNat value.length)) ++ value

@[simp] theorem u8Bytes_length (v : UInt8) : (u8Bytes v).length = 1 := leBytes_length ..
@[simp] theorem u16Bytes_length (v : UInt16) : (u16Bytes v).length = 2 := leBytes_length ..
@[simp] theorem u32Bytes_length (v : UInt32) : (u32Bytes v).length = 4 := leBytes_length ..
@[simp] theorem u64Bytes_length (v : UInt64) : (u64Bytes v).length = 8 := leBytes_length ..

section specs
variable {σ ε β : Type}

/-- The reads below are stated as one property each: they accept exactly the strings their
values are written as. -/
theorem decodes_readBytes {count : Nat} :
    Decodes (readBytes (σ := σ) (ε := ε) count) id fun b => b.length = count :=
  decodes_takeBytes

theorem decodes_readArray {n : Nat} :
    Decodes (readArray (σ := σ) (ε := ε) n) Subtype.val fun _ => True :=
  decodes_takeArray

/-- A fixed-width integer is read as exactly the bytes it is written as. -/
theorem decodes_le {α : Type} {n : Nat} (ofNat : Nat → α) (toNat : α → Nat)
    (hto : ∀ b : FixedBytes n, toNat (ofNat (leNat b.val)) = leNat b.val)
    (hof : ∀ a, ofNat (toNat a) = a) (hlt : ∀ a, toNat a < 256 ^ n) :
    Decodes (do return ofNat (leNat (← readArray (σ := σ) (ε := ε) n).val))
      (fun a => leBytes n (toNat a)) fun _ => True := by
  refine (decodes_readArray.bind fun b => reads_pure (ofNat (leNat b.val))).congr
    fun s w a s' => ?_
  constructor
  · intro ⟨b, _, w', hw, hw', ha, hs⟩
    refine ⟨trivial, ?_, hs⟩
    have hb := leBytes_leNat b.val
    rw [b.property] at hb
    simp only [hw, hw', ha, hto, hb, List.append_nil]
  · intro ⟨_, hw, hs⟩
    refine ⟨⟨leBytes n (toNat a), leBytes_length ..⟩, trivial, [], by simp [hw], rfl, ?_, hs⟩
    rw [leNat_leBytes _ _ (hlt a), hof]

theorem decodes_readU8 : Decodes (readU8 (σ := σ) (ε := ε)) u8Bytes fun _ => True := by
  refine decodes_le UInt8.ofNat UInt8.toNat (fun b => ?_) (fun a => UInt8.ofNat_toNat)
    fun a => a.toNat_lt
  have := leNat_lt b.val
  rw [b.property] at this
  rw [UInt8.toNat_ofNat', Nat.mod_eq_of_lt (by simpa using this)]

/-- Two bytes, and every two bytes are some value. -/
theorem decodes_readU16 : Decodes (readU16 (σ := σ) (ε := ε)) u16Bytes fun _ => True := by
  refine decodes_le UInt16.ofNat UInt16.toNat (fun b => ?_) (fun a => UInt16.ofNat_toNat)
    fun a => a.toNat_lt
  have := leNat_lt b.val
  rw [b.property] at this
  rw [UInt16.toNat_ofNat', Nat.mod_eq_of_lt (by simpa using this)]

theorem decodes_readU32 : Decodes (readU32 (σ := σ) (ε := ε)) u32Bytes fun _ => True := by
  refine decodes_le UInt32.ofNat UInt32.toNat (fun b => ?_) (fun a => UInt32.ofNat_toNat)
    fun a => a.toNat_lt
  have := leNat_lt b.val
  rw [b.property] at this
  rw [UInt32.toNat_ofNat', Nat.mod_eq_of_lt (by simpa using this)]

theorem decodes_readU64 : Decodes (readU64 (σ := σ) (ε := ε)) u64Bytes fun _ => True := by
  refine decodes_le UInt64.ofNat UInt64.toNat (fun b => ?_) (fun a => UInt64.ofNat_toNat)
    fun a => a.toNat_lt
  have := leNat_lt b.val
  rw [b.property] at this
  rw [UInt64.toNat_ofNat', Nat.mod_eq_of_lt (by simpa using this)]

/-- Handing a value on reads nothing. -/
theorem reads_toSink {f : σ → Except ε σ} :
    Reads (toSink f) fun s w _ s' => w = [] ∧ f s = .ok s' :=
  reads_emit

/-- A check reads nothing, and what follows it runs only when it passed. -/
theorem reads_rejectWire_bind {bad : Prop} [Decidable bad] {error : WireError}
    {f : Unit → WireParser σ ε β} {Q : σ → Bytes → β → σ → Prop} (hf : Reads (f ()) Q) :
    Reads (rejectWire bad error >>= f) fun s w b s' => ¬ bad ∧ Q s w b s' :=
  reads_rejectIf_bind hf

/-- The two forms of a script length, each with its own range. -/
theorem reads_readScriptLength (lead : UInt8) :
    Reads (readScriptLength (σ := σ) (ε := ε) lead) fun s w len s' => s' = s ∧
      (lead = EXTENDED_SCRIPT_LENGTH ∧ EXTENDED_SCRIPT_LENGTH.toNat ≤ len ∧ len < 2 ^ 16 ∧
          w = u16Bytes (UInt16.ofNat len) ∨
        lead ≠ EXTENDED_SCRIPT_LENGTH ∧ len = lead.toNat ∧ w = []) := by
  unfold readScriptLength
  by_cases h : lead = EXTENDED_SCRIPT_LENGTH
  · rw [if_pos h]
    refine (decodes_readU16.bind fun v => reads_rejectWire_bind (reads_pure v.toNat)).congr
      fun s w len s' => ?_
    constructor
    · intro ⟨v, _, w', hw, hge, hw', hlen, hs⟩
      rw [hw'] at hw
      refine ⟨hs, Or.inl ⟨h, by omega, by rw [hlen]; exact v.toNat_lt, ?_⟩⟩
      rw [hw, hlen, UInt16.ofNat_toNat, List.append_nil]
    · intro ⟨hs, hcase⟩
      obtain ⟨_, hge, hlt, hw⟩ | ⟨hne, _⟩ := hcase
      · have hv : (UInt16.ofNat len).toNat = len := by
          rw [UInt16.toNat_ofNat', Nat.mod_eq_of_lt hlt]
        exact ⟨UInt16.ofNat len, trivial, [], by simp [hw], by omega, rfl, hv.symm, hs⟩
      · exact absurd h hne
  · rw [if_neg h]
    refine (reads_pure lead.toNat).congr fun s w len s' => ?_
    constructor
    · intro ⟨hw, hlen, hs⟩
      exact ⟨hs, Or.inr ⟨h, hlen, hw⟩⟩
    · intro ⟨hs, hcase⟩
      obtain ⟨he, _⟩ | ⟨_, hlen, hw⟩ := hcase
      · exact absurd he h
      · exact ⟨hw, hlen, hs⟩

/-- A script is read in exactly the form it is written in. -/
theorem decodes_readScript :
    Decodes (readScript (σ := σ) (ε := ε)) scriptBytes fun b => b.length ≤ MAX_SCRIPT_SIZE := by
  have hext : EXTENDED_SCRIPT_LENGTH.toNat = 255 := rfl
  have hmax : MAX_SCRIPT_SIZE = 512 := rfl
  refine (decodes_readU8.bind fun lead => reads_bind (reads_readScriptLength lead) fun len =>
    reads_rejectWire_bind decodes_readBytes).congr fun s w b s' => ?_
  constructor
  · intro ⟨lead, _, w', hw, len, s₁, w₁, w₂, hw', ⟨hs₁, hcase⟩, hmaxlen, hlen, hw₂, hs⟩
    refine ⟨by omega, ?_, by rw [hs, hs₁]⟩
    rw [hw, hw', hw₂, id, scriptBytes]
    obtain ⟨hlead, hge, _, hw₁⟩ | ⟨hlead, hleadlen, hw₁⟩ := hcase
    · rw [if_neg (by omega), hlead, hw₁, hlen, List.append_assoc]
    · have hlt := lead.toNat_lt
      have hne : lead.toNat ≠ 255 := fun hc => hlead (UInt8.toNat.inj hc)
      rw [if_pos (by omega), hw₁, hlen, hleadlen, UInt8.ofNat_toNat, List.nil_append]
  · intro ⟨hlen, hw, hs⟩
    unfold scriptBytes at hw
    split at hw
    · rename_i hshort
      have hto : (UInt8.ofNat b.length).toNat = b.length := by
        rw [UInt8.toNat_ofNat', Nat.mod_eq_of_lt (by omega)]
      refine ⟨UInt8.ofNat b.length, trivial, b, hw, b.length, s, [], b, rfl, ⟨rfl, Or.inr
        ⟨fun hc => ?_, hto.symm, rfl⟩⟩, by omega, rfl, rfl, hs⟩
      rw [hc] at hto
      omega
    · rename_i hlong
      refine ⟨EXTENDED_SCRIPT_LENGTH, trivial, _, by rw [hw, List.append_assoc], b.length, s, _, b,
        rfl, ⟨rfl, Or.inl ⟨rfl, by omega, by omega, rfl⟩⟩, by omega, rfl, rfl, hs⟩

theorem writes_writeBytes (value : Bytes) : Writes (writeBytes value) True value := writes_putBytes

/-- A script within the limit is written, one above it is refused. -/
theorem writes_writeScript (value : Bytes) :
    Writes (writeScript value) (value.length ≤ MAX_SCRIPT_SIZE) (scriptBytes value) := by
  have hlen : Writes (writeScriptLength value.length) True
      (if value.length < EXTENDED_SCRIPT_LENGTH.toNat then u8Bytes (UInt8.ofNat value.length)
        else u8Bytes EXTENDED_SCRIPT_LENGTH ++ u16Bytes (UInt16.ofNat value.length)) := by
    unfold writeScriptLength
    split
    · exact writes_writeBytes _
    · exact (writes_bind (writes_writeBytes _) (writes_writeBytes _)).congr (by simp) fun _ => rfl
  refine (writes_bind writes_rejectIf (writes_bind hlen (writes_writeBytes value))).congr
    (by simp) fun _ => ?_
  rw [List.nil_append, scriptBytes]

end specs

end KaspaPortal.Transaction.Kspt
