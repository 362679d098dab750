import KaspaPortal.Lib.BitBuffer
import KaspaPortal.Wallet.Mnemonic.Seed

/-!
# Mnemonics and their entropy

`src/wallet/mnemonic/bip39/encoding.rs`. The first byte of SHA-256 is a parameter. A result of `none`
is an index out of range, which stops the program.
-/
namespace KaspaPortal.Wallet.Mnemonic
open Lib

inductive Bip39Error where
  | invalidEntropyLength | invalidChecksum | invalidWordCount | wordNotFound
  deriving DecidableEq, Repr

/-- An array of word indices. -/
abbrev Indices (n : Nat) := { indices : List UInt16 // indices.length = n }

/-- Twelve words: sixteen octets of entropy and four bits of checksum. -/
structure Mnemonic12 where
  indices : Indices 12
  deriving DecidableEq

/-- Twenty-four words: thirty-two octets of entropy and eight bits of checksum. -/
structure Mnemonic24 where
  indices : Indices 24
  deriving DecidableEq

/-! ## Bits -/

/-- One pass of the loop of `extract_bits`. -/
def extractBit (data : Bytes) (bitOffset : Nat) (value : UInt16) (i : Nat) : Option UInt16 := do
  let byte ← data[(bitOffset + i) / 8]?
  let bit := (byte >>> UInt8.ofNat (7 - (bitOffset + i) % 8)) &&& 1
  return (value <<< 1) + bit.toUInt16

/-- The bits from an offset on, the first one highest. -/
def extractBits (data : Bytes) (bitOffset numBits : Nat) : Option UInt16 :=
  (List.range numBits).foldlM (extractBit data bitOffset) 0

/-- One pass of the loop of `write_bits`. -/
def writeBit (bitOffset : Nat) (value : UInt16) (numBits : Nat) (data : Bytes) (i : Nat) :
    Option Bytes := do
  let bit := (value >>> UInt16.ofNat (numBits - 1 - i)) &&& 1
  let byteIdx := (bitOffset + i) / 8
  if bit = 1 then
    let byte ← data[byteIdx]?
    return data.set byteIdx (byte + (1 <<< UInt8.ofNat (7 - (bitOffset + i) % 8)))
  else return data

/-- The bits of a value, written over zeros from an offset on. -/
def writeBits (data : Bytes) (bitOffset : Nat) (value : UInt16) (numBits : Nat) : Option Bytes :=
  (List.range numBits).foldlM (writeBit bitOffset value numBits) data

/-! ## Indices -/

/-- The loop over the indices: each is the next eleven bits. -/
def entropyToIndices (words : Nat) (combined : Bytes) : Option (Indices words) := do
  let indices ← (List.range words).mapM fun i => extractBits combined (i * 11) 11
  if h : indices.length = words then some ⟨indices, h⟩ else none

/-- Only the high half of the checksum byte belongs to the twelve words. -/
def entropyToIndices12 (entropy : FixedBytes 16) (checksumByte : UInt8) : Option (Indices 12) :=
  entropyToIndices 12 (entropy.val ++ [checksumByte &&& 0xF0])

/-- All of the checksum byte belongs to the twenty-four words. -/
def entropyToIndices24 (entropy : FixedBytes 32) (checksumByte : UInt8) : Option (Indices 24) :=
  entropyToIndices 24 (entropy.val ++ [checksumByte])

/-- The loop over the indices that are left. -/
def writeIndices : Bytes → (bitPos : Nat) → List UInt16 → Option Bytes
  | bits, _, [] => some bits
  | bits, bitPos, idx :: rest => do
    let bits ← writeBits bits bitPos idx 11
    writeIndices bits (bitPos + 11) rest

/-- The entropy, and the four bits behind it as the low half of a byte. -/
def indicesToEntropy12 (indices : Indices 12) : Option (Bytes × UInt8) := do
  let bits ← writeIndices (zeroBuffer 17) 0 indices.val
  let entropy ← upTo bits 16
  let last ← bits[16]?
  return (entropy, last >>> 4)

/-- The entropy, and the byte behind it. -/
def indicesToEntropy24 (indices : Indices 24) : Option (Bytes × UInt8) := do
  let bits ← writeIndices (zeroBuffer 33) 0 indices.val
  let entropy ← upTo bits 32
  let last ← bits[32]?
  return (entropy, last)

/-! ## Mnemonics -/

section
variable (sha256FirstByte : Bytes → UInt8)

/-- The words of an entropy, with the checksum that its hash gives. -/
def mnemonicFromEntropy12 (entropy : FixedBytes 16) : Option Mnemonic12 := do
  let indices ← entropyToIndices12 entropy (sha256FirstByte entropy.val)
  return ⟨indices⟩

def mnemonicFromEntropy24 (entropy : FixedBytes 32) : Option Mnemonic24 := do
  let indices ← entropyToIndices24 entropy (sha256FirstByte entropy.val)
  return ⟨indices⟩

/-- The checksum is computed again from the entropy that the words hold. -/
def validateMnemonic12 (mnemonic : Mnemonic12) : Option (Except Bip39Error Unit) := do
  let (entropy, checksumBits) ← indicesToEntropy12 mnemonic.indices
  return if checksumBits ≠ sha256FirstByte entropy >>> 4 then .error .invalidChecksum else .ok ()

def validateMnemonic24 (mnemonic : Mnemonic24) : Option (Except Bip39Error Unit) := do
  let (entropy, checksumByte) ← indicesToEntropy24 mnemonic.indices
  return if checksumByte ≠ sha256FirstByte entropy then .error .invalidChecksum else .ok ()

end

end KaspaPortal.Wallet.Mnemonic
