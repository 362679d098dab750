import KaspaPortal.Primitives.Script

/-!
# Consensus transactions

`src/transaction/consensus/model.rs`, with the spent outputs beside the inputs
as script introspection reads them. The source's `input_encoding` and
`storage_mass` decide how a transaction is submitted and are not read by any
script, so they are left out.
-/
namespace KaspaPortal.Transaction
open Lib Primitives

structure ConsensusInput where
  prevTxId : FixedBytes 32
  prevIndex : UInt32
  sigScript : Bytes
  sequence : UInt64
  sigOpCount : UInt8
  deriving DecidableEq

structure ConsensusOutput where
  value : UInt64
  spkVersion : UInt16
  spkScript : Bytes
  /-- The authorizing input and the covenant id it passes on. -/
  covenant : Option (UInt16 × FixedBytes 32)
  deriving DecidableEq

structure ConsensusTransaction where
  txVersion : UInt16
  inputs : List ConsensusInput
  outputs : List ConsensusOutput
  locktime : UInt64
  subnetworkId : FixedBytes 20
  gas : UInt64
  payload : Bytes
  deriving DecidableEq

/-- An unspent output as the ledger holds it. -/
structure UtxoEntry where
  amount : UInt64
  spkVersion : UInt16
  spkScript : Bytes
  covenantId : Option (FixedBytes 32)
  deriving DecidableEq

/-- A transaction together with the output each input spends. -/
structure PopulatedTransaction where
  tx : ConsensusTransaction
  entries : List UtxoEntry
  entries_length : entries.length = tx.inputs.length
  deriving DecidableEq

/-- What a transaction leaves behind for one of its outputs. -/
def ConsensusOutput.entry (o : ConsensusOutput) : UtxoEntry :=
  ⟨o.value, o.spkVersion, o.spkScript, o.covenant.map Prod.snd⟩

/-- The version prefix introspection puts before a script. -/
def spkBytes (version : UInt16) (script : Bytes) : Bytes :=
  UInt8.ofNat (version.toNat / 256) :: UInt8.ofNat version.toNat :: script

def ConsensusOutput.spk (o : ConsensusOutput) : Bytes := spkBytes o.spkVersion o.spkScript

def UtxoEntry.spk (e : UtxoEntry) : Bytes := spkBytes e.spkVersion e.spkScript

/-- `p2sh_script`: the locking script committing to a redeem-script hash. -/
def p2shScript (scriptHash : FixedBytes 32) : Bytes :=
  OP_BLAKE2B :: OP_DATA_32 :: (scriptHash.val ++ [OP_EQUAL])

/-- The versioned script is read back from its bytes without ambiguity. -/
theorem spkBytes_inj {v v' : UInt16} {s s' : Bytes} :
    spkBytes v s = spkBytes v' s' ↔ v = v' ∧ s = s' := by
  constructor
  · intro h
    simp only [spkBytes, List.cons.injEq] at h
    obtain ⟨hhi, hlo, hs⟩ := h
    refine ⟨?_, hs⟩
    have hhi' := congrArg UInt8.toNat hhi
    have hlo' := congrArg UInt8.toNat hlo
    have hv := v.toNat_lt
    have hv' := v'.toNat_lt
    simp only [UInt8.toNat_ofNat'] at hhi' hlo'
    apply UInt16.toNat.inj
    omega
  · rintro ⟨rfl, rfl⟩
    rfl

/-- A script committed under version zero, as the builders write it. -/
theorem spkBytes_zero (script : Bytes) : spkBytes 0 script = 0x00 :: 0x00 :: script := rfl

theorem p2shScript_inj {a b : FixedBytes 32} : p2shScript a = p2shScript b ↔ a = b := by
  constructor
  · intro h
    simp only [p2shScript, List.cons.injEq, true_and] at h
    exact Subtype.ext (List.append_cancel_right h)
  · rintro rfl
    rfl

end KaspaPortal.Transaction
