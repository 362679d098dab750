import KaspaPortal.Lib.Result
import KaspaPortal.Lib.Sorting
import KaspaPortal.Transaction.Model

/-!
# Promoting signatures

`src/transaction/interchange/pskt/standard/signatures.rs`. The partial signatures that an input came
with stand beside the transaction, input by input, and are the entries up to their count. The order
of equal keys, which the source's sort leaves open, is the one before.

The parser that fills the incoming entries is not modelled: any entries within the type's bound may
come.
-/
namespace KaspaPortal.Transaction.Pskt.Signatures
open Lib Transaction.Model

/-- What merging can fail with. -/
inductive PskError where
  | signatureConflict | tooManyPartialSigs
  deriving DecidableEq, Repr

structure IncomingPartialSig where
  pubkey : FixedBytes 33
  signature : FixedBytes 64
  present : Bool
  deriving DecidableEq

/-- The counted entries of an array. -/
structure PartialSigs where
  entries : List IncomingPartialSig
  length_le : entries.length ≤ MAX_SIGS_PER_INPUT
  deriving DecidableEq

namespace PartialSigs

theorem length_push {entries : List IncomingPartialSig} (h : entries.length < MAX_SIGS_PER_INPUT)
    (entry : IncomingPartialSig) : (entries ++ [entry]).length ≤ MAX_SIGS_PER_INPUT := by
  rw [List.length_append]
  exact h

/-- The entry behind the counted ones. -/
def push (self : PartialSigs) (entry : IncomingPartialSig) : Except PskError PartialSigs :=
  if h : self.entries.length < MAX_SIGS_PER_INPUT then
    .ok ⟨self.entries ++ [entry], length_push h entry⟩
  else .error .tooManyPartialSigs

def sortEntries (entries : List IncomingPartialSig) : List IncomingPartialSig :=
  swapSort (·.pubkey.val) entries

theorem length_sortEntries (self : PartialSigs) :
    (sortEntries self.entries).length ≤ MAX_SIGS_PER_INPUT := by
  rw [sortEntries, (perm_swapSort _ self.entries).length_eq]
  exact self.length_le

def sort (self : PartialSigs) : PartialSigs := ⟨sortEntries self.entries, length_sortEntries self⟩

end PartialSigs

/-- A present signature that names its key. -/
def tagged (slot : InputSig) : Bool := slot.present ∧ slot.pubkeyCompressed ≠ zeros 33

/-- One slot, after what has been merged before it. -/
def mergeSlot (merged : PartialSigs) (slot : InputSig) : Except PskError PartialSigs :=
  if tagged slot = false then .ok merged
  else
    match merged.entries.find? (·.pubkey = slot.pubkeyCompressed) with
    | some entry =>
      if entry.signature ≠ slot.signature then .error .signatureConflict else .ok merged
    | none => merged.push ⟨slot.pubkeyCompressed, slot.signature, true⟩

/-- The slots of an input that its count names. -/
def countedSigs (input : TransactionInput) : List InputSig := input.sigs.val.take input.sigCount.toNat

def mergedPartialSigs (input : TransactionInput) (incoming : PartialSigs) :
    Except PskError PartialSigs := do
  let merged ← (countedSigs input).foldlM mergeSlot incoming
  return if merged.entries.length ≠ incoming.entries.length then merged.sort else merged

/-- A transaction and the partial signatures of each of its inputs. -/
structure StandardTransaction where
  tx : Transaction
  incoming : List PartialSigs
  incoming_length : incoming.length = tx.inputs.length
  deriving DecidableEq

/-- Every input is merged before any of them is written. -/
def mergeInputs (self : StandardTransaction) : Except PskError (List PartialSigs) :=
  (self.tx.inputs.zip self.incoming).mapM fun pair => mergedPartialSigs pair.1 pair.2

/-- There is one result for each input. -/
def moveKspSigsToPskt (self : StandardTransaction) : Except PskError Unit × StandardTransaction :=
  match mergeInputs self with
  | .error error => (.error error, self)
  | .ok merged =>
    if h : merged.length = self.tx.inputs.length then (.ok (), ⟨self.tx, merged, h⟩)
    else (.ok (), self)

end KaspaPortal.Transaction.Pskt.Signatures
