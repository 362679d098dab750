import Mathlib.Logic.Relation
import KaspaPortal.Engine.Machine

/-!
# The ledger

The set of unspent outputs and what applying a transaction does to it. A
transaction spends distinct unspent outputs and creates its own under a fresh
transaction id. `thread_step` is the fact covenant runs rest on: while at most
one unspent output carries an id and tags need an authorizing input, a
transaction either leaves the tagged output alone or replaces it by the outputs
it tags itself.

Blocks, orphans and reorganisations are not modelled: a run is a sequence of
transactions, each applied to the outputs the one before it left.
-/
namespace KaspaPortal.Engine
open Lib Transaction

structure Outpoint where
  txId : FixedBytes 32
  index : UInt32
  deriving DecidableEq

def outpoint (input : ConsensusInput) : Outpoint := ⟨input.prevTxId, input.prevIndex⟩

def spent (t : PopulatedTransaction) : List Outpoint := t.tx.inputs.map outpoint

abbrev Ledger := Outpoint → Option UtxoEntry

/-- The unspent outputs after `t`, whose outputs are found under `txId`. -/
def applyTx (txId : FixedBytes 32) (t : PopulatedTransaction) (L : Ledger) : Ledger := fun o =>
  if o.txId = txId then (t.tx.outputs[o.index.toNat]?).map ConsensusOutput.entry
  else if o ∈ spent t then none else L o

/-- `t` takes the ledger from `L` to `L'` under the id `txId`. -/
structure Applies (txId : FixedBytes 32) (t : PopulatedTransaction) (L L' : Ledger) : Prop where
  fresh : ∀ index, L ⟨txId, index⟩ = none
  spends : ∀ (i : Nat) input, t.tx.inputs[i]? = some input → L (outpoint input) = t.entries[i]?
  distinct : (spent t).Nodup
  addressable : t.tx.outputs.length ≤ 2 ^ 32
  result : L' = applyTx txId t L

/-- An output carries the id only if the input it names carries it. -/
def AuthorizedTags (id : FixedBytes 32) (t : PopulatedTransaction) : Prop :=
  ∀ out ∈ t.tx.outputs, ∀ auth, out.covenant = some (auth, id) →
    ∃ e, t.entries[auth.toNat]? = some e ∧ e.covenantId = some id

/-- The unspent output `o` carries the id. -/
def Tagged (L : Ledger) (id : FixedBytes 32) (o : Outpoint) (e : UtxoEntry) : Prop :=
  L o = some e ∧ e.covenantId = some id

/-- At most one unspent output carries the id. -/
def UniqueTag (L : Ledger) (id : FixedBytes 32) : Prop :=
  ∀ o o' e e', Tagged L id o e → Tagged L id o' e' → o = o'

theorem mem_taggedOutputs {tx : ConsensusTransaction} {id : FixedBytes 32} {k : Nat} :
    k ∈ taggedOutputs tx id.val ↔
      ∃ out, tx.outputs[k]? = some out ∧ out.entry.covenantId = some id := by
  simp only [taggedOutputs, List.mem_filter, List.mem_range, ConsensusOutput.entry]
  constructor
  · rintro ⟨hk, h⟩
    obtain ⟨out, hout⟩ : ∃ out, tx.outputs[k]? = some out := ⟨_, List.getElem?_eq_getElem hk⟩
    refine ⟨out, hout, ?_⟩
    rw [hout, Option.bind_some] at h
    cases hc : out.covenant with
    | none => simp [hc] at h
    | some tag => simpa [hc, Subtype.ext_iff] using h
  · rintro ⟨out, hout, htag⟩
    refine ⟨(List.getElem?_eq_some_iff.mp hout).1, ?_⟩
    rw [hout, Option.bind_some]
    obtain ⟨tag, hc, rfl⟩ := Option.map_eq_some_iff.mp htag
    simp [hc]

section step
variable {txId id : FixedBytes 32} {t : PopulatedTransaction} {L L' : Ledger}

/-- After a transaction the tagged outputs are the ones it created and the old
ones it left alone. -/
theorem tagged_after (h : Applies txId t L L') (o : Outpoint) (e : UtxoEntry) :
    Tagged L' id o e ↔
      (o.txId = txId ∧ ∃ out, t.tx.outputs[o.index.toNat]? = some out ∧ e = out.entry ∧
        o.index.toNat ∈ taggedOutputs t.tx id.val) ∨
      (o.txId ≠ txId ∧ o ∉ spent t ∧ Tagged L id o e) := by
  unfold Tagged
  rw [h.result, applyTx]
  by_cases hid : o.txId = txId
  · simp only [hid, if_true, ne_eq, not_true, false_and, or_false, true_and, mem_taggedOutputs,
      Option.map_eq_some_iff]
    constructor
    · rintro ⟨⟨out, hout, rfl⟩, htag⟩
      exact ⟨out, hout, rfl, out, hout, htag⟩
    · rintro ⟨out, hout, rfl, out', hout', htag⟩
      obtain rfl : out = out' := Option.some.inj (hout.symm.trans hout')
      exact ⟨⟨out, hout, rfl⟩, htag⟩
  · by_cases hs : o ∈ spent t <;> simp [hid, hs]

theorem entry_spends (h : Applies txId t L L') {i : Nat} {e : UtxoEntry}
    (he : t.entries[i]? = some e) :
    ∃ input, t.tx.inputs[i]? = some input ∧ L (outpoint input) = some e := by
  have hi : i < t.tx.inputs.length := by
    rw [← t.entries_length]
    exact (List.getElem?_eq_some_iff.mp he).1
  exact ⟨_, List.getElem?_eq_getElem hi, by rw [h.spends i _ (List.getElem?_eq_getElem hi), he]⟩

/-- A transaction with no tagged input changes nothing about the tag. -/
theorem tagged_untouched (h : Applies txId t L L') (hauth : AuthorizedTags id t)
    (hno : ∀ (i : Nat) e, t.entries[i]? = some e → e.covenantId ≠ some id) (o : Outpoint) (e : UtxoEntry) :
    Tagged L' id o e ↔ Tagged L id o e := by
  rw [tagged_after h]
  constructor
  · rintro (⟨-, out, hout, -, hmem⟩ | ⟨-, -, ht⟩)
    · exfalso
      obtain ⟨out, hout, htag⟩ := mem_taggedOutputs.mp hmem
      obtain ⟨⟨auth, id'⟩, hc, hid⟩ := Option.map_eq_some_iff.mp htag
      simp only at hid
      subst hid
      obtain ⟨e, he, htag⟩ := hauth out (List.mem_of_getElem? hout) auth hc
      exact hno _ e he htag
    · exact ht
  · intro ht
    refine Or.inr ⟨?_, ?_, ht⟩
    · rintro rfl
      rw [Tagged, h.fresh o.index] at ht
      cases ht.1
    · intro hmem
      obtain ⟨input, hin, rfl⟩ := List.mem_map.mp hmem
      obtain ⟨i, hi⟩ := List.getElem?_of_mem hin
      exact hno i e ((h.spends i input hi).symm.trans ht.1) ht.2

/-- What one transaction can do to a thread. -/
theorem thread_step (h : Applies txId t L L') (hauth : AuthorizedTags id t)
    (hu : UniqueTag L id) :
    (∀ o e, Tagged L' id o e ↔ Tagged L id o e) ∨
    ∃ (i : Nat) (o : Outpoint) (e : UtxoEntry), t.entries[i]? = some e ∧ Tagged L id o e ∧
      ∀ o' e', Tagged L' id o' e' ↔ o'.txId = txId ∧
        ∃ out, t.tx.outputs[o'.index.toNat]? = some out ∧ e' = out.entry ∧
          o'.index.toNat ∈ taggedOutputs t.tx id.val := by
  by_cases hno : ∀ (i : Nat) e, t.entries[i]? = some e → e.covenantId ≠ some id
  · exact Or.inl (tagged_untouched h hauth hno)
  · simp only [not_forall, not_not] at hno
    obtain ⟨i, e, he, htag⟩ := hno
    obtain ⟨input, hin, hL⟩ := entry_spends h he
    refine Or.inr ⟨i, outpoint input, e, he, ⟨hL, htag⟩, fun o' e' => ?_⟩
    rw [tagged_after h, or_iff_left]
    -- the only tagged output was spent, so nothing old is left
    rintro ⟨-, hns, ht⟩
    obtain rfl := hu _ _ _ _ ht ⟨hL, htag⟩
    exact hns (List.mem_map_of_mem (List.mem_of_getElem? hin))

/-- When the transaction's own tagged outputs are all there is and it tags a
single one, exactly that output carries the id afterwards. -/
theorem tagged_single {k : Nat} {out : ConsensusOutput}
    (hnew : ∀ o' e', Tagged L' id o' e' ↔ o'.txId = txId ∧
      ∃ out, t.tx.outputs[o'.index.toNat]? = some out ∧ e' = out.entry ∧
        o'.index.toNat ∈ taggedOutputs t.tx id.val)
    (h : Applies txId t L L') (htag : taggedOutputs t.tx id.val = [k])
    (hout : t.tx.outputs[k]? = some out) (o : Outpoint) (e : UtxoEntry) :
    Tagged L' id o e ↔ o = ⟨txId, UInt32.ofNat k⟩ ∧ e = out.entry := by
  have hk : k < 2 ^ 32 := Nat.lt_of_lt_of_le (List.getElem?_eq_some_iff.mp hout).1 h.addressable
  have hk32 : (UInt32.ofNat k).toNat = k := UInt32.toNat_ofNat_of_lt' hk
  rw [hnew, htag]
  constructor
  · rintro ⟨rfl, out', hout', rfl, hmem⟩
    have hi : o.index.toNat = k := List.mem_singleton.mp hmem
    have : out' = out := by
      rw [hi] at hout'
      exact Option.some.inj (hout'.symm.trans hout)
    exact ⟨by rw [← hi, UInt32.ofNat_toNat], by rw [this]⟩
  · rintro ⟨rfl, rfl⟩
    exact ⟨rfl, out, by rw [hk32]; exact hout, rfl, by simp [hk32]⟩

end step

theorem covenantIdBytes_of_tagged {id : FixedBytes 32} {e : UtxoEntry}
    (h : e.covenantId = some id) : covenantIdBytes e = id.val := by
  simp [covenantIdBytes, h]

end KaspaPortal.Engine
