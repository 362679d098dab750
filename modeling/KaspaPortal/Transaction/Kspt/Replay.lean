import Mathlib.Data.List.Sort
import KaspaPortal.Transaction.Kspt.Codec

/-!
# A transaction filled from an envelope

What the sink leaves behind when it is told the values of an envelope, starting
from a cleared transaction: every input and output shows its values, every
trailer its hint, and nothing else is there. Redeem scripts go to their places one
after the other; a later one never overwrites an earlier one.
-/
namespace KaspaPortal.Transaction.Kspt
open Lib Primitives Model

/-! ## Redeem scripts -/

/-- What a redeem script takes of the shared pool. -/
def poolNeed (redeem : Bytes) : Nat := if MAX_SCRIPT_SIZE < redeem.length then redeem.length else 0

/-- The input that refers to the script, when the pool is used up to `used`. -/
def withRedeem (used : Nat) (redeem : Bytes) (input : TransactionInput) : TransactionInput :=
  if redeem = [] then input
  else if redeem.length ≤ MAX_SCRIPT_SIZE then
    { input with
      redeemScript := input.redeemScript.write 0 redeem
      redeemScriptLen := redeem.length
      redeemInPool := false }
  else
    { input with
      redeemScriptOffset := UInt16.ofNat used
      redeemScriptLen := redeem.length
      redeemInPool := true }

/-- The pool after the script has been stored. -/
def poolWith (tx : Transaction) (redeem : Bytes) : FixedBytes REDEEM_POOL_SIZE :=
  if MAX_SCRIPT_SIZE < redeem.length then tx.redeemPool.write tx.redeemPoolUsed redeem else tx.redeemPool

/-- The redeem script of an input is kept in the input or in the pool, by its length. -/
def placeRedeem (tx : Transaction) (index : Nat) (redeem : Bytes) : Transaction :=
  { tx with
    redeemPool := poolWith tx redeem
    redeemPoolUsed := tx.redeemPoolUsed + poolNeed redeem
    inputs := tx.inputs.modify index (withRedeem tx.redeemPoolUsed redeem) }

/-- It is refused only when the pool has no room left for it. -/
theorem sinkRedeem_eq_ok {tx tx' : Transaction} (hpool : tx.redeemPoolUsed ≤ REDEEM_POOL_SIZE)
    {index : Nat} {redeem : Bytes} (hlen : redeem.length ≤ MAX_REDEEM_SIZE) :
    sinkRedeem index redeem tx = .ok tx' ↔
      tx.redeemPoolUsed + poolNeed redeem ≤ REDEEM_POOL_SIZE ∧ tx' = placeRedeem tx index redeem := by
  have hmod : ∀ f : TransactionInput → TransactionInput, (∀ input, f input = input) →
      tx.inputs.modify index f = tx.inputs := by
    intro f hf
    have : f = id := funext hf
    rw [this, List.modify_id]
  unfold sinkRedeem placeRedeem poolWith poolNeed
  by_cases hnil : redeem = []
  · subst hnil
    simp only [if_true, List.length_nil, Nat.not_lt_zero, if_false, Nat.add_zero, hpool, true_and,
      Except.ok.injEq]
    rw [hmod _ fun input => by simp [withRedeem]]
    exact eq_comm
  have hpos : redeem.length ≠ 0 := by simpa using hnil
  rw [if_neg hnil]
  unfold Transaction.storeRedeem withRedeem
  by_cases hshort : redeem.length ≤ MAX_SCRIPT_SIZE
  · have hnot : ¬ MAX_SCRIPT_SIZE < redeem.length := by omega
    simp only [hpos, hshort, hnot, hnil, if_true, if_false, Nat.add_zero, hpool, true_and]
    simp only [mapError_ok, Except.ok.injEq, Transaction.modifyInput]
    exact eq_comm
  · have hlong : MAX_SCRIPT_SIZE < redeem.length := by omega
    have hmax : ¬ MAX_REDEEM_SIZE < redeem.length := by omega
    simp only [hpos, hshort, hlong, hmax, hnil, if_true, if_false]
    by_cases hfull : REDEEM_POOL_SIZE < tx.redeemPoolUsed + redeem.length
    · rw [if_pos hfull]
      exact ⟨nofun, fun ⟨hfit, _⟩ => absurd hfull (Nat.not_lt.mpr hfit)⟩
    · rw [if_neg hfull]
      simp only [mapError_ok, Except.ok.injEq, Nat.not_lt.mp hfull, true_and]
      exact eq_comm

/-- The input's redeem script lies in the used part of the pool, if it is there. -/
def Placed (tx : Transaction) (input : TransactionInput) : Prop :=
  input.redeemInPool = true →
    input.redeemScriptOffset.toNat + input.redeemScriptLen ≤ tx.redeemPoolUsed

/-- Storing a script leaves what other inputs read as it was. -/
theorem checkedRedeem_placeRedeem {tx : Transaction} {input : TransactionInput} {redeem : Bytes}
    (index : Nat) (hfit : tx.redeemPoolUsed + poolNeed redeem ≤ REDEEM_POOL_SIZE)
    (hplaced : Placed tx input) :
    checkedRedeem (placeRedeem tx index redeem) input = checkedRedeem tx input := by
  unfold checkedRedeem
  simp only
  split
  · rfl
  split
  · rfl
  split
  · rename_i hin
    have hstop := hplaced hin
    unfold checkedPoolRedeemBytes
    have hcut : cut (placeRedeem tx index redeem).redeemPool.val input.redeemScriptOffset.toNat
        (input.redeemScriptOffset.toNat + input.redeemScriptLen) =
        cut tx.redeemPool.val input.redeemScriptOffset.toNat
          (input.redeemScriptOffset.toNat + input.redeemScriptLen) := by
      unfold placeRedeem poolWith
      simp only
      split
      · exact FixedBytes.cut_write_below _ _ _ _ _ hstop
      · rfl
    have h₁ : ¬ (REDEEM_POOL_SIZE < (placeRedeem tx index redeem).redeemPoolUsed ∨
        (placeRedeem tx index redeem).redeemPoolUsed <
          input.redeemScriptOffset.toNat + input.redeemScriptLen) := by
      unfold placeRedeem
      simp only
      omega
    have h₂ : ¬ (REDEEM_POOL_SIZE < tx.redeemPoolUsed ∨
        tx.redeemPoolUsed < input.redeemScriptOffset.toNat + input.redeemScriptLen) := by omega
    rw [hcut]
    simp only [rejectIf, h₁, h₂, if_false]
  · rfl

/-- A stored script is read back. -/
theorem checkedRedeem_withRedeem {tx : Transaction} {input : TransactionInput} {redeem : Bytes}
    (index : Nat) (hfit : tx.redeemPoolUsed + poolNeed redeem ≤ REDEEM_POOL_SIZE)
    (hlen : redeem.length ≤ MAX_REDEEM_SIZE) (hempty : input.redeemScriptLen = 0) :
    checkedRedeem (placeRedeem tx index redeem) (withRedeem tx.redeemPoolUsed redeem input) =
      .ok redeem := by
  have hmax : MAX_SCRIPT_SIZE = 512 := rfl
  have hpool : REDEEM_POOL_SIZE = 2048 := rfl
  unfold withRedeem
  by_cases hnil : redeem = []
  · simp [checkedRedeem, hnil, hempty]
  have hpos : redeem.length ≠ 0 := by simpa using hnil
  by_cases hshort : redeem.length ≤ MAX_SCRIPT_SIZE
  · have hread := FixedBytes.cut_write_self input.redeemScript 0 redeem (by omega)
    have hnot : ¬ MAX_SCRIPT_SIZE < redeem.length := by omega
    simp only [cut, Nat.zero_add, List.drop_zero] at hread
    simp only [checkedRedeem, checkedInlineRedeemBytes, hnil, hpos, hshort, hread, hnot, rejectIf,
      Nat.not_lt.mpr hlen, if_false, if_true]
    rfl
  · have hlong : MAX_SCRIPT_SIZE < redeem.length := by omega
    have hneed : poolNeed redeem = redeem.length := if_pos hlong
    rw [hneed] at hfit
    have hoff : (UInt16.ofNat tx.redeemPoolUsed).toNat = tx.redeemPoolUsed := by
      rw [UInt16.toNat_ofNat', Nat.mod_eq_of_lt (by omega)]
    have hread := FixedBytes.cut_write_self tx.redeemPool tx.redeemPoolUsed redeem hfit
    simp only [checkedRedeem, checkedPoolRedeemBytes, placeRedeem, poolWith, hneed, hnil, hpos, hshort, hlong,
      hoff, hread, rejectIf, Nat.not_lt.mpr hlen, Nat.not_lt.mpr hfit, Nat.lt_irrefl, or_self, if_false,
      if_true]
    rfl

/-- Wherever it is kept, the script reads back. -/
theorem placed_withRedeem {tx : Transaction} {input : TransactionInput} {redeem : Bytes} (index : Nat)
    (hfit : tx.redeemPoolUsed + poolNeed redeem ≤ REDEEM_POOL_SIZE) (hplaced : Placed tx input) :
    Placed (placeRedeem tx index redeem) (withRedeem tx.redeemPoolUsed redeem input) := by
  have hpool : REDEEM_POOL_SIZE = 2048 := rfl
  unfold withRedeem
  split
  · intro hin
    exact Nat.le_trans (hplaced hin) (Nat.le_add_right ..)
  split
  · exact nofun
  · rename_i hlong
    intro _
    have hneed : poolNeed redeem = redeem.length := if_pos (by omega)
    have hoff : (UInt16.ofNat tx.redeemPoolUsed).toNat = tx.redeemPoolUsed := by
      rw [UInt16.toNat_ofNat', Nat.mod_eq_of_lt (by omega)]
    simp only [placeRedeem, hneed, hoff]
    exact Nat.le_refl _

/-- A later script leaves the earlier ones readable: the pool only grows. -/
theorem Placed.placeRedeem {tx : Transaction} {input : TransactionInput} (h : Placed tx input)
    (index : Nat) (redeem : Bytes) : Placed (placeRedeem tx index redeem) input :=
  fun hin => Nat.le_trans (h hin) (Nat.le_add_right ..)

/-! ## Signature slots -/

/-- The slots with the records written from `slot` on. -/
def writeSlots : Nat → List Signature → SigSlots → SigSlots
  | _, [], slots => slots
  | slot, v :: vs, slots => writeSlots (slot + 1) vs (slots.modify slot (fillSlot v))

theorem modifyInput_modifyInput (tx : Transaction) (index : Nat)
    (f g : TransactionInput → TransactionInput) :
    (tx.modifyInput index f).modifyInput index g = tx.modifyInput index fun input => g (f input) := by
  simp only [Transaction.modifyInput, List.modify_modify_eq]
  rfl

/-- By induction on the signatures: each goes into the next slot. -/
theorem replaySignatures_eq_ok {tx tx' : Transaction} {index slot : Nat} {vs : List Signature} :
    replaySignatures transactionSink index slot vs tx = .ok tx' ↔
      (∀ v ∈ vs, v.sighash = SigHashType.all.toByte) ∧ tx' = tx.modifyInput index fun input =>
        { input with sigs := writeSlots slot vs input.sigs } := by
  induction vs generalizing tx slot with
  | nil =>
    have hid : (fun input : TransactionInput => { input with sigs := input.sigs }) = id := rfl
    simp only [replaySignatures, writeSlots, Except.ok.injEq, List.not_mem_nil, false_imp_iff, implies_true,
      true_and, hid, Transaction.modifyInput, List.modify_id]
    exact eq_comm
  | cons v vs ih =>
    have hstep : replaySignatures transactionSink index slot (v :: vs) tx =
        (sinkSignature index slot v tx >>= replaySignatures transactionSink index (slot + 1) vs) := rfl
    rw [hstep, bind_eq_ok, List.forall_mem_cons]
    simp only [sinkSignature, bind_eq_ok, rejectIf_eq_ok]
    constructor
    · intro h
      obtain ⟨tx₁, ⟨_, hv, htx₁⟩, h⟩ := h
      cases htx₁
      obtain ⟨hall, htx'⟩ := ih.mp h
      exact ⟨⟨Decidable.of_not_not hv, hall⟩, by rw [htx', modifyInput_modifyInput]; rfl⟩
    · intro h
      obtain ⟨⟨hv, hall⟩, htx'⟩ := h
      refine ⟨_, ⟨(), by simp [hv], rfl⟩, ih.mpr ⟨hall, ?_⟩⟩
      rw [htx', modifyInput_modifyInput]
      rfl

/-- Written from the first free slot on, the records fill that many slots. -/
theorem writeSlots_val (vs : List Signature) :
    ∀ (slot : Nat) (slots : SigSlots) (done : List InputSig) (free : Nat),
      slots.val = done ++ List.replicate free InputSig.empty → done.length = slot → vs.length ≤ free →
      (writeSlots slot vs slots).val =
        done ++ vs.map (fun v => fillSlot v .empty) ++
          List.replicate (free - vs.length) InputSig.empty := by
  induction vs with
  | nil =>
    intro slot slots done free hslots _ _
    simpa [writeSlots] using hslots
  | cons v vs ih =>
    intro slot slots done free hslots hdone hfree
    obtain ⟨free, rfl⟩ : ∃ k, free = k + 1 := ⟨free - 1, by simp at hfree; omega⟩
    have hmod : (slots.modify slot (fillSlot v)).val =
        (done ++ [fillSlot v .empty]) ++ List.replicate free InputSig.empty := by
      simp only [SigSlots.modify, hslots, List.replicate_succ]
      rw [List.modify_eq_take_drop, ← hdone, List.take_left, List.drop_left]
      simp
    have := ih (slot + 1) _ _ free hmod (by simp [hdone]) (by simpa using hfree)
    rw [writeSlots, this]
    simp

/-! ## Inputs -/

/-- An input with its values and signatures, before its redeem script. -/
def fillSigned (w : WireInput) (input : TransactionInput) : TransactionInput :=
  { fillInput w.value (UInt8.ofNat w.signatures.length) input with
    sigs := writeSlots 0 w.signatures input.sigs }

/-- The input a record is stored as. -/
def placeInput (tx : Transaction) (index : Nat) (w : WireInput) : Transaction :=
  placeRedeem (tx.modifyInput index (fillSigned w)) index w.redeem

/-- Portal signs and accepts SIGHASH_ALL only. -/
def SignsAll (w : WireInput) : Prop := ∀ v ∈ w.signatures, v.sighash = SigHashType.all.toByte

/-- A record is stored exactly when its redeem script still fits the pool. -/
theorem replayInput_eq_ok {tx tx' : Transaction} (hpool : tx.redeemPoolUsed ≤ REDEEM_POOL_SIZE)
    {index : Nat} {w : WireInput} (hlen : w.redeem.length ≤ MAX_REDEEM_SIZE) :
    replayInput transactionSink index w tx = .ok tx' ↔ SignsAll w ∧
      tx.redeemPoolUsed + poolNeed w.redeem ≤ REDEEM_POOL_SIZE ∧ tx' = placeInput tx index w := by
  have hpool' : (tx.modifyInput index (fillSigned w)).redeemPoolUsed ≤ REDEEM_POOL_SIZE := hpool
  have hrun : replayInput transactionSink index w tx =
      (replaySignatures transactionSink index 0 w.signatures
        (tx.modifyInput index (fillInput w.value (UInt8.ofNat w.signatures.length))) >>=
        sinkRedeem index w.redeem) := rfl
  rw [hrun, bind_eq_ok]
  constructor
  · intro ⟨tx₁, h₁, h₂⟩
    obtain ⟨hall, rfl⟩ := replaySignatures_eq_ok.mp h₁
    rw [modifyInput_modifyInput] at h₂
    obtain ⟨hfit, rfl⟩ := (sinkRedeem_eq_ok hpool' hlen).mp h₂
    exact ⟨hall, hfit, rfl⟩
  · intro ⟨hall, hfit, htx'⟩
    refine ⟨tx.modifyInput index (fillSigned w), replaySignatures_eq_ok.mpr ⟨hall, ?_⟩,
      (sinkRedeem_eq_ok hpool' hlen).mpr ⟨hfit, htx'⟩⟩
    rw [modifyInput_modifyInput]
    rfl

/-- The input has the values of `w`, in the form the sink leaves them. -/
structure Shows (tx : Transaction) (input : TransactionInput) (w : WireInput) : Prop where
  value : wireInputValue input = w.value
  count : input.sigCount.toNat = w.signatures.length
  sigs : input.sigs.val = w.signatures.map (fun v => fillSlot v .empty) ++
    List.replicate (MAX_SIGS_PER_INPUT - w.signatures.length) InputSig.empty
  sighash : input.sighashType = SigHashType.all.toByte
  redeem : checkedRedeem tx input = .ok w.redeem
  placed : Placed tx input

/-- No trailer has touched the input. -/
def BareInput (input : TransactionInput) : Prop :=
  input.hasDerivationHint = false ∧ input.ms45Hint = .none ∧ input.covenantExecutionPresent = false

/-- The inputs read so far are there, the others still empty. -/
structure Filled (tx : Transaction) (done : List WireInput) (total : Nat) : Prop where
  length : tx.inputs.length = total
  shown : ∀ (i : Nat) (w : WireInput), done[i]? = some w →
    ∃ input, tx.inputs[i]? = some input ∧ Shows tx input w ∧ BareInput input
  fresh : ∀ i : Nat, done.length ≤ i → i < total → tx.inputs[i]? = some .empty
  used : tx.redeemPoolUsed = (done.map fun w => poolNeed w.redeem).sum
  pool : tx.redeemPoolUsed ≤ REDEEM_POOL_SIZE

/-- An input that was stored shows its own record, and still does after later ones. -/
theorem Shows.placeInput {tx : Transaction} {input : TransactionInput} {w v : WireInput}
    (h : Shows tx input w) (index : Nat)
    (hfit : tx.redeemPoolUsed + poolNeed v.redeem ≤ REDEEM_POOL_SIZE) :
    Shows (placeInput tx index v) input w where
  value := h.value
  count := h.count
  sigs := h.sigs
  sighash := h.sighash
  redeem := by
    have hplaced : Placed (tx.modifyInput index (fillSigned v)) input := h.placed
    exact (checkedRedeem_placeRedeem index hfit hplaced).trans h.redeem
  placed := by
    have hplaced : Placed (tx.modifyInput index (fillSigned v)) input := h.placed
    exact hplaced.placeRedeem index v.redeem

/-- What `placeInput` makes of an empty input. -/
theorem shows_placeInput {tx : Transaction} {w : WireInput} (index : Nat) (hw : w.Valid)
    (hfit : tx.redeemPoolUsed + poolNeed w.redeem ≤ REDEEM_POOL_SIZE) :
    Shows (placeInput tx index w)
      (withRedeem tx.redeemPoolUsed w.redeem (fillSigned w .empty)) w ∧
      BareInput (withRedeem tx.redeemPoolUsed w.redeem (fillSigned w .empty)) := by
  have hmax : MAX_SIGNATURE_RECORDS = 5 := rfl
  have hsigs := hw.signatures
  have hkeep : ∀ input : TransactionInput,
      wireInputValue (withRedeem tx.redeemPoolUsed w.redeem input) = wireInputValue input ∧
      (withRedeem tx.redeemPoolUsed w.redeem input).sigCount = input.sigCount ∧
      (withRedeem tx.redeemPoolUsed w.redeem input).sigs = input.sigs ∧
      (withRedeem tx.redeemPoolUsed w.redeem input).sighashType = input.sighashType ∧
      (BareInput input → BareInput (withRedeem tx.redeemPoolUsed w.redeem input)) := by
    intro input
    unfold withRedeem
    split
    · exact ⟨rfl, rfl, rfl, rfl, id⟩
    · split <;> exact ⟨rfl, rfl, rfl, rfl, id⟩
  obtain ⟨hvalue, hcount, hslots, hsighash, hbare⟩ := hkeep (fillSigned w .empty)
  refine ⟨⟨hvalue, ?_, ?_, hsighash, ?_, ?_⟩, hbare ⟨rfl, rfl, rfl⟩⟩
  · rw [hcount]
    simp only [fillSigned, fillInput, UInt8.toNat_ofNat']
    exact Nat.mod_eq_of_lt (by omega)
  · rw [hslots]
    have hwrite := writeSlots_val w.signatures 0 SigSlots.empty [] MAX_SIGS_PER_INPUT rfl rfl hsigs
    rwa [List.nil_append] at hwrite
  · exact @checkedRedeem_withRedeem (tx.modifyInput index (fillSigned w)) _ _ index hfit hw.redeem rfl
  · exact @placed_withRedeem (tx.modifyInput index (fillSigned w)) _ _ index hfit nofun

theorem placeInput_inputs (tx : Transaction) (index : Nat) (w : WireInput) :
    (placeInput tx index w).inputs = tx.inputs.modify index fun input =>
      withRedeem tx.redeemPoolUsed w.redeem (fillSigned w input) := by
  simp only [placeInput, placeRedeem, Transaction.modifyInput, List.modify_modify_eq]
  rfl

/-- One more input. -/
theorem Filled.step {tx : Transaction} {done : List WireInput} {total : Nat}
    (h : Filled tx done total) (hroom : done.length < total) {w : WireInput} (hw : w.Valid)
    (hfit : tx.redeemPoolUsed + poolNeed w.redeem ≤ REDEEM_POOL_SIZE) :
    Filled (placeInput tx done.length w) (done ++ [w]) total := by
  have hget : ∀ i, (placeInput tx done.length w).inputs[i]? =
      if done.length = i then some (withRedeem tx.redeemPoolUsed w.redeem (fillSigned w .empty))
      else tx.inputs[i]? := by
    intro i
    rw [placeInput_inputs, List.getElem?_modify]
    by_cases hi : done.length = i
    · subst hi
      rw [h.fresh _ (Nat.le_refl _) hroom]
      simp
    · simp [hi]
  refine ⟨?_, ?_, ?_, ?_, hfit⟩
  · rw [placeInput_inputs, List.length_modify, h.length]
  · intro i v hv
    rw [hget]
    by_cases hi : done.length = i
    · subst hi
      rw [List.getElem?_concat_length] at hv
      cases hv
      rw [if_pos rfl]
      exact ⟨_, rfl, shows_placeInput _ hw hfit⟩
    · have hlt : i < done.length := by
        have := (List.getElem?_eq_some_iff.mp hv).1
        simp at this
        omega
      rw [List.getElem?_append_left hlt] at hv
      obtain ⟨input, hinput, hshows, hbare⟩ := h.shown i v hv
      rw [if_neg hi]
      exact ⟨input, hinput, hshows.placeInput _ hfit, hbare⟩
  · intro i hle hlt
    have hne : done.length ≠ i := by
      simp at hle
      omega
    rw [hget, if_neg hne]
    exact h.fresh i (by simp at hle; omega) hlt
  · rw [List.map_append, List.sum_append, ← h.used]
    simp [placeInput, placeRedeem, Transaction.modifyInput]

/-- Only the inputs and the pool change. -/
def InputsOnly (tx tx' : Transaction) : Prop :=
  tx' = { tx with
    inputs := tx'.inputs
    redeemPool := tx'.redeemPool
    redeemPoolUsed := tx'.redeemPoolUsed }

/-- By induction on the records: the inputs so far show the records so far. -/
theorem replayInputs_filled {tx tx' : Transaction} {done is : List WireInput} {total : Nat}
    (h : Filled tx done total) (hlen : done.length + is.length = total) (his : ∀ w ∈ is, w.Valid)
    (hreplay : replayInputs transactionSink done.length is tx = .ok tx') :
    Filled tx' (done ++ is) total ∧ InputsOnly tx tx' ∧ ∀ w ∈ is, SignsAll w := by
  induction is generalizing tx done with
  | nil =>
    cases hreplay
    exact ⟨by simpa using h, rfl, by simp⟩
  | cons w is ih =>
    obtain ⟨hw, his⟩ := List.forall_mem_cons.mp his
    obtain ⟨tx₁, h₁, h₂⟩ := bind_eq_ok.mp hreplay
    obtain ⟨hall, hfit, rfl⟩ := (replayInput_eq_ok h.pool hw.redeem).mp h₁
    have hstep := h.step (by simp at hlen; omega) hw hfit
    have hlen' : (done ++ [w]).length + is.length = total := by
      simp at hlen ⊢
      omega
    rw [show done.length + 1 = (done ++ [w]).length by simp] at h₂
    obtain ⟨hfilled, honly, hrest⟩ := ih hstep hlen' his h₂
    exact ⟨by simpa using hfilled, by rw [InputsOnly, honly]; rfl, List.forall_mem_cons.mpr ⟨hall, hrest⟩⟩

/-- The inputs are all taken when their signatures are SIGHASH_ALL and the pool
holds their redeem scripts. -/
theorem replayInputs_succeeds {tx : Transaction} {done is : List WireInput} {total : Nat}
    (h : Filled tx done total) (hlen : done.length + is.length = total) (his : ∀ w ∈ is, w.Valid)
    (hall : ∀ w ∈ is, SignsAll w)
    (hfit : tx.redeemPoolUsed + (is.map fun w => poolNeed w.redeem).sum ≤ REDEEM_POOL_SIZE) :
    ∃ tx', replayInputs transactionSink done.length is tx = .ok tx' := by
  induction is generalizing tx done with
  | nil => exact ⟨tx, rfl⟩
  | cons w is ih =>
    obtain ⟨hw, his⟩ := List.forall_mem_cons.mp his
    obtain ⟨hsigns, hall⟩ := List.forall_mem_cons.mp hall
    rw [List.map_cons, List.sum_cons] at hfit
    have hfit₁ : tx.redeemPoolUsed + poolNeed w.redeem ≤ REDEEM_POOL_SIZE := by omega
    have hstep := h.step (by simp at hlen; omega) hw hfit₁
    have hlen' : (done ++ [w]).length + is.length = total := by
      simp at hlen ⊢
      omega
    have hused : (placeInput tx done.length w).redeemPoolUsed =
        tx.redeemPoolUsed + poolNeed w.redeem := rfl
    obtain ⟨tx', htx'⟩ := ih hstep hlen' his hall (by omega)
    refine ⟨tx', bind_eq_ok.mpr ⟨placeInput tx done.length w,
      (replayInput_eq_ok h.pool hw.redeem).mpr ⟨hsigns, hfit₁, rfl⟩, ?_⟩⟩
    rwa [List.length_append] at htx'

/-! ## Global fields and outputs -/

/-- A transaction without inputs or outputs is refused, and one beyond the limits of the signer. -/
theorem sinkGlobal_eq_ok {limits : TransactionLimits} {g : Global} {tx : Transaction} :
    sinkGlobal g (.new limits) = .ok tx ↔ (g.inputCount ≠ 0 ∧ g.outputCount ≠ 0) ∧
      (g.inputCount.toNat ≤ limits.maxInputs ∧ g.payload.length ≤ limits.maxPayloadBytes) ∧
      tx = { Transaction.new limits with
        inputs := List.replicate g.inputCount.toNat .empty
        outputs := List.replicate g.outputCount.toNat .empty
        version := g.version
        locktime := g.locktime
        subnetworkId := g.subnetworkId
        gas := g.gas
        payload := g.payload } := by
  unfold sinkGlobal
  simp only [bind_eq_ok, rejectIf_eq_ok, mapError_eq_ok]
  unfold Transaction.declareInputs Transaction.setPayload
  constructor
  · intro h
    obtain ⟨_, hin, _, hout, tx₁, h₁, h₂⟩ := h
    split at h₁
    · cases h₁
    rename_i hmax
    cases h₁
    split at h₂
    · cases h₂
    rename_i hpay
    exact ⟨⟨hin, hout⟩, ⟨Nat.not_lt.mp hmax, Nat.not_lt.mp hpay⟩, (Except.ok.inj h₂).symm⟩
  · intro h
    obtain ⟨⟨hin, hout⟩, ⟨hmax, hpay⟩, htx⟩ := h
    refine ⟨(), hin, (), hout, _, if_neg (Nat.not_lt.mpr hmax), ?_⟩
    refine (if_neg (Nat.not_lt.mpr hpay)).trans ?_
    rw [htx]
    rfl

/-- The outputs are taken as they come. -/
theorem replayOutputs_eq (os : List Output) :
    ∀ (tx : Transaction) (done : List TransactionOutput),
      tx.outputs = done ++ List.replicate os.length TransactionOutput.empty →
      replayOutputs transactionSink done.length os tx =
        .ok { tx with outputs := done ++ os.map fun o => fillOutput o .empty } := by
  induction os with
  | nil =>
    intro tx done h
    simp only [replayOutputs, List.map_nil, List.append_nil, Except.ok.injEq]
    rw [show done = tx.outputs by simpa using h.symm]
  | cons o os ih =>
    intro tx done h
    have hmod : (tx.modifyOutput done.length (fillOutput o)).outputs =
        (done ++ [fillOutput o .empty]) ++ List.replicate os.length TransactionOutput.empty := by
      simp only [Transaction.modifyOutput, h, List.length_cons, List.replicate_succ]
      rw [List.modify_eq_take_drop, List.take_left, List.drop_left]
      simp
    have hrest := ih _ _ hmod
    rw [List.length_append] at hrest
    simp only [replayOutputs]
    refine hrest.trans ?_
    simp [Transaction.modifyOutput]

/-! ## Trailers that a source carries -/

/-- The hints of the source are those of the trailers, and no others. -/
structure CarriesExactly (source : EncodeSource) (ts : List Trailer) : Prop where
  indexed : ∀ kind i t, source.trailerAt kind i = some t ↔
    t ∈ ts ∧ t.kind = some kind ∧ t.position.toNat = i
  network : ∀ code, .network code ∈ ts → source.network = code
  stealth : ∀ tweak, source.stealth = some tweak ↔ .stealth tweak ∈ ts

/-- The source once a trailer has been taken: the hint it names is set, and no other changed. -/
structure Takes (source source' : EncodeSource) (t : Trailer) : Prop where
  indexed : ∀ kind i, source'.trailerAt kind i =
    if t.kind = some kind ∧ t.position.toNat = i then some t else source.trailerAt kind i
  network : source'.network = match t with
    | .network code => code
    | _ => source.network
  stealth : source'.stealth = match t with
    | .stealth tweak => some tweak
    | _ => source.stealth

/-- A hint is taken when it is read at its position, and the hints of other kinds and positions stay. -/
theorem Takes.of_trailerAt {source source' : EncodeSource} {t : Trailer} {kind : IndexedTrailer}
    (hkind : t.kind = some kind) (hset : source'.trailerAt kind t.position.toNat = some t)
    (hother : ∀ other, ¬other = kind →
      source'.trailerAt other t.position.toNat = source.trailerAt other t.position.toNat)
    (hframe : ∀ other i, ¬t.position.toNat = i → source'.trailerAt other i = source.trailerAt other i)
    (hnetwork : source'.network = source.network) (hstealth : source'.stealth = source.stealth) :
    Takes source source' t := by
  refine ⟨fun other i => ?_, ?_, ?_⟩
  · by_cases hi : t.position.toNat = i
    · subst hi
      by_cases ho : other = kind
      · rw [ho, if_pos ⟨hkind, rfl⟩, hset]
      · have hne : ¬t.kind = some other := fun h => ho (Option.some.inj (h.symm.trans hkind))
        rw [if_neg (fun h => hne h.1), hother other ho]
    · rw [if_neg (fun h => hi h.2), hframe other i hi]
  -- Only a hint has a kind: the network and the stealth trailer have none.
  · cases t <;> first | exact hnetwork | cases hkind
  · cases t <;> first | exact hstealth | cases hkind

/-- Trailers of one kind and position have one key. -/
theorem Trailer.key_eq {t u : Trailer} {kind : IndexedTrailer} (ht : t.kind = some kind)
    (hu : u.kind = some kind) (hpos : u.position.toNat = t.position.toNat) : u.key = t.key := by
  rw [Trailer.key, Trailer.key, (Trailer.rank_eq_iff ht).mpr hu, hpos]

/-- A trailer that comes after all before it is carried besides them. -/
theorem CarriesExactly.step {source source' : EncodeSource} {ts : List Trailer} {t : Trailer}
    (hc : CarriesExactly source ts) (ht : ∀ u ∈ ts, u.key < t.key) (htakes : Takes source source' t) :
    CarriesExactly source' (ts ++ [t]) := by
  refine ⟨fun kind i u => ?_, fun code hmem => ?_, fun tweak => ?_⟩
  · rw [htakes.indexed, List.mem_append, List.mem_singleton]
    by_cases hk : t.kind = some kind ∧ t.position.toNat = i
    · rw [if_pos hk, Option.some.injEq]
      constructor
      · intro he
        exact ⟨.inr he.symm, he ▸ hk⟩
      · intro h
        obtain ⟨hor, hukind, hupos⟩ := h
        obtain hmem | hu := hor
        · have := ht u hmem
          rw [Trailer.key_eq hk.1 hukind (hupos.trans hk.2.symm)] at this
          exact absurd this (Nat.lt_irrefl _)
        · exact hu.symm
    · rw [if_neg hk, hc.indexed]
      constructor
      · intro h
        obtain ⟨hmem, hrest⟩ := h
        exact ⟨.inl hmem, hrest⟩
      · intro h
        obtain ⟨hor, hrest⟩ := h
        obtain hmem | hu := hor
        · exact ⟨hmem, hrest⟩
        · exact absurd (hu ▸ hrest) hk
  · rw [htakes.network]
    obtain hold | hnew := List.mem_append.mp hmem
    · have hlt := ht _ hold
      cases t with
      | network c => simp [Trailer.key, Trailer.rank, Trailer.position] at hlt
      | _ => exact hc.network code hold
    · obtain rfl := List.mem_singleton.mp hnew
      rfl
  · rw [htakes.stealth, List.mem_append, List.mem_singleton, ← hc.stealth]
    cases t with
    | stealth new =>
      have hnone : source.stealth ≠ some tweak := by
        intro hs
        have hlt := ht _ ((hc.stealth tweak).mp hs)
        simp [Trailer.key, Trailer.rank, Trailer.position] at hlt
      constructor
      · intro hs
        exact .inr (by rw [← Option.some.inj hs])
      · intro hor
        exact congrArg some (Trailer.stealth.inj (hor.resolve_left hnone)).symm
    | _ => exact ⟨.inl, fun hor => hor.resolve_right fun he => by cases he⟩

theorem replayTrailers_append {σ ε : Type} (sink : DecodeSink σ ε) (ts us : List Trailer) (s : σ) :
    replayTrailers sink (ts ++ us) s = (replayTrailers sink ts s >>= replayTrailers sink us) := by
  induction ts generalizing s with
  | nil => rfl
  | cons t ts ih =>
    simp only [List.cons_append, replayTrailers, ih, bind_assoc]

/-- A sink that takes every trailer that fits carries exactly the trailers it was told, in order. -/
theorem CarriesExactly.run {σ ε : Type} {sink : DecodeSink σ ε} {source : σ → EncodeSource}
    {Fits : σ → Trailer → Prop}
    (hstep : ∀ {s s' t}, Fits s t → t.hand sink s = .ok s' →
      Takes (source s) (source s') t ∧ ∀ u, Fits s u → Fits s' u)
    {ts : List Trailer} (hts : ts.Pairwise (·.key < ·.key)) {s s' : σ}
    (hbare : CarriesExactly (source s) []) (hfits : ∀ t ∈ ts, Fits s t)
    (h : replayTrailers sink ts s = .ok s') :
    CarriesExactly (source s') ts ∧ ∀ u, Fits s u → Fits s' u := by
  induction ts using List.reverseRecOn generalizing s' with
  | nil =>
    cases h
    exact ⟨hbare, fun _ hu => hu⟩
  | append_singleton ts t ih =>
    rw [replayTrailers_append] at h
    obtain ⟨s₁, h₁, h₂⟩ := bind_eq_ok.mp h
    obtain ⟨s₂, h₂, h₃⟩ := bind_eq_ok.mp h₂
    cases h₃
    obtain ⟨hts, _, hlt⟩ := List.pairwise_append.mp hts
    obtain ⟨hcarries, hkeeps⟩ := ih hts (fun u hu => hfits u (by simp [hu])) h₁
    obtain ⟨htakes, hkeep⟩ := hstep (hkeeps t (hfits t (by simp))) h₂
    exact ⟨hcarries.step (fun u hu => hlt u hu t (by simp)) htakes, fun u hu => hkeep u (hkeeps u hu)⟩

/-- A canonical row is known from its members. -/
theorem Canonical.eq_of_mem_iff {ts us : List Trailer} (hts : Canonical ts) (hus : Canonical us)
    (h : ∀ t, t ∈ ts ↔ t ∈ us) : ts = us := by
  have : Std.Antisymm fun t u : Trailer => t.key < u.key :=
    ⟨fun _ _ hlt hgt => absurd hgt (Nat.lt_asymm hlt)⟩
  have : Std.Irrefl fun t u : Trailer => t.key < u.key := ⟨fun _ => Nat.lt_irrefl _⟩
  exact List.Pairwise.eq_of_mem_iff hts.1 hus.1 h

theorem Trailer.rank_zero {t : Trailer} (h : t.rank = 0) : ∃ code, t = .network code := by
  cases t with
  | network code => exact ⟨code, rfl⟩
  | _ => simp [Trailer.rank] at h

/-- The network trailer stands first and is the only one. -/
theorem Canonical.network {ts : List Trailer} (h : Canonical ts) (hne : ts ≠ []) :
    ∃ code, ∀ t, (t ∈ ts ∧ t.rank = 0 ↔ t = .network code) := by
  cases ts with
  | nil => exact absurd rfl hne
  | cons t ts =>
    obtain ⟨code, rfl⟩ := Trailer.rank_zero (h.2 t rfl)
    refine ⟨code, fun u => ⟨fun ⟨hmem, hrank⟩ => ?_, fun hu => by rw [hu]; exact ⟨by simp, rfl⟩⟩⟩
    obtain hu | hu := List.mem_cons.mp hmem
    · exact hu
    · have hlt := (List.pairwise_cons.mp h.1).1 u hu
      obtain ⟨c, rfl⟩ := Trailer.rank_zero hrank
      simp [Trailer.key, Trailer.rank, Trailer.position] at hlt

/-- What is carried is written, in the canonical order, as the row it was read from. -/
theorem CarriesExactly.writable {source : EncodeSource} {ts : List Trailer}
    (hc : CarriesExactly source ts) (hcan : Canonical ts) (hne : ts ≠ []) {inputs outputs : Nat}
    (hv : ∀ t ∈ ts, t.Valid inputs outputs) : WritableTrailers source := by
  have hfits : ∀ {α : Type} (kind : IndexedTrailer) (value : Nat → Option α)
      (make : UInt8 → α → Trailer) (valid : α → Prop) (count : Nat),
      (∀ i, source.trailerAt kind i =
        (value i).map (make (UInt8.ofNat i))) → (∀ p v, (make p v).position = p) →
      (∀ p v, (make p v).Valid inputs outputs → valid v) → EachFits count value valid := by
    intro α kind value make valid count hat hpos hvalid i _ v hvi
    have hmem := (hc.indexed kind i (make (UInt8.ofNat i) v)).mp (by rw [hat, hvi]; rfl)
    refine ⟨hvalid _ _ (hv _ hmem.1), ?_⟩
    have hlt := (UInt8.ofNat i).toNat_lt
    have hi := hmem.2.2
    rw [hpos] at hi
    omega
  refine ⟨?_, ?_, ?_, ?_, ?_, ?_, ?_⟩
  · cases ts with
    | nil => exact absurd rfl hne
    | cons t ts =>
      have hrank := hcan.2 t rfl
      cases t with
      | network code =>
        have hcode := hc.network code (by simp)
        have hvalid := hv (.network code) (by simp)
        rw [hcode]
        exact hvalid
      | _ => simp [Trailer.rank] at hrank
  · exact hfits .inputMs45 _ .inputMs45 _ _ (fun _ => rfl) (fun _ _ => rfl) fun _ _ h => h.2
  · exact hfits .outputMs45 _ .outputMs45 _ _ (fun _ => rfl) (fun _ _ => rfl) fun _ _ h => h.2
  · exact hfits .covenant _ .covenant _ _ (fun _ => rfl) (fun _ _ => rfl) fun _ _ _ => trivial
  · exact hfits .covenantExecution _ .covenantExecution _ _ (fun _ => rfl) (fun _ _ => rfl)
      fun _ _ h => h.2
  · exact hfits .inputDerivation _ .inputDerivation _ _ (fun _ => rfl) (fun _ _ => rfl)
      fun _ _ h => h.2
  · exact hfits .outputDerivation _ .outputDerivation _ _ (fun _ => rfl) (fun _ _ => rfl)
      fun _ _ h => h.2

/-- A source writes exactly the trailers it carries, when no hint stands beyond its counts. -/
theorem CarriesExactly.trailers_eq {source : EncodeSource} {ts : List Trailer}
    (hc : CarriesExactly source ts) (hcan : Canonical ts) (hne : ts ≠ []) {inputs outputs : Nat}
    (hv : ∀ t ∈ ts, t.Valid inputs outputs)
    (hlt : ∀ kind i t, source.trailerAt kind i = some t → i < source.countOf kind) :
    source.trailers = ts := by
  have hwritable := hc.writable hcan hne hv
  obtain ⟨code, hcode⟩ := hcan.network hne
  have hnet : source.network = code := hc.network code ((hcode (.network code)).mpr rfl).1
  refine hwritable.canonical.eq_of_mem_iff hcan fun t => ?_
  rw [EncodeSource.mem_trailers, hnet]
  constructor
  · intro h
    obtain h | h | ⟨kind, i, _, h⟩ := h
    · exact ((hcode t).mpr h).1
    · obtain ⟨tweak, htweak, rfl⟩ := Option.map_eq_some_iff.mp h
      exact (hc.stealth tweak).mp htweak
    · exact ((hc.indexed kind i t).mp h).1
  · intro hmem
    cases hk : t.kind with
    | some kind =>
      have hat := (hc.indexed kind t.position.toNat t).mpr ⟨hmem, hk, rfl⟩
      exact .inr (.inr ⟨kind, _, hlt _ _ _ hat, hat⟩)
    | none =>
      cases t with
      | network c => exact .inl ((hcode _).mp ⟨hmem, rfl⟩)
      | stealth tweak =>
        have hst := (hc.stealth tweak).mpr hmem
        exact .inr (.inl (by rw [hst]; rfl))
      | _ => cases hk

/-! ## Trailers -/

/-- An input without what a trailer can set. -/
def stripInput (input : TransactionInput) : TransactionInput :=
  { input with
    hasDerivationHint := false
    derivationBranch := 0
    derivationIndex := 0
    ms45Hint := .none
    covenantExecutionPresent := false
    covenantExecutionMask := 0
    covenantExecutionTrueMask := 0 }

def stripOutput (output : TransactionOutput) : TransactionOutput :=
  { output with
    hasCovenant := false
    covenantAuthInput := 0
    covenantId := zeros 32
    derivationBranch := 0
    derivationIndex := 0
    hasDerivationHint := false
    ms45Hint := .none }

/-- A transaction without what a trailer can set. -/
def strip (tx : Transaction) : Transaction :=
  { tx with
    inputs := tx.inputs.map stripInput
    outputs := tx.outputs.map stripOutput
    network := .unknown
    stealthTweak := zeros 32
    hasStealthTweak := false }

/-- A change that `g` does not see. -/
theorem map_modify {α β : Type} (l : List α) (index : Nat) {f : α → α} {g : α → β}
    (hf : ∀ a, g (f a) = g a) : (l.modify index f).map g = l.map g := by
  apply List.ext_getElem?
  intro i
  rw [List.getElem?_map, List.getElem?_modify, List.getElem?_map]
  cases l[i]? with
  | none => simp
  | some a => by_cases hi : index = i <;> simp [hi, hf]

/-- A change of hints does not show once they are removed. -/
theorem strip_modifyInput (tx : Transaction) (index : Nat) {f : TransactionInput → TransactionInput}
    (hf : ∀ input, stripInput (f input) = stripInput input) :
    strip (tx.modifyInput index f) = strip tx := by
  simp only [strip, Transaction.modifyInput, map_modify _ _ hf]

theorem strip_modifyOutput (tx : Transaction) (index : Nat)
    {f : TransactionOutput → TransactionOutput}
    (hf : ∀ output, stripOutput (f output) = stripOutput output) :
    strip (tx.modifyOutput index f) = strip tx := by
  simp only [strip, Transaction.modifyOutput, map_modify _ _ hf]

/-- No trailer changes anything but hints. -/
theorem hand_strip {t : Trailer} {tx tx' : Transaction} (h : t.hand transactionSink tx = .ok tx') :
    strip tx' = strip tx := by
  cases t with
  | network code =>
    obtain ⟨network, _, h⟩ := bind_eq_ok.mp h
    cases h
    rfl
  | stealth tweak =>
    cases h
    rfl
  | inputMs45 | covenantExecution | inputDerivation =>
    cases h
    exact strip_modifyInput _ _ fun _ => rfl
  | outputMs45 | covenant | outputDerivation =>
    cases h
    exact strip_modifyOutput _ _ fun _ => rfl

/-- An entry after one was changed, where a missing one reads as `blank`. -/
theorem getD_modify {α : Type} {l : List α} {index : Nat} (hlt : index < l.length) (f : α → α) (i : Nat)
    (blank : α) :
    (l.modify index f)[i]?.getD blank = if index = i then f (l[i]?.getD blank) else l[i]?.getD blank := by
  rw [List.getElem?_modify]
  by_cases hi : index = i
  · subst hi
    rw [List.getElem?_eq_getElem hlt]
    simp
  · simp [hi]

/-- The inputs are read one by one, so that a change shows at its position alone. -/
theorem inputAt_modifyInput {tx : Transaction} {index : Nat} (hlt : index < tx.inputs.length)
    (f : TransactionInput → TransactionInput) (i : Nat) :
    inputAt (tx.modifyInput index f) i = if index = i then f (inputAt tx i) else inputAt tx i :=
  getD_modify hlt f i .empty

theorem outputAt_modifyOutput {tx : Transaction} {index : Nat} (hlt : index < tx.outputs.length)
    (f : TransactionOutput → TransactionOutput) (i : Nat) :
    outputAt (tx.modifyOutput index f) i = if index = i then f (outputAt tx i) else outputAt tx i :=
  getD_modify hlt f i .empty

@[simp] theorem outputAt_modifyInput (tx : Transaction) (index : Nat)
    (f : TransactionInput → TransactionInput) (i : Nat) :
    outputAt (tx.modifyInput index f) i = outputAt tx i := rfl

@[simp] theorem inputAt_modifyOutput (tx : Transaction) (index : Nat)
    (f : TransactionOutput → TransactionOutput) (i : Nat) :
    inputAt (tx.modifyOutput index f) i = inputAt tx i := rfl

/-- A changed input leaves the hints at every other position. -/
theorem trailerAt_modifyInput (crypto : SignatureCrypto) {tx : Transaction} {index i : Nat}
    (hlt : index < tx.inputs.length) (f : TransactionInput → TransactionInput) (hi : ¬index = i)
    (kind : IndexedTrailer) :
    (transactionSource crypto (tx.modifyInput index f)).trailerAt kind i =
      (transactionSource crypto tx).trailerAt kind i := by
  cases kind <;>
    simp only [EncodeSource.trailerAt, transactionSource, inputAt_modifyInput hlt, outputAt_modifyInput,
      if_neg hi]

theorem trailerAt_modifyOutput (crypto : SignatureCrypto) {tx : Transaction} {index i : Nat}
    (hlt : index < tx.outputs.length) (f : TransactionOutput → TransactionOutput) (hi : ¬index = i)
    (kind : IndexedTrailer) :
    (transactionSource crypto (tx.modifyOutput index f)).trailerAt kind i =
      (transactionSource crypto tx).trailerAt kind i := by
  cases kind <;>
    simp only [EncodeSource.trailerAt, transactionSource, outputAt_modifyOutput hlt, inputAt_modifyOutput,
      if_neg hi]

/-- A network has one code. -/
theorem fromWire_eq_some {code : UInt8} {network : KaspaNetwork}
    (h : KaspaNetwork.fromWire code = some network) : network.toByte = code := by
  unfold KaspaNetwork.fromWire at h
  split at h
  · cases h; simp_all [KaspaNetwork.toByte]
  split at h
  · cases h; simp_all [KaspaNetwork.toByte]
  split at h
  · cases h; simp_all [KaspaNetwork.toByte]
  split at h
  · cases h; simp_all [KaspaNetwork.toByte]
  · cases h

theorem strip_lengths {tx tx' : Transaction} (h : strip tx' = strip tx) :
    tx'.inputs.length = tx.inputs.length ∧ tx'.outputs.length = tx.outputs.length := by
  have hin := congrArg (fun tx => tx.inputs.length) h
  have hout := congrArg (fun tx => tx.outputs.length) h
  simp only [strip, List.length_map] at hin hout
  exact ⟨hin, hout⟩

/-- A trailer sets the hint it names, and no other. -/
theorem hand_takes (crypto : SignatureCrypto) {t : Trailer} {tx tx' : Transaction}
    (h : t.hand transactionSink tx = .ok tx') (hv : t.Valid tx.inputs.length tx.outputs.length) :
    Takes (transactionSource crypto tx) (transactionSource crypto tx') t := by
  cases t with
  | network code =>
    obtain ⟨network, hnet, h⟩ := bind_eq_ok.mp h
    cases h
    exact ⟨fun kind i => by cases kind <;> rfl, fromWire_eq_some (okOr_eq_ok.mp hnet), rfl⟩
  | stealth tweak =>
    cases h
    exact ⟨fun kind i => by cases kind <;> rfl, rfl, rfl⟩
  | inputMs45 position value | covenantExecution position value | inputDerivation position value =>
    cases h
    have hat := inputAt_modifyInput hv.1
    refine Takes.of_trailerAt rfl ?_ (fun other ho => ?_)
      (fun other i hi => trailerAt_modifyInput crypto hv.1 _ hi other) rfl rfl
    · simp [EncodeSource.trailerAt, transactionSource, transactionSink, Trailer.position, hat] <;> rfl
    · cases other <;> first
        | exact absurd rfl ho
        | simp only [EncodeSource.trailerAt, transactionSource, transactionSink, Trailer.position, hat,
            outputAt_modifyInput, wireExecution, if_true]
  | outputMs45 position value | covenant position value | outputDerivation position value =>
    cases h
    have hat := outputAt_modifyOutput hv.1
    refine Takes.of_trailerAt rfl ?_ (fun other ho => ?_)
      (fun other i hi => trailerAt_modifyOutput crypto hv.1 _ hi other) rfl rfl
    · simp [EncodeSource.trailerAt, transactionSource, transactionSink, Trailer.position, hat] <;> rfl
    · cases other <;> first
        | exact absurd rfl ho
        | simp only [EncodeSource.trailerAt, transactionSource, transactionSink, Trailer.position, hat,
            inputAt_modifyOutput, wireCovenant, if_true]

theorem replayTrailers_strip {tx tx' : Transaction} {ts : List Trailer}
    (h : replayTrailers transactionSink ts tx = .ok tx') : strip tx' = strip tx := by
  induction ts generalizing tx with
  | nil => cases h; rfl
  | cons t ts ih =>
    obtain ⟨tx₁, h₁, h₂⟩ := bind_eq_ok.mp h
    exact (ih h₂).trans (hand_strip h₁)

/-- From a transaction without hints, exactly the trailers read are carried. -/
theorem replayTrailers_carries {crypto : SignatureCrypto} {tx tx' : Transaction} {ts : List Trailer}
    (hbare : CarriesExactly (transactionSource crypto tx) []) (hts : ts.Pairwise (·.key < ·.key))
    (hv : ∀ t ∈ ts, t.Valid tx.inputs.length tx.outputs.length)
    (h : replayTrailers transactionSink ts tx = .ok tx') :
    CarriesExactly (transactionSource crypto tx') ts ∧ strip tx' = strip tx := by
  have hstep : ∀ {tx tx' : Transaction} {t : Trailer}, t.Valid tx.inputs.length tx.outputs.length →
      t.hand transactionSink tx = .ok tx' →
      Takes (transactionSource crypto tx) (transactionSource crypto tx') t ∧
        ∀ u : Trailer, u.Valid tx.inputs.length tx.outputs.length →
          u.Valid tx'.inputs.length tx'.outputs.length := by
    intro tx tx' t hvalid hhand
    obtain ⟨hin, hout⟩ := strip_lengths (hand_strip hhand)
    exact ⟨hand_takes crypto hhand hvalid, fun u hu => by rwa [hin, hout]⟩
  exact ⟨(CarriesExactly.run hstep hts hbare hv h).1, replayTrailers_strip h⟩

/-- A valid trailer is always taken. -/
theorem hand_succeeds {t : Trailer} {inputs outputs : Nat} (hv : t.Valid inputs outputs)
    (tx : Transaction) : ∃ tx', t.hand transactionSink tx = .ok tx' := by
  cases t with
  | network code =>
    have hcode : code = 1 ∨ code = 2 ∨ code = 3 ∨ code = 4 := by
      have h := hv
      simp only [Trailer.Valid, validNetwork, decide_eq_true_eq, UInt8.le_iff_toNat_le,
        UInt8.reduceToNat] at h
      simp only [← UInt8.toNat_inj, UInt8.reduceToNat]
      omega
    obtain rfl | rfl | rfl | rfl := hcode <;> exact ⟨_, rfl⟩
  | _ => exact ⟨_, rfl⟩

/-- Trailers in range are all stored. -/
theorem replayTrailers_succeeds {inputs outputs : Nat} {ts : List Trailer}
    (hv : ∀ t ∈ ts, t.Valid inputs outputs) (tx : Transaction) :
    ∃ tx', replayTrailers transactionSink ts tx = .ok tx' := by
  induction ts generalizing tx with
  | nil => exact ⟨tx, rfl⟩
  | cons t ts ih =>
    obtain ⟨ht, hts⟩ := List.forall_mem_cons.mp hv
    obtain ⟨tx₁, h₁⟩ := hand_succeeds ht tx
    obtain ⟨tx', h₂⟩ := ih hts tx₁
    exact ⟨tx', bind_eq_ok.mpr ⟨tx₁, h₁, h₂⟩⟩

/-! ## The whole envelope -/

/-- An output without hints. -/
def BareOutput (output : TransactionOutput) : Prop :=
  output.hasDerivationHint = false ∧ output.ms45Hint = .none ∧ output.hasCovenant = false

/-- A transaction without hints carries none. -/
theorem bare_carries {crypto : SignatureCrypto} {tx : Transaction}
    (hin : ∀ i, BareInput (inputAt tx i)) (hout : ∀ i, BareOutput (outputAt tx i))
    (hstealth : tx.hasStealthTweak = false) : CarriesExactly (transactionSource crypto tx) [] := by
  refine ⟨fun kind i t => ?_, by simp, by simp [transactionSource, hstealth]⟩
  obtain ⟨hid, him, hie⟩ := hin i
  obtain ⟨hod, hom, hoc⟩ := hout i
  cases kind <;> simp [EncodeSource.trailerAt, transactionSource, hid, him, hie, hod, hom, hoc, derivation,
    ms45, Ms45Hint.none, wireExecution, wireCovenant]

/-- The transaction holds what the envelope says. -/
structure Reproduces (crypto : SignatureCrypto) (tx : Transaction) (e : Envelope) : Prop where
  global : tx.version = e.global.version ∧ tx.locktime = e.global.locktime ∧
    tx.subnetworkId = e.global.subnetworkId ∧ tx.gas = e.global.gas ∧ tx.payload = e.global.payload
  inputCount : tx.inputs.length = e.inputs.length
  outputCount : tx.outputs.length = e.outputs.length
  nonempty : e.inputs.length ≠ 0 ∧ e.outputs.length ≠ 0
  inputs : ∀ (i : Nat) (w : WireInput), e.inputs[i]? = some w →
    ∃ input, tx.inputs[i]? = some input ∧ Shows tx input w
  outputs : tx.outputs.map wireOutput = e.outputs
  trailers : CarriesExactly (transactionSource crypto tx) e.trailers
  signsAll : ∀ w ∈ e.inputs, SignsAll w
  pool : tx.redeemPoolUsed ≤ REDEEM_POOL_SIZE

/-- What a record shows does not depend on hints. -/
theorem Shows.of_strip {tx tx' : Transaction} {input input' : TransactionInput} {w : WireInput}
    (h : Shows tx input w) (htx : strip tx' = strip tx) (hinput : stripInput input' = stripInput input) :
    Shows tx' input' w := by
  have hfield : ∀ {α : Type} (f : TransactionInput → α), (∀ i, f (stripInput i) = f i) →
      f input' = f input := by
    intro α f hf
    rw [← hf input', hinput, hf]
  have hpool : tx'.redeemPool = tx.redeemPool ∧ tx'.redeemPoolUsed = tx.redeemPoolUsed :=
    ⟨congrArg (·.redeemPool) htx, congrArg (·.redeemPoolUsed) htx⟩
  have hredeem : ∀ i, checkedRedeem tx' i = checkedRedeem tx i := by
    intro i
    simp only [checkedRedeem, checkedPoolRedeemBytes, hpool.1, hpool.2]
  refine ⟨?_, ?_, ?_, ?_, ?_, ?_⟩
  · exact (hfield wireInputValue fun _ => rfl).trans h.value
  · rw [hfield (·.sigCount) fun _ => rfl, h.count]
  · rw [hfield (·.sigs) fun _ => rfl, h.sigs]
  · exact (hfield (·.sighashType) fun _ => rfl).trans h.sighash
  · rw [hredeem]
    exact (hfield (checkedRedeem tx) fun _ => rfl).trans h.redeem
  · have := hfield (Placed tx) fun _ => rfl
    unfold Placed at this ⊢
    rw [hpool.2, this]
    exact h.placed

theorem strip_getElem {tx tx' : Transaction} (h : strip tx' = strip tx) {i : Nat}
    {input : TransactionInput} (hi : tx.inputs[i]? = some input) :
    ∃ input', tx'.inputs[i]? = some input' ∧ stripInput input' = stripInput input := by
  have hmap := congrArg (fun tx => tx.inputs[i]?) h
  simp only [strip, List.getElem?_map, hi, Option.map_some] at hmap
  obtain ⟨input', hi', heq⟩ := Option.map_eq_some_iff.mp hmap
  exact ⟨input', hi', heq⟩

/-- Before the first record nothing has been stored. -/
theorem filled_new (tx : Transaction) (n : Nat) (hin : tx.inputs = List.replicate n .empty)
    (hused : tx.redeemPoolUsed = 0) : Filled tx [] n where
  length := by rw [hin, List.length_replicate]
  shown := by simp
  fresh := fun i _ hi => by rw [hin, List.getElem?_replicate, if_pos hi]
  used := by simp [hused]
  pool := by simp [hused]

/-- The three phases after the global fields, taken together. -/
theorem Envelope.replay_reproduces (crypto : SignatureCrypto) {limits : TransactionLimits} {l : Limits}
    {e : Envelope} {tx : Transaction} (hv : e.Valid l)
    (h : e.replay transactionSink (.new limits) = .ok tx) :
    Reproduces crypto tx e ∧ tx.limits = limits := by
  obtain ⟨tx₁, h₁, h⟩ := bind_eq_ok.mp h
  obtain ⟨tx₂, h₂, h⟩ := bind_eq_ok.mp h
  obtain ⟨tx₃, h₃, h₄⟩ := bind_eq_ok.mp h
  obtain ⟨⟨hin, hout⟩, ⟨hmax, hpay⟩, htx₁⟩ := sinkGlobal_eq_ok.mp h₁
  have hnew : Filled tx₁ [] e.inputs.length := by
    apply filled_new
    · rw [htx₁, hv.inputCount]
    · rw [htx₁]
      rfl
  obtain ⟨hfilled, honly, hsigns⟩ := replayInputs_filled hnew (by simp) hv.inputs h₂
  rw [List.nil_append] at hfilled
  have houtputs : tx₂.outputs = [] ++ List.replicate e.outputs.length TransactionOutput.empty := by
    rw [honly, htx₁, hv.outputCount]
    rfl
  rw [show replayOutputs transactionSink 0 e.outputs tx₂ = _ from
    replayOutputs_eq e.outputs tx₂ [] houtputs] at h₃
  have htx₃ : tx₃ = { tx₂ with outputs := e.outputs.map fun o => fillOutput o .empty } :=
    (Except.ok.inj h₃).symm
  have hlen : tx₃.inputs.length = e.inputs.length ∧ tx₃.outputs.length = e.outputs.length := by
    rw [htx₃]
    exact ⟨hfilled.length, List.length_map _⟩
  -- before the first trailer no input and no output holds what a trailer carries
  have hbare : CarriesExactly (transactionSource crypto tx₃) [] := by
    apply bare_carries
    · intro i
      unfold inputAt
      rw [htx₃]
      simp only
      cases hi : e.inputs[i]? with
      | none =>
        have hge : tx₂.inputs.length ≤ i := by
          rw [hfilled.length]
          exact List.getElem?_eq_none_iff.mp hi
        rw [List.getElem?_eq_none_iff.mpr hge]
        exact ⟨rfl, rfl, rfl⟩
      | some w =>
        obtain ⟨input, hinput, _, hb⟩ := hfilled.shown i w hi
        rw [hinput]
        exact hb
    · intro i
      unfold outputAt
      rw [htx₃]
      simp only [List.getElem?_map]
      cases e.outputs[i]? <;> exact ⟨rfl, rfl, rfl⟩
    · rw [htx₃, honly, htx₁]
      rfl
  have htrailers : ∀ t ∈ e.trailers, t.Valid tx₃.inputs.length tx₃.outputs.length := by
    rw [hlen.1, hlen.2]
    exact hv.trailers
  obtain ⟨hcarries, hstrip⟩ := replayTrailers_carries hbare hv.canonical.1 htrailers h₄
  obtain ⟨hinlen, houtlen⟩ := strip_lengths hstrip
  -- the trailers only write what `strip` forgets, so every other field is that of `tx₃`
  have hkeep : ∀ {α : Type} (f : Transaction → α), (∀ t, f (strip t) = f t) → f tx = f tx₃ := by
    intro α f hf
    rw [← hf tx, hstrip, hf]
  refine ⟨⟨⟨?_, ?_, ?_, ?_, ?_⟩, hinlen.trans hlen.1, houtlen.trans hlen.2, ⟨?_, ?_⟩, ?_, ?_, hcarries,
    hsigns, ?_⟩, ?_⟩
  · rw [hkeep (·.version) fun _ => rfl, htx₃, honly, htx₁]
  · rw [hkeep (·.locktime) fun _ => rfl, htx₃, honly, htx₁]
  · rw [hkeep (·.subnetworkId) fun _ => rfl, htx₃, honly, htx₁]
  · rw [hkeep (·.gas) fun _ => rfl, htx₃, honly, htx₁]
  · rw [hkeep (·.payload) fun _ => rfl, htx₃, honly, htx₁]
  · rw [hv.inputCount]
    exact fun h0 => hin (UInt32.toNat.inj h0)
  · rw [hv.outputCount]
    exact fun h0 => hout (UInt8.toNat.inj h0)
  · intro i w hw
    obtain ⟨input, hinput, hshows, _⟩ := hfilled.shown i w hw
    have hinput₃ : tx₃.inputs[i]? = some input := by rw [htx₃]; exact hinput
    obtain ⟨input', hinput', heq⟩ := strip_getElem hstrip hinput₃
    have hshows₃ : Shows tx₃ input w := by
      rw [htx₃]
      exact ⟨hshows.value, hshows.count, hshows.sigs, hshows.sighash, hshows.redeem, hshows.placed⟩
    exact ⟨input', hinput', hshows₃.of_strip hstrip heq⟩
  · have hmap : tx.outputs.map wireOutput = tx₃.outputs.map wireOutput :=
      hkeep (fun t => t.outputs.map wireOutput) fun t => by
        simp only [strip, List.map_map]
        rfl
    rw [hmap, htx₃]
    simp only [List.map_map]
    exact List.map_id'' (fun o => rfl) _
  · rw [hkeep (·.redeemPoolUsed) fun _ => rfl, htx₃]
    exact hfilled.pool
  · rw [hkeep (·.limits) fun _ => rfl, htx₃, honly, htx₁]
    rfl

/-- A valid envelope is taken when the transaction has room for it. -/
theorem Envelope.replay_succeeds {limits : TransactionLimits} {l : Limits} {e : Envelope}
    (hv : e.Valid l) (hne : e.inputs.length ≠ 0 ∧ e.outputs.length ≠ 0)
    (hin : e.inputs.length ≤ limits.maxInputs)
    (hpay : e.global.payload.length ≤ limits.maxPayloadBytes) (hsigns : ∀ w ∈ e.inputs, SignsAll w)
    (hpool : (e.inputs.map fun w => poolNeed w.redeem).sum ≤ REDEEM_POOL_SIZE) :
    ∃ tx, e.replay transactionSink (.new limits) = .ok tx := by
  have hnonzero : e.global.inputCount ≠ 0 ∧ e.global.outputCount ≠ 0 := by
    rw [hv.inputCount, hv.outputCount] at hne
    exact ⟨fun h0 => hne.1 (by rw [h0]; rfl), fun h0 => hne.2 (by rw [h0]; rfl)⟩
  obtain ⟨tx₁, htx₁⟩ : ∃ tx₁, sinkGlobal e.global (.new limits) = .ok tx₁ :=
    ⟨_, sinkGlobal_eq_ok.mpr ⟨hnonzero, ⟨hv.inputCount ▸ hin, hpay⟩, rfl⟩⟩
  have heq := (sinkGlobal_eq_ok.mp htx₁).2.2
  have hnew : Filled tx₁ [] e.inputs.length := by
    apply filled_new
    · rw [heq, hv.inputCount]
    · rw [heq]
      rfl
  have hused : tx₁.redeemPoolUsed = 0 := by
    rw [heq]
    rfl
  obtain ⟨tx₂, htx₂⟩ := replayInputs_succeeds hnew (by simp) hv.inputs hsigns (by omega)
  obtain ⟨_, honly, _⟩ := replayInputs_filled hnew (by simp) hv.inputs htx₂
  have houtputs : tx₂.outputs = [] ++ List.replicate e.outputs.length TransactionOutput.empty := by
    rw [honly, heq, hv.outputCount]
    rfl
  have htx₃ := replayOutputs_eq e.outputs tx₂ [] houtputs
  obtain ⟨tx, htx⟩ := replayTrailers_succeeds hv.trailers
    { tx₂ with outputs := [] ++ e.outputs.map fun o => fillOutput o .empty }
  exact ⟨tx, bind_eq_ok.mpr ⟨tx₁, htx₁, bind_eq_ok.mpr ⟨tx₂, htx₂, bind_eq_ok.mpr ⟨_, htx₃, htx⟩⟩⟩⟩

/-! ## Back to the envelope -/

/-- The encoder writes of an input the record it shows. -/
theorem Shows.wireInput {crypto : SignatureCrypto} {tx : Transaction} {i : Nat}
    {input : TransactionInput} {w : WireInput} (hi : tx.inputs[i]? = some input)
    (h : Shows tx input w) (hw : w.signatures.length ≤ MAX_SIGS_PER_INPUT) :
    (transactionSource crypto tx).wireInput i = w := by
  have hat : inputAt tx i = input := by rw [inputAt, hi, Option.getD_some]
  have hredeem : checkedRedeemBytes tx i = .ok w.redeem := by
    rw [checkedRedeemBytes, hi]
    exact h.redeem
  have hsigs : (List.range input.sigCount.toNat).map
      (fun slot => wireSignature (input.sigs.val[slot]?.getD .empty)) = w.signatures := by
    rw [h.count]
    apply List.ext_getElem
    · simp
    · intro slot _ hslot
      rw [List.getElem_map, List.getElem_range, h.sigs,
        List.getElem?_append_left (by simpa using hslot), List.getElem?_map,
        List.getElem?_eq_getElem hslot]
      rfl
  obtain ⟨value, signatures, redeem⟩ := w
  simp only [EncodeSource.wireInput, transactionSource, hat, hredeem, hsigs, h.value]

/-- A hint at an index belongs to a declared input or output. -/
theorem trailerAt_lt {crypto : SignatureCrypto} {tx : Transaction} {kind : IndexedTrailer} {i : Nat}
    {t : Trailer} (h : (transactionSource crypto tx).trailerAt kind i = some t)
    (hin : tx.inputs.length < 2 ^ 32) (hout : tx.outputs.length < 2 ^ 8) :
    i < (transactionSource crypto tx).countOf kind := by
  have hto : (UInt32.ofNat tx.inputs.length).toNat = tx.inputs.length ∧
      (UInt8.ofNat tx.outputs.length).toNat = tx.outputs.length := by
    rw [UInt32.toNat_ofNat', UInt8.toNat_ofNat', Nat.mod_eq_of_lt hin, Nat.mod_eq_of_lt hout]
    exact ⟨rfl, rfl⟩
  have hempty : (tx.inputs.length ≤ i → inputAt tx i = .empty) ∧
      (tx.outputs.length ≤ i → outputAt tx i = .empty) := by
    refine ⟨fun hge => ?_, fun hge => ?_⟩
    · rw [inputAt, List.getElem?_eq_none_iff.mpr hge, Option.getD_none]
    · rw [outputAt, List.getElem?_eq_none_iff.mpr hge, Option.getD_none]
  by_contra hge
  rw [Nat.not_lt] at hge
  cases kind <;> simp only [EncodeSource.countOf, transactionSource, hto] at hge <;>
    simp [EncodeSource.trailerAt, transactionSource, hempty, hge, TransactionInput.empty,
      TransactionOutput.empty, ms45, Ms45Hint.none, derivation, wireExecution, wireCovenant] at h

/-- A transaction that holds what an envelope says encodes to that envelope. -/
theorem Reproduces.envelope_eq {crypto : SignatureCrypto} {tx : Transaction} {e : Envelope}
    (h : Reproduces crypto tx e) {l : Limits} (hv : e.Valid l)
    (hflags : (transactionSource crypto tx).global.flags = e.global.flags) :
    (transactionSource crypto tx).envelope = e := by
  have hinlt : tx.inputs.length < 2 ^ 32 := by
    rw [h.inputCount, hv.inputCount]
    exact e.global.inputCount.toNat_lt
  have houtlt : tx.outputs.length < 2 ^ 8 := by
    rw [h.outputCount, hv.outputCount]
    exact e.global.outputCount.toNat_lt
  have hin : UInt32.ofNat tx.inputs.length = e.global.inputCount := by
    rw [h.inputCount, hv.inputCount, UInt32.ofNat_toNat]
  have hout : UInt8.ofNat tx.outputs.length = e.global.outputCount := by
    rw [h.outputCount, hv.outputCount, UInt8.ofNat_toNat]
  have htrailers := h.trailers.trailers_eq hv.canonical hv.network hv.trailers
    fun _ _ _ hat => trailerAt_lt hat hinlt houtlt
  obtain ⟨hversion, hlock, hsub, hgas, hpay⟩ := h.global
  have hglobal : (transactionSource crypto tx).global = e.global := by
    obtain ⟨⟨flags, version, inputCount, outputCount, locktime, subnetworkId, gas, payload⟩, _, _, _⟩ := e
    simp only [transactionSource] at hflags ⊢
    rw [hflags, hversion, hin, hout, hlock, hsub, hgas, hpay]
  have hinputs : (List.range e.global.inputCount.toNat).map (transactionSource crypto tx).wireInput =
      e.inputs := by
    rw [← hv.inputCount]
    apply List.ext_getElem
    · simp
    · intro i _ hi
      rw [List.getElem_map, List.getElem_range]
      obtain ⟨input, hinput, hshows⟩ := h.inputs i _ (List.getElem?_eq_getElem hi)
      exact hshows.wireInput hinput (hv.inputs _ (List.getElem_mem hi)).signatures
  have houtputs : (List.range e.global.outputCount.toNat).map (transactionSource crypto tx).output =
      e.outputs := by
    rw [← hv.outputCount, ← h.outputs, List.length_map]
    apply List.ext_getElem
    · simp
    · intro i _ hi
      rw [List.length_map] at hi
      simp [transactionSource, outputAt, List.getElem?_eq_getElem hi]
  obtain ⟨global, inputs, outputs, trailers⟩ := e
  simp only [EncodeSource.envelope, hglobal, hinputs, houtputs, htrailers]

end KaspaPortal.Transaction.Kspt
