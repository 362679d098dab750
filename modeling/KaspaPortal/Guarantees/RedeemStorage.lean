import KaspaPortal.Lib.Runs
import KaspaPortal.Transaction.Slots
import Mathlib.Logic.Function.Basic

/-!
# Redeem scripts over any sequence of calls

Each call is followed together with a record of what was last stored for every input. A short script
is in its input, and a long one in a part of the pool that the pool's cursor has passed and that no
other input has. A parser's reset keeps the slots, so an input that has a script then is out of the
record until something is stored for it or everything is cleared.

What a script does is not looked at: it is a string of bytes to be found again.
-/
namespace KaspaPortal.Guarantees
open Lib Transaction.Model

namespace RedeemStorage

inductive Call where
  | storeRedeem (index : Nat) (data : Bytes)
  | ensureInputSlots (count : Nat)
  | clear
  | prepareForParse
  deriving DecidableEq

/-- What was last stored for each input, and nothing for an input whose slot is left over. -/
abbrev Record := Nat → Option Bytes

def Record.empty : Record := fun _ => some []

/-- A call, with its success and what it leaves of the record. -/
def call (state : SlottedTransaction × Record) : Call → Option (SlottedTransaction × Record)
  | .storeRedeem index data =>
    (state.1.storeRedeem index data).map fun result =>
      (result.2, match result.1 with
        | .ok _ => Function.update state.2 index (some data)
        | .error _ => state.2)
  | .ensureInputSlots count => some ((state.1.ensureInputSlots count).2, state.2)
  | .clear => some (state.1.clear, Record.empty)
  | .prepareForParse =>
    some (state.1.prepareForParse, fun index => if state.2 index = some [] then some [] else none)

def run (limits : TransactionLimits) (calls : List Call) : Option (SlottedTransaction × Record) :=
  calls.foldlM call (.tryNewWith limits, Record.empty)

/-! ## What a slot holds -/

/-- The part of the pool that an input has. -/
def InPool (input : TransactionInput) : Prop :=
  input.redeemScriptLen ≠ 0 ∧ input.redeemInPool = true

def start (input : TransactionInput) : Nat := input.redeemScriptOffset.toNat

def stop (input : TransactionInput) : Nat := input.redeemScriptOffset.toNat + input.redeemScriptLen

/-- A slot holds some data, in a pool that is in use up to a cursor. -/
structure Holds (pool : FixedBytes REDEEM_POOL_SIZE) (used : Nat) (input : TransactionInput)
    (data : Bytes) : Prop where
  length : input.redeemScriptLen = data.length
  inline : input.redeemInPool = false → data.length ≤ MAX_SCRIPT_SIZE ∧
    input.redeemScript.val.take data.length = data
  pooled : InPool input → stop input ≤ used ∧ cut pool.val (start input) (stop input) = data

/-- Two inputs have no part of the pool in common. -/
def Apart (a b : TransactionInput) : Prop :=
  InPool a → InPool b → stop a ≤ start b ∨ stop b ≤ start a

/-- The record is right, and so is the pool. -/
structure Inv (state : SlottedTransaction × Record) : Prop where
  used : state.1.tx.redeemPoolUsed ≤ REDEEM_POOL_SIZE
  absent : ∀ index, state.1.slots.length ≤ index → state.2 index = some []
  holds : ∀ index input data, state.1.slots[index]? = some input → state.2 index = some data →
    Holds state.1.tx.redeemPool state.1.tx.redeemPoolUsed input data
  apart : ∀ i j a b data data', i ≠ j → state.1.slots[i]? = some a → state.1.slots[j]? = some b →
    state.2 i = some data → state.2 j = some data' → Apart a b

theorem holds_empty {pool : FixedBytes REDEEM_POOL_SIZE} {used : Nat} {input : TransactionInput}
    (hlen : input.redeemScriptLen = 0) : Holds pool used input [] :=
  ⟨hlen, fun _ => ⟨Nat.zero_le _, rfl⟩, fun h => absurd hlen h.1⟩

theorem Holds.redeemBytes {self : SlottedTransaction} {index : Nat} {input : TransactionInput}
    {data : Bytes} (hused : self.tx.redeemPoolUsed ≤ REDEEM_POOL_SIZE)
    (hslot : self.slots[index]? = some input)
    (h : Holds self.tx.redeemPool self.tx.redeemPoolUsed input data) :
    self.redeemBytes index = some data := by
  have hlength := h.length
  rw [SlottedTransaction.redeemBytes, hslot]
  by_cases hempty : input.redeemScriptLen = 0
  · rw [hempty] at hlength
    rw [List.length_eq_zero_iff.mp hlength.symm]
    exact if_pos hempty
  · refine (if_neg hempty).trans ?_
    cases hpool : input.redeemInPool with
    | true =>
      obtain ⟨hstop, hcut⟩ := h.pooled ⟨hempty, hpool⟩
      rw [if_pos rfl]
      refine (if_pos (Nat.le_trans hstop hused)).trans ?_
      exact congrArg some hcut
    | false =>
      obtain ⟨hshort, htake⟩ := h.inline hpool
      rw [if_neg Bool.false_ne_true]
      rw [hlength]
      exact (if_pos hshort).trans (congrArg some htake)

/-! ## Slots -/

theorem modify_append {α : Type} (l l' : List α) (index : Nat) (f : α → α) :
    (l ++ l').modify index f =
      if index < l.length then l.modify index f ++ l' else l ++ l'.modify (index - l.length) f := by
  induction l generalizing index with
  | nil => rfl
  | cons a l ih =>
    cases index with
    | zero => rfl
    | succ index =>
      rw [List.cons_append, List.modify_succ_cons, ih, List.length_cons, Nat.add_sub_add_right]
      by_cases h : index < l.length
      · rw [if_pos h, if_pos (Nat.succ_lt_succ h)]
        rfl
      · rw [if_neg h, if_neg fun hc => h (Nat.lt_of_succ_lt_succ hc)]
        rfl

theorem slots_modifySlot {self self' : SlottedTransaction} {index : Nat}
    {f : TransactionInput → TransactionInput} (h : self.modifySlot index f = some self') :
    index < self.slots.length ∧ self'.slots = self.slots.modify index f ∧
      self'.tx.redeemPool = self.tx.redeemPool ∧ self'.tx.redeemPoolUsed = self.tx.redeemPoolUsed := by
  rw [SlottedTransaction.modifySlot] at h
  have hlength : self.slots.length = self.tx.inputs.length + self.spare.length := List.length_append
  by_cases hdeclared : index < self.tx.inputs.length
  · rw [if_pos hdeclared] at h
    cases h
    refine ⟨by omega, ?_, rfl, rfl⟩
    rw [SlottedTransaction.slots, SlottedTransaction.slots, modify_append, if_pos hdeclared]
    rfl
  · rw [if_neg hdeclared] at h
    by_cases hspare : index < self.slots.length
    · rw [if_pos hspare] at h
      cases h
      refine ⟨hspare, ?_, rfl, rfl⟩
      rw [SlottedTransaction.slots, SlottedTransaction.slots, modify_append, if_neg hdeclared]
    · rw [if_neg hspare] at h
      cases h

/-- What a successful store does: the slot holds the data, and the pool grows by what is there. -/
theorem storeRedeem_ok {self self' : SlottedTransaction} {index : Nat} {data : Bytes} {u : Unit}
    (hused : self.tx.redeemPoolUsed ≤ REDEEM_POOL_SIZE)
    (h : self.storeRedeem index data = some (.ok u, self')) :
    index < self.slots.length ∧ ∃ f, self'.slots = self.slots.modify index f ∧
      self'.tx.redeemPoolUsed ≤ REDEEM_POOL_SIZE ∧ self.tx.redeemPoolUsed ≤ self'.tx.redeemPoolUsed ∧
      (∀ from_ to_, to_ ≤ self.tx.redeemPoolUsed →
        cut self'.tx.redeemPool.val from_ to_ = cut self.tx.redeemPool.val from_ to_) ∧
      ∀ input, Holds self'.tx.redeemPool self'.tx.redeemPoolUsed (f input) data ∧
        (InPool (f input) → self.tx.redeemPoolUsed ≤ start (f input)) := by
  unfold SlottedTransaction.storeRedeem at h
  dsimp only at h
  -- an empty script, an inline one, the two refusals and a pooled one
  by_cases hempty : data.length = 0
  · rw [if_pos hempty] at h
    obtain ⟨after, hmodify, hafter⟩ := Option.map_eq_some_iff.mp h
    obtain ⟨hindex, hslots, hpool, hcursor⟩ := slots_modifySlot hmodify
    cases hafter
    refine ⟨hindex, _, hslots, by rw [hcursor]; exact hused, Nat.le_of_eq hcursor.symm,
      fun _ _ _ => by rw [hpool], fun input => ⟨?_, fun hin => absurd rfl hin.1⟩⟩
    rw [List.length_eq_zero_iff.mp hempty]
    exact holds_empty rfl
  · rw [if_neg hempty] at h
    by_cases hshort : data.length ≤ MAX_SCRIPT_SIZE
    · rw [if_pos hshort] at h
      obtain ⟨after, hmodify, hafter⟩ := Option.map_eq_some_iff.mp h
      obtain ⟨hindex, hslots, hpool, hcursor⟩ := slots_modifySlot hmodify
      cases hafter
      refine ⟨hindex, _, hslots, by rw [hcursor]; exact hused, Nat.le_of_eq hcursor.symm,
        fun _ _ _ => by rw [hpool], fun input => ⟨⟨rfl, fun _ => ⟨hshort, ?_⟩, fun hin =>
          absurd hin.2 Bool.false_ne_true⟩, fun hin => absurd hin.2 Bool.false_ne_true⟩⟩
      have hself := FixedBytes.cut_write_self input.redeemScript 0 data (by omega)
      rwa [cut, List.drop_zero, Nat.zero_add] at hself
    · rw [if_neg hshort] at h
      by_cases hlarge : MAX_REDEEM_SIZE < data.length
      · rw [if_pos hlarge] at h
        cases h
      · rw [if_neg hlarge] at h
        by_cases hfull : REDEEM_POOL_SIZE < self.tx.redeemPoolUsed + data.length
        · rw [if_pos hfull] at h
          cases h
        · rw [if_neg hfull] at h
          obtain ⟨after, hmodify, hafter⟩ := Option.map_eq_some_iff.mp h
          obtain ⟨hindex, hslots, hpool, hcursor⟩ := slots_modifySlot hmodify
          cases hafter
          have hoffset : (UInt16.ofNat self.tx.redeemPoolUsed).toNat = self.tx.redeemPoolUsed :=
            UInt16.toNat_ofNat_of_lt' (Nat.lt_of_le_of_lt hused (by decide))
          refine ⟨hindex, _, hslots, by rw [hcursor]; exact Nat.not_lt.mp hfull,
            by rw [hcursor]; exact Nat.le_add_right _ _, fun from_ to_ hto => ?_,
            fun input => ⟨⟨rfl, fun hin => absurd hin Bool.noConfusion, fun _ => ⟨?_, ?_⟩⟩, fun _ => ?_⟩⟩
          · rw [hpool]
            exact FixedBytes.cut_write_below _ _ _ _ _ hto
          · rw [hcursor, stop, hoffset]
          · rw [hpool, start, stop, hoffset]
            exact FixedBytes.cut_write_self _ _ _ (Nat.not_lt.mp hfull)
          · rw [start, hoffset]

theorem storeRedeem_error {self self' : SlottedTransaction} {index : Nat} {data : Bytes}
    {error : TransactionStorageError} (h : self.storeRedeem index data = some (.error error, self')) :
    self' = self := by
  unfold SlottedTransaction.storeRedeem at h
  dsimp only at h
  split at h
  · obtain ⟨_, _, hafter⟩ := Option.map_eq_some_iff.mp h
    cases hafter
  · split at h
    · obtain ⟨_, _, hafter⟩ := Option.map_eq_some_iff.mp h
      cases hafter
    · split at h
      · cases h
        rfl
      · split at h
        · cases h
          rfl
        · obtain ⟨_, _, hafter⟩ := Option.map_eq_some_iff.mp h
          cases hafter

/-! ## One call -/

theorem Inv.store {self self' : SlottedTransaction} {record : Record} {index : Nat} {data : Bytes}
    {u : Unit} (hinv : Inv (self, record)) (h : self.storeRedeem index data = some (.ok u, self')) :
    Inv (self', Function.update record index (some data)) := by
  obtain ⟨hindex, f, hslots, hused, hgrows, hkeeps, hf⟩ := storeRedeem_ok hinv.used h
  have hslot : ∀ i input, self'.slots[i]? = some input →
      (i = index ∧ ∃ before, input = f before) ∨ (i ≠ index ∧ self.slots[i]? = some input) := by
    intro i input hi
    rw [hslots, List.getElem?_modify] at hi
    obtain ⟨before, hbefore, hinput⟩ := Option.map_eq_some_iff.mp hi
    by_cases hsame : index = i
    · rw [if_pos hsame] at hinput
      exact .inl ⟨hsame.symm, before, hinput.symm⟩
    · rw [if_neg hsame] at hinput
      exact .inr ⟨Ne.symm hsame, by rw [hbefore, ← hinput]⟩
  -- A slot that was not stored to holds what it held, in the part of the pool that is kept.
  have hkept : ∀ i input stored, i ≠ index → self.slots[i]? = some input →
      record i = some stored → Holds self.tx.redeemPool self.tx.redeemPoolUsed input stored :=
    fun i input stored _ hi hstored => hinv.holds i input stored hi hstored
  refine ⟨hused, fun i hi => ?_, fun i input stored hi hstored => ?_,
    fun i j a b stored stored' hne ha hb hi hj => ?_⟩
  · rw [hslots, List.length_modify] at hi
    have hother : i ≠ index := by omega
    exact (Function.update_of_ne hother _ _).trans (hinv.absent i hi)
  · cases hslot i input hi with
    | inl hsame =>
      obtain ⟨heq, before, rfl⟩ := hsame
      have hdata : some data = some stored := by
        rw [← hstored, heq]
        exact (Function.update_self index (some data) record).symm
      cases hdata
      exact (hf before).1
    | inr hother =>
      have hstored' : record i = some stored := by
        rw [← hstored]
        exact (Function.update_of_ne hother.1 _ _).symm
      have hholds := hkept i input stored hother.1 hother.2 hstored'
      refine ⟨hholds.length, hholds.inline, fun hin => ?_⟩
      obtain ⟨hstop, hcut⟩ := hholds.pooled hin
      exact ⟨Nat.le_trans hstop hgrows, (hkeeps _ _ hstop).trans hcut⟩
  · have hrecorded : ∀ k stored, k ≠ index →
        Function.update record index (some data) k = some stored → record k = some stored :=
      fun k stored hk hstored => (Function.update_of_ne hk _ _).symm.trans hstored
    cases hslot i a ha with
    | inl hsame =>
      cases hslot j b hb with
      | inl hsame' => exact absurd (hsame.1.trans hsame'.1.symm) hne
      | inr hother =>
        obtain ⟨_, before, rfl⟩ := hsame
        intro hin hin'
        have hstop := (hkept j b stored' hother.1 hother.2 (hrecorded j stored' hother.1 hj)).pooled hin'
        exact .inr (Nat.le_trans hstop.1 ((hf before).2 hin))
    | inr hother =>
      have hrecord := hrecorded i stored hother.1 hi
      cases hslot j b hb with
      | inl hsame =>
        obtain ⟨_, before, rfl⟩ := hsame
        intro hin hin'
        have hstop := (hkept i a stored hother.1 hother.2 hrecord).pooled hin
        exact .inl (Nat.le_trans hstop.1 ((hf before).2 hin'))
      | inr hother' =>
        exact hinv.apart i j a b stored stored' hne hother.2 hother'.2 hrecord
          (hrecorded j stored' hother'.1 hj)

/-- Slots that hold nothing and a pool that is empty. -/
theorem Inv.of_empty {self : SlottedTransaction} {record : Record}
    (hused : self.tx.redeemPoolUsed ≤ REDEEM_POOL_SIZE)
    (habsent : ∀ index, self.slots.length ≤ index → record index = some [])
    (h : ∀ index input data, self.slots[index]? = some input → record index = some data →
      data = [] ∧ input.redeemScriptLen = 0) : Inv (self, record) := by
  refine ⟨hused, habsent, fun index input data hslot hdata => ?_,
    fun i j a b data data' _ ha _ hi _ hin => absurd (h i a data ha hi).2 hin.1⟩
  obtain ⟨rfl, hlen⟩ := h index input data hslot hdata
  exact holds_empty hlen

theorem inv_new (limits : TransactionLimits) : Inv (.tryNewWith limits, Record.empty) := by
  apply Inv.of_empty (Nat.zero_le _) fun _ _ => rfl
  intro index input data hslot hdata
  have hempty := List.eq_of_mem_replicate (List.mem_of_getElem? hslot)
  exact ⟨(Option.some.inj hdata).symm, by rw [hempty]; rfl⟩

theorem Inv.clear {self : SlottedTransaction} {record : Record} (_ : Inv (self, record)) :
    Inv (self.clear, Record.empty) := by
  apply Inv.of_empty (Nat.zero_le _) fun _ _ => rfl
  intro index input data hslot hdata
  have hempty := List.eq_of_mem_replicate (List.mem_of_getElem? hslot)
  exact ⟨(Option.some.inj hdata).symm, by rw [hempty]; rfl⟩

/-- More slots, which hold nothing. -/
theorem Inv.ensureInputSlots {self : SlottedTransaction} {record : Record} (h : Inv (self, record))
    (count : Nat) : Inv ((self.ensureInputSlots count).2, record) := by
  rw [SlottedTransaction.ensureInputSlots]
  by_cases hmany : self.tx.limits.maxInputs < count
  · rw [if_pos hmany]
    exact h
  · rw [if_neg hmany]
    have hslots : ∀ added : List TransactionInput,
        (⟨self.tx, self.spare ++ added⟩ : SlottedTransaction).slots = self.slots ++ added :=
      fun added => (List.append_assoc _ _ _).symm
    -- A slot is one of those before, or a new one, for which nothing has been recorded.
    have hslot : ∀ (index : Nat) (input : TransactionInput),
        (self.slots ++ List.replicate (count - self.slots.length) TransactionInput.empty)[index]? =
          some input → self.slots[index]? = some input ∨
          (record index = some [] ∧ input.redeemScriptLen = 0) := by
      intro index input hinput
      by_cases hold : index < self.slots.length
      · rw [List.getElem?_append_left hold] at hinput
        exact .inl hinput
      · rw [List.getElem?_append_right (Nat.not_lt.mp hold)] at hinput
        have hempty := List.eq_of_mem_replicate (List.mem_of_getElem? hinput)
        exact .inr ⟨h.absent index (Nat.not_lt.mp hold), by rw [hempty]; rfl⟩
    refine ⟨h.used, fun index hindex => ?_, fun index input data hinput hdata => ?_,
      fun i j a b data data' hne ha hb hi hj => ?_⟩
    · rw [hslots, List.length_append] at hindex
      exact h.absent index (Nat.le_trans (Nat.le_add_right _ _) hindex)
    · rw [hslots] at hinput
      cases hslot index input hinput with
      | inl hold => exact h.holds index input data hold hdata
      | inr hnew =>
        have hnone : data = [] := Option.some.inj (hdata.symm.trans hnew.1)
        rw [hnone]
        exact holds_empty hnew.2
    · rw [hslots] at ha hb
      intro hin hin'
      cases hslot i a ha with
      | inr hnew => exact absurd hnew.2 hin.1
      | inl hold =>
        cases hslot j b hb with
        | inr hnew => exact absurd hnew.2 hin'.1
        | inl hold' => exact h.apart i j a b data data' hne hold hold' hi hj hin hin'

/-- Only the slots that hold nothing stay in the record. -/
theorem Inv.prepareForParse {self : SlottedTransaction} {record : Record} (h : Inv (self, record)) :
    Inv (self.prepareForParse, fun index => if record index = some [] then some [] else none) := by
  apply Inv.of_empty (Nat.zero_le _)
  · intro index hindex
    exact if_pos (h.absent index hindex)
  · intro index input data hslot hdata
    by_cases hempty : record index = some []
    · rw [if_pos hempty] at hdata
      have hholds := h.holds index input [] hslot hempty
      exact ⟨(Option.some.inj hdata).symm, hholds.length⟩
    · rw [if_neg hempty] at hdata
      cases hdata

theorem Inv.call {state state' : SlottedTransaction × Record} (h : Inv state) {made : Call}
    (hcall : RedeemStorage.call state made = some state') : Inv state' := by
  cases state with
  | mk self record =>
    cases made with
    | storeRedeem index data =>
      obtain ⟨result, hstore, hresult⟩ := Option.map_eq_some_iff.mp hcall
      cases result with
      | mk outcome after =>
        cases outcome with
        | ok u =>
          cases hresult
          exact h.store hstore
        | error error =>
          cases hresult
          have hsame := storeRedeem_error hstore
          rw [hsame]
          exact h
    | ensureInputSlots count =>
      cases hcall
      exact h.ensureInputSlots count
    | clear =>
      cases hcall
      exact h.clear
    | prepareForParse =>
      cases hcall
      exact h.prepareForParse

theorem run_inv {limits : TransactionLimits} {calls : List Call}
    {state : SlottedTransaction × Record} (h : run limits calls = some state) : Inv state := by
  have halong := @Along.of_forall _ _ call (fun _ => True) calls (fun _ _ => trivial)
    (.tryNewWith limits, Record.empty)
  exact halong.invariant (fun _ _ _ hinv _ hcall => hinv.call hcall) (inv_new limits) h

end RedeemStorage

open RedeemStorage

/-- After any sequence of calls, every input that is in the record has what the record says, no two
of them share a part of the pool or reach past its end, and a store that fails changes nothing. -/
theorem redeem_storage {limits : TransactionLimits} {calls : List Call} {self : SlottedTransaction}
    {record : Record} (h : run limits calls = some (self, record)) :
    (∀ index data, index < self.slots.length → record index = some data →
      self.redeemBytes index = some data) ∧
    (∀ index input data, self.slots[index]? = some input → record index = some data →
      InPool input → stop input ≤ REDEEM_POOL_SIZE) ∧
    (∀ i j a b data data', i ≠ j → self.slots[i]? = some a → self.slots[j]? = some b →
      record i = some data → record j = some data' → Apart a b) ∧
    ∀ index data error after, self.storeRedeem index data = some (.error error, after) →
      ∀ other, after.redeemBytes other = self.redeemBytes other := by
  have hinv := run_inv h
  refine ⟨fun index data hindex hdata => ?_, fun index input data hslot hdata hin => ?_, hinv.apart,
    fun index data error after hstore other => by rw [storeRedeem_error hstore]⟩
  · have hslot := List.getElem?_eq_getElem hindex
    exact (hinv.holds index _ data hslot hdata).redeemBytes hinv.used hslot
  · exact Nat.le_trans ((hinv.holds index input data hslot hdata).pooled hin).1 hinv.used

/-- Scripts that are too long for an input, one of them stored where there was another. -/
def pooledCalls : List Call :=
  [.storeRedeem 0 (List.replicate 600 1), .ensureInputSlots 9, .prepareForParse,
    .storeRedeem 8 (List.replicate 513 2), .storeRedeem 0 (List.replicate 514 3)]

/-- What is left of the pool does not hold a fourth one. -/
theorem redeem_storage_sample :
    ∃ self record after, run .FORMAT pooledCalls = some (self, record) ∧
      self.redeemBytes 0 = some (List.replicate 514 3) ∧ self.redeemBytes 8 = some (List.replicate 513 2) ∧
      self.storeRedeem 1 (List.replicate 1022 4) = some (.error .redeemPoolFull, after) ∧
      after.redeemBytes 0 = self.redeemBytes 0 := by
  have hrun : ((run .FORMAT pooledCalls).any fun state => decide (state.1.slots.length = 9 ∧
      state.2 0 = some (List.replicate 514 3) ∧ state.2 8 = some (List.replicate 513 2) ∧
      (state.1.storeRedeem 1 (List.replicate 1022 4)).map Prod.fst = some (.error .redeemPoolFull))) = true := by
    decide +kernel
  obtain ⟨⟨self, record⟩, hstate, hall⟩ := (Option.any_eq_true _ _).mp hrun
  obtain ⟨hslots, hfirst, hlast, hfull⟩ := of_decide_eq_true hall
  have hslot : ∀ index < 9, index < self.slots.length := fun index hindex => hindex.trans_eq hslots.symm
  obtain ⟨⟨_, after⟩, hstore, rfl⟩ := Option.map_eq_some_iff.mp hfull
  obtain ⟨hbytes, _, _, hfailed⟩ := redeem_storage hstate
  exact ⟨self, record, after, hstate, hbytes 0 _ (hslot 0 (by decide)) hfirst,
    hbytes 8 _ (hslot 8 (by decide)) hlast, hstore, hfailed 1 _ _ after hstore 0⟩

/-- A parser's reset leaves the slots: what was stored before it is still read. -/
theorem redeem_bytes_left_over :
    (run .FORMAT [.storeRedeem 0 [1, 2], .prepareForParse]).map
      (fun state => (state.1.redeemBytes 0, state.1.tx.inputs.length)) =
        some (some [1, 2], 0) := by
  decide

end KaspaPortal.Guarantees
