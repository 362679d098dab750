import KaspaPortal.Transaction.Kspt.Validation

/-!
# Writing a signature slot

`src/transaction/interchange/kspt/signing/signature_state.rs`: one helper makes a signature the only
one of its input, the other puts it behind those that are there.
-/
namespace KaspaPortal.Transaction.Kspt
open Lib Primitives Model

def hasPubkeyPosition (input : TransactionInput) (pubkeyPosition : UInt8) : Bool :=
  (input.sigs.val.take (min input.sigCount.toNat MAX_SIGS_PER_INPUT)).any fun slot =>
    slot.present && slot.pubkeyPos == pubkeyPosition

theorem singleSlots_length (first : InputSig) (slots : SigSlots) :
    (first :: (slots.val.drop 1).map fun slot => { slot with present := false }).length = MAX_SIGS_PER_INPUT := by
  rw [List.length_cons, List.length_map, List.length_drop, slots.property]
  rfl

/-- The signature takes the first slot and the others are free. -/
def setSingleSignature (input : TransactionInput) (signature : FixedBytes 64) (sighashType pubkeyPosition : UInt8)
    (compressedPublicKey : FixedBytes 33) : TransactionInput :=
  { input with
    sigs := ⟨⟨signature, sighashType, pubkeyPosition, true, compressedPublicKey⟩ ::
      (input.sigs.val.drop 1).map fun slot => { slot with present := false }, singleSlots_length _ _⟩
    sigCount := 1
    sighashType }

/-- Refused for a position that has signed, for an input whose slots are all taken, and for another
sighash than that of the signatures before. -/
def appendSignature (input : TransactionInput) (signature : FixedBytes 64) (sighashType pubkeyPosition : UInt8)
    (compressedPublicKey : FixedBytes 33) : Bool × TransactionInput :=
  let slotIndex := input.sigCount.toNat
  if hasPubkeyPosition input pubkeyPosition then (false, input)
  else if MAX_SIGS_PER_INPUT ≤ slotIndex then (false, input)
  else if slotIndex ≠ 0 ∧ input.sighashType ≠ sighashType then (false, input)
  else
    (true, { input with
      sighashType := if slotIndex = 0 then sighashType else input.sighashType
      sigs := input.sigs.modify slotIndex fun _ =>
        ⟨signature, sighashType, pubkeyPosition, true, compressedPublicKey⟩
      sigCount := input.sigCount + 1 })

/-! ## The rules of the slots -/

/-- The signatures an input counts. -/
def signatures (input : TransactionInput) : List InputSig := input.sigs.val.take input.sigCount.toNat

/-- The counted slots are taken and the others free, no position signs twice, and all signatures have the
sighash of their input. -/
structure SlotRules (input : TransactionInput) : Prop where
  count : input.sigCount.toNat ≤ MAX_SIGS_PER_INPUT
  present : ∀ slot ∈ signatures input, slot.present = true
  free : ∀ slot ∈ input.sigs.val.drop input.sigCount.toNat, slot.present = false
  positions : ((signatures input).map (·.pubkeyPos)).Nodup
  sighash : ∀ slot ∈ signatures input, slot.sighashType = input.sighashType

variable {input : TransactionInput}

theorem signatures_length (h : SlotRules input) : (signatures input).length = input.sigCount.toNat := by
  rw [signatures, List.length_take, input.sigs.property]
  exact Nat.min_eq_left h.count

theorem signatures_head (h : SlotRules input) (hcount : input.sigCount.toNat ≠ 0) :
    ∃ first rest, signatures input = first :: rest ∧ input.sigs.val[0]? = some first := by
  have hlength := signatures_length h
  cases hsignatures : signatures input with
  | nil =>
    rw [hsignatures] at hlength
    exact absurd hlength.symm hcount
  | cons first rest =>
    refine ⟨first, rest, rfl, ?_⟩
    have hfirst : (signatures input)[0]? = some first := by rw [hsignatures, List.getElem?_cons_zero]
    rwa [signatures, List.getElem?_take_of_lt (Nat.pos_of_ne_zero hcount)] at hfirst

/-- The serializer takes the inputs that follow the rules with SIGHASH_ALL. -/
theorem validSlots_iff :
    ValidSlots input ↔ SlotRules input ∧ ∀ slot ∈ signatures input, slot.sighashType = SigHashType.all.toByte := by
  constructor
  · intro h
    refine ⟨⟨h.count, fun slot hslot => (h.present slot hslot).1, h.free, h.positions, ?_⟩,
      fun slot hslot => (h.present slot hslot).2⟩
    intro slot hslot
    have hcount : input.sigCount.toNat ≠ 0 := by
      intro hzero
      rw [signatures, hzero, List.take_zero] at hslot
      exact absurd hslot List.not_mem_nil
    have hsighash := h.sighash hcount
    cases hfirst : input.sigs.val[0]? with
    | none =>
      rw [hfirst] at hsighash
      cases hsighash
    | some first =>
      rw [hfirst] at hsighash
      have hmem : first ∈ input.sigs.val.take input.sigCount.toNat := by
        apply List.mem_of_getElem?
        rw [List.getElem?_take_of_lt (Nat.pos_of_ne_zero hcount)]
        exact hfirst
      rw [(h.present slot hslot).2, Option.some.inj hsighash]
      exact (h.present first hmem).2.symm
  · intro h
    obtain ⟨hrules, hall⟩ := h
    refine ⟨hrules.count, fun slot hslot => ⟨hrules.present slot hslot, hall slot hslot⟩, hrules.free,
      hrules.positions, ?_⟩
    intro hcount
    obtain ⟨first, rest, hsignatures, hfirst⟩ := signatures_head hrules hcount
    rw [hfirst, Option.map_some, hrules.sighash first (hsignatures ▸ List.mem_cons_self)]

section writing
variable (signature : FixedBytes 64) (sighashType pubkeyPosition : UInt8) (compressedPublicKey : FixedBytes 33)

theorem signatures_setSingleSignature :
    signatures (setSingleSignature input signature sighashType pubkeyPosition compressedPublicKey) =
      [⟨signature, sighashType, pubkeyPosition, true, compressedPublicKey⟩] := rfl

theorem setSingleSignature_rules :
    SlotRules (setSingleSignature input signature sighashType pubkeyPosition compressedPublicKey) := by
  constructor
  case count => exact (by decide : (1 : Nat) ≤ MAX_SIGS_PER_INPUT)
  case present =>
    rw [signatures_setSingleSignature]
    exact List.forall_mem_singleton.mpr rfl
  case free =>
    intro slot hslot
    obtain ⟨before, _, rfl⟩ := List.mem_map.mp hslot
    rfl
  case positions =>
    rw [signatures_setSingleSignature]
    exact List.pairwise_singleton _ _
  case sighash =>
    rw [signatures_setSingleSignature]
    exact List.forall_mem_singleton.mpr rfl

theorem not_hasPubkeyPosition (h : SlotRules input) (hnew : ¬ hasPubkeyPosition input pubkeyPosition = true) :
    ∀ slot ∈ signatures input, slot.pubkeyPos ≠ pubkeyPosition := by
  intro slot hslot hposition
  apply hnew
  rw [hasPubkeyPosition, Nat.min_eq_left h.count, List.any_eq_true]
  exact ⟨slot, hslot, by rw [h.present slot hslot, hposition, Bool.true_and, beq_self_eq_true]⟩

/-- The slots after a signature is put behind the others. -/
theorem slots_appended (slot : InputSig) (h : input.sigCount.toNat < MAX_SIGS_PER_INPUT) :
    (input.sigs.modify input.sigCount.toNat fun _ => slot).val =
      signatures input ++ slot :: input.sigs.val.drop (input.sigCount.toNat + 1) :=
  List.modify_eq_take_cons_drop (h.trans_eq input.sigs.property.symm)

theorem sigCount_succ (h : input.sigCount.toNat < MAX_SIGS_PER_INPUT) :
    (input.sigCount + 1).toNat = input.sigCount.toNat + 1 := by
  have hmax : MAX_SIGS_PER_INPUT = 5 := rfl
  rw [UInt8.toNat_add, UInt8.toNat_one]
  omega

/-- An input with one more signature, of its own sighash. -/
theorem appended_rules {after : TransactionInput} {slot : InputSig} (h : SlotRules input)
    (hroom : input.sigCount.toNat < MAX_SIGS_PER_INPUT) (hpresent : slot.present = true)
    (hnew : ∀ other ∈ signatures input, other.pubkeyPos ≠ slot.pubkeyPos)
    (hsame : input.sigCount.toNat = 0 ∨ input.sighashType = slot.sighashType)
    (hsigs : after.sigs = input.sigs.modify input.sigCount.toNat fun _ => slot)
    (hcount : after.sigCount = input.sigCount + 1) (hsighash : after.sighashType = slot.sighashType) :
    SlotRules after ∧ signatures after = signatures input ++ [slot] := by
  have hlength := signatures_length h
  have hslots : after.sigs.val = signatures input ++ slot :: input.sigs.val.drop (input.sigCount.toNat + 1) := by
    rw [hsigs]
    exact slots_appended slot hroom
  have hcount' : after.sigCount.toNat = (signatures input).length + 1 := by
    rw [hcount, sigCount_succ hroom, hlength]
  have hsignatures : signatures after = signatures input ++ [slot] := by
    rw [signatures, hslots, hcount', List.take_length_add_append, List.take_succ_cons, List.take_zero]
  refine ⟨⟨?_, ?_, ?_, ?_, ?_⟩, hsignatures⟩
  · rw [hcount', hlength]
    exact hroom
  · rw [hsignatures]
    exact List.forall_mem_append.mpr ⟨h.present, List.forall_mem_singleton.mpr hpresent⟩
  · intro other hother
    rw [hslots, hcount', List.drop_length_add_append, List.drop_succ_cons, List.drop_zero] at hother
    exact h.free other (List.mem_of_mem_drop (List.drop_drop ▸ hother))
  · rw [hsignatures, List.map_append, List.nodup_append]
    refine ⟨h.positions, List.pairwise_singleton _ _, ?_⟩
    intro position hposition last hlast
    obtain ⟨other, hother, rfl⟩ := List.mem_map.mp hposition
    rw [List.map_singleton, List.mem_singleton] at hlast
    rw [hlast]
    exact hnew other hother
  · rw [hsignatures, hsighash]
    refine List.forall_mem_append.mpr ⟨fun other hother => ?_, List.forall_mem_singleton.mpr rfl⟩
    have hne : input.sigCount.toNat ≠ 0 := hlength ▸ (List.length_pos_of_mem hother).ne'
    rw [h.sighash other hother, hsame.resolve_left hne]

/-- A signature is refused and nothing changes, or it is put behind the others. -/
theorem appendSignature_cases (h : SlotRules input) :
    appendSignature input signature sighashType pubkeyPosition compressedPublicKey = (false, input) ∨
      ∃ after, appendSignature input signature sighashType pubkeyPosition compressedPublicKey = (true, after) ∧
        after = { input with
          sighashType := sighashType, sigs := after.sigs, sigCount := after.sigCount } ∧
        SlotRules after ∧
        signatures after = signatures input ++
          [⟨signature, sighashType, pubkeyPosition, true, compressedPublicKey⟩] := by
  rw [appendSignature]
  split
  case isTrue => exact .inl rfl
  case isFalse hnew =>
    split
    case isTrue => exact .inl rfl
    case isFalse hroom =>
      split
      case isTrue => exact .inl rfl
      case isFalse hsame =>
        have hsame' : input.sigCount.toNat = 0 ∨ input.sighashType = sighashType :=
          Decidable.or_iff_not_imp_left.mpr fun hne => Decidable.of_not_not fun hc => hsame ⟨hne, hc⟩
        have hsighash : (if input.sigCount.toNat = 0 then sighashType else input.sighashType) = sighashType := by
          split
          case isTrue => rfl
          case isFalse hne => exact hsame'.resolve_left hne
        rw [hsighash]
        exact .inr ⟨_, rfl, rfl, appended_rules h (Nat.lt_of_not_le hroom) rfl
          (not_hasPubkeyPosition pubkeyPosition h hnew) hsame' rfl rfl rfl⟩

end writing

end KaspaPortal.Transaction.Kspt
