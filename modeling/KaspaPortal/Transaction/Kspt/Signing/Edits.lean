import KaspaPortal.Transaction.Kspt.Signing.EntryPoints

/-!
# What signing may change

A call only writes slots, through two helpers: one appends, the other makes a signature the only one of
its input. Each relation here holds of no change and of one change after the other.

* `Appends`: the signatures that were there stay where they are.
* `Sets`: the signatures stay as they are, or one that the signer made for the input replaces them.
* `Edits`: a transaction whose inputs changed so, and nothing else of it.
-/
namespace KaspaPortal.Transaction.Kspt
open Lib Primitives Model

/-- Only the signatures differ, and the input has the new sighash or its own. -/
structure SameBody (sighash : UInt8) (before after : TransactionInput) : Prop where
  body : after = { before with
    sigs := after.sigs, sigCount := after.sigCount, sighashType := after.sighashType }
  sighashType : after.sighashType = before.sighashType ∨ after.sighashType = sighash

/-- Signatures are added behind those that are there. -/
structure Appends (sighash : UInt8) (before after : TransactionInput) : Prop extends
    SameBody sighash before after where
  slots : SlotRules before → SlotRules after ∧ ∃ added, signatures after = signatures before ++ added ∧
    ∀ slot ∈ added, slot.sighashType = sighash

/-- The signer made the signature, for a transaction that has the input but for its signatures. -/
def Signer.SignsFor (signer : Signer) (sighashType : SigHashType) (input : TransactionInput)
    (signature : FixedBytes 64) : Prop :=
  ∃ tx inputIndex current privateKey entropy, tx.inputs[inputIndex]? = some current ∧
    SameBody sighashType.toByte input current ∧
    signer.signInput tx inputIndex privateKey sighashType entropy = some signature

/-- The signatures stay, or a new one takes their place. -/
structure Sets (signer : Signer) (hashType : SigHashType) (before after : TransactionInput) : Prop extends
    SameBody hashType.toByte before after where
  slots : SlotRules before → SlotRules after ∧ (signatures after = signatures before ∨
    ∃ slot, signatures after = [slot] ∧ slot.sighashType = hashType.toByte ∧
      signer.SignsFor hashType before slot.signature)

/-- A transaction whose inputs changed as `P` says. -/
structure Edits (P : TransactionInput → TransactionInput → Prop) (before after : Transaction) : Prop where
  frame : after = { before with inputs := after.inputs }
  inputs : List.Forall₂ P before.inputs after.inputs

/-- What does not look at the inputs is as before. -/
theorem Edits.field {P : TransactionInput → TransactionInput → Prop} {before after : Transaction} {α : Type}
    {f : Transaction → α} (h : Edits P before after) (hf : ∀ inputs, f { before with inputs } = f before) :
    f after = f before := by
  rw [h.frame]
  exact hf after.inputs

section relations
variable {sighash : UInt8} {a b c : TransactionInput}

theorem SameBody.refl (a : TransactionInput) : SameBody sighash a a := ⟨rfl, .inl rfl⟩

theorem SameBody.trans (h : SameBody sighash a b) (h' : SameBody sighash b c) : SameBody sighash a c := by
  constructor
  case body =>
    have hbody := h'.body
    rw [h.body] at hbody
    exact hbody
  case sighashType =>
    obtain hb | hb := h.sighashType
    · rw [← hb]
      exact h'.sighashType
    · obtain hc | hc := h'.sighashType
      · exact .inr (hc.trans hb)
      · exact .inr hc

theorem cumulative_appends : Cumulative (Appends sighash) := by
  constructor
  case refl =>
    intro input
    exact ⟨.refl input, fun h => ⟨h, [], (List.append_nil _).symm, fun _ hslot => absurd hslot List.not_mem_nil⟩⟩
  case trans =>
    intro a b c hab hbc
    refine ⟨hab.toSameBody.trans hbc.toSameBody, fun h => ?_⟩
    obtain ⟨hb, first, hfirst, hfirstAll⟩ := hab.slots h
    obtain ⟨hc, second, hsecond, hsecondAll⟩ := hbc.slots hb
    refine ⟨hc, first ++ second, ?_, List.forall_mem_append.mpr ⟨hfirstAll, hsecondAll⟩⟩
    rw [hsecond, hfirst, List.append_assoc]

theorem Signer.SignsFor.of_sameBody {signer : Signer} {sighashType : SigHashType} {signature : FixedBytes 64}
    (hsame : SameBody sighashType.toByte a b) (h : signer.SignsFor sighashType b signature) :
    signer.SignsFor sighashType a signature := by
  obtain ⟨tx, inputIndex, current, privateKey, entropy, hinput, hbody, hsigned⟩ := h
  exact ⟨tx, inputIndex, current, privateKey, entropy, hinput, hsame.trans hbody, hsigned⟩

theorem cumulative_sets {signer : Signer} {sighashType : SigHashType} :
    Cumulative (Sets signer sighashType) := by
  constructor
  case refl =>
    intro input
    exact ⟨.refl input, fun h => ⟨h, .inl rfl⟩⟩
  case trans =>
    intro a b c hab hbc
    refine ⟨hab.toSameBody.trans hbc.toSameBody, fun h => ?_⟩
    obtain ⟨hb, hfirst⟩ := hab.slots h
    obtain ⟨hc, hkept | ⟨slot, hset, hsighash, hsigned⟩⟩ := hbc.slots hb
    · rw [hkept]
      exact ⟨hc, hfirst⟩
    · -- The later signature is the one that is left.
      exact ⟨hc, .inr ⟨slot, hset, hsighash, hsigned.of_sameBody hab.toSameBody⟩⟩

theorem cumulative_edits {P : TransactionInput → TransactionInput → Prop} (h : Cumulative P) :
    Cumulative (Edits P) := by
  constructor
  case refl =>
    intro tx
    exact ⟨rfl, h.forall₂.refl tx.inputs⟩
  case trans =>
    intro s t u hst htu
    refine ⟨?_, h.forall₂.trans _ _ _ hst.inputs htu.inputs⟩
    have hframe := htu.frame
    rw [hst.frame] at hframe
    exact hframe

theorem edits_modifyInput {P : TransactionInput → TransactionInput → Prop} (h : Cumulative P)
    {tx : Transaction} {index : Nat} {f : TransactionInput → TransactionInput}
    (hf : ∀ input, tx.inputs[index]? = some input → P input (f input)) :
    Edits P tx (tx.modifyInput index f) :=
  ⟨rfl, forall₂_modify h hf⟩

/-- Where there is an input, it is the one a reader gets. -/
theorem inputAt_eq {tx : Transaction} {index : Nat} {input : TransactionInput}
    (h : tx.inputs[index]? = some input) : inputAt tx index = input := by
  rw [inputAt, h, Option.getD_some]

theorem sets_setSingleSignature {signer : Signer} {sighashType : SigHashType} {input : TransactionInput}
    {signature : FixedBytes 64} (h : signer.SignsFor sighashType input signature) (pubkeyPosition : UInt8)
    (compressedPublicKey : FixedBytes 33) :
    Sets signer sighashType input
      (setSingleSignature input signature sighashType.toByte pubkeyPosition compressedPublicKey) :=
  ⟨⟨rfl, .inr rfl⟩, fun _ => ⟨setSingleSignature_rules _ _ _ _,
    .inr ⟨_, signatures_setSingleSignature _ _ _ _, rfl, h⟩⟩⟩

/-- The only signature of an unsigned input is appended to none. -/
theorem appends_setSingleSignature {input : TransactionInput} (h : input.sigCount = 0)
    (signature : FixedBytes 64) (pubkeyPosition : UInt8) (compressedPublicKey : FixedBytes 33) :
    Appends sighash input (setSingleSignature input signature sighash pubkeyPosition compressedPublicKey) := by
  refine ⟨⟨rfl, .inr rfl⟩, fun _ => ⟨setSingleSignature_rules _ _ _ _, ?_⟩⟩
  have hnone : signatures input = [] := by
    rw [signatures, h]
    rfl
  exact ⟨_, by rw [hnone]; rfl, List.forall_mem_singleton.mpr rfl⟩

theorem appends_appendSignature (input : TransactionInput) (signature : FixedBytes 64) (pubkeyPosition : UInt8)
    (compressedPublicKey : FixedBytes 33) :
    Appends sighash input (appendSignature input signature sighash pubkeyPosition compressedPublicKey).2 := by
  constructor
  case toSameBody =>
    rw [appendSignature]
    split
    case isTrue => exact .refl input
    case isFalse =>
      split
      case isTrue => exact .refl input
      case isFalse =>
        split
        case isTrue => exact .refl input
        case isFalse =>
          refine ⟨rfl, ?_⟩
          dsimp only
          split
          case isTrue => exact .inr rfl
          case isFalse => exact .inl rfl
  case slots =>
    intro h
    obtain heq | ⟨after, heq, _, hrules, hsignatures⟩ :=
      appendSignature_cases signature sighash pubkeyPosition compressedPublicKey h
    · rw [heq]
      exact ⟨h, [], (List.append_nil _).symm, fun _ hslot => absurd hslot List.not_mem_nil⟩
    · rw [heq]
      exact ⟨hrules, _, hsignatures, List.forall_mem_singleton.mpr rfl⟩

end relations

end KaspaPortal.Transaction.Kspt
