import KaspaPortal.Guarantees.ResolverTracer
import KaspaPortal.Transaction.Pskt.Complete
import KaspaPortal.Transaction.Pskt.Verified

/-!
# A complete transaction has its witnesses

Completion counts signatures, planning looks for one at each place of a path. The
signatures of a complete input stand at distinct positions of its path and are as
many as the path asks for, so none of them is missing.

The signature check is a parameter; the specialised routes of the source have
completions of their own.
-/
namespace KaspaPortal.Guarantees
open Lib Primitives Contract.Covenant Transaction Transaction.Model Transaction.Pskt ResolverTracer

namespace VerifiedCompletion

variable {crypto : SignatureCrypto} {tx : Compact.Transaction} {index : Nat} {input : Compact.Input}

theorem matched_of_covenantKey {position : UInt8} {key : FixedBytes 32} {mask truth : UInt16}
    (h : covenantKey input.redeem (some (mask, truth)) position = some key) :
    ∃ r binding, resolveCovenantBranches input.redeem = .ok r ∧
      r.keys[position.toNat]? = some binding ∧
      binding.matchesSelectors mask.toBitVec truth.toBitVec = true ∧ binding.key = key := by
  unfold covenantKey at h
  cases hr : resolveCovenantBranches input.redeem with
  | error e => simp [hr] at h
  | ok r =>
    rw [hr] at h
    obtain ⟨binding, hbinding, h⟩ := Option.bind_eq_some_iff.mp h
    by_cases hmatch : matchesExecution binding (some (mask, truth)) = true
    · rw [if_pos hmatch] at h
      exact ⟨r, binding, rfl, hbinding, hmatch, Option.some.inj h⟩
    · rw [if_neg hmatch] at h
      cases h

/-- As many distinct positions of a path as it asks for are all it asks for. -/
theorem all_signed {positions signed : List UInt8} (hnodup : signed.Nodup) (hmem : signed ⊆ positions)
    (hlen : signed.length = positions.length) {position : UInt8} (h : position ∈ positions) :
    position ∈ signed :=
  (List.subperm_of_subset hnodup hmem |>.perm_of_length_le hlen.ge).mem_iff.mpr h

/-- A complete covenant input carries a signature for every position of its path. -/
theorem path_signed (hc : Complete crypto tx index input) (hredeem : input.redeem ≠ [])
    (hmulti : parseMultisigRedeem input.redeem = none) (hspecial : input.specializedWitness = none) :
    ∃ mask truth path, input.covenantExecution = some (mask, truth) ∧
      traceWitness input.redeem mask.toBitVec truth.toBitVec = .ok path ∧
      ∀ position ∈ pathPositions path, ∃ signature ∈ input.signatures,
        signature.position = position := by
  have hrequired := hc.required
  simp only [requiredSignatureCount, hredeem, if_false, hmulti, hspecial, Option.isSome_none,
    Bool.false_eq_true, genericCovenantRequired, Compact.Input.path] at hrequired
  cases hexec : input.covenantExecution with
  | none => simp [hexec] at hrequired
  | some execution =>
    obtain ⟨mask, truth⟩ := execution
    simp only [hexec, Option.map_some] at hrequired
    cases hpath : traceWitness input.redeem mask.toBitVec truth.toBitVec with
    | error e =>
      rw [hpath] at hrequired
      cases e <;> simp at hrequired
    | ok path =>
      rw [hpath] at hrequired
      have hlen : (pathPositions path).length = input.signatures.length := by simpa using hrequired
      refine ⟨mask, truth, path, rfl, hpath, fun position hposition => ?_⟩
      have hsub : input.signatures.map Signature.position ⊆ pathPositions path := by
        intro position hposition
        obtain ⟨signature, hsignature, rfl⟩ := List.mem_map.mp hposition
        obtain ⟨_, key, hkey, _⟩ := hc.signed signature hsignature
        simp only [boundKey, hredeem, if_false, hmulti, Option.isSome_none, Bool.false_eq_true,
          hexec] at hkey
        obtain ⟨r, binding, hr, hbinding, hmatch, _⟩ := matched_of_covenantKey hkey
        exact (mem_traced hr hpath signature.position).mpr ⟨binding, hbinding, hmatch⟩
      have hsigned := all_signed hc.positions hsub (by rw [List.length_map, hlen]) hposition
      exact List.mem_map.mp hsigned

theorem covenant_planned (hc : Complete crypto tx index input) (hredeem : input.redeem ≠ [])
    (hmulti : parseMultisigRedeem input.redeem = none) (hspecial : input.specializedWitness = none) :
    ∃ plan, covenantWitnessPlan index input.path = .ok plan := by
  obtain ⟨mask, truth, path, hexec, hpath, hsigned⟩ := path_signed hc hredeem hmulti hspecial
  have hplanned : ∀ item ∈ path, ∃ planned, planItem index input.path item = .ok planned := by
    intro item hitem
    cases item with
    | selector value => exact ⟨.selector value, rfl⟩
    | signature position =>
      have hmem : position ∈ pathPositions path := List.mem_filterMap.mpr ⟨_, hitem, rfl⟩
      obtain ⟨signature, hsignature, hposition⟩ := hsigned position hmem
      have hfound : (input.signatures.find? fun s => s.position == position).isSome = true :=
        List.find?_isSome.mpr ⟨signature, hsignature, by simp [hposition]⟩
      obtain ⟨found, hfound⟩ := Option.isSome_iff_exists.mp hfound
      exact ⟨.signature found, by simp [planItem, Compact.Input.path, hfound, okOr, Except.map]⟩
  obtain ⟨witness, hwitness⟩ := mapM_succeeds hplanned
  refine ⟨⟨witness, input.redeem, mask.toBitVec, truth.toBitVec⟩, ?_⟩
  simp [covenantWitnessPlan, covenantPath, Compact.Input.path, hexec, hpath, okOr, bind, Except.bind,
    pure, Except.pure] at hwitness ⊢
  rw [hwitness]

/-- Every plan behind the redeem-script binding goes through. -/
theorem redeem_planned (hc : Complete crypto tx index input) (hredeem : input.redeem ≠ []) :
    ∃ plan, redeemWitnessPlan index input = .ok plan := by
  unfold redeemWitnessPlan
  cases hspecial : input.specializedWitness with
  | some specialized => exact ⟨_, rfl⟩
  | none =>
    cases hmulti : parseMultisigRedeem input.redeem with
    | some parsed =>
      have hrequired := hc.required
      simp only [requiredSignatureCount, hredeem, if_false, hmulti, Except.ok.injEq,
        Option.some.injEq] at hrequired
      have hpass : (rejectIf (input.signatures.length ≠ parsed.1.toNat) (inputError index
          ("verified multisig witness has " ++ toString input.signatures.length ++
            " signatures, expected " ++ toString parsed.1.toNat)) : Except String Unit) = .ok () :=
        rejectIf_eq_ok.mpr (by simp [hrequired])
      exact ⟨_, bind_eq_ok.mpr ⟨(), hpass, rfl⟩⟩
    | none =>
      obtain ⟨plan, hplan⟩ := covenant_planned hc hredeem hmulti hspecial
      exact ⟨.covenant plan, by rw [hplan]; rfl⟩

theorem p2pk_planned (hc : Complete crypto tx index input) (hredeem : input.redeem = []) :
    ∃ signature, input.signatures = [signature] ∧ (p2pkXonly input.script).isSome = true ∧
      p2pkWitnessPlan index input = .ok (.p2pk signature) := by
  have hrequired := hc.required
  simp only [requiredSignatureCount, hredeem, if_true] at hrequired
  by_cases hscript : canonicalP2pk input = true
  · rw [if_pos hscript] at hrequired
    obtain ⟨signature, hone⟩ := List.length_eq_one_iff.mp (Option.some.inj (Except.ok.inj hrequired)).symm
    obtain ⟨_, key, hkey, _⟩ := hc.signed signature (by rw [hone]; exact List.mem_singleton_self _)
    have hzero : signature.position = 0 := by
      simp only [boundKey, hredeem, if_true, Option.filter_eq_some_iff, beq_iff_eq] at hkey
      exact hkey.2
    refine ⟨signature, hone, hscript, ?_⟩
    rw [canonicalP2pk] at hscript
    have hsome : p2pkXonly input.script ≠ none := Option.isSome_iff_ne_none.mp hscript
    simp [p2pkWitnessPlan, requireP2pkScript, exactlyOneSignature, hone, hzero, hsome, rejectIf, bind,
      Except.bind, pure, Except.pure]
  · rw [if_neg hscript] at hrequired
    cases hrequired

/-- What binds an input to the script it spends: the shape of the script, or the hash
of the redeem script in it. -/
def requireScriptBinding (scriptHash : Bytes → FixedBytes 32) (index : Nat) (input : Compact.Input) :
    Except String Unit :=
  if input.redeem = [] then requireP2pkScript index input.script
  else requireP2shRedeemBinding scriptHash index input.script input.redeem

variable {scriptHash : Bytes → FixedBytes 32}

/-- A complete input has a plan exactly when its script is bound, and the binding's
error otherwise. -/
theorem witnessPlan_of_complete (scriptHash : Bytes → FixedBytes 32)
    (hc : Complete crypto tx index input) :
    (∃ plan, requireScriptBinding scriptHash index input = .ok () ∧
      witnessPlan scriptHash index input = .ok plan) ∨
    ∃ e, requireScriptBinding scriptHash index input = .error e ∧
      witnessPlan scriptHash index input = .error e := by
  unfold requireScriptBinding witnessPlan
  by_cases hredeem : input.redeem = []
  · simp only [hredeem, if_true]
    obtain ⟨signature, _, hscript, hplan⟩ := p2pk_planned hc hredeem
    exact Or.inl ⟨_, rejectIf_eq_ok.mpr (Option.isSome_iff_ne_none.mp hscript), hplan⟩
  · simp only [hredeem, if_false]
    cases hbinding : requireP2shRedeemBinding scriptHash index input.script input.redeem with
    | error e => exact Or.inr ⟨e, rfl, rfl⟩
    | ok u =>
      obtain ⟨plan, hplan⟩ := redeem_planned hc hredeem
      exact Or.inl ⟨plan, rfl, hplan⟩

theorem verifiedInputs_error {start : Nat} {inputs : List Compact.Input} {e : String}
    (h : verifiedInputs scriptHash start inputs = .error e) : ∃ (i : Nat) (input : Compact.Input),
      inputs[i]? = some input ∧ witnessPlan scriptHash (start + i) input = .error e := by
  induction inputs generalizing start with
  | nil => cases h
  | cons first rest ih =>
    cases hplan : witnessPlan scriptHash start first with
    | error e' =>
      simp only [verifiedInputs, verifiedInput, hplan] at h
      cases h
      exact ⟨0, first, rfl, hplan⟩
    | ok plan =>
      cases hrest : verifiedInputs scriptHash (start + 1) rest with
      | error e' =>
        simp only [verifiedInputs, verifiedInput, hplan, hrest] at h
        cases h
        obtain ⟨i, input, hi, herror⟩ := ih hrest
        exact ⟨i + 1, input, by simpa using hi, by rwa [show start + (i + 1) = start + 1 + i by omega]⟩
      | ok others =>
        simp only [verifiedInputs, verifiedInput, hplan, hrest] at h
        cases h

theorem verifiedInputs_plan {start : Nat} {inputs : List Compact.Input} {out : List VerifiedInput}
    (h : verifiedInputs scriptHash start inputs = .ok out) {i : Nat} {input : Compact.Input}
    (hi : inputs[i]? = some input) : ∃ plan, witnessPlan scriptHash (start + i) input = .ok plan := by
  induction inputs generalizing start out i with
  | nil => cases hi
  | cons first rest ih =>
    obtain ⟨one, hone, h⟩ := bind_eq_ok.mp h
    obtain ⟨others, hothers, _⟩ := bind_eq_ok.mp h
    cases i with
    | zero =>
      obtain rfl : first = input := by simpa using hi
      obtain ⟨plan, hplan, _⟩ := bind_eq_ok.mp hone
      exact ⟨plan, hplan⟩
    | succ i =>
      obtain ⟨plan, hplan⟩ := ih hothers (i := i) (by simpa using hi)
      exact ⟨plan, by rwa [show start + (i + 1) = start + 1 + i by omega]⟩

end VerifiedCompletion
open VerifiedCompletion

section
variable {crypto : SignatureCrypto} {tx : Compact.Transaction}

/-- The plan of a complete transaction fails exactly when an input is not bound to the
script it spends, and then with that input's binding error. -/
theorem complete_fails_only_by_binding (scriptHash : Bytes → FixedBytes 32)
    (h : verifiedComplete crypto tx = .ok true) :
    (∀ e, fromCompact scriptHash tx = .error e → ∃ (i : Nat) (input : Compact.Input),
      tx.inputs[i]? = some input ∧ requireScriptBinding scriptHash i input = .error e) ∧
    ((∃ v, fromCompact scriptHash tx = .ok v) ↔ ∀ (i : Nat) (input : Compact.Input),
      tx.inputs[i]? = some input → requireScriptBinding scriptHash i input = .ok ()) := by
  obtain ⟨_, hcomplete⟩ := verifiedComplete_eq_true.mp h
  have hbound : ∀ (i : Nat) (input : Compact.Input), tx.inputs[i]? = some input → ∀ e,
      witnessPlan scriptHash i input = .error e →
        requireScriptBinding scriptHash i input = .error e := by
    intro i input hi e he
    obtain ⟨plan, _, hplan⟩ | ⟨e', hbinding, hplan⟩ :=
      witnessPlan_of_complete scriptHash (hcomplete i input hi)
    · rw [hplan] at he
      cases he
    · rw [hplan] at he
      cases he
      exact hbinding
  have herror : ∀ e, fromCompact scriptHash tx = .error e → ∃ (i : Nat) (input : Compact.Input),
      tx.inputs[i]? = some input ∧ requireScriptBinding scriptHash i input = .error e := by
    intro e he
    cases hinputs : verifiedInputs scriptHash 0 tx.inputs with
    | ok inputs =>
      simp only [fromCompact, hinputs] at he
      cases he
    | error e' =>
      simp only [fromCompact, hinputs] at he
      cases he
      obtain ⟨i, input, hi, hplan⟩ := verifiedInputs_error hinputs
      rw [Nat.zero_add] at hplan
      exact ⟨i, input, hi, hbound i input hi e hplan⟩
  refine ⟨herror, fun hv i input hi => ?_, fun hall => ?_⟩
  · obtain ⟨v, hv⟩ := hv
    obtain ⟨inputs, hinputs, _⟩ := bind_eq_ok.mp hv
    obtain ⟨plan, hplan⟩ := verifiedInputs_plan hinputs hi
    rw [Nat.zero_add] at hplan
    obtain ⟨_, hbinding, _⟩ | ⟨e, _, he⟩ :=
      witnessPlan_of_complete scriptHash (hcomplete i input hi)
    · exact hbinding
    · rw [hplan] at he
      cases he
  · cases hv : fromCompact scriptHash tx with
    | ok v => exact ⟨v, rfl⟩
    | error e =>
      obtain ⟨i, input, hi, he⟩ := herror e hv
      rw [hall i input hi] at he
      cases he

end

namespace VerifiedCompletion

/-- Any signature verifies under these. -/
def lenientCrypto : SignatureCrypto := ⟨fun _ => zeros 32, fun _ _ _ => true⟩

/-- The script of `nestedEscrow`, hashed to zeros, with the inner branch's key signed. -/
def escrowSpend : Compact.Transaction where
  flags := 0
  version := 0
  locktime := 0
  subnetwork := zeros 20
  gas := 0
  payload := []
  network := 1
  inputs := [{ Compact.Input.empty with
    script := [OP_BLAKE2B, OP_DATA_32] ++ List.replicate 32 0 ++ [OP_EQUAL]
    redeem := nestedEscrow
    signatures := [⟨1, 1, zeros 64⟩]
    covenantExecution := some (0b11, 0b10) }]
  outputs := []
  stealth := none

end VerifiedCompletion

theorem complete_fails_only_by_binding_escrow :
    verifiedComplete lenientCrypto escrowSpend = .ok true ∧
      ∃ v, fromCompact (fun _ => zeros 32) escrowSpend = .ok v := by
  have hcomplete : verifiedComplete lenientCrypto escrowSpend = .ok true := by decide
  refine ⟨hcomplete, (complete_fails_only_by_binding (fun _ => zeros 32) hcomplete).2.mpr ?_⟩
  intro i input hi
  match i, hi with
  | 0, hi =>
    obtain rfl := Option.some.inj hi
    decide
  | _ + 1, hi => cases hi

end KaspaPortal.Guarantees
