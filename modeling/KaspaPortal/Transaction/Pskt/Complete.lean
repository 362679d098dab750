import KaspaPortal.Transaction.Pskt.Compact

/-!
# What completion means

`verified_complete`, in terms of the transaction alone: every input carries as many
signatures as it needs, at distinct positions, and each verifies under the key that
the input binds to its position.
-/
namespace KaspaPortal.Transaction.Pskt
open Lib Primitives Model Contract.Covenant

/-- The covenant key at a position, on the path the selectors choose when there are any. -/
def covenantKey (redeem : Bytes) (execution : Option (UInt16 × UInt16)) (position : UInt8) :
    Option (FixedBytes 32) :=
  match resolveCovenantBranches redeem with
  | .error _ => none
  | .ok branches => (branches.keys[position.toNat]?).bind fun binding =>
      if matchesExecution binding execution then some binding.key else none

/-- The key an input binds to a position. -/
def boundKey (input : Compact.Input) (position : UInt8) : Option (FixedBytes 32) :=
  if input.redeem = [] then (p2pkXonly input.script).filter fun _ => position == 0
  else if (parseMultisigRedeem input.redeem).isSome then multisigXonly input.redeem position
  else covenantKey input.redeem input.covenantExecution position

theorem covenantBoundKey_eq_ok {input : Compact.Input} {index : Nat} {position : UInt8}
    {key : FixedBytes 32} : covenantBoundKey input index position = .ok key ↔
      covenantKey input.redeem input.covenantExecution position = some key := by
  unfold covenantBoundKey resolveBranches covenantKey BranchResolution.keyAt
  simp only [bind_eq_ok, mapError_eq_ok, okOr_eq_ok, rejectIf_eq_ok, Bool.not_eq_false]
  cases resolveCovenantBranches input.redeem with
  | error e => simp
  | ok branches =>
    simp only [Except.ok.injEq, exists_eq_left', Option.bind_eq_some_iff]
    apply exists_congr
    intro binding
    apply and_congr_right
    intro _
    by_cases hmatch : matchesExecution binding input.covenantExecution = true
    · simp [hmatch, pure, Except.pure]
    · simp [hmatch]

theorem boundPublicKey_eq_ok {input : Compact.Input} {index : Nat} {signature : Signature}
    {key : FixedBytes 32} :
    boundPublicKey input index signature = .ok key ↔ boundKey input signature.position = some key := by
  unfold boundPublicKey boundKey
  split
  · rw [p2pkBoundKey, okOr_eq_ok]
  · split
    · rw [okOr_eq_ok]
    · exact covenantBoundKey_eq_ok

section verification
variable {crypto : SignatureCrypto} {tx : Compact.Transaction}

/-- The signature commits to everything and verifies under the key its position binds. -/
def Signs (crypto : SignatureCrypto) (input : Compact.Input) (message : FixedBytes 32)
    (signature : Signature) : Prop :=
  signature.sighash = 0x01 ∧ ∃ key, boundKey input signature.position = some key ∧
    crypto.schnorrVerify key message signature.bytes = true

theorem verifyOneInputSignature_eq_ok {input : Compact.Input} {index : Nat} {signature : Signature}
    {message : FixedBytes 32} {seen : List UInt8} {u : Unit} :
    verifyOneInputSignature crypto input index signature message seen = .ok u ↔
      Signs crypto input message signature ∧ signature.position ∉ seen := by
  unfold verifyOneInputSignature requireSighashAll verifyBip340 Signs
  simp only [bind_eq_ok, rejectIf_eq_ok, mapError_eq_ok, boundPublicKey_eq_ok, Decidable.not_not,
    Bool.not_eq_false, exists_const]
  constructor
  · intro h
    obtain ⟨hsighash, hnew, key, hkey, hverify⟩ := h
    exact ⟨⟨hsighash, key, hkey, hverify⟩, hnew⟩
  · intro h
    obtain ⟨⟨hsighash, key, hkey, hverify⟩, hnew⟩ := h
    exact ⟨hsighash, hnew, key, hkey, hverify⟩

theorem verifySignatures_eq_ok {input : Compact.Input} {index : Nat} {message : FixedBytes 32}
    (signatures : List Signature) (seen : List UInt8) {u : Unit} :
    verifySignatures crypto input index message seen signatures = .ok u ↔
      (∀ signature ∈ signatures, Signs crypto input message signature ∧
        signature.position ∉ seen) ∧ (signatures.map Signature.position).Nodup := by
  induction signatures generalizing seen with
  | nil => simp [verifySignatures]
  | cons first rest ih =>
    rw [verifySignatures, bind_eq_ok]
    simp only [verifyOneInputSignature_eq_ok, ih, List.mem_cons, not_or, List.map_cons,
      List.nodup_cons, List.mem_map, not_exists, not_and, forall_eq_or_imp, exists_const]
    constructor
    · intro h
      obtain ⟨hfirst, hrest, hnodup⟩ := h
      exact ⟨⟨hfirst, fun s hs => ⟨(hrest s hs).1, (hrest s hs).2.2⟩⟩,
        fun s hs => (hrest s hs).2.1, hnodup⟩
    · intro h
      obtain ⟨⟨hfirst, hrest⟩, hother, hnodup⟩ := h
      exact ⟨hfirst, fun s hs => ⟨(hrest s hs).1, hother s hs, (hrest s hs).2⟩, hnodup⟩

/-- An input has what completes it. -/
structure Complete (crypto : SignatureCrypto) (tx : Compact.Transaction) (index : Nat)
    (input : Compact.Input) : Prop where
  required : requiredSignatureCount index input = .ok (some input.signatures.length)
  positions : (input.signatures.map Signature.position).Nodup
  signed : ∀ signature ∈ input.signatures, Signs crypto input (sighashAll crypto tx index) signature

theorem inputComplete_eq_true {index : Nat} {input : Compact.Input} :
    inputComplete crypto tx index input = .ok true ↔ Complete crypto tx index input := by
  have hcomplete : Complete crypto tx index input ↔
      requiredSignatureCount index input = .ok (some input.signatures.length) ∧
        verifyInputSignatures crypto tx index input = .ok () := by
    rw [verifyInputSignatures, verifySignatures_eq_ok]
    simp only [List.not_mem_nil, not_false_eq_true, and_true]
    exact ⟨fun h => ⟨h.required, h.signed, h.positions⟩, fun h => ⟨h.1, h.2.2, h.2.1⟩⟩
  rw [hcomplete, inputComplete]
  cases requiredSignatureCount index input with
  | error e => simp [bind, Except.bind]
  | ok required =>
    cases required with
    | none => simp [bind, Except.bind, pure, Except.pure]
    | some required =>
      by_cases hlen : input.signatures.length = required
      · cases hverify : verifyInputSignatures crypto tx index input with
        | error e => simp [bind, Except.bind, hlen]
        | ok u => simp [bind, Except.bind, hlen, pure, Except.pure]
      · have hne : required ≠ input.signatures.length := fun he => hlen he.symm
        simp [bind, Except.bind, hlen, hne, pure, Except.pure]

theorem inputsComplete_eq_true (start : Nat) (inputs : List Compact.Input) :
    inputsComplete crypto tx start inputs = .ok true ↔ ∀ (i : Nat) (input : Compact.Input),
      inputs[i]? = some input → Complete crypto tx (start + i) input := by
  induction inputs generalizing start with
  | nil => simp [inputsComplete]
  | cons first rest ih =>
    have hsplit : (∀ (i : Nat) (input : Compact.Input), (first :: rest)[i]? = some input →
        Complete crypto tx (start + i) input) ↔ Complete crypto tx start first ∧
          ∀ (i : Nat) (input : Compact.Input), rest[i]? = some input →
            Complete crypto tx (start + 1 + i) input := by
      constructor
      · intro h
        refine ⟨h 0 first rfl, fun i input hi => ?_⟩
        have := h (i + 1) input (by simpa using hi)
        rwa [show start + 1 + i = start + (i + 1) by omega]
      · intro h i input hi
        cases i with
        | zero =>
          obtain rfl : first = input := by simpa using hi
          exact h.1
        | succ i =>
          have := h.2 i input (by simpa using hi)
          rwa [show start + (i + 1) = start + 1 + i by omega]
    rw [inputsComplete, hsplit, ← ih, ← inputComplete_eq_true]
    cases inputComplete crypto tx start first with
    | error e => simp [bind, Except.bind]
    | ok complete => cases complete <;> simp [bind, Except.bind, pure, Except.pure]

theorem verifiedComplete_eq_true :
    verifiedComplete crypto tx = .ok true ↔ tx.inputs ≠ [] ∧ ∀ (i : Nat) (input : Compact.Input),
      tx.inputs[i]? = some input → Complete crypto tx i input := by
  unfold verifiedComplete
  split
  · rename_i hnil
    simp [hnil]
  · rename_i hsome
    rw [inputsComplete_eq_true]
    simp [hsome]

end verification

end KaspaPortal.Transaction.Pskt
