import KaspaPortal.Transaction.Kspt.Codec

/-!
# Who controls an input

The signer's verification, in terms of what the compact format carries of an input:
its script, its redeem script and its covenant selectors decide how many signatures
it needs and which key signs at a position; where the redeem script is stored does
not matter.

Inputs that no script of the signer's kinds controls stay without keys, and are not
completed by anyone here.
-/
namespace KaspaPortal.Transaction.Kspt
open Lib Primitives Model Contract.Covenant

/-- The kind of script, and the keys when it is a multisig. -/
def controlling (script redeem : Bytes) : ScriptType × Option MultisigInfo :=
  if detectScriptType script = .p2sh ∧ redeem ≠ [] then
    (.p2sh, if detectScriptType redeem = .multisig then parseMultisigScript redeem else none)
  else
    (detectScriptType script,
      if detectScriptType script = .multisig then parseMultisigScript script else none)

/-- The keys of a covenant whose branches the selectors exactly cover. -/
def coveredBranches (redeem : Bytes) (execution : CovenantExecution) : Option BranchResolution :=
  match resolveCovenantBranches redeem with
  | .error _ => none
  | .ok resolved =>
    if validCovenantExecution execution = true ∧
        execution.suppliedMask.toBitVec = resolved.selectorMask then some resolved
    else none

/-- The key is on the path the selectors choose. -/
def CovenantExecution.selects (execution : CovenantExecution) (binding : BranchKey) : Bool :=
  binding.matchesSelectors execution.suppliedMask.toBitVec execution.suppliedTrueMask.toBitVec

def covenantSignatures (redeem : Bytes) (execution : Option CovenantExecution) : Option UInt8 :=
  execution.bind fun v => (coveredBranches redeem v).bind fun resolved =>
    let count := UInt8.ofNat (resolved.keys.countP v.selects)
    if 0 < count ∧ count.toNat ≤ MAX_SIGS_PER_INPUT then some count else none

def covenantKey (redeem : Bytes) (execution : Option CovenantExecution) (position : UInt8) :
    Option (FixedBytes 32) :=
  execution.bind fun v => (coveredBranches redeem v).bind fun resolved =>
    (resolved.keys[position.toNat]?).bind fun binding =>
      if v.selects binding then some binding.key else none

/-- How many signatures the input needs. -/
def requiredSignatures (script redeem : Bytes) (execution : Option CovenantExecution) :
    Option UInt8 :=
  match controlling script redeem with
  | (.p2pk, _) => some 1
  | (.multisig, some info) | (.p2sh, some info) => some info.m
  | (.p2sh, none) => covenantSignatures redeem execution
  | _ => none

/-- The key that signs at a position. -/
def signingKey (script redeem : Bytes) (execution : Option CovenantExecution) (position : UInt8) :
    Option (FixedBytes 32) :=
  match controlling script redeem with
  | (.p2pk, _) => if position = 0 then p2pkXonly script else none
  | (.multisig, some info) | (.p2sh, some info) => info.pubkeys[position.toNat]?
  | (.p2sh, none) => covenantKey redeem execution position
  | _ => none

section
variable {tx : Transaction} {index : Nat} {input : TransactionInput} {redeem : Bytes}

theorem checkedRedeemBytes_of (hi : tx.inputs[index]? = some input)
    (hr : checkedRedeem tx input = .ok redeem) : checkedRedeemBytes tx index = .ok redeem := by
  rw [checkedRedeemBytes, hi]
  exact hr

theorem analyzeInputScript_eq (hi : tx.inputs[index]? = some input)
    (hr : checkedRedeem tx input = .ok redeem) :
    analyzeInputScript tx index = controlling input.utxoEntry.scriptPublicKey.script redeem := by
  have hlen : input.redeemScriptLen ≠ 0 ↔ redeem ≠ [] := by
    rw [← (checkedRedeem_length hr).1, Ne, List.length_eq_zero_iff]
  simp only [analyzeInputScript, tryAnalyzeInputScript, hi, checkedRedeemBytes_of hi hr, hlen,
    controlling]
  split <;> rfl

theorem validateCovenantExecutionBinding_eq_ok {selectorMask : BitVec 16} {u : Unit} :
    validateCovenantExecutionBinding input selectorMask = .ok u ↔
      ∃ v, wireExecution input = some v ∧ validCovenantExecution v = true ∧
        v.suppliedMask.toBitVec = selectorMask := by
  unfold validateCovenantExecutionBinding wireExecution
  simp only [bind_eq_ok, rejectIf_eq_ok]
  constructor
  · intro h
    obtain ⟨_, hpresent, _, hvalid, hmask⟩ := h
    refine ⟨_, if_pos (by simpa using hpresent), ?_, Decidable.of_not_not hmask⟩
    simpa [validCovenantExecution] using hvalid
  · intro h
    obtain ⟨v, hv, hvalid, hmask⟩ := h
    split at hv
    · rename_i hpresent
      cases hv
      exact ⟨(), by simp [hpresent], (), by simpa [validCovenantExecution] using hvalid,
        fun hc => hc hmask⟩
    · cases hv

theorem resolvedExecution_eq_ok (hi : tx.inputs[index]? = some input)
    (hr : checkedRedeem tx input = .ok redeem) {input' : TransactionInput}
    {resolved : BranchResolution} :
    resolvedExecution tx index = .ok (input', resolved) ↔ input' = input ∧
      ∃ v, wireExecution input = some v ∧ coveredBranches redeem v = some resolved := by
  unfold resolvedExecution
  simp only [bind_eq_ok, okOr_eq_ok, mapError_eq_ok, hi, checkedRedeemBytes_of hi hr,
    validateCovenantExecutionBinding_eq_ok]
  constructor
  · intro ⟨i, hsome, r, hok, res, hres, _, ⟨v, hv, hvalid, hmask⟩, hpair⟩
    cases hsome
    cases hok
    cases hpair
    exact ⟨rfl, v, hv, by simp [coveredBranches, hres, hvalid, hmask]⟩
  · intro ⟨hinput, v, hv, hcov⟩
    subst hinput
    unfold coveredBranches at hcov
    cases hres : resolveCovenantBranches redeem with
    | error e => simp [hres] at hcov
    | ok res =>
      simp only [hres] at hcov
      split at hcov
      · rename_i hboth
        cases hcov
        exact ⟨_, rfl, redeem, rfl, _, hres, (), ⟨v, hv, hboth⟩, rfl⟩
      · cases hcov

/-- On the path, by the input's own fields. -/
theorem onPath_eq {v : CovenantExecution} (hv : wireExecution input = some v) (binding : BranchKey) :
    onPath input binding = v.selects binding := by
  unfold wireExecution at hv
  split at hv
  · cases hv
    rfl
  · cases hv

theorem covenantRequiredForExecution_eq (hi : tx.inputs[index]? = some input)
    (hr : checkedRedeem tx input = .ok redeem) :
    covenantRequiredForExecution tx index = covenantSignatures redeem (wireExecution input) := by
  have hspec := fun input' resolved => @resolvedExecution_eq_ok tx index input redeem hi hr input' resolved
  unfold covenantRequiredForExecution covenantSignatures
  cases hres : resolvedExecution tx index with
  | error e =>
    simp only
    cases hv : wireExecution input with
    | none => rfl
    | some v =>
      cases hcov : coveredBranches redeem v with
      | none => simp [hcov]
      | some resolved =>
        have := (hspec input resolved).mpr ⟨rfl, v, hv, hcov⟩
        rw [hres] at this
        cases this
  | ok pair =>
    obtain ⟨hinput, v, hv, hcov⟩ := (hspec pair.1 pair.2).mp hres
    have hpath : onPath input = v.selects := funext fun binding => onPath_eq hv binding
    simp only [activeExecutionKeyCount, hinput, hv, hcov, hpath, Option.bind_some]

theorem requiredForInput_eq (hi : tx.inputs[index]? = some input)
    (hr : checkedRedeem tx input = .ok redeem) :
    requiredForInput tx index = requiredSignatures input.utxoEntry.scriptPublicKey.script redeem
      (wireExecution input) := by
  have hcov := covenantRequiredForExecution_eq hi hr
  unfold requiredForInput requiredSignatures
  rw [analyzeInputScript_eq hi hr]
  obtain ⟨kind, info⟩ := controlling input.utxoEntry.scriptPublicKey.script redeem
  cases kind <;> cases info <;> first | rfl | exact hcov

theorem keyAt_eq_ok {resolved : BranchResolution} {position : UInt8} {binding : BranchKey} :
    resolved.keyAt position = .ok binding ↔ resolved.keys[position.toNat]? = some binding :=
  okOr_eq_ok

/-- A covenant signature is checked against the key at its position, on the path. -/
theorem covenant_key_eq_ok (hi : tx.inputs[index]? = some input)
    (hr : checkedRedeem tx input = .ok redeem) {position : UInt8} {key : FixedBytes 32} :
    covenantXonlyForPosition tx index position = .ok key ∧
      covenantPositionMatchesExecution tx index position = .ok () ↔
      covenantKey redeem (wireExecution input) position = some key := by
  unfold covenantXonlyForPosition covenantPositionMatchesExecution covenantKey
  simp only [bind_eq_ok, mapError_eq_ok, map_eq_ok, checkedRedeemBytes_of hi hr, rejectIf_eq_ok, keyAt_eq_ok,
    Bool.not_eq_false, Option.bind_eq_some_iff]
  constructor
  · intro h
    obtain ⟨⟨r, hok, res, hres, b, hb, hkey⟩, ⟨i, res'⟩, hexec, b', hb', hpath⟩ := h
    cases hok
    obtain ⟨rfl, v, hv, hcov⟩ := (resolvedExecution_eq_ok hi hr).mp hexec
    have hsame : res = res' := by
      unfold coveredBranches at hcov
      rw [hres] at hcov
      simp only at hcov
      split at hcov
      · exact Option.some.inj hcov
      · cases hcov
    subst hsame
    rw [hb] at hb'
    cases hb'
    rw [onPath_eq hv] at hpath
    exact ⟨v, hv, res, hcov, b, hb, by rw [if_pos hpath, hkey]⟩
  · intro h
    obtain ⟨v, hv, res, hcov, b, hb, hkey⟩ := h
    split at hkey
    · rename_i hpath
      cases hkey
      have hexec := (resolvedExecution_eq_ok hi hr).mpr ⟨rfl, v, hv, hcov⟩
      have hres : resolveCovenantBranches redeem = .ok res := by
        unfold coveredBranches at hcov
        split at hcov
        · cases hcov
        rename_i hres
        split at hcov
        · cases hcov
          exact hres
        · cases hcov
      exact ⟨⟨redeem, rfl, res, hres, b, hb, rfl⟩, (input, res), hexec, b, hb, by rw [onPath_eq hv]; exact hpath⟩
    · cases hkey

variable {crypto : SignatureCrypto}

/-- A signature is accepted when it verifies under the key at its position. -/
theorem verifySignatureBytes_eq_ok (hi : tx.inputs[index]? = some input)
    (hr : checkedRedeem tx input = .ok redeem) {position sighash : UInt8} {signature : FixedBytes 64}
    {u : Unit} :
    verifySignatureBytes crypto tx index position sighash signature = .ok u ↔
      sighash = SigHashType.all.toByte ∧ ∃ key, signingKey input.utxoEntry.scriptPublicKey.script redeem
        (wireExecution input) position = some key ∧
        crypto.schnorrVerify key (calculateSighash crypto.signingHash tx.sighashSource index .all)
          signature = true := by
  have hkey : ∀ key, expectedXonlyForPosition tx index position = .ok key ∧
      checkCovenantPosition tx index position = .ok () ↔
      signingKey input.utxoEntry.scriptPublicKey.script redeem (wireExecution input) position =
        some key := by
    intro key
    unfold expectedXonlyForPosition checkCovenantPosition signingKey
    rw [analyzeInputScript_eq hi hr]
    obtain ⟨kind, info⟩ := controlling input.utxoEntry.scriptPublicKey.script redeem
    cases kind with
    | p2pk =>
      simp only [p2pkXonlyForPosition, hi, bind_eq_ok, rejectIf_eq_ok, okOr_eq_ok, Decidable.not_not]
      by_cases hpos : position = 0
      · simp [hpos]
      · simp [hpos]
    | multisig => cases info <;> simp [multisigXonlyForPosition, okOr_eq_ok]
    | p2sh =>
      cases info with
      | none =>
        simp only [if_true]
        exact covenant_key_eq_ok hi hr
      | some info => simp [multisigXonlyForPosition, okOr_eq_ok]
    | unknown => simp
  unfold verifySignatureBytes
  simp only [bind_eq_ok, rejectIf_eq_ok, Decidable.not_not, Bool.not_eq_false]
  constructor
  · intro h
    obtain ⟨_, hsighash, key, hexp, _, hcheck, hverify⟩ := h
    exact ⟨hsighash, key, (hkey key).mp ⟨hexp, hcheck⟩, hverify⟩
  · intro h
    obtain ⟨hsighash, key, hsign, hverify⟩ := h
    obtain ⟨hexp, hcheck⟩ := (hkey key).mpr hsign
    exact ⟨(), hsighash, key, hexp, (), hcheck, hverify⟩

/-- The signatures of the declared slots, in slot order. -/
def declaredSignatures (input : TransactionInput) : List Signature :=
  (input.sigs.val.take input.sigCount.toNat).map wireSignature

theorem verifyKsptSlots_eq_ok (slots : List InputSig) :
    ∀ (declared : Nat) (seen : List UInt8) (count valid : UInt8),
      verifyKsptSlots crypto tx index declared seen count slots = .ok valid ↔
        ((∀ slot ∈ slots.take declared, slot.present = true ∧ verifySignatureBytes crypto tx index
            slot.pubkeyPos slot.sighashType slot.signature = .ok ()) ∧
          (∀ slot ∈ slots.drop declared, slot.present = false) ∧
          ((slots.take declared).map (·.pubkeyPos)).Nodup ∧
          ∀ slot ∈ slots.take declared, slot.pubkeyPos ∉ seen) ∧
        valid = count + UInt8.ofNat (slots.take declared).length := by
  induction slots with
  | nil =>
    intro declared seen count valid
    cases declared <;> simp [verifyKsptSlots, eq_comm (a := valid)]
  | cons slot slots ih =>
    intro declared seen count valid
    cases declared with
    | zero =>
      have hrest := ih 0 seen count valid
      simp only [List.take_zero, List.drop_zero] at hrest ⊢
      simp only [verifyKsptSlots, bind_eq_ok, rejectIf_eq_ok, hrest, List.forall_mem_cons, Bool.not_eq_true]
      constructor
      · intro ⟨_, hfree, h, hvalid⟩
        exact ⟨⟨by simp, ⟨hfree, h.2.1⟩, by simp, by simp⟩, hvalid⟩
      · intro ⟨⟨h₁, ⟨hfree, h⟩, h₃, h₄⟩, hvalid⟩
        exact ⟨(), hfree, ⟨h₁, h, h₃, h₄⟩, hvalid⟩
    | succ declared =>
      have hrest := ih declared (slot.pubkeyPos :: seen) (count + 1) valid
      have hslot : verifyKsptSlot crypto tx index slot seen = .ok () ↔ slot.present = true ∧
          slot.pubkeyPos ∉ seen ∧ verifySignatureBytes crypto tx index slot.pubkeyPos slot.sighashType
            slot.signature = .ok () := by
        unfold verifyKsptSlot
        simp only [bind_eq_ok, rejectIf_eq_ok]
        simp
      have hstep : verifyKsptSlots crypto tx index (declared + 1) seen count (slot :: slots) =
          (verifyKsptSlot crypto tx index slot seen >>= fun _ =>
            verifyKsptSlots crypto tx index declared (slot.pubkeyPos :: seen) (count + 1) slots) := rfl
      have hcount : count + UInt8.ofNat ((slots.take declared).length + 1) =
          count + 1 + UInt8.ofNat (slots.take declared).length := by
        rw [UInt8.ofNat_add, UInt8.add_assoc, UInt8.add_comm (UInt8.ofNat _)]
        rfl
      rw [hstep, bind_eq_ok, List.take_succ_cons, List.drop_succ_cons, List.map_cons, List.nodup_cons,
        List.forall_mem_cons, List.forall_mem_cons, List.length_cons, hcount]
      simp only [hrest, List.mem_cons, not_or, List.mem_map, not_exists, not_and]
      constructor
      · intro ⟨_, hs, ⟨hpres, hfree, hnodup, hnew⟩, hvalid⟩
        obtain ⟨h₁, h₂, h₃⟩ := hslot.mp hs
        exact ⟨⟨⟨⟨h₁, h₃⟩, hpres⟩, hfree, ⟨fun u hu => (hnew u hu).1, hnodup⟩, h₂,
          fun u hu => (hnew u hu).2⟩, hvalid⟩
      · intro ⟨⟨⟨⟨h₁, h₃⟩, hpres⟩, hfree, ⟨hfirst, hnodup⟩, h₂, hnew⟩, hvalid⟩
        exact ⟨(), hslot.mpr ⟨h₁, h₂, h₃⟩, ⟨hpres, hfree, hnodup, fun u hu => ⟨hfirst u hu, hnew u hu⟩⟩,
          hvalid⟩

/-- An input of a valid transaction is fully signed when it has as many signatures
as it needs and each verifies under the key at its position. -/
theorem inputIsFullySigned_iff (hi : tx.inputs[index]? = some input)
    (hr : checkedRedeem tx input = .ok redeem) (hslots : ValidSlots input) :
    inputIsFullySigned crypto tx index = true ↔
      requiredSignatures input.utxoEntry.scriptPublicKey.script redeem (wireExecution input) =
        some (UInt8.ofNat (declaredSignatures input).length) ∧
      ∀ v ∈ declaredSignatures input, ∃ key,
        signingKey input.utxoEntry.scriptPublicKey.script redeem (wireExecution input) v.position =
          some key ∧
        crypto.schnorrVerify key (calculateSighash crypto.signingHash tx.sighashSource index .all)
          v.bytes = true := by
  have hcount : verifiedCount crypto tx index = verifyKsptSlots crypto tx index input.sigCount.toNat [] 0
      input.sigs.val := by
    have hget : okOr SignatureValidationError.invalidModel (tx.inputs[index]?) = .ok input := by rw [hi, okOr]
    have hmax : (rejectIf (MAX_SIGS_PER_INPUT < input.sigCount.toNat)
        SignatureValidationError.invalidModel : Except _ Unit) = .ok () :=
      rejectIf_eq_ok.mpr (Nat.not_lt.mpr hslots.count)
    have hrun : verifiedKsptCount crypto tx index input = verifyKsptSlots crypto tx index
        input.sigCount.toNat [] 0 input.sigs.val := by
      rw [verifiedKsptCount, hmax]
      rfl
    rw [verifiedCount, hget, ← hrun]
    rfl
  -- a slot passes its check exactly when the signature it declares verifies
  have hall : (∀ slot ∈ input.sigs.val.take input.sigCount.toNat, slot.present = true ∧
      verifySignatureBytes crypto tx index slot.pubkeyPos slot.sighashType slot.signature = .ok ()) ↔
      ∀ v ∈ declaredSignatures input, ∃ key,
        signingKey input.utxoEntry.scriptPublicKey.script redeem (wireExecution input) v.position =
          some key ∧
        crypto.schnorrVerify key (calculateSighash crypto.signingHash tx.sighashSource index .all)
          v.bytes = true := by
    simp only [declaredSignatures, List.forall_mem_map, verifySignatureBytes_eq_ok hi hr]
    constructor
    · intro h slot hslot
      exact (h slot hslot).2.2
    · intro h slot hslot
      exact ⟨(hslots.present slot hslot).1, (hslots.present slot hslot).2, h slot hslot⟩
  have hlen : (declaredSignatures input).length = (input.sigs.val.take input.sigCount.toNat).length := by
    rw [declaredSignatures, List.length_map]
  unfold inputIsFullySigned
  rw [requiredForInput_eq hi hr, hcount, hlen]
  cases hreq : requiredSignatures input.utxoEntry.scriptPublicKey.script redeem (wireExecution input) with
  | none => simp
  | some required =>
    cases hver : verifyKsptSlots crypto tx index input.sigCount.toNat [] 0 input.sigs.val with
    | error e =>
      refine ⟨(by cases ·), fun h => ?_⟩
      have hv := h.2
      have hok := (verifyKsptSlots_eq_ok _ _ _ 0 _).mpr ⟨⟨hall.mpr hv, hslots.free, hslots.positions,
        fun _ _ => List.not_mem_nil⟩, rfl⟩
      rw [hver] at hok
      cases hok
    | ok valid =>
      obtain ⟨⟨hpres, _⟩, hvalid⟩ := (verifyKsptSlots_eq_ok _ _ _ _ _).mp hver
      have hv := hall.mp hpres
      rw [hvalid, UInt8.zero_add, Option.some.injEq]
      exact ⟨fun h => ⟨(beq_iff_eq.mp h).symm, hv⟩, fun h => beq_iff_eq.mpr h.1.symm⟩

end

end KaspaPortal.Transaction.Kspt
