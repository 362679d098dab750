import KaspaPortal.Transaction.Kspt.Signing.Edits

/-!
# What every entry point changes

Whether it succeeds or fails, a call that signs with the loaded seeds leaves inputs that only got more
signatures; the others may set the only signature of an input.
-/
namespace KaspaPortal.Transaction.Kspt
open Lib Primitives Model Crypto.AntiKlepto AntiKlepto

variable {signer : Signer} {P : TransactionInput → TransactionInput → Prop} {tx : Transaction}
  {sighashType : SigHashType}

/-- A check changes nothing. -/
theorem leads_checkBase (h : Cumulative P) : Leads (Edits P) tx checkBase :=
  leads_bind_get (leads_ofExcept (cumulative_edits h) _)

theorem leads_signOne (h : Cumulative P) (inputIndex : Nat) (privateKey : FixedBytes 32)
    (signingEntropy : Option (FixedBytes 32)) :
    Leads (Edits P) tx (signOne signer inputIndex privateKey sighashType signingEntropy) :=
  leads_bind_get (leads_ofExcept (cumulative_edits h) _)

/-- By recursion on the count: signing input after input only edits inputs. -/
theorem leads_signEach (h : Cumulative P) {count : Nat} {sign : Nat → Signing Nat}
    (hsign : ∀ tx inputIndex, Leads (Edits P) tx (sign inputIndex)) : Leads (Edits P) tx (signEach count sign) := by
  apply leads_foldlM (cumulative_edits h)
  intro total inputIndex tx _
  apply leads_bind (cumulative_edits h) (hsign tx inputIndex)
  intro added tx _
  exact leads_pure (cumulative_edits h) _

/-- One signature into one input, where that is allowed. -/
theorem leads_signSingle (h : Cumulative P) {inputIndex : Nat} {material : SigningKeyMaterial}
    {signingEntropy : Option (FixedBytes 32)} {pubkeyPosition : UInt8}
    (hset : ∀ input signature, tx.inputs[inputIndex]? = some input →
      signer.signInput tx inputIndex material.privateKey sighashType signingEntropy = some signature →
      P input
        (setSingleSignature input signature sighashType.toByte pubkeyPosition material.compressedPublicKey)) :
    Leads (Edits P) tx (signSingle signer inputIndex material sighashType signingEntropy pubkeyPosition) := by
  have hmove := cumulative_edits h
  rw [signSingle, signOne, bind_assoc]
  apply leads_bind_get
  apply leads_bind_ofExcept hmove
  intro signature hsigned
  exact leads_modify
    (edits_modifyInput h fun input hinput => hset input signature hinput (okOr_eq_ok.mp hsigned))

/-- The call with a raw key answers with signatures, and leaves the transaction as it was. -/
theorem leads_signTransaction (h : Cumulative P) (privateKey : FixedBytes 32)
    (signingEntropy : Option (FixedBytes 32)) :
    Leads (Edits P) tx (signTransaction signer privateKey sighashType signingEntropy) := by
  have hmove := cumulative_edits h
  apply leads_bind hmove (leads_checkBase h)
  intro _ tx _
  apply leads_bind_get
  apply leads_foldlM hmove
  intro response inputIndex tx _
  apply leads_bind hmove (leads_signOne h _ _ _)
  intro signature tx _
  exact leads_ofExcept hmove _

/-! ## Entry points that set the only signature -/

/-- The calls of one key set the first slot and no other. -/
theorem leads_setSingle {inputIndex : Nat} {material : SigningKeyMaterial}
    {signingEntropy : Option (FixedBytes 32)} {pubkeyPosition : UInt8} :
    Leads (Edits (Sets signer sighashType)) tx
      (signSingle signer inputIndex material sighashType signingEntropy pubkeyPosition) :=
  leads_signSingle cumulative_sets fun input _ hinput hsigned =>
    sets_setSingleSignature ⟨tx, inputIndex, input, _, _, hinput, .refl input, hsigned⟩ _ _

theorem leads_signTransactionInPlace (privateKey : FixedBytes 32) (signingEntropy : Option (FixedBytes 32)) :
    Leads (Edits (Sets signer sighashType)) tx
      (signTransactionInPlace signer privateKey sighashType signingEntropy) := by
  have hmove := cumulative_edits (@cumulative_sets signer sighashType)
  apply leads_bind hmove (leads_checkBase cumulative_sets)
  intro _ tx _
  apply leads_bind_ofExcept hmove
  intro material _
  apply leads_bind_get
  refine leads_bind hmove (leads_signEach cumulative_sets fun tx inputIndex => ?_) fun _ tx _ => leads_pure hmove _
  exact leads_bind hmove leads_setSingle fun _ tx _ => leads_pure hmove _

theorem leads_signMatchingInput (inputIndex : Nat) (privateKey signingEntropy : FixedBytes 32) :
    Leads (Edits (Sets signer sighashType)) tx
      (signMatchingInputInPlace signer inputIndex privateKey sighashType signingEntropy) := by
  have hmove := cumulative_edits (@cumulative_sets signer sighashType)
  apply leads_bind_get
  apply leads_bind_ofExcept hmove
  intro target _
  cases target with
  | none => exact leads_pure hmove _
  | some target =>
    apply leads_bind_ofExcept hmove
    intro material _
    split
    case isTrue => exact leads_pure hmove _
    case isFalse => exact leads_bind hmove leads_setSingle fun _ tx _ => leads_pure hmove _

/-- The same over all inputs. -/
theorem leads_signMatchingInputs (privateKey signingEntropy : FixedBytes 32) :
    Leads (Edits (Sets signer sighashType)) tx
      (signMatchingInputsInPlace signer privateKey sighashType signingEntropy) := by
  have hmove := cumulative_edits (@cumulative_sets signer sighashType)
  apply leads_bind hmove (leads_checkBase cumulative_sets)
  intro _ tx _
  apply leads_bind_ofExcept hmove
  intro material _
  apply leads_bind_get
  refine leads_bind hmove (leads_signEach cumulative_sets fun tx inputIndex => ?_)
    fun _ tx _ => leads_ofExcept hmove _
  apply leads_bind_get
  split
  case isTrue => exact leads_bind hmove leads_setSingle fun _ tx _ => leads_pure hmove _
  case isFalse => exact leads_pure hmove _

theorem leads_signStandardInput (inputIndex : Nat) (account : AccountKeys) (target : FixedBytes 32)
    (signingEntropy : Option (FixedBytes 32)) :
    Leads (Edits (Sets signer sighashType)) tx
      (signStandardInput signer inputIndex account target sighashType signingEntropy) := by
  have hmove := cumulative_edits (@cumulative_sets signer sighashType)
  apply leads_bind_get
  apply leads_bind_ofExcept hmove
  intro key _
  cases key with
  | none => exact leads_pure hmove _
  | some key =>
    apply leads_bind_ofExcept hmove
    intro compressed _
    exact leads_bind hmove leads_setSingle fun _ tx _ => leads_pure hmove _

theorem leads_signStealthInput (inputIndex : Nat) (account : AccountKeys) (target : FixedBytes 32)
    (signingEntropy : Option (FixedBytes 32)) :
    Leads (Edits (Sets signer sighashType)) tx
      (signStealthInput signer inputIndex account target sighashType signingEntropy) := by
  have hmove := cumulative_edits (@cumulative_sets signer sighashType)
  apply leads_bind_get
  apply leads_bind_ofExcept hmove
  intro material _
  split
  case isTrue => exact leads_pure hmove _
  case isFalse => exact leads_bind hmove leads_setSingle fun _ tx _ => leads_pure hmove _

/-- The calls of an account, by the kind of address. -/
theorem leads_signAccountTarget (inputIndex : Nat) (account : AccountKeys) (target : Option (FixedBytes 32))
    (signingEntropy : Option (FixedBytes 32)) :
    Leads (Edits (Sets signer sighashType)) tx
      (signAccountTarget signer inputIndex account target sighashType signingEntropy) := by
  have hmove := cumulative_edits (@cumulative_sets signer sighashType)
  cases target with
  | none => exact leads_pure hmove _
  | some target =>
    apply leads_bind hmove (leads_signStandardInput _ _ _ _)
    intro signed tx _
    apply leads_bind_get
    split
    case isTrue => exact leads_pure hmove _
    case isFalse =>
      split
      case isTrue => exact leads_signStealthInput _ _ _ _
      case isFalse => exact leads_pure hmove _

theorem leads_signAccountInput (inputIndex : Nat) (account : AccountKeys) (signingEntropy : FixedBytes 32) :
    Leads (Edits (Sets signer sighashType)) tx
      (signAccountInputWithEntropy signer inputIndex account sighashType signingEntropy) := by
  apply leads_bind_get
  apply leads_bind_ofExcept (cumulative_edits cumulative_sets)
  intro target _
  exact leads_signAccountTarget _ _ _ _

theorem leads_signTransactionMultiAddrAccount (account : AccountKeys) (signingEntropy : Option (FixedBytes 32)) :
    Leads (Edits (Sets signer sighashType)) tx
      (signTransactionMultiAddrAccount signer account sighashType signingEntropy) := by
  have hmove := cumulative_edits (@cumulative_sets signer sighashType)
  apply leads_bind hmove (leads_checkBase cumulative_sets)
  intro _ tx _
  apply leads_bind_get
  refine leads_bind hmove (leads_signEach cumulative_sets fun tx inputIndex => ?_)
    fun _ tx _ => leads_ofExcept hmove _
  apply leads_bind_get
  exact leads_bind hmove (leads_signAccountTarget _ _ _ _) fun _ tx _ => leads_pure hmove _

/-! ## Entry points that keep every signature -/

/-- The calls of seeds append to the slots. -/
theorem leads_appendSingle {inputIndex : Nat} {material : SigningKeyMaterial}
    {signingEntropy : Option (FixedBytes 32)} {pubkeyPosition : UInt8}
    (hunsigned : (inputAt tx inputIndex).sigCount = 0) :
    Leads (Edits (Appends sighashType.toByte)) tx
      (signSingle signer inputIndex material sighashType signingEntropy pubkeyPosition) := by
  apply leads_signSingle cumulative_appends
  intro input signature hinput _
  rw [inputAt_eq hinput] at hunsigned
  exact appends_setSingleSignature hunsigned signature _ _

theorem leads_storeAppended (inputIndex : Nat) (signature : FixedBytes 64) (pubkeyPosition : UInt8)
    (compressedPublicKey : FixedBytes 33) :
    Leads (Edits (Appends sighashType.toByte)) tx
      (storeAppended inputIndex signature sighashType pubkeyPosition compressedPublicKey) := by
  have hmove := cumulative_edits (@cumulative_appends sighashType.toByte)
  apply leads_bind_get
  refine leads_bind hmove (leads_modify (edits_modifyInput cumulative_appends fun input hinput => ?_))
    fun _ tx _ => leads_pure hmove _
  rw [inputAt_eq hinput]
  exact appends_appendSignature input signature _ _

theorem leads_signP2pkInput (inputIndex : Nat) (context : SigningContext)
    (signingEntropy : Option (FixedBytes 32)) :
    Leads (Edits (Appends sighashType.toByte)) tx
      (signP2pkInput signer inputIndex context sighashType signingEntropy) := by
  have hmove := cumulative_edits (@cumulative_appends sighashType.toByte)
  apply leads_bind_get
  dsimp only
  split
  case isTrue => exact leads_pure hmove _
  case isFalse hsigned =>
    split
    case h_1 => exact leads_pure hmove _
    case h_2 =>
      split
      case h_1 => exact leads_pure hmove _
      case h_2 =>
        exact leads_bind hmove (leads_appendSingle (Decidable.of_not_not hsigned)) fun _ tx _ => leads_pure hmove _

/-- One position of a script is signed at most once. -/
theorem leads_signMultisigPosition (inputIndex : Nat) (multisig : MultisigInfo) (context : SigningContext)
    (signingEntropy : Option (FixedBytes 32)) (target : FixedBytes 32) (position : UInt8) :
    Leads (Edits (Appends sighashType.toByte)) tx
      (signMultisigPosition signer inputIndex multisig context sighashType signingEntropy target position) := by
  have hmove := cumulative_edits (@cumulative_appends sighashType.toByte)
  apply leads_bind_get
  split
  case isTrue => exact leads_pure hmove _
  case isFalse =>
    split
    case h_1 => exact leads_pure hmove _
    case h_2 =>
      apply leads_bind hmove (leads_signOne cumulative_appends _ _ _)
      intro signature tx _
      exact leads_storeAppended _ _ _ _

/-- The position of a cosigner is found by its key. -/
theorem leads_signMs45Seed (inputIndex : Nat) (multisig : MultisigInfo) (context : SigningContext)
    (signingEntropy : Option (FixedBytes 32)) (hint : Ms45Hint) (seed : Nat) :
    Leads (Edits (Appends sighashType.toByte)) tx
      (signMs45Seed signer inputIndex multisig context sighashType signingEntropy hint seed) := by
  have hmove := cumulative_edits (@cumulative_appends sighashType.toByte)
  rw [signMs45Seed]
  split
  case h_1 => exact leads_pure hmove _
  case h_2 =>
    split
    case h_1 => exact leads_pure hmove _
    case h_2 =>
      apply leads_bind_get
      split
      case isTrue => exact leads_pure hmove _
      case isFalse =>
        apply leads_bind hmove (leads_signOne cumulative_appends _ _ _)
        intro signature tx _
        exact leads_storeAppended _ _ _ _

theorem leads_signMultisigInput (inputIndex : Nat) (multisig : MultisigInfo) (context : SigningContext)
    (signingEntropy : Option (FixedBytes 32)) :
    Leads (Edits (Appends sighashType.toByte)) tx
      (signMultisigInput signer inputIndex multisig context sighashType signingEntropy) := by
  have hmove := cumulative_edits (@cumulative_appends sighashType.toByte)
  apply leads_bind_get
  dsimp only
  split
  case isTrue => exact leads_signEach cumulative_appends fun tx seed => leads_signMs45Seed _ _ _ _ _ seed
  case isFalse =>
    apply leads_foldlM hmove
    intro added entry tx _
    exact leads_bind hmove (leads_signMultisigPosition _ _ _ _ _ _) fun _ tx _ => leads_pure hmove _

/-- An input that has no signature gets at most one from the candidates. -/
theorem leads_signCovenantCandidates (inputIndex : Nat) (context : SigningContext) (activeSeedIndex : Option Nat)
    (signingEntropy : Option (FixedBytes 32)) (candidates : List (UInt8 × FixedBytes 32))
    (hunsigned : (inputAt tx inputIndex).sigCount = 0) :
    Leads (Edits (Appends sighashType.toByte)) tx
      (signCovenantCandidates signer inputIndex context sighashType activeSeedIndex signingEntropy
        candidates) := by
  have hmove := cumulative_edits (@cumulative_appends sighashType.toByte)
  induction candidates with
  | nil => exact leads_pure hmove _
  | cons candidate rest ih =>
    rw [signCovenantCandidates, signCovenantCandidate]
    split
    case h_1 =>
      rw [pure_bind, if_neg Bool.false_ne_true]
      exact ih
    case h_2 =>
      rw [bind_assoc]
      apply leads_bind hmove (leads_appendSingle hunsigned)
      intro _ tx _
      rw [pure_bind, if_pos rfl]
      exact leads_pure hmove _

theorem leads_signCovenantInput (inputIndex : Nat) (context : SigningContext) (activeSeedIndex : Option Nat)
    (signingEntropy : Option (FixedBytes 32)) :
    Leads (Edits (Appends sighashType.toByte)) tx
      (signCovenantInput signer inputIndex context sighashType activeSeedIndex signingEntropy) := by
  have hmove := cumulative_edits (@cumulative_appends sighashType.toByte)
  apply leads_bind_get
  split
  case isTrue => exact leads_pure hmove _
  case isFalse hsigned =>
    apply leads_bind_ofExcept hmove
    intro candidates _
    exact leads_signCovenantCandidates _ _ _ _ _ (Decidable.of_not_not hsigned)

/-- By the kind of script. -/
theorem leads_signSupportedInput (inputIndex : Nat) (context : SigningContext) (activeSeedIndex : Option Nat)
    (signingEntropy : Option (FixedBytes 32)) :
    Leads (Edits (Appends sighashType.toByte)) tx
      (signSupportedInput signer inputIndex context sighashType activeSeedIndex signingEntropy) := by
  apply leads_bind_get
  split
  case h_1 => exact leads_signP2pkInput _ _ _
  case h_2 => exact leads_signMultisigInput _ _ _ _
  case h_3 => exact leads_signMultisigInput _ _ _ _
  case h_4 => exact leads_signCovenantInput _ _ _ _
  case h_5 => exact leads_pure (cumulative_edits cumulative_appends) _

theorem leads_signTransactionWithContext (context : SigningContext) (activeSeedIndex : Option Nat)
    (signingEntropy : Option (FixedBytes 32)) :
    Leads (Edits (Appends sighashType.toByte)) tx
      (signTransactionWithContext signer context sighashType activeSeedIndex signingEntropy) := by
  have hmove := cumulative_edits (@cumulative_appends sighashType.toByte)
  apply leads_bind hmove (leads_checkBase cumulative_appends)
  intro _ tx _
  apply leads_bind_get
  exact leads_bind hmove (leads_signEach cumulative_appends fun tx inputIndex => leads_signSupportedInput _ _ _ _)
    fun _ tx _ => leads_ofExcept hmove _

theorem leads_signClassifiedAccountInput (inputIndex : Nat) (context : SigningContext)
    (activeAccountIdx : Option Nat) (signingEntropy : FixedBytes 32) (scriptType : ScriptType)
    (multisig : Option MultisigInfo) :
    Leads (Edits (Appends sighashType.toByte)) tx
      (signClassifiedAccountInput signer inputIndex context sighashType activeAccountIdx signingEntropy scriptType
        multisig) := by
  unfold signClassifiedAccountInput
  split
  case isTrue => exact leads_signP2pkInput _ _ _
  case isFalse =>
    cases multisig with
    | some info => exact leads_signMultisigInput _ _ _ _
    | none =>
      dsimp only
      split
      case isTrue => exact leads_pure (cumulative_edits cumulative_appends) _
      case isFalse => exact leads_signCovenantInput _ _ _ _

theorem leads_signMultisigAccountsInput (inputIndex : Nat) (context : SigningContext)
    (activeAccountIdx : Option Nat) (signingEntropy : FixedBytes 32) :
    Leads (Edits (Appends sighashType.toByte)) tx
      (signMultisigAccountsInput signer inputIndex context sighashType activeAccountIdx signingEntropy) := by
  have hmove := cumulative_edits (@cumulative_appends sighashType.toByte)
  apply leads_bind hmove (leads_checkBase cumulative_appends)
  intro _ tx _
  apply leads_bind_get
  apply leads_bind_ofExcept hmove
  intro _ _
  exact leads_signClassifiedAccountInput _ _ _ _ _ _

variable (signer tx sighashType) in
/-- Every call that is not of seeds only sets first slots. -/
theorem leads_call_sets {entry : EntryPoint} (h : entry.ofSeeds = false) :
    Leads (Edits (Sets signer sighashType)) tx (entry.call signer sighashType) := by
  have hmove := cumulative_edits (@cumulative_sets signer sighashType)
  cases entry with
  | transaction privateKey entropy =>
    exact leads_bind hmove (leads_signTransaction cumulative_sets _ _) fun _ _ _ => leads_pure hmove ()
  | inPlace privateKey entropy =>
    exact leads_bind hmove (leads_signTransactionInPlace _ _) fun _ _ _ => leads_pure hmove ()
  | matchingInput inputIndex privateKey entropy =>
    exact leads_bind hmove (leads_signMatchingInput _ _ _) fun _ _ _ => leads_pure hmove ()
  | matchingInputs privateKey entropy =>
    exact leads_bind hmove (leads_signMatchingInputs _ _) fun _ _ _ => leads_pure hmove ()
  | accountInput inputIndex account entropy =>
    exact leads_bind hmove (leads_signAccountInput _ _ _) fun _ _ _ => leads_pure hmove ()
  | accountInputs account entropy =>
    exact leads_bind hmove (leads_signTransactionMultiAddrAccount _ _) fun _ _ _ => leads_pure hmove ()
  | seedInputs account entropy =>
    refine leads_bind hmove ?_ fun _ _ _ => leads_pure hmove ()
    apply leads_bind_ofExcept hmove
    intro account _
    exact leads_signTransactionMultiAddrAccount _ _
  | multisig context active entropy => cases h
  | multisigInput inputIndex context active entropy => cases h

variable (signer tx sighashType) in
/-- Every call of seeds only appends. -/
theorem leads_call_appends {entry : EntryPoint} (h : entry.ofSeeds = true) :
    Leads (Edits (Appends sighashType.toByte)) tx (entry.call signer sighashType) := by
  have hmove := cumulative_edits (@cumulative_appends sighashType.toByte)
  cases entry with
  | multisig context active entropy =>
    exact leads_bind hmove (leads_signTransactionWithContext _ _ _) fun _ _ _ => leads_pure hmove ()
  | multisigInput inputIndex context active entropy =>
    exact leads_bind hmove (leads_signMultisigAccountsInput _ _ _ _) fun _ _ _ => leads_pure hmove ()
  | _ => cases h

/-- The slots of an input after a call. -/
structure Kept (signer : Signer) (ofSeeds : Bool) (hashType : SigHashType)
    (before after : TransactionInput) : Prop extends SameBody hashType.toByte before after where
  rules : SlotRules after
  appended : ofSeeds = true → signatures before <+: signatures after
  replaced : ofSeeds = false → signatures after = signatures before ∨
    ∃ slot, signatures after = [slot] ∧ signer.SignsFor hashType before slot.signature
  fresh : ∀ slot ∈ signatures after, slot ∈ signatures before ∨ slot.sighashType = hashType.toByte

/-- Appending keeps the signatures and the rules of the slots. -/
theorem Appends.kept {before after : TransactionInput} (h : Appends sighashType.toByte before after)
    (hrules : SlotRules before) : Kept signer true sighashType before after := by
  obtain ⟨hafter, added, hsignatures, hadded⟩ := h.slots hrules
  refine ⟨h.toSameBody, hafter, fun _ => ⟨added, hsignatures.symm⟩, nofun, ?_⟩
  rw [hsignatures]
  exact List.forall_mem_append.mpr ⟨fun slot hslot => .inl hslot, fun slot hslot => .inr (hadded slot hslot)⟩

/-- The slots are as they were, or the signature that was set is the only one. -/
theorem Sets.kept {before after : TransactionInput} (h : Sets signer sighashType before after)
    (hrules : SlotRules before) : Kept signer false sighashType before after := by
  obtain ⟨hafter, hsame | ⟨slot, hset, hsighash, hsigned⟩⟩ := h.slots hrules
  · exact ⟨h.toSameBody, hafter, nofun, fun _ => .inl hsame, fun slot hslot => .inl (hsame ▸ hslot)⟩
  · refine ⟨h.toSameBody, hafter, nofun, fun _ => .inr ⟨slot, hset, hsigned⟩, ?_⟩
    rw [hset]
    exact List.forall_mem_singleton.mpr (.inr hsighash)

/-- So every call keeps the rules, whatever it signs. -/
theorem call_kept (signer : Signer) (entry : EntryPoint) (sighashType : SigHashType) (tx : Transaction)
    (hrules : ∀ input ∈ tx.inputs, SlotRules input) :
    Edits (Kept signer entry.ofSeeds sighashType) tx (outcome (entry.call signer sighashType) tx).2 := by
  cases hentry : entry.ofSeeds with
  | true =>
    have hcall : Edits (Appends sighashType.toByte) tx _ := leads_call_appends signer tx sighashType hentry
    exact ⟨hcall.frame, forall₂_mono hcall.inputs fun before after hmem h => h.kept (hrules before hmem)⟩
  | false =>
    have hcall : Edits (Sets signer sighashType) tx _ := leads_call_sets signer tx sighashType hentry
    exact ⟨hcall.frame, forall₂_mono hcall.inputs fun before after hmem h => h.kept (hrules before hmem)⟩

end KaspaPortal.Transaction.Kspt
