import KaspaPortal.Lib.Effect
import KaspaPortal.Transaction.Kspt.AntiKlepto.Host
import KaspaPortal.Transaction.Kspt.SignedResponse
import KaspaPortal.Transaction.Kspt.Signing.Slots

/-!
# Signing a transaction

`src/transaction/interchange/kspt/signing/`: `single_key.rs`, `multi_address.rs`, `multisig.rs` with
`accounts.rs`, `ms45.rs`, `covenant.rs` and `p2pk.rs`. The transaction is the state, and what was signed
before a failure stays signed. Making a signature and finding a key are given: what `context.rs` and the
derivations look up is one function for each question that is asked of them.

Entropy is an argument. The user's consent and the policy are asked for before these calls and not by
them.
-/
namespace KaspaPortal.Transaction.Kspt
open Lib Primitives Model Crypto.AntiKlepto AntiKlepto

/-- A private key with the public key it has been checked against. -/
structure SigningKeyMaterial where
  privateKey : FixedBytes 32
  compressedPublicKey : FixedBytes 33

/-- The keys of the loaded seeds, by the index of the seed. -/
structure SigningContext where
  seedCount : Nat
  accountXonly : Nat → Option (FixedBytes 32)
  accountMaterial : Nat → Option SigningKeyMaterial
  directAddressMaterial : Nat → FixedBytes 32 → Option SigningKeyMaterial
  cachedAddressMaterial : Nat → FixedBytes 32 → Option SigningKeyMaterial
  kip22Material : Nat → FixedBytes 32 → Option SigningKeyMaterial
  ms45Material : Nat → Ms45Hint → Option SigningKeyMaterial

/-- A key below an account; a public key that cannot be computed is `none`. -/
structure ChildKey where
  privateKey : FixedBytes 32
  xOnly : Option (FixedBytes 32)
  compressed : Option (FixedBytes 33)

/-- The keys of one account. -/
structure AccountKeys where
  findAddressIndexForPubkey : FixedBytes 32 → Option (UInt16 × Bool)
  deriveAddressKey : UInt32 → Option ChildKey
  deriveChangeKey : UInt32 → Option ChildKey
  /-- The key of the account plus a tweak. -/
  stealthMaterial : FixedBytes 32 → Option SigningKeyMaterial

/-- The signature algorithm. -/
structure Signer where
  signInput : Transaction → Nat → (privateKey : FixedBytes 32) → SigHashType →
    (entropy : Option (FixedBytes 32)) → Option (FixedBytes 64)
  compressedPubkeyFromRawKey : FixedBytes 32 → Option (FixedBytes 33)

/-- A call of the signer: it changes the transaction and may fail. -/
abbrev Signing (α : Type) := Effect Transaction PsktError α

/-- Every call begins with the shape of the transaction. -/
def checkBase : Signing Unit := do
  let tx ← get
  Effect.ofExcept (validateBaseTransaction tx)

/-- An input out of range is an error of its own. -/
def ensureInputIndex (tx : Transaction) (inputIndex : Nat) : Except PsktError Unit :=
  rejectIf (tx.inputs.length ≤ inputIndex) PsktError.invalidInputIndex

/-- The key of `xonly_from_script`. -/
def xonlyFromScript (script : Bytes) : Option (FixedBytes 32) :=
  if script.length = 34 ∧ script[0]? = some 0x20 ∧ script[33]? = some 0xac then toArray 32 (cut script 1 33)
  else none

/-- The key an input pays to, if it is a bare key. -/
def checkedTarget (tx : Transaction) (inputIndex : Nat) : Except PsktError (Option (FixedBytes 32)) := do
  validateBaseTransaction tx
  ensureInputIndex tx inputIndex
  return xonlyFromScript (inputAt tx inputIndex).utxoEntry.scriptPublicKey.script

/-- Stores one signature with its type, its position and its key. -/
def storeSingle (inputIndex : Nat) (signature : FixedBytes 64) (sighashType : SigHashType)
    (pubkeyPosition : UInt8) (compressedPublicKey : FixedBytes 33) : Signing Unit :=
  modify fun tx => tx.modifyInput inputIndex fun input =>
    setSingleSignature input signature sighashType.toByte pubkeyPosition compressedPublicKey

/-- How many signatures were added. -/
def storeAppended (inputIndex : Nat) (signature : FixedBytes 64) (sighashType : SigHashType)
    (pubkeyPosition : UInt8) (compressedPublicKey : FixedBytes 33) : Signing Nat := do
  let tx ← get
  let (added, input) := appendSignature (inputAt tx inputIndex) signature sighashType.toByte pubkeyPosition
    compressedPublicKey
  modify fun tx => tx.modifyInput inputIndex fun _ => input
  return if added then 1 else 0

/-- A loop over the inputs that counts what was signed. -/
def signEach (count : Nat) (sign : Nat → Signing Nat) : Signing Nat :=
  (List.range count).foldlM (fun total inputIndex => do
    let added ← sign inputIndex
    return total + added) 0

/-- A call that signs nothing is an error. -/
def signedCountResult (signedCount : Nat) : Except PsktError Nat :=
  if signedCount = 0 then .error .noInputs else .ok signedCount

section signer
variable (signer : Signer)

/-- `sign_one` of the single key and `sign_input_with_optional_entropy` of the others. -/
def signOne (inputIndex : Nat) (privateKey : FixedBytes 32) (sighashType : SigHashType)
    (signingEntropy : Option (FixedBytes 32)) : Signing (FixedBytes 64) := do
  let tx ← get
  Effect.ofExcept (okOr .signingFailed (signer.signInput tx inputIndex privateKey sighashType signingEntropy))

/-- Signs one input and stores the signature. -/
def signSingle (inputIndex : Nat) (material : SigningKeyMaterial) (sighashType : SigHashType)
    (signingEntropy : Option (FixedBytes 32)) (pubkeyPosition : UInt8) : Signing Unit := do
  let signature ← signOne signer inputIndex material.privateKey sighashType signingEntropy
  storeSingle inputIndex signature sighashType pubkeyPosition material.compressedPublicKey

/-! ## A single key -/

/-- The signatures of every input, with the transaction left as it is. -/
def signTransaction (privateKey : FixedBytes 32) (sighashType : SigHashType)
    (signingEntropy : Option (FixedBytes 32)) : Signing SignedResponse := do
  checkBase
  let tx ← get
  (List.range tx.inputs.length).foldlM (fun response inputIndex => do
    let signature ← signOne signer inputIndex privateKey sighashType signingEntropy
    Effect.ofExcept (response.addSignature ⟨UInt32.ofNat inputIndex, sighashType, signature⟩)) .new

/-- The public key of a raw private key. -/
def rawKeyMaterial (privateKey : FixedBytes 32) : Except PsktError SigningKeyMaterial :=
  (okOr .signingFailed (signer.compressedPubkeyFromRawKey privateKey)).map fun compressed => ⟨privateKey, compressed⟩

/-- The call for all inputs of one key. -/
def signTransactionInPlace (privateKey : FixedBytes 32) (sighashType : SigHashType)
    (signingEntropy : Option (FixedBytes 32)) : Signing Nat := do
  checkBase
  let material ← Effect.ofExcept (rawKeyMaterial signer privateKey)
  let tx ← get
  let _ ← signEach tx.inputs.length fun inputIndex => do
    signSingle signer inputIndex material sighashType signingEntropy 0
    return 1
  return tx.inputs.length

/-- The call for one input, if it pays to the key. -/
def signMatchingInputInPlace (inputIndex : Nat) (privateKey : FixedBytes 32) (sighashType : SigHashType)
    (signingEntropy : FixedBytes 32) : Signing Bool := do
  let tx ← get
  let target ← Effect.ofExcept (checkedTarget tx inputIndex)
  match target with
  | none => return false
  | some target =>
    let material ← Effect.ofExcept (rawKeyMaterial signer privateKey)
    if xonly material.compressedPublicKey ≠ target then return false
    else
      signSingle signer inputIndex material sighashType (some signingEntropy) 0
      return true

/-- Whether an input pays to a bare key. -/
def inputMatchesXonly (tx : Transaction) (inputIndex : Nat) (key : FixedBytes 32) : Bool :=
  p2pkXonly (inputAt tx inputIndex).utxoEntry.scriptPublicKey.script == some key

def signMatchingInputsInPlace (privateKey : FixedBytes 32) (sighashType : SigHashType)
    (signingEntropy : FixedBytes 32) : Signing Nat := do
  checkBase
  let material ← Effect.ofExcept (rawKeyMaterial signer privateKey)
  let tx ← get
  let signedCount ← signEach tx.inputs.length fun inputIndex => do
    let tx ← get
    if inputMatchesXonly tx inputIndex (xonly material.compressedPublicKey) then
      signSingle signer inputIndex material sighashType (some signingEntropy) 0
      return 1
    else return 0
  Effect.ofExcept (signedCountResult signedCount)

/-! ## The addresses of an account -/

def deriveChildKey (account : AccountKeys) (index : UInt32) (branch : UInt8) : Except PsktError ChildKey :=
  okOr .derivationFailed (if branch = 1 then account.deriveChangeKey index else account.deriveAddressKey index)

/-- The key an address hint points at, if it is the one the input pays to. -/
def deriveHintedInputKey (account : AccountKeys) (branch : UInt8) (index : UInt32)
    (targetPublicKey : FixedBytes 32) : Except PsktError (Option ChildKey) :=
  if 1 < branch ∨ 0x80000000 ≤ index then .ok none
  else do
    let key ← deriveChildKey account index branch
    let derivedPublicKey ← okOr .derivationFailed key.xOnly
    return if derivedPublicKey ≠ targetPublicKey then none else some key

/-- With a hint only the hinted key is tried; without one the account is searched. -/
def deriveStandardInputKey (account : AccountKeys) (input : TransactionInput)
    (targetPublicKey : FixedBytes 32) : Except PsktError (Option ChildKey) :=
  if input.hasDerivationHint then
    deriveHintedInputKey account input.derivationBranch input.derivationIndex targetPublicKey
  else
    match account.findAddressIndexForPubkey targetPublicKey with
    | none => .ok none
    | some (addressIndex, isChange) =>
      (deriveChildKey account addressIndex.toUInt32 (if isChange then 1 else 0)).map some

def signStandardInput (inputIndex : Nat) (account : AccountKeys) (targetPublicKey : FixedBytes 32)
    (sighashType : SigHashType) (signingEntropy : Option (FixedBytes 32)) : Signing Bool := do
  let tx ← get
  let key ← Effect.ofExcept (deriveStandardInputKey account (inputAt tx inputIndex) targetPublicKey)
  match key with
  | none => return false
  | some key =>
    let compressed ← Effect.ofExcept (okOr .derivationFailed key.compressed)
    signSingle signer inputIndex ⟨key.privateKey, compressed⟩ sighashType signingEntropy 0
    return true

/-- The key of a stealth payment is the account's, moved by the tweak. -/
def signStealthInput (inputIndex : Nat) (account : AccountKeys) (targetPublicKey : FixedBytes 32)
    (sighashType : SigHashType) (signingEntropy : Option (FixedBytes 32)) : Signing Bool := do
  let tx ← get
  let material ← Effect.ofExcept (okOr .derivationFailed (account.stealthMaterial tx.stealthTweak))
  if xonly material.compressedPublicKey ≠ targetPublicKey then return false
  else
    signSingle signer inputIndex material sighashType signingEntropy 0
    return true

/-- The two attempts on an input that pays to a key. -/
def signAccountTarget (inputIndex : Nat) (account : AccountKeys) (target : Option (FixedBytes 32))
    (sighashType : SigHashType) (signingEntropy : Option (FixedBytes 32)) : Signing Bool := do
  match target with
  | none => return false
  | some target =>
    let signed ← signStandardInput signer inputIndex account target sighashType signingEntropy
    let tx ← get
    if signed then return true
    else if tx.hasStealthTweak then
      signStealthInput signer inputIndex account target sighashType signingEntropy
    else return false

/-- One input of an account: standard or stealth. -/
def signAccountInputWithEntropy (inputIndex : Nat) (account : AccountKeys) (sighashType : SigHashType)
    (signingEntropy : FixedBytes 32) : Signing Bool := do
  let tx ← get
  let target ← Effect.ofExcept (checkedTarget tx inputIndex)
  signAccountTarget signer inputIndex account target sighashType (some signingEntropy)

/-- The call for all inputs of an account. -/
def signTransactionMultiAddrAccount (account : AccountKeys) (sighashType : SigHashType)
    (signingEntropy : Option (FixedBytes 32)) : Signing Nat := do
  checkBase
  let tx ← get
  let signedCount ← signEach tx.inputs.length fun inputIndex => do
    let tx ← get
    let target := p2pkXonly (inputAt tx inputIndex).utxoEntry.scriptPublicKey.script
    let signed ← signAccountTarget signer inputIndex account target sighashType signingEntropy
    return if signed then 1 else 0
  Effect.ofExcept (signedCountResult signedCount)

/-- The account of a seed, if it can be derived. -/
def signTransactionMultiAddr (account : Option AccountKeys) (sighashType : SigHashType)
    (signingEntropy : Option (FixedBytes 32)) : Signing Nat := do
  let account ← Effect.ofExcept (okOr .derivationFailed account)
  signTransactionMultiAddrAccount signer account sighashType signingEntropy

/-! ## The loaded seeds -/

/-- The first seed that has a key. -/
def firstMaterial (context : SigningContext) (find : Nat → Option SigningKeyMaterial) : Option SigningKeyMaterial :=
  (List.range context.seedCount).findSome? find

/-- A bare key, from the first seed that has it, when the input is not signed yet. -/
def signP2pkInput (inputIndex : Nat) (context : SigningContext) (sighashType : SigHashType)
    (signingEntropy : Option (FixedBytes 32)) : Signing Nat := do
  let tx ← get
  let input := inputAt tx inputIndex
  if input.sigCount ≠ 0 then return 0
  else
    -- The script has the shape of a key's, so its key is always there.
    match toArray 32 (cut input.utxoEntry.scriptPublicKey.script 1 33) with
    | none => return 0
    | some target =>
      match firstMaterial context fun seed => context.directAddressMaterial seed target with
      | none => return 0
      | some material =>
        signSingle signer inputIndex material sighashType signingEntropy 0
        return 1

/-- The position of a seed's account key among the keys of the script. -/
def accountPosition (context : SigningContext) (multisig : MultisigInfo) (seed : Nat) : Option UInt8 := do
  let accountXonly ← context.accountXonly seed
  let position ← multisig.pubkeys.findIdx? (· = accountXonly)
  return UInt8.ofNat position

/-- The key a seed has for a position of a multisig script. -/
def multisigMaterial (context : SigningContext) (multisig : MultisigInfo) (position : UInt8)
    (target : FixedBytes 32) (seed : Nat) : Option SigningKeyMaterial :=
  match accountPosition context multisig seed with
  | some own => if own = position then context.accountMaterial seed else none
  | none => context.cachedAddressMaterial seed target

/-- One position of a multisig script. -/
def signMultisigPosition (inputIndex : Nat) (multisig : MultisigInfo) (context : SigningContext)
    (sighashType : SigHashType) (signingEntropy : Option (FixedBytes 32)) (target : FixedBytes 32)
    (position : UInt8) : Signing Nat := do
  let tx ← get
  if hasPubkeyPosition (inputAt tx inputIndex) position then return 0
  else
    match firstMaterial context (multisigMaterial context multisig position target) with
    | none => return 0
    | some material =>
      let signature ← signOne signer inputIndex material.privateKey sighashType signingEntropy
      storeAppended inputIndex signature sighashType position material.compressedPublicKey

/-- `ms45::sign_input`, for one seed. -/
def signMs45Seed (inputIndex : Nat) (multisig : MultisigInfo) (context : SigningContext)
    (sighashType : SigHashType) (signingEntropy : Option (FixedBytes 32)) (hint : Ms45Hint) (seed : Nat) :
    Signing Nat := do
  match context.ms45Material seed hint with
  | none => return 0
  | some material =>
    match multisig.pubkeys.findIdx? (· = xonly material.compressedPublicKey) with
    | none => return 0
    | some position =>
      let tx ← get
      if hasPubkeyPosition (inputAt tx inputIndex) (UInt8.ofNat position) then return 0
      else
        let signature ← signOne signer inputIndex material.privateKey sighashType signingEntropy
        storeAppended inputIndex signature sighashType (UInt8.ofNat position) material.compressedPublicKey

/-- With a cosigner hint the seeds in turn, and without one the positions of the script in turn. -/
def signMultisigInput (inputIndex : Nat) (multisig : MultisigInfo) (context : SigningContext)
    (sighashType : SigHashType) (signingEntropy : Option (FixedBytes 32)) : Signing Nat := do
  let tx ← get
  let hint := (inputAt tx inputIndex).ms45Hint
  if hint.present then
    signEach context.seedCount (signMs45Seed signer inputIndex multisig context sighashType signingEntropy hint)
  else
    multisig.pubkeys.zipIdx.foldlM (fun added entry => do
      let more ← signMultisigPosition signer inputIndex multisig context sighashType signingEntropy entry.1
        (UInt8.ofNat entry.2)
      return added + more) 0

/-- Without a chosen seed all are tried. -/
def seedIsActive (activeSeedIndex : Option Nat) (seed : Nat) : Bool :=
  activeSeedIndex.isNone || activeSeedIndex == some seed

/-- The key a seed has for a covenant script. -/
def covenantMaterial (context : SigningContext) (seed : Nat) (target : FixedBytes 32) :
    Option SigningKeyMaterial :=
  if context.accountXonly seed = some target then context.accountMaterial seed
  else (context.cachedAddressMaterial seed target).or (context.kip22Material seed target)

/-- One key of a branch that the execution can take. -/
def signCovenantCandidate (inputIndex : Nat) (context : SigningContext) (sighashType : SigHashType)
    (activeSeedIndex : Option Nat) (signingEntropy : Option (FixedBytes 32))
    (candidate : UInt8 × FixedBytes 32) : Signing Bool := do
  let material := firstMaterial context fun seed =>
    if seedIsActive activeSeedIndex seed then covenantMaterial context seed candidate.2 else none
  match material with
  | none => return false
  | some material =>
    signSingle signer inputIndex material sighashType signingEntropy candidate.1
    return true

/-- The first candidate that can be signed for. -/
def signCovenantCandidates (inputIndex : Nat) (context : SigningContext) (sighashType : SigHashType)
    (activeSeedIndex : Option Nat) (signingEntropy : Option (FixedBytes 32)) :
    List (UInt8 × FixedBytes 32) → Signing Nat
  | [] => return 0
  | candidate :: rest => do
    let signed ← signCovenantCandidate signer inputIndex context sighashType activeSeedIndex signingEntropy
      candidate
    if signed then return 1
    else signCovenantCandidates inputIndex context sighashType activeSeedIndex signingEntropy rest

def signCovenantInput (inputIndex : Nat) (context : SigningContext) (sighashType : SigHashType)
    (activeSeedIndex : Option Nat) (signingEntropy : Option (FixedBytes 32)) : Signing Nat := do
  let tx ← get
  if (inputAt tx inputIndex).sigCount ≠ 0 then return 0
  else
    let candidates ← Effect.ofExcept (candidateKeysForInput tx inputIndex)
    signCovenantCandidates signer inputIndex context sighashType activeSeedIndex signingEntropy candidates

/-- By the kind of script the input spends. -/
def signSupportedInput (inputIndex : Nat) (context : SigningContext) (sighashType : SigHashType)
    (activeSeedIndex : Option Nat) (signingEntropy : Option (FixedBytes 32)) : Signing Nat := do
  let tx ← get
  match analyzeInputScript tx inputIndex with
  | (.p2pk, _) => signP2pkInput signer inputIndex context sighashType signingEntropy
  | (.multisig, some info) | (.p2sh, some info) =>
    signMultisigInput signer inputIndex info context sighashType signingEntropy
  | (.p2sh, none) => signCovenantInput signer inputIndex context sighashType activeSeedIndex signingEntropy
  | _ => return 0

/-- `sign_transaction_multisig` with its variants, which differ in where the context comes from. -/
def signTransactionWithContext (context : SigningContext) (sighashType : SigHashType)
    (activeSeedIndex : Option Nat) (signingEntropy : Option (FixedBytes 32)) : Signing Nat := do
  checkBase
  let tx ← get
  let totalAdded ← signEach tx.inputs.length fun inputIndex =>
    signSupportedInput signer inputIndex context sighashType activeSeedIndex signingEntropy
  Effect.ofExcept (signedCountResult totalAdded)

def signClassifiedAccountInput (inputIndex : Nat) (context : SigningContext) (sighashType : SigHashType)
    (activeAccountIdx : Option Nat) (signingEntropy : FixedBytes 32) (scriptType : ScriptType)
    (multisig : Option MultisigInfo) : Signing Nat :=
  if scriptType = .p2pk then signP2pkInput signer inputIndex context sighashType (some signingEntropy)
  else
    match multisig with
    | some info => signMultisigInput signer inputIndex info context sighashType (some signingEntropy)
    | none =>
      if scriptType ≠ .p2sh then return 0
      else signCovenantInput signer inputIndex context sighashType activeAccountIdx (some signingEntropy)

/-- One input, with the keys of one or of two sets of accounts. -/
def signMultisigAccountsInput (inputIndex : Nat) (context : SigningContext) (sighashType : SigHashType)
    (activeAccountIdx : Option Nat) (signingEntropy : FixedBytes 32) : Signing Nat := do
  checkBase
  let tx ← get
  Effect.ofExcept (ensureInputIndex tx inputIndex)
  let (scriptType, multisig) := analyzeInputScript tx inputIndex
  signClassifiedAccountInput signer inputIndex context sighashType activeAccountIdx signingEntropy scriptType
    multisig

/-! ## All of them -/

/-- The calls of the signer, with what each is given. -/
inductive EntryPoint where
  | transaction (privateKey : FixedBytes 32) (entropy : Option (FixedBytes 32))
  | inPlace (privateKey : FixedBytes 32) (entropy : Option (FixedBytes 32))
  | matchingInput (inputIndex : Nat) (privateKey entropy : FixedBytes 32)
  | matchingInputs (privateKey entropy : FixedBytes 32)
  | accountInput (inputIndex : Nat) (account : AccountKeys) (entropy : FixedBytes 32)
  | accountInputs (account : AccountKeys) (entropy : Option (FixedBytes 32))
  | seedInputs (account : Option AccountKeys) (entropy : Option (FixedBytes 32))
  | multisig (context : SigningContext) (active : Option Nat) (entropy : Option (FixedBytes 32))
  | multisigInput (inputIndex : Nat) (context : SigningContext) (active : Option Nat) (entropy : FixedBytes 32)

namespace EntryPoint

/-- The entry points that sign with the loaded seeds, covenants included. -/
def ofSeeds : EntryPoint → Bool
  | .multisig .. | .multisigInput .. => true
  | _ => false

/-- The result of a call and the transaction it leaves. -/
def call (self : EntryPoint) (sighashType : SigHashType) : Signing Unit :=
  match self with
  | .transaction privateKey entropy => do
    let _ ← signTransaction signer privateKey sighashType entropy
  | .inPlace privateKey entropy => do
    let _ ← signTransactionInPlace signer privateKey sighashType entropy
  | .matchingInput inputIndex privateKey entropy => do
    let _ ← signMatchingInputInPlace signer inputIndex privateKey sighashType entropy
  | .matchingInputs privateKey entropy => do
    let _ ← signMatchingInputsInPlace signer privateKey sighashType entropy
  | .accountInput inputIndex account entropy => do
    let _ ← signAccountInputWithEntropy signer inputIndex account sighashType entropy
  | .accountInputs account entropy => do
    let _ ← signTransactionMultiAddrAccount signer account sighashType entropy
  | .seedInputs account entropy => do
    let _ ← signTransactionMultiAddr signer account sighashType entropy
  | .multisig context active entropy => do
    let _ ← signTransactionWithContext signer context sighashType active entropy
  | .multisigInput inputIndex context active entropy => do
    let _ ← signMultisigAccountsInput signer inputIndex context sighashType active entropy

end EntryPoint

end signer

end KaspaPortal.Transaction.Kspt
