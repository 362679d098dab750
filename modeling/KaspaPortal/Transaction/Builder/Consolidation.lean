import KaspaPortal.Lib.Runs
import KaspaPortal.Transaction.Builder.Funding
import KaspaPortal.Wallet.Multisig.Descriptor

/-!
# Consolidation of multisig addresses

`src/transaction/builder/multisig/consolidation.rs`, from the descriptor and the sources to the planned
inputs. The texts of both are left out, and so is the list of addresses that the UTXOs are fetched for.
-/
namespace KaspaPortal.Transaction.MultisigBuilder
open Lib Primitives Crypto.AntiKlepto Wallet.Bip32 Wallet.Multisig CovenantBuilder

/-- How many indices of a branch are tried for an address. -/
def MULTISIG_BRANCH_SCAN_DEPTH : UInt32 := 40

/-- An outpoint, with the address the user says it was received at. -/
structure MultisigConsolidationSource where
  address : Bytes
  txId : Bytes
  index : UInt32
  deriving DecidableEq

def MultisigConsolidationSource.outpoint (source : MultisigConsolidationSource) : Bytes × UInt32 :=
  (source.txId, source.index)

/-- What the planner knows of an input before it is signed. -/
structure PlannedInput where
  utxo : CovenantBuilder.UtxoEntry
  sequence : UInt64
  sigOpCount : UInt8
  redeemScript : Option Bytes
  bip32Derivations : Option (List Bip32Derivation)
  deriving DecidableEq

/-- An input that reveals a multisig script. -/
def PlannedInput.p2shMultisig (utxo : CovenantBuilder.UtxoEntry) (redeemScript : Bytes)
    (sigOpCount : UInt8) : PlannedInput where
  utxo
  sequence := 0
  sigOpCount
  redeemScript := some redeemScript
  bip32Derivations := none

def PlannedInput.withBip32Derivations (self : PlannedInput) (derivations : List Bip32Derivation) :
    PlannedInput :=
  { self with bip32Derivations := some derivations }

/-- What the inputs that spend from one address share. -/
structure SourceMaterial where
  redeem : Bytes
  derivations : List Bip32Derivation
  sigops : UInt8
  deriving DecidableEq

/-- The map of the source as the list of its entries. -/
abbrev ResolvedConsolidationSources := List (Bytes × SourceMaterial)

/-- The checked request, with what its addresses resolve to. -/
structure PreparedConsolidation where
  descriptor : MultisigDescriptor
  sources : List MultisigConsolidationSource
  resolved : ResolvedConsolidationSources

section curve
variable {Point : Type} [AddCommGroup Point] [Module (ZMod ORDER) Point] [DecidableEq Point]
  (curve : Curve ORDER Point) (hmacSha512 : Bytes → Bytes → FixedBytes 64)
  (scriptHash : Bytes → FixedBytes 32)

/-- Only descriptors with branches have more than one address. -/
def requireHd45Consolidation (descriptor : MultisigDescriptor) : Except String Unit :=
  if descriptor.isHd45 then .ok ()
  else .error "Multi-address consolidation requires a multi_hd45 descriptor"

/-- One to three sources are selected. -/
def requireSourceCount (count : Nat) : Except String Unit :=
  if 1 ≤ count ∧ count ≤ 3 then .ok () else .error "Select between 1 and 3 multisig UTXOs"

/-- The script and the derivations of an address, found by trying the branch; the cosigner must
be the one that asks. -/
def resolveConsolidationSource (descriptor : MultisigDescriptor) (source : MultisigConsolidationSource)
    (cosigner : UInt32) : Except String SourceMaterial := do
  let path ← resolveAddressPath curve hmacSha512 scriptHash descriptor source.address
    MULTISIG_BRANCH_SCAN_DEPTH
  rejectIf (path.cosigner ≠ cosigner) "Selected source belongs to a different cosigner branch"
  let keys ← descriptor.publicKeysAt curve hmacSha512 path.index path.cosigner path.chain
  let redeem ← buildRedeemScript descriptor.threshold keys
  let derivations ← descriptor.bip32Derivations curve hmacSha512 path.index path.cosigner path.chain
  return ⟨redeem, derivations, UInt8.ofNat keys.length⟩

/-- An address that several sources share is resolved once. -/
def resolveConsolidationSourceOnce (descriptor : MultisigDescriptor) (cosigner : UInt32)
    (resolved : ResolvedConsolidationSources) (source : MultisigConsolidationSource) :
    Except String ResolvedConsolidationSources :=
  if (resolved.lookup source.address).isSome then .ok resolved
  else do
    let material ← resolveConsolidationSource curve hmacSha512 scriptHash descriptor source cosigner
    return (source.address, material) :: resolved

/-- The sources in their order, into one map. -/
def resolveConsolidationSources (descriptor : MultisigDescriptor)
    (sources : List MultisigConsolidationSource) (cosigner : UInt32) :
    Except String ResolvedConsolidationSources :=
  sources.foldlM (resolveConsolidationSourceOnce curve hmacSha512 scriptHash descriptor cosigner) []

/-- The checks, then the resolution. -/
def prepareConsolidation (descriptor : MultisigDescriptor) (sources : List MultisigConsolidationSource)
    (cosigner : UInt32) : Except String PreparedConsolidation := do
  requireHd45Consolidation descriptor
  requireSourceCount sources.length
  let resolved ← resolveConsolidationSources curve hmacSha512 scriptHash descriptor sources cosigner
  return ⟨descriptor, sources, resolved⟩

end curve

/-- The first UTXO with the outpoint; the address is not compared with its script. -/
def findSelectedUtxo (source : MultisigConsolidationSource) (available : List CovenantBuilder.UtxoEntry) :
    Except String CovenantBuilder.UtxoEntry :=
  okOr s!"UTXO {textOf source.txId}:{source.index} not found"
    (available.find? fun utxo => utxo.txId == source.txId && utxo.index == source.index)

/-- The UTXO by its outpoint, the script by the address of the source. -/
def buildConsolidationInput (available : List CovenantBuilder.UtxoEntry)
    (resolved : ResolvedConsolidationSources) (source : MultisigConsolidationSource) :
    Except String (PlannedInput × UInt64) := do
  let utxo ← findSelectedUtxo source available
  let material ← okOr "unresolved multisig source" (resolved.lookup source.address)
  return ((PlannedInput.p2shMultisig utxo material.redeem material.sigops).withBip32Derivations
    material.derivations, utxo.amount)

/-- The loop over the sources; the state is the inputs and their total. -/
def buildConsolidationInputs (sources : List MultisigConsolidationSource)
    (available : List CovenantBuilder.UtxoEntry) (resolved : ResolvedConsolidationSources) :
    Except String (List PlannedInput × UInt64) :=
  sources.foldlM (fun (inputs, total) source => do
    let (input, amount) ← buildConsolidationInput available resolved source
    let total ← okOr "selected multisig total overflow" (checkedAdd total amount)
    return (inputs ++ [input], total)) ([], 0)

/-! ## What is resolved -/

section resolved
variable {Point : Type} [AddCommGroup Point] [Module (ZMod ORDER) Point] [DecidableEq Point]
  {curve : Curve ORDER Point} {hmacSha512 : Bytes → Bytes → FixedBytes 64}
  {scriptHash : Bytes → FixedBytes 32}

/-- The address pays the hash of the script. -/
def Pays (scriptHash : Bytes → FixedBytes 32) (address redeem : Bytes) : Prop :=
  addressToScriptPubkey address = .ok (p2shScript (scriptHash redeem))

/-- An address that a script's hash is written as pays that script. -/
theorem pays_of_address {address redeem hrp : Bytes} (hhuman : addressPrefix address = .ok hrp)
    (h : scriptToP2shAddress scriptHash redeem hrp = some address) : Pays scriptHash address redeem := by
  obtain ⟨data, sum, hcarries⟩ := encodeAddressBytes_eq_some.mp h
  have hnetwork : IsPrefix hrp := by
    rw [addressPrefix] at hhuman
    split at hhuman
    case h_1 => cases hhuman
    case h_2 hsplit =>
      cases hhuman
      exact (splitAddress_ok.mp hsplit).1
  have hlength : payloadLengthForVersion AddressType.p2sh.version =
      some (scriptHash redeem).val.length := by
    rw [(scriptHash redeem).property]
    rfl
  have hdecode : decodeAddressBytes address = .ok ⟨AddressType.p2sh.version, (scriptHash redeem).val⟩ :=
    decodeAddressBytes_ok.mpr ⟨hlength, hrp, data, sum, hnetwork, hcarries⟩
  refine bind_eq_ok.mpr ⟨_, mapError_eq_ok.mpr hdecode, ?_⟩
  exact bind_eq_ok.mpr ⟨scriptHash redeem, okOr_eq_ok.mpr (toArray_eq_some.mpr rfl), rfl⟩

variable {descriptor : MultisigDescriptor} {cosigner : UInt32} {sources : List MultisigConsolidationSource}
  {resolved : ResolvedConsolidationSources}

/-- What an address resolves to is the script it pays. -/
theorem resolveConsolidationSource_pays {source : MultisigConsolidationSource} {material : SourceMaterial}
    (hhd : descriptor.isHd = true)
    (h : resolveConsolidationSource curve hmacSha512 scriptHash descriptor source cosigner = .ok material) :
    Pays scriptHash source.address material.redeem := by
  obtain ⟨path, hpath, h⟩ := bind_eq_ok.mp h
  obtain ⟨_, -, h⟩ := bind_eq_ok.mp h
  obtain ⟨keys, hkeys, h⟩ := bind_eq_ok.mp h
  obtain ⟨redeem, hredeem, h⟩ := bind_eq_ok.mp h
  obtain ⟨derivations, -, h⟩ := bind_eq_ok.mp h
  cases h
  obtain ⟨hrp, script, hhuman, hscript, haddress⟩ := resolveAddressPath_ok hhd hpath
  -- The script is built a second time from the path that was found.
  have hagain : hostScript curve hmacSha512 descriptor path.index path.cosigner path.chain = .ok redeem :=
    bind_eq_ok.mpr ⟨keys, hkeys, hredeem⟩
  obtain rfl := Except.ok.inj (hscript.symm.trans hagain)
  exact pays_of_address hhuman haddress

/-- Every entry of the map is of an address that pays its script. -/
theorem resolveConsolidationSources_pays (hhd : descriptor.isHd = true)
    (h : resolveConsolidationSources curve hmacSha512 scriptHash descriptor sources cosigner = .ok resolved) :
    ∀ entry ∈ resolved, Pays scriptHash entry.1 entry.2.redeem := by
  refine @foldlM_preserves _ _ _ _ (fun resolved => ∀ entry ∈ resolved,
    Pays scriptHash entry.1 entry.2.redeem) _ _ _ ?_ h (List.forall_mem_nil _)
  intro resolved source next _ hall hstep
  rw [resolveConsolidationSourceOnce] at hstep
  split at hstep
  case isTrue =>
    cases hstep
    exact hall
  case isFalse =>
    obtain ⟨material, hmaterial, hstep⟩ := bind_eq_ok.mp hstep
    cases hstep
    exact List.forall_mem_cons.mpr ⟨resolveConsolidationSource_pays hhd hmaterial, hall⟩

end resolved

/-! ## What is planned -/

/-- The input that a source becomes. -/
structure Planned (available : List CovenantBuilder.UtxoEntry) (resolved : ResolvedConsolidationSources)
    (source : MultisigConsolidationSource) (input : PlannedInput) : Prop where
  found : findSelectedUtxo source available = .ok input.utxo
  redeem : ∃ material, resolved.lookup source.address = some material ∧
    input.redeemScript = some material.redeem

/-- The UTXO that is found is the one the source names. -/
theorem findSelectedUtxo_outpoint {source : MultisigConsolidationSource}
    {available : List CovenantBuilder.UtxoEntry} {utxo : CovenantBuilder.UtxoEntry}
    (h : findSelectedUtxo source available = .ok utxo) : utxo.outpoint = source.outpoint := by
  rw [findSelectedUtxo, okOr_eq_ok] at h
  have hfound := List.find?_some h
  rw [Bool.and_eq_true, beq_iff_eq, beq_iff_eq] at hfound
  rw [CovenantBuilder.UtxoEntry.outpoint, MultisigConsolidationSource.outpoint, hfound.1, hfound.2]

/-- Every source becomes one input, in the order of the sources, and the total is theirs. -/
theorem buildConsolidationInputs_ok {sources : List MultisigConsolidationSource}
    {available : List CovenantBuilder.UtxoEntry} {resolved : ResolvedConsolidationSources}
    {inputs : List PlannedInput} {total : UInt64}
    (h : buildConsolidationInputs sources available resolved = .ok (inputs, total)) :
    List.Forall₂ (Planned available resolved) sources inputs ∧
      total.toNat = amounts (inputs.map PlannedInput.utxo) := by
  have hloop : ∀ (remaining : List MultisigConsolidationSource) (start : List PlannedInput × UInt64),
      start.2.toNat = amounts (start.1.map PlannedInput.utxo) →
      remaining.foldlM (fun (state : List PlannedInput × UInt64) source => do
        let (input, amount) ← buildConsolidationInput available resolved source
        let total ← okOr "selected multisig total overflow" (checkedAdd state.2 amount)
        return (state.1 ++ [input], total)) start = .ok (inputs, total) →
      ∃ added, inputs = start.1 ++ added ∧ List.Forall₂ (Planned available resolved) remaining added ∧
        total.toNat = amounts (inputs.map PlannedInput.utxo) := by
    intro remaining
    induction remaining with
    | nil =>
      intro start hstart hend
      cases hend
      exact ⟨[], (List.append_nil _).symm, .nil, hstart⟩
    | cons source rest ih =>
      intro start hstart hend
      rw [List.foldlM_cons] at hend
      obtain ⟨next, hnext, hend⟩ := bind_eq_ok.mp hend
      obtain ⟨⟨input, amount⟩, hinput, hnext⟩ := bind_eq_ok.mp hnext
      obtain ⟨sum, hsum, hnext⟩ := bind_eq_ok.mp hnext
      cases hnext
      obtain ⟨utxo, hutxo, hinput⟩ := bind_eq_ok.mp hinput
      obtain ⟨material, hmaterial, hinput⟩ := bind_eq_ok.mp hinput
      cases hinput
      obtain ⟨added, hadded, hplanned, htotal⟩ := ih _ (by
        rw [okOr_checkedAdd hsum, hstart, List.map_append, amounts_append]
        rfl) hend
      refine ⟨_ :: added, by rw [hadded, List.append_assoc]; rfl, .cons ⟨hutxo, ?_⟩ hplanned, htotal⟩
      exact ⟨material, okOr_eq_ok.mp hmaterial, rfl⟩
  obtain ⟨added, rfl, hplanned, htotal⟩ := hloop sources ([], 0) rfl h
  exact ⟨hplanned, htotal⟩

end KaspaPortal.Transaction.MultisigBuilder
