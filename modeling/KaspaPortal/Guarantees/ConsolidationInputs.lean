import KaspaPortal.Engine.Rules
import KaspaPortal.Guarantees.Bip32Agreement
import KaspaPortal.Transaction.Builder.Consolidation
import Mathlib.Data.List.Dedup

/-!
# Consolidation spends what its sources name

A source names an address and an outpoint, and nothing compares the two, nor one source with
another: the redeem script is that of the address, the UTXO that of the outpoint.

The addresses of a source are read as the wallet derives them; whether a node returns the
UTXOs of these addresses only is not known to the planner.
-/
namespace KaspaPortal.Guarantees
open Lib Primitives Transaction MultisigBuilder Wallet.Bip32 Wallet.Multisig Crypto.AntiKlepto

namespace ConsolidationInputs

/-- The first UTXO with the source's outpoint is locked by the script of the source's address. -/
def PaysNamed (available : List CovenantBuilder.UtxoEntry) (source : MultisigConsolidationSource) : Prop :=
  ∀ utxo, findSelectedUtxo source available = .ok utxo →
    CovenantBuilder.addressToScriptPubkey source.address = .ok utxo.scriptPublicKey

/-- The input's script is the one its UTXO is locked by. -/
def Spendable (scriptHash : Bytes → FixedBytes 32) (input : PlannedInput) : Prop :=
  ∃ redeem, input.redeemScript = some redeem ∧
    input.utxo.scriptPublicKey = p2shScript (scriptHash redeem)

variable {scriptHash : Bytes → FixedBytes 32} {available : List CovenantBuilder.UtxoEntry}
  {resolved : ResolvedConsolidationSources}

theorem lookup_mem {entries : ResolvedConsolidationSources} {address : Bytes} {material : SourceMaterial}
    (h : entries.lookup address = some material) : (address, material) ∈ entries := by
  induction entries with
  | nil => cases h
  | cons entry rest ih =>
    rw [List.lookup_cons] at h
    split at h
    case h_1 heq =>
      obtain rfl := beq_iff_eq.mp heq
      cases h
      exact List.mem_cons_self
    case h_2 => exact List.mem_cons_of_mem entry (ih h)

theorem planned_outpoints {sources : List MultisigConsolidationSource} {inputs : List PlannedInput}
    (h : List.Forall₂ (Planned available resolved) sources inputs) :
    inputs.map (fun input => input.utxo.outpoint) = sources.map MultisigConsolidationSource.outpoint := by
  induction h with
  | nil => rfl
  | cons hplanned _ ih => rw [List.map_cons, List.map_cons, findSelectedUtxo_outpoint hplanned.found, ih]

/-- The script of the address is that of the UTXO exactly when the source pays what it names. -/
theorem spendable_iff (hpays : ∀ entry ∈ resolved, Pays scriptHash entry.1 entry.2.redeem)
    {source : MultisigConsolidationSource} {input : PlannedInput}
    (h : Planned available resolved source input) :
    Spendable scriptHash input ↔ PaysNamed available source := by
  obtain ⟨material, hmaterial, hredeem⟩ := h.redeem
  have haddress := hpays _ (lookup_mem hmaterial)
  constructor
  · intro hspendable utxo hutxo
    obtain ⟨redeem, hredeem', hscript⟩ := hspendable
    obtain rfl := Option.some.inj (hredeem.symm.trans hredeem')
    obtain rfl := Except.ok.inj (h.found.symm.trans hutxo)
    rw [hscript]
    exact haddress
  · intro hnamed
    refine ⟨material.redeem, hredeem, ?_⟩
    exact Except.ok.inj ((hnamed _ h.found).symm.trans haddress)

theorem all_spendable_iff (hpays : ∀ entry ∈ resolved, Pays scriptHash entry.1 entry.2.redeem)
    {sources : List MultisigConsolidationSource} {inputs : List PlannedInput}
    (h : List.Forall₂ (Planned available resolved) sources inputs) :
    (∀ input ∈ inputs, Spendable scriptHash input) ↔ ∀ source ∈ sources, PaysNamed available source := by
  induction h with
  | nil => exact iff_of_true (List.forall_mem_nil _) (List.forall_mem_nil _)
  | cons hplanned _ ih =>
    rw [List.forall_mem_cons, List.forall_mem_cons, spendable_iff hpays hplanned, ih]

end ConsolidationInputs
open ConsolidationInputs

/-- The inputs spend distinct outpoints under the scripts they carry, and the total is that of the
distinct UTXOs, exactly when the sources name distinct outpoints, each at the address it pays. -/
theorem consolidation_inputs {Point : Type} [AddCommGroup Point] [Module (ZMod Wallet.Bip32.ORDER) Point]
    [DecidableEq Point] {curve : Curve Wallet.Bip32.ORDER Point}
    {hmacSha512 : Bytes → Bytes → FixedBytes 64} {scriptHash : Bytes → FixedBytes 32}
    {descriptor : MultisigDescriptor} {sources : List MultisigConsolidationSource} {cosigner : UInt32}
    {prepared : PreparedConsolidation} {available : List CovenantBuilder.UtxoEntry}
    {inputs : List PlannedInput} {total : UInt64}
    (hprepared : prepareConsolidation curve hmacSha512 scriptHash descriptor sources cosigner =
      .ok prepared)
    (hbuilt : buildConsolidationInputs prepared.sources available prepared.resolved =
      .ok (inputs, total)) :
    (inputs.map fun input => input.utxo.outpoint).Nodup ∧
        (∀ input ∈ inputs, Spendable scriptHash input) ∧
        total.toNat = CovenantBuilder.amounts (inputs.map PlannedInput.utxo).dedup ↔
      (sources.map MultisigConsolidationSource.outpoint).Nodup ∧
        ∀ source ∈ sources, PaysNamed available source := by
  obtain ⟨_, hhd45, hprepared⟩ := bind_eq_ok.mp hprepared
  obtain ⟨_, -, hprepared⟩ := bind_eq_ok.mp hprepared
  obtain ⟨resolved, hresolved, hprepared⟩ := bind_eq_ok.mp hprepared
  cases hprepared
  have hhd : descriptor.isHd = true := by
    unfold requireHd45Consolidation at hhd45
    cases descriptor with
    | static => cases hhd45
    | hierarchicalDeterministic44 => rfl
    | hierarchicalDeterministic45 => rfl
  have hpays := resolveConsolidationSources_pays hhd hresolved
  obtain ⟨hplanned, htotal⟩ := buildConsolidationInputs_ok hbuilt
  rw [planned_outpoints hplanned, all_spendable_iff hpays hplanned]
  refine ⟨fun h => ⟨h.1, h.2.1⟩, fun h => ⟨h.1, h.2, ?_⟩⟩
  -- Distinct outpoints are of distinct UTXOs.
  have hutxos : (inputs.map PlannedInput.utxo).Nodup := by
    refine List.Nodup.of_map CovenantBuilder.UtxoEntry.outpoint ?_
    rw [List.map_map]
    exact (planned_outpoints hplanned).symm ▸ h.1
  rw [hutxos.dedup, htotal]

namespace ConsolidationInputs

/-- A cosigner whose point is a small scalar. -/
def account (scalar : UInt8) : Hd45AccountKey where
  publicKey := ⟨0x02 :: (List.replicate 31 0 ++ [scalar]), rfl⟩
  chainCode := ⟨List.replicate 32 scalar, rfl⟩
  parentFingerprint := ⟨List.replicate 4 0, rfl⟩

/-- A digest that tells indexes apart. -/
def indexHmac (_ message : Bytes) : FixedBytes 64 :=
  ⟨List.replicate 31 0 ++ [message.getLastD 0 + 1] ++ List.replicate 32 0, by simp⟩

/-- A hash of the end of a script. -/
def endHash (script : Bytes) : FixedBytes 32 := Engine.padTo32 script.reverse

def wallet : MultisigDescriptor := .hierarchicalDeterministic45 1 [account 5, account 6]

def redeem (index : UInt32) : Bytes :=
  (hostScript cyclicCurve indexHmac wallet index 0 0).toOption.getD []

def lockedBy (index : UInt32) : Bytes := p2shScript (endHash (redeem index))

/-- 1 KAS at the address with the index. -/
def utxo (id : UInt8) (index : UInt32) : CovenantBuilder.UtxoEntry :=
  ⟨List.replicate 32 id, 0, 100000000, lockedBy index, 0, none⟩

def source (id : UInt8) (index : UInt32) : MultisigConsolidationSource :=
  ⟨(scriptToP2shAddress endHash (redeem index) (Lib.ascii "kaspa")).getD [],
    List.replicate 32 id, 0⟩

def plan (sources : List MultisigConsolidationSource) : Except String (List PlannedInput × UInt64) := do
  let prepared ← prepareConsolidation cyclicCurve indexHmac endHash wallet sources 0
  buildConsolidationInputs prepared.sources [utxo 1 0, utxo 2 1] prepared.resolved

theorem plan_ok {sources : List MultisigConsolidationSource} (h : (plan sources).isOk = true) :
    ∃ prepared inputs total,
      prepareConsolidation cyclicCurve indexHmac endHash wallet sources 0 = .ok prepared ∧
      buildConsolidationInputs prepared.sources [utxo 1 0, utxo 2 1] prepared.resolved =
        .ok (inputs, total) ∧
      plan sources = .ok (inputs, total) := by
  obtain ⟨⟨inputs, total⟩, hplan⟩ := exists_ok h
  obtain ⟨prepared, hprepared, hbuilt⟩ := bind_eq_ok.mp hplan
  exact ⟨prepared, inputs, total, hprepared, hbuilt, hplan⟩

end ConsolidationInputs

theorem consolidation_inputs_sample :
    ∃ inputs total, plan [source 1 0, source 2 1] = .ok (inputs, total) ∧
      ∀ input ∈ inputs, Spendable endHash input := by
  have hok : (plan [source 1 0, source 2 1]).isOk = true := by decide +kernel
  have hnamed : ∀ named ∈ [source 1 0, source 2 1], PaysNamed [utxo 1 0, utxo 2 1] named := by
    have hfirst : (findSelectedUtxo (source 1 0) [utxo 1 0, utxo 2 1]) = .ok (utxo 1 0) ∧
        CovenantBuilder.addressToScriptPubkey (source 1 0).address = .ok (lockedBy 0) ∧
        (findSelectedUtxo (source 2 1) [utxo 1 0, utxo 2 1]) = .ok (utxo 2 1) ∧
        CovenantBuilder.addressToScriptPubkey (source 2 1).address = .ok (lockedBy 1) := by
      decide +kernel
    obtain ⟨hfound, hpays, hfound', hpays'⟩ := hfirst
    refine List.forall_mem_cons.mpr ⟨fun spent hspent => ?_, List.forall_mem_singleton.mpr fun spent hspent => ?_⟩
    · obtain rfl := Except.ok.inj (hfound.symm.trans hspent)
      exact hpays
    · obtain rfl := Except.ok.inj (hfound'.symm.trans hspent)
      exact hpays'
  obtain ⟨prepared, inputs, total, hprepared, hbuilt, hplan⟩ := plan_ok hok
  exact ⟨inputs, total, hplan,
    ((consolidation_inputs hprepared hbuilt).mpr ⟨by decide, hnamed⟩).2.1⟩

/-- One source twice, and a source at the first address with the outpoint of the second one's UTXO. -/
theorem consolidation_repeated_and_mismatched :
    (∃ inputs, plan [source 1 0, source 1 0] = .ok (inputs, 200000000) ∧
      inputs.map PlannedInput.utxo = [utxo 1 0, utxo 1 0]) ∧
    ∃ input total, plan [⟨(source 1 0).address, List.replicate 32 2, 0⟩] = .ok ([input], total) ∧
      input.redeemScript = some (redeem 0) ∧ input.utxo.scriptPublicKey = lockedBy 1 ∧
      lockedBy 1 ≠ p2shScript (endHash (redeem 0)) := by
  have hrepeated : (plan [source 1 0, source 1 0]).toOption.map
      (fun result => (result.1.map PlannedInput.utxo, result.2)) =
      some ([utxo 1 0, utxo 1 0], 200000000) := by
    decide +kernel
  have hmismatched : (plan [⟨(source 1 0).address, List.replicate 32 2, 0⟩]).toOption.map
      (fun result => result.1.map fun input => (input.redeemScript, input.utxo.scriptPublicKey)) =
      some [(some (redeem 0), lockedBy 1)] ∧ lockedBy 1 ≠ p2shScript (endHash (redeem 0)) := by
    decide +kernel
  constructor
  · obtain ⟨result, hresult, heq⟩ := Option.map_eq_some_iff.mp hrepeated
    obtain ⟨hutxos, htotal⟩ := Prod.mk.inj heq
    refine ⟨result.1, ?_, hutxos⟩
    rw [← htotal]
    exact toOption_eq_some.mp hresult
  · obtain ⟨hmapped, hother⟩ := hmismatched
    obtain ⟨result, hresult, heq⟩ := Option.map_eq_some_iff.mp hmapped
    obtain ⟨input, hinput, heq⟩ := List.map_eq_singleton_iff.mp heq
    obtain ⟨hredeem, hscript⟩ := Prod.mk.inj heq
    refine ⟨input, result.2, ?_, hredeem, hscript, hother⟩
    rw [← hinput]
    exact toOption_eq_some.mp hresult

end KaspaPortal.Guarantees
