import KaspaPortal.Guarantees.SharedWallet
import KaspaPortal.Lib.Runs

/-!
# The script of the current address

Between two builds a wallet changes its threshold, its cosigners or its position. What a build
leaves behind is compared with the redeem script of the fields as they are then.

The labels and the store of the wallets take no part. Curve operations are parameters, so a
position may fail to have a key.
-/
set_option maxRecDepth 100000

namespace KaspaPortal.Guarantees
open Lib Primitives Crypto.AntiKlepto Transaction.Model Transaction.Multisig Wallet.Bip32 Wallet.Multisig

section curve
variable {Point : Type} [AddCommGroup Point] [Module (ZMod ORDER) Point] [DecidableEq Point]
  (curve : Curve ORDER Point) (hmacSha512 : Bytes → Bytes → FixedBytes 64)

/-- The child key of a slot at the family, the chain and the index of the wallet. Legacy 44' has no
family and one chain. -/
def currentChild (config : MultisigConfig) (slot : Nat) : Option (FixedBytes 32) :=
  deriveChildAt curve hmacSha512 config.v45 (config.cosignerParts slot) config.cosignerIndex.toUInt32
    (if config.v45 then config.chain.toUInt32 else 0) config.addrIndex

/-- The redeem script of the current fields: the child keys of the slots in use, in their order for
45' and sorted for legacy 44', between the threshold and the count. -/
def IsRedeemScript (config : MultisigConfig) (script : Bytes) : Prop :=
  validConfig config.m config.n = true ∧ ∃ children keys : List (FixedBytes 32),
    List.Forall₂ (fun slot child => currentChild curve hmacSha512 config slot = some child)
      (List.range config.n.toNat) children ∧
    keys.Perm children ∧
    (if config.v45 then keys = children else keys.Pairwise fun a b => a.val ≤ b.val) ∧
    script = [OP_1 + config.m - 1] ++ keys.flatMap (fun key => OP_DATA_32 :: key.val) ++
      [OP_1 + config.n - 1, OP_CHECKMULTISIG]

/-- A valid shape whose slots in use all have a child key. -/
structure Buildable (config : MultisigConfig) : Prop where
  shape : validConfig config.m config.n = true
  children : ∀ slot < config.n.toNat, (currentChild curve hmacSha512 config slot).isSome

/-- Nothing is left of another position: the script is the current one or none, and so is the address. -/
structure Current (scriptHash : Bytes → FixedBytes 32) (config : MultisigConfig) : Prop where
  script : config.script = [] ∨ IsRedeemScript curve hmacSha512 config config.script
  address : ∀ network text, config.address scriptHash network = some text → text ≠ [] →
    ∃ script, IsRedeemScript curve hmacSha512 config script ∧
      encodeAddressForNetwork (scriptHash script).val .p2sh network = some text

variable {curve hmacSha512} {config : MultisigConfig}

theorem validConfig_eq_true {m n : UInt8} :
    validConfig m n = true ↔ m ≠ 0 ∧ n ≠ 0 ∧ m ≤ n ∧ n.toNat ≤ Transaction.Model.MAX_MULTISIG_KEYS := by
  simp only [validConfig, Bool.and_eq_true, bne_iff_ne, decide_eq_true_eq, ne_eq, and_assoc]

theorem deriveMultisigChildren_eq (hvalid : validConfig config.m config.n = true) :
    deriveMultisigChildren curve hmacSha512 config =
      (List.range config.n.toNat).mapM (currentChild curve hmacSha512 config) := by
  obtain ⟨_, _, _, hroom⟩ := validConfig_eq_true.mp hvalid
  rw [deriveMultisigChildren, deriveChildrenAt, Nat.min_eq_left hroom]
  apply mapM_congr
  intro slot _
  rw [currentChild]
  cases config.v45 with
  | true => rfl
  | false => rfl

/-- The keys of a valid shape always fit the script. -/
theorem encodeRedeem_valid (hvalid : validConfig config.m config.n = true) {keys : List (FixedBytes 32)}
    (hlength : keys.length = config.n.toNat) :
    encodeRedeem config.m config.n keys =
      some ([OP_1 + config.m - 1] ++ keys.flatMap (fun key => OP_DATA_32 :: key.val) ++
        [OP_1 + config.n - 1, OP_CHECKMULTISIG]) := by
  obtain ⟨hm, _, hle, hroom⟩ := validConfig_eq_true.mp hvalid
  have hcount : UInt8.ofNat keys.length = config.n := by rw [hlength, UInt8.ofNat_toNat]
  have hkeys : keys.length ≤ 5 := hlength ▸ hroom
  have hfits : encodedLen keys.length ≤ MAX_SCRIPT_SIZE := by
    rw [encodedLen, MAX_SCRIPT_SIZE, KEY_RECORD_LEN]
    omega
  have hpositive : 1 ≤ config.m := by
    rw [UInt8.le_iff_toNat_le]
    exact Nat.one_le_iff_ne_zero.mpr fun h => hm (UInt8.toNat_inj.mp h)
  rw [encodeRedeem, if_neg (by rw [hvalid]; decide), ← hlength, List.take_length, encodeMultisig,
    if_neg (by omega)]
  simp only [hcount]
  exact if_pos ⟨hfits, hpositive, hle, hkeys.trans (by decide)⟩

theorem buildScript_of_buildable (h : Buildable curve hmacSha512 config) :
    ∃ script, IsRedeemScript curve hmacSha512 config script ∧
      config.buildScript curve hmacSha512 = (script.length, { config with script }) := by
  obtain ⟨children, hchildren⟩ : ∃ children,
      (List.range config.n.toNat).mapM (currentChild curve hmacSha512 config) = some children := by
    apply Option.isSome_iff_exists.mp
    exact mapM_isSome.mpr fun slot hslot => h.children slot (List.mem_range.mp hslot)
  have hforall := mapM_eq_some.mp hchildren
  have hlength : children.length = config.n.toNat := by rw [← hforall.length_eq, List.length_range]
  rw [MultisigConfig.buildScript, if_neg (by rw [h.shape]; decide), deriveMultisigChildren_eq h.shape, hchildren]
  have hperm : (if config.v45 then children else sortXonlyChildren children).Perm children := by
    cases config.v45 with
    | true => exact List.Perm.refl children
    | false => exact perm_swapSort Subtype.val children
  refine ⟨_, ⟨h.shape, children, _, hforall, hperm, ?_, rfl⟩, ?_⟩
  · cases config.v45 with
    | true => rfl
    | false => exact swapSort_sorted Subtype.val children
  · dsimp only
    simp only [writeMultisigScript, encodeRedeem_valid h.shape (hperm.length_eq.trans hlength)]

/-- Every way out before the script is written leaves the script as it was. -/
theorem buildScript_of_not_buildable (h : ¬ Buildable curve hmacSha512 config) :
    config.buildScript curve hmacSha512 = (0, config) := by
  rw [MultisigConfig.buildScript]
  split
  case isTrue => rfl
  case isFalse hshape =>
    have hvalid : validConfig config.m config.n = true := by
      rwa [Bool.not_eq_false] at hshape
    rw [deriveMultisigChildren_eq hvalid]
    cases hchildren : (List.range config.n.toNat).mapM (currentChild curve hmacSha512 config) with
    | none => rfl
    | some children =>
      apply absurd _ h
      have hall := mapM_isSome.mp (Option.isSome_of_eq_some hchildren)
      exact ⟨hvalid, fun slot hslot => hall slot (List.mem_range.mpr hslot)⟩

theorem IsRedeemScript.buildable {script : Bytes} (h : IsRedeemScript curve hmacSha512 config script) :
    Buildable curve hmacSha512 config := by
  obtain ⟨hshape, children, _, hchildren, _⟩ := h
  have hall := mapM_isSome.mp (Option.isSome_of_eq_some (mapM_eq_some.mpr hchildren))
  exact ⟨hshape, fun slot hslot => hall slot (List.mem_range.mpr hslot)⟩

/-- The address says no more than the script. -/
theorem Current.of_script (scriptHash : Bytes → FixedBytes 32)
    (h : config.script = [] ∨ IsRedeemScript curve hmacSha512 config config.script) :
    Current curve hmacSha512 scriptHash config := by
  refine ⟨h, fun network text htext hne => ?_⟩
  rw [MultisigConfig.address] at htext
  split at htext
  case isTrue =>
    cases htext
    exact absurd rfl hne
  case isFalse hscript =>
    exact ⟨config.script, h.resolve_left hscript, htext⟩

/-- What one build leaves is current if it succeeds, or if there was nothing to leave. -/
theorem current_buildScript (scriptHash : Bytes → FixedBytes 32) (config : MultisigConfig) :
    Current curve hmacSha512 scriptHash (config.buildScript curve hmacSha512).2 ↔
      Buildable curve hmacSha512 config ∨ config.script = [] := by
  by_cases hbuildable : Buildable curve hmacSha512 config
  · obtain ⟨script, hscript, heq⟩ := buildScript_of_buildable hbuildable
    rw [heq]
    exact iff_of_true (Current.of_script scriptHash (.inr hscript)) (.inl hbuildable)
  · rw [buildScript_of_not_buildable hbuildable]
    constructor
    · intro h
      obtain hempty | hscript := h.script
      · exact .inr hempty
      · exact .inl hscript.buildable
    · intro h
      exact Current.of_script scriptHash (.inl (h.resolve_left hbuildable))

/-! ## Runs -/

/-- What a caller does with a wallet. A change sets any of the fields but the script, which only a
build writes. -/
inductive WalletCall where
  | change (fields : MultisigConfig)
  | setCosigner (index : Nat) (parts : Participant)
  | sortCosigners
  | buildScript

variable (curve hmacSha512)

/-- Sorting more participants than there are slots panics. -/
def callWallet (self : MultisigConfig) : WalletCall → Option MultisigConfig
  | .change fields => some { fields with script := self.script }
  | .setCosigner index parts => some (self.setCosigner index parts).2
  | .sortCosigners =>
    if self.v45 && Transaction.Model.MAX_MULTISIG_KEYS < self.n.toNat then none else some self.sortCosigners
  | .buildScript => some (self.buildScript curve hmacSha512).2

/-- Every build of a run leaves the redeem script of the fields as they are at that build, or none, and
no address of another position, exactly if each of them succeeds or finds no script to leave. -/
theorem current_redeem_script (scriptHash : Bytes → FixedBytes 32) (start : MultisigConfig)
    (calls : List WalletCall) :
    Along (callWallet curve hmacSha512)
        (fun config call => call = .buildScript →
          Current curve hmacSha512 scriptHash (config.buildScript curve hmacSha512).2) start calls ↔
      Along (callWallet curve hmacSha512)
        (fun config call => call = .buildScript → Buildable curve hmacSha512 config ∨ config.script = [])
        start calls := by
  apply Along.congr
  intro config call
  rw [current_buildScript]

end curve

/-! ## A hardened index -/

/-- One legacy cosigner. -/
def legacyWallet : MultisigConfig where
  m := 1
  n := 1
  cosigners := { emptySlot with publicKey := ⟨[0x02] ++ List.replicate 31 0 ++ [5], rfl⟩ } ::
    List.replicate 4 emptySlot
  five := rfl
  addrIndex := 0
  v45 := false
  cosignerIndex := 0
  chain := 0
  script := []

/-- No key is derived at a hardened index, whatever script the wallet has. -/
theorem hardened_not_buildable (script : Bytes) :
    ¬ Buildable cyclicCurve sampleHmac { legacyWallet with addrIndex := 0x80000000, script } := by
  intro h
  have hnone : currentChild cyclicCurve sampleHmac { legacyWallet with addrIndex := 0x80000000 } 0 = none := by
    decide
  have hsome := h.children 0 Nat.zero_lt_one
  change (currentChild cyclicCurve sampleHmac { legacyWallet with addrIndex := 0x80000000 } 0).isSome = true at hsome
  rw [hnone] at hsome
  cases hsome

/-- A build at a hardened index fails and leaves the script of index 0. -/
theorem hardened_index_leaves_script :
    ¬ Along (callWallet cyclicCurve sampleHmac)
      (fun config call => call = .buildScript →
        Current cyclicCurve sampleHmac (fun _ => zeros 32) (config.buildScript cyclicCurve sampleHmac).2)
      legacyWallet [.buildScript, .change { legacyWallet with addrIndex := 0x80000000 }, .buildScript] := by
  intro h
  have hscript : (legacyWallet.buildScript cyclicCurve sampleHmac).2.script ≠ [] := by decide
  have hfirst := h.2 _ rfl
  generalize (legacyWallet.buildScript cyclicCurve sampleHmac).2 = first at hscript hfirst
  obtain ⟨_, hchanged⟩ := hfirst
  obtain ⟨hbuilt, _⟩ := hchanged _ rfl
  obtain hbuildable | hempty := (current_buildScript _ _).mp (hbuilt rfl)
  · exact hardened_not_buildable _ hbuildable
  · exact hscript hempty

end KaspaPortal.Guarantees
