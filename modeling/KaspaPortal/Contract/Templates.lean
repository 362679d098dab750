import KaspaPortal.Contract.Recognizers

/-!
# Contract scripts as rows of items

What each builder appends, item by item, with the optional clauses where the builder has them. The
fields are read off the elements of the row, and the row is built again from them.

The builders' own refusals, such as a zero lock or a long destination, are theirs: a row of items
exists for every choice of fields.
-/
namespace KaspaPortal.Contract.Covenant
open Lib Primitives Contract.Script Contract.ShippingEscrow Contract.Merkle

section items
open Item

/-- A signature of `key` that must verify. -/
def signedItems (key : FixedBytes 32) : List Item := [data key.val, op OP_CHECKSIGVERIFY]

/-- The lock time is reached, on the last row of a branch. -/
def lockedItems (time : UInt64) : List Item := [int time, op OP_CHECKLOCKTIMEVERIFY, op OP_1]

/-- Output `index` paysItems `spk`. -/
def paysItems (index : UInt64) (spk : Bytes) : List Item :=
  [int index, op OP_TX_OUTPUT_SPK, data spk, op OP_EQUALVERIFY]

/-- A salt makes scripts with the same parameters different. -/
def saltedItems (salt : Bytes) : List Item := [data salt, op OP_DROP]

/-- Each template below, item by item, as the builder writes it. -/
def DmsFields.items (fields : DmsFields) : List Item :=
  [op OP_IF, data fields.ownerPubkey.val, op OP_CHECKSIG,
    op OP_ELSE, int fields.inactivityDaa, op OP_CHECKSEQUENCEVERIFY,
    data fields.heirPubkey.val, op OP_CHECKSIG, op OP_ENDIF]

def TimelockedSavingsFields.items (fields : TimelockedSavingsFields) : List Item :=
  op OP_IF :: signedItems fields.wallet1Pubkey ++ lockedItems fields.locktimeDaa ++
    op OP_ELSE :: signedItems fields.wallet2Pubkey ++ lockedItems fields.locktimeDaa ++ [op OP_ENDIF]

def PayjoinFields.items (fields : PayjoinFields) : List Item :=
  op OP_IF :: signedItems fields.ownerPubkey ++ lockedItems fields.locktimeDaa ++
    op OP_ELSE :: signedItems fields.beneficiaryPubkey ++
      [op OP_TX_INPUT_COUNT, int fields.minInputs, op OP_GREATERTHANOREQUAL, op OP_VERIFY,
        op OP_TX_OUTPUT_COUNT, int fields.minOutputs, op OP_GREATERTHANOREQUAL, op OP_VERIFY,
        int 0, op OP_TX_INPUT_SPK, int 1, op OP_TX_INPUT_SPK, op OP_EQUAL, op OP_NOT,
        op OP_VERIFY, op OP_1, op OP_ENDIF]

def OracleV1Fields.items (fields : OracleV1Fields) : List Item :=
  saltedItems fields.salt.val ++ op OP_IF :: signedItems fields.ownerPubkey ++ lockedItems fields.locktimeDaa ++
    op OP_ELSE :: signedItems fields.beneficiaryPubkey ++
      [data fields.messageCommitment.val, data fields.oraclePubkey.val, op OP_CHECKSIGFROMSTACK,
        op OP_VERIFY, op OP_1, op OP_ENDIF]

/-- Conditions that are not set are left out of the script. -/
def PiggyBankFields.breakItems (fields : PiggyBankFields) : List Item :=
  if fields.thresholdSompi > 0 ∨ fields.deadlineDaa > 0 then
    [op OP_CHECKSIGVERIFY, op OP_IF] ++
      (if fields.thresholdSompi > 0 then
        [op OP_0, op OP_TX_OUTPUT_AMOUNT, int fields.thresholdSompi, op OP_GREATERTHANOREQUAL]
      else [op OP_0]) ++
      op OP_ELSE ::
      (if fields.deadlineDaa > 0 then lockedItems fields.deadlineDaa else [op OP_0]) ++ [op OP_ENDIF]
  else [op OP_CHECKSIG]

def PiggyBankFields.items (fields : PiggyBankFields) : List Item :=
  saltedItems fields.salt.val ++ [op OP_IF, data fields.ownerPubkey.val] ++ fields.breakItems ++
    [op OP_ELSE, op OP_TX_INPUT_INDEX, op OP_TX_INPUT_SPK, op OP_TX_INPUT_INDEX,
      op OP_TX_OUTPUT_SPK, op OP_EQUALVERIFY, op OP_TX_INPUT_INDEX, op OP_TX_OUTPUT_AMOUNT,
      op OP_TX_INPUT_INDEX, op OP_TX_INPUT_AMOUNT, op OP_GREATERTHANOREQUAL, op OP_ENDIF]

/-- The enforcement that both global families share. -/
def globalThreadItems (maxWithdrawSompi : UInt64) : List Item :=
  [op OP_TX_INPUT_INDEX, op OP_INPUT_COVENANT_ID, op OP_DUP, op OP_COV_OUTPUT_COUNT, op OP_DUP,
    int 1, op OP_EQUAL, op OP_IF, op OP_DROP, int 0, op OP_COV_OUTPUT_IDX, op OP_DUP,
    op OP_TX_OUTPUT_SPK, op OP_TX_INPUT_INDEX, op OP_TX_INPUT_SPK, op OP_EQUALVERIFY,
    op OP_TX_OUTPUT_AMOUNT, op OP_TX_INPUT_INDEX, op OP_TX_INPUT_AMOUNT, int maxWithdrawSompi,
    op OP_SUB, op OP_GREATERTHANOREQUAL, op OP_VERIFY,
    op OP_ELSE, int 0, op OP_EQUALVERIFY, op OP_DROP, op OP_TX_INPUT_INDEX,
    op OP_TX_INPUT_AMOUNT, int maxWithdrawSompi, op OP_LESSTHANOREQUAL, op OP_VERIFY,
    op OP_ENDIF, op OP_1]

def GlobalAllowanceFields.items (fields : GlobalAllowanceFields) : List Item :=
  saltedItems fields.salt.val ++ [op OP_IF, data fields.ownerPubkey.val, op OP_CHECKSIG] ++
    op OP_ELSE :: signedItems fields.beneficiaryPubkey ++
      (if 0 < fields.startDaa then [int fields.startDaa, op OP_CHECKLOCKTIMEVERIFY] else []) ++
      (if 0 < fields.cooldownDaa then [int fields.cooldownDaa, op OP_CHECKSEQUENCEVERIFY] else []) ++
      globalThreadItems fields.maxWithdrawSompi ++ [op OP_ENDIF]

def GlobalSpendingLimitFields.items (fields : GlobalSpendingLimitFields) : List Item :=
  saltedItems fields.salt.val ++ signedItems fields.ownerPubkey ++
    [int fields.cooldownDaa, op OP_CHECKSEQUENCEVERIFY] ++ globalThreadItems fields.maxWithdrawSompi

/-- Each party may pay the other and the arbiter may pay either; a fourth branch keeps the script. -/
def EscrowFields.items (fields : EscrowFields) : List Item :=
  let toBob := paysItems 0 (versionedDestination fields.bobSpk) ++ [op OP_1]
  let toAlice := paysItems 0 (versionedDestination fields.aliceSpk) ++ [op OP_1]
  saltedItems fields.salt.val ++
    op OP_IF :: signedItems fields.alicePubkey ++ toBob ++
    op OP_ELSE :: op OP_IF :: signedItems fields.bobPubkey ++ toAlice ++
    op OP_ELSE :: op OP_IF :: signedItems fields.arbiterPubkey ++
      op OP_IF :: toBob ++ op OP_ELSE :: toAlice ++ op OP_ENDIF ::
    op OP_ELSE ::
      op OP_IF :: signedItems fields.alicePubkey ++ op OP_ELSE :: signedItems fields.bobPubkey ++
      [op OP_ENDIF, op OP_TX_INPUT_INDEX, op OP_TX_INPUT_SPK, int 0, op OP_TX_OUTPUT_SPK,
        op OP_EQUALVERIFY, op OP_1, op OP_ENDIF, op OP_ENDIF, op OP_ENDIF]

def PrivateSwapFields.items (fields : PrivateSwapFields) : List Item :=
  saltedItems fields.salt.val ++ op OP_IF :: signedItems fields.claimerPubkey ++
      [op OP_TX_INPUT_COUNT, int 1, op OP_NUMEQUALVERIFY,
        op OP_TX_OUTPUT_COUNT, int 1, op OP_NUMEQUALVERIFY] ++
      paysItems 0 (versionedDestination fields.claimerOutputSpk) ++
      [int 0, op OP_TX_INPUT_AMOUNT, op OP_DUP, int 0, op OP_TX_OUTPUT_AMOUNT,
        op OP_GREATERTHANOREQUAL, op OP_VERIFY, int 0, op OP_TX_OUTPUT_AMOUNT, op OP_SUB,
        int PRIVATE_SWAP_MAX_FEE_SOMPI, op OP_LESSTHANOREQUAL, op OP_VERIFY, op OP_1] ++
    op OP_ELSE :: signedItems fields.ownerPubkey ++ lockedItems fields.refundLocktimeDaa ++ [op OP_ENDIF]

def CommitRevealFields.items (fields : CommitRevealFields) : List Item :=
  op OP_IF :: signedItems fields.ownerPubkey ++ lockedItems fields.locktimeDaa ++
    op OP_ELSE :: signedItems fields.ownerPubkey ++
      [op OP_CAT, op OP_BLAKE2B, data fields.committedHash.val, op OP_EQUALVERIFY, op OP_1,
        op OP_ENDIF]

/-- One level of the tree. -/
def levelItems : List Item :=
  [op OP_SWAP, op OP_IF, op OP_SWAP, op OP_ENDIF, op OP_CAT, op OP_BLAKE2B]

/-- One level after the other, from the leaf up. -/
def levelsItems : Nat → List Item
  | 0 => []
  | depth + 1 => levelItems ++ levelsItems depth

/-- The script grows with the depth of the tree. -/
def MerkleWhitelistFields.items (fields : MerkleWhitelistFields) : List Item :=
  op OP_IF :: signedItems fields.ownerPubkey ++ lockedItems fields.locktimeDaa ++
    op OP_ELSE :: signedItems fields.ownerPubkey ++ op OP_BLAKE2B :: levelsItems fields.depth.toNat ++
      [data fields.merkleRoot.val, op OP_EQUALVERIFY, int 0, op OP_TX_OUTPUT_SPK,
        op OP_EQUALVERIFY, op OP_1, op OP_ENDIF]

/-- The number of outputs, on the last row of a branch. -/
def outputCountItems (count : UInt64) : List Item :=
  [op OP_TX_OUTPUT_COUNT, int count, op OP_EQUALVERIFY, op OP_1]

/-- The branches of an amount that is the remainder. -/
def stateOneItems (config : StateOneConfig) : List Item :=
  [op OP_DUP, int config.remainder, op OP_EQUAL, op OP_IF, op OP_DROP, op OP_IF, op OP_IF] ++
    signedItems config.buyerPubkey ++ [op OP_ELSE, op OP_IF] ++ signedItems config.arbiterPubkey ++
    [op OP_ELSE, int config.deliveryDeadline, op OP_CHECKLOCKTIMEVERIFY, op OP_ENDIF, op OP_ENDIF] ++
    paysItems 0 config.sellerSpk ++ paysItems 1 config.delivererSpk ++
    [int 1, op OP_TX_OUTPUT_AMOUNT, int config.feeSompi, op OP_EQUALVERIFY] ++ outputCountItems 2 ++
    op OP_ELSE :: signedItems config.arbiterPubkey ++ paysItems 0 config.buyerSpk ++ outputCountItems 1 ++
    [op OP_ENDIF, op OP_ELSE, op OP_DROP, op OP_0, op OP_ENDIF]

def stateZeroItems (config : StateZeroConfig) : List Item :=
  [op OP_DUP, int config.total, op OP_EQUAL, op OP_IF, op OP_DROP, op OP_IF] ++
    signedItems config.delivererPubkey ++
    [int 0, op OP_TX_OUTPUT_SPK, op OP_TX_INPUT_INDEX, op OP_TX_INPUT_SPK, op OP_EQUALVERIFY,
      int 0, op OP_TX_OUTPUT_AMOUNT, int config.remainder, op OP_EQUALVERIFY] ++
    paysItems 1 config.sellerSpk ++ outputCountItems 2 ++
    [op OP_ELSE, op OP_IF] ++ signedItems config.arbiterPubkey ++
    [op OP_ELSE, int config.pickupDeadline, op OP_CHECKLOCKTIMEVERIFY, op OP_ENDIF] ++
    paysItems 0 config.buyerSpk ++ outputCountItems 1 ++ [op OP_ENDIF, op OP_ELSE] ++
    stateOneItems config.stateOne ++ [op OP_ENDIF]

def shipEscrowItems (request : ShippingEscrowScriptRequest) (tranches : ShippingEscrowTranches) :
    List Item :=
  saltedItems request.salt.val ++ [op OP_TX_INPUT_INDEX, op OP_TX_INPUT_AMOUNT] ++
    stateZeroItems (stateZeroConfig request tranches)

end items

/-! ## The rows are the scripts -/

section rows

/-- The builder's bytes are those of the items. -/
theorem DmsFields.build_eq (fields : DmsFields) : fields.build = some (scriptOf fields.items) := by
  simp [DmsFields.build, buildDmsCsvScript, items, Item.bytes, pushPubkey_eq]

theorem TimelockedSavingsFields.build_eq (fields : TimelockedSavingsFields) :
    fields.build = some (scriptOf fields.items) := by
  simp [TimelockedSavingsFields.build, buildTimelockedSavingsScript, items, signedItems, lockedItems,
    Item.bytes, pushPubkey_eq]

theorem PayjoinFields.build_eq (fields : PayjoinFields) :
    fields.build = some (scriptOf fields.items) := by
  unfold PayjoinFields.build buildPayjoinCovenantScript items
  simp only [signedItems, lockedItems, Item.bytes, pushPubkey_eq, scriptOf_cons, scriptOf_nil,
    List.cons_append, List.nil_append, List.append_assoc, List.append_nil]

theorem OracleV1Fields.build_eq (fields : OracleV1Fields) :
    fields.build = some (scriptOf fields.items) := by
  simp [OracleV1Fields.build, buildOracleV1CovenantScript, items, signedItems, lockedItems, saltedItems, Item.bytes,
    pushPubkey_eq, ← pushSalt16_eq]

theorem PiggyBankFields.build_eq (fields : PiggyBankFields) :
    fields.build = some (scriptOf fields.items) := by
  simp only [PiggyBankFields.build, buildPiggyBankScript, items, breakItems, Option.some.injEq]
  split
  · split <;> split <;> simp [lockedItems, saltedItems, Item.bytes, pushPubkey_eq, ← pushSalt_eq]
  · simp [saltedItems, Item.bytes, pushPubkey_eq, ← pushSalt_eq]

theorem scriptOf_globalThreadItems (maxWithdrawSompi : UInt64) :
    scriptOf (globalThreadItems maxWithdrawSompi) = appendGlobalThreadEnforcement maxWithdrawSompi := by
  simp [globalThreadItems, appendGlobalThreadEnforcement, Item.bytes]

theorem GlobalAllowanceFields.build_eq (fields : GlobalAllowanceFields) :
    fields.build = some (scriptOf fields.items) := by
  simp only [GlobalAllowanceFields.build, buildGlobalAllowanceScript, items, Option.some.injEq]
  split <;> split <;>
    simp [signedItems, saltedItems, Item.bytes, pushPubkey_eq, ← pushSalt_eq, scriptOf_globalThreadItems]

theorem GlobalSpendingLimitFields.build_eq (fields : GlobalSpendingLimitFields) :
    fields.build = some (scriptOf fields.items) := by
  simp [GlobalSpendingLimitFields.build, buildGlobalSpendingLimitScript, items, signedItems, saltedItems,
    Item.bytes, pushPubkey_eq, ← pushSalt_eq, scriptOf_globalThreadItems]

theorem EscrowFields.build_eq (fields : EscrowFields) : fields.build = some (scriptOf fields.items) := by
  unfold EscrowFields.build buildEscrowScript items
  simp only [signedItems, saltedItems, paysItems, versionedDestination, Item.bytes, pushPubkey_eq,
    ← pushSalt_eq, scriptOf_cons, scriptOf_nil, List.cons_append, List.nil_append,
    List.append_assoc, List.append_nil]

theorem CommitRevealFields.build_eq (fields : CommitRevealFields) :
    fields.build = some (scriptOf fields.items) := by
  simp [CommitRevealFields.build, buildCommitRevealScript, items, signedItems, lockedItems, Item.bytes,
    pushPubkey_eq]

/-- The same of the levels, by recursion on the depth. -/
theorem scriptOf_levelsItems (depth : Nat) : scriptOf (levelsItems depth) = appendLevels depth := by
  induction depth with
  | zero => rfl
  | succ depth ih =>
    rw [levelsItems, appendLevels, scriptOf_append, ih]
    rfl

theorem MerkleWhitelistFields.build_eq (fields : MerkleWhitelistFields) :
    fields.build = some (scriptOf fields.items) := by
  simp [MerkleWhitelistFields.build, buildMerkleWhitelistScript, appendOwnerRefundBranch,
    appendWhitelistBranch, items, signedItems, lockedItems, Item.bytes, pushPubkey_eq, scriptOf_levelsItems]

/-- The checks of the swap bound the destination. -/
theorem PrivateSwapFields.build_eq_some {fields : PrivateSwapFields} {script : Bytes}
    (h : fields.build = some script) :
    script = scriptOf fields.items ∧ fields.claimerOutputSpk.length ≤ 73 := by
  rw [PrivateSwapFields.build, toOption_eq_some] at h
  unfold buildPrivateSwapScript at h
  split at h
  · cases h
  split at h
  · cases h
  split at h
  · cases h
  rename_i hlength
  split at h
  · cases h
  refine ⟨?_, by omega⟩
  rw [← Except.ok.inj h]
  unfold items
  simp only [signedItems, lockedItems, saltedItems, paysItems, appendClaimFeeBound, Item.bytes,
    pushPubkey_eq, scriptOf_cons, scriptOf_nil, List.cons_append, List.nil_append, List.append_assoc,
    List.append_nil]

theorem scriptOf_stateOneItems (config : StateOneConfig) :
    scriptOf (stateOneItems config) = StateOne.appendDispatch config := by
  unfold stateOneItems StateOne.appendDispatch StateOne.appendDeliveryOrRefund
  simp only [signedItems, paysItems, outputCountItems, Item.bytes, pushPubkey_eq, scriptOf_cons,
    scriptOf_nil, List.cons_append, List.nil_append, List.append_assoc, List.append_nil]

theorem scriptOf_stateZeroItems (config : StateZeroConfig) :
    scriptOf (stateZeroItems config) = StateZero.appendDispatch config := by
  unfold stateZeroItems StateZero.appendDispatch StateZero.appendPickupOrRefund
  simp only [signedItems, paysItems, outputCountItems, Item.bytes, pushPubkey_eq, scriptOf_cons,
    scriptOf_append, scriptOf_nil, scriptOf_stateOneItems, List.cons_append, List.nil_append,
    List.append_assoc, List.append_nil]

/-- A script is only given for amounts that can be split, and is then that of the items. -/
theorem ShippingEscrowTerms.build_eq_some {terms : ShippingEscrowTerms} {script : Bytes}
    (h : terms.build = some script) : ∃ tranches,
      ShippingEscrowTranches.new terms.productSompi terms.feeSompi = .ok tranches ∧
      script = scriptOf (shipEscrowItems terms.request tranches) := by
  rw [ShippingEscrowTerms.build, toOption_eq_some] at h
  obtain ⟨tranches, htranches, h⟩ := bind_eq_ok.mp h
  refine ⟨tranches, htranches, ?_⟩
  rw [← Except.ok.inj h, shipEscrowItems, scriptOf_append, scriptOf_append, scriptOf_stateZeroItems]
  simp only [saltedItems, Item.bytes, ← pushSalt_eq, scriptOf_cons, scriptOf_nil, List.cons_append,
    List.nil_append, List.append_assoc, List.append_nil]

end rows

end KaspaPortal.Contract.Covenant
