import KaspaPortal.Contract.Readback

/-!
# Recognizers and builders

A recognizer inverts its builder except where a script integer of nine octets is read by the opcode
that follows it. The opcodes at a few places of a script say which family it can be of, so no script
is of two.

A script that none of the twelve builders makes is recognised by none: every recognizer compares
with what it would have built.
-/
namespace KaspaPortal.Guarantees
open Lib Primitives Contract.Script Contract.Covenant Contract.ShippingEscrow

/-! ## The family of a script -/

section shape

/-- The opcode at a position. Families are told apart by opcodes alone. -/
def opcodeAt (elements : List Element) (index : Nat) : Option UInt8 :=
  (elements[index]?).map Element.opcode

/-- The family that the elements of a built script show. -/
def familyOf (elements : List Element) : Family :=
  if opcodeAt elements 0 = some OP_IF then
    if opcodeAt elements 2 = some OP_CHECKSIG then .dms
    else if opcodeAt elements 9 = some OP_TX_INPUT_COUNT then .payjoin
    else if opcodeAt elements 9 = some OP_CAT then .commitReveal
    else if opcodeAt elements 9 = some OP_BLAKE2B then .merkleWhitelist
    else .timelockedSavings
  else if opcodeAt elements 2 = some OP_TX_INPUT_INDEX then .shippingEscrow
  else if opcodeAt elements 0 = some 16 then
    if opcodeAt elements 5 = some OP_TX_INPUT_COUNT then .privateSwap else .oracleV1
  else if opcodeAt elements 2 ≠ some OP_IF then .globalSpendingLimit
  else if opcodeAt elements 4 = some OP_CHECKSIG then
    if opcodeAt elements 6 = some OP_TX_INPUT_INDEX then .piggyBank else .globalAllowance
  else if opcodeAt elements 5 = some OP_IF then .piggyBank
  else .escrow

/-- Short data is pushed by an opcode that is its length. -/
theorem dataElement_opcode {n : Nat} (hn : n ≤ 75) (value : FixedBytes n) :
    (dataElement value.val).opcode = UInt8.ofNat n := by
  rw [dataElement, if_pos (by rw [value.property]; exact hn), value.property]

@[simp] theorem key_opcode (key : FixedBytes 32) : (dataElement key.val).opcode = 32 :=
  dataElement_opcode (by decide) key

@[simp] theorem salt_opcode (salt : FixedBytes 8) : (dataElement salt.val).opcode = 8 :=
  dataElement_opcode (by decide) salt

@[simp] theorem salt16_opcode (salt : FixedBytes 16) : (dataElement salt.val).opcode = 16 :=
  dataElement_opcode (by decide) salt

/-- No integer is written as an opcode above the small integers. -/
theorem intElement_opcode_ne {target : UInt8} (h : OP_16 < target) (value : UInt64) :
    (intElement value).opcode ≠ target := by
  intro heq
  exact UInt8.not_le.mpr h (heq ▸ intElement_opcode_le value)

/-- What stands at a position is known from the template. -/
theorem opcodeAt_op {items : List Item} {index : Nat} {opcode : UInt8}
    (h : items[index]? = some (Item.op opcode)) :
    opcodeAt (items.map Item.element) index = some opcode := by
  rw [opcodeAt, List.getElem?_map, h]
  rfl

theorem opcodeAt_data {items : List Item} {n index : Nat} {value : FixedBytes n} (hn : n ≤ 75)
    (h : items[index]? = some (Item.data value.val)) :
    opcodeAt (items.map Item.element) index = some (UInt8.ofNat n) := by
  rw [opcodeAt, List.getElem?_map, h]
  exact congrArg some (dataElement_opcode hn value)

theorem opcodeAt_int {items : List Item} {index : Nat} {value : UInt64}
    (h : items[index]? = some (Item.int value)) {target : UInt8} (htarget : OP_16 < target) :
    opcodeAt (items.map Item.element) index ≠ some target := by
  rw [opcodeAt, List.getElem?_map, h]
  intro heq
  exact intElement_opcode_ne htarget value (Option.some.inj heq)

/-- The script of every family is recognised as its own, whatever its parameters. -/
theorem familyOf_dms (fields : DmsFields) : familyOf (fields.items.map Item.element) = .dms := by
  have h0 : opcodeAt (fields.items.map Item.element) 0 = some OP_IF := opcodeAt_op rfl
  have h2 : opcodeAt (fields.items.map Item.element) 2 = some OP_CHECKSIG := opcodeAt_op rfl
  rw [familyOf, if_pos h0, if_pos h2]

/-- The four families whose first branch is a signature behind a lock time. -/
theorem familyOf_locked {elements : List Element} (h0 : opcodeAt elements 0 = some OP_IF)
    (h2 : opcodeAt elements 2 = some OP_CHECKSIGVERIFY) :
    familyOf elements =
      if opcodeAt elements 9 = some OP_TX_INPUT_COUNT then .payjoin
      else if opcodeAt elements 9 = some OP_CAT then .commitReveal
      else if opcodeAt elements 9 = some OP_BLAKE2B then .merkleWhitelist
      else .timelockedSavings := by
  rw [familyOf, if_pos h0, if_neg (by rw [h2]; decide)]

theorem familyOf_timelockedSavings (fields : TimelockedSavingsFields) :
    familyOf (fields.items.map Item.element) = .timelockedSavings := by
  have h9 : fields.items[9]? = some (Item.int fields.locktimeDaa) := rfl
  rw [familyOf_locked (opcodeAt_op rfl) (opcodeAt_op rfl), if_neg (opcodeAt_int h9 (by decide)),
    if_neg (opcodeAt_int h9 (by decide)), if_neg (opcodeAt_int h9 (by decide))]

theorem familyOf_payjoin (fields : PayjoinFields) :
    familyOf (fields.items.map Item.element) = .payjoin := by
  have h9 : opcodeAt (fields.items.map Item.element) 9 = some OP_TX_INPUT_COUNT := opcodeAt_op rfl
  rw [familyOf_locked (opcodeAt_op rfl) (opcodeAt_op rfl), if_pos h9]

theorem familyOf_commitReveal (fields : CommitRevealFields) :
    familyOf (fields.items.map Item.element) = .commitReveal := by
  have h9 : opcodeAt (fields.items.map Item.element) 9 = some OP_CAT := opcodeAt_op rfl
  rw [familyOf_locked (opcodeAt_op rfl) (opcodeAt_op rfl), h9]
  rfl

theorem familyOf_merkleWhitelist (fields : MerkleWhitelistFields) :
    familyOf (fields.items.map Item.element) = .merkleWhitelist := by
  have h9 : opcodeAt (fields.items.map Item.element) 9 = some OP_BLAKE2B := opcodeAt_op rfl
  rw [familyOf_locked (opcodeAt_op rfl) (opcodeAt_op rfl), h9]
  rfl

theorem familyOf_shippingEscrow (request : ShippingEscrowScriptRequest)
    (tranches : ShippingEscrowTranches) :
    familyOf ((shipEscrowItems request tranches).map Item.element) = .shippingEscrow := by
  have h0 : opcodeAt ((shipEscrowItems request tranches).map Item.element) 0 = some 8 :=
    opcodeAt_data (by decide) (shipEscrowItems_keys request tranches).1
  have h2 : opcodeAt ((shipEscrowItems request tranches).map Item.element) 2 = some OP_TX_INPUT_INDEX :=
    opcodeAt_op rfl
  rw [familyOf, if_neg (by rw [h0]; decide), if_pos h2]

/-- The families behind a long salt. -/
theorem familyOf_longSalt {elements : List Element} (h0 : opcodeAt elements 0 = some 16)
    (h2 : opcodeAt elements 2 = some OP_IF) :
    familyOf elements =
      if opcodeAt elements 5 = some OP_TX_INPUT_COUNT then .privateSwap else .oracleV1 := by
  rw [familyOf, if_neg (by rw [h0]; decide), if_neg (by rw [h2]; decide), if_pos h0]

theorem familyOf_oracleV1 (fields : OracleV1Fields) :
    familyOf (fields.items.map Item.element) = .oracleV1 := by
  have h0 : fields.items[0]? = some (Item.data fields.salt.val) := rfl
  have h5 : fields.items[5]? = some (Item.int fields.locktimeDaa) := rfl
  rw [familyOf_longSalt (opcodeAt_data (by decide) h0) (opcodeAt_op rfl),
    if_neg (opcodeAt_int h5 (by decide))]

theorem familyOf_privateSwap (fields : PrivateSwapFields) :
    familyOf (fields.items.map Item.element) = .privateSwap := by
  have h0 : fields.items[0]? = some (Item.data fields.salt.val) := rfl
  have h5 : opcodeAt (fields.items.map Item.element) 5 = some OP_TX_INPUT_COUNT := opcodeAt_op rfl
  rw [familyOf_longSalt (opcodeAt_data (by decide) h0) (opcodeAt_op rfl), if_pos h5]

theorem familyOf_globalSpendingLimit (fields : GlobalSpendingLimitFields) :
    familyOf (fields.items.map Item.element) = .globalSpendingLimit := by
  have hsalt : fields.items[0]? = some (Item.data fields.salt.val) := rfl
  have howner : fields.items[2]? = some (Item.data fields.ownerPubkey.val) := rfl
  have h0 := opcodeAt_data (by decide) hsalt
  have h2 := opcodeAt_data (by decide) howner
  rw [familyOf, if_neg (by rw [h0]; decide), if_neg (by rw [h2]; decide),
    if_neg (by rw [h0]; decide), if_pos (by rw [h2]; decide)]

/-- The families behind a short salt that start with a branch. -/
theorem familyOf_shortSalt {elements : List Element} (h0 : opcodeAt elements 0 = some 8)
    (h2 : opcodeAt elements 2 = some OP_IF) :
    familyOf elements =
      if opcodeAt elements 4 = some OP_CHECKSIG then
        if opcodeAt elements 6 = some OP_TX_INPUT_INDEX then .piggyBank else .globalAllowance
      else if opcodeAt elements 5 = some OP_IF then .piggyBank
      else .escrow := by
  rw [familyOf, if_neg (by rw [h0]; decide), if_neg (by rw [h2]; decide),
    if_neg (by rw [h0]; decide), if_neg (by rw [h2]; decide)]

theorem familyOf_globalAllowance (fields : GlobalAllowanceFields) :
    familyOf (fields.items.map Item.element) = .globalAllowance := by
  have hsalt : fields.items[0]? = some (Item.data fields.salt.val) := rfl
  have hbeneficiary : fields.items[6]? = some (Item.data fields.beneficiaryPubkey.val) := rfl
  have h4 : opcodeAt (fields.items.map Item.element) 4 = some OP_CHECKSIG := opcodeAt_op rfl
  rw [familyOf_shortSalt (opcodeAt_data (by decide) hsalt) (opcodeAt_op rfl), if_pos h4,
    opcodeAt_data (by decide) hbeneficiary]
  rfl

/-- With a goal or a deadline the signature is verified and a branch follows; without, it is the last
thing before the deposit path. -/
theorem familyOf_piggyBank (fields : PiggyBankFields) :
    familyOf (fields.items.map Item.element) = .piggyBank := by
  have hsalt : fields.items[0]? = some (Item.data fields.salt.val) := rfl
  rw [familyOf_shortSalt (opcodeAt_data (by decide) hsalt) (opcodeAt_op rfl)]
  by_cases hclause : fields.thresholdSompi > 0 ∨ fields.deadlineDaa > 0
  · have h4 : opcodeAt (fields.items.map Item.element) 4 = some OP_CHECKSIGVERIFY := by
      rw [PiggyBankFields.items, PiggyBankFields.breakItems, if_pos hclause]
      exact opcodeAt_op rfl
    have h5 : opcodeAt (fields.items.map Item.element) 5 = some OP_IF := by
      rw [PiggyBankFields.items, PiggyBankFields.breakItems, if_pos hclause]
      exact opcodeAt_op rfl
    rw [if_neg (by rw [h4]; decide), if_pos h5]
  · have h4 : opcodeAt (fields.items.map Item.element) 4 = some OP_CHECKSIG := by
      rw [PiggyBankFields.items, PiggyBankFields.breakItems, if_neg hclause]
      exact opcodeAt_op rfl
    have h6 : opcodeAt (fields.items.map Item.element) 6 = some OP_TX_INPUT_INDEX := by
      rw [PiggyBankFields.items, PiggyBankFields.breakItems, if_neg hclause]
      exact opcodeAt_op rfl
    rw [if_pos h4, if_pos h6]

theorem familyOf_escrow (fields : EscrowFields) :
    familyOf (fields.items.map Item.element) = .escrow := by
  have hsalt : fields.items[0]? = some (Item.data fields.salt.val) := rfl
  have hzero : fields.items[5]? = some (Item.int 0) := rfl
  have h4 : opcodeAt (fields.items.map Item.element) 4 = some OP_CHECKSIGVERIFY := opcodeAt_op rfl
  rw [familyOf_shortSalt (opcodeAt_data (by decide) hsalt) (opcodeAt_op rfl),
    if_neg (by rw [h4]; decide), if_neg (opcodeAt_int hzero (by decide))]

end shape

/-! ## Scripts that are built -/

/-- The script integers that the recognizer reads by the opcode behind them take at most eight octets. -/
def Readable : (family : Family) → family.Fields → Prop
  | .piggyBank, fields => fields.thresholdSompi.toNat < 2 ^ 63 ∧ fields.deadlineDaa.toNat < 2 ^ 63
  | .globalAllowance, fields => fields.maxWithdrawSompi.toNat < 2 ^ 63 ∧
      fields.cooldownDaa.toNat < 2 ^ 63 ∧ fields.startDaa.toNat < 2 ^ 63
  | .globalSpendingLimit, fields => fields.maxWithdrawSompi.toNat < 2 ^ 63
  | _, _ => True

/-- Within its family a built script gives back its fields exactly when they are readable. -/
theorem recognize_iff {family : Family} {fields : family.Fields} {script : Bytes}
    (hbuild : family.build fields = some script) (hpush : family.Pushes fields) :
    family.recognize script = some fields ↔ Readable family fields := by
  cases family with
  | dms =>
    obtain rfl := Option.some.inj ((DmsFields.build_eq fields).symm.trans hbuild)
    exact iff_of_true (dms_recognized fields) trivial
  | timelockedSavings =>
    obtain rfl := Option.some.inj ((TimelockedSavingsFields.build_eq fields).symm.trans hbuild)
    exact iff_of_true (timelockedSavings_recognized fields) trivial
  | payjoin =>
    obtain rfl := Option.some.inj ((PayjoinFields.build_eq fields).symm.trans hbuild)
    exact iff_of_true (payjoin_recognized fields) trivial
  | oracleV1 =>
    obtain rfl := Option.some.inj ((OracleV1Fields.build_eq fields).symm.trans hbuild)
    exact iff_of_true (oracleV1_recognized fields) trivial
  | piggyBank =>
    obtain rfl := Option.some.inj ((PiggyBankFields.build_eq fields).symm.trans hbuild)
    exact piggyBank_recognized_iff fields
  | globalAllowance =>
    obtain rfl := Option.some.inj ((GlobalAllowanceFields.build_eq fields).symm.trans hbuild)
    exact globalAllowance_recognized_iff fields
  | globalSpendingLimit =>
    obtain rfl := Option.some.inj ((GlobalSpendingLimitFields.build_eq fields).symm.trans hbuild)
    exact globalSpendingLimit_recognized_iff fields
  | escrow =>
    obtain rfl := Option.some.inj ((EscrowFields.build_eq fields).symm.trans hbuild)
    exact iff_of_true (escrow_recognized hpush.1 hpush.2) trivial
  | privateSwap => exact iff_of_true (privateSwap_recognized hbuild) trivial
  | commitReveal =>
    obtain rfl := Option.some.inj ((CommitRevealFields.build_eq fields).symm.trans hbuild)
    exact iff_of_true (commitReveal_recognized fields) trivial
  | merkleWhitelist =>
    obtain rfl := Option.some.inj ((MerkleWhitelistFields.build_eq fields).symm.trans hbuild)
    exact iff_of_true (merkleWhitelist_recognized fields) trivial
  | shippingEscrow => exact iff_of_true (shippingEscrow_recognized hbuild) trivial

/-- A built script reads back as elements that show its family. -/
theorem built_elements {family : Family} {fields : family.Fields} {script : Bytes}
    (hbuild : family.build fields = some script) (hpush : family.Pushes fields) :
    ∃ elements, completeElements script = some elements ∧ familyOf elements = family := by
  cases family with
  | dms =>
    obtain rfl := Option.some.inj ((DmsFields.build_eq fields).symm.trans hbuild)
    exact ⟨_, completeElements_scriptOf (DmsFields.readable fields), familyOf_dms fields⟩
  | timelockedSavings =>
    obtain rfl := Option.some.inj ((TimelockedSavingsFields.build_eq fields).symm.trans hbuild)
    exact ⟨_, completeElements_scriptOf (TimelockedSavingsFields.readable fields),
      familyOf_timelockedSavings fields⟩
  | payjoin =>
    obtain rfl := Option.some.inj ((PayjoinFields.build_eq fields).symm.trans hbuild)
    exact ⟨_, completeElements_scriptOf (PayjoinFields.readable fields), familyOf_payjoin fields⟩
  | oracleV1 =>
    obtain rfl := Option.some.inj ((OracleV1Fields.build_eq fields).symm.trans hbuild)
    exact ⟨_, completeElements_scriptOf (OracleV1Fields.readable fields), familyOf_oracleV1 fields⟩
  | piggyBank =>
    obtain rfl := Option.some.inj ((PiggyBankFields.build_eq fields).symm.trans hbuild)
    exact ⟨_, completeElements_scriptOf (PiggyBankFields.readable fields), familyOf_piggyBank fields⟩
  | globalAllowance =>
    obtain rfl := Option.some.inj ((GlobalAllowanceFields.build_eq fields).symm.trans hbuild)
    exact ⟨_, completeElements_scriptOf (GlobalAllowanceFields.readable fields),
      familyOf_globalAllowance fields⟩
  | globalSpendingLimit =>
    obtain rfl := Option.some.inj ((GlobalSpendingLimitFields.build_eq fields).symm.trans hbuild)
    exact ⟨_, completeElements_scriptOf (GlobalSpendingLimitFields.readable fields),
      familyOf_globalSpendingLimit fields⟩
  | escrow =>
    obtain rfl := Option.some.inj ((EscrowFields.build_eq fields).symm.trans hbuild)
    exact ⟨_, completeElements_scriptOf (EscrowFields.readable hpush.1 hpush.2), familyOf_escrow fields⟩
  | privateSwap =>
    obtain ⟨rfl, hlength⟩ := PrivateSwapFields.build_eq_some hbuild
    exact ⟨_, completeElements_scriptOf (PrivateSwapFields.readable hlength), familyOf_privateSwap fields⟩
  | commitReveal =>
    obtain rfl := Option.some.inj ((CommitRevealFields.build_eq fields).symm.trans hbuild)
    exact ⟨_, completeElements_scriptOf (CommitRevealFields.readable fields),
      familyOf_commitReveal fields⟩
  | merkleWhitelist =>
    obtain rfl := Option.some.inj ((MerkleWhitelistFields.build_eq fields).symm.trans hbuild)
    exact ⟨_, completeElements_scriptOf (MerkleWhitelistFields.readable fields),
      familyOf_merkleWhitelist fields⟩
  | shippingEscrow =>
    obtain ⟨tranches, _, rfl⟩ := ShippingEscrowTerms.build_eq_some hbuild
    exact ⟨_, completeElements_scriptOf (shipEscrowItems_readable (ShippingEscrowTerms.request fields) tranches),
      familyOf_shippingEscrow _ tranches⟩

/-! ## Equal scripts -/

/-- Scripts with the same bytes have the same elements. -/
theorem elements_eq {items items' : List Item} (h : scriptOf items = scriptOf items')
    (hitems : ∀ item ∈ items, item.Readable) (hitems' : ∀ item ∈ items', item.Readable) :
    items.map Item.element = items'.map Item.element := by
  have hread := completeElements_scriptOf hitems
  rw [h, completeElements_scriptOf hitems'] at hread
  exact (Option.some.inj hread).symm

theorem intElement_injective {a b : UInt64} (h : intElement a = intElement b) : a = b := by
  have hread := elementInteger_intElement a
  rw [h, elementInteger_intElement] at hread
  exact (Option.some.inj hread).symm

/-- A clause that is left out tells that its number is zero. -/
theorem clause_injective {a b : UInt64}
    (h : (if 0 < a then some (intElement a) else none) = if 0 < b then some (intElement b) else none) :
    a = b := by
  by_cases ha : 0 < a
  · by_cases hb : 0 < b
    · rw [if_pos ha, if_pos hb] at h
      exact intElement_injective (Option.some.inj h)
    · rw [if_pos ha, if_neg hb] at h
      cases h
  · by_cases hb : 0 < b
    · rw [if_neg ha, if_pos hb] at h
      cases h
    · rw [eq_zero_of_not_pos ha, eq_zero_of_not_pos hb]

/-- The goal is found in the script, or that there is none. -/
theorem goal_injective {a b : UInt64}
    (h : (if a > 0 then intElement a else ⟨OP_TX_INPUT_AMOUNT, []⟩) =
      if b > 0 then intElement b else ⟨OP_TX_INPUT_AMOUNT, []⟩) : a = b := by
  by_cases ha : a > 0
  · by_cases hb : b > 0
    · rw [if_pos ha, if_pos hb] at h
      exact intElement_injective h
    · rw [if_pos ha, if_neg hb] at h
      exact absurd (congrArg Element.opcode h) (intElement_opcode_ne (by decide) a)
  · by_cases hb : b > 0
    · rw [if_neg ha, if_pos hb] at h
      exact absurd (congrArg Element.opcode h.symm) (intElement_opcode_ne (by decide) b)
    · rw [eq_zero_of_not_pos ha, eq_zero_of_not_pos hb]

/-- Different parameters give different scripts. -/
theorem spendingLimit_injective {fields fields' : GlobalSpendingLimitFields}
    (h : scriptOf fields.items = scriptOf fields'.items) : fields = fields' := by
  have helements := elements_eq h fields.readable fields'.readable
  have hsalt := spendingLimit_salt fields
  have howner := spendingLimit_owner fields
  have hcooldown := spendingLimit_cooldown fields
  have hcap := spendingLimit_cap fields ⟨OP_1, []⟩
  rw [helements] at hsalt howner hcooldown hcap
  have hsalt := Option.some.inj (hsalt.symm.trans (spendingLimit_salt fields'))
  have howner := Option.some.inj (howner.symm.trans (spendingLimit_owner fields'))
  have hcooldown := Option.some.inj (hcooldown.symm.trans (spendingLimit_cooldown fields'))
  have hcap := intElement_injective (Option.some.inj (hcap.symm.trans (spendingLimit_cap fields' _)))
  cases fields
  cases fields'
  cases hsalt
  cases howner
  cases hcooldown
  cases hcap
  rfl

theorem allowance_injective {fields fields' : GlobalAllowanceFields}
    (h : scriptOf fields.items = scriptOf fields'.items) : fields = fields' := by
  have helements := elements_eq h fields.readable fields'.readable
  have hsalt := allowance_salt fields
  have howner := allowance_owner fields
  have hbeneficiary := allowance_beneficiary fields
  have hcap := allowance_cap fields ⟨OP_1, []⟩
  have hcooldown := allowance_cooldown fields ⟨OP_1, []⟩
  have hstart := allowance_start fields ⟨OP_1, []⟩
  rw [helements] at hsalt howner hbeneficiary hcap hcooldown hstart
  have hsalt := Option.some.inj (hsalt.symm.trans (allowance_salt fields'))
  have howner := Option.some.inj (howner.symm.trans (allowance_owner fields'))
  have hbeneficiary := Option.some.inj (hbeneficiary.symm.trans (allowance_beneficiary fields'))
  have hcap := intElement_injective (Option.some.inj (hcap.symm.trans (allowance_cap fields' _)))
  have hcooldown := clause_injective (hcooldown.symm.trans (allowance_cooldown fields' _))
  have hstart := clause_injective (hstart.symm.trans (allowance_start fields' _))
  cases fields
  cases fields'
  cases hsalt
  cases howner
  cases hbeneficiary
  cases hcap
  cases hcooldown
  cases hstart
  rfl

theorem piggyBank_injective {fields fields' : PiggyBankFields}
    (h : scriptOf fields.items = scriptOf fields'.items) : fields = fields' := by
  have helements := elements_eq h fields.readable fields'.readable
  have hsalt := piggyBank_salt fields
  have howner := piggyBank_owner fields
  have hgoal := piggyBank_goal fields ⟨OP_1, []⟩
  have hdeadline := piggyBank_deadline fields ⟨OP_1, []⟩
  rw [helements] at hsalt howner hgoal hdeadline
  have hsalt := Option.some.inj (hsalt.symm.trans (piggyBank_salt fields'))
  have howner := Option.some.inj (howner.symm.trans (piggyBank_owner fields'))
  have hgoal := goal_injective (Option.some.inj (hgoal.symm.trans (piggyBank_goal fields' _)))
  have hdeadline := clause_injective (hdeadline.symm.trans (piggyBank_deadline fields' _))
  cases fields
  cases fields'
  cases hsalt
  cases howner
  cases hgoal
  cases hdeadline
  rfl

/-- Where the script tells the fields, the recognizer's answer does. -/
theorem built_injective_of_readable {family : Family} {fields fields' : family.Fields} {script : Bytes}
    (hreadable : ∀ fields, Readable family fields) (hbuild : family.build fields = some script)
    (hbuild' : family.build fields' = some script) (hpush : family.Pushes fields)
    (hpush' : family.Pushes fields') : fields = fields' := by
  have hfound := (recognize_iff hbuild hpush).mpr (hreadable fields)
  rw [(recognize_iff hbuild' hpush').mpr (hreadable fields')] at hfound
  exact (Option.some.inj hfound).symm

/-- The same within every family. -/
theorem built_injective {family : Family} {fields fields' : family.Fields} {script : Bytes}
    (hbuild : family.build fields = some script) (hbuild' : family.build fields' = some script)
    (hpush : family.Pushes fields) (hpush' : family.Pushes fields') : fields = fields' := by
  cases family with
  | piggyBank =>
    exact piggyBank_injective (Option.some.inj ((PiggyBankFields.build_eq fields).symm.trans
      (hbuild.trans (hbuild'.symm.trans (PiggyBankFields.build_eq fields')))))
  | globalAllowance =>
    exact allowance_injective (Option.some.inj ((GlobalAllowanceFields.build_eq fields).symm.trans
      (hbuild.trans (hbuild'.symm.trans (GlobalAllowanceFields.build_eq fields')))))
  | globalSpendingLimit =>
    exact spendingLimit_injective (Option.some.inj ((GlobalSpendingLimitFields.build_eq fields).symm.trans
      (hbuild.trans (hbuild'.symm.trans (GlobalSpendingLimitFields.build_eq fields')))))
  | dms | timelockedSavings | payjoin | oracleV1 | escrow | privateSwap | commitReveal
  | merkleWhitelist | shippingEscrow =>
    exact built_injective_of_readable (fun _ => trivial) hbuild hbuild' hpush hpush'

/-! ## Recognized scripts -/

theorem destinationAt_pushable {script : Bytes} {elements : List Element} {index : Nat} {spk : Bytes}
    (helements : completeElements script = some elements) (h : destinationAt elements index = some spk) :
    Pushable (versionedDestination spk) := by
  obtain ⟨e, he, hslice⟩ := Option.bind_eq_some_iff.mp h
  have hdata := elementsFuel_data_lt helements e (List.mem_of_getElem? he)
  obtain ⟨hstart, _, rfl⟩ := slice_eq_some hslice
  rw [Pushable, versionedDestination, List.length_append, List.length_drop, List.length_take]
  change 2 + _ < _
  omega

/-- Every recognizer builds the script again from the fields it reads. -/
theorem recognize_eq (family : Family) :
    ∃ read, family.recognize = recognizeBy family.build read := by
  cases family <;> exact ⟨_, rfl⟩

/-- What is recognized is built, and its destinations can be pushed. -/
theorem recognized_built {family : Family} {fields : family.Fields} {script : Bytes}
    (h : family.recognize script = some fields) :
    family.build fields = some script ∧ family.Pushes fields := by
  obtain ⟨read, hrecognize⟩ := recognize_eq family
  have hbuild : family.build fields = some script := recognizeBy_sound (hrecognize ▸ h)
  refine ⟨hbuild, ?_⟩
  cases family with
  | escrow =>
    obtain ⟨elements, helements, h⟩ := Option.bind_eq_some_iff.mp h
    obtain ⟨found, hfound, h⟩ := Option.bind_eq_some_iff.mp h
    split at h
    · obtain ⟨salt, _, hfound⟩ := Option.bind_eq_some_iff.mp hfound
      obtain ⟨alice, _, hfound⟩ := Option.bind_eq_some_iff.mp hfound
      obtain ⟨bobSpk, hbob, hfound⟩ := Option.bind_eq_some_iff.mp hfound
      obtain ⟨bob, _, hfound⟩ := Option.bind_eq_some_iff.mp hfound
      obtain ⟨aliceSpk, halice, hfound⟩ := Option.bind_eq_some_iff.mp hfound
      obtain ⟨arbiter, _, hfound⟩ := Option.bind_eq_some_iff.mp hfound
      cases hfound
      cases h
      exact ⟨destinationAt_pushable helements halice, destinationAt_pushable helements hbob⟩
    · cases h
  | dms | timelockedSavings | payjoin | oracleV1 | piggyBank | globalAllowance | globalSpendingLimit
  | privateSwap | commitReveal | merkleWhitelist | shippingEscrow => exact trivial

/-- A recognizer returns the parameters a script was built from exactly where the integers it reads by
the opcode behind them take at most eight octets; every builder is injective, and no script is
recognized by two families. -/
theorem recognizers_invert_builders (family : Family) (script : Bytes) :
    (∀ fields : family.Fields, family.build fields = some script → family.Pushes fields →
      (family.recognize script = some fields ↔ Readable family fields)) ∧
    (∀ fields fields' : family.Fields, family.build fields = some script →
      family.build fields' = some script → family.Pushes fields → family.Pushes fields' →
        fields = fields') ∧
    ∀ (family' : Family) (fields : family.Fields) (fields' : family'.Fields),
      family.recognize script = some fields → family'.recognize script = some fields' →
        family = family' := by
  refine ⟨fun _ => recognize_iff, fun _ _ => built_injective, ?_⟩
  intro family' fields fields' h h'
  obtain ⟨hbuild, hpush⟩ := recognized_built h
  obtain ⟨hbuild', hpush'⟩ := recognized_built h'
  obtain ⟨elements, helements, hfamily⟩ := built_elements hbuild hpush
  obtain ⟨elements', helements', hfamily'⟩ := built_elements hbuild' hpush'
  rw [helements] at helements'
  rw [← hfamily, ← hfamily', Option.some.inj helements']

/-- A spending limit whose cap takes nine octets is built and not recognized. -/
theorem wide_cap_unrecognized :
    ¬ ∀ (family : Family) (fields : family.Fields) (script : Bytes),
      family.build fields = some script → family.Pushes fields →
        family.recognize script = some fields := by
  intro hall
  have hwide := hall .globalSpendingLimit
    ⟨⟨List.replicate 32 0, rfl⟩, 9223372036854775808, 0, ⟨List.replicate 8 0, rfl⟩⟩ _
    (GlobalSpendingLimitFields.build_eq _) trivial
  exact absurd ((globalSpendingLimit_recognized_iff _).mp hwide) (by decide)

end KaspaPortal.Guarantees
