import KaspaPortal.Contract.Templates

/-!
# Reading contract scripts back

Each family's row of items reads back as its elements, and the fields are those of the row. What a
recognizer reads by the opcode that follows it has to fit in eight octets, the sign included.

A script that is no row of items is not treated: the recognizers compare with what a builder
makes, so they never accept one.
-/
namespace KaspaPortal.Contract.Covenant
open Lib Primitives Contract.Script Contract.ShippingEscrow Contract.Merkle

/-! ## Rows that are read -/

/-- An opcode reads back as itself when it is not a push. -/
@[simp] theorem readable_op {opcode : UInt8} (h : opcode = 0 ∨ OP_PUSHDATA4 < opcode) :
    (Item.op opcode).Readable := h

@[simp] theorem readable_int (value : UInt64) : (Item.int value).Readable := trivial

/-- The fixed fields of a template are short enough to be pushed. -/
theorem readable_array {n : Nat} (hn : n < 2 ^ 32) (value : FixedBytes n) :
    (Item.data value.val).Readable := pushable_of_le (Nat.le_of_eq value.property) hn

@[simp] theorem readable_key (key : FixedBytes 32) : (Item.data key.val).Readable :=
  readable_array (by decide) key

@[simp] theorem readable_salt (salt : FixedBytes 8) : (Item.data salt.val).Readable :=
  readable_array (by decide) salt

@[simp] theorem readable_salt16 (salt : FixedBytes 16) : (Item.data salt.val).Readable :=
  readable_array (by decide) salt

@[simp] theorem readable_p2pk (key : FixedBytes 32) :
    (Item.data (p2pkScriptPublicKey key)).Readable := pushable_p2pk key

/-- A recognizer finds the fields that the script was built from where it reads them. -/
theorem recognizeBy_built {Fields : Type} {build : Fields → Option Bytes}
    {read : Bytes → List Element → Option Fields} {fields : Fields} {items : List Item}
    (hbuild : build fields = some (scriptOf items)) (hitems : ∀ item ∈ items, item.Readable) :
    recognizeBy build read (scriptOf items) = some fields ↔
      read (scriptOf items) (items.map Item.element) = some fields := by
  have hrun : recognizeBy build read (scriptOf items) =
      (read (scriptOf items) (items.map Item.element)).bind fun found =>
        if build found = some (scriptOf items) then some found else none := by
    rw [recognizeBy, completeElements_scriptOf hitems]
    rfl
  rw [hrun, Option.bind_eq_some_iff]
  constructor
  · intro h
    obtain ⟨found, hfound, h⟩ := h
    by_cases heq : build found = some (scriptOf items)
    · rw [if_pos heq] at h
      rw [hfound, ← h]
    · rw [if_neg heq] at h
      cases h
  · intro h
    exact ⟨fields, h, if_pos hbuild⟩

/-- What is recognized builds the script. -/
theorem recognizeBy_sound {Fields : Type} {build : Fields → Option Bytes}
    {read : Bytes → List Element → Option Fields} {fields : Fields} {script : Bytes}
    (h : recognizeBy build read script = some fields) : build fields = some script := by
  obtain ⟨elements, _, h⟩ := Option.bind_eq_some_iff.mp h
  obtain ⟨found, _, h⟩ := Option.bind_eq_some_iff.mp h
  split at h
  · rename_i hbuild
    rw [← Option.some.inj h]
    exact hbuild
  · cases h

/-- A field read where its bytes were pushed is the field. -/
theorem arrayAt_data {n index : Nat} {elements : List Element} {value : FixedBytes n}
    (h : elements[index]? = some (dataElement value.val)) : arrayAt n elements index = some value := by
  rw [arrayAt, h, Option.bind_some, dataElement_data]
  exact toArray_eq_some.mpr rfl

/-- The same of integers, of every size the script can hold. -/
theorem integerAt_int {index : Nat} {elements : List Element} {value : UInt64}
    (h : elements[index]? = some (intElement value)) : integerAt elements index = some value := by
  rw [integerAt, h, Option.bind_some, elementInteger_intElement]

theorem arrayAt_item {n index : Nat} {items : List Item} {value : FixedBytes n}
    (h : items[index]? = some (Item.data value.val)) :
    arrayAt n (items.map Item.element) index = some value :=
  arrayAt_data (by rw [List.getElem?_map, h]; rfl)

theorem integerAt_item {index : Nat} {items : List Item} {value : UInt64}
    (h : items[index]? = some (Item.int value)) :
    integerAt (items.map Item.element) index = some value :=
  integerAt_int (by rw [List.getElem?_map, h]; rfl)

/-- A destination is read without its version. -/
theorem destinationAt_data {index : Nat} {elements : List Element} {spk : Bytes}
    (h : elements[index]? = some (dataElement (versionedDestination spk))) :
    destinationAt elements index = some spk := by
  rw [destinationAt, h, Option.bind_some, dataElement_data]
  simp [slice, versionedDestination]

theorem destinationAt_item {index : Nat} {items : List Item} {spk : Bytes}
    (h : items[index]? = some (Item.data (versionedDestination spk))) :
    destinationAt (items.map Item.element) index = some spk :=
  destinationAt_data (by rw [List.getElem?_map, h]; rfl)

/-- A key is found inside the script that pays to it. -/
theorem spkPubkeyAt_item {index : Nat} {items : List Item} {key : FixedBytes 32}
    (h : items[index]? = some (Item.data (p2pkScriptPublicKey key))) :
    spkPubkeyAt (items.map Item.element) index = some key := by
  have hslice : slice (p2pkScriptPublicKey key) 3 35 = some key.val := by
    simp [slice, p2pkScriptPublicKey, key.property]
  rw [spkPubkeyAt, List.getElem?_map, h, Option.map_some, Option.bind_some, Item.element,
    dataElement_data, hslice, Option.bind_some]
  exact toArray_eq_some.mpr rfl

/-! ## Families with fixed places -/

theorem DmsFields.readable (fields : DmsFields) : ∀ item ∈ fields.items, item.Readable := by
  simp (disch := decide) [items]

/-- The dead man's switch: every field stands at a fixed place. -/
theorem dms_recognized (fields : DmsFields) :
    dmsScriptFields (scriptOf fields.items) = some fields := by
  refine (recognizeBy_built fields.build_eq fields.readable).mpr ?_
  have howner : arrayAt 32 (fields.items.map Item.element) 1 = some fields.ownerPubkey := arrayAt_data rfl
  have hinactivity : integerAt (fields.items.map Item.element) 4 = some fields.inactivityDaa :=
    integerAt_int rfl
  have hheir : arrayAt 32 (fields.items.map Item.element) 6 = some fields.heirPubkey := arrayAt_data rfl
  rw [howner, hinactivity, hheir]
  rfl

theorem TimelockedSavingsFields.readable (fields : TimelockedSavingsFields) :
    ∀ item ∈ fields.items, item.Readable := by
  simp (disch := decide) [items, signedItems, lockedItems]

/-- The recognizer finds the fields of every script of the builder. -/
theorem timelockedSavings_recognized (fields : TimelockedSavingsFields) :
    timelockedSavingsScriptFields (scriptOf fields.items) = some fields := by
  refine (recognizeBy_built fields.build_eq fields.readable).mpr ?_
  have hfirst : arrayAt 32 (fields.items.map Item.element) 1 = some fields.wallet1Pubkey :=
    arrayAt_data rfl
  have hlock : integerAt (fields.items.map Item.element) 3 = some fields.locktimeDaa := integerAt_int rfl
  have hsecond : arrayAt 32 (fields.items.map Item.element) 7 = some fields.wallet2Pubkey :=
    arrayAt_data rfl
  rw [hfirst, hlock, hsecond]
  rfl

theorem PayjoinFields.readable (fields : PayjoinFields) : ∀ item ∈ fields.items, item.Readable := by
  simp (disch := decide) [items, signedItems, lockedItems]

/-- The same of the payjoin. -/
theorem payjoin_recognized (fields : PayjoinFields) :
    payjoinScriptFields (scriptOf fields.items) = some fields := by
  refine (recognizeBy_built fields.build_eq fields.readable).mpr ?_
  have howner : arrayAt 32 (fields.items.map Item.element) 1 = some fields.ownerPubkey := arrayAt_data rfl
  have hlock : integerAt (fields.items.map Item.element) 3 = some fields.locktimeDaa := integerAt_int rfl
  have hbeneficiary : arrayAt 32 (fields.items.map Item.element) 7 = some fields.beneficiaryPubkey :=
    arrayAt_data rfl
  have hinputs : integerAt (fields.items.map Item.element) 10 = some fields.minInputs := integerAt_int rfl
  have houtputs : integerAt (fields.items.map Item.element) 14 = some fields.minOutputs := integerAt_int rfl
  rw [howner, hlock, hbeneficiary, hinputs, houtputs]
  rfl

theorem OracleV1Fields.readable (fields : OracleV1Fields) : ∀ item ∈ fields.items, item.Readable := by
  simp (disch := decide) [items, signedItems, lockedItems, saltedItems]

/-- The same of the oracle's script. -/
theorem oracleV1_recognized (fields : OracleV1Fields) :
    oracleV1ScriptFields (scriptOf fields.items) = some fields := by
  refine (recognizeBy_built fields.build_eq fields.readable).mpr ?_
  have hsalt : arrayAt 16 (fields.items.map Item.element) 0 = some fields.salt := arrayAt_data rfl
  have howner : arrayAt 32 (fields.items.map Item.element) 3 = some fields.ownerPubkey := arrayAt_data rfl
  have hlock : integerAt (fields.items.map Item.element) 5 = some fields.locktimeDaa := integerAt_int rfl
  have hbeneficiary : arrayAt 32 (fields.items.map Item.element) 9 = some fields.beneficiaryPubkey :=
    arrayAt_data rfl
  have hmessage : arrayAt 32 (fields.items.map Item.element) 11 = some fields.messageCommitment :=
    arrayAt_data rfl
  have horacle : arrayAt 32 (fields.items.map Item.element) 12 = some fields.oraclePubkey :=
    arrayAt_data rfl
  rw [hsalt, howner, hlock, hbeneficiary, hmessage, horacle]
  rfl

/-- The escrow carries two destinations of the caller, which must be short enough to push. -/
theorem EscrowFields.readable {fields : EscrowFields}
    (halice : Pushable (versionedDestination fields.aliceSpk))
    (hbob : Pushable (versionedDestination fields.bobSpk)) :
    ∀ item ∈ fields.items, item.Readable := by
  have halice' : (Item.data (versionedDestination fields.aliceSpk)).Readable := halice
  have hbob' : (Item.data (versionedDestination fields.bobSpk)).Readable := hbob
  simp (disch := decide) [items, signedItems, saltedItems, paysItems, halice', hbob']

/-- Given that, the recognizer finds both parties. -/
theorem escrow_recognized {fields : EscrowFields}
    (halice : Pushable (versionedDestination fields.aliceSpk))
    (hbob : Pushable (versionedDestination fields.bobSpk)) :
    escrowScriptFields (scriptOf fields.items) = some fields := by
  refine (recognizeBy_built fields.build_eq (EscrowFields.readable halice hbob)).mpr ?_
  have hsalt : arrayAt 8 (fields.items.map Item.element) 0 = some fields.salt := by
    apply arrayAt_item
    simp [EscrowFields.items, saltedItems]
  have halice : arrayAt 32 (fields.items.map Item.element) 3 = some fields.alicePubkey := by
    apply arrayAt_item
    simp [EscrowFields.items, saltedItems, signedItems]
  have hbobSpk : destinationAt (fields.items.map Item.element) 7 = some fields.bobSpk := by
    apply destinationAt_item
    simp [EscrowFields.items, saltedItems, signedItems, paysItems]
  have hbob : arrayAt 32 (fields.items.map Item.element) 12 = some fields.bobPubkey := by
    apply arrayAt_item
    simp [EscrowFields.items, saltedItems, signedItems, paysItems]
  have haliceSpk : destinationAt (fields.items.map Item.element) 16 = some fields.aliceSpk := by
    apply destinationAt_item
    simp [EscrowFields.items, saltedItems, signedItems, paysItems]
  have harbiter : arrayAt 32 (fields.items.map Item.element) 21 = some fields.arbiterPubkey := by
    apply arrayAt_item
    simp [EscrowFields.items, saltedItems, signedItems, paysItems]
  rw [hsalt, halice, hbobSpk, hbob, haliceSpk, harbiter]
  rfl

/-- The builder refuses a longer output script. -/
theorem PrivateSwapFields.readable {fields : PrivateSwapFields}
    (h : fields.claimerOutputSpk.length ≤ 73) : ∀ item ∈ fields.items, item.Readable := by
  have hdestination : (Item.data (versionedDestination fields.claimerOutputSpk)).Readable := by
    refine pushable_of_le (n := 75) ?_ (by decide)
    simp only [versionedDestination, List.length_append, List.length_cons, List.length_nil]
    omega
  simp (disch := decide) [items, signedItems, lockedItems, saltedItems, paysItems, hdestination]

/-- Whenever the builder gives a script, the recognizer gives back what it was built from. -/
theorem privateSwap_recognized {fields : PrivateSwapFields} {script : Bytes}
    (h : fields.build = some script) : privateSwapScriptFields script = some fields := by
  obtain ⟨rfl, hlength⟩ := PrivateSwapFields.build_eq_some h
  refine (recognizeBy_built h (PrivateSwapFields.readable hlength)).mpr ?_
  have hsalt : arrayAt 16 (fields.items.map Item.element) 0 = some fields.salt := arrayAt_data rfl
  have hclaimer : arrayAt 32 (fields.items.map Item.element) 3 = some fields.claimerPubkey :=
    arrayAt_data rfl
  have hspk : destinationAt (fields.items.map Item.element) 13 = some fields.claimerOutputSpk :=
    destinationAt_data rfl
  have howner : arrayAt 32 (fields.items.map Item.element) 30 = some fields.ownerPubkey := arrayAt_data rfl
  have hlock : integerAt (fields.items.map Item.element) 32 = some fields.refundLocktimeDaa :=
    integerAt_int rfl
  rw [hsalt, hclaimer, hspk, howner, hlock]
  rfl

theorem CommitRevealFields.readable (fields : CommitRevealFields) :
    ∀ item ∈ fields.items, item.Readable := by
  simp (disch := decide) [items, signedItems, lockedItems]

/-- Commit and reveal: both parts at fixed places. -/
theorem commitReveal_recognized (fields : CommitRevealFields) :
    commitRevealScriptFields (scriptOf fields.items) = some fields := by
  refine (recognizeBy_built fields.build_eq fields.readable).mpr ?_
  have howner : arrayAt 32 (fields.items.map Item.element) 1 = some fields.ownerPubkey := arrayAt_data rfl
  have hlock : integerAt (fields.items.map Item.element) 3 = some fields.locktimeDaa := integerAt_int rfl
  have hhash : arrayAt 32 (fields.items.map Item.element) 11 = some fields.committedHash :=
    arrayAt_data rfl
  rw [howner, hlock, hhash]
  rfl

/-! ## The tree of the whitelist -/

/-- Every level of the tree is written by the same opcodes. -/
theorem levelsItems_readable (depth : Nat) : ∀ item ∈ levelsItems depth, item.Readable := by
  induction depth with
  | zero => exact List.forall_mem_nil _
  | succ depth ih =>
    rw [levelsItems, List.forall_mem_append]
    refine ⟨?_, ih⟩
    simp (disch := decide) [levelItems]

/-- The elements after the levels are found by counting them. -/
theorem levelsItems_length (depth : Nat) : (levelsItems depth).length = depth * LAYER_ELEMENTS := by
  induction depth with
  | zero => rfl
  | succ depth ih =>
    rw [levelsItems, List.length_append, ih, Nat.succ_mul, Nat.add_comm]
    rfl

theorem MerkleWhitelistFields.readable (fields : MerkleWhitelistFields) :
    ∀ item ∈ fields.items, item.Readable := by
  have hlevels := levelsItems_readable fields.depth.toNat
  simp (disch := decide) [items, signedItems, lockedItems, or_imp, forall_and]
  exact hlevels

/-- What stands before the levels. -/
def MerkleWhitelistFields.frontItems (fields : MerkleWhitelistFields) : List Item :=
  Item.op OP_IF :: signedItems fields.ownerPubkey ++ lockedItems fields.locktimeDaa ++
    Item.op OP_ELSE :: signedItems fields.ownerPubkey ++ [Item.op OP_BLAKE2B]

/-- What follows the levels: the root and the checks of the output. -/
def MerkleWhitelistFields.backItems (fields : MerkleWhitelistFields) : List Item :=
  [.data fields.merkleRoot.val, .op OP_EQUALVERIFY, .int 0, .op OP_TX_OUTPUT_SPK,
    .op OP_EQUALVERIFY, .op OP_1, .op OP_ENDIF]

/-- The script in three parts, of which only the middle one has a variable length. -/
theorem MerkleWhitelistFields.items_eq (fields : MerkleWhitelistFields) :
    fields.items = fields.frontItems ++ (levelsItems fields.depth.toNat ++ fields.backItems) := by
  simp [items, frontItems, backItems]

/-- The recognizer reads the depth off the length of the script. -/
theorem merkleWhitelist_recognized (fields : MerkleWhitelistFields) :
    merkleWhitelistScriptFields (scriptOf fields.items) = some fields := by
  refine (recognizeBy_built fields.build_eq fields.readable).mpr ?_
  have hdepth : fields.depth.toNat < 256 := fields.depth.toNat_lt
  have hlength : (fields.items.map Item.element).length =
      FIXED_ELEMENTS + fields.depth.toNat * LAYER_ELEMENTS := by
    rw [List.length_map, fields.items_eq, List.length_append, List.length_append, levelsItems_length]
    change 10 + (_ + 7) = 17 + _
    omega
  have hlayers : (FIXED_ELEMENTS + fields.depth.toNat * LAYER_ELEMENTS - FIXED_ELEMENTS) /
      LAYER_ELEMENTS = fields.depth.toNat := by
    rw [Nat.add_sub_cancel_left]
    exact Nat.mul_div_cancel _ (by decide)
  have howner : arrayAt 32 (fields.items.map Item.element) 1 = some fields.ownerPubkey := arrayAt_data rfl
  have hlock : integerAt (fields.items.map Item.element) 3 = some fields.locktimeDaa := integerAt_int rfl
  have hroot : arrayAt 32 (fields.items.map Item.element) (10 + fields.depth.toNat * LAYER_ELEMENTS) =
      some fields.merkleRoot := by
    refine arrayAt_data ?_
    rw [fields.items_eq, List.getElem?_map, List.getElem?_append_right (Nat.le_add_right 10 _),
      List.getElem?_append_right]
    · rw [levelsItems_length]
      change (Option.map Item.element fields.backItems[10 + fields.depth.toNat * LAYER_ELEMENTS - 10 -
        fields.depth.toNat * LAYER_ELEMENTS]?) = _
      rw [Nat.add_sub_cancel_left, Nat.sub_self]
      rfl
    · rw [levelsItems_length]
      change _ ≤ 10 + _ - 10
      omega
  rw [hlength, if_pos (Nat.le_add_right _ _)]
  simp only [Option.bind_eq_bind, Option.bind_some]
  rw [hlayers, howner, hlock, hroot]
  simp only [Option.bind_some, if_pos hdepth, UInt8.ofNat_toNat]
  rfl

/-! ## Shipment escrow -/

theorem shipEscrowItems_readable (request : ShippingEscrowScriptRequest)
    (tranches : ShippingEscrowTranches) :
    ∀ item ∈ shipEscrowItems request tranches, item.Readable := by
  simp (disch := decide) [shipEscrowItems, stateZeroItems, stateOneItems, signedItems, saltedItems,
    paysItems, outputCountItems, stateZeroConfig, StateZeroConfig.stateOne]

/-- The total is the product and the fee together. -/
theorem tranches_total {product fee : UInt64} {tranches : ShippingEscrowTranches}
    (h : ShippingEscrowTranches.new product fee = .ok tranches) :
    checkedSub tranches.total fee = some product := by
  obtain ⟨total, htotal, h⟩ := bind_eq_ok.mp h
  obtain ⟨second, _, h⟩ := bind_eq_ok.mp h
  obtain ⟨remainder, _, h⟩ := bind_eq_ok.mp h
  rw [← Except.ok.inj h]
  rw [okOr_eq_ok] at htotal
  unfold checkedAdd at htotal
  split at htotal
  · rename_i hfits
    rw [← Option.some.inj htotal]
    have hle : fee ≤ product + fee := by
      rw [UInt64.le_iff_toNat_le, UInt64.toNat_add]
      omega
    rw [checkedSub, if_pos hle, UInt64.add_sub_cancel]
  · cases htotal

/-- Where the amounts and the deadlines stand. -/
theorem shipEscrowItems_integers (request : ShippingEscrowScriptRequest)
    (tranches : ShippingEscrowTranches) :
    (shipEscrowItems request tranches)[5]? = some (Item.int tranches.total) ∧
    (shipEscrowItems request tranches)[34]? = some (Item.int request.cltv1Deadline) ∧
    (shipEscrowItems request tranches)[61]? = some (Item.int request.cltv2Deadline) ∧
    (shipEscrowItems request tranches)[75]? = some (Item.int request.feeSompi) := by
  unfold shipEscrowItems stateZeroItems stateOneItems
  simp only [signedItems, saltedItems, paysItems, outputCountItems, List.cons_append,
    List.nil_append]
  exact ⟨rfl, rfl, rfl, rfl⟩

/-- Where the salt and the keys stand. -/
theorem shipEscrowItems_keys (request : ShippingEscrowScriptRequest)
    (tranches : ShippingEscrowTranches) :
    (shipEscrowItems request tranches)[0]? = some (Item.data request.salt.val) ∧
    (shipEscrowItems request tranches)[10]? = some (Item.data request.delivererPubkey.val) ∧
    (shipEscrowItems request tranches)[23]? =
      some (Item.data (p2pkScriptPublicKey request.sellerPubkey)) ∧
    (shipEscrowItems request tranches)[31]? = some (Item.data request.arbiterPubkey.val) ∧
    (shipEscrowItems request tranches)[39]? =
      some (Item.data (p2pkScriptPublicKey request.buyerPubkey)) := by
  unfold shipEscrowItems stateZeroItems
  simp only [signedItems, saltedItems, paysItems, outputCountItems, List.cons_append,
    List.nil_append]
  exact ⟨rfl, rfl, rfl, rfl, rfl⟩

/-- Whenever the builder gives a script, the recognizer gives back its terms. -/
theorem shippingEscrow_recognized {terms : ShippingEscrowTerms} {script : Bytes}
    (h : terms.build = some script) : shipEscrowTerms script = some terms := by
  obtain ⟨tranches, htranches, rfl⟩ := ShippingEscrowTerms.build_eq_some h
  refine (recognizeBy_built h (shipEscrowItems_readable terms.request tranches)).mpr ?_
  obtain ⟨htotal, hpickup, hdelivery, hfee⟩ := shipEscrowItems_integers terms.request tranches
  obtain ⟨hsalt, hdeliverer, hseller, harbiter, hbuyer⟩ := shipEscrowItems_keys terms.request tranches
  rw [integerAt_item hfee, spkPubkeyAt_item hseller, arrayAt_item hdeliverer, spkPubkeyAt_item hbuyer,
    arrayAt_item harbiter, integerAt_item htotal, integerAt_item hpickup, integerAt_item hdelivery,
    arrayAt_item hsalt]
  simp only [Option.bind_eq_bind, Option.bind_some]
  rw [show checkedSub tranches.total terms.request.feeSompi = some terms.productSompi from
    tranches_total htranches]
  rfl

/-! ## Families read by the opcode that follows -/

/-- What can stand before an opcode without being an integer. -/
def NoInteger (e : Element) : Prop := classifyElement e = .opcode

/-- A clause that stands only for a positive value is read by its opcode, unless the value takes nine
octets. -/
theorem clause_read {script : Bytes} {elements : List Element} {target : UInt8} {value : UInt64}
    (helements : completeElements script = some elements) (htarget : OP_16 < target)
    (hprevious : (0 < value ∧ precedingElement target ⟨target, []⟩ elements = some (intElement value)) ∨
      (value = 0 ∧ ∀ e ∈ precedingElement target ⟨target, []⟩ elements, NoInteger e)) :
    (findPrecedingScriptInteger script target).toOption =
      if value.toNat < 2 ^ 63 then some (if 0 < value then some value else none) else none := by
  rw [findPrecedingScriptInteger_of_element helements htarget]
  obtain ⟨hpos, hprevious⟩ | ⟨hzero, hprevious⟩ := hprevious
  · rw [hprevious, if_pos hpos]
    exact precedingResult_intElement value
  · rw [hzero]
    cases hfound : precedingElement target ⟨target, []⟩ elements with
    | none => rfl
    | some e =>
      have hno : classifyElement e = .opcode := hprevious e hfound
      simp only [hno]
      rfl

/-- A lock that is not set is zero. -/
theorem eq_zero_of_not_pos {value : UInt64} (h : ¬ 0 < value) : value = 0 :=
  UInt64.le_zero_iff.mp (UInt64.not_lt.mp h)

/-- An absent clause is read as zero. -/
theorem getD_clause (value : UInt64) : (if 0 < value then some value else none).getD 0 = value := by
  by_cases hpos : 0 < value
  · rw [if_pos hpos]
    rfl
  · rw [if_neg hpos, eq_zero_of_not_pos hpos]
    rfl

/-- A clause that is left out when its value is zero. -/
theorem optional_clause_read {script : Bytes} {elements : List Element} {target : UInt8}
    {value : UInt64} (helements : completeElements script = some elements) (htarget : OP_16 < target)
    (hprevious : precedingElement target ⟨target, []⟩ elements =
      if 0 < value then some (intElement value) else none) :
    (findPrecedingScriptInteger script target).toOption =
      if value.toNat < 2 ^ 63 then some (if 0 < value then some value else none) else none := by
  refine clause_read helements htarget ?_
  rw [hprevious]
  by_cases hpos : 0 < value
  · exact Or.inl ⟨hpos, if_pos hpos⟩
  · refine Or.inr ⟨eq_zero_of_not_pos hpos, fun e he => ?_⟩
    rw [if_neg hpos] at he
    cases he

section limit

variable (fields : GlobalSpendingLimitFields)

theorem GlobalSpendingLimitFields.readable : ∀ item ∈ fields.items, item.Readable := by
  simp (disch := decide) [items, signedItems, saltedItems, globalThreadItems]

/-- The cap is the element before the subtraction, wherever the search started. -/
theorem spendingLimit_cap (previous : Element) :
    precedingElement OP_SUB previous (fields.items.map Item.element) =
      some (intElement fields.maxWithdrawSompi) := by
  unfold GlobalSpendingLimitFields.items
  simp (disch := decide) only [saltedItems, signedItems, globalThreadItems, List.cons_append,
    List.nil_append, List.map_cons, Item.element, precedingElement_int, precedingElement_data,
    precedingElement_op, precedingElement_found]

theorem spendingLimit_salt : arrayAt 8 (fields.items.map Item.element) 0 = some fields.salt :=
  arrayAt_item rfl

theorem spendingLimit_owner : arrayAt 32 (fields.items.map Item.element) 2 = some fields.ownerPubkey :=
  arrayAt_item rfl

theorem spendingLimit_cooldown : integerAt (fields.items.map Item.element) 4 = some fields.cooldownDaa :=
  integerAt_item rfl

/-- The recognizer gives the parameters back exactly when the cap fits the signed range of the
script's numbers. -/
theorem globalSpendingLimit_recognized_iff :
    globalSpendingLimitScriptFields (scriptOf fields.items) = some fields ↔
      fields.maxWithdrawSompi.toNat < 2 ^ 63 := by
  refine (recognizeBy_built fields.build_eq fields.readable).trans ?_
  rw [findPrecedingScriptInteger_of_element (completeElements_scriptOf fields.readable) (by decide),
    spendingLimit_cap, spendingLimit_salt, spendingLimit_owner, spendingLimit_cooldown]
  simp only [precedingResult_intElement]
  split
  · rename_i hshort
    exact iff_of_true rfl hshort
  · rename_i hlong
    exact iff_of_false nofun hlong

end limit

section piggyBank

variable (fields : PiggyBankFields)

theorem PiggyBankFields.readable : ∀ item ∈ fields.items, item.Readable := by
  unfold items breakItems
  split
  · split <;> split <;> simp (disch := decide) [saltedItems, lockedItems]
  · simp (disch := decide) [saltedItems]

/-- Without a goal the first `>=` is the deposit path's. -/
theorem piggyBank_goal (previous : Element) :
    precedingElement OP_GREATERTHANOREQUAL previous (fields.items.map Item.element) =
      some (if fields.thresholdSompi > 0 then intElement fields.thresholdSompi
        else ⟨OP_TX_INPUT_AMOUNT, []⟩) := by
  unfold PiggyBankFields.items PiggyBankFields.breakItems
  split
  · split <;> split <;>
      simp (disch := decide) only [saltedItems, lockedItems, List.cons_append, List.nil_append,
        List.map_cons, Item.element, precedingElement_int, precedingElement_data,
        precedingElement_op, precedingElement_found]
  · rename_i hnone
    rw [if_neg fun hgoal => hnone (Or.inl hgoal)]
    simp (disch := decide) only [saltedItems, List.cons_append, List.nil_append, List.map_cons,
      Item.element, precedingElement_data, precedingElement_op, precedingElement_found]

/-- Without a deadline there is no lock in the script, and the search finds nothing. -/
theorem piggyBank_deadline (previous : Element) :
    precedingElement OP_CHECKLOCKTIMEVERIFY previous (fields.items.map Item.element) =
      if fields.deadlineDaa > 0 then some (intElement fields.deadlineDaa) else none := by
  unfold PiggyBankFields.items PiggyBankFields.breakItems
  split
  · split <;> split <;>
      simp (disch := decide) only [saltedItems, lockedItems, List.cons_append, List.nil_append,
        List.map_cons, List.map_nil, Item.element, precedingElement_int, precedingElement_data,
        precedingElement_op, precedingElement_found, precedingElement_nil]
  · rename_i hnone
    rw [if_neg fun hdeadline => hnone (Or.inr hdeadline)]
    simp (disch := decide) only [saltedItems, List.cons_append, List.nil_append, List.map_cons,
      List.map_nil, Item.element, precedingElement_data, precedingElement_op, precedingElement_nil]

theorem piggyBank_salt : arrayAt 8 (fields.items.map Item.element) 0 = some fields.salt :=
  arrayAt_item rfl

theorem piggyBank_owner : arrayAt 32 (fields.items.map Item.element) 3 = some fields.ownerPubkey :=
  arrayAt_item rfl

/-- Threshold and deadline must both fit the signed range. -/
theorem piggyBank_recognized_iff :
    piggyBankScriptFields (scriptOf fields.items) = some fields ↔
      fields.thresholdSompi.toNat < 2 ^ 63 ∧ fields.deadlineDaa.toNat < 2 ^ 63 := by
  have helements := completeElements_scriptOf fields.readable
  have hgoal : (findPrecedingScriptInteger (scriptOf fields.items) OP_GREATERTHANOREQUAL).toOption =
      if fields.thresholdSompi.toNat < 2 ^ 63 then
        some (if 0 < fields.thresholdSompi then some fields.thresholdSompi else none) else none := by
    refine clause_read helements (by decide) ?_
    rw [piggyBank_goal]
    by_cases hpos : 0 < fields.thresholdSompi
    · exact Or.inl ⟨hpos, by rw [if_pos hpos]⟩
    · refine Or.inr ⟨eq_zero_of_not_pos hpos, fun e he => ?_⟩
      rw [if_neg hpos] at he
      rw [← Option.some.inj he]
      rfl
  have hdeadline := optional_clause_read helements (by decide) (piggyBank_deadline fields _)
  refine (recognizeBy_built fields.build_eq fields.readable).trans ?_
  rw [piggyBank_salt, piggyBank_owner, extractCltvLocktime, hgoal, hdeadline]
  by_cases hshort : fields.thresholdSompi.toNat < 2 ^ 63
  · by_cases hearly : fields.deadlineDaa.toNat < 2 ^ 63
    · rw [if_pos hshort, if_pos hearly]
      refine iff_of_true ?_ ⟨hshort, hearly⟩
      simp only [Option.bind_eq_bind, Option.bind_some, getD_clause]
      rfl
    · rw [if_pos hshort, if_neg hearly]
      exact iff_of_false nofun fun h => hearly h.2
  · rw [if_neg hshort]
    exact iff_of_false nofun fun h => hshort h.1

end piggyBank

section allowance

variable (fields : GlobalAllowanceFields)

theorem GlobalAllowanceFields.readable : ∀ item ∈ fields.items, item.Readable := by
  unfold items
  split <;> split <;> simp (disch := decide) [signedItems, saltedItems, globalThreadItems]

/-- The cap is the element before the subtraction. -/
theorem allowance_cap (previous : Element) :
    precedingElement OP_SUB previous (fields.items.map Item.element) =
      some (intElement fields.maxWithdrawSompi) := by
  unfold GlobalAllowanceFields.items
  split <;> split <;>
    simp (disch := decide) only [saltedItems, signedItems, globalThreadItems, List.cons_append,
      List.nil_append, List.append_nil, List.map_cons, Item.element, precedingElement_int,
      precedingElement_data, precedingElement_op, precedingElement_found]

/-- An unset cooldown leaves no relative lock in the script. -/
theorem allowance_cooldown (previous : Element) :
    precedingElement OP_CHECKSEQUENCEVERIFY previous (fields.items.map Item.element) =
      if 0 < fields.cooldownDaa then some (intElement fields.cooldownDaa) else none := by
  unfold GlobalAllowanceFields.items
  split <;> split <;>
    simp (disch := decide) only [saltedItems, signedItems, globalThreadItems, List.cons_append,
      List.nil_append, List.append_nil, List.map_cons, List.map_nil, Item.element,
      precedingElement_int, precedingElement_data, precedingElement_op, precedingElement_found,
      precedingElement_nil]

/-- An unset start leaves no absolute lock in the script. -/
theorem allowance_start (previous : Element) :
    precedingElement OP_CHECKLOCKTIMEVERIFY previous (fields.items.map Item.element) =
      if 0 < fields.startDaa then some (intElement fields.startDaa) else none := by
  unfold GlobalAllowanceFields.items
  split <;> split <;>
    simp (disch := decide) only [saltedItems, signedItems, globalThreadItems, List.cons_append,
      List.nil_append, List.append_nil, List.map_cons, List.map_nil, Item.element,
      precedingElement_int, precedingElement_data, precedingElement_op, precedingElement_found,
      precedingElement_nil]

theorem allowance_salt : arrayAt 8 (fields.items.map Item.element) 0 = some fields.salt :=
  arrayAt_item rfl

theorem allowance_owner : arrayAt 32 (fields.items.map Item.element) 3 = some fields.ownerPubkey :=
  arrayAt_item rfl

theorem allowance_beneficiary :
    arrayAt 32 (fields.items.map Item.element) 6 = some fields.beneficiaryPubkey := arrayAt_item rfl

/-- All three amounts must fit the signed range. -/
theorem globalAllowance_recognized_iff :
    globalAllowanceScriptFields (scriptOf fields.items) = some fields ↔
      fields.maxWithdrawSompi.toNat < 2 ^ 63 ∧ fields.cooldownDaa.toNat < 2 ^ 63 ∧
        fields.startDaa.toNat < 2 ^ 63 := by
  have helements := completeElements_scriptOf fields.readable
  have hcooldown := optional_clause_read helements (by decide) (allowance_cooldown fields _)
  have hstart := optional_clause_read helements (by decide) (allowance_start fields _)
  refine (recognizeBy_built fields.build_eq fields.readable).trans ?_
  rw [allowance_salt, allowance_owner, allowance_beneficiary, extractCsvSequence,
    extractCltvLocktime, hcooldown, hstart,
    findPrecedingScriptInteger_of_element helements (by decide), allowance_cap]
  simp only [precedingResult_intElement]
  by_cases hcap : fields.maxWithdrawSompi.toNat < 2 ^ 63
  · by_cases hwait : fields.cooldownDaa.toNat < 2 ^ 63
    · by_cases hbegin : fields.startDaa.toNat < 2 ^ 63
      · rw [if_pos hcap, if_pos hwait, if_pos hbegin]
        refine iff_of_true ?_ ⟨hcap, hwait, hbegin⟩
        simp only [Option.bind_eq_bind, Option.bind_some, Option.join_some, getD_clause]
        rfl
      · rw [if_pos hcap, if_pos hwait, if_neg hbegin]
        exact iff_of_false nofun fun h => hbegin h.2.2
    · rw [if_pos hcap, if_neg hwait]
      exact iff_of_false nofun fun h => hwait h.2.1
  · rw [if_neg hcap]
    exact iff_of_false nofun fun h => hcap h.1

end allowance

end KaspaPortal.Contract.Covenant
