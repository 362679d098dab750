import KaspaPortal.Contract.Covenant.Escrow
import KaspaPortal.Contract.ShippingEscrow

/-!
# Where an escrow's value can go

Every path of the two escrow scripts compares output 0 with the destination it
names and looks at no other output. So an accepted spend pays what the path
names on output 0, and each destination can be reached by one signature
whatever the other outputs are. Together they give the exact output lists on
which everything goes where the taken path says: those that repeat output 0's
script throughout.

Amounts are compared by no path, so none of the results is about how much is
paid.
-/
set_option maxRecDepth 100000

namespace KaspaPortal.Guarantees
open Lib Primitives Transaction Contract.Script Engine Contract.Covenant

namespace EscrowDestinations

/-- Every accepted spend with these outputs, the escrow being its only input,
pays the destination of the path its witness selects, on every output. -/
def PaysNamedParty (c : Crypto) (terms : EscrowTerms) (outputs : List ConsensusOutput) : Prop :=
  ∀ env w path, env.crypto = c → env.tx.tx.outputs = outputs → SoleInput env terms.script →
    succeeds env terms.script w = true → terms.kind.path w = some path →
      ∀ out ∈ outputs, out.spk = terms.destination c path

/-- The paths a script of this kind has. -/
def offers : EscrowKind → EscrowPath → Prop
  | .arbitrated _ _, path => path ≠ .timeout
  | .timelocked _, path => path = .aliceReleases ∨ path = .bobRefunds ∨ path = .timeout

theorem offers_of_unlocks {terms : EscrowTerms} {env : Env} {w : Stack} {path : EscrowPath}
    (h : terms.Unlocks env path w) : offers terms.kind path := by
  cases h with
  | aliceReleases => cases terms.kind <;> simp [offers]
  | bobRefunds => cases terms.kind <;> simp [offers]
  | arbiter hk =>
    rw [hk]
    simp only [offers]
    split <;> simp
  | dispute hk => simp [hk, offers]
  | timeout hk => simp [hk, offers]

/-- Each destination a script can name is opened by Alice's or Bob's signature. -/
theorem exists_unlocks {terms : EscrowTerms} {path : EscrowPath} (env : Env)
    (hAlice : CanSign env.crypto terms.alicePubkey) (hBob : CanSign env.crypto terms.bobPubkey)
    (ho : offers terms.kind path) : ∃ path' w, terms.Unlocks env path' w ∧
      terms.destination env.crypto path' = terms.destination env.crypto path := by
  obtain ⟨sigA, hA⟩ := hAlice env.tx env.index
  obtain ⟨sigB, hB⟩ := hBob env.tx env.index
  have release := EscrowTerms.Unlocks.aliceReleases (a := [1]) rfl hA
  have refund := EscrowTerms.Unlocks.bobRefunds (a := []) (b := [1]) rfl rfl hB
  cases path with
  | aliceReleases => exact ⟨_, _, release, rfl⟩
  | arbiterAwardsBob => exact ⟨_, _, release, rfl⟩
  | bobRefunds => exact ⟨_, _, refund, rfl⟩
  | arbiterRefundsAlice => exact ⟨_, _, refund, rfl⟩
  | timeout => exact ⟨_, _, refund, rfl⟩
  | disputeSignal =>
    cases hk : terms.kind with
    | timelocked => simp [hk, offers] at ho
    | arbitrated arbiter salt =>
      exact ⟨_, _, .dispute (a := []) (b := []) (c := []) (d := [1]) hk rfl rfl rfl hA, rfl⟩

end EscrowDestinations
open EscrowDestinations

/-- Everything an escrow pays goes where the taken path says exactly when no
output carries a script other than output 0's, unless output 0 already pays
none of the destinations the script's paths name. -/
theorem escrow_pays_named_party_iff (c : Crypto) (terms : EscrowTerms)
    (outputs : List ConsensusOutput)
    (hAlice : CanSign c terms.alicePubkey) (hBob : CanSign c terms.bobPubkey) :
    PaysNamedParty c terms outputs ↔
      ∀ first path, outputs[0]? = some first → offers terms.kind path →
        first.spk = terms.destination c path → ∀ out ∈ outputs, out.spk = first.spk := by
  constructor
  · intro h first path hfirst ho hpay out hout
    let env := soleSpend c terms.script 0 outputs
    obtain ⟨path', w, hu, hdest⟩ := exists_unlocks env hAlice hBob ho
    have hsole : SoleInput env terms.script := soleInput_soleSpend c terms.script 0 outputs
    have hacc : succeeds env terms.script w = true :=
      (escrow_accepts_iff (Nat.two_pow_pos 63) hsole.locked).mpr
        ⟨path', hu, first, hfirst, by rw [hpay]; exact hdest.symm⟩
    rw [hpay, h env w path' rfl rfl hsole hacc hu.path_eq out hout]
    exact hdest
  · rintro h env w path rfl rfl hs hacc hpath out hout
    have hi : env.index < 2 ^ 63 := by rw [hs.index]; decide
    obtain ⟨path', hu, first, hfirst, hpay⟩ :=
      (escrow_accepts_iff hi (hs.index ▸ hs.locked)).mp hacc
    obtain rfl : path' = path := by
      rw [hu.path_eq] at hpath
      exact Option.some.inj hpath
    rw [h first path' hfirst (offers_of_unlocks hu) hpay out hout, hpay]

namespace EscrowDestinations

/-- `<key> OP_CHECKSIG`. -/
def payToKey (key : FixedBytes 32) : Bytes := pushPubkey key ++ [OP_CHECKSIG]

/-- An arbitrated escrow between keys of 1s and 2s. -/
def sampleTerms : EscrowTerms where
  alicePubkey := filled 1 32
  bobPubkey := filled 2 32
  aliceSpk := payToKey (filled 1 32)
  bobSpk := payToKey (filled 2 32)
  kind := .arbitrated (filled 3 32) (filled 7 8)
  aliceSpk_pushable := by decide
  bobSpk_pushable := by decide

/-- One sompi for Bob on output 0 and the rest for Alice on output 1. -/
def selfPayment : List ConsensusOutput :=
  [⟨1, 0, sampleTerms.bobSpk, none⟩, ⟨100000000, 0, sampleTerms.aliceSpk, none⟩]

end EscrowDestinations

theorem escrow_pays_named_party_iff_sample :
    CanSign sampleCrypto sampleTerms.alicePubkey ∧ CanSign sampleCrypto sampleTerms.bobPubkey ∧
    (PaysNamedParty sampleCrypto sampleTerms selfPayment ↔
      ∀ first path, selfPayment[0]? = some first → offers sampleTerms.kind path →
        first.spk = sampleTerms.destination sampleCrypto path →
          ∀ out ∈ selfPayment, out.spk = first.spk) :=
  ⟨canSign_sampleCrypto _, canSign_sampleCrypto _,
    escrow_pays_named_party_iff _ _ _ (canSign_sampleCrypto _) (canSign_sampleCrypto _)⟩

/-- Alice releases with her own signature and keeps all but one sompi. -/
theorem escrow_alice_pays_herself :
    SoleInput (soleSpend sampleCrypto sampleTerms.script 100000001 selfPayment) sampleTerms.script ∧
    succeeds (soleSpend sampleCrypto sampleTerms.script 100000001 selfPayment) sampleTerms.script
      [[1], List.replicate 64 1] = true ∧
    sampleTerms.kind.path [[1], List.replicate 64 1] = some .aliceReleases ∧
    ∃ out ∈ selfPayment, out.spk = spkBytes 0 sampleTerms.aliceSpk ∧
      out.spk ≠ sampleTerms.destination sampleCrypto .aliceReleases :=
  ⟨soleInput_soleSpend _ _ _ _, by decide, rfl, ⟨100000000, 0, sampleTerms.aliceSpk, none⟩,
    by decide⟩

end KaspaPortal.Guarantees

/-!
## A shipment escrow pays only its parties

The two states of the shipment escrow, read off the nested form of its script:
what each lets through, and from the amount dispatch what the whole script lets
through. Both states pin the number of outputs as well as their scripts, so the
settlements below are complete lists of outputs.
-/
namespace KaspaPortal.Guarantees
open Lib Primitives Transaction Contract.Script Engine Contract.ShippingEscrow

namespace ShippingSettlement
variable {env : Env} {w s : Stack} {v : Bytes}

/-- The witness carries a signature that verifies under `key`. -/
def Signed (env : Env) (w : Stack) (key : FixedBytes 32) : Prop :=
  ∃ sig ∈ w, env.crypto.checkSig env.tx env.index sig key.val = true

def DeadlinePassed (env : Env) (deadline : UInt64) : Prop := lockTimeMet env deadline.toNat

/-- The remainder back to the escrow and the first tranche to the seller. -/
def PickedUp (tx : ConsensusTransaction) (own sellerSpk : Bytes) (remainder : UInt64) : Prop :=
  ∃ o₀ o₁, tx.outputs = [o₀, o₁] ∧ o₀.spk = own ∧ o₀.value = remainder ∧ o₁.spk = sellerSpk

def Delivered (tx : ConsensusTransaction) (sellerSpk delivererSpk : Bytes) (fee : UInt64) : Prop :=
  ∃ o₀ o₁, tx.outputs = [o₀, o₁] ∧ o₀.spk = sellerSpk ∧ o₁.spk = delivererSpk ∧ o₁.value = fee

def Refunded (tx : ConsensusTransaction) (buyerSpk : Bytes) : Prop :=
  ∃ o, tx.outputs = [o] ∧ o.spk = buyerSpk

theorem outputs_pair {outputs : List ConsensusOutput} {o₀ o₁ : ConsensusOutput}
    (hlen : (outputs.length : Int) = 2) (h₀ : outputs[0]? = some o₀) (h₁ : outputs[1]? = some o₁) :
    outputs = [o₀, o₁] := by
  obtain ⟨a, b, rfl⟩ := List.length_eq_two.mp (by exact_mod_cast hlen)
  simp_all

theorem outputs_single {outputs : List ConsensusOutput} {o : ConsensusOutput}
    (hlen : outputs.length = 1) (h : outputs[0]? = some o) : outputs = [o] := by
  obtain ⟨a, rfl⟩ := List.length_eq_one_iff.mp hlen
  simp_all

theorem pickupOrRefund_sound {config : StateZeroConfig} {e : UtxoEntry}
    (he : env.tx.entries[env.index]? = some e)
    (h : Evals env (pickupOrRefundProgram config) w [v]) :
    PickedUp env.tx.tx e.spk config.sellerSpk config.remainder ∧
        Signed env w config.delivererPubkey ∨
      Refunded env.tx.tx config.buyerSpk ∧
        (Signed env w config.arbiterPubkey ∨ DeadlinePassed env config.pickupDeadline) := by
  simp only [pickupOrRefundProgram, signedBy, after, outputSpkIs, outputAmountIs,
    outputCountIs] at h
  simp [he] at h
  obtain ⟨a, s, rfl, ⟨-, h⟩ | ⟨-, b, s, rfl, hauth, o, ho, hbuyer, -, hlen, -⟩⟩ := h
  · obtain ⟨sig, rfl, hsig, o₀, h₀, -, hown, o₀', h₀', -, hrem, o₁, h₁, hseller, -, hlen, -⟩ := h
    obtain rfl : o₀ = o₀' := Option.some.inj (h₀.symm.trans h₀')
    exact Or.inl ⟨⟨o₀, o₁, outputs_pair hlen h₀ h₁, hown, UInt64.toNat.inj hrem, hseller⟩,
      sig, by simp, hsig⟩
  · refine Or.inr ⟨⟨o, outputs_single hlen ho, hbuyer⟩, ?_⟩
    rcases hauth with ⟨-, sig, rfl, hsig⟩ | ⟨-, -, hmet, -⟩
    · exact Or.inl ⟨sig, by simp, hsig⟩
    · exact Or.inr hmet

theorem deliveryOrRefund_sound {config : StateOneConfig}
    (h : Evals env (deliveryOrRefundProgram config) w [v]) :
    Delivered env.tx.tx config.sellerSpk config.delivererSpk config.feeSompi ∧
        (Signed env w config.buyerPubkey ∨ Signed env w config.arbiterPubkey ∨
          DeadlinePassed env config.deliveryDeadline) ∨
      Refunded env.tx.tx config.buyerSpk ∧ Signed env w config.arbiterPubkey := by
  simp only [deliveryOrRefundProgram, signedBy, after, outputSpkIs, outputAmountIs,
    outputCountIs] at h
  simp at h
  obtain ⟨a, s, rfl, ⟨-, b, s, rfl, hauth, h⟩ | ⟨-, sig, rfl, hsig, o, ho, hbuyer, -, hlen, -⟩⟩ := h
  · obtain ⟨o₀, h₀, hseller, o₁, h₁, hdel, o₁', h₁', -, hfee, -, hlen, -⟩ := h
    obtain rfl : o₁ = o₁' := Option.some.inj (h₁.symm.trans h₁')
    refine Or.inl ⟨⟨o₀, o₁, outputs_pair hlen h₀ h₁, hseller, hdel, UInt64.toNat.inj hfee⟩, ?_⟩
    rcases hauth with ⟨-, sig, rfl, hsig⟩ | ⟨-, c, s, rfl, ⟨-, sig, rfl, hsig⟩ | ⟨-, -, hmet, -⟩⟩
    · exact Or.inl ⟨sig, by simp, hsig⟩
    · exact Or.inr (Or.inl ⟨sig, by simp, hsig⟩)
    · exact Or.inr (Or.inr hmet)
  · exact Or.inr ⟨⟨o, outputs_single hlen ho, hbuyer⟩, sig, by simp, hsig⟩

/-- The dispatch on the spent amount: the total enters the funded state, the
remainder the in-transit state, and any other amount leaves false on top. -/
theorem shipEscrow_dispatch {salt : FixedBytes 8} {config : StateZeroConfig} {e : UtxoEntry}
    (he : env.tx.entries[env.index]? = some e)
    (h : Evals env (shipEscrowProgram salt config) w [v]) (hv : asBool v = true) :
    e.amount = config.total ∧ Evals env (pickupOrRefundProgram config) w [v] ∨
      e.amount ≠ config.total ∧ e.amount = config.remainder ∧
        Evals env (deliveryOrRefundProgram config.stateOne) w [v] := by
  simp only [shipEscrowProgram, stateZeroProgram, stateOneProgram] at h
  simp [he] at h
  obtain ⟨-, -, ⟨ht, h⟩ | ⟨ht, h⟩⟩ := h
  · exact Or.inl ⟨UInt64.toNat.inj ht, h⟩
  · rcases h with ⟨hr, h⟩ | ⟨-, rfl, -⟩
    · exact Or.inr ⟨fun hc => ht (congrArg UInt64.toNat hc), UInt64.toNat.inj hr, h⟩
    · cases hv

/-- The settlements of a shipment escrow holding `amount`: which parties act,
and the whole list of outputs. -/
def Settles (env : Env) (w : Stack) (request : ShippingEscrowScriptRequest)
    (tranches : ShippingEscrowTranches) (own : Bytes) (amount : UInt64) : Prop :=
  amount = tranches.total ∧
      (PickedUp env.tx.tx own (p2pkScriptPublicKey request.sellerPubkey) tranches.remainder ∧
        Signed env w request.delivererPubkey ∨
      Refunded env.tx.tx (p2pkScriptPublicKey request.buyerPubkey) ∧
        (Signed env w request.arbiterPubkey ∨ DeadlinePassed env request.cltv1Deadline)) ∨
    amount ≠ tranches.total ∧ amount = tranches.remainder ∧
      (Delivered env.tx.tx (p2pkScriptPublicKey request.sellerPubkey)
          (p2pkScriptPublicKey request.delivererPubkey) request.feeSompi ∧
        (Signed env w request.buyerPubkey ∨ Signed env w request.arbiterPubkey ∨
          DeadlinePassed env request.cltv2Deadline) ∨
      Refunded env.tx.tx (p2pkScriptPublicKey request.buyerPubkey) ∧
        Signed env w request.arbiterPubkey)

end ShippingSettlement
open ShippingSettlement

/-- What a shipment escrow lets through, for every accepted request, every
transaction spending it alone and every witness. -/
theorem shipEscrow_pays_only_its_parties {request : ShippingEscrowScriptRequest} {script : Bytes}
    (hbuild : buildShipEscrowScript request = .ok script) {env : Env} {w : Stack}
    (hs : SoleInput env script) (h : succeeds env script w = true) :
    ∃ tranches e, ShippingEscrowTranches.new request.productSompi request.feeSompi = .ok tranches ∧
      env.tx.entries[0]? = some e ∧
      Settles env w request tranches (spkBytes 0 (p2shScript (env.crypto.blake2b script)))
        e.amount := by
  obtain ⟨tranches, ht, htok⟩ := tokenize_shipEscrowScript hbuild
  obtain ⟨e, he, hspk⟩ := hs.locked
  obtain ⟨v, hev, hv⟩ := (succeeds_iff htok w).mp h
  have he' : env.tx.entries[env.index]? = some e := by rw [hs.index]; exact he
  refine ⟨tranches, e, ht, he, ?_⟩
  rcases shipEscrow_dispatch he' hev hv with ⟨htotal, hp⟩ | ⟨hnot, hrem, hd⟩
  · refine Or.inl ⟨htotal, ?_⟩
    rw [← hspk]
    exact pickupOrRefund_sound he' hp
  · exact Or.inr ⟨hnot, hrem, deliveryOrRefund_sound hd⟩

namespace ShippingSettlement

def sampleRequest : ShippingEscrowScriptRequest where
  sellerPubkey := filled 1 32
  delivererPubkey := filled 2 32
  buyerPubkey := filled 3 32
  arbiterPubkey := filled 4 32
  productSompi := 1000
  feeSompi := 70
  cltv1Deadline := 5000
  cltv2Deadline := 9000
  salt := filled 9 8

def sampleScript : Bytes := (buildShipEscrowScript sampleRequest).toOption.getD []

/-- Pickup: 570 stay locked and 500 go to the seller. -/
def samplePickup : Env :=
  soleSpend sampleCrypto sampleScript 1070
    [⟨570, 0, p2shScript (sampleCrypto.blake2b sampleScript), none⟩,
      ⟨500, 0, pushPubkey (filled 1 32) ++ [OP_CHECKSIG], none⟩]

end ShippingSettlement

theorem shipEscrow_pays_only_its_parties_pickup :
    buildShipEscrowScript sampleRequest = .ok sampleScript ∧ SoleInput samplePickup sampleScript ∧
    succeeds samplePickup sampleScript [[1], List.replicate 64 2] = true ∧
    ∃ tranches e, ShippingEscrowTranches.new 1000 70 = .ok tranches ∧
      samplePickup.tx.entries[0]? = some e ∧
      Settles samplePickup [[1], List.replicate 64 2] sampleRequest tranches
        (spkBytes 0 (p2shScript (sampleCrypto.blake2b sampleScript))) e.amount := by
  have hbuild : buildShipEscrowScript sampleRequest = .ok sampleScript := rfl
  have hs : SoleInput samplePickup sampleScript := soleInput_soleSpend _ _ _ _
  have h : succeeds samplePickup sampleScript [[1], List.replicate 64 2] = true := by
    decide
  exact ⟨hbuild, hs, h, shipEscrow_pays_only_its_parties hbuild hs h⟩

end KaspaPortal.Guarantees
