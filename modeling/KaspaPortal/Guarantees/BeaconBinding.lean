import KaspaPortal.Guarantees.ObservedBlocks
import KaspaPortal.Lib.Framing
import KaspaPortal.Randomness.Beacon

/-!
# What a beacon output binds

The evidence string can be read back, and a chain of hashes leads from the output to it:
the whitened output names the evidence, the context and the last round, and the last round names
its number and its positions.

Collisions of the hash are excluded on the strings that two proofs hash, and nowhere else.
-/
namespace KaspaPortal.Randomness
open Lib

/-! ## Networks -/

/-- A suffix that fits into seven bits and is not zero. -/
def NetworkId.Canonical : NetworkId → Prop
  | .testnet suffix => 1 ≤ suffix ∧ suffix ≤ 127
  | _ => True

theorem NetworkId.parse_canonical {text : String} {network : NetworkId}
    (h : NetworkId.parse text = .ok network) : network.Canonical := by
  rw [parse] at h
  simp only at h
  split at h
  · cases h
    exact trivial
  split at h
  · cases h
    exact trivial
  split at h
  · cases h
    exact trivial
  obtain ⟨testnet, _, h⟩ := bind_eq_ok.mp h
  obtain ⟨_, _, h⟩ := bind_eq_ok.mp h
  obtain ⟨_, _, h⟩ := bind_eq_ok.mp h
  obtain ⟨_, hbounds, h⟩ := bind_eq_ok.mp h
  have hbounds := rejectIf_eq_ok.mp hbounds
  rw [not_not] at hbounds
  cases h
  generalize decimal _ = n at hbounds
  have hvalue : (UInt8.ofNat n).toNat = n := by
    rw [UInt8.toNat_ofNat']
    omega
  change 1 ≤ UInt8.ofNat n ∧ UInt8.ofNat n ≤ 127
  rw [UInt8.le_iff_toNat_le, UInt8.le_iff_toNat_le, hvalue]
  exact hbounds

/-- The codes of distinct networks differ. -/
theorem networkCode_inj {network network' : NetworkId} (h : network.Canonical)
    (h' : network'.Canonical) (heq : networkCode network = networkCode network') :
    network = network' := by
  -- the low seven bits of a testnet's code are its suffix
  have hlow : ∀ n : Fin 128,
      networkCode (.testnet (UInt8.ofNat n.val)) &&& 0x7F = UInt8.ofNat n.val := by
    decide +kernel
  have hother : ∀ n : Fin 128, 1 ≤ n.val →
      networkCode (.testnet (UInt8.ofNat n.val)) ≠ 0 ∧
        networkCode (.testnet (UInt8.ofNat n.val)) ≠ 20 ∧
          networkCode (.testnet (UInt8.ofNat n.val)) ≠ 21 := by
    decide
  have hsuffix : ∀ {suffix : UInt8}, 1 ≤ suffix ∧ suffix ≤ 127 →
      ∃ n : Fin 128, 1 ≤ n.val ∧ UInt8.ofNat n.val = suffix := by
    intro suffix hbounds
    rw [UInt8.le_iff_toNat_le, UInt8.le_iff_toNat_le] at hbounds
    exact ⟨⟨suffix.toNat, Nat.lt_succ_of_le hbounds.2⟩, hbounds.1, UInt8.ofNat_toNat⟩
  cases network with
  | testnet suffix =>
    obtain ⟨n, hn, rfl⟩ := hsuffix h
    obtain ⟨h0, h20, h21⟩ := hother n hn
    cases network' with
    | testnet suffix' =>
      obtain ⟨m, hm, rfl⟩ := hsuffix h'
      have hsame := (hlow n).symm.trans ((congrArg (· &&& 0x7F) heq).trans (hlow m))
      rw [hsame]
    | mainnet => exact absurd heq h0
    | simnet => exact absurd heq h20
    | devnet => exact absurd heq h21
  | mainnet =>
    cases network' with
    | testnet suffix' =>
      obtain ⟨m, hm, rfl⟩ := hsuffix h'
      exact absurd heq.symm (hother m hm).1
    | mainnet => rfl
    | simnet => exact absurd heq (by decide)
    | devnet => exact absurd heq (by decide)
  | simnet =>
    cases network' with
    | testnet suffix' =>
      obtain ⟨m, hm, rfl⟩ := hsuffix h'
      exact absurd heq.symm (hother m hm).2.1
    | mainnet => exact absurd heq (by decide)
    | simnet => rfl
    | devnet => exact absurd heq (by decide)
  | devnet =>
    cases network' with
    | testnet suffix' =>
      obtain ⟨m, hm, rfl⟩ := hsuffix h'
      exact absurd heq.symm (hother m hm).2.2
    | mainnet => exact absurd heq (by decide)
    | simnet => exact absurd heq (by decide)
    | devnet => rfl

/-! ## Evidence -/

def kaspaEntry (evidence : KaspaEntropyEvidence) : Bytes :=
  evidence.blockHash.val ++ appendOptionalU64 evidence.daaScore

/-- What the evidence string says of a block. -/
def kaspaFact (evidence : KaspaEntropyEvidence) : FixedBytes 32 × Option UInt64 :=
  (evidence.blockHash, evidence.daaScore)

/-- What the evidence string says of a CURBy value. -/
def curbyFact (evidence : CurbyEvidence) : Bytes × Bytes × FixedBytes 32 :=
  (evidence.round, evidence.value, evidence.rawResponseHash)

theorem optionalU64_append_inj {x y : Option UInt64} {r s : Bytes}
    (h : appendOptionalU64 x ++ r = appendOptionalU64 y ++ s) : x = y ∧ r = s := by
  cases x with
  | none =>
    cases y with
    | none => exact ⟨rfl, (List.cons.inj h).2⟩
    | some y => cases (List.cons.inj h).1
  | some x =>
    cases y with
    | none => cases (List.cons.inj h).1
    | some y =>
      obtain ⟨hnum, hrest⟩ := beBytes_append_inj x.toNat_lt y.toNat_lt (List.cons.inj h).2
      exact ⟨congrArg some (UInt64.toNat.inj hnum), hrest⟩

theorem kaspaEntry_delimits : Delimits kaspaEntry (fun _ => True) kaspaFact := by
  intro a b _ _ r s h
  simp only [kaspaEntry, List.append_assoc] at h
  obtain ⟨hhash, h⟩ := fixed_append_inj h
  obtain ⟨hscore, h⟩ := optionalU64_append_inj h
  exact ⟨Prod.ext hhash hscore, h⟩

theorem appendKaspaFrom_eq {previous : Option UInt64} {kaspa : List KaspaEntropyEvidence}
    {bytes : Bytes} (h : appendKaspaFrom previous kaspa = .ok bytes) :
    bytes = kaspa.flatMap kaspaEntry := by
  induction kaspa generalizing previous bytes with
  | nil =>
    cases h
    rfl
  | cons evidence rest ih =>
    rw [appendKaspaFrom] at h
    obtain ⟨_, _, h⟩ := bind_eq_ok.mp h
    obtain ⟨_, _, h⟩ := bind_eq_ok.mp h
    obtain ⟨tail, htail, h⟩ := bind_eq_ok.mp h
    cases h
    rw [ih htail, List.flatMap_cons, kaspaEntry]

theorem curby_lengths {evidence : CurbyEvidence} (h : evidence.validate = .ok ()) :
    evidence.round.length < 256 ^ 2 ∧ evidence.value.length < 256 ^ 2 := by
  rw [CurbyEvidence.validate] at h
  obtain ⟨_, hround, h⟩ := bind_eq_ok.mp h
  obtain ⟨_, hvalue, _⟩ := bind_eq_ok.mp h
  have hround := rejectIf_eq_ok.mp hround
  have hvalue := rejectIf_eq_ok.mp hvalue
  omega

theorem appendCurbyEvidence_inj {curby curby' : Option CurbyEvidence} {bytes : Bytes}
    (h : appendCurbyEvidence curby = .ok bytes) (h' : appendCurbyEvidence curby' = .ok bytes) :
    curby.map curbyFact = curby'.map curbyFact := by
  cases curby with
  | none =>
    cases h
    cases curby' with
    | none => rfl
    | some evidence' =>
      obtain ⟨_, _, h'⟩ := bind_eq_ok.mp h'
      cases h'
  | some evidence =>
    obtain ⟨_, hvalid, h⟩ := bind_eq_ok.mp h
    cases h
    cases curby' with
    | none => cases h'
    | some evidence' =>
      obtain ⟨_, hvalid', h'⟩ := bind_eq_ok.mp h'
      obtain ⟨hround, hvalue⟩ := curby_lengths hvalid
      obtain ⟨hround', hvalue'⟩ := curby_lengths hvalid'
      have heq := Except.ok.inj h'
      simp only [List.append_assoc, List.append_cancel_left_eq] at heq
      obtain ⟨hrounds, heq⟩ := be_counted_append_inj hround' hround heq
      obtain ⟨hvalues, heq⟩ := be_counted_append_inj hvalue' hvalue heq
      have hhashes : evidence'.rawResponseHash = evidence.rawResponseHash := Subtype.ext heq
      simp only [Option.map_some, curbyFact, hrounds, hvalues, hhashes]

/-- The evidence string determines the network, the blocks and the CURBy value. -/
theorem canonicalEvidence_inj {network network' : NetworkId} {kaspa kaspa' : List KaspaEntropyEvidence}
    {curby curby' : Option CurbyEvidence} {evidence evidence' : CanonicalEvidence}
    (hnetwork : network.Canonical) (hnetwork' : network'.Canonical)
    (h : canonicalEvidence network kaspa curby = .ok evidence)
    (h' : canonicalEvidence network' kaspa' curby' = .ok evidence')
    (heq : evidence.bytes = evidence'.bytes) :
    network = network' ∧ kaspa.map kaspaFact = kaspa'.map kaspaFact ∧
      curby.map curbyFact = curby'.map curbyFact := by
  have hok : (canonicalEvidence network kaspa curby).isOk = true := by rw [h]; rfl
  have hok' : (canonicalEvidence network' kaspa' curby').isOk = true := by rw [h']; rfl
  have hcount := ((canonicalEvidence_isOk _ _ _).mp hok).1.2
  have hcount' := ((canonicalEvidence_isOk _ _ _).mp hok').1.2
  rw [canonicalEvidence] at h h'
  obtain ⟨_, _, h⟩ := bind_eq_ok.mp h
  obtain ⟨bytes, hbytes, h⟩ := bind_eq_ok.mp h
  obtain ⟨tail, htail, h⟩ := bind_eq_ok.mp h
  obtain ⟨_, _, h'⟩ := bind_eq_ok.mp h'
  obtain ⟨bytes', hbytes', h'⟩ := bind_eq_ok.mp h'
  obtain ⟨tail', htail', h'⟩ := bind_eq_ok.mp h'
  cases h
  cases h'
  simp only [List.append_assoc] at heq
  obtain ⟨hcode, heq⟩ := List.cons.inj (List.append_cancel_left heq)
  obtain ⟨hlength, heq⟩ := beBytes_append_inj (by omega) (by omega) heq
  rw [appendKaspaFrom_eq hbytes, appendKaspaFrom_eq hbytes'] at heq
  obtain ⟨hfacts, htails⟩ := kaspaEntry_delimits.flatMap_append hlength (fun _ _ => trivial)
    (fun _ _ => trivial) heq
  subst htails
  exact ⟨networkCode_inj hnetwork hnetwork' hcode, hfacts, appendCurbyEvidence_inj htail htail'⟩

/-! ## Rounds -/

section extractor
variable {sha256 : Bytes → FixedBytes 32}

/-- A digest never gives more positions than were asked for. -/
theorem length_appendPositions {seed : Bytes} {bitLen count : Nat} {counter : UInt32}
    {positions : List Nat} (h : positions.length ≤ count) :
    (appendPositions sha256 seed bitLen count counter positions).length ≤ count := by
  rw [appendPositions]
  generalize chunks 8 _ = pieces
  induction pieces generalizing positions with
  | nil => exact h
  | cons piece pieces ih =>
    rw [List.foldl_cons]
    split
    case isTrue => exact ih h
    case isFalse hne =>
      apply ih
      rw [List.length_append, List.length_singleton]
      omega

/-- A digest gives a position, when one is missing. -/
theorem lt_length_appendPositions {seed : Bytes} {bitLen count : Nat} {counter : UInt32}
    {positions : List Nat} (h : positions.length < count) :
    positions.length < (appendPositions sha256 seed bitLen count counter positions).length := by
  have hgrow : ∀ (pieces : List Bytes) (positions : List Nat), positions.length ≤
      (pieces.foldl (fun positions chunk => if positions.length = count then positions
        else positions ++ [beNat chunk % bitLen]) positions).length := by
    intro pieces
    induction pieces with
    | nil => exact fun positions => Nat.le_refl _
    | cons piece pieces ih =>
      intro positions
      rw [List.foldl_cons]
      split
      case isTrue => exact ih positions
      case isFalse =>
        apply Nat.le_trans _ (ih _)
        rw [List.length_append]
        omega
  rw [appendPositions]
  have hpieces : ∀ digest : FixedBytes 32, (chunks 8 digest.val).length = 4 := by
    intro digest
    rw [length_chunks, digest.property]
    rfl
  have hpieces := hpieces (sha256 (POSITIONS_DOMAIN ++ seed ++ beBytes 4 counter.toNat))
  cases hchunks : chunks 8 (sha256 (POSITIONS_DOMAIN ++ seed ++ beBytes 4 counter.toNat)).val with
  | nil => rw [hchunks] at hpieces; cases hpieces
  | cons piece pieces =>
    rw [List.foldl_cons, if_neg (Nat.ne_of_lt h)]
    apply Nat.lt_of_lt_of_le _ (hgrow pieces _)
    rw [List.length_append, List.length_singleton]
    exact Nat.lt_succ_self _

theorem length_derivePositionsFrom {seed : Bytes} {bitLen count fuel : Nat} {counter : UInt32}
    {positions derived : List Nat} (hlength : positions.length ≤ count)
    (hfuel : count ≤ positions.length + fuel)
    (h : derivePositionsFrom sha256 seed bitLen count fuel counter positions = .ok derived) :
    derived.length = count := by
  induction fuel generalizing counter positions with
  | zero =>
    cases h
    omega
  | succ fuel ih =>
    rw [derivePositionsFrom] at h
    split at h
    case isTrue hlt =>
      obtain ⟨_, _, h⟩ := bind_eq_ok.mp h
      have hmore : positions.length <
          (appendPositions sha256 seed bitLen count counter positions).length :=
        lt_length_appendPositions hlt
      exact ih (length_appendPositions hlength) (by omega) h
    case isFalse hge =>
      cases h
      omega

theorem length_derivePositions {seed : Bytes} {bitLen count : Nat} {positions : List Nat}
    (h : derivePositions sha256 seed bitLen count = .ok positions) :
    positions.length = count ∧ count ≤ 4096 := by
  rw [derivePositions] at h
  obtain ⟨_, _, h⟩ := bind_eq_ok.mp h
  obtain ⟨_, _, h⟩ := bind_eq_ok.mp h
  obtain ⟨_, hbounds, h⟩ := bind_eq_ok.mp h
  have hbounds := rejectIf_eq_ok.mp hbounds
  rw [not_not] at hbounds
  exact ⟨length_derivePositionsFrom (Nat.zero_le _) (by simp) h, hbounds.2⟩

/-- A round's string tells the round and the number of its positions. -/
theorem foldPreimage_inj {evidence evidence' : Bytes} {evidenceHash evidenceHash' : FixedBytes 32}
    {seed seed' : FixedBytes 32} {positions positions' : List Nat} {round round' : UInt8}
    (hlength : positions.length ≤ 4096) (hlength' : positions'.length ≤ 4096)
    (h : foldPreimage evidence evidenceHash seed positions round =
      foldPreimage evidence' evidenceHash' seed' positions' round') :
    round = round' ∧ positions.length = positions'.length := by
  simp only [foldPreimage, List.append_assoc] at h
  obtain ⟨hround, h⟩ := List.cons.inj (List.append_cancel_left h)
  obtain ⟨_, h⟩ := fixed_append_inj h
  obtain ⟨hpositions, _⟩ := beBytes_append_inj (by omega) (by omega) h
  exact ⟨hround, hpositions⟩

theorem whitenPreimage_inj {output output' evidenceHash evidenceHash' : FixedBytes 32}
    {context context' : Bytes}
    (h : whitenPreimage sha256 output evidenceHash context =
      whitenPreimage sha256 output' evidenceHash' context') :
    output = output' ∧ evidenceHash = evidenceHash' ∧ sha256 context = sha256 context' := by
  simp only [whitenPreimage, List.append_assoc] at h
  obtain ⟨houtput, h⟩ := fixed_append_inj (List.append_cancel_left h)
  obtain ⟨hevidence, h⟩ := fixed_append_inj h
  exact ⟨houtput, hevidence, Subtype.ext h⟩

/-- The output of the rounds is the hash of the last one. -/
theorem foldRounds_last {evidence : Bytes} {evidenceHash seed output : FixedBytes 32}
    {positions : UInt16} {round : Nat}
    (h : foldRounds sha256 evidence evidenceHash seed positions (round + 1) = .ok output) :
    ∃ last derived, foldRounds sha256 evidence evidenceHash seed positions round = .ok last ∧
      derivePositions sha256 last.val (evidence.length * 8) positions.toNat = .ok derived ∧
        output = sha256 (foldPreimage evidence evidenceHash last derived (UInt8.ofNat round)) := by
  rw [foldRounds] at h
  obtain ⟨last, hlast, h⟩ := bind_eq_ok.mp h
  obtain ⟨derived, hderived, h⟩ := bind_eq_ok.mp h
  cases h
  exact ⟨last, derived, hlast, hderived, rfl⟩

end extractor

/-! ## Strings that are hashed -/

variable (sha256 : Bytes → FixedBytes 32)

/-- What verifying a proof hashes for its evidence: the evidence, the context, every round and the
last output. -/
def BeaconProof.stringsFor (proof : BeaconProof) (evidence : CanonicalEvidence) : List Bytes :=
  let evidenceHash := sha256 evidence.bytes
  let rounds := foldRounds sha256 evidence.bytes evidenceHash
    (initialSeed sha256 evidenceHash proof.context) proof.extractor.positions
  [evidence.bytes, proof.context] ++
    (List.range proof.extractor.foldingRounds.toNat).filterMap (fun round =>
      (rounds round).toOption.bind fun seed =>
        (derivePositions sha256 seed.val (evidence.bytes.length * 8)
          proof.extractor.positions.toNat).toOption.map fun positions =>
            foldPreimage evidence.bytes evidenceHash seed positions (UInt8.ofNat round)) ++
    ((rounds proof.extractor.foldingRounds.toNat).toOption.map fun output =>
      whitenPreimage sha256 output evidenceHash proof.context).toList

def BeaconProof.hashedStrings (proof : BeaconProof) : List Bytes :=
  (canonicalEvidence proof.network proof.kaspa proof.curby).toOption.elim []
    (proof.stringsFor sha256)

/-- No two of the strings have one hash. -/
def Collisionless (strings : List Bytes) : Prop :=
  ∀ a ∈ strings, ∀ b ∈ strings, sha256 a = sha256 b → a = b

/-- A valid result, taken apart: the chain from its evidence to its output. -/
structure Chain (result : BeaconResult) (evidence : CanonicalEvidence) (round : Nat)
    (seed : FixedBytes 32) (positions : List Nat) : Prop where
  evidence_eq : canonicalEvidence result.proof.network result.proof.kaspa result.proof.curby =
    .ok evidence
  rounds_eq : result.proof.extractor.foldingRounds.toNat = round + 1
  positions_eq : positions.length = result.proof.extractor.positions.toNat
  positions_le : positions.length ≤ 4096
  evidence_mem : evidence.bytes ∈ result.proof.hashedStrings sha256
  context_mem : result.proof.context ∈ result.proof.hashedStrings sha256
  fold_mem : foldPreimage evidence.bytes (sha256 evidence.bytes) seed positions (UInt8.ofNat round) ∈
    result.proof.hashedStrings sha256
  whiten_mem : whitenPreimage sha256
    (sha256 (foldPreimage evidence.bytes (sha256 evidence.bytes) seed positions (UInt8.ofNat round)))
    (sha256 evidence.bytes) result.proof.context ∈ result.proof.hashedStrings sha256
  output_eq : result.output = whiten sha256
    (sha256 (foldPreimage evidence.bytes (sha256 evidence.bytes) seed positions (UInt8.ofNat round)))
    (sha256 evidence.bytes) result.proof.context

variable {sha256}

theorem chain_of_valid {result : BeaconResult} {verification : BeaconVerification}
    (h : verifyResult sha256 result = .ok verification) (hvalid : verification.valid = true) :
    ∃ evidence round seed positions, Chain sha256 result evidence round seed positions := by
  rw [verifyResult] at h
  obtain ⟨_, _, h⟩ := bind_eq_ok.mp h
  obtain ⟨rebuilt, hrebuilt, h⟩ := bind_eq_ok.mp h
  cases h
  -- a valid verdict means that generating again gave the claimed output
  have houtput : rebuilt.output = result.output := eq_of_beq hvalid
  rw [generate] at hrebuilt
  obtain ⟨_, _, hrebuilt⟩ := bind_eq_ok.mp hrebuilt
  obtain ⟨evidence, hevidence, hrebuilt⟩ := bind_eq_ok.mp hrebuilt
  obtain ⟨whitened, hwhitened, hrebuilt⟩ := bind_eq_ok.mp hrebuilt
  cases hrebuilt
  change canonicalEvidence result.proof.network result.proof.kaspa result.proof.curby = _ at hevidence
  change extractAndFold sha256 evidence.bytes result.proof.context result.proof.extractor = _
    at hwhitened
  rw [extractAndFold] at hwhitened
  obtain ⟨_, hconfig, hwhitened⟩ := bind_eq_ok.mp hwhitened
  obtain ⟨_, _, hwhitened⟩ := bind_eq_ok.mp hwhitened
  obtain ⟨output, hfolded, hwhitened⟩ := bind_eq_ok.mp hwhitened
  have hrounds : 1 ≤ result.proof.extractor.foldingRounds.toNat := by
    rw [ExtractorConfig.validate] at hconfig
    obtain ⟨_, _, hconfig⟩ := bind_eq_ok.mp hconfig
    have hbounds := rejectIf_eq_ok.mp hconfig
    rw [not_not] at hbounds
    exact UInt8.le_iff_toNat_le.mp hbounds.1
  obtain ⟨round, hround⟩ := Nat.exists_eq_add_of_le' hrounds
  rw [hround] at hfolded
  obtain ⟨seed, positions, hseed, hpositions, heq⟩ := foldRounds_last hfolded
  obtain ⟨hlength, hle⟩ := length_derivePositions hpositions
  have hstrings : result.proof.hashedStrings sha256 = result.proof.stringsFor sha256 evidence := by
    rw [BeaconProof.hashedStrings, hevidence]
    rfl
  refine ⟨evidence, round, seed, positions, hevidence, hround, hlength, hlength ▸ hle, ?_, ?_, ?_, ?_, ?_⟩
  · rw [hstrings, BeaconProof.stringsFor]
    simp
  · rw [hstrings, BeaconProof.stringsFor]
    simp
  · rw [hstrings, BeaconProof.stringsFor, List.mem_append, List.mem_append]
    refine .inl (.inr (List.mem_filterMap.mpr ⟨round, List.mem_range.mpr (by omega), ?_⟩))
    rw [hseed]
    change ((derivePositions _ _ _ _).toOption.map _) = _
    rw [hpositions]
    rfl
  · rw [hstrings, BeaconProof.stringsFor, List.mem_append]
    refine .inr ?_
    rw [hround, hfolded, heq]
    exact List.mem_singleton.mpr rfl
  · rw [← houtput, ← heq]
    cases hwhitened
    rfl

end KaspaPortal.Randomness

namespace KaspaPortal.Guarantees
open Lib Randomness

/-- Valid results with one output agree on everything but when and how the CURBy value was obtained,
if no two of the strings that verifying them hashes collide. -/
theorem beacon_binds {sha256 : Bytes → FixedBytes 32} {result result' : BeaconResult}
    {verification verification' : BeaconVerification}
    (hnetwork : ∃ text, NetworkId.parse text = .ok result.proof.network)
    (hnetwork' : ∃ text, NetworkId.parse text = .ok result'.proof.network)
    (h : verifyResult sha256 result = .ok verification) (hvalid : verification.valid = true)
    (h' : verifyResult sha256 result' = .ok verification') (hvalid' : verification'.valid = true)
    (hhash : Collisionless sha256
      (result.proof.hashedStrings sha256 ++ result'.proof.hashedStrings sha256))
    (houtput : result.output = result'.output) :
    result.proof.network = result'.proof.network ∧
      result.proof.kaspa.map (fun e => (e.blockHash, e.daaScore)) =
        result'.proof.kaspa.map (fun e => (e.blockHash, e.daaScore)) ∧
      result.proof.curby.map (fun e => (e.round, e.value, e.rawResponseHash)) =
        result'.proof.curby.map (fun e => (e.round, e.value, e.rawResponseHash)) ∧
      result.proof.context = result'.proof.context ∧
      result.proof.extractor = result'.proof.extractor := by
  obtain ⟨text, htext⟩ := hnetwork
  obtain ⟨text', htext'⟩ := hnetwork'
  obtain ⟨evidence, round, seed, positions, hchain⟩ := chain_of_valid h hvalid
  obtain ⟨evidence', round', seed', positions', hchain'⟩ := chain_of_valid h' hvalid'
  have hcollisionless : ∀ {a b : Bytes}, a ∈ result.proof.hashedStrings sha256 →
      b ∈ result'.proof.hashedStrings sha256 → sha256 a = sha256 b → a = b := by
    intro a b ha hb
    exact hhash a (List.mem_append_left _ ha) b (List.mem_append_right _ hb)
  -- From the output back: the whitened string, the last round, the evidence and the context.
  have hwhiten := hcollisionless hchain.whiten_mem hchain'.whiten_mem
    (hchain.output_eq.symm.trans (houtput.trans hchain'.output_eq))
  obtain ⟨hlast, hevidence, hcontext⟩ := whitenPreimage_inj hwhiten
  have hfold := hcollisionless hchain.fold_mem hchain'.fold_mem hlast
  obtain ⟨hround, hpositions⟩ := foldPreimage_inj hchain.positions_le hchain'.positions_le hfold
  have hbytes := hcollisionless hchain.evidence_mem hchain'.evidence_mem hevidence
  obtain ⟨hnetworks, hkaspa, hcurby⟩ := canonicalEvidence_inj (NetworkId.parse_canonical htext)
    (NetworkId.parse_canonical htext') hchain.evidence_eq hchain'.evidence_eq hbytes
  refine ⟨hnetworks, hkaspa, hcurby,
    hcollisionless hchain.context_mem hchain'.context_mem hcontext, ?_⟩
  have hrounds : result.proof.extractor.foldingRounds = result'.proof.extractor.foldingRounds := by
    have hlt := result.proof.extractor.foldingRounds.toNat_lt
    have hlt' := result'.proof.extractor.foldingRounds.toNat_lt
    have hnum := congrArg UInt8.toNat hround
    rw [hchain.rounds_eq] at hlt
    rw [hchain'.rounds_eq] at hlt'
    rw [UInt8.toNat_ofNat', UInt8.toNat_ofNat', Nat.mod_eq_of_lt (by omega),
      Nat.mod_eq_of_lt (by omega)] at hnum
    apply UInt8.toNat.inj
    rw [hchain.rounds_eq, hchain'.rounds_eq, hnum]
  have hcounts : result.proof.extractor.positions = result'.proof.extractor.positions := by
    apply UInt16.toNat.inj
    rw [← hchain.positions_eq, ← hchain'.positions_eq, hpositions]
  cases hconfig : result.proof.extractor
  cases hconfig' : result'.proof.extractor
  rw [hconfig, hconfig'] at hrounds hcounts
  rw [ExtractorConfig.mk.injEq]
  exact ⟨hcounts, hrounds⟩

namespace BeaconBinding

/-- A hash that tells strings apart by their length. -/
def lengthHash (bytes : Bytes) : FixedBytes 32 := ⟨beBytes 32 bytes.length, beBytes_length _ _⟩

/-- One block and a CURBy value that was obtained at a given time. -/
def sampleProof (retrievedAtMs : UInt64) : BeaconProof where
  version := BEACON_PROOF_VERSION
  network := .testnet 12
  context := [1, 2, 3]
  kaspa := [ObservedBlocks.block 1 none]
  curby := some ⟨[0x37], List.replicate 16 0, ⟨List.replicate 32 1, List.length_replicate⟩,
    retrievedAtMs, .rawApiUnverified⟩
  extractor := ⟨8, 1⟩

def sampleResult (retrievedAtMs : UInt64) : BeaconResult where
  output := ⟨beBytes 32 126, beBytes_length _ _⟩
  proof := sampleProof retrievedAtMs

end BeaconBinding

open BeaconBinding

/-- Two results that differ in the time only. -/
theorem beacon_binds_sample :
    sampleResult 1 ≠ sampleResult 2 ∧ (sampleResult 1).output = (sampleResult 2).output ∧
      (sampleProof 1).curby.map (fun e => (e.round, e.value, e.rawResponseHash)) =
        (sampleProof 2).curby.map (fun e => (e.round, e.value, e.rawResponseHash)) := by
  have hnetwork : NetworkId.parse "testnet-12" = .ok (.testnet 12) := by decide
  have hfirst : verifyResult lengthHash (sampleResult 1) =
      .ok ⟨true, ⟨beBytes 32 126, beBytes_length _ _⟩, true, false, true⟩ := by decide +kernel
  have hsecond : verifyResult lengthHash (sampleResult 2) =
      .ok ⟨true, ⟨beBytes 32 126, beBytes_length _ _⟩, true, false, true⟩ := by decide +kernel
  have hhash : Collisionless lengthHash
      ((sampleProof 1).hashedStrings lengthHash ++ (sampleProof 2).hashedStrings lengthHash) := by
    unfold Collisionless
    decide +kernel
  refine ⟨by decide, rfl, ?_⟩
  exact (beacon_binds ⟨_, hnetwork⟩ ⟨_, hnetwork⟩ hfirst rfl hsecond rfl hhash rfl).2.2.1

end KaspaPortal.Guarantees
