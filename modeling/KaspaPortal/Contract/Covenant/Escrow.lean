import KaspaPortal.Engine.Rules

/-!
# Escrow scripts

`src/contract/covenant/script/escrow.rs`. The builders are given byte by byte
as the source appends them; `escrowProgram` and `timelockedEscrowProgram` are
the nested form of those bytes and `tokenize_*` say so. `EscrowTerms` puts the
two scripts side by side: what they lock, which path a witness selects and
which destination that path names.

The wallet that offers these paths to a user is not modelled, and neither are
the texts it shows.
-/
namespace KaspaPortal.Contract.Covenant
open Lib Primitives Transaction Contract.Script Engine

def buildEscrowScript (alicePubkey bobPubkey arbiterPubkey : FixedBytes 32)
    (aliceSpk bobSpk : Bytes) (salt : FixedBytes 8) : Bytes :=
  let bobSpkFull := [0x00, 0x00] ++ bobSpk
  let aliceSpkFull := [0x00, 0x00] ++ aliceSpk
  [0x08] ++ salt.val ++ [OP_DROP] ++
  -- Path 1: Alice releases to Bob
  [OP_IF] ++ pushPubkey alicePubkey ++ [OP_CHECKSIGVERIFY] ++
    pushInt 0 ++ [OP_TX_OUTPUT_SPK] ++ pushData bobSpkFull ++ [OP_EQUALVERIFY, OP_1] ++
  [OP_ELSE] ++
  -- Path 2: Bob refunds to Alice
  [OP_IF] ++ pushPubkey bobPubkey ++ [OP_CHECKSIGVERIFY] ++
    pushInt 0 ++ [OP_TX_OUTPUT_SPK] ++ pushData aliceSpkFull ++ [OP_EQUALVERIFY, OP_1] ++
  [OP_ELSE] ++
  -- Paths 3 and 4: the arbiter decides the direction
  [OP_IF] ++ pushPubkey arbiterPubkey ++ [OP_CHECKSIGVERIFY] ++
    [OP_IF] ++
      pushInt 0 ++ [OP_TX_OUTPUT_SPK] ++ pushData bobSpkFull ++ [OP_EQUALVERIFY, OP_1] ++
    [OP_ELSE] ++
      pushInt 0 ++ [OP_TX_OUTPUT_SPK] ++ pushData aliceSpkFull ++ [OP_EQUALVERIFY, OP_1] ++
    [OP_ENDIF] ++
  [OP_ELSE] ++
  -- Path 5: dispute signal
    [OP_IF] ++ pushPubkey alicePubkey ++ [OP_CHECKSIGVERIFY] ++
    [OP_ELSE] ++ pushPubkey bobPubkey ++ [OP_CHECKSIGVERIFY] ++ [OP_ENDIF] ++
    [OP_TX_INPUT_INDEX, OP_TX_INPUT_SPK] ++ pushInt 0 ++
      [OP_TX_OUTPUT_SPK, OP_EQUALVERIFY, OP_1] ++
  [OP_ENDIF, OP_ENDIF, OP_ENDIF]

def buildTimelockedEscrowScript (alicePubkey bobPubkey : FixedBytes 32) (aliceSpk bobSpk : Bytes)
    (locktimeDaa : UInt64) : Bytes :=
  let bobSpkFull := [0x00, 0x00] ++ bobSpk
  let aliceSpkFull := [0x00, 0x00] ++ aliceSpk
  [OP_IF] ++ pushPubkey alicePubkey ++ [OP_CHECKSIGVERIFY] ++
    pushInt 0 ++ [OP_TX_OUTPUT_SPK] ++ pushData bobSpkFull ++ [OP_EQUAL] ++
  [OP_ELSE] ++
    [OP_IF] ++ pushPubkey bobPubkey ++ [OP_CHECKSIGVERIFY] ++
      pushInt 0 ++ [OP_TX_OUTPUT_SPK] ++ pushData aliceSpkFull ++ [OP_EQUAL] ++
    [OP_ELSE] ++ pushInt locktimeDaa ++ [OP_CHECKLOCKTIMEVERIFY] ++
      pushInt 0 ++ [OP_TX_OUTPUT_SPK] ++ pushData aliceSpkFull ++ [OP_EQUAL] ++
    [OP_ENDIF] ++
  [OP_ENDIF]

/-! ## Nested form -/

section programs
variable (alicePubkey bobPubkey arbiterPubkey : FixedBytes 32) (aliceSpk bobSpk : Bytes)
  (salt : FixedBytes 8) (locktimeDaa : UInt64)

def signedBy (key : FixedBytes 32) : List (Stmt Instr) := [data key.val, op .checkSigVerify]

def firstOutputSpk : List (Stmt Instr) := [num 0, op .txOutputSpk]

def paysVerify (spk : Bytes) : List (Stmt Instr) :=
  firstOutputSpk ++ [data (spkBytes 0 spk), op .equalVerify, data [1]]

def pays (spk : Bytes) : List (Stmt Instr) :=
  firstOutputSpk ++ [data (spkBytes 0 spk), op .equal]

/-- The dispute path returns output 0 to the script being spent. -/
def returnsOwn : List (Stmt Instr) :=
  [op .txInputIndex, op .txInputSpk] ++ firstOutputSpk ++ [op .equalVerify, data [1]]

def escrowProgram : List (Stmt Instr) :=
  [data salt.val, op .drop,
    .ifElse (signedBy alicePubkey ++ paysVerify bobSpk)
      [.ifElse (signedBy bobPubkey ++ paysVerify aliceSpk)
        [.ifElse (signedBy arbiterPubkey ++ [.ifElse (paysVerify bobSpk) (paysVerify aliceSpk)])
          (.ifElse (signedBy alicePubkey) (signedBy bobPubkey) :: returnsOwn)]]]

def timelockedEscrowProgram : List (Stmt Instr) :=
  [.ifElse (signedBy alicePubkey ++ pays bobSpk)
    [.ifElse (signedBy bobPubkey ++ pays aliceSpk)
      ([num locktimeDaa, op .checkLockTimeVerify] ++ pays aliceSpk)]]

variable {aliceSpk bobSpk} (ha : Pushable (spkBytes 0 aliceSpk))
  (hb : Pushable (spkBytes 0 bobSpk))
include ha hb

theorem tokenize_escrowScript :
    tokenize (buildEscrowScript alicePubkey bobPubkey arbiterPubkey aliceSpk bobSpk salt) =
      some (flattenAll
        (escrowProgram alicePubkey bobPubkey arbiterPubkey aliceSpk bobSpk salt)) := by
  rw [spkBytes_zero] at ha hb
  unfold buildEscrowScript
  simp [escrowProgram, signedBy, paysVerify, returnsOwn, firstOutputSpk, spkBytes_zero, ha, hb]

theorem tokenize_timelockedEscrowScript :
    tokenize (buildTimelockedEscrowScript alicePubkey bobPubkey aliceSpk bobSpk locktimeDaa) =
      some (flattenAll
        (timelockedEscrowProgram alicePubkey bobPubkey aliceSpk bobSpk locktimeDaa)) := by
  rw [spkBytes_zero] at ha hb
  unfold buildTimelockedEscrowScript
  simp [timelockedEscrowProgram, signedBy, pays, firstOutputSpk, spkBytes_zero, ha, hb]

end programs

/-! ## The two escrows side by side -/

inductive EscrowKind where
  | arbitrated (arbiterPubkey : FixedBytes 32) (salt : FixedBytes 8)
  | timelocked (locktimeDaa : UInt64)

/-- The arguments of either builder. Longer destinations make `push_data` panic. -/
structure EscrowTerms where
  alicePubkey : FixedBytes 32
  bobPubkey : FixedBytes 32
  aliceSpk : Bytes
  bobSpk : Bytes
  kind : EscrowKind
  aliceSpk_pushable : Pushable (spkBytes 0 aliceSpk)
  bobSpk_pushable : Pushable (spkBytes 0 bobSpk)

inductive EscrowPath where
  | aliceReleases | bobRefunds | arbiterAwardsBob | arbiterRefundsAlice | disputeSignal | timeout
  deriving DecidableEq, Repr

namespace EscrowTerms

def script (terms : EscrowTerms) : Bytes :=
  match terms.kind with
  | .arbitrated arbiterPubkey salt =>
    buildEscrowScript terms.alicePubkey terms.bobPubkey arbiterPubkey terms.aliceSpk terms.bobSpk salt
  | .timelocked locktimeDaa =>
    buildTimelockedEscrowScript terms.alicePubkey terms.bobPubkey terms.aliceSpk terms.bobSpk
      locktimeDaa

/-- The script an escrow UTXO carries. -/
def ownSpk (terms : EscrowTerms) (c : Crypto) : Bytes :=
  spkBytes 0 (p2shScript (c.blake2b terms.script))

end EscrowTerms

/-- The path the selectors of a witness lead to, top item first. The arbiter's
signature lies above the direction it chose. -/
def EscrowKind.path (kind : EscrowKind) (w : Stack) : Option EscrowPath := do
  if asBool (← w[0]?) then return .aliceReleases
  if asBool (← w[1]?) then return .bobRefunds
  match kind with
  | .timelocked _ => return .timeout
  | .arbitrated _ _ =>
    if asBool (← w[2]?) then
      return if asBool (← w[4]?) then .arbiterAwardsBob else .arbiterRefundsAlice
    return .disputeSignal

/-- The destination a path names, as introspection shows it. -/
def EscrowTerms.destination (terms : EscrowTerms) (c : Crypto) : EscrowPath → Bytes
  | .aliceReleases | .arbiterAwardsBob => spkBytes 0 terms.bobSpk
  | .bobRefunds | .arbiterRefundsAlice | .timeout => spkBytes 0 terms.aliceSpk
  | .disputeSignal => terms.ownSpk c

/-! ## What the scripts accept -/

/-- A witness that opens one path: its selectors, the signature it needs and
nothing else on the stack. -/
inductive EscrowTerms.Unlocks (terms : EscrowTerms) (env : Env) : EscrowPath → Stack → Prop
  | aliceReleases {a sig : Bytes} (ha : asBool a = true)
      (hsig : env.crypto.checkSig env.tx env.index sig terms.alicePubkey.val = true) :
      Unlocks terms env .aliceReleases [a, sig]
  | bobRefunds {a b sig : Bytes} (ha : asBool a = false) (hb : asBool b = true)
      (hsig : env.crypto.checkSig env.tx env.index sig terms.bobPubkey.val = true) :
      Unlocks terms env .bobRefunds [a, b, sig]
  | arbiter {a b c d sig : Bytes} {arbiterPubkey : FixedBytes 32} {salt : FixedBytes 8}
      (hk : terms.kind = .arbitrated arbiterPubkey salt)
      (ha : asBool a = false) (hb : asBool b = false) (hc : asBool c = true)
      (hsig : env.crypto.checkSig env.tx env.index sig arbiterPubkey.val = true) :
      Unlocks terms env (if asBool d then .arbiterAwardsBob else .arbiterRefundsAlice)
        [a, b, c, sig, d]
  | dispute {a b c d sig : Bytes} {arbiterPubkey : FixedBytes 32} {salt : FixedBytes 8}
      (hk : terms.kind = .arbitrated arbiterPubkey salt)
      (ha : asBool a = false) (hb : asBool b = false) (hc : asBool c = false)
      (hsig : env.crypto.checkSig env.tx env.index sig
        (if asBool d then terms.alicePubkey else terms.bobPubkey).val = true) :
      Unlocks terms env .disputeSignal [a, b, c, d, sig]
  | timeout {a b : Bytes} {locktimeDaa : UInt64} (hk : terms.kind = .timelocked locktimeDaa)
      (ha : asBool a = false) (hb : asBool b = false) (hl : locktimeDaa.toNat < 2 ^ 63)
      (hmet : lockTimeMet env locktimeDaa.toNat) :
      Unlocks terms env .timeout [a, b]

/-- Output 0 carries `spk`. -/
def FirstOutputPays (env : Env) (spk : Bytes) : Prop :=
  ∃ out, env.tx.tx.outputs[0]? = some out ∧ out.spk = spk

section accepts
variable {terms : EscrowTerms} {env : Env} {w s r : Stack} {p : List (Stmt Instr)}

theorem evals_paysVerify {spk : Bytes} : Evals env (paysVerify spk) s r ↔
    FirstOutputPays env (spkBytes 0 spk) ∧ [1] :: s = r := by
  simp [paysVerify, firstOutputSpk, FirstOutputPays, ← exists_and_right, and_assoc]

theorem evals_pays {spk : Bytes} {v : Bytes} (hv : asBool v = true) :
    Evals env (pays spk) s [v] ↔ FirstOutputPays env (spkBytes 0 spk) ∧ v = [1] ∧ s = [] := by
  simp only [pays, firstOutputSpk, FirstOutputPays]
  simp [← exists_and_right, and_assoc]
  constructor
  · rintro ⟨out, hout, rfl, rfl⟩
    simp only [asBool_boolBytes, decide_eq_true_eq] at hv
    exact ⟨out, hout, hv, by simp [boolBytes, hv], rfl⟩
  · rintro ⟨out, hout, hpay, rfl, rfl⟩
    exact ⟨out, hout, by simp [boolBytes, hpay], rfl⟩

theorem evals_returnsOwn {e : UtxoEntry} (hi : env.index < 2 ^ 63)
    (he : env.tx.entries[env.index]? = some e) :
    Evals env returnsOwn s r ↔ FirstOutputPays env e.spk ∧ [1] :: s = r := by
  simp only [returnsOwn, firstOutputSpk, FirstOutputPays]
  simp [he, ← exists_and_right, and_assoc]
  exact ⟨fun ⟨_, out, ho, hp, hr⟩ => ⟨out, ho, hp.symm, hr⟩,
    fun ⟨out, ho, hp, hr⟩ => ⟨hi, out, ho, hp.symm, hr⟩⟩

/-- Everything the arbitrated script accepts, path by path. -/
theorem arbitrated_accepts_iff {arbiter : FixedBytes 32} {salt : FixedBytes 8}
    (hk : terms.kind = .arbitrated arbiter salt) (hi : env.index < 2 ^ 63)
    (hl : LockedBy env.crypto env.tx env.index terms.script) :
    succeeds env terms.script w = true ↔
      ∃ path, terms.Unlocks env path w ∧ FirstOutputPays env (terms.destination env.crypto path) := by
  obtain ⟨e, he, hspk⟩ := hl
  have hs : terms.script = buildEscrowScript terms.alicePubkey terms.bobPubkey arbiter
      terms.aliceSpk terms.bobSpk salt := by
    unfold EscrowTerms.script
    rw [hk]
  rw [hs, succeeds_iff (tokenize_escrowScript _ _ _ _ terms.aliceSpk_pushable
    terms.bobSpk_pushable)]
  simp only [escrowProgram, signedBy]
  simp [evals_paysVerify, evals_returnsOwn hi he, hspk]
  constructor
  · rintro ⟨v, ⟨a, s, rfl, ⟨ha, sig, rfl, hsig, hpay, rfl⟩ | ⟨ha, b, s, rfl, h⟩⟩, -⟩
    · exact ⟨_, .aliceReleases ha hsig, hpay⟩
    rcases h with ⟨hb, sig, rfl, hsig, hpay, rfl⟩ | ⟨hb, c, s, rfl, h⟩
    · exact ⟨_, .bobRefunds ha hb hsig, hpay⟩
    rcases h with ⟨hc, sig, d, s, rfl, hsig, h⟩ | ⟨hc, d, s, rfl, hd, hpay, rfl⟩
    · rcases h with ⟨hd, hpay, rfl, rfl⟩ | ⟨hd, hpay, rfl, rfl⟩
      · exact ⟨_, .arbiter hk ha hb hc hsig, by simpa [hd, EscrowTerms.destination] using hpay⟩
      · exact ⟨_, .arbiter hk ha hb hc hsig, by simpa [hd, EscrowTerms.destination] using hpay⟩
    · rcases hd with ⟨hd, sig, rfl, hsig⟩ | ⟨hd, sig, rfl, hsig⟩
      · exact ⟨_, .dispute hk ha hb hc (by simpa [hd] using hsig), hpay⟩
      · exact ⟨_, .dispute hk ha hb hc (by simpa [hd] using hsig), hpay⟩
  · rintro ⟨path, hu, hpay⟩
    refine ⟨[1], ?_, rfl⟩
    cases hu with
    | aliceReleases ha hsig => exact ⟨_, _, rfl, .inl ⟨ha, _, rfl, hsig, hpay, rfl⟩⟩
    | bobRefunds ha hb hsig =>
      exact ⟨_, _, rfl, .inr ⟨ha, _, _, rfl, .inl ⟨hb, _, rfl, hsig, hpay, rfl⟩⟩⟩
    | @arbiter a b c d sig _ _ hk' ha hb hc hsig =>
      obtain ⟨rfl, rfl⟩ := EscrowKind.arbitrated.inj (hk.symm.trans hk')
      refine ⟨a, _, rfl, .inr ⟨ha, b, _, rfl, .inr ⟨hb, c, _, rfl, .inl ⟨hc, sig, d, [], rfl, hsig, ?_⟩⟩⟩⟩
      cases hd : asBool d with
      | true =>
        rw [hd] at hpay
        exact .inl ⟨rfl, hpay, rfl, rfl⟩
      | false =>
        rw [hd] at hpay
        exact .inr ⟨rfl, hpay, rfl, rfl⟩
    | @dispute a b c d sig _ _ hk' ha hb hc hsig =>
      refine ⟨a, _, rfl, .inr ⟨ha, b, _, rfl, .inr ⟨hb, c, _, rfl, .inr ⟨hc, d, _, rfl, ?_, hpay, rfl⟩⟩⟩⟩
      cases hd : asBool d with
      | true =>
        rw [hd] at hsig
        exact .inl ⟨rfl, sig, rfl, hsig⟩
      | false =>
        rw [hd] at hsig
        exact .inr ⟨rfl, sig, rfl, hsig⟩
    | timeout hk' => simp [hk] at hk'

/-- Everything the time-locked script accepts, path by path. -/
theorem timelocked_accepts_iff {locktimeDaa : UInt64} (hk : terms.kind = .timelocked locktimeDaa) :
    succeeds env terms.script w = true ↔
      ∃ path, terms.Unlocks env path w ∧ FirstOutputPays env (terms.destination env.crypto path) := by
  have hs : terms.script = buildTimelockedEscrowScript terms.alicePubkey terms.bobPubkey
      terms.aliceSpk terms.bobSpk locktimeDaa := by
    unfold EscrowTerms.script
    rw [hk]
  rw [hs, succeeds_iff (tokenize_timelockedEscrowScript _ _ _ terms.aliceSpk_pushable
    terms.bobSpk_pushable)]
  simp only [timelockedEscrowProgram, signedBy]
  simp
  constructor
  · rintro ⟨v, ⟨a, s, rfl, h⟩, hv⟩
    simp only [evals_pays hv] at h
    rcases h with ⟨ha, sig, s, rfl, hsig, hpay, -, rfl⟩ | ⟨ha, b, s, rfl, h⟩
    · exact ⟨_, .aliceReleases ha hsig, hpay⟩
    rcases h with ⟨hb, sig, s, rfl, hsig, hpay, -, rfl⟩ | ⟨hb, hl, hmet, hpay, -, rfl⟩
    · exact ⟨_, .bobRefunds ha hb hsig, hpay⟩
    · exact ⟨_, .timeout hk ha hb hl hmet, hpay⟩
  · rintro ⟨path, hu, hpay⟩
    refine ⟨[1], ?_, rfl⟩
    have hv : asBool [1] = true := rfl
    cases hu with
    | aliceReleases ha hsig => simpa [ha, hsig, evals_pays hv, EscrowTerms.destination] using hpay
    | bobRefunds ha hb hsig => simpa [ha, hb, hsig, evals_pays hv, EscrowTerms.destination] using hpay
    | arbiter hk' => simp [hk] at hk'
    | dispute hk' => simp [hk] at hk'
    | timeout hk' ha hb hl hmet =>
      obtain rfl := EscrowKind.timelocked.inj (hk.symm.trans hk')
      simpa [ha, hb, evals_pays hv] using ⟨hl, hmet, hpay⟩

/-- A witness is accepted exactly when it opens a path and output 0 pays the
destination that path names; no other output is looked at. -/
theorem escrow_accepts_iff (hi : env.index < 2 ^ 63)
    (hl : LockedBy env.crypto env.tx env.index terms.script) :
    succeeds env terms.script w = true ↔
      ∃ path, terms.Unlocks env path w ∧ FirstOutputPays env (terms.destination env.crypto path) := by
  rcases hk : terms.kind with ⟨arbiter, salt⟩ | ⟨locktimeDaa⟩
  · exact arbitrated_accepts_iff hk hi hl
  · exact timelocked_accepts_iff hk

/-- The path a witness opens is the one its selectors lead to. -/
theorem EscrowTerms.Unlocks.path_eq {path : EscrowPath} (h : terms.Unlocks env path w) :
    terms.kind.path w = some path := by
  cases h with
  | aliceReleases ha _ => simp [EscrowKind.path, ha]
  | bobRefunds ha hb _ => simp [EscrowKind.path, ha, hb]
  | @arbiter _ _ _ d _ _ _ hk ha hb hc _ =>
    cases hd : asBool d <;> simp [EscrowKind.path, hk, ha, hb, hc, hd]
  | dispute hk ha hb hc _ => simp [EscrowKind.path, hk, ha, hb, hc]
  | timeout hk ha hb => simp [EscrowKind.path, hk, ha, hb]

end accepts
end KaspaPortal.Contract.Covenant
