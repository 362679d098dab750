import KaspaPortal.Contract.Covenant.GlobalThread
import KaspaPortal.Engine.Ledger

/-!
# The cap of a covenant-id thread, over whole runs

A run is a sequence of ledgers, each reached from the one before by a
transaction that honours the tag rule and, if it spends the tagged output, does
so through the capped path. `ThreadOn` is the invariant: at most one tagged
output, on the thread's own script. `threadStep_bounds` is what one transaction
can do to the tagged amount.

Other paths of a covenant than the capped one exist, and a run that takes them
is not bounded.
-/
namespace KaspaPortal.Guarantees
open Lib Primitives Transaction Contract.Script Engine Contract.Covenant

namespace ThreadCap

/-- The locking script of a global covenant, as introspection shows it. -/
def threadSpk (c : Crypto) (terms : GlobalCovenant) : Bytes :=
  spkBytes 0 (p2shScript (c.blake2b terms.script))

/-- One transaction of a run. -/
def ThreadStep (c : Crypto) (terms : GlobalCovenant) (id : FixedBytes 32) (L L' : Ledger) : Prop :=
  ∃ txId t, Applies txId t L L' ∧ AuthorizedTags id t ∧
    ∀ (i : Nat) e, t.entries[i]? = some e → e.covenantId = some id →
      ∃ w, succeeds ⟨c, t, i⟩ terms.script w = true ∧ terms.capped w

/-- At most one unspent output carries the id, and it is on the thread's script. -/
structure ThreadOn (c : Crypto) (terms : GlobalCovenant) (id : FixedBytes 32) (L : Ledger) :
    Prop where
  unique : UniqueTag L id
  onScript : ∀ o e, Tagged L id o e → e.spk = threadSpk c terms

/-- A transaction keeps all but `cap` of the tagged amount in the thread, or
closes a thread that holds no more than `cap`. -/
def WithdrawsAtMost (cap : UInt64) (id : FixedBytes 32) (L L' : Ledger) : Prop :=
  ∀ o e, Tagged L id o e →
    (∃ o' e', Tagged L' id o' e' ∧ e.amount.toNat ≤ e'.amount.toNat + cap.toNat) ∨
    ((∀ o' e', ¬ Tagged L' id o' e') ∧ e.amount ≤ cap)

variable {c : Crypto} {terms : GlobalCovenant} {id : FixedBytes 32} {L L' : Ledger}

/-- What one transaction of a run does to a thread: nothing, a single
continuation on the same script, or a close. -/
theorem threadStep_cases (hu : UniqueTag L id) (h : ThreadStep c terms id L L') :
    (∀ o e, Tagged L' id o e ↔ Tagged L id o e) ∨
    ∃ o e, Tagged L id o e ∧
      ((∃ o' e', (∀ o'' e'', Tagged L' id o'' e'' ↔ o'' = o' ∧ e'' = e') ∧ e'.spk = e.spk ∧
          e.amount.toNat ≤ e'.amount.toNat + terms.maxWithdrawSompi.toNat) ∨
        ((∀ o' e', ¬ Tagged L' id o' e') ∧ e.amount ≤ terms.maxWithdrawSompi)) := by
  obtain ⟨txId, t, happ, hauth, hcap⟩ := h
  rcases thread_step happ hauth hu with hsame | ⟨i, o, e, he, ht, hnew⟩
  · exact Or.inl hsame
  · refine Or.inr ⟨o, e, ht, ?_⟩
    obtain ⟨w, hw, hc⟩ := hcap i e he ht.2
    have hid := covenantIdBytes_of_tagged ht.2
    rcases capped_enforced he hw hc with ⟨k, out, htag, hout, -, hspk, -, hle⟩ | ⟨htag, hle⟩
    · rw [hid] at htag
      exact Or.inl ⟨⟨txId, UInt32.ofNat k⟩, out.entry, tagged_single hnew happ htag hout, hspk, hle⟩
    · rw [hid] at htag
      refine Or.inr ⟨fun o' e' hc => ?_, hle⟩
      obtain ⟨-, out, -, -, hmem⟩ := (hnew o' e').mp hc
      simp [htag] at hmem

/-- One transaction keeps the invariant. -/
theorem threadStep_on (hL : ThreadOn c terms id L) (h : ThreadStep c terms id L L') :
    ThreadOn c terms id L' := by
  rcases threadStep_cases hL.unique h with hsame | ⟨o, e, ht, h⟩
  · refine ⟨fun o o' e e' h h' => ?_, fun o e h => hL.onScript o e ((hsame o e).mp h)⟩
    exact hL.unique o o' e e' ((hsame o e).mp h) ((hsame o' e').mp h')
  · rcases h with ⟨o', e', hnew, hspk, -⟩ | ⟨hnone, -⟩
    · refine ⟨fun p p' f f' h h' => ?_, fun p f h => ?_⟩
      · rw [((hnew p f).mp h).1, ((hnew p' f').mp h').1]
      · rw [((hnew p f).mp h).2, hspk]
        exact hL.onScript o e ht
    · exact ⟨fun o _ e _ h => absurd h (hnone o e), fun o e h => absurd h (hnone o e)⟩

theorem threadStep_bounds (hL : ThreadOn c terms id L) (h : ThreadStep c terms id L L') :
    WithdrawsAtMost terms.maxWithdrawSompi id L L' := by
  intro o e ht
  rcases threadStep_cases hL.unique h with hsame | ⟨o₁, e₁, ht₁, h⟩
  · exact Or.inl ⟨o, e, (hsame o e).mpr ht, Nat.le_add_right _ _⟩
  · obtain rfl := hL.unique _ _ _ _ ht ht₁
    obtain rfl : e = e₁ := Option.some.inj (ht.1.symm.trans ht₁.1)
    rcases h with ⟨o', e', hnew, -, hle⟩ | hclose
    · exact Or.inl ⟨o', e', (hnew o' e').mpr ⟨rfl, rfl⟩, hle⟩
    · exact Or.inr hclose

end ThreadCap
open ThreadCap

/-- In every run of capped spends from a thread on its script: at most one
unspent output carries the id, it is on that script, and each transaction takes
at most the cap out of it or closes it at no more than the cap. -/
theorem global_thread_capped (c : Crypto) (terms : GlobalCovenant) (id : FixedBytes 32)
    {L₀ L : Ledger} (hstart : ThreadOn c terms id L₀)
    (hrun : Relation.ReflTransGen (ThreadStep c terms id) L₀ L) :
    ThreadOn c terms id L ∧
      ∀ L', ThreadStep c terms id L L' → WithdrawsAtMost terms.maxWithdrawSompi id L L' := by
  have hL : ThreadOn c terms id L := by
    induction hrun with
    | refl => exact hstart
    | tail _ hstep ih => exact threadStep_on ih hstep
  exact ⟨hL, fun L' => threadStep_bounds hL⟩

namespace ThreadCap

def sampleThread : GlobalCovenant := .spendingLimit (filled 1 32) 100 5 (filled 7 8)

def sampleEntry (amount : UInt64) : UtxoEntry :=
  ⟨amount, 0, p2shScript (sampleCrypto.blake2b sampleThread.script), some (filled 8 32)⟩

/-- One tagged output of 1000. -/
def sampleLedger : Ledger := fun o =>
  if o = ⟨filled 2 32, 0⟩ then some (sampleEntry 1000) else none

/-- Withdraws 100 and leaves 900 in the thread, on its second output. -/
def sampleWithdrawal : PopulatedTransaction where
  tx := {
    txVersion := 1
    inputs := [⟨filled 2 32, 0, [], 5, 1⟩]
    outputs := [⟨100, 0, [], none⟩,
      ⟨900, 0, p2shScript (sampleCrypto.blake2b sampleThread.script), some (0, filled 8 32)⟩]
    locktime := 0
    subnetworkId := filled 0 20
    gas := 0
    payload := [] }
  entries := [sampleEntry 1000]
  entries_length := rfl

theorem sampleThread_on : ThreadOn sampleCrypto sampleThread (filled 8 32) sampleLedger := by
  have hone : ∀ o e, Tagged sampleLedger (filled 8 32) o e →
      o = ⟨filled 2 32, 0⟩ ∧ e = sampleEntry 1000 := by
    rintro o e ⟨h, -⟩
    unfold sampleLedger at h
    split at h
    · rename_i ho
      exact ⟨ho, (Option.some.inj h).symm⟩
    · cases h
  refine ⟨fun o o' e e' h h' => (hone o e h).1.trans (hone o' e' h').1.symm, fun o e h => ?_⟩
  rw [(hone o e h).2]
  rfl

theorem sampleThread_step : ThreadStep sampleCrypto sampleThread (filled 8 32) sampleLedger
    (applyTx (filled 3 32) sampleWithdrawal sampleLedger) := by
  refine ⟨filled 3 32, sampleWithdrawal, ⟨fun index => ?_, ?_, ?_, ?_, rfl⟩, ?_, ?_⟩
  · have : (⟨filled 3 32, index⟩ : Outpoint) ≠ ⟨filled 2 32, 0⟩ := by
      intro h
      exact absurd (congrArg Outpoint.txId h) (show filled 3 32 ≠ filled 2 32 by decide)
    simp [sampleLedger, this]
  · intro i input h
    match i with
    | 0 =>
      obtain rfl : _ = input := Option.some.inj h
      decide
    | i + 1 => simp [sampleWithdrawal] at h
  · decide
  · decide
  · intro out hout auth hc
    refine ⟨sampleEntry 1000, ?_, rfl⟩
    simp only [sampleWithdrawal, List.mem_cons, List.not_mem_nil, or_false] at hout
    rcases hout with rfl | rfl
    · cases hc
    · cases hc
      rfl
  · intro i e he _
    match i with
    | 0 => exact ⟨[List.replicate 64 1], by decide, trivial⟩
    | i + 1 => simp [sampleWithdrawal] at he

end ThreadCap

theorem global_thread_capped_sample :
    ThreadOn sampleCrypto sampleThread (filled 8 32) sampleLedger ∧
    ThreadOn sampleCrypto sampleThread (filled 8 32)
      (applyTx (filled 3 32) sampleWithdrawal sampleLedger) ∧
    WithdrawsAtMost 100 (filled 8 32) sampleLedger
      (applyTx (filled 3 32) sampleWithdrawal sampleLedger) :=
  ⟨sampleThread_on,
    (global_thread_capped sampleCrypto sampleThread (filled 8 32) sampleThread_on
      (.single sampleThread_step)).1,
    (global_thread_capped sampleCrypto sampleThread (filled 8 32) sampleThread_on .refl).2 _
      sampleThread_step⟩

end KaspaPortal.Guarantees

/-!
## Untagged deposits on the spending-limit script

An untagged input reads as the zero hash, so the thread fragment counts no
tagged output for it. Zero is not refused: it is the count the close arm asks
for, and that arm only compares the amount with the cap.
-/
namespace KaspaPortal.Guarantees
open Lib Primitives Transaction Contract.Script Engine Contract.Covenant

namespace UntaggedDeposit

/-- No output is tagged with the zero hash. -/
def NoZeroTag (tx : ConsensusTransaction) : Prop :=
  ∀ out ∈ tx.outputs, ∀ auth id, out.covenant = some (auth, id) → id.val ≠ zeroHash

theorem taggedOutputs_zeroHash {tx : ConsensusTransaction} (h : NoZeroTag tx) :
    taggedOutputs tx zeroHash = [] := by
  rw [List.eq_nil_iff_forall_not_mem]
  intro k hk
  have hk' : k ∈ taggedOutputs tx (filled 0 32).val := hk
  obtain ⟨out, hout, htag⟩ := mem_taggedOutputs.mp hk'
  obtain ⟨⟨auth, tag⟩, hc, htag⟩ := Option.map_eq_some_iff.mp htag
  exact h out (List.mem_of_getElem? hout) auth tag hc (congrArg Subtype.val htag)

/-- The untagged spend the script lets through: one signature of the owner, the
cooldown met, and an amount within the cap, all within signed 64-bit range. -/
def WithinCap (env : Env) (w : Stack) (e : UtxoEntry) (ownerPubkey : FixedBytes 32)
    (maxWithdrawSompi cooldownDaa : UInt64) : Prop :=
  (∃ sig, w = [sig] ∧ env.crypto.checkSig env.tx env.index sig ownerPubkey.val = true) ∧
  (cooldownDaa.toNat < 2 ^ 63 ∧ sequenceMet env cooldownDaa.toNat) ∧
  env.index < 2 ^ 63 ∧ e.amount ≤ maxWithdrawSompi ∧ maxWithdrawSompi.toNat < 2 ^ 63

end UntaggedDeposit
open UntaggedDeposit

/-- An untagged input is refused exactly when it is not an owner-signed,
matured deposit within the cap. -/
theorem untagged_deposit_refused_iff (ownerPubkey : FixedBytes 32)
    (maxWithdrawSompi cooldownDaa : UInt64) (salt : FixedBytes 8) (env : Env) (w : Stack)
    (e : UtxoEntry) (he : env.tx.entries[env.index]? = some e) (hu : e.covenantId = none)
    (hz : NoZeroTag env.tx.tx) :
    succeeds env
        (buildGlobalSpendingLimitScript ownerPubkey maxWithdrawSompi cooldownDaa salt) w = false ↔
      ¬ WithinCap env w e ownerPubkey maxWithdrawSompi cooldownDaa := by
  have hid : covenantIdBytes e = zeroHash := by simp [covenantIdBytes, hu]
  have htag := taggedOutputs_zeroHash hz
  rw [← Bool.not_eq_true, spendingLimit_accepts_iff he, not_iff_not]
  constructor
  · rintro ⟨hsig, hseq, ⟨hi, -, hm⟩, hcont | hclose⟩
    · obtain ⟨k, out, hk, -⟩ := hcont
      rw [hid, htag] at hk
      cases hk
    · exact ⟨hsig, hseq, hi, hclose.2, hm⟩
  · rintro ⟨hsig, hseq, hi, hle, hm⟩
    have ha : e.amount.toNat < 2 ^ 63 :=
      Nat.lt_of_le_of_lt (UInt64.le_iff_toNat_le.mp hle) hm
    exact ⟨hsig, hseq, ⟨hi, ha, hm⟩, Or.inr ⟨by rw [hid, htag], hle⟩⟩

namespace UntaggedDeposit

def sampleScript : Bytes := buildGlobalSpendingLimitScript (filled 1 32) 100 5 (filled 7 8)

/-- Three untagged deposits of 90 each, swept in one transaction. -/
def sampleSweep : PopulatedTransaction where
  tx := {
    txVersion := 0
    inputs := [⟨filled 2 32, 0, [], 5, 1⟩, ⟨filled 2 32, 1, [], 5, 1⟩, ⟨filled 2 32, 2, [], 5, 1⟩]
    outputs := [⟨270, 0, [], none⟩]
    locktime := 0
    subnetworkId := filled 0 20
    gas := 0
    payload := [] }
  entries := List.replicate 3 ⟨90, 0, p2shScript (sampleCrypto.blake2b sampleScript), none⟩
  entries_length := rfl

def sampleDeposit : UtxoEntry := ⟨90, 0, p2shScript (sampleCrypto.blake2b sampleScript), none⟩

theorem noZeroTag_sample : NoZeroTag sampleSweep.tx := by
  intro out hout auth id hc
  simp only [sampleSweep, List.mem_singleton] at hout
  subst hout
  cases hc

end UntaggedDeposit

theorem untagged_deposit_refused_iff_sample :
    sampleSweep.entries[0]? = some sampleDeposit ∧ sampleDeposit.covenantId = none ∧
    NoZeroTag sampleSweep.tx ∧
    (succeeds ⟨sampleCrypto, sampleSweep, 0⟩ sampleScript [] = false ↔
      ¬ WithinCap ⟨sampleCrypto, sampleSweep, 0⟩ [] sampleDeposit (filled 1 32) 100 5) :=
  ⟨rfl, rfl, noZeroTag_sample,
    untagged_deposit_refused_iff (filled 1 32) 100 5 (filled 7 8) ⟨sampleCrypto, sampleSweep, 0⟩ []
      sampleDeposit rfl rfl noZeroTag_sample⟩

/-- All three untagged deposits are accepted: 270 leave a script whose cap is 100. -/
theorem untagged_deposits_swept :
    (∀ e ∈ sampleSweep.entries, e.covenantId = none) ∧ NoZeroTag sampleSweep.tx ∧
    ∀ i < 3, succeeds ⟨sampleCrypto, sampleSweep, i⟩ sampleScript [List.replicate 64 1] = true :=
  ⟨by decide, noZeroTag_sample, by decide⟩

end KaspaPortal.Guarantees
