import KaspaPortal.Contract.Covenant.Locks

/-!
# Time- and goal-locked covenants accept their policy and nothing else

Each covenant lists its paths; `Permits` is what a path asks of the transaction
and of the material in the witness. Soundness reads an accepted witness back as
one of the paths. Completeness puts the material of a permitted path in the
order its script pops it.

Fees and the value of outputs only enter where a script compares them.
-/
set_option maxRecDepth 100000

namespace KaspaPortal.Guarantees
open Lib Primitives Transaction Contract.Script Engine Contract.Covenant

namespace LockedCovenants

/-- The five locked covenants with the terms they are built from. -/
inductive Covenant where
  | piggyBank (owner : FixedBytes 32) (goal deadline : UInt64) (salt : FixedBytes 8)
  | timelockedSavings (wallet1 wallet2 : FixedBytes 32) (locktime : UInt64)
  | deadMansSwitch (owner heir : FixedBytes 32) (inactivity : UInt64)
  | commitReveal (owner commitment : FixedBytes 32) (locktime : UInt64)
  | privateSwap (owner claimer : FixedBytes 32) (destination : Bytes) (timeout : UInt64)
      (salt : FixedBytes 16)

/-- The script of each by its builder; only the swap's can fail. -/
def Covenant.script : Covenant → Except String Bytes
  | .piggyBank owner goal deadline salt => .ok (buildPiggyBankScript owner goal deadline salt)
  | .timelockedSavings wallet1 wallet2 locktime =>
    .ok (buildTimelockedSavingsScript wallet1 wallet2 locktime)
  | .deadMansSwitch owner heir inactivity => .ok (buildDmsCsvScript owner heir inactivity)
  | .commitReveal owner commitment locktime => .ok (buildCommitRevealScript owner commitment locktime)
  | .privateSwap owner claimer destination timeout salt =>
    buildPrivateSwapScript owner claimer destination timeout salt

/-- The ways in which the five can be spent. -/
inductive Path where
  | ownerAnytime | goalReached | deadlineReached | deposit
  | wallet1 | wallet2 | heir | expired | reveal | refund | claim
  deriving DecidableEq, Repr

/-- Some item of the witness is the key's signature. -/
def Signed (env : Env) (w : Stack) (key : FixedBytes 32) : Prop :=
  ∃ sig ∈ w, env.crypto.checkSig env.tx env.index sig key.val = true

/-- Output 0 holds at least the goal. -/
def GoalMet (env : Env) (goal : UInt64) : Prop :=
  ∃ out, env.tx.tx.outputs[0]? = some out ∧ goal ≤ out.value

/-- The output at the input's own index pays the same script at least the input amount. -/
def Deposits (env : Env) : Prop :=
  ∃ entry, env.tx.entries[env.index]? = some entry ∧
    ∃ out, env.tx.tx.outputs[env.index]? = some out ∧ out.spk = entry.spk ∧ entry.amount ≤ out.value

/-- One input, one output to the destination, and a fee at most the cap. -/
def ClaimsTo (env : Env) (destination : Bytes) : Prop :=
  env.tx.tx.inputs.length = 1 ∧ ∃ out, env.tx.tx.outputs = [out] ∧
    out.spk = spkBytes 0 destination ∧ ∃ entry, env.tx.entries[0]? = some entry ∧
      out.value ≤ entry.amount ∧
        entry.amount.toNat - out.value.toNat ≤ PRIVATE_SWAP_MAX_FEE_SOMPI.toNat

/-- The paths of each covenant and what they ask. -/
inductive Permits (env : Env) (w : Stack) : Covenant → Path → Prop
  | piggyAnytime {owner salt} (h : Signed env w owner) :
      Permits env w (.piggyBank owner 0 0 salt) .ownerAnytime
  | piggyGoal {owner goal deadline salt} (hset : goal > 0) (h : Signed env w owner)
      (hmet : GoalMet env goal) : Permits env w (.piggyBank owner goal deadline salt) .goalReached
  | piggyDeadline {owner goal deadline salt} (hset : deadline > 0) (h : Signed env w owner)
      (hmet : lockTimeMet env deadline.toNat) :
      Permits env w (.piggyBank owner goal deadline salt) .deadlineReached
  | piggyDeposit {owner goal deadline salt} (h : Deposits env) :
      Permits env w (.piggyBank owner goal deadline salt) .deposit
  | wallet1 {wallet1 wallet2 locktime} (h : Signed env w wallet1)
      (hmet : lockTimeMet env locktime.toNat) :
      Permits env w (.timelockedSavings wallet1 wallet2 locktime) .wallet1
  | wallet2 {wallet1 wallet2 locktime} (h : Signed env w wallet2)
      (hmet : lockTimeMet env locktime.toNat) :
      Permits env w (.timelockedSavings wallet1 wallet2 locktime) .wallet2
  | aliveOwner {owner heir inactivity} (h : Signed env w owner) :
      Permits env w (.deadMansSwitch owner heir inactivity) .ownerAnytime
  | heir {owner heir inactivity} (h : Signed env w heir)
      (hmet : sequenceMet env inactivity.toNat) :
      Permits env w (.deadMansSwitch owner heir inactivity) .heir
  | expired {owner commitment locktime} (h : Signed env w owner)
      (hmet : lockTimeMet env locktime.toNat) :
      Permits env w (.commitReveal owner commitment locktime) .expired
  | reveal {owner commitment locktime} (h : Signed env w owner)
      (hmet : ∃ partA ∈ w, ∃ partB ∈ w, env.crypto.blake2b (partA ++ partB) = commitment) :
      Permits env w (.commitReveal owner commitment locktime) .reveal
  | refund {owner claimer destination timeout salt} (h : Signed env w owner)
      (hmet : lockTimeMet env timeout.toNat) :
      Permits env w (.privateSwap owner claimer destination timeout salt) .refund
  | claim {owner claimer destination timeout salt} (h : Signed env w claimer)
      (hmet : ClaimsTo env destination) :
      Permits env w (.privateSwap owner claimer destination timeout salt) .claim

/-- The witness of a path, top item first. -/
def Path.witness (signature partA partB : Bytes) : Path → Stack
  | .ownerAnytime | .wallet1 | .expired | .claim => [[1], signature]
  | .wallet2 | .heir | .refund => [[], signature]
  | .goalReached => [[1], signature, [1]]
  | .deadlineReached => [[1], signature, []]
  | .deposit => [[]]
  | .reveal => [[], signature, partB, partA]

/-- The amounts and times a covenant is built with. -/
def Covenant.limits : Covenant → List UInt64
  | .piggyBank _ goal deadline _ => [goal, deadline]
  | .timelockedSavings _ _ locktime => [locktime]
  | .deadMansSwitch _ _ inactivity => [inactivity]
  | .commitReveal _ _ locktime => [locktime]
  | .privateSwap _ _ _ timeout _ => [timeout]

/-- Amounts and times below 2^63; the number of inputs is a vector's length and
always is. -/
structure InRange (env : Env) (covenant : Covenant) : Prop where
  limits : ∀ v ∈ covenant.limits, v.toNat < 2 ^ 63
  entries : ∀ entry ∈ env.tx.entries, entry.amount.toNat < 2 ^ 63
  outputs : ∀ out ∈ env.tx.tx.outputs, out.value.toNat < 2 ^ 63
  inputs : env.tx.tx.inputs.length < 2 ^ 63

/-! ## Each covenant, script to paths -/

section covenants
variable {env : Env} {w : Stack}

/-- The selector decides between breaking the bank and paying into it. -/
theorem piggyBank_accepts_iff {owner : FixedBytes 32} {goal deadline : UInt64}
    {salt : FixedBytes 8} :
    succeeds env (buildPiggyBankScript owner goal deadline salt) w = true ↔
      ∃ x s, w = x :: s ∧
        (asBool x = true ∧ Accepts env (breakProgram owner goal deadline) s ∨
          asBool x = false ∧ Accepts env depositProgram s) := by
  rw [succeeds_iff (tokenize_piggyBankScript owner goal deadline salt)]
  exact accepts_salted.trans accepts_ifElse

/-- The bank is broken by its owner, and where a goal or a deadline is set also by one of these. -/
theorem break_sound {owner : FixedBytes 32} {goal deadline : UInt64} {salt : FixedBytes 8}
    {x : Bytes} {s : Stack} (h : Accepts env (breakProgram owner goal deadline) s) :
    ∃ path, Permits env (x :: s) (.piggyBank owner goal deadline salt) path := by
  unfold breakProgram at h
  split at h
  · obtain ⟨sig, s', rfl, hsig, h⟩ := accepts_checkSigVerify.mp h
    obtain ⟨y, s'', rfl, hsel⟩ := accepts_ifElse.mp h
    have hs : Signed env (x :: sig :: y :: s'') owner := ⟨sig, by simp, hsig⟩
    cases hsel with
    | inl h =>
      by_cases hset : goal > 0
      · obtain ⟨-, -, out, ho, -, hle⟩ := (accepts_goal hset).mp h.2
        exact ⟨_, .piggyGoal hset hs ⟨out, ho, hle⟩⟩
      · rw [goalProgram, if_neg hset] at h
        exact absurd h.2 accepts_false
    | inr h =>
      by_cases hset : deadline > 0
      · obtain ⟨-, -, hmet⟩ := (accepts_deadline hset).mp h.2
        exact ⟨_, .piggyDeadline hset hs hmet⟩
      · rw [deadlineProgram, if_neg hset] at h
        exact absurd h.2 accepts_false
  · rename_i hunset
    obtain ⟨sig, rfl, hsig⟩ := accepts_checkSig.mp h
    have hg : goal = 0 := by
      have : ¬ (0 < goal) := fun hc => hunset (Or.inl hc)
      grind
    have hd : deadline = 0 := by
      have : ¬ (0 < deadline) := fun hc => hunset (Or.inr hc)
      grind
    rw [hg, hd]
    exact ⟨_, .piggyAnytime ⟨sig, by simp, hsig⟩⟩

/-- A deposit pays the bank at least what it held. -/
theorem deposit_sound {s : Stack} (h : Accepts env depositProgram s) : Deposits env := by
  obtain ⟨-, -, entry, he, out, ho, hspk, -, -, hle⟩ := accepts_deposit.mp h
  exact ⟨entry, he, out, ho, hspk.symm, hle⟩

/-- Whatever the bank accepts is one of its paths. -/
theorem piggyBank_sound {owner : FixedBytes 32} {goal deadline : UInt64} {salt : FixedBytes 8}
    (h : succeeds env (buildPiggyBankScript owner goal deadline salt) w = true) :
    ∃ path, Permits env w (.piggyBank owner goal deadline salt) path := by
  obtain ⟨x, s, rfl, hsel⟩ := piggyBank_accepts_iff.mp h
  cases hsel with
  | inl h => exact break_sound h.2
  | inr h => exact ⟨_, .piggyDeposit (deposit_sound h.2)⟩

/-- The three remaining covenants are one conditional. -/
theorem ifElse_accepts_iff {script : Bytes} {p q : List (Stmt Instr)}
    (h : tokenize script = some (flattenAll [.ifElse p q])) :
    succeeds env script w = true ↔ ∃ x s, w = x :: s ∧
      (asBool x = true ∧ Accepts env p s ∨ asBool x = false ∧ Accepts env q s) := by
  rw [succeeds_iff h]
  exact accepts_ifElse

/-- The holder of a key signed and the lock time is reached. -/
theorem signedAfter_sound {key : FixedBytes 32} {lock : UInt64} {x : Bytes} {s : Stack}
    (h : Accepts env (signedAfter key lock) s) :
    Signed env (x :: s) key ∧ lockTimeMet env lock.toNat := by
  obtain ⟨sig, rfl, hsig, -, hmet⟩ := accepts_signedAfter.mp h
  exact ⟨⟨sig, by simp, hsig⟩, hmet⟩

/-- The holder of a key signed. -/
theorem checkSig_sound {key : FixedBytes 32} {x : Bytes} {s : Stack}
    (h : Accepts env [data key.val, op .checkSig] s) : Signed env (x :: s) key := by
  obtain ⟨sig, rfl, hsig⟩ := accepts_checkSig.mp h
  exact ⟨sig, by simp, hsig⟩

/-- Whatever the savings accept is one of the two wallets after the lock. -/
theorem timelockedSavings_sound {wallet1 wallet2 : FixedBytes 32} {locktime : UInt64}
    (h : succeeds env (buildTimelockedSavingsScript wallet1 wallet2 locktime) w = true) :
    ∃ path, Permits env w (.timelockedSavings wallet1 wallet2 locktime) path := by
  obtain ⟨x, s, rfl, hsel⟩ := (ifElse_accepts_iff (tokenize_timelockedSavingsScript ..)).mp h
  cases hsel with
  | inl h =>
    obtain ⟨hs, hmet⟩ := signedAfter_sound h.2
    exact ⟨_, .wallet1 hs hmet⟩
  | inr h =>
    obtain ⟨hs, hmet⟩ := signedAfter_sound h.2
    exact ⟨_, .wallet2 hs hmet⟩

/-- Whatever the switch accepts is the owner, or the heir of a coin that has rested. -/
theorem deadMansSwitch_sound {owner heir : FixedBytes 32} {inactivity : UInt64}
    (h : succeeds env (buildDmsCsvScript owner heir inactivity) w = true) :
    ∃ path, Permits env w (.deadMansSwitch owner heir inactivity) path := by
  obtain ⟨x, s, rfl, hsel⟩ := (ifElse_accepts_iff (tokenize_dmsCsvScript ..)).mp h
  cases hsel with
  | inl h => exact ⟨_, .aliveOwner (checkSig_sound h.2)⟩
  | inr h =>
    obtain ⟨⟨sig, rfl, hsig⟩, -, hmet⟩ := accepts_heir.mp h.2
    exact ⟨_, .heir ⟨sig, by simp, hsig⟩ hmet⟩

/-- Whatever the commitment accepts is its expiry or its preimage in two parts. -/
theorem commitReveal_sound {owner commitment : FixedBytes 32} {locktime : UInt64}
    (h : succeeds env (buildCommitRevealScript owner commitment locktime) w = true) :
    ∃ path, Permits env w (.commitReveal owner commitment locktime) path := by
  obtain ⟨x, s, rfl, hsel⟩ := (ifElse_accepts_iff (tokenize_commitRevealScript ..)).mp h
  cases hsel with
  | inl h =>
    obtain ⟨hs, hmet⟩ := signedAfter_sound h.2
    exact ⟨_, .expired hs hmet⟩
  | inr h =>
    obtain ⟨sig, partB, partA, rfl, hsig, hhash⟩ := accepts_reveal.mp h.2
    exact ⟨_, .reveal ⟨sig, by simp, hsig⟩ ⟨partA, by simp, partB, by simp, hhash⟩⟩

/-- The selector decides between the claim and the refund. -/
theorem privateSwap_accepts_iff {owner claimer : FixedBytes 32} {destination script : Bytes}
    {timeout : UInt64} {salt : FixedBytes 16}
    (hbuild : buildPrivateSwapScript owner claimer destination timeout salt = .ok script) :
    succeeds env script w = true ↔ ∃ x s, w = x :: s ∧
      (asBool x = true ∧ Accepts env (claimProgram claimer destination) s ∨
        asBool x = false ∧ Accepts env (signedAfter owner timeout) s) := by
  rw [succeeds_iff (tokenize_privateSwapScript hbuild)]
  exact accepts_salted.trans accepts_ifElse

/-- Whatever the swap accepts is the refund, or a claim that pays the destination. -/
theorem privateSwap_sound {owner claimer : FixedBytes 32} {destination script : Bytes}
    {timeout : UInt64} {salt : FixedBytes 16}
    (hbuild : buildPrivateSwapScript owner claimer destination timeout salt = .ok script)
    (h : succeeds env script w = true) :
    ∃ path, Permits env w (.privateSwap owner claimer destination timeout salt) path := by
  obtain ⟨x, s, rfl, hsel⟩ := (privateSwap_accepts_iff hbuild).mp h
  cases hsel with
  | inl h =>
    obtain ⟨sig, rfl, hsig, hin, out, ho, hspk, entry, he, -, -, hfee⟩ := accepts_claim.mp h.2
    exact ⟨_, .claim ⟨sig, by simp, hsig⟩ ⟨hin, out, ho, hspk, entry, he, hfee⟩⟩
  | inr h =>
    obtain ⟨hs, hmet⟩ := signedAfter_sound h.2
    exact ⟨_, .refund hs hmet⟩

end covenants

/-! ## Every path has its witness -/

section complete
variable {env : Env} {covenant : Covenant}

theorem InRange.value {out : ConsensusOutput} {k : Nat} (hr : InRange env covenant)
    (h : env.tx.tx.outputs[k]? = some out) : out.value.toNat < 2 ^ 63 :=
  hr.outputs out (List.mem_of_getElem? h)

theorem InRange.amount {entry : UtxoEntry} {k : Nat} (hr : InRange env covenant)
    (h : env.tx.entries[k]? = some entry) : entry.amount.toNat < 2 ^ 63 :=
  hr.entries entry (List.mem_of_getElem? h)

/-- The position of an input is below the number of inputs. -/
theorem InRange.index {entry : UtxoEntry} (hr : InRange env covenant)
    (h : env.tx.entries[env.index]? = some entry) : env.index < 2 ^ 63 := by
  have hlt := (List.getElem?_eq_some_iff.mp h).1
  rw [env.tx.entries_length] at hlt
  exact Nat.lt_trans hlt hr.inputs

/-- A signature is enough once the lock time is reached. -/
theorem signedAfter_complete {key : FixedBytes 32} {lock : UInt64} {sig : Bytes}
    (hsig : env.crypto.checkSig env.tx env.index sig key.val = true) (hl : lock.toNat < 2 ^ 63)
    (hmet : lockTimeMet env lock.toNat) : Accepts env (signedAfter key lock) [sig] :=
  accepts_signedAfter.mpr ⟨sig, rfl, hsig, hl, hmet⟩

/-- The owner breaks the bank with a goal or a deadline that is met. -/
theorem break_complete {owner : FixedBytes 32} {goal deadline : UInt64} {sig x : Bytes}
    (hsig : env.crypto.checkSig env.tx env.index sig owner.val = true)
    (hset : goal > 0 ∨ deadline > 0)
    (h : asBool x = true ∧ Accepts env (goalProgram goal) [] ∨
      asBool x = false ∧ Accepts env (deadlineProgram deadline) []) :
    Accepts env (breakProgram owner goal deadline) [sig, x] := by
  rw [breakProgram, if_pos hset]
  apply accepts_checkSigVerify.mpr
  exact ⟨sig, [x], rfl, hsig, accepts_ifElse.mpr ⟨x, [], rfl, h⟩⟩

/-- A goal that is met is accepted without a witness. -/
theorem goal_complete {goal : UInt64} (hr : InRange env covenant) (hl : goal.toNat < 2 ^ 63)
    (hset : goal > 0) (h : GoalMet env goal) : Accepts env (goalProgram goal) [] := by
  obtain ⟨out, ho, hle⟩ := h
  exact (accepts_goal hset).mpr ⟨rfl, hl, out, ho, hr.value ho, hle⟩

/-- A deposit is accepted without a witness. -/
theorem deposit_complete (hr : InRange env covenant) (h : Deposits env) :
    Accepts env depositProgram [] := by
  obtain ⟨entry, he, out, ho, hspk, hle⟩ := h
  exact accepts_deposit.mpr
    ⟨rfl, hr.index he, entry, he, out, ho, hspk.symm, hr.value ho, hr.amount he, hle⟩

theorem claim_complete {claimer : FixedBytes 32} {destination sig : Bytes}
    (hr : InRange env covenant) (hsig : env.crypto.checkSig env.tx env.index sig claimer.val = true)
    (h : ClaimsTo env destination) : Accepts env (claimProgram claimer destination) [sig] := by
  obtain ⟨hin, out, ho, hspk, entry, he, hfee⟩ := h
  have ho0 : env.tx.tx.outputs[0]? = some out := by rw [ho]; rfl
  exact accepts_claim.mpr
    ⟨sig, rfl, hsig, hin, out, ho, hspk, entry, he, hr.value ho0, hr.amount he, hfee⟩

/-- The items a permitted witness holds, in the order the script pops them, are
a witness of the same path. -/
theorem Permits.complete {w : Stack} {path : Path} {script : Bytes}
    (hbuild : covenant.script = .ok script) (hr : InRange env covenant)
    (h : Permits env w covenant path) :
    ∃ signature partA partB, succeeds env script (path.witness signature partA partB) = true ∧
      Permits env (path.witness signature partA partB) covenant path := by
  have hlim := hr.limits
  -- one case a path; the witness lists its items in the order in which the script takes them
  cases h with
  | piggyAnytime h =>
    obtain ⟨sig, -, hsig⟩ := h
    obtain rfl := Except.ok.inj hbuild
    refine ⟨sig, [], [], piggyBank_accepts_iff.mpr ⟨[1], [sig], rfl, Or.inl ⟨rfl, ?_⟩⟩,
      .piggyAnytime ⟨sig, by simp [Path.witness], hsig⟩⟩
    rw [breakProgram, if_neg (by decide)]
    exact accepts_checkSig.mpr ⟨sig, rfl, hsig⟩
  | piggyGoal hset h hmet =>
    obtain ⟨sig, -, hsig⟩ := h
    obtain rfl := Except.ok.inj hbuild
    have hgoal := goal_complete hr (hlim _ (by simp [Covenant.limits])) hset hmet
    exact ⟨sig, [], [], piggyBank_accepts_iff.mpr ⟨[1], [sig, [1]], rfl, Or.inl ⟨rfl,
      break_complete hsig (Or.inl hset) (Or.inl ⟨rfl, hgoal⟩)⟩⟩,
      .piggyGoal hset ⟨sig, by simp [Path.witness], hsig⟩ hmet⟩
  | piggyDeadline hset h hmet =>
    obtain ⟨sig, -, hsig⟩ := h
    obtain rfl := Except.ok.inj hbuild
    have hdead := (accepts_deadline hset).mpr ⟨rfl, hlim _ (by simp [Covenant.limits]), hmet⟩
    exact ⟨sig, [], [], piggyBank_accepts_iff.mpr ⟨[1], [sig, []], rfl, Or.inl ⟨rfl,
      break_complete hsig (Or.inr hset) (Or.inr ⟨rfl, hdead⟩)⟩⟩,
      .piggyDeadline hset ⟨sig, by simp [Path.witness], hsig⟩ hmet⟩
  | piggyDeposit h =>
    obtain rfl := Except.ok.inj hbuild
    exact ⟨[], [], [], piggyBank_accepts_iff.mpr ⟨[], [], rfl, Or.inr ⟨rfl,
      deposit_complete hr h⟩⟩, .piggyDeposit h⟩
  | wallet1 h hmet =>
    obtain ⟨sig, -, hsig⟩ := h
    obtain rfl := Except.ok.inj hbuild
    have hp := signedAfter_complete hsig (hlim _ (by simp [Covenant.limits])) hmet
    exact ⟨sig, [], [], (ifElse_accepts_iff (tokenize_timelockedSavingsScript ..)).mpr
      ⟨[1], [sig], rfl, Or.inl ⟨rfl, hp⟩⟩, .wallet1 ⟨sig, by simp [Path.witness], hsig⟩ hmet⟩
  | wallet2 h hmet =>
    obtain ⟨sig, -, hsig⟩ := h
    obtain rfl := Except.ok.inj hbuild
    have hp := signedAfter_complete hsig (hlim _ (by simp [Covenant.limits])) hmet
    exact ⟨sig, [], [], (ifElse_accepts_iff (tokenize_timelockedSavingsScript ..)).mpr
      ⟨[], [sig], rfl, Or.inr ⟨rfl, hp⟩⟩, .wallet2 ⟨sig, by simp [Path.witness], hsig⟩ hmet⟩
  | aliveOwner h =>
    obtain ⟨sig, -, hsig⟩ := h
    obtain rfl := Except.ok.inj hbuild
    have hp := accepts_checkSig.mpr ⟨sig, rfl, hsig⟩
    exact ⟨sig, [], [], (ifElse_accepts_iff (tokenize_dmsCsvScript ..)).mpr
      ⟨[1], [sig], rfl, Or.inl ⟨rfl, hp⟩⟩, .aliveOwner ⟨sig, by simp [Path.witness], hsig⟩⟩
  | heir h hmet =>
    obtain ⟨sig, -, hsig⟩ := h
    obtain rfl := Except.ok.inj hbuild
    have hp := accepts_heir.mpr ⟨⟨sig, rfl, hsig⟩, hlim _ (by simp [Covenant.limits]), hmet⟩
    exact ⟨sig, [], [], (ifElse_accepts_iff (tokenize_dmsCsvScript ..)).mpr
      ⟨[], [sig], rfl, Or.inr ⟨rfl, hp⟩⟩, .heir ⟨sig, by simp [Path.witness], hsig⟩ hmet⟩
  | expired h hmet =>
    obtain ⟨sig, -, hsig⟩ := h
    obtain rfl := Except.ok.inj hbuild
    have hp := signedAfter_complete hsig (hlim _ (by simp [Covenant.limits])) hmet
    exact ⟨sig, [], [], (ifElse_accepts_iff (tokenize_commitRevealScript ..)).mpr
      ⟨[1], [sig], rfl, Or.inl ⟨rfl, hp⟩⟩, .expired ⟨sig, by simp [Path.witness], hsig⟩ hmet⟩
  | reveal h hmet =>
    obtain ⟨sig, -, hsig⟩ := h
    obtain ⟨partA, -, partB, -, hhash⟩ := hmet
    obtain rfl := Except.ok.inj hbuild
    have hp := accepts_reveal.mpr ⟨sig, partB, partA, rfl, hsig, hhash⟩
    exact ⟨sig, partA, partB, (ifElse_accepts_iff (tokenize_commitRevealScript ..)).mpr
      ⟨[], [sig, partB, partA], rfl, Or.inr ⟨rfl, hp⟩⟩,
      .reveal ⟨sig, by simp [Path.witness], hsig⟩
        ⟨partA, by simp [Path.witness], partB, by simp [Path.witness], hhash⟩⟩
  | refund h hmet =>
    obtain ⟨sig, -, hsig⟩ := h
    have hp := signedAfter_complete hsig (hlim _ (by simp [Covenant.limits])) hmet
    exact ⟨sig, [], [], (privateSwap_accepts_iff hbuild).mpr ⟨[], [sig], rfl, Or.inr ⟨rfl, hp⟩⟩,
      .refund ⟨sig, by simp [Path.witness], hsig⟩ hmet⟩
  | claim h hmet =>
    obtain ⟨sig, -, hsig⟩ := h
    have hp := claim_complete hr hsig hmet
    exact ⟨sig, [], [], (privateSwap_accepts_iff hbuild).mpr ⟨[1], [sig], rfl, Or.inl ⟨rfl, hp⟩⟩,
      .claim ⟨sig, by simp [Path.witness], hsig⟩ hmet⟩

end complete

end LockedCovenants
open LockedCovenants

/-- A spend succeeds only under its policy, and within range every path whose
policy is met has a witness that succeeds. -/
theorem locked_covenants_spend_by_policy {covenant : Covenant} {script : Bytes}
    (hbuild : covenant.script = .ok script) (env : Env) :
    (∀ w, succeeds env script w = true → ∃ path, Permits env w covenant path) ∧
    (InRange env covenant → ∀ path w, Permits env w covenant path →
      ∃ signature partA partB, succeeds env script (path.witness signature partA partB) = true ∧
        Permits env (path.witness signature partA partB) covenant path) := by
  constructor
  · intro w hacc
    cases covenant with
    | piggyBank =>
      obtain rfl := Except.ok.inj hbuild
      exact piggyBank_sound hacc
    | timelockedSavings =>
      obtain rfl := Except.ok.inj hbuild
      exact timelockedSavings_sound hacc
    | deadMansSwitch =>
      obtain rfl := Except.ok.inj hbuild
      exact deadMansSwitch_sound hacc
    | commitReveal =>
      obtain rfl := Except.ok.inj hbuild
      exact commitReveal_sound hacc
    | privateSwap => exact privateSwap_sound hbuild hacc
  · intro hr path w h
    exact h.complete hbuild hr

namespace LockedCovenants

def sampleSwap : Covenant :=
  .privateSwap (filled 1 32) (filled 2 32) (pushPubkey (filled 3 32) ++ [OP_CHECKSIG]) 5000
    (filled 4 16)

def sampleScript : Bytes := sampleSwap.script.toOption.getD []

/-- A claim of 1000 that pays the destination 900. -/
def sampleClaim : Env :=
  soleSpend sampleCrypto sampleScript 1000
    [⟨900, 0, pushPubkey (filled 3 32) ++ [OP_CHECKSIG], none⟩]

end LockedCovenants

theorem locked_covenants_spend_by_policy_swap :
    sampleSwap.script = .ok sampleScript ∧ InRange sampleClaim sampleSwap ∧
    (∃ path, Permits sampleClaim (Path.witness ((filled 2 32).val ++ (filled 2 32).val) [] [] .claim)
      sampleSwap path) ∧
    ∃ signature partA partB,
      succeeds sampleClaim sampleScript (Path.witness signature partA partB .claim) = true := by
  have hbuild : sampleSwap.script = .ok sampleScript := rfl
  have hr : InRange sampleClaim sampleSwap :=
    ⟨by simp [Covenant.limits, sampleSwap], by decide, by decide, by decide⟩
  have hacc : succeeds sampleClaim sampleScript
      (Path.witness ((filled 2 32).val ++ (filled 2 32).val) [] [] .claim) = true := by decide
  have hthm := locked_covenants_spend_by_policy hbuild sampleClaim
  have hpermits : Permits sampleClaim
      (Path.witness ((filled 2 32).val ++ (filled 2 32).val) [] [] .claim) sampleSwap .claim :=
    .claim ⟨(filled 2 32).val ++ (filled 2 32).val, by simp [Path.witness], rfl⟩
      ⟨rfl, _, rfl, rfl, _, rfl, by decide, by decide⟩
  obtain ⟨signature, partA, partB, hs, -⟩ := hthm.2 hr .claim _ hpermits
  exact ⟨hbuild, hr, hthm.1 _ hacc, signature, partA, partB, hs⟩

end KaspaPortal.Guarantees
