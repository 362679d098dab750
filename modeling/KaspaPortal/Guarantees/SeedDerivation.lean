import KaspaPortal.Wallet.Mnemonic.Seed

/-!
# A seed derived in any number of steps

However the rounds are split, the resumable derivation hands out the seed once, when they add up to
2048. Its phrase buffer suffices for every mnemonic, its salt buffer only for a passphrase of up to
248 bytes.

HMAC-SHA512 and the words are parameters; the time a round takes and the wiping of buffers are not
modelled.
-/
set_option maxRecDepth 100000

namespace KaspaPortal.Wallet.Mnemonic
open Lib

variable {wordlist : Wordlist} {hmac : Hmac} {indices : List UInt16} {passphrase : Bytes}

def wordAt (wordlist : Wordlist) (index : UInt16) : Bytes :=
  (wordlist.words[index.toNat]?).getD []

/-- The words with a space between any two. -/
def phrase (wordlist : Wordlist) (indices : List UInt16) : Bytes :=
  [0x20].intercalate (indices.map (wordAt wordlist))

def salt (passphrase : Bytes) : Bytes := ascii "mnemonic" ++ passphrase

/-! ## Buffers -/

theorem wordAt_spec {index : UInt16} (h : index.toNat < 2048) :
    wordlist.words[index.toNat]? = some (wordAt wordlist index) ∧
      (wordAt wordlist index).length ≤ 8 := by
  have hlt : index.toNat < wordlist.words.length := by
    rw [wordlist.length_eq]
    exact h
  have hword : wordlist.words[index.toNat]? = some (wordAt wordlist index) := by
    rw [wordAt, List.getElem?_eq_getElem hlt, Option.getD_some]
  exact ⟨hword, wordlist.word_length_le _ (List.mem_of_getElem? hword)⟩

/-- The words after the first, each behind its space. -/
def laterWords (wordlist : Wordlist) (indices : List UInt16) : Bytes :=
  indices.flatMap fun index => 0x20 :: wordAt wordlist index

theorem phrase_cons (index : UInt16) (rest : List UInt16) :
    phrase wordlist (index :: rest) = wordAt wordlist index ++ laterWords wordlist rest := by
  induction rest generalizing index with
  | nil =>
    rw [phrase, List.map_singleton, List.intercalate_singleton]
    exact (List.append_nil _).symm
  | cons next rest ih =>
    have htail : phrase wordlist (index :: next :: rest) =
        wordAt wordlist index ++ [0x20] ++ phrase wordlist (next :: rest) :=
      List.intercalate_cons_cons
    rw [htail, ih next, List.append_assoc]
    rfl

theorem laterWords_length {rest : List UInt16} (h : ∀ index ∈ rest, index.toNat < 2048) :
    (laterWords wordlist rest).length ≤ 9 * rest.length := by
  induction rest with
  | nil => exact Nat.le_refl _
  | cons index rest ih =>
    have hword := (@wordAt_spec wordlist _ (h index List.mem_cons_self)).2
    have hrest := ih fun other hmem => h other (List.mem_cons_of_mem index hmem)
    rw [laterWords, List.flatMap_cons, List.length_append, List.length_cons, List.length_cons]
    rw [laterWords] at hrest
    omega

/-- The loop appends the words that are left, each behind a space. -/
theorem serializeWords_spec {rest : List UInt16} {content buf : Bytes} {wordIndex : Nat}
    (hbound : ∀ index ∈ rest, index.toNat < 2048) (hlater : 0 < wordIndex)
    (hpre : content <+: buf)
    (hroom : (content ++ laterWords wordlist rest).length ≤ buf.length) :
    ∃ written, serializeWords wordlist wordIndex rest (buf, content.length) =
        some (written, (content ++ laterWords wordlist rest).length) ∧
      content ++ laterWords wordlist rest <+: written := by
  induction rest generalizing content buf wordIndex with
  | nil =>
    rw [show laterWords wordlist [] = [] from rfl, List.append_nil]
    exact ⟨buf, rfl, hpre⟩
  | cons index rest ih =>
    have hword := (@wordAt_spec wordlist _ (hbound index List.mem_cons_self)).1
    have hsplit : content ++ laterWords wordlist (index :: rest) =
        content ++ [0x20] ++ wordAt wordlist index ++ laterWords wordlist rest := by
      rw [List.append_assoc, List.append_assoc]
      rfl
    rw [hsplit] at hroom ⊢
    rw [List.length_append] at hroom
    have hspace : (content ++ [0x20]).length ≤ buf.length := by
      rw [List.length_append] at hroom
      omega
    obtain ⟨spaced, hwrite, hspaced, hlen⟩ := copyAt_append hpre hspace
    obtain ⟨worded, hwrite', hworded, hlen'⟩ :=
      @copyAt_append _ spaced _ (wordAt wordlist index) hspaced (by omega)
    obtain ⟨written, hrest, hwritten⟩ := @ih _ worded (wordIndex + 1)
      (fun other hmem => hbound other (List.mem_cons_of_mem index hmem)) (Nat.succ_pos _) hworded
      (by rw [List.length_append]; omega)
    refine ⟨written, ?_, hwritten⟩
    rw [serializeWords, if_pos hlater, hwrite]
    have hpos : content.length + 1 = (content ++ [0x20]).length := by simp
    simp only [Option.map_some, Option.bind_eq_bind, Option.bind_some, hword, hpos, hwrite']
    rw [← List.length_append, hrest]

theorem serializeMnemonic_spec (hlen : indices.length = 12 ∨ indices.length = 24)
    (hbound : ∀ index ∈ indices, index.toNat < 2048) :
    ∃ buf, serializeMnemonic wordlist indices (zeroBuffer 256) =
        some (buf, (phrase wordlist indices).length) ∧ phrase wordlist indices <+: buf := by
  cases indices with
  | nil => simp at hlen
  | cons index rest =>
    obtain ⟨hword, hfirst⟩ := @wordAt_spec wordlist _ (hbound index List.mem_cons_self)
    have hbound : ∀ other ∈ rest, other.toNat < 2048 :=
      fun other hmem => hbound other (List.mem_cons_of_mem index hmem)
    have hrest := @laterWords_length wordlist _ hbound
    have hzero : (zeroBuffer 256).length = 256 := List.length_replicate
    rw [List.length_cons] at hlen
    obtain ⟨worded, hwrite, hworded, hlen'⟩ :=
      @copyAt_append _ (zeroBuffer 256) [] (wordAt wordlist index) List.nil_prefix
        (by rw [List.nil_append, hzero]; omega)
    rw [List.nil_append] at hworded
    obtain ⟨buf, hserialize, hpre⟩ := @serializeWords_spec wordlist rest _ worded 1 hbound
      Nat.one_pos hworded (by rw [List.length_append, hlen', hzero]; omega)
    rw [phrase_cons]
    refine ⟨buf, ?_, hpre⟩
    rw [serializeMnemonic, serializeWords, if_neg (Nat.lt_irrefl 0)]
    rw [List.length_nil] at hwrite
    simp only [Option.bind_eq_bind, Option.bind_some, hword, hwrite, Nat.zero_add]
    exact hserialize

theorem buildSalt_spec (h : passphrase.length ≤ 248) :
    ∃ buf, buildSalt passphrase (zeroBuffer 256) = some (buf, (salt passphrase).length) ∧
      salt passphrase <+: buf ∧ (salt passphrase).length ≤ 256 := by
  have hzero : (zeroBuffer 256).length = 256 := List.length_replicate
  have hmnemonic : (ascii "mnemonic").length = 8 := by decide
  obtain ⟨buf, hwrite, hpre, hlen⟩ :=
    @copyAt_append _ (zeroBuffer 256) [] (ascii "mnemonic") List.nil_prefix
      (by rw [List.nil_append, hzero]; decide)
  obtain ⟨buf', hwrite', hpre', hlen'⟩ := @copyAt_append _ buf _ passphrase hpre
    (by rw [List.nil_append, List.length_append, hlen, hzero, hmnemonic]; omega)
  rw [List.nil_append] at hwrite' hpre'
  refine ⟨buf', ?_, hpre', ?_⟩
  · rw [List.length_nil] at hwrite
    rw [hmnemonic] at hwrite'
    rw [buildSalt, hwrite, salt, List.length_append, hmnemonic]
    simp only [Option.bind_eq_bind, Option.bind_some, hwrite']
    rfl
  · rw [salt, List.length_append, hmnemonic]
    omega

/-- A longer passphrase runs past the end of the buffer. -/
theorem buildSalt_eq_none (h : ¬ passphrase.length ≤ 248) :
    buildSalt passphrase (zeroBuffer 256) = none := by
  have hzero : (zeroBuffer 256).length = 256 := List.length_replicate
  have hmnemonic : (ascii "mnemonic").length = 8 := by decide
  obtain ⟨buf, hwrite, _, hlen⟩ :=
    @copyAt_append _ (zeroBuffer 256) [] (ascii "mnemonic") List.nil_prefix
      (by rw [List.nil_append, hzero]; decide)
  have hshort : copyAt buf 8 passphrase = none := by
    rw [← Option.not_isSome_iff_eq_none, copyAt_isSome, hlen, hzero]
    omega
  rw [List.length_nil] at hwrite
  rw [buildSalt, hwrite]
  simp only [Option.bind_eq_bind, Option.bind_some, hshort, Option.bind_none]

theorem firstHash_spec {password : Bytes} (h : (salt passphrase).length ≤ 256) :
    firstHash hmac password (salt passphrase) =
      some (pbkdf2Hash hmac password (salt passphrase) 0) := by
  have hzero : (zeroBuffer 260).length = 260 := List.length_replicate
  obtain ⟨buf, hwrite, hpre, hlen⟩ :=
    @copyAt_append _ (zeroBuffer 260) [] (salt passphrase) List.nil_prefix
      (by rw [List.nil_append, hzero]; omega)
  obtain ⟨buf', hwrite', hpre', hlen'⟩ := @copyAt_append _ buf _ [0, 0, 0, 1] hpre
    (by rw [List.nil_append, List.length_append, hlen, hzero]; exact Nat.add_le_add_right h 4)
  rw [List.nil_append] at hwrite' hpre'
  rw [List.length_nil] at hwrite
  have hmessage := upTo_of_prefix hpre'
  rw [List.length_append] at hmessage
  rw [firstHash, hwrite]
  simp only [Option.bind_eq_bind, Option.bind_some, hwrite']
  rw [show (salt passphrase).length + 4 = (salt passphrase).length + [0, 0, 0, (1 : UInt8)].length from rfl,
    hmessage]
  rfl

/-! ## Rounds -/

/-- The seed of a phrase and a passphrase. -/
def seed (wordlist : Wordlist) (hmac : Hmac) (indices : List UInt16) (passphrase : Bytes) :
    FixedBytes 64 :=
  pbkdf2 hmac (phrase wordlist indices) (salt passphrase) 2048

theorem pbkdf2HmacSha512_spec {password : Bytes} (h : (salt passphrase).length ≤ 256)
    (iterations : Nat) :
    pbkdf2HmacSha512 hmac password (salt passphrase) iterations =
      some (pbkdf2 hmac password (salt passphrase) iterations) := by
  have hresume := pbkdf2Round_iterate hmac password (salt passphrase) 0 (iterations - 1)
  have hrun := List.foldl_const (pbkdf2Round hmac password)
    (pbkdf2Hash hmac password (salt passphrase) 0, pbkdf2Key hmac password (salt passphrase) 0)
    (List.range (iterations - 1))
  rw [List.length_range, hresume, Nat.zero_add] at hrun
  rw [pbkdf2HmacSha512, firstHash_spec h]
  exact congrArg (fun run => some run.2) hrun

theorem seedFromIndices_spec (hlen : indices.length = 12 ∨ indices.length = 24)
    (hbound : ∀ index ∈ indices, index.toNat < 2048) (hshort : passphrase.length ≤ 248) :
    seedFromIndices wordlist hmac indices passphrase =
      some (seed wordlist hmac indices passphrase) := by
  obtain ⟨phraseBuf, hphrase, hphrasePre⟩ := @serializeMnemonic_spec wordlist _ hlen hbound
  obtain ⟨saltBuf, hsalt, hsaltPre, hle⟩ := buildSalt_spec hshort
  rw [seedFromIndices, hphrase, hsalt]
  simp only [Option.bind_eq_bind, Option.bind_some, upTo_of_prefix hphrasePre,
    upTo_of_prefix hsaltPre, pbkdf2HmacSha512_spec hle]
  rfl

namespace SeedDerivation

/-- A derivation that keeps the phrase and stands at a point of the chain. -/
structure Running (password : Bytes) (derivation : SeedDerivation) (rounds : Nat)
    (run : FixedBytes 64 × FixedBytes 64) : Prop where
  unfinished : derivation.finished = false
  phraseBuf : password <+: derivation.phraseBuf
  phraseLen : derivation.phraseLen = password.length
  roundsComplete : derivation.roundsComplete = rounds
  run : (derivation.uPrev, derivation.result) = run

theorem nextRound_spec {password : Bytes} {derivation : SeedDerivation} {rounds : Nat}
    {run : FixedBytes 64 × FixedBytes 64} (h : Running password derivation rounds run)
    (hlt : rounds < 2048) :
    ∃ next, nextRound hmac derivation rounds = some next ∧
      Running password next (rounds + 1) (pbkdf2Round hmac password run) := by
  have hpassword : upTo derivation.phraseBuf derivation.phraseLen = some password := by
    rw [h.phraseLen]
    exact upTo_of_prefix h.phraseBuf
  let hash := hmac password derivation.uPrev.val
  refine ⟨{ derivation with
    result := xorBytes derivation.result hash
    uPrev := hash
    roundsComplete := saturatingAdd16 rounds 1 }, ?_, ?_⟩
  · rw [nextRound, hpassword]
    rfl
  · rw [← h.run]
    exact ⟨h.unfinished, h.phraseBuf, h.phraseLen, Nat.min_eq_left (by omega), rfl⟩

theorem nextRounds_spec {password : Bytes} {derivation : SeedDerivation} {rounds more : Nat}
    {run : FixedBytes 64 × FixedBytes 64} (h : Running password derivation rounds run)
    (hle : rounds + more ≤ 2048) :
    ∃ next, (List.range' rounds more).foldlM (nextRound hmac) derivation = some next ∧
      Running password next (rounds + more) ((pbkdf2Round hmac password)^[more] run) := by
  induction more generalizing derivation rounds run with
  | zero => exact ⟨derivation, rfl, h⟩
  | succ more ih =>
    obtain ⟨middle, hmiddle, hrunning⟩ := @nextRound_spec hmac _ _ _ _ h (by omega)
    obtain ⟨next, hnext, hrest⟩ := ih hrunning (by omega)
    refine ⟨next, ?_, ?_⟩
    · rw [List.range'_succ, List.foldlM_cons, hmiddle]
      exact hnext
    · rw [Function.iterate_succ_apply, Nat.add_comm more 1, ← Nat.add_assoc]
      exact hrest

/-- The point of the chain after `rounds + 1` rounds. -/
def chainAt (wordlist : Wordlist) (hmac : Hmac) (indices : List UInt16) (passphrase : Bytes)
    (rounds : Nat) : FixedBytes 64 × FixedBytes 64 :=
  (pbkdf2Hash hmac (phrase wordlist indices) (salt passphrase) rounds,
    pbkdf2Key hmac (phrase wordlist indices) (salt passphrase) rounds)

/-- A derivation whose budgets add up to `total`: it is done, or it is that far along the chain.
Before its first round it still has the salt. -/
def Reached (wordlist : Wordlist) (hmac : Hmac) (indices : List UInt16) (passphrase : Bytes)
    (derivation : SeedDerivation) (total : Nat) : Prop :=
  if 2048 ≤ total then derivation.finished = true
  else ∃ run, Running (phrase wordlist indices) derivation total run ∧
    if total = 0 then
      salt passphrase <+: derivation.saltBuf ∧ derivation.saltLen = (salt passphrase).length
    else run = chainAt wordlist hmac indices passphrase (total - 1)

theorem firstRound_spec {derivation : SeedDerivation} {run : FixedBytes 64 × FixedBytes 64}
    (h : Running (phrase wordlist indices) derivation 0 run)
    (hpre : salt passphrase <+: derivation.saltBuf)
    (hlen : derivation.saltLen = (salt passphrase).length) (hle : (salt passphrase).length ≤ 256) :
    ∃ next, firstRound hmac derivation = some next ∧
      Running (phrase wordlist indices) next 1 (chainAt wordlist hmac indices passphrase 0) := by
  have hpassword : upTo derivation.phraseBuf derivation.phraseLen = some (phrase wordlist indices) := by
    rw [h.phraseLen]
    exact upTo_of_prefix h.phraseBuf
  let first := pbkdf2Hash hmac (phrase wordlist indices) (salt passphrase) 0
  refine ⟨{ derivation with
    uPrev := first
    result := first
    roundsComplete := 1
    saltBuf := zeroBuffer 256
    saltLen := 0 }, ?_, ⟨h.unfinished, h.phraseBuf, h.phraseLen, rfl, rfl⟩⟩
  rw [firstRound, hlen, upTo_of_prefix hpre, hpassword]
  simp only [Option.bind_eq_bind, Option.bind_some, firstHash_spec hle]
  rfl

/-- The rounds of one call, from wherever the derivation stands. -/
theorem rounds_spec {derivation : SeedDerivation} {total target : Nat}
    (h : Reached wordlist hmac indices passphrase derivation total)
    (hle : (salt passphrase).length ≤ 256) (hlt : total < 2048) (hfrom : total ≤ target)
    (hpos : 0 < target) (hto : target ≤ 2048) :
    ∃ started, derivation.begin hmac target = some started ∧
      ∃ next, (List.range' started.roundsComplete (target - started.roundsComplete)).foldlM
          (nextRound hmac) started = some next ∧
        Running (phrase wordlist indices) next target
          (chainAt wordlist hmac indices passphrase (target - 1)) := by
  rw [Reached, if_neg (Nat.not_le.mpr hlt)] at h
  obtain ⟨run, hrunning, hrun⟩ := h
  rw [SeedDerivation.begin, hrunning.roundsComplete]
  by_cases hzero : total = 0
  · rw [if_pos hzero] at hrun
    rw [hzero] at hrunning
    obtain ⟨started, hfirst, hstarted⟩ := @firstRound_spec wordlist hmac indices passphrase _ _
      hrunning hrun.1 hrun.2 hle
    obtain ⟨next, hnext, hreached⟩ := @nextRounds_spec hmac _ _ 1 (target - 1) _ hstarted (by omega)
    refine ⟨started, ?_, next, ?_, ?_⟩
    · rw [if_pos ⟨hzero, hpos⟩]
      exact hfirst
    · rw [hstarted.roundsComplete]
      exact hnext
    · rw [chainAt, pbkdf2Round_iterate, Nat.zero_add, Nat.add_sub_cancel' hpos] at hreached
      exact hreached
  · rw [if_neg hzero] at hrun
    obtain ⟨next, hnext, hreached⟩ := @nextRounds_spec hmac _ _ total (target - total) _ hrunning
      (by omega)
    refine ⟨derivation, if_neg fun hboth => hzero hboth.1, next, ?_, ?_⟩
    · rw [hrunning.roundsComplete]
      exact hnext
    · rw [hrun, chainAt, pbkdf2Round_iterate, Nat.add_sub_cancel' hfrom,
        show total - 1 + (target - total) = target - 1 by omega] at hreached
      exact hreached

/-- A call runs its rounds, and ends the derivation when they are complete. -/
theorem advance_of_rounds {derivation started next : SeedDerivation} {budget : UInt16} {target : Nat}
    (hunfinished : derivation.finished = false)
    (htarget : min (saturatingAdd16 derivation.roundsComplete budget.toNat) BIP39_PBKDF2_ROUNDS =
      target)
    (hstart : derivation.begin hmac target = some started)
    (hrounds : (List.range' started.roundsComplete (target - started.roundsComplete)).foldlM
      (nextRound hmac) started = some next) :
    derivation.advance hmac budget =
      if next.roundsComplete ≠ BIP39_PBKDF2_ROUNDS then some (next, none)
      else some ({ next.wipe with finished := true }, some next.result) := by
  rw [advance, if_neg (by rw [hunfinished]; exact Bool.false_ne_true), htarget]
  simp only [Option.bind_eq_bind, hstart, Option.bind_some, hrounds]
  split
  · rfl
  · rfl

/-- One call hands out the seed when its budget takes the total to 2048, and nothing else. -/
theorem advance_spec {derivation : SeedDerivation} {total : Nat} (budget : UInt16)
    (h : Reached wordlist hmac indices passphrase derivation total)
    (hle : (salt passphrase).length ≤ 256) :
    ∃ next, derivation.advance hmac budget = some (next,
        if total < 2048 ∧ 2048 ≤ total + budget.toNat then
          some (seed wordlist hmac indices passphrase)
        else none) ∧
      Reached wordlist hmac indices passphrase next (total + budget.toNat) := by
  by_cases hdone : 2048 ≤ total
  · rw [Reached, if_pos hdone] at h
    refine ⟨derivation, ?_, ?_⟩
    · rw [advance, if_pos h, if_neg fun hboth => Nat.not_lt.mpr hdone hboth.1]
    · rw [Reached, if_pos (Nat.le_trans hdone (Nat.le_add_right _ _))]
      exact h
  · have hlt := Nat.not_le.mp hdone
    have hreached := h
    rw [Reached, if_neg hdone] at h
    obtain ⟨run, hrunning, hrun⟩ := h
    have htarget : min (saturatingAdd16 derivation.roundsComplete budget.toNat)
        BIP39_PBKDF2_ROUNDS = min (total + budget.toNat) 2048 := by
      rw [hrunning.roundsComplete, saturatingAdd16, BIP39_PBKDF2_ROUNDS]
      omega
    by_cases hidle : total + budget.toNat = 0
    · -- Nothing has been asked for yet.
      have htotal : total = 0 := by omega
      refine ⟨derivation, ?_, ?_⟩
      · have hcomplete : derivation.roundsComplete ≠ BIP39_PBKDF2_ROUNDS := by
          rw [hrunning.roundsComplete, htotal]
          decide
        have hbegin : derivation.begin hmac 0 = some derivation := if_neg fun hboth => by omega
        rw [hidle, Nat.zero_min] at htarget
        rw [advance_of_rounds hrunning.unfinished htarget hbegin (by rw [Nat.zero_sub]; rfl),
          if_pos hcomplete, if_neg (by omega)]
      · rw [hidle, ← htotal]
        exact hreached
    · obtain ⟨started, hstart, next, hrounds, hnext⟩ := rounds_spec hreached hle hlt
        (show total ≤ min (total + budget.toNat) 2048 by omega) (by omega) (by omega)
      rw [advance_of_rounds hrunning.unfinished htarget hstart hrounds, hnext.roundsComplete]
      by_cases hlast : 2048 ≤ total + budget.toNat
      · have hmin : min (total + budget.toNat) 2048 = 2048 := by omega
        rw [hmin] at hnext ⊢
        refine ⟨{ next.wipe with finished := true }, ?_, ?_⟩
        · rw [if_neg (by decide), if_pos ⟨hlt, hlast⟩]
          exact congrArg (fun run => some ({ next.wipe with finished := true }, some run.2)) hnext.run
        · rw [Reached, if_pos hlast]
      · have hmin : min (total + budget.toNat) 2048 = total + budget.toNat := by omega
        rw [hmin] at hnext ⊢
        refine ⟨next, ?_, ?_⟩
        · rw [if_pos (by rw [BIP39_PBKDF2_ROUNDS]; omega), if_neg fun hboth => hlast hboth.2]
        · rw [Reached, if_neg hlast]
          exact ⟨_, hnext, by rw [if_neg hidle]⟩

/-- The rounds asked for by the first so many calls. -/
def asked (budgets : List UInt16) (count : Nat) : Nat :=
  ((budgets.take count).map UInt16.toNat).sum

theorem advanceAll_spec {derivation : SeedDerivation} {total : Nat} {budgets : List UInt16}
    (h : Reached wordlist hmac indices passphrase derivation total)
    (hle : (salt passphrase).length ≤ 256) :
    ∃ returned, advanceAll hmac derivation budgets = some returned ∧
      returned.length = budgets.length ∧
      ∀ i < budgets.length, returned[i]? = some
        (if total + asked budgets i < 2048 ∧ 2048 ≤ total + asked budgets (i + 1) then
          some (seed wordlist hmac indices passphrase)
        else none) := by
  induction budgets generalizing derivation total with
  | nil => exact ⟨[], rfl, rfl, fun i hi => absurd hi (Nat.not_lt_zero i)⟩
  | cons budget rest ih =>
    obtain ⟨next, hadvance, hnext⟩ := advance_spec budget h hle
    obtain ⟨returned, hrest, hlen, hall⟩ := ih hnext
    refine ⟨(if total < 2048 ∧ 2048 ≤ total + budget.toNat then
      some (seed wordlist hmac indices passphrase) else none) :: returned, ?_, ?_, ?_⟩
    · rw [advanceAll, hadvance]
      simp only [Option.bind_eq_bind, Option.bind_some, hrest]
      rfl
    · rw [List.length_cons, List.length_cons, hlen]
    · intro i hi
      cases i with
      | zero => simp [asked]
      | succ i =>
        have hi : i < rest.length := Nat.lt_of_succ_lt_succ hi
        rw [List.getElem?_cons_succ, hall i hi]
        simp only [asked, List.take_succ_cons, List.map_cons, List.sum_cons, Nat.add_assoc]

/-- A derivation starts before the chain. -/
theorem new_spec (hlen : indices.length = 12 ∨ indices.length = 24)
    (hbound : ∀ index ∈ indices, index.toNat < 2048) (hshort : passphrase.length ≤ 248) :
    ∃ derivation, new wordlist indices passphrase = some derivation ∧
      Reached wordlist hmac indices passphrase derivation 0 := by
  obtain ⟨phraseBuf, hphrase, hphrasePre⟩ := @serializeMnemonic_spec wordlist _ hlen hbound
  obtain ⟨saltBuf, hsalt, hsaltPre, _⟩ := buildSalt_spec hshort
  refine ⟨⟨phraseBuf, (phrase wordlist indices).length, saltBuf, (salt passphrase).length, zero64,
    zero64, 0, false⟩, ?_, ?_⟩
  · rw [new, hphrase, hsalt]
    rfl
  · rw [Reached, if_neg (by decide)]
    exact ⟨(zero64, zero64), ⟨rfl, hphrasePre, rfl, rfl, rfl⟩, by rw [if_pos rfl]; exact ⟨hsaltPre, rfl⟩⟩

end SeedDerivation

/-- Both derivations stay within their buffers and agree: the resumable one hands out the seed in
the call whose budget takes the rounds asked for to 2048, and nothing in any other. -/
structure Derives (wordlist : Wordlist) (hmac : Hmac) (indices : List UInt16) (passphrase : Bytes) :
    Prop where
  at_once : seedFromIndices wordlist hmac indices passphrase =
    some (seed wordlist hmac indices passphrase)
  in_steps : ∀ budgets : List UInt16, ∃ derivation returned,
    SeedDerivation.new wordlist indices passphrase = some derivation ∧
      derivation.advanceAll hmac budgets = some returned ∧ returned.length = budgets.length ∧
      ∀ i < budgets.length, returned[i]? = some
        (if SeedDerivation.asked budgets i < 2048 ∧ 2048 ≤ SeedDerivation.asked budgets (i + 1) then
          some (seed wordlist hmac indices passphrase)
        else none)

end KaspaPortal.Wallet.Mnemonic

namespace KaspaPortal.Guarantees
open Lib Wallet.Mnemonic

/-- The salt buffer has room for a passphrase of 248 bytes. -/
theorem seed_derivation (wordlist : Wordlist) (hmac : Hmac) {indices : List UInt16}
    (hlen : indices.length = 12 ∨ indices.length = 24)
    (hbound : ∀ index ∈ indices, index.toNat < 2048) (passphrase : Bytes) :
    Derives wordlist hmac indices passphrase ↔ passphrase.length ≤ 248 := by
  constructor
  · intro h
    by_contra hlong
    obtain ⟨derivation, _, hnew, _⟩ := h.in_steps []
    obtain ⟨phraseBuf, hphrase, _⟩ := @serializeMnemonic_spec wordlist _ hlen hbound
    rw [SeedDerivation.new, hphrase, buildSalt_eq_none hlong] at hnew
    cases hnew
  · intro hshort
    refine ⟨seedFromIndices_spec hlen hbound hshort, fun budgets => ?_⟩
    obtain ⟨derivation, hnew, hreached⟩ := @SeedDerivation.new_spec wordlist hmac _ _ hlen hbound hshort
    obtain ⟨saltBuf, _, _, hle⟩ := buildSalt_spec hshort
    obtain ⟨returned, hall, hcount, hreturned⟩ :=
      @SeedDerivation.advanceAll_spec wordlist hmac indices passphrase _ _ budgets hreached hle
    refine ⟨derivation, returned, hnew, hall, hcount, fun i hi => ?_⟩
    rw [hreturned i hi, Nat.zero_add, Nat.zero_add]

namespace SeedDerivation

/-- A list of words of one letter. -/
def words : Wordlist where
  words := List.replicate 2048 [0x61]
  length_eq := List.length_replicate
  word_length_le := by
    intro word hmem
    rw [List.eq_of_mem_replicate hmem]
    decide

end SeedDerivation

/-- The first four English words, and a letter for each of the others. -/
def SeedDerivation.englishWords : Wordlist where
  words := [ascii "abandon", ascii "ability", ascii "able", ascii "about"] ++ List.replicate 2044 [0x7a]
  length_eq := by rw [List.length_append, List.length_replicate]; rfl
  word_length_le := by
    intro word hmem
    obtain hmem | hmem := List.mem_append.mp hmem
    · simp only [List.mem_cons, List.not_mem_nil, or_false] at hmem
      obtain rfl | rfl | rfl | rfl := hmem
      · decide
      · decide
      · decide
      · decide
    · rw [List.eq_of_mem_replicate hmem]
      decide

/-- A stand-in for HMAC that depends on the key and on the message. -/
def SeedDerivation.sumHmac : Hmac := fun key message =>
  ⟨List.replicate 62 0 ++ [key.foldl (· + ·) 0, message.foldl (· + ·) 0], by simp⟩

/-- The phrase of eleven times `abandon` and `about`, with a passphrase. -/
theorem seed_derivation_about :
    Derives SeedDerivation.englishWords SeedDerivation.sumHmac (List.replicate 11 0 ++ [3]) (ascii "TREZOR") := by
  have hlength : (List.replicate 11 (0 : UInt16) ++ [3]).length = 12 := rfl
  have hbound : ∀ index : UInt16, index ∈ List.replicate 11 0 ++ [3] → index.toNat < 2048 := by
    intro index hmem
    obtain hfirst | hlast := List.mem_append.mp hmem
    · rw [List.eq_of_mem_replicate hfirst]
      decide
    · rw [List.mem_singleton.mp hlast]
      decide
  exact (seed_derivation SeedDerivation.englishWords SeedDerivation.sumHmac (.inl hlength) hbound
    (ascii "TREZOR")).mpr (by decide)

/-- A passphrase of 249 bytes stops both derivations. -/
theorem seed_derivation_overrun :
    let passphrase : Bytes := List.replicate 249 0x61
    let hmac : Hmac := fun _ _ => SeedDerivation.zero64
    SeedDerivation.new SeedDerivation.words (List.replicate 12 0) passphrase = none ∧
      seedFromIndices SeedDerivation.words hmac (List.replicate 12 0) passphrase = none ∧
      ¬ Derives SeedDerivation.words hmac (List.replicate 12 0) passphrase := by
  intro passphrase hmac
  have hnew : SeedDerivation.new SeedDerivation.words (List.replicate 12 0) passphrase = none := by
    decide
  refine ⟨hnew, by decide, fun h => ?_⟩
  obtain ⟨derivation, _, hsome, _⟩ := h.in_steps []
  rw [hnew] at hsome
  cases hsome

end KaspaPortal.Guarantees
