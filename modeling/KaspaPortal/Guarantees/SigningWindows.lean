import KaspaPortal.Guarantees.CalendarTime

/-!
# Weekly windows

The windows of a text are sorted before neighbours are compared. Of two valid windows in the order
of the sort the first one ends before the second one begins, unless they overlap, and this relation
is transitive; so the comparison of neighbours is one of all pairs.

The clock is an argument: a policy compares it with its floor and trusts it otherwise.
-/
namespace KaspaPortal.Transaction.Policy
open Lib

namespace SigningWindow

structure Valid (window : SigningWindow) : Prop where
  weekday : window.weekday.toNat ≤ 6
  nonempty : window.startMinute.toNat < window.endMinute.toNat
  ends : window.endMinute.toNat ≤ 1440

theorem validate_eq_ok {window : SigningWindow} {u : Unit} : window.validate = .ok u ↔ window.Valid := by
  rw [validate, rejectIf_eq_ok, UInt8.lt_iff_toNat_lt, UInt16.le_iff_toNat_le, MINUTES_PER_DAY]
  have hsix : (6 : UInt8).toNat = 6 := rfl
  rw [hsix]
  exact ⟨fun h => ⟨by omega, by omega, by omega⟩,
    fun h hbad => by have := h.weekday; have := h.nonempty; have := h.ends; omega⟩

theorem contains_iff {window : SigningWindow} {weekday : UInt8} {minute : UInt16} :
    window.contains weekday minute = true ↔ window.weekday.toNat = weekday.toNat ∧
      window.startMinute.toNat ≤ minute.toNat ∧ minute.toNat < window.endMinute.toNat := by
  rw [contains, decide_eq_true_iff, UInt16.le_iff_toNat_le, UInt16.lt_iff_toNat_lt, UInt8.toNat_inj]

/-- One window ends before the other begins. -/
def Precedes (a b : SigningWindow) : Prop :=
  a.weekday.toNat < b.weekday.toNat ∨
    (a.weekday.toNat = b.weekday.toNat ∧ a.endMinute.toNat ≤ b.startMinute.toNat)

theorem Precedes.trans {a b c : SigningWindow} (hb : b.Valid) (h : Precedes a b)
    (h' : Precedes b c) : Precedes a c := by
  have hnonempty := hb.nonempty
  unfold Precedes at h h' ⊢
  omega

theorem windowsOverlap_iff {a b : SigningWindow} : windowsOverlap a b = true ↔
    a.weekday.toNat = b.weekday.toNat ∧ a.startMinute.toNat < b.endMinute.toNat ∧
      b.startMinute.toNat < a.endMinute.toNat := by
  rw [windowsOverlap, decide_eq_true_iff, UInt16.lt_iff_toNat_lt, UInt16.lt_iff_toNat_lt,
    UInt8.toNat_inj]

theorem windowLe_iff {a b : SigningWindow} : WindowLe a b ↔ a.weekday.toNat < b.weekday.toNat ∨
    (a.weekday.toNat = b.weekday.toNat ∧ a.startMinute.toNat ≤ b.startMinute.toNat) := by
  rw [WindowLe, UInt8.lt_iff_toNat_lt, UInt16.le_iff_toNat_le, UInt8.toNat_inj]

theorem precedes_of_windowLe {a b : SigningWindow} (hb : b.Valid) (hle : WindowLe a b)
    (h : windowsOverlap a b = false) : Precedes a b := by
  have hnonempty := hb.nonempty
  have hoverlap : ¬ windowsOverlap a b = true := by rw [h]; exact Bool.false_ne_true
  rw [windowsOverlap_iff] at hoverlap
  rw [windowLe_iff] at hle
  unfold Precedes
  omega

/-- No minute of the week is in both. -/
def Disjoint (a b : SigningWindow) : Prop :=
  ∀ weekday minute, ¬ (a.contains weekday minute = true ∧ b.contains weekday minute = true)

theorem Precedes.disjoint {a b : SigningWindow} (h : Precedes a b) : Disjoint a b := by
  intro weekday minute hboth
  obtain ⟨ha, hb⟩ := hboth
  rw [contains_iff] at ha hb
  unfold Precedes at h
  omega

theorem Disjoint.symm {a b : SigningWindow} (h : Disjoint a b) : Disjoint b a :=
  fun weekday minute hboth => h weekday minute ⟨hboth.2, hboth.1⟩

theorem Precedes.not_overlap {a b : SigningWindow} (h : Precedes a b) : windowsOverlap a b = false := by
  rw [Bool.eq_false_iff, Ne, windowsOverlap_iff]
  unfold Precedes at h
  omega

end SigningWindow

open SigningWindow

/-! ## Sorting -/

instance windowLeTotal : Std.Total WindowLe where
  total a b := by
    rw [windowLe_iff, windowLe_iff]
    omega

instance windowLeTrans : IsTrans SigningWindow WindowLe where
  trans a b c h h' := by
    rw [windowLe_iff] at h h' ⊢
    omega

/-- Neighbours that do not overlap are enough among sorted windows. -/
theorem pairwise_precedes {windows : List SigningWindow} (hvalid : ∀ window ∈ windows, window.Valid)
    (hsorted : windows.Pairwise WindowLe)
    (h : ((windows.zip windows.tail).any fun pair => windowsOverlap pair.1 pair.2) = false) :
    windows.Pairwise Precedes := by
  induction windows with
  | nil => exact List.Pairwise.nil
  | cons first rest ih =>
    cases rest with
    | nil => exact List.pairwise_singleton Precedes first
    | cons second rest =>
      have hsplit : (((first :: second :: rest).zip (second :: rest)).any
          fun pair => windowsOverlap pair.1 pair.2) = (windowsOverlap first second ||
            ((second :: rest).zip rest).any fun pair => windowsOverlap pair.1 pair.2) := rfl
      rw [List.tail_cons, hsplit, Bool.or_eq_false_iff] at h
      obtain ⟨_, hvalidRest⟩ := List.forall_mem_cons.mp hvalid
      obtain ⟨hle, hsortedRest⟩ := List.pairwise_cons.mp hsorted
      have hrest := ih hvalidRest hsortedRest h.2
      have hfirst := precedes_of_windowLe (hvalidRest second List.mem_cons_self)
        (hle second List.mem_cons_self) h.1
      apply List.Pairwise.cons _ hrest
      intro window hwindow
      cases List.mem_cons.mp hwindow with
      | inl hsecond => rw [hsecond]; exact hfirst
      | inr hlater =>
        exact hfirst.trans (hvalidRest second List.mem_cons_self)
          ((List.pairwise_cons.mp hrest).1 window hlater)

theorem neighbours_apart {windows : List SigningWindow} (h : windows.Pairwise Precedes) :
    ((windows.zip windows.tail).any fun pair => windowsOverlap pair.1 pair.2) = false := by
  induction windows with
  | nil => rfl
  | cons first rest ih =>
    obtain ⟨hfirst, hrest⟩ := List.pairwise_cons.mp h
    cases rest with
    | nil => rfl
    | cons second rest =>
      rw [List.tail_cons, List.zip_cons_cons, List.any_cons,
        (hfirst second List.mem_cons_self).not_overlap, Bool.false_or]
      exact ih hrest

/-- Windows that precede one another have one order. -/
theorem sortWindows_perm {windows windows' : List SigningWindow} (h : windows.Perm windows')
    (hprecedes : (sortWindows windows).Pairwise Precedes)
    (hvalid : ∀ window ∈ windows, window.Valid) : sortWindows windows = sortWindows windows' := by
  apply List.Perm.eq_of_pairwise _ (List.pairwise_insertionSort WindowLe windows)
    (List.pairwise_insertionSort WindowLe windows')
  · exact (List.perm_insertionSort WindowLe windows).trans
      (h.trans (List.perm_insertionSort WindowLe windows').symm)
  · intro a b ha hb hab hba
    have hb' : b ∈ sortWindows windows :=
      (List.mem_insertionSort WindowLe).mpr (h.mem_iff.mpr ((List.mem_insertionSort WindowLe).mp hb))
    have hapart : a = b ∨ Precedes a b ∨ Precedes b a := by
      have hall : (sortWindows windows).Pairwise fun x y => x = y ∨ Precedes x y ∨ Precedes y x :=
        hprecedes.imp fun hxy => .inr (.inl hxy)
      have hflip : (sortWindows windows).Pairwise
          (flip fun x y => x = y ∨ Precedes x y ∨ Precedes y x) :=
        hprecedes.imp fun hxy => .inr (.inr hxy)
      exact hall.forall_of_forall_of_flip (fun _ _ => .inl rfl) hflip ha hb'
    have hva := (hvalid a ((List.mem_insertionSort WindowLe).mp ha)).nonempty
    have hvb := (hvalid b ((List.mem_insertionSort WindowLe).mp hb')).nonempty
    rw [windowLe_iff] at hab hba
    cases hapart with
    | inl heq => exact heq
    | inr hprecedes =>
      unfold Precedes at hprecedes
      omega

/-! ## Parts of the text -/

/-- What one part of the text says. -/
def Reads (raw : Bytes) (window : SigningWindow) : Prop :=
  trimAscii raw ≠ [] ∧ parseWindow (trimAscii raw) = .ok window

theorem parsePart_eq_ok {before result : List SigningWindow} {raw : Bytes} :
    parsePart before raw = .ok result ↔ before.length < MAX_WEEKLY_WINDOWS ∧
      ∃ window, Reads raw window ∧ result = before ++ [window] := by
  rw [parsePart]
  dsimp only
  by_cases hempty : trimAscii raw = []
  · rw [if_pos hempty]
    exact ⟨fun h => (nomatch h), fun h => absurd hempty h.2.choose_spec.1.1⟩
  · rw [if_neg hempty]
    by_cases hroom : MAX_WEEKLY_WINDOWS ≤ before.length
    · refine ⟨fun h => ?_, fun h => absurd h.1 (Nat.not_lt.mpr hroom)⟩
      have hfull : (.error .tooManyWindows : Except PolicyError (List SigningWindow)) = .ok result := by
        rw [← h]
        exact (if_pos hroom).symm
      cases hfull
    · constructor
      · intro h
        have hread : (parseWindow (trimAscii raw)).bind (fun window => .ok (before ++ [window])) =
            .ok result := by
          rw [← h]
          exact (if_neg hroom).symm
        obtain ⟨window, hwindow, hresult⟩ := bind_eq_ok.mp hread
        exact ⟨Nat.not_le.mp hroom, window, ⟨hempty, hwindow⟩, (Except.ok.inj hresult).symm⟩
      · intro h
        obtain ⟨_, window, hwindow, rfl⟩ := h
        refine (if_neg hroom).trans ?_
        rw [hwindow.2]
        rfl

/-- There are as many windows as parts, and room for all of them. -/
theorem foldlM_parsePart {parts : List Bytes} {before result : List SigningWindow}
    (hbefore : before.length ≤ MAX_WEEKLY_WINDOWS) :
    parts.foldlM parsePart before = .ok result ↔
      before.length + parts.length ≤ MAX_WEEKLY_WINDOWS ∧
        ∃ written, result = before ++ written ∧ List.Forall₂ Reads parts written := by
  induction parts generalizing before with
  | nil =>
    rw [List.length_nil, Nat.add_zero]
    constructor
    · intro h
      cases h
      exact ⟨hbefore, [], (List.append_nil _).symm, List.Forall₂.nil⟩
    · intro h
      obtain ⟨_, written, rfl, hreads⟩ := h
      cases hreads
      rw [List.append_nil]
      rfl
  | cons raw parts ih =>
    rw [List.foldlM_cons, List.length_cons]
    constructor
    · intro h
      obtain ⟨next, hpart, hrest⟩ := bind_eq_ok.mp h
      obtain ⟨hroom, window, hwindow, rfl⟩ := parsePart_eq_ok.mp hpart
      have hlength : (before ++ [window]).length = before.length + 1 := List.length_append
      obtain ⟨htotal, written, rfl, hreads⟩ := (ih (by omega)).mp hrest
      refine ⟨by omega, window :: written, ?_, List.Forall₂.cons hwindow hreads⟩
      rw [List.append_assoc]
      rfl
    · intro h
      obtain ⟨htotal, written, rfl, hreads⟩ := h
      cases hreads with
      | @cons _ window _ written hwindow hreads =>
        have hlength : (before ++ [window]).length = before.length + 1 := List.length_append
        refine bind_eq_ok.mpr ⟨before ++ [window],
          parsePart_eq_ok.mpr ⟨by omega, window, hwindow, rfl⟩, ?_⟩
        refine (ih (by omega)).mpr ⟨by omega, written, ?_, hreads⟩
        rw [List.append_assoc]
        rfl

theorem parseWindow_valid {text : Bytes} {window : SigningWindow} (h : parseWindow text = .ok window) :
    window.Valid := by
  rw [parseWindow] at h
  split at h
  · cases h
  · dsimp only at h
    split at h
    · cases h
    · obtain ⟨weekday, _, h⟩ := bind_eq_ok.mp h
      obtain ⟨range, _, h⟩ := bind_eq_ok.mp h
      obtain ⟨u, hvalid, h⟩ := bind_eq_ok.mp h
      cases h
      exact validate_eq_ok.mp hvalid

theorem reads_valid {parts : List Bytes} {written : List SigningWindow}
    (h : List.Forall₂ Reads parts written) : ∀ window ∈ written, window.Valid := by
  intro window hwindow
  obtain ⟨index, hindex, rfl⟩ := List.mem_iff_getElem.mp hwindow
  exact parseWindow_valid (List.Forall₂.get h (by rw [h.length_eq]; exact hindex) hindex).2

/-- The windows of a text: what its parts say, sorted, and each before the next. -/
theorem parseWeeklyWindows_eq_ok {text : Bytes} {result : Windows × UInt8} :
    parseWeeklyWindows text = .ok result ↔
      (text.splitOn 0x3b).length ≤ MAX_WEEKLY_WINDOWS ∧
        ∃ written, List.Forall₂ Reads (text.splitOn 0x3b) written ∧
          (sortWindows written).Pairwise Precedes ∧
          result = (.ofList (sortWindows written), UInt8.ofNat (sortWindows written).length) := by
  have hstart := @foldlM_parsePart (text.splitOn 0x3b) []
  rw [parseWeeklyWindows, parseWindowList]
  constructor
  · intro h
    obtain ⟨windows, hlist, h⟩ := bind_eq_ok.mp h
    obtain ⟨u, hapart, h⟩ := bind_eq_ok.mp h
    cases h
    obtain ⟨hlength, written, hwritten, hreads⟩ := (hstart (Nat.zero_le _)).mp hlist
    rw [List.length_nil, Nat.zero_add] at hlength
    rw [List.nil_append] at hwritten
    rw [hwritten] at hapart ⊢
    refine ⟨hlength, written, hreads, ?_, rfl⟩
    apply pairwise_precedes
    · intro window hwindow
      exact reads_valid hreads window ((List.mem_insertionSort WindowLe).mp hwindow)
    · exact List.pairwise_insertionSort WindowLe written
    · exact Bool.eq_false_iff.mpr (rejectIf_eq_ok.mp hapart)
  · intro h
    obtain ⟨hlength, written, hreads, hprecedes, rfl⟩ := h
    have hlist : (text.splitOn 0x3b).foldlM parsePart [] = .ok written :=
      (hstart (Nat.zero_le _)).mpr ⟨by rw [List.length_nil, Nat.zero_add]; exact hlength, written,
        rfl, hreads⟩
    refine bind_eq_ok.mpr ⟨written, hlist, bind_eq_ok.mpr ⟨(), rejectIf_eq_ok.mpr ?_, rfl⟩⟩
    rw [neighbours_apart hprecedes]
    exact Bool.false_ne_true

/-- The order in which a text writes its windows does not matter. -/
theorem parseWeeklyWindows_perm {parts parts' : List Bytes} (hperm : parts.Perm parts')
    (hne : parts ≠ []) (hparts : ∀ part ∈ parts, (0x3b : UInt8) ∉ part) {result : Windows × UInt8}
    (h : parseWeeklyWindows (List.intercalate [0x3b] parts) = .ok result) :
    parseWeeklyWindows (List.intercalate [0x3b] parts') = .ok result := by
  have hne' : parts' ≠ [] := fun hnil => hne (List.perm_nil.mp (hnil ▸ hperm))
  have hparts' : ∀ part ∈ parts', (0x3b : UInt8) ∉ part :=
    fun part hpart => hparts part (hperm.mem_iff.mpr hpart)
  rw [parseWeeklyWindows_eq_ok, List.splitOn_intercalate _ hparts hne] at h
  rw [parseWeeklyWindows_eq_ok, List.splitOn_intercalate _ hparts' hne', ← hperm.length_eq]
  obtain ⟨hlength, written, hreads, hprecedes, rfl⟩ := h
  obtain ⟨written', hreads', hwritten⟩ := List.perm_comp_forall₂ hperm.symm hreads
  have hsame := sortWindows_perm hwritten.symm hprecedes (reads_valid hreads)
  exact ⟨hlength, written', hreads', by rw [← hsame]; exact hprecedes, by rw [hsame]⟩

example : parseWeeklyWindows (ascii "TUE 21:33-21:43; mon 08:10-08:25") =
    .ok (.ofList [⟨0, 490, 505⟩, ⟨1, 1293, 1303⟩], 2) := by decide

/-! ## Validation -/

/-- A time that a policy may have: none, or one of the range. -/
def TimeAllowed (unix : UInt64) : Prop :=
  unix = 0 ∨ UtcDateTime.MIN_SECONDS ≤ unix.toNat ∧ unix.toNat ≤ UtcDateTime.MAX_SECONDS

theorem validateTime_eq_ok {unix : UInt64} {u : Unit} :
    validateTime unix = .ok u ↔ TimeAllowed unix := by
  rw [validateTime]
  by_cases hzero : unix = 0
  · rw [if_neg (not_not_intro hzero)]
    exact ⟨fun _ => .inl hzero, fun _ => rfl⟩
  · rw [if_pos hzero]
    by_cases hrange : UtcDateTime.MIN_SECONDS ≤ unix.toNat ∧ unix.toNat ≤ UtcDateTime.MAX_SECONDS
    · rw [UtcDateTime.fromUnixSeconds_range hrange.1 hrange.2]
      exact ⟨fun _ => .inr hrange, fun _ => rfl⟩
    · rw [UtcDateTime.fromUnixSeconds_outside hrange]
      exact ⟨fun h => (nomatch h), fun h => h.elim (absurd · hzero) (absurd · hrange)⟩

theorem validateWindowList_ok {windows : List SigningWindow} (hvalid : ∀ window ∈ windows, window.Valid)
    (h : windows.Pairwise Precedes) : validateWindowList windows = .ok () := by
  induction windows with
  | nil => rfl
  | cons window others ih =>
    obtain ⟨hwindow, hothers⟩ := List.forall_mem_cons.mp hvalid
    obtain ⟨hprecedes, hrest⟩ := List.pairwise_cons.mp h
    rw [validateWindowList]
    refine bind_eq_ok.mpr ⟨(), validate_eq_ok.mpr hwindow, bind_eq_ok.mpr ⟨(), ?_, ih hothers hrest⟩⟩
    rw [rejectIf_eq_ok, Bool.not_eq_true, List.any_eq_false]
    intro other hother
    rw [(hprecedes other hother).not_overlap]
    exact Bool.false_ne_true

/-- A policy whose weekly windows are those of a text. -/
structure FromText (text : Bytes) (policy : SigningPolicy) : Prop where
  windows : parseWeeklyWindows text = .ok (policy.windows, policy.weeklyCount)
  enabled : policy.weeklyEnabled = true

/-- The windows that such a policy has. -/
theorem FromText.read {text : Bytes} {policy : SigningPolicy} (h : FromText text policy) :
    ∃ written, List.Forall₂ Reads (text.splitOn 0x3b) written ∧
      (sortWindows written).Pairwise Precedes ∧
      policy.windows.val.take policy.weeklyCount.toNat = sortWindows written ∧
      validateWindowShape policy = .ok () := by
  obtain ⟨hlength, written, hreads, hprecedes, hresult⟩ := parseWeeklyWindows_eq_ok.mp h.windows
  obtain ⟨hwindows, hcount⟩ := Prod.mk.inj hresult
  have hsorted : (sortWindows written).length = written.length :=
    List.length_insertionSort WindowLe written
  have hpositive : 0 < (text.splitOn 0x3b).length :=
    List.length_pos_of_ne_nil (List.splitOn_ne_nil _ _)
  rw [hreads.length_eq] at hlength hpositive
  have hcount' : policy.weeklyCount.toNat = (sortWindows written).length := by
    rw [hcount]
    exact UInt8.toNat_ofNat_of_lt' (Nat.lt_of_le_of_lt (hsorted ▸ hlength) (by decide))
  have htake : policy.windows.val.take policy.weeklyCount.toNat = sortWindows written := by
    rw [hwindows, hcount', Windows.ofList, List.take_take, Nat.min_eq_left (hsorted ▸ hlength),
      List.take_left]
  refine ⟨written, hreads, hprecedes, htake, ?_⟩
  rw [validateWindowShape]
  refine bind_eq_ok.mpr ⟨(), rejectIf_eq_ok.mpr ?_, bind_eq_ok.mpr ⟨(), rejectIf_eq_ok.mpr ?_,
    rejectIf_eq_ok.mpr ?_⟩⟩
  · rw [hcount']
    omega
  · rw [h.enabled]
    refine fun hne => hne (decide_eq_true ?_).symm
    omega
  · rw [Bool.not_eq_true, List.any_eq_false]
    intro window hwindow
    rw [hwindows, hcount', Windows.ofList, List.drop_take, List.drop_left] at hwindow
    rw [List.eq_of_mem_replicate (List.mem_of_mem_take hwindow)]
    decide

theorem FromText.validate {text : Bytes} {policy : SigningPolicy} (h : FromText text policy) :
    policy.validate = .ok () ↔ TimeAllowed policy.notBeforeUnix ∧ TimeAllowed policy.rtcFloorUnix := by
  obtain ⟨written, hreads, hprecedes, htake, hshape⟩ := h.read
  have hwindows : validateWindows policy = .ok () := by
    rw [validateWindows, htake]
    apply validateWindowList_ok _ hprecedes
    intro window hwindow
    exact reads_valid hreads window ((List.mem_insertionSort WindowLe).mp hwindow)
  rw [SigningPolicy.validate, hshape]
  change (validateWindows policy).bind _ = _ ↔ _
  rw [hwindows]
  constructor
  · intro hall
    obtain ⟨_, _, htimes⟩ := bind_eq_ok.mp hall
    obtain ⟨_, hnotBefore, hfloor⟩ := bind_eq_ok.mp htimes
    exact ⟨validateTime_eq_ok.mp hnotBefore, validateTime_eq_ok.mp hfloor⟩
  · intro htimes
    exact bind_eq_ok.mpr ⟨(), rfl, bind_eq_ok.mpr ⟨(), validateTime_eq_ok.mpr htimes.1,
      validateTime_eq_ok.mpr htimes.2⟩⟩

/-! ## Evaluation -/

/-- A window in which a second lies; 1970 began on a Thursday. -/
def Covers (window : SigningWindow) (unix : Nat) : Prop :=
  window.weekday.toNat = (unix / 86400 + 3) % 7 ∧
    window.startMinute.toNat ≤ unix % 86400 / 60 ∧ unix % 86400 / 60 < window.endMinute.toNat

theorem evaluateWeekly_allowed {policy : SigningPolicy} {now : UInt64} :
    policy.evaluateWeekly now = some .allowed ↔
      (UtcDateTime.MIN_SECONDS ≤ now.toNat ∧ now.toNat ≤ UtcDateTime.MAX_SECONDS) ∧
        ∃ window ∈ policy.windows.val.take policy.weeklyCount.toNat, Covers window now.toNat := by
  rw [SigningPolicy.evaluateWeekly]
  by_cases hrange : UtcDateTime.MIN_SECONDS ≤ now.toNat ∧ now.toNat ≤ UtcDateTime.MAX_SECONDS
  · obtain ⟨date, hdate, hvalid, hseconds⟩ := UtcDateTime.fromUnixSeconds_covers hrange.1 hrange.2
    obtain ⟨unix, hunix, hsame⟩ := UtcDateTime.toUnixSeconds_eq hvalid
    have hhour := hvalid.hour
    have hminute := hvalid.minute
    have hsecond := hvalid.second
    have hweekday : (UInt8.ofNat ((unix.toNat / SECONDS_PER_DAY + 3) % 7)).toNat =
        (now.toNat / 86400 + 3) % 7 := by
      rw [hsame, hseconds]
      exact UInt8.toNat_ofNat_of_lt' (Nat.lt_trans (Nat.mod_lt _ (by decide)) (by decide))
    -- the minute of the day, which sixteen bits hold
    have hclock : (date.hour.toUInt16 * 60 + date.minute.toUInt16).toNat = now.toNat % 86400 / 60 := by
      have hsixty : (60 : UInt16).toNat = 60 := rfl
      have hofDay : now.toNat % 86400 =
          date.hour.toNat * 3600 + date.minute.toNat * 60 + date.second.toNat := by
        rw [← hseconds, UtcDateTime.secondsOf]
        omega
      rw [hofDay, UInt16.toNat_add, UInt16.toNat_mul, UInt8.toNat_toUInt16, UInt8.toNat_toUInt16,
        hsixty, Nat.mod_eq_of_lt (show date.hour.toNat * 60 < 2 ^ 16 by omega),
        Nat.mod_eq_of_lt (show date.hour.toNat * 60 + date.minute.toNat < 2 ^ 16 by omega)]
      omega
    have hdecision : date.weekdayMonday0 =
        .ok (UInt8.ofNat ((unix.toNat / SECONDS_PER_DAY + 3) % 7)) := by
      rw [UtcDateTime.weekdayMonday0, hunix]
      rfl
    rw [hdate]
    dsimp only
    rw [Option.map_some, SigningPolicy.weeklyDecision, hdecision]
    have hany : ((policy.windows.val.take policy.weeklyCount.toNat).any fun window =>
        window.contains (UInt8.ofNat ((unix.toNat / SECONDS_PER_DAY + 3) % 7))
          (date.hour.toUInt16 * 60 + date.minute.toUInt16)) = true ↔
        ∃ window ∈ policy.windows.val.take policy.weeklyCount.toNat, Covers window now.toNat := by
      rw [List.any_eq_true]
      simp only [contains_iff, hweekday, hclock, Covers]
    rw [← hany]
    dsimp only
    split
    · rename_i hsome
      exact ⟨fun _ => ⟨hrange, hsome⟩, fun _ => rfl⟩
    · rename_i hnone
      refine ⟨fun h => ?_, fun h => absurd h.2 hnone⟩
      cases h
  · rw [UtcDateTime.fromUnixSeconds_outside hrange]
    refine ⟨fun h => ?_, fun h => absurd h.1 hrange⟩
    cases h

theorem evaluate_allowed {policy : SigningPolicy} (henabled : policy.weeklyEnabled = true)
    {now : UInt64} : policy.evaluate now = some .allowed ↔
      policy.validate = .ok () ∧ policy.rtcFloorUnix ≤ now ∧ policy.notBeforeUnix ≤ now ∧
        policy.evaluateWeekly now = some .allowed := by
  have hzero : ∀ time : UInt64, ¬ (time ≠ 0 ∧ now < time) ↔ time ≤ now := by
    intro time
    rw [← UInt64.toNat_inj.ne, UInt64.lt_iff_toNat_lt, UInt64.le_iff_toNat_le, UInt64.toNat_zero]
    omega
  rw [SigningPolicy.evaluate]
  cases hvalidate : policy.validate with
  | error error => exact ⟨fun h => (nomatch Option.some.inj h), fun h => (nomatch h.1)⟩
  | ok u =>
    dsimp only
    by_cases hfloor : policy.rtcFloorUnix ≠ 0 ∧ now < policy.rtcFloorUnix
    · rw [if_pos hfloor]
      exact ⟨fun h => (nomatch Option.some.inj h), fun h => absurd hfloor ((hzero _).mpr h.2.1)⟩
    · rw [if_neg hfloor]
      by_cases hbefore : policy.notBeforeUnix ≠ 0 ∧ now < policy.notBeforeUnix
      · rw [if_pos hbefore]
        exact ⟨fun h => (nomatch Option.some.inj h), fun h => absurd hbefore ((hzero _).mpr h.2.2.1)⟩
      · rw [if_neg hbefore, if_pos henabled]
        exact ⟨fun h => ⟨rfl, (hzero _).mp hfloor, (hzero _).mp hbefore, h⟩, fun h => h.2.2.2⟩

/-! ## Together -/

/-- Dates and seconds of the range correspond, in order; and a policy with the windows of a text
validates if its two times are in range, and allows exactly the seconds of the range that are not
before them and lie in one of the windows, which are disjoint and may be written in any order. -/
theorem signing_policy_time :
    (∀ date : UtcDateTime, date.validate = .ok () →
      ∃ unix, date.toUnixSeconds = .ok unix ∧ UtcDateTime.fromUnixSeconds unix = .ok (some date)) ∧
    (∀ (a b : UtcDateTime) (unix unix' : UInt64), a.toUnixSeconds = .ok unix →
      b.toUnixSeconds = .ok unix' → (a.Before b ↔ unix < unix')) ∧
    (∀ unix : UInt64, UtcDateTime.MIN_SECONDS ≤ unix.toNat → unix.toNat ≤ UtcDateTime.MAX_SECONDS →
      ∃ date, UtcDateTime.fromUnixSeconds unix = .ok (some date) ∧ date.toUnixSeconds = .ok unix) ∧
    (∀ (text : Bytes) (policy : SigningPolicy), FromText text policy →
      ∃ written, List.Forall₂ Reads (text.splitOn 0x3b) written ∧
        written.Pairwise SigningWindow.Disjoint ∧
        (policy.validate = .ok () ↔
          TimeAllowed policy.notBeforeUnix ∧ TimeAllowed policy.rtcFloorUnix) ∧
        ∀ now, policy.evaluate now = some .allowed ↔
          policy.validate = .ok () ∧ policy.rtcFloorUnix ≤ now ∧ policy.notBeforeUnix ≤ now ∧
          (UtcDateTime.MIN_SECONDS ≤ now.toNat ∧ now.toNat ≤ UtcDateTime.MAX_SECONDS) ∧
            ∃ window ∈ written, Covers window now.toNat) ∧
    ∀ (parts parts' : List Bytes) (result : Windows × UInt8), parts.Perm parts' → parts ≠ [] →
      (∀ part ∈ parts, (0x3b : UInt8) ∉ part) →
      parseWeeklyWindows (List.intercalate [0x3b] parts) = .ok result →
      parseWeeklyWindows (List.intercalate [0x3b] parts') = .ok result := by
  refine ⟨fun date h => ?_, fun a b unix unix' ha hb => ?_, fun unix h h' => ?_,
    fun text policy h => ?_, fun parts parts' result hperm hne hparts h =>
      parseWeeklyWindows_perm hperm hne hparts h⟩
  · have hvalid := UtcDateTime.validate_eq_ok.mp h
    obtain ⟨unix, hunix, _⟩ := UtcDateTime.toUnixSeconds_eq hvalid
    exact ⟨unix, hunix, UtcDateTime.fromUnixSeconds_toUnixSeconds hvalid hunix⟩
  · obtain ⟨hvalid, hseconds⟩ := UtcDateTime.toUnixSeconds_eq_ok ha
    obtain ⟨hvalid', hseconds'⟩ := UtcDateTime.toUnixSeconds_eq_ok hb
    rw [UInt64.lt_iff_toNat_lt, hseconds, hseconds']
    refine ⟨UtcDateTime.secondsOf_lt hvalid hvalid', fun hlt => ?_⟩
    cases UtcDateTime.before_or_eq_or_before a b with
    | inl hbefore => exact hbefore
    | inr hrest =>
      cases hrest with
      | inl heq => rw [heq] at hlt; exact absurd hlt (Nat.lt_irrefl _)
      | inr hafter => exact absurd hlt (Nat.lt_asymm (UtcDateTime.secondsOf_lt hvalid' hvalid hafter))
  · obtain ⟨date, hdate, hvalid, hseconds⟩ := UtcDateTime.fromUnixSeconds_covers h h'
    obtain ⟨same, hsame, hequal⟩ := UtcDateTime.toUnixSeconds_eq hvalid
    exact ⟨date, hdate, by rw [hsame, UInt64.toNat_inj.mp (hequal.trans hseconds)]⟩
  · obtain ⟨written, hreads, hprecedes, htake, _⟩ := h.read
    have hperm : (sortWindows written).Perm written := List.perm_insertionSort WindowLe written
    refine ⟨written, hreads, ?_, h.validate, fun now => ?_⟩
    · exact (hprecedes.imp SigningWindow.Precedes.disjoint).perm hperm SigningWindow.Disjoint.symm
    · rw [evaluate_allowed h.enabled, evaluateWeekly_allowed, htake]
      simp only [hperm.mem_iff]

/-- A policy that is open for the first minute of every Thursday. -/
def thursdayPolicy (notBeforeUnix : UInt64) : SigningPolicy :=
  ⟨notBeforeUnix, true, 1, .ofList [⟨3, 0, 1⟩], 0⟩

/-- An hour of Friday, written before the first minute of Thursday. -/
def fridayText : Bytes := ascii "FRI 10:00-11:00; THU 00:00-00:01"

def fridayPolicy : SigningPolicy := ⟨0, true, 2, .ofList [⟨3, 0, 1⟩, ⟨4, 600, 660⟩], 0⟩

/-- A second of each of the windows, and one between them. -/
theorem signing_policy_time_sample :
    fridayPolicy.evaluate 1767225630 = some .allowed ∧ fridayPolicy.evaluate 1767349800 = some .allowed ∧
      fridayPolicy.evaluate 1767225720 ≠ some .allowed := by
  have hfrom : FromText fridayText fridayPolicy := ⟨by decide, rfl⟩
  obtain ⟨written, hreads, _, hvalidate, hallowed⟩ := signing_policy_time.2.2.2.1 fridayText fridayPolicy hfrom
  have hsplit : fridayText.splitOn 0x3b = [ascii "FRI 10:00-11:00", ascii " THU 00:00-00:01"] := by decide
  have hfriday : parseWindow (trimAscii (ascii "FRI 10:00-11:00")) = .ok ⟨4, 600, 660⟩ := by decide
  have hthursday : parseWindow (trimAscii (ascii " THU 00:00-00:01")) = .ok ⟨3, 0, 1⟩ := by decide
  have hvalid := hvalidate.mpr ⟨.inl rfl, .inl rfl⟩
  obtain rfl : written = [⟨4, 600, 660⟩, ⟨3, 0, 1⟩] := by
    rw [hsplit, List.forall₂_cons_left_iff] at hreads
    obtain ⟨first, rest, hfirst, hrest, rfl⟩ := hreads
    obtain ⟨second, last, hsecond, hlast, rfl⟩ := List.forall₂_cons_left_iff.mp hrest
    cases List.forall₂_nil_left_iff.mp hlast
    rw [Except.ok.inj (hfirst.2.symm.trans hfriday), Except.ok.inj (hsecond.2.symm.trans hthursday)]
  refine ⟨(hallowed _).mpr ?_, (hallowed _).mpr ?_, mt (hallowed _).mp ?_⟩
  · exact ⟨hvalid, by decide, by decide, by decide, ⟨3, 0, 1⟩, by decide, by decide, by decide, by decide⟩
  · exact ⟨hvalid, by decide, by decide, by decide, ⟨4, 600, 660⟩, by decide, by decide, by decide, by decide⟩
  · intro h
    obtain ⟨_, _, _, _, window, hmem, hcovers⟩ := h
    revert window
    unfold Covers
    decide

/-- The windows of a text are not enough: the two times must be in range, and so must the second
that is asked about, although 1970 began with a minute of a Thursday. -/
theorem window_policy_refused :
    parseWeeklyWindows (ascii "THU 00:00-00:01") =
        .ok ((thursdayPolicy 1).windows, (thursdayPolicy 1).weeklyCount) ∧
      (thursdayPolicy 1).validate = .error .dateOutOfRange ∧
      (thursdayPolicy 0).validate = .ok () ∧ (thursdayPolicy 0).evaluate 0 = some .clockInvalid ∧
      Covers ⟨3, 0, 1⟩ 0 := by
  refine ⟨by decide, by decide, by decide, by decide, by decide, by decide, by decide⟩

end KaspaPortal.Transaction.Policy
