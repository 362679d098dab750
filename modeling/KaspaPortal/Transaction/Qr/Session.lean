import KaspaPortal.Transaction.Qr.Codec

/-!
# What a decoder holds

The state of the decoder against the frames it took since it was last reset: they are of
one session, and each sits in its place.
-/
namespace KaspaPortal.Transaction.Qr
open Lib

/-- Two frames of one transfer. -/
def ParsedFrame.SameSession (frame other : ParsedFrame) : Prop :=
  frame.sessionId = other.sessionId ∧ frame.totalFrames = other.totalFrames

/-- Every place of a session is filled. -/
def Covers (frames : List ParsedFrame) (total : Nat) : Prop :=
  ∀ i < total, ∃ frame ∈ frames, frame.frameIndex.toNat = i

namespace DecoderState

/-- The state holds the frames taken so far. -/
structure Tracks (frames : List ParsedFrame) (state : DecoderState) : Prop where
  idle : frames = [] → state = new
  active : frames ≠ [] → state.sessionActive = true
  agrees : ∀ frame ∈ frames, frame.sessionId = state.sessionId ∧
    frame.totalFrames = state.totalFrames
  received_iff : ∀ i : Fin MAX_FRAMES, state.received[i] = true ↔ ∃ frame ∈ frames, frame.index = i
  placed : ∀ i : Fin MAX_FRAMES, ∀ frame ∈ frames, frame.index = i →
    state.fragments[i] = frame.fragment

variable {frames : List ParsedFrame} {state : DecoderState} {sha256 : Bytes → FixedBytes 32}

theorem tracks_new : Tracks [] new where
  idle _ := rfl
  active h := absurd rfl h
  agrees _ h := absurd h List.not_mem_nil
  received_iff i := by simp [new]
  placed _ _ h := absurd h List.not_mem_nil

/-- The state that a session's next frame meets. -/
def join (state : DecoderState) (frame : ParsedFrame) : DecoderState :=
  if state.sessionActive then state
  else { state with
    sessionId := frame.sessionId
    sessionActive := true
    totalFrames := frame.totalFrames }

theorem acceptSession_of_same (h : Tracks frames state) {frame : ParsedFrame}
    (hsame : ∀ other ∈ frames, other.SameSession frame) :
    state.acceptSession frame.sessionId frame.totalFrames = (.ok (), state.join frame) := by
  rw [acceptSession, authorizeFrameSession, join]
  cases frames with
  | nil =>
    rw [h.idle rfl]
    rfl
  | cons first rest =>
    have hactive := h.active (List.cons_ne_nil _ _)
    obtain ⟨hsession, htotal⟩ := h.agrees first List.mem_cons_self
    obtain ⟨hsession', htotal'⟩ := hsame first List.mem_cons_self
    rw [hactive, ← hsession, ← htotal, hsession', htotal']
    simp

theorem acceptSession_of_mixed (h : Tracks frames state) {frame other : ParsedFrame}
    (hmem : other ∈ frames) (hmixed : ¬ other.SameSession frame) :
    state.acceptSession frame.sessionId frame.totalFrames =
      (.error "Mixed multi-frame QR session rejected", state) := by
  have hactive := h.active (List.ne_nil_of_mem hmem)
  obtain ⟨hsession, htotal⟩ := h.agrees other hmem
  rw [ParsedFrame.SameSession, hsession, htotal] at hmixed
  rw [acceptSession, authorizeFrameSession, hactive]
  by_cases hid : state.sessionId = frame.sessionId
  · have hcount : state.totalFrames ≠ frame.totalFrames := fun hcount => hmixed ⟨hid, hcount⟩
    simp [hid, hcount]
  · simp [hid]

theorem join_received (state : DecoderState) (frame : ParsedFrame) :
    (state.join frame).received = state.received ∧
      (state.join frame).fragments = state.fragments := by
  rw [join]
  split <;> exact ⟨rfl, rfl⟩

theorem join_session (h : Tracks frames state) {frame : ParsedFrame}
    (hsame : ∀ other ∈ frames, other.SameSession frame) :
    (state.join frame).sessionActive = true ∧ (state.join frame).sessionId = frame.sessionId ∧
      (state.join frame).totalFrames = frame.totalFrames := by
  rw [join]
  cases frames with
  | nil =>
    rw [h.idle rfl]
    exact ⟨rfl, rfl, rfl⟩
  | cons first rest =>
    have hactive := h.active (List.cons_ne_nil _ _)
    obtain ⟨hsession, htotal⟩ := h.agrees first List.mem_cons_self
    obtain ⟨hsession', htotal'⟩ := hsame first List.mem_cons_self
    rw [if_pos hactive]
    exact ⟨hactive, hsession.symm.trans hsession', htotal.symm.trans htotal'⟩

/-! ## One frame -/

theorem absorb_mixed (h : Tracks frames state) {frame other : ParsedFrame}
    (hmem : other ∈ frames) (hmixed : ¬ other.SameSession frame) :
    state.absorb sha256 frame = (.error "Mixed multi-frame QR session rejected", state) := by
  rw [absorb, acceptSession_of_mixed h hmem hmixed]
  rfl

/-- A frame whose place is filled is a repetition, or it contradicts the earlier one. -/
theorem absorb_again (h : Tracks frames state) {frame other : ParsedFrame}
    (hsame : ∀ other ∈ frames, other.SameSession frame) (hmem : other ∈ frames)
    (hindex : other.index = frame.index) :
    state.absorb sha256 frame =
      (if other.fragment = frame.fragment then .ok none
        else .error "Conflicting duplicate QR frame rejected", state) := by
  have hjoin : state.join frame = state := by
    rw [join, if_pos (h.active (List.ne_nil_of_mem hmem))]
  have hreceived := (h.received_iff frame.index).mpr ⟨other, hmem, hindex⟩
  have hplaced := h.placed frame.index other hmem hindex
  rw [absorb, acceptSession_of_same h hsame, hjoin, Outcome.andThen_ok, if_pos hreceived, hplaced]
  split <;> rfl

theorem absorb_fresh (h : Tracks frames state) {frame : ParsedFrame}
    (hsame : ∀ other ∈ frames, other.SameSession frame)
    (hfresh : ∀ other ∈ frames, other.index ≠ frame.index) :
    state.absorb sha256 frame =
      (((state.join frame).place frame).assembled sha256, (state.join frame).place frame) := by
  have hreceived : ¬ state.received[frame.index] = true := by
    rw [h.received_iff]
    intro hmem
    obtain ⟨other, hother, hindex⟩ := hmem
    exact hfresh other hother hindex
  rw [absorb, acceptSession_of_same h hsame, Outcome.andThen_ok, (join_received state frame).1,
    if_neg hreceived]

theorem tracks_place (h : Tracks frames state) {frame : ParsedFrame}
    (hsame : ∀ other ∈ frames, other.SameSession frame)
    (hfresh : ∀ other ∈ frames, other.index ≠ frame.index) :
    Tracks (frames ++ [frame]) ((state.join frame).place frame) := by
  obtain ⟨hactive, hsession, htotal⟩ := join_session h hsame
  obtain ⟨hreceived, hfragments⟩ := join_received state frame
  refine ⟨fun hnil => ?_, fun _ => hactive, fun other hother => ?_, fun i => ?_,
    fun i other hother hindex => ?_⟩
  · simp at hnil
  · rw [List.mem_append, List.mem_singleton] at hother
    rw [place, hsession, htotal]
    rcases hother with hold | hnew
    · exact hsame other hold
    · exact hnew ▸ ⟨rfl, rfl⟩
  · rw [place, hreceived, Fin.getElem_fin, Vector.getElem_set]
    by_cases hi : frame.index = i
    · rw [if_pos (congrArg Fin.val hi)]
      exact iff_of_true rfl ⟨frame, List.mem_append_right _ List.mem_cons_self, hi⟩
    · rw [if_neg (fun hval => hi (Fin.ext hval)), ← Fin.getElem_fin, h.received_iff]
      simp [hi]
  · rw [place, hfragments, Fin.getElem_fin, Vector.getElem_set]
    rw [List.mem_append, List.mem_singleton] at hother
    rcases hother with hold | hnew
    · have hne : frame.index ≠ i := fun heq => hfresh other hold (hindex.trans heq.symm)
      rw [if_neg (fun hval => hne (Fin.ext hval))]
      exact h.placed i other hold hindex
    · rw [hnew] at hindex ⊢
      rw [if_pos (congrArg Fin.val hindex)]

/-- A repeated frame changes nothing that is tracked. -/
theorem tracks_again (h : Tracks frames state) {frame other : ParsedFrame}
    (hsame : ∀ other ∈ frames, other.SameSession frame) (hmem : other ∈ frames)
    (hindex : other.index = frame.index) (hfragment : other.fragment = frame.fragment) :
    Tracks (frames ++ [frame]) state := by
  have hagrees := h.agrees other hmem
  obtain ⟨hsession, htotal⟩ := hsame other hmem
  refine ⟨fun hnil => ?_, fun _ => h.active (List.ne_nil_of_mem hmem), fun last hlast => ?_,
    fun i => ?_, fun i last hlast heq => ?_⟩
  · simp at hnil
  · rw [List.mem_append, List.mem_singleton] at hlast
    rcases hlast with hold | hnew
    · exact h.agrees last hold
    · rw [hnew, ← hsession, ← htotal]
      exact hagrees
  · rw [h.received_iff]
    constructor
    · intro hseen
      obtain ⟨seen, hseen, heq⟩ := hseen
      exact ⟨seen, List.mem_append_left _ hseen, heq⟩
    · intro hseen
      obtain ⟨seen, hseen, heq⟩ := hseen
      rw [List.mem_append, List.mem_singleton] at hseen
      rcases hseen with hold | hnew
      · exact ⟨seen, hold, heq⟩
      · exact ⟨other, hmem, by rw [hindex, ← hnew, heq]⟩
  · rw [List.mem_append, List.mem_singleton] at hlast
    rcases hlast with hold | hnew
    · exact h.placed i last hold heq
    · rw [hnew] at heq ⊢
      rw [← hfragment]
      exact h.placed i other hmem (hindex.trans heq)

/-! ## The end of a session -/

theorem length_taken {α : Type} (slots : Vector α MAX_FRAMES) {total : Nat}
    (htotal : total ≤ MAX_FRAMES) : (slots.toList.take total).length = total := by
  rw [List.length_take, Vector.length_toList]
  exact Nat.min_eq_left htotal

theorem all_received_iff (h : Tracks frames state) {total : Nat} (htotal : total ≤ MAX_FRAMES) :
    (state.received.toList.take total).all id = true ↔ Covers frames total := by
  rw [List.all_eq_true]
  constructor
  · intro hall i hi
    have hlt : i < (state.received.toList.take total).length := by rwa [length_taken _ htotal]
    have hreceived := hall _ (List.getElem_mem hlt)
    rw [List.getElem_take, Vector.getElem_toList] at hreceived
    obtain ⟨frame, hmem, hindex⟩ := (h.received_iff ⟨i, by omega⟩).mp hreceived
    exact ⟨frame, hmem, congrArg Fin.val hindex⟩
  · intro hcovers received hmem
    obtain ⟨i, hi, rfl⟩ := List.mem_iff_getElem.mp hmem
    rw [length_taken _ htotal] at hi
    obtain ⟨frame, hframe, hindex⟩ := hcovers i hi
    rw [List.getElem_take, Vector.getElem_toList]
    exact (h.received_iff ⟨i, by omega⟩).mpr ⟨frame, hframe, Fin.ext hindex⟩

/-- What is assembled is made of the fragments in their order. -/
theorem taken_fragments (h : Tracks frames state) {total i : Nat} (htotal : total ≤ MAX_FRAMES)
    (hi : i < (state.fragments.toList.take total).length) {frame : ParsedFrame}
    (hmem : frame ∈ frames) (hindex : frame.frameIndex.toNat = i) :
    (state.fragments.toList.take total)[i] = frame.fragment := by
  rw [length_taken _ htotal] at hi
  rw [List.getElem_take, Vector.getElem_toList]
  exact h.placed ⟨i, by omega⟩ frame hmem (Fin.ext hindex)

theorem assembled_of_missing (h : Tracks frames state) (htotal : state.totalFrames.toNat ≤ MAX_FRAMES)
    (hmissing : ¬ Covers frames state.totalFrames.toNat) :
    state.assembled sha256 = .ok none := by
  rw [assembled, if_pos]
  rw [← all_received_iff h htotal] at hmissing
  exact Bool.eq_false_of_not_eq_true hmissing

theorem assembled_of_covers (h : Tracks frames state) (htotal : state.totalFrames.toNat ≤ MAX_FRAMES)
    (hcovers : Covers frames state.totalFrames.toNat) :
    state.assembled sha256 =
      if verifySession sha256 (state.fragments.toList.take state.totalFrames.toNat).flatten
          state.sessionId = false then .error "Assembled QR session digest mismatch"
      else .ok (some (state.fragments.toList.take state.totalFrames.toNat).flatten) := by
  rw [← all_received_iff h htotal] at hcovers
  rw [assembled, hcovers, if_neg (Bool.noConfusion : ¬ true = false)]

/-- A payload made of the fragments of frames of one session, under their digest. -/
structure Completes (sha256 : Bytes → FixedBytes 32) (frames : List ParsedFrame)
    (identifier : SessionId) (payload : Bytes) : Prop where
  one_session : ∀ frame ∈ frames, frame.sessionId = identifier
  digest : Qr.sessionId sha256 payload = identifier
  assembled : ∃ fragments : List Bytes, payload = fragments.flatten ∧
    ∀ i (h : i < fragments.length), ∃ frame ∈ frames, frame.frameIndex.toNat = i ∧
      frame.totalFrames.toNat = fragments.length ∧ frame.fragment = fragments[i]

theorem assembled_cases (sha256 : Bytes → FixedBytes 32) (h : Tracks frames state)
    {frame : ParsedFrame} (hframe : frame ∈ frames) :
    state.assembled sha256 = .ok none ∨ (∃ error, state.assembled sha256 = .error error) ∨
      ∃ payload, state.assembled sha256 = .ok (some payload) ∧
        Completes sha256 frames frame.sessionId payload := by
  obtain ⟨hsession, htotal⟩ := h.agrees frame hframe
  have hmax : state.totalFrames.toNat ≤ MAX_FRAMES := htotal ▸ frame.total_le
  by_cases hcovers : Covers frames state.totalFrames.toNat
  · right
    rw [assembled_of_covers h hmax hcovers]
    split
    case isTrue => exact .inl ⟨_, rfl⟩
    case isFalse hverified =>
      rw [Bool.not_eq_false, verifySession, decide_eq_true_iff] at hverified
      refine .inr ⟨_, rfl, fun other hother => ?_, hverified.trans hsession.symm,
        state.fragments.toList.take state.totalFrames.toNat, rfl, fun i hi => ?_⟩
      · exact (h.agrees other hother).1.trans hsession.symm
      · have hbound := hi
        rw [length_taken _ hmax] at hbound
        obtain ⟨other, hother, hindex⟩ := hcovers i hbound
        refine ⟨other, hother, hindex, ?_, (taken_fragments h hmax hi hother hindex).symm⟩
        rw [length_taken _ hmax, (h.agrees other hother).2]
  · exact .inl (assembled_of_missing h hmax hcovers)

/-- A frame is taken and more are awaited, or it ends the session, with a payload or not. -/
theorem absorb_cases (sha256 : Bytes → FixedBytes 32) (h : Tracks frames state)
    (frame : ParsedFrame) :
    (∃ next, state.absorb sha256 frame = (.ok none, next) ∧ Tracks (frames ++ [frame]) next) ∨
    (∃ error next, state.absorb sha256 frame = (.error error, next)) ∨
    (∃ payload next, state.absorb sha256 frame = (.ok (some payload), next) ∧
      Completes sha256 (frames ++ [frame]) frame.sessionId payload) := by
  by_cases hsame : ∀ other ∈ frames, other.SameSession frame
  · by_cases hseen : ∃ other ∈ frames, other.index = frame.index
    · obtain ⟨other, hmem, hindex⟩ := hseen
      rw [absorb_again h hsame hmem hindex]
      split
      case isTrue hfragment =>
        exact .inl ⟨state, rfl, tracks_again h hsame hmem hindex hfragment⟩
      case isFalse => exact .inr (.inl ⟨_, _, rfl⟩)
    · have hfresh : ∀ other ∈ frames, other.index ≠ frame.index :=
        fun other hother heq => hseen ⟨other, hother, heq⟩
      have htracks := tracks_place h hsame hfresh
      have hmem : frame ∈ frames ++ [frame] := List.mem_append_right _ List.mem_cons_self
      rw [absorb_fresh h hsame hfresh]
      rcases assembled_cases sha256 htracks hmem with
        hnone | ⟨error, herror⟩ | ⟨payload, hpayload, hcompletes⟩
      · exact .inl ⟨_, by rw [hnone], htracks⟩
      · exact .inr (.inl ⟨error, _, by rw [herror]⟩)
      · exact .inr (.inr ⟨payload, _, by rw [hpayload], hcompletes⟩)
  · simp only [not_forall] at hsame
    obtain ⟨other, hmem, hmixed⟩ := hsame
    exact .inr (.inl ⟨_, _, absorb_mixed h hmem hmixed⟩)

end DecoderState

end KaspaPortal.Transaction.Qr
