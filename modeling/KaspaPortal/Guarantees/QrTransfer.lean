import KaspaPortal.Lib.Result
import KaspaPortal.Primitives.Hex
import KaspaPortal.Transaction.Qr.Session

/-!
# Transfers through QR codes

The frames of a payload, scanned in any order, any number of times and among texts that
are no frames, give the payload back at the moment the last of them is in. Whatever is
scanned, a payload that comes out has the digest that its frames carry.

Two payloads with one digest are not excluded: the digest of what comes out is that of
the frames.
-/
set_option maxRecDepth 100000

namespace KaspaPortal.Guarantees
open Lib Transaction.Qr

/-- The frame a text carries, if it carries one. -/
def scannedFrame (libraries : QrLibraries) (text : String) : Option ParsedFrame :=
  match libraries.hexDecode text with
  | .error _ => none
  | .ok payload => (parseFrame payload).toOption

/-- The text is one of the frames, in hexadecimal. -/
def ShowsFrame (libraries : QrLibraries) (frames : List Bytes) (text : String) : Prop :=
  ∃ frame ∈ frames, libraries.hexDecode text = .ok frame

/-- Each of the frames is among the texts. -/
def AllShown (libraries : QrLibraries) (frames : List Bytes) (texts : List String) : Prop :=
  ∀ frame ∈ frames, ∃ text ∈ texts, libraries.hexDecode text = .ok frame

namespace QrTransfer

variable {libraries : QrLibraries}

/-! ## Frames are read as they are written -/

theorem cut_mid {pre mid post : Bytes} {start stop : Nat} (hstart : start = pre.length)
    (hstop : stop = pre.length + mid.length) : cut (pre ++ mid ++ post) start stop = mid := by
  rw [hstart, hstop]
  exact slice_append pre mid post

/-- The bytes of a frame, with zeros behind it. -/
def frameBytes (identifier : SessionId) (frameIndex totalFrames : UInt8) (fragment : Bytes)
    (padding : Nat) : Bytes :=
  frameHeader identifier frameIndex totalFrames fragment.length ++ fragment ++
    List.replicate padding 0

section

variable {identifier : SessionId} {frameIndex totalFrames : UInt8} {fragment : Bytes}
  {padding : Nat}

theorem frameBytes_eq :
    frameBytes identifier frameIndex totalFrames fragment padding =
      [0x4b, 0x51, FRAME_VERSION] ++ identifier.val ++
        (frameIndex :: totalFrames :: UInt8.ofNat fragment.length ::
          (fragment ++ List.replicate padding 0)) := by
  simp [frameBytes, frameHeader, FRAME_MAGIC, ascii]

theorem length_frameBytes :
    (frameBytes identifier frameIndex totalFrames fragment padding).length =
      FRAME_HEADER_LEN + fragment.length + padding := by
  simp [frameBytes, Nat.add_assoc]

theorem validateFrameHeader_frameBytes :
    validateFrameHeader (frameBytes identifier frameIndex totalFrames fragment padding) = .ok () := by
  rw [validateFrameHeader, if_neg, if_neg]
  · rw [frameBytes_eq]
    simp
  · rw [not_or, length_frameBytes]
    refine ⟨by omega, ?_⟩
    rw [frameBytes_eq]
    simp [FRAME_MAGIC, ascii]

/-- The three bytes behind the session id. -/
theorem getD_frameBytes (i : Nat) (hi : i < 3) :
    (frameBytes identifier frameIndex totalFrames fragment padding).getD (3 + i + SESSION_ID_LEN) 0 =
      [frameIndex, totalFrames, UInt8.ofNat fragment.length].getD i 0 := by
  have hfront : ([0x4b, 0x51, FRAME_VERSION] ++ identifier.val).length = 3 + SESSION_ID_LEN := by
    rw [List.length_append, identifier.property]
    rfl
  have hback : 3 + i + SESSION_ID_LEN - (3 + SESSION_ID_LEN) = i := by omega
  rw [frameBytes_eq, List.getD_eq_getElem?_getD, List.getElem?_append_right (by omega), hfront,
    hback]
  match i with
  | 0 => rfl
  | 1 => rfl
  | 2 => rfl
  | i + 3 => omega

theorem parseFrame_frameBytes (hindex : frameIndex < totalFrames)
    (htotal : 2 ≤ totalFrames) (hmax : totalFrames.toNat ≤ MAX_FRAMES)
    (hpos : 0 < fragment.length) (hlength : fragment.length < 256) :
    ∃ frame, parseFrame (frameBytes identifier frameIndex totalFrames fragment padding) = .ok frame ∧
      frame.sessionId = identifier ∧ frame.frameIndex = frameIndex ∧
      frame.totalFrames = totalFrames ∧ frame.fragment = fragment := by
  have hlast : (UInt8.ofNat fragment.length).toNat = fragment.length :=
    UInt8.toNat_ofNat_of_lt' hlength
  have hat := @getD_frameBytes identifier frameIndex totalFrames fragment padding
  have hframe : (frameBytes identifier frameIndex totalFrames fragment padding).getD
      (3 + SESSION_ID_LEN) 0 = frameIndex := hat 0 (by omega)
  have htotals : (frameBytes identifier frameIndex totalFrames fragment padding).getD
      (4 + SESSION_ID_LEN) 0 = totalFrames := hat 1 (by omega)
  have hfragment : ((frameBytes identifier frameIndex totalFrames fragment padding).getD
      (5 + SESSION_ID_LEN) 0).toNat = fragment.length := (congrArg UInt8.toNat (hat 2 (by omega))).trans
    hlast
  rw [parseFrame]
  split
  case h_1 error hheader =>
    rw [validateFrameHeader_frameBytes] at hheader
    cases hheader
  case h_2 hheader =>
    dsimp only
    split
    case h_1 error hbad =>
      rw [hframe, htotals, hfragment, validateFrameIndex, if_neg, if_neg] at hbad
      · cases hbad
      · rw [not_or]
        exact ⟨UInt8.not_le.mpr hindex, by omega⟩
      · rw [not_or]
        exact ⟨UInt8.not_lt.mpr htotal, by omega⟩
    case h_2 hchecked =>
      rw [if_neg, if_neg]
      · refine ⟨_, rfl, Subtype.ext ?_, hframe, htotals, ?_⟩
        · change cut (frameBytes identifier frameIndex totalFrames fragment padding) 3
            (3 + SESSION_ID_LEN) = identifier.val
          rw [frameBytes_eq]
          exact cut_mid rfl (by rw [identifier.property]; rfl)
        · change cut (frameBytes identifier frameIndex totalFrames fragment padding)
            FRAME_HEADER_LEN (FRAME_HEADER_LEN + _) = fragment
          rw [hfragment]
          exact cut_mid (length_frameHeader _ _ _ _).symm (by rw [length_frameHeader])
      · rw [hfragment, frameBytes, List.drop_left' (by rw [List.length_append, length_frameHeader])]
        simp
      · rw [hfragment, length_frameBytes]
        omega

end

/-! ## The frames of a payload -/

/-- The frame that carries one of the fragments. -/
def fragmentFrame (identifier : SessionId) (total : Nat) (entry : Bytes × Nat) : Bytes :=
  frameBytes identifier (UInt8.ofNat entry.2) (UInt8.ofNat total) entry.1
    (max (FRAME_HEADER_LEN + entry.1.length) MIN_ENCODED_FRAME_LEN -
      (FRAME_HEADER_LEN + entry.1.length))

theorem framePayload_eq {identifier : SessionId} {total : Nat} {fragment : Bytes} {i : Nat}
    (htwo : 2 ≤ total) (hmax : total ≤ MAX_FRAMES) (hi : i < total) (hpos : 0 < fragment.length)
    (hlength : fragment.length ≤ MAX_FRAME_DATA) :
    framePayload identifier (UInt8.ofNat total) (fragment, i) =
      .ok (fragmentFrame identifier total (fragment, i)) := by
  have hframes : MAX_FRAMES = 64 := rfl
  have hdata : MAX_FRAME_DATA = 91 := rfl
  have hheader : FRAME_HEADER_LEN = 18 := rfl
  have hleast : MIN_ENCODED_FRAME_LEN = 20 := rfl
  have hsingle : SINGLE_FRAME_DATA = 134 := rfl
  have hsize : UInt8.size = 256 := rfl
  have htotal : (UInt8.ofNat total).toNat = total := UInt8.toNat_ofNat_of_lt' (by omega)
  have hindex : (UInt8.ofNat i).toNat = i := UInt8.toNat_ofNat_of_lt' (by omega)
  have hnonempty : fragment.isEmpty = false := by
    rw [List.isEmpty_eq_false_iff]
    exact List.ne_nil_of_length_pos hpos
  rw [framePayload, encodeFrame, if_neg]
  · dsimp only
    rw [List.length_replicate, if_neg (by omega)]
    have hlen : (fragmentFrame identifier total (fragment, i)).length =
        max (FRAME_HEADER_LEN + fragment.length) MIN_ENCODED_FRAME_LEN := by
      rw [fragmentFrame, length_frameBytes]
      dsimp only
      omega
    exact congrArg Except.ok (List.take_left' hlen)
  · rw [UInt8.lt_iff_toNat_lt, ge_iff_le, UInt8.le_iff_toNat_le, htotal, hindex, hnonempty]
    have htwo' : (2 : UInt8).toNat = 2 := rfl
    simp only [htwo', Bool.false_eq_true, false_or, not_or]
    omega

/-- The pieces a payload is cut into. -/
def pieces (payload : Bytes) : List Bytes :=
  chunks (payload.length ⌈/⌉ (payload.length ⌈/⌉ MAX_FRAME_DATA)) payload

section

variable {payload : Bytes} (hleast : 135 ≤ payload.length)
  (hmost : payload.length ≤ MAX_FRAMES * MAX_FRAME_DATA)
include hleast

theorem two_le_frames : 2 ≤ payload.length ⌈/⌉ MAX_FRAME_DATA := by
  by_contra hone
  have hle : payload.length ≤ MAX_FRAME_DATA * 1 :=
    (ceilDiv_le_iff_le_mul (by decide)).mp (Nat.le_of_lt_succ (Nat.lt_of_not_le hone))
  have hdata : MAX_FRAME_DATA = 91 := rfl
  omega

theorem two_le_pieces : 2 ≤ (pieces payload).length :=
  two_le_length_chunks_ceilDiv (two_le_frames hleast) (by omega)

theorem size_pos : 0 < payload.length ⌈/⌉ (payload.length ⌈/⌉ MAX_FRAME_DATA) :=
  Lib.ceilDiv_pos (Nat.lt_of_lt_of_le Nat.zero_lt_two (two_le_frames hleast)) (by omega)

theorem flatten_pieces : (pieces payload).flatten = payload :=
  flatten_chunks (size_pos hleast) payload

theorem piece_bounds (i : Nat) (hi : i < (pieces payload).length) :
    0 < (pieces payload)[i].length ∧ (pieces payload)[i].length ≤ MAX_FRAME_DATA := by
  refine ⟨length_getElem_chunks_pos (size_pos hleast) payload i hi,
    (length_getElem_chunks_le _ payload i hi).trans ?_⟩
  have hpos := Nat.lt_of_lt_of_le Nat.zero_lt_two (two_le_frames hleast)
  rw [ceilDiv_le_iff_le_mul hpos, Nat.mul_comm]
  exact (ceilDiv_le_iff_le_mul (by decide)).mp le_rfl

omit hleast in
include hmost in
theorem frames_le : payload.length ⌈/⌉ MAX_FRAME_DATA ≤ MAX_FRAMES := by
  rw [ceilDiv_le_iff_le_mul (by decide), Nat.mul_comm]
  exact hmost

include hmost

theorem pieces_le : (pieces payload).length ≤ MAX_FRAMES :=
  (length_chunks_ceilDiv_le (Nat.lt_of_lt_of_le Nat.zero_lt_two (two_le_frames hleast))
    (by omega)).trans (frames_le hmost)

theorem framePayloads_eq (sha256 : Bytes → FixedBytes 32) :
    framePayloads sha256 payload = .ok ((pieces payload).zipIdx.map
      (fragmentFrame (sessionId sha256 payload) (pieces payload).length)) := by
  have hsingle : SINGLE_FRAME_DATA = 134 := rfl
  have hnonempty : payload.isEmpty = false := by
    rw [List.isEmpty_eq_false_iff]
    exact List.ne_nil_of_length_pos (by omega)
  rw [framePayloads, hnonempty, if_neg Bool.false_ne_true, if_neg (by omega)]
  dsimp only
  rw [if_neg (Nat.not_lt_of_le (frames_le hmost))]
  apply mapM_eq_map
  intro entry hentry
  obtain ⟨fragment, i⟩ := entry
  obtain ⟨-, hi, hfragment⟩ := List.mem_zipIdx hentry
  rw [Nat.zero_add] at hi
  simp only [Nat.sub_zero] at hfragment
  rw [hfragment]
  obtain ⟨hpos, hlength⟩ := piece_bounds hleast i hi
  exact framePayload_eq (two_le_pieces hleast) (pieces_le hleast hmost) hi hpos hlength

end

/-! ## One text -/

theorem decodeFrame_of_none {text : String} (h : scannedFrame libraries text = none)
    (state : DecoderState) : ∃ error, decodeFrame libraries state text = (.error error, state) := by
  rw [scannedFrame] at h
  rw [decodeFrame]
  split
  case h_1 error _ => exact ⟨_, rfl⟩
  case h_2 payload hpayload =>
    rw [hpayload] at h
    cases hparse : parseFrame payload with
    | error error => exact ⟨_, rfl⟩
    | ok frame =>
      dsimp only at h
      rw [hparse] at h
      cases h

theorem decodeFrame_of_some {text : String} {frame : ParsedFrame}
    (h : scannedFrame libraries text = some frame) (state : DecoderState) :
    decodeFrame libraries state text =
      match state.absorb libraries.sha256 frame with
      | (.ok none, state) => (.ok none, state)
      | (.ok (some complete), state) => (.ok (some (libraries.hexEncode complete)), state.reset)
      | (.error error, state) => (.error error, state.reset) := by
  rw [scannedFrame] at h
  rw [decodeFrame]
  cases hpayload : libraries.hexDecode text with
  | error error =>
    rw [hpayload] at h
    cases h
  | ok payload =>
    rw [hpayload] at h
    dsimp only at h ⊢
    cases hparse : parseFrame payload with
    | error error =>
      rw [hparse] at h
      cases h
    | ok parsed =>
      rw [hparse] at h
      cases h
      rfl

theorem decodeAll_append (libraries : QrLibraries) (state : DecoderState) (texts : List String)
    (text : String) :
    decodeAll libraries state (texts ++ [text]) =
      (decodeFrame libraries (decodeAll libraries state texts) text).2 := by
  rw [decodeAll, List.foldl_append]
  rfl

theorem framesOf_append (libraries : QrLibraries) (texts : List String) (text : String) :
    (texts ++ [text]).filterMap (scannedFrame libraries) =
      texts.filterMap (scannedFrame libraries) ++ (scannedFrame libraries text).toList := by
  rw [List.filterMap_append]
  cases h : scannedFrame libraries text <;> simp [h]

/-! ## The frames of one payload in any order -/

/-- A frame that carries one of the pieces. -/
structure Honest (identifier : SessionId) (pieces : List Bytes) (frame : ParsedFrame) : Prop where
  session : frame.sessionId = identifier
  total : frame.totalFrames = UInt8.ofNat pieces.length
  piece : ∃ h : frame.frameIndex.toNat < pieces.length,
    frame.fragment = pieces[frame.frameIndex.toNat]

theorem Honest.same {identifier : SessionId} {pieces : List Bytes} {frame other : ParsedFrame}
    (h : Honest identifier pieces frame) (h' : Honest identifier pieces other) :
    frame.SameSession other :=
  ⟨h.session.trans h'.session.symm, h.total.trans h'.total.symm⟩

theorem Honest.fragment_eq {identifier : SessionId} {pieces : List Bytes} {frame other : ParsedFrame}
    (h : Honest identifier pieces frame) (h' : Honest identifier pieces other)
    (hindex : frame.index = other.index) : frame.fragment = other.fragment := by
  obtain ⟨hi, hfragment⟩ := h.piece
  obtain ⟨hi', hfragment'⟩ := h'.piece
  have hval : frame.frameIndex.toNat = other.frameIndex.toNat :=
    congrArg (fun i : Fin MAX_FRAMES => i.val) hindex
  rw [hfragment, hfragment']
  simp only [hval]

section

variable {identifier : SessionId} {pieces : List Bytes}

theorem covers_mono {frames more : List ParsedFrame} {total : Nat} (h : Covers frames total)
    (hsubset : frames ⊆ more) : Covers more total := by
  intro i hi
  obtain ⟨frame, hmem, hindex⟩ := h i hi
  exact ⟨frame, hsubset hmem, hindex⟩

/-- An honest frame while others are still missing. -/
theorem absorb_honest (sha256 : Bytes → FixedBytes 32) {frames : List ParsedFrame}
    {state : DecoderState} {frame : ParsedFrame} (hlength : pieces.length ≤ MAX_FRAMES)
    (h : DecoderState.Tracks frames state)
    (hframes : ∀ other ∈ frames, Honest identifier pieces other)
    (hframe : Honest identifier pieces frame)
    (hmissing : ¬ Covers (frames ++ [frame]) pieces.length) :
    ∃ next, state.absorb sha256 frame = (.ok none, next) ∧
      DecoderState.Tracks (frames ++ [frame]) next := by
  have hsame : ∀ other ∈ frames, other.SameSession frame :=
    fun other hother => (hframes other hother).same hframe
  by_cases hseen : ∃ other ∈ frames, other.index = frame.index
  · obtain ⟨other, hmem, hindex⟩ := hseen
    have hfragment := (hframes other hmem).fragment_eq hframe hindex
    refine ⟨state, ?_, DecoderState.tracks_again h hsame hmem hindex hfragment⟩
    rw [DecoderState.absorb_again h hsame hmem hindex, if_pos hfragment]
  · have hfresh : ∀ other ∈ frames, other.index ≠ frame.index :=
      fun other hother heq => hseen ⟨other, hother, heq⟩
    have htracks := DecoderState.tracks_place h hsame hfresh
    refine ⟨_, ?_, htracks⟩
    have htotal : ((state.join frame).place frame).totalFrames = frame.totalFrames :=
      (DecoderState.join_session h hsame).2.2
    have hcount : frame.totalFrames.toNat = pieces.length := by
      rw [hframe.total]
      exact UInt8.toNat_ofNat_of_lt' (Nat.lt_of_le_of_lt hlength (by decide))
    rw [DecoderState.absorb_fresh h hsame hfresh, DecoderState.assembled_of_missing htracks]
    · rw [htotal]
      exact frame.total_le
    · rw [htotal, hcount]
      exact hmissing

/-- The honest frame that was still missing. -/
theorem absorb_last (sha256 : Bytes → FixedBytes 32) {frames : List ParsedFrame}
    {state : DecoderState} {frame : ParsedFrame} (hlength : pieces.length ≤ MAX_FRAMES)
    (hdigest : sessionId sha256 pieces.flatten = identifier)
    (h : DecoderState.Tracks frames state)
    (hframes : ∀ other ∈ frames, Honest identifier pieces other)
    (hframe : Honest identifier pieces frame) (hmissing : ¬ Covers frames pieces.length)
    (hcovers : Covers (frames ++ [frame]) pieces.length) :
    ∃ next, state.absorb sha256 frame = (.ok (some pieces.flatten), next) := by
  have hsame : ∀ other ∈ frames, other.SameSession frame :=
    fun other hother => (hframes other hother).same hframe
  have hfresh : ∀ other ∈ frames, other.index ≠ frame.index := by
    intro other hother hindex
    apply hmissing
    intro i hi
    obtain ⟨last, hlast, heq⟩ := hcovers i hi
    rw [List.mem_append, List.mem_singleton] at hlast
    rcases hlast with hold | hnew
    · exact ⟨last, hold, heq⟩
    · exact ⟨other, hother, (congrArg Fin.val hindex).trans (hnew ▸ heq)⟩
  have htracks := DecoderState.tracks_place h hsame hfresh
  obtain ⟨-, hsession, htotal⟩ := DecoderState.join_session h hsame
  have hsession' : ((state.join frame).place frame).sessionId = identifier :=
    hsession.trans hframe.session
  have hcount : ((state.join frame).place frame).totalFrames.toNat = pieces.length := by
    change (state.join frame).totalFrames.toNat = pieces.length
    rw [htotal, hframe.total]
    exact UInt8.toNat_ofNat_of_lt' (Nat.lt_of_le_of_lt hlength (by decide))
  have hpieces : ((state.join frame).place frame).fragments.toList.take pieces.length = pieces := by
    apply List.ext_getElem
    · exact DecoderState.length_taken _ hlength
    · intro i hi hi'
      obtain ⟨last, hlast, hindex⟩ := hcovers i hi'
      have hhonest : Honest identifier pieces last := by
        rw [List.mem_append, List.mem_singleton] at hlast
        rcases hlast with hold | hnew
        · exact hframes last hold
        · exact hnew ▸ hframe
      obtain ⟨hbound, hfragment⟩ := hhonest.piece
      rw [DecoderState.taken_fragments htracks hlength hi hlast hindex, hfragment]
      simp only [hindex]
  refine ⟨(state.join frame).place frame, ?_⟩
  rw [DecoderState.absorb_fresh h hsame hfresh, DecoderState.assembled_of_covers htracks]
  · rw [hcount, hpieces, hsession', verifySession, hdigest, decide_eq_true rfl,
      if_neg (Bool.noConfusion : ¬ true = false)]
  · rw [hcount]
    exact hlength
  · rw [hcount]
    exact hcovers

/-- As long as a frame is missing, the decoder tracks what it was shown. -/
theorem tracks_decodeAll (hlength : pieces.length ≤ MAX_FRAMES) {texts : List String}
    (htexts : ∀ text ∈ texts, ∀ frame, scannedFrame libraries text = some frame →
      Honest identifier pieces frame)
    (hmissing : ¬ Covers (texts.filterMap (scannedFrame libraries)) pieces.length) :
    DecoderState.Tracks (texts.filterMap (scannedFrame libraries))
      (decodeAll libraries .new texts) := by
  induction texts using List.reverseRecOn with
  | nil => exact DecoderState.tracks_new
  | append_singleton texts text ih =>
    rw [framesOf_append] at hmissing ⊢
    have hrest := ih (fun other hother => htexts other (List.mem_append_left _ hother))
      fun hcovers => hmissing (covers_mono hcovers (List.subset_append_left _ _))
    rw [decodeAll_append]
    cases hscan : scannedFrame libraries text with
    | none =>
      obtain ⟨error, hrun⟩ := decodeFrame_of_none hscan (decodeAll libraries .new texts)
      rw [hrun, Option.toList_none, List.append_nil]
      exact hrest
    | some frame =>
      rw [hscan] at hmissing
      have hhonest : ∀ other ∈ texts.filterMap (scannedFrame libraries),
          Honest identifier pieces other := by
        intro other hother
        obtain ⟨source, hsource, hscanned⟩ := List.mem_filterMap.mp hother
        exact htexts source (List.mem_append_left _ hsource) other hscanned
      have hframe := htexts text (List.mem_append_right _ List.mem_cons_self) frame hscan
      obtain ⟨next, habsorb, htracks⟩ := absorb_honest libraries.sha256 hlength hrest
        hhonest hframe hmissing
      rw [decodeFrame_of_some hscan, habsorb]
      exact htracks

end

/-! ## What the texts show -/

section

variable {payload : Bytes} {identifier : SessionId}

/-- A text that shows a frame of the payload is scanned as the frame of one of the pieces. -/
theorem scannedFrame_fragmentFrame (hleast : 135 ≤ payload.length)
    (hmost : payload.length ≤ MAX_FRAMES * MAX_FRAME_DATA) {text : String} {i : Nat}
    (hi : i < (pieces payload).length)
    (htext : libraries.hexDecode text =
      .ok (fragmentFrame identifier (pieces payload).length ((pieces payload)[i], i))) :
    ∃ frame, scannedFrame libraries text = some frame ∧
      Honest identifier (pieces payload) frame ∧ frame.frameIndex.toNat = i := by
  obtain ⟨hpos, hlength⟩ := piece_bounds hleast i hi
  have htwo := two_le_pieces hleast
  have hmax := pieces_le hleast hmost
  have hframes : MAX_FRAMES = 64 := rfl
  have hdata : MAX_FRAME_DATA = 91 := rfl
  have hsize : UInt8.size = 256 := rfl
  have htotal : (UInt8.ofNat (pieces payload).length).toNat = (pieces payload).length :=
    UInt8.toNat_ofNat_of_lt' (by omega)
  have hindex : (UInt8.ofNat i).toNat = i := UInt8.toNat_ofNat_of_lt' (by omega)
  have htwo' : (2 : UInt8).toNat = 2 := rfl
  obtain ⟨frame, hparse, hsession, hframeIndex, htotalFrames, hfragment⟩ :=
    @parseFrame_frameBytes identifier (UInt8.ofNat i) (UInt8.ofNat (pieces payload).length)
      (pieces payload)[i] _ (UInt8.lt_iff_toNat_lt.mpr (by omega))
      (UInt8.le_iff_toNat_le.mpr (by omega)) (by omega) hpos (by omega)
  have hat : frame.frameIndex.toNat = i := by rw [hframeIndex, hindex]
  refine ⟨frame, ?_, ⟨hsession, htotalFrames, hat ▸ hi, ?_⟩, hat⟩
  · rw [scannedFrame, htext]
    dsimp only
    rw [fragmentFrame, hparse]
    rfl
  · rw [hfragment]
    simp only [hat]

/-- The frames that `framePayloads` gives, under their indices. -/
theorem mem_frames_iff {frame : Bytes} :
    frame ∈ (pieces payload).zipIdx.map (fragmentFrame identifier (pieces payload).length) ↔
      ∃ i, ∃ h : i < (pieces payload).length,
        frame = fragmentFrame identifier (pieces payload).length ((pieces payload)[i], i) := by
  rw [List.mem_map]
  constructor
  · intro h
    obtain ⟨entry, hentry, rfl⟩ := h
    obtain ⟨fragment, i⟩ := entry
    obtain ⟨-, hi, hfragment⟩ := List.mem_zipIdx hentry
    rw [Nat.zero_add] at hi
    simp only [Nat.sub_zero] at hfragment
    exact ⟨i, hi, by rw [hfragment]⟩
  · intro h
    obtain ⟨i, hi, rfl⟩ := h
    exact ⟨_, List.mk_mem_zipIdx_iff_getElem?.mpr (List.getElem?_eq_getElem hi), rfl⟩

/-- Every frame has been shown when every index has. -/
theorem allShown_iff (hleast : 135 ≤ payload.length)
    (hmost : payload.length ≤ MAX_FRAMES * MAX_FRAME_DATA) {frames : List Bytes}
    (hframes : frames =
      (pieces payload).zipIdx.map (fragmentFrame identifier (pieces payload).length))
    {texts : List String} (htexts : ∀ text ∈ texts,
      ShowsFrame libraries frames text ∨ scannedFrame libraries text = none) :
    AllShown libraries frames texts ↔
      Covers (texts.filterMap (scannedFrame libraries)) (pieces payload).length := by
  constructor
  · intro h i hi
    obtain ⟨text, htext, hdecode⟩ := h _ (hframes ▸ mem_frames_iff.mpr ⟨i, hi, rfl⟩)
    obtain ⟨frame, hscan, -, hindex⟩ := scannedFrame_fragmentFrame hleast hmost hi hdecode
    exact ⟨frame, List.mem_filterMap.mpr ⟨text, htext, hscan⟩, hindex⟩
  · intro h bytes hbytes
    rw [hframes, mem_frames_iff] at hbytes
    obtain ⟨i, hi, rfl⟩ := hbytes
    obtain ⟨frame, hframe, hindex⟩ := h i hi
    obtain ⟨text, htext, hscan⟩ := List.mem_filterMap.mp hframe
    refine ⟨text, htext, ?_⟩
    rcases htexts text htext with hshows | hnone
    · obtain ⟨shown, hshown, hdecode⟩ := hshows
      rw [hframes, mem_frames_iff] at hshown
      obtain ⟨j, hj, rfl⟩ := hshown
      obtain ⟨frame', hscan', -, hindex'⟩ := scannedFrame_fragmentFrame hleast hmost hj hdecode
      rw [hscan] at hscan'
      cases hscan'
      have hji : j = i := hindex'.symm.trans hindex
      subst hji
      exact hdecode
    · rw [hscan] at hnone
      cases hnone

end

/-! ## Whatever is scanned -/

/-- The frames taken since the last reset. -/
theorem session_of_decodeAll (libraries : QrLibraries) (texts : List String) :
    ∃ earlier session, texts = earlier ++ session ∧ decodeAll libraries .new earlier = .new ∧
      DecoderState.Tracks (session.filterMap (scannedFrame libraries))
        (decodeAll libraries .new texts) := by
  induction texts using List.reverseRecOn with
  | nil => exact ⟨[], [], rfl, rfl, DecoderState.tracks_new⟩
  | append_singleton texts text ih =>
    obtain ⟨earlier, session, htexts, hreset, htracks⟩ := ih
    have hstop : (decodeFrame libraries (decodeAll libraries .new texts) text).2 = .new →
        ∃ earlier session, texts ++ [text] = earlier ++ session ∧
          decodeAll libraries .new earlier = .new ∧
          DecoderState.Tracks (session.filterMap (scannedFrame libraries))
            (decodeAll libraries .new (texts ++ [text])) := by
      intro hnew
      rw [← decodeAll_append] at hnew
      refine ⟨texts ++ [text], [], (List.append_nil _).symm, hnew, ?_⟩
      rw [hnew]
      exact DecoderState.tracks_new
    cases hscan : scannedFrame libraries text with
    | none =>
      obtain ⟨error, hrun⟩ := decodeFrame_of_none hscan (decodeAll libraries .new texts)
      refine ⟨earlier, session ++ [text], by rw [htexts, List.append_assoc], hreset, ?_⟩
      rw [decodeAll_append, hrun, framesOf_append, hscan, Option.toList_none, List.append_nil]
      exact htracks
    | some frame =>
      have hrun := decodeFrame_of_some hscan (decodeAll libraries .new texts)
      rcases DecoderState.absorb_cases libraries.sha256 htracks frame with
        ⟨next, habsorb, hnext⟩ | ⟨error, next, habsorb⟩ | ⟨complete, next, habsorb, -⟩
      · refine ⟨earlier, session ++ [text], by rw [htexts, List.append_assoc], hreset, ?_⟩
        rw [decodeAll_append, hrun, habsorb, framesOf_append, hscan]
        exact hnext
      · exact hstop (by rw [hrun, habsorb]; rfl)
      · exact hstop (by rw [hrun, habsorb]; rfl)

/-- One more text, while a frame of the payload is still missing. -/
theorem next_text {payload : Bytes} (hleast : 135 ≤ payload.length)
    (hmost : payload.length ≤ MAX_FRAMES * MAX_FRAME_DATA) {frames : List Bytes}
    (hpayloads : framePayloads libraries.sha256 payload = .ok frames) {texts : List String}
    {text : String} (htexts : ∀ shown ∈ texts ++ [text], ShowsFrame libraries frames shown ∨
      scannedFrame libraries shown = none) (hmissing : ¬ AllShown libraries frames texts) :
    (AllShown libraries frames (texts ++ [text]) →
      decodeFrame libraries (decodeAll libraries .new texts) text =
        (.ok (some (libraries.hexEncode payload)), .new)) ∧
    (¬ AllShown libraries frames (texts ++ [text]) → ShowsFrame libraries frames text →
      (decodeFrame libraries (decodeAll libraries .new texts) text).1 = .ok none) := by
  have hframes : frames = (pieces payload).zipIdx.map
      (fragmentFrame (sessionId libraries.sha256 payload) (pieces payload).length) := by
    rw [framePayloads_eq hleast hmost] at hpayloads
    cases hpayloads
    rfl
  have hlength := pieces_le hleast hmost
  have hscanned : ∀ shown, ShowsFrame libraries frames shown → ∃ frame,
      scannedFrame libraries shown = some frame ∧
        Honest (sessionId libraries.sha256 payload) (pieces payload) frame := by
    intro shown hshows
    obtain ⟨bytes, hbytes, hdecode⟩ := hshows
    rw [hframes, mem_frames_iff] at hbytes
    obtain ⟨i, hi, rfl⟩ := hbytes
    obtain ⟨frame, hscan, hframe, -⟩ := scannedFrame_fragmentFrame hleast hmost hi hdecode
    exact ⟨frame, hscan, hframe⟩
  -- what a text scans to is a fragment of this payload, or nothing
  have hhonest : ∀ shown ∈ texts ++ [text], ∀ frame, scannedFrame libraries shown = some frame →
      Honest (sessionId libraries.sha256 payload) (pieces payload) frame := by
    intro shown hshown frame hscan
    rcases htexts shown hshown with hshows | hnone
    · obtain ⟨frame', hscan', hframe'⟩ := hscanned shown hshows
      rw [hscan] at hscan'
      cases hscan'
      exact hframe'
    · rw [hscan] at hnone
      cases hnone
  have hbefore : ∀ other ∈ texts.filterMap (scannedFrame libraries),
      Honest (sessionId libraries.sha256 payload) (pieces payload) other := by
    intro other hother
    obtain ⟨source, hsource, hscan⟩ := List.mem_filterMap.mp hother
    exact hhonest source (List.mem_append_left _ hsource) other hscan
  rw [allShown_iff hleast hmost hframes fun shown hshown =>
    htexts shown (List.mem_append_left _ hshown)] at hmissing
  rw [allShown_iff hleast hmost hframes htexts, framesOf_append]
  have htracks := tracks_decodeAll hlength
    (fun shown hshown => hhonest shown (List.mem_append_left _ hshown)) hmissing
  constructor
  · intro hcovers
    cases hscan : scannedFrame libraries text with
    | none =>
      rw [hscan, Option.toList_none, List.append_nil] at hcovers
      exact absurd hcovers hmissing
    | some frame =>
      have hframe := hhonest text (List.mem_append_right _ List.mem_cons_self) frame hscan
      rw [hscan] at hcovers
      obtain ⟨next, habsorb⟩ := absorb_last libraries.sha256 hlength
        (by rw [flatten_pieces hleast]) htracks hbefore hframe hmissing hcovers
      rw [decodeFrame_of_some hscan, habsorb, flatten_pieces hleast]
      rfl
  · intro hstill hshows
    obtain ⟨frame, hscan, hframe⟩ := hscanned text hshows
    rw [hscan] at hstill
    obtain ⟨next, habsorb, -⟩ := absorb_honest libraries.sha256 hlength htracks
      hbefore hframe hstill
    rw [decodeFrame_of_some hscan, habsorb]

/-- A payload that comes out is made of the frames since the last reset. -/
theorem payload_completes {texts : List String} {text complete : String}
    (h : (decodeFrame libraries (decodeAll libraries .new texts) text).1 = .ok (some complete)) :
    ∃ earlier session payload frame, texts = earlier ++ session ∧
      decodeAll libraries .new earlier = .new ∧ complete = libraries.hexEncode payload ∧
      scannedFrame libraries text = some frame ∧
      DecoderState.Completes libraries.sha256
        ((session ++ [text]).filterMap (scannedFrame libraries)) frame.sessionId payload := by
  obtain ⟨earlier, session, htexts, hreset, htracks⟩ := session_of_decodeAll libraries texts
  cases hscan : scannedFrame libraries text with
  | none =>
    obtain ⟨error, hrun⟩ := decodeFrame_of_none hscan (decodeAll libraries .new texts)
    rw [hrun] at h
    cases h
  | some frame =>
    rw [decodeFrame_of_some hscan] at h
    rcases DecoderState.absorb_cases libraries.sha256 htracks frame with
      ⟨next, habsorb, -⟩ | ⟨error, next, habsorb⟩ | ⟨payload, next, habsorb, hcompletes⟩
    · rw [habsorb] at h
      cases h
    · rw [habsorb] at h
      cases h
    · rw [habsorb] at h
      cases h
      refine ⟨earlier, session, payload, frame, htexts, hreset, rfl, rfl, ?_⟩
      rw [framesOf_append, hscan]
      exact hcompletes

end QrTransfer

open QrTransfer

/-- The frames of a payload give it back when the last of them is scanned and nothing
before; and a payload that comes out of any scanning has the digest that the frames it was
made of carry. -/
theorem qr_transfer (libraries : QrLibraries) :
    (∀ payload : Bytes, 135 ≤ payload.length → payload.length ≤ MAX_FRAMES * MAX_FRAME_DATA →
      ∃ frames, framePayloads libraries.sha256 payload = .ok frames ∧
        ∀ (texts : List String) (text : String),
          (∀ shown ∈ texts ++ [text], ShowsFrame libraries frames shown ∨
            scannedFrame libraries shown = none) →
          ¬ AllShown libraries frames texts →
          (AllShown libraries frames (texts ++ [text]) →
            decodeFrame libraries (decodeAll libraries .new texts) text =
              (.ok (some (libraries.hexEncode payload)), .new)) ∧
          (¬ AllShown libraries frames (texts ++ [text]) → ShowsFrame libraries frames text →
            (decodeFrame libraries (decodeAll libraries .new texts) text).1 = .ok none) ∧
          (scannedFrame libraries text = none →
            ∃ error, decodeFrame libraries (decodeAll libraries .new texts) text =
              (.error error, decodeAll libraries .new texts))) ∧
    (∀ (texts : List String) (text complete : String),
      (decodeFrame libraries (decodeAll libraries .new texts) text).1 = .ok (some complete) →
      ∃ earlier session payload frame, texts = earlier ++ session ∧
        decodeAll libraries .new earlier = .new ∧ complete = libraries.hexEncode payload ∧
        scannedFrame libraries text = some frame ∧
        DecoderState.Completes libraries.sha256
          ((session ++ [text]).filterMap (scannedFrame libraries)) frame.sessionId payload) := by
  refine ⟨fun payload hleast hmost => ?_, fun _ _ _ hcomplete => payload_completes hcomplete⟩
  have hframes := framePayloads_eq hleast hmost libraries.sha256
  refine ⟨_, hframes, fun texts text htexts hmissing => ?_⟩
  obtain ⟨hlast, hnone⟩ := next_text hleast hmost hframes htexts hmissing
  exact ⟨hlast, hnone, fun hrejected => decodeFrame_of_none hrejected _⟩

namespace QrTransfer

theorem length_sampleDigest (bytes : Bytes) :
    ((bytes.reverse ++ List.replicate 32 0).take 32).length = 32 := by
  rw [List.length_take, List.length_append, List.length_replicate]
  omega

/-- Hexadecimal text and a digest of the right length. -/
def sampleLibraries : QrLibraries where
  hexDecode text :=
    match Primitives.decodeLowerHex (text.toList.map fun c => UInt8.ofNat c.toNat) with
    | some bytes => .ok bytes
    | none => .error "Invalid character"
  hexEncode bytes :=
    String.ofList ((Primitives.encodeLowerHex bytes).map fun b => Char.ofNat b.toNat)
  sha256 bytes := ⟨(bytes.reverse ++ List.replicate 32 0).take 32, length_sampleDigest bytes⟩

theorem sampleLibraries_roundTrip (bytes : Bytes) :
    sampleLibraries.hexDecode (sampleLibraries.hexEncode bytes) = .ok bytes := by
  have hchar : ∀ b : UInt8, UInt8.ofNat (Char.ofNat b.toNat).toNat = b := by
    intro b
    have hvalid : Nat.isValidChar b.toNat := .inl (Nat.lt_trans b.toNat_lt (by decide))
    have hback : (Char.ofNat b.toNat).toNat = b.toNat := by
      rw [Char.ofNat, dif_pos hvalid]
      rfl
    rw [hback, UInt8.ofNat_toNat]
  simp only [sampleLibraries, String.toList_ofList, List.map_map, Function.comp_def, hchar,
    List.map_id', Primitives.decodeLowerHex_encodeLowerHex]

/-- The shortest payload that is cut. -/
def samplePayload : Bytes := List.replicate 135 7

def sampleFrame (entry : Bytes × Nat) : Bytes :=
  fragmentFrame (sessionId sampleLibraries.sha256 samplePayload) 2 entry

theorem samplePayload_bounds : 135 ≤ samplePayload.length ∧
    samplePayload.length ≤ MAX_FRAMES * MAX_FRAME_DATA := by
  have hbound : MAX_FRAMES * MAX_FRAME_DATA = 5824 := rfl
  rw [samplePayload, List.length_replicate]
  omega

theorem pieces_samplePayload :
    pieces samplePayload = [List.replicate 68 7, List.replicate 67 7] := by decide

end QrTransfer

theorem qr_transfer_two_frames :
    ∃ first second, framePayloads sampleLibraries.sha256 samplePayload = .ok [first, second] ∧
      decodeFrame sampleLibraries
          (decodeAll sampleLibraries .new [sampleLibraries.hexEncode second])
          (sampleLibraries.hexEncode first) =
        (.ok (some (sampleLibraries.hexEncode samplePayload)), .new) := by
  obtain ⟨frames, hframes, hrun⟩ :=
    (qr_transfer sampleLibraries).1 samplePayload samplePayload_bounds.1 samplePayload_bounds.2
  have htwo : framePayloads sampleLibraries.sha256 samplePayload =
      .ok [sampleFrame (List.replicate 68 7, 0), sampleFrame (List.replicate 67 7, 1)] := by
    rw [framePayloads_eq samplePayload_bounds.1 samplePayload_bounds.2, pieces_samplePayload]
    rfl
  have hne : sampleFrame (List.replicate 68 7, 0) ≠ sampleFrame (List.replicate 67 7, 1) := by
    decide
  generalize sampleFrame (List.replicate 68 7, 0) = first at htwo hne
  generalize sampleFrame (List.replicate 67 7, 1) = second at htwo hne
  rw [hframes] at htwo
  cases htwo
  refine ⟨first, second, hframes, (hrun _ _ ?_ ?_).1 ?_⟩
  · intro shown hshown
    rw [List.mem_append, List.mem_singleton, List.mem_singleton] at hshown
    rcases hshown with rfl | rfl
    · exact .inl ⟨second, by simp, sampleLibraries_roundTrip second⟩
    · exact .inl ⟨first, by simp, sampleLibraries_roundTrip first⟩
  · intro hall
    obtain ⟨text, htext, hdecode⟩ := hall first (by simp)
    rw [List.mem_singleton.mp htext, sampleLibraries_roundTrip] at hdecode
    cases hdecode
    exact hne rfl
  · intro frame hframe
    rw [List.mem_pair] at hframe
    rcases hframe with rfl | rfl
    · exact ⟨_, by simp, sampleLibraries_roundTrip _⟩
    · exact ⟨_, by simp, sampleLibraries_roundTrip _⟩

end KaspaPortal.Guarantees
