import KaspaPortal.Crypto.AntiKlepto

/-!
# Frames of a QR transfer

`src/transaction/interchange/qr/frame.rs`. A frame is
`[magic:2][version:1][session:12][index:1][total:1][length:1][fragment]`, filled up with
zeros to a least length. SHA-256 is given.

A frame is read as a whole; the sizes that codes of a version can carry are the
display's part.
-/
namespace KaspaPortal.Transaction.Qr
open Lib

def FRAME_MAGIC : Bytes := ascii "KQ"
def FRAME_VERSION : UInt8 := 1
def SESSION_ID_LEN : Nat := 12
/-- Everything before the fragment. -/
def FRAME_HEADER_LEN : Nat := 2 + 1 + SESSION_ID_LEN + 1 + 1 + 1
def MIN_ENCODED_FRAME_LEN : Nat := 20
/-- As many frames as a session can number. -/
def MAX_FRAMES : Nat := 64

/-- What a frame can be refused for. -/
inductive FrameError where
  | bufferTooSmall
  | invalidHeader
  | invalidIndex
  | invalidLength
  | nonCanonicalPadding
  deriving DecidableEq, Repr

/-- The source's derived `Debug`. -/
def FrameError.toText : FrameError → String
  | bufferTooSmall => "BufferTooSmall"
  | invalidHeader => "InvalidHeader"
  | invalidIndex => "InvalidIndex"
  | invalidLength => "InvalidLength"
  | nonCanonicalPadding => "NonCanonicalPadding"

abbrev SessionId := FixedBytes SESSION_ID_LEN

/-- A frame whose index is one of its session's. -/
structure ParsedFrame where
  sessionId : SessionId
  frameIndex : UInt8
  totalFrames : UInt8
  fragment : Bytes
  index_lt : frameIndex < totalFrames
  total_le : totalFrames.toNat ≤ MAX_FRAMES

namespace ParsedFrame

theorem index_lt_total (frame : ParsedFrame) :
    frame.frameIndex.toNat < frame.totalFrames.toNat := UInt8.lt_iff_toNat_lt.mp frame.index_lt

/-- Where the fragment goes. -/
def index (frame : ParsedFrame) : Fin MAX_FRAMES :=
  ⟨frame.frameIndex.toNat, Nat.lt_of_lt_of_le frame.index_lt_total frame.total_le⟩

end ParsedFrame

/-! ## Sessions -/

/-- The start of the digest of a payload and its length. -/
def sessionId (sha256 : Bytes → FixedBytes 32) (payload : Bytes) : SessionId :=
  ⟨(sha256 (ascii "KaspaPortal/multi-frame/v1" ++ (leBytes 8 payload.length).reverse ++
    payload)).val.take SESSION_ID_LEN, by
    rw [List.length_take, (sha256 _).property]
    rfl⟩

/-- The assembled payload is the one the session was named after. -/
def verifySession (sha256 : Bytes → FixedBytes 32) (payload : Bytes) (expected : SessionId) : Bool :=
  decide (sessionId sha256 payload = expected)

/-! ## Writing -/

/-- The header of a frame, with the length of its fragment last. -/
def frameHeader (identifier : SessionId) (frameIndex totalFrames : UInt8) (length : Nat) : Bytes :=
  FRAME_MAGIC ++ [FRAME_VERSION] ++ identifier.val ++
    [frameIndex, totalFrames, UInt8.ofNat length]

/-- Every header has the same length. -/
@[simp] theorem length_frameHeader (identifier : SessionId) (frameIndex totalFrames : UInt8)
    (length : Nat) :
    (frameHeader identifier frameIndex totalFrames length).length = FRAME_HEADER_LEN := by
  have hmagic : FRAME_MAGIC.length = 2 := by decide
  simp only [frameHeader, List.length_append, hmagic, identifier.property, List.length_cons,
    List.length_nil, FRAME_HEADER_LEN]

/-- How many bytes of the output were written, and the output. -/
def encodeFrame (identifier : SessionId) (frameIndex totalFrames : UInt8) (fragment output : Bytes) :
    Except FrameError (Nat × Bytes) :=
  if totalFrames < 2 ∨ totalFrames.toNat > MAX_FRAMES ∨ frameIndex ≥ totalFrames ∨
      fragment.isEmpty ∨ fragment.length > 255 then .error .invalidIndex
  else
    let encodedLen := FRAME_HEADER_LEN + fragment.length
    let displayLen := max encodedLen MIN_ENCODED_FRAME_LEN
    if displayLen > output.length then .error .bufferTooSmall
    else .ok (displayLen,
      frameHeader identifier frameIndex totalFrames fragment.length ++ fragment ++
        List.replicate (displayLen - encodedLen) 0 ++ output.drop displayLen)

/-! ## Reading -/

/-- The length, the magic and the version. -/
def validateFrameHeader (data : Bytes) : Except FrameError Unit :=
  if data.length < FRAME_HEADER_LEN ∨ data.take 2 ≠ FRAME_MAGIC then .error .invalidHeader
  else if data.getD 2 0 ≠ FRAME_VERSION then .error .invalidHeader
  else .ok ()

/-- A session has at least two frames, and a frame at least one byte. -/
def validateFrameIndex (totalFrames frameIndex : UInt8) (fragmentLen : Nat) :
    Except FrameError Unit :=
  if totalFrames < 2 ∨ totalFrames.toNat > MAX_FRAMES then .error .invalidIndex
  else if frameIndex ≥ totalFrames ∨ fragmentLen = 0 then .error .invalidIndex
  else .ok ()

/-- Data with an accepted header are at least as long as one. -/
theorem validateFrameHeader_ok {data : Bytes} (h : validateFrameHeader data = .ok ()) :
    FRAME_HEADER_LEN ≤ data.length := by
  rw [validateFrameHeader] at h
  split at h
  case isTrue => cases h
  case isFalse hdata =>
    rw [not_or] at hdata
    omega

/-- An accepted index is one of its session's. -/
theorem validateFrameIndex_ok {totalFrames frameIndex : UInt8} {fragmentLen : Nat}
    (h : validateFrameIndex totalFrames frameIndex fragmentLen = .ok ()) :
    totalFrames.toNat ≤ MAX_FRAMES ∧ frameIndex < totalFrames := by
  rw [validateFrameIndex] at h
  split at h
  case isTrue => cases h
  case isFalse htotal =>
    split at h
    case isTrue => cases h
    case isFalse hindex =>
      rw [not_or] at htotal hindex
      exact ⟨Nat.le_of_not_lt htotal.2, UInt8.not_le.mp hindex.1⟩

def parseFrame (data : Bytes) : Except FrameError ParsedFrame :=
  match hheader : validateFrameHeader data with
  | .error error => .error error
  | .ok () =>
    let frameIndex := data.getD (3 + SESSION_ID_LEN) 0
    let totalFrames := data.getD (4 + SESSION_ID_LEN) 0
    let fragmentLen := (data.getD (5 + SESSION_ID_LEN) 0).toNat
    match hindex : validateFrameIndex totalFrames frameIndex fragmentLen with
    | .error error => .error error
    | .ok () =>
      let stop := FRAME_HEADER_LEN + fragmentLen
      if stop > data.length then .error .invalidLength
      else if (data.drop stop).any fun byte => byte != 0 then .error .nonCanonicalPadding
      else .ok {
        sessionId := ⟨cut data 3 (3 + SESSION_ID_LEN), by
          have hlength := validateFrameHeader_ok hheader
          simp only [cut, List.length_drop, List.length_take, FRAME_HEADER_LEN, SESSION_ID_LEN]
            at hlength ⊢
          omega⟩
        frameIndex := frameIndex
        totalFrames := totalFrames
        fragment := cut data FRAME_HEADER_LEN stop
        index_lt := (validateFrameIndex_ok hindex).2
        total_le := (validateFrameIndex_ok hindex).1 }

end KaspaPortal.Transaction.Qr
