import KaspaPortal.Lib.Chunks
import KaspaPortal.Lib.Outcome
import KaspaPortal.Transaction.Qr.Frame

/-!
# Cutting a payload into frames and putting it together

`src/transaction/interchange/qr/codec.rs` and `security.rs`. The text of a frame is
hexadecimal; the library that reads and writes it is given, and so is SHA-256.

The camera and the display are left out: a scan is a text.
-/
namespace KaspaPortal.Transaction.Qr
open Lib

def MAX_FRAME_DATA : Nat := 91

/-- The largest payload of one code, framed or not. -/
def SINGLE_FRAME_DATA : Nat := 134

/-! ## Producing frames -/

def framePayload (identifier : SessionId) (total : UInt8) (entry : Bytes × Nat) :
    Except String Bytes :=
  match encodeFrame identifier (UInt8.ofNat entry.2) total entry.1
      (List.replicate SINGLE_FRAME_DATA 0) with
  | .error error => .error ("Frame encoding failed: " ++ error.toText)
  | .ok (length, payload) => .ok (payload.take length)

/-- The frames of a payload, or the payload itself when one code carries it. -/
def framePayloads (sha256 : Bytes → FixedBytes 32) (data : Bytes) : Except String (List Bytes) :=
  if data.isEmpty then .error "Empty data"
  else if data.length ≤ SINGLE_FRAME_DATA then .ok [data]
  else
    let totalFrames := data.length ⌈/⌉ MAX_FRAME_DATA
    if totalFrames > MAX_FRAMES then
      .error ("Too large: " ++ toString data.length ++ " bytes (" ++ toString totalFrames ++
        " frames, max " ++ toString MAX_FRAMES ++ ")")
    else
      let identifier := sessionId sha256 data
      let fragments := chunks (data.length ⌈/⌉ totalFrames) data
      fragments.zipIdx.mapM (framePayload identifier (UInt8.ofNat fragments.length))

/-! ## Sessions -/

/-- Why a frame was refused. -/
inductive SessionError where
  | mixedSession
  | frameCountChanged
  deriving DecidableEq, Repr

def authorizeFrameSession (sessionActive : Bool) (currentSessionId : SessionId)
    (currentTotalFrames : UInt8) (incomingSessionId : SessionId) (incomingTotalFrames : UInt8) :
    Except SessionError Unit :=
  if sessionActive = false then .ok ()
  else if currentSessionId ≠ incomingSessionId then .error .mixedSession
  else if currentTotalFrames ≠ incomingTotalFrames then .error .frameCountChanged
  else .ok ()

/-! ## The decoder -/

structure DecoderState where
  sessionId : SessionId
  sessionActive : Bool
  totalFrames : UInt8
  received : Vector Bool MAX_FRAMES
  fragments : Vector Bytes MAX_FRAMES

namespace DecoderState

def new : DecoderState where
  sessionId := ⟨List.replicate SESSION_ID_LEN 0, rfl⟩
  sessionActive := false
  totalFrames := 0
  received := Vector.replicate MAX_FRAMES false
  fragments := Vector.replicate MAX_FRAMES []

/-- Every field is overwritten. -/
def reset (_ : DecoderState) : DecoderState := new

def acceptSession (state : DecoderState) (sessionId : SessionId) (totalFrames : UInt8) :
    Outcome String DecoderState Unit :=
  match authorizeFrameSession state.sessionActive state.sessionId state.totalFrames sessionId
      totalFrames with
  | .error _ => (.error "Mixed multi-frame QR session rejected", state)
  | .ok () =>
    if state.sessionActive then (.ok (), state)
    else (.ok (), { state with
      sessionId := sessionId
      sessionActive := true
      totalFrames := totalFrames })

/-- The payload when every frame is in, and nothing while frames are missing. -/
def assembled (sha256 : Bytes → FixedBytes 32) (state : DecoderState) :
    Except String (Option Bytes) :=
  let total := state.totalFrames.toNat
  if (state.received.toList.take total).all id = false then .ok none
  else
    let complete := (state.fragments.toList.take total).flatten
    if verifySession sha256 complete state.sessionId = false then
      .error "Assembled QR session digest mismatch"
    else .ok (some complete)

/-- The frame goes into its place. -/
def place (state : DecoderState) (frame : ParsedFrame) : DecoderState :=
  { state with
    received := state.received.set frame.index true
    fragments := state.fragments.set frame.index frame.fragment }

def absorb (sha256 : Bytes → FixedBytes 32) (state : DecoderState) (frame : ParsedFrame) :
    Outcome String DecoderState (Option Bytes) :=
  (state.acceptSession frame.sessionId frame.totalFrames).andThen fun _ state =>
    if state.received[frame.index] then
      if state.fragments[frame.index] = frame.fragment then (.ok none, state)
      else (.error "Conflicting duplicate QR frame rejected", state)
    else ((state.place frame).assembled sha256, state.place frame)

end DecoderState

/-- What the decoder works with: the library that reads and writes hexadecimal text, whose
errors are given as their texts, and the digest. -/
structure QrLibraries where
  hexDecode : String → Except String Bytes
  hexEncode : Bytes → String
  sha256 : Bytes → FixedBytes 32

/-- One scanned text. A rejected frame and a completed transfer end the session. -/
def decodeFrame (libraries : QrLibraries) (state : DecoderState) (frameHex : String) :
    Outcome String DecoderState (Option String) :=
  match libraries.hexDecode frameHex with
  | .error error => (.error ("Invalid hex: " ++ error), state)
  | .ok payload =>
    match parseFrame payload with
    | .error error => (.error ("Invalid multi-frame QR: " ++ error.toText), state)
    | .ok frame =>
      match state.absorb libraries.sha256 frame with
      | (.ok none, state) => (.ok none, state)
      | (.ok (some complete), state) => (.ok (some (libraries.hexEncode complete)), state.reset)
      | (.error error, state) => (.error error, state.reset)

/-- The decoder after a sequence of scanned texts. -/
def decodeAll (libraries : QrLibraries) (state : DecoderState) (texts : List String) :
    DecoderState :=
  texts.foldl (fun state text => (decodeFrame libraries state text).2) state

end KaspaPortal.Transaction.Qr
