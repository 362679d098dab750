import KaspaPortal.Network.Wrpc
import Mathlib.Logic.Function.Basic

/-!
# The browser's notification socket

`src/platform/browser/notifications.rs`. Everything runs on one thread; what happens is the code of
one call between two await points, or an event of the browser. The key of a transport's socket is
in its slot, and the sockets of the transport are in the registry under their keys. What the calls
returned is kept in a record, newest first, which the code does not have. What the browser answers
at once comes with the event.
-/
namespace KaspaPortal.Platform.Browser
open Lib Network

abbrev Key := Nat

/-- A call of `subscribe_on` or `next_on`, by the order in which they are made. -/
abbrev CallId := Nat

/-- `waiter` is the resolver of the promise that the call awaits. -/
structure Socket where
  frames : List Bytes
  waiter : Option CallId
  closed : Bool
  nextRequestId : UInt64

/-- Where a call is suspended: in `wait_open`, or in `next_frame` on a promise that is not resolved
yet, or that is. -/
inductive Suspended where
  | opening (payload : Bytes)
  | waiting (key : Key)
  | woken (key : Key)

inductive Entry where
  | subscribed (call : CallId) (key : Key)
  | received (call : CallId) (frame : Bytes)
  | refused (call : CallId) (error : NetworkError)
  | closeCalled
  | socketFailed (key : Key)

/-- `nextKey` is the counter that all transports share. -/
structure Transport where
  slot : Option Key
  sockets : Key → Option Socket
  nextKey : Key
  calls : CallId → Option Suspended
  nextCall : CallId
  record : List Entry

namespace Transport

def initial : Transport where
  slot := none
  sockets _ := none
  nextKey := 1
  calls _ := none
  nextCall := 0
  record := []

def note (entry : Entry) (transport : Transport) : Transport :=
  { transport with record := entry :: transport.record }

def setSocket (key : Key) (socket : Option Socket) (transport : Transport) : Transport :=
  { transport with sockets := Function.update transport.sockets key socket }

def setCall (call : CallId) (suspended : Option Suspended) (transport : Transport) : Transport :=
  { transport with calls := Function.update transport.calls call suspended }

def socketIsClosed : NetworkError := .connectionFailed "notification socket is closed"

/-- The end of `subscribe_on`, on the socket under this key. -/
def subscribe (call : CallId) (key : Key) (payload : Bytes) (sends : Bool)
    (transport : Transport) : Transport :=
  match transport.sockets key with
  | none => transport.note (.refused call socketIsClosed)
  | some socket =>
    let counted := transport.setSocket key
      (some { socket with nextRequestId := socket.nextRequestId + 1 })
    match WrpcRequest.encode ⟨socket.nextRequestId, .subscribe, payload⟩ with
    | .error error => counted.note (.refused call error)
    | .ok _ =>
      if sends then counted.note (.subscribed call key)
      else counted.note (.refused call .sendFailed)

def close (key : Key) (transport : Transport) : Transport := transport.setSocket key none

/-- `next_on` forgets the key with every error of `next_frame`. -/
def failNext (call : CallId) (error : NetworkError) (transport : Transport) : Transport :=
  { transport with slot := none }.note (.refused call error)

/-- `next_frame` up to its await point or its end. -/
def nextFrame (call : CallId) (key : Key) (transport : Transport) : Transport :=
  match transport.sockets key with
  | none => transport.failNext call socketIsClosed
  | some socket =>
    match socket.frames with
    | frame :: rest =>
      (transport.setSocket key (some { socket with frames := rest })).note (.received call frame)
    | [] =>
      if socket.closed then
        (transport.close key).failNext call
          (.connectionFailed "Kaspa notification socket closed")
      else
        (transport.setSocket key (some { socket with waiter := some call })).setCall call
          (some (.waiting key))

/-- The handlers put a socket back with its waiter, if any, resolved. -/
def wake (key : Key) (socket : Socket) (transport : Transport) : Transport :=
  let taken := transport.setSocket key (some { socket with waiter := none })
  match socket.waiter with
  | none => taken
  | some call =>
    match transport.calls call with
    | some (.waiting key) => taken.setCall call (some (.woken key))
    | _ => taken

/-! ## Steps -/

/-- The calls of the transport and where they go on, the events of its sockets, and what another
transport does. -/
inductive Event where
  | subscribeOn (payload : Bytes) (refusal : Option String) (sends : Bool)
  | openResolved (call : CallId) (opened sends : Bool)
  | nextOn
  | resumed (call : CallId)
  | closeOn
  | cancelled (call : CallId)
  | message (key : Key) (frame : Bytes)
  | socketFailed (key : Key)
  | otherOpened

def subscribeOn (payload : Bytes) (refusal : Option String) (sends : Bool)
    (transport : Transport) : Transport :=
  let call := transport.nextCall
  let counted := { transport with nextCall := call + 1 }
  match transport.slot with
  | some key => counted.subscribe call key payload sends
  | none =>
    match refusal with
    | some reason => counted.note (.refused call (.connectionFailed reason))
    | none => counted.setCall call (some (.opening payload))

/-- `open` and `subscribe_on` go on. -/
def openResolved (call : CallId) (payload : Bytes) (opened sends : Bool)
    (transport : Transport) : Transport :=
  let resumed := transport.setCall call none
  if opened then
    let key := transport.nextKey
    subscribe call key payload sends
      { resumed.setSocket key (some ⟨[], none, false, 1⟩) with
        slot := some key
        nextKey := key + 1 }
  else
    resumed.note (.refused call
      (.connectionFailed "Kaspa notification socket failed to open"))

def nextOn (transport : Transport) : Transport :=
  let call := transport.nextCall
  let counted := { transport with nextCall := call + 1 }
  match transport.slot with
  | none => counted.note (.refused call
      (.unexpectedResponse "no Kaspa notification subscription is active"))
  | some key => counted.nextFrame call key

def closeOn (transport : Transport) : Transport :=
  match transport.slot with
  | some key => { transport.close key with slot := none }.note .closeCalled
  | none => transport.note .closeCalled

def step (transport : Transport) : Event → Option Transport
  | .subscribeOn payload refusal sends => some (transport.subscribeOn payload refusal sends)
  | .openResolved call opened sends =>
    match transport.calls call with
    | some (.opening payload) => some (transport.openResolved call payload opened sends)
    | _ => none
  | .nextOn => some transport.nextOn
  | .resumed call =>
    match transport.calls call with
    | some (.woken key) => some ((transport.setCall call none).nextFrame call key)
    | _ => none
  | .closeOn => some transport.closeOn
  | .cancelled call => some (transport.setCall call none)
  | .message key frame =>
    (transport.sockets key).map fun socket =>
      transport.wake key { socket with frames := socket.frames ++ [frame] }
  | .socketFailed key =>
    (transport.sockets key).map fun socket =>
      (transport.wake key { socket with closed := true }).note (.socketFailed key)
  | .otherOpened => some { transport with nextKey := transport.nextKey + 1 }

/-- The states of a transport after the events. -/
def run (events : List Event) : Option Transport := events.foldlM step initial

end Transport

end KaspaPortal.Platform.Browser
