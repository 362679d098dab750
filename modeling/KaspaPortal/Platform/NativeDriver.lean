import KaspaPortal.Network.Wrpc

/-!
# The native wRPC driver

`src/platform/native/websocket_driver.rs` and the calls of `src/platform/native/websocket.rs`. One
task owns the socket; what it waits for arrives as events, one at each await point, and between two
of them it runs its loop. Its locals are grouped into those about calls and those about
notifications, each with a record of what happened, newest first, which the code does not keep.
Connection attempts that are retried count as one, and a failed receive covers every way in which a
socket ends.
-/
namespace KaspaPortal.Platform.Native
open Lib Network

def MAX_QUEUED_NOTIFICATIONS : Nat := 256
def DRIVER_COMMAND_CAPACITY : Nat := 128

/-- The one-shot channel a command is answered on; every command has its own. -/
abbrev ResponseId := Nat

/-- A connection, by the order in which it was opened. -/
abbrev Connection := Nat

structure QueuedCall where
  operation : Operation
  payload : Bytes
  response : ResponseId
  deriving DecidableEq

inductive DriverCommand where
  | call (call : QueuedCall)
  | nextNotification (response : ResponseId)
  deriving DecidableEq

structure ActiveCall where
  requestId : UInt64
  operation : Operation
  payload : Bytes
  response : ResponseId
  deriving DecidableEq

def ActiveCall.call (active : ActiveCall) : QueuedCall :=
  ⟨active.operation, active.payload, active.response⟩

/-! ## Notifications -/

inductive NotificationEntry where
  | accepted (frame : Bytes)
  | delivered (response : ResponseId) (frame : Bytes)
  | cancelled (response : ResponseId)
  | failed (response : ResponseId) (error : NetworkError)

structure NotificationState where
  queued : List Bytes
  waiters : List ResponseId
  record : List NotificationEntry

section notifications

-- The channels whose receivers have been dropped; sending on one of them fails.
variable (dropped : List ResponseId)

/-- Offers a frame to one waiter after the other. -/
def offer : List ResponseId → Option ResponseId × List ResponseId
  | [] => (none, [])
  | waiter :: rest => if waiter ∈ dropped then offer rest else (some waiter, rest)

def queueOrDeliverNotification (frame : Bytes) (notifications : NotificationState) :
    NotificationState × Except NetworkError Unit :=
  match offer dropped notifications.waiters with
  | (some waiter, rest) =>
    ({ notifications with
      waiters := rest
      record := .delivered waiter frame :: .accepted frame :: notifications.record }, .ok ())
  | (none, rest) =>
    if MAX_QUEUED_NOTIFICATIONS ≤ notifications.queued.length then
      ({ notifications with waiters := rest },
        .error (.unexpectedResponse "Kaspa notification queue capacity exceeded"))
    else
      ({ queued := notifications.queued ++ [frame]
         waiters := rest
         record := .accepted frame :: notifications.record }, .ok ())

/-- The loop over the queued frames. -/
def dispatchFrames : List Bytes → List ResponseId → List NotificationEntry → NotificationState
  | [], waiters, record => ⟨[], waiters, record⟩
  | frame :: rest, [], record => ⟨frame :: rest, [], record⟩
  | frame :: rest, waiter :: waiters, record =>
    match offer dropped (waiter :: waiters) with
    | (some live, others) => dispatchFrames rest others (.delivered live frame :: record)
    | (none, others) => ⟨frame :: rest, others, record⟩

def dispatchQueuedNotifications (notifications : NotificationState) : NotificationState :=
  dispatchFrames dropped notifications.queued notifications.waiters notifications.record

/-- The `NextNotification` command: a queued frame is sent whether or not its receiver is there. -/
def nextNotification (response : ResponseId) (notifications : NotificationState) :
    NotificationState :=
  match notifications.queued with
  | frame :: rest =>
    { notifications with
      queued := rest
      record := if response ∈ dropped then notifications.record
        else .delivered response frame :: notifications.record }
  | [] => { notifications with waiters := notifications.waiters ++ [response] }

end notifications

def failAllNotificationWaiters (error : NetworkError) (notifications : NotificationState) :
    NotificationState :=
  { notifications with
    waiters := []
    record := (notifications.waiters.map (.failed · error)).reverse ++ notifications.record }

/-! ## Calls -/

inductive CallEntry where
  | taken (call : QueuedCall)
  | opened (connection : Connection)
  | closed (connection : Connection)
  | wrote (connection : Connection) (requestId : UInt64) (call : QueuedCall)
  | replayed (connection : Connection) (requestId : UInt64) (payload : Bytes)
  | received (connection : Connection) (frame : Bytes)
  | acknowledged (connection : Connection) (payload : Bytes)
  | timedOut (connection : Connection) (call : QueuedCall)
  | answered (call : QueuedCall) (result : Except NetworkError Bytes)

structure CallState where
  stream : Option Connection
  subscriptions : List Bytes
  queuedCalls : List QueuedCall
  activeCall : Option ActiveCall
  record : List CallEntry

namespace CallState

def note (calls : CallState) (entry : CallEntry) : CallState :=
  { calls with record := entry :: calls.record }

def failActiveCall (error : NetworkError) (calls : CallState) : CallState :=
  match calls.activeCall with
  | some active => { calls with activeCall := none }.note (.answered active.call (.error error))
  | none => calls

def failAllQueuedCalls (error : NetworkError) (calls : CallState) : CallState :=
  { calls with
    queuedCalls := []
    record := (calls.queuedCalls.map (.answered · (.error error))).reverse ++ calls.record }

/-- `stream = None`, which closes the socket. -/
def dropStream (calls : CallState) : CallState :=
  match calls.stream with
  | some connection => { calls with stream := none }.note (.closed connection)
  | none => calls

end CallState

/-- A response, which takes the active call. -/
def handleResponse (connection : Connection) (frame : Bytes) (actual : UInt64)
    (calls : CallState) : CallState × Except NetworkError Unit :=
  match calls.activeCall with
  | none =>
    (calls, .error (.unexpectedResponse
      "unsolicited Kaspa RPC response without an active request"))
  | some active =>
    let calls := { calls with activeCall := none }
    if actual ≠ active.requestId then
      let error := .mismatchedRequestId active.requestId actual
      (calls.note (.answered active.call (.error error)), .error error)
    else
      match validateResponse frame active.requestId active.operation with
      | .ok payload =>
        let answered := calls.note (.answered active.call (.ok payload))
        if active.operation = .subscribe then
          ({ answered with
            subscriptions := if active.payload ∈ calls.subscriptions then calls.subscriptions
              else calls.subscriptions ++ [active.payload]
            record := .acknowledged connection active.payload :: answered.record }, .ok ())
        else (answered, .ok ())
      | .error error => (calls.note (.answered active.call (.error error)), .ok ())

def handleReceivedFrame (dropped : List ResponseId) (connection : Connection) (frame : Bytes)
    (calls : CallState) (notifications : NotificationState) :
    CallState × NotificationState × Except NetworkError Unit :=
  match decodeResponse frame with
  | .error error => (calls, notifications, .error error)
  | .ok decoded =>
    match decoded.id with
    | none =>
      if decoded.kind ≠ .notification then
        (calls, notifications, .error (.unexpectedResponse
          "Kaspa server frame without request id was not marked as a notification"))
      else
        let (notifications, result) := queueOrDeliverNotification dropped frame notifications
        (calls, notifications, result)
    | some actual =>
      let (calls, result) := handleResponse connection frame actual calls
      (calls, notifications, result)

/-! ## The loop -/

/-- Where the driver waits: for a connection, for the request of a subscription to be sent or
acknowledged, for the request of a call to be sent, in one of the two `select!`s, or no more. -/
inductive Phase where
  | connecting
  | replaying (connection : Connection) (requestId : UInt64) (payload : Bytes) (rest : List Bytes)
  | acknowledging (connection : Connection) (requestId : UInt64) (payload : Bytes)
      (rest : List Bytes)
  | sending (connection : Connection) (requestId : UInt64) (call : QueuedCall)
  | selecting
  | stopped

structure System where
  calls : CallState
  notifications : NotificationState
  phase : Phase
  channel : List DriverCommand
  shutdown : Bool
  nextRequestId : UInt64
  connections : Nat
  responses : Nat
  dropped : List ResponseId

namespace System

def initial : System where
  calls := ⟨none, [], [], none, []⟩
  notifications := ⟨[], [], []⟩
  phase := .selecting
  channel := []
  shutdown := false
  nextRequestId := 1
  connections := 0
  responses := 0
  dropped := []

def stop (system : System) : System :=
  let error := .connectionFailed "Kaspa wRPC driver stopped"
  { system with
    calls := ((system.calls.failActiveCall error).failAllQueuedCalls error).dropStream
    notifications := failAllNotificationWaiters error system.notifications
    phase := .stopped }

/-- From the head of the loop when there is no socket. -/
def loopWithoutStream (system : System) : System :=
  if system.shutdown then system.stop
  else
    let notifications := dispatchQueuedNotifications system.dropped system.notifications
    let phase :=
      if system.calls.queuedCalls = [] ∧ notifications.waiters = [] then .selecting else .connecting
    { system with notifications, phase }

/-- The socket is given up, together with the waiters for notifications. -/
def failStream (error : NetworkError) (system : System) : System :=
  loopWithoutStream { system with
    calls := system.calls.dropStream
    notifications := failAllNotificationWaiters error system.notifications }

def startNextQueuedCall (connection : Connection) (system : System) : System :=
  match system.calls.activeCall, system.calls.queuedCalls with
  | none, call :: rest =>
    let requestId := system.nextRequestId
    let popped := { system with
      calls := { system.calls with queuedCalls := rest }
      nextRequestId := requestId + 1 }
    match WrpcRequest.encode ⟨requestId, call.operation, call.payload⟩ with
    | .error error => popped.failStream error
    | .ok _ =>
      { popped with
        calls := popped.calls.note (.wrote connection requestId call)
        phase := .sending connection requestId call }
  | _, _ => { system with phase := .selecting }

/-- From the head of the loop. -/
def loopHead (system : System) : System :=
  match system.calls.stream with
  | none => system.loopWithoutStream
  | some connection =>
    if system.shutdown then system.stop
    else startNextQueuedCall connection { system with
      notifications := dispatchQueuedNotifications system.dropped system.notifications }

/-- `establish_stream` failed. -/
def failEstablishing (error : NetworkError) (system : System) : System :=
  loopWithoutStream { system with
    calls := system.calls.failAllQueuedCalls error
    notifications := failAllNotificationWaiters error system.notifications }

/-- The same, behind an open connection. -/
def failReplay (connection : Connection) (error : NetworkError) (system : System) : System :=
  failEstablishing error { system with calls := system.calls.note (.closed connection) }

/-- The subscriptions that are left to replay on a new connection. -/
def replaySubscriptions (connection : Connection) (system : System) : List Bytes → System
  | [] => startNextQueuedCall connection
      { system with calls := { system.calls with stream := some connection } }
  | payload :: rest =>
    let requestId := system.nextRequestId
    let system := { system with nextRequestId := requestId + 1 }
    match WrpcRequest.encode ⟨requestId, .subscribe, payload⟩ with
    | .error error => system.failReplay connection error
    | .ok _ =>
      { system with
        calls := system.calls.note (.replayed connection requestId payload)
        phase := .replaying connection requestId payload rest }

/-- A frame received while a subscription waits for its acknowledgement. -/
def replayFrame (connection : Connection) (requestId : UInt64) (payload : Bytes)
    (rest : List Bytes) (frame : Bytes) (system : System) : System :=
  let system := { system with calls := system.calls.note (.received connection frame) }
  match decodeResponse frame with
  | .error error => system.failReplay connection error
  | .ok decoded =>
    if decoded.id = none then
      if decoded.kind ≠ .notification then
        system.failReplay connection (.unexpectedResponse
          "Kaspa server message without request id was not a notification")
      else
        let (notifications, result) :=
          queueOrDeliverNotification system.dropped frame system.notifications
        match result with
        | .error error => { system with notifications }.failReplay connection error
        | .ok () => { system with notifications }
    else
      match validateResponse frame requestId .subscribe with
      | .error error => system.failReplay connection error
      | .ok _ =>
        replaySubscriptions connection
          { system with calls := system.calls.note (.acknowledged connection payload) } rest

/-- What the active call and the waiters are told when the socket fails under them. -/
def failSelected (error : NetworkError) (system : System) : System :=
  failStream error { system with calls := system.calls.failActiveCall error }

/-- A frame received in the `select!`. -/
def selectFrame (connection : Connection) (frame : Bytes) (system : System) : System :=
  let (calls, notifications, result) := handleReceivedFrame system.dropped connection frame
    (system.calls.note (.received connection frame)) system.notifications
  let system := { system with calls, notifications }
  match result with
  | .error error => system.failSelected error
  | .ok () => system.loopHead

def handleCommand (command : DriverCommand) (system : System) : System :=
  match command with
  | .call call =>
    { system with
      calls := { system.calls with
        queuedCalls := system.calls.queuedCalls ++ [call]
        record := .taken call :: system.calls.record } }
  | .nextNotification response =>
    { system with
      notifications := nextNotification system.dropped response system.notifications }

/-! ## Events -/

/-- What can happen next: a client queues a command or drops a receiver, another transport takes a
request id, the shutdown is requested, or the await point of the driver is passed. -/
inductive Event where
  | submitCall (operation : Operation) (payload : Bytes)
  | submitNextNotification
  | dropReceiver (response : ResponseId)
  | otherRequest
  | requestShutdown
  | shutdownChanged
  | commandsClosed
  | takeCommand
  | connected
  | connectFailed (error : NetworkError)
  | sent
  | sendFailed
  | frame (bytes : Bytes)
  | receiveFailed (error : NetworkError)
  | deadline

/-- The events that need no await point of the driver. -/
def stepClient (system : System) : Event → Option System
  | .submitCall operation payload =>
    if system.channel.length < DRIVER_COMMAND_CAPACITY then
      some { system with
        channel := system.channel ++ [.call ⟨operation, payload, system.responses⟩]
        responses := system.responses + 1 }
    else none
  | .submitNextNotification =>
    if system.channel.length < DRIVER_COMMAND_CAPACITY then
      some { system with
        channel := system.channel ++ [.nextNotification system.responses]
        responses := system.responses + 1 }
    else none
  | .dropReceiver response =>
    if response < system.responses then
      some { system with
        notifications := { system.notifications with
          record := .cancelled response :: system.notifications.record }
        dropped := response :: system.dropped }
    else none
  | .otherRequest => some { system with nextRequestId := system.nextRequestId + 1 }
  | .requestShutdown => some { system with shutdown := true }
  | _ => none

/-- In a `select!`; without a socket only the shutdown and the commands are waited for. -/
def stepSelecting (system : System) : Event → Option System
  | .shutdownChanged => some system.stop
  | .commandsClosed => if system.channel = [] then some system.stop else none
  | .takeCommand =>
    match system.channel with
    | command :: rest => some (handleCommand command { system with channel := rest }).loopHead
    | [] => none
  | .frame bytes => system.calls.stream.map fun connection => system.selectFrame connection bytes
  | .receiveFailed error => system.calls.stream.map fun _ => system.failSelected error
  | .deadline =>
    match system.calls.stream, system.calls.activeCall with
    | some connection, some active =>
      some (failSelected .responseTimeout
        { system with calls := system.calls.note (.timedOut connection active.call) })
    | _, _ => none
  | _ => none

def stepDriver (system : System) (event : Event) : Option System :=
  match system.phase, event with
  | .connecting, .connected =>
    let connection := system.connections
    some (replaySubscriptions connection
      { system with
        calls := system.calls.note (.opened connection)
        connections := connection + 1 } system.calls.subscriptions)
  | .connecting, .connectFailed error => some (system.failEstablishing error)
  | .replaying connection requestId payload rest, .sent =>
    some { system with phase := .acknowledging connection requestId payload rest }
  | .replaying connection _ _ _, .sendFailed => some (system.failReplay connection .sendFailed)
  | .acknowledging connection requestId payload rest, .frame bytes =>
    some (system.replayFrame connection requestId payload rest bytes)
  | .acknowledging connection _ _ _, .receiveFailed error =>
    some (system.failReplay connection error)
  | .acknowledging connection _ _ _, .deadline =>
    some (system.failReplay connection .responseTimeout)
  | .sending _ requestId call, .sent =>
    some { system with
      calls := { system.calls with
        activeCall := some ⟨requestId, call.operation, call.payload, call.response⟩ }
      phase := .selecting }
  | .sending _ _ call, .sendFailed =>
    some (failStream .sendFailed
      { system with calls := system.calls.note (.answered call (.error .sendFailed)) })
  | .selecting, event => system.stepSelecting event
  | _, _ => none

def step (system : System) (event : Event) : Option System :=
  (system.stepClient event).or (system.stepDriver event)

/-- The states of a driver after the events. -/
def run (events : List Event) : Option System := events.foldlM step initial

end System

/-! ## Calls of the client -/

def reconnectableTransportError : NetworkError → Bool
  | .connectionFailed _ | .connectTimeout | .responseTimeout | .sendFailed => true
  | _ => false

/-- `call_inner`: how many times it runs `call_once`, each of which sends one command at most, and
what it returns. -/
def callInner (operation : Operation) (once : Nat → Except NetworkError Bytes) :
    Nat × Except NetworkError Bytes :=
  match once 0 with
  | .ok value => (1, .ok value)
  | .error error =>
    if operation ≠ .submitTransaction ∧ reconnectableTransportError error then (2, once 1)
    else (1, .error error)

/-- A submission is not run again. -/
theorem callInner_submitTransaction (once : Nat → Except NetworkError Bytes) :
    (callInner .submitTransaction once).1 = 1 := by
  rw [callInner]
  split
  · rfl
  · rw [if_neg fun h => h.1 rfl]

end KaspaPortal.Platform.Native
