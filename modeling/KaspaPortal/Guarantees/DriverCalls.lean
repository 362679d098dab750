import KaspaPortal.Platform.DriverCalls

/-!
# Calls of the native driver

At every await point, whatever came before, the driver holds the calls it has taken and not
answered in one place only; what its loop does from there leaves them so at the next.

Nothing is said about when an answer comes: a socket that stays silent leaves a call open
for as long as it likes.
-/
namespace KaspaPortal.Platform.Native
open Lib Network

/-- The calls that wait in the channel. -/
def DriverCommand.queuedCall : DriverCommand → Option QueuedCall
  | .call queued => some queued
  | .nextNotification _ => none

def offeredCalls (channel : List DriverCommand) : List QueuedCall :=
  channel.filterMap DriverCommand.queuedCall

/-- The state of the calls, together with the calls that are to come. -/
structure Keeps (calls : CallState) (offered : List QueuedCall) (connections responses : Nat)
    (flight : Option QueuedCall) (current : Option Connection) : Prop where
  inv : CallsInv calls flight current connections
  subscriptions : SubscriptionsInv calls
  fresh : ((takenCalls calls.record ++ offered).map QueuedCall.response).Nodup
  given : ∀ call ∈ takenCalls calls.record ++ offered, call.response < responses
  encodes : ∀ call ∈ offered, call.payload.length < 2 ^ 32

/-- The calls are looked after as they were, though not in the same place. -/
theorem Keeps.of_calls {calls calls' : CallState} {offered : List QueuedCall}
    {connections connections' responses : Nat} {flight flight' : Option QueuedCall}
    {current current' : Option Connection}
    (h : Keeps calls offered connections responses flight current)
    (hcalls : CallsInv calls' flight' current' connections')
    (hsubscriptions : SubscriptionsInv calls')
    (htaken : takenCalls calls'.record = takenCalls calls.record) :
    Keeps calls' offered connections' responses flight' current' where
  inv := hcalls
  subscriptions := hsubscriptions
  fresh := by
    rw [htaken]
    exact h.fresh
  given := by
    rw [htaken]
    exact h.given
  encodes := h.encodes

namespace System

/-- At an await point or between two of them. -/
abbrev Kept (system : System) (flight : Option QueuedCall) (current : Option Connection) : Prop :=
  Keeps system.calls (offeredCalls system.channel) system.connections system.responses flight current

/-- A connection is open and these subscriptions are left to acknowledge on it. -/
structure Replays (system : System) (connection : Connection) (left : List Bytes) : Prop where
  kept : system.Kept none (some connection)
  stream : system.calls.stream = none
  acknowledged : ∀ payload ∈ system.calls.subscriptions,
    .acknowledged connection payload ∈ system.calls.record ∨ payload ∈ left

/-- At each await point. -/
def PhaseInv (system : System) : Phase → Prop
  | .connecting => system.Kept none none ∧ system.calls.stream = none
  | .replaying connection requestId payload rest
  | .acknowledging connection requestId payload rest =>
    system.Replays connection (payload :: rest) ∧
      .replayed connection requestId payload ∈ system.calls.record
  | .sending connection requestId call =>
    system.Kept (some call) (some connection) ∧ system.calls.stream = some connection ∧
      system.calls.activeCall = none ∧ .wrote connection requestId call ∈ system.calls.record
  | .selecting => system.Kept none system.calls.stream
  | .stopped => system.Kept none none ∧ pendingCalls system.calls none = []

def Inv (system : System) : Prop := system.PhaseInv system.phase

variable {system : System}

/-! ## Giving a connection up -/

theorem inv_stop (h : system.Kept none system.calls.stream) : system.stop.Inv := by
  rw [stop]
  set error := NetworkError.connectionFailed "Kaspa wRPC driver stopped"
  set failed := (system.calls.failActiveCall error).failAllQueuedCalls error with hfailed
  have hcalls : CallsInv failed none system.calls.stream system.connections :=
    (h.inv.failActiveCall error).failAllQueuedCalls error
  have hdropped : CallsInv failed.dropStream none none system.connections := by
    cases hstream : system.calls.stream with
    | none =>
      have hsame : failed.dropStream = failed := by
        rw [CallState.dropStream, hfailed, stream_failAllQueuedCalls, stream_failActiveCall, hstream]
      rw [hsame, ← hstream]
      exact hcalls
    | some connection =>
      have hopened := (h.inv.current connection hstream).opened
      refine hcalls.dropStream (by simp [hfailed]) (by simpa [hfailed] using hstream) ?_
      exact mem_failAllQueuedCalls _ _ (mem_failActiveCall _ _ hopened)
  refine ⟨h.of_calls hdropped ?_ (by simp [hfailed]), ?_⟩
  · exact ((h.subscriptions.failActiveCall error).failAllQueuedCalls error).dropStream
  · simp [pendingCalls, startedCalls, hfailed]

theorem inv_loopWithoutStream (h : system.Kept none none) (hstream : system.calls.stream = none) :
    system.loopWithoutStream.Inv := by
  rw [loopWithoutStream]
  split
  · refine inv_stop ?_
    rw [hstream]
    exact h
  · rw [Inv]
    dsimp only
    split
    · change Keeps _ _ _ _ none system.calls.stream
      rw [hstream]
      exact h
    · exact ⟨h, hstream⟩

theorem inv_failStream {current : Option Connection} {connection : Connection}
    (h : system.Kept none current) (hactive : system.calls.activeCall = none)
    (hstream : system.calls.stream = some connection)
    (hopened : .opened connection ∈ system.calls.record) (error : NetworkError) :
    (system.failStream error).Inv :=
  inv_loopWithoutStream
    (h.of_calls (h.inv.dropStream hactive hstream hopened) h.subscriptions.dropStream
      (takenCalls_dropStream _))
    (stream_dropStream _)

theorem inv_failSelected {current : Option Connection} {connection : Connection}
    (h : system.Kept none current) (hstream : system.calls.stream = some connection)
    (hopened : .opened connection ∈ system.calls.record) (error : NetworkError) :
    (system.failSelected error).Inv := by
  have hfailed := h.of_calls (h.inv.failActiveCall error) (h.subscriptions.failActiveCall error)
    (takenCalls_failActiveCall _ _)
  refine inv_failStream hfailed (activeCall_failActiveCall _ _) ?_
    (mem_failActiveCall _ _ hopened) error
  exact (stream_failActiveCall _ _).trans hstream

theorem inv_failEstablishing (h : system.Kept none none) (hstream : system.calls.stream = none)
    (error : NetworkError) : (system.failEstablishing error).Inv :=
  inv_loopWithoutStream
    (h.of_calls (h.inv.failAllQueuedCalls error) (h.subscriptions.failAllQueuedCalls error)
      (takenCalls_failAllQueuedCalls _ _))
    hstream

theorem Replays.failReplay {connection : Connection} {left : List Bytes}
    (h : system.Replays connection left) (error : NetworkError) :
    (system.failReplay connection error).Inv := by
  have hopened := (h.kept.inv.current connection rfl).opened
  have hsilent : (CallEntry.closed connection).Silent := trivial
  have hclosed := h.kept.inv.ended hopened hsilent trivial fun _ hother => hother
  rw [System.failReplay]
  refine inv_failEstablishing ?_ ?_ error
  · exact h.kept.of_calls hclosed (h.kept.subscriptions.note (unsubscribed_of_silent hsilent)) rfl
  · exact h.stream

/-! ## The head of the loop -/

/-- A queued call is started when its payload can be encoded. -/
theorem startNextQueuedCall_cases (connection : Connection) (system : System)
    (hencodes : ∀ call ∈ system.calls.queuedCalls, call.payload.length < 2 ^ 32) :
    system.startNextQueuedCall connection = { system with phase := .selecting } ∨
      ∃ call rest, system.calls.activeCall = none ∧ system.calls.queuedCalls = call :: rest ∧
        system.startNextQueuedCall connection =
          { system with
            calls := { system.calls with queuedCalls := rest }.note
              (.wrote connection system.nextRequestId call)
            phase := .sending connection system.nextRequestId call
            nextRequestId := system.nextRequestId + 1 } := by
  rw [startNextQueuedCall]
  split
  case h_1 call rest hactive hqueued =>
    have hlt : call.payload.length < 2 ^ 32 := hencodes call (hqueued ▸ List.mem_cons_self)
    right
    refine ⟨call, rest, hactive, hqueued, ?_⟩
    dsimp only
    rw [WrpcRequest.encode, if_pos hlt]
  case h_2 => exact .inl rfl

theorem inv_startNextQueuedCall {connection : Connection}
    (h : system.Kept none (some connection)) (hstream : system.calls.stream = some connection) :
    (system.startNextQueuedCall connection).Inv := by
  obtain heq | ⟨call, rest, hactive, hqueued, heq⟩ :=
    startNextQueuedCall_cases connection system h.inv.encodes
  · rw [heq]
    change Keeps _ _ _ _ none system.calls.stream
    rw [hstream]
    exact h
  · rw [heq]
    have hwritten := h.inv.write rfl hactive hqueued
      (fun subscription value hanswered hoperation =>
        h.subscriptions.acknowledged connection hstream _
          (h.subscriptions.subscribed subscription value hanswered hoperation))
      system.nextRequestId
    have hpopped : SubscriptionsInv { system.calls with queuedCalls := rest } :=
      ⟨h.subscriptions.subscribed, h.subscriptions.acknowledged⟩
    have hnoted := hpopped.note (unsubscribed_wrote connection system.nextRequestId call)
    exact ⟨h.of_calls hwritten hnoted rfl, hstream, hactive, List.mem_cons_self⟩

theorem inv_loopHead (h : system.Kept none system.calls.stream) : system.loopHead.Inv := by
  rw [loopHead]
  split
  case h_1 hstream =>
    rw [hstream] at h
    exact inv_loopWithoutStream h hstream
  case h_2 connection hstream =>
    split
    case isTrue => exact inv_stop h
    case isFalse =>
      rw [hstream] at h
      exact inv_startNextQueuedCall h hstream

/-! ## Replaying the subscriptions -/

theorem Replays.replaySubscriptions {connection : Connection} {left : List Bytes}
    (h : system.Replays connection left) :
    (system.replaySubscriptions connection left).Inv := by
  cases left with
  | nil =>
    have hconnected := h.kept.inv.connect h.stream connection
    refine inv_startNextQueuedCall (h.kept.of_calls hconnected ?_ rfl) rfl
    refine ⟨h.kept.subscriptions.subscribed, fun other hother payload hmem => ?_⟩
    cases hother
    exact (h.acknowledged payload hmem).resolve_right List.not_mem_nil
  | cons payload rest =>
    rw [System.replaySubscriptions]
    dsimp only
    split
    case h_1 error _ =>
      have hcounted : Replays { system with nextRequestId := system.nextRequestId + 1 } connection
          (payload :: rest) := ⟨h.kept, h.stream, h.acknowledged⟩
      exact hcounted.failReplay error
    case h_2 =>
      have hsilent : (CallEntry.replayed connection system.nextRequestId payload).Silent := trivial
      have hnoted := h.kept.inv.note_open hsilent trivial id
      refine ⟨⟨h.kept.of_calls hnoted ?_ rfl, h.stream, fun other hmem => ?_⟩, List.mem_cons_self⟩
      · exact h.kept.subscriptions.note (unsubscribed_of_silent hsilent)
      · exact (h.acknowledged other hmem).imp_left (List.mem_cons_of_mem _)

theorem Replays.notify {connection : Connection} {left : List Bytes}
    (h : system.Replays connection left) (notifications : NotificationState) :
    Replays { system with notifications } connection left :=
  ⟨h.kept, h.stream, h.acknowledged⟩

/-- A frame received on the new connection leaves as much to replay as before. -/
theorem Replays.received {connection : Connection} {left : List Bytes}
    (h : system.Replays connection left) (frame : Bytes) :
    Replays { system with calls := system.calls.note (.received connection frame) } connection
      left := by
  have hsilent : (CallEntry.received connection frame).Silent := trivial
  have hnoted := h.kept.inv.note_open hsilent (h.kept.inv.current connection rfl) id
  refine ⟨h.kept.of_calls hnoted ?_ rfl, h.stream, fun other hmem => ?_⟩
  · exact h.kept.subscriptions.note (unsubscribed_of_silent hsilent)
  · exact (h.acknowledged other hmem).imp_left (List.mem_cons_of_mem _)

/-- The first of the subscriptions left is acknowledged. -/
theorem Replays.acknowledge {connection : Connection} {requestId : UInt64} {payload frame : Bytes}
    {rest : List Bytes} {value : Bytes} (h : system.Replays connection (payload :: rest))
    (hreplayed : .replayed connection requestId payload ∈ system.calls.record)
    (hreceived : .received connection frame ∈ system.calls.record)
    (hvalid : validateResponse frame requestId .subscribe = .ok value) :
    Replays { system with calls := system.calls.note (.acknowledged connection payload) } connection
      rest := by
  have hsilent : (CallEntry.acknowledged connection payload).Silent := trivial
  have hnoted := h.kept.inv.note_open hsilent
    ⟨requestId, frame, value, hreceived, .inl hreplayed, hvalid⟩ id
  refine ⟨h.kept.of_calls hnoted ?_ rfl, h.stream, fun other hmem => ?_⟩
  · exact h.kept.subscriptions.note (unsubscribed_of_silent hsilent)
  · obtain hacknowledged | hleft := h.acknowledged other hmem
    · exact .inl (List.mem_cons_of_mem _ hacknowledged)
    · obtain rfl | hleft := List.mem_cons.mp hleft
      · exact .inl List.mem_cons_self
      · exact .inr hleft

theorem inv_replayFrame {connection : Connection} {requestId : UInt64} {payload : Bytes}
    {rest : List Bytes} (hphase : system.phase = .acknowledging connection requestId payload rest)
    (h : system.Replays connection (payload :: rest))
    (hreplayed : .replayed connection requestId payload ∈ system.calls.record) (frame : Bytes) :
    (system.replayFrame connection requestId payload rest frame).Inv := by
  have hreceived := h.received frame
  have hreplayed' := List.mem_cons_of_mem (.received connection frame) hreplayed
  rw [replayFrame]
  dsimp only
  split
  case h_1 error _ => exact hreceived.failReplay error
  case h_2 decoded _ =>
    split
    case isTrue =>
      split
      case isTrue => exact hreceived.failReplay _
      case isFalse =>
        split
        case h_1 error _ =>
          exact (hreceived.notify _).failReplay error
        case h_2 =>
          rw [Inv]
          dsimp only
          rw [hphase]
          exact ⟨⟨hreceived.kept, hreceived.stream, hreceived.acknowledged⟩, hreplayed'⟩
    case isFalse =>
      split
      case h_1 error _ => exact hreceived.failReplay error
      case h_2 value hvalid =>
        exact (hreceived.acknowledge hreplayed' List.mem_cons_self hvalid).replaySubscriptions

/-! ## Waiting for a frame -/

theorem handleReceivedFrame_calls (dropped : List ResponseId) (connection : Connection)
    (frame : Bytes) (calls : CallState) (notifications : NotificationState) :
    (handleReceivedFrame dropped connection frame calls notifications).1 = calls ∨
      ∃ actual, (handleReceivedFrame dropped connection frame calls notifications).1 =
        (handleResponse connection frame actual calls).1 := by
  rw [handleReceivedFrame]
  split
  case h_1 => exact .inl rfl
  case h_2 decoded _ =>
    split
    case h_1 => split <;> exact .inl rfl
    case h_2 actual _ => exact .inr ⟨actual, rfl⟩

theorem inv_selectFrame {connection : Connection} (h : system.Kept none (some connection))
    (hstream : system.calls.stream = some connection) (frame : Bytes) :
    (system.selectFrame connection frame).Inv := by
  have hsilent : (CallEntry.received connection frame).Silent := trivial
  have hcalls := h.inv.note_open hsilent (h.inv.current connection rfl) id
  have hsubscriptions := h.subscriptions.note (unsubscribed_of_silent hsilent)
  set received := system.calls.note (.received connection frame)
  set handled := (handleReceivedFrame system.dropped connection frame received
    system.notifications).1 with hhandled
  have hkept : Keeps handled (offeredCalls system.channel) system.connections system.responses none
      (some connection) ∧ handled.stream = some connection := by
    obtain heq | ⟨actual, heq⟩ := handleReceivedFrame_calls system.dropped connection frame received
      system.notifications
    · rw [hhandled, heq]
      exact ⟨h.of_calls hcalls hsubscriptions rfl, hstream⟩
    · obtain ⟨hsame, htaken⟩ := handleResponse_frame received actual
      rw [hhandled, heq]
      refine ⟨h.of_calls (hcalls.handleResponse hstream rfl actual)
        (hsubscriptions.handleResponse hstream actual) htaken, hsame.trans hstream⟩
  obtain ⟨hkept, hsame⟩ := hkept
  rw [selectFrame]
  dsimp only
  split
  case h_1 error _ =>
    exact inv_failSelected hkept hsame (hkept.inv.current connection rfl).opened error
  case h_2 =>
    refine inv_loopHead ?_
    change Keeps handled _ _ _ none handled.stream
    rw [hsame]
    exact hkept

/-! ## One step -/

theorem offeredCalls_append (channel : List DriverCommand) (command : DriverCommand) :
    offeredCalls (channel ++ [command]) = offeredCalls channel ++ command.queuedCall.toList := by
  rw [offeredCalls, List.filterMap_append]
  cases command <;> rfl

/-- A command taken by the driver, which the channel no longer offers. -/
theorem inv_handleCommand {command : DriverCommand} {rest : List DriverCommand}
    (h : system.Kept none system.calls.stream) (hchannel : system.channel = command :: rest) :
    (handleCommand command { system with channel := rest }).loopHead.Inv := by
  refine inv_loopHead ?_
  cases command with
  | nextNotification response =>
    have hoffered : offeredCalls system.channel = offeredCalls rest := by rw [hchannel]; rfl
    change Keeps system.calls (offeredCalls rest) _ _ none system.calls.stream
    rw [← hoffered]
    exact h
  | call call =>
    have hoffered : offeredCalls system.channel = call :: offeredCalls rest := by rw [hchannel]; rfl
    have hmoved : (takenCalls system.calls.record ++ call :: offeredCalls rest).Perm
        (call :: (takenCalls system.calls.record ++ offeredCalls rest)) := List.perm_middle
    have hfresh := h.fresh
    have hgiven := h.given
    have hencodes := h.encodes
    rw [hoffered] at hfresh hgiven hencodes
    have hnew : call ∉ takenCalls system.calls.record := by
      intro hmem
      have hnodup := ((hmoved.map QueuedCall.response).nodup_iff.mp hfresh)
      exact (List.nodup_cons.mp hnodup).1
        (List.mem_map_of_mem (List.mem_append_left _ hmem))
    exact
      { inv := h.inv.take hnew (hencodes call List.mem_cons_self)
        subscriptions := ⟨fun other value hmem => h.subscriptions.subscribed other value
            ((List.mem_cons.mp hmem).resolve_left (by simp)),
          fun connection hstream payload hmem => List.mem_cons_of_mem _
            (h.subscriptions.acknowledged connection hstream payload hmem)⟩
        fresh := (hmoved.map QueuedCall.response).nodup_iff.mp hfresh
        given := fun other hmem => hgiven other (hmoved.mem_iff.mpr hmem)
        encodes := fun other hmem => hencodes other (List.mem_cons_of_mem _ hmem) }

theorem inv_stepSelecting {after : System} {event : Event}
    (h : system.Kept none system.calls.stream) (hstep : system.stepSelecting event = some after) :
    after.Inv := by
  cases event with
  | shutdownChanged =>
    cases hstep
    exact inv_stop h
  | commandsClosed =>
    rw [stepSelecting] at hstep
    split at hstep
    · cases hstep
      exact inv_stop h
    · cases hstep
  | takeCommand =>
    rw [stepSelecting] at hstep
    split at hstep
    case h_1 command rest hchannel =>
      cases hstep
      exact inv_handleCommand h hchannel
    case h_2 => cases hstep
  | frame bytes =>
    rw [stepSelecting] at hstep
    obtain ⟨connection, hstream, rfl⟩ := Option.map_eq_some_iff.mp hstep
    exact inv_selectFrame (hstream ▸ h) hstream bytes
  | receiveFailed error =>
    rw [stepSelecting] at hstep
    obtain ⟨connection, hstream, rfl⟩ := Option.map_eq_some_iff.mp hstep
    exact inv_failSelected h hstream (h.inv.current connection hstream).opened error
  | deadline =>
    rw [stepSelecting] at hstep
    split at hstep
    case h_1 connection active hstream hactive =>
      cases hstep
      have hsilent : (CallEntry.timedOut connection active.call).Silent := trivial
      have hopened := (h.inv.current connection hstream).opened
      have hcalls := h.inv.ended hopened hsilent trivial fun _ hother => hother
      have hsubscriptions := h.subscriptions.note (unsubscribed_of_silent hsilent)
      refine @inv_failSelected _ none connection ?_ ?_ ?_ .responseTimeout
      · exact h.of_calls hcalls hsubscriptions rfl
      · exact hstream
      · exact List.mem_cons_of_mem _ hopened
    case h_2 => cases hstep
  | _ => cases hstep

theorem inv_stepDriver {after : System} {event : Event} (h : system.Inv)
    (hstep : system.stepDriver event = some after) : after.Inv := by
  -- the phase says which form the invariant takes, so the cases are those of the phase
  rw [Inv] at h
  rw [stepDriver.eq_def] at hstep
  split at hstep
  case h_1 hphase =>
    cases hstep
    rw [hphase] at h
    obtain ⟨hkept, hstream⟩ := h
    refine Replays.replaySubscriptions ⟨hkept.of_calls hkept.inv.opened ?_ rfl, hstream, ?_⟩
    · have hsilent : (CallEntry.opened system.connections).Silent := trivial
      exact hkept.subscriptions.note (unsubscribed_of_silent hsilent)
    · exact fun payload hmem => .inr hmem
  case h_2 error hphase =>
    cases hstep
    rw [hphase] at h
    exact inv_failEstablishing h.1 h.2 error
  case h_3 connection requestId payload rest hphase =>
    cases hstep
    rw [hphase] at h
    exact ⟨⟨h.1.kept, h.1.stream, h.1.acknowledged⟩, h.2⟩
  case h_4 hphase =>
    cases hstep
    rw [hphase] at h
    exact h.1.failReplay .sendFailed
  case h_5 bytes hphase =>
    cases hstep
    rw [hphase] at h
    exact inv_replayFrame hphase h.1 h.2 bytes
  case h_6 error hphase =>
    cases hstep
    rw [hphase] at h
    exact h.1.failReplay error
  case h_7 hphase =>
    cases hstep
    rw [hphase] at h
    exact h.1.failReplay .responseTimeout
  case h_8 connection requestId call hphase =>
    cases hstep
    rw [hphase] at h
    obtain ⟨hkept, hstream, hactive, hwrote⟩ := h
    have hcalls := hkept.inv.sent hactive hstream hwrote
    have hsubscriptions := hkept.subscriptions
    change Keeps _ _ _ _ none system.calls.stream
    rw [hstream]
    exact hkept.of_calls hcalls ⟨hsubscriptions.subscribed, hsubscriptions.acknowledged⟩ rfl
  case h_9 connection requestId call hphase =>
    cases hstep
    rw [hphase] at h
    obtain ⟨hkept, hstream, hactive, -⟩ := h
    have hstarted : startedCalls system.calls (some call) = [call] := by
      rw [startedCalls, hactive]
      rfl
    have hopened := (hkept.inv.current connection rfl).opened
    have hjustified : Justified (.answered call (.error .sendFailed)) system.calls.record := trivial
    have hcalls := hkept.inv.answerStarted hstarted hjustified
    have hsame : { system.calls with activeCall := none } = system.calls := by rw [← hactive]
    rw [hsame] at hcalls
    have hsubscriptions := hkept.subscriptions.note (unsubscribed_error call .sendFailed)
    refine @inv_failStream _ (some connection) connection ?_ ?_ ?_ ?_ .sendFailed
    · exact hkept.of_calls hcalls hsubscriptions rfl
    · exact hactive
    · exact hstream
    · exact List.mem_cons_of_mem _ hopened
  case h_10 hphase =>
    rw [hphase] at h
    exact inv_stepSelecting h hstep
  case h_11 => cases hstep

/-- What is kept of the calls is all the invariant asks for, besides the phase. -/
theorem Inv.of_kept {after : System} (h : system.Inv) (hphase : after.phase = system.phase)
    (hcalls : after.calls = system.calls)
    (hkept : ∀ {flight current}, system.Kept flight current → after.Kept flight current) :
    after.Inv := by
  have hreplays {connection : Connection} {left : List Bytes}
      (hleft : system.Replays connection left) : after.Replays connection left :=
    ⟨hkept hleft.kept, hcalls ▸ hleft.stream, hcalls ▸ hleft.acknowledged⟩
  rw [Inv] at h ⊢
  rw [hphase]
  generalize system.phase = phase at h ⊢
  cases phase with
  | connecting => exact ⟨hkept h.1, hcalls ▸ h.2⟩
  | replaying => exact ⟨hreplays h.1, hcalls ▸ h.2⟩
  | acknowledging => exact ⟨hreplays h.1, hcalls ▸ h.2⟩
  | sending =>
    obtain ⟨hsending, hrest⟩ := h
    exact ⟨hkept hsending, hcalls ▸ hrest⟩
  | selecting =>
    change after.Kept none after.calls.stream
    rw [hcalls]
    exact hkept h
  | stopped => exact ⟨hkept h.1, hcalls ▸ h.2⟩

/-- A command is offered under a response that no call has. -/
theorem Kept.offer {flight : Option QueuedCall} {current : Option Connection}
    (h : system.Kept flight current) {command : DriverCommand}
    (hcommand : ∀ call ∈ command.queuedCall,
      call.response = system.responses ∧ call.payload.length < 2 ^ 32) :
    Kept { system with
      channel := system.channel ++ [command]
      responses := system.responses + 1 } flight current := by
  have hlt (call : QueuedCall)
      (hmem : call ∈ takenCalls system.calls.record ++ offeredCalls system.channel) :
      call.response < system.responses + 1 := Nat.lt_succ_of_lt (h.given call hmem)
  change Keeps system.calls (offeredCalls (system.channel ++ [command])) _ _ _ _
  rw [offeredCalls_append]
  cases hqueued : command.queuedCall with
  | none =>
    rw [Option.toList_none, List.append_nil]
    exact ⟨h.inv, h.subscriptions, h.fresh, hlt, h.encodes⟩
  | some call =>
    obtain ⟨hresponse, hencodes⟩ := hcommand call hqueued
    rw [Option.toList_some]
    refine ⟨h.inv, h.subscriptions, ?_, ?_, ?_⟩
    · rw [← List.append_assoc, List.map_append, List.map_singleton, List.nodup_append_comm]
      refine List.nodup_cons.mpr ⟨fun hmem => ?_, h.fresh⟩
      obtain ⟨other, hother, hsame⟩ := List.mem_map.mp hmem
      exact absurd (hsame.trans hresponse) (Nat.ne_of_lt (h.given other hother))
    · intro other hmem
      rw [← List.append_assoc] at hmem
      obtain hmem | hmem := List.mem_append.mp hmem
      · exact hlt other hmem
      · rw [List.mem_singleton.mp hmem, hresponse]
        exact Nat.lt_succ_self _
    · intro other hmem
      obtain hmem | hmem := List.mem_append.mp hmem
      · exact h.encodes other hmem
      · rw [List.mem_singleton.mp hmem]
        exact hencodes

/-- The payloads of the calls submitted are accepted by the encoding of requests. -/
def Event.Encodes : Event → Prop
  | .submitCall operation payload =>
    ∃ requestId bytes, WrpcRequest.encode ⟨requestId, operation, payload⟩ = .ok bytes
  | _ => True

theorem length_lt_of_encode {request : WrpcRequest} {bytes : Bytes}
    (h : request.encode = .ok bytes) : request.payload.length < 2 ^ 32 := by
  rw [WrpcRequest.encode] at h
  split at h
  · assumption
  · cases h

theorem inv_stepClient {after : System} {event : Event} (h : system.Inv) (hencodes : event.Encodes)
    (hstep : system.stepClient event = some after) : after.Inv := by
  cases event with
  | submitCall operation payload =>
    rw [stepClient] at hstep
    split at hstep
    · cases hstep
      obtain ⟨requestId, bytes, hbytes⟩ := hencodes
      refine h.of_kept rfl rfl fun hkept => hkept.offer fun call hcall => ?_
      cases hcall
      exact ⟨rfl, length_lt_of_encode hbytes⟩
    · cases hstep
  | submitNextNotification =>
    rw [stepClient] at hstep
    split at hstep
    · cases hstep
      exact h.of_kept rfl rfl fun hkept => hkept.offer fun call hcall => by cases hcall
    · cases hstep
  | dropReceiver response =>
    rw [stepClient] at hstep
    split at hstep
    · cases hstep
      exact h.of_kept rfl rfl id
    · cases hstep
  | otherRequest =>
    cases hstep
    exact h.of_kept rfl rfl id
  | requestShutdown =>
    cases hstep
    exact h.of_kept rfl rfl id
  | _ => cases hstep

theorem inv_step {after : System} {event : Event} (h : system.Inv) (hencodes : event.Encodes)
    (hstep : system.step event = some after) : after.Inv := by
  rw [step, Option.or_eq_some_iff] at hstep
  obtain hclient | ⟨-, hdriver⟩ := hstep
  · exact inv_stepClient h hencodes hclient
  · exact inv_stepDriver h hdriver

theorem inv_initial : initial.Inv where
  inv :=
    { accounted := .nil
      nodup := List.nodup_nil
      explained := trivial
      encodes := by simp [initial]
      written := by simp [initial, writtenCalls]
      active := by simp [initial]
      current := by simp [initial]
      numbered := by simp [initial] }
  subscriptions := ⟨by simp [initial], by simp [initial]⟩
  fresh := List.nodup_nil
  given := by simp [initial, takenCalls, offeredCalls]
  encodes := by simp [initial, offeredCalls]

theorem inv_run {after : System} {events : List Event} (hencodes : ∀ event ∈ events, event.Encodes)
    (hrun : run events = some after) : after.Inv :=
  (Along.of_forall hencodes initial).invariant
    (fun _ _ _ h hevent hstep => inv_step h hevent hstep) inv_initial hrun

/-! ## What holds at every await point -/

/-- The call whose request is being sent. -/
def flight (system : System) : Option QueuedCall :=
  match system.phase with
  | .sending _ _ call => some call
  | _ => none

theorem Inv.kept (h : system.Inv) : ∃ current, system.Kept system.flight current := by
  rw [Inv] at h
  rw [flight]
  generalize system.phase = phase at h ⊢
  cases phase with
  | connecting => exact ⟨none, h.1⟩
  | replaying connection => exact ⟨some connection, h.1.kept⟩
  | acknowledging connection => exact ⟨some connection, h.1.kept⟩
  | sending connection => exact ⟨some connection, h.1⟩
  | selecting => exact ⟨system.calls.stream, h⟩
  | stopped => exact ⟨none, h.1⟩

theorem Inv.pending_of_stopped (h : system.Inv) (hstopped : system.phase = .stopped) :
    pendingCalls system.calls system.flight = [] := by
  rw [Inv, hstopped] at h
  rw [flight, hstopped]
  exact h.2

theorem loopWithoutStream_of_shutdown (h : system.shutdown = true) :
    system.loopWithoutStream = system.stop := by
  rw [loopWithoutStream, if_pos h]

/-- The shutdown is requested and then the driver waits no longer. -/
theorem foldlM_shutdown {event : Event} {after : System}
    (hclient : stepClient { system with shutdown := true } event = none)
    (hstep : stepDriver { system with shutdown := true } event = some after) :
    [.requestShutdown, event].foldlM step system = some after := by
  have hlast : step { system with shutdown := true } event = some after := by
    rw [step, hclient, Option.none_or]
    exact hstep
  change (step { system with shutdown := true } event >>= pure) = some after
  rw [hlast]
  rfl

/-- From any await point the driver can be stopped. -/
theorem exists_stopped (system : System) : ∃ (events : List Event) (after : System),
    events.foldlM step system = some after ∧ after.phase = .stopped := by
  have hstops {failed : System} (hshutdown : failed.shutdown = true) :
      failed.loopWithoutStream.phase = .stopped := by
    rw [loopWithoutStream_of_shutdown hshutdown]
    rfl
  have hphase : ({ system with shutdown := true } : System).phase = system.phase := rfl
  cases hcase : system.phase with
  | connecting =>
    have hstep : stepDriver { system with shutdown := true } (.connectFailed .connectTimeout) =
        some (failEstablishing .connectTimeout { system with shutdown := true }) := by
      rw [stepDriver.eq_def, hphase, hcase]
    exact ⟨_, _, foldlM_shutdown rfl hstep, hstops rfl⟩
  | replaying connection requestId payload rest =>
    have hstep : stepDriver { system with shutdown := true } .sendFailed =
        some (failReplay connection .sendFailed { system with shutdown := true }) := by
      rw [stepDriver.eq_def, hphase, hcase]
    exact ⟨_, _, foldlM_shutdown rfl hstep, hstops rfl⟩
  | acknowledging connection requestId payload rest =>
    have hstep : stepDriver { system with shutdown := true } .deadline =
        some (failReplay connection .responseTimeout { system with shutdown := true }) := by
      rw [stepDriver.eq_def, hphase, hcase]
    exact ⟨_, _, foldlM_shutdown rfl hstep, hstops rfl⟩
  | sending connection requestId call =>
    have hstep : stepDriver { system with shutdown := true } .sendFailed =
        some (failStream .sendFailed { system with
          shutdown := true
          calls := system.calls.note (.answered call (.error .sendFailed)) }) := by
      rw [stepDriver.eq_def, hphase, hcase]
    exact ⟨_, _, foldlM_shutdown rfl hstep, hstops rfl⟩
  | selecting =>
    have hstep : stepDriver { system with shutdown := true } .shutdownChanged =
        some (stop { system with shutdown := true }) := by
      rw [stepDriver.eq_def, hphase, hcase]
      rfl
    exact ⟨_, _, foldlM_shutdown rfl hstep, rfl⟩
  | stopped => exact ⟨[], system, rfl, hcase⟩

/-! ## Requests written -/

/-- Of the calls with one response at most one is written. -/
theorem Inv.written_once (h : system.Inv) {commands : List ResponseId}
    (hcommands : commands.length ≤ 1) :
    ((writtenCalls system.calls.record).filter (·.response ∈ commands)).length ≤ 1 := by
  obtain ⟨current, hkept⟩ := h.kept
  have htaken : ∀ call ∈ writtenCalls system.calls.record, call ∈ takenCalls system.calls.record := by
    intro call hcall
    obtain hanswered | hstarted := hkept.inv.written call hcall
    · exact hkept.inv.accounted.mem_iff.mp (List.mem_append_left _ hanswered)
    · exact hkept.inv.mem_taken (List.mem_append_left _ hstarted)
  have hresponses : ((takenCalls system.calls.record).map QueuedCall.response).Nodup := by
    have hfresh := hkept.fresh
    rw [List.map_append] at hfresh
    exact hfresh.of_append_left
  set calls := (writtenCalls system.calls.record).filter (·.response ∈ commands) with hcalls
  have hmem (call : QueuedCall) (hcall : call ∈ calls) :
      call ∈ writtenCalls system.calls.record ∧ call.response ∈ commands := by
    simpa [hcalls] using hcall
  have hnodup : (calls.map QueuedCall.response).Nodup := by
    refine ((nodup_writtenCalls hkept.inv.explained).filter _).map_on fun a ha b hb hsame => ?_
    exact List.inj_on_of_nodup_map hresponses (htaken a (hmem a ha).1) (htaken b (hmem b hb).1) hsame
  cases commands with
  | nil =>
    rw [List.eq_nil_iff_forall_not_mem.mpr fun call hcall => List.not_mem_nil (hmem call hcall).2]
    exact Nat.zero_le _
  | cons response rest =>
    have hone : response :: rest = [response] := by
      rw [List.length_eq_zero_iff.mp (Nat.le_zero.mp (Nat.le_of_succ_le_succ hcommands))]
    have hreplicate : calls.map QueuedCall.response = List.replicate calls.length response := by
      refine List.eq_replicate_iff.mpr ⟨List.length_map _, fun other hother => ?_⟩
      obtain ⟨call, hcall, rfl⟩ := List.mem_map.mp hother
      exact List.mem_singleton.mp (hone ▸ (hmem call hcall).2)
    rw [hreplicate] at hnodup
    exact List.nodup_replicate.mp hnodup

end System

end KaspaPortal.Platform.Native

namespace KaspaPortal.Guarantees
open Lib Network Platform Native

/-- Whatever happens in whatever order, each call the driver takes is answered once or held in one
place, and can still be answered; at most one is started. What is written, received, acknowledged
and answered has its reason in what came before. The requests of a submission are written once. -/
theorem driver_calls {events : List System.Event} {s : System}
    (hencodes : ∀ event ∈ events, event.Encodes) (hrun : System.run events = some s) :
    (∀ call ∈ takenCalls s.calls.record,
      (answeredCalls s.calls.record).count call +
        (pendingCalls s.calls s.flight).count call = 1) ∧
    (∀ call ∈ answeredCalls s.calls.record, call ∈ takenCalls s.calls.record) ∧
    (s.phase = .stopped → pendingCalls s.calls s.flight = []) ∧
    (∃ (more : List System.Event) (after : System),
      more.foldlM System.step s = some after ∧ after.phase = .stopped) ∧
    (startedCalls s.calls s.flight).length ≤ 1 ∧
    (∀ entry past, entry :: past <:+ s.calls.record → Justified entry past) ∧
    ∀ (once : Nat → Except NetworkError Bytes) (commands : List ResponseId),
      commands.length ≤ (callInner .submitTransaction once).1 →
      ((writtenCalls s.calls.record).filter (·.response ∈ commands)).length ≤ 1 := by
  have hinv := System.inv_run hencodes hrun
  obtain ⟨current, hkept⟩ := hinv.kept
  have hcalls := hkept.inv
  refine ⟨fun call hcall => ?_, fun call hcall => ?_, hinv.pending_of_stopped, s.exists_stopped, ?_,
    fun entry past => hcalls.explained.of_suffix, fun once commands hcommands => ?_⟩
  · rw [← List.count_append, hcalls.accounted.count_eq]
    exact List.count_eq_one_of_mem hcalls.nodup hcall
  · exact hcalls.accounted.mem_iff.mp (List.mem_append_left _ hcall)
  · exact hcalls.length_startedCalls
  · exact hinv.written_once (hcommands.trans (callInner_submitTransaction once).le)

namespace DriverCalls

/-- A call over a fresh connection, with its success. -/
def sampleEvents : List System.Event :=
  [.submitCall .getBlock [7], .takeCommand, .connected, .sent,
    .frame ([1, 1, 0, 0, 0, 0, 0, 0, 0, 0, 1, 126] ++ [9])]

end DriverCalls

open DriverCalls in
theorem driver_calls_sample : ∃ s, System.run sampleEvents = some s ∧
    takenCalls s.calls.record = [⟨.getBlock, [7], 0⟩] ∧ pendingCalls s.calls s.flight = [] ∧
    ∀ call ∈ takenCalls s.calls.record,
      (answeredCalls s.calls.record).count call + (pendingCalls s.calls s.flight).count call = 1 := by
  have hencodes : ∀ event ∈ sampleEvents, event.Encodes := by
    simp only [sampleEvents, List.forall_mem_cons]
    exact ⟨⟨0, _, rfl⟩, trivial, trivial, trivial, trivial, by simp⟩
  exact ⟨_, rfl, rfl, rfl, (driver_calls hencodes rfl).1⟩

end KaspaPortal.Guarantees
