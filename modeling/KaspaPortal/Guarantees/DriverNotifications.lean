import KaspaPortal.Lib.Runs
import KaspaPortal.Platform.NativeDriver

/-!
# Notifications of the native driver

Frames and waiters never queue at the same time, so frames leave in the order they came. A frame
leaves for a receiver that is there, but for one command, which does not look.

What the receiver does with a frame is not modelled, and frames that the socket never delivers
are not missed.
-/
namespace KaspaPortal.Platform.Native
open Lib Network

/-- What an entry of the record says of frames. -/
def NotificationEntry.acceptedFrame : NotificationEntry → Option Bytes
  | .accepted frame => some frame
  | _ => none

def NotificationEntry.deliveredFrame : NotificationEntry → Option Bytes
  | .delivered _ frame => some frame
  | _ => none

/-- In the order of their arrival. -/
def acceptedFrames (record : List NotificationEntry) : List Bytes :=
  (record.filterMap NotificationEntry.acceptedFrame).reverse

/-- In the order in which live receivers got them. -/
def deliveredFrames (record : List NotificationEntry) : List Bytes :=
  (record.filterMap NotificationEntry.deliveredFrame).reverse

/-- A frame is delivered to a receiver that has not been dropped. -/
def LiveReceiver : NotificationEntry → List NotificationEntry → Prop
  | .delivered response _, past => .cancelled response ∉ past
  | _, _ => True

@[simp] theorem acceptedFrames_accepted (frame : Bytes) (record : List NotificationEntry) :
    acceptedFrames (.accepted frame :: record) = acceptedFrames record ++ [frame] :=
  List.reverse_cons

@[simp] theorem deliveredFrames_delivered (response : ResponseId) (frame : Bytes)
    (record : List NotificationEntry) :
    deliveredFrames (.delivered response frame :: record) = deliveredFrames record ++ [frame] :=
  List.reverse_cons

@[simp] theorem acceptedFrames_delivered (response : ResponseId) (frame : Bytes)
    (record : List NotificationEntry) :
    acceptedFrames (.delivered response frame :: record) = acceptedFrames record := rfl

@[simp] theorem deliveredFrames_accepted (frame : Bytes) (record : List NotificationEntry) :
    deliveredFrames (.accepted frame :: record) = deliveredFrames record := rfl

/-- What the driver keeps about its notifications. -/
structure NotificationsInv (dropped : List ResponseId) (notifications : NotificationState) :
    Prop where
  exclusive : notifications.queued = [] ∨ notifications.waiters = []
  accounted : acceptedFrames notifications.record =
    deliveredFrames notifications.record ++ notifications.queued
  live : Explained LiveReceiver notifications.record
  cancelled : ∀ response, .cancelled response ∈ notifications.record → response ∈ dropped

namespace NotificationsInv

variable {dropped : List ResponseId} {notifications : NotificationState}

/-- A frame is offered in vain only when no waiter is left. -/
theorem offer_spec (dropped : List ResponseId) (waiters : List ResponseId) :
    (∃ waiter rest, offer dropped waiters = (some waiter, rest) ∧ waiter ∉ dropped ∧
      waiters ≠ []) ∨ offer dropped waiters = (none, []) := by
  induction waiters with
  | nil => exact .inr rfl
  | cons waiter rest ih =>
    rw [offer]
    split
    case isTrue =>
      refine ih.imp_left fun h => ?_
      obtain ⟨live, others, heq, hlive, -⟩ := h
      exact ⟨live, others, heq, hlive, List.cons_ne_nil _ _⟩
    case isFalse hlive => exact .inl ⟨waiter, rest, rfl, hlive, List.cons_ne_nil _ _⟩

/-- A response that was not dropped is not recorded as cancelled. -/
theorem not_cancelled (h : NotificationsInv dropped notifications) {response : ResponseId}
    (hlive : response ∉ dropped) : .cancelled response ∉ notifications.record :=
  fun hmem => hlive (h.cancelled response hmem)

/-- A frame goes to the first response that waits, or into the queue. -/
theorem queueOrDeliver (h : NotificationsInv dropped notifications) (frame : Bytes) :
    NotificationsInv dropped (queueOrDeliverNotification dropped frame notifications).1 := by
  rw [queueOrDeliverNotification]
  obtain ⟨waiter, rest, heq, hlive, hwaiters⟩ | heq := offer_spec dropped notifications.waiters
  · have hqueued := h.exclusive.resolve_right hwaiters
    rw [heq]
    refine ⟨.inl hqueued, ?_, ⟨?_, trivial, h.live⟩, ?_⟩
    · simp only [acceptedFrames_delivered, acceptedFrames_accepted, deliveredFrames_delivered,
        deliveredFrames_accepted, h.accounted, hqueued, List.append_nil]
    · exact List.not_mem_cons_of_ne_of_not_mem (by simp) (h.not_cancelled hlive)
    · intro response hmem
      refine h.cancelled response ?_
      simpa using hmem
  · rw [heq]
    dsimp only
    split
    case isTrue => exact ⟨.inr rfl, h.accounted, h.live, h.cancelled⟩
    case isFalse =>
      refine ⟨.inr rfl, ?_, ⟨trivial, h.live⟩, ?_⟩
      · simp only [acceptedFrames_accepted, deliveredFrames_accepted, h.accounted, List.append_assoc]
      · intro response hmem
        refine h.cancelled response ?_
        simpa using hmem

/-- The loop over the queued frames finds no waiters. -/
theorem dispatchQueuedNotifications_eq (h : NotificationsInv dropped notifications) :
    dispatchQueuedNotifications dropped notifications = notifications := by
  obtain ⟨queued, waiters, record⟩ := notifications
  rw [dispatchQueuedNotifications]
  cases queued with
  | nil => rfl
  | cons frame rest =>
    cases h.exclusive.resolve_left (List.cons_ne_nil _ _)
    rfl

/-- A response takes the first frame of the queue, or waits. -/
theorem nextNotification (h : NotificationsInv dropped notifications) {response : ResponseId}
    (hlive : notifications.queued ≠ [] → response ∉ dropped) :
    NotificationsInv dropped (nextNotification dropped response notifications) := by
  rw [Native.nextNotification]
  split
  case h_1 frame rest hqueued =>
    have hne : notifications.queued ≠ [] := hqueued ▸ List.cons_ne_nil _ _
    rw [if_neg (hlive hne)]
    refine ⟨.inr (h.exclusive.resolve_left hne), ?_, ⟨h.not_cancelled (hlive hne), h.live⟩, ?_⟩
    · simp only [acceptedFrames_delivered, deliveredFrames_delivered, h.accounted, hqueued,
        List.append_assoc, List.singleton_append]
    · intro other hmem
      refine h.cancelled other ?_
      simpa using hmem
  case h_2 hqueued => exact ⟨.inl hqueued, h.accounted, h.live, h.cancelled⟩

/-- Every response that waits is answered with the error. -/
theorem failAllWaiters (h : NotificationsInv dropped notifications) (error : NetworkError) :
    NotificationsInv dropped (failAllNotificationWaiters error notifications) := by
  have hfailed : ∀ entry ∈ (notifications.waiters.map (NotificationEntry.failed · error)).reverse,
      ∃ response, entry = .failed response error := by
    intro entry hmem
    obtain ⟨response, -, rfl⟩ := List.mem_map.mp (List.mem_reverse.mp hmem)
    exact ⟨response, rfl⟩
  have hframes {frame : NotificationEntry → Option Bytes}
      (hnone : ∀ response, frame (.failed response error) = none) :
      ((failAllNotificationWaiters error notifications).record.filterMap frame) =
        notifications.record.filterMap frame := by
    rw [failAllNotificationWaiters, List.filterMap_append, List.filterMap_eq_nil_iff.mpr,
      List.nil_append]
    intro entry hmem
    obtain ⟨response, rfl⟩ := hfailed entry hmem
    exact hnone response
  refine ⟨.inr rfl, ?_, h.live.append fun entry hmem past => ?_, fun response hmem => ?_⟩
  · rw [acceptedFrames, deliveredFrames, hframes fun _ => rfl, hframes fun _ => rfl]
    exact h.accounted
  · obtain ⟨response, rfl⟩ := hfailed entry hmem
    trivial
  · obtain hmem | hmem := List.mem_append.mp hmem
    · obtain ⟨other, heq⟩ := hfailed _ hmem
      cases heq
    · exact h.cancelled response hmem

/-- Dropping a response only adds its cancellation to the record. -/
theorem drop (h : NotificationsInv dropped notifications) (response : ResponseId) :
    NotificationsInv (response :: dropped)
      { notifications with record := .cancelled response :: notifications.record } := by
  refine ⟨h.exclusive, h.accounted, ⟨trivial, h.live⟩, fun other hmem => ?_⟩
  obtain heq | hmem := List.mem_cons.mp hmem
  · cases heq
    exact List.mem_cons_self
  · exact List.mem_cons_of_mem _ (h.cancelled other hmem)

end NotificationsInv

namespace System

/-- What holds of the notifications between any two operations. -/
abbrev Tidy (system : System) : Prop := NotificationsInv system.dropped system.notifications

variable {system : System}

/-- Every step keeps the record tidy: one lemma for each place a step can be at. -/
theorem Tidy.stop (h : system.Tidy) : system.stop.Tidy := h.failAllWaiters _

theorem Tidy.loopWithoutStream (h : system.Tidy) : system.loopWithoutStream.Tidy := by
  rw [System.loopWithoutStream]
  split
  case isTrue => exact h.stop
  case isFalse =>
    dsimp only
    rw [h.dispatchQueuedNotifications_eq]
    exact h

theorem Tidy.failStream (h : system.Tidy) (error : NetworkError) :
    (system.failStream error).Tidy := by
  rw [System.failStream]
  refine Tidy.loopWithoutStream ?_
  exact h.failAllWaiters error

theorem Tidy.startNextQueuedCall (h : system.Tidy) (connection : Connection) :
    (system.startNextQueuedCall connection).Tidy := by
  rw [System.startNextQueuedCall]
  split
  case h_1 call rest _ _ =>
    dsimp only
    split
    case h_1 error _ =>
      refine Tidy.failStream ?_ error
      exact h
    case h_2 => exact h
  case h_2 => exact h

theorem Tidy.loopHead (h : system.Tidy) : system.loopHead.Tidy := by
  rw [System.loopHead]
  split
  case h_1 => exact h.loopWithoutStream
  case h_2 connection _ =>
    split
    case isTrue => exact h.stop
    case isFalse =>
      refine Tidy.startNextQueuedCall ?_ connection
      rw [h.dispatchQueuedNotifications_eq]
      exact h

theorem Tidy.failEstablishing (h : system.Tidy) (error : NetworkError) :
    (system.failEstablishing error).Tidy := by
  rw [System.failEstablishing]
  refine Tidy.loopWithoutStream ?_
  exact h.failAllWaiters error

theorem Tidy.failReplay (h : system.Tidy) (connection : Connection) (error : NetworkError) :
    (system.failReplay connection error).Tidy := by
  rw [System.failReplay]
  refine Tidy.failEstablishing ?_ error
  exact h

theorem Tidy.replaySubscriptions (h : system.Tidy) (connection : Connection)
    (left : List Bytes) : (system.replaySubscriptions connection left).Tidy := by
  cases left with
  | nil =>
    refine Tidy.startNextQueuedCall ?_ connection
    exact h
  | cons payload rest =>
    rw [System.replaySubscriptions]
    dsimp only
    split
    case h_1 error _ =>
      refine Tidy.failReplay ?_ connection error
      exact h
    case h_2 => exact h

theorem Tidy.replayFrame (h : system.Tidy) (connection : Connection) (requestId : UInt64)
    (payload : Bytes) (rest : List Bytes) (frame : Bytes) :
    (system.replayFrame connection requestId payload rest frame).Tidy := by
  have hqueued := h.queueOrDeliver frame
  have hreceived : Tidy { system with calls := system.calls.note (.received connection frame) } := h
  rw [System.replayFrame]
  dsimp only
  split
  case h_1 error _ => exact hreceived.failReplay connection error
  case h_2 =>
    split
    case isTrue =>
      split
      case isTrue => exact hreceived.failReplay connection _
      case isFalse =>
        split
        case h_1 error _ =>
          refine Tidy.failReplay ?_ connection error
          exact hqueued
        case h_2 => exact hqueued
    case isFalse =>
      split
      case h_1 error _ => exact hreceived.failReplay connection error
      case h_2 =>
        refine Tidy.replaySubscriptions ?_ connection rest
        exact h

theorem Tidy.failSelected (h : system.Tidy) (error : NetworkError) :
    (system.failSelected error).Tidy := by
  rw [System.failSelected]
  refine Tidy.failStream ?_ error
  exact h

theorem Tidy.selectFrame (h : system.Tidy) (connection : Connection) (frame : Bytes) :
    (system.selectFrame connection frame).Tidy := by
  have hhandled (calls : CallState) : NotificationsInv system.dropped
      (handleReceivedFrame system.dropped connection frame calls system.notifications).2.1 := by
    rw [handleReceivedFrame]
    split
    case h_1 => exact h
    case h_2 =>
      split
      case h_1 =>
        split
        case isTrue => exact h
        case isFalse => exact h.queueOrDeliver frame
      case h_2 => exact h
  rw [System.selectFrame]
  dsimp only
  split
  case h_1 error _ =>
    refine Tidy.failSelected ?_ error
    exact hhandled _
  case h_2 =>
    refine Tidy.loopHead ?_
    exact hhandled _

/-- A queued frame is taken from the driver by a receiver that is there. -/
def TakenLive (system : System) : Event → Prop
  | .takeCommand =>
    match system.channel with
    | .nextNotification response :: _ =>
      system.notifications.queued ≠ [] → response ∉ system.dropped
    | _ => True
  | _ => True

/-- While the driver selects, by cases on the event. -/
theorem Tidy.stepSelecting {after : System} {event : Event} (h : system.Tidy)
    (hlive : system.TakenLive event) (hstep : system.stepSelecting event = some after) :
    after.Tidy := by
  cases event with
  | shutdownChanged =>
    cases hstep
    exact h.stop
  | commandsClosed =>
    rw [System.stepSelecting] at hstep
    split at hstep
    · cases hstep
      exact h.stop
    · cases hstep
  | takeCommand =>
    rw [System.stepSelecting] at hstep
    split at hstep
    case h_1 command rest hchannel =>
      cases hstep
      refine Tidy.loopHead ?_
      cases command with
      | call call => exact h
      | nextNotification response =>
        rw [TakenLive, hchannel] at hlive
        exact h.nextNotification hlive
    case h_2 => cases hstep
  | frame bytes =>
    obtain ⟨connection, -, rfl⟩ := Option.map_eq_some_iff.mp hstep
    exact h.selectFrame connection bytes
  | receiveFailed error =>
    obtain ⟨connection, -, rfl⟩ := Option.map_eq_some_iff.mp hstep
    exact h.failSelected error
  | deadline =>
    rw [System.stepSelecting] at hstep
    split at hstep
    case h_1 =>
      cases hstep
      refine Tidy.failSelected ?_ .responseTimeout
      exact h
    case h_2 => cases hstep
  | _ => cases hstep

/-- By cases on what the driver does. -/
theorem Tidy.stepDriver {after : System} {event : Event} (h : system.Tidy)
    (hlive : system.TakenLive event) (hstep : system.stepDriver event = some after) :
    after.Tidy := by
  rw [stepDriver.eq_def] at hstep
  split at hstep
  case h_1 =>
    cases hstep
    refine Tidy.replaySubscriptions ?_ _ _
    exact h
  case h_2 error _ =>
    cases hstep
    exact h.failEstablishing error
  case h_3 =>
    cases hstep
    exact h
  case h_4 connection _ _ _ _ =>
    cases hstep
    exact h.failReplay connection .sendFailed
  case h_5 bytes _ =>
    cases hstep
    exact h.replayFrame _ _ _ _ bytes
  case h_6 error _ =>
    cases hstep
    exact h.failReplay _ error
  case h_7 =>
    cases hstep
    exact h.failReplay _ .responseTimeout
  case h_8 =>
    cases hstep
    exact h
  case h_9 =>
    cases hstep
    refine Tidy.failStream ?_ .sendFailed
    exact h
  case h_10 => exact h.stepSelecting hlive hstep
  case h_11 => cases hstep

/-- By cases on what the client does. -/
theorem Tidy.stepClient {after : System} {event : Event} (h : system.Tidy)
    (hstep : system.stepClient event = some after) : after.Tidy := by
  cases event with
  | submitCall operation payload =>
    rw [System.stepClient] at hstep
    split at hstep
    · cases hstep
      exact h
    · cases hstep
  | submitNextNotification =>
    rw [System.stepClient] at hstep
    split at hstep
    · cases hstep
      exact h
    · cases hstep
  | dropReceiver response =>
    rw [System.stepClient] at hstep
    split at hstep
    · cases hstep
      exact h.drop response
    · cases hstep
  | otherRequest =>
    cases hstep
    exact h
  | requestShutdown =>
    cases hstep
    exact h
  | _ => cases hstep

/-- A step of either side keeps the record tidy, as long as taken commands are live. -/
theorem Tidy.step {after : System} {event : Event} (h : system.Tidy)
    (hlive : system.TakenLive event) (hstep : system.step event = some after) : after.Tidy := by
  rw [System.step, Option.or_eq_some_iff] at hstep
  obtain hclient | ⟨-, hdriver⟩ := hstep
  · exact h.stepClient hclient
  · exact h.stepDriver hlive hdriver

theorem tidy_initial : initial.Tidy := ⟨.inl rfl, rfl, trivial, by simp [initial]⟩

end System

end KaspaPortal.Platform.Native

namespace KaspaPortal.Guarantees
open Lib Network Platform Native

/-- While the frames that wait are taken by receivers that are there, those accepted are those
delivered and after them those that wait, in the order of their arrival, and each was delivered to
a receiver that was there. -/
theorem driver_notifications {events : List System.Event} {s : System}
    (hlive : Along System.step System.TakenLive System.initial events)
    (hrun : System.run events = some s) :
    acceptedFrames s.notifications.record =
        deliveredFrames s.notifications.record ++ s.notifications.queued ∧
      ∀ entry past, entry :: past <:+ s.notifications.record → LiveReceiver entry past := by
  have htidy := hlive.invariant (fun _ _ _ h hevent hstep => h.step hevent hstep)
    System.tidy_initial hrun
  exact ⟨htidy.accounted, fun entry past => htidy.live.of_suffix⟩

namespace DriverNotifications

/-- A notification without a payload. -/
def sampleFrame : Bytes := [0, 0xff, 0]

/-- A waiter opens a connection; it gets one frame and another one waits. -/
def sampleEvents : List System.Event :=
  [.submitNextNotification, .takeCommand, .connected, .frame sampleFrame, .frame (sampleFrame ++ [1]),
    .submitNextNotification]

end DriverNotifications

open DriverNotifications

/-- The frame that waits is sent to a receiver that is gone, and nobody gets it. -/
theorem driver_notifications_lost : ∃ s,
    System.run (sampleEvents ++ [.dropReceiver 1, .takeCommand]) = some s ∧
      acceptedFrames s.notifications.record = [sampleFrame, sampleFrame ++ [1]] ∧
      deliveredFrames s.notifications.record = [sampleFrame] ∧ s.notifications.queued = [] ∧
      ¬ acceptedFrames s.notifications.record =
        deliveredFrames s.notifications.record ++ s.notifications.queued :=
  ⟨_, rfl, rfl, rfl, rfl, by decide⟩

theorem driver_notifications_taken : ∃ s, System.run (sampleEvents ++ [.takeCommand]) = some s ∧
    s.notifications.queued = [] ∧
    acceptedFrames s.notifications.record =
      deliveredFrames s.notifications.record ++ s.notifications.queued := by
  have hlive : Along System.step System.TakenLive System.initial
      (sampleEvents ++ [System.Event.takeCommand]) := by
    refine .cons trivial rfl (.cons ?_ rfl (.cons trivial rfl (.cons trivial rfl
      (.cons trivial rfl (.cons trivial rfl (.cons ?_ rfl trivial))))))
    · exact fun _ => List.not_mem_nil
    · exact fun _ => List.not_mem_nil
  exact ⟨_, rfl, rfl, (driver_notifications hlive rfl).1⟩

end KaspaPortal.Guarantees
