import KaspaPortal.Lib.Runs
import KaspaPortal.Platform.BrowserNotifications

/-!
# The browser's notification socket under concurrent calls

The slot has one key and a socket one waiter. A second opening takes the slot from the socket that
was subscribed on, and a second reader takes the cell from the one that waits.

The three interleavings that fail are shown as runs; the results about all other runs say which
steps they may take.
-/
namespace KaspaPortal.Platform.Browser
open Lib Network

namespace Transport

variable {transport : Transport}

/-- `close_on` was not called and no socket failed. -/
def Intact (transport : Transport) : Prop :=
  .closeCalled ∉ transport.record ∧ ∀ key, .socketFailed key ∉ transport.record

/-- No call waits for a frame of this socket. -/
def Unread (transport : Transport) (key : Key) : Prop :=
  ∀ call, transport.calls call ≠ some (.waiting key)

/-- A call that goes on holds the key. -/
def Held (transport : Transport) (key : Key) : Prop :=
  transport.slot = some key ∨
    ∃ call, transport.calls call = some (.waiting key) ∨ transport.calls call = some (.woken key)

structure Inv (transport : Transport) : Prop where
  subscribed : transport.Intact → ∀ call key, .subscribed call key ∈ transport.record →
    transport.slot = some key
  open_of_held : transport.Intact → ∀ key, transport.Held key →
    ∃ socket, transport.sockets key = some socket ∧ socket.closed = false
  waiting : ∀ call key, transport.calls call = some (.waiting key) →
    ∃ socket, transport.sockets key = some socket ∧ socket.waiter = some call
  unread : ∀ key socket, transport.sockets key = some socket → socket.closed = true →
    transport.Unread key
  keys : ∀ key, transport.sockets key ≠ none → key < transport.nextKey

/-! ## Parts of a step -/

theorem Intact.of_note {entry : Entry} (h : (transport.note entry).Intact) : transport.Intact :=
  ⟨fun hmem => h.1 (List.mem_cons_of_mem _ hmem), fun key hmem => h.2 key (List.mem_cons_of_mem _ hmem)⟩

/-- An entry that is no success of a subscription. -/
theorem Inv.note (h : transport.Inv) {entry : Entry}
    (hentry : ∀ call key, entry ≠ .subscribed call key) : (transport.note entry).Inv where
  subscribed hintact call key hmem :=
    h.subscribed hintact.of_note call key ((List.mem_cons.mp hmem).resolve_left (hentry call key).symm)
  open_of_held hintact := h.open_of_held hintact.of_note
  waiting := h.waiting
  unread := h.unread
  keys := h.keys

/-- A subscription on the socket of the slot succeeds. -/
theorem Inv.note_subscribed (h : transport.Inv) {call : CallId} {key : Key}
    (hslot : transport.slot = some key) : (transport.note (.subscribed call key)).Inv where
  subscribed hintact other key' hmem := by
    obtain heq | hmem := List.mem_cons.mp hmem
    · cases heq
      exact hslot
    · exact h.subscribed hintact.of_note other key' hmem
  open_of_held hintact := h.open_of_held hintact.of_note
  waiting := h.waiting
  unread := h.unread
  keys := h.keys

theorem setSocket_apply (transport : Transport) (key other : Key) (socket : Option Socket) :
    (transport.setSocket key socket).sockets other =
      if other = key then socket else transport.sockets other :=
  Function.update_apply _ _ _ _

/-- A socket changes; a call that waits on it stays registered, and none waits once it is closed. -/
theorem Inv.setSocket (h : transport.Inv) {key : Key} {socket changed : Socket}
    (hsocket : transport.sockets key = some socket)
    (hwaiter : ∀ call, transport.calls call = some (.waiting key) → changed.waiter = some call)
    (hopen : transport.Intact → changed.closed = socket.closed)
    (hunread : changed.closed = true → transport.Unread key) :
    (transport.setSocket key (some changed)).Inv := by
  refine ⟨h.subscribed, fun hintact other hheld => ?_, fun call other hcall => ?_,
    fun other found hfound hclosed => ?_, fun other hfound => ?_⟩
  · obtain ⟨found, hfound, hclosed⟩ := h.open_of_held hintact other hheld
    rw [setSocket_apply]
    split
    case isTrue heq =>
      rw [heq, hsocket] at hfound
      cases hfound
      exact ⟨changed, rfl, (hopen hintact).trans hclosed⟩
    case isFalse => exact ⟨found, hfound, hclosed⟩
  · rw [setSocket_apply]
    split
    case isTrue heq => exact ⟨changed, rfl, hwaiter call (heq ▸ hcall)⟩
    case isFalse => exact h.waiting call other hcall
  · rw [setSocket_apply] at hfound
    split at hfound
    case isTrue heq =>
      cases hfound
      rw [heq]
      exact hunread hclosed
    case isFalse => exact h.unread other found hfound hclosed
  · rw [setSocket_apply] at hfound
    split at hfound
    case isTrue heq =>
      rw [heq]
      exact h.keys key (by simp [hsocket])
    case isFalse => exact h.keys other hfound

/-- The same with a socket whose waiter and end are as they were. -/
theorem Inv.setSocket_same (h : transport.Inv) {key : Key} {socket changed : Socket}
    (hsocket : transport.sockets key = some socket) (hwaiter : changed.waiter = socket.waiter)
    (hclosed : changed.closed = socket.closed) : (transport.setSocket key (some changed)).Inv := by
  refine h.setSocket hsocket (fun call hcall => ?_) (fun _ => hclosed) fun hclosed' => ?_
  · obtain ⟨found, hfound, hregistered⟩ := h.waiting call key hcall
    cases hsocket.symm.trans hfound
    exact hwaiter.trans hregistered
  · exact h.unread key socket hsocket (hclosed.symm.trans hclosed')

/-- Calls that are removed or woken, or have nothing yet. -/
theorem Inv.of_calls (h : transport.Inv) {calls : CallId → Option Suspended} {nextCall : CallId}
    (hwaiting : ∀ call key, calls call = some (.waiting key) →
      transport.calls call = some (.waiting key))
    (hwoken : ∀ call key, calls call = some (.woken key) → transport.Held key) :
    Inv { transport with calls, nextCall } where
  subscribed := h.subscribed
  open_of_held hintact key hheld := by
    refine h.open_of_held hintact key ?_
    obtain hslot | ⟨call, hcall | hcall⟩ := hheld
    · exact .inl hslot
    · exact .inr ⟨call, .inl (hwaiting call key hcall)⟩
    · exact hwoken call key hcall
  waiting call key hcall := h.waiting call key (hwaiting call key hcall)
  unread key socket hsocket hclosed call hcall :=
    h.unread key socket hsocket hclosed call (hwaiting call key hcall)
  keys := h.keys

theorem setCall_apply (transport : Transport) (call other : CallId)
    (suspended : Option Suspended) :
    (transport.setCall call suspended).calls other =
      if other = call then suspended else transport.calls other :=
  Function.update_apply _ _ _ _

/-- A call that is removed or opens a socket. -/
theorem Inv.release (h : transport.Inv) (call : CallId) {suspended : Option Suspended}
    (hwaiting : ∀ key, suspended ≠ some (.waiting key))
    (hwoken : ∀ key, suspended = some (.woken key) → transport.Held key) :
    (transport.setCall call suspended).Inv := by
  refine h.of_calls (fun other key hother => ?_) fun other key hother => ?_
  · rw [Function.update_apply] at hother
    split at hother
    · exact absurd hother (hwaiting key)
    · exact hother
  · rw [Function.update_apply] at hother
    split at hother
    · exact hwoken key hother
    · exact .inr ⟨other, .inr hother⟩

/-- The first call to wait on a socket that is open. -/
theorem Inv.suspend (h : transport.Inv) {call : CallId} {key : Key} {socket : Socket}
    (hsocket : transport.sockets key = some socket) (hwaiter : socket.waiter = some call)
    (hclosed : socket.closed = false) : (transport.setCall call (some (.waiting key))).Inv where
  subscribed := h.subscribed
  open_of_held hintact other hheld := by
    by_cases heq : other = key
    · rw [heq]
      exact ⟨socket, hsocket, hclosed⟩
    · refine h.open_of_held hintact other ?_
      obtain hslot | ⟨reader, hreader⟩ := hheld
      · exact .inl hslot
      · rw [setCall_apply] at hreader
        split at hreader
        · obtain hreader | hreader := hreader
          · cases hreader
            exact absurd rfl heq
          · cases hreader
        · exact .inr ⟨reader, hreader⟩
  waiting other key' hother := by
    rw [setCall_apply] at hother
    split at hother
    case isTrue hsame =>
      cases hother
      exact ⟨socket, hsocket, hsame ▸ hwaiter⟩
    case isFalse => exact h.waiting other key' hother
  unread key' found hfound hclosed' other hother := by
    rw [setCall_apply] at hother
    split at hother
    case isTrue =>
      cases hother
      cases hsocket.symm.trans hfound
      rw [hclosed] at hclosed'
      cases hclosed'
    case isFalse => exact h.unread key' found hfound hclosed' other hother
  keys := h.keys

/-- A socket that nobody reads is forgotten, and the slot with it. -/
theorem Inv.close (h : transport.Inv) {key : Key} (hbroken : ¬ transport.Intact)
    (hunread : transport.Unread key) : Inv { transport.close key with slot := none } where
  subscribed hintact := absurd hintact hbroken
  open_of_held hintact := absurd hintact hbroken
  waiting call other hcall := by
    obtain ⟨socket, hsocket, hwaiter⟩ := h.waiting call other hcall
    have hne : other ≠ key := by
      rintro rfl
      exact hunread call hcall
    exact ⟨socket, (setSocket_apply transport key other none).trans ((if_neg hne).trans hsocket),
      hwaiter⟩
  unread other socket hsocket := by
    have hfound := (setSocket_apply transport key other none).symm.trans hsocket
    split at hfound
    · cases hfound
    · exact h.unread other socket hfound
  keys other hsome := by
    refine h.keys other fun hnone => hsome ?_
    rw [Transport.close, setSocket_apply, hnone, ite_self]

/-- The slot is emptied after a failure. -/
theorem Inv.emptySlot (h : transport.Inv) (hbroken : ¬ transport.Intact) :
    Inv { transport with slot := none } where
  subscribed hintact := absurd hintact hbroken
  open_of_held hintact := absurd hintact hbroken
  waiting := h.waiting
  unread := h.unread
  keys := h.keys

/-- A socket opens before any subscription has succeeded. -/
theorem Inv.opened (h : transport.Inv)
    (hfirst : transport.Intact → ∀ call key, .subscribed call key ∉ transport.record) :
    Inv { transport.setSocket transport.nextKey (some ⟨[], none, false, 1⟩) with
      slot := some transport.nextKey
      nextKey := transport.nextKey + 1 } := by
  have hnew {other : Key} (hsome : transport.sockets other ≠ none) : other ≠ transport.nextKey :=
    Nat.ne_of_lt (h.keys other hsome)
  have hkept {other : Key} {socket : Socket} (hsocket : transport.sockets other = some socket) :
      (transport.setSocket transport.nextKey (some ⟨[], none, false, 1⟩)).sockets other =
        some socket := by
    rw [setSocket_apply, if_neg (hnew (by simp [hsocket])), hsocket]
  refine ⟨fun hintact call key hmem => absurd hmem (hfirst hintact call key),
    fun hintact key hheld => ?_, fun call key hcall => ?_, fun key socket hsocket hclosed => ?_,
    fun key hsome => ?_⟩
  · by_cases heq : key = transport.nextKey
    · exact ⟨_, (setSocket_apply _ _ _ _).trans (if_pos heq), rfl⟩
    · obtain hslot | hcalls := hheld
      · exact absurd (Option.some.inj hslot).symm heq
      · obtain ⟨socket, hsocket, hopen⟩ := h.open_of_held hintact key (.inr hcalls)
        exact ⟨socket, hkept hsocket, hopen⟩
  · obtain ⟨socket, hsocket, hwaiter⟩ := h.waiting call key hcall
    exact ⟨socket, hkept hsocket, hwaiter⟩
  · have hfound := (setSocket_apply transport _ key _).symm.trans hsocket
    split at hfound
    · cases hfound
      cases hclosed
    · exact h.unread key socket hfound hclosed
  · by_cases heq : key = transport.nextKey
    · rw [heq]
      exact Nat.lt_succ_self _
    · refine Nat.lt_succ_of_lt (h.keys key fun hnone => hsome ?_)
      exact (setSocket_apply _ _ _ _).trans ((if_neg heq).trans hnone)

/-! ## One step -/

theorem Inv.subscribe (h : transport.Inv) (call : CallId) {key : Key}
    (hslot : transport.slot = some key) (payload : Bytes) (sends : Bool) :
    (transport.subscribe call key payload sends).Inv := by
  rw [Transport.subscribe]
  split
  case h_1 => exact h.note (by simp)
  case h_2 socket hsocket =>
    have hcounted := @Inv.setSocket_same _ h key socket
      { socket with nextRequestId := socket.nextRequestId + 1 } hsocket rfl rfl
    dsimp only
    split
    case h_1 => exact hcounted.note (by simp)
    case h_2 =>
      split
      case isTrue => exact hcounted.note_subscribed hslot
      case isFalse => exact hcounted.note (by simp)

theorem Inv.failNext (h : transport.Inv) (hbroken : ¬ transport.Intact) (call : CallId)
    (error : NetworkError) : (transport.failNext call error).Inv :=
  (h.emptySlot hbroken).note (by simp)

/-- The only reader of a socket which, before any failure, is open. -/
theorem Inv.nextFrame (h : transport.Inv) (call : CallId) {key : Key}
    (hopen : transport.Intact → ∃ socket, transport.sockets key = some socket ∧
      socket.closed = false) (hunread : transport.Unread key) :
    (transport.nextFrame call key).Inv := by
  rw [Transport.nextFrame]
  split
  case h_1 hnone =>
    refine h.failNext (fun hintact => ?_) call _
    obtain ⟨socket, hsocket, -⟩ := hopen hintact
    rw [hnone] at hsocket
    cases hsocket
  case h_2 socket hsocket =>
    split
    case h_1 frame rest _ =>
      have hpopped := @Inv.setSocket_same _ h key socket { socket with frames := rest } hsocket rfl rfl
      exact hpopped.note (by simp)
    case h_2 =>
      split
      case isTrue hclosed =>
        have hbroken : ¬ transport.Intact := by
          intro hintact
          obtain ⟨found, hfound, hopened⟩ := hopen hintact
          cases hsocket.symm.trans hfound
          rw [hclosed] at hopened
          cases hopened
        exact (h.close hbroken hunread).note (by simp)
      case isFalse hclosed =>
        have hregistered := @Inv.setSocket _ h key socket { socket with waiter := some call } hsocket
          (fun other hother => absurd hother (hunread other)) (fun _ => rfl) fun _ => hunread
        exact hregistered.suspend ((setSocket_apply _ _ _ _).trans (if_pos rfl)) rfl
          (Bool.eq_false_iff.mpr hclosed)

/-- A handler wakes the call that waits, if one does. -/
theorem Inv.wake (h : transport.Inv) {key : Key} {socket changed : Socket}
    (hsocket : transport.sockets key = some socket) (hwaiter : changed.waiter = socket.waiter)
    (hopen : transport.Intact → changed.closed = socket.closed) :
    (transport.wake key changed).Inv ∧ ∀ call, transport.calls call = some (.waiting key) →
      (transport.wake key changed).calls call = some (.woken key) := by
  have hregistered {call : CallId} (hcall : transport.calls call = some (.waiting key)) :
      changed.waiter = some call := by
    obtain ⟨found, hfound, hregistered⟩ := h.waiting call key hcall
    cases hsocket.symm.trans hfound
    exact hwaiter.trans hregistered
  have hfree {calls : CallId → Option Suspended} (hinv : Inv { transport with calls })
      (hunread : ∀ call, calls call ≠ some (.waiting key)) :
      Inv (Transport.setSocket key (some { changed with waiter := none })
        { transport with calls }) :=
    hinv.setSocket hsocket (fun call hcall => absurd hcall (hunread call)) hopen fun _ => hunread
  rw [Transport.wake]
  split
  case h_1 hnone =>
    have hunread : transport.Unread key := by
      intro call hcall
      rw [hregistered hcall] at hnone
      cases hnone
    exact ⟨hfree h hunread, fun call hcall => absurd hcall (hunread call)⟩
  case h_2 call hsome =>
    have hunread {other : CallId} (hother : transport.calls other = some (.waiting key)) :
        other = call := Option.some.inj ((hregistered hother).symm.trans hsome)
    split
    case h_1 found hcall =>
      have hwoken : (transport.setCall call (some (.woken found))).Inv := by
        refine h.release call (by simp) fun key' heq => ?_
        cases heq
        exact .inr ⟨call, .inl hcall⟩
      refine ⟨hfree hwoken fun other hother => ?_, fun other hother => ?_⟩
      · rw [Function.update_apply] at hother
        split at hother
        case isTrue => cases hother
        case isFalse hne => exact hne (hunread hother)
      · obtain rfl := hunread hother
        cases hcall.symm.trans hother
        exact (setCall_apply _ _ _ _).trans (if_pos rfl)
    case h_2 hcall =>
      have hnone : transport.Unread key := by
        intro other hother
        exact hcall key (hunread hother ▸ hother)
      exact ⟨hfree h hnone, fun other hother => absurd hother (hnone other)⟩

theorem Inv.message (h : transport.Inv) {key : Key} {socket : Socket}
    (hsocket : transport.sockets key = some socket) (frame : Bytes) :
    (transport.wake key { socket with frames := socket.frames ++ [frame] }).Inv ∧
      ∀ call, transport.calls call = some (.waiting key) →
        (transport.wake key { socket with frames := socket.frames ++ [frame] }).calls call =
          some (.woken key) :=
  h.wake hsocket (by rfl) fun _ => by rfl

theorem wake_note (key : Key) (socket : Socket) (entry : Entry) :
    (transport.wake key socket).note entry = (transport.note entry).wake key socket := by
  obtain ⟨frames, waiter, closed, nextRequestId⟩ := socket
  cases waiter with
  | none => rfl
  | some call =>
    simp only [Transport.wake, Transport.note]
    split <;> rfl

theorem Inv.socketFailed (h : transport.Inv) {key : Key} {socket : Socket}
    (hsocket : transport.sockets key = some socket) :
    ((transport.wake key { socket with closed := true }).note (.socketFailed key)).Inv ∧
      ∀ call, transport.calls call = some (.waiting key) →
        ((transport.wake key { socket with closed := true }).note (.socketFailed key)).calls call =
          some (.woken key) := by
  have hnoted : (transport.note (.socketFailed key)).Inv := h.note (by simp)
  rw [wake_note]
  exact @Inv.wake _ hnoted key socket { socket with closed := true } hsocket rfl
    fun hintact => absurd List.mem_cons_self (hintact.2 key)

/-- No socket opens once a subscription has succeeded, no reader joins one that waits on the same
socket, and none is left waiting on a socket that is closed. -/
def Guarded (transport : Transport) : Event → Prop
  | .openResolved _ opened _ => opened = true → transport.Intact →
      ∀ call key, .subscribed call key ∉ transport.record
  | .nextOn | .closeOn => ∀ key, transport.slot = some key → transport.Unread key
  | .resumed call => ∀ key, transport.calls call = some (.woken key) → transport.Unread key
  | _ => True

theorem Inv.step {after : Transport} {event : Event} (h : transport.Inv)
    (hguarded : transport.Guarded event) (hstep : transport.step event = some after) :
    after.Inv := by
  have hcounted : Inv { transport with nextCall := transport.nextCall + 1 } :=
    h.of_calls (fun _ _ hcall => hcall) fun call _ hcall => .inr ⟨call, .inr hcall⟩
  -- the guard is used where a socket opens, a frame is awaited or the transport closes
  cases event with
  | subscribeOn payload refusal sends =>
    cases hstep
    rw [subscribeOn.eq_def]
    dsimp only
    split
    case h_1 key hslot => exact hcounted.subscribe _ hslot payload sends
    case h_2 =>
      split
      case h_1 => exact hcounted.note (by simp)
      case h_2 => exact hcounted.release _ (by simp) (by simp)
  | openResolved call opened sends =>
    rw [Transport.step] at hstep
    split at hstep
    case h_1 payload hcall =>
      cases hstep
      have hreleased : (transport.setCall call none).Inv := h.release call (by simp) (by simp)
      rw [openResolved.eq_def]
      dsimp only
      split
      case isTrue hopened => exact (hreleased.opened (hguarded hopened)).subscribe call rfl payload sends
      case isFalse => exact hreleased.note (by simp)
    case h_2 => cases hstep
  | nextOn =>
    cases hstep
    rw [nextOn.eq_def]
    dsimp only
    split
    case h_1 => exact hcounted.note (by simp)
    case h_2 key hslot =>
      exact hcounted.nextFrame _ (fun hintact => h.open_of_held hintact key (.inl hslot))
        (hguarded key hslot)
  | resumed call =>
    rw [Transport.step] at hstep
    split at hstep
    case h_1 key hcall =>
      cases hstep
      have hreleased : (transport.setCall call none).Inv := h.release call (by simp) (by simp)
      refine hreleased.nextFrame call
        (fun hintact => h.open_of_held hintact key (.inr ⟨call, .inr hcall⟩)) fun other hother => ?_
      rw [setCall_apply] at hother
      split at hother
      · cases hother
      · exact hguarded key hcall other hother
    case h_2 => cases hstep
  | closeOn =>
    cases hstep
    have hnoted : (transport.note .closeCalled).Inv := h.note (by simp)
    have hbroken : ¬ (transport.note .closeCalled).Intact := fun hintact =>
      hintact.1 List.mem_cons_self
    rw [closeOn.eq_def]
    split
    case h_1 key hslot => exact hnoted.close hbroken (hguarded key hslot)
    case h_2 => exact hnoted
  | cancelled call =>
    cases hstep
    exact h.release call (by simp) (by simp)
  | message key frame =>
    obtain ⟨socket, hsocket, rfl⟩ := Option.map_eq_some_iff.mp hstep
    exact (h.message hsocket frame).1
  | socketFailed key =>
    obtain ⟨socket, hsocket, rfl⟩ := Option.map_eq_some_iff.mp hstep
    exact (h.socketFailed hsocket).1
  | otherOpened =>
    cases hstep
    exact ⟨h.subscribed, h.open_of_held, h.waiting, h.unread,
      fun key hsome => Nat.lt_succ_of_lt (h.keys key hsome)⟩

theorem inv_initial : initial.Inv where
  subscribed _ _ _ hmem := by cases hmem
  open_of_held _ key hheld := by simp [Held, initial] at hheld
  waiting _ _ hcall := by cases hcall
  unread _ _ hsocket := by cases hsocket
  keys _ hsome := absurd rfl hsome

end Transport

end KaspaPortal.Platform.Browser

namespace KaspaPortal.Guarantees
open Lib Platform Browser

/-- While the condition is met, subscriptions that succeeded were sent on the socket in the slot
until a close or a failure, and a call that waits is registered on its socket, so that the next
frame or the end of the socket wakes it. -/
theorem browser_notifications {events : List Transport.Event} {s : Transport}
    (hguarded : Along Transport.step Transport.Guarded Transport.initial events)
    (hrun : Transport.run events = some s) :
    (.closeCalled ∉ s.record → (∀ key, .socketFailed key ∉ s.record) →
      ∀ call key, .subscribed call key ∈ s.record → s.slot = some key) ∧
    ∀ call key, s.calls call = some (.waiting key) →
      (∃ socket, s.sockets key = some socket ∧ socket.waiter = some call) ∧
      (∀ frame, ∃ after, s.step (.message key frame) = some after ∧
        after.calls call = some (.woken key)) ∧
      ∃ after, s.step (.socketFailed key) = some after ∧ after.calls call = some (.woken key) := by
  have hinv := hguarded.invariant (fun _ _ _ h hevent hstep => h.step hevent hstep)
    Transport.inv_initial hrun
  refine ⟨fun hclose hfailed => hinv.subscribed ⟨hclose, hfailed⟩, fun call key hcall => ?_⟩
  obtain ⟨socket, hsocket, hregistered⟩ := hinv.waiting call key hcall
  refine ⟨⟨socket, hsocket, hregistered⟩, fun frame => ?_, ?_⟩
  · refine ⟨_, ?_, (hinv.message hsocket frame).2 call hcall⟩
    rw [Transport.step, hsocket, Option.map_some]
  · refine ⟨_, ?_, (hinv.socketFailed hsocket).2 call hcall⟩
    rw [Transport.step, hsocket, Option.map_some]

namespace BrowserNotifications

/-- A subscription over a socket opened for it. -/
def sampleEvents : List Transport.Event := [.subscribeOn [] none true, .openResolved 0 true true]

end BrowserNotifications

open BrowserNotifications

/-- Of two subscriptions at once the first is on a socket that is no longer in the slot. Of two
readers at once the first is no longer registered. A reader is left on a socket that is closed. -/
theorem browser_notifications_interleaved :
    (∃ s, Transport.run [.subscribeOn [] none true, .subscribeOn [] none true,
        .openResolved 0 true true, .openResolved 1 true true] = some s ∧
      .subscribed 0 1 ∈ s.record ∧ .closeCalled ∉ s.record ∧
      (∀ key, .socketFailed key ∉ s.record) ∧ s.slot ≠ some 1) ∧
    (∃ s, Transport.run (sampleEvents ++ [.nextOn, .nextOn]) = some s ∧
      s.calls 1 = some (.waiting 1) ∧ (s.sockets 1).map Socket.waiter = some (some 2)) ∧
    ∃ s, Transport.run (sampleEvents ++ [.nextOn, .closeOn]) = some s ∧
      s.calls 1 = some (.waiting 1) ∧ (s.sockets 1).isNone = true := by
  refine ⟨⟨_, rfl, ?_, ?_, fun key => ?_, ?_⟩, ⟨_, rfl, rfl, rfl⟩, ⟨_, rfl, rfl, rfl⟩⟩
  · exact List.mem_cons_of_mem _ List.mem_cons_self
  · change Entry.closeCalled ∉ [.subscribed 1 2, .subscribed 0 1]
    simp
  · change Entry.socketFailed key ∉ [.subscribed 1 2, .subscribed 0 1]
    simp
  · decide

theorem browser_notifications_woken : ∃ s,
    Transport.run (sampleEvents ++ [.nextOn]) = some s ∧ s.slot = some 1 ∧
      ∃ after, s.step (.message 1 [7]) = some after ∧ after.calls 1 = some (.woken 1) := by
  have hguarded : Along Transport.step Transport.Guarded Transport.initial
      (sampleEvents ++ [Transport.Event.nextOn]) := by
    refine .cons trivial rfl (.cons ?_ rfl (.cons ?_ rfl trivial))
    · exact fun _ _ call key => List.not_mem_nil
    · intro key hslot call hcall
      change Function.update (Function.update (fun _ => none) 0 (some (.opening []))) 0 none call =
        some (Suspended.waiting key) at hcall
      rw [Function.update_idem, Function.update_apply] at hcall
      split at hcall <;> cases hcall
  refine ⟨_, rfl, rfl, ?_⟩
  exact ((browser_notifications hguarded rfl).2 1 1 rfl).2.1 [7]

end KaspaPortal.Guarantees
