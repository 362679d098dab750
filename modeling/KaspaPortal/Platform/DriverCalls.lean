import KaspaPortal.Lib.Runs
import KaspaPortal.Platform.NativeDriver
import Mathlib.Data.List.Nodup

/-!
# What the driver keeps about its calls

Every entry of the record is justified by the entries before it, and every call taken is answered,
in flight, active or queued, in one place only. Each operation of the driver on its calls keeps
this.

The invariant holds between two entries of the record; what the socket does in between is
arbitrary.
-/
namespace KaspaPortal.Platform.Native
open Lib Network

/-- What an entry of the record says of calls taken from the queue. -/
def CallEntry.takenCall : CallEntry → Option QueuedCall
  | .taken call => some call
  | _ => none

def CallEntry.answeredCall : CallEntry → Option QueuedCall
  | .answered call _ => some call
  | _ => none

def CallEntry.writtenCall : CallEntry → Option QueuedCall
  | .wrote _ _ call => some call
  | _ => none

/-- The calls taken so far, the latest first. -/
def takenCalls (record : List CallEntry) : List QueuedCall := record.filterMap CallEntry.takenCall
/-- The calls answered so far. A call is answered once, whatever the answer. -/
def answeredCalls (record : List CallEntry) : List QueuedCall :=
  record.filterMap CallEntry.answeredCall
/-- The calls put on a connection so far. -/
def writtenCalls (record : List CallEntry) : List QueuedCall :=
  record.filterMap CallEntry.writtenCall

/-- The connection is open: frames may be received on it. -/
structure Open (connection : Connection) (record : List CallEntry) : Prop where
  opened : .opened connection ∈ record
  not_closed : .closed connection ∉ record
  not_timedOut : ∀ call, .timedOut connection call ∉ record

/-- Why an entry may follow the ones before it. -/
def Justified : CallEntry → List CallEntry → Prop
  | .received connection _, past => Open connection past
  | .answered call (.ok payload), past =>
    ∃ connection requestId frame decoded before,
      past = .received connection frame :: before ∧ .wrote connection requestId call ∈ before ∧
      decodeResponse frame = .ok decoded ∧ decoded.id = some requestId ∧
      decoded.kind = .success ∧
      (decoded.rawOperation = none ∨ decoded.operation = some call.operation) ∧
      decoded.payload = payload
  | .acknowledged connection payload, past =>
    ∃ requestId frame value, .received connection frame ∈ past ∧
      (.replayed connection requestId payload ∈ past ∨
        ∃ call : QueuedCall, call.operation = .subscribe ∧ call.payload = payload ∧
          .wrote connection requestId call ∈ past) ∧
      validateResponse frame requestId .subscribe = .ok value
  | .wrote connection _ call, past =>
    Open connection past ∧ call ∈ takenCalls past ∧ call ∉ answeredCalls past ∧
      (∀ other ∈ writtenCalls past, other ∈ answeredCalls past) ∧
      ∀ subscription value, .answered subscription (.ok value) ∈ past →
        subscription.operation = .subscribe → .acknowledged connection subscription.payload ∈ past
  | _, _ => True

/-- A call written is not answered, and no call written earlier is unanswered. -/
theorem nodup_writtenCalls {record : List CallEntry} (h : Explained Justified record) :
    (writtenCalls record).Nodup := by
  induction record with
  | nil => exact List.nodup_nil
  | cons entry past ih =>
    cases entry with
    | wrote connection requestId call =>
      refine List.nodup_cons.mpr ⟨?_, ih h.2⟩
      intro hwritten
      obtain ⟨-, -, hunanswered, hearlier, -⟩ := h.1
      exact hunanswered (hearlier call hwritten)
    | _ => exact ih h.2

/-! ## One entry more -/

/-- A connection stays open until an entry closes it. -/
theorem Open.cons {connection : Connection} {record : List CallEntry} {entry : CallEntry}
    (h : Open connection record) (hclosed : entry ≠ .closed connection)
    (htimedOut : ∀ call, entry ≠ .timedOut connection call) :
    Open connection (entry :: record) where
  opened := List.mem_cons_of_mem _ h.opened
  not_closed := List.not_mem_cons_of_ne_of_not_mem hclosed.symm h.not_closed
  not_timedOut call :=
    List.not_mem_cons_of_ne_of_not_mem (htimedOut call).symm (h.not_timedOut call)

/-- The entries that say which calls are taken, written or answered are the others. -/
def CallEntry.Silent : CallEntry → Prop
  | .taken _ | .wrote _ _ _ | .answered _ _ => False
  | _ => True

section silent

variable {entry : CallEntry} (h : entry.Silent) (record : List CallEntry)
include h

/-- An entry about no call leaves the lists of calls. -/
theorem takenCalls_silent : takenCalls (entry :: record) = takenCalls record := by
  cases entry <;> first | rfl | cases h

theorem answeredCalls_silent : answeredCalls (entry :: record) = answeredCalls record := by
  cases entry <;> first | rfl | cases h

theorem writtenCalls_silent : writtenCalls (entry :: record) = writtenCalls record := by
  cases entry <;> first | rfl | cases h

end silent

/-! ## Calls that are not answered -/

/-- The call whose request is being sent, and the active one. -/
def startedCalls (calls : CallState) (flight : Option QueuedCall) : List QueuedCall :=
  flight.toList ++ (calls.activeCall.map ActiveCall.call).toList

/-- Every call that still owes an answer: in flight, active, or waiting in the queue. -/
def pendingCalls (calls : CallState) (flight : Option QueuedCall) : List QueuedCall :=
  startedCalls calls flight ++ calls.queuedCalls

@[simp] theorem record_note (calls : CallState) (entry : CallEntry) :
    (calls.note entry).record = entry :: calls.record := rfl

/-- A note in the record changes no call. -/
@[simp] theorem startedCalls_note (calls : CallState) (entry : CallEntry)
    (flight : Option QueuedCall) :
    startedCalls (calls.note entry) flight = startedCalls calls flight := rfl

@[simp] theorem pendingCalls_note (calls : CallState) (entry : CallEntry)
    (flight : Option QueuedCall) :
    pendingCalls (calls.note entry) flight = pendingCalls calls flight := rfl

/-- The connection an entry is about, where it says what becomes of it. -/
def CallEntry.Mentions (connection : Connection) : CallEntry → Prop
  | .opened other | .closed other | .timedOut other _ => other = connection
  | _ => False

/-- Between two entries, while the request of `flight` is being sent and frames may come on
`current`. -/
structure CallsInv (calls : CallState) (flight : Option QueuedCall)
    (current : Option Connection) (connections : Nat) : Prop where
  accounted : (answeredCalls calls.record ++ pendingCalls calls flight).Perm
    (takenCalls calls.record)
  nodup : (takenCalls calls.record).Nodup
  explained : Explained Justified calls.record
  encodes : ∀ call ∈ calls.queuedCalls, call.payload.length < 2 ^ 32
  written : ∀ call ∈ writtenCalls calls.record,
    call ∈ answeredCalls calls.record ∨ call ∈ startedCalls calls flight
  active : ∀ active, calls.activeCall = some active → flight = none ∧
    ∃ connection, calls.stream = some connection ∧
      .wrote connection active.requestId active.call ∈ calls.record
  current : ∀ connection, current = some connection → Open connection calls.record
  numbered : ∀ entry ∈ calls.record, ∀ connection, entry.Mentions connection →
    connection < connections

namespace CallsInv

variable {calls : CallState} {flight : Option QueuedCall} {current : Option Connection}
  {connections : Nat}

/-- A call is pending and not answered, or answered and not pending. -/
theorem not_answered (h : CallsInv calls flight current connections) {call : QueuedCall}
    (hpending : call ∈ pendingCalls calls flight) : call ∉ answeredCalls calls.record := by
  have hnodup := h.accounted.nodup_iff.mpr h.nodup
  exact fun hanswered => List.disjoint_of_nodup_append hnodup hanswered hpending

/-- No call is active while the request of another is being sent. -/
theorem length_startedCalls (h : CallsInv calls flight current connections) :
    (startedCalls calls flight).length ≤ 1 := by
  rw [startedCalls, List.length_append]
  cases hactive : calls.activeCall with
  | none => cases flight <;> simp
  | some active =>
    obtain ⟨rfl, -⟩ := h.active active hactive
    simp

/-- A call that owes an answer has been taken. -/
theorem mem_taken (h : CallsInv calls flight current connections) {call : QueuedCall}
    (hpending : call ∈ pendingCalls calls flight) : call ∈ takenCalls calls.record :=
  h.accounted.mem_iff.mp (List.mem_append_right _ hpending)

/-- The active call keeps its connection when something else is recorded. -/
theorem active_cons (h : CallsInv calls flight current connections) (entry : CallEntry) :
    ∀ active, calls.activeCall = some active → flight = none ∧
      ∃ connection, calls.stream = some connection ∧
        .wrote connection active.requestId active.call ∈ entry :: calls.record := by
  intro active hactive
  obtain ⟨hflight, connection, hstream, hwrote⟩ := h.active active hactive
  exact ⟨hflight, connection, hstream, List.mem_cons_of_mem _ hwrote⟩

theorem current_cons (h : CallsInv calls flight current connections) {entry : CallEntry}
    (hmentions : ∀ {connection}, ¬ entry.Mentions connection) :
    ∀ connection, current = some connection → Open connection (entry :: calls.record) := by
  intro connection hcurrent
  refine (h.current connection hcurrent).cons ?_ fun call => ?_
  · rintro rfl
    exact hmentions rfl
  · rintro rfl
    exact hmentions rfl

/-- The connections mentioned stay below the next number when the new entry mentions none. -/
theorem numbered_cons (h : CallsInv calls flight current connections) {entry : CallEntry}
    (hmentions : ∀ {connection}, ¬ entry.Mentions connection) :
    ∀ other ∈ entry :: calls.record, ∀ connection, other.Mentions connection →
      connection < connections := by
  intro other hmem connection hother
  obtain rfl | hmem := List.mem_cons.mp hmem
  · exact absurd hother hmentions
  · exact h.numbered other hmem connection hother

/-- A silent entry with a reason changes nothing about the calls. -/
theorem note (h : CallsInv calls flight current connections) {entry : CallEntry}
    (hsilent : entry.Silent) (hjustified : Justified entry calls.record)
    {current' : Option Connection} {connections' : Nat} (hle : connections ≤ connections')
    (hmentions : ∀ connection, entry.Mentions connection → connection < connections')
    (hcurrent : ∀ connection, current' = some connection → Open connection (entry :: calls.record)) :
    CallsInv (calls.note entry) flight current' connections' where
  accounted := by
    rw [record_note, answeredCalls_silent hsilent, takenCalls_silent hsilent, pendingCalls_note]
    exact h.accounted
  nodup := by
    rw [record_note, takenCalls_silent hsilent]
    exact h.nodup
  explained := ⟨hjustified, h.explained⟩
  encodes := h.encodes
  written := by
    rw [record_note, writtenCalls_silent hsilent, answeredCalls_silent hsilent, startedCalls_note]
    exact h.written
  active := h.active_cons _
  current := hcurrent
  numbered other hmem connection hother := by
    obtain rfl | hmem := List.mem_cons.mp hmem
    · exact hmentions connection hother
    · exact (h.numbered other hmem connection hother).trans_le hle

/-- An entry that leaves the current connection open. -/
theorem note_open (h : CallsInv calls flight current connections) {entry : CallEntry}
    (hsilent : entry.Silent) (hjustified : Justified entry calls.record)
    (hmentions : ∀ {connection}, ¬ entry.Mentions connection) :
    CallsInv (calls.note entry) flight current connections :=
  h.note hsilent hjustified le_rfl (fun _ hother => absurd hother hmentions)
    (h.current_cons hmentions)

/-- A connection opens under the next number, which no entry mentions. -/
theorem opened (h : CallsInv calls flight none connections) :
    CallsInv (calls.note (.opened connections)) flight (some connections) (connections + 1) := by
  have hnew (entry : CallEntry) (hentry : entry.Mentions connections) : entry ∉ calls.record :=
    fun hmem => lt_irrefl _ (h.numbered entry hmem connections hentry)
  have hsilent : (CallEntry.opened connections).Silent := trivial
  refine h.note hsilent trivial (Nat.le_succ _) (fun connection hother => ?_) fun _ hcurrent => ?_
  · exact hother ▸ Nat.lt_succ_self _
  · cases hcurrent
    exact
      { opened := List.mem_cons_self
        not_closed := List.not_mem_cons_of_ne_of_not_mem (by simp) (hnew _ rfl)
        not_timedOut := fun call =>
          List.not_mem_cons_of_ne_of_not_mem (by simp) (hnew (.timedOut connections call) rfl) }

/-- An entry that ends the current connection. -/
theorem ended {connection : Connection} (h : CallsInv calls flight current connections)
    (hopened : .opened connection ∈ calls.record) {entry : CallEntry} (hsilent : entry.Silent)
    (hjustified : Justified entry calls.record)
    (hmentions : ∀ other, entry.Mentions other → connection = other) :
    CallsInv (calls.note entry) flight none connections := by
  refine h.note hsilent hjustified le_rfl (fun other hother => ?_) fun _ hcurrent => by cases hcurrent
  rw [← hmentions other hother]
  exact h.numbered _ hopened connection rfl

/-- A call comes from the channel. -/
theorem take (h : CallsInv calls flight current connections) {call : QueuedCall}
    (hnew : call ∉ takenCalls calls.record) (hencodes : call.payload.length < 2 ^ 32) :
    CallsInv { calls with
      queuedCalls := calls.queuedCalls ++ [call]
      record := .taken call :: calls.record } flight current connections where
  accounted := by
    have hpending : answeredCalls calls.record ++ (startedCalls calls flight ++
        (calls.queuedCalls ++ [call])) =
        (answeredCalls calls.record ++ pendingCalls calls flight) ++ [call] := by
      simp only [pendingCalls, List.append_assoc]
    change List.Perm (answeredCalls calls.record ++ (startedCalls calls flight ++
      (calls.queuedCalls ++ [call]))) (call :: takenCalls calls.record)
    rw [hpending]
    exact (List.perm_append_singleton _ _).trans (h.accounted.cons call)
  nodup := List.nodup_cons.mpr ⟨hnew, h.nodup⟩
  explained := ⟨trivial, h.explained⟩
  encodes other hother := by
    obtain hother | hother := List.mem_append.mp hother
    · exact h.encodes other hother
    · exact List.mem_singleton.mp hother ▸ hencodes
  written := h.written
  active := h.active_cons _
  current := h.current_cons id
  numbered := h.numbered_cons id

/-- The request of the first queued call is written when no other call is unanswered. -/
theorem write {connection : Connection} {call : QueuedCall} {rest : List QueuedCall}
    (h : CallsInv calls none current connections) (hcurrent : current = some connection)
    (hactive : calls.activeCall = none) (hqueued : calls.queuedCalls = call :: rest)
    (hsubscribed : ∀ subscription value, .answered subscription (.ok value) ∈ calls.record →
      subscription.operation = .subscribe →
      .acknowledged connection subscription.payload ∈ calls.record) (requestId : UInt64) :
    CallsInv ({ calls with queuedCalls := rest }.note (.wrote connection requestId call))
      (some call) current connections where
  accounted := by
    have hpending : pendingCalls calls none = [call] ++ rest := by
      simp only [pendingCalls, startedCalls, hactive, hqueued]
      rfl
    have hstarted : pendingCalls { calls with queuedCalls := rest } (some call) = [call] ++ rest := by
      simp only [pendingCalls, startedCalls, hactive]
      rfl
    rw [pendingCalls_note, hstarted, ← hpending]
    exact h.accounted
  nodup := h.nodup
  explained := by
    have hpending : call ∈ pendingCalls calls none := by
      rw [pendingCalls, hqueued]
      exact List.mem_append_right _ List.mem_cons_self
    refine ⟨⟨h.current connection hcurrent, h.mem_taken hpending, h.not_answered hpending, ?_,
      hsubscribed⟩, h.explained⟩
    intro other hother
    refine (h.written other hother).resolve_right ?_
    simp [startedCalls, hactive]
  encodes other hother := h.encodes other (hqueued ▸ List.mem_cons_of_mem _ hother)
  written other hother := by
    obtain rfl | hother := List.mem_cons.mp hother
    · exact .inr List.mem_cons_self
    · refine .inl ((h.written other hother).resolve_right ?_)
      simp [startedCalls, hactive]
  active active hsome := by
    change calls.activeCall = some active at hsome
    rw [hactive] at hsome
    cases hsome
  current := h.current_cons id
  numbered := h.numbered_cons id

/-- The request is sent: its call is active. -/
theorem sent {connection : Connection} {requestId : UInt64} {call : QueuedCall}
    (h : CallsInv calls (some call) current connections) (hactive : calls.activeCall = none)
    (hstream : calls.stream = some connection)
    (hwrote : .wrote connection requestId call ∈ calls.record) :
    CallsInv { calls with
      activeCall := some ⟨requestId, call.operation, call.payload, call.response⟩ } none current
      connections where
  accounted := by
    have hpending : pendingCalls calls (some call) = [call] ++ calls.queuedCalls := by
      simp only [pendingCalls, startedCalls, hactive]
      rfl
    have haccounted := h.accounted
    rw [hpending] at haccounted
    exact haccounted
  nodup := h.nodup
  explained := h.explained
  encodes := h.encodes
  written other hother := by
    refine (h.written other hother).imp_right fun hstarted => ?_
    rw [startedCalls, hactive] at hstarted
    exact hstarted
  active active hsome := by
    cases hsome
    exact ⟨rfl, connection, hstream, hwrote⟩
  current := h.current
  numbered := h.numbered

/-- An answer to the call that is started, with a reason. -/
theorem answerStarted {call : QueuedCall} (h : CallsInv calls flight current connections)
    (hstarted : startedCalls calls flight = [call]) {result : Except NetworkError Bytes}
    (hjustified : Justified (.answered call result) calls.record) :
    CallsInv ({ calls with activeCall := none }.note (.answered call result)) none current
      connections where
  accounted := by
    have haccounted := h.accounted
    rw [pendingCalls, hstarted] at haccounted
    exact List.perm_middle.symm.trans haccounted
  nodup := h.nodup
  explained := ⟨hjustified, h.explained⟩
  encodes := h.encodes
  written other hother := by
    left
    obtain hanswered | hother := h.written other hother
    · exact List.mem_cons_of_mem _ hanswered
    · rw [hstarted] at hother
      exact List.mem_singleton.mp hother ▸ List.mem_cons_self
  active active hsome := by cases hsome
  current := h.current_cons id
  numbered := h.numbered_cons id

/-- An error for the first call of the queue. -/
theorem failQueued {call : QueuedCall} {rest : List QueuedCall}
    (h : CallsInv calls flight current connections) (hqueued : calls.queuedCalls = call :: rest)
    (error : NetworkError) :
    CallsInv ({ calls with queuedCalls := rest }.note (.answered call (.error error))) flight current
      connections where
  accounted := by
    have haccounted := h.accounted
    rw [pendingCalls, hqueued, ← List.append_assoc] at haccounted
    have hmoved := List.perm_middle.symm.trans haccounted
    rw [List.append_assoc] at hmoved
    exact hmoved
  nodup := h.nodup
  explained := ⟨trivial, h.explained⟩
  encodes other hother := h.encodes other (hqueued ▸ List.mem_cons_of_mem _ hother)
  written other hother := (h.written other hother).imp_left (List.mem_cons_of_mem _)
  active := h.active_cons _
  current := h.current_cons id
  numbered := h.numbered_cons id

/-- The active call is answered with the error, and there is none after it. -/
theorem failActiveCall (h : CallsInv calls flight current connections) (error : NetworkError) :
    CallsInv (calls.failActiveCall error) flight current connections := by
  rw [CallState.failActiveCall]
  split
  case h_1 active hactive =>
    obtain ⟨rfl, -⟩ := h.active active hactive
    refine h.answerStarted ?_ trivial
    rw [startedCalls, hactive]
    rfl
  case h_2 => exact h

/-- Every waiting call is answered with the error, in order. -/
theorem failAllQueuedCalls (h : CallsInv calls flight current connections) (error : NetworkError) :
    CallsInv (calls.failAllQueuedCalls error) flight current connections := by
  generalize hqueued : calls.queuedCalls = queued
  induction queued generalizing calls with
  | nil =>
    have hsame : calls.failAllQueuedCalls error = calls := by
      obtain ⟨stream, subscriptions, queuedCalls, activeCall, record⟩ := calls
      cases hqueued
      rfl
    rw [hsame]
    exact h
  | cons call rest ih =>
    have hfirst : calls.failAllQueuedCalls error =
        ({ calls with queuedCalls := rest }.note (.answered call (.error error))).failAllQueuedCalls
          error := by
      simp only [CallState.failAllQueuedCalls, CallState.note, hqueued, List.map_cons,
        List.reverse_cons, List.append_assoc, List.singleton_append]
    rw [hfirst]
    exact ih (h.failQueued hqueued error) rfl

/-- The stream is dropped when no call is active on it. -/
theorem dropStream {connection : Connection} (h : CallsInv calls flight current connections)
    (hactive : calls.activeCall = none) (hstream : calls.stream = some connection)
    (hopened : .opened connection ∈ calls.record) :
    CallsInv calls.dropStream flight none connections := by
  have hdropped : CallsInv { calls with stream := none } flight current connections :=
    { h with
      active := fun active hsome => by
        change calls.activeCall = some active at hsome
        rw [hactive] at hsome
        cases hsome }
  have hsilent : (CallEntry.closed connection).Silent := trivial
  rw [CallState.dropStream, hstream]
  exact hdropped.ended hopened hsilent trivial fun _ hother => hother

/-- Without a stream no call is active, and any stream may come. -/
theorem connect (h : CallsInv calls flight current connections) (hstream : calls.stream = none)
    (connection : Connection) :
    CallsInv { calls with stream := some connection } flight current connections :=
  { h with
    active := fun active hsome => by
      obtain ⟨-, other, hother, -⟩ := h.active active hsome
      rw [hstream] at hother
      cases hother }

end CallsInv

/-! ## Subscriptions -/

/-- The subscriptions answered with success are kept, and acknowledged on the driver's socket. -/
structure SubscriptionsInv (calls : CallState) : Prop where
  subscribed : ∀ call value, .answered call (.ok value) ∈ calls.record →
    call.operation = .subscribe → call.payload ∈ calls.subscriptions
  acknowledged : ∀ connection, calls.stream = some connection →
    ∀ payload ∈ calls.subscriptions, .acknowledged connection payload ∈ calls.record

/-- The entry is no success of a subscription. -/
def Unsubscribed (entry : CallEntry) : Prop :=
  ∀ call value, entry = .answered call (.ok value) → call.operation ≠ .subscribe

/-- A silent entry is no answer. -/
theorem unsubscribed_of_silent {entry : CallEntry} (h : entry.Silent) : Unsubscribed entry := by
  intro call value heq
  rw [heq] at h
  exact h.elim

theorem unsubscribed_wrote (connection : Connection) (requestId : UInt64) (call : QueuedCall) :
    Unsubscribed (.wrote connection requestId call) := by
  intro other value heq
  cases heq

/-- A failed answer subscribes to nothing. -/
theorem unsubscribed_error (call : QueuedCall) (error : NetworkError) :
    Unsubscribed (.answered call (.error error)) := by
  intro other value heq
  cases heq

namespace SubscriptionsInv

variable {calls : CallState}

/-- What is recorded without subscribing leaves the subscriptions. -/
theorem note (h : SubscriptionsInv calls) {entry : CallEntry} (hentry : Unsubscribed entry) :
    SubscriptionsInv (calls.note entry) where
  subscribed call value hmem hoperation := by
    obtain heq | hmem := List.mem_cons.mp hmem
    · exact absurd hoperation (hentry call value heq.symm)
    · exact h.subscribed call value hmem hoperation
  acknowledged connection hstream payload hmem :=
    List.mem_cons_of_mem _ (h.acknowledged connection hstream payload hmem)

theorem failActiveCall (h : SubscriptionsInv calls) (error : NetworkError) :
    SubscriptionsInv (calls.failActiveCall error) := by
  rw [CallState.failActiveCall]
  split
  · have hfree : SubscriptionsInv { calls with activeCall := none } := ⟨h.subscribed, h.acknowledged⟩
    exact hfree.note (unsubscribed_error _ _)
  · exact h

theorem failAllQueuedCalls (h : SubscriptionsInv calls) (error : NetworkError) :
    SubscriptionsInv (calls.failAllQueuedCalls error) where
  subscribed call value hmem hoperation := by
    refine h.subscribed call value ((List.mem_append.mp hmem).resolve_left ?_) hoperation
    simp
  acknowledged connection hstream payload hmem :=
    List.mem_append_right _ (h.acknowledged connection hstream payload hmem)

/-- Without a connection there is no subscription to keep. -/
theorem dropStream (h : SubscriptionsInv calls) : SubscriptionsInv calls.dropStream := by
  rw [CallState.dropStream]
  split
  case h_1 connection _ =>
    have hdropped : SubscriptionsInv { calls with stream := none } := by
      refine ⟨h.subscribed, fun other hstream => ?_⟩
      cases hstream
    have hsilent : (CallEntry.closed connection).Silent := trivial
    exact hdropped.note (unsubscribed_of_silent hsilent)
  case h_2 => exact h

end SubscriptionsInv

/-! ## A response -/

section response

variable {calls : CallState} {connection : Connection} {connections : Nat} {frame : Bytes}

/-- The active call, whose request was written on this connection, before any answer. -/
theorem CallsInv.wrote_before {active : ActiveCall} {before : List CallEntry}
    (h : CallsInv calls none (some connection) connections)
    (hstream : calls.stream = some connection) (hactive : calls.activeCall = some active)
    (hreceived : calls.record = .received connection frame :: before) :
    .wrote connection active.requestId active.call ∈ before := by
  obtain ⟨-, connection', hstream', hwrote⟩ := h.active active hactive
  cases hstream.symm.trans hstream'
  rw [hreceived] at hwrote
  exact (List.mem_cons.mp hwrote).resolve_left (by simp)

/-- The payload of the frame received last may answer the active call. -/
theorem CallsInv.justified_ok {active : ActiveCall} {before : List CallEntry} {payload : Bytes}
    (h : CallsInv calls none (some connection) connections)
    (hstream : calls.stream = some connection) (hactive : calls.activeCall = some active)
    (hreceived : calls.record = .received connection frame :: before)
    (hvalid : validateResponse frame active.requestId active.operation = .ok payload) :
    Justified (.answered active.call (.ok payload)) calls.record := by
  obtain ⟨decoded, hdecoded, hid, hkind, hoperation, hpayload⟩ := validateResponse_eq_ok hvalid
  exact ⟨connection, active.requestId, frame, decoded, before, hreceived,
    h.wrote_before hstream hactive hreceived, hdecoded, hid, hkind, hoperation, hpayload⟩

/-- With an active call nothing is in flight. -/
theorem CallsInv.startedCalls_eq {flight : Option QueuedCall} {current : Option Connection}
    {active : ActiveCall} (h : CallsInv calls flight current connections)
    (hactive : calls.activeCall = some active) : startedCalls calls flight = [active.call] := by
  obtain ⟨rfl, -⟩ := h.active active hactive
  rw [startedCalls, hactive]
  rfl

/-- A response answers the active call if it is the expected one, and fails it otherwise. -/
theorem CallsInv.handleResponse {before : List CallEntry}
    (h : CallsInv calls none (some connection) connections)
    (hstream : calls.stream = some connection)
    (hreceived : calls.record = .received connection frame :: before) (actual : UInt64) :
    CallsInv (handleResponse connection frame actual calls).1 none (some connection)
      connections := by
  rw [Native.handleResponse]
  split
  case h_1 => exact h
  case h_2 active hactive =>
    have hstarted := h.startedCalls_eq hactive
    split
    case isTrue => exact h.answerStarted hstarted trivial
    case isFalse =>
      split
      case h_2 => exact h.answerStarted hstarted trivial
      case h_1 payload hvalid =>
        have hanswered := h.answerStarted hstarted
          (h.justified_ok hstream hactive hreceived hvalid)
        split
        case isFalse => exact hanswered
        case isTrue hoperation =>
          have hsilent : (CallEntry.acknowledged connection active.payload).Silent := trivial
          have hvalid : validateResponse frame active.requestId .subscribe = .ok payload :=
            hoperation ▸ hvalid
          have hwrote := h.wrote_before hstream hactive hreceived
          have hacknowledged := hanswered.note_open hsilent
            ⟨active.requestId, frame, payload, by simp [hreceived], .inr
              ⟨active.call, hoperation, rfl, by simp [hreceived, hwrote]⟩, hvalid⟩ id
          exact
            { accounted := hacknowledged.accounted
              nodup := hacknowledged.nodup
              explained := hacknowledged.explained
              encodes := hacknowledged.encodes
              written := hacknowledged.written
              active := hacknowledged.active
              current := hacknowledged.current
              numbered := hacknowledged.numbered }

/-- A subscription is only recorded on the connection the response came from. -/
theorem SubscriptionsInv.handleResponse (h : SubscriptionsInv calls)
    (hstream : calls.stream = some connection) (actual : UInt64) :
    SubscriptionsInv (handleResponse connection frame actual calls).1 := by
  have hfree : SubscriptionsInv { calls with activeCall := none } := ⟨h.subscribed, h.acknowledged⟩
  rw [Native.handleResponse]
  split
  case h_1 => exact h
  case h_2 active hactive =>
    split
    case isTrue => exact hfree.note (unsubscribed_error _ _)
    case isFalse =>
      split
      case h_2 => exact hfree.note (unsubscribed_error _ _)
      case h_1 payload hvalid =>
        split
        case isFalse hoperation =>
          refine hfree.note fun call value heq => ?_
          cases heq
          exact hoperation
        case isTrue hoperation =>
          have hkept (subscription : Bytes) : subscription ∈ (if active.payload ∈ calls.subscriptions
              then calls.subscriptions else calls.subscriptions ++ [active.payload]) ↔
              subscription ∈ calls.subscriptions ∨ subscription = active.payload := by
            split
            case isTrue hmem =>
              refine ⟨.inl, fun h => h.elim id ?_⟩
              rintro rfl
              exact hmem
            case isFalse => simp
          refine ⟨fun call value hmem hsubscribe => (hkept _).mpr ?_,
            fun other hother subscription hmem => ?_⟩
          · obtain heq | hmem := List.mem_cons.mp ((List.mem_cons.mp hmem).resolve_left (by simp))
            · cases heq
              exact .inr rfl
            · exact .inl (h.subscribed call value hmem hsubscribe)
          · cases hstream.symm.trans hother
            obtain hmem | rfl := (hkept _).mp hmem
            · refine List.mem_cons_of_mem _ (List.mem_cons_of_mem _ ?_)
              exact h.acknowledged connection hstream subscription hmem
            · exact List.mem_cons_self

/-- What a response leaves as it was. -/
theorem handleResponse_frame (calls : CallState) (actual : UInt64) :
    (handleResponse connection frame actual calls).1.stream = calls.stream ∧
      takenCalls (handleResponse connection frame actual calls).1.record =
        takenCalls calls.record := by
  rw [handleResponse]
  split
  · exact ⟨rfl, rfl⟩
  · split
    · exact ⟨rfl, rfl⟩
    · split
      · split <;> exact ⟨rfl, rfl⟩
      · exact ⟨rfl, rfl⟩

end response

/-! ## What the failures leave -/

section failures

variable (calls : CallState) (error : NetworkError)

/-- Failing calls takes none from the queue. -/
@[simp] theorem takenCalls_failActiveCall :
    takenCalls (calls.failActiveCall error).record = takenCalls calls.record := by
  rw [CallState.failActiveCall]
  split <;> rfl

@[simp] theorem takenCalls_failAllQueuedCalls :
    takenCalls (calls.failAllQueuedCalls error).record = takenCalls calls.record := by
  rw [takenCalls, CallState.failAllQueuedCalls, List.filterMap_append, ← List.map_reverse,
    List.filterMap_map]
  simp [takenCalls, Function.comp_def, CallEntry.takenCall]

@[simp] theorem takenCalls_dropStream :
    takenCalls calls.dropStream.record = takenCalls calls.record := by
  rw [CallState.dropStream]
  split <;> rfl

@[simp] theorem activeCall_failActiveCall : (calls.failActiveCall error).activeCall = none := by
  rw [CallState.failActiveCall]
  split
  · rfl
  · assumption

@[simp] theorem activeCall_failAllQueuedCalls :
    (calls.failAllQueuedCalls error).activeCall = calls.activeCall := rfl

@[simp] theorem activeCall_dropStream : calls.dropStream.activeCall = calls.activeCall := by
  rw [CallState.dropStream]
  split <;> rfl

@[simp] theorem queuedCalls_failAllQueuedCalls :
    (calls.failAllQueuedCalls error).queuedCalls = [] := rfl

@[simp] theorem queuedCalls_dropStream : calls.dropStream.queuedCalls = calls.queuedCalls := by
  rw [CallState.dropStream]
  split <;> rfl

@[simp] theorem stream_failActiveCall : (calls.failActiveCall error).stream = calls.stream := by
  rw [CallState.failActiveCall]
  split <;> rfl

@[simp] theorem stream_failAllQueuedCalls :
    (calls.failAllQueuedCalls error).stream = calls.stream := rfl

@[simp] theorem stream_dropStream : calls.dropStream.stream = none := by
  rw [CallState.dropStream]
  split
  · rfl
  · assumption

/-- The record only grows. -/
theorem mem_failActiveCall {entry : CallEntry} (h : entry ∈ calls.record) :
    entry ∈ (calls.failActiveCall error).record := by
  rw [CallState.failActiveCall]
  split
  · exact List.mem_cons_of_mem _ h
  · exact h

theorem mem_failAllQueuedCalls {entry : CallEntry} (h : entry ∈ calls.record) :
    entry ∈ (calls.failAllQueuedCalls error).record :=
  List.mem_append_right _ h

end failures

end KaspaPortal.Platform.Native
