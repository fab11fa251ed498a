import UniversalAgent.Core.Models
import UniversalAgent.Foundation.Machine

/-!
# Runtime — EventStream

The event stream of `eventstream.py`: the in-memory sink, the reading of a batch of events after a
cursor, and the two generators that watch a stream. A watcher goes on when its consumer asks for the
next item, and when the event loop gives it a turn after it has waited; between any two of its steps
events may be appended.

`InMemoryEventSink.watch_events` waits for a flag that `emit` sets, for no longer than the heartbeat
interval. `poll_event_reader` sleeps for that interval and reads again.
-/

namespace UniversalAgent.Runtime

open UniversalAgent.Core UniversalAgent.Foundation

inductive EventStreamError where
  | eventCursor (text : String)
  | value (text : String)
deriving DecidableEq

/-! ## Batches -/

/-- The local variables of `filter_events`. -/
structure EventScan where
  selected : List RuntimeEvent
  cursorSeen : Bool
  cursorInScope : Bool
deriving DecidableEq

/-- The loop of `filter_events`. -/
def scanEvents (sessionId : Option SessionId) (afterEventId : Option EventId)
    (limit : Option Int) (scan : EventScan) : List RuntimeEvent → EventScan
  | [] => scan
  | event :: events =>
    if sessionId.any fun id => decide (event.sessionId ≠ id) then
      scanEvents sessionId afterEventId limit scan events
    else
      let inScope := scan.cursorInScope || decide (afterEventId = some event.id)
      if scan.cursorSeen then
        let selected := scan.selected ++ [event]
        if limit.any fun n => decide (n ≤ (selected.length : Int)) then
          ⟨selected, scan.cursorSeen, inScope⟩
        else
          scanEvents sessionId afterEventId limit ⟨selected, scan.cursorSeen, inScope⟩ events
      else
        scanEvents sessionId afterEventId limit
          ⟨scan.selected, decide (afterEventId = some event.id), inScope⟩ events

def filterEvents (events : List RuntimeEvent) (sessionId : Option SessionId)
    (afterEventId : Option EventId) (limit : Option Int) :
    Except EventStreamError (List RuntimeEvent) :=
  if limit.any fun n => decide (n ≤ 0) then
    .error (.value "event stream limit must be positive")
  else
    let scan := scanEvents sessionId afterEventId limit ⟨[], afterEventId.isNone, false⟩ events
    match afterEventId with
    | some id =>
      if scan.cursorInScope then .ok scan.selected
      else .error (.eventCursor ("event cursor not found: " ++ id))
    | none => .ok scan.selected

/-! ## The sink -/

/-- `InMemoryEventSink`: `_event_ids` are the ids of its events. -/
structure InMemoryEventSink where
  events : List RuntimeEvent
  nodup : (events.map RuntimeEvent.id).Nodup

namespace InMemoryEventSink

def empty : InMemoryEventSink := ⟨[], List.nodup_nil⟩

def append (sink : InMemoryEventSink) (event : RuntimeEvent) : InMemoryEventSink :=
  if h : event.id ∈ sink.events.map RuntimeEvent.id then sink
  else ⟨sink.events ++ [event], by
    rw [List.map_append, List.nodup_append]
    refine ⟨sink.nodup, List.nodup_singleton _, fun a ha b hb hab => h ?_⟩
    rw [List.map_singleton, List.mem_singleton] at hb
    exact hb ▸ hab ▸ ha⟩

def visible (sink : InMemoryEventSink) : List RuntimeEvent :=
  sink.events.filter fun event => decide (event.type ≠ "SessionStateCommitted")

def listEvents (sink : InMemoryEventSink) (sessionId : Option SessionId)
    (afterEventId : Option EventId) (limit : Option Int) :
    Except EventStreamError (List RuntimeEvent) :=
  filterEvents sink.visible sessionId afterEventId limit

def filterExisting (sink : InMemoryEventSink) (sessionId : Option SessionId)
    (cursor : Option EventId) : Except EventStreamError (List RuntimeEvent) :=
  filterEvents sink.visible sessionId cursor none

end InMemoryEventSink

/-! ## Watchers -/

structure WatchRequest where
  sessionId : Option SessionId
  afterEventId : Option EventId
  heartbeatInterval : ℚ

/-- Where a generator stands: not begun, with an item in its consumer's hand, waiting, about to be
given a turn, or ended. -/
inductive WatchStage where
  | fresh
  | yielding (event : RuntimeEvent) (rest : List RuntimeEvent)
  | waiting
  | woken
  | timedOut
  | beating
  | ended
deriving DecidableEq

/-- The sink with a watcher: its flag (`asyncio.Event`), its cursor and where it stands. -/
structure Watched where
  sink : InMemoryEventSink
  subscriber : Bool
  cursor : Option EventId
  stage : WatchStage

/-- What happens next: an event is appended or emitted, the consumer asks for an item, the event
loop's timer fires, the loop gives the watcher its turn, or the consumer closes the stream. -/
inductive WatchInput where
  | append (event : RuntimeEvent)
  | emit (event : RuntimeEvent)
  | next
  | timeout
  | turn
  | close

inductive WatchAnswer where
  | nothing
  | appended
  | slept
  | yielded (event : RuntimeEvent)
  | heartbeat
  | raised (error : EventStreamError)
deriving DecidableEq

namespace Watched

variable (w : WatchRequest) (s : Watched)

def append (event : RuntimeEvent) : WatchAnswer × Watched :=
  (if event.id ∈ s.sink.events.map RuntimeEvent.id then .nothing else .appended,
    { s with sink := s.sink.append event })

def give (orElse : WatchAnswer × Watched) : List RuntimeEvent → WatchAnswer × Watched
  | [] => orElse
  | event :: rest => (.yielded event, { s with stage := .yielding event rest })

def handOut (orElse : WatchAnswer × Watched) :
    Except EventStreamError (List RuntimeEvent) → WatchAnswer × Watched
  | .ok batch => s.give orElse batch
  | .error e => (.raised e, { s with stage := .ended })

/-! ### `InMemoryEventSink.watch_events` -/

/-- `subscriber.clear()`, and the wait begins. -/
def wait : WatchAnswer × Watched := (.slept, { s with subscriber := false, stage := .waiting })

/-- `emit`: the event is appended, and the flag is set. -/
def emit (event : RuntimeEvent) : WatchAnswer × Watched :=
  let appended := s.append event
  (appended.1, { appended.2 with
    subscriber := decide (s.stage ≠ .fresh ∧ s.stage ≠ .ended)
    stage := if s.stage = .waiting then .woken else s.stage })

def watchStep : WatchInput → WatchAnswer × Watched
  | .append event => s.append event
  | .emit event => s.emit event
  | .next =>
    match s.stage with
    | .fresh =>
      let s' := { s with cursor := w.afterEventId, subscriber := false }
      s'.handOut s'.wait (s.sink.filterExisting w.sessionId w.afterEventId)
    | .yielding event rest =>
      let s' := { s with cursor := some event.id }
      s'.give s'.wait rest
    | .beating => s.wait
    | _ => (.nothing, s)
  | .timeout =>
    -- The wait is cancelled, also where the flag has been set but the watcher has had no turn.
    match s.stage with
    | .waiting => (.nothing, { s with stage := .timedOut })
    | .woken => (.nothing, { s with stage := .timedOut })
    | _ => (.nothing, s)
  | .turn =>
    match s.stage with
    | .woken => s.handOut s.wait (s.sink.filterExisting w.sessionId s.cursor)
    | .timedOut => (.heartbeat, { s with stage := .beating })
    | _ => (.nothing, s)
  | .close => (.nothing, { s with stage := .ended })

/-! ### `poll_event_reader` -/

def sleep : WatchAnswer × Watched := (.slept, { s with stage := .waiting })

/-- The first reading of a round: its events, or else the generator sleeps. -/
def poll : WatchAnswer × Watched :=
  s.handOut s.sleep (s.sink.listEvents w.sessionId s.cursor none)

def pollStep : WatchInput → WatchAnswer × Watched
  | .append event => s.append event
  | .emit event => s.append event
  | .next =>
    match s.stage with
    | .fresh =>
      if w.heartbeatInterval ≤ 0 then
        (.raised (.value "event stream heartbeat interval must be positive"),
          { s with stage := .ended })
      else Watched.poll w { s with cursor := w.afterEventId }
    | .yielding event rest =>
      let s' := { s with cursor := some event.id }
      s'.give (s'.poll w) rest
    | .beating => s.poll w
    | _ => (.nothing, s)
  | .timeout => (.nothing, s)
  | .turn =>
    match s.stage with
    | .waiting =>
      s.handOut (.heartbeat, { s with stage := .beating })
        (s.sink.listEvents w.sessionId s.cursor none)
    | _ => (.nothing, s)
  | .close => (.nothing, { s with stage := .ended })

end Watched

def Watched.init : Watched := ⟨.empty, false, none, .fresh⟩

/-- A sink under `watch_events`. -/
def watchEvents (w : WatchRequest) : Machine Watched WatchInput WatchAnswer :=
  ⟨.init, fun s i => s.watchStep w i⟩

/-- A sink under `poll_event_reader`. -/
def pollEvents (w : WatchRequest) : Machine Watched WatchInput WatchAnswer :=
  ⟨.init, fun s i => s.pollStep w i⟩

/-! ## What a batch holds -/

def inSession (sessionId : Option SessionId) (event : RuntimeEvent) : Bool :=
  !sessionId.any fun id => decide (event.sessionId ≠ id)

def afterId (id : EventId) : List RuntimeEvent → List RuntimeEvent
  | [] => []
  | event :: events => if event.id = id then events else afterId id events

theorem afterId_append {id : EventId} {pre post : List RuntimeEvent} {event : RuntimeEvent}
    (hid : event.id = id) (hpre : id ∉ pre.map RuntimeEvent.id) :
    afterId id (pre ++ event :: post) = post := by
  induction pre with
  | nil => simp [afterId, hid]
  | cons e pre ih =>
    rw [List.map_cons, List.mem_cons, not_or] at hpre
    rw [List.cons_append, afterId, if_neg (Ne.symm hpre.1)]
    exact ih hpre.2

theorem afterId_snoc {id : EventId} {events : List RuntimeEvent} {event : RuntimeEvent}
    (hid : id ∈ events.map RuntimeEvent.id) :
    afterId id (events ++ [event]) = afterId id events ++ [event] := by
  induction events with
  | nil => cases hid
  | cons e events ih =>
    rw [List.cons_append, afterId, afterId]
    by_cases he : e.id = id
    · rw [if_pos he, if_pos he]
    · rw [if_neg he, if_neg he]
      exact ih ((List.mem_cons.mp hid).resolve_left (Ne.symm he))

theorem afterId_absent {id : EventId} {events : List RuntimeEvent}
    (hid : id ∉ events.map RuntimeEvent.id) : afterId id events = [] := by
  induction events with
  | nil => rfl
  | cons e events ih =>
    rw [List.map_cons, List.mem_cons, not_or] at hid
    rw [afterId, if_neg (Ne.symm hid.1)]
    exact ih hid.2

theorem afterId_split {id : EventId} {events : List RuntimeEvent}
    (hid : id ∈ events.map RuntimeEvent.id) :
    ∃ pre event, events = pre ++ event :: afterId id events ∧ event.id = id := by
  induction events with
  | nil => cases hid
  | cons e events ih =>
    rw [afterId]
    by_cases he : e.id = id
    · exact ⟨[], e, by rw [if_pos he, List.nil_append], he⟩
    · obtain ⟨pre, event, hsplit, hevent⟩ :=
        ih ((List.mem_cons.mp hid).resolve_left (Ne.symm he))
      refine ⟨e :: pre, event, ?_, hevent⟩
      rw [if_neg he, List.cons_append]
      exact congrArg (e :: ·) hsplit

section Scan

variable (sessionId : Option SessionId) (afterEventId : Option EventId)

theorem scanEvents_skip (limit : Option Int) (scan : EventScan) {event : RuntimeEvent}
    (h : inSession sessionId event = false) (events : List RuntimeEvent) :
    scanEvents sessionId afterEventId limit scan (event :: events)
      = scanEvents sessionId afterEventId limit scan events := by
  rw [scanEvents, if_pos (by simpa [inSession] using h)]

/-- Once the cursor has been seen, every event of the session is selected. -/
theorem scanEvents_seen (selected : List RuntimeEvent) (inScope : Bool)
    (events : List RuntimeEvent) :
    ∃ inScope', scanEvents sessionId afterEventId none ⟨selected, true, inScope⟩ events
        = ⟨selected ++ events.filter (inSession sessionId), true, inScope'⟩ ∧
      (inScope = true → inScope' = true) := by
  induction events generalizing selected inScope with
  | nil => exact ⟨inScope, by rw [scanEvents, List.filter_nil, List.append_nil], id⟩
  | cons event events ih =>
    cases hscope : inSession sessionId event with
    | false =>
      rw [scanEvents_skip _ _ _ _ hscope, List.filter_cons_of_neg (by simp [hscope])]
      exact ih selected inScope
    | true =>
      obtain ⟨inScope', hscan, himp⟩ :=
        ih (selected ++ [event]) (inScope || decide (afterEventId = some event.id))
      refine ⟨inScope', ?_, fun h => himp (by simp [h])⟩
      rw [scanEvents, if_neg (by simpa [inSession] using hscope)]
      simp only [if_true, Option.any_none, Bool.false_eq_true, if_false]
      rw [hscan, List.filter_cons_of_pos hscope, List.append_assoc, List.singleton_append]

theorem scanEvents_unseen (id : EventId) (events : List RuntimeEvent) :
    scanEvents sessionId (some id) none ⟨[], false, false⟩ events =
      if id ∈ (events.filter (inSession sessionId)).map RuntimeEvent.id then
        ⟨afterId id (events.filter (inSession sessionId)), true, true⟩
      else ⟨[], false, false⟩ := by
  induction events with
  | nil => rfl
  | cons event events ih =>
    cases hscope : inSession sessionId event with
    | false =>
      rw [scanEvents_skip _ _ _ _ hscope, List.filter_cons_of_neg (by simp [hscope])]
      exact ih
    | true =>
      rw [scanEvents, if_neg (by simpa [inSession] using hscope),
        List.filter_cons_of_pos hscope]
      simp only [Bool.false_eq_true, if_false, Bool.false_or, Option.some.injEq]
      by_cases hid : id = event.id
      · obtain ⟨inScope', hscan, himp⟩ := scanEvents_seen sessionId (some id) [] true events
        rw [decide_eq_true hid, hscan, himp rfl, if_pos (by simp [hid]), afterId,
          if_pos hid.symm, List.nil_append]
      · rw [decide_eq_false hid, ih, List.map_cons, afterId, if_neg (Ne.symm hid)]
        simp only [List.mem_cons, hid, false_or]

theorem filterEvents_none (events : List RuntimeEvent) :
    filterEvents events sessionId none none = .ok (events.filter (inSession sessionId)) := by
  obtain ⟨inScope', hscan, -⟩ := scanEvents_seen sessionId none [] false events
  simp only [filterEvents, Option.any_none, Bool.false_eq_true, if_false, Option.isNone_none, hscan,
    List.nil_append]

theorem filterEvents_some (id : EventId) (events : List RuntimeEvent) :
    filterEvents events sessionId (some id) none =
      if id ∈ (events.filter (inSession sessionId)).map RuntimeEvent.id then
        .ok (afterId id (events.filter (inSession sessionId)))
      else .error (.eventCursor ("event cursor not found: " ++ id)) := by
  simp only [filterEvents, Option.any_none, Bool.false_eq_true, if_false, Option.isNone_some,
    scanEvents_unseen]
  split <;> rfl

end Scan

end UniversalAgent.Runtime
