import UniversalAgent.Runtime.Watching

/-!
# Runtime — SignalBroker

The event stream of `runtime/event_stream.py`, which a broker wakes up: the in-memory broker with its
subscriptions, and the generator of `BrokerBackedEventStream`. A signal is no event: it only tells the stream
to read the journal again, and a subscription whose queue is full drops it.

The journal is behind a reader, of which only is known that it returns the next events after a cursor. It
reads the journal at some moment of the call, and the stream gets its answer at a later one. Between any two
steps events are appended, signals arrive (those of events that are long there, signals twice, or none at
all) and others subscribe.
-/

namespace UniversalAgent.Runtime

open UniversalAgent.Core UniversalAgent.Foundation

/-! ## Readers -/

def WatchRequest.from (w : WatchRequest) (cursor : Option EventId) : WatchRequest :=
  { w with afterEventId := cursor }

/-- A page of the next events: the first of them, no more than the limit, and some if there are any. -/
structure PageOf (next : List RuntimeEvent) (limit : Int) (page : List RuntimeEvent) : Prop where
  first : page <+: next
  bounded : (page.length : Int) ≤ limit
  nonempty : page = [] → next = []

/-- `EventReader`: the reader of a durable journal. It returns a page of the next events after a cursor, or
raises if the cursor is not there. -/
structure EventReader where
  listEvents : InMemoryEventSink → Option SessionId → Option EventId → Option Int →
    Except EventStreamError (List RuntimeEvent)
  next : ∀ journal (w : WatchRequest) limit, 0 < limit → Started w journal →
    ∃ page, listEvents journal w.sessionId w.afterEventId (some limit) = .ok page ∧
      PageOf (w.matching journal) limit page
  absent : ∀ journal (w : WatchRequest) limit, 0 < limit → ¬Started w journal →
    ∃ e, listEvents journal w.sessionId w.afterEventId (some limit) = .error e

/-! ## The broker -/

structure EventStreamSignal where
  sessionId : SessionId
  eventId : EventId
deriving DecidableEq

/-- `_InMemoryEventSignalSubscription`, known by a number. One that is closed is no longer listed. -/
structure EventSignalSubscription where
  key : Nat
  sessionId : Option SessionId
  maxBufferSize : Int
  queue : List EventStreamSignal
  droppedNotificationCount : Nat
deriving DecidableEq

namespace EventSignalSubscription

variable (subscription : EventSignalSubscription)

def accepts (sessionId : SessionId) : Bool :=
  subscription.sessionId.isNone || decide (subscription.sessionId = some sessionId)

/-- `notify`: the number of signals that were dropped. -/
def notify (signal : EventStreamSignal) : EventSignalSubscription × Nat :=
  if subscription.maxBufferSize ≤ subscription.queue.length then
    ({ subscription with droppedNotificationCount := subscription.droppedNotificationCount + 1 }, 1)
  else ({ subscription with queue := subscription.queue ++ [signal] }, 0)

end EventSignalSubscription

/-- `InMemoryEventSignalBroker`, with the number of the next subscription. -/
structure InMemoryEventSignalBroker where
  subscriptions : List EventSignalSubscription
  droppedNotificationCount : Nat
  nextKey : Nat

namespace InMemoryEventSignalBroker

def empty : InMemoryEventSignalBroker := ⟨[], 0, 0⟩

variable (broker : InMemoryEventSignalBroker)

def subscriberCount : Nat := broker.subscriptions.length

def subscribe (sessionId : Option SessionId) (maxBufferSize : Int) :
    Except EventStreamError (Nat × InMemoryEventSignalBroker) :=
  if maxBufferSize ≤ 0 then .error (.value "event signal max_buffer_size must be positive")
  else .ok (broker.nextKey, { broker with
    subscriptions := broker.subscriptions ++ [⟨broker.nextKey, sessionId, maxBufferSize, [], 0⟩]
    nextKey := broker.nextKey + 1 })

/-- The subscriptions after a signal, and how many of them dropped it. -/
def deliver (signal : EventStreamSignal) :
    List EventSignalSubscription → List EventSignalSubscription × Nat
  | [] => ([], 0)
  | subscription :: rest =>
    let delivered := deliver signal rest
    if subscription.accepts signal.sessionId then
      let notified := subscription.notify signal
      (notified.1 :: delivered.1, notified.2 + delivered.2)
    else (subscription :: delivered.1, delivered.2)

def notify (event : RuntimeEvent) : InMemoryEventSignalBroker :=
  let delivered := deliver ⟨event.sessionId, event.id⟩ broker.subscriptions
  { broker with
    subscriptions := delivered.1
    droppedNotificationCount := broker.droppedNotificationCount + delivered.2 }

/-- `_remove`, by which a subscription closes. -/
def remove (key : Nat) : InMemoryEventSignalBroker :=
  { broker with subscriptions := broker.subscriptions.filter fun s => decide (s.key ≠ key) }

/-- `queue.get()`: whether a subscription has a signal, and the broker without it. -/
def take (key : Nat) : Option InMemoryEventSignalBroker :=
  if broker.subscriptions.any fun s => decide (s.key = key) && !s.queue.isEmpty then
    some { broker with
      subscriptions := broker.subscriptions.map fun s =>
        if s.key = key then { s with queue := s.queue.tail } else s }
  else none

end InMemoryEventSignalBroker

/-! ## The stream -/

structure BrokerBackedEventStream where
  reader : EventReader
  maxCatchupEvents : Int
  notificationBufferSize : Int
  catchup : 0 < maxCatchupEvents
  buffer : 0 < notificationBufferSize

/-- `BrokerBackedEventStream.__init__`. -/
def BrokerBackedEventStream.new (reader : EventReader) (maxCatchupEvents notificationBufferSize : Int) :
    Except EventStreamError BrokerBackedEventStream :=
  if hcatchup : 0 < maxCatchupEvents then
    if hbuffer : 0 < notificationBufferSize then
      .ok ⟨reader, maxCatchupEvents, notificationBufferSize, hcatchup, hbuffer⟩
    else .error (.value "event stream notification_buffer_size must be positive")
  else .error (.value "event stream max_catchup_events must be positive")

/-- Where the generator stands: not begun, in a call of the reader that has not read the journal yet or that
has, with an item in its consumer's hand, in `subscription.next`, or ended. -/
inductive StreamStage where
  | fresh
  | reading
  | read (result : Except EventStreamError (List RuntimeEvent))
  | yielding (event : RuntimeEvent) (rest : List RuntimeEvent)
  | waiting
  | beating
  | ended

structure Streaming where
  journal : InMemoryEventSink
  broker : InMemoryEventSignalBroker
  subscription : Option Nat
  cursor : Option EventId
  stage : StreamStage

/-- What happens next: an event is appended to the journal, the broker is notified of an event, another
subscribes or closes its subscription; the consumer asks for an item; the reader reads the journal; the
event loop gives the generator its turn; its timer fires; the consumer closes the stream or is cancelled. -/
inductive StreamInput where
  | append (event : RuntimeEvent)
  | notify (event : RuntimeEvent)
  | subscribe (sessionId : Option SessionId) (maxBufferSize : Int)
  | unsubscribe (key : Nat)
  | next
  | fetch
  | turn
  | timeout
  | close

namespace Streaming

variable (stream : BrokerBackedEventStream) (w : WatchRequest) (s : Streaming)

/-- The `finally` clause. -/
def finish : Streaming :=
  { s with
    broker := s.subscription.elim s.broker s.broker.remove
    subscription := none
    stage := .ended }

/-- The first step: the interval is checked and the stream subscribes. -/
def begin : WatchAnswer × Streaming :=
  if w.heartbeatInterval ≤ 0 then
    (.raised (.value "event stream heartbeat interval must be positive"), { s with stage := .ended })
  else
    match s.broker.subscribe w.sessionId stream.notificationBufferSize with
    | .error e => (.raised e, { s with stage := .ended })
    | .ok (key, broker) =>
      (.slept, { s with
        broker := broker, subscription := some key, cursor := w.afterEventId, stage := .reading })

def give : List RuntimeEvent → WatchAnswer × Streaming
  | [] => (.slept, { s with stage := .reading })
  | event :: rest => (.yielded event, { s with stage := .yielding event rest })

/-- The reader has answered: a batch is handed out, or the generator waits for a signal. -/
def answered : Except EventStreamError (List RuntimeEvent) → WatchAnswer × Streaming
  | .error e => (.raised e, s.finish)
  | .ok [] => (.slept, { s with stage := .waiting })
  | .ok (event :: rest) => (.yielded event, { s with stage := .yielding event rest })

def wake : WatchAnswer × Streaming :=
  match s.subscription.bind s.broker.take with
  | some broker => (.slept, { s with broker := broker, stage := .reading })
  | none => (.nothing, s)

def step : StreamInput → WatchAnswer × Streaming
  | .append event => (.nothing, { s with journal := s.journal.append event })
  | .notify event => (.nothing, { s with broker := s.broker.notify event })
  | .subscribe sessionId maxBufferSize =>
    match s.broker.subscribe sessionId maxBufferSize with
    | .error _ => (.nothing, s)
    | .ok (_, broker) => (.nothing, { s with broker := broker })
  | .unsubscribe key =>
    if s.subscription = some key then (.nothing, s) else (.nothing, { s with broker := s.broker.remove key })
  | .next =>
    match s.stage with
    | .fresh => s.begin stream w
    | .yielding event rest => Streaming.give { s with cursor := some event.id } rest
    | .beating => (.slept, { s with stage := .reading })
    | _ => (.nothing, s)
  | .fetch =>
    match s.stage with
    | .reading =>
      (.nothing, { s with
        stage := .read
          (stream.reader.listEvents s.journal w.sessionId s.cursor (some stream.maxCatchupEvents)) })
    | _ => (.nothing, s)
  | .turn =>
    match s.stage with
    | .read result => s.answered result
    | .waiting => s.wake
    | _ => (.nothing, s)
  | .timeout =>
    -- The wait may also be cancelled where a signal has come in the meantime.
    match s.stage with
    | .waiting => (.heartbeat, { s with stage := .beating })
    | _ => (.nothing, s)
  | .close => (.nothing, s.finish)

def init : Streaming := ⟨.empty, .empty, none, none, .fresh⟩

end Streaming

def BrokerBackedEventStream.watchEvents (stream : BrokerBackedEventStream) (w : WatchRequest) :
    Machine Streaming StreamInput WatchAnswer :=
  ⟨.init, fun s i => s.step stream w i⟩

end UniversalAgent.Runtime
