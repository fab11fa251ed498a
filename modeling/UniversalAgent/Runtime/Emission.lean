import UniversalAgent.Runtime.Rejection
import UniversalAgent.State.EventStore

/-!
# Runtime — Emission

`EventEmitter` (`runtime/emission.py`): how a state change is stored and how its event is
published. A commit is several steps, each of which can raise and none of which is undone:
the event and the state are recorded in the event store, the snapshot is saved, the event is
handed to the sink. The order depends on whether the session store commits events itself.
-/

namespace UniversalAgent.Runtime

open UniversalAgent.Core UniversalAgent.Foundation UniversalAgent.State UniversalAgent.Persistence

/-! ## The emitter -/

/-- What the emitter has for an event store: none, the sink itself, or a journal apart. -/
inductive EventStorePlace where
  | absent | sink | separate
deriving DecidableEq, Repr

/-- `hasattr(state_store, "commit_session_event")`, and where such a store keeps the events it
commits: in a log of its own, or in the emitter's event store, which it then is. -/
inductive Committer where
  | none | ownLog | journal
deriving DecidableEq, Repr

structure EventEmitter where
  eventStore : EventStorePlace
  committer : Committer
deriving DecidableEq, Repr

structure Failures where
  record : Bool
  state : Bool
  emit : Bool
deriving DecidableEq, Repr

inductive Raised where
  | store (error : StoreError)
  | notSerializable
  | journal
  | sink
deriving DecidableEq, Repr

/-- `new_event_id`: no id is drawn twice. -/
structure EventIds where
  nth : Nat → EventId
  injective : Function.Injective nth

abbrev PublishedType := {type : String // type ≠ sessionStateEvent}

/-- The stores around an emitter. Where the event store is the sink, `journal` is both. -/
structure Stores {codec : JsonCodec} (B : Backend codec) where
  sessions : SessionStore B
  journal : Journal
  sink : Journal
  log : Journal
  drawn : Nat

section Emitter

variable {codec : JsonCodec} (B : Backend codec)

/-- A call of the emitter: what it has done stays done when it raises. -/
abbrev Effect := EStateM Raised (Stores B)

variable {B} (iso : IsoFormat) (ids : EventIds) (em : EventEmitter) (f : Failures)

def runtimeEvent (state : AgentState) (type : String) (actionId : Option ActionId)
    (data : JsonMapping) (now : Instant) : Effect B RuntimeEvent := do
  let stores ← get
  set { stores with drawn := stores.drawn + 1 }
  pure ⟨type, state.sessionId, state.goal.id, state.currentTask.id, ids.nth stores.drawn, actionId,
    data, now⟩

/-- `self._event_store.append(event)`. -/
def appendToJournal (raises : Bool) (event : RuntimeEvent) : Effect B Unit :=
  if raises then throw .journal
  else modify fun stores => { stores with journal := stores.journal.append event }

def record (event : RuntimeEvent) : Effect B Unit :=
  match em.eventStore with
  | .separate => appendToJournal f.record event
  | .absent | .sink => pure ()

def recordState (snapshot : SessionSnapshot) (now : Instant) : Effect B Unit :=
  match em.eventStore with
  | .absent => pure ()
  | .sink | .separate =>
    match encodeSessionSnapshot codec iso snapshot with
    | .error _ => throw .notSerializable
    | .ok form => do
        let event ← runtimeEvent ids snapshot.state sessionStateEvent none [("snapshot", form)] now
        appendToJournal f.state event

/-- `self._state_store.save_session(snapshot)`: the version the snapshot has afterwards. -/
def saveSnapshot (snapshot : SessionSnapshot) : Effect B Int := do
  let stores ← get
  match stores.sessions.saveSession snapshot with
  | .error e => throw (.store e)
  | .ok (sessions, version) =>
    set { stores with sessions := sessions }
    pure version

/-- `self._committer.commit_session_event(snapshot, event)`: both or neither. -/
def commitSnapshot (snapshot : SessionSnapshot) (event : RuntimeEvent) : Effect B Int := do
  let version ← saveSnapshot snapshot
  modify fun stores =>
    if em.committer = .journal then { stores with journal := stores.journal.append event }
    else { stores with log := stores.log.append event }
  pure version

/-- `self._event_sink.emit(event)`. -/
def sinkEmit (event : RuntimeEvent) : Effect B Unit :=
  if f.emit then throw .sink
  else modify fun stores =>
    if em.eventStore = .sink then { stores with journal := stores.journal.append event }
    else { stores with sink := stores.sink.append event }

def emit (event : RuntimeEvent) : Effect B Unit := do
  record em f event
  sinkEmit em f event

/-- `commit_session_event`: the version the session has afterwards. -/
def commitSessionEvent (session : SessionRuntimeState) (evidence : Evidence.EvidenceStore)
    (event : RuntimeEvent) (now : Instant) : Effect B Int := do
  let snapshot := session.snapshot evidence
  match em.committer with
  | .none =>
    record em f event
    recordState iso ids em f snapshot now
    let version ← saveSnapshot snapshot
    sinkEmit em f event
    pure version
  | .ownLog | .journal =>
    record em f event
    let version ← commitSnapshot em snapshot event
    recordState iso ids em f { snapshot with version := version } now
    sinkEmit em f event
    pure version

/-- The stores' part of `reject_session`. -/
def rejectCommit (snapshot : SessionSnapshot) (reason : String) (now : Instant) :
    Effect B Unit := do
  let failed := rejectedSnapshot snapshot reason
  let event ← runtimeEvent ids failed.state "GoalFailed" none
    [("error_code", .str (StrEnum.value ErrorCode.invalidState)), ("reason", .str reason)] now
  match em.committer with
  | .none =>
    let _ ← saveSnapshot failed
    sinkEmit em f event
  | .ownLog | .journal =>
    let version ← commitSnapshot em failed event
    recordState iso ids em f { failed with version := version } now

/-! ## Runs -/

/-- One transition of the runtime, as its stores see it. The session and the snapshot are whatever
the caller holds, of the stored version or not. -/
inductive Transition.Input where
  | create (session : SessionRuntimeState) (evidence : Evidence.EvidenceStore)
  | save (session : SessionRuntimeState) (evidence : Evidence.EvidenceStore)
  | emit (state : AgentState) (type : PublishedType) (actionId : Option ActionId)
      (data : JsonMapping) (now : Instant) (f : Failures)
  | commit (session : SessionRuntimeState) (evidence : Evidence.EvidenceStore)
      (type : PublishedType) (actionId : Option ActionId) (data : JsonMapping) (now : Instant)
      (f : Failures)
  | reject (snapshot : SessionSnapshot) (reason : String) (now : Instant) (f : Failures)

/-- `self._state_store.create_session(snapshot)`. -/
def createSnapshot (snapshot : SessionSnapshot) : Effect B Unit := do
  let stores ← get
  match stores.sessions.createSession snapshot with
  | .error e => throw (.store e)
  | .ok sessions => set { stores with sessions := sessions }

def perform : Transition.Input → Effect B Unit
  | .create session evidence => createSnapshot (session.snapshot evidence)
  | .save session evidence => do
      let _ ← saveSnapshot (session.snapshot evidence)
  | .emit state type actionId data now f => do
      let event ← runtimeEvent ids state type.1 actionId data now
      emit em f event
  | .commit session evidence type actionId data now f => do
      let event ← runtimeEvent ids session.state type.1 actionId data now
      let _ ← commitSessionEvent iso ids em f session evidence event now
  | .reject snapshot reason now f => rejectCommit iso ids em f snapshot reason now

def outcome {α : Type} (x : Effect B α) (stores : Stores B) : Option Raised × Stores B :=
  match x stores with
  | .ok _ stores => (none, stores)
  | .error e stores => (some e, stores)

def emissionMachine (B : Backend codec) :
    Machine (Stores B) Transition.Input (Option Raised) where
  init := ⟨.empty, [], [], [], 0⟩
  step stores input := outcome (perform iso ids em input) stores

end Emitter

end UniversalAgent.Runtime
