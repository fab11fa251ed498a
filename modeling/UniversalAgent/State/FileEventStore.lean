import UniversalAgent.Core.Dictionaries
import UniversalAgent.Core.Models
import UniversalAgent.Foundation.Machine

/-!
# State — FileEventStore

The two stores of `state/event_store.py`: `InMemoryEventStore`, and `FileEventStore` with its set of
ids, its index by session and its file of JSON lines.

A line is what `json.loads` makes of its text: `json.dumps` keeps to ASCII, and two texts in one line are
no JSON. The data of an event may be any Python values.
-/

namespace UniversalAgent.State.EventFiles

open UniversalAgent.Core UniversalAgent.Foundation

/-! ## The data of an event -/

inductive DataKey where
  | str (s : String)
  | int (i : Int)
  | float (x : PyFloat)
  | bool (b : Bool)
  | null
  | object (typeName : String)
deriving DecidableEq

/-- A value, as `json.dumps` sees it. A tuple is a `list` to it; an `object` is nothing it knows. -/
inductive DataValue where
  | null
  | bool (b : Bool)
  | int (i : Int)
  | float (x : PyFloat)
  | str (s : String)
  | list (items : List DataValue)
  | dict (fields : List (DataKey × DataValue))
  | datetime (time : Instant)
  | object (typeName : String)

structure EventTexts where
  isoformat : Instant → String
  fromisoformat : String → Option Instant
  fromisoformat_isoformat : ∀ t, fromisoformat (isoformat t) = some t
  floatText : PyFloat → String

inductive DumpError where
  | notSerializable (typeName : String)
  | badKey (typeName : String)
  | tooManyDigits
deriving DecidableEq

def maxDigits : Nat := 4300

def HasText (i : Int) : Prop := (Nat.digits 10 i.natAbs).length ≤ maxDigits

instance (i : Int) : Decidable (HasText i) := inferInstanceAs (Decidable (_ ≤ _))

def keyText (texts : EventTexts) : DataKey → Except DumpError String
  | .str s => .ok s
  | .int i => if HasText i then .ok (toString i) else .error .tooManyDigits
  | .float x => .ok (texts.floatText x)
  | .bool b => .ok (if b then "true" else "false")
  | .null => .ok "null"
  | .object typeName => .error (.badKey typeName)

def keySerialisable : DataKey → Bool
  | .str _ | .float _ | .bool _ | .null => true
  | .int i => decide (HasText i)
  | .object _ => false

mutual

/-- `json.dumps(value, default=_json_default)`, as `json.loads` reads it: of two fields with one key the
later stays. -/
def dumps (texts : EventTexts) : DataValue → Except DumpError Json
  | .null => .ok .null
  | .bool b => .ok (.bool b)
  | .int i => if HasText i then .ok (.int i) else .error .tooManyDigits
  | .float x => .ok (.float x)
  | .str s => .ok (.str s)
  | .list items => do pure (.arr (← dumpsItems texts items))
  | .dict fields => do pure (.obj (dictUpdate [] (← dumpsFields texts fields)))
  | .datetime time => .ok (.str (texts.isoformat time))
  | .object typeName => .error (.notSerializable typeName)

def dumpsItems (texts : EventTexts) : List DataValue → Except DumpError (List Json)
  | [] => .ok []
  | v :: vs => do pure ((← dumps texts v) :: (← dumpsItems texts vs))

def dumpsFields (texts : EventTexts) :
    List (DataKey × DataValue) → Except DumpError (List (String × Json))
  | [] => .ok []
  | (k, v) :: rest => do
      let key ← keyText texts k
      let value ← dumps texts v
      pure ((key, value) :: (← dumpsFields texts rest))

end

mutual

def serialisable : DataValue → Bool
  | .null | .bool _ | .float _ | .str _ | .datetime _ => true
  | .int i => decide (HasText i)
  | .list items => allSerialisable items
  | .dict fields => fieldsSerialisable fields
  | .object _ => false

def allSerialisable : List DataValue → Bool
  | [] => true
  | v :: vs => serialisable v && allSerialisable vs

def fieldsSerialisable : List (DataKey × DataValue) → Bool
  | [] => true
  | (k, v) :: rest => keySerialisable k && serialisable v && fieldsSerialisable rest

end

mutual

def ofJson : Json → DataValue
  | .null => .null
  | .bool b => .bool b
  | .int i => .int i
  | .float x => .float x
  | .str s => .str s
  | .arr items => .list (ofItems items)
  | .obj fields => .dict (ofFields fields)

def ofItems : List Json → List DataValue
  | [] => []
  | v :: vs => ofJson v :: ofItems vs

def ofFields : List (String × Json) → List (DataKey × DataValue)
  | [] => []
  | (k, v) :: rest => (.str k, ofJson v) :: ofFields rest

end

/-! ## Events -/

/-- A `RuntimeEvent` that is emitted. -/
structure EmittedEvent where
  type : String
  sessionId : SessionId
  goalId : GoalId
  taskId : TaskId
  id : EventId
  actionId : Option ActionId
  data : List (DataKey × DataValue)
  occurredAt : Instant

/-- A `RuntimeEvent` in a store, with data of type `δ`. The fields of one that was read from a file need
not be strings. -/
structure HeldEvent (δ : Type) where
  type : Json
  sessionId : Json
  goalId : Json
  taskId : Json
  id : Json
  actionId : Json
  data : δ
  occurredAt : Instant

def actionJson : Option ActionId → Json
  | some actionId => .str actionId
  | none => .null

def EmittedEvent.held (event : EmittedEvent) : HeldEvent DataValue where
  type := .str event.type
  sessionId := .str event.sessionId
  goalId := .str event.goalId
  taskId := .str event.taskId
  id := .str event.id
  actionId := actionJson event.actionId
  data := .dict event.data
  occurredAt := event.occurredAt

def normalised (texts : EventTexts) (event : HeldEvent DataValue) :
    HeldEvent (Except DumpError Json) where
  type := event.type
  sessionId := event.sessionId
  goalId := event.goalId
  taskId := event.taskId
  id := event.id
  actionId := event.actionId
  data := dumps texts event.data
  occurredAt := event.occurredAt

def eventsFor {δ : Type} (events : List (HeldEvent δ)) (sessionId : SessionId) : List (HeldEvent δ) :=
  events.filter fun event => event.sessionId = .str sessionId

/-- `json.dumps(_event_to_dict(event), default=_json_default)`. -/
def eventToDict (texts : EventTexts) (event : EmittedEvent) : Except DumpError Json := do
  let data ← dumps texts (.dict event.data)
  pure (.obj
    [("type", .str event.type), ("session_id", .str event.sessionId), ("goal_id", .str event.goalId),
      ("task_id", .str event.taskId), ("id", .str event.id), ("action_id", actionJson event.actionId),
      ("data", data), ("occurred_at", .str (texts.isoformat event.occurredAt))])

inductive ReadError where
  | undecodable
  | invalidJson
  | missingKey (key : String)
  | wrongType
  | invalidTime
deriving DecidableEq

/-- `raw[key]`. -/
def item (raw : Json) (key : String) : Except ReadError Json :=
  match raw with
  | .obj fields =>
    match fields.lookup key with
    | some value => .ok value
    | none => .error (.missingKey key)
  | _ => .error .wrongType

/-- `datetime.fromisoformat(value)`. -/
def readTime (texts : EventTexts) : Json → Except ReadError Instant
  | .str text =>
    match texts.fromisoformat text with
    | some time => .ok time
    | none => .error .invalidTime
  | _ => .error .wrongType

def eventFromDict (texts : EventTexts) (raw : Json) : Except ReadError (HeldEvent DataValue) := do
  let type ← item raw "type"
  let sessionId ← item raw "session_id"
  let goalId ← item raw "goal_id"
  let taskId ← item raw "task_id"
  let id ← item raw "id"
  let actionId ← item raw "action_id"
  let data := (raw.field? "data").getD (.obj [])
  let occurredAt ← readTime texts (← item raw "occurred_at")
  pure ⟨type, sessionId, goalId, taskId, id, actionId, ofJson data, occurredAt⟩

/-! ## The stores -/

/-- `InMemoryEventStore`: its set of ids and its index say what its list says. -/
abbrev InMemoryEventStore := List EmittedEvent

def InMemoryEventStore.append (memory : InMemoryEventStore) (event : EmittedEvent) :
    InMemoryEventStore :=
  if event.id ∈ memory.map EmittedEvent.id then memory else memory ++ [event]

def InMemoryEventStore.eventsFor (memory : InMemoryEventStore) (sessionId : SessionId) :
    List EmittedEvent :=
  memory.filter fun event => event.sessionId = sessionId

/-- What stands in a line: nothing but white space, a text that is no JSON, bytes that are no text, or a
JSON text. -/
inductive EventLine where
  | blank
  | broken
  | undecodable
  | json (value : Json)
deriving DecidableEq

/-- What stands in a line after an event was written behind `rest`. -/
def EventLine.followedBy : EventLine → Json → EventLine
  | .blank, value => .json value
  | .undecodable, _ => .undecodable
  | .broken, _ | .json _, _ => .broken

structure EventFile where
  lines : List EventLine
  rest : EventLine

def EventFile.iterated (file : EventFile) : List EventLine := file.lines ++ [file.rest]

/-- `FileEventStore` in memory: `_event_ids` and `_by_session`. -/
structure FileEventStore where
  eventIds : List Json
  bySession : List (HeldEvent DataValue)

def FileEventStore.empty : FileEventStore := ⟨[], []⟩

def hashable : Json → Bool
  | .arr _ | .obj _ => false
  | _ => true

section Reading

variable (texts : EventTexts)

/-- One turn of the loop of `_load_existing`. A value that is no dictionary has no `get`, which is
skipped as a text that is no JSON is; other errors are raised. -/
def loadLine (store : FileEventStore) : EventLine → Except ReadError FileEventStore
  | .blank | .broken => .ok store
  | .undecodable => .error .undecodable
  | .json (.obj fields) =>
    let id := (fields.lookup "id").getD (.str "")
    let sessionId := (fields.lookup "session_id").getD (.str "")
    if hashable id then do
      let event ← eventFromDict texts (.obj fields)
      if hashable sessionId then
        pure ⟨store.eventIds ++ [id], store.bySession ++ [event]⟩
      else .error .wrongType
    else .error .wrongType
  | .json _ => .ok store

/-- `_load_existing`. -/
def load (file : EventFile) : Except ReadError FileEventStore :=
  if .undecodable ∈ file.iterated then .error .undecodable
  else file.iterated.foldlM (loadLine texts) .empty

/-- A line of `all`. -/
def readLine : EventLine → Except ReadError (HeldEvent DataValue)
  | .json value => eventFromDict texts value
  | .undecodable => .error .undecodable
  | .broken | .blank => .error .invalidJson

def all (file : EventFile) : Except ReadError (List (HeldEvent DataValue)) :=
  if .undecodable ∈ file.iterated then .error .undecodable
  else (file.iterated.filter fun line => line ≠ .blank).mapM (readLine texts)

end Reading

/-! ## Runs -/

/-- How a write fails: the file is not opened, or the text, a part of it, or nothing of it is in the
file, with the end of its line or without. -/
inductive WriteFault where
  | unopened
  | nothing
  | part
  | unended
  | ended
deriving DecidableEq

/-- What happens to a store: an event is appended, another store is made of the file, or a line gets
into the file. -/
inductive StoreStep where
  | append (event : EmittedEvent) (fault : Option WriteFault)
  | reopen
  | insert (index : Nat) (line : EventLine)

inductive StoreAnswer where
  | returned
  | raised
  | nothing
deriving DecidableEq

structure FileRun where
  store : FileEventStore
  file : EventFile

def FileRun.init : FileRun := ⟨.empty, ⟨[], .blank⟩⟩

def EventFile.write (file : EventFile) (value : Json) : Option WriteFault → EventFile
  | none | some .ended => ⟨file.lines ++ [file.rest.followedBy value], .blank⟩
  | some .unended => { file with rest := file.rest.followedBy value }
  | some .part =>
    { file with rest := if file.rest = .undecodable then .undecodable else .broken }
  | some .nothing | some .unopened => file

section Calls

variable (texts : EventTexts)

/-- `append`. The id and the index are set before the line is written. -/
def FileRun.append (run : FileRun) (event : EmittedEvent) (fault : Option WriteFault) :
    StoreAnswer × FileRun :=
  if .str event.id ∈ run.store.eventIds then (.returned, run)
  else
    let store : FileEventStore :=
      ⟨run.store.eventIds ++ [.str event.id], run.store.bySession ++ [event.held]⟩
    match eventToDict texts event with
    | .error _ => (.raised, { run with store := store })
    | .ok value =>
      (if fault = none then .returned else .raised, ⟨store, run.file.write value fault⟩)

def FileRun.step (run : FileRun) : StoreStep → StoreAnswer × FileRun
  | .append event fault => run.append texts event fault
  | .reopen =>
    match load texts run.file with
    | .ok store => (.returned, { run with store := store })
    | .error _ => (.raised, run)
  | .insert index line =>
    (.nothing, { run with file := { run.file with
      lines := run.file.lines.take index ++ line :: run.file.lines.drop index } })

def machine : Machine FileRun StoreStep StoreAnswer := ⟨.init, FileRun.step texts⟩

end Calls

/-- The `InMemoryEventStore` that was given the events whose append returned. -/
def kept (history : List (StoreStep × StoreAnswer)) : InMemoryEventStore :=
  history.foldl (fun memory x =>
    match x with
    | (.append event _, .returned) => memory.append event
    | _ => memory) []

end UniversalAgent.State.EventFiles
