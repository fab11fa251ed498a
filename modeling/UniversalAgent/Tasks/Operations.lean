import UniversalAgent.Tasks.Manager
import UniversalAgent.Foundation.Effect
import UniversalAgent.Foundation.Table
import UniversalAgent.Foundation.TopologicalSorter

/-!
# Tasks — Operations

The operations of `TaskManager` (`tasks/manager.py`) on the dictionaries that it keeps. A method that
raises leaves what it did before: `expand` adds one task after the other, and those before the one it
refuses stay.
-/

namespace UniversalAgent.Tasks

open UniversalAgent.Core UniversalAgent.Foundation

/-! ## The dictionaries -/

/-- `dict[str, α]`. -/
abbrev Dict (α : Type) := Table (Prod.fst : String × α → String)

namespace Dict

variable {α β : Type}

/-- `d.get(key)`. -/
def value? (d : Dict α) (key : String) : Option α := (d.get? key).map Prod.snd

def mapValues (d : Dict α) (f : α → β) : Dict β :=
  ⟨d.rows.map fun p => (p.1, f p.2), by
    have h := d.nodup
    rwa [show (d.rows.map fun p => (p.1, f p.2)).map Prod.fst = d.rows.map Prod.fst by
      rw [List.map_map]; rfl]⟩

theorem rows_put {d : Dict α} {key : String} (h : key ∈ d.rows.map Prod.fst) (value : α) :
    (d.put (key, value)).rows = d.rows.map fun p => if p.1 = key then (key, value) else p := by
  unfold Table.put
  rw [dif_pos h]
  rfl

theorem rows_put_fresh {d : Dict α} {key : String} (h : key ∉ d.rows.map Prod.fst) (value : α) :
    (d.put (key, value)).rows = d.rows ++ [(key, value)] := by
  unfold Table.put
  rw [dif_neg h]

theorem value?_eq_some {d : Dict α} {key : String} {value : α} :
    d.value? key = some value ↔ (key, value) ∈ d.rows := by
  unfold value?
  rw [Option.map_eq_some_iff]
  constructor
  · rintro ⟨⟨key', value'⟩, hget, rfl⟩
    obtain ⟨hmem, rfl⟩ := Table.get?_eq_some.mp hget
    exact hmem
  · intro h
    exact ⟨(key, value), Table.get?_of_mem h, rfl⟩

end Dict

inductive TaskError where
  | valueError (message : String)
  | keyError (key : String)
deriving DecidableEq

/-- `TaskManager`'s attributes. -/
structure ManagerFields where
  tasks : Dict Task
  keys : Dict TaskId
  dependencies : Dict (List TaskId)
  order : List TaskId
  currentId : TaskId
deriving DecidableEq

/-- A method: what it returns or raises, and the attributes after it. -/
abbrev Method := EStateM TaskError ManagerFields

namespace ManagerFields

/-- `self._tasks[task_id]`. -/
def task (f : ManagerFields) (id : TaskId) : Except TaskError Task :=
  (f.tasks.value? id).elim (.error (.keyError id)) .ok

/-- `self._dependencies[task_id]`. -/
def dependenciesOf (f : ManagerFields) (id : TaskId) : Except TaskError (List TaskId) :=
  (f.dependencies.value? id).elim (.error (.keyError id)) .ok

def insert (f : ManagerFields) (n : TaskNodeSnapshot) : ManagerFields where
  tasks := f.tasks.put (n.task.id, n.task)
  keys := f.keys.put (n.key, n.task.id)
  dependencies := f.dependencies.put (n.task.id, n.dependsOn)
  order := f.order ++ [n.task.id]
  currentId := f.currentId

def validateAcyclic (f : ManagerFields) : Except TaskError Unit :=
  if TopologicalSorter.hasCycle f.dependencies.rows then
    .error (.valueError "task graph contains a dependency cycle")
  else .ok ()

/-- `TaskManager(root)`, with the root under a key. -/
def ofRoot (root : Task) (key : String) : ManagerFields where
  tasks := Table.empty.put (root.id, root)
  keys := Table.empty.put (key, root.id)
  dependencies := Table.empty.put (root.id, [])
  order := [root.id]
  currentId := root.id

/-! ### Reading -/

def current (f : ManagerFields) : Except TaskError Task := f.task f.currentId

def all (f : ManagerFields) : Except TaskError (List Task) := f.order.mapM f.task

def keyOf (f : ManagerFields) (id : TaskId) : Except TaskError String :=
  (f.keys.rows.reverse.find? fun p => p.2 = id).elim (.error (.keyError id)) fun p => .ok p.1

def nodeOf (f : ManagerFields) (id : TaskId) : Except TaskError TaskNodeSnapshot := do
  let key ← f.keyOf id
  let task ← f.task id
  let dependsOn ← f.dependenciesOf id
  pure ⟨key, task, dependsOn⟩

def snapshot (f : ManagerFields) : Except TaskError TaskGraphSnapshot := do
  let nodes ← f.order.mapM f.nodeOf
  pure ⟨nodes, f.currentId⟩

def hasUnfinished (f : ManagerFields) : Bool :=
  f.tasks.rows.any fun p => !TaskManager.isSettled p.2.status

/-- `all(self._tasks[item].status is TaskStatus.COMPLETED for item in dependencies)`. -/
def allCompleted (f : ManagerFields) : List TaskId → Except TaskError Bool
  | [] => .ok true
  | id :: rest => do
      let task ← f.task id
      if task.status = .completed then f.allCompleted rest else .ok false

/-! ### Changing -/

/-- `created.append(task)`, before the rest is created. -/
def andCreated (task : Task) :
    EStateM.Result TaskError ManagerFields (List Task) → EStateM.Result TaskError ManagerFields (List Task)
  | .ok created f => .ok (task :: created) f
  | .error e f => .error e f

/-- The loop of `expand`. Each spec comes with the moment at which its task is created. -/
def addSpecs : List (TaskSpec × Instant) → Method (List Task)
  | [], f => .ok [] f
  | (spec, now) :: specs, f =>
    if spec.key = "" ∨ spec.description = "" then
      .error (.valueError "task key and description are required") f
    else if spec.key ∈ f.keys.rows.map Prod.fst then addSpecs specs f
    else if spec.dependsOn.any fun d => d ∉ f.tasks.rows.map Prod.fst then
      .error (.valueError "task dependencies must reference existing tasks") f
    else
      let task := TaskManager.taskOfSpec spec now
      if task.id ∈ f.tasks.rows.map Prod.fst then
        .error (.valueError ("duplicate task id: " ++ task.id)) f
      else andCreated task (addSpecs specs (f.insert ⟨spec.key, task, spec.dependsOn⟩))

def expand (specs : List (TaskSpec × Instant)) : Method (List Task) := fun f =>
  match addSpecs specs f with
  | .error e f => .error e f
  | .ok created f => match f.validateAcyclic with
      | .error e => .error e f
      | .ok () => .ok created f

def setCurrent (id : TaskId) : Method Unit := fun f =>
  if id ∈ f.tasks.rows.map Prod.fst then .ok () { f with currentId := id }
  else .error (.valueError ("task does not exist: " ++ id)) f

/-- `task.status = status`, of the task of an id. -/
def withStatus (f : ManagerFields) (id : TaskId) (status : TaskStatus) : ManagerFields :=
  match f.tasks.value? id with
  | none => f
  | some task => { f with tasks := f.tasks.put (id, { task with status := status }) }

def completeCurrent : Method Unit := fun f => match f.current with
  | .error e => .error e f
  | .ok _ => .ok () (f.withStatus f.currentId .completed)

def isRunnable (f : ManagerFields) (id : TaskId) : Except TaskError Bool := do
  let task ← f.task id
  let dependencies ← f.dependenciesOf id
  if task.status = .pending then f.allCompleted dependencies else .ok false

def start (f : ManagerFields) (id : TaskId) : ManagerFields :=
  { f with currentId := id }.withStatus id .running

/-- The loop of `start_next`. -/
def startFirst : List TaskId → Method (Option Task)
  | [], f => .ok none f
  | id :: rest, f => match f.isRunnable id with
      | .error e => .error e f
      | .ok false => startFirst rest f
      | .ok true => match (f.start id).current with
          | .error e => .error e (f.start id)
          | .ok task => .ok (some task) (f.start id)

def startNext : Method (Option Task) := fun f => startFirst f.order f

def completeAll : Method Unit :=
  modify fun f => { f with
    tasks := f.tasks.mapValues fun task =>
      if TaskManager.isSettled task.status then task else { task with status := .completed } }

/-! ### Making a manager -/

/-- The loop of `from_snapshot`. -/
def addNodes : List TaskNodeSnapshot → ManagerFields → Except TaskError ManagerFields
  | [], f => .ok f
  | n :: nodes, f =>
    if n.key ∈ f.keys.rows.map Prod.fst then .error (.valueError ("duplicate task key: " ++ n.key))
    else if n.task.id ∈ f.tasks.rows.map Prod.fst then
      .error (.valueError ("duplicate task id: " ++ n.task.id))
    else addNodes nodes (f.insert n)

def unknownDependency? (f : ManagerFields) : Option TaskId :=
  (f.dependencies.rows.find? fun p => p.2.any fun d => d ∉ f.tasks.rows.map Prod.fst).map Prod.fst

def fromSnapshot (g : TaskGraphSnapshot) : Except TaskError ManagerFields :=
  if g.nodes = [] then .error (.valueError "task graph must contain at least one task")
  else do
    let f ← addNodes g.nodes ⟨.empty, .empty, .empty, [], g.currentTaskId⟩
    if g.currentTaskId ∉ f.tasks.rows.map Prod.fst then
      .error (.valueError "task graph current task does not exist")
    else match f.unknownDependency? with
      | some id => .error (.valueError ("task " ++ id ++ " references unknown dependencies"))
      | none => do
          f.validateAcyclic
          pure f

def fromSpecs : List (TaskSpec × Instant) → Except TaskError ManagerFields
  | [] => .error (.valueError "task specs must contain at least one task")
  | (root, now) :: specs =>
    if root.key = "" ∨ root.description = "" then
      .error (.valueError "task key and description are required")
    else match expand specs (ofRoot (TaskManager.taskOfSpec root now) root.key) with
      | .ok _ f => .ok f
      | .error e _ => .error e

end ManagerFields

end UniversalAgent.Tasks
