import UniversalAgent.Foundation.TopologicalSorter
import UniversalAgent.MultiAgent.Orchestrator

/-!
# MultiAgent — Batch

`delegate_many` (`multi_agent/orchestrator.py`): a loop over the waves of a topological sorter. Each
iteration skips the ready specs that depend on a failed one and gathers a task for each of the
others; a task calls `delegate` and makes a result of whatever that raises. The loop goes on once all
tasks of the wave are done.

The batch runs beside anything else that happens to the orchestrator. The tasks of a wave begin in
any order. The limit of concurrent executors that the orchestrator is given is stored and read by no
method, so it has no part here.
-/

namespace UniversalAgent.MultiAgent

open UniversalAgent.Core UniversalAgent.Foundation

/-! ## Results -/

inductive AgentDelegationBatchStatus where
  | completed | partially | failed
deriving DecidableEq, Repr

structure AgentDelegationBatchResult where
  status : AgentDelegationBatchStatus
  results : List AgentTaskResult
  skippedTaskIds : List AgentTaskId
  reason : String
deriving DecidableEq

abbrev BatchResults := Table (Prod.fst : AgentTaskId × AgentTaskResult → AgentTaskId)

def BatchResults.result? (results : BatchResults) (id : AgentTaskId) : Option AgentTaskResult :=
  (Table.get? results id).map Prod.snd

def batchStatus (results : List AgentTaskResult) : AgentDelegationBatchStatus :=
  let completed := results.countP fun r => decide (r.status = .completed)
  if completed = results.length then .completed else if 0 < completed then .partially else .failed

def batchReason : AgentDelegationBatchStatus → String
  | .completed => "all delegated agent tasks completed"
  | .partially => "some delegated agent tasks did not complete"
  | .failed => "no delegated agent tasks completed"

def formatTaskIds (ids : List AgentTaskId) : String := ", ".intercalate ids

/-! ## Dependencies -/

def dependencyGraph (specs : List AgentDelegationSpec) : Predecessors AgentTaskId :=
  specs.map fun spec => (spec.taskId, spec.dependsOn)

/-- `_duplicates`. -/
def duplicateIds (ids : List AgentTaskId) : List AgentTaskId :=
  (ids.eraseDups.filter fun id => decide (1 < ids.count id)).insertionSort (· ≤ ·)

def delegationSorter (specs : List AgentDelegationSpec) :
    Except AgentException (TopologicalSorter AgentTaskId) :=
  let ids := specs.map AgentDelegationSpec.taskId
  let missing := (specs.flatMap AgentDelegationSpec.dependsOn).filter fun id => decide (id ∉ ids)
  if duplicateIds ids ≠ [] then
    .error (.value ("duplicate agent delegation task ids: " ++ formatTaskIds (duplicateIds ids)))
  else if missing ≠ [] then
    .error (.value ("unknown agent delegation dependencies: " ++ formatTaskIds missing))
  else if TopologicalSorter.hasCycle (dependencyGraph specs) then
    .error (.delegationDependency "agent delegation dependencies contain a cycle")
  else .ok (.start (dependencyGraph specs))

/-- The dependencies of a spec that have a result other than a completed one. -/
def failedDependencies (spec : AgentDelegationSpec) (results : BatchResults) : List AgentTaskId :=
  spec.dependsOn.filter fun id =>
    match results.result? id with
    | some r => decide (r.status ≠ .completed)
    | none => false

def hasFailedDependency (spec : AgentDelegationSpec) (results : BatchResults) : Bool :=
  !(failedDependencies spec results).isEmpty

def rejectedAgentTaskResult (request : AgentTaskRequest) (reason : String) (errorCode : ErrorCode) :
    Except AgentException AgentTaskResult :=
  AgentTaskResult.unfinished request.taskId .rejected reason (some errorCode)

/-! ## The task of a spec -/

def executorFailed (spec : AgentDelegationSpec) (e : AgentException) : Outcome :=
  match AgentTaskResult.unfinished spec.taskId .failed
      ("agent executor failed: " ++ e.className ++ ": " ++ e.text) (some .unknownExecution) with
  | .ok r => .returned r
  | .error e' => .raised e'

/-- `_delegate_spec`, given what `delegate` comes to. -/
def delegateSpec (spec : AgentDelegationSpec) : Outcome → Outcome
  | .raised e =>
    if e.isDelegationError then
      match rejectedAgentTaskResult spec.request e.text .invalidState with
      | .ok r => .returned r
      | .error e' => .raised e'
    else executorFailed spec e
  | outcome => outcome

def delegateSpecWithTracking (spec : AgentDelegationSpec) (outcome : Outcome) : Outcome :=
  match delegateSpec spec outcome with
  | .raised e => executorFailed spec e
  | other => other

/-- How far the task of a spec is; `broken` is one that ended without a result. -/
inductive SpecTaskState where
  | waiting
  | executing (callId : CallId)
  | done (result : AgentTaskResult)
  | broken
deriving DecidableEq

structure SpecTask where
  spec : AgentDelegationSpec
  state : SpecTaskState
deriving DecidableEq

/-! ## The loop -/

inductive BatchEnd where
  | returned (result : AgentDelegationBatchResult)
  | raised (e : AgentException)
  | cancelled
deriving DecidableEq

/-- The variables of `delegate_many`, and the tasks it has gathered. -/
structure Batch where
  specs : List AgentDelegationSpec
  sorter : TopologicalSorter AgentTaskId
  results : BatchResults
  skipped : List AgentTaskId
  readyIds : List AgentTaskId
  tasks : List SpecTask
  ended : Option BatchEnd

namespace Batch

/-- `specs_by_id`. -/
def specOf (b : Batch) (id : AgentTaskId) : Option AgentDelegationSpec :=
  b.specs.find? fun spec => decide (spec.taskId = id)

def skip (b : Batch) (spec : AgentDelegationSpec) : Except AgentException Batch :=
  match rejectedAgentTaskResult spec.request
      ("dependency did not complete: " ++ formatTaskIds (failedDependencies spec b.results))
      .invalidState with
  | .error e => .error e
  | .ok r => .ok { b with
      skipped := b.skipped ++ [spec.taskId]
      results := b.results.put (spec.taskId, r) }

def finish (b : Batch) : Batch :=
  let b := { b with readyIds := [], tasks := [] }
  match b.specs.mapM fun spec => b.results.result? spec.taskId with
  | none => { b with ended := some (.raised (.other "KeyError" "task_id")) }
  | some ordered => { b with ended := some (.returned
      ⟨batchStatus ordered, ordered, b.skipped, batchReason (batchStatus ordered)⟩) }

/-- The loop from its condition to its `await`, or its return. -/
def iterate (b : Batch) : Batch :=
  if b.sorter.isActive then
    let (readyIds, sorter) := b.sorter.getReady
    if readyIds = [] then
      { b with ended := some (.raised
          (.delegationDependency "agent delegation dependencies cannot be resolved")) }
    else
      let readySpecs := readyIds.filterMap b.specOf
      let delegated := readySpecs.filter fun spec => !hasFailedDependency spec b.results
      match (readySpecs.filter fun spec => hasFailedDependency spec b.results).foldlM skip b with
      | .error e => { b with ended := some (.raised e) }
      | .ok skipped => { skipped with
          sorter := sorter
          readyIds := readyIds
          tasks := delegated.map fun spec => ⟨spec, .waiting⟩ }
  else b.finish

def record (results : BatchResults) (task : SpecTask) : BatchResults :=
  match task.state with
  | .done r => results.put (task.spec.taskId, r)
  | _ => results

/-- The loop from its `await` on, once every task is done. -/
def advance (b : Batch) : Batch :=
  iterate { b with
    results := b.tasks.foldl record b.results
    sorter := b.sorter.done b.readyIds
    tasks := [] }

def setTask (b : Batch) (id : AgentTaskId) (state : SpecTaskState) : Batch :=
  { b with tasks := b.tasks.map fun t => if t.spec.taskId = id then { t with state } else t }

/-- The `delegate` call of a spec has come to an outcome. A cancellation ends the gathering too. -/
def taskEnds (b : Batch) (spec : AgentDelegationSpec) (seen : Outcome) : Batch :=
  match delegateSpecWithTracking spec seen with
  | .returned r => b.setTask spec.taskId (.done r)
  | .raised e => { b.setTask spec.taskId .broken with ended := some (.raised e) }
  | .cancelled => { b.setTask spec.taskId .broken with ended := some .cancelled }

/-- `delegate_many` up to its first `await`. -/
def begin (specs : List AgentDelegationSpec) : Except AgentException Batch :=
  if specs = [] then .error (.value "agent delegation batch requires specs")
  else
    match delegationSorter specs with
    | .error e => .error e
    | .ok sorter => .ok (iterate ⟨specs, sorter, .empty, [], [], [], none⟩)

def allDone (b : Batch) : Bool :=
  b.tasks.all fun t => match t.state with
    | .done _ => true
    | _ => false

def waitingTask (b : Batch) (id : AgentTaskId) : Option SpecTask :=
  b.tasks.find? fun t => decide (t.spec.taskId = id ∧ t.state = .waiting)

def executingTask (b : Batch) (callId : CallId) : Option SpecTask :=
  b.tasks.find? fun t => decide (t.state = .executing callId)

end Batch

/-! ## Runs -/

structure BatchRun where
  orchestration : Orchestration
  batch : Batch

/-- What happens: the task of a spec begins, the loop goes on, or anything happens to the
orchestrator (which is not replaced under a batch), the end of an executor of the batch included. -/
inductive BatchInput where
  | start (taskId : AgentTaskId) (callId : CallId) (generated : DelegationId)
  | advance
  | other (i : OrchestrationInput)

variable (numberText : Amount → String)

namespace BatchRun

def begins (s : BatchRun) (task : SpecTask) (callId : CallId) (generated : DelegationId) :
    Option OrchestrationAnswer × BatchRun :=
  let r := s.orchestration.step numberText
    (.delegate callId task.spec.request task.spec.agentId generated)
  match r.1 with
  | .awaits => (some .awaits, ⟨r.2, s.batch.setTask task.spec.taskId (.executing callId)⟩)
  | .sees seen => (some (.sees seen), ⟨r.2, s.batch.taskEnds task.spec seen⟩)
  | _ => (none, s)

def observes (b : Batch) : OrchestrationInput → OrchestrationAnswer → Batch
  | .ended callId _, .sees seen =>
    match b.executingTask callId with
    | some task => b.taskEnds task.spec seen
    | none => b
  | _, _ => b

def step (s : BatchRun) : BatchInput → Option OrchestrationAnswer × BatchRun
  | .start taskId callId generated =>
    match s.batch.waitingTask taskId with
    | some task => s.begins numberText task callId generated
    | none => (none, s)
  | .advance =>
    if s.batch.ended = none ∧ s.batch.allDone = true then
      (some .done, { s with batch := s.batch.advance })
    else (none, s)
  | .other .replaced => (none, s)
  | .other i =>
    let r := s.orchestration.step numberText i
    (some r.1, ⟨r.2, observes s.batch i r.1⟩)

end BatchRun

def batchMachine (s : Orchestration) (b : Batch) :
    Machine BatchRun BatchInput (Option OrchestrationAnswer) :=
  ⟨⟨s, b⟩, BatchRun.step numberText⟩

end UniversalAgent.MultiAgent
