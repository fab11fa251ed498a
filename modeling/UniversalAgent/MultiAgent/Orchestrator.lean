import UniversalAgent.Foundation.Machine
import UniversalAgent.MultiAgent.DelegationState
import UniversalAgent.MultiAgent.Delegations
import UniversalAgent.MultiAgent.Registry

/-!
# MultiAgent — Orchestrator

`delegate` (`multi_agent/orchestrator.py`) in the two parts its only `await` cuts it into. The first
selects an instance, checks the limits, opens the delegation and marks the instance busy; from there
on the executor is in progress. The second begins with what the executor came to: it frees the
instance and settles the delegation. Anything may happen in between.

`numberText` is the text of a float in a message.
-/

namespace UniversalAgent.MultiAgent

open UniversalAgent.Core UniversalAgent.Foundation

abbrev CallId := Nat

/-- What an executor comes to, and what its caller sees: a result, an exception, or the cancellation
of the awaiting task (or another exception that `except Exception` lets pass). -/
inductive Outcome where
  | returned (result : AgentTaskResult)
  | raised (error : AgentException)
  | cancelled
deriving DecidableEq

structure Orchestrator where
  registry : AgentRegistry
  executors : List AgentId
  childCounts : Table (Prod.fst : AgentTaskId × Nat → AgentTaskId)
  taskDepths : Table (Prod.fst : AgentTaskId × Nat → AgentTaskId)
  manager : DelegationManager

/-- A call of `delegate` that awaits its executor. -/
structure Call where
  callId : CallId
  agentId : AgentId
  request : AgentTaskRequest
  delegationId : DelegationId

namespace Orchestrator

/-- `self._child_counts[parent]`. -/
def childCount (o : Orchestrator) (parent : AgentTaskId) : Nat :=
  match o.childCounts.get? parent with
  | some row => row.2
  | none => 0

/-- `self._task_depths.get(task_id)`. -/
def taskDepth (o : Orchestrator) (taskId : AgentTaskId) : Option Nat :=
  (o.taskDepths.get? taskId).map Prod.snd

/-! ## Limits -/

def validateDelegationDepth (o : Orchestrator) (request : AgentTaskRequest) :
    Except AgentException Unit :=
  match request.parentTaskId with
  | none =>
    if request.delegationDepth ≠ 0 then
      .error (.delegationLimit "root agent task delegation_depth must be 0")
    else .ok ()
  | some parent =>
    match o.taskDepth parent with
    | none => .error (.delegationLimit ("agent task unknown parent_task_id: " ++ parent))
    | some depth =>
      if request.delegationDepth ≠ depth + 1 then
        .error (.delegationLimit ("agent task delegation_depth must be "
          ++ toString (depth + 1) ++ " for parent " ++ parent))
      else .ok ()

def reserveDelegation (o : Orchestrator) (request : AgentTaskRequest) :
    Except AgentException Orchestrator :=
  match o.validateDelegationDepth request with
  | .error e => .error e
  | .ok () =>
    match request.parentTaskId with
    | none => .ok { o with
        taskDepths := o.taskDepths.put (request.taskId, request.delegationDepth) }
    | some parent =>
      if o.childCount parent ≥ request.constraints.maxChildren then
        .error (.delegationLimit ("agent task max_children exceeded for parent " ++ parent))
      else .ok { o with
        childCounts := o.childCounts.put (parent, o.childCount parent + 1)
        taskDepths := o.taskDepths.put (request.taskId, request.delegationDepth) }

/-! ## Selection -/

def selectInstance (o : Orchestrator) (request : AgentTaskRequest) (agentId : Option AgentId) :
    Except AgentException AgentInstanceRecord :=
  match agentId with
  | some id =>
    match o.registry.instanceOf id with
    | .error e => .error e
    | .ok i =>
      if i.status ≠ .ready then
        .error (.noEligibleAgent ("agent instance is not ready: " ++ id))
      else
        match o.registry.profile i.profileName i.profileVersion with
        | .error e => .error e
        | .ok p =>
          if profileEligible p request then .ok i
          else .error (.noEligibleAgent ("agent instance is not eligible: " ++ id))
  | none =>
    match o.registry.eligibleInstances request with
    | [] => .error (.noEligibleAgent "no eligible agent instance")
    | i :: _ => .ok i

/-! ## Settlement -/

/-- The handler of `delegate`: the delegation fails with the exception, which is raised again. -/
def failWith (m : DelegationManager) (id : DelegationId) (e : AgentException) :
    Outcome × DelegationManager :=
  match m.fail id e.text with
  | (.ok _, m') => (.raised e, m')
  | (.error e', m') => (.raised e', m')

/-- The rest of `delegate` after `_execute_on_instance`. -/
def settle (m : DelegationManager) (id : DelegationId) : Outcome → Outcome × DelegationManager
  | .returned result =>
    let settled :=
      if result.status = .completed then m.complete id result else m.fail id result.reason
    match settled with
    | (.ok _, m') => (.returned result, m')
    | (.error e, m') => failWith m' id e
  | .raised e => failWith m id e
  | .cancelled => (.cancelled, m)

/-! ## The two parts of delegate -/

/-- `delegate` from the reservation to its `await`: the delegation is opened and the instance marked
busy. -/
def openDelegation (o : Orchestrator) (callId : CallId) (request : AgentTaskRequest)
    (agentId : AgentId) (generated : DelegationId) : Except Outcome Call × Orchestrator :=
  match o.manager.createDelegation "orchestrator" agentId request none none generated with
  | (.error e, m) => (.error (.raised e), { o with manager := m })
  | (.ok d, m) =>
    match m.start d.delegationId with
    | (.error e, m') => (.error (.raised e), { o with manager := m' })
    | (.ok _, m') =>
      match o.registry.updateInstanceStatus agentId .busy with
      | .error e =>
        let (seen, m'') := failWith m' d.delegationId e
        (.error seen, { o with manager := m'' })
      | .ok registry =>
        (.ok ⟨callId, agentId, request, d.delegationId⟩,
          { o with registry := registry, manager := m' })

/-- `delegate` up to its `await`: the call that awaits its executor, or what was raised. -/
def beginDelegate (o : Orchestrator) (callId : CallId) (request : AgentTaskRequest)
    (agentId : Option AgentId) (generated : DelegationId) : Except Outcome Call × Orchestrator :=
  match o.selectInstance request agentId with
  | .error e => (.error (.raised e), o)
  | .ok i =>
    if i.agentId ∉ o.executors then
      (.error (.raised (.executorNotRegistered
        ("agent executor not registered: " ++ i.agentId))), o)
    else
      match o.reserveDelegation request with
      | .error e => (.error (.raised e), o)
      | .ok o' => o'.openDelegation callId request i.agentId generated

variable (numberText : Amount → String)

def durationReason (request : AgentTaskRequest) : String :=
  "agent task exceeded max_duration_seconds="
    ++ match request.constraints.maxDurationSeconds with
      | some seconds => numberText seconds
      | none => "None"

/-- `_execute_agent_task`: a time-out, of the limit or of the executor, is a failed result. -/
def executeAgentTask (request : AgentTaskRequest) : Outcome → Outcome
  | .raised (.timeout _) =>
    match AgentTaskResult.unfinished request.taskId .failed (durationReason numberText request)
        (some .timeout) with
    | .ok result => .returned result
    | .error e => .raised e
  | outcome => outcome

/-- The reason of a result that costs more than its request allows. -/
def costReason (maxCost : Amount) (result : AgentTaskResult) : String :=
  "agent task exceeded max_cost=" ++ numberText maxCost ++ " observed="
    ++ numberText result.usage.estimatedCost ++ " " ++ result.usage.currency

def enforceCostLimit (request : AgentTaskRequest) (result : AgentTaskResult) : Outcome :=
  match request.constraints.maxCost with
  | none => .returned result
  | some maxCost =>
    if result.status ≠ .completed ∨ result.usage.estimatedCost ≤ maxCost then .returned result
    else
      match AgentTaskResult.make result.taskId .failed result.result result.evidenceIds
          (costReason numberText maxCost result) result.sessionId (some .invalidState)
          result.usage with
      | .ok dear => .returned dear
      | .error e => .raised e

/-- What the executor's outcome is under the limits of the request. -/
def limited (request : AgentTaskRequest) (outcome : Outcome) : Outcome :=
  match executeAgentTask numberText request outcome with
  | .returned result => enforceCostLimit numberText request result
  | other => other

/-- `delegate` from its `await` on: what the caller sees. -/
def finishDelegate (o : Orchestrator) (call : Call) (outcome : Outcome) : Outcome × Orchestrator :=
  match o.registry.updateInstanceStatus call.agentId .ready with
  | .error e =>
    let (seen, m) := settle o.manager call.delegationId (.raised e)
    (seen, { o with manager := m })
  | .ok registry =>
    let (seen, m) := settle o.manager call.delegationId (limited numberText call.request outcome)
    (seen, { o with registry := registry, manager := m })

def registerExecutor (o : Orchestrator) (id : AgentId) : Except AgentException Orchestrator :=
  match o.registry.instanceOf id with
  | .error e => .error e
  | .ok _ => .ok { o with executors := id :: o.executors }

/-! ## Snapshot -/

def snapshotIds (o : Orchestrator) : List AgentTaskId :=
  (o.childCounts.rows.map Prod.fst ∪ o.taskDepths.rows.map Prod.fst).insertionSort (· ≤ ·)

/-- `snapshot`, which raises where a task id is blank. -/
def snapshot (o : Orchestrator) : Option AgentDelegationState :=
  match o.snapshotIds.mapM fun id =>
      if h : Text.isBlank id = false then
        some (⟨id, o.childCount id, o.taskDepth id, h⟩ : AgentDelegationTaskState)
      else none with
  | none => none
  | some tasks =>
    if h : (tasks.map AgentDelegationTaskState.taskId).Nodup then some ⟨⟨tasks, h⟩⟩ else none

def restoreDelegationState (o : Orchestrator) (s : AgentDelegationState) : Orchestrator :=
  s.tasks.rows.foldl (fun o t =>
    { o with
      childCounts := if t.childCount = 0 then o.childCounts
        else o.childCounts.put (t.taskId, t.childCount)
      taskDepths := match t.delegationDepth with
        | some depth => o.taskDepths.put (t.taskId, depth)
        | none => o.taskDepths }) o

/-- `AgentOrchestrator(registry, executors, delegation_state, delegation_manager=...)`. -/
def make (registry : AgentRegistry) (executors : List AgentId)
    (delegationState : Option AgentDelegationState) (manager : DelegationManager) : Orchestrator :=
  let o : Orchestrator := ⟨registry, executors, .empty, .empty, manager⟩
  match delegationState with
  | none => o
  | some s => o.restoreDelegationState s

/-- The orchestrator restored from the decoded payload of its snapshot. -/
def restored (o : Orchestrator) : Option Orchestrator :=
  (o.snapshot.bind fun s => decodeAgentDelegationState (agentDelegationStatePayload s)).map
    fun s => make o.registry o.executors (some s) o.manager

end Orchestrator

/-! ## Runs -/

structure Orchestration where
  orchestrator : Orchestrator
  calls : Table Call.callId

/-- What happens to an orchestrator between two awaits. A call id names one call of `delegate`. -/
inductive OrchestrationInput where
  | delegate (callId : CallId) (request : AgentTaskRequest) (agentId : Option AgentId)
      (generated : DelegationId)
  | ended (callId : CallId) (outcome : Outcome)
  | registry (c : RegistryCall)
  | registerExecutor (id : AgentId)
  | manager (c : ManagerCall)
  | replaced

inductive OrchestrationAnswer where
  | awaits
  | sees (outcome : Outcome)
  | done
  | refused (e : AgentException)
  | noCall
deriving DecidableEq

variable (numberText : Amount → String)

def Orchestration.step (s : Orchestration) :
    OrchestrationInput → OrchestrationAnswer × Orchestration
  | .delegate callId request agentId generated =>
    match s.calls.get? callId with
    | some _ => (.noCall, s)
    | none =>
      match s.orchestrator.beginDelegate callId request agentId generated with
      | (.ok call, o) => (.awaits, ⟨o, s.calls.put call⟩)
      | (.error seen, o) => (.sees seen, { s with orchestrator := o })
  | .ended callId outcome =>
    match s.calls.get? callId with
    | none => (.noCall, s)
    | some call =>
      let (seen, o) := s.orchestrator.finishDelegate numberText call outcome
      (.sees seen, ⟨o, s.calls.erase callId⟩)
  | .registry c =>
    match s.orchestrator.registry.call c with
    | .error e => (.refused e, s)
    | .ok registry => (.done, { s with orchestrator := { s.orchestrator with registry := registry } })
  | .registerExecutor id =>
    match s.orchestrator.registerExecutor id with
    | .error e => (.refused e, s)
    | .ok o => (.done, { s with orchestrator := o })
  | .manager c =>
    let (answer, m) := s.orchestrator.manager.call c
    let s' : Orchestration := { s with orchestrator := { s.orchestrator with manager := m } }
    match answer with
    | .ok _ => (.done, s')
    | .error e => (.refused e, s')
  | .replaced =>
    match s.orchestrator.restored with
    | none => (.refused (.value "agent delegation task state task_id must not be empty"), s)
    | some o => (.done, { s with orchestrator := o })

def orchestration (registry : AgentRegistry) (executors : List AgentId) :
    Machine Orchestration OrchestrationInput OrchestrationAnswer :=
  ⟨⟨.make registry executors none .empty, .empty⟩, Orchestration.step numberText⟩

/-! ## A registry -/

def writerProfile : AgentProfileRecord where
  name := "writer"
  version := "1"
  permissions := ["write"]
  capabilities := []
  name_filled := by decide
  version_filled := by decide

def writer (agentId : AgentId) (h : Text.isBlank agentId = false) : AgentInstanceRecord where
  agentId := agentId
  profileName := "writer"
  profileVersion := "1"
  status := .ready
  id_filled := h

theorem ada_filled : Text.isBlank "ada" = false := by decide

def adaRegistry : AgentRegistry where
  profiles := ⟨[writerProfile], by decide⟩
  instances := ⟨[writer "ada" ada_filled], by decide⟩
  profiled := by
    intro i hi
    rw [Table.mem_def, List.mem_singleton] at hi
    rw [hi]
    rfl

end UniversalAgent.MultiAgent
