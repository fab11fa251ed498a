import UniversalAgent.Core.Models

/-!
# State — Session

Building and copying session snapshots (`state/session.py`). Every in-memory store keeps copies
made by `copySession`, and hands out copies: this is the path a session takes whenever it is
saved or loaded.

A copy rebuilds each record from its fields, and sends each JSON value through the serializer,
which can refuse it.
-/

namespace UniversalAgent.State

open UniversalAgent.Core

def sessionFromState (state : AgentState) (domainName domainVersion : String)
    (domainIdentities : List DomainIdentity) : SessionSnapshot where
  state := state
  taskGraph := ⟨[⟨"root", state.currentTask, []⟩], state.currentTask.id⟩
  evidence := []
  domainName := domainName
  domainVersion := domainVersion
  domainIdentities :=
    if domainIdentities ≠ [] then domainIdentities else primaryDomain domainName domainVersion
  version := 0

def withState (snapshot : SessionSnapshot) (state : AgentState) : SessionSnapshot :=
  let nodes := snapshot.taskGraph.nodes.map fun node =>
    if node.task.id = state.currentTask.id then { node with task := state.currentTask } else node
  let nodes :=
    if state.currentTask.id ∈ nodes.map fun node => node.task.id then nodes
    else nodes ++ [⟨state.currentTask.id, state.currentTask, []⟩]
  { snapshot with
    state := state
    taskGraph := ⟨nodes, state.currentTask.id⟩
    domainIdentities := snapshot.domains }

/-! ## Copies -/

abbrev TasksById := List (TaskId × Task)

/-- `{node.task.id: _copy_task(node.task) for node in nodes}`. -/
def copyTasks (nodes : List TaskNodeSnapshot) : TasksById :=
  nodes.foldl (fun tasks node => dictSet tasks node.task.id node.task) []

/-- `_resolve_task`: the copy already made of the task with this id, or a new one. -/
def resolveTask (task : Task) (tasks : TasksById) : Task × TasksById :=
  match tasks.lookup task.id with
  | some existing => (existing, tasks)
  | none => (task, dictSet tasks task.id task)

/-- `[_resolve_task(item, tasks) for item in items]`. -/
def resolveTasks : List Task → TasksById → List Task × TasksById
  | [], tasks => ([], tasks)
  | item :: items, tasks =>
    let r := resolveTask item tasks
    let rest := resolveTasks items r.2
    (r.1 :: rest.1, rest.2)

section Copy

variable (codec : JsonCodec)

def copyMapping (values : JsonMapping) : Except JsonCodecError JsonMapping := do
  match ← codec.toJsonValue (.obj values) with
  | .obj copied => pure copied
  | _ => throw .notSerializable

/-- `{key: _copy_json(value) for key, value in values.items()}`. -/
def copyValues (values : JsonMapping) : Except JsonCodecError JsonMapping :=
  values.mapM fun p => do pure (p.1, ← codec.toJsonValue p.2)

def copyGoal (goal : Goal) : Except JsonCodecError Goal := do
  let criteria ← goal.successCriteria.mapM fun item => do
    pure (SuccessCriterion.mk item.key (← codec.toJsonValue item.expected))
  pure ⟨goal.description, criteria, goal.id, goal.status, goal.createdAt⟩

def copyObservation (o : Observation) : Except JsonCodecError Observation := do
  pure ⟨o.id, o.actionId, o.taskId, o.source, o.status, ← copyMapping codec o.data, o.observedAt,
    o.error, o.errorCode⟩

def copyEvaluation : Option EvaluationResult → Except JsonCodecError (Option EvaluationResult)
  | none => pure none
  | some e => do
      pure (some ⟨e.status, e.reason, e.evaluatorName, ← copyMapping codec e.matchedCriteria,
        e.taskCompleted, e.goalCompleted⟩)

def copyPendingAction : Option PendingAction → Except JsonCodecError (Option PendingAction)
  | none => pure none
  | some a => do
      pure (some ⟨a.actionId, a.capability, a.toolName, a.target, ← copyMapping codec a.arguments,
        a.domainName, a.domainVersion, a.idempotencyKey, a.parametersHash, a.attempt,
        a.resourceKey, a.resourceVersion⟩)

def copyEvidence (e : Evidence) : Except JsonCodecError Evidence := do
  pure ⟨e.sessionId, e.taskId, e.actionId, e.observationId, e.subject, e.claim,
    ← codec.toJsonValue e.value, e.source, e.confidence, e.id, e.observedAt, e.domainName,
    e.domainVersion, e.postInit⟩

/-- `_copy_state`. The three fields the constructor call leaves out take their defaults. -/
def copyState (state : AgentState) (tasks : TasksById) : Except JsonCodecError AgentState := do
  let goal ← copyGoal codec state.goal
  let current := resolveTask state.currentTask tasks
  let satisfiedCriteria ← copyValues codec state.satisfiedCriteria
  let observations ← state.observations.mapM (copyObservation codec)
  let latestEvaluation ← copyEvaluation codec state.latestEvaluation
  let pendingAction ← copyPendingAction codec state.pendingAction
  pure
    { sessionId := state.sessionId
      goal := goal
      currentTask := current.1
      readOnly := state.readOnly
      iteration := state.iteration
      satisfiedCriteria := satisfiedCriteria
      observations := observations
      latestEvaluation := latestEvaluation
      pendingAction := pendingAction
      approvedFingerprints := state.approvedFingerprints
      tasks := (resolveTasks state.tasks current.2).1
      recoveryAttempts := state.recoveryAttempts
      terminationReason := state.terminationReason
      errorCode := state.errorCode
      tenantId := state.tenantId
      cumulativeCostMicros := 0
      cumulativeTokens := 0
      isContinuation := false }

def copySession (snapshot : SessionSnapshot) : Except JsonCodecError SessionSnapshot := do
  let tasks := copyTasks snapshot.taskGraph.nodes
  let nodes := snapshot.taskGraph.nodes.map fun node =>
    { node with task := (tasks.lookup node.task.id).getD node.task }
  let state ← copyState codec snapshot.state tasks
  let evidence ← snapshot.evidence.mapM (copyEvidence codec)
  pure
    { state := state
      taskGraph := ⟨nodes, snapshot.taskGraph.currentTaskId⟩
      evidence := evidence
      domainName := snapshot.domainName
      domainVersion := snapshot.domainVersion
      domainIdentities := snapshot.domains
      version := snapshot.version }

end Copy

end UniversalAgent.State
