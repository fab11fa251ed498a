import UniversalAgent.Core.Models

/-!
# Persistence — Codec

The JSON form of a session snapshot (`persistence/codec.py`), written by `encodeSessionSnapshot`
and read back by `decodeSessionSnapshot`. The readers are the strict pydantic payload models:
a field is required unless it has a default, and a value of another type is refused. The texts
of pydantic's errors, and which of several errors comes first, are left out.
-/

namespace UniversalAgent.Persistence

open UniversalAgent.Core UniversalAgent.Foundation

inductive DecodeError where
  | payload
  | unsupportedSchemaVersion (version : Int)
  | duplicateTaskId (taskId : TaskId)
  | unknownTaskId (taskId : TaskId)
  | datetime (field : String)
  | evidence
deriving DecidableEq, Repr

def schemaVersion : Int := 1

/-! ## Readers -/

def readStr : Json → Except DecodeError String
  | .str s => .ok s
  | _ => .error .payload

def readInt : Json → Except DecodeError Int
  | .int i => .ok i
  | _ => .error .payload

def readBool : Json → Except DecodeError Bool
  | .bool b => .ok b
  | _ => .error .payload

def readFloat : Json → Except DecodeError PyFloat
  | .float x => .ok x
  | .int i => .ok (.finite i)
  | _ => .error .payload

def readMapping : Json → Except DecodeError JsonMapping
  | .obj fields => .ok fields
  | _ => .error .payload

def readList {α : Type} (read : Json → Except DecodeError α) : Json → Except DecodeError (List α)
  | .arr items => items.mapM read
  | _ => .error .payload

def readDict {α : Type} (read : Json → Except DecodeError α) :
    Json → Except DecodeError (List (String × α))
  | .obj fields => fields.mapM fun p => do pure (p.1, ← read p.2)
  | _ => .error .payload

def readOptional {α : Type} (read : Json → Except DecodeError α) :
    Json → Except DecodeError (Option α)
  | .null => .ok none
  | v => do pure (some (← read v))

theorem readOptional_present {α : Type} (read : Json → Except DecodeError α) (v : Json)
    (hv : v ≠ .null) : readOptional read v = some <$> read v := by
  cases v with
  | null => exact absurd rfl hv
  | _ => rfl

def readEnum {α : Type} [StrEnum α] (v : Json) : Except DecodeError α := do
  match StrEnum.ofValue? (← readStr v) with
  | some a => pure a
  | none => throw .payload

def field (v : Json) (key : String) : Except DecodeError Json :=
  match v.field? key with
  | some w => .ok w
  | none => .error .payload

def fieldD {α : Type} (v : Json) (key : String) (read : Json → Except DecodeError α)
    (default : α) : Except DecodeError α :=
  match v.field? key with
  | some w => read w
  | none => .ok default

/-! ## Writers -/

def writeOptional {α : Type} (write : α → Json) : Option α → Json
  | none => .null
  | some a => write a

def writeStrs (items : List String) : Json := .arr (items.map .str)

section Codec

variable (codec : JsonCodec) (iso : IsoFormat)

/-- `parse_iso_datetime`. -/
def readInstant (name : String) (v : Json) : Except DecodeError Instant := do
  match iso.isoparse (← readStr v) with
  | some t => pure t
  | none => throw (.datetime name)

def writeInstant (t : Instant) : Json := .str (iso.isoformat t)

/-- `_to_json` of a mapping. -/
def writeMapping (values : JsonMapping) : Except JsonCodecError Json :=
  codec.toJsonValue (.obj values)

def encodeGoal (goal : Goal) : Except JsonCodecError Json := do
  let criteria ← goal.successCriteria.mapM fun item => do
    let expected ← codec.toJsonValue item.expected
    pure (Json.obj [("key", .str item.key), ("expected", expected)])
  pure (.obj
    [("description", .str goal.description), ("success_criteria", .arr criteria),
      ("id", .str goal.id), ("status", .str (StrEnum.value goal.status)),
      ("created_at", writeInstant iso goal.createdAt)])

def decodeGoal (v : Json) : Except DecodeError Goal := do
  let criteria ← readList (fun item => do
    pure (SuccessCriterion.mk (← readStr (← field item "key")) (← field item "expected")))
    (← field v "success_criteria")
  pure
    { description := ← readStr (← field v "description")
      successCriteria := criteria
      id := ← readStr (← field v "id")
      status := ← readEnum (← field v "status")
      createdAt := ← readInstant iso "goal.created_at" (← field v "created_at") }

def encodeTask (task : Task) : Json :=
  .obj
    [("description", .str task.description),
      ("required_criteria", writeStrs task.requiredCriteria), ("id", .str task.id),
      ("status", .str (StrEnum.value task.status)),
      ("created_at", writeInstant iso task.createdAt)]

def decodeTask (v : Json) : Except DecodeError Task := do
  pure
    { description := ← readStr (← field v "description")
      requiredCriteria := ← readList readStr (← field v "required_criteria")
      id := ← readStr (← field v "id")
      status := ← readEnum (← field v "status")
      createdAt := ← readInstant iso "task.created_at" (← field v "created_at") }

def encodeTaskGraph (graph : TaskGraphSnapshot) : Json :=
  .obj
    [("nodes", .arr (graph.nodes.map fun node => .obj
        [("key", .str node.key), ("task", encodeTask iso node.task),
          ("depends_on", writeStrs node.dependsOn)])),
      ("current_task_id", .str graph.currentTaskId)]

/-- The loop of `_decode_task_graph`, over the nodes read so far. -/
def addNodes : List TaskNodeSnapshot → List TaskNodeSnapshot →
    Except DecodeError (List TaskNodeSnapshot)
  | done, [] => .ok done
  | done, node :: rest =>
    if node.task.id ∈ done.map fun n => n.task.id then .error (.duplicateTaskId node.task.id)
    else addNodes (done ++ [node]) rest

def decodeTaskGraph (v : Json) : Except DecodeError TaskGraphSnapshot := do
  let nodes ← readList (fun node => do
    pure
      { key := ← readStr (← field node "key")
        task := ← decodeTask iso (← field node "task")
        dependsOn := ← readList readStr (← field node "depends_on") : TaskNodeSnapshot })
    (← field v "nodes")
  pure ⟨← addNodes [] nodes, ← readStr (← field v "current_task_id")⟩

def encodeObservation (o : Observation) : Except JsonCodecError Json := do
  let data ← writeMapping codec o.data
  pure (.obj
    [("id", .str o.id), ("action_id", .str o.actionId), ("task_id", .str o.taskId),
      ("source", .str o.source), ("status", .str (StrEnum.value o.status)), ("data", data),
      ("observed_at", writeInstant iso o.observedAt), ("error", writeOptional .str o.error),
      ("error_code", writeOptional (fun e => .str (StrEnum.value e)) o.errorCode)])

def decodeObservation (v : Json) : Except DecodeError Observation := do
  pure
    { id := ← readStr (← field v "id")
      actionId := ← readStr (← field v "action_id")
      taskId := ← readStr (← field v "task_id")
      source := ← readStr (← field v "source")
      status := ← readEnum (← field v "status")
      data := ← readMapping (← field v "data")
      observedAt := ← readInstant iso "observation.observed_at" (← field v "observed_at")
      error := ← readOptional readStr (← field v "error")
      errorCode := ← readOptional readEnum (← field v "error_code") }

def encodeEvaluation (e : EvaluationResult) : Except JsonCodecError Json := do
  let matched ← writeMapping codec e.matchedCriteria
  pure (.obj
    [("status", .str (StrEnum.value e.status)), ("reason", .str e.reason),
      ("evaluator_name", .str e.evaluatorName), ("matched_criteria", matched),
      ("task_completed", .bool e.taskCompleted), ("goal_completed", .bool e.goalCompleted)])

/-- The record under `_decode_optional_evaluation`. -/
def decodeEvaluation (v : Json) : Except DecodeError EvaluationResult := do
  pure
    { status := ← readEnum (← field v "status")
      reason := ← readStr (← field v "reason")
      evaluatorName := ← readStr (← field v "evaluator_name")
      matchedCriteria := ← readMapping (← field v "matched_criteria")
      taskCompleted := ← readBool (← field v "task_completed")
      goalCompleted := ← readBool (← field v "goal_completed") }

def encodePendingAction (a : PendingAction) : Except JsonCodecError Json := do
  let arguments ← writeMapping codec a.arguments
  pure (.obj
    [("action_id", .str a.actionId), ("capability", .str a.capability),
      ("tool_name", .str a.toolName), ("target", writeOptional .str a.target),
      ("arguments", arguments), ("domain_name", .str a.domainName),
      ("domain_version", .str a.domainVersion), ("idempotency_key", .str a.idempotencyKey),
      ("parameters_hash", .str a.parametersHash), ("attempt", .int a.attempt),
      ("resource_key", .str a.resourceKey),
      ("resource_version", writeOptional .str a.resourceVersion)])

/-- The record under `_decode_optional_pending_action`. -/
def decodePendingAction (v : Json) : Except DecodeError PendingAction := do
  pure
    { actionId := ← readStr (← field v "action_id")
      capability := ← readStr (← field v "capability")
      toolName := ← readStr (← field v "tool_name")
      target := ← readOptional readStr (← field v "target")
      arguments := ← readMapping (← field v "arguments")
      domainName := ← readStr (← field v "domain_name")
      domainVersion := ← readStr (← field v "domain_version")
      idempotencyKey := ← fieldD v "idempotency_key" readStr ""
      parametersHash := ← fieldD v "parameters_hash" readStr ""
      attempt := ← fieldD v "attempt" readInt 1
      resourceKey := ← fieldD v "resource_key" readStr ""
      resourceVersion := ← fieldD v "resource_version" (readOptional readStr) none }

def encodeEvidence (e : Evidence) : Except JsonCodecError Json := do
  let value ← codec.toJsonValue e.value
  pure (.obj
    [("session_id", .str e.sessionId), ("task_id", .str e.taskId),
      ("action_id", .str e.actionId), ("observation_id", .str e.observationId),
      ("subject", .str e.subject), ("claim", .str e.claim), ("value", value),
      ("source", .str e.source), ("confidence", .float (.finite e.confidence)),
      ("id", .str e.id), ("observed_at", writeInstant iso e.observedAt),
      ("domain_name", .str e.domainName), ("domain_version", .str e.domainVersion)])

/-- `Evidence(...)`, which checks its fields. -/
def makeEvidence (sessionId taskId actionId observationId subject claim : String) (value : Json)
    (source : String) (confidence : PyFloat) (id : EvidenceId) (observedAt : Instant)
    (domainName domainVersion : String) : Except DecodeError Evidence :=
  match confidence with
  | .finite q =>
    if h : (0 ≤ q ∧ q ≤ 1) ∧ Text.isBlank subject = false ∧ Text.isBlank claim = false then
      .ok ⟨sessionId, taskId, actionId, observationId, subject, claim, value, source, q, id,
        observedAt, domainName, domainVersion, h⟩
    else .error .evidence
  | .infinite _ | .nan => .error .evidence

def decodeEvidence (v : Json) : Except DecodeError Evidence := do
  makeEvidence (← readStr (← field v "session_id")) (← readStr (← field v "task_id"))
    (← readStr (← field v "action_id")) (← readStr (← field v "observation_id"))
    (← readStr (← field v "subject")) (← readStr (← field v "claim")) (← field v "value")
    (← readStr (← field v "source")) (← readFloat (← field v "confidence"))
    (← readStr (← field v "id"))
    (← readInstant iso "evidence.observed_at" (← field v "observed_at"))
    (← fieldD v "domain_name" readStr "") (← fieldD v "domain_version" readStr "")

def encodeAgentState (s : AgentState) : Except JsonCodecError Json := do
  let goal ← encodeGoal codec iso s.goal
  let satisfied ← writeMapping codec s.satisfiedCriteria
  let observations ← s.observations.mapM (encodeObservation codec iso)
  let evaluation ← s.latestEvaluation.mapM (encodeEvaluation codec)
  let pending ← s.pendingAction.mapM (encodePendingAction codec)
  pure (.obj
    [("session_id", .str s.sessionId), ("goal", goal),
      ("current_task_id", .str s.currentTask.id), ("read_only", .bool s.readOnly),
      ("iteration", .int s.iteration), ("satisfied_criteria", satisfied),
      ("observations", .arr observations), ("latest_evaluation", evaluation.getD .null),
      ("pending_action", pending.getD .null),
      ("task_ids", .arr (s.tasks.map fun t => .str t.id)),
      ("recovery_attempts", .obj (s.recoveryAttempts.map fun p => (p.1, .int p.2))),
      ("termination_reason", writeOptional .str s.terminationReason),
      ("error_code", writeOptional (fun e => .str (StrEnum.value e)) s.errorCode),
      ("approved_fingerprints", writeStrs s.approvedFingerprints),
      ("tenant_id", writeOptional .str s.tenantId)])

def taskById (nodes : List TaskNodeSnapshot) (taskId : TaskId) : Except DecodeError Task :=
  match nodes.find? fun n => n.task.id = taskId with
  | some n => .ok n.task
  | none => .error (.unknownTaskId taskId)

/-- `_decode_agent_state`. The three fields the constructor call leaves out take their
defaults. -/
def decodeAgentState (v : Json) (nodes : List TaskNodeSnapshot) :
    Except DecodeError AgentState := do
  let taskIds ← readList readStr (← field v "task_ids")
  pure
    { sessionId := ← readStr (← field v "session_id")
      goal := ← decodeGoal iso (← field v "goal")
      currentTask := ← taskById nodes (← readStr (← field v "current_task_id"))
      readOnly := ← fieldD v "read_only" readBool false
      iteration := ← readInt (← field v "iteration")
      satisfiedCriteria := ← readMapping (← field v "satisfied_criteria")
      observations := ← readList (decodeObservation iso) (← field v "observations")
      latestEvaluation := ← readOptional decodeEvaluation (← field v "latest_evaluation")
      pendingAction := ← readOptional decodePendingAction (← field v "pending_action")
      tasks := ← taskIds.mapM (taskById nodes)
      recoveryAttempts := ← readDict readInt (← field v "recovery_attempts")
      terminationReason := ← readOptional readStr (← field v "termination_reason")
      errorCode := ← readOptional readEnum (← field v "error_code")
      approvedFingerprints := ← fieldD v "approved_fingerprints" (readList readStr) []
      tenantId := ← fieldD v "tenant_id" (readOptional readStr) none
      cumulativeCostMicros := 0
      cumulativeTokens := 0
      isContinuation := false }

def encodeDomainIdentity (i : DomainIdentity) : Json :=
  .obj [("name", .str i.name), ("version", .str i.version)]

def decodeDomainIdentity (v : Json) : Except DecodeError DomainIdentity := do
  pure ⟨← readStr (← field v "name"), ← readStr (← field v "version")⟩

def encodeSessionSnapshot (s : SessionSnapshot) : Except JsonCodecError Json := do
  let state ← encodeAgentState codec iso s.state
  let evidence ← s.evidence.mapM (encodeEvidence codec iso)
  pure (.obj
    [("schema_version", .int schemaVersion),
      ("domain", encodeDomainIdentity ⟨s.domainName, s.domainVersion⟩),
      ("domains", .arr (s.domains.map encodeDomainIdentity)), ("version", .int s.version),
      ("task_graph", encodeTaskGraph iso s.taskGraph), ("state", state),
      ("evidence", .arr evidence)])

def decodeDomainIdentities (identities : Option (List DomainIdentity)) (name version : String) :
    List DomainIdentity :=
  match identities with
  | none => primaryDomain name version
  | some [] => primaryDomain name version
  | some identities => identities

def decodeSessionSnapshot (v : Json) : Except DecodeError SessionSnapshot := do
  let schema ← readInt (← field v "schema_version")
  if schema ≠ schemaVersion then throw (.unsupportedSchemaVersion schema)
  let graph ← decodeTaskGraph iso (← field v "task_graph")
  let state ← decodeAgentState iso (← field v "state") graph.nodes
  let evidence ← readList (decodeEvidence iso) (← field v "evidence")
  let domain ← decodeDomainIdentity (← field v "domain")
  let domains ← fieldD v "domains" (readOptional (readList decodeDomainIdentity)) none
  pure
    { state := state
      taskGraph := graph
      evidence := evidence
      domainName := domain.name
      domainVersion := domain.version
      domainIdentities := decodeDomainIdentities domains domain.name domain.version
      version := ← fieldD v "version" readInt 0 }

end Codec

end UniversalAgent.Persistence
