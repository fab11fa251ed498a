import UniversalAgent.Core.Json
import UniversalAgent.Foundation.Text

/-!
# Core — Models

The records of the runtime (`core/models.py`, with `Evidence` of `evidence/models.py`, the task
graph of `tasks/models.py` and `SessionSnapshot` of `state/session.py`). Identifiers are texts,
as the source's `NewType`s are; a confidence is a rational number.

An enumeration is stored as the text of its member. `StrEnum` is what the program uses of
Python's `StrEnum`: the members in order, the text of each, and looking a text up again.
-/

namespace UniversalAgent.Core

open UniversalAgent.Foundation

/-! ## Enumerations -/

class StrEnum (α : Type) where
  value : α → String
  members : List α
  mem_members : ∀ a, a ∈ members
  value_injective : Function.Injective value

namespace StrEnum

variable {α : Type} [StrEnum α]

/-- `EnumType(text)`: the member with that text. -/
def ofValue? (s : String) : Option α := (members : List α).find? fun a => value a = s

@[simp] theorem ofValue?_value (a : α) : ofValue? (value a) = some a := by
  cases h : ofValue? (α := α) (value a) with
  | none =>
    have := List.find?_eq_none.mp h a (mem_members a)
    simp at this
  | some b =>
    have hb : value b = value a := by simpa using List.find?_some h
    rw [value_injective hb]

end StrEnum

inductive GoalStatus where
  | pending | running | waiting | completed | failed | cancelled
deriving DecidableEq, Repr

inductive TaskStatus where
  | pending | running | waiting | completed | failed | cancelled
deriving DecidableEq, Repr

inductive DecisionType where
  | execute | wait | askUser | finish
deriving DecidableEq, Repr

inductive ObservationStatus where
  | succeeded | failed | timedOut | unknown
deriving DecidableEq, Repr

inductive ExecutionStatus where
  | completed | waiting | cancelled | failed
deriving DecidableEq, Repr

inductive CapabilityCategory where
  | observation | mutation
deriving DecidableEq, Repr

inductive RiskLevel where
  | low | medium | high
deriving DecidableEq, Repr

inductive SideEffect where
  | none | reversible | destructive
deriving DecidableEq, Repr

inductive PolicyEffect where
  | allow | requireConfirmation | deny
deriving DecidableEq, Repr

inductive EvaluationStatus where
  | incomplete | completed | failed
deriving DecidableEq, Repr

inductive ErrorCode where
  | validationError | unknownCapability | noCapabilityTool | unknownTool | toolFailure
  | unknownExecution | timeout | invalidState | iterationLimit | modelFailure | policyDenied
  | confirmationRejected | evaluationFailed | domainValidationFailed | resourceConflict
  | costLimitExceeded | transient | permissionDenied | dependencyMissing | userRequired
deriving DecidableEq, Repr

instance : StrEnum GoalStatus where
  value
    | .pending => "pending" | .running => "running" | .waiting => "waiting"
    | .completed => "completed" | .failed => "failed" | .cancelled => "cancelled"
  members := [.pending, .running, .waiting, .completed, .failed, .cancelled]
  mem_members a := by cases a <;> simp
  value_injective a b := by cases a <;> cases b <;> simp

instance : StrEnum TaskStatus where
  value
    | .pending => "pending" | .running => "running" | .waiting => "waiting"
    | .completed => "completed" | .failed => "failed" | .cancelled => "cancelled"
  members := [.pending, .running, .waiting, .completed, .failed, .cancelled]
  mem_members a := by cases a <;> simp
  value_injective a b := by cases a <;> cases b <;> simp

instance : StrEnum ObservationStatus where
  value
    | .succeeded => "succeeded" | .failed => "failed" | .timedOut => "timed_out"
    | .unknown => "unknown"
  members := [.succeeded, .failed, .timedOut, .unknown]
  mem_members a := by cases a <;> simp
  value_injective a b := by cases a <;> cases b <;> simp

instance : StrEnum EvaluationStatus where
  value
    | .incomplete => "incomplete" | .completed => "completed" | .failed => "failed"
  members := [.incomplete, .completed, .failed]
  mem_members a := by cases a <;> simp
  value_injective a b := by cases a <;> cases b <;> simp

def ErrorCode.text : ErrorCode → String
  | .validationError => "validation_error"
  | .unknownCapability => "unknown_capability"
  | .noCapabilityTool => "no_capability_tool"
  | .unknownTool => "unknown_tool"
  | .toolFailure => "tool_failure"
  | .unknownExecution => "unknown_execution"
  | .timeout => "timeout"
  | .invalidState => "invalid_state"
  | .iterationLimit => "iteration_limit"
  | .modelFailure => "model_failure"
  | .policyDenied => "policy_denied"
  | .confirmationRejected => "confirmation_rejected"
  | .evaluationFailed => "evaluation_failed"
  | .domainValidationFailed => "domain_validation_failed"
  | .resourceConflict => "resource_conflict"
  | .costLimitExceeded => "cost_limit_exceeded"
  | .transient => "transient"
  | .permissionDenied => "permission_denied"
  | .dependencyMissing => "dependency_missing"
  | .userRequired => "user_required"

def ErrorCode.all : List ErrorCode :=
  [.validationError, .unknownCapability, .noCapabilityTool, .unknownTool, .toolFailure,
    .unknownExecution, .timeout, .invalidState, .iterationLimit, .modelFailure, .policyDenied,
    .confirmationRejected, .evaluationFailed, .domainValidationFailed, .resourceConflict,
    .costLimitExceeded, .transient, .permissionDenied, .dependencyMissing, .userRequired]

theorem ErrorCode.text_nodup : (ErrorCode.all.map ErrorCode.text).Nodup := by decide

theorem ErrorCode.mem_all (e : ErrorCode) : e ∈ ErrorCode.all := by cases e <;> decide

instance : StrEnum ErrorCode where
  value := ErrorCode.text
  members := ErrorCode.all
  mem_members := ErrorCode.mem_all
  value_injective a b h :=
    List.inj_on_of_nodup_map ErrorCode.text_nodup (ErrorCode.mem_all a) (ErrorCode.mem_all b) h

/-! ## Identifiers -/

abbrev SessionId := String
abbrev GoalId := String
abbrev TaskId := String
abbrev ActionId := String
abbrev ObservationId := String
abbrev EvidenceId := String
abbrev EventId := String

/-! ## Goals, tasks, decisions -/

structure DomainIdentity where
  name : String
  version : String
deriving DecidableEq

structure SuccessCriterion where
  key : String
  expected : Json
deriving DecidableEq

structure Goal where
  description : String
  successCriteria : List SuccessCriterion
  id : GoalId
  status : GoalStatus
  createdAt : Instant
deriving DecidableEq

structure Task where
  description : String
  requiredCriteria : List String
  id : TaskId
  status : TaskStatus
  createdAt : Instant
deriving DecidableEq

structure Observation where
  id : ObservationId
  actionId : ActionId
  taskId : TaskId
  source : String
  status : ObservationStatus
  data : JsonMapping
  observedAt : Instant
  error : Option String
  errorCode : Option ErrorCode
deriving DecidableEq

structure EvaluationResult where
  status : EvaluationStatus
  reason : String
  evaluatorName : String
  matchedCriteria : JsonMapping
  taskCompleted : Bool
  goalCompleted : Bool
deriving DecidableEq

structure PendingAction where
  actionId : ActionId
  capability : String
  toolName : String
  target : Option String
  arguments : JsonMapping
  domainName : String
  domainVersion : String
  idempotencyKey : String
  parametersHash : String
  attempt : Int
  resourceKey : String
  resourceVersion : Option String
deriving DecidableEq

/-- One piece of evidence. What `Evidence.__post_init__` checks is a field. -/
structure Evidence where
  sessionId : SessionId
  taskId : TaskId
  actionId : ActionId
  observationId : ObservationId
  subject : String
  claim : String
  value : Json
  source : String
  confidence : ℚ
  id : EvidenceId
  observedAt : Instant
  domainName : String
  domainVersion : String
  postInit : (0 ≤ confidence ∧ confidence ≤ 1) ∧ Text.isBlank subject = false ∧
    Text.isBlank claim = false
deriving DecidableEq

structure RuntimeEvent where
  type : String
  sessionId : SessionId
  goalId : GoalId
  taskId : TaskId
  id : EventId
  actionId : Option ActionId
  data : JsonMapping
  occurredAt : Instant
deriving DecidableEq

/-! ## The state of a session -/

structure AgentState where
  sessionId : SessionId
  goal : Goal
  currentTask : Task
  readOnly : Bool
  iteration : Int
  satisfiedCriteria : JsonMapping
  observations : List Observation
  latestEvaluation : Option EvaluationResult
  pendingAction : Option PendingAction
  approvedFingerprints : List String
  tasks : List Task
  recoveryAttempts : List (String × Int)
  terminationReason : Option String
  errorCode : Option ErrorCode
  tenantId : Option String
  cumulativeCostMicros : Int
  cumulativeTokens : Int
  isContinuation : Bool
deriving DecidableEq

structure TaskNodeSnapshot where
  key : String
  task : Task
  dependsOn : List TaskId
deriving DecidableEq

structure TaskGraphSnapshot where
  nodes : List TaskNodeSnapshot
  currentTaskId : TaskId
deriving DecidableEq

structure SessionSnapshot where
  state : AgentState
  taskGraph : TaskGraphSnapshot
  evidence : List Evidence
  domainName : String
  domainVersion : String
  domainIdentities : List DomainIdentity
  version : Int
deriving DecidableEq

/-- The primary domain as a list, when both its name and its version are given. -/
def primaryDomain (name version : String) : List DomainIdentity :=
  if name ≠ "" ∧ version ≠ "" then [⟨name, version⟩] else []

def SessionSnapshot.domains (s : SessionSnapshot) : List DomainIdentity :=
  if s.domainIdentities ≠ [] then s.domainIdentities
  else primaryDomain s.domainName s.domainVersion

end UniversalAgent.Core
