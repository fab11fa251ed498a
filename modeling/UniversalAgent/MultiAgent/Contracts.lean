import UniversalAgent.Core.Models
import UniversalAgent.Foundation.Text

/-!
# MultiAgent — Contracts

The requests and results that agents exchange (`multi_agent/contracts.py`), each with the checks of
its constructor. Of a request, what the orchestrator reads: not the input and the expected output
that it hands on.
-/

namespace UniversalAgent.MultiAgent

open UniversalAgent.Core UniversalAgent.Foundation

abbrev AgentId := String
abbrev AgentTaskId := String

abbrev Amount := WithTop ℚ

/-- What calls raise. The class names are the source's; `other` is any exception of an executor. -/
inductive AgentException where
  | value (text : String)
  | invalidDelegationTransition (text : String)
  | delegationNotFound (text : String)
  | registry (text : String)
  | instanceNotRegistered (text : String)
  | profileNotRegistered (text : String)
  | noEligibleAgent (text : String)
  | executorNotRegistered (text : String)
  | delegationLimit (text : String)
  | delegationDependency (text : String)
  | timeout (text : String)
  | other (className text : String)
deriving DecidableEq

namespace AgentException

/-- `str(exc)`, but for the quotes that `KeyError` adds. -/
def text : AgentException → String
  | value t => t
  | invalidDelegationTransition t => t
  | delegationNotFound t => t
  | registry t => t
  | instanceNotRegistered t => t
  | profileNotRegistered t => t
  | noEligibleAgent t => t
  | executorNotRegistered t => t
  | delegationLimit t => t
  | delegationDependency t => t
  | timeout t => t
  | other _ t => t

/-- `type(exc).__name__`. -/
def className : AgentException → String
  | value _ => "ValueError"
  | invalidDelegationTransition _ => "InvalidDelegationTransition"
  | delegationNotFound _ => "KeyError"
  | registry _ => "AgentRegistryError"
  | instanceNotRegistered _ => "AgentInstanceNotRegisteredError"
  | profileNotRegistered _ => "AgentProfileNotRegisteredError"
  | noEligibleAgent _ => "NoEligibleAgentError"
  | executorNotRegistered _ => "AgentExecutorNotRegisteredError"
  | delegationLimit _ => "AgentDelegationLimitError"
  | delegationDependency _ => "AgentDelegationDependencyError"
  | timeout _ => "TimeoutError"
  | other name _ => name

/-- `isinstance(exc, AgentDelegationError)`. -/
def isDelegationError : AgentException → Bool
  | noEligibleAgent _ => true
  | executorNotRegistered _ => true
  | delegationLimit _ => true
  | delegationDependency _ => true
  | _ => false

end AgentException

/-! ## Requests -/

@[ext]
structure AgentTaskConstraints where
  readOnly : Bool
  maxDepth : Nat
  maxChildren : Nat
  maxDurationSeconds : Option Amount
  maxCost : Option Amount
  allowedProfiles : List String
  requiredPermissions : List String
  children_pos : 0 < maxChildren
  duration_pos : ∀ seconds ∈ maxDurationSeconds, 0 < seconds
  cost_nonneg : ∀ cost ∈ maxCost, 0 ≤ cost
  profiles_filled : ∀ profile ∈ allowedProfiles, Text.isBlank profile = false
  permissions_filled : ∀ permission ∈ requiredPermissions, Text.isBlank permission = false

instance : DecidableEq AgentTaskConstraints := fun _ _ =>
  decidable_of_iff _ AgentTaskConstraints.ext_iff.symm

def AgentTaskConstraints.plain : AgentTaskConstraints where
  readOnly := false
  maxDepth := 1
  maxChildren := 1
  maxDurationSeconds := none
  maxCost := none
  allowedProfiles := []
  requiredPermissions := []
  children_pos := Nat.one_pos
  duration_pos := fun _ h => nomatch h
  cost_nonneg := fun _ h => nomatch h
  profiles_filled := fun _ h => nomatch h
  permissions_filled := fun _ h => nomatch h

@[ext]
structure AgentTaskRequest where
  goal : String
  constraints : AgentTaskConstraints
  taskId : AgentTaskId
  parentTaskId : Option AgentTaskId
  delegationDepth : Nat
  goal_filled : Text.isBlank goal = false
  depth_le : delegationDepth ≤ constraints.maxDepth
  id_filled : Text.isBlank taskId = false

instance : DecidableEq AgentTaskRequest := fun _ _ => decidable_of_iff _ AgentTaskRequest.ext_iff.symm

/-! ## Results -/

inductive AgentTaskResultStatus where
  | completed | failed | cancelled | rejected | waiting
deriving DecidableEq, Repr

def AgentTaskResultStatus.value : AgentTaskResultStatus → String
  | completed => "completed"
  | failed => "failed"
  | cancelled => "cancelled"
  | rejected => "rejected"
  | waiting => "waiting"

structure AgentTaskUsage where
  modelCallCount : Nat
  inputTokens : Nat
  outputTokens : Nat
  estimatedCost : Amount
  currency : String
deriving DecidableEq

def AgentTaskUsage.none : AgentTaskUsage := ⟨0, 0, 0, 0, "USD"⟩

@[ext]
structure AgentTaskResult where
  taskId : AgentTaskId
  status : AgentTaskResultStatus
  result : JsonMapping
  evidenceIds : List EvidenceId
  reason : String
  sessionId : Option SessionId
  errorCode : Option ErrorCode
  usage : AgentTaskUsage
  id_filled : Text.isBlank taskId = false
  completed_clean : status = .completed → errorCode = none
  reason_filled : status ≠ .completed → Text.isBlank reason = false

instance : DecidableEq AgentTaskResult := fun _ _ => decidable_of_iff _ AgentTaskResult.ext_iff.symm

/-- The constructor, `AgentTaskResult(...)`. -/
def AgentTaskResult.make (taskId : AgentTaskId) (status : AgentTaskResultStatus)
    (result : JsonMapping) (evidenceIds : List EvidenceId) (reason : String)
    (sessionId : Option SessionId) (errorCode : Option ErrorCode) (usage : AgentTaskUsage) :
    Except AgentException AgentTaskResult :=
  if hid : Text.isBlank taskId = false then
    if hclean : status = .completed → errorCode = none then
      if hreason : status ≠ .completed → Text.isBlank reason = false then
        .ok ⟨taskId, status, result, evidenceIds, reason, sessionId, errorCode, usage, hid, hclean,
          hreason⟩
      else .error (.value "non-completed agent task result requires reason")
    else .error (.value "completed agent task result cannot include error_code")
  else .error (.value "agent task result task_id must not be empty")

/-- `AgentTaskResult(task_id, status, reason=..., error_code=...)`. -/
def AgentTaskResult.unfinished (taskId : AgentTaskId) (status : AgentTaskResultStatus)
    (reason : String) (errorCode : Option ErrorCode) : Except AgentException AgentTaskResult :=
  AgentTaskResult.make taskId status [] [] reason none errorCode .none

theorem AgentTaskResult.make_ok {taskId : AgentTaskId} {status : AgentTaskResultStatus}
    {result : JsonMapping} {evidenceIds : List EvidenceId} {reason : String}
    {sessionId : Option SessionId} {errorCode : Option ErrorCode} {usage : AgentTaskUsage}
    {r : AgentTaskResult}
    (h : AgentTaskResult.make taskId status result evidenceIds reason sessionId errorCode usage
      = .ok r) :
    r.taskId = taskId ∧ r.status = status ∧ r.reason = reason := by
  unfold make at h
  split at h
  · split at h
    · split at h
      · cases h
        exact ⟨rfl, rfl, rfl⟩
      · cases h
    · cases h
  · cases h

end UniversalAgent.MultiAgent
