import UniversalAgent.Core.Models
import UniversalAgent.Foundation.Sorting

/-!
# Recovery — Manager

Failures, recovery rules, and the rule that decides (`recovery/models.py`, `recovery/manager.py`): the
first that applies in the order of priority and name.
-/

namespace UniversalAgent.Recovery

open UniversalAgent.Core UniversalAgent.Foundation

inductive FailureCategory where
  | timeout | transient | permissionDenied | validation | dependencyMissing | toolFailure
  | evaluationFailed | userRequired | unknown
deriving DecidableEq, Repr

instance : StrEnum FailureCategory where
  value
    | .timeout => "timeout" | .transient => "transient" | .permissionDenied => "permission_denied"
    | .validation => "validation" | .dependencyMissing => "dependency_missing"
    | .toolFailure => "tool_failure" | .evaluationFailed => "evaluation_failed"
    | .userRequired => "user_required" | .unknown => "unknown"
  members := [.timeout, .transient, .permissionDenied, .validation, .dependencyMissing,
    .toolFailure, .evaluationFailed, .userRequired, .unknown]
  mem_members a := by cases a <;> simp
  value_injective a b := by cases a <;> cases b <;> simp

inductive RecoveryStrategy where
  | retryAction | reobserve | expandDiagnosisTask | alternativeCapability | askUser | stop | rollback
deriving DecidableEq, Repr

instance : StrEnum RecoveryStrategy where
  value
    | .retryAction => "retry_action" | .reobserve => "reobserve"
    | .expandDiagnosisTask => "expand_diagnosis_task"
    | .alternativeCapability => "alternative_capability" | .askUser => "ask_user" | .stop => "stop"
    | .rollback => "rollback"
  members := [.retryAction, .reobserve, .expandDiagnosisTask, .alternativeCapability, .askUser, .stop,
    .rollback]
  mem_members a := by cases a <;> simp
  value_injective a b := by cases a <;> cases b <;> simp

structure Failure where
  taskId : TaskId
  errorCode : ErrorCode
  category : FailureCategory
  reason : String
  capability : Option String
  arguments : JsonMapping
  target : Option String
deriving DecidableEq

/-- `RecoveryRule`, with what `__post_init__` checks. -/
structure RecoveryRule where
  name : String
  categories : List FailureCategory
  strategy : RecoveryStrategy
  maxAttempts : Int
  capability : Option String
  priority : Int
  matchCapabilities : List String
  attempts_nonneg : 0 ≤ maxAttempts
  alternative_named : strategy = .alternativeCapability →
    Text.isBlank (capability.getD "") = false
  no_rollback : strategy ≠ .rollback
deriving DecidableEq

structure RecoveryDecision where
  strategy : RecoveryStrategy
  ruleName : String
  attempt : Int
  exhausted : Bool := false
  capability : Option String := none
deriving DecidableEq

def classifyFailure : ErrorCode → FailureCategory
  | .timeout => .timeout
  | .transient | .resourceConflict => .transient
  | .policyDenied | .confirmationRejected | .permissionDenied => .permissionDenied
  | .userRequired => .userRequired
  | .dependencyMissing => .dependencyMissing
  | .validationError | .invalidState | .unknownCapability | .unknownTool => .validation
  | .noCapabilityTool => .dependencyMissing
  | .evaluationFailed => .evaluationFailed
  | .toolFailure => .toolFailure
  | .unknownExecution => .unknown
  | _ => .unknown

/-- The order of `(priority, name)`. -/
def ruleBefore (a b : RecoveryRule) : Prop :=
  a.priority < b.priority ∨ a.priority = b.priority ∧ a.name ≤ b.name

instance : DecidableRel ruleBefore := fun _ _ => inferInstanceAs (Decidable (_ ∨ _))

instance : Std.Total ruleBefore where
  total _ _ := Then.total RecoveryRule.priority (·.name ≤ ·.name) (le_total _ _)

instance : IsTrans RecoveryRule ruleBefore where
  trans _ _ _ := Then.trans RecoveryRule.priority (·.name ≤ ·.name) le_trans

def RecoveryRule.applies (rule : RecoveryRule) (failure : Failure) : Bool :=
  failure.category ∈ rule.categories &&
    (rule.matchCapabilities.isEmpty || rule.matchCapabilities.any fun c => failure.capability = some c)

/-- `RecoveryManager`: the rules, sorted. -/
structure RecoveryManager where
  rules : List RecoveryRule

def RecoveryManager.of (rules : List RecoveryRule) : RecoveryManager :=
  ⟨rules.insertionSort ruleBefore⟩

def attemptKey (taskId : TaskId) (category : FailureCategory) (ruleName : String) : String :=
  taskId ++ ":" ++ StrEnum.value category ++ ":" ++ ruleName

def RecoveryManager.ruleFor (manager : RecoveryManager) (failure : Failure) : Option RecoveryRule :=
  manager.rules.find? fun rule => rule.applies failure

def RecoveryManager.decide (manager : RecoveryManager) (failure : Failure)
    (attempts : List (String × Int)) : RecoveryDecision × String :=
  match manager.ruleFor failure with
  | none => ({ strategy := .stop, ruleName := "default-stop", attempt := 0 }, "")
  | some rule =>
    let key := attemptKey failure.taskId failure.category rule.name
    let attempt := (attempts.lookup key).getD 0 + 1
    let exhausted := rule.maxAttempts < attempt
    (⟨if exhausted then .stop else rule.strategy, rule.name, attempt, exhausted, rule.capability⟩, key)

end UniversalAgent.Recovery
