import UniversalAgent.Core.Floats
import UniversalAgent.MultiAgent.Contracts
import UniversalAgent.Persistence.RoundTrip

/-!
# MultiAgent — ContractCodec

The requests and results of `multi_agent/contracts.py` in full, and the payloads they are sent as. A value is
its fields with the check of its constructor. The decoders read a payload as the strict pydantic models do,
and construct the value from what they read: a field that is a float for the model is a float afterwards,
also where an integer was given.
-/

namespace UniversalAgent.MultiAgent.Wire

open UniversalAgent.Core UniversalAgent.Foundation
open UniversalAgent.Persistence (DecodeError field fieldD readStr readInt readBool readMapping readList
  readOptional readEnum writeOptional writeStrs)

instance : StrEnum AgentTaskResultStatus where
  value := AgentTaskResultStatus.value
  members := [.completed, .failed, .cancelled, .rejected, .waiting]
  mem_members a := by cases a <;> simp
  value_injective a b := by cases a <;> cases b <;> simp [AgentTaskResultStatus.value]

/-- What constructors and decoders raise: the payload is not of the model's form, or the value is refused. -/
inductive WireError where
  | payload
  | value (text : String)
deriving DecidableEq

def agentTaskApiVersion : String := "agent.nantian.dev/v1"

/-! ## Checks -/

/-- `parse_non_empty_string(value, field)`. -/
def checkFilled (value name : String) : Except WireError Unit :=
  if Text.isBlank value then .error (.value (name ++ " must not be empty")) else .ok ()

/-- `parse_non_empty_string_sequence(values, field)`. -/
def checkAllFilled (values : List String) (name : String) : Except WireError Unit :=
  if values.any Text.isBlank then .error (.value (name ++ " must not be empty")) else .ok ()

/-- `parse_non_negative_int(value, field, range_template=...)`. -/
def checkNonNegative (value : Int) (text : String) : Except WireError Unit :=
  if value < 0 then .error (.value text) else .ok ()

/-- The check of a float: an integer is checked as the float it makes; no NaN is refused. -/
def checkFloat (refused : ℚ → Bool) (number : Number) (name text : String) : Except WireError Unit :=
  match number.toFloat? with
  | none => .error (.value (name ++ " must be a number"))
  | some (.finite q) => if refused q then .error (.value text) else .ok ()
  | some (.infinite negative) => if negative then .error (.value text) else .ok ()
  | some .nan => .ok ()

/-- `parse_non_negative_float(value, field)`. -/
def checkNonNegativeFloat (number : Number) (name text : String) : Except WireError Unit :=
  checkFloat (fun q => decide (q < 0)) number name text

/-- `parse_optional_positive_float(value, field)`. -/
def checkOptionalPositiveFloat : Option Number → String → Except WireError Unit
  | none, _ => .ok ()
  | some number, name => checkFloat (fun q => decide (q ≤ 0)) number name (name ++ " must be positive")

/-- `parse_optional_non_negative_float(value, field)`. -/
def checkOptionalNonNegativeFloat : Option Number → String → Except WireError Unit
  | none, _ => .ok ()
  | some number, name => checkNonNegativeFloat number name (name ++ " must be non-negative")

/-! ## Requests -/

/-- The arguments of `AgentTaskConstraints`. -/
structure ConstraintsFields where
  readOnly : Bool
  maxDepth : Int
  maxChildren : Int
  maxDurationSeconds : Option Number
  maxCost : Option Number
  allowedProfiles : List String
  requiredPermissions : List String
deriving DecidableEq

def ConstraintsFields.postInit (f : ConstraintsFields) : Except WireError Unit := do
  checkNonNegative f.maxDepth "agent task max_depth must be non-negative"
  checkNonNegative (f.maxChildren - 1) "agent task max_children must be positive"
  checkOptionalPositiveFloat f.maxDurationSeconds "agent task max_duration_seconds"
  checkOptionalNonNegativeFloat f.maxCost "agent task max_cost"
  checkAllFilled f.allowedProfiles "agent task allowed_profiles"
  checkAllFilled f.requiredPermissions "agent task required_permissions"

structure AgentTaskConstraints extends ConstraintsFields where
  checked : toConstraintsFields.postInit = .ok ()
deriving DecidableEq

@[ext]
structure AgentExpectedOutput where
  type : String
  schema : JsonMapping
  type_filled : Text.isBlank type = false

instance : DecidableEq AgentExpectedOutput := fun _ _ =>
  decidable_of_iff _ AgentExpectedOutput.ext_iff.symm

/-- The arguments of `AgentTaskRequest`. -/
structure RequestFields where
  goal : String
  expectedOutput : AgentExpectedOutput
  input : JsonMapping
  constraints : AgentTaskConstraints
  apiVersion : String
  taskId : AgentTaskId
  parentTaskId : Option AgentTaskId
  parentSessionId : Option SessionId
  parentGoalId : Option GoalId
  parentKernelTaskId : Option TaskId
  delegationDepth : Int
deriving DecidableEq

/-- The checks of `AgentTaskRequest.__post_init__`. -/
def RequestFields.postInit (f : RequestFields) : Except WireError Unit := do
  if f.apiVersion ≠ agentTaskApiVersion then
    throw (.value ("unsupported agent task api version: " ++ f.apiVersion))
  checkFilled f.goal "agent task goal"
  checkNonNegative f.delegationDepth "agent task delegation_depth must be non-negative"
  if f.constraints.maxDepth < f.delegationDepth then
    throw (.value "agent task delegation_depth exceeds max_depth")

structure AgentTaskRequest extends RequestFields where
  checked : toRequestFields.postInit = .ok ()
  id_filled : Text.isBlank taskId = false
deriving DecidableEq

/-! ## Results -/

/-- The arguments of `AgentTaskUsage`. -/
structure UsageFields where
  modelCallCount : Int
  inputTokens : Int
  outputTokens : Int
  estimatedCost : Number
  currency : String
deriving DecidableEq

def UsageFields.postInit (f : UsageFields) : Except WireError Unit := do
  checkNonNegative f.modelCallCount "agent task usage model_call_count must not be negative"
  checkNonNegative f.inputTokens "agent task usage input_tokens must not be negative"
  checkNonNegative f.outputTokens "agent task usage output_tokens must not be negative"
  checkNonNegativeFloat f.estimatedCost "agent task usage estimated_cost"
    "agent task usage estimated_cost must not be negative"
  checkFilled f.currency "agent task usage currency"

structure AgentTaskUsage extends UsageFields where
  checked : toUsageFields.postInit = .ok ()
deriving DecidableEq

def UsageFields.totalTokens (u : UsageFields) : Int := u.inputTokens + u.outputTokens

/-- The arguments of `AgentTaskResult`. -/
structure ResultFields where
  taskId : AgentTaskId
  status : AgentTaskResultStatus
  result : JsonMapping
  evidenceIds : List EvidenceId
  reason : String
  sessionId : Option SessionId
  errorCode : Option ErrorCode
  apiVersion : String
  usage : AgentTaskUsage
deriving DecidableEq

def ResultFields.postInit (f : ResultFields) : Except WireError Unit := do
  if f.apiVersion ≠ agentTaskApiVersion then
    throw (.value ("unsupported agent task result api version: " ++ f.apiVersion))
  checkFilled f.taskId "agent task result task_id"
  if f.status = .completed ∧ f.errorCode ≠ none then
    throw (.value "completed agent task result cannot include error_code")
  if f.status ≠ .completed ∧ Text.isBlank f.reason = true then
    throw (.value "non-completed agent task result requires reason")

structure AgentTaskResult extends ResultFields where
  checked : toResultFields.postInit = .ok ()
deriving DecidableEq

/-! ## Constructors -/

def construct {φ α : Type} (check : φ → Except WireError Unit) (mk : ∀ f, check f = .ok () → α) (f : φ) :
    Except WireError α :=
  match h : check f with
  | .ok () => .ok (mk f h)
  | .error e => .error e

theorem construct_ok {φ α : Type} {check : φ → Except WireError Unit} {mk : ∀ f, check f = .ok () → α} {f : φ}
    (h : check f = .ok ()) : construct check mk f = .ok (mk f h) := by
  unfold construct
  split
  · rfl
  · next he => rw [h] at he; cases he

/-- `AgentTaskConstraints(...)`. -/
def AgentTaskConstraints.make : ConstraintsFields → Except WireError AgentTaskConstraints :=
  construct ConstraintsFields.postInit AgentTaskConstraints.mk

/-- `AgentTaskUsage(...)`. -/
def AgentTaskUsage.make : UsageFields → Except WireError AgentTaskUsage :=
  construct UsageFields.postInit AgentTaskUsage.mk

/-- `AgentTaskResult(...)`. -/
def AgentTaskResult.make : ResultFields → Except WireError AgentTaskResult :=
  construct ResultFields.postInit AgentTaskResult.mk

/-- `AgentExpectedOutput(...)`. -/
def AgentExpectedOutput.make (type : String) (schema : JsonMapping) : Except WireError AgentExpectedOutput :=
  if h : Text.isBlank type = false then .ok ⟨type, schema, h⟩
  else .error (.value "agent expected output type must not be empty")

/-- `_agent_task_id`: a mark before the words of the goal and the moment. -/
def agentTaskId (suffix : String → String) (goal : String) : AgentTaskId := "agent-task-" ++ suffix goal

theorem agentTaskId_filled (suffix : String → String) (goal : String) :
    Text.isBlank (agentTaskId suffix goal) = false := by
  rw [agentTaskId, Text.isBlank, String.toList_append, List.all_append]
  exact Bool.and_eq_false_imp.mpr fun h => absurd h (by decide)

def requestId (suffix : String → String) (f : RequestFields) : AgentTaskId :=
  if Text.isBlank f.taskId then agentTaskId suffix f.goal else f.taskId

theorem requestId_filled (suffix : String → String) (f : RequestFields) :
    Text.isBlank (requestId suffix f) = false := by
  unfold requestId
  cases h : Text.isBlank f.taskId with
  | true => exact agentTaskId_filled suffix f.goal
  | false => exact h

/-- `AgentTaskRequest(...)`. -/
def AgentTaskRequest.make (suffix : String → String) : RequestFields → Except WireError AgentTaskRequest :=
  construct RequestFields.postInit fun f h =>
    { f with taskId := requestId suffix f, checked := h, id_filled := requestId_filled suffix f }

/-! ## Payloads -/

/-- The `constraints` of a request's payload. -/
def constraintsPayload (c : AgentTaskConstraints) : Json :=
  .obj
    [("read_only", .bool c.readOnly), ("max_depth", .int c.maxDepth), ("max_children", .int c.maxChildren),
      ("max_duration_seconds", writeOptional Number.toJson c.maxDurationSeconds),
      ("max_cost", writeOptional Number.toJson c.maxCost),
      ("allowed_profiles", writeStrs c.allowedProfiles),
      ("required_permissions", writeStrs c.requiredPermissions)]

def agentTaskRequestPayload (r : AgentTaskRequest) : JsonMapping :=
  [("api_version", .str r.apiVersion), ("task_id", .str r.taskId),
    ("parent_task_id", writeOptional .str r.parentTaskId),
    ("parent_session_id", writeOptional .str r.parentSessionId),
    ("parent_goal_id", writeOptional .str r.parentGoalId),
    ("parent_kernel_task_id", writeOptional .str r.parentKernelTaskId), ("goal", .str r.goal),
    ("input", .obj r.input), ("constraints", constraintsPayload r.constraints),
    ("expected_output",
      .obj [("type", .str r.expectedOutput.type), ("schema", .obj r.expectedOutput.schema)]),
    ("delegation_depth", .int r.delegationDepth)]

/-- The `usage` of a result's payload. -/
def usagePayload (u : AgentTaskUsage) : Json :=
  .obj
    [("model_call_count", .int u.modelCallCount), ("input_tokens", .int u.inputTokens),
      ("output_tokens", .int u.outputTokens), ("total_tokens", .int u.totalTokens),
      ("estimated_cost", u.estimatedCost.toJson), ("currency", .str u.currency)]

def agentTaskResultPayload (r : AgentTaskResult) : JsonMapping :=
  [("api_version", .str r.apiVersion), ("task_id", .str r.taskId),
    ("status", .str (StrEnum.value r.status)), ("result", .obj r.result),
    ("evidence", writeStrs r.evidenceIds), ("reason", .str r.reason),
    ("session_id", writeOptional .str r.sessionId),
    ("error_code", writeOptional (fun e => .str (StrEnum.value e)) r.errorCode),
    ("usage", usagePayload r.usage)]

/-! ## Decoders -/

/-- A field that is a float for the model: an integer is made one, unless it is beyond all floats. -/
def readNumber : Json → Except DecodeError Number
  | .int i => match (Number.int i).toFloat? with
      | some x => .ok (.float x)
      | none => .error .payload
  | .float x => .ok (.float x)
  | .null | .bool _ | .str _ | .arr _ | .obj _ => .error .payload

/-- `_AgentTaskConstraintsPayload`. -/
def readConstraints (v : Json) : Except DecodeError ConstraintsFields := do
  let v := Json.obj (← readMapping v)
  pure
    { readOnly := ← fieldD v "read_only" readBool false
      maxDepth := ← fieldD v "max_depth" readInt 1
      maxChildren := ← fieldD v "max_children" readInt 1
      maxDurationSeconds := ← fieldD v "max_duration_seconds" (readOptional readNumber) none
      maxCost := ← fieldD v "max_cost" (readOptional readNumber) none
      allowedProfiles := ← fieldD v "allowed_profiles" (readList readStr) []
      requiredPermissions := ← fieldD v "required_permissions" (readList readStr) [] }

/-- What `_AgentTaskRequestPayload` reads. -/
structure RequestPayload where
  goal : String
  outputType : String
  outputSchema : JsonMapping
  input : JsonMapping
  constraints : ConstraintsFields
  apiVersion : String
  taskId : String
  parentTaskId : Option String
  parentSessionId : Option String
  parentGoalId : Option String
  parentKernelTaskId : Option String
  delegationDepth : Int

def defaultConstraints : ConstraintsFields := ⟨false, 1, 1, none, none, [], []⟩

/-- `_AgentTaskRequestPayload`. -/
def readRequest (v : Json) : Except DecodeError RequestPayload := do
  let output := Json.obj (← readMapping (← field v "expected_output"))
  pure
    { goal := ← readStr (← field v "goal")
      outputType := ← readStr (← field output "type")
      outputSchema := ← fieldD output "schema" readMapping []
      input := ← fieldD v "input" readMapping []
      constraints := ← fieldD v "constraints" readConstraints defaultConstraints
      apiVersion := ← fieldD v "api_version" readStr agentTaskApiVersion
      taskId := ← fieldD v "task_id" readStr ""
      parentTaskId := ← fieldD v "parent_task_id" (readOptional readStr) none
      parentSessionId := ← fieldD v "parent_session_id" (readOptional readStr) none
      parentGoalId := ← fieldD v "parent_goal_id" (readOptional readStr) none
      parentKernelTaskId := ← fieldD v "parent_kernel_task_id" (readOptional readStr) none
      delegationDepth := ← fieldD v "delegation_depth" readInt 0 }

def parsed {α : Type} : Except DecodeError α → Except WireError α
  | .ok a => .ok a
  | .error _ => .error .payload

theorem of_parsed {α : Type} {x : Except DecodeError α} {a : α} (h : parsed x = .ok a) : x = .ok a := by
  cases x with
  | error e => cases h
  | ok b => exact congrArg Except.ok (Except.ok.inj h)

def decodeAgentTaskRequest (suffix : String → String) (payload : JsonMapping) :
    Except WireError AgentTaskRequest := do
  let p ← parsed (readRequest (.obj payload))
  let constraints ← AgentTaskConstraints.make p.constraints
  let expectedOutput ← AgentExpectedOutput.make p.outputType p.outputSchema
  AgentTaskRequest.make suffix
    { goal := p.goal, expectedOutput := expectedOutput, input := p.input, constraints := constraints
      apiVersion := p.apiVersion, taskId := p.taskId, parentTaskId := p.parentTaskId
      parentSessionId := p.parentSessionId, parentGoalId := p.parentGoalId
      parentKernelTaskId := p.parentKernelTaskId, delegationDepth := p.delegationDepth }

/-- What `_AgentTaskUsagePayload` reads. -/
structure UsagePayload extends UsageFields where
  totalTokens? : Option Int

def defaultUsage : UsagePayload := ⟨⟨0, 0, 0, .float (.finite 0), "USD"⟩, none⟩

/-- `_AgentTaskUsagePayload`. -/
def readUsage (v : Json) : Except DecodeError UsagePayload := do
  let v := Json.obj (← readMapping v)
  pure
    { modelCallCount := ← fieldD v "model_call_count" readInt 0
      inputTokens := ← fieldD v "input_tokens" readInt 0
      outputTokens := ← fieldD v "output_tokens" readInt 0
      totalTokens? := ← fieldD v "total_tokens" (readOptional readInt) none
      estimatedCost := ← fieldD v "estimated_cost" readNumber (.float (.finite 0))
      currency := ← fieldD v "currency" readStr "USD" }

def agentTaskUsage (p : UsagePayload) : Except WireError AgentTaskUsage := do
  let usage ← AgentTaskUsage.make p.toUsageFields
  if p.totalTokens?.any fun total => decide (total ≠ usage.totalTokens) then
    .error (.value "usage.total_tokens does not match input_tokens + output_tokens")
  else .ok usage

/-- What `_AgentTaskResultPayload` reads. -/
structure ResultPayload where
  taskId : String
  status : AgentTaskResultStatus
  result : JsonMapping
  evidence : List String
  reason : String
  sessionId : Option String
  errorCode : Option ErrorCode
  apiVersion : String
  usage : UsagePayload

/-- `_AgentTaskResultPayload`. -/
def readResult (v : Json) : Except DecodeError ResultPayload := do
  pure
    { taskId := ← readStr (← field v "task_id")
      status := ← readEnum (← field v "status")
      result := ← fieldD v "result" readMapping []
      evidence := ← fieldD v "evidence" (readList readStr) []
      reason := ← fieldD v "reason" readStr ""
      sessionId := ← fieldD v "session_id" (readOptional readStr) none
      errorCode := ← fieldD v "error_code" (readOptional readEnum) none
      apiVersion := ← fieldD v "api_version" readStr agentTaskApiVersion
      usage := ← fieldD v "usage" readUsage defaultUsage }

def decodeAgentTaskResult (payload : JsonMapping) : Except WireError AgentTaskResult := do
  let p ← parsed (readResult (.obj payload))
  let usage ← agentTaskUsage p.usage
  AgentTaskResult.make
    { taskId := p.taskId, status := p.status, result := p.result, evidenceIds := p.evidence
      reason := p.reason, sessionId := p.sessionId, errorCode := p.errorCode, apiVersion := p.apiVersion
      usage := usage }

/-! ## Numbers on their way -/

def roundedNumber (n : Number) : Number :=
  match n.toFloat? with
  | some x => .float x
  | none => n

def exactNumber (n : Number) : Number := .float n.value

theorem toFloat?_roundedNumber (n : Number) : (roundedNumber n).toFloat? = n.toFloat? := by
  unfold roundedNumber
  cases h : n.toFloat? with
  | some x => rfl
  | none => exact h

/-- Rounding changes a number unless it is one of the floats. -/
theorem exact_roundedNumber_iff {n : Number} (h : n.toFloat? ≠ none) :
    exactNumber n = exactNumber (roundedNumber n) ↔ n.IsFloat := by
  obtain ⟨x, hx⟩ := Option.ne_none_iff_exists'.mp h
  rw [← Number.value_toFloat?_iff hx, roundedNumber, hx, exactNumber, exactNumber, Number.float.injEq]
  exact eq_comm

theorem readNumber_toJson {n : Number} (h : n.toFloat? ≠ none) : readNumber n.toJson = .ok (roundedNumber n) := by
  cases n with
  | float x => rfl
  | int i =>
    obtain ⟨x, hx⟩ := Option.ne_none_iff_exists'.mp h
    rw [Number.toJson, readNumber, roundedNumber, hx]

theorem readOptional_number {o : Option Number} (h : ∀ n ∈ o, n.toFloat? ≠ none) :
    readOptional readNumber (writeOptional Number.toJson o) = .ok (o.map roundedNumber) := by
  cases o with
  | none => rfl
  | some n =>
    have hnull : n.toJson ≠ .null := by cases n <;> simp [Number.toJson]
    rw [writeOptional, Persistence.readOptional_present _ _ hnull, readNumber_toJson (h n rfl)]
    rfl

theorem exact_map_roundedNumber_iff {o : Option Number} (h : ∀ n ∈ o, n.toFloat? ≠ none) :
    o.map exactNumber = (o.map roundedNumber).map exactNumber ↔ ∀ n ∈ o, n.IsFloat := by
  cases o with
  | none => simp
  | some n =>
    rw [Option.map_some, Option.map_some, Option.map_some, Option.some.injEq,
      exact_roundedNumber_iff (h n rfl)]
    simp

/-- A number that is checked is not beyond all floats. -/
theorem toFloat?_of_checkFloat {refused : ℚ → Bool} {n : Number} {name text : String}
    (h : checkFloat refused n name text = .ok ()) : n.toFloat? ≠ none := by
  intro hn
  rw [checkFloat, hn] at h
  cases h

theorem checkFloat_rounded (refused : ℚ → Bool) (n : Number) (name text : String) :
    checkFloat refused (roundedNumber n) name text = checkFloat refused n name text := by
  rw [checkFloat, toFloat?_roundedNumber, ← checkFloat]

/-! ## Requests are read back -/

section Constraints

def ConstraintsFields.mapNumbers (g : Number → Number) (f : ConstraintsFields) : ConstraintsFields :=
  { f with maxDurationSeconds := f.maxDurationSeconds.map g, maxCost := f.maxCost.map g }

theorem postInit_mapNumbers (f : ConstraintsFields) : (f.mapNumbers roundedNumber).postInit = f.postInit := by
  have hduration : checkOptionalPositiveFloat (f.maxDurationSeconds.map roundedNumber) =
      checkOptionalPositiveFloat f.maxDurationSeconds := by
    funext name
    cases f.maxDurationSeconds with
    | none => rfl
    | some n => exact checkFloat_rounded _ n _ _
  have hcost : checkOptionalNonNegativeFloat (f.maxCost.map roundedNumber) =
      checkOptionalNonNegativeFloat f.maxCost := by
    funext name
    cases f.maxCost with
    | none => rfl
    | some n => exact checkFloat_rounded _ n _ _
  simp only [ConstraintsFields.postInit, ConstraintsFields.mapNumbers, hduration, hcost]

def AgentTaskConstraints.rounded (c : AgentTaskConstraints) : AgentTaskConstraints where
  toConstraintsFields := c.mapNumbers roundedNumber
  checked := (postInit_mapNumbers c.toConstraintsFields).trans c.checked

/-- `==`: of numbers, what they are counts. -/
def AgentTaskConstraints.Same (a b : AgentTaskConstraints) : Prop :=
  a.mapNumbers exactNumber = b.mapNumbers exactNumber

variable (c : AgentTaskConstraints)

theorem AgentTaskConstraints.numbers_toFloat? : (∀ n ∈ c.maxDurationSeconds, n.toFloat? ≠ none) ∧
    ∀ n ∈ c.maxCost, n.toFloat? ≠ none := by
  have h := c.checked
  unfold ConstraintsFields.postInit at h
  obtain ⟨⟨⟩, -, h⟩ := Except.bind_eq_ok.mp h
  obtain ⟨⟨⟩, -, h⟩ := Except.bind_eq_ok.mp h
  obtain ⟨⟨⟩, hduration, h⟩ := Except.bind_eq_ok.mp h
  obtain ⟨⟨⟩, hcost, -⟩ := Except.bind_eq_ok.mp h
  constructor
  · intro n hn
    rw [Option.mem_def.mp hn] at hduration
    exact toFloat?_of_checkFloat hduration
  · intro n hn
    rw [Option.mem_def.mp hn] at hcost
    exact toFloat?_of_checkFloat hcost

theorem readConstraints_payload :
    readConstraints (constraintsPayload c) = .ok (c.mapNumbers roundedNumber) := by
  obtain ⟨hduration, hcost⟩ := c.numbers_toFloat?
  simp [readConstraints, constraintsPayload, fieldD, Json.field?, List.lookup, readOptional_number hduration,
    readOptional_number hcost, ConstraintsFields.mapNumbers, pure, Except.pure]

/-- The constraints are read back as they were if their numbers are floats. -/
theorem AgentTaskConstraints.same_rounded_iff : c.Same c.rounded ↔
    (∀ n ∈ c.maxDurationSeconds, n.IsFloat) ∧ ∀ n ∈ c.maxCost, n.IsFloat := by
  obtain ⟨hduration, hcost⟩ := c.numbers_toFloat?
  rw [← exact_map_roundedNumber_iff hduration, ← exact_map_roundedNumber_iff hcost]
  simp only [AgentTaskConstraints.Same, ConstraintsFields.mapNumbers, AgentTaskConstraints.rounded,
    ConstraintsFields.mk.injEq, true_and, and_true]

end Constraints

section Requests

variable (suffix : String → String) (r : AgentTaskRequest)

theorem AgentTaskRequest.ext_fields {a b : AgentTaskRequest} (h : a.toRequestFields = b.toRequestFields) :
    a = b := by
  cases a
  cases b
  cases h
  rfl

def AgentTaskRequest.rounded : AgentTaskRequest where
  toRequestFields := { r.toRequestFields with constraints := r.constraints.rounded }
  checked := r.checked
  id_filled := r.id_filled

/-- `==` of requests. -/
def AgentTaskRequest.Same (a b : AgentTaskRequest) : Prop :=
  a.constraints.Same b.constraints ∧ { a.toRequestFields with constraints := b.constraints } = b.toRequestFields

theorem readRequest_payload : readRequest (.obj (agentTaskRequestPayload r)) =
    .ok ⟨r.goal, r.expectedOutput.type, r.expectedOutput.schema, r.input,
      r.constraints.mapNumbers roundedNumber, r.apiVersion, r.taskId, r.parentTaskId, r.parentSessionId,
      r.parentGoalId, r.parentKernelTaskId, r.delegationDepth⟩ := by
  simp [readRequest, agentTaskRequestPayload, field, fieldD, Json.field?, List.lookup,
    readConstraints_payload, pure, Except.pure]

theorem AgentTaskRequest.decode_payload :
    decodeAgentTaskRequest suffix (agentTaskRequestPayload r) = .ok r.rounded := by
  have hconstraints : AgentTaskConstraints.make (r.constraints.mapNumbers roundedNumber) =
      .ok r.constraints.rounded := construct_ok r.constraints.rounded.checked
  have houtput : AgentExpectedOutput.make r.expectedOutput.type r.expectedOutput.schema =
      .ok r.expectedOutput := dif_pos r.expectedOutput.type_filled
  have hid : requestId suffix r.rounded.toRequestFields = r.taskId := if_neg (by simp [r.id_filled, rounded])
  unfold decodeAgentTaskRequest
  rw [readRequest_payload, parsed]
  simp only [Except.ok_bind, hconstraints, houtput]
  refine (construct_ok r.rounded.checked).trans (congrArg Except.ok (AgentTaskRequest.ext_fields ?_))
  change { r.rounded.toRequestFields with taskId := requestId suffix r.rounded.toRequestFields } =
    r.rounded.toRequestFields
  rw [hid]
  rfl

end Requests

/-! ## Results are read back -/

section Results

def UsageFields.mapNumbers (g : Number → Number) (f : UsageFields) : UsageFields :=
  { f with estimatedCost := g f.estimatedCost }

def AgentTaskUsage.rounded (u : AgentTaskUsage) : AgentTaskUsage where
  toUsageFields := u.mapNumbers roundedNumber
  checked := by
    have h := u.checked
    simp only [UsageFields.postInit, UsageFields.mapNumbers, checkNonNegativeFloat, checkFloat_rounded] at h ⊢
    exact h

/-- `==`: of numbers, what they are counts. -/
def AgentTaskUsage.Same (a b : AgentTaskUsage) : Prop :=
  a.mapNumbers exactNumber = b.mapNumbers exactNumber

theorem AgentTaskUsage.cost_toFloat? (u : AgentTaskUsage) : u.estimatedCost.toFloat? ≠ none := by
  have h := u.checked
  unfold UsageFields.postInit at h
  obtain ⟨⟨⟩, -, h⟩ := Except.bind_eq_ok.mp h
  obtain ⟨⟨⟩, -, h⟩ := Except.bind_eq_ok.mp h
  obtain ⟨⟨⟩, -, h⟩ := Except.bind_eq_ok.mp h
  obtain ⟨⟨⟩, hcost, -⟩ := Except.bind_eq_ok.mp h
  exact toFloat?_of_checkFloat hcost

theorem AgentTaskUsage.same_rounded_iff (u : AgentTaskUsage) : u.Same u.rounded ↔ u.estimatedCost.IsFloat := by
  rw [← exact_roundedNumber_iff u.cost_toFloat?]
  simp only [AgentTaskUsage.Same, UsageFields.mapNumbers, AgentTaskUsage.rounded, UsageFields.mk.injEq, true_and,
    and_true]

theorem readUsage_payload (u : AgentTaskUsage) :
    readUsage (usagePayload u) = .ok ⟨u.mapNumbers roundedNumber, some u.totalTokens⟩ := by
  have htotal : readOptional readInt (.int u.totalTokens) = .ok (some u.totalTokens) := rfl
  simp [readUsage, usagePayload, fieldD, Json.field?, List.lookup, readNumber_toJson u.cost_toFloat?, htotal,
    UsageFields.mapNumbers, pure, Except.pure]

theorem agentTaskUsage_payload (u : AgentTaskUsage) :
    agentTaskUsage ⟨u.mapNumbers roundedNumber, some u.totalTokens⟩ = .ok u.rounded := by
  have hmake : AgentTaskUsage.make (u.mapNumbers roundedNumber) = .ok u.rounded := construct_ok u.rounded.checked
  unfold agentTaskUsage
  rw [hmake]
  simp [UsageFields.totalTokens, AgentTaskUsage.rounded, UsageFields.mapNumbers]

variable (r : AgentTaskResult)

def AgentTaskResult.rounded : AgentTaskResult where
  toResultFields := { r.toResultFields with usage := r.usage.rounded }
  checked := r.checked

/-- `==` of results. -/
def AgentTaskResult.Same (a b : AgentTaskResult) : Prop :=
  a.usage.Same b.usage ∧ { a.toResultFields with usage := b.usage } = b.toResultFields

theorem decodeAgentTaskResult_payload : decodeAgentTaskResult (agentTaskResultPayload r) = .ok r.rounded := by
  have hread : readResult (.obj (agentTaskResultPayload r)) =
      .ok ⟨r.taskId, r.status, r.result, r.evidenceIds, r.reason, r.sessionId, r.errorCode, r.apiVersion,
        ⟨r.usage.mapNumbers roundedNumber, some r.usage.totalTokens⟩⟩ := by
    simp [readResult, agentTaskResultPayload, field, fieldD, Json.field?, List.lookup, readUsage_payload, pure,
      Except.pure]
  unfold decodeAgentTaskResult
  rw [hread, parsed]
  simp only [Except.ok_bind, agentTaskUsage_payload]
  exact construct_ok r.rounded.checked

theorem AgentTaskResult.same_rounded_iff : r.Same r.rounded ↔ r.usage.estimatedCost.IsFloat := by
  rw [← r.usage.same_rounded_iff]
  exact ⟨fun h => h.1, fun h => ⟨h, rfl⟩⟩

end Results

end UniversalAgent.MultiAgent.Wire
