import UniversalAgent.Foundation.Table
import UniversalAgent.MultiAgent.Contracts

/-!
# MultiAgent — DelegationState

The snapshot of an orchestrator's limits and its codec (`multi_agent/delegation_state.py`): for each
task, how many children it was allowed and how deep it was delegated. No blank and no repeated task
id is a field of the structures, as their constructors check it. A payload that cannot be decoded
raises; the texts are those of the validation library.
-/

namespace UniversalAgent.MultiAgent

open UniversalAgent.Core UniversalAgent.Foundation

structure AgentDelegationSpec where
  request : AgentTaskRequest
  agentId : Option AgentId
  dependsOn : List AgentTaskId
  not_self : request.taskId ∉ dependsOn
deriving DecidableEq

def AgentDelegationSpec.taskId (spec : AgentDelegationSpec) : AgentTaskId := spec.request.taskId

@[ext]
structure AgentDelegationTaskState where
  taskId : AgentTaskId
  childCount : Nat
  delegationDepth : Option Nat
  id_filled : Text.isBlank taskId = false

instance : DecidableEq AgentDelegationTaskState := fun _ _ =>
  decidable_of_iff _ AgentDelegationTaskState.ext_iff.symm

structure AgentDelegationState where
  tasks : Table AgentDelegationTaskState.taskId

/-! ## Codec -/

def AgentDelegationTaskState.payload (t : AgentDelegationTaskState) : Json :=
  .obj [("task_id", .str t.taskId), ("child_count", .int t.childCount),
    ("delegation_depth", match t.delegationDepth with
      | some depth => .int depth
      | none => .null)]

def agentDelegationStatePayload (s : AgentDelegationState) : JsonMapping :=
  [("tasks", .arr (s.tasks.rows.map AgentDelegationTaskState.payload))]

/-- An integer that is not negative, `none` where there is another value. -/
def nonNegative? : Json → Option Nat
  | .int (.ofNat n) => some n
  | _ => none

def decodeChildCount (task : Json) : Option Nat :=
  match task.field? "child_count" with
  | none => some 0
  | some value => nonNegative? value

def decodeDelegationDepth (task : Json) : Option (Option Nat) :=
  match task.field? "delegation_depth" with
  | none => some none
  | some .null => some none
  | some value => (nonNegative? value).map some

def decodeTaskState (task : Json) : Option AgentDelegationTaskState :=
  match task.field? "task_id", decodeChildCount task, decodeDelegationDepth task with
  | some (.str taskId), some count, some depth =>
    if h : Text.isBlank taskId = false then some ⟨taskId, count, depth, h⟩ else none
  | _, _, _ => none

def decodeAgentDelegationState (payload : JsonMapping) : Option AgentDelegationState :=
  match payload.lookup "tasks" with
  | none => some ⟨.empty⟩
  | some (.arr items) =>
    match items.mapM decodeTaskState with
    | none => none
    | some tasks =>
      if h : (tasks.map AgentDelegationTaskState.taskId).Nodup then some ⟨⟨tasks, h⟩⟩ else none
  | some _ => none

theorem decodeTaskState_payload (t : AgentDelegationTaskState) :
    decodeTaskState t.payload = some t := by
  obtain ⟨taskId, count, depth, hfilled⟩ := t
  have hdepth : decodeDelegationDepth
      (AgentDelegationTaskState.mk taskId count depth hfilled).payload = some depth := by
    cases depth <;> rfl
  have hid : (AgentDelegationTaskState.mk taskId count depth hfilled).payload.field? "task_id"
      = some (.str taskId) := rfl
  have hcount : decodeChildCount (AgentDelegationTaskState.mk taskId count depth hfilled).payload
      = some count := rfl
  rw [decodeTaskState, hid, hcount, hdepth]
  simp only [hfilled, dite_true]

/-- **Round trip.** A snapshot is read back from its payload. -/
theorem decodeAgentDelegationState_payload (s : AgentDelegationState) :
    decodeAgentDelegationState (agentDelegationStatePayload s) = some s := by
  have hitems : (s.tasks.rows.map AgentDelegationTaskState.payload).mapM decodeTaskState
      = some s.tasks.rows := by
    rw [List.mapM_map]
    induction s.tasks.rows with
    | nil => rfl
    | cons t ts ih => simp [List.mapM_cons, decodeTaskState_payload, ih]
  have htasks : (agentDelegationStatePayload s).lookup "tasks"
      = some (.arr (s.tasks.rows.map AgentDelegationTaskState.payload)) := rfl
  rw [decodeAgentDelegationState, htasks]
  simp only [hitems, s.tasks.nodup, dite_true]

end UniversalAgent.MultiAgent
