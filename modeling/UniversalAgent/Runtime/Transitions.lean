import UniversalAgent.Runtime.Session

/-!
# Runtime — Transitions

The state changes that end a call into the runtime (`runtime/transitions.py`). A transition
changes the session and says what is to be reported; it neither stores nor publishes.
-/

namespace UniversalAgent.Runtime

open UniversalAgent.Core UniversalAgent.Tasks

structure ExecutionResult where
  status : ExecutionStatus
  sessionId : SessionId
  goalId : GoalId
  taskId : TaskId
  iterations : Int
  reason : String
  errorCode : Option ErrorCode
  userMessage : Option String
deriving DecidableEq

structure Transition where
  result : ExecutionResult
  eventType : String
  eventData : JsonMapping
  actionId : Option ActionId
deriving DecidableEq

def buildResult (state : AgentState) (status : ExecutionStatus) (reason : String)
    (errorCode : Option ErrorCode) (userMessage : Option String) : ExecutionResult where
  status := status
  sessionId := state.sessionId
  goalId := state.goal.id
  taskId := state.currentTask.id
  iterations := state.iteration
  reason := reason
  errorCode := errorCode
  userMessage := userMessage

namespace SessionRuntimeState

/-- `state.goal.status = status`. -/
def setGoalStatus (s : SessionRuntimeState) (status : GoalStatus) : SessionRuntimeState :=
  { s with state := { s.state with goal := { s.state.goal with status := status } } }

@[simp] theorem setGoalStatus_tasks (s : SessionRuntimeState) (status : GoalStatus) :
    (s.setGoalStatus status).tasks = s.tasks := rfl

@[simp] theorem markCurrentTask_tasks (s : SessionRuntimeState) (status : TaskStatus) :
    (s.markCurrentTask status).tasks = s.tasks.markCurrent status := rfl

@[simp] theorem syncCurrentTask_tasks (s : SessionRuntimeState) :
    s.syncCurrentTask.tasks = s.tasks := rfl

end SessionRuntimeState

def pause (session : SessionRuntimeState) (reason : String) (userMessage : Option String)
    (eventType : String) (actionId : Option ActionId) : SessionRuntimeState × Transition :=
  let s := (session.setGoalStatus .waiting).markCurrentTask .waiting
  ({ s with state := { s.state with terminationReason := some reason } },
    ⟨buildResult s.state .waiting reason none userMessage, eventType, [("reason", .str reason)],
      actionId⟩)

def fail (session : SessionRuntimeState) (errorCode : ErrorCode) (reason : String) :
    SessionRuntimeState × Transition :=
  let s := (session.setGoalStatus .failed).markCurrentTask .failed
  ({ s with state := { s.state with terminationReason := some reason, errorCode := some errorCode } },
    ⟨buildResult s.state .failed reason (some errorCode) none, "GoalFailed",
      [("error_code", .str (StrEnum.value errorCode)), ("reason", .str reason)], none⟩)

def cancel (session : SessionRuntimeState) (reason : String) : SessionRuntimeState × Transition :=
  let s := session.setGoalStatus .cancelled
  let s : SessionRuntimeState :=
    { s with
      state :=
        { s.state with pendingAction := none, errorCode := none, terminationReason := some reason }
      tasks := s.tasks.setStatuses fun t => if TaskManager.isSettled t.status then t.status else .cancelled }
  let s := s.syncCurrentTask
  (s, ⟨buildResult s.state .cancelled reason none none, "GoalCancelled",
    [("reason", .str reason)], none⟩)

/-- What `finish` asks of the evaluation and of the tasks of a session that is no continuation. -/
def finishAuthorised (tasks : TaskManager) (evaluation : Option EvaluationResult) : Bool :=
  !tasks.hasUnfinished && tasks.current.status = .completed &&
    evaluation.any fun e => e.status = .completed && e.taskCompleted && e.goalCompleted

/-- `finish`. The state's current task is the manager's: one object in the source. -/
def finish (session : SessionRuntimeState) : SessionRuntimeState × Transition :=
  if session.state.isContinuation then
    let s := session.completeCurrentTask.setGoalStatus .completed
    let reason := "session continued; model finished the turn"
    ({ s with state := { s.state with terminationReason := some reason } },
      ⟨buildResult s.state .completed reason none none, "GoalCompleted", [], none⟩)
  else
    match session.state.latestEvaluation, finishAuthorised session.tasks
        session.state.latestEvaluation with
    | some evaluation, true =>
      let s := session.setGoalStatus .completed
      ({ s with state := { s.state with terminationReason := some evaluation.reason } },
        ⟨buildResult s.state .completed evaluation.reason none none, "GoalCompleted", [], none⟩)
    | _, _ =>
      fail session .invalidState
        "finish rejected because evaluator has not completed the task and goal"

def finishAccepted (session : SessionRuntimeState) : Bool :=
  (finish session).2.result.status = .completed

theorem finishAccepted_eq (session : SessionRuntimeState) :
    finishAccepted session = (session.state.isContinuation ||
      finishAuthorised session.tasks session.state.latestEvaluation) := by
  unfold finishAccepted finish
  split
  · next h => simp [h, buildResult]
  · next h =>
      cases he : session.state.latestEvaluation with
      | none => simp [h, fail, buildResult, finishAuthorised]
      | some e =>
        cases ha : finishAuthorised session.tasks (some e) with
        | true => simp [buildResult]
        | false => simp [h, fail, buildResult]

end UniversalAgent.Runtime
