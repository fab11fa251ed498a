import UniversalAgent.Core.Models

/-!
# Evaluation — Replay

Execution replay (`evaluation/replay.py`): what a session did, rebuilt from its events in one
forward pass. Nothing is executed again. The pass goes over the views of the events that the
runtime API hands out (`runtime/api.py`).

What the pass says about the end of the session is the outcome of the last event that settles it.
-/

namespace UniversalAgent.Evaluation

open UniversalAgent.Core

/-! ## Events as the API shows them -/

structure RuntimeEventView where
  eventId : EventId
  type : String
  sessionId : SessionId
  goalId : GoalId
  taskId : TaskId
  actionId : Option ActionId
  data : JsonMapping
  occurredAt : Instant
deriving DecidableEq

/-- `event_view`. The copy it takes of the data is the data. -/
def eventView (event : RuntimeEvent) : RuntimeEventView where
  eventId := event.id
  type := event.type
  sessionId := event.sessionId
  goalId := event.goalId
  taskId := event.taskId
  actionId := event.actionId
  data := event.data
  occurredAt := event.occurredAt

def stringData (event : RuntimeEventView) (key : String) : Option String :=
  match event.data.lookup key with
  | some (.str s) => some s
  | _ => none

/-- `_optional_error_code`: a text that is no error code is dropped. -/
def optionalErrorCode (value : Option String) : Option ErrorCode := value.bind StrEnum.ofValue?

/-- `_string_data(event, key) or current`. -/
def dataOr (event : RuntimeEventView) (key : String) (current : Option String) : Option String :=
  match stringData event key with
  | some s => if s = "" then current else some s
  | none => current

def appendUnique (values : List String) (value : String) : List String :=
  if value ∈ values then values else values ++ [value]

def appendUnique? (values : List String) : Option String → List String
  | some value => appendUnique values value
  | none => values

/-! ## What is rebuilt -/

structure ReplayedDecision where
  eventId : EventId
  taskId : TaskId
  decisionType : String
  reason : String
deriving DecidableEq

/-- `ReplayedAction`, and the builder of one, which has the same fields. -/
structure ReplayedAction where
  actionId : ActionId
  eventTypes : List String := []
  capability : Option String := none
  toolName : Option String := none
  domainName : Option String := none
  domainVersion : Option String := none
  policyEffect : Option String := none
  policyName : Option String := none
  status : Option String := none
  errorCode : Option String := none
  resourceKey : Option String := none
  resourceVersion : Option String := none
  observationIds : List String := []
  evidenceIds : List String := []
  evidenceClaims : List String := []
  evaluationStatus : Option String := none
  evaluatorName : Option String := none
  recoveryStrategy : Option String := none
  recoveryRule : Option String := none
deriving DecidableEq

structure ExecutionReplay where
  sessionId : SessionId
  goalId : GoalId
  taskIds : List TaskId
  eventCount : Nat
  eventTypes : List String
  decisions : List ReplayedDecision
  actions : List ReplayedAction
  observationIds : List String
  evidenceIds : List String
  terminalStatus : Option ExecutionStatus
  terminalErrorCode : Option ErrorCode
  terminalReason : Option String
deriving DecidableEq

structure ReplayState where
  taskIds : List TaskId := []
  observationIds : List String := []
  evidenceIds : List String := []
  decisions : List ReplayedDecision := []
  actions : List (ActionId × ReplayedAction) := []
  terminalStatus : Option ExecutionStatus := none
  terminalErrorCode : Option ErrorCode := none
  terminalReason : Option String := none

def applyActionEvent (action : ReplayedAction) (event : RuntimeEventView) : ReplayedAction :=
  let action := { action with eventTypes := action.eventTypes ++ [event.type] }
  if event.type = "CapabilityResolved" ∨ event.type = "ActionStarted" then
    { action with
      capability := dataOr event "capability" action.capability
      toolName := dataOr event "tool_name" action.toolName
      domainName := dataOr event "domain" action.domainName
      domainVersion := dataOr event "domain_version" action.domainVersion
      resourceKey := dataOr event "resource_key" action.resourceKey
      resourceVersion := dataOr event "resource_version" action.resourceVersion }
  else if event.type = "PolicyChecked" then
    { action with
      policyEffect := dataOr event "effect" action.policyEffect
      policyName := dataOr event "policy" action.policyName
      capability := dataOr event "capability" action.capability
      toolName := dataOr event "tool_name" action.toolName }
  else if event.type = "ActionCompleted" then
    { action with
      status := dataOr event "status" action.status
      errorCode := dataOr event "error_code" action.errorCode }
  else if event.type = "ObservationReceived" then
    { action with
      observationIds := appendUnique? action.observationIds (stringData event "observation_id")
      status := dataOr event "status" action.status }
  else if event.type = "EvidenceRecorded" then
    { action with
      evidenceIds := appendUnique? action.evidenceIds (stringData event "evidence_id")
      evidenceClaims := appendUnique? action.evidenceClaims (stringData event "claim") }
  else if event.type = "EvaluationCompleted" then
    { action with
      evaluationStatus := dataOr event "status" action.evaluationStatus
      evaluatorName := dataOr event "evaluator" action.evaluatorName }
  else if event.type = "RecoveryPlanned" ∨ event.type = "RecoveryExhausted" then
    { action with
      recoveryStrategy := dataOr event "strategy" action.recoveryStrategy
      recoveryRule := dataOr event "rule" action.recoveryRule }
  else if event.type = "ResourceLockAcquired" ∨ event.type = "ResourceLockReleased" ∨
      event.type = "ResourceConflictDetected" then
    { action with
      resourceKey := dataOr event "resource_key" action.resourceKey
      resourceVersion := dataOr event "resource_version" action.resourceVersion
      errorCode :=
        if event.type = "ResourceConflictDetected" then some (StrEnum.value ErrorCode.resourceConflict)
        else action.errorCode }
  else action

def recordAction (actions : List (ActionId × ReplayedAction)) (event : RuntimeEventView) :
    List (ActionId × ReplayedAction) :=
  match event.actionId with
  | none => actions
  | some id =>
    dictSet actions id (applyActionEvent ((actions.lookup id).getD { actionId := id }) event)

/-- The branches of the pass on the type of an event that ends the session or suspends it. -/
def recordTerminal (state : ReplayState) (event : RuntimeEventView) : ReplayState :=
  if event.type = "GoalCompleted" then
    { state with
      terminalStatus := some .completed
      terminalErrorCode := none
      terminalReason := stringData event "reason" }
  else if event.type = "GoalFailed" then
    { state with
      terminalStatus := some .failed
      terminalErrorCode := optionalErrorCode (stringData event "error_code")
      terminalReason := stringData event "reason" }
  else if event.type = "GoalCancelled" then
    { state with
      terminalStatus := some .cancelled
      terminalErrorCode := none
      terminalReason := stringData event "reason" }
  else if event.type = "GoalWaiting" ∨ event.type = "ConfirmationRequired" then
    { state with
      terminalStatus := some .waiting
      terminalErrorCode := none
      terminalReason := stringData event "reason" }
  else state

/-- The body of the loop of `replay_execution`. -/
def replayEvent (state : ReplayState) (event : RuntimeEventView) : ReplayState :=
  let taskIds := appendUnique state.taskIds event.taskId
  let taskIds := appendUnique? taskIds (stringData event "created_task_id")
  let taskIds := appendUnique? taskIds (stringData event "started_task_id")
  let decisions :=
    if event.type = "DecisionGenerated" then
      state.decisions ++ [{
        eventId := event.eventId
        taskId := event.taskId
        decisionType := (stringData event "decision_type").getD ""
        reason := (stringData event "reason").getD "" }]
    else state.decisions
  recordTerminal
    { state with
      taskIds := taskIds
      decisions := decisions
      actions := recordAction state.actions event
      observationIds := appendUnique? state.observationIds (stringData event "observation_id")
      evidenceIds := appendUnique? state.evidenceIds (stringData event "evidence_id") }
    event

def replayExecution (events : List RuntimeEventView) : Except String ExecutionReplay :=
  match events with
  | [] => .error "execution replay requires at least one event"
  | first :: rest =>
    if rest.any fun event => event.sessionId ≠ first.sessionId then
      .error "execution replay requires events from exactly one session"
    else
      let state := (first :: rest).foldl replayEvent {}
      .ok {
        sessionId := first.sessionId
        goalId := first.goalId
        taskIds := state.taskIds
        eventCount := (first :: rest).length
        eventTypes := (first :: rest).map RuntimeEventView.type
        decisions := state.decisions
        actions := state.actions.map Prod.snd
        observationIds := state.observationIds
        evidenceIds := state.evidenceIds
        terminalStatus := state.terminalStatus
        terminalErrorCode := state.terminalErrorCode
        terminalReason := state.terminalReason }

/-! ## How a session ended -/

structure TerminalOutcome where
  status : Option ExecutionStatus
  errorCode : Option ErrorCode
  reason : Option String
deriving DecidableEq

def TerminalOutcome.unsettled : TerminalOutcome := ⟨none, none, none⟩

/-- What one event says, if it is one that ends the session or suspends it. -/
def outcome? (event : RuntimeEventView) : Option TerminalOutcome :=
  if event.type = "GoalCompleted" then some ⟨some .completed, none, stringData event "reason"⟩
  else if event.type = "GoalFailed" then
    some ⟨some .failed, optionalErrorCode (stringData event "error_code"),
      stringData event "reason"⟩
  else if event.type = "GoalCancelled" then
    some ⟨some .cancelled, none, stringData event "reason"⟩
  else if event.type = "GoalWaiting" ∨ event.type = "ConfirmationRequired" then
    some ⟨some .waiting, none, stringData event "reason"⟩
  else none

def lastOutcome (events : List RuntimeEventView) : TerminalOutcome :=
  (events.reverse.findSome? outcome?).getD .unsettled

def ReplayState.outcome (state : ReplayState) : TerminalOutcome :=
  ⟨state.terminalStatus, state.terminalErrorCode, state.terminalReason⟩

def ExecutionReplay.outcome (replay : ExecutionReplay) : TerminalOutcome :=
  ⟨replay.terminalStatus, replay.terminalErrorCode, replay.terminalReason⟩

theorem recordTerminal_outcome (state : ReplayState) (event : RuntimeEventView) :
    (recordTerminal state event).outcome = (outcome? event).getD state.outcome := by
  unfold recordTerminal outcome?
  split_ifs <;> rfl

theorem replayEvent_outcome (state : ReplayState) (event : RuntimeEventView) :
    (replayEvent state event).outcome = (outcome? event).getD state.outcome := by
  rw [replayEvent, recordTerminal_outcome]
  rfl

theorem lastOutcome_snoc (events : List RuntimeEventView) (event : RuntimeEventView) :
    lastOutcome (events ++ [event]) = (outcome? event).getD (lastOutcome events) := by
  simp only [lastOutcome, List.reverse_append, List.reverse_singleton, List.singleton_append,
    List.findSome?_cons]
  cases outcome? event <;> rfl

/-- The last event that settles the session has its outcome. -/
theorem lastOutcome_of_split {before after : List RuntimeEventView} {event : RuntimeEventView}
    {o : TerminalOutcome} (ho : outcome? event = some o) (hafter : ∀ e ∈ after, outcome? e = none) :
    lastOutcome (before ++ event :: after) = o := by
  have hnone : after.reverse.findSome? outcome? = none :=
    List.findSome?_eq_none_iff.mpr fun e he => hafter e (List.mem_reverse.mp he)
  simp [lastOutcome, List.findSome?_append, hnone, ho]

/-- Where an event settles the session, there is a last one that does. -/
theorem exists_last_outcome {events : List RuntimeEventView}
    (h : ∃ event ∈ events, outcome? event ≠ none) :
    ∃ before event after o, events = before ++ event :: after ∧ outcome? event = some o ∧
      ∀ e ∈ after, outcome? e = none := by
  induction events using List.reverseRecOn with
  | nil =>
    obtain ⟨event, he, -⟩ := h
    cases he
  | append_singleton events last ih =>
    cases hlast : outcome? last with
    | some o => exact ⟨events, last, [], o, rfl, hlast, fun e he => by cases he⟩
    | none =>
      obtain ⟨event, he, hsettles⟩ := h
      rcases List.mem_append.mp he with he | he
      · obtain ⟨before, found, after, o, rfl, ho, hafter⟩ := ih ⟨event, he, hsettles⟩
        refine ⟨before, found, after ++ [last], o, by simp, ho, fun e he => ?_⟩
        rcases List.mem_append.mp he with he | he
        · exact hafter e he
        · rw [List.mem_singleton.mp he, hlast]
      · exact absurd hlast (List.mem_singleton.mp he ▸ hsettles)

/-- The pass ends with the outcome of the last event that has one. -/
theorem foldl_replayEvent_outcome (events : List RuntimeEventView) :
    (events.foldl replayEvent {}).outcome = lastOutcome events := by
  induction events using List.reverseRecOn with
  | nil => rfl
  | append_singleton events event ih =>
    rw [List.foldl_append, List.foldl_cons, List.foldl_nil, replayEvent_outcome, ih,
      lastOutcome_snoc]

def OfOneSession (sessionId : SessionId) (events : List RuntimeEventView) : Prop :=
  events ≠ [] ∧ ∀ event ∈ events, event.sessionId = sessionId

/-- The events of one session can be replayed, and their replay has their outcome. -/
theorem replayExecution_outcome {sessionId : SessionId} {events : List RuntimeEventView}
    (h : OfOneSession sessionId events) :
    ∃ replay, replayExecution events = .ok replay ∧ replay.outcome = lastOutcome events := by
  obtain ⟨hne, hsame⟩ := h
  cases events with
  | nil => exact absurd rfl hne
  | cons first rest =>
    have hany : (rest.any fun event => event.sessionId ≠ first.sessionId) = false := by
      rw [List.any_eq_false]
      intro event he
      have hfirst : first.sessionId = sessionId := hsame first List.mem_cons_self
      have hevent : event.sessionId = sessionId := hsame event (List.mem_cons_of_mem _ he)
      simp [hfirst, hevent]
    rw [replayExecution, hany]
    exact ⟨_, rfl, foldl_replayEvent_outcome (first :: rest)⟩

end UniversalAgent.Evaluation
