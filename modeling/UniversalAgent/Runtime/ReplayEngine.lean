import UniversalAgent.Persistence.RoundTrip
import UniversalAgent.Security.Redaction
import UniversalAgent.State.EventStore

/-!
# Runtime — Replay engine

Replaying a session from its journal (`runtime/replay.py`): the decisions are taken out of the
events, an adapter hands them to a new run one after the other, and a report compares the two runs.
The run is whatever the runtime makes of the decisions it is given: it asks for one after another
until it settles.

Decisions come back from the journal as they were written. The report is another matter: it never
says where the runs diverged.
-/

namespace UniversalAgent.Core

/-! ## Decisions -/

instance : StrEnum DecisionType where
  value
    | .execute => "execute" | .wait => "wait" | .askUser => "ask_user" | .finish => "finish"
  members := [.execute, .wait, .askUser, .finish]
  mem_members a := by cases a <;> simp
  value_injective a b := by cases a <;> cases b <;> simp

structure Decision where
  type : DecisionType
  reason : String
  capability : Option String := none
  target : Option String := none
  arguments : JsonMapping := []
  expectedObservations : List String := []
  message : Option String := none
deriving DecidableEq

end UniversalAgent.Core

namespace UniversalAgent.Runtime

open UniversalAgent.Core UniversalAgent.Persistence UniversalAgent.Security UniversalAgent.State

/-! ## Writing decisions and reading them -/

section Journal

variable (W : WordClass) (lower : String → String)

/-- `redact_sensitive_mapping` of arguments, which are JSON. -/
def redactArguments (arguments : JsonMapping) : JsonMapping :=
  redactSensitiveMapping W lower redactedMark (PyValue.ofFields arguments)

def decisionEventData (d : Decision) : JsonMapping :=
  [("decision_type", .str (StrEnum.value d.type)),
    ("reason", .str d.reason),
    ("argument_names",
      .arr (((d.arguments.map Prod.fst).mergeSort fun a b => decide (a ≤ b)).map .str)),
    ("arguments", .obj (redactArguments W lower d.arguments)),
    ("expected_observations", .arr (d.expectedObservations.map .str))] ++
  (d.capability.map fun c => ("capability", Json.str c)).toList ++
  (d.target.map fun t => ("target", Json.str t)).toList ++
  (d.message.map fun m => ("message", Json.str m)).toList

end Journal

/-- `value if isinstance(value, str) else None`. -/
def textOf? : Option Json → Option String
  | some (.str s) => some s
  | _ => none

/-- The decision that an event of a generated decision carries: none where the type is not that of a
decision, which is a swallowed `ValueError`. -/
def decodeDecision? (event : RuntimeEvent) : Option Decision :=
  match (event.data.lookup "decision_type").getD (.str (StrEnum.value DecisionType.execute)) with
  | .str type =>
    (StrEnum.ofValue? type).map fun type =>
      { type := type
        reason := (textOf? (event.data.lookup "reason")).getD ""
        capability := textOf? (event.data.lookup "capability")
        target := textOf? (event.data.lookup "target")
        arguments :=
          match event.data.lookup "arguments" with
          | some (.obj fields) => fields
          | _ => []
        expectedObservations :=
          match event.data.lookup "expected_observations" with
          | some (.arr items) => items.filterMap fun item => textOf? (some item)
          | _ => []
        message := textOf? (event.data.lookup "message") }
  | _ => none

def extractDecisions (events : List RuntimeEvent) : List Decision :=
  events.filterMap fun event =>
    if event.type = "DecisionGenerated" then decodeDecision? event else none

/-! ## What the journal says of the end -/

def extractTerminalStatus (events : List RuntimeEvent) : ExecutionStatus :=
  (events.reverse.findSome? fun event =>
    if event.type = "GoalCompleted" then some ExecutionStatus.completed
    else if event.type = "GoalFailed" then some .failed
    else if event.type = "GoalCancelled" then some .cancelled
    else if event.type = "GoalWaiting" ∨ event.type = "ConfirmationRequired" then some .waiting
    else none).getD .waiting

def truthy : Json → Bool
  | .null => false
  | .bool b => b
  | .int i => decide (i ≠ 0)
  | .float x => decide (x ≠ .finite 0)
  | .str s => decide (s ≠ "")
  | .arr items => !items.isEmpty
  | .obj fields => !fields.isEmpty

/-- `ErrorCode(code)`, a `ValueError` being none. -/
def errorCodeOf? : Json → Option ErrorCode
  | .str s => StrEnum.ofValue? s
  | _ => none

def carriedCode? (event : RuntimeEvent) : Option Json :=
  if event.type = "GoalFailed" ∨ event.type = "GoalCancelled" then
    (event.data.lookup "error_code").filter truthy
  else none

def extractErrorCode (events : List RuntimeEvent) : Option ErrorCode :=
  (events.reverse.findSome? carriedCode?).bind errorCodeOf?

/-! ## The adapter and the run -/

structure SequentialReplayAdapter where
  decisions : List Decision
  decisionsUsed : Nat := 0

/-- What the adapter returns when the recorded decisions are used up. -/
def exhaustedDecision : Decision :=
  { type := .finish, reason := "replay exhausted recorded decisions" }

def SequentialReplayAdapter.decide (a : SequentialReplayAdapter) :
    Decision × SequentialReplayAdapter :=
  match a.decisions[a.decisionsUsed]? with
  | none => (exhaustedDecision, a)
  | some d => (d, { a with decisionsUsed := a.decisionsUsed + 1 })

inductive ReplayedRun where
  | settled (status : ExecutionStatus) (errorCode : Option ErrorCode)
  | decides (next : Decision → ReplayedRun)

namespace ReplayedRun

/-- The run with the decisions of an adapter: how it settles, and the adapter then. -/
def drive : ReplayedRun → SequentialReplayAdapter →
    (ExecutionStatus × Option ErrorCode) × SequentialReplayAdapter
  | .settled status errorCode, a => ((status, errorCode), a)
  | .decides next, a => (next a.decide.1).drive a.decide.2

def decisions : ReplayedRun → SequentialReplayAdapter → List Decision
  | .settled _ _, _ => []
  | .decides next, a => a.decide.1 :: (next a.decide.1).decisions a.decide.2

/-- Given the decisions in order the run asks for each of them, and for no more. -/
def EndsAfter : ReplayedRun → List Decision → Prop
  | .settled _ _, ds => ds = []
  | .decides _, [] => False
  | .decides next, d :: ds => (next d).EndsAfter ds

end ReplayedRun

/-! ## The engine -/

structure ReplayResult where
  sessionId : SessionId
  goalId : GoalId
  originalStatus : ExecutionStatus
  replayStatus : ExecutionStatus
  originalErrorCode : Option ErrorCode
  replayErrorCode : Option ErrorCode
  decisionsReplayed : Nat
  decisionsMatched : Nat
  divergedAt : Option Nat
  events : List String
deriving DecidableEq

section Engine

variable (iso : IsoFormat)

/-- `_latest_snapshot`: a record that cannot be decoded is skipped. -/
def latestSnapshot (events : List RuntimeEvent) : Option SessionSnapshot :=
  events.reverse.findSome? fun event =>
    if event.type ≠ sessionStateEvent then none
    else
      match event.data.lookup "snapshot" with
      | some (.obj fields) => (decodeSessionSnapshot iso (.obj fields)).toOption
      | _ => none

def successCriteria : Option Json → List SuccessCriterion
  | some (.arr items) =>
    items.filterMap fun item =>
      match item with
      | .obj fields =>
        match textOf? (fields.lookup "key") with
        | some key => if key = "" then none else some ⟨key, (fields.lookup "expected").getD .null⟩
        | none => none
      | _ => none
  | _ => []

def replayGoal (now : Instant) (goalCreated : RuntimeEvent) (snapshot : Option SessionSnapshot) :
    Goal :=
  let criteria := successCriteria (goalCreated.data.lookup "success_criteria")
  { description := (textOf? (goalCreated.data.lookup "description")).getD
      ((snapshot.map fun s => s.state.goal.description).getD "")
    successCriteria :=
      if criteria = [] then (snapshot.map fun s => s.state.goal.successCriteria).getD [] else criteria
    id := goalCreated.goalId
    status := .pending
    createdAt := now }

def replayTask (now : Instant) (taskCreated : Option RuntimeEvent)
    (snapshot : Option SessionSnapshot) : Task :=
  match taskCreated with
  | some event =>
    { description := (textOf? (event.data.lookup "description")).getD "Replay task"
      requiredCriteria :=
        match event.data.lookup "required_criteria" with
        | some (.arr items) => items.filterMap fun item => textOf? (some item)
        | _ => []
      id := event.taskId
      status := .pending
      createdAt := now }
  | none =>
    match snapshot with
    | some s =>
      { description := s.state.currentTask.description
        requiredCriteria := s.state.currentTask.requiredCriteria
        id := s.state.currentTask.id
        status := .pending
        createdAt := now }
    | none =>
      { description := "Replay task", requiredCriteria := [], id := "replay-task",
        status := .pending, createdAt := now }

/-- The goal and the task that the new run is for; none without an event that created the goal. -/
def replayInput (now : Instant) (events : List RuntimeEvent) : Option (Goal × Task) :=
  let snapshot := latestSnapshot iso events
  (events.find? fun event => event.type = "GoalCreated").map fun goalCreated =>
    (replayGoal now goalCreated snapshot,
      replayTask now (events.find? fun event => event.type = "TaskCreated") snapshot)

/-- `replay`. The journal is read before the run and once more after it; `run` is what the runtime
does with the goal and the task. -/
def replay (now : Instant) (sessionId : SessionId) (events after : List RuntimeEvent)
    (run : Goal → Task → ReplayedRun) : Except String ReplayResult :=
  if events = [] then .error ("no events found for session " ++ sessionId)
  else
    let recorded := extractDecisions events
    if recorded = [] then
      .ok {
        sessionId := sessionId
        goalId := ((events.find? fun event => event.type = "GoalCreated").map
          RuntimeEvent.goalId).getD "unknown"
        originalStatus := extractTerminalStatus events
        replayStatus := extractTerminalStatus events
        originalErrorCode := extractErrorCode events
        replayErrorCode := extractErrorCode events
        decisionsReplayed := 0
        decisionsMatched := 0
        divergedAt := none
        events := events.map RuntimeEvent.type }
    else
      match replayInput iso now events with
      | none => .error "no GoalCreated event found"
      | some (goal, task) =>
        let ((status, errorCode), adapter) := (run goal task).drive { decisions := recorded }
        .ok {
          sessionId := sessionId
          goalId := goal.id
          originalStatus := extractTerminalStatus after
          replayStatus := status
          originalErrorCode := extractErrorCode after
          replayErrorCode := errorCode
          decisionsReplayed := recorded.length
          decisionsMatched := adapter.decisionsUsed
          divergedAt := none
          events := after.map RuntimeEvent.type }

end Engine

/-! ## Decisions come back as they were written -/

section RoundTrip

variable {W : WordClass} {lower : String → String}

def Unredacted (W : WordClass) (lower : String → String) (d : Decision) : Prop :=
  redactArguments W lower d.arguments = d.arguments

/-- The generated decisions of a journal, in order, whatever other events stand among them. -/
def Generated (W : WordClass) (lower : String → String) (ds : List Decision)
    (events : List RuntimeEvent) : Prop :=
  List.Forall₂ (fun d event => event.data = decisionEventData W lower d) ds
    (events.filter fun event => event.type = "DecisionGenerated")

theorem decodeDecision?_eventData {d : Decision} {event : RuntimeEvent}
    (hd : Unredacted W lower d) (h : event.data = decisionEventData W lower d) :
    decodeDecision? event = some d := by
  obtain ⟨type, reason, capability, target, arguments, expectedObservations, message⟩ := d
  have hargs : redactArguments W lower arguments = arguments := hd
  unfold decodeDecision?
  rw [h, decisionEventData, hargs]
  cases capability <;> cases target <;> cases message <;>
    simp [List.lookup, textOf?]

/-- No decision is dropped, altered or defaulted on its way through the journal. -/
theorem extractDecisions_generated {ds : List Decision} {events : List RuntimeEvent}
    (h : Generated W lower ds events) (hd : ∀ d ∈ ds, Unredacted W lower d) :
    extractDecisions events = ds := by
  have hfilter : extractDecisions events =
      (events.filter fun event => event.type = "DecisionGenerated").filterMap decodeDecision? := by
    rw [List.filterMap_filter]
    unfold extractDecisions
    congr 1
    funext event
    by_cases ht : event.type = "DecisionGenerated" <;> simp [ht]
  rw [hfilter]
  unfold Generated at h
  generalize events.filter (fun event => decide (event.type = "DecisionGenerated")) = gs at h ⊢
  induction h with
  | nil => rfl
  | @cons d event ds gs hde _ ih =>
    rw [List.filterMap_cons_some (decodeDecision?_eventData (hd d List.mem_cons_self) hde),
      ih fun e he => hd e (List.mem_cons_of_mem _ he)]

end RoundTrip

/-! ## The report -/

def commonPrefix {α : Type} [DecidableEq α] : List α → List α → Nat
  | x :: xs, y :: ys => if x = y then commonPrefix xs ys + 1 else 0
  | _, _ => 0

namespace ReplayedRun

def remaining (a : SequentialReplayAdapter) : List Decision := a.decisions.drop a.decisionsUsed

theorem decide_remaining {a : SequentialReplayAdapter} {d : Decision} {ds : List Decision}
    (h : remaining a = d :: ds) :
    a.decide = (d, { a with decisionsUsed := a.decisionsUsed + 1 }) ∧
      remaining { a with decisionsUsed := a.decisionsUsed + 1 } = ds := by
  have hget : a.decisions[a.decisionsUsed]? = some d := by
    rw [← List.head?_drop, ← remaining, h]
    rfl
  constructor
  · rw [SequentialReplayAdapter.decide, hget]
  · rw [remaining, ← List.tail_drop, ← remaining, h]
    rfl

theorem decide_exhausted {a : SequentialReplayAdapter} (h : remaining a = []) :
    a.decide = (exhaustedDecision, a) := by
  have hget : a.decisions[a.decisionsUsed]? = none := by
    rw [← List.head?_drop, ← remaining, h]
    rfl
  rw [SequentialReplayAdapter.decide, hget]

/-- The run is given the recorded decisions for as long as there are any: how many of them it is
given is the common prefix, and is what the adapter counts. -/
theorem drive_used (run : ReplayedRun) (a : SequentialReplayAdapter) :
    (run.drive a).2.decisionsUsed =
        a.decisionsUsed + commonPrefix (remaining a) (run.decisions a) ∧
      commonPrefix (remaining a) (run.decisions a) =
        min (remaining a).length (run.decisions a).length := by
  induction run generalizing a with
  | settled status errorCode =>
    rw [drive, decisions]
    cases remaining a <;> simp [commonPrefix]
  | decides next ih =>
    rw [drive, decisions]
    cases hr : remaining a with
    | nil =>
      obtain ⟨hused, -⟩ := ih a.decide.1 a.decide.2
      rw [decide_exhausted hr, hr] at hused
      rw [decide_exhausted hr]
      simpa [commonPrefix] using hused
    | cons d ds =>
      obtain ⟨hdecide, hrest⟩ := decide_remaining hr
      obtain ⟨hused, hmin⟩ := ih a.decide.1 a.decide.2
      rw [hdecide] at hused hmin ⊢
      rw [hrest] at hused hmin
      simp only [commonPrefix, if_pos, List.length_cons] at hused hmin ⊢
      omega

/-- The run asks for as many decisions as are left exactly when, given these, it ends after the
last. -/
theorem endsAfter_iff (run : ReplayedRun) (a : SequentialReplayAdapter) :
    run.EndsAfter (remaining a) ↔ (run.decisions a).length = (remaining a).length := by
  induction run generalizing a with
  | settled status errorCode =>
    rw [EndsAfter, decisions, List.length_nil, eq_comm (a := 0), List.length_eq_zero_iff]
  | decides next ih =>
    cases hr : remaining a with
    | nil => simp [EndsAfter, decisions]
    | cons d ds =>
      obtain ⟨hdecide, hrest⟩ := decide_remaining hr
      have h := ih d { a with decisionsUsed := a.decisionsUsed + 1 }
      rw [hrest] at h
      rw [EndsAfter, decisions, hdecide, h, List.length_cons, List.length_cons,
        Nat.succ_inj]

end ReplayedRun

/-- What a report should say of the recorded decisions and of those the new run was given. -/
structure ReportsExactly (recorded replayed : List Decision) (r : ReplayResult) : Prop where
  matched : r.decisionsMatched = commonPrefix recorded replayed
  diverged : r.divergedAt = none ↔ commonPrefix recorded replayed = recorded.length
  reported : replayed.length ≠ recorded.length → r.divergedAt ≠ none

/-- The decisions that the new run is given; with none recorded there is no new run. -/
def replayedDecisions (iso : IsoFormat) (now : Instant) (events : List RuntimeEvent)
    (run : Goal → Task → ReplayedRun) : List Decision :=
  if extractDecisions events = [] then []
  else
    match replayInput iso now events with
    | none => []
    | some (goal, task) => (run goal task).decisions { decisions := extractDecisions events }

/-- The new run asks for each of the recorded decisions, and for no more. -/
def RunsExactly (iso : IsoFormat) (now : Instant) (events : List RuntimeEvent)
    (run : Goal → Task → ReplayedRun) : Prop :=
  ∀ goal task, replayInput iso now events = some (goal, task) →
    (run goal task).EndsAfter (extractDecisions events)

/-- A report counts rightly, and says nothing of where the runs diverged: it is exact for a new run
that asks for the recorded decisions and ends, and for no other. -/
theorem reportsExactly_iff {recorded : List Decision} {run : ReplayedRun} {r : ReplayResult}
    (hmatched : r.decisionsMatched = (run.drive { decisions := recorded }).2.decisionsUsed)
    (hdiverged : r.divergedAt = none) :
    ReportsExactly recorded (run.decisions { decisions := recorded }) r ↔
      run.EndsAfter recorded := by
  obtain ⟨hused, hmin⟩ := ReplayedRun.drive_used run { decisions := recorded }
  have hends := ReplayedRun.endsAfter_iff run { decisions := recorded }
  have hall : ReplayedRun.remaining { decisions := recorded } = recorded := rfl
  rw [hall] at hused hmin hends
  rw [hends]
  constructor
  · intro h
    by_contra hne
    exact h.reported hne hdiverged
  · intro h
    refine ⟨?_, ?_, fun hne => absurd h hne⟩
    · rw [hmatched, hused, Nat.zero_add]
    · rw [hmin, h, Nat.min_self]
      exact iff_of_true hdiverged rfl

theorem replay_reports_iff {iso : IsoFormat} {now : Instant} {sessionId : SessionId}
    {events after : List RuntimeEvent} {run : Goal → Task → ReplayedRun} {r : ReplayResult}
    (h : replay iso now sessionId events after run = .ok r) :
    ReportsExactly (extractDecisions events) (replayedDecisions iso now events run) r ↔
      extractDecisions events = [] ∨ RunsExactly iso now events run := by
  unfold replay at h
  unfold replayedDecisions RunsExactly
  split at h
  · cases h
  · dsimp only at h
    split at h
    · rename_i hnone
      obtain rfl := Except.ok.inj h
      rw [if_pos hnone, hnone]
      exact iff_of_true ⟨rfl, iff_of_true rfl rfl, fun hne => absurd rfl hne⟩ (.inl rfl)
    · rename_i hsome
      rw [if_neg hsome, or_iff_right hsome]
      cases hi : replayInput iso now events with
      | none =>
        rw [hi] at h
        cases h
      | some input =>
        obtain ⟨goal, task⟩ := input
        rw [hi] at h
        obtain rfl := Except.ok.inj h
        refine (reportsExactly_iff rfl rfl).trans ⟨?_, ?_⟩
        · intro hends goal' task' he
          obtain ⟨rfl, rfl⟩ := Prod.mk.inj (Option.some.inj he)
          exact hends
        · exact fun hall => hall goal task rfl

/-- **Replay, against the journal.** Generated decisions come back from the journal as they were
written, in order, where the redactor changes none of their arguments. The report of a replay is
exact just when no decision was recorded or the new run asks for the recorded decisions and for no
more. -/
theorem replay_fidelity (W : WordClass) (lower : String → String) (iso : IsoFormat) :
    (∀ ds events, Generated W lower ds events → (∀ d ∈ ds, Unredacted W lower d) →
      extractDecisions events = ds) ∧
    ∀ now sessionId events after run r,
      replay iso now sessionId events after run = .ok r →
        (ReportsExactly (extractDecisions events) (replayedDecisions iso now events run) r ↔
          extractDecisions events = [] ∨ RunsExactly iso now events run) :=
  ⟨fun _ _ h hd => extractDecisions_generated h hd,
    fun _ _ _ _ _ _ h => replay_reports_iff h⟩

def endedBy (reason : String) : Decision := { type := .finish, reason := reason }

def journalEvent (n : Nat) (type : String) (data : JsonMapping) : RuntimeEvent where
  type := type
  sessionId := "session-1"
  goalId := "goal-1"
  taskId := "task-1"
  id := "event-" ++ toString n
  actionId := none
  data := data
  occurredAt := n

def finishedJournal : List RuntimeEvent :=
  [journalEvent 1 "GoalCreated" [("description", .str "say hello")],
    journalEvent 2 "DecisionGenerated" (decisionEventData asciiWords id (endedBy "done"))]

def continuedJournal : List RuntimeEvent :=
  finishedJournal ++
    [journalEvent 3 "SessionContinued" [("message", .str "once more")],
      journalEvent 4 "DecisionGenerated" (decisionEventData asciiWords id (endedBy "done again"))]

def oneDecision : Goal → Task → ReplayedRun := fun _ _ => .decides fun _ => .settled .completed none

theorem replay_fidelity_once :
    extractDecisions finishedJournal = [endedBy "done"] ∧
      ∃ r, replay epochIso 0 "session-1" finishedJournal finishedJournal oneDecision = .ok r ∧
        ReportsExactly [endedBy "done"] [endedBy "done"] r := by
  have h := replay_fidelity asciiWords id epochIso
  have hds : extractDecisions finishedJournal = [endedBy "done"] := by
    refine h.1 _ _ (.cons rfl .nil) fun d hd => ?_
    rw [List.mem_singleton.mp hd]
    rfl
  refine ⟨hds, _, rfl, ?_⟩
  have hexact := (h.2 0 "session-1" finishedJournal finishedJournal oneDecision _ rfl).mpr
    (.inr fun goal task _ => rfl)
  exact hexact

/-- A session that was continued has two decisions, and its replay ends after the first: the report
says that one decision matched, and not that the runs diverged. -/
theorem short_replay_unreported :
    ∃ r, replay epochIso 0 "session-1" continuedJournal continuedJournal oneDecision = .ok r ∧
      r.decisionsReplayed = 2 ∧ r.decisionsMatched = 1 ∧ r.divergedAt = none ∧
      ¬ReportsExactly (extractDecisions continuedJournal)
        (replayedDecisions epochIso 0 continuedJournal oneDecision) r := by
  refine ⟨_, rfl, rfl, rfl, rfl, fun h => ?_⟩
  exact h.reported (by decide) rfl

end UniversalAgent.Runtime
