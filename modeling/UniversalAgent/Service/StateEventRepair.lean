import UniversalAgent.Evaluation.Replay

/-!
# Service — State event repair

Repairing the journal from the stored sessions (`service/state_event_repair.py`): a stored session
that has ended, and has no event of the kind that ends it so, is given one.

An event of the right kind may not be the last word on the session, and the event that is added
carries the reason under a name that the fold does not read.
-/

namespace UniversalAgent.Service

open UniversalAgent.Core UniversalAgent.Evaluation

/-- `SessionSummaryView`, what the repair reads of it. -/
structure SessionSummaryView where
  sessionId : SessionId
  goalId : GoalId
  goalStatus : GoalStatus
  currentTaskId : TaskId
  terminationReason : Option String
  errorCode : Option ErrorCode
deriving DecidableEq

def terminalEventByGoalStatus : GoalStatus → Option String
  | .completed => some "GoalCompleted"
  | .failed => some "GoalFailed"
  | .cancelled => some "GoalCancelled"
  | .pending | .running | .waiting => none

section Repair

variable (ids : Nat → EventId) (clock : Nat → Instant)

/-- `_terminal_repair_event`, with the id and the time that it draws. -/
def terminalRepairEvent (session : SessionSummaryView) (eventType : String) (id : EventId)
    (now : Instant) : RuntimeEvent where
  type := eventType
  sessionId := session.sessionId
  goalId := session.goalId
  taskId := session.currentTaskId
  id := id
  actionId := none
  data :=
    [("repair_source", .str "state_event_consistency"),
      ("repair_reason", .str "missing_terminal_event"),
      ("goal_status", .str (StrEnum.value session.goalStatus)),
      ("termination_reason", (session.terminationReason.map Json.str).getD .null),
      ("error_code", (session.errorCode.map fun code => Json.str (StrEnum.value code)).getD .null)]
  occurredAt := now

/-- `events_by_session.get(session_id, set())`, asked for a type. -/
def hasEvent (events : List RuntimeEventView) (sessionId : SessionId) (type : String) : Bool :=
  events.any fun event => event.sessionId = sessionId ∧ event.type = type

/-- `missing_terminal_state_events`, after `drawn` repairs. -/
def missingFrom (events : List RuntimeEventView) :
    Nat → List SessionSummaryView → List RuntimeEvent
  | _, [] => []
  | drawn, session :: sessions =>
    match terminalEventByGoalStatus session.goalStatus with
    | none => missingFrom events drawn sessions
    | some expected =>
      if hasEvent events session.sessionId expected then missingFrom events drawn sessions
      else
        terminalRepairEvent session expected (ids drawn) (clock drawn) ::
          missingFrom events (drawn + 1) sessions

def missingTerminalStateEvents (sessions : List SessionSummaryView)
    (events : List RuntimeEventView) : List RuntimeEvent :=
  missingFrom ids clock events 0 sessions

def repaired (sessions : List SessionSummaryView) (events : List RuntimeEventView) :
    List RuntimeEventView :=
  events ++ (missingTerminalStateEvents ids clock sessions events).map eventView

end Repair

/-! ## What is added -/

def ofSession (sessionId : SessionId) (events : List RuntimeEventView) : List RuntimeEventView :=
  events.filter fun event => event.sessionId = sessionId

section Added

variable {ids : Nat → EventId} {clock : Nat → Instant} {events : List RuntimeEventView}
variable {sessions : List SessionSummaryView} {session : SessionSummaryView}

/-- A session is in need of a repair: it has ended, and no event of the kind is there. -/
def Needs (events : List RuntimeEventView) (session : SessionSummaryView) (type : String) : Prop :=
  terminalEventByGoalStatus session.goalStatus = some type ∧
    hasEvent events session.sessionId type = false

theorem mem_missingFrom {drawn : Nat} {event : RuntimeEvent}
    (h : event ∈ missingFrom ids clock events drawn sessions) :
    ∃ session ∈ sessions, ∃ type n, Needs events session type ∧
      event = terminalRepairEvent session type (ids n) (clock n) := by
  induction sessions generalizing drawn with
  | nil => cases h
  | cons s sessions ih =>
    have hlater : ∀ {n}, event ∈ missingFrom ids clock events n sessions →
        ∃ session ∈ s :: sessions, ∃ type n, Needs events session type ∧
          event = terminalRepairEvent session type (ids n) (clock n) := by
      intro n hn
      obtain ⟨session, hs, hrest⟩ := ih hn
      exact ⟨session, List.mem_cons_of_mem _ hs, hrest⟩
    rw [missingFrom] at h
    split at h
    · exact hlater h
    · rename_i expected hexpected
      split at h
      · exact hlater h
      · rename_i hnone
        rcases List.mem_cons.mp h with rfl | h
        · exact ⟨s, List.mem_cons_self, expected, drawn,
            ⟨hexpected, by simpa using hnone⟩, rfl⟩
        · exact hlater h

/-- A session in need of a repair gets one, and a session that is not gets none: ids being
different, the repairs of a session are its own. -/
theorem repairs_of_session (hnodup : (sessions.map SessionSummaryView.sessionId).Nodup)
    (hs : session ∈ sessions) (drawn : Nat) :
    (∀ type, Needs events session type → ∃ n,
      (missingFrom ids clock events drawn sessions).filter
          (fun event => event.sessionId = session.sessionId) =
        [terminalRepairEvent session type (ids n) (clock n)]) ∧
    ((∀ type, ¬Needs events session type) →
      (missingFrom ids clock events drawn sessions).filter
        (fun event => event.sessionId = session.sessionId) = []) := by
  induction sessions generalizing drawn with
  | nil => cases hs
  | cons s sessions ih =>
    rw [List.map_cons, List.nodup_cons] at hnodup
    obtain ⟨hfresh, hnodup⟩ := hnodup
    rcases List.mem_cons.mp hs with rfl | hs
    · -- none of the later repairs is of this session
      have hlater : ∀ n, (missingFrom ids clock events n sessions).filter
          (fun event => event.sessionId = session.sessionId) = [] := by
        intro n
        refine List.filter_eq_nil_iff.mpr fun event he => ?_
        obtain ⟨other, hother, type, m, -, rfl⟩ := mem_missingFrom he
        have hne : other.sessionId ≠ session.sessionId := fun he =>
          hfresh (he ▸ List.mem_map_of_mem hother)
        simp [terminalRepairEvent, hne]
      rw [missingFrom]
      cases hexpected : terminalEventByGoalStatus session.goalStatus with
      | none =>
        refine ⟨fun type hn => ?_, fun _ => hlater drawn⟩
        rw [Needs, hexpected] at hn
        cases hn.1
      | some expected =>
        dsimp only
        by_cases hhas : hasEvent events session.sessionId expected = true
        · rw [if_pos hhas]
          refine ⟨fun type hn => ?_, fun _ => hlater drawn⟩
          rw [Needs, hexpected] at hn
          obtain ⟨he, hfalse⟩ := hn
          obtain rfl := Option.some.inj he
          rw [hhas] at hfalse
          cases hfalse
        · rw [if_neg hhas]
          have hneeds : Needs events session expected := ⟨hexpected, by simpa using hhas⟩
          refine ⟨fun type hn => ⟨drawn, ?_⟩, fun hnone => absurd hneeds (hnone expected)⟩
          obtain rfl := Option.some.inj (hexpected.symm.trans hn.1)
          rw [List.filter_cons_of_pos (by simp [terminalRepairEvent]), hlater]
    · have hne : s.sessionId ≠ session.sessionId := fun he =>
        hfresh (he ▸ List.mem_map_of_mem hs)
      rw [missingFrom]
      split
      · exact ih hnodup hs drawn
      · split
        · exact ih hnodup hs drawn
        · rw [List.filter_cons_of_neg (by simp [terminalRepairEvent, hne])]
          exact ih hnodup hs (drawn + 1)

/-- The journal of a session that is in need of a repair ends with it; that of any other session is
what it was. -/
theorem ofSession_repaired (hnodup : (sessions.map SessionSummaryView.sessionId).Nodup)
    (hs : session ∈ sessions) :
    (∀ type, Needs events session type → ∃ id now,
      ofSession session.sessionId (repaired ids clock sessions events) =
        ofSession session.sessionId events ++
          [eventView (terminalRepairEvent session type id now)]) ∧
    ((∀ type, ¬Needs events session type) →
      ofSession session.sessionId (repaired ids clock sessions events) =
        ofSession session.sessionId events) := by
  obtain ⟨hneeds, hnone⟩ := repairs_of_session hnodup hs 0
  have hadded : ofSession session.sessionId (repaired ids clock sessions events) =
      ofSession session.sessionId events ++
        ((missingTerminalStateEvents ids clock sessions events).filter
          fun event => event.sessionId = session.sessionId).map eventView := by
    rw [repaired, ofSession, List.filter_append, List.filter_map]
    rfl
  constructor
  · intro type hn
    obtain ⟨n, hrepairs⟩ := hneeds type hn
    exact ⟨ids n, clock n, by rw [hadded, missingTerminalStateEvents, hrepairs]; rfl⟩
  · intro hn
    rw [hadded, missingTerminalStateEvents, hnone hn, List.map_nil, List.append_nil]

theorem hasEvent_iff {sessionId : SessionId} {type : String} :
    hasEvent events sessionId type = true ↔
      ∃ event ∈ ofSession sessionId events, event.type = type := by
  simp [hasEvent, ofSession, and_assoc]

theorem repairs_settle {ids' : Nat → EventId} {clock' : Nat → Instant}
    (hnodup : (sessions.map SessionSummaryView.sessionId).Nodup) :
    missingTerminalStateEvents ids' clock' sessions (repaired ids clock sessions events) = [] := by
  refine List.eq_nil_iff_forall_not_mem.mpr fun event he => ?_
  obtain ⟨session, hs, type, n, ⟨htype, hmissing⟩, -⟩ := mem_missingFrom he
  rw [← Bool.not_eq_true, hasEvent_iff] at hmissing
  by_cases hhas : hasEvent events session.sessionId type = true
  · obtain ⟨old, hold, hof⟩ := hasEvent_iff.mp hhas
    refine hmissing ⟨old, ?_, hof⟩
    rw [ofSession, repaired, List.filter_append]
    exact List.mem_append_left _ hold
  · obtain ⟨id, now, hjournal⟩ := (ofSession_repaired hnodup hs).1 type ⟨htype, by simpa using hhas⟩
    refine hmissing ⟨eventView (terminalRepairEvent session type id now), ?_, rfl⟩
    rw [hjournal]
    exact List.mem_append_right _ List.mem_cons_self

end Added

/-! ## What the repaired journal says -/

def settlingTypes : List String :=
  ["GoalCompleted", "GoalFailed", "GoalCancelled", "GoalWaiting", "ConfirmationRequired"]

def endedStatus : GoalStatus → Option ExecutionStatus
  | .completed => some .completed
  | .failed => some .failed
  | .cancelled => some .cancelled
  | .pending | .running | .waiting => none

def SessionSummaryView.stored (session : SessionSummaryView) : TerminalOutcome where
  status := endedStatus session.goalStatus
  errorCode := session.errorCode
  reason := session.terminationReason

/-- The error code that an event ending a goal in that status tells of. -/
def toldCode (status : GoalStatus) (event : RuntimeEventView) : Option ErrorCode :=
  if status = .failed then optionalErrorCode (stringData event "error_code") else none

/-- The last event of the session that settles it is one of the type, with the reason and the error
code that are stored. -/
def ToldByJournal (events : List RuntimeEventView) (session : SessionSummaryView) (type : String) :
    Prop :=
  ∃ before event after, ofSession session.sessionId events = before ++ event :: after ∧
    event.type = type ∧ (∀ later ∈ after, later.type ∉ settlingTypes) ∧
    stringData event "reason" = session.terminationReason ∧
    toldCode session.goalStatus event = session.errorCode

/-- Nothing is stored of the session that an added event would not tell: no reason, and no error code
unless it failed. -/
def ToldByRepair (session : SessionSummaryView) : Prop :=
  session.terminationReason = none ∧ (session.goalStatus ≠ .failed → session.errorCode = none)

/-- The end of the session, if it has ended, is told by the event of that type that is there, or by the
one that is added. -/
def Told (events : List RuntimeEventView) (session : SessionSummaryView) : Prop :=
  ∀ type, terminalEventByGoalStatus session.goalStatus = some type →
    if hasEvent events session.sessionId type = true then ToldByJournal events session type
    else ToldByRepair session

section Ending

variable {event : RuntimeEventView} {events : List RuntimeEventView}

theorem outcome?_eq_none : outcome? event = none ↔ event.type ∉ settlingTypes := by
  unfold outcome? settlingTypes
  split_ifs <;> simp_all

theorem outcome?_ended {status : GoalStatus}
    (h : terminalEventByGoalStatus status = some event.type) :
    outcome? event = some ⟨endedStatus status, toldCode status event, stringData event "reason"⟩ := by
  cases status <;> simp only [terminalEventByGoalStatus, Option.some.injEq, reduceCtorEq] at h <;>
    simp [outcome?, ← h, endedStatus, toldCode]

/-- Only an event of the right type ends a goal in that status. -/
theorem type_of_outcome? {status : GoalStatus} {type : String} {o : TerminalOutcome}
    (htype : terminalEventByGoalStatus status = some type) (ho : outcome? event = some o)
    (hstatus : o.status = endedStatus status) : event.type = type := by
  unfold outcome? at ho
  cases status <;> simp only [terminalEventByGoalStatus, Option.some.injEq, reduceCtorEq] at htype <;>
    subst htype <;> split_ifs at ho <;> simp_all [endedStatus] <;> subst ho <;> simp at hstatus

end Ending

section Folding

variable {events : List RuntimeEventView} {session : SessionSummaryView} {type : String}

/-- A journal with an event of the type says what is stored exactly when that event has the last word
and says it. -/
theorem lastOutcome_stored_iff (htype : terminalEventByGoalStatus session.goalStatus = some type)
    (hhas : hasEvent events session.sessionId type = true) :
    lastOutcome (ofSession session.sessionId events) = session.stored ↔
      ToldByJournal events session type := by
  constructor
  · intro hlast
    obtain ⟨old, hold, hof⟩ := hasEvent_iff.mp hhas
    have hsettles : outcome? old ≠ none := by
      rw [outcome?_ended (hof ▸ htype)]
      exact Option.some_ne_none _
    obtain ⟨before, event, after, o, hsplit, ho, hafter⟩ := exists_last_outcome ⟨old, hold, hsettles⟩
    have hstored : o = session.stored := by
      rw [← hlast, hsplit, lastOutcome_of_split ho hafter]
    have hevent : event.type = type := type_of_outcome? htype ho (congrArg _ hstored)
    rw [outcome?_ended (hevent ▸ htype), hstored] at ho
    have htold := Option.some.inj ho
    exact ⟨before, event, after, hsplit, hevent,
      fun later hl => outcome?_eq_none.mp (hafter later hl),
      congrArg TerminalOutcome.reason htold, congrArg TerminalOutcome.errorCode htold⟩
  · rintro ⟨before, event, after, hsplit, hevent, hafter, hreason, hcode⟩
    rw [hsplit, lastOutcome_of_split (outcome?_ended (hevent ▸ htype))
      fun later hl => outcome?_eq_none.mpr (hafter later hl)]
    rw [SessionSummaryView.stored, hreason, hcode]

/-- What an added event says of the end of its session: all but the reason. -/
theorem outcome?_terminalRepairEvent (id : EventId) (now : Instant)
    (htype : terminalEventByGoalStatus session.goalStatus = some type) :
    outcome? (eventView (terminalRepairEvent session type id now)) =
      some ⟨endedStatus session.goalStatus,
        if session.goalStatus = .failed then session.errorCode else none, none⟩ := by
  rw [outcome?_ended htype]
  have hcode : stringData (eventView (terminalRepairEvent session type id now)) "error_code" =
      session.errorCode.map StrEnum.value := by
    cases hc : session.errorCode <;>
      simp [stringData, eventView, terminalRepairEvent, hc, List.lookup]
  have hreason : stringData (eventView (terminalRepairEvent session type id now)) "reason" = none := by
    simp [stringData, eventView, terminalRepairEvent, List.lookup]
  have hback : optionalErrorCode (session.errorCode.map StrEnum.value) = session.errorCode := by
    cases session.errorCode <;> simp [optionalErrorCode]
  rw [toldCode, hcode, hback, hreason]

/-- A journal that is given an event says what is stored exactly when the event does. -/
theorem lastOutcome_repaired_iff (id : EventId) (now : Instant)
    (htype : terminalEventByGoalStatus session.goalStatus = some type) :
    lastOutcome (ofSession session.sessionId events ++
        [eventView (terminalRepairEvent session type id now)]) = session.stored ↔
      ToldByRepair session := by
  rw [lastOutcome_snoc, outcome?_terminalRepairEvent id now htype, Option.getD_some,
    SessionSummaryView.stored, TerminalOutcome.mk.injEq, ToldByRepair]
  by_cases hf : session.goalStatus = .failed
  · simp [hf, eq_comm]
  · simp [hf, eq_comm, and_comm]

end Folding

/-- Folding the repaired journal of each session that has ended says what is stored of it. -/
def EndsAsStored (sessions : List SessionSummaryView) (journal : List RuntimeEventView) : Prop :=
  ∀ session ∈ sessions, (endedStatus session.goalStatus).isSome = true →
    ∃ replay, replayExecution (ofSession session.sessionId journal) = .ok replay ∧
      replay.outcome = session.stored

/-- **Journal repair.** Whatever the stored sessions and the journal are, repairing once is enough. The
repaired journal says of each ended session what is stored of it exactly when the end of each is told:
by the last settling event of its journal, where there is one of the type that was looked for, and by
the event that is added otherwise, which carries no reason. -/
theorem journal_repair_iff {ids ids' : Nat → EventId} {clock clock' : Nat → Instant}
    {sessions : List SessionSummaryView} {events : List RuntimeEventView}
    (hnodup : (sessions.map SessionSummaryView.sessionId).Nodup) :
    (EndsAsStored sessions (repaired ids clock sessions events) ∧
        missingTerminalStateEvents ids' clock' sessions
          (repaired ids clock sessions events) = []) ↔
      ∀ session ∈ sessions, Told events session := by
  rw [and_iff_left (repairs_settle hnodup)]
  refine forall₂_congr fun session hs => ?_
  cases htype : terminalEventByGoalStatus session.goalStatus with
  | none =>
    have hended : endedStatus session.goalStatus = none := by
      cases hg : session.goalStatus <;> simp_all [terminalEventByGoalStatus, endedStatus]
    simp [Told, htype, hended]
  | some type =>
    have hended : (endedStatus session.goalStatus).isSome = true := by
      cases hg : session.goalStatus <;> simp_all [terminalEventByGoalStatus, endedStatus]
    -- the repaired journal of the session has an event, so it can be folded
    have hfold : ∀ journal, OfOneSession session.sessionId journal →
        ((∃ replay, replayExecution journal = .ok replay ∧ replay.outcome = session.stored) ↔
          lastOutcome journal = session.stored) := by
      intro journal hone
      obtain ⟨replay, hreplay, houtcome⟩ := replayExecution_outcome hone
      constructor
      · rintro ⟨replay', hreplay', hstored⟩
        rw [hreplay] at hreplay'
        rw [← houtcome, Except.ok.inj hreplay', hstored]
      · intro hlast
        exact ⟨replay, hreplay, houtcome.trans hlast⟩
    have htold : Told events session ↔
        if hasEvent events session.sessionId type = true then ToldByJournal events session type
        else ToldByRepair session := by
      simp [Told, htype]
    rw [forall_prop_of_true hended, htold]
    obtain ⟨hneeds, hnone⟩ := ofSession_repaired hnodup hs
    by_cases hhas : hasEvent events session.sessionId type = true
    · have hnot : ∀ other, ¬Needs events session other := by
        rintro other ⟨hother, hmissing⟩
        obtain rfl := Option.some.inj (htype.symm.trans hother)
        rw [hhas] at hmissing
        cases hmissing
      rw [hnone hnot, if_pos hhas, ← lastOutcome_stored_iff htype hhas]
      refine hfold _ ⟨?_, fun event he => by simpa using (List.mem_filter.mp he).2⟩
      obtain ⟨old, hold, -⟩ := hasEvent_iff.mp hhas
      exact List.ne_nil_of_mem hold
    · obtain ⟨id, now, hjournal⟩ := hneeds type ⟨htype, by simpa using hhas⟩
      rw [hjournal, if_neg hhas, ← lastOutcome_repaired_iff id now htype]
      refine hfold _ ⟨by simp, fun event he => ?_⟩
      rcases List.mem_append.mp he with he | he
      · simpa using (List.mem_filter.mp he).2
      · rw [List.mem_singleton.mp he]
        rfl

/-- A session that was stored as timed out, its end having been lost from the journal. -/
def timedOutSession : SessionSummaryView where
  sessionId := "session-1"
  goalId := "goal-1"
  goalStatus := .failed
  currentTaskId := "task-1"
  terminationReason := some "session timed out"
  errorCode := some .timeout

def createdEvent : RuntimeEventView where
  eventId := "event-1"
  type := "GoalCreated"
  sessionId := "session-1"
  goalId := "goal-1"
  taskId := "task-1"
  actionId := none
  data := [("description", .str "say hello")]
  occurredAt := 0

def repairIds (n : Nat) : EventId := "repair-" ++ toString n

theorem journal_repair_timed_out :
    (EndsAsStored [timedOutSession]
          (repaired repairIds (fun _ => 1) [timedOutSession] [createdEvent]) ∧
        missingTerminalStateEvents repairIds (fun _ => 2) [timedOutSession]
          (repaired repairIds (fun _ => 1) [timedOutSession] [createdEvent]) = []) ↔
      ∀ session ∈ [timedOutSession], Told [createdEvent] session :=
  journal_repair_iff (by decide)

/-- The event that is added for it names the reason as the fold does not: the repaired journal gives
no reason for the failure, and no repair is computed any more. -/
theorem repair_loses_reason :
    (∃ replay,
      replayExecution (repaired repairIds (fun _ => 1) [timedOutSession] [createdEvent]) =
        .ok replay ∧
      replay.terminalStatus = some .failed ∧ replay.terminalErrorCode = some .timeout ∧
      replay.terminalReason = none ∧
      timedOutSession.terminationReason = some "session timed out") ∧
    missingTerminalStateEvents repairIds (fun _ => 2) [timedOutSession]
      (repaired repairIds (fun _ => 1) [timedOutSession] [createdEvent]) = [] := by
  refine ⟨⟨_, rfl, ?_⟩, ?_⟩ <;> decide +kernel

end UniversalAgent.Service
