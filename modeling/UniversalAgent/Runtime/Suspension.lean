import UniversalAgent.Runtime.Rejection

/-!
# Runtime — Suspension

A session suspended and resumed (`pause`, `resume` and `_settle` of `runtime/agent.py`), for a
session that waits for no confirmation. A suspension by the user, by a WAIT decision or by an
exhausted time budget is the same transition with other texts.
-/

namespace UniversalAgent.Runtime

open UniversalAgent.Core UniversalAgent.Foundation UniversalAgent.State UniversalAgent.Tasks

section Suspend

variable {codec : JsonCodec} {B : Backend codec}

/-- `commit_session_event`, as far as the session and its store are concerned. -/
def commitSession (store : SessionStore B) (session : SessionRuntimeState) (m : Memory) :
    Except StoreError (SessionRuntimeState × SessionStore B) := do
  let saved ← store.saveSession (session.snapshot m.evidence)
  pure ({ session with version := saved.2 }, saved.1)

/-- `_settle` of a transition of a session that waits for no confirmation. -/
def settle (store : SessionStore B) (m : Memory) (t : SessionRuntimeState × Transition) :
    Except StoreError (ExecutionResult × SessionStore B) := do
  let committed ← commitSession store t.1 m
  pure (t.2.result, committed.2)

/-- What `resume` makes of a session: it runs again, or the call returns. -/
inductive Resumed (B : Backend codec) where
  | running (session : SessionRuntimeState) (memory : Memory) (store : SessionStore B)
  | returned (result : ExecutionResult) (store : SessionStore B)

def restart (session : SessionRuntimeState) : SessionRuntimeState :=
  let s := (session.setGoalStatus .running).markCurrentTask .running
  { s with state := { s.state with terminationReason := none } }

/-- `resume` with no confirmation given, up to its return into the loop. -/
def resume (store : SessionStore B) (rebuilt : Option SessionSnapshot)
    (domains : DomainComposition) (updaters : Core.Evidence → List WorldUpdater) (id : SessionId)
    (m : Memory) : Except StoreError (Resumed B) := do
  match ← openSession store rebuilt domains updaters id m with
  | .rejected result store => pure (.returned result store)
  | .session session m =>
    if session.state.goal.status ≠ .waiting then
      pure (.returned (buildResult session.state .failed "session is not waiting"
        (some .invalidState) none) store)
    else if session.state.pendingAction.isSome then do
      let failed := fail { session with state := { session.state with pendingAction := none } }
        .invalidState "resume requires confirmation for pending action"
      let (result, store) ← settle store m failed
      pure (.returned result store)
    else do
      let (session, store) ← commitSession store (restart session) m
      pure (.running session m store)

/-! ## What a suspension changes -/

variable {store store' : SessionStore B} {s s' : SessionRuntimeState} {rebuilt : Option SessionSnapshot}
  {updaters : Core.Evidence → List WorldUpdater}

theorem commitSession_eq_ok {m : Memory} :
    commitSession store s m = .ok (s', store') ↔
      s' = { s with version := s.version + 1 } ∧
        store.saveSession (s.snapshot m.evidence) = .ok (store', s.version + 1) := by
  rw [commitSession, Except.bind_eq_ok]
  constructor
  · rintro ⟨⟨saved, v⟩, hsave, hk⟩
    cases hk
    obtain ⟨_, -, -, hv, -⟩ := SessionStore.saveSession_eq_ok.mp hsave
    rw [show (s.snapshot m.evidence).version = s.version from rfl] at hv
    subst hv
    exact ⟨rfl, hsave⟩
  · rintro ⟨rfl, hsave⟩
    exact ⟨_, hsave, rfl⟩

/-- A committed session is loaded as the copy of its snapshot. -/
theorem loadSession_commit {m : Memory}
    (h : commitSession store s m = .ok (s', store')) :
    ∃ t, copySession codec { s.snapshot m.evidence with version := s.version + 1 } = .ok t ∧
      store'.loadSession s.state.sessionId = .ok t := by
  obtain ⟨-, hsave⟩ := commitSession_eq_ok.mp h
  obtain ⟨_, -, -, -, hwrite⟩ := SessionStore.saveSession_eq_ok.mp hsave
  exact SessionStore.loadSession_write
    ((Produced.session s m.evidence).coherent.withVersion (s.version + 1)) hwrite

/-- A committed session that is hydrated again: the same tasks, the same verdict on them, the
same pending action but for the copies of its arguments. -/
structure Rehydrated (s t : SessionRuntimeState) : Prop where
  tasks : t.tasks = s.tasks
  continuation : t.state.isContinuation = false
  verdict : t.state.latestEvaluation.map verdict = s.state.latestEvaluation.map verdict
  pending : t.state.pendingAction.map withoutArguments = s.state.pendingAction.map withoutArguments
  status : t.state.goal.status = s.state.goal.status

theorem rehydrated_of_commit {store store₁ store₂ : SessionStore B} {s s₁ t : SessionRuntimeState}
    {m m₂ m₃ : Memory} {domains : DomainComposition}
    (hcommit : commitSession store s m = .ok (s₁, store₁))
    (hkept : store₂.loadSession s.state.sessionId = store₁.loadSession s.state.sessionId)
    (hopen : openSession store₂ rebuilt domains updaters s.state.sessionId m₂
      = .ok (.session t m₃)) : Rehydrated s t := by
  obtain ⟨copied, hcopy, hload⟩ := loadSession_commit hcommit
  rw [hload] at hkept
  rw [openSession, loadOrRebuild_of_ok hkept, Except.ok_bind] at hopen
  split at hopen
  · next session memory hh =>
      cases hopen
      obtain ⟨hst, -, hgraph, -, -, -⟩ := copySession_spec codec
        ((Produced.session s m.evidence).coherent.withVersion (s.version + 1)) hcopy
      obtain ⟨htasks, hstate, -, -⟩ := hydrateSession_spec hh
      rw [hgraph] at htasks
      have htasks : t.tasks = s.tasks := by
        have := TaskManager.fromSnapshot_snapshot s.tasks
        exact Except.ok.inj (htasks.symm.trans this)
      have hgoal := congrArg Goal.status hst.goal
      exact
        { tasks := htasks
          continuation := by rw [hstate]; exact hst.totals.2.2
          verdict := by rw [hstate]; exact hst.verdict
          pending := by rw [hstate]; exact hst.pending
          status := by rw [hstate]; exact hgoal }
  · obtain ⟨_, -, hk⟩ := Except.bind_eq_ok.mp hopen
    cases hk

/-- What may happen to a session after some point, suspended or not: its tasks are changed, and
its evaluation is kept or replaced. -/
structure Later where
  tasks : TaskManager → TaskManager
  evaluation : Option (Option EvaluationResult)

def Later.apply (l : Later) (s : SessionRuntimeState) : SessionRuntimeState :=
  { s with
    tasks := l.tasks s.tasks
    state := { s.state with latestEvaluation := l.evaluation.getD s.state.latestEvaluation } }

/-- A session after a suspension is as good as the one before it: every task has its status, the
same tasks are runnable, and whatever happens later, the same FINISH decisions are accepted. -/
structure Transparent (s t : SessionRuntimeState) : Prop where
  statuses : ∀ id, t.tasks.statusOf id = s.tasks.statusOf id
  runnable : t.tasks.runnable = s.tasks.runnable
  finish : ∀ l : Later, finishAccepted (l.apply t) = finishAccepted (l.apply s)

theorem finishAuthorised_verdict (tasks : TaskManager) {a b : Option EvaluationResult}
    (h : a.map verdict = b.map verdict) : finishAuthorised tasks a = finishAuthorised tasks b := by
  have hv : ∀ e : Option EvaluationResult,
      (e.any fun e => e.status = .completed && e.taskCompleted && e.goalCompleted)
        = ((e.map verdict).any fun e => e.status = .completed && e.taskCompleted && e.goalCompleted) := by
    intro e
    cases e <;> rfl
  rw [finishAuthorised, finishAuthorised, hv a, hv b, h]

theorem hasUnfinished_of_running {m : TaskManager} (h : m.current.status = .running) :
    m.hasUnfinished = true :=
  List.any_eq_true.mpr ⟨m.current, m.current_mem_all, by rw [h]; rfl⟩

/-- The resumed session: the tasks of the suspended one with the current one RUNNING. -/
theorem resumed_spec {store store₁ store₂ store₃ : SessionStore B} {s t : SessionRuntimeState}
    {m m₂ m₃ : Memory} {domains : DomainComposition}
    {reason : String} {message : Option String}
    {event : String} {result : ExecutionResult}
    (hsuspend : settle store m (pause s reason message event none) = .ok (result, store₁))
    (hkept : store₂.loadSession s.state.sessionId = store₁.loadSession s.state.sessionId)
    (hresume : resume store₂ rebuilt domains updaters s.state.sessionId m₂
      = .ok (.running t m₃ store₃)) :
    t.tasks = s.tasks.markCurrent .running ∧ t.state.isContinuation = false ∧
      t.state.latestEvaluation.map verdict = s.state.latestEvaluation.map verdict := by
  obtain ⟨⟨s₁, saved⟩, hcommit, hk⟩ := Except.bind_eq_ok.mp hsuspend
  cases hk
  obtain ⟨opened, hopen, hresume⟩ := Except.bind_eq_ok.mp hresume
  cases opened with
  | rejected _ _ => cases hresume
  | session u m₄ =>
    have hu := rehydrated_of_commit hcommit hkept hopen
    simp only at hresume
    split at hresume
    · cases hresume
    · split at hresume
      · obtain ⟨_, -, hk⟩ := Except.bind_eq_ok.mp hresume
        cases hk
      · obtain ⟨⟨v, saved'⟩, hc, hk⟩ := Except.bind_eq_ok.mp hresume
        cases hk
        obtain ⟨rfl, -⟩ := commitSession_eq_ok.mp hc
        refine ⟨?_, hu.continuation, hu.verdict⟩
        have htasks : u.tasks = s.tasks.markCurrent .waiting := hu.tasks
        exact (congrArg (TaskManager.markCurrent · .running) htasks).trans
          (TaskManager.markCurrent_markCurrent _ _ _)

def Resumed.isRunning : Resumed B → Bool
  | .running _ _ _ => true
  | .returned _ _ => false

theorem exists_resumed (store : SessionStore B) (s : SessionRuntimeState) (m : Memory)
    (domains : DomainComposition) (updaters : Core.Evidence → List WorldUpdater) (reason : String)
    (h : ((settle store m (pause s reason none "GoalWaiting" none)).toOption.bind fun p =>
      (resume p.2 none domains updaters s.state.sessionId m).toOption).any Resumed.isRunning = true) :
    ∃ result store₁ t m₃ store₃,
      settle store m (pause s reason none "GoalWaiting" none) = .ok (result, store₁) ∧
        resume store₁ none domains updaters s.state.sessionId m = .ok (.running t m₃ store₃) := by
  cases hs : settle store m (pause s reason none "GoalWaiting" none) with
  | error e => simp [hs, Except.toOption] at h
  | ok p =>
    obtain ⟨result, store₁⟩ := p
    cases hr : resume store₁ none domains updaters s.state.sessionId m with
    | error e => simp [hs, hr, Except.toOption] at h
    | ok r =>
      cases r with
      | returned _ _ => simp [hs, hr, Except.toOption, Resumed.isRunning] at h
      | running t m₃ store₃ => exact ⟨result, store₁, t, m₃, store₃, rfl, hr⟩

end Suspend

/-- A store that holds the session, as it was when its task was started. -/
def startedStore : SessionStore (memoryBackend plainCodec) :=
  memoryStoreOf ((Persistence.startedSession 0 false).snapshot .empty)
    ((copySession_eq_self plainCodec (Produced.session _ .empty).coherent).mpr (by decide +kernel))

def localDomain : DomainComposition := ⟨[⟨"local", "1"⟩], by decide⟩

/-- The session after the evaluator has completed its task and its goal. -/
def evaluatedSession : SessionRuntimeState :=
  let s := (Persistence.startedSession 0 false).completeCurrentTask
  { s with
    state :=
      { s.state with
        latestEvaluation := some ⟨.completed, "healthy", "criteria", [], true, true⟩ } }

end UniversalAgent.Runtime
