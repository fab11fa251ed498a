import UniversalAgent.Persistence.Stores
import UniversalAgent.Runtime.Transitions

/-!
# Runtime — Rejection

What becomes of a stored session that cannot be restored. Every entry point that takes a session
id (`resume`, `continue_session`, `pause`, `cancel`) starts with `openSession`: the snapshot is
loaded and hydrated, and where hydration raises, `reject_session` saves a failed session over it
(`runtime/emission.py`). The failed session is rebuilt from the state alone.
-/

namespace UniversalAgent.Runtime

open UniversalAgent.Core UniversalAgent.Foundation UniversalAgent.State UniversalAgent.Tasks

/-- The state that `reject_session` leaves behind. -/
def rejectedState (state : AgentState) (reason : String) : AgentState :=
  let task := { state.currentTask with status := .failed }
  { state with
    goal := { state.goal with status := .failed }
    currentTask := task
    tasks := [task]
    terminationReason := some reason
    errorCode := some .invalidState }

/-- The snapshot that `reject_session` saves. -/
def rejectedSnapshot (snapshot : SessionSnapshot) (reason : String) : SessionSnapshot :=
  { sessionFromState (rejectedState snapshot.state reason) snapshot.domainName
      snapshot.domainVersion snapshot.domains with version := snapshot.version }

section Open

variable {codec : JsonCodec} {B : Backend codec}

/-- `reject_session`: the result, and the store with the failed session saved. -/
def rejectSession (store : SessionStore B) (snapshot : SessionSnapshot) (reason : String) :
    Except StoreError (ExecutionResult × SessionStore B) := do
  let saved ← store.saveSession (rejectedSnapshot snapshot reason)
  pure (buildResult (rejectedState snapshot.state reason) .failed reason (some .invalidState) none,
    saved.1)

/-- `_load_session`: a session that the store does not have is taken from the journal, when one
can be rebuilt from it. -/
def loadOrRebuild (store : SessionStore B) (rebuilt : Option SessionSnapshot) (id : SessionId) :
    Except StoreError SessionSnapshot :=
  match store.loadSession id, rebuilt with
  | .error .notFound, some snapshot => .ok snapshot
  | loaded, _ => loaded

inductive Opened (B : Backend codec) where
  | session (session : SessionRuntimeState) (memory : Memory)
  | rejected (result : ExecutionResult) (store : SessionStore B)

/-- The first steps of every call on a session that is in no one's hands. -/
def openSession (store : SessionStore B) (rebuilt : Option SessionSnapshot)
    (domains : DomainComposition) (updaters : Core.Evidence → List WorldUpdater) (id : SessionId)
    (m : Memory) : Except StoreError (Opened B) := do
  let snapshot ← loadOrRebuild store rebuilt id
  match hydrateSession domains updaters snapshot m with
  | .ok (session, memory) => pure (.session session memory)
  | .error reason =>
    let (result, store) ← rejectSession store snapshot reason
    pure (.rejected result store)

variable {rebuilt : Option SessionSnapshot} {id : SessionId} {store store' : SessionStore B}

theorem loadOrRebuild_of_ok {store : SessionStore B}
    {s : SessionSnapshot} (h : store.loadSession id = .ok s) :
    loadOrRebuild store rebuilt id = .ok s := by
  unfold loadOrRebuild
  rw [h]

/-! ## What is stored after a rejection -/

theorem rejectedSnapshot_produced (snapshot : SessionSnapshot) (reason : String) (v : Int) :
    Produced { rejectedSnapshot snapshot reason with version := v } :=
  .rejected (rejectedState snapshot.state reason) _ _ _ v rfl

/-- A failed session is saved as it is: the values of a loaded snapshot are plain. -/
theorem copySession_rejected (codec : JsonCodec) {snapshot : SessionSnapshot} (h : HandedOut snapshot)
    (reason : String) (v : Int) :
    copySession codec { rejectedSnapshot snapshot reason with version := v }
      = .ok { rejectedSnapshot snapshot reason with version := v } := by
  refine (copySession_eq_self codec (rejectedSnapshot_produced snapshot reason v).coherent).mpr ?_
  have hp := h.plain
  simp only [snapshotPlain, Bool.and_eq_true] at hp
  refine ⟨?_, h.totals⟩
  simp only [snapshotPlain, Bool.and_eq_true]
  exact ⟨hp.1, rfl⟩

/-- When the rejection of a stored session is saved, the failed session is what is stored. -/
theorem loadSession_rejectSession
    {before : SessionSnapshot} {reason : String} {result : ExecutionResult}
    (hload : store.loadSession id = .ok before)
    (h : rejectSession store before reason = .ok (result, store')) :
    store'.loadSession id
      = .ok { rejectedSnapshot before reason with version := before.version + 1 } := by
  obtain ⟨⟨saved, v⟩, hsave, hk⟩ := Except.bind_eq_ok.mp h
  cases hk
  obtain ⟨r, -, -, -, hwrite⟩ := SessionStore.saveSession_eq_ok.mp hsave
  obtain ⟨t, ht, hl⟩ :=
    SessionStore.loadSession_write (rejectedSnapshot_produced before reason _).coherent hwrite
  have hcopy := copySession_rejected codec (SessionStore.loadSession_handedOut hload)
    reason (before.version + 1)
  obtain rfl : before.state.sessionId = id := SessionStore.loadSession_id hload
  obtain rfl := Except.ok.inj (hcopy.symm.trans ht)
  exact hl

theorem rejectSession_memory {store : SessionStore (memoryBackend codec)}
    {before : SessionSnapshot} (hload : store.loadSession id = .ok before) (reason : String) :
    ∃ result store', rejectSession store before reason = .ok (result, store') := by
  obtain rfl : before.state.sessionId = id := SessionStore.loadSession_id hload
  have hcopy := copySession_rejected codec (SessionStore.loadSession_handedOut hload)
    reason (before.version + 1)
  obtain ⟨store', hsave⟩ := SessionStore.saveSession_of_load (s := rejectedSnapshot before reason)
    hload rfl (copyRecord_eq_ok.mpr hcopy)
  exact ⟨_, store', by rw [rejectSession, hsave]; rfl⟩

theorem loadSession_rejected
    {domains : DomainComposition} {updaters : Core.Evidence → List WorldUpdater}
    {m : Memory} {before : SessionSnapshot} {result : ExecutionResult}
    (hload : store.loadSession id = .ok before)
    (h : openSession store rebuilt domains updaters id m = .ok (.rejected result store')) :
    ∃ reason, store'.loadSession id
      = .ok { rejectedSnapshot before reason with version := before.version + 1 } := by
  rw [openSession, loadOrRebuild_of_ok hload, Except.ok_bind] at h
  split at h
  · cases h
  · next reason _ =>
      obtain ⟨⟨result', saved⟩, hrej, hk⟩ := Except.bind_eq_ok.mp h
      cases hk
      exact ⟨reason, loadSession_rejectSession hload hrej⟩

/-- `after` differs from `before` in the goal's status, the failure and the version only, and a
goal that was completed or cancelled still is. -/
structure FailureOnly (before after : SessionSnapshot) : Prop where
  rest : after =
    { before with
      state :=
        { before.state with
          goal := { before.state.goal with status := after.state.goal.status }
          terminationReason := after.state.terminationReason
          errorCode := after.state.errorCode }
      version := after.version }
  settled : before.state.goal.status = .completed ∨ before.state.goal.status = .cancelled →
    after.state.goal.status = before.state.goal.status

/-- A snapshot that has nothing for a rejection to lose: no evidence, a task graph that is its
failed current task alone, and a goal that is neither completed nor cancelled. -/
structure NothingToLose (s : SessionSnapshot) : Prop where
  evidence : s.evidence = []
  failed : s.state.currentTask.status = .failed
  tasks : s.state.tasks = [s.state.currentTask]
  graph : s.taskGraph = ⟨[⟨"root", s.state.currentTask, []⟩], s.state.currentTask.id⟩
  open_goal : s.state.goal.status ≠ .completed ∧ s.state.goal.status ≠ .cancelled

theorem rejected_failureOnly {before : SessionSnapshot} (hd : before.domains = before.domainIdentities)
    {reason : String} {v : Int} :
    FailureOnly before { rejectedSnapshot before reason with version := v } ↔
      NothingToLose before := by
  constructor
  · rintro ⟨hrest, hsettled⟩
    have hstate := congrArg SessionSnapshot.state hrest
    have hcur : { before.state.currentTask with status := TaskStatus.failed }
        = before.state.currentTask := congrArg AgentState.currentTask hstate
    have htasks := congrArg AgentState.tasks hstate
    have hgraph := congrArg SessionSnapshot.taskGraph hrest
    simp only [rejectedSnapshot, rejectedState, sessionFromState, hcur] at htasks hgraph
    refine
      { evidence := (congrArg SessionSnapshot.evidence hrest).symm
        failed := (congrArg Task.status hcur).symm
        tasks := htasks.symm
        graph := hgraph.symm
        open_goal := ⟨fun h => ?_, fun h => ?_⟩ }
    · have := hsettled (.inl h)
      rw [h] at this
      cases this
    · have := hsettled (.inr h)
      rw [h] at this
      cases this
  · intro h
    have hcur : { before.state.currentTask with status := TaskStatus.failed }
        = before.state.currentTask := by rw [← h.failed]
    refine ⟨?_, fun hs => absurd hs (not_or.mpr h.open_goal)⟩
    have hids : (if before.domains ≠ [] then before.domains
        else primaryDomain before.domainName before.domainVersion) = before.domainIdentities := by
      rw [← hd]
      split
      · rfl
      · next he =>
          rw [not_not] at he
          rw [he]
          rw [SessionSnapshot.domains] at he
          split at he
          · next hne => exact absurd he hne
          · exact he
    simp only [rejectedSnapshot, rejectedState, sessionFromState, hcur, hids]
    rw [← h.evidence, ← h.tasks, ← h.graph]

/-- **What a rejection keeps.** When a stored session cannot be restored and its rejection is
saved, the snapshot stored afterwards differs from the one before in the failure only exactly
when there was nothing to lose. -/
theorem rejection_keeps_iff {store store' : SessionStore B} {rebuilt : Option SessionSnapshot}
    {domains : DomainComposition} {updaters : Core.Evidence → List WorldUpdater} {id : SessionId}
    {m : Memory} {before : SessionSnapshot} {result : ExecutionResult}
    (hload : store.loadSession id = .ok before)
    (h : openSession store rebuilt domains updaters id m = .ok (.rejected result store')) :
    ∃ after, store'.loadSession id = .ok after ∧
      (FailureOnly before after ↔ NothingToLose before) := by
  obtain ⟨reason, hafter⟩ := loadSession_rejected hload h
  exact ⟨_, hafter, rejected_failureOnly (SessionStore.loadSession_handedOut hload).domains⟩

end Open

/-! ## A session whose domain is gone -/

def healthyEvidence : Core.Evidence where
  sessionId := "session-1"
  taskId := "task-1"
  actionId := "action-1"
  observationId := "observation-1"
  subject := "node-1"
  claim := "healthy"
  value := .bool true
  source := "probe"
  confidence := 1
  id := "evidence-1"
  observedAt := 30000000
  domainName := "local"
  domainVersion := "1"
  postInit := by decide +kernel

/-- A completed session of the domain `local@1` with one piece of evidence. -/
def completedSession : SessionSnapshot :=
  let s := (Persistence.startedSession 0 false).completeCurrentTask.setGoalStatus .completed
  { s.snapshot .empty with evidence := [healthyEvidence] }

theorem completedSession_kept : copySession plainCodec completedSession = .ok completedSession := by
  refine (copySession_eq_self plainCodec (s := completedSession) ?_).mpr (by decide +kernel)
  let s := (Persistence.startedSession 0 false).completeCurrentTask.setGoalStatus .completed
  have hc : Coherent (s.snapshot .empty) := (Produced.session s .empty).coherent
  exact ⟨hc.ids_nodup, hc.current, hc.tasks, hc.domains⟩

def completedStore : SessionStore (memoryBackend plainCodec) :=
  memoryStoreOf completedSession completedSession_kept

def upgradedDomain : DomainComposition := ⟨[⟨"local", "2"⟩], by decide⟩

theorem completedStore_rejects :
    ∃ result store', openSession completedStore none upgradedDomain (fun _ => []) "session-1"
      ⟨.empty, .empty⟩ = .ok (.rejected result store') := by
  have hload : completedStore.loadSession "session-1" = .ok completedSession :=
    loadSession_memoryStoreOf completedSession completedSession_kept
  have hdomains : validateSnapshotDomains completedSession upgradedDomain
      = .error "session domains local@1 do not match local@2" := by decide +kernel
  obtain ⟨result, store', h⟩ := rejectSession_memory hload
    "session domains local@1 do not match local@2"
  refine ⟨result, store', ?_⟩
  rw [openSession, loadOrRebuild_of_ok hload, Except.ok_bind, hydrateSession, hdomains]
  simp only [h]
  rfl

theorem rejection_keeps_iff_upgraded :
    ∃ (store' : SessionStore (memoryBackend plainCodec)) (after : SessionSnapshot),
      store'.loadSession "session-1" = .ok after ∧
      (FailureOnly completedSession after ↔ NothingToLose completedSession) := by
  obtain ⟨result, store', h⟩ := completedStore_rejects
  exact ⟨store', rejection_keeps_iff
    (loadSession_memoryStoreOf completedSession completedSession_kept) h⟩

/-- A completed session whose domain has moved on to another version: the next call on it leaves
it failed and without its evidence. -/
theorem rejection_loses_data :
    ∃ result store' after,
      completedStore.loadSession "session-1" = .ok completedSession ∧
      openSession completedStore none upgradedDomain (fun _ => []) "session-1" ⟨.empty, .empty⟩
        = .ok (.rejected result store') ∧
      store'.loadSession "session-1" = .ok after ∧
      completedSession.evidence ≠ [] ∧ after.evidence = [] ∧
      completedSession.state.goal.status = .completed ∧ after.state.goal.status = .failed ∧
      ¬ FailureOnly completedSession after := by
  have hload : completedStore.loadSession "session-1" = .ok completedSession :=
    loadSession_memoryStoreOf completedSession completedSession_kept
  obtain ⟨result, store', h⟩ := completedStore_rejects
  obtain ⟨reason, hafter⟩ := loadSession_rejected hload h
  refine ⟨result, store', _, hload, h, hafter, List.cons_ne_nil _ _, rfl, rfl, rfl, fun hf => ?_⟩
  have := hf.settled (.inl rfl)
  cases this

end UniversalAgent.Runtime
