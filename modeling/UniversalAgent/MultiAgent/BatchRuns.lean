import UniversalAgent.MultiAgent.BatchWaves
import UniversalAgent.MultiAgent.Settlement

/-!
# MultiAgent — BatchRuns

Whole runs of a batch, beside any other use of its orchestrator: how often and when executors are
started, what is skipped, what is returned, and that it is returned.
-/

namespace UniversalAgent.MultiAgent

open UniversalAgent.Core UniversalAgent.Foundation

variable {R : TopologicalSorter AgentTaskId} {callId : CallId} {agentId : Option AgentId}
  {m : DelegationManager} {spec : AgentDelegationSpec} {b : Batch} {specs : List AgentDelegationSpec}

variable (numberText : Amount → String)

/-! ## Tasks of a wave -/

section Tasks

variable {b : Batch}

variable {t : SpecTask}

theorem mem_setTask {id : AgentTaskId} {state : SpecTaskState} :
    t ∈ (b.setTask id state).tasks ↔
      (∃ t' ∈ b.tasks, t'.spec.taskId = id ∧ t = { t' with state }) ∨
        t ∈ b.tasks ∧ t.spec.taskId ≠ id := by
  unfold Batch.setTask
  rw [List.mem_map]
  constructor
  · rintro ⟨t', ht', rfl⟩
    by_cases hid : t'.spec.taskId = id
    · exact .inl ⟨t', ht', hid, if_pos hid⟩
    · exact .inr (by rw [if_neg hid]; exact ⟨ht', hid⟩)
  · rintro (⟨t', ht', hid, rfl⟩ | ⟨ht, hid⟩)
    · exact ⟨t', ht', if_pos hid⟩
    · exact ⟨t, ht, if_neg hid⟩

theorem map_spec_setTask (b : Batch) (id : AgentTaskId) (state : SpecTaskState) :
    (b.setTask id state).tasks.map SpecTask.spec = b.tasks.map SpecTask.spec := by
  unfold Batch.setTask
  rw [List.map_map]
  refine List.map_congr_left fun t _ => ?_
  by_cases hid : t.spec.taskId = id <;> simp [hid]

theorem mem_setTask_of_nodup (hnodup : (b.tasks.map fun t => t.spec.taskId).Nodup)
    {task : SpecTask} (htask : task ∈ b.tasks) {state : SpecTaskState}
    (ht : t ∈ (b.setTask task.spec.taskId state).tasks) :
    t = ⟨task.spec, state⟩ ∨ t ∈ b.tasks ∧ t.spec.taskId ≠ task.spec.taskId := by
  rcases mem_setTask.mp ht with ⟨t', ht', hid, rfl⟩ | hother
  · have heq : t' = task := List.inj_on_of_nodup_map hnodup ht' htask hid
    exact .inl (by rw [heq])
  · exact .inr hother

theorem Loop.setTask (h : Loop R b) (id : AgentTaskId)
    (state : SpecTaskState) : Loop R (b.setTask id state) :=
  ⟨h.between, h.graph, h.sorter, h.ready, h.results, h.own, h.skipped, h.rejected,
    (map_spec_setTask b id state).trans h.tasks⟩

theorem waitingTask_spec {id : AgentTaskId} (h : b.waitingTask id = some t) :
    t ∈ b.tasks ∧ t.spec.taskId = id ∧ t.state = .waiting :=
  ⟨List.mem_of_find?_eq_some h, by simpa using List.find?_some h⟩

theorem executingTask_spec (h : b.executingTask callId = some t) :
    t ∈ b.tasks ∧ t.state = .executing callId :=
  ⟨List.mem_of_find?_eq_some h, by simpa using List.find?_some h⟩

theorem executingTask_none (h : b.executingTask callId = none) :
    ∀ t ∈ b.tasks, t.state ≠ .executing callId := by
  intro t ht
  have hne := List.find?_eq_none.mp h t ht
  simpa using hne

end Tasks

/-! ## Steps of the orchestrator under a batch -/

section Calls

variable {s : Orchestration}

theorem call_stays (hknown : Known s) (i : OrchestrationInput) {call : Call} (hcall : call ∈ s.calls)
    (hi : ∀ outcome, i ≠ .ended call.callId outcome) : call ∈ (s.step numberText i).2.calls := by
  have hstep := step_spec numberText hknown i
  generalize (s.step numberText i).1 = answer, (s.step numberText i).2 = s' at hstep ⊢
  cases hstep with
  | idle _ _ => exact hcall
  | unopened new selected reserved raised => exact hcall
  | opened new selected reserved awaits =>
    have hid := (openDelegation_awaits awaits).1
    refine Table.mem_put.mpr (.inr ⟨hcall, ?_⟩)
    rw [hid]
    exact Table.get?_eq_none.mp new call hcall
  | @ended callId _ _ outcome inFlight freed =>
    refine Table.mem_erase.mpr ⟨hcall, ?_⟩
    rintro rfl
    exact hi outcome rfl
  | registry ok => exact hcall
  | registerExecutor executors => exact hcall
  | manager c _ => exact hcall
  | replaced ok => exact hcall

variable {id : DelegationId}

theorem started_call (hknown : Known s) {request : AgentTaskRequest}
    (h : (s.step numberText (.delegate callId request agentId id)).1 = .awaits) :
    s.calls.get? callId = none ∧
      ∃ call ∈ (s.step numberText (.delegate callId request agentId id)).2.calls,
        call.callId = callId ∧ call.request = request := by
  have hstep := step_spec numberText hknown (.delegate callId request agentId id)
  generalize (s.step numberText (.delegate callId request agentId id)).1 = answer,
    (s.step numberText (.delegate callId request agentId id)).2 = s' at hstep h ⊢
  cases hstep with
  | idle _ hanswer => exact absurd h hanswer
  | unopened new selected reserved raised => cases h
  | opened new selected reserved awaits =>
    obtain ⟨hid, -, hrequest, -⟩ := openDelegation_awaits awaits
    exact ⟨new, _, Table.mem_put_self _ _, hid, hrequest⟩

theorem sees_raised {request : AgentTaskRequest}
    {seen : Outcome}
    (h : (s.step numberText (.delegate callId request agentId id)).1 = .sees seen) :
    ∃ e, seen = .raised e := by
  have hfail : ∀ (m : DelegationManager) (d : DelegationId) (e : AgentException),
      ∃ e', (Orchestrator.failWith m d e).1 = .raised e' := by
    intro m d e
    unfold Orchestrator.failWith
    split
    · exact ⟨_, rfl⟩
    · exact ⟨_, rfl⟩
  have hopen : ∀ (o : Orchestrator) (agent : AgentId) (seen' : Outcome),
      (o.openDelegation callId request agent id).1 = .error seen' → ∃ e, seen' = .raised e := by
    intro o agent seen' hseen
    unfold Orchestrator.openDelegation at hseen
    split at hseen
    · cases hseen
      exact ⟨_, rfl⟩
    · split at hseen
      · cases hseen
        exact ⟨_, rfl⟩
      · split at hseen
        · cases hseen
          exact hfail _ _ _
        · cases hseen
  simp only [Orchestration.step] at h
  split at h
  · cases h
  · obtain ⟨e, he⟩ | ⟨i, o, -, -, -, hbegin⟩ :=
      Orchestrator.beginDelegate_spec s.orchestrator callId request agentId id
    · rw [he] at h
      cases h
      exact ⟨e, rfl⟩
    · rw [hbegin] at h
      split at h
      · cases h
      · next hresult =>
          cases h
          exact hopen o _ _ (congrArg Prod.fst hresult)

/-- What is returned is what the executor returned, and a completed result is that of the task of
the delegation. -/
theorem settle_returned {outcome : Outcome}
    {r : AgentTaskResult} (h : (Orchestrator.settle m id outcome).1 = .returned r) :
    outcome = .returned r ∧ (r.status = .completed →
      ∃ d, m.delegations.get? id = some d ∧ r.taskId = d.taskId) := by
  have hfail : ∀ (m : DelegationManager) (e : AgentException),
      (Orchestrator.failWith m id e).1 ≠ .returned r := by
    intro m e hr
    unfold Orchestrator.failWith at hr
    split at hr <;> cases hr
  cases outcome with
  | cancelled => cases h
  | raised e => exact absurd h (hfail m e)
  | returned result =>
    by_cases hcompleted : result.status = .completed
    · rw [settle_completed m _ hcompleted] at h
      split at h
      · next d m' hcomplete =>
          cases h
          refine ⟨rfl, fun _ => ?_⟩
          unfold DelegationManager.complete at hcomplete
          split at hcomplete
          · cases hcomplete
          · next current hget =>
              split at hcomplete
              · cases hcomplete
              · split at hcomplete
                · cases hcomplete
                · next htask =>
                    obtain ⟨hmem, hid⟩ := get_ok hget
                    exact ⟨current, Table.get?_eq_some.mpr ⟨hmem, hid⟩, not_not.mp htask⟩
      · exact absurd h (hfail _ _)
    · rw [settle_unfinished m _ hcompleted] at h
      split at h
      · cases h
        exact ⟨rfl, fun hc => absurd hc hcompleted⟩
      · exact absurd h (hfail _ _)

theorem settle_cancelled {outcome : Outcome}
    (h : (Orchestrator.settle m id outcome).1 = .cancelled) : outcome = .cancelled := by
  have hfail : ∀ (m : DelegationManager) (e : AgentException),
      (Orchestrator.failWith m id e).1 ≠ .cancelled := by
    intro m e hr
    unfold Orchestrator.failWith at hr
    split at hr <;> cases hr
  cases outcome with
  | cancelled => rfl
  | raised e => exact absurd h (hfail m e)
  | returned result =>
    by_cases hcompleted : result.status = .completed
    · rw [settle_completed m _ hcompleted] at h
      split at h
      · cases h
      · exact absurd h (hfail _ _)
    · rw [settle_unfinished m _ hcompleted] at h
      split at h
      · cases h
      · exact absurd h (hfail _ _)

end Calls

/-! ## Behaved executors -/

/-- A result of the task, or a completed one of another task, which the delegation refuses, or an
exception that is caught. -/
def Outcome.behaved (request : AgentTaskRequest) : Outcome → Prop
  | .returned r => r.taskId = request.taskId ∨ r.status = .completed ∧
      ∀ maxCost ∈ request.constraints.maxCost, r.usage.estimatedCost ≤ maxCost
  | .raised _ => True
  | .cancelled => False

/-- Delegations have new ids, and the executors of the batch behave. -/
def Behaved (_ : List (BatchInput × Option OrchestrationAnswer)) (s : BatchRun) : BatchInput → Prop
  | .start _ _ id => Text.isBlank id = false ∧
      s.orchestration.orchestrator.manager.delegations.get? id = none
  | .advance => True
  | .other (.ended callId outcome) =>
    ∀ task ∈ s.batch.executingTask callId, outcome.behaved task.spec.request
  | .other i => NewIds [] s.orchestration i

/-- What the limits make of a behaved outcome is a result of the task or a completed one, or an
exception. -/
theorem limited_behaved {request : AgentTaskRequest} {outcome : Outcome}
    (h : outcome.behaved request) :
    Orchestrator.limited numberText request outcome ≠ .cancelled ∧
      ∀ r, Orchestrator.limited numberText request outcome = .returned r →
        r.taskId = request.taskId ∨ r.status = .completed := by
  have hlimits := Orchestrator.limited_spec numberText request outcome
  generalize hseen : Orchestrator.limited numberText request outcome = seen at hlimits ⊢
  cases hlimits with
  | kept =>
    refine ⟨?_, ?_⟩
    · rintro rfl
      exact h
    · rintro r rfl
      exact h.imp_right And.left
  | timedOut text failed task =>
    refine ⟨by simp, ?_⟩
    rintro _ ⟨⟩
    exact .inl task
  | @tooDear r' r completed failed task =>
    refine ⟨by simp, ?_⟩
    rintro _ ⟨⟩
    rcases h with hid | ⟨-, hcheap⟩
    · exact .inl (task.trans hid)
    · -- a completed result within the limit is left alone
      have hkept : Orchestrator.limited numberText request (.returned r') = .returned r' := by
        simp only [Orchestrator.limited, Orchestrator.executeAgentTask,
          Orchestrator.enforceCostLimit]
        split
        · rfl
        · next maxCost hmax => rw [if_pos (.inr (hcheap maxCost hmax))]
      cases hkept.symm.trans hseen
      rw [completed] at failed
      cases failed

/-- The call of a task whose executor behaves comes to a result of the task. -/
theorem ended_own {s : Orchestration} (hflight : InFlight s) {call : Call} (hcall : call ∈ s.calls)
    (hrequest : call.request = spec.request) {outcome seen : Outcome}
    (h : outcome.behaved spec.request)
    (hseen : (s.step numberText (.ended call.callId outcome)).1 = .sees seen) :
    ∃ r, delegateSpecWithTracking spec seen = .returned r ∧ r.taskId = spec.taskId := by
  obtain ⟨registry, -, hfinish⟩ :=
    Orchestrator.finishDelegate_spec numberText outcome (hflight.known call hcall)
  simp only [Orchestration.step, Table.get?_of_mem hcall, hfinish,
    OrchestrationAnswer.sees.injEq, hrequest] at hseen
  obtain ⟨hnotcancelled, hown⟩ := limited_behaved numberText h
  cases seen with
  | cancelled => exact absurd (settle_cancelled hseen) hnotcancelled
  | raised e => exact delegateSpecWithTracking_raised spec e
  | returned r =>
    refine ⟨r, rfl, ?_⟩
    obtain ⟨hlimited, hcompleted⟩ := settle_returned hseen
    refine (hown r hlimited).elim id fun hstatus => ?_
    obtain ⟨d, hd, hid⟩ := hcompleted hstatus
    obtain ⟨d', hd', htask, -⟩ := hflight.held call hcall
    rw [hd] at hd'
    cases hd'
    rw [hid, htask, hrequest]
    rfl

/-! ## Starts -/

def startedBy : BatchInput × Option OrchestrationAnswer → Option AgentTaskId
  | (.start id _ _, some .awaits) => some id
  | _ => none

def startCount (h : List (BatchInput × Option OrchestrationAnswer)) (id : AgentTaskId) : Nat :=
  (h.filterMap startedBy).count id

theorem startCount_snoc (h : List (BatchInput × Option OrchestrationAnswer))
    (x : BatchInput × Option OrchestrationAnswer) (id : AgentTaskId) :
    startCount (h ++ [x]) id = startCount h id + if startedBy x = some id then 1 else 0 := by
  unfold startCount
  rw [List.filterMap_append, List.count_append]
  congr 1
  cases hx : startedBy x with
  | none => simp [hx]
  | some id' =>
    rw [List.filterMap_cons_some hx, List.filterMap_nil, List.count_singleton]
    simp

/-! ## The invariant -/

def DepsCompleted (b : Batch) (spec : AgentDelegationSpec) : Prop :=
  ∀ dep ∈ spec.dependsOn, ∃ r, b.results.result? dep = some r ∧ r.status = .completed

/-- A ready or finished spec with no failed dependency has only completed ones. -/
theorem Loop.deps_completed (hloop : Loop R b)
    (hspec : spec ∈ b.specs)
    (hid : spec.taskId ∈ R.finished ∨ spec.taskId ∈ R.ready)
    (hfree : hasFailedDependency spec b.results = false) : DepsCompleted b spec := by
  intro dep hdep
  have hfinished := deps_finished hloop.between hloop.graph hspec hid dep hdep
  obtain ⟨r, hr⟩ := Option.isSome_iff_exists.mp ((hloop.results dep).mpr (.inl hfinished))
  refine ⟨r, hr, ?_⟩
  by_contra hstatus
  exact absurd (hasFailedDependency_iff.mpr ⟨dep, hdep, r, hr, hstatus⟩) (by simp [hfree])

structure Begun (b : Batch) (spec : AgentDelegationSpec) : Prop where
  mem : spec ∈ b.specs
  out : spec.taskId ∈ b.sorter.passedOut
  deps : DepsCompleted b spec
  task : ∀ t ∈ b.tasks, t.spec.taskId = spec.taskId → t.state ≠ .waiting

def SpecTask.Fits (t : SpecTask) : Prop :=
  t.state ≠ .broken ∧ ∀ r, t.state = .done r → r.taskId = t.spec.taskId

structure BatchInv (specs : List AgentDelegationSpec)
    (h : List (BatchInput × Option OrchestrationAnswer)) (s : BatchRun) : Prop where
  flight : InFlight s.orchestration
  same : s.batch.specs = specs
  wave : ∃ k, Loop ((TopologicalSorter.start (dependencyGraph specs)).rounds k) s.batch
  once : ∀ id, startCount h id ≤ 1
  begun : ∀ id, startCount h id ≠ 0 → ∃ spec, spec.taskId = id ∧ Begun s.batch spec
  fits : ∀ t ∈ s.batch.tasks, t.Fits
  executing : ∀ t ∈ s.batch.tasks, ∀ callId, t.state = .executing callId →
    ∃ call ∈ s.orchestration.calls, call.callId = callId ∧ call.request = t.spec.request
  apart : ∀ t ∈ s.batch.tasks, ∀ t' ∈ s.batch.tasks, ∀ callId, t.state = .executing callId →
    t'.state = .executing callId → t = t'
  ended : s.batch.ended = none ∨ s.batch.tasks = [] ∧
    ∃ result, s.batch.ended = some (.returned result) ∧ Answered s.batch result

namespace BatchInv

variable {numberText} {specs : List AgentDelegationSpec}
  {h h' : List (BatchInput × Option OrchestrationAnswer)} {s : BatchRun}

variable {o : Orchestration}

/-- The orchestrator moves on, and the calls of the batch stay in flight. -/
theorem frame (hinv : BatchInv specs h s) (hstarts : ∀ id, startCount h' id = startCount h id)
    (hflight : InFlight o)
    (hcalls : ∀ t ∈ s.batch.tasks, ∀ callId, t.state = .executing callId →
      ∀ call ∈ s.orchestration.calls, call.callId = callId → call ∈ o.calls) :
    BatchInv specs h' ⟨o, s.batch⟩ where
  flight := hflight
  same := hinv.same
  wave := hinv.wave
  once := fun id => (hstarts id).symm ▸ hinv.once id
  begun := fun id hid => hinv.begun id (hstarts id ▸ hid)
  fits := hinv.fits
  executing := by
    intro t ht callId hstate
    obtain ⟨call, hcall, hid, hrequest⟩ := hinv.executing t ht callId hstate
    exact ⟨call, hcalls t ht callId hstate call hcall hid, hid, hrequest⟩
  apart := hinv.apart
  ended := hinv.ended

/-- The task of a spec of the wave gets a state that is not `waiting`. -/
theorem setTask (hinv : BatchInv specs h s) (hwf : WellFormed specs) {task : SpecTask}
    (htask : task ∈ s.batch.tasks) (honce : ∀ id, startCount h' id ≤ 1)
    (hstarts : ∀ id, startCount h' id ≠ 0 → startCount h id ≠ 0 ∨ id = task.spec.taskId)
    {state : SpecTaskState} (hfits : SpecTask.Fits ⟨task.spec, state⟩) (hwaiting : state ≠ .waiting)
    (hflight : InFlight o)
    (hexecuting : ∀ callId, state = .executing callId →
      s.orchestration.calls.get? callId = none ∧
        ∃ call ∈ o.calls, call.callId = callId ∧ call.request = task.spec.request)
    (hcalls : ∀ t ∈ s.batch.tasks, t.spec.taskId ≠ task.spec.taskId → ∀ callId,
      t.state = .executing callId → ∀ call ∈ s.orchestration.calls, call.callId = callId →
        call ∈ o.calls) :
    BatchInv specs h' ⟨o, s.batch.setTask task.spec.taskId state⟩ := by
  obtain ⟨k, hloop⟩ := hinv.wave
  have hwf' : WellFormed s.batch.specs := hinv.same.symm ▸ hwf
  have hmem : ∀ {t}, t ∈ (s.batch.setTask task.spec.taskId state).tasks →
      t = ⟨task.spec, state⟩ ∨ t ∈ s.batch.tasks ∧ t.spec.taskId ≠ task.spec.taskId :=
    fun ht => mem_setTask_of_nodup (hloop.tasks_nodup hwf') htask ht
  -- a task that executes in both states has its call in flight before
  have hfresh : ∀ t ∈ s.batch.tasks, ∀ callId, t.state = .executing callId →
      state ≠ .executing callId := by
    intro t ht callId hstate hnew
    obtain ⟨call, hcall, hid, -⟩ := hinv.executing t ht callId hstate
    exact Table.get?_eq_none.mp (hexecuting callId hnew).1 call hcall hid
  refine ⟨hflight, hinv.same, ⟨k, hloop.setTask _ _⟩, honce, fun id hid => ?_, fun t ht => ?_,
    fun t ht callId hstate => ?_, fun t ht t' ht' callId hstate hstate' => ?_, ?_⟩
  · have hnot : ∀ spec : AgentDelegationSpec, (∀ t ∈ s.batch.tasks,
        t.spec.taskId = spec.taskId → t.spec.taskId ≠ task.spec.taskId → t.state ≠ .waiting) →
        ∀ t ∈ (s.batch.setTask task.spec.taskId state).tasks,
          t.spec.taskId = spec.taskId → t.state ≠ .waiting := by
      intro spec hold t ht heq
      rcases hmem ht with rfl | ⟨ht, hne⟩
      · exact hwaiting
      · exact hold t ht heq hne
    rcases hstarts id hid with hbefore | rfl
    · obtain ⟨spec, hspec, hbegun⟩ := hinv.begun id hbefore
      exact ⟨spec, hspec, hbegun.mem, hbegun.out, hbegun.deps,
        hnot spec fun t ht heq _ => hbegun.task t ht heq⟩
    · have hready := (hloop.tasks_mem hwf').mp (List.mem_map_of_mem htask)
      refine ⟨task.spec, rfl, hready.1.1, ?_, hloop.deps_completed hready.1.1 (.inr hready.1.2)
        hready.2, hnot task.spec fun t _ heq hne => absurd heq hne⟩
      show task.spec.taskId ∈ s.batch.sorter.passedOut
      rw [hloop.sorter]
      exact List.mem_append_right _ hready.1.2
  · rcases hmem ht with rfl | ⟨ht, -⟩
    · exact hfits
    · exact hinv.fits t ht
  · rcases hmem ht with rfl | ⟨ht, hne⟩
    · exact (hexecuting callId hstate).2
    · obtain ⟨call, hcall, hid, hrequest⟩ := hinv.executing t ht callId hstate
      exact ⟨call, hcalls t ht hne callId hstate call hcall hid, hid, hrequest⟩
  · rcases hmem ht with rfl | ⟨ht, -⟩ <;> rcases hmem ht' with rfl | ⟨ht', -⟩
    · rfl
    · exact absurd hstate (hfresh t' ht' callId hstate')
    · exact absurd hstate' (hfresh t ht callId hstate)
    · exact hinv.apart t ht t' ht' callId hstate hstate'
  · rcases hinv.ended with hnone | ⟨hempty, -⟩
    · exact .inl hnone
    · rw [hempty] at htask
      cases htask

/-- Before an iteration: no executor that was started is among what is ready. -/
theorem ofIterate (hwf : WellFormed specs) {k : Nat}
    (hidle : Idle ((TopologicalSorter.start (dependencyGraph specs)).rounds k) b)
    (hsame : b.specs = specs) (hended : b.ended = none) (hflight : InFlight o)
    (honce : ∀ id, startCount h' id ≤ 1)
    (hbegun : ∀ id, startCount h' id ≠ 0 → ∃ spec ∈ specs, spec.taskId = id ∧
      id ∈ ((TopologicalSorter.start (dependencyGraph specs)).rounds k).finished ∧
        DepsCompleted b spec) :
    BatchInv specs h' ⟨o, b.iterate⟩ := by
  generalize hR : (TopologicalSorter.start (dependencyGraph specs)).rounds k = R at hidle hbegun
  have hwf' : WellFormed b.specs := hsame.symm ▸ hwf
  -- what both ends of an iteration share
  have hbegun' : Loop R b.iterate → b.iterate.specs = b.specs →
      (∀ id ∉ R.ready, b.iterate.results.result? id = b.results.result? id) →
      (∀ t ∈ b.iterate.tasks, t.spec.taskId ∈ R.ready) → ∀ id, startCount h' id ≠ 0 →
        ∃ spec, spec.taskId = id ∧ Begun b.iterate spec := by
    intro hloop hspecs hkept htasks id hid
    obtain ⟨spec, hspec, rfl, hfinished, hdeps⟩ := hbegun id hid
    refine ⟨spec, rfl, hspecs ▸ hsame ▸ hspec, ?_, fun dep hdep => ?_, fun t ht heq => ?_⟩
    · rw [hloop.sorter]
      exact List.mem_append_left _ (hidle.between.settled ▸ hfinished)
    · obtain ⟨r, hr, hstatus⟩ := hdeps dep hdep
      have hdone := deps_finished hidle.between hidle.graph (hsame.symm ▸ hspec) (.inl hfinished)
        dep hdep
      exact ⟨r, (hkept dep fun hready => ready_not_finished hidle.between hready hdone).trans hr,
        hstatus⟩
    · exact absurd hfinished (ready_not_finished hidle.between (heq ▸ htasks t ht))
  by_cases hready : R.ready = []
  · obtain ⟨hloop, hspecs, hempty, hresults, result, hreturned, hanswered⟩ :=
      hidle.iterate_done hwf' hready
    exact ⟨hflight, hspecs.trans hsame, ⟨k, hR.symm ▸ hloop⟩, honce,
      hbegun' hloop hspecs (fun id _ => by rw [hresults]) (by simp [hempty]),
      by simp [hempty], by simp [hempty], by simp [hempty],
      .inr ⟨hempty, result, hreturned, hanswered⟩⟩
  · obtain ⟨hloop, hspecs, hended', hwaiting, hkept⟩ := hidle.iterate_active hwf' hended hready
    have htasks : ∀ t ∈ b.iterate.tasks, t.spec.taskId ∈ R.ready := fun t ht =>
      ((hloop.tasks_mem (hspecs.symm ▸ hwf')).mp (List.mem_map_of_mem ht)).1.2
    refine ⟨hflight, hspecs.trans hsame, ⟨k, hR.symm ▸ hloop⟩, honce,
      hbegun' hloop hspecs hkept htasks, fun t ht => ?_, fun t ht callId hstate => ?_,
      fun t ht t' ht' callId hstate => ?_, .inl hended'⟩
    · exact ⟨by rw [hwaiting t ht]; simp, fun r hr => absurd (hwaiting t ht ▸ hr) (by simp)⟩
    · exact absurd (hwaiting t ht ▸ hstate) (by simp)
    · exact absurd (hwaiting t ht ▸ hstate) (by simp)

theorem allOwn (hinv : BatchInv specs h s) (hdone : s.batch.allDone = true) : AllOwn s.batch := by
  intro t ht
  have hstate := List.all_eq_true.mp hdone t ht
  cases hs : t.state with
  | done r => exact ⟨r, rfl, (hinv.fits t ht).2 r hs⟩
  | waiting => simp [hs] at hstate
  | executing callId => simp [hs] at hstate
  | broken => simp [hs] at hstate

/-- The loop goes on with the next wave, or returns. -/
theorem advance (hinv : BatchInv specs h s) (hwf : WellFormed specs)
    (hended : s.batch.ended = none) (hdone : s.batch.allDone = true)
    (hstarts : ∀ id, startCount h' id = startCount h id) :
    BatchInv specs h' ⟨s.orchestration, s.batch.advance⟩ := by
  obtain ⟨k, hloop⟩ := hinv.wave
  have hwf' : WellFormed s.batch.specs := hinv.same.symm ▸ hwf
  have hown := hinv.allOwn hdone
  refine ofIterate (k := k + 1) hwf (hloop.recorded hwf' hown) hinv.same hended hinv.flight
    (fun id => (hstarts id).symm ▸ hinv.once id) fun id hid => ?_
  obtain ⟨spec, hspec, hbegun⟩ := hinv.begun id (hstarts id ▸ hid)
  refine ⟨spec, hinv.same ▸ hbegun.mem, hspec, ?_, fun dep hdep => ?_⟩
  · have hout := hbegun.out
    rw [hloop.sorter] at hout
    rw [TopologicalSorter.rounds, (TopologicalSorter.round_frame _).2.2, ← hspec,
      ← hloop.between.settled]
    exact hout
  · obtain ⟨r, hr, hstatus⟩ := hbegun.deps dep hdep
    exact ⟨r, hloop.results_kept hwf' hown hr, hstatus⟩

/-- The orchestrator does something else than to end a call. -/
theorem other (hinv : BatchInv specs h s) {i : OrchestrationInput}
    (hi : ∀ callId outcome, i ≠ .ended callId outcome) (hnew : NewIds [] s.orchestration i)
    (hstarts : ∀ id, startCount h' id = startCount h id) :
    BatchInv specs h' ⟨(s.orchestration.step numberText i).2, s.batch⟩ :=
  hinv.frame hstarts (hinv.flight.step hnew) fun _ _ _ _ _ hcall _ =>
    call_stays numberText hinv.flight.known i hcall (hi _)

theorem start (hinv : BatchInv specs h s) (hwf : WellFormed specs) (taskId : AgentTaskId)
    (callId : CallId) (id : DelegationId) (hi : Behaved h s (.start taskId callId id)) :
    BatchInv specs (h ++ [(.start taskId callId id, (s.step numberText (.start taskId callId id)).1)])
      (s.step numberText (.start taskId callId id)).2 := by
  have hquiet : ∀ answer, answer ≠ some .awaits → ∀ id',
      startCount (h ++ [(.start taskId callId id, answer)]) id' = startCount h id' := by
    intro answer hanswer id'
    rw [startCount_snoc]
    have hnone : startedBy (.start taskId callId id, answer) = none := by
      unfold startedBy
      split
      · next heq =>
          cases heq
          exact absurd rfl hanswer
      · rfl
    simp [hnone]
  have hsame : BatchInv specs (h ++ [(.start taskId callId id, none)]) s :=
    hinv.frame (hquiet none (by simp)) hinv.flight fun _ _ _ _ _ hcall _ => hcall
  simp only [BatchRun.step]
  cases hwaiting : s.batch.waitingTask taskId with
  | none => exact hsame
  | some task =>
    obtain ⟨htask, rfl, hstate⟩ := waitingTask_spec hwaiting
    have hknown := hinv.flight.known
    have hflight : InFlight (s.orchestration.step numberText
        (.delegate callId task.spec.request task.spec.agentId id)).2 := hinv.flight.step hi
    have hcalls : ∀ t ∈ s.batch.tasks, t.spec.taskId ≠ task.spec.taskId → ∀ callId',
        t.state = .executing callId' → ∀ call ∈ s.orchestration.calls, call.callId = callId' →
          call ∈ (s.orchestration.step numberText
            (.delegate callId task.spec.request task.spec.agentId id)).2.calls :=
      fun _ _ _ _ _ _ hcall _ => call_stays numberText hknown _ hcall (by simp)
    have hunstarted : startCount h task.spec.taskId = 0 := by
      by_contra hne
      obtain ⟨spec, hspec, hbegun⟩ := hinv.begun _ hne
      exact hbegun.task task htask hspec.symm hstate
    simp only [BatchRun.begins]
    split
    · next hawaits =>
        obtain ⟨hnew, hcall⟩ := started_call numberText hknown hawaits
        have hstarted : ∀ id', startCount (h ++ [(.start task.spec.taskId callId id,
            some .awaits)]) id' = startCount h id' + if task.spec.taskId = id' then 1 else 0 :=
          fun id' => by rw [startCount_snoc]; simp [startedBy]
        refine hinv.setTask hwf htask (fun id' => ?_) (fun id' hid' => ?_) ⟨by simp, by simp⟩
          (by simp) hflight (fun callId' heq => ?_) hcalls
        · rw [hstarted id']
          have honce := hinv.once id'
          by_cases heq : task.spec.taskId = id'
          · rw [← heq, hunstarted, if_pos rfl]
          · rw [if_neg heq]
            omega
        · rw [hstarted id'] at hid'
          by_cases heq : task.spec.taskId = id'
          · exact .inr heq.symm
          · rw [if_neg heq] at hid'
            exact .inl hid'
        · cases heq
          exact ⟨hnew, hcall⟩
    · next seen hsees =>
        obtain ⟨e, rfl⟩ := sees_raised numberText hsees
        obtain ⟨r, hr, hown⟩ := delegateSpecWithTracking_raised task.spec e
        have hstarts := hquiet (some (.sees (.raised e))) (by simp)
        simp only [Batch.taskEnds, hr]
        exact hinv.setTask hwf htask (fun id' => (hstarts id').symm ▸ hinv.once id')
          (fun id' hid' => .inl (hstarts id' ▸ hid')) ⟨by simp, by rintro _ ⟨⟩; exact hown⟩
          (by simp) hflight (by simp) hcalls
    · exact hsame

theorem ended_batch (hinv : BatchInv specs h s) {callId : CallId} {outcome : Outcome}
    (hi : Behaved h s (.other (.ended callId outcome))) {task : SpecTask}
    (hexecuting : s.batch.executingTask callId = some task) :
    ∃ r, r.taskId = task.spec.taskId ∧
      BatchRun.observes s.batch (.ended callId outcome)
          (s.orchestration.step numberText (.ended callId outcome)).1
        = s.batch.setTask task.spec.taskId (.done r) := by
  obtain ⟨htask, hstate⟩ := executingTask_spec hexecuting
  obtain ⟨call, hcall, rfl, hrequest⟩ := hinv.executing task htask callId hstate
  obtain ⟨seen, hseen⟩ : ∃ seen,
      (s.orchestration.step numberText (.ended call.callId outcome)).1 = .sees seen := by
    simp only [Orchestration.step, Table.get?_of_mem hcall]
    exact ⟨_, rfl⟩
  obtain ⟨r, hr, hown⟩ :=
    ended_own numberText hinv.flight hcall hrequest (hi task hexecuting) hseen
  refine ⟨r, hown, ?_⟩
  rw [hseen]
  simp only [BatchRun.observes, hexecuting, Batch.taskEnds, hr]

theorem observes_none (hnone : b.executingTask callId = none)
    (outcome : Outcome) (answer : OrchestrationAnswer) :
    BatchRun.observes b (.ended callId outcome) answer = b := by
  cases answer with
  | sees seen => simp only [BatchRun.observes, hnone]
  | _ => rfl

theorem call_ended (hinv : BatchInv specs h s) (hwf : WellFormed specs) (callId : CallId)
    (outcome : Outcome) (hi : Behaved h s (.other (.ended callId outcome)))
    (hstarts : ∀ id, startCount h' id = startCount h id) :
    BatchInv specs h' ⟨(s.orchestration.step numberText (.ended callId outcome)).2,
      BatchRun.observes s.batch (.ended callId outcome)
        (s.orchestration.step numberText (.ended callId outcome)).1⟩ := by
  have hflight : InFlight (s.orchestration.step numberText (.ended callId outcome)).2 :=
    hinv.flight.step trivial
  have hstays : ∀ callId', callId' ≠ callId → ∀ call ∈ s.orchestration.calls,
      call.callId = callId' →
        call ∈ (s.orchestration.step numberText (.ended callId outcome)).2.calls := by
    rintro _ hne call hcall rfl
    refine call_stays numberText hinv.flight.known _ hcall fun outcome' heq => ?_
    cases heq
    exact hne rfl
  cases hexecuting : s.batch.executingTask callId with
  | none =>
    rw [observes_none hexecuting]
    refine hinv.frame hstarts hflight fun t ht callId' hstate call hcall hid => ?_
    refine hstays callId' (fun heq => ?_) call hcall hid
    exact executingTask_none hexecuting t ht (heq ▸ hstate)
  | some task =>
    obtain ⟨htask, hstate⟩ := executingTask_spec hexecuting
    obtain ⟨r, hown, hbatch⟩ := hinv.ended_batch hi hexecuting
    rw [hbatch]
    refine hinv.setTask hwf htask (fun id => (hstarts id).symm ▸ hinv.once id)
      (fun id hid => .inl (hstarts id ▸ hid)) ⟨by simp, by rintro _ ⟨⟩; exact hown⟩ (by simp)
      hflight (by simp) fun t ht hne callId' hstate' call' hcall' hid' => ?_
    refine hstays callId' (fun heq => hne ?_) call' hcall' hid'
    rw [hinv.apart t ht task htask _ hstate' (heq ▸ hstate)]

theorem step (hinv : BatchInv specs h s) (hwf : WellFormed specs) (i : BatchInput)
    (hi : Behaved h s i) :
    BatchInv specs (h ++ [(i, (s.step numberText i).1)]) (s.step numberText i).2 := by
  have hquiet : ∀ answer, (∀ taskId callId id, i ≠ .start taskId callId id) → ∀ id,
      startCount (h ++ [(i, answer)]) id = startCount h id := by
    intro answer hne id
    rw [startCount_snoc]
    cases i with
    | start taskId callId id' => exact absurd rfl (hne taskId callId id')
    | advance => rfl
    | other i => rfl
  cases i with
  | start taskId callId id => exact hinv.start hwf taskId callId id hi
  | advance =>
    simp only [BatchRun.step]
    split
    · next hdone => exact hinv.advance hwf hdone.1 hdone.2 (hquiet _ (by simp))
    · exact hinv.frame (hquiet _ (by simp)) hinv.flight fun _ _ _ _ _ hcall _ => hcall
  | other i =>
    cases i with
    | ended callId outcome => exact hinv.call_ended hwf callId outcome hi (hquiet _ (by simp))
    | replaced => exact hinv.frame (hquiet _ (by simp)) hinv.flight fun _ _ _ _ _ hcall _ => hcall
    | delegate callId request agentId id => exact hinv.other (by simp) hi (hquiet _ (by simp))
    | registry c => exact hinv.other (by simp) hi (hquiet _ (by simp))
    | registerExecutor id => exact hinv.other (by simp) hi (hquiet _ (by simp))
    | manager c => exact hinv.other (by simp) hi (hquiet _ (by simp))

end BatchInv

/-! ## The beginning -/

def Batch.first (specs : List AgentDelegationSpec) : Batch :=
  Batch.iterate ⟨specs, .start (dependencyGraph specs), .empty, [], [], [], none⟩

theorem begin_ok (hne : specs ≠ []) (hwf : WellFormed specs) : Batch.begin specs = .ok (.first specs) := by
  unfold Batch.begin Batch.first
  rw [if_neg hne, (delegationSorter_iff specs _).mpr ⟨hwf, rfl⟩]

theorem idle_begin (specs : List AgentDelegationSpec) :
    Idle (.start (dependencyGraph specs))
      ⟨specs, .start (dependencyGraph specs), .empty, [], [], [], none⟩ where
  between := TopologicalSorter.between_start _
  graph := rfl
  sorter := rfl
  results := fun _ => iff_of_false (by simp [BatchResults.result?, Table.get?_empty])
    (by simp [TopologicalSorter.start])
  own := fun _ _ hr => by simp [BatchResults.result?, Table.get?_empty] at hr
  skipped := fun _ _ => iff_of_false (by simp) fun h => nomatch h.1
  rejected := fun _ hid => nomatch hid

theorem batchInv_begin (hwf : WellFormed specs)
    {o : Orchestration} (hflight : InFlight o) :
    BatchInv specs [] ⟨o, .first specs⟩ :=
  .ofIterate (k := 0) hwf (idle_begin specs) rfl rfl hflight (fun _ => Nat.zero_le 1)
    fun _ hid => absurd rfl hid

end UniversalAgent.MultiAgent
