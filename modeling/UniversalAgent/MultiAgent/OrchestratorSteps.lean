import UniversalAgent.MultiAgent.DelegationRuns
import UniversalAgent.MultiAgent.Orchestrator

/-!
# MultiAgent — OrchestratorSteps

What the two parts of `delegate` do to the registry, the limits and the delegations, one lemma for
each: the rest of the development rests on these and not on the definitions.
-/

namespace UniversalAgent.MultiAgent

open UniversalAgent.Core UniversalAgent.Foundation

variable {agentId : AgentId} {id : DelegationId} {i : AgentInstanceRecord} {o' : Orchestrator}

/-! ## Results -/

theorem isBlank_append {a b : String} (h : Text.isBlank a = false) :
    Text.isBlank (a ++ b) = false := by
  unfold Text.isBlank at *
  rw [String.toList_append, List.all_append, h, Bool.false_and]

/-- A result that is not completed is accepted if it has an id and a reason. -/
theorem AgentTaskResult.make_unfinished {taskId : AgentTaskId} {status : AgentTaskResultStatus}
    {reason : String} (result : JsonMapping) (evidenceIds : List EvidenceId)
    (sessionId : Option SessionId) (errorCode : Option ErrorCode) (usage : AgentTaskUsage)
    (hid : Text.isBlank taskId = false) (hstatus : status ≠ .completed)
    (hreason : Text.isBlank reason = false) :
    ∃ r, AgentTaskResult.make taskId status result evidenceIds reason sessionId errorCode usage
      = .ok r ∧ r.taskId = taskId ∧ r.status = status := by
  unfold AgentTaskResult.make
  rw [dif_pos hid, dif_pos fun h => absurd h hstatus, dif_pos fun _ => hreason]
  exact ⟨_, rfl, rfl, rfl⟩

theorem AgentTaskResult.make_blank {taskId : AgentTaskId} {reason : String} (result : JsonMapping)
    (evidenceIds : List EvidenceId) (sessionId : Option SessionId) (errorCode : Option ErrorCode)
    (usage : AgentTaskUsage) (hid : Text.isBlank taskId = false)
    (hreason : Text.isBlank reason = true) :
    AgentTaskResult.make taskId .failed result evidenceIds reason sessionId errorCode usage
      = .error (.value "non-completed agent task result requires reason") := by
  unfold AgentTaskResult.make
  rw [dif_pos hid, dif_pos (by simp), dif_neg (by simp [hreason])]

namespace Orchestrator

variable (numberText : Amount → String)

/-- The limits leave an outcome alone, or put a failed result in the place of a time-out or of a
completed result. -/
inductive Limits (request : AgentTaskRequest) : Outcome → Outcome → Prop where
  | kept (outcome : Outcome) : Limits request outcome outcome
  | timedOut (text : String) {r : AgentTaskResult} (failed : r.status = .failed)
      (task : r.taskId = request.taskId) : Limits request (.raised (.timeout text)) (.returned r)
  | tooDear {r' r : AgentTaskResult} (completed : r'.status = .completed)
      (failed : r.status = .failed) (task : r.taskId = r'.taskId) :
      Limits request (.returned r') (.returned r)

theorem enforceCostLimit_spec (request : AgentTaskRequest) (r' : AgentTaskResult) :
    Limits request (.returned r') (enforceCostLimit numberText request r') := by
  unfold enforceCostLimit
  split
  · exact .kept _
  · split
    · exact .kept _
    · next maxCost _ hover =>
        have hcompleted : r'.status = .completed := by
          by_contra hne
          exact hover (.inl hne)
        have hreason : Text.isBlank (costReason numberText maxCost r') = false :=
          isBlank_append (isBlank_append (isBlank_append (isBlank_append (isBlank_append
            (by decide)))))
        obtain ⟨r, hr, htask, hfailed⟩ := AgentTaskResult.make_unfinished r'.result
          r'.evidenceIds r'.sessionId (some .invalidState) r'.usage r'.id_filled
          (by decide : AgentTaskResultStatus.failed ≠ .completed) hreason
        rw [hr]
        exact .tooDear hcompleted hfailed htask

theorem enforceCostLimit_kept {request : AgentTaskRequest} {r : AgentTaskResult}
    (h : r.status ≠ .completed) : enforceCostLimit numberText request r = .returned r := by
  unfold enforceCostLimit
  split
  · rfl
  · rw [if_pos (.inl h)]

theorem executeAgentTask_timeout (request : AgentTaskRequest) (text : String) :
    ∃ r, executeAgentTask numberText request (.raised (.timeout text)) = .returned r ∧
      r.taskId = request.taskId ∧ r.status = .failed := by
  have hreason : Text.isBlank (durationReason numberText request) = false :=
    isBlank_append (by decide)
  obtain ⟨r, hr, htask, hfailed⟩ := AgentTaskResult.make_unfinished [] [] none (some .timeout) .none
    request.id_filled (by decide : AgentTaskResultStatus.failed ≠ .completed) hreason
  refine ⟨r, ?_, htask, hfailed⟩
  unfold executeAgentTask AgentTaskResult.unfinished
  simp only [hr]

theorem limited_spec (request : AgentTaskRequest) (outcome : Outcome) :
    Limits request outcome (limited numberText request outcome) := by
  cases outcome with
  | returned r' => exact enforceCostLimit_spec numberText request r'
  | cancelled => exact .kept _
  | raised e =>
    cases e with
    | timeout text =>
      obtain ⟨r, hr, htask, hfailed⟩ := executeAgentTask_timeout numberText request text
      have hlimited : limited numberText request (.raised (.timeout text)) = .returned r := by
        unfold limited
        simp only [hr]
        exact enforceCostLimit_kept numberText (by simp [hfailed])
      rw [hlimited]
      exact .timedOut text hfailed htask
    | _ => exact .kept _

end Orchestrator

/-! ## Calls on a delegation -/

def Settled (m : DelegationManager) (id : DelegationId) : Prop :=
  ∃ d, m.delegations.get? id = some d ∧ d.status.terminal = true

/-- What `fail` says of a delegation that is over. -/
def cannotFail (status : DelegationStatus) : AgentException :=
  .invalidDelegationTransition ("cannot fail delegation in status " ++ status.value)

section Delegation

variable {m : DelegationManager} {d : Delegation}

theorem get_of_mem (hd : d ∈ m.delegations) : m.get d.delegationId = .ok d := by
  unfold DelegationManager.get
  rw [Table.get?_of_mem hd]

theorem apply_ok (hd : Recordable d) (eventType : String) :
    (m.apply eventType d).1 = .ok d ∧ (m.apply eventType d).2.delegations = m.delegations.put d := by
  unfold DelegationManager.apply
  rw [event_ok hd]
  exact ⟨rfl, rfl⟩

theorem settled_put {m' : DelegationManager} {d : Delegation}
    (h : m'.delegations = m.delegations.put d) (ht : d.status.terminal = true) :
    Settled m' d.delegationId := ⟨d, by rw [h, Table.get?_put_self], ht⟩

theorem not_allowed_of_terminal {status target : DelegationStatus} (h : status.terminal = true) :
    target ∉ status.allowedTransitions := by
  rw [DelegationStatus.terminal, List.isEmpty_iff] at h
  rw [h]
  exact List.not_mem_nil

theorem fail_terminal (hd : d ∈ m.delegations) (ht : d.status.terminal = true) (error : String) :
    m.fail d.delegationId error = (.error (cannotFail d.status), m) := by
  unfold DelegationManager.fail
  rw [get_of_mem hd]
  simp only [not_allowed_of_terminal ht, not_false_eq_true, if_true]
  rfl

theorem complete_terminal (hd : d ∈ m.delegations) (ht : d.status.terminal = true)
    (result : AgentTaskResult) : ∃ e, m.complete d.delegationId result = (.error e, m) := by
  unfold DelegationManager.complete
  rw [get_of_mem hd]
  simp only [not_allowed_of_terminal ht, not_false_eq_true, if_true]
  exact ⟨_, rfl⟩

theorem fail_blank (hd : d ∈ m.delegations) (hrec : Recordable d) (hrun : d.status = .running)
    {error : String} (hblank : Text.isBlank error = true) :
    m.fail d.delegationId error
      = (.error (.value "non-completed agent task result requires reason"), m) := by
  unfold DelegationManager.fail AgentTaskResult.unfinished
  rw [get_of_mem hd]
  simp only [hrun, AgentTaskResult.make_blank [] [] none none .none hrec.task hblank]
  rfl

theorem fail_running (hd : d ∈ m.delegations) (hrec : Recordable d) (hrun : d.status = .running)
    (hfallback : d.fallbackAgent = none) {error : String} (hfilled : Text.isBlank error = false) :
    ∃ d' m', m.fail d.delegationId error = (.ok d', m') ∧ Settled m' d.delegationId := by
  obtain ⟨r, hr, -, -⟩ := AgentTaskResult.make_unfinished [] [] none none .none hrec.task
    (by decide : AgentTaskResultStatus.failed ≠ .completed) hfilled
  have hrec' : Recordable { d with status := .failed, result := some r } :=
    ⟨hrec.id, hrec.task, hrec.fromAgent, hrec.toAgent, hrec.fallback⟩
  obtain ⟨hok, hput⟩ := apply_ok (m := m) hrec' "DelegationFailed"
  have hsettled := settled_put hput rfl
  refine ⟨{ d with status := .failed, result := some r }, _, ?_, hsettled⟩
  unfold DelegationManager.fail AgentTaskResult.unfinished
  rw [get_of_mem hd]
  simp only [hrun, hr]
  rw [if_neg (by decide)]
  split
  · next agent hsome => exact absurd (hsome.symm.trans hfallback) (by simp)
  · exact Prod.ext hok rfl

theorem complete_running (hd : d ∈ m.delegations) (hrec : Recordable d) (hrun : d.status = .running)
    {result : AgentTaskResult} (hid : result.taskId = d.taskId) :
    ∃ d' m', m.complete d.delegationId result = (.ok d', m') ∧ Settled m' d.delegationId := by
  have hrec' : Recordable { d with status := .completed, result := some result } :=
    ⟨hrec.id, hrec.task, hrec.fromAgent, hrec.toAgent, hrec.fallback⟩
  obtain ⟨hok, hput⟩ := apply_ok (m := m) hrec' "DelegationCompleted"
  have hsettled := settled_put hput rfl
  refine ⟨{ d with status := .completed, result := some result }, _, ?_, hsettled⟩
  unfold DelegationManager.complete
  rw [get_of_mem hd]
  simp only [hrun, hid]
  rw [if_neg (by decide), if_neg (by simp)]
  exact Prod.ext hok rfl

/-- The result of another task is refused, with a text. -/
theorem complete_other (hd : d ∈ m.delegations) (hrun : d.status = .running)
    {result : AgentTaskResult} (hid : result.taskId ≠ d.taskId) :
    ∃ e, m.complete d.delegationId result = (.error e, m) ∧ Text.isBlank e.text = false := by
  unfold DelegationManager.complete
  rw [get_of_mem hd]
  simp only [hrun]
  rw [if_neg (by decide), if_pos hid]
  exact ⟨_, rfl, isBlank_append (isBlank_append (isBlank_append (by decide)))⟩

end Delegation

/-! ## The first part -/

def callDelegation (request : AgentTaskRequest) (agentId : AgentId) (id : DelegationId)
    (status : DelegationStatus) : Delegation :=
  ⟨id, request.taskId, "orchestrator", agentId, request, status, none, none⟩

@[simp] theorem callDelegation_id (request : AgentTaskRequest) (agentId : AgentId)
    (id : DelegationId) (status : DelegationStatus) :
    (callDelegation request agentId id status).delegationId = id := rfl

theorem callDelegation_recordable {request : AgentTaskRequest}
    (hid : Text.isBlank id = false) (hagent : Text.isBlank agentId = false)
    (status : DelegationStatus) : Recordable (callDelegation request agentId id status) where
  id := hid
  task := request.id_filled
  fromAgent := show Text.isBlank "orchestrator" = false by decide
  toAgent := hagent
  fallback := fun _ h => nomatch h

def creation (request : AgentTaskRequest) (agentId : AgentId) (id : DelegationId) : ManagerCall :=
  .create "orchestrator" agentId request none none id

def opened (m : DelegationManager) (request : AgentTaskRequest) (agentId : AgentId)
    (id : DelegationId) : DelegationManager :=
  ((m.call (creation request agentId id)).2.call (.start id)).2

section Opening

variable {m : DelegationManager} {request : AgentTaskRequest} {agentId : AgentId}
  {id : DelegationId}

theorem create_ok (m : DelegationManager) (request : AgentTaskRequest) (hid : Text.isBlank id = false) (hagent : Text.isBlank agentId = false) :
    (m.call (creation request agentId id)).1 = .ok (callDelegation request agentId id .pending) ∧
      (m.call (creation request agentId id)).2.delegations
        = m.delegations.put (callDelegation request agentId id .pending) :=
  apply_ok (callDelegation_recordable hid hagent .pending) "DelegationCreated"

theorem start_ok (hid : Text.isBlank id = false) (hagent : Text.isBlank agentId = false)
    (hmem : callDelegation request agentId id .pending ∈ m.delegations) :
    (m.call (.start id)).1 = .ok (callDelegation request agentId id .running) ∧
      (m.call (.start id)).2.delegations
        = m.delegations.put (callDelegation request agentId id .running) := by
  have hget : m.get id = .ok (callDelegation request agentId id .pending) := get_of_mem hmem
  have hcall : m.call (.start id)
      = m.apply "DelegationStarted" (callDelegation request agentId id .running) := by
    simp only [DelegationManager.call, DelegationManager.start, DelegationManager.transition, hget]
    rfl
  rw [hcall]
  exact apply_ok (callDelegation_recordable hid hagent .running) _

theorem opened_ok (m : DelegationManager) (request : AgentTaskRequest) (hid : Text.isBlank id = false) (hagent : Text.isBlank agentId = false) :
    ((m.call (creation request agentId id)).2.call (.start id)).1
        = .ok (callDelegation request agentId id .running) ∧
      ∀ id', (opened m request agentId id).delegations.get? id'
        = if id' = id then some (callDelegation request agentId id .running)
          else m.delegations.get? id' := by
  obtain ⟨-, hput⟩ := create_ok m request hid hagent
  have hmem : callDelegation request agentId id .pending
      ∈ (m.call (creation request agentId id)).2.delegations := by
    rw [hput]
    exact Table.mem_put_self _ _
  obtain ⟨hok, hput'⟩ := start_ok hid hagent hmem
  refine ⟨hok, fun id' => ?_⟩
  rw [opened, hput', Table.get?_put, hput, Table.get?_put]
  by_cases h : id' = id <;> simp [h]

end Opening

namespace Orchestrator

variable {o : Orchestrator} {callId : CallId} {request : AgentTaskRequest}

theorem openDelegation_ok (o : Orchestrator) (callId : CallId) (request : AgentTaskRequest)
    (hid : Text.isBlank id = false)
    (hagent : Text.isBlank agentId = false) (hknown : (o.registry.statusOf agentId).isSome) :
    ∃ registry, o.openDelegation callId request agentId id
        = (.ok ⟨callId, agentId, request, id⟩,
            { o with registry := registry, manager := opened o.manager request agentId id }) ∧
      ∀ a, registry.statusOf a = if a = agentId then some .busy else o.registry.statusOf a := by
  obtain ⟨registry, hregistry, hstatus⟩ :=
    AgentRegistry.updateInstanceStatus_ok hknown .busy
  refine ⟨registry, ?_, hstatus⟩
  have hcreate := (create_ok o.manager request hid hagent).1
  have hstart := (opened_ok o.manager request hid hagent).1
  unfold openDelegation
  have hcall : o.manager.createDelegation "orchestrator" agentId request none none id
      = (.ok (callDelegation request agentId id .pending),
          (o.manager.call (creation request agentId id)).2) := Prod.ext hcreate rfl
  have hcall' : (o.manager.call (creation request agentId id)).2.start id
      = (.ok (callDelegation request agentId id .running), opened o.manager request agentId id) :=
    Prod.ext hstart rfl
  simp only [hcall, callDelegation_id, hcall', hregistry]

/-- An instance that is selected is registered and ready. -/
theorem selectInstance_spec {agentId : Option AgentId}
    (h : o.selectInstance request agentId = .ok i) :
    i ∈ o.registry.instances ∧ i.status = .ready := by
  unfold selectInstance at h
  split at h
  · next id =>
      split at h
      · cases h
      · next i' hi' =>
          unfold AgentRegistry.instanceOf at hi'
          split at hi'
          · next i'' hi'' =>
              cases hi'
              split at h
              · cases h
              · next hready =>
                  split at h
                  · cases h
                  · split at h
                    · cases h
                      exact ⟨(Table.get?_eq_some.mp hi'').1, not_not.mp hready⟩
                    · cases h
          · cases hi'
  · split at h
    · cases h
    · next i' rest hlist =>
        cases h
        have hmem : i ∈ o.registry.eligibleInstances request := by
          rw [hlist]
          exact List.mem_cons_self
        unfold AgentRegistry.eligibleInstances AgentRegistry.eligible at hmem
        rw [List.mem_filter, Bool.and_eq_true, decide_eq_true_eq] at hmem
        exact ⟨AgentRegistry.mem_allInstances.mp hmem.1, hmem.2.1⟩

theorem statusOf_of_mem (hi : i ∈ o.registry.instances) : o.registry.statusOf i.agentId = some i.status := by
  rw [AgentRegistry.statusOf, Table.get?_of_mem hi]
  rfl

/-- A reservation changes the counts and the depths, and nothing else. -/
theorem reserveDelegation_frame (h : o.reserveDelegation request = .ok o') :
    o'.registry = o.registry ∧ o'.executors = o.executors ∧ o'.manager = o.manager := by
  unfold reserveDelegation at h
  split at h
  · cases h
  · split at h
    · cases h
      exact ⟨rfl, rfl, rfl⟩
    · split at h
      · cases h
      · cases h
        exact ⟨rfl, rfl, rfl⟩

/-- The first part of `delegate` raises and changes nothing, or opens a delegation on a ready
instance within the limits. -/
theorem beginDelegate_spec (o : Orchestrator) (callId : CallId) (request : AgentTaskRequest)
    (agentId : Option AgentId) (id : DelegationId) :
    (∃ e, o.beginDelegate callId request agentId id = (.error (.raised e), o)) ∨
      ∃ i o', o.selectInstance request agentId = .ok i ∧ i.agentId ∈ o.executors ∧
        o.reserveDelegation request = .ok o' ∧
        o.beginDelegate callId request agentId id = o'.openDelegation callId request i.agentId id := by
  unfold beginDelegate
  split
  · next e _ => exact .inl ⟨e, rfl⟩
  · next i hi =>
      split
      · exact .inl ⟨_, rfl⟩
      · next hexecutor =>
          split
          · next e _ => exact .inl ⟨e, rfl⟩
          · next o' ho' => exact .inr ⟨i, o', hi, not_not.mp hexecutor, ho', rfl⟩

/-- Whether it opens the delegation or raises, no limit is touched any more, and the instance is
busy if and only if a call awaits. -/
theorem openDelegation_frame (o : Orchestrator) (callId : CallId) (request : AgentTaskRequest)
    (agentId : AgentId) (id : DelegationId) :
    (o.openDelegation callId request agentId id).2.childCounts = o.childCounts ∧
      (o.openDelegation callId request agentId id).2.taskDepths = o.taskDepths ∧
      (o.openDelegation callId request agentId id).2.executors = o.executors ∧
      ((∃ seen, (o.openDelegation callId request agentId id).1 = .error seen ∧
          (o.openDelegation callId request agentId id).2.registry = o.registry) ∨
        ∃ d registry, (o.openDelegation callId request agentId id).1
            = .ok ⟨callId, agentId, request, d⟩ ∧
          o.registry.updateInstanceStatus agentId .busy = .ok registry ∧
          (o.openDelegation callId request agentId id).2.registry = registry) := by
  unfold openDelegation
  split
  · exact ⟨rfl, rfl, rfl, .inl ⟨_, rfl, rfl⟩⟩
  · split
    · exact ⟨rfl, rfl, rfl, .inl ⟨_, rfl, rfl⟩⟩
    · split
      · exact ⟨rfl, rfl, rfl, .inl ⟨_, rfl, rfl⟩⟩
      · next registry hregistry => exact ⟨rfl, rfl, rfl, .inr ⟨_, registry, rfl, hregistry, rfl⟩⟩

/-! ## The second part -/

variable (numberText : Amount → String)

/-- The call's instance is ready again, and the delegation settled with the limited outcome. -/
theorem finishDelegate_spec {call : Call} (outcome : Outcome)
    (hknown : (o.registry.statusOf call.agentId).isSome) :
    ∃ registry, (∀ a, registry.statusOf a
        = if a = call.agentId then some .ready else o.registry.statusOf a) ∧
      o.finishDelegate numberText call outcome =
        ((settle o.manager call.delegationId (limited numberText call.request outcome)).1,
          { o with
            registry := registry
            manager :=
              (settle o.manager call.delegationId (limited numberText call.request outcome)).2 }) := by
  obtain ⟨registry, hregistry, hstatus⟩ := AgentRegistry.updateInstanceStatus_ok hknown .ready
  refine ⟨registry, hstatus, ?_⟩
  unfold finishDelegate
  rw [hregistry]

/-! ## Snapshot and restoration -/

theorem restoreDelegationState_frame (o : Orchestrator) (state : AgentDelegationState) :
    (o.restoreDelegationState state).registry = o.registry ∧
      (o.restoreDelegationState state).executors = o.executors ∧
      (o.restoreDelegationState state).manager = o.manager := by
  unfold restoreDelegationState
  induction state.tasks.rows generalizing o with
  | nil => exact ⟨rfl, rfl, rfl⟩
  | cons t ts ih => exact ih _

theorem restored_frame (h : o.restored = some o') :
    o'.registry = o.registry ∧ o'.executors = o.executors ∧ o'.manager = o.manager := by
  obtain ⟨state, -, rfl⟩ := Option.map_eq_some_iff.mp h
  exact restoreDelegationState_frame _ state

end Orchestrator

/-! ## Steps -/

variable (numberText : Amount → String)

def Known (s : Orchestration) : Prop :=
  ∀ call ∈ s.calls, (s.orchestrator.registry.statusOf call.agentId).isSome

open Orchestrator in
inductive Steps (s : Orchestration) :
    OrchestrationInput → OrchestrationAnswer → Orchestration → Prop where
  | idle (i : OrchestrationInput) {answer : OrchestrationAnswer} (h : answer ≠ .awaits) :
      Steps s i answer s
  | unopened {callId : CallId} {request : AgentTaskRequest} {agentId : Option AgentId}
      {id : DelegationId} {i : AgentInstanceRecord} {o : Orchestrator} {seen : Outcome}
      (new : s.calls.get? callId = none)
      (selected : s.orchestrator.selectInstance request agentId = .ok i)
      (reserved : s.orchestrator.reserveDelegation request = .ok o)
      (raised : (o.openDelegation callId request i.agentId id).1 = .error seen) :
      Steps s (.delegate callId request agentId id) (.sees seen)
        { s with orchestrator := (o.openDelegation callId request i.agentId id).2 }
  | opened {callId : CallId} {request : AgentTaskRequest} {agentId : Option AgentId}
      {id : DelegationId} {i : AgentInstanceRecord} {o : Orchestrator} {call : Call}
      (new : s.calls.get? callId = none)
      (selected : s.orchestrator.selectInstance request agentId = .ok i)
      (reserved : s.orchestrator.reserveDelegation request = .ok o)
      (awaits : (o.openDelegation callId request i.agentId id).1 = .ok call) :
      Steps s (.delegate callId request agentId id) .awaits
        ⟨(o.openDelegation callId request i.agentId id).2, s.calls.put call⟩
  | ended {callId : CallId} {call : Call} {registry : AgentRegistry} (outcome : Outcome)
      (inFlight : s.calls.get? callId = some call)
      (freed : ∀ a, registry.statusOf a
        = if a = call.agentId then some .ready else s.orchestrator.registry.statusOf a) :
      Steps s (.ended callId outcome)
        (.sees (settle s.orchestrator.manager call.delegationId
          (limited numberText call.request outcome)).1)
        ⟨{ s.orchestrator with
            registry := registry
            manager := (settle s.orchestrator.manager call.delegationId
              (limited numberText call.request outcome)).2 },
          s.calls.erase callId⟩
  | registry {c : RegistryCall} {registry : AgentRegistry}
      (ok : s.orchestrator.registry.call c = .ok registry) :
      Steps s (.registry c) .done
        { s with orchestrator := { s.orchestrator with registry := registry } }
  | registerExecutor {id : AgentId} (executors : List AgentId) :
      Steps s (.registerExecutor id) .done
        { s with orchestrator := { s.orchestrator with executors := executors } }
  | manager (c : ManagerCall) {answer : OrchestrationAnswer} (h : answer ≠ .awaits) :
      Steps s (.manager c) answer { s with
        orchestrator := { s.orchestrator with manager := (s.orchestrator.manager.call c).2 } }
  | replaced {o : Orchestrator} (ok : s.orchestrator.restored = some o) :
      Steps s .replaced .done { s with orchestrator := o }

theorem step_delegate (s : Orchestration) (callId : CallId) (request : AgentTaskRequest)
    (agentId : Option AgentId) (id : DelegationId) :
    Steps numberText s (.delegate callId request agentId id)
      (s.step numberText (.delegate callId request agentId id)).1
      (s.step numberText (.delegate callId request agentId id)).2 := by
  cases hnew : s.calls.get? callId with
  | some call =>
    simp only [Orchestration.step, hnew]
    exact .idle _ (by simp)
  | none =>
    simp only [Orchestration.step, hnew]
    obtain ⟨e, he⟩ | ⟨i, o, hselect, -, hreserve, hopen⟩ :=
      Orchestrator.beginDelegate_spec s.orchestrator callId request agentId id
    · rw [he]
      exact .idle _ (by simp)
    · rw [hopen]
      cases hresult : o.openDelegation callId request i.agentId id with
      | mk result o' =>
        cases result with
        | error seen =>
          have hsteps : Steps numberText s _ _ _ :=
            .unopened hnew hselect hreserve (congrArg Prod.fst hresult)
          rw [hresult] at hsteps
          exact hsteps
        | ok call =>
          have hsteps : Steps numberText s _ _ _ :=
            .opened hnew hselect hreserve (congrArg Prod.fst hresult)
          rw [hresult] at hsteps
          exact hsteps

theorem step_spec {s : Orchestration} (hknown : Known s) (i : OrchestrationInput) :
    Steps numberText s i (s.step numberText i).1 (s.step numberText i).2 := by
  cases i with
  | delegate callId request agentId id => exact step_delegate numberText s callId request agentId id
  | ended callId outcome =>
    cases hcall : s.calls.get? callId with
    | none =>
      simp only [Orchestration.step, hcall]
      exact .idle _ (by simp)
    | some call =>
      obtain ⟨registry, hfreed, hfinish⟩ := Orchestrator.finishDelegate_spec numberText outcome
        (hknown call (Table.get?_eq_some.mp hcall).1)
      simp only [Orchestration.step, hcall, hfinish]
      exact .ended outcome hcall hfreed
  | registry c =>
    simp only [Orchestration.step]
    split
    · exact .idle _ (by simp)
    · next registry hok => exact .registry hok
  | registerExecutor id =>
    simp only [Orchestration.step, Orchestrator.registerExecutor]
    cases s.orchestrator.registry.instanceOf id with
    | error e => exact .idle _ (by simp)
    | ok i => exact .registerExecutor _
  | manager c =>
    simp only [Orchestration.step]
    split
    · exact .manager c (by simp)
    · exact .manager c (by simp)
  | replaced =>
    simp only [Orchestration.step]
    split
    · exact .idle _ (by simp)
    · next o hok => exact .replaced hok

/-- The call that is opened awaits on the instance that was selected, which is busy. -/
theorem openDelegation_awaits {o : Orchestrator} {callId : CallId} {request : AgentTaskRequest}
    {call : Call}
    (h : (o.openDelegation callId request agentId id).1 = .ok call) :
    call.callId = callId ∧ call.agentId = agentId ∧ call.request = request ∧
      ∀ a, (o.openDelegation callId request agentId id).2.registry.statusOf a
        = if a = agentId then some .busy else o.registry.statusOf a := by
  obtain ⟨-, -, -, ⟨seen, hseen, -⟩ | ⟨d, registry, hcall, hupdate, hregistry⟩⟩ :=
    Orchestrator.openDelegation_frame o callId request agentId id
  · rw [hseen] at h
    cases h
  · rw [hcall] at h
    cases h
    refine ⟨rfl, rfl, rfl, fun a => ?_⟩
    rw [hregistry]
    exact AgentRegistry.updateInstanceStatus_spec hupdate a

theorem openDelegation_raises {o : Orchestrator} {callId : CallId} {request : AgentTaskRequest}
    {seen : Outcome}
    (h : (o.openDelegation callId request agentId id).1 = .error seen) :
    (o.openDelegation callId request agentId id).2.registry = o.registry := by
  obtain ⟨-, -, -, ⟨seen', -, hregistry⟩ | ⟨d, registry, hcall, -, -⟩⟩ :=
    Orchestrator.openDelegation_frame o callId request agentId id
  · exact hregistry
  · rw [hcall] at h
    cases h

theorem Known.step {s : Orchestration} (h : Known s) (i : OrchestrationInput) :
    Known (s.step numberText i).2 := by
  have hkeep : ∀ {r r' : AgentRegistry} {a : AgentId} {status : AgentInstanceStatus},
      (∀ b, r'.statusOf b = if b = a then some status else r.statusOf b) →
      ∀ b, (r.statusOf b).isSome → (r'.statusOf b).isSome := by
    intro r r' a status hr b hb
    rw [hr b]
    split
    · rfl
    · exact hb
  have hstep := step_spec numberText h i
  generalize (s.step numberText i).1 = answer, (s.step numberText i).2 = s' at hstep ⊢
  cases hstep with
  | idle _ _ => exact h
  | unopened new selected reserved raised =>
    intro call hcall
    have hframe := Orchestrator.reserveDelegation_frame reserved
    rw [openDelegation_raises raised, hframe.1]
    exact h call hcall
  | @opened _ _ _ _ i' _ _ new selected reserved awaits =>
    obtain ⟨-, hagent, -, hstatus⟩ := openDelegation_awaits awaits
    rw [(Orchestrator.reserveDelegation_frame reserved).1] at hstatus
    intro call' hcall'
    rcases Table.mem_put.mp hcall' with rfl | ⟨hcall', -⟩
    · rw [hstatus, hagent, if_pos rfl]
      rfl
    · exact hkeep hstatus _ (h call' hcall')
  | ended outcome inFlight freed =>
    intro call' hcall'
    exact hkeep freed _ (h call' (Table.mem_erase.mp hcall').1)
  | registry ok =>
    intro call hcall
    have hsome := h call hcall
    rcases AgentRegistry.statusOf_call ok call.agentId with heq | ⟨status, -, heq⟩ | hnone
    · rw [heq]
      exact hsome
    · rw [heq]
      rfl
    · rw [hnone] at hsome
      cases hsome
  | registerExecutor executors => exact h
  | manager c _ => exact h
  | replaced ok =>
    intro call hcall
    rw [(Orchestrator.restored_frame ok).1]
    exact h call hcall

theorem known_run (registry : AgentRegistry) (executors : List AgentId)
    (is : List OrchestrationInput) :
    Known ((orchestration numberText registry executors).state is) :=
  (orchestration numberText registry executors).invariant Known
    (fun call hcall => absurd hcall (Table.not_mem_empty call))
    (fun _ i h => h.step numberText i) is

end UniversalAgent.MultiAgent
