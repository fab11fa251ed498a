import UniversalAgent.MultiAgent.OrchestratorSteps

/-!
# MultiAgent — Settlement

Whether the delegation of a call of `delegate` has come to an end when the call has. The second part
settles it with the outcome of the executor in a `try` whose handler fails it; both may raise, and
neither sees a cancellation.
-/

namespace UniversalAgent.MultiAgent

open UniversalAgent.Core UniversalAgent.Foundation

variable {e : AgentException} {id : DelegationId} {m : DelegationManager} {s : Orchestration}
  {is : List OrchestrationInput}

/-! ## One settlement -/

/-- An outcome that ends a running delegation of a task, and that the caller then sees. -/
def Outcome.settles (taskId : AgentTaskId) : Outcome → Prop
  | .returned result => result.status = .completed → result.taskId = taskId
  | .raised e => Text.isBlank e.text = false
  | .cancelled => False

/-- An outcome that the caller sees while the delegation is over: one that ends it where it is
running; and where another has ended it, a cancellation, or what `fail` then raises anyway. -/
def Settles (d : Delegation) (outcome : Outcome) : Prop :=
  d.status = .running ∧ outcome.settles d.taskId ∨
    d.status.terminal = true ∧ (outcome = .cancelled ∨ outcome = .raised (cannotFail d.status))

section Settle

open Orchestrator

variable {m : DelegationManager} {d : Delegation}

theorem settle_raised (m : DelegationManager) (id : DelegationId) (e : AgentException) :
    settle m id (.raised e) = failWith m id e := rfl

theorem settle_completed (m : DelegationManager) (id : DelegationId) {result : AgentTaskResult}
    (h : result.status = .completed) :
    settle m id (.returned result) =
      match m.complete id result with
      | (.ok _, m') => (.returned result, m')
      | (.error e, m') => failWith m' id e :=
  congrArg (fun settled : Except AgentException Delegation × DelegationManager => match settled with
    | (.ok _, m') => (Outcome.returned result, m')
    | (.error e, m') => failWith m' id e) (if_pos h)

theorem settle_unfinished (m : DelegationManager) (id : DelegationId) {result : AgentTaskResult}
    (h : result.status ≠ .completed) :
    settle m id (.returned result) =
      match m.fail id result.reason with
      | (.ok _, m') => (.returned result, m')
      | (.error e, m') => failWith m' id e :=
  congrArg (fun settled : Except AgentException Delegation × DelegationManager => match settled with
    | (.ok _, m') => (Outcome.returned result, m')
    | (.error e, m') => failWith m' id e) (if_neg h)

theorem failWith_terminal (hd : d ∈ m.delegations) (ht : d.status.terminal = true)
    (e : AgentException) :
    failWith m d.delegationId e = (.raised (cannotFail d.status), m) := by
  unfold failWith
  rw [fail_terminal hd ht]

theorem failWith_blank (hd : d ∈ m.delegations) (hrec : Recordable d) (hrun : d.status = .running)
    (hblank : Text.isBlank e.text = true) :
    failWith m d.delegationId e
      = (.raised (.value "non-completed agent task result requires reason"), m) := by
  unfold failWith
  rw [fail_blank hd hrec hrun hblank]

theorem failWith_running (hd : d ∈ m.delegations) (hrec : Recordable d) (hrun : d.status = .running)
    (hfallback : d.fallbackAgent = none)
    (hfilled : Text.isBlank e.text = false) :
    ∃ m', failWith m d.delegationId e = (.raised e, m') ∧ Settled m' d.delegationId := by
  obtain ⟨d', m', hfail, hsettled⟩ := fail_running hd hrec hrun hfallback hfilled
  refine ⟨m', ?_, hsettled⟩
  unfold failWith
  rw [hfail]

theorem not_settled_running (hd : d ∈ m.delegations) (hrun : d.status = .running) :
    ¬ Settled m d.delegationId := by
  rintro ⟨d', hd', ht⟩
  rw [Table.get?_of_mem hd] at hd'
  cases hd'
  rw [hrun] at ht
  cases ht

theorem settled_terminal (hd : d ∈ m.delegations) (ht : d.status.terminal = true) :
    Settled m d.delegationId := ⟨d, Table.get?_of_mem hd, ht⟩

/-- Where another has ended the delegation, every outcome but a cancellation is lost. -/
theorem settle_terminal (hd : d ∈ m.delegations) (ht : d.status.terminal = true)
    (outcome : Outcome) :
    settle m d.delegationId outcome =
      (if outcome = .cancelled then .cancelled else .raised (cannotFail d.status), m) := by
  cases outcome with
  | returned result =>
    by_cases hcompleted : result.status = .completed
    · obtain ⟨e, he⟩ := complete_terminal hd ht result
      rw [settle_completed m _ hcompleted, he, if_neg (by simp)]
      exact failWith_terminal hd ht e
    · rw [settle_unfinished m _ hcompleted, fail_terminal hd ht, if_neg (by simp)]
      exact failWith_terminal hd ht _
  | raised e =>
    rw [settle_raised, if_neg (by simp)]
    exact failWith_terminal hd ht e
  | cancelled => rfl

/-- Where it is running, the caller sees the outcome and it is over, exactly for an outcome that
settles it. -/
theorem settle_running_iff (hd : d ∈ m.delegations) (hrec : Recordable d)
    (hrun : d.status = .running) (hfallback : d.fallbackAgent = none) (outcome : Outcome) :
    ((settle m d.delegationId outcome).1 = outcome ∧
      Settled (settle m d.delegationId outcome).2 d.delegationId) ↔ outcome.settles d.taskId := by
  cases outcome with
  | cancelled =>
    exact iff_of_false (fun h => not_settled_running hd hrun h.2) id
  | raised e =>
    rw [settle_raised]
    cases hblank : Text.isBlank e.text with
    | true =>
      rw [failWith_blank hd hrec hrun hblank]
      refine iff_of_false (fun h => not_settled_running hd hrun h.2) ?_
      simp [Outcome.settles, hblank]
    | false =>
      obtain ⟨m', hfail, hsettled⟩ := failWith_running hd hrec hrun hfallback hblank
      rw [hfail]
      exact iff_of_true ⟨rfl, hsettled⟩ hblank
  | returned result =>
    by_cases hcompleted : result.status = .completed
    · rw [settle_completed m _ hcompleted]
      by_cases hid : result.taskId = d.taskId
      · obtain ⟨d', m', hcomplete, hsettled⟩ := complete_running hd hrec hrun hid
        rw [hcomplete]
        exact iff_of_true ⟨rfl, hsettled⟩ fun _ => hid
      · obtain ⟨e, he, hfilled⟩ := complete_other hd hrun hid
        obtain ⟨m', hfail, -⟩ := failWith_running hd hrec hrun hfallback hfilled
        rw [he]
        simp only [hfail]
        exact iff_of_false (fun h => nomatch h.1) fun h => hid (h hcompleted)
    · obtain ⟨d', m', hfail, hsettled⟩ :=
        fail_running hd hrec hrun hfallback (result.reason_filled hcompleted)
      rw [settle_unfinished m _ hcompleted, hfail]
      exact iff_of_true ⟨rfl, hsettled⟩ fun h => absurd h hcompleted

/-- The caller sees the outcome and the delegation is over, exactly if the outcome settles it. -/
theorem settle_iff (hd : d ∈ m.delegations) (hrec : Recordable d)
    (hfallback : d.fallbackAgent = none)
    (hstatus : d.status = .running ∨ d.status.terminal = true) (outcome : Outcome) :
    ((settle m d.delegationId outcome).1 = outcome ∧
      Settled (settle m d.delegationId outcome).2 d.delegationId) ↔ Settles d outcome := by
  unfold Settles
  rcases hstatus with hrun | ht
  · have hnot : d.status.terminal ≠ true := by
      rw [hrun]
      decide
    rw [settle_running_iff hd hrec hrun hfallback]
    exact ⟨fun h => .inl ⟨hrun, h⟩, fun h => (h.resolve_right fun ht => hnot ht.1).2⟩
  · have hnot : d.status ≠ .running := by
      intro hrun
      rw [hrun] at ht
      cases ht
    rw [settle_terminal hd ht]
    have hsettled := settled_terminal hd ht
    by_cases hcancelled : outcome = .cancelled <;> simp [hnot, ht, hcancelled, hsettled, eq_comm]

/-- The same for the executor's own outcome, where the limits of the request may have put a failed
result in its place: then it is not what the caller sees. -/
theorem settle_own_iff (hd : d ∈ m.delegations) (hrec : Recordable d)
    (hfallback : d.fallbackAgent = none)
    (hstatus : d.status = .running ∨ d.status.terminal = true) {request : AgentTaskRequest}
    {outcome seen : Outcome} (hlimits : Limits request outcome seen) :
    ((settle m d.delegationId seen).1 = outcome ∧
      Settled (settle m d.delegationId seen).2 d.delegationId) ↔
        Settles d outcome ∧ seen = outcome := by
  by_cases hseen : seen = outcome
  · rw [hseen, settle_iff hd hrec hfallback hstatus]
    exact (and_iff_left rfl).symm
  · refine iff_of_false (fun h => ?_) fun h => hseen h.2
    rcases hstatus with hrun | ht
    · have hsettles : seen.settles d.taskId := by
        cases hlimits with
        | kept => exact absurd rfl hseen
        | timedOut text failed task => exact fun hc => absurd (failed.symm.trans hc) (by simp)
        | tooDear completed failed task => exact fun hc => absurd (failed.symm.trans hc) (by simp)
      exact hseen (((settle_running_iff hd hrec hrun hfallback seen).mpr hsettles).1.symm.trans h.1)
    · have hfst := h.1
      rw [settle_terminal hd ht] at hfst
      cases hlimits with
      | kept => exact hseen rfl
      | timedOut text failed task => cases hfst
      | tooDear completed failed task => cases hfst

/-- A settlement is made of calls of `complete` and `fail`: what they keep, it keeps. -/
theorem settle_keeps {P : DelegationManager → Prop}
    (hcomplete : ∀ m result, P m → P (m.complete id result).2)
    (hfail : ∀ m error, P m → P (m.fail id error).2) (h : P m)
    (outcome : Outcome) : P (settle m id outcome).2 := by
  have hfailWith : ∀ m e, P m → P (failWith m id e).2 := by
    intro m e hm
    have hP := hfail m e.text hm
    unfold failWith
    split <;> next hcall => rw [hcall] at hP; exact hP
  cases outcome with
  | cancelled => exact h
  | raised e => exact hfailWith m e h
  | returned result =>
    by_cases hcompleted : result.status = .completed
    · have hP := hcomplete m result h
      rw [settle_completed m _ hcompleted]
      split
      · next hcall => rw [hcall] at hP; exact hP
      · next e m' hcall => rw [hcall] at hP; exact hfailWith m' e hP
    · have hP := hfail m result.reason h
      rw [settle_unfinished m _ hcompleted]
      split
      · next hcall => rw [hcall] at hP; exact hP
      · next e m' hcall => rw [hcall] at hP; exact hfailWith m' e hP

theorem get?_apply (m : DelegationManager) (eventType : String) (d : Delegation)
    (id : DelegationId) :
    (m.apply eventType d).2.delegations.get? id
      = if id = d.delegationId then some d else m.delegations.get? id := by
  unfold DelegationManager.apply
  split <;> exact Table.get?_put _ _ _

theorem settle_other {id id' : DelegationId} (hne : id' ≠ id) (m : DelegationManager)
    (outcome : Outcome) :
    (settle m id outcome).2.delegations.get? id' = m.delegations.get? id' := by
  have happly : ∀ (m₀ : DelegationManager) eventType (d : Delegation), d.delegationId = id →
      (m₀.apply eventType d).2.delegations.get? id' = m₀.delegations.get? id' := by
    intro m₀ eventType d hd
    rw [get?_apply, if_neg (hd ▸ hne)]
  refine settle_keeps (P := fun m' => m'.delegations.get? id' = m.delegations.get? id')
    (fun m₀ result h => ?_) (fun m₀ error h => ?_) rfl outcome
  · unfold DelegationManager.complete
    split
    · exact h
    · next d hd =>
        split
        · exact h
        · split
          · exact h
          · refine (happly _ _ _ ?_).trans h
            exact (get_ok hd).2
  · unfold DelegationManager.fail
    split
    · exact h
    · next d hd =>
        split
        · exact h
        · split
          · exact h
          · split
            · refine (happly _ _ _ ?_).trans h
              exact (get_ok hd).2
            · refine (happly _ _ _ ?_).trans h
              exact (get_ok hd).2

end Settle

/-! ## Calls in flight -/

def Held (m : DelegationManager) (call : Call) : Prop :=
  ∃ d, m.delegations.get? call.delegationId = some d ∧ d.taskId = call.request.taskId ∧
    d.fallbackAgent = none ∧ (d.status = .running ∨ d.status.terminal = true)

theorem Held.call {call : Call} (h : Held m call) {c : ManagerCall}
    (hc : c.Fresh m) : Held (m.call c).2 call := by
  obtain ⟨d, hd, htask, hfallback, hstatus⟩ := h
  obtain ⟨hmem, hid⟩ := Table.get?_eq_some.mp hd
  obtain ⟨d', hmem', hperm⟩ := call_permitted hc hmem
  obtain ⟨hid', htask', -, -, hfallback'⟩ := hperm.same
  refine ⟨d', Table.get?_eq_some.mpr ⟨hmem', hid'.trans hid⟩, htask'.trans htask,
    hfallback'.trans hfallback, ?_⟩
  rcases hstatus with hrun | ht
  · rcases hperm.status with rfl | ⟨hallowed, -⟩ | ⟨-, -, -, hsome⟩
    · exact .inl hrun
    · rw [hrun] at hallowed
      cases hs : d'.status <;> simp [hs, DelegationStatus.allowedTransitions] at hallowed
      all_goals exact .inr rfl
    · rw [hfallback] at hsome
      cases hsome
  · rw [hperm.terminal ht]
    exact .inr ht

/-- Delegations are created under new ids, and with names that the ledger accepts. -/
def NewIds (_ : List (OrchestrationInput × OrchestrationAnswer)) (s : Orchestration) :
    OrchestrationInput → Prop
  | .delegate _ _ _ id =>
    Text.isBlank id = false ∧ s.orchestrator.manager.delegations.get? id = none
  | .manager c => c.Fresh s.orchestrator.manager
  | _ => True

structure InFlight (s : Orchestration) : Prop where
  known : Known s
  manager : ManagerInv s.orchestrator.manager
  held : ∀ call ∈ s.calls, Held s.orchestrator.manager call
  apart : ∀ call ∈ s.calls, ∀ call' ∈ s.calls, call.delegationId = call'.delegationId → call = call'

theorem creation_fresh (request : AgentTaskRequest) {agentId : AgentId}
    (hid : Text.isBlank id = false) (hnew : m.delegations.get? id = none)
    (hagent : Text.isBlank agentId = false) : (creation request agentId id).Fresh m := by
  refine ⟨?_, by decide, hagent, fun _ h => nomatch h⟩
  intro id' hid'
  cases hid'
  exact ⟨hnew, hid⟩

variable {numberText : Amount → String}

/-- Under a new id, a delegation that is within the limits is opened. -/
theorem openDelegation_new {callId : CallId} {request : AgentTaskRequest}
    {agentId : Option AgentId} {i : AgentInstanceRecord} {o : Orchestrator}
    (hid : Text.isBlank id = false)
    (hselected : s.orchestrator.selectInstance request agentId = .ok i)
    (hreserved : s.orchestrator.reserveDelegation request = .ok o) :
    ∃ registry, o.openDelegation callId request i.agentId id = (.ok ⟨callId, i.agentId, request, id⟩,
      { o with
        registry := registry
        manager := opened s.orchestrator.manager request i.agentId id }) := by
  obtain ⟨hregistry, -, hmanager⟩ := Orchestrator.reserveDelegation_frame hreserved
  obtain ⟨hmem, -⟩ := Orchestrator.selectInstance_spec hselected
  have hknown : (o.registry.statusOf i.agentId).isSome := by
    rw [hregistry, Orchestrator.statusOf_of_mem hmem]
    rfl
  obtain ⟨registry, hopen, -⟩ := Orchestrator.openDelegation_ok o callId request hid
    i.id_filled hknown
  rw [hmanager] at hopen
  exact ⟨registry, hopen⟩

namespace InFlight

variable {s : Orchestration}

theorem settle (h : InFlight s) (call : Call) (outcome : Outcome) :
    ManagerInv (Orchestrator.settle s.orchestrator.manager call.delegationId outcome).2 ∧
      ∀ call' ∈ s.calls,
        Held (Orchestrator.settle s.orchestrator.manager call.delegationId outcome).2 call' :=
  settle_keeps (P := fun m => ManagerInv m ∧ ∀ call' ∈ s.calls, Held m call')
    (fun _ result hm => ⟨hm.1.step (c := .complete call.delegationId result) trivial,
      fun call' hcall' => (hm.2 call' hcall').call (c := .complete call.delegationId result) trivial⟩)
    (fun _ error hm => ⟨hm.1.step (c := .fail call.delegationId error) trivial,
      fun call' hcall' => (hm.2 call' hcall').call (c := .fail call.delegationId error) trivial⟩)
    ⟨h.manager, h.held⟩ outcome

theorem step (h : InFlight s) {i : OrchestrationInput} (hi : NewIds [] s i) :
    InFlight (s.step numberText i).2 := by
  have hknown := h.known.step numberText i
  have hstep := step_spec numberText h.known i
  generalize (s.step numberText i).1 = answer, (s.step numberText i).2 = s' at hstep hknown ⊢
  cases hstep with
  | idle _ _ => exact h
  | unopened new selected reserved raised =>
    obtain ⟨registry, hopen⟩ := openDelegation_new hi.1 selected reserved
    rw [hopen] at raised
    cases raised
  | @opened callId request _ id i _ call new selected reserved awaits =>
    obtain ⟨registry, hopen⟩ := openDelegation_new hi.1 selected reserved
    rw [hopen] at awaits hknown ⊢
    cases awaits
    have hfresh := creation_fresh request hi.1 hi.2 i.id_filled
    have hapart : ∀ call' ∈ s.calls, call'.delegationId ≠ id := by
      rintro call' hcall' rfl
      obtain ⟨d, hd, -⟩ := h.held call' hcall'
      exact absurd (hi.2.symm.trans hd) (by simp)
    refine ⟨hknown, (h.manager.step hfresh).step (c := .start id) trivial, fun call' hcall' => ?_,
      fun call' hcall' call'' hcall'' heq => ?_⟩
    · rcases Table.mem_put.mp hcall' with rfl | ⟨hold, -⟩
      · have hget := (opened_ok s.orchestrator.manager request hi.1
          i.id_filled).2 id
        rw [if_pos rfl] at hget
        exact ⟨_, hget, rfl, rfl, .inl rfl⟩
      · exact ((h.held call' hold).call hfresh).call (c := .start id) trivial
    · rcases Table.mem_put.mp hcall' with hnew | ⟨hold, -⟩ <;>
        rcases Table.mem_put.mp hcall'' with hnew' | ⟨hold', -⟩
      · exact hnew.trans hnew'.symm
      · exact absurd (heq.symm.trans (congrArg Call.delegationId hnew)) (hapart call'' hold')
      · exact absurd (heq.trans (congrArg Call.delegationId hnew')) (hapart call' hold)
      · exact h.apart call' hold call'' hold' heq
  | ended outcome inFlight freed =>
    obtain ⟨hmanager, hheld⟩ := h.settle _ _
    exact ⟨hknown, hmanager, fun call' hcall' => hheld call' (Table.mem_erase.mp hcall').1,
      fun call' hcall' call'' hcall'' =>
        h.apart call' (Table.mem_erase.mp hcall').1 call'' (Table.mem_erase.mp hcall'').1⟩
  | registry ok => exact ⟨hknown, h.manager, h.held, h.apart⟩
  | registerExecutor executors => exact ⟨hknown, h.manager, h.held, h.apart⟩
  | manager c _ =>
    exact ⟨hknown, h.manager.step hi, fun call hcall => (h.held call hcall).call hi, h.apart⟩
  | replaced ok =>
    have hmanager := (Orchestrator.restored_frame ok).2.2
    refine ⟨hknown, ?_, ?_, h.apart⟩
    · rw [hmanager]
      exact h.manager
    · rw [hmanager]
      exact h.held

end InFlight

/-! ## Active delegations -/

/-- Nobody else uses the manager, and every outcome of an executor settles its delegation. -/
def Settling (numberText : Amount → String)
    (_ : List (OrchestrationInput × OrchestrationAnswer)) (s : Orchestration) :
    OrchestrationInput → Prop
  | .ended callId outcome => ∀ call ∈ s.calls.get? callId,
      (Orchestrator.limited numberText call.request outcome).settles call.request.taskId
  | .manager _ => False
  | _ => True

/-- The delegations that are not over are running, and they are those of the calls in flight. -/
def Balanced (s : Orchestration) : Prop :=
  ∀ d ∈ s.orchestrator.manager.delegations,
    d.status = .running ∧ (∃ call ∈ s.calls, call.delegationId = d.delegationId) ∨
      d.status.terminal = true ∧ ∀ call ∈ s.calls, call.delegationId ≠ d.delegationId

section Balance

variable {s : Orchestration}

/-- A call that ends with an outcome that settles its delegation leaves it over. -/
theorem ended_settled (hflight : InFlight s) {call : Call} (hcall : call ∈ s.calls)
    (hrun : ∀ d ∈ s.orchestrator.manager.delegations, d.delegationId = call.delegationId →
      d.status = .running) {outcome : Outcome} (h : outcome.settles call.request.taskId) :
    Settled (Orchestrator.settle s.orchestrator.manager call.delegationId outcome).2
      call.delegationId := by
  obtain ⟨d, hd, htask, hfallback, -⟩ := hflight.held call hcall
  obtain ⟨hmem, hid⟩ := Table.get?_eq_some.mp hd
  rw [← htask] at h
  rw [← hid]
  exact ((settle_running_iff hmem (hflight.manager.recordable d hmem) (hrun d hmem hid) hfallback
    outcome).mpr h).2

theorem Balanced.step (h : Balanced s) (hflight : InFlight s) {i : OrchestrationInput}
    (hnew : NewIds [] s i) (hi : Settling numberText [] s i) :
    Balanced (s.step numberText i).2 := by
  have hstep := step_spec numberText hflight.known i
  generalize (s.step numberText i).1 = answer, (s.step numberText i).2 = s' at hstep ⊢
  cases hstep with
  | idle _ _ => exact h
  | unopened new selected reserved raised =>
    obtain ⟨registry, hopen⟩ := openDelegation_new hnew.1 selected reserved
    rw [hopen] at raised
    cases raised
  | @opened callId request _ id i _ call new selected reserved awaits =>
    obtain ⟨registry, hopen⟩ := openDelegation_new hnew.1 selected reserved
    rw [hopen] at awaits ⊢
    cases awaits
    have hget := (opened_ok s.orchestrator.manager request hnew.1
      i.id_filled).2
    intro d hd
    have hd' := (hget d.delegationId).symm.trans (Table.get?_of_mem hd)
    by_cases hid : d.delegationId = id
    · rw [if_pos hid] at hd'
      cases hd'
      exact .inl ⟨rfl, _, Table.mem_put_self _ _, rfl⟩
    · rw [if_neg hid] at hd'
      rcases h d (Table.get?_eq_some.mp hd').1 with ⟨hrun, call', hcall', heq⟩ | ⟨ht, hnone⟩
      · refine .inl ⟨hrun, call', Table.mem_put.mpr (.inr ⟨hcall', ?_⟩), heq⟩
        exact Table.get?_eq_none.mp new call' hcall'
      · refine .inr ⟨ht, fun call' hcall' heq => ?_⟩
        rcases Table.mem_put.mp hcall' with rfl | ⟨hold, -⟩
        · exact hid heq.symm
        · exact hnone call' hold heq
  | @ended callId call registry outcome inFlight freed =>
    obtain ⟨hcall, hkey⟩ := Table.get?_eq_some.mp inFlight
    have hrun : ∀ d ∈ s.orchestrator.manager.delegations, d.delegationId = call.delegationId →
        d.status = .running := by
      intro d hd heq
      rcases h d hd with hrun | hover
      · exact hrun.1
      · exact absurd heq.symm (hover.2 call hcall)
    obtain ⟨d₀, hd₀, ht₀⟩ := ended_settled hflight hcall hrun (hi call inFlight)
    intro d hd
    have hd' := Table.get?_of_mem hd
    by_cases hid : d.delegationId = call.delegationId
    · rw [hid, hd₀] at hd'
      cases hd'
      refine .inr ⟨ht₀, fun call' hcall' heq => ?_⟩
      obtain ⟨hmem, hne⟩ := Table.mem_erase.mp hcall'
      rw [hflight.apart call' hmem call hcall (heq.trans hid)] at hne
      exact hne hkey
    · rw [settle_other hid] at hd'
      rcases h d (Table.get?_eq_some.mp hd').1 with ⟨hrun', call', hcall', heq⟩ | ⟨ht, hnone⟩
      · refine .inl ⟨hrun', call', Table.mem_erase.mpr ⟨hcall', fun hsame => ?_⟩, heq⟩
        have hcalls : call' = call := Table.eq_of_key hcall' hcall (hsame.trans hkey.symm)
        rw [hcalls] at heq
        exact hid heq.symm
      · exact .inr ⟨ht, fun call' hcall' => hnone call' (Table.mem_erase.mp hcall').1⟩
  | registry ok => exact h
  | registerExecutor executors => exact h
  | manager c _ => exact hi.elim
  | replaced ok =>
    unfold Balanced
    rw [(Orchestrator.restored_frame ok).2.2]
    exact h

/-- In balance, the active delegations are as many as the calls in flight. -/
theorem Balanced.length_active (h : Balanced s) (hflight : InFlight s) :
    s.orchestrator.manager.activeDelegations.length = s.calls.rows.length := by
  have hactive : ∀ d, d ∈ s.orchestrator.manager.activeDelegations ↔
      d ∈ s.orchestrator.manager.delegations ∧
        ∃ call ∈ s.calls, call.delegationId = d.delegationId := by
    intro d
    unfold DelegationManager.activeDelegations
    rw [List.mem_filter]
    refine and_congr_right fun hd => ?_
    rcases h d hd with ⟨hrun, hcall⟩ | ⟨ht, hnone⟩
    · exact iff_of_true (by simp [hrun]) hcall
    · refine iff_of_false (fun hactive => ?_) fun hex => hex.elim fun call hc => hnone call hc.1 hc.2
      cases hs : d.status <;> simp [hs] at hactive <;> rw [hs] at ht <;> cases ht
  have hperm : (s.orchestrator.manager.activeDelegations.map Delegation.delegationId).Perm
      (s.calls.rows.map Call.delegationId) := by
    rw [List.perm_ext_iff_of_nodup]
    · intro id
      simp only [List.mem_map, hactive]
      constructor
      · rintro ⟨d, ⟨-, call, hcall, heq⟩, rfl⟩
        exact ⟨call, hcall, heq⟩
      · rintro ⟨call, hcall, rfl⟩
        obtain ⟨d, hd, -⟩ := hflight.held call hcall
        obtain ⟨hmem, hid⟩ := Table.get?_eq_some.mp hd
        exact ⟨d, ⟨hmem, call, hcall, hid.symm⟩, hid⟩
    · exact s.orchestrator.manager.delegations.nodup.sublist
        (List.filter_sublist.map Delegation.delegationId)
    · exact List.Nodup.map_on (fun call hcall call' hcall' => hflight.apart call hcall call' hcall')
        s.calls.nodup.of_map
  simpa using hperm.length_eq

end Balance

/-! ## Runs -/

variable (numberText) in
/-- The call ends, its caller sees this, and its delegation is over. -/
def EndsAs (s : Orchestration) (call : Call) (outcome seen : Outcome) : Prop :=
  (s.step numberText (.ended call.callId outcome)).1 = .sees seen ∧
    Settled (s.step numberText (.ended call.callId outcome)).2.orchestrator.manager
      call.delegationId

theorem endsAs_iff (h : InFlight s) {call : Call} (hcall : call ∈ s.calls)
    (outcome seen : Outcome) :
    EndsAs numberText s call outcome seen ↔
      (Orchestrator.settle s.orchestrator.manager call.delegationId
        (Orchestrator.limited numberText call.request outcome)).1 = seen ∧
      Settled (Orchestrator.settle s.orchestrator.manager call.delegationId
        (Orchestrator.limited numberText call.request outcome)).2 call.delegationId := by
  obtain ⟨registry, -, hfinish⟩ :=
    Orchestrator.finishDelegate_spec numberText outcome (h.known call hcall)
  unfold EndsAs
  simp only [Orchestration.step, Table.get?_of_mem hcall, hfinish, OrchestrationAnswer.sees.injEq]

variable (numberText) (registry : AgentRegistry) (executors : List AgentId)

theorem inFlight_run
    (hm : (orchestration numberText registry executors).Meets NewIds is) :
    InFlight ((orchestration numberText registry executors).state is) :=
  (orchestration numberText registry executors).induct (fun _ s => InFlight s)
    ⟨fun call hcall => absurd hcall (Table.not_mem_empty call), manager_run (.nil delegationManager _),
      fun call hcall => absurd hcall (Table.not_mem_empty call),
      fun call hcall => absurd hcall (Table.not_mem_empty call)⟩
    (fun _ _ _ h hi => h.step hi) hm

theorem balanced_run
    (hm : (orchestration numberText registry executors).Meets NewIds is)
    (hsettling : (orchestration numberText registry executors).Meets (Settling numberText) is) :
    Balanced ((orchestration numberText registry executors).state is) := by
  have hboth : (orchestration numberText registry executors).Meets
      (fun h s i => NewIds h s i ∧ Settling numberText h s i) is :=
    fun pre i post his => ⟨hm pre i post his, hsettling pre i post his⟩
  refine ((orchestration numberText registry executors).induct
    (fun _ s => InFlight s ∧ Balanced s) ⟨inFlight_run numberText registry executors (.nil _ _),
      fun d hd => absurd hd (Table.not_mem_empty d)⟩ (fun _ s i h hi => ?_) hboth).2
  exact ⟨h.1.step hi.1, h.2.step h.1 hi.1 hi.2⟩

/-- **Delegations settle.** In every run with new ids: a call that raises at once has opened no
delegation; a call that ends leaves its delegation over, with the caller seeing the outcome as the
limits leave it, exactly if that outcome settles the delegation as it stands, and the executor's own
outcome exactly if moreover the limits leave that alone; and where all outcomes do and nobody else
uses the manager, the active delegations are those of the calls in flight. -/
theorem delegations_settle (is : List OrchestrationInput)
    (hm : (orchestration numberText registry executors).Meets NewIds is) :
    (∀ callId request agentId id,
      NewIds [] ((orchestration numberText registry executors).state is)
        (.delegate callId request agentId id) →
      (((orchestration numberText registry executors).state is).step numberText
          (.delegate callId request agentId id)).1 = .awaits ∨
        (((orchestration numberText registry executors).state is).step numberText
          (.delegate callId request agentId id)).2
            = (orchestration numberText registry executors).state is) ∧
    (∀ call ∈ ((orchestration numberText registry executors).state is).calls, ∀ outcome,
      ∃ d, ((orchestration numberText registry executors).state is).orchestrator.manager.delegations.get?
          call.delegationId = some d ∧
        (EndsAs numberText ((orchestration numberText registry executors).state is) call outcome
            (Orchestrator.limited numberText call.request outcome) ↔
          Settles d (Orchestrator.limited numberText call.request outcome)) ∧
        (EndsAs numberText ((orchestration numberText registry executors).state is) call outcome
            outcome ↔
          Settles d outcome ∧ Orchestrator.limited numberText call.request outcome = outcome)) ∧
    ((orchestration numberText registry executors).Meets (Settling numberText) is →
      ((orchestration numberText registry
          executors).state is).orchestrator.manager.activeDelegations.length
        = ((orchestration numberText registry executors).state is).calls.rows.length ∧
      ∀ d ∈ ((orchestration numberText registry executors).state is).orchestrator.manager.delegations,
        d.status.terminal = true ∨
          ∃ call ∈ ((orchestration numberText registry executors).state is).calls,
            call.delegationId = d.delegationId) := by
  have hflight := inFlight_run numberText registry executors hm
  generalize hstate : (orchestration numberText registry executors).state is = s at hflight ⊢
  refine ⟨fun callId request agentId id hnew => ?_, fun call hcall outcome => ?_, fun hs => ?_⟩
  · have hstep := step_spec numberText hflight.known (.delegate callId request agentId id)
    generalize (s.step numberText (.delegate callId request agentId id)).1 = answer,
      (s.step numberText (.delegate callId request agentId id)).2 = s' at hstep ⊢
    cases hstep with
    | idle _ _ => exact .inr rfl
    | unopened new selected reserved raised =>
      obtain ⟨registry, hopen⟩ := openDelegation_new hnew.1 selected reserved
      rw [hopen] at raised
      cases raised
    | opened new selected reserved awaits => exact .inl rfl
  · obtain ⟨d, hd, -, hfallback, hstatus⟩ := hflight.held call hcall
    obtain ⟨hmem, hid⟩ := Table.get?_eq_some.mp hd
    have hrec := hflight.manager.recordable d hmem
    refine ⟨d, hd, ?_, ?_⟩
    · rw [endsAs_iff hflight hcall, ← hid]
      exact settle_iff hmem hrec hfallback hstatus _
    · rw [endsAs_iff hflight hcall, ← hid]
      exact settle_own_iff hmem hrec hfallback hstatus
        (Orchestrator.limited_spec numberText call.request outcome)
  · have hbalanced := balanced_run numberText registry executors hm hs
    rw [hstate] at hbalanced
    refine ⟨hbalanced.length_active hflight, fun d hd => ?_⟩
    rcases hbalanced d hd with ⟨-, hcall⟩ | ⟨ht, -⟩
    · exact .inr hcall
    · exact .inl ht

instance (h : List (OrchestrationInput × OrchestrationAnswer)) (s : Orchestration) :
    ∀ i, Decidable (NewIds h s i)
  | .delegate _ _ _ id => inferInstanceAs (Decidable (Text.isBlank id = false ∧ _ = none))
  | .manager c => inferInstanceAs (Decidable (c.Fresh s.orchestrator.manager))
  | .ended _ _ => .isTrue trivial
  | .registry _ => .isTrue trivial
  | .registerExecutor _ => .isTrue trivial
  | .replaced => .isTrue trivial

/-- A task is delegated to `ada`. -/
def delegatedToAda : List OrchestrationInput := [.delegate 0 reviewRequest none "delegation-1"]

theorem delegations_settle_ada :
    ∃ call ∈ ((orchestration (fun _ => "1.0") adaRegistry ["ada"]).state delegatedToAda).calls.rows,
      ∃ d, ((orchestration (fun _ => "1.0") adaRegistry
          ["ada"]).state delegatedToAda).orchestrator.manager.delegations.get? call.delegationId
            = some d ∧
        (EndsAs (fun _ => "1.0")
            ((orchestration (fun _ => "1.0") adaRegistry ["ada"]).state delegatedToAda) call .cancelled
            (Orchestrator.limited (fun _ => "1.0") call.request .cancelled) ↔
          Settles d (Orchestrator.limited (fun _ => "1.0") call.request .cancelled)) ∧
        (EndsAs (fun _ => "1.0")
            ((orchestration (fun _ => "1.0") adaRegistry ["ada"]).state delegatedToAda) call .cancelled
            .cancelled ↔
          Settles d .cancelled ∧
            Orchestrator.limited (fun _ => "1.0") call.request .cancelled = .cancelled) := by
  have hcall : ∃ call ∈ ((orchestration (fun _ => "1.0") adaRegistry
      ["ada"]).state delegatedToAda).calls.rows, call.callId = 0 := by
    decide +kernel
  obtain ⟨call, hcall, -⟩ := hcall
  exact ⟨call, hcall, (delegations_settle (fun _ => "1.0") adaRegistry ["ada"] delegatedToAda
    (by decide +kernel)).2.1 call hcall .cancelled⟩

/-- An exception without a message leaves the delegation running, and the caller another one. -/
theorem blank_exception_unsettled :
    ¬ ∀ is, (orchestration (fun _ => "1.0") adaRegistry ["ada"]).Meets NewIds is →
      ∀ call ∈ ((orchestration (fun _ => "1.0") adaRegistry ["ada"]).state is).calls,
        ∀ outcome, EndsAs (fun _ => "1.0")
          ((orchestration (fun _ => "1.0") adaRegistry ["ada"]).state is) call outcome
          (Orchestrator.limited (fun _ => "1.0") call.request outcome) := by
  intro h
  have hrun : ∃ call ∈ ((orchestration (fun _ => "1.0") adaRegistry
      ["ada"]).state delegatedToAda).calls.rows,
      (((orchestration (fun _ => "1.0") adaRegistry ["ada"]).state delegatedToAda).step
        (fun _ => "1.0") (.ended call.callId (.raised (.other "RuntimeError" "")))).1
      ≠ .sees (Orchestrator.limited (fun _ => "1.0") call.request
          (.raised (.other "RuntimeError" ""))) := by
    decide +kernel
  obtain ⟨call, hcall, hne⟩ := hrun
  exact hne (h delegatedToAda (by decide +kernel) call hcall (.raised (.other "RuntimeError" ""))).1

end UniversalAgent.MultiAgent
