import UniversalAgent.MultiAgent.OrchestratorSteps

/-!
# MultiAgent — Instances

Agent instances under delegation. The status of an instance is the orchestrator's lock and the
operator's switch: a call takes a ready instance, marks it busy, and marks it ready when it ends,
whatever the status has become. So it excludes a second call as long as nobody else makes a busy
instance ready, and what an operator sets while a call is in progress does not outlast the call.
-/

namespace UniversalAgent.MultiAgent

open UniversalAgent.Core UniversalAgent.Foundation

def Withdrawn (s : Orchestration) (a : AgentId) : Prop :=
  s.orchestrator.registry.statusOf a = some .offline ∨
    s.orchestrator.registry.statusOf a = some .draining

/-- An operator sets instances with a call in progress to statuses of a kind only. -/
def SetsInUse (P : AgentInstanceStatus → Prop) (_ : List (OrchestrationInput × OrchestrationAnswer))
    (s : Orchestration) : OrchestrationInput → Prop
  | .registry (.updateInstanceStatus a status) =>
    P status ∨ ∀ call ∈ s.calls, call.agentId ≠ a
  | _ => True

def Alone (s : Orchestration) : Prop :=
  ∀ call ∈ s.calls, ∀ call' ∈ s.calls, call.agentId = call'.agentId → call = call'

structure InUse (P : AgentInstanceStatus → Prop) (s : Orchestration) : Prop where
  within : ∀ call ∈ s.calls,
    ∃ status, s.orchestrator.registry.statusOf call.agentId = some status ∧ P status
  alone : Alone s

variable (numberText : Amount → String)

def StartsReady (s : Orchestration) : Prop :=
  ∀ callId request agentId id,
    (s.step numberText (.delegate callId request agentId id)).1 = .awaits →
      ∃ call ∈ (s.step numberText (.delegate callId request agentId id)).2.calls,
        call.callId = callId ∧ s.orchestrator.registry.statusOf call.agentId = some .ready

def KeepsWithdrawn (s : Orchestration) : Prop :=
  ∀ call ∈ s.calls, ∀ outcome, Withdrawn s call.agentId →
    Withdrawn (s.step numberText (.ended call.callId outcome)).2 call.agentId

structure Controlled (s : Orchestration) : Prop where
  alone : Alone s
  ready : StartsReady numberText s
  kept : KeepsWithdrawn numberText s

/-! ## Steps -/

section Steps

variable {s : Orchestration}

/-- The status of the selected instance before the call is opened, and of all instances after. -/
theorem opened_status {callId : CallId} {request : AgentTaskRequest} {agentId : Option AgentId}
    {id : DelegationId} {i : AgentInstanceRecord} {o : Orchestrator} {call : Call}
    (hselected : s.orchestrator.selectInstance request agentId = .ok i)
    (hreserved : s.orchestrator.reserveDelegation request = .ok o)
    (hawaits : (o.openDelegation callId request i.agentId id).1 = .ok call) :
    call.callId = callId ∧ s.orchestrator.registry.statusOf call.agentId = some .ready ∧
      ∀ a, (o.openDelegation callId request i.agentId id).2.registry.statusOf a
        = if a = call.agentId then some .busy else s.orchestrator.registry.statusOf a := by
  obtain ⟨hid, hagent, -, hstatus⟩ := openDelegation_awaits hawaits
  obtain ⟨hmem, hready⟩ := Orchestrator.selectInstance_spec hselected
  rw [(Orchestrator.reserveDelegation_frame hreserved).1] at hstatus
  refine ⟨hid, ?_, by rw [hagent]; exact hstatus⟩
  rw [hagent, Orchestrator.statusOf_of_mem hmem, hready]

theorem startsReady (hknown : Known s) : StartsReady numberText s := by
  intro callId request agentId id h
  have hstep := step_spec numberText hknown (.delegate callId request agentId id)
  generalize (s.step numberText (.delegate callId request agentId id)).1 = answer,
    (s.step numberText (.delegate callId request agentId id)).2 = s' at hstep h ⊢
  cases hstep with
  | idle _ hanswer => exact absurd h hanswer
  | unopened new selected reserved raised => cases h
  | opened new selected reserved awaits =>
    obtain ⟨hid, hready, -⟩ := opened_status selected reserved awaits
    exact ⟨_, Table.mem_put_self _ _, hid, hready⟩

/-- Whatever it was, the instance of a call that ends is ready. -/
theorem ended_ready (hknown : Known s) {call : Call} (hcall : call ∈ s.calls) (outcome : Outcome) :
    (s.step numberText (.ended call.callId outcome)).2.orchestrator.registry.statusOf call.agentId
      = some .ready := by
  have hstep := step_spec numberText hknown (.ended call.callId outcome)
  have hget := Table.get?_of_mem hcall
  simp only [Orchestration.step, hget]
  obtain ⟨registry, hfreed, hfinish⟩ :=
    Orchestrator.finishDelegate_spec numberText outcome (hknown call hcall)
  simp only [hfinish]
  rw [hfreed, if_pos rfl]

theorem keepsWithdrawn_iff (hknown : Known s) :
    KeepsWithdrawn numberText s ↔ ∀ call ∈ s.calls, ¬ Withdrawn s call.agentId := by
  constructor
  · intro h call hcall hout
    have hready := ended_ready numberText hknown hcall .cancelled
    rcases h call hcall .cancelled hout with hafter | hafter <;> rw [hready] at hafter <;> cases hafter
  · exact fun h call hcall outcome hout => absurd hout (h call hcall)

theorem InUse.known {P : AgentInstanceStatus → Prop} (h : InUse P s) : Known s := by
  intro call hcall
  obtain ⟨status, hstatus, -⟩ := h.within call hcall
  rw [hstatus]
  rfl

theorem InUse.step {P : AgentInstanceStatus → Prop} (hbusy : P .busy) (hready : ¬ P .ready)
    (h : InUse P s) {i : OrchestrationInput} (hi : SetsInUse P [] s i) :
    InUse P (s.step numberText i).2 := by
  have hstep := step_spec numberText h.known i
  generalize (s.step numberText i).1 = answer, (s.step numberText i).2 = s' at hstep ⊢
  cases hstep with
  | idle _ _ => exact h
  | unopened new selected reserved raised =>
    refine ⟨fun call hcall => ?_, h.alone⟩
    rw [openDelegation_raises raised, (Orchestrator.reserveDelegation_frame reserved).1]
    exact h.within call hcall
  | @opened _ _ _ _ _ _ call new selected reserved awaits =>
    obtain ⟨hid, hfree, hstatus⟩ := opened_status selected reserved awaits
    -- the new call's instance was ready, so no other call has it
    have hother : ∀ call' ∈ s.calls, call'.agentId ≠ call.agentId := by
      intro call' hcall' heq
      obtain ⟨status, hbefore, hP⟩ := h.within call' hcall'
      rw [heq, hfree] at hbefore
      cases hbefore
      exact hready hP
    refine ⟨fun call' hcall' => ?_, fun call' hcall' call'' hcall'' heq => ?_⟩
    · rw [hstatus]
      rcases Table.mem_put.mp hcall' with rfl | ⟨hcall', -⟩
      · exact ⟨.busy, if_pos rfl, hbusy⟩
      · rw [if_neg (hother call' hcall')]
        exact h.within call' hcall'
    · rcases Table.mem_put.mp hcall' with hnew | ⟨hold, -⟩ <;>
        rcases Table.mem_put.mp hcall'' with hnew' | ⟨hold', -⟩
      · exact hnew.trans hnew'.symm
      · exact absurd (heq.symm.trans (congrArg Call.agentId hnew)) (hother call'' hold')
      · exact absurd (heq.trans (congrArg Call.agentId hnew')) (hother call' hold)
      · exact h.alone call' hold call'' hold' heq
  | @ended _ call _ outcome inFlight freed =>
    have hcall := (Table.get?_eq_some.mp inFlight).1
    refine ⟨fun call' hcall' => ?_, fun call' hcall' call'' hcall'' heq => ?_⟩
    · obtain ⟨hmem, hne⟩ := Table.mem_erase.mp hcall'
      have hagent : call'.agentId ≠ call.agentId := by
        intro heq
        rw [h.alone call' hmem call hcall heq, (Table.get?_eq_some.mp inFlight).2] at hne
        exact hne rfl
      rw [freed, if_neg hagent]
      exact h.within call' hmem
    · exact h.alone call' (Table.mem_erase.mp hcall').1 call'' (Table.mem_erase.mp hcall'').1 heq
  | registry ok =>
    refine ⟨fun call hcall => ?_, h.alone⟩
    rcases AgentRegistry.statusOf_call ok call.agentId with heq | ⟨status, rfl, heq⟩ | hnone
    · rw [heq]
      exact h.within call hcall
    · exact ⟨status, heq, hi.resolve_right fun hfree => hfree call hcall rfl⟩
    · obtain ⟨status, hstatus, -⟩ := h.within call hcall
      rw [hnone] at hstatus
      cases hstatus
  | registerExecutor executors => exact ⟨h.within, h.alone⟩
  | manager c _ => exact ⟨h.within, h.alone⟩
  | replaced ok =>
    refine ⟨fun call hcall => ?_, h.alone⟩
    rw [(Orchestrator.restored_frame ok).1]
    exact h.within call hcall

end Steps

/-! ## Runs -/

variable (registry : AgentRegistry) (executors : List AgentId)

theorem inUse_run {P : AgentInstanceStatus → Prop} (hbusy : P .busy) (hready : ¬ P .ready)
    {is : List OrchestrationInput}
    (hm : (orchestration numberText registry executors).Meets (SetsInUse P) is) :
    InUse P ((orchestration numberText registry executors).state is) :=
  (orchestration numberText registry executors).induct (fun _ s => InUse P s)
    ⟨fun call hcall => absurd hcall (Table.not_mem_empty call),
      fun call hcall => absurd hcall (Table.not_mem_empty call)⟩
    (fun _ _ _ h hi => h.step numberText hbusy hready hi) hm

/-- **Instances and operators.** A task is always started on a ready instance. Two calls are never
in progress on one instance in runs where no operator makes an instance ready that has a call in
progress. A call that ends keeps an instance out of service if and only if none with a call in
progress is; so operators keep control in runs where they leave such instances alone, or busy. -/
theorem instances_controlled (is : List OrchestrationInput) :
    StartsReady numberText ((orchestration numberText registry executors).state is) ∧
    ((orchestration numberText registry executors).Meets (SetsInUse (· ≠ .ready)) is →
      Alone ((orchestration numberText registry executors).state is)) ∧
    (KeepsWithdrawn numberText ((orchestration numberText registry executors).state is) ↔
      ∀ call ∈ ((orchestration numberText registry executors).state is).calls,
        ¬ Withdrawn ((orchestration numberText registry executors).state is) call.agentId) ∧
    ((orchestration numberText registry executors).Meets (SetsInUse (· = .busy)) is →
      Controlled numberText ((orchestration numberText registry executors).state is)) := by
  have hknown := known_run numberText registry executors is
  refine ⟨startsReady numberText hknown, fun hm => ?_, keepsWithdrawn_iff numberText hknown,
    fun hm => ?_⟩
  · exact (inUse_run numberText registry executors (by simp) (by simp) hm).alone
  · have hbusy : InUse (· = .busy) ((orchestration numberText registry executors).state is) :=
      inUse_run numberText registry executors (P := (· = .busy)) rfl (by simp) hm
    refine ⟨hbusy.alone, startsReady numberText hknown,
      (keepsWithdrawn_iff numberText hknown).mpr ?_⟩
    intro call hcall hout
    obtain ⟨status, hstatus, rfl⟩ := hbusy.within call hcall
    rcases hout with hout | hout <;> rw [hstatus] at hout <;> cases hout

instance (P : AgentInstanceStatus → Prop) [DecidablePred P]
    (h : List (OrchestrationInput × OrchestrationAnswer)) (s : Orchestration) :
    ∀ i, Decidable (SetsInUse P h s i)
  | .registry (.updateInstanceStatus a status) =>
    inferInstanceAs (Decidable (P status ∨ ∀ call ∈ s.calls.rows, call.agentId ≠ a))
  | .registry (.registerProfile _) => .isTrue trivial
  | .registry (.registerInstance _) => .isTrue trivial
  | .delegate _ _ _ _ => .isTrue trivial
  | .ended _ _ => .isTrue trivial
  | .registerExecutor _ => .isTrue trivial
  | .manager _ => .isTrue trivial
  | .replaced => .isTrue trivial

/-- An operator takes `ada` out of service and back, and she is given a task. -/
def withdrawnBefore : List OrchestrationInput :=
  [.registry (.updateInstanceStatus "ada" .offline), .registry (.updateInstanceStatus "ada" .ready),
    .delegate 0 reviewRequest none "delegation-1"]

theorem instances_controlled_before :
    Controlled (fun _ => "1.0")
      ((orchestration (fun _ => "1.0") adaRegistry ["ada"]).state withdrawnBefore) :=
  (instances_controlled (fun _ => "1.0") adaRegistry ["ada"] withdrawnBefore).2.2.2
    (by decide +kernel)

/-- An operator takes `ada` out of service while she executes. -/
def withdrawnDuring : List OrchestrationInput :=
  [.delegate 0 reviewRequest none "delegation-1",
    .registry (.updateInstanceStatus "ada" .offline)]

theorem withdrawn_overwritten :
    ¬ ∀ is, Controlled (fun _ => "1.0")
      ((orchestration (fun _ => "1.0") adaRegistry ["ada"]).state is) := by
  intro h
  have hrun : ∃ call ∈ ((orchestration (fun _ => "1.0") adaRegistry ["ada"]).state
      withdrawnDuring).calls.rows,
      ((orchestration (fun _ => "1.0") adaRegistry ["ada"]).state
          withdrawnDuring).orchestrator.registry.statusOf call.agentId = some .offline ∧
        (((orchestration (fun _ => "1.0") adaRegistry ["ada"]).state withdrawnDuring).step
          (fun _ => "1.0") (.ended call.callId .cancelled)).2.orchestrator.registry.statusOf
            call.agentId = some .ready := by
    decide +kernel
  obtain ⟨call, hcall, hbefore, hafter⟩ := hrun
  rcases (h withdrawnDuring).kept call hcall .cancelled (.inl hbefore) with hkept | hkept <;>
    rw [hafter] at hkept <;> cases hkept

end UniversalAgent.MultiAgent
