import UniversalAgent.Domain.Authority
import UniversalAgent.Runtime.ActionRules

/-!
# Runtime — Policy gate

Whether a side effect needs a policy that allows it. A tool is started only behind the policies; what
they allow by default is decided by the category of the capability, and what a read-only session forbids
by the side effect of the tool as well.
-/

namespace UniversalAgent.Runtime.Actions

open UniversalAgent.Core UniversalAgent.Domain UniversalAgent.Foundation UniversalAgent.Policies
open UniversalAgent.Tools UniversalAgent.World

section Gate

variable (executor : ActionExecutor)

/-! ## Who allows an action -/

/-- A policy allows the action, or asks for the confirmation that was given. -/
def SaysAllow (results : List Domains.PolicyResult) (confirmed : Bool) : Prop :=
  Says results .allow ∨ Says results .requireConfirmation ∧ confirmed = true

/-- The action of a call, in a session: it was confirmed if `given` says so, or if an equal one was
before. -/
def AllowedIn (given : ActionId → Prop) (state : AgentState) (call : ToolCall) (tool : ToolDefinition) :
    Prop :=
  ∃ pending resolution confirmed, toolCall pending = call ∧
    executor.components.resolver.resolveRegistration pending.capability = .ok resolution ∧
    resolution.tool = tool ∧
    (confirmed = true →
      given call.actionId ∨ actionFingerprint executor pending ∈ state.approvedFingerprints) ∧
    SaysAllow (resultsOf executor.components.policies
      (contextOf state pending resolution executor.environment confirmed)) confirmed

/-- What is run: decisions, and pending actions that were confirmed. -/
def ActionRun (given : ActionId → Prop) (p : ActionM Unit) : Prop :=
  ∃ steps driven, p = drive executor steps driven ∧
    ∀ pending, driven = .pending pending → given pending.actionId

structure ExplicitAllow : Prop where
  /-- What is started was allowed in the session that the action read. -/
  started : ∀ registries given c, Reach registries (ActionRun executor given) respond (fun _ _ => True) c →
    ∀ pre e post, c.history = pre ++ e :: post → ∀ call tool, e.op = .start call tool →
      tool.sideEffect ≠ .none →
        ∃ session, ⟨e.thread, .readSession, .ok session⟩ ∈ pre ∧
          AllowedIn executor given session.1 call tool
  /-- What no policy speaks about is allowed only if it is read-only on both sides. -/
  default : ∀ state pending resolution confirmed,
    executor.components.resolver.resolveRegistration pending.capability = .ok resolution →
    (∀ policy ∈ executor.components.policies, policy.evaluate
      (contextOf state pending resolution executor.environment confirmed) = none) →
    (policyResult executor state pending resolution confirmed).effect = .allow →
      resolution.capability.category ≠ .mutation ∧ resolution.tool.sideEffect = .none

/-- Some policy speaks about every action whose capability is not a mutation and whose tool has a side
effect, unless the session is read-only. -/
def Spoken : Prop :=
  ∀ state pending resolution confirmed, state.readOnly = false →
    executor.components.resolver.resolveRegistration pending.capability = .ok resolution →
    resolution.capability.category ≠ .mutation → resolution.tool.sideEffect ≠ .none →
      ∃ policy ∈ executor.components.policies, ∃ r, policy.evaluate
        (contextOf state pending resolution executor.environment confirmed) = some r

/-! ## The gate -/

/-- A session that may have side effects leaves the verdict to the policies. -/
theorem policyResult_of_writable {state : AgentState} (h : state.readOnly = false)
    (pending : PendingAction) (resolution : CapabilityResolution) (confirmed : Bool) :
    policyResult executor state pending resolution confirmed =
      check executor.components.policies
        (contextOf state pending resolution executor.environment confirmed) := by
  simp [policyResult, readOnlyPolicyResult, h]

variable {resolution : CapabilityResolution} {confirmed : Bool}

/-- A read-only session allows what is read-only on both sides. -/
theorem policyResult_of_readOnly {state : AgentState} (h : state.readOnly = true)
    {pending : PendingAction}
    (hallow : (policyResult executor state pending resolution confirmed).effect = .allow) :
    resolution.capability.category ≠ .mutation ∧ resolution.tool.sideEffect = .none := by
  by_contra hside
  simp [policyResult, readOnlyPolicyResult, h, hside] at hallow

/-- What the policies allow, one of them allows, unless none speaks. -/
theorem saysAllow_of_check {policies : List Policy} {context : PolicyContext}
    (hallow : (check policies context).effect = .allow) (hspeaks : resultsOf policies context ≠ []) :
    SaysAllow (resultsOf policies context) context.confirmed := by
  obtain ⟨hdeny, hconfirm, -, -⟩ := verdict_effect (resultsOf policies context)
    context.capability.category context.confirmed
  have heffect : ∀ effect, (check policies context).effect = effect → effect = .allow :=
    fun effect h => h.symm.trans hallow
  by_cases hd : Says (resultsOf policies context) .deny
  · cases heffect _ (hdeny hd)
  · by_cases hc : Says (resultsOf policies context) .requireConfirmation
    · refine .inr ⟨hc, ?_⟩
      by_contra hconfirmed
      have h := heffect _ (hconfirm hd hc)
      rw [if_neg hconfirmed] at h
      cases h
    · rcases says_of_ne_nil hspeaks with h | h | h
      · exact absurd h hd
      · exact absurd h hc
      · exact .inl h

/-- Where the policies speak, a side effect that is allowed is allowed by one of them. -/
theorem saysAllow_of_spoken (hspoken : Spoken executor) {state : AgentState} {pending : PendingAction}
    (hresolve : executor.components.resolver.resolveRegistration pending.capability = .ok resolution)
    (hallow : (policyResult executor state pending resolution confirmed).effect = .allow)
    (hside : resolution.tool.sideEffect ≠ .none) :
    SaysAllow (resultsOf executor.components.policies
      (contextOf state pending resolution executor.environment confirmed)) confirmed := by
  have hwritable : state.readOnly = false := by
    by_contra h
    exact hside (policyResult_of_readOnly executor (Bool.not_eq_false _ ▸ h) hallow).2
  rw [policyResult_of_writable executor hwritable] at hallow
  refine saysAllow_of_check hallow fun hnone => ?_
  by_cases hm : resolution.capability.category = .mutation
  · have h := (verdict_effect (resultsOf executor.components.policies
      (contextOf state pending resolution executor.environment confirmed))
      resolution.capability.category confirmed).2.2.2 hnone
    rw [if_pos hm] at h
    cases hallow.symm.trans h
  · obtain ⟨policy, hpolicy, r, hr⟩ := hspoken state pending resolution confirmed hwritable hresolve hm hside
    exact absurd (resultsOf_eq_nil.mp hnone policy hpolicy) (by simp [hr])

/-! ## What an action starts -/

def Starts (allowed : ToolCall → ToolDefinition → Prop) : Op → Prop
  | .readSession => False
  | .start call tool => allowed call tool
  | _ => True

variable {allowed : ToolCall → ToolDefinition → Prop}

theorem starts_of_quiet (o : Op) (h : Op.Quiet o) : Starts allowed o := by
  cases o <;> first | exact h.elim | trivial

theorem executeTool_starts {call : ToolCall}
    (h : ∀ registration, executor.components.tools.get? call.toolName = some registration →
      allowed call registration.tool) :
    (executeTool executor call).Only (Starts allowed) := by
  unfold executeTool
  split
  · exact .pure _
  · next registration hget =>
    split
    · exact .pure _
    · split
      · exact .pure _
      · split
        · exact .pure _
        · split
          · exact .pure _
          · exact .bind (ask_only (h registration hget)) fun _ =>
              .bind (ask_only trivial) fun ended => .pure _

theorem executeLocked_starts {pending : PendingAction} {tool : ToolDefinition} {remembers : Bool}
    (h : ∀ registration, executor.components.tools.get? pending.toolName = some registration →
      allowed (toolCall pending) registration.tool) :
    (executeLocked executor pending tool remembers).Only (Starts allowed) := by
  refine .bind (ite_only (ask_only trivial) (.pure _)) fun recorded => ?_
  refine .tryCatch (.bind (whenever_only (ask_only trivial)) fun _ => ?_) fun e =>
    .bind (whenever_only (ask_only trivial)) fun _ => .raise e
  split
  · exact (reconcileRequired_quiet executor pending).mono starts_of_quiet
  · refine .bind (.bind (ask_only trivial) fun _ => .bind (executeTool_starts executor h) fun result =>
      .bind (ask_only trivial) fun _ =>
        .bind (whenever_only ((updateResourceVersion_quiet _ _).mono starts_of_quiet)) fun _ =>
          (observe_quiet _ _).mono starts_of_quiet) fun outcome => ?_
    cases outcome with
    | observed pending result =>
      exact .bind (whenever_only (ask_only trivial)) fun _ =>
        .bind (whenever_only (ask_only trivial)) fun _ => .pure _
    | rejected errorCode reason => exact .pure _
    | confirmationRequired pending reason => exact .pure _

/-! ## The sessions that a run has read -/

/-- Follows the sessions that are read; a side effect must be allowed in one of them. -/
def gateMonitor (given : ActionId → Prop) : Monitor Op Answer Interrupt (List AgentState) where
  allowed read o :=
    match o with
    | .start call tool =>
      tool.sideEffect ≠ .none → ∃ state ∈ read, AllowedIn executor given state call tool
    | _ => True
  next read o a :=
    match o, a with
    | .readSession, .ok session => session.1 :: read
    | _, _ => read

variable {given : ActionId → Prop}

theorem gateMonitor_idle (read : List AgentState) : Idle (gateMonitor executor given) read := by
  intro o h
  cases o <;> first | exact h.elim | exact ⟨trivial, fun _ => rfl⟩

/-- The tool that a resolved action starts is the one it was resolved to. -/
theorem resolved_tool {name : String} {registration : ToolRegistration}
    (hresolve : executor.components.resolver.resolveRegistration name = .ok resolution)
    (hget : executor.components.tools.get? resolution.tool.name = some registration) :
    registration.tool = resolution.tool := by
  obtain ⟨capability, item, -, hpreferred, rfl⟩ := resolveRegistration_ok hresolve
  obtain ⟨hmem, hname⟩ := Table.get?_eq_some.mp hget
  have hitem : item ∈ executor.components.tools := (List.mem_filter.mp (preferred_mem hpreferred)).1
  rw [Table.eq_of_key hmem hitem hname]

theorem ensureResourceMetadata_same (pending : PendingAction) (sideEffect : SideEffect) :
    (ensureResourceMetadata pending sideEffect).toolName = pending.toolName ∧
      (ensureResourceMetadata pending sideEffect).capability = pending.capability ∧
      (ensureResourceMetadata pending sideEffect).actionId = pending.actionId := by
  unfold ensureResourceMetadata
  split
  · exact ⟨rfl, rfl, rfl⟩
  · dsimp only
    split <;> exact ⟨rfl, rfl, rfl⟩

/-- An action that a policy allows starts its tool; where the policies speak, no other does. -/
theorem execute_gated (hspoken : Spoken executor) {read : List AgentState} {state : AgentState}
    (hread : state ∈ read) {pending : PendingAction}
    (hgiven : confirmed = true → given pending.actionId) :
    Returns (gateMonitor executor given) (execute executor state pending confirmed) read := by
  refine execute_returns executor (gateMonitor_idle executor read) fun resolution remembers hresolve hname => ?_
  intro action hallow
  obtain ⟨htool, hcapability, hid⟩ := ensureResourceMetadata_same pending resolution.tool.sideEffect
  have hstarts : (executeLocked executor action resolution.tool remembers).Only
      (Starts fun call tool => tool.sideEffect ≠ .none → AllowedIn executor given state call tool) := by
    refine executeLocked_starts executor fun registration hget hside => ?_
    rw [htool, ← hname] at hget
    rw [resolved_tool executor hresolve hget] at hside ⊢
    have hresolve' := hcapability.symm ▸ hresolve
    refine ⟨action, resolution, _, rfl, hresolve', rfl, fun hconfirmed => ?_,
      saysAllow_of_spoken executor hspoken hresolve' hallow hside⟩
    rcases Bool.or_eq_true_iff.mp hconfirmed with hconfirmed | hremembered
    · refine .inl ?_
      change given action.actionId
      rw [hid]
      exact hgiven hconfirmed
    · exact .inr (of_decide_eq_true hremembered)
  refine hstarts.meets fun o ho => ?_
  cases o <;> first
    | exact ho.elim
    | exact ⟨trivial, fun _ => rfl⟩
    | exact ⟨fun hside => ⟨state, hread, ho hside⟩, fun _ => rfl⟩

theorem drive_gated (hspoken : Spoken executor) {p : ActionM Unit} (h : ActionRun executor given p)
    (read : List AgentState) :
    Prog.Meets (gateMonitor executor given) (fun _ _ => True) (fun _ _ => True) p read := by
  obtain ⟨steps, driven, rfl, hdriven⟩ := h
  refine drive_meets executor (I := fun _ => True)
    (D := fun driven => ∀ pending, driven = .pending pending → given pending.actionId)
    (fun read _ => gateMonitor_idle executor read) (fun _ _ => ⟨trivial, fun _ => trivial⟩)
    (fun decision pending h => nomatch h) (fun read _ session driven hd => ?_) hdriven trivial
  have hread : session.1 ∈ (gateMonitor executor given).next read .readSession (.ok session) :=
    List.mem_cons_self
  cases driven with
  | pending pending => exact execute_gated executor hspoken hread fun _ => hd pending rfl
  | decision decision =>
    exact prepare_returns executor (gateMonitor_idle executor _) fun pending =>
      execute_gated executor hspoken hread nofun

/-- What is started was allowed in a session that the same action had read, and what the monitors have
seen read was read. -/
structure GateKept (given : ActionId → Prop) (h : List (Event Op Answer Interrupt))
    (reads : List (List AgentState)) : Prop where
  started : ∀ pre e post, h = pre ++ e :: post → ∀ call tool, e.op = .start call tool →
    tool.sideEffect ≠ .none →
      ∃ session, ⟨e.thread, .readSession, .ok session⟩ ∈ pre ∧
        AllowedIn executor given session.1 call tool
  read : ∀ (i : Nat) read, reads[i]? = some read → ∀ state ∈ read,
    ∃ world, ⟨i, .readSession, .ok (state, world)⟩ ∈ h

theorem GateKept.spawn {h : List (Event Op Answer Interrupt)} {reads : List (List AgentState)}
    (hkept : GateKept executor given h reads) : GateKept executor given h (reads ++ [[]]) := by
  refine ⟨hkept.started, fun i read hi state hstate => ?_⟩
  rw [List.getElem?_append] at hi
  split at hi
  · exact hkept.read i read hi state hstate
  · obtain rfl := List.mem_singleton.mp (List.mem_of_getElem? hi)
    cases hstate

theorem GateKept.step {h : List (Event Op Answer Interrupt)} {reads : List (List AgentState)}
    (hkept : GateKept executor given h reads) {i : Nat} {read : List AgentState}
    (hi : reads[i]? = some read) {o : Op} (hallowed : (gateMonitor executor given).allowed read o)
    (a : Except Interrupt (Answer o)) :
    GateKept executor given (h ++ [⟨i, o, a⟩])
      (reads.set i ((gateMonitor executor given).next read o a)) := by
  refine ⟨fun pre e post hsplit call tool ho hside => ?_, fun j read' hj state hstate => ?_⟩
  · rcases split_concat hsplit with ⟨rfl, rfl⟩ | ⟨post', rfl⟩
    · dsimp only at ho
      subst ho
      obtain ⟨state, hstate, hstart⟩ := hallowed hside
      obtain ⟨world, hread⟩ := hkept.read i read hi state hstate
      exact ⟨(state, world), hread, hstart⟩
    · exact hkept.started pre e post' rfl call tool ho hside
  · have hbefore : ∀ read, reads[j]? = some read → state ∈ read →
        ∃ world, ⟨j, .readSession, .ok (state, world)⟩ ∈ h ++ [⟨i, o, a⟩] := fun read hj hstate => by
      obtain ⟨world, hread⟩ := hkept.read j read hj state hstate
      exact ⟨world, List.mem_append_left _ hread⟩
    by_cases hij : i = j
    · subst hij
      rw [List.getElem?_set_self (List.getElem?_eq_some_iff.mp hi).1] at hj
      obtain rfl := Option.some.inj hj
      by_cases hmem : state ∈ read
      · exact hbefore read hi hmem
      · -- what is new was read just now
        unfold gateMonitor at hstate
        dsimp only at hstate
        split at hstate
        · next session =>
          obtain rfl := (List.mem_cons.mp hstate).resolve_right hmem
          exact ⟨session.2, List.mem_append_right _ (List.mem_singleton.mpr rfl)⟩
        · exact absurd hstate hmem
    · rw [List.getElem?_set_ne hij] at hj
      exact hbefore read' hj hstate

/-- **A side effect needs a policy that allows it**, exactly if some policy speaks about every action of
a capability that is not a mutation and whose tool has a side effect. -/
theorem explicit_allow : ExplicitAllow executor ↔ Spoken executor := by
  constructor
  · intro h state pending resolution confirmed hwritable hresolve hm hside
    by_contra hsilent
    have hnone : ∀ policy ∈ executor.components.policies, policy.evaluate
        (contextOf state pending resolution executor.environment confirmed) = none := by
      intro policy hpolicy
      by_contra hspeaks
      obtain ⟨r, hr⟩ := Option.ne_none_iff_exists'.mp hspeaks
      exact hsilent ⟨policy, hpolicy, r, hr⟩
    refine hside (h.default state pending resolution confirmed hresolve hnone ?_).2
    rw [policyResult_of_writable executor hwritable]
    have heffect := (verdict_effect (resultsOf executor.components.policies
      (contextOf state pending resolution executor.environment confirmed))
      resolution.capability.category confirmed).2.2.2 (resultsOf_eq_nil.mpr hnone)
    rwa [if_neg hm] at heffect
  · intro hspoken
    refine ⟨fun registries given c hreach => ?_,
      fun state pending resolution confirmed hresolve hnone hallow => ?_⟩
    · obtain ⟨reads, -, hkept⟩ := hreach.monitored
        (fun _ h reads => GateKept executor given h reads)
        (fun p hp => drive_gated executor hspoken hp [])
        ⟨fun pre e post hsplit => absurd hsplit (by simp), fun i read hi => by simp at hi⟩
        (fun _ _ _ hkept => hkept.spawn)
        fun c reads i read o a s hkept hi hallowed _ _ => hkept.step executor hi hallowed a
      exact hkept.started
    · by_cases hwritable : state.readOnly = false
      · have hcheck := policyResult_of_writable executor hwritable pending resolution confirmed ▸ hallow
        have hm : resolution.capability.category ≠ .mutation := by
          intro hm
          have heffect := (verdict_effect (resultsOf executor.components.policies
            (contextOf state pending resolution executor.environment confirmed))
            resolution.capability.category confirmed).2.2.2 (resultsOf_eq_nil.mpr hnone)
          rw [if_pos hm] at heffect
          cases hcheck.symm.trans heffect
        refine ⟨hm, ?_⟩
        by_contra hside
        obtain ⟨policy, hpolicy, r, hr⟩ :=
          hspoken state pending resolution confirmed hwritable hresolve hm hside
        simp [hnone policy hpolicy] at hr
      · exact policyResult_of_readOnly executor (Bool.not_eq_false _ ▸ hwritable) hallow

end Gate

/-! ## A tool that writes for a capability that observes -/

/-- A domain with one capability that observes, and a destructive tool for it. -/
def misdeclared : DomainRuntime :=
  { mutating "files" "tidy_file" "file_tidy" [] with capabilities := [⟨"tidy_file", .observation⟩] }

def misdeclaredAlone : Domain.DomainComposition := ⟨[⟨misdeclared, rfl⟩], rfl⟩

/-- An executor of some components, without secrets, argument checks and a sandbox. -/
def plainExecutor (components : RuntimeComponents) : ActionExecutor where
  components := components
  environment := []
  resolveSecrets := .ok
  validateArguments _ _ := none
  sandbox := none
  parametersHash _ _ _ := "hash"
  canonicalText _ := "{}"

def tidying : Decision where
  type := .execute
  reason := "tidy up"
  capability := some "tidy_file"
  target := some "a.txt"

def sideEffectStarted : Op → Option (ToolCall × ToolDefinition)
  | .start call tool => if tool.sideEffect ≠ .none then some (call, tool) else none
  | _ => none

theorem sideEffectStarted_eq_some {o : Op} {started : ToolCall × ToolDefinition}
    (h : sideEffectStarted o = some started) :
    o = .start started.1 started.2 ∧ started.2.sideEffect ≠ .none := by
  cases o with
  | start call tool =>
    obtain ⟨hside, hstarted⟩ := Option.ite_none_right_eq_some.mp h
    obtain rfl := Option.some.inj hstarted
    exact ⟨rfl, hside⟩
  | _ => cases h

/-- No policy is there, and the destructive tool is started. -/
theorem destructive_by_default : ∃ components, build misdeclaredAlone = .ok components ∧
    ¬ExplicitAllow (plainExecutor components) := by
  refine ⟨_, rfl, ?_⟩
  generalize hexecutor : plainExecutor _ = executor
  intro h
  have hstart : Reach {} (ActionRun executor fun _ => False) respond (fun _ _ => True)
      ⟨{}, [drive executor 1 (.decision tidying)], []⟩ := .spawn .start ⟨1, _, rfl, nofun⟩
  obtain ⟨c, hreach, hhistory, -⟩ := hstart.runAlone (i := 0)
    (respond_answerBy (steadyWorld (cleanup, ⟨"session-1", [], [], [], []⟩) (.returned []))) rfl
  have hany : (c.history.findSome? fun e => sideEffectStarted e.op).isSome = true := by
    rw [hhistory, ← hexecutor]
    decide +kernel
  obtain ⟨started, hstarted⟩ := Option.isSome_iff_exists.mp hany
  obtain ⟨pre, e, post, hsplit, he, -⟩ := List.findSome?_eq_some_iff.mp hstarted
  obtain ⟨ho, hside⟩ := sideEffectStarted_eq_some he
  obtain ⟨session, -, pending, resolution, confirmed, -, -, -, -, hsaid⟩ :=
    h.started {} (fun _ => False) c hreach pre e post hsplit started.1 started.2 ho hside
  subst hexecutor
  rcases hsaid with ⟨r, hr, -⟩ | ⟨⟨r, hr, -⟩, -⟩ <;> cases hr

end UniversalAgent.Runtime.Actions
