import UniversalAgent.MultiAgent.Delegations

/-!
# MultiAgent — DelegationRuns

What the calls of a delegation manager do to its delegations and its ledger, in any order. A call
raises and changes nothing, or creates a delegation, or takes one along the transition table, or
hands a failed one to its fallback agent, which makes it pending again: no line of the table.

The run lemma is for runs that create delegations under new ids, with names that the ledger accepts.
-/

namespace UniversalAgent.MultiAgent

open UniversalAgent.Core UniversalAgent.Foundation

variable {c : ManagerCall} {m : DelegationManager} {id : DelegationId} {d : Delegation} {eventType : String}

/-! ## Permitted changes -/

def Requeued (c : ManagerCall) (d d' : Delegation) : Prop :=
  (∃ error, c = .fail d.delegationId error) ∧ d.status ∈ [.pending, .running] ∧
    d'.status = .pending ∧ d.fallbackAgent = some d'.toAgent

structure Permitted (c : ManagerCall) (d d' : Delegation) : Prop where
  same : d'.delegationId = d.delegationId ∧ d'.taskId = d.taskId ∧ d'.fromAgent = d.fromAgent ∧
    d'.contract = d.contract ∧ d'.fallbackAgent = d.fallbackAgent
  status : d' = d ∨ (d'.status ∈ d.status.allowedTransitions ∧ d'.toAgent = d.toAgent) ∨
    Requeued c d d'

theorem Permitted.refl (c : ManagerCall) (d : Delegation) : Permitted c d d :=
  ⟨⟨rfl, rfl, rfl, rfl, rfl⟩, .inl rfl⟩

theorem Permitted.terminal {d d' : Delegation} (h : Permitted c d d')
    (ht : d.status.terminal = true) : d' = d := by
  rcases h.status with heq | ⟨hmem, -⟩ | ⟨-, hmem, -, -⟩
  · exact heq
  · rw [DelegationStatus.terminal, List.isEmpty_iff] at ht
    rw [ht] at hmem
    cases hmem
  · simp only [List.mem_cons, List.not_mem_nil, or_false] at hmem
    rcases hmem with hs | hs <;> rw [hs] at ht <;> cases ht

/-! ## What a call does -/

inductive Changes (m : DelegationManager) (c : ManagerCall) : String → Delegation → Prop where
  | started {d : Delegation} (mem : d ∈ m.delegations) (call : c = .start d.delegationId)
      (from_ : d.status = .pending) : Changes m c "DelegationStarted" { d with status := .running }
  | revoked {d : Delegation} (mem : d ∈ m.delegations)
      (from_ : .revoked ∈ d.status.allowedTransitions) :
      Changes m c "DelegationRevoked" { d with status := .revoked }
  | completed {d : Delegation} (mem : d ∈ m.delegations) (result : AgentTaskResult)
      (from_ : .completed ∈ d.status.allowedTransitions) :
      Changes m c "DelegationCompleted" { d with status := .completed, result := some result }
  | requeued {d : Delegation} (mem : d ∈ m.delegations) (error : String) (result : AgentTaskResult)
      (agent : AgentId) (call : c = .fail d.delegationId error)
      (from_ : .failed ∈ d.status.allowedTransitions) (fallback : d.fallbackAgent = some agent) :
      Changes m c "DelegationFallbackQueued"
        { d with toAgent := agent, status := .pending, result := some result }
  | failed {d : Delegation} (mem : d ∈ m.delegations) (result : AgentTaskResult)
      (from_ : .failed ∈ d.status.allowedTransitions) (fallback : d.fallbackAgent = none) :
      Changes m c "DelegationFailed" { d with status := .failed, result := some result }

def ManagerCall.createdId : ManagerCall → Option DelegationId
  | .create _ _ _ _ delegationId generated =>
    match delegationId with
    | some id => if id = "" then some generated else some id
    | none => some generated
  | _ => none

inductive Created : ManagerCall → Delegation → Prop where
  | intro {fromAgent toAgent : AgentId} {contract : AgentTaskRequest}
      {fallbackAgent : Option AgentId} {delegationId : Option DelegationId}
      {generated id : DelegationId}
      (used : (ManagerCall.create fromAgent toAgent contract fallbackAgent delegationId
        generated).createdId = some id) :
      Created (.create fromAgent toAgent contract fallbackAgent delegationId generated)
        ⟨id, contract.taskId, fromAgent, toAgent, contract, .pending, none, fallbackAgent⟩

theorem get_ok (h : m.get id = .ok d) : d ∈ m.delegations ∧ d.delegationId = id := by
  unfold DelegationManager.get at h
  split at h
  · next d' hd =>
      cases h
      exact Table.get?_eq_some.mp hd
  · cases h

theorem transition_spec
    {target : DelegationStatus}
    (hchange : ∀ d ∈ m.delegations, d.delegationId = id → target ∈ d.status.allowedTransitions →
      Changes m c (DelegationManager.eventTypeForStatus target) { d with status := target }) :
    (∃ e, m.transition id target = (.error e, m)) ∨
      ∃ eventType d, m.transition id target = m.apply eventType d ∧ Changes m c eventType d := by
  unfold DelegationManager.transition
  split
  · next e _ => exact .inl ⟨e, rfl⟩
  · next d hd =>
      obtain ⟨hmem, hid⟩ := get_ok hd
      split
      · next htarget => exact .inr ⟨_, _, rfl, hchange d hmem hid htarget⟩
      · exact .inl ⟨_, rfl⟩

/-- A call raises and leaves the manager alone, or stores a new delegation or a changed one, and
records it. -/
theorem call_spec (m : DelegationManager) (c : ManagerCall) :
    (∃ e, m.call c = (.error e, m)) ∨
      ∃ eventType d, m.call c = m.apply eventType d ∧
        (eventType = "DelegationCreated" ∧ Created c d ∨ Changes m c eventType d) := by
  cases c with
  | create fromAgent toAgent contract fallbackAgent delegationId generated =>
    refine .inr ⟨"DelegationCreated", _, rfl, .inl ⟨rfl, .intro ?_⟩⟩
    unfold ManagerCall.createdId
    cases delegationId with
    | none => rfl
    | some id => by_cases hid : id = "" <;> simp [hid]
  | start id =>
    have hchange : ∀ d ∈ m.delegations, d.delegationId = id →
        .running ∈ d.status.allowedTransitions →
        Changes m (.start id) (DelegationManager.eventTypeForStatus .running)
          { d with status := .running } := by
      intro d hmem hid ht
      have hfrom : d.status = .pending := by
        cases hs : d.status <;> simp [hs, DelegationStatus.allowedTransitions] at ht ⊢
      exact .started hmem (by rw [hid]) hfrom
    rcases transition_spec hchange with h | ⟨eventType, d, h, hc⟩
    · exact .inl h
    · exact .inr ⟨eventType, d, h, .inr hc⟩
  | revoke id =>
    have hchange : ∀ d ∈ m.delegations, d.delegationId = id →
        .revoked ∈ d.status.allowedTransitions →
        Changes m (.revoke id) (DelegationManager.eventTypeForStatus .revoked)
          { d with status := .revoked } := fun d hmem _ ht => .revoked hmem ht
    rcases transition_spec hchange with h | ⟨eventType, d, h, hc⟩
    · exact .inl h
    · exact .inr ⟨eventType, d, h, .inr hc⟩
  | complete id result =>
    simp only [DelegationManager.call, DelegationManager.complete]
    split
    · next e _ => exact .inl ⟨e, rfl⟩
    · next d hd =>
        obtain ⟨hmem, hid⟩ := get_ok hd
        split
        · exact .inl ⟨_, rfl⟩
        · next hfrom =>
            split
            · exact .inl ⟨_, rfl⟩
            · exact .inr ⟨_, _, rfl, .inr (.completed hmem result (not_not.mp hfrom))⟩
  | fail id error =>
    simp only [DelegationManager.call, DelegationManager.fail]
    split
    · next e _ => exact .inl ⟨e, rfl⟩
    · next d hd =>
        obtain ⟨hmem, hid⟩ := get_ok hd
        split
        · exact .inl ⟨_, rfl⟩
        · next hfrom =>
            split
            · next e _ => exact .inl ⟨e, rfl⟩
            · next result _ =>
                split
                · next agent hfallback =>
                    exact .inr ⟨_, _, rfl, .inr (.requeued hmem error result agent
                      (by rw [hid]) (not_not.mp hfrom) hfallback)⟩
                · next hfallback =>
                    exact .inr ⟨_, _, rfl, .inr (.failed hmem result (not_not.mp hfrom) hfallback)⟩

theorem Changes.permitted
    {d' : Delegation} (h : Changes m c eventType d') : ∃ d ∈ m.delegations, Permitted c d d' := by
  cases h with
  | started mem call from_ =>
    refine ⟨_, mem, ⟨rfl, rfl, rfl, rfl, rfl⟩, .inr (.inl ⟨?_, rfl⟩)⟩
    rw [from_]
    exact List.mem_cons_self
  | revoked mem from_ => exact ⟨_, mem, ⟨rfl, rfl, rfl, rfl, rfl⟩, .inr (.inl ⟨from_, rfl⟩)⟩
  | completed mem result from_ =>
    exact ⟨_, mem, ⟨rfl, rfl, rfl, rfl, rfl⟩, .inr (.inl ⟨from_, rfl⟩)⟩
  | @requeued d mem error result agent call from_ fallback =>
    refine ⟨d, mem, ⟨rfl, rfl, rfl, rfl, rfl⟩, .inr (.inr ⟨⟨error, call⟩, ?_, rfl, fallback⟩)⟩
    cases hs : d.status <;> simp [hs, DelegationStatus.allowedTransitions] at from_ ⊢
  | failed mem result from_ fallback =>
    exact ⟨_, mem, ⟨rfl, rfl, rfl, rfl, rfl⟩, .inr (.inl ⟨from_, rfl⟩)⟩

/-! ## Runs -/

/-- A creation under a new id, with names that the ledger accepts; or any other call. -/
def ManagerCall.Fresh (m : DelegationManager) : ManagerCall → Prop
  | c@(.create fromAgent toAgent _ fallbackAgent _ _) =>
    (∀ id ∈ c.createdId, m.delegations.get? id = none ∧ Text.isBlank id = false) ∧
      Text.isBlank fromAgent = false ∧ Text.isBlank toAgent = false ∧
      ∀ agent ∈ fallbackAgent, Text.isBlank agent = false
  | _ => True

structure Recordable (d : Delegation) : Prop where
  id : Text.isBlank d.delegationId = false
  task : Text.isBlank d.taskId = false
  fromAgent : Text.isBlank d.fromAgent = false
  toAgent : Text.isBlank d.toAgent = false
  fallback : ∀ agent ∈ d.fallbackAgent, Text.isBlank agent = false

def foldLedger (ledger : List DelegationEvent) (id : DelegationId) : Option (String × AgentId) :=
  (ledger.filter fun e => decide (e.delegationId = id)).foldl
    (fun _ e => some (e.status, e.toAgent)) none

def eventCount (ledger : List DelegationEvent) (eventType : String) (id : DelegationId) : Nat :=
  ledger.countP fun e => decide (e.delegationId = id) && decide (e.eventType = eventType)

theorem event_ok (h : Recordable d) :
    DelegationManager.event eventType d
      = .ok ⟨eventType, d.delegationId, d.taskId, d.fromAgent, d.toAgent, d.status.value,
          DelegationManager.eventData d⟩ := by
  simp [DelegationManager.event, h.id, h.task, h.fromAgent, h.toAgent]

theorem foldLedger_snoc (ledger : List DelegationEvent) (e : DelegationEvent) (id : DelegationId) :
    foldLedger (ledger ++ [e]) id =
      if e.delegationId = id then some (e.status, e.toAgent) else foldLedger ledger id := by
  unfold foldLedger
  rw [List.filter_append]
  by_cases h : e.delegationId = id <;> simp [h]

theorem eventCount_snoc (ledger : List DelegationEvent) (e : DelegationEvent) (eventType : String)
    (id : DelegationId) :
    eventCount (ledger ++ [e]) eventType id = eventCount ledger eventType id +
      if e.delegationId = id ∧ e.eventType = eventType then 1 else 0 := by
  unfold eventCount
  rw [List.countP_append, List.countP_singleton]
  by_cases h : e.delegationId = id <;> by_cases h' : e.eventType = eventType <;> simp [h, h']

/-- How often a delegation has been started, against how often its fallback agent has taken over. -/
structure Started (ledger : List DelegationEvent) (d : Delegation) : Prop where
  bound : eventCount ledger "DelegationStarted" d.delegationId ≤
    eventCount ledger "DelegationFallbackQueued" d.delegationId +
      if d.status = .pending then 0 else 1
  noFallback : d.fallbackAgent = none →
    eventCount ledger "DelegationFallbackQueued" d.delegationId = 0

structure ManagerInv (m : DelegationManager) : Prop where
  recordable : ∀ d ∈ m.delegations, Recordable d
  told : ∀ id, foldLedger m.ledger id =
    (m.delegations.get? id).map fun d => (d.status.value, d.toAgent)
  started : ∀ d ∈ m.delegations, Started m.ledger d

namespace ManagerInv

variable {m : DelegationManager}

/-- Of a delegation that is not there, nothing is recorded. -/
theorem unrecorded (h : ManagerInv m) (hid : m.delegations.get? id = none) :
    m.ledger.filter (fun e => decide (e.delegationId = id)) = [] := by
  have htold := h.told id
  rw [hid] at htold
  unfold foldLedger at htold
  rcases List.eq_nil_or_concat (m.ledger.filter fun e => decide (e.delegationId = id)) with
    hnil | ⟨init, e, he⟩
  · exact hnil
  · rw [he, List.concat_eq_append, List.foldl_append] at htold
    cases htold

theorem eventCount_zero (h : ManagerInv m)
    (hid : m.delegations.get? id = none) (eventType : String) :
    eventCount m.ledger eventType id = 0 := by
  unfold eventCount
  rw [List.countP_eq_zero]
  intro e he hcond
  simp only [Bool.and_eq_true, decide_eq_true_eq] at hcond
  have hmem : e ∈ m.ledger.filter fun e => decide (e.delegationId = id) :=
    List.mem_filter.mpr ⟨he, decide_eq_true hcond.1⟩
  rw [h.unrecorded hid] at hmem
  cases hmem

theorem apply (h : ManagerInv m) (hd : Recordable d)
    (hstarted : ∀ ledger', (∀ e id, eventCount ledger' e id = eventCount m.ledger e id +
        if d.delegationId = id ∧ eventType = e then 1 else 0) → Started ledger' d) :
    ManagerInv (m.apply eventType d).2 := by
  unfold DelegationManager.apply
  rw [event_ok hd]
  refine ⟨fun d' hd' => ?_, fun id => ?_, fun d' hd' => ?_⟩
  · rcases Table.mem_put.mp hd' with rfl | ⟨hd', -⟩
    · exact hd
    · exact h.recordable d' hd'
  · rw [foldLedger_snoc, Table.get?_put]
    by_cases hid : d.delegationId = id
    · rw [if_pos hid, if_pos hid.symm]
      rfl
    · rw [if_neg hid, if_neg (Ne.symm hid)]
      exact h.told id
  · rcases Table.mem_put.mp hd' with rfl | ⟨hd', hne⟩
    · exact hstarted _ fun e id => eventCount_snoc _ _ _ _
    · have hkeep : ∀ e, eventCount (m.ledger ++ [⟨eventType, d.delegationId, d.taskId, d.fromAgent,
          d.toAgent, d.status.value, DelegationManager.eventData d⟩]) e d'.delegationId
          = eventCount m.ledger e d'.delegationId := by
        intro e
        rw [eventCount_snoc, if_neg fun hc => hne hc.1.symm, Nat.add_zero]
      have hold := h.started d' hd'
      exact ⟨by rw [hkeep, hkeep]; exact hold.bound, fun hf => by rw [hkeep]; exact hold.noFallback hf⟩

theorem create (h : ManagerInv m) {c : ManagerCall} {d : Delegation} (hd : Created c d)
    (hfresh : c.Fresh m) : ManagerInv (m.apply "DelegationCreated" d).2 := by
  cases hd with
  | @intro fromAgent toAgent contract fallbackAgent delegationId generated id used =>
    obtain ⟨hid, hfrom, hto, hfallback⟩ := hfresh
    obtain ⟨hnew, hfilled⟩ := hid id used
    refine h.apply ⟨hfilled, contract.id_filled, hfrom, hto, hfallback⟩ fun ledger' hcount => ?_
    refine ⟨?_, fun _ => ?_⟩
    · rw [hcount, hcount, h.eventCount_zero hnew, h.eventCount_zero hnew]
      simp
    · rw [hcount, h.eventCount_zero hnew]
      simp

theorem change (h : ManagerInv m) (hd : Changes m c eventType d) : ManagerInv (m.apply eventType d).2 := by
  cases hd with
  | @started d mem call from_ =>
    have hr := h.recordable d mem
    have hold := h.started d mem
    refine h.apply ⟨hr.id, hr.task, hr.fromAgent, hr.toAgent, hr.fallback⟩ fun ledger' hcount => ?_
    refine ⟨?_, fun hf => ?_⟩
    · have hbound := hold.bound
      rw [from_, if_pos rfl] at hbound
      rw [hcount, hcount]
      simpa using hbound
    · rw [hcount, hold.noFallback hf]
      simp
  | @revoked d mem from_ =>
    have hr := h.recordable d mem
    have hold := h.started d mem
    refine h.apply ⟨hr.id, hr.task, hr.fromAgent, hr.toAgent, hr.fallback⟩ fun ledger' hcount => ?_
    refine ⟨?_, fun hf => ?_⟩
    · have hbound := hold.bound
      rw [hcount, hcount]
      split at hbound <;> simp <;> omega
    · rw [hcount, hold.noFallback hf]
      simp
  | @completed d mem result from_ =>
    have hr := h.recordable d mem
    have hold := h.started d mem
    refine h.apply ⟨hr.id, hr.task, hr.fromAgent, hr.toAgent, hr.fallback⟩ fun ledger' hcount => ?_
    refine ⟨?_, fun hf => ?_⟩
    · have hbound := hold.bound
      rw [hcount, hcount]
      split at hbound <;> simp <;> omega
    · rw [hcount, hold.noFallback hf]
      simp
  | @requeued d mem error result agent call from_ fallback =>
    have hr := h.recordable d mem
    have hold := h.started d mem
    refine h.apply ⟨hr.id, hr.task, hr.fromAgent, hr.fallback agent fallback, hr.fallback⟩
      fun ledger' hcount => ?_
    refine ⟨?_, fun hf => ?_⟩
    · have hbound := hold.bound
      rw [hcount, hcount]
      split at hbound <;> simp <;> omega
    · exact absurd (fallback.symm.trans hf) (by simp)
  | @failed d mem result from_ fallback =>
    have hr := h.recordable d mem
    have hold := h.started d mem
    refine h.apply ⟨hr.id, hr.task, hr.fromAgent, hr.toAgent, hr.fallback⟩ fun ledger' hcount => ?_
    refine ⟨?_, fun hf => ?_⟩
    · have hbound := hold.bound
      rw [hcount, hcount]
      split at hbound <;> simp <;> omega
    · rw [hcount, hold.noFallback hf]
      simp

theorem step (h : ManagerInv m) {c : ManagerCall} (hfresh : c.Fresh m) :
    ManagerInv (m.call c).2 := by
  obtain ⟨e, hcall⟩ | ⟨eventType, d, hcall, ⟨rfl, hd⟩ | hd⟩ := call_spec m c
  · rw [hcall]
    exact h
  · rw [hcall]
    exact h.create hd hfresh
  · rw [hcall]
    exact h.change hd

end ManagerInv

theorem manager_run {is : List ManagerCall}
    (hm : delegationManager.Meets (fun _ m c => c.Fresh m) is) :
    ManagerInv (delegationManager.state is) := by
  refine delegationManager.induct (fun _ m => ManagerInv m) ?_ (fun _ m c hinv hc => hinv.step hc) hm
  exact ⟨fun d hd => absurd hd (Table.not_mem_empty d), fun id => rfl,
    fun d hd => absurd hd (Table.not_mem_empty d)⟩

/-- A call leaves every delegation as the table, or a takeover, permits. -/
theorem call_permitted (hfresh : c.Fresh m)
    (hd : d ∈ m.delegations) :
    ∃ d' ∈ (m.call c).2.delegations, Permitted c d d' := by
  have hstay : ∀ eventType (e : Delegation), e.delegationId ≠ d.delegationId →
      ∃ d' ∈ (m.apply eventType e).2.delegations, Permitted c d d' := by
    intro eventType e hne
    refine ⟨d, ?_, .refl c d⟩
    unfold DelegationManager.apply
    split <;> exact Table.mem_put.mpr (.inr ⟨hd, hne.symm⟩)
  obtain ⟨e, hcall⟩ | ⟨eventType, e, hcall, ⟨rfl, he⟩ | he⟩ := call_spec m c
  · rw [hcall]
    exact ⟨d, hd, .refl c d⟩
  · rw [hcall]
    cases he with
    | intro used =>
      refine hstay _ _ fun hid => ?_
      have hnone := (hfresh.1 _ used).1
      rw [Table.get?_eq_none] at hnone
      exact hnone d hd hid.symm
  · rw [hcall]
    obtain ⟨d₀, hd₀, hperm⟩ := he.permitted
    by_cases hid : e.delegationId = d.delegationId
    · have heq : d₀ = d := Table.eq_of_key hd₀ hd (hperm.same.1.symm.trans hid)
      subst heq
      refine ⟨e, ?_, hperm⟩
      unfold DelegationManager.apply
      split <;> exact Table.mem_put_self _ _
    · exact hstay _ _ hid

/-- **The life of a delegation.** In every run that creates delegations under new ids and with names
that the ledger accepts, a call takes a delegation along the transition table, or back to pending
with its fallback agent where that failed, or leaves it alone, as it does with every terminal one; a
delegation is started at most once more than its fallback agent has taken over, so at most once
without one; and the ledger tells its status and its assignee. -/
theorem delegation_lifecycle (is : List ManagerCall)
    (hm : delegationManager.Meets (fun _ m c => c.Fresh m) is) :
    (∀ c, c.Fresh (delegationManager.state is) → ∀ d ∈ (delegationManager.state is).delegations,
      ∃ d' ∈ ((delegationManager.state is).call c).2.delegations,
        Permitted c d d' ∧ (d.status.terminal = true → d' = d)) ∧
    (∀ d ∈ (delegationManager.state is).delegations,
      eventCount (delegationManager.state is).ledger "DelegationStarted" d.delegationId ≤
        eventCount (delegationManager.state is).ledger "DelegationFallbackQueued" d.delegationId + 1 ∧
      (d.fallbackAgent = none →
        eventCount (delegationManager.state is).ledger "DelegationStarted" d.delegationId ≤ 1)) ∧
    ∀ id, foldLedger (delegationManager.state is).ledger id =
      ((delegationManager.state is).delegations.get? id).map fun d => (d.status.value, d.toAgent) := by
  have hinv := manager_run hm
  refine ⟨fun c hc d hd => ?_, fun d hd => ?_, hinv.told⟩
  · obtain ⟨d', hd', hperm⟩ := call_permitted hc hd
    exact ⟨d', hd', hperm, hperm.terminal⟩
  · obtain ⟨hbound, hnone⟩ := hinv.started d hd
    have hle : eventCount (delegationManager.state is).ledger "DelegationStarted" d.delegationId ≤
        eventCount (delegationManager.state is).ledger "DelegationFallbackQueued" d.delegationId
          + 1 := by
      split at hbound <;> omega
    refine ⟨hle, fun hf => ?_⟩
    rw [hnone hf] at hle
    exact hle

theorem review_filled : Text.isBlank "review" = false := by decide

theorem task_filled : Text.isBlank "task-1" = false := by decide

theorem root_depth : 0 ≤ AgentTaskConstraints.plain.maxDepth := Nat.zero_le _

def reviewRequest : AgentTaskRequest where
  goal := "review"
  constraints := .plain
  taskId := "task-1"
  parentTaskId := none
  delegationDepth := 0
  goal_filled := review_filled
  depth_le := root_depth
  id_filled := task_filled

/-- Delegated to `ada` with `bob` as her fallback, and started. -/
def startedWithFallback : List ManagerCall :=
  [.create "lead" "ada" reviewRequest (some "bob") none "delegation-1", .start "delegation-1"]

instance (m : DelegationManager) : ∀ c, Decidable (ManagerCall.Fresh m c)
  | .create _ _ _ _ _ _ => inferInstanceAs (Decidable (_ ∧ _ ∧ _ ∧ _))
  | .start _ => .isTrue trivial
  | .complete _ _ => .isTrue trivial
  | .fail _ _ => .isTrue trivial
  | .revoke _ => .isTrue trivial

theorem delegation_lifecycle_fallback :
    foldLedger (delegationManager.state startedWithFallback).ledger "delegation-1" =
      ((delegationManager.state startedWithFallback).delegations.get? "delegation-1").map
        fun d => (d.status.value, d.toAgent) :=
  (delegation_lifecycle startedWithFallback (by decide +kernel)).2.2 "delegation-1"

/-- The fallback agent takes a running delegation back to pending, which is no line of the table. -/
theorem fallback_bypasses_table :
    ¬ ∀ is c, ∀ d ∈ (delegationManager.state is).delegations,
      ∀ d' ∈ ((delegationManager.state is).call c).2.delegations,
        d'.delegationId = d.delegationId →
          d' = d ∨ d'.status ∈ d.status.allowedTransitions := by
  intro h
  have hlist : ∃ d ∈ (delegationManager.state startedWithFallback).delegations.rows,
      ∃ d' ∈ ((delegationManager.state startedWithFallback).call
        (.fail "delegation-1" "late")).2.delegations.rows,
      d'.delegationId = d.delegationId ∧ d' ≠ d ∧ d'.status ∉ d.status.allowedTransitions := by
    decide +kernel
  obtain ⟨d, hd, d', hd', hid, hne, hout⟩ := hlist
  rcases h startedWithFallback _ d hd d' hd' hid with heq | hmem
  · exact hne heq
  · exact hout hmem

end UniversalAgent.MultiAgent
