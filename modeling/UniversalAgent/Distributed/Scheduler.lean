import UniversalAgent.Distributed.QueueInvariants

/-!
# Distributed — Scheduler

`WorkScheduler` (`distributed/scheduler.py`): work for a session, a goal, a task or an action,
put on a queue under an idempotency key. The key of a goal is the caller's; the others are
made of the ids with `:` between them, which any id may contain.

The queue answers a call whose key an active item carries with that item. `scheduled_identity`
says when the item a call returns is about the unit of work the call names.
-/

namespace UniversalAgent.Distributed

open UniversalAgent.Foundation WorkQueue

variable {π : Type}

inductive WorkKind where
  | agentSession
  | agentGoal
  | task
  | toolAction
deriving DecidableEq, Repr

def WorkKind.value : WorkKind → String
  | .agentSession => "agent_session"
  | .agentGoal => "agent_goal"
  | .task => "task"
  | .toolAction => "tool_action"

structure WorkUnit where
  kind : String
  sessionId : Option String
  taskId : Option String
  actionId : Option String
deriving DecidableEq

def WorkItem.unit (i : WorkItem π) : WorkUnit := ⟨i.kind, i.sessionId, i.taskId, i.actionId⟩

/-- The arguments that every `schedule_*` passes on, and the clock readings of `enqueue`. -/
structure ScheduleOptions (π : Type) where
  payload : π
  priority : Int
  maxAttempts : Int
  availableAt : Option Time
  utcNow : Time
  createdAt : Time

def WorkUnit.request (u : WorkUnit) (key : String) (o : ScheduleOptions π) : EnqueueRequest π where
  kind := u.kind
  payload := o.payload
  sessionId := u.sessionId
  taskId := u.taskId
  actionId := u.actionId
  priority := o.priority
  maxAttempts := o.maxAttempts
  availableAt := o.availableAt
  idempotencyKey := some key
  workItemId := none
  utcNow := o.utcNow
  createdAt := o.createdAt

def sessionKey (sessionId : String) : String := "session:" ++ sessionId

def taskKey (sessionId taskId : String) : String := "task:" ++ sessionId ++ ":" ++ taskId

def actionKey (sessionId taskId actionId : String) : String :=
  "action:" ++ sessionId ++ ":" ++ taskId ++ ":" ++ actionId

/-- `parse_non_empty_string` on one argument after the other. -/
def requireAll : List (String × String) → Except QueueError Unit
  | [] => .ok ()
  | (value, field) :: rest =>
    match parseNonEmptyString value field with
    | .error e => .error e
    | .ok () => requireAll rest

namespace WorkQueue

/-- The common course of the `schedule_*` methods. -/
def scheduleUnit (q : WorkQueue π) (required : List (String × String)) (u : WorkUnit)
    (key : String) (o : ScheduleOptions π) : Outcome (WorkQueue π) (WorkItem π) :=
  match requireAll required with
  | .error e => (.error e, q)
  | .ok () => q.enqueue (u.request key o)

def scheduleSession (q : WorkQueue π) (sessionId : String) (o : ScheduleOptions π) :
    Outcome (WorkQueue π) (WorkItem π) :=
  q.scheduleUnit [(sessionId, "session_id")]
    ⟨WorkKind.agentSession.value, some sessionId, none, none⟩ (sessionKey sessionId) o

def scheduleGoal (q : WorkQueue π) (idempotencyKey : String) (o : ScheduleOptions π) :
    Outcome (WorkQueue π) (WorkItem π) :=
  q.scheduleUnit [(idempotencyKey, "idempotency_key")]
    ⟨WorkKind.agentGoal.value, none, none, none⟩ idempotencyKey o

def scheduleTask (q : WorkQueue π) (sessionId taskId : String) (o : ScheduleOptions π) :
    Outcome (WorkQueue π) (WorkItem π) :=
  q.scheduleUnit [(sessionId, "session_id"), (taskId, "task_id")]
    ⟨WorkKind.task.value, some sessionId, some taskId, none⟩ (taskKey sessionId taskId) o

def scheduleAction (q : WorkQueue π) (sessionId taskId actionId : String)
    (o : ScheduleOptions π) : Outcome (WorkQueue π) (WorkItem π) :=
  q.scheduleUnit [(sessionId, "session_id"), (taskId, "task_id"), (actionId, "action_id")]
    ⟨WorkKind.toolAction.value, some sessionId, some taskId, some actionId⟩
    (actionKey sessionId taskId actionId) o

/-- `cancel`, one item after the other; `clock` is what the clock reads at each. -/
def cancelEach (reason : String) (clock : String → Time) :
    List (WorkItem π) → WorkQueue π → Outcome (WorkQueue π) (List (WorkItem π))
  | [], q => (.ok [], q)
  | i :: is, q =>
    match q.cancel i.workItemId reason (clock i.workItemId) with
    | (.error e, q) => (.error e, q)
    | (.ok j, q) =>
      match cancelEach reason clock is q with
      | (.error e, q) => (.error e, q)
      | (.ok js, q) => (.ok (j :: js), q)

/-- The common course of `cancel_session` and `cancel_task`. -/
def cancelScope (q : WorkQueue π) (required : List (String × String))
    (inScope : WorkItem π → Bool) (reason : String) (clock : String → Time) :
    Outcome (WorkQueue π) (List (WorkItem π)) :=
  match requireAll required with
  | .error e => (.error e, q)
  | .ok () => cancelEach reason clock ((q.list none).filter fun i => inScope i && !i.isTerminal) q

def cancelSession (q : WorkQueue π) (sessionId reason : String) (clock : String → Time) :
    Outcome (WorkQueue π) (List (WorkItem π)) :=
  q.cancelScope [(sessionId, "session_id")] (fun i => decide (i.sessionId = some sessionId))
    reason clock

def cancelTask (q : WorkQueue π) (sessionId taskId reason : String) (clock : String → Time) :
    Outcome (WorkQueue π) (List (WorkItem π)) :=
  q.cancelScope [(sessionId, "session_id"), (taskId, "task_id")]
    (fun i => decide (i.sessionId = some sessionId) && decide (i.taskId = some taskId)) reason clock

end WorkQueue

/-! ## Schedule calls -/

/-- A call of a `schedule_*` method. -/
inductive ScheduleCall (π : Type) where
  | session (sessionId : String) (o : ScheduleOptions π)
  | goal (idempotencyKey : String) (o : ScheduleOptions π)
  | task (sessionId taskId : String) (o : ScheduleOptions π)
  | action (sessionId taskId actionId : String) (o : ScheduleOptions π)

namespace ScheduleCall

def unit : ScheduleCall π → WorkUnit
  | session s _ => ⟨WorkKind.agentSession.value, some s, none, none⟩
  | goal _ _ => ⟨WorkKind.agentGoal.value, none, none, none⟩
  | task s t _ => ⟨WorkKind.task.value, some s, some t, none⟩
  | action s t a _ => ⟨WorkKind.toolAction.value, some s, some t, some a⟩

def key : ScheduleCall π → String
  | session s _ => sessionKey s
  | goal k _ => k
  | task s t _ => taskKey s t
  | action s t a _ => actionKey s t a

def required : ScheduleCall π → List (String × String)
  | session s _ => [(s, "session_id")]
  | goal k _ => [(k, "idempotency_key")]
  | task s t _ => [(s, "session_id"), (t, "task_id")]
  | action s t a _ => [(s, "session_id"), (t, "task_id"), (a, "action_id")]

def options : ScheduleCall π → ScheduleOptions π
  | session _ o | goal _ o | task _ _ o | action _ _ _ o => o

def named (c : ScheduleCall π) : Bool := c.required.all fun r => !Text.isBlank r.1

def creates (c : ScheduleCall π) : Bool := c.named && decide (0 < c.options.maxAttempts)

end ScheduleCall

/-- One call of a `schedule_*` method. -/
def WorkQueue.schedule (q : WorkQueue π) : ScheduleCall π → Outcome (WorkQueue π) (WorkItem π)
  | .session s o => q.scheduleSession s o
  | .goal k o => q.scheduleGoal k o
  | .task s t o => q.scheduleTask s t o
  | .action s t a o => q.scheduleAction s t a o

inductive SchedulerOp (π : Type) where
  | schedule (c : ScheduleCall π)
  | cancelSession (sessionId reason : String) (clock : String → Time)
  | cancelTask (sessionId taskId reason : String) (clock : String → Time)
  | queue (op : QueueOp π)

def scheduler (π : Type) : Machine (WorkQueue π) (SchedulerOp π) (Reply π) where
  init := WorkQueue.new
  step q
    | .schedule c => (Reply.ofItem (q.schedule c).1, (q.schedule c).2)
    | .cancelSession s reason clock =>
      match q.cancelSession s reason clock with
      | (.ok is, q) => (.items is, q)
      | (.error e, q) => (.raised e, q)
    | .cancelTask s t reason clock =>
      match q.cancelTask s t reason clock with
      | (.ok is, q) => (.items is, q)
      | (.error e, q) => (.raised e, q)
    | .queue op => q.step op

/-! ## Keys -/

def scheduled (ops : List (SchedulerOp π)) : List (ScheduleCall π) :=
  ops.filterMap fun
    | .schedule c => some c
    | _ => none

/-- No call that names a unit has the key of an earlier call, one that can create an item, about
another unit. -/
def KeysSeparate (cs : List (ScheduleCall π)) : Prop :=
  cs.Pairwise fun c c' => c.creates = true → c'.named = true → c.key = c'.key → c.unit = c'.unit

instance (cs : List (ScheduleCall π)) : Decidable (KeysSeparate cs) :=
  inferInstanceAs (Decidable (List.Pairwise _ _))

/-! ### Ids without a separator -/

/-- Every item a schedule call returned is about the unit of work the call names. -/
def IdentityKept (h : List (SchedulerOp π × Reply π)) : Prop :=
  ∀ c i, (SchedulerOp.schedule c, Reply.item i) ∈ h → i.unit = c.unit

def answersUnit : SchedulerOp π × Reply π → Bool
  | (.schedule c, .item i) => decide (i.unit = c.unit)
  | _ => true

theorem identityKept_iff {h : List (SchedulerOp π × Reply π)} :
    IdentityKept h ↔ h.all answersUnit = true := by
  rw [List.all_eq_true]
  constructor
  · intro hk x hx
    unfold answersUnit
    split
    · exact decide_eq_true (hk _ _ hx)
    · rfl
  · intro ha c i hx
    simpa [answersUnit] using ha _ hx

instance (h : List (SchedulerOp π × Reply π)) : Decidable (IdentityKept h) :=
  decidable_of_iff _ identityKept_iff.symm

def OnlyScheduled (ops : List (SchedulerOp π)) : Prop :=
  ∀ r, SchedulerOp.queue (.enqueue r) ∉ ops

/-! ## What a schedule call does -/

theorem requireAll_eq_ok {rs : List (String × String)} :
    requireAll rs = .ok () ↔ (rs.all fun r => !Text.isBlank r.1) = true := by
  induction rs with
  | nil => exact iff_of_true rfl rfl
  | cons r rs ih =>
    obtain ⟨value, field⟩ := r
    have hv : parseNonEmptyString value field = .ok () ↔ Text.isBlank value = false :=
      parseNonEmptyString_eq_ok
    simp only [requireAll, List.all_cons, Bool.and_eq_true, Bool.not_eq_true', ← ih, ← hv]
    cases h : parseNonEmptyString value field with
    | error e => simp
    | ok u => simp

namespace ScheduleCall

theorem creates_iff {c : ScheduleCall π} :
    c.creates = true ↔ c.named = true ∧ 0 < c.options.maxAttempts := by
  simp [creates]

def request (c : ScheduleCall π) : EnqueueRequest π := c.unit.request c.key c.options

theorem kind_unit (c : ScheduleCall π) : Text.isBlank c.unit.kind = false := by
  have h : ∀ k : WorkKind, Text.isBlank k.value = false := by
    intro k
    cases k <;> decide
  cases c <;> exact h _

end ScheduleCall

theorem schedule_eq (q : WorkQueue π) (c : ScheduleCall π) :
    q.schedule c = q.scheduleUnit c.required c.unit c.key c.options := by
  cases c <;> rfl

variable {q : WorkQueue π} {c : ScheduleCall π} {cs : List (ScheduleCall π)} {i : WorkItem π}
  {ops : List (SchedulerOp π)}

theorem schedule_named (h : c.named = true) : q.schedule c = q.enqueue c.request := by
  rw [schedule_eq, scheduleUnit, requireAll_eq_ok.mpr h]
  rfl

theorem schedule_unnamed (h : c.named = false) : ∃ e, q.schedule c = (.error e, q) := by
  rw [schedule_eq, scheduleUnit]
  cases hr : requireAll c.required with
  | error e => exact ⟨e, rfl⟩
  | ok u =>
    have := requireAll_eq_ok.mp hr
    rw [show (c.required.all fun r => !Text.isBlank r.1) = c.named from rfl, h] at this
    cases this

/-- An item created for a call is about the call's unit, under the call's key. -/
theorem created_unit {q q' : WorkQueue π} {j : WorkItem π}
    (h : Created q q' c.request j) :
    j.unit = c.unit ∧ j.idempotencyKey = some c.key ∧ 0 < c.options.maxAttempts := by
  have hm := j.wellFormed.maxAttempts
  rw [h.fields] at hm
  refine ⟨?_, by rw [h.fields]; rfl, hm⟩
  unfold WorkItem.unit
  rw [h.fields]
  rfl

/-- **What a schedule call does.** It answers with the active item of its key, creates an item
about its unit, or is refused. -/
theorem schedule_cases (q : WorkQueue π) (c : ScheduleCall π) :
    (∃ i, c.named = true ∧ q.findIdempotent c.key = some i ∧ q.schedule c = (.ok i, q)) ∨
      (∃ j, c.creates = true ∧ (q.schedule c).1 = .ok j ∧
        Created q (q.schedule c).2 c.request j) ∨
      ∃ e, (q.schedule c).1 = .error e ∧ (q.schedule c).2.items = q.items := by
  cases hn : c.named with
  | false =>
    obtain ⟨e, he⟩ := schedule_unnamed (q := q) hn
    exact .inr (.inr ⟨e, by rw [he], by rw [he]⟩)
  | true =>
    rw [schedule_named hn]
    rcases enqueue_cases q c.request with ⟨i, k, hk, hf, he⟩ | ⟨j, hj, hc⟩ | ⟨e, he, hi⟩
    · cases hk
      exact .inl ⟨i, rfl, hf, he⟩
    · exact .inr (.inl ⟨j, ScheduleCall.creates_iff.mpr ⟨hn, (created_unit hc).2.2⟩, hj, hc⟩)
    · exact .inr (.inr ⟨e, he, hi⟩)

/-! ## Items are about what was asked for -/

def AskedFor (cs : List (ScheduleCall π)) (q : WorkQueue π) : Prop :=
  ∀ i ∈ q.items, ∃ c ∈ cs, c.creates = true ∧ i.idempotencyKey = some c.key ∧ i.unit = c.unit

/-- Queues whose items come from another's, as to unit and key. -/
theorem AskedFor.of_origin {cs cs' : List (ScheduleCall π)} {q q' : WorkQueue π}
    (h : AskedFor cs q) (hsub : ∀ c ∈ cs, c ∈ cs')
    (ho : ∀ j ∈ q'.items, ∃ i ∈ q.items, j.unit = i.unit ∧ j.idempotencyKey = i.idempotencyKey) :
    AskedFor cs' q' := by
  intro j hj
  obtain ⟨i, hi, hu, hk⟩ := ho j hj
  obtain ⟨c, hc, hcr, hck, hcu⟩ := h i hi
  exact ⟨c, hsub c hc, hcr, hk.trans hck, hu.trans hcu⟩

theorem SameWork.unit {i j : WorkItem π} (h : i.SameWork j) :
    j.unit = i.unit ∧ j.idempotencyKey = i.idempotencyKey := by
  refine ⟨?_, h.idempotencyKey⟩
  unfold WorkItem.unit
  rw [h.kind, h.sessionId, h.taskId, h.actionId]

theorem edits_origin {q q' : WorkQueue π} (h : Edits q q') :
    ∀ j ∈ q'.items, ∃ i ∈ q.items, j.unit = i.unit ∧ j.idempotencyKey = i.idempotencyKey := by
  intro j hj
  obtain ⟨i, hi, hs⟩ := h.kept.origin j hj
  exact ⟨i, hi, SameWork.unit hs⟩

/-- A call on the queue other than `enqueue` brings no new work. -/
theorem effect_origin {q q' : WorkQueue π} {op : QueueOp π} {r : Reply π} (h : Effect q op r q')
    (hen : ∀ req, op ≠ .enqueue req) :
    ∀ j ∈ q'.items, ∃ i ∈ q.items, j.unit = i.unit ∧ j.idempotencyKey = i.idempotencyKey := by
  cases h with
  | quiet he => exact edits_origin he
  | create => exact absurd rfl (hen _)
  | prune _ hk => exact fun j hj => ⟨j, ((hk j).mp hj).1, rfl, rfl⟩
  | @grant _ _ _ _ _ _ a j _ he hg _ =>
    intro b hb
    rcases Table.mem_put.mp ((hg.items b).mp hb) with rfl | ⟨hb, -⟩
    · obtain ⟨i, hi, hu, hk⟩ := edits_origin he a hg.mem
      refine ⟨i, hi, hu ▸ ?_, hk ▸ ?_⟩
      · unfold WorkItem.unit
        rw [hg.fields]
      · rw [hg.fields]
    · exact edits_origin he b hb

theorem edits_cancelEach (reason : String) (clock : String → Time) (is : List (WorkItem π))
    (q : WorkQueue π) : Edits q (cancelEach reason clock is q).2 := by
  induction is generalizing q with
  | nil => exact .refl
  | cons i is ih =>
    have hc := edits_cancel q i.workItemId reason (clock i.workItemId)
    unfold cancelEach
    rcases hq : q.cancel i.workItemId reason (clock i.workItemId) with ⟨res, q₁⟩
    rw [hq] at hc
    cases res with
    | error e => exact hc
    | ok j =>
      have hrest := ih q₁
      simp only
      rcases hr : cancelEach reason clock is q₁ with ⟨res', q₂⟩
      rw [hr] at hrest
      cases res' <;> exact hc.trans hrest

theorem edits_cancelScope (q : WorkQueue π) (required : List (String × String))
    (inScope : WorkItem π → Bool) (reason : String) (clock : String → Time) :
    Edits q (q.cancelScope required inScope reason clock).2 := by
  unfold cancelScope
  cases requireAll required with
  | error e => exact .refl
  | ok _ => exact edits_cancelEach reason clock _ q

/-- What a scheduler's call does to the queue, if it is not a schedule call: edits, or a call
on the queue. -/
theorem scheduler_cancel {op : SchedulerOp π} (hs : ∀ c, op ≠ .schedule c)
    (hq : ∀ op', op ≠ .queue op') : Edits q ((scheduler π).step q op).2 := by
  cases op with
  | schedule c => exact absurd rfl (hs c)
  | queue op => exact absurd rfl (hq op)
  | cancelSession s reason clock =>
    have h := edits_cancelScope q [(s, "session_id")] (fun i => decide (i.sessionId = some s))
      reason clock
    simp only [scheduler, cancelSession]
    rcases hc : q.cancelScope [(s, "session_id")] (fun i => decide (i.sessionId = some s))
      reason clock with ⟨res, q'⟩
    rw [hc] at h
    cases res <;> exact h
  | cancelTask s t reason clock =>
    have h := edits_cancelScope q [(s, "session_id"), (t, "task_id")]
      (fun i => decide (i.sessionId = some s) && decide (i.taskId = some t)) reason clock
    simp only [scheduler, cancelTask]
    rcases hc : q.cancelScope [(s, "session_id"), (t, "task_id")]
      (fun i => decide (i.sessionId = some s) && decide (i.taskId = some t)) reason clock
      with ⟨res, q'⟩
    rw [hc] at h
    cases res <;> exact h

/-! ## Runs -/

theorem scheduled_snoc (ops : List (SchedulerOp π)) (op : SchedulerOp π) :
    scheduled (ops ++ [op]) = scheduled ops ++ scheduled [op] := by
  simp [scheduled]

theorem keysSeparate_snoc {c' : ScheduleCall π} :
    KeysSeparate (cs ++ [c']) ↔ KeysSeparate cs ∧
      ∀ c ∈ cs, c.creates = true → c'.named = true → c.key = c'.key → c.unit = c'.unit := by
  simp [KeysSeparate, List.pairwise_append]

theorem identityKept_snoc {h : List (SchedulerOp π × Reply π)} {op : SchedulerOp π} {r : Reply π} :
    IdentityKept (h ++ [(op, r)]) ↔ IdentityKept h ∧
      ∀ c i, op = .schedule c → r = .item i → i.unit = c.unit := by
  simp only [IdentityKept, List.mem_append, List.mem_singleton, Prod.mk.injEq]
  constructor
  · exact fun hk => ⟨fun c i hm => hk c i (.inl hm), fun c i ho hr => hk c i (.inr ⟨ho.symm, hr.symm⟩)⟩
  · rintro ⟨hk, hl⟩ c i (hm | ⟨ho, hr⟩)
    · exact hk c i hm
    · exact hl c i ho.symm hr.symm

theorem ofItem_eq_item {x : Except QueueError (WorkItem π)} : Reply.ofItem x = .item i ↔ x = .ok i := by
  cases x <;> simp [Reply.ofItem]

theorem scheduler_queueInv (h : QueueInv q) (op : SchedulerOp π) : QueueInv ((scheduler π).step q op).2 := by
  cases op with
  | queue op => exact h.effect (effect_step h op)
  | schedule c =>
    cases hn : c.named with
    | false =>
      obtain ⟨e, he⟩ := schedule_unnamed (q := q) hn
      simpa only [scheduler, he] using h
    | true =>
      have heff := effect_step h (.enqueue c.request)
      have hq : ((scheduler π).step q (.schedule c)).2 = (q.step (.enqueue c.request)).2 := by
        simp only [scheduler, schedule_named hn, step]
      rw [hq]
      exact h.effect heff
  | cancelSession s reason clock => exact h.edits (scheduler_cancel (by simp) (by simp))
  | cancelTask s t reason clock => exact h.edits (scheduler_cancel (by simp) (by simp))

theorem reachable_scheduler_queueInv (ops : List (SchedulerOp π)) : QueueInv ((scheduler π).state ops) :=
  (scheduler π).invariant QueueInv queueInv_new (fun _ op h => scheduler_queueInv h op) ops

/-- One more call, on a queue whose items were asked for. -/
theorem askedFor_step (hq : QueueInv q)
    (h : AskedFor cs q) {op : SchedulerOp π} (hen : ∀ r, op ≠ .queue (.enqueue r)) :
    AskedFor (cs ++ scheduled [op]) ((scheduler π).step q op).2 := by
  have hsub : ∀ c ∈ cs, c ∈ cs ++ scheduled [op] := fun c hc => List.mem_append_left _ hc
  cases op with
  | queue op =>
    exact h.of_origin hsub (effect_origin (effect_step hq op) fun r hr => hen r (by rw [hr]))
  | cancelSession s reason clock =>
    exact h.of_origin hsub (edits_origin (scheduler_cancel (by simp) (by simp)))
  | cancelTask s t reason clock =>
    exact h.of_origin hsub (edits_origin (scheduler_cancel (by simp) (by simp)))
  | schedule c =>
    have hkeep : ∀ q' : WorkQueue π, q'.items = q.items →
        AskedFor (cs ++ scheduled [.schedule c]) q' := fun q' hi =>
      h.of_origin hsub fun j hj => ⟨j, hi ▸ hj, rfl, rfl⟩
    change AskedFor _ (q.schedule c).2
    rcases schedule_cases q c with ⟨i, -, -, he⟩ | ⟨j, hcr, -, hc⟩ | ⟨e, -, hi⟩
    · exact hkeep _ (by rw [he])
    · obtain ⟨hu, hk, -⟩ := created_unit hc
      intro i hi
      rcases (hc.items i).mp hi with rfl | hi
      · exact ⟨c, List.mem_append_right _ (List.mem_singleton_self c), hcr, hk, hu⟩
      · exact hkeep q rfl i hi
    · exact hkeep _ hi

/-- With separate keys, every answer is about the unit of its call. -/
theorem identityKept_of_keysSeparate (ho : OnlyScheduled ops)
    (hk : KeysSeparate (scheduled ops)) :
    IdentityKept ((scheduler π).history ops) ∧
      AskedFor (scheduled ops) ((scheduler π).state ops) := by
  induction ops using List.reverseRecOn with
  | nil => exact ⟨fun _ _ h => absurd h List.not_mem_nil, fun i hi => absurd hi (Table.not_mem_empty i)⟩
  | append_singleton ops op ih =>
    have ho' : OnlyScheduled ops := fun r hr => ho r (List.mem_append_left _ hr)
    have hen : ∀ r, op ≠ .queue (.enqueue r) := fun r hr =>
      ho r (hr ▸ List.mem_append_right _ (List.mem_singleton_self _))
    rw [scheduled_snoc] at hk ⊢
    obtain ⟨hid, hask⟩ := ih ho' (List.Pairwise.sublist (List.sublist_append_left _ _) hk)
    have hinv := reachable_scheduler_queueInv ops
    rw [Machine.history_snoc, Machine.state_snoc]
    refine ⟨identityKept_snoc.mpr ⟨hid, fun c i hop hr => ?_⟩, askedFor_step hinv hask hen⟩
    subst hop
    have hr' := ofItem_eq_item.mp hr
    rcases schedule_cases ((scheduler π).state ops) c with
      ⟨a, hn, hf, he⟩ | ⟨j, -, hj, hc⟩ | ⟨e, he, -⟩
    · obtain rfl : a = i := by simpa only [he, Except.ok.injEq] using hr'
      obtain ⟨ha, hkey, -⟩ := findIdempotent_some hf
      obtain ⟨c₀, hc₀, hcr, hk₀, hu₀⟩ := hask a ha
      rw [hu₀]
      exact (keysSeparate_snoc.mp hk).2 c₀ hc₀ hcr hn (Option.some.inj (hk₀.symm.trans hkey))
    · rw [hj] at hr'
      cases hr'
      exact (created_unit hc).1
    · rw [he] at hr'
      cases hr'

/-! ## Runs of schedule calls only -/

/-- The items of a queue that nobody worked on: active, with generated ids. -/
def Untouched (q : WorkQueue π) : Prop :=
  ∀ i ∈ q.items, i.isTerminal = false ∧ ∃ m ≤ q.sequence, i.workItemId = "work-" ++ toString m

/-- A call whose key an active item carries is answered with that item. -/
theorem schedule_existing
    (hn : c.named = true) (hf : q.findIdempotent c.key = some i) : q.schedule c = (.ok i, q) := by
  have hex : q.existing c.request = some i := existing_eq_some.mpr ⟨c.key, rfl, hf⟩
  rw [schedule_named hn, enqueue, hex]

/-- The item a call returns is active, under the call's key. -/
theorem schedule_ok
    (h : (q.schedule c).1 = .ok i) :
    i ∈ (q.schedule c).2.items ∧ i.isTerminal = false ∧ i.idempotencyKey = some c.key := by
  rcases schedule_cases q c with ⟨a, -, hf, he⟩ | ⟨j, -, hj, hc⟩ | ⟨e, he, -⟩
  · obtain rfl : a = i := by simpa only [he, Except.ok.injEq] using h
    obtain ⟨ha, hk, ht⟩ := findIdempotent_some hf
    rw [he]
    exact ⟨ha, ht, hk⟩
  · obtain rfl : j = i := by simpa only [hj, Except.ok.injEq] using h
    exact ⟨(hc.items j).mpr (.inl rfl), WorkItem.not_isTerminal_iff.mpr (.inl hc.isNew.status),
      (created_unit hc).2.1⟩
  · rw [he] at h
    cases h

theorem insertNew_sequence {r : EnqueueRequest π} (hr : r.workItemId = none) :
    (q.insertNew r).2.sequence = q.sequence + 1 := by
  unfold insertNew
  simp only [hr, chooseWorkItemId, nextWorkItemId]
  split
  · rfl
  · split <;> rfl

/-- A valid request is accepted under a generated id that is free. -/
theorem insertNew_accepted {r : EnqueueRequest π} (hr : r.workItemId = none)
    (hkind : Text.isBlank r.kind = false) (hmax : 0 < r.maxAttempts)
    (hfree : ∀ i ∈ q.items, i.workItemId ≠ "work-" ++ toString (q.sequence + 1)) :
    ∃ j, (q.insertNew r).1 = .ok j := by
  have hwf : (newFields r ("work-" ++ toString (q.sequence + 1))).WellFormed :=
    { workItemId := by
        change Text.isBlank ("work-" ++ toString (q.sequence + 1)) = false
        unfold Text.isBlank
        rw [String.toList_append, List.all_append,
          show "work-".toList.all Text.isSpace = false by decide, Bool.false_and]
      kind := hkind
      maxAttempts := hmax
      attempts_nonneg := le_rfl
      attempts_le := hmax.le
      lease_of_leased := fun h => by cases h
      leased_of_lease := fun h => absurd rfl h }
  have hnone : q.items.get? ("work-" ++ toString (q.sequence + 1)) = none :=
    Table.get?_eq_none.mpr hfree
  unfold insertNew
  simp only [hr, chooseWorkItemId, nextWorkItemId, WorkItem.make_wellFormed hwf]
  rw [show (newFields r ("work-" ++ toString (q.sequence + 1))).workItemId
    = "work-" ++ toString (q.sequence + 1) from rfl, hnone]
  exact ⟨_, rfl⟩

/-- On such a queue a call that can create an item is answered. -/
theorem schedule_answered (h : Untouched q) (hc : c.creates = true) : ∃ i, (q.schedule c).1 = .ok i := by
  obtain ⟨hn, hm⟩ := ScheduleCall.creates_iff.mp hc
  rw [schedule_named hn, enqueue]
  cases q.existing c.request with
  | some i => exact ⟨i, rfl⟩
  | none =>
    refine insertNew_accepted rfl c.kind_unit hm fun i hi hid => ?_
    obtain ⟨-, m, hle, hm⟩ := h i hi
    have := Text.toString_injective (Text.prefix_inj (hm.symm.trans hid))
    omega

/-- Schedule calls only add items, and only under generated ids. -/
theorem untouched_step (h : Untouched q) (c : ScheduleCall π) :
    Untouched (q.schedule c).2 ∧ ∀ i ∈ q.items, i ∈ (q.schedule c).2.items := by
  rcases schedule_cases q c with ⟨i, -, -, he⟩ | ⟨j, hcr, -, hc⟩ | ⟨e, he, hi⟩
  · rw [he]
    exact ⟨h, fun _ hi => hi⟩
  · have hn := (ScheduleCall.creates_iff.mp hcr).1
    have hseq : (q.schedule c).2.sequence = q.sequence + 1 := by
      rw [schedule_named hn, enqueue, existing_eq_none.mpr hc.key]
      exact insertNew_sequence rfl
    refine ⟨fun i hi => ?_, fun i hi => (hc.items i).mpr (.inr hi)⟩
    rw [hseq]
    rcases (hc.items i).mp hi with rfl | hi
    · refine ⟨WorkItem.not_isTerminal_iff.mpr (.inl hc.isNew.status), q.sequence + 1, le_rfl, ?_⟩
      exact hc.workItemId
    · obtain ⟨ht, m, hle, hm⟩ := h i hi
      exact ⟨ht, m, hle.trans (Nat.le_succ _), hm⟩
  · have hseq : q.sequence ≤ (q.schedule c).2.sequence := by
      cases hn : c.named with
      | false =>
        obtain ⟨e', he'⟩ := schedule_unnamed (q := q) hn
        rw [he']
      | true =>
        rw [schedule_named hn, enqueue]
        cases q.existing c.request with
        | some i => exact le_rfl
        | none => exact (insertNew_sequence (r := c.request) rfl).ge.trans' (Nat.le_succ _)
    refine ⟨fun i hi' => ?_, fun i hi' => hi ▸ hi'⟩
    obtain ⟨ht, m, hle, hm⟩ := h i (hi ▸ hi')
    exact ⟨ht, m, hle.trans hseq, hm⟩

/-- Every call that can create an item has an active item about its unit under its key. -/
def Answered (cs : List (ScheduleCall π)) (q : WorkQueue π) : Prop :=
  ∀ c ∈ cs, c.creates = true →
    ∃ i ∈ q.items, i.isTerminal = false ∧ i.idempotencyKey = some c.key ∧ i.unit = c.unit

/-- Where every answer of a run of schedule calls is about the unit of its call, the keys are
separate: the first call that can create an item answers for all later ones of its key. -/
theorem keysSeparate_of_identityKept
    (ho : ∀ op ∈ ops, ∃ c, op = .schedule c) (hid : IdentityKept ((scheduler π).history ops)) :
    KeysSeparate (scheduled ops) ∧ Untouched ((scheduler π).state ops) ∧
      Answered (scheduled ops) ((scheduler π).state ops) := by
  induction ops using List.reverseRecOn with
  | nil =>
    exact ⟨.nil, fun i hi => absurd hi (Table.not_mem_empty i), fun c hc => absurd hc List.not_mem_nil⟩
  | append_singleton ops op ih =>
    obtain ⟨c, rfl⟩ := ho op (List.mem_append_right _ (List.mem_singleton_self _))
    rw [Machine.history_snoc] at hid
    obtain ⟨hid, hc⟩ := identityKept_snoc.mp hid
    obtain ⟨hk, hu, ha⟩ := ih (fun op hop => ho op (List.mem_append_left _ hop)) hid
    have hinv := reachable_scheduler_queueInv ops
    have hstate : (scheduler π).state (ops ++ [.schedule c])
        = (((scheduler π).state ops).schedule c).2 := Machine.state_snoc _ ops _
    rw [scheduled_snoc, hstate]
    obtain ⟨hu', hkeep⟩ := untouched_step hu c
    have hunit : ∀ i, (((scheduler π).state ops).schedule c).1 = .ok i → i.unit = c.unit :=
      fun i hi => hc c i rfl (ofItem_eq_item.mpr hi)
    refine ⟨keysSeparate_snoc.mpr ⟨hk, fun c₀ hc₀ hcr hn hkey => ?_⟩, hu', fun c₀ hc₀ hcr => ?_⟩
    · -- the item that answers for the earlier call answers this one
      obtain ⟨i, hi, ht, hki, hui⟩ := ha c₀ hc₀ hcr
      rw [hkey] at hki
      rw [← hui]
      refine hunit i ?_
      cases hf : ((scheduler π).state ops).findIdempotent c.key with
      | none =>
        rw [findIdempotent_none.mp hf i hi hki] at ht
        cases ht
      | some a =>
        obtain ⟨ha, hka, hta⟩ := findIdempotent_some hf
        rw [schedule_existing hn hf, hinv.key a ha i hi hta ht c.key hka hki]
    · rcases List.mem_append.mp hc₀ with hc₀ | hc₀
      · obtain ⟨i, hi, h⟩ := ha c₀ hc₀ hcr
        exact ⟨i, hkeep i hi, h⟩
      · obtain rfl := List.mem_singleton.mp hc₀
        obtain ⟨i, hi⟩ := schedule_answered hu hcr
        obtain ⟨him, ht, hki⟩ := schedule_ok hi
        exact ⟨i, him, ht, hki, hunit i hi⟩

/-- **When scheduled work is about what was asked for.** Among any other calls on the queue,
every item a schedule call returns is about the unit of work the call names if the keys of the
calls are separate; in a run of schedule calls alone, exactly if they are. -/
theorem scheduled_identity (ops : List (SchedulerOp π)) :
    (OnlyScheduled ops → KeysSeparate (scheduled ops) → IdentityKept ((scheduler π).history ops)) ∧
      ((∀ op ∈ ops, ∃ c, op = .schedule c) →
        (IdentityKept ((scheduler π).history ops) ↔ KeysSeparate (scheduled ops))) := by
  refine ⟨fun ho hk => (identityKept_of_keysSeparate ho hk).1, fun ho => ⟨fun hid => ?_, fun hk => ?_⟩⟩
  · exact (keysSeparate_of_identityKept ho hid).1
  · refine (identityKept_of_keysSeparate (fun r hr => ?_) hk).1
    obtain ⟨c, hc⟩ := ho _ hr
    cases hc

def plainOptions : ScheduleOptions Unit := ⟨(), 0, 3, none, 0, 0⟩

theorem scheduled_identity_sessionAndTask :
    IdentityKept ((scheduler Unit).history
      [.schedule (.session "s" plainOptions), .queue (.lease "w" 30 0 none),
        .schedule (.task "s" "t" plainOptions), .schedule (.session "s" plainOptions)]) :=
  (scheduled_identity _).1 (by simp [OnlyScheduled]) (by decide +kernel)

/-- A goal whose key reads as a task's, and two actions whose ids are joined alike: the second
call returns the item of the first. -/
theorem scheduled_identity_mixed :
    ¬ IdentityKept ((scheduler Unit).history
        [.schedule (.goal "task:s:t" plainOptions), .schedule (.task "s" "t" plainOptions)]) ∧
      ¬ IdentityKept ((scheduler Unit).history
        [.schedule (.action "s:t" "u" "a" plainOptions),
          .schedule (.action "s" "t:u" "a" plainOptions)]) := by
  decide +kernel

end UniversalAgent.Distributed
