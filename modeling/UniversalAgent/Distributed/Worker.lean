import UniversalAgent.Distributed.WorkerState
import UniversalAgent.Distributed.QueueInvariants

/-!
# Distributed — Worker

The worker loop (`WorkQueueWorker` in `distributed/worker.py`) over a queue and a worker
registry that others use too. A worker is an automaton whose phases are the points of
`run_once` between two calls on a store: `request` is the call it makes next, `after` what it
does with the answer, and `observe` what the handler it waits for does to it. In a system of
workers the calls of different workers, and those of everybody else, come in any order.

A handler outcome reaches the queue through `settlement`. COMPLETED and FAILED present the
lease; CANCELLED does not (`stale_worker_changes_nothing`).
-/

namespace UniversalAgent.Distributed

open UniversalAgent.Foundation

variable {π : Type}

inductive WorkHandlerStatus where
  | completed
  | failed
  | cancelled
deriving DecidableEq, Repr

/-- `WorkHandlerResult`: what is not completed has a reason. -/
structure WorkHandlerResult where
  status : WorkHandlerStatus
  reason : String
  retry : Bool
  wellFormed : status ≠ .completed → Text.isBlank reason = false

inductive WorkerRunStatus where
  | completed
  | retrying
  | failed
  | cancelled
  | noWork
  | leaseLost
  | workerInactive
deriving DecidableEq, Repr

structure WorkerRunResult (π : Type) where
  status : WorkerRunStatus
  workerId : String
  workItem : Option (WorkItem π)
  leaseId : Option String
  reason : String

/-- What leaves `run_once` as an exception. -/
inductive WorkerError where
  | queue (e : QueueError)
  | registry (e : RegistryError)
  | cancelled

/-- A worker: its settings, as the constructor checks them. `handlers` are the kinds of work it
has a handler for. -/
structure WorkQueueWorker where
  workerId : String
  handlers : List String
  leaseTtlSeconds : ℚ
  workerTtlSeconds : ℚ
  workerCapabilities : List String
  usesRegistry : Bool
  workerId_ok : Text.isBlank workerId = false
  leaseTtl_pos : 0 < leaseTtlSeconds
  workerTtl_pos : 0 < workerTtlSeconds

inductive Raised where
  | leaseLost (reason : String)
  | error (message : String)
  | cancelled

/-- Where `run_once` stands. -/
inductive Phase (π : Type) where
  | idle
  /-- `_prepare_worker`, before `get`. -/
  | looking (now : Time)
  | registering (now : Time)
  | beating (now : Time)
  /-- `_prepare_worker`, after a heartbeat was refused. -/
  | rechecking (now : Time) (reason : String)
  | leasing (now : Time)
  /-- The handler runs. -/
  | handling (item : WorkItem π) (lease : WorkerLease)
  /-- `_heartbeat_active_lease`, before the heartbeat on the queue. -/
  | renewing (item : WorkItem π) (lease : WorkerLease) (now : Time)
  /-- `_heartbeat_active_lease`, before the heartbeat on the registry. -/
  | vouching (item : WorkItem π) (lease : WorkerLease) (now : Time)
  /-- `_heartbeat_active_lease`, before it gives the item back. -/
  | abandoning (item : WorkItem π) (lease : WorkerLease) (now : Time) (message : String)
  /-- `_call_handler`, waiting for the cancelled handler. -/
  | stopping (item : WorkItem π) (lease : WorkerLease) (raised : Raised)
  | settling (item : WorkItem π) (lease : WorkerLease) (result : WorkHandlerResult)
  /-- `_fail_leased_item`. -/
  | failing (item : WorkItem π) (lease : WorkerLease) (reason : String) (retry : Bool)
  /-- About to report a lost lease. -/
  | losing (item : WorkItem π) (lease : WorkerLease) (reason : String)

inductive WorkerEvent where
  /-- `run_once` is called. -/
  | run (now : Time)
  /-- The next call is made; `utcNow` is the clock where the call reads it. -/
  | proceed (utcNow : Time)
  | heartbeatDue (utcNow : Time)
  | returned (result : WorkHandlerResult)
  /-- The handler raised `LeaseLostError`. -/
  | raisedLeaseLost (message : String)
  /-- The handler raised another exception. -/
  | raised (message : String)
  /-- The worker is cancelled while the handler runs. -/
  | cancelled
  /-- The handler ended as cancelled. -/
  | handlerCancelled

inductive StoreCall (π : Type) where
  | queue (op : QueueOp π)
  | registry (op : RegistryOp π)

inductive StoreReply (π : Type) where
  | queue (r : Reply π)
  | registry (r : RegistryReply π)

/-- `str(exc)`. The errors of the libraries under the durable queues have no text here. -/
def QueueError.text : QueueError → String
  | .noWorkAvailable m | .workItemNotFound m | .leaseLost m | .valueError m => m
  | .jsonCodecError | .overflowError => ""

abbrev RunOutcome (π : Type) := Except WorkerError (WorkerRunResult π)

namespace Phase

def grant? : Phase π → Option (WorkItem π × WorkerLease)
  | handling item l | renewing item l _ | vouching item l _ | abandoning item l _ _
  | stopping item l _ | settling item l _ | failing item l _ _ | losing item l _ => some (item, l)
  | _ => none

end Phase

namespace WorkQueueWorker

variable (c : WorkQueueWorker)

/-- The queue call for a handler's result (`_apply_handler_result`). -/
def settlement (item : WorkItem π) (lease : WorkerLease) (result : WorkHandlerResult)
    (now : Time) : QueueOp π :=
  match result.status with
  | .completed => .complete lease.leaseId c.workerId now
  | .cancelled => .cancel item.workItemId result.reason now
  | .failed => .fail lease.leaseId c.workerId result.reason result.retry now

def request : Phase π → WorkerEvent → Option (StoreCall π)
  | .looking _, .proceed _ | .rechecking _ _, .proceed _ => some (.registry (.get c.workerId))
  | .registering now, .proceed _ =>
    some (.registry (.register c.workerId c.workerCapabilities none c.workerTtlSeconds now))
  | .beating now, .proceed _ | .vouching _ _ now, .proceed _ =>
    some (.registry (.heartbeat c.workerId c.workerTtlSeconds now))
  | .leasing now, .proceed _ =>
    some (.queue (.lease c.workerId c.leaseTtlSeconds now (some c.workerCapabilities)))
  | .renewing _ l now, .proceed _ =>
    some (.queue (.heartbeat l.leaseId c.workerId c.leaseTtlSeconds now))
  | .abandoning _ l now message, .proceed _ =>
    some (.queue (.fail l.leaseId c.workerId ("worker heartbeat failed: " ++ message) true now))
  | .settling item l result, .proceed now => some (.queue (c.settlement item l result now))
  | .failing _ l reason retry, .proceed now =>
    some (.queue (.fail l.leaseId c.workerId reason retry now))
  | .losing item _ _, .proceed _ => some (.queue (.get item.workItemId))
  | _, _ => none

def callTime : Phase π → WorkerEvent → Time
  | .renewing _ _ now, _ | .abandoning _ _ now _, _ => now
  | _, .proceed now => now
  | _, _ => 0

/-- `WorkerRunResult(status=LEASE_LOST, ...)`. -/
def leaseLostResult (item : WorkItem π) (lease : WorkerLease) (reason : String) :
    WorkerRunResult π := ⟨.leaseLost, c.workerId, some item, some lease.leaseId, reason⟩

/-- `_worker_result_from_failed_item`. -/
def failedResult (lease : WorkerLease) (item : WorkItem π) : WorkerRunResult π where
  status := if item.status = .queued then .retrying else .failed
  workerId := c.workerId
  workItem := some item
  leaseId := some lease.leaseId
  reason := item.lastError.getD ""

/-- `WorkerRunResult` without an item. -/
def idleResult (status : WorkerRunStatus) (reason : String) : WorkerRunResult π :=
  ⟨status, c.workerId, none, none, reason⟩

/-- What `run_once` does with an item it leased. -/
def leased (item : WorkItem π) : Phase π × Option (RunOutcome π) :=
  match item.lease with
  | none => (.idle, some (.ok ⟨.leaseLost, c.workerId, some item, none,
      "leased work item did not include lease metadata"⟩))
  | some l =>
    if item.kind ∈ c.handlers then (.handling item l, none)
    else (.failing item l ("no handler registered for work kind: " ++ item.kind) false, none)

/-- What `run_once` does with an exception out of `_call_handler`. -/
def handlerRaised (item : WorkItem π) (l : WorkerLease) : Raised → Phase π × Option (RunOutcome π)
  | .leaseLost reason => (.losing item l reason, none)
  | .error message => (.failing item l ("handler failed: " ++ message) true, none)
  | .cancelled => (.idle, some (.error .cancelled))

/-- What the worker does with the answer to a settlement or to `_fail_leased_item`. -/
def settled (item : WorkItem π) (l : WorkerLease) (result : WorkItem π → WorkerRunResult π) :
    Reply π → Phase π × Option (RunOutcome π)
  | .item i => (.idle, some (.ok (result i)))
  | .raised (.leaseLost reason) => (.losing item l reason, none)
  | .raised e => (.idle, some (.error (.queue e)))
  | _ => (.idle, none)

/-- What `run_once` reports for a handler result. -/
def settledResult (l : WorkerLease) (result : WorkHandlerResult) (i : WorkItem π) :
    WorkerRunResult π :=
  match result.status with
  | .completed => ⟨.completed, c.workerId, some i, some l.leaseId, result.reason⟩
  | .cancelled => ⟨.cancelled, c.workerId, some i, some l.leaseId, result.reason⟩
  | .failed => c.failedResult l i

def after : Phase π → StoreReply π → Phase π × Option (RunOutcome π)
  | .looking now, .registry (.record r) =>
    match r.status with
    | .lost => (.registering now, none)
    | .online => (.beating now, none)
    | status => (.idle, some (.ok (c.idleResult .workerInactive ("worker is " ++ status.value))))
  | .looking now, .registry (.raised (.workerNotFound _)) => (.registering now, none)
  | .registering now, .registry (.record _) | .beating now, .registry (.record _) =>
    (.leasing now, none)
  | .beating now, .registry (.raised (.workerNotFound m)) => (.rechecking now m, none)
  | .rechecking now reason, .registry (.record r) =>
    if r.status = .lost then (.registering now, none)
    else (.idle, some (.ok (c.idleResult .workerInactive reason)))
  | .rechecking _ reason, .registry (.raised (.workerNotFound _)) =>
    (.idle, some (.ok (c.idleResult .workerInactive reason)))
  | .leasing _, .queue (.item i) => c.leased i
  | .leasing _, .queue (.raised (.noWorkAvailable _)) =>
    (.idle, some (.ok (c.idleResult .noWork "no work available")))
  | .leasing _, .queue (.raised e) => (.idle, some (.error (.queue e)))
  | .renewing item l now, .queue (.item _) =>
    (if c.usesRegistry then .vouching item l now else .handling item l, none)
  | .renewing item l _, .queue (.raised (.leaseLost m)) => (.stopping item l (.leaseLost m), none)
  | .renewing item l _, .queue (.raised e) => (.stopping item l (.error e.text), none)
  | .vouching item l _, .registry (.record _) => (.handling item l, none)
  | .vouching item l now, .registry (.raised (.workerNotFound m)) =>
    (.abandoning item l now m, none)
  | .vouching item l _, .registry (.raised (.valueError m)) => (.stopping item l (.error m), none)
  | .abandoning item l _ m, .queue (.item _)
  | .abandoning item l _ m, .queue (.raised (.leaseLost _)) =>
    (.stopping item l (.leaseLost ("worker heartbeat failed: " ++ m)), none)
  | .abandoning item l _ _, .queue (.raised e) => (.stopping item l (.error e.text), none)
  | .settling item l result, .queue r => settled item l (c.settledResult l result) r
  | .failing item l _ _, .queue r => settled item l (c.failedResult l) r
  | .losing _ l reason, .queue (.item i) => (.idle, some (.ok (c.leaseLostResult i l reason)))
  | .losing _ _ _, .queue (.raised e) => (.idle, some (.error (.queue e)))
  | _, .registry (.raised e) => (.idle, some (.error (.registry e)))
  | p, _ => (p, none)

def observe : Phase π → WorkerEvent → Phase π × Option (RunOutcome π)
  | .idle, .run now => (if c.usesRegistry then .looking now else .leasing now, none)
  | .handling item l, .heartbeatDue now => (.renewing item l now, none)
  | .handling item l, .returned result => (.settling item l result, none)
  | .handling item l, .raisedLeaseLost m => handlerRaised item l (.leaseLost m)
  | .handling item l, .raised m => handlerRaised item l (.error m)
  | .handling item l, .handlerCancelled => handlerRaised item l .cancelled
  | .handling item l, .cancelled => (.stopping item l .cancelled, none)
  -- the exception that stopped the handler gives way to one the handler raises itself
  | .stopping item l _, .raisedLeaseLost m => handlerRaised item l (.leaseLost m)
  | .stopping item l _, .raised m => handlerRaised item l (.error m)
  | .stopping item l raised, .returned _ | .stopping item l raised, .handlerCancelled
  | .stopping item l raised, .cancelled => handlerRaised item l raised
  | p, _ => (p, none)

end WorkQueueWorker

/-! ## Workers over one queue -/

structure Workers (W π : Type) where
  queue : WorkQueue π
  registry : WorkerRegistry π
  phases : W → Phase π

inductive WorkersEvent (W π : Type) where
  | worker (w : W) (e : WorkerEvent)
  | queue (op : QueueOp π)
  | registry (op : RegistryOp π)

section System

variable {W : Type} [DecidableEq W] (cfg : W → WorkQueueWorker)

namespace Workers

def workerStep (s : Workers W π) (w : W) (e : WorkerEvent) : Option (RunOutcome π) × Workers W π :=
  match (cfg w).request (s.phases w) e with
  | none =>
    let o := (cfg w).observe (s.phases w) e
    (o.2, { s with phases := Function.update s.phases w o.1 })
  | some (.queue op) =>
    let r := s.queue.step op
    let o := (cfg w).after (s.phases w) (.queue r.1)
    (o.2, { s with queue := r.2, phases := Function.update s.phases w o.1 })
  | some (.registry op) =>
    let r := s.registry.step op
    let o := (cfg w).after (s.phases w) (.registry r.1)
    (o.2, { s with registry := r.2, phases := Function.update s.phases w o.1 })

def step (s : Workers W π) : WorkersEvent W π → Option (RunOutcome π) × Workers W π
  | .worker w e => s.workerStep cfg w e
  | .queue op => (none, { s with queue := (s.queue.step op).2 })
  | .registry op => (none, { s with registry := (s.registry.step op).2 })

end Workers

def workers (π : Type) : Machine (Workers W π) (WorkersEvent W π) (Option (RunOutcome π)) where
  init := ⟨WorkQueue.new, Table.empty, fun _ => .idle⟩
  step := Workers.step cfg

end System

/-! ## What a worker can ask for -/

namespace WorkQueueWorker

variable {c : WorkQueueWorker}

variable {l : WorkerLease} {g : WorkItem π × WorkerLease} {p : Phase π}

theorem settled_grant {item : WorkItem π} {result : WorkItem π → WorkerRunResult π}
    {r : Reply π} (h : (settled item l result r).1.grant? = some g) :
    g = (item, l) := by
  unfold settled at h
  split at h <;> cases h
  rfl

theorem handlerRaised_grant {item : WorkItem π} {r : Raised}
    (h : (handlerRaised item l r).1.grant? = some g) :
    g = (item, l) := by
  cases r <;> cases h <;> rfl

/-- What an event without a call leaves the worker to work on, it worked on before. -/
theorem observe_grant {e : WorkerEvent} (h : (c.observe p e).1.grant? = some g) : p.grant? = some g := by
  unfold observe at h
  split at h <;> first
    | exact h
    | exact congrArg some (handlerRaised_grant h).symm
    | (split at h <;> cases h)

/-- A worker gets something to work on from `lease` only. -/
theorem after_grant {r : StoreReply π}
    (h : (c.after p r).1.grant? = some g) :
    p.grant? = some g ∨
      ∃ now i, p = .leasing now ∧ r = .queue (.item i) ∧ g.1 = i ∧ i.lease = some g.2 := by
  unfold after at h
  split at h <;> first
    | exact .inl h
    | exact .inl (congrArg some (settled_grant h).symm)
    | (cases h)
    | skip
  · split at h <;> cases h
  · split at h <;> cases h
  · rename_i now i
    refine .inr ⟨now, i, rfl, rfl, ?_⟩
    unfold leased at h
    split at h
    · cases h
    · rename_i l hl
      split at h <;> cases h <;> exact ⟨rfl, hl⟩
  · split at h <;> exact .inl h

/-- The queue calls of a worker that has an item: `get`, a call that presents its lease, or
the `cancel` of a handler's CANCELLED. -/
theorem request_cases {e : WorkerEvent} {op : QueueOp π} {item : WorkItem π}
    (hp : p.grant? = some (item, l)) (h : c.request p e = some (.queue op)) :
    op = .get item.workItemId ∨
      op.presents = some (l.leaseId, c.workerId, callTime p e) ∨
      ∃ result now, p = .settling item l result ∧ e = .proceed now ∧ result.status = .cancelled ∧
        op = .cancel item.workItemId result.reason now := by
  unfold request at h
  split at h <;> cases h <;> cases hp
  · exact .inr (.inl rfl)
  · exact .inr (.inl rfl)
  · rename_i result now
    cases hr : result.status with
    | completed => exact .inr (.inl (by simp only [settlement, hr]; rfl))
    | failed => exact .inr (.inl (by simp only [settlement, hr]; rfl))
    | cancelled => exact .inr (.inr ⟨result, now, rfl, rfl, hr, by simp only [settlement, hr]⟩)
  · exact .inr (.inl rfl)
  · exact .inl rfl

end WorkQueueWorker

/-! ## The workers' invariant -/

section System

variable {W : Type} [DecidableEq W] {cfg : W → WorkQueueWorker}

structure WorkersInv (s : Workers W π) : Prop where
  queue : QueueInv s.queue
  grant : ∀ w item l, (s.phases w).grant? = some (item, l) → l.leaseId = item.heldLeaseId

namespace Workers

/-- Changing one worker's phase keeps the invariant, if the worker keeps its item or has just
leased it. -/
theorem grant_update {s : Workers W π} (h : WorkersInv s) {w : W} {p : Phase π}
    (hp : ∀ item l, p.grant? = some (item, l) →
      (s.phases w).grant? = some (item, l) ∨ l.leaseId = item.heldLeaseId) (v : W)
    (item : WorkItem π) (l : WorkerLease)
    (hv : (Function.update s.phases w p v).grant? = some (item, l)) :
    l.leaseId = item.heldLeaseId := by
  by_cases hvw : v = w
  · subst hvw
    rw [Function.update_self] at hv
    exact (hp item l hv).elim (h.grant v item l) id
  · rw [Function.update_of_ne hvw] at hv
    exact h.grant v item l hv

theorem step_inv {s : Workers W π} (h : WorkersInv s) (ev : WorkersEvent W π) :
    WorkersInv (s.step cfg ev).2 := by
  have hqueue : ∀ op, QueueInv (s.queue.step op).2 := fun op =>
    h.queue.effect (WorkQueue.effect_step h.queue op)
  cases ev with
  | queue op => exact ⟨hqueue op, h.grant⟩
  | registry op => exact ⟨h.queue, h.grant⟩
  | worker w e =>
    simp only [step, workerStep]
    cases hreq : (cfg w).request (s.phases w) e with
    | none =>
      exact ⟨h.queue, grant_update h fun item l hp => .inl (WorkQueueWorker.observe_grant hp)⟩
    | some call =>
      cases call with
      | registry op =>
        refine ⟨h.queue, grant_update h fun item l hp => ?_⟩
        rcases WorkQueueWorker.after_grant hp with hp | ⟨now, i, -, hr, -⟩
        · exact .inl hp
        · cases hr
      | queue op =>
        refine ⟨hqueue op, grant_update h fun item l hp => ?_⟩
        rcases WorkQueueWorker.after_grant hp with hp | ⟨now, i, hl, hr, hi, hlease⟩
        · exact .inl hp
        · -- the item just leased
          rw [hl] at hreq
          cases e <;> cases hreq
          have heff := WorkQueue.effect_step h.queue
            (.lease (cfg w).workerId (cfg w).leaseTtlSeconds now
              (some (cfg w).workerCapabilities))
          injection hr with hr
          rw [hr] at heff
          simp only at hi hlease
          subst hi
          cases heff with
          | quiet _ hraised =>
            obtain ⟨err, herr⟩ := hraised _ _ _ _ rfl
            cases herr
          | grant _ hg _ =>
            rw [hg.lease] at hlease
            cases hlease
            exact .inr hg.heldLeaseId

end Workers

theorem workers_inv (run : List (WorkersEvent W π)) : WorkersInv ((workers cfg π).state run) :=
  (workers cfg π).invariant WorkersInv
    ⟨queueInv_new, fun _ _ _ h => by cases h⟩ (fun _ ev h => Workers.step_inv h ev) run

/-! ## Workers that lost their lease -/

def WorkItem.RanOut (i : WorkItem π) (leaseId : String) (now : Time) : Prop :=
  ∃ k, i.lease = some k ∧ k.leaseId = leaseId ∧ k.leaseExpiresAt ≤ now

/-- The status of an item is what it was, or what expiry makes of it where it is still on the
given lease and that has run out. -/
def StatusKept (q q' : WorkQueue π) (workItemId leaseId : String) (now : Time) : Prop :=
  ∀ i ∈ q.items, i.workItemId = workItemId →
    ∃ j ∈ q'.items, j.workItemId = workItemId ∧
      (j.status = i.status ∨ i.RanOut leaseId now ∧ j.status = (i.swept now).status)

/-- The worker settles a CANCELLED outcome while the item is there and not terminal. -/
def CancelsActive (p : Phase π) (e : WorkerEvent) (q : WorkQueue π) : Prop :=
  match p, e with
  | .settling item _ result, .proceed _ =>
    result.status = .cancelled ∧
      ∃ i ∈ q.items, i.workItemId = item.workItemId ∧ i.isTerminal = false
  | _, _ => False

instance (p : Phase π) (e : WorkerEvent) (q : WorkQueue π) : Decidable (CancelsActive p e q) :=
  match p, e with
  | .settling item _ result, .proceed _ => inferInstanceAs (Decidable (result.status = .cancelled ∧
      ∃ i ∈ q.items.rows, i.workItemId = item.workItemId ∧ i.isTerminal = false))
  | .settling .., .run _ | .settling .., .heartbeatDue _ | .settling .., .returned _
  | .settling .., .raisedLeaseLost _ | .settling .., .raised _ | .settling .., .cancelled
  | .settling .., .handlerCancelled | .idle, _ | .looking _, _ | .registering _, _ | .beating _, _
  | .rechecking .., _ | .leasing _, _ | .handling .., _ | .renewing .., _ | .vouching .., _
  | .abandoning .., _ | .stopping .., _ | .failing .., _ | .losing .., _ => .isFalse id

theorem StatusKept.refl (q : WorkQueue π) (id l : String) (now : Time) : StatusKept q q id l now :=
  fun i hi hid => ⟨i, hi, hid, .inl rfl⟩

variable {q : WorkQueue π} {i : WorkItem π}

/-- The sweep a worker sets off with a lease that has run out is the expiry of that lease. -/
theorem StatusKept.expire {l : String} {now : Time}
    (hi : i ∈ q.items) (hr : i.RanOut l now) :
    StatusKept q (q.expire now).2 i.workItemId l now := by
  intro j hj hid
  have hji := Table.eq_of_key hj hi hid
  subst hji
  exact ⟨j.swept now, WorkQueue.mem_expire.mpr ⟨j, hj, rfl⟩, WorkItem.swept_workItemId j now,
    .inr ⟨hr, rfl⟩⟩

/-- A call that presents a lease that is not the item's current one, or has run out. -/
theorem stale_presents (hq : QueueInv q) {op : QueueOp π} {item : WorkItem π}
    {l w : String} {now : Time} (hp : op.presents = some (l, w, now)) (hl : l = item.heldLeaseId)
    (hstale : ∀ i ∈ q.items, i.workItemId = item.workItemId → i.heldBy l w now = false) :
    (q.step op).2 = q ∨ (q.step op).2 = (q.expire now).2 ∧
      ∃ i ∈ q.items, i.workItemId = item.workItemId ∧ i.RanOut l now := by
  have hitem : ∀ i ∈ q.items, ∀ k, i.lease = some k → k.leaseId = l →
      i.workItemId = item.workItemId := fun i hi k hk hkl =>
    (WorkItem.heldLeaseId_inj (((hq.leaseId i hi k hk).symm.trans hkl).trans hl)).1
  rcases WorkQueue.holderOnly_step q op hp with ⟨i, hi, hheld, -⟩ | ⟨e, -, heq | ⟨heq, i, hi, k, hk, hkl, hx⟩⟩
  · obtain ⟨k, hk, hkl, -⟩ := WorkItem.heldBy_iff.mp hheld
    rw [hstale i hi (hitem i hi k hk hkl)] at hheld
    cases hheld
  · exact .inl heq
  · exact .inr ⟨heq, i, hi, hitem i hi k hk hkl, k, hk, hkl, hx⟩

/-- What the `cancel` of a settlement does to an item that is active. -/
theorem cancel_active {reason : String} (now : Time)
    (hr : Text.isBlank reason = false) (hi : i ∈ q.items) (ht : i.isTerminal = false) :
    (q.cancel i.workItemId reason now).2 = q.setItem (i.cancelled reason now) := by
  simp only [WorkQueue.cancel, parseNonEmptyString_eq_ok.mpr hr, WorkQueue.get_eq_ok.mpr ⟨hi, rfl⟩,
    WorkQueue.cancelItem, ht, Bool.false_eq_true, if_false]

/-- Where no item of the id is active there is nothing to cancel. -/
theorem cancel_inactive {id : String} (reason : String) (now : Time)
    (h : ∀ i ∈ q.items, i.workItemId = id → i.isTerminal = true) :
    (q.cancel id reason now).2 = q := by
  unfold WorkQueue.cancel
  cases parseNonEmptyString reason "cancellation reason" with
  | error e => rfl
  | ok _ =>
    cases hg : q.get id with
    | error e => rfl
    | ok i =>
      obtain ⟨hi, hid⟩ := WorkQueue.get_eq_ok.mp hg
      simp only [WorkQueue.cancelItem, h i hi hid, if_true]

theorem swept_status_ne_cancelled (now : Time) (h : i.isTerminal = false) :
    (i.swept now).status ≠ .cancelled := by
  have hi : i.status ≠ .cancelled := by
    rcases WorkItem.not_isTerminal_iff.mp h with h' | h' <;> rw [h'] <;> simp
  unfold WorkItem.swept WorkItem.expired?
  split
  · split
    · exact hi
    · split <;> simp
  · exact hi

/-- A cancelled item's status is neither what it was nor what expiry makes of it. -/
theorem not_statusKept_cancelled {l reason : String}
    {now t : Time} (hi : i ∈ q.items) (ht : i.isTerminal = false) :
    ¬ StatusKept q (q.setItem (i.cancelled reason t)) i.workItemId l now := by
  intro h
  obtain ⟨j, hj, hid, hs⟩ := h i hi rfl
  have hjc : j = i.cancelled reason t := Table.eq_of_key hj (Table.mem_put_self _ _) hid
  subst hjc
  rw [WorkItem.cancelled_status] at hs
  rcases hs with hs | ⟨-, hs⟩
  · rcases WorkItem.not_isTerminal_iff.mp ht with h' | h' <;> rw [h'] at hs <;> cases hs
  · exact swept_status_ne_cancelled now ht hs.symm

/-- What a step of a worker leaves of the queue, the worker's lease being lost. -/
def LeftAlone (q q' : WorkQueue π) (workItemId leaseId : String) (now : Time) : Prop :=
  q' = q ∨ q' = (q.expire now).2 ∧
    ∃ i ∈ q.items, i.workItemId = workItemId ∧ i.RanOut leaseId now

theorem LeftAlone.statusKept {q q' : WorkQueue π} {id l : String} {now : Time}
    (h : LeftAlone q q' id l now) : StatusKept q q' id l now := by
  rcases h with rfl | ⟨rfl, i, hi, rfl, hr⟩
  · exact .refl _ _ _ _
  · exact .expire hi hr

theorem workerStep_stale {s : Workers W π} (h : WorkersInv s) {w : W} {e : WorkerEvent}
    {item : WorkItem π} {l : WorkerLease} (hg : (s.phases w).grant? = some (item, l))
    (hstale : ∀ i ∈ s.queue.items, i.workItemId = item.workItemId →
      i.heldBy l.leaseId (cfg w).workerId (WorkQueueWorker.callTime (s.phases w) e) = false) :
    CancelsActive (s.phases w) e s.queue ∧
        (∃ i ∈ s.queue.items, ∃ reason t, i.workItemId = item.workItemId ∧ i.isTerminal = false ∧
          (s.workerStep cfg w e).2.queue = s.queue.setItem (i.cancelled reason t)) ∨
      ¬ CancelsActive (s.phases w) e s.queue ∧
        LeftAlone s.queue (s.workerStep cfg w e).2.queue item.workItemId l.leaseId
          (WorkQueueWorker.callTime (s.phases w) e) := by
  -- steps other than the settlement of a CANCELLED outcome
  have hother : (∀ result now, s.phases w = .settling item l result → e = .proceed now →
      result.status ≠ .cancelled) → ¬ CancelsActive (s.phases w) e s.queue := by
    intro hne hc
    unfold CancelsActive at hc
    split at hc
    · rename_i result now hp
      rw [hp] at hg
      cases hg
      exact hne result now hp rfl hc.1
    · exact hc
  unfold Workers.workerStep
  cases hreq : (cfg w).request (s.phases w) e with
  | none =>
    refine .inr ⟨hother fun result now hp he hs => ?_, .inl rfl⟩
    rw [hp, he] at hreq
    cases hreq
  | some call =>
    cases call with
    | registry op =>
      refine .inr ⟨hother fun result now hp he hs => ?_, .inl rfl⟩
      rw [hp, he] at hreq
      cases hreq
    | queue op =>
      rcases WorkQueueWorker.request_cases hg hreq with rfl | hp | ⟨result, now, hp, rfl, hr, rfl⟩
      · refine .inr ⟨hother fun result now hp he hs => ?_, .inl rfl⟩
        rw [hp, he] at hreq
        simp only [WorkQueueWorker.request, WorkQueueWorker.settlement, hs] at hreq
        cases hreq
      · refine .inr ⟨hother fun result now hph he hs => ?_,
          stale_presents h.queue hp (h.grant w item l hg) hstale⟩
        rw [hph, he] at hreq
        simp only [WorkQueueWorker.request, WorkQueueWorker.settlement, hs] at hreq
        cases hreq
        cases hp
      · rw [hp] at hg ⊢
        by_cases hact : ∃ i ∈ s.queue.items, i.workItemId = item.workItemId ∧ i.isTerminal = false
        · obtain ⟨i, hi, hid, ht⟩ := hact
          refine .inl ⟨⟨hr, i, hi, hid, ht⟩, i, hi, result.reason, now, hid, ht, ?_⟩
          rw [← hid]
          exact cancel_active now (result.wellFormed (by rw [hr]; simp)) hi ht
        · refine .inr ⟨fun hc => hact hc.2, .inl (cancel_inactive _ _ fun i hi hid => ?_)⟩
          by_contra ht
          exact hact ⟨i, hi, hid, by simpa using ht⟩

def twoWorkers (w : Bool) : WorkQueueWorker where
  workerId := if w then "a" else "b"
  handlers := ["task"]
  leaseTtlSeconds := 30
  workerTtlSeconds := 30
  workerCapabilities := ["task"]
  usesRegistry := false
  workerId_ok := by cases w <;> decide
  leaseTtl_pos := by decide +kernel
  workerTtl_pos := by decide +kernel

/-- `WorkHandlerResult.cancelled()`. -/
def cancelledResult : WorkHandlerResult := ⟨.cancelled, "cancelled", false, fun _ => by decide⟩

/-- `WorkHandlerResult.completed()`. -/
def completedResult : WorkHandlerResult := ⟨.completed, "completed", false, fun h => absurd rfl h⟩

/-- Worker `a` leases an item; its lease runs out and `b` leases the item; then the handler of
`a` returns. -/
def releasedRun (result : WorkHandlerResult) : List (WorkersEvent Bool Unit) :=
  [.queue (.enqueue (plainRequest "task")), .worker true (.run 0), .worker true (.proceed 0),
    .worker false (.run 31000000), .worker false (.proceed 31000000),
    .worker true (.returned result)]

/-- The lease of worker `a` in these runs. -/
def lostLease : WorkerLease := ⟨"lease-work-1-1", "a", 0, 30000000, 0, 1⟩

/-- The item as worker `a` leased it. -/
def lostItem : WorkItem Unit where
  toWorkItemFields :=
    { WorkQueue.newFields (plainRequest "task") "work-1" with
      status := .leased, attempts := 1, lease := some lostLease }
  wellFormed := WorkItemFields.postInit_eq_ok.mp (by decide +kernel)

end System

end UniversalAgent.Distributed
