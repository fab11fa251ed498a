import UniversalAgent.Distributed.QueueModels
import UniversalAgent.Foundation.Machine

/-!
# Distributed — QueueMemory

`InMemoryWorkQueue` (`distributed/queue_memory.py`), one definition per method. A method
returns what it returned or raised together with the queue it left behind: an exception
does not undo what was written before it.

`now` is the resolved timestamp of a call (`now or utc_now()`). Methods that the durable
queues override (`expire`, `get`, `list`) are called here on the in-memory queue; the parts
of `lease`, `complete`, `fail`, `heartbeat` and `cancel` that do not go through an overridden
method are definitions of their own, shared with the durable queues.
-/

namespace UniversalAgent.Distributed

open UniversalAgent.Foundation

abbrev Items (π : Type) := Table (fun i : WorkItem π => i.workItemId)

abbrev Counters := Table (Prod.fst : String × Nat → String)

/-- `dict.get(key, 0)`. -/
def Counters.count (c : Counters) (k : String) : Nat :=
  match c.get? k with
  | some (_, n) => n
  | none => 0

structure WorkQueue (π : Type) where
  items : Items π
  sequence : Nat
  fencingSequences : Counters

/-- A returned value or a raised error, with the state left behind. -/
abbrev Outcome (σ α : Type) := Except QueueError α × σ

/-- The arguments of `enqueue`. `utcNow` and `createdAt` are the two readings of the clock:
the default of `available_at` and the default of the item's `created_at`. -/
structure EnqueueRequest (π : Type) where
  kind : String
  payload : π
  sessionId : Option String
  taskId : Option String
  actionId : Option String
  priority : Int
  maxAttempts : Int
  availableAt : Option Time
  idempotencyKey : Option String
  workItemId : Option String
  utcNow : Time
  createdAt : Time

namespace WorkItem

variable {π : Type}

/-- The replacement `complete` stores. -/
def completed (i : WorkItem π) (now : Time) : WorkItem π :=
  i.replaceUnleased
    { i.toWorkItemFields with status := .completed, lease := none, completedAt := some now }
    ⟨rfl, rfl, rfl, rfl, nofun, rfl⟩

/-- The replacement `fail` stores when the item is to be retried. -/
def requeued (i : WorkItem π) (reason : String) (now : Time) : WorkItem π :=
  i.replaceUnleased
    { i.toWorkItemFields with
      status := .queued, lease := none, availableAt := now, lastError := some reason }
    ⟨rfl, rfl, rfl, rfl, nofun, rfl⟩

/-- The replacement `fail` stores when the item is given up. -/
def failed (i : WorkItem π) (reason : String) (now : Time) : WorkItem π :=
  i.replaceUnleased
    { i.toWorkItemFields with
      status := .failed, lease := none, failedAt := some now, lastError := some reason }
    ⟨rfl, rfl, rfl, rfl, nofun, rfl⟩

/-- The replacement `cancel` stores. -/
def cancelled (i : WorkItem π) (reason : String) (now : Time) : WorkItem π :=
  i.replaceUnleased
    { i.toWorkItemFields with
      status := .cancelled, lease := none, cancelledAt := some now, lastError := some reason }
    ⟨rfl, rfl, rfl, rfl, nofun, rfl⟩

/-- What `expire` does to one item: the replacement of an item whose lease has run out,
`none` for every other item. -/
def expired? (i : WorkItem π) (now : Time) : Option (WorkItem π) :=
  match i.status, i.lease with
  | .leased, some lease =>
    if lease.leaseExpiresAt > now then none
    else if i.attempts < i.maxAttempts then
      some (i.requeued ("lease expired: " ++ lease.leaseId) now)
    else some (i.failed ("lease expired: " ++ lease.leaseId) now)
  | _, _ => none

def swept (i : WorkItem π) (now : Time) : WorkItem π := (i.expired? now).getD i

def nextLeaseId (i : WorkItem π) : String :=
  "lease-" ++ i.workItemId ++ "-" ++ toString (i.attempts + 1).toNat

/-- `replace(item, status=LEASED, attempts=item.attempts + 1, lease=lease, last_error=None)`. -/
def withLease (i : WorkItem π) (lease : WorkerLease) : Except QueueError (WorkItem π) :=
  WorkItem.make
    { i.toWorkItemFields with
      status := .leased, attempts := i.attempts + 1, lease := some lease, lastError := none }

/-- `replace(item, lease=replace(lease, heartbeat_at=..., lease_expires_at=...))`. -/
def renewed (i : WorkItem π) (lease : WorkerLease) (now deadline : Time) :
    Except QueueError (WorkItem π) :=
  WorkItem.make
    { i.toWorkItemFields with
      lease := some { lease with heartbeatAt := now, leaseExpiresAt := deadline } }

end WorkItem

/-- `timedelta(seconds=x)` in microseconds: the nearest one, ties to even. -/
def roundHalfEven (x : ℚ) : Int :=
  let f := x.floor
  let d := x - f
  if d < 1 / 2 then f else if 1 / 2 < d then f + 1 else if f % 2 = 0 then f else f + 1

def leaseDeadline (now : Time) (ttlSeconds : ℚ) : Except QueueError Time :=
  if ttlSeconds ≤ 0 then .error (.valueError "ttl_seconds must be positive")
  else .ok (now + roundHalfEven (ttlSeconds * 1000000))

def normalizeAcceptedKinds (acceptedKinds : Option (List String)) :
    Except QueueError (Option (List String)) :=
  match acceptedKinds with
  | none => .ok none
  | some kinds =>
    if kinds.any Text.isBlank then
      .error (.valueError "accepted_kinds must not include empty kinds")
    else .ok (some (kinds.map Text.strip))

def sequenceFromWorkItemId (workItemId : String) : Nat :=
  let chars := workItemId.toList
  if "work-".toList.isPrefixOf chars then
    (Text.parseDecimal (String.ofList (chars.drop 5))).getD 0
  else 0

namespace WorkQueue

variable {π : Type}

/-- `InMemoryWorkQueue()`. -/
def new : WorkQueue π := ⟨Table.empty, 0, Table.empty⟩

/-- `self._items[item.work_item_id] = item`. -/
def setItem (q : WorkQueue π) (i : WorkItem π) : WorkQueue π := { q with items := q.items.put i }

def findIdempotent (q : WorkQueue π) (key : String) : Option (WorkItem π) :=
  q.items.rows.find? fun i => decide (i.idempotencyKey = some key) && !i.isTerminal

def nextWorkItemId (q : WorkQueue π) : String × WorkQueue π :=
  ("work-" ++ toString (q.sequence + 1), { q with sequence := q.sequence + 1 })

/-- `work_item_id or self._next_work_item_id()`: an empty id counts as none. -/
def chooseWorkItemId (q : WorkQueue π) (workItemId : Option String) : String × WorkQueue π :=
  match workItemId with
  | none => q.nextWorkItemId
  | some id => if id = "" then q.nextWorkItemId else (id, q)

def newFields (r : EnqueueRequest π) (workItemId : String) : WorkItemFields π where
  workItemId := workItemId
  kind := r.kind
  payload := r.payload
  sessionId := r.sessionId
  taskId := r.taskId
  actionId := r.actionId
  priority := r.priority
  maxAttempts := r.maxAttempts
  attempts := 0
  status := .queued
  createdAt := r.createdAt
  availableAt := r.availableAt.getD r.utcNow
  lease := none
  idempotencyKey := r.idempotencyKey
  completedAt := none
  failedAt := none
  cancelledAt := none
  lastError := none

/-- `enqueue` once no item answers for the idempotency key. -/
def insertNew (q : WorkQueue π) (r : EnqueueRequest π) : Outcome (WorkQueue π) (WorkItem π) :=
  let (workItemId, q) := q.chooseWorkItemId r.workItemId
  match WorkItem.make (newFields r workItemId) with
  | .error e => (.error e, q)
  | .ok item =>
    match q.items.get? item.workItemId with
    | some _ => (.error (.valueError ("work item already exists: " ++ item.workItemId)), q)
    | none => (.ok item, q.setItem item)

def existing (q : WorkQueue π) (r : EnqueueRequest π) : Option (WorkItem π) :=
  match r.idempotencyKey with
  | none => none
  | some key => q.findIdempotent key

def enqueue (q : WorkQueue π) (r : EnqueueRequest π) : Outcome (WorkQueue π) (WorkItem π) :=
  match q.existing r with
  | some existing => (.ok existing, q)
  | none => q.insertNew r

def expire (q : WorkQueue π) (now : Time) : List (WorkItem π) × WorkQueue π :=
  let expired := q.items.rows.filterMap fun i => i.expired? now
  (expired, expired.foldl setItem q)

/-- The candidates of `_next_leaseable`. -/
def leaseable (q : WorkQueue π) (now : Time) (acceptedKinds : Option (List String)) :
    List (WorkItem π) :=
  q.items.rows.filter fun i =>
    decide (i.status = .queued) && decide (i.availableAt ≤ now) &&
      match acceptedKinds with
      | none => true
      | some kinds => kinds.contains i.kind

def nextLeaseable (q : WorkQueue π) (now : Time) (acceptedKinds : Option (List String)) :
    Option (WorkItem π) :=
  (WorkItem.sorted (q.leaseable now acceptedKinds)).head?

def nextFencingToken (q : WorkQueue π) (workItemId : String) : Nat × WorkQueue π :=
  let next := q.fencingSequences.count workItemId + 1
  (next, { q with fencingSequences := q.fencingSequences.put (workItemId, next) })

/-- `lease` after the expiry sweep. -/
def grantNext (q : WorkQueue π) (workerId : String) (ttlSeconds : ℚ) (now : Time)
    (kindFilter : Option (List String)) : Outcome (WorkQueue π) (WorkItem π) :=
  match q.nextLeaseable now kindFilter with
  | none => (.error (.noWorkAvailable "no work available"), q)
  | some item =>
    match leaseDeadline now ttlSeconds with
    | .error e => (.error e, q)
    | .ok deadline =>
      let (token, q) := q.nextFencingToken item.workItemId
      match item.withLease ⟨item.nextLeaseId, workerId, now, deadline, now, token⟩ with
      | .error e => (.error e, q)
      | .ok leased => (.ok leased, q.setItem leased)

def lease (q : WorkQueue π) (workerId : String) (ttlSeconds : ℚ) (now : Time)
    (acceptedKinds : Option (List String)) : Outcome (WorkQueue π) (WorkItem π) :=
  match normalizeAcceptedKinds acceptedKinds with
  | .error e => (.error e, q)
  | .ok kindFilter => (q.expire now).2.grantNext workerId ttlSeconds now kindFilter

/-- What `_leased_item` finds. -/
inductive LeaseCheck (π : Type) where
  | found (item : WorkItem π) (lease : WorkerLease)
  | missing
  | otherWorker
  | expired

/-- The item on lease under an id, with its lease: the first one in iteration order. -/
def onLease (q : WorkQueue π) (leaseId : String) : Option (WorkItem π × WorkerLease) :=
  q.items.rows.findSome? fun i =>
    match i.status, i.lease with
    | .leased, some l => if l.leaseId = leaseId then some (i, l) else none
    | _, _ => none

/-- The checks of `_leased_item`, in the order it makes them. -/
def checkLease (q : WorkQueue π) (leaseId workerId : String) (now : Time) : LeaseCheck π :=
  match q.onLease leaseId with
  | none => .missing
  | some (i, l) =>
    if l.workerId ≠ workerId then .otherWorker
    else if l.leaseExpiresAt ≤ now then .expired
    else .found i l

/-- The error `_leased_item` raises for a failed check; an expired lease is swept before it
is reported. -/
def LeaseCheck.error (leaseId : String) : LeaseCheck π → QueueError
  | .otherWorker => .leaseLost ("lease is owned by another worker: " ++ leaseId)
  | .expired => .leaseLost ("lease expired: " ++ leaseId)
  | _ => .leaseLost ("lease not found: " ++ leaseId)

/-- Run `body` on the item that `_leased_item` returns. -/
def withLeasedItem (q : WorkQueue π) (leaseId workerId : String) (now : Time)
    (body : WorkItem π → WorkerLease → Outcome (WorkQueue π) (WorkItem π)) :
    Outcome (WorkQueue π) (WorkItem π) :=
  match q.checkLease leaseId workerId now with
  | .found i l => body i l
  | .expired => (.error (LeaseCheck.error (π := π) leaseId .expired), (q.expire now).2)
  | c => (.error (c.error leaseId), q)

/-- `heartbeat`, on the leased item. -/
def renew (q : WorkQueue π) (ttlSeconds : ℚ) (now : Time) (i : WorkItem π) (l : WorkerLease) :
    Outcome (WorkQueue π) (WorkItem π) :=
  match leaseDeadline now ttlSeconds with
  | .error e => (.error e, q)
  | .ok deadline =>
    match i.renewed l now deadline with
    | .error e => (.error e, q)
    | .ok renewed => (.ok renewed, q.setItem renewed)

def heartbeat (q : WorkQueue π) (leaseId workerId : String) (ttlSeconds : ℚ) (now : Time) :
    Outcome (WorkQueue π) (WorkItem π) :=
  q.withLeasedItem leaseId workerId now (q.renew ttlSeconds now)

/-- `complete`, on the leased item. -/
def finish (q : WorkQueue π) (now : Time) (i : WorkItem π) : Outcome (WorkQueue π) (WorkItem π) :=
  (.ok (i.completed now), q.setItem (i.completed now))

def complete (q : WorkQueue π) (leaseId workerId : String) (now : Time) :
    Outcome (WorkQueue π) (WorkItem π) :=
  q.withLeasedItem leaseId workerId now fun i _ => q.finish now i

/-- The replacement `fail` stores: back in the queue while attempts are left and a retry is
asked for, FAILED otherwise. -/
def failure (i : WorkItem π) (reason : String) (retry : Bool) (now : Time) : WorkItem π :=
  if retry = true ∧ i.attempts < i.maxAttempts then i.requeued reason now else i.failed reason now

/-- `fail`, on the leased item. -/
def giveBack (q : WorkQueue π) (reason : String) (retry : Bool) (now : Time) (i : WorkItem π) :
    Outcome (WorkQueue π) (WorkItem π) :=
  (.ok (failure i reason retry now), q.setItem (failure i reason retry now))

def fail (q : WorkQueue π) (leaseId workerId reason : String) (retry : Bool) (now : Time) :
    Outcome (WorkQueue π) (WorkItem π) :=
  match parseNonEmptyString reason "failure reason" with
  | .error e => (.error e, q)
  | .ok () => q.withLeasedItem leaseId workerId now fun i _ => q.giveBack reason retry now i

def get (q : WorkQueue π) (workItemId : String) : Except QueueError (WorkItem π) :=
  match q.items.get? workItemId with
  | some i => .ok i
  | none => .error (.workItemNotFound ("work item not found: " ++ workItemId))

/-- `cancel`, on the item `get` returned. A cancellation needs no lease. -/
def cancelItem (q : WorkQueue π) (reason : String) (now : Time) (i : WorkItem π) :
    Outcome (WorkQueue π) (WorkItem π) :=
  if i.isTerminal then (.ok i, q)
  else (.ok (i.cancelled reason now), q.setItem (i.cancelled reason now))

def cancel (q : WorkQueue π) (workItemId reason : String) (now : Time) :
    Outcome (WorkQueue π) (WorkItem π) :=
  match parseNonEmptyString reason "cancellation reason" with
  | .error e => (.error e, q)
  | .ok () =>
    match q.get workItemId with
    | .error e => (.error e, q)
    | .ok i => q.cancelItem reason now i

def drop (q : WorkQueue π) (i : WorkItem π) : WorkQueue π :=
  { q with
    items := q.items.erase i.workItemId
    fencingSequences := q.fencingSequences.erase i.workItemId }

def pruneTerminal (q : WorkQueue π) (before : Option Time) : List (WorkItem π) × WorkQueue π :=
  let pruned := WorkItem.sorted (q.items.rows.filter fun i => i.isPrunableTerminal before)
  (pruned, pruned.foldl drop q)

def list (q : WorkQueue π) (status : Option WorkItemStatus) : List (WorkItem π) :=
  WorkItem.sorted <| match status with
    | none => q.items.rows
    | some s => q.items.rows.filter fun i => decide (i.status = s)

end WorkQueue

/-! ## The queue as a machine -/

/-- The calls on a queue. `reopen` closes the queue and opens it again on the same storage;
it means nothing to the in-memory queue. -/
inductive QueueOp (π : Type) where
  | enqueue (request : EnqueueRequest π)
  | lease (workerId : String) (ttlSeconds : ℚ) (now : Time) (acceptedKinds : Option (List String))
  | heartbeat (leaseId workerId : String) (ttlSeconds : ℚ) (now : Time)
  | complete (leaseId workerId : String) (now : Time)
  | fail (leaseId workerId reason : String) (retry : Bool) (now : Time)
  | cancel (workItemId reason : String) (now : Time)
  | expire (now : Time)
  | prune (before : Option Time)
  | get (workItemId : String)
  | list (status : Option WorkItemStatus)
  | reopen

inductive Reply (π : Type) where
  | item (i : WorkItem π)
  | items (is : List (WorkItem π))
  | done
  | raised (e : QueueError)

instance {π : Type} [DecidableEq π] : DecidableEq (Reply π) := fun a b => by
  cases a <;> cases b <;> first
    | exact decidable_of_iff _ (Reply.item.injEq _ _).symm.to_iff
    | exact decidable_of_iff _ (Reply.items.injEq _ _).symm.to_iff
    | exact decidable_of_iff _ (Reply.raised.injEq _ _).symm.to_iff
    | exact isTrue rfl
    | exact isFalse (by simp)

variable {π : Type}

def Reply.ofItem : Except QueueError (WorkItem π) → Reply π
  | .ok i => .item i
  | .error e => .raised e

def WorkQueue.step (q : WorkQueue π) : QueueOp π → Reply π × WorkQueue π
  | .enqueue r => ((Reply.ofItem (q.enqueue r).1), (q.enqueue r).2)
  | .lease w ttl now kinds => (Reply.ofItem (q.lease w ttl now kinds).1, (q.lease w ttl now kinds).2)
  | .heartbeat l w ttl now => (Reply.ofItem (q.heartbeat l w ttl now).1, (q.heartbeat l w ttl now).2)
  | .complete l w now => (Reply.ofItem (q.complete l w now).1, (q.complete l w now).2)
  | .fail l w reason retry now =>
    (Reply.ofItem (q.fail l w reason retry now).1, (q.fail l w reason retry now).2)
  | .cancel id reason now => (Reply.ofItem (q.cancel id reason now).1, (q.cancel id reason now).2)
  | .expire now => (.items (q.expire now).1, (q.expire now).2)
  | .prune before => (.items (q.pruneTerminal before).1, (q.pruneTerminal before).2)
  | .get id => (Reply.ofItem (q.get id), q)
  | .list status => (.items (q.list status), q)
  | .reopen => (.done, q)

def memoryQueue (π : Type) : Machine (WorkQueue π) (QueueOp π) (Reply π) where
  init := WorkQueue.new
  step := WorkQueue.step

end UniversalAgent.Distributed
