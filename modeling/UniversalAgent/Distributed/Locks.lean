import UniversalAgent.Distributed.QueueMemory

/-!
# Distributed — Locks

`InMemoryDistributedLockRegistry` (`distributed/locks.py`): leased locks, one definition per
method. A method returns what it returned or raised together with the registry it left behind.
`now` is the resolved timestamp of a call, `metadata` the mapping it was given, the empty one
where it was given none; the registry never looks into it.

The file and SQLite registries override `expire`, and SQLite's writes `acquire` out again. The
parts that they inherit as they are (`acquireSwept`, `checkLease`, `renew`, `drop`) are
definitions of their own.
-/

namespace UniversalAgent.Distributed

open UniversalAgent.Foundation

/-- What the calls of a lock registry raise; the last one by the durable registries only. -/
inductive LockError where
  | conflict (message : String)
  | leaseLost (message : String)
  | valueError (message : String)
  | jsonCodecError
deriving DecidableEq, Repr

structure DistributedLockLease (μ : Type) where
  lockKey : String
  ownerId : String
  leaseId : String
  acquiredAt : Time
  leaseExpiresAt : Time
  heartbeatAt : Time
  fencingToken : Nat
  metadata : μ
deriving DecidableEq

abbrev LockLeases (μ : Type) := Table (fun l : DistributedLockLease μ => l.lockKey)

structure LockRegistry (μ : Type) where
  leases : LockLeases μ
  sequence : Nat
deriving DecidableEq

/-- The arguments of `acquire`. -/
structure AcquireRequest (μ : Type) where
  lockKey : String
  ownerId : String
  ttlSeconds : ℚ
  metadata : μ
  now : Time
deriving DecidableEq

def requireLockKey (lockKey : String) : Except LockError Unit :=
  if Text.isBlank lockKey then .error (.valueError "lock_key must not be empty") else .ok ()

def requireOwnerId (ownerId : String) : Except LockError Unit :=
  if Text.isBlank ownerId then .error (.valueError "owner_id must not be empty") else .ok ()

/-- `_lease_deadline`. -/
def lockDeadline (now : Time) (ttlSeconds : ℚ) : Except LockError Time :=
  if ttlSeconds ≤ 0 then .error (.valueError "ttl_seconds must be positive")
  else .ok (now + roundHalfEven (ttlSeconds * 1000000))

/-- A returned value or a raised error, with what the call left behind. -/
abbrev LockOutcome (σ α : Type) := Except LockError α × σ

variable {μ : Type}

/-- The checks `acquire` starts with. -/
def AcquireRequest.check (a : AcquireRequest μ) : Except LockError Unit :=
  match requireLockKey a.lockKey with
  | .error e => .error e
  | .ok () => requireOwnerId a.ownerId

namespace DistributedLockLease

/-- `lease.lease_expires_at > now`. -/
def liveAt (l : DistributedLockLease μ) (now : Time) : Bool := decide (now < l.leaseExpiresAt)

theorem liveAt_iff {l : DistributedLockLease μ} {now : Time} :
    l.liveAt now = true ↔ now < l.leaseExpiresAt := decide_eq_true_iff

/-- `sorted(leases, key=lambda item: item.lock_key)`. -/
def sorted (leases : List (DistributedLockLease μ)) : List (DistributedLockLease μ) :=
  leases.insertionSort fun l l' => l.lockKey ≤ l'.lockKey

/-- `replace(lease, heartbeat_at=..., lease_expires_at=...)`. -/
def renewed (l : DistributedLockLease μ) (now deadline : Time) : DistributedLockLease μ :=
  { l with heartbeatAt := now, leaseExpiresAt := deadline }

end DistributedLockLease

/-- What `_active_lease` finds. -/
inductive LockCheck (μ : Type) where
  | found (lease : DistributedLockLease μ)
  | missing
  | otherOwner
  | expired

/-- The error `_active_lease` raises for a failed check. -/
def LockCheck.error (leaseId : String) : LockCheck μ → LockError
  | .otherOwner => .leaseLost ("lock lease is owned by another owner: " ++ leaseId)
  | .expired => .leaseLost ("lock lease expired: " ++ leaseId)
  | _ => .leaseLost ("lock lease not found: " ++ leaseId)

namespace LockRegistry

/-- `InMemoryDistributedLockRegistry()`. -/
def new : LockRegistry μ := ⟨Table.empty, 0⟩

def expire (r : LockRegistry μ) (now : Time) :
    List (DistributedLockLease μ) × LockRegistry μ :=
  (DistributedLockLease.sorted (r.leases.rows.filter fun l => !l.liveAt now),
    { r with leases := r.leases.filter fun l => l.liveAt now })

def active (r : LockRegistry μ) : List (DistributedLockLease μ) :=
  DistributedLockLease.sorted r.leases.rows

def nextLeaseId (r : LockRegistry μ) : String × LockRegistry μ :=
  ("lock-lease-" ++ toString (r.sequence + 1), { r with sequence := r.sequence + 1 })

def leaseFor (a : AcquireRequest μ) (leaseId : String) (token : Nat) (deadline : Time) :
    DistributedLockLease μ where
  lockKey := a.lockKey
  ownerId := a.ownerId
  leaseId := leaseId
  acquiredAt := a.now
  leaseExpiresAt := deadline
  heartbeatAt := a.now
  fencingToken := token
  metadata := a.metadata

/-- `acquire` of a free lock. The next number is taken before the duration is checked. -/
def grant (r : LockRegistry μ) (a : AcquireRequest μ) :
    LockOutcome (LockRegistry μ) (DistributedLockLease μ) :=
  let (leaseId, r) := r.nextLeaseId
  match lockDeadline a.now a.ttlSeconds with
  | .error e => (.error e, r)
  | .ok deadline =>
    let lease := leaseFor a leaseId r.sequence deadline
    (.ok lease, { r with leases := r.leases.put lease })

/-- `acquire` after the expiry sweep. -/
def acquireSwept (r : LockRegistry μ) (a : AcquireRequest μ) :
    LockOutcome (LockRegistry μ) (DistributedLockLease μ) :=
  match r.leases.get? a.lockKey with
  | some existing =>
    if existing.ownerId = a.ownerId then (.ok existing, r)
    else (.error (.conflict ("lock is owned by " ++ existing.ownerId ++ ": " ++ a.lockKey)), r)
  | none => r.grant a

def acquire (r : LockRegistry μ) (a : AcquireRequest μ) :
    LockOutcome (LockRegistry μ) (DistributedLockLease μ) :=
  match a.check with
  | .error e => (.error e, r)
  | .ok () => (r.expire a.now).2.acquireSwept a

/-- The checks of `_active_lease`, in the order it makes them. -/
def checkLease (r : LockRegistry μ) (leaseId ownerId : String) (now : Time) : LockCheck μ :=
  match r.leases.rows.find? fun l => decide (l.leaseId = leaseId) with
  | none => .missing
  | some l =>
    if l.ownerId ≠ ownerId then .otherOwner
    else if l.leaseExpiresAt ≤ now then .expired
    else .found l

/-- Run `body` on the lease that `_active_lease` returns; an expired lease is swept before it is
reported. -/
def withActiveLease (r : LockRegistry μ) (leaseId ownerId : String) (now : Time)
    (body : DistributedLockLease μ → LockOutcome (LockRegistry μ) (DistributedLockLease μ)) :
    LockOutcome (LockRegistry μ) (DistributedLockLease μ) :=
  match requireOwnerId ownerId with
  | .error e => (.error e, r)
  | .ok () =>
    match r.checkLease leaseId ownerId now with
    | .found l => body l
    | .expired => (.error (LockCheck.error (μ := μ) leaseId .expired), (r.expire now).2)
    | c => (.error (c.error leaseId), r)

/-- `heartbeat`, on the active lease. -/
def renew (r : LockRegistry μ) (ttlSeconds : ℚ) (now : Time) (l : DistributedLockLease μ) :
    LockOutcome (LockRegistry μ) (DistributedLockLease μ) :=
  match lockDeadline now ttlSeconds with
  | .error e => (.error e, r)
  | .ok deadline => (.ok (l.renewed now deadline), { r with leases := r.leases.put (l.renewed now deadline) })

def heartbeat (r : LockRegistry μ) (leaseId ownerId : String) (ttlSeconds : ℚ) (now : Time) :
    LockOutcome (LockRegistry μ) (DistributedLockLease μ) :=
  r.withActiveLease leaseId ownerId now (r.renew ttlSeconds now)

/-- `release`, on the active lease. -/
def drop (r : LockRegistry μ) (l : DistributedLockLease μ) :
    LockOutcome (LockRegistry μ) (DistributedLockLease μ) :=
  (.ok l, { r with leases := r.leases.erase l.lockKey })

def release (r : LockRegistry μ) (leaseId ownerId : String) (now : Time) :
    LockOutcome (LockRegistry μ) (DistributedLockLease μ) :=
  r.withActiveLease leaseId ownerId now r.drop

end LockRegistry

/-! ## The registry as a machine -/

inductive LockOp (μ : Type) where
  | acquire (request : AcquireRequest μ)
  | heartbeat (leaseId ownerId : String) (ttlSeconds : ℚ) (now : Time)
  | release (leaseId ownerId : String) (now : Time)
  | expire (now : Time)
  | active
  | reopen
deriving DecidableEq

inductive LockReply (μ : Type) where
  | lease (l : DistributedLockLease μ)
  | leases (ls : List (DistributedLockLease μ))
  | done
  | raised (e : LockError)
deriving DecidableEq

def LockReply.ofLease : Except LockError (DistributedLockLease μ) → LockReply μ
  | .ok l => .lease l
  | .error e => .raised e

def LockReply.ofLeases : Except LockError (List (DistributedLockLease μ)) → LockReply μ
  | .ok ls => .leases ls
  | .error e => .raised e

def LockReply.ofUnit : Except LockError Unit → LockReply μ
  | .ok () => .done
  | .error e => .raised e

/-- One call on the in-memory registry. It has nothing to be reopened from: the object stays. -/
def LockRegistry.step (r : LockRegistry μ) : LockOp μ → LockReply μ × LockRegistry μ
  | .acquire a => (.ofLease (r.acquire a).1, (r.acquire a).2)
  | .heartbeat l o ttl now =>
    (.ofLease (r.heartbeat l o ttl now).1, (r.heartbeat l o ttl now).2)
  | .release l o now => (.ofLease (r.release l o now).1, (r.release l o now).2)
  | .expire now => (.leases (r.expire now).1, (r.expire now).2)
  | .active => (.leases r.active, r)
  | .reopen => (.done, r)

def memoryLocks (μ : Type) : Machine (LockRegistry μ) (LockOp μ) (LockReply μ) where
  init := LockRegistry.new
  step := LockRegistry.step

end UniversalAgent.Distributed
