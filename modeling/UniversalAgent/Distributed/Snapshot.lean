import UniversalAgent.Distributed.WorkersRefinement
import UniversalAgent.Distributed.LockEffects

/-!
# Distributed — Snapshot

`distributed/snapshot.py`: what a queue, a lock registry and a worker registry hold, read off in one
projection. `DistributedRuntimeCoordinator` is the three stores together.
-/

namespace UniversalAgent.Distributed

open UniversalAgent.Foundation

structure WorkItemSnapshot where
  workItemId : String
  kind : String
  status : WorkItemStatus
  sessionId : Option String
  taskId : Option String
  actionId : Option String
  priority : Int
  attempts : Int
  maxAttempts : Int
  availableAt : Time
  workerId : Option String
  leaseExpiresAt : Option Time
  fencingToken : Option Nat
  lastError : Option String
deriving DecidableEq

structure WorkQueueSnapshot where
  totalCount : Nat
  queuedCount : Nat
  leasedCount : Nat
  completedCount : Nat
  failedCount : Nat
  cancelledCount : Nat
  items : List WorkItemSnapshot
deriving DecidableEq

structure DistributedLockSnapshot (μ : Type) where
  lockKey : String
  ownerId : String
  leaseId : String
  acquiredAt : Time
  heartbeatAt : Time
  leaseExpiresAt : Time
  fencingToken : Nat
  metadata : μ
deriving DecidableEq

structure WorkerSnapshot (ν : Type) where
  workerId : String
  status : WorkerStatus
  registeredAt : Time
  heartbeatAt : Time
  leaseExpiresAt : Time
  capabilities : List String
  metadata : Option ν
  lastError : Option String
deriving DecidableEq

structure WorkerRegistrySnapshot (ν : Type) where
  totalCount : Nat
  onlineCount : Nat
  drainingCount : Nat
  offlineCount : Nat
  lostCount : Nat
  workers : List (WorkerSnapshot ν)
deriving DecidableEq

structure DistributedRuntimeSnapshot (μ ν : Type) where
  workQueue : WorkQueueSnapshot
  locks : List (DistributedLockSnapshot μ)
  workers : WorkerRegistrySnapshot ν
deriving DecidableEq

structure DistributedRuntimeCoordinator (π μ ν : Type) where
  queue : WorkQueue π
  locks : LockRegistry μ
  workers : WorkerRegistry ν

variable {π μ ν : Type}

/-- `_work_item_snapshot`. -/
def WorkItem.snapshot (i : WorkItem π) : WorkItemSnapshot where
  workItemId := i.workItemId
  kind := i.kind
  status := i.status
  sessionId := i.sessionId
  taskId := i.taskId
  actionId := i.actionId
  priority := i.priority
  attempts := i.attempts
  maxAttempts := i.maxAttempts
  availableAt := i.availableAt
  workerId := i.lease.map WorkerLease.workerId
  leaseExpiresAt := i.lease.map WorkerLease.leaseExpiresAt
  fencingToken := i.lease.map WorkerLease.fencingToken
  lastError := i.lastError

def DistributedLockLease.snapshot (l : DistributedLockLease μ) : DistributedLockSnapshot μ where
  lockKey := l.lockKey
  ownerId := l.ownerId
  leaseId := l.leaseId
  acquiredAt := l.acquiredAt
  heartbeatAt := l.heartbeatAt
  leaseExpiresAt := l.leaseExpiresAt
  fencingToken := l.fencingToken
  metadata := l.metadata

/-- `_worker_snapshot`. -/
def WorkerRecord.snapshot (r : WorkerRecord ν) : WorkerSnapshot ν where
  workerId := r.workerId
  status := r.status
  registeredAt := r.registeredAt
  heartbeatAt := r.heartbeatAt
  leaseExpiresAt := r.leaseExpiresAt
  capabilities := r.capabilities
  metadata := r.metadata
  lastError := r.lastError

def workCount (items : List WorkItemSnapshot) (status : WorkItemStatus) : Nat :=
  items.countP fun i => decide (i.status = status)

def workerCount (items : List (WorkerSnapshot ν)) (status : WorkerStatus) : Nat :=
  items.countP fun w => decide (w.status = status)

def buildDistributedRuntimeSnapshot (s : DistributedRuntimeCoordinator π μ ν) : DistributedRuntimeSnapshot μ ν :=
  let queueItems := (s.queue.list none).map WorkItem.snapshot
  let workerItems := (s.workers.list none).map WorkerRecord.snapshot
  { workQueue :=
      { totalCount := queueItems.length
        queuedCount := workCount queueItems .queued
        leasedCount := workCount queueItems .leased
        completedCount := workCount queueItems .completed
        failedCount := workCount queueItems .failed
        cancelledCount := workCount queueItems .cancelled
        items := queueItems }
    locks := s.locks.active.map DistributedLockLease.snapshot
    workers :=
      { totalCount := workerItems.length
        onlineCount := workerCount workerItems .online
        drainingCount := workerCount workerItems .draining
        offlineCount := workerCount workerItems .offline
        lostCount := workerCount workerItems .lost
        workers := workerItems } }

def DistributedRuntimeCoordinator.snapshot (s : DistributedRuntimeCoordinator π μ ν) : DistributedRuntimeSnapshot μ ν :=
  buildDistributedRuntimeSnapshot s

namespace DistributedRuntimeCoordinator

variable {s : DistributedRuntimeCoordinator π μ ν}

theorem items_perm : s.snapshot.workQueue.items.Perm (s.queue.items.rows.map WorkItem.snapshot) :=
  (WorkItem.sorted_perm s.queue.items.rows).map _

theorem locks_perm :
    s.snapshot.locks.Perm (s.locks.leases.rows.map DistributedLockLease.snapshot) :=
  (List.perm_insertionSort _ s.locks.leases.rows).map _

theorem workers_perm : s.snapshot.workers.workers.Perm (s.workers.rows.map WorkerRecord.snapshot) := by
  have hlist : s.workers.list none = WorkerRegistry.sorted s.workers.rows := by
    simp [WorkerRegistry.list]
  have hsorted : (s.workers.list none).Perm s.workers.rows := by
    rw [hlist]
    exact List.perm_insertionSort _ _
  exact hsorted.map _

end DistributedRuntimeCoordinator

end UniversalAgent.Distributed
