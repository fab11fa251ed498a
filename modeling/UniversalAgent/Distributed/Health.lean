import UniversalAgent.Core.Floats
import UniversalAgent.Distributed.Snapshot

/-!
# Distributed — Health

`distributed/health.py`: the report on a snapshot, one definition per check. The remaining time of a lease
is a float: the difference in seconds, rounded to three decimal places. Times are whole microseconds, and
a float is the rational number it stands for.
-/

namespace UniversalAgent.Distributed

open UniversalAgent.Core (PyFloat toFloat roundFloat)
open UniversalAgent.Foundation

inductive DistributedHealthStatus where
  | ok
  | warn
  | error
deriving DecidableEq, Repr

structure DistributedHealthCheck where
  name : String
  status : DistributedHealthStatus
  message : String
deriving DecidableEq

structure DistributedCapacityGap where
  kind : String
  queuedCount : Nat
  capableOnlineWorkers : Nat
deriving DecidableEq

structure DistributedExpiringLease where
  leaseType : String
  key : String
  ownerId : Option String
  leaseExpiresAt : Time
  secondsRemaining : ℚ
deriving DecidableEq

structure DistributedHealthRecommendation where
  code : String
  severity : DistributedHealthStatus
  target : Option String
  message : String
deriving DecidableEq

/-- The `checks` of a report, by name. -/
structure DistributedHealthChecks where
  workerPool : DistributedHealthCheck
  queueBacklog : DistributedHealthCheck
  capacity : DistributedHealthCheck
  leaseFreshness : DistributedHealthCheck
  leasedWorkOwners : DistributedHealthCheck
  workerRegistry : DistributedHealthCheck
deriving DecidableEq

structure DistributedHealthReport where
  status : DistributedHealthStatus
  checks : DistributedHealthChecks
  capacityGaps : List DistributedCapacityGap
  expiringLeases : List DistributedExpiringLease
  recommendations : List DistributedHealthRecommendation
deriving DecidableEq

structure HealthThresholds where
  queuedBacklogWarnThreshold : Int
  leaseExpiryWarnSeconds : PyFloat
  minOnlineWorkers : Int
deriving DecidableEq

def HealthThresholds.default : HealthThresholds := ⟨100, .finite 10, 1⟩

/-- `parse_non_negative_int(value, field)`. -/
def parseNonNegativeInt (value : Int) (field : String) : Except QueueError Unit :=
  if value < 0 then .error (.valueError (field ++ " must be non-negative")) else .ok ()

/-- `parse_non_negative_float(value, field)`. Only a number below zero is refused: NaN is not. -/
def parseNonNegativeFloat (value : PyFloat) (field : String) : Except QueueError Unit :=
  let negative := match value with
    | .finite q => decide (q < 0)
    | .infinite negative => negative
    | .nan => false
  if negative then .error (.valueError (field ++ " must be non-negative")) else .ok ()

def HealthThresholds.check (o : HealthThresholds) : Except QueueError Unit := do
  parseNonNegativeInt o.queuedBacklogWarnThreshold "queued_backlog_warn_threshold"
  parseNonNegativeFloat o.leaseExpiryWarnSeconds "lease_expiry_warn_seconds"
  parseNonNegativeInt o.minOnlineWorkers "min_online_workers"

variable {π μ ν : Type}

/-! ## Leases -/

def secondsRemaining (leaseExpiresAt now : Time) : ℚ :=
  let totalSeconds := toFloat ((leaseExpiresAt - now : Int) / 1000000)
  roundFloat totalSeconds 3

/-- The lease of one item in `_work_leases`. -/
def WorkItemSnapshot.expiringLease? (i : WorkItemSnapshot) (now : Time) : Option DistributedExpiringLease :=
  match i.status, i.leaseExpiresAt with
  | .leased, some leaseExpiresAt =>
    some ⟨"work_item", i.workItemId, i.workerId, leaseExpiresAt, secondsRemaining leaseExpiresAt now⟩
  | _, _ => none

def workLeases (items : List WorkItemSnapshot) (now : Time) : List DistributedExpiringLease :=
  items.filterMap fun i => i.expiringLease? now

/-- The lease of one lock in `_lock_leases`. -/
def DistributedLockSnapshot.expiringLease (l : DistributedLockSnapshot μ) (now : Time) :
    DistributedExpiringLease :=
  ⟨"distributed_lock", l.lockKey, some l.ownerId, l.leaseExpiresAt, secondsRemaining l.leaseExpiresAt now⟩

def lockLeases (locks : List (DistributedLockSnapshot μ)) (now : Time) : List DistributedExpiringLease :=
  locks.map fun l => l.expiringLease now

/-- The lease of one worker in `_worker_leases`. -/
def WorkerSnapshot.expiringLease? (w : WorkerSnapshot ν) (now : Time) : Option DistributedExpiringLease :=
  if w.status = .online ∨ w.status = .draining then
    some ⟨"worker", w.workerId, some w.workerId, w.leaseExpiresAt, secondsRemaining w.leaseExpiresAt now⟩
  else none

def workerLeases (workers : List (WorkerSnapshot ν)) (now : Time) : List DistributedExpiringLease :=
  workers.filterMap fun w => w.expiringLease? now

/-- `seconds <= bound`, of a number and a float. -/
def atMost (seconds : ℚ) : PyFloat → Bool
  | .finite q => decide (seconds ≤ q)
  | .infinite negative => !negative
  | .nan => false

def DistributedExpiringLease.sortKey (l : DistributedExpiringLease) : ℚ ×ₗ String ×ₗ String :=
  toLex (l.secondsRemaining, toLex (l.leaseType, l.key))

def allLeases (snapshot : DistributedRuntimeSnapshot μ ν) (now : Time) : List DistributedExpiringLease :=
  workLeases snapshot.workQueue.items now ++ lockLeases snapshot.locks now ++
    workerLeases snapshot.workers.workers now

def expiringLeases (snapshot : DistributedRuntimeSnapshot μ ν) (now : Time) (warnSeconds : PyFloat) :
    List DistributedExpiringLease :=
  ((allLeases snapshot now).filter fun l => atMost l.secondsRemaining warnSeconds).insertionSort
    fun l l' => l.sortKey ≤ l'.sortKey

/-- `lease.seconds_remaining <= 0`. -/
def DistributedExpiringLease.expired (l : DistributedExpiringLease) : Bool := decide (l.secondsRemaining ≤ 0)

def expiredCount (leases : List DistributedExpiringLease) : Nat :=
  leases.countP DistributedExpiringLease.expired

/-! ## Checks -/

def workerPoolCheck (snapshot : DistributedRuntimeSnapshot μ ν) (minOnlineWorkers : Int) :
    DistributedHealthCheck :=
  let activeWorkCount := snapshot.workQueue.queuedCount + snapshot.workQueue.leasedCount
  let onlineCount := snapshot.workers.onlineCount
  if activeWorkCount ≠ 0 ∧ (onlineCount : Int) < minOnlineWorkers then
    ⟨"worker_pool", .error,
      "online workers below required capacity: online=" ++ toString onlineCount ++ " required=" ++
        toString minOnlineWorkers ++ " active_work=" ++ toString activeWorkCount⟩
  else
    ⟨"worker_pool", .ok,
      "online workers=" ++ toString onlineCount ++ " required=" ++ toString minOnlineWorkers⟩

def queueBacklogCheck (snapshot : DistributedRuntimeSnapshot μ ν) (threshold : Int) :
    DistributedHealthCheck :=
  let queuedCount := snapshot.workQueue.queuedCount
  if threshold < queuedCount then
    ⟨"queue_backlog", .warn,
      "queued work exceeds threshold: queued=" ++ toString queuedCount ++ " threshold=" ++
        toString threshold⟩
  else
    ⟨"queue_backlog", .ok,
      "queued work=" ++ toString queuedCount ++ " threshold=" ++ toString threshold⟩

def capableWorkerCount (workers : List (WorkerSnapshot ν)) (kind : String) : Nat :=
  workers.countP fun w => decide (kind ∈ w.capabilities)

def capacityGaps (snapshot : DistributedRuntimeSnapshot μ ν) : List DistributedCapacityGap :=
  let queued := (snapshot.workQueue.items.filter fun i => decide (i.status = .queued)).map
    WorkItemSnapshot.kind
  let onlineWorkers := snapshot.workers.workers.filter fun w => decide (w.status = .online)
  (queued.dedup.insertionSort fun k k' => k ≤ k').filterMap fun kind =>
    let capable := capableWorkerCount onlineWorkers kind
    if capable = 0 then some ⟨kind, queued.count kind, capable⟩ else none

def capacityCheck (gaps : List DistributedCapacityGap) : DistributedHealthCheck :=
  if gaps = [] then ⟨"capacity", .ok, "queued work kinds have online capable workers"⟩
  else
    ⟨"capacity", .error,
      "queued work has no online capable worker: " ++
        ",".intercalate (gaps.map DistributedCapacityGap.kind)⟩

def leaseFreshnessCheck (leases : List DistributedExpiringLease) : DistributedHealthCheck :=
  if expiredCount leases ≠ 0 then
    ⟨"lease_freshness", .error,
      "expired leases visible in snapshot: " ++ toString (expiredCount leases)⟩
  else if leases ≠ [] then
    ⟨"lease_freshness", .warn, "leases expiring soon: " ++ toString leases.length⟩
  else ⟨"lease_freshness", .ok, "no leases are expired or close to expiry"⟩

/-- `worker_by_id.get(worker_id)`: of two workers with one id, the dictionary keeps the last. -/
def workerById (workers : List (WorkerSnapshot ν)) (workerId : String) : Option (WorkerSnapshot ν) :=
  workers.reverse.find? fun w => decide (w.workerId = workerId)

/-- The status of the worker that owns an item; `none` where the item is orphaned. -/
def leaseOwner (workers : List (WorkerSnapshot ν)) (i : WorkItemSnapshot) : Option WorkerStatus :=
  match i.workerId.bind (workerById workers) with
  | none => none
  | some w => if w.status = .offline ∨ w.status = .lost then none else some w.status

/-- `",".join(sorted(ids))`. -/
def joinedIds (items : List WorkItemSnapshot) : String :=
  ",".intercalate ((items.map WorkItemSnapshot.workItemId).insertionSort fun a b => a ≤ b)

def leasedWorkOwnerCheck (snapshot : DistributedRuntimeSnapshot μ ν) : DistributedHealthCheck :=
  let leased := snapshot.workQueue.items.filter fun i => decide (i.status = .leased)
  let orphaned := leased.filter fun i => decide (leaseOwner snapshot.workers.workers i = none)
  let draining := leased.filter fun i =>
    decide (leaseOwner snapshot.workers.workers i = some .draining)
  if orphaned ≠ [] then
    ⟨"leased_work_owners", .error,
      "leased work has missing/offline/lost owners: " ++ joinedIds orphaned⟩
  else if draining ≠ [] then
    ⟨"leased_work_owners", .warn,
      "leased work is still owned by draining workers: " ++ joinedIds draining⟩
  else ⟨"leased_work_owners", .ok, "leased work owners are online"⟩

def workerRegistryCheck (snapshot : DistributedRuntimeSnapshot μ ν) : DistributedHealthCheck :=
  let lost := snapshot.workers.lostCount
  let offline := snapshot.workers.offlineCount
  let draining := snapshot.workers.drainingCount
  if lost ≠ 0 then
    ⟨"worker_registry", .warn,
      "lost workers observed: lost=" ++ toString lost ++ " offline=" ++ toString offline ++
        " draining=" ++ toString draining⟩
  else if offline ≠ 0 ∨ draining ≠ 0 then
    ⟨"worker_registry", .warn,
      "inactive workers observed: offline=" ++ toString offline ++ " draining=" ++ toString draining⟩
  else
    ⟨"worker_registry", .ok, "workers registered=" ++ toString snapshot.workers.totalCount⟩

/-! ## The report -/

def leaseRecommendations (leases : List DistributedExpiringLease) :
    List DistributedHealthRecommendation :=
  if expiredCount leases ≠ 0 then
    [⟨"run_expiry_sweep", .error, none,
      "run distributed expire to reconcile expired work, lock and worker leases"⟩]
  else if leases ≠ [] then
    [⟨"renew_expiring_leases", .warn, none,
      "heartbeat active leases or run distributed expire before leases lapse"⟩]
  else []

def recommendations (checks : DistributedHealthChecks) (gaps : List DistributedCapacityGap)
    (leases : List DistributedExpiringLease) : List DistributedHealthRecommendation :=
  (if checks.workerPool.status = .error then
    [⟨"start_worker_pool", .error, none,
      "register at least one online worker before processing active work"⟩]
  else []) ++
  (if checks.queueBacklog.status = .warn then
    [⟨"drain_queue_backlog", .warn, none,
      "run capable workers or raise worker capacity to reduce queued backlog"⟩]
  else []) ++
  (gaps.map fun gap =>
    ⟨"start_capable_worker", .error, some gap.kind,
      "start or register an online worker that handles " ++ gap.kind⟩) ++
  leaseRecommendations leases ++
  (if checks.leasedWorkOwners.status ≠ .ok then
    [⟨"inspect_leased_work_owners", checks.leasedWorkOwners.status, none,
      "inspect leased work owners before retrying or cancelling affected work"⟩]
  else []) ++
  (if checks.workerRegistry.status ≠ .ok then
    [⟨"inspect_worker_registry", checks.workerRegistry.status, none,
      "inspect lost, offline or draining workers and restart or mark them offline"⟩]
  else [])

def DistributedHealthChecks.statuses (c : DistributedHealthChecks) : List DistributedHealthStatus :=
  [c.workerPool, c.queueBacklog, c.capacity, c.leaseFreshness, c.leasedWorkOwners,
    c.workerRegistry].map DistributedHealthCheck.status

def aggregateStatus (checks : DistributedHealthChecks) : DistributedHealthStatus :=
  if .error ∈ checks.statuses then .error
  else if .warn ∈ checks.statuses then .warn
  else .ok

def healthReport (snapshot : DistributedRuntimeSnapshot μ ν) (now : Time) (o : HealthThresholds) :
    DistributedHealthReport :=
  let gaps := capacityGaps snapshot
  let leases := expiringLeases snapshot now o.leaseExpiryWarnSeconds
  let checks : DistributedHealthChecks :=
    { workerPool := workerPoolCheck snapshot o.minOnlineWorkers
      queueBacklog := queueBacklogCheck snapshot o.queuedBacklogWarnThreshold
      capacity := capacityCheck gaps
      leaseFreshness := leaseFreshnessCheck leases
      leasedWorkOwners := leasedWorkOwnerCheck snapshot
      workerRegistry := workerRegistryCheck snapshot }
  { status := aggregateStatus checks
    checks := checks
    capacityGaps := gaps
    expiringLeases := leases
    recommendations := recommendations checks gaps leases }

def buildDistributedHealthReport (snapshot : DistributedRuntimeSnapshot μ ν) (now : Time)
    (o : HealthThresholds) : Except QueueError DistributedHealthReport := do
  o.check
  return healthReport snapshot now o

end UniversalAgent.Distributed
