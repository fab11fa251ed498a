import UniversalAgent.Distributed.QueueMemory

/-!
# Distributed — WorkerState

`InMemoryWorkerRegistry` (`distributed/worker_state.py`): the record a worker keeps alive with
heartbeats, one definition per method. As on the queue, a method returns its result with the
registry it leaves behind; `heartbeat` sweeps before it raises for a record that ran out.

Metadata is a mapping the registry stores and never looks into; `none` is the empty one.
-/

namespace UniversalAgent.Distributed

open UniversalAgent.Foundation

inductive WorkerStatus where
  | online
  | draining
  | offline
  | lost
deriving DecidableEq, Repr

def WorkerStatus.value : WorkerStatus → String
  | .online => "online"
  | .draining => "draining"
  | .offline => "offline"
  | .lost => "lost"

inductive RegistryError where
  | workerNotFound (message : String)
  | valueError (message : String)
deriving DecidableEq, Repr

structure WorkerRecord (π : Type) where
  workerId : String
  status : WorkerStatus
  registeredAt : Time
  heartbeatAt : Time
  leaseExpiresAt : Time
  capabilities : List String
  metadata : Option π
  lastError : Option String
deriving DecidableEq

abbrev WorkerRegistry (π : Type) := Table (fun r : WorkerRecord π => r.workerId)

namespace WorkerRegistry

variable {π : Type}

def requireWorkerId (workerId : String) : Except RegistryError Unit :=
  if Text.isBlank workerId then .error (.valueError "worker_id must not be empty") else .ok ()

/-- `_validate_ttl` and `_lease_deadline`. -/
def workerDeadline (now : Time) (ttlSeconds : ℚ) : Except RegistryError Time :=
  if ttlSeconds ≤ 0 then .error (.valueError "ttl_seconds must be positive")
  else .ok (now + roundHalfEven (ttlSeconds * 1000000))

def register (reg : WorkerRegistry π) (workerId : String) (capabilities : List String)
    (metadata : Option π) (ttlSeconds : ℚ) (now : Time) :
    Except RegistryError (WorkerRecord π) × WorkerRegistry π :=
  match requireWorkerId workerId with
  | .error e => (.error e, reg)
  | .ok () =>
    match workerDeadline now ttlSeconds with
    | .error e => (.error e, reg)
    | .ok deadline =>
      let updated : WorkerRecord π := match reg.get? workerId with
        | some r =>
          { r with
            status := .online, heartbeatAt := now, leaseExpiresAt := deadline
            capabilities := capabilities, metadata := metadata, lastError := none }
        | none => ⟨workerId, .online, now, now, deadline, capabilities, metadata, none⟩
      (.ok updated, reg.put updated)

def get (reg : WorkerRegistry π) (workerId : String) : Except RegistryError (WorkerRecord π) :=
  match requireWorkerId workerId with
  | .error e => .error e
  | .ok () =>
    match reg.get? workerId with
    | some r => .ok r
    | none => .error (.workerNotFound ("worker not found: " ++ workerId))

/-- What `expire` does to one record, `none` where it does nothing. -/
def lost? (r : WorkerRecord π) (now : Time) : Option (WorkerRecord π) :=
  if r.status = .offline ∨ r.status = .lost then none
  else if r.leaseExpiresAt > now then none
  else some
    { r with
      status := .lost, heartbeatAt := now
      lastError := some ("worker heartbeat expired: " ++ r.workerId) }

def expire (reg : WorkerRegistry π) (now : Time) : List (WorkerRecord π) × WorkerRegistry π :=
  let expired := reg.rows.filterMap fun r => lost? r now
  (expired.insertionSort fun r r' => r.workerId ≤ r'.workerId, expired.foldl Table.put reg)

def heartbeat (reg : WorkerRegistry π) (workerId : String) (ttlSeconds : ℚ) (now : Time) :
    Except RegistryError (WorkerRecord π) × WorkerRegistry π :=
  match workerDeadline now ttlSeconds with
  | .error e => (.error e, reg)
  | .ok deadline =>
    match get reg workerId with
    | .error e => (.error e, reg)
    | .ok r =>
      if r.leaseExpiresAt ≤ now then
        (.error (.workerNotFound ("worker lease expired: " ++ workerId)), (expire reg now).2)
      else
        let updated : WorkerRecord π :=
          { r with
            heartbeatAt := now, leaseExpiresAt := deadline
            status := if r.status = .lost then .online else r.status }
        (.ok updated, reg.put updated)

/-- `drain` and `mark_offline`: an operator takes the worker out of service. -/
def takeOut (status : WorkerStatus) (field : String) (reg : WorkerRegistry π)
    (workerId reason : String) (now : Time) :
    Except RegistryError (WorkerRecord π) × WorkerRegistry π :=
  if Text.isBlank reason then (.error (.valueError (field ++ " must not be empty")), reg)
  else
    match get reg workerId with
    | .error e => (.error e, reg)
    | .ok r =>
      let updated : WorkerRecord π :=
        { r with status := status, heartbeatAt := now, lastError := some reason }
      (.ok updated, reg.put updated)

def drain : WorkerRegistry π → String → String → Time →
    Except RegistryError (WorkerRecord π) × WorkerRegistry π := takeOut .draining "drain reason"

def markOffline : WorkerRegistry π → String → String → Time →
    Except RegistryError (WorkerRecord π) × WorkerRegistry π := takeOut .offline "offline reason"

end WorkerRegistry

/-! ## The registry as a machine -/

/-- The calls on a registry that change it, and `get`. -/
inductive RegistryOp (π : Type) where
  | register (workerId : String) (capabilities : List String) (metadata : Option π)
      (ttlSeconds : ℚ) (now : Time)
  | heartbeat (workerId : String) (ttlSeconds : ℚ) (now : Time)
  | drain (workerId reason : String) (now : Time)
  | markOffline (workerId reason : String) (now : Time)
  | expire (now : Time)
  | get (workerId : String)

inductive RegistryReply (π : Type) where
  | record (r : WorkerRecord π)
  | records (rs : List (WorkerRecord π))
  | raised (e : RegistryError)

variable {π : Type}

def RegistryReply.ofRecord : Except RegistryError (WorkerRecord π) → RegistryReply π
  | .ok r => .record r
  | .error e => .raised e

def WorkerRegistry.step (reg : WorkerRegistry π) :
    RegistryOp π → RegistryReply π × WorkerRegistry π
  | .register w caps metadata ttl now =>
    let o := reg.register w caps metadata ttl now
    (.ofRecord o.1, o.2)
  | .heartbeat w ttl now =>
    let o := reg.heartbeat w ttl now
    (.ofRecord o.1, o.2)
  | .drain w reason now =>
    let o := reg.drain w reason now
    (.ofRecord o.1, o.2)
  | .markOffline w reason now =>
    let o := reg.markOffline w reason now
    (.ofRecord o.1, o.2)
  | .expire now =>
    let o := reg.expire now
    (.records o.1, o.2)
  | .get w => (.ofRecord (reg.get w), reg)

end UniversalAgent.Distributed
