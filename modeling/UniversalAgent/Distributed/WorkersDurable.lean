import UniversalAgent.Distributed.WorkerState
import UniversalAgent.Distributed.QueueCodec
import UniversalAgent.Foundation.Except

/-!
# Distributed — WorkersDurable

`FileWorkerRegistry` and `SQLiteWorkerRegistry` (`distributed/worker_state.py`): the registry of workers on
storage. Both override the methods of the in-memory registry, which they load before and save after; and as
the inherited `heartbeat`, `drain` and `mark_offline` call `self.get`, and `heartbeat` also `self.expire`, it
is the overridden ones that run inside of them.

The file is one document, which a save replaces as a whole. The database is a table, written in a transaction
that is rolled back when the method raises, but for the error of a heartbeat that comes too late.
-/

namespace UniversalAgent.Distributed

open UniversalAgent.Foundation

variable {δ π : Type}

/-! ## The in-memory registry -/

namespace WorkerRegistry

/-- `sorted(records, key=lambda item: str(item.worker_id))`. -/
def sorted (records : List (WorkerRecord π)) : List (WorkerRecord π) :=
  records.insertionSort fun r r' => r.workerId ≤ r'.workerId

def active (reg : WorkerRegistry π) : List (WorkerRecord π) :=
  sorted (reg.rows.filter fun r => decide (r.status = .online ∨ r.status = .draining))

def list (reg : WorkerRegistry π) (status : Option WorkerStatus) : List (WorkerRecord π) :=
  (sorted reg.rows).filter fun r => status.all fun status => decide (r.status = status)

/-- What `heartbeat` makes of a record that has not run out. -/
def renewed (r : WorkerRecord π) (deadline now : Time) : WorkerRecord π :=
  { r with
    heartbeatAt := now, leaseExpiresAt := deadline
    status := if r.status = .lost then .online else r.status }

end WorkerRegistry

/-! ## The stored form -/

/-- The texts of metadata, with the message of the serializer where it refuses, and of times. A text that was
written can be read, though perhaps not as what was written: a float that is not finite is written as null. -/
structure WorkerCodec (π : Type) where
  dumps : Option π → Except String String
  loads : String → Except String (Option π)
  isoformat : Time → String
  parseDatetime : String → Option Time
  loads_dumps : ∀ m text, dumps m = .ok text → ∃ m', loads text = .ok m'
  empty : ∃ text, dumps none = .ok text ∧ loads text = .ok none
  parse_isoformat : ∀ t, parseDatetime (isoformat t) = some t

structure WorkerRecordPayload where
  workerId : String
  status : String
  registeredAt : String
  heartbeatAt : String
  leaseExpiresAt : String
  capabilities : List String
  metadata : String
  lastError : Option String
deriving DecidableEq

/-- `WorkerStatus(value)`. -/
def WorkerStatus.ofValue : String → Except RegistryError WorkerStatus
  | "online" => .ok .online
  | "draining" => .ok .draining
  | "offline" => .ok .offline
  | "lost" => .ok .lost
  | value => .error (.valueError ("'" ++ value ++ "' is not a valid WorkerStatus"))

section Codec

variable (c : WorkerCodec π)

/-- `_encode_worker_record`, with the text of the metadata. -/
def workerPayload (r : WorkerRecord π) (metadata : String) : WorkerRecordPayload where
  workerId := r.workerId
  status := r.status.value
  registeredAt := c.isoformat r.registeredAt
  heartbeatAt := c.isoformat r.heartbeatAt
  leaseExpiresAt := c.isoformat r.leaseExpiresAt
  capabilities := r.capabilities
  metadata := metadata
  lastError := r.lastError

/-- `dumps_json(_encode_worker_record(record))`. -/
def encodeWorkerRecord (r : WorkerRecord π) : Except RegistryError WorkerRecordPayload :=
  match c.dumps r.metadata with
  | .error message => .error (.valueError ("value is not JSON serializable: " ++ message))
  | .ok text => .ok (workerPayload c r text)

def parseWorkerDatetime (path text : String) : Except RegistryError Time :=
  match c.parseDatetime text with
  | some t => .ok t
  | none => .error (.valueError (path ++ " must be an ISO datetime"))

def decodeWorkerRecord (p : WorkerRecordPayload) : Except RegistryError (WorkerRecord π) := do
  let metadata ← match c.loads p.metadata with
    | .ok m => Except.ok m
    | .error message => .error (.valueError ("invalid JSON: " ++ message))
  let registeredAt ← parseWorkerDatetime c "registered_at" p.registeredAt
  let heartbeatAt ← parseWorkerDatetime c "heartbeat_at" p.heartbeatAt
  let leaseExpiresAt ← parseWorkerDatetime c "lease_expires_at" p.leaseExpiresAt
  let status ← WorkerStatus.ofValue p.status
  pure ⟨p.workerId, status, registeredAt, heartbeatAt, leaseExpiresAt, p.capabilities, metadata,
    p.lastError⟩

/-- The loop of `_load`, where `duplicate` begins the message for a second record of one worker. -/
def loadWorkers (duplicate : String) :
    List WorkerRecordPayload → WorkerRegistry π → Except RegistryError (WorkerRegistry π)
  | [], loaded => .ok loaded
  | p :: ps, loaded =>
    match decodeWorkerRecord c p with
    | .error e => .error e
    | .ok r =>
      match loaded.get? r.workerId with
      | some _ => .error (.valueError (duplicate ++ r.workerId))
      | none => loadWorkers duplicate ps (loaded.put r)

end Codec

/-! ## The object -/

/-- Storage of type `δ`: `read` is the part of `_load` that decodes it, `write` the part of `_save` that
encodes the workers. -/
structure WorkerAdapter (δ π : Type) where
  empty : δ
  read : δ → Except RegistryError (WorkerRegistry π)
  write : WorkerRegistry π → Except RegistryError δ

/-- The object: what it inherits from `InMemoryWorkerRegistry`, and its storage. -/
structure DurableWorkers (δ π : Type) where
  workers : WorkerRegistry π
  data : δ

abbrev WorkerOutcome (σ α : Type) := Except RegistryError α × σ

namespace DurableWorkers

variable (a : WorkerAdapter δ π)

def load (s : DurableWorkers δ π) : Except RegistryError (DurableWorkers δ π) :=
  match a.read s.data with
  | .error e => .error e
  | .ok reg => .ok { s with workers := reg }

/-- `_save`. One that fails leaves the file, and is rolled back in the database. -/
def save (s : DurableWorkers δ π) : Except RegistryError (DurableWorkers δ π) :=
  match a.write s.workers with
  | .error e => .error e
  | .ok data => .ok { s with data := data }

/-- A body that starts with `self._load()`. -/
def loading {α : Type} (s : DurableWorkers δ π)
    (body : DurableWorkers δ π → WorkerOutcome (DurableWorkers δ π) α) :
    WorkerOutcome (DurableWorkers δ π) α :=
  match s.load a with
  | .error e => (.error e, s)
  | .ok s => body s

/-- `self._save()` before the result is returned. -/
def saving {α : Type} : WorkerOutcome (DurableWorkers δ π) α → WorkerOutcome (DurableWorkers δ π) α
  | (.error e, s) => (.error e, s)
  | (.ok x, s) =>
    match s.save a with
    | .error e => (.error e, s)
    | .ok s => (.ok x, s)

def get (s : DurableWorkers δ π) (workerId : String) :
    WorkerOutcome (DurableWorkers δ π) (WorkerRecord π) :=
  s.loading a fun s => (s.workers.get workerId, s)

def active (s : DurableWorkers δ π) : WorkerOutcome (DurableWorkers δ π) (List (WorkerRecord π)) :=
  s.loading a fun s => (.ok s.workers.active, s)

def list (s : DurableWorkers δ π) (status : Option WorkerStatus) :
    WorkerOutcome (DurableWorkers δ π) (List (WorkerRecord π)) :=
  s.loading a fun s => (.ok (s.workers.list status), s)

/-- `expire`: the workers are saved only when one expired. -/
def expire (s : DurableWorkers δ π) (now : Time) :
    WorkerOutcome (DurableWorkers δ π) (List (WorkerRecord π)) :=
  s.loading a fun s =>
    let result := (.ok (s.workers.expire now).1, { s with workers := (s.workers.expire now).2 })
    if (s.workers.expire now).1 = [] then result else saving a result

def register (s : DurableWorkers δ π) (workerId : String) (capabilities : List String)
    (metadata : Option π) (ttlSeconds : ℚ) (now : Time) :
    WorkerOutcome (DurableWorkers δ π) (WorkerRecord π) :=
  s.loading a fun s => saving a
    ((s.workers.register workerId capabilities metadata ttlSeconds now).1,
      { s with workers := (s.workers.register workerId capabilities metadata ttlSeconds now).2 })

/-- The inherited `heartbeat`, whose `self` is the object. -/
def inheritedHeartbeat (s : DurableWorkers δ π) (workerId : String) (ttlSeconds : ℚ) (now : Time) :
    WorkerOutcome (DurableWorkers δ π) (WorkerRecord π) :=
  match WorkerRegistry.workerDeadline now ttlSeconds with
  | .error e => (.error e, s)
  | .ok deadline =>
    match s.get a workerId with
    | (.error e, s) => (.error e, s)
    | (.ok r, s) =>
      if r.leaseExpiresAt ≤ now then
        match s.expire a now with
        | (.error e, s) => (.error e, s)
        | (.ok _, s) => (.error (.workerNotFound ("worker lease expired: " ++ workerId)), s)
      else
        (.ok (WorkerRegistry.renewed r deadline now),
          { s with workers := s.workers.put (WorkerRegistry.renewed r deadline now) })

def heartbeat (s : DurableWorkers δ π) (workerId : String) (ttlSeconds : ℚ) (now : Time) :
    WorkerOutcome (DurableWorkers δ π) (WorkerRecord π) :=
  s.loading a fun s => saving a (s.inheritedHeartbeat a workerId ttlSeconds now)

/-- The inherited `drain` and `mark_offline`, whose `self` is the object. -/
def inheritedTakeOut (s : DurableWorkers δ π) (status : WorkerStatus) (field workerId reason : String)
    (now : Time) : WorkerOutcome (DurableWorkers δ π) (WorkerRecord π) :=
  if Text.isBlank reason then (.error (.valueError (field ++ " must not be empty")), s)
  else
    match s.get a workerId with
    | (.error e, s) => (.error e, s)
    | (.ok r, s) =>
      let updated : WorkerRecord π :=
        { r with status := status, heartbeatAt := now, lastError := some reason }
      (.ok updated, { s with workers := s.workers.put updated })

/-- `drain` and `mark_offline`. -/
def takeOut (s : DurableWorkers δ π) (status : WorkerStatus) (field workerId reason : String) (now : Time) :
    WorkerOutcome (DurableWorkers δ π) (WorkerRecord π) :=
  s.loading a fun s => saving a (s.inheritedTakeOut a status field workerId reason now)

def drain (s : DurableWorkers δ π) (workerId reason : String) (now : Time) :
    WorkerOutcome (DurableWorkers δ π) (WorkerRecord π) :=
  s.takeOut a .draining "drain reason" workerId reason now

def markOffline (s : DurableWorkers δ π) (workerId reason : String) (now : Time) :
    WorkerOutcome (DurableWorkers δ π) (WorkerRecord π) :=
  s.takeOut a .offline "offline reason" workerId reason now

/-- Closing the registry and opening it again on its storage: `__init__` loads. -/
def reopen (s : DurableWorkers δ π) : WorkerOutcome (DurableWorkers δ π) Unit :=
  match load a { s with workers := Table.empty } with
  | .error e => (.error e, s)
  | .ok s => (.ok (), s)

def stored (s : DurableWorkers δ π) : Except RegistryError (List (WorkerRecord π)) :=
  (a.read s.data).map fun reg => reg.list none

end DurableWorkers

/-! ## Machines -/

inductive WorkerOp (π : Type) where
  | call (op : RegistryOp π)
  | active
  | list (status : Option WorkerStatus)
  | reopen

deriving instance DecidableEq for RegistryReply

inductive WorkerReply (π : Type) where
  | returned (reply : RegistryReply π)
  | opened
deriving DecidableEq

def WorkerReply.ofRecord (result : Except RegistryError (WorkerRecord π)) : WorkerReply π :=
  .returned (.ofRecord result)

def WorkerReply.ofRecords : Except RegistryError (List (WorkerRecord π)) → WorkerReply π
  | .ok records => .returned (.records records)
  | .error e => .returned (.raised e)

def WorkerReply.ofUnit : Except RegistryError Unit → WorkerReply π
  | .ok () => .opened
  | .error e => .returned (.raised e)

/-- One call on the in-memory registry, which there is nothing to reopen of. -/
def WorkerRegistry.workerStep (reg : WorkerRegistry π) : WorkerOp π → WorkerReply π × WorkerRegistry π
  | .call op => (.returned (reg.step op).1, (reg.step op).2)
  | .active => (.returned (.records reg.active), reg)
  | .list status => (.returned (.records (reg.list status)), reg)
  | .reopen => (.opened, reg)

def memoryWorkers (π : Type) : Machine (WorkerRegistry π) (WorkerOp π) (WorkerReply π) where
  init := Table.empty
  step := WorkerRegistry.workerStep

/-! ### The file -/

structure WorkerRegistryPayload where
  version : Int
  workers : List WorkerRecordPayload
deriving DecidableEq

/-- The document, `none` while the file does not exist. -/
abbrev FileWorkerRegistry (π : Type) := DurableWorkers (Option WorkerRegistryPayload) π

/-- `FileWorkerRegistry._load` and `FileWorkerRegistry._save`. -/
def fileWorkerAdapter (c : WorkerCodec π) : WorkerAdapter (Option WorkerRegistryPayload) π where
  empty := none
  read
    | none => .ok Table.empty
    | some document =>
      if document.version ≠ 1 then
        .error (.valueError
          ("unsupported file worker registry version: " ++ toString document.version))
      else loadWorkers c "duplicate file worker registry worker: " document.workers Table.empty
  write reg :=
    match (reg.list none).mapM (encodeWorkerRecord c) with
    | .error e => .error e
    | .ok workers => .ok (some ⟨1, workers⟩)

def FileWorkerRegistry.step (c : WorkerCodec π) (s : FileWorkerRegistry π) :
    WorkerOp π → WorkerReply π × FileWorkerRegistry π
  | .call (.register w caps metadata ttl now) =>
    let o := s.register (fileWorkerAdapter c) w caps metadata ttl now
    (.ofRecord o.1, o.2)
  | .call (.heartbeat w ttl now) =>
    let o := s.heartbeat (fileWorkerAdapter c) w ttl now
    (.ofRecord o.1, o.2)
  | .call (.drain w reason now) =>
    let o := s.drain (fileWorkerAdapter c) w reason now
    (.ofRecord o.1, o.2)
  | .call (.markOffline w reason now) =>
    let o := s.markOffline (fileWorkerAdapter c) w reason now
    (.ofRecord o.1, o.2)
  | .call (.expire now) =>
    let o := s.expire (fileWorkerAdapter c) now
    (.ofRecords o.1, o.2)
  | .call (.get w) =>
    let o := s.get (fileWorkerAdapter c) w
    (.ofRecord o.1, o.2)
  | .active =>
    let o := s.active (fileWorkerAdapter c)
    (.ofRecords o.1, o.2)
  | .list status =>
    let o := s.list (fileWorkerAdapter c) status
    (.ofRecords o.1, o.2)
  | .reopen =>
    let o := s.reopen (fileWorkerAdapter c)
    (.ofUnit o.1, o.2)

def fileWorkers (c : WorkerCodec π) : Machine (FileWorkerRegistry π) (WorkerOp π) (WorkerReply π) where
  init := ⟨Table.empty, none⟩
  step := FileWorkerRegistry.step c

/-! ### The database -/

/-- A row of `worker_registry_records`. -/
structure WorkerRow where
  workerId : String
  status : String
  heartbeatAt : String
  leaseExpiresAt : String
  payload : WorkerRecordPayload
deriving DecidableEq

abbrev SQLiteWorkerRegistry (π : Type) := DurableWorkers (List WorkerRow) π

def sqliteWorkerRecordValues (c : WorkerCodec π) (r : WorkerRecord π) : Except RegistryError WorkerRow :=
  match encodeWorkerRecord c r with
  | .error e => .error e
  | .ok payload =>
    .ok ⟨r.workerId, r.status.value, c.isoformat r.heartbeatAt, c.isoformat r.leaseExpiresAt, payload⟩

/-- `SQLiteWorkerRegistry._load` and `SQLiteWorkerRegistry._save`. -/
def sqliteWorkerAdapter (c : WorkerCodec π) : WorkerAdapter (List WorkerRow) π where
  empty := []
  read rows :=
    loadWorkers c "duplicate sqlite worker registry worker: "
      ((rows.insertionSort fun x y => x.workerId ≤ y.workerId).map fun x => x.payload) Table.empty
  write reg := (reg.list none).mapM (sqliteWorkerRecordValues c)

namespace SQLiteWorkerRegistry

/-- `_transaction(commit_on=...)`. The transactions that a method opens inside of it are this one. -/
def transaction {α : Type} (commitOn : RegistryError → Bool) (s : SQLiteWorkerRegistry π)
    (body : SQLiteWorkerRegistry π → WorkerOutcome (SQLiteWorkerRegistry π) α) :
    WorkerOutcome (SQLiteWorkerRegistry π) α :=
  match body s with
  | (.ok x, s') => (.ok x, s')
  | (.error e, s') => if commitOn e then (.error e, s') else (.error e, { s' with data := s.data })

def commitOnNothing : RegistryError → Bool := fun _ => false

def commitOnNotFound : RegistryError → Bool
  | .workerNotFound _ => true
  | .valueError _ => false

def step (c : WorkerCodec π) (s : SQLiteWorkerRegistry π) :
    WorkerOp π → WorkerReply π × SQLiteWorkerRegistry π
  | .call (.register w caps metadata ttl now) =>
    let o := transaction commitOnNothing s fun s =>
      s.register (sqliteWorkerAdapter c) w caps metadata ttl now
    (.ofRecord o.1, o.2)
  | .call (.heartbeat w ttl now) =>
    let o := transaction commitOnNotFound s fun s => s.heartbeat (sqliteWorkerAdapter c) w ttl now
    (.ofRecord o.1, o.2)
  | .call (.drain w reason now) =>
    let o := transaction commitOnNothing s fun s => s.drain (sqliteWorkerAdapter c) w reason now
    (.ofRecord o.1, o.2)
  | .call (.markOffline w reason now) =>
    let o := transaction commitOnNothing s fun s => s.markOffline (sqliteWorkerAdapter c) w reason now
    (.ofRecord o.1, o.2)
  | .call (.expire now) =>
    let o := transaction commitOnNothing s fun s => s.expire (sqliteWorkerAdapter c) now
    (.ofRecords o.1, o.2)
  | .call (.get w) =>
    let o := s.get (sqliteWorkerAdapter c) w
    (.ofRecord o.1, o.2)
  | .active =>
    let o := s.active (sqliteWorkerAdapter c)
    (.ofRecords o.1, o.2)
  | .list status =>
    let o := s.list (sqliteWorkerAdapter c) status
    (.ofRecords o.1, o.2)
  | .reopen =>
    let o := s.reopen (sqliteWorkerAdapter c)
    (.ofUnit o.1, o.2)

end SQLiteWorkerRegistry

def sqliteWorkers (c : WorkerCodec π) :
    Machine (SQLiteWorkerRegistry π) (WorkerOp π) (WorkerReply π) where
  init := ⟨Table.empty, []⟩
  step := SQLiteWorkerRegistry.step c

end UniversalAgent.Distributed
