import UniversalAgent.Core.Models
import UniversalAgent.Distributed.QueueMemory
import UniversalAgent.Foundation.Machine
import UniversalAgent.Foundation.RowLocks

/-!
# Persistence — Outbox

The transactional outbox of the PostgreSQL store (`persistence/postgres.py`): publishers lease the
events that are pending, mark them published or release them. A call goes on row by row, between
the steps of any others; at a row that another transaction has locked it waits, except where it
selects the rows of a lease: these it skips. A lease call reads its events again after its
transaction has ended.

The rows are those of one tenant. A row keeps neither its texts of errors nor the times that no
call reads.
-/

namespace UniversalAgent.Persistence

open UniversalAgent.Core UniversalAgent.Foundation UniversalAgent.Distributed

inductive OutboxStatus where
  | pending | publishing | published
deriving DecidableEq, Repr

structure OutboxRow where
  sequence : Nat
  event : RuntimeEvent
  status : OutboxStatus
  attempts : Nat
  availableAt : Instant
  lockedBy : Option String
  lockedUntil : Option Instant
deriving DecidableEq

abbrev OutboxRow.eventId (r : OutboxRow) : EventId := r.event.id

/-- The arguments of `lease_outbox_events`; `now` is the resolved timestamp. -/
structure LeaseRequest where
  publisherId : String
  limit : Int
  ttlSeconds : ℚ
  now : Instant
deriving DecidableEq

/-- `timestamp + timedelta(seconds=ttl_seconds)`. -/
def LeaseRequest.lockedUntil (r : LeaseRequest) : Instant :=
  r.now + roundHalfEven (r.ttlSeconds * 1000000)

def LeaseRequest.valid (r : LeaseRequest) : Bool :=
  decide (0 < r.limit) && decide (0 < r.ttlSeconds) && !Text.isBlank r.publisherId

/-! ## Statements -/

/-- The rows whose lease has expired, in `_reclaim_expired_outbox_leases`. -/
def OutboxRow.expired (now : Instant) (r : OutboxRow) : Bool :=
  decide (r.status = .publishing) && r.lockedUntil.any fun until_ => decide (until_ ≤ now)

def OutboxRow.reclaim (now : Instant) (r : OutboxRow) : OutboxRow :=
  { r with status := .pending, availableAt := now, lockedBy := none, lockedUntil := none }

def OutboxRow.available (now : Instant) (r : OutboxRow) : Bool :=
  decide (r.status = .pending) && decide (r.availableAt ≤ now)

def OutboxRow.among (rows : List OutboxRow) (r : OutboxRow) : Bool :=
  decide (r.sequence ∈ rows.map OutboxRow.sequence)

def OutboxRow.lease (request : LeaseRequest) (r : OutboxRow) : OutboxRow :=
  { r with
    status := .publishing
    attempts := r.attempts + 1
    lockedBy := some request.publisherId
    lockedUntil := some request.lockedUntil }

/-- The rows that `mark_outbox_published` is for. -/
def OutboxRow.markable (eventIds : List EventId) (publisherId : Option String) (r : OutboxRow) :
    Bool :=
  decide (r.eventId ∈ eventIds) && decide (r.status ≠ .published) &&
    publisherId.all fun publisher => decide (r.lockedBy = some publisher)

def OutboxRow.markPublished (r : OutboxRow) : OutboxRow :=
  { r with status := .published, lockedBy := none, lockedUntil := none }

/-- The rows that `release_outbox_events` is for. -/
def OutboxRow.releasable (eventIds : List EventId) (publisherId : String) (r : OutboxRow) : Bool :=
  decide (r.eventId ∈ eventIds) && decide (r.status = .publishing) &&
    decide (r.lockedBy = some publisherId)

def OutboxRow.release (retryAt : Instant) (r : OutboxRow) : OutboxRow :=
  { r with status := .pending, availableAt := retryAt, lockedBy := none, lockedUntil := none }

/-- `_outbox_events` of the publishing rows: no filter of ids where there are none. -/
def publishingRows (rows : List OutboxRow) (eventIds : List EventId) : List OutboxRow :=
  rows.filter fun r =>
    decide (r.status = .publishing) && (eventIds.isEmpty || decide (r.eventId ∈ eventIds))

/-! ## Calls -/

/-- A call of the outbox; `retryAt` is the resolved time. -/
inductive OutboxCall where
  | lease (request : LeaseRequest)
  | markPublished (eventIds : List EventId) (publisherId : Option String)
  | release (eventIds : List EventId) (publisherId reason : String) (retryAt : Instant)

/-- How far a call is: the rows that its statement has yet to visit, and those it has selected. -/
inductive OutboxStage where
  | reclaiming (request : LeaseRequest) (todo : List Nat)
  | selecting (request : LeaseRequest) (todo : List Nat) (rows : List OutboxRow)
  | leasing (request : LeaseRequest) (rows : List OutboxRow) (todo : List Nat)
  | rereading (request : LeaseRequest) (rows : List OutboxRow)
  | marking (eventIds : List EventId) (publisherId : Option String) (todo : List Nat)
  | releasing (eventIds : List EventId) (publisherId : String) (retryAt : Instant)
      (todo : List Nat)
deriving DecidableEq

/-- The rows with the locks of the transactions that are open, and the calls in progress. -/
structure Outbox (ι : Type) where
  rows : LockedTable ι OutboxRow
  calls : ι → Option OutboxStage

inductive OutboxInput (ι : Type) where
  | insert (sequence : Nat) (event : RuntimeEvent) (now : Instant)
  | start (c : ι) (call : OutboxCall)
  | advance (c : ι)
  | abort (c : ι)

/-- What became of it. The rows of a lease are reported when its transaction is committed, those
that the call returns when it has read them again. -/
inductive OutboxAnswer where
  | ran
  | waits
  | raised
  | nothing
  | leased (request : LeaseRequest) (rows : List OutboxRow)
  | returned (rows : List OutboxRow)
  | marked (rows : List OutboxRow)
  | released (rows : List OutboxRow)
deriving DecidableEq

namespace Outbox

variable {ι : Type} [DecidableEq ι]

def setStage (s : Outbox ι) (c : ι) (stage : Option OutboxStage) : Outbox ι :=
  { s with calls := Function.update s.calls c stage }

def find (s : Outbox ι) (c : ι) (p : OutboxRow → Bool) : List Nat :=
  s.rows.found OutboxRow.sequence c p

def goOn (s : Outbox ι) (c : ι) (rows : LockedTable ι OutboxRow) (stage : OutboxStage) :
    OutboxAnswer × Outbox ι :=
  (.ran, ⟨rows, Function.update s.calls c (some stage)⟩)

/-- An `UPDATE` visits a row, or waits for it. -/
def updateRow (s : Outbox ι) (c : ι) (sequence : Nat) (p : OutboxRow → Bool)
    (f : OutboxRow → OutboxRow) (stage : OutboxStage) : OutboxAnswer × Outbox ι :=
  match s.rows.visit OutboxRow.sequence c sequence p f with
  | some (_, rows) => s.goOn c rows stage
  | none => (.waits, s)

def selectRow (s : Outbox ι) (c : ι) (r : LeaseRequest) (sequence : Nat) (todo : List Nat)
    (rows : List OutboxRow) : OutboxAnswer × Outbox ι :=
  match s.rows.visit OutboxRow.sequence c sequence (OutboxRow.available r.now) id with
  | some (some row, rows') => s.goOn c rows' (.selecting r todo (rows ++ [row]))
  | some (none, _) => s.goOn c s.rows (.selecting r todo rows)
  | none => s.goOn c s.rows (.selecting r todo rows)

/-- The lease of the rows selected begins; where there are none, it finds none. -/
def startLeasing (s : Outbox ι) (c : ι) (r : LeaseRequest) (rows : List OutboxRow) :
    OutboxAnswer × Outbox ι :=
  s.goOn c s.rows (.leasing r rows (s.find c (OutboxRow.among rows)))

def commit (s : Outbox ι) (c : ι) (stage : Option OutboxStage) : Outbox ι :=
  ⟨s.rows.commit c, Function.update s.calls c stage⟩

def begin (s : Outbox ι) (c : ι) : OutboxCall → OutboxAnswer × Outbox ι
  | .lease r =>
    if r.valid then
      (.ran, s.setStage c (some (.reclaiming r (s.find c (OutboxRow.expired r.now)))))
    else (.raised, s)
  | .markPublished eventIds publisherId =>
    if eventIds.isEmpty then (.nothing, s)
    else if publisherId.any Text.isBlank then (.raised, s)
    else (.ran, s.setStage c (some (.marking eventIds publisherId
      (s.find c (OutboxRow.markable eventIds publisherId)))))
  | .release eventIds publisherId reason retryAt =>
    if eventIds.isEmpty then (.nothing, s)
    else if Text.isBlank publisherId || Text.isBlank reason then (.raised, s)
    else (.ran, s.setStage c (some (.releasing eventIds publisherId retryAt
      (s.find c (OutboxRow.releasable eventIds publisherId)))))

/-- A call goes on: its statement visits the next row, or the next statement begins, or its
transaction is committed. -/
def advance (s : Outbox ι) (c : ι) : OutboxStage → OutboxAnswer × Outbox ι
  | .reclaiming r (n :: todo) =>
    s.updateRow c n (OutboxRow.expired r.now) (OutboxRow.reclaim r.now) (.reclaiming r todo)
  | .reclaiming r [] =>
    s.goOn c s.rows (.selecting r (s.find c (OutboxRow.available r.now)) [])
  | .selecting r (n :: todo) rows =>
    if rows.length < r.limit.toNat then s.selectRow c r n todo rows
    else s.startLeasing c r rows
  | .selecting r [] rows => s.startLeasing c r rows
  | .leasing r rows (n :: todo) =>
    s.updateRow c n (OutboxRow.among rows) (OutboxRow.lease r) (.leasing r rows todo)
  | .leasing r rows [] =>
    (.leased r (rows.map (OutboxRow.lease r)), s.commit c (some (.rereading r rows)))
  | .rereading _ rows =>
    (.returned (publishingRows s.rows.versions (rows.map OutboxRow.eventId)), s.setStage c none)
  | .marking eventIds publisherId (n :: todo) =>
    s.updateRow c n (OutboxRow.markable eventIds publisherId) OutboxRow.markPublished
      (.marking eventIds publisherId todo)
  | .marking _ _ [] => (.marked (s.rows.written c), s.commit c none)
  | .releasing eventIds publisherId retryAt (n :: todo) =>
    s.updateRow c n (OutboxRow.releasable eventIds publisherId) (OutboxRow.release retryAt)
      (.releasing eventIds publisherId retryAt todo)
  | .releasing _ _ _ [] => (.released (s.rows.written c), s.commit c none)

def step (s : Outbox ι) : OutboxInput ι → OutboxAnswer × Outbox ι
  | .insert sequence event now =>
    if sequence ∈ s.rows.versions.map OutboxRow.sequence ∨
        event.id ∈ s.rows.versions.map OutboxRow.eventId then (.raised, s)
    else
      (.ran, { s with
        rows := s.rows.insert OutboxRow.sequence ⟨sequence, event, .pending, 0, now, none, none⟩ })
  | .start c call =>
    match s.calls c with
    | some _ => (.nothing, s)
    | none => s.begin c call
  | .advance c =>
    match s.calls c with
    | some stage => s.advance c stage
    | none => (.nothing, s)
  | .abort c =>
    match s.calls c with
    | some _ => (.raised, ⟨s.rows.rollback c, Function.update s.calls c none⟩)
    | none => (.nothing, s)

def machine (ι : Type) [DecidableEq ι] : Machine (Outbox ι) (OutboxInput ι) OutboxAnswer where
  init := ⟨[], fun _ => none⟩
  step := step

end Outbox

end UniversalAgent.Persistence
