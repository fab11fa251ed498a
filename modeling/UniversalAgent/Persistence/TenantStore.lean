import UniversalAgent.Foundation.OwnedRows
import UniversalAgent.Persistence.FileStore
import UniversalAgent.Persistence.Outbox
import UniversalAgent.Persistence.Stores
import UniversalAgent.Runtime.EventStream

/-!
# Persistence — TenantStore

`PostgresRuntimeStore` (`persistence/postgres.py`) with the rows of all tenants: sessions, events and
outbox of each are in the same tables, and one sequence numbers the events of all tenants, another
the rows of all their outboxes. A call is one transaction, or two with a stop between them. A number
that has been drawn is not given back when its transaction is.

Calls read clocks: what a call has read is an argument of it. Sessions are ordered by the texts of
their ids, in the order of the database's collation.
-/

namespace UniversalAgent.Persistence

open UniversalAgent.Core UniversalAgent.Foundation UniversalAgent.State UniversalAgent.Runtime

abbrev TenantId := String

/-- A row of `ua_sessions`. -/
structure SessionRow where
  sessionId : SessionId
  version : Int
  createdAt : Instant
  payload : Document

/-- A row of `ua_runtime_events`: the event that its payload is read as. -/
structure EventRow where
  sequence : Nat
  event : RuntimeEvent

structure PostgresTables where
  sessions : List (Owned TenantId SessionRow)
  events : List (Owned TenantId EventRow)
  outbox : List (Owned TenantId OutboxRow)

structure PostgresDatabase where
  tables : PostgresTables
  nextEvent : Nat
  nextOutbox : Nat

def PostgresDatabase.empty : PostgresDatabase := ⟨⟨[], [], []⟩, 1, 1⟩

inductive PostgresError where
  | store (error : StoreError)
  | integrity
  | stream (error : EventStreamError)
  | value (text : String)
deriving DecidableEq

abbrev PostgresCall := EStateM PostgresError PostgresDatabase

/-! ## Statements -/

namespace PostgresCall

/-- `with self._connect()`: what the body has written is taken back when it raises. -/
def transaction {α : Type} (body : PostgresCall α) : PostgresCall α := do
  let before ← get
  tryCatch body fun error => do
    modify fun db => { db with tables := before.tables }
    throw error

def orRaise {α : Type} : Except StoreError α → PostgresCall α
  | .ok a => pure a
  | .error error => throw (.store error)

variable (tenant : TenantId)

def selectSessions (p : SessionRow → Bool) : PostgresCall (List SessionRow) := do
  return Owned.select tenant p (← get).tables.sessions

def updateSessions (p : SessionRow → Bool) (f : SessionRow → SessionRow) : PostgresCall Nat := do
  let db ← get
  set { db with tables := { db.tables with sessions := Owned.update tenant p f db.tables.sessions } }
  return (Owned.select tenant p db.tables.sessions).length

def insertSession (row : SessionRow) : PostgresCall PUnit := do
  let db ← get
  if row.sessionId ∈ (Owned.rowsOf tenant db.tables.sessions).map SessionRow.sessionId then
    throw .integrity
  else
    set { db with tables := { db.tables with sessions := Owned.insert tenant row db.tables.sessions } }

def selectEvents : PostgresCall (List EventRow) := do
  return (Owned.select tenant (fun _ => true) (← get).tables.events).insertionSort
    fun a b => a.sequence ≤ b.sequence

/-- A number is drawn before the tenant and the event id are found to be unique, or not. -/
def insertEvent (event : RuntimeEvent) : PostgresCall PUnit := do
  let db ← get
  set { db with nextEvent := db.nextEvent + 1 }
  if event.id ∈ (Owned.rowsOf tenant db.tables.events).map fun r => r.event.id then throw .integrity
  else
    set { db with
      tables := { db.tables with
        events := Owned.insert tenant ⟨db.nextEvent, event⟩ db.tables.events }
      nextEvent := db.nextEvent + 1 }

def selectOutbox (p : OutboxRow → Bool) : PostgresCall (List OutboxRow) := do
  return (Owned.select tenant p (← get).tables.outbox).insertionSort
    fun a b => a.sequence ≤ b.sequence

def updateOutbox (p : OutboxRow → Bool) (f : OutboxRow → OutboxRow) : PostgresCall Nat := do
  let db ← get
  set { db with tables := { db.tables with outbox := Owned.update tenant p f db.tables.outbox } }
  return (Owned.select tenant p db.tables.outbox).length

def insertOutbox (event : RuntimeEvent) (now : Instant) : PostgresCall PUnit := do
  let db ← get
  set { db with nextOutbox := db.nextOutbox + 1 }
  if event.id ∈ (Owned.rowsOf tenant db.tables.outbox).map OutboxRow.eventId then throw .integrity
  else
    set { db with
      tables := { db.tables with
        outbox := Owned.insert tenant ⟨db.nextOutbox, event, .pending, 0, now, none, none⟩
          db.tables.outbox }
      nextOutbox := db.nextOutbox + 1 }

end PostgresCall

/-! ## Sessions -/

namespace PostgresStore

open PostgresCall

variable (codec : JsonCodec) (iso : IsoFormat) (before : SessionId → SessionId → Bool)
variable (tenant : TenantId)

def createSession (snapshot : SessionSnapshot) : PostgresCall PUnit :=
  transaction do
    let payload ← orRaise (writeDocument codec iso { snapshot with version := 0 })
    tryCatch
      (insertSession tenant
        ⟨snapshot.state.sessionId, 0, snapshot.state.goal.createdAt, payload⟩)
      fun error =>
        match error with
        | .integrity => throw (.store .alreadyExists)
        | _ => throw error

def decodeSessionRow (row : SessionRow) : Except StoreError SessionSnapshot := do
  pure { ← readDocument iso row.payload with version := row.version }

/-- The order of `(created_at, session_id)`. -/
def keyBefore (a b : Instant × SessionId) : Bool :=
  decide (a.1 < b.1) || (decide (a.1 = b.1) && before a.2 b.2)

def sessionKey (row : SessionRow) : Instant × SessionId := (row.createdAt, row.sessionId)

def sessionCursorKey (sessionId : SessionId) : PostgresCall (Instant × SessionId) := do
  match (← selectSessions tenant fun r => decide (r.sessionId = sessionId)).head? with
  | some row => pure (sessionKey row)
  | none => throw (.value ("session cursor not found: " ++ sessionId))

/-- The rows of `list_sessions`, before they are ordered. -/
def listedSessions (after : Option SessionId) : PostgresCall (List SessionRow) :=
  match after with
  | none => selectSessions tenant fun _ => true
  | some sessionId => do
      let cursorKey ← sessionCursorKey tenant sessionId
      selectSessions tenant fun r => keyBefore before (sessionKey r) cursorKey

/-- `ORDER BY created_at DESC, session_id DESC`, and the limit. -/
def newestFirst (limit : Option Int) (rows : List SessionRow) : List SessionRow :=
  let ordered := rows.insertionSort fun a b => !keyBefore before (sessionKey a) (sessionKey b)
  match limit with
  | some n => ordered.take n.toNat
  | none => ordered

def listSessions (after : Option SessionId) (limit : Option Int) :
    PostgresCall (List SessionSnapshot) :=
  if limit.any fun n => decide (n < 1) then
    throw (.value "session list limit must be positive")
  else do
    let rows ← transaction (listedSessions before tenant after)
    orRaise ((newestFirst before limit rows).mapM (decodeSessionRow iso))

/-- `load_session`, with `_load_stored_session`. -/
def loadSession (sessionId : SessionId) : PostgresCall SessionSnapshot :=
  transaction do
    match (← selectSessions tenant fun r => decide (r.sessionId = sessionId)).head? with
    | some row => orRaise (decodeSessionRow iso row)
    | none => throw (.store .notFound)

def raiseMissingOrConflict (sessionId : SessionId) (expected : Int) : PostgresCall PUnit := do
  match (← selectSessions tenant fun r => decide (r.sessionId = sessionId)).head? with
  | some row => throw (.store (.versionConflict row.version expected))
  | none => throw (.store .notFound)

/-- The update of a session from the version of the snapshot, or an error. -/
def updateOrConflict (snapshot : SessionSnapshot) : PostgresCall PUnit := do
  let next := { snapshot with version := snapshot.version + 1 }
  let payload ← orRaise (writeDocument codec iso next)
  let rowcount ← updateSessions tenant
    (fun r => decide (r.sessionId = snapshot.state.sessionId ∧ r.version = snapshot.version))
    fun r => { r with version := next.version, payload := payload }
  if rowcount ≠ 1 then
    raiseMissingOrConflict tenant snapshot.state.sessionId snapshot.version
  else pure ⟨⟩

def saveSession (snapshot : SessionSnapshot) : PostgresCall PUnit :=
  transaction (updateOrConflict codec iso tenant snapshot)

/-! ## Events -/

/-- `_insert_runtime_event` and `_insert_runtime_event_outbox`. -/
def insertRuntimeEvent (event : RuntimeEvent) (now : Instant) : PostgresCall PUnit := do
  let line ← orRaise (eventRecord codec event)
  insertEvent tenant line
  insertOutbox tenant line now

def append (event : RuntimeEvent) (now : Instant) : PostgresCall PUnit :=
  tryCatch (transaction (insertRuntimeEvent codec tenant event now)) fun error =>
    match error with
    | .integrity => pure ⟨⟩
    | _ => throw error

def all : PostgresCall (List RuntimeEvent) := do
  let rows ← transaction (selectEvents tenant)
  pure (rows.map EventRow.event)

def eventsFor (sessionId : SessionId) : PostgresCall (List RuntimeEvent) := do
  let events ← all tenant
  pure (events.filter fun event => decide (event.sessionId = sessionId))

def listEvents (sessionId : Option SessionId) (afterEventId : Option EventId) (limit : Option Int) :
    PostgresCall (List RuntimeEvent) := do
  let events ← match sessionId with
    | none => all tenant
    | some id => eventsFor tenant id
  let visible := events.filter fun event => decide (event.type ≠ sessionStateEvent)
  match filterEvents visible sessionId afterEventId limit with
  | .ok selected => pure selected
  | .error error => throw (.stream error)

def commitSessionEvent (snapshot : SessionSnapshot) (event : RuntimeEvent) (now : Instant) :
    PostgresCall PUnit :=
  transaction do
    updateOrConflict codec iso tenant snapshot
    insertRuntimeEvent codec tenant event now

/-! ## The outbox -/

def outboxEvents (status : OutboxStatus) (limit : Option Int) (eventIds : List EventId)
    (unlockedOnly : Bool) : PostgresCall (List OutboxRow) :=
  if limit.any fun n => decide (n ≤ 0) then throw (.value "outbox limit must be positive")
  else do
    let rows ← transaction (selectOutbox tenant fun r =>
      decide (r.status = status) && (eventIds.isEmpty || decide (r.eventId ∈ eventIds)) &&
        (!unlockedOnly || r.lockedBy.isNone))
    pure (match limit with
      | some n => rows.take n.toNat
      | none => rows)

def pendingOutboxEvents (limit : Option Int) : PostgresCall (List OutboxRow) :=
  outboxEvents tenant .pending limit [] true

def leaseAvailable (request : LeaseRequest) : PostgresCall (List EventId) := do
  let rows ← selectOutbox tenant (OutboxRow.available request.now)
  let leased := rows.take request.limit.toNat
  if leased.isEmpty then pure []
  else
    let _ ← updateOutbox tenant (OutboxRow.among leased) (OutboxRow.lease request)
    pure (leased.map OutboxRow.eventId)

/-- The first transaction of `lease_outbox_events`: the ids of the events that are leased. -/
def leaseOutbox (request : LeaseRequest) : PostgresCall (List EventId) :=
  if request.limit ≤ 0 then throw (.value "outbox lease limit must be positive")
  else if request.ttlSeconds ≤ 0 then throw (.value "outbox lease ttl_seconds must be positive")
  else if Text.isBlank request.publisherId then
    throw (.value "outbox publisher_id must not be empty")
  else
    transaction do
      let _ ← updateOutbox tenant (OutboxRow.expired request.now) (OutboxRow.reclaim request.now)
      leaseAvailable tenant request

def leasedOutboxEvents (eventIds : List EventId) : PostgresCall (List OutboxRow) :=
  outboxEvents tenant .publishing none eventIds false

def markOutboxPublished (eventIds : List EventId) (publisherId : Option String) : PostgresCall Nat :=
  if eventIds.isEmpty then pure 0
  else if publisherId.any Text.isBlank then throw (.value "outbox publisher_id must not be empty")
  else
    transaction (updateOutbox tenant (OutboxRow.markable eventIds publisherId)
      OutboxRow.markPublished)

def releaseOutboxEvents (eventIds : List EventId) (publisherId reason : String)
    (retryAt : Instant) : PostgresCall Nat :=
  if eventIds.isEmpty then pure 0
  else if Text.isBlank publisherId then throw (.value "outbox publisher_id must not be empty")
  else if Text.isBlank reason then throw (.value "outbox release reason must not be empty")
  else
    transaction (updateOutbox tenant (OutboxRow.releasable eventIds publisherId)
      (OutboxRow.release retryAt))

end PostgresStore

/-! ## The stores of all tenants -/

/-- A call of a store; `now` is the time it reads, `retryAt` the resolved time. -/
inductive PostgresRequest where
  | createSession (snapshot : SessionSnapshot)
  | create (state : AgentState)
  | listSessions (after : Option SessionId) (limit : Option Int)
  | loadSession (sessionId : SessionId)
  | load (sessionId : SessionId)
  | saveSession (snapshot : SessionSnapshot)
  | save (state : AgentState)
  | append (event : RuntimeEvent) (now : Instant)
  | emit (event : RuntimeEvent) (now : Instant)
  | all
  | eventsFor (sessionId : SessionId)
  | listEvents (sessionId : Option SessionId) (after : Option EventId) (limit : Option Int)
  | commitSessionEvent (snapshot : SessionSnapshot) (event : RuntimeEvent) (now : Instant)
  | pendingOutboxEvents (limit : Option Int)
  | leaseOutboxEvents (request : LeaseRequest)
  | markOutboxPublished (eventIds : List EventId) (publisherId : Option String)
  | releaseOutboxEvents (eventIds : List EventId) (publisherId reason : String) (retryAt : Instant)

/-- What a call returns or raises. A call that goes on has yet to run its second transaction. -/
inductive PostgresAnswer where
  | done
  | session (snapshot : SessionSnapshot)
  | sessions (snapshots : List SessionSnapshot)
  | state (state : AgentState)
  | events (events : List RuntimeEvent)
  | outbox (rows : List OutboxRow)
  | count (rowcount : Nat)
  | raised (error : PostgresError)
  | goesOn
  | ignored

/-- What a call has to do yet: to save a session, or to read the events that it has leased. -/
inductive PostgresStage where
  | saving (snapshot : SessionSnapshot)
  | leased (eventIds : List EventId)

namespace PostgresStore

variable (codec : JsonCodec) (iso : IsoFormat) (before : SessionId → SessionId → Bool)
variable (tenant : TenantId)

def begin : PostgresRequest → PostgresCall (PostgresAnswer ⊕ PostgresStage)
  | .createSession snapshot => do
      createSession codec iso tenant snapshot
      pure (.inl .done)
  | .create state => do
      createSession codec iso tenant (sessionFromState state "" "" [])
      pure (.inl .done)
  | .listSessions after limit => do
      let snapshots ← listSessions iso before tenant after limit
      pure (.inl (.sessions snapshots))
  | .loadSession sessionId => do
      let snapshot ← loadSession iso tenant sessionId
      pure (.inl (.session snapshot))
  | .load sessionId => do
      let snapshot ← loadSession iso tenant sessionId
      pure (.inl (.state snapshot.state))
  | .saveSession snapshot => do
      saveSession codec iso tenant snapshot
      pure (.inl .done)
  | .save state => do
      let snapshot ← loadSession iso tenant state.sessionId
      pure (.inr (.saving (withState snapshot state)))
  | .append event now => do
      append codec tenant event now
      pure (.inl .done)
  | .emit event now => do
      append codec tenant event now
      pure (.inl .done)
  | .all => do
      let events ← all tenant
      pure (.inl (.events events))
  | .eventsFor sessionId => do
      let events ← eventsFor tenant sessionId
      pure (.inl (.events events))
  | .listEvents sessionId after limit => do
      let events ← listEvents tenant sessionId after limit
      pure (.inl (.events events))
  | .commitSessionEvent snapshot event now => do
      commitSessionEvent codec iso tenant snapshot event now
      pure (.inl .done)
  | .pendingOutboxEvents limit => do
      let rows ← pendingOutboxEvents tenant limit
      pure (.inl (.outbox rows))
  | .leaseOutboxEvents request => do
      let eventIds ← leaseOutbox tenant request
      pure (.inr (.leased eventIds))
  | .markOutboxPublished eventIds publisherId => do
      let rowcount ← markOutboxPublished tenant eventIds publisherId
      pure (.inl (.count rowcount))
  | .releaseOutboxEvents eventIds publisherId reason retryAt => do
      let rowcount ← releaseOutboxEvents tenant eventIds publisherId reason retryAt
      pure (.inl (.count rowcount))

def resume : PostgresStage → PostgresCall (PostgresAnswer ⊕ PostgresStage)
  | .saving snapshot => do
      saveSession codec iso tenant snapshot
      pure (.inl .done)
  | .leased eventIds => do
      let rows ← leasedOutboxEvents tenant eventIds
      pure (.inl (.outbox rows))

end PostgresStore

structure PostgresStores (κ : Type) where
  database : PostgresDatabase
  stages : TenantId → κ → Option PostgresStage

inductive PostgresStep (κ : Type) where
  | start (caller : κ) (request : PostgresRequest)
  | advance (caller : κ)

namespace PostgresStores

variable (codec : JsonCodec) (iso : IsoFormat) (before : SessionId → SessionId → Bool)
variable {κ : Type} [DecidableEq κ]

def run (s : PostgresStores κ) (tenant : TenantId) (caller : κ)
    (call : PostgresCall (PostgresAnswer ⊕ PostgresStage)) : PostgresAnswer × PostgresStores κ :=
  let leave (stage : Option PostgresStage) (database : PostgresDatabase) : PostgresStores κ :=
    ⟨database, Function.update s.stages tenant (Function.update (s.stages tenant) caller stage)⟩
  match call s.database with
  | .ok (.inl answer) database => (answer, leave none database)
  | .ok (.inr stage) database => (.goesOn, leave (some stage) database)
  | .error error database => (.raised error, leave none database)

def step (s : PostgresStores κ) :
    TenantId × PostgresStep κ → PostgresAnswer × PostgresStores κ
  | (tenant, .start caller request) =>
    match s.stages tenant caller with
    | some _ => (.ignored, s)
    | none => s.run tenant caller (PostgresStore.begin codec iso before tenant request)
  | (tenant, .advance caller) =>
    match s.stages tenant caller with
    | some stage => s.run tenant caller (PostgresStore.resume codec iso tenant stage)
    | none => (.ignored, s)

def machine (κ : Type) [DecidableEq κ] :
    Machine (PostgresStores κ) (TenantId × PostgresStep κ) PostgresAnswer where
  init := ⟨.empty, fun _ _ => none⟩
  step := step codec iso before

end PostgresStores

end UniversalAgent.Persistence
