import UniversalAgent.Foundation.CompareAndSwap
import UniversalAgent.Foundation.Effect
import UniversalAgent.Persistence.FileRecovery

/-!
# Persistence — SqlStore

The writes of the SQLite and the PostgreSQL session store (`persistence/sqlite.py`,
`persistence/postgres.py`), statement by statement. A call assigns the version of its caller's
snapshot as it goes; its statements are in one transaction. A statement that the database cannot do
raises, and so do an opening and an end of the transaction.

The rows are those of one tenant. Columns that are made of the payload or of a clock are left out.
-/

namespace UniversalAgent.Persistence

open UniversalAgent.Core UniversalAgent.Foundation UniversalAgent.State

/-- The rows of the sessions with their versions, those of the events, and those of the outbox. -/
structure SqlTables where
  sessions : SessionId → Option (Document × Int)
  events : Journal
  outbox : Journal

def SqlTables.empty : SqlTables := ⟨fun _ => none, [], []⟩

inductive SqlError where
  | store (error : StoreError)
  | integrity
  | database
deriving DecidableEq, Repr

inductive SqlStatement where
  | connect | update | selectVersion | insertEvent | insertOutbox | commit
deriving DecidableEq, Repr

structure SqlRun where
  version : Int
  tables : SqlTables

abbrev SqlCall := EStateM SqlError SqlRun

namespace SqlCall

def setVersion (version : Int) : SqlCall PUnit := modify fun run => { run with version := version }

def setTables (tables : SqlTables) : SqlCall PUnit := modify fun run => { run with tables := tables }

/-- The database does the statement, unless it is the one that fails. -/
def reach (fault : Option SqlStatement) (statement : SqlStatement) : SqlCall PUnit :=
  if fault = some statement then throw .database else pure ⟨⟩

/-- `with self._connect()`: what the body has written is taken back when it raises, or when the
transaction cannot be ended. -/
def transaction (fault : Option SqlStatement) (body : SqlCall PUnit) : SqlCall PUnit := do
  reach fault .connect
  let before ← get
  tryCatch (body >>= fun _ => reach fault .commit) fun error => do
    setTables before.tables
    throw error

/-- `except Exception: snapshot.version = original_version; raise`. -/
def restoring (original : Int) (body : SqlCall PUnit) : SqlCall PUnit :=
  tryCatch body fun error => do
    setVersion original
    throw error

end SqlCall

open SqlCall

section Calls

variable (codec : JsonCodec) (iso : IsoFormat) (fault : Option SqlStatement)

def encodeSnapshot (snapshot : SessionSnapshot) : SqlCall Document :=
  match writeDocument codec iso snapshot with
  | .ok payload => pure payload
  | .error error => throw (.store error)

/-- The update of a session's row from a version; the number of rows it has changed. -/
def updateSession (sessionId : SessionId) (original : Int) (row : Document × Int) : SqlCall Nat := do
  reach fault .update
  let run ← get
  match run.tables.sessions sessionId with
  | none => pure 0
  | some (_, version) =>
    if version = original then do
      setTables { run.tables with
        sessions := Function.update run.tables.sessions sessionId (some row) }
      pure 1
    else pure 0

/-- `_raise_session_version_conflict`, and `_raise_missing_or_conflict`. -/
def raiseSessionVersionConflict (sessionId : SessionId) (attempted : Int) : SqlCall PUnit := do
  reach fault .selectVersion
  let run ← get
  match run.tables.sessions sessionId with
  | none => throw (.store .notFound)
  | some (_, stored) => throw (.store (.versionConflict stored attempted))

def eventLine (event : RuntimeEvent) : SqlCall RuntimeEvent :=
  match eventRecord codec event with
  | .ok line => pure line
  | .error error => throw (.store error)

def insertRuntimeEvent (event : RuntimeEvent) : SqlCall PUnit := do
  let line ← eventLine codec event
  reach fault .insertEvent
  let run ← get
  if line.id ∈ run.tables.events.map RuntimeEvent.id then throw .integrity
  else setTables { run.tables with events := run.tables.events ++ [line] }

def insertRuntimeEventOutbox (event : RuntimeEvent) : SqlCall PUnit := do
  let line ← eventLine codec event
  reach fault .insertOutbox
  let run ← get
  if line.id ∈ run.tables.outbox.map RuntimeEvent.id then throw .integrity
  else setTables { run.tables with outbox := run.tables.outbox ++ [line] }

def updateOrConflict (snapshot : SessionSnapshot) (payload : Document) : SqlCall PUnit := do
  let original := snapshot.version
  let rowcount ← updateSession fault snapshot.state.sessionId original (payload, original + 1)
  if rowcount ≠ 1 then do
    setVersion original
    raiseSessionVersionConflict fault snapshot.state.sessionId original
  else pure ⟨⟩

/-- `SQLiteSessionStore._save_session_sync`. -/
def sqliteSave (snapshot : SessionSnapshot) : SqlCall PUnit := do
  let original := snapshot.version
  setVersion (original + 1)
  let payload ← encodeSnapshot codec iso { snapshot with version := original + 1 }
  transaction fault (updateOrConflict fault snapshot payload)

/-- `SQLiteRuntimeStore._commit_session_event_sync`. -/
def sqliteCommit (snapshot : SessionSnapshot) (event : RuntimeEvent) : SqlCall PUnit := do
  let original := snapshot.version
  setVersion (original + 1)
  let payload ← encodeSnapshot codec iso { snapshot with version := original + 1 }
  transaction fault (restoring original do
    updateOrConflict fault snapshot payload
    insertRuntimeEvent codec fault event
    insertRuntimeEventOutbox codec fault event)

/-- `PostgresRuntimeStore.save_session`. -/
def postgresSave (snapshot : SessionSnapshot) : SqlCall PUnit := do
  let original := snapshot.version
  setVersion (original + 1)
  restoring original (transaction fault do
    let payload ← encodeSnapshot codec iso { snapshot with version := original + 1 }
    updateOrConflict fault snapshot payload)

/-- `PostgresRuntimeStore.commit_session_event`. -/
def postgresCommit (snapshot : SessionSnapshot) (event : RuntimeEvent) : SqlCall PUnit := do
  let original := snapshot.version
  setVersion (original + 1)
  restoring original (transaction fault do
    let payload ← encodeSnapshot codec iso { snapshot with version := original + 1 }
    updateOrConflict fault snapshot payload
    insertRuntimeEvent codec fault event
    insertRuntimeEventOutbox codec fault event)

/-- How a write ends that is called with a snapshot of the version. -/
def SqlCall.ends (call : SqlCall PUnit) (tables : SqlTables) (version : Int) :
    WriteEnd SqlTables SqlError :=
  match call ⟨version, tables⟩ with
  | .ok _ run => ⟨none, run.tables, run.version⟩
  | .error error run => ⟨some error, run.tables, run.version⟩

end Calls

/-! ## Transactions -/

namespace SqlCall

variable {P : SqlRun → Prop} {Q : PUnit → SqlRun → Prop} {E : SqlRun → Prop} {body : SqlCall PUnit}

theorem restoring_spec {original : Int} {tables : SqlTables}
    (h : Triple P body Q fun run => run.tables = tables) :
    Triple P (restoring original body) Q fun run => run = ⟨original, tables⟩ := by
  refine h.tryCatch fun e => .bind (Q := fun _ run => run = ⟨original, tables⟩) (.update ?_)
    fun _ => .raise fun _ hrun => hrun
  rintro ⟨version, _⟩ rfl
  rfl

/-- A transaction that raises leaves the tables, whatever is done in it. -/
theorem transaction_spec {fault : Option SqlStatement} {tables : SqlTables} :
    Triple (fun run => run.tables = tables) (transaction fault body) (fun _ _ => True)
      fun run => run.tables = tables := by
  refine .bind (Q := fun _ run => run.tables = tables) ?_ fun _ => .read fun before hbefore => ?_
  · exact .guard (fun _ _ h => h) fun _ => .ret fun _ h => h
  · have hbody : Triple (fun run => run = before) (body >>= fun _ => reach fault .commit)
        (fun _ _ => True) fun _ => True := by
      intro run _
      split <;> trivial
    exact hbody.tryCatch fun e => .bind (Q := fun _ run => run.tables = tables)
      (.update fun _ _ => hbefore) fun _ => .raise fun _ h => h

/-! ## How calls end -/

/-- How a transaction ends, told from how its body does. -/
theorem transaction_run (fault : Option SqlStatement) (body : SqlCall PUnit) (run : SqlRun) :
    transaction fault body run =
      if fault = some .connect then .error .database run
      else match body run with
        | .ok _ after =>
          if fault = some .commit then .error .database { after with tables := run.tables }
          else .ok ⟨⟩ after
        | .error e after => .error e { after with tables := run.tables } := by
  by_cases hconnect : fault = some .connect
  · simp only [transaction, reach, if_pos hconnect]
    rfl
  · simp only [transaction, reach, if_neg hconnect]
    change EStateM.tryCatch (EStateM.bind body _) _ run = _
    unfold EStateM.tryCatch EStateM.bind
    cases body run with
    | ok a after =>
      by_cases hcommit : fault = some .commit
      · simp only [if_pos hcommit]
        rfl
      · simp only [if_neg hcommit]
        rfl
    | error e after => rfl

theorem restoring_run (original : Int) (body : SqlCall PUnit) (run : SqlRun) :
    restoring original body run =
      match body run with
      | .ok _ after => .ok ⟨⟩ after
      | .error e after => .error e { after with version := original } := by
  change EStateM.tryCatch body _ run = _
  unfold EStateM.tryCatch
  cases body run <;> rfl

end SqlCall

namespace SqlTables

/-- The row of the session has the version that the snapshot is of. -/
def Current (tables : SqlTables) (s : SessionSnapshot) : Prop :=
  ∃ payload, tables.sessions s.state.sessionId = some (payload, s.version)

def setSession (tables : SqlTables) (id : SessionId) (row : Document × Int) : SqlTables :=
  { tables with sessions := Function.update tables.sessions id (some row) }

def Fresh (codec : JsonCodec) (tables : SqlTables) (event : RuntimeEvent) : Prop :=
  (∃ line, eventRecord codec event = .ok line) ∧
    event.id ∉ tables.events.map RuntimeEvent.id ∧ event.id ∉ tables.outbox.map RuntimeEvent.id

def addEvent (tables : SqlTables) (line : RuntimeEvent) : SqlTables :=
  { tables with events := tables.events ++ [line], outbox := tables.outbox ++ [line] }

end SqlTables

section Ends

variable {codec : JsonCodec} {iso : IsoFormat} {fault : Option SqlStatement}
variable {tables : SqlTables} {s : SessionSnapshot}

theorem updateOrConflict_current (payload : Document) (version : Int) (hf : fault ≠ some .update)
    (hc : tables.Current s) :
    updateOrConflict fault s payload ⟨version, tables⟩
      = .ok ⟨⟩ ⟨version, tables.setSession s.state.sessionId (payload, s.version + 1)⟩ := by
  obtain ⟨old, hold⟩ := hc
  simp only [updateOrConflict, updateSession, reach, if_neg hf, bind, EStateM.bind, pure,
    EStateM.pure, get, getThe, MonadStateOf.get, EStateM.get, hold]
  rfl

theorem raiseSessionVersionConflict_run (fault : Option SqlStatement) (id : SessionId)
    (attempted : Int) (run : SqlRun) :
    ∃ e, raiseSessionVersionConflict fault id attempted run = .error e run := by
  by_cases hf : fault = some .selectVersion
  · exact ⟨.database, by simp only [raiseSessionVersionConflict, reach, if_pos hf]; rfl⟩
  · simp only [raiseSessionVersionConflict, reach, if_neg hf, bind, EStateM.bind, pure,
      EStateM.pure, get, getThe, MonadStateOf.get, EStateM.get]
    cases run.tables.sessions id with
    | none => exact ⟨_, rfl⟩
    | some row => exact ⟨_, rfl⟩

theorem updateOrConflict_stale (payload : Document) (version : Int) (hf : fault ≠ some .update)
    (hc : ¬ tables.Current s) :
    ∃ e, updateOrConflict fault s payload ⟨version, tables⟩ = .error e ⟨s.version, tables⟩ := by
  obtain ⟨e, he⟩ := raiseSessionVersionConflict_run fault s.state.sessionId s.version
    ⟨s.version, tables⟩
  refine ⟨e, ?_⟩
  simp only [updateOrConflict, updateSession, reach, if_neg hf, bind, EStateM.bind, pure,
    EStateM.pure, get, getThe, MonadStateOf.get, EStateM.get]
  cases hrow : tables.sessions s.state.sessionId with
  | none => exact he
  | some row =>
    have hne : row.2 ≠ s.version := fun heq => hc ⟨row.1, by rw [hrow, ← heq]⟩
    simp only [if_neg hne]
    exact he

/-- The two inserts of a commit, when they are done. -/
theorem insertEvent_fresh (version : Int) {event line : RuntimeEvent} (he : fault ≠ some .insertEvent)
    (ho : fault ≠ some .insertOutbox) (hline : eventRecord codec event = .ok line)
    (hevents : event.id ∉ tables.events.map RuntimeEvent.id)
    (houtbox : event.id ∉ tables.outbox.map RuntimeEvent.id) :
    (do insertRuntimeEvent codec fault event
        insertRuntimeEventOutbox codec fault event) ⟨version, tables⟩
      = EStateM.Result.ok ⟨⟩ ⟨version, tables.addEvent line⟩ := by
  have hid := (recorded_of_record hline).2
  rw [← hid] at hevents houtbox
  simp only [insertRuntimeEvent, insertRuntimeEventOutbox, eventLine, hline, reach, if_neg he,
    if_neg ho, bind, EStateM.bind, pure, EStateM.pure, get, getThe, MonadStateOf.get, EStateM.get,
    if_neg hevents, setTables, modify, modifyGet, MonadStateOf.modifyGet, EStateM.modifyGet,
    if_neg houtbox]
  rfl

end Ends

end UniversalAgent.Persistence
