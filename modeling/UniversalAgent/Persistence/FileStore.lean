import UniversalAgent.Foundation.Machine
import UniversalAgent.Foundation.Storage
import UniversalAgent.Foundation.Table
import UniversalAgent.Persistence.Rewriting
import UniversalAgent.State.EventStore

/-!
# Persistence — FileStore

`FileRuntimeStore` (`persistence/file.py`) as programs over its files: a document for each session,
a journal of JSON lines, and a directory of commit records that are replayed when a call finds
them. A document and a commit record are put in place as a whole (`write_json_file` replaces the
file by a finished one); a line of the journal can be cut short. The store keeps nothing in memory,
and its calls exclude each other by a file lock.

The texts in a line are symbolic. A line is read as an event when it is the text of one; the
beginning of an event's text is no JSON, and neither is a text that follows another or follows a
beginning. The file names are one to one with the ids.
-/

namespace UniversalAgent.Persistence

open UniversalAgent.Core UniversalAgent.Foundation UniversalAgent.State

/-! ## Files -/

/-- What stands in a line: the text of an event, the beginning of one, or the beginning of one that
ends inside a character. -/
inductive Piece where
  | event (event : RuntimeEvent)
  | beginning
  | brokenCharacter
deriving DecidableEq

abbrev Line := List Piece

/-- `events.jsonl`: the lines that are ended, and what follows the last of them. -/
structure JournalFile where
  lines : List Line
  rest : Line
deriving DecidableEq

/-- `commits/<event id>.json`. -/
structure CommitRecord where
  session : Document
  event : RuntimeEvent
deriving DecidableEq

abbrev CommitRecord.eventId (r : CommitRecord) : EventId := r.event.id

structure RuntimeFiles where
  sessions : SessionId → Option Document
  commits : Table CommitRecord.eventId
  journal : JournalFile

namespace RuntimeFiles

def empty : RuntimeFiles := ⟨fun _ => none, .empty, ⟨[], []⟩⟩

def setSession (files : RuntimeFiles) (id : SessionId) (document : Document) : RuntimeFiles :=
  { files with sessions := Function.update files.sessions id (some document) }

def setJournal (files : RuntimeFiles) (journal : JournalFile) : RuntimeFiles :=
  { files with journal := journal }

def setCommits (files : RuntimeFiles) (commits : Table CommitRecord.eventId) : RuntimeFiles :=
  { files with commits := commits }

section Fields

variable (files : RuntimeFiles) (id : SessionId) (document : Document) (journal : JournalFile)
variable (commits : Table CommitRecord.eventId)

@[simp] theorem setSession_sessions : (files.setSession id document).sessions
    = Function.update files.sessions id (some document) := rfl

@[simp] theorem setSession_commits : (files.setSession id document).commits = files.commits := rfl

@[simp] theorem setSession_journal : (files.setSession id document).journal = files.journal := rfl

@[simp] theorem setJournal_sessions : (files.setJournal journal).sessions = files.sessions := rfl

@[simp] theorem setJournal_commits : (files.setJournal journal).commits = files.commits := rfl

@[simp] theorem setJournal_journal : (files.setJournal journal).journal = journal := rfl

@[simp] theorem setCommits_sessions : (files.setCommits commits).sessions = files.sessions := rfl

@[simp] theorem setCommits_commits : (files.setCommits commits).commits = commits := rfl

@[simp] theorem setCommits_journal : (files.setCommits commits).journal = files.journal := rfl

end Fields

end RuntimeFiles

inductive FileError where
  | store (error : StoreError)
  | eventExists (event : EventId)
  | commitExists (event : EventId)
  | unreadableJournal
deriving DecidableEq, Repr

/-- What a line leaves that was cut short: nothing, a part of its text, a part that ends inside a
character, or all of it without the end of the line. -/
inductive Tear where
  | nothing | part | insideCharacter | unended
deriving DecidableEq, Repr

/-- The event that a line holds. A line that is no JSON is skipped. -/
def readLine : Line → Option RuntimeEvent
  | [.event event] => some event
  | _ => none

namespace JournalFile

def readable (j : JournalFile) : List RuntimeEvent := (j.lines ++ [j.rest]).filterMap readLine

def decodes (j : JournalFile) : Bool :=
  (j.lines ++ [j.rest]).all fun line => !line.contains .brokenCharacter

/-- `_iter_runtime_events`: the file is decoded before its lines are parsed. -/
def events (j : JournalFile) : Except FileError (List RuntimeEvent) :=
  if j.decodes then .ok j.readable else .error .unreadableJournal

def append (j : JournalFile) (event : RuntimeEvent) : JournalFile :=
  ⟨j.lines ++ [j.rest ++ [.event event]], []⟩

def tear (j : JournalFile) (event : RuntimeEvent) : Tear → JournalFile
  | .nothing => j
  | .part => { j with rest := j.rest ++ [.beginning] }
  | .insideCharacter => { j with rest := j.rest ++ [.brokenCharacter] }
  | .unended => { j with rest := j.rest ++ [.event event] }

end JournalFile

/-! ## Steps -/

/-- What a call writes; `version` is the assignment to the caller's snapshot. -/
inductive FileStep where
  | commit (record : CommitRecord)
  | session (sessionId : SessionId) (document : Document)
  | event (event : RuntimeEvent)
  | discard (eventId : EventId)
  | version (version : Int)

structure FileRun where
  files : RuntimeFiles
  version : Int

namespace FileRun

def setFiles (run : FileRun) (files : RuntimeFiles) : FileRun := { run with files := files }

def apply (run : FileRun) : FileStep → FileRun
  | .commit record => run.setFiles (run.files.setCommits (run.files.commits.put record))
  | .session sessionId document => run.setFiles (run.files.setSession sessionId document)
  | .event event => run.setFiles (run.files.setJournal (run.files.journal.append event))
  | .discard eventId => run.setFiles (run.files.setCommits (run.files.commits.erase eventId))
  | .version version => { run with version := version }

def tear (run : FileRun) (step : FileStep) (t : Tear) : FileRun :=
  match step with
  | .event event => run.setFiles (run.files.setJournal (run.files.journal.tear event t))
  | .commit _ | .session _ _ | .discard _ | .version _ => run

instance : Storage FileRun FileStep Tear where
  apply := apply
  tear := tear

end FileRun

/-! ## Calls -/

abbrev FileProgram (α : Type) := Program FileRun FileStep FileError α

section Calls

variable (codec : JsonCodec) (iso : IsoFormat)

def ofStore {α : Type} (x : Except StoreError α) : FileProgram α :=
  .ofExcept (x.mapError .store)

def raiseFile {α : Type} (error : FileError) : FileProgram α := .ofExcept (.error error)

/-- `decode_runtime_event(encode_runtime_event(event))`: the data as JSON text holds it. -/
def eventRecord (event : RuntimeEvent) : Except StoreError RuntimeEvent :=
  match copyMapping codec event.data with
  | .ok data => .ok { event with data := data }
  | .error _ => .error .notSerializable

def writeSnapshot (snapshot : SessionSnapshot) : FileProgram PUnit := do
  let document ← ofStore (writeDocument codec iso snapshot)
  .write (.session snapshot.state.sessionId document)

def eventExists (eventId : EventId) : FileProgram Bool := do
  let run ← .read
  let events ← .ofExcept run.files.journal.events
  pure (decide (eventId ∈ events.map RuntimeEvent.id))

/-- `_append_event_if_missing`, and the body of `append`. -/
def appendEventIfMissing (event : RuntimeEvent) : FileProgram PUnit := do
  if ← eventExists event.id then pure ⟨⟩
  else
    let line ← ofStore (eventRecord codec event)
    .write (.event line)

/-- `quote(str(id), safe="")`. -/
def quote (id : String) : String :=
  let unreserved (b : UInt8) : Bool :=
    (48 ≤ b && b ≤ 57) || (65 ≤ b && b ≤ 90) || (97 ≤ b && b ≤ 122) || b = 95 || b = 46 ||
      b = 45 || b = 126
  let digit (n : Nat) : Char := Char.ofNat (if n < 10 then 48 + n else 55 + n)
  String.join (id.toUTF8.toList.map fun b =>
    if unreserved b then String.singleton (Char.ofNat b.toNat)
    else String.ofList ['%', digit (b.toNat / 16), digit (b.toNat % 16)])

/-- `sorted(self._commits.glob("*.json"))`. -/
def RuntimeFiles.commitRecords (files : RuntimeFiles) : List CommitRecord :=
  files.commits.rows.insertionSort fun a b => quote a.eventId ≤ quote b.eventId

/-- The snapshot of a commit record is stored unless the session is as new. -/
def recoverSnapshot (snapshot : SessionSnapshot) : FileProgram PUnit := do
  let run ← .read
  match run.files.sessions snapshot.state.sessionId with
  | some document => do
      let stored ← ofStore (readDocument iso document)
      if stored.version < snapshot.version then writeSnapshot codec iso snapshot else pure ⟨⟩
  | none => writeSnapshot codec iso snapshot

def recoverCommit (record : CommitRecord) : FileProgram PUnit := do
  let snapshot ← ofStore (readDocument iso record.session)
  recoverSnapshot codec iso snapshot
  appendEventIfMissing codec record.event
  .write (.discard record.eventId)

/-- The loop of `_recover_commits`. -/
def recoverEach : List CommitRecord → FileProgram PUnit
  | [] => pure ⟨⟩
  | record :: records => do
      recoverCommit codec iso record
      recoverEach records

def recoverCommits : FileProgram PUnit := do
  let run ← .read
  recoverEach codec iso run.files.commitRecords

def storedSnapshot (sessionId : SessionId) : FileProgram SessionSnapshot := do
  let run ← .read
  match run.files.sessions sessionId with
  | none => raiseFile (.store .notFound)
  | some document => ofStore (readDocument iso document)

/-- The check of the version, and its assignment to the caller's snapshot. -/
def nextVersion (snapshot stored : SessionSnapshot) : FileProgram SessionSnapshot :=
  if snapshot.version ≠ stored.version then
    raiseFile (.store (.versionConflict stored.version snapshot.version))
  else do
    .write (.version (stored.version + 1))
    pure { snapshot with version := stored.version + 1 }

/-- `create_session`, which does not look for commits. -/
def createFile (snapshot : SessionSnapshot) : FileProgram PUnit := do
  let run ← .read
  match run.files.sessions snapshot.state.sessionId with
  | some _ => raiseFile (.store .alreadyExists)
  | none => do
      .write (.version 0)
      writeSnapshot codec iso { snapshot with version := 0 }

/-- `load_session`. -/
def loadFile (sessionId : SessionId) : FileProgram SessionSnapshot := do
  recoverCommits codec iso
  storedSnapshot iso sessionId

/-- `save_session`. -/
def saveFile (snapshot : SessionSnapshot) : FileProgram PUnit := do
  recoverCommits codec iso
  let stored ← storedSnapshot iso snapshot.state.sessionId
  let next ← nextVersion snapshot stored
  writeSnapshot codec iso next

def writeCommit (snapshot : SessionSnapshot) (event : RuntimeEvent) : FileProgram PUnit := do
  let document ← ofStore (writeDocument codec iso snapshot)
  let line ← ofStore (eventRecord codec event)
  .write (.commit ⟨document, line⟩)

/-- `commit_session_event`. -/
def commitFile (snapshot : SessionSnapshot) (event : RuntimeEvent) : FileProgram PUnit := do
  recoverCommits codec iso
  let run ← .read
  if run.files.sessions snapshot.state.sessionId = none then raiseFile (.store .notFound)
  else if ← eventExists event.id then raiseFile (.eventExists event.id)
  else
    let stored ← storedSnapshot iso snapshot.state.sessionId
    let next ← nextVersion snapshot stored
    if run.files.commits.get? event.id ≠ none then raiseFile (.commitExists event.id)
    else
      writeCommit codec iso next event
      writeSnapshot codec iso next
      appendEventIfMissing codec event
      .write (.discard event.id)

/-- `all`, which does not look for commits. -/
def allEvents : FileProgram (List RuntimeEvent) := do
  let run ← .read
  .ofExcept run.files.journal.events

/-- `list_events` without a filter: the state records are left out. -/
def listEvents : FileProgram (List RuntimeEvent) := do
  recoverCommits codec iso
  let events ← allEvents
  pure (events.filter fun event => event.type ≠ sessionStateEvent)

inductive FileCall where
  | create (snapshot : SessionSnapshot)
  | load (sessionId : SessionId)
  | save (snapshot : SessionSnapshot)
  | commit (snapshot : SessionSnapshot) (event : RuntimeEvent)
  | append (event : RuntimeEvent)
  | all
  | listEvents

inductive FileAnswer where
  | done
  | loaded (snapshot : SessionSnapshot)
  | events (events : List RuntimeEvent)

def fileProgram : FileCall → FileProgram FileAnswer
  | .create snapshot => do
      createFile codec iso snapshot
      pure .done
  | .load sessionId => do pure (.loaded (← loadFile codec iso sessionId))
  | .save snapshot => do
      saveFile codec iso snapshot
      pure .done
  | .commit snapshot event => do
      commitFile codec iso snapshot event
      pure .done
  | .append event => do
      appendEventIfMissing codec event
      pure .done
  | .all => do pure (.events (← allEvents))
  | .listEvents => do pure (.events (← listEvents codec iso))

def FileCall.version : FileCall → Int
  | .create snapshot | .save snapshot | .commit snapshot _ => snapshot.version
  | .load _ | .append _ | .all | .listEvents => 0

abbrev FileEnd := Except FileError FileAnswer

/-- The store under any calls, each of which may be stopped by a crash. -/
def fileMachine : Machine RuntimeFiles (FileCall × Option (Cut Tear)) (Option FileEnd) where
  init := .empty
  step files input :=
    let run : FileRun := ⟨files, input.1.version⟩
    let p := fileProgram codec iso input.1
    match input.2 with
    | none => (some (p run).2, (p.after run).files)
    | some cut => (none, (p.cut run cut).files)

end Calls

end UniversalAgent.Persistence
