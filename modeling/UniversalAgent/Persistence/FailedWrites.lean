import UniversalAgent.Persistence.FileWrites
import UniversalAgent.Persistence.SqlStore

/-!
# Persistence — FailedWrites

What a save or a commit that raises leaves behind: the version of its caller's snapshot, and the
content of the store. Of the stores, only the in-memory and the PostgreSQL one leave both as they
were in every case. The SQLite store restores the version where no row was changed, and in a commit
also where a statement fails, but not where the snapshot cannot be encoded or the transaction cannot
be opened or ended; the file store never restores it.
-/

namespace UniversalAgent.Persistence

open UniversalAgent.Core UniversalAgent.Foundation UniversalAgent.State SqlCall

variable {fault : Option SqlStatement} {w : StoreWrite} {steps : List FileStep}

/-- The write did not raise, or it left the version and, up to `same`, the content. -/
def FailsCleanly {σ ε : Type} (same : σ → σ → Prop) (content : σ) (version : Int)
    (r : WriteEnd σ ε) : Prop :=
  r.raised ≠ none → r.version = version ∧ same r.store content

section Writes

variable (codec : JsonCodec) (iso : IsoFormat)

def Encodable (s : SessionSnapshot) : Prop :=
  ∃ document, writeDocument codec iso { s with version := s.version + 1 } = .ok document

/-! ## The SQL stores -/

def sqliteWrite (fault : Option SqlStatement) : StoreWrite → SqlCall PUnit
  | .save snapshot => sqliteSave codec iso fault snapshot
  | .commit snapshot event => sqliteCommit codec iso fault snapshot event

def postgresWrite (fault : Option SqlStatement) : StoreWrite → SqlCall PUnit
  | .save snapshot => postgresSave codec iso fault snapshot
  | .commit snapshot event => postgresCommit codec iso fault snapshot event

def SqlAccepted (tables : SqlTables) : StoreWrite → Prop
  | .save snapshot => tables.Current snapshot
  | .commit snapshot event => tables.Current snapshot ∧ tables.Fresh codec event

def unguarded : StoreWrite → List SqlStatement
  | .save _ => [.connect, .update]
  | .commit _ _ => [.connect]

structure SqliteKeeps (tables : SqlTables) (fault : Option SqlStatement) (w : StoreWrite) : Prop where
  encodable : Encodable codec iso w.snapshot
  guarded : ∀ statement ∈ fault, statement ∉ unguarded w
  ended : fault = some .commit → ¬ SqlAccepted codec tables w

variable {codec iso}

variable {tables : SqlTables} {s : SessionSnapshot}

/-- A transaction around a body that puts the version back when it raises. -/
theorem failsCleanly_transaction {body : SqlCall PUnit}
    {version : Int}
    (h : ∀ e after, body ⟨version + 1, tables⟩ = .error e after → after.version = version)
    (hok : ∀ a after, body ⟨version + 1, tables⟩ = .ok a after → after.version = version + 1) :
    FailsCleanly Eq tables version ((transaction fault body).ends tables (version + 1)) ↔
      fault ≠ some .connect ∧
        (fault = some .commit → ¬ ∃ a after, body ⟨version + 1, tables⟩ = .ok a after) := by
  simp only [FailsCleanly, SqlCall.ends, transaction_run]
  by_cases hconnect : fault = some .connect
  · simp [hconnect]
  · rw [if_neg hconnect]
    cases hr : body ⟨version + 1, tables⟩ with
    | ok a after =>
      have hversion := hok a after hr
      by_cases hcommit : fault = some .commit
      · simp [hcommit, hversion]
      · simp [hcommit, hconnect]
    | error e after =>
      simp [h e after hr, hconnect]

theorem updateOrConflict_ok
    {payload : Document} {version : Int} {after : SqlRun}
    (h : updateOrConflict fault s payload ⟨version, tables⟩ = .ok ⟨⟩ after) :
    fault ≠ some .update ∧ tables.Current s ∧
      after = ⟨version, tables.setSession s.state.sessionId (payload, s.version + 1)⟩ := by
  have hf : fault ≠ some .update := by
    rintro rfl
    cases h
  have hc : tables.Current s := by
    by_contra hc
    obtain ⟨e, he⟩ := updateOrConflict_stale payload version hf hc
    rw [he] at h
    cases h
  rw [updateOrConflict_current payload version hf hc] at h
  cases h
  exact ⟨hf, hc, rfl⟩

theorem insertRuntimeEvent_ok {event : RuntimeEvent}
    {run after : SqlRun} (h : insertRuntimeEvent codec fault event run = .ok ⟨⟩ after) :
    ∃ line, eventRecord codec event = .ok line ∧ event.id ∉ run.tables.events.map RuntimeEvent.id ∧
      after.tables.outbox = run.tables.outbox ∧ after.tables.sessions = run.tables.sessions ∧
      after.version = run.version := by
  unfold insertRuntimeEvent eventLine at h
  cases hline : eventRecord codec event with
  | error e =>
    rw [hline] at h
    cases h
  | ok line =>
    rw [hline] at h
    obtain ⟨_, r, hreach, h⟩ := EStateM.bind_eq_ok.mp h
    cases hreach
    obtain ⟨_, r, hreach, h⟩ := EStateM.bind_eq_ok.mp h
    unfold reach at hreach
    split at hreach
    · cases hreach
    · cases hreach
      obtain ⟨_, r, hread, h⟩ := EStateM.bind_eq_ok.mp h
      cases hread
      split at h
      · cases h
      · next hnew =>
          cases h
          rw [(recorded_of_record hline).2] at hnew
          exact ⟨line, rfl, hnew, rfl, rfl, rfl⟩

theorem insertRuntimeEventOutbox_ok {event : RuntimeEvent}
    {run after : SqlRun} (h : insertRuntimeEventOutbox codec fault event run = .ok ⟨⟩ after) :
    event.id ∉ run.tables.outbox.map RuntimeEvent.id ∧
      after.tables.sessions = run.tables.sessions ∧ after.version = run.version := by
  unfold insertRuntimeEventOutbox eventLine at h
  cases hline : eventRecord codec event with
  | error e =>
    rw [hline] at h
    cases h
  | ok line =>
    rw [hline] at h
    obtain ⟨_, r, hreach, h⟩ := EStateM.bind_eq_ok.mp h
    cases hreach
    obtain ⟨_, r, hreach, h⟩ := EStateM.bind_eq_ok.mp h
    unfold reach at hreach
    split at hreach
    · cases hreach
    · cases hreach
      obtain ⟨_, r, hread, h⟩ := EStateM.bind_eq_ok.mp h
      cases hread
      split at h
      · cases h
      · next hnew =>
          cases h
          rw [(recorded_of_record hline).2] at hnew
          exact ⟨hnew, rfl, rfl⟩

def commitBody (codec : JsonCodec) (fault : Option SqlStatement) (s : SessionSnapshot)
    (event : RuntimeEvent) (payload : Document) : SqlCall PUnit := do
  updateOrConflict fault s payload
  insertRuntimeEvent codec fault event
  insertRuntimeEventOutbox codec fault event

theorem commitBody_ok {event : RuntimeEvent}
    {payload : Document} {version : Int} {after : SqlRun}
    (h : commitBody codec fault s event payload ⟨version, tables⟩ = .ok ⟨⟩ after) :
    tables.Current s ∧ tables.Fresh codec event ∧ after.version = version ∧
      after.tables.sessions
        = (tables.setSession s.state.sessionId (payload, s.version + 1)).sessions := by
  obtain ⟨_, r, hupdate, h⟩ := EStateM.bind_eq_ok.mp h
  obtain ⟨_, r', hinsert, houtbox⟩ := EStateM.bind_eq_ok.mp h
  obtain ⟨-, hc, rfl⟩ := updateOrConflict_ok hupdate
  obtain ⟨line, hline, hnew, hsame, hsessions, hversion⟩ := insertRuntimeEvent_ok hinsert
  obtain ⟨hnew', hsessions', hversion'⟩ := insertRuntimeEventOutbox_ok houtbox
  rw [hsame] at hnew'
  exact ⟨hc, ⟨⟨line, hline⟩, hnew, hnew'⟩, hversion'.trans hversion, hsessions'.trans hsessions⟩

theorem commitBody_accepted
    {event : RuntimeEvent} (payload : Document) (version : Int)
    (hf : fault = some .commit) (hc : tables.Current s) (he : tables.Fresh codec event) :
    ∃ after, commitBody codec fault s event payload ⟨version, tables⟩ = .ok ⟨⟩ after := by
  obtain ⟨⟨line, hline⟩, hevents, houtbox⟩ := he
  subst hf
  have hupdate := updateOrConflict_current payload version
    (show some SqlStatement.commit ≠ some .update by simp) hc
  have hinsert : (do
      insertRuntimeEvent codec (some .commit) event
      insertRuntimeEventOutbox codec (some .commit) event)
        ⟨version, tables.setSession s.state.sessionId (payload, s.version + 1)⟩ = _ :=
    insertEvent_fresh version (by simp) (by simp) hline hevents houtbox
  exact ⟨_, EStateM.bind_eq_ok.mpr ⟨⟨⟩, _, hupdate, hinsert⟩⟩

def sqliteBody (codec : JsonCodec) (fault : Option SqlStatement) (payload : Document) :
    StoreWrite → SqlCall PUnit
  | .save s => updateOrConflict fault s payload
  | .commit s event => restoring s.version (commitBody codec fault s event payload)

/-- The version is assigned and the snapshot encoded before the transaction begins. -/
theorem encoded_run (body : Document → SqlCall PUnit) (version : Int)
    (run : SqlRun) :
    (do setVersion version
        body (← encodeSnapshot codec iso s)) run
      = match writeDocument codec iso s with
        | .ok payload => body payload { run with version := version }
        | .error e => .error (.store e) { run with version := version } := by
  unfold encodeSnapshot
  cases writeDocument codec iso s <;> rfl

variable (codec iso) in
theorem sqliteWrite_run (tables : SqlTables) (fault : Option SqlStatement) (w : StoreWrite) :
    sqliteWrite codec iso fault w ⟨w.snapshot.version, tables⟩
      = match writeDocument codec iso { w.snapshot with version := w.snapshot.version + 1 } with
        | .ok payload =>
          transaction fault (sqliteBody codec fault payload w) ⟨w.snapshot.version + 1, tables⟩
        | .error e => .error (.store e) ⟨w.snapshot.version + 1, tables⟩ := by
  cases w with
  | save s => exact encoded_run (fun p => transaction fault (sqliteBody codec fault p (.save s))) _ _
  | commit s event =>
    exact encoded_run (fun p => transaction fault (sqliteBody codec fault p (.commit s event))) _ _

structure BodyEnds (codec : JsonCodec) (tables : SqlTables) (fault : Option SqlStatement)
    (payload : Document) (w : StoreWrite) : Prop where
  restored : (∀ statement ∈ fault, statement ∉ unguarded w) → ∀ e after,
    sqliteBody codec fault payload w ⟨w.snapshot.version + 1, tables⟩ = .error e after →
    after.version = w.snapshot.version
  failed : fault = some .update → .update ∈ unguarded w →
    sqliteBody codec fault payload w ⟨w.snapshot.version + 1, tables⟩
      = .error .database ⟨w.snapshot.version + 1, tables⟩
  raised : ∀ a after, sqliteBody codec fault payload w ⟨w.snapshot.version + 1, tables⟩
    = .ok a after → after.version = w.snapshot.version + 1
  accepted : fault = some .commit →
    ((∃ a after, sqliteBody codec fault payload w ⟨w.snapshot.version + 1, tables⟩ = .ok a after) ↔
      SqlAccepted codec tables w)

variable (codec) in
theorem bodyEnds (tables : SqlTables) (fault : Option SqlStatement) (payload : Document)
    (w : StoreWrite) : BodyEnds codec tables fault payload w := by
  cases w with
  | save s =>
    refine ⟨fun hguard e after h => ?_, fun hf _ => ?_, fun _ after h => ?_, fun hf => ⟨?_, ?_⟩⟩
    · have hf : fault ≠ some .update := fun hf => hguard _ hf (by simp [unguarded])
      by_cases hc : tables.Current s
      · change updateOrConflict fault s payload _ = _ at h
        rw [updateOrConflict_current _ _ hf hc] at h
        cases h
      · obtain ⟨e', he⟩ := updateOrConflict_stale payload (s.version + 1) hf hc
        change updateOrConflict fault s payload _ = _ at h
        rw [show (StoreWrite.save s).snapshot.version = s.version from rfl, he] at h
        cases h
        rfl
    · subst hf
      rfl
    · obtain ⟨-, -, rfl⟩ := updateOrConflict_ok h
      rfl
    · rintro ⟨_, after, h⟩
      exact (updateOrConflict_ok h).2.1
    · intro hc
      exact ⟨_, _, updateOrConflict_current _ _ (by simp [hf]) hc⟩
  | commit s event =>
    refine ⟨fun _ e after h => ?_, fun _ hu => ?_, fun _ after h => ?_, fun hf => ⟨?_, ?_⟩⟩
    · rw [sqliteBody, restoring_run] at h
      cases hr : commitBody codec fault s event payload
        ⟨(StoreWrite.commit s event).snapshot.version + 1, tables⟩ with
      | ok a r =>
        rw [hr] at h
        cases h
      | error e' r =>
        rw [hr] at h
        cases h
        rfl
    · simp [unguarded] at hu
    · rw [sqliteBody, restoring_run] at h
      cases hr : commitBody codec fault s event payload
        ⟨(StoreWrite.commit s event).snapshot.version + 1, tables⟩ with
      | ok a r =>
        rw [hr] at h
        cases h
        exact (commitBody_ok hr).2.2.1
      | error e' r =>
        rw [hr] at h
        cases h
    · rintro ⟨_, after, h⟩
      rw [sqliteBody, restoring_run] at h
      cases hr : commitBody codec fault s event payload
        ⟨(StoreWrite.commit s event).snapshot.version + 1, tables⟩ with
      | ok a r => exact ⟨(commitBody_ok hr).1, (commitBody_ok hr).2.1⟩
      | error e' r =>
        rw [hr] at h
        cases h
    · rintro ⟨hc, he⟩
      obtain ⟨after, hafter⟩ := commitBody_accepted payload (s.version + 1) hf hc he
      have hrestored := restoring_run s.version (commitBody codec fault s event payload)
        ⟨s.version + 1, tables⟩
      rw [hafter] at hrestored
      exact ⟨⟨⟩, after, hrestored⟩

theorem failsCleanly_raised {σ ε : Type} {same : σ → σ → Prop} {content store : σ} {version : Int}
    (e : ε) : ¬ FailsCleanly same content version ⟨some e, store, version + 1⟩ := by
  intro h
  have hversion : version + 1 = version := (h (by simp)).1
  omega

/-- **The SQLite store.** Exactly when it leaves the caller's snapshot as it was. -/
theorem sqlite_failsCleanly_iff (tables : SqlTables) (fault : Option SqlStatement)
    (w : StoreWrite) :
    FailsCleanly Eq tables w.snapshot.version
        ((sqliteWrite codec iso fault w).ends tables w.snapshot.version) ↔
      SqliteKeeps codec iso tables fault w := by
  have hrun := sqliteWrite_run codec iso tables fault w
  cases hpayload : writeDocument codec iso
      { w.snapshot with version := w.snapshot.version + 1 } with
  | error e =>
    rw [hpayload] at hrun
    simp only [SqlCall.ends, hrun]
    refine iff_of_false (failsCleanly_raised _) fun h => ?_
    obtain ⟨payload, hp⟩ := h.encodable
    rw [hpayload] at hp
    cases hp
  | ok payload =>
    rw [hpayload] at hrun
    have hbody := bodyEnds codec tables fault payload w
    have hends : (sqliteWrite codec iso fault w).ends tables w.snapshot.version
        = (transaction fault (sqliteBody codec fault payload w)).ends tables
            (w.snapshot.version + 1) := by
      unfold SqlCall.ends
      rw [hrun]
    rw [hends]
    by_cases hguard : ∀ statement ∈ fault, statement ∉ unguarded w
    · rw [failsCleanly_transaction (hbody.restored hguard) hbody.raised]
      constructor
      · rintro ⟨-, hcommit⟩
        exact ⟨⟨payload, hpayload⟩, hguard, fun hf => (hbody.accepted hf).not.mp (hcommit hf)⟩
      · intro h
        refine ⟨fun hf => hguard _ hf ?_, fun hf => (hbody.accepted hf).not.mpr (h.ended hf)⟩
        cases w <;> simp [unguarded]
    · refine iff_of_false ?_ fun h => hguard h.guarded
      push Not at hguard
      obtain ⟨statement, hf, hmem⟩ := hguard
      have hfault : fault = some statement := hf
      by_cases hconnect : statement = .connect
      · rw [hfault, hconnect]
        simp only [SqlCall.ends, transaction_run, if_pos]
        exact failsCleanly_raised _
      · have hupdate : statement = .update := by
          cases w <;> simp_all [unguarded]
        subst hupdate
        have herror := hbody.failed hfault hmem
        have hne : fault ≠ some .connect := by simp [hfault]
        simp only [SqlCall.ends, transaction_run, herror, if_neg hne]
        exact failsCleanly_raised _

theorem postgres_failsCleanly (tables : SqlTables) (fault : Option SqlStatement) (w : StoreWrite) :
    FailsCleanly Eq tables w.snapshot.version
      ((postgresWrite codec iso fault w).ends tables w.snapshot.version) := by
  have hkeep : ∀ body : SqlCall PUnit, Triple (fun run => run.tables = tables)
      (do setVersion (w.snapshot.version + 1)
          restoring w.snapshot.version (transaction fault body))
      (fun _ _ => True) fun run => run = ⟨w.snapshot.version, tables⟩ := fun body =>
    .bind (Q := fun _ run => run.tables = tables) (.update fun _ h => h) fun _ =>
      restoring_spec transaction_spec
  have hwrite : Triple (fun run => run.tables = tables) (postgresWrite codec iso fault w)
      (fun _ _ => True) fun run => run = ⟨w.snapshot.version, tables⟩ := by
    cases w with
    | save s => exact hkeep _
    | commit s event => exact hkeep _
  intro hraised
  have hend := hwrite ⟨w.snapshot.version, tables⟩ rfl
  unfold SqlCall.ends at hraised ⊢
  cases hr : postgresWrite codec iso fault w ⟨w.snapshot.version, tables⟩ with
  | ok a run =>
    rw [hr] at hraised
    exact absurd rfl hraised
  | error e run =>
    rw [hr] at hend
    rw [hend]
    exact ⟨rfl, rfl⟩

/-! ## The in-memory store -/

/-- `InMemorySessionStore.save_session`; the store has no commit. -/
def memorySave (store : SessionStore (memoryBackend codec)) (snapshot : SessionSnapshot) :
    WriteEnd (SessionStore (memoryBackend codec)) StoreError :=
  match store.saveSession snapshot with
  | .ok (store', version) => ⟨none, store', version⟩
  | .error e => ⟨some e, store, snapshot.version⟩

theorem memory_failsCleanly (store : SessionStore (memoryBackend codec))
    (snapshot : SessionSnapshot) :
    FailsCleanly Eq store snapshot.version (memorySave store snapshot) := by
  unfold memorySave
  cases store.saveSession snapshot with
  | ok r => exact fun h => absurd rfl h
  | error e => exact fun _ => ⟨rfl, rfl⟩

/-! ## The file store -/

def FileRun.writeEnd (run : FileRun) :
    Except (Option FileError) PUnit → WriteEnd RuntimeFiles (Option FileError)
  | .ok _ => ⟨none, run.files, run.version⟩
  | .error e => ⟨some e, run.files, run.version⟩

/-- How a write of the file store ends that is called from the files, where a step cannot be
written. -/
def fileEnds (codec : JsonCodec) (iso : IsoFormat) (fault : Option (Cut Tear))
    (files : RuntimeFiles) (w : StoreWrite) : WriteEnd RuntimeFiles (Option FileError) :=
  let r := (fileWrite codec iso w).failing FileStep.isWrite ⟨files, w.snapshot.version⟩ fault
  r.2.writeEnd r.1

structure ContentsAccept (iso : IsoFormat) (contents : Contents) (w : StoreWrite) : Prop where
  current : ∃ document stored, contents.sessions w.snapshot.state.sessionId = some document ∧
    readDocument iso document = .ok stored ∧ stored.version = w.snapshot.version
  fresh : ∀ event ∈ w.event?, event.id ∉ contents.events.map RuntimeEvent.id

def recoverySteps (codec : JsonCodec) (iso : IsoFormat) (files : RuntimeFiles) (w : StoreWrite) :
    Nat :=
  (recoverCommits codec iso ⟨files, w.snapshot.version⟩).1.length

/-- The number of files that a write writes after it has assigned the version. -/
def ownWrites : StoreWrite → Nat
  | .save _ => 1
  | .commit _ _ => 4

/-- Where the file store leaves the caller's snapshot when it raises: the write is not accepted, or
a step of the replay before it fails, or it can be encoded and none of its own steps fails. -/
def FileKeeps (codec : JsonCodec) (iso : IsoFormat) (files : RuntimeFiles)
    (fault : Option (Cut Tear)) (w : StoreWrite) : Prop :=
  ContentsAccept iso (visible iso files) w →
    (∃ cut ∈ fault, cut.after < recoverySteps codec iso files w) ∨
      (FileEncodable codec iso w ∧ ∀ cut ∈ fault,
        ¬ (recoverySteps codec iso files w < cut.after ∧
          cut.after ≤ recoverySteps codec iso files w + ownWrites w))

theorem OwnSteps.length (h : OwnSteps codec iso w steps) : steps.length = ownWrites w := by
  cases h <;> rfl

theorem OwnSteps.encodable (h : OwnSteps codec iso w steps) : FileEncodable codec iso w := by
  cases h with
  | save s document hd => exact ⟨⟨document, hd⟩, fun _ he => nomatch he⟩
  | commit s event document line hd hline =>
    exact ⟨⟨document, hd⟩, fun e he => by cases he; exact ⟨line, hline⟩⟩

/-- What a write checks when nothing is pending is what the files show. -/
theorem Settled.accepts_iff {V : Contents} {W : Prop} {files : RuntimeFiles}
    (h : Settled codec iso V W files) :
    FileAccepts iso files w ↔ ContentsAccept iso V w := by
  have hsame := h.same
  rw [visible_settled _ h.rows] at hsame
  have hevents : files.journal.events = .ok files.journal.readable := h.sound.decodes
  have hmem : ∀ id, id ∈ files.journal.readable.map RuntimeEvent.id ↔
      id ∈ V.events.map RuntimeEvent.id := fun id => (hsame.events.map RuntimeEvent.id).mem_iff
  constructor
  · rintro ⟨hcurrent, hfresh⟩
    refine ⟨hsame.sessions ▸ hcurrent, fun event he => ?_⟩
    obtain ⟨events, hok, hnew⟩ := hfresh event he
    obtain rfl : events = files.journal.readable := Except.ok.inj (hok.symm.trans hevents)
    exact (hmem _).not.mp hnew
  · rintro ⟨hcurrent, hfresh⟩
    refine ⟨?_, fun event he => ⟨_, hevents, (hmem _).not.mpr (hfresh event he)⟩⟩
    have hsessions : files.sessions = V.sessions := hsame.sessions
    rw [hsessions]
    exact hcurrent

theorem fileEnds_of {fault : Option (Cut Tear)} {files : RuntimeFiles}
    {r : Except (Option FileError) PUnit} {run : FileRun}
    (h : (fileWrite codec iso w).failing FileStep.isWrite ⟨files, w.snapshot.version⟩ fault
      = (r, run)) :
    fileEnds codec iso fault files w = run.writeEnd r := by
  simp only [fileEnds, h]

def ShowsSame (iso : IsoFormat) (files files' : RuntimeFiles) : Prop :=
  (visible iso files).Same (visible iso files')

section Ends

variable {files : RuntimeFiles} {fault : Option (Cut Tear)} {w : StoreWrite}
variable {steps own : List FileStep} {r : Except FileError PUnit}

theorem replay_fails (hrec : Recovers codec iso (visible iso files) ⟨files, w.snapshot.version⟩ steps)
    (hrun : fileWrite codec iso w ⟨files, w.snapshot.version⟩ = (steps ++ own, r))
    (hclean : ∀ cut ∈ fault, Clean cut.tear) (h : ∃ cut ∈ fault, cut.after < steps.length) :
    FailsCleanly (ShowsSame iso) files w.snapshot.version (fileEnds codec iso fault files w) := by
  obtain ⟨cut, rfl, hlt⟩ := h
  have hstep : (steps ++ own)[cut.after]? = some steps[cut.after] := by
    rw [List.getElem?_append_left hlt, List.getElem?_eq_getElem hlt]
  have hfails := Program.failing_at hrun hstep (hrec.writes _ (List.getElem_mem hlt))
  rw [cutSteps_append_left hlt] at hfails
  rw [fileEnds_of hfails]
  intro _
  exact ⟨version_cutSteps hrec.writes _ _, (hrec.keeps.cut (hclean cut rfl)).2⟩

/-- No step of the replay fails, and none that the write is at. -/
theorem write_past (hrun : fileWrite codec iso w ⟨files, w.snapshot.version⟩ = (steps ++ own, r))
    (hreplay : ¬ ∃ cut ∈ fault, cut.after < steps.length)
    (hown : ∀ cut ∈ fault, ∀ step, own[cut.after - steps.length]? = some step →
      step.isWrite = false) :
    (fileWrite codec iso w).failing FileStep.isWrite ⟨files, w.snapshot.version⟩ fault
      = (r.mapError some, applyAll (applyAll ⟨files, w.snapshot.version⟩ steps) own) := by
  rw [Program.failing_past hrun, applyAll_append]
  intro cut hcut step hstep
  have hle : steps.length ≤ cut.after := not_lt.mp fun hlt => hreplay ⟨cut, hcut, hlt⟩
  rw [List.getElem?_append_right hle] at hstep
  exact hown cut hcut step hstep

theorem own_fails (hown : OwnSteps codec iso w own)
    (hrun : fileWrite codec iso w ⟨files, w.snapshot.version⟩
      = (steps ++ .version (w.snapshot.version + 1) :: own, .ok ⟨⟩))
    {cut : Cut Tear} (hlt : steps.length < cut.after)
    (hle : cut.after ≤ steps.length + ownWrites w) :
    ¬ FailsCleanly (ShowsSame iso) files w.snapshot.version
      (fileEnds codec iso (some cut) files w) := by
  obtain ⟨n, hn⟩ : ∃ n, cut.after = steps.length + (n + 1) :=
    ⟨cut.after - steps.length - 1, by omega⟩
  have hin : n < own.length := by
    rw [hown.length]
    omega
  have hstep : (steps ++ .version (w.snapshot.version + 1) :: own)[cut.after]? = some own[n] := by
    rw [hn, List.getElem?_append_right (by omega), Nat.add_sub_cancel_left,
      List.getElem?_cons_succ, List.getElem?_eq_getElem hin]
  have hfails := Program.failing_at hrun hstep (hown.writes _ (List.getElem_mem hin))
  rw [hn, cutSteps_append_right] at hfails
  rw [fileEnds_of hfails]
  intro hkept
  have hversion := (hkept (by simp [FileRun.writeEnd])).1
  have hraised : (cutSteps (Storage.apply (applyAll (⟨files, w.snapshot.version⟩ : FileRun) steps)
      (.version (w.snapshot.version + 1))) own n cut.tear).version = w.snapshot.version + 1 :=
    version_cutSteps hown.writes n cut.tear
  have heq : w.snapshot.version + 1 = w.snapshot.version := hraised.symm.trans hversion
  omega

end Ends

/-- **The file store.** Exactly when it leaves the caller's snapshot as it was, and what the files
show. -/
theorem file_failsCleanly_iff {files : RuntimeFiles} {fault : Option (Cut Tear)} (w : StoreWrite)
    (hs : Sound codec iso files) (hwhole : PendingLine files → files.journal.rest = [])
    (hclean : ∀ cut ∈ fault, Clean cut.tear) :
    FailsCleanly (ShowsSame iso) files w.snapshot.version (fileEnds codec iso fault files w) ↔
      FileKeeps codec iso files fault w := by
  obtain ⟨steps, hrec⟩ := Ready.recovers ⟨files, w.snapshot.version⟩
    (⟨hs, .refl _, hwhole, False.elim⟩ : Ready codec iso (visible iso files) False files)
  have hrun : fileWrite codec iso w ⟨files, w.snapshot.version⟩ = _ :=
    (congrFun (fileWrite_eq codec iso w) _).trans (Program.bind_ok hrec.result)
  have hlength : recoverySteps codec iso files w = steps.length := by
    unfold recoverySteps
    rw [hrec.result]
  have hends := writeSettled_ends codec iso hrec.settled.rows w
  unfold FileKeeps
  rw [hlength, ← hrec.settled.accepts_iff]
  by_cases hreplay : ∃ cut ∈ fault, cut.after < steps.length
  · exact iff_of_true (replay_fails hrec hrun hclean hreplay) fun _ => .inl hreplay
  generalize writeSettled codec iso w (applyAll ⟨files, w.snapshot.version⟩ steps) = x at hends hrun
  cases hends with
  | refused e hno =>
    have hpast := write_past hrun hreplay fun _ _ _ h => by simp at h
    rw [fileEnds_of hpast]
    exact iff_of_true (fun _ => ⟨version_applyAll hrec.writes, hrec.settled.same⟩)
      fun haccepts => absurd haccepts hno
  | unencodable e haccepts hno =>
    have hpast := write_past hrun hreplay fun cut _ step h => by
      rcases hn : cut.after - steps.length with _ | n
      · rw [hn] at h
        cases h
        rfl
      · rw [hn] at h
        cases h
    rw [fileEnds_of hpast]
    refine iff_of_false (failsCleanly_raised _) fun h => ?_
    rcases h haccepts with hin | ⟨hencode, -⟩
    · exact hreplay hin
    · exact hno hencode
  | done own haccepts hown =>
    by_cases hfails : ∃ cut ∈ fault, steps.length < cut.after ∧
        cut.after ≤ steps.length + ownWrites w
    · obtain ⟨cut, rfl, hlt, hle⟩ := hfails
      refine iff_of_false (own_fails hown hrun hlt hle) fun h => ?_
      rcases h haccepts with hin | ⟨-, hout⟩
      · exact hreplay hin
      · exact hout cut rfl ⟨hlt, hle⟩
    · have hpast := write_past hrun hreplay fun cut hcut step h => by
        rcases hn : cut.after - steps.length with _ | n
        · rw [hn] at h
          cases h
          rfl
        · rw [hn, List.getElem?_cons_succ] at h
          have hlt := (List.getElem?_eq_some_iff.mp h).1
          rw [hown.length] at hlt
          exact absurd ⟨cut, hcut, by omega, by omega⟩ hfails
      rw [fileEnds_of hpast]
      refine iff_of_true (fun h => absurd rfl h) fun _ => .inr ⟨hown.encodable, ?_⟩
      exact fun cut hcut h => hfails ⟨cut, hcut, h⟩

end Writes

/-! ## The stores -/

/-- **Failed saves and commits.** When each of the stores leaves the version of its caller's
snapshot and its content as they were, if it raises. The files are any that the store can read, and
are written where the last line was ended. -/
theorem failed_write_leaves_snapshot (codec : JsonCodec) (iso : IsoFormat) :
    (∀ (store : SessionStore (memoryBackend codec)) (snapshot : SessionSnapshot),
        FailsCleanly Eq store snapshot.version (memorySave store snapshot)) ∧
      (∀ (files : RuntimeFiles) (fault : Option (Cut Tear)) (w : StoreWrite),
        Sound codec iso files → (PendingLine files → files.journal.rest = []) →
        (∀ cut ∈ fault, Clean cut.tear) →
        (FailsCleanly (ShowsSame iso) files w.snapshot.version (fileEnds codec iso fault files w) ↔
          FileKeeps codec iso files fault w)) ∧
      (∀ (tables : SqlTables) (fault : Option SqlStatement) (w : StoreWrite),
        FailsCleanly Eq tables w.snapshot.version
            ((sqliteWrite codec iso fault w).ends tables w.snapshot.version) ↔
          SqliteKeeps codec iso tables fault w) ∧
      ∀ (tables : SqlTables) (fault : Option SqlStatement) (w : StoreWrite),
        FailsCleanly Eq tables w.snapshot.version
          ((postgresWrite codec iso fault w).ends tables w.snapshot.version) :=
  ⟨memory_failsCleanly, fun _ _ w hs hwhole hclean => file_failsCleanly_iff w hs hwhole hclean,
    sqlite_failsCleanly_iff, postgres_failsCleanly⟩

def firstFiles : RuntimeFiles := (fileMachine plainCodec epochIso).state [(.create firstSnapshot, none)]

theorem firstFiles_sound : Sound plainCodec epochIso firstFiles := by
  have hmeets : (fileMachine plainCodec epochIso).Meets
      (fun _ files input => Recoverable plainCodec epochIso files input)
      [(.create firstSnapshot, none)] := by decide +kernel
  exact (survives hmeets).sound

theorem failed_write_leaves_first :
    FailsCleanly (ShowsSame epochIso) firstFiles 0
        (fileEnds plainCodec epochIso (some ⟨1, .nothing⟩) firstFiles (.save firstSnapshot)) ↔
      FileKeeps plainCodec epochIso firstFiles (some ⟨1, .nothing⟩) (.save firstSnapshot) :=
  (failed_write_leaves_snapshot plainCodec epochIso).2.1 firstFiles (some ⟨1, .nothing⟩)
    (.save firstSnapshot) firstFiles_sound (by decide +kernel) (by simp)

def overflowingSnapshot : SessionSnapshot :=
  { firstSnapshot with
    state := { firstSnapshot.state with satisfiedCriteria := [("healthy", .int (2 ^ 64))] } }

def firstTables : SqlTables :=
  match writeDocument plainCodec epochIso firstSnapshot with
  | .ok document => { SqlTables.empty with
      sessions := Function.update SqlTables.empty.sessions "session-1" (some (document, 0)) }
  | .error _ => .empty

/-- The save of the file store and that of the SQLite store raise, and the version is the next. -/
theorem failed_save_bumps :
    ¬ FailsCleanly (ShowsSame epochIso) firstFiles 0
        (fileEnds plainCodec epochIso none firstFiles (.save overflowingSnapshot)) ∧
      ¬ FailsCleanly Eq firstTables 0
        ((sqliteWrite plainCodec epochIso none (.save overflowingSnapshot)).ends firstTables 0) := by
  constructor
  · intro h
    have hversion := (h (by decide +kernel)).1
    revert hversion
    decide +kernel
  · intro h
    have hversion := (h (by decide +kernel)).1
    revert hversion
    decide +kernel

end UniversalAgent.Persistence
