import UniversalAgent.Persistence.FailedWrites

/-!
# Persistence — Versions

The in-memory, the file and the SQLite session store as stores of versioned documents, for any
number of clients. All three check a write against the stored version and store the next one; the
in-memory store is lawful as it is. The other two are for writes whose snapshot and event can be
encoded: after a save that could not be, the caller's snapshot has a version that it was never
stored with, and may pass a later check.
-/

namespace UniversalAgent.Persistence

open UniversalAgent.Core UniversalAgent.Foundation UniversalAgent.State SqlCall

section Stores

variable (codec : JsonCodec) (iso : IsoFormat)

/-- The write of a snapshot with the version that its client's object has. -/
def storeWrite (snapshot : SessionSnapshot) (event : Option RuntimeEvent) (version : Int) :
    StoreWrite :=
  match event with
  | none => .save { snapshot with version := version }
  | some event => .commit { snapshot with version := version } event

/-- `InMemorySessionStore`. It has no commit. -/
def memoryStore : VersionedStore SessionId SessionSnapshot RuntimeEvent (Option StoreError) where
  Content := SessionStore (memoryBackend codec)
  empty := .empty
  key s := s.state.sessionId
  stored store id := (store.record? id).map SessionSnapshot.version
  load store id :=
    match store.loadSession id with
    | .ok s => (.ok (s, s.version), store)
    | .error e => (.error (some e), store)
  create store s :=
    match store.createSession s with
    | .ok store' => ⟨none, store', 0⟩
    | .error e => ⟨some (some e), store, s.version⟩
  write store s event version :=
    match event with
    | none =>
      let r := memorySave store { s with version := version }
      ⟨r.raised.map some, r.store, r.version⟩
    | some _ => ⟨some none, store, version⟩

def documentVersion (document : Document) : Option Int :=
  (fieldD document.1 "version" readInt 0).toOption

/-- `FileRuntimeStore`. -/
def fileStore :
    VersionedStore SessionId SessionSnapshot RuntimeEvent (Option FileError) where
  Content := RuntimeFiles
  empty := .empty
  key s := s.state.sessionId
  stored files id := (files.sessions id).bind documentVersion
  load files id :=
    let p := loadFile codec iso id
    match (p ⟨files, 0⟩).2 with
    | .ok s => (.ok (s, s.version), (p.after ⟨files, 0⟩).files)
    | .error e => (.error (some e), (p.after ⟨files, 0⟩).files)
  create files s :=
    let r := (createFile codec iso s).failing FileStep.isWrite ⟨files, s.version⟩ none
    r.2.writeEnd r.1
  write files s event version := fileEnds codec iso none files (storeWrite s event version)

/-- `create_session` of the SQLite store. -/
def sqliteCreate (tables : SqlTables) (s : SessionSnapshot) : WriteEnd SqlTables SqlError :=
  match writeDocument codec iso { s with version := 0 } with
  | .error e => ⟨some (.store e), tables, 0⟩
  | .ok payload =>
    match tables.sessions s.state.sessionId with
    | some _ => ⟨some (.store .alreadyExists), tables, 0⟩
    | none => ⟨none, tables.setSession s.state.sessionId (payload, 0), 0⟩

/-- `_load_stored_session`. -/
def sqliteLoad (tables : SqlTables) (id : SessionId) : Except SqlError SessionSnapshot :=
  match tables.sessions id with
  | none => .error (.store .notFound)
  | some (payload, version) =>
    match readDocument iso payload with
    | .ok s => .ok { s with version := version }
    | .error e => .error (.store e)

/-- `SQLiteRuntimeStore`. -/
def sqliteStore : VersionedStore SessionId SessionSnapshot RuntimeEvent SqlError where
  Content := SqlTables
  empty := .empty
  key s := s.state.sessionId
  stored tables id := (tables.sessions id).map Prod.snd
  load tables id :=
    match sqliteLoad iso tables id with
    | .ok s => (.ok (s, s.version), tables)
    | .error e => (.error e, tables)
  create := sqliteCreate codec iso
  write tables s event version :=
    (sqliteWrite codec iso none (storeWrite s event version)).ends tables version

@[simp] theorem storeWrite_snapshot (s : SessionSnapshot) (event : Option RuntimeEvent)
    (version : Int) : (storeWrite s event version).snapshot = { s with version := version } := by
  cases event <;> rfl

variable {codec iso}

/-! ## The in-memory store -/

variable {s : SessionSnapshot} {document : Document}

/-- The version of the session that was written, and those of the others. -/
theorem memoryStore_stored {store store' : SessionStore (memoryBackend codec)}
    (h : store.write s = .ok store') :
    (memoryStore codec).stored store'
      = Function.update ((memoryStore codec).stored store) s.state.sessionId (some s.version) := by
  obtain ⟨r, hr, rfl⟩ := SessionStore.write_eq_ok.mp h
  have hversion : r.version = s.version := (copySession_same (copyRecord_eq_ok.mp hr)).2.1
  funext id
  by_cases hid : id = s.state.sessionId
  · subst hid
    have hrecord : (store.put s r hr).record? s.state.sessionId = some r := by
      simp [SessionStore.put]
    rw [Function.update_self, ← hversion]
    exact congrArg (Option.map SessionSnapshot.version) hrecord
  · have hrecord : (store.put s r hr).record? id = store.record? id := by
      simp [SessionStore.put, Function.update_of_ne hid]
    rw [Function.update_of_ne hid]
    exact congrArg (Option.map SessionSnapshot.version) hrecord

theorem memorySave_cases (store : SessionStore (memoryBackend codec)) (s : SessionSnapshot) :
    (∃ e, memorySave store s = ⟨some e, store, s.version⟩) ∨
      ∃ store' r, memorySave store s = ⟨none, store', s.version + 1⟩ ∧
        store.record? s.state.sessionId = some r ∧ r.version = s.version ∧
        store.write { s with version := s.version + 1 } = .ok store' := by
  unfold memorySave
  cases h : store.saveSession s with
  | error e => exact .inl ⟨e, rfl⟩
  | ok end_ =>
    obtain ⟨store', version⟩ := end_
    obtain ⟨r, hr, hv, rfl, hw⟩ := SessionStore.saveSession_eq_ok.mp h
    exact .inr ⟨store', r, rfl, hr, Except.ok.inj hv, hw⟩

theorem memoryStore_lawful :
    VersionedStore.Lawful (memoryStore codec) (fun _ => True) fun _ _ _ _ => True where
  empty := trivial
  nothing _ := rfl
  load store id _ := by
    simp only [memoryStore]
    cases h : store.loadSession id with
    | error e => exact ⟨rfl, fun _ _ hk => nomatch hk⟩
    | ok s =>
      refine ⟨rfl, fun document version hk => ?_⟩
      cases hk
      unfold SessionStore.loadSession at h
      split at h
      · cases h
      · next r hr =>
          have hversion : s.version = r.version := (copySession_same (copyRecord_eq_ok.mp h)).2.1
          rw [hr, hversion]
          rfl
  create store s _ := by
    refine ⟨trivial, ?_⟩
    simp only [memoryStore]
    cases h : store.createSession s with
    | error e => rfl
    | ok store' =>
      unfold SessionStore.createSession at h
      split at h
      · cases h
      · next hnone => exact ⟨by rw [hnone]; rfl, rfl, memoryStore_stored h⟩
  write store s event version _ _ := by
    refine ⟨trivial, ?_⟩
    cases event with
    | some event => exact ⟨rfl, rfl⟩
    | none =>
      simp only [memoryStore]
      rcases memorySave_cases store { s with version := version } with
        ⟨e, he⟩ | ⟨store', r, hsave, hr, hv, hw⟩
      · rw [he]
        exact ⟨rfl, rfl⟩
      · rw [hsave]
        refine ⟨?_, rfl, memoryStore_stored hw⟩
        have hrecord : store.record? s.state.sessionId = some r := hr
        rw [hrecord]
        exact congrArg some hv

/-! ## The SQLite store -/

variable (codec iso) in
theorem sqliteStore_stored (tables : SqlTables) (id : SessionId) (row : Document × Int) :
    (sqliteStore codec iso).stored (tables.setSession id row)
      = Function.update ((sqliteStore codec iso).stored tables) id (some row.2) := by
  funext k
  by_cases hk : k = id
  · subst hk
    have hrow : (tables.setSession k row).sessions k = some row := by
      simp [SqlTables.setSession]
    rw [Function.update_self]
    exact congrArg (Option.map Prod.snd) hrow
  · have hrow : (tables.setSession id row).sessions k = tables.sessions k := by
      simp [SqlTables.setSession, Function.update_of_ne hk]
    rw [Function.update_of_ne hk]
    exact congrArg (Option.map Prod.snd) hrow

theorem sqliteBody_ok {tables : SqlTables} {w : StoreWrite} {payload : Document} {after : SqlRun}
    {version : Int}
    (h : sqliteBody codec none payload w ⟨version, tables⟩ = .ok ⟨⟩ after) :
    tables.Current w.snapshot ∧ after.version = version ∧ after.tables.sessions
      = (tables.setSession w.snapshot.state.sessionId (payload, w.snapshot.version + 1)).sessions := by
  cases w with
  | save s =>
    obtain ⟨-, hc, rfl⟩ := updateOrConflict_ok h
    exact ⟨hc, rfl, rfl⟩
  | commit s event =>
    change restoring s.version (commitBody codec none s event payload) _ = _ at h
    rw [restoring_run] at h
    cases hr : commitBody codec none s event payload ⟨version, tables⟩ with
    | error e r =>
      rw [hr] at h
      cases h
    | ok _ r =>
      rw [hr] at h
      cases h
      obtain ⟨hc, -, hversion, hsessions⟩ := commitBody_ok hr
      exact ⟨hc, hversion, hsessions⟩

variable (codec iso) in
theorem sqliteWrite_returns (tables : SqlTables) (w : StoreWrite)
    (h : ((sqliteWrite codec iso none w).ends tables w.snapshot.version).raised = none) :
    tables.Current w.snapshot ∧
      ((sqliteWrite codec iso none w).ends tables w.snapshot.version).version
        = w.snapshot.version + 1 ∧
      ∃ payload, ((sqliteWrite codec iso none w).ends tables w.snapshot.version).store.sessions
        = (tables.setSession w.snapshot.state.sessionId
            (payload, w.snapshot.version + 1)).sessions := by
  have hrun := sqliteWrite_run codec iso tables none w
  unfold SqlCall.ends at h ⊢
  rw [hrun] at h ⊢
  cases hpayload : writeDocument codec iso
      { w.snapshot with version := w.snapshot.version + 1 } with
  | error e =>
    rw [hpayload] at h
    cases h
  | ok payload =>
    simp only [hpayload, transaction_run, reduceCtorEq, if_false] at h ⊢
    cases hbody : sqliteBody codec none payload w ⟨w.snapshot.version + 1, tables⟩ with
    | error e r =>
      rw [hbody] at h
      cases h
    | ok _ r =>
      obtain ⟨hc, hversion, hsessions⟩ := sqliteBody_ok hbody
      exact ⟨hc, hversion, payload, hsessions⟩

theorem sqliteStore_lawful :
    VersionedStore.Lawful (sqliteStore codec iso) (fun _ => True) fun _ s _ version =>
      Encodable codec iso { s with version := version } where
  empty := trivial
  nothing _ := rfl
  load tables id _ := by
    simp only [sqliteStore]
    cases h : sqliteLoad iso tables id with
    | error e => exact ⟨rfl, fun _ _ hk => nomatch hk⟩
    | ok s =>
      refine ⟨rfl, fun document version hk => ?_⟩
      cases hk
      unfold sqliteLoad at h
      split at h
      · cases h
      · next payload version hrow =>
          rw [hrow]
          split at h
          · cases h
            rfl
          · cases h
  create tables s _ := by
    refine ⟨trivial, ?_⟩
    simp only [sqliteStore, sqliteCreate]
    cases writeDocument codec iso { s with version := 0 } with
    | error e => rfl
    | ok payload =>
      cases hrow : tables.sessions s.state.sessionId with
      | some row => rfl
      | none => exact ⟨rfl, rfl, sqliteStore_stored codec iso tables _ _⟩
  write tables s event version _ hencode := by
    refine ⟨trivial, ?_⟩
    have hkeeps : SqliteKeeps codec iso tables none (storeWrite s event version) :=
      { encodable := by
          rw [storeWrite_snapshot]
          exact hencode
        guarded := fun _ h => nomatch h
        ended := fun h => nomatch h }
    have hclean := (sqlite_failsCleanly_iff tables none (storeWrite s event version)).mpr hkeeps
    have hreturns := sqliteWrite_returns codec iso tables (storeWrite s event version)
    simp only [storeWrite_snapshot] at hclean hreturns
    simp only [sqliteStore]
    cases hr : ((sqliteWrite codec iso none (storeWrite s event version)).ends tables
        version).raised with
    | some e =>
      obtain ⟨hversion, hsame⟩ := hclean (by rw [hr]; simp)
      exact ⟨hsame, hversion⟩
    | none =>
      obtain ⟨⟨old, hc⟩, hversion, payload, hsessions⟩ := hreturns hr
      have hrow : tables.sessions s.state.sessionId = some (old, version) := hc
      refine ⟨by rw [hrow]; rfl, hversion, ?_⟩
      refine Eq.trans ?_ (sqliteStore_stored codec iso tables s.state.sessionId
        (payload, version + 1))
      simp only [sqliteStore, hsessions]

/-! ## The file store -/

theorem documentVersion_read
    (h : readDocument iso document = .ok s) : documentVersion document = some s.version := by
  rw [readDocument_eq_ok] at h
  simp only [decodeSessionSnapshot, Except.bind_eq_ok] at h
  obtain ⟨_, -, schema, -, h⟩ := h
  split at h
  · cases h
  · simp only [Except.bind_eq_ok] at h
    obtain ⟨_, -, _, -, _, -, _, -, _, -, _, -, _, -, _, -, _, -, version, hversion, hk⟩ := h
    cases hk
    unfold documentVersion
    rw [hversion]
    rfl

theorem documentVersion_write
    (h : writeDocument codec iso s = .ok document) : documentVersion document = some s.version := by
  rw [writeDocument_eq_ok] at h
  simp only [encodeSessionSnapshot, Except.bind_eq_ok] at h
  obtain ⟨_, -, _, -, hk⟩ := h
  unfold documentVersion
  rw [← Except.ok.inj hk, fieldD_obj (by simp [List.lookup]; rfl)]
  rfl

variable (codec iso) in
/-- The stored versions where a session has been written. -/
theorem fileStore_stored {files files' : RuntimeFiles} {id : SessionId}
    {version : Int} (h : files'.sessions = (files.setSession id document).sessions)
    (hv : documentVersion document = some version) :
    (fileStore codec iso).stored files'
      = Function.update ((fileStore codec iso).stored files) id (some version) := by
  funext k
  by_cases hk : k = id
  · subst hk
    have hrow : files'.sessions k = some document := by simp [h]
    rw [Function.update_self, ← hv]
    exact congrArg (Option.bind · documentVersion) hrow
  · have hrow : files'.sessions k = files.sessions k := by simp [h, Function.update_of_ne hk]
    rw [Function.update_of_ne hk]
    exact congrArg (Option.bind · documentVersion) hrow

def NonePending (files : RuntimeFiles) : Prop := files.commits.rows = []

theorem recoverCommits_none {run : FileRun} (h : NonePending run.files) :
    recoverCommits codec iso run = ([], .ok ⟨⟩) := by
  have hrecords : run.files.commitRecords = [] := by
    unfold RuntimeFiles.commitRecords
    rw [h]
    rfl
  rw [recoverCommits, Program.read_bind, hrecords]
  rfl

variable (codec iso) in
/-- A write of the file store, when nothing is pending. -/
theorem fileEnds_settled {files : RuntimeFiles} (h : NonePending files) (w : StoreWrite) :
    fileEnds codec iso none files w
      = (applyAll (⟨files, w.snapshot.version⟩ : FileRun)
          (writeSettled codec iso w ⟨files, w.snapshot.version⟩).1).writeEnd
          ((writeSettled codec iso w ⟨files, w.snapshot.version⟩).2.mapError some) := by
  have hrun : fileWrite codec iso w ⟨files, w.snapshot.version⟩
      = writeSettled codec iso w ⟨files, w.snapshot.version⟩ :=
    (congrFun (fileWrite_eq codec iso w) _).trans (Program.bind_ok (recoverCommits_none h))
  exact fileEnds_of (Program.failing_past hrun fun _ hc => nomatch hc)

/-- The files after the steps of a write that is done. -/
theorem OwnSteps.done {files : RuntimeFiles} {w : StoreWrite} {steps : List FileStep}
    (version : Int) (h : NonePending files) (hown : OwnSteps codec iso w steps) :
    NonePending (applyAll (⟨files, version⟩ : FileRun) steps).files ∧
      ∃ document, documentVersion document = some (w.snapshot.version + 1) ∧
        (applyAll (⟨files, version⟩ : FileRun) steps).files.sessions
          = (files.setSession w.snapshot.state.sessionId document).sessions := by
  cases hown with
  | save s document hd => exact ⟨h, document, documentVersion_write hd, rfl⟩
  | commit s event document line hd hline =>
    refine ⟨?_, document, documentVersion_write hd, rfl⟩
    have hid : line.id = event.id := (recorded_of_record hline).2
    have hrows : files.commits.rows = [] := h
    change ((files.commits.put ⟨document, line⟩).erase event.id).rows = []
    simp only [Table.put, hrows, List.map_nil, List.not_mem_nil, dif_neg, not_false_eq_true,
      List.nil_append, Table.erase]
    simpa using hid

theorem fileStore_load {files : RuntimeFiles} (h : NonePending files) (id : SessionId) :
    ((fileStore codec iso).load files id).2 = files ∧
      ∀ document version, ((fileStore codec iso).load files id).1 = .ok (document, version) →
        (fileStore codec iso).stored files id = some version := by
  have hrun : loadFile codec iso id ⟨files, 0⟩ = storedSnapshot iso id ⟨files, 0⟩ :=
    Program.bind_ok (recoverCommits_none h)
  simp only [fileStore, Program.after, hrun]
  rcases storedSnapshot_cases iso ⟨files, 0⟩ id with
    ⟨document, stored, hdoc, hread, hstored⟩ | ⟨-, e, hstored⟩
  · rw [hstored]
    refine ⟨rfl, fun d version hk => ?_⟩
    cases hk
    have hrow : files.sessions id = some document := hdoc
    rw [hrow]
    exact documentVersion_read hread
  · rw [hstored]
    exact ⟨rfl, fun _ _ hk => by cases hk⟩

variable (codec iso) in
/-- The creations of the file store: one that is refused, one that cannot be encoded, and one that
is done. -/
theorem fileStore_create (files : RuntimeFiles) (s : SessionSnapshot) :
    (∃ e version, (fileStore codec iso).create files s = ⟨some e, files, version⟩) ∨
      ∃ document, files.sessions s.state.sessionId = none ∧ documentVersion document = some 0 ∧
        (fileStore codec iso).create files s
          = ⟨none, files.setSession s.state.sessionId document, 0⟩ := by
  have hread : createFile codec iso s ⟨files, s.version⟩ = _ := Program.read_bind _ _
  have hassign : (Program.write (FileStep.version 0) : FileProgram PUnit) ⟨files, s.version⟩
      = ([.version 0], .ok ⟨⟩) := rfl
  cases hid : files.sessions s.state.sessionId with
  | some document =>
    have hrun : createFile codec iso s ⟨files, s.version⟩
        = ([], .error (.store .alreadyExists)) := by
      rw [hread]
      simp only [hid]
      rfl
    refine .inl ⟨some (.store .alreadyExists), s.version, ?_⟩
    simp only [fileStore, Program.failing, Program.after, hrun]
    rfl
  | none =>
    cases hw : writeDocument codec iso { s with version := 0 } with
    | error e =>
      have hrun : createFile codec iso s ⟨files, s.version⟩
          = ([.version 0], .error (.store e)) := by
        rw [hread]
        simp only [hid]
        exact Program.bind_run hassign (writeSnapshot_error hw)
      refine .inl ⟨some (.store e), 0, ?_⟩
      simp only [fileStore, Program.failing, Program.after, hrun]
      rfl
    | ok document =>
      have hrun : createFile codec iso s ⟨files, s.version⟩
          = ([.version 0, .session s.state.sessionId document], .ok ⟨⟩) := by
        rw [hread]
        simp only [hid]
        exact Program.bind_run hassign (writeSnapshot_run hw)
      refine .inr ⟨document, rfl, documentVersion_write hw, ?_⟩
      simp only [fileStore, Program.failing, Program.after, hrun]
      rfl

/-- The writes of the file store that it does not accept, or that can be encoded. -/
def FileGood (codec : JsonCodec) (iso : IsoFormat) (files : RuntimeFiles) (s : SessionSnapshot)
    (event : Option RuntimeEvent) (version : Int) : Prop :=
  FileAccepts iso files (storeWrite s event version) →
    FileEncodable codec iso (storeWrite s event version)

theorem fileStore_lawful :
    VersionedStore.Lawful (fileStore codec iso) NonePending (FileGood codec iso) where
  empty := rfl
  nothing _ := rfl
  load _ id h := fileStore_load h id
  create files s h := by
    rcases fileStore_create codec iso files s with
      ⟨e, version, hend⟩ | ⟨document, hid, hversion, hend⟩
    · rw [hend]
      exact ⟨h, rfl⟩
    · rw [hend]
      refine ⟨h, ?_, rfl, fileStore_stored codec iso rfl hversion⟩
      change (files.sessions s.state.sessionId).bind documentVersion = none
      rw [hid]
      rfl
  write files s event version h hgood := by
    have hw : (storeWrite s event version).snapshot = { s with version := version } :=
      storeWrite_snapshot s event version
    have hsettled : NonePending
        (⟨files, (storeWrite s event version).snapshot.version⟩ : FileRun).files := h
    have hends := writeSettled_ends codec iso hsettled (storeWrite s event version)
    have hfile := fileEnds_settled codec iso h (storeWrite s event version)
    simp only [fileStore]
    rw [hfile]
    generalize writeSettled codec iso (storeWrite s event version)
      ⟨files, (storeWrite s event version).snapshot.version⟩ = x at hends
    cases hends with
    | refused e hno =>
      rw [hw]
      exact ⟨h, rfl, rfl⟩
    | unencodable e haccepts hno => exact absurd (hgood haccepts) hno
    | done own haccepts hown =>
      obtain ⟨hpending, document, hversion, hsessions⟩ := OwnSteps.done
        ((storeWrite s event version).snapshot.version + 1) h hown
      obtain ⟨old, stored, hold, hread, hcurrent⟩ := haccepts.current
      have hkey : (storeWrite s event version).snapshot.state.sessionId = s.state.sessionId := by
        rw [hw]
      rw [hkey] at hsessions
      rw [hw] at hold hcurrent hversion
      have hraised : (applyAll (⟨files, (storeWrite s event version).snapshot.version + 1⟩
          : FileRun) own).version = version + 1 :=
        (version_applyAll hown.writes).trans (by rw [hw])
      refine ⟨hpending, ?_, hraised, fileStore_stored codec iso hsessions hversion⟩
      have hrow : files.sessions s.state.sessionId = some old := hold
      rw [hrow]
      exact (documentVersion_read hread).trans (congrArg some hcurrent)

end Stores

/-! ## Any number of clients -/

/-- A save or a commit of a client of the SQLite store whose snapshot can be encoded. -/
def SqliteGood (codec : JsonCodec) (iso : IsoFormat) (_ : (sqliteStore codec iso).Content)
    (s : SessionSnapshot) (_ : Option RuntimeEvent) (version : Int) : Prop :=
  Encodable codec iso { s with version := version }

/-- **Compare and swap.** In every run of loads, creations, saves and commits of any clients, each
save and commit does what `Swapped` says: with the in-memory store always, with the file store where
those that it accepts can be encoded, with the SQLite store where they all can be encoded. -/
theorem session_store_swaps (codec : JsonCodec) (iso : IsoFormat) (ι : Type) [DecidableEq ι] :
    (∀ (pre post : List (ClientCall ι SessionId SessionSnapshot RuntimeEvent)) (c : ι)
        (s : SessionSnapshot) (event : Option RuntimeEvent),
        ((memoryStore codec).clients ι).Meets
          (fun _ content call => VersionedStore.GoodCall (fun _ _ _ _ => True) content call)
          (pre ++ .write c s event :: post) →
        VersionedStore.Swapped (memoryStore codec) (((memoryStore codec).clients ι).history pre)
          (((memoryStore codec).clients ι).state pre) c s event) ∧
      (∀ (pre post : List (ClientCall ι SessionId SessionSnapshot RuntimeEvent)) (c : ι)
        (s : SessionSnapshot) (event : Option RuntimeEvent),
        ((fileStore codec iso).clients ι).Meets
          (fun _ content call => VersionedStore.GoodCall (FileGood codec iso) content call)
          (pre ++ .write c s event :: post) →
        VersionedStore.Swapped (fileStore codec iso) (((fileStore codec iso).clients ι).history pre)
          (((fileStore codec iso).clients ι).state pre) c s event) ∧
      ∀ (pre post : List (ClientCall ι SessionId SessionSnapshot RuntimeEvent)) (c : ι)
        (s : SessionSnapshot) (event : Option RuntimeEvent),
        ((sqliteStore codec iso).clients ι).Meets
          (fun _ content call => VersionedStore.GoodCall (SqliteGood codec iso) content call)
          (pre ++ .write c s event :: post) →
        VersionedStore.Swapped (sqliteStore codec iso)
          (((sqliteStore codec iso).clients ι).history pre)
          (((sqliteStore codec iso).clients ι).state pre) c s event :=
  ⟨fun _ _ _ _ _ hm => memoryStore_lawful.swaps hm rfl,
    fun _ _ _ _ _ hm => fileStore_lawful.swaps hm rfl,
    fun _ _ _ _ _ hm => sqliteStore_lawful.swaps hm rfl⟩

instance (codec : JsonCodec) (iso : IsoFormat) (s : SessionSnapshot) :
    Decidable (Encodable codec iso s) :=
  match h : writeDocument codec iso { s with version := s.version + 1 } with
  | .ok document => .isTrue ⟨document, h⟩
  | .error _ => .isFalse fun ⟨_, hd⟩ => nomatch h.symm.trans hd

instance (codec : JsonCodec) (iso : IsoFormat) (content : (sqliteStore codec iso).Content)
    (s : SessionSnapshot) (event : Option RuntimeEvent) (version : Int) :
    Decidable (SqliteGood codec iso content s event version) :=
  inferInstanceAs (Decidable (Encodable codec iso _))

/-- One client creates a session, a second one loads it, and the first one commits to it. -/
def twoClients : List (ClientCall String SessionId SessionSnapshot RuntimeEvent) :=
  [.create "ada" firstSnapshot, .load "bob" "session-1",
    .write "ada" firstSnapshot (some (numberedEvent 1))]

theorem session_store_swaps_two :
    VersionedStore.Swapped (sqliteStore plainCodec epochIso)
      (((sqliteStore plainCodec epochIso).clients String).history twoClients)
      (((sqliteStore plainCodec epochIso).clients String).state twoClients) "bob" firstSnapshot
      none :=
  (session_store_swaps plainCodec epochIso String).2.2 twoClients [] "bob" firstSnapshot none
    (by decide +kernel)

/-- Between the load and the commit, the second client tries to save a number that JSON text cannot
hold. -/
def overtaken : List (ClientCall String SessionId SessionSnapshot RuntimeEvent) :=
  [.create "ada" firstSnapshot, .load "bob" "session-1", .write "bob" overflowingSnapshot none,
    .write "ada" firstSnapshot (some (numberedEvent 1))]

/-- Its next save is accepted, over a commit that it has not seen. -/
theorem unseen_commit_overwritten :
    ¬ VersionedStore.Swapped (sqliteStore plainCodec epochIso)
      (((sqliteStore plainCodec epochIso).clients String).history overtaken)
      (((sqliteStore plainCodec epochIso).clients String).state overtaken) "bob" firstSnapshot
      none := by
  intro h
  have hunseen : (sqliteStore plainCodec epochIso).upToDate
      (((sqliteStore plainCodec epochIso).clients String).history overtaken) "bob"
      firstSnapshot.state.sessionId = false := by decide +kernel
  have hseen := h.latest (by decide +kernel)
  exact Bool.noConfusion (hunseen.symm.trans hseen)

end UniversalAgent.Persistence
