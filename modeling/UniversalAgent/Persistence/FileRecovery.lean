import UniversalAgent.Persistence.FileStore

/-!
# Persistence — FileRecovery

What the file store shows after crashes. `Contents` is the store without its files: a document for
each session and a bag of events, and `Contents.perform` does a call in one step. `visible` reads
the contents off the files, with the pending commit record replayed. Every step that a call writes
keeps what is visible, except the one that the whole call turns on; so a call that was stopped has
been done or has not.

This needs that a line is written only where the last one was ended. A line that follows the
beginning of another is lost with it.
-/

namespace UniversalAgent.Persistence

open UniversalAgent.Core UniversalAgent.Foundation UniversalAgent.State

variable {e : RuntimeEvent} {j : JournalFile} {V : Contents} {W : Prop} {line : RuntimeEvent}

/-! ## Contents -/

structure Contents where
  sessions : SessionId → Option Document
  events : List RuntimeEvent

def Contents.empty : Contents := ⟨fun _ => none, []⟩

structure Contents.Same (c d : Contents) : Prop where
  sessions : c.sessions = d.sessions
  events : c.events.Perm d.events

namespace Contents

@[refl] theorem Same.refl (c : Contents) : c.Same c := ⟨rfl, .refl _⟩

theorem Same.trans {c d e : Contents} (h : c.Same d) (h' : d.Same e) : c.Same e :=
  ⟨h.sessions.trans h'.sessions, h.events.trans h'.events⟩

variable (codec : JsonCodec) (iso : IsoFormat)

def put (c : Contents) (snapshot : SessionSnapshot) : Contents :=
  match writeDocument codec iso snapshot with
  | .ok document =>
    { c with sessions := Function.update c.sessions snapshot.state.sessionId (some document) }
  | .error _ => c

def add (c : Contents) (event : RuntimeEvent) : Contents :=
  match eventRecord codec event with
  | .ok line => { c with events := Journal.append c.events line }
  | .error _ => c

def perform (c : Contents) : FileCall → Contents
  | .create snapshot => c.put codec iso { snapshot with version := 0 }
  | .save snapshot => c.put codec iso { snapshot with version := snapshot.version + 1 }
  | .commit snapshot event =>
    (c.put codec iso { snapshot with version := snapshot.version + 1 }).add codec event
  | .append event => c.add codec event
  | .load _ | .all | .listEvents => c

def replay (c : Contents) (record : CommitRecord) : Contents where
  sessions :=
    match readDocument iso record.session with
    | .ok snapshot => Function.update c.sessions snapshot.state.sessionId (some record.session)
    | .error _ => c.sessions
  events := Journal.append c.events record.event

end Contents

theorem append_perm {j k : Journal} (h : j.Perm k) (e : RuntimeEvent) :
    (j.append e).Perm (k.append e) := by
  have hmem := (h.map RuntimeEvent.id).mem_iff (a := e.id)
  unfold Journal.append
  by_cases hid : e.id ∈ j.map RuntimeEvent.id
  · rw [if_pos hid, if_pos (hmem.mp hid)]
    exact h
  · rw [if_neg hid, if_neg (hmem.not.mp hid)]
    exact h.append_right [e]

theorem append_comm (j : Journal) {a b : RuntimeEvent} (h : a.id = b.id → a = b) :
    ((j.append a).append b).Perm ((j.append b).append a) := by
  by_cases hab : a.id = b.id
  · rw [h hab]
  · unfold Journal.append
    by_cases ha : a.id ∈ j.map RuntimeEvent.id
    · by_cases hb : b.id ∈ j.map RuntimeEvent.id
      · simp [ha, hb]
      · simp [ha, hb]
    · by_cases hb : b.id ∈ j.map RuntimeEvent.id
      · simp [ha, hb]
      · simp only [List.map_append, List.map_cons, List.map_nil,
          List.mem_append, List.mem_singleton, ha, hb, hab, Ne.symm hab, or_self, if_false,
          List.append_assoc, List.cons_append, List.nil_append]
        exact (List.Perm.swap b a []).append_left j

theorem append_of_mem {j : Journal} (h : e.id ∈ j.map RuntimeEvent.id) :
    j.append e = j := if_pos h

theorem mem_append_of_mem {j : Journal} {e f : RuntimeEvent} (h : f ∈ j) : f ∈ j.append e := by
  unfold Journal.append
  split
  · exact h
  · exact List.mem_append_left _ h

namespace Contents

variable {codec : JsonCodec} {iso : IsoFormat} {c d : Contents}

theorem Same.add (h : c.Same d) (event : RuntimeEvent) :
    (c.add codec event).Same (d.add codec event) := by
  unfold Contents.add
  cases eventRecord codec event with
  | ok line => exact ⟨h.sessions, append_perm h.events line⟩
  | error e => exact h

theorem add_of_mem {event : RuntimeEvent} (h : event.id ∈ c.events.map RuntimeEvent.id) :
    c.add codec event = c := by
  unfold Contents.add eventRecord
  cases copyMapping codec event.data with
  | ok data =>
    exact congrArg (Contents.mk c.sessions) (append_of_mem (e := { event with data := data }) h)
  | error e => rfl

theorem Same.put (h : c.Same d) (snapshot : SessionSnapshot) :
    (c.put codec iso snapshot).Same (d.put codec iso snapshot) := by
  unfold Contents.put
  cases writeDocument codec iso snapshot with
  | ok document =>
    exact ⟨congrArg (Function.update · snapshot.state.sessionId (some document)) h.sessions,
      h.events⟩
  | error e => exact h

theorem Same.perform (h : c.Same d) (call : FileCall) :
    (c.perform codec iso call).Same (d.perform codec iso call) := by
  cases call with
  | create snapshot => exact h.put _
  | save snapshot => exact h.put _
  | commit snapshot event => exact (h.put _).add event
  | append event => exact h.add event
  | load _ => exact h
  | all => exact h
  | listEvents => exact h

end Contents

/-! ## Sound files -/

section Files

variable (codec : JsonCodec) (iso : IsoFormat)

structure FormOf (document : Document) (snapshot : SessionSnapshot) : Prop where
  coherent : Coherent snapshot
  read : readDocument iso document = .ok snapshot
  write : writeDocument codec iso snapshot = .ok document

def Recorded (event : RuntimeEvent) : Prop := eventRecord codec event = .ok event

structure PendingCommit (sessions : SessionId → Option Document) (record : CommitRecord) :
    Prop where
  event : Recorded codec record.event
  session : ∃ snapshot stored document, FormOf codec iso record.session snapshot ∧
    sessions snapshot.state.sessionId = some document ∧ FormOf codec iso document stored ∧
    (stored.version + 1 = snapshot.version ∨ document = record.session)

structure Sound (files : RuntimeFiles) : Prop where
  sessions : ∀ id document, files.sessions id = some document →
    ∃ snapshot, FormOf codec iso document snapshot ∧ snapshot.state.sessionId = id
  commits : ∀ record ∈ files.commits, PendingCommit codec iso files.sessions record
  single : files.commits.rows.length ≤ 1
  lines : ∀ line ∈ files.journal.lines, ∃ event, line = [.event event]
  rest : files.journal.rest = [] ∨ files.journal.rest = [.beginning] ∨
    ∃ event, files.journal.rest = [.event event]

def visible (files : RuntimeFiles) : Contents :=
  files.commits.rows.foldl (Contents.replay iso) ⟨files.sessions, files.journal.readable⟩

variable {codec iso}

theorem formOf_write {snapshot : SessionSnapshot} {document : Document} (hc : Coherent snapshot)
    (hw : writeDocument codec iso snapshot = .ok document) :
    ∃ read, FormOf codec iso document read ∧
      read.state.sessionId = snapshot.state.sessionId ∧ read.version = snapshot.version := by
  obtain ⟨read, -, hr⟩ := readDocument_write codec iso hc hw
  obtain ⟨hcopy, hcoherent, hwrite⟩ := writeDocument_read codec iso hc hw hr
  obtain ⟨hid, hversion, -⟩ := copySession_same hcopy
  exact ⟨read, ⟨hcoherent, hr, hwrite⟩, hid, hversion⟩

theorem recorded_of_record {event line : RuntimeEvent} (h : eventRecord codec event = .ok line) :
    Recorded codec line ∧ line.id = event.id := by
  unfold eventRecord at h
  split at h
  · next data hd =>
      cases h
      have hw : codec.toJsonValue (.obj event.data) = .ok (.obj data) :=
        (writeMapping_eq_ok codec).mpr ⟨data, hd, rfl⟩
      have hagain : copyMapping codec data = .ok data := by
        rw [copyMapping, toJsonValue_again codec hw]
        rfl
      exact ⟨by simp only [Recorded, eventRecord, hagain], rfl⟩
  · cases h

theorem Sound.rows_of_mem {files : RuntimeFiles} (h : Sound codec iso files)
    {record : CommitRecord} (hr : record ∈ files.commits) : files.commits.rows = [record] := by
  have hsingle := h.single
  rcases hrows : files.commits.rows with _ | ⟨r, _ | ⟨r', rows⟩⟩
  · rw [Table.mem_def, hrows] at hr
    cases hr
  · rw [Table.mem_def, hrows, List.mem_singleton] at hr
    rw [hr]
  · rw [hrows] at hsingle
    simp at hsingle

/-! ## The journal -/

theorem readable_append (h : j.rest = []) (event : RuntimeEvent) :
    (j.append event).readable = j.readable ++ [event] := by
  simp only [JournalFile.readable, JournalFile.append, h, List.filterMap_append, List.nil_append,
    List.append_assoc]
  rfl

theorem lines_append {files : RuntimeFiles} (h : Sound codec iso files)
    (hrest : files.journal.rest = []) (event : RuntimeEvent) :
    ∀ line ∈ (files.journal.append event).lines, ∃ e, line = [.event e] := by
  intro line hline
  rcases List.mem_append.mp hline with hline | hline
  · exact h.lines line hline
  · rw [List.mem_singleton, hrest] at hline
    exact ⟨event, hline⟩

theorem lines_tear (j : JournalFile) (event : RuntimeEvent) (t : Tear) :
    (j.tear event t).lines = j.lines := by
  cases t <;> rfl

/-- What a line leaves that was cut short between two characters, after a line that was ended. -/
theorem readable_tear (h : j.rest = []) (event : RuntimeEvent) {t : Tear}
    (ht : t ≠ .insideCharacter) :
    ((j.tear event t).rest = [] ∨ (j.tear event t).rest = [.beginning] ∨
        ∃ e, (j.tear event t).rest = [.event e]) ∧
      ((j.tear event t).readable = j.readable ∨ (j.tear event t).readable = j.readable ++ [event]) := by
  cases t with
  | nothing => exact ⟨.inl h, .inl rfl⟩
  | part =>
    simp only [JournalFile.tear, JournalFile.readable, h, List.nil_append, List.filterMap_append]
    exact ⟨.inr (.inl trivial), .inl rfl⟩
  | insideCharacter => exact absurd rfl ht
  | unended =>
    simp only [JournalFile.tear, JournalFile.readable, h, List.nil_append, List.filterMap_append]
    exact ⟨.inr (.inr ⟨event, rfl⟩), .inr (by simp [readLine])⟩

theorem Sound.decodes {files : RuntimeFiles} (h : Sound codec iso files) :
    files.journal.events = .ok files.journal.readable := by
  refine if_pos (List.all_eq_true.mpr fun line hline => ?_)
  rcases List.mem_append.mp hline with hline | hline
  · obtain ⟨event, rfl⟩ := h.lines line hline
    rfl
  · rw [List.mem_singleton] at hline
    subst hline
    rcases h.rest with hrest | hrest | ⟨event, hrest⟩ <;> rw [hrest] <;> rfl

/-! ## Steps of a replay -/

/-- The record is pending, and where its event is missing a line can be written. `W` is what was
known when the call began: that the last line was ended. -/
structure Replaying (codec : JsonCodec) (iso : IsoFormat) (V : Contents) (W : Prop)
    (record : CommitRecord) (snapshot : SessionSnapshot) (files : RuntimeFiles) : Prop where
  sound : Sound codec iso files
  same : (visible iso files).Same V
  rows : files.commits.rows = [record]
  form : FormOf codec iso record.session snapshot
  whole : record.event.id ∉ files.journal.readable.map RuntimeEvent.id → files.journal.rest = []
  ended : W → files.journal.rest = []

theorem visible_pending (files : RuntimeFiles) {record : CommitRecord} {snapshot : SessionSnapshot}
    (hrows : files.commits.rows = [record]) (hform : FormOf codec iso record.session snapshot) :
    visible iso files
      = ⟨Function.update files.sessions snapshot.state.sessionId (some record.session),
          Journal.append files.journal.readable record.event⟩ := by
  simp only [visible, hrows, List.foldl_cons, List.foldl_nil, Contents.replay, hform.read]

theorem visible_settled (files : RuntimeFiles) (hrows : files.commits.rows = []) :
    visible iso files = ⟨files.sessions, files.journal.readable⟩ := by
  simp only [visible, hrows, List.foldl_nil]

section Replay

variable {V : Contents} {W : Prop} {record : CommitRecord} {snapshot : SessionSnapshot}
variable {files : RuntimeFiles}

theorem Replaying.session (h : Replaying codec iso V W record snapshot files) :
    Replaying codec iso V W record snapshot
      (files.setSession snapshot.state.sessionId record.session) where
  sound :=
    { h.sound with
      sessions := fun id document (hid : Function.update files.sessions
          snapshot.state.sessionId (some record.session) id = some document) => by
        by_cases heq : id = snapshot.state.sessionId
        · subst heq
          rw [Function.update_self] at hid
          cases hid
          exact ⟨snapshot, h.form, rfl⟩
        · rw [Function.update_of_ne heq] at hid
          exact h.sound.sessions id document hid
      commits := fun r hr => by
        have heq : r = record := by
          rw [RuntimeFiles.setSession_commits, Table.mem_def, h.rows, List.mem_singleton] at hr
          exact hr
        subst heq
        exact ⟨(h.sound.commits r hr).event, snapshot, snapshot, r.session, h.form,
          Function.update_self .., h.form, .inr rfl⟩ }
  same := by
    have hbefore := visible_pending _ h.rows h.form
    have hafter := visible_pending (files.setSession snapshot.state.sessionId record.session) h.rows h.form
    rw [hafter, RuntimeFiles.setSession_sessions, Function.update_idem]
    exact hbefore ▸ h.same
  rows := h.rows
  form := h.form
  whole := h.whole
  ended := h.ended

theorem Replaying.event (h : Replaying codec iso V W record snapshot files)
    (hmissing : record.event.id ∉ files.journal.readable.map RuntimeEvent.id) :
    Replaying codec iso V W record snapshot
      (files.setJournal (files.journal.append record.event)) where
  sound :=
    { h.sound with
      lines := lines_append h.sound (h.whole hmissing) record.event
      rest := .inl rfl }
  same := by
    have hbefore := visible_pending _ h.rows h.form
    have hafter := visible_pending (files.setJournal (files.journal.append record.event)) h.rows h.form
    rw [hafter, RuntimeFiles.setJournal_journal, readable_append (h.whole hmissing),
      append_of_mem (by simp), ← append_of_fresh hmissing]
    exact hbefore ▸ h.same
  rows := h.rows
  form := h.form
  whole := fun hno => by
    rw [RuntimeFiles.setJournal_journal, readable_append (h.whole hmissing)] at hno
    simp at hno
  ended := fun _ => rfl

theorem Replaying.discard (h : Replaying codec iso V W record snapshot files)
    (hstored : files.sessions snapshot.state.sessionId = some record.session)
    (hlogged : record.event.id ∈ files.journal.readable.map RuntimeEvent.id) :
    Sound codec iso (files.setCommits (files.commits.erase record.event.id)) ∧
      (visible iso (files.setCommits (files.commits.erase record.event.id))).Same V ∧
      (files.commits.erase record.event.id).rows = [] := by
  have hrows : (files.commits.erase record.event.id).rows = [] := by
    simp [Table.erase, h.rows]
  refine ⟨{ h.sound with commits := fun r hr => ?_, single := ?_ }, ?_, hrows⟩
  · rw [RuntimeFiles.setCommits_commits, Table.mem_def, hrows] at hr
    cases hr
  · rw [RuntimeFiles.setCommits_commits, hrows]
    exact Nat.zero_le 1
  · have hbefore := visible_pending _ h.rows h.form
    rw [append_of_mem hlogged, ← hstored, Function.update_eq_self] at hbefore
    have hafter : visible iso (files.setCommits (files.commits.erase record.event.id)) = _ :=
      visible_settled _ hrows
    rw [hafter]
    exact hbefore ▸ h.same

/-- A line that was cut short leaves the record pending. -/
theorem Replaying.tear (h : Replaying codec iso V W record snapshot files)
    (hmissing : record.event.id ∉ files.journal.readable.map RuntimeEvent.id) {t : Tear}
    (ht : t ≠ .insideCharacter) :
    Sound codec iso (files.setJournal (files.journal.tear record.event t)) ∧
      (visible iso (files.setJournal (files.journal.tear record.event t))).Same V := by
  obtain ⟨hrest, hread⟩ := readable_tear (h.whole hmissing) record.event ht
  have hbefore := visible_pending _ h.rows h.form
  have hafter := visible_pending (files.setJournal (files.journal.tear record.event t)) h.rows h.form
  refine ⟨{ h.sound with
    lines := by
      rw [RuntimeFiles.setJournal_journal, lines_tear]
      exact h.sound.lines
    rest := hrest }, ?_⟩
  rw [hafter, RuntimeFiles.setJournal_journal]
  rcases hread with hread | hread
  · rw [hread]
    exact hbefore ▸ h.same
  · rw [hread, append_of_mem (by simp), ← append_of_fresh hmissing]
    exact hbefore ▸ h.same

end Replay

/-! ## What a call keeps -/

abbrev Clean (t : Tear) : Prop := t ≠ .insideCharacter

/-- The files are sound and show `V`. -/
def Keeps (codec : JsonCodec) (iso : IsoFormat) (V : Contents) (run : FileRun) : Prop :=
  Sound codec iso run.files ∧ (visible iso run.files).Same V

section Replay

variable {V : Contents} {W : Prop} {record : CommitRecord} {snapshot : SessionSnapshot}

theorem Replaying.keeps {run : FileRun} (h : Replaying codec iso V W record snapshot run.files) :
    Keeps codec iso V run := ⟨h.sound, h.same⟩

theorem writeSnapshot_spec {s : SessionSnapshot}
    (hw : writeDocument codec iso s = .ok record.session)
    (hid : s.state.sessionId = snapshot.state.sessionId) :
    Program.Spec Clean (fun run => Replaying codec iso V W record snapshot run.files)
      (writeSnapshot codec iso s) (Keeps codec iso V)
      (fun _ run => Replaying codec iso V W record snapshot run.files ∧
        run.files.sessions snapshot.state.sessionId = some record.session)
      fun _ _ => False := by
  simp only [writeSnapshot, ofStore, hw, hid, Except.mapError, Program.ofExcept_ok_bind]
  exact .step (fun run h => h.keeps) (fun run t h _ => h.keeps)
    (fun run h => Replaying.keeps h.session)
    (fun run h => ⟨h.session, Function.update_self ..⟩)

theorem eventExists_run {run : FileRun} (h : Sound codec iso run.files) (eventId : EventId) :
    eventExists eventId run
      = ([], .ok (decide (eventId ∈ run.files.journal.readable.map RuntimeEvent.id))) := by
  rw [eventExists, Program.read_bind, h.decodes]
  rfl

/-- The snapshot of the record is stored, by this call or by the one that was stopped. -/
theorem recoverSnapshot_spec (hform : FormOf codec iso record.session snapshot) :
    Program.Spec Clean (fun run => Replaying codec iso V W record snapshot run.files)
      (recoverSnapshot codec iso snapshot) (Keeps codec iso V)
      (fun _ run => Replaying codec iso V W record snapshot run.files ∧
        run.files.sessions snapshot.state.sessionId = some record.session)
      fun _ _ => False := by
  refine .reading fun run h => ?_
  have hpending : PendingCommit codec iso run.files.sessions record :=
    h.sound.commits record (by rw [Table.mem_def, h.rows]; exact List.mem_singleton_self record)
  obtain ⟨t, stored, document, hread, hdocument, hstored, hstate⟩ := hpending.session
  obtain rfl : t = snapshot := Except.ok.inj (hread.read.symm.trans hform.read)
  simp only [hdocument, ofStore, hstored.read, Except.mapError, Program.ofExcept_ok_bind]
  split
  · exact (writeSnapshot_spec hform.write rfl).mono (fun _ hrun => hrun ▸ h) (fun _ h => h)
      (fun _ _ h => h) fun _ _ h => h
  · next hlt =>
      have heq : document = record.session := by
        rcases hstate with hversion | heq
        · omega
        · exact heq
      exact .ret (fun _ hrun => hrun ▸ h.keeps) fun _ hrun => hrun ▸ ⟨h, heq ▸ hdocument⟩

/-- The event of the record is in the journal, by this call or by the one that was stopped. -/
theorem recoverEvent_spec {event : RuntimeEvent} (hid : event.id = record.event.id)
    (hrecord : eventRecord codec event = .ok record.event) :
    Program.Spec Clean
      (fun run => Replaying codec iso V W record snapshot run.files ∧
        run.files.sessions snapshot.state.sessionId = some record.session)
      (appendEventIfMissing codec event) (Keeps codec iso V)
      (fun _ run => Replaying codec iso V W record snapshot run.files ∧
        run.files.sessions snapshot.state.sessionId = some record.session ∧
        record.event.id ∈ run.files.journal.readable.map RuntimeEvent.id)
      fun _ _ => False := by
  refine .each fun run h => ?_
  refine .lookup (fun _ hrun => by rw [hrun, eventExists_run h.1.sound event.id]) ?_
  rw [hid]
  split
  · next hmem =>
      exact .ret (fun _ hrun => hrun ▸ h.1.keeps) fun _ hrun =>
        hrun ▸ ⟨h.1, h.2, of_decide_eq_true hmem⟩
  · next hno =>
      have hmissing := of_decide_eq_false (Bool.eq_false_iff.mpr hno)
      simp only [ofStore, hrecord, Except.mapError, Program.ofExcept_ok_bind]
      refine .step ?_ ?_ ?_ ?_
      · rintro _ rfl
        exact h.1.keeps
      · rintro _ t rfl ht
        exact h.1.tear hmissing ht
      · rintro run rfl
        exact Replaying.keeps (h.1.event hmissing)
      · rintro run rfl
        refine ⟨h.1.event hmissing, h.2, ?_⟩
        change record.event.id ∈ (run.files.journal.append record.event).readable.map _
        rw [readable_append (h.1.whole hmissing)]
        simp

structure Settled (codec : JsonCodec) (iso : IsoFormat) (V : Contents) (W : Prop)
    (files : RuntimeFiles) : Prop where
  sound : Sound codec iso files
  same : (visible iso files).Same V
  rows : files.commits.rows = []
  ended : W → files.journal.rest = []

theorem Settled.keeps {run : FileRun} (h : Settled codec iso V W run.files) :
    Keeps codec iso V run := ⟨h.sound, h.same⟩

/-- A step that leaves the files keeps what they show. -/
theorem Settled.keepsAt {run : FileRun} {files : RuntimeFiles} (h : Settled codec iso V W files)
    (hrun : run.files = files) : Keeps codec iso V run := by
  subst hrun
  exact h.keeps

theorem discard_spec :
    Program.Spec Clean
      (fun run => Replaying codec iso V W record snapshot run.files ∧
        run.files.sessions snapshot.state.sessionId = some record.session ∧
        record.event.id ∈ run.files.journal.readable.map RuntimeEvent.id)
      (.write (.discard record.event.id) : FileProgram PUnit) (Keeps codec iso V)
      (fun _ run => Settled codec iso V W run.files) fun _ _ => False := by
  refine .step (fun _ h => h.1.keeps) (fun _ _ h _ => h.1.keeps) ?_ ?_
  · intro run h
    obtain ⟨hsound, hsame, -⟩ := h.1.discard h.2.1 h.2.2
    exact ⟨hsound, hsame⟩
  · intro run h
    obtain ⟨hsound, hsame, hrows⟩ := h.1.discard h.2.1 h.2.2
    exact ⟨hsound, hsame, hrows, h.1.ended⟩

theorem recoverCommit_spec (hform : FormOf codec iso record.session snapshot)
    (hrecord : Recorded codec record.event) :
    Program.Spec Clean (fun run => Replaying codec iso V W record snapshot run.files)
      (recoverCommit codec iso record) (Keeps codec iso V)
      (fun _ run => Settled codec iso V W run.files) fun _ _ => False := by
  simp only [recoverCommit, ofStore, hform.read, Except.mapError, Program.ofExcept_ok_bind]
  exact .bind (recoverSnapshot_spec hform) fun _ =>
    .bind (recoverEvent_spec rfl hrecord) fun _ => discard_spec

end Replay

def PendingLine (files : RuntimeFiles) : Prop :=
  ∃ record ∈ files.commits, record.event.id ∉ files.journal.readable.map RuntimeEvent.id

/-- The files show `V`, and where a replay writes a line, it can. -/
structure Ready (codec : JsonCodec) (iso : IsoFormat) (V : Contents) (W : Prop)
    (files : RuntimeFiles) : Prop where
  sound : Sound codec iso files
  same : (visible iso files).Same V
  whole : PendingLine files → files.journal.rest = []
  ended : W → files.journal.rest = []

/-- **Recovery.** The pending commit is replayed, and what the files show stays as it is. -/
theorem recoverCommits_spec :
    Program.Spec Clean (fun run => Ready codec iso V W run.files) (recoverCommits codec iso)
      (Keeps codec iso V) (fun _ run => Settled codec iso V W run.files) fun _ _ => False := by
  refine .reading fun run h => ?_
  rcases hrows : run.files.commits.rows with _ | ⟨record, _ | ⟨record', records⟩⟩
  · simp only [RuntimeFiles.commitRecords, hrows, List.insertionSort_nil, recoverEach]
    refine .ret ?_ ?_
    · rintro _ rfl
      exact ⟨h.sound, h.same⟩
    · rintro _ rfl
      exact ⟨h.sound, h.same, hrows, h.ended⟩
  · have hmem : record ∈ run.files.commits := by
      rw [Table.mem_def, hrows]
      exact List.mem_singleton_self record
    obtain ⟨hrecorded, snapshot, -, -, hform, -⟩ := h.sound.commits record hmem
    have hreplaying : Replaying codec iso V W record snapshot run.files :=
      ⟨h.sound, h.same, hrows, hform, fun hno => h.whole ⟨record, hmem, hno⟩, h.ended⟩
    simp only [RuntimeFiles.commitRecords, hrows, List.insertionSort_cons, List.insertionSort_nil,
      List.orderedInsert_nil, recoverEach]
    refine .bind ((recoverCommit_spec hform hrecorded).mono (fun _ hrun => hrun ▸ hreplaying)
      (fun _ hk => hk) (fun _ _ hk => hk) fun _ _ hk => hk) fun _ => ?_
    exact .ret (fun _ hk => hk.keeps) fun _ hk => hk
  · have := h.sound.single
    rw [hrows] at this
    simp at this

/-! ## Calls -/

theorem visible_setJournal {files : RuntimeFiles}
    (h : j.readable = files.journal.readable) :
    visible iso (files.setJournal j) = visible iso files := by
  simp only [visible, RuntimeFiles.setJournal_commits, RuntimeFiles.setJournal_sessions,
    RuntimeFiles.setJournal_journal, h]

/-- What the journal holds is shown, and so is a pending event that it does not hold yet. -/
theorem mem_visible {files : RuntimeFiles}
    (h : e ∈ files.journal.readable) : e ∈ (visible iso files).events := by
  have hfold : ∀ (rows : List CommitRecord) (c : Contents), e ∈ c.events →
      e ∈ (rows.foldl (Contents.replay iso) c).events := by
    intro rows
    induction rows with
    | nil => exact fun _ hc => hc
    | cons r rows ih => exact fun c hc => ih _ (mem_append_of_mem hc)
  exact hfold _ _ h

theorem Sound.pending_visible {files : RuntimeFiles} (h : Sound codec iso files)
    {record : CommitRecord} (hr : record ∈ files.commits)
    (hmissing : record.event.id ∉ files.journal.readable.map RuntimeEvent.id) :
    record.event ∈ (visible iso files).events := by
  obtain ⟨-, t, -, -, ht, -⟩ := h.commits record hr
  rw [visible_pending _ (h.rows_of_mem hr) ht, append_of_fresh hmissing]
  simp

def NotPending (codec : JsonCodec) (iso : IsoFormat) (files : RuntimeFiles) (id : SessionId) :
    Prop :=
  ∀ record ∈ files.commits, ∀ t, FormOf codec iso record.session t → t.state.sessionId ≠ id

theorem Settled.notPending {run : FileRun} {files : RuntimeFiles}
    (h : Settled codec iso V W files) (hrun : run.files = files) (id : SessionId) :
    NotPending codec iso run.files id := by
  intro record hr
  rw [hrun, Table.mem_def, h.rows] at hr
  cases hr

variable {s : SessionSnapshot} {document : Document} {input : FileCall × Option (Cut Tear)}

/-- A session is stored that no pending record is of. -/
theorem Sound.put {files : RuntimeFiles} (h : Sound codec iso files)
    (hc : Coherent s) (hw : writeDocument codec iso s = .ok document)
    (hother : NotPending codec iso files s.state.sessionId) :
    Sound codec iso (files.setSession s.state.sessionId document) ∧
      visible iso (files.setSession s.state.sessionId document)
        = (visible iso files).put codec iso s := by
  obtain ⟨read, hform, hid, -⟩ := formOf_write hc hw
  constructor
  · refine { h with sessions := ?_, commits := ?_ }
    · intro id d (hd : Function.update files.sessions _ _ id = some d)
      by_cases heq : id = s.state.sessionId
      · subst heq
        rw [Function.update_self] at hd
        cases hd
        exact ⟨read, hform, hid⟩
      · rw [Function.update_of_ne heq] at hd
        exact h.sessions id d hd
    · intro record hr
      obtain ⟨hrecorded, t, stored, d, ht, hd, hstored, hstate⟩ := h.commits record hr
      refine ⟨hrecorded, t, stored, d, ht, ?_, hstored, hstate⟩
      rw [RuntimeFiles.setSession_sessions, Function.update_of_ne (hother record hr t ht)]
      exact hd
  · rcases hrows : files.commits.rows with _ | ⟨record, _ | ⟨record', records⟩⟩
    · rw [visible_settled _ hrows,
        visible_settled (files.setSession s.state.sessionId document) hrows]
      simp only [Contents.put, hw, RuntimeFiles.setSession_sessions, RuntimeFiles.setSession_journal]
    · have hmem : record ∈ files.commits := by
        rw [Table.mem_def, hrows]
        exact List.mem_singleton_self record
      obtain ⟨-, t, -, -, ht, -⟩ := h.commits record hmem
      rw [visible_pending _ hrows ht,
        visible_pending (files.setSession s.state.sessionId document) hrows ht]
      simp only [Contents.put, hw, RuntimeFiles.setSession_sessions, RuntimeFiles.setSession_journal]
      rw [Function.update_comm (hother record hmem t ht)]
    · have := h.single
      rw [hrows] at this
      simp at this

/-- An event is added to the journal: a pending record of the same id is of the same event. -/
theorem Sound.add {files : RuntimeFiles} (h : Sound codec iso files)
    (hmissing : line.id ∉ files.journal.readable.map RuntimeEvent.id)
    (hsame : ∀ record ∈ files.commits, record.event.id = line.id → record.event = line)
    {journal : JournalFile} (hlines : ∀ l ∈ journal.lines, ∃ event, l = [.event event])
    (hrest : journal.rest = [] ∨ journal.rest = [.beginning] ∨
      ∃ event, journal.rest = [.event event])
    (hread : journal.readable = files.journal.readable ++ [line]) :
    Sound codec iso (files.setJournal journal) ∧
      (visible iso (files.setJournal journal)).Same
        ⟨(visible iso files).sessions, Journal.append (visible iso files).events line⟩ := by
  refine ⟨{ h with lines := hlines, rest := hrest }, ?_⟩
  rw [← append_of_fresh hmissing] at hread
  rcases hrows : files.commits.rows with _ | ⟨record, _ | ⟨record', records⟩⟩
  · rw [visible_settled _ hrows, visible_settled (files.setJournal journal) hrows]
    exact ⟨rfl, hread ▸ .refl _⟩
  · have hmem : record ∈ files.commits := by
      rw [Table.mem_def, hrows]
      exact List.mem_singleton_self record
    obtain ⟨-, t, -, -, ht, -⟩ := h.commits record hmem
    rw [visible_pending _ hrows ht, visible_pending (files.setJournal journal) hrows ht]
    refine ⟨rfl, ?_⟩
    rw [RuntimeFiles.setJournal_journal, hread]
    exact append_comm _ fun hid => (hsame record hmem hid.symm).symm
  · have := h.single
    rw [hrows] at this
    simp at this

theorem storedSnapshot_none {run : FileRun} {id : SessionId} (h : run.files.sessions id = none) :
    storedSnapshot iso id run = ([], .error (.store .notFound)) := by
  rw [storedSnapshot, Program.read_bind]
  simp only [h]
  rfl

theorem storedSnapshot_some {run : FileRun} {id : SessionId}
    {stored : SessionSnapshot} (h : run.files.sessions id = some document)
    (hform : FormOf codec iso document stored) :
    storedSnapshot iso id run = ([], .ok stored) := by
  rw [storedSnapshot, Program.read_bind]
  simp only [h, ofStore, hform.read]
  rfl

theorem store_spec (hc : Coherent s) :
    Program.Spec Clean
      (fun run => Keeps codec iso V run ∧ NotPending codec iso run.files s.state.sessionId)
      (writeSnapshot codec iso s)
      (fun run => Keeps codec iso V run ∨ Keeps codec iso (V.put codec iso s) run)
      (fun _ run => Keeps codec iso (V.put codec iso s) run)
      fun _ run => Keeps codec iso V run := by
  unfold writeSnapshot
  cases hw : writeDocument codec iso s with
  | error e =>
    exact .fail (fun _ _ => rfl) (fun _ h => .inl h.1) fun _ h => h.1
  | ok document =>
    have hput : ∀ run : FileRun, Keeps codec iso V run ∧
        NotPending codec iso run.files s.state.sessionId →
        Keeps codec iso (V.put codec iso s)
          (Storage.apply run (.session s.state.sessionId document)) := by
      intro run h
      obtain ⟨hsound, hvisible⟩ := h.1.1.put hc hw h.2
      exact ⟨hsound, hvisible ▸ h.1.2.put s⟩
    exact .step (fun _ h => .inl h.1) (fun _ _ h _ => .inl h.1) (fun run h => .inr (hput run h))
      hput

theorem create_spec (hc : Coherent s) :
    Program.Spec Clean (Keeps codec iso V) (createFile codec iso s)
      (fun run => Keeps codec iso V run ∨ Keeps codec iso (V.perform codec iso (.create s)) run)
      (fun _ run => Keeps codec iso (V.perform codec iso (.create s)) run)
      fun _ run => Keeps codec iso V run := by
  refine .reading fun run h => ?_
  cases hid : run.files.sessions s.state.sessionId with
  | some document =>
    exact .value (fun _ hrun => hrun ▸ .inl h) (fun _ hx => nomatch hx)
      fun _ _ _ hrun => hrun ▸ h
  | none =>
    -- no record can be pending of a session that there is not
    have hother : NotPending codec iso run.files s.state.sessionId := by
      intro record hr t ht heq
      obtain ⟨-, t', stored, d, ht', hd, -⟩ := h.1.commits record hr
      obtain rfl : t' = t := Except.ok.inj (ht'.read.symm.trans ht.read)
      rw [heq, hid] at hd
      cases hd
    refine .bind (Q := fun _ r => Keeps codec iso V r ∧
      NotPending codec iso r.files s.state.sessionId) (.step ?_ ?_ ?_ ?_)
      fun _ => store_spec (hc.withVersion 0)
    · rintro _ rfl
      exact .inl h
    · rintro _ t rfl -
      exact .inl h
    · rintro run rfl
      exact .inl h
    · rintro run rfl
      exact ⟨h, hother⟩

theorem nextVersion_spec (files : RuntimeFiles) (s stored : SessionSnapshot) :
    Program.Spec Clean (fun run => run.files = files) (nextVersion s stored)
      (fun run => run.files = files)
      (fun next run => s.version = stored.version ∧ next = { s with version := s.version + 1 } ∧
        run.files = files)
      fun _ run => run.files = files := by
  unfold nextVersion
  split
  · exact .value (fun _ h => h) (fun _ hx => nomatch hx) fun _ _ _ h => h
  · next heq =>
      rw [not_not] at heq
      rw [← heq]
      refine .bind (.step (Q := fun _ run => run.files = files) (fun _ h => h) (fun _ _ h _ => h)
        (fun _ h => h) fun _ h => h) fun _ => ?_
      exact .ret (fun _ h => h) fun _ h => ⟨rfl, rfl, h⟩

theorem save_spec (hc : Coherent s) :
    Program.Spec Clean (fun run => Ready codec iso V W run.files) (saveFile codec iso s)
      (fun run => Keeps codec iso V run ∨ Keeps codec iso (V.perform codec iso (.save s)) run)
      (fun _ run => Keeps codec iso (V.perform codec iso (.save s)) run)
      fun _ run => Keeps codec iso V run := by
  refine .bind (recoverCommits_spec.mono (fun _ h => h) (fun _ h => .inl h) (fun _ _ h => h)
    fun _ _ h => h.elim) fun _ => .each fun run h => ?_
  cases hid : run.files.sessions s.state.sessionId with
  | none =>
    exact .fail (fun _ hrun => hrun ▸ storedSnapshot_none hid) (fun _ hrun => hrun ▸ .inl h.keeps)
      fun _ hrun => hrun ▸ h.keeps
  | some document =>
    obtain ⟨stored, hform, -⟩ := h.sound.sessions _ _ hid
    refine .lookup (fun _ hrun => hrun ▸ storedSnapshot_some hid hform) ?_
    refine .bind ((nextVersion_spec run.files s stored).mono (fun _ hrun => hrun ▸ rfl)
      (fun r hr => .inl (h.keepsAt hr)) (fun _ _ hq => hq) fun _ r hr => h.keepsAt hr) fun next => ?_
    refine .each fun r hr => ?_
    obtain ⟨-, rfl, hr⟩ := hr
    refine (store_spec (hc.withVersion _)).mono ?_ (fun _ h => h) (fun _ _ h => h) fun _ _ h => h
    rintro _ rfl
    exact ⟨h.keepsAt hr, h.notPending hr _⟩

theorem append_spec (event : RuntimeEvent) :
    Program.Spec Clean
      (fun run => Keeps codec iso V run ∧
        (event.id ∉ run.files.journal.readable.map RuntimeEvent.id → run.files.journal.rest = []) ∧
        ∀ e ∈ (visible iso run.files).events, e.id = event.id → eventRecord codec event = .ok e)
      (appendEventIfMissing codec event)
      (fun run => Keeps codec iso V run ∨ Keeps codec iso (V.add codec event) run)
      (fun _ run => Keeps codec iso (V.add codec event) run ∧
        ∃ line, eventRecord codec event = .ok line)
      fun _ run => Keeps codec iso V run := by
  refine .each fun run ⟨h, hwhole, hsame⟩ => ?_
  refine .lookup (fun _ hrun => by rw [hrun, eventExists_run h.1 event.id]) ?_
  split
  · next hmem =>
      obtain ⟨e, he, hid⟩ := List.mem_map.mp (of_decide_eq_true hmem)
      have hid' : event.id ∈ V.events.map RuntimeEvent.id :=
        (h.2.events.map RuntimeEvent.id).mem_iff.mp
          (List.mem_map.mpr ⟨e, mem_visible he, hid⟩)
      rw [Contents.add_of_mem hid']
      have hrecord := hsame e (mem_visible he) hid
      exact .ret (fun _ hrun => hrun ▸ .inl h) fun _ hrun => hrun ▸ ⟨h, e, hrecord⟩
  · next hno =>
      have hmissing := of_decide_eq_false (Bool.eq_false_iff.mpr hno)
      cases hrecord : eventRecord codec event with
      | error e =>
        exact .fail (fun _ _ => rfl) (fun _ hrun => hrun ▸ .inl h) fun _ hrun => hrun ▸ h
      | ok line =>
        obtain ⟨-, hid⟩ := recorded_of_record hrecord
        have hadd : ∀ journal : JournalFile, (∀ l ∈ journal.lines, ∃ e, l = [.event e]) →
            (journal.rest = [] ∨ journal.rest = [.beginning] ∨ ∃ e, journal.rest = [.event e]) →
            journal.readable = run.files.journal.readable ++ [line] →
            Keeps codec iso (V.add codec event) ⟨run.files.setJournal journal, run.version⟩ := by
          intro journal hlines hrest hread
          have hclash : ∀ record ∈ run.files.commits, record.event.id = line.id →
              record.event = line := by
            intro record hr hclash
            have hvisible := h.1.pending_visible hr (by rw [hclash, hid]; exact hmissing)
            have := hsame record.event hvisible (hclash.trans hid)
            exact Except.ok.inj (this.symm.trans hrecord)
          obtain ⟨hsound, hshown⟩ :=
            h.1.add (hid ▸ hmissing) hclash hlines hrest hread
          refine ⟨hsound, hshown.trans ?_⟩
          have : ((visible iso run.files).add codec event).Same (V.add codec event) :=
            h.2.add event
          rw [Contents.add, hrecord] at this
          exact this
        refine .step ?_ ?_ ?_ ?_
        · rintro _ rfl
          exact .inl h
        · rintro run t rfl ht
          obtain ⟨hrest, hread⟩ := readable_tear (hwhole hmissing) line ht
          have hlines : ∀ l ∈ (run.files.journal.tear line t).lines, ∃ e, l = [.event e] := by
            rw [lines_tear]
            exact h.1.lines
          rcases hread with hread | hread
          · exact .inl ⟨{ h.1 with lines := hlines, rest := hrest }, by
              rw [show (Storage.tear run (FileStep.event line) t).files
                = run.files.setJournal (run.files.journal.tear line t) from rfl,
                visible_setJournal hread]
              exact h.2⟩
          · exact .inr (hadd _ hlines hrest hread)
        · rintro run rfl
          exact .inr (hadd _ (lines_append h.1 (hwhole hmissing) line) (.inl rfl)
            (readable_append (hwhole hmissing) line))
        · rintro run rfl
          exact ⟨hadd _ (lines_append h.1 (hwhole hmissing) line) (.inl rfl)
            (readable_append (hwhole hmissing) line), line, rfl⟩

/-- The commit record is put in place: from here on, the call is done. -/
theorem Settled.commit {files : RuntimeFiles}
    (h : Settled codec iso V W files) (hW : W) {s stored : SessionSnapshot} {event : RuntimeEvent}
    {old document : Document} (hc : Coherent s)
    (hold : files.sessions s.state.sessionId = some old) (hstored : FormOf codec iso old stored)
    (hversion : s.version = stored.version)
    (hw : writeDocument codec iso { s with version := s.version + 1 } = .ok document)
    (hrecord : eventRecord codec event = .ok line) :
    ∃ snapshot, snapshot.state.sessionId = s.state.sessionId ∧
      Replaying codec iso (V.perform codec iso (.commit s event)) W ⟨document, line⟩ snapshot
        (files.setCommits (files.commits.put ⟨document, line⟩)) := by
  obtain ⟨snapshot, hform, hid, hnext⟩ := formOf_write (hc.withVersion _) hw
  obtain ⟨hline, hlid⟩ := recorded_of_record hrecord
  have hrows : (files.setCommits (files.commits.put ⟨document, line⟩)).commits.rows
      = [⟨document, line⟩] := by
    simp [Table.put, h.rows]
  refine ⟨snapshot, hid,
    { sound := { h.sound with commits := fun r hr => ?_, single := by rw [hrows]; exact le_rfl }
      same := ?_
      rows := hrows
      form := hform
      whole := fun _ => h.ended hW
      ended := h.ended }⟩
  · rw [Table.mem_def, hrows, List.mem_singleton] at hr
    subst hr
    refine ⟨hline, snapshot, stored, old, hform, ?_, hstored, .inl ?_⟩
    · rw [hid]
      exact hold
    · rw [hnext]
      exact congrArg (· + 1) hversion.symm
  · rw [visible_pending _ hrows hform]
    have hbefore := h.same
    rw [visible_settled _ h.rows] at hbefore
    have hperform : (Contents.perform codec iso _ (.commit s event)).Same
        (V.perform codec iso (.commit s event)) := hbefore.perform (.commit s event)
    simp only [Contents.perform, Contents.put, hw, Contents.add, hrecord] at hperform ⊢
    rw [hid]
    exact hperform

/-- A commit record of the two is in place, and nothing else is new. -/
def CommitWritten (codec : JsonCodec) (iso : IsoFormat) (s : SessionSnapshot)
    (event : RuntimeEvent) (files : RuntimeFiles) (run : FileRun) : Prop :=
  ∃ document line, writeDocument codec iso s = .ok document ∧ eventRecord codec event = .ok line ∧
    run.files = files.setCommits (files.commits.put ⟨document, line⟩)

theorem writeCommit_spec (files : RuntimeFiles) (s : SessionSnapshot) (event : RuntimeEvent) :
    Program.Spec Clean (fun run => run.files = files) (writeCommit codec iso s event)
      (fun run => run.files = files ∨ CommitWritten codec iso s event files run)
      (fun _ run => CommitWritten codec iso s event files run) fun _ run => run.files = files := by
  unfold writeCommit
  cases hw : writeDocument codec iso s with
  | error e => exact .fail (fun _ _ => rfl) (fun _ h => .inl h) fun _ h => h
  | ok document =>
    refine .lookup (a := document) (fun _ _ => rfl) ?_
    cases hrecord : eventRecord codec event with
    | error e => exact .fail (fun _ _ => rfl) (fun _ h => .inl h) fun _ h => h
    | ok line =>
      refine .lookup (a := line) (fun _ _ => rfl) ?_
      have hwritten : ∀ run : FileRun, run.files = files →
          CommitWritten codec iso s event files
            (Storage.apply run (.commit ⟨document, line⟩)) := by
        rintro run rfl
        exact ⟨document, line, hw, hrecord, rfl⟩
      exact .step (fun _ h => .inl h) (fun _ _ h _ => .inl h)
        (fun run h => .inr (hwritten run h)) hwritten

theorem applyCommit_spec {s snapshot : SessionSnapshot}
    {event line : RuntimeEvent}
    (hid : snapshot.state.sessionId = s.state.sessionId)
    (hw : writeDocument codec iso s = .ok document) (hrecord : eventRecord codec event = .ok line) :
    Program.Spec Clean
      (fun run => Replaying codec iso V W ⟨document, line⟩ snapshot run.files)
      (do
        writeSnapshot codec iso s
        appendEventIfMissing codec event
        .write (.discard event.id) : FileProgram PUnit)
      (Keeps codec iso V) (fun _ run => Settled codec iso V W run.files) fun _ _ => False := by
  have hlid : event.id = line.id := (recorded_of_record hrecord).2.symm
  rw [hlid]
  exact .bind (writeSnapshot_spec hw hid.symm) fun _ =>
    .bind (recoverEvent_spec hlid hrecord) fun _ => discard_spec

theorem commit_spec {event : RuntimeEvent}
    (hc : Coherent s) (hW : event.id ∉ V.events.map RuntimeEvent.id → W) :
    Program.Spec Clean (fun run => Ready codec iso V W run.files) (commitFile codec iso s event)
      (fun run => Keeps codec iso V run ∨
        Keeps codec iso (V.perform codec iso (.commit s event)) run)
      (fun _ run => Keeps codec iso (V.perform codec iso (.commit s event)) run ∧
        ∃ line, eventRecord codec event = .ok line)
      fun _ run => Keeps codec iso V run := by
  refine .bind (recoverCommits_spec.mono (fun _ h => h) (fun _ h => .inl h) (fun _ _ h => h)
    fun _ _ h => h.elim) fun _ => .reading fun run h => ?_
  split
  · exact .value (fun _ hrun => .inl (hrun ▸ h.keeps)) (fun _ hx => nomatch hx)
      fun _ _ _ hrun => hrun ▸ h.keeps
  · next hsome =>
      obtain ⟨old, hold⟩ := Option.ne_none_iff_exists'.mp hsome
      obtain ⟨stored, hstored, -⟩ := h.sound.sessions _ _ hold
      refine .lookup (fun _ hrun => by rw [hrun, eventExists_run h.sound event.id]) ?_
      split
      · exact .value (fun _ hrun => .inl (hrun ▸ h.keeps)) (fun _ hx => nomatch hx)
          fun _ _ _ hrun => hrun ▸ h.keeps
      · next hno =>
          have hmissing := of_decide_eq_false (Bool.eq_false_iff.mpr hno)
          have hended : W := by
            have hsame := h.same
            rw [visible_settled _ h.rows] at hsame
            exact hW ((hsame.events.map RuntimeEvent.id).mem_iff.not.mp hmissing)
          refine .lookup (fun _ hrun => hrun ▸ storedSnapshot_some hold hstored) ?_
          refine .bind ((nextVersion_spec run.files s stored).mono
            (fun _ hrun => hrun ▸ rfl) (fun r hr => .inl (h.keepsAt hr)) (fun _ _ hq => hq)
            fun _ r hr => h.keepsAt hr) fun next => .each fun r hr => ?_
          obtain ⟨hversion, rfl, hr⟩ := hr
          have hnone : ¬ run.files.commits.get? event.id ≠ none := by
            simp [Table.get?, h.rows]
          rw [if_neg hnone]
          have hreplaying : ∀ r' : FileRun,
              CommitWritten codec iso { s with version := s.version + 1 } event run.files r' →
              ∃ document line snapshot, snapshot.state.sessionId = s.state.sessionId ∧
                writeDocument codec iso { s with version := s.version + 1 } = .ok document ∧
                eventRecord codec event = .ok line ∧
                Replaying codec iso (V.perform codec iso (.commit s event)) W ⟨document, line⟩
                  snapshot r'.files := by
            rintro r' ⟨document, line, hw, hrecord, hr'⟩
            obtain ⟨snapshot, hid, hreplaying⟩ :=
              h.commit hended hc hold hstored hversion hw hrecord
            exact ⟨document, line, snapshot, hid, hw, hrecord, hr' ▸ hreplaying⟩
          refine .bind ((writeCommit_spec run.files { s with version := s.version + 1 }
            event).mono (fun _ hrun => hrun ▸ hr) ?_ (fun _ _ hq => hq)
            fun _ r' hr' => h.keepsAt hr') fun _ => .each fun r' hr' => ?_
          · rintro r' (hr' | hr')
            · exact .inl (h.keepsAt hr')
            · obtain ⟨document, line, snapshot, -, -, -, hpending⟩ := hreplaying r' hr'
              exact .inr hpending.keeps
          · obtain ⟨document, line, snapshot, hid, hw, hrecord, hpending⟩ := hreplaying r' hr'
            exact (applyCommit_spec (s := { s with version := s.version + 1 }) hid hw
              hrecord).mono (fun _ hrun => hrun ▸ hpending) (fun _ hk => .inr hk)
              (fun _ _ hk => ⟨hk.keeps, line, hrecord⟩) fun _ _ hf => hf.elim

theorem load_spec (id : SessionId) :
    Program.Spec Clean (fun run => Ready codec iso V W run.files) (loadFile codec iso id)
      (Keeps codec iso V) (fun _ run => Keeps codec iso V run)
      fun _ run => Keeps codec iso V run := by
  refine .bind (recoverCommits_spec.mono (fun _ h => h) (fun _ h => h) (fun _ _ h => h)
    fun _ _ h => h.elim) fun _ => .reading fun run h => ?_
  split
  · exact .value (fun _ hrun => hrun ▸ h.keeps) (fun _ hx => nomatch hx)
      fun _ _ _ hrun => hrun ▸ h.keeps
  · exact .value (fun _ hrun => hrun ▸ h.keeps) (fun _ _ _ hrun => hrun ▸ h.keeps)
      fun _ _ _ hrun => hrun ▸ h.keeps

/-- `list_events`, which does not fail on sound files. -/
theorem listEvents_spec :
    Program.Spec Clean (fun run => Ready codec iso V W run.files) (listEvents codec iso)
      (Keeps codec iso V) (fun _ run => Settled codec iso V W run.files) fun _ _ => False := by
  refine .bind recoverCommits_spec fun _ => .each fun run h => ?_
  refine .lookup (a := run.files.journal.readable) ?_ ?_
  · rintro _ rfl
    rw [allEvents, Program.read_bind, h.sound.decodes]
    rfl
  · exact .ret (fun _ hrun => hrun ▸ h.keeps) fun _ hrun => hrun ▸ h

/-! ## Runs -/

def FileCall.snapshot? : FileCall → Option SessionSnapshot
  | .create snapshot | .save snapshot | .commit snapshot _ => some snapshot
  | .load _ | .append _ | .all | .listEvents => none

def FileCall.event? : FileCall → Option RuntimeEvent
  | .commit _ event | .append event => some event
  | .create _ | .load _ | .save _ | .all | .listEvents => none

/-- The call writes a line, for a record that is pending or of its own. -/
def AppendsLine (files : RuntimeFiles) : FileCall → Prop
  | .create _ | .all => False
  | .load _ | .save _ | .listEvents => PendingLine files
  | .commit _ event =>
    PendingLine files ∨ event.id ∉ files.journal.readable.map RuntimeEvent.id
  | .append event => event.id ∉ files.journal.readable.map RuntimeEvent.id

/-- A call that recovery can deal with: it writes a line only where the last one was ended, it is
not stopped inside a character, its snapshot is coherent, and the id of its event is not another
event's. -/
structure Recoverable (codec : JsonCodec) (iso : IsoFormat) (files : RuntimeFiles)
    (input : FileCall × Option (Cut Tear)) : Prop where
  whole : AppendsLine files input.1 → files.journal.rest = []
  clean : ∀ cut ∈ input.2, Clean cut.tear
  coherent : ∀ snapshot ∈ input.1.snapshot?, Coherent snapshot
  sameEvent : ∀ event ∈ input.1.event?, ∀ e ∈ (visible iso files).events, e.id = event.id →
    eventRecord codec event = .ok e

/-- What any call keeps, and what one that returns has done. -/
theorem call_spec {files : RuntimeFiles}
    (hs : Sound codec iso files) (hV : (visible iso files).Same V)
    (hc : Recoverable codec iso files input) :
    Program.Spec Clean (fun run => run.files = files) (fileProgram codec iso input.1)
      (fun run => Keeps codec iso V run ∨ Keeps codec iso (V.perform codec iso input.1) run)
      (fun _ run => Keeps codec iso (V.perform codec iso input.1) run ∧
        ∀ event ∈ input.1.event?, ∃ line, eventRecord codec event = .ok line)
      fun _ run => Keeps codec iso V run := by
  obtain ⟨call, cut⟩ := input
  have hready : ∀ run : FileRun, run.files = files → (PendingLine files → files.journal.rest = []) →
      Ready codec iso V (files.journal.rest = []) run.files := by
    rintro run rfl hwhole
    exact ⟨hs, hV, hwhole, id⟩
  have hkeeps : ∀ run : FileRun, run.files = files → Keeps codec iso V run := by
    rintro run rfl
    exact ⟨hs, hV⟩
  cases call with
  | create s =>
    refine .answer ((create_spec (hc.coherent s rfl)).mono hkeeps (fun _ h => h) ?_ fun _ _ h => h)
      (fun _ h => .inr h.1) _
    exact fun _ _ h => ⟨h, fun _ he => nomatch he⟩
  | load id =>
    refine .answer ((load_spec id).mono (fun run hrun => hready run hrun hc.whole)
      (fun _ h => .inl h) ?_ fun _ _ h => h) (fun _ h => .inr h.1) _
    exact fun _ _ h => ⟨h, fun _ he => nomatch he⟩
  | save s =>
    refine .answer ((save_spec (hc.coherent s rfl)).mono (fun run hrun => hready run hrun hc.whole)
      (fun _ h => h) ?_ fun _ _ h => h) (fun _ h => .inr h.1) _
    exact fun _ _ h => ⟨h, fun _ he => nomatch he⟩
  | commit s event =>
    have hW : event.id ∉ V.events.map RuntimeEvent.id → files.journal.rest = [] := by
      intro hmissing
      refine hc.whole (.inr fun hmem => hmissing ?_)
      obtain ⟨e, he, hid⟩ := List.mem_map.mp hmem
      exact (hV.events.map RuntimeEvent.id).mem_iff.mp
        (List.mem_map.mpr ⟨e, mem_visible he, hid⟩)
    refine .answer ((commit_spec (hc.coherent s rfl) hW).mono
      (fun run hrun => hready run hrun fun h => hc.whole (.inl h)) (fun _ h => h) ?_
      fun _ _ h => h) (fun _ h => .inr h.1) _
    rintro _ run ⟨h, hline⟩
    exact ⟨h, fun e he => Option.some.inj he ▸ hline⟩
  | append event =>
    refine .answer ((append_spec (V := V) event).mono ?_ (fun _ h => h) ?_
      fun _ _ h => h) (fun _ h => .inr h.1) _
    · rintro run rfl
      exact ⟨⟨hs, hV⟩, hc.whole, hc.sameEvent event rfl⟩
    · rintro _ run ⟨h, hline⟩
      exact ⟨h, fun e he => Option.some.inj he ▸ hline⟩
  | all =>
    refine .answer (p := allEvents) (.reading fun run hrun => ?_) (fun _ h => .inr h.1) _
    refine .value ?_ ?_ ?_
    · rintro _ rfl
      exact .inl (hkeeps _ hrun)
    · rintro _ - _ rfl
      exact ⟨hkeeps _ hrun, fun _ he => nomatch he⟩
    · rintro _ - _ rfl
      exact hkeeps _ hrun
  | listEvents =>
    refine .answer ((listEvents_spec (V := V)).mono (fun run hrun => hready run hrun hc.whole)
      (fun _ h => .inl h) ?_ fun _ _ h => h.elim) (fun _ h => .inr h.1) _
    exact fun _ _ h => ⟨h.keeps, fun _ he => nomatch he⟩

/-- How a call leaves the store: done where it returns, as it was where it raises, and one of the
two where it is stopped. -/
theorem step_spec {files : RuntimeFiles}
    (hs : Sound codec iso files) (hV : (visible iso files).Same V)
    (hc : Recoverable codec iso files input) :
    Sound codec iso ((fileMachine codec iso).step files input).2 ∧
      match ((fileMachine codec iso).step files input).1 with
      | some (.ok _) =>
        (visible iso ((fileMachine codec iso).step files input).2).Same
            (V.perform codec iso input.1) ∧
          ∀ event ∈ input.1.event?, ∃ line, eventRecord codec event = .ok line
      | some (.error _) => (visible iso ((fileMachine codec iso).step files input).2).Same V
      | none =>
        (visible iso ((fileMachine codec iso).step files input).2).Same V ∨
          (visible iso ((fileMachine codec iso).step files input).2).Same
            (V.perform codec iso input.1) := by
  obtain ⟨call, cut⟩ := input
  have hspec := call_spec hs hV hc
  cases cut with
  | none =>
    have hend := (hspec ⟨files, call.version⟩ rfl).2
    simp only [fileMachine]
    cases hr : (fileProgram codec iso call ⟨files, call.version⟩).2 with
    | ok a =>
      rw [hr] at hend
      exact ⟨hend.1.1, hend.1.2, hend.2⟩
    | error e =>
      rw [hr] at hend
      exact hend
  | some cut =>
    have hcut := hspec.cut (s := ⟨files, call.version⟩) rfl (hc.clean cut rfl)
    simp only [fileMachine]
    rcases hcut with h | h
    · exact ⟨h.1, .inl h.2⟩
    · exact ⟨h.1, .inr h.2⟩

/-- A history of the store: its calls, where they were stopped, and how they ended. -/
abbrev FileHistory := List ((FileCall × Option (Cut Tear)) × Option FileEnd)

/-- The calls of a history that were done: those that returned, none of those that raised, and some
of those that were stopped. -/
inductive Kept : FileHistory → List FileCall → Prop where
  | nil : Kept [] []
  | returned {h kept input answer} (hk : Kept h kept) :
      Kept (h ++ [(input, some (.ok answer))]) (kept ++ [input.1])
  | raised {h kept input error} (hk : Kept h kept) : Kept (h ++ [(input, some (.error error))]) kept
  | lost {h kept input} (hk : Kept h kept) : Kept (h ++ [(input, none)]) kept
  | survived {h kept input} (hk : Kept h kept) : Kept (h ++ [(input, none)]) (kept ++ [input.1])

def Contents.after (codec : JsonCodec) (iso : IsoFormat) (calls : List FileCall) : Contents :=
  calls.foldl (Contents.perform codec iso) .empty

def Durable (codec : JsonCodec) (h : FileHistory) (events : List RuntimeEvent) : Prop :=
  ∀ x ∈ h, (∃ answer, x.2 = some (.ok answer)) → ∀ event ∈ x.1.1.event?,
    ∃ line ∈ events, eventRecord codec event = .ok line

theorem Contents.perform_mem {call : FileCall}
    (h : e ∈ V.events) : e ∈ (V.perform codec iso call).events := by
  have hput : ∀ s, (V.put codec iso s).events = V.events := by
    intro s
    unfold Contents.put
    split <;> rfl
  have hadd : ∀ (c : Contents) (event : RuntimeEvent), e ∈ c.events →
      e ∈ (c.add codec event).events := by
    intro c event hc
    unfold Contents.add
    split
    · exact mem_append_of_mem hc
    · exact hc
  cases call with
  | create s => exact (hput _).symm ▸ h
  | save s => exact (hput _).symm ▸ h
  | commit s event => exact hadd _ _ ((hput _).symm ▸ h)
  | append event => exact hadd _ _ h
  | load _ => exact h
  | all => exact h
  | listEvents => exact h

/-- A call that was done has its event in the journal. -/
theorem Contents.perform_event {call : FileCall} {event line : RuntimeEvent}
    (he : call.event? = some event) (hrecord : eventRecord codec event = .ok line)
    (hsame : ∀ e ∈ V.events, e.id = event.id → eventRecord codec event = .ok e) :
    line ∈ (V.perform codec iso call).events := by
  have hid := (recorded_of_record hrecord).2
  have hadd : ∀ c : Contents, c.events = V.events → line ∈ (c.add codec event).events := by
    intro c hc
    simp only [Contents.add, hrecord]
    by_cases hmem : line.id ∈ c.events.map RuntimeEvent.id
    · obtain ⟨e, hev, heid⟩ := List.mem_map.mp hmem
      have := hsame e (hc ▸ hev) (heid.trans hid)
      obtain rfl : e = line := Except.ok.inj (this.symm.trans hrecord)
      exact mem_append_of_mem hev
    · rw [append_of_fresh hmem]
      simp
  cases call with
  | commit s e =>
    obtain rfl : e = event := Option.some.inj he
    refine hadd _ ?_
    unfold Contents.put
    split <;> rfl
  | append e =>
    obtain rfl : e = event := Option.some.inj he
    exact hadd V rfl
  | create _ => cases he
  | load _ => cases he
  | save _ => cases he
  | all => cases he
  | listEvents => cases he

structure Survives (codec : JsonCodec) (iso : IsoFormat) (h : FileHistory) (files : RuntimeFiles) :
    Prop where
  sound : Sound codec iso files
  atomic : ∃ kept, Kept h kept ∧ (visible iso files).Same (Contents.after codec iso kept)
  durable : Durable codec h (visible iso files).events

theorem Survives.empty : Survives codec iso [] .empty where
  sound :=
    { sessions := fun _ _ h => nomatch h
      commits := fun _ h => absurd h (Table.not_mem_empty _)
      single := Nat.zero_le 1
      lines := fun _ h => nomatch h
      rest := .inl rfl }
  atomic := ⟨[], .nil, .refl _⟩
  durable := fun _ h => nomatch h

theorem Contents.after_snoc (calls : List FileCall) (call : FileCall) :
    Contents.after codec iso (calls ++ [call])
      = (Contents.after codec iso calls).perform codec iso call := by
  simp [Contents.after]

/-- Events that were there stay, whether the call was done or not. -/
theorem Durable.mono {h : FileHistory} {events events' : List RuntimeEvent}
    (hd : Durable codec h events) (hsub : ∀ e ∈ events, e ∈ events') :
    Durable codec h events' := by
  intro x hx hok event he
  obtain ⟨line, hline, hrecord⟩ := hd x hx hok event he
  exact ⟨line, hsub line hline, hrecord⟩

theorem Durable.snoc {h : FileHistory} {events : List RuntimeEvent}
    {x : (FileCall × Option (Cut Tear)) × Option FileEnd} (hd : Durable codec h events)
    (hx : (∃ answer, x.2 = some (.ok answer)) → ∀ event ∈ x.1.1.event?,
      ∃ line ∈ events, eventRecord codec event = .ok line) : Durable codec (h ++ [x]) events := by
  intro y hy
  rcases List.mem_append.mp hy with hy | hy
  · exact hd y hy
  · rw [List.mem_singleton.mp hy]
    exact hx

theorem Survives.step {h : FileHistory} {files : RuntimeFiles}
    {input : FileCall × Option (Cut Tear)} (hi : Survives codec iso h files)
    (hc : Recoverable codec iso files input) :
    Survives codec iso (h ++ [(input, ((fileMachine codec iso).step files input).1)])
      ((fileMachine codec iso).step files input).2 := by
  obtain ⟨kept, hkept, hsame⟩ := hi.atomic
  obtain ⟨hsound, hend⟩ := step_spec hi.sound hsame hc
  generalize (fileMachine codec iso).step files input = r at hsound hend
  obtain ⟨end?, files'⟩ := r
  have hkeep : (visible iso files').Same (Contents.after codec iso kept) →
      ∀ e ∈ (visible iso files).events, e ∈ (visible iso files').events := fun hs e he =>
    hs.events.mem_iff.mpr (hsame.events.mem_iff.mp he)
  have hgrow : (visible iso files').Same
      ((Contents.after codec iso kept).perform codec iso input.1) →
      ∀ e ∈ (visible iso files).events, e ∈ (visible iso files').events := fun hs e he =>
    hs.events.mem_iff.mpr (Contents.perform_mem (hsame.events.mem_iff.mp he))
  rcases end? with _ | error | answer
  · rcases hend with hend | hend
    · exact ⟨hsound, ⟨kept, .lost hkept, hend⟩,
        (hi.durable.mono (hkeep hend)).snoc fun ⟨_, ha⟩ => nomatch ha⟩
    · refine ⟨hsound, ⟨kept ++ [input.1], .survived hkept, ?_⟩,
        (hi.durable.mono (hgrow hend)).snoc fun ⟨_, ha⟩ => nomatch ha⟩
      rw [Contents.after_snoc]
      exact hend
  · exact ⟨hsound, ⟨kept, .raised hkept, hend⟩,
      (hi.durable.mono (hkeep hend)).snoc fun ⟨_, ha⟩ => nomatch ha⟩
  · obtain ⟨hdone, hline⟩ := hend
    refine ⟨hsound, ⟨kept ++ [input.1], .returned hkept, ?_⟩,
      (hi.durable.mono (hgrow hdone)).snoc fun _ event he => ?_⟩
    · rw [Contents.after_snoc]
      exact hdone
    · obtain ⟨line, hrecord⟩ := hline event he
      refine ⟨line, hdone.events.mem_iff.mpr (Contents.perform_event he hrecord ?_), hrecord⟩
      exact fun e hev hid => hc.sameEvent event he e (hsame.events.mem_iff.mpr hev) hid

theorem survives {inputs : List (FileCall × Option (Cut Tear))}
    (h : (fileMachine codec iso).Meets (fun _ files input => Recoverable codec iso files input)
      inputs) :
    Survives codec iso ((fileMachine codec iso).history inputs)
      ((fileMachine codec iso).state inputs) :=
  (fileMachine codec iso).induct (fun h files => Survives codec iso h files) .empty
    (fun _ _ _ hi hc => hi.step hc) h

/-- What a listing finds after a history: nothing is pending, the documents and the events are
those of the calls that were done, each as a whole, and the event of every call that returned is in
the journal. -/
structure Recovered (codec : JsonCodec) (iso : IsoFormat) (h : FileHistory) (files : RuntimeFiles) :
    Prop where
  replayed : files.commits.rows = []
  atomic : ∃ kept, Kept h kept ∧
    (Contents.mk files.sessions files.journal.readable).Same (Contents.after codec iso kept)
  durable : Durable codec h files.journal.readable

/-- **Crash recovery.** After any calls, each stopped anywhere, that recovery can deal with, a
listing succeeds and finds every commit done as a whole or not at all, and every event that was
brought by a call that returned. -/
theorem crash_recovery (codec : JsonCodec) (iso : IsoFormat)
    {inputs : List (FileCall × Option (Cut Tear))}
    (h : (fileMachine codec iso).Meets (fun _ files input => Recoverable codec iso files input)
      (inputs ++ [(.listEvents, none)])) :
    Recovered codec iso ((fileMachine codec iso).history inputs)
        ((fileMachine codec iso).state (inputs ++ [(.listEvents, none)])) ∧
      ∃ answer, ((fileMachine codec iso).step ((fileMachine codec iso).state inputs)
        (.listEvents, none)).1 = some (.ok answer) := by
  obtain ⟨hm, hlast⟩ := Machine.meets_snoc.mp h
  obtain ⟨hsound, ⟨kept, hkept, hsame⟩, hdurable⟩ := survives hm
  rw [Machine.state_snoc]
  generalize (fileMachine codec iso).state inputs = files at *
  have hready : Ready codec iso (visible iso files) (files.journal.rest = []) files :=
    ⟨hsound, .refl _, hlast.whole, id⟩
  have hspec : Program.Spec Clean (fun run : FileRun => run = ⟨files, 0⟩)
      (fileProgram codec iso .listEvents) (Keeps codec iso (visible iso files))
      (fun _ run => Settled codec iso (visible iso files) (files.journal.rest = []) run.files)
      fun _ _ => False :=
    (listEvents_spec.mono (fun _ hrun => hrun ▸ hready) (fun _ h => h) (fun _ _ h => h)
      fun _ _ h => h).answer (fun _ h => h.keeps) _
  have hend := (hspec ⟨files, 0⟩ rfl).2
  simp only [fileMachine, FileCall.version]
  cases hr : (fileProgram codec iso .listEvents ⟨files, 0⟩).2 with
  | error e =>
    rw [hr] at hend
    exact hend.elim
  | ok answer =>
    rw [hr] at hend
    have hshown := hend.same
    rw [visible_settled _ hend.rows] at hshown
    refine ⟨⟨hend.rows, ⟨kept, hkept, hshown.trans hsame⟩, ?_⟩, answer, rfl⟩
    exact hdurable.mono fun e he => hshown.events.mem_iff.mpr he

end Files

/-! ## Two runs -/

section Runs

instance (files : RuntimeFiles) : Decidable (PendingLine files) :=
  inferInstanceAs (Decidable (∃ record ∈ files.commits.rows, _))

instance (files : RuntimeFiles) (call : FileCall) : Decidable (AppendsLine files call) := by
  cases call <;> unfold AppendsLine <;> infer_instance

instance (s : SessionSnapshot) : Decidable (Coherent s) :=
  decidable_of_iff
    ((Tasks.taskIds s.taskGraph.nodes).Nodup ∧
      s.state.currentTask ∈ s.taskGraph.nodes.map TaskNodeSnapshot.task ∧
      (∀ t ∈ s.state.tasks, t ∈ s.taskGraph.nodes.map TaskNodeSnapshot.task) ∧
      s.domains = s.domainIdentities)
    ⟨fun h => ⟨h.1, h.2.1, h.2.2.1, h.2.2.2⟩, fun h => ⟨h.ids_nodup, h.current, h.tasks, h.domains⟩⟩

instance (codec : JsonCodec) (iso : IsoFormat) (files : RuntimeFiles)
    (input : FileCall × Option (Cut Tear)) : Decidable (Recoverable codec iso files input) :=
  decidable_of_iff
    ((AppendsLine files input.1 → files.journal.rest = []) ∧
      (∀ cut ∈ input.2, Clean cut.tear) ∧ (∀ snapshot ∈ input.1.snapshot?, Coherent snapshot) ∧
      ∀ event ∈ input.1.event?, ∀ e ∈ (visible iso files).events, e.id = event.id →
        eventRecord codec event = .ok e)
    ⟨fun h => ⟨h.1, h.2.1, h.2.2.1, h.2.2.2⟩, fun h => ⟨h.whole, h.clean, h.coherent, h.sameEvent⟩⟩

def firstSnapshot : SessionSnapshot := { (startedSession 0 false).snapshot .empty with version := 0 }

def numberedEvent (n : Nat) : RuntimeEvent :=
  ⟨"StateUpdated", "session-1", "goal-1", "task-1", "event-" ++ toString n, none, [], 30000000⟩

/-- A commit is stopped after its record, a second one after its snapshot, and the line of an append
before its end. -/
def stoppedCalls : List (FileCall × Option (Cut Tear)) :=
  [(.create firstSnapshot, none), (.commit firstSnapshot (numberedEvent 1), some ⟨2, .nothing⟩),
    (.append (numberedEvent 2), none),
    (.commit { firstSnapshot with version := 1 } (numberedEvent 3), some ⟨6, .nothing⟩),
    (.load "session-1", none), (.append (numberedEvent 4), some ⟨0, .unended⟩)]

theorem crash_recovery_stopped :
    Recovered plainCodec epochIso ((fileMachine plainCodec epochIso).history stoppedCalls)
        ((fileMachine plainCodec epochIso).state (stoppedCalls ++ [(.listEvents, none)])) ∧
      ∃ answer, ((fileMachine plainCodec epochIso).step
        ((fileMachine plainCodec epochIso).state stoppedCalls) (.listEvents, none)).1
          = some (.ok answer) :=
  crash_recovery plainCodec epochIso (by decide +kernel)

/-- The line of a commit is torn, and so is the line of an append; each is followed by another. -/
def tornCommit : List (FileCall × Option (Cut Tear)) :=
  [(.create firstSnapshot, none), (.commit firstSnapshot (numberedEvent 1), some ⟨3, .part⟩)]

def tornAppend : List (FileCall × Option (Cut Tear)) :=
  [(.append (numberedEvent 1), some ⟨0, .part⟩), (.append (numberedEvent 2), none)]

/-- A torn line swallows the next: the commit's snapshot is there without its event, and the event
of an append that returned is not. -/
theorem torn_line_swallows :
    ((((fileMachine plainCodec epochIso).state (tornCommit ++ [(.listEvents, none)])).sessions
        "session-1").bind fun d => (readDocument epochIso d).toOption.map SessionSnapshot.version)
          = some 1 ∧
      ((fileMachine plainCodec epochIso).state
        (tornCommit ++ [(.listEvents, none)])).journal.readable = [] ∧
      ¬ ∀ inputs : List (FileCall × Option (Cut Tear)),
        Recovered plainCodec epochIso ((fileMachine plainCodec epochIso).history inputs)
          ((fileMachine plainCodec epochIso).state (inputs ++ [(.listEvents, none)])) := by
  refine ⟨by decide +kernel, by decide +kernel, fun h => ?_⟩
  have hdurable := (h tornAppend).durable
  have hreturned : (((FileCall.append (numberedEvent 2), none), some (.ok .done)) :
      (FileCall × Option (Cut Tear)) × Option FileEnd)
        ∈ (fileMachine plainCodec epochIso).history tornAppend :=
    List.mem_cons_of_mem _ (List.mem_singleton.mpr rfl)
  obtain ⟨line, hline, -⟩ := hdurable _ hreturned ⟨.done, rfl⟩ (numberedEvent 2) rfl
  have hnone : ((fileMachine plainCodec epochIso).state
      (tornAppend ++ [(.listEvents, none)])).journal.readable = [] := by decide +kernel
  rw [hnone] at hline
  cases hline

end Runs

end UniversalAgent.Persistence
