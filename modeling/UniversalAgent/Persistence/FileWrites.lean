import UniversalAgent.Foundation.CompareAndSwap
import UniversalAgent.Persistence.FileRecovery

/-!
# Persistence — FileWrites

The steps of a save and of a commit of the file store, one by one. A write that the store does not
accept has no step of its own. One that it accepts assigns the version of its caller's snapshot
first, and writes the files after it.
-/

namespace UniversalAgent.Persistence

open UniversalAgent.Core UniversalAgent.Foundation UniversalAgent.State

inductive StoreWrite where
  | save (snapshot : SessionSnapshot)
  | commit (snapshot : SessionSnapshot) (event : RuntimeEvent)

def StoreWrite.snapshot : StoreWrite → SessionSnapshot
  | .save snapshot | .commit snapshot _ => snapshot

def StoreWrite.event? : StoreWrite → Option RuntimeEvent
  | .save _ => none
  | .commit _ event => some event

def FileStep.isWrite : FileStep → Bool
  | .version _ => false
  | .commit _ | .session _ _ | .event _ | .discard _ => true

section Writes

variable (codec : JsonCodec) (iso : IsoFormat)

def fileWrite : StoreWrite → FileProgram PUnit
  | .save snapshot => saveFile codec iso snapshot
  | .commit snapshot event => commitFile codec iso snapshot event

def saveSettled (snapshot : SessionSnapshot) : FileProgram PUnit := do
  let stored ← storedSnapshot iso snapshot.state.sessionId
  let next ← nextVersion snapshot stored
  writeSnapshot codec iso next

def commitSettled (snapshot : SessionSnapshot) (event : RuntimeEvent) : FileProgram PUnit := do
  let run ← .read
  if run.files.sessions snapshot.state.sessionId = none then raiseFile (.store .notFound)
  else if ← eventExists event.id then raiseFile (.eventExists event.id)
  else
    let stored ← storedSnapshot iso snapshot.state.sessionId
    let next ← nextVersion snapshot stored
    if run.files.commits.get? event.id ≠ none then raiseFile (.commitExists event.id)
    else
      writeCommit codec iso next event
      writeSnapshot codec iso next
      appendEventIfMissing codec event
      .write (.discard event.id)

def writeSettled : StoreWrite → FileProgram PUnit
  | .save snapshot => saveSettled codec iso snapshot
  | .commit snapshot event => commitSettled codec iso snapshot event

theorem fileWrite_eq (w : StoreWrite) :
    fileWrite codec iso w = recoverCommits codec iso >>= fun _ => writeSettled codec iso w := by
  cases w <;> rfl

structure FileAccepts (files : RuntimeFiles) (w : StoreWrite) : Prop where
  current : ∃ document stored, files.sessions w.snapshot.state.sessionId = some document ∧
    readDocument iso document = .ok stored ∧ stored.version = w.snapshot.version
  fresh : ∀ event ∈ w.event?, ∃ events, files.journal.events = .ok events ∧
    event.id ∉ events.map RuntimeEvent.id

structure FileEncodable (w : StoreWrite) : Prop where
  snapshot : ∃ document, writeDocument codec iso
    { w.snapshot with version := w.snapshot.version + 1 } = .ok document
  event : ∀ event ∈ w.event?, ∃ line, eventRecord codec event = .ok line

inductive OwnSteps : StoreWrite → List FileStep → Prop where
  | save (s document)
      (h : writeDocument codec iso { s with version := s.version + 1 } = .ok document) :
      OwnSteps (.save s) [.session s.state.sessionId document]
  | commit (s event document line)
      (h : writeDocument codec iso { s with version := s.version + 1 } = .ok document)
      (hline : eventRecord codec event = .ok line) :
      OwnSteps (.commit s event) [.commit ⟨document, line⟩, .session s.state.sessionId document,
        .event line, .discard event.id]

inductive FileEnds (files : RuntimeFiles) (w : StoreWrite) :
    List FileStep × Except FileError PUnit → Prop where
  | refused (e) (h : ¬ FileAccepts iso files w) : FileEnds files w ([], .error e)
  | unencodable (e) (h : FileAccepts iso files w) (he : ¬ FileEncodable codec iso w) :
      FileEnds files w ([.version (w.snapshot.version + 1)], .error e)
  | done (steps) (h : FileAccepts iso files w) (hs : OwnSteps codec iso w steps) :
      FileEnds files w (.version (w.snapshot.version + 1) :: steps, .ok ⟨⟩)

variable {codec iso}

variable (iso) in
theorem storedSnapshot_cases (run : FileRun) (id : SessionId) :
    (∃ document stored, run.files.sessions id = some document ∧
        readDocument iso document = .ok stored ∧ storedSnapshot iso id run = ([], .ok stored)) ∨
      (¬ ∃ document stored, run.files.sessions id = some document ∧
        readDocument iso document = .ok stored) ∧
        ∃ e, storedSnapshot iso id run = ([], .error e) := by
  cases hid : run.files.sessions id with
  | none =>
    refine .inr ⟨?_, _, storedSnapshot_none hid⟩
    rintro ⟨document, stored, h, -⟩
    cases h
  | some document =>
    have hrun : storedSnapshot iso id run
        = ([], (readDocument iso document).mapError .store) := by
      rw [storedSnapshot, Program.read_bind]
      simp only [hid]
      rfl
    cases hread : readDocument iso document with
    | ok stored =>
      rw [hread] at hrun
      exact .inl ⟨document, stored, rfl, hread, hrun⟩
    | error e =>
      rw [hread] at hrun
      refine .inr ⟨?_, _, hrun⟩
      rintro ⟨d, stored, h, hr⟩
      cases h
      rw [hread] at hr
      cases hr

theorem nextVersion_same {run : FileRun} {s stored : SessionSnapshot}
    (h : stored.version = s.version) :
    nextVersion s stored run
      = ([.version (s.version + 1)], .ok { s with version := s.version + 1 }) := by
  unfold nextVersion
  rw [if_neg (not_not.mpr h.symm), h]
  rfl

theorem nextVersion_other (run : FileRun) {s stored : SessionSnapshot}
    (h : stored.version ≠ s.version) : ∃ e, nextVersion s stored run = ([], .error e) := by
  unfold nextVersion
  rw [if_pos h.symm]
  exact ⟨_, rfl⟩

variable {s : SessionSnapshot} {document : Document} {steps : List FileStep}

theorem writeSnapshot_run {run : FileRun}
    (h : writeDocument codec iso s = .ok document) :
    writeSnapshot codec iso s run = ([.session s.state.sessionId document], .ok ⟨⟩) := by
  unfold writeSnapshot ofStore
  rw [h]
  rfl

theorem writeSnapshot_error {run : FileRun} {e : StoreError}
    (h : writeDocument codec iso s = .error e) :
    writeSnapshot codec iso s run = ([], .error (.store e)) := by
  unfold writeSnapshot ofStore
  rw [h]
  rfl

theorem saveSettled_ends (run : FileRun) (s : SessionSnapshot) :
    FileEnds codec iso run.files (.save s) (saveSettled codec iso s run) := by
  rcases storedSnapshot_cases iso run s.state.sessionId with
    ⟨document, stored, hdoc, hread, hstored⟩ | ⟨hno, e, hstored⟩
  · by_cases hversion : stored.version = s.version
    · have haccepts : FileAccepts iso run.files (.save s) :=
        ⟨⟨document, stored, hdoc, hread, hversion⟩, fun _ h => nomatch h⟩
      unfold saveSettled
      rw [Program.bind_ok hstored, applyAll_nil, List.nil_append,
        Program.bind_ok (nextVersion_same hversion)]
      cases hw : writeDocument codec iso { s with version := s.version + 1 } with
      | ok document' =>
        rw [writeSnapshot_run hw]
        exact .done _ haccepts (.save s document' hw)
      | error e =>
        rw [writeSnapshot_error hw]
        refine .unencodable _ haccepts fun h => ?_
        obtain ⟨d, hd⟩ := h.snapshot
        exact absurd (hd.symm.trans hw) (by simp)
    · obtain ⟨e, hnext⟩ := nextVersion_other run hversion
      unfold saveSettled
      rw [Program.bind_ok hstored, applyAll_nil, List.nil_append, Program.bind_error hnext]
      refine .refused e fun h => ?_
      obtain ⟨d, t, hd, ht, hv⟩ := h.current
      obtain rfl : document = d := Option.some.inj (hdoc.symm.trans hd)
      obtain rfl : stored = t := Except.ok.inj (hread.symm.trans ht)
      exact hversion hv
  · unfold saveSettled
    rw [Program.bind_error hstored]
    refine .refused e fun h => ?_
    obtain ⟨d, t, hd, ht, -⟩ := h.current
    exact hno ⟨d, t, hd, ht⟩

theorem eventExists_cases (run : FileRun) (id : EventId) :
    (∃ events, run.files.journal.events = .ok events ∧
        eventExists id run = ([], .ok (decide (id ∈ events.map RuntimeEvent.id)))) ∨
      (¬ ∃ events, run.files.journal.events = .ok events) ∧
        ∃ e, eventExists id run = ([], .error e) := by
  have hrun : eventExists id run = ((Program.ofExcept run.files.journal.events : FileProgram _)
      >>= fun events => pure (decide (id ∈ events.map RuntimeEvent.id))) run := rfl
  cases hevents : run.files.journal.events with
  | ok events =>
    rw [hevents] at hrun
    exact .inl ⟨events, rfl, hrun⟩
  | error e =>
    rw [hevents] at hrun
    refine .inr ⟨?_, e, hrun⟩
    rintro ⟨events, h⟩
    cases h

theorem writeCommit_run {run : FileRun} {event line : RuntimeEvent}
    (h : writeDocument codec iso s = .ok document)
    (hline : eventRecord codec event = .ok line) :
    writeCommit codec iso s event run = ([.commit ⟨document, line⟩], .ok ⟨⟩) := by
  unfold writeCommit ofStore
  rw [h, hline]
  rfl

theorem writeCommit_error (run : FileRun) {event : RuntimeEvent}
    (h : ¬ ((∃ document, writeDocument codec iso s = .ok document) ∧
      ∃ line, eventRecord codec event = .ok line)) :
    ∃ e, writeCommit codec iso s event run = ([], .error e) := by
  unfold writeCommit ofStore
  cases hw : writeDocument codec iso s with
  | error e => exact ⟨_, rfl⟩
  | ok document =>
    cases hline : eventRecord codec event with
    | error e => exact ⟨_, rfl⟩
    | ok line => exact absurd ⟨⟨document, hw⟩, line, hline⟩ h

theorem appendEventIfMissing_run (run : FileRun) {event line : RuntimeEvent}
    {events : List RuntimeEvent} (h : run.files.journal.events = .ok events)
    (hfresh : event.id ∉ events.map RuntimeEvent.id) (hline : eventRecord codec event = .ok line) :
    appendEventIfMissing codec event run = ([.event line], .ok ⟨⟩) := by
  rcases eventExists_cases run event.id with ⟨events', hevents, hexists⟩ | ⟨hno, -⟩
  · obtain rfl : events = events' := Except.ok.inj (h.symm.trans hevents)
    unfold appendEventIfMissing
    rw [Program.bind_ok hexists, decide_eq_false hfresh]
    simp only [ofStore, hline]
    rfl
  · exact absurd ⟨events, h⟩ hno

/-- The last steps of a commit, whose checks have passed. -/
theorem applyCommit_run (run : FileRun) {event line : RuntimeEvent}
    {events : List RuntimeEvent}
    (h : writeDocument codec iso s = .ok document) (hline : eventRecord codec event = .ok line)
    (hevents : run.files.journal.events = .ok events)
    (hfresh : event.id ∉ events.map RuntimeEvent.id) :
    (do writeCommit codec iso s event
        writeSnapshot codec iso s
        appendEventIfMissing codec event
        .write (.discard event.id) : FileProgram PUnit) run
      = ([.commit ⟨document, line⟩, .session s.state.sessionId document, .event line,
          .discard event.id], .ok ⟨⟩) := by
  refine Program.bind_run (writeCommit_run h hline) ?_
  refine Program.bind_run (writeSnapshot_run h) ?_
  have hmissing := appendEventIfMissing_run (applyAll (applyAll run
    [FileStep.commit ⟨document, line⟩]) [FileStep.session s.state.sessionId document])
    hevents hfresh hline
  exact (Program.bind_ok hmissing).trans rfl

theorem commitSettled_ends {run : FileRun} (hrows : run.files.commits.rows = [])
    (s : SessionSnapshot) (event : RuntimeEvent) :
    FileEnds codec iso run.files (.commit s event) (commitSettled codec iso s event run) := by
  unfold commitSettled
  rw [Program.read_bind]
  by_cases hnone : run.files.sessions s.state.sessionId = none
  · rw [if_pos hnone]
    refine .refused _ fun h => ?_
    obtain ⟨d, t, hd, -⟩ := h.current
    exact absurd (hnone.symm.trans hd) (by simp)
  rw [if_neg hnone]
  rcases eventExists_cases run event.id with ⟨events, hevents, hexists⟩ | ⟨hno, e, hexists⟩
  swap
  · rw [Program.bind_error hexists]
    refine .refused _ fun h => ?_
    obtain ⟨events, hevents, -⟩ := h.fresh event rfl
    exact hno ⟨events, hevents⟩
  rw [Program.bind_ok hexists, applyAll_nil, List.nil_append]
  by_cases hmem : event.id ∈ events.map RuntimeEvent.id
  · rw [decide_eq_true hmem, if_pos rfl]
    refine .refused _ fun h => ?_
    obtain ⟨events', hevents', hfresh⟩ := h.fresh event rfl
    obtain rfl : events = events' := Except.ok.inj (hevents.symm.trans hevents')
    exact hfresh hmem
  rw [decide_eq_false hmem, if_neg (by simp)]
  rcases storedSnapshot_cases iso run s.state.sessionId with
    ⟨document, stored, hdoc, hread, hstored⟩ | ⟨hno, e, hstored⟩
  swap
  · rw [Program.bind_error hstored]
    refine .refused e fun h => ?_
    obtain ⟨d, t, hd, ht, -⟩ := h.current
    exact hno ⟨d, t, hd, ht⟩
  rw [Program.bind_ok hstored, applyAll_nil, List.nil_append]
  by_cases hversion : stored.version = s.version
  · have haccepts : FileAccepts iso run.files (.commit s event) :=
      ⟨⟨document, stored, hdoc, hread, hversion⟩, fun e he => by
        cases he
        exact ⟨events, hevents, hmem⟩⟩
    have hnew : run.files.commits.get? event.id = none := by
      rw [Table.get?_eq_none]
      intro r hr
      rw [Table.mem_def, hrows] at hr
      cases hr
    rw [Program.bind_ok (nextVersion_same hversion), if_neg (not_not.mpr hnew)]
    by_cases hencode : FileEncodable codec iso (.commit s event)
    · obtain ⟨d, hd⟩ : ∃ d, writeDocument codec iso { s with version := s.version + 1 } = .ok d :=
        hencode.snapshot
      obtain ⟨line, hline⟩ := hencode.event event rfl
      have happly := applyCommit_run (applyAll run [FileStep.version (s.version + 1)]) hd hline
        hevents hmem
      rw [happly]
      exact .done _ haccepts (.commit s event d line hd hline)
    · have hno : ¬ ((∃ document, writeDocument codec iso { s with version := s.version + 1 }
          = .ok document) ∧ ∃ line, eventRecord codec event = .ok line) := by
        rintro ⟨hd, hline⟩
        exact hencode ⟨hd, fun e he => by cases he; exact hline⟩
      obtain ⟨e, he⟩ := writeCommit_error (applyAll run [FileStep.version (s.version + 1)]) hno
      rw [Program.bind_error he]
      exact .unencodable _ haccepts hencode
  · obtain ⟨e, hnext⟩ := nextVersion_other run hversion
    rw [Program.bind_error hnext]
    refine .refused e fun h => ?_
    obtain ⟨d, t, hd, ht, hv⟩ := h.current
    obtain rfl : document = d := Option.some.inj (hdoc.symm.trans hd)
    obtain rfl : stored = t := Except.ok.inj (hread.symm.trans ht)
    exact hversion hv

variable (codec iso) in
theorem writeSettled_ends {run : FileRun} (hrows : run.files.commits.rows = []) (w : StoreWrite) :
    FileEnds codec iso run.files w (writeSettled codec iso w run) := by
  cases w with
  | save s => exact saveSettled_ends run s
  | commit s event => exact commitSettled_ends hrows s event

/-! ## Steps -/

/-- A step that is written to a file leaves the caller's snapshot. -/
theorem FileRun.apply_version (run : FileRun) {step : FileStep} (h : step.isWrite = true) :
    (Storage.apply run step).version = run.version := by
  cases step with
  | version _ => cases h
  | commit _ => rfl
  | session _ _ => rfl
  | event _ => rfl
  | discard _ => rfl

theorem FileRun.tear_version (run : FileRun) (step : FileStep) (t : Tear) :
    (Storage.tear run step t).version = run.version := by
  cases step <;> rfl

theorem version_applyAll {run : FileRun}
    (h : ∀ step ∈ steps, step.isWrite = true) : (applyAll run steps).version = run.version :=
  applyAll_frame (f := FileRun.version) h fun run _ hw => run.apply_version hw

theorem version_cutSteps {run : FileRun}
    (h : ∀ step ∈ steps, step.isWrite = true) (n : Nat) (t : Tear) :
    (cutSteps run steps n t).version = run.version :=
  cutSteps_frame (f := FileRun.version) h (fun run _ hw => run.apply_version hw)
    (fun run step t _ => run.tear_version step t) n t

abbrev WritesFiles {α : Type} (p : FileProgram α) : Prop :=
  Program.WritesOnly (fun step => FileStep.isWrite step = true) p

theorem writeSnapshot_writes (s : SessionSnapshot) : WritesFiles (writeSnapshot codec iso s) :=
  .bind (.value _) fun _ => .step rfl

theorem appendEventIfMissing_writes (event : RuntimeEvent) :
    WritesFiles (appendEventIfMissing codec event) := by
  refine .bind (.bind .look fun _ => .bind (.value _) fun _ => .ret _) fun known => ?_
  split
  · exact .ret _
  · exact .bind (.value _) fun _ => .step rfl

theorem recoverSnapshot_writes (s : SessionSnapshot) : WritesFiles (recoverSnapshot codec iso s) := by
  refine .bind .look fun run => ?_
  split
  · refine .bind (.value _) fun stored => ?_
    split
    · exact writeSnapshot_writes s
    · exact .ret _
  · exact writeSnapshot_writes s

/-- The replay of commit records assigns no version. -/
theorem recoverCommits_writes : WritesFiles (recoverCommits codec iso) := by
  refine .bind .look fun run => ?_
  induction run.files.commitRecords with
  | nil => exact .ret _
  | cons record records ih =>
    refine .bind ?_ fun _ => ih
    exact .bind (.value _) fun s => .bind (recoverSnapshot_writes s) fun _ =>
      .bind (appendEventIfMissing_writes record.event) fun _ => .step rfl

structure Recovers (codec : JsonCodec) (iso : IsoFormat) (V : Contents) (run : FileRun)
    (steps : List FileStep) : Prop where
  result : recoverCommits codec iso run = (steps, .ok ⟨⟩)
  keeps : Throughout Clean (Keeps codec iso V) run steps
  settled : Settled codec iso V False (applyAll run steps).files
  writes : ∀ step ∈ steps, step.isWrite = true

theorem Ready.recovers {V : Contents} (run : FileRun) (h : Ready codec iso V False run.files) :
    ∃ steps, Recovers codec iso V run steps := by
  obtain ⟨hkeep, hend⟩ := recoverCommits_spec run h
  have hwrites : ∀ step ∈ (recoverCommits codec iso run).1, step.isWrite = true :=
    recoverCommits_writes run
  unfold Program.after at hend
  rcases hrun : recoverCommits codec iso run with ⟨steps, e | ⟨⟨⟩⟩⟩
  · rw [hrun] at hend
    exact hend.elim
  · rw [hrun] at hend hkeep hwrites
    exact ⟨steps, hrun, hkeep, hend, hwrites⟩

theorem OwnSteps.writes {w : StoreWrite} (h : OwnSteps codec iso w steps) :
    ∀ step ∈ steps, step.isWrite = true := by
  cases h with
  | save s document hd => simp [FileStep.isWrite]
  | commit s event document line hd hline => simp [FileStep.isWrite]

end Writes

end UniversalAgent.Persistence
