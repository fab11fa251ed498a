import UniversalAgent.Foundation.Effect
import UniversalAgent.Runtime.Emission

/-!
# Runtime — Journal

Whether the event store and the session store agree. After a commit that was saved, the snapshot
rebuilt from the event store should be the stored one; a commit that was refused should leave
nothing behind. `CommitSound` says of a commit, from the emitter's parts and the steps that
raise, that this is so.
-/

namespace UniversalAgent.Runtime

open UniversalAgent.Core UniversalAgent.Foundation UniversalAgent.State UniversalAgent.Persistence

section Journal

variable {codec : JsonCodec} {B : Backend codec} (iso : IsoFormat) (ids : EventIds)
variable (em : EventEmitter) (f : Failures)

/-! ## What every call keeps -/

def Drawn (event : RuntimeEvent) (stores : Stores B) : Prop :=
  ∃ n < stores.drawn, event.id = ids.nth n

/-- The events of the journal have ids that were drawn, and its state records can be read. -/
structure Journaled (stores : Stores B) : Prop where
  drawn : ∀ e ∈ stores.journal, Drawn ids e stores
  readable : ∀ e ∈ stores.journal, Readable iso e

structure Addable (event : RuntimeEvent) (stores : Stores B) : Prop where
  journaled : Journaled iso ids stores
  drawn : Drawn ids event stores
  readable : Readable iso event

variable {iso ids em f}

variable {stores : Stores B} {type : String} {actionId : Option ActionId} {data : JsonMapping} {now : Instant}
  {P : Stores B → Prop} {w : Stores B} {Q : Int → Stores B → Prop} {sessions : SessionStore B}

theorem Journaled.append {event : RuntimeEvent}
    (h : Addable iso ids event stores) :
    Journaled iso ids { stores with journal := stores.journal.append event } := by
  refine ⟨fun e he => ?_, fun e he => ?_⟩
  · rcases mem_append he with he | rfl
    · exact h.journaled.drawn e he
    · exact h.drawn
  · rcases mem_append he with he | rfl
    · exact h.journaled.readable e he
    · exact h.readable

theorem Addable.append {event other : RuntimeEvent}
    (h : Addable iso ids event stores) (ho : Addable iso ids other stores) :
    Addable iso ids other { stores with journal := stores.journal.append event } :=
  ⟨Journaled.append h, ho.drawn, ho.readable⟩

theorem readable_of_payload? {event : RuntimeEvent} (h : payload? event = none) : Readable iso event := by
  intro payload hp
  rw [h] at hp
  cases hp

theorem payload?_of_type {event : RuntimeEvent} (h : event.type ≠ sessionStateEvent) :
    payload? event = none := if_pos h

theorem Drawn.draw {event : RuntimeEvent} (h : Drawn ids event stores) :
    Drawn ids event { stores with drawn := stores.drawn + 1 } := by
  obtain ⟨n, hn, he⟩ := h
  exact ⟨n, Nat.lt_succ_of_lt hn, he⟩

theorem Journaled.draw (h : Journaled iso ids stores) :
    Journaled iso ids { stores with drawn := stores.drawn + 1 } :=
  ⟨fun e he => (h.drawn e he).draw, h.readable⟩

theorem Journaled.fresh (h : Journaled iso ids stores) :
    ids.nth stores.drawn ∉ stores.journal.map RuntimeEvent.id := by
  intro hmem
  obtain ⟨e, he, hid⟩ := List.mem_map.mp hmem
  obtain ⟨n, hn, hd⟩ := h.drawn e he
  have : n = stores.drawn := ids.injective (hd.symm.trans hid)
  omega

theorem appendToJournal_keeps {r : Bool} {event other : RuntimeEvent} :
    Triple (fun s => Addable iso ids event s ∧ Addable iso ids other s)
      (appendToJournal (B := B) r event) (fun _ => Addable iso ids other) (Journaled iso ids) :=
  Triple.guard (fun _ _ hs => hs.1.journaled) fun _ => Triple.update fun _ hs => hs.1.append hs.2

theorem record_keeps {event : RuntimeEvent} :
    Triple (Addable iso ids event) (record (B := B) em f event) (fun _ => Addable iso ids event)
      (Journaled iso ids) := by
  unfold record
  split
  · exact appendToJournal_keeps.weaken (fun s hs => ⟨hs, hs⟩) (fun _ _ h => h) (fun _ h => h)
  · exact Triple.ret fun s hs => hs
  · exact Triple.ret fun s hs => hs

theorem runtimeEvent_drawn {state : AgentState}
    (hp : ∀ s, P s → P { s with drawn := s.drawn + 1 }) :
    Triple (fun s => P s ∧ Journaled iso ids s) (runtimeEvent (B := B) ids state type actionId data now)
      (fun e s => P s ∧ Journaled iso ids s ∧ Drawn ids e s ∧ e.type = type ∧ e.data = data ∧
        e.sessionId = state.sessionId ∧ e.id ∉ s.journal.map RuntimeEvent.id)
      (fun _ => False) := by
  refine Triple.read fun t ht => ?_
  refine Triple.bind (Triple.write (Q := fun _ s => s = { t with drawn := t.drawn + 1 })
    fun s _ => rfl) fun _ => Triple.ret ?_
  rintro s rfl
  exact ⟨hp t ht.1, ht.2.draw, ⟨t.drawn, Nat.lt_succ_self _, rfl⟩, rfl, rfl, rfl, ht.2.fresh⟩

/-- A state record can be read: it was written from a coherent snapshot. -/
theorem readable_stateRecord {snapshot : SessionSnapshot} {form : Json} {event : RuntimeEvent}
    (hc : Coherent snapshot) (hform : encodeSessionSnapshot codec iso snapshot = .ok form)
    (ht : event.type = sessionStateEvent) (hd : event.data = [("snapshot", form)]) :
    ∃ t, copySession codec snapshot = .ok t ∧ payload? event = some form ∧
      decodeSessionSnapshot iso form = .ok t ∧ Readable iso event := by
  have hr := snapshot_readsAs codec iso hc
  obtain ⟨t, hcopy⟩ := hr.copied form hform
  obtain ⟨v, hv, hdec⟩ := hr.read t hcopy
  obtain rfl : v = form := Except.ok.inj (hv.symm.trans hform)
  have hne : v ≠ .null := by
    rintro rfl
    cases hdec
  have hp : payload? event = some v := by
    unfold payload?
    rw [if_neg (not_not.mpr ht), hd]
    simp only [List.lookup, beq_self_eq_true]
  refine ⟨t, hcopy, hp, hdec, fun payload hpay => ⟨t, ?_⟩⟩
  rw [hp] at hpay
  rw [← Option.some.inj hpay]
  exact hdec

theorem recordState_keeps {event : RuntimeEvent} {snapshot : SessionSnapshot}
    (hc : Coherent snapshot) :
    Triple (Addable iso ids event) (recordState (B := B) iso ids em f snapshot now)
      (fun _ => Addable iso ids event) (Journaled iso ids) := by
  unfold recordState
  have hrecord : ∀ form, encodeSessionSnapshot codec iso snapshot = .ok form →
      Triple (Addable iso ids event)
        (runtimeEvent (B := B) ids snapshot.state sessionStateEvent none [("snapshot", form)] now
          >>= appendToJournal f.state) (fun _ => Addable iso ids event) (Journaled iso ids) := by
    intro form hform
    have hdraw : ∀ s : Stores B, Addable iso ids event s →
        Addable iso ids event { s with drawn := s.drawn + 1 } :=
      fun s hs => ⟨hs.journaled.draw, hs.drawn.draw, hs.readable⟩
    refine Triple.bind ((runtimeEvent_drawn hdraw).weaken (fun s hs => ⟨hs, hs.journaled⟩)
      (fun _ _ h => h) (fun _ h => h.elim)) fun e => ?_
    refine appendToJournal_keeps.weaken (fun s hs => ?_) (fun _ _ h => h) (fun _ h => h)
    obtain ⟨hadd, hj, hdrawn, ht, hd, -, -⟩ := hs
    obtain ⟨-, -, -, -, hr⟩ := readable_stateRecord hc hform ht hd
    exact ⟨⟨hj, hdrawn, hr⟩, hadd⟩
  split
  · exact Triple.ret fun s hs => hs
  all_goals
    split
    · exact Triple.raise fun s hs => hs.journaled
    · next form hform => exact hrecord form hform

theorem saveSnapshot_keeps {snapshot : SessionSnapshot}
    (hp : ∀ s sessions, P s → P { s with sessions := sessions }) :
    Triple P (saveSnapshot snapshot) (fun _ => P) P := by
  refine Triple.read fun t ht => ?_
  split
  · exact Triple.raise fun s hs => hs ▸ ht
  · next sessions version _ =>
      exact Triple.bind (Triple.write (Q := fun _ => P) fun s _ => hp t sessions ht) fun _ =>
        Triple.ret fun s hs => hs

theorem Addable.withSessions {event : RuntimeEvent} (s : Stores B) (sessions : SessionStore B)
    (h : Addable iso ids event s) : Addable iso ids event { s with sessions := sessions } :=
  ⟨⟨h.journaled.drawn, h.journaled.readable⟩, h.drawn, h.readable⟩

theorem commitSnapshot_keeps {event : RuntimeEvent} {snapshot : SessionSnapshot} :
    Triple (Addable iso ids event) (commitSnapshot (B := B) em snapshot event)
      (fun _ => Addable iso ids event) (Journaled iso ids) := by
  refine Triple.bind ((saveSnapshot_keeps Addable.withSessions).weaken (fun _ h => h)
    (fun _ _ h => h) fun _ h => h.journaled) fun version => ?_
  refine Triple.bind (Triple.update (Q := fun _ => Addable iso ids event) fun s hs => ?_) fun _ =>
    Triple.ret fun s hs => hs
  split
  · exact hs.append hs
  · exact ⟨⟨hs.journaled.drawn, hs.journaled.readable⟩, hs.drawn, hs.readable⟩

theorem sinkEmit_keeps {event : RuntimeEvent} :
    Triple (Addable iso ids event) (sinkEmit (B := B) em f event) (fun _ => Journaled iso ids)
      (Journaled iso ids) := by
  refine Triple.guard (fun _ s hs => hs.journaled) fun _ => Triple.update fun s hs => ?_
  split
  · exact Journaled.append hs
  · exact ⟨hs.journaled.drawn, hs.journaled.readable⟩

/-! ## Commits that agree -/

/-- Nothing is left behind: the session store and every list of events are as they were. -/
structure Untouched (w s : Stores B) : Prop where
  sessions : s.sessions = w.sessions
  journal : s.journal = w.journal
  sink : s.sink = w.sink
  log : s.log = w.log

variable (iso) in
structure Rebuilt (sessions : SessionStore B) (id : SessionId) (s : Stores B) : Prop where
  saved : s.sessions = sessions
  rebuilt : ∃ t, sessions.loadSession id = .ok t ∧ rebuildSessionSnapshot iso s.journal id = .ok t

variable (iso) in
/-- How a commit of `snapshot` should end: nothing is left behind, or it is saved and what is
rebuilt from the journal is what is stored. -/
def Settled (w : Stores B) (snapshot : SessionSnapshot) (s : Stores B) : Prop :=
  Untouched w s ∨ ∃ sessions v, w.sessions.saveSession snapshot = .ok (sessions, v) ∧
    Rebuilt iso sessions snapshot.state.sessionId s

def accepts (sessions : SessionStore B) (snapshot : SessionSnapshot) : Bool :=
  (sessions.saveSession snapshot).isOk

variable (em f) in
/-- The condition under which `commit_session_event` settles. Without a committer the state is
recorded before it is saved; a journal apart is given the event before it is known whether the
snapshot is saved; and without an event store there is nothing to rebuild from. -/
def commitSound (accepted : Bool) : Bool :=
  match em.eventStore with
  | .separate => f.record || (em.committer ≠ .none && accepted && !f.state)
  | .sink => if em.committer = .none then f.state else !accepted || !f.state
  | .absent => !accepted

variable (em f) in
/-- The condition under which `reject_session` settles: without a committer it records no
state. -/
def rejectSound (accepted : Bool) : Bool :=
  !accepted || (em.committer ≠ .none && em.eventStore ≠ .absent && !f.state)

theorem record_untouched {event : RuntimeEvent}
    (h : em.eventStore = .separate → f.record = true) :
    Triple (Untouched w) (record (B := B) em f event)
      (fun _ s => Untouched w s ∧ em.eventStore ≠ .separate) (Untouched w) := by
  unfold record
  split
  · next he => exact Triple.guard (fun _ _ hs => hs) fun hr => absurd (h he) hr
  all_goals
    next he => exact Triple.ret fun s hs => ⟨hs, by rw [he]; nofun⟩

theorem saveSnapshot_refused {snapshot : SessionSnapshot}
    (h : accepts w.sessions snapshot = false) :
    Triple (Untouched w) (saveSnapshot snapshot) Q (Untouched w) := by
  refine Triple.read fun t ht => ?_
  rw [ht.sessions]
  split
  · exact Triple.raise fun s hs => hs ▸ ht
  · next hs => simp [accepts, hs, Except.isOk, Except.toBool] at h

theorem saveSnapshot_accepted {snapshot : SessionSnapshot}
    {v : Int}
    (h : w.sessions.saveSession snapshot = .ok (sessions, v))
    (hp : ∀ s, P s → P { s with sessions := sessions }) :
    Triple (fun s => P s ∧ s.sessions = w.sessions) (saveSnapshot snapshot)
      (fun v' s => v' = v ∧ P s ∧ s.sessions = sessions) (fun _ => False) := by
  refine Triple.read fun t ht => ?_
  rw [ht.2, h]
  exact Triple.bind (Triple.write (Q := fun _ s => P s ∧ s.sessions = sessions)
    fun s _ => ⟨hp t ht.1, rfl⟩) fun _ => Triple.ret fun s hs => ⟨rfl, hs⟩

theorem recordState_records {event : RuntimeEvent} {snapshot t : SessionSnapshot}
    (hc : Coherent snapshot)
    (hcopy : copySession codec snapshot = .ok t) (hplace : em.eventStore ≠ .absent)
    (hstate : f.state = false)
    (hload : sessions.loadSession snapshot.state.sessionId = .ok t) :
    Triple (fun s => Addable iso ids event s ∧ s.sessions = sessions)
      (recordState (B := B) iso ids em f snapshot now)
      (fun _ => Rebuilt iso sessions snapshot.state.sessionId) (fun _ => False) := by
  obtain ⟨form, hform, -⟩ := (snapshot_readsAs codec iso hc).read t hcopy
  have hrecord : Triple (fun s => Addable iso ids event s ∧ s.sessions = sessions)
      (runtimeEvent (B := B) ids snapshot.state sessionStateEvent none [("snapshot", form)] now
        >>= appendToJournal f.state)
      (fun _ => Rebuilt iso sessions snapshot.state.sessionId) (fun _ => False) := by
    have hdraw : ∀ s : Stores B, s.sessions = sessions →
        { s with drawn := s.drawn + 1 }.sessions = sessions := fun _ hs => hs
    refine Triple.bind ((runtimeEvent_drawn hdraw).weaken (fun s hs => ⟨hs.2, hs.1.journaled⟩)
      (fun _ _ h => h) (fun _ h => h)) fun e => ?_
    rw [hstate]
    refine Triple.guard (fun h => absurd h (by simp)) fun _ => Triple.update fun s hs => ?_
    obtain ⟨hsess, hj, -, ht, hd, hid, hfresh⟩ := hs
    obtain ⟨u, hu, hp, hdec, -⟩ := readable_stateRecord hc hform ht hd
    obtain rfl : t = u := Except.ok.inj (hcopy.symm.trans hu)
    refine ⟨hsess, t, hload, ?_⟩
    have := rebuild_record hj.readable hfresh hp hdec
    rw [hid] at this
    exact this
  unfold recordState
  rw [hform]
  split
  · next h => exact absurd h hplace
  all_goals exact hrecord

theorem sinkEmit_rebuilt {event : RuntimeEvent} {id : SessionId}
    (hp : payload? event = none) :
    Triple (Rebuilt iso sessions id) (sinkEmit (B := B) em f event)
      (fun _ => Rebuilt iso sessions id) (Rebuilt iso sessions id) := by
  refine Triple.guard (fun _ _ hs => hs) fun _ => Triple.update fun s hs => ?_
  split
  · obtain ⟨t, ht, hr⟩ := hs.rebuilt
    exact ⟨hs.saved, t, ht, by rw [← hr]; exact rebuild_append_event s.journal hp id⟩
  · exact ⟨hs.saved, hs.rebuilt⟩

theorem accepts_eq_true {snapshot : SessionSnapshot} :
    accepts sessions snapshot = true ↔ ∃ s v, sessions.saveSession snapshot = .ok (s, v) := by
  unfold accepts
  cases h : sessions.saveSession snapshot with
  | ok p => simp [Except.isOk, Except.toBool, Prod.ext_iff]
  | error e => simp [Except.isOk, Except.toBool]

theorem record_sessions {event : RuntimeEvent}
    (h : f.record = false) :
    Triple (fun s => s.sessions = sessions) (record (B := B) em f event)
      (fun _ s => s.sessions = sessions) (fun _ => False) := by
  unfold record
  split
  · exact Triple.guard (fun hr => by simp [h] at hr) fun _ => Triple.update fun _ hs => hs
  all_goals exact Triple.ret fun _ hs => hs

theorem runtimeEvent_untouched {state : AgentState}
    :
    Triple (Untouched w) (runtimeEvent (B := B) ids state type actionId data now)
      (fun _ => Untouched w) (Untouched w) :=
  Triple.read fun _ ht => Triple.bind (Triple.write (Q := fun _ => Untouched w)
    fun _ _ => ⟨ht.sessions, ht.journal, ht.sink, ht.log⟩) fun _ => Triple.ret fun _ hs => hs

theorem recordState_raises {snapshot : SessionSnapshot}
    {Q : Unit → Stores B → Prop} (hplace : em.eventStore ≠ .absent) (hstate : f.state = true) :
    Triple (Untouched w) (recordState (B := B) iso ids em f snapshot now) Q (Untouched w) := by
  unfold recordState
  split
  · next h => exact absurd h hplace
  all_goals
    split
    · exact Triple.raise fun _ hs => hs
    · exact Triple.bind runtimeEvent_untouched fun _ =>
        Triple.guard (fun _ _ hs => hs) fun h => absurd hstate h

/-- A snapshot that is saved with its event, and its state recorded after it, whatever the call
goes on with. -/
theorem commitSnapshot_settles {event : RuntimeEvent} {snapshot : SessionSnapshot}
    {α : Type} {rest : Int → Effect B α} {Q : α → Stores B → Prop}
    {E : Stores B → Prop} (hc : Coherent snapshot) (haccept : accepts w.sessions snapshot = true)
    (hplace : em.eventStore ≠ .absent) (hstate : f.state = false)
    (hrest : ∀ sessions v, w.sessions.saveSession snapshot = .ok (sessions, v) →
      Triple (Rebuilt iso sessions snapshot.state.sessionId) (rest v) Q E) :
    Triple (fun s => Addable iso ids event s ∧ s.sessions = w.sessions)
      (do
        let version ← commitSnapshot em snapshot event
        recordState (B := B) iso ids em f { snapshot with version := version } now
        rest version) Q E := by
  obtain ⟨sessions, v, hsave⟩ := accepts_eq_true.mp haccept
  obtain ⟨_, -, -, rfl, hwrite⟩ := SessionStore.saveSession_eq_ok.mp hsave
  have hc' := hc.withVersion (snapshot.version + 1)
  obtain ⟨t, hcopy, hload⟩ := SessionStore.loadSession_write hc' hwrite
  refine Triple.bind (Q := fun v s => v = snapshot.version + 1 ∧ Addable iso ids event s ∧
    s.sessions = sessions) ?_ fun version => Triple.assume ?_
  · refine Triple.bind ((saveSnapshot_accepted hsave fun s hs => hs.withSessions s sessions).weaken
      (fun _ h => h) (fun _ _ h => h) fun _ h => h.elim) fun version => Triple.assume fun hv => ?_
    refine Triple.bind (Triple.update (Q := fun _ s => Addable iso ids event s ∧
      s.sessions = sessions) fun s hs => ?_) fun _ => Triple.ret fun s hs => ⟨hv, hs⟩
    split
    · exact ⟨hs.1.append hs.1, hs.2⟩
    · exact ⟨⟨⟨hs.1.journaled.drawn, hs.1.journaled.readable⟩, hs.1.drawn, hs.1.readable⟩, hs.2⟩
  · rintro rfl
    exact Triple.bind ((recordState_records hc' hcopy hplace hstate hload).weaken (fun _ h => h)
      (fun _ _ h => h) fun _ h => h.elim) fun _ => hrest sessions _ hsave

theorem commitSnapshot_refused {event : RuntimeEvent} {snapshot : SessionSnapshot}
    (h : accepts w.sessions snapshot = false) :
    Triple (Untouched w) (commitSnapshot em snapshot event) Q (Untouched w) :=
  Triple.stop (saveSnapshot_refused h)

theorem commitSessionEvent_settles {session : SessionRuntimeState}
    {evidence : Evidence.EvidenceStore} {event : RuntimeEvent}
    (hp : payload? event = none)
    (h : commitSound em f (accepts w.sessions (session.snapshot evidence)) = true) :
    Triple (fun s => Addable iso ids event s ∧ Untouched w s)
      (commitSessionEvent iso ids em f session evidence event now)
      (fun _ => Settled iso w (session.snapshot evidence))
      (Settled iso w (session.snapshot evidence)) := by
  have hc : Coherent (session.snapshot evidence) := (Produced.session session evidence).coherent
  have hwithout : em.committer = .none → Triple (Untouched w)
      (do
        record em f event
        recordState (B := B) iso ids em f (session.snapshot evidence) now
        let version ← saveSnapshot (session.snapshot evidence)
        sinkEmit em f event
        pure version) (fun _ => Untouched w) (Untouched w) := by
    intro hcom
    refine Triple.bind (record_untouched fun he => by simpa [commitSound, he, hcom] using h)
      fun _ => ?_
    cases hplace : em.eventStore with
    | separate => exact fun s hs => absurd rfl hs.2
    | sink =>
      have hstate : f.state = true := by simpa [commitSound, hplace, hcom] using h
      exact (Triple.stop (recordState_raises (by simp [hplace]) hstate)).weaken
        (fun s hs => hs.1) (fun _ _ h => h) fun _ h => h
    | absent =>
      have haccept : accepts w.sessions (session.snapshot evidence) = false := by
        simpa [commitSound, hplace] using h
      have hrecord : recordState (B := B) iso ids em f (session.snapshot evidence) now
          = pure () := by rw [recordState, hplace]
      rw [hrecord]
      exact (Triple.bind (Triple.ret (Q := fun _ => Untouched w) fun _ hs => hs) fun _ =>
        Triple.stop (saveSnapshot_refused haccept)).weaken (fun s hs => hs.1) (fun _ _ h => h)
          fun _ h => h
  have hwith : em.committer ≠ .none → Triple (fun s => Addable iso ids event s ∧ Untouched w s)
      (do
        record em f event
        let version ← commitSnapshot em (session.snapshot evidence) event
        recordState (B := B) iso ids em f { session.snapshot evidence with version := version } now
        sinkEmit em f event
        pure version)
      (fun _ => Settled iso w (session.snapshot evidence))
      (Settled iso w (session.snapshot evidence)) := by
    intro hcom
    have hsettle : ∀ sessions v,
        w.sessions.saveSession (session.snapshot evidence) = .ok (sessions, v) →
        Triple (Rebuilt iso sessions (session.snapshot evidence).state.sessionId)
          (do sinkEmit (B := B) em f event; pure v)
          (fun _ => Settled iso w (session.snapshot evidence))
          (Settled iso w (session.snapshot evidence)) := by
      intro sessions v hsave
      exact Triple.bind ((sinkEmit_rebuilt hp).weaken (fun _ h => h) (fun _ _ h => h)
        fun _ h => .inr ⟨sessions, v, hsave, h⟩) fun _ =>
          Triple.ret fun _ h => .inr ⟨sessions, v, hsave, h⟩
    by_cases hrec : em.eventStore = .separate → f.record = true
    · refine Triple.bind ((record_keeps.and (record_untouched hrec)).weaken (fun _ h => h)
        (fun _ _ h => h) fun _ h => .inl h.2) fun _ => ?_
      cases haccept : accepts w.sessions (session.snapshot evidence) with
      | false =>
        exact (Triple.stop (commitSnapshot_refused haccept)).weaken (fun _ h => h.2.1)
          (fun _ _ h => h) fun _ h => .inl h
      | true =>
        intro s hs
        have hsound : em.eventStore ≠ .absent ∧ f.state = false := by
          cases hplace : em.eventStore with
          | separate => exact absurd hplace hs.2.2
          | sink => simpa [commitSound, hplace, hcom, haccept] using h
          | absent => simp [commitSound, hplace, haccept] at h
        exact commitSnapshot_settles hc haccept hsound.1 hsound.2 hsettle s
          ⟨hs.1, hs.2.1.sessions⟩
    · rw [Classical.not_imp] at hrec
      have hsound : accepts w.sessions (session.snapshot evidence) = true ∧ f.state = false := by
        simpa [commitSound, hrec.1, hrec.2, hcom] using h
      -- The journal is apart and the event goes into it: sound only when the commit is saved.
      exact Triple.bind ((record_keeps.and (record_sessions (by simpa using hrec.2))).weaken
        (fun s hs => ⟨hs.1, hs.2.sessions⟩) (fun _ _ h => h) fun _ hs => hs.2.elim) fun _ =>
          commitSnapshot_settles hc hsound.1 (by simp [hrec.1]) hsound.2 hsettle
  unfold commitSessionEvent
  cases hcom : em.committer with
  | none =>
    exact (hwithout hcom).weaken (fun _ h => h.2) (fun _ _ h => .inl h) fun _ h => .inl h
  | ownLog => exact hwith (by simp [hcom])
  | journal => exact hwith (by simp [hcom])

theorem runtimeEvent_addable {state : AgentState}
    (h : type ≠ sessionStateEvent) :
    Triple (Journaled iso ids) (runtimeEvent (B := B) ids state type actionId data now)
      (fun e s => payload? e = none ∧ Addable iso ids e s) (Journaled iso ids) := by
  refine (runtimeEvent_drawn (P := fun _ => True) fun _ h => h).weaken (fun _ h => ⟨trivial, h⟩)
    (fun e s hs => ?_) fun _ h => h.elim
  obtain ⟨-, hj, hd, ht, -⟩ := hs
  have hp : payload? e = none := payload?_of_type (ht ▸ h)
  exact ⟨hp, hj, hd, readable_of_payload? hp⟩

theorem rejectCommit_settles {snapshot : SessionSnapshot} {reason : String}
    (h : rejectSound em f (accepts w.sessions (rejectedSnapshot snapshot reason)) = true) :
    Triple (fun s => Untouched w s ∧ Journaled iso ids s)
      (rejectCommit iso ids em f snapshot reason now)
      (fun _ => Settled iso w (rejectedSnapshot snapshot reason))
      (Settled iso w (rejectedSnapshot snapshot reason)) := by
  have hc : Coherent (rejectedSnapshot snapshot reason) :=
    (rejectedSnapshot_produced snapshot reason snapshot.version).coherent
  refine Triple.bind ((runtimeEvent_untouched.and (runtimeEvent_addable (by decide))).weaken
    (fun _ h => h) (fun _ _ h => h) fun _ h => .inl h.1) fun event => ?_
  cases haccept : accepts w.sessions (rejectedSnapshot snapshot reason) with
  | false =>
    cases em.committer with
    | none =>
      exact (Triple.stop (saveSnapshot_refused haccept)).weaken (fun _ h => h.1)
        (fun _ _ h => h) fun _ h => .inl h
    | _ =>
      exact (Triple.stop (commitSnapshot_refused haccept)).weaken (fun _ h => h.1)
        (fun _ _ h => h) fun _ h => .inl h
  | true =>
    have hsound : em.committer ≠ .none ∧ em.eventStore ≠ .absent ∧ f.state = false := by
      simpa [rejectSound, haccept, and_assoc] using h
    have hwith : Triple (fun s => Addable iso ids event s ∧ s.sessions = w.sessions)
        (do
          let version ← commitSnapshot em (rejectedSnapshot snapshot reason) event
          recordState (B := B) iso ids em f
            { rejectedSnapshot snapshot reason with version := version } now)
        (fun _ => Settled iso w (rejectedSnapshot snapshot reason))
        (Settled iso w (rejectedSnapshot snapshot reason)) := by
      have hk : Triple (fun s => Addable iso ids event s ∧ s.sessions = w.sessions)
          (do
            let version ← commitSnapshot em (rejectedSnapshot snapshot reason) event
            recordState (B := B) iso ids em f
              { rejectedSnapshot snapshot reason with version := version } now
            pure ())
          (fun _ => Settled iso w (rejectedSnapshot snapshot reason))
          (Settled iso w (rejectedSnapshot snapshot reason)) :=
        commitSnapshot_settles hc haccept hsound.2.1 hsound.2.2 fun sessions v hsave =>
          Triple.ret fun s hs => .inr ⟨sessions, v, hsave, hs⟩
      simpa only [bind_pure_unit] using hk
    cases hcom : em.committer with
    | none => exact absurd hcom hsound.1
    | _ =>
      exact hwith.weaken (fun _ h => ⟨h.2.2, h.1.sessions⟩) (fun _ _ h => h) fun _ h => h

theorem commitSessionEvent_keeps {session : SessionRuntimeState}
    {evidence : Evidence.EvidenceStore} {event : RuntimeEvent} :
    Triple (Addable iso ids event)
      (commitSessionEvent (B := B) iso ids em f session evidence event now)
      (fun _ => Journaled iso ids) (Journaled iso ids) := by
  have hc : Coherent (session.snapshot evidence) := (Produced.session session evidence).coherent
  have hwith : Triple (Addable iso ids event)
      (do
        record em f event
        let version ← commitSnapshot em (session.snapshot evidence) event
        recordState (B := B) iso ids em f { session.snapshot evidence with version := version } now
        sinkEmit em f event
        pure version) (fun _ => Journaled iso ids) (Journaled iso ids) :=
    record_keeps.bind fun _ => commitSnapshot_keeps.bind fun version =>
      (recordState_keeps (hc.withVersion version)).bind fun _ => sinkEmit_keeps.bind fun _ =>
        Triple.ret fun _ hs => hs
  unfold commitSessionEvent
  cases em.committer with
  | none =>
    exact record_keeps.bind fun _ => (recordState_keeps hc).bind fun _ =>
      ((saveSnapshot_keeps Addable.withSessions).weaken (fun _ h => h) (fun _ _ h => h)
        fun _ h => h.journaled).bind fun _ => sinkEmit_keeps.bind fun _ => Triple.ret fun _ hs => hs
  | _ => exact hwith

theorem rejectCommit_keeps {snapshot : SessionSnapshot} {reason : String} :
    Triple (Journaled iso ids) (rejectCommit (B := B) iso ids em f snapshot reason now)
      (fun _ => Journaled iso ids) (Journaled iso ids) := by
  have hc := rejectedSnapshot_produced snapshot reason
  refine Triple.bind (runtimeEvent_addable (by decide)) fun event => Triple.assume fun _ => ?_
  cases em.committer with
  | none =>
    exact ((saveSnapshot_keeps Addable.withSessions).weaken (fun _ h => h) (fun _ _ h => h)
      fun _ h => h.journaled).bind fun _ => sinkEmit_keeps
  | _ =>
    exact commitSnapshot_keeps.bind fun version =>
      (recordState_keeps (hc version).coherent).weaken (fun _ h => h) (fun _ _ h => h.journaled)
        fun _ h => h

/-! ## Runs -/

theorem perform_keeps (i : Transition.Input) :
    Triple (Journaled iso ids) (perform (B := B) iso ids em i) (fun _ => Journaled iso ids)
      (Journaled iso ids) := by
  have hsessions : ∀ (s : Stores B) (sessions : SessionStore B), Journaled iso ids s →
      Journaled iso ids { s with sessions := sessions } := fun _ _ h => ⟨h.drawn, h.readable⟩
  cases i with
  | create session evidence =>
    refine Triple.read fun t ht => ?_
    split
    · exact Triple.raise fun s hs => hs ▸ ht
    · next sessions _ => exact Triple.write fun s _ => hsessions t sessions ht
  | save session evidence =>
    exact (saveSnapshot_keeps hsessions).bind fun _ => Triple.ret fun _ h => h
  | emit state type actionId data now f =>
    exact (runtimeEvent_addable type.2).bind fun _ => Triple.assume fun _ =>
      record_keeps.bind fun _ => sinkEmit_keeps
  | commit session evidence type actionId data now f =>
    exact (runtimeEvent_addable type.2).bind fun _ => Triple.assume fun _ =>
      commitSessionEvent_keeps.bind fun _ => Triple.ret fun _ h => h
  | reject snapshot reason now f => exact rejectCommit_keeps

def Transition.Input.committed? : Transition.Input → Option SessionSnapshot
  | .commit session evidence _ _ _ _ _ => some (session.snapshot evidence)
  | .reject snapshot reason _ _ => some (rejectedSnapshot snapshot reason)
  | .create _ _ | .save _ _ | .emit _ _ _ _ _ _ => none

variable (em) in
def sound (stores : Stores B) : Transition.Input → Bool
  | .commit session evidence _ _ _ _ f =>
    commitSound em f (accepts stores.sessions (session.snapshot evidence))
  | .reject snapshot reason _ f =>
    rejectSound em f (accepts stores.sessions (rejectedSnapshot snapshot reason))
  | .create _ _ | .save _ _ | .emit _ _ _ _ _ _ => true

theorem perform_settles {i : Transition.Input} {snapshot : SessionSnapshot}
    (hi : i.committed? = some snapshot) (h : sound em w i = true) :
    Triple (fun s => Untouched w s ∧ Journaled iso ids s) (perform iso ids em i)
      (fun _ => Settled iso w snapshot) (Settled iso w snapshot) := by
  cases i with
  | commit session evidence type actionId data now f =>
    cases hi
    refine Triple.bind ((runtimeEvent_untouched.and (runtimeEvent_addable type.2)).weaken
      (fun _ h => h) (fun _ _ h => h) fun _ h => .inl h.1) fun event => ?_
    intro s hs
    have hcommit : Triple (fun s => Addable iso ids event s ∧ Untouched w s)
        (do
          let _ ← commitSessionEvent iso ids em f session evidence event now)
        (fun _ => Settled iso w (session.snapshot evidence))
        (Settled iso w (session.snapshot evidence)) :=
      (commitSessionEvent_settles hs.2.1 h).bind fun _ => Triple.ret fun _ h => h
    exact hcommit s ⟨hs.2.2, hs.1⟩
  | reject snapshot reason now f =>
    cases hi
    exact rejectCommit_settles h
  | _ => cases hi

variable (iso) in
/-- A commit has ended well: where the stored snapshot has changed, it is what is rebuilt from the
event store; where it has not, no event and no state record has been added anywhere. -/
structure Agrees (before after : Stores B) (id : SessionId) : Prop where
  committed : after.sessions.loadSession id ≠ before.sessions.loadSession id →
    ∃ s, after.sessions.loadSession id = .ok s ∧
      rebuildSessionSnapshot iso after.journal id = .ok s
  rejected : after.sessions.loadSession id = before.sessions.loadSession id →
    after.journal = before.journal ∧ after.sink = before.sink ∧ after.log = before.log

theorem Settled.agrees {before after : Stores B} {snapshot : SessionSnapshot}
    (hc : Coherent snapshot) (h : Settled iso before snapshot after) :
    Agrees iso before after snapshot.state.sessionId := by
  rcases h with h | ⟨sessions, v, hsave, hsaved, t, hload, hrebuilt⟩
  · exact ⟨fun hne => absurd (by rw [h.sessions]) hne, fun _ => ⟨h.journal, h.sink, h.log⟩⟩
  · obtain ⟨_, -, -, rfl, hwrite⟩ := SessionStore.saveSession_eq_ok.mp hsave
    obtain ⟨u, hcopy, hu⟩ := SessionStore.loadSession_write (hc.withVersion _) hwrite
    obtain rfl : t = u := Except.ok.inj (hload.symm.trans hu)
    have hne := SessionStore.loadSession_ne_of_save hsave hload (copySession_same hcopy).2.1
    rw [← hsaved] at hload hne
    exact ⟨fun _ => ⟨t, hload, hrebuilt⟩, fun heq => absurd heq hne⟩

theorem committed?_coherent {i : Transition.Input} {snapshot : SessionSnapshot}
    (hi : i.committed? = some snapshot) : Coherent snapshot := by
  cases i with
  | commit session evidence _ _ _ _ _ =>
    cases hi
    exact (Produced.session session evidence).coherent
  | reject snapshot reason _ _ =>
    cases hi
    exact (rejectedSnapshot_produced snapshot reason snapshot.version).coherent
  | _ => cases hi

/-- A call that is judged by a triple leaves the stores in its postcondition. -/
theorem outcome_of_triple {α : Type} {x : Effect B α} {P Q : Stores B → Prop}
    (h : Triple P x (fun _ => Q) Q) (hp : P stores) : Q (outcome x stores).2 := by
  have := h stores hp
  unfold outcome
  cases hr : x stores with
  | ok a s =>
    rw [hr] at this
    exact this
  | error e s =>
    rw [hr] at this
    exact this

theorem journaled (is : List Transition.Input) :
    Journaled iso ids ((emissionMachine iso ids em B).state is) := by
  refine (emissionMachine iso ids em B).invariant (Journaled iso ids) ⟨?_, ?_⟩
    (fun stores i h => outcome_of_triple (perform_keeps i) h) is
  · intro e he
    cases he
  · intro e he
    cases he

/-- **The event store and the session store agree.** In every run whose commits are sound, every
commit ends well. -/
theorem journal_agrees {is : List Transition.Input}
    (h : (emissionMachine iso ids em B).Meets (fun _ stores i => sound em stores i = true) is)
    {pre post : List Transition.Input} {i : Transition.Input} {snapshot : SessionSnapshot}
    (his : is = pre ++ i :: post) (hi : i.committed? = some snapshot) :
    Agrees iso ((emissionMachine iso ids em B).state pre)
      ((emissionMachine iso ids em B).state (pre ++ [i])) snapshot.state.sessionId := by
  have hj : Journaled iso ids ((emissionMachine iso ids em B).state pre) := journaled pre
  have hsettled := outcome_of_triple (perform_settles hi (h pre i post his))
    ⟨⟨rfl, rfl, rfl, rfl⟩, hj⟩
  rw [Machine.state_snoc]
  exact hsettled.agrees (committed?_coherent hi)

end Journal

/-! ## Two runs -/

def numberedIds : EventIds where
  nth n := "event-" ++ toString n
  injective _ _ h := Text.toString_injective (Text.prefix_inj h)

/-- The session as `create_session` takes it. -/
def newSession : SessionRuntimeState := { startedSession 0 false with version := 0 }

def noFailures : Failures := ⟨false, false, false⟩

def firstCommit : List Transition.Input :=
  [.create newSession .empty,
    .commit newSession .empty ⟨"StateUpdated", by decide⟩ none [] 30000000 noFailures]

/-- A file runtime store, which is the session store, the event store and the sink at once. -/
def fileEmitter : EventEmitter := ⟨.sink, .journal⟩

def memoryEmitter : EventEmitter := ⟨.sink, .none⟩

theorem journal_agrees_file :
    Agrees epochIso
      ((emissionMachine epochIso numberedIds fileEmitter (fileBackend plainCodec epochIso)).state
        [.create newSession .empty])
      ((emissionMachine epochIso numberedIds fileEmitter (fileBackend plainCodec epochIso)).state
        firstCommit) "session-1" := by
  have his : firstCommit = [.create newSession .empty] ++ .commit newSession .empty
    ⟨"StateUpdated", by decide⟩ none [] 30000000 noFailures :: [] := rfl
  refine journal_agrees ?_ his rfl
  decide +kernel

/-- Without a committer the recorded state is a version behind the stored one. -/
theorem journal_behind_memory :
    ¬ Agrees epochIso
      ((emissionMachine epochIso numberedIds memoryEmitter (memoryBackend plainCodec)).state
        [.create newSession .empty])
      ((emissionMachine epochIso numberedIds memoryEmitter (memoryBackend plainCodec)).state
        firstCommit) "session-1" := by
  intro h
  have hbefore : ((((emissionMachine epochIso numberedIds memoryEmitter
      (memoryBackend plainCodec)).state [.create newSession .empty]).sessions.loadSession
        "session-1").toOption.map SessionSnapshot.version) = some 0 := by decide +kernel
  have hafter : ((((emissionMachine epochIso numberedIds memoryEmitter
      (memoryBackend plainCodec)).state firstCommit).sessions.loadSession
        "session-1").toOption.map SessionSnapshot.version) = some 1 := by decide +kernel
  have hrebuilt : ((rebuildSessionSnapshot epochIso ((emissionMachine epochIso numberedIds
      memoryEmitter (memoryBackend plainCodec)).state firstCommit).journal
        "session-1").toOption.map SessionSnapshot.version) = some 0 := by decide +kernel
  obtain ⟨s, hload, hr⟩ := h.committed fun heq => by
    rw [heq, hbefore] at hafter
    cases hafter
  rw [hload] at hafter
  rw [hr] at hrebuilt
  have hone : s.version = 1 := Option.some.inj hafter
  have hzero : s.version = 0 := Option.some.inj hrebuilt
  omega

end UniversalAgent.Runtime
