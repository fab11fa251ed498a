import UniversalAgent.Persistence.RoundTrip

/-!
# State — EventStore

The event journal (`state/event_store.py`): the events in the order they were appended, each id
once, and the snapshot that `rebuild_session_snapshot` takes from the state records among them.
-/

namespace UniversalAgent.State

open UniversalAgent.Core UniversalAgent.Foundation UniversalAgent.Persistence

/-- `SESSION_STATE_EVENT`, the type of a state record. -/
def sessionStateEvent : String := "SessionStateCommitted"

abbrev Journal := List RuntimeEvent

/-- `append`: an event whose id is there already is ignored. -/
def Journal.append (journal : Journal) (event : RuntimeEvent) : Journal :=
  if event.id ∈ journal.map RuntimeEvent.id then journal else journal ++ [event]

def Journal.eventsFor (journal : Journal) (sessionId : SessionId) : List RuntimeEvent :=
  journal.filter fun event => event.sessionId = sessionId

/-- `EventReplayError`. -/
inductive ReplayError where
  | failedToDecode (event : EventId)
  | noStateEvents
deriving DecidableEq

/-- The snapshot that a state record carries; no other event carries one. -/
def payload? (event : RuntimeEvent) : Option Json :=
  if event.type ≠ sessionStateEvent then none
  else match event.data.lookup "snapshot" with
    | none | some .null => none
    | some payload => some payload

section Rebuild

variable (iso : IsoFormat)

/-- One turn of the loop of `rebuild_session_snapshot`. -/
def takeCandidate (candidate : Option SessionSnapshot) (event : RuntimeEvent) :
    Except ReplayError (Option SessionSnapshot) :=
  match payload? event with
  | none => .ok candidate
  | some payload =>
    match decodeSessionSnapshot iso payload with
    | .ok snapshot => .ok (some snapshot)
    | .error _ => .error (.failedToDecode event.id)

def rebuildSessionSnapshot (journal : Journal) (sessionId : SessionId) :
    Except ReplayError SessionSnapshot := do
  match ← (journal.eventsFor sessionId).foldlM (takeCandidate iso) none with
  | some snapshot => pure snapshot
  | none => throw .noStateEvents

/-! ## What is rebuilt -/

def Readable (event : RuntimeEvent) : Prop :=
  ∀ payload, payload? event = some payload → ∃ s, decodeSessionSnapshot iso payload = .ok s

variable {iso}

theorem takeCandidate_readable {event : RuntimeEvent} (h : Readable iso event)
    (candidate : Option SessionSnapshot) : ∃ c, takeCandidate iso candidate event = .ok c := by
  unfold takeCandidate
  split
  · exact ⟨candidate, rfl⟩
  · next payload hp =>
      obtain ⟨s, hs⟩ := h payload hp
      exact ⟨some s, by rw [hs]⟩

theorem foldlM_readable (events : List RuntimeEvent) (h : ∀ e ∈ events, Readable iso e)
    (candidate : Option SessionSnapshot) :
    ∃ c, events.foldlM (takeCandidate iso) candidate = .ok c := by
  induction events generalizing candidate with
  | nil => exact ⟨candidate, rfl⟩
  | cons e events ih =>
    obtain ⟨c, hc⟩ := takeCandidate_readable (h e List.mem_cons_self) candidate
    rw [List.foldlM_cons, hc]
    exact ih (fun e' he' => h e' (List.mem_cons_of_mem e he')) c

theorem append_of_fresh {journal : Journal} {event : RuntimeEvent}
    (h : event.id ∉ journal.map RuntimeEvent.id) : journal.append event = journal ++ [event] :=
  if_neg h

theorem mem_append {journal : Journal} {event e : RuntimeEvent} :
    e ∈ journal.append event → e ∈ journal ∨ e = event := by
  unfold Journal.append
  split
  · exact .inl
  · intro h
    simpa using h

/-- A readable state record at the end is what is rebuilt for its session. -/
theorem rebuild_record {journal : Journal} {event : RuntimeEvent} {payload : Json}
    {snapshot : SessionSnapshot} (hj : ∀ e ∈ journal, Readable iso e)
    (hfresh : event.id ∉ journal.map RuntimeEvent.id) (hp : payload? event = some payload)
    (hs : decodeSessionSnapshot iso payload = .ok snapshot) :
    rebuildSessionSnapshot iso (journal.append event) event.sessionId = .ok snapshot := by
  obtain ⟨c, hc⟩ := foldlM_readable (journal.eventsFor event.sessionId)
    (fun e he => hj e (List.mem_of_mem_filter he)) none
  have hlast : takeCandidate iso c event = .ok (some snapshot) := by
    simp [takeCandidate, hp, hs]
  rw [rebuildSessionSnapshot, append_of_fresh hfresh, Journal.eventsFor, List.filter_append,
    List.foldlM_append]
  rw [Journal.eventsFor] at hc
  simp [hc, hlast, pure, Except.pure]

/-- An event that carries no state leaves what is rebuilt as it is. -/
theorem rebuild_append_event (journal : Journal) {event : RuntimeEvent}
    (hp : payload? event = none) (sessionId : SessionId) :
    rebuildSessionSnapshot iso (journal.append event) sessionId
      = rebuildSessionSnapshot iso journal sessionId := by
  unfold Journal.append
  split
  · rfl
  · rw [rebuildSessionSnapshot, rebuildSessionSnapshot, Journal.eventsFor, Journal.eventsFor,
      List.filter_append, List.foldlM_append]
    by_cases hid : event.sessionId = sessionId
    · simp [hid, takeCandidate, hp, pure, Except.pure, bind_assoc]
    · simp [hid, pure, Except.pure, bind_assoc]

end Rebuild

end UniversalAgent.State
