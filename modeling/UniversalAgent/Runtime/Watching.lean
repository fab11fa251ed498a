import UniversalAgent.Runtime.EventStream

/-!
# Runtime — Watching

What the two watchers of an event stream yield. Both hand out a prefix of the matching events, in
journal order and each once: what is in the consumer's hand, what is left of the batch and what has
been appended since make up the matching events.

`poll_event_reader` reads again before every heartbeat. `watch_events` does not: it clears its flag
and waits, so an event that has been appended since it last read the journal is left out of the
heartbeats that follow, until another one is emitted in time.
-/

namespace UniversalAgent.Runtime

open UniversalAgent.Core UniversalAgent.Foundation

variable {unread : List RuntimeEvent} {is : List WatchInput} {s : Watched} {i : WatchInput}

/-! ## Matching events -/

namespace WatchRequest

variable (w : WatchRequest)

/-- The watcher's events are those of its session, but for the state commits. -/
def wants (event : RuntimeEvent) : Bool :=
  decide (event.type ≠ "SessionStateCommitted") && inSession w.sessionId event

/-- The events of a sink that the watcher's cursor is looked for in. -/
def candidates (sink : InMemoryEventSink) : List RuntimeEvent :=
  sink.visible.filter (inSession w.sessionId)

def matching (sink : InMemoryEventSink) : List RuntimeEvent :=
  match w.afterEventId with
  | some id => afterId id (w.candidates sink)
  | none => w.candidates sink

end WatchRequest

section Matching

variable (w : WatchRequest) (sink : InMemoryEventSink) (event : RuntimeEvent)

def newMatching : List RuntimeEvent :=
  if event.id ∉ sink.events.map RuntimeEvent.id ∧ w.wants event = true then [event] else []

theorem candidates_append : w.candidates (sink.append event) = w.candidates sink ++ newMatching w sink event := by
  unfold InMemoryEventSink.append newMatching
  by_cases h : event.id ∈ sink.events.map RuntimeEvent.id
  · simp [h]
  · rw [dif_neg h]
    unfold WatchRequest.candidates InMemoryEventSink.visible
    rw [List.filter_append, List.filter_append]
    refine congrArg _ ?_
    by_cases ht : event.type = "SessionStateCommitted"
    · simp [WatchRequest.wants, ht]
    · cases hs : inSession w.sessionId event <;> simp [WatchRequest.wants, ht, hs, h]

theorem nodup_candidates : ((w.candidates sink).map RuntimeEvent.id).Nodup :=
  sink.nodup.sublist ((List.filter_sublist.trans List.filter_sublist).map RuntimeEvent.id)

theorem matching_sublist : (w.matching sink).Sublist (w.candidates sink) := by
  unfold WatchRequest.matching
  split
  · next id hid =>
      by_cases h : id ∈ (w.candidates sink).map RuntimeEvent.id
      · obtain ⟨pre, e, hsplit, -⟩ := afterId_split h
        have hsub := (List.sublist_cons_self e (afterId id (w.candidates sink))).trans
          (List.sublist_append_right pre _)
        rwa [← hsplit] at hsub
      · rw [afterId_absent h]
        exact List.nil_sublist _
  · exact List.Sublist.refl _

theorem nodup_matching : ((w.matching sink).map RuntimeEvent.id).Nodup :=
  (nodup_candidates w sink).sublist ((matching_sublist w sink).map RuntimeEvent.id)

def Started : Prop :=
  ∀ id, w.afterEventId = some id → id ∈ (w.candidates sink).map RuntimeEvent.id

variable {w sink}

theorem Started.append (h : Started w sink) : Started w (sink.append event) := by
  intro id hid
  rw [candidates_append, List.map_append]
  exact List.mem_append_left _ (h id hid)

theorem Started.matching_append (h : Started w sink) :
    w.matching (sink.append event) = w.matching sink ++ newMatching w sink event := by
  unfold WatchRequest.matching
  split
  · next id hid =>
      rw [candidates_append]
      unfold newMatching
      split
      · exact afterId_snoc (h id hid)
      · rw [List.append_nil, List.append_nil]
  · exact candidates_append w sink event

theorem matching_starts : w.matching sink <+: w.matching (sink.append event) := by
  unfold WatchRequest.matching
  split
  · next id _ =>
      rw [candidates_append]
      by_cases h : id ∈ (w.candidates sink).map RuntimeEvent.id
      · unfold newMatching
        split
        · rw [afterId_snoc h]
          exact List.prefix_append _ _
        · rw [List.append_nil]
      · rw [afterId_absent h]
        exact List.nil_prefix
  · rw [candidates_append]
    exact List.prefix_append _ _

end Matching

/-! ## Resuming -/

/-- Where a watcher that has handed out `given` reads on. -/
def lastCursor (w : WatchRequest) (given : List RuntimeEvent) : Option EventId :=
  match given.getLast? with
  | some event => some event.id
  | none => w.afterEventId

section Resuming

variable {w : WatchRequest} {sink : InMemoryEventSink} {given rest : List RuntimeEvent}

/-- What has been handed out and what a batch reads then are the matching events. -/
theorem filterExisting_last (hs : Started w sink) (h : w.matching sink = given ++ rest) :
    sink.filterExisting w.sessionId (lastCursor w given) = .ok rest := by
  unfold InMemoryEventSink.filterExisting
  -- The events of the scope up to and with the watcher's own cursor.
  obtain ⟨before, hsplitAll⟩ : ∃ before, w.candidates sink = before ++ w.matching sink := by
    unfold WatchRequest.matching
    split
    · next id hid =>
        obtain ⟨pre, e, hsplit, -⟩ := afterId_split (hs id hid)
        exact ⟨pre ++ [e], by rw [List.append_assoc, List.singleton_append, ← hsplit]⟩
    · exact ⟨[], rfl⟩
  rcases List.eq_nil_or_concat given with rfl | ⟨init, e, rfl⟩
  · rw [List.nil_append] at h
    rw [← h]
    simp only [lastCursor, List.getLast?_nil, WatchRequest.matching]
    cases hid : w.afterEventId with
    | none => exact filterEvents_none _ _
    | some id =>
      rw [filterEvents_some]
      exact if_pos (hs id hid)
  · have hsplit : w.candidates sink = (before ++ init) ++ e :: rest := by
      rw [hsplitAll, h, List.concat_eq_append]
      simp
    have hfresh : e.id ∉ (before ++ init).map RuntimeEvent.id := by
      have hnodup := nodup_candidates w sink
      rw [hsplit, List.map_append, List.nodup_append] at hnodup
      exact fun hmem => hnodup.2.2 _ hmem _ List.mem_cons_self rfl
    simp only [lastCursor, List.concat_eq_append, List.getLast?_append, List.getLast?_singleton,
      Option.some_or]
    rw [filterEvents_some]
    change (if e.id ∈ (w.candidates sink).map RuntimeEvent.id then
      Except.ok (afterId e.id (w.candidates sink)) else _) = _
    rw [hsplit, if_pos (by simp), afterId_append rfl hfresh]

end Resuming

/-! ## What a stream has handed out -/

def WatchAnswer.event? : WatchAnswer → Option RuntimeEvent
  | .yielded event => some event
  | _ => none

def WatchAnswer.isItem : WatchAnswer → Bool
  | .yielded _ => true
  | .heartbeat => true
  | _ => false

def yieldedEvents (h : List (WatchInput × WatchAnswer)) : List RuntimeEvent :=
  h.filterMap fun e => e.2.event?

/-- Whether the stream has begun, and the matching events appended since it last read the
journal: it reads when it begins, and in a turn that it has not because of its timer. -/
def readStep (w : WatchRequest) (r : Bool × List RuntimeEvent) :
    WatchInput × WatchAnswer → Bool × List RuntimeEvent
  | (.append event, .appended) => (r.1, if w.wants event then r.2 ++ [event] else r.2)
  | (.emit event, .appended) => (r.1, if w.wants event then r.2 ++ [event] else r.2)
  | (.next, _) => if r.1 then r else (true, [])
  | (.turn, .slept) => (r.1, [])
  | (.turn, .yielded _) => (r.1, [])
  | _ => r

def items (h : List (WatchInput × WatchAnswer)) : Nat := h.countP fun e => e.2.isItem

def readState (w : WatchRequest) (h : List (WatchInput × WatchAnswer)) :
    Bool × List RuntimeEvent :=
  h.foldl (readStep w) (false, [])

/-- The matching events appended since the stream last read the journal. -/
def unreadEvents (w : WatchRequest) (h : List (WatchInput × WatchAnswer)) : List RuntimeEvent :=
  (readState w h).2

theorem yieldedEvents_snoc (h : List (WatchInput × WatchAnswer)) (e : WatchInput × WatchAnswer) :
    yieldedEvents (h ++ [e]) = yieldedEvents h ++ e.2.event?.toList := by
  unfold yieldedEvents
  rw [List.filterMap_append]
  cases he : e.2.event? with
  | none => simp [he]
  | some event => simp [he]

theorem readState_snoc (w : WatchRequest) (h : List (WatchInput × WatchAnswer))
    (e : WatchInput × WatchAnswer) : readState w (h ++ [e]) = readStep w (readState w h) e := by
  rw [readState, readState, List.foldl_append]
  rfl

def inHand : WatchStage → List RuntimeEvent
  | .yielding _ rest => rest
  | _ => []

/-- A stream that has handed out `given`: what is left of its batch and what has been appended
since are the other matching events, and it reads on from there. -/
structure Follows (w : WatchRequest) (given unread : List RuntimeEvent) (s : Watched) : Prop where
  running : s.stage ≠ .fresh ∧ s.stage ≠ .ended
  started : Started w s.sink
  split : w.matching s.sink = given ++ (inHand s.stage ++ unread)
  cursor : match s.stage with
    | .yielding event _ => given.getLast? = some event
    | _ => s.cursor = lastCursor w given

/-- The invariant of a stream: what it has handed out comes first among the matching events. -/
inductive StreamInv (w : WatchRequest) (given unread : List RuntimeEvent) (s : Watched) : Prop where
  | fresh (stage : s.stage = .fresh) (none : given = [])
  | ended (stage : s.stage = .ended) (first : given <+: w.matching s.sink)
  | following (follows : Follows w given unread s)

def WatchStage.idle : WatchStage → Bool
  | .waiting => true
  | .woken => true
  | .timedOut => true
  | .beating => true
  | _ => false

section Steps

variable {w : WatchRequest} {given unread batch : List RuntimeEvent} {s : Watched}

theorem StreamInv.isPrefix (h : StreamInv w given unread s) : given <+: w.matching s.sink := by
  cases h with
  | fresh stage none =>
    rw [none]
    exact List.nil_prefix
  | ended stage first => exact first
  | following follows =>
    rw [follows.split]
    exact List.prefix_append _ _

theorem StreamInv.follows (h : StreamInv w given unread s) (hf : s.stage ≠ .fresh)
    (he : s.stage ≠ .ended) : Follows w given unread s := by
  cases h with
  | fresh stage none => exact absurd stage hf
  | ended stage first => exact absurd stage he
  | following follows => exact follows

theorem StreamInv.close (h : StreamInv w given unread s) :
    StreamInv w given unread { s with stage := .ended } := .ended rfl h.isPrefix

theorem StreamInv.append (h : StreamInv w given unread s) (event : RuntimeEvent) :
    StreamInv w given (unread ++ newMatching w s.sink event) (s.append event).2 := by
  cases h with
  | fresh stage none => exact .fresh stage none
  | ended stage first => exact .ended stage (first.trans (matching_starts event))
  | following h =>
    refine .following ⟨h.running, h.started.append event, ?_, h.cursor⟩
    unfold Watched.append
    rw [h.started.matching_append, h.split, List.append_assoc, List.append_assoc]

/-- At an idle stage, nothing is left of a batch and the cursor is at the last event. -/
theorem Follows.of_idle (hstage : s.stage.idle = true) :
    Follows w given unread s ↔
      Started w s.sink ∧ w.matching s.sink = given ++ unread ∧ s.cursor = lastCursor w given := by
  cases hs : s.stage with
  | fresh => rw [hs] at hstage; cases hstage
  | yielding event rest => rw [hs] at hstage; cases hstage
  | ended => rw [hs] at hstage; cases hstage
  | _ =>
    constructor
    · rintro ⟨-, hstarted, hsplit, hcursor⟩
      rw [hs] at hsplit hcursor
      exact ⟨hstarted, hsplit, hcursor⟩
    · rintro ⟨hstarted, hsplit, hcursor⟩
      refine ⟨by rw [hs]; exact ⟨nofun, nofun⟩, hstarted, ?_, ?_⟩
      · rw [hs]
        exact hsplit
      · rw [hs]
        exact hcursor

theorem Follows.pass (h : Follows w given unread s) (hs : s.stage.idle = true) {stage : WatchStage}
    (hstage : stage.idle = true) (subscriber : Bool) :
    Follows w given unread { s with subscriber := subscriber, stage := stage } :=
  (Follows.of_idle hstage).mpr ((Follows.of_idle hs).mp h)

theorem Follows.reads (h : Follows w given unread s) (hs : s.stage.idle = true) :
    s.sink.filterExisting w.sessionId s.cursor = .ok unread := by
  obtain ⟨hstarted, hsplit, hcursor⟩ := (Follows.of_idle hs).mp h
  rw [hcursor]
  exact filterExisting_last hstarted hsplit

/-- A stream that has not begun reads the matching events, if its cursor is there. -/
theorem reads_first (sink : InMemoryEventSink) :
    (Started w sink ∧ sink.filterExisting w.sessionId w.afterEventId = .ok (w.matching sink)) ∨
      ∃ e, sink.filterExisting w.sessionId w.afterEventId = .error e := by
  cases hafter : w.afterEventId with
  | none =>
    refine .inl ⟨fun id hid => (nomatch hafter.symm.trans hid), ?_⟩
    unfold WatchRequest.matching
    rw [hafter]
    exact filterEvents_none _ _
  | some id =>
    unfold InMemoryEventSink.filterExisting
    rw [filterEvents_some]
    by_cases hid : id ∈ (w.candidates sink).map RuntimeEvent.id
    · refine .inl ⟨fun id' hid' => ?_, ?_⟩
      · rw [hafter] at hid'
        cases hid'
        exact hid
      · unfold WatchRequest.matching
        rw [hafter]
        exact if_pos hid
    · exact .inr ⟨_, if_neg hid⟩

/-- The next event of a batch, or what comes after the batch. -/
theorem give_inv {orElse : WatchAnswer × Watched} (hstarted : Started w s.sink)
    (hsplit : w.matching s.sink = given ++ (batch ++ unread))
    (helse : batch = [] →
      StreamInv w (given ++ orElse.1.event?.toList) unread orElse.2) :
    StreamInv w (given ++ (s.give orElse batch).1.event?.toList) unread (s.give orElse batch).2 := by
  cases batch with
  | nil => exact helse rfl
  | cons event rest =>
    refine .following ⟨⟨nofun, nofun⟩, hstarted, ?_, ?_⟩
    · rw [List.append_assoc]
      exact hsplit
    · exact List.getLast?_concat

/-- After the item in hand, the cursor is at its event. -/
theorem Follows.resume {event : RuntimeEvent} {rest : List RuntimeEvent}
    (h : Follows w given unread s) (hs : s.stage = .yielding event rest) :
    w.matching s.sink = given ++ (rest ++ unread) ∧ some event.id = lastCursor w given := by
  have hsplit := h.split
  have hcursor := h.cursor
  rw [hs] at hsplit hcursor
  refine ⟨hsplit, ?_⟩
  unfold lastCursor
  rw [hcursor]

end Steps

/-! ## `watch_events` -/

/-- The invariant of `watch_events`. -/
structure WatchInv (w : WatchRequest) (given : List RuntimeEvent) (r : Bool × List RuntimeEvent)
    (s : Watched) : Prop where
  stream : StreamInv w given r.2 s
  begun : r.1 = false → s.stage = .fresh ∨ s.stage = .ended
  fresh : s.stage = .fresh → r.1 = false

section WatchSteps

variable {w : WatchRequest} {given : List RuntimeEvent} {r : Bool × List RuntimeEvent} {s : Watched}

theorem readStep_append (event : RuntimeEvent) :
    readStep w r (.append event, (s.append event).1)
        = (r.1, r.2 ++ newMatching w s.sink event) ∧
      readStep w r (.emit event, (s.append event).1)
        = (r.1, r.2 ++ newMatching w s.sink event) ∧
      (s.append event).1.event? = none := by
  unfold Watched.append newMatching
  by_cases h : event.id ∈ s.sink.events.map RuntimeEvent.id
  · simp [h, readStep, WatchAnswer.event?]
  · cases hw : w.wants event <;> simp [h, hw, readStep, WatchAnswer.event?]

theorem WatchInv.running (h : WatchInv w given r s) (hf : s.stage ≠ .fresh) (he : s.stage ≠ .ended) :
    Follows w given r.2 s ∧ r.1 = true := by
  refine ⟨h.stream.follows hf he, ?_⟩
  cases hr : r.1 with
  | true => rfl
  | false => exact ((h.begun hr).elim hf he).elim

theorem WatchInv.of_stream (h : StreamInv w given unread s)
    (hf : s.stage ≠ .fresh) : WatchInv w given (true, unread) s :=
  ⟨h, nofun, fun hs => absurd hs hf⟩

theorem StreamInv.wait (hstarted : Started w s.sink)
    (hsplit : w.matching s.sink = given ++ unread) (hcursor : s.cursor = lastCursor w given) :
    StreamInv w (given ++ (s.wait).1.event?.toList) unread s.wait.2 := by
  rw [show s.wait.1.event? = none from rfl, Option.toList_none, List.append_nil]
  exact .following ((Follows.of_idle rfl).mpr ⟨hstarted, hsplit, hcursor⟩)

/-- The watcher hands out a batch that it has read, or waits. -/
theorem StreamInv.giveOrWait (given batch unread : List RuntimeEvent) (hstarted : Started w s.sink)
    (hsplit : w.matching s.sink = given ++ (batch ++ unread))
    (hcursor : s.cursor = lastCursor w given) :
    StreamInv w (given ++ (s.give s.wait batch).1.event?.toList) unread (s.give s.wait batch).2 ∧
      (s.give s.wait batch).2.stage ≠ .fresh := by
  refine ⟨give_inv hstarted hsplit fun hnil => ?_, ?_⟩
  · rw [hnil, List.nil_append] at hsplit
    exact StreamInv.wait hstarted hsplit hcursor
  · cases batch with
    | nil => exact nofun
    | cons event rest => exact nofun

theorem watchNext_inv (h : WatchInv w given r s) :
    WatchInv w (given ++ (s.watchStep w .next).1.event?.toList)
      (readStep w r (.next, (s.watchStep w .next).1)) (s.watchStep w .next).2 := by
  have hread : ∀ o, r.1 = true → readStep w r (.next, o) = r := fun o hr => if_pos hr
  have hsame : s.stage ≠ .fresh → s.stage ≠ .ended →
      WatchInv w (given ++ WatchAnswer.nothing.event?.toList)
        (readStep w r (.next, .nothing)) s := by
    intro hf he
    rw [hread _ (h.running hf he).2, show WatchAnswer.nothing.event?.toList = [] from rfl,
      List.append_nil]
    exact h
  cases hs : s.stage with
  | fresh =>
    have hgiven : given = [] := by
      cases h.stream with
      | fresh stage none => exact none
      | ended stage first => rw [hs] at stage; cases stage
      | following follows => exact absurd hs follows.running.1
    have hr : ∀ o, readStep w r (.next, o) = (true, []) := fun o => if_neg (by simp [h.fresh hs])
    simp only [Watched.watchStep, hs, hr]
    subst hgiven
    rcases reads_first (w := w) s.sink with ⟨hstarted, hbatch⟩ | ⟨e, herror⟩
    · rw [hbatch]
      obtain ⟨hinv, hne⟩ := StreamInv.giveOrWait [] _ []
        (s := { s with cursor := w.afterEventId, subscriber := false }) hstarted
        (by rw [List.append_nil, List.nil_append]) rfl
      exact .of_stream hinv hne
    · rw [herror]
      exact .of_stream (.ended rfl List.nil_prefix) nofun
  | yielding event rest =>
    obtain ⟨hfollows, hr⟩ := h.running (by simp [hs]) (by simp [hs])
    obtain ⟨hsplit, hcursor⟩ := hfollows.resume hs
    simp only [Watched.watchStep, hs, hread _ hr]
    obtain ⟨hinv, hne⟩ := StreamInv.giveOrWait _ _ _ (s := { s with cursor := some event.id })
      hfollows.started hsplit hcursor
    have hpair : r = (true, r.2) := by rw [← hr]
    rw [hpair]
    exact .of_stream hinv hne
  | beating =>
    obtain ⟨hfollows, hr⟩ := h.running (by simp [hs]) (by simp [hs])
    obtain ⟨hstarted, hsplit, hcursor⟩ := (Follows.of_idle (by rw [hs]; rfl)).mp hfollows
    simp only [Watched.watchStep, hs, hread _ hr]
    have hpair : r = (true, r.2) := by rw [← hr]
    rw [hpair]
    exact .of_stream (StreamInv.wait hstarted hsplit hcursor) nofun
  | ended =>
    simp only [Watched.watchStep, hs]
    rw [show WatchAnswer.nothing.event?.toList = [] from rfl, List.append_nil]
    exact ⟨.ended hs h.stream.isPrefix, fun _ => .inr hs, fun hf => by rw [hs] at hf; cases hf⟩
  | waiting =>
    simp only [Watched.watchStep, hs]
    exact hsame (by simp [hs]) (by simp [hs])
  | woken =>
    simp only [Watched.watchStep, hs]
    exact hsame (by simp [hs]) (by simp [hs])
  | timedOut =>
    simp only [Watched.watchStep, hs]
    exact hsame (by simp [hs]) (by simp [hs])

theorem watchTurn_inv (h : WatchInv w given r s) :
    WatchInv w (given ++ (s.watchStep w .turn).1.event?.toList)
      (readStep w r (.turn, (s.watchStep w .turn).1)) (s.watchStep w .turn).2 := by
  have hnil : ∀ o : WatchAnswer, o.event? = none → given ++ o.event?.toList = given := by
    intro o ho
    rw [ho, Option.toList_none, List.append_nil]
  cases hs : s.stage with
  | woken =>
    obtain ⟨hfollows, hr⟩ := h.running (by simp [hs]) (by simp [hs])
    obtain ⟨hstarted, hsplit, hcursor⟩ := (Follows.of_idle (by rw [hs]; rfl)).mp hfollows
    simp only [Watched.watchStep, hs, hfollows.reads (by rw [hs]; rfl), Watched.handOut]
    obtain ⟨hinv, hne⟩ := StreamInv.giveOrWait _ r.2 [] hstarted
      (by rw [List.append_nil]; exact hsplit) hcursor
    have hread : readStep w r (.turn, (s.give s.wait r.2).1) = (true, []) := by
      rw [← hr]
      cases r.2 with
      | nil => rfl
      | cons event rest => rfl
    rw [hread]
    exact .of_stream hinv hne
  | timedOut =>
    obtain ⟨hfollows, hr⟩ := h.running (by simp [hs]) (by simp [hs])
    simp only [Watched.watchStep, hs]
    rw [hnil _ rfl]
    have hpair : readStep w r (.turn, .heartbeat) = (true, r.2) := by rw [← hr]; rfl
    rw [hpair]
    exact .of_stream (.following (hfollows.pass (by rw [hs]; rfl) rfl s.subscriber)) nofun
  | _ =>
    simp only [Watched.watchStep, hs]
    rw [hnil _ rfl]
    exact h

theorem watchEmit_inv (h : WatchInv w given r s) (event : RuntimeEvent) :
    WatchInv w (given ++ (s.emit event).1.event?.toList)
      (readStep w r (.emit event, (s.emit event).1)) (s.emit event).2 := by
  obtain ⟨-, hread, hnone⟩ := readStep_append (w := w) (r := r) (s := s) event
  have hstream := h.stream.append event
  change WatchInv w (given ++ (s.append event).1.event?.toList)
    (readStep w r (.emit event, (s.append event).1)) (s.emit event).2
  rw [hread, hnone, Option.toList_none, List.append_nil]
  by_cases hs : s.stage = .waiting
  · obtain ⟨hfollows, hr⟩ := h.running (by simp [hs]) (by simp [hs])
    have hfollows' := hstream.follows (by simp [Watched.append, hs]) (by simp [Watched.append, hs])
    refine ⟨.following ?_, fun hr' => by simp [hr] at hr', ?_⟩
    · unfold Watched.emit
      simp only [hs, if_true]
      exact hfollows'.pass (by simp [Watched.append, hs, WatchStage.idle]) rfl _
    · simp [Watched.emit, hs]
  · have hstage : (s.emit event).2.stage = s.stage := by simp [Watched.emit, hs]
    refine ⟨?_, fun hr' => by rw [hstage]; exact h.begun hr', fun hf => h.fresh (hstage ▸ hf)⟩
    cases hstream with
    | fresh stage none => exact .fresh (hstage.trans stage) none
    | ended stage first => exact .ended (hstage.trans stage) first
    | following hf =>
      refine .following ⟨by rw [hstage]; exact hf.running, hf.started, ?_, ?_⟩
      · rw [hstage]
        exact hf.split
      · rw [hstage]
        exact hf.cursor

theorem watchStep_inv (h : WatchInv w given r s) (i : WatchInput) :
    WatchInv w (given ++ (s.watchStep w i).1.event?.toList)
      (readStep w r (i, (s.watchStep w i).1)) (s.watchStep w i).2 := by
  cases i with
  | append event =>
    obtain ⟨hread, -, hnone⟩ := readStep_append (w := w) (r := r) (s := s) event
    simp only [Watched.watchStep]
    rw [hread, hnone, Option.toList_none, List.append_nil]
    exact ⟨h.stream.append event, h.begun, h.fresh⟩
  | emit event => exact watchEmit_inv h event
  | next => exact watchNext_inv h
  | timeout =>
    have hkeep : ∀ o, o = WatchAnswer.nothing → readStep w r (.timeout, o) = r :=
      fun o ho => by rw [ho]; rfl
    have hpass : s.stage.idle = true → s.stage ≠ .fresh → s.stage ≠ .ended →
        WatchInv w (given ++ WatchAnswer.nothing.event?.toList) r
          { s with stage := .timedOut } := by
      intro hidle hf he
      obtain ⟨hfollows, hr⟩ := h.running hf he
      rw [show WatchAnswer.nothing.event?.toList = [] from rfl, List.append_nil]
      exact ⟨.following (hfollows.pass hidle rfl s.subscriber), fun hr' => by simp [hr] at hr',
        nofun⟩
    cases hs : s.stage with
    | waiting =>
      simp only [Watched.watchStep, hs, hkeep _ rfl]
      exact hpass (by rw [hs]; rfl) (by simp [hs]) (by simp [hs])
    | woken =>
      simp only [Watched.watchStep, hs, hkeep _ rfl]
      exact hpass (by rw [hs]; rfl) (by simp [hs]) (by simp [hs])
    | _ =>
      simp only [Watched.watchStep, hs, hkeep _ rfl]
      rw [show WatchAnswer.nothing.event?.toList = [] from rfl, List.append_nil]
      exact h
  | turn => exact watchTurn_inv h
  | close =>
    simp only [Watched.watchStep]
    rw [show WatchAnswer.nothing.event?.toList = [] from rfl, List.append_nil]
    exact ⟨h.stream.close, fun _ => .inr rfl, nofun⟩

variable (w)

theorem watch_run (is : List WatchInput) :
    WatchInv w (yieldedEvents ((watchEvents w).history is)) (readState w ((watchEvents w).history is))
      ((watchEvents w).state is) := by
  refine (watchEvents w).induct (C := fun _ _ _ => True)
    (fun h s => WatchInv w (yieldedEvents h) (readState w h) s) ?_ (fun h s i hinv _ => ?_)
    (fun _ _ _ _ => trivial)
  · exact ⟨.fresh rfl rfl, fun _ => .inl rfl, fun _ => rfl⟩
  · rw [yieldedEvents_snoc, readState_snoc]
    exact watchStep_inv hinv i

end WatchSteps

/-! ## `poll_event_reader` -/

section PollSteps

variable {w : WatchRequest} {given unread : List RuntimeEvent} {s : Watched}

/-- A round begins: the batch that it reads is handed out, or the generator sleeps. -/
theorem poll_inv (hstarted : Started w s.sink) (hsplit : w.matching s.sink = given ++ unread)
    (hcursor : s.cursor = lastCursor w given) :
    StreamInv w (given ++ (s.poll w).1.event?.toList) [] (s.poll w).2 := by
  have hread : s.sink.listEvents w.sessionId s.cursor none = .ok unread := by
    rw [hcursor]
    exact filterExisting_last hstarted hsplit
  unfold Watched.poll
  rw [hread]
  refine give_inv hstarted (by rw [List.append_nil]; exact hsplit) fun hnil => ?_
  rw [show s.sleep.1.event? = none from rfl, Option.toList_none, List.append_nil]
  rw [hnil] at hsplit
  exact .following ((Follows.of_idle rfl).mpr ⟨hstarted, hsplit, hcursor⟩)

theorem pollNext_inv (h : StreamInv w given unread s) :
    ∃ unread', StreamInv w (given ++ (s.pollStep w .next).1.event?.toList) unread'
      (s.pollStep w .next).2 := by
  cases hs : s.stage with
  | fresh =>
    have hgiven : given = [] := by
      cases h with
      | fresh stage none => exact none
      | ended stage first => rw [hs] at stage; cases stage
      | following follows => exact absurd hs follows.running.1
    subst hgiven
    simp only [Watched.pollStep, hs]
    split
    · exact ⟨[], .ended rfl List.nil_prefix⟩
    · rcases reads_first (w := w) s.sink with ⟨hstarted, -⟩ | ⟨e, herror⟩
      · exact ⟨[], poll_inv (s := { s with cursor := w.afterEventId }) hstarted
          (List.nil_append _).symm rfl⟩
      · have hread : s.sink.listEvents w.sessionId w.afterEventId none = .error e := herror
        unfold Watched.poll
        rw [hread]
        exact ⟨[], .ended rfl List.nil_prefix⟩
  | yielding event rest =>
    have hfollows := h.follows (by simp [hs]) (by simp [hs])
    obtain ⟨hsplit, hcursor⟩ := hfollows.resume hs
    simp only [Watched.pollStep, hs]
    cases rest with
    | nil =>
      exact ⟨[], poll_inv (s := { s with cursor := some event.id }) hfollows.started hsplit
        hcursor⟩
    | cons event' rest =>
      let resumed : Watched := { s with cursor := some event.id }
      exact ⟨unread, @give_inv w given unread (event' :: rest) resumed (resumed.poll w)
        hfollows.started hsplit nofun⟩
  | beating =>
    have hfollows := h.follows (by simp [hs]) (by simp [hs])
    obtain ⟨hstarted, hsplit, hcursor⟩ := (Follows.of_idle (by rw [hs]; rfl)).mp hfollows
    simp only [Watched.pollStep, hs]
    exact ⟨[], poll_inv hstarted hsplit hcursor⟩
  | _ =>
    simp only [Watched.pollStep, hs]
    rw [show WatchAnswer.nothing.event?.toList = [] from rfl, List.append_nil]
    exact ⟨unread, h⟩

theorem pollTurn_inv (h : StreamInv w given unread s) :
    (∃ unread', StreamInv w (given ++ (s.pollStep w .turn).1.event?.toList) unread'
      (s.pollStep w .turn).2) ∧
      ((s.pollStep w .turn).1 = .heartbeat → w.matching s.sink = given) := by
  have hnothing : StreamInv w (given ++ WatchAnswer.nothing.event?.toList) unread s := by
    rw [show WatchAnswer.nothing.event?.toList = [] from rfl, List.append_nil]
    exact h
  cases hs : s.stage with
  | waiting =>
    have hfollows := h.follows (by simp [hs]) (by simp [hs])
    have hidle : s.stage.idle = true := by rw [hs]; rfl
    obtain ⟨hstarted, hsplit, hcursor⟩ := (Follows.of_idle hidle).mp hfollows
    have hread : s.sink.listEvents w.sessionId s.cursor none = .ok unread := hfollows.reads hidle
    simp only [Watched.pollStep, hs, hread, Watched.handOut]
    refine ⟨⟨[], give_inv hstarted (by rw [List.append_nil]; exact hsplit) fun hnil => ?_⟩, ?_⟩
    · rw [show WatchAnswer.heartbeat.event?.toList = [] from rfl, List.append_nil]
      rw [hnil] at hfollows
      exact .following (hfollows.pass hidle rfl s.subscriber)
    · intro hbeat
      cases unread with
      | nil => rw [hsplit, List.append_nil]
      | cons event rest => cases hbeat
  | _ =>
    simp only [Watched.pollStep, hs]
    exact ⟨⟨unread, hnothing⟩, nofun⟩

theorem pollStep_inv (h : StreamInv w given unread s) (i : WatchInput) :
    ∃ unread', StreamInv w (given ++ (s.pollStep w i).1.event?.toList) unread'
      (s.pollStep w i).2 := by
  have hnothing : ∀ s', StreamInv w given unread s' →
      StreamInv w (given ++ WatchAnswer.nothing.event?.toList) unread s' := by
    intro s' h'
    rw [show WatchAnswer.nothing.event?.toList = [] from rfl, List.append_nil]
    exact h'
  cases i with
  | append event =>
    simp only [Watched.pollStep, (readStep_append (w := w) (r := (true, [])) event).2.2]
    rw [Option.toList_none, List.append_nil]
    exact ⟨_, h.append event⟩
  | emit event =>
    simp only [Watched.pollStep, (readStep_append (w := w) (r := (true, [])) event).2.2]
    rw [Option.toList_none, List.append_nil]
    exact ⟨_, h.append event⟩
  | next => exact pollNext_inv h
  | timeout => exact ⟨unread, hnothing s h⟩
  | turn => exact (pollTurn_inv h).1
  | close => exact ⟨unread, hnothing _ h.close⟩

variable (w)

theorem poll_run (is : List WatchInput) :
    ∃ unread, StreamInv w (yieldedEvents ((pollEvents w).history is)) unread
      ((pollEvents w).state is) := by
  refine (pollEvents w).induct (C := fun _ _ _ => True)
    (fun h s => ∃ unread, StreamInv w (yieldedEvents h) unread s) ?_ (fun h s i hinv _ => ?_)
    (fun _ _ _ _ => trivial)
  · exact ⟨[], .fresh rfl rfl⟩
  · obtain ⟨unread, hinv⟩ := hinv
    rw [yieldedEvents_snoc]
    exact pollStep_inv hinv i

end PollSteps

/-! ## What a stream is for -/

section Streams

variable (w : WatchRequest) (m : Machine Watched WatchInput WatchAnswer)

/-- At a heartbeat, every matching event appended before has been yielded. -/
def HeartbeatComplete (h : List (WatchInput × WatchAnswer)) (s : Watched) (i : WatchInput) : Prop :=
  (m.step s i).1 = .heartbeat → ∀ event ∈ w.matching s.sink, event ∈ yieldedEvents h

/-- A stream that loses nothing: what it yields are the matching events in journal order, each
once; its heartbeats are complete; and an event that matches at some time is yielded within as many
further items as there are matching events then. -/
structure LosesNothing (is : List WatchInput) : Prop where
  inOrder : yieldedEvents (m.history is) <+: w.matching (m.state is).sink
  once : ((yieldedEvents (m.history is)).map RuntimeEvent.id).Nodup
  complete : m.Meets (HeartbeatComplete w m) is
  delivers : ∀ pre post, is = pre ++ post → ∀ event ∈ w.matching (m.state pre).sink,
    items (m.history pre) + (w.matching (m.state pre).sink).length ≤ items (m.history is) →
    event ∈ yieldedEvents (m.history is)

variable {w m}

theorem items_snoc (h : List (WatchInput × WatchAnswer)) (e : WatchInput × WatchAnswer) :
    items (h ++ [e]) = items h + if e.2.isItem then 1 else 0 := by
  unfold items
  rw [List.countP_append, List.countP_singleton]

/-- Where heartbeats are complete, a stream either has yielded an event or has only yielded events
since the event was appended. -/
theorem yielded_or_counts {pre : List WatchInput} {event : RuntimeEvent}
    (hgrows : ∀ s i, w.matching s.sink <+: w.matching (m.step s i).2.sink)
    (he : event ∈ w.matching (m.state pre).sink) (post : List WatchInput)
    (hm : m.Meets (HeartbeatComplete w m) (pre ++ post)) :
    event ∈ w.matching (m.state (pre ++ post)).sink ∧
      (event ∈ yieldedEvents (m.history (pre ++ post)) ∨
        items (m.history (pre ++ post)) + (yieldedEvents (m.history pre)).length
          = items (m.history pre) + (yieldedEvents (m.history (pre ++ post))).length) := by
  induction post using List.reverseRecOn with
  | nil =>
    rw [List.append_nil]
    exact ⟨he, .inr rfl⟩
  | append_singleton post i ih =>
    rw [← List.append_assoc] at hm ⊢
    obtain ⟨hm, hbeat⟩ := Machine.meets_snoc.mp hm
    obtain ⟨hmem, hcount⟩ := ih hm
    rw [Machine.history_snoc, Machine.state_snoc, items_snoc, yieldedEvents_snoc]
    refine ⟨(hgrows _ _).subset hmem, ?_⟩
    rcases hcount with hyielded | hcount
    · exact .inl (List.mem_append_left _ hyielded)
    · cases ho : (m.step (m.state (pre ++ post)) i).1 with
      | heartbeat => exact .inl (List.mem_append_left _ (hbeat ho event hmem))
      | yielded e =>
        refine .inr ?_
        simp only [WatchAnswer.isItem, WatchAnswer.event?, if_true, Option.toList_some,
          List.length_append, List.length_singleton]
        omega
      | _ =>
        refine .inr ?_
        simp only [WatchAnswer.isItem, WatchAnswer.event?, Bool.false_eq_true, if_false,
          Option.toList_none, List.append_nil, Nat.add_zero]
        exact hcount

/-- A stream that yields the matching events in order loses nothing if its heartbeats are
complete. -/
theorem losesNothing_of_complete
    (hgrows : ∀ s i, w.matching s.sink <+: w.matching (m.step s i).2.sink)
    (hstarts : ∀ is, yieldedEvents (m.history is) <+: w.matching (m.state is).sink)
    (hm : m.Meets (HeartbeatComplete w m) is) : LosesNothing w m is where
  inOrder := hstarts is
  once := (nodup_matching w _).sublist ((hstarts is).sublist.map RuntimeEvent.id)
  complete := hm
  delivers pre post his event he hitems := by
    subst his
    obtain ⟨hmem, hyielded | hcount⟩ := yielded_or_counts hgrows he post hm
    · exact hyielded
    · have hlog : w.matching (m.state pre).sink <+: w.matching (m.state (pre ++ post)).sink := by
        clear hm hcount hmem hitems
        induction post using List.reverseRecOn with
        | nil =>
          rw [List.append_nil]
        | append_singleton post i ih =>
          rw [← List.append_assoc, Machine.state_snoc]
          exact ih.trans (hgrows _ _)
      have hlength : (w.matching (m.state pre).sink).length
          ≤ (yieldedEvents (m.history (pre ++ post))).length := by omega
      exact (List.prefix_of_prefix_length_le hlog (hstarts _) hlength).subset he

end Streams

theorem give_sink (orElse : WatchAnswer × Watched) (s : Watched) (batch : List RuntimeEvent)
    (h : orElse.2.sink = s.sink) : (s.give orElse batch).2.sink = s.sink := by
  cases batch with
  | nil => exact h
  | cons event rest => rfl

theorem handOut_sink (orElse : WatchAnswer × Watched) (s : Watched)
    (batch : Except EventStreamError (List RuntimeEvent)) (h : orElse.2.sink = s.sink) :
    (s.handOut orElse batch).2.sink = s.sink := by
  cases batch with
  | error e => rfl
  | ok batch => exact give_sink orElse s batch h

theorem watchStep_sink (w : WatchRequest) (s : Watched) (i : WatchInput) :
    (∃ event, (s.watchStep w i).2.sink = s.sink.append event) ∨
      (s.watchStep w i).2.sink = s.sink := by
  cases i with
  | append event => exact .inl ⟨event, rfl⟩
  | emit event => exact .inl ⟨event, rfl⟩
  | next =>
    right
    simp only [Watched.watchStep]
    split
    · exact handOut_sink _ _ _ rfl
    · exact give_sink _ _ _ rfl
    · rfl
    · rfl
  | timeout =>
    right
    simp only [Watched.watchStep]
    split <;> rfl
  | turn =>
    right
    simp only [Watched.watchStep]
    split
    · exact handOut_sink _ _ _ rfl
    · rfl
    · rfl
  | close => exact .inr rfl

theorem pollStep_sink (w : WatchRequest) (s : Watched) (i : WatchInput) :
    (∃ event, (s.pollStep w i).2.sink = s.sink.append event) ∨
      (s.pollStep w i).2.sink = s.sink := by
  cases i with
  | append event => exact .inl ⟨event, rfl⟩
  | emit event => exact .inl ⟨event, rfl⟩
  | next =>
    right
    simp only [Watched.pollStep]
    split
    · split
      · rfl
      · exact handOut_sink _ _ _ rfl
    · exact give_sink _ _ _ (handOut_sink _ _ _ rfl)
    · exact handOut_sink _ _ _ rfl
    · rfl
  | timeout => exact .inr rfl
  | turn =>
    right
    simp only [Watched.pollStep]
    split
    · exact handOut_sink _ _ _ rfl
    · rfl
  | close => exact .inr rfl

theorem matching_grows {w : WatchRequest} {sink sink' : InMemoryEventSink}
    (h : (∃ event, sink' = sink.append event) ∨ sink' = sink) :
    w.matching sink <+: w.matching sink' := by
  obtain ⟨event, rfl⟩ | rfl := h
  · exact matching_starts event
  · exact List.prefix_rfl

/-! ## Both watchers -/

section Claim

variable (w : WatchRequest)

/-- When the watcher has its turn because of its timer, nothing that matches has been appended since
it last read the journal. -/
def CaughtUp (h : List (WatchInput × WatchAnswer)) (s : Watched) (i : WatchInput) : Prop :=
  match i with
  | .turn => s.stage = .timedOut → unreadEvents w h = []
  | _ => True

/-- What matches is emitted while the watcher waits, and the watcher has its turn before its
timer. -/
def InTime (_ : List (WatchInput × WatchAnswer)) (s : Watched) (i : WatchInput) : Prop :=
  match i with
  | .append event => newMatching w s.sink event = [] ∨ s.stage = .fresh ∨ s.stage = .ended
  | .emit event => newMatching w s.sink event = [] ∨
      s.stage ∈ [.fresh, .ended, .waiting, .woken]
  | .timeout => s.stage ≠ .woken
  | _ => True

variable {w}

theorem heartbeat_of_watchStep (h : (s.watchStep w i).1 = .heartbeat) : i = .turn ∧ s.stage = .timedOut := by
  have hgive : ∀ (s s' : Watched) batch, (s.give s'.wait batch).1 ≠ .heartbeat := by
    intro s s' batch
    cases batch <;> exact nofun
  have hout : ∀ (s s' : Watched) batch, (s.handOut s'.wait batch).1 ≠ .heartbeat := by
    intro s s' batch
    cases batch with
    | error e => exact nofun
    | ok batch => exact hgive s s' batch
  have happend : ∀ event, (s.append event).1 ≠ .heartbeat := by
    intro event
    unfold Watched.append
    dsimp only
    split <;> exact nofun
  cases i with
  | append event => exact absurd h (happend event)
  | emit event => exact absurd h (happend event)
  | next =>
    simp only [Watched.watchStep] at h
    split at h
    · exact absurd h (hout _ _ _)
    · exact absurd h (hgive _ _ _)
    · cases h
    · cases h
  | timeout =>
    simp only [Watched.watchStep] at h
    split at h <;> cases h
  | turn =>
    simp only [Watched.watchStep] at h
    split at h
    · exact absurd h (hout _ _ _)
    · next hs => exact ⟨rfl, hs⟩
    · cases h
  | close => cases h

theorem heartbeat_of_pollStep (h : (s.pollStep w i).1 = .heartbeat) : i = .turn := by
  have hgive : ∀ (s : Watched) (orElse : WatchAnswer × Watched) batch,
      orElse.1 ≠ .heartbeat → (s.give orElse batch).1 ≠ .heartbeat := by
    intro s orElse batch hne
    cases batch with
    | nil => exact hne
    | cons event rest => exact nofun
  have hpoll : ∀ s : Watched, (s.poll w).1 ≠ .heartbeat := by
    intro s
    unfold Watched.poll Watched.handOut
    split
    · exact hgive _ _ _ nofun
    · exact nofun
  have happend : ∀ event, (s.append event).1 ≠ .heartbeat := by
    intro event
    unfold Watched.append
    dsimp only
    split <;> exact nofun
  cases i with
  | append event => exact absurd h (happend event)
  | emit event => exact absurd h (happend event)
  | next =>
    simp only [Watched.pollStep] at h
    split at h
    · split at h
      · cases h
      · exact absurd h (hpoll _)
    · exact absurd h (hgive _ _ _ (hpoll _))
    · exact absurd h (hpoll _)
    · cases h
  | turn => rfl
  | timeout => cases h
  | close => cases h

/-- At a heartbeat of `watch_events`, what has not been yielded is what it has not read. -/
theorem heartbeatComplete_iff (is : List WatchInput) (i : WatchInput) :
    HeartbeatComplete w (watchEvents w) ((watchEvents w).history is) ((watchEvents w).state is) i ↔
      CaughtUp w ((watchEvents w).history is) ((watchEvents w).state is) i := by
  have hinv := watch_run w is
  have hbeat : ∀ s : Watched, s.stage = .timedOut → (s.watchStep w .turn).1 = .heartbeat := by
    intro s hs
    simp only [Watched.watchStep, hs]
  constructor
  · intro h
    cases i with
    | turn =>
      intro hs
      have hcomplete := h (hbeat _ hs)
      obtain ⟨hfollows, -⟩ := hinv.running (by simp [hs]) (by simp [hs])
      obtain ⟨-, hsplit, -⟩ := (Follows.of_idle (by rw [hs]; rfl)).mp hfollows
      have hnodup := (nodup_matching w ((watchEvents w).state is).sink).of_map
      rw [hsplit, List.nodup_append] at hnodup
      rw [List.eq_nil_iff_forall_not_mem]
      intro event hevent
      have hmem : event ∈ w.matching ((watchEvents w).state is).sink := by
        rw [hsplit]
        exact List.mem_append_right _ hevent
      exact hnodup.2.2 event (hcomplete event hmem) event hevent rfl
    | _ => trivial
  · intro h hanswer event hevent
    obtain ⟨rfl, hs⟩ := heartbeat_of_watchStep hanswer
    obtain ⟨hfollows, -⟩ := hinv.running (by simp [hs]) (by simp [hs])
    obtain ⟨-, hsplit, -⟩ := (Follows.of_idle (by rw [hs]; rfl)).mp hfollows
    have hunread : (readState w ((watchEvents w).history is)).2 = [] := h hs
    rw [hsplit, hunread, List.append_nil] at hevent
    exact hevent

/-- In time, only an event that has just woken the watcher is unread. -/
theorem inTime_step {h : List (WatchInput × WatchAnswer)}
    (hinv : WatchInv w (yieldedEvents h) (readState w h) s)
    (hread : unreadEvents w h = [] ∨ s.stage ∈ [.fresh, .ended, .woken]) (hc : InTime w h s i) :
    (readStep w (readState w h) (i, (s.watchStep w i).1)).2 = [] ∨
      (s.watchStep w i).2.stage ∈ [WatchStage.fresh, .ended, .woken] := by
  unfold unreadEvents at hread
  cases i with
  | append event =>
    obtain ⟨hstep, -, -⟩ := readStep_append (w := w) (r := readState w h) (s := s) event
    simp only [Watched.watchStep, hstep]
    rcases hc with hnew | hstage
    · rw [hnew, List.append_nil]
      exact hread
    · exact .inr (by rcases hstage with hs | hs <;> simp [Watched.append, hs])
  | emit event =>
    obtain ⟨-, hstep, -⟩ := readStep_append (w := w) (r := readState w h) (s := s) event
    simp only [Watched.watchStep]
    change (readStep w (readState w h) (.emit event, (s.append event).1)).2 = [] ∨ _
    rw [hstep]
    rcases hc with hnew | hstage
    · rw [hnew, List.append_nil]
      refine hread.imp_right fun hs => ?_
      have hne : s.stage ≠ .waiting := by
        intro hw
        rw [hw] at hs
        simp at hs
      simpa [Watched.emit, hne] using hs
    · refine .inr ?_
      simp only [List.mem_cons, List.not_mem_nil, or_false] at hstage
      rcases hstage with hs | hs | hs | hs <;> simp [Watched.emit, hs]
  | next =>
    by_cases hs : s.stage ∈ [.fresh, .ended, .woken]
    · simp only [List.mem_cons, List.not_mem_nil, or_false] at hs
      rcases hs with hs | hs | hs
      · exact .inl (by simp [readStep, hinv.fresh hs])
      · exact .inr (by simp [Watched.watchStep, hs])
      · exact .inr (by simp [Watched.watchStep, hs])
    · have hnil := hread.resolve_right hs
      refine .inl ?_
      simp only [readStep]
      split
      · exact hnil
      · rfl
  | timeout =>
    have hkeep : (readStep w (readState w h) (.timeout, (s.watchStep w .timeout).1)).2
        = (readState w h).2 := by
      simp only [Watched.watchStep]
      split <;> rfl
    rw [hkeep]
    refine hread.imp_right fun hs => ?_
    simp only [List.mem_cons, List.not_mem_nil, or_false] at hs
    rcases hs with hs | hs | hs
    · simp [Watched.watchStep, hs]
    · simp [Watched.watchStep, hs]
    · exact absurd hs hc
  | turn =>
    by_cases hs : s.stage ∈ [.fresh, .ended, .woken]
    · simp only [List.mem_cons, List.not_mem_nil, or_false] at hs
      rcases hs with hs | hs | hs
      · exact .inr (by simp [Watched.watchStep, hs])
      · exact .inr (by simp [Watched.watchStep, hs])
      · obtain ⟨hfollows, -⟩ := hinv.running (by simp [hs]) (by simp [hs])
        refine .inl ?_
        simp only [Watched.watchStep, hs, hfollows.reads (by rw [hs]; rfl), Watched.handOut]
        cases (readState w h).2 <;> rfl
    · have hnil := hread.resolve_right hs
      refine .inl ?_
      unfold readStep
      split <;> first | exact hnil | rfl | simp_all
  | close => exact .inr (by simp [Watched.watchStep])

theorem caughtUp_of_inTime (hm : (watchEvents w).Meets (InTime w) is) :
    (watchEvents w).Meets (CaughtUp w) is := by
  intro pre i post his
  have hpre : (watchEvents w).Meets (InTime w) pre := by
    intro pre' i' post' hp
    exact hm pre' i' (post' ++ i :: post) (by rw [his, hp]; simp)
  obtain ⟨-, hread⟩ := (watchEvents w).induct (C := InTime w)
    (fun h s => WatchInv w (yieldedEvents h) (readState w h) s ∧
      (unreadEvents w h = [] ∨ s.stage ∈ [.fresh, .ended, .woken]))
    ⟨⟨.fresh rfl rfl, fun _ => .inl rfl, fun _ => rfl⟩, .inl rfl⟩
    (fun h s i hinv hc => by
      refine ⟨?_, ?_⟩
      · rw [yieldedEvents_snoc, readState_snoc]
        exact watchStep_inv hinv.1 i
      · rw [unreadEvents, readState_snoc]
        exact inTime_step hinv.1 hinv.2 hc) hpre
  cases i with
  | turn =>
    intro hs
    refine hread.resolve_right fun hmem => ?_
    rw [hs] at hmem
    simp at hmem
  | _ => trivial

variable (w)

/-- **What watch streams lose.** `watch_events` loses nothing exactly if nothing that matches has
been appended since it last read the journal whenever its timer ends its wait; so it is where all
that matches is emitted while it waits, and it has its turn before its timer. `poll_event_reader`
loses nothing. -/
theorem watch_streams (is : List WatchInput) :
    (LosesNothing w (watchEvents w) is ↔ (watchEvents w).Meets (CaughtUp w) is) ∧
      ((watchEvents w).Meets (InTime w) is → (watchEvents w).Meets (CaughtUp w) is) ∧
      LosesNothing w (pollEvents w) is := by
  refine ⟨⟨fun h => ?_, fun h => ?_⟩, caughtUp_of_inTime, ?_⟩
  · exact fun pre i post his => (heartbeatComplete_iff pre i).mp (h.complete pre i post his)
  · refine losesNothing_of_complete (fun s i => matching_grows (watchStep_sink w s i))
      (fun is => (watch_run w is).stream.isPrefix) fun pre i post his => ?_
    exact (heartbeatComplete_iff pre i).mpr (h pre i post his)
  · refine losesNothing_of_complete (fun s i => matching_grows (pollStep_sink w s i))
      (fun is => ?_) fun pre i post his hbeat event hevent => ?_
    · obtain ⟨unread, hinv⟩ := poll_run w is
      exact hinv.isPrefix
    · obtain ⟨unread, hinv⟩ := poll_run w pre
      have hturn : i = .turn := heartbeat_of_pollStep hbeat
      subst hturn
      rw [(pollTurn_inv hinv).2 hbeat] at hevent
      exact hevent

instance (h : List (WatchInput × WatchAnswer)) (s : Watched) :
    ∀ i, Decidable (InTime w h s i)
  | .append event => inferInstanceAs (Decidable (newMatching w s.sink event = [] ∨ _ ∨ _))
  | .emit event => inferInstanceAs (Decidable (newMatching w s.sink event = [] ∨ _))
  | .timeout => inferInstanceAs (Decidable (s.stage ≠ .woken))
  | .next => .isTrue trivial
  | .turn => .isTrue trivial
  | .close => .isTrue trivial

end Claim

def watchAll : WatchRequest := ⟨none, none, 15⟩

def streamEvent (id : EventId) : RuntimeEvent := ⟨"IterationStarted", "s", "g", "t", id, none, [], 0⟩

/-- An event is there, the watcher yields it and waits, another is emitted and yielded, and after
it the watcher waits until its timer fires. -/
def watchedInTime : List WatchInput :=
  [.emit (streamEvent "1"), .next, .next, .emit (streamEvent "2"), .turn, .next, .timeout, .turn]

theorem watch_streams_in_time : LosesNothing watchAll (watchEvents watchAll) watchedInTime :=
  (watch_streams watchAll watchedInTime).1.mpr
    ((watch_streams watchAll watchedInTime).2.1 (by decide +kernel))

/-- The second event is emitted while the consumer has the first one in hand. -/
def emittedInHand : List WatchInput :=
  [.emit (streamEvent "1"), .next, .emit (streamEvent "2"), .next, .timeout, .turn]

theorem event_in_hand_lost : ¬ LosesNothing watchAll (watchEvents watchAll) emittedInHand := by
  intro h
  have hbeat := h.complete
    [.emit (streamEvent "1"), .next, .emit (streamEvent "2"), .next, .timeout] .turn [] rfl
    (by decide +kernel) (streamEvent "2") (by decide +kernel)
  exact absurd hbeat (by decide +kernel)

end UniversalAgent.Runtime
