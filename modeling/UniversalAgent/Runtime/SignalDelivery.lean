import UniversalAgent.Runtime.SignalBroker

/-!
# Runtime — SignalDelivery

What `BrokerBackedEventStream.watch_events` yields does not depend on its signals. The stream reads the
journal before every wait and goes on from the last event that it handed out, so the signals only decide when
it reads. At every stage, what is handed out is a prefix of the matching events; and where it waits, there
was nothing else when it last read.
-/

namespace UniversalAgent.Runtime

open UniversalAgent.Core UniversalAgent.Foundation

/-! ## The reader of a journal -/

section Limited

variable (sessionId : Option SessionId) (afterEventId : Option EventId) {n : Int}

theorem scanEvents_enter (limit : Option Int) (scan : EventScan) {event : RuntimeEvent}
    (h : inSession sessionId event = true) (events : List RuntimeEvent) :
    scanEvents sessionId afterEventId limit scan (event :: events) =
      if scan.cursorSeen then
        if limit.any fun n => decide (n ≤ ((scan.selected ++ [event]).length : Int)) then
          ⟨scan.selected ++ [event], scan.cursorSeen,
            scan.cursorInScope || decide (afterEventId = some event.id)⟩
        else
          scanEvents sessionId afterEventId limit
            ⟨scan.selected ++ [event], scan.cursorSeen,
              scan.cursorInScope || decide (afterEventId = some event.id)⟩ events
      else
        scanEvents sessionId afterEventId limit
          ⟨scan.selected, decide (afterEventId = some event.id),
            scan.cursorInScope || decide (afterEventId = some event.id)⟩ events := by
  rw [scanEvents, if_neg (by simpa [inSession] using h)]

/-- A scan that stops at a limit selects what the other one selects, up to the limit. -/
theorem scanEvents_limited (events : List RuntimeEvent) (scan : EventScan)
    (hlength : (scan.selected.length : Int) < n)
    (hseen : scan.cursorSeen = true → afterEventId.isSome = true → scan.cursorInScope = true) :
    (scanEvents sessionId afterEventId (some n) scan events).selected =
        (scanEvents sessionId afterEventId none scan events).selected.take n.toNat ∧
      (afterEventId.isSome = true →
        (scanEvents sessionId afterEventId (some n) scan events).cursorInScope =
          (scanEvents sessionId afterEventId none scan events).cursorInScope) := by
  induction events generalizing scan with
  | nil =>
    refine ⟨?_, fun _ => rfl⟩
    rw [scanEvents, scanEvents, List.take_of_length_le (by omega)]
  | cons event events ih =>
    cases hscope : inSession sessionId event with
    | false =>
      rw [scanEvents_skip _ _ _ _ hscope, scanEvents_skip _ _ _ _ hscope]
      exact ih scan hlength hseen
    | true =>
      rw [scanEvents_enter _ _ _ _ hscope, scanEvents_enter _ _ _ _ hscope]
      cases hcursor : scan.cursorSeen with
      | false =>
        simp only [Bool.false_eq_true, if_false]
        refine ih _ hlength fun hfound _ => ?_
        change (scan.cursorInScope || decide (afterEventId = some event.id)) = true
        rw [show decide (afterEventId = some event.id) = true from hfound, Bool.or_true]
      | true =>
        simp only [if_true, Option.any_some, Option.any_none, Bool.false_eq_true, if_false,
          decide_eq_true_eq]
        have hinScope : afterEventId.isSome = true →
            (scan.cursorInScope || decide (afterEventId = some event.id)) = true := fun h => by
          rw [hseen hcursor h, Bool.true_or]
        split
        · next hfull =>
            -- The limit is reached: what the other scan selects goes on from here.
            obtain ⟨inScope', hscan, himp⟩ := scanEvents_seen sessionId afterEventId
              (scan.selected ++ [event]) (scan.cursorInScope || decide (afterEventId = some event.id))
              events
            rw [hscan]
            refine ⟨?_, fun h => (hinScope h).trans (himp (hinScope h)).symm⟩
            rw [List.length_append, List.length_singleton] at hfull
            rw [List.take_append_of_le_length (by rw [List.length_append, List.length_singleton]; omega),
              List.take_of_length_le (by rw [List.length_append, List.length_singleton]; omega)]
        · next hroom => exact ih _ (not_le.mp hroom) fun _ => hinScope

theorem filterEvents_limited (hn : 0 < n) (events : List RuntimeEvent) :
    filterEvents events sessionId afterEventId (some n) =
      (filterEvents events sessionId afterEventId none).map (List.take n.toNat) := by
  obtain ⟨hselected, hinScope⟩ := scanEvents_limited sessionId afterEventId (n := n) events
    ⟨[], afterEventId.isNone, false⟩ hn (fun h h' => by cases afterEventId <;> simp_all)
  have hpositive : ((some n).any fun n => decide (n ≤ 0)) = false := by
    simp [hn]
  unfold filterEvents
  rw [hpositive]
  simp only [Option.any_none, Bool.false_eq_true, if_false]
  cases afterEventId with
  | none => rw [hselected]; rfl
  | some id =>
    simp only [hselected, hinScope rfl]
    split <;> rfl

end Limited

def journalReader : EventReader where
  listEvents journal := journal.listEvents
  next journal w limit hlimit hstarted := by
    rcases reads_first (w := w) journal with ⟨-, hread⟩ | ⟨e, he⟩
    · refine ⟨(w.matching journal).take limit.toNat, ?_, List.take_prefix _ _, ?_, fun h => ?_⟩
      · unfold InMemoryEventSink.listEvents
        rw [filterEvents_limited _ _ hlimit]
        unfold InMemoryEventSink.filterExisting at hread
        rw [hread]
        rfl
      · rw [List.length_take]
        omega
      · rcases List.take_eq_nil_iff.mp h with h | h
        · omega
        · exact h
    · have hresumed : journal.filterExisting w.sessionId (lastCursor w []) = .ok (w.matching journal) :=
        filterExisting_last hstarted rfl
      exact absurd (he.symm.trans hresumed) nofun
  absent journal w limit hlimit hstarted := by
    rcases reads_first (w := w) journal with ⟨h, -⟩ | ⟨e, he⟩
    · exact absurd h hstarted
    · refine ⟨e, ?_⟩
      unfold InMemoryEventSink.listEvents
      unfold InMemoryEventSink.filterExisting at he
      rw [filterEvents_limited _ _ hlimit, he]
      rfl

/-! ## What has been handed out -/

/-- The steps of a stream: the state before each, its input and its answer. -/
abbrev StreamSteps := List (Streaming × StreamInput × WatchAnswer)

def yielded (steps : StreamSteps) : List RuntimeEvent := steps.filterMap fun x => x.2.2.event?

def WatchAnswer.item? : WatchAnswer → Option (Option RuntimeEvent)
  | .yielded event => some (some event)
  | .heartbeat => some none
  | _ => none

def handed (steps : StreamSteps) : List (Option RuntimeEvent) := steps.filterMap fun x => x.2.2.item?

/-- A step as the reads have it: one that reads sees the matching events of the moment. -/
def readBy (w : WatchRequest) (seen : List RuntimeEvent) : Streaming × StreamInput × WatchAnswer →
    List RuntimeEvent
  | (s, .fetch, _) =>
    match s.stage with
    | .reading => w.matching s.journal
    | _ => seen
  | _ => seen

def lastRead (w : WatchRequest) (steps : StreamSteps) : List RuntimeEvent := steps.foldl (readBy w) []

def StreamStage.idle : StreamStage → Prop
  | .waiting => True
  | .beating => True
  | _ => False

section Handed

variable (w : WatchRequest) (steps : StreamSteps) (s : Streaming) (i : StreamInput) (o : WatchAnswer)

theorem yielded_snoc : yielded (steps ++ [(s, i, o)]) = yielded steps ++ o.event?.toList := by
  unfold yielded
  rw [List.filterMap_append]
  cases ho : o.event? with
  | none => simp [ho]
  | some event => simp [ho]

theorem handed_snoc : handed (steps ++ [(s, i, o)]) = handed steps ++ o.item?.toList := by
  unfold handed
  rw [List.filterMap_append]
  cases ho : o.item? with
  | none => simp [ho]
  | some item => simp [ho]

theorem lastRead_snoc : lastRead w (steps ++ [(s, i, o)]) = readBy w (lastRead w steps) (s, i, o) := by
  rw [lastRead, lastRead, List.foldl_append]
  rfl

end Handed

/-! ## Steps -/

/-- Where a stream stands that has yielded `given` and has last seen `seen`. -/
def Stands (w : WatchRequest) (given seen : List RuntimeEvent) (journal : InMemoryEventSink)
    (cursor : Option EventId) : StreamStage → Prop
  | .fresh => given = []
  | .reading => cursor = lastCursor w given
  | .read (.ok page) =>
    cursor = lastCursor w given ∧ given ++ page <+: w.matching journal ∧ (page = [] → given = seen)
  | .read (.error _) => True
  | .yielding event rest => given.getLast? = some event ∧ given ++ rest <+: w.matching journal
  | .waiting => cursor = lastCursor w given ∧ given = seen
  | .beating => cursor = lastCursor w given ∧ given = seen
  | .ended => True

structure StreamKeeps (w : WatchRequest) (given seen : List RuntimeEvent) (s : Streaming) : Prop where
  ordered : given <+: w.matching s.journal
  behind : seen <+: w.matching s.journal
  stands : Stands w given seen s.journal s.cursor s.stage

section Steps

variable {stream : BrokerBackedEventStream} {w : WatchRequest} {given seen : List RuntimeEvent}
  {s : Streaming}

theorem Stands.mono {journal journal' : InMemoryEventSink} {cursor : Option EventId} {stage : StreamStage}
    (h : Stands w given seen journal cursor stage) (hgrow : w.matching journal <+: w.matching journal') :
    Stands w given seen journal' cursor stage := by
  cases stage with
  | read result =>
    cases result with
    | ok page => exact ⟨h.1, h.2.1.trans hgrow, h.2.2⟩
    | error e => trivial
  | yielding event rest => exact ⟨h.1, h.2.trans hgrow⟩
  | _ => exact h

variable {journal : InMemoryEventSink}

/-- Without its cursor, a stream has no matching events. -/
theorem matching_unstarted (h : ¬Started w journal) : w.matching journal = [] := by
  unfold Started at h
  push Not at h
  obtain ⟨id, hid, habsent⟩ := h
  unfold WatchRequest.matching
  rw [hid]
  exact afterId_absent habsent

/-- From the last event that was yielded, the others are next. -/
theorem resumed {rest : List RuntimeEvent} (hstarted : Started w journal)
    (h : w.matching journal = given ++ rest) :
    Started (w.from (lastCursor w given)) journal ∧ (w.from (lastCursor w given)).matching journal = rest := by
  have hread := filterExisting_last hstarted h
  rcases reads_first (w := w.from (lastCursor w given)) journal with ⟨hs, hm⟩ | ⟨e, he⟩
  · refine ⟨hs, ?_⟩
    have hsame := hm.symm.trans hread
    exact Except.ok.inj hsame
  · exact absurd (he.symm.trans hread) nofun

/-- What a stream that is reading gets: a page of the events that it has not yielded, or an error where its
cursor is not there. -/
theorem fetched (stream : BrokerBackedEventStream)
    (hgiven : given <+: w.matching journal) :
    (∃ page rest, stream.reader.listEvents journal w.sessionId (lastCursor w given)
        (some stream.maxCatchupEvents) = .ok page ∧
      w.matching journal = given ++ rest ∧ PageOf rest stream.maxCatchupEvents page) ∨
    w.matching journal = [] ∧ ∃ e, stream.reader.listEvents journal w.sessionId (lastCursor w given)
        (some stream.maxCatchupEvents) = .error e := by
  by_cases hstarted : Started w journal
  · obtain ⟨rest, hrest⟩ := hgiven
    obtain ⟨hs, hm⟩ := resumed hstarted hrest.symm
    obtain ⟨page, hpage, hof⟩ := stream.reader.next journal (w.from (lastCursor w given))
      stream.maxCatchupEvents stream.catchup hs
    rw [hm] at hof
    exact .inl ⟨page, rest, hpage, hrest.symm, hof⟩
  · have hnone := matching_unstarted hstarted
    rw [hnone, List.prefix_nil] at hgiven
    subst hgiven
    exact .inr ⟨hnone, stream.reader.absent journal w stream.maxCatchupEvents stream.catchup hstarted⟩

theorem StreamKeeps.fetch (h : StreamKeeps w given seen s) (hs : s.stage = .reading) :
    StreamKeeps w given (w.matching s.journal) { s with
      stage := .read (stream.reader.listEvents s.journal w.sessionId s.cursor
        (some stream.maxCatchupEvents)) } := by
  have hcursor : s.cursor = lastCursor w given := by
    have hstands := h.stands
    rw [hs] at hstands
    exact hstands
  refine ⟨h.ordered, List.prefix_refl _, ?_⟩
  rw [hcursor]
  rcases fetched stream h.ordered with ⟨page, rest, hpage, hrest, hof⟩ | ⟨-, e, he⟩
  · rw [hpage]
    refine ⟨rfl, ?_, fun hnil => ?_⟩
    · rw [hrest]
      exact (List.prefix_append_right_inj given).mpr hof.first
    · rw [hrest, hof.nonempty hnil, List.append_nil]
  · rw [he]
    trivial

theorem Stands.yield {journal : InMemoryEventSink} {cursor : Option EventId} {event : RuntimeEvent}
    {rest : List RuntimeEvent} (h : given ++ event :: rest <+: w.matching journal) :
    given ++ [event] <+: w.matching journal ∧
      Stands w (given ++ [event]) seen journal cursor (.yielding event rest) := by
  have hsplit : given ++ event :: rest = given ++ [event] ++ rest := by simp
  rw [hsplit] at h
  exact ⟨(List.prefix_append _ _).trans h, List.getLast?_concat, h⟩

theorem StreamKeeps.silent {o : WatchAnswer} (h : StreamKeeps w given seen s) (ho : o.event? = none) :
    StreamKeeps w (given ++ o.event?.toList) seen s := by
  rw [ho, Option.toList_none, List.append_nil]
  exact h

theorem StreamKeeps.broker (h : StreamKeeps w given seen s) (broker : InMemoryEventSignalBroker) :
    StreamKeeps w given seen { s with broker := broker } := ⟨h.ordered, h.behind, h.stands⟩

theorem StreamKeeps.finish (h : StreamKeeps w given seen s) : StreamKeeps w given seen s.finish :=
  ⟨h.ordered, h.behind, trivial⟩

theorem StreamKeeps.append (h : StreamKeeps w given seen s) (event : RuntimeEvent) :
    StreamKeeps w given seen { s with journal := s.journal.append event } :=
  ⟨h.ordered.trans (matching_starts event), h.behind.trans (matching_starts event),
    h.stands.mono (matching_starts event)⟩

theorem StreamKeeps.begin (h : StreamKeeps w given seen s) (hs : s.stage = .fresh) :
    StreamKeeps w (given ++ (s.begin stream w).1.event?.toList) seen (s.begin stream w).2 := by
  have hnone : given = [] := by
    have hstands := h.stands
    rw [hs] at hstands
    exact hstands
  unfold Streaming.begin
  split
  · exact StreamKeeps.silent ⟨h.ordered, h.behind, trivial⟩ rfl
  · split
    · exact StreamKeeps.silent ⟨h.ordered, h.behind, trivial⟩ rfl
    · refine StreamKeeps.silent ⟨h.ordered, h.behind, ?_⟩ rfl
      rw [hnone]
      rfl

/-- The consumer asks for the next item with one in its hand. -/
theorem StreamKeeps.give (h : StreamKeeps w given seen s) {event : RuntimeEvent} {rest : List RuntimeEvent}
    (hs : s.stage = .yielding event rest) :
    StreamKeeps w (given ++ (Streaming.give { s with cursor := some event.id } rest).1.event?.toList) seen
      (Streaming.give { s with cursor := some event.id } rest).2 := by
  have hstands := h.stands
  rw [hs] at hstands
  obtain ⟨hlast, hbatch⟩ := hstands
  cases rest with
  | nil =>
    refine StreamKeeps.silent ⟨h.ordered, h.behind, ?_⟩ rfl
    change some event.id = lastCursor w given
    unfold lastCursor
    rw [hlast]
  | cons event' rest =>
    obtain ⟨hordered, hstands⟩ := @Stands.yield _ _ seen _ (some event.id) _ _ hbatch
    exact ⟨hordered, h.behind, hstands⟩

theorem StreamKeeps.answered (h : StreamKeeps w given seen s)
    {result : Except EventStreamError (List RuntimeEvent)} (hs : s.stage = .read result) :
    StreamKeeps w (given ++ (s.answered result).1.event?.toList) seen (s.answered result).2 := by
  have hstands := h.stands
  rw [hs] at hstands
  cases result with
  | error e => exact h.finish.silent rfl
  | ok page =>
    obtain ⟨hcursor, hbatch, hnone⟩ := hstands
    cases page with
    | nil => exact StreamKeeps.silent ⟨h.ordered, h.behind, hcursor, hnone rfl⟩ rfl
    | cons event rest =>
      obtain ⟨hordered, hstands⟩ := @Stands.yield _ _ seen _ s.cursor _ _ hbatch
      exact ⟨hordered, h.behind, hstands⟩

theorem StreamKeeps.wake (h : StreamKeeps w given seen s) (hs : s.stage = .waiting) :
    StreamKeeps w (given ++ s.wake.1.event?.toList) seen s.wake.2 := by
  have hstands := h.stands
  rw [hs] at hstands
  unfold Streaming.wake
  split
  · exact StreamKeeps.silent ⟨h.ordered, h.behind, hstands.1⟩ rfl
  · exact h.silent rfl

theorem StreamKeeps.step (h : StreamKeeps w given seen s) (i : StreamInput) :
    StreamKeeps w (given ++ (s.step stream w i).1.event?.toList)
      (readBy w seen (s, i, (s.step stream w i).1)) (s.step stream w i).2 := by
  cases i with
  | append event => exact (h.append event).silent rfl
  | notify event => exact (h.broker _).silent rfl
  | subscribe sessionId maxBufferSize =>
    simp only [Streaming.step, readBy]
    split
    · exact h.silent rfl
    · exact (h.broker _).silent rfl
  | unsubscribe key =>
    simp only [Streaming.step, readBy]
    split
    · exact h.silent rfl
    · exact (h.broker _).silent rfl
  | next =>
    simp only [Streaming.step, readBy]
    split
    · next hs => exact h.begin hs
    · next hs => exact h.give hs
    · next hs =>
        have hstands := h.stands
        rw [hs] at hstands
        exact StreamKeeps.silent ⟨h.ordered, h.behind, hstands.1⟩ rfl
    · exact h.silent rfl
  | fetch =>
    cases hs : s.stage with
    | reading =>
      simp only [Streaming.step, readBy, hs]
      exact (h.fetch hs).silent rfl
    | _ =>
      simp only [Streaming.step, readBy, hs]
      exact h.silent rfl
  | turn =>
    simp only [Streaming.step, readBy]
    split
    · next hs => exact h.answered hs
    · next hs => exact h.wake hs
    · exact h.silent rfl
  | timeout =>
    simp only [Streaming.step, readBy]
    split
    · next hs =>
        have hstands := h.stands
        rw [hs] at hstands
        exact StreamKeeps.silent ⟨h.ordered, h.behind, hstands⟩ rfl
    · exact h.silent rfl
  | close => exact h.finish.silent rfl

theorem of_heartbeat {i : StreamInput} (h : (s.step stream w i).1 = .heartbeat) : s.stage = .waiting := by
  cases i with
  | timeout =>
    simp only [Streaming.step] at h
    split at h
    · next hs => exact hs
    · cases h
  | append event => cases h
  | notify event => cases h
  | close => cases h
  | subscribe sessionId maxBufferSize =>
    simp only [Streaming.step] at h
    split at h <;> cases h
  | unsubscribe key =>
    simp only [Streaming.step] at h
    split at h <;> cases h
  | fetch =>
    simp only [Streaming.step] at h
    split at h <;> cases h
  | next =>
    simp only [Streaming.step, Streaming.begin] at h
    split at h
    · split at h
      · cases h
      · split at h <;> cases h
    · next event rest _ => cases rest <;> cases h
    · cases h
    · cases h
  | turn =>
    simp only [Streaming.step, Streaming.wake] at h
    split at h
    · next result _ =>
        rcases result with e | (_ | ⟨event, rest⟩) <;> cases h
    · split at h <;> cases h
    · cases h

theorem journal_step (i : StreamInput) : (s.step stream w i).2.journal = s.journal ∨
    ∃ event, (s.step stream w i).2.journal = s.journal.append event := by
  cases i with
  | append event => exact .inr ⟨event, rfl⟩
  | notify event => exact .inl rfl
  | close => exact .inl rfl
  | subscribe sessionId maxBufferSize =>
    simp only [Streaming.step]
    split <;> exact .inl rfl
  | unsubscribe key =>
    simp only [Streaming.step]
    split <;> exact .inl rfl
  | fetch =>
    simp only [Streaming.step]
    split <;> exact .inl rfl
  | timeout =>
    simp only [Streaming.step]
    split <;> exact .inl rfl
  | next =>
    simp only [Streaming.step, Streaming.begin]
    split
    · split
      · exact .inl rfl
      · split <;> exact .inl rfl
    · next event rest _ => cases rest <;> exact .inl rfl
    · exact .inl rfl
    · exact .inl rfl
  | turn =>
    simp only [Streaming.step, Streaming.wake]
    split
    · next result _ => rcases result with e | (_ | ⟨event, rest⟩) <;> exact .inl rfl
    · split <;> exact .inl rfl
    · exact .inl rfl

theorem matching_step (i : StreamInput) :
    w.matching s.journal <+: w.matching (s.step stream w i).2.journal := by
  rcases @journal_step stream w s i with h | ⟨event, h⟩
  · rw [h]
  · rw [h]
    exact matching_starts event

theorem le_readBy {base : List RuntimeEvent} (hseen : base <+: seen) (hnow : base <+: w.matching s.journal)
    (i : StreamInput) (o : WatchAnswer) : base <+: readBy w seen (s, i, o) := by
  cases i with
  | fetch =>
    simp only [readBy]
    split
    · exact hnow
    · exact hseen
  | _ => exact hseen

/-- What has been yielded since a read at which `rest` was left: events only so far, or all of `rest` and
then anything. -/
inductive Since (rest before given : List RuntimeEvent) (after : List (Option RuntimeEvent)) : Prop where
  | events (new : List RuntimeEvent) (hgiven : given = before ++ new) (hafter : after = new.map some)
  | beyond (done : rest.map some <+: after)

/-- A heartbeat comes after all that the read has left. -/
theorem Since.step {rest before : List RuntimeEvent} {after : List (Option RuntimeEvent)}
    (h : Since rest before given after) (keeps : StreamKeeps w given seen s) (hseen : before ++ rest <+: seen)
    (i : StreamInput) :
    Since rest before (given ++ (s.step stream w i).1.event?.toList)
      (after ++ (s.step stream w i).1.item?.toList) := by
  cases h with
  | beyond done => exact .beyond (done.trans (List.prefix_append _ _))
  | events new hgiven hafter =>
    subst hgiven hafter
    cases ho : (s.step stream w i).1 with
    | yielded event =>
      refine .events (new ++ [event]) (List.append_assoc _ _ _) ?_
      rw [List.map_append]
      rfl
    | heartbeat =>
      have hstands := keeps.stands
      rw [of_heartbeat ho] at hstands
      rw [← hstands.2, List.prefix_append_right_inj] at hseen
      exact .beyond ((hseen.map some).trans (List.prefix_append _ _))
    | _ => exact .events new (List.append_nil _) (List.append_nil _)

end Steps

/-! ## Runs -/

section Runs

variable (stream : BrokerBackedEventStream) (w : WatchRequest) (is : List StreamInput)

/-- The invariant holds in every state that is reached. -/
theorem stream_keeps :
    StreamKeeps w (yielded ((stream.watchEvents w).trace is)) (lastRead w ((stream.watchEvents w).trace is))
      ((stream.watchEvents w).state is) := by
  refine (stream.watchEvents w).along (fun t s => StreamKeeps w (yielded t) (lastRead w t) s)
    ⟨List.nil_prefix, List.nil_prefix, rfl⟩ (fun t s i h => ?_) is
  rw [yielded_snoc, lastRead_snoc]
  exact h.step i

structure Unskipped (stream : BrokerBackedEventStream) (w : WatchRequest) (pre is : List StreamInput)
    (rest : List RuntimeEvent) : Prop where
  left : w.matching ((stream.watchEvents w).state pre).journal =
    yielded ((stream.watchEvents w).trace pre) ++ rest
  first : ∃ after, handed ((stream.watchEvents w).trace is) =
      handed ((stream.watchEvents w).trace pre) ++ after ∧
    (after <+: rest.map some ∨ rest.map some <+: after)
  idle : ((stream.watchEvents w).state is).stage.idle →
    w.matching ((stream.watchEvents w).state pre).journal <+: yielded ((stream.watchEvents w).trace is)

/-- What a stream yields, with any signals or none: always a prefix of the matching events, each once; a
heartbeat only if all is yielded that was there at the last read; and from a read on, first what was there
at it. -/
structure Delivered (stream : BrokerBackedEventStream) (w : WatchRequest) (is : List StreamInput) :
    Prop where
  ordered : yielded ((stream.watchEvents w).trace is) <+: w.matching ((stream.watchEvents w).state is).journal
  once : ((yielded ((stream.watchEvents w).trace is)).map RuntimeEvent.id).Nodup
  heartbeats : ∀ pre i post, is = pre ++ i :: post →
    ((stream.watchEvents w).step ((stream.watchEvents w).state pre) i).1 = .heartbeat →
      yielded ((stream.watchEvents w).trace pre) = lastRead w ((stream.watchEvents w).trace pre)
  unskipped : ∀ pre post, is = pre ++ .fetch :: post →
    ((stream.watchEvents w).state pre).stage = .reading → ∃ rest, Unskipped stream w pre is rest

end Runs

section Reads

variable {stream : BrokerBackedEventStream} {w : WatchRequest} {pre : List StreamInput}
  {rest : List RuntimeEvent}

/-- After a read, later reads see at least what it saw, and the events it left come first. -/
theorem since_read (hs : ((stream.watchEvents w).state pre).stage = .reading)
    (hrest : w.matching ((stream.watchEvents w).state pre).journal =
      yielded ((stream.watchEvents w).trace pre) ++ rest) (post : List StreamInput) :
    (w.matching ((stream.watchEvents w).state pre).journal <+:
        lastRead w ((stream.watchEvents w).trace (pre ++ .fetch :: post))) ∧
      (w.matching ((stream.watchEvents w).state pre).journal <+:
        w.matching ((stream.watchEvents w).state (pre ++ .fetch :: post)).journal) ∧
      ∃ after, handed ((stream.watchEvents w).trace (pre ++ .fetch :: post)) =
          handed ((stream.watchEvents w).trace pre) ++ after ∧
        Since rest (yielded ((stream.watchEvents w).trace pre))
          (yielded ((stream.watchEvents w).trace (pre ++ .fetch :: post))) after := by
  induction post using List.reverseRecOn with
  | nil =>
    have hsilent : ((stream.watchEvents w).step ((stream.watchEvents w).state pre) .fetch).1 = .nothing := by
      change (Streaming.step stream w _ .fetch).1 = .nothing
      simp only [Streaming.step, hs]
    rw [Machine.trace_snoc, Machine.state_snoc, lastRead_snoc, handed_snoc, yielded_snoc, hsilent]
    refine ⟨?_, matching_step .fetch, [], rfl, .events [] rfl rfl⟩
    simp only [readBy, hs]
    exact List.prefix_refl _
  | append_singleton post i ih =>
    obtain ⟨hseen, hnow, after, hafter, hsince⟩ := ih
    have hassoc : pre ++ .fetch :: (post ++ [i]) = (pre ++ .fetch :: post) ++ [i] := by simp
    rw [hassoc, Machine.trace_snoc, Machine.state_snoc, lastRead_snoc, handed_snoc, yielded_snoc, hafter,
      List.append_assoc]
    refine ⟨le_readBy hseen hnow _ _, hnow.trans (matching_step i), _, rfl, ?_⟩
    rw [hrest] at hseen
    exact hsince.step (stream_keeps stream w _) hseen i

theorem unskipped_of_read {post : List StreamInput}
    (hs : ((stream.watchEvents w).state pre).stage = .reading)
    (hrest : w.matching ((stream.watchEvents w).state pre).journal =
      yielded ((stream.watchEvents w).trace pre) ++ rest) :
    Unskipped stream w pre (pre ++ .fetch :: post) rest := by
  obtain ⟨hseen, hnow, after, hafter, hsince⟩ := since_read hs hrest post
  have hkeeps := stream_keeps stream w (pre ++ .fetch :: post)
  refine ⟨hrest, ⟨after, hafter, ?_⟩, fun hidle => ?_⟩
  · cases hsince with
    | beyond done => exact .inr done
    | events new hgiven hnew =>
      have hordered := hkeeps.ordered
      rw [hgiven] at hordered
      rw [hrest] at hnow
      subst hnew
      rcases List.prefix_or_prefix_of_prefix hordered hnow with h | h
      · exact .inl (((List.prefix_append_right_inj _).mp h).map some)
      · exact .inr (((List.prefix_append_right_inj _).mp h).map some)
  · have hall : yielded ((stream.watchEvents w).trace (pre ++ .fetch :: post)) =
        lastRead w ((stream.watchEvents w).trace (pre ++ .fetch :: post)) := by
      have hstands := hkeeps.stands
      cases hstage : ((stream.watchEvents w).state (pre ++ .fetch :: post)).stage with
      | waiting => rw [hstage] at hstands; exact hstands.2
      | beating => rw [hstage] at hstands; exact hstands.2
      | _ => rw [hstage] at hidle; exact hidle.elim
    rw [hall]
    exact hseen

end Reads

/-! ## Without signals -/

/-- What moves a running stream on by itself. -/
def StreamStage.turn : StreamStage → StreamInput
  | .reading => .fetch
  | .read _ => .turn
  | .waiting => .timeout
  | _ => .next

/-- How far a running stream is from the step that yields, if an event is left. -/
def StreamStage.distance : StreamStage → Option Nat
  | .yielding _ (_ :: _) | .read (.ok (_ :: _)) => some 0
  | .reading => some 1
  | .beating | .yielding _ [] => some 2
  | .waiting => some 3
  | .read (.ok []) => some 4
  | _ => none

/-- What a stream yields in so many steps of its own. -/
def alone (stream : BrokerBackedEventStream) (w : WatchRequest) : Nat → Streaming → List RuntimeEvent
  | 0, _ => []
  | k + 1, s =>
    (s.step stream w s.stage.turn).1.event?.toList ++ alone stream w k (s.step stream w s.stage.turn).2

section Alone

variable (stream : BrokerBackedEventStream) {w : WatchRequest} {given seen rest : List RuntimeEvent}
  {s : Streaming} {event : RuntimeEvent} {n : Nat}

/-- A step of its own yields the next event or brings it nearer. -/
theorem step_nearer (h : StreamKeeps w given seen s) (hs : s.stage.distance = some n)
    (hleft : w.matching s.journal = given ++ event :: rest) :
    (s.step stream w s.stage.turn).2.journal = s.journal ∧
      ∃ m, (s.step stream w s.stage.turn).2.stage.distance = some m ∧
        ((s.step stream w s.stage.turn).1.event? = some event ∨
          (s.step stream w s.stage.turn).1.event? = none ∧ m < n) := by
  have hstands := h.stands
  have hrunning : ∀ tail, ∃ m, (StreamStage.yielding event tail).distance = some m := by
    intro tail
    cases tail <;> exact ⟨_, rfl⟩
  have hfirst : ∀ event' tail, given ++ event' :: tail <+: w.matching s.journal → event' = event := by
    intro event' tail hbatch
    rw [hleft, List.prefix_append_right_inj] at hbatch
    exact (List.cons_prefix_cons.mp hbatch).1
  cases hstage : s.stage with
  | fresh => rw [hstage] at hs; cases hs
  | ended => rw [hstage] at hs; cases hs
  | waiting =>
    rw [hstage] at hs
    simp only [StreamStage.turn, Streaming.step, hstage, true_and]
    exact ⟨2, rfl, .inr ⟨rfl, by cases hs; decide⟩⟩
  | beating =>
    rw [hstage] at hs
    simp only [StreamStage.turn, Streaming.step, hstage, true_and]
    exact ⟨1, rfl, .inr ⟨rfl, by cases hs; decide⟩⟩
  | reading =>
    rw [hstage] at hs hstands
    simp only [StreamStage.turn, Streaming.step, hstage, true_and]
    refine ⟨0, ?_, .inr ⟨rfl, by cases hs; decide⟩⟩
    rw [show s.cursor = lastCursor w given from hstands]
    rcases fetched stream h.ordered with ⟨page, rest', hpage, hrest, hof⟩ | ⟨hnone, -⟩
    · rw [hpage]
      cases page with
      | nil =>
        rw [hof.nonempty rfl, List.append_nil, hleft] at hrest
        simp at hrest
      | cons event' tail => rfl
    · rw [hleft] at hnone
      simp at hnone
  | read result =>
    rw [hstage] at hs hstands
    simp only [StreamStage.turn, Streaming.step, hstage]
    rcases result with e | (_ | ⟨event', tail⟩)
    · cases hs
    · exact ⟨rfl, 3, rfl, .inr ⟨rfl, by cases hs; decide⟩⟩
    · obtain rfl := hfirst event' tail hstands.2.1
      obtain ⟨m, hm⟩ := hrunning tail
      exact ⟨rfl, m, hm, .inl rfl⟩
  | yielding last batch =>
    rw [hstage] at hs hstands
    simp only [StreamStage.turn, Streaming.step, hstage]
    cases batch with
    | nil => exact ⟨rfl, 1, rfl, .inr ⟨rfl, by cases hs; decide⟩⟩
    | cons event' tail =>
      obtain rfl := hfirst event' tail hstands.2
      obtain ⟨m, hm⟩ := hrunning tail
      exact ⟨rfl, m, hm, .inl rfl⟩

theorem alone_yields (h : StreamKeeps w given seen s) (hs : s.stage.distance = some n)
    (hleft : w.matching s.journal = given ++ rest) : ∃ k, alone stream w k s = rest := by
  induction rest generalizing given seen s n with
  | nil => exact ⟨0, rfl⟩
  | cons event rest ih =>
    induction n using Nat.strong_induction_on generalizing seen s with
    | _ n nearer =>
      obtain ⟨hjournal, m, hm, hstep⟩ := step_nearer stream h hs hleft
      have hkeeps := @StreamKeeps.step stream w given seen s h s.stage.turn
      rcases hstep with hevent | ⟨hsilent, hlt⟩
      · rw [hevent] at hkeeps
        obtain ⟨k, hk⟩ := ih hkeeps hm (by rw [hjournal, hleft, List.append_assoc]; rfl)
        exact ⟨k + 1, by rw [alone, hevent, hk]; rfl⟩
      · rw [hsilent, Option.toList_none, List.append_nil] at hkeeps
        obtain ⟨k, hk⟩ := nearer m hlt hkeeps hm (by rw [hjournal, hleft])
        exact ⟨k + 1, by rw [alone, hsilent, hk]; rfl⟩

end Alone

/-- **Broker-backed streams** deliver every event in order and once, whatever becomes of the signals. -/
theorem signals_may_be_lost (stream : BrokerBackedEventStream) (w : WatchRequest) (is : List StreamInput) :
    Delivered stream w is := by
  refine ⟨(stream_keeps stream w is).ordered, ?_, ?_, ?_⟩
  · exact (nodup_matching w _).sublist ((stream_keeps stream w is).ordered.sublist.map RuntimeEvent.id)
  · intro pre i post _ hbeat
    have hstands := (stream_keeps stream w pre).stands
    rw [of_heartbeat hbeat] at hstands
    exact hstands.2
  · intro pre post his hs
    subst his
    obtain ⟨rest, hrest⟩ := (stream_keeps stream w pre).ordered
    exact ⟨rest, unskipped_of_read hs hrest.symm⟩

/-- **Without a signal**, a running stream comes to yield all that is in its journal for it. -/
theorem drained_without_signals (stream : BrokerBackedEventStream) (w : WatchRequest) (is : List StreamInput)
    (hrunning : ((stream.watchEvents w).state is).stage.distance.isSome = true) :
    ∃ k, yielded ((stream.watchEvents w).trace is) ++ alone stream w k ((stream.watchEvents w).state is) =
      w.matching ((stream.watchEvents w).state is).journal := by
  have hkeeps := stream_keeps stream w is
  obtain ⟨rest, hrest⟩ := hkeeps.ordered
  obtain ⟨n, hn⟩ := Option.isSome_iff_exists.mp hrunning
  obtain ⟨k, hk⟩ := alone_yields stream hkeeps hn hrest.symm
  exact ⟨k, by rw [hk, hrest]⟩

def narrowStream : BrokerBackedEventStream := ⟨journalReader, 1, 1, Int.one_pos, Int.one_pos⟩

def narrowRequest : WatchRequest := ⟨none, none, 1⟩

/-- An event that no signal tells of. -/
theorem drained_one : ∃ k, alone narrowStream narrowRequest k
    ((narrowStream.watchEvents narrowRequest).state [.next, .append (streamEvent "e1")]) = [streamEvent "e1"] :=
  drained_without_signals narrowStream narrowRequest [.next, .append (streamEvent "e1")] (by decide +kernel)

end UniversalAgent.Runtime
