import UniversalAgent.Evaluation.Replay
import UniversalAgent.Runtime.ReplayEngine

/-!
# Evaluation — Journal folds

The two readings of how a session ended: that of the replay engine, which scans the journal backwards
once for the status and once for the error code, and that of execution replay, which goes forwards
and replaces status, code and reason together. They agree on the status of every journal. On the code
they agree unless a code that was given is not the last word.
-/

namespace UniversalAgent.Evaluation

open UniversalAgent.Core UniversalAgent.Runtime

def Settling (event : RuntimeEvent) : Prop := outcome? (eventView event) ≠ none

instance (event : RuntimeEvent) : Decidable (Settling event) :=
  inferInstanceAs (Decidable (_ ≠ _))

def givenCode? (event : RuntimeEvent) : Option ErrorCode := (carriedCode? event).bind errorCodeOf?

/-- The last failure or cancellation that carries a code, if its code is an error code, is a failure
and the last event that settles the session. -/
def BlameIsLast (events : List RuntimeEvent) : Prop :=
  ∀ before event after, events = before ++ event :: after →
    (givenCode? event).isSome = true → (∀ e ∈ after, carriedCode? e = none) →
      event.type = "GoalFailed" ∧ ∀ e ∈ after, ¬Settling e

/-! ## One event -/

theorem carriedCode?_eq_some {event : RuntimeEvent} {code : Json}
    (h : carriedCode? event = some code) :
    (event.type = "GoalFailed" ∨ event.type = "GoalCancelled") ∧
      event.data.lookup "error_code" = some code ∧ truthy code = true := by
  unfold carriedCode? at h
  split at h
  · rename_i ht
    obtain ⟨hlookup, htruthy⟩ := Option.filter_eq_some_iff.mp h
    exact ⟨ht, hlookup, htruthy⟩
  · cases h

theorem outcome?_failed {event : RuntimeEvent} (h : event.type = "GoalFailed") :
    outcome? (eventView event) = some ⟨some .failed,
      optionalErrorCode (stringData (eventView event) "error_code"),
      stringData (eventView event) "reason"⟩ := by
  have ht : (eventView event).type = "GoalFailed" := h
  simp [outcome?, ht]

theorem outcome?_code_of_ne {event : RuntimeEvent} {o : TerminalOutcome}
    (h : outcome? (eventView event) = some o) (ht : event.type ≠ "GoalFailed") :
    o.errorCode = none := by
  have hne : (eventView event).type ≠ "GoalFailed" := ht
  unfold outcome? at h
  rw [if_neg hne] at h
  split_ifs at h <;> cases h <;> rfl

/-- A cancellation says nothing of a code, whatever it carries. -/
theorem outcome?_cancelled {event : RuntimeEvent} (h : event.type = "GoalCancelled") :
    ∃ o, outcome? (eventView event) = some o ∧ o.errorCode = none := by
  have ht : (eventView event).type = "GoalCancelled" := h
  exact ⟨_, by simp only [outcome?, ht]; rfl, rfl⟩

/-- What a failure says of its code is the code it carries, read. -/
theorem optionalErrorCode_failed {event : RuntimeEvent} (h : event.type = "GoalFailed") :
    optionalErrorCode (stringData (eventView event) "error_code") = givenCode? event := by
  have hdata : (eventView event).data = event.data := rfl
  unfold givenCode? carriedCode? stringData
  rw [if_pos (.inl h), hdata]
  cases hl : event.data.lookup "error_code" with
  | none => rfl
  | some code =>
    cases code with
    | str s =>
      by_cases hs : s = ""
      · subst hs
        decide
      · have htruthy : truthy (.str s) = true := by simp [truthy, hs]
        simp [Option.filter, htruthy, optionalErrorCode, errorCodeOf?]
    | null => rfl
    | bool b => cases b <;> rfl
    | int i => cases hi : truthy (.int i) <;> simp [Option.filter, hi, optionalErrorCode, errorCodeOf?]
    | float x =>
      cases hx : truthy (.float x) <;> simp [Option.filter, hx, optionalErrorCode, errorCodeOf?]
    | arr items =>
      cases hi : truthy (.arr items) <;> simp [Option.filter, hi, optionalErrorCode, errorCodeOf?]
    | obj fields =>
      cases hf : truthy (.obj fields) <;> simp [Option.filter, hf, optionalErrorCode, errorCodeOf?]

/-! ## One event more -/

theorem extractErrorCode_snoc (events : List RuntimeEvent) (event : RuntimeEvent) :
    extractErrorCode (events ++ [event]) =
      match carriedCode? event with
      | some code => errorCodeOf? code
      | none => extractErrorCode events := by
  simp only [extractErrorCode, List.reverse_append, List.reverse_singleton, List.singleton_append,
    List.findSome?_cons]
  cases carriedCode? event <;> rfl

theorem extractTerminalStatus_eq (events : List RuntimeEvent) :
    extractTerminalStatus events = (lastOutcome (events.map eventView)).status.getD .waiting := by
  induction events using List.reverseRecOn with
  | nil => rfl
  | append_singleton events event ih =>
    rw [List.map_append, List.map_singleton, lastOutcome_snoc, extractTerminalStatus,
      List.reverse_append, List.reverse_singleton, List.singleton_append, List.findSome?_cons]
    have ht : (eventView event).type = event.type := rfl
    unfold outcome?
    rw [ht]
    split_ifs
    · rfl
    · rfl
    · rfl
    · rfl
    · exact ih

/-- Where an event is followed by one more, it is in the list before, or it is that one. -/
theorem snoc_eq_split {events before after : List RuntimeEvent} {x event : RuntimeEvent}
    (h : events ++ [x] = before ++ event :: after) :
    (after = [] ∧ event = x ∧ before = events) ∨
      ∃ after', after = after' ++ [x] ∧ events = before ++ event :: after' := by
  rcases List.eq_nil_or_concat after with rfl | ⟨after', y, rfl⟩
  · obtain ⟨rfl, hx⟩ := List.append_inj' h rfl
    cases hx
    exact .inl ⟨rfl, rfl, rfl⟩
  · rw [List.concat_eq_append, ← List.cons_append, ← List.append_assoc] at h
    obtain ⟨rfl, hx⟩ := List.append_inj' h rfl
    cases hx
    exact .inr ⟨after', List.concat_eq_append, rfl⟩

theorem blameIsLast_carried {events : List RuntimeEvent} {event : RuntimeEvent} {code : Json}
    (h : carriedCode? event = some code) :
    BlameIsLast (events ++ [event]) ↔ (errorCodeOf? code = none ∨ event.type = "GoalFailed") := by
  have hgiven : givenCode? event = errorCodeOf? code := by rw [givenCode?, h]; rfl
  constructor
  · intro hb
    cases hc : errorCodeOf? code with
    | none => exact .inl rfl
    | some c =>
      exact .inr (hb events event [] rfl (by rw [hgiven, hc]; rfl)
        fun e he => absurd he List.not_mem_nil).1
  · intro hc before e after hsplit hsome hafter
    rcases snoc_eq_split hsplit with ⟨rfl, rfl, rfl⟩ | ⟨after', rfl, -⟩
    · refine ⟨hc.resolve_left fun hnone => ?_, fun e he => absurd he List.not_mem_nil⟩
      rw [hgiven, hnone] at hsome
      cases hsome
    · have := hafter event (List.mem_append_right _ List.mem_cons_self)
      rw [h] at this
      cases this

theorem blameIsLast_passed {events : List RuntimeEvent} {event : RuntimeEvent}
    (h : carriedCode? event = none) (hs : ¬Settling event) :
    BlameIsLast (events ++ [event]) ↔ BlameIsLast events := by
  constructor
  · intro hb before e after hsplit hsome hafter
    have hall : ∀ x ∈ after ++ [event], carriedCode? x = none := by
      intro x hx
      rcases List.mem_append.mp hx with hx | hx
      · exact hafter x hx
      · rw [List.mem_singleton.mp hx, h]
    obtain ⟨ht, hlast⟩ := hb before e (after ++ [event]) (by rw [hsplit]; simp) hsome hall
    exact ⟨ht, fun x hx => hlast x (List.mem_append_left _ hx)⟩
  · intro hb before e after hsplit hsome hafter
    rcases snoc_eq_split hsplit with ⟨rfl, rfl, rfl⟩ | ⟨after', rfl, hevents⟩
    · rw [givenCode?, h] at hsome
      cases hsome
    · obtain ⟨ht, hlast⟩ := hb before e after' hevents hsome
        fun x hx => hafter x (List.mem_append_left _ hx)
      refine ⟨ht, fun x hx => ?_⟩
      rcases List.mem_append.mp hx with hx | hx
      · exact hlast x hx
      · rw [List.mem_singleton.mp hx]
        exact hs

/-- There is a code exactly when the last event that carries one gives an error code. -/
theorem extractErrorCode_isSome {events : List RuntimeEvent} :
    (extractErrorCode events).isSome = true ↔ ∃ before e after, events = before ++ e :: after ∧
      (givenCode? e).isSome = true ∧ ∀ x ∈ after, carriedCode? x = none := by
  constructor
  · intro h
    obtain ⟨c, hc⟩ := Option.isSome_iff_exists.mp h
    obtain ⟨code, hfind, hcode⟩ := Option.bind_eq_some_iff.mp hc
    obtain ⟨after, e, before, hsplit, he, hafter⟩ := List.findSome?_eq_some_iff.mp hfind
    refine ⟨before.reverse, e, after.reverse, ?_, ?_, fun x hx => hafter x (by simpa using hx)⟩
    · rw [← List.reverse_reverse events, hsplit]
      simp
    · rw [givenCode?, he, Option.bind_some, hcode]
      rfl
  · rintro ⟨before, e, after, rfl, hgiven, hafter⟩
    obtain ⟨c, hc⟩ := Option.isSome_iff_exists.mp hgiven
    obtain ⟨code, hcode, hc⟩ := Option.bind_eq_some_iff.mp hc
    have hfind : (before ++ e :: after).reverse.findSome? carriedCode? = some code := by
      refine List.findSome?_eq_some_iff.mpr ⟨after.reverse, e, before.reverse, by simp, hcode, ?_⟩
      exact fun x hx => hafter x (by simpa using hx)
    rw [extractErrorCode, hfind, Option.bind_some, hc]
    rfl

theorem blameIsLast_settled {events : List RuntimeEvent} {event : RuntimeEvent}
    (h : carriedCode? event = none) (hs : Settling event) :
    BlameIsLast (events ++ [event]) ↔ extractErrorCode events = none := by
  rw [← Option.not_isSome_iff_eq_none, extractErrorCode_isSome]
  constructor
  · rintro hb ⟨before, e, after, rfl, hgiven, hafter⟩
    have hall : ∀ x ∈ after ++ [event], carriedCode? x = none := by
      intro x hx
      rcases List.mem_append.mp hx with hx | hx
      · exact hafter x hx
      · rw [List.mem_singleton.mp hx, h]
    obtain ⟨-, hlast⟩ := hb before e (after ++ [event]) (by simp) hgiven hall
    exact hlast event (List.mem_append_right _ List.mem_cons_self) hs
  · intro hnone before e after hsplit hsome hafter
    rcases snoc_eq_split hsplit with ⟨rfl, rfl, rfl⟩ | ⟨after', rfl, hevents⟩
    · rw [givenCode?, h] at hsome
      cases hsome
    · exact absurd ⟨before, e, after', hevents, hsome,
        fun x hx => hafter x (List.mem_append_left _ hx)⟩ hnone

/-! ## The two readings -/

/-- The codes of the two readings are the same exactly when the blame is the last word. -/
theorem errorCodes_agree_iff (events : List RuntimeEvent) :
    extractErrorCode events = (lastOutcome (events.map eventView)).errorCode ↔
      BlameIsLast events := by
  induction events using List.reverseRecOn with
  | nil =>
    refine iff_of_true rfl ?_
    intro before event after h
    simp at h
  | append_singleton events event ih =>
    rw [List.map_append, List.map_singleton, lastOutcome_snoc, extractErrorCode_snoc]
    cases hc : carriedCode? event with
    | some code =>
      rw [blameIsLast_carried hc]
      obtain ⟨hf | hx, -, -⟩ := carriedCode?_eq_some hc
      · rw [outcome?_failed hf, Option.getD_some, optionalErrorCode_failed hf, givenCode?, hc]
        exact iff_of_true rfl (.inr hf)
      · obtain ⟨o, ho, hnone⟩ := outcome?_cancelled hx
        rw [ho, Option.getD_some, hnone]
        have hne : event.type ≠ "GoalFailed" := by
          rw [hx]
          decide
        exact (or_iff_left hne).symm
    | none =>
      by_cases hs : Settling event
      · rw [blameIsLast_settled hc hs]
        obtain ⟨o, ho⟩ := Option.ne_none_iff_exists'.mp hs
        have hnone : o.errorCode = none := by
          by_cases ht : event.type = "GoalFailed"
          · rw [outcome?_failed ht] at ho
            rw [← Option.some.inj ho]
            exact (optionalErrorCode_failed ht).trans (by rw [givenCode?, hc]; rfl)
          · exact outcome?_code_of_ne ho ht
        rw [ho, Option.getD_some, hnone]
      · rw [blameIsLast_passed hc hs, ← ih, not_not.mp hs]
        rfl

/-- The two readings of the end of a session agree, no end being read as waiting. -/
def FoldsAgree (events : List RuntimeEvent) (replay : ExecutionReplay) : Prop :=
  replay.terminalStatus.getD .waiting = extractTerminalStatus events ∧
    replay.terminalErrorCode = extractErrorCode events

/-- **The two journal folds.** Over the events of one session both folds return, and they agree on
status and error code exactly when the last failure or cancellation that carries an error code is a
failure that nothing has settled since. -/
theorem journal_folds_agree_iff {sessionId : SessionId} {events : List RuntimeEvent}
    (h : events ≠ [] ∧ ∀ event ∈ events, event.sessionId = sessionId) :
    ∃ replay, replayExecution (events.map eventView) = .ok replay ∧
      (FoldsAgree events replay ↔ BlameIsLast events) := by
  have hone : OfOneSession sessionId (events.map eventView) := by
    refine ⟨by simpa using h.1, fun view hv => ?_⟩
    obtain ⟨event, he, rfl⟩ := List.mem_map.mp hv
    exact h.2 event he
  obtain ⟨replay, hreplay, houtcome⟩ := replayExecution_outcome hone
  refine ⟨replay, hreplay, ?_⟩
  have hstatus : replay.terminalStatus = (lastOutcome (events.map eventView)).status :=
    congrArg TerminalOutcome.status houtcome
  have hcode : replay.terminalErrorCode = (lastOutcome (events.map eventView)).errorCode :=
    congrArg TerminalOutcome.errorCode houtcome
  unfold FoldsAgree
  rw [hstatus, hcode, extractTerminalStatus_eq, ← errorCodes_agree_iff]
  exact (and_iff_right rfl).trans eq_comm

def failedSession : List RuntimeEvent :=
  [journalEvent 1 "GoalCreated" [("description", .str "say hello")],
    journalEvent 2 "GoalFailed"
      [("error_code", .str "timeout"), ("reason", .str "session timed out")]]

theorem journal_folds_agree_failed :
    ∃ replay, replayExecution (failedSession.map eventView) = .ok replay ∧
      (FoldsAgree failedSession replay ↔ BlameIsLast failedSession) :=
  @journal_folds_agree_iff "session-1" failedSession (by decide)

/-- A session that failed, was continued and then completed, is completed without an error for one
fold, and with the error code of the old failure for the other. -/
theorem stale_error_code :
    ∃ replay,
      replayExecution ((failedSession ++ [journalEvent 3 "SessionContinued" [],
        journalEvent 4 "GoalCompleted" []]).map eventView) = .ok replay ∧
      replay.terminalStatus = some .completed ∧ replay.terminalErrorCode = none ∧
      extractTerminalStatus (failedSession ++ [journalEvent 3 "SessionContinued" [],
        journalEvent 4 "GoalCompleted" []]) = .completed ∧
      extractErrorCode (failedSession ++ [journalEvent 3 "SessionContinued" [],
        journalEvent 4 "GoalCompleted" []]) = some .timeout := by
  refine ⟨_, rfl, ?_, ?_, ?_, ?_⟩ <;> decide +kernel

end UniversalAgent.Evaluation
