import UniversalAgent.Persistence.RoundTrip
import UniversalAgent.State.FileEventStore

/-!
# State — EventAgreement

When the file store lists what the store in memory lists.

An append that raises has set the id and the index already, so the event is listed and is not appended
again; and a line that is no event makes `all` raise, or adds an event. In the runs without either, and
only in those, the stores agree.
-/

namespace UniversalAgent.State.EventFiles

open UniversalAgent.Core UniversalAgent.Foundation

variable {line : EventLine} {memory : InMemoryEventStore} {fault : Option WriteFault} {steps : List StoreStep}

variable {texts : EventTexts}

/-! ## Normalised values -/

theorem dumpsFields_ofFields {fields : List (String × Json)}
    (h : ∀ p ∈ fields, dumps texts (ofJson p.2) = .ok p.2) :
    dumpsFields texts (ofFields fields) = .ok fields := by
  induction fields with
  | nil => rfl
  | cons p fields ih =>
    obtain ⟨k, v⟩ := p
    have hv : dumps texts (ofJson v) = .ok v := h (k, v) List.mem_cons_self
    have hrest := ih fun q hq => h q (List.mem_cons_of_mem _ hq)
    simp [ofFields, dumpsFields, keyText, hv, hrest, bind, Except.bind, pure, Except.pure]

mutual

theorem dumps_ofJson {v : DataValue} {w : Json} (h : dumps texts v = .ok w) :
    dumps texts (ofJson w) = .ok w := by
  cases v with
  | null | bool _ | float _ | str _ | datetime _ =>
    rw [dumps, Except.ok.injEq] at h
    subst h
    rfl
  | int i =>
    rw [dumps] at h
    split at h
    · next hi =>
        obtain rfl := Except.ok.inj h
        exact if_pos hi
    · cases h
  | list items =>
    rw [dumps] at h
    obtain ⟨ws, hws, hw⟩ := Except.bind_eq_ok.mp h
    obtain rfl := Except.ok.inj hw
    have hitems := dumpsItems_ofItems hws
    simp [ofJson, dumps, hitems, bind, Except.bind, pure, Except.pure]
  | dict fields =>
    rw [dumps] at h
    obtain ⟨ws, hws, hw⟩ := Except.bind_eq_ok.mp h
    obtain rfl := Except.ok.inj hw
    have hitems : ∀ p ∈ dictUpdate [] ws, dumps texts (ofJson p.2) = .ok p.2 := by
      intro p hp
      exact dumpsFields_ofJson hws p (survivors_subset ws p (mem_dictUpdate_nil.mp hp))
    have hnodup : ((dictUpdate [] ws).map Prod.fst).Nodup := nodup_dictUpdate List.nodup_nil
    simp [ofJson, dumps, dumpsFields_ofFields hitems, dictUpdate_nil_of_nodup hnodup, bind,
      Except.bind, pure, Except.pure]
  | object typeName => cases h

theorem dumpsItems_ofItems {vs : List DataValue} {ws : List Json}
    (h : dumpsItems texts vs = .ok ws) : dumpsItems texts (ofItems ws) = .ok ws := by
  cases vs with
  | nil =>
    obtain rfl := Except.ok.inj h
    rfl
  | cons v vs =>
    rw [dumpsItems] at h
    obtain ⟨w, hw, h⟩ := Except.bind_eq_ok.mp h
    obtain ⟨rest, hrest, h⟩ := Except.bind_eq_ok.mp h
    obtain rfl := Except.ok.inj h
    have hv := dumps_ofJson hw
    have hvs := dumpsItems_ofItems hrest
    simp [ofItems, dumpsItems, hv, hvs, bind, Except.bind, pure, Except.pure]

theorem dumpsFields_ofJson {fields : List (DataKey × DataValue)} {ws : List (String × Json)}
    (h : dumpsFields texts fields = .ok ws) : ∀ p ∈ ws, dumps texts (ofJson p.2) = .ok p.2 := by
  cases fields with
  | nil =>
    obtain rfl := Except.ok.inj h
    intro p hp
    cases hp
  | cons field fields =>
    obtain ⟨k, v⟩ := field
    rw [dumpsFields] at h
    obtain ⟨key, -, h⟩ := Except.bind_eq_ok.mp h
    obtain ⟨w, hw, h⟩ := Except.bind_eq_ok.mp h
    obtain ⟨rest, hrest, h⟩ := Except.bind_eq_ok.mp h
    obtain rfl := Except.ok.inj h
    intro p hp
    rcases List.mem_cons.mp hp with rfl | hp
    · exact dumps_ofJson hw
    · exact dumpsFields_ofJson hrest p hp

end

/-! ## What can be written -/

theorem exists_bind_ok {α β : Type} {x : Except DumpError α} {f : α → Except DumpError β}
    {g : α → β} (h : ∀ a, f a = .ok (g a)) :
    (∃ b, (x >>= f) = .ok b) ↔ ∃ a, x = .ok a := by
  constructor
  · rintro ⟨b, hb⟩
    obtain ⟨a, ha, -⟩ := Except.bind_eq_ok.mp hb
    exact ⟨a, ha⟩
  · rintro ⟨a, ha⟩
    exact ⟨g a, Except.bind_eq_ok.mpr ⟨a, ha, h a⟩⟩

theorem keyText_ok (texts : EventTexts) (k : DataKey) :
    (∃ text, keyText texts k = .ok text) ↔ keySerialisable k = true := by
  cases k with
  | str _ | float _ | bool _ | null => exact iff_of_true ⟨_, rfl⟩ rfl
  | int i =>
    by_cases hi : HasText i
    · exact iff_of_true ⟨_, if_pos hi⟩ (decide_eq_true hi)
    · simp [keyText, keySerialisable, hi]
  | object typeName => simp [keyText, keySerialisable]

mutual

theorem dumps_ok (v : DataValue) :
    (∃ w, dumps texts v = .ok w) ↔ serialisable v = true := by
  cases v with
  | null | bool _ | float _ | str _ | datetime _ => exact iff_of_true ⟨_, rfl⟩ rfl
  | int i =>
    by_cases hi : HasText i
    · exact iff_of_true ⟨_, if_pos hi⟩ (decide_eq_true hi)
    · simp [dumps, serialisable, hi]
  | list items =>
    rw [serialisable, ← dumpsItems_ok items, dumps]
    exact exists_bind_ok fun _ => rfl
  | dict fields =>
    rw [serialisable, ← dumpsFields_ok fields, dumps]
    exact exists_bind_ok fun _ => rfl
  | object typeName => simp [dumps, serialisable]

theorem dumpsItems_ok (vs : List DataValue) :
    (∃ ws, dumpsItems texts vs = .ok ws) ↔ allSerialisable vs = true := by
  cases vs with
  | nil => exact iff_of_true ⟨[], rfl⟩ rfl
  | cons v vs =>
    rw [allSerialisable, Bool.and_eq_true, ← dumps_ok v, ← dumpsItems_ok vs]
    constructor
    · rintro ⟨ws, h⟩
      obtain ⟨w, hw, h⟩ := Except.bind_eq_ok.mp h
      obtain ⟨rest, hrest, -⟩ := Except.bind_eq_ok.mp h
      exact ⟨⟨w, hw⟩, rest, hrest⟩
    · rintro ⟨⟨w, hw⟩, rest, hrest⟩
      exact ⟨w :: rest, by simp [dumpsItems, hw, hrest, bind, Except.bind, pure, Except.pure]⟩

theorem dumpsFields_ok (fields : List (DataKey × DataValue)) :
    (∃ ws, dumpsFields texts fields = .ok ws) ↔ fieldsSerialisable fields = true := by
  cases fields with
  | nil => exact iff_of_true ⟨[], rfl⟩ rfl
  | cons field fields =>
    obtain ⟨k, v⟩ := field
    rw [fieldsSerialisable, Bool.and_eq_true, Bool.and_eq_true, ← keyText_ok texts k,
      ← dumps_ok v, ← dumpsFields_ok fields]
    constructor
    · rintro ⟨ws, h⟩
      obtain ⟨key, hkey, h⟩ := Except.bind_eq_ok.mp h
      obtain ⟨w, hw, h⟩ := Except.bind_eq_ok.mp h
      obtain ⟨rest, hrest, -⟩ := Except.bind_eq_ok.mp h
      exact ⟨⟨⟨key, hkey⟩, w, hw⟩, rest, hrest⟩
    · rintro ⟨⟨⟨key, hkey⟩, w, hw⟩, rest, hrest⟩
      exact ⟨(key, w) :: rest, by
        simp [dumpsFields, hkey, hw, hrest, bind, Except.bind, pure, Except.pure]⟩

end

/-! ## Lines -/

def Written (texts : EventTexts) (event : EmittedEvent) (line : EventLine) : Prop :=
  ∃ value, eventToDict texts event = .ok value ∧ line = .json value

/-- An event that was written is read with its data normalised. -/
theorem eventFromDict_written {event : EmittedEvent} {value : Json}
    (h : eventToDict texts event = .ok value) :
    ∃ read, eventFromDict texts value = .ok read ∧
      normalised texts read = normalised texts event.held := by
  obtain ⟨data, hdata, hv⟩ := Except.bind_eq_ok.mp h
  obtain rfl := Except.ok.inj hv
  refine ⟨{ event.held with data := ofJson data }, ?_, ?_⟩
  · simp [eventFromDict, item, readTime, Json.field?, List.lookup_cons,
      texts.fromisoformat_isoformat, EmittedEvent.held, bind, Except.bind, pure, Except.pure]
  · simp only [normalised, dumps_ofJson hdata, EmittedEvent.held, hdata]

theorem readLine_written {event : EmittedEvent} (h : Written texts event line) :
    ∃ read, readLine texts line = .ok read ∧
      normalised texts read = normalised texts event.held := by
  obtain ⟨value, hv, rfl⟩ := h
  exact eventFromDict_written hv

theorem loadLine_written {event : EmittedEvent} (h : Written texts event line)
    (store : FileEventStore) :
    ∃ read, normalised texts read = normalised texts event.held ∧
      loadLine texts store line =
        .ok ⟨store.eventIds ++ [.str event.id], store.bySession ++ [read]⟩ := by
  obtain ⟨value, hv, rfl⟩ := h
  obtain ⟨read, hread, hnorm⟩ := eventFromDict_written hv
  obtain ⟨data, hdata, hv⟩ := Except.bind_eq_ok.mp hv
  obtain rfl := Except.ok.inj hv
  refine ⟨read, hnorm, ?_⟩
  simp [loadLine, hread, hashable, List.lookup_cons, bind, Except.bind, pure, Except.pure]

def LinesOf (texts : EventTexts) (memory : InMemoryEventStore) (lines : List EventLine) : Prop :=
  List.Forall₂ (Written texts) memory (lines.filter fun line => line ≠ .blank)

variable {lines : List EventLine}

theorem written_json
    (h : List.Forall₂ (Written texts) memory lines) :
    ∀ line ∈ lines, ∃ value, line = .json value := by
  induction h with
  | nil =>
    intro line hline
    cases hline
  | cons hwritten _ ih =>
    intro line hline
    rcases List.mem_cons.mp hline with rfl | hline
    · obtain ⟨value, -, hvalue⟩ := hwritten
      exact ⟨value, hvalue⟩
    · exact ih line hline

theorem mapM_length {events : List (HeldEvent DataValue)}
    (h : lines.mapM (readLine texts) = .ok events) : events.length = lines.length := by
  induction lines generalizing events with
  | nil =>
    obtain rfl := Except.ok.inj h
    rfl
  | cons line lines ih =>
    rw [List.mapM_cons] at h
    obtain ⟨event, -, h⟩ := Except.bind_eq_ok.mp h
    obtain ⟨rest, hrest, h⟩ := Except.bind_eq_ok.mp h
    obtain rfl := Except.ok.inj h
    rw [List.length_cons, List.length_cons, ih hrest]

theorem mapM_written
    (h : List.Forall₂ (Written texts) memory lines) :
    ∃ events, lines.mapM (readLine texts) = .ok events ∧
      events.map (normalised texts) = memory.map fun e => normalised texts e.held := by
  induction h with
  | nil => exact ⟨[], rfl, rfl⟩
  | cons hline _ ih =>
    obtain ⟨read, hread, hnorm⟩ := readLine_written hline
    obtain ⟨events, hevents, hmap⟩ := ih
    refine ⟨read :: events, ?_, ?_⟩
    · simp [List.mapM_cons, hread, hevents, bind, Except.bind, pure, Except.pure]
    · rw [List.map_cons, List.map_cons, hnorm, hmap]

theorem foldlM_written
    (h : LinesOf texts memory lines) (store : FileEventStore) :
    ∃ store', lines.foldlM (loadLine texts) store = .ok store' ∧
      store'.eventIds = store.eventIds ++ memory.map (fun e => .str e.id) ∧
      store'.bySession.map (normalised texts) =
        store.bySession.map (normalised texts) ++ memory.map fun e => normalised texts e.held := by
  induction lines generalizing memory store with
  | nil =>
    cases h
    exact ⟨store, rfl, by simp, by simp⟩
  | cons line lines ih =>
    by_cases hb : line = .blank
    · subst hb
      rw [LinesOf, List.filter_cons_of_neg (by simp)] at h
      obtain ⟨store', hstore, hrest⟩ := ih h store
      exact ⟨store', by rw [List.foldlM_cons]; exact hstore, hrest⟩
    · rw [LinesOf, List.filter_cons_of_pos (by simpa using hb)] at h
      cases h with
      | @cons event _ memory _ hline hlines =>
        obtain ⟨read, hnorm, hload⟩ := loadLine_written hline store
        obtain ⟨store', hstore, hids, hby⟩ :=
          ih hlines ⟨store.eventIds ++ [.str event.id], store.bySession ++ [read]⟩
        refine ⟨store', ?_, ?_, ?_⟩
        · rw [List.foldlM_cons, hload]
          exact hstore
        · simp [hids]
        · simp [hby, hnorm]

/-- None of the lines stops the reading of the file. -/
theorem LinesOf.undecodable (h : LinesOf texts memory lines) : EventLine.undecodable ∉ lines := by
  intro hmem
  have hmem : EventLine.undecodable ∈ lines.filter fun line => line ≠ .blank :=
    List.mem_filter.mpr ⟨hmem, by simp⟩
  obtain ⟨value, hvalue⟩ := written_json h _ hmem
  cases hvalue

/-! ## One step -/

structure Listed (texts : EventTexts) (run : FileRun) (memory : InMemoryEventStore) : Prop where
  eventsFor : ∀ sessionId,
    (eventsFor run.store.bySession sessionId).map (normalised texts) =
      (memory.eventsFor sessionId).map fun e => normalised texts e.held
  all : ∃ events, all texts run.file = .ok events ∧
    events.map (normalised texts) = memory.map fun e => normalised texts e.held
  once : (memory.map EmittedEvent.id).Nodup

def Quiet (texts : EventTexts) (run : FileRun) (event : EmittedEvent) (fault : Option WriteFault) :
    Prop :=
  (run.append texts event fault).1 = .raised →
    (∀ sessionId, eventsFor (run.append texts event fault).2.store.bySession sessionId
      = eventsFor run.store.bySession sessionId) ∧
    EventFiles.all texts (run.append texts event fault).2.file = EventFiles.all texts run.file

/-- An event that is new can be written, and its line is; no line but a blank one gets into the
file. -/
def Undisturbed (run : FileRun) : StoreStep → Prop
  | .append event fault =>
    .str event.id ∈ run.store.eventIds ∨
      fieldsSerialisable event.data = true ∧ fault = none
  | .reopen => True
  | .insert _ line => line = .blank

instance (run : FileRun) : ∀ step, Decidable (Undisturbed run step)
  | .append _ _ => inferInstanceAs (Decidable (_ ∨ _))
  | .reopen => .isTrue trivial
  | .insert _ _ => inferInstanceAs (Decidable (_ = _))

structure Faithful (texts : EventTexts) (run : FileRun) (memory : InMemoryEventStore) : Prop where
  rest : run.file.rest = .blank
  lines : LinesOf texts memory run.file.lines
  ids : ∀ id : EventId, Json.str id ∈ run.store.eventIds ↔ id ∈ memory.map EmittedEvent.id
  index : run.store.bySession.map (normalised texts) = memory.map fun e => normalised texts e.held
  once : (memory.map EmittedEvent.id).Nodup

namespace Faithful

variable {run : FileRun} {memory : InMemoryEventStore}

theorem init : Faithful texts .init [] :=
  ⟨rfl, .nil, fun id => by simp [FileRun.init, FileEventStore.empty], rfl, List.nodup_nil⟩

theorem iterated (h : Faithful texts run memory) : LinesOf texts memory run.file.iterated := by
  rw [LinesOf, EventFile.iterated, h.rest, List.filter_append, List.filter_cons_of_neg (by simp),
    List.filter_nil, List.append_nil]
  exact h.lines

theorem listed (h : Faithful texts run memory) : Listed texts run memory where
  eventsFor sessionId := by
    have hleft : (EventFiles.eventsFor run.store.bySession sessionId).map (normalised texts) =
        (run.store.bySession.map (normalised texts)).filter fun e => e.sessionId = .str sessionId := by
      rw [List.filter_map]
      rfl
    have hright : ((memory.eventsFor sessionId).map fun e => normalised texts e.held) =
        (memory.map fun e => normalised texts e.held).filter
          fun e => e.sessionId = .str sessionId := by
      rw [List.filter_map, InMemoryEventStore.eventsFor]
      refine congrArg _ (List.filter_congr fun e _ => ?_)
      simp [normalised, EmittedEvent.held]
    rw [hleft, hright, h.index]
  all := by
    obtain ⟨events, hevents, hmap⟩ := mapM_written h.iterated
    exact ⟨events, (if_neg h.iterated.undecodable).trans hevents, hmap⟩
  once := h.once

theorem append (h : Faithful texts run memory) {event : EmittedEvent}
    (hnew : .str event.id ∉ run.store.eventIds) (hdata : fieldsSerialisable event.data = true) :
    (run.append texts event none).1 = .returned ∧
      Faithful texts (run.append texts event none).2 (memory.append event) := by
  have hmem : event.id ∉ memory.map EmittedEvent.id := fun hid => hnew ((h.ids event.id).mpr hid)
  obtain ⟨data, hdata⟩ := (@dumps_ok texts (.dict event.data)).mpr hdata
  have hvalue : ∃ value, eventToDict texts event = .ok value := by
    rw [eventToDict, hdata]
    exact ⟨_, rfl⟩
  obtain ⟨value, hvalue⟩ := hvalue
  rw [FileRun.append, if_neg hnew, hvalue, InMemoryEventStore.append, if_neg hmem]
  refine ⟨rfl, rfl, ?_, ?_, ?_, ?_⟩
  · show LinesOf texts (memory ++ [event]) (run.file.lines ++ [run.file.rest.followedBy value])
    rw [LinesOf, List.filter_append, h.rest]
    exact List.rel_append h.lines (.cons ⟨value, hvalue, rfl⟩ .nil)
  · intro id
    show Json.str id ∈ run.store.eventIds ++ [.str event.id] ↔ _
    rw [List.mem_append, List.map_append, List.mem_append, h.ids]
    simp
  · show (run.store.bySession ++ [event.held]).map (normalised texts) = _
    rw [List.map_append, List.map_append, h.index]
    rfl
  · rw [List.map_append, List.nodup_append]
    refine ⟨h.once, List.nodup_singleton _, ?_⟩
    intro id hid id' hid' he
    rw [List.map_singleton, List.mem_singleton] at hid'
    exact hmem (hid' ▸ he ▸ hid)

theorem returns (h : Faithful texts run memory) {event : EmittedEvent}
    (hu : .str event.id ∈ run.store.eventIds ∨ fieldsSerialisable event.data = true ∧ fault = none) :
    (run.append texts event fault).1 = .returned := by
  by_cases hseen : Json.str event.id ∈ run.store.eventIds
  · rw [FileRun.append, if_pos hseen]
  · obtain ⟨hdata, rfl⟩ := hu.resolve_left hseen
    exact (h.append hseen hdata).1

theorem reopen (h : Faithful texts run memory) :
    ∃ store, load texts run.file = .ok store ∧
      Faithful texts { run with store := store } memory := by
  obtain ⟨store, hstore, hids, hby⟩ := foldlM_written h.iterated .empty
  refine ⟨store, (if_neg h.iterated.undecodable).trans hstore, h.rest, h.lines, ?_, hby, h.once⟩
  intro id
  rw [hids]
  simp [FileEventStore.empty]

theorem insert (h : Faithful texts run memory) (index : Nat) :
    Faithful texts (run.step texts (.insert index .blank)).2 memory where
  rest := h.rest
  lines := by
    show List.Forall₂ _ _ (List.filter _ (_ ++ _))
    have hlines := h.lines
    rw [LinesOf, ← List.take_append_drop index run.file.lines, List.filter_append] at hlines
    rw [List.filter_append, List.filter_cons_of_neg (by simp)]
    exact hlines
  ids := h.ids
  index := h.index
  once := h.once

end Faithful

/-! ## Runs -/

theorem kept_snoc (history : List (StoreStep × StoreAnswer)) (x : StoreStep × StoreAnswer) :
    kept (history ++ [x]) = match x with
      | (.append event _, .returned) => (kept history).append event
      | _ => kept history := by
  rw [kept, List.foldl_append]
  rfl

theorem append_seen {event : EmittedEvent}
    (h : event.id ∈ memory.map EmittedEvent.id) : memory.append event = memory := if_pos h

theorem faithful_step {history : List (StoreStep × StoreAnswer)} {run : FileRun} {step : StoreStep}
    (h : Faithful texts run (kept history)) (hu : Undisturbed run step) :
    Faithful texts (run.step texts step).2 (kept (history ++ [(step, (run.step texts step).1)])) := by
  rw [kept_snoc]
  cases step with
  | append event fault =>
    by_cases hseen : Json.str event.id ∈ run.store.eventIds
    · have hstep : run.step texts (.append event fault) = (.returned, run) := if_pos hseen
      rw [hstep]
      show Faithful texts run ((kept history).append event)
      rw [append_seen ((h.ids event.id).mp hseen)]
      exact h
    · obtain ⟨hdata, rfl⟩ := hu.resolve_left hseen
      obtain ⟨hans, hnext⟩ := h.append hseen hdata
      have hstep : (run.step texts (.append event none)).1 = .returned := hans
      rw [hstep]
      exact hnext
  | reopen =>
    obtain ⟨store, hload, hnext⟩ := h.reopen
    have hstep : run.step texts .reopen = (.returned, { run with store := store }) := by
      rw [FileRun.step, hload]
    rw [hstep]
    exact hnext
  | insert index line =>
    obtain rfl : line = .blank := hu
    exact h.insert index

/-- The invariant of a run none of whose steps disturbs the store. -/
theorem faithful_run
    (hm : (machine texts).Meets (fun _ => Undisturbed) steps) :
    Faithful texts ((machine texts).state steps) (kept ((machine texts).history steps)) :=
  (machine texts).induct (fun history run => Faithful texts run (kept history)) .init
    (fun _ _ _ h hu => faithful_step h hu) hm

/-- In every state that is reached both listings are right, and no append that raises changes them. -/
structure Agrees (texts : EventTexts) (steps : List StoreStep) : Prop where
  listed : ∀ pre post, steps = pre ++ post →
    Listed texts ((machine texts).state pre) (kept ((machine texts).history pre))
  quiet : ∀ pre event fault post, steps = pre ++ .append event fault :: post →
    Quiet texts ((machine texts).state pre) event fault

theorem Agrees.init {step : StoreStep} (h : Agrees texts (steps ++ [step])) :
    Agrees texts steps where
  listed pre post he := h.listed pre (post ++ [step]) (by rw [he, List.append_assoc])
  quiet pre event fault post he := h.quiet pre event fault (post ++ [step]) (by rw [he]; simp)

/-- A new event is listed, whether its append returns or raises. -/
theorem Quiet.undisturbed {run : FileRun} {event : EmittedEvent}
    (h : Quiet texts run event fault) : Undisturbed run (.append event fault) := by
  by_contra hne
  obtain ⟨hseen, hfault⟩ := not_or.mp hne
  have hindex : (run.append texts event fault).2.store.bySession =
      run.store.bySession ++ [event.held] := by
    rw [FileRun.append, if_neg hseen]
    cases eventToDict texts event <;> rfl
  have hraised : (run.append texts event fault).1 = .raised := by
    rw [FileRun.append, if_neg hseen]
    cases hv : eventToDict texts event with
    | error _ => rfl
    | ok value =>
      have hdata : fieldsSerialisable event.data = true := by
        obtain ⟨data, hdata, -⟩ := Except.bind_eq_ok.mp hv
        exact (@dumps_ok texts (.dict event.data)).mp ⟨data, hdata⟩
      have hnone : fault ≠ none := fun he => hfault ⟨hdata, he⟩
      exact if_neg hnone
  have hsame := (h hraised).1 event.sessionId
  rw [hindex, eventsFor, eventsFor, List.filter_append] at hsame
  have hlength := congrArg List.length hsame
  simp [EmittedEvent.held] at hlength

/-- A line that is not blank is listed, or stops the listing. -/
theorem Listed.blank {run : FileRun} {index : Nat}
    (h : Faithful texts run memory)
    (hl : Listed texts (run.step texts (.insert index line)).2 memory) : line = .blank := by
  by_contra hne
  obtain ⟨events, hall, hmap⟩ := hl.all
  have hevents : ((run.file.lines.take index ++ line :: run.file.lines.drop index ++
      [run.file.rest]).filter fun line => line ≠ .blank).mapM (readLine texts) = .ok events := by
    rw [EventFiles.all] at hall
    split at hall
    · cases hall
    · exact hall
  have hread := mapM_length hevents
  have hsame : events.length = memory.length := by
    have hlength := congrArg List.length hmap
    rwa [List.length_map, List.length_map] at hlength
  have hlines := h.lines.length_eq
  rw [← List.take_append_drop index run.file.lines, List.filter_append, List.length_append] at hlines
  rw [List.filter_append, List.filter_append, List.filter_cons_of_pos (by simpa using hne),
    List.length_append, List.length_append, List.length_cons] at hread
  omega

/-- **The stores agree** in the runs whose steps leave the file store undisturbed, and in no others. -/
theorem event_stores_agree (texts : EventTexts) (steps : List StoreStep) :
    Agrees texts steps ↔ (machine texts).Meets (fun _ => Undisturbed) steps := by
  constructor
  · intro h
    induction steps using List.reverseRecOn with
    | nil => exact Machine.Meets.nil _ _
    | append_singleton steps step ih =>
      have hm := ih h.init
      refine Machine.meets_snoc.mpr ⟨hm, ?_⟩
      cases step with
      | append event fault => exact (h.quiet steps event fault [] rfl).undisturbed
      | reopen => trivial
      | insert index line =>
        have hl := h.listed (steps ++ [.insert index line]) [] (List.append_nil _).symm
        rw [Machine.state_snoc, Machine.history_snoc, kept_snoc] at hl
        exact Listed.blank (faithful_run hm) hl
  · intro hm
    refine ⟨fun pre post he => ?_, fun pre event fault post he hraised => ?_⟩
    · have hpre : (machine texts).Meets (fun _ => Undisturbed) pre := fun a i b hp =>
        hm a i (b ++ post) (by rw [he, hp]; simp)
      exact (faithful_run hpre).listed
    · have hu := hm pre _ post he
      have hpre : (machine texts).Meets (fun _ => Undisturbed) pre := fun a i b hp =>
        hm a i (b ++ .append event fault :: post) (by rw [he, hp]; simp)
      have hanswer := (faithful_run hpre).returns hu
      rw [hanswer] at hraised
      cases hraised

/-- Texts of the times of `epochIso`. -/
def epochTexts : EventTexts where
  isoformat := Persistence.epochIso.isoformat
  fromisoformat := Persistence.epochIso.isoparse
  fromisoformat_isoformat := Persistence.epochIso.isoparse_isoformat
  floatText
    | .finite q => toString q
    | .infinite negative => if negative then "-Infinity" else "Infinity"
    | .nan => "NaN"

def viewEvent : EmittedEvent where
  type := "ActionProposed"
  sessionId := "session-1"
  goalId := "goal-1"
  taskId := "task-1"
  id := "event-1"
  actionId := some "action-1"
  data := [(.str "arguments", .object "mappingproxy")]
  occurredAt := 0

/-- The event is listed by its session, although its append raised. -/
theorem raised_event_listed : ¬ ∀ texts steps, Agrees texts steps := by
  intro h
  have hquiet := (h epochTexts [.append viewEvent none]).quiet [] viewEvent none [] rfl
  have hno : ¬Undisturbed .init (.append viewEvent none) := by decide
  exact hno hquiet.undisturbed

end UniversalAgent.State.EventFiles
