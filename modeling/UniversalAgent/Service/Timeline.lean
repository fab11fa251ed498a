import Mathlib.Data.List.Basic
import Mathlib.Tactic.Common
import UniversalAgent.Core.Json
import UniversalAgent.Core.Models
import UniversalAgent.Foundation.Separators

/-!
# Service — Timeline

The timeline of a session (`service/timeline.py`): its events, grouped into steps in one pass. An event goes
to the step that was opened under its action id, opens a step, or goes to the step that was opened last.
-/

namespace UniversalAgent.Service.Timeline

open UniversalAgent.Core UniversalAgent.Foundation

structure RuntimeEventView where
  eventId : String
  type : String
  goalId : GoalId
  taskId : TaskId
  actionId : Option ActionId
  data : JsonMapping
deriving DecidableEq

/-- `TIMELINE_STEP_TYPES`. -/
def timelineStepTypes : List String := ["DecisionGenerated", "ActionStarted"]

/-- `_StepAccumulator`; `text` is `str`. -/
structure StepAccumulator where
  goalId : GoalId
  taskId : TaskId
  actionId : Option ActionId
  observationId : Option String := none
  evidenceIds : List String := []
  policyEffect : Option String := none
  decision : Option JsonMapping := none
  events : List RuntimeEventView := []

/-- `_decision_payload`. -/
def decisionPayload (data : JsonMapping) : Option JsonMapping :=
  let get key := (data.lookup key).getD .null
  let optional key := match data.lookup key with
    | none | some .null => []
    | some v => [(key, v)]
  if (data.lookup "decision_type").isNone then none
  else some ([("type", get "decision_type"), ("reason", get "reason"), ("arguments", get "arguments"),
    ("expected_observations", get "expected_observations")] ++ optional "capability" ++ optional "target")

namespace StepAccumulator

/-- What an event makes a step show. -/
def note (text : Json → String) (step : StepAccumulator) (view : RuntimeEventView) : StepAccumulator :=
  match view.type with
  | "ObservationReceived" => match view.data.lookup "observation_id" with
    | some id => { step with observationId := some (text id) }
    | none => step
  | "EvidenceRecorded" => match view.data.lookup "evidence_id" with
    | some id => { step with evidenceIds := step.evidenceIds ++ [text id] }
    | none => step
  | "PolicyChecked" => match view.data.lookup "effect" with
    | some effect => { step with policyEffect := some (text effect) }
    | none => step
  | "DecisionGenerated" => { step with decision := decisionPayload view.data }
  | _ => step

def add (text : Json → String) (step : StepAccumulator) (view : RuntimeEventView) : StepAccumulator :=
  { step.note text view with events := step.events ++ [view] }

/-- `_StepAccumulator(view)`. -/
def new (text : Json → String) (view : RuntimeEventView) : StepAccumulator :=
  add text { goalId := view.goalId, taskId := view.taskId, actionId := view.actionId } view

end StepAccumulator

/-- The steps, and `by_action`: the place of the step that an action has opened. -/
structure Steps where
  steps : List StepAccumulator
  byAction : List (ActionId × Nat)

namespace Steps

/-- One turn of the loop of `timeline_steps`. -/
def place (text : Json → String) (s : Steps) (view : RuntimeEventView) : Steps :=
  match view.actionId.bind fun a => s.byAction.lookup a with
  | some i => { s with steps := s.steps.modify i fun step => step.add text view }
  | none =>
    if view.type ∈ timelineStepTypes then
      { steps := s.steps ++ [.new text view]
        byAction := match view.actionId with
          | some a => (a, s.steps.length) :: s.byAction
          | none => s.byAction }
    else if s.steps = [] then { s with steps := [.new text view] }
    else { s with steps := s.steps.modify (s.steps.length - 1) fun step => step.add text view }

end Steps

/-- `timeline_steps`, before the steps are named. -/
def timelineSteps (text : Json → String) (events : List RuntimeEventView) : List StepAccumulator :=
  (events.foldl (Steps.place text) ⟨[], []⟩).steps

/-! ## Growth -/

section Growth

variable {text : Json → String} {steps steps' steps'' : List StepAccumulator}

/-- What a step has become: it is still of its goal, task and action, and has kept its events. -/
structure Continues (step step' : StepAccumulator) : Prop where
  same : (step'.goalId, step'.taskId, step'.actionId) = (step.goalId, step.taskId, step.actionId)
  events : step.events <+: step'.events

/-- Every step has kept its place. -/
def Grown (steps steps' : List StepAccumulator) : Prop :=
  ∀ (k : Nat) (step : StepAccumulator), steps[k]? = some step → ∃ step', steps'[k]? = some step' ∧ Continues step step'

theorem Grown.trans (h : Grown steps steps') (h' : Grown steps' steps'') : Grown steps steps'' := by
  intro k step hk
  obtain ⟨step', hk', hstep⟩ := h k step hk
  obtain ⟨step'', hk'', hstep'⟩ := h' k step' hk'
  exact ⟨step'', hk'', hstep'.same.trans hstep.same, hstep.events.trans hstep'.events⟩

theorem Grown.append (added : List StepAccumulator) : Grown steps (steps ++ added) := by
  intro k step hk
  obtain ⟨hlt, -⟩ := List.getElem?_eq_some_iff.mp hk
  exact ⟨step, by rw [List.getElem?_append_left hlt, hk], rfl, List.prefix_refl _⟩

theorem Grown.modify (i : Nat) (view : RuntimeEventView) :
    Grown steps (steps.modify i fun step => step.add text view) := by
  intro k step hk
  rw [List.getElem?_modify, hk]
  by_cases hi : i = k
  · refine ⟨step.add text view, by simp [hi], ?_, List.prefix_append _ _⟩
    rw [StepAccumulator.add]
    unfold StepAccumulator.note
    split <;> (try split) <;> rfl
  · exact ⟨step, by simp [hi], rfl, List.prefix_refl _⟩

theorem grown_place (s : Steps) (view : RuntimeEventView) : Grown s.steps (s.place text view).steps := by
  unfold Steps.place
  split
  · exact .modify _ view
  · split
    · exact .append _
    · split
      · next hempty =>
        rw [hempty]
        exact @Grown.append [] _
      · exact .modify _ view

/-- **A timeline grows** with its journal: every step stays where it is and of the same action, and later events
come behind those that it has. -/
theorem timeline_grows (text : Json → String) (events more : List RuntimeEventView) :
    Grown (timelineSteps text events) (timelineSteps text (events ++ more)) := by
  rw [timelineSteps, timelineSteps]
  induction more using List.reverseRecOn with
  | nil =>
    rw [List.append_nil]
    exact fun _ step hk => ⟨step, hk, rfl, List.prefix_refl _⟩
  | append_singleton more view ih =>
    rw [← List.append_assoc, List.foldl_append]
    exact ih.trans (grown_place _ view)

end Growth

/-! ## Where an event goes -/

/-- The event is a `DecisionGenerated` or an `ActionStarted` of the action. -/
def Starts (a : ActionId) (view : RuntimeEventView) : Prop :=
  view.type ∈ timelineStepTypes ∧ view.actionId = some a

instance (a : ActionId) (view : RuntimeEventView) : Decidable (Starts a view) := inferInstanceAs (Decidable (_ ∧ _))

/-- A step was opened under the event's action id. -/
def Routed (past : List RuntimeEventView) (view : RuntimeEventView) : Prop :=
  ∃ a ∈ view.actionId, ∃ x ∈ past, Starts a x

instance (past : List RuntimeEventView) (view : RuntimeEventView) : Decidable (Routed past view) :=
  decidable_of_iff (∃ a ∈ view.actionId.toList, ∃ x ∈ past, Starts a x) (by simp [Routed])

/-- The event opens a step. -/
def Opens (past : List RuntimeEventView) (view : RuntimeEventView) : Prop :=
  past = [] ∨ view.type ∈ timelineStepTypes ∧ ¬Routed past view

instance (past : List RuntimeEventView) (view : RuntimeEventView) : Decidable (Opens past view) :=
  inferInstanceAs (Decidable (_ ∨ _))

/-- How many steps are opened after others. -/
def opened (past : List RuntimeEventView) : List RuntimeEventView → Nat
  | [] => 0
  | view :: rest => (if Opens past view then 1 else 0) + opened (past ++ [view]) rest

/-- The place of the step that the first start of an action opens. -/
def firstStart (a : ActionId) (past : List RuntimeEventView) : List RuntimeEventView → Option Nat
  | [] => none
  | view :: rest => if Starts a view then some (opened [] past) else firstStart a (past ++ [view]) rest

/-- The place of the step that an event goes to. -/
def slot (past : List RuntimeEventView) (view : RuntimeEventView) : Nat :=
  (view.actionId.bind fun a => firstStart a [] past).getD (opened [] (past ++ [view]) - 1)

def slots (past : List RuntimeEventView) : List RuntimeEventView → List Nat
  | [] => []
  | view :: rest => slot past view :: slots (past ++ [view]) rest

section Places

variable {a : ActionId} {past rest more : List RuntimeEventView} {view : RuntimeEventView} {k : Nat}

theorem opened_append : opened past (rest ++ more) = opened past rest + opened (past ++ rest) more := by
  induction rest generalizing past with
  | nil => rw [List.nil_append, opened, List.append_nil, Nat.zero_add]
  | cons view rest ih =>
    rw [List.cons_append, opened, opened, ih, Nat.add_assoc, List.append_assoc, List.singleton_append]

theorem opened_singleton : opened past [view] = if Opens past view then 1 else 0 := rfl

/-- The first event opens a step. -/
theorem opened_pos (h : past ≠ []) : 0 < opened [] past := by
  cases past with
  | nil => exact absurd rfl h
  | cons view rest =>
    rw [opened, if_pos (.inl rfl)]
    omega

theorem firstStart_eq_none : firstStart a past rest = none ↔ ∀ x ∈ rest, ¬Starts a x := by
  induction rest generalizing past with
  | nil => simp [firstStart]
  | cons view rest ih =>
    rw [firstStart, List.forall_mem_cons]
    by_cases h : Starts a view
    · simp [h]
    · simp [h, ih]

theorem firstStart_append (h : ∀ x ∈ rest, ¬Starts a x) :
    firstStart a past (rest ++ more) = firstStart a (past ++ rest) more := by
  induction rest generalizing past with
  | nil => rw [List.nil_append, List.append_nil]
  | cons view rest ih =>
    rw [List.forall_mem_cons] at h
    rw [List.cons_append, firstStart, if_neg h.1, ih h.2, List.append_assoc, List.singleton_append]

theorem firstStart_of_some (h : firstStart a past rest = some k) : firstStart a past (rest ++ more) = some k := by
  induction rest generalizing past with
  | nil => cases h
  | cons view rest ih =>
    rw [firstStart] at h
    rw [List.cons_append, firstStart]
    by_cases hs : Starts a view
    · rw [if_pos hs] at h ⊢
      exact h
    · rw [if_neg hs] at h ⊢
      exact ih h

/-- The first start of an action. -/
theorem exists_first (h : ∃ x ∈ rest, Starts a x) : ∃ before x after, rest = before ++ x :: after ∧ Starts a x ∧
    ∀ y ∈ before, ¬Starts a y := by
  induction rest with
  | nil => simp at h
  | cons view rest ih =>
    by_cases hs : Starts a view
    · exact ⟨[], view, rest, rfl, hs, nofun⟩
    · have htail : ∃ x ∈ rest, Starts a x := by
        obtain ⟨x, hx, hxs⟩ := h
        rcases List.mem_cons.mp hx with rfl | hx
        · exact absurd hxs hs
        · exact ⟨x, hx, hxs⟩
      obtain ⟨before, x, after, rfl, hx, hbefore⟩ := ih htail
      exact ⟨view :: before, x, after, rfl, hx, List.forall_mem_cons.mpr ⟨hs, hbefore⟩⟩

/-- The first start of an action opens a step. -/
theorem opens_of_first (hs : Starts a view) (h : ∀ x ∈ past, ¬Starts a x) : Opens past view := by
  refine .inr ⟨hs.1, ?_⟩
  rintro ⟨a', ha', x, hx, hxs⟩
  rw [hs.2, Option.mem_some_iff] at ha'
  exact h x hx (ha' ▸ hxs)

theorem firstStart_snoc : firstStart a [] (past ++ [view]) =
    (firstStart a [] past).or (if Starts a view then some (opened [] past) else none) := by
  cases h : firstStart a [] past with
  | some k => rw [firstStart_of_some h, Option.some_or]
  | none => rw [firstStart_append (firstStart_eq_none.mp h), List.nil_append, Option.none_or]; rfl

theorem firstStart_lt (h : firstStart a [] past = some k) : k < opened [] past := by
  have hex : ∃ x ∈ past, Starts a x := by
    by_contra hnone
    push Not at hnone
    rw [firstStart_eq_none.mpr hnone] at h
    cases h
  obtain ⟨before, x, after, rfl, hx, hbefore⟩ := exists_first hex
  rw [firstStart_append hbefore, List.nil_append, firstStart, if_pos hx, Option.some_inj] at h
  rw [opened_append, List.nil_append, opened, if_pos (opens_of_first hx hbefore), h]
  omega

theorem not_routed_of_opens (h : Opens past view) : ¬Routed past view := by
  rcases h with rfl | h
  · rintro ⟨a, -, x, hx, -⟩
    cases hx
  · exact h.2

theorem slot_of_unrouted (h : ¬Routed past view) : slot past view = opened [] (past ++ [view]) - 1 := by
  rw [slot]
  cases ha : view.actionId with
  | none => rfl
  | some a =>
    have hnone : firstStart a [] past = none := firstStart_eq_none.mpr fun x hx hs => h ⟨a, ha, x, hx, hs⟩
    rw [Option.bind_some, hnone]
    rfl

/-- An event that comes after the start of its action goes where that went. -/
theorem slot_of_routed (ha : view.actionId = some a) (h : firstStart a [] past = some k) : slot past view = k := by
  rw [slot, ha, Option.bind_some, h]
  rfl

theorem slots_append : slots past (rest ++ [view]) = slots past rest ++ [slot (past ++ rest) view] := by
  induction rest generalizing past with
  | nil => rw [List.append_nil]; rfl
  | cons x rest ih =>
    rw [List.cons_append, slots, ih, slots, List.append_assoc, List.singleton_append, List.cons_append]

theorem length_slots : (slots past rest).length = rest.length := by
  induction rest generalizing past with
  | nil => rfl
  | cons view rest ih => rw [slots, List.length_cons, ih, List.length_cons]

/-- The events that go to a step, in their order. -/
def eventsAt (k : Nat) (past rest : List RuntimeEventView) : List RuntimeEventView :=
  ((rest.zip (slots past rest)).filter fun p => p.2 = k).map Prod.fst

theorem eventsAt_append : eventsAt k past (rest ++ [view]) =
    eventsAt k past rest ++ if slot (past ++ rest) view = k then [view] else [] := by
  rw [eventsAt, slots_append, List.zip_append length_slots.symm, List.filter_append, List.map_append, ← eventsAt]
  congr 1
  by_cases h : slot (past ++ rest) view = k <;> simp [h]

theorem mem_eventsAt : view ∈ eventsAt k past rest ↔
    ∃ before after, rest = before ++ view :: after ∧ slot (past ++ before) view = k := by
  induction rest generalizing past with
  | nil => simp [eventsAt]
  | cons x rest ih =>
    have hcons : view ∈ eventsAt k past (x :: rest) ↔
        (slot past x = k ∧ view = x) ∨ view ∈ eventsAt k (past ++ [x]) rest := by
      rw [eventsAt, slots, List.zip_cons_cons, List.filter_cons, eventsAt]
      by_cases h : slot past x = k <;> simp [h]
    rw [hcons, ih]
    constructor
    · rintro (⟨hk, rfl⟩ | ⟨before, after, rfl, hk⟩)
      · exact ⟨[], rest, rfl, by rwa [List.append_nil]⟩
      · exact ⟨x :: before, after, rfl, by rwa [List.append_assoc] at hk⟩
    · rintro ⟨before, after, he, hk⟩
      cases before with
      | nil =>
        obtain ⟨rfl, rfl⟩ := List.cons.inj he
        exact .inl ⟨by rwa [List.append_nil] at hk, rfl⟩
      | cons y before =>
        obtain ⟨rfl, rfl⟩ := List.cons.inj he
        exact .inr ⟨before, after, rfl, by rwa [List.append_assoc]⟩

/-- An event goes to a step that is opened by then. -/
theorem slot_lt : slot past view < opened [] (past ++ [view]) := by
  by_cases h : Routed past view
  · obtain ⟨a, ha, x, hx, hs⟩ := h
    cases hk : firstStart a [] past with
    | none => exact absurd hs (firstStart_eq_none.mp hk x hx)
    | some k =>
      rw [slot_of_routed ha hk, opened_append]
      exact Nat.lt_add_right _ (firstStart_lt hk)
  · rw [slot_of_unrouted h]
    have hpos := @opened_pos (past ++ [view]) (by simp)
    omega

theorem eventsAt_beyond (h : opened [] past ≤ k) : eventsAt k [] past = [] := by
  rw [List.eq_nil_iff_forall_not_mem]
  intro view hview
  obtain ⟨before, after, rfl, rfl⟩ := mem_eventsAt.mp hview
  have hlt := @slot_lt before view
  rw [List.nil_append, show before ++ view :: after = (before ++ [view]) ++ after by simp, opened_append] at h
  omega

end Places

/-! ## The run -/

structure Built (text : Json → String) (past : List RuntimeEventView) (s : Steps) : Prop where
  length : s.steps.length = opened [] past
  registered : ∀ a, s.byAction.lookup a = firstStart a [] past
  events : ∀ k (hk : k < s.steps.length), s.steps[k].events = eventsAt k [] past
  opener : ∀ k (hk : k < s.steps.length), ∃ before view after, past = before ++ view :: after ∧
    Opens before view ∧ opened [] before = k ∧ s.steps[k].actionId = view.actionId
  shown : ∀ k (hk : k < s.steps.length), ∃ view : RuntimeEventView, s.steps[k] = s.steps[k].events.foldl (StepAccumulator.add text)
    { goalId := view.goalId, taskId := view.taskId, actionId := view.actionId }

section Run

variable {text : Json → String} {past : List RuntimeEventView} {s : Steps} {view : RuntimeEventView}

theorem events_add (step : StepAccumulator) : (step.add text view).events = step.events ++ [view] := rfl

theorem actionId_add (step : StepAccumulator) : (step.add text view).actionId = step.actionId := by
  rw [StepAccumulator.add]
  unfold StepAccumulator.note
  split <;> (try split) <;> rfl

/-- A step is opened. -/
theorem Built.append (h : Built text past s) (hopens : Opens past view) {byAction : List (ActionId × Nat)}
    (hregistered : ∀ a, byAction.lookup a = firstStart a [] (past ++ [view])) :
    Built text (past ++ [view]) ⟨s.steps ++ [.new text view], byAction⟩ := by
  have hslot : slot past view = s.steps.length := by
    rw [slot_of_unrouted (not_routed_of_opens hopens), opened_append, List.nil_append, opened_singleton,
      if_pos hopens, h.length, Nat.add_sub_cancel]
  constructor
  · rw [List.length_append, List.length_singleton, h.length, opened_append, List.nil_append, opened_singleton,
      if_pos hopens]
  · exact hregistered
  · intro k hk
    rw [eventsAt_append, List.nil_append, hslot]
    rcases Nat.lt_or_eq_of_le (Nat.le_of_lt_succ (by simpa using hk)) with hlt | rfl
    · rw [List.getElem_append_left hlt, h.events k hlt, if_neg (Nat.ne_of_gt hlt), List.append_nil]
    · rw [List.getElem_concat_length rfl, if_pos rfl, eventsAt_beyond (Nat.le_of_eq h.length.symm)]
      rfl
  · intro k hk
    rcases Nat.lt_or_eq_of_le (Nat.le_of_lt_succ (by simpa using hk)) with hlt | rfl
    · obtain ⟨before, x, after, rfl, hx, hbefore, hid⟩ := h.opener k hlt
      exact ⟨before, x, after ++ [view], by simp, hx, hbefore, by rw [List.getElem_append_left hlt, hid]⟩
    · refine ⟨past, view, [], rfl, hopens, h.length.symm, ?_⟩
      rw [List.getElem_concat_length rfl]
      exact actionId_add _
  · intro k hk
    rcases Nat.lt_or_eq_of_le (Nat.le_of_lt_succ (by simpa using hk)) with hlt | rfl
    · rw [List.getElem_append_left hlt]
      exact h.shown k hlt
    · rw [List.getElem_concat_length rfl]
      exact ⟨view, rfl⟩

/-- An event goes to a step that there is. -/
theorem Built.modify (h : Built text past s) (hopens : ¬Opens past view)
    (hregistered : ∀ a, s.byAction.lookup a = firstStart a [] (past ++ [view])) :
    Built text (past ++ [view])
      { s with steps := s.steps.modify (slot past view) fun step => step.add text view } := by
  constructor
  · rw [List.length_modify, h.length, opened_append, List.nil_append, opened_singleton, if_neg hopens, Nat.add_zero]
  · exact hregistered
  · intro k hk
    have hk' : k < s.steps.length := by simpa using hk
    rw [eventsAt_append, List.nil_append, List.getElem_modify, ← h.events k hk']
    split
    · rfl
    · exact (List.append_nil _).symm
  · intro k hk
    have hk' : k < s.steps.length := by simpa using hk
    obtain ⟨before, x, after, rfl, hx, hbefore, hid⟩ := h.opener k hk'
    refine ⟨before, x, after ++ [view], by simp, hx, hbefore, ?_⟩
    rw [List.getElem_modify]
    split
    · rw [actionId_add, hid]
    · exact hid
  · intro k hk
    have hk' : k < s.steps.length := by simpa using hk
    obtain ⟨x, hx⟩ := h.shown k hk'
    refine ⟨x, ?_⟩
    rw [List.getElem_modify]
    split
    · rw [events_add, List.foldl_append, ← hx]
      rfl
    · exact hx

theorem Built.place (h : Built text past s) (view : RuntimeEventView) :
    Built text (past ++ [view]) (s.place text view) := by
  have hbind : (view.actionId.bind fun a => s.byAction.lookup a) =
      view.actionId.bind fun a => firstStart a [] past := by
    cases view.actionId with
    | none => rfl
    | some a => exact h.registered a
  have hnil : past = [] ↔ s.steps = [] := by
    rw [← List.length_eq_zero_iff (l := s.steps), h.length]
    constructor
    · rintro rfl
      rfl
    · intro hzero
      by_contra hne
      exact absurd (opened_pos hne) (by omega)
  unfold Steps.place
  split
  · next i hi =>
    rw [hbind] at hi
    obtain ⟨a, ha, hfirst⟩ := Option.bind_eq_some_iff.mp hi
    have hrouted : Routed past view := by
      by_contra hnot
      have hnone : firstStart a [] past = none := firstStart_eq_none.mpr fun x hx hs => hnot ⟨a, ha, x, hx, hs⟩
      rw [hnone] at hfirst
      cases hfirst
    have hopens : ¬Opens past view := fun hopens => not_routed_of_opens hopens hrouted
    rw [← slot_of_routed ha hfirst]
    refine h.modify hopens fun a' => ?_
    rw [h.registered, firstStart_snoc]
    by_cases hs : Starts a' view
    · have hsame : a' = a := Option.some.inj (hs.2.symm.trans ha)
      rw [hsame, hfirst, Option.some_or]
    · rw [if_neg hs, Option.or_none]
  · next hnone =>
    rw [hbind] at hnone
    have hfirst : ∀ a, view.actionId = some a → firstStart a [] past = none := fun a ha => by
      rw [ha] at hnone
      exact hnone
    have hunrouted : ¬Routed past view := by
      rintro ⟨a, ha, x, hx, hs⟩
      exact firstStart_eq_none.mp (hfirst a ha) x hx hs
    have hkept : view.type ∉ timelineStepTypes → ∀ a, s.byAction.lookup a = firstStart a [] (past ++ [view]) := by
      intro htype a
      rw [h.registered, firstStart_snoc, if_neg fun hs => htype hs.1, Option.or_none]
    split
    · next htype =>
      refine h.append (.inr ⟨htype, hunrouted⟩) fun a => ?_
      rw [firstStart_snoc, ← h.registered, ← h.length]
      cases ha : view.actionId with
      | none =>
        have hs : ¬Starts a view := fun hs => by
          have he := hs.2
          rw [ha] at he
          cases he
        rw [if_neg hs, Option.or_none]
      | some a' =>
        dsimp only
        rw [List.lookup_cons]
        by_cases he : a = a'
        · have hs : Starts a view := ⟨htype, he ▸ ha⟩
          have hnew : s.byAction.lookup a = none := (h.registered a).trans (hfirst a (he ▸ ha))
          rw [if_pos hs, hnew, Option.none_or, he, beq_self_eq_true]
        · have hs : ¬Starts a view := fun hs => he (Option.some.inj (hs.2.symm.trans ha))
          rw [if_neg hs, Option.or_none, beq_false_of_ne he]
    · next htype =>
      split
      · next hempty =>
        have happend := h.append (.inl (hnil.mpr hempty)) (hkept htype)
        rw [hempty] at happend
        exact happend
      · next hne =>
        have hopens : ¬Opens past view := by
          rintro (hpast | hstep)
          · exact hne (hnil.mp hpast)
          · exact htype hstep.1
        have hslot : slot past view = s.steps.length - 1 := by
          rw [slot_of_unrouted hunrouted, opened_append, List.nil_append, opened_singleton, if_neg hopens, h.length,
            Nat.add_zero]
        rw [← hslot]
        exact h.modify hopens (hkept htype)

/-- The steps of a timeline. -/
theorem built (text : Json → String) (events : List RuntimeEventView) :
    Built text events (events.foldl (Steps.place text) ⟨[], []⟩) := by
  induction events using List.reverseRecOn with
  | nil => exact ⟨rfl, fun _ => rfl, nofun, nofun, nofun⟩
  | append_singleton past view ih =>
    rw [List.foldl_append]
    exact ih.place view

end Run

/-! ## Correlation -/

/-- The event makes its step show a policy effect, an observation or evidence. -/
def Shows (view : RuntimeEventView) : Prop :=
  view.type = "ObservationReceived" ∧ (view.data.lookup "observation_id").isSome = true ∨
    view.type = "EvidenceRecorded" ∧ (view.data.lookup "evidence_id").isSome = true ∨
    view.type = "PolicyChecked" ∧ (view.data.lookup "effect").isSome = true

instance (view : RuntimeEventView) : Decidable (Shows view) := inferInstanceAs (Decidable (_ ∨ _))

/-- The step has an event of the action. -/
def Has (step : StepAccumulator) (a : ActionId) : Prop := ∃ view ∈ step.events, view.actionId = some a

/-- Every event is in one step, in order; the events of an action are in one step, that of its start if that
opens one; and what a step shows comes from its events, those of its own action if it has one. -/
structure Correlates (text : Json → String) (events : List RuntimeEventView) (steps : List StepAccumulator) :
    Prop where
  conserved : ∃ places : List Nat, places.length = events.length ∧ (∀ k ∈ places, k < steps.length) ∧
    ∀ k (hk : k < steps.length), steps[k].events = ((events.zip places).filter fun p => p.2 = k).map Prod.fst
  shown : ∀ k (hk : k < steps.length), ∃ view : RuntimeEventView, steps[k] = steps[k].events.foldl (StepAccumulator.add text)
    { goalId := view.goalId, taskId := view.taskId, actionId := view.actionId }
  together : ∀ a i j (hi : i < steps.length) (hj : j < steps.length), Has steps[i] a → Has steps[j] a → i = j
  own : ∀ k (hk : k < steps.length), ∀ a ∈ steps[k].actionId, ∀ view ∈ steps[k].events, Shows view →
    view.actionId = some a

/-- No step is opened from an event of an action to a later one that no start of the action comes before; and
nothing to be shown comes without a started action while the last step is another action's. -/
structure Correlatable (events : List RuntimeEventView) : Prop where
  unbroken : ∀ a before x mid view after, events = before ++ x :: (mid ++ view :: after) →
    x.actionId = some a → view.actionId = some a → (∀ y ∈ before ++ x :: mid, ¬Starts a y) →
      opened (before ++ [x]) (mid ++ [view]) = 0
  own : ∀ before x mid view after, events = before ++ x :: (mid ++ view :: after) → Opens before x →
    opened (before ++ [x]) mid = 0 → Shows view → ¬Routed (before ++ x :: mid) view →
      ∀ a ∈ x.actionId, view.actionId = some a

section Correlation

variable {text : Json → String} {events before after mid : List RuntimeEventView} {x view : RuntimeEventView}
  {a : ActionId}

theorem append_cons_append (before mid : List RuntimeEventView) (x : RuntimeEventView) :
    before ++ x :: mid = (before ++ [x]) ++ mid := by simp

/-- Two events of an action go to one step exactly if no step is opened up to the second, or the action has
started before. -/
theorem slot_eq_iff (hx : x.actionId = some a) (hview : view.actionId = some a)
    (hstarts : ∀ y ∈ before ++ x :: mid, ¬Starts a y) :
    slot before x = slot (before ++ x :: mid) view ↔ opened (before ++ [x]) (mid ++ [view]) = 0 := by
  have hunrouted : ∀ (past : List RuntimeEventView) (e : RuntimeEventView), e.actionId = some a →
      (∀ y ∈ past, ¬Starts a y) → ¬Routed past e := by
    rintro past e he hpast ⟨a', ha', y, hy, hs⟩
    rw [he, Option.mem_some_iff] at ha'
    exact hpast y hy (ha' ▸ hs)
  have hbefore : ∀ y ∈ before, ¬Starts a y := fun y hy => hstarts y (List.mem_append_left _ hy)
  rw [slot_of_unrouted (hunrouted _ _ hx hbefore), slot_of_unrouted (hunrouted _ _ hview hstarts),
    append_cons_append before mid, List.append_assoc _ mid, @opened_append [] (before ++ [x]), List.nil_append]
  have hpos := @opened_pos (before ++ [x]) (by simp)
  omega

/-- From the first start of an action on, its events go to the step of that start. -/
theorem slot_of_first {f : RuntimeEventView} (hf : Starts a f) (hbefore : ∀ y ∈ before, ¬Starts a y)
    (hview : view.actionId = some a) : slot (before ++ f :: mid) view = slot before f := by
  have hfirst : firstStart a [] (before ++ f :: mid) = some (opened [] before) := by
    rw [firstStart_append hbefore, List.nil_append, firstStart, if_pos hf]
  rw [slot_of_routed hview hfirst, slot_of_unrouted (not_routed_of_opens (opens_of_first hf hbefore)),
    opened_append, List.nil_append, opened_singleton, if_pos (opens_of_first hf hbefore), Nat.add_sub_cancel]

/-- Where no step is opened in between, two events of an action go to one step. -/
theorem Correlatable.slot_eq (h : Correlatable events) (he : events = before ++ x :: (mid ++ view :: after))
    (hx : x.actionId = some a) (hview : view.actionId = some a) :
    slot before x = slot (before ++ x :: mid) view := by
  by_cases hstarts : ∃ y ∈ before ++ x :: mid, Starts a y
  · obtain ⟨b, f, m, hbf, hf, hb⟩ := exists_first hstarts
    rw [hbf, slot_of_first hf hb hview]
    rcases split_cases hbf with ⟨rfl, rfl, -⟩ | ⟨as, rfl, rfl⟩ | ⟨as, rfl, -⟩
    · rfl
    · -- The start comes behind `x`: it would open a step between the two.
      have hzero := h.unbroken a before x as f (m ++ view :: after) (by rw [he]; simp) hx hf.2 hb
      rw [opened_append, opened_singleton, ← append_cons_append, if_pos (opens_of_first hf hb)] at hzero
      omega
    · exact slot_of_first hf hb hx
  · push Not at hstarts
    exact (slot_eq_iff hx hview hstarts).mpr (h.unbroken a before x mid view after he hx hview hstarts)

/-- A step has one opener. -/
theorem opener_unique {b b' m m' : List RuntimeEventView} {e e' : RuntimeEventView}
    (h : b ++ e :: m = b' ++ e' :: m') (he : Opens b e) (he' : Opens b' e') (hk : opened [] b = opened [] b') :
    e = e' := by
  rcases split_cases h with ⟨-, rfl, -⟩ | ⟨as, rfl, -⟩ | ⟨as, rfl, -⟩
  · rfl
  · rw [opened_append, List.nil_append, opened, if_pos he] at hk
    omega
  · rw [opened_append, List.nil_append, opened, if_pos he'] at hk
    omega

/-- An event that is shown opens no step, once there is one. -/
theorem slot_of_last (hx : Opens before x) (hzero : opened (before ++ [x]) mid = 0) (hshows : Shows view)
    (hrouted : ¬Routed (before ++ x :: mid) view) : slot (before ++ x :: mid) view = opened [] before := by
  have hopens : ¬Opens (before ++ x :: mid) view := by
    rintro (hnil | ⟨htype, -⟩)
    · simp at hnil
    · rcases hshows with ⟨ht, -⟩ | ⟨ht, -⟩ | ⟨ht, -⟩ <;> rw [ht] at htype <;> revert htype <;> decide
  rw [slot_of_unrouted hrouted, opened_append, opened_append, List.nil_append, opened, if_pos hx, hzero,
    opened_singleton, List.nil_append, if_neg hopens, Nat.add_zero, Nat.add_zero, Nat.add_sub_cancel]

/-- The last step that was opened. -/
theorem exists_last (h : events ≠ []) : ∃ before x mid, events = before ++ x :: mid ∧ Opens before x ∧
    opened (before ++ [x]) mid = 0 := by
  induction events using List.reverseRecOn with
  | nil => exact absurd rfl h
  | append_singleton past view ih =>
    by_cases hopens : Opens past view
    · exact ⟨past, view, [], rfl, hopens, rfl⟩
    · have hne : past ≠ [] := fun hnil => hopens (.inl hnil)
      obtain ⟨before, x, mid, rfl, hx, hzero⟩ := ih hne
      refine ⟨before, x, mid ++ [view], by simp, hx, ?_⟩
      rw [opened_append, hzero, ← append_cons_append, opened_singleton, if_neg hopens]

section Placed

variable {s : Steps} (h : Built text events s)

include h

theorem Built.lt_length (he : events = before ++ view :: after) : slot before view < s.steps.length := by
  rw [h.length, he, append_cons_append, opened_append]
  exact Nat.lt_add_right _ slot_lt

theorem Built.mem_events {k : Nat} (hk : k < s.steps.length) : view ∈ s.steps[k].events ↔
    ∃ before after, events = before ++ view :: after ∧ slot before view = k := by
  rw [h.events k hk]
  exact mem_eventsAt

/-- A step is of its opener's action. -/
theorem Built.actionId_eq (he : events = before ++ x :: after) (hx : Opens before x)
    (hk : opened [] before < s.steps.length) : s.steps[opened [] before].actionId = x.actionId := by
  obtain ⟨b, e, m, hbe, heo, hcount, hid⟩ := h.opener _ hk
  rw [hid, opener_unique (hbe.symm.trans he) heo hx hcount]

theorem Built.conserved : ∃ places : List Nat, places.length = events.length ∧ (∀ k ∈ places, k < s.steps.length) ∧
    ∀ k (hk : k < s.steps.length), s.steps[k].events = ((events.zip places).filter fun p => p.2 = k).map Prod.fst := by
  refine ⟨slots [] events, length_slots, fun k hk => ?_, h.events⟩
  obtain ⟨i, hi, rfl⟩ := List.getElem_of_mem hk
  have hi' : i < events.length := by rwa [length_slots] at hi
  have hmem : events[i] ∈ eventsAt (slots [] events)[i] [] events := by
    rw [eventsAt, List.mem_map]
    refine ⟨(events[i], (slots [] events)[i]), List.mem_filter.mpr ⟨?_, by simp⟩, rfl⟩
    rw [List.mem_iff_getElem]
    exact ⟨i, by simp [hi, hi'], by simp⟩
  obtain ⟨before, after, he, hslot⟩ := mem_eventsAt.mp hmem
  rw [← hslot, List.nil_append]
  exact h.lt_length he

theorem Built.together (hc : Correlatable events) : ∀ a i j (hi : i < s.steps.length) (hj : j < s.steps.length),
    Has s.steps[i] a → Has s.steps[j] a → i = j := by
  rintro a i j hi hj ⟨x, hx, hxa⟩ ⟨y, hy, hya⟩
  obtain ⟨b, m, he, rfl⟩ := (h.mem_events hi).mp hx
  obtain ⟨b', m', he', rfl⟩ := (h.mem_events hj).mp hy
  rcases split_cases (he.symm.trans he') with ⟨rfl, rfl, -⟩ | ⟨as, rfl, rfl⟩ | ⟨as, rfl, rfl⟩
  · rfl
  · exact hc.slot_eq he hxa hya
  · exact (hc.slot_eq he' hya hxa).symm

theorem Built.own (hc : Correlatable events) : ∀ k (hk : k < s.steps.length), ∀ a ∈ s.steps[k].actionId,
    ∀ view ∈ s.steps[k].events, Shows view → view.actionId = some a := by
  intro k hk a ha view hview hshows
  obtain ⟨past, after, he, rfl⟩ := (h.mem_events hk).mp hview
  by_cases hrouted : Routed past view
  · obtain ⟨a', ha', hstarts⟩ := hrouted
    obtain ⟨b, f, m, rfl, hf, hb⟩ := exists_first hstarts
    have hopens := opens_of_first hf hb
    have hslot : slot (b ++ f :: m) view = opened [] b := by
      rw [slot_of_first hf hb ha', slot_of_unrouted (not_routed_of_opens hopens), opened_append, List.nil_append,
        opened_singleton, if_pos hopens, Nat.add_sub_cancel]
    simp only [hslot] at ha hk
    rw [h.actionId_eq (he.trans (List.append_assoc _ _ _)) hopens hk, hf.2, Option.mem_some_iff] at ha
    exact ha ▸ ha'
  · by_cases hpast : past = []
    · subst hpast
      have hslot : slot [] view = opened [] [] := by
        rw [slot_of_unrouted hrouted, List.nil_append, opened_singleton, if_pos (.inl rfl)]
        rfl
      simp only [hslot] at ha hk
      rw [h.actionId_eq he (.inl rfl) hk] at ha
      exact ha
    · obtain ⟨before, x, mid, rfl, hx, hzero⟩ := exists_last hpast
      have hslot := slot_of_last hx hzero hshows hrouted
      simp only [hslot] at ha hk
      have he' : events = before ++ x :: (mid ++ view :: after) := by rw [he]; simp
      rw [h.actionId_eq he' hx hk] at ha
      exact hc.own before x mid view after he' hx hzero hshows hrouted a ha

end Placed

/-- **Timelines** keep every event once and in order, and correlate the events of actions if and only if no step
is opened between an action's events before its start, and nothing of an action without a step is shown
in another action's. -/
theorem timeline_correlates_iff (text : Json → String) (events : List RuntimeEventView) :
    Correlates text events (timelineSteps text events) ↔ Correlatable events := by
  have h := built text events
  constructor
  · intro hc
    constructor
    · intro a before x mid view after he hx hview hstarts
      have he' : events = (before ++ x :: mid) ++ view :: after := by rw [he]; simp
      refine (slot_eq_iff hx hview hstarts).mp ?_
      have hk := h.lt_length he
      have hk' := h.lt_length he'
      exact hc.together a _ _ hk hk' ⟨x, (h.mem_events hk).mpr ⟨before, _, he, rfl⟩, hx⟩
        ⟨view, (h.mem_events hk').mpr ⟨_, after, he', rfl⟩, hview⟩
    · intro before x mid view after he hx hzero hshows hrouted a ha
      have he' : events = (before ++ x :: mid) ++ view :: after := by rw [he]; simp
      have hk : opened [] before < (events.foldl (Steps.place text) ⟨[], []⟩).steps.length := by
        rw [← slot_of_last hx hzero hshows hrouted]
        exact h.lt_length he'
      refine hc.own _ hk a ?_ view ?_ hshows
      · exact (h.actionId_eq he hx hk).symm ▸ ha
      · exact (h.mem_events hk).mpr ⟨_, after, he', slot_of_last hx hzero hshows hrouted⟩
  · intro hc
    exact ⟨h.conserved, h.shown, h.together hc, h.own hc⟩

/-- An event of the action `a1`. -/
def actionEvent (type : String) : RuntimeEventView := ⟨type, type, "goal-1", "task-1", some "a1", []⟩

/-- A decision, and the policy check and the start of the action it leads to, as the runtime emits them. -/
def checkedAction : List RuntimeEventView :=
  [⟨"decision", "DecisionGenerated", "goal-1", "task-1", none, []⟩, actionEvent "PolicyChecked",
    actionEvent "ActionStarted"]

/-- The policy check is in the decision's step, and the action has a step of its own. -/
theorem check_left_behind :
    ¬Correlates (fun _ => "") checkedAction (timelineSteps (fun _ => "") checkedAction) := by
  intro h
  have hsteps : timelineSteps (fun _ => "") checkedAction =
      [(checkedAction.take 2).foldl (.add fun _ => "") ⟨"goal-1", "task-1", none, none, [], none, none, []⟩,
        .new (fun _ => "") (actionEvent "ActionStarted")] := rfl
  rw [hsteps] at h
  have hcheck : actionEvent "PolicyChecked" ∈ checkedAction.take 2 := List.mem_cons_of_mem _ List.mem_cons_self
  have hstart : actionEvent "ActionStarted" ∈ [actionEvent "ActionStarted"] := List.mem_cons_self
  exact absurd (h.together "a1" 0 1 (by simp) (by simp) ⟨_, hcheck, rfl⟩ ⟨_, hstart, rfl⟩) (by decide)

end Correlation

end UniversalAgent.Service.Timeline
