import UniversalAgent.Foundation.Machine
import UniversalAgent.Runtime.ReplayEngine

/-!
# Runtime — Replay isolation

What a replay does to the runtime it runs on (`_run_replay` of `runtime/replay.py`, `_decide` of
`runtime/agent.py`). For the time of its run the engine puts its adapter in the place of the model
and takes the decision engine and the router away; when the run ends it puts back what it found.
Between its awaits other sessions ask the same runtime for decisions, and other replays begin and end.

They are kept apart where no session asks for a decision while a replay is in progress, and replays
are nested.
-/

namespace UniversalAgent.Runtime

open UniversalAgent.Core UniversalAgent.Foundation

section Settings

variable {Model Engine Router : Type}

/-! ## The settings of the runtime -/

/-- What stands in `_model`: the model that the runtime was given, or the adapter of a replay. -/
inductive ModelInUse (Model : Type) where
  | configured (model : Model)
  | replaying (number : Nat)
deriving DecidableEq

/-- The attributes that `_decide` reads. -/
structure DecisionSettings (Model Engine Router : Type) where
  model : ModelInUse Model
  decisionEngine : Option Engine
  modelRouter : Option Router
deriving DecidableEq

inductive Provider (Model Engine Router : Type) where
  | engine (engine : Engine)
  | router (router : Router)
  | model (model : ModelInUse Model)
deriving DecidableEq

/-- The branches of `_decide`. Which is taken is settled before the first await. -/
def DecisionSettings.provider (s : DecisionSettings Model Engine Router) :
    Provider Model Engine Router :=
  match s.decisionEngine with
  | some engine => .engine engine
  | none =>
    match s.modelRouter with
    | some router => .router router
    | none => .model s.model

def configured (model : Model) (engine : Option Engine) (router : Option Router) :
    DecisionSettings Model Engine Router :=
  ⟨.configured model, engine, router⟩

def replayingSettings (number : Nat) : DecisionSettings Model Engine Router :=
  ⟨.replaying number, none, none⟩

/-! ## Calls -/

/-- The variables of a call of `_run_replay`. -/
structure ReplayCall (Model Engine Router : Type) where
  adapter : SequentialReplayAdapter
  original : DecisionSettings Model Engine Router

/-- The runtime, the replays that were begun on it, by number, and those of them that are in progress,
the last one first. -/
structure ReplayedRuntime (Model Engine Router : Type) where
  settings : DecisionSettings Model Engine Router
  calls : List (ReplayCall Model Engine Router) := []
  inProgress : List Nat := []

/-- Who asks for a decision: a session that is run, resumed or continued, or the run of a replay. -/
inductive Caller where
  | session (sessionId : SessionId)
  | replay (number : Nat)
deriving DecidableEq

inductive ReplayInput where
  /-- `replay` is called for a session with that journal. -/
  | replay (events : List RuntimeEvent)
  /-- `_decide` is called; the answer is that of what the runtime was configured with, none being an
  exception. -/
  | decide (caller : Caller) (answer : Option Decision)
  /-- The run of a replay returns, raises, or is cancelled. -/
  | ended (number : Nat)

inductive ReplayOutput (Model Engine Router : Type) where
  | done
  | decided (provider : Provider Model Engine Router) (decision : Decision)
deriving DecidableEq

/-- A replay of that journal runs: decisions were recorded, and the goal was. -/
def replayRuns (events : List RuntimeEvent) : Bool :=
  !(extractDecisions events).isEmpty && events.any fun event => event.type = "GoalCreated"

namespace ReplayedRuntime

/-- `replay`, up to the first await of its run. A journal that is not replayed leaves the settings as
they are, or has them put back at once. -/
def begin (s : ReplayedRuntime Model Engine Router) (events : List RuntimeEvent) :
    ReplayedRuntime Model Engine Router :=
  if replayRuns events then
    { settings := replayingSettings s.calls.length
      calls := s.calls ++ [⟨{ decisions := extractDecisions events }, s.settings⟩]
      inProgress := s.calls.length :: s.inProgress }
  else s

/-- The caller is there: the run of a replay is while the replay is in progress. -/
def Present (s : ReplayedRuntime Model Engine Router) : Caller → Prop
  | .session _ => True
  | .replay number => number ∈ s.inProgress

instance (s : ReplayedRuntime Model Engine Router) (caller : Caller) :
    Decidable (s.Present caller) := by
  cases caller <;> unfold Present <;> infer_instance

/-- `_decide`. The adapter of a replay answers out of its own decisions, whoever asks. -/
def decide (s : ReplayedRuntime Model Engine Router) (answer : Option Decision) :
    ReplayOutput Model Engine Router × ReplayedRuntime Model Engine Router :=
  match s.settings.provider with
  | .model (.replaying number) =>
    match s.calls[number]? with
    | some call =>
      (.decided (.model (.replaying number)) call.adapter.decide.1,
        { s with calls := s.calls.set number { call with adapter := call.adapter.decide.2 } })
    | none => (.done, s)
  | provider =>
    match answer with
    | some decision => (.decided provider decision, s)
    | none => (.done, s)

/-- The `finally` of `_run_replay`. -/
def restore (s : ReplayedRuntime Model Engine Router) (number : Nat) :
    ReplayedRuntime Model Engine Router :=
  match s.calls[number]? with
  | some call => { s with settings := call.original, inProgress := s.inProgress.erase number }
  | none => s

def step (s : ReplayedRuntime Model Engine Router) :
    ReplayInput → ReplayOutput Model Engine Router × ReplayedRuntime Model Engine Router
  | .replay events => (.done, s.begin events)
  | .decide caller answer => if s.Present caller then s.decide answer else (.done, s)
  | .ended number => (.done, if number ∈ s.inProgress then s.restore number else s)

end ReplayedRuntime

/-- A runtime with these settings, and every interleaving of what is called on it. -/
def replayMachine (original : DecisionSettings Model Engine Router) :
    Machine (ReplayedRuntime Model Engine Router) ReplayInput
      (ReplayOutput Model Engine Router) where
  init := { settings := original }
  step := ReplayedRuntime.step

/-! ## Isolation -/

abbrev ReplayHistory (Model Engine Router : Type) :=
  List (ReplayInput × ReplayOutput Model Engine Router)

/-- The decision that the run of a replay is given, if it is given one. -/
def consumed? (number : Nat) :
    ReplayInput × ReplayOutput Model Engine Router → Option Decision
  | (.decide (.replay n) _, .decided _ decision) => if n = number then some decision else none
  | _ => none

def consumedBy (number : Nat) (h : ReplayHistory Model Engine Router) : List Decision :=
  h.filterMap (consumed? number)

/-- What an adapter gives a run that asks so often: the recorded decisions, in order and without gaps,
and its own last word from there on. -/
def givenDecisions (recorded : List Decision) (count : Nat) : List Decision :=
  recorded.take count ++ List.replicate (count - recorded.length) exhaustedDecision

structure Isolated (original : DecisionSettings Model Engine Router)
    (h : ReplayHistory Model Engine Router) (s : ReplayedRuntime Model Engine Router) : Prop where
  /-- A session's decision comes from what the runtime was configured with. -/
  sessions : ∀ sessionId answer provider decision,
    (.decide (.session sessionId) answer, .decided provider decision) ∈ h →
      provider = original.provider
  /-- A replay's decision comes from its own adapter. -/
  replays : ∀ number answer provider decision,
    (.decide (.replay number) answer, .decided provider decision) ∈ h →
      provider = .model (.replaying number)
  /-- What a replay has consumed is what its adapter gives it. -/
  consumes : ∀ number call, s.calls[number]? = some call →
    consumedBy number h =
      givenDecisions call.adapter.decisions (consumedBy number h).length
  /-- When all replays have ended the configuration is the original one. -/
  restored : s.inProgress = [] → s.settings = original

/-- Replays are nested, and sessions ask for decisions between them: the replay that began last is the
only one that asks for decisions, and the one that ends. -/
def Nested (_ : ReplayHistory Model Engine Router) (s : ReplayedRuntime Model Engine Router) :
    ReplayInput → Prop
  | .replay _ => True
  | .decide (.session _) _ => s.inProgress = []
  | .decide (.replay number) _ => number ∈ s.inProgress → s.inProgress.head? = some number
  | .ended number => number ∈ s.inProgress → s.inProgress.head? = some number

instance (h : ReplayHistory Model Engine Router) (s : ReplayedRuntime Model Engine Router)
    (input : ReplayInput) : Decidable (Nested h s input) := by
  cases input with
  | replay => exact .isTrue trivial
  | decide caller => cases caller <;> unfold Nested <;> infer_instance
  | ended => unfold Nested; infer_instance

/-! ## What an adapter has given -/

def AdapterGave (a : SequentialReplayAdapter) (ds : List Decision) : Prop :=
  ds = givenDecisions a.decisions ds.length ∧
    a.decisionsUsed = min ds.length a.decisions.length

theorem givenDecisions_succ (recorded : List Decision) (count : Nat) :
    givenDecisions recorded (count + 1) =
      givenDecisions recorded count ++ [(recorded[count]?).getD exhaustedDecision] := by
  unfold givenDecisions
  by_cases hlt : count < recorded.length
  · have hnow : count - recorded.length = 0 := by omega
    have hnext : count + 1 - recorded.length = 0 := by omega
    rw [hnow, hnext, List.take_add_one, List.getElem?_eq_getElem hlt]
    simp
  · have hle : recorded.length ≤ count := by omega
    have hnext : count + 1 - recorded.length = count - recorded.length + 1 := by omega
    rw [hnext, List.replicate_succ', List.take_of_length_le hle,
      List.take_of_length_le (Nat.le_succ_of_le hle), List.getElem?_eq_none hle,
      Option.getD_none, List.append_assoc]

theorem AdapterGave.nil (recorded : List Decision) : AdapterGave { decisions := recorded } [] := by
  constructor
  · simp [givenDecisions]
  · simp

theorem AdapterGave.decide {a : SequentialReplayAdapter} {ds : List Decision}
    (h : AdapterGave a ds) :
    a.decide.2.decisions = a.decisions ∧ AdapterGave a.decide.2 (ds ++ [a.decide.1]) := by
  obtain ⟨hds, hused⟩ := h
  by_cases hlt : ds.length < a.decisions.length
  · have hcount : a.decisionsUsed = ds.length := by omega
    have hdecide : a.decide = (a.decisions[ds.length], { a with decisionsUsed := ds.length + 1 }) := by
      rw [SequentialReplayAdapter.decide, hcount, List.getElem?_eq_getElem hlt]
    rw [hdecide]
    refine ⟨rfl, ?_, ?_⟩
    · rw [List.length_append, List.length_singleton, givenDecisions_succ, ← hds,
        List.getElem?_eq_getElem hlt, Option.getD_some]
    · rw [List.length_append, List.length_singleton]
      exact (Nat.min_eq_left hlt).symm
  · have hcount : a.decisionsUsed = a.decisions.length := by omega
    have hdecide : a.decide = (exhaustedDecision, a) := by
      rw [SequentialReplayAdapter.decide, hcount, List.getElem?_eq_none le_rfl]
    have hover : a.decisions.length ≤ ds.length := by omega
    rw [hdecide]
    refine ⟨rfl, ?_, ?_⟩
    · rw [List.length_append, List.length_singleton, givenDecisions_succ, ← hds,
        List.getElem?_eq_none hover, Option.getD_none]
    · rw [List.length_append, List.length_singleton]
      exact hcount.trans (Nat.min_eq_right (by omega)).symm

theorem consumedBy_snoc (number : Nat) (h : ReplayHistory Model Engine Router)
    (x : ReplayInput × ReplayOutput Model Engine Router) :
    consumedBy number (h ++ [x]) = consumedBy number h ++ (consumed? number x).toList := by
  rw [consumedBy, List.filterMap_append, consumedBy]
  cases hx : consumed? number x <;> simp [hx]

/-! ## The settings while replays are nested -/

def topSettings (original : DecisionSettings Model Engine Router) :
    List Nat → DecisionSettings Model Engine Router
  | [] => original
  | number :: _ => replayingSettings number

/-- Each replay in progress found the settings of those that began before it. -/
def Stacked (original : DecisionSettings Model Engine Router)
    (originals : List (DecisionSettings Model Engine Router)) : List Nat → Prop
  | [] => True
  | number :: rest =>
    originals[number]? = some (topSettings original rest) ∧ Stacked original originals rest

theorem Stacked.append {original : DecisionSettings Model Engine Router}
    {originals more : List (DecisionSettings Model Engine Router)} {numbers : List Nat}
    (h : Stacked original originals numbers) : Stacked original (originals ++ more) numbers := by
  induction numbers with
  | nil => trivial
  | cons number rest ih =>
    obtain ⟨hfound, hrest⟩ := h
    obtain ⟨hlt, -⟩ := List.getElem?_eq_some_iff.mp hfound
    exact ⟨by rw [List.getElem?_append_left hlt, hfound], ih hrest⟩

variable {original : DecisionSettings Model Engine Router}
variable {h : ReplayHistory Model Engine Router} {s : ReplayedRuntime Model Engine Router}

structure NestedReplays (original : DecisionSettings Model Engine Router)
    (h : ReplayHistory Model Engine Router) (s : ReplayedRuntime Model Engine Router) : Prop where
  settings : s.settings = topSettings original s.inProgress
  stacked : Stacked original (s.calls.map ReplayCall.original) s.inProgress
  sessions : ∀ sessionId answer provider decision,
    (.decide (.session sessionId) answer, .decided provider decision) ∈ h →
      provider = original.provider
  replays : ∀ number answer provider decision,
    (.decide (.replay number) answer, .decided provider decision) ∈ h →
      provider = .model (.replaying number)
  gave : ∀ number call, s.calls[number]? = some call →
    AdapterGave call.adapter (consumedBy number h)
  unbegun : ∀ number, s.calls.length ≤ number → consumedBy number h = []

theorem NestedReplays.isolated (hi : NestedReplays original h s) : Isolated original h s where
  sessions := hi.sessions
  replays := hi.replays
  consumes number call hcall := (hi.gave number call hcall).1
  restored hended := by rw [hi.settings, hended, topSettings]

theorem NestedReplays.passed (hi : NestedReplays original h s) {input : ReplayInput} :
    NestedReplays original (h ++ [(input, .done)]) s := by
  have hsame : ∀ number, consumedBy number (h ++ [(input, .done)]) = consumedBy number h := by
    intro number
    rw [consumedBy_snoc]
    cases input with
    | decide caller answer => cases caller <;> simp [consumed?]
    | _ => simp [consumed?]
  refine ⟨hi.settings, hi.stacked, ?_, ?_, ?_, ?_⟩
  · intro sessionId answer provider decision hmem
    exact hi.sessions _ _ _ _ (by simpa using hmem)
  · intro number answer provider decision hmem
    exact hi.replays _ _ _ _ (by simpa using hmem)
  · intro number call hcall
    rw [hsame]
    exact hi.gave number call hcall
  · intro number hle
    rw [hsame]
    exact hi.unbegun number hle

theorem NestedReplays.begin (hi : NestedReplays original h s) (events : List RuntimeEvent) :
    NestedReplays original h (s.begin events) := by
  unfold ReplayedRuntime.begin
  split_ifs with hruns
  · refine ⟨rfl, ⟨?_, ?_⟩, hi.sessions, hi.replays, ?_, ?_⟩
    · simp [hi.settings]
    · rw [List.map_append]
      exact hi.stacked.append
    · intro number call hcall
      rcases Nat.lt_trichotomy number s.calls.length with hlt | heq | hgt
      · rw [List.getElem?_append_left hlt] at hcall
        exact hi.gave number call hcall
      · rw [heq, List.getElem?_concat_length] at hcall
        rw [hi.unbegun number heq.ge, ← Option.some.inj hcall]
        exact AdapterGave.nil _
      · rw [List.getElem?_eq_none (by simp; omega)] at hcall
        cases hcall
    · intro number hle
      rw [List.length_append, List.length_singleton] at hle
      exact hi.unbegun number (by omega)
  · exact hi

theorem NestedReplays.restore (hi : NestedReplays original h s) {number : Nat}
    (hlast : s.inProgress.head? = some number) : NestedReplays original h (s.restore number) := by
  obtain ⟨rest, hrest⟩ := List.head?_eq_some_iff.mp hlast
  have hstacked := hi.stacked
  rw [hrest] at hstacked
  obtain ⟨hfound, hbelow⟩ := hstacked
  rw [List.getElem?_map, Option.map_eq_some_iff] at hfound
  obtain ⟨call, hcall, horiginal⟩ := hfound
  rw [ReplayedRuntime.restore, hcall]
  refine ⟨?_, ?_, hi.sessions, hi.replays, hi.gave, hi.unbegun⟩
  · simpa [hrest] using horiginal
  · simpa [hrest] using hbelow

/-- The run of the replay that began last asks for a decision. -/
theorem NestedReplays.replay_decides (hi : NestedReplays original h s) {number : Nat}
    {answer : Option Decision} (hlast : s.inProgress.head? = some number) :
    NestedReplays original (h ++ [(.decide (.replay number) answer, (s.decide answer).1)])
      (s.decide answer).2 := by
  obtain ⟨rest, hrest⟩ := List.head?_eq_some_iff.mp hlast
  have hstacked := hi.stacked
  rw [hrest] at hstacked
  obtain ⟨hfound, -⟩ := hstacked
  rw [List.getElem?_map, Option.map_eq_some_iff] at hfound
  obtain ⟨call, hcall, -⟩ := hfound
  have hsettings : s.settings = replayingSettings number := by rw [hi.settings, hrest, topSettings]
  have hdecide : s.decide answer =
      (.decided (.model (.replaying number)) call.adapter.decide.1,
        { s with calls := s.calls.set number { call with adapter := call.adapter.decide.2 } }) := by
    rw [ReplayedRuntime.decide, hsettings]
    simp [DecisionSettings.provider, replayingSettings, hcall]
  have hlt : number < s.calls.length := (List.getElem?_eq_some_iff.mp hcall).1
  rw [hdecide]
  refine ⟨hi.settings, ?_, ?_, ?_, ?_, ?_⟩
  · -- the settings that each call found are left alone
    have hsame : (s.calls.set number { call with adapter := call.adapter.decide.2 }).map
        ReplayCall.original = s.calls.map ReplayCall.original := by
      rw [List.map_set]
      refine List.ext_getElem? fun n => ?_
      rw [List.getElem?_set, List.length_map, List.getElem?_map]
      by_cases hn : number = n
      · rw [if_pos hn, if_pos hlt, ← hn, hcall]
        rfl
      · rw [if_neg hn]
    exact hsame ▸ hi.stacked
  · intro sessionId answer' provider decision hmem
    exact hi.sessions _ _ _ _ (by simpa using hmem)
  · intro n answer' provider decision hmem
    rcases List.mem_append.mp hmem with hmem | hmem
    · exact hi.replays _ _ _ _ hmem
    · simp only [List.mem_singleton, Prod.mk.injEq, ReplayInput.decide.injEq, Caller.replay.injEq,
        ReplayOutput.decided.injEq] at hmem
      obtain ⟨⟨rfl, -⟩, rfl, -⟩ := hmem
      rfl
  · intro n call' hcall'
    rw [consumedBy_snoc]
    rw [List.getElem?_set] at hcall'
    by_cases hn : number = n
    · rw [if_pos hn, if_pos hlt] at hcall'
      obtain rfl := Option.some.inj hcall'
      have hgiven := (hi.gave number call hcall).decide.2
      simpa [consumed?, hn] using hn ▸ hgiven
    · rw [if_neg hn] at hcall'
      simpa [consumed?, hn] using hi.gave n call' hcall'
  · intro n hle
    rw [List.length_set] at hle
    have hn : number ≠ n := by omega
    simpa [consumedBy_snoc, consumed?, hn] using hi.unbegun n hle

/-- A session asks for a decision, no replay being in progress. -/
theorem NestedReplays.session_decides {model : Model} {engine : Option Engine}
    {router : Option Router} (hi : NestedReplays (configured model engine router) h s)
    {sessionId : SessionId} {answer : Option Decision} (hnone : s.inProgress = []) :
    NestedReplays (configured model engine router)
      (h ++ [(.decide (.session sessionId) answer, (s.decide answer).1)]) (s.decide answer).2 := by
  have hsettings : s.settings = configured model engine router := by
    rw [hi.settings, hnone, topSettings]
  have hdecide : s.decide answer =
      match answer with
      | some decision =>
        (.decided (configured model engine router).provider decision, s)
      | none => (.done, s) := by
    rw [ReplayedRuntime.decide, hsettings]
    cases engine <;> cases router <;> cases answer <;> rfl
  rw [hdecide]
  cases answer with
  | none => exact hi.passed
  | some decision =>
    have hsame : ∀ number (provider : Provider Model Engine Router),
        consumedBy number (h ++ [(.decide (.session sessionId) (some decision),
          .decided provider decision)]) = consumedBy number h := by
      intro number provider
      simp [consumedBy_snoc, consumed?]
    refine ⟨hi.settings, hi.stacked, ?_, ?_, ?_, ?_⟩
    · intro id answer' provider decision' hmem
      rcases List.mem_append.mp hmem with hmem | hmem
      · exact hi.sessions _ _ _ _ hmem
      · simp only [List.mem_singleton, Prod.mk.injEq, ReplayOutput.decided.injEq] at hmem
        exact hmem.2.1
    · intro number answer' provider decision' hmem
      exact hi.replays _ _ _ _ (by simpa using hmem)
    · intro number call hcall
      rw [hsame]
      exact hi.gave number call hcall
    · intro number hle
      rw [hsame]
      exact hi.unbegun number hle

/-! ## Every interleaving -/

theorem NestedReplays.step {model : Model} {engine : Option Engine} {router : Option Router}
    (hi : NestedReplays (configured model engine router) h s) {input : ReplayInput}
    (hn : Nested h s input) :
    NestedReplays (configured model engine router) (h ++ [(input, (s.step input).1)])
      (s.step input).2 := by
  cases input with
  | replay events => exact (hi.begin events).passed
  | decide caller answer =>
    cases caller with
    | session sessionId =>
      have hpresent : s.Present (.session sessionId) := trivial
      have hstep : s.step (.decide (.session sessionId) answer) = s.decide answer := by
        rw [ReplayedRuntime.step, if_pos hpresent]
      rw [hstep]
      exact hi.session_decides hn
    | replay number =>
      by_cases hpresent : number ∈ s.inProgress
      · have hstep : s.step (.decide (.replay number) answer) = s.decide answer :=
          if_pos hpresent
        rw [hstep]
        exact hi.replay_decides (hn hpresent)
      · have hstep : s.step (.decide (.replay number) answer) = (.done, s) := if_neg hpresent
        rw [hstep]
        exact hi.passed
  | ended number =>
    by_cases hpresent : number ∈ s.inProgress
    · have hstep : s.step (.ended number) = (.done, s.restore number) :=
        congrArg (Prod.mk ReplayOutput.done) (if_pos hpresent)
      rw [hstep]
      exact (hi.restore (hn hpresent)).passed
    · have hstep : s.step (.ended number) = (.done, s) :=
        congrArg (Prod.mk ReplayOutput.done) (if_neg hpresent)
      rw [hstep]
      exact hi.passed

/-- **Replays, apart from sessions and from each other.** In every interleaving of replays on a runtime
with each other and with whatever else asks it for decisions, in which replays are nested and sessions
ask between them, sessions and replays are isolated in every state reached. -/
theorem replay_isolation (model : Model) (engine : Option Engine) (router : Option Router)
    (inputs : List ReplayInput)
    (h : (replayMachine (configured model engine router)).Meets Nested inputs) :
    Isolated (configured model engine router)
      ((replayMachine (configured model engine router)).history inputs)
      ((replayMachine (configured model engine router)).state inputs) := by
  have hinit : NestedReplays (configured model engine router) []
      (replayMachine (configured model engine router)).init :=
    { settings := rfl
      stacked := trivial
      sessions := fun _ _ _ _ hmem => by cases hmem
      replays := fun _ _ _ _ hmem => by cases hmem
      gave := fun _ _ hcall => by cases hcall
      unbegun := fun _ _ => rfl }
  exact ((replayMachine _).induct (NestedReplays (configured model engine router)) hinit
    (fun _ _ _ hi hn => hi.step hn) h).isolated

end Settings

/-! ## Two runs -/

/-- A replay that is given its decision, and a session that asks when it has ended. -/
def replayThenSession : List ReplayInput :=
  [.replay finishedJournal, .decide (.replay 0) none, .ended 0,
    .decide (.session "session-2") (some (endedBy "the model's"))]

/-- A runtime with a model, and with neither a decision engine nor a router. -/
def plainSettings : DecisionSettings String Unit Unit := configured "model" none none

theorem replay_isolation_alone :
    Isolated plainSettings ((replayMachine plainSettings).history replayThenSession)
      ((replayMachine plainSettings).state replayThenSession) :=
  replay_isolation "model" none none replayThenSession (by decide +kernel)

/-- A session that asks while the replay is in progress is given the recorded decision, which the
replay then goes without; and of two replays that overlap, the one that ends last leaves the runtime
with the adapter of the other. -/
theorem interleaved_replays :
    (replayMachine plainSettings).answers
        [.replay finishedJournal, .decide (.session "session-2") (some (endedBy "the model's")),
          .decide (.replay 0) none, .ended 0] =
      [.done, .decided (.model (.replaying 0)) (endedBy "done"),
        .decided (.model (.replaying 0)) exhaustedDecision, .done] ∧
    ((replayMachine plainSettings).state
        [.replay finishedJournal, .replay finishedJournal, .ended 0, .ended 1]).inProgress = [] ∧
    ((replayMachine plainSettings).state
        [.replay finishedJournal, .replay finishedJournal, .ended 0, .ended 1]).settings =
      replayingSettings 0 := by
  refine ⟨?_, ?_, ?_⟩ <;> decide +kernel

end UniversalAgent.Runtime
