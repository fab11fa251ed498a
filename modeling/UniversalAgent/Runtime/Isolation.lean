import UniversalAgent.Runtime.Processing
import UniversalAgent.Foundation.Machine

/-!
# Runtime — Isolation

Whether a session notices the sessions that share its runtime. The session follows a program,
which calls next what its answers so far tell it to and emits what they tell it to; a run
interleaves its calls with any calls of other sessions. Without those calls it has the memory to
itself.

The world keeps sessions apart by its keys. The evidence store does not: an id that another
session holds is refused, and a restored session's evidence replaces what has its id. Evidence
made of an observation has an id of its own, but seeded evidence is named after its subject and
claim alone, so two sessions seeded with one fact collide. `Apart` says of a step that it brings
no such collision.
-/

namespace UniversalAgent.Runtime

open UniversalAgent.Core UniversalAgent.Foundation UniversalAgent.Evidence UniversalAgent.World
open UniversalAgent.Tasks

variable {l : List Core.Evidence} {w w' : WorldModel} {e : Core.Evidence}

/-! ## Runs -/

abbrev SessionHistory := List (SessionCall × SessionAnswer)

/-- What a session does, given what it was answered: its inputs, its model and its tools. -/
structure SessionProgram (sessionId : SessionId) where
  next : SessionHistory → SessionCall
  next_session : ∀ history, (next history).sessionId = sessionId
  events : SessionHistory → List RuntimeEvent

inductive Turn (sessionId : SessionId) where
  | own
  | other (call : SessionCall) (h : call.sessionId ≠ sessionId)

def Turn.isOwn {sessionId : SessionId} : Turn sessionId → Bool
  | .own => true
  | .other _ _ => false

structure SharedRun where
  memory : Memory
  history : SessionHistory

def Memory.fresh : Memory := ⟨.empty, .empty⟩

section Runs

variable (c : MemorySettings) {sessionId : SessionId} (program : SessionProgram sessionId)

def takeTurn (r : SharedRun) : Turn sessionId → Unit × SharedRun
  | .own =>
    let call := program.next r.history
    let answered := answerCall c r.memory call
    ((), ⟨answered.2, r.history ++ [(call, answered.1)]⟩)
  | .other call _ => ((), { r with memory := (answerCall c r.memory call).2 })

def runtime : Machine SharedRun (Turn sessionId) Unit where
  init := ⟨.fresh, []⟩
  step := takeTurn c program

structure SessionView where
  events : List RuntimeEvent
  evidence : List Core.Evidence
  world : WorldSnapshot
deriving DecidableEq

/-- The events, the exported evidence and the world snapshot of the session. -/
def viewOf (r : SharedRun) : SessionView where
  events := program.events r.history
  evidence := r.memory.evidence.exportSession sessionId
  world := r.memory.world.snapshot c.dumps sessionId

end Runs

/-! ## The condition -/

section Condition

variable (c : MemorySettings)

/-- The evidence that a call writes, when it does not raise before. -/
def SessionCall.evidence : SessionCall → List Core.Evidence
  | .hydrate snapshot =>
    match validateSnapshotDomains snapshot c.domains,
      TaskManager.fromSnapshot snapshot.taskGraph with
    | .ok _, .ok _ => snapshot.evidence
    | _, _ => []
  | .seed sessionId facts _ => (seededEvidence sessionId facts).1
  | .observe _ identity extracted =>
    match stampExtracted c.domains identity extracted with
    | .ok stamped => stamped
    | .error _ => []
  | .start _ _ | .query _ _ _ | .world _ | .exported _ => []

/-- A call that puts its evidence over what is there; the others leave what is there. -/
def SessionCall.restores : SessionCall → Bool
  | .hydrate _ => true
  | _ => false

def SessionCall.Brings (call : SessionCall) : Prop :=
  ∀ e ∈ call.evidence c, e.sessionId = call.sessionId

def NoClash (P : SessionId → Prop) (evidence : List Core.Evidence) (store : EvidenceStore) : Prop :=
  ∀ e ∈ evidence, ∀ x ∈ store, x.id = e.id → P x.sessionId

instance (call : SessionCall) : Decidable (call.Brings c) :=
  inferInstanceAs (Decidable (∀ _ ∈ _, _))

instance (P : SessionId → Prop) [DecidablePred P] (evidence : List Core.Evidence)
    (store : EvidenceStore) : Decidable (NoClash P evidence store) :=
  inferInstanceAs (Decidable (∀ _ ∈ _, ∀ x ∈ store.rows, _ → _))

/-- A turn that keeps the sessions apart: the evidence it writes is its session's own; what the
session adds has no id that another session holds, and what another session restores has no id
that the session holds. -/
def Apart {sessionId : SessionId} (program : SessionProgram sessionId) (r : SharedRun) :
    Turn sessionId → Prop
  | .own =>
    let call := program.next r.history
    call.Brings c ∧
      (call.restores = false → NoClash (· = sessionId) (call.evidence c) r.memory.evidence)
  | .other call _ =>
    call.Brings c ∧
      (call.restores = true → NoClash (· ≠ sessionId) (call.evidence c) r.memory.evidence)

instance {sessionId : SessionId} (program : SessionProgram sessionId) (r : SharedRun)
    (turn : Turn sessionId) : Decidable (Apart c program r turn) := by
  cases turn with
  | own => exact inferInstanceAs (Decidable (_ ∧ (_ → _)))
  | other => exact inferInstanceAs (Decidable (_ ∧ (_ → _)))

end Condition

/-! ## What the session has of the memory -/

structure SameMemory (sessionId : SessionId) (m m' : Memory) : Prop where
  evidence : ∀ e, e.sessionId = sessionId → (e ∈ m.evidence ↔ e ∈ m'.evidence)
  only : ∀ e ∈ m'.evidence, e.sessionId = sessionId
  world : WorldModel.SameWorld sessionId m.world m'.world

structure Kept (sessionId : SessionId) (m m' : Memory) : Prop where
  evidence : ∀ e, e.sessionId = sessionId → (e ∈ m'.evidence ↔ e ∈ m.evidence)
  world : WorldModel.Untouched sessionId m.world m'.world

variable {sessionId : SessionId} {m m' m₁ : Memory}

theorem Kept.refl (sessionId : SessionId) (m : Memory) : Kept sessionId m m :=
  ⟨fun _ _ => Iff.rfl, .refl sessionId m.world⟩

theorem Kept.trans {m₂ : Memory} (h : Kept sessionId m m₁) (h' : Kept sessionId m₁ m₂) :
    Kept sessionId m m₂ :=
  ⟨fun e he => (h'.evidence e he).trans (h.evidence e he), h.world.trans h'.world⟩

theorem SameMemory.kept (h : SameMemory sessionId m m') (hk : Kept sessionId m m₁) :
    SameMemory sessionId m₁ m' :=
  ⟨fun e he => (hk.evidence e he).trans (h.evidence e he), h.only,
    (h.world.symm.untouched hk.world).symm⟩

/-- What is kept by every step of a fold is kept by the fold. -/
theorem Kept.foldl {f : Memory → Core.Evidence → Memory}
    (hf : ∀ m, ∀ e ∈ l, Kept sessionId m (f m e)) (m : Memory) :
    Kept sessionId m (l.foldl f m) := by
  induction l generalizing m with
  | nil => exact .refl sessionId m
  | cons e l ih =>
    have hrest := ih (fun m a ha => hf m a (List.mem_cons_of_mem e ha)) (f m e)
    exact (hf m e List.mem_cons_self).trans hrest

/-! ### World updates -/

theorem untouched_foldl {α : Type} {f : WorldModel → α → WorldModel} {l : List α}
    (hf : ∀ w, ∀ a ∈ l, WorldModel.Untouched sessionId w (f w a)) (w : WorldModel) :
    WorldModel.Untouched sessionId w (l.foldl f w) := by
  induction l generalizing w with
  | nil => exact .refl sessionId w
  | cons a l ih =>
    have hrest := ih (fun w b hb => hf w b (List.mem_cons_of_mem a hb)) (f w a)
    exact (hf w a List.mem_cons_self).trans hrest

theorem sameWorld_foldl {α : Type} {f : WorldModel → α → WorldModel} {l : List α}
    (hf : ∀ w w', ∀ a ∈ l, WorldModel.SameWorld sessionId w w' →
      WorldModel.SameWorld sessionId (f w a) (f w' a))
    (h : WorldModel.SameWorld sessionId w w') :
    WorldModel.SameWorld sessionId (l.foldl f w) (l.foldl f w') := by
  induction l generalizing w w' with
  | nil => exact h
  | cons a l ih =>
    exact ih (fun w w' b hb => hf w w' b (List.mem_cons_of_mem a hb))
      (hf w w' a List.mem_cons_self h)

section Updaters

variable (c : MemorySettings)

theorem untouched_applyUpdaters (w : WorldModel) (h : sessionId ≠ e.sessionId) :
    WorldModel.Untouched sessionId w (applyUpdaters c.worldUpdaters w e) := by
  refine untouched_foldl (fun w updater hu => ?_) w
  obtain ⟨u, -, rfl⟩ := List.mem_map.mp hu
  exact u.untouched sessionId w e h

theorem applyUpdaters_congr
    (h : WorldModel.SameWorld e.sessionId w w') :
    WorldModel.SameWorld e.sessionId (applyUpdaters c.worldUpdaters w e)
      (applyUpdaters c.worldUpdaters w' e) := by
  refine sameWorld_foldl (fun w w' updater hu hw => ?_) h
  obtain ⟨u, -, rfl⟩ := List.mem_map.mp hu
  exact u.congr w w' e hw

end Updaters

/-! ### Evidence that is added -/

/-- An update of the memory that adds a piece of evidence to the store and does something to the
world of its session. -/
structure Adds (f : Memory → Core.Evidence → Memory) : Prop where
  evidence : ∀ m e, (f m e).evidence = (m.evidence.add e).2
  untouched : ∀ m e sessionId, sessionId ≠ e.sessionId →
    WorldModel.Untouched sessionId m.world (f m e).world
  congr : ∀ m m' e, WorldModel.SameWorld e.sessionId m.world m'.world →
    (m.evidence.add e).1 = (m'.evidence.add e).1 →
    WorldModel.SameWorld e.sessionId (f m e).world (f m' e).world

variable {f : Memory → Core.Evidence → Memory}

/-- Evidence of another session is nothing to the session. -/
theorem Adds.kept (hf : Adds f) (m : Memory) (h : sessionId ≠ e.sessionId) : Kept sessionId m (f m e) := by
  refine ⟨fun x hx => ?_, hf.untouched m e sessionId h⟩
  rw [hf.evidence, EvidenceStore.mem_add]
  refine or_iff_left fun hn => h ?_
  rw [← hx, hn.1]

/-- The session's own evidence, which no other session holds the id of, does the same to both. -/
theorem Adds.same (hf : Adds f)
    (h : SameMemory sessionId m m') (hs : e.sessionId = sessionId)
    (hclash : ∀ x ∈ m.evidence, x.id = e.id → x.sessionId = sessionId) :
    SameMemory sessionId (f m e) (f m' e) := by
  have hheld : (∀ x ∈ m.evidence, x.id ≠ e.id) ↔ ∀ x ∈ m'.evidence, x.id ≠ e.id := by
    constructor
    · intro hn x hx hid
      exact hn x ((h.evidence x (h.only x hx)).mpr hx) hid
    · intro hn x hx hid
      exact hn x ((h.evidence x (hclash x hx hid)).mp hx) hid
  refine ⟨fun x hx => ?_, fun x hx => ?_, ?_⟩
  · rw [hf.evidence, hf.evidence, EvidenceStore.mem_add, EvidenceStore.mem_add, hheld,
      h.evidence x hx]
  · rw [hf.evidence, EvidenceStore.mem_add] at hx
    rcases hx with hx | ⟨rfl, -⟩
    · exact h.only x hx
    · exact hs
  · have hadd : (m.evidence.add e).1 = (m'.evidence.add e).1 := by
      by_cases hn : ∀ x ∈ m.evidence, x.id ≠ e.id
      · rw [EvidenceStore.add_eq hn, EvidenceStore.add_eq (hheld.mp hn)]
      · have hn' := hheld.not.mp hn
        push Not at hn hn'
        obtain ⟨x, hx, hid⟩ := hn
        obtain ⟨x', hx', hid'⟩ := hn'
        rw [EvidenceStore.add_refused hx hid, EvidenceStore.add_refused hx' hid']
    subst hs
    exact hf.congr m m' e h.world hadd

theorem Adds.same_foldl (hf : Adds f)
    (hs : ∀ e ∈ l, e.sessionId = sessionId)
    (h : SameMemory sessionId m m') (hclash : NoClash (· = sessionId) l m.evidence) :
    SameMemory sessionId (l.foldl f m) (l.foldl f m') := by
  induction l generalizing m m' with
  | nil => exact h
  | cons e l ih =>
    refine ih (fun a ha => hs a (List.mem_cons_of_mem e ha))
      (hf.same h (hs e List.mem_cons_self) (hclash e List.mem_cons_self)) ?_
    intro a ha x hx hid
    rw [hf.evidence, EvidenceStore.mem_add] at hx
    rcases hx with hx | ⟨rfl, -⟩
    · exact hclash a (List.mem_cons_of_mem e ha) x hx hid
    · exact hs x List.mem_cons_self

theorem adds_seedOne (dumps : Json → String) : Adds (seedOne dumps) where
  evidence _ _ := rfl
  untouched m _ _ h := m.world.untouched_applyFact dumps h
  congr _ _ e h _ := WorldModel.applyFact_congr dumps h e rfl

theorem adds_recordOne (c : MemorySettings) : Adds (recordOne c.updaters) where
  evidence m e := by
    unfold recordOne
    by_cases hn : ∀ x ∈ m.evidence, x.id ≠ e.id
    · rw [EvidenceStore.add_eq hn]
    · push Not at hn
      obtain ⟨x, hx, hid⟩ := hn
      rw [EvidenceStore.add_refused hx hid]
  untouched m e sessionId h := by
    unfold recordOne
    split
    · exact .refl sessionId m.world
    · exact untouched_applyUpdaters c m.world h
  congr m m' e h hadd := by
    unfold recordOne
    split
    · next hn =>
        rw [hn] at hadd
        split
        · exact h
        · next hy => rw [hy] at hadd; cases hadd
    · next hy =>
        rw [hy] at hadd
        split
        · next hn => rw [hn] at hadd; cases hadd
        · exact applyUpdaters_congr c h

/-! ### Calls -/

section Calls

variable (c : MemorySettings)

/-- Whether a snapshot can be hydrated, and to what session, does not depend on the memory. -/
theorem hydrateSession_memory (snapshot : SessionSnapshot) :
    ∃ r : Except String SessionRuntimeState,
      (∀ m, hydrateSession c.domains c.worldUpdaters snapshot m = r.map fun s =>
        (s, ⟨m.evidence.replace snapshot.state.sessionId snapshot.evidence,
          replayWorld c.worldUpdaters m.world snapshot.state.sessionId snapshot.evidence⟩)) ∧
      ∀ s, r = .ok s → (SessionCall.hydrate snapshot).evidence c = snapshot.evidence := by
  cases hv : validateSnapshotDomains snapshot c.domains with
  | error message =>
    refine ⟨.error message, fun m => ?_, fun s h => by cases h⟩
    simp only [hydrateSession, hv]
    rfl
  | ok u =>
    cases ht : TaskManager.fromSnapshot snapshot.taskGraph with
    | error message =>
      refine ⟨.error ("invalid session snapshot task graph: " ++ message), fun m => ?_,
        fun s h => by cases h⟩
      simp only [hydrateSession, hv, ht]
      rfl
    | ok tasks =>
      refine ⟨.ok (SessionRuntimeState.syncCurrentTask
        { state := snapshot.state
          tasks := tasks
          domainName := c.domains.primary.name
          domainVersion := c.domains.primary.version
          domainIdentities := c.domains.identities
          version := snapshot.version
          identities_ne := c.domains.nonempty }), fun m => ?_, fun s _ => ?_⟩
      · simp only [hydrateSession, hv, ht]
        rfl
      · simp only [SessionCall.evidence, hv, ht]

theorem untouched_replayWorld (w : WorldModel) {other : SessionId} (h : sessionId ≠ other)
    (items : List Core.Evidence) :
    WorldModel.Untouched sessionId w (replayWorld c.worldUpdaters w other items) := by
  refine (w.untouched_forget h).trans (untouched_foldl (fun w e he => ?_) _)
  have hs : e.sessionId = other := by simpa using (List.mem_filter.mp (mem_inOrder.mp he)).2
  exact untouched_applyUpdaters c w (hs ▸ h)

theorem replayWorld_congr
    (hcap : w.maxEvidencePerFact = w'.maxEvidencePerFact) (items : List Core.Evidence) :
    WorldModel.SameWorld sessionId (replayWorld c.worldUpdaters w sessionId items)
      (replayWorld c.worldUpdaters w' sessionId items) := by
  refine sameWorld_foldl (fun w w' e he h => ?_) (WorldModel.forget_same hcap sessionId)
  have hs : e.sessionId = sessionId := by simpa using (List.mem_filter.mp (mem_inOrder.mp he)).2
  subst hs
  exact applyUpdaters_congr c h

/-- What a session is given instead of all it had is the same in both. -/
theorem SameMemory.replaced (h : SameMemory sessionId m m') {items : List Core.Evidence}
    (hs : ∀ e ∈ items, e.sessionId = sessionId)
    (hw : WorldModel.SameWorld sessionId w w') :
    SameMemory sessionId ⟨m.evidence.replace sessionId items, w⟩
      ⟨m'.evidence.replace sessionId items, w'⟩ where
  evidence _ he := EvidenceStore.mem_replace_own he
  only e he := (EvidenceStore.of_mem_replace he).elim (h.only e) (hs e)
  world := hw

theorem ofResult_fst (r : Except String Unit) (m m' : Memory) :
    (SessionAnswer.ofResult (r, m)).1 = (SessionAnswer.ofResult (r, m')).1 := by
  cases r <;> rfl

theorem ofResult_snd (r : Except String Unit × Memory) : (SessionAnswer.ofResult r).2 = r.2 := by
  obtain ⟨r, m⟩ := r
  cases r <;> rfl

/-- A call of another session leaves the session what it has. -/
theorem answerCall_kept (m : Memory) {call : SessionCall} (hs : sessionId ≠ call.sessionId)
    (hb : call.Brings c)
    (hr : call.restores = true → NoClash (· ≠ sessionId) (call.evidence c) m.evidence) :
    Kept sessionId m (answerCall c m call).2 := by
  cases call with
  | start state tasks =>
    refine ⟨fun e he => ?_, m.world.untouched_forget hs⟩
    exact EvidenceStore.mem_replace_other (he ▸ hs) List.not_mem_nil (by simp)
  | hydrate snapshot =>
    obtain ⟨r, hm, hev⟩ := hydrateSession_memory c snapshot
    simp only [answerCall, hm]
    cases r with
    | error message => exact .refl sessionId m
    | ok s =>
      have hitems := hev s rfl
      have hclash := hr rfl
      rw [SessionCall.Brings, hitems] at hb
      rw [hitems] at hclash
      refine ⟨fun e he => ?_, untouched_replayWorld c m.world hs _⟩
      refine EvidenceStore.mem_replace_other (he ▸ hs) (fun hin => hs (he ▸ hb e hin))
        fun hmem i hi hid => ?_
      exact hclash i hi e hmem hid.symm he
  | seed other facts entities =>
    have hseeded : Kept sessionId m
        ((seededEvidence other facts).1.foldl (seedOne c.dumps) m) := by
      refine .foldl (fun m e he => ?_) m
      exact (adds_seedOne c.dumps).kept m ((hb e he).symm ▸ hs)
    simp only [answerCall, ofResult_snd, seedInitialState]
    split
    · exact hseeded
    · refine hseeded.trans ⟨fun _ _ => Iff.rfl, ?_⟩
      exact untouched_foldl (fun w entity _ => w.untouched_applyEntity entity hs) _
  | observe other identity extracted =>
    simp only [answerCall, ofResult_snd, recordObservation]
    cases hst : stampExtracted c.domains identity extracted with
    | error message => exact .refl sessionId m
    | ok stamped =>
      simp only [SessionCall.Brings, SessionCall.evidence, hst] at hb
      refine .foldl (fun m e he => ?_) m
      exact (adds_recordOne c).kept m ((hb e he).symm ▸ hs)
  | query _ _ _ => exact .refl sessionId m
  | world _ => exact .refl sessionId m
  | exported _ => exact .refl sessionId m

/-- A call of the session is answered alike and does the same to both. -/
theorem answerCall_same (h : SameMemory sessionId m m') {call : SessionCall}
    (hs : call.sessionId = sessionId) (hb : call.Brings c)
    (hn : call.restores = false → NoClash (· = sessionId) (call.evidence c) m.evidence) :
    (answerCall c m call).1 = (answerCall c m' call).1 ∧
      SameMemory sessionId (answerCall c m call).2 (answerCall c m' call).2 := by
  subst hs
  cases call with
  | start state tasks =>
    exact ⟨rfl, h.replaced (by simp) (WorldModel.forget_same h.world.cap state.sessionId)⟩
  | hydrate snapshot =>
    obtain ⟨r, hm, hev⟩ := hydrateSession_memory c snapshot
    simp only [answerCall, hm]
    cases r with
    | error message => exact ⟨rfl, h⟩
    | ok s =>
      rw [SessionCall.Brings, hev s rfl] at hb
      exact ⟨rfl, h.replaced hb (replayWorld_congr c h.world.cap _)⟩
  | seed own facts entities =>
    have hseeded := (adds_seedOne c.dumps).same_foldl hb h (hn rfl)
    simp only [SessionCall.evidence, SessionCall.sessionId] at hseeded
    simp only [answerCall, ofResult_snd, seedInitialState]
    cases (seededEvidence own facts).2 with
    | some message => exact ⟨rfl, hseeded⟩
    | none =>
      refine ⟨ofResult_fst _ _ _, hseeded.evidence, hseeded.only, ?_⟩
      exact sameWorld_foldl (fun w w' entity _ hw => WorldModel.applyEntity_congr hw entity)
        hseeded.world
  | observe own identity extracted =>
    simp only [answerCall, ofResult_snd, recordObservation]
    cases hst : stampExtracted c.domains identity extracted with
    | error message => exact ⟨rfl, h⟩
    | ok stamped =>
      have hclash := hn rfl
      simp only [SessionCall.Brings, SessionCall.evidence, hst] at hb hclash
      exact ⟨rfl, (adds_recordOne c).same_foldl hb h hclash⟩
  | query own task limit =>
    have hexport := EvidenceStore.exportSession_congr h.evidence
    simp only [SessionCall.sessionId] at hexport
    refine ⟨?_, h⟩
    simp only [answerCall, EvidenceStore.query, hexport]
  | world own => exact ⟨congrArg SessionAnswer.world (WorldModel.snapshot_congr c.dumps h.world), h⟩
  | exported own =>
    exact ⟨congrArg SessionAnswer.evidence (EvidenceStore.exportSession_congr h.evidence), h⟩

end Calls

/-! ## Noninterference -/

section Noninterference

variable (c : MemorySettings) (program : SessionProgram sessionId)

structure SameRun (sessionId : SessionId) (r r' : SharedRun) : Prop where
  history : r.history = r'.history
  memory : SameMemory sessionId r.memory r'.memory

theorem SameRun.start (sessionId : SessionId) :
    SameRun sessionId ⟨.fresh, []⟩ ⟨.fresh, []⟩ where
  history := rfl
  memory :=
    ⟨fun _ _ => Iff.rfl, fun _ h => absurd h (Table.not_mem_empty _),
      .of_nothing rfl (fun _ _ => rfl) (fun _ _ => rfl) (fun _ => rfl) (fun _ => rfl)
        (fun _ _ _ => rfl) fun _ _ _ => rfl⟩

theorem SameRun.view {r r' : SharedRun} (h : SameRun sessionId r r') :
    viewOf c program r = viewOf c program r' := by
  simp only [viewOf, h.history, EvidenceStore.exportSession_congr h.memory.evidence,
    WorldModel.snapshot_congr c.dumps h.memory.world]

/-- **Session isolation.** In every run in which no turn makes two sessions' evidence collide, the
session's events, its exported evidence and its world are those of the run of its turns alone. -/
theorem session_isolated {turns : List (Turn sessionId)}
    (h : (runtime c program).Meets (fun _ r turn => Apart c program r turn) turns) :
    viewOf c program ((runtime c program).state turns)
      = viewOf c program ((runtime c program).state (turns.filter Turn.isOwn)) := by
  refine SameRun.view c program ((runtime c program).unwind Turn.isOwn (SameRun sessionId)
    (SameRun.start sessionId) ?_ ?_ h).2
  · intro _ r r' turn hown hr hc
    cases turn with
    | own => cases hown
    | other call hne =>
      exact ⟨hr.history, hr.memory.kept (answerCall_kept c r.memory hne.symm hc.1 hc.2)⟩
  · intro _ r r' turn hown hr hc
    cases turn with
    | other call hne => cases hown
    | own =>
      have hp := answerCall_same c hr.memory (program.next_session r.history) hc.1 hc.2
      refine ⟨rfl, ?_, ?_⟩
      · simp only [runtime, takeTurn, ← hr.history, hp.1]
      · simp only [runtime, takeTurn, ← hr.history]
        exact hp.2

end Noninterference

/-! ## Two seeded sessions -/

theorem local_nonempty : ([⟨"local", "1"⟩] : List DomainIdentity) ≠ [] := by decide

def factSettings : MemorySettings where
  domains := ⟨[⟨"local", "1"⟩], local_nonempty⟩
  updaters _ := [factUpdater fun _ => ""]
  dumps _ := ""

def seededStart (sessionId : SessionId) : SessionCall :=
  let task : Task := ⟨"look", ["healthy"], "task-1", .pending, 0⟩
  .start (initialAgentState sessionId ⟨"inspect", [], "goal-1", .pending, 0⟩ task false none [task])
    (TaskManager.ofRoot task "root")

def seedHealthy (sessionId : SessionId) (subject : String) : SessionCall :=
  .seed sessionId [⟨subject, "healthy", .bool true, .ok (.finite 1), 0⟩] []

def seededProgram : SessionProgram "b" where
  next
    | [] => seededStart "b"
    | [_] => seedHealthy "b" "repo"
    | _ => .exported "b"
  next_session
    | [] => rfl
    | [_] => rfl
    | _ :: _ :: _ => rfl
  events _ := []

/-- Another session is seeded with a fact about `subject` before the session is. -/
def seededRun (subject : String) : List (Turn "b") :=
  [.other (seededStart "a") (by decide),
    .other (seedHealthy "a" subject) (by simp [seedHealthy, SessionCall.sessionId]),
    .own, .own, .own]

theorem session_isolated_elsewhere :
    (runtime factSettings seededProgram).Meets (fun _ r turn => Apart factSettings seededProgram r
        turn) (seededRun "docs") ∧
      viewOf factSettings seededProgram ((runtime factSettings seededProgram).state
          (seededRun "docs"))
        = viewOf factSettings seededProgram ((runtime factSettings seededProgram).state
          ((seededRun "docs").filter Turn.isOwn)) :=
  have h : (runtime factSettings seededProgram).Meets
      (fun _ r turn => Apart factSettings seededProgram r turn) (seededRun "docs") := by
    decide +kernel
  ⟨h, session_isolated factSettings seededProgram h⟩

/-- A fact seeded into another session first suppresses the session's own. -/
theorem seeded_fact_suppressed :
    ¬ ∀ (c : MemorySettings) (sessionId : SessionId) (program : SessionProgram sessionId)
        (turns : List (Turn sessionId)),
        viewOf c program ((runtime c program).state turns)
          = viewOf c program ((runtime c program).state (turns.filter Turn.isOwn)) := by
  intro h
  have hview := congrArg SessionView.evidence
    (h factSettings "b" seededProgram (seededRun "repo"))
  revert hview
  decide +kernel

end UniversalAgent.Runtime
