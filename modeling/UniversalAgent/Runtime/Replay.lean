import UniversalAgent.Runtime.Isolation
import UniversalAgent.State.Store

/-!
# Runtime — Replay

The world of a session against its evidence. The live world takes evidence as it arrives, and
takes seeded facts and entities besides; hydration replays the stored evidence in the order of
observation. The two agree as long as every step is `Faithful`: evidence arrives in order or
commutes with what sorts after it, and what is seeded is recorded as evidence that the updaters
treat as the seeding does.
-/

namespace UniversalAgent.Runtime

open UniversalAgent.Core UniversalAgent.Foundation UniversalAgent.Evidence UniversalAgent.World
open UniversalAgent.State UniversalAgent.Tasks

section Replay

variable (c : MemorySettings)

def applyAll (w : WorldModel) (items : List Core.Evidence) : WorldModel :=
  items.foldl (applyUpdaters c.worldUpdaters) w

def replayed (sessionId : SessionId) (store : EvidenceStore) : WorldModel :=
  applyAll c (WorldModel.empty.forget sessionId) (store.exportSession sessionId)

/-! ## The condition -/

/-- New evidence is in its place: nothing that is stored sorts after it, or its update can be
exchanged with the updates of what does. -/
def InPlace (store : EvidenceStore) (e : Core.Evidence) : Prop :=
  store.later e = [] ∨
    let before := applyAll c (WorldModel.empty.forget e.sessionId) (store.earlier e)
    WorldModel.SameWorld e.sessionId
      (applyUpdaters c.worldUpdaters (applyAll c before (store.later e)) e)
      (applyAll c (applyUpdaters c.worldUpdaters before e) (store.later e))

/-- The updaters do with the evidence what `apply_fact` does. -/
def ActsAsFact (e : Core.Evidence) : Prop :=
  ∀ w, WorldModel.SameWorld e.sessionId w w →
    WorldModel.SameWorld e.sessionId (w.applyFact c.dumps e) (applyUpdaters c.worldUpdaters w e)

def IsNew (store : EvidenceStore) (e : Core.Evidence) : Prop := ∀ x ∈ store, x.id ≠ e.id

instance (store : EvidenceStore) (e : Core.Evidence) : Decidable (IsNew store e) :=
  inferInstanceAs (Decidable (∀ x ∈ store.rows, _))

/-- Observed evidence of the session is what JSON can hold and is in its place. -/
def ObservesFaithfully (sessionId : SessionId) : Memory → List Core.Evidence → Prop
  | _, [] => True
  | m, e :: rest =>
    (e.sessionId = sessionId → IsNew m.evidence e →
        e.value.isPlain = true ∧ InPlace c m.evidence e) ∧
      ObservesFaithfully sessionId (recordOne c.updaters m e) rest

/-- A seeded fact of the session is also recorded, as evidence that the updaters take for a fact;
or it was seeded before and `apply_fact` knows it. -/
def SeedsFaithfully (sessionId : SessionId) : Memory → List Core.Evidence → Prop
  | _, [] => True
  | m, e :: rest =>
    ((IsNew m.evidence e ∧ e.value.isPlain = true ∧ ActsAsFact c e ∧ InPlace c m.evidence e) ∨
        ¬ IsNew m.evidence e ∧
          ∃ item ∈ m.world.factEvidence sessionId e.subject e.claim, item.id = e.id) ∧
      SeedsFaithfully sessionId (seedOne c.dumps m e) rest

/-- A call after which the world of the session is still what its evidence says. -/
def Faithful (sessionId : SessionId) (m : Memory) : SessionCall → Prop
  | .hydrate snapshot =>
    let evidence := (SessionCall.hydrate snapshot).evidence c
    if snapshot.state.sessionId = sessionId then
      (evidence.map Core.Evidence.id).Nodup ∧ ∀ e ∈ evidence, e.value.isPlain = true
    else
      (∀ e ∈ evidence, e.sessionId ≠ sessionId) ∧ NoClash (· ≠ sessionId) evidence m.evidence
  | .seed own facts entities =>
    own = sessionId → SeedsFaithfully c sessionId m (seededEvidence own facts).1 ∧
      ((seededEvidence own facts).2 = none → (seededEntities entities).1 = [])
  | .observe own identity extracted =>
    ObservesFaithfully c sessionId m ((SessionCall.observe own identity extracted).evidence c)
  | .start _ _ | .query _ _ _ | .world _ | .exported _ => True

/-! ## What every step keeps -/

/-- The world of the session is what its evidence says, and JSON can hold its evidence. -/
structure WorldAgrees (sessionId : SessionId) (m : Memory) : Prop where
  world : WorldModel.SameWorld sessionId m.world (replayed c sessionId m.evidence)
  plain : ∀ e ∈ m.evidence, e.sessionId = sessionId → e.value.isPlain = true

variable {c} {sessionId : SessionId} {m m' : Memory}

theorem applyAll_congr {items : List Core.Evidence} (hs : ∀ e ∈ items, e.sessionId = sessionId)
    {w w' : WorldModel} (h : WorldModel.SameWorld sessionId w w') :
    WorldModel.SameWorld sessionId (applyAll c w items) (applyAll c w' items) := by
  refine sameWorld_foldl (fun w w' e he h => ?_) h
  have hsession := hs e he
  subst hsession
  exact applyUpdaters_congr c h

theorem maxEvidencePerFact_applyUpdaters (w : WorldModel) (e : Core.Evidence) :
    (applyUpdaters c.worldUpdaters w e).maxEvidencePerFact = w.maxEvidencePerFact := by
  -- an update leaves every other session alone, and there is another session
  have hother : e.sessionId ++ "'" ≠ e.sessionId := fun h => by
    have := congrArg String.length h
    simp at this
  exact (untouched_applyUpdaters c w hother).cap

theorem maxEvidencePerFact_applyAll (w : WorldModel) (items : List Core.Evidence) :
    (applyAll c w items).maxEvidencePerFact = w.maxEvidencePerFact := by
  induction items generalizing w with
  | nil => rfl
  | cons e items ih => exact (ih _).trans (maxEvidencePerFact_applyUpdaters w e)

theorem WorldAgrees.cap (h : WorldAgrees c sessionId m) :
    m.world.maxEvidencePerFact = defaultMaxEvidencePerFact :=
  h.world.cap.trans (maxEvidencePerFact_applyAll _ _)

theorem replayed_congr {s t : EvidenceStore}
    (h : ∀ e, e.sessionId = sessionId → (e ∈ s ↔ e ∈ t)) :
    replayed c sessionId s = replayed c sessionId t := by
  rw [replayed, EvidenceStore.exportSession_congr h, replayed]

theorem WorldAgrees.kept (h : WorldAgrees c sessionId m) (hk : Kept sessionId m m') :
    WorldAgrees c sessionId m' where
  world := by
    rw [replayed_congr hk.evidence]
    exact (h.world.symm.untouched hk.world).symm
  plain e he hs := h.plain e ((hk.evidence e hs).mp he) hs

/-- Evidence in its place is replayed as it arrived. -/
theorem replayed_add {store : EvidenceStore} {e : Core.Evidence} (hnew : IsNew store e)
    (hplace : InPlace c store e) {w : WorldModel}
    (hw : WorldModel.SameWorld e.sessionId w (replayed c e.sessionId store)) :
    WorldModel.SameWorld e.sessionId (applyUpdaters c.worldUpdaters w e)
      (replayed c e.sessionId (store.add e).2) := by
  have hsplit : replayed c e.sessionId store
      = applyAll c (applyAll c (WorldModel.empty.forget e.sessionId) (store.earlier e))
          (store.later e) := by
    rw [replayed, EvidenceStore.exportSession_eq_append, applyAll, List.foldl_append]
    rfl
  have hadd : replayed c e.sessionId (store.add e).2
      = applyAll c (applyUpdaters c.worldUpdaters
          (applyAll c (WorldModel.empty.forget e.sessionId) (store.earlier e)) e)
          (store.later e) := by
    rw [replayed, EvidenceStore.exportSession_add hnew, applyAll, List.foldl_append]
    rfl
  have hstep := applyUpdaters_congr c hw
  rw [hsplit] at hstep
  rw [hadd]
  rcases hplace with hlast | hplace
  · rw [hlast] at hstep ⊢
    exact hstep
  · exact hstep.trans hplace

theorem WorldAgrees.record (h : WorldAgrees c sessionId m) {e : Core.Evidence}
    (hf : e.sessionId = sessionId → IsNew m.evidence e →
      e.value.isPlain = true ∧ InPlace c m.evidence e) :
    WorldAgrees c sessionId (recordOne c.updaters m e) := by
  by_cases hs : e.sessionId = sessionId
  · by_cases hnew : IsNew m.evidence e
    · obtain ⟨hplain, hplace⟩ := hf hs hnew
      subst hs
      have hadd := EvidenceStore.add_eq hnew
      have hw := replayed_add hnew hplace h.world
      refine ⟨?_, fun x hx hxs => ?_⟩
      · rw [(adds_recordOne c).evidence]
        unfold recordOne
        rw [hadd]
        rw [hadd] at hw
        exact hw
      · rw [(adds_recordOne c).evidence, EvidenceStore.mem_add] at hx
        rcases hx with hx | ⟨rfl, -⟩
        · exact h.plain x hx hxs
        · exact hplain
    · unfold IsNew at hnew
      push Not at hnew
      obtain ⟨x, hx, hid⟩ := hnew
      unfold recordOne
      rw [EvidenceStore.add_refused hx hid]
      exact h
  · exact h.kept ((adds_recordOne c).kept m (Ne.symm hs))

theorem WorldAgrees.records {items : List Core.Evidence} (h : WorldAgrees c sessionId m)
    (hf : ObservesFaithfully c sessionId m items) :
    WorldAgrees c sessionId (items.foldl (recordOne c.updaters) m) := by
  induction items generalizing m with
  | nil => exact h
  | cons e items ih => exact ih (h.record hf.1) hf.2

theorem WorldAgrees.seedOne (h : WorldAgrees c sessionId m) {e : Core.Evidence}
    (hs : e.sessionId = sessionId)
    (hf : (IsNew m.evidence e ∧ e.value.isPlain = true ∧ ActsAsFact c e ∧
        InPlace c m.evidence e) ∨
      ¬ IsNew m.evidence e ∧
        ∃ item ∈ m.world.factEvidence sessionId e.subject e.claim, item.id = e.id) :
    WorldAgrees c sessionId (seedOne c.dumps m e) := by
  subst hs
  rcases hf with ⟨hnew, hplain, hacts, hplace⟩ | ⟨hheld, item, hitem, hid⟩
  · have hw := replayed_add hnew hplace h.world
    have hself : WorldModel.SameWorld e.sessionId m.world m.world := h.world.trans h.world.symm
    refine ⟨(hacts m.world hself).trans hw, fun x hx hxs => ?_⟩
    rcases EvidenceStore.mem_add.mp hx with hx | ⟨rfl, -⟩
    · exact h.plain x hx hxs
    · exact hplain
  · have hknown : m.world.applyFact c.dumps e = m.world := by
      rw [WorldModel.applyFact_eq, if_pos]
      exact List.any_eq_true.mpr ⟨item, hitem, by simpa using hid⟩
    unfold IsNew at hheld
    push Not at hheld
    obtain ⟨x, hx, hxid⟩ := hheld
    have hadd := EvidenceStore.add_refused hx hxid
    have hsame : Runtime.seedOne c.dumps m e = m := by
      rw [Runtime.seedOne, hknown, hadd]
    rw [hsame]
    exact h

theorem WorldAgrees.seeds {items : List Core.Evidence} (h : WorldAgrees c sessionId m)
    (hs : ∀ e ∈ items, e.sessionId = sessionId) (hf : SeedsFaithfully c sessionId m items) :
    WorldAgrees c sessionId (items.foldl (Runtime.seedOne c.dumps) m) := by
  induction items generalizing m with
  | nil => exact h
  | cons e items ih =>
    exact ih (h.seedOne (hs e List.mem_cons_self) hf.1)
      (fun a ha => hs a (List.mem_cons_of_mem e ha)) hf.2

/-- A session that was given distinct, plain evidence has the world replayed from it. -/
theorem WorldAgrees.restored {items : List Core.Evidence} (h : WorldAgrees c sessionId m)
    (hn : (items.map Core.Evidence.id).Nodup)
    (hp : ∀ e ∈ items, e.value.isPlain = true) :
    WorldAgrees c sessionId ⟨m.evidence.replace sessionId items,
      replayWorld c.worldUpdaters m.world sessionId items⟩ := by
  have hmem : ∀ {e : Core.Evidence}, e.sessionId = sessionId →
      (e ∈ m.evidence.replace sessionId items ↔ e ∈ items) := fun he =>
    EvidenceStore.mem_replace_of_nodup hn he
  have hown : ((items.filter fun e => e.sessionId = sessionId).map Core.Evidence.id).Nodup :=
    hn.sublist (List.filter_sublist.map _)
  have hexport : (m.evidence.replace sessionId items).exportSession sessionId
      = inOrder (items.filter fun e => e.sessionId = sessionId) := by
    refine eq_of_perm_of_observed ?_ (EvidenceStore.pairwise_exportSession _ _)
      (pairwise_inOrder _) (EvidenceStore.exportSession_ids_nodup _ _)
    refine (List.perm_ext_iff_of_nodup (EvidenceStore.exportSession_ids_nodup _ _).of_map ?_).mpr
      fun e => ?_
    · exact ((inOrder_perm _).nodup_iff).mpr hown.of_map
    · rw [EvidenceStore.mem_exportSession, mem_inOrder, List.mem_filter]
      constructor
      · rintro ⟨he, hs⟩
        exact ⟨(hmem hs).mp he, by simpa using hs⟩
      · rintro ⟨he, hs⟩
        have hs' : e.sessionId = sessionId := by simpa using hs
        exact ⟨(hmem hs').mpr he, hs'⟩
  constructor
  · rw [replayed, hexport]
    refine applyAll_congr (fun e he => ?_) (WorldModel.forget_same h.cap sessionId)
    simpa using (List.mem_filter.mp (mem_inOrder.mp he)).2
  · intro e he hs
    exact hp e ((hmem hs).mp he)

/-- A faithful call keeps the world of the session what its evidence says. -/
theorem WorldAgrees.answerCall (h : WorldAgrees c sessionId m) {call : SessionCall}
    (hf : Faithful c sessionId m call) : WorldAgrees c sessionId (answerCall c m call).2 := by
  cases call with
  | start state tasks =>
    by_cases hs : state.sessionId = sessionId
    · subst hs
      exact h.restored List.nodup_nil fun _ he => nomatch he
    · refine h.kept ⟨fun e he => ?_, m.world.untouched_forget (Ne.symm hs)⟩
      exact EvidenceStore.mem_replace_other (fun hk => hs (hk.symm.trans he)) List.not_mem_nil
        (by simp)
  | hydrate snapshot =>
    obtain ⟨r, hm, hev⟩ := hydrateSession_memory c snapshot
    simp only [Runtime.answerCall, hm]
    cases r with
    | error message => exact h
    | ok s =>
      simp only [Faithful, hev s rfl] at hf
      by_cases hs : snapshot.state.sessionId = sessionId
      · rw [if_pos hs] at hf
        subst hs
        exact h.restored hf.1 hf.2
      · rw [if_neg hs] at hf
        refine h.kept ⟨fun e he => ?_, untouched_replayWorld c m.world (Ne.symm hs) _⟩
        refine EvidenceStore.mem_replace_other (fun hk => hs (hk.symm.trans he))
          (fun hin => hf.1 e hin he) fun hmem i hi hid => ?_
        exact hf.2 i hi e hmem hid.symm he
  | seed own facts entities =>
    simp only [Runtime.answerCall, ofResult_snd, seedInitialState]
    have hown : ∀ e ∈ (seededEvidence own facts).1, e.sessionId = own := fun _ he =>
      (seededEvidence_session he).1
    by_cases hs : own = sessionId
    · obtain ⟨hfacts, hentities⟩ := hf hs
      subst hs
      have hseeded := h.seeds hown hfacts
      split
      · exact hseeded
      · next hnone =>
          rw [hentities hnone]
          exact hseeded
    · have hkept : Kept sessionId m ((seededEvidence own facts).1.foldl (Runtime.seedOne c.dumps) m) :=
        .foldl (fun m e he => (adds_seedOne c.dumps).kept m fun hk =>
          hs ((hown e he).symm.trans hk.symm)) m
      split
      · exact h.kept hkept
      · refine h.kept (hkept.trans ⟨fun _ _ => Iff.rfl, ?_⟩)
        exact untouched_foldl (fun w entity _ => w.untouched_applyEntity entity (Ne.symm hs)) _
  | observe own identity extracted =>
    simp only [Runtime.answerCall, ofResult_snd, recordObservation]
    simp only [Faithful, SessionCall.evidence] at hf
    cases hst : stampExtracted c.domains identity extracted with
    | error message => exact h
    | ok stamped =>
      rw [hst] at hf
      exact h.records hf
  | query _ _ _ => exact h
  | world _ => exact h
  | exported _ => exact h

theorem WorldAgrees.fresh : WorldAgrees c sessionId Memory.fresh where
  world := .of_nothing rfl (fun _ _ => rfl) (fun _ _ => rfl) (fun _ => rfl) (fun _ => rfl)
    (fun _ _ _ => rfl) fun _ _ _ => rfl
  plain e he _ := absurd he (Table.not_mem_empty e)

end Replay

/-! ## A stored and hydrated session -/

section Restore

variable (c : MemorySettings)

structure HeldSession (sessionId : SessionId) (s : SessionRuntimeState) : Prop where
  session : s.state.sessionId = sessionId
  domains : s.domainIdentities = c.domains.identities

/-- The snapshot of a session has been created or saved in a store. -/
def Stored {codec : JsonCodec} {B : Backend codec} (store store' : SessionStore B)
    (s : SessionSnapshot) : Prop :=
  store.createSession s = .ok store' ∨ ∃ v, store.saveSession s = .ok (store', v)

/-- The world of a session, when its snapshot is stored and hydrated into a fresh runtime, is its
live world. -/
def Restorable (sessionId : SessionId) (m : Memory) : Prop :=
  ∀ (codec : JsonCodec) (B : Backend codec) (store store' : SessionStore B)
    (s : SessionRuntimeState), HeldSession c sessionId s →
    Stored store store' (s.snapshot m.evidence) →
    ∃ stored s' m', store'.loadSession sessionId = .ok stored ∧
      hydrateSession c.domains c.worldUpdaters stored Memory.fresh = .ok (s', m') ∧
      m'.world.snapshot c.dumps sessionId = m.world.snapshot c.dumps sessionId

variable {c} {sessionId : SessionId} {m : Memory}

/-- What is stored is the snapshot under some version. -/
theorem Stored.write {codec : JsonCodec} {B : Backend codec} {store store' : SessionStore B}
    {s : SessionSnapshot} (h : Stored store store' s) :
    ∃ v, store.write { s with version := v } = .ok store' := by
  rcases h with h | ⟨v, h⟩
  · unfold SessionStore.createSession at h
    split at h
    · cases h
    · exact ⟨0, h⟩
  · obtain ⟨r, -, -, -, hw⟩ := SessionStore.saveSession_eq_ok.mp h
    exact ⟨_, hw⟩

theorem WorldAgrees.restorable (h : WorldAgrees c sessionId m) : Restorable c sessionId m := by
  intro codec B store store' s hs hstored
  obtain ⟨v, hw⟩ := hstored.write
  have hc : Coherent { s.snapshot m.evidence with version := v } :=
    (Produced.session s m.evidence).coherent.withVersion v
  obtain ⟨t, ht, hload⟩ := SessionStore.loadSession_write hc hw
  obtain ⟨hstate, hct, hgraph, -, -, hfields⟩ := copySession_spec codec hc ht
  have hid : t.state.sessionId = sessionId :=
    (congrArg AgentState.sessionId hstate.fields).trans hs.session
  have hevidence : t.evidence = m.evidence.exportSession sessionId := by
    rw [copySession_evidence codec ht, ← hs.session]
    · rfl
    · intro e he
      obtain ⟨he, hes⟩ := EvidenceStore.mem_exportSession.mp he
      exact h.plain e he (hes.trans hs.session)
  have hdomains : t.domains = c.domains.identities := by
    rw [hct.domains, ← hs.domains]
    exact congrArg SessionSnapshot.domainIdentities hfields
  have hvalid : validateSnapshotDomains t c.domains = .ok () := by
    simp [validateSnapshotDomains, hdomains, c.domains.nonempty]
  have htasks : TaskManager.fromSnapshot t.taskGraph = .ok s.tasks := by
    rw [hgraph]
    exact TaskManager.fromSnapshot_snapshot s.tasks
  obtain ⟨s', m', hh⟩ : ∃ s' m',
      hydrateSession c.domains c.worldUpdaters t Memory.fresh = .ok (s', m') := by
    unfold hydrateSession
    rw [hvalid]
    simp only [htasks]
    exact ⟨_, _, rfl⟩
  refine ⟨t, s', m', ?_, hh, ?_⟩
  · rw [← hs.session]
    exact hload
  · have hreplay : replayWorld c.worldUpdaters Memory.fresh.world sessionId t.evidence
        = replayed c sessionId m.evidence := by
      rw [hevidence, replayWorld, List.filter_eq_self.mpr, inOrder_eq_self]
      · rfl
      · exact EvidenceStore.pairwise_exportSession _ _
      · intro e he
        simpa using (EvidenceStore.mem_exportSession.mp he).2
    obtain ⟨-, -, -, hm'⟩ := hydrateSession_spec hh
    rw [hm', hid, hreplay]
    exact WorldModel.snapshot_congr c.dumps h.world.symm

def memoryMachine (c : MemorySettings) : Machine Memory SessionCall SessionAnswer where
  init := .fresh
  step := answerCall c

/-- To the default updater, evidence that names neither a kind nor a relation is a fact. -/
theorem actsAsFact_factUpdater {e : Core.Evidence} (hu : c.updaters e = [factUpdater c.dumps])
    (hk : entityFromEvidence? e = none) (hr : relationsFromEvidence e = []) : ActsAsFact c e := by
  intro w hw
  have happly : applyUpdaters c.worldUpdaters w e = w.applyFact c.dumps e := by
    simp only [applyUpdaters, MemorySettings.worldUpdaters, hu, List.map_cons, List.map_nil,
      List.foldl_cons, List.foldl_nil, factUpdater, factWorldUpdater, hk, hr]
  rw [happly]
  exact WorldModel.applyFact_congr c.dumps hw e rfl

end Restore

/-! ## A seeded fact and a seeded entity -/

/-- What the probe of the session finds a second after the seeding. -/
def probed : Core.Evidence where
  sessionId := "b"
  taskId := "task-1"
  actionId := "action-1"
  observationId := "observation-1"
  subject := "repo"
  claim := "healthy"
  value := .bool false
  source := "probe"
  confidence := 1
  id := "evidence-1"
  observedAt := 1000000
  domainName := "local"
  domainVersion := "1"
  postInit := by decide +kernel

def entityRun : List SessionCall := [seededStart "b", .seed "b" [] [⟨"repo", "service", ∅⟩]]

def entityMemory : Memory := (memoryMachine factSettings).state entityRun

def entitySession : SessionRuntimeState :=
  let task : Task := ⟨"look", ["healthy"], "task-1", .pending, 0⟩
  (startSession (initialAgentState "b" ⟨"inspect", [], "goal-1", .pending, 0⟩ task false none [task])
    factSettings.domains (TaskManager.ofRoot task "root") .fresh).1

end UniversalAgent.Runtime
