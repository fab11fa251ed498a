import UniversalAgent.Core.Dictionaries
import UniversalAgent.Foundation.Except
import UniversalAgent.Runtime.Session

/-!
# State — Copy

What `copySession` keeps. A copy equals its original when the JSON values in it are ones that
JSON can hold and the three fields that the copy does not carry over have their defaults;
for the snapshots the runtime produces these are the only ways in which they can differ.
-/

namespace UniversalAgent.State

open UniversalAgent.Core UniversalAgent.Foundation UniversalAgent.Tasks UniversalAgent.Runtime

variable {s : SessionSnapshot} {tasks : TasksById} {values : JsonMapping}

/-! ## Values that JSON can hold -/

def goalPlain (goal : Goal) : Bool := goal.successCriteria.all fun c => c.expected.isPlain

def observationPlain (o : Observation) : Bool := Json.fieldsPlain o.data

def evaluationPlain (e : EvaluationResult) : Bool := Json.fieldsPlain e.matchedCriteria

def pendingActionPlain (a : PendingAction) : Bool := Json.fieldsPlain a.arguments

def statePlain (s : AgentState) : Bool :=
  goalPlain s.goal && Json.fieldsPlain s.satisfiedCriteria && s.observations.all observationPlain &&
    s.latestEvaluation.all evaluationPlain && s.pendingAction.all pendingActionPlain

def snapshotPlain (s : SessionSnapshot) : Bool :=
  statePlain s.state && s.evidence.all fun e => e.value.isPlain

/-- The fields that neither a copy nor the JSON form carries have their defaults. -/
def TotalsUnset (s : AgentState) : Prop :=
  s.cumulativeCostMicros = 0 ∧ s.cumulativeTokens = 0 ∧ s.isContinuation = false

instance (s : AgentState) : Decidable (TotalsUnset s) := inferInstanceAs (Decidable (_ ∧ _))

/-! ## The snapshots the runtime produces -/

/-- What the runtime hands to a store: the snapshot of a session it holds, or the one it rebuilds
from the state of a session it could not restore. -/
inductive Produced : SessionSnapshot → Prop
  | session (s : SessionRuntimeState) (store : Evidence.EvidenceStore) : Produced (s.snapshot store)
  | rejected (state : AgentState) (name version : String) (identities : List DomainIdentity)
      (v : Int) (h : state.tasks = [state.currentTask]) :
      Produced { sessionFromState state name version identities with version := v }

/-- The tasks of the state are those of the task graph, whose ids are distinct; the domains are
spelled out. -/
structure Coherent (s : SessionSnapshot) : Prop where
  ids_nodup : (taskIds s.taskGraph.nodes).Nodup
  current : s.state.currentTask ∈ s.taskGraph.nodes.map TaskNodeSnapshot.task
  tasks : ∀ t ∈ s.state.tasks, t ∈ s.taskGraph.nodes.map TaskNodeSnapshot.task
  domains : s.domains = s.domainIdentities

theorem Coherent.withVersion (h : Coherent s) (v : Int) :
    Coherent { s with version := v } := ⟨h.ids_nodup, h.current, h.tasks, h.domains⟩

theorem Produced.coherent (h : Produced s) : Coherent s := by
  cases h with
  | session s store =>
    exact
      { ids_nodup := s.tasks.ids_nodup
        current := s.tasks.current_mem_all
        tasks := fun t ht => ht
        domains := if_pos s.identities_ne }
  | rejected state name version identities v h =>
    refine ⟨by simp [sessionFromState, taskIds], by simp [sessionFromState], ?_, ?_⟩
    · simp [sessionFromState, h]
    · simp only [SessionSnapshot.domains, sessionFromState]
      split
      · rfl
      · exact ite_self _

/-! ## Copying tasks -/

theorem copyTasks_go (nodes : List TaskNodeSnapshot) (d : TasksById)
    (hn : (d.map Prod.fst ++ taskIds nodes).Nodup) :
    nodes.foldl (fun tasks node => dictSet tasks node.task.id node.task) d
      = d ++ nodes.map fun n => (n.task.id, n.task) := by
  induction nodes generalizing d with
  | nil => simp
  | cons n nodes ih =>
    have hd : n.task.id ∉ d.map Prod.fst := by
      intro hmem
      exact (List.nodup_append.mp hn).2.2 _ hmem _ (by simp [taskIds]) rfl
    rw [List.foldl_cons, dictSet_fresh hd, ih]
    · simp
    · simpa [taskIds, List.append_assoc] using hn

theorem lookup_copyTasks {nodes : List TaskNodeSnapshot} (hn : (taskIds nodes).Nodup) {t : Task}
    (ht : t ∈ nodes.map TaskNodeSnapshot.task) : (copyTasks nodes).lookup t.id = some t := by
  have he : copyTasks nodes = nodes.map fun n => (n.task.id, n.task) :=
    copyTasks_go nodes [] (by simpa using hn)
  rw [he]
  clear he
  induction nodes with
  | nil => simp at ht
  | cons n nodes ih =>
    simp only [List.map_cons, List.mem_cons] at ht
    have hn' : n.task.id ∉ taskIds nodes ∧ (taskIds nodes).Nodup := by simpa [taskIds] using hn
    rcases ht with rfl | ht
    · simp
    · have hne : t.id ≠ n.task.id := by
        intro h
        refine hn'.1 ?_
        rw [← h]
        obtain ⟨k, hk, rfl⟩ := List.mem_map.mp ht
        exact List.mem_map_of_mem (f := fun n : TaskNodeSnapshot => n.task.id) hk
      simp [List.lookup_cons, beq_eq_false_iff_ne.mpr hne, ih hn'.2 ht]

theorem copyNodes_eq_self {nodes : List TaskNodeSnapshot} (hn : (taskIds nodes).Nodup) :
    (nodes.map fun node =>
      { node with task := ((copyTasks nodes).lookup node.task.id).getD node.task }) = nodes := by
  conv_rhs => rw [← List.map_id nodes]
  refine List.map_congr_left fun n hmem => ?_
  rw [lookup_copyTasks hn (List.mem_map_of_mem hmem)]
  rfl

theorem resolveTask_of_lookup {t u : Task} (h : tasks.lookup t.id = some u) :
    resolveTask t tasks = (u, tasks) := by
  simp [resolveTask, h]

theorem resolveTasks_of_lookup {ts : List Task}
    (h : ∀ t ∈ ts, tasks.lookup t.id = some t) : resolveTasks ts tasks = (ts, tasks) := by
  induction ts with
  | nil => rfl
  | cons t ts ih =>
    have ht := h t List.mem_cons_self
    simp only [resolveTasks, resolveTask_of_lookup ht, ih fun u hu => h u (List.mem_cons_of_mem t hu)]

/-! ## Copying values -/

section Copy

variable (codec : JsonCodec)

/-- A mapping is copied item by item, as a dictionary of values is. -/
theorem copyMapping_eq_copyValues (values : JsonMapping) :
    copyMapping codec values = copyValues codec values := by
  rw [copyMapping, codec.toJsonValue_obj]
  cases h : copyValues codec values with
  | error e =>
    rw [copyValues] at h
    rw [h]
    rfl
  | ok copied =>
    rw [copyValues] at h
    rw [h]
    rfl

theorem copyValues_eq_self : copyValues codec values = .ok values ↔ Json.fieldsPlain values = true := by
  rw [copyValues, Except.mapM_eq_self, Json.fieldsPlain_eq_all, List.all_eq_true]
  refine forall₂_congr fun p _ => ?_
  rw [← codec.toJsonValue_eq_self]
  exact Except.bind_mk_eq_ok (fun v => (p.1, v)) Prod.snd (fun _ => rfl) rfl

theorem copyMapping_eq_self : copyMapping codec values = .ok values ↔ Json.fieldsPlain values = true := by
  rw [copyMapping_eq_copyValues, copyValues_eq_self]

theorem copyGoal_eq_self {goal : Goal} : copyGoal codec goal = .ok goal ↔ goalPlain goal = true := by
  have hc : goalPlain goal = true ↔
      (goal.successCriteria.mapM fun item => do
        pure (SuccessCriterion.mk item.key (← codec.toJsonValue item.expected)))
        = .ok goal.successCriteria := by
    rw [Except.mapM_eq_self, goalPlain, List.all_eq_true]
    refine forall₂_congr fun c _ => ?_
    rw [← codec.toJsonValue_eq_self]
    exact (Except.bind_mk_eq_ok (SuccessCriterion.mk c.key) SuccessCriterion.expected
      (fun _ => rfl) rfl).symm
  rw [hc]
  exact Except.bind_mk_eq_ok _ Goal.successCriteria (fun _ => rfl) rfl

theorem copyObservation_eq_self {o : Observation} :
    copyObservation codec o = .ok o ↔ observationPlain o = true := by
  rw [observationPlain, ← copyMapping_eq_self codec]
  exact Except.bind_mk_eq_ok _ Observation.data (fun _ => rfl) rfl

theorem copyEvaluation_eq_self {e : Option EvaluationResult} :
    copyEvaluation codec e = .ok e ↔ e.all evaluationPlain = true := by
  cases e with
  | none => simp [copyEvaluation, pure, Except.pure]
  | some e =>
    rw [Option.all_some, evaluationPlain, ← copyMapping_eq_self codec]
    exact Except.bind_mk_eq_ok _
      (fun r : Option EvaluationResult => (r.getD e).matchedCriteria) (fun _ => rfl) rfl

theorem copyPendingAction_eq_self {a : Option PendingAction} :
    copyPendingAction codec a = .ok a ↔ a.all pendingActionPlain = true := by
  cases a with
  | none => simp [copyPendingAction, pure, Except.pure]
  | some a =>
    rw [Option.all_some, pendingActionPlain, ← copyMapping_eq_self codec]
    exact Except.bind_mk_eq_ok _
      (fun r : Option PendingAction => (r.getD a).arguments) (fun _ => rfl) rfl

theorem copyEvidence_eq_self {e : Core.Evidence} : copyEvidence codec e = .ok e ↔ e.value.isPlain = true := by
  rw [← codec.toJsonValue_eq_self]
  exact Except.bind_mk_eq_ok _ Core.Evidence.value (fun _ => rfl) rfl

/-- A state is copied as it is when its tasks are in the table, its values are plain, and the
fields that the copy leaves out are unset. -/
theorem copyState_eq_self {s : AgentState}
    (hc : tasks.lookup s.currentTask.id = some s.currentTask)
    (ht : ∀ t ∈ s.tasks, tasks.lookup t.id = some t) :
    copyState codec s tasks = .ok s ↔ statePlain s = true ∧ TotalsUnset s := by
  have hs : statePlain s = true ↔ copyGoal codec s.goal = .ok s.goal ∧
      copyValues codec s.satisfiedCriteria = .ok s.satisfiedCriteria ∧
      s.observations.mapM (copyObservation codec) = .ok s.observations ∧
      copyEvaluation codec s.latestEvaluation = .ok s.latestEvaluation ∧
      copyPendingAction codec s.pendingAction = .ok s.pendingAction := by
    simp only [copyGoal_eq_self, copyValues_eq_self, Except.mapM_eq_self, copyObservation_eq_self,
      copyEvaluation_eq_self, copyPendingAction_eq_self, statePlain, Bool.and_eq_true,
      List.all_eq_true, and_assoc]
  simp only [hs, copyState, Except.bind_eq_ok, resolveTask_of_lookup hc, resolveTasks_of_lookup ht]
  constructor
  · rintro ⟨goal, hg, values, hv, observations, ho, evaluation, he, pending, hp, h⟩
    have h := Except.ok.inj h
    obtain rfl : goal = s.goal := congrArg AgentState.goal h
    obtain rfl : values = s.satisfiedCriteria := congrArg AgentState.satisfiedCriteria h
    obtain rfl : observations = s.observations := congrArg AgentState.observations h
    obtain rfl : evaluation = s.latestEvaluation := congrArg AgentState.latestEvaluation h
    obtain rfl : pending = s.pendingAction := congrArg AgentState.pendingAction h
    exact ⟨⟨hg, hv, ho, he, hp⟩, (congrArg AgentState.cumulativeCostMicros h).symm,
      (congrArg AgentState.cumulativeTokens h).symm, (congrArg AgentState.isContinuation h).symm⟩
  · rintro ⟨⟨hg, hv, ho, he, hp⟩, hcost, htokens, hcont⟩
    refine ⟨_, hg, _, hv, _, ho, _, he, _, hp, ?_⟩
    cases s
    cases hcost
    cases htokens
    cases hcont
    rfl

theorem copySession_eq_self (h : Coherent s) :
    copySession codec s = .ok s ↔ snapshotPlain s = true ∧ TotalsUnset s.state := by
  have hnodes := copyNodes_eq_self h.ids_nodup
  have hstate := copyState_eq_self codec (s := s.state) (lookup_copyTasks h.ids_nodup h.current)
    fun t ht => lookup_copyTasks h.ids_nodup (h.tasks t ht)
  have hev : s.evidence.mapM (copyEvidence codec) = .ok s.evidence ↔
      (s.evidence.all fun e => e.value.isPlain) = true := by
    simp only [Except.mapM_eq_self, copyEvidence_eq_self, List.all_eq_true]
  simp only [snapshotPlain, Bool.and_eq_true, copySession, Except.bind_eq_ok, hnodes, h.domains]
  constructor
  · rintro ⟨state, hs, evidence, he, hk⟩
    have hk := Except.ok.inj hk
    obtain rfl : state = s.state := congrArg SessionSnapshot.state hk
    obtain rfl : evidence = s.evidence := congrArg SessionSnapshot.evidence hk
    obtain ⟨hp, hz⟩ := hstate.mp hs
    exact ⟨⟨hp, hev.mp he⟩, hz⟩
  · rintro ⟨⟨hp, he⟩, hz⟩
    exact ⟨_, hstate.mpr ⟨hp, hz⟩, _, hev.mpr he, rfl⟩

/-! ## What a copy is -/

variable {values copied : JsonMapping} {s t : SessionSnapshot}

theorem copyValues_plain (h : copyValues codec values = .ok copied) : Json.fieldsPlain copied = true := by
  rw [Json.fieldsPlain_eq_all, List.all_eq_true]
  intro p hp
  obtain ⟨q, -, hq⟩ := Except.exists_of_mem_mapM h p hp
  obtain ⟨v, hv, hk⟩ := Except.bind_eq_ok.mp hq
  cases hk
  exact codec.isPlain_toJsonValue _ _ hv

theorem copyMapping_plain (h : copyMapping codec values = .ok copied) : Json.fieldsPlain copied = true :=
  copyValues_plain codec (copyMapping_eq_copyValues codec values ▸ h)

theorem copyGoal_plain {goal copied : Goal} (h : copyGoal codec goal = .ok copied) :
    goalPlain copied = true := by
  obtain ⟨criteria, hc, hk⟩ := Except.bind_eq_ok.mp h
  cases hk
  refine List.all_eq_true.mpr fun c hmem => ?_
  obtain ⟨d, -, hd⟩ := Except.exists_of_mem_mapM hc c hmem
  obtain ⟨v, hv, hk⟩ := Except.bind_eq_ok.mp hd
  cases hk
  exact codec.isPlain_toJsonValue _ _ hv

theorem copyObservation_plain {o copied : Observation}
    (h : copyObservation codec o = .ok copied) : observationPlain copied = true := by
  obtain ⟨data, hd, hk⟩ := Except.bind_eq_ok.mp h
  cases hk
  exact copyMapping_plain codec hd

def verdict (e : EvaluationResult) : EvaluationResult := { e with matchedCriteria := [] }

def withoutArguments (a : PendingAction) : PendingAction := { a with arguments := [] }

theorem copyEvaluation_spec {e copied : Option EvaluationResult}
    (h : copyEvaluation codec e = .ok copied) :
    copied.all evaluationPlain = true ∧ copied.map verdict = e.map verdict := by
  cases e with
  | none =>
    cases h
    exact ⟨rfl, rfl⟩
  | some e =>
    obtain ⟨matched, hm, hk⟩ := Except.bind_eq_ok.mp h
    cases hk
    exact ⟨copyMapping_plain codec hm, rfl⟩

theorem copyPendingAction_spec {a copied : Option PendingAction}
    (h : copyPendingAction codec a = .ok copied) :
    copied.all pendingActionPlain = true ∧ copied.map withoutArguments = a.map withoutArguments := by
  cases a with
  | none =>
    cases h
    exact ⟨rfl, rfl⟩
  | some a =>
    obtain ⟨arguments, hm, hk⟩ := Except.bind_eq_ok.mp h
    cases hk
    exact ⟨copyMapping_plain codec hm, rfl⟩

theorem copyEvidence_plain {e copied : Core.Evidence} (h : copyEvidence codec e = .ok copied) :
    copied.value.isPlain = true := by
  obtain ⟨v, hv, hk⟩ := Except.bind_eq_ok.mp h
  cases hk
  exact codec.isPlain_toJsonValue _ _ hv

/-- The copy of a state: plain, with the totals unset, and otherwise the same but for the JSON
values and the tasks. -/
structure CopiedState (s t : AgentState) : Prop where
  plain : statePlain t = true
  totals : TotalsUnset t
  verdict : t.latestEvaluation.map verdict = s.latestEvaluation.map verdict
  pending : t.pendingAction.map withoutArguments = s.pendingAction.map withoutArguments
  goal : t.goal = { s.goal with successCriteria := t.goal.successCriteria }
  fields : t =
    { s with
      goal := t.goal, currentTask := t.currentTask, satisfiedCriteria := t.satisfiedCriteria
      observations := t.observations, latestEvaluation := t.latestEvaluation
      pendingAction := t.pendingAction, tasks := t.tasks
      cumulativeCostMicros := 0, cumulativeTokens := 0, isContinuation := false }

theorem copyState_spec {s t : AgentState}
    (h : copyState codec s tasks = .ok t) :
    CopiedState s t ∧ t.currentTask = (resolveTask s.currentTask tasks).1 ∧
      t.tasks = (resolveTasks s.tasks (resolveTask s.currentTask tasks).2).1 := by
  simp only [copyState, Except.bind_eq_ok] at h
  obtain ⟨goal, hg, values, hv, observations, ho, evaluation, he, pending, hp, h⟩ := h
  cases h
  obtain ⟨hep, hev⟩ := copyEvaluation_spec codec he
  obtain ⟨hpp, hpv⟩ := copyPendingAction_spec codec hp
  have hobs : observations.all observationPlain = true := by
    refine List.all_eq_true.mpr fun o hmem => ?_
    obtain ⟨o', -, ho'⟩ := Except.exists_of_mem_mapM ho o hmem
    exact copyObservation_plain codec ho'
  refine ⟨⟨?_, ⟨rfl, rfl, rfl⟩, hev, hpv, ?_, rfl⟩, rfl, rfl⟩
  · simp only [statePlain, Bool.and_eq_true]
    exact ⟨⟨⟨⟨copyGoal_plain codec hg, copyValues_plain codec hv⟩, hobs⟩, hep⟩, hpp⟩
  · obtain ⟨criteria, -, hk⟩ := Except.bind_eq_ok.mp hg
    cases hk
    rfl

/-- Whatever a copy is made of, it is plain and has the totals unset. -/
theorem copySession_plain (h : copySession codec s = .ok t) :
    snapshotPlain t = true ∧ TotalsUnset t.state := by
  simp only [copySession, Except.bind_eq_ok] at h
  obtain ⟨state, hs, evidence, he, h⟩ := h
  cases h
  have hc := (copyState_spec codec hs).1
  have hev : (evidence.all fun e => e.value.isPlain) = true := by
    refine List.all_eq_true.mpr fun e hmem => ?_
    obtain ⟨e', -, he'⟩ := Except.exists_of_mem_mapM he e hmem
    exact copyEvidence_plain codec he'
  exact ⟨by simp only [snapshotPlain, Bool.and_eq_true]; exact ⟨hc.plain, hev⟩, hc.totals⟩

/-- The copy of a coherent snapshot: the same tasks and the same domains, the state copied. -/
theorem copySession_spec (hc : Coherent s)
    (h : copySession codec s = .ok t) :
    CopiedState s.state t.state ∧ Coherent t ∧ t.taskGraph = s.taskGraph ∧
      t.state.currentTask = s.state.currentTask ∧ t.state.tasks = s.state.tasks ∧
      t = { s with state := t.state, evidence := t.evidence } := by
  have hlookup := fun {u : Task} hu => lookup_copyTasks hc.ids_nodup (t := u) hu
  have hnodes := copyNodes_eq_self hc.ids_nodup
  simp only [copySession, Except.bind_eq_ok, hnodes, hc.domains] at h
  obtain ⟨state, hs, evidence, -, h⟩ := h
  cases h
  obtain ⟨hst, hcur, htasks⟩ := copyState_spec codec hs
  rw [resolveTask_of_lookup (hlookup hc.current)] at hcur htasks
  rw [resolveTasks_of_lookup fun u hu => hlookup (hc.tasks u hu)] at htasks
  refine ⟨hst, ⟨hc.ids_nodup, ?_, ?_, hc.domains⟩, rfl, hcur, htasks, rfl⟩
  · rw [hcur]
    exact hc.current
  · rw [htasks]
    exact hc.tasks

/-- Plain evidence is copied as it is, whatever becomes of the rest. -/
theorem copySession_evidence (h : copySession codec s = .ok t)
    (hp : ∀ e ∈ s.evidence, e.value.isPlain = true) : t.evidence = s.evidence := by
  simp only [copySession, Except.bind_eq_ok] at h
  obtain ⟨state, -, evidence, he, h⟩ := h
  cases h
  have hself : s.evidence.mapM (copyEvidence codec) = .ok s.evidence :=
    Except.mapM_eq_self.mpr fun e hmem => (copyEvidence_eq_self codec).mpr (hp e hmem)
  exact Except.ok.inj (he.symm.trans hself)

end Copy

end UniversalAgent.State
