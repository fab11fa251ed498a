import UniversalAgent.Distributed.QueueCodec
import UniversalAgent.Persistence.Codec
import UniversalAgent.State.Copy

/-!
# Persistence — RoundTrip

What a session snapshot loses on its way through the JSON form. Each record is read back as it
was written when its JSON values are ones that JSON can hold; the session state alone has fields
that the form leaves out.
-/

namespace UniversalAgent.Persistence

open UniversalAgent.Core UniversalAgent.Foundation UniversalAgent.State UniversalAgent.Tasks

/-! ## Readers undo writers -/

@[simp] theorem readStr_str (s : String) : readStr (.str s) = .ok s := rfl

@[simp] theorem readInt_int (i : Int) : readInt (.int i) = .ok i := rfl

@[simp] theorem readBool_bool (b : Bool) : readBool (.bool b) = .ok b := rfl

@[simp] theorem readMapping_obj (fields : JsonMapping) : readMapping (.obj fields) = .ok fields :=
  rfl

variable {α : Type}

@[simp] theorem readEnum_value [StrEnum α] (a : α) : readEnum (.str (StrEnum.value a)) = .ok a := by
  simp [readEnum, pure, Except.pure]

theorem readList_map {read : Json → Except DecodeError α} {write : α → Json}
    {items : List α} (h : ∀ a ∈ items, read (write a) = .ok a) :
    readList read (.arr (items.map write)) = .ok items := by
  rw [readList, Except.mapM_eq_ok, List.forall₂_map_left_iff, List.forall₂_same]
  exact h

@[simp] theorem readList_strs (items : List String) :
    readList readStr (writeStrs items) = .ok items := readList_map fun _ _ => rfl

theorem readOptional_write {read : Json → Except DecodeError α} (write : α → Json)
    (h : ∀ a, read (write a) = .ok a) (hn : ∀ a, write a ≠ .null) (o : Option α) :
    readOptional read (writeOptional write o) = .ok o := by
  cases o with
  | none => rfl
  | some a =>
    rw [writeOptional, readOptional_present _ _ (hn a), h]
    rfl

@[simp] theorem readOptional_str (o : Option String) : readOptional readStr (writeOptional .str o) = .ok o :=
  readOptional_write Json.str (fun _ => rfl) (fun _ => Json.noConfusion) o

@[simp] theorem readOptional_enum [StrEnum α] (o : Option α) :
    readOptional readEnum (writeOptional (fun e => .str (StrEnum.value e)) o) = .ok o :=
  readOptional_write _ (fun a => readEnum_value a) (fun _ => Json.noConfusion) o

@[simp] theorem readDict_ints (items : List (String × Int)) :
    readDict readInt (.obj (items.map fun p => (p.1, .int p.2))) = .ok items := by
  rw [readDict, Except.mapM_eq_ok, List.forall₂_map_left_iff, List.forall₂_same]
  exact fun _ _ => rfl

theorem field_obj {fields : JsonMapping} {key : String} {v : Json}
    (h : fields.lookup key = some v) : field (.obj fields) key = .ok v := by
  simp [field, Json.field?, h]

theorem fieldD_obj {fields : JsonMapping} {key : String} {v : Json}
    {read : Json → Except DecodeError α} {d : α} (h : fields.lookup key = some v) :
    fieldD (.obj fields) key read d = read v := by
  simp [fieldD, Json.field?, h]

section Codec

variable (codec : JsonCodec) (iso : IsoFormat)

@[simp] theorem readInstant_write (name : String) (t : Instant) :
    readInstant iso name (writeInstant iso t) = .ok t := by
  simp [readInstant, writeInstant, iso.isoparse_isoformat, pure, Except.pure]

theorem writeMapping_eq_ok {values : JsonMapping} {v : Json} :
    writeMapping codec values = .ok v ↔
      ∃ copied, copyMapping codec values = .ok copied ∧ v = .obj copied := by
  have hw : writeMapping codec values = (copyValues codec values >>= fun copied =>
      pure (.obj copied)) := codec.toJsonValue_obj values
  rw [hw, copyMapping_eq_copyValues, Except.bind_eq_ok]
  refine exists_congr fun copied => and_congr_right fun _ => ?_
  constructor
  · intro h
    exact (Except.ok.inj h).symm
  · intro h
    exact congrArg Except.ok h.symm

/-! ## Records -/

theorem decode_task (t : Task) : decodeTask iso (encodeTask iso t) = .ok t := by
  simp [decodeTask, encodeTask, field, Json.field?, List.lookup, pure, Except.pure]

theorem criterion_readsAs (c : SuccessCriterion) :
    ReadsAs (fun item : SuccessCriterion => do
        pure (SuccessCriterion.mk item.key (← codec.toJsonValue item.expected)))
      (fun item => do
        let expected ← codec.toJsonValue item.expected
        pure (Json.obj [("key", .str item.key), ("expected", expected)]))
      (fun item => do
        pure (SuccessCriterion.mk (← readStr (← field item "key")) (← field item "expected"))) c := by
  constructor
  · intro t ht
    obtain ⟨expected, he, hk⟩ := Except.bind_eq_ok.mp ht
    cases hk
    exact ⟨_, by rw [he]; rfl, by simp [field, Json.field?, List.lookup, pure, Except.pure]⟩
  · intro v hv
    obtain ⟨expected, he, -⟩ := Except.bind_eq_ok.mp hv
    exact ⟨_, by rw [he]; rfl⟩

theorem goal_readsAs (goal : Goal) :
    ReadsAs (copyGoal codec) (encodeGoal codec iso) (decodeGoal iso) goal := by
  have hc := ReadsAs.mapM fun c (_ : c ∈ goal.successCriteria) => criterion_readsAs codec c
  constructor
  · intro t ht
    obtain ⟨criteria, hcopy, hk⟩ := Except.bind_eq_ok.mp ht
    cases hk
    obtain ⟨written, hw, hr⟩ := hc.read _ hcopy
    refine ⟨_, by rw [encodeGoal, hw]; rfl, ?_⟩
    simp [decodeGoal, field, Json.field?, List.lookup, readList, pure, Except.pure] at hr ⊢
    simp [hr]
  · intro v hv
    obtain ⟨written, hw, -⟩ := Except.bind_eq_ok.mp hv
    obtain ⟨criteria, hcopy⟩ := hc.copied _ hw
    exact ⟨_, by rw [copyGoal, hcopy]; rfl⟩

theorem observation_readsAs (o : Observation) :
    ReadsAs (copyObservation codec) (encodeObservation codec iso) (decodeObservation iso) o := by
  constructor
  · intro t ht
    obtain ⟨data, hd, hk⟩ := Except.bind_eq_ok.mp ht
    cases hk
    refine ⟨_, by
      rw [encodeObservation, (writeMapping_eq_ok codec).mpr ⟨data, hd, rfl⟩]; rfl, ?_⟩
    simp [decodeObservation, field, Json.field?, List.lookup, pure, Except.pure]
  · intro v hv
    obtain ⟨w, hw, -⟩ := Except.bind_eq_ok.mp hv
    obtain ⟨data, hd, -⟩ := (writeMapping_eq_ok codec).mp hw
    exact ⟨_, by rw [copyObservation, hd]; rfl⟩

/-- `_copy_evaluation` of a record that is there. -/
def copyPresentEvaluation (e : EvaluationResult) : Except JsonCodecError EvaluationResult := do
  pure { e with matchedCriteria := ← copyMapping codec e.matchedCriteria }

/-- `_copy_pending_action` of a record that is there. -/
def copyPresentAction (a : PendingAction) : Except JsonCodecError PendingAction := do
  pure { a with arguments := ← copyMapping codec a.arguments }

theorem evaluation_readsAs (e : EvaluationResult) :
    ReadsAs (copyPresentEvaluation codec) (encodeEvaluation codec) decodeEvaluation e := by
  constructor
  · intro t ht
    obtain ⟨matched, hm, hk⟩ := Except.bind_eq_ok.mp ht
    cases hk
    refine ⟨_, by
      rw [encodeEvaluation, (writeMapping_eq_ok codec).mpr ⟨matched, hm, rfl⟩]; rfl, ?_⟩
    simp [decodeEvaluation, field, Json.field?, List.lookup, pure, Except.pure]
  · intro v hv
    obtain ⟨w, hw, -⟩ := Except.bind_eq_ok.mp hv
    obtain ⟨matched, hm, -⟩ := (writeMapping_eq_ok codec).mp hw
    exact ⟨_, by rw [copyPresentEvaluation, hm]; rfl⟩

theorem pendingAction_readsAs (a : PendingAction) :
    ReadsAs (copyPresentAction codec) (encodePendingAction codec) decodePendingAction a := by
  constructor
  · intro t ht
    obtain ⟨arguments, hm, hk⟩ := Except.bind_eq_ok.mp ht
    cases hk
    refine ⟨_, by
      rw [encodePendingAction, (writeMapping_eq_ok codec).mpr ⟨arguments, hm, rfl⟩]; rfl, ?_⟩
    simp [decodePendingAction, field, fieldD, Json.field?, List.lookup, pure, Except.pure]
  · intro v hv
    obtain ⟨w, hw, -⟩ := Except.bind_eq_ok.mp hv
    obtain ⟨arguments, hm, -⟩ := (writeMapping_eq_ok codec).mp hw
    exact ⟨_, by rw [copyPresentAction, hm]; rfl⟩

theorem evidence_readsAs (e : Evidence) :
    ReadsAs (copyEvidence codec) (encodeEvidence codec iso) (decodeEvidence iso) e := by
  constructor
  · intro t ht
    obtain ⟨value, hv, hk⟩ := Except.bind_eq_ok.mp ht
    cases hk
    refine ⟨_, by rw [encodeEvidence, hv]; rfl, ?_⟩
    simp [decodeEvidence, makeEvidence, e.postInit, readFloat, field, fieldD, Json.field?,
      List.lookup]
  · intro v hv
    obtain ⟨value, hw, -⟩ := Except.bind_eq_ok.mp hv
    exact ⟨_, by rw [copyEvidence, hw]; rfl⟩

theorem decodeEvaluation_null (e : EvaluationResult) : decodeEvaluation .null ≠ .ok e := by
  intro h
  cases h

theorem decodePendingAction_null (a : PendingAction) : decodePendingAction .null ≠ .ok a := by
  intro h
  cases h

/-- A record that is there or not: the form of `none` is null, the form of a record is not. -/
theorem optional_readsAs {α : Type} {copy : α → Except JsonCodecError α}
    {encode : α → Except JsonCodecError Json} {decode : Json → Except DecodeError α}
    (hnull : ∀ a, decode .null ≠ .ok a) (h : ∀ a, ReadsAs copy encode decode a) (o : Option α) :
    (∀ t, o.mapM copy = .ok t →
        ∃ w, o.mapM encode = .ok w ∧ readOptional decode (w.getD .null) = .ok t) ∧
      ∀ w, o.mapM encode = .ok w → ∃ t, o.mapM copy = .ok t := by
  cases o with
  | none =>
    refine ⟨fun t ht => ⟨none, rfl, ?_⟩, fun w _ => ⟨none, rfl⟩⟩
    cases ht
    rfl
  | some a =>
    simp only [Option.mapM_some]
    constructor
    · intro t ht
      obtain ⟨b, hb, hk⟩ := Except.bind_eq_ok.mp ht
      cases hk
      obtain ⟨v, he, hd⟩ := (h a).read b hb
      have hv : v ≠ .null := by
        intro hv
        exact hnull b (hv ▸ hd)
      refine ⟨some v, by rw [he]; rfl, ?_⟩
      rw [Option.getD_some, readOptional_present _ _ hv, hd]
      rfl
    · intro w hw
      obtain ⟨v, hv, -⟩ := Except.bind_eq_ok.mp hw
      obtain ⟨b, hb⟩ := (h a).copied v hv
      exact ⟨some b, by rw [hb]; rfl⟩

theorem copyEvaluation_eq_mapM (e : Option EvaluationResult) :
    copyEvaluation codec e = e.mapM (copyPresentEvaluation codec) := by
  cases e with
  | none => rfl
  | some e =>
    rw [Option.mapM_some, copyEvaluation, copyPresentEvaluation]
    cases copyMapping codec e.matchedCriteria <;> rfl

theorem copyPendingAction_eq_mapM (a : Option PendingAction) :
    copyPendingAction codec a = a.mapM (copyPresentAction codec) := by
  cases a with
  | none => rfl
  | some a =>
    rw [Option.mapM_some, copyPendingAction, copyPresentAction]
    cases copyMapping codec a.arguments <;> rfl

/-! ## The task graph -/

theorem addNodes_nodup (done nodes : List TaskNodeSnapshot)
    (hn : (taskIds (done ++ nodes)).Nodup) : addNodes done nodes = .ok (done ++ nodes) := by
  induction nodes generalizing done with
  | nil => simp [addNodes]
  | cons n nodes ih =>
    have hnew : n.task.id ∉ done.map fun k => k.task.id := by
      intro hmem
      rw [taskIds, List.map_append] at hn
      exact (List.nodup_append.mp hn).2.2 _ hmem _ (by simp) rfl
    rw [addNodes, if_neg hnew, ih]
    · simp
    · simpa using hn

theorem decode_taskGraph {g : TaskGraphSnapshot} (hn : (taskIds g.nodes).Nodup) :
    decodeTaskGraph iso (encodeTaskGraph iso g) = .ok g := by
  have hnodes : readList (fun node => do
      pure
        { key := ← readStr (← field node "key")
          task := ← decodeTask iso (← field node "task")
          dependsOn := ← readList readStr (← field node "depends_on") : TaskNodeSnapshot })
      (.arr (g.nodes.map fun node => .obj
        [("key", .str node.key), ("task", encodeTask iso node.task),
          ("depends_on", writeStrs node.dependsOn)])) = .ok g.nodes := by
    refine readList_map fun n _ => ?_
    simp [field, Json.field?, List.lookup, decode_task, pure, Except.pure]
  have hadd := addNodes_nodup [] g.nodes hn
  rw [List.nil_append] at hadd
  simp [decodeTaskGraph, encodeTaskGraph, field, Json.field?, List.lookup] at hnodes ⊢
  simp only [hnodes, Except.ok_bind, hadd]

theorem taskById_mem {nodes : List TaskNodeSnapshot} (hn : (taskIds nodes).Nodup) {t : Task}
    (ht : t ∈ nodes.map TaskNodeSnapshot.task) : taskById nodes t.id = .ok t := by
  obtain ⟨n, hmem, rfl⟩ := List.mem_map.mp ht
  cases hf : nodes.find? fun k => k.task.id = n.task.id with
  | none =>
    have := List.find?_eq_none.mp hf n hmem
    simp at this
  | some k =>
    have hk : k.task.id = n.task.id := by simpa using List.find?_some hf
    rw [taskById, hf, List.inj_on_of_nodup_map hn (List.mem_of_find?_eq_some hf) hmem hk]

/-! ## The session state -/

/-- The JSON form of a state whose tasks are those of the nodes is read back as its copy. -/
theorem agentState_readsAs {s : AgentState} {nodes : List TaskNodeSnapshot}
    (hn : (taskIds nodes).Nodup) (hc : s.currentTask ∈ nodes.map TaskNodeSnapshot.task)
    (ht : ∀ t ∈ s.tasks, t ∈ nodes.map TaskNodeSnapshot.task) :
    ReadsAs (fun s => copyState codec s (copyTasks nodes)) (encodeAgentState codec iso)
      (fun v => decodeAgentState iso v nodes) s := by
  have hlc := lookup_copyTasks hn hc
  have hlt := fun t hmem => lookup_copyTasks hn (ht t hmem)
  have hobs := ReadsAs.mapM fun o (_ : o ∈ s.observations) => observation_readsAs codec iso o
  have heval := optional_readsAs decodeEvaluation_null (evaluation_readsAs codec) s.latestEvaluation
  have hpend :=
    optional_readsAs decodePendingAction_null (pendingAction_readsAs codec) s.pendingAction
  simp only [← copyEvaluation_eq_mapM, ← copyPendingAction_eq_mapM] at heval hpend
  have hids : readList readStr (.arr (s.tasks.map fun t => .str t.id))
      = .ok (s.tasks.map Task.id) := by
    rw [show (s.tasks.map fun t => Json.str t.id) = (s.tasks.map Task.id).map Json.str by
      rw [List.map_map]; rfl]
    exact readList_strs _
  have htasks : (s.tasks.map Task.id).mapM (taskById nodes) = .ok s.tasks := by
    rw [Except.mapM_eq_ok, List.forall₂_map_left_iff, List.forall₂_same]
    exact fun t hmem => taskById_mem hn (ht t hmem)
  constructor
  · intro t hcopy
    simp only [copyState, Except.bind_eq_ok, resolveTask_of_lookup hlc,
      resolveTasks_of_lookup hlt] at hcopy
    obtain ⟨goal, hg, values, hv, observations, ho, evaluation, he, pending, hp, hk⟩ := hcopy
    cases hk
    obtain ⟨goalForm, hgw, hgr⟩ := (goal_readsAs codec iso s.goal).read _ hg
    have hvw := (writeMapping_eq_ok codec).mpr
      ⟨values, by rw [copyMapping_eq_copyValues]; exact hv, rfl⟩
    obtain ⟨observationForms, how, hor⟩ := hobs.read _ ho
    obtain ⟨evaluationForm, hew, her⟩ := heval.1 _ he
    obtain ⟨pendingForm, hpw, hpr⟩ := hpend.1 _ hp
    have hread : readList (decodeObservation iso) (.arr observationForms) = .ok observations := hor
    refine ⟨_, by
      simp only [encodeAgentState, hgw, hvw, how, hew, hpw, Except.ok_bind]
      rfl, ?_⟩
    simp [decodeAgentState, field, fieldD, Json.field?, List.lookup, hids, hgr,
      taskById_mem hn hc, hread, her, hpr, htasks, pure, Except.pure]
  · intro v hv
    simp only [encodeAgentState, Except.bind_eq_ok] at hv
    obtain ⟨_, hg, _, hm, _, ho, _, he, _, hp, -⟩ := hv
    obtain ⟨_, hg'⟩ := (goal_readsAs codec iso s.goal).copied _ hg
    obtain ⟨values, hv', -⟩ := (writeMapping_eq_ok codec).mp hm
    rw [copyMapping_eq_copyValues] at hv'
    obtain ⟨_, ho'⟩ := hobs.copied _ ho
    obtain ⟨_, he'⟩ := heval.2 _ he
    obtain ⟨_, hp'⟩ := hpend.2 _ hp
    exact ⟨_, by simp only [copyState, hg', hv', ho', he', hp', Except.ok_bind]; rfl⟩

/-! ## The snapshot -/

@[simp] theorem decode_domainIdentity (i : DomainIdentity) :
    decodeDomainIdentity (encodeDomainIdentity i) = .ok i := by
  simp [decodeDomainIdentity, encodeDomainIdentity, field, Json.field?, List.lookup, pure,
    Except.pure]

theorem decode_domains (identities : List DomainIdentity) :
    readOptional (readList decodeDomainIdentity) (.arr (identities.map encodeDomainIdentity))
      = .ok (some identities) := by
  have hl : readList decodeDomainIdentity (.arr (identities.map encodeDomainIdentity))
      = .ok identities := readList_map fun i _ => decode_domainIdentity i
  simp [readOptional, hl, pure, Except.pure]

theorem decodeDomainIdentities_domains {s : SessionSnapshot} (h : s.domains = s.domainIdentities) :
    decodeDomainIdentities (some s.domains) s.domainName s.domainVersion = s.domainIdentities := by
  rw [h]
  cases hd : s.domainIdentities with
  | nil =>
    have hp : primaryDomain s.domainName s.domainVersion = [] := by
      rw [← hd, ← h, SessionSnapshot.domains, hd, if_neg (not_not.mpr rfl)]
    exact hp
  | cons i is => rfl

/-- **The JSON form of a snapshot is read back as its copy.** -/
theorem snapshot_readsAs {s : SessionSnapshot} (h : Coherent s) :
    ReadsAs (copySession codec) (encodeSessionSnapshot codec iso) (decodeSessionSnapshot iso) s := by
  have hst := agentState_readsAs codec iso h.ids_nodup h.current h.tasks
  have hev := ReadsAs.mapM fun e (_ : e ∈ s.evidence) => evidence_readsAs codec iso e
  constructor
  · intro t ht
    simp only [copySession, Except.bind_eq_ok, copyNodes_eq_self h.ids_nodup, h.domains] at ht
    obtain ⟨state, hs, evidence, he, hk⟩ := ht
    cases hk
    obtain ⟨stateForm, hsw, hsr⟩ := hst.read _ hs
    obtain ⟨evidenceForms, hew, her⟩ := hev.read _ he
    have hread : readList (decodeEvidence iso) (.arr evidenceForms) = .ok evidence := her
    refine ⟨_, by simp only [encodeSessionSnapshot, hsw, hew, Except.ok_bind]; rfl, ?_⟩
    simp [decodeSessionSnapshot, field, fieldD, Json.field?, List.lookup, schemaVersion,
      decode_taskGraph iso h.ids_nodup, hsr, hread, decode_domains,
      decodeDomainIdentities_domains h.domains, pure, Except.pure]
  · intro v hv
    simp only [encodeSessionSnapshot, Except.bind_eq_ok] at hv
    obtain ⟨_, hs, _, he, -⟩ := hv
    obtain ⟨_, hs'⟩ := hst.copied _ hs
    obtain ⟨_, he'⟩ := hev.copied _ he
    exact ⟨_, by simp only [copySession, hs', he', Except.ok_bind]; rfl⟩

/-- `decode_session_snapshot(encode_session_snapshot(snapshot))`, none where either raises. -/
def reread (s : SessionSnapshot) : Option SessionSnapshot :=
  (encodeSessionSnapshot codec iso s).toOption.bind fun v =>
    (decodeSessionSnapshot iso v).toOption

theorem reread_eq_some {s t : SessionSnapshot} (h : Coherent s) :
    reread codec iso s = some t ↔ copySession codec s = .ok t := by
  have hr := snapshot_readsAs codec iso h
  cases hcopy : copySession codec s with
  | ok u =>
    obtain ⟨v, he, hd⟩ := hr.read u hcopy
    simp [reread, he, hd, Except.toOption]
  | error e =>
    cases hv : encodeSessionSnapshot codec iso s with
    | error e' => simp [reread, hv, Except.toOption]
    | ok v =>
      obtain ⟨t', ht'⟩ := hr.copied v hv
      rw [hcopy] at ht'
      cases ht'

end Codec

/-! ## Two sessions -/

/-- The epoch and the instant half a minute after it in ISO format. -/
def epochIso : IsoFormat where
  isoformat := Distributed.epochCodec.isoformat
  isoparse := Distributed.epochCodec.parseDatetime
  isoparse_isoformat := Distributed.epochCodec.parse_isoformat

/-- A running session on one task, after one observation; `tokens` have been charged to it. -/
def startedSession (tokens : Int) (continuation : Bool) : Runtime.SessionRuntimeState where
  state :=
    { sessionId := "session-1"
      goal := ⟨"inspect", [⟨"healthy", .bool true⟩], "goal-1", .running, 0⟩
      currentTask := ⟨"look", ["healthy"], "task-1", .running, 0⟩
      readOnly := false
      iteration := 1
      satisfiedCriteria := []
      observations :=
        [⟨"observation-1", "action-1", "task-1", "probe", .succeeded, [("healthy", .bool true)],
          30000000, none, none⟩]
      latestEvaluation := some ⟨.incomplete, "wait", "criteria", [], false, false⟩
      pendingAction := none
      approvedFingerprints := []
      tasks := []
      recoveryAttempts := [("task-1:timeout:retry", 1)]
      terminationReason := none
      errorCode := none
      tenantId := none
      cumulativeCostMicros := 0
      cumulativeTokens := tokens
      isContinuation := continuation }
  tasks := TaskManager.ofRoot ⟨"look", ["healthy"], "task-1", .running, 0⟩ "root"
  domainName := "local"
  domainVersion := "1"
  domainIdentities := [⟨"local", "1"⟩]
  version := 3
  identities_ne := nofun

end UniversalAgent.Persistence
