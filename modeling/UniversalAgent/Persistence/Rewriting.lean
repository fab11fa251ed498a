import UniversalAgent.Persistence.Stores

/-!
# Persistence — Rewriting

The copy of a snapshot has the snapshot's own JSON form. So what was read from a document that a
store wrote can be written again, and the document is the same.
-/

namespace UniversalAgent.Persistence

open UniversalAgent.Core UniversalAgent.Foundation UniversalAgent.State UniversalAgent.Tasks

def SameForm {α β ε δ : Type} (copy : α → Except ε α) (encode : α → Except δ β) (a : α) : Prop :=
  ∀ b, copy a = .ok b → encode b = encode a

theorem SameForm.mapM {α β ε δ : Type} {copy : α → Except ε α} {encode : α → Except δ β}
    {xs : List α} (h : ∀ x ∈ xs, SameForm copy encode x) :
    SameForm (List.mapM copy) (List.mapM encode) xs := by
  induction xs with
  | nil =>
    intro ys hys
    cases hys
    rfl
  | cons x xs ih =>
    intro ys hys
    obtain ⟨y, ys', hy, hys'⟩ := List.forall₂_cons_left_iff.mp (Except.mapM_eq_ok.mp hys)
    have htail := ih (fun z hz => h z (List.mem_cons_of_mem x hz)) ys'
      (Except.mapM_eq_ok.mpr hys'.1)
    rw [hys'.2, List.mapM_cons, List.mapM_cons, h x List.mem_cons_self y hy, htail]

section Codec

variable (codec : JsonCodec) (iso : IsoFormat)

theorem toJsonValue_again {v w : Json} (h : codec.toJsonValue v = .ok w) :
    codec.toJsonValue w = .ok w :=
  codec.toJsonValue_plain w (codec.isPlain_toJsonValue v w h)

theorem writeMapping_again {values copied : JsonMapping}
    (h : copyMapping codec values = .ok copied) :
    writeMapping codec copied = writeMapping codec values := by
  have hw : codec.toJsonValue (.obj values) = .ok (.obj copied) :=
    (writeMapping_eq_ok codec).mpr ⟨copied, h, rfl⟩
  rw [writeMapping, writeMapping, hw, toJsonValue_again codec hw]

theorem criterion_sameForm (c : SuccessCriterion) :
    SameForm (fun item : SuccessCriterion => do
        pure (SuccessCriterion.mk item.key (← codec.toJsonValue item.expected)))
      (fun item => do
        let expected ← codec.toJsonValue item.expected
        pure (Json.obj [("key", .str item.key), ("expected", expected)])) c := by
  intro copied h
  obtain ⟨expected, he, hk⟩ := Except.bind_eq_ok.mp h
  cases hk
  simp only [he, toJsonValue_again codec he]

theorem goal_sameForm (goal : Goal) : SameForm (copyGoal codec) (encodeGoal codec iso) goal := by
  intro copied h
  obtain ⟨criteria, hc, hk⟩ := Except.bind_eq_ok.mp h
  cases hk
  have hforms := SameForm.mapM (fun c _ => criterion_sameForm codec c) criteria hc
  simp only [encodeGoal, hforms]

theorem observation_sameForm (o : Observation) :
    SameForm (copyObservation codec) (encodeObservation codec iso) o := by
  intro copied h
  obtain ⟨data, hd, hk⟩ := Except.bind_eq_ok.mp h
  cases hk
  simp only [encodeObservation, writeMapping_again codec hd]

theorem evaluation_sameForm (e : Option EvaluationResult) :
    SameForm (copyEvaluation codec) (Option.mapM (encodeEvaluation codec)) e := by
  intro copied h
  cases e with
  | none =>
    cases h
    rfl
  | some e =>
    obtain ⟨matched, hm, hk⟩ := Except.bind_eq_ok.mp h
    cases hk
    simp only [Option.mapM_some, encodeEvaluation, writeMapping_again codec hm]

theorem pendingAction_sameForm (a : Option PendingAction) :
    SameForm (copyPendingAction codec) (Option.mapM (encodePendingAction codec)) a := by
  intro copied h
  cases a with
  | none =>
    cases h
    rfl
  | some a =>
    obtain ⟨arguments, ha, hk⟩ := Except.bind_eq_ok.mp h
    cases hk
    simp only [Option.mapM_some, encodePendingAction, writeMapping_again codec ha]

theorem evidence_sameForm (e : Core.Evidence) :
    SameForm (copyEvidence codec) (encodeEvidence codec iso) e := by
  intro copied h
  obtain ⟨value, hv, hk⟩ := Except.bind_eq_ok.mp h
  cases hk
  simp only [encodeEvidence, hv, toJsonValue_again codec hv]

/-- A state whose tasks are those of the nodes has its copy's form. -/
theorem agentState_sameForm {s : AgentState} {nodes : List TaskNodeSnapshot}
    (hn : (taskIds nodes).Nodup) (hc : s.currentTask ∈ nodes.map TaskNodeSnapshot.task)
    (ht : ∀ t ∈ s.tasks, t ∈ nodes.map TaskNodeSnapshot.task) :
    SameForm (fun s => copyState codec s (copyTasks nodes)) (encodeAgentState codec iso) s := by
  intro copied h
  have hlc := lookup_copyTasks hn hc
  have hlt := fun t hmem => lookup_copyTasks hn (ht t hmem)
  simp only [copyState, Except.bind_eq_ok, resolveTask_of_lookup hlc,
    resolveTasks_of_lookup hlt] at h
  obtain ⟨goal, hg, values, hv, observations, ho, evaluation, he, pending, hp, hk⟩ := h
  cases hk
  rw [← copyMapping_eq_copyValues] at hv
  simp only [encodeAgentState, goal_sameForm codec iso s.goal goal hg,
    writeMapping_again codec hv,
    SameForm.mapM (fun o _ => observation_sameForm codec iso o) observations ho,
    evaluation_sameForm codec s.latestEvaluation evaluation he,
    pendingAction_sameForm codec s.pendingAction pending hp]

/-- **The copy of a coherent snapshot has its JSON form.** -/
theorem snapshot_sameForm {s : SessionSnapshot} (h : Coherent s) :
    SameForm (copySession codec) (encodeSessionSnapshot codec iso) s := by
  intro copied hcopy
  have hdomains := (copySession_same hcopy).2.2
  simp only [copySession, Except.bind_eq_ok, copyNodes_eq_self h.ids_nodup] at hcopy
  obtain ⟨state, hs, evidence, he, hk⟩ := hcopy
  cases hk
  have hstate := agentState_sameForm codec iso h.ids_nodup h.current h.tasks state hs
  have hevidence := SameForm.mapM (fun e _ => evidence_sameForm codec iso e) evidence he
  simp only [encodeSessionSnapshot, hstate, hevidence, hdomains]

/-- What a document was read as is written as that document. -/
theorem writeDocument_read {s t : SessionSnapshot} {d : Document} (hc : Coherent s)
    (hw : writeDocument codec iso s = .ok d) (hr : readDocument iso d = .ok t) :
    copySession codec s = .ok t ∧ Coherent t ∧ writeDocument codec iso t = .ok d := by
  obtain ⟨u, hu, hread⟩ := readDocument_write codec iso hc hw
  obtain rfl : u = t := Except.ok.inj (hread.symm.trans hr)
  refine ⟨hu, (copySession_spec codec hc hu).2.1, ?_⟩
  rw [writeDocument_eq_ok, snapshot_sameForm codec iso hc u hu]
  exact (writeDocument_eq_ok codec iso).mp hw

end Codec

end UniversalAgent.Persistence
