import UniversalAgent.Domain.Composition
import UniversalAgent.MultiAgent.Conflicts
import UniversalAgent.MultiAgent.ContractCodec

/-!
# MultiAgent — Merge

`AgentResultMerger` (`multi_agent/merge.py`): the results of several agents become one report. Which status
it has is decided by the first of several tests that applies; each asks of a list whether it is empty, so
none depends on an order. The report travels as a payload, and in it the results and the resolutions of
conflicts as theirs.
-/

namespace UniversalAgent.MultiAgent.Wire

open UniversalAgent.Core UniversalAgent.Foundation
open UniversalAgent.Domain (duplicateValues duplicateValues_eq_nil_iff)
open UniversalAgent.Persistence (DecodeError field fieldD readStr readBool readMapping readList readOptional
  readEnum writeOptional writeStrs)

inductive AgentResultMergeStatus where
  | completed | partly | failed | waiting | requiresReview
deriving DecidableEq, Repr

instance : StrEnum AgentResultMergeStatus where
  value
    | .completed => "completed" | .partly => "partial" | .failed => "failed" | .waiting => "waiting"
    | .requiresReview => "requires_review"
  members := [.completed, .partly, .failed, .waiting, .requiresReview]
  mem_members a := by cases a <;> simp
  value_injective a b := by cases a <;> cases b <;> simp

instance : StrEnum ConflictResolutionStatus where
  value
    | .noConflict => "no_conflict" | .selected => "selected" | .denied => "denied"
    | .requiresReview => "requires_review"
  members := [.noConflict, .selected, .denied, .requiresReview]
  mem_members a := by cases a <;> simp
  value_injective a b := by cases a <;> cases b <;> simp

structure AgentResultMergePolicy where
  expectedTaskIds : List AgentTaskId
  requireAllCompleted : Bool
  requireEvidenceForCompleted : Bool
  requireResolvedConflicts : Bool
  failOnDeniedConflicts : Bool
  allowWaiting : Bool
  expected_nodup : expectedTaskIds.Nodup
deriving DecidableEq

/-- `AgentResultMergePolicy()`. -/
def AgentResultMergePolicy.default : AgentResultMergePolicy :=
  ⟨[], true, true, true, true, false, List.nodup_nil⟩

structure AgentResultMerge where
  status : AgentResultMergeStatus
  results : List AgentTaskResult
  evidenceIds : List EvidenceId
  completedTaskIds : List AgentTaskId
  waitingTaskIds : List AgentTaskId
  failedTaskIds : List AgentTaskId
  missingTaskIds : List AgentTaskId
  missingEvidenceTaskIds : List AgentTaskId
  conflictResolutions : List ConflictResolution
  reason : String
deriving DecidableEq

def AgentResultMerge.passed (m : AgentResultMerge) : Bool := decide (m.status = .completed)

/-! ## Merging -/

def taskIdsWith (results : List AgentTaskResult) (picked : AgentTaskResult → Bool) : List AgentTaskId :=
  (results.filter picked).map fun r => r.taskId

def taskIdsWithStatus (results : List AgentTaskResult) (status : AgentTaskResultStatus) :
    List AgentTaskId :=
  taskIdsWith results fun r => decide (r.status = status)

/-- The status is among those that `merge` counts as failed. -/
def AgentTaskResult.isFailed (r : AgentTaskResult) : Bool :=
  decide (r.status = .failed ∨ r.status = .cancelled ∨ r.status = .rejected)

def AgentTaskResult.lacksEvidence (r : AgentTaskResult) : Bool :=
  decide (r.status = .completed ∧ r.evidenceIds = [])

def missingTaskIds (expected : List AgentTaskId) (results : List AgentTaskResult) : List AgentTaskId :=
  expected.filter fun id => decide (id ∉ results.map fun r => r.taskId)

def mergedEvidenceIds (results : List AgentTaskResult) (resolutions : List ConflictResolution) :
    List EvidenceId :=
  firsts id [] ((results.flatMap fun r => r.evidenceIds) ++
    resolutions.flatMap ConflictResolution.supportingEvidenceIds)

def mergeStatus (results : List AgentTaskResult) (resolutions : List ConflictResolution)
    (policy : AgentResultMergePolicy) (missing waiting failed missingEvidence : List AgentTaskId) :
    AgentResultMergeStatus × String :=
  let reviewConflicts := resolutions.filter fun c => decide (c.status = .requiresReview)
  let deniedConflicts := resolutions.filter fun c => decide (c.status = .denied)
  if policy.requireResolvedConflicts ∧ reviewConflicts ≠ [] then
    (.requiresReview, "one or more multi-agent conflicts require review")
  else if policy.failOnDeniedConflicts ∧ deniedConflicts ≠ [] then
    (.failed, "one or more multi-agent conflicts were denied")
  else if missing ≠ [] then (.waiting, "expected child agent results are missing")
  else if waiting ≠ [] ∧ ¬policy.allowWaiting then
    (.waiting, "one or more child agent results are waiting")
  else if failed ≠ [] ∧ policy.requireAllCompleted then
    (.failed, "one or more child agent results failed")
  else if policy.requireEvidenceForCompleted ∧ missingEvidence ≠ [] then
    (.partly, "one or more completed child agent results lack evidence handoff")
  else if failed ≠ [] then (.partly, "merged completed child results with failures")
  else if waiting ≠ [] then (.partly, "merged completed child results with waiting results")
  else if ∀ r ∈ results, r.status = .completed then (.completed, "all child agent results completed")
  else (.partly, "child agent results are partially mergeable")

/-- The report on results that are there and have ids of their own. -/
def mergeDistinct (results : List AgentTaskResult) (resolutions : List ConflictResolution)
    (policy : AgentResultMergePolicy) : AgentResultMerge :=
  let completed := taskIdsWithStatus results .completed
  let waiting := taskIdsWithStatus results .waiting
  let failed := taskIdsWith results AgentTaskResult.isFailed
  let missing := missingTaskIds policy.expectedTaskIds results
  let missingEvidence := taskIdsWith results AgentTaskResult.lacksEvidence
  let status := mergeStatus results resolutions policy missing waiting failed missingEvidence
  { status := status.1
    results := results
    evidenceIds := mergedEvidenceIds results resolutions
    completedTaskIds := completed
    waitingTaskIds := waiting
    failedTaskIds := failed
    missingTaskIds := missing
    missingEvidenceTaskIds := missingEvidence
    conflictResolutions := resolutions
    reason := status.2 }

def merge (results : List AgentTaskResult) (resolutions : List ConflictResolution)
    (policy : AgentResultMergePolicy) : Except WireError AgentResultMerge :=
  if results = [] then .error (.value "agent result merge requires results")
  else
    let duplicates := duplicateValues (results.map fun r => r.taskId)
    if duplicates ≠ [] then
      .error (.value ("duplicate agent task results: " ++ ", ".intercalate duplicates))
    else .ok (mergeDistinct results resolutions policy)

/-! ## Payloads -/

def conflictResolutionPayload (c : ConflictResolution) : JsonMapping :=
  [("resource_key", .str c.resourceKey), ("status", .str (StrEnum.value c.status)),
    ("selected_proposal_id", writeOptional .str c.selectedProposalId),
    ("rejected_proposal_ids", writeStrs c.rejectedProposalIds),
    ("review_proposal_ids", writeStrs c.reviewProposalIds),
    ("supporting_evidence_ids", writeStrs c.supportingEvidenceIds), ("reason", .str c.reason)]

/-- `_ConflictResolutionPayload`. -/
def readConflictResolution (v : Json) : Except DecodeError ConflictResolution := do
  pure
    { resourceKey := ← readStr (← field v "resource_key")
      status := ← readEnum (← field v "status")
      selectedProposalId := ← fieldD v "selected_proposal_id" (readOptional readStr) none
      rejectedProposalIds := ← fieldD v "rejected_proposal_ids" (readList readStr) []
      reviewProposalIds := ← fieldD v "review_proposal_ids" (readList readStr) []
      supportingEvidenceIds := ← fieldD v "supporting_evidence_ids" (readList readStr) []
      reason := ← fieldD v "reason" readStr "" }

def decodeConflictResolution (payload : JsonMapping) : Except WireError ConflictResolution :=
  parsed (readConflictResolution (.obj payload))

def agentResultMergePayload (m : AgentResultMerge) : JsonMapping :=
  [("status", .str (StrEnum.value m.status)), ("passed", .bool m.passed), ("reason", .str m.reason),
    ("evidence", writeStrs m.evidenceIds), ("completed_task_ids", writeStrs m.completedTaskIds),
    ("waiting_task_ids", writeStrs m.waitingTaskIds), ("failed_task_ids", writeStrs m.failedTaskIds),
    ("missing_task_ids", writeStrs m.missingTaskIds),
    ("missing_evidence_task_ids", writeStrs m.missingEvidenceTaskIds),
    ("results", .arr (m.results.map fun r => .obj (agentTaskResultPayload r))),
    ("conflict_resolutions",
      .arr (m.conflictResolutions.map fun c => .obj (conflictResolutionPayload c)))]

/-- What `_AgentResultMergePayload` reads. -/
structure MergePayload where
  status : AgentResultMergeStatus
  passed : Option Bool
  reason : String
  evidence : List String
  completedTaskIds : List String
  waitingTaskIds : List String
  failedTaskIds : List String
  missingTaskIds : List String
  missingEvidenceTaskIds : List String
  results : List JsonMapping
  conflictResolutions : List JsonMapping

/-- `_AgentResultMergePayload`. -/
def readMerge (v : Json) : Except DecodeError MergePayload := do
  pure
    { status := ← readEnum (← field v "status")
      passed := ← fieldD v "passed" (readOptional readBool) none
      reason := ← fieldD v "reason" readStr ""
      evidence := ← fieldD v "evidence" (readList readStr) []
      completedTaskIds := ← fieldD v "completed_task_ids" (readList readStr) []
      waitingTaskIds := ← fieldD v "waiting_task_ids" (readList readStr) []
      failedTaskIds := ← fieldD v "failed_task_ids" (readList readStr) []
      missingTaskIds := ← fieldD v "missing_task_ids" (readList readStr) []
      missingEvidenceTaskIds := ← fieldD v "missing_evidence_task_ids" (readList readStr) []
      results := ← fieldD v "results" (readList readMapping) []
      conflictResolutions := ← fieldD v "conflict_resolutions" (readList readMapping) [] }

def decodeAgentResultMerge (payload : JsonMapping) : Except WireError AgentResultMerge := do
  let p ← parsed (readMerge (.obj payload))
  let results ← p.results.mapM decodeAgentTaskResult
  let resolutions ← p.conflictResolutions.mapM decodeConflictResolution
  let merge : AgentResultMerge :=
    { status := p.status, results := results, evidenceIds := p.evidence
      completedTaskIds := p.completedTaskIds, waitingTaskIds := p.waitingTaskIds
      failedTaskIds := p.failedTaskIds, missingTaskIds := p.missingTaskIds
      missingEvidenceTaskIds := p.missingEvidenceTaskIds, conflictResolutions := resolutions
      reason := p.reason }
  if p.passed.any fun passed => decide (passed ≠ merge.passed) then
    .error (.value "agent result merge passed flag does not match status")
  else .ok merge

/-! ## The parts of the results -/

variable {results results' : List AgentTaskResult} {resolutions resolutions' : List ConflictResolution}
  {policy : AgentResultMergePolicy}

theorem taskIdsWith_eq_nil {picked : AgentTaskResult → Bool} :
    taskIdsWith results picked = [] ↔ ∀ r ∈ results, picked r = false := by
  simp [taskIdsWith, List.filter_eq_nil_iff]

theorem missingTaskIds_eq_nil {expected : List AgentTaskId} :
    missingTaskIds expected results = [] ↔ ∀ id ∈ expected, ∃ r ∈ results, r.taskId = id := by
  simp [missingTaskIds, List.filter_eq_nil_iff]

/-- A result is complete, waiting or failed, and only one of these. -/
theorem status_cases (r : AgentTaskResult) :
    (r.status = .completed ∧ r.status ≠ .waiting ∧ r.isFailed = false) ∨
      (r.status ≠ .completed ∧ r.status = .waiting ∧ r.isFailed = false) ∨
      (r.status ≠ .completed ∧ r.status ≠ .waiting ∧ r.isFailed = true) := by
  unfold AgentTaskResult.isFailed
  cases r.status <;> simp

theorem partition_results (results : List AgentTaskResult) :
    (taskIdsWithStatus results .completed ++ (taskIdsWithStatus results .waiting ++
      taskIdsWith results AgentTaskResult.isFailed)).Perm (results.map fun r => r.taskId) := by
  unfold taskIdsWithStatus taskIdsWith
  rw [← List.map_append, ← List.map_append]
  refine List.Perm.map _ ?_
  induction results with
  | nil => exact .nil
  | cons r results ih =>
    rcases status_cases r with ⟨hc, hw, hf⟩ | ⟨hc, hw, hf⟩ | ⟨hc, hw, hf⟩
    · rw [List.filter_cons_of_pos (by simp [hc]), List.filter_cons_of_neg (by simp [hw]),
        List.filter_cons_of_neg (by simp [hf])]
      exact ih.cons r
    · rw [List.filter_cons_of_neg (by simp [hc]), List.filter_cons_of_pos (by simp [hw]),
        List.filter_cons_of_neg (by simp [hf])]
      exact List.perm_middle.trans (ih.cons r)
    · rw [List.filter_cons_of_neg (by simp [hc]), List.filter_cons_of_neg (by simp [hw]),
        List.filter_cons_of_pos hf, ← List.append_assoc]
      refine List.perm_middle.trans (List.Perm.cons r ?_)
      rw [List.append_assoc]
      exact ih

theorem merge_eq_ok (hne : results ≠ []) (hids : (results.map fun r => r.taskId).Nodup) :
    merge results resolutions policy = .ok (mergeDistinct results resolutions policy) := by
  unfold merge
  rw [if_neg hne]
  exact if_neg (not_not.mpr (duplicateValues_eq_nil_iff.mpr hids))

/-! ## The status -/

/-- The merge is complete: every result is, and nothing that the policy asks for is missing or open. -/
structure Mergeable (results : List AgentTaskResult) (resolutions : List ConflictResolution)
    (policy : AgentResultMergePolicy) : Prop where
  completed : ∀ r ∈ results, r.status = .completed
  expected : ∀ id ∈ policy.expectedTaskIds, ∃ r ∈ results, r.taskId = id
  evidence : policy.requireEvidenceForCompleted = true → ∀ r ∈ results, r.evidenceIds ≠ []
  resolved : policy.requireResolvedConflicts = true → ∀ c ∈ resolutions, c.status ≠ .requiresReview
  allowed : policy.failOnDeniedConflicts = true → ∀ c ∈ resolutions, c.status ≠ .denied

theorem filter_status_eq_nil {status : ConflictResolutionStatus} :
    (resolutions.filter fun c => decide (c.status = status)) = [] ↔ ∀ c ∈ resolutions, c.status ≠ status := by
  simp [List.filter_eq_nil_iff]

theorem status_completed_iff :
    (mergeDistinct results resolutions policy).status = .completed ↔ Mergeable results resolutions policy := by
  change (mergeStatus _ _ _ _ _ _ _).1 = _ ↔ _
  unfold mergeStatus
  dsimp only
  constructor
  · intro h
    split_ifs at h with hreview hdenied hmissing hwaiting hfailed hevidence hfailed' hwaiting' hall
    refine ⟨hall, missingTaskIds_eq_nil.mp (not_not.mp hmissing), fun hrequired r hr hnone => ?_,
      fun hrequired => filter_status_eq_nil.mp ?_, fun hrequired => filter_status_eq_nil.mp ?_⟩
    · have hlacking := taskIdsWith_eq_nil.mp (not_not.mp fun hne => hevidence ⟨hrequired, hne⟩) r hr
      exact of_decide_eq_false hlacking ⟨hall r hr, hnone⟩
    · exact not_not.mp fun hne => hreview ⟨hrequired, hne⟩
    · exact not_not.mp fun hne => hdenied ⟨hrequired, hne⟩
  · rintro ⟨hall, hexpected, hevidence, hresolved, hallowed⟩
    have hwaiting : taskIdsWithStatus results .waiting = [] :=
      taskIdsWith_eq_nil.mpr fun r hr => by simp [hall r hr]
    have hfailed : taskIdsWith results AgentTaskResult.isFailed = [] :=
      taskIdsWith_eq_nil.mpr fun r hr => by simp [AgentTaskResult.isFailed, hall r hr]
    have hlacking : ¬((policy.requireEvidenceForCompleted : Prop) ∧
        taskIdsWith results AgentTaskResult.lacksEvidence ≠ []) := by
      rintro ⟨hrequired, hne⟩
      refine hne (taskIdsWith_eq_nil.mpr fun r hr => ?_)
      simp [AgentTaskResult.lacksEvidence, hevidence hrequired r hr]
    rw [if_neg fun h => h.2 (filter_status_eq_nil.mpr (hresolved h.1)),
      if_neg fun h => h.2 (filter_status_eq_nil.mpr (hallowed h.1)),
      if_neg (not_not.mpr (missingTaskIds_eq_nil.mpr hexpected)), if_neg fun h => h.1 hwaiting,
      if_neg fun h => h.1 hfailed, if_neg hlacking, if_neg (not_not.mpr hfailed),
      if_neg (not_not.mpr hwaiting), if_pos hall]

/-! ## Orders -/

theorem mem_mergedEvidenceIds {e : EvidenceId} : e ∈ mergedEvidenceIds results resolutions ↔
    (∃ r ∈ results, e ∈ r.evidenceIds) ∨ ∃ c ∈ resolutions, e ∈ c.supportingEvidenceIds := by
  rw [mergedEvidenceIds, ← List.mem_flatMap, ← List.mem_flatMap, ← List.mem_append]
  constructor
  · exact fun h => (@firsts_sublist _ _ _ id [] _).subset h
  · intro h
    obtain ⟨j, hj, hface, -⟩ := @exists_first _ _ _ id _ [] _
      (List.pairwise_of_forall (R := fun _ _ : EvidenceId => True) fun _ _ => trivial) e h List.not_mem_nil
    obtain rfl : j = e := hface
    exact hj

theorem nodup_mergedEvidenceIds : (mergedEvidenceIds results resolutions).Nodup := by
  have h := @nodup_firsts _ _ _ id [] ((results.flatMap fun r => r.evidenceIds) ++
    resolutions.flatMap ConflictResolution.supportingEvidenceIds)
  rwa [List.map_id] at h

/-- Of a list of ids, the tests ask only whether it is empty. -/
theorem mergeStatus_congr (hresults : results.Perm results') (hresolutions : resolutions.Perm resolutions') :
    (mergeDistinct results resolutions policy).status = (mergeDistinct results' resolutions' policy).status := by
  have hids : ∀ picked, taskIdsWith results picked = [] ↔ taskIdsWith results' picked = [] := by
    intro picked
    simp only [taskIdsWith_eq_nil, hresults.mem_iff]
  have hmissing : missingTaskIds policy.expectedTaskIds results = [] ↔
      missingTaskIds policy.expectedTaskIds results' = [] := by
    simp only [missingTaskIds_eq_nil, hresults.mem_iff]
  have hconflicts : ∀ status, (resolutions.filter fun c => decide (c.status = status)) = [] ↔
      (resolutions'.filter fun c => decide (c.status = status)) = [] := by
    intro status
    simp only [filter_status_eq_nil, hresolutions.mem_iff]
  change (mergeStatus _ _ _ _ _ _ _).1 = (mergeStatus _ _ _ _ _ _ _).1
  unfold mergeStatus taskIdsWithStatus
  simp only [ne_eq, hids, hmissing, hconflicts, hresults.mem_iff]

/-! ## The report is read back -/

theorem decodeConflictResolution_payload (c : ConflictResolution) :
    decodeConflictResolution (conflictResolutionPayload c) = .ok c := by
  have hread : readConflictResolution (.obj (conflictResolutionPayload c)) = .ok c := by
    simp [readConflictResolution, conflictResolutionPayload, field, fieldD, Json.field?, List.lookup, pure,
      Except.pure]
  rw [decodeConflictResolution, hread, parsed]

theorem readList_payloads {α : Type} (write : α → JsonMapping) (items : List α) :
    readList readMapping (.arr (items.map fun a => .obj (write a))) = .ok (items.map write) := by
  rw [readList, Except.mapM_eq_ok, List.forall₂_map_left_iff, List.forall₂_map_right_iff, List.forall₂_same]
  exact fun _ _ => rfl

namespace AgentResultMerge

def rounded (m : AgentResultMerge) : AgentResultMerge :=
  { m with results := m.results.map AgentTaskResult.rounded }

/-- `==` of reports. -/
def Same (a b : AgentResultMerge) : Prop :=
  List.Forall₂ AgentTaskResult.Same a.results b.results ∧ { a with results := b.results } = b

variable (m : AgentResultMerge)

theorem decode_payload : decodeAgentResultMerge (agentResultMergePayload m) = .ok m.rounded := by
  have hresults := readList_payloads agentTaskResultPayload m.results
  have hresolutions := readList_payloads conflictResolutionPayload m.conflictResolutions
  have hpassed : readOptional readBool (.bool m.passed) = .ok (some m.passed) := rfl
  have hread : readMerge (.obj (agentResultMergePayload m)) = .ok
      ⟨m.status, some m.passed, m.reason, m.evidenceIds, m.completedTaskIds, m.waitingTaskIds, m.failedTaskIds,
        m.missingTaskIds, m.missingEvidenceTaskIds, m.results.map agentTaskResultPayload,
        m.conflictResolutions.map conflictResolutionPayload⟩ := by
    simp [readMerge, agentResultMergePayload, field, fieldD, Json.field?, List.lookup, hresults, hresolutions,
      hpassed, pure, Except.pure]
  have hdecoded : (m.results.map agentTaskResultPayload).mapM decodeAgentTaskResult =
      .ok (m.results.map AgentTaskResult.rounded) := by
    rw [Except.mapM_eq_ok, List.forall₂_map_left_iff, List.forall₂_map_right_iff, List.forall₂_same]
    exact fun r _ => decodeAgentTaskResult_payload r
  have hresolved : (m.conflictResolutions.map conflictResolutionPayload).mapM decodeConflictResolution =
      .ok m.conflictResolutions := by
    rw [Except.mapM_eq_ok, List.forall₂_map_left_iff, List.forall₂_same]
    exact fun c _ => decodeConflictResolution_payload c
  unfold decodeAgentResultMerge
  rw [hread, parsed]
  simp only [Except.ok_bind, hdecoded, hresolved]
  exact if_neg (by simp [passed])

/-- It is equal to the report that was sent if every cost is a float. -/
theorem same_rounded_iff : m.Same m.rounded ↔ ∀ r ∈ m.results, r.usage.estimatedCost.IsFloat := by
  have hresults : List.Forall₂ AgentTaskResult.Same m.results m.rounded.results ↔
      ∀ r ∈ m.results, r.usage.estimatedCost.IsFloat := by
    rw [rounded, List.forall₂_map_right_iff, List.forall₂_same]
    exact forall₂_congr fun r _ => r.same_rounded_iff
  exact (and_iff_left rfl).trans hresults

end AgentResultMerge

/-! ## Merges -/

structure MergeExact (results : List AgentTaskResult) (resolutions : List ConflictResolution)
    (policy : AgentResultMergePolicy) (m : AgentResultMerge) : Prop where
  partition : (m.completedTaskIds ++ (m.waitingTaskIds ++ m.failedTaskIds)).Perm
    (results.map fun r => r.taskId)
  completed : m.status = .completed ↔ Mergeable results resolutions policy
  ordered : ∀ results' resolutions', results.Perm results' → resolutions.Perm resolutions' →
    ∃ m', merge results' resolutions' policy = .ok m' ∧ m'.status = m.status ∧
      ∀ e, e ∈ m'.evidenceIds ↔ e ∈ m.evidenceIds
  once : m.evidenceIds.Nodup
  evidence : ∀ e, e ∈ m.evidenceIds ↔
    (∃ r ∈ results, e ∈ r.evidenceIds) ∨ ∃ c ∈ resolutions, e ∈ c.supportingEvidenceIds

def costing (estimatedCost : Number) (h : (UsageFields.mk 1 0 0 estimatedCost "USD").postInit = .ok ()) :
    AgentTaskResult where
  taskId := "task-1"
  status := .completed
  result := []
  evidenceIds := ["evidence-1"]
  reason := ""
  sessionId := none
  errorCode := none
  apiVersion := agentTaskApiVersion
  usage := ⟨⟨1, 0, 0, estimatedCost, "USD"⟩, h⟩
  checked := by
    have hid : Text.isBlank "task-1" = false := by decide
    simp [ResultFields.postInit, checkFilled, hid, pure, Except.pure]

end UniversalAgent.MultiAgent.Wire
