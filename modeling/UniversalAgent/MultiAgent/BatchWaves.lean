import UniversalAgent.MultiAgent.Batch
import UniversalAgent.MultiAgent.OrchestratorSteps

/-!
# MultiAgent — BatchWaves

The loop of a batch, wave by wave. Before each iteration (`Idle`) the results are those of the
finished nodes of the sorter; while a wave is in progress (`Loop`) its tasks are those of the ready
specs whose dependencies are all completed, and the other ready specs are skipped. An iteration goes
from the first to the second, and what follows its `await` back, one round of the sorter on.
-/

namespace UniversalAgent.MultiAgent

open UniversalAgent.Core UniversalAgent.Foundation

variable {specs : List AgentDelegationSpec} {r : AgentTaskResult}

/-! ## Results of tasks -/

theorem executorFailed_ok (spec : AgentDelegationSpec) (e : AgentException) :
    ∃ r, executorFailed spec e = .returned r ∧ r.taskId = spec.taskId := by
  have hreason : Text.isBlank ("agent executor failed: " ++ e.className ++ ": " ++ e.text) = false :=
    isBlank_append (isBlank_append (isBlank_append (by decide)))
  obtain ⟨r, hr, hid, -⟩ := AgentTaskResult.make_unfinished [] [] none (some .unknownExecution) .none
    spec.request.id_filled (by decide : AgentTaskResultStatus.failed ≠ .completed) hreason
  refine ⟨r, ?_, hid⟩
  unfold executorFailed AgentTaskResult.unfinished
  have hmake : AgentTaskResult.make spec.taskId .failed [] []
      ("agent executor failed: " ++ e.className ++ ": " ++ e.text) none (some .unknownExecution) .none
      = .ok r := hr
  rw [hmake]

/-- An exception becomes a result of the spec's own task. -/
theorem delegateSpecWithTracking_raised (spec : AgentDelegationSpec) (e : AgentException) :
    ∃ r, delegateSpecWithTracking spec (.raised e) = .returned r ∧ r.taskId = spec.taskId := by
  unfold delegateSpecWithTracking delegateSpec
  by_cases hdelegation : e.isDelegationError = true
  · simp only [hdelegation, if_true]
    split
    · next e' he' =>
        split at he'
        · cases he'
        · exact executorFailed_ok spec e'
    · next other hother =>
        split at hother
        · next r hr => exact ⟨r, rfl, (AgentTaskResult.make_ok hr).1⟩
        · next e'' _ => exact absurd rfl (hother e'')
  · obtain ⟨r, hr, hid⟩ := executorFailed_ok spec e
    simp only [hdelegation, hr]
    exact ⟨r, rfl, hid⟩

/-! ## Well-formed batches -/

/-- The ids of the specs are distinct, their dependencies are among them, and there is no cycle. -/
structure WellFormed (specs : List AgentDelegationSpec) : Prop where
  ids : (specs.map AgentDelegationSpec.taskId).Nodup
  known : ∀ spec ∈ specs, ∀ dep ∈ spec.dependsOn, dep ∈ specs.map AgentDelegationSpec.taskId
  acyclic : (dependencyGraph specs).Acyclic

theorem duplicateIds_eq_nil (ids : List AgentTaskId) : duplicateIds ids = [] ↔ ids.Nodup := by
  unfold duplicateIds
  rw [← List.perm_nil, (List.perm_insertionSort _ _).congr_left, List.perm_nil,
    List.filter_eq_nil_iff, List.nodup_iff_count_le_one]
  constructor
  · intro h id
    by_cases hid : id ∈ ids
    · have hcount := h id (List.mem_eraseDups.mpr hid)
      simpa using hcount
    · rw [List.count_eq_zero_of_not_mem hid]
      exact Nat.zero_le 1
  · intro h id _
    have hcount := h id
    simpa using hcount

theorem delegationSorter_iff (specs : List AgentDelegationSpec) (s : TopologicalSorter AgentTaskId) :
    delegationSorter specs = .ok s ↔ WellFormed specs ∧ s = .start (dependencyGraph specs) := by
  have hmissing : (specs.flatMap AgentDelegationSpec.dependsOn).filter
      (fun id => decide (id ∉ specs.map AgentDelegationSpec.taskId)) = [] ↔
      ∀ spec ∈ specs, ∀ dep ∈ spec.dependsOn, dep ∈ specs.map AgentDelegationSpec.taskId := by
    rw [List.filter_eq_nil_iff]
    simp only [decide_eq_true_eq, not_not, List.mem_flatMap]
    exact ⟨fun h spec hspec dep hdep => h dep ⟨spec, hspec, hdep⟩,
      fun h dep ⟨spec, hspec, hdep⟩ => h spec hspec dep hdep⟩
  have hcycle := TopologicalSorter.hasCycle_iff (dependencyGraph specs)
  unfold delegationSorter
  simp only
  constructor
  · intro h
    split at h
    · cases h
    · next hids =>
        split at h
        · cases h
        · next hknown =>
            split at h
            · cases h
            · next hfree =>
                cases h
                exact ⟨⟨(duplicateIds_eq_nil _).mp (not_not.mp hids), hmissing.mp (not_not.mp hknown),
                  not_not.mp (mt hcycle.mpr hfree)⟩, rfl⟩
  · rintro ⟨⟨hids, hknown, hacyclic⟩, rfl⟩
    rw [if_neg (not_not.mpr ((duplicateIds_eq_nil _).mpr hids)),
      if_neg (not_not.mpr (hmissing.mpr hknown)), if_neg fun h => hcycle.mp h hacyclic]

theorem mem_dependencies {n dep : AgentTaskId} :
    dep ∈ (dependencyGraph specs).of n ↔ ∃ spec ∈ specs, spec.taskId = n ∧ dep ∈ spec.dependsOn := by
  rw [Predecessors.mem_of]
  unfold dependencyGraph
  constructor
  · rintro ⟨ps, hmem, hdep⟩
    obtain ⟨spec, hspec, heq⟩ := List.mem_map.mp hmem
    cases heq
    exact ⟨spec, hspec, rfl, hdep⟩
  · rintro ⟨spec, hspec, rfl, hdep⟩
    exact ⟨_, List.mem_map_of_mem hspec, hdep⟩

theorem WellFormed.mem_nodes (h : WellFormed specs)
    {n : AgentTaskId} :
    n ∈ (dependencyGraph specs).nodes ↔ n ∈ specs.map AgentDelegationSpec.taskId := by
  rw [Predecessors.mem_nodes]
  unfold dependencyGraph
  constructor
  · rintro ⟨row, hrow, hn⟩
    obtain ⟨spec, hspec, rfl⟩ := List.mem_map.mp hrow
    rcases hn with rfl | hn
    · exact List.mem_map_of_mem hspec
    · exact h.known spec hspec n hn
  · intro hn
    obtain ⟨spec, hspec, rfl⟩ := List.mem_map.mp hn
    exact ⟨_, List.mem_map_of_mem hspec, .inl rfl⟩

theorem WellFormed.eq_of_taskId (h : WellFormed specs)
    {spec spec' : AgentDelegationSpec} (hspec : spec ∈ specs) (hspec' : spec' ∈ specs)
    (heq : spec.taskId = spec'.taskId) : spec = spec' :=
  List.inj_on_of_nodup_map h.ids hspec hspec' heq

/-! ## Waves -/

structure Idle (R : TopologicalSorter AgentTaskId) (b : Batch) : Prop where
  between : R.Between
  graph : R.graph = dependencyGraph b.specs
  sorter : b.sorter = R
  results : ∀ id, (b.results.result? id).isSome ↔ id ∈ R.finished
  own : ∀ id r, b.results.result? id = some r → r.taskId = id
  skipped : ∀ spec ∈ b.specs, spec.taskId ∈ b.skipped ↔
    spec.taskId ∈ R.finished ∧ hasFailedDependency spec b.results = true
  rejected : ∀ id ∈ b.skipped, ∃ r, b.results.result? id = some r ∧ r.status = .rejected

structure Loop (R : TopologicalSorter AgentTaskId) (b : Batch) : Prop where
  between : R.Between
  graph : R.graph = dependencyGraph b.specs
  sorter : b.sorter = R.getReady.2
  ready : b.readyIds = R.ready
  results : ∀ id, (b.results.result? id).isSome ↔ id ∈ R.finished ∨ id ∈ R.ready ∧ id ∈ b.skipped
  own : ∀ id r, b.results.result? id = some r → r.taskId = id
  skipped : ∀ spec ∈ b.specs, spec.taskId ∈ b.skipped ↔
    (spec.taskId ∈ R.finished ∨ spec.taskId ∈ R.ready) ∧ hasFailedDependency spec b.results = true
  rejected : ∀ id ∈ b.skipped, ∃ r, b.results.result? id = some r ∧ r.status = .rejected
  tasks : b.tasks.map SpecTask.spec =
    (R.ready.filterMap b.specOf).filter fun spec => !hasFailedDependency spec b.results

section Waves

variable {R : TopologicalSorter AgentTaskId} {specs : List AgentDelegationSpec}

variable {spec : AgentDelegationSpec} {id : AgentTaskId} {results : BatchResults} {b : Batch}
  {ordered : List AgentTaskResult}

theorem deps_finished (hbetween : R.Between) (hgraph : R.graph = dependencyGraph specs)
    (hspec : spec ∈ specs)
    (h : spec.taskId ∈ R.finished ∨ spec.taskId ∈ R.ready) :
    ∀ dep ∈ spec.dependsOn, dep ∈ R.finished := by
  intro dep hdep
  have hof : dep ∈ R.graph.of spec.taskId := by
    rw [hgraph]
    exact mem_dependencies.mpr ⟨spec, hspec, rfl, hdep⟩
  rcases h with hfinished | hready
  · obtain ⟨before, after, hsplit⟩ := List.append_of_mem hfinished
    rw [hsplit]
    exact List.mem_append_left _ (hbetween.after before _ after hsplit dep hof)
  · exact ((hbetween.sound.mem_ready _).mp hready).2.2 dep hof

theorem ready_not_finished (hbetween : R.Between) (h : id ∈ R.ready) : id ∉ R.finished := by
  rw [← hbetween.settled]
  exact ((hbetween.sound.mem_ready id).mp h).2.1

theorem hasFailedDependency_congr {results results' : BatchResults}
    (h : ∀ dep ∈ spec.dependsOn, results.result? dep = results'.result? dep) :
    hasFailedDependency spec results = hasFailedDependency spec results' := by
  unfold hasFailedDependency failedDependencies
  rw [List.filter_congr fun dep hdep => by rw [h dep hdep]]

theorem hasFailedDependency_iff :
    hasFailedDependency spec results = true ↔
      ∃ dep ∈ spec.dependsOn, ∃ r, results.result? dep = some r ∧ r.status ≠ .completed := by
  unfold hasFailedDependency failedDependencies
  rw [Bool.not_eq_true', List.isEmpty_eq_false_iff_exists_mem]
  refine exists_congr fun dep => ?_
  rw [List.mem_filter]
  refine and_congr_right fun _ => ?_
  cases results.result? dep <;> simp

theorem result?_put (results : BatchResults) (id : AgentTaskId) (r : AgentTaskResult)
    (id' : AgentTaskId) :
    BatchResults.result? (results.put (id, r)) id' = if id' = id then some r else results.result? id' := by
  unfold BatchResults.result?
  rw [Table.get?_put]
  split <;> rfl

/-! ## Skipping -/

theorem skip_ok (b : Batch) (spec : AgentDelegationSpec) :
    ∃ r, b.skip spec = .ok { b with
        skipped := b.skipped ++ [spec.taskId]
        results := b.results.put (spec.taskId, r) } ∧
      r.taskId = spec.taskId ∧ r.status = .rejected := by
  have hreason : Text.isBlank ("dependency did not complete: "
      ++ formatTaskIds (failedDependencies spec b.results)) = false := isBlank_append (by decide)
  obtain ⟨r, hr, hid, hstatus⟩ := AgentTaskResult.make_unfinished [] [] none (some .invalidState) .none
    spec.request.id_filled (by decide : AgentTaskResultStatus.rejected ≠ .completed) hreason
  refine ⟨r, ?_, hid, hstatus⟩
  unfold Batch.skip rejectedAgentTaskResult AgentTaskResult.unfinished
  rw [hr]

/-- Skipping specs gives each a rejected result, and touches no other. -/
theorem skip_all (b : Batch) (L : List AgentDelegationSpec) :
    ∃ b', L.foldlM Batch.skip b = .ok b' ∧ b'.specs = b.specs ∧ b'.ended = b.ended ∧
      b'.skipped = b.skipped ++ L.map AgentDelegationSpec.taskId ∧
      (∀ id ∉ L.map AgentDelegationSpec.taskId,
        b'.results.result? id = b.results.result? id) ∧
      ∀ id ∈ L.map AgentDelegationSpec.taskId,
        ∃ r, b'.results.result? id = some r ∧ r.taskId = id ∧ r.status = .rejected := by
  induction L generalizing b with
  | nil => exact ⟨b, rfl, rfl, rfl, (List.append_nil _).symm, fun _ _ => rfl, fun _ h => nomatch h⟩
  | cons spec L ih =>
    obtain ⟨r, hskip, hid, hstatus⟩ := skip_ok b spec
    obtain ⟨b', hfold, hspecs, hended, hskipped, hother, hown⟩ := ih { b with
      skipped := b.skipped ++ [spec.taskId]
      results := b.results.put (spec.taskId, r) }
    refine ⟨b', ?_, hspecs, hended, ?_, fun id hid' => ?_, fun id hid' => ?_⟩
    · rw [List.foldlM_cons, hskip]
      exact hfold
    · rw [hskipped, List.append_assoc]
      rfl
    · rw [List.map_cons, List.mem_cons, not_or] at hid'
      rw [hother id hid'.2, result?_put, if_neg hid'.1]
    · by_cases hmem : id ∈ L.map AgentDelegationSpec.taskId
      · exact hown id hmem
      · have heq : id = spec.taskId := (List.mem_cons.mp hid').resolve_right hmem
        refine ⟨r, ?_, hid.trans heq.symm, hstatus⟩
        rw [hother id hmem, result?_put, if_pos heq]

theorem specOf_eq_some (hwf : WellFormed b.specs)
    :
    b.specOf id = some spec ↔ spec ∈ b.specs ∧ spec.taskId = id := by
  unfold Batch.specOf
  constructor
  · intro h
    exact ⟨List.mem_of_find?_eq_some h, by simpa using List.find?_some h⟩
  · rintro ⟨hspec, rfl⟩
    cases hfind : b.specs.find? fun spec' => decide (spec'.taskId = spec.taskId) with
    | none =>
      have hne := List.find?_eq_none.mp hfind spec hspec
      simp at hne
    | some spec' =>
      have heq : spec'.taskId = spec.taskId := by simpa using List.find?_some hfind
      rw [hwf.eq_of_taskId (List.mem_of_find?_eq_some hfind) hspec heq]

theorem mem_readySpecs (hwf : WellFormed b.specs) :
    spec ∈ R.ready.filterMap b.specOf ↔ spec ∈ b.specs ∧ spec.taskId ∈ R.ready := by
  rw [List.mem_filterMap]
  constructor
  · rintro ⟨id, hid, hspec⟩
    obtain ⟨hmem, rfl⟩ := (specOf_eq_some hwf).mp hspec
    exact ⟨hmem, hid⟩
  · rintro ⟨hmem, hid⟩
    exact ⟨spec.taskId, hid, (specOf_eq_some hwf).mpr ⟨hmem, rfl⟩⟩

/-! ## Iterations -/

/-- While there is something ready, an iteration begins a wave. -/
theorem Idle.iterate_active (h : Idle R b) (hwf : WellFormed b.specs)
    (hended : b.ended = none) (hready : R.ready ≠ []) :
    Loop R b.iterate ∧ b.iterate.specs = b.specs ∧ b.iterate.ended = none ∧
      (∀ t ∈ b.iterate.tasks, t.state = .waiting) ∧
      ∀ id ∉ R.ready, b.iterate.results.result? id = b.results.result? id := by
  obtain ⟨b', hfold, hspecs, hended', hskipped, hother, hown⟩ := skip_all b
    ((R.ready.filterMap b.specOf).filter fun spec => hasFailedDependency spec b.results)
  generalize hL : ((R.ready.filterMap b.specOf).filter fun spec =>
    hasFailedDependency spec b.results) = L at hfold hskipped hother hown
  have hmemL : ∀ spec, spec ∈ L ↔ (spec ∈ b.specs ∧ spec.taskId ∈ R.ready) ∧
      hasFailedDependency spec b.results = true := by
    intro spec
    rw [← hL, List.mem_filter, mem_readySpecs hwf]
  have hreadyL : ∀ id ∈ L.map AgentDelegationSpec.taskId, id ∈ R.ready := by
    intro id hid
    obtain ⟨spec, hspec, rfl⟩ := List.mem_map.mp hid
    exact ((hmemL spec).mp hspec).1.2
  -- the dependencies of the wave are finished, so their results are not touched
  have hsame : ∀ spec ∈ b.specs, spec.taskId ∈ R.finished ∨ spec.taskId ∈ R.ready →
      hasFailedDependency spec b'.results = hasFailedDependency spec b.results := by
    intro spec hspec hid
    refine hasFailedDependency_congr fun dep hdep => hother dep fun hmem => ?_
    exact ready_not_finished h.between (hreadyL dep hmem)
      (deps_finished h.between h.graph hspec hid dep hdep)
  have hiterate : b.iterate = { b' with
      sorter := R.getReady.2
      readyIds := R.ready
      tasks := ((R.ready.filterMap b.specOf).filter fun spec =>
        !hasFailedDependency spec b.results).map fun spec => ⟨spec, .waiting⟩ } := by
    have hactive : b.sorter.isActive = true := by
      rw [h.sorter]
      exact h.between.isActive_iff.mpr hready
    have hfst : R.getReady.1 = R.ready := rfl
    unfold Batch.iterate
    rw [if_pos hactive]
    simp only [h.sorter, hfst, hready, if_false, hL, hfold]
  rw [hiterate]
  refine ⟨⟨h.between, by rw [hspecs]; exact h.graph, rfl, rfl, fun id => ?_, fun id r hr => ?_,
    fun spec hspec => ?_, fun id hid => ?_, ?_⟩, hspecs, by rw [hended', hended], ?_,
    fun id hid => hother id fun hmem => hid (hreadyL id hmem)⟩
  · by_cases hid : id ∈ L.map AgentDelegationSpec.taskId
    · obtain ⟨r, hr, -⟩ := hown id hid
      refine iff_of_true (by rw [hr]; rfl) (.inr ⟨hreadyL id hid, ?_⟩)
      rw [hskipped]
      exact List.mem_append_right _ hid
    · rw [hother id hid, h.results]
      refine ⟨.inl, fun hor => hor.elim (fun hf => hf) fun hskip => ?_⟩
      have hmem := hskip.2
      rw [hskipped, List.mem_append] at hmem
      obtain ⟨r, hr, -⟩ := h.rejected id (hmem.resolve_right hid)
      exact (h.results id).mp (by rw [hr]; rfl)
  · by_cases hid : id ∈ L.map AgentDelegationSpec.taskId
    · obtain ⟨r', hr', htask, -⟩ := hown id hid
      rw [hr'] at hr
      cases hr
      exact htask
    · rw [hother id hid] at hr
      exact h.own id r hr
  · rw [hspecs] at hspec
    have hinL : spec.taskId ∈ L.map AgentDelegationSpec.taskId ↔
        spec.taskId ∈ R.ready ∧ hasFailedDependency spec b.results = true := by
      constructor
      · intro hmem
        obtain ⟨spec', hspec', heq⟩ := List.mem_map.mp hmem
        obtain ⟨⟨hmem', hready'⟩, hfailed⟩ := (hmemL spec').mp hspec'
        rw [hwf.eq_of_taskId hmem' hspec heq] at hready' hfailed
        exact ⟨hready', hfailed⟩
      · exact fun hready' => List.mem_map_of_mem ((hmemL spec).mpr ⟨⟨hspec, hready'.1⟩, hready'.2⟩)
    rw [hskipped, List.mem_append, h.skipped spec hspec, hinL, ← or_and_right]
    exact and_congr_right fun hid => by rw [hsame spec hspec hid]
  · by_cases hid' : id ∈ L.map AgentDelegationSpec.taskId
    · obtain ⟨r, hr, -, hstatus⟩ := hown id hid'
      exact ⟨r, hr, hstatus⟩
    · rw [hother id hid']
      rw [hskipped, List.mem_append] at hid
      exact h.rejected id (hid.resolve_right hid')
  · have hspecOf : Batch.specOf { b' with
        sorter := R.getReady.2
        readyIds := R.ready
        tasks := ((R.ready.filterMap b.specOf).filter fun spec =>
          !hasFailedDependency spec b.results).map fun spec => ⟨spec, .waiting⟩ } = b.specOf := by
      unfold Batch.specOf
      rw [hspecs]
    rw [hspecOf, List.map_map]
    refine (List.map_id _).trans (List.filter_congr fun spec hspec => ?_)
    obtain ⟨hmem, hid⟩ := (mem_readySpecs hwf).mp hspec
    rw [hsame spec hmem (.inr hid)]
  · intro t ht
    obtain ⟨spec, -, rfl⟩ := List.mem_map.mp ht
    rfl

structure Answered (b : Batch) (result : AgentDelegationBatchResult) : Prop where
  results : List.Forall₂ (fun spec r => b.results.result? spec.taskId = some r) b.specs result.results
  skipped : result.skippedTaskIds = b.skipped
  status : result.status = batchStatus result.results

theorem mem_results
    (h : List.Forall₂ (fun spec r => results.result? spec.taskId = some r) specs ordered)
    :
    r ∈ ordered ↔ ∃ spec ∈ specs, results.result? spec.taskId = some r := by
  induction h with
  | nil => simp
  | @cons spec r' specs ordered hr _ ih =>
    simp only [List.mem_cons, ih, exists_eq_or_imp, hr, Option.some.injEq]
    exact or_congr_left eq_comm

theorem isSome_of_results
    (h : List.Forall₂ (fun spec r => results.result? spec.taskId = some r) specs ordered)
    (hspec : spec ∈ specs) :
    (results.result? spec.taskId).isSome := by
  induction h with
  | nil => cases hspec
  | cons hr _ ih =>
    rcases List.mem_cons.mp hspec with rfl | hspec
    · rw [hr]
      rfl
    · exact ih hspec

theorem mapM_result (results : BatchResults)
    (h : ∀ spec ∈ specs, (results.result? spec.taskId).isSome) :
    ∃ ordered, (specs.mapM fun spec => results.result? spec.taskId) = some ordered ∧
      List.Forall₂ (fun spec r => results.result? spec.taskId = some r) specs ordered := by
  induction specs with
  | nil => exact ⟨[], rfl, .nil⟩
  | cons spec specs ih =>
    obtain ⟨r, hr⟩ := Option.isSome_iff_exists.mp (h spec List.mem_cons_self)
    obtain ⟨ordered, hmap, hall⟩ := ih fun spec' hspec' => h spec' (List.mem_cons_of_mem _ hspec')
    refine ⟨r :: ordered, ?_, .cons hr hall⟩
    rw [List.mapM_cons, hr, hmap]
    rfl

/-- Once nothing is ready, all specs are finished and the loop returns. -/
theorem Idle.iterate_done (h : Idle R b) (hwf : WellFormed b.specs)
    (hready : R.ready = []) :
    Loop R b.iterate ∧ b.iterate.specs = b.specs ∧ b.iterate.tasks = [] ∧
      b.iterate.results = b.results ∧ ∃ result, b.iterate.ended = some (.returned result) ∧ Answered b.iterate result := by
  have hall : ∀ spec ∈ b.specs, (b.results.result? spec.taskId).isSome := by
    intro spec hspec
    rw [h.results]
    by_contra hunfinished
    refine h.between.ready_ne_nil (h.graph ▸ hwf.acyclic) (a := spec.taskId) ?_ hunfinished hready
    rw [h.graph]
    exact hwf.mem_nodes.mpr (List.mem_map_of_mem hspec)
  obtain ⟨ordered, hmap, hordered⟩ := mapM_result b.results hall
  have hiterate : b.iterate = { b with
      readyIds := []
      tasks := []
      ended := some (.returned ⟨batchStatus ordered, ordered, b.skipped,
        batchReason (batchStatus ordered)⟩) } := by
    have hactive : b.sorter.isActive = false := by
      rw [h.sorter, Bool.eq_false_iff, ne_eq, h.between.isActive_iff, not_not]
      exact hready
    unfold Batch.iterate
    rw [if_neg (by simp [hactive])]
    simp only [Batch.finish, hmap]
  have hsorter : R = R.getReady.2 := by
    obtain ⟨graph, ready, passedOut, finished⟩ := R
    cases hready
    simp [TopologicalSorter.getReady]
  rw [hiterate]
  refine ⟨⟨h.between, h.graph, h.sorter.trans hsorter, hready.symm, fun id => ?_, h.own,
    fun spec hspec => ?_, h.rejected, ?_⟩, rfl, rfl, rfl, _, rfl, hordered, rfl, rfl⟩
  · rw [h.results id, hready]
    simp
  · rw [h.skipped spec hspec, hready]
    simp
  · rw [hready]
    rfl

/-! ## The end of a wave -/

theorem result?_record (results : BatchResults) (t : SpecTask) (id : AgentTaskId) :
    BatchResults.result? (Batch.record results t) id =
      match t.state with
      | .done r => if id = t.spec.taskId then some r else results.result? id
      | _ => results.result? id := by
  unfold Batch.record
  cases t.state with
  | done r => exact result?_put _ _ _ _
  | _ => rfl

theorem record_all (results : BatchResults) {tasks : List SpecTask}
    (hnodup : (tasks.map fun t => t.spec.taskId).Nodup)
    (hdone : ∀ t ∈ tasks, ∃ r, t.state = .done r) :
    (∀ id ∉ tasks.map fun t => t.spec.taskId,
      BatchResults.result? (tasks.foldl Batch.record results) id = results.result? id) ∧
    ∀ t ∈ tasks, ∀ r, t.state = .done r →
      BatchResults.result? (tasks.foldl Batch.record results) t.spec.taskId = some r := by
  induction tasks generalizing results with
  | nil => exact ⟨fun _ _ => rfl, fun t ht => nomatch ht⟩
  | cons t ts ih =>
    obtain ⟨hfirst, hrest⟩ := List.nodup_cons.mp hnodup
    obtain ⟨hother, hown⟩ := ih (Batch.record results t) hrest
      fun t' ht' => hdone t' (List.mem_cons_of_mem _ ht')
    obtain ⟨r, hr⟩ := hdone t List.mem_cons_self
    refine ⟨fun id hid => ?_, fun t' ht' r' hr' => ?_⟩
    · rw [List.map_cons, List.mem_cons, not_or] at hid
      rw [List.foldl_cons, hother id hid.2, result?_record, hr]
      exact if_neg hid.1
    · rcases List.mem_cons.mp ht' with rfl | ht'
      · rw [List.foldl_cons, hother t'.spec.taskId hfirst, result?_record, hr']
        exact if_pos rfl
      · exact hown t' ht' r' hr'

def AllOwn (b : Batch) : Prop :=
  ∀ t ∈ b.tasks, ∃ r, t.state = .done r ∧ r.taskId = t.spec.taskId

theorem Loop.tasks_mem (h : Loop R b) (hwf : WellFormed b.specs)
    :
    spec ∈ b.tasks.map SpecTask.spec ↔ (spec ∈ b.specs ∧ spec.taskId ∈ R.ready) ∧
      hasFailedDependency spec b.results = false := by
  rw [h.tasks, List.mem_filter, mem_readySpecs hwf, Bool.not_eq_true']

theorem Loop.tasks_nodup (h : Loop R b) (hwf : WellFormed b.specs) :
    (b.tasks.map fun t => t.spec.taskId).Nodup := by
  have hids : ∀ ids : List AgentTaskId, ids.Nodup →
      ((ids.filterMap b.specOf).map AgentDelegationSpec.taskId).Nodup := by
    intro ids hids
    refine List.Nodup.map_on (fun spec hspec spec' hspec' heq => ?_)
      (List.Nodup.filterMap (fun id id' spec hspec hspec' => ?_) hids)
    · obtain ⟨_, _, hof⟩ := List.mem_filterMap.mp hspec
      obtain ⟨_, _, hof'⟩ := List.mem_filterMap.mp hspec'
      exact hwf.eq_of_taskId ((specOf_eq_some hwf).mp hof).1 ((specOf_eq_some hwf).mp hof').1 heq
    · exact ((specOf_eq_some hwf).mp hspec).2.symm.trans ((specOf_eq_some hwf).mp hspec').2
  have hmap : (b.tasks.map fun t => t.spec.taskId)
      = (b.tasks.map SpecTask.spec).map AgentDelegationSpec.taskId := by rw [List.map_map]; rfl
  rw [hmap, h.tasks]
  exact (hids R.ready h.between.sound.nodup).sublist (List.filter_sublist.map _)

/-- The results that are there stay when those of the wave are recorded. -/
theorem Loop.results_kept (h : Loop R b) (hwf : WellFormed b.specs) (hdone : AllOwn b)
    (hr : b.results.result? id = some r) :
    BatchResults.result? (b.tasks.foldl Batch.record b.results) id = some r := by
  obtain ⟨hother, -⟩ := record_all b.results (h.tasks_nodup hwf)
    fun t ht => (hdone t ht).imp fun r hr => hr.1
  rw [hother id fun hmem => ?_]
  · exact hr
  · obtain ⟨t, ht, rfl⟩ := List.mem_map.mp hmem
    obtain ⟨⟨hspec, hready⟩, hfree⟩ := (h.tasks_mem hwf).mp (List.mem_map_of_mem ht)
    have hsome : (b.results.result? t.spec.taskId).isSome := by rw [hr]; rfl
    rcases (h.results t.spec.taskId).mp hsome with hfinished | ⟨-, hskipped⟩
    · exact ready_not_finished h.between hready hfinished
    · rw [((h.skipped t.spec hspec).mp hskipped).2] at hfree
      cases hfree

theorem Loop.length_tasks (h : Loop R b) : b.tasks.length ≤ R.ready.length :=
  calc b.tasks.length = (b.tasks.map SpecTask.spec).length := (List.length_map _).symm
    _ ≤ (R.ready.filterMap b.specOf).length := h.tasks ▸ List.length_filter_le _ _
    _ ≤ R.ready.length := List.length_filterMap_le _ _

/-- **One round.** When all tasks are done, the batch is before the next iteration, with the sorter
one round further. -/
theorem Loop.recorded (h : Loop R b) (hwf : WellFormed b.specs) (hdone : AllOwn b) :
    Idle R.round { b with
      results := b.tasks.foldl Batch.record b.results
      sorter := b.sorter.done b.readyIds
      tasks := [] } := by
  obtain ⟨hgraph, -, hfinished⟩ := TopologicalSorter.round_frame R
  obtain ⟨hother, hown⟩ := record_all b.results (h.tasks_nodup hwf)
    fun t ht => (hdone t ht).imp fun r hr => hr.1
  have hready : ∀ id ∈ b.tasks.map fun t => t.spec.taskId, id ∈ R.ready := by
    intro id hid
    obtain ⟨t, ht, rfl⟩ := List.mem_map.mp hid
    exact ((h.tasks_mem hwf).mp (List.mem_map_of_mem ht)).1.2
  have hsame : ∀ spec ∈ b.specs, spec.taskId ∈ R.finished ∨ spec.taskId ∈ R.ready →
      hasFailedDependency spec (b.tasks.foldl Batch.record b.results)
        = hasFailedDependency spec b.results := by
    intro spec hspec hid
    refine hasFailedDependency_congr fun dep hdep => hother dep fun hmem => ?_
    exact ready_not_finished h.between (hready dep hmem)
      (deps_finished h.between h.graph hspec hid dep hdep)
  refine ⟨h.between.round, hgraph.trans h.graph, ?_, fun id => ?_, fun id r hr => ?_,
    fun spec hspec => ?_, fun id hid => ?_⟩
  · rw [h.sorter, h.ready]
    rfl
  · rw [hfinished, List.mem_append]
    by_cases hid : id ∈ b.tasks.map fun t => t.spec.taskId
    · obtain ⟨t, ht, rfl⟩ := List.mem_map.mp hid
      obtain ⟨r, hr, -⟩ := hdone t ht
      exact iff_of_true (by rw [hown t ht r hr]; rfl) (.inr (hready _ hid))
    · rw [hother id hid, h.results id]
      refine ⟨fun hor => hor.imp_right And.left, fun hor => hor.imp_right fun hr => ⟨hr, ?_⟩⟩
      -- a ready node is a spec, which is skipped if it has no task
      have hnode : id ∈ b.specs.map AgentDelegationSpec.taskId := by
        rw [← hwf.mem_nodes, ← h.graph]
        exact ((h.between.sound.mem_ready id).mp hr).1
      obtain ⟨spec, hspec, rfl⟩ := List.mem_map.mp hnode
      refine (h.skipped spec hspec).mpr ⟨.inr hr, ?_⟩
      by_contra hfree
      obtain ⟨t, ht, hts⟩ := List.mem_map.mp
        ((h.tasks_mem hwf).mpr ⟨⟨hspec, hr⟩, Bool.eq_false_iff.mpr hfree⟩)
      exact hid (List.mem_map.mpr ⟨t, ht, by rw [hts]⟩)
  · by_cases hid : id ∈ b.tasks.map fun t => t.spec.taskId
    · obtain ⟨t, ht, rfl⟩ := List.mem_map.mp hid
      obtain ⟨r', hr', hown'⟩ := hdone t ht
      rw [hown t ht r' hr'] at hr
      cases hr
      exact hown'
    · rw [hother id hid] at hr
      exact h.own id r hr
  · rw [h.skipped spec hspec, hfinished, List.mem_append]
    exact and_congr_right fun hid => by rw [hsame spec hspec hid]
  · obtain ⟨r, hr, hstatus⟩ := h.rejected id hid
    refine ⟨r, ?_, hstatus⟩
    rw [hother id fun hmem => ?_]
    · exact hr
    · obtain ⟨t, ht, rfl⟩ := List.mem_map.mp hmem
      obtain ⟨⟨hspec, -⟩, hfree⟩ := (h.tasks_mem hwf).mp (List.mem_map_of_mem ht)
      rw [((h.skipped t.spec hspec).mp hid).2] at hfree
      cases hfree

end Waves

end UniversalAgent.MultiAgent
