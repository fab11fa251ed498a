import UniversalAgent.MultiAgent.BatchRuns

/-!
# MultiAgent — BatchScheduling

What holds at every moment of a batch: which executors were started, which are in progress, what is
skipped and what is returned. A measure, the work that is left, goes down with every step of the
batch, so it returns once its executors do.
-/

namespace UniversalAgent.MultiAgent

open UniversalAgent.Core UniversalAgent.Foundation

variable (numberText : Amount → String)

/-! ## Work -/

def SpecTaskState.work : SpecTaskState → Nat
  | .waiting => 2
  | .executing _ => 1
  | .done _ => 0
  | .broken => 0

/-- The steps that a batch has to take: three for each spec that is to come, those of the tasks of
the wave, and the return. -/
def Batch.work (b : Batch) : Nat :=
  3 * (b.sorter.graph.nodes.length - b.sorter.passedOut.length)
    + (b.tasks.map fun t => t.state.work).sum + if b.ended = none then 1 else 0

def Batch.executing (b : Batch) : List SpecTask :=
  b.tasks.filter fun t => match t.state with
    | .executing _ => true
    | _ => false

theorem work_setTask {b : Batch} (hnodup : (b.tasks.map fun t => t.spec.taskId).Nodup)
    {task : SpecTask} (htask : task ∈ b.tasks) {state : SpecTaskState}
    (hless : state.work < task.state.work) :
    (b.setTask task.spec.taskId state).work < b.work := by
  have hsum : ((b.setTask task.spec.taskId state).tasks.map fun t => t.state.work).sum
      < (b.tasks.map fun t => t.state.work).sum := by
    unfold Batch.setTask
    rw [List.map_map]
    refine List.sum_lt_sum _ _ (fun t ht => ?_) ⟨task, htask, ?_⟩
    · by_cases hid : t.spec.taskId = task.spec.taskId
      · rw [List.inj_on_of_nodup_map hnodup ht htask hid]
        simpa using hless.le
      · simp [hid]
    · simpa using hless
  have hrest : (b.setTask task.spec.taskId state).sorter = b.sorter ∧
      (b.setTask task.spec.taskId state).ended = b.ended := ⟨rfl, rfl⟩
  unfold Batch.work
  rw [hrest.1, hrest.2]
  omega

namespace BatchInv

variable {numberText} {specs : List AgentDelegationSpec}
  {h : List (BatchInput × Option OrchestrationAnswer)} {s : BatchRun}

theorem tasks_nodup (hinv : BatchInv specs h s) (hwf : WellFormed specs) :
    (s.batch.tasks.map fun t => t.spec.taskId).Nodup := by
  obtain ⟨k, hloop⟩ := hinv.wave
  exact hloop.tasks_nodup (hinv.same.symm ▸ hwf)

theorem work_advance (hinv : BatchInv specs h s) (hwf : WellFormed specs)
    (hended : s.batch.ended = none) (hdone : s.batch.allDone = true) :
    s.batch.advance.work < s.batch.work := by
  obtain ⟨k, hloop⟩ := hinv.wave
  have hwf' : WellFormed s.batch.specs := hinv.same.symm ▸ hwf
  have hidle := hloop.recorded hwf' (hinv.allOwn hdone)
  generalize (TopologicalSorter.start (dependencyGraph specs)).rounds k = R at hloop hidle
  obtain ⟨hgraph, hout, -⟩ := TopologicalSorter.round_frame R
  have hbefore : s.batch.sorter.passedOut = R.round.passedOut := by
    rw [hloop.sorter, hout]
    rfl
  have hnodes : s.batch.sorter.graph = R.round.graph := by
    rw [hloop.sorter, hgraph]
    rfl
  by_cases hready : R.round.ready = []
  · obtain ⟨hloop', -, hempty, -, result, hreturned, -⟩ := hidle.iterate_done hwf' hready
    have hsorter : s.batch.advance.sorter = R.round.getReady.2 := hloop'.sorter
    have htasks : s.batch.advance.tasks = [] := hempty
    have hreturned' : s.batch.advance.ended = some (.returned result) := hreturned
    have hafter : R.round.getReady.2.passedOut = R.round.passedOut ++ R.round.ready := rfl
    unfold Batch.work
    rw [hsorter, htasks, hreturned', hended, hbefore, hnodes, hafter, hready, List.append_nil]
    simp only [List.map_nil, List.sum_nil, if_true, reduceCtorEq, if_false]
    have hsame : R.round.getReady.2.graph = R.round.graph := rfl
    rw [hsame]
    omega
  · obtain ⟨hloop', -, hended', hwaiting, -⟩ := hidle.iterate_active hwf' hended hready
    have hsorter : s.batch.advance.sorter = R.round.getReady.2 := hloop'.sorter
    have hsum : (s.batch.advance.tasks.map fun t => t.state.work).sum
        ≤ 2 * R.round.ready.length := by
      have hall : ∀ t ∈ s.batch.advance.tasks, t.state.work = 2 := fun t ht => by
        rw [hwaiting t ht]
        rfl
      rw [List.map_congr_left hall, List.map_const', List.sum_replicate, smul_eq_mul, Nat.mul_comm]
      exact Nat.mul_le_mul_left 2 hloop'.length_tasks
    have hroom : R.round.passedOut.length + R.round.ready.length ≤ R.round.graph.nodes.length := by
      have hle := hloop'.between.round.length_finished_le
      obtain ⟨hgraph', -, hfinished⟩ := TopologicalSorter.round_frame R.round
      rw [hgraph', hfinished, List.length_append, ← hloop'.between.settled] at hle
      exact hle
    have hpos : 0 < R.round.ready.length := List.length_pos_iff.mpr hready
    have hended'' : s.batch.advance.ended = none := hended'
    have hafter : R.round.getReady.2.passedOut.length
        = R.round.passedOut.length + R.round.ready.length := List.length_append
    have hsame : R.round.getReady.2.graph = R.round.graph := rfl
    unfold Batch.work
    rw [hsorter, hended'', hended, hafter, hsame, hbefore, hnodes]
    omega

variable {t : SpecTask} {callId : CallId} {spec : AgentDelegationSpec}

theorem waitingTask_of_mem (hinv : BatchInv specs h s) (hwf : WellFormed specs)
    (ht : t ∈ s.batch.tasks) (hstate : t.state = .waiting) :
    s.batch.waitingTask t.spec.taskId = some t := by
  cases hfind : s.batch.waitingTask t.spec.taskId with
  | none =>
    have hne := List.find?_eq_none.mp hfind t ht
    simp [hstate] at hne
  | some t' =>
    obtain ⟨ht', hid, -⟩ := waitingTask_spec hfind
    rw [List.inj_on_of_nodup_map (hinv.tasks_nodup hwf) ht' ht hid]

theorem executingTask_of_mem (hinv : BatchInv specs h s) (ht : t ∈ s.batch.tasks)
    (hstate : t.state = .executing callId) :
    s.batch.executingTask callId = some t := by
  cases hfind : s.batch.executingTask callId with
  | none => exact absurd hstate (executingTask_none hfind t ht)
  | some t' =>
    obtain ⟨ht', hstate'⟩ := executingTask_spec hfind
    rw [hinv.apart t' ht' t ht callId hstate' hstate]

theorem work_start (hinv : BatchInv specs h s) (hwf : WellFormed specs)
    (ht : t ∈ s.batch.tasks) (hstate : t.state = .waiting)
    (hcall : s.orchestration.calls.get? callId = none) (id : DelegationId) :
    (s.step numberText (.start t.spec.taskId callId id)).2.batch.work < s.batch.work := by
  have hnodup := hinv.tasks_nodup hwf
  simp only [BatchRun.step, hinv.waitingTask_of_mem hwf ht hstate, BatchRun.begins]
  split
  · exact work_setTask hnodup ht (by rw [hstate]; simp [SpecTaskState.work])
  · next seen hsees =>
      obtain ⟨e, rfl⟩ := sees_raised numberText hsees
      obtain ⟨r, hr, -⟩ := delegateSpecWithTracking_raised t.spec e
      simp only [Batch.taskEnds, hr]
      exact work_setTask hnodup ht (by rw [hstate]; simp [SpecTaskState.work])
  · next hneither hnot =>
      exfalso
      simp only [Orchestration.step, hcall] at hneither hnot
      split at hneither
      · exact hneither rfl
      · next heq => exact hnot _ (by rw [heq])

theorem work_ended (hinv : BatchInv specs h s) (hwf : WellFormed specs)
    (ht : t ∈ s.batch.tasks) (hstate : t.state = .executing callId)
    {outcome : Outcome} (hi : Behaved h s (.other (.ended callId outcome))) :
    (s.step numberText (.other (.ended callId outcome))).2.batch.work < s.batch.work := by
  obtain ⟨r, -, hbatch⟩ := @ended_batch numberText _ _ _ hinv _ _ hi _
    (hinv.executingTask_of_mem ht hstate)
  simp only [BatchRun.step, hbatch]
  exact work_setTask (hinv.tasks_nodup hwf) ht (by rw [hstate]; simp [SpecTaskState.work])

theorem work_le (hinv : BatchInv specs h s) (hwf : WellFormed specs) {i : BatchInput}
    (hi : Behaved h s i) : (s.step numberText i).2.batch.work ≤ s.batch.work := by
  cases i with
  | start taskId callId id =>
    cases hwaiting : s.batch.waitingTask taskId with
    | none => simp only [BatchRun.step, hwaiting, le_refl]
    | some t =>
      obtain ⟨ht, rfl, hstate⟩ := waitingTask_spec hwaiting
      cases hcall : s.orchestration.calls.get? callId with
      | none => exact (hinv.work_start hwf ht hstate hcall id).le
      | some call =>
        simp only [BatchRun.step, hwaiting, BatchRun.begins, Orchestration.step, hcall,
          le_refl]
  | advance =>
    simp only [BatchRun.step]
    split
    · next hdone => exact (hinv.work_advance hwf hdone.1 hdone.2).le
    · exact le_refl _
  | other i =>
    cases i with
    | ended callId outcome =>
      cases hexecuting : s.batch.executingTask callId with
      | none => simp only [BatchRun.step, observes_none hexecuting, le_refl]
      | some t =>
        obtain ⟨ht, hstate⟩ := executingTask_spec hexecuting
        exact (hinv.work_ended hwf ht hstate hi).le
    | replaced => exact le_refl _
    | delegate callId request agentId id => exact le_refl _
    | registry c => exact le_refl _
    | registerExecutor id => exact le_refl _
    | manager c => exact le_refl _

/-! ## Dependencies -/

/-- A spec with a completed result has completed dependencies. -/
theorem deps_of_completed (hinv : BatchInv specs h s)
    (hspec : spec ∈ specs) {r : AgentTaskResult}
    (hr : s.batch.results.result? spec.taskId = some r) (hstatus : r.status = .completed) :
    DepsCompleted s.batch spec := by
  obtain ⟨k, hloop⟩ := hinv.wave
  have hspec' : spec ∈ s.batch.specs := hinv.same.symm ▸ hspec
  have hskipped : spec.taskId ∉ s.batch.skipped := by
    intro hmem
    obtain ⟨r', hr', hrejected⟩ := hloop.rejected _ hmem
    rw [hr] at hr'
    cases hr'
    rw [hstatus] at hrejected
    cases hrejected
  have hsome : (s.batch.results.result? spec.taskId).isSome := by rw [hr]; rfl
  have hfinished := ((hloop.results _).mp hsome).resolve_right fun hskip => hskipped hskip.2
  refine hloop.deps_completed hspec' (.inl hfinished) (Bool.eq_false_iff.mpr fun hfailed => ?_)
  exact hskipped ((hloop.skipped spec hspec').mpr ⟨.inl hfinished, hfailed⟩)

/-- What a spec with completed dependencies depends on, however far, has completed. -/
theorem completed_below (hinv : BatchInv specs h s)
    (hspec : spec ∈ specs) (hwf : WellFormed specs) (hdeps : DepsCompleted s.batch spec)
    {dep : AgentTaskId}
    (hdep : Relation.TransGen (dependencyGraph specs).Edge dep spec.taskId) :
    ∃ r, s.batch.results.result? dep = some r ∧ r.status = .completed := by
  induction hdep using Relation.TransGen.head_induction_on with
  | single hedge =>
    obtain ⟨spec', hspec', hid, hdep⟩ := mem_dependencies.mp hedge
    rw [hwf.eq_of_taskId hspec' hspec hid] at hdep
    exact hdeps _ hdep
  | head hedge _ ih =>
    obtain ⟨spec', hspec', rfl, hdep⟩ := mem_dependencies.mp hedge
    obtain ⟨r, hr, hstatus⟩ := ih
    exact hinv.deps_of_completed hspec' hr hstatus _ hdep

/-- A spec is skipped exactly if, once it has a result, something it depends on, however far, has
not completed. -/
theorem skipped_iff (hinv : BatchInv specs h s) (hwf : WellFormed specs)
    (hspec : spec ∈ specs)
    (hsome : (s.batch.results.result? spec.taskId).isSome) :
    spec.taskId ∈ s.batch.skipped ↔
      ∃ dep, Relation.TransGen (dependencyGraph specs).Edge dep spec.taskId ∧
        ∃ r, s.batch.results.result? dep = some r ∧ r.status ≠ .completed := by
  obtain ⟨k, hloop⟩ := hinv.wave
  have hspec' : spec ∈ s.batch.specs := hinv.same.symm ▸ hspec
  have hout := ((hloop.results _).mp hsome).imp_right And.left
  rw [hloop.skipped spec hspec', and_iff_right hout]
  constructor
  · intro hfailed
    obtain ⟨dep, hdep, r, hr, hstatus⟩ := hasFailedDependency_iff.mp hfailed
    exact ⟨dep, .single (mem_dependencies.mpr ⟨spec, hspec, rfl, hdep⟩), r, hr, hstatus⟩
  · rintro ⟨dep, hdep, r, hr, hstatus⟩
    by_contra hfree
    have hdeps := hloop.deps_completed hspec' hout (Bool.eq_false_iff.mpr hfree)
    obtain ⟨r', hr', hcompleted⟩ := hinv.completed_below hspec hwf hdeps hdep
    rw [hr] at hr'
    cases hr'
    exact hstatus hcompleted

/-- No more executors are in progress than a wave is wide. -/
theorem length_executing (hinv : BatchInv specs h s) :
    ∃ k, s.batch.executing.length
      ≤ ((TopologicalSorter.start (dependencyGraph specs)).rounds k).ready.length := by
  obtain ⟨k, hloop⟩ := hinv.wave
  exact ⟨k, (List.length_filter_le _ _).trans hloop.length_tasks⟩

end BatchInv

/-! ## The law -/

structure BatchLaw (specs : List AgentDelegationSpec)
    (h : List (BatchInput × Option OrchestrationAnswer)) (s : BatchRun) : Prop where
  /-- No executor is started twice. -/
  once : ∀ id, startCount h id ≤ 1
  /-- The next one that is started has completed dependencies. -/
  ordered : ∀ taskId callId id, (s.step numberText (.start taskId callId id)).1 = some .awaits →
    ∃ spec ∈ specs, spec.taskId = taskId ∧ ∀ dep ∈ spec.dependsOn,
      ∃ r, s.batch.results.result? dep = some r ∧ r.status = .completed
  /-- No more are in progress than the widest wave allows. -/
  bounded : ∀ maxConcurrency : Int,
    (∀ k, (((TopologicalSorter.start (dependencyGraph specs)).rounds k).ready.length : Int)
      ≤ maxConcurrency) → (s.batch.executing.length : Int) ≤ maxConcurrency
  /-- None was started that depends, however far, on a spec that did not complete. -/
  unstarted : ∀ spec ∈ specs, ∀ dep,
    Relation.TransGen (dependencyGraph specs).Edge dep spec.taskId →
      ∀ r, s.batch.results.result? dep = some r → r.status ≠ .completed →
        startCount h spec.taskId = 0
  /-- What is returned: one result for each spec, in their order, and the specs that depend on one
  that did not complete as skipped. -/
  returned : ∀ ended, s.batch.ended = some ended → ∃ result, ended = .returned result ∧
    List.Forall₂ (fun spec r => r.taskId = spec.taskId) specs result.results ∧
    ∀ spec ∈ specs, spec.taskId ∈ result.skippedTaskIds ↔
      ∃ dep, Relation.TransGen (dependencyGraph specs).Edge dep spec.taskId ∧
        ∃ r ∈ result.results, r.taskId = dep ∧ r.status ≠ .completed
  /-- No step adds work. -/
  settles : ∀ i, Behaved h s i → (s.step numberText i).2.batch.work ≤ s.batch.work
  /-- A task that begins, and one whose executor ends, is work done. -/
  begins : ∀ t ∈ s.batch.tasks, t.state = .waiting →
    ∀ callId id, s.orchestration.calls.get? callId = none →
      (s.step numberText (.start t.spec.taskId callId id)).2.batch.work < s.batch.work
  ends : ∀ t ∈ s.batch.tasks, ∀ callId, t.state = .executing callId →
    ∀ outcome, Behaved h s (.other (.ended callId outcome)) →
      (s.step numberText (.other (.ended callId outcome))).2.batch.work < s.batch.work
  /-- Where there is no such task, to go on is work done, until the batch has returned. -/
  goes_on : s.batch.ended = none →
    (∀ t ∈ s.batch.tasks, t.state ≠ .waiting ∧ ∀ callId, t.state ≠ .executing callId) →
      (s.step numberText .advance).2.batch.work < s.batch.work

variable {numberText} in
theorem BatchInv.law {specs : List AgentDelegationSpec}
    {h : List (BatchInput × Option OrchestrationAnswer)} {s : BatchRun}
    (hinv : BatchInv specs h s) (hwf : WellFormed specs) : BatchLaw numberText specs h s where
  once := hinv.once
  ordered := by
    intro taskId callId id hawaits
    simp only [BatchRun.step] at hawaits
    cases hwaiting : s.batch.waitingTask taskId with
    | none => simp [hwaiting] at hawaits
    | some t =>
      obtain ⟨ht, rfl, -⟩ := waitingTask_spec hwaiting
      obtain ⟨k, hloop⟩ := hinv.wave
      obtain ⟨⟨hspec, hready⟩, hfree⟩ :=
        (hloop.tasks_mem (hinv.same.symm ▸ hwf)).mp (List.mem_map_of_mem ht)
      exact ⟨t.spec, hinv.same ▸ hspec, rfl, hloop.deps_completed hspec (.inr hready) hfree⟩
  bounded := by
    intro maxConcurrency hwidth
    obtain ⟨k, hk⟩ := hinv.length_executing
    exact (Int.ofNat_le.mpr hk).trans (hwidth k)
  unstarted := by
    intro spec hspec dep hdep r hr hstatus
    by_contra hstarted
    obtain ⟨spec', hid, hbegun⟩ := hinv.begun _ hstarted
    rw [hwf.eq_of_taskId (hinv.same ▸ hbegun.mem) hspec hid] at hbegun
    obtain ⟨r', hr', hcompleted⟩ := hinv.completed_below hspec hwf hbegun.deps hdep
    rw [hr] at hr'
    cases hr'
    exact hstatus hcompleted
  returned := by
    intro ended hended
    rcases hinv.ended with hnone | ⟨-, result, hreturned, hanswered⟩
    · rw [hnone] at hended
      cases hended
    · rw [hreturned] at hended
      cases hended
      have hresults := hanswered.results
      rw [hinv.same] at hresults
      obtain ⟨k, hloop⟩ := hinv.wave
      refine ⟨result, rfl, hresults.imp fun spec r hr => hloop.own _ r hr, fun spec hspec => ?_⟩
      rw [hanswered.skipped, hinv.skipped_iff hwf hspec (isSome_of_results hresults hspec)]
      refine exists_congr fun dep => and_congr_right fun hdep => exists_congr fun r => ?_
      rw [mem_results hresults, ← and_assoc]
      refine and_congr_left fun _ => ⟨fun hr => ⟨?_, hloop.own _ r hr⟩, ?_⟩
      · obtain ⟨next, hedge, -⟩ := Relation.TransGen.head'_iff.mp hdep
        obtain ⟨spec', hspec', rfl⟩ := List.mem_map.mp (hwf.mem_nodes.mp hedge.mem_nodes.1)
        exact ⟨spec', hspec', hr⟩
      · rintro ⟨⟨spec', -, hr⟩, rfl⟩
        exact hloop.own _ r hr ▸ hr
  settles := fun i hi => hinv.work_le hwf hi
  begins := fun t ht hstate callId id hcall => hinv.work_start hwf ht hstate hcall id
  ends := fun t ht callId hstate outcome hi => hinv.work_ended hwf ht hstate hi
  goes_on := by
    intro hended hidle
    have hdone : s.batch.allDone = true := by
      refine List.all_eq_true.mpr fun t ht => ?_
      cases hs : t.state with
      | done r => rfl
      | waiting => exact absurd hs (hidle t ht).1
      | executing callId => exact absurd hs ((hidle t ht).2 callId)
      | broken => exact absurd hs (hinv.fits t ht).1
    simp only [BatchRun.step, hended, hdone, and_self, if_true]
    exact hinv.work_advance hwf hended hdone

/-- **Batches.** On an orchestrator after any run with new ids, a well-formed batch begins, and the
law holds at every moment of every run in which the executors behave. -/
theorem batch_scheduled (registry : AgentRegistry) (executors : List AgentId)
    (pre : List OrchestrationInput)
    (hpre : (orchestration numberText registry executors).Meets NewIds pre)
    (specs : List AgentDelegationSpec) (hne : specs ≠ []) (hwf : WellFormed specs) :
    Batch.begin specs = .ok (.first specs) ∧
      ∀ is, (batchMachine numberText ((orchestration numberText registry executors).state pre)
          (.first specs)).Meets Behaved is →
        BatchLaw numberText specs
          ((batchMachine numberText ((orchestration numberText registry executors).state pre)
            (.first specs)).history is)
          ((batchMachine numberText ((orchestration numberText registry executors).state pre)
            (.first specs)).state is) := by
  refine ⟨begin_ok hne hwf, fun is his => ?_⟩
  have hflight := inFlight_run numberText registry executors hpre
  have hrun := (batchMachine numberText ((orchestration numberText registry executors).state pre)
    (.first specs)).induct (BatchInv specs) (batchInv_begin hwf hflight)
    (fun _ _ i hinv hi => hinv.step hwf i hi) his
  exact hrun.law hwf

/-! ## Two specs -/

instance (request : AgentTaskRequest) : ∀ outcome : Outcome, Decidable (outcome.behaved request)
  | .returned r => inferInstanceAs (Decidable (r.taskId = request.taskId ∨ r.status = .completed ∧
      ∀ maxCost ∈ request.constraints.maxCost, r.usage.estimatedCost ≤ maxCost))
  | .raised _ => .isTrue trivial
  | .cancelled => .isFalse id

instance (h : List (BatchInput × Option OrchestrationAnswer)) (s : BatchRun) :
    ∀ i, Decidable (Behaved h s i)
  | .start _ _ id => inferInstanceAs (Decidable (Text.isBlank id = false ∧ _ = none))
  | .advance => .isTrue trivial
  | .other (.ended callId outcome) => inferInstanceAs (Decidable
      (∀ task ∈ s.batch.executingTask callId, outcome.behaved task.spec.request))
  | .other (.delegate c r a d) =>
    inferInstanceAs (Decidable (NewIds [] s.orchestration (.delegate c r a d)))
  | .other (.registry c) => inferInstanceAs (Decidable (NewIds [] s.orchestration (.registry c)))
  | .other (.registerExecutor id) =>
    inferInstanceAs (Decidable (NewIds [] s.orchestration (.registerExecutor id)))
  | .other (.manager c) => inferInstanceAs (Decidable (NewIds [] s.orchestration (.manager c)))
  | .other .replaced => inferInstanceAs (Decidable (NewIds [] s.orchestration .replaced))

def writersRegistry : AgentRegistry where
  profiles := adaRegistry.profiles
  instances := ⟨[writer "ada" ada_filled, writer "bob" (by decide)], by decide⟩
  profiled := by
    intro i hi
    rw [Table.mem_def, List.mem_cons, List.mem_singleton] at hi
    rcases hi with rfl | rfl <;> rfl

def rootSpec (taskId : AgentTaskId) (h : Text.isBlank taskId = false)
    (dependsOn : List AgentTaskId) (hself : taskId ∉ dependsOn) : AgentDelegationSpec where
  request :=
    { goal := "review"
      constraints := .plain
      taskId := taskId
      parentTaskId := none
      delegationDepth := 0
      goal_filled := review_filled
      depth_le := root_depth
      id_filled := h }
  agentId := none
  dependsOn := dependsOn
  not_self := hself

def parallelSpecs : List AgentDelegationSpec :=
  [rootSpec "task-1" task_filled [] (by simp), rootSpec "task-2" (by decide) [] (by simp)]

def chainedSpecs : List AgentDelegationSpec :=
  [rootSpec "task-1" task_filled [] (by simp),
    rootSpec "task-2" (by decide) ["task-1"] (by decide)]

theorem wellFormed_chained : WellFormed chainedSpecs where
  ids := by decide +kernel
  known := by decide +kernel
  acyclic := by
    by_contra hcyclic
    exact absurd ((TopologicalSorter.hasCycle_iff _).mpr hcyclic) (by decide +kernel)

def failedFirst : List BatchInput :=
  [.start "task-1" 0 "delegation-1", .other (.ended 0 (.raised (.other "RuntimeError" "no model"))),
    .advance, .advance]

theorem batch_scheduled_chained :
    Batch.begin chainedSpecs = .ok (.first chainedSpecs) ∧
      BatchLaw (fun _ => "1.0") chainedSpecs
        ((batchMachine (fun _ => "1.0")
          ((orchestration (fun _ => "1.0") writersRegistry ["ada", "bob"]).state [])
            (.first chainedSpecs)).history failedFirst)
        ((batchMachine (fun _ => "1.0")
          ((orchestration (fun _ => "1.0") writersRegistry ["ada", "bob"]).state [])
            (.first chainedSpecs)).state failedFirst) := by
  obtain ⟨hbegin, hlaw⟩ := batch_scheduled (fun _ => "1.0") writersRegistry ["ada", "bob"] []
    (.nil _ _) chainedSpecs (by simp [chainedSpecs]) wellFormed_chained
  exact ⟨hbegin, hlaw failedFirst (by decide +kernel)⟩

/-- Two executors are in progress under a limit of one. -/
theorem concurrency_unlimited :
    ¬ ∀ is, (batchMachine (fun _ => "1.0")
        ((orchestration (fun _ => "1.0") writersRegistry ["ada", "bob"]).state [])
          (.first parallelSpecs)).Meets Behaved is →
      ((batchMachine (fun _ => "1.0")
        ((orchestration (fun _ => "1.0") writersRegistry ["ada", "bob"]).state [])
          (.first parallelSpecs)).state is).batch.executing.length ≤ 1 := by
  intro h
  have hle := h [.start "task-1" 0 "delegation-1", .start "task-2" 1 "delegation-2"]
    (by decide +kernel)
  revert hle
  decide +kernel

end UniversalAgent.MultiAgent
