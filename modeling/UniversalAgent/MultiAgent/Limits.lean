import UniversalAgent.MultiAgent.Settlement

/-!
# MultiAgent — Limits

Depth and fan-out of delegated tasks over whole histories. The limits are told from the history of
answered calls: which requests were accepted, so how many children a parent has and how deep a task
was delegated the last time. A snapshot holds just this, so a restored orchestrator goes on alike.
-/

namespace UniversalAgent.MultiAgent

open UniversalAgent.Core UniversalAgent.Foundation

/-! ## Accepted requests -/

/-- The request of a `delegate` call that awaits its executor. -/
def acceptedRequest : OrchestrationInput × OrchestrationAnswer → Option AgentTaskRequest
  | (.delegate _ request _ _, .awaits) => some request
  | _ => none

def accepted (h : List (OrchestrationInput × OrchestrationAnswer)) : List AgentTaskRequest :=
  h.filterMap acceptedRequest

def childrenOf (h : List (OrchestrationInput × OrchestrationAnswer)) (parent : AgentTaskId) :
    List AgentTaskRequest :=
  (accepted h).filter fun r => decide (r.parentTaskId = some parent)

def lastAccepted (h : List (OrchestrationInput × OrchestrationAnswer)) (id : AgentTaskId) :
    Option AgentTaskRequest :=
  ((accepted h).filter fun r => decide (r.taskId = id)).getLast?

theorem accepted_snoc (h : List (OrchestrationInput × OrchestrationAnswer))
    (x : OrchestrationInput × OrchestrationAnswer) :
    accepted (h ++ [x]) = accepted h ++ (acceptedRequest x).toList := by
  unfold accepted
  rw [List.filterMap_append]
  cases hx : acceptedRequest x <;> simp [hx]

theorem acceptedRequest_of_ne {i : OrchestrationInput} {answer : OrchestrationAnswer}
    (h : answer ≠ .awaits) : acceptedRequest (i, answer) = none := by
  cases i <;> cases answer <;> first | rfl | exact absurd rfl h

variable {h : List (OrchestrationInput × OrchestrationAnswer)} {x : OrchestrationInput × OrchestrationAnswer}

theorem childrenOf_snoc
    {request : AgentTaskRequest}
    (hx : acceptedRequest x = some request) (parent : AgentTaskId) :
    (childrenOf (h ++ [x]) parent).length = (childrenOf h parent).length +
      if request.parentTaskId = some parent then 1 else 0 := by
  unfold childrenOf
  rw [accepted_snoc, hx, List.filter_append, List.length_append]
  by_cases hp : request.parentTaskId = some parent <;> simp [hp]

theorem lastAccepted_snoc
    {request : AgentTaskRequest}
    (hx : acceptedRequest x = some request) (id : AgentTaskId) :
    lastAccepted (h ++ [x]) id = if id = request.taskId then some request else lastAccepted h id := by
  unfold lastAccepted
  rw [accepted_snoc, hx, List.filter_append]
  by_cases hid : id = request.taskId
  · simp [hid]
  · simp [hid, Ne.symm hid]

theorem unaccepted_snoc (h : List (OrchestrationInput × OrchestrationAnswer))
    (hx : acceptedRequest x = none) :
    accepted (h ++ [x]) = accepted h := by
  rw [accepted_snoc, hx]
  exact List.append_nil _

namespace Orchestrator

variable {o o' : Orchestrator} {request : AgentTaskRequest}

/-! ## Reservations -/

structure Reserved (o o' : Orchestrator) (request : AgentTaskRequest) : Prop where
  root : request.parentTaskId = none → request.delegationDepth = 0
  child : ∀ parent, request.parentTaskId = some parent →
    ∃ depth, o.taskDepth parent = some depth ∧ request.delegationDepth = depth + 1 ∧
      o.childCount parent < request.constraints.maxChildren
  counts : ∀ parent, o'.childCount parent = o.childCount parent +
    if request.parentTaskId = some parent then 1 else 0
  depths : ∀ id, o'.taskDepth id =
    if id = request.taskId then some request.delegationDepth else o.taskDepth id
  counted : ∀ parent, (o'.childCounts.get? parent).isSome →
    (o.childCounts.get? parent).isSome ∨ request.parentTaskId = some parent

theorem taskDepth_put (depths : Table (Prod.fst : AgentTaskId × Nat → AgentTaskId))
    (taskId : AgentTaskId) (depth : Nat) (id : AgentTaskId) :
    ((depths.put (taskId, depth)).get? id).map Prod.snd =
      if id = taskId then some depth else (depths.get? id).map Prod.snd := by
  rw [Table.get?_put]
  split <;> rfl

theorem reserveDelegation_spec (h : o.reserveDelegation request = .ok o') : Reserved o o' request := by
  unfold reserveDelegation at h
  split at h
  · cases h
  · next hdepth =>
      unfold validateDelegationDepth at hdepth
      cases hparent : request.parentTaskId with
      | none =>
        simp only [hparent] at h hdepth
        cases h
        split at hdepth
        · cases hdepth
        · next hzero =>
            refine ⟨fun _ => not_not.mp hzero, fun p hp => ?_, fun p => ?_,
              fun id => taskDepth_put _ _ _ id, fun p hp => .inl hp⟩
            · cases hparent.symm.trans hp
            · rw [hparent, if_neg (by simp)]
              rfl
      | some parent =>
        simp only [hparent] at h hdepth
        split at h
        · cases h
        · next hcount =>
            cases h
            split at hdepth
            · cases hdepth
            · next depth hknown =>
                split at hdepth
                · cases hdepth
                · next heq =>
                    refine ⟨fun hnone => ?_, fun p hp => ?_, fun p => ?_,
                      fun id => taskDepth_put _ _ _ id, fun p hp => ?_⟩
                    · cases hparent.symm.trans hnone
                    · cases hparent.symm.trans hp
                      exact ⟨depth, hknown, not_not.mp heq, Nat.lt_of_not_le hcount⟩
                    · unfold childCount
                      rw [Table.get?_put, hparent]
                      by_cases hp : p = parent
                      · simp [hp]
                      · simp [hp, Ne.symm hp]
                    · rw [Table.get?_put] at hp
                      by_cases hpp : p = parent
                      · exact .inr (by rw [hparent, hpp])
                      · rw [if_neg hpp] at hp
                        exact .inl hp

/-! ## Snapshots -/

/-- What the orchestrator keeps under task ids: of tasks with a depth only, and no blank ones. -/
structure Snapshottable (o : Orchestrator) : Prop where
  filled : ∀ id, (o.taskDepth id).isSome → Text.isBlank id = false
  counted : ∀ id, (o.childCounts.get? id).isSome → (o.taskDepth id).isSome

theorem mem_rows_map_iff (t : Table (Prod.fst : AgentTaskId × Nat → AgentTaskId))
    (id : AgentTaskId) : id ∈ t.rows.map Prod.fst ↔ (t.get? id).isSome := by
  rw [Option.isSome_iff_exists, List.mem_map]
  exact exists_congr fun row => (Table.get?_eq_some (t := t)).symm

theorem mem_snapshotIds (h : Snapshottable o) (id : AgentTaskId) :
    id ∈ o.snapshotIds ↔ (o.taskDepth id).isSome := by
  have hdepth : (o.taskDepth id).isSome = (o.taskDepths.get? id).isSome := Option.isSome_map
  unfold snapshotIds
  rw [(List.perm_insertionSort _ _).mem_iff, List.mem_union_iff, mem_rows_map_iff,
    mem_rows_map_iff, ← hdepth]
  exact ⟨fun hor => hor.elim (h.counted id) fun hd => hd, .inr⟩

theorem snapshotIds_nodup (o : Orchestrator) : o.snapshotIds.Nodup :=
  (List.perm_insertionSort _ _).nodup_iff.mpr (List.Nodup.union _ o.taskDepths.nodup)

/-- The task states of a list of ids that are not blank. -/
theorem taskStates_ok (o : Orchestrator) (ids : List AgentTaskId)
    (h : ∀ id ∈ ids, Text.isBlank id = false) :
    ∃ tasks, (ids.mapM fun id =>
        if h : Text.isBlank id = false then
          some (⟨id, o.childCount id, o.taskDepth id, h⟩ : AgentDelegationTaskState)
        else none) = some tasks ∧
      tasks.map AgentDelegationTaskState.taskId = ids ∧
      ∀ t ∈ tasks, t.childCount = o.childCount t.taskId ∧ t.delegationDepth = o.taskDepth t.taskId := by
  induction ids with
  | nil => exact ⟨[], rfl, rfl, fun t ht => nomatch ht⟩
  | cons id ids ih =>
    obtain ⟨tasks, htasks, hids, hfields⟩ := ih fun id' hid' => h id' (List.mem_cons_of_mem _ hid')
    have hid := h id List.mem_cons_self
    refine ⟨⟨id, o.childCount id, o.taskDepth id, hid⟩ :: tasks, ?_, by rw [List.map_cons, hids],
      fun t ht => ?_⟩
    · rw [List.mapM_cons, dif_pos hid, htasks]
      rfl
    · rcases List.mem_cons.mp ht with rfl | ht
      · exact ⟨rfl, rfl⟩
      · exact hfields t ht

theorem snapshot_ok (h : Snapshottable o) :
    ∃ state, o.snapshot = some state ∧
      (∀ id, id ∈ state.tasks.rows.map AgentDelegationTaskState.taskId ↔ (o.taskDepth id).isSome) ∧
      ∀ t ∈ state.tasks, t.childCount = o.childCount t.taskId ∧
        t.delegationDepth = o.taskDepth t.taskId := by
  obtain ⟨tasks, htasks, hids, hfields⟩ := taskStates_ok o o.snapshotIds fun id hid =>
    h.filled id ((mem_snapshotIds h id).mp hid)
  have hnodup : (tasks.map AgentDelegationTaskState.taskId).Nodup := by
    rw [hids]
    exact snapshotIds_nodup o
  refine ⟨⟨⟨tasks, hnodup⟩⟩, ?_, fun id => ?_, hfields⟩
  · unfold snapshot
    rw [htasks]
    exact dif_pos hnodup
  · rw [hids]
    exact mem_snapshotIds h id

def restoreTask (o : Orchestrator) (t : AgentDelegationTaskState) : Orchestrator :=
  { o with
    childCounts := if t.childCount = 0 then o.childCounts
      else o.childCounts.put (t.taskId, t.childCount)
    taskDepths := match t.delegationDepth with
      | some depth => o.taskDepths.put (t.taskId, depth)
      | none => o.taskDepths }

variable {t : AgentDelegationTaskState} {id : AgentTaskId}

theorem restoreTask_ne (o : Orchestrator)
    (hne : id ≠ t.taskId) :
    (o.restoreTask t).childCounts.get? id = o.childCounts.get? id ∧
      (o.restoreTask t).taskDepths.get? id = o.taskDepths.get? id := by
  unfold restoreTask
  constructor
  · by_cases hzero : t.childCount = 0
    · simp [hzero]
    · simp [hzero, Table.get?_put, hne]
  · cases hdepth : t.delegationDepth with
    | none => rfl
    | some depth => simp [Table.get?_put, hne]

/-- Of a task that is not known yet, the state is restored. -/
theorem restoreTask_self (o : Orchestrator)
    (hcount : o.childCount t.taskId = 0) (hdepth : o.taskDepth t.taskId = none) :
    (o.restoreTask t).childCount t.taskId = t.childCount ∧
      (o.restoreTask t).taskDepth t.taskId = t.delegationDepth := by
  constructor
  · by_cases hzero : t.childCount = 0
    · rw [hzero, ← hcount]
      simp [restoreTask, childCount, hzero]
    · simp [restoreTask, childCount, hzero]
  · cases hd : t.delegationDepth with
    | none =>
      rw [← hdepth]
      simp [restoreTask, taskDepth, hd]
    | some depth => simp [restoreTask, taskDepth, hd]

theorem childCount_congr (h : o.childCounts.get? id = o'.childCounts.get? id) :
    o.childCount id = o'.childCount id := by
  unfold childCount
  rw [h]

theorem taskDepth_congr (h : o.taskDepths.get? id = o'.taskDepths.get? id) :
    o.taskDepth id = o'.taskDepth id := congrArg _ h

theorem restoreTasks_spec (o : Orchestrator) {tasks : List AgentDelegationTaskState}
    (hnodup : (tasks.map AgentDelegationTaskState.taskId).Nodup) :
    (∀ id ∉ tasks.map AgentDelegationTaskState.taskId,
      (tasks.foldl restoreTask o).childCounts.get? id = o.childCounts.get? id ∧
        (tasks.foldl restoreTask o).taskDepths.get? id = o.taskDepths.get? id) ∧
    ∀ t ∈ tasks, o.childCount t.taskId = 0 → o.taskDepth t.taskId = none →
      (tasks.foldl restoreTask o).childCount t.taskId = t.childCount ∧
        (tasks.foldl restoreTask o).taskDepth t.taskId = t.delegationDepth := by
  induction tasks generalizing o with
  | nil => exact ⟨fun id _ => ⟨rfl, rfl⟩, fun t ht => nomatch ht⟩
  | cons t ts ih =>
    obtain ⟨hfirst, hrest⟩ := List.nodup_cons.mp hnodup
    obtain ⟨hother, hown⟩ := ih (o.restoreTask t) hrest
    refine ⟨fun id hid => ?_, fun t' ht' hcount hdepth => ?_⟩
    · simp only [List.map_cons, List.mem_cons, not_or] at hid
      obtain ⟨hcounts, hdepths⟩ := restoreTask_ne o hid.1
      exact ⟨(hother id hid.2).1.trans hcounts, (hother id hid.2).2.trans hdepths⟩
    · rcases List.mem_cons.mp ht' with rfl | ht'
      · obtain ⟨hcounts, hdepths⟩ := hother t'.taskId hfirst
        obtain ⟨hself, hself'⟩ := restoreTask_self o hcount hdepth
        exact ⟨(childCount_congr hcounts).trans hself, (taskDepth_congr hdepths).trans hself'⟩
      · have hne : t'.taskId ≠ t.taskId := fun heq => hfirst (heq ▸ List.mem_map_of_mem ht')
        obtain ⟨hcounts, hdepths⟩ := restoreTask_ne o hne
        exact hown t' ht' ((childCount_congr hcounts).trans hcount)
          ((taskDepth_congr hdepths).trans hdepth)

/-- **Restoration.** The restored orchestrator has the counts and the depths of the first. -/
theorem restored_ok (h : Snapshottable o) :
    ∃ o', o.restored = some o' ∧ (∀ id, o'.childCount id = o.childCount id) ∧
      (∀ id, o'.taskDepth id = o.taskDepth id) ∧ Snapshottable o' := by
  obtain ⟨state, hstate, hids, hfields⟩ := snapshot_ok h
  obtain ⟨hother, hown⟩ := restoreTasks_spec
    ⟨o.registry, o.executors, .empty, .empty, o.manager⟩ state.tasks.nodup
  have hlookup : ∀ id, (make o.registry o.executors (some state) o.manager).childCount id
        = o.childCount id ∧
      (make o.registry o.executors (some state) o.manager).taskDepth id = o.taskDepth id := by
    intro id
    by_cases hid : id ∈ state.tasks.rows.map AgentDelegationTaskState.taskId
    · obtain ⟨t, ht, rfl⟩ := List.mem_map.mp hid
      obtain ⟨hcount, hdepth⟩ := hown t ht rfl rfl
      obtain ⟨hcount', hdepth'⟩ := hfields t ht
      exact ⟨hcount.trans hcount', hdepth.trans hdepth'⟩
    · obtain ⟨hcount, hdepth⟩ := hother id hid
      have hnone : o.taskDepth id = none := Option.not_isSome_iff_eq_none.mp (mt (hids id).mpr hid)
      have hzero : o.childCount id = 0 := by
        unfold childCount
        cases hc : o.childCounts.get? id with
        | none => rfl
        | some row => exact absurd ((hids id).mpr (h.counted id (by rw [hc]; rfl))) hid
      rw [hnone, hzero]
      exact ⟨childCount_congr hcount, taskDepth_congr hdepth⟩
  refine ⟨make o.registry o.executors (some state) o.manager, ?_, fun id => (hlookup id).1,
    fun id => (hlookup id).2, fun id hid => ?_, fun id hid => ?_⟩
  · unfold restored
    rw [hstate, Option.bind_some, decodeAgentDelegationState_payload]
    rfl
  · rw [(hlookup id).2] at hid
    exact h.filled id hid
  · rw [(hlookup id).2, ← hids id]
    by_contra hnot
    have hnone := (hother id hnot).1
    rw [show (make o.registry o.executors (some state) o.manager).childCounts.get? id = _ from hnone]
      at hid
    cases hid

end Orchestrator

/-! ## Runs -/

def FilledIds (_ : List (OrchestrationInput × OrchestrationAnswer)) (_ : Orchestration) :
    OrchestrationInput → Prop
  | .delegate _ _ _ id => Text.isBlank id = false
  | _ => True

structure Limited (h : List (OrchestrationInput × OrchestrationAnswer)) (s : Orchestration) :
    Prop where
  known : Known s
  count : ∀ parent, s.orchestrator.childCount parent = (childrenOf h parent).length
  depth : ∀ id, s.orchestrator.taskDepth id
    = (lastAccepted h id).map AgentTaskRequest.delegationDepth
  snapshottable : Orchestrator.Snapshottable s.orchestrator

variable (numberText : Amount → String)

variable {h : List (OrchestrationInput × OrchestrationAnswer)}

theorem Limited.same {s s' : Orchestration}
    (hlim : Limited h s) {x : OrchestrationInput × OrchestrationAnswer}
    (hx : acceptedRequest x = none) (hknown : Known s')
    (hcounts : s'.orchestrator.childCounts = s.orchestrator.childCounts)
    (hdepths : s'.orchestrator.taskDepths = s.orchestrator.taskDepths) :
    Limited (h ++ [x]) s' := by
  have hcount : ∀ id, s'.orchestrator.childCount id = s.orchestrator.childCount id := fun id => by
    unfold Orchestrator.childCount
    rw [hcounts]
  have hdepth : ∀ id, s'.orchestrator.taskDepth id = s.orchestrator.taskDepth id := fun id => by
    unfold Orchestrator.taskDepth
    rw [hdepths]
  refine ⟨hknown, fun parent => ?_, fun id => ?_, fun id hid => ?_, fun id hid => ?_⟩
  · rw [hcount, childrenOf, unaccepted_snoc h hx]
    exact hlim.count parent
  · rw [hdepth, lastAccepted, unaccepted_snoc h hx]
    exact hlim.depth id
  · rw [hdepth] at hid
    exact hlim.snapshottable.filled id hid
  · rw [hcounts] at hid
    rw [hdepth]
    exact hlim.snapshottable.counted id hid

theorem Limited.step {h : List (OrchestrationInput × OrchestrationAnswer)} {s : Orchestration}
    (hlim : Limited h s) {i : OrchestrationInput} (hi : FilledIds h s i) :
    Limited (h ++ [(i, (s.step numberText i).1)]) (s.step numberText i).2 := by
  have hknown := hlim.known.step numberText i
  have hstep := step_spec numberText hlim.known i
  generalize (s.step numberText i).1 = answer, (s.step numberText i).2 = s' at hstep hknown ⊢
  cases hstep with
  | idle _ hanswer => exact hlim.same (acceptedRequest_of_ne hanswer) hknown rfl rfl
  | unopened new selected reserved raised =>
    obtain ⟨registry, hopen⟩ := openDelegation_new hi selected reserved
    rw [hopen] at raised
    cases raised
  | @opened callId request agentId id i o call new selected reserved awaits =>
    have hreserved := Orchestrator.reserveDelegation_spec reserved
    obtain ⟨hcounts, hdepths, -, -⟩ :=
      Orchestrator.openDelegation_frame o callId request i.agentId id
    have hcount : ∀ p, (o.openDelegation callId request i.agentId id).2.childCount p
        = o.childCount p := fun p => Orchestrator.childCount_congr (by rw [hcounts])
    have hdepth : ∀ p, (o.openDelegation callId request i.agentId id).2.taskDepth p
        = o.taskDepth p := fun p => Orchestrator.taskDepth_congr (by rw [hdepths])
    refine ⟨hknown, fun parent => ?_, fun p => ?_, fun p hp => ?_, fun p hp => ?_⟩
    · rw [childrenOf_snoc rfl, ← hlim.count parent]
      exact (hcount parent).trans (hreserved.counts parent)
    · rw [lastAccepted_snoc rfl, hdepth, hreserved.depths p, hlim.depth p]
      split <;> rfl
    · rw [hdepth, hreserved.depths p] at hp
      by_cases hid : p = request.taskId
      · rw [hid]
        exact request.id_filled
      · rw [if_neg hid] at hp
        exact hlim.snapshottable.filled p hp
    · rw [hcounts] at hp
      rw [hdepth, hreserved.depths p]
      split
      · rfl
      · rcases hreserved.counted p hp with hold | hparent
        · exact hlim.snapshottable.counted p hold
        · obtain ⟨depth, hd, -, -⟩ := hreserved.child p hparent
          rw [hd]
          rfl
  | ended outcome inFlight freed => exact hlim.same rfl hknown rfl rfl
  | registry ok => exact hlim.same rfl hknown rfl rfl
  | registerExecutor executors => exact hlim.same rfl hknown rfl rfl
  | manager c _ => exact hlim.same rfl hknown rfl rfl
  | replaced ok =>
    obtain ⟨o, ho, hcount, hdepth, hsnapshot⟩ := Orchestrator.restored_ok hlim.snapshottable
    rw [ok] at ho
    cases ho
    refine ⟨hknown, fun parent => ?_, fun id => ?_, hsnapshot⟩
    · rw [hcount, childrenOf, unaccepted_snoc h rfl]
      exact hlim.count parent
    · rw [hdepth, lastAccepted, unaccepted_snoc h rfl]
      exact hlim.depth id

structure WithinLimits (h : List (OrchestrationInput × OrchestrationAnswer))
    (request : AgentTaskRequest) : Prop where
  depth : request.delegationDepth ≤ request.constraints.maxDepth
  root : request.parentTaskId = none → request.delegationDepth = 0
  child : ∀ parent, request.parentTaskId = some parent →
    ∃ p, lastAccepted h parent = some p ∧ request.delegationDepth = p.delegationDepth + 1 ∧
      (childrenOf h parent).length + 1 ≤ request.constraints.maxChildren

/-- A request that is accepted is within the limits; any other changes nothing. -/
theorem Limited.accepts {s : Orchestration}
    (hlim : Limited h s) (callId : CallId) (request : AgentTaskRequest) (agentId : Option AgentId)
    {id : DelegationId} (hid : Text.isBlank id = false) :
    (s.step numberText (.delegate callId request agentId id)).1 = .awaits ∧ WithinLimits h request ∨
      (s.step numberText (.delegate callId request agentId id)).1 ≠ .awaits ∧
        (s.step numberText (.delegate callId request agentId id)).2 = s := by
  have hstep := step_spec numberText hlim.known (.delegate callId request agentId id)
  generalize (s.step numberText (.delegate callId request agentId id)).1 = answer,
    (s.step numberText (.delegate callId request agentId id)).2 = s' at hstep ⊢
  cases hstep with
  | idle _ hanswer => exact .inr ⟨hanswer, rfl⟩
  | unopened new selected reserved raised =>
    obtain ⟨registry, hopen⟩ := openDelegation_new hid selected reserved
    rw [hopen] at raised
    cases raised
  | opened new selected reserved awaits =>
    have hreserved := Orchestrator.reserveDelegation_spec reserved
    refine .inl ⟨rfl, request.depth_le, hreserved.root, fun parent hparent => ?_⟩
    obtain ⟨depth, hdepth, heq, hcount⟩ := hreserved.child parent hparent
    rw [hlim.depth parent, Option.map_eq_some_iff] at hdepth
    obtain ⟨p, hp, hpdepth⟩ := hdepth
    rw [hlim.count parent] at hcount
    exact ⟨p, hp, by rw [heq, hpdepth], hcount⟩

variable (registry : AgentRegistry) (executors : List AgentId)

theorem limited_run {is : List OrchestrationInput}
    (hm : (orchestration numberText registry executors).Meets FilledIds is) :
    Limited ((orchestration numberText registry executors).history is)
      ((orchestration numberText registry executors).state is) :=
  (orchestration numberText registry executors).induct Limited
    ⟨fun call hcall => absurd hcall (Table.not_mem_empty call), fun _ => rfl, fun _ => rfl,
      ⟨fun _ hid => (nomatch hid), fun _ hid => (nomatch hid)⟩⟩
    (fun _ _ _ h hi => h.step numberText hi) hm

/-- **Depth and fan-out.** In every run, a request that is accepted is one deeper than the request
its parent was accepted with last, so no deeper than it allows itself, and its parent has then no
more children than it allows; any other request changes nothing; the counts and depths are those of
the accepted requests of the history; and a restoration from the snapshot, at any point, goes
through. -/
theorem delegation_limits (is : List OrchestrationInput)
    (hm : (orchestration numberText registry executors).Meets FilledIds is) :
    (∀ callId request agentId id, Text.isBlank id = false →
      (((orchestration numberText registry executors).state is).step numberText
          (.delegate callId request agentId id)).1 = .awaits ∧
        WithinLimits ((orchestration numberText registry executors).history is) request ∨
      (((orchestration numberText registry executors).state is).step numberText
          (.delegate callId request agentId id)).1 ≠ .awaits ∧
        (((orchestration numberText registry executors).state is).step numberText
          (.delegate callId request agentId id)).2
            = (orchestration numberText registry executors).state is) ∧
    (∀ parent,
      ((orchestration numberText registry executors).state is).orchestrator.childCount parent
        = (childrenOf ((orchestration numberText registry executors).history is) parent).length) ∧
    (∀ id, ((orchestration numberText registry executors).state is).orchestrator.taskDepth id
      = (lastAccepted ((orchestration numberText registry executors).history is) id).map
          AgentTaskRequest.delegationDepth) ∧
    (((orchestration numberText registry executors).state is).step numberText .replaced).1
      = .done := by
  have hlim := limited_run numberText registry executors hm
  refine ⟨fun callId request agentId id hid => hlim.accepts numberText callId request agentId hid,
    hlim.count, hlim.depth, ?_⟩
  obtain ⟨o, ho, -, -, -⟩ := Orchestrator.restored_ok hlim.snapshottable
  simp only [Orchestration.step, ho]

instance (h : List (OrchestrationInput × OrchestrationAnswer)) (s : Orchestration) :
    ∀ i, Decidable (FilledIds h s i)
  | .delegate _ _ _ id => inferInstanceAs (Decidable (Text.isBlank id = false))
  | .manager _ => .isTrue trivial
  | .ended _ _ => .isTrue trivial
  | .registry _ => .isTrue trivial
  | .registerExecutor _ => .isTrue trivial
  | .replaced => .isTrue trivial

/-- A child of `task-1`. -/
def childRequest (taskId : AgentTaskId) (maxChildren : Nat) (hpos : 0 < maxChildren)
    (hid : Text.isBlank taskId = false) : AgentTaskRequest where
  goal := "review"
  constraints := { AgentTaskConstraints.plain with maxChildren, children_pos := hpos }
  taskId := taskId
  parentTaskId := some "task-1"
  delegationDepth := 1
  goal_filled := review_filled
  depth_le := Nat.le_refl 1
  id_filled := hid

/-- A task and two children, one after the other: the first child allows one, the second two. -/
theorem child_filled : Text.isBlank "task-2" = false := by decide

def twoChildren : List OrchestrationInput :=
  [.delegate 0 reviewRequest none "delegation-1", .ended 0 .cancelled,
    .delegate 1 (childRequest "task-2" 1 Nat.one_pos child_filled) none "delegation-2",
    .ended 1 .cancelled, .replaced,
    .delegate 2 (childRequest "task-3" 2 (by decide) (by decide)) none "delegation-3"]

theorem delegation_limits_two :
    ((orchestration (fun _ => "1.0") adaRegistry ["ada"]).state
        twoChildren).orchestrator.childCount "task-1"
      = (childrenOf ((orchestration (fun _ => "1.0") adaRegistry ["ada"]).history twoChildren)
          "task-1").length :=
  (delegation_limits (fun _ => "1.0") adaRegistry ["ada"] twoChildren
    (by decide +kernel)).2.1 "task-1"

/-- Each request is checked against its own limit, not against that of its siblings. -/
theorem sibling_limit_exceeded :
    ¬ ∀ is, (orchestration (fun _ => "1.0") adaRegistry ["ada"]).Meets FilledIds is →
      ∀ parent, ∀ r ∈ childrenOf ((orchestration (fun _ => "1.0") adaRegistry ["ada"]).history is)
          parent,
        (childrenOf ((orchestration (fun _ => "1.0") adaRegistry ["ada"]).history is)
          parent).length ≤ r.constraints.maxChildren := by
  intro h
  have hrun : ∃ r ∈ childrenOf ((orchestration (fun _ => "1.0") adaRegistry ["ada"]).history
      twoChildren) "task-1", ¬ (childrenOf ((orchestration (fun _ => "1.0") adaRegistry
        ["ada"]).history twoChildren) "task-1").length ≤ r.constraints.maxChildren := by
    decide +kernel
  obtain ⟨r, hr, hexceeded⟩ := hrun
  exact hexceeded (h twoChildren (by decide +kernel) "task-1" r hr)

end UniversalAgent.MultiAgent
