import UniversalAgent.Tasks.Operations

/-!
# Tasks — Graph

The dictionaries of a graph in which keys and ids are distinct, each dependency is a task, and no task
depends on itself (`TaskManager`). On them the operations are those on the graph.
-/

namespace UniversalAgent.Tasks

open UniversalAgent.Core UniversalAgent.Foundation

/-! ## The dependency check -/

section Acyclicity

variable {g : List (TaskId × List TaskId)} {n : Nat}

theorem peel_succ (n : Nat) (g : List (TaskId × List TaskId)) :
    peel (n + 1) g = peel n (g.filter fun p => p.2.any fun d => (g.map Prod.fst).contains d) := rfl

/-- The nodes of a cycle stay when the free ones are taken away. -/
theorem transGen_filter {a b c : TaskId} (hc : Predecessors.Edge g c a)
    (h : Relation.TransGen (Predecessors.Edge g) a b) :
    Relation.TransGen
      (Predecessors.Edge (g.filter fun p => p.2.any fun d => (g.map Prod.fst).contains d)) a b := by
  have hstep : ∀ {x y z}, Predecessors.Edge g x y → Predecessors.Edge g y z →
      Predecessors.Edge (g.filter fun p => p.2.any fun d => (g.map Prod.fst).contains d) y z := by
    intro x y z hxy hyz
    obtain ⟨before, hrow, -⟩ := Predecessors.mem_of.mp hxy
    obtain ⟨ps, hmem, hy⟩ := Predecessors.mem_of.mp hyz
    refine Predecessors.mem_of.mpr ⟨ps, List.mem_filter.mpr ⟨hmem, ?_⟩, hy⟩
    exact List.any_eq_true.mpr ⟨y, hy, List.contains_iff_mem.mpr (List.mem_map_of_mem (f := Prod.fst) hrow)⟩
  induction h with
  | single hab => exact .single (hstep hc hab)
  | tail hab hbc ih =>
    cases hab with
    | single hab => exact ih.tail (hstep hab hbc)
    | tail _ hab => exact ih.tail (hstep hab hbc)

theorem acyclic_of_peel (h : peel n g = []) : Predecessors.Acyclic g := by
  induction n generalizing g with
  | zero =>
    obtain rfl : g = [] := h
    intro a ha
    obtain ⟨b, hab, -⟩ := Relation.TransGen.head'_iff.mp ha
    obtain ⟨ps, hmem, -⟩ := Predecessors.mem_of.mp hab
    cases hmem
  | succ n ih =>
    intro a ha
    obtain ⟨c, -, hca⟩ := Relation.TransGen.tail'_iff.mp ha
    exact ih h a (transGen_filter hca ha)

theorem peel_of_acyclic (hlen : g.length ≤ n) (h : Predecessors.Acyclic g) : peel n g = [] := by
  induction n generalizing g with
  | zero => exact List.eq_nil_of_length_eq_zero (Nat.le_zero.mp hlen)
  | succ n ih =>
    rw [peel_succ]
    cases g with
    | nil => exact ih (Nat.zero_le _) h
    | cons row rows =>
      -- of the nodes, one has no predecessor among them: its row goes
      obtain ⟨a, ha, hfree⟩ := h.exists_first (S := fun x => x ∈ (row :: rows).map Prod.fst)
        (a := row.1) (by simp) fun x hx => by
          obtain ⟨r, hr, rfl⟩ := List.mem_map.mp hx
          exact Predecessors.mem_nodes.mpr ⟨r, hr, .inl rfl⟩
      obtain ⟨r, hr, rfl⟩ := List.mem_map.mp ha
      refine ih ?_ ?_
      · have hlt := List.length_filter_lt_length_iff_exists
          (p := fun p : TaskId × List TaskId => p.2.any fun d =>
            ((row :: rows).map Prod.fst).contains d) (l := row :: rows)
        have := hlt.mpr ⟨r, hr, by
          rw [Bool.not_eq_true, List.any_eq_false]
          intro d hd hcontains
          exact hfree d (Predecessors.mem_of.mpr ⟨r.2, hr, hd⟩) (List.contains_iff_mem.mp hcontains)⟩
        omega
      · intro x hx
        refine h x (Relation.TransGen.mono (fun y z hyz => ?_) x x hx)
        obtain ⟨ps, hmem, hy⟩ := Predecessors.mem_of.mp hyz
        exact Predecessors.mem_of.mpr ⟨ps, List.mem_of_mem_filter hmem, hy⟩

/-- **The dependency check** finds whether a task depends on itself. -/
theorem isAcyclic_iff : isAcyclic g = true ↔ Predecessors.Acyclic g := by
  unfold isAcyclic
  rw [List.isEmpty_iff]
  exact ⟨acyclic_of_peel, peel_of_acyclic le_rfl⟩

/-- A node after those it depends on closes no cycle. -/
theorem acyclic_concat (h : Predecessors.Acyclic g) {id : TaskId} {deps : List TaskId}
    (hunused : ∀ row ∈ g, id ∉ row.2) (hdeps : id ∉ deps) :
    Predecessors.Acyclic (g ++ [(id, deps)]) := by
  have hlast : ∀ {x y}, Predecessors.Edge (g ++ [(id, deps)]) x y → x ≠ id := by
    intro x y hxy
    obtain ⟨ps, hmem, hx⟩ := Predecessors.mem_of.mp hxy
    rcases List.mem_append.mp hmem with hold | hnew
    · exact fun heq => hunused _ hold (heq ▸ hx)
    · obtain ⟨-, rfl⟩ := Prod.mk.inj (List.mem_singleton.mp hnew)
      exact fun heq => hdeps (heq ▸ hx)
  have hedge : ∀ {x y}, Predecessors.Edge (g ++ [(id, deps)]) x y → y ≠ id → Predecessors.Edge g x y := by
    intro x y hxy hy
    obtain ⟨ps, hmem, hx⟩ := Predecessors.mem_of.mp hxy
    rcases List.mem_append.mp hmem with hold | hnew
    · exact Predecessors.mem_of.mpr ⟨ps, hold, hx⟩
    · exact absurd (Prod.mk.inj (List.mem_singleton.mp hnew)).1 hy
  intro a ha
  obtain ⟨b, hab, -⟩ := Relation.TransGen.head'_iff.mp ha
  have hpath : ∀ {y}, Relation.TransGen (Predecessors.Edge (g ++ [(id, deps)])) a y → y ≠ id →
      Relation.TransGen (Predecessors.Edge g) a y := by
    intro y hy
    induction hy with
    | single hay => exact fun hne => .single (hedge hay hne)
    | tail _ hyz ih => exact fun hne => (ih (hlast hyz)).tail (hedge hyz hne)
  exact h a (hpath ha (hlast hab))

end Acyclicity

/-! ## The graph of a manager -/

namespace TaskManager

section Fields

def fieldsOf (nodes : List TaskNodeSnapshot) (hkeys : (nodes.map TaskNodeSnapshot.key).Nodup)
    (hids : (taskIds nodes).Nodup) (currentId : TaskId) : ManagerFields where
  tasks := ⟨nodes.map fun n => (n.task.id, n.task), by rw [List.map_map]; exact hids⟩
  keys := ⟨nodes.map fun n => (n.key, n.task.id), by rw [List.map_map]; exact hkeys⟩
  dependencies := ⟨dependencies nodes, by unfold dependencies; rw [List.map_map]; exact hids⟩
  order := taskIds nodes
  currentId := currentId

section Nodes

variable {nodes : List TaskNodeSnapshot} {hkeys : (nodes.map TaskNodeSnapshot.key).Nodup}
  {hids : (taskIds nodes).Nodup} {currentId : TaskId}

@[simp] theorem taskKeys_fieldsOf :
    (fieldsOf nodes hkeys hids currentId).tasks.rows.map Prod.fst = taskIds nodes := by
  unfold fieldsOf
  rw [List.map_map]
  rfl

@[simp] theorem keys_fieldsOf : (fieldsOf nodes hkeys hids currentId).keys.rows.map Prod.fst =
    nodes.map TaskNodeSnapshot.key := by
  unfold fieldsOf
  rw [List.map_map]
  rfl

@[simp] theorem dependencyKeys_fieldsOf :
    (fieldsOf nodes hkeys hids currentId).dependencies.rows.map Prod.fst = taskIds nodes := by
  unfold fieldsOf dependencies
  rw [List.map_map]
  rfl

/-- Attributes are those of nodes, if they have their rows. -/
theorem eq_fieldsOf {f : ManagerFields} (htasks : f.tasks.rows = nodes.map fun n => (n.task.id, n.task))
    (hkeyRows : f.keys.rows = nodes.map fun n => (n.key, n.task.id))
    (hdependencies : f.dependencies.rows = dependencies nodes) (horder : f.order = taskIds nodes)
    (hcurrent : f.currentId = currentId) : f = fieldsOf nodes hkeys hids currentId := by
  obtain ⟨tasks, keys, dependencies, order, currentId⟩ := f
  obtain rfl : tasks = (fieldsOf nodes hkeys hids currentId).tasks := Table.ext htasks
  obtain rfl : keys = (fieldsOf nodes hkeys hids currentId).keys := Table.ext hkeyRows
  obtain rfl : dependencies = (fieldsOf nodes hkeys hids currentId).dependencies := Table.ext hdependencies
  cases horder
  cases hcurrent
  rfl

theorem fieldsOf_congr {nodes' : List TaskNodeSnapshot} (h : nodes = nodes')
    (hkeys' : (nodes'.map TaskNodeSnapshot.key).Nodup) (hids' : (taskIds nodes').Nodup) :
    fieldsOf nodes hkeys hids currentId = fieldsOf nodes' hkeys' hids' currentId := by
  subst h
  rfl

end Nodes

def fields (m : TaskManager) : ManagerFields := fieldsOf m.nodes m.keys_nodup m.ids_nodup m.currentId

variable {m : TaskManager} {id : TaskId} {n : TaskNodeSnapshot}

theorem tasks_fields (m : TaskManager) :
    m.fields.tasks.rows = m.nodes.map fun n => (n.task.id, n.task) := rfl

@[simp] theorem taskKeys_fields (m : TaskManager) : m.fields.tasks.rows.map Prod.fst = taskIds m.nodes :=
  taskKeys_fieldsOf

@[simp] theorem keys_fields (m : TaskManager) :
    m.fields.keys.rows.map Prod.fst = m.nodes.map TaskNodeSnapshot.key := keys_fieldsOf

theorem value?_fields (h : n ∈ m.nodes) : m.fields.tasks.value? n.task.id = some n.task :=
  Dict.value?_eq_some.mpr (List.mem_map_of_mem (f := fun n => (n.task.id, n.task)) h)

theorem task_fields (h : n ∈ m.nodes) : m.fields.task n.task.id = .ok n.task := by
  unfold ManagerFields.task
  rw [value?_fields h]
  rfl

theorem dependenciesOf_fields (h : n ∈ m.nodes) : m.fields.dependenciesOf n.task.id = .ok n.dependsOn := by
  unfold ManagerFields.dependenciesOf
  rw [Dict.value?_eq_some.mpr (List.mem_map_of_mem (f := fun n => (n.task.id, n.dependsOn)) h)]
  rfl

theorem validateAcyclic_eq_ok {f : ManagerFields} :
    f.validateAcyclic = .ok () ↔ Predecessors.Acyclic f.dependencies.rows := by
  unfold ManagerFields.validateAcyclic
  rw [← not_not (a := Predecessors.Acyclic _), ← TopologicalSorter.hasCycle_iff]
  split
  · next hcycle => exact iff_of_false (fun h => by cases h) (not_not.mpr hcycle)
  · next hcycle => exact iff_of_true rfl hcycle

theorem validateAcyclic_fields (m : TaskManager) : m.fields.validateAcyclic = .ok () :=
  validateAcyclic_eq_ok.mpr (isAcyclic_iff.mp m.acyclic)

/-! ### Reading -/

theorem current_fields (m : TaskManager) : m.fields.current = .ok m.current := by
  obtain ⟨n, hn, hcurrent⟩ := List.mem_map.mp m.current_mem_all
  have htask := task_fields hn
  rw [hcurrent, current_id] at htask
  exact htask

theorem mapM_taskIds {α : Type} {f : TaskId → Except TaskError α} {g : TaskNodeSnapshot → α}
    (h : ∀ n ∈ m.nodes, f n.task.id = .ok (g n)) : (taskIds m.nodes).mapM f = .ok (m.nodes.map g) := by
  rw [Except.mapM_eq_ok, taskIds, List.forall₂_map_left_iff, List.forall₂_map_right_iff]
  exact List.forall₂_same.mpr h

theorem keyOf_fields (h : n ∈ m.nodes) : m.fields.keyOf n.task.id = .ok n.key := by
  unfold ManagerFields.keyOf
  cases hfind : m.fields.keys.rows.reverse.find? fun p => p.2 = n.task.id with
  | none =>
    have hmem : (n.key, n.task.id) ∈ m.fields.keys.rows.reverse :=
      List.mem_reverse.mpr (List.mem_map_of_mem (f := fun n => (n.key, n.task.id)) h)
    exact absurd (List.find?_eq_none.mp hfind _ hmem) (by simp)
  | some p =>
    obtain ⟨k, hk, rfl⟩ := List.mem_map.mp (List.mem_reverse.mp (List.mem_of_find?_eq_some hfind))
    have hid : k.task.id = n.task.id := by simpa using List.find?_some hfind
    rw [List.inj_on_of_nodup_map m.ids_nodup hk h hid]
    rfl

theorem nodeOf_fields (h : n ∈ m.nodes) : m.fields.nodeOf n.task.id = .ok n := by
  unfold ManagerFields.nodeOf
  rw [keyOf_fields h, task_fields h, dependenciesOf_fields h]
  rfl

theorem snapshot_fields (m : TaskManager) : m.fields.snapshot = .ok m.snapshot := by
  unfold ManagerFields.snapshot
  rw [show m.fields.order = taskIds m.nodes from rfl, mapM_taskIds fun _ hn => nodeOf_fields hn, List.map_id']
  rfl

/-! ### Changing statuses -/

theorem nodes_setStatuses (m : TaskManager) (f : Task → TaskStatus) :
    (m.setStatuses f).nodes = m.nodes.map fun n => { n with task := { n.task with status := f n.task } } :=
  rfl

/-- The attributes of a manager of which only statuses are others. -/
theorem fields_setStatuses {f : ManagerFields} {statuses : Task → TaskStatus}
    (htasks : f.tasks.rows =
      m.nodes.map fun n => (n.task.id, { n.task with status := statuses n.task }))
    (hkeys : f.keys = m.fields.keys) (hdependencies : f.dependencies = m.fields.dependencies)
    (horder : f.order = m.fields.order) (hcurrent : f.currentId = m.currentId) :
    f = (m.setStatuses statuses).fields := by
  refine eq_fieldsOf ?_ ?_ ?_ ?_ hcurrent
  · rw [htasks, nodes_setStatuses, List.map_map]
    rfl
  · rw [hkeys, nodes_setStatuses, List.map_map]
    rfl
  · rw [hdependencies, nodes_setStatuses, dependencies, List.map_map]
    rfl
  · rw [horder, nodes_setStatuses, taskIds, List.map_map]
    rfl

theorem withStatus_fields (hmem : id ∈ taskIds m.nodes) (status : TaskStatus) :
    m.fields.withStatus id status =
      (m.setStatuses fun t => if t.id = id then status else t.status).fields := by
  obtain ⟨n, hn, rfl⟩ := List.mem_map.mp hmem
  have hpresent : n.task.id ∈ m.fields.tasks.rows.map Prod.fst := by
    rw [taskKeys_fields]
    exact hmem
  unfold ManagerFields.withStatus
  rw [value?_fields hn]
  refine fields_setStatuses ?_ rfl rfl rfl rfl
  rw [Dict.rows_put hpresent, tasks_fields, List.map_map]
  refine List.map_congr_left fun k hk => ?_
  dsimp only [Function.comp_apply]
  split
  · next hid => rw [List.inj_on_of_nodup_map m.ids_nodup hk hn hid]
  · rfl

theorem completeCurrent_fields (m : TaskManager) :
    ManagerFields.completeCurrent m.fields = .ok () m.completeCurrent.fields := by
  unfold ManagerFields.completeCurrent
  rw [current_fields]
  exact congrArg (EStateM.Result.ok ()) (withStatus_fields m.current_mem .completed)

theorem completeAll_fields (m : TaskManager) :
    ManagerFields.completeAll m.fields = .ok () m.completeAll.fields := by
  refine congrArg (EStateM.Result.ok ()) (fields_setStatuses ?_ rfl rfl rfl rfl)
  change (m.fields.tasks.rows.map fun p => _) = _
  rw [tasks_fields, List.map_map]
  refine List.map_congr_left fun n _ => ?_
  dsimp only [Function.comp_apply]
  split <;> rfl

theorem setCurrent_fields (m : TaskManager) (id : TaskId) :
    ManagerFields.setCurrent id m.fields =
      match m.setCurrent id with
      | .ok m' => .ok () m'.fields
      | .error message => .error (.valueError message) m.fields := by
  unfold ManagerFields.setCurrent setCurrent
  rw [taskKeys_fields]
  by_cases hid : id ∈ taskIds m.nodes
  · rw [if_pos hid, dif_pos hid]
    rfl
  · rw [if_neg hid, dif_neg hid]

theorem start_fields (hmem : id ∈ taskIds m.nodes) :
    m.fields.start id =
      ({ m with currentId := id, current_mem := hmem : TaskManager }.markCurrent .running).fields :=
  withStatus_fields (m := { m with currentId := id, current_mem := hmem }) hmem .running

theorem allCompleted_fields {deps : List TaskId} (h : ∀ d ∈ deps, d ∈ taskIds m.nodes) :
    m.fields.allCompleted deps = .ok (deps.all fun d => m.statusOf d = some .completed) := by
  induction deps with
  | nil => rfl
  | cons d deps ih =>
    obtain ⟨n, hn, rfl⟩ := List.mem_map.mp (h d List.mem_cons_self)
    have hstatus : m.statusOf n.task.id = some n.task.status := by
      unfold statusOf
      rw [node?_eq_some.mpr ⟨hn, rfl⟩]
      rfl
    unfold ManagerFields.allCompleted
    rw [task_fields hn, Except.ok_bind, List.all_cons, hstatus]
    by_cases hcompleted : n.task.status = .completed
    · rw [if_pos hcompleted, ih fun d hd => h d (List.mem_cons_of_mem _ hd), hcompleted]
      rfl
    · rw [if_neg hcompleted, decide_eq_false (by simpa using hcompleted)]
      rfl

theorem isRunnable_fields (h : n ∈ m.nodes) :
    m.fields.isRunnable n.task.id = .ok (m.isRunnable n) := by
  unfold ManagerFields.isRunnable isRunnable
  rw [task_fields h, Except.ok_bind, dependenciesOf_fields h, Except.ok_bind]
  by_cases hpending : n.task.status = .pending
  · rw [if_pos hpending, allCompleted_fields (m.deps_known n h), hpending]
    rfl
  · rw [if_neg hpending, decide_eq_false hpending]
    rfl

def started (m : TaskManager) (id : TaskId) (hmem : id ∈ taskIds m.nodes) : TaskManager :=
  { m with currentId := id, current_mem := hmem : TaskManager }.markCurrent .running

theorem startNext_of_some (h : m.nodes.find? m.isRunnable = some n) (hmem : n.task.id ∈ taskIds m.nodes) :
    m.startNext = (some (m.started n.task.id hmem).current, m.started n.task.id hmem) := by
  unfold startNext
  split
  · next hnone => rw [h] at hnone; cases hnone
  · next n' hsome =>
    obtain rfl : n = n' := Option.some.inj (h.symm.trans hsome)
    rfl

theorem startNext_of_none (h : m.nodes.find? m.isRunnable = none) : m.startNext = (none, m) := by
  unfold startNext
  split
  · rfl
  · next hsome => rw [h] at hsome; cases hsome

theorem startFirst_fields {l : List TaskNodeSnapshot} (hsub : ∀ n ∈ l, n ∈ m.nodes) :
    (l.find? m.isRunnable = none → ManagerFields.startFirst (taskIds l) m.fields = .ok none m.fields) ∧
      ∀ n, l.find? m.isRunnable = some n → ∀ hmem : n.task.id ∈ taskIds m.nodes,
        ManagerFields.startFirst (taskIds l) m.fields =
          .ok (some (m.started n.task.id hmem).current) (m.started n.task.id hmem).fields := by
  induction l with
  | nil => exact ⟨fun _ => rfl, fun _ h => by cases h⟩
  | cons k l ih =>
    have hk := isRunnable_fields (hsub k List.mem_cons_self)
    rw [show taskIds (k :: l) = k.task.id :: taskIds l from rfl, ManagerFields.startFirst, hk]
    cases hrun : m.isRunnable k with
    | false =>
      rw [List.find?_cons_of_neg (by rw [hrun]; exact Bool.false_ne_true)]
      exact ih fun n hn => hsub n (List.mem_cons_of_mem _ hn)
    | true =>
      rw [List.find?_cons_of_pos hrun]
      refine ⟨by rintro ⟨⟩, fun n hn hmem => ?_⟩
      obtain rfl : k = n := Option.some.inj hn
      rw [start_fields hmem]
      dsimp only
      rw [current_fields]
      rfl

theorem startNext_fields (m : TaskManager) :
    ManagerFields.startNext m.fields = .ok m.startNext.1 m.startNext.2.fields := by
  have hloop := startFirst_fields (m := m) (l := m.nodes) fun _ h => h
  unfold ManagerFields.startNext
  cases hfind : m.nodes.find? m.isRunnable with
  | none =>
    rw [startNext_of_none hfind]
    exact hloop.1 hfind
  | some n =>
    have hmem : n.task.id ∈ taskIds m.nodes :=
      List.mem_map_of_mem (f := fun n => n.task.id) (List.mem_of_find?_eq_some hfind)
    rw [startNext_of_some hfind hmem]
    exact hloop.2 n hfind hmem

end Fields

end TaskManager

end UniversalAgent.Tasks
