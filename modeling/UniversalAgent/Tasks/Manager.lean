import UniversalAgent.Core.Models

/-!
# Tasks — Manager

`TaskManager` (`tasks/manager.py`): the tasks of a session in creation order, each under a key
and an id of its own, with the tasks it depends on, and the current one among them. What
`from_snapshot` checks is carried by the structure, so every manager's own snapshot is accepted
again.

Where a method raises it leaves no manager behind: the runtime drops the session object that
held it.
-/

namespace UniversalAgent.Tasks

open UniversalAgent.Core

structure TaskSpec where
  key : String
  description : String
  requiredCriteria : List String
  dependsOn : List TaskId
  taskId : Option TaskId
deriving DecidableEq

/-! ## The dependency check -/

/-- Kahn's procedure: take away the nodes none of whose predecessors is left, as often as there
are nodes. -/
def peel : Nat → List (TaskId × List TaskId) → List (TaskId × List TaskId)
  | 0, rest => rest
  | n + 1, rest =>
    peel n (rest.filter fun p => p.2.any fun d => (rest.map Prod.fst).contains d)

/-- `TopologicalSorter(dependencies).prepare()` finds no cycle. -/
def isAcyclic (dependencies : List (TaskId × List TaskId)) : Bool :=
  (peel dependencies.length dependencies).isEmpty

def dependencies (nodes : List TaskNodeSnapshot) : List (TaskId × List TaskId) :=
  nodes.map fun n => (n.task.id, n.dependsOn)

def taskIds (nodes : List TaskNodeSnapshot) : List TaskId := nodes.map fun n => n.task.id

structure TaskManager where
  nodes : List TaskNodeSnapshot
  currentId : TaskId
  keys_nodup : (nodes.map TaskNodeSnapshot.key).Nodup
  ids_nodup : (taskIds nodes).Nodup
  current_mem : currentId ∈ taskIds nodes
  deps_known : ∀ n ∈ nodes, ∀ d ∈ n.dependsOn, d ∈ taskIds nodes
  acyclic : isAcyclic (dependencies nodes) = true
deriving DecidableEq

namespace TaskManager

def snapshot (m : TaskManager) : TaskGraphSnapshot := ⟨m.nodes, m.currentId⟩

theorem snapshot_injective : Function.Injective snapshot := by
  intro a b h
  obtain ⟨hn, hc⟩ := TaskGraphSnapshot.mk.inj h
  cases a
  cases b
  subst hn hc
  rfl

def all (m : TaskManager) : List Task := m.nodes.map TaskNodeSnapshot.task

/-- The node of a task id, `none` for an id the manager does not have. -/
def node? (m : TaskManager) (id : TaskId) : Option TaskNodeSnapshot :=
  m.nodes.find? fun n => n.task.id = id

theorem node?_eq_some {m : TaskManager} {id : TaskId} {n : TaskNodeSnapshot} :
    m.node? id = some n ↔ n ∈ m.nodes ∧ n.task.id = id := by
  constructor
  · intro h
    exact ⟨List.mem_of_find?_eq_some h, by simpa using List.find?_some h⟩
  · rintro ⟨hn, rfl⟩
    cases h : m.node? n.task.id with
    | none =>
      have := List.find?_eq_none.mp h n hn
      simp at this
    | some k =>
      have hk : k ∈ m.nodes := List.mem_of_find?_eq_some h
      have hid : k.task.id = n.task.id := by simpa using List.find?_some h
      rw [List.inj_on_of_nodup_map m.ids_nodup hk hn hid]

theorem node?_current_isSome (m : TaskManager) : (m.node? m.currentId).isSome := by
  obtain ⟨n, hn, hid⟩ := List.mem_map.mp m.current_mem
  rw [node?_eq_some.mpr ⟨hn, hid⟩]
  rfl

def current (m : TaskManager) : Task := ((m.node? m.currentId).get m.node?_current_isSome).task

theorem current_mem_all (m : TaskManager) : m.current ∈ m.all := by
  have h := node?_eq_some.mp (Option.some_get m.node?_current_isSome).symm
  exact List.mem_map_of_mem h.1

@[simp] theorem current_id (m : TaskManager) : m.current.id = m.currentId :=
  (node?_eq_some.mp (Option.some_get m.node?_current_isSome).symm).2

theorem all_ids (m : TaskManager) : m.all.map Task.id = taskIds m.nodes := by
  simp [all, taskIds, List.map_map, Function.comp_def]

/-- The task of an id is the one in the list with that id. -/
theorem eq_current {m : TaskManager} {t : Task} (ht : t ∈ m.all) (hid : t.id = m.currentId) :
    t = m.current := by
  refine List.inj_on_of_nodup_map (f := Task.id) ?_ ht m.current_mem_all (by simp [hid])
  rw [all_ids]
  exact m.ids_nodup

/-! ## From a snapshot -/

/-- The first duplicate key or task id that `from_snapshot` meets. -/
def duplicate? : List String → List TaskId → List TaskNodeSnapshot → Option String
  | _, _, [] => none
  | keys, ids, n :: rest =>
    if n.key ∈ keys then some ("duplicate task key: " ++ n.key)
    else if n.task.id ∈ ids then some ("duplicate task id: " ++ n.task.id)
    else duplicate? (n.key :: keys) (n.task.id :: ids) rest

theorem duplicate?_eq_none {keys : List String} {ids : List TaskId}
    {nodes : List TaskNodeSnapshot} :
    duplicate? keys ids nodes = none ↔
      ((nodes.map TaskNodeSnapshot.key).Nodup ∧ ∀ n ∈ nodes, n.key ∉ keys) ∧
        (taskIds nodes).Nodup ∧ ∀ n ∈ nodes, n.task.id ∉ ids := by
  induction nodes generalizing keys ids with
  | nil => simp [duplicate?, taskIds]
  | cons n rest ih =>
    by_cases hk : n.key ∈ keys
    · simp [duplicate?, hk]
    · by_cases hid : n.task.id ∈ ids
      · simp [duplicate?, hk, hid]
      · simp only [duplicate?, hk, hid, if_false, ih, taskIds, List.map_cons, List.nodup_cons,
          List.mem_cons, List.mem_map, not_or, forall_eq_or_imp, not_exists, not_and]
        grind

def unknownDependency? (nodes : List TaskNodeSnapshot) : Option String :=
  (nodes.find? fun n => n.dependsOn.any fun d => !(taskIds nodes).contains d).map fun n =>
    "task " ++ n.task.id ++ " references unknown dependencies"

theorem unknownDependency?_eq_none {nodes : List TaskNodeSnapshot} :
    unknownDependency? nodes = none ↔
      ∀ n ∈ nodes, ∀ d ∈ n.dependsOn, d ∈ taskIds nodes := by
  simp [unknownDependency?]

/-- The first complaint `from_snapshot` has about a graph. -/
def graphError? (g : TaskGraphSnapshot) : Option String :=
  (if g.nodes = [] then some "task graph must contain at least one task" else none).or
    ((duplicate? [] [] g.nodes).or
      ((if g.currentTaskId ∈ taskIds g.nodes then none
        else some "task graph current task does not exist").or
        ((unknownDependency? g.nodes).or
          (if isAcyclic (dependencies g.nodes) = true then none
            else some "task graph contains a dependency cycle"))))

theorem graphError?_eq_none {g : TaskGraphSnapshot} :
    graphError? g = none ↔
      (g.nodes.map TaskNodeSnapshot.key).Nodup ∧ (taskIds g.nodes).Nodup ∧
        g.currentTaskId ∈ taskIds g.nodes ∧
        (∀ n ∈ g.nodes, ∀ d ∈ n.dependsOn, d ∈ taskIds g.nodes) ∧
        isAcyclic (dependencies g.nodes) = true := by
  have hne : g.currentTaskId ∈ taskIds g.nodes → g.nodes ≠ [] := by
    intro hc h
    simp [h, taskIds] at hc
  simp only [graphError?, Option.or_eq_none_iff, duplicate?_eq_none, unknownDependency?_eq_none,
    List.not_mem_nil, not_false_eq_true, implies_true, and_true]
  grind

def fromSnapshot (g : TaskGraphSnapshot) : Except String TaskManager :=
  match h : graphError? g with
  | some message => .error message
  | none =>
    have hw := graphError?_eq_none.mp h
    .ok
      { nodes := g.nodes
        currentId := g.currentTaskId
        keys_nodup := hw.1
        ids_nodup := hw.2.1
        current_mem := hw.2.2.1
        deps_known := hw.2.2.2.1
        acyclic := hw.2.2.2.2 }

theorem graphError?_snapshot (m : TaskManager) : graphError? m.snapshot = none :=
  graphError?_eq_none.mpr ⟨m.keys_nodup, m.ids_nodup, m.current_mem, m.deps_known, m.acyclic⟩

@[simp] theorem fromSnapshot_snapshot (m : TaskManager) : fromSnapshot m.snapshot = .ok m := by
  have h := graphError?_snapshot m
  unfold fromSnapshot
  split
  · next h' => simp [h] at h'
  · rfl

/-! ## Statuses -/

/-- Give every task the status `f` computes from it. -/
def setStatuses (m : TaskManager) (f : Task → TaskStatus) : TaskManager :=
  let upd := fun n : TaskNodeSnapshot => { n with task := { n.task with status := f n.task } }
  have hids : taskIds (m.nodes.map upd) = taskIds m.nodes := by
    simp [taskIds, List.map_map, Function.comp_def, upd]
  { nodes := m.nodes.map upd
    currentId := m.currentId
    keys_nodup := by
      have := m.keys_nodup
      simpa [List.map_map, Function.comp_def, upd] using this
    ids_nodup := by rw [hids]; exact m.ids_nodup
    current_mem := by rw [hids]; exact m.current_mem
    deps_known := by
      rw [hids]
      intro n hn d hd
      obtain ⟨k, hk, rfl⟩ := List.mem_map.mp hn
      exact m.deps_known k hk d hd
    acyclic := by
      have : dependencies (m.nodes.map upd) = dependencies m.nodes := by
        simp [dependencies, List.map_map, Function.comp_def, upd]
      rw [this]
      exact m.acyclic }

@[simp] theorem setStatuses_currentId (m : TaskManager) (f : Task → TaskStatus) :
    (m.setStatuses f).currentId = m.currentId := rfl

@[simp] theorem all_setStatuses (m : TaskManager) (f : Task → TaskStatus) :
    (m.setStatuses f).all = m.all.map fun t => { t with status := f t } := by
  simp [all, setStatuses, List.map_map, Function.comp_def]

theorem current_setStatuses (m : TaskManager) (f : Task → TaskStatus) :
    (m.setStatuses f).current = { m.current with status := f m.current } := by
  refine (eq_current (m := m.setStatuses f) ?_ (by simp)).symm
  rw [all_setStatuses]
  exact List.mem_map_of_mem (f := fun t : Task => { t with status := f t }) m.current_mem_all

/-- `tasks.current.status = status`. -/
def markCurrent (m : TaskManager) (status : TaskStatus) : TaskManager :=
  m.setStatuses fun t => if t.id = m.currentId then status else t.status

@[simp] theorem current_markCurrent (m : TaskManager) (status : TaskStatus) :
    (m.markCurrent status).current = { m.current with status := status } := by
  simp [markCurrent, current_setStatuses]

/-- Two managers with the same nodes and the same current task are one. -/
theorem ext_nodes {a b : TaskManager} (hn : a.nodes = b.nodes) (hc : a.currentId = b.currentId) :
    a = b :=
  snapshot_injective (by rw [snapshot, snapshot, hn, hc])

/-- Statuses that are those of the tasks already change nothing. -/
theorem setStatuses_self {m : TaskManager} {f : Task → TaskStatus}
    (h : ∀ t ∈ m.all, f t = t.status) : m.setStatuses f = m := by
  refine ext_nodes ?_ rfl
  conv_rhs => rw [← List.map_id m.nodes]
  refine List.map_congr_left fun n hn => ?_
  rw [h n.task (List.mem_map_of_mem hn)]
  rfl

theorem setStatuses_setStatuses (m : TaskManager) (f g : Task → TaskStatus) :
    (m.setStatuses f).setStatuses g
      = m.setStatuses fun t => g { t with status := f t } := by
  refine ext_nodes ?_ rfl
  simp [setStatuses, List.map_map, Function.comp_def]

@[simp] theorem markCurrent_markCurrent (m : TaskManager) (a b : TaskStatus) :
    (m.markCurrent a).markCurrent b = m.markCurrent b := by
  rw [markCurrent, markCurrent, setStatuses_setStatuses]
  refine congrArg m.setStatuses (funext fun t => ?_)
  by_cases h : t.id = m.currentId <;> simp [h]

theorem markCurrent_self (m : TaskManager) : m.markCurrent m.current.status = m := by
  refine setStatuses_self fun t ht => ?_
  by_cases h : t.id = m.currentId
  · rw [if_pos h, eq_current ht h]
  · rw [if_neg h]

def completeCurrent (m : TaskManager) : TaskManager := m.markCurrent .completed

def isSettled (status : TaskStatus) : Bool :=
  decide (status = .completed ∨ status = .failed ∨ status = .cancelled)

def completeAll (m : TaskManager) : TaskManager :=
  m.setStatuses fun t => if isSettled t.status then t.status else .completed

def hasUnfinished (m : TaskManager) : Bool := m.all.any fun t => !isSettled t.status

def statusOf (m : TaskManager) (id : TaskId) : Option TaskStatus :=
  (m.node? id).map fun n => n.task.status

theorem statusOf_current (m : TaskManager) : m.statusOf m.currentId = some m.current.status := by
  rw [statusOf, ← Option.some_get m.node?_current_isSome]
  rfl

/-- A task that `start_next` may start: PENDING, with every dependency COMPLETED. -/
def isRunnable (m : TaskManager) (n : TaskNodeSnapshot) : Bool :=
  n.task.status = .pending && n.dependsOn.all fun d => m.statusOf d = some .completed

/-- The tasks `start_next` may start. -/
def runnable (m : TaskManager) : List TaskId :=
  (m.nodes.filter m.isRunnable).map fun n => n.task.id

def setCurrent (m : TaskManager) (id : TaskId) : Except String TaskManager :=
  if h : id ∈ taskIds m.nodes then .ok { m with currentId := id, current_mem := h }
  else .error ("task does not exist: " ++ id)

/-- `start_next`: make the first runnable task the current one and mark it RUNNING. -/
def startNext (m : TaskManager) : Option Task × TaskManager :=
  match h : m.nodes.find? m.isRunnable with
  | none => (none, m)
  | some n =>
    let moved : TaskManager :=
      { m with
        currentId := n.task.id
        current_mem := List.mem_map_of_mem (List.mem_of_find?_eq_some h) }
    let started := moved.markCurrent .running
    (some started.current, started)

/-! ## Creation -/

/-- `Task(...)` for a spec, created at `now`. -/
def taskOfSpec (spec : TaskSpec) (now : Instant) : Task where
  description := spec.description
  requiredCriteria := spec.requiredCriteria
  id := spec.taskId.getD ("task:" ++ spec.key)
  status := .pending
  createdAt := now

/-- `TaskManager(root)`, under the key `key`. -/
def ofRoot (root : Task) (key : String) : TaskManager where
  nodes := [⟨key, root, []⟩]
  currentId := root.id
  keys_nodup := by simp
  ids_nodup := by simp [taskIds]
  current_mem := by simp [taskIds]
  deps_known := by simp
  acyclic := by simp [isAcyclic, dependencies, peel]

/-- Add the specs one by one, as the loop of `expand` does before its cycle check. -/
def addSpecs : List TaskNodeSnapshot → List TaskSpec → Instant →
    Except String (List Task × List TaskNodeSnapshot)
  | nodes, [], _ => .ok ([], nodes)
  | nodes, spec :: specs, now => do
      if spec.key = "" ∨ spec.description = "" then
        throw "task key and description are required"
      if spec.key ∈ nodes.map TaskNodeSnapshot.key then addSpecs nodes specs now
      else do
        if spec.dependsOn.any fun d => !(taskIds nodes).contains d then
          throw "task dependencies must reference existing tasks"
        let task := taskOfSpec spec now
        if task.id ∈ taskIds nodes then throw ("duplicate task id: " ++ task.id)
        let rest ← addSpecs (nodes ++ [⟨spec.key, task, spec.dependsOn⟩]) specs now
        pure (task :: rest.1, rest.2)

/-- `expand`: the tasks created, and the manager with them. The graph is the old one with nodes
added, so `from_snapshot`'s checks are the ones made here. -/
def expand (m : TaskManager) (specs : List TaskSpec) (now : Instant) :
    Except String (List Task × TaskManager) := do
  let added ← addSpecs m.nodes specs now
  let manager ← fromSnapshot ⟨added.2, m.currentId⟩
  pure (added.1, manager)

def fromSpecs : List TaskSpec → Instant → Except String TaskManager
  | [], _ => .error "task specs must contain at least one task"
  | root :: specs, now => do
      if root.key = "" ∨ root.description = "" then
        throw "task key and description are required"
      let expanded ← (ofRoot (taskOfSpec root now) root.key).expand specs now
      pure expanded.2

end TaskManager

end UniversalAgent.Tasks
