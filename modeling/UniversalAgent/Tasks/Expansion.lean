import UniversalAgent.Tasks.Graph

/-!
# Tasks — Expansion

What `expand` adds, and what every call keeps. The specs of new keys are added one after the other, each
after the tasks it depends on, so no expansion closes a cycle. A spec that is refused ends the call; the
tasks before it stay.
-/

namespace UniversalAgent.Tasks

open UniversalAgent.Core UniversalAgent.Foundation

variable {currentId : TaskId} {f : ManagerFields}

namespace TaskManager

/-! ## Expanding -/

section Expanding

variable {m : TaskManager} {n : TaskNodeSnapshot}

def add (m : TaskManager) (n : TaskNodeSnapshot) (hkey : n.key ∉ m.nodes.map TaskNodeSnapshot.key)
    (hid : n.task.id ∉ taskIds m.nodes) (hdeps : ∀ d ∈ n.dependsOn, d ∈ taskIds m.nodes) : TaskManager where
  nodes := m.nodes ++ [n]
  currentId := m.currentId
  keys_nodup := by
    rw [List.map_append]
    exact m.keys_nodup.append (List.nodup_singleton _) (List.disjoint_singleton.mpr hkey)
  ids_nodup := by
    unfold taskIds
    rw [List.map_append]
    exact m.ids_nodup.append (List.nodup_singleton _) (List.disjoint_singleton.mpr hid)
  current_mem := by
    unfold taskIds
    rw [List.map_append]
    exact List.mem_append_left _ m.current_mem
  deps_known := by
    intro k hk d hd
    unfold taskIds
    rw [List.map_append]
    refine List.mem_append_left _ ?_
    rcases List.mem_append.mp hk with hold | hnew
    · exact m.deps_known k hold d hd
    · exact hdeps d (List.mem_singleton.mp hnew ▸ hd)
  acyclic := by
    have hconcat : dependencies (m.nodes ++ [n]) = dependencies m.nodes ++ [(n.task.id, n.dependsOn)] := by
      unfold dependencies
      exact List.map_append
    rw [hconcat]
    refine isAcyclic_iff.mpr (acyclic_concat (isAcyclic_iff.mp m.acyclic) ?_ fun h => hid (hdeps _ h))
    intro row hrow hmem
    obtain ⟨k, hk, rfl⟩ := List.mem_map.mp hrow
    exact hid (m.deps_known k hk _ hmem)

theorem insert_fieldsOf {nodes : List TaskNodeSnapshot} {hkeys : (nodes.map TaskNodeSnapshot.key).Nodup}
    {hids : (taskIds nodes).Nodup} (hkey : n.key ∉ nodes.map TaskNodeSnapshot.key)
    (hid : n.task.id ∉ taskIds nodes) (hkeys' : ((nodes ++ [n]).map TaskNodeSnapshot.key).Nodup)
    (hids' : (taskIds (nodes ++ [n])).Nodup) :
    (fieldsOf nodes hkeys hids currentId).insert n = fieldsOf (nodes ++ [n]) hkeys' hids' currentId := by
  refine eq_fieldsOf ?_ ?_ ?_ ?_ rfl
  · rw [List.map_append]
    exact Dict.rows_put_fresh (by rwa [taskKeys_fieldsOf]) _
  · rw [List.map_append]
    exact Dict.rows_put_fresh (by rwa [keys_fieldsOf]) _
  · unfold dependencies
    rw [List.map_append]
    exact Dict.rows_put_fresh (by rwa [dependencyKeys_fieldsOf]) _
  · unfold taskIds
    rw [List.map_append]
    rfl

theorem insert_fields (hkey : n.key ∉ m.nodes.map TaskNodeSnapshot.key) (hid : n.task.id ∉ taskIds m.nodes)
    (hdeps : ∀ d ∈ n.dependsOn, d ∈ taskIds m.nodes) :
    m.fields.insert n = (m.add n hkey hid hdeps).fields := insert_fieldsOf hkey hid _ _

/-- The specs that `expand` adds: those of a new key, the first of each. -/
def newSpecs : List String → List (TaskSpec × Instant) → List (TaskSpec × Instant)
  | _, [] => []
  | keys, spec :: specs =>
    if spec.1.key ∈ keys then newSpecs keys specs
    else spec :: newSpecs (keys ++ [spec.1.key]) specs

def nodeOfSpec (spec : TaskSpec × Instant) : TaskNodeSnapshot :=
  ⟨spec.1.key, taskOfSpec spec.1 spec.2, spec.1.dependsOn⟩

def withSpecs (nodes : List TaskNodeSnapshot) (specs : List (TaskSpec × Instant)) : List TaskNodeSnapshot :=
  nodes ++ (newSpecs (nodes.map TaskNodeSnapshot.key) specs).map nodeOfSpec

inductive Refused (nodes : List TaskNodeSnapshot) (spec : TaskSpec) : String → Prop where
  | blank (h : spec.key = "" ∨ spec.description = "") :
      Refused nodes spec "task key and description are required"
  | unknownDependency (hkey : spec.key ∉ nodes.map TaskNodeSnapshot.key) (d : TaskId)
      (hd : d ∈ spec.dependsOn) (h : d ∉ taskIds nodes) :
      Refused nodes spec "task dependencies must reference existing tasks"
  | duplicateId (hkey : spec.key ∉ nodes.map TaskNodeSnapshot.key) (id : TaskId)
      (hid : id = spec.taskId.getD ("task:" ++ spec.key)) (h : id ∈ taskIds nodes) :
      Refused nodes spec ("duplicate task id: " ++ id)

def Accepted (nodes : List TaskNodeSnapshot) (specs : List (TaskSpec × Instant)) : Prop :=
  ∀ before spec after, specs = before ++ spec :: after →
    ∀ message, ¬Refused (withSpecs nodes before) spec.1 message

section Specs

variable {nodes : List TaskNodeSnapshot} {spec : TaskSpec × Instant} {specs : List (TaskSpec × Instant)}

theorem withSpecs_nil (nodes : List TaskNodeSnapshot) : withSpecs nodes [] = nodes := List.append_nil nodes

theorem withSpecs_known (h : spec.1.key ∈ nodes.map TaskNodeSnapshot.key) :
    withSpecs nodes (spec :: specs) = withSpecs nodes specs := by
  unfold withSpecs
  rw [newSpecs, if_pos h]

theorem withSpecs_new (h : spec.1.key ∉ nodes.map TaskNodeSnapshot.key) :
    withSpecs nodes (spec :: specs) = withSpecs (nodes ++ [nodeOfSpec spec]) specs := by
  unfold withSpecs
  rw [newSpecs, if_neg h, List.map_cons, List.map_append, List.append_assoc]
  rfl

theorem accepted_nil (nodes : List TaskNodeSnapshot) : Accepted nodes [] :=
  fun before _ _ h => absurd h (by simp)

theorem accepted_cons (hspec : ∀ message, ¬Refused nodes spec.1 message)
    (h : ∀ before after' after, specs = before ++ after' :: after →
      ∀ message, ¬Refused (withSpecs nodes (spec :: before)) after'.1 message) :
    Accepted nodes (spec :: specs) := by
  intro before next after hsplit message
  cases before with
  | nil =>
    obtain ⟨rfl, -⟩ := List.cons.inj hsplit
    rw [withSpecs_nil]
    exact hspec message
  | cons first before =>
    obtain ⟨rfl, hrest⟩ := List.cons.inj hsplit
    exact h before next after hrest message

end Specs

/-- What comes of specs: those of new keys are added up to the first that is refused. -/
def Expands (m : TaskManager) (specs : List (TaskSpec × Instant))
    (result : EStateM.Result TaskError ManagerFields (List Task)) : Prop :=
  ∃ taken rest, specs = taken ++ rest ∧ Accepted m.nodes taken ∧ ∃ m' : TaskManager,
    m'.nodes = withSpecs m.nodes taken ∧ m'.currentId = m.currentId ∧
    ((rest = [] ∧ result =
        .ok ((newSpecs (m.nodes.map TaskNodeSnapshot.key) taken).map fun s => taskOfSpec s.1 s.2) m'.fields) ∨
      ∃ spec after message, rest = spec :: after ∧ Refused m'.nodes spec.1 message ∧
        result = .error (.valueError message) m'.fields)

section Outcomes

variable {spec : TaskSpec × Instant} {specs : List (TaskSpec × Instant)}
  {result : EStateM.Result TaskError ManagerFields (List Task)}

theorem Expands.refused {message : String} (h : Refused m.nodes spec.1 message) :
    Expands m (spec :: specs) (.error (.valueError message) m.fields) :=
  ⟨[], spec :: specs, rfl, accepted_nil _, m, (withSpecs_nil _).symm, rfl,
    .inr ⟨spec, specs, message, rfl, h, rfl⟩⟩

theorem Expands.skipped (h : Expands m specs result) (hblank : ¬(spec.1.key = "" ∨ spec.1.description = ""))
    (hkey : spec.1.key ∈ m.nodes.map TaskNodeSnapshot.key) : Expands m (spec :: specs) result := by
  obtain ⟨taken, rest, rfl, haccepted, m', hnodes, hcurrent, hresult⟩ := h
  have hnew : newSpecs (m.nodes.map TaskNodeSnapshot.key) (spec :: taken) =
      newSpecs (m.nodes.map TaskNodeSnapshot.key) taken := if_pos hkey
  refine ⟨spec :: taken, rest, rfl, accepted_cons ?_ ?_, m', ?_, hcurrent, hnew.symm ▸ hresult⟩
  · intro message hrefused
    cases hrefused with
    | blank h => exact hblank h
    | unknownDependency hnew => exact hnew hkey
    | duplicateId hnew => exact hnew hkey
  · intro before next after hsplit message
    rw [withSpecs_known hkey]
    exact haccepted before next after hsplit message
  · rw [hnodes, withSpecs_known hkey]

theorem Expands.added {hkey : (nodeOfSpec spec).key ∉ m.nodes.map TaskNodeSnapshot.key}
    {hid : (nodeOfSpec spec).task.id ∉ taskIds m.nodes}
    {hdeps : ∀ d ∈ (nodeOfSpec spec).dependsOn, d ∈ taskIds m.nodes}
    (h : Expands (m.add (nodeOfSpec spec) hkey hid hdeps) specs result)
    (hblank : ¬(spec.1.key = "" ∨ spec.1.description = "")) :
    Expands m (spec :: specs) (ManagerFields.andCreated (taskOfSpec spec.1 spec.2) result) := by
  obtain ⟨taken, rest, rfl, haccepted, m', hnodes, hcurrent, hresult⟩ := h
  have hkeys : (m.add (nodeOfSpec spec) hkey hid hdeps).nodes.map TaskNodeSnapshot.key =
      m.nodes.map TaskNodeSnapshot.key ++ [spec.1.key] := List.map_append
  have hnew : newSpecs (m.nodes.map TaskNodeSnapshot.key) (spec :: taken) =
      spec :: newSpecs (m.nodes.map TaskNodeSnapshot.key ++ [spec.1.key]) taken := if_neg hkey
  rw [hkeys] at hresult
  refine ⟨spec :: taken, rest, rfl, accepted_cons ?_ ?_, m', ?_, hcurrent, ?_⟩
  · intro message hrefused
    cases hrefused with
    | blank h => exact hblank h
    | unknownDependency _ d hd h => exact h (hdeps d hd)
    | duplicateId _ id heq h =>
      subst heq
      exact hid h
  · intro before next after hsplit message
    rw [withSpecs_new hkey]
    exact haccepted before next after hsplit message
  · rw [hnodes, withSpecs_new hkey]
    rfl
  · rcases hresult with ⟨hrest, rfl⟩ | ⟨spec', after, message, hrest, hrefused, rfl⟩
    · exact .inl ⟨hrest, by rw [hnew]; rfl⟩
    · exact .inr ⟨spec', after, message, hrest, hrefused, rfl⟩

end Outcomes

theorem addSpecs_fields (m : TaskManager) (specs : List (TaskSpec × Instant)) :
    Expands m specs (ManagerFields.addSpecs specs m.fields) := by
  induction specs generalizing m with
  | nil => exact ⟨[], [], rfl, accepted_nil _, m, (withSpecs_nil _).symm, rfl, .inl ⟨rfl, rfl⟩⟩
  | cons spec specs ih =>
    obtain ⟨spec, now⟩ := spec
    unfold ManagerFields.addSpecs
    rw [keys_fields, taskKeys_fields]
    by_cases hblank : spec.key = "" ∨ spec.description = ""
    · rw [if_pos hblank]
      exact .refused (.blank hblank)
    rw [if_neg hblank]
    by_cases hkey : spec.key ∈ m.nodes.map TaskNodeSnapshot.key
    · rw [if_pos hkey]
      exact (ih m).skipped hblank hkey
    rw [if_neg hkey]
    by_cases hunknown : (spec.dependsOn.any fun d => d ∉ taskIds m.nodes) = true
    · rw [if_pos hunknown]
      obtain ⟨d, hd, hunknown⟩ := List.any_eq_true.mp hunknown
      exact .refused (.unknownDependency hkey d hd (of_decide_eq_true hunknown))
    rw [if_neg hunknown]
    dsimp only
    by_cases hid : (taskOfSpec spec now).id ∈ taskIds m.nodes
    · rw [if_pos hid]
      exact .refused (.duplicateId hkey _ rfl hid)
    rw [if_neg hid]
    have hdeps : ∀ d ∈ spec.dependsOn, d ∈ taskIds m.nodes := by
      simpa using hunknown
    rw [show (⟨spec.key, taskOfSpec spec now, spec.dependsOn⟩ : TaskNodeSnapshot) =
      nodeOfSpec (spec, now) from rfl, insert_fields hkey hid hdeps]
    exact (ih _).added hblank

theorem expand_fields (m : TaskManager) (specs : List (TaskSpec × Instant)) :
    Expands m specs (ManagerFields.expand specs m.fields) := by
  have hloop := addSpecs_fields m specs
  unfold ManagerFields.expand
  obtain ⟨taken, rest, hspecs, haccepted, m', hnodes, hcurrent, hresult⟩ := hloop
  refine ⟨taken, rest, hspecs, haccepted, m', hnodes, hcurrent, ?_⟩
  rcases hresult with ⟨hrest, hrun⟩ | ⟨spec, after, message, hrest, hrefused, hrun⟩
  · refine .inl ⟨hrest, ?_⟩
    rw [hrun]
    dsimp only
    rw [validateAcyclic_fields]
  · refine .inr ⟨spec, after, message, hrest, hrefused, ?_⟩
    rw [hrun]

end Expanding

/-! ## Making a manager -/

section Making

/-- The dictionaries of a root are those of its manager. -/
theorem ofRoot_fields (root : Task) (key : String) : (ofRoot root key).fields = ManagerFields.ofRoot root key :=
  rfl

theorem addNodes_fieldsOf {nodes rest : List TaskNodeSnapshot}
    {hkeys : (nodes.map TaskNodeSnapshot.key).Nodup} {hids : (taskIds nodes).Nodup}
    :
    ManagerFields.addNodes rest (fieldsOf nodes hkeys hids currentId) = .ok f ↔
      ∃ (hkeys' : ((nodes ++ rest).map TaskNodeSnapshot.key).Nodup) (hids' : (taskIds (nodes ++ rest)).Nodup),
        f = fieldsOf (nodes ++ rest) hkeys' hids' currentId := by
  induction rest generalizing nodes with
  | nil =>
    have hnil : nodes ++ [] = nodes := List.append_nil nodes
    unfold ManagerFields.addNodes
    constructor
    · intro h
      obtain rfl := Except.ok.inj h
      exact ⟨hnil.symm ▸ hkeys, hnil.symm ▸ hids, fieldsOf_congr hnil.symm ..⟩
    · rintro ⟨hkeys', hids', rfl⟩
      exact congrArg Except.ok (fieldsOf_congr hnil.symm ..)
  | cons n rest ih =>
    have hcons : nodes ++ [n] ++ rest = nodes ++ n :: rest := List.append_cons nodes n rest |>.symm
    unfold ManagerFields.addNodes
    rw [keys_fieldsOf, taskKeys_fieldsOf]
    by_cases hkey : n.key ∈ nodes.map TaskNodeSnapshot.key
    · rw [if_pos hkey]
      refine ⟨nofun, ?_⟩
      rintro ⟨hkeys', -, -⟩
      rw [List.map_append, List.map_cons] at hkeys'
      exact absurd rfl ((List.nodup_append.mp hkeys').2.2 _ hkey _ List.mem_cons_self)
    rw [if_neg hkey]
    by_cases hid : n.task.id ∈ taskIds nodes
    · rw [if_pos hid]
      refine ⟨nofun, ?_⟩
      rintro ⟨-, hids', -⟩
      unfold taskIds at hids'
      rw [List.map_append, List.map_cons] at hids'
      exact absurd rfl ((List.nodup_append.mp hids').2.2 _ hid _ List.mem_cons_self)
    have hkeys₁ : ((nodes ++ [n]).map TaskNodeSnapshot.key).Nodup := by
      rw [List.map_append]
      exact hkeys.append (List.nodup_singleton _) (List.disjoint_singleton.mpr hkey)
    have hids₁ : (taskIds (nodes ++ [n])).Nodup := by
      unfold taskIds
      rw [List.map_append]
      exact hids.append (List.nodup_singleton _) (List.disjoint_singleton.mpr hid)
    rw [if_neg hid, insert_fieldsOf hkey hid hkeys₁ hids₁, ih]
    constructor
    · rintro ⟨hkeys', hids', rfl⟩
      exact ⟨hcons ▸ hkeys', hcons ▸ hids', fieldsOf_congr hcons ..⟩
    · rintro ⟨hkeys', hids', rfl⟩
      exact ⟨hcons.symm ▸ hkeys', hcons.symm ▸ hids', fieldsOf_congr hcons.symm ..⟩

theorem unknownDependency?_fieldsOf {nodes : List TaskNodeSnapshot}
    {hkeys : (nodes.map TaskNodeSnapshot.key).Nodup} {hids : (taskIds nodes).Nodup} :
    (fieldsOf nodes hkeys hids currentId).unknownDependency? = none ↔
      ∀ n ∈ nodes, ∀ d ∈ n.dependsOn, d ∈ taskIds nodes := by
  unfold ManagerFields.unknownDependency?
  rw [Option.map_eq_none_iff, taskKeys_fieldsOf, List.find?_eq_none]
  unfold fieldsOf dependencies
  simp

/-- **`from_snapshot`** accepts the snapshots of managers, and makes the managers of them. -/
theorem fromSnapshot_fields {g : TaskGraphSnapshot} :
    ManagerFields.fromSnapshot g = .ok f ↔ ∃ m : TaskManager, m.snapshot = g ∧ f = m.fields := by
  have hstart : (⟨.empty, .empty, .empty, [], g.currentTaskId⟩ : ManagerFields) =
      fieldsOf [] List.nodup_nil List.nodup_nil g.currentTaskId := eq_fieldsOf rfl rfl rfl rfl rfl
  unfold ManagerFields.fromSnapshot
  rw [hstart]
  constructor
  · intro h
    split at h
    · cases h
    obtain ⟨f', hadd, h⟩ := Except.bind_eq_ok.mp h
    obtain ⟨hkeys, hids, rfl⟩ := addNodes_fieldsOf.mp hadd
    rw [taskKeys_fieldsOf] at h
    split at h
    · cases h
    next hcurrent =>
    split at h
    · cases h
    next hknown =>
    obtain ⟨⟨⟩, hacyclic, h⟩ := Except.bind_eq_ok.mp h
    exact ⟨⟨g.nodes, g.currentTaskId, hkeys, hids, not_not.mp hcurrent,
      unknownDependency?_fieldsOf.mp hknown, isAcyclic_iff.mpr (validateAcyclic_eq_ok.mp hacyclic)⟩, rfl,
      (Except.ok.inj h).symm⟩
  · rintro ⟨m, rfl, rfl⟩
    have hne : m.snapshot.nodes ≠ [] := by
      intro hnil
      have hcurrent := m.current_mem
      rw [show m.nodes = [] from hnil] at hcurrent
      cases hcurrent
    have hadd : ManagerFields.addNodes m.snapshot.nodes
        (fieldsOf [] List.nodup_nil List.nodup_nil m.snapshot.currentTaskId) = .ok m.fields :=
      addNodes_fieldsOf.mpr ⟨m.keys_nodup, m.ids_nodup, rfl⟩
    have hcurrent : ¬m.snapshot.currentTaskId ∉ taskIds m.nodes := not_not.mpr m.current_mem
    have hknown : m.fields.unknownDependency? = none := unknownDependency?_fieldsOf.mpr m.deps_known
    rw [if_neg hne, hadd, Except.ok_bind, taskKeys_fields, if_neg hcurrent, hknown, validateAcyclic_fields]
    rfl

/-- `from_specs` expands the manager of its first spec. -/
theorem fromSpecs_fields {specs : List (TaskSpec × Instant)}
    (h : ManagerFields.fromSpecs specs = .ok f) : ∃ m : TaskManager, f = m.fields := by
  cases specs with
  | nil => cases h
  | cons root specs =>
    obtain ⟨root, now⟩ := root
    rw [ManagerFields.fromSpecs] at h
    split at h
    · cases h
    rw [← ofRoot_fields] at h
    obtain ⟨taken, rest, -, -, m', -, -, ⟨-, hrun⟩ | ⟨spec, after, message, -, -, hrun⟩⟩ :=
      expand_fields (ofRoot (taskOfSpec root now) root.key) specs
    · rw [hrun] at h
      exact ⟨m', (Except.ok.inj h).symm⟩
    · rw [hrun] at h
      cases h

end Making

end TaskManager

/-! ## Runs -/

inductive Operation where
  | expand (specs : List (TaskSpec × Instant))
  | setCurrent (id : TaskId)
  | completeCurrent
  | startNext
  | completeAll
  | current
  | all
  | snapshot
  | hasUnfinished

namespace ManagerFields

def after {α : Type} (x : Method α) (f : ManagerFields) : ManagerFields :=
  match x f with
  | .ok _ f => f
  | .error _ f => f

theorem after_ok {α : Type} {x : Method α} {f f' : ManagerFields} {a : α} (h : x f = .ok a f') :
    after x f = f' := by
  unfold after
  rw [h]

theorem after_error {α : Type} {x : Method α} {f f' : ManagerFields} {e : TaskError}
    (h : x f = .error e f') : after x f = f' := by
  unfold after
  rw [h]

def perform (f : ManagerFields) : Operation → ManagerFields
  | .expand specs => after (expand specs) f
  | .setCurrent id => after (setCurrent id) f
  | .completeCurrent => after completeCurrent f
  | .startNext => after startNext f
  | .completeAll => after completeAll f
  | .current | .all | .snapshot | .hasUnfinished => f

end ManagerFields

/-- The managers that are reached from a root, from specs or from a snapshot, whatever is called on them. -/
inductive Reached : ManagerFields → Prop where
  | root (task : Task) : Reached (.ofRoot task "root")
  | specs {specs : List (TaskSpec × Instant)} {f : ManagerFields} (h : ManagerFields.fromSpecs specs = .ok f) :
      Reached f
  | snapshot {g : TaskGraphSnapshot} {f : ManagerFields} (h : ManagerFields.fromSnapshot g = .ok f) :
      Reached f
  | step {f : ManagerFields} (h : Reached f) (op : Operation) : Reached (f.perform op)

theorem perform_fields (m : TaskManager) (op : Operation) :
    ∃ m' : TaskManager, m.fields.perform op = m'.fields := by
  cases op with
  | expand specs =>
    obtain ⟨taken, rest, -, -, m', -, -, ⟨-, hrun⟩ | ⟨spec, after, message, -, -, hrun⟩⟩ :=
      TaskManager.expand_fields m specs
    · exact ⟨m', ManagerFields.after_ok hrun⟩
    · exact ⟨m', ManagerFields.after_error hrun⟩
  | setCurrent id =>
    have hrun := TaskManager.setCurrent_fields m id
    cases hset : m.setCurrent id with
    | ok m' => exact ⟨m', ManagerFields.after_ok (hrun.trans (by rw [hset]))⟩
    | error message => exact ⟨m, ManagerFields.after_error (hrun.trans (by rw [hset]))⟩
  | completeCurrent => exact ⟨_, ManagerFields.after_ok (TaskManager.completeCurrent_fields m)⟩
  | startNext => exact ⟨_, ManagerFields.after_ok (TaskManager.startNext_fields m)⟩
  | completeAll => exact ⟨_, ManagerFields.after_ok (TaskManager.completeAll_fields m)⟩
  | current | all | snapshot | hasUnfinished => exact ⟨m, rfl⟩

/-- **What is reached** has the dictionaries of a graph. -/
theorem Reached.fields (h : Reached f) : ∃ m : TaskManager, f = m.fields := by
  induction h with
  | root task => exact ⟨.ofRoot task "root", rfl⟩
  | specs h => exact TaskManager.fromSpecs_fields h
  | snapshot h =>
    obtain ⟨m, -, hm⟩ := TaskManager.fromSnapshot_fields.mp h
    exact ⟨m, hm⟩
  | step _ op ih =>
    obtain ⟨m, rfl⟩ := ih
    exact perform_fields m op

/-- The dictionaries are of the same tasks, each under one key; dependencies are tasks, no task depends on
itself, and the current task is one of them. -/
structure Consistent (f : ManagerFields) : Prop where
  tasks : f.tasks.rows.map Prod.fst = f.order
  dependencies : f.dependencies.rows.map Prod.fst = f.order
  once : f.order.Nodup
  keyed : ∀ id ∈ f.order, ∃! key, (key, id) ∈ f.keys.rows
  known : ∀ p ∈ f.keys.rows, p.2 ∈ f.order
  closed : ∀ id deps, (id, deps) ∈ f.dependencies.rows → ∀ d ∈ deps, d ∈ f.order
  acyclic : Predecessors.Acyclic f.dependencies.rows
  current : f.currentId ∈ f.order

theorem consistent_fields (m : TaskManager) : Consistent m.fields where
  tasks := TaskManager.taskKeys_fields m
  dependencies := TaskManager.dependencyKeys_fieldsOf
  once := m.ids_nodup
  keyed id hid := by
    obtain ⟨n, hn, rfl⟩ := List.mem_map.mp hid
    refine ⟨n.key, List.mem_map_of_mem (f := fun n => (n.key, n.task.id)) hn, fun key hkey => ?_⟩
    obtain ⟨k, hk, heq⟩ := List.mem_map.mp hkey
    obtain ⟨rfl, hid⟩ := Prod.mk.inj heq
    rw [List.inj_on_of_nodup_map m.ids_nodup hk hn hid]
  known p hp := by
    obtain ⟨n, hn, rfl⟩ := List.mem_map.mp hp
    exact List.mem_map_of_mem (f := fun n => n.task.id) hn
  closed id deps hrow d hd := by
    obtain ⟨n, hn, heq⟩ := List.mem_map.mp hrow
    obtain ⟨-, rfl⟩ := Prod.mk.inj heq
    exact m.deps_known n hn d hd
  acyclic := isAcyclic_iff.mp m.acyclic
  current := m.current_mem

/-- A task is started by `start_next`: it was PENDING, and every task that it depends on is COMPLETED. -/
theorem startNext_completed {m : TaskManager} {task : Task} {f' : ManagerFields}
    (h : ManagerFields.startNext m.fields = .ok (some task) f') :
    f'.currentId = task.id ∧ (m.fields.tasks.value? task.id).map Task.status = some .pending ∧
      ∀ deps, (task.id, deps) ∈ m.fields.dependencies.rows → ∀ d ∈ deps,
        (m.fields.tasks.value? d).map Task.status = some .completed := by
  rw [TaskManager.startNext_fields] at h
  obtain ⟨htask, rfl⟩ := EStateM.Result.ok.inj h
  cases hfind : m.nodes.find? m.isRunnable with
  | none =>
    rw [TaskManager.startNext_of_none hfind] at htask
    cases htask
  | some n =>
    have hn := List.mem_of_find?_eq_some hfind
    have hmem : n.task.id ∈ taskIds m.nodes := List.mem_map_of_mem (f := fun n => n.task.id) hn
    rw [TaskManager.startNext_of_some hfind hmem] at htask ⊢
    have hid : task.id = n.task.id := by
      rw [← Option.some.inj htask, TaskManager.current_id]
      rfl
    have hrunnable := List.find?_some hfind
    unfold TaskManager.isRunnable at hrunnable
    rw [Bool.and_eq_true, decide_eq_true_eq, List.all_eq_true] at hrunnable
    rw [hid, TaskManager.value?_fields hn]
    refine ⟨rfl, congrArg some hrunnable.1, fun deps hrow d hd => ?_⟩
    obtain ⟨k, hk, heq⟩ := List.mem_map.mp hrow
    obtain ⟨hkid, rfl⟩ := Prod.mk.inj heq
    obtain rfl := List.inj_on_of_nodup_map m.ids_nodup hk hn hkid
    obtain ⟨dependency, hmem, rfl⟩ := List.mem_map.mp (m.deps_known k hk d hd)
    have hcompleted := of_decide_eq_true (hrunnable.2 _ hd)
    unfold TaskManager.statusOf at hcompleted
    rw [TaskManager.node?_eq_some.mpr ⟨hmem, rfl⟩] at hcompleted
    rw [TaskManager.value?_fields hmem]
    exact hcompleted

def rootTask : Task := ⟨"reach the goal", [], "task:root", .pending, 0⟩

end UniversalAgent.Tasks
