import UniversalAgent.World.Model
import UniversalAgent.Foundation.BreadthFirst

/-!
# World — Relation graph

`WorldSnapshot.relation_graph_for` (`world/models.py`): the entities around a root and the relations that
lead to them. The search goes a number of rounds over the relations of its frontier. The relations that are
returned are those that it went over: one whose ends are both as far as the search goes is not among them.
-/

namespace UniversalAgent.World

open UniversalAgent.Core UniversalAgent.Foundation

/-! ## The query -/

inductive WorldRelationDirection where
  | outgoing
  | incoming
  | both
deriving DecidableEq

/-- `WorldRelationDirection(value)`. -/
def WorldRelationDirection.parse? (value : String) : Option WorldRelationDirection :=
  if value = "outgoing" then some .outgoing
  else if value = "incoming" then some .incoming
  else if value = "both" then some .both
  else none

structure WorldGraphQuery where
  maxDepth : Int := 1
  relations : List String := []
  direction : String := "both"
  entityKinds : List String := []
  requiredFacts : List (String × Json) := []

structure WorldGraphNode where
  entityId : String
  depth : Nat
  entity : Option WorldEntity
deriving DecidableEq

structure WorldGraph where
  root : Option WorldEntity
  nodes : List WorldGraphNode := []
  relations : List WorldRelation := []
  entities : List WorldEntity := []

abbrev WorldRelation.graphKey (r : WorldRelation) : String × String × String :=
  (r.source, r.relation, r.target)

namespace WorldSnapshot

variable (s : WorldSnapshot)

/-- `value_for(claim, subject=subject)`: of no fact, `None`. -/
def valueFor (claim subject : String) : Json :=
  ((s.facts.find? fun fact => fact.claim = claim && fact.subject = subject).map WorldFact.value).getD .null

def entityFor (id : String) : Option WorldEntity := s.entities.find? fun entity => entity.id = id

/-- `_graph_relations_for`: the outgoing relations, then the incoming. -/
def graphRelationsFor (filter : List String) (direction : WorldRelationDirection) (id : String) :
    List WorldRelation :=
  let selected :=
    (if direction = .outgoing ∨ direction = .both then s.relations.filter fun r => r.source = id else []) ++
    (if direction = .incoming ∨ direction = .both then s.relations.filter fun r => r.target = id else [])
  selected.filter fun r => filter = [] ∨ r.relation ∈ filter

/-- `_graph_node_matches_query`. -/
def graphNodeMatches (query : WorldGraphQuery) (node : WorldGraphNode) : Bool :=
  if query.entityKinds = [] ∧ query.requiredFacts = [] then true
  else match node.entity with
    | none => false
    | some entity =>
      (query.entityKinds = [] || entity.kind ∈ query.entityKinds) &&
        query.requiredFacts.all fun (claim, expected) => (s.valueFor claim node.entityId).pyEq expected

def relatedId (current : String) (r : WorldRelation) : String :=
  if r.source = current then r.target else r.source

/-- The order of `key=lambda item: (item[1], str(item[0]))`. -/
def NodeLE (a b : String × Nat) : Prop := a.2 < b.2 ∨ (a.2 = b.2 ∧ a.1 ≤ b.1)

instance : DecidableRel NodeLE := fun _ _ => inferInstanceAs (Decidable (_ ∨ _))

def graphOf (root : WorldEntity) (rootId : String) (query : WorldGraphQuery)
    (found : Search String WorldRelation) : WorldGraph :=
  let candidates := (found.depths.insertionSort NodeLE).map fun (id, depth) =>
    ({ entityId := id, depth := depth, entity := s.entityFor id } : WorldGraphNode)
  let nodes := candidates.filter fun node => node.entityId = rootId || s.graphNodeMatches query node
  let included := nodes.map WorldGraphNode.entityId
  { root := some root
    nodes := nodes
    relations := (sortedBy (fun r => [r.source, r.relation, r.target]) found.traversed).filter fun r =>
      r.source ∈ included && r.target ∈ included
    entities := nodes.filterMap WorldGraphNode.entity }

def graphSearch (query : WorldGraphQuery) (direction : WorldRelationDirection) (rootId : String) :
    Search String WorldRelation :=
  search (s.graphRelationsFor query.relations direction) relatedId WorldRelation.graphKey rootId
    query.maxDepth.toNat

def relationGraphFor (id : String) (query : WorldGraphQuery) : Except String WorldGraph :=
  if query.maxDepth < 0 then .error "world relation graph max_depth must be >= 0"
  else match WorldRelationDirection.parse? query.direction with
    | none => .error "world relation graph direction must be one of: outgoing, incoming, both"
    | some direction => match s.entityFor id with
      | none => .ok { root := none }
      | some root => .ok (s.graphOf root id query (s.graphSearch query direction id))

end WorldSnapshot

/-! ## What the graph is of -/

def WorldGraphQuery.Admits (query : WorldGraphQuery) (r : WorldRelation) : Prop :=
  query.relations = [] ∨ r.relation ∈ query.relations

def WorldRelationDirection.From (direction : WorldRelationDirection) (r : WorldRelation) (x : String) : Prop :=
  (direction ≠ .incoming ∧ r.source = x) ∨ (direction ≠ .outgoing ∧ r.target = x)

def RelationStep (s : WorldSnapshot) (query : WorldGraphQuery) (direction : WorldRelationDirection)
    (a b : String) : Prop :=
  ∃ r ∈ s.relations, query.Admits r ∧
    ((direction ≠ .incoming ∧ r.source = a ∧ r.target = b) ∨
      (direction ≠ .outgoing ∧ r.target = a ∧ r.source = b))

/-- An entity is kept: the root is, and the others by the entity filter. -/
def Kept (s : WorldSnapshot) (query : WorldGraphQuery) (rootId : String) (node : WorldGraphNode) : Prop :=
  node.entityId = rootId ∨ s.graphNodeMatches query node = true

/-- A relation that a step from an entity nearer than the depth of the search goes over. -/
def SteppedOver (s : WorldSnapshot) (query : WorldGraphQuery) (direction : WorldRelationDirection)
    (rootId : String) (r : WorldRelation) : Prop :=
  ∃ x k, k < query.maxDepth.toNat ∧ Distance (RelationStep s query direction) rootId x k ∧
    direction.From r x

/-- The graph has the kept entities within the depth, each once and at its distance, and of the admitted
relations between them that a step goes over the first of each source, relation and target. -/
structure ExactGraph (s : WorldSnapshot) (query : WorldGraphQuery) (direction : WorldRelationDirection)
    (rootId : String) (graph : WorldGraph) : Prop where
  root : graph.root = s.entityFor rootId
  nodes : ∀ node, node ∈ graph.nodes ↔
    node.depth ≤ query.maxDepth.toNat ∧
      Distance (RelationStep s query direction) rootId node.entityId node.depth ∧
      node.entity = s.entityFor node.entityId ∧ Kept s query rootId node
  once : (graph.nodes.map WorldGraphNode.entityId).Nodup
  relations : ∀ r, r ∈ graph.relations ↔
    (s.relations.find? (fun r' => r'.graphKey = r.graphKey) = some r ∧ query.Admits r ∧
      SteppedOver s query direction rootId r) ∧
    r.source ∈ graph.nodes.map WorldGraphNode.entityId ∧
      r.target ∈ graph.nodes.map WorldGraphNode.entityId
  distinct : (graph.relations.map WorldRelation.graphKey).Nodup
  entities : graph.entities = graph.nodes.filterMap WorldGraphNode.entity

/-! ## Relations of an entity -/

section Relations

variable {s : WorldSnapshot} {query : WorldGraphQuery} {direction : WorldRelationDirection} {x y : String}
  {r : WorldRelation}

theorem leads_outgoing : (direction = .outgoing ∨ direction = .both) ↔ direction ≠ .incoming := by
  cases direction <;> decide

theorem leads_incoming : (direction = .incoming ∨ direction = .both) ↔ direction ≠ .outgoing := by
  cases direction <;> decide

theorem mem_graphRelationsFor :
    r ∈ s.graphRelationsFor query.relations direction x ↔
      r ∈ s.relations ∧ query.Admits r ∧ direction.From r x := by
  unfold WorldSnapshot.graphRelationsFor WorldGraphQuery.Admits WorldRelationDirection.From
  simp only [List.mem_filter, List.mem_append, leads_outgoing, leads_incoming, decide_eq_true_eq]
  constructor
  · rintro ⟨hout | hin, hadmits⟩
    · obtain ⟨hdirection, hmem⟩ := (List.mem_ite_nil_right ..).mp hout
      obtain ⟨hmem, hsource⟩ := List.mem_filter.mp hmem
      exact ⟨hmem, hadmits, .inl ⟨hdirection, of_decide_eq_true hsource⟩⟩
    · obtain ⟨hdirection, hmem⟩ := (List.mem_ite_nil_right ..).mp hin
      obtain ⟨hmem, htarget⟩ := List.mem_filter.mp hmem
      exact ⟨hmem, hadmits, .inr ⟨hdirection, of_decide_eq_true htarget⟩⟩
  · rintro ⟨hmem, hadmits, ⟨hdirection, hsource⟩ | ⟨hdirection, htarget⟩⟩
    · exact ⟨.inl (by rw [if_pos hdirection]; exact List.mem_filter.mpr ⟨hmem, decide_eq_true hsource⟩),
        hadmits⟩
    · exact ⟨.inr (by rw [if_pos hdirection]; exact List.mem_filter.mpr ⟨hmem, decide_eq_true htarget⟩),
        hadmits⟩

theorem adjacent_iff :
    Adjacent (s.graphRelationsFor query.relations direction) WorldSnapshot.relatedId x y ↔
      RelationStep s query direction x y := by
  unfold Adjacent RelationStep
  simp only [mem_graphRelationsFor, WorldRelationDirection.From, WorldSnapshot.relatedId]
  constructor
  · rintro ⟨r, ⟨hmem, hadmits, ⟨hdirection, hsource⟩ | ⟨hdirection, htarget⟩⟩, rfl⟩
    · rw [if_pos hsource]
      exact ⟨r, hmem, hadmits, .inl ⟨hdirection, hsource, rfl⟩⟩
    · split
      · next hloop => exact ⟨r, hmem, hadmits, .inr ⟨hdirection, htarget, hloop.trans htarget.symm⟩⟩
      · exact ⟨r, hmem, hadmits, .inr ⟨hdirection, htarget, rfl⟩⟩
  · rintro ⟨r, hmem, hadmits, ⟨hdirection, hsource, rfl⟩ | ⟨hdirection, htarget, rfl⟩⟩
    · exact ⟨r, ⟨hmem, hadmits, .inl ⟨hdirection, hsource⟩⟩, (if_pos hsource).symm⟩
    · refine ⟨r, ⟨hmem, hadmits, .inr ⟨hdirection, htarget⟩⟩, ?_⟩
      split
      · next hloop => exact hloop.trans htarget.symm
      · rfl

theorem adjacent_eq :
    Adjacent (s.graphRelationsFor query.relations direction) WorldSnapshot.relatedId =
      RelationStep s query direction := by
  funext x y
  exact propext adjacent_iff

omit s query direction x y r in
theorem find_filter_key {p : WorldRelation → Bool} {c : String × String × String} {b : Prop} [Decidable b]
    (h : ∀ r : WorldRelation, r.graphKey = c → (p r = true ↔ b)) (l : List WorldRelation) :
    (l.filter p).find? (fun r => r.graphKey = c) =
      if b then l.find? (fun r => r.graphKey = c) else none := by
  rw [List.find?_filter]
  split
  · next hb =>
    refine List.find?_congr fun r _ => ?_
    by_cases hkey : r.graphKey = c
    · simp [hkey, (h r hkey).mpr hb]
    · simp [hkey]
  · next hb =>
    refine List.find?_eq_none.mpr fun r _ hr => ?_
    simp only [decide_eq_true_eq] at hr
    exact hb ((h r hr.2).mp hr.1)

omit s query direction x y r in
theorem or_ite_none {α : Type} {a b : Prop} [Decidable a] [Decidable b] (o : Option α) :
    (if a then o else none).or (if b then o else none) = if a ∨ b then o else none := by
  by_cases ha : a
  · by_cases hb : b <;> cases o <;> simp [ha, hb]
  · simp [ha]

/-- The relations of an entity have the first of each key, if it is admitted and leads from there. -/
theorem find_graphRelationsFor (c : String × String × String) :
    (s.graphRelationsFor query.relations direction x).find? (fun r => r.graphKey = c) = some r ↔
      s.relations.find? (fun r => r.graphKey = c) = some r ∧ query.Admits r ∧ direction.From r x := by
  have hkey : s.relations.find? (fun r => r.graphKey = c) = some r → r.graphKey = c := fun h => by
    simpa using List.find?_some h
  have hadmits := find_filter_key (c := c) (b := query.relations = [] ∨ c.2.1 ∈ query.relations)
    (p := fun r => query.relations = [] ∨ r.relation ∈ query.relations) fun r hr => by
      rw [← hr]; exact decide_eq_true_iff
  have hsource := find_filter_key (c := c) (b := c.1 = x) (p := fun r => r.source = x) (fun r hr => by
    rw [← hr]; exact decide_eq_true_iff) s.relations
  have htarget := find_filter_key (c := c) (b := c.2.2 = x) (p := fun r => r.target = x) (fun r hr => by
    rw [← hr]; exact decide_eq_true_iff) s.relations
  unfold WorldSnapshot.graphRelationsFor
  dsimp only
  rw [hadmits, List.find?_append, apply_ite (List.find? _), apply_ite (List.find? _), hsource, htarget]
  simp only [leads_outgoing, leads_incoming, List.find?_nil, ← ite_and]
  rw [or_ite_none, Option.ite_none_right_eq_some, Option.ite_none_right_eq_some]
  constructor
  · rintro ⟨hadmitted, hfrom, hfind⟩
    obtain rfl := hkey hfind
    exact ⟨hfind, hadmitted, hfrom⟩
  · rintro ⟨hfind, hadmitted, hfrom⟩
    obtain rfl := hkey hfind
    exact ⟨hadmitted, hfrom, hfind⟩

end Relations

/-! ## The nodes -/

section Nodes

variable {s : WorldSnapshot} {query : WorldGraphQuery} {rootId : String} {root : WorldEntity}
  {found : Search String WorldRelation} {node : WorldGraphNode}

theorem mem_nodes_graphOf :
    node ∈ (s.graphOf root rootId query found).nodes ↔
      (node.entityId, node.depth) ∈ found.depths ∧ node.entity = s.entityFor node.entityId ∧
        Kept s query rootId node := by
  unfold WorldSnapshot.graphOf Kept
  simp only [List.mem_filter, List.mem_map, List.mem_insertionSort, Bool.or_eq_true, decide_eq_true_eq]
  constructor
  · rintro ⟨⟨⟨id, depth⟩, hmem, rfl⟩, hkept⟩
    exact ⟨hmem, rfl, hkept⟩
  · rintro ⟨hmem, hentity, hkept⟩
    refine ⟨⟨(node.entityId, node.depth), hmem, ?_⟩, hkept⟩
    rw [← hentity]

/-- The entities of a graph are among those that were found. -/
theorem nodup_nodes_graphOf (h : found.found.Nodup) :
    ((s.graphOf root rootId query found).nodes.map WorldGraphNode.entityId).Nodup := by
  have hcandidates : ((found.depths.insertionSort WorldSnapshot.NodeLE).map Prod.fst).Nodup :=
    ((List.perm_insertionSort _ found.depths).map Prod.fst).nodup_iff.mpr h
  unfold WorldSnapshot.graphOf
  refine List.Nodup.sublist (List.filter_sublist.map WorldGraphNode.entityId) ?_
  rw [List.map_map]
  exact hcandidates

end Nodes

/-! ## The whole graph -/

section Graphs

variable {s : WorldSnapshot} {query : WorldGraphQuery} {direction : WorldRelationDirection} {id : String}

/-- The search of a query goes the steps of its relations. -/
theorem searched_graphSearch (s : WorldSnapshot) (query : WorldGraphQuery)
    (direction : WorldRelationDirection) (id : String) :
    Searched (s.graphRelationsFor query.relations direction) WorldSnapshot.relatedId
      WorldRelation.graphKey id query.maxDepth.toNat (s.graphSearch query direction id) :=
  searched_search id query.maxDepth.toNat

/-- What is gone over: the first of each key that is admitted and leads from an entity that is nearer than
the depth of the search. -/
theorem mem_traversed (r : WorldRelation) :
    r ∈ (s.graphSearch query direction id).traversed ↔
      s.relations.find? (fun r' => r'.graphKey = r.graphKey) = some r ∧ query.Admits r ∧
        SteppedOver s query direction id r := by
  have hsearched := searched_graphSearch s query direction id
  unfold SteppedOver
  constructor
  · intro hr
    obtain ⟨x, k, hk, hx, hfind⟩ := hsearched.seen r hr
    obtain ⟨hfirst, hadmits, hfrom⟩ := (find_graphRelationsFor _).mp hfind
    exact ⟨hfirst, hadmits, x, k, hk, adjacent_eq ▸ hx, hfrom⟩
  · rintro ⟨hfirst, hadmits, x, k, hk, hx, hfrom⟩
    have hmem := mem_graphRelationsFor.mpr ⟨List.mem_of_find?_eq_some hfirst, hadmits, hfrom⟩
    obtain ⟨r', hr', hkey⟩ := hsearched.covered x k hk (adjacent_eq ▸ hx) r hmem
    -- the one of the same key that is there is the first of it too
    obtain ⟨x', k', -, -, hfind⟩ := hsearched.seen r' hr'
    have hsame := ((find_graphRelationsFor _).mp hfind).1
    rw [hkey, hfirst] at hsame
    exact Option.some.inj hsame ▸ hr'

theorem exact_graphOf {root : WorldEntity} (hroot : s.entityFor id = some root) :
    ExactGraph s query direction id (s.graphOf root id query (s.graphSearch query direction id)) where
  root := hroot.symm
  nodes node := by
    rw [mem_nodes_graphOf, (searched_graphSearch s query direction id).depths, adjacent_eq, and_assoc]
  once := nodup_nodes_graphOf (searched_graphSearch s query direction id).found
  relations r := by
    rw [← mem_traversed]
    unfold WorldSnapshot.graphOf sortedBy
    simp only [List.mem_filter, List.mem_insertionSort, Bool.and_eq_true, decide_eq_true_eq]
  distinct := by
    refine List.Nodup.sublist (List.filter_sublist.map WorldRelation.graphKey) ?_
    exact ((List.perm_insertionSort _ _).map WorldRelation.graphKey).nodup_iff.mpr
      (searched_graphSearch s query direction id).distinct
  entities := rfl

end Graphs

/-- **The graph is exact**: it has the kept entities within the depth at their distances, and the relations
between them that the steps go over. -/
theorem relation_graph_exact (s : WorldSnapshot) (id : String) (query : WorldGraphQuery)
    (direction : WorldRelationDirection) (hdepth : 0 ≤ query.maxDepth)
    (hdirection : WorldRelationDirection.parse? query.direction = some direction)
    (hroot : (s.entityFor id).isSome = true) :
    ∃ graph, s.relationGraphFor id query = .ok graph ∧ ExactGraph s query direction id graph := by
  obtain ⟨root, hroot⟩ := Option.isSome_iff_exists.mp hroot
  refine ⟨_, ?_, exact_graphOf hroot⟩
  unfold WorldSnapshot.relationGraphFor
  rw [if_neg (not_lt.mpr hdepth), hdirection]
  dsimp only
  rw [hroot]

def threeServices : WorldSnapshot where
  sessionId := "session"
  facts := []
  factHistories := []
  entities := [⟨"a", "service", ∅, []⟩, ⟨"b", "service", ∅, []⟩, ⟨"c", "service", ∅, []⟩]
  relations := [⟨"a", "calls", "b", []⟩, ⟨"a", "calls", "c", []⟩, ⟨"b", "calls", "c", []⟩]

theorem relation_graph_exact_services :
    ∃ graph, threeServices.relationGraphFor "a" { maxDepth := 2, direction := "outgoing" } = .ok graph ∧
      ExactGraph threeServices { maxDepth := 2, direction := "outgoing" } .outgoing "a" graph :=
  relation_graph_exact threeServices "a" { maxDepth := 2, direction := "outgoing" } .outgoing (by decide)
    (by decide) (by decide)

/-- Within one step of the first, the relation between the two others is not gone over. -/
theorem relation_between_neighbours_left_out :
    ∃ graph, threeServices.relationGraphFor "a" { maxDepth := 1 } = .ok graph ∧
      graph.nodes.map WorldGraphNode.entityId = ["a", "b", "c"] ∧
      (⟨"b", "calls", "c", []⟩ : WorldRelation) ∈ threeServices.relations ∧
      (⟨"b", "calls", "c", []⟩ : WorldRelation) ∉ graph.relations :=
  ⟨_, rfl, by decide +kernel, by decide, by decide +kernel⟩

end UniversalAgent.World
