import Mathlib

/-!
# Foundation — TopologicalSorter

Python's `graphlib.TopologicalSorter`: nodes with their predecessors, handed out once all their
predecessors are finished. A node is ready exactly if it has not been handed out and its
predecessors are finished (`Sound`), which every operation keeps.

A round hands out all that is ready and finishes it. Rounds finish nodes in a topological order, and
they finish all of them if and only if no node precedes itself.
-/

namespace UniversalAgent.Foundation

universe u

theorem nodup_eraseDups {α : Type u} [DecidableEq α] : (l : List α) → l.eraseDups.Nodup
  | [] => List.nodup_nil
  | a :: l => by
      have hshort : (l.filter fun b => !b == a).length < (a :: l).length :=
        Nat.lt_succ_of_le (List.length_filter_le _ _)
      rw [List.eraseDups_cons, List.nodup_cons]
      refine ⟨fun hmem => ?_, nodup_eraseDups _⟩
      rw [List.mem_eraseDups, List.mem_filter] at hmem
      simp at hmem
termination_by l => l.length
decreasing_by exact hshort

/-- A graph as the sorter is given it: nodes, each with its predecessors. -/
abbrev Predecessors (α : Type u) := List (α × List α)

namespace Predecessors

variable {α : Type u} [DecidableEq α]

/-- Every node that is mentioned, in the order of the first mention. -/
def nodes (g : Predecessors α) : List α := (g.flatMap fun row => row.1 :: row.2).eraseDups

def of (g : Predecessors α) (n : α) : List α := (g.filter fun row => decide (row.1 = n)).flatMap Prod.snd

def successors (g : Predecessors α) (n : α) : List α :=
  (g.filter fun row => decide (n ∈ row.2)).map Prod.fst

/-- `p` precedes `n` by one edge. -/
def Edge (g : Predecessors α) (p n : α) : Prop := p ∈ g.of n

def Acyclic (g : Predecessors α) : Prop := ∀ n, ¬ Relation.TransGen g.Edge n n

variable {g : Predecessors α}

theorem mem_of {p n : α} : p ∈ g.of n ↔ ∃ ps, (n, ps) ∈ g ∧ p ∈ ps := by
  unfold of
  rw [List.mem_flatMap]
  constructor
  · rintro ⟨⟨n', ps⟩, hrow, hp⟩
    obtain ⟨hmem, hn⟩ := List.mem_filter.mp hrow
    cases of_decide_eq_true hn
    exact ⟨ps, hmem, hp⟩
  · rintro ⟨ps, hmem, hp⟩
    exact ⟨(n, ps), List.mem_filter.mpr ⟨hmem, decide_eq_true rfl⟩, hp⟩

theorem mem_successors {p n : α} : n ∈ g.successors p ↔ p ∈ g.of n := by
  unfold successors
  rw [List.mem_map, mem_of]
  constructor
  · rintro ⟨⟨n', ps⟩, hrow, rfl⟩
    obtain ⟨hmem, hp⟩ := List.mem_filter.mp hrow
    exact ⟨ps, hmem, of_decide_eq_true hp⟩
  · rintro ⟨ps, hmem, hp⟩
    exact ⟨(n, ps), List.mem_filter.mpr ⟨hmem, decide_eq_true hp⟩, rfl⟩

theorem mem_nodes {n : α} : n ∈ g.nodes ↔ ∃ row ∈ g, n = row.1 ∨ n ∈ row.2 := by
  unfold nodes
  rw [List.mem_eraseDups, List.mem_flatMap]
  simp only [List.mem_cons]

theorem Edge.mem_nodes {p n : α} (h : g.Edge p n) : p ∈ g.nodes ∧ n ∈ g.nodes := by
  obtain ⟨ps, hmem, hp⟩ := mem_of.mp h
  exact ⟨Predecessors.mem_nodes.mpr ⟨_, hmem, .inr hp⟩, Predecessors.mem_nodes.mpr ⟨_, hmem, .inl rfl⟩⟩

/-- In a graph without cycles, a set of nodes that is not empty has one without a predecessor in
it. -/
theorem Acyclic.exists_first {g : Predecessors α} (h : g.Acyclic) {S : α → Prop} {a : α}
    (ha : S a) (hnodes : ∀ n, S n → n ∈ g.nodes) : ∃ n, S n ∧ ∀ p ∈ g.of n, ¬ S p := by
  have hwf : (↑g.nodes.toFinset : Set α).WellFoundedOn (Relation.TransGen g.Edge) :=
    haveI : Std.Irrefl (Relation.TransGen g.Edge) := ⟨h⟩
    haveI : IsTrans α (Relation.TransGen g.Edge) := ⟨fun _ _ _ => Relation.TransGen.trans⟩
    haveI : IsStrictOrder α (Relation.TransGen g.Edge) := {}
    g.nodes.toFinset.finite_toSet.wellFoundedOn
  obtain ⟨n, hn, hmin⟩ := (Set.wellFoundedOn_iff.mp hwf).has_min {n | S n} ⟨a, ha⟩
  refine ⟨n, hn, fun p hp hSp => hmin p hSp ⟨.single hp, ?_, ?_⟩⟩
  · simpa using hnodes p hSp
  · simpa using hnodes n hn

theorem Acyclic.mono {g g' : Predecessors α} (h : g.Acyclic) (hsub : ∀ p n, g'.Edge p n → g.Edge p n) :
    g'.Acyclic :=
  fun n hn => h n (Relation.TransGen.mono hsub n n hn)

/-- A list in which every node stands after its predecessors has no node that precedes itself. -/
theorem acyclic_of_order {order : List α} (hnodup : order.Nodup)
    (hall : ∀ n ∈ g.nodes, n ∈ order)
    (hafter : ∀ before n after, order = before ++ n :: after → ∀ p ∈ g.of n, p ∈ before) :
    g.Acyclic := by
  have hedge : ∀ p n, g.Edge p n → order.idxOf p < order.idxOf n := by
    intro p n h
    obtain ⟨before, after, horder⟩ := List.append_of_mem (hall n h.mem_nodes.2)
    have hp := hafter before n after horder p h
    have hn : n ∉ before := by
      rw [horder] at hnodup
      exact fun hmem => (List.nodup_append.mp hnodup).2.2 n hmem n List.mem_cons_self rfl
    rw [horder, List.idxOf_append_of_mem hp, List.idxOf_append_of_notMem hn]
    exact Nat.lt_add_right _ (List.idxOf_lt_length_of_mem hp)
  intro n hn
  have hlt : ∀ m, Relation.TransGen g.Edge n m → order.idxOf n < order.idxOf m := by
    intro m hm
    induction hm with
    | single h => exact hedge _ _ h
    | tail _ h ih => exact ih.trans (hedge _ _ h)
  exact lt_irrefl _ (hlt n hn)

end Predecessors

structure TopologicalSorter (α : Type u) where
  graph : Predecessors α
  ready : List α
  passedOut : List α
  finished : List α

namespace TopologicalSorter

variable {α : Type u} [DecidableEq α]

def isFree (g : Predecessors α) (finished : List α) (n : α) : Bool :=
  (g.of n).all fun p => decide (p ∈ finished)

variable {g : Predecessors α}

theorem isFree_iff {finished : List α} {n : α} : isFree g finished n = true ↔ ∀ p ∈ g.of n, p ∈ finished := by
  simp [isFree]

/-- `TopologicalSorter(graph)`, ready to hand out. -/
def start (g : Predecessors α) : TopologicalSorter α :=
  ⟨g, g.nodes.filter (isFree g []), [], []⟩

/-- `get_ready()`. -/
def getReady (s : TopologicalSorter α) : List α × TopologicalSorter α :=
  (s.ready, { s with ready := [], passedOut := s.passedOut ++ s.ready })

/-- `done(node)`, of a node that was handed out. -/
def finish (s : TopologicalSorter α) (n : α) : TopologicalSorter α :=
  { s with
    finished := s.finished ++ [n]
    ready := s.ready ++ ((s.graph.successors n).filter fun next =>
      decide (next ∉ s.ready ∧ next ∉ s.passedOut) &&
        isFree s.graph (s.finished ++ [n]) next).eraseDups }

/-- `done(*nodes)`. -/
def done (s : TopologicalSorter α) (ns : List α) : TopologicalSorter α := ns.foldl finish s

/-- `is_active()`. -/
def isActive (s : TopologicalSorter α) : Bool :=
  decide (s.finished.length < s.passedOut.length) || !s.ready.isEmpty

def round (s : TopologicalSorter α) : TopologicalSorter α := s.getReady.2.done s.getReady.1

def rounds (s : TopologicalSorter α) : Nat → TopologicalSorter α
  | 0 => s
  | k + 1 => (s.rounds k).round

/-- `prepare()` raises where there is a cycle: where rounds leave a node unfinished. -/
def hasCycle (g : Predecessors α) : Bool :=
  decide (((start g).rounds g.nodes.length).finished.length < g.nodes.length)

/-! ## What every operation keeps -/

/-- A node is ready exactly if it was not handed out and its predecessors are finished. -/
structure Sound (s : TopologicalSorter α) : Prop where
  mem_ready : ∀ n, n ∈ s.ready ↔
    n ∈ s.graph.nodes ∧ n ∉ s.passedOut ∧ ∀ p ∈ s.graph.of n, p ∈ s.finished
  nodup : s.ready.Nodup

theorem sound_start (g : Predecessors α) : (start g).Sound := by
  refine ⟨fun n => ?_, List.Nodup.filter _ (nodup_eraseDups _)⟩
  simp only [start, List.mem_filter, isFree_iff, List.not_mem_nil, not_false_eq_true, true_and]

theorem Sound.getReady {s : TopologicalSorter α} (h : s.Sound) : s.getReady.2.Sound := by
  refine ⟨fun n => ?_, List.nodup_nil⟩
  simp only [TopologicalSorter.getReady, List.not_mem_nil, List.mem_append, not_or, false_iff]
  rintro ⟨hn, ⟨hout, hready⟩, hfree⟩
  exact hready ((h.mem_ready n).mpr ⟨hn, hout, hfree⟩)

theorem Sound.finish {s : TopologicalSorter α} (h : s.Sound) (n : α) : (s.finish n).Sound := by
  constructor
  · intro m
    simp only [TopologicalSorter.finish, List.mem_append, List.mem_eraseDups, List.mem_filter,
      Bool.and_eq_true, decide_eq_true_eq, isFree_iff, Predecessors.mem_successors,
      List.mem_singleton]
    constructor
    · rintro (hready | ⟨hedge, ⟨-, hout⟩, hfree⟩)
      · obtain ⟨hm, hout, hfree⟩ := (h.mem_ready m).mp hready
        exact ⟨hm, hout, fun p hp => .inl (hfree p hp)⟩
      · exact ⟨(Predecessors.Edge.mem_nodes hedge).2, hout, hfree⟩
    · rintro ⟨hm, hout, hfree⟩
      by_cases hready : m ∈ s.ready
      · exact .inl hready
      · refine .inr ⟨?_, ⟨hready, hout⟩, hfree⟩
        by_contra hedge
        refine hready ((h.mem_ready m).mpr ⟨hm, hout, fun p hp => (hfree p hp).resolve_right ?_⟩)
        rintro rfl
        exact hedge hp
  · refine h.nodup.append (nodup_eraseDups _) ?_
    intro m hready hnew
    rw [List.mem_eraseDups, List.mem_filter, Bool.and_eq_true, decide_eq_true_eq] at hnew
    exact hnew.2.1.1 hready

theorem Sound.done {s : TopologicalSorter α} (h : s.Sound) (ns : List α) : (s.done ns).Sound := by
  unfold TopologicalSorter.done
  induction ns generalizing s with
  | nil => exact h
  | cons n ns ih => exact ih (h.finish n)

theorem done_frame (s : TopologicalSorter α) (ns : List α) :
    (s.done ns).graph = s.graph ∧ (s.done ns).passedOut = s.passedOut ∧
      (s.done ns).finished = s.finished ++ ns := by
  unfold TopologicalSorter.done
  induction ns generalizing s with
  | nil => exact ⟨rfl, rfl, (List.append_nil _).symm⟩
  | cons n ns ih =>
    obtain ⟨hgraph, hout, hfinished⟩ := ih (s.finish n)
    refine ⟨hgraph, hout, hfinished.trans ?_⟩
    exact List.append_assoc s.finished [n] ns

/-! ## Rounds -/

/-- Between two rounds: all that was handed out is finished, each node after its predecessors. -/
structure Between (s : TopologicalSorter α) : Prop where
  sound : s.Sound
  settled : s.passedOut = s.finished
  nodes : ∀ n ∈ s.finished, n ∈ s.graph.nodes
  nodup : s.finished.Nodup
  after : ∀ before n rest, s.finished = before ++ n :: rest → ∀ p ∈ s.graph.of n, p ∈ before

theorem between_start (g : Predecessors α) : (start g).Between :=
  ⟨sound_start g, rfl, fun _ hn => (nomatch hn), List.nodup_nil, fun before n rest h =>
    absurd h (by simp [start])⟩

variable {s : TopologicalSorter α}

theorem round_frame (s : TopologicalSorter α) :
    s.round.graph = s.graph ∧ s.round.passedOut = s.passedOut ++ s.ready ∧
      s.round.finished = s.finished ++ s.ready := done_frame s.getReady.2 s.ready

omit [DecidableEq α] in
theorem append_eq_append_cons {xs ys before rest : List α} {n : α}
    (h : xs ++ ys = before ++ n :: rest) :
    (∃ rest', xs = before ++ n :: rest') ∨ ∃ before', before = xs ++ before' ∧ n ∈ ys := by
  rcases List.append_eq_append_iff.mp h with ⟨mid, hbefore, hys⟩ | ⟨mid, hxs, htail⟩
  · exact .inr ⟨mid, hbefore, hys ▸ List.mem_append_right _ List.mem_cons_self⟩
  · cases mid with
    | nil =>
      rw [List.append_nil] at hxs
      rw [List.nil_append] at htail
      exact .inr ⟨[], by rw [hxs, List.append_nil], htail ▸ List.mem_cons_self⟩
    | cons m mid =>
      rw [List.cons_append, List.cons.injEq] at htail
      obtain ⟨rfl, -⟩ := htail
      exact .inl ⟨mid, hxs⟩

theorem Between.round (h : s.Between) : s.round.Between := by
  obtain ⟨hgraph, hout, hfinished⟩ := round_frame s
  refine ⟨h.sound.getReady.done s.ready, ?_, fun n hn => ?_, ?_, fun before n rest hsplit p hp => ?_⟩
  · rw [hout, hfinished, h.settled]
  · rw [hfinished, List.mem_append] at hn
    rw [hgraph]
    rcases hn with hn | hn
    · exact h.nodes n hn
    · exact ((h.sound.mem_ready n).mp hn).1
  · rw [hfinished]
    refine h.nodup.append h.sound.nodup fun n hn hready => ?_
    rw [← h.settled] at hn
    exact ((h.sound.mem_ready n).mp hready).2.1 hn
  · rw [hfinished] at hsplit
    rw [hgraph] at hp
    rcases append_eq_append_cons hsplit with ⟨rest', hxs⟩ | ⟨before', rfl, hready⟩
    · exact h.after before n rest' hxs p hp
    · exact List.mem_append_left _ (((h.sound.mem_ready n).mp hready).2.2 p hp)

theorem between_rounds (g : Predecessors α) (k : Nat) : ((start g).rounds k).Between := by
  induction k with
  | zero => exact between_start g
  | succ k ih => exact ih.round

theorem rounds_graph (s : TopologicalSorter α) (k : Nat) : (s.rounds k).graph = s.graph := by
  induction k with
  | zero => rfl
  | succ k ih => exact (round_frame _).1.trans ih

/-- Between rounds the sorter is active as long as there is something to hand out. -/
theorem Between.isActive_iff (h : s.Between) : s.isActive = true ↔ s.ready ≠ [] := by
  simp [isActive, h.settled]

/-- Without cycles, there is something to hand out as long as a node is unfinished. -/
theorem Between.ready_ne_nil (h : s.Between) (hacyclic : s.graph.Acyclic) {a : α}
    (ha : a ∈ s.graph.nodes) (hunfinished : a ∉ s.finished) : s.ready ≠ [] := by
  obtain ⟨n, ⟨hn, hout⟩, hfree⟩ := hacyclic.exists_first
    (S := fun n => n ∈ s.graph.nodes ∧ n ∉ s.finished) ⟨ha, hunfinished⟩ fun n hn => hn.1
  refine List.ne_nil_of_mem ((h.sound.mem_ready n).mpr ⟨hn, h.settled ▸ hout, fun p hp => ?_⟩)
  by_contra hp'
  exact hfree p hp ⟨(Predecessors.Edge.mem_nodes hp).1, hp'⟩

theorem Between.length_finished_le (h : s.Between) : s.finished.length ≤ s.graph.nodes.length :=
  (List.subperm_of_subset h.nodup fun n hn => h.nodes n hn).length_le

/-- Each round finishes a node, or they are all finished. -/
theorem rounds_progress (hacyclic : g.Acyclic) (k : Nat) :
    k ≤ ((start g).rounds k).finished.length ∨
      g.nodes.length ≤ ((start g).rounds k).finished.length := by
  induction k with
  | zero => exact .inl (Nat.zero_le _)
  | succ k ih =>
    have hbetween := between_rounds g k
    have hgraph : ((start g).rounds k).graph = g := rounds_graph (start g) k
    have hlen : ((start g).rounds (k + 1)).finished.length
        = ((start g).rounds k).finished.length + ((start g).rounds k).ready.length := by
      rw [rounds, (round_frame _).2.2, List.length_append]
    by_cases hall : g.nodes.length ≤ ((start g).rounds k).finished.length
    · exact .inr (hlen ▸ Nat.le_add_right_of_le hall)
    · obtain ⟨a, ha, hunfinished⟩ : ∃ a ∈ g.nodes, a ∉ ((start g).rounds k).finished := by
        by_contra hnone
        push Not at hnone
        exact hall (List.subperm_of_subset (nodup_eraseDups _) hnone).length_le
      have hready := hbetween.ready_ne_nil (by rw [hgraph]; exact hacyclic)
        (by rw [hgraph]; exact ha) hunfinished
      have hpos := List.length_pos_iff.mpr hready
      have hk := ih.resolve_right hall
      exact .inl (by omega)

/-- **The test for cycles.** Rounds leave a node unfinished exactly if some node precedes itself. -/
theorem hasCycle_iff (g : Predecessors α) : hasCycle g = true ↔ ¬ g.Acyclic := by
  unfold hasCycle
  rw [decide_eq_true_iff]
  have hbetween := between_rounds g g.nodes.length
  have hgraph : ((start g).rounds g.nodes.length).graph = g := rounds_graph (start g) _
  constructor
  · intro hlt hacyclic
    have hprogress := rounds_progress hacyclic g.nodes.length
    omega
  · intro hcyclic
    by_contra hle
    refine hcyclic (Predecessors.acyclic_of_order hbetween.nodup (fun n hn => ?_) fun before n rest
      hsplit p hp => hbetween.after before n rest hsplit p (by rw [hgraph]; exact hp))
    have hsub : ((start g).rounds g.nodes.length).finished.Subperm g.nodes :=
      List.subperm_of_subset hbetween.nodup fun n hn => hgraph ▸ hbetween.nodes n hn
    exact (hsub.perm_of_length_le (Nat.le_of_not_lt hle)).mem_iff.mpr hn

/-- `static_order()`: what the rounds hand out, unless there is a cycle. -/
def staticOrder (g : Predecessors α) : Option (List α) :=
  if hasCycle g then none else some ((start g).rounds g.nodes.length).finished

theorem staticOrder_eq_none_iff : staticOrder g = none ↔ ¬g.Acyclic := by
  rw [← hasCycle_iff, staticOrder]
  split
  · next h => exact iff_of_true rfl h
  · next h => exact iff_of_false nofun h

/-- The order holds every node once, each after its predecessors. -/
theorem staticOrder_spec {order : List α} (h : staticOrder g = some order) :
    order.Perm g.nodes ∧ ∀ before n after, order = before ++ n :: after → ∀ p ∈ g.of n, p ∈ before := by
  rw [staticOrder] at h
  split at h
  · cases h
  · next hcycle =>
      obtain rfl := Option.some.inj h
      have hbetween := between_rounds g g.nodes.length
      have hgraph : ((start g).rounds g.nodes.length).graph = g := rounds_graph (start g) _
      rw [hasCycle, decide_eq_true_iff] at hcycle
      constructor
      · have hsub : ((start g).rounds g.nodes.length).finished.Subperm g.nodes :=
          List.subperm_of_subset hbetween.nodup fun n hn => hgraph ▸ hbetween.nodes n hn
        exact hsub.perm_of_length_le (Nat.le_of_not_lt hcycle)
      · intro before n after hsplit p hp
        exact hbetween.after before n after hsplit p (by rw [hgraph]; exact hp)

end TopologicalSorter

end UniversalAgent.Foundation
