import Mathlib

/-!
# Foundation — Breadth-first search

A search that goes round by round over the edges of its frontier, with the round at which each node was
found and the first edge of each key that was seen. It finds the nodes within the number of its rounds,
each at its distance, and sees the edges of those that are nearer.
-/

namespace UniversalAgent.Foundation

/-! ## Distance -/

section Distance

variable {α : Type} (adj : α → α → Prop)

inductive Walk : Nat → α → α → Prop where
  | refl (a : α) : Walk 0 a a
  | snoc {n : Nat} {a b c : α} (h : Walk n a b) (hbc : adj b c) : Walk (n + 1) a c

structure Distance (a b : α) (n : Nat) : Prop where
  walk : Walk adj n a b
  least : ∀ m, Walk adj m a b → n ≤ m

variable {adj} {a b c : α} {m n : Nat}

theorem Distance.unique (h : Distance adj a b m) (h' : Distance adj a b n) : m = n :=
  le_antisymm (h.least n h'.walk) (h'.least m h.walk)

theorem distance_zero : Distance adj a b 0 ↔ b = a := by
  constructor
  · rintro ⟨hwalk, -⟩
    cases hwalk
    rfl
  · rintro rfl
    exact ⟨.refl b, fun m _ => Nat.zero_le m⟩

theorem Walk.distance (h : Walk adj n a b) : ∃ k ≤ n, Distance adj a b k := by
  classical
  have hex : ∃ k, Walk adj k a b := ⟨n, h⟩
  exact ⟨Nat.find hex, Nat.find_min' hex h, Nat.find_spec hex, fun m hm => Nat.find_min' hex hm⟩

/-- What is at the next distance is one step from something at this one, and is not nearer. -/
theorem distance_succ :
    Distance adj a c (n + 1) ↔
      (∃ b, Distance adj a b n ∧ adj b c) ∧ ∀ k ≤ n, ¬Distance adj a c k := by
  constructor
  · intro h
    refine ⟨?_, fun k hk h' => absurd (h.unique h') (by omega)⟩
    cases h.walk with
    | @snoc _ _ b _ hwalk hbc =>
      obtain ⟨k, hk, hb⟩ := hwalk.distance
      have hle := h.least (k + 1) (.snoc hb.walk hbc)
      obtain rfl : k = n := by omega
      exact ⟨b, hb, hbc⟩
  · rintro ⟨⟨b, hb, hbc⟩, hnear⟩
    refine ⟨.snoc hb.walk hbc, fun m hm => ?_⟩
    obtain ⟨k, hk, hc⟩ := hm.distance
    by_contra hlt
    exact hnear k (by omega) hc

/-- Where nothing is at a distance, nothing is farther. -/
theorem no_distance (h : ∀ b, ¬Distance adj a b m) (hmn : m ≤ n) : ∀ b, ¬Distance adj a b n := by
  induction n, hmn using Nat.le_induction with
  | base => exact h
  | succ n hmn ih =>
    intro c hc
    obtain ⟨⟨b, hb, -⟩, -⟩ := distance_succ.mp hc
    exact ih b hb

end Distance

/-! ## The search -/

section Search

variable {α ε κ : Type} [DecidableEq α] [DecidableEq κ] (edges : α → List ε) (follow : α → ε → α)
  (key : ε → κ)

structure Search (α ε : Type) where
  depths : List (α × Nat)
  traversed : List ε
  next : List α

/-- An edge of a node: it is seen, and where it leads is found, at this depth unless before. -/
def visit (depth : Nat) (current : α) (s : Search α ε) (e : ε) : Search α ε :=
  let traversed := if s.traversed.any (fun e' => key e' = key e) then s.traversed else s.traversed ++ [e]
  if follow current e ∈ s.depths.map Prod.fst then { s with traversed := traversed }
  else ⟨s.depths ++ [(follow current e, depth)], traversed, s.next ++ [follow current e]⟩

def expand (depth : Nat) (s : Search α ε) (current : α) : Search α ε :=
  (edges current).foldl (visit follow key depth current) s

def round (depth : Nat) (frontier : List α) (s : Search α ε) : Search α ε :=
  frontier.foldl (expand edges follow key depth) { s with next := [] }

def rounds : Nat → Nat → List α → Search α ε → Search α ε
  | 0, _, _, s => s
  | left + 1, depth, frontier, s =>
    let s := round edges follow key (depth + 1) frontier s
    if s.next.eraseDups = [] then s else rounds left (depth + 1) s.next.eraseDups s

def search (root : α) (maxDepth : Nat) : Search α ε :=
  rounds edges follow key maxDepth 0 [root] ⟨[(root, 0)], [], []⟩

variable {edges follow key} {depth : Nat} {current : α} {s : Search α ε}

def Search.found (s : Search α ε) : List α := s.depths.map Prod.fst

/-! ### One edge -/

theorem depths_visit (e : ε) :
    (visit follow key depth current s e).depths =
      if follow current e ∈ s.found then s.depths else s.depths ++ [(follow current e, depth)] := by
  unfold visit Search.found
  dsimp only
  split <;> rfl

theorem next_visit (e : ε) :
    (visit follow key depth current s e).next =
      if follow current e ∈ s.found then s.next else s.next ++ [follow current e] := by
  unfold visit Search.found
  dsimp only
  split <;> rfl

theorem traversed_visit (e : ε) :
    (visit follow key depth current s e).traversed =
      if s.traversed.any (fun e' => key e' = key e) then s.traversed else s.traversed ++ [e] := by
  unfold visit
  dsimp only
  split <;> rfl

theorem mem_found_visit (e : ε) (x : α) :
    x ∈ (visit follow key depth current s e).found ↔ x ∈ s.found ∨ x = follow current e := by
  rw [Search.found, depths_visit]
  by_cases hfound : follow current e ∈ s.found
  · rw [if_pos hfound]
    exact ⟨.inl, fun h => h.elim id fun h => h ▸ hfound⟩
  · rw [if_neg hfound, List.map_append, List.mem_append]
    exact or_congr_right List.mem_singleton

/-- Where an edge leads is found at this depth, unless it was found before. -/
theorem mem_depths_visit (e : ε) (x : α) (k : Nat) :
    (x, k) ∈ (visit follow key depth current s e).depths ↔
      (x, k) ∈ s.depths ∨ x ∉ s.found ∧ k = depth ∧ x = follow current e := by
  rw [depths_visit]
  by_cases hfound : follow current e ∈ s.found
  · rw [if_pos hfound]
    exact ⟨.inl, fun h => h.elim id fun ⟨hx, _, heq⟩ => absurd (heq ▸ hfound) hx⟩
  · rw [if_neg hfound, List.mem_append, List.mem_singleton, Prod.mk.injEq]
    refine or_congr_right ⟨fun ⟨hx, hk⟩ => ⟨hx ▸ hfound, hk, hx⟩, fun ⟨_, hk, hx⟩ => ⟨hx, hk⟩⟩

theorem mem_next_visit (e : ε) (x : α) :
    x ∈ (visit follow key depth current s e).next ↔
      x ∈ s.next ∨ x ∉ s.found ∧ x = follow current e := by
  rw [next_visit]
  by_cases hfound : follow current e ∈ s.found
  · rw [if_pos hfound]
    exact ⟨.inl, fun h => h.elim id fun ⟨hx, heq⟩ => absurd (heq ▸ hfound) hx⟩
  · rw [if_neg hfound, List.mem_append, List.mem_singleton]
    exact or_congr_right ⟨fun hx => ⟨hx ▸ hfound, hx⟩, And.right⟩

theorem find_traversed_visit (e : ε) (c : κ) :
    (visit follow key depth current s e).traversed.find? (fun e' => key e' = c) =
      (s.traversed.find? fun e' => key e' = c).or ([e].find? fun e' => key e' = c) := by
  rw [traversed_visit]
  split
  · next hseen =>
    by_cases hkey : key e = c
    · obtain ⟨e', he', hsame⟩ := List.any_eq_true.mp hseen
      have hsome : (s.traversed.find? fun e' => key e' = c).isSome = true :=
        List.find?_isSome.mpr ⟨e', he', by rw [← hkey]; exact hsame⟩
      obtain ⟨first, hfirst⟩ := Option.isSome_iff_exists.mp hsome
      rw [hfirst]
      rfl
    · simp [hkey]
  · rw [List.find?_append]

/-! ### The edges of a frontier -/

def outgoing (edges : α → List ε) (frontier : List α) : List (α × ε) :=
  frontier.flatMap fun current => (edges current).map fun e => (current, e)

theorem foldl_expand (frontier : List α) (s : Search α ε) :
    frontier.foldl (expand edges follow key depth) s =
      (outgoing edges frontier).foldl (fun s p => visit follow key depth p.1 s p.2) s := by
  induction frontier generalizing s with
  | nil => rfl
  | cons current frontier ih =>
    have hsplit : outgoing edges (current :: frontier) =
        (edges current).map (fun e => (current, e)) ++ outgoing edges frontier := List.flatMap_cons
    rw [List.foldl_cons, ih, hsplit, List.foldl_append, List.foldl_map]
    rfl

variable {left : List (α × ε)}

theorem mem_depths_foldl (x : α) (k : Nat) :
    (x, k) ∈ (left.foldl (fun s p => visit follow key depth p.1 s p.2) s).depths ↔
      (x, k) ∈ s.depths ∨ x ∉ s.found ∧ k = depth ∧ ∃ p ∈ left, x = follow p.1 p.2 := by
  induction left generalizing s with
  | nil => simp
  | cons p left ih =>
    rw [List.foldl_cons, ih, mem_depths_visit, mem_found_visit]
    simp only [List.mem_cons, exists_eq_or_imp]
    by_cases hx : x = follow p.1 p.2 <;> tauto

theorem mem_next_foldl (x : α) :
    x ∈ (left.foldl (fun s p => visit follow key depth p.1 s p.2) s).next ↔
      x ∈ s.next ∨ x ∉ s.found ∧ ∃ p ∈ left, x = follow p.1 p.2 := by
  induction left generalizing s with
  | nil => simp
  | cons p left ih =>
    rw [List.foldl_cons, ih, mem_next_visit, mem_found_visit]
    simp only [List.mem_cons, exists_eq_or_imp]
    by_cases hx : x = follow p.1 p.2 <;> tauto

theorem find_traversed_foldl (left : List (α × ε)) (s : Search α ε) (c : κ) :
    (left.foldl (fun s p => visit follow key depth p.1 s p.2) s).traversed.find? (fun e => key e = c) =
      (s.traversed.find? fun e => key e = c).or ((left.map Prod.snd).find? fun e => key e = c) := by
  induction left generalizing s with
  | nil => simp
  | cons p left ih =>
    rw [List.foldl_cons, ih, find_traversed_visit, Option.or_assoc, ← List.find?_append]
    rfl

theorem nodup_found_foldl (h : s.found.Nodup) :
    (left.foldl (fun s p => visit follow key depth p.1 s p.2) s).found.Nodup := by
  induction left generalizing s with
  | nil => exact h
  | cons p left ih =>
    refine ih ?_
    rw [Search.found, depths_visit]
    by_cases hfound : follow p.1 p.2 ∈ s.found
    · rw [if_pos hfound]
      exact h
    · rw [if_neg hfound, List.map_append]
      refine h.append (List.nodup_singleton _) fun x hx hx' => ?_
      rw [List.map_singleton, List.mem_singleton] at hx'
      obtain rfl : x = follow p.1 p.2 := hx'
      exact hfound hx

theorem nodup_traversed_foldl (left : List (α × ε)) (h : (s.traversed.map key).Nodup) :
    ((left.foldl (fun s p => visit follow key depth p.1 s p.2) s).traversed.map key).Nodup := by
  induction left generalizing s with
  | nil => exact h
  | cons p left ih =>
    refine ih ?_
    rw [traversed_visit]
    split
    · exact h
    · next hseen =>
      rw [List.map_append]
      refine h.append (List.nodup_singleton _) fun c hc hc' => hseen ?_
      rw [List.map_singleton, List.mem_singleton] at hc'
      obtain ⟨e, he, rfl⟩ := List.mem_map.mp hc
      exact List.any_eq_true.mpr ⟨e, he, by simpa using hc'⟩

/-! ### Rounds -/

def Adjacent (edges : α → List ε) (follow : α → ε → α) (a b : α) : Prop :=
  ∃ e ∈ edges a, b = follow a e

/-- The nodes within a number of steps are found, each at its distance, and the edges of the nearer ones
are seen, each with the first of its key at one of them. -/
structure Searched (edges : α → List ε) (follow : α → ε → α) (key : ε → κ) (root : α) (n : Nat)
    (s : Search α ε) : Prop where
  depths : ∀ x k, (x, k) ∈ s.depths ↔ k ≤ n ∧ Distance (Adjacent edges follow) root x k
  found : s.found.Nodup
  seen : ∀ e ∈ s.traversed, ∃ x k, k < n ∧ Distance (Adjacent edges follow) root x k ∧
    (edges x).find? (fun e' => key e' = key e) = some e
  covered : ∀ x k, k < n → Distance (Adjacent edges follow) root x k → ∀ e ∈ edges x,
    ∃ e' ∈ s.traversed, key e' = key e
  distinct : (s.traversed.map key).Nodup

variable {root : α} {n : Nat}

omit [DecidableEq α] in
theorem Searched.mem_found (h : Searched edges follow key root n s) (x : α) :
    x ∈ s.found ↔ ∃ k ≤ n, Distance (Adjacent edges follow) root x k := by
  rw [Search.found, List.mem_map]
  constructor
  · rintro ⟨⟨x, k⟩, hmem, rfl⟩
    exact ⟨k, (h.depths x k).mp hmem⟩
  · rintro ⟨k, hk⟩
    exact ⟨(x, k), (h.depths x k).mpr hk, rfl⟩

/-- An edge of a list with distinct keys is the one that is found. -/
theorem find_of_distinct {l : List ε} (h : (l.map key).Nodup) {e : ε} (he : e ∈ l) :
    l.find? (fun e' => key e' = key e) = some e := by
  cases hfind : l.find? (fun e' => key e' = key e) with
  | none => exact absurd (List.find?_eq_none.mp hfind e he) (by simp)
  | some e' =>
    have hkey : key e' = key e := by simpa using List.find?_some hfind
    rw [List.inj_on_of_nodup_map h (List.mem_of_find?_eq_some hfind) he hkey]

omit [DecidableEq α] [DecidableEq κ] in
theorem mem_outgoing {frontier : List α} {x : α} :
    (∃ p ∈ outgoing edges frontier, x = follow p.1 p.2) ↔
      ∃ b ∈ frontier, Adjacent edges follow b x := by
  simp only [outgoing, List.mem_flatMap, List.mem_map, Adjacent]
  constructor
  · rintro ⟨_, ⟨b, hb, e, he, rfl⟩, hx⟩
    exact ⟨b, hb, e, he, hx⟩
  · rintro ⟨b, hb, e, he, hx⟩
    exact ⟨(b, e), ⟨b, hb, e, he, rfl⟩, hx⟩

theorem Searched.round (h : Searched edges follow key root n s) {frontier : List α}
    (hfrontier : ∀ x, x ∈ frontier ↔ Distance (Adjacent edges follow) root x n) :
    Searched edges follow key root (n + 1) (round edges follow key (n + 1) frontier s) ∧
      ∀ x, x ∈ (round edges follow key (n + 1) frontier s).next ↔
        Distance (Adjacent edges follow) root x (n + 1) := by
  have hnew : ∀ x, (x ∉ s.found ∧ ∃ p ∈ outgoing edges frontier, x = follow p.1 p.2) ↔
      Distance (Adjacent edges follow) root x (n + 1) := by
    intro x
    rw [mem_outgoing, h.mem_found, distance_succ]
    simp only [hfrontier, not_exists, not_and]
    exact and_comm
  let after := (outgoing edges frontier).foldl (fun s p => visit follow key (n + 1) p.1 s p.2)
    { s with next := [] }
  have hfind : ∀ c, after.traversed.find? (fun e => key e = c) =
      (s.traversed.find? fun e => key e = c).or
        (((outgoing edges frontier).map Prod.snd).find? fun e => key e = c) :=
    find_traversed_foldl (outgoing edges frontier) { s with next := [] }
  have hedges : (outgoing edges frontier).map Prod.snd = frontier.flatMap edges := by
    simp [outgoing, List.map_flatMap, Function.comp_def]
  have hdistinct : (after.traversed.map key).Nodup :=
    nodup_traversed_foldl (outgoing edges frontier) h.distinct
  unfold Foundation.round
  rw [foldl_expand]
  refine ⟨⟨fun x k => ?_, nodup_found_foldl h.found, fun e he => ?_, fun x k hk hx e he => ?_, hdistinct⟩,
    fun x => ?_⟩
  · rw [mem_depths_foldl]
    change (x, k) ∈ s.depths ∨ x ∉ s.found ∧ _ ↔ _
    rw [h.depths, and_left_comm, hnew]
    constructor
    · rintro (⟨hk, hx⟩ | ⟨rfl, hx⟩)
      · exact ⟨by omega, hx⟩
      · exact ⟨le_rfl, hx⟩
    · rintro ⟨hk, hx⟩
      rcases Nat.lt_or_ge k (n + 1) with hlt | hge
      · exact .inl ⟨by omega, hx⟩
      · obtain rfl : k = n + 1 := by omega
        exact .inr ⟨rfl, hx⟩
  · have hfound := find_of_distinct hdistinct he
    rw [hfind, hedges] at hfound
    rcases Option.or_eq_some_iff.mp hfound with hold | ⟨-, hfirst⟩
    · obtain ⟨x, k, hk, hx, hedge⟩ := h.seen e (List.mem_of_find?_eq_some hold)
      exact ⟨x, k, by omega, hx, hedge⟩
    · rw [List.find?_flatMap] at hfirst
      obtain ⟨x, hx, hedge⟩ := List.exists_of_findSome?_eq_some hfirst
      exact ⟨x, n, by omega, (hfrontier x).mp hx, hedge⟩
  · have hsome : ((s.traversed.find? fun e' => key e' = key e).or
        ((frontier.flatMap edges).find? fun e' => key e' = key e)).isSome = true := by
      rw [Option.isSome_or, Bool.or_eq_true]
      rcases Nat.lt_or_ge k n with hlt | hge
      · obtain ⟨e', he', hkey⟩ := h.covered x k hlt hx e he
        exact .inl (List.find?_isSome.mpr ⟨e', he', by simpa using hkey⟩)
      · obtain rfl : k = n := by omega
        exact .inr (List.find?_isSome.mpr
          ⟨e, List.mem_flatMap.mpr ⟨x, (hfrontier x).mpr hx, he⟩, by simp⟩)
    obtain ⟨e', he'⟩ := Option.isSome_iff_exists.mp hsome
    rw [← hedges, ← hfind] at he'
    exact ⟨e', List.mem_of_find?_eq_some he', by simpa using List.find?_some he'⟩
  · rw [mem_next_foldl]
    exact (or_iff_right List.not_mem_nil).trans (hnew x)

omit [DecidableEq α] in
/-- What is searched as far as anything is, is searched farther. -/
theorem Searched.beyond (h : Searched edges follow key root n s)
    (hnone : ∀ x, ¬Distance (Adjacent edges follow) root x n) {m : Nat} (hnm : n ≤ m) :
    Searched edges follow key root m s where
  depths x k := by
    rw [h.depths]
    refine ⟨fun ⟨hk, hx⟩ => ⟨hk.trans hnm, hx⟩, fun ⟨_, hx⟩ => ⟨?_, hx⟩⟩
    by_contra hk
    exact no_distance hnone (by omega) x hx
  found := h.found
  seen e he := by
    obtain ⟨x, k, hk, hx, hedge⟩ := h.seen e he
    exact ⟨x, k, by omega, hx, hedge⟩
  covered x k hk hx := by
    refine h.covered x k ?_ hx
    by_contra hkn
    exact no_distance hnone (by omega) x hx
  distinct := h.distinct

theorem Searched.rounds (h : Searched edges follow key root n s) {frontier : List α}
    (hfrontier : ∀ x, x ∈ frontier ↔ Distance (Adjacent edges follow) root x n) (count : Nat) :
    Searched edges follow key root (n + count) (rounds edges follow key count n frontier s) := by
  induction count generalizing n s frontier with
  | zero => exact h
  | succ count ih =>
    obtain ⟨hnext, hnew⟩ := h.round hfrontier
    unfold Foundation.rounds
    dsimp only
    split
    · next hempty =>
      refine hnext.beyond (fun x hx => ?_) (by omega)
      have hmem := List.mem_eraseDups.mpr ((hnew x).mpr hx)
      rw [hempty] at hmem
      cases hmem
    · have hrest := ih hnext fun x => List.mem_eraseDups.trans (hnew x)
      rwa [show n + 1 + count = n + (count + 1) by omega] at hrest

/-- **The search** finds what is within its depth, and sees the edges of what is nearer. -/
theorem searched_search (root : α) (maxDepth : Nat) :
    Searched edges follow key root maxDepth (search edges follow key root maxDepth) := by
  have hstart : Searched edges follow key root 0 (⟨[(root, 0)], [], []⟩ : Search α ε) := by
    refine ⟨fun x k => ?_, List.nodup_singleton root, nofun, fun x k hk => absurd hk (by omega),
      List.nodup_nil⟩
    rw [List.mem_singleton, Prod.mk.injEq, Nat.le_zero]
    constructor
    · rintro ⟨rfl, rfl⟩
      exact ⟨rfl, distance_zero.mpr rfl⟩
    · rintro ⟨rfl, hx⟩
      exact ⟨distance_zero.mp hx, rfl⟩
  have hroot : ∀ x, x ∈ [root] ↔ Distance (Adjacent edges follow) root x 0 :=
    fun x => List.mem_singleton.trans distance_zero.symm
  have h := hstart.rounds hroot maxDepth
  rwa [Nat.zero_add] at h

end Search

end UniversalAgent.Foundation
