import UniversalAgent.Agentd.Routing

/-!
# Agentd — PathSegments

How the text of a path determines its segments and the other way round, and what the matcher accepts.
-/

namespace UniversalAgent.Agentd

open UniversalAgent.Foundation

variable {path rest s : PathText} {ss : List PathText}

/-! ## Segments -/

@[simp] theorem segments_nil : segments [] = [] := rfl

theorem segments_slash (path : PathText) : segments ('/' :: path) = segments path := by
  rw [segments, List.splitOn, List.splitOnP_cons_eq_if_modifyHead, if_pos (by decide),
    List.filter_cons_of_neg (by decide)]
  rfl

theorem not_slash (h : '/' ∉ s) : ∀ c ∈ s, (c == '/') = false := by
  intro c hc
  refine beq_false_of_ne ?_
  rintro rfl
  exact h hc

theorem segments_append (hs : s ≠ []) (hslash : '/' ∉ s) (rest : PathText) :
    segments (s ++ '/' :: rest) = s :: segments rest := by
  rw [segments, List.splitOn, List.splitOnP_append_cons_of_forall_mem (not_slash hslash) '/' (by decide),
    List.filter_cons_of_pos (by simpa using hs)]
  rfl

theorem segments_single (hs : s ≠ []) (hslash : '/' ∉ s) : segments s = [s] := by
  rw [segments, List.splitOn, List.splitOnP_eq_singleton (not_slash hslash),
    List.filter_cons_of_pos (by simpa using hs), List.filter_nil]

/-- A text without a slash at its start begins with its first segment. -/
theorem segments_cons (hhead : path.head? ≠ some '/') (h : segments path = s :: ss) :
    ∃ rest, path = s ++ rest ∧ segments rest = ss ∧ '/' ∉ s ∧ s ≠ [] ∧
      (rest = [] ∨ ∃ more, rest = '/' :: more) := by
  have hsplit := List.takeWhile_append_dropWhile (p := fun c => c ≠ '/') (l := path)
  have hslash : '/' ∉ path.takeWhile fun c => c ≠ '/' := by
    intro hmem
    have hne := List.mem_takeWhile_imp hmem
    simp at hne
  have hne : (path.takeWhile fun c => c ≠ '/') ≠ [] := by
    intro hnil
    cases hp : path with
    | nil =>
      rw [hp] at h
      cases h
    | cons c cs =>
      rw [hp] at hnil hhead
      by_cases hc : c = '/'
      · exact hhead (by rw [hc]; rfl)
      · rw [List.takeWhile_cons_of_pos (by simpa using hc)] at hnil
        cases hnil
  cases hdrop : path.dropWhile fun c => c ≠ '/' with
  | nil =>
    rw [hdrop, List.append_nil] at hsplit
    rw [← hsplit, segments_single hne hslash] at h
    obtain ⟨rfl, rfl⟩ := List.cons.inj h
    exact ⟨[], by rw [List.append_nil]; exact hsplit.symm, rfl, hslash, hne, .inl rfl⟩
  | cons c more =>
    have hc : c = '/' := by
      have hhead := List.head?_dropWhile_not (fun c => decide (c ≠ '/')) path
      rw [hdrop] at hhead
      simpa using hhead
    subst hc
    rw [hdrop] at hsplit
    rw [← hsplit, segments_append hne hslash] at h
    obtain ⟨rfl, rfl⟩ := List.cons.inj h
    exact ⟨'/' :: more, hsplit.symm, segments_slash more, hslash, hne, .inr ⟨more, rfl⟩⟩

/-- A text with further segments goes on behind a slash. -/
theorem segments_cons_cons {t : PathText} (hhead : path.head? ≠ some '/')
    (h : segments path = s :: t :: ss) :
    ∃ rest, path = s ++ '/' :: rest ∧ segments rest = t :: ss := by
  obtain ⟨rest, hpath, hrest, -, -, rfl | ⟨more, rfl⟩⟩ := segments_cons hhead h
  · cases hrest
  · exact ⟨more, hpath, (segments_slash more) ▸ hrest⟩

/-! ## Normal forms -/

theorem mem_stripSlashes {c : Char} (h : c ∈ stripSlashes path) : c ∈ path := by
  have hdrop := (List.dropWhile_sublist (fun c => decide (c = '/')) (l := path.reverse)).subset
    (List.mem_reverse.mp h)
  exact List.mem_reverse.mp hdrop

theorem clean_withSlash (h : Clean path) : Clean (withSlash path) := by
  unfold withSlash
  split
  · exact h
  · intro c hc
    rcases List.mem_cons.mp hc with rfl | hc
    · decide
    · exact h c hc

theorem head_withSlash (path : PathText) : ∃ rest, withSlash path = '/' :: rest := by
  unfold withSlash
  split
  · next h =>
      cases path with
      | nil => cases h
      | cons c cs => exact ⟨cs, by rw [List.head?_cons, Option.some.injEq] at h; rw [h]⟩
  · exact ⟨path, rfl⟩

/-- The end that is stripped is not the start, unless there is nothing else. -/
theorem head_stripSlashes (rest : PathText) :
    stripSlashes ('/' :: rest) = [] ∨ ∃ more, stripSlashes ('/' :: rest) = '/' :: more := by
  have hsplit : ('/' :: rest) = stripSlashes ('/' :: rest) ++
      (('/' :: rest).reverse.takeWhile fun c => decide (c = '/')).reverse := by
    rw [stripSlashes, ← List.reverse_append, List.takeWhile_append_dropWhile, List.reverse_reverse]
  cases hs : stripSlashes ('/' :: rest) with
  | nil => exact .inl rfl
  | cons c cs =>
    rw [hs, List.cons_append] at hsplit
    obtain ⟨rfl, -⟩ := List.cons.inj hsplit
    exact .inr ⟨cs, rfl⟩

/-- The normal form of a path is clean and begins with a slash. -/
theorem normalizePath_ok {url : UrlParser} {norm : PathText}
    (h : normalizePath url path = .ok norm) : Clean norm ∧ ∃ rest, norm = '/' :: rest := by
  rw [normalizePath] at h
  cases hp : url.path path with
  | error e =>
    rw [hp] at h
    cases h
  | ok parsed =>
    rw [hp] at h
    obtain rfl := Except.ok.inj h
    have hclean := clean_withSlash (url.clean _ _ hp)
    obtain ⟨rest, hrest⟩ := head_withSlash parsed
    split
    · exact ⟨by intro c hc; rw [List.mem_singleton] at hc; rw [hc]; decide, [], rfl⟩
    · next hne =>
        refine ⟨fun c hc => hclean c (mem_stripSlashes hc), ?_⟩
        rw [hrest] at hne ⊢
        exact (head_stripSlashes rest).resolve_left hne

/-- A normal form with one slash at its start has its own segments for the matcher. -/
theorem routePath_rooted {url : UrlParser} {norm : PathText} (hclean : Clean norm)
    (hrooted : Rooted norm) : routePath url norm = .ok (segments norm) := by
  obtain ⟨rest, rfl, hhead⟩ := hrooted
  rw [routePath, url.rooted _ hclean ⟨rest, rfl, hhead⟩]
  rfl

/-! ## Templates -/

variable {template : List TemplateSegment} {segs : List PathText} {params : PathParams}

@[simp] theorem matchSegments_nil : matchSegments [] segs = some params ↔ segs = [] ∧ params = [] := by
  cases segs <;> simp [matchSegments, eq_comm]

@[simp] theorem matchSegments_literal {text : PathText} :
    matchSegments (.literal text :: template) segs = some params ↔
      ∃ rest, segs = text :: rest ∧ matchSegments template rest = some params := by
  cases segs with
  | nil => simp [matchSegments]
  | cons segment rest =>
    rw [matchSegments]
    by_cases h : segment = text
    · simp [h]
    · simp [h]

@[simp] theorem matchSegments_parameter {name : PathText} :
    matchSegments (.parameter name :: template) segs = some params ↔
      ∃ segment rest more, segs = segment :: rest ∧ matchSegments template rest = some more ∧
        params = (name, segment) :: more := by
  cases segs with
  | nil => simp [matchSegments]
  | cons segment rest =>
    rw [matchSegments, Option.map_eq_some_iff]
    constructor
    · rintro ⟨more, hmore, rfl⟩
      exact ⟨segment, rest, more, rfl, hmore, rfl⟩
    · rintro ⟨segment', rest', more, hsegs, hmore, rfl⟩
      obtain ⟨rfl, rfl⟩ := List.cons.inj hsegs
      exact ⟨more, hmore, rfl⟩

theorem exists_of_matchRoutes {casing : CaseMapping} {routes : List RouteDefinition} {method : String}
    {route : RouteMatch} (h : matchRoutes casing routes segs method = some route) :
    ∃ definition ∈ routes, matchSegments definition.segments segs = some route.pathParams ∧
      route.name = definition.name ∧
      route.methodAllowed = decide (casing.upper method ∈ definition.methods.map casing.upper) := by
  obtain ⟨definition, hmem, hmatch⟩ := List.exists_of_findSome?_eq_some h
  obtain ⟨params, hparams, rfl⟩ := Option.map_eq_some_iff.mp hmatch
  exact ⟨definition, hmem, hparams, rfl, rfl⟩

end UniversalAgent.Agentd
