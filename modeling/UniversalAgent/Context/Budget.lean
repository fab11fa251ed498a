import UniversalAgent.Context.Compression
import UniversalAgent.Foundation.CaseMapping
import UniversalAgent.Foundation.Selection
import UniversalAgent.Foundation.Sorting
import UniversalAgent.Runtime.Fingerprints

/-!
# Context — Budget

The selection of context fragments (`_budget_fragments`, `_relevance` and `_normalize` of
`context/compiler.py`): fragments are ranked by priority, relevance and key, and taken in that order while
a number of fragments and a number of characters last; with deduplication on, what repeats the content of
an earlier fragment is passed over.

What is selected is the beginning of the ranked list without repetitions, and does not depend on the order
in which the fragments come. A limit below zero lets nothing through, as zero does.
-/

namespace UniversalAgent.Context

open UniversalAgent.Core UniversalAgent.Foundation

structure ContextFragment where
  key : String
  content : String
  priority : Int
deriving DecidableEq

/-- The limits and switches of `BasicContextCompiler`. -/
structure CompilerConfig where
  maxFragments : Int := 8
  maxCharacters : Int := 4000
  maxMemoryFragments : Int := 4
  maxMemoryCharacters : Int := 1200
  maxFragmentCharacters : Int := 2000
  enableRelevanceRanking : Bool := true
  enableCompression : Bool := true
  enableDedup : Bool := false

def isTokenChar (c : Char) : Bool := ('a' ≤ c && c ≤ 'z') || c.isDigit || c = '_'

section Compiler

variable (lib : JsonLibrary) (casing : CaseMapping) (cfg : CompilerConfig)

def tokens (text : String) : Finset String :=
  ((((casing.lower text).toList.splitOnP fun c => !isTokenChar c).filter (· ≠ [])).map
    String.ofList).toFinset

def relevance (stateTokens : Finset String) (f : ContextFragment) : ℚ :=
  if stateTokens = ∅ then 0
  else
    let overlap := stateTokens ∩ (tokens casing f.content ∪ tokens casing f.key)
    overlap.card / stateTokens.card

def normalize (content : String) : String := casing.lower (Text.strip content)

def rankByRelevance (stateTokens : Finset String) (f : ContextFragment) : Int ×ₗ ℚ ×ₗ String :=
  toLex (f.priority, toLex (-relevance casing stateTokens f, f.key))

def rankByPriority (f : ContextFragment) : Int ×ₗ String := toLex (f.priority, f.key)

def ranked (stateTokens : Option (Finset String)) (fragments : List ContextFragment) :
    List ContextFragment :=
  match stateTokens with
  | none => fragments.insertionSort fun f g => rankByPriority f ≤ rankByPriority g
  | some stateTokens =>
    if stateTokens = ∅ then fragments.insertionSort fun f g => rankByPriority f ≤ rankByPriority g
    else
      fragments.insertionSort fun f g =>
        rankByRelevance casing stateTokens f ≤ rankByRelevance casing stateTokens g

def shortened (content : String) : Except CompressError String :=
  if cfg.enableCompression && decide (cfg.maxFragmentCharacters < content.length) then
    compress lib cfg.enableCompression content cfg.maxFragmentCharacters
  else .ok content

/-- `seen_content`, `selected` and `used`. -/
structure Loop where
  seen : List String
  selected : List ContextFragment
  used : Int

/-- The loop of `_budget_fragments`. -/
def budgetLoop (limitCount limitChars : Int) :
    Loop → List ContextFragment → Except CompressError (List ContextFragment)
  | s, [] => .ok s.selected
  | s, f :: fragments =>
    if limitCount ≤ s.selected.length then .ok s.selected
    else
      let norm := normalize casing f.content
      if cfg.enableDedup && decide (norm ∈ s.seen) then budgetLoop limitCount limitChars s fragments
      else
        let remaining := limitChars - s.used
        if remaining ≤ 0 then .ok s.selected
        else
          match shortened lib cfg f.content with
          | .error e => .error e
          | .ok content =>
            let content := sliceTo content remaining
            budgetLoop limitCount limitChars
              ⟨norm :: s.seen, s.selected ++ [⟨f.key, content, f.priority⟩],
                s.used + content.length⟩ fragments

def budgetFragments (stateTokens : Option (Finset String)) (maxFragments maxCharacters : Option Int)
    (preSorted : Bool) (fragments : List ContextFragment) : Except CompressError (List ContextFragment) :=
  budgetLoop lib casing cfg (maxFragments.getD cfg.maxFragments) (maxCharacters.getD cfg.maxCharacters)
    ⟨[], [], 0⟩ (if preSorted then fragments else ranked casing stateTokens fragments)

/-! ## The loop without what it carries -/

/-- The fragments that are considered: with deduplication on, the first of each content. -/
def sources (seen : List String) (fragments : List ContextFragment) : List ContextFragment :=
  if cfg.enableDedup then firsts (fun f => normalize casing f.content) seen fragments else fragments

def fill : Int → Int → List ContextFragment → Except CompressError (List ContextFragment)
  | _, _, [] => .ok []
  | number, chars, f :: fragments =>
    if number ≤ 0 ∨ chars ≤ 0 then .ok []
    else
      match shortened lib cfg f.content with
      | .error e => .error e
      | .ok content =>
        match fill (number - 1) (chars - (sliceTo content chars).length) fragments with
        | .error e => .error e
        | .ok rest => .ok (⟨f.key, sliceTo content chars, f.priority⟩ :: rest)

variable {lib casing cfg}

theorem sources_cons (seen : List String) (f : ContextFragment) (fragments : List ContextFragment) :
    sources casing cfg seen (f :: fragments) =
      if cfg.enableDedup && decide (normalize casing f.content ∈ seen) then
        sources casing cfg seen fragments
      else f :: sources casing cfg (normalize casing f.content :: seen) fragments := by
  unfold sources
  cases cfg.enableDedup with
  | false => rfl
  | true =>
    by_cases hseen : normalize casing f.content ∈ seen <;> simp [firsts, hseen]

theorem fill_stop {number chars : Int} (h : number ≤ 0 ∨ chars ≤ 0) (fragments : List ContextFragment) :
    fill lib cfg number chars fragments = .ok [] := by
  cases fragments with
  | nil => rfl
  | cons f fragments => rw [fill, if_pos h]

/-- The loop selects the fragments behind those it has, of those it has not seen. -/
theorem budgetLoop_eq_fill (limitCount limitChars : Int) (s : Loop) (fragments : List ContextFragment) :
    budgetLoop lib casing cfg limitCount limitChars s fragments =
      (fill lib cfg (limitCount - s.selected.length) (limitChars - s.used)
        (sources casing cfg s.seen fragments)).map (s.selected ++ ·) := by
  induction fragments generalizing s with
  | nil =>
    have hnil : sources casing cfg s.seen [] = [] := by
      unfold sources
      split <;> rfl
    rw [budgetLoop, hnil, fill, Except.map, List.append_nil]
  | cons f fragments ih =>
    rw [budgetLoop, sources_cons]
    by_cases hcount : limitCount ≤ s.selected.length
    · rw [if_pos hcount, fill_stop (.inl (by omega)), Except.map, List.append_nil]
    · rw [if_neg hcount]
      dsimp only
      split
      · exact ih s
      · by_cases hchars : limitChars - s.used ≤ 0
        · rw [if_pos hchars, fill_stop (.inr hchars), Except.map, List.append_nil]
        · rw [if_neg hchars, fill, if_neg (by omega)]
          cases shortened lib cfg f.content with
          | error e => rfl
          | ok content =>
            dsimp only
            rw [ih]
            dsimp only
            rw [List.length_append, List.length_singleton, Nat.cast_add, Nat.cast_one, ← Int.sub_sub,
              ← Int.sub_sub]
            cases fill lib cfg (limitCount - s.selected.length - 1)
              (limitChars - s.used - (sliceTo content (limitChars - s.used)).length)
              (sources casing cfg (normalize casing f.content :: s.seen) fragments) with
            | error e => rfl
            | ok rest => exact congrArg Except.ok (List.append_assoc _ _ _)

theorem budgetFragments_eq_fill (stateTokens : Option (Finset String))
    (maxFragments maxCharacters : Option Int) (preSorted : Bool) (fragments : List ContextFragment) :
    budgetFragments lib casing cfg stateTokens maxFragments maxCharacters preSorted fragments =
      fill lib cfg (maxFragments.getD cfg.maxFragments) (maxCharacters.getD cfg.maxCharacters)
        (sources casing cfg [] (if preSorted then fragments else ranked casing stateTokens fragments)) := by
  rw [budgetFragments, budgetLoop_eq_fill]
  simp only [List.length_nil, Nat.cast_zero, Int.sub_zero]
  cases fill lib cfg (maxFragments.getD cfg.maxFragments) (maxCharacters.getD cfg.maxCharacters)
    (sources casing cfg [] (if preSorted then fragments else ranked casing stateTokens fragments)) <;> rfl

/-! ## What is selected -/

def size (lib : JsonLibrary) (cfg : CompilerConfig) (f : ContextFragment) : Nat :=
  match shortened lib cfg f.content with
  | .error _ => 0
  | .ok content => content.length

theorem length_sliceTo {content : String} {n : Int} (h : 0 ≤ n) :
    ((sliceTo content n).length : Int) = min (content.length : Int) n := by
  rw [sliceTo, if_pos h, String.length_ofList, List.length_take, String.length_toList]
  omega

variable {fragments : List ContextFragment} {stateTokens : Option (Finset String)} {f g : ContextFragment}

theorem fill_cons {number chars : Int} {f : ContextFragment}
    {content : String} (h : ¬(number ≤ 0 ∨ chars ≤ 0))
    (hcontent : shortened lib cfg f.content = .ok content) :
    fill lib cfg number chars (f :: fragments) =
      (fill lib cfg (number - 1) (chars - (sliceTo content chars).length) fragments).map
        (ContextFragment.mk f.key (sliceTo content chars) f.priority :: ·) := by
  rw [fill, if_neg h, hcontent]
  dsimp only
  cases fill lib cfg (number - 1) (chars - (sliceTo content chars).length) fragments <;> rfl

theorem fill_cons_error {number chars : Int} {f : ContextFragment}
    {e : CompressError} (h : ¬(number ≤ 0 ∨ chars ≤ 0))
    (hcontent : shortened lib cfg f.content = .error e) :
    fill lib cfg number chars (f :: fragments) = .error e := by
  rw [fill, if_neg h, hcontent]

/-- A selection of a list that is not empty begins with its first fragment. -/
theorem fill_cons_ok {number chars : Int} {f : ContextFragment} {fragments selected : List ContextFragment}
    (h : ¬(number ≤ 0 ∨ chars ≤ 0)) (hok : fill lib cfg number chars (f :: fragments) = .ok selected) :
    ∃ content rest, shortened lib cfg f.content = .ok content ∧
      fill lib cfg (number - 1) (chars - (sliceTo content chars).length) fragments = .ok rest ∧
        selected = ⟨f.key, sliceTo content chars, f.priority⟩ :: rest := by
  cases hcontent : shortened lib cfg f.content with
  | error e =>
    rw [fill_cons_error h hcontent] at hok
    cases hok
  | ok content =>
    rw [fill_cons h hcontent] at hok
    cases hrest : fill lib cfg (number - 1) (chars - (sliceTo content chars).length) fragments with
    | error e =>
      rw [hrest] at hok
      cases hok
    | ok rest =>
      rw [hrest] at hok
      cases hok
      exact ⟨content, rest, rfl, hrest, rfl⟩

/-- No more is selected than the limits let through. -/
theorem fill_limits {number chars : Int} {fragments selected : List ContextFragment}
    (h : fill lib cfg number chars fragments = .ok selected) :
    (selected.length : Int) ≤ max number 0 ∧
      ((selected.map fun f => f.content.length).sum : Int) ≤ max chars 0 := by
  induction fragments generalizing number chars selected with
  | nil =>
    cases h
    simp
  | cons f fragments ih =>
    by_cases hstop : number ≤ 0 ∨ chars ≤ 0
    · rw [fill_stop hstop] at h
      cases h
      simp
    · obtain ⟨content, rest, -, hrest, rfl⟩ := fill_cons_ok hstop h
      obtain ⟨hnumber, hchars⟩ := ih hrest
      have hlength := @length_sliceTo content chars (by omega)
      simp only [List.length_cons, List.map_cons, List.sum_cons, Nat.cast_add, Nat.cast_one]
      omega

/-- Cutting the content to what remains stops the selection where the whole content would. -/
theorem within_congr {number chars chars' : Int} (h : chars = chars' ∨ chars ≤ 0 ∧ chars' ≤ 0)
    (fragments : List ContextFragment) :
    within (size lib cfg) number chars fragments = within (size lib cfg) number chars' fragments := by
  rcases h with rfl | ⟨h, h'⟩
  · rfl
  · cases fragments with
    | nil => rfl
    | cons f fragments => rw [within, within, if_pos (.inr h), if_pos (.inr h')]

theorem fill_keys {number chars : Int} {fragments selected : List ContextFragment}
    (h : fill lib cfg number chars fragments = .ok selected) :
    selected.map ContextFragment.key =
      (within (size lib cfg) number chars fragments).map ContextFragment.key := by
  induction fragments generalizing number chars selected with
  | nil =>
    cases h
    rfl
  | cons f fragments ih =>
    by_cases hstop : number ≤ 0 ∨ chars ≤ 0
    · rw [fill_stop hstop] at h
      cases h
      rw [within, if_pos hstop]
    · obtain ⟨content, rest, hcontent, hrest, rfl⟩ := fill_cons_ok hstop h
      have hlength := @length_sliceTo content chars (by omega)
      have hsize : size lib cfg f = content.length := by rw [size, hcontent]
      rw [within, if_neg hstop, List.map_cons, List.map_cons, ih hrest, hsize]
      congr 2
      refine within_congr ?_ fragments
      omega

/-! ## Ranks -/

def relevanceIn (casing : CaseMapping) (stateTokens : Option (Finset String)) (f : ContextFragment) : ℚ :=
  match stateTokens with
  | none => 0
  | some stateTokens => relevance casing stateTokens f

def rank (casing : CaseMapping) (stateTokens : Option (Finset String)) (f : ContextFragment) :
    Int ×ₗ ℚ ×ₗ String :=
  toLex (f.priority, toLex (-relevanceIn casing stateTokens f, f.key))

theorem rank_le_iff :
    rank casing stateTokens f ≤ rank casing stateTokens g ↔
      f.priority < g.priority ∨ f.priority = g.priority ∧
        (relevanceIn casing stateTokens g < relevanceIn casing stateTokens f ∨
          relevanceIn casing stateTokens f = relevanceIn casing stateTokens g ∧ f.key ≤ g.key) := by
  rw [rank, rank, Prod.Lex.toLex_le_toLex, Prod.Lex.toLex_le_toLex, neg_lt_neg_iff, neg_inj]

theorem rankByPriority_le_iff
    (h : ∀ f, relevanceIn casing stateTokens f = 0) :
    rankByPriority f ≤ rankByPriority g ↔ rank casing stateTokens f ≤ rank casing stateTokens g := by
  rw [rank_le_iff, rankByPriority, rankByPriority, Prod.Lex.toLex_le_toLex, h f, h g]
  simp

theorem ranked_eq (stateTokens : Option (Finset String)) (fragments : List ContextFragment) :
    ranked casing stateTokens fragments =
      fragments.insertionSort fun f g => rank casing stateTokens f ≤ rank casing stateTokens g := by
  unfold ranked
  cases stateTokens with
  | none => exact insertionSort_congr (fun _ _ => rankByPriority_le_iff fun _ => rfl) fragments
  | some stateTokens =>
    dsimp only
    by_cases hempty : stateTokens = ∅
    · rw [if_pos hempty]
      refine insertionSort_congr (fun _ _ => rankByPriority_le_iff fun f => ?_) fragments
      exact if_pos hempty
    · rw [if_neg hempty]
      rfl

theorem key_eq_of_rank (h : rank casing stateTokens f = rank casing stateTokens g) : f.key = g.key :=
  congrArg (fun r => (ofLex (ofLex r).2).2) h

theorem ranked_perm (stateTokens : Option (Finset String)) (fragments : List ContextFragment) :
    (ranked casing stateTokens fragments).Perm fragments := by
  rw [ranked_eq]
  exact List.perm_insertionSort _ fragments

/-- Fragments with keys of their own are in strict order. -/
theorem ranked_pairwise (stateTokens : Option (Finset String)) {fragments : List ContextFragment}
    (h : (fragments.map ContextFragment.key).Nodup) :
    (ranked casing stateTokens fragments).Pairwise fun f g =>
      rank casing stateTokens f < rank casing stateTokens g := by
  have hsorted := pairwise_sortByKey (rank casing stateTokens) fragments
  rw [← ranked_eq] at hsorted
  have hkeys : (ranked casing stateTokens fragments).Pairwise fun f g => f.key ≠ g.key :=
    List.pairwise_map.mp (((ranked_perm stateTokens fragments).map ContextFragment.key).nodup_iff.mpr h)
  exact (hsorted.and hkeys).imp fun ⟨hle, hne⟩ => lt_of_le_of_ne hle fun heq => hne (key_eq_of_rank heq)

theorem ranked_congr (stateTokens : Option (Finset String)) {fragments fragments' : List ContextFragment}
    (hperm : fragments.Perm fragments') (h : (fragments.map ContextFragment.key).Nodup) :
    ranked casing stateTokens fragments = ranked casing stateTokens fragments' := by
  rw [ranked_eq, ranked_eq]
  refine sortByKey_congr (rank casing stateTokens) hperm fun f hf g hg hrank => ?_
  exact List.inj_on_of_nodup_map h hf hg (key_eq_of_rank hrank)

/-! ## Selections -/

structure Selects (casing : CaseMapping) (cfg : CompilerConfig) (stateTokens : Option (Finset String))
    (number chars : Int) (fragments selected : List ContextFragment) : Prop where
  count : (selected.length : Int) ≤ max number 0
  characters : ((selected.map fun f => f.content.length).sum : Int) ≤ max chars 0
  /-- The fragments it is made of, as they were. -/
  chosen : ∃ chosen : List ContextFragment, (∀ f ∈ chosen, f ∈ fragments) ∧
    selected.map ContextFragment.key = chosen.map ContextFragment.key ∧
    (cfg.enableDedup = true → (chosen.map fun f => normalize casing f.content).Nodup) ∧
    ∀ f ∈ fragments, f ∉ chosen →
      (cfg.enableDedup = true ∧ ∃ s ∈ chosen, normalize casing s.content = normalize casing f.content) ∨
        ∀ s ∈ chosen, rank casing stateTokens s < rank casing stateTokens f

theorem sources_sublist (fragments : List ContextFragment) :
    (sources casing cfg [] fragments).Sublist fragments := by
  unfold sources
  split
  · exact firsts_sublist [] fragments
  · exact List.Sublist.refl fragments

theorem nodup_sources (h : cfg.enableDedup = true) (fragments : List ContextFragment) :
    ((sources casing cfg [] fragments).map fun f => normalize casing f.content).Nodup := by
  rw [sources, if_pos h]
  exact nodup_firsts [] fragments

/-- Each fragment is considered, or a fragment with its content that comes before it is. -/
theorem exists_source {r : ContextFragment → ContextFragment → Prop} {fragments : List ContextFragment}
    (hs : fragments.Pairwise r) {f : ContextFragment} (hf : f ∈ fragments) :
    ∃ b ∈ sources casing cfg [] fragments, b = f ∨
      cfg.enableDedup = true ∧ normalize casing b.content = normalize casing f.content ∧ r b f := by
  unfold sources
  split
  · next hdedup =>
      obtain ⟨b, hb, hface, hcases⟩ := (@exists_first _ _ _ (fun f => normalize casing f.content)) hs hf
        List.not_mem_nil
      exact ⟨b, hb, hcases.imp id fun hr => ⟨hdedup, hface, hr⟩⟩
  · exact ⟨f, hf, .inl rfl⟩

theorem fill_selects {number chars : Int}
    {fragments selected : List ContextFragment} (hkeys : (fragments.map ContextFragment.key).Nodup)
    (h : fill lib cfg number chars (sources casing cfg [] (ranked casing stateTokens fragments)) =
      .ok selected) :
    Selects casing cfg stateTokens number chars fragments selected := by
  obtain ⟨hcount, hcharacters⟩ := fill_limits h
  have hpairwise := (@ranked_pairwise casing) stateTokens hkeys
  have hsub := @sources_sublist casing cfg (ranked casing stateTokens fragments)
  obtain ⟨rest, hrest⟩ := @within_initial _ (size lib cfg) number chars
    (sources casing cfg [] (ranked casing stateTokens fragments))
  refine ⟨hcount, hcharacters, _, fun f hf => ?_, fill_keys h, fun hdedup => ?_, fun f hf hout => ?_⟩
  · have hmem : f ∈ sources casing cfg [] (ranked casing stateTokens fragments) :=
      (within_initial number chars _).subset hf
    exact (ranked_perm stateTokens fragments).mem_iff.mp (hsub.subset hmem)
  · exact (nodup_sources hdedup _).sublist (List.Sublist.map _ (within_initial number chars _).sublist)
  · have hranked := (@ranked_perm casing stateTokens fragments).mem_iff.mpr hf
    obtain ⟨b, hb, hcases⟩ := (@exists_source casing cfg) hpairwise hranked
    by_cases hchosen : b ∈ within (size lib cfg) number chars
      (sources casing cfg [] (ranked casing stateTokens fragments))
    · rcases hcases with rfl | ⟨hdedup, hnorm, -⟩
      · exact absurd hchosen hout
      · exact .inl ⟨hdedup, b, hchosen, hnorm⟩
    · -- what stands for the fragment comes behind the cut
      refine .inr fun s hs => ?_
      have hafter := hpairwise.sublist hsub
      rw [← hrest] at hafter hb
      have hlt := (List.pairwise_append.mp hafter).2.2 s hs b ((List.mem_append.mp hb).resolve_left hchosen)
      rcases hcases with rfl | ⟨-, -, hbf⟩
      · exact hlt
      · exact lt_trans hlt hbf

/-! ## The fragments of the domains -/

variable (lib casing cfg)

/-- `unique`, with one more fragment. -/
def addUnique (unique : List (String × ContextFragment)) (f : ContextFragment) :
    List (String × ContextFragment) :=
  match unique.lookup f.key with
  | none => dictSet unique f.key f
  | some current => if f.priority < current.priority then dictSet unique f.key f else unique

/-- `unique`, once every provider has provided. -/
def uniqueFragments (provided : List (List ContextFragment)) : List (String × ContextFragment) :=
  provided.flatten.foldl addUnique []

def selectFragments (stateTokens : Option (Finset String)) (provided : List (List ContextFragment)) :
    Except CompressError (List ContextFragment) :=
  budgetFragments lib casing cfg stateTokens none none false ((uniqueFragments provided).map Prod.snd)

variable {lib casing cfg}

/-! ## Main result -/

/-- **The budget selects the best fragments**: as many as the limits let through, without repetitions, and
the same in whatever order they come. -/
theorem budget_selects {stateTokens : Option (Finset String)} {maxFragments maxCharacters : Option Int}
    {fragments : List ContextFragment} (hkeys : (fragments.map ContextFragment.key).Nodup) :
    (∀ fragments', fragments.Perm fragments' →
        budgetFragments lib casing cfg stateTokens maxFragments maxCharacters false fragments' =
          budgetFragments lib casing cfg stateTokens maxFragments maxCharacters false fragments) ∧
      ∀ selected,
        budgetFragments lib casing cfg stateTokens maxFragments maxCharacters false fragments = .ok selected →
          Selects casing cfg stateTokens (maxFragments.getD cfg.maxFragments)
            (maxCharacters.getD cfg.maxCharacters) fragments selected := by
  constructor
  · intro fragments' hperm
    rw [budgetFragments_eq_fill, budgetFragments_eq_fill]
    simp only [Bool.false_eq_true, if_false, ranked_congr stateTokens hperm hkeys]
  · intro selected h
    rw [budgetFragments_eq_fill] at h
    exact fill_selects hkeys h

end Compiler

def withoutJson : JsonLibrary where
  loads _ := none
  floats := Runtime.Actions.plainFloats
  refuses := refusesBeyondInt64
  refusesItem := beyondInt64
  floatSucc x := x
  loads_keys := nofun
  loads_length := nofun
  refuses_obj := refusesBeyondInt64_obj
  refusesItem_int := beyondInt64_int

theorem budget_selects_two :
    budgetFragments withoutJson asciiCase {} none none none false
        [⟨"pod", "pod is down", 50⟩, ⟨"node", "node is ready", 50⟩] =
      budgetFragments withoutJson asciiCase {} none none none false
        [⟨"node", "node is ready", 50⟩, ⟨"pod", "pod is down", 50⟩] :=
  (budget_selects (by decide)).1 _ (List.Perm.swap _ _ _)

/-- A limit below zero is not kept: nothing is selected, and that is more. -/
theorem limit_below_zero :
    budgetFragments withoutJson asciiCase { maxFragments := -1 } none none none false
        [⟨"pod", "pod is down", 50⟩] = .ok [] ∧
      ¬(([] : List ContextFragment).length : Int) ≤ -1 := by
  rw [budgetFragments_eq_fill, fill_stop (.inl (by decide))]
  exact ⟨rfl, by decide⟩

end UniversalAgent.Context
