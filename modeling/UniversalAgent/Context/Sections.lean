import UniversalAgent.Context.Budget
import UniversalAgent.Memory.Store

/-!
# Context — Sections

The evidence and the memory section of a context (`_evidence_fragments` and `_memory_fragments` of
`context/compiler.py`). Both sort by confidence and leave the rest to the budget.

The evidence is cut to the limit before repetitions are passed over, so that they take places that other
evidence would have had. The memories are sorted again by the budget, where the confidence plays no part:
among those of one relevance the id decides.
-/

namespace UniversalAgent.Context

open UniversalAgent.Core UniversalAgent.Foundation UniversalAgent.Memory

section Sections

variable (lib : JsonLibrary) (casing : CaseMapping) (cfg : CompilerConfig) (repr : Json → String)

def evidenceKey (e : Evidence) : ℚ ×ₗ Instant ×ₗ String := toLex (e.confidence, toLex (e.observedAt, e.id))

/-- `sorted(evidence, key=…, reverse=True)`: what is equal stays in order. -/
def sortedEvidence (evidence : List Evidence) : List Evidence :=
  evidence.insertionSort fun a b => evidenceKey b ≤ evidenceKey a

/-- `heapq.nlargest(n, evidence, key=…)`. -/
def nlargest (n : Int) (evidence : List Evidence) : List Evidence := (sortedEvidence evidence).take n.toNat

/-- The fragment of a piece of evidence; `repr` is that of its value. -/
def evidenceFragment (e : Evidence) : ContextFragment :=
  ⟨"evidence." ++ e.id, e.subject ++ " " ++ e.claim ++ "=" ++ repr e.value ++ " source=" ++ e.source, 30⟩

def evidenceFragments (stateTokens : Option (Finset String)) (evidence : List Evidence) :
    Except CompressError (List ContextFragment) :=
  budgetFragments lib casing cfg stateTokens none none true
    ((nlargest cfg.maxFragments evidence).map (evidenceFragment repr))

def evidenceFragmentsOfAll (stateTokens : Option (Finset String)) (evidence : List Evidence) :
    Except CompressError (List ContextFragment) :=
  budgetFragments lib casing cfg stateTokens none none true
    ((sortedEvidence evidence).map (evidenceFragment repr))

/-- `record.kind.value`. -/
def kindValue : MemoryKind → String
  | .episodic => "episodic"
  | .semantic => "semantic"
  | .procedural => "procedural"
  | .preference => "preference"

def memoryKey (r : MemoryRecord) : ℚ ×ₗ DateTime ×ₗ String := toLex (r.confidence, toLex (r.createdAt, r.id))

def memoryFragment (r : MemoryRecord) : ContextFragment :=
  ⟨"memory." ++ r.id, kindValue r.kind ++ " " ++ r.subject ++ ": " ++ r.content, 40⟩

def memoryFragments (stateTokens : Option (Finset String)) (memories : List MemoryRecord) :
    Except CompressError (List ContextFragment) :=
  budgetFragments lib casing cfg stateTokens (some cfg.maxMemoryFragments) (some cfg.maxMemoryCharacters)
    false ((memories.insertionSort fun a b => memoryKey b ≤ memoryKey a).map memoryFragment)

/-! ## Evidence -/

variable {lib casing cfg}

theorem sources_append (seen : List String) (xs ys : List ContextFragment) :
    sources casing cfg seen (xs ++ ys) =
      sources casing cfg seen xs ++
        sources casing cfg ((xs.map fun f => normalize casing f.content) ++ seen) ys := by
  unfold sources
  split
  · exact firsts_append seen xs ys
  · rfl

def Raises (lib : JsonLibrary) (cfg : CompilerConfig) (f : ContextFragment) : Prop :=
  ∃ e, shortened lib cfg f.content = .error e

/-- More fragments behind a list change the selection, unless a limit is used up on the way or the
selection raises. -/
theorem fill_append_iff {number chars : Int} {xs ys : List ContextFragment} :
    fill lib cfg number chars xs = fill lib cfg number chars (xs ++ ys) ↔
      ys = [] ∨ number ≤ xs.length ∨ (∃ f ∈ xs, Raises lib cfg f) ∨
        chars ≤ ((xs.map (size lib cfg)).sum : Nat) := by
  induction xs generalizing number chars with
  | nil =>
    cases ys with
    | nil => simp
    | cons y ys =>
      by_cases hstop : number ≤ 0 ∨ chars ≤ 0
      · rw [fill_stop hstop, fill_stop hstop]
        simpa using hstop
      · have hne : fill lib cfg number chars [] ≠ fill lib cfg number chars (y :: ys) := by
          intro heq
          obtain ⟨content, rest, -, -, hnil⟩ := fill_cons_ok hstop heq.symm
          cases hnil
        rw [List.nil_append]
        refine iff_of_false hne ?_
        simpa using hstop
  | cons x xs ih =>
    by_cases hstop : number ≤ 0 ∨ chars ≤ 0
    · rw [fill_stop hstop, fill_stop hstop]
      refine iff_of_true rfl (.inr ?_)
      rcases hstop with hnumber | hchars
      · exact .inl (by omega)
      · exact .inr (.inr (by omega))
    · rw [List.cons_append]
      cases hcontent : shortened lib cfg x.content with
      | error e =>
        rw [fill_cons_error hstop hcontent, fill_cons_error hstop hcontent]
        exact iff_of_true rfl (.inr (.inr (.inl ⟨x, List.mem_cons_self, e, hcontent⟩)))
      | ok content =>
        have hlength := @length_sliceTo content chars (by omega)
        have hsize : size lib cfg x = content.length := by rw [size, hcontent]
        have hraises : (∃ f ∈ x :: xs, Raises lib cfg f) ↔ ∃ f ∈ xs, Raises lib cfg f := by
          have hx : ¬Raises lib cfg x := by
            rintro ⟨e, he⟩
            rw [hcontent] at he
            cases he
          simp [hx]
        rw [fill_cons hstop hcontent, fill_cons hstop hcontent,
          Except.map_inj (List.cons_injective), ih, hraises, List.length_cons, List.map_cons,
          List.sum_cons, hsize]
        refine or_congr Iff.rfl (or_congr ?_ (or_congr Iff.rfl ?_)) <;> omega

/-- Cutting the evidence first changes nothing: with deduplication on, the evidence that is kept has no
repetitions, or what is cut off repeats it, or the section is complete, or raises, before the cut is come
to. -/
def EvidenceKept (lib : JsonLibrary) (casing : CaseMapping) (cfg : CompilerConfig) (repr : Json → String)
    (evidence : List Evidence) : Prop :=
  let sorted := (sortedEvidence evidence).map (evidenceFragment repr)
  let top := sorted.take cfg.maxFragments.toNat
  cfg.enableDedup = false ∨ (top.map fun f => normalize casing f.content).Nodup ∨
    (∀ f ∈ sorted.drop cfg.maxFragments.toNat, ∃ g ∈ top,
      normalize casing g.content = normalize casing f.content) ∨
    (∃ f ∈ sources casing cfg [] top, Raises lib cfg f) ∨
      cfg.maxCharacters ≤ (((sources casing cfg [] top).map (size lib cfg)).sum : Nat)

theorem sources_eq_nil (hdedup : cfg.enableDedup = true) {top rest : List ContextFragment} :
    sources casing cfg ((top.map fun f => normalize casing f.content) ++ []) rest = [] ↔
      ∀ f ∈ rest, ∃ g ∈ top, normalize casing g.content = normalize casing f.content := by
  rw [sources, if_pos hdedup, firsts_eq_nil]
  simp only [List.append_nil, List.mem_map]

/-- The number of fragments is used up by what is kept exactly when it has no repetitions, unless nothing
is cut off. -/
theorem count_used_iff (hdedup : cfg.enableDedup = true) {number : Int} {sorted : List ContextFragment} :
    (sorted.drop number.toNat = [] ∨
        number ≤ ((sources casing cfg [] (sorted.take number.toNat)).length : Nat)) ↔
      (sorted.drop number.toNat = [] ∨
        ((sorted.take number.toNat).map fun f => normalize casing f.content).Nodup) := by
  rw [sources, if_pos hdedup]
  by_cases hdrop : sorted.drop number.toNat = []
  · exact iff_of_true (.inl hdrop) (.inl hdrop)
  · rw [or_iff_right hdrop, or_iff_right hdrop]
    rw [List.drop_eq_nil_iff, not_le] at hdrop
    have hlength : (sorted.take number.toNat).length = number.toNat := by
      rw [List.length_take]
      omega
    have hsub := @firsts_sublist _ _ _ (fun f => normalize casing f.content) [] (sorted.take number.toNat)
    constructor
    · intro hused
      by_cases hpos : number ≤ 0
      · rw [Int.toNat_of_nonpos hpos]
        exact List.nodup_nil
      · refine firsts_eq_self.mp (hsub.eq_of_length ?_)
        have := hsub.length_le
        omega
    · intro hn
      rw [firsts_eq_self.mpr hn, hlength]
      exact Int.self_le_toNat number

theorem evidence_kept_iff (stateTokens : Option (Finset String)) (evidence : List Evidence) :
    evidenceFragments lib casing cfg repr stateTokens evidence =
        evidenceFragmentsOfAll lib casing cfg repr stateTokens evidence ↔
      EvidenceKept lib casing cfg repr evidence := by
  unfold evidenceFragments evidenceFragmentsOfAll EvidenceKept nlargest
  rw [budgetFragments_eq_fill, budgetFragments_eq_fill, List.map_take]
  simp only [if_true, Option.getD_none]
  generalize (sortedEvidence evidence).map (evidenceFragment repr) = sorted
  have hsplit : sources casing cfg [] sorted =
      sources casing cfg [] (sorted.take cfg.maxFragments.toNat) ++
        sources casing cfg (((sorted.take cfg.maxFragments.toNat).map fun f =>
          normalize casing f.content) ++ []) (sorted.drop cfg.maxFragments.toNat) := by
    rw [← sources_append, List.take_append_drop]
  rw [hsplit, fill_append_iff]
  cases hdedup : cfg.enableDedup with
  | false =>
    refine iff_of_true ?_ (.inl rfl)
    by_cases hdrop : sorted.drop cfg.maxFragments.toNat = []
    · refine .inl ?_
      rw [sources, if_neg (by rw [hdedup]; exact Bool.false_ne_true)]
      exact hdrop
    · refine .inr (.inl ?_)
      rw [List.drop_eq_nil_iff, not_le] at hdrop
      rw [sources, if_neg (by rw [hdedup]; exact Bool.false_ne_true), List.length_take]
      omega
  | true =>
    rw [sources_eq_nil hdedup]
    have hcount := @count_used_iff casing cfg hdedup cfg.maxFragments sorted
    have hnone : sorted.drop cfg.maxFragments.toNat = [] →
        ∀ f ∈ sorted.drop cfg.maxFragments.toNat, ∃ g ∈ sorted.take cfg.maxFragments.toNat,
          normalize casing g.content = normalize casing f.content := by
      intro hdrop f hf
      rw [hdrop] at hf
      cases hf
    simp only [Bool.true_eq_false, false_or]
    constructor
    · rintro (h | h | h)
      · exact .inr (.inl h)
      · rcases hcount.mp (.inr h) with h | h
        · exact .inr (.inl (hnone h))
        · exact .inl h
      · exact .inr (.inr h)
    · rintro (h | h | h)
      · rcases hcount.mpr (.inr h) with h | h
        · exact .inl (hnone h)
        · exact .inr (.inl h)
      · exact .inl h
      · exact .inr (.inr h)

/-! ## Memories -/

variable {stateTokens : Option (Finset String)} {memories : List MemoryRecord}

/-- **What is selected of a ranked list**: what repeats nothing before it, and has less before it than the
limits. -/
theorem mem_within_sources {ranked : List ContextFragment}
    (hp : ranked.Pairwise fun f g => rank casing stateTokens f < rank casing stateTokens g)
    {f : ContextFragment} (hf : f ∈ ranked) {number chars : Int} :
    f ∈ within (size lib cfg) number chars (sources casing cfg [] ranked) ↔
      (cfg.enableDedup = true → ∀ d ∈ ranked, rank casing stateTokens d < rank casing stateTokens f →
        normalize casing d.content ≠ normalize casing f.content) ∧
      (((sources casing cfg [] (ranked.filter fun d => rank casing stateTokens d < rank casing stateTokens f)).length
        : Nat) : Int) < number ∧
      ((((sources casing cfg [] (ranked.filter fun d =>
        rank casing stateTokens d < rank casing stateTokens f)).map (size lib cfg)).sum : Nat) : Int) < chars := by
  obtain ⟨before, after, rfl⟩ := List.append_of_mem hf
  obtain ⟨-, hrest, hcross⟩ := List.pairwise_append.mp hp
  have hafter := (List.pairwise_cons.mp hrest).1
  have hbefore : ∀ d ∈ before, rank casing stateTokens d < rank casing stateTokens f :=
    fun d hd => hcross d hd f List.mem_cons_self
  have hfilter : (before ++ f :: after).filter
      (fun d => rank casing stateTokens d < rank casing stateTokens f) = before := by
    rw [List.filter_append, List.filter_cons_of_neg (by simp), List.filter_eq_self.mpr, List.filter_eq_nil_iff.mpr,
      List.append_nil]
    · intro d hd
      simpa using (hafter d hd).le
    · intro d hd
      simpa using hbefore d hd
  have hmem : ∀ d, d ∈ before ++ f :: after → rank casing stateTokens d < rank casing stateTokens f →
      d ∈ before := by
    intro d hd hlt
    rw [← hfilter]
    exact List.mem_filter.mpr ⟨hd, by simpa using hlt⟩
  have hn : (before ++ f :: after).Nodup := hp.imp fun hlt heq => (heq ▸ hlt).false
  rw [hfilter, sources_append, sources_cons]
  by_cases hdup : cfg.enableDedup = true ∧
    normalize casing f.content ∈ (before.map fun f => normalize casing f.content) ++ []
  · -- a fragment before it has its content
    obtain ⟨hdedup, hseen⟩ := hdup
    have hskip : (cfg.enableDedup && decide (normalize casing f.content ∈
        (before.map fun f => normalize casing f.content) ++ [])) = true := by
      rw [hdedup, decide_eq_true hseen]
      rfl
    rw [if_pos hskip]
    refine iff_of_false (fun hin => ?_) (fun hright => ?_)
    · have hsub : f ∈ before ++ after := by
        refine List.mem_append.mpr ?_
        have hin := (within_initial _ _ _).subset hin
        rcases List.mem_append.mp hin with hin | hin
        · exact .inl ((sources_sublist before).subset hin)
        · refine .inr ?_
          rw [sources, if_pos hdedup] at hin
          exact (firsts_sublist _ after).subset hin
      rcases List.mem_append.mp hsub with hin | hin
      · exact absurd (hbefore f hin) (lt_irrefl _)
      · exact absurd (hafter f hin) (lt_irrefl _)
    · rw [List.append_nil, List.mem_map] at hseen
      obtain ⟨d, hd, hnorm⟩ := hseen
      exact hright.1 hdedup d (List.mem_append.mpr (.inl hd)) (hbefore d hd) hnorm
  · have htaken : ¬(cfg.enableDedup && decide (normalize casing f.content ∈
        (before.map fun f => normalize casing f.content) ++ [])) = true := by
      rw [Bool.and_eq_true, decide_eq_true_eq]
      exact hdup
    rw [if_neg htaken]
    have hsub := @sources_sublist casing cfg (before ++ f :: after)
    rw [sources_append, sources_cons, if_neg htaken] at hsub
    rw [mem_within (hn.sublist hsub), iff_and_self]
    intro _ hdedup d hd hlt hnorm
    refine hdup ⟨hdedup, ?_⟩
    rw [List.append_nil, ← hnorm]
    exact List.mem_map_of_mem (hmem d hd hlt)

def Kept (selected : List ContextFragment) (r : MemoryRecord) : Prop :=
  (memoryFragment r).key ∈ selected.map ContextFragment.key

def SameContent (casing : CaseMapping) (r d : MemoryRecord) : Prop :=
  normalize casing (memoryFragment d).content = normalize casing (memoryFragment r).content

/-- A record that is left out of the section, and repeats nothing in it, has no higher confidence than one
of the same relevance that is in it. -/
def KeepsBest (casing : CaseMapping) (cfg : CompilerConfig) (stateTokens : Option (Finset String))
    (memories : List MemoryRecord) (selected : List ContextFragment) : Prop :=
  ∀ s ∈ memories, ∀ r ∈ memories, Kept selected s → ¬Kept selected r →
    ¬(cfg.enableDedup = true ∧ ∃ d ∈ memories, Kept selected d ∧ SameContent casing r d) →
      relevanceIn casing stateTokens (memoryFragment s) = relevanceIn casing stateTokens (memoryFragment r) →
        r.confidence ≤ s.confidence

def rankedBefore (casing : CaseMapping) (cfg : CompilerConfig) (stateTokens : Option (Finset String))
    (memories : List MemoryRecord) (r : MemoryRecord) : List ContextFragment :=
  sources casing cfg [] ((ranked casing stateTokens (memories.map memoryFragment)).filter fun d =>
    rank casing stateTokens d < rank casing stateTokens (memoryFragment r))

/-- The record fits: it repeats none that ranks before it, and those that do are fewer than the limit, and
of fewer characters. -/
def FitsBudget (lib : JsonLibrary) (casing : CaseMapping) (cfg : CompilerConfig)
    (stateTokens : Option (Finset String)) (memories : List MemoryRecord) (r : MemoryRecord) : Prop :=
  (cfg.enableDedup = true → ∀ d ∈ memories,
      rank casing stateTokens (memoryFragment d) < rank casing stateTokens (memoryFragment r) →
        ¬SameContent casing r d) ∧
    (((rankedBefore casing cfg stateTokens memories r).length : Nat) : Int) < cfg.maxMemoryFragments ∧
      ((((rankedBefore casing cfg stateTokens memories r).map (size lib cfg)).sum : Nat) : Int) <
        cfg.maxMemoryCharacters

/-- Of two records of one relevance, where the later by its id has the higher confidence, the earlier does
not fit, or the later fits too or repeats one that does. -/
def CutInOrder (lib : JsonLibrary) (casing : CaseMapping) (cfg : CompilerConfig)
    (stateTokens : Option (Finset String)) (memories : List MemoryRecord) : Prop :=
  ∀ s ∈ memories, ∀ r ∈ memories,
    relevanceIn casing stateTokens (memoryFragment s) = relevanceIn casing stateTokens (memoryFragment r) →
      (memoryFragment s).key < (memoryFragment r).key → s.confidence < r.confidence →
        FitsBudget lib casing cfg stateTokens memories s →
          FitsBudget lib casing cfg stateTokens memories r ∨
            cfg.enableDedup = true ∧ ∃ d ∈ memories,
              FitsBudget lib casing cfg stateTokens memories d ∧ SameContent casing r d

theorem nodup_memoryKeys (h : (memories.map MemoryRecord.id).Nodup) :
    ((memories.map memoryFragment).map ContextFragment.key).Nodup := by
  have hprefix : Function.Injective ("memory." ++ · : String → String) := by
    intro a b hab
    have hlist := congrArg String.toList hab
    simp only [String.toList_append] at hlist
    exact String.toList_inj.mp (List.append_cancel_left hlist)
  rw [List.map_map]
  have hmap : memories.map (ContextFragment.key ∘ memoryFragment) =
      (memories.map MemoryRecord.id).map ("memory." ++ ·) := by
    rw [List.map_map]
    rfl
  rw [hmap]
  exact h.map hprefix

/-- The memories are ranked from whatever order they come in. -/
theorem memoryFragments_eq_fill
    (hids : (memories.map MemoryRecord.id).Nodup) :
    memoryFragments lib casing cfg stateTokens memories =
      fill lib cfg cfg.maxMemoryFragments cfg.maxMemoryCharacters
        (sources casing cfg [] (ranked casing stateTokens (memories.map memoryFragment))) := by
  have hperm : (memories.map memoryFragment).Perm
      ((memories.insertionSort fun a b => memoryKey b ≤ memoryKey a).map memoryFragment) :=
    ((List.perm_insertionSort _ memories).map memoryFragment).symm
  rw [memoryFragments, budgetFragments_eq_fill, ranked_congr stateTokens hperm (nodup_memoryKeys hids)]
  rfl

theorem kept_iff_fits
    {selected : List ContextFragment} (hids : (memories.map MemoryRecord.id).Nodup)
    (h : memoryFragments lib casing cfg stateTokens memories = .ok selected) {r : MemoryRecord}
    (hr : r ∈ memories) :
    Kept selected r ↔ FitsBudget lib casing cfg stateTokens memories r := by
  have hkeys := nodup_memoryKeys hids
  rw [memoryFragments_eq_fill hids] at h
  have hranked := @ranked_perm casing stateTokens (memories.map memoryFragment)
  have hin : memoryFragment r ∈ ranked casing stateTokens (memories.map memoryFragment) :=
    hranked.mem_iff.mpr (List.mem_map_of_mem hr)
  have hinj := List.inj_on_of_nodup_map ((hranked.map ContextFragment.key).nodup_iff.mpr hkeys)
  have hwithin : Kept selected r ↔ memoryFragment r ∈ within (size lib cfg) cfg.maxMemoryFragments
      cfg.maxMemoryCharacters (sources casing cfg [] (ranked casing stateTokens
        (memories.map memoryFragment))) := by
    rw [Kept, fill_keys h, List.mem_map]
    constructor
    · rintro ⟨f, hf, hkey⟩
      have hf' := (sources_sublist _).subset ((within_initial _ _ _).subset hf)
      rwa [← hinj hf' hin hkey]
    · exact fun hf => ⟨_, hf, rfl⟩
  rw [hwithin, mem_within_sources (ranked_pairwise stateTokens hkeys) hin, FitsBudget]
  refine and_congr (imp_congr Iff.rfl ?_) Iff.rfl
  constructor
  · intro hfirst d hd
    exact hfirst _ (hranked.mem_iff.mpr (List.mem_map_of_mem hd))
  · intro hfirst f hf
    obtain ⟨d, hd, rfl⟩ := List.mem_map.mp (hranked.mem_iff.mp hf)
    exact hfirst d hd

/-- A record that is not kept repeats one that is, or ranks behind all that are. -/
theorem behind_of_not_kept
    {selected : List ContextFragment} (hids : (memories.map MemoryRecord.id).Nodup)
    (h : memoryFragments lib casing cfg stateTokens memories = .ok selected) {r : MemoryRecord}
    (hr : r ∈ memories) (hout : ¬Kept selected r) :
    (cfg.enableDedup = true ∧ ∃ d ∈ memories, Kept selected d ∧ SameContent casing r d) ∨
      ∀ s ∈ memories, Kept selected s →
        rank casing stateTokens (memoryFragment s) < rank casing stateTokens (memoryFragment r) := by
  have hkeys := nodup_memoryKeys hids
  rw [memoryFragments_eq_fill hids] at h
  obtain ⟨chosen, hsub, hchosen, -, hleft⟩ := (fill_selects hkeys h).chosen
  have hkept : ∀ d ∈ memories, Kept selected d ↔ memoryFragment d ∈ chosen := by
    intro d hd
    rw [Kept, hchosen, List.mem_map]
    constructor
    · rintro ⟨f, hf, hkey⟩
      rwa [← List.inj_on_of_nodup_map hkeys (hsub f hf) (List.mem_map_of_mem hd) hkey]
    · exact fun hf => ⟨_, hf, rfl⟩
  rcases hleft _ (List.mem_map_of_mem hr) ((hkept r hr).not.mp hout) with ⟨hdedup, c, hc, hnorm⟩ | hbehind
  · obtain ⟨d, hd, rfl⟩ := List.mem_map.mp (hsub c hc)
    exact .inl ⟨hdedup, d, hd, (hkept d hd).mpr hc, hnorm⟩
  · exact .inr fun s hs hks => hbehind _ ((hkept s hs).mp hks)

theorem keepsBest_iff
    {selected : List ContextFragment} (hids : (memories.map MemoryRecord.id).Nodup)
    (h : memoryFragments lib casing cfg stateTokens memories = .ok selected) :
    KeepsBest casing cfg stateTokens memories selected ↔
      CutInOrder lib casing cfg stateTokens memories := by
  have hfits := fun {r} => kept_iff_fits (r := r) hids h
  constructor
  · intro hbest s hs r hr hrelevance _ hconfidence hfit
    by_contra hnot
    rw [not_or] at hnot
    refine absurd (hbest s hs r hr ((hfits hs).mpr hfit) ?_ ?_ hrelevance) (not_le.mpr hconfidence)
    · rw [hfits hr]
      exact hnot.1
    · rintro ⟨hdedup, d, hd, hkept, hsame⟩
      exact hnot.2 ⟨hdedup, d, hd, (hfits hd).mp hkept, hsame⟩
  · intro hcut s hs r hr hkept hout hrepeat hrelevance
    by_contra hconfidence
    have hbehind := (behind_of_not_kept hids h hr hout).resolve_left hrepeat s hs hkept
    have hkey : (memoryFragment s).key < (memoryFragment r).key := by
      rcases rank_le_iff.mp hbehind.le with hlt | ⟨-, hlt | ⟨-, hle⟩⟩
      · exact absurd hlt (lt_irrefl _)
      · exact absurd hrelevance hlt.ne'
      · refine lt_of_le_of_ne hle fun heq => hout ?_
        rw [Kept, ← heq]
        exact hkept
    rcases hcut s hs r hr hrelevance hkey (not_le.mp hconfidence) ((hfits hs).mp hkept) with
      hfit | ⟨hdedup, d, hd, hfit, hsame⟩
    · exact hout ((hfits hr).mpr hfit)
    · exact hrepeat ⟨hdedup, d, hd, (hfits hd).mpr hfit, hsame⟩

/-! ## Main result -/

/-- **Which sections keep the best items.** The cut before the repetitions are passed over changes nothing
exactly when the evidence is kept in full; and the memories that are left out are none of the best exactly
when the budget runs out in the order of confidence. -/
theorem sections_keep_best (stateTokens : Option (Finset String)) (evidence : List Evidence)
    {memories : List MemoryRecord} (hids : (memories.map MemoryRecord.id).Nodup) :
    (evidenceFragments lib casing cfg repr stateTokens evidence =
        evidenceFragmentsOfAll lib casing cfg repr stateTokens evidence ↔
      EvidenceKept lib casing cfg repr evidence) ∧
    ∀ selected, memoryFragments lib casing cfg stateTokens memories = .ok selected →
      (KeepsBest casing cfg stateTokens memories selected ↔
        CutInOrder lib casing cfg stateTokens memories) :=
  ⟨evidence_kept_iff repr stateTokens evidence, fun _ h => keepsBest_iff hids h⟩

end Sections

/-! ## Three reports and two notes -/

def readyReport (id : EvidenceId) (ready : Bool) (observedAt : Instant) : Evidence where
  sessionId := "session-1"
  taskId := "task-1"
  actionId := "action-1"
  observationId := "observation-1"
  subject := "pod"
  claim := "ready"
  value := .bool ready
  source := "tool:kubectl"
  confidence := 1
  id := id
  observedAt := observedAt
  domainName := "local"
  domainVersion := "1"
  postInit := by decide +kernel

/-- `repr` of a truth value. -/
def reprBool (v : Json) : String := if v = .bool true then "True" else "False"

def note (id : MemoryId) (certain : Bool) : MemoryRecord where
  kind := .semantic
  subject := "pod"
  content := if certain then "restart" else "drain"
  scope := ""
  confidence := if certain then 1 else 1 / 2
  sourceSessionId := none
  id := id
  createdAt := ⟨2026, 1, 1, 0, DateTime.newYear_isDate, DateTime.midnight_isTime⟩
  version := 1
  tags := []
  source := ""
  metadata := []
  confidence_bounded := by cases certain <;> decide +kernel
  subject_given := by decide
  content_given := by cases certain <;> decide

def oneMemory : CompilerConfig := { maxFragments := 2, maxMemoryFragments := 1, enableDedup := true }

theorem sections_keep_best_two :
    evidenceFragments withoutJson asciiCase oneMemory reprBool none
        [readyReport "evidence-1" true 2, readyReport "evidence-2" false 1] =
      evidenceFragmentsOfAll withoutJson asciiCase oneMemory reprBool none
        [readyReport "evidence-1" true 2, readyReport "evidence-2" false 1] ∧
      KeepsBest asciiCase oneMemory none [note "a" true, note "b" false]
        [⟨"memory.a", "semantic pod: restart", 40⟩] := by
  have hmemories : memoryFragments withoutJson asciiCase oneMemory none [note "a" true, note "b" false] =
      .ok [⟨"memory.a", "semantic pod: restart", 40⟩] := by decide +kernel
  obtain ⟨hevidence, hbest⟩ := @sections_keep_best withoutJson asciiCase oneMemory reprBool
    none [readyReport "evidence-1" true 2, readyReport "evidence-2" false 1]
    [note "a" true, note "b" false] (by decide)
  refine ⟨hevidence.mpr (.inr (.inl (by decide +kernel))), (hbest _ hmemories).mpr ?_⟩
  intro s hs r hr _ hkey hconfidence
  simp only [List.mem_cons, List.not_mem_nil, or_false] at hs hr
  rcases hs with rfl | rfl <;> rcases hr with rfl | rfl
  · exact absurd hkey (by decide)
  · exact absurd hconfidence (by decide +kernel)
  · exact absurd hkey (by decide)
  · exact absurd hkey (by decide)

/-- A repeated report takes the place of another, and the note whose id comes first that of a better one. -/
theorem best_not_kept :
    evidenceFragments withoutJson asciiCase oneMemory reprBool none
        [readyReport "evidence-1" true 3, readyReport "evidence-2" true 2,
          readyReport "evidence-3" false 1] ≠
      evidenceFragmentsOfAll withoutJson asciiCase oneMemory reprBool none
        [readyReport "evidence-1" true 3, readyReport "evidence-2" true 2,
          readyReport "evidence-3" false 1] ∧
      memoryFragments withoutJson asciiCase oneMemory none [note "a" false, note "b" true] =
        .ok [⟨"memory.a", "semantic pod: drain", 40⟩] ∧
      ¬KeepsBest asciiCase oneMemory none [note "a" false, note "b" true]
        [⟨"memory.a", "semantic pod: drain", 40⟩] := by
  refine ⟨by decide +kernel, by decide +kernel, fun hbest => ?_⟩
  have hle := hbest (note "a" false) List.mem_cons_self (note "b" true) (by simp) (by unfold Kept; decide)
    (by unfold Kept; decide) ?_ rfl
  · exact absurd hle (by decide +kernel)
  · rintro ⟨-, d, hd, hkept, hsame⟩
    simp only [List.mem_cons, List.not_mem_nil, or_false] at hd
    rcases hd with rfl | rfl
    · exact absurd hsame (by unfold SameContent; decide +kernel)
    · exact absurd hkept (by unfold Kept; decide)

end UniversalAgent.Context
