import UniversalAgent.Memory.Consolidator

/-!
# Memory — Additions

What a pass adds, stage by stage. What each stage makes new records of is settled by the snapshot
alone: a plan, which says for each record that is added what it is made of. A stage adds as many records
as its plan has entries, and gives as many actions. A record that is added is a copy, in kind, subject,
content and scope, of one that it was made of.
-/

namespace UniversalAgent.Memory

open UniversalAgent.Core UniversalAgent.Foundation

/-! ## Performing a plan -/

def MemoryRecord.claim (r : MemoryRecord) : String × String := (r.subject, r.content)

def MemoryRecord.home (r : MemoryRecord) : MemoryKind × String := (r.kind, r.scope)

def SameClaim (a b : MemoryRecord) : Prop := a.claim = b.claim ∧ a.home = b.home

theorem SameClaim.refl (r : MemoryRecord) : SameClaim r r := ⟨rfl, rfl⟩

theorem SameClaim.trans {a b c : MemoryRecord} (hab : SameClaim a b) (hbc : SameClaim b c) :
    SameClaim a c := ⟨hab.1.trans hbc.1, hab.2.trans hbc.2⟩

def Addition.Copies (x : Addition) : Prop := ∃ r ∈ x.origins, SameClaim x.record r

def Fresh (w : Draws) (p : Pass) : Prop :=
  Function.Injective w.newMemoryId ∧
    ∀ n, p.drawn ≤ n → w.newMemoryId n ∉ p.store.records.map MemoryRecord.id

/-- Some records were added, made of what the plan says, one action for each. -/
def Adds (w : Draws) (plan : List (List MemoryRecord)) (p : Pass)
    (actions : List ConsolidationAction) (p' : Pass) : Prop :=
  ∃ added : List Addition,
    p'.additions = p.additions ++ added ∧ added.map Addition.origins = plan ∧
      actions.length = added.length ∧ (∀ x ∈ added, x.Copies) ∧
      (Fresh w p → Fresh w p' ∧ p'.store.records = p.store.records ++ added.map Addition.record)

def Performs (w : Draws) (plan : List (List MemoryRecord)) (p : Pass)
    (actions : List ConsolidationAction) (p' : Pass) : Prop :=
  Adds w plan p actions p' ∧ (plan = [] → p' = p)

section Performing

variable {w : Draws} {p p' p'' : Pass} {plan plan' : List (List MemoryRecord)}
variable {actions actions' : List ConsolidationAction}

theorem Adds.append (h : Adds w plan p actions p') (h' : Adds w plan' p' actions' p'') :
    Adds w (plan ++ plan') p (actions ++ actions') p'' := by
  obtain ⟨added, hadd, hplan, hlen, hcopies, hfresh⟩ := h
  obtain ⟨added', hadd', hplan', hlen', hcopies', hfresh'⟩ := h'
  refine ⟨added ++ added', ?_, ?_, ?_, ?_, ?_⟩
  · rw [hadd', hadd, List.append_assoc]
  · rw [List.map_append, hplan, hplan']
  · rw [List.length_append, List.length_append, hlen, hlen']
  · intro x hx
    exact (List.mem_append.mp hx).elim (hcopies x) (hcopies' x)
  · intro hp
    obtain ⟨hp', hstore⟩ := hfresh hp
    obtain ⟨hp'', hstore'⟩ := hfresh' hp'
    exact ⟨hp'', by rw [hstore', hstore, List.map_append, List.append_assoc]⟩

/-- Reading the clock changes nothing about what is added. -/
theorem Adds.of_readings {readings : Nat}
    (h : Adds w plan { p with readings := readings } actions p') : Adds w plan p actions p' := h

theorem Adds.length (h : Adds w plan p actions p') : actions.length = plan.length := by
  obtain ⟨added, -, hplan, hlen, -⟩ := h
  rw [hlen, ← hplan, List.length_map]

theorem Performs.nil : Performs w [] p [] p :=
  ⟨⟨[], by simp, rfl, rfl, fun _ hx => (List.not_mem_nil hx).elim, fun h => ⟨h, by simp⟩⟩,
    fun _ => rfl⟩

theorem Performs.append (h : Performs w plan p actions p')
    (h' : Performs w plan' p' actions' p'') :
    Performs w (plan ++ plan') p (actions ++ actions') p'' := by
  refine ⟨h.1.append h'.1, fun hnil => ?_⟩
  obtain ⟨hnil, hnil'⟩ := List.append_eq_nil_iff.mp hnil
  rw [h'.2 hnil', h.2 hnil]

theorem Performs.cons {origins : List MemoryRecord} {action : ConsolidationAction}
    (h : Performs w [origins] p [action] p') (h' : Performs w plan p' actions p'') :
    Performs w (origins :: plan) p (action :: actions) p'' := h.append h'

/-- One record is added, with the id that was drawn for it. -/
theorem Performs.one {record : MemoryRecord} {origins : List MemoryRecord}
    {action : ConsolidationAction} {readings : Nat} (hid : record.id = w.newMemoryId p.drawn)
    (hcopies : ∃ r ∈ origins, SameClaim record r) :
    Performs w [origins] p [action]
      ({ p with drawn := p.drawn + 1, readings := readings }.addRecord record origins) := by
  refine ⟨⟨[⟨record, origins⟩], rfl, rfl, rfl, ?_, ?_⟩, by simp⟩
  · intro x hx
    rw [List.mem_singleton.mp hx]
    exact hcopies
  · rintro ⟨hinj, hnew⟩
    have hid' : record.id ∉ p.store.records.map MemoryRecord.id := hid ▸ hnew p.drawn le_rfl
    have hstore := InMemoryMemoryStore.add_fresh hid'
    refine ⟨⟨hinj, fun n hn => ?_⟩, hstore⟩
    rw [Pass.addRecord, hstore, List.map_append, List.mem_append, List.map_singleton,
      List.mem_singleton, hid]
    rintro (hmem | heq)
    · exact hnew n (Nat.le_of_succ_le hn) hmem
    · rw [hinj heq] at hn
      exact absurd hn (Nat.not_succ_le_self _)

theorem primaryOf_mem (a b : MemoryRecord) : primaryOf a b = a ∨ primaryOf a b = b := by
  unfold primaryOf
  split_ifs
  · exact .inr rfl
  · exact .inl rfl

theorem mergeRecords_sameClaim (C : MemoryConsolidator) (a b : MemoryRecord) :
    SameClaim (mergeRecords C w a b p).1 (primaryOf a b) := ⟨rfl, rfl⟩

variable {C : MemoryConsolidator}

theorem merge_performs {a b : MemoryRecord} {origins : List MemoryRecord}
    {action : ConsolidationAction} (h : ∃ r ∈ origins, SameClaim (primaryOf a b) r) :
    Performs w [origins] p [action]
      ((mergeRecords C w a b p).2.addRecord (mergeRecords C w a b p).1 origins) := by
  obtain ⟨r, hr, hsame⟩ := h
  exact Performs.one rfl ⟨r, hr, (mergeRecords_sameClaim C a b).trans hsame⟩

theorem archive_performs {old : MemoryRecord} {version : Int} {metadata : JsonMapping}
    {action : ConsolidationAction} :
    Performs w [[old]] p [action]
      ((archivedCopy w old version metadata p).2.addRecord
        (archivedCopy w old version metadata p).1 [old]) :=
  Performs.one rfl ⟨old, List.mem_singleton_self old, rfl, rfl⟩

end Performing

/-! ## The plans -/

def pairPlan (pairs : List (MemoryRecord × MemoryRecord)) : List (List MemoryRecord) :=
  pairs.map fun pair => [pair.1, pair.2]

def exactPairs : List ((String × String) × MemoryRecord) → List MemoryRecord →
    List (MemoryRecord × MemoryRecord)
  | _, [] => []
  | seen, record :: records =>
    match seen.lookup record.claim with
    | some existing => (existing, record) :: exactPairs seen records
    | none => exactPairs ((record.claim, record) :: seen) records

section Plans

variable (C : MemoryConsolidator)

/-- The matches of a record that are not processed yet, and the ids processed after them. -/
def matchedPairs (record : MemoryRecord) : List MemoryId → List (MemoryRecord × ℚ) →
    List (MemoryRecord × MemoryRecord) × List MemoryId
  | processed, [] => ([], processed)
  | processed, (candidate, _) :: rest =>
    if candidate.id ∈ processed then matchedPairs record processed rest
    else
      let later := matchedPairs record (candidate.id :: processed) rest
      ((record, candidate) :: later.1, later.2)

/-- The fuzzy matches: of each record in turn that is not matched yet, up to five later ones of its kind
and subject that are not. -/
def fuzzyPairs : List MemoryId → List MemoryRecord → List (MemoryRecord × MemoryRecord)
  | _, [] => []
  | processed, record :: later =>
    if record.id ∈ processed then fuzzyPairs processed later
    else
      let matched := matchedPairs record processed
        (extractMatches C record.content (fuzzyCandidates record processed later))
      matched.1 ++ fuzzyPairs matched.2 later

end Plans

def mergeable (primary : MemoryRecord) (rest : List MemoryRecord) : List MemoryRecord :=
  rest.filter fun r => lowConfidence ≤ r.confidence ∧ r.content ≠ primary.content

def chainPlan : List MemoryRecord → List MemoryRecord → List (List MemoryRecord)
  | _, [] => []
  | origins, secondary :: rest =>
    (origins ++ [secondary]) :: chainPlan (origins ++ [secondary]) rest

def groupPlan (group : List MemoryRecord) : List (List MemoryRecord) :=
  match byConfidence group with
  | [] => []
  | primary :: rest => chainPlan [primary] (mergeable primary rest)

def relatedPlan (records : List MemoryRecord) : List (List MemoryRecord) :=
  (groupBy MemoryRecord.subject records).flatMap fun group => groupPlan group.2

def staleVersions (group : List MemoryRecord) : List MemoryRecord :=
  match byVersion group with
  | [] => []
  | latest :: rest => rest.filter fun old => old.version < latest.version

def versionPlan (records : List MemoryRecord) : List (List MemoryRecord) :=
  (groupBy MemoryRecord.claim records).flatMap fun group =>
    (staleVersions group.2).map fun old => [old]

def staleRecords (cutoff : DateTime) (records : List MemoryRecord) : List MemoryRecord :=
  records.filter fun r => r.createdAt < cutoff ∧ r.confidence < 1 / 2

def archivePlan (cutoff : DateTime) (records : List MemoryRecord) : List (List MemoryRecord) :=
  (staleRecords cutoff records).map fun old => [old]

def stagesPlan (C : MemoryConsolidator) (records : List MemoryRecord) : List (List MemoryRecord) :=
  pairPlan (exactPairs [] records) ++ pairPlan (fuzzyPairs C [] records) ++ relatedPlan records ++
    versionPlan records

/-! ## The stages perform their plans -/

section Stages

variable {C : MemoryConsolidator} {w : Draws}

theorem pair_copies (a b : MemoryRecord) : ∃ r ∈ [a, b], SameClaim (primaryOf a b) r := by
  refine ⟨primaryOf a b, ?_, SameClaim.refl _⟩
  rcases primaryOf_mem a b with h | h <;> simp [h]

theorem deduplicateExact_performs (seen : List ((String × String) × MemoryRecord))
    (records : List MemoryRecord) (p : Pass) :
    Performs w (pairPlan (exactPairs seen records)) p (deduplicateExact C w seen records p).1
      (deduplicateExact C w seen records p).2 := by
  induction records generalizing seen p with
  | nil => exact Performs.nil
  | cons record records ih =>
    rw [deduplicateExact, exactPairs]
    cases hseen : seen.lookup (record.subject, record.content) with
    | some existing =>
      rw [show seen.lookup record.claim = some existing from hseen]
      exact (merge_performs (pair_copies existing record)).cons (ih _ _)
    | none =>
      rw [show seen.lookup record.claim = none from hseen]
      exact ih _ _

theorem mergeMatches_performs (record : MemoryRecord) (processed : List MemoryId)
    (found : List (MemoryRecord × ℚ)) (p : Pass) :
    Performs w (pairPlan (matchedPairs record processed found).1) p
        (mergeMatches C w record processed found p).1
        (mergeMatches C w record processed found p).2.2 ∧
      (mergeMatches C w record processed found p).2.1 =
        (matchedPairs record processed found).2 := by
  induction found generalizing processed p with
  | nil => exact ⟨Performs.nil, rfl⟩
  | cons m rest ih =>
    obtain ⟨candidate, score⟩ := m
    rw [mergeMatches, matchedPairs]
    split_ifs with hdone
    · exact ih processed p
    · obtain ⟨hperforms, hprocessed⟩ := ih (candidate.id :: processed)
        ((mergeRecords C w record candidate p).2.addRecord
          (mergeRecords C w record candidate p).1 [record, candidate])
      exact ⟨(merge_performs (pair_copies record candidate)).cons hperforms, hprocessed⟩

theorem deduplicateFuzzy_performs (processed : List MemoryId) (records : List MemoryRecord)
    (p : Pass) :
    Performs w (pairPlan (fuzzyPairs C processed records)) p
      (deduplicateFuzzy C w processed records p).1
      (deduplicateFuzzy C w processed records p).2 := by
  induction records generalizing processed p with
  | nil => exact Performs.nil
  | cons record later ih =>
    rw [deduplicateFuzzy, fuzzyPairs]
    split_ifs with hdone
    · exact ih processed p
    · obtain ⟨hperforms, hprocessed⟩ := mergeMatches_performs (C := C) (w := w) record processed
        (extractMatches C record.content (fuzzyCandidates record processed later)) p
      have hlater := hperforms.append (ih (matchedPairs record processed
        (extractMatches C record.content (fuzzyCandidates record processed later))).2 _)
      rw [pairPlan, List.map_append]
      dsimp only
      rw [hprocessed]
      exact hlater

/-- A chain merges into a record that says what the first of its group says, and that none of the rest
is more confident than. -/
theorem mergeChain_performs {subject : String} {count : Nat} {first : MemoryRecord}
    {rest : List MemoryRecord} (primary : MemoryRecord) (origins : List MemoryRecord) (p : Pass)
    (hfirst : first ∈ origins) (hsame : SameClaim primary first)
    (hmost : ∀ r ∈ rest, r.confidence ≤ primary.confidence) :
    Performs w (chainPlan origins (mergeable first rest)) p
      (mergeChain C w subject count primary origins rest p).1
      (mergeChain C w subject count primary origins rest p).2 := by
  induction rest generalizing primary origins p with
  | nil => exact Performs.nil
  | cons secondary rest ih =>
    have hcontent : primary.content = first.content := congrArg Prod.snd hsame.1
    have hlater : ∀ r ∈ rest, r.confidence ≤ primary.confidence := fun r hr =>
      hmost r (List.mem_cons_of_mem _ hr)
    rw [mergeChain, mergeable]
    by_cases hlow : secondary.confidence < lowConfidence
    · rw [if_pos hlow, List.filter_cons_of_neg (by simp [hlow])]
      exact ih primary origins p hfirst hsame hlater
    · by_cases heq : secondary.content = primary.content
      · rw [if_neg hlow, if_pos heq,
          List.filter_cons_of_neg (by simp [heq, hcontent])]
        exact ih primary origins p hfirst hsame hlater
      · rw [if_neg hlow, if_neg heq, List.filter_cons_of_pos (by
          simpa [hcontent ▸ heq] using hlow), chainPlan]
        have hle := hmost secondary List.mem_cons_self
        have hprimary : primaryOf primary secondary = primary := if_neg hle.not_gt
        have hkept : SameClaim (primaryOf primary secondary) first := by rwa [hprimary]
        have hmerged : SameClaim (mergeRecords C w primary secondary p).1 first :=
          (mergeRecords_sameClaim C primary secondary).trans hkept
        refine (merge_performs ⟨first, List.mem_append_left _ hfirst, hkept⟩).cons
          (ih _ _ _ (List.mem_append_left _ hfirst) hmerged fun r hr => ?_)
        exact (hlater r hr).trans (le_max_left _ _)

theorem le_head_of_byConfidence {group rest : List MemoryRecord} {primary : MemoryRecord}
    (h : byConfidence group = primary :: rest) : ∀ r ∈ rest, r.confidence ≤ primary.confidence := by
  have htotal : Std.Total fun a b : MemoryRecord => b.confidence ≤ a.confidence :=
    ⟨fun a b => le_total b.confidence a.confidence⟩
  have htrans : IsTrans MemoryRecord fun a b => b.confidence ≤ a.confidence :=
    ⟨fun _ _ _ hab hbc => hbc.trans hab⟩
  have hsorted := List.pairwise_insertionSort
    (fun a b : MemoryRecord => b.confidence ≤ a.confidence) group
  rw [← byConfidence, h, List.pairwise_cons] at hsorted
  exact hsorted.1

theorem mergeGroups_performs (groups : List (String × List MemoryRecord)) (p : Pass) :
    Performs w (groups.flatMap fun group => groupPlan group.2) p (mergeGroups C w groups p).1
      (mergeGroups C w groups p).2 := by
  induction groups generalizing p with
  | nil => exact Performs.nil
  | cons g groups ih =>
    obtain ⟨subject, group⟩ := g
    rw [mergeGroups, List.flatMap_cons]
    refine Performs.append ?_ (ih _)
    rw [groupPlan]
    cases hsort : byConfidence group with
    | nil =>
      dsimp only
      split_ifs <;> exact Performs.nil
    | cons primary rest =>
      dsimp only
      split_ifs with hlen
      · -- a group of one has nothing to merge
        have hcount : (byConfidence group).length = group.length := List.length_insertionSort _ group
        rw [hsort, List.length_cons] at hcount
        have hrest : rest = [] := List.eq_nil_of_length_eq_zero (by omega)
        rw [hrest]
        exact Performs.nil
      · exact mergeChain_performs primary [primary] p (List.mem_singleton_self _)
          (SameClaim.refl _) (le_head_of_byConfidence hsort)

theorem mergeRelated_performs (records : List MemoryRecord) (p : Pass) :
    Performs w (relatedPlan records) p (mergeRelated C w records p).1
      (mergeRelated C w records p).2 := mergeGroups_performs _ p

theorem archiveVersions_performs (latest : MemoryRecord) (rest : List MemoryRecord) (p : Pass) :
    Performs w ((rest.filter fun old => old.version < latest.version).map fun old => [old]) p
      (archiveVersions w latest rest p).1 (archiveVersions w latest rest p).2 := by
  induction rest generalizing p with
  | nil => exact Performs.nil
  | cons old rest ih =>
    rw [archiveVersions]
    split_ifs with hle
    · rw [List.filter_cons_of_neg (by simpa using hle)]
      exact ih p
    · rw [List.filter_cons_of_pos (by simpa using hle), List.map_cons]
      exact archive_performs.cons (ih _)

theorem resolveGroups_performs (groups : List ((String × String) × List MemoryRecord)) (p : Pass) :
    Performs w (groups.flatMap fun group => (staleVersions group.2).map fun old => [old]) p
      (resolveGroups w groups p).1 (resolveGroups w groups p).2 := by
  induction groups generalizing p with
  | nil => exact Performs.nil
  | cons g groups ih =>
    obtain ⟨key, group⟩ := g
    rw [resolveGroups, List.flatMap_cons]
    refine Performs.append ?_ (ih _)
    rw [staleVersions]
    cases hsort : byVersion group with
    | nil =>
      dsimp only
      split_ifs <;> exact Performs.nil
    | cons latest rest =>
      dsimp only
      split_ifs with hlen
      · have hcount : (byVersion group).length = group.length := List.length_insertionSort _ group
        rw [hsort, List.length_cons] at hcount
        have hrest : rest = [] := List.eq_nil_of_length_eq_zero (by omega)
        rw [hrest]
        exact Performs.nil
      · exact archiveVersions_performs latest rest p

theorem resolveVersionConflicts_performs (records : List MemoryRecord) (p : Pass) :
    Performs w (versionPlan records) p (resolveVersionConflicts w records p).1
      (resolveVersionConflicts w records p).2 := resolveGroups_performs _ p

theorem archiveBefore_performs (cutoff : DateTime) (records : List MemoryRecord) (p : Pass) :
    Performs w (archivePlan cutoff records) p (archiveBefore C w cutoff records p).1
      (archiveBefore C w cutoff records p).2 := by
  induction records generalizing p with
  | nil => exact Performs.nil
  | cons record records ih =>
    rw [archiveBefore, archivePlan, staleRecords]
    split_ifs with hold
    · rw [List.filter_cons_of_pos (by simpa using hold), List.map_cons]
      exact Performs.cons ⟨archive_performs.1.of_readings, by simp⟩ (ih _)
    · rw [List.filter_cons_of_neg (by simpa using hold)]
      exact ih p

end Stages

end UniversalAgent.Memory
