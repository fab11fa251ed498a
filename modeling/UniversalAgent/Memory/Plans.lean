import UniversalAgent.Memory.Additions

/-!
# Memory — Plans

Reading the plan of a pass off the records of the snapshot: when it is empty, and when the records that
are merged belong to the same place.
-/

namespace UniversalAgent.Memory

open UniversalAgent.Core UniversalAgent.Foundation

def OfOnePlace (entry : List MemoryRecord) : Prop := ∀ a ∈ entry, ∀ b ∈ entry, a.home = b.home

/-! ## Duplicates -/

section Plans

variable {C : MemoryConsolidator} {records : List MemoryRecord}

/-- The duplicates among records of which none was seen. -/
theorem lookup_seen (seen : List ((String × String) × MemoryRecord)) (a b : MemoryRecord) :
    ((a.claim, a) :: seen).lookup b.claim =
      if a.claim = b.claim then some a else seen.lookup b.claim := by
  rw [List.lookup_cons]
  by_cases h : a.claim = b.claim
  · simp [h]
  · have hne : (b.claim == a.claim) = false := by simpa using Ne.symm h
    rw [hne, if_neg h]

theorem exactPairs_eq_nil (seen : List ((String × String) × MemoryRecord)) :
    exactPairs seen records = [] ↔
      (∀ r ∈ records, seen.lookup r.claim = none) ∧
        records.Pairwise fun a b => a.claim ≠ b.claim := by
  induction records generalizing seen with
  | nil => simp [exactPairs]
  | cons record records ih =>
    rw [exactPairs, List.forall_mem_cons, List.pairwise_cons]
    cases hseen : seen.lookup record.claim with
    | some existing => simp
    | none =>
      dsimp only
      rw [ih]
      constructor
      · rintro ⟨hnew, hpair⟩
        refine ⟨⟨rfl, fun r hr => ?_⟩, fun r hr he => ?_, hpair⟩
        · have h := hnew r hr
          rw [lookup_seen] at h
          split_ifs at h
          exact h
        · have h := hnew r hr
          rw [lookup_seen, if_pos he] at h
          cases h
      · rintro ⟨⟨-, hnone⟩, hne, hpair⟩
        refine ⟨fun r hr => ?_, hpair⟩
        rw [lookup_seen, if_neg (hne r hr), hnone r hr]

/-- Each duplicate belongs where the record it is merged with does, exactly when all records that say
the same belong to the same place. -/
theorem exactPairs_home (seen : List ((String × String) × MemoryRecord)) :
    (∀ pair ∈ exactPairs seen records, pair.1.home = pair.2.home) ↔
      (∀ r ∈ records, ∀ existing, seen.lookup r.claim = some existing → existing.home = r.home) ∧
        records.Pairwise fun a b => a.claim = b.claim → a.home = b.home := by
  induction records generalizing seen with
  | nil => simp [exactPairs]
  | cons record records ih =>
    rw [exactPairs, List.forall_mem_cons, List.pairwise_cons]
    cases hseen : seen.lookup record.claim with
    | some existing =>
      rw [List.forall_mem_cons, ih]
      constructor
      · rintro ⟨hhome, hrest, hpair⟩
        refine ⟨⟨fun e he => Option.some.inj he ▸ hhome, hrest⟩, fun r hr hclaim => ?_, hpair⟩
        exact hhome.symm.trans (hrest r hr existing (hclaim ▸ hseen))
      · rintro ⟨⟨hhome, hrest⟩, -, hpair⟩
        exact ⟨hhome existing rfl, hrest, hpair⟩
    | none =>
      dsimp only
      rw [ih]
      constructor
      · rintro ⟨hrest, hpair⟩
        refine ⟨⟨by rintro e ⟨⟩, fun r hr e he => ?_⟩, fun r hr hclaim => ?_, hpair⟩
        · have hne : record.claim ≠ r.claim := by
            intro hclaim
            rw [← hclaim, hseen] at he
            cases he
          exact hrest r hr e (by rw [lookup_seen, if_neg hne, he])
        · exact hrest r hr record (by rw [lookup_seen, if_pos hclaim])
      · rintro ⟨⟨_, hrest⟩, hhome, hpair⟩
        refine ⟨fun r hr e he => ?_, hpair⟩
        rw [lookup_seen] at he
        split_ifs at he with hclaim
        · exact Option.some.inj he ▸ hhome r hr hclaim
        · exact hrest r hr e he

variable {pair : MemoryRecord × MemoryRecord} {origins rest : List MemoryRecord} {group : List MemoryRecord}

theorem mem_exactPairs {seen : List ((String × String) × MemoryRecord)}
    (known : List MemoryRecord)
    (hseen : ∀ claim r, seen.lookup claim = some r → r.claim = claim ∧ r ∈ known)
    (h : pair ∈ exactPairs seen records) :
    pair.1 ∈ known ++ records ∧ pair.2 ∈ records ∧ pair.1.claim = pair.2.claim := by
  induction records generalizing seen known with
  | nil => cases h
  | cons record records ih =>
    have happend : known ++ [record] ++ records = known ++ record :: records := by simp
    rw [exactPairs] at h
    cases hlookup : seen.lookup record.claim with
    | some existing =>
      rw [hlookup] at h
      rcases List.mem_cons.mp h with rfl | h
      · obtain ⟨hclaim, hknown⟩ := hseen _ _ hlookup
        exact ⟨List.mem_append_left _ hknown, List.mem_cons_self, hclaim⟩
      · obtain ⟨hleft, hright, hclaim⟩ := ih known hseen h
        refine ⟨?_, List.mem_cons_of_mem _ hright, hclaim⟩
        exact (List.mem_append.mp hleft).elim (List.mem_append_left _) fun hr =>
          List.mem_append_right _ (List.mem_cons_of_mem _ hr)
    | none =>
      rw [hlookup] at h
      have hseen' : ∀ claim r, ((record.claim, record) :: seen).lookup claim = some r →
          r.claim = claim ∧ r ∈ known ++ [record] := by
        intro claim r hr
        rw [List.lookup_cons] at hr
        split at hr
        · rename_i he
          obtain rfl := Option.some.inj hr
          exact ⟨(by simpa using he : claim = record.claim).symm, by simp⟩
        · obtain ⟨hclaim, hknown⟩ := hseen _ _ hr
          exact ⟨hclaim, List.mem_append_left _ hknown⟩
      obtain ⟨hleft, hright, hclaim⟩ := ih (known ++ [record]) hseen' h
      exact ⟨happend ▸ hleft, List.mem_cons_of_mem _ hright, hclaim⟩

/-! ## Fuzzy matches -/

theorem mem_extractMatches {content : String} {candidates : List MemoryRecord}
    {m : MemoryRecord × ℚ} (h : m ∈ extractMatches C content candidates) : m.1 ∈ candidates := by
  have h := List.mem_of_mem_filter ((List.mem_insertionSort _).mp (List.mem_of_mem_take h))
  obtain ⟨r, hr, rfl⟩ := List.mem_map.mp h
  exact hr

theorem extractMatches_eq_nil {content : String} {candidates : List MemoryRecord} :
    extractMatches C content candidates = [] ↔
      ∀ r ∈ candidates, C.similarity content r.content < C.scoreCutoff := by
  have htake : ∀ found : List (MemoryRecord × ℚ), found.take 5 = [] ↔ found = [] := by
    intro found
    cases found <;> simp
  have hsort : ∀ found : List (MemoryRecord × ℚ),
      (found.insertionSort fun a b => b.2 ≤ a.2) = [] ↔ found = [] := by
    intro found
    rw [← List.length_eq_zero_iff, List.length_insertionSort, List.length_eq_zero_iff]
  rw [extractMatches, htake, hsort, List.filter_eq_nil_iff]
  simp

theorem mem_matchedPairs {record : MemoryRecord} {processed : List MemoryId}
    {found : List (MemoryRecord × ℚ)}
    (h : pair ∈ (matchedPairs record processed found).1) :
    pair.1 = record ∧ pair.2 ∈ found.map Prod.fst := by
  induction found generalizing processed with
  | nil => cases h
  | cons m rest ih =>
    obtain ⟨candidate, score⟩ := m
    rw [matchedPairs] at h
    split_ifs at h
    · exact ⟨(ih h).1, List.mem_cons_of_mem _ (ih h).2⟩
    · rcases List.mem_cons.mp h with rfl | h
      · exact ⟨rfl, List.mem_cons_self⟩
      · exact ⟨(ih h).1, List.mem_cons_of_mem _ (ih h).2⟩

theorem mem_fuzzyPairs {processed : List MemoryId}
    (h : pair ∈ fuzzyPairs C processed records) :
    pair.1 ∈ records ∧ pair.2 ∈ records ∧ pair.1.kind = pair.2.kind ∧
      pair.1.subject = pair.2.subject := by
  induction records generalizing processed with
  | nil => cases h
  | cons record later ih =>
    have hlater : ∀ {processed}, pair ∈ fuzzyPairs C processed later →
        pair.1 ∈ record :: later ∧ pair.2 ∈ record :: later ∧ pair.1.kind = pair.2.kind ∧
          pair.1.subject = pair.2.subject := by
      intro processed h
      obtain ⟨hleft, hright, hsame⟩ := ih h
      exact ⟨List.mem_cons_of_mem _ hleft, List.mem_cons_of_mem _ hright, hsame⟩
    rw [fuzzyPairs] at h
    split_ifs at h
    · exact hlater h
    · rcases List.mem_append.mp h with h | h
      · obtain ⟨hleft, hright⟩ := mem_matchedPairs h
        obtain ⟨m, hm, hfound⟩ := List.mem_map.mp hright
        have hcandidate := List.mem_filter.mp (mem_extractMatches hm)
        rw [hfound] at hcandidate
        obtain ⟨hmem, hsame⟩ := hcandidate
        obtain ⟨-, hkind, hsubject, -⟩ := of_decide_eq_true hsame
        refine ⟨hleft ▸ List.mem_cons_self, List.mem_cons_of_mem _ hmem, ?_, ?_⟩
        · rw [hleft, hkind]
        · rw [hleft, hsubject]
      · exact hlater h

theorem matchedPairs_eq_nil {record : MemoryRecord} {found : List (MemoryRecord × ℚ)} :
    (matchedPairs record [] found).1 = [] ↔ found = [] := by
  cases found with
  | nil => simp [matchedPairs]
  | cons m rest => simp [matchedPairs]

theorem fuzzyPairs_eq_nil :
    fuzzyPairs C [] records = [] ↔
      records.Pairwise fun a b => b.kind = a.kind → b.subject = a.subject →
        b.content ≠ a.content → C.similarity a.content b.content < C.scoreCutoff := by
  induction records with
  | nil => simp [fuzzyPairs]
  | cons record later ih =>
    rw [fuzzyPairs, if_neg List.not_mem_nil, List.pairwise_cons, List.append_eq_nil_iff,
      matchedPairs_eq_nil, extractMatches_eq_nil]
    constructor
    · rintro ⟨hnone, hlater⟩
      have hfound : extractMatches C record.content (fuzzyCandidates record [] later) = [] :=
        extractMatches_eq_nil.mpr hnone
      rw [hfound] at hlater
      refine ⟨fun r hr hkind hsubject hcontent => hnone r ?_, ih.mp hlater⟩
      exact List.mem_filter.mpr ⟨hr, decide_eq_true ⟨List.not_mem_nil, hkind, hsubject, hcontent⟩⟩
    · rintro ⟨hnone, hlater⟩
      have hbelow : ∀ r ∈ fuzzyCandidates record [] later,
          C.similarity record.content r.content < C.scoreCutoff := by
        intro r hr
        obtain ⟨hr, hsame⟩ := List.mem_filter.mp hr
        obtain ⟨-, hkind, hsubject, hcontent⟩ := of_decide_eq_true hsame
        exact hnone r hr hkind hsubject hcontent
      refine ⟨hbelow, ?_⟩
      rw [extractMatches_eq_nil.mpr hbelow]
      exact ih.mpr hlater

/-! ## Related records -/

theorem chainPlan_eq_nil : chainPlan origins rest = [] ↔ rest = [] := by
  cases rest <;> simp [chainPlan]

theorem mem_chainPlan {origins rest entry : List MemoryRecord} (h : entry ∈ chainPlan origins rest) :
    ∀ r ∈ entry, r ∈ origins ++ rest := by
  induction rest generalizing origins with
  | nil => cases h
  | cons secondary rest ih =>
    rw [chainPlan] at h
    intro r hr
    rcases List.mem_cons.mp h with rfl | h
    · rcases List.mem_append.mp hr with hr | hr
      · exact List.mem_append_left _ hr
      · rw [List.mem_singleton.mp hr]
        exact List.mem_append_right _ List.mem_cons_self
    · simpa using ih h r hr

/-- Each of the rest is an origin together with the first ones. -/
theorem exists_chainPlan {r : MemoryRecord} (h : r ∈ rest) :
    ∃ entry ∈ chainPlan origins rest, r ∈ entry ∧ ∀ o ∈ origins, o ∈ entry := by
  induction rest generalizing origins with
  | nil => cases h
  | cons secondary rest ih =>
    rw [chainPlan]
    rcases List.mem_cons.mp h with rfl | h
    · exact ⟨_, List.mem_cons_self, by simp, fun o ho => List.mem_append_left _ ho⟩
    · obtain ⟨entry, hentry, hr, horigins⟩ := ih h
      exact ⟨entry, List.mem_cons_of_mem _ hentry, hr,
        fun o ho => horigins o (List.mem_append_left _ ho)⟩

theorem byConfidence_perm (group : List MemoryRecord) : (byConfidence group).Perm group :=
  List.perm_insertionSort _ _

theorem byVersion_perm (group : List MemoryRecord) : (byVersion group).Perm group :=
  List.perm_insertionSort _ _

theorem mem_groupPlan {group entry : List MemoryRecord} (h : entry ∈ groupPlan group) :
    ∀ r ∈ entry, r ∈ group := by
  intro r hr
  rw [groupPlan] at h
  cases hsort : byConfidence group with
  | nil =>
    rw [hsort] at h
    cases h
  | cons primary rest =>
    rw [hsort] at h
    refine (byConfidence_perm group).mem_iff.mp ?_
    rw [hsort]
    rcases List.mem_append.mp (mem_chainPlan h r hr) with hr | hr
    · rw [List.mem_singleton.mp hr]
      exact List.mem_cons_self
    · exact List.mem_cons_of_mem _ (List.mem_of_mem_filter hr)

/-- Of a group with different contents nothing is merged exactly when no two of it are sure enough. -/
theorem groupPlan_eq_nil
    (hcontents : group.Pairwise fun a b => a.content ≠ b.content) :
    groupPlan group = [] ↔
      group.Pairwise fun a b => a.confidence < lowConfidence ∨ b.confidence < lowConfidence := by
  have hunsure := (byConfidence_perm group).pairwise_iff
    (R := fun a b => a.confidence < lowConfidence ∨ b.confidence < lowConfidence)
    fun h => h.symm
  have hdifferent := ((byConfidence_perm group).pairwise_iff
    (R := fun a b => a.content ≠ b.content) fun h => h.symm).mpr hcontents
  rw [← hunsure, groupPlan]
  cases hsort : byConfidence group with
  | nil => simp
  | cons primary rest =>
    rw [hsort, List.pairwise_cons] at hdifferent
    have hmost := le_head_of_byConfidence hsort
    dsimp only
    rw [chainPlan_eq_nil, mergeable, List.filter_eq_nil_iff, List.pairwise_cons]
    constructor
    · intro hnone
      have hlow : ∀ r ∈ rest, r.confidence < lowConfidence := by
        intro r hr
        by_contra hsure
        exact hnone r hr (decide_eq_true ⟨not_lt.mp hsure, (hdifferent.1 r hr).symm⟩)
      refine ⟨fun r hr => .inr (hlow r hr), ?_⟩
      exact (List.pairwise_of_forall fun _ _ => trivial).imp_of_mem fun ha _ _ => .inl (hlow _ ha)
    · rintro ⟨hpair, -⟩ r hr hsure
      obtain ⟨hsure, -⟩ := of_decide_eq_true hsure
      rcases hpair r hr with hlow | hlow
      · exact absurd ((hmost r hr).trans_lt hlow) hsure.not_gt
      · exact absurd hlow hsure.not_gt

theorem relatedPlan_eq_nil (hclaims : records.Pairwise fun a b => a.claim ≠ b.claim) :
    relatedPlan records = [] ↔
      records.Pairwise fun a b => a.subject = b.subject →
        a.confidence < lowConfidence ∨ b.confidence < lowConfidence := by
  have hgroups := groupBy_forall MemoryRecord.subject records
    (P := fun group => groupPlan group = []) (by simp [groupPlan, byConfidence])
  rw [relatedPlan, List.flatMap_eq_nil_iff, hgroups, ← pairwise_filter_iff]
  refine forall_congr' fun subject => groupPlan_eq_nil ?_
  refine (hclaims.filter _).imp_of_mem fun ha hb hne hcontent => hne ?_
  have ha := of_decide_eq_true (List.mem_filter.mp ha).2
  have hb := of_decide_eq_true (List.mem_filter.mp hb).2
  exact Prod.ext (ha.trans hb.symm) hcontent

/-! ## Versions -/

theorem mem_staleVersions {old : MemoryRecord} (h : old ∈ staleVersions group) : old ∈ group := by
  rw [staleVersions] at h
  cases hsort : byVersion group with
  | nil =>
    rw [hsort] at h
    cases h
  | cons latest rest =>
    rw [hsort] at h
    refine (byVersion_perm group).mem_iff.mp ?_
    rw [hsort]
    exact List.mem_cons_of_mem _ (List.mem_of_mem_filter h)

theorem staleVersions_eq_nil (h : group.length ≤ 1) : staleVersions group = [] := by
  rw [staleVersions]
  cases hsort : byVersion group with
  | nil => rfl
  | cons latest rest =>
    have hlen := (byVersion_perm group).length_eq
    rw [hsort, List.length_cons] at hlen
    have hrest : rest = [] := List.eq_nil_of_length_eq_zero (by omega)
    rw [hrest]
    rfl

theorem versionPlan_eq_nil (hclaims : records.Pairwise fun a b => a.claim ≠ b.claim) :
    versionPlan records = [] := by
  have hgroups := groupBy_forall MemoryRecord.claim records
    (P := fun group => staleVersions group = []) (staleVersions_eq_nil (Nat.zero_le _))
  have halone := (pairwise_filter_iff (R := fun _ _ => False)).mpr hclaims
  rw [versionPlan, List.flatMap_eq_nil_iff]
  intro group hg
  rw [hgroups.mpr (fun claim => ?_) group hg]
  · rfl
  · refine staleVersions_eq_nil ?_
    have hpair := halone claim
    generalize records.filter (fun r => r.claim = claim) = found at hpair ⊢
    cases hpair with
    | nil => exact Nat.zero_le _
    | @cons a rest hnone =>
      have hrest : rest = [] := List.eq_nil_iff_forall_not_mem.mpr hnone
      rw [hrest]
      exact le_rfl

/-! ## The plan of the first four stages -/

/-- There is nothing to do: no two records say the same, no two match, and of no subject are two
sure. -/
structure Settled (C : MemoryConsolidator) (records : List MemoryRecord) : Prop where
  claims : records.Pairwise fun a b => a.claim ≠ b.claim
  unlike : records.Pairwise fun a b => b.kind = a.kind → b.subject = a.subject →
    b.content ≠ a.content → C.similarity a.content b.content < C.scoreCutoff
  unsure : records.Pairwise fun a b => a.subject = b.subject →
    a.confidence < lowConfidence ∨ b.confidence < lowConfidence

theorem stagesPlan_eq_nil : stagesPlan C records = [] ↔ Settled C records := by
  have hexact := @exactPairs_eq_nil records []
  simp only [List.lookup_nil, implies_true, true_and] at hexact
  simp only [stagesPlan, List.append_eq_nil_iff, pairPlan, List.map_eq_nil_iff, hexact,
    fuzzyPairs_eq_nil]
  constructor
  · rintro ⟨⟨⟨hclaims, hunlike⟩, hrelated⟩, -⟩
    exact ⟨hclaims, hunlike, (relatedPlan_eq_nil hclaims).mp hrelated⟩
  · intro h
    exact ⟨⟨⟨h.claims, h.unlike⟩, (relatedPlan_eq_nil h.claims).mpr h.unsure⟩,
      versionPlan_eq_nil h.claims⟩

/-- Records are made of records of the snapshot, with the same subject. -/
theorem mem_stagesPlan {entry : List MemoryRecord} (h : entry ∈ stagesPlan C records) :
    (∀ r ∈ entry, r ∈ records) ∧ ∀ a ∈ entry, ∀ b ∈ entry, a.subject = b.subject := by
  have hpair : ∀ pair : MemoryRecord × MemoryRecord, pair.1 ∈ records → pair.2 ∈ records →
      pair.1.subject = pair.2.subject → entry = [pair.1, pair.2] →
      (∀ r ∈ entry, r ∈ records) ∧ ∀ a ∈ entry, ∀ b ∈ entry, a.subject = b.subject := by
    rintro pair hleft hright hsubject rfl
    constructor
    · intro r hr
      rcases List.mem_pair.mp hr with rfl | rfl
      · exact hleft
      · exact hright
    · intro a ha b hb
      rcases List.mem_pair.mp ha with rfl | rfl <;> rcases List.mem_pair.mp hb with rfl | rfl <;>
        simp [hsubject]
  have hgroup : ∀ group : List MemoryRecord, ∀ subject, group = records.filter (fun r =>
      r.subject = subject) → (∀ r ∈ entry, r ∈ group) →
      (∀ r ∈ entry, r ∈ records) ∧ ∀ a ∈ entry, ∀ b ∈ entry, a.subject = b.subject := by
    rintro group subject rfl hmem
    have hof : ∀ r ∈ entry, r.subject = subject := fun r hr =>
      of_decide_eq_true (List.mem_filter.mp (hmem r hr)).2
    exact ⟨fun r hr => List.mem_of_mem_filter (hmem r hr),
      fun a ha b hb => (hof a ha).trans (hof b hb).symm⟩
  simp only [stagesPlan, List.mem_append, pairPlan, List.mem_map] at h
  rcases h with ((⟨pair, hp, rfl⟩ | ⟨pair, hp, rfl⟩) | h) | h
  · obtain ⟨hleft, hright, hclaim⟩ := mem_exactPairs [] (fun _ _ hs => by cases hs) hp
    exact hpair pair hleft hright (congrArg Prod.fst hclaim) rfl
  · obtain ⟨hleft, hright, -, hsubject⟩ := mem_fuzzyPairs hp
    exact hpair pair hleft hright hsubject rfl
  · obtain ⟨⟨subject, group⟩, hg, hentry⟩ := List.mem_flatMap.mp h
    exact hgroup group subject (mem_groupBy.mp hg).2 (mem_groupPlan hentry)
  · obtain ⟨⟨claim, group⟩, hg, hentry⟩ := List.mem_flatMap.mp h
    obtain ⟨old, hold, rfl⟩ := List.mem_map.mp hentry
    have hmem := mem_staleVersions hold
    rw [(mem_groupBy.mp hg).2] at hmem
    have hrecord : old ∈ records := List.mem_of_mem_filter hmem
    exact ⟨by simpa using hrecord, by simp⟩

/-- What is merged belongs to the same place: records that say the same, those that match, and those of
a subject that are sure with the surest. -/
structure HomesAgree (C : MemoryConsolidator) (records : List MemoryRecord) : Prop where
  exact : records.Pairwise fun a b => a.claim = b.claim → a.home = b.home
  fuzzy : ∀ pair ∈ fuzzyPairs C [] records, pair.1.scope = pair.2.scope
  related : ∀ subject primary rest,
    byConfidence (records.filter fun r => r.subject = subject) = primary :: rest →
      ∀ r ∈ rest, lowConfidence ≤ r.confidence → r.content ≠ primary.content →
        r.home = primary.home

theorem ofOnePlace_pairPlan {pairs : List (MemoryRecord × MemoryRecord)} :
    (∀ entry ∈ pairPlan pairs, OfOnePlace entry) ↔ ∀ pair ∈ pairs, pair.1.home = pair.2.home := by
  simp only [pairPlan, List.forall_mem_map, OfOnePlace]
  refine forall₂_congr fun pair _ => ?_
  constructor
  · exact fun h => h pair.1 (by simp) pair.2 (by simp)
  · intro h a ha b hb
    rcases List.mem_pair.mp ha with rfl | rfl <;> rcases List.mem_pair.mp hb with rfl | rfl <;>
      simp [h]

theorem ofOnePlace_groupPlan :
    (∀ entry ∈ groupPlan group, OfOnePlace entry) ↔
      ∀ primary rest, byConfidence group = primary :: rest →
        ∀ r ∈ rest, lowConfidence ≤ r.confidence → r.content ≠ primary.content →
          r.home = primary.home := by
  rw [groupPlan]
  cases hsort : byConfidence group with
  | nil => simp
  | cons primary rest =>
    constructor
    · intro h primary' rest' heq r hr hsure hcontent
      obtain ⟨rfl, rfl⟩ := List.cons.inj heq
      have hmem : r ∈ mergeable primary rest :=
        List.mem_filter.mpr ⟨hr, decide_eq_true ⟨hsure, hcontent⟩⟩
      obtain ⟨entry, hentry, hr, hprimary⟩ := exists_chainPlan hmem
      exact h entry hentry r hr primary (hprimary primary List.mem_cons_self)
    · intro h entry hentry
      have hhome : ∀ r ∈ entry, r.home = primary.home := by
        intro r hr
        rcases List.mem_append.mp (mem_chainPlan hentry r hr) with hr | hr
        · rw [List.mem_singleton.mp hr]
        · obtain ⟨hr, hsure⟩ := List.mem_filter.mp hr
          obtain ⟨hsure, hcontent⟩ := of_decide_eq_true hsure
          exact h primary rest rfl r hr hsure hcontent
      exact fun a ha b hb => (hhome a ha).trans (hhome b hb).symm

theorem stagesPlan_home : (∀ entry ∈ stagesPlan C records, OfOnePlace entry) ↔ HomesAgree C records := by
  have hexact := @exactPairs_home records []
  simp only [List.lookup_nil, reduceCtorEq, false_imp_iff, implies_true, true_and] at hexact
  have hfuzzy : (∀ pair ∈ fuzzyPairs C [] records, pair.1.home = pair.2.home) ↔
      ∀ pair ∈ fuzzyPairs C [] records, pair.1.scope = pair.2.scope := by
    refine forall₂_congr fun pair hp => ?_
    obtain ⟨-, -, hkind, -⟩ := mem_fuzzyPairs hp
    exact ⟨congrArg Prod.snd, fun hscope => Prod.ext hkind hscope⟩
  have hrelated : (∀ entry ∈ relatedPlan records, OfOnePlace entry) ↔
      ∀ subject, ∀ entry ∈ groupPlan (records.filter fun r => r.subject = subject),
        OfOnePlace entry := by
    rw [← groupBy_forall MemoryRecord.subject records
      (P := fun group => ∀ entry ∈ groupPlan group, OfOnePlace entry)
      (by simp [groupPlan, byConfidence])]
    simp only [relatedPlan, List.mem_flatMap]
    constructor
    · exact fun h group hg entry hentry => h entry ⟨group, hg, hentry⟩
    · rintro h entry ⟨group, hg, hentry⟩
      exact h group hg entry hentry
  have hversion : ∀ entry ∈ versionPlan records, OfOnePlace entry := by
    intro entry hentry
    obtain ⟨group, -, hentry⟩ := List.mem_flatMap.mp hentry
    obtain ⟨old, -, rfl⟩ := List.mem_map.mp hentry
    intro a ha b hb
    rw [List.mem_singleton.mp ha, List.mem_singleton.mp hb]
  simp only [stagesPlan, List.forall_mem_append, ofOnePlace_pairPlan, hexact, hfuzzy, hrelated,
    ofOnePlace_groupPlan]
  constructor
  · rintro ⟨⟨⟨hexact, hfuzzy⟩, hrelated⟩, -⟩
    exact ⟨hexact, hfuzzy, hrelated⟩
  · intro h
    exact ⟨⟨⟨h.exact, h.fuzzy⟩, h.related⟩, hversion⟩

end Plans

end UniversalAgent.Memory
