import UniversalAgent.Memory.Plans

/-!
# Memory — Consolidation

Consolidating once should be enough, and a record should stay where it belongs. Whether it is so can be
read off the plan of a pass. A pass that adds a record is never the last one, since the record that is
added says what another says; so it is enough only where there is nothing to do. And records stay where
they belong exactly where those that are merged belong to the same place.
-/

namespace UniversalAgent.Memory

open UniversalAgent.Core UniversalAgent.Foundation

/-! ## A pass as a whole -/

section Pass

variable (C : MemoryConsolidator) (w : Draws)

variable {C w} in
theorem archiveOld_none {records : List MemoryRecord} {p : Pass}
    (h : archiveCutoff w p.readings = none) :
    archiveOld C w records p =
      (.error "day is out of range for month", { p with readings := p.readings + 2 }) := by
  rw [archiveOld, h]

variable {C w} in
theorem archiveOld_some {records : List MemoryRecord} {p : Pass} {cutoff : DateTime}
    (h : archiveCutoff w p.readings = some cutoff) :
    archiveOld C w records p =
      (.ok (archiveBefore C w cutoff records { p with readings := p.readings + 2 }).1,
        (archiveBefore C w cutoff records { p with readings := p.readings + 2 }).2) := by
  rw [archiveOld, h]

/-- A pass performs the plan of its first stages, and then that of the last, if there is a cutoff. -/
theorem consolidate_performs (scope : String) (store : InMemoryMemoryStore) :
    ∃ actions p, Performs w (stagesPlan C (inScope scope store.exported)) { store := store } actions p ∧
      ((archiveCutoff w p.readings = none ∧ consolidate C w scope store =
          (.error "day is out of range for month", { p with readings := p.readings + 2 })) ∨
        ∃ cutoff archive p' result, archiveCutoff w p.readings = some cutoff ∧
          Performs w (archivePlan cutoff (inScope scope store.exported))
            { p with readings := p.readings + 2 } archive p' ∧
          consolidate C w scope store = (.ok result, p') ∧ result.actions = actions ++ archive ∧
          result.actionsApplied = result.actions.length) := by
  unfold consolidate
  dsimp only
  generalize inScope scope store.exported = records
  have hexact := deduplicateExact_performs (C := C) (w := w) [] records { store := store }
  generalize deduplicateExact C w [] records { store := store } = exact at hexact ⊢
  have hfuzzy := deduplicateFuzzy_performs (C := C) (w := w) [] records exact.2
  generalize deduplicateFuzzy C w [] records exact.2 = fuzzy at hfuzzy ⊢
  have hmerged := mergeRelated_performs (C := C) (w := w) records fuzzy.2
  generalize mergeRelated C w records fuzzy.2 = merged at hmerged ⊢
  have hconflicts := resolveVersionConflicts_performs (w := w) records merged.2
  generalize resolveVersionConflicts w records merged.2 = conflicts at hconflicts ⊢
  refine ⟨_, _, ((hexact.append hfuzzy).append hmerged).append hconflicts, ?_⟩
  cases hcutoff : archiveCutoff w conflicts.2.readings with
  | none => exact .inl ⟨rfl, by rw [archiveOld_none hcutoff]⟩
  | some cutoff =>
    have hold := archiveBefore_performs (C := C) (w := w) cutoff records
      { conflicts.2 with readings := conflicts.2.readings + 2 }
    rw [archiveOld_some hcutoff]
    exact .inr ⟨cutoff, _, _, _, rfl, hold, rfl, rfl, rfl⟩

end Pass

/-! ## Once is enough -/

def MemoryRecord.Current (r : MemoryRecord) : Prop := "archived" ∉ r.tags

/-- For each kind, scope, subject and content there is at most one record that is not archived. -/
def OnePerCombination (records : List MemoryRecord) : Prop :=
  ∀ a ∈ records, ∀ b ∈ records, a.Current → b.Current → a.kind = b.kind → a.scope = b.scope →
    a.subject = b.subject → a.content = b.content → a = b

/-- A pass returns, leaves one current record for each combination, and a second pass has nothing to
do. -/
def Converges (C : MemoryConsolidator) (w w' : Draws) (scope : String)
    (store : InMemoryMemoryStore) : Prop :=
  ∃ result p, consolidate C w scope store = (.ok result, p) ∧
    (∃ again p', consolidate C w' scope p.store = (.ok again, p') ∧ again.actions = [] ∧
      again.actionsApplied = 0 ∧ p'.store = p.store) ∧
    OnePerCombination (inScope scope p.store.exported)

/-- The clock gives a pass that draws nothing before a cutoff, and no record is stale by it. -/
def NoneStale (w : Draws) (records : List MemoryRecord) : Prop :=
  ∃ cutoff, archiveCutoff w 0 = some cutoff ∧
    ∀ r ∈ records, ¬(r.createdAt < cutoff ∧ r.confidence < 1 / 2)

section Convergence

variable {C : MemoryConsolidator} {w : Draws} {scope : String} {store : InMemoryMemoryStore}

theorem archivePlan_eq_nil {cutoff : DateTime} {records : List MemoryRecord} :
    archivePlan cutoff records = [] ↔
      ∀ r ∈ records, ¬(r.createdAt < cutoff ∧ r.confidence < 1 / 2) := by
  rw [archivePlan, List.map_eq_nil_iff, staleRecords, List.filter_eq_nil_iff]
  simp only [decide_eq_true_eq]

theorem mem_inScope {r : MemoryRecord} :
    r ∈ inScope scope store.exported ↔
      r ∈ store.records ∧ (scope = "" ∨ r.scope = scope ∨ r.scope = "") := by
  unfold inScope
  split_ifs with h
  · simp [InMemoryMemoryStore.mem_exported, h]
  · simp [InMemoryMemoryStore.mem_exported, h]

/-- A pass that has nothing to do, and a clock, leaves everything as it is. -/
theorem consolidate_of_settled (h : Settled C (inScope scope store.exported))
    (hstale : NoneStale w (inScope scope store.exported)) :
    ∃ result p, consolidate C w scope store = (.ok result, p) ∧ result.actions = [] ∧
      result.actionsApplied = 0 ∧ p.store = store := by
  obtain ⟨actions, p, hperforms, hlast⟩ := consolidate_performs C w scope store
  rw [stagesPlan_eq_nil.mpr h] at hperforms
  have hactions : actions = [] := List.eq_nil_of_length_eq_zero hperforms.1.length
  obtain rfl := hperforms.2 rfl
  obtain ⟨cutoff, hcutoff, hnone⟩ := hstale
  rcases hlast with ⟨habsent, -⟩ | ⟨cutoff', archive, p', result, hfound, harchive, heq, hresult,
    hcount⟩
  · rw [hcutoff] at habsent
    cases habsent
  · obtain rfl := Option.some.inj (hcutoff.symm.trans hfound)
    rw [archivePlan_eq_nil.mpr hnone] at harchive
    have harchived : archive = [] := List.eq_nil_of_length_eq_zero harchive.1.length
    obtain rfl := harchive.2 rfl
    rw [hactions, harchived] at hresult
    exact ⟨result, _, heq, hresult, by rw [hcount, hresult]; rfl, rfl⟩

theorem settled_of_consolidate {result : ConsolidationResult} {p : Pass}
    (h : consolidate C w scope store = (.ok result, p)) (hnone : result.actions = []) :
    Settled C (inScope scope store.exported) ∧ NoneStale w (inScope scope store.exported) := by
  obtain ⟨actions, p₁, hperforms, hlast⟩ := consolidate_performs C w scope store
  rcases hlast with ⟨-, heq⟩ | ⟨cutoff, archive, p₂, result', hfound, harchive, heq, hresult, -⟩
  · rw [h] at heq
    cases heq
  · rw [h] at heq
    obtain ⟨heq, -⟩ := Prod.mk.inj heq
    obtain rfl := Except.ok.inj heq
    rw [hnone, eq_comm, List.append_eq_nil_iff] at hresult
    obtain ⟨hactions, harchived⟩ := hresult
    have hplan : stagesPlan C (inScope scope store.exported) = [] :=
      List.eq_nil_of_length_eq_zero (by rw [← hperforms.1.length, hactions]; rfl)
    have hold : archivePlan cutoff (inScope scope store.exported) = [] :=
      List.eq_nil_of_length_eq_zero (by rw [← harchive.1.length, harchived]; rfl)
    rw [hplan] at hperforms
    obtain rfl := hperforms.2 rfl
    exact ⟨stagesPlan_eq_nil.mp hplan, cutoff, hfound, archivePlan_eq_nil.mp hold⟩

/-- A pass that adds a record leaves two records that say the same, and so is not the last. -/
theorem not_settled_of_added {plan : List (List MemoryRecord)}
    {actions : List ConsolidationAction} {p : Pass} (hfresh : Fresh w { store := store })
    (hadds : Adds w plan { store := store } actions p) (hplan : plan ≠ [])
    (hsound : ∀ entry ∈ plan, ∀ r ∈ entry, r ∈ inScope scope store.exported) :
    ¬Settled C (inScope scope p.store.exported) := by
  obtain ⟨added, -, horigins, -, hcopies, hstore⟩ := hadds
  obtain ⟨-, hstore⟩ := hstore hfresh
  cases added with
  | nil => exact absurd horigins.symm hplan
  | cons x added =>
    obtain ⟨r, hr, hsame⟩ := hcopies x List.mem_cons_self
    have hentry : x.origins ∈ plan := by
      rw [← horigins]
      exact List.mem_cons_self
    obtain ⟨hrecord, hscope⟩ := mem_inScope.mp (hsound _ hentry r hr)
    have hhome : x.record.scope = r.scope := congrArg Prod.snd hsame.2
    have hnew : x.record ∈ inScope scope p.store.exported := by
      refine mem_inScope.mpr ⟨?_, by rwa [hhome]⟩
      rw [hstore]
      exact List.mem_append_right _ List.mem_cons_self
    have hold : r ∈ inScope scope p.store.exported := by
      refine mem_inScope.mpr ⟨?_, hscope⟩
      rw [hstore]
      exact List.mem_append_left _ hrecord
    have hne : x.record ≠ r := by
      intro heq
      have hnodup := p.store.nodup
      rw [hstore, List.map_append, List.nodup_append] at hnodup
      exact hnodup.2.2 r.id (List.mem_map_of_mem hrecord) x.record.id
        (List.mem_map_of_mem List.mem_cons_self) (by rw [heq])
    intro hsettled
    have hsymm : Std.Symm fun a b : MemoryRecord => a.claim ≠ b.claim := ⟨fun _ _ h => h.symm⟩
    exact hsettled.claims.forall hnew hold hne hsame.1

end Convergence

/-! ## Records stay where they belong -/

/-- A record that a pass adds belongs where all that it was made of belongs, and a query that returns it
would have returned, but for its limit, all of these before the pass. -/
def RespectsScope (C : MemoryConsolidator) (w : Draws) (scope : String)
    (store : InMemoryMemoryStore) : Prop :=
  ∀ x ∈ (consolidate C w scope store).2.additions,
    (∀ query, x.record ∈ (consolidate C w scope store).2.store.query query →
      ∀ r ∈ x.origins, r ∈ store.query { query with limit := none }) ∧
    ∀ r ∈ x.origins, r.home = x.record.home

section Scope

variable {C : MemoryConsolidator} {w : Draws} {scope : String} {store : InMemoryMemoryStore}

/-- Queries tell records of one subject apart only by where they belong. -/
theorem admits_congr {query : MemoryQuery} {a b : MemoryRecord} (hsubject : a.subject = b.subject)
    (hhome : a.home = b.home) : query.admits a = query.admits b := by
  have hkind : a.kind = b.kind := congrArg Prod.fst hhome
  have hscope : a.scope = b.scope := congrArg Prod.snd hhome
  rw [MemoryQuery.admits, MemoryQuery.admits, hkind, hsubject, hscope]

/-- What a pass adds, it adds by a plan of which the entries are made of records in scope. -/
theorem consolidate_adds (C : MemoryConsolidator) (w : Draws) (scope : String)
    (store : InMemoryMemoryStore) :
    ∃ (old : List MemoryRecord) (actions : List ConsolidationAction) (p : Pass),
      Adds w (stagesPlan C (inScope scope store.exported) ++ old.map fun r => [r])
        { store := store } actions p ∧
      (consolidate C w scope store).2.additions = p.additions ∧
      (consolidate C w scope store).2.store = p.store ∧
      ∀ r ∈ old, r ∈ inScope scope store.exported := by
  obtain ⟨actions, p, hperforms, hlast⟩ := consolidate_performs C w scope store
  rcases hlast with ⟨-, heq⟩ | ⟨cutoff, archive, p', result, -, harchive, heq, -⟩
  · refine ⟨[], actions, p, ?_, by rw [heq], by rw [heq], fun r hr => (List.not_mem_nil hr).elim⟩
    rw [List.map_nil, List.append_nil]
    exact hperforms.1
  · exact ⟨staleRecords cutoff (inScope scope store.exported), actions ++ archive, p',
      hperforms.1.append harchive.1.of_readings, by rw [heq], by rw [heq],
      fun r hr => List.mem_of_mem_filter hr⟩

/-- **Scope.** For every store and pass, records stay where they belong exactly when what is merged
belongs to the same place: in the scope of the pass, records with one subject and content are of one
kind and scope, fuzzy matches are of one scope, and of each subject those that are merged into the
surest one are of its kind and scope. -/
theorem consolidation_respects_scope_iff (C : MemoryConsolidator) (w : Draws) (scope : String)
    (store : InMemoryMemoryStore) :
    RespectsScope C w scope store ↔ HomesAgree C (inScope scope store.exported) := by
  obtain ⟨old, actions, p, ⟨added, hadded, horigins, -, hcopies, -⟩, hadditions, -, hold⟩ :=
    consolidate_adds C w scope store
  rw [List.nil_append] at hadded
  rw [← stagesPlan_home, RespectsScope, hadditions, hadded]
  have hentry : ∀ x ∈ added, x.origins ∈ stagesPlan C (inScope scope store.exported) ∨
      ∃ r ∈ old, x.origins = [r] := by
    intro x hx
    have hmem : x.origins ∈ added.map Addition.origins := List.mem_map_of_mem hx
    rw [horigins, List.mem_append, List.mem_map] at hmem
    rcases hmem with hmem | ⟨r, hr, heq⟩
    · exact .inl hmem
    · exact .inr ⟨r, hr, heq.symm⟩
  constructor
  · intro h entry he
    have hmem : entry ∈ added.map Addition.origins := by
      rw [horigins]
      exact List.mem_append_left _ he
    obtain ⟨x, hx, rfl⟩ := List.mem_map.mp hmem
    intro a ha b hb
    exact ((h x hx).2 a ha).trans ((h x hx).2 b hb).symm
  · intro h x hx
    obtain ⟨c, hc, hsame⟩ := hcopies x hx
    -- all origins are in scope, and agree with the one that the record copies
    have hagree : ∀ r ∈ x.origins, r ∈ inScope scope store.exported ∧ r.subject = c.subject ∧
        r.home = c.home := by
      intro r hr
      rcases hentry x hx with he | ⟨o, ho, he⟩
      · obtain ⟨hrecords, hsubjects⟩ := mem_stagesPlan he
        exact ⟨hrecords r hr, hsubjects r hr c hc, h _ he r hr c hc⟩
      · rw [he] at hr hc
        rw [List.mem_singleton.mp hr, List.mem_singleton.mp hc]
        exact ⟨hold o ho, rfl, rfl⟩
    have hhome : ∀ r ∈ x.origins, r.home = x.record.home := fun r hr =>
      (hagree r hr).2.2.trans hsame.2.symm
    refine ⟨fun query hquery r hr => ?_, hhome⟩
    obtain ⟨hrecord, hsubject, -⟩ := hagree r hr
    have hcopied : x.record.subject = c.subject := congrArg Prod.fst hsame.1
    refine InMemoryMemoryStore.mem_query_unlimited.mpr ⟨(mem_inScope.mp hrecord).1, ?_⟩
    rw [admits_congr (hsubject.trans hcopied.symm) (hhome r hr)]
    exact (InMemoryMemoryStore.mem_of_mem_query hquery).2

end Scope

/-! ## Three stores -/

def noon (year month day : Nat) (h : IsDate year month day) : DateTime where
  year := year
  month := month
  day := day
  microsecond := 43200000000
  isDate := h
  isTime := by decide

def replicas (id scope : String) (metadata : JsonMapping) : MemoryRecord where
  kind := .semantic
  subject := "deployment"
  content := "has 3 replicas"
  scope := scope
  confidence := 1
  sourceSessionId := none
  id := id
  createdAt := noon 2026 3 1 (by decide)
  version := 1
  tags := []
  source := "domain"
  metadata := metadata
  confidence_bounded := by decide
  subject_given := by decide
  content_given := by decide

def plainConsolidator : MemoryConsolidator where
  similarity _ _ := 0
  scoreCutoff := 85
  tupleOfSet tags := tags
  mem_tupleOfSet _ _ := Iff.rfl
  isoformat _ := "2026-03-02T12:00:00+00:00"
  twoDecimals _ := "0.00"

def stillDraws (now : DateTime) : Draws where
  newMemoryId n := String.ofList (List.replicate (n + 1) 'm')
  utcNow _ := now

def nextDay : Draws := stillDraws (noon 2026 3 2 (by decide))

def oneRecord : InMemoryMemoryStore := ⟨[replicas "memory-1" "" []], by decide⟩

theorem fresh_oneRecord : Fresh nextDay { store := oneRecord } := by
  constructor
  · intro m n h
    have hlen := congrArg String.length h
    simpa [nextDay, stillDraws] using hlen
  · intro n _ hmem
    have hid : nextDay.newMemoryId n = "memory-1" := by simpa [oneRecord, replicas] using hmem
    have hchars := congrArg String.toList hid
    have hlast : '1' ∈ (nextDay.newMemoryId n).toList := by
      rw [hchars]
      decide
    simp [nextDay, stillDraws] at hlast

def twoRecords : InMemoryMemoryStore :=
  ⟨[replicas "memory-1" "" [], replicas "memory-2" "" []], by decide⟩

def theDayAfter : Draws where
  newMemoryId n := String.ofList (List.replicate (n + 1) 'n')
  utcNow _ := noon 2026 3 3 (by decide)

def twoScopes : InMemoryMemoryStore :=
  ⟨[replicas "memory-1" "team-a" [], replicas "memory-2" "team-b" [("ticket", .str "B-17")]],
    by decide⟩

/-- The merged record is in the scope of the first team, and has the metadata of the second one's. -/
theorem metadata_crosses_scopes :
    ((consolidate plainConsolidator nextDay "" twoScopes).2.store.query
        { scope := some "team-a" }).map
      (fun r => (r.id, r.scope, r.metadata.lookup "ticket")) =
        [("memory-1", "team-a", none), ("m", "team-a", some (.str "B-17"))] ∧
    (twoScopes.query { scope := some "team-a" }).map MemoryRecord.id = ["memory-1"] := by
  constructor <;> decide +kernel

end UniversalAgent.Memory
