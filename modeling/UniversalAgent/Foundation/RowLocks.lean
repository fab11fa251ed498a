import Mathlib

/-!
# Foundation — RowLocks

A table under transactions that lock the rows they write, at the isolation level `READ COMMITTED`.
Of a row there is the committed version and, while a transaction `t` has it locked, the version of
that transaction. A statement finds the keys of its rows when it begins, from the committed versions
and its own transaction's; then it visits them one by one, and other transactions go on in between.
At a row that another transaction has locked it waits, or skips it; at any other its condition is
checked again, on the version that the row has by then.

The rules are about `versions`, what is committed, and `written t`, the versions that `t` has
locked.
-/

namespace UniversalAgent.Foundation

universe u v w

structure LockedRow (τ : Type u) (α : Type v) where
  committed : α
  lock : Option (τ × α)
deriving DecidableEq

namespace LockedRow

variable {τ : Type u} {α : Type v} [DecidableEq τ] (t : τ) (r : LockedRow τ α)

def seen : α :=
  match r.lock with
  | some (holder, version) => if holder = t then version else r.committed
  | none => r.committed

def busy : Bool :=
  match r.lock with
  | some (holder, _) => decide (holder ≠ t)
  | none => false

def write (version : α) : LockedRow τ α := { r with lock := some (t, version) }

def held : Option α :=
  match r.lock with
  | some (holder, version) => if holder = t then some version else none
  | none => none

def commit : LockedRow τ α :=
  match r.held t with
  | some version => ⟨version, none⟩
  | none => r

def rollback : LockedRow τ α :=
  match r.held t with
  | some _ => ⟨r.committed, none⟩
  | none => r

variable {t r}

omit [DecidableEq τ] in
@[simp] theorem committed_write (version : α) : (r.write t version).committed = r.committed := rfl

@[simp] theorem held_write (version : α) : (r.write t version).held t = some version := by
  simp [held, write]

theorem held_write_of_ne {t' : τ} (ht : t' ≠ t) (version : α) :
    (r.write t version).held t' = none := by
  simp [held, write, ht.symm]

/-- A row that no other has locked is seen as committed or as the transaction holds it. -/
theorem seen_of_free (h : r.busy t = false) :
    r.held t = some (r.seen t) ∨ r.lock = none ∧ r.seen t = r.committed := by
  unfold busy at h
  unfold held seen
  rcases hl : r.lock with _ | ⟨holder, version⟩
  · exact .inr ⟨rfl, rfl⟩
  · rw [hl] at h
    have heq : holder = t := by simpa using h
    exact .inl (by simp [heq])

theorem held_of_free {t' : τ} (h : r.busy t = false) (ht : t' ≠ t) : r.held t' = none := by
  unfold busy at h
  unfold held
  rcases hl : r.lock with _ | ⟨holder, version⟩
  · rfl
  · rw [hl] at h
    have heq : holder = t := by simpa using h
    exact if_neg fun h' => ht (h'.symm.trans heq)

theorem seen_of_held {version : α} (h : r.held t = some version) : r.seen t = version := by
  unfold held at h
  unfold seen
  rcases hl : r.lock with _ | ⟨holder, v⟩
  · simp [hl] at h
  · by_cases ht : holder = t
    · simpa [hl, ht] using h
    · simp [hl, ht] at h

theorem lock_of_held {version : α} (h : r.held t = some version) : r.lock = some (t, version) := by
  unfold held at h
  rcases hl : r.lock with _ | ⟨holder, v⟩
  · simp [hl] at h
  · by_cases ht : holder = t
    · simpa [hl, ht] using h
    · simp [hl, ht] at h

theorem held_iff_lock {version : α} : r.held t = some version ↔ r.lock = some (t, version) :=
  ⟨lock_of_held, fun h => by simp [held, h]⟩

theorem held_commit : (r.commit t).held t = none := by
  unfold commit
  rcases h : r.held t with _ | version
  · exact h
  · rfl

theorem held_commit_of_ne {t' : τ} (ht : t' ≠ t) : (r.commit t).held t' = r.held t' := by
  unfold commit
  rcases h : r.held t with _ | version
  · rfl
  · simp [held, lock_of_held h, ht.symm]

theorem held_rollback : (r.rollback t).held t = none := by
  unfold rollback
  rcases h : r.held t with _ | version
  · exact h
  · rfl

theorem held_rollback_of_ne {t' : τ} (ht : t' ≠ t) : (r.rollback t).held t' = r.held t' := by
  unfold rollback
  rcases h : r.held t with _ | version
  · rfl
  · simp [held, lock_of_held h, ht.symm]

@[simp] theorem committed_rollback : (r.rollback t).committed = r.committed := by
  unfold rollback
  rcases r.held t with _ | version <;> rfl

end LockedRow

abbrev LockedTable (τ : Type u) (α : Type v) := List (LockedRow τ α)

namespace LockedTable

variable {τ : Type u} {α : Type v} {κ : Type w} [DecidableEq τ]

def versions (T : LockedTable τ α) : List α := T.map LockedRow.committed

def written (t : τ) (T : LockedTable τ α) : List α := T.filterMap (LockedRow.held t)

def found (key : α → κ) (t : τ) (p : α → Bool) (T : LockedTable τ α) : List κ :=
  ((T.map (LockedRow.seen t)).filter p).map key

/-- A statement visits a row. `none` is a row that another transaction has locked; else the version
written is told, if the condition still holds. -/
def visit [DecidableEq κ] (key : α → κ) (t : τ) (k : κ) (p : α → Bool) (f : α → α) :
    LockedTable τ α → Option (Option α × LockedTable τ α)
  | [] => some (none, [])
  | r :: T =>
    if key r.committed = k then
      if r.busy t then none
      else if p (r.seen t) then some (some (f (r.seen t)), r.write t (f (r.seen t)) :: T)
      else some (none, r :: T)
    else (visit key t k p f T).map fun (version, T') => (version, r :: T')

def commit (t : τ) (T : LockedTable τ α) : LockedTable τ α := T.map (LockedRow.commit t)

def rollback (t : τ) (T : LockedTable τ α) : LockedTable τ α := T.map (LockedRow.rollback t)

def insert {κ : Type w} [LinearOrder κ] (key : α → κ) (v : α) (T : LockedTable τ α) :
    LockedTable τ α :=
  List.orderedInsert (fun a b : LockedRow τ α => key a.committed ≤ key b.committed) ⟨v, none⟩ T

variable {key : α → κ} {t : τ} {T : LockedTable τ α}

omit [DecidableEq τ] in
theorem mem_versions {v : α} : v ∈ T.versions ↔ ∃ r ∈ T, r.committed = v := List.mem_map

theorem mem_written {v : α} : v ∈ T.written t ↔ ∃ r ∈ T, r.held t = some v := List.mem_filterMap

/-! ## Keys -/

def SameKeys (key : α → κ) (T : LockedTable τ α) : Prop :=
  ∀ r ∈ T, ∀ t v, r.held t = some v → key v = key r.committed

theorem SameKeys.seen (h : SameKeys key T) {r : LockedRow τ α} (hr : r ∈ T) :
    key (r.seen t) = key r.committed := by
  unfold LockedRow.seen
  rcases hl : r.lock with _ | ⟨holder, version⟩
  · rfl
  · by_cases ht : holder = t
    · simp only [if_pos ht]
      exact h r hr holder version (LockedRow.held_iff_lock.mpr hl)
    · simp only [if_neg ht]

/-- Two versions of one row that transactions have locked are one. -/
theorem written_unique (h : SameKeys key T) (hn : (T.versions.map key).Nodup) {t' : τ} {v v' : α}
    (hv : v ∈ T.written t) (hv' : v' ∈ T.written t') (hk : key v = key v') : t = t' ∧ v = v' := by
  obtain ⟨r, hr, hl⟩ := mem_written.mp hv
  obtain ⟨r', hr', hl'⟩ := mem_written.mp hv'
  have hkr : key r.committed = key r'.committed := by
    rw [← h r hr t v hl, ← h r' hr' t' v' hl', hk]
  unfold versions at hn
  rw [List.map_map] at hn
  have heq : r = r' := List.inj_on_of_nodup_map hn hr hr' hkr
  subst heq
  have := (LockedRow.lock_of_held hl).symm.trans (LockedRow.lock_of_held hl')
  simpa using this

theorem mem_found {p : α → Bool} {k : κ} :
    k ∈ T.found key t p ↔ ∃ r ∈ T, p (r.seen t) = true ∧ key (r.seen t) = k := by
  simp [found, and_assoc]

theorem mem_found_of_written {p : α → Bool} {v : α} (hv : v ∈ T.written t) (hp : p v = true) :
    key v ∈ T.found key t p := by
  obtain ⟨r, hr, hl⟩ := mem_written.mp hv
  have hs := LockedRow.seen_of_held hl
  exact mem_found.mpr ⟨r, hr, by rw [hs, hp], by rw [hs]⟩

/-- A statement finds its rows in the order of the table. -/
theorem found_sublist {p : α → Bool} (h : SameKeys key T) :
    (T.found key t p).Sublist (T.versions.map key) := by
  have hmap : (T.map (LockedRow.seen t)).map key = T.versions.map key := by
    unfold versions
    rw [List.map_map, List.map_map]
    exact List.map_congr_left fun r hr => h.seen hr
  rw [← hmap]
  exact List.filter_sublist.map key

/-! ## Visits -/

section Visits

variable [DecidableEq κ] {k : κ} {p : α → Bool} {f : α → α} {T' : LockedTable τ α}

theorem visit_writes {v : α} (h : T.visit key t k p f = some (some v, T')) :
    ∃ T₁ r T₂, T = T₁ ++ r :: T₂ ∧ key r.committed = k ∧ r.busy t = false ∧
      p (r.seen t) = true ∧ v = f (r.seen t) ∧ T' = T₁ ++ r.write t v :: T₂ := by
  induction T generalizing T' with
  | nil => cases h
  | cons r T ih =>
    unfold visit at h
    split at h
    · next hk =>
        split at h
        · cases h
        · next hfree =>
            split at h
            · next hp =>
                cases h
                exact ⟨[], r, T, rfl, hk, by simpa using hfree, hp, rfl, rfl⟩
            · cases h
    · obtain ⟨⟨_, T''⟩, hrest, h⟩ := Option.map_eq_some_iff.mp h
      cases h
      obtain ⟨T₁, r₀, T₂, rfl, hk, hfree, hp, hv, rfl⟩ := ih hrest
      exact ⟨r :: T₁, r₀, T₂, rfl, hk, hfree, hp, hv, rfl⟩

theorem visit_passes (h : T.visit key t k p f = some (none, T')) : T' = T := by
  induction T generalizing T' with
  | nil =>
    cases h
    rfl
  | cons r T ih =>
    unfold visit at h
    split at h
    · split at h
      · cases h
      · split at h
        · cases h
        · cases h
          rfl
    · obtain ⟨⟨_, T''⟩, hrest, h⟩ := Option.map_eq_some_iff.mp h
      cases h
      rw [ih hrest]

/-- A version that the transaction has locked is not passed over where the condition holds of
it. -/
theorem visit_written (hs : SameKeys key T) (hn : (T.versions.map key).Nodup) {v : α}
    (hv : v ∈ T.written t) (hk : key v = k) (hp : p v = true) :
    ∃ T', T.visit key t k p f = some (some (f v), T') := by
  obtain ⟨r, hr, hl⟩ := mem_written.mp hv
  induction T with
  | nil => cases hr
  | cons r₀ T ih =>
    have hkr : key r.committed = k := by rw [← hs r hr t v hl, hk]
    have hseen := LockedRow.seen_of_held hl
    have hfree : r.busy t = false := by simp [LockedRow.busy, LockedRow.lock_of_held hl]
    unfold visit
    rcases List.mem_cons.mp hr with rfl | hr'
    · exact ⟨_, by rw [if_pos hkr, hfree, hseen, if_neg (by simp), if_pos hp]⟩
    · have hn' : key r₀.committed ≠ k := by
        intro hk₀
        have hnot := (List.nodup_cons.mp (show (key r₀.committed :: (versions T).map key).Nodup
          from hn)).1
        exact hnot (List.mem_map.mpr ⟨r.committed, List.mem_map_of_mem hr', hkr.trans hk₀.symm⟩)
      obtain ⟨T'', hrest⟩ := ih (fun r h => hs r (List.mem_cons_of_mem r₀ h))
        (List.nodup_cons.mp (show (key r₀.committed :: (versions T).map key).Nodup from hn)).2
        (mem_written.mpr ⟨r, hr', hl⟩) hr'
      exact ⟨r₀ :: T'', by rw [if_neg hn', hrest, Option.map_some]⟩

variable {o : Option α}

theorem versions_visit (h : T.visit key t k p f = some (o, T')) : T'.versions = T.versions := by
  cases o with
  | none => rw [visit_passes h]
  | some v =>
    obtain ⟨T₁, r, T₂, rfl, -, -, -, -, rfl⟩ := visit_writes h
    simp [versions]

theorem written_visit_of_ne {t' : τ} (ht : t' ≠ t) (h : T.visit key t k p f = some (o, T')) :
    T'.written t' = T.written t' := by
  cases o with
  | none => rw [visit_passes h]
  | some v =>
    obtain ⟨T₁, r, T₂, rfl, -, hfree, -, -, rfl⟩ := visit_writes h
    simp [written, LockedRow.held_of_free hfree ht,
      LockedRow.held_write_of_ne ht]

/-- A visit writes from a version that the transaction could see. -/
theorem visit_source (hs : SameKeys key T) {v : α}
    (h : T.visit key t k p f = some (some v, T')) :
    ∃ w, (w ∈ T.versions ∨ w ∈ T.written t) ∧ key w = k ∧ p w = true ∧ v = f w := by
  obtain ⟨T₁, r, T₂, rfl, hk, hfree, hp, hv, -⟩ := visit_writes h
  have hmem : r ∈ T₁ ++ r :: T₂ := by simp
  refine ⟨r.seen t, ?_, by rw [hs.seen hmem, hk], hp, hv⟩
  rcases LockedRow.seen_of_free hfree with hl | ⟨-, hseen⟩
  · exact .inr (mem_written.mpr ⟨r, hmem, hl⟩)
  · exact .inl (mem_versions.mpr ⟨r, hmem, hseen.symm⟩)

theorem mem_written_visit {v : α} (h : T.visit key t k p f = some (some v, T')) :
    v ∈ T'.written t := by
  obtain ⟨T₁, r, T₂, -, -, -, -, -, rfl⟩ := visit_writes h
  exact mem_written.mpr ⟨r.write t v, by simp, LockedRow.held_write v⟩

theorem written_visit_sub {v w : α} (h : T.visit key t k p f = some (some v, T'))
    (hw : w ∈ T'.written t) : w = v ∨ w ∈ T.written t := by
  obtain ⟨T₁, r, T₂, rfl, -, -, -, -, rfl⟩ := visit_writes h
  obtain ⟨r', hr', hl⟩ := mem_written.mp hw
  rcases List.mem_append.mp hr' with hr' | hr'
  · exact .inr (mem_written.mpr ⟨r', List.mem_append_left _ hr', hl⟩)
  · rcases List.mem_cons.mp hr' with rfl | hr'
    · rw [LockedRow.held_write] at hl
      exact .inl (Option.some.inj hl).symm
    · exact .inr (mem_written.mpr ⟨r', by simp [hr'], hl⟩)

theorem written_visit_keeps (hs : SameKeys key T) {w : α} (hw : w ∈ T.written t) (hk : key w ≠ k)
    (h : T.visit key t k p f = some (o, T')) : w ∈ T'.written t := by
  cases o with
  | none => rwa [visit_passes h]
  | some v =>
    obtain ⟨T₁, r, T₂, rfl, hkr, -, -, -, rfl⟩ := visit_writes h
    obtain ⟨r', hr', hl⟩ := mem_written.mp hw
    have hkr' := hs r' hr' t w hl
    rcases List.mem_append.mp hr' with hr' | hr'
    · exact mem_written.mpr ⟨r', List.mem_append_left _ hr', hl⟩
    · rcases List.mem_cons.mp hr' with rfl | hr'
      · exact absurd (hkr'.trans hkr) hk
      · exact mem_written.mpr ⟨r', by simp [hr'], hl⟩

theorem SameKeys.visit {κ' : Type w} {key' : α → κ'} (h : SameKeys key' T)
    (hf : ∀ v, key' (f v) = key' v) (hu : T.visit key t k p f = some (o, T')) :
    SameKeys key' T' := by
  cases o with
  | none => rwa [visit_passes hu]
  | some v =>
    obtain ⟨T₁, r, T₂, rfl, -, -, -, rfl, rfl⟩ := visit_writes hu
    intro r' hr' t' v' hl
    rcases List.mem_append.mp hr' with hr' | hr'
    · exact h r' (List.mem_append_left _ hr') t' v' hl
    · rcases List.mem_cons.mp hr' with rfl | hr'
      · rw [LockedRow.held_iff_lock] at hl
        cases hl
        rw [hf, LockedRow.committed_write]
        exact h.seen (by simp)
      · exact h r' (by simp [hr']) t' v' hl

end Visits

/-! ## Ends of transactions -/

@[simp] theorem written_commit : (T.commit t).written t = [] := by
  rw [List.eq_nil_iff_forall_not_mem]
  intro v hv
  obtain ⟨r', hr', hl⟩ := mem_written.mp hv
  obtain ⟨r, -, rfl⟩ := List.mem_map.mp hr'
  rw [LockedRow.held_commit] at hl
  cases hl

theorem written_commit_of_ne {t' : τ} (ht : t' ≠ t) : (T.commit t).written t' = T.written t' := by
  unfold written commit
  rw [List.filterMap_map]
  exact List.filterMap_congr fun r _ => LockedRow.held_commit_of_ne ht

@[simp] theorem written_rollback : (T.rollback t).written t = [] := by
  rw [List.eq_nil_iff_forall_not_mem]
  intro v hv
  obtain ⟨r', hr', hl⟩ := mem_written.mp hv
  obtain ⟨r, -, rfl⟩ := List.mem_map.mp hr'
  rw [LockedRow.held_rollback] at hl
  cases hl

theorem written_rollback_of_ne {t' : τ} (ht : t' ≠ t) :
    (T.rollback t).written t' = T.written t' := by
  unfold written rollback
  rw [List.filterMap_map]
  exact List.filterMap_congr fun r _ => LockedRow.held_rollback_of_ne ht

@[simp] theorem versions_rollback : (T.rollback t).versions = T.versions := by
  unfold versions rollback
  rw [List.map_map]
  exact List.map_congr_left fun r _ => LockedRow.committed_rollback

/-- A commit publishes what the transaction has written, and of the other rows what was there. -/
theorem mem_versions_commit (hs : SameKeys key T) (hn : (T.versions.map key).Nodup) {v : α}
    (hv : v ∈ (T.commit t).versions) :
    v ∈ T.written t ∨ v ∈ T.versions ∧ ∀ w ∈ T.written t, key w ≠ key v := by
  obtain ⟨r', hr', rfl⟩ := mem_versions.mp hv
  obtain ⟨r, hr, rfl⟩ := List.mem_map.mp hr'
  unfold LockedRow.commit
  rcases hl : r.held t with _ | version
  · refine .inr ⟨mem_versions.mpr ⟨r, hr, rfl⟩, fun w hw hk => ?_⟩
    obtain ⟨r₀, hr₀, hl₀⟩ := mem_written.mp hw
    unfold versions at hn
    rw [List.map_map] at hn
    have heq : r₀ = r :=
      List.inj_on_of_nodup_map hn hr₀ hr ((hs r₀ hr₀ t w hl₀).symm.trans hk)
    rw [heq, hl] at hl₀
    cases hl₀
  · exact .inl (mem_written.mpr ⟨r, hr, hl⟩)

theorem keys_commit (h : SameKeys key T) :
    (T.commit t).versions.map key = T.versions.map key := by
  unfold versions LockedTable.commit
  rw [List.map_map, List.map_map, List.map_map]
  refine List.map_congr_left fun r hr => ?_
  simp only [Function.comp_apply, LockedRow.commit]
  rcases hl : r.held t with _ | version
  · rfl
  · exact h r hr t version hl

theorem SameKeys.commit (h : SameKeys key T) : SameKeys key (T.commit t) := by
  intro r' hr' t' v hl
  obtain ⟨r, hr, rfl⟩ := List.mem_map.mp hr'
  unfold LockedRow.commit at hl ⊢
  rcases hh : r.held t with _ | version
  · rw [hh] at hl
    exact h r hr t' v hl
  · rw [hh] at hl
    cases hl

theorem SameKeys.rollback (h : SameKeys key T) : SameKeys key (T.rollback t) := by
  intro r' hr' t' v hl
  obtain ⟨r, hr, rfl⟩ := List.mem_map.mp hr'
  unfold LockedRow.rollback at hl ⊢
  rcases hh : r.held t with _ | version
  · rw [hh] at hl
    exact h r hr t' v hl
  · rw [hh] at hl
    cases hl

/-! ## New rows -/

section Insertion

variable {κ : Type w} [LinearOrder κ] {key : α → κ} {v : α}

omit [DecidableEq τ] in
/-- A row of its own, in its place among the others. -/
theorem insert_perm : (T.insert key v).Perm (⟨v, none⟩ :: T) := List.perm_orderedInsert _ _ _

omit [DecidableEq τ] in
theorem versions_insert_perm : (T.insert key v).versions.Perm (v :: T.versions) :=
  insert_perm.map LockedRow.committed

omit [DecidableEq τ] in
theorem sorted_insert (h : (T.versions.map key).Pairwise (· < ·))
    (hv : key v ∉ T.versions.map key) :
    ((T.insert key v).versions.map key).Pairwise (· < ·) := by
  have hle : ((T.insert key v).versions.map key).Pairwise (· ≤ ·) := by
    unfold versions LockedTable.insert at *
    rw [List.map_map, List.pairwise_map] at *
    have : Std.Total fun a b : LockedRow τ α => key a.committed ≤ key b.committed :=
      ⟨fun a b => le_total _ _⟩
    have : IsTrans (LockedRow τ α) fun a b => key a.committed ≤ key b.committed :=
      ⟨fun a b c => le_trans⟩
    exact (h.imp le_of_lt).orderedInsert _ _
  have hnodup : ((T.insert key v).versions.map key).Nodup := by
    rw [(versions_insert_perm.map key).nodup_iff, List.map_cons, List.nodup_cons]
    exact ⟨hv, h.imp ne_of_lt⟩
  exact (hle.and hnodup).imp fun hab => lt_of_le_of_ne hab.1 hab.2

theorem mem_written_insert {w : α} : w ∈ (T.insert key v).written t ↔ w ∈ T.written t := by
  rw [mem_written, mem_written]
  constructor
  · rintro ⟨r, hr, hl⟩
    rcases List.mem_cons.mp (insert_perm.subset hr) with rfl | hr
    · cases hl
    · exact ⟨r, hr, hl⟩
  · rintro ⟨r, hr, hl⟩
    exact ⟨r, insert_perm.symm.subset (List.mem_cons_of_mem _ hr), hl⟩

theorem SameKeys.insert {κ' : Type w} {key' : α → κ'} (h : SameKeys key' T) :
    SameKeys key' (T.insert key v) := by
  intro r hr t' w hl
  rcases List.mem_cons.mp (insert_perm.subset hr) with rfl | hr
  · cases hl
  · exact h r hr t' w hl

end Insertion

end LockedTable

end UniversalAgent.Foundation
