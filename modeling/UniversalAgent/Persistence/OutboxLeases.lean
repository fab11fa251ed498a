import UniversalAgent.Persistence.Outbox

/-!
# Persistence — OutboxLeases

What the leases of the outbox exclude, for the steps of any calls in any order. A row is guarded by
the leases that were granted on it and not released: while it is pending it is not yet available,
and while it is being published it is locked, for as long as they run. So no call leases an event
before every earlier lease of it has expired or been released.

A lease call returns what it reads after its transaction, not what it has leased.
-/

namespace UniversalAgent.Persistence

open UniversalAgent.Core UniversalAgent.Foundation UniversalAgent.Distributed

variable {r : LeaseRequest} {stage : OutboxStage}

variable {ι : Type} [DecidableEq ι]

/-! ## What has been leased -/

/-- The expiries of the leases granted on each row, less those released. -/
abbrev Leases := Nat → List Instant

namespace OutboxAnswer

def leases (live : Leases) : OutboxAnswer → Leases
  | .leased r rows => fun n =>
    if n ∈ rows.map OutboxRow.sequence then r.lockedUntil :: live n else live n
  | .released rows => fun n => if n ∈ rows.map OutboxRow.sequence then [] else live n
  | _ => live

/-- What an answer to a call does to the rows that each call leased last. -/
def leasedTo (mine : ι → List OutboxRow) (i : OutboxInput ι) : OutboxAnswer → ι → List OutboxRow
  | .leased _ rows =>
    match i with
    | .advance c => Function.update mine c rows
    | _ => mine
  | _ => mine

end OutboxAnswer

def liveLeases (h : List (OutboxInput ι × OutboxAnswer)) : Leases :=
  h.foldl (fun live e => e.2.leases live) fun _ => []

def leasedRows (h : List (OutboxInput ι × OutboxAnswer)) : ι → List OutboxRow :=
  h.foldl (fun mine e => e.2.leasedTo mine e.1) fun _ => []

omit [DecidableEq ι] in
theorem liveLeases_snoc (h : List (OutboxInput ι × OutboxAnswer)) (e : OutboxInput ι × OutboxAnswer) :
    liveLeases (h ++ [e]) = e.2.leases (liveLeases h) := by
  simp [liveLeases, List.foldl_append]

theorem leasedRows_snoc (h : List (OutboxInput ι × OutboxAnswer)) (e : OutboxInput ι × OutboxAnswer) :
    leasedRows (h ++ [e]) = e.2.leasedTo (leasedRows h) e.1 := by
  simp [leasedRows, List.foldl_append]

/-! ## The invariant -/

/-- A version keeps its row from being leased before `u`. -/
def OutboxRow.Guards (u : Instant) (v : OutboxRow) : Prop :=
  match v.status with
  | .pending => u ≤ v.availableAt
  | .publishing => ∃ until_, v.lockedUntil = some until_ ∧ u ≤ until_
  | .published => True

def OutboxRow.Freed (live : Leases) (v : OutboxRow) : Prop :=
  v.status = .pending ∧ ∀ u ∈ live v.sequence, u ≤ v.availableAt

def OutboxRow.LeasedBy (r : LeaseRequest) (live : Leases) (v : OutboxRow) : Prop :=
  v.status = .publishing ∧ v.lockedUntil = some r.lockedUntil ∧ ∀ u ∈ live v.sequence, u ≤ r.now

namespace OutboxStage

def Writes (live : Leases) (v : OutboxRow) : OutboxStage → Prop
  | .reclaiming _ _ => v.Freed live
  | .selecting _ _ _ => v.Freed live
  | .leasing r rows _ => v.Freed live ∨ v.sequence ∈ rows.map OutboxRow.sequence ∧ v.LeasedBy r live
  | .rereading _ _ => False
  | .marking _ _ _ => v.status = .published
  | .releasing _ _ _ _ => True

def Ok (written mine : List OutboxRow) : OutboxStage → Prop
  | .reclaiming r _ => r.valid = true
  | .selecting r todo rows =>
    r.valid = true ∧ (rows.map OutboxRow.sequence ++ todo).Pairwise (· < ·) ∧
      ∀ w ∈ rows, w ∈ written ∧ w.available r.now = true
  | .leasing r rows todo =>
    r.valid = true ∧ (rows.map OutboxRow.sequence).Pairwise (· < ·) ∧ todo.Nodup ∧
      ∀ w ∈ rows, w.available r.now = true ∧
        (w.sequence ∈ todo ∧ w ∈ written ∨ w.sequence ∉ todo ∧ w.lease r ∈ written)
  | .rereading r rows =>
    (rows.map OutboxRow.sequence).Pairwise (· < ·) ∧ mine = rows.map (OutboxRow.lease r)
  | _ => True

end OutboxStage

def OutboxRow.key (r : OutboxRow) : Nat × RuntimeEvent := (r.sequence, r.event)

structure OutboxInv (live : Leases) (mine : ι → List OutboxRow) (s : Outbox ι) : Prop where
  sorted : (s.rows.versions.map OutboxRow.sequence).Pairwise (· < ·)
  events : (s.rows.versions.map OutboxRow.eventId).Nodup
  same : LockedTable.SameKeys OutboxRow.key s.rows
  known : ∀ n, live n ≠ [] → n ∈ s.rows.versions.map OutboxRow.sequence
  guarded : ∀ v ∈ s.rows.versions, ∀ u ∈ live v.sequence, v.Guards u
  written : ∀ c, ∀ v ∈ s.rows.written c, ∃ stage, s.calls c = some stage ∧ stage.Writes live v
  staged : ∀ c stage, s.calls c = some stage → stage.Ok (s.rows.written c) (mine c)

/-! ## Rows -/

theorem roundHalfEven_nonneg {x : ℚ} (hx : 0 ≤ x) : 0 ≤ roundHalfEven x := by
  have hf : 0 ≤ x.floor := Int.floor_nonneg.mpr hx
  unfold roundHalfEven
  dsimp only
  split
  · exact hf
  · split
    · omega
    · split <;> omega

theorem LeaseRequest.now_le_lockedUntil (h : r.valid = true) : r.now ≤ r.lockedUntil := by
  simp only [valid, Bool.and_eq_true, decide_eq_true_eq] at h
  have hnonneg := roundHalfEven_nonneg (x := r.ttlSeconds * 1000000) (by linarith [h.1.2])
  unfold lockedUntil
  exact Int.le_add_of_nonneg_right hnonneg

namespace OutboxRow

variable {live : Leases} {v w : OutboxRow} {now : Instant} {r : LeaseRequest}

@[simp] theorem key_reclaim : (v.reclaim now).key = v.key := rfl

@[simp] theorem key_lease : (v.lease r).key = v.key := rfl

@[simp] theorem key_markPublished : v.markPublished.key = v.key := rfl

@[simp] theorem key_release : (v.release now).key = v.key := rfl

@[simp] theorem sequence_lease : (v.lease r).sequence = v.sequence := rfl

@[simp] theorem eventId_lease : (v.lease r).eventId = v.eventId := rfl

theorem map_sequence_lease (rows : List OutboxRow) :
    (rows.map (lease r)).map sequence = rows.map sequence := by
  rw [List.map_map]
  rfl

theorem Freed.guards (h : v.Freed live) : ∀ u ∈ live v.sequence, v.Guards u := by
  intro u hu
  rw [Guards, h.1]
  exact h.2 u hu

theorem LeasedBy.guards (hr : r.valid = true) (h : v.LeasedBy r live) :
    v.Guards r.lockedUntil ∧ ∀ u ∈ live v.sequence, v.Guards u := by
  obtain ⟨hstatus, huntil, hlive⟩ := h
  simp only [Guards, hstatus]
  refine ⟨⟨_, huntil, le_refl _⟩, fun u hu => ⟨_, huntil, ?_⟩⟩
  exact le_trans (hlive u hu) (LeaseRequest.now_le_lockedUntil hr)

/-- What is reclaimed becomes available no sooner than its leases expire. -/
theorem freed_reclaim (he : v.expired now = true) (hg : ∀ u ∈ live v.sequence, v.Guards u) :
    (v.reclaim now).Freed live := by
  simp only [expired, Bool.and_eq_true, decide_eq_true_eq, Option.any_eq_true] at he
  obtain ⟨hstatus, until_, huntil, hle⟩ := he
  refine ⟨rfl, fun u hu => ?_⟩
  have hguard := hg u hu
  simp only [Guards, hstatus] at hguard
  obtain ⟨until', huntil', hle'⟩ := hguard
  rw [huntil] at huntil'
  cases huntil'
  exact le_trans hle' hle

theorem freed_of_available (ha : v.available now = true)
    (hg : ∀ u ∈ live v.sequence, v.Guards u) : v.Freed live := by
  simp only [available, Bool.and_eq_true, decide_eq_true_eq] at ha
  refine ⟨ha.1, fun u hu => ?_⟩
  have hguard := hg u hu
  rwa [Guards, ha.1] at hguard

theorem leasedBy_lease (ha : v.available r.now = true) (hf : v.Freed live) :
    (v.lease r).LeasedBy r live := by
  simp only [available, Bool.and_eq_true, decide_eq_true_eq] at ha
  exact ⟨rfl, rfl, fun u hu => le_trans (hf.2 u hu) ha.2⟩

theorem not_freed_lease : ¬ (v.lease r).Freed live := fun h => by cases h.1

end OutboxRow

namespace OutboxStage

variable {live live' : Leases} {v : OutboxRow}

/-- A call may have written what it may have under more leases. -/
theorem Writes.mono (h : stage.Writes live v)
    (hl : ∀ u ∈ live' v.sequence, u ∈ live v.sequence) : stage.Writes live' v := by
  have hfreed : v.Freed live → v.Freed live' := fun h => ⟨h.1, fun u hu => h.2 u (hl u hu)⟩
  cases stage with
  | reclaiming r todo => exact hfreed h
  | selecting r todo rows => exact hfreed h
  | leasing r rows todo =>
    rcases h with h | ⟨hmem, h⟩
    · exact .inl (hfreed h)
    · exact .inr ⟨hmem, h.1, h.2.1, fun u hu => h.2.2 u (hl u hu)⟩
  | rereading r rows => exact h
  | marking eventIds publisherId todo => exact h
  | releasing eventIds publisherId retryAt todo => exact h

theorem Ok.mono {written written' mine : List OutboxRow}
    (h : stage.Ok written mine) (hw : ∀ v ∈ written, v ∈ written') : stage.Ok written' mine := by
  cases stage with
  | reclaiming r todo => exact h
  | selecting r todo rows =>
    exact ⟨h.1, h.2.1, fun w hmem => ⟨hw w (h.2.2 w hmem).1, (h.2.2 w hmem).2⟩⟩
  | leasing r rows todo =>
    obtain ⟨hvalid, hsorted, hnodup, hrows⟩ := h
    refine ⟨hvalid, hsorted, hnodup, fun w hmem => ⟨(hrows w hmem).1, ?_⟩⟩
    exact (hrows w hmem).2.imp (And.imp_right (hw w)) (And.imp_right (hw _))
  | rereading r rows => exact h
  | marking eventIds publisherId todo => trivial
  | releasing eventIds publisherId retryAt todo => trivial

end OutboxStage

/-! ## One step -/

namespace OutboxInv

variable {live live' : Leases} {mine mine' : ι → List OutboxRow} {s : Outbox ι} {c : ι}
  {stage : OutboxStage} {T : LockedTable ι OutboxRow}

theorem nodup (h : OutboxInv live mine s) : (s.rows.versions.map OutboxRow.sequence).Nodup :=
  h.sorted.imp Nat.ne_of_lt

theorem same_sequence (h : OutboxInv live mine s) :
    LockedTable.SameKeys OutboxRow.sequence s.rows := fun r hr t v hl =>
  congrArg Prod.fst (h.same r hr t v hl)

/-- A call whose transaction is not open has locked nothing. -/
theorem written_idle (h : OutboxInv live mine s) (hc : s.calls c = none) : s.rows.written c = [] := by
  rw [List.eq_nil_iff_forall_not_mem]
  intro v hv
  obtain ⟨stage, hstage, -⟩ := h.written c v hv
  rw [hc] at hstage
  cases hstage

theorem writes (h : OutboxInv live mine s) (hc : s.calls c = some stage) {v : OutboxRow}
    (hv : v ∈ s.rows.written c) : stage.Writes live v := by
  obtain ⟨stage', hstage, hw⟩ := h.written c v hv
  rw [hc] at hstage
  cases hstage
  exact hw

/-- Rows with the same keys and committed versions; the other calls' locks as they were. -/
theorem replace (h : OutboxInv live mine s) {next : Option OutboxStage}
    (hversions : T.versions = s.rows.versions)
    (hsame : LockedTable.SameKeys OutboxRow.key T)
    (hothers : ∀ c', c' ≠ c → T.written c' = s.rows.written c')
    (hw : ∀ v ∈ T.written c, ∃ stage, next = some stage ∧ stage.Writes live v)
    (hok : ∀ stage, next = some stage → stage.Ok (T.written c) (mine c)) :
    OutboxInv live mine ⟨T, Function.update s.calls c next⟩ where
  sorted := by rw [hversions]; exact h.sorted
  events := by rw [hversions]; exact h.events
  same := hsame
  known := by rw [hversions]; exact h.known
  guarded := by rw [hversions]; exact h.guarded
  written c' v hv := by
    by_cases hc' : c' = c
    · subst hc'
      simpa using hw v hv
    · rw [hothers c' hc'] at hv
      obtain ⟨stage', hstage', hw'⟩ := h.written c' v hv
      exact ⟨stage', by simpa [hc'] using hstage', hw'⟩
  staged c' stage' hstage' := by
    by_cases hc' : c' = c
    · subst hc'
      exact hok stage' (by simpa using hstage')
    · rw [hothers c' hc']
      exact h.staged c' stage' (by simpa [hc'] using hstage')

theorem goOn_same (h : OutboxInv live mine s)
    (hw : ∀ v ∈ s.rows.written c, stage.Writes live v)
    (hok : stage.Ok (s.rows.written c) (mine c)) :
    OutboxInv live mine ⟨s.rows, Function.update s.calls c (some stage)⟩ :=
  h.replace rfl h.same (fun _ _ => rfl) (fun v hv => ⟨stage, rfl, hw v hv⟩) (by
    intro stage' hstage
    cases hstage
    exact hok)

variable {n : Nat} {todo : List Nat} {eventIds : List EventId} {publisherId : Option String}

theorem visited (h : OutboxInv live mine s) {stage' : OutboxStage}
    {p : OutboxRow → Bool} {f : OutboxRow → OutboxRow} {o : Option OutboxRow}
    (hc : s.calls c = some stage) (hf : ∀ v, (f v).key = v.key)
    (hvisit : s.rows.visit OutboxRow.sequence c n p f = some (o, T))
    (hnew : ∀ v, o = some v → stage'.Writes live v)
    (hold : ∀ v, stage.Writes live v → stage'.Writes live v)
    (hok : stage'.Ok (T.written c) (mine c)) :
    OutboxInv live mine ⟨T, Function.update s.calls c (some stage')⟩ := by
  refine h.replace (LockedTable.versions_visit hvisit) (h.same.visit hf hvisit)
    (fun c' hc' => LockedTable.written_visit_of_ne hc' hvisit)
    (fun v hv => ⟨stage', rfl, ?_⟩) (fun stage'' hstage => ?_)
  · cases o with
    | none =>
      rw [LockedTable.visit_passes hvisit] at hv
      exact hold v (h.writes hc hv)
    | some w =>
      rcases LockedTable.written_visit_sub hvisit hv with rfl | hv
      · exact hnew v rfl
      · exact hold v (h.writes hc hv)
  · cases hstage
    exact hok

/-- A transaction ends: its versions are committed, and guard the leases there are now. -/
theorem commit (h : OutboxInv live mine s) {stage' : Option OutboxStage}
    (hguarded : ∀ v ∈ s.rows.written c, ∀ u ∈ live' v.sequence, v.Guards u)
    (hothers : ∀ n, n ∉ (s.rows.written c).map OutboxRow.sequence →
      ∀ u ∈ live' n, u ∈ live n)
    (hmine : ∀ c', c' ≠ c → mine' c' = mine c')
    (hok : ∀ stage, stage' = some stage → stage.Ok [] (mine' c)) :
    OutboxInv live' mine' (s.commit c stage') := by
  have hkeys : (s.rows.commit c).versions.map OutboxRow.sequence
      = s.rows.versions.map OutboxRow.sequence := LockedTable.keys_commit h.same_sequence
  have hevents : (s.rows.commit c).versions.map OutboxRow.eventId
      = s.rows.versions.map OutboxRow.eventId :=
    LockedTable.keys_commit fun r hr t v hl =>
      congrArg (RuntimeEvent.id ∘ Prod.snd) (h.same r hr t v hl)
  have hknown : ∀ v ∈ s.rows.written c, v.sequence ∈ s.rows.versions.map OutboxRow.sequence := by
    intro v hv
    obtain ⟨r, hr, hl⟩ := LockedTable.mem_written.mp hv
    rw [h.same_sequence r hr c v hl]
    exact List.mem_map_of_mem (List.mem_map_of_mem hr)
  refine ⟨?_, ?_, h.same.commit, fun n hn => ?_, fun v hv u hu => ?_, fun c' v hv => ?_,
    fun c' stage hstage => ?_⟩
  · unfold Outbox.commit
    rw [hkeys]
    exact h.sorted
  · unfold Outbox.commit
    rw [hevents]
    exact h.events
  · unfold Outbox.commit
    rw [hkeys]
    by_cases hmem : n ∈ (s.rows.written c).map OutboxRow.sequence
    · obtain ⟨v, hv, rfl⟩ := List.mem_map.mp hmem
      exact hknown v hv
    · refine h.known n fun hnil => hn ?_
      rw [List.eq_nil_iff_forall_not_mem] at hnil ⊢
      exact fun u hu => hnil u (hothers n hmem u hu)
  · rcases LockedTable.mem_versions_commit h.same_sequence h.nodup hv with hv | ⟨hv, hne⟩
    · exact hguarded v hv u hu
    · refine h.guarded v hv u (hothers _ (fun hmem => ?_) u hu)
      obtain ⟨w, hw, hk⟩ := List.mem_map.mp hmem
      exact hne w hw hk
  · by_cases hc' : c' = c
    · subst hc'
      unfold Outbox.commit at hv
      rw [LockedTable.written_commit] at hv
      cases hv
    · have hv' : v ∈ s.rows.written c' := by
        rwa [← LockedTable.written_commit_of_ne (T := s.rows) hc']
      obtain ⟨stage, hstage, hw⟩ := h.written c' v hv'
      refine ⟨stage, by simpa [Outbox.commit, hc'] using hstage,
        hw.mono (hothers _ fun hmem => ?_)⟩
      obtain ⟨w, hw', hk⟩ := List.mem_map.mp hmem
      exact hc' (LockedTable.written_unique h.same_sequence h.nodup hv' hw' hk.symm).1
  · by_cases hc' : c' = c
    · subst hc'
      have hs' : stage' = some stage := by simpa [Outbox.commit] using hstage
      have hnil : (s.commit c' stage').rows.written c' = [] := LockedTable.written_commit
      rw [hnil]
      exact hok stage hs'
    · have hkeep : (s.commit c stage').rows.written c' = s.rows.written c' :=
        LockedTable.written_commit_of_ne hc'
      rw [hkeep, hmine c' hc']
      exact h.staged c' stage (by simpa [Outbox.commit, hc'] using hstage)

theorem abort (h : OutboxInv live mine s) :
    OutboxInv live mine ⟨s.rows.rollback c, Function.update s.calls c none⟩ := by
  refine h.replace LockedTable.versions_rollback h.same.rollback
    (fun c' hc' => LockedTable.written_rollback_of_ne hc') (fun v hv => ?_) nofun
  rw [LockedTable.written_rollback] at hv
  cases hv

theorem insert (h : OutboxInv live mine s) {row : OutboxRow}
    (hn : row.sequence ∉ s.rows.versions.map OutboxRow.sequence)
    (he : row.eventId ∉ s.rows.versions.map OutboxRow.eventId) :
    OutboxInv live mine { s with rows := s.rows.insert OutboxRow.sequence row } where
  sorted := LockedTable.sorted_insert h.sorted hn
  events := by
    rw [(LockedTable.versions_insert_perm.map OutboxRow.eventId).nodup_iff]
    exact List.nodup_cons.mpr ⟨he, h.events⟩
  same := h.same.insert
  known n hlive := by
    rw [(LockedTable.versions_insert_perm.map OutboxRow.sequence).mem_iff]
    exact List.mem_cons_of_mem _ (h.known n hlive)
  guarded v hv u hu := by
    rw [LockedTable.versions_insert_perm.mem_iff] at hv
    rcases List.mem_cons.mp hv with rfl | hv
    · exact absurd (h.known v.sequence (List.ne_nil_of_mem hu)) hn
    · exact h.guarded v hv u hu
  written c v hv := h.written c v (LockedTable.mem_written_insert.mp hv)
  staged c stage hstage := by
    refine (h.staged c stage hstage).mono fun v hv => ?_
    exact LockedTable.mem_written_insert.mpr hv

/-! ## Statements of a call -/

/-- A version that a call can see before its leases guards the leases of its row. -/
theorem seen_guards (h : OutboxInv live mine s) (hc : s.calls c = some stage)
    (hw : ∀ v, stage.Writes live v → v.Freed live) {v : OutboxRow}
    (hv : v ∈ s.rows.versions ∨ v ∈ s.rows.written c) : ∀ u ∈ live v.sequence, v.Guards u := by
  rcases hv with hv | hv
  · exact h.guarded v hv
  · exact (hw v (h.writes hc hv)).guards

theorem reclaimRow (h : OutboxInv live mine s)
    (hc : s.calls c = some (.reclaiming r (n :: todo))) :
    OutboxInv live mine (s.updateRow c n (OutboxRow.expired r.now) (OutboxRow.reclaim r.now)
      (.reclaiming r todo)).2 := by
  unfold Outbox.updateRow
  split
  · next o T hvisit =>
      refine h.visited hc (fun _ => OutboxRow.key_reclaim) hvisit (fun v ho => ?_) (fun v hv => hv)
        (h.staged c _ hc)
      subst ho
      obtain ⟨w, hw, -, hp, rfl⟩ := LockedTable.visit_source h.same_sequence hvisit
      exact OutboxRow.freed_reclaim hp (h.seen_guards hc (fun _ hv => hv) hw)
  · exact h

theorem startSelecting (h : OutboxInv live mine s)
    (hc : s.calls c = some (.reclaiming r [])) :
    OutboxInv live mine
      (s.goOn c s.rows (.selecting r (s.find c (OutboxRow.available r.now)) [])).2 := by
  refine h.goOn_same (fun v hv => h.writes hc hv) ⟨h.staged c _ hc, ?_, fun _ hw => absurd hw List.not_mem_nil⟩
  exact h.sorted.sublist (LockedTable.found_sublist h.same_sequence)

theorem selectRow (h : OutboxInv live mine s)
    {rows : List OutboxRow} (hc : s.calls c = some (.selecting r (n :: todo) rows)) :
    OutboxInv live mine (s.selectRow c r n todo rows).2 := by
  obtain ⟨hvalid, hsorted, hrows⟩ := h.staged c _ hc
  have hskip : (rows.map OutboxRow.sequence ++ todo).Pairwise (· < ·) :=
    hsorted.sublist (List.Sublist.append_left (List.sublist_cons_self n todo) _)
  have hn : ∀ w ∈ rows, w.sequence ≠ n := by
    intro w hw
    exact ((List.pairwise_append.mp hsorted).2.2 _ (List.mem_map_of_mem hw) n
      List.mem_cons_self).ne
  unfold Outbox.selectRow
  split
  · next row T hvisit =>
      obtain ⟨w, hw, hkey, hp, heq⟩ := LockedTable.visit_source h.same_sequence hvisit
      rw [id] at heq
      subst heq
      refine h.visited hc (fun _ => rfl) hvisit (fun v ho => ?_) (fun v hv => hv)
        ⟨hvalid, ?_, fun w' hw' => ?_⟩
      · cases ho
        exact OutboxRow.freed_of_available hp (h.seen_guards hc (fun _ hv => hv) hw)
      · rw [List.map_append, List.append_assoc, List.map_singleton, hkey]
        exact hsorted
      · rcases List.mem_append.mp hw' with hw' | hw'
        · exact ⟨LockedTable.written_visit_keeps h.same_sequence (hrows w' hw').1 (hn w' hw')
            hvisit, (hrows w' hw').2⟩
        · obtain rfl := List.mem_singleton.mp hw'
          exact ⟨LockedTable.mem_written_visit hvisit, hp⟩
  · exact h.goOn_same (fun v hv => h.writes hc hv) ⟨hvalid, hskip, hrows⟩
  · exact h.goOn_same (fun v hv => h.writes hc hv) ⟨hvalid, hskip, hrows⟩

theorem startLeasing (h : OutboxInv live mine s)
    {rows : List OutboxRow} (hc : s.calls c = some (.selecting r todo rows)) :
    OutboxInv live mine (s.startLeasing c r rows).2 := by
  obtain ⟨hvalid, hsorted, hrows⟩ := h.staged c _ hc
  refine h.goOn_same (fun v hv => .inl (h.writes hc hv))
    ⟨hvalid, (List.pairwise_append.mp hsorted).1, ?_, fun w hw => ⟨(hrows w hw).2, .inl ⟨?_, ?_⟩⟩⟩
  · exact h.nodup.sublist (LockedTable.found_sublist h.same_sequence)
  · refine LockedTable.mem_found_of_written (hrows w hw).1 ?_
    simpa [OutboxRow.among] using ⟨w, hw, rfl⟩
  · exact (hrows w hw).1

/-- The lease of a row writes the version that the call has selected. -/
theorem leaseRow (h : OutboxInv live mine s)
    {rows : List OutboxRow} (hc : s.calls c = some (.leasing r rows (n :: todo))) :
    OutboxInv live mine (s.updateRow c n (OutboxRow.among rows) (OutboxRow.lease r)
      (.leasing r rows todo)).2 := by
  obtain ⟨hvalid, hsorted, hnodup, hrows⟩ := h.staged c _ hc
  obtain ⟨hn, htodo⟩ := List.nodup_cons.mp hnodup
  unfold Outbox.updateRow
  split
  · next o T hvisit =>
      have hvisited : ∀ w ∈ rows, w.sequence = n → o = some (w.lease r) ∧ w.Freed live := by
        intro w hw hk
        obtain ⟨ha, ⟨-, hmem⟩ | ⟨hnot, -⟩⟩ := hrows w hw
        · have hamong : OutboxRow.among rows w = true := by
            simpa [OutboxRow.among] using ⟨w, hw, rfl⟩
          obtain ⟨T', hvisit'⟩ := LockedTable.visit_written (f := OutboxRow.lease r)
            h.same_sequence h.nodup hmem hk hamong
          rw [hvisit] at hvisit'
          cases hvisit'
          refine ⟨rfl, ?_⟩
          rcases h.writes hc hmem with hfreed | ⟨-, hleased⟩
          · exact hfreed
          · simp [OutboxRow.available, hleased.1] at ha
        · exact absurd (hk ▸ List.mem_cons_self) hnot
      refine h.visited hc (fun _ => OutboxRow.key_lease) hvisit (fun v ho => ?_) (fun v hv => hv)
        ⟨hvalid, hsorted, htodo, fun w hw => ⟨(hrows w hw).1, ?_⟩⟩
      · subst ho
        obtain ⟨w₀, -, hkey, hp, -⟩ := LockedTable.visit_source h.same_sequence hvisit
        obtain ⟨w, hw, hk⟩ := List.mem_map.mp (of_decide_eq_true hp)
        obtain ⟨heq, hfreed⟩ := hvisited w hw (hk.trans hkey)
        cases heq
        exact .inr ⟨List.mem_map.mpr ⟨w, hw, rfl⟩, OutboxRow.leasedBy_lease (hrows w hw).1 hfreed⟩
      · by_cases hk : w.sequence = n
        · obtain ⟨rfl, -⟩ := hvisited w hw hk
          exact .inr ⟨hk ▸ hn, LockedTable.mem_written_visit hvisit⟩
        · obtain ⟨-, ⟨hmem, hw'⟩ | ⟨hnot, hw'⟩⟩ := hrows w hw
          · refine .inl ⟨(List.mem_cons.mp hmem).resolve_left hk, ?_⟩
            exact LockedTable.written_visit_keeps h.same_sequence hw' hk hvisit
          · refine .inr ⟨fun hmem => hnot (List.mem_cons_of_mem n hmem), ?_⟩
            exact LockedTable.written_visit_keeps h.same_sequence hw' hk hvisit
  · exact h

theorem markRow (h : OutboxInv live mine s)
    (hc : s.calls c = some (.marking eventIds publisherId (n :: todo))) :
    OutboxInv live mine (s.updateRow c n (OutboxRow.markable eventIds publisherId)
      OutboxRow.markPublished (.marking eventIds publisherId todo)).2 := by
  unfold Outbox.updateRow
  split
  · next o T hvisit =>
      refine h.visited hc (fun _ => OutboxRow.key_markPublished) hvisit (fun v ho => ?_) (fun v hv => hv) trivial
      subst ho
      obtain ⟨w, -, -, -, rfl⟩ := LockedTable.visit_source h.same_sequence hvisit
      rfl
  · exact h

theorem releaseRow (h : OutboxInv live mine s)
    {publisherId : String} {retryAt : Instant}
    (hc : s.calls c = some (.releasing eventIds publisherId retryAt (n :: todo))) :
    OutboxInv live mine (s.updateRow c n (OutboxRow.releasable eventIds publisherId)
      (OutboxRow.release retryAt) (.releasing eventIds publisherId retryAt todo)).2 := by
  unfold Outbox.updateRow
  split
  · next o T hvisit =>
      exact h.visited hc (fun _ => OutboxRow.key_release) hvisit (fun v _ => trivial) (fun v hv => hv) trivial
  · exact h

/-! ## Ends of calls -/

/-- What a call has leased when its transaction ends. -/
theorem leased_written (h : OutboxInv live mine s) {rows : List OutboxRow}
    (hc : s.calls c = some (.leasing r rows [])) {w : OutboxRow} (hw : w ∈ rows) :
    w.lease r ∈ s.rows.written c ∧ (w.lease r).LeasedBy r live := by
  obtain ⟨-, -, -, hrows⟩ := h.staged c _ hc
  obtain ⟨-, ⟨hmem, -⟩ | ⟨-, hmem⟩⟩ := hrows w hw
  · cases hmem
  · rcases h.writes hc hmem with hfreed | ⟨-, hleased⟩
    · exact absurd hfreed OutboxRow.not_freed_lease
    · exact ⟨hmem, hleased⟩

theorem commitLeases (h : OutboxInv live mine s) {rows : List OutboxRow}
    (hc : s.calls c = some (.leasing r rows [])) :
    OutboxInv ((OutboxAnswer.leased r (rows.map (OutboxRow.lease r))).leases live)
      (Function.update mine c (rows.map (OutboxRow.lease r)))
      (s.commit c (some (.rereading r rows))) := by
  obtain ⟨hvalid, hsorted, -, -⟩ := h.staged c _ hc
  refine h.commit (fun v hv u hu => ?_) (fun n hn u hu => ?_)
    (fun c' hc' => Function.update_of_ne hc' _ _) (fun stage hstage => ?_)
  · simp only [OutboxAnswer.leases, OutboxRow.map_sequence_lease] at hu
    split at hu
    · next hmem =>
        obtain ⟨w, hw, hk⟩ := List.mem_map.mp hmem
        obtain ⟨hwritten, hleased⟩ := h.leased_written hc hw
        obtain ⟨-, rfl⟩ := LockedTable.written_unique h.same_sequence h.nodup hwritten hv hk
        rcases List.mem_cons.mp hu with rfl | hu
        · exact (hleased.guards hvalid).1
        · exact (hleased.guards hvalid).2 u hu
    · next hmem =>
        rcases h.writes hc hv with hfreed | ⟨hmem', -⟩
        · exact hfreed.guards u hu
        · exact absurd hmem' hmem
  · simp only [OutboxAnswer.leases, OutboxRow.map_sequence_lease] at hu
    rwa [if_neg fun hmem => ?_] at hu
    obtain ⟨w, hw, rfl⟩ := List.mem_map.mp hmem
    exact hn (List.mem_map.mpr ⟨_, (h.leased_written hc hw).1, rfl⟩)
  · cases hstage
    exact ⟨hsorted, Function.update_self _ _ _⟩

theorem commitMarked (h : OutboxInv live mine s)
    (hc : s.calls c = some (.marking eventIds publisherId todo)) :
    OutboxInv live mine (s.commit c none) := by
  refine h.commit (fun v hv u _ => ?_) (fun n _ u hu => hu) (fun _ _ => rfl) nofun
  have hstatus : v.status = .published := h.writes hc hv
  simp [OutboxRow.Guards, hstatus]

theorem commitReleased (h : OutboxInv live mine s) :
    OutboxInv ((OutboxAnswer.released (s.rows.written c)).leases live) mine (s.commit c none) := by
  refine h.commit (fun v hv u hu => ?_) (fun n hn u hu => ?_) (fun _ _ => rfl) nofun
  · simp only [OutboxAnswer.leases] at hu
    rw [if_pos (List.mem_map_of_mem hv)] at hu
    cases hu
  · simp only [OutboxAnswer.leases] at hu
    rwa [if_neg hn] at hu

/-! ## Every step -/

theorem begin (h : OutboxInv live mine s) (hc : s.calls c = none) (call : OutboxCall) :
    OutboxInv live mine (s.begin c call).2 := by
  have hw : ∀ stage : OutboxStage, ∀ v ∈ s.rows.written c, stage.Writes live v := by
    intro stage v hv
    rw [h.written_idle hc] at hv
    cases hv
  cases call with
  | lease r =>
    simp only [Outbox.begin]
    split
    · next hvalid => exact h.goOn_same (hw _) hvalid
    · exact h
  | markPublished eventIds publisherId =>
    simp only [Outbox.begin]
    split
    · exact h
    · split
      · exact h
      · exact h.goOn_same (hw _) trivial
  | release eventIds publisherId reason retryAt =>
    simp only [Outbox.begin]
    split
    · exact h
    · split
      · exact h
      · exact h.goOn_same (hw _) trivial

theorem finish (h : OutboxInv live mine s) {rows : List OutboxRow}
    (hc : s.calls c = some (.rereading r rows)) : OutboxInv live mine (s.setStage c none) :=
  h.replace rfl h.same (fun _ _ => rfl) (fun _ hv => (h.writes hc hv).elim) nofun

theorem advance (h : OutboxInv live mine s) (hc : s.calls c = some stage) :
    OutboxInv ((s.advance c stage).1.leases live)
      ((s.advance c stage).1.leasedTo mine (.advance c)) (s.advance c stage).2 := by
  have hupdate : ∀ n p f next,
      (s.updateRow c n p f next).1.leases live = live ∧
        (s.updateRow c n p f next).1.leasedTo mine (.advance c) = mine := by
    intro n p f next
    unfold Outbox.updateRow
    split <;> exact ⟨rfl, rfl⟩
  cases stage with
  | reclaiming r todo =>
    cases todo with
    | nil => exact h.startSelecting hc
    | cons n todo =>
      simp only [Outbox.advance, hupdate]
      exact h.reclaimRow hc
  | selecting r todo rows =>
    cases todo with
    | nil => exact h.startLeasing hc
    | cons n todo =>
      simp only [Outbox.advance]
      split
      · have hselect : (s.selectRow c r n todo rows).1 = .ran := by
          unfold Outbox.selectRow
          split <;> rfl
        rw [hselect]
        exact h.selectRow hc
      · exact h.startLeasing hc
  | leasing r rows todo =>
    cases todo with
    | nil => exact h.commitLeases hc
    | cons n todo =>
      simp only [Outbox.advance, hupdate]
      exact h.leaseRow hc
  | rereading r rows => exact h.finish hc
  | marking eventIds publisherId todo =>
    cases todo with
    | nil => exact h.commitMarked hc
    | cons n todo =>
      simp only [Outbox.advance, hupdate]
      exact h.markRow hc
  | releasing eventIds publisherId retryAt todo =>
    cases todo with
    | nil => exact h.commitReleased
    | cons n todo =>
      simp only [Outbox.advance, hupdate]
      exact h.releaseRow hc

theorem step (h : OutboxInv live mine s) (i : OutboxInput ι) :
    OutboxInv ((s.step i).1.leases live) ((s.step i).1.leasedTo mine i) (s.step i).2 := by
  cases i with
  | insert sequence event now =>
    simp only [Outbox.step]
    split
    · exact h
    · next hfresh =>
        rw [not_or] at hfresh
        exact h.insert hfresh.1 hfresh.2
  | start c call =>
    simp only [Outbox.step]
    split
    · exact h
    · next hc =>
        have hanswer : (s.begin c call).1.leases live = live ∧
            (s.begin c call).1.leasedTo mine (.start c call) = mine := by
          cases call with
          | lease r =>
            simp only [Outbox.begin]
            split <;> exact ⟨rfl, rfl⟩
          | markPublished eventIds publisherId =>
            simp only [Outbox.begin]
            split
            · exact ⟨rfl, rfl⟩
            · split <;> exact ⟨rfl, rfl⟩
          | release eventIds publisherId reason retryAt =>
            simp only [Outbox.begin]
            split
            · exact ⟨rfl, rfl⟩
            · split <;> exact ⟨rfl, rfl⟩
        rw [hanswer.1, hanswer.2]
        exact h.begin hc call
  | advance c =>
    simp only [Outbox.step]
    split
    · next stage hc => exact h.advance hc
    · exact h
  | abort c =>
    simp only [Outbox.step]
    split
    · exact h.abort
    · exact h

theorem init : OutboxInv (ι := ι) (fun _ => []) (fun _ => []) ⟨[], fun _ => none⟩ where
  sorted := List.Pairwise.nil
  events := List.nodup_nil
  same _ hr := absurd hr List.not_mem_nil
  known _ hn := absurd rfl hn
  guarded _ hv := absurd hv List.not_mem_nil
  written _ _ hv := absurd hv List.not_mem_nil
  staged _ _ hstage := nomatch hstage

theorem run (is : List (OutboxInput ι)) :
    OutboxInv (liveLeases ((Outbox.machine ι).history is))
      (leasedRows ((Outbox.machine ι).history is)) ((Outbox.machine ι).state is) := by
  refine (Outbox.machine ι).induct (C := fun _ _ _ => True)
    (fun h s => OutboxInv (liveLeases h) (leasedRows h) s) ?_ (fun h s i hinv _ => ?_)
    (fun _ _ _ _ => trivial)
  · exact OutboxInv.init
  · rw [liveLeases_snoc, leasedRows_snoc]
    exact hinv.step i

end OutboxInv

/-! ## What a lease call returns -/

/-- The second reading of a lease call, against what the call has leased. -/
theorem publishingRows_eq_iff {versions leased : List OutboxRow}
    (hs : (versions.map OutboxRow.sequence).Pairwise (· < ·))
    (he : (versions.map OutboxRow.eventId).Nodup)
    (hl : (leased.map OutboxRow.sequence).Pairwise (· < ·))
    (hp : ∀ w ∈ leased, w.status = .publishing) :
    publishingRows versions (leased.map OutboxRow.eventId) = leased ↔
      (leased = [] → ∀ v ∈ versions, v.status ≠ .publishing) ∧ ∀ w ∈ leased, w ∈ versions := by
  rw [List.pairwise_map] at hs hl
  constructor
  · intro heq
    refine ⟨fun hnil v hv hstatus => ?_, fun w hw => ?_⟩
    · rw [hnil] at heq
      have hmem : v ∈ publishingRows versions [] := by
        simpa [publishingRows] using ⟨hv, hstatus⟩
      exact absurd (heq ▸ hmem) List.not_mem_nil
    · rw [← heq] at hw
      exact List.mem_of_mem_filter hw
  · rintro ⟨hnone, hmem⟩
    have : Std.Irrefl fun a b : OutboxRow => a.sequence < b.sequence := ⟨fun a => lt_irrefl _⟩
    have : Std.Antisymm fun a b : OutboxRow => a.sequence < b.sequence :=
      ⟨fun a b hab hba => absurd (hab.trans hba) (lt_irrefl _)⟩
    refine (hs.filter _).eq_of_mem_iff hl fun v => ?_
    rw [List.mem_filter]
    constructor
    · rintro ⟨hv, hcond⟩
      simp only [Bool.and_eq_true, Bool.or_eq_true, decide_eq_true_eq] at hcond
      rcases leased with _ | ⟨w, leased⟩
      · exact absurd hcond.1 (hnone rfl v hv)
      · obtain ⟨w', hw', hid⟩ := List.mem_map.mp (hcond.2.resolve_left (by simp))
        have heq : w' = v := List.inj_on_of_nodup_map he (hmem w' hw') hv hid
        exact heq ▸ hw'
    · intro hv
      refine ⟨hmem v hv, ?_⟩
      have hid : v.eventId ∈ leased.map OutboxRow.eventId := List.mem_map_of_mem hv
      simp [hp v hv, hid]

/-- Only the end of a lease's transaction reports leases, only the second reading returns. -/
theorem advance_answer (s : Outbox ι) (c : ι) (stage : OutboxStage) :
    (∃ r rows, stage = .leasing r rows []) ∨ (∃ r rows, stage = .rereading r rows) ∨
      (∀ r rows, (s.advance c stage).1 ≠ .leased r rows) ∧
        ∀ rows, (s.advance c stage).1 ≠ .returned rows := by
  have hupdate : ∀ n p f next, (∀ r rows, (s.updateRow c n p f next).1 ≠ .leased r rows) ∧
      ∀ rows, (s.updateRow c n p f next).1 ≠ .returned rows := by
    intro n p f next
    unfold Outbox.updateRow
    split <;> exact ⟨nofun, nofun⟩
  cases stage with
  | reclaiming r todo =>
    cases todo with
    | nil => exact .inr (.inr ⟨nofun, nofun⟩)
    | cons n todo => exact .inr (.inr (hupdate _ _ _ _))
  | selecting r todo rows =>
    cases todo with
    | nil => exact .inr (.inr ⟨nofun, nofun⟩)
    | cons n todo =>
      refine .inr (.inr ?_)
      simp only [Outbox.advance]
      split
      · unfold Outbox.selectRow
        split <;> exact ⟨nofun, nofun⟩
      · exact ⟨nofun, nofun⟩
  | leasing r rows todo =>
    cases todo with
    | nil => exact .inl ⟨r, rows, rfl⟩
    | cons n todo => exact .inr (.inr (hupdate _ _ _ _))
  | rereading r rows => exact .inr (.inl ⟨r, rows, rfl⟩)
  | marking eventIds publisherId todo =>
    cases todo with
    | nil => exact .inr (.inr ⟨nofun, nofun⟩)
    | cons n todo => exact .inr (.inr (hupdate _ _ _ _))
  | releasing eventIds publisherId retryAt todo =>
    cases todo with
    | nil => exact .inr (.inr ⟨nofun, nofun⟩)
    | cons n todo => exact .inr (.inr (hupdate _ _ _ _))

theorem leased_of_step {s : Outbox ι} {i : OutboxInput ι}
    {rows : List OutboxRow} (h : (s.step i).1 = .leased r rows) :
    ∃ c selected, s.calls c = some (.leasing r selected []) ∧
      rows = selected.map (OutboxRow.lease r) := by
  cases i with
  | insert sequence event now =>
    simp only [Outbox.step] at h
    split at h <;> cases h
  | start c call =>
    simp only [Outbox.step] at h
    split at h
    · cases h
    · cases call with
      | lease r =>
        simp only [Outbox.begin] at h
        split at h <;> cases h
      | markPublished eventIds publisherId =>
        simp only [Outbox.begin] at h
        split at h
        · cases h
        · split at h <;> cases h
      | release eventIds publisherId reason retryAt =>
        simp only [Outbox.begin] at h
        split at h
        · cases h
        · split at h <;> cases h
  | advance c =>
    simp only [Outbox.step] at h
    split at h
    · next stage hc =>
        obtain ⟨r', selected, rfl⟩ | ⟨r', selected, rfl⟩ | ⟨hno, -⟩ := advance_answer s c stage
        · cases h
          exact ⟨c, selected, hc, rfl⟩
        · cases h
        · exact absurd h (hno r rows)
    · cases h
  | abort c =>
    simp only [Outbox.step] at h
    split at h <;> cases h

theorem returned_of_advance {s : Outbox ι} {c : ι} {rows : List OutboxRow}
    (h : (s.step (.advance c)).1 = .returned rows) :
    ∃ r selected, s.calls c = some (.rereading r selected) ∧
      rows = publishingRows s.rows.versions (selected.map OutboxRow.eventId) := by
  simp only [Outbox.step] at h
  split at h
  · next stage hc =>
      obtain ⟨r', selected, rfl⟩ | ⟨r', selected, rfl⟩ | ⟨-, hno⟩ := advance_answer s c stage
      · cases h
      · cases h
        exact ⟨r', selected, hc, rfl⟩
      · exact absurd h (hno rows)
  · cases h

section Runs

variable (is : List (OutboxInput ι))

/-- **Leases exclude each other; what a call returns is another matter.** In every run, when events
are leased, every lease of them that was granted before and not released has expired. A lease call
returns what it has leased exactly if all of that is still as it leased it and, where it has leased
nothing, no event is being published. -/
theorem outbox_leases :
    (∀ i r rows,
      ((Outbox.machine ι).step ((Outbox.machine ι).state is) i).1 = .leased r rows →
      ∀ row ∈ rows, ∀ expiry ∈ liveLeases ((Outbox.machine ι).history is) row.sequence,
        expiry ≤ r.now) ∧
    ∀ c rows,
      ((Outbox.machine ι).step ((Outbox.machine ι).state is) (.advance c)).1 = .returned rows →
      (rows = leasedRows ((Outbox.machine ι).history is) c ↔
        (leasedRows ((Outbox.machine ι).history is) c = [] →
          ∀ row ∈ ((Outbox.machine ι).state is).rows.versions, row.status ≠ .publishing) ∧
        ∀ row ∈ leasedRows ((Outbox.machine ι).history is) c,
          row ∈ ((Outbox.machine ι).state is).rows.versions) := by
  have hinv := OutboxInv.run is
  constructor
  · intro i r rows hstep row hrow
    obtain ⟨c, selected, hc, rfl⟩ := leased_of_step hstep
    obtain ⟨w, hw, rfl⟩ := List.mem_map.mp hrow
    exact (hinv.leased_written hc hw).2.2.2
  · intro c rows hstep
    obtain ⟨r, selected, hc, rfl⟩ := returned_of_advance hstep
    obtain ⟨hsorted, hmine⟩ := hinv.staged c _ hc
    have hids : selected.map OutboxRow.eventId
        = (selected.map (OutboxRow.lease r)).map OutboxRow.eventId := by
      rw [List.map_map]
      rfl
    rw [hmine, hids]
    refine publishingRows_eq_iff hinv.sorted hinv.events ?_ fun w hw => ?_
    · rwa [OutboxRow.map_sequence_lease]
    · obtain ⟨w', -, rfl⟩ := List.mem_map.mp hw
      rfl

end Runs

def outboxEvent : RuntimeEvent := ⟨"GoalCreated", "s", "g", "t", "e", none, [], 0⟩

/-- Publisher `true` leases the one event, and its second reading is next. -/
def onePublisher : List (OutboxInput Bool) :=
  [.insert 1 outboxEvent 0, .start true (.lease ⟨"a", 1, 30, 10⟩)]
    ++ List.replicate 5 (.advance true)

theorem outbox_leases_one :
    [⟨1, outboxEvent, .publishing, 1, 0, some "a", some 30000010⟩]
      = leasedRows ((Outbox.machine Bool).history onePublisher) true :=
  ((outbox_leases onePublisher).2 true _ (by decide +kernel)).mpr (by decide +kernel)

/-- Then publisher `false` finds no event that it could lease. -/
def twoPublishers : List (OutboxInput Bool) :=
  onePublisher ++ [.start false (.lease ⟨"b", 1, 30, 10⟩)] ++ List.replicate 3 (.advance false)

/-- It returns the event that the other has leased. -/
theorem empty_lease_returns_other :
    ((Outbox.machine Bool).step ((Outbox.machine Bool).state twoPublishers) (.advance false)).1
        = .returned [⟨1, outboxEvent, .publishing, 1, 0, some "a", some 30000010⟩] ∧
      leasedRows ((Outbox.machine Bool).history twoPublishers) false = [] ∧
      leasedRows ((Outbox.machine Bool).history twoPublishers) true
        = [⟨1, outboxEvent, .publishing, 1, 0, some "a", some 30000010⟩] := by
  decide +kernel

end UniversalAgent.Persistence
