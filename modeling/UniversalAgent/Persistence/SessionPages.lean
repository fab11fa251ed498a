import UniversalAgent.Core.Models
import UniversalAgent.Core.OffsetDateTime
import UniversalAgent.Persistence.EventPages

/-!
# Persistence — SessionPages

The listing of sessions, newest first: `InMemorySessionStore.list_sessions` with the
`paginate_session_snapshots` of `state/store.py`, and `SQLiteSessionStore.list_sessions` of
`persistence/sqlite.py`.

In memory the sessions are ordered by the moment that their goal was created at, in the database by the
`isoformat` of it; sessions that share it are ordered by their ids. The two listings are alike where
moments and texts are.
-/

namespace UniversalAgent.Persistence

open UniversalAgent.Core UniversalAgent.Foundation

variable {ρ : Type}

/-- A session: what a listing orders by, `state.session_id` and `state.goal.created_at`, and the rest of
its snapshot. -/
structure StoredSession (ρ : Type) where
  sessionId : SessionId
  createdAt : OffsetDateTime
  rest : ρ
deriving DecidableEq

structure StoredSessions (ρ : Type) where
  rows : List (StoredSession ρ)
  nodup : (rows.map StoredSession.sessionId).Nodup

namespace StoredSession

def momentKey (s : StoredSession ρ) : ℤ ×ₗ String := toLex (s.createdAt.moment, s.sessionId)

/-- The columns of the `ORDER BY`. -/
def textKey (s : StoredSession ρ) : String ×ₗ String := toLex (s.createdAt.isoformat, s.sessionId)

end StoredSession

def descending {κ : Type} [LinearOrder κ] (key : StoredSession ρ → κ) (sessions : List (StoredSession ρ)) :
    List (StoredSession ρ) :=
  sessions.insertionSort fun a b => key b ≤ key a

/-! ## In memory -/

/-- The local variables of `paginate_session_snapshots`. -/
structure SessionScan (ρ : Type) where
  selected : List (StoredSession ρ)
  cursorSeen : Bool
  cursorInScope : Bool

/-- The loop of `paginate_session_snapshots`. -/
def scanSnapshots (afterSessionId : Option SessionId) (limit : Option Int) (scan : SessionScan ρ) :
    List (StoredSession ρ) → SessionScan ρ
  | [] => scan
  | snapshot :: snapshots =>
    let inScope := scan.cursorInScope || decide (afterSessionId = some snapshot.sessionId)
    if scan.cursorSeen then
      let selected := scan.selected ++ [snapshot]
      if limit.any fun n => decide (n ≤ (selected.length : Int)) then
        ⟨selected, scan.cursorSeen, inScope⟩
      else
        scanSnapshots afterSessionId limit ⟨selected, scan.cursorSeen, inScope⟩ snapshots
    else
      scanSnapshots afterSessionId limit
        ⟨scan.selected, decide (afterSessionId = some snapshot.sessionId), inScope⟩ snapshots

def paginateSessionSnapshots (snapshots : List (StoredSession ρ)) (afterSessionId : Option SessionId)
    (limit : Option Int) : Except String (List (StoredSession ρ)) :=
  if limit.any fun n => decide (n < 1) then .error "session list limit must be positive"
  else
    let scan := scanSnapshots afterSessionId limit ⟨[], afterSessionId.isNone, false⟩ snapshots
    match afterSessionId with
    | some id =>
      if scan.cursorInScope then .ok scan.selected
      else .error ("session cursor not found: " ++ id)
    | none => .ok scan.selected

namespace StoredSessions

variable (sessions : StoredSessions ρ)

def listSessions (afterSessionId : Option SessionId) (limit : Option Int) :
    Except String (List (StoredSession ρ)) :=
  paginateSessionSnapshots (descending StoredSession.momentKey sessions.rows) afterSessionId limit

/-! ## In the database -/

def sessionCursorKey (sessionId : SessionId) : Except (QueryError String) (String ×ₗ String) :=
  match sessions.rows.find? fun row => decide (row.sessionId = sessionId) with
  | none => .error (.raised ("session cursor not found: " ++ sessionId))
  | some row => .ok row.textKey

def listSessionsSync (afterSessionId : Option SessionId) (limit : Option Int) :
    Except (QueryError String) (List (StoredSession ρ)) :=
  if limit.any fun n => decide (n < 1) then .error (.raised "session list limit must be positive")
  else do
    let cursorKey ← afterSessionId.mapM sessions.sessionCursorKey
    fetch limit (descending StoredSession.textKey
      (sessions.rows.filter fun row => cursorKey.all fun key => decide (row.textKey < key)))

end StoredSessions

/-! ## Pages in memory -/

section Scan

variable {afterSessionId : Option SessionId} {limit : Option Int}

theorem limit_accepted (hlimit : ∀ n, limit = some n → 0 < n) :
    ¬(limit.any fun n => decide (n < 1)) = true := by
  cases limit with
  | none => simp
  | some n =>
    have := hlimit n rfl
    simp only [Option.any_some, decide_eq_true_eq]
    omega

theorem scanSnapshots_seen (selected : List (StoredSession ρ)) (inScope : Bool)
    (hroom : ∀ n, limit = some n → (selected.length : Int) < n) (snapshots : List (StoredSession ρ)) :
    (scanSnapshots afterSessionId limit ⟨selected, true, inScope⟩ snapshots).selected =
        page limit (selected ++ snapshots) ∧
      (inScope = true →
        (scanSnapshots afterSessionId limit ⟨selected, true, inScope⟩ snapshots).cursorInScope = true) := by
  induction snapshots generalizing selected inScope with
  | nil =>
    rw [scanSnapshots, List.append_nil]
    refine ⟨?_, id⟩
    cases limit with
    | none => rfl
    | some n =>
      have := hroom n rfl
      rw [page, List.take_of_length_le (by omega)]
  | cons snapshot snapshots ih =>
    rw [scanSnapshots]
    simp only [if_true]
    by_cases hfull : limit.any fun n => decide (n ≤ ((selected ++ [snapshot]).length : Int))
    · rw [if_pos hfull]
      refine ⟨?_, fun h => by simp [h]⟩
      obtain ⟨n, rfl, hn⟩ : ∃ n, limit = some n ∧ n ≤ ((selected ++ [snapshot]).length : Int) := by
        simpa [Option.any_eq_true] using hfull
      have hlt := hroom n rfl
      rw [List.length_append, List.length_singleton] at hn
      have hlen : n.toNat = (selected ++ [snapshot]).length := by
        rw [List.length_append, List.length_singleton]
        omega
      rw [page, hlen, List.append_cons selected snapshot snapshots, List.take_left]
    · rw [if_neg hfull]
      have hroom' : ∀ n, limit = some n → ((selected ++ [snapshot]).length : Int) < n := by
        rintro n rfl
        simpa using hfull
      obtain ⟨hselected, hscope⟩ := ih (selected ++ [snapshot])
        (inScope || decide (afterSessionId = some snapshot.sessionId)) hroom'
      refine ⟨?_, fun h => hscope (by simp [h])⟩
      rw [hselected, List.append_assoc, List.singleton_append]

theorem scanSnapshots_unseen {id : SessionId} (hlimit : ∀ n, limit = some n → 0 < n)
    (snapshots : List (StoredSession ρ)) :
    match following StoredSession.sessionId id snapshots with
    | none => scanSnapshots (some id) limit ⟨[], false, false⟩ snapshots = ⟨[], false, false⟩
    | some rest =>
      (scanSnapshots (some id) limit ⟨[], false, false⟩ snapshots).selected = page limit rest ∧
        (scanSnapshots (some id) limit ⟨[], false, false⟩ snapshots).cursorInScope = true := by
  induction snapshots with
  | nil => rfl
  | cons snapshot snapshots ih =>
    rw [following, scanSnapshots]
    simp only [Bool.false_eq_true, if_false, Bool.false_or, Option.some.injEq]
    by_cases hid : snapshot.sessionId = id
    · rw [if_pos hid, decide_eq_true hid.symm]
      obtain ⟨hselected, hscope⟩ := @scanSnapshots_seen _ (some id) _ [] true hlimit snapshots
      exact ⟨hselected, hscope rfl⟩
    · rw [if_neg hid, decide_eq_false (Ne.symm hid)]
      exact ih

/-- `paginate_session_snapshots` is the page of what is behind the cursor. -/
theorem paginate_eq (snapshots : List (StoredSession ρ)) (cursor : Option SessionId)
    (hlimit : ∀ n, limit = some n → 0 < n) :
    paginateSessionSnapshots snapshots cursor limit =
      match behind StoredSession.sessionId snapshots cursor with
      | some rest => .ok (page limit rest)
      | none => .error ("session cursor not found: " ++ cursor.getD "") := by
  rw [paginateSessionSnapshots, if_neg (limit_accepted hlimit)]
  cases cursor with
  | none =>
    obtain ⟨hselected, -⟩ :=
      @scanSnapshots_seen _ none _ [] false hlimit snapshots
    exact congrArg Except.ok hselected
  | some id =>
    have hscan := @scanSnapshots_unseen _ _ id hlimit snapshots
    simp only [behind, Option.isNone_some]
    cases hfollow : following StoredSession.sessionId id snapshots with
    | none =>
      rw [hfollow] at hscan
      dsimp only at hscan ⊢
      rw [hscan]
      rfl
    | some rest =>
      rw [hfollow] at hscan
      dsimp only at hscan ⊢
      rw [if_pos hscan.2, hscan.1]

end Scan

/-! ## Newest first -/

theorem momentKey_injective {sessions : StoredSessions ρ} {a b : StoredSession ρ} (ha : a ∈ sessions.rows)
    (hb : b ∈ sessions.rows) (h : a.momentKey = b.momentKey) : a = b := by
  simp only [StoredSession.momentKey, EmbeddingLike.apply_eq_iff_eq, Prod.mk.injEq] at h
  exact List.inj_on_of_nodup_map sessions.nodup ha hb h.2

theorem textKey_injective {sessions : StoredSessions ρ} {a b : StoredSession ρ} (ha : a ∈ sessions.rows)
    (hb : b ∈ sessions.rows) (h : a.textKey = b.textKey) : a = b := by
  simp only [StoredSession.textKey, EmbeddingLike.apply_eq_iff_eq, Prod.mk.injEq] at h
  exact List.inj_on_of_nodup_map sessions.nodup ha hb h.2

section Descending

variable {κ : Type} [LinearOrder κ] {key : StoredSession ρ → κ} {sessions : StoredSessions ρ}

theorem descending_perm (key : StoredSession ρ → κ) (rows : List (StoredSession ρ)) :
    (descending key rows).Perm rows :=
  List.perm_insertionSort _ rows

theorem nodup_descending (key : StoredSession ρ → κ) (sessions : StoredSessions ρ) :
    ((descending key sessions.rows).map StoredSession.sessionId).Nodup :=
  ((descending_perm key sessions.rows).map StoredSession.sessionId).nodup_iff.mpr sessions.nodup

theorem descending_filter (p : StoredSession ρ → Bool) :
    (descending key sessions.rows).filter p = descending key (sessions.rows.filter p) := by
  have : Std.Total fun a b : StoredSession ρ => key b ≤ key a := ⟨fun _ _ => le_total _ _⟩
  have : IsTrans (StoredSession ρ) fun a b => key b ≤ key a := ⟨fun _ _ _ hab hbc => hbc.trans hab⟩
  exact filter_insertionSort p

variable (hkey : ∀ a ∈ sessions.rows, ∀ b ∈ sessions.rows, key a = key b → a = b)

include hkey

/-- Sessions with keys of their own are strictly in order. -/
theorem descending_pairwise : (descending key sessions.rows).Pairwise fun a b => key b < key a := by
  have : Std.Total fun a b : StoredSession ρ => key b ≤ key a := ⟨fun _ _ => le_total _ _⟩
  have : IsTrans (StoredSession ρ) fun a b => key b ≤ key a := ⟨fun _ _ _ hab hbc => hbc.trans hab⟩
  have hle : (descending key sessions.rows).Pairwise fun a b => key b ≤ key a :=
    List.pairwise_insertionSort _ sessions.rows
  have hne : (descending key sessions.rows).Pairwise fun a b => a.sessionId ≠ b.sessionId := by
    rw [← List.pairwise_map]
    exact nodup_descending key sessions
  refine (hle.and hne).imp_of_mem fun {a b} ha hb hab => lt_of_le_of_ne hab.1 fun heq => hab.2 ?_
  have hmem : ∀ c ∈ descending key sessions.rows, c ∈ sessions.rows := fun c hc =>
    (descending_perm key sessions.rows).mem_iff.mp hc
  rw [hkey b (hmem b hb) a (hmem a ha) heq]

end Descending

/-! ## The listings -/

namespace StoredSessions

variable {sessions : StoredSessions ρ}

theorem listSessions_eq (cursor : Option SessionId) {limit : Option Int}
    (hlimit : ∀ n, limit = some n → 0 < n) :
    sessions.listSessions cursor limit =
      match behind StoredSession.sessionId (descending StoredSession.momentKey sessions.rows) cursor with
      | some rest => .ok (page limit rest)
      | none => .error ("session cursor not found: " ++ cursor.getD "") :=
  paginate_eq _ cursor hlimit

theorem cursorKey_found {id : SessionId} {rest : List (StoredSession ρ)}
    (h : following StoredSession.sessionId id (descending StoredSession.textKey sessions.rows) = some rest) :
    ∃ key, sessions.sessionCursorKey id = .ok key ∧
      descending StoredSession.textKey (sessions.rows.filter fun row => decide (row.textKey < key)) = rest := by
  have hkey : ∀ a ∈ sessions.rows, ∀ b ∈ sessions.rows, a.textKey = b.textKey → a = b :=
    fun a ha b hb => textKey_injective ha hb
  obtain ⟨row, hrow, hid, hrest⟩ :=
    following_pairwise (fun a b hab => not_lt_of_gt hab) (descending_pairwise hkey) h
  have hmem : row ∈ sessions.rows := (descending_perm _ _).mem_iff.mp hrow
  refine ⟨row.textKey, ?_, ?_⟩
  · rw [sessionCursorKey]
    cases hfind : sessions.rows.find? fun r => decide (r.sessionId = id) with
    | none =>
      have hnone := List.find?_eq_none.mp hfind row hmem
      simp [hid] at hnone
    | some other =>
      have hother := List.find?_some hfind
      rw [decide_eq_true_eq] at hother
      rw [List.inj_on_of_nodup_map sessions.nodup (List.mem_of_find?_eq_some hfind) hmem
        (hother.trans hid.symm)]
  · rw [← descending_filter, hrest]

theorem cursorKey_missing {id : SessionId}
    (h : following StoredSession.sessionId id (descending StoredSession.textKey sessions.rows) = none) :
    sessions.sessionCursorKey id = .error (.raised ("session cursor not found: " ++ id)) := by
  have hnone : (sessions.rows.find? fun row => decide (row.sessionId = id)) = none := by
    rw [List.find?_eq_none]
    intro row hrow hid
    rw [decide_eq_true_eq] at hid
    exact following_eq_none.mp h (List.mem_map.mpr ⟨row, (descending_perm _ _).mem_iff.mpr hrow, hid⟩)
  rw [sessionCursorKey, hnone]

theorem listSessionsSync_eq (cursor : Option SessionId) {limit : Option Int}
    (hlimit : ∀ n, limit = some n → 0 < n ∧ n < 2 ^ 63) :
    sessions.listSessionsSync cursor limit =
      match behind StoredSession.sessionId (descending StoredSession.textKey sessions.rows) cursor with
      | some rest => .ok (page limit rest)
      | none => .error (.raised ("session cursor not found: " ++ cursor.getD "")) := by
  have hfetch : ∀ rows : List (StoredSession ρ), fetch (ε := String) limit rows = .ok (page limit rows) :=
    fetch_page fun n hn => (hlimit n hn).2
  rw [listSessionsSync, if_neg (limit_accepted fun n hn => (hlimit n hn).1)]
  cases cursor with
  | none =>
    simp only [Option.mapM_none, pure_bind, Option.all_none, List.filter_true, hfetch, behind]
  | some id =>
    rw [behind, Option.mapM_some]
    cases hfollow : following StoredSession.sessionId id
        (descending StoredSession.textKey sessions.rows) with
    | none =>
      rw [cursorKey_missing hfollow]
      rfl
    | some rest =>
      obtain ⟨key, hk, hrest⟩ := cursorKey_found hfollow
      rw [hk]
      simp only [Functor.map, Except.map, bind, Except.bind, Option.all_some, hrest, hfetch]

/-- Following the cursors in memory, each session is read once, the newest first. -/
theorem listSessions_enumerates (sessions : StoredSessions ρ) {n : Int} (hn : 1 ≤ n) :
    Enumerates StoredSession.sessionId (fun cursor => sessions.listSessions cursor (some n)) none
      (descending StoredSession.momentKey sessions.rows) := by
  have hlimit : ∀ m, some n = some m → 0 < m := fun m hm => Option.some.inj hm ▸ hn
  refine enumerates (nodup_descending _ _) (n := n.toNat) (by omega) (fun cursor rest h => ?_) rfl
  rw [listSessions_eq cursor hlimit, h]
  rfl

theorem listSessionsSync_enumerates (sessions : StoredSessions ρ) {n : Int} (hn : 1 ≤ n ∧ n < 2 ^ 63) :
    Enumerates StoredSession.sessionId (fun cursor => sessions.listSessionsSync cursor (some n)) none
      (descending StoredSession.textKey sessions.rows) := by
  have hlimit : ∀ m, some n = some m → 0 < m ∧ m < 2 ^ 63 := fun m hm => Option.some.inj hm ▸ hn
  refine enumerates (nodup_descending _ _) (n := n.toNat) (by omega) (fun cursor rest h => ?_) rfl
  rw [listSessionsSync_eq cursor hlimit, h]
  rfl

/-- Any two sessions are ordered by their texts as they are by their moments. -/
def TextsOrdered (sessions : StoredSessions ρ) : Prop :=
  ∀ a ∈ sessions.rows, ∀ b ∈ sessions.rows, a.textKey < b.textKey ↔ a.momentKey < b.momentKey

theorem descending_eq_iff (sessions : StoredSessions ρ) :
    descending StoredSession.textKey sessions.rows = descending StoredSession.momentKey sessions.rows ↔
      sessions.TextsOrdered := by
  have htext := (@descending_pairwise _ _ _ StoredSession.textKey sessions)
    fun a ha b hb => textKey_injective ha hb
  have hmoment := (@descending_pairwise _ _ _ StoredSession.momentKey sessions)
    fun a ha b hb => momentKey_injective ha hb
  constructor
  · intro heq
    rw [heq] at htext
    -- of two sessions in the list, one is before the other in both orders
    have hboth : (descending StoredSession.momentKey sessions.rows).Pairwise fun a b =>
        (b.textKey < a.textKey ∧ b.momentKey < a.momentKey) ∨
          (a.textKey < b.textKey ∧ a.momentKey < b.momentKey) :=
      (htext.and hmoment).imp Or.inl
    have : Std.Symm fun a b : StoredSession ρ => (b.textKey < a.textKey ∧ b.momentKey < a.momentKey) ∨
        (a.textKey < b.textKey ∧ a.momentKey < b.momentKey) := ⟨fun _ _ => Or.symm⟩
    have hmem : ∀ c ∈ sessions.rows, c ∈ descending StoredSession.momentKey sessions.rows :=
      fun c hc => (descending_perm _ _).mem_iff.mpr hc
    intro a ha b hb
    by_cases hab : a = b
    · rw [hab]
      exact iff_of_false (lt_irrefl _) (lt_irrefl _)
    · rcases hboth.forall (hmem a ha) (hmem b hb) hab with ⟨ht, hm⟩ | ⟨ht, hm⟩
      · exact iff_of_false (not_lt_of_gt ht) (not_lt_of_gt hm)
      · exact iff_of_true ht hm
  · intro hordered
    have hperm : (descending StoredSession.textKey sessions.rows).Perm
        (descending StoredSession.momentKey sessions.rows) :=
      (descending_perm _ _).trans (descending_perm _ _).symm
    have hmoment' : (descending StoredSession.momentKey sessions.rows).Pairwise fun a b =>
        b.textKey < a.textKey := by
      refine hmoment.imp_of_mem fun {a b} ha hb h => ?_
      exact (hordered b ((descending_perm _ _).mem_iff.mp hb) a
        ((descending_perm _ _).mem_iff.mp ha)).mpr h
    exact hperm.eq_of_pairwise (fun a b _ _ hab hba => absurd hab (not_lt_of_gt hba)) htext hmoment'

/-- A session that comes before another was created at an earlier time of day and date, as the clocks
showed it; or at the same, and either the offsets are the same or the other clock is behind UTC. -/
def ClocksOrdered (sessions : StoredSessions ρ) : Prop :=
  ∀ a ∈ sessions.rows, ∀ b ∈ sessions.rows, a.momentKey < b.momentKey →
    a.createdAt.clock < b.createdAt.clock ∨
      a.createdAt.clock = b.createdAt.clock ∧
        (a.createdAt.offset = b.createdAt.offset ∨ b.createdAt.offset < 0)

theorem textKey_lt_iff {a b : StoredSession ρ} (h : a.momentKey < b.momentKey) :
    a.textKey < b.textKey ↔ a.createdAt.clock < b.createdAt.clock ∨
      a.createdAt.clock = b.createdAt.clock ∧
        (a.createdAt.offset = b.createdAt.offset ∨ b.createdAt.offset < 0) := by
  rw [StoredSession.momentKey, StoredSession.momentKey, Prod.Lex.toLex_lt_toLex] at h
  rw [StoredSession.textKey, StoredSession.textKey, Prod.Lex.toLex_lt_toLex]
  dsimp only at h ⊢
  rw [OffsetDateTime.isoformat_lt_iff, OffsetDateTime.isoformat_injective.eq_iff]
  simp only [OffsetDateTime.moment] at h
  by_cases hclock : a.createdAt.clock = b.createdAt.clock
  · -- at one time of the clocks, the moments are told apart by the offsets
    have heq : a.createdAt = b.createdAt ↔ a.createdAt.offset = b.createdAt.offset := by
      constructor
      · exact congrArg _
      · intro hoffset
        exact OffsetDateTime.ext_iff.mpr ⟨hclock, hoffset⟩
    rw [hclock] at h
    simp only [hclock, heq, lt_irrefl, false_or, true_and]
    rcases h with h | ⟨h, hid⟩
    · have hne : a.createdAt.offset ≠ b.createdAt.offset := by omega
      simp only [hne, false_and, or_false, false_or]
      omega
    · have hoffset : a.createdAt.offset = b.createdAt.offset := by omega
      simp [hoffset, hid]
  · have hne : a.createdAt ≠ b.createdAt := fun h => hclock (congrArg _ h)
    simp [hclock, hne]

theorem textsOrdered_iff (sessions : StoredSessions ρ) :
    sessions.TextsOrdered ↔ sessions.ClocksOrdered := by
  constructor
  · intro h a ha b hb hab
    exact (textKey_lt_iff hab).mp ((h a ha b hb).mpr hab)
  · intro h a ha b hb
    rcases lt_trichotomy a.momentKey b.momentKey with hab | hab | hba
    · exact iff_of_true ((textKey_lt_iff hab).mpr (h a ha b hb hab)) hab
    · obtain rfl := momentKey_injective ha hb hab
      exact iff_of_false (lt_irrefl _) (lt_irrefl _)
    · have hlt := (textKey_lt_iff hba).mpr (h b hb a ha hba)
      exact iff_of_false (not_lt_of_gt hlt) (not_lt_of_gt hba)

/-- Sessions that were all created under one offset are in order. -/
theorem clocksOrdered_of_offset {sessions : StoredSessions ρ} {offset : Int}
    (h : ∀ a ∈ sessions.rows, a.createdAt.offset = offset) : sessions.ClocksOrdered := by
  intro a ha b hb hab
  rw [StoredSession.momentKey, StoredSession.momentKey, Prod.Lex.toLex_lt_toLex] at hab
  simp only [OffsetDateTime.moment, h a ha, h b hb] at hab ⊢
  rcases hab with hlt | ⟨heq, -⟩
  · exact .inl (DateTime.microseconds_strictMono.lt_iff_lt.mp (by omega))
  · exact .inr ⟨DateTime.microseconds_strictMono.injective (by omega), .inl trivial⟩

def ListedAlike (sessions : StoredSessions ρ) (n : Int) : Prop :=
  ∀ cursor, sessions.listSessionsSync cursor (some n) =
    (sessions.listSessions cursor (some n)).mapError .raised

theorem listedAlike_iff (sessions : StoredSessions ρ) {n : Int} (hn : 1 ≤ n) :
    sessions.ListedAlike n ↔ n < 2 ^ 63 ∧ sessions.ClocksOrdered := by
  rw [← textsOrdered_iff, ← descending_eq_iff]
  have hlimit : ∀ m, some n = some m → 0 < m := fun m hm => Option.some.inj hm ▸ hn
  constructor
  · intro h
    have hlt : n < 2 ^ 63 := by
      by_contra hge
      have hfirst := h none
      rw [listSessions_eq none hlimit, listSessionsSync, if_neg (limit_accepted hlimit)] at hfirst
      simp only [Option.mapM_none, pure_bind, fetch, if_pos (not_lt.mp hge)] at hfirst
      cases hfirst
    refine ⟨hlt, ?_⟩
    -- both readers are given the same pages
    obtain ⟨⟨pages, hpages⟩, hflatten⟩ := listSessions_enumerates sessions hn
    have hread : (fun cursor => sessions.listSessionsSync cursor (some n)) = fun cursor =>
        (sessions.listSessions cursor (some n)).mapError QueryError.raised := funext h
    have hpages' := hpages.mapError QueryError.raised
    rw [← hread] at hpages'
    rw [← hflatten pages hpages, (listSessionsSync_enumerates sessions ⟨hn, hlt⟩).2 pages hpages']
  · rintro ⟨hlt, heq⟩ cursor
    rw [listSessionsSync_eq cursor fun m hm => ⟨hlimit m hm, Option.some.inj hm ▸ hlt⟩,
      listSessions_eq cursor hlimit, heq]
    cases behind StoredSession.sessionId (descending StoredSession.momentKey sessions.rows) cursor <;> rfl

/-- **Session pages.** In memory the cursors lead through every session once, the newest first. The
database gives the same pages just where the page size is a 64-bit integer and the clocks are in order. -/
theorem session_pages (sessions : StoredSessions ρ) {n : Int} (hn : 1 ≤ n) :
    (∃ newest : List (StoredSession ρ), newest.Perm sessions.rows ∧
      newest.Pairwise (fun a b => b.momentKey < a.momentKey) ∧
      Enumerates StoredSession.sessionId (fun cursor => sessions.listSessions cursor (some n)) none newest) ∧
    (sessions.ListedAlike n ↔ n < 2 ^ 63 ∧ sessions.ClocksOrdered) :=
  ⟨⟨descending StoredSession.momentKey sessions.rows, descending_perm _ _,
    descending_pairwise fun _ ha _ hb => momentKey_injective ha hb, listSessions_enumerates sessions hn⟩,
    listedAlike_iff sessions hn⟩

theorem dayOfMarch_isDate : IsDate 2024 3 5 := by decide

theorem hour_isTime (hour : Fin 24) : (hour : Nat) * 3600000000 < 86400000000 := by omega

theorem hours_isOffset (ahead : Fin 24) :
    ((ahead : Nat) * 3600000000 : Int).natAbs < dayMicroseconds := by
  rw [dayMicroseconds]
  omega

/-- A session that was created when a clock so many hours ahead of UTC showed an hour of a day. -/
def sessionAt (id : SessionId) (hour : Fin 24) (ahead : Fin 24) : StoredSession Unit where
  sessionId := id
  createdAt :=
    { clock :=
        { year := 2024, month := 3, day := 5, microsecond := hour * 3600000000,
          isDate := dayOfMarch_isDate, isTime := hour_isTime hour }
      offset := ahead * 3600000000
      isOffset := hours_isOffset ahead }
  rest := ()

def twoSessions (hour hour' ahead ahead' : Fin 24) : StoredSessions Unit where
  rows := [sessionAt "a" hour ahead, sessionAt "b" hour' ahead']
  nodup := by simp [sessionAt]

theorem session_pages_two : (twoSessions 9 10 0 0).ListedAlike 1 :=
  (session_pages (twoSessions 9 10 0 0) (by decide)).2.mpr
    ⟨by decide, @clocksOrdered_of_offset _ _ 0 fun a ha => by
      rcases List.mem_cons.mp ha with rfl | ha
      · rfl
      · rw [List.mem_singleton.mp ha]
        rfl⟩

/-- Ten o'clock, two hours ahead of UTC, was before nine o'clock UTC; its text comes after. -/
theorem sessions_listed_differently :
    (twoSessions 10 9 2 0).listSessions none (some 1) = .ok [sessionAt "b" 9 0] ∧
      (twoSessions 10 9 2 0).listSessionsSync none (some 1) = .ok [sessionAt "a" 10 2] := by
  decide +kernel

end StoredSessions

end UniversalAgent.Persistence
