import UniversalAgent.Foundation.TwoRuns
import UniversalAgent.Persistence.TenantStore

/-!
# Persistence — TenantIsolation

What one tenant's store on a database can tell of the others' calls: nothing but the numbers of its
rows. Every statement is confined to the rows of its tenant; so is every transaction, since a
rollback restores all rows, and every call.
-/

namespace UniversalAgent.Persistence

open UniversalAgent.Core UniversalAgent.Foundation UniversalAgent.State UniversalAgent.Runtime
open Owned TwoRuns

variable {p : OutboxRow → Bool} {f : OutboxRow → OutboxRow}

/-! ## What a tenant sees -/

def eventNumbering : Numbering EventRow := ⟨EventRow.sequence, fun r => { r with sequence := 0 }⟩

def outboxNumbering : Numbering OutboxRow :=
  ⟨OutboxRow.sequence, fun r => { r with sequence := 0 }⟩

structure SeenAlike (tenant : TenantId) (s t : PostgresDatabase) : Prop where
  sessions : rowsOf tenant s.tables.sessions = rowsOf tenant t.tables.sessions
  events : eventNumbering.Agree (rowsOf tenant s.tables.events) s.nextEvent
    (rowsOf tenant t.tables.events) t.nextEvent
  outbox : outboxNumbering.Agree (rowsOf tenant s.tables.outbox) s.nextOutbox
    (rowsOf tenant t.tables.outbox) t.nextOutbox

def tenantView (tenant : TenantId) : TwoRuns PostgresDatabase where
  rel := SeenAlike tenant
  grows s t := s.nextEvent ≤ t.nextEvent ∧ s.nextOutbox ≤ t.nextOutbox
  grows_refl _ := ⟨le_rfl, le_rfl⟩
  grows_trans h h' := ⟨h.1.trans h'.1, h.2.trans h'.2⟩

/-- A call is confined to a tenant, its result up to `A`. -/
abbrev ConfinedTo {α : Type} (tenant : TenantId) (A : α → α → Prop) (x : PostgresCall α) : Prop :=
  Confined tenantView tenant A x

def PostgresAnswer.unnumbered : PostgresAnswer → PostgresAnswer
  | .outbox rows => .outbox (rows.map outboxNumbering.unnumbered)
  | answer => answer

theorem SeenAlike.empty (tenant : TenantId) : SeenAlike tenant .empty .empty :=
  ⟨rfl, ⟨.nil, .nil, .nil⟩, ⟨.nil, .nil, .nil⟩⟩

/-! ## Outbox predicates and updates do not go by numbers -/

theorem ignores_of (h : ∀ r, p { r with sequence := 0 } = p r) : outboxNumbering.Ignores p := by
  intro a b hab
  rw [← h a, ← h b]
  exact congrArg p hab

theorem keeps_of (h : ∀ r, (f r).sequence = r.sequence)
    (h' : ∀ r, f { r with sequence := 0 } = { f r with sequence := 0 }) :
    outboxNumbering.Keeps f := by
  refine ⟨h, fun a b hab => ?_⟩
  change { f a with sequence := 0 } = { f b with sequence := 0 }
  rw [← h' a, ← h' b]
  exact congrArg f hab

theorem expired_ignores (now : Instant) : outboxNumbering.Ignores (OutboxRow.expired now) :=
  ignores_of fun _ => rfl

theorem available_ignores (now : Instant) : outboxNumbering.Ignores (OutboxRow.available now) :=
  ignores_of fun _ => rfl

theorem markable_ignores (eventIds : List EventId) (publisherId : Option String) :
    outboxNumbering.Ignores (OutboxRow.markable eventIds publisherId) :=
  ignores_of fun _ => rfl

theorem releasable_ignores (eventIds : List EventId) (publisherId : String) :
    outboxNumbering.Ignores (OutboxRow.releasable eventIds publisherId) :=
  ignores_of fun _ => rfl

theorem reclaim_keeps (now : Instant) : outboxNumbering.Keeps (OutboxRow.reclaim now) :=
  keeps_of (fun _ => rfl) fun _ => rfl

theorem lease_keeps (request : LeaseRequest) : outboxNumbering.Keeps (OutboxRow.lease request) :=
  keeps_of (fun _ => rfl) fun _ => rfl

theorem markPublished_keeps : outboxNumbering.Keeps OutboxRow.markPublished :=
  keeps_of (fun _ => rfl) fun _ => rfl

theorem release_keeps (retryAt : Instant) : outboxNumbering.Keeps (OutboxRow.release retryAt) :=
  keeps_of (fun _ => rfl) fun _ => rfl

theorem eventId_of_same {a b : OutboxRow}
    (h : outboxNumbering.unnumbered a = outboxNumbering.unnumbered b) : a.eventId = b.eventId := by
  have he : (outboxNumbering.unnumbered a).event = (outboxNumbering.unnumbered b).event := by rw [h]
  exact congrArg RuntimeEvent.id he

theorem event_of_same {a b : EventRow}
    (h : eventNumbering.unnumbered a = eventNumbering.unnumbered b) : a.event = b.event := by
  have he : (eventNumbering.unnumbered a).event = (eventNumbering.unnumbered b).event := by rw [h]
  exact he

/-! ## Statements are confined -/

namespace PostgresCall

variable {tenant : TenantId}

variable {α : Type}

theorem confined_read {A : α → α → Prop} {read : PostgresDatabase → α}
    (h : ∀ s t, SeenAlike tenant s t → A (read s) (read t)) :
    ConfinedTo tenant A (do return read (← get)) where
  alike s t hst := ⟨h s t hst, hst, (tenantView tenant).grows_refl s,
    (tenantView tenant).grows_refl t⟩
  unseen other _ s _ hst := ⟨hst, (tenantView other).grows_refl s⟩

theorem selectSessions_confined (p : SessionRow → Bool) : ConfinedTo tenant Eq (selectSessions tenant p) := by
  refine confined_read fun s t hst => ?_
  rw [select_eq, select_eq, hst.sessions]

theorem selectEvents_confined : ConfinedTo tenant eventNumbering.Same (selectEvents tenant) := by
  refine confined_read fun s t hst => ?_
  rw [select_eq, select_eq, List.filter_true, List.filter_true]
  have hs := hst.events.left.increasing.sorted
  have ht := hst.events.right.increasing.sorted
  exact hs.symm ▸ ht.symm ▸ hst.events.same

theorem selectOutbox_confined (hp : outboxNumbering.Ignores p) :
    ConfinedTo tenant outboxNumbering.Same (selectOutbox tenant p) := by
  refine confined_read fun s t hst => ?_
  rw [select_eq, select_eq]
  have hs := hst.outbox.left.increasing.filter (p := p) |>.sorted
  have ht := hst.outbox.right.increasing.filter (p := p) |>.sorted
  exact hs.symm ▸ ht.symm ▸ hst.outbox.same.filter hp

theorem updateSessions_confined (p : SessionRow → Bool) (f : SessionRow → SessionRow) :
    ConfinedTo tenant Eq (updateSessions tenant p f) where
  alike s t hst := by
    refine ⟨?_, ⟨?_, hst.events, hst.outbox⟩, ⟨le_rfl, le_rfl⟩, ⟨le_rfl, le_rfl⟩⟩
    · rw [select_eq, select_eq, hst.sessions]
    · exact rowsOf_update.trans ((congrArg _ hst.sessions).trans rowsOf_update.symm)
  unseen other hne s t hst :=
    ⟨⟨(rowsOf_update_of_ne hne).trans hst.sessions, hst.events, hst.outbox⟩, ⟨le_rfl, le_rfl⟩⟩

theorem updateOutbox_unseen {other : TenantId} (hne : tenant ≠ other) (p : OutboxRow → Bool)
    (f : OutboxRow → OutboxRow) : (tenantView other).Unseen (updateOutbox tenant p f) := by
  intro s t hst
  have hrows : rowsOf other (Owned.update tenant p f s.tables.outbox)
      = rowsOf other s.tables.outbox := rowsOf_update_of_ne hne
  exact ⟨⟨hst.sessions, hst.events, hrows.symm ▸ hst.outbox⟩, ⟨le_rfl, le_rfl⟩⟩

theorem updateOutbox_confined
    (hp : outboxNumbering.Ignores p) (hf : outboxNumbering.Keeps f) :
    ConfinedTo tenant Eq (updateOutbox tenant p f) where
  alike s t hst := by
    refine ⟨?_, ⟨hst.sessions, hst.events, ?_⟩, ⟨le_rfl, le_rfl⟩, ⟨le_rfl, le_rfl⟩⟩
    · rw [select_eq, select_eq]
      exact (hst.outbox.same.filter hp).length_eq
    · have hrows := hst.outbox.update hp hf
      rw [← rowsOf_update, ← rowsOf_update] at hrows
      exact hrows
  unseen _ hne := updateOutbox_unseen hne p f

theorem insertSession_confined (row : SessionRow) :
    ConfinedTo tenant Eq (insertSession tenant row) where
  alike s t hst := by
    simp only [insertSession, bind, EStateM.bind, get, getThe, MonadStateOf.get, EStateM.get]
    by_cases hmem : row.sessionId ∈ (rowsOf tenant s.tables.sessions).map SessionRow.sessionId
    · rw [if_pos hmem, if_pos (hst.sessions ▸ hmem)]
      exact ⟨rfl, hst, ⟨le_rfl, le_rfl⟩, ⟨le_rfl, le_rfl⟩⟩
    · rw [if_neg hmem, if_neg (hst.sessions ▸ hmem)]
      refine ⟨rfl, ⟨?_, hst.events, hst.outbox⟩, ⟨le_rfl, le_rfl⟩, ⟨le_rfl, le_rfl⟩⟩
      exact (rowsOf_insert row).trans ((congrArg (· ++ [row]) hst.sessions).trans
        (rowsOf_insert row).symm)
  unseen other hne s t hst := by
    simp only [insertSession, bind, EStateM.bind, get, getThe, MonadStateOf.get, EStateM.get]
    split
    · exact ⟨hst, ⟨le_rfl, le_rfl⟩⟩
    · exact ⟨⟨(rowsOf_insert_of_ne hne row).trans hst.sessions, hst.events, hst.outbox⟩,
        ⟨le_rfl, le_rfl⟩⟩

/-- An insert that a number was drawn for, whether it is done or not. -/
theorem insertEvent_confined (event : RuntimeEvent) :
    ConfinedTo tenant Eq (insertEvent tenant event) where
  alike s t hst := by
    simp only [insertEvent, bind, EStateM.bind, get, getThe, MonadStateOf.get, EStateM.get, set,
      EStateM.set]
    have hids : ((rowsOf tenant s.tables.events).map fun r => r.event.id)
        = (rowsOf tenant t.tables.events).map fun r => r.event.id :=
      hst.events.same.map_eq fun a b hab => congrArg RuntimeEvent.id (event_of_same hab)
    by_cases hmem : event.id ∈ (rowsOf tenant s.tables.events).map fun r => r.event.id
    · rw [if_pos hmem, if_pos (hids ▸ hmem)]
      exact ⟨rfl, ⟨hst.sessions, hst.events.mono (Nat.le_succ _) (Nat.le_succ _), hst.outbox⟩,
        ⟨Nat.le_succ _, le_rfl⟩, ⟨Nat.le_succ _, le_rfl⟩⟩
    · rw [if_neg hmem, if_neg (hids ▸ hmem)]
      have hevents := hst.events.insert ⟨s.nextEvent, event⟩ ⟨t.nextEvent, event⟩ rfl rfl rfl
      rw [← rowsOf_insert, ← rowsOf_insert] at hevents
      exact ⟨rfl, ⟨hst.sessions, hevents, hst.outbox⟩, ⟨Nat.le_succ _, le_rfl⟩,
        ⟨Nat.le_succ _, le_rfl⟩⟩
  unseen other hne s t hst := by
    simp only [insertEvent, bind, EStateM.bind, get, getThe, MonadStateOf.get, EStateM.get, set,
      EStateM.set]
    have hevents := hst.events.mono (Nat.le_succ _) le_rfl
    split
    · exact ⟨⟨hst.sessions, hevents, hst.outbox⟩, ⟨Nat.le_succ _, le_rfl⟩⟩
    · rw [← rowsOf_insert_of_ne hne ⟨s.nextEvent, event⟩] at hevents
      exact ⟨⟨hst.sessions, hevents, hst.outbox⟩, ⟨Nat.le_succ _, le_rfl⟩⟩

theorem insertOutbox_confined (event : RuntimeEvent) (now : Instant) :
    ConfinedTo tenant Eq (insertOutbox tenant event now) where
  alike s t hst := by
    simp only [insertOutbox, bind, EStateM.bind, get, getThe, MonadStateOf.get, EStateM.get, set,
      EStateM.set]
    have hids : (rowsOf tenant s.tables.outbox).map OutboxRow.eventId
        = (rowsOf tenant t.tables.outbox).map OutboxRow.eventId :=
      hst.outbox.same.map_eq fun a b hab => eventId_of_same hab
    by_cases hmem : event.id ∈ (rowsOf tenant s.tables.outbox).map OutboxRow.eventId
    · rw [if_pos hmem, if_pos (hids ▸ hmem)]
      exact ⟨rfl, ⟨hst.sessions, hst.events, hst.outbox.mono (Nat.le_succ _) (Nat.le_succ _)⟩,
        ⟨le_rfl, Nat.le_succ _⟩, ⟨le_rfl, Nat.le_succ _⟩⟩
    · rw [if_neg hmem, if_neg (hids ▸ hmem)]
      have houtbox := hst.outbox.insert ⟨s.nextOutbox, event, .pending, 0, now, none, none⟩
        ⟨t.nextOutbox, event, .pending, 0, now, none, none⟩ rfl rfl rfl
      rw [← rowsOf_insert, ← rowsOf_insert] at houtbox
      exact ⟨rfl, ⟨hst.sessions, hst.events, houtbox⟩, ⟨le_rfl, Nat.le_succ _⟩,
        ⟨le_rfl, Nat.le_succ _⟩⟩
  unseen other hne s t hst := by
    simp only [insertOutbox, bind, EStateM.bind, get, getThe, MonadStateOf.get, EStateM.get, set,
      EStateM.set]
    have houtbox := hst.outbox.mono (Nat.le_succ _) le_rfl
    split
    · exact ⟨⟨hst.sessions, hst.events, houtbox⟩, ⟨le_rfl, Nat.le_succ _⟩⟩
    · rw [← rowsOf_insert_of_ne hne ⟨s.nextOutbox, event, .pending, 0, now, none, none⟩] at houtbox
      exact ⟨⟨hst.sessions, hst.events, houtbox⟩, ⟨le_rfl, Nat.le_succ _⟩⟩

def leasable (tenant : TenantId) (request : LeaseRequest) (s : PostgresDatabase) : List OutboxRow :=
  ((rowsOf tenant s.tables.outbox).filter (OutboxRow.available request.now)).take
    request.limit.toNat

theorem leaseAvailable_run (request : LeaseRequest) {s : PostgresDatabase}
    (h : outboxNumbering.Increasing (rowsOf tenant s.tables.outbox)) :
    PostgresStore.leaseAvailable tenant request s =
      if (leasable tenant request s).isEmpty then .ok [] s
      else .ok ((leasable tenant request s).map OutboxRow.eventId)
        { s with tables := { s.tables with
          outbox := Owned.update tenant (OutboxRow.among (leasable tenant request s))
            (OutboxRow.lease request) s.tables.outbox } } := by
  have hsorted : (Owned.select tenant (OutboxRow.available request.now) s.tables.outbox).insertionSort
      (fun a b => a.sequence ≤ b.sequence)
      = (rowsOf tenant s.tables.outbox).filter (OutboxRow.available request.now) := by
    rw [select_eq]
    exact (h.filter (p := OutboxRow.available request.now)).sorted
  have hselect : selectOutbox tenant (OutboxRow.available request.now) s
      = .ok ((rowsOf tenant s.tables.outbox).filter (OutboxRow.available request.now)) s :=
    congrArg (EStateM.Result.ok · s) hsorted
  simp only [PostgresStore.leaseAvailable, bind, EStateM.bind, hselect]
  unfold leasable
  split
  · rfl
  · rfl

/-- The two statements of a lease: the rows that are updated are those selected. -/
theorem leaseAvailable_confined (request : LeaseRequest) :
    ConfinedTo tenant Eq (PostgresStore.leaseAvailable tenant request) where
  alike s t hst := by
    have hp := available_ignores request.now
    have hsame : outboxNumbering.Same (leasable tenant request s) (leasable tenant request t) :=
      (hst.outbox.same.filter hp).take _
    have hempty : (leasable tenant request s).isEmpty = (leasable tenant request t).isEmpty := by
      rw [Bool.eq_iff_iff, List.isEmpty_iff_length_eq_zero, List.isEmpty_iff_length_eq_zero,
        hsame.length_eq]
    rw [leaseAvailable_run request hst.outbox.left.increasing,
      leaseAvailable_run request hst.outbox.right.increasing, hempty]
    split
    · exact ⟨rfl, hst, ⟨le_rfl, le_rfl⟩, ⟨le_rfl, le_rfl⟩⟩
    · have houtbox := hst.outbox.updateSelected hp (lease_keeps request) request.limit.toNat
      refine ⟨hsame.map_eq fun a b hab => eventId_of_same hab, ⟨hst.sessions, hst.events, ?_⟩,
        ⟨le_rfl, le_rfl⟩, ⟨le_rfl, le_rfl⟩⟩
      simp only [rowsOf_update, OutboxRow.among, decide_eq_true_eq]
      exact houtbox
  unseen other hne := by
    refine ((selectOutbox_confined (available_ignores request.now)).unseen other hne).bind fun rows => ?_
    refine .choose .ret ?_
    exact (updateOutbox_unseen hne _ _).bind fun _ => .ret

/-! ## Transactions -/

theorem transaction_run (x : PostgresCall α) (s : PostgresDatabase) :
    transaction x s = match x s with
      | .ok a s' => .ok a s'
      | .error e s' => .error e { s' with tables := s.tables } := by
  change EStateM.tryCatch x _ s = _
  unfold EStateM.tryCatch
  cases x s with
  | ok a s' => rfl
  | error e s' => rfl

/-- The rows of a database with its sequences gone on. -/
theorem SeenAlike.mono {s s' t t' : PostgresDatabase} (h : SeenAlike tenant s t)
    (hs : (tenantView tenant).grows s s') (ht : (tenantView tenant).grows t t') :
    SeenAlike tenant { s' with tables := s.tables } { t' with tables := t.tables } :=
  ⟨h.sessions, h.events.mono hs.1 ht.1, h.outbox.mono hs.2 ht.2⟩

/-- A rollback keeps the sequences, and the rows of everyone. -/
theorem transaction_confined {A : α → α → Prop} {x : PostgresCall α}
    (h : ConfinedTo tenant A x) : ConfinedTo tenant A (transaction x) where
  alike s t hst := by
    rw [transaction_run, transaction_run]
    rcases (h.alike s t hst).cases with ⟨a, b, s', t', hs, ht, hends⟩ |
      ⟨e, s', t', hs, ht, -, hgs, hgt⟩
    · rw [hs, ht]
      exact hends
    · rw [hs, ht]
      exact ⟨rfl, SeenAlike.mono hst hgs hgt, hgs, hgt⟩
  unseen other hne s t hst := by
    obtain ⟨hrel, hgrows⟩ := h.unseen other hne s t hst
    rw [transaction_run]
    cases hs : x s with
    | ok a s' =>
      rw [hs] at hrel hgrows
      exact ⟨hrel, hgrows⟩
    | error e s' =>
      rw [hs] at hgrows
      exact ⟨SeenAlike.mono hst hgrows ⟨le_rfl, le_rfl⟩, hgrows⟩

theorem orRaise_confined (r : Except StoreError α) : ConfinedTo tenant Eq (orRaise r) := by
  cases r with
  | ok a => exact .ret rfl
  | error e => exact .raise

end PostgresCall

/-! ## Calls are confined -/

namespace PostgresStore

open PostgresCall

variable (codec : JsonCodec) (iso : IsoFormat) (before : SessionId → SessionId → Bool)
variable {tenant : TenantId}

theorem createSession_confined (snapshot : SessionSnapshot) :
    ConfinedTo tenant Eq (createSession codec iso tenant snapshot) := by
  refine transaction_confined (.bind (orRaise_confined _) fun payload => ?_)
  refine .handle (insertSession_confined _) fun error => ?_
  split
  · exact .raise
  · exact .raise

theorem listedSessions_confined (after : Option SessionId) :
    ConfinedTo tenant Eq (listedSessions before tenant after) := by
  cases after with
  | none => exact selectSessions_confined _
  | some sessionId =>
    refine .bind ?_ fun key => selectSessions_confined _
    refine .bind (selectSessions_confined _) fun rows => ?_
    split
    · exact .ret rfl
    · exact .raise

theorem listSessions_confined (after : Option SessionId) (limit : Option Int) :
    ConfinedTo tenant Eq (listSessions iso before tenant after limit) := by
  refine .choose .raise (.bind (transaction_confined (listedSessions_confined before after)) ?_)
  exact fun rows => orRaise_confined _

theorem loadSession_confined (sessionId : SessionId) :
    ConfinedTo tenant Eq (loadSession iso tenant sessionId) := by
  refine transaction_confined (.bind (selectSessions_confined _) fun rows => ?_)
  split
  · exact orRaise_confined _
  · exact .raise

theorem updateOrConflict_confined (snapshot : SessionSnapshot) :
    ConfinedTo tenant Eq (updateOrConflict codec iso tenant snapshot) := by
  refine .bind (orRaise_confined _) fun payload => ?_
  refine .bind (updateSessions_confined _ _) fun rowcount => .choose ?_ (.ret rfl)
  refine .bind (selectSessions_confined _) fun rows => ?_
  split
  · exact .raise
  · exact .raise

theorem saveSession_confined (snapshot : SessionSnapshot) :
    ConfinedTo tenant Eq (saveSession codec iso tenant snapshot) :=
  transaction_confined (updateOrConflict_confined codec iso snapshot)

theorem insertRuntimeEvent_confined (event : RuntimeEvent) (now : Instant) :
    ConfinedTo tenant Eq (insertRuntimeEvent codec tenant event now) :=
  .bind (orRaise_confined _) fun line =>
    .bind (insertEvent_confined line) fun _ => insertOutbox_confined line now

theorem append_confined (event : RuntimeEvent) (now : Instant) :
    ConfinedTo tenant Eq (append codec tenant event now) := by
  refine .handle (transaction_confined (insertRuntimeEvent_confined codec event now)) fun error => ?_
  split
  · exact .ret rfl
  · exact .raise

theorem all_confined : ConfinedTo tenant Eq (all tenant) :=
  (transaction_confined selectEvents_confined).map fun _ _ h =>
    h.map_eq fun _ _ hab => event_of_same hab

theorem eventsFor_confined (sessionId : SessionId) :
    ConfinedTo tenant Eq (eventsFor tenant sessionId) :=
  .bind all_confined fun _ => .ret rfl

theorem listEvents_confined (sessionId : Option SessionId) (after : Option EventId)
    (limit : Option Int) : ConfinedTo tenant Eq (listEvents tenant sessionId after limit) := by
  cases sessionId
  all_goals
    refine .bind ?_ fun events => ?_
    rotate_left
    · dsimp only
      split
      · exact .ret rfl
      · exact .raise
  · exact all_confined
  · exact eventsFor_confined _

theorem commitSessionEvent_confined (snapshot : SessionSnapshot) (event : RuntimeEvent)
    (now : Instant) : ConfinedTo tenant Eq (commitSessionEvent codec iso tenant snapshot event now) :=
  transaction_confined (.bind (updateOrConflict_confined codec iso snapshot) fun _ =>
    insertRuntimeEvent_confined codec event now)

theorem outboxEvents_confined (status : OutboxStatus) (limit : Option Int) (eventIds : List EventId)
    (unlockedOnly : Bool) :
    ConfinedTo tenant outboxNumbering.Same
      (outboxEvents tenant status limit eventIds unlockedOnly) := by
  refine .choose .raise ((transaction_confined (selectOutbox_confined (ignores_of fun _ => rfl))).map
    fun rows rows' h => ?_)
  cases limit with
  | none => exact h
  | some n => exact h.take n.toNat

theorem leaseOutbox_confined (request : LeaseRequest) :
    ConfinedTo tenant Eq (leaseOutbox tenant request) := by
  refine .choose .raise (.choose .raise (.choose .raise (transaction_confined ?_)))
  exact .bind (updateOutbox_confined (expired_ignores _) (reclaim_keeps _)) fun _ =>
    leaseAvailable_confined request

theorem markOutboxPublished_confined (eventIds : List EventId) (publisherId : Option String) :
    ConfinedTo tenant Eq (markOutboxPublished tenant eventIds publisherId) := by
  refine .choose (.ret rfl) (.choose .raise (transaction_confined ?_))
  exact updateOutbox_confined (markable_ignores eventIds publisherId) markPublished_keeps

theorem releaseOutboxEvents_confined (eventIds : List EventId) (publisherId reason : String)
    (retryAt : Instant) :
    ConfinedTo tenant Eq (releaseOutboxEvents tenant eventIds publisherId reason retryAt) := by
  refine .choose (.ret rfl) (.choose .raise (.choose .raise (transaction_confined ?_)))
  exact updateOutbox_confined (releasable_ignores eventIds publisherId) (release_keeps retryAt)

def alikeProgress (a b : PostgresAnswer ⊕ PostgresStage) : Prop :=
  Sum.map PostgresAnswer.unnumbered id a = Sum.map PostgresAnswer.unnumbered id b

theorem outbox_alike {rows rows' : List OutboxRow} (h : outboxNumbering.Same rows rows') :
    alikeProgress (.inl (.outbox rows)) (.inl (.outbox rows')) :=
  congrArg (fun l => Sum.inl (PostgresAnswer.outbox l)) (h.map_eq fun _ _ hab => hab)

theorem begin_confined (request : PostgresRequest) :
    ConfinedTo tenant alikeProgress (begin codec iso before tenant request) := by
  cases request with
  | createSession snapshot => exact .bind (createSession_confined codec iso snapshot) fun _ => .ret rfl
  | create state => exact .bind (createSession_confined codec iso _) fun _ => .ret rfl
  | listSessions after limit =>
    exact .bind (listSessions_confined iso before after limit) fun _ => .ret rfl
  | loadSession sessionId => exact .bind (loadSession_confined iso sessionId) fun _ => .ret rfl
  | load sessionId => exact .bind (loadSession_confined iso sessionId) fun _ => .ret rfl
  | saveSession snapshot => exact .bind (saveSession_confined codec iso snapshot) fun _ => .ret rfl
  | save state => exact .bind (loadSession_confined iso _) fun _ => .ret rfl
  | append event now => exact .bind (append_confined codec event now) fun _ => .ret rfl
  | emit event now => exact .bind (append_confined codec event now) fun _ => .ret rfl
  | all => exact .bind all_confined fun _ => .ret rfl
  | eventsFor sessionId => exact .bind (eventsFor_confined sessionId) fun _ => .ret rfl
  | listEvents sessionId after limit =>
    exact .bind (listEvents_confined sessionId after limit) fun _ => .ret rfl
  | commitSessionEvent snapshot event now =>
    exact .bind (commitSessionEvent_confined codec iso snapshot event now) fun _ => .ret rfl
  | pendingOutboxEvents limit =>
    exact (outboxEvents_confined .pending limit [] true).map fun _ _ h => outbox_alike h
  | leaseOutboxEvents request => exact .bind (leaseOutbox_confined request) fun _ => .ret rfl
  | markOutboxPublished eventIds publisherId =>
    exact .bind (markOutboxPublished_confined eventIds publisherId) fun _ => .ret rfl
  | releaseOutboxEvents eventIds publisherId reason retryAt =>
    exact .bind (releaseOutboxEvents_confined eventIds publisherId reason retryAt) fun _ => .ret rfl

theorem resume_confined (stage : PostgresStage) :
    ConfinedTo tenant alikeProgress (resume codec iso tenant stage) := by
  cases stage with
  | saving snapshot => exact .bind (saveSession_confined codec iso snapshot) fun _ => .ret rfl
  | leased eventIds =>
    exact (outboxEvents_confined .publishing none eventIds false).map fun _ _ h => outbox_alike h

end PostgresStore

/-! ## Runs -/

namespace PostgresStores

variable {κ : Type} [DecidableEq κ] {tenant : TenantId}

structure SameFor (tenant : TenantId) (s t : PostgresStores κ) : Prop where
  database : SeenAlike tenant s.database t.database
  stages : s.stages tenant = t.stages tenant

variable {x : PostgresCall (PostgresAnswer ⊕ PostgresStage)}

theorem run_own {s t : PostgresStores κ} (h : SameFor tenant s t) (caller : κ)
    (hx : ConfinedTo tenant PostgresStore.alikeProgress x) :
    (s.run tenant caller x).1.unnumbered = (t.run tenant caller x).1.unnumbered ∧
      SameFor tenant (s.run tenant caller x).2 (t.run tenant caller x).2 := by
  have hstages : ∀ stage, Function.update s.stages tenant
      (Function.update (s.stages tenant) caller stage) tenant =
      Function.update t.stages tenant (Function.update (t.stages tenant) caller stage) tenant := by
    intro stage
    rw [Function.update_self, Function.update_self, h.stages]
  unfold run
  rcases (hx.alike s.database t.database h.database).cases with
    ⟨a, b, s', t', hs, ht, hab, hst, -⟩ | ⟨e, s', t', hs, ht, hst, -⟩
  · rw [hs, ht]
    cases a with
    | inl answer =>
      cases b with
      | inl answer' => exact ⟨Sum.inl.inj hab, hst, hstages none⟩
      | inr stage => cases hab
    | inr stage =>
      cases b with
      | inl answer => cases hab
      | inr stage' =>
        obtain rfl : stage = stage' := Sum.inr.inj hab
        exact ⟨rfl, hst, hstages (some stage)⟩
  · rw [hs, ht]
    exact ⟨rfl, hst, hstages none⟩

theorem run_other {s t : PostgresStores κ} {other : TenantId} (hne : other ≠ tenant)
    (h : SameFor tenant s t) (caller : κ)
    (hx : ConfinedTo other PostgresStore.alikeProgress x) :
    SameFor tenant (s.run other caller x).2 t := by
  have hstages : ∀ stage, Function.update s.stages other
      (Function.update (s.stages other) caller stage) tenant = t.stages tenant := by
    intro stage
    rw [Function.update_of_ne hne.symm, h.stages]
  have hrel := (hx.unseen tenant hne s.database t.database h.database).1
  unfold run
  cases hs : x s.database with
  | ok a s' =>
    rw [hs] at hrel
    cases a with
    | inl answer => exact ⟨hrel, hstages none⟩
    | inr stage => exact ⟨hrel, hstages (some stage)⟩
  | error e s' =>
    rw [hs] at hrel
    exact ⟨hrel, hstages none⟩

section Steps

variable (codec : JsonCodec) (iso : IsoFormat) (before : SessionId → SessionId → Bool)

theorem step_own {s t : PostgresStores κ} (h : SameFor tenant s t) (i : PostgresStep κ) :
    (step codec iso before s (tenant, i)).1.unnumbered
        = (step codec iso before t (tenant, i)).1.unnumbered ∧
      SameFor tenant (step codec iso before s (tenant, i)).2
        (step codec iso before t (tenant, i)).2 := by
  cases i with
  | start caller request =>
    simp only [step, ← h.stages]
    cases s.stages tenant caller with
    | some stage => exact ⟨rfl, h⟩
    | none => exact run_own h caller (PostgresStore.begin_confined codec iso before request)
  | advance caller =>
    simp only [step, ← h.stages]
    cases s.stages tenant caller with
    | some stage => exact run_own h caller (PostgresStore.resume_confined codec iso stage)
    | none => exact ⟨rfl, h⟩

theorem step_other {s t : PostgresStores κ} {other : TenantId} (hne : other ≠ tenant)
    (h : SameFor tenant s t) (i : PostgresStep κ) :
    SameFor tenant (step codec iso before s (other, i)).2 t := by
  cases i with
  | start caller request =>
    simp only [step]
    cases s.stages other caller with
    | some stage => exact h
    | none =>
      exact run_other hne h caller (PostgresStore.begin_confined codec iso before request)
  | advance caller =>
    simp only [step]
    cases s.stages other caller with
    | some stage => exact run_other hne h caller (PostgresStore.resume_confined codec iso stage)
    | none => exact h

/-- **Tenants are isolated.** Whatever the calls of all tenants and however they are interleaved, a
tenant's calls are answered, the numbers of rows aside, as if no other tenant had made any. -/
theorem tenant_isolation (tenant : TenantId) (steps : List (TenantId × PostgresStep κ)) :
    (((machine codec iso before κ).history steps).filter fun x => x.1.1 = tenant).map
        (fun x => (x.1, x.2.unnumbered)) =
      ((machine codec iso before κ).history (steps.filter fun i => i.1 = tenant)).map
        fun x => (x.1, x.2.unnumbered) := by
  have hunwind := ((machine codec iso before κ).relabel PostgresAnswer.unnumbered).unwind
    (fun i => decide (i.1 = tenant)) (C := fun _ _ _ => True) (SameFor tenant)
    ⟨.empty tenant, rfl⟩
    (fun _ s t i hi h _ => step_other codec iso before (by simpa using hi) h i.2)
    (fun _ s t i hi h _ => by
      obtain ⟨owner, i⟩ := i
      obtain rfl : owner = tenant := by simpa using hi
      exact step_own codec iso before h i)
    fun _ _ _ (_ : steps = _) => trivial
  have hhistory := hunwind.1
  rw [Machine.history_relabel, Machine.history_relabel, List.filter_map] at hhistory
  exact hhistory

end Steps

end PostgresStores

end UniversalAgent.Persistence
