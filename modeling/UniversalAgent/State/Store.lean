import UniversalAgent.State.Copy

/-!
# State — Store

The session stores (`state/store.py`, and the file and SQLite ones under `persistence/`). They
differ in the record a snapshot is kept as: `Backend` is that record, how it is written and read,
and the laws of both. `SessionStore` is the table of records under session ids, with the methods
the stores share: a save is accepted only from the version that is stored, and raises it by one.

Which of several errors comes first is left out.
-/

namespace UniversalAgent.State

open UniversalAgent.Core UniversalAgent.Foundation UniversalAgent.Tasks UniversalAgent.Runtime

inductive StoreError where
  | alreadyExists
  | notFound
  | versionConflict (expected got : Int)
  | notSerializable
  | malformed
deriving DecidableEq, Repr

structure HandedOut (s : SessionSnapshot) : Prop where
  plain : snapshotPlain s = true
  totals : TotalsUnset s.state
  domains : s.domains = s.domainIdentities

structure Backend (codec : JsonCodec) where
  Record : Type
  write : SessionSnapshot → Except StoreError Record
  read : Record → Except StoreError SessionSnapshot
  /-- The version that a save is checked against. -/
  version : Record → Except StoreError Int
  /-- A coherent snapshot is read back as its copy. -/
  read_write : ∀ s r, Coherent s → write s = .ok r →
    ∃ t, copySession codec s = .ok t ∧ read r = .ok t
  same_session : ∀ s r t, write s = .ok r → read r = .ok t →
    t.state.sessionId = s.state.sessionId
  read_version : ∀ r s, read r = .ok s → version r = .ok s.version
  handedOut : ∀ r s, read r = .ok s → HandedOut s

structure SessionStore {codec : JsonCodec} (B : Backend codec) where
  record? : SessionId → Option B.Record
  under_id : ∀ id r s, record? id = some r → B.read r = .ok s → s.state.sessionId = id

namespace SessionStore

variable {codec : JsonCodec} {B : Backend codec}

def empty : SessionStore B where
  record? _ := none
  under_id _ _ _ h := nomatch h

def put (store : SessionStore B) (s : SessionSnapshot) (r : B.Record) (h : B.write s = .ok r) :
    SessionStore B where
  record? := Function.update store.record? s.state.sessionId (some r)
  under_id id r' t hid ht := by
    by_cases he : id = s.state.sessionId
    · subst he
      rw [Function.update_self] at hid
      cases hid
      exact B.same_session s r t h ht
    · rw [Function.update_of_ne he] at hid
      exact store.under_id id r' t hid ht

def write (store : SessionStore B) (s : SessionSnapshot) : Except StoreError (SessionStore B) :=
  match h : B.write s with
  | .ok r => .ok (store.put s r h)
  | .error e => .error e

def createSession (store : SessionStore B) (snapshot : SessionSnapshot) :
    Except StoreError (SessionStore B) :=
  match store.record? snapshot.state.sessionId with
  | some _ => .error .alreadyExists
  | none => store.write { snapshot with version := 0 }

def loadSession (store : SessionStore B) (id : SessionId) : Except StoreError SessionSnapshot :=
  match store.record? id with
  | none => .error .notFound
  | some r => B.read r

/-- `save_session`: the store, and the version the snapshot has from now on. -/
def saveSession (store : SessionStore B) (snapshot : SessionSnapshot) :
    Except StoreError (SessionStore B × Int) :=
  match store.record? snapshot.state.sessionId with
  | none => .error .notFound
  | some r => do
      let stored ← B.version r
      if snapshot.version ≠ stored then throw (.versionConflict stored snapshot.version)
      pure (← store.write { snapshot with version := stored + 1 }, stored + 1)

/-! ## What a save does -/

variable {store store' : SessionStore B} {s : SessionSnapshot}

theorem write_eq_ok :
    store.write s = .ok store' ↔ ∃ r, ∃ h : B.write s = .ok r, store' = store.put s r h := by
  unfold write
  split
  · next r h =>
      constructor
      · intro hk
        exact ⟨r, h, (Except.ok.inj hk).symm⟩
      · rintro ⟨r', h', rfl⟩
        obtain rfl : r = r' := Except.ok.inj (h.symm.trans h')
        rfl
  · next e h =>
      constructor
      · intro hk
        cases hk
      · rintro ⟨r', h', -⟩
        rw [h] at h'
        cases h'

@[simp] theorem loadSession_put (store : SessionStore B) (s : SessionSnapshot) (r : B.Record)
    (h : B.write s = .ok r) : (store.put s r h).loadSession s.state.sessionId = B.read r := by
  simp [loadSession, put]

/-- A coherent snapshot that was written is loaded as its copy. -/
theorem loadSession_write (hc : Coherent s)
    (h : store.write s = .ok store') :
    ∃ t, copySession codec s = .ok t ∧ store'.loadSession s.state.sessionId = .ok t := by
  obtain ⟨r, hr, rfl⟩ := write_eq_ok.mp h
  obtain ⟨t, ht, hread⟩ := B.read_write s r hc hr
  exact ⟨t, ht, by rw [loadSession_put, hread]⟩

/-- What a save that is accepted has checked and written. -/
theorem saveSession_eq_ok {v : Int} :
    store.saveSession s = .ok (store', v) ↔
      ∃ r, store.record? s.state.sessionId = some r ∧ B.version r = .ok s.version ∧
        v = s.version + 1 ∧ store.write { s with version := s.version + 1 } = .ok store' := by
  unfold saveSession
  split
  · next h => simp [h]
  · next r h =>
      simp only [h, Option.some.injEq, exists_eq_left', Except.bind_eq_ok]
      constructor
      · rintro ⟨stored, hv, hk⟩
        split at hk
        · cases hk
        · next heq =>
            rw [not_not] at heq
            subst heq
            obtain ⟨store'', hw, hk⟩ := Except.bind_eq_ok.mp hk
            cases hk
            exact ⟨hv, rfl, hw⟩
      · rintro ⟨hv, rfl, hw⟩
        refine ⟨s.version, hv, ?_⟩
        simp [hw, pure, Except.pure]

/-- A save that is accepted changes what is loaded: the version is another. -/
theorem loadSession_ne_of_save {s t : SessionSnapshot} {v : Int}
    (h : store.saveSession s = .ok (store', v))
    (ht : store'.loadSession s.state.sessionId = .ok t) (hv : t.version = v) :
    store'.loadSession s.state.sessionId ≠ store.loadSession s.state.sessionId := by
  obtain ⟨r, hr, hver, rfl, -⟩ := saveSession_eq_ok.mp h
  rw [ht, loadSession, hr]
  intro hread
  have := Except.ok.inj (hver.symm.trans (B.read_version r t hread.symm))
  omega

/-- A snapshot of the stored version that can be written is saved. -/
theorem saveSession_of_load {store : SessionStore B} {s stored : SessionSnapshot} {r : B.Record}
    (h : store.loadSession s.state.sessionId = .ok stored) (hv : s.version = stored.version)
    (hw : B.write { s with version := s.version + 1 } = .ok r) :
    ∃ store', store.saveSession s = .ok (store', s.version + 1) := by
  unfold loadSession at h
  split at h
  · cases h
  · next r₀ hr =>
      have hver := B.read_version r₀ stored h
      rw [← hv] at hver
      exact ⟨_, saveSession_eq_ok.mpr ⟨r₀, hr, hver, rfl, write_eq_ok.mpr ⟨r, hw, rfl⟩⟩⟩

theorem loadSession_id {store : SessionStore B} {id : SessionId}
    (h : store.loadSession id = .ok s) : s.state.sessionId = id := by
  unfold loadSession at h
  split at h
  · cases h
  · next r hr => exact store.under_id id r s hr h

theorem loadSession_handedOut {store : SessionStore B} {id : SessionId}
    (h : store.loadSession id = .ok s) : HandedOut s := by
  unfold loadSession at h
  split at h
  · cases h
  · next r hr => exact B.handedOut r s h

end SessionStore

/-! ## The in-memory store -/

variable {s t : SessionSnapshot}

theorem copySession_idem {codec : JsonCodec} (hc : Coherent s)
    (h : copySession codec s = .ok t) : copySession codec t = .ok t :=
  (copySession_eq_self codec (copySession_spec codec hc h).2.1).mpr (copySession_plain codec h)

/-- `copy_session`, with its error as a store reports it. -/
def copyRecord (codec : JsonCodec) (s : SessionSnapshot) : Except StoreError SessionSnapshot :=
  (copySession codec s).mapError fun _ => .notSerializable

theorem copyRecord_eq_ok {codec : JsonCodec} : copyRecord codec s = .ok t ↔ copySession codec s = .ok t := by
  cases h : copySession codec s <;> simp [copyRecord, h, Except.mapError]

theorem copySession_same {codec : JsonCodec}
    (h : copySession codec s = .ok t) :
    t.state.sessionId = s.state.sessionId ∧ t.version = s.version ∧
      t.domains = t.domainIdentities := by
  simp only [copySession, Except.bind_eq_ok] at h
  obtain ⟨state, hs, evidence, -, hk⟩ := h
  cases hk
  have hid := congrArg AgentState.sessionId (copyState_spec codec hs).1.fields
  refine ⟨hid, rfl, ?_⟩
  simp only [SessionSnapshot.domains]
  split
  · rfl
  · exact ite_self _

/-- `InMemorySessionStore`: a copy is kept, and a copy of it handed out. -/
def memoryBackend (codec : JsonCodec) : Backend codec where
  Record := SessionSnapshot
  write := copyRecord codec
  read := copyRecord codec
  version r := .ok r.version
  read_write s r hc h := by
    rw [copyRecord_eq_ok] at h
    exact ⟨r, h, copyRecord_eq_ok.mpr (copySession_idem hc h)⟩
  same_session s r t h ht := by
    rw [(copySession_same (copyRecord_eq_ok.mp ht)).1, (copySession_same (copyRecord_eq_ok.mp h)).1]
  read_version r s h := by rw [(copySession_same (copyRecord_eq_ok.mp h)).2.1]
  handedOut r s h := by
    rw [copyRecord_eq_ok] at h
    obtain ⟨hp, ht⟩ := copySession_plain codec h
    exact ⟨hp, ht, (copySession_same h).2.2⟩

def memoryStoreOf {codec : JsonCodec} (s : SessionSnapshot) (h : copySession codec s = .ok s) :
    SessionStore (memoryBackend codec) :=
  SessionStore.empty.put s s (copyRecord_eq_ok.mpr h)

@[simp] theorem loadSession_memoryStoreOf {codec : JsonCodec} (s : SessionSnapshot)
    (h : copySession codec s = .ok s) :
    (memoryStoreOf s h).loadSession s.state.sessionId = .ok s :=
  (SessionStore.loadSession_put (B := memoryBackend codec) _ _ _ _).trans (copyRecord_eq_ok.mpr h)

end UniversalAgent.State
