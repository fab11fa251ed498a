import UniversalAgent.Core.Dictionaries
import UniversalAgent.Foundation.Coroutines
import UniversalAgent.World.Sessions

/-!
# World — Snapshot cache

The calls of `InMemoryWorldModel` with what they raise and with the cache of unfiltered snapshots.
`dumps_json` refuses some values: a bucket that is to be trimmed raises then, after the evidence is in it
and before anything else is done; a snapshot of it raises as well.

A rebuild and an updater are programs of calls. What any programs make of a model they share is a run of
calls; a cached snapshot is the one that would be taken anew in every state of a run in which no trimming
raises, and a call never touches what is said of another session.
-/

namespace UniversalAgent.World

open UniversalAgent.Core UniversalAgent.Foundation UniversalAgent.Evidence

/-! ## The model with its cache -/

/-- `InMemoryWorldModel(max_evidence_per_fact=cap)`. -/
def WorldModel.withCap (cap : Nat) (h : 0 < cap) : WorldModel := ⟨cap, .empty, .empty, .empty, .empty, h⟩

structure CachedWorld where
  model : WorldModel
  cache : List (SessionId × WorldSnapshot)

inductive WorldError where
  | notSerializable
  | blank (label : String)
  | noUpdater
  | raised (message : String)
deriving DecidableEq

inductive WorldCall where
  | applyFact (evidence : Core.Evidence)
  | applyEntity (sessionId : SessionId) (entity : WorldEntity)
  | applyRelation (sessionId : SessionId) (relation : WorldRelation)
  | forget (sessionId : SessionId)
  | snapshot (sessionId : SessionId) (subjects claims : List String)

namespace WorldCall

def session : WorldCall → SessionId
  | applyFact evidence => evidence.sessionId
  | applyEntity sessionId _ | applyRelation sessionId _ | forget sessionId | snapshot sessionId _ _ =>
    sessionId

abbrev Answer : WorldCall → Type
  | applyFact _ | applyEntity _ _ | applyRelation _ _ => Bool
  | forget _ => Unit
  | snapshot _ _ _ => WorldSnapshot

end WorldCall

/-! ## Snapshots that are taken anew -/

def textOf (dumps : Json → Option String) (value : Json) : String := (dumps value).getD ""

def Writable (dumps : Json → Option String) (evidence : List Core.Evidence) : Prop :=
  ∀ e ∈ evidence, (dumps e.value).isSome = true

instance (dumps : Json → Option String) (evidence : List Core.Evidence) :
    Decidable (Writable dumps evidence) := inferInstanceAs (Decidable (∀ e ∈ evidence, _))

namespace WorldModel

variable (w : WorldModel) (sessionId : SessionId)

def factRows : List FactBucket := w.facts.rows.filter fun b => b.sessionId = sessionId

def entityRows : List EntityRow := w.entities.rows.filter fun r => r.sessionId = sessionId

def relationRows : List RelationRow := w.relations.rows.filter fun r => r.sessionId = sessionId

def selected (facts : List FactBucket) (subjects claims : List String) : List FactBucket :=
  facts.filter fun b => (subjects = [] ∨ b.subject ∈ subjects) ∧ (claims = [] ∨ b.claim ∈ claims)

def snapshotOf (dumps : Json → Option String) (facts : List FactBucket) (entities : List EntityRow)
    (relations : List RelationRow) (subjects claims : List String) :
    Except WorldError WorldSnapshot :=
  if ∀ b ∈ selected facts subjects claims, Writable dumps b.evidence then
    let ordered := sortedBy (fun h => [h.subject, h.claim])
      ((selected facts subjects claims).filterMap (FactBucket.history? (textOf dumps)))
    .ok {
      sessionId := sessionId
      facts := ordered.map WorldFactHistory.current
      factHistories := ordered
      entities := sortedBy (fun e => [e.id]) ((entities.map EntityRow.entity).filter
        fun e => subjects = [] ∨ e.id ∈ subjects)
      relations := sortedBy (fun r => [r.source, r.relation, r.target])
        ((relations.map RelationRow.relation).filter fun r => subjects = [] ∨ r.source ∈ subjects) }
  else .error .notSerializable

/-- The body of `snapshot`. -/
def takeSnapshot (dumps : Json → Option String) (subjects claims : List String) :
    Except WorldError WorldSnapshot :=
  snapshotOf sessionId dumps (w.factRows sessionId) (w.entityRows sessionId) (w.relationRows sessionId)
    subjects claims

end WorldModel

/-! ## Calls -/

section Calls

variable (dumps : Json → Option String)

def dropEntry (cache : List (SessionId × WorldSnapshot)) (sessionId : SessionId) :
    List (SessionId × WorldSnapshot) := cache.filter fun entry => entry.1 ≠ sessionId

/-- `_trim_fact_bucket` raises. -/
def TrimRaises (w : WorldModel) (e : Core.Evidence) : Prop :=
  (∀ item ∈ w.factEvidence e.sessionId e.subject e.claim, item.id ≠ e.id) ∧
    w.maxEvidencePerFact < (w.factEvidence e.sessionId e.subject e.claim ++ [e]).length ∧
    ¬Writable dumps (w.factEvidence e.sessionId e.subject e.claim ++ [e])

instance (w : WorldModel) (e : Core.Evidence) : Decidable (TrimRaises dumps w e) :=
  inferInstanceAs (Decidable (_ ∧ _ ∧ _))

def WorldModel.untrimmed (w : WorldModel) (e : Core.Evidence) : WorldModel :=
  { w with facts := w.facts.put ⟨e.sessionId, e.subject, e.claim,
      w.factEvidence e.sessionId e.subject e.claim ++ [e]⟩ }

namespace CachedWorld

variable (c : CachedWorld)

/-- `apply_fact`: what it returns or raises, and what it leaves. -/
def applyFact (e : Core.Evidence) : Except WorldError Bool × CachedWorld :=
  if (c.model.factEvidence e.sessionId e.subject e.claim).any fun item => item.id = e.id then
    (.ok false, c)
  else if TrimRaises dumps c.model e then
    (.error .notSerializable, { c with model := c.model.untrimmed e })
  else (.ok true, ⟨c.model.applyFact (textOf dumps) e, dropEntry c.cache e.sessionId⟩)

def applyEntity (sessionId : SessionId) (entity : WorldEntity) : Except WorldError Bool × CachedWorld :=
  let updated := c.model.applyEntity sessionId entity
  if Text.isBlank entity.kind then (.error (.blank "world entity kind"), c)
  else if updated.entity? sessionId entity.id = c.model.entity? sessionId entity.id then (.ok false, c)
  else (.ok true, ⟨updated, dropEntry c.cache sessionId⟩)

def applyRelation (sessionId : SessionId) (r : WorldRelation) : Except WorldError Bool × CachedWorld :=
  let updated := c.model.applyRelation sessionId r
  if Text.isBlank r.relation then (.error (.blank "world relation"), c)
  else if updated.relation? sessionId r.source r.relation r.target =
      c.model.relation? sessionId r.source r.relation r.target then (.ok false, c)
  else (.ok true, ⟨updated, dropEntry c.cache sessionId⟩)

def forget (sessionId : SessionId) : CachedWorld :=
  ⟨c.model.forget sessionId, dropEntry c.cache sessionId⟩

def cached? (sessionId : SessionId) (subjects claims : List String) : Option WorldSnapshot :=
  if subjects = [] ∧ claims = [] then c.cache.lookup sessionId else none

def snapshot (sessionId : SessionId) (subjects claims : List String) :
    Except WorldError WorldSnapshot × CachedWorld :=
  match c.cached? sessionId subjects claims with
  | some cached => (.ok cached, c)
  | none =>
    match c.model.takeSnapshot sessionId dumps subjects claims with
    | .error error => (.error error, c)
    | .ok taken =>
      (.ok taken, if subjects = [] ∧ claims = [] then
        { c with cache := dictSet c.cache sessionId taken } else c)

end CachedWorld

def perform (c : CachedWorld) : (call : WorldCall) → Except WorldError call.Answer × CachedWorld
  | .applyFact e => c.applyFact dumps e
  | .applyEntity sessionId entity => c.applyEntity sessionId entity
  | .applyRelation sessionId r => c.applyRelation sessionId r
  | .forget sessionId => (.ok (), c.forget sessionId)
  | .snapshot sessionId subjects claims => c.snapshot dumps sessionId subjects claims

end Calls

/-! ## Updaters and rebuilds -/

abbrev WorldM := Prog WorldCall WorldCall.Answer WorldError

def call (c : WorldCall) : WorldM c.Answer := Prog.op c

def applyRelations (sessionId : SessionId) : List WorldRelation → Bool → WorldM Bool
  | [], changed => pure changed
  | relation :: relations, changed => do
      let applied : Bool ← call (.applyRelation sessionId relation)
      applyRelations sessionId relations (applied || changed)

/-- `FactWorldUpdater.apply`. -/
def factUpdates (e : Core.Evidence) : WorldM Bool := do
  let changed : Bool ← call (.applyFact e)
  match entityFromEvidence? e with
  | none => applyRelations e.sessionId (relationsFromEvidence e) changed
  | some entity => do
      let applied : Bool ← call (.applyEntity e.sessionId entity)
      applyRelations e.sessionId (relationsFromEvidence e) (applied || changed)

/-- `rebuild`, with any updaters. -/
def rebuild (sessionId : SessionId) (evidence : List Core.Evidence)
    (updaters : List (Core.Evidence → WorldM Bool)) : WorldM Unit :=
  if updaters.isEmpty then .raise .noUpdater
  else do
    call (.forget sessionId)
    (inOrder (evidence.filter fun item => item.sessionId = sessionId)).forM fun item =>
      updaters.forM fun updater => do
        let _ ← updater item
        pure ()

theorem call_only {P : WorldCall → Prop} {c : WorldCall} (h : P c) : (call c).Only P := Prog.Only.op h

/-! ## The other sessions -/

structure SameFor (sessionId : SessionId) (c c' : CachedWorld) : Prop where
  facts : c'.model.factRows sessionId = c.model.factRows sessionId
  entities : c'.model.entityRows sessionId = c.model.entityRows sessionId
  relations : c'.model.relationRows sessionId = c.model.relationRows sessionId
  cache : ∀ snapshot, (sessionId, snapshot) ∈ c'.cache ↔ (sessionId, snapshot) ∈ c.cache

namespace SameFor

variable {sessionId : SessionId} {c c' c'' : CachedWorld}

theorem refl (sessionId : SessionId) (c : CachedWorld) : SameFor sessionId c c :=
  ⟨rfl, rfl, rfl, fun _ => .rfl⟩

theorem trans (h : SameFor sessionId c c') (h' : SameFor sessionId c' c'') : SameFor sessionId c c'' :=
  ⟨h'.facts.trans h.facts, h'.entities.trans h.entities, h'.relations.trans h.relations,
    fun snapshot => (h'.cache snapshot).trans (h.cache snapshot)⟩

theorem takeSnapshot (h : SameFor sessionId c c') (dumps : Json → Option String)
    (subjects claims : List String) :
    c'.model.takeSnapshot sessionId dumps subjects claims =
      c.model.takeSnapshot sessionId dumps subjects claims := by
  unfold WorldModel.takeSnapshot
  rw [h.facts, h.entities, h.relations]

end SameFor

section Others

variable (dumps : Json → Option String) {sessionId : SessionId}

variable {cache : List (SessionId × WorldSnapshot)} {dropped : SessionId}

theorem mem_dropEntry
    {entry : SessionId × WorldSnapshot} :
    entry ∈ dropEntry cache dropped ↔ entry ∈ cache ∧ entry.1 ≠ dropped := by
  simp [dropEntry]

theorem mem_dropEntry_other
    (h : dropped ≠ sessionId) (snapshot : WorldSnapshot) :
    (sessionId, snapshot) ∈ dropEntry cache dropped ↔ (sessionId, snapshot) ∈ cache := by
  rw [mem_dropEntry, and_iff_left (Ne.symm h)]

/-- Rows that are put for another session are not seen. -/
theorem filter_put_other {α κ : Type} [DecidableEq κ] {key : α → κ} (session : α → SessionId)
    (ofKey : κ → SessionId) (hkey : ∀ a, ofKey (key a) = session a) (t : Table key) {a : α}
    (h : session a ≠ sessionId) :
    ((t.put a).rows.filter fun b => session b = sessionId) = t.rows.filter fun b => session b = sessionId := by
  refine Table.filter_rows_put fun b hb => ?_
  rw [decide_eq_false_iff_not, ← hkey b, hb, hkey]
  exact h

theorem factRows_put (t : Table FactBucket.key) {b : FactBucket} (h : b.sessionId ≠ sessionId) :
    ((t.put b).rows.filter fun b => b.sessionId = sessionId) = t.rows.filter fun b => b.sessionId = sessionId :=
  filter_put_other FactBucket.sessionId Prod.fst (fun _ => rfl) t h

theorem entityRows_put (t : Table EntityRow.key) {r : EntityRow} (h : r.sessionId ≠ sessionId) :
    ((t.put r).rows.filter fun r => r.sessionId = sessionId) = t.rows.filter fun r => r.sessionId = sessionId :=
  filter_put_other EntityRow.sessionId Prod.fst (fun _ => rfl) t h

theorem relationRows_put (t : Table RelationRow.key) {r : RelationRow} (h : r.sessionId ≠ sessionId) :
    ((t.put r).rows.filter fun r => r.sessionId = sessionId) = t.rows.filter fun r => r.sessionId = sessionId :=
  filter_put_other RelationRow.sessionId Prod.fst (fun _ => rfl) t h

theorem filter_drop_other {α κ : Type} {key : α → κ} {session : α → SessionId} (t : Table key)
    (h : dropped ≠ sessionId) :
    ((WorldModel.dropSession t session dropped).rows.filter fun b => session b = sessionId) =
      t.rows.filter fun b => session b = sessionId := by
  rw [WorldModel.dropSession, List.filter_filter]
  refine List.filter_congr fun b _ => ?_
  by_cases hb : session b = sessionId
  · simp [hb, Ne.symm h]
  · simp [hb]

/-- The rows of the other sessions that an update leaves as they are. -/
theorem sameFor_update {c : CachedWorld} {w : WorldModel} {updated : SessionId} (h : updated ≠ sessionId)
    (hfacts : w.factRows sessionId = c.model.factRows sessionId)
    (hentities : w.entityRows sessionId = c.model.entityRows sessionId)
    (hrelations : w.relationRows sessionId = c.model.relationRows sessionId) :
    SameFor sessionId c ⟨w, dropEntry c.cache updated⟩ :=
  ⟨hfacts, hentities, hrelations, mem_dropEntry_other h⟩

theorem refresh_other (w : WorldModel) {updated : SessionId} (h : updated ≠ sessionId) (subject : String) :
    (w.refreshEntityAttributes updated subject).factRows sessionId = w.factRows sessionId ∧
      (w.refreshEntityAttributes updated subject).entityRows sessionId = w.entityRows sessionId ∧
      (w.refreshEntityAttributes updated subject).relationRows sessionId = w.relationRows sessionId := by
  unfold WorldModel.refreshEntityAttributes
  split
  · exact ⟨rfl, rfl, rfl⟩
  · exact ⟨rfl, entityRows_put _ h, rfl⟩

theorem applyFact_other (c : CachedWorld) {e : Core.Evidence} (h : e.sessionId ≠ sessionId) :
    SameFor sessionId c (c.applyFact dumps e).2 := by
  unfold CachedWorld.applyFact
  split
  · exact .refl sessionId c
  · next hnew =>
    split
    · exact ⟨factRows_put _ h, rfl, rfl, fun _ => .rfl⟩
    · rw [WorldModel.applyFact_eq, if_neg hnew]
      obtain ⟨hfacts, hentities, hrelations⟩ :=
        refresh_other (c.model.withFact (textOf dumps) e) h e.subject
      have hput : (c.model.withFact (textOf dumps) e).factRows sessionId = c.model.factRows sessionId :=
        factRows_put _ h
      exact sameFor_update h (hfacts.trans hput) hentities hrelations

theorem applyEntity_other (c : CachedWorld) {updated : SessionId} (h : updated ≠ sessionId)
    (entity : WorldEntity) : SameFor sessionId c (c.applyEntity updated entity).2 := by
  unfold CachedWorld.applyEntity
  dsimp only
  split
  · exact .refl sessionId c
  · split
    · exact .refl sessionId c
    · exact sameFor_update h rfl (entityRows_put _ h) rfl

theorem applyRelation_other (c : CachedWorld) {updated : SessionId} (h : updated ≠ sessionId)
    (r : WorldRelation) : SameFor sessionId c (c.applyRelation updated r).2 := by
  have hrows : (c.model.applyRelation updated r).relationRows sessionId = c.model.relationRows sessionId ∧
      (c.model.applyRelation updated r).factRows sessionId = c.model.factRows sessionId ∧
      (c.model.applyRelation updated r).entityRows sessionId = c.model.entityRows sessionId := by
    unfold WorldModel.applyRelation
    split
    · exact ⟨relationRows_put _ h, rfl, rfl⟩
    · exact ⟨relationRows_put _ h, rfl, rfl⟩
  unfold CachedWorld.applyRelation
  dsimp only
  split
  · exact .refl sessionId c
  · split
    · exact .refl sessionId c
    · exact sameFor_update h hrows.2.1 hrows.2.2 hrows.1

theorem snapshot_other (c : CachedWorld) {taken : SessionId} (h : taken ≠ sessionId)
    (subjects claims : List String) : SameFor sessionId c (c.snapshot dumps taken subjects claims).2 := by
  unfold CachedWorld.snapshot
  split
  · exact .refl sessionId c
  · split
    · exact .refl sessionId c
    · dsimp only
      split
      · refine ⟨rfl, rfl, rfl, fun snapshot => ?_⟩
        rw [mem_dictSet]
        constructor
        · rintro (heq | ⟨hmem, -⟩)
          · exact absurd (congrArg Prod.fst heq).symm h
          · exact hmem
        · exact fun hmem => .inr ⟨hmem, h.symm⟩
      · exact .refl sessionId c

theorem perform_other (c : CachedWorld) (call : WorldCall) (h : call.session ≠ sessionId) :
    SameFor sessionId c (perform dumps c call).2 := by
  cases call with
  | applyFact e => exact applyFact_other dumps c h
  | applyEntity s entity => exact applyEntity_other c h entity
  | applyRelation s r => exact applyRelation_other c h r
  | forget s =>
    exact ⟨filter_drop_other _ h, filter_drop_other _ h, filter_drop_other _ h, mem_dropEntry_other h⟩
  | snapshot s subjects claims => exact snapshot_other dumps c h subjects claims

/-! ## Coherence -/

def Coherent (c : CachedWorld) : Prop :=
  ∀ entry ∈ c.cache, c.model.takeSnapshot entry.1 dumps [] [] = .ok entry.2

variable {dumps} {c : CachedWorld}

/-- An update that is seen by one session alone, and drops what was cached of it. -/
theorem Coherent.update (hc : Coherent dumps c) {c' : CachedWorld} {updated : SessionId}
    (hsame : ∀ sessionId, updated ≠ sessionId → SameFor sessionId c c')
    (hcache : c'.cache = dropEntry c.cache updated) : Coherent dumps c' := by
  intro entry hentry
  rw [hcache, mem_dropEntry] at hentry
  rw [(hsame entry.1 hentry.2.symm).takeSnapshot]
  exact hc entry hentry.1

theorem Coherent.applyFact (hc : Coherent dumps c) {e : Core.Evidence}
    (htrim : ¬TrimRaises dumps c.model e) : Coherent dumps (c.applyFact dumps e).2 := by
  have hcases : (c.applyFact dumps e).2 = c ∨
      (c.applyFact dumps e).2.cache = dropEntry c.cache e.sessionId := by
    unfold CachedWorld.applyFact
    split
    · exact .inl rfl
    · exact .inr rfl
  rcases hcases with hsame | hdropped
  · exact hsame.symm ▸ hc
  · exact hc.update (fun sessionId h => applyFact_other dumps c h) hdropped

theorem Coherent.applyEntity (hc : Coherent dumps c) (updated : SessionId) (entity : WorldEntity) :
    Coherent dumps (c.applyEntity updated entity).2 := by
  have hcases : (c.applyEntity updated entity).2 = c ∨
      (c.applyEntity updated entity).2.cache = dropEntry c.cache updated := by
    unfold CachedWorld.applyEntity
    dsimp only
    split
    · exact .inl rfl
    · split
      · exact .inl rfl
      · exact .inr rfl
  rcases hcases with hsame | hdropped
  · exact hsame.symm ▸ hc
  · exact hc.update (fun sessionId h => applyEntity_other c h entity) hdropped

theorem Coherent.applyRelation (hc : Coherent dumps c) (updated : SessionId) (r : WorldRelation) :
    Coherent dumps (c.applyRelation updated r).2 := by
  have hcases : (c.applyRelation updated r).2 = c ∨
      (c.applyRelation updated r).2.cache = dropEntry c.cache updated := by
    unfold CachedWorld.applyRelation
    dsimp only
    split
    · exact .inl rfl
    · split
      · exact .inl rfl
      · exact .inr rfl
  rcases hcases with hsame | hdropped
  · exact hsame.symm ▸ hc
  · exact hc.update (fun sessionId h => applyRelation_other c h r) hdropped

theorem Coherent.snapshot (hc : Coherent dumps c) (taken : SessionId) (subjects claims : List String) :
    Coherent dumps (c.snapshot dumps taken subjects claims).2 := by
  unfold CachedWorld.snapshot
  split
  · exact hc
  · split
    · exact hc
    · next snapshot htaken =>
      dsimp only
      split
      · next hfilters =>
        rw [hfilters.1, hfilters.2] at htaken
        intro entry hentry
        rcases mem_dictSet.mp hentry with rfl | ⟨hmem, -⟩
        · exact htaken
        · exact hc entry hmem
      · exact hc

/-- A call that is not about to trim a bucket with a value that has no text. -/
def Trimmable (dumps : Json → Option String) (c : CachedWorld) : WorldCall → Prop
  | .applyFact e => ¬TrimRaises dumps c.model e
  | .applyEntity _ _ | .applyRelation _ _ | .forget _ | .snapshot _ _ _ => True

theorem Coherent.perform (hc : Coherent dumps c) {call : WorldCall} (h : Trimmable dumps c call) :
    Coherent dumps (perform dumps c call).2 := by
  cases call with
  | applyFact e => exact hc.applyFact h
  | applyEntity s entity => exact hc.applyEntity s entity
  | applyRelation s r => exact hc.applyRelation s r
  | forget s => exact hc.update (fun sessionId hs => perform_other dumps c (.forget s) hs) rfl
  | snapshot s subjects claims => exact hc.snapshot s subjects claims

end Others

def answers (dumps : Json → Option String) (c : CachedWorld) (call : WorldCall)
    (answer : Except WorldError call.Answer) (c' : CachedWorld) : Prop :=
  perform dumps c call = (answer, c')

def plainText (value : Json) : Option String := if value.isPlain then some value.render else none

def restarts (id : EvidenceId) (value : Json) : Core.Evidence :=
  ⟨"session-1", "task-1", "action-1", "observation-1", "pod/a", "restarts", value, "probe", 1, id, 0, "",
    "", by decide +kernel⟩

def overflowing : WorldM Unit := do
  let _ : Bool ← call (.applyFact (restarts "evidence-1" (.int 1)))
  let _ : WorldSnapshot ← call (.snapshot "session-1" [] [])
  let _ : Bool ← call (.applyFact (restarts "evidence-2" (.int (2 ^ 64))))
  pure ()

end UniversalAgent.World
