import UniversalAgent.Runtime.Session

/-!
# Runtime — InitialState

`seed_initial_state` (`runtime/initial_state.py`): the facts and the entities a run starts with.
Both are read after `str` and `float`; an entry that is no mapping is left out, as the source
skips it.

An error stops the seeding where it is: what was seeded before it stays.
-/

namespace UniversalAgent.Runtime

open UniversalAgent.Core UniversalAgent.Foundation UniversalAgent.Evidence UniversalAgent.World

/-- The state that `_start_run` gives a new session. -/
def initialAgentState (sessionId : SessionId) (goal : Goal) (task : Task) (readOnly : Bool)
    (tenantId : Option String) (tasks : List Task) : AgentState where
  sessionId := sessionId
  goal := goal
  currentTask := task
  readOnly := readOnly
  iteration := 0
  satisfiedCriteria := []
  observations := []
  latestEvaluation := none
  pendingAction := none
  approvedFingerprints := []
  tasks := tasks
  recoveryAttempts := []
  terminationReason := none
  errorCode := none
  tenantId := tenantId
  cumulativeCostMicros := 0
  cumulativeTokens := 0
  isContinuation := false

/-- One of `world_facts`. The confidence is what `float(str(...))` returns or the text of what it
raises; `observedAt` is the clock when the evidence is made. -/
structure SeedFact where
  subject : String
  claim : String
  value : Json
  confidence : Except String PyFloat
  observedAt : Instant

/-- One of `world_entities`. -/
structure SeedEntity where
  entityId : String
  kind : String
  attributes : Attributes
deriving DecidableEq

def seedId (subject claim : String) : EvidenceId := "init-" ++ subject ++ "-" ++ claim

/-- The evidence of a fact, when `Evidence.__post_init__` accepts it. -/
def seedEvidence (sessionId : SessionId) (f : SeedFact) (confidence : PyFloat) :
    Except String Core.Evidence :=
  match confidence with
  | .nan => .error "evidence confidence must be between zero and one"
  | .infinite _ => .error "evidence confidence must be between zero and one"
  | .finite q =>
    if hq : 0 ≤ q ∧ q ≤ 1 then
      if hs : Text.isBlank f.subject = false ∧ Text.isBlank f.claim = false then
        .ok
          { sessionId := sessionId
            taskId := ""
            actionId := ""
            observationId := ""
            subject := f.subject
            claim := f.claim
            value := f.value
            source := "initial_state"
            confidence := q
            id := seedId f.subject f.claim
            observedAt := f.observedAt
            domainName := ""
            domainVersion := ""
            postInit := ⟨hq, hs⟩ }
      else .error "evidence subject and claim are required"
    else .error "evidence confidence must be between zero and one"

/-- The evidence seeding makes of the facts, and the error it stops at. -/
def seededEvidence (sessionId : SessionId) : List SeedFact → List Core.Evidence × Option String
  | [] => ([], none)
  | f :: rest =>
    match f.confidence with
    | .error message => ([], some message)
    | .ok confidence =>
      if f.subject = "" ∨ f.claim = "" then seededEvidence sessionId rest
      else
        match seedEvidence sessionId f confidence with
        | .error message => ([], some message)
        | .ok e =>
          let more := seededEvidence sessionId rest
          (e :: more.1, more.2)

def seededEntities : List SeedEntity → List WorldEntity × Option String
  | [] => ([], none)
  | s :: rest =>
    if s.entityId = "" ∨ s.kind = "" then seededEntities rest
    else if Text.isBlank s.kind then ([], some "world entity kind must not be empty")
    else
      let more := seededEntities rest
      (⟨s.entityId, s.kind, s.attributes, []⟩ :: more.1, more.2)

section

variable (dumps : Json → String)

/-- `evidence_store.add(evidence)`, whose answer is not looked at, then `apply_fact`. -/
def seedOne (m : Memory) (e : Core.Evidence) : Memory :=
  ⟨(m.evidence.add e).2, m.world.applyFact dumps e⟩

def seedInitialState (sessionId : SessionId) (facts : List SeedFact) (entities : List SeedEntity)
    (m : Memory) : Except String Unit × Memory :=
  let evidence := seededEvidence sessionId facts
  let seeded := evidence.1.foldl (seedOne dumps) m
  match evidence.2 with
  | some message => (.error message, seeded)
  | none =>
    let made := seededEntities entities
    (match made.2 with
      | some message => .error message
      | none => .ok (),
      { seeded with
        world := made.1.foldl (fun w entity => w.applyEntity sessionId entity) seeded.world })

end

theorem seedEvidence_spec {sessionId : SessionId} {f : SeedFact} {confidence : PyFloat}
    {e : Core.Evidence} (h : seedEvidence sessionId f confidence = .ok e) :
    e.sessionId = sessionId ∧ e.id = seedId f.subject f.claim ∧ e.subject = f.subject ∧
      e.claim = f.claim ∧ e.value = f.value := by
  unfold seedEvidence at h
  split at h
  · cases h
  · cases h
  · split at h
    · split at h
      · cases h
        exact ⟨rfl, rfl, rfl, rfl, rfl⟩
      · cases h
    · cases h

theorem seededEvidence_session {sessionId : SessionId} {facts : List SeedFact}
    {e : Core.Evidence} (h : e ∈ (seededEvidence sessionId facts).1) :
    e.sessionId = sessionId ∧ e.id = seedId e.subject e.claim := by
  induction facts with
  | nil => cases h
  | cons f rest ih =>
    unfold seededEvidence at h
    split at h
    · cases h
    · split at h
      · exact ih h
      · split at h
        · cases h
        · next hseed =>
            rcases List.mem_cons.mp h with rfl | h
            · obtain ⟨hs, hid, hsub, hclaim, -⟩ := seedEvidence_spec hseed
              exact ⟨hs, by rw [hid, hsub, hclaim]⟩
            · exact ih h

end UniversalAgent.Runtime
