import UniversalAgent.Runtime.InitialState
import UniversalAgent.World.Sessions

/-!
# Runtime — Processing

What a session does to the memory of its runtime, which other sessions share: it is started or
hydrated, seeded, and observed (the recording half of `ObservationProcessor.process`,
`runtime/processing.py`); it queries its evidence, looks at its world and is exported.

`SessionCall` is one such call of one session, `answerCall` what the runtime does for it.
-/

namespace UniversalAgent.Runtime

open UniversalAgent.Core UniversalAgent.Foundation UniversalAgent.Evidence UniversalAgent.World
open UniversalAgent.Tasks

def stampEvidenceOwner (e : Core.Evidence) (identity : Option DomainIdentity) :
    Except String Core.Evidence :=
  match identity with
  | none => .ok e
  | some identity =>
    if e.domainName = identity.name ∧ e.domainVersion = identity.version then .ok e
    else if e.domainName ≠ "" ∨ e.domainVersion ≠ "" then
      .error ("evidence owner does not match action domain: " ++ e.domainName ++ "@" ++
        e.domainVersion ++ " != " ++ identity.name ++ "@" ++ identity.version)
    else .ok { e with domainName := identity.name, domainVersion := identity.version }

section

variable (updaters : Core.Evidence → List LocalUpdater)

/-- `session.record(evidence)`, and `session.apply` when it was new. -/
def recordOne (m : Memory) (e : Core.Evidence) : Memory :=
  match m.evidence.add e with
  | (false, _) => m
  | (true, store) => ⟨store, applyUpdaters (fun e => (updaters e).map (·.apply)) m.world e⟩

/-- `extracted`: every item is stamped before any is recorded. -/
def stampExtracted (domains : DomainComposition) (identity : Option DomainIdentity)
    (extracted : List Core.Evidence) : Except String (List Core.Evidence) :=
  match identity with
  | none => .ok extracted
  | some i =>
    if i ∈ domains.identities then extracted.mapM fun e => stampEvidenceOwner e identity
    else .error ("no domain registered for action domain: " ++ i.name ++ "@" ++ i.version)

/-- The recording half of `process`. -/
def recordObservation (domains : DomainComposition) (identity : Option DomainIdentity)
    (extracted : List Core.Evidence) (m : Memory) : Except String Unit × Memory :=
  match stampExtracted domains identity extracted with
  | .error message => (.error message, m)
  | .ok stamped => (.ok (), stamped.foldl (recordOne updaters) m)

end

/-! ## Calls -/

inductive SessionCall where
  | start (state : AgentState) (tasks : TaskManager)
  | hydrate (snapshot : SessionSnapshot)
  | seed (sessionId : SessionId) (facts : List SeedFact) (entities : List SeedEntity)
  | observe (sessionId : SessionId) (identity : Option DomainIdentity)
      (extracted : List Core.Evidence)
  | query (sessionId : SessionId) (task : Option TaskId) (limit : Option Nat)
  | world (sessionId : SessionId)
  | exported (sessionId : SessionId)

def SessionCall.sessionId : SessionCall → SessionId
  | .start state _ => state.sessionId
  | .hydrate snapshot => snapshot.state.sessionId
  | .seed sessionId _ _ | .observe sessionId _ _ | .query sessionId _ _ | .world sessionId
  | .exported sessionId => sessionId

inductive SessionAnswer where
  | session (s : SessionRuntimeState)
  | done
  | raised (message : String)
  | evidence (items : List Core.Evidence)
  | world (snapshot : WorldSnapshot)
deriving DecidableEq

structure MemorySettings where
  domains : DomainComposition
  updaters : Core.Evidence → List LocalUpdater
  dumps : Json → String

/-- `world_updaters_for_evidence`. -/
def MemorySettings.worldUpdaters (c : MemorySettings) (e : Core.Evidence) : List WorldUpdater :=
  (c.updaters e).map (·.apply)

def SessionAnswer.ofResult (r : Except String Unit × Memory) : SessionAnswer × Memory :=
  match r.1 with
  | .ok () => (.done, r.2)
  | .error message => (.raised message, r.2)

def answerCall (c : MemorySettings) (m : Memory) : SessionCall → SessionAnswer × Memory
  | .start state tasks =>
    let started := startSession state c.domains tasks m
    (.session started.1, started.2)
  | .hydrate snapshot =>
    match hydrateSession c.domains c.worldUpdaters snapshot m with
    | .error message => (.raised message, m)
    | .ok (session, m') => (.session session, m')
  | .seed sessionId facts entities =>
    SessionAnswer.ofResult (seedInitialState c.dumps sessionId facts entities m)
  | .observe _ identity extracted =>
    SessionAnswer.ofResult (recordObservation c.updaters c.domains identity extracted m)
  | .query sessionId task limit => (.evidence (m.evidence.query sessionId task limit), m)
  | .world sessionId => (.world (m.world.snapshot c.dumps sessionId), m)
  | .exported sessionId => (.evidence (m.evidence.exportSession sessionId), m)

end UniversalAgent.Runtime
