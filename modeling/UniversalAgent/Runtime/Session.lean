import UniversalAgent.State.Session
import UniversalAgent.Tasks.Manager
import UniversalAgent.World.Model

/-!
# Runtime — Session

`SessionRuntimeState` and its life (`runtime/session.py`): a session in the hands of the runtime,
taken out of a stored snapshot by `hydrateSession` and put back as one by `snapshot`.

The evidence store and the world model belong to the runtime's components, which every session
shares: `Memory` is the two of them, and what a session does to them is returned beside the
session. A domain's world updaters are functions of a parameter.
-/

namespace UniversalAgent.Runtime

open UniversalAgent.Core UniversalAgent.State UniversalAgent.Tasks UniversalAgent.Evidence
open UniversalAgent.World

/-- `DomainComposition`: at least one domain, the first of them the active one. -/
structure DomainComposition where
  identities : List DomainIdentity
  nonempty : identities ≠ []
deriving DecidableEq

def DomainComposition.primary (d : DomainComposition) : DomainIdentity :=
  d.identities.head d.nonempty

/-- `WorldUpdater.apply`. -/
abbrev WorldUpdater := WorldModel → Core.Evidence → WorldModel

structure Memory where
  evidence : EvidenceStore
  world : WorldModel
deriving DecidableEq

/-- `SessionRuntimeState`, less the two stores it holds on to. -/
structure SessionRuntimeState where
  state : AgentState
  tasks : TaskManager
  domainName : String
  domainVersion : String
  domainIdentities : List DomainIdentity
  version : Int
  identities_ne : domainIdentities ≠ []
deriving DecidableEq

namespace SessionRuntimeState

def syncCurrentTask (s : SessionRuntimeState) : SessionRuntimeState :=
  { s with state := { s.state with currentTask := s.tasks.current, tasks := s.tasks.all } }

def snapshot (s : SessionRuntimeState) (store : EvidenceStore) : SessionSnapshot where
  state := s.syncCurrentTask.state
  taskGraph := s.tasks.snapshot
  evidence := store.exportSession s.state.sessionId
  domainName := s.domainName
  domainVersion := s.domainVersion
  domainIdentities := s.domainIdentities
  version := s.version

def markCurrentTask (s : SessionRuntimeState) (status : TaskStatus) : SessionRuntimeState :=
  syncCurrentTask { s with tasks := s.tasks.markCurrent status }

def completeCurrentTask (s : SessionRuntimeState) : SessionRuntimeState :=
  syncCurrentTask { s with tasks := s.tasks.completeCurrent }

def startNextTask (s : SessionRuntimeState) : SessionRuntimeState :=
  syncCurrentTask { s with tasks := s.tasks.startNext.2 }

end SessionRuntimeState

/-- `start_session`: a session with the evidence and the world of its id dropped. -/
def startSession (state : AgentState) (domains : DomainComposition) (tasks : TaskManager)
    (m : Memory) : SessionRuntimeState × Memory :=
  ({ state := state
     tasks := tasks
     domainName := domains.primary.name
     domainVersion := domains.primary.version
     domainIdentities := domains.identities
     version := 0
     identities_ne := domains.nonempty },
    ⟨m.evidence.replace state.sessionId [], m.world.forget state.sessionId⟩)

/-! ## Hydration -/

def formatDomains (identities : List DomainIdentity) : String :=
  if identities = [] then "<none>"
  else ", ".intercalate (identities.map fun i => i.name ++ "@" ++ i.version)

def validateSnapshotDomains (snapshot : SessionSnapshot) (domains : DomainComposition) :
    Except String Unit :=
  if snapshot.domains ≠ [] then
    if snapshot.domains ≠ domains.identities then
      .error ("session domains " ++ formatDomains snapshot.domains ++ " do not match " ++
        formatDomains domains.identities)
    else .ok ()
  else if snapshot.domainName ≠ "" ∧ snapshot.domainName ≠ domains.primary.name then
    .error ("session domain " ++ snapshot.domainName ++ " does not match " ++ domains.primary.name)
  else if snapshot.domainVersion ≠ "" ∧ snapshot.domainVersion ≠ domains.primary.version then
    .error ("session domain version " ++ snapshot.domainVersion ++ " does not match " ++
      domains.primary.version)
  else .ok ()

/-- `for updater in updaters: updater.apply(world_model, evidence)`. -/
def applyUpdaters (updaters : Core.Evidence → List WorldUpdater) (w : WorldModel)
    (e : Core.Evidence) : WorldModel :=
  (updaters e).foldl (fun w updater => updater w e) w

/-- The world of a session, replayed from its evidence in the order of observation. -/
def replayWorld (updaters : Core.Evidence → List WorldUpdater) (w : WorldModel)
    (sessionId : SessionId) (evidence : List Core.Evidence) : WorldModel :=
  (inOrder (evidence.filter fun e => e.sessionId = sessionId)).foldl (applyUpdaters updaters)
    (w.forget sessionId)

/-- `hydrate_session`. The error is the text of a `SessionHydrationError`, raised before either
store is touched. -/
def hydrateSession (domains : DomainComposition) (updaters : Core.Evidence → List WorldUpdater)
    (snapshot : SessionSnapshot) (m : Memory) : Except String (SessionRuntimeState × Memory) :=
  match validateSnapshotDomains snapshot domains with
  | .error message => .error message
  | .ok () =>
    match TaskManager.fromSnapshot snapshot.taskGraph with
    | .error message => .error ("invalid session snapshot task graph: " ++ message)
    | .ok tasks =>
      let sessionId := snapshot.state.sessionId
      .ok
        (SessionRuntimeState.syncCurrentTask
          { state := snapshot.state
            tasks := tasks
            domainName := domains.primary.name
            domainVersion := domains.primary.version
            domainIdentities := domains.identities
            version := snapshot.version
            identities_ne := domains.nonempty },
          ⟨m.evidence.replace sessionId snapshot.evidence,
            replayWorld updaters m.world sessionId snapshot.evidence⟩)

/-- What a hydrated session is: the stored state with the tasks of the stored graph. -/
theorem hydrateSession_spec {domains : DomainComposition}
    {updaters : Core.Evidence → List WorldUpdater} {snapshot : SessionSnapshot} {m m' : Memory}
    {s : SessionRuntimeState}
    (h : hydrateSession domains updaters snapshot m = .ok (s, m')) :
    TaskManager.fromSnapshot snapshot.taskGraph = .ok s.tasks ∧
      s.state = { snapshot.state with currentTask := s.tasks.current, tasks := s.tasks.all } ∧
      s.version = snapshot.version ∧
      m' = ⟨m.evidence.replace snapshot.state.sessionId snapshot.evidence,
        replayWorld updaters m.world snapshot.state.sessionId snapshot.evidence⟩ := by
  unfold hydrateSession at h
  split at h
  · cases h
  · split at h
    · cases h
    · next tasks htasks =>
        cases h
        exact ⟨htasks, rfl, rfl, rfl⟩

end UniversalAgent.Runtime
