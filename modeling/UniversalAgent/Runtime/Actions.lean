import UniversalAgent.Domain.Composition
import UniversalAgent.Foundation.Coroutines

/-!
# Runtime — Actions

`ActionExecutor` (`runtime/actions.py`), `ToolRuntime.execute` (`tools/runtime.py`), the planning of a
recovery (`runtime/recovery_planning.py`) and the loop that drives an action and its recoveries: programs
that ask the world and the registries of the process for one operation after another. The registries are
the record of idempotency keys, the resource locks and the resource versions. Of an event, its type and
action; of an observation, the result that it is made of.

Hashes, secrets, the argument contract, the sandbox and the text of arguments are parameters.
-/

namespace UniversalAgent.Runtime.Actions

open UniversalAgent.Core UniversalAgent.Domain UniversalAgent.Foundation UniversalAgent.Policies
open UniversalAgent.Recovery UniversalAgent.Tools UniversalAgent.World
open UniversalAgent.Domains (CapabilityDefinition PolicyResult)

/-! ## Calls and results -/

structure ToolCall where
  actionId : ActionId
  toolName : String
  capability : String
  arguments : JsonMapping
  target : Option String
  domainName : String
  domainVersion : String
  idempotencyKey : String
  parametersHash : String
  attempt : Int
  resourceKey : String
  resourceVersion : Option String
deriving DecidableEq

structure ToolResult where
  status : ObservationStatus
  output : JsonMapping := []
  error : Option String := none
  errorCode : Option ErrorCode := none
deriving DecidableEq

def toolCall (pending : PendingAction) : ToolCall where
  actionId := pending.actionId
  toolName := pending.toolName
  capability := pending.capability
  arguments := pending.arguments
  target := pending.target
  domainName := pending.domainName
  domainVersion := pending.domainVersion
  idempotencyKey := pending.idempotencyKey
  parametersHash := pending.parametersHash
  attempt := pending.attempt
  resourceKey := pending.resourceKey
  resourceVersion := pending.resourceVersion

inductive ToolEnd where
  | returned (output : JsonMapping)
  | timedOut
  | uncertain (message : String)
  | denied (message : String)
  | failed (message : String)
deriving DecidableEq

/-- What `ToolRuntime.execute` makes of the end of a tool. -/
def ToolEnd.result (toolName : String) : ToolEnd → ToolResult
  | .returned output => { status := .succeeded, output := output }
  | .timedOut =>
    { status := .timedOut, error := some ("tool timed out: " ++ toolName)
      errorCode := some .timeout }
  | .uncertain message =>
    { status := .unknown, error := some ("tool outcome unknown: " ++ message)
      errorCode := some .unknownExecution }
  | .denied message =>
    { status := .failed, error := some ("tool denied: " ++ message)
      errorCode := some .permissionDenied }
  | .failed message =>
    { status := .failed, error := some ("tool failed: " ++ message), errorCode := some .toolFailure }

/-! ## The registries of the process -/

structure ResourceLock where
  resourceKey : String
  actionId : ActionId
  sessionId : SessionId
  taskId : TaskId
deriving DecidableEq

structure Registries where
  seen : List String := []
  locks : List (String × ResourceLock) := []
  versions : List (String × String) := []

inductive Processed where
  | settled
  | failed (reason : String)
  | next
deriving DecidableEq

inductive Op where
  | newActionId
  | emit (type : String) (actionId : ActionId)
  | seen (key : String)
  | record (key : String)
  | forget (key : String)
  | isOwnedBy (lock : ResourceLock)
  | acquire (lock : ResourceLock)
  | release (lock : ResourceLock)
  | currentVersion (key : String)
  | setCurrent (key version : String)
  | reconcile (reconciler : String) (pending : PendingAction)
  | start (call : ToolCall) (tool : ToolDefinition)
  | finish (call : ToolCall) (tool : ToolDefinition)
  | setPending (pending : Option PendingAction)
  | observe (call : ToolCall) (result : ToolResult)
  | remember (fingerprint : String)
  | readSession
  | requestedControl
  | process (pending : PendingAction) (result : ToolResult)
  | countAttempt (key : String) (attempt : Int)
  | settle (errorCode : Option ErrorCode) (reason : String)

abbrev Answer : Op → Type
  | .newActionId => ActionId
  | .seen _ | .record _ | .isOwnedBy _ | .requestedControl => Bool
  | .acquire _ => Except String ResourceLock
  | .currentVersion _ => Option String
  | .reconcile _ _ => Except String (Option ToolResult)
  | .finish _ _ => ToolEnd
  | .readSession => AgentState × WorldSnapshot
  | .process _ _ => Processed
  | .emit _ _ | .forget _ | .release _ | .setCurrent _ _ | .start _ _ | .setPending _ | .observe _ _
  | .remember _ | .countAttempt _ _ | .settle _ _ => Unit

inductive Interrupt where
  | cancelled
  | error (message : String)
deriving DecidableEq

abbrev ActionM := Prog Op Answer Interrupt

def ask (o : Op) : ActionM (Answer o) := Prog.op o

def Registries.perform (r : Registries) : (o : Op) → Option (Answer o × Registries)
  | .seen key => some (decide (key ∈ r.seen), r)
  | .record key =>
    if key ∈ r.seen then some (false, r) else some (true, { r with seen := key :: r.seen })
  | .forget key => some ((), { r with seen := r.seen.filter (· ≠ key) })
  | .isOwnedBy lock => some (decide (r.locks.lookup lock.resourceKey = some lock), r)
  | .acquire lock =>
    match r.locks.lookup lock.resourceKey with
    | none => some (.ok lock, { r with locks := r.locks ++ [(lock.resourceKey, lock)] })
    | some existing =>
      if existing = lock then some (.ok existing, r)
      else some (.error ("resource is locked: " ++ lock.resourceKey ++ " by action " ++
        existing.actionId ++ " in session " ++ existing.sessionId), r)
  | .release lock =>
    some ((), { r with locks := r.locks.filter fun entry => entry.2 ≠ lock })
  | .currentVersion key => some (r.versions.lookup key, r)
  | .setCurrent key version =>
    some ((), { r with versions := dictSet r.versions (Text.strip key) (Text.strip version) })
  | .start _ _ => some ((), r)
  | _ => none

/-- `if c: x`. -/
def whenever (c : Prop) [Decidable c] (x : ActionM Unit) : ActionM Unit := if c then x else pure ()

/-- An operation of the registries is answered by them; any other by the world, which may interrupt. -/
def respond (r : Registries) (o : Op) (answer : Except Interrupt (Answer o)) (r' : Registries) : Prop :=
  match r.perform o with
  | some (a, next) => answer = .ok a ∧ r' = next
  | none => r' = r

/-! ## The executor -/

structure SandboxActionContext where
  risk : RiskLevel
  sideEffect : SideEffect
  path : Option String
  tool : ToolDefinition
  arguments : JsonMapping

structure SandboxResult where
  permitted : Bool
  reason : String
  executed : Bool

structure ActionExecutor where
  components : RuntimeComponents
  environment : JsonMapping
  resolveSecrets : JsonMapping → Except String JsonMapping
  validateArguments : ToolDefinition → JsonMapping → Option String
  sandbox : Option (SandboxActionContext → Except String SandboxResult)
  parametersHash : JsonMapping → Option String → Option String → String
  canonicalText : JsonMapping → String

inductive ActionOutcome where
  | rejected (errorCode : ErrorCode) (reason : String)
  | confirmationRequired (pending : PendingAction) (reason : String)
  | observed (pending : PendingAction) (result : ToolResult)

/-! ### Resources -/

def strippedText : Option Json → Option String
  | some (.str s) => if Text.isBlank s then none else some (Text.strip s)
  | _ => none

def resourceKey (capability : String) (target : Option String) (arguments : JsonMapping) : String :=
  match strippedText (target.map .str) with
  | some key => key
  | none =>
    match ["resource_key", "resource", "target", "id"].findSome? fun key =>
        strippedText (arguments.lookup key) with
    | some key => key
    | none =>
      match strippedText (arguments.lookup "namespace"), strippedText (arguments.lookup "name") with
      | some ns, some name => ns ++ "/" ++ name
      | none, some name => capability ++ ":" ++ name
      | _, none => ""

def resourceVersion (arguments : JsonMapping) : Option String :=
  ["resource_version", "resourceVersion", "version", "revision"].findSome? fun key =>
    match arguments.lookup key with
    | some (.int i) => some (toString i)
    | value => strippedText value

def resourceMetadata (sideEffect : SideEffect) (capability : String) (target : Option String)
    (arguments : JsonMapping) : String × Option String :=
  if sideEffect = .none then ("", none)
  else (resourceKey capability target arguments, resourceVersion arguments)

def ensureResourceMetadata (pending : PendingAction) (sideEffect : SideEffect) : PendingAction :=
  if sideEffect = .none ∨ pending.resourceKey ≠ "" then pending
  else
    let metadata := resourceMetadata sideEffect pending.capability pending.target pending.arguments
    if metadata.1 = "" ∧ metadata.2 = none then pending
    else { pending with resourceKey := metadata.1, resourceVersion := metadata.2 }

/-- `parse_non_empty_string` of a resource key. -/
def requireKey (key : String) : ActionM Unit :=
  if Text.isBlank key then .raise (.error "resource_key must not be empty") else pure ()

def lockOf (state : AgentState) (pending : PendingAction) : ResourceLock :=
  ⟨pending.resourceKey, pending.actionId, state.sessionId, state.currentTask.id⟩

def acquireResourceLock (state : AgentState) (pending : PendingAction) :
    ActionM (Except ActionOutcome (Option ResourceLock)) := do
  if pending.resourceKey = "" then pure (.ok none)
  else do
    let alreadyOwned : Bool ← ask (.isOwnedBy (lockOf state pending))
    requireKey pending.resourceKey
    let acquired : Except String ResourceLock ← ask (.acquire (lockOf state pending))
    match acquired with
    | .error message => do
        ask (.emit "ResourceConflictDetected" pending.actionId)
        pure (.error (.rejected .resourceConflict message))
    | .ok lock => do
        if alreadyOwned then pure (.ok (some lock))
        else do
          ask (.emit "ResourceLockAcquired" pending.actionId)
          pure (.ok (some lock))

def releaseResourceLock : Option ResourceLock → ActionM Unit
  | none => pure ()
  | some lock => do
      ask (.release lock)
      ask (.emit "ResourceLockReleased" lock.actionId)

def checkResourceVersion (pending : PendingAction) : ActionM (Option ActionOutcome) := do
  if pending.resourceKey = "" then pure none
  else do
    requireKey pending.resourceKey
    let current : Option String ← ask (.currentVersion pending.resourceKey)
    match pending.resourceVersion, current with
    | some expected, some known =>
      if expected = known then do
        ask (.emit "ResourceVersionChecked" pending.actionId)
        pure none
      else do
        ask (.emit "ResourceVersionChecked" pending.actionId)
        ask (.emit "ResourceConflictDetected" pending.actionId)
        pure (some (.rejected .resourceConflict ("resource version conflict: " ++
          pending.resourceKey ++ " expected " ++ expected ++ ", current " ++ known)))
    | _, _ => do
        ask (.emit "ResourceVersionChecked" pending.actionId)
        pure none

def updateResourceVersion (pending : PendingAction) (output : JsonMapping) : ActionM Unit := do
  if pending.resourceKey = "" then pure ()
  else
    match resourceVersion output with
    | none => pure ()
    | some version => do
        requireKey pending.resourceKey
        ask (.setCurrent pending.resourceKey version)
        ask (.emit "ResourceVersionUpdated" pending.actionId)

section Executor

variable (executor : ActionExecutor)

/-! ### Tools -/

def mismatched (call : ToolCall) : Option DomainIdentity → Bool
  | none => false
  | some identity =>
    (call.domainName ≠ "" || call.domainVersion ≠ "") &&
      (call.domainName ≠ identity.name || call.domainVersion ≠ identity.version)

def failedResult (error : String) (errorCode : ErrorCode) : ToolResult :=
  { status := .failed, error := some error, errorCode := some errorCode }

/-- `ToolRuntime.execute`. -/
def executeTool (call : ToolCall) : ActionM ToolResult := do
  match executor.components.tools.get? call.toolName with
  | none => pure (failedResult ("unknown tool: " ++ call.toolName) .unknownTool)
  | some registration =>
    if mismatched call registration.domainIdentity then
      pure (failedResult ("tool domain mismatch: " ++ call.domainName ++ "@" ++ call.domainVersion ++
        " != " ++ (registration.domainIdentity.map identityText).getD "") .validationError)
    else if call.capability ∉ registration.tool.capabilities then
      pure (failedResult ("tool does not implement capability: " ++ call.capability) .validationError)
    else
      match executor.resolveSecrets call.arguments with
      | .error message => pure (failedResult message .validationError)
      | .ok arguments =>
        match executor.validateArguments registration.tool arguments with
        | some message => pure (failedResult message .validationError)
        | none => do
            ask (.start call registration.tool)
            let ended : ToolEnd ← ask (.finish call registration.tool)
            pure (ended.result call.toolName)

def observe (pending : PendingAction) (result : ToolResult) : ActionM ActionOutcome := do
  ask (.observe (toolCall pending) result)
  ask (.emit "ObservationReceived" pending.actionId)
  pure (.observed pending result)

def invoke (pending : PendingAction) : ActionM ActionOutcome := do
  ask (.emit "ActionStarted" pending.actionId)
  let result ← executeTool executor (toolCall pending)
  ask (.emit "ActionCompleted" pending.actionId)
  whenever (result.status = .succeeded) (updateResourceVersion pending result.output)
  observe pending result

/-! ### Reconciliation -/

def pendingDomainIdentity (pending : PendingAction) : Option DomainIdentity :=
  if pending.domainName ≠ "" ∧ pending.domainVersion ≠ "" then
    some ⟨pending.domainName, pending.domainVersion⟩
  else none

/-- `_reconcile_action` of the reconcilers that are left. -/
def reconcileWith (pending : PendingAction) : List CapabilityUser → ActionM (Option ActionOutcome)
  | [] => pure none
  | reconciler :: reconcilers => do
      if reconciler.capabilityNames ≠ [] ∧ pending.capability ∉ reconciler.capabilityNames then
        reconcileWith pending reconcilers
      else do
        let answer : Except String (Option ToolResult) ← ask (.reconcile reconciler.name pending)
        match answer with
        | .error _ => do
            ask (.emit "ActionReconcileFailed" pending.actionId)
            reconcileWith pending reconcilers
        | .ok none => reconcileWith pending reconcilers
        | .ok (some result) => do
            ask (.emit "ActionReconciled" pending.actionId)
            whenever (result.status = .succeeded) (updateResourceVersion pending result.output)
            let outcome ← observe pending result
            pure (some outcome)

def reconcileRequiredResult (pending : PendingAction) : ToolResult where
  status := .unknown
  output := [("reconcile_required", .bool true), ("idempotency_key", .str pending.idempotencyKey),
    ("parameters_hash", .str pending.parametersHash), ("resource_key", .str pending.resourceKey)]
  error := some ("side-effecting action already has an execution record; " ++
    "reconcile action outcome before retry")
  errorCode := some .resourceConflict

def reconcileRequired (pending : PendingAction) : ActionM ActionOutcome := do
  let reconcilers := executor.components.domainComposition.actionReconcilersFor
    (pendingDomainIdentity pending)
  match ← reconcileWith pending reconcilers with
  | some outcome => pure outcome
  | none => do
      ask (.emit "ActionReconcileRequired" pending.actionId)
      observe pending (reconcileRequiredResult pending)

/-! ### Execution -/

def checkSandbox (tool : ToolDefinition) (pending : PendingAction) : ActionM (Option ActionOutcome) := do
  match executor.sandbox with
  | none => pure none
  | some guard =>
    let path := if pending.resourceKey ≠ "" then some pending.resourceKey else pending.target
    match guard ⟨tool.risk, tool.sideEffect, path, tool, pending.arguments⟩ with
    | .error message => do
        ask (.emit "SandboxDenied" pending.actionId)
        pure (some (.rejected .policyDenied message))
    | .ok result => do
        ask (.emit "SandboxChecked" pending.actionId)
        if result.permitted then pure none
        else pure (some (.rejected .policyDenied result.reason))

def actionFingerprint (pending : PendingAction) : String :=
  pending.capability ++ "|" ++ pending.target.getD "" ++ "|" ++ executor.canonicalText pending.arguments

def readOnlyPolicyResult (state : AgentState) (capability : CapabilityDefinition)
    (tool : ToolDefinition) : Option PolicyResult :=
  if state.readOnly = false then none
  else if capability.category ≠ .mutation ∧ tool.sideEffect = .none then none
  else some ⟨.deny, "read-only session cannot execute side-effecting capability: " ++ capability.name,
    "runtime-read-only"⟩

def confirmedEffective (state : AgentState) (pending : PendingAction) (confirmed : Bool) : Bool :=
  confirmed || decide (actionFingerprint executor pending ∈ state.approvedFingerprints)

/-- `policy_result`: what the session, or else the policies, say of an action. -/
def policyResult (state : AgentState) (pending : PendingAction) (resolution : CapabilityResolution)
    (confirmed : Bool) : PolicyResult :=
  (readOnlyPolicyResult state resolution.capability resolution.tool).getD
    (check executor.components.policies
      (contextOf state pending resolution executor.environment confirmed))

/-- The part of `execute` behind the lock. -/
def executeLocked (pending : PendingAction) (tool : ToolDefinition) (remembers : Bool) :
    ActionM ActionOutcome := do
  let recorded ←
    (if tool.sideEffect ≠ .none then ask (.record pending.idempotencyKey) else pure false : ActionM Bool)
  Prog.tryCatch (do
      whenever (tool.sideEffect ≠ .none) (ask (.emit "IdempotencyChecked" pending.actionId))
      if tool.sideEffect ≠ .none ∧ recorded = false then reconcileRequired executor pending
      else do
        let outcome ← invoke executor pending
        match outcome with
        | .observed _ result => do
            whenever (recorded = true ∧ result.status ≠ .succeeded)
              (ask (.forget pending.idempotencyKey))
            whenever (remembers = true ∧ result.status = .succeeded)
              (ask (.remember (actionFingerprint executor pending)))
            pure outcome
        | _ => pure outcome)
    fun e => do
      whenever (recorded = true) (ask (.forget pending.idempotencyKey))
      .raise e

/-- The part of `execute` behind the policies and the sandbox. -/
def executeAllowed (state : AgentState) (pending : PendingAction) (tool : ToolDefinition)
    (policyResult : PolicyResult) (remembers : Bool) : ActionM ActionOutcome := do
  let seen ←
    (if tool.sideEffect ≠ .none then ask (.seen pending.idempotencyKey) else pure false : ActionM Bool)
  if seen then do
    ask (.setPending none)
    match ← acquireResourceLock state pending with
    | .error outcome => pure outcome
    | .ok lock =>
      Prog.tryFinally (do
          ask (.emit "IdempotencyChecked" pending.actionId)
          reconcileRequired executor pending)
        (releaseResourceLock lock)
  else
    match ← checkResourceVersion pending with
    | some outcome => pure outcome
    | none =>
      if policyResult.effect = .requireConfirmation then do
        match ← acquireResourceLock state pending with
        | .error outcome => pure outcome
        | .ok _ => do
            ask (.setPending (some pending))
            pure (.confirmationRequired pending policyResult.reason)
      else do
        ask (.setPending none)
        match ← acquireResourceLock state pending with
        | .error outcome => pure outcome
        | .ok lock =>
          Prog.tryFinally (executeLocked executor pending tool remembers) (releaseResourceLock lock)

def execute (state : AgentState) (pending : PendingAction) (confirmed : Bool) :
    ActionM ActionOutcome := do
  match executor.components.resolver.resolveRegistration pending.capability with
  | .error error => pure (.rejected .invalidState error.message)
  | .ok resolution =>
    let tool := resolution.tool
    if tool.name ≠ pending.toolName then
      pure (.rejected .invalidState "pending action tool resolution changed")
    else if (resolution.capabilityDomain.any fun domain =>
        pending.domainName ≠ domain.name || pending.domainVersion ≠ domain.version) = true then
      pure (.rejected .invalidState "pending action domain resolution changed")
    else
      let pending := ensureResourceMetadata pending tool.sideEffect
      if tool.sideEffect ≠ .none ∧ pending.resourceKey = "" then
        pure (.rejected .validationError "side-effecting action requires a resource identity")
      else
        let confirmed := confirmedEffective executor state pending confirmed
        let result := policyResult executor state pending resolution confirmed
        let remembers := confirmed && (readOnlyPolicyResult state resolution.capability tool).isNone
        do
          ask (.emit "PolicyChecked" pending.actionId)
          if result.effect = .deny then pure (.rejected .policyDenied result.reason)
          else
            match ← checkSandbox executor tool pending with
            | some outcome => pure outcome
            | none => executeAllowed executor state pending tool result remembers

/-! ### Preparation -/

/-- `_enrich_decision_arguments`: the arguments, and the names of those that were added. -/
def enrichArguments (state : AgentState) (world : WorldSnapshot) (decision : Decision)
    (resolution : CapabilityResolution) : List ActionArgumentProvider → JsonMapping × List String →
      JsonMapping × List String
  | [], enriched => enriched
  | provider :: providers, enriched =>
    if provider.capabilityNames ≠ [] ∧
        (∀ name ∈ provider.capabilityNames, decision.capability ≠ some name) then
      enrichArguments state world decision resolution providers enriched
    else
      let provided := provider.provide ⟨state.sessionId, state.goal, state.currentTask,
        { decision with arguments := enriched.1 }, resolution.capability, resolution.tool, world⟩
      let added := provided.foldl (fun (enriched : JsonMapping × List String) item =>
        if (enriched.1.lookup item.1).isSome then enriched
        else (enriched.1 ++ [item], enriched.2 ++ [item.1])) enriched
      enrichArguments state world decision resolution providers added

def idempotencyKey (sessionId : SessionId) (taskId : TaskId) (parametersHash : String) : String :=
  sessionId ++ ":" ++ taskId ++ ":" ++ String.ofList (parametersHash.toList.take 16)

def prepare (state : AgentState) (world : WorldSnapshot) (decision : Decision) :
    ActionM ActionOutcome := do
  match executor.components.resolver.resolveRegistration (decision.capability.getD "") with
  | .error (.unknownCapability message) => pure (.rejected .unknownCapability message)
  | .error (.capabilityUnavailable message) => pure (.rejected .noCapabilityTool message)
  | .ok resolution =>
    let providers := executor.components.domainComposition.actionArgumentProvidersFor
      resolution.capabilityDomain
    let enriched := enrichArguments state world decision resolution providers (decision.arguments, [])
    let hash := executor.parametersHash enriched.1 decision.capability decision.target
    let metadata := resourceMetadata resolution.tool.sideEffect resolution.capability.name
      decision.target enriched.1
    if resolution.tool.sideEffect ≠ .none ∧ metadata.1 = "" then
      pure (.rejected .validationError "side-effecting action requires a resource identity")
    else do
      let actionId : ActionId ← ask .newActionId
      let pending : PendingAction :=
        { actionId := actionId
          capability := resolution.capability.name
          toolName := resolution.tool.name
          target := decision.target
          arguments := enriched.1
          domainName := (resolution.capabilityDomain.map DomainIdentity.name).getD ""
          domainVersion := (resolution.capabilityDomain.map DomainIdentity.version).getD ""
          idempotencyKey := idempotencyKey state.sessionId state.currentTask.id hash
          parametersHash := hash
          attempt := 1
          resourceKey := metadata.1
          resourceVersion := metadata.2 }
      whenever (enriched.2 ≠ []) (ask (.emit "ActionArgumentsEnriched" actionId))
      ask (.emit "CapabilityResolved" actionId)
      execute executor state pending false

/-! ### Recovery -/

def failureOf (state : AgentState) (pending : PendingAction) (errorCode : ErrorCode)
    (reason : String) : Failure :=
  ⟨state.currentTask.id, errorCode, classifyFailure errorCode, reason, some pending.capability,
    pending.arguments, pending.target⟩

/-- `plan_recovery_for_pending`: the decision to go on with, if there is one. -/
def planRecovery (pending : PendingAction) (state : AgentState) (failure : Failure) :
    ActionM (Option Decision) := do
  let recovery := (executor.components.recoveryManager.decide failure state.recoveryAttempts).1
  let key := (executor.components.recoveryManager.decide failure state.recoveryAttempts).2
  whenever (key ≠ "") (ask (.countAttempt key recovery.attempt))
  ask (.emit (if recovery.exhausted then "RecoveryExhausted" else "RecoveryPlanned") pending.actionId)
  if recovery.strategy ∈ [.retryAction, .reobserve, .alternativeCapability] then
    pure (some {
      type := .execute
      reason := "recovery via " ++ StrEnum.value recovery.strategy
      capability := some ((recovery.capability.filter (· ≠ "")).getD pending.capability)
      target := pending.target
      arguments := pending.arguments
      expectedObservations := ["recovery"] })
  else if recovery.strategy = .askUser then do
    ask (.settle none failure.reason)
    pure none
  else do
    ask (.settle (some failure.errorCode) failure.reason)
    pure none

inductive Driven where
  | decision (decision : Decision)
  | pending (pending : PendingAction)

def executeDriven (state : AgentState) (world : WorldSnapshot) : Driven → ActionM ActionOutcome
  | .pending pending => execute executor state pending true
  | .decision decision => prepare executor state world decision

/-- An observation is processed, and the recovery from a failure planned. -/
def processObserved (state : AgentState) (pending : PendingAction) (result : ToolResult) :
    ActionM (Option Decision) :=
  if result.status ≠ .succeeded then
    planRecovery executor pending state (failureOf state pending (result.errorCode.getD .toolFailure)
      ((result.error.filter (· ≠ "")).getD "tool execution failed"))
  else do
    let processed : Processed ← ask (.process pending result)
    match processed with
    | .settled | .next => pure none
    | .failed reason =>
      planRecovery executor pending state (failureOf state pending .evaluationFailed reason)

/-- `_drive`: one action, then any recovery that it triggers. -/
def drive : Nat → Driven → ActionM Unit
  | 0, _ => ask (.settle (some .iterationLimit) "maximum recovery steps reached")
  | steps + 1, driven => do
      let requested : Bool ← ask .requestedControl
      if requested then pure ()
      else do
        let session : AgentState × WorldSnapshot ← ask .readSession
        let outcome ← executeDriven executor session.1 session.2 driven
        match outcome with
        | .rejected errorCode reason => ask (.settle (some errorCode) reason)
        | .confirmationRequired _ reason => ask (.settle none reason)
        | .observed pending result => do
            let session : AgentState × WorldSnapshot ← ask .readSession
            match ← processObserved executor session.1 pending result with
            | none => pure ()
            | some decision => drive steps (.decision decision)

end Executor

end UniversalAgent.Runtime.Actions
