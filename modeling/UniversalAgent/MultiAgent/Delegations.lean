import UniversalAgent.Foundation.Machine
import UniversalAgent.Foundation.Table
import UniversalAgent.MultiAgent.Contracts

/-!
# MultiAgent — Delegations

The delegation manager (`multi_agent/delegation.py`) and its ledger (`multi_agent/ledger.py`): each
call changes the delegation first and then appends an event to the ledger, which may refuse it. A
call that raises is answered with the exception and the manager that it leaves. The ids of the
ledger's events are fresh, so none is taken for another; the times of a delegation are not kept.
-/

namespace UniversalAgent.MultiAgent

open UniversalAgent.Core UniversalAgent.Foundation

abbrev DelegationId := String

inductive DelegationStatus where
  | pending | running | completed | failed | revoked
deriving DecidableEq, Repr

namespace DelegationStatus

def value : DelegationStatus → String
  | pending => "pending"
  | running => "running"
  | completed => "completed"
  | failed => "failed"
  | revoked => "revoked"

def allowedTransitions : DelegationStatus → List DelegationStatus
  | pending => [running, failed, revoked]
  | running => [completed, failed, revoked]
  | completed => []
  | failed => []
  | revoked => []

def terminal (status : DelegationStatus) : Bool := status.allowedTransitions.isEmpty

end DelegationStatus

structure Delegation where
  delegationId : DelegationId
  taskId : AgentTaskId
  fromAgent : AgentId
  toAgent : AgentId
  contract : AgentTaskRequest
  status : DelegationStatus
  result : Option AgentTaskResult
  fallbackAgent : Option AgentId
deriving DecidableEq

structure DelegationEvent where
  eventType : String
  delegationId : DelegationId
  taskId : AgentTaskId
  fromAgent : AgentId
  toAgent : AgentId
  status : String
  data : JsonMapping
deriving DecidableEq

structure DelegationManager where
  delegations : Table Delegation.delegationId
  ledger : List DelegationEvent

namespace DelegationManager

def empty : DelegationManager := ⟨.empty, []⟩

def get (m : DelegationManager) (id : DelegationId) : Except AgentException Delegation :=
  match m.delegations.get? id with
  | some d => .ok d
  | none => .error (.delegationNotFound ("delegation not found: " ++ id))

/-- The `data` of an event. -/
def eventData (d : Delegation) : JsonMapping :=
  match d.result with
  | none => []
  | some r =>
    [("result_status", .str r.status.value), ("reason", .str r.reason)] ++
      match r.sessionId with
      | some id => [("session_id", .str id)]
      | none => []

def event (eventType : String) (d : Delegation) : Except AgentException DelegationEvent :=
  if Text.isBlank d.delegationId then
    .error (.value "delegation event delegation_id must not be empty")
  else if Text.isBlank d.taskId then .error (.value "delegation event task_id must not be empty")
  else if Text.isBlank d.fromAgent then
    .error (.value "delegation event from_agent must not be empty")
  else if Text.isBlank d.toAgent then .error (.value "delegation event to_agent must not be empty")
  else .ok ⟨eventType, d.delegationId, d.taskId, d.fromAgent, d.toAgent, d.status.value, eventData d⟩

/-- `_apply`, then `_record`. -/
def apply (m : DelegationManager) (eventType : String) (d : Delegation) :
    Except AgentException Delegation × DelegationManager :=
  let delegations := m.delegations.put d
  match event eventType d with
  | .ok e => (.ok d, ⟨delegations, m.ledger ++ [e]⟩)
  | .error e => (.error e, ⟨delegations, m.ledger⟩)

/-- `generated` is what the id factory returns, should it be asked. -/
def createDelegation (m : DelegationManager) (fromAgent toAgent : AgentId)
    (contract : AgentTaskRequest) (fallbackAgent : Option AgentId)
    (delegationId : Option DelegationId) (generated : DelegationId) :
    Except AgentException Delegation × DelegationManager :=
  let id := match delegationId with
    | some id => if id = "" then generated else id
    | none => generated
  m.apply "DelegationCreated"
    ⟨id, contract.taskId, fromAgent, toAgent, contract, .pending, none, fallbackAgent⟩

def eventTypeForStatus : DelegationStatus → String
  | .running => "DelegationStarted"
  | .completed => "DelegationCompleted"
  | .failed => "DelegationFailed"
  | .revoked => "DelegationRevoked"
  | .pending => "DelegationPending"

def transition (m : DelegationManager) (id : DelegationId) (target : DelegationStatus) :
    Except AgentException Delegation × DelegationManager :=
  match m.get id with
  | .error e => (.error e, m)
  | .ok current =>
    if target ∈ current.status.allowedTransitions then
      m.apply (eventTypeForStatus target) { current with status := target }
    else
      (.error (.invalidDelegationTransition ("cannot transition delegation from "
        ++ current.status.value ++ " to " ++ target.value)), m)

def start (m : DelegationManager) (id : DelegationId) :
    Except AgentException Delegation × DelegationManager := m.transition id .running

def revoke (m : DelegationManager) (id : DelegationId) :
    Except AgentException Delegation × DelegationManager := m.transition id .revoked

def complete (m : DelegationManager) (id : DelegationId) (result : AgentTaskResult) :
    Except AgentException Delegation × DelegationManager :=
  match m.get id with
  | .error e => (.error e, m)
  | .ok current =>
    if .completed ∉ current.status.allowedTransitions then
      (.error (.invalidDelegationTransition
        ("cannot complete delegation in status " ++ current.status.value)), m)
    else if result.taskId ≠ current.taskId then
      (.error (.invalidDelegationTransition ("result task_id " ++ result.taskId
        ++ " does not match delegation task_id " ++ current.taskId)), m)
    else
      m.apply "DelegationCompleted"
        { current with status := .completed, result := some result }

def fail (m : DelegationManager) (id : DelegationId) (error : String) :
    Except AgentException Delegation × DelegationManager :=
  match m.get id with
  | .error e => (.error e, m)
  | .ok current =>
    if .failed ∉ current.status.allowedTransitions then
      (.error (.invalidDelegationTransition
        ("cannot fail delegation in status " ++ current.status.value)), m)
    else
      match AgentTaskResult.unfinished current.taskId .failed error none with
      | .error e => (.error e, m)
      | .ok result =>
        match current.fallbackAgent with
        | some agent =>
          m.apply "DelegationFallbackQueued"
            { current with toAgent := agent, status := .pending, result := some result }
        | none =>
          m.apply "DelegationFailed"
            { current with status := .failed, result := some result }

def activeDelegations (m : DelegationManager) : List Delegation :=
  m.delegations.rows.filter fun d => decide (d.status = .pending) || decide (d.status = .running)

end DelegationManager

/-! ## Runs -/

inductive ManagerCall where
  | create (fromAgent toAgent : AgentId) (contract : AgentTaskRequest)
      (fallbackAgent : Option AgentId) (delegationId : Option DelegationId)
      (generated : DelegationId)
  | start (id : DelegationId)
  | complete (id : DelegationId) (result : AgentTaskResult)
  | fail (id : DelegationId) (error : String)
  | revoke (id : DelegationId)

def DelegationManager.call (m : DelegationManager) :
    ManagerCall → Except AgentException Delegation × DelegationManager
  | .create fromAgent toAgent contract fallbackAgent delegationId generated =>
    m.createDelegation fromAgent toAgent contract fallbackAgent delegationId generated
  | .start id => m.start id
  | .complete id result => m.complete id result
  | .fail id error => m.fail id error
  | .revoke id => m.revoke id

def delegationManager :
    Machine DelegationManager ManagerCall (Except AgentException Delegation) :=
  ⟨.empty, DelegationManager.call⟩

end UniversalAgent.MultiAgent
