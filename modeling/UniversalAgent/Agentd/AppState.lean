import UniversalAgent.Agentd.Http

/-!
# Agentd — AppState

What a request can change: the state of the runtime services, the profiles that have a service of their
own, the audit events, and, call by call, what is asked of the profile store and the credential store.
A request is a computation over this state that may raise; its handlers are tried one after another.
-/

namespace UniversalAgent.Agentd

open UniversalAgent.Core UniversalAgent.Foundation UniversalAgent.Security

inductive StoreCall where
  | checked (profile : PathText)
  | createProfile (payload : JsonMapping)
  | patchProfile (name : PathText) (changes : JsonMapping)
  | deleteProfile (name : PathText)
  | setDomainBinding (profile : String) (domain : PathText) (bound : Bool)
      (settings : Option JsonMapping)
  | credential (call : CredentialCall)

def StoreCall.writes : StoreCall → Bool
  | .checked _ => false
  | .createProfile _ | .patchProfile _ _ | .deleteProfile _ | .setDomainBinding _ _ _ _
  | .credential _ => true

/-- The name of the file that the store finds under a name: `_validate_name` strips it. -/
def profileFile (name : PathText) : PathText := (Text.strip (String.ofList name)).toList

def StoreCall.changes? : StoreCall → Option PathText
  | .patchProfile name _ | .deleteProfile name => some (profileFile name)
  | .checked _ | .createProfile _ | .setDomainBinding _ _ _ _ | .credential _ => none

inductive AppError where
  | url (error : UrlError)
  | auth (error : AuthError)
  | service (message : String)
deriving DecidableEq

/-- The state of the application; `σ` is that of the runtime services. -/
structure AppState (σ : Type) where
  services : σ
  profileBundles : List String
  audit : List AuditEvent
  calls : List StoreCall

abbrev AppM (σ : Type) := EStateM AppError (AppState σ)

variable {σ : Type}

def ofUrl {α : Type} : Except UrlError α → AppM σ α
  | .ok a => pure a
  | .error e => throw (.url e)

def ofAuth {α : Type} : Except AuthError α → AppM σ α
  | .ok a => pure a
  | .error e => throw (.auth e)

def recordEvents (events : List AuditEvent) : AppM σ Unit :=
  modify fun s => { s with audit := s.audit ++ events }

def recordCall (call : StoreCall) : AppM σ Unit :=
  modify fun s => { s with calls := s.calls ++ [call] }

def onServices {α : Type} (x : EStateM AppError σ α) : AppM σ α := fun s =>
  match x s.services with
  | .ok a services => .ok a { s with services := services }
  | .error e services => .error e { s with services := services }

def firstResponse (last : HttpResponse) : List (AppM σ (Option HttpResponse)) → AppM σ HttpResponse
  | [] => pure last
  | handler :: handlers => do
      match ← handler with
      | some response => pure response
      | none => firstResponse last handlers

def callsOf {α : Type} (x : AppM σ α) (s : AppState σ) : List StoreCall :=
  match x s with
  | .ok _ s' => s'.calls.drop s.calls.length
  | .error _ s' => s'.calls.drop s.calls.length

end UniversalAgent.Agentd
