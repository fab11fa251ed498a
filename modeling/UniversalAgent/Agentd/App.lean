import UniversalAgent.Agentd.ConfigAdminRoutes

/-!
# Agentd — App

`AgentdApp.handle` (`agentd/app.py`): a request is authenticated, passes the guards, and goes through the
handlers in their order. The handlers that reach the runtime services, and nothing else, are fields of the
application.
-/

namespace UniversalAgent.Agentd

open UniversalAgent.Core UniversalAgent.Foundation UniversalAgent.Security

inductive Bundle where
  | default
  | profile (name : String)
deriving DecidableEq

structure Routed where
  request : HttpRequest
  method : String
  path : PathText
  bundle : Bundle
  tenantId : Option String

/-- A handler of the runtime services; without a response the next one is tried. -/
abbrev Handler (σ : Type) := Routed → EStateM AppError σ (Option HttpResponse)

inductive ProfileServiceError where
  | notFound
  | failed (message : String)

structure AgentdApp (σ : Type) where
  casing : CaseMapping
  url : UrlParser
  auth : AgentdAuthPolicy
  adminStore : Option AdminStore
  profileStore : Option ProfileStore
  defaultProfileNames : List String
  profileServiceFactory : Option (String → Except ProfileServiceError Unit)
  hasActiveSessions : σ → String → Bool
  tenantGuard : Handler σ
  memoryRoutes : Handler σ
  laterRoutes : List (Handler σ)

namespace AgentdApp

variable {σ : Type} (app : AgentdApp σ)

/-- `_bundle_for`: the bundle, or a response. -/
def bundleFor (request : HttpRequest) : AppM σ (Except HttpResponse Bundle) := do
  match request.headers.lookup "x-profile" with
  | none => pure (.ok .default)
  | some profile =>
    if profile = "" || decide (profile ∈ app.defaultProfileNames) then pure (.ok .default)
    else
      match app.profileServiceFactory with
      | none =>
        pure (.error (badRequest "profile hot-swap is not configured on this server"))
      | some factory =>
        if profile ∈ (← get).profileBundles then pure (.ok (.profile profile))
        else
          match factory profile with
          | .error .notFound =>
            pure (.error (notFound ("profile config not found: " ++ profile)))
          | .error (.failed message) =>
            pure (.error (badRequest ("failed to build service for profile '" ++ profile ++
              "': " ++ message)))
          | .ok _ => do
              modify fun s => { s with profileBundles := s.profileBundles ++ [profile] }
              pure (.ok (.profile profile))

def profilePrefix : PathText := "/v1/profiles/".toList

/-- The profile that `_profile_mutation_guard` takes from the path. -/
def guardedProfile (method : String) (path : PathText) : Option PathText :=
  if method ≠ "PATCH" ∧ method ≠ "DELETE" then none
  else if !profilePrefix.isPrefixOf path then none
  else
    let profile := (path.drop profilePrefix.length).takeWhile (· ≠ '/')
    if profile = [] then none else some profile

def profileMutationGuard (method : String) (path : PathText) : AppM σ (Option HttpResponse) := do
  match guardedProfile method path with
  | none => pure none
  | some profile => do
      recordCall (.checked profile)
      let name := String.ofList profile
      let s ← get
      if name ∉ s.profileBundles then pure none
      else if app.hasActiveSessions s.services name then
        pure (some (jsonResponse (errorBody "profile_in_use" ("profile '" ++ name ++
          "' has running or waiting sessions; settle them before changing the profile")) 409))
      else do
        modify fun s => { s with profileBundles := s.profileBundles.filter (· ≠ name) }
        pure none

def adminPath (path : PathText) : Bool :=
  ("/v1/profiles".toList.isPrefixOf path || "/v1/config".toList.isPrefixOf path ||
    "/v1/domains/".toList.isPrefixOf path) && !"/v1/config/validate".toList.isPrefixOf path

def configGate (principal : Option RequestPrincipal) (method : String) (path : PathText) :
    AppM σ (Option HttpResponse) :=
  if method ≠ "GET" && adminPath path then pure (adminGate principal) else pure none

def handlers (principal : Option RequestPrincipal) (routed : Routed) :
    List (AppM σ (Option HttpResponse)) :=
  [onServices (app.tenantGuard routed), onServices (app.memoryRoutes routed),
    app.profileMutationGuard routed.method routed.path,
    configGate principal routed.method routed.path,
    handleConfigAdminRoute app.casing app.url app.profileStore routed.request routed.method
      routed.path] ++
  app.laterRoutes.map fun handler => onServices (handler routed)

/-- `handle` behind the authentication. -/
def route (request : HttpRequest) (method : String) (path : PathText)
    (principal : Option RequestPrincipal) : AppM σ HttpResponse := do
  if "/v1/admin".toList.isPrefixOf path && app.adminStore.isNone then
    pure (notFound ("admin plane is not configured on this server; " ++
      "restart agentd with --admin-store to enable it"))
  else
    match ← handleAdminRoute app.casing app.url app.adminStore principal request method path with
    | some response => pure response
    | none =>
      match ← app.bundleFor request with
      | .error response => pure response
      | .ok bundle =>
        firstResponse (notFound ("unknown route: " ++ String.ofList path))
          (app.handlers principal ⟨request, method, path, bundle,
            principal.map RequestPrincipal.tenantId⟩)

def handle (request : HttpRequest) : AppM σ HttpResponse := do
  let method := app.casing.upper request.method
  let path ← ofUrl (normalizePath app.url request.path)
  let (auth, events) ← ofAuth (authenticate app.casing app.auth request path method)
  recordEvents events
  match auth.response with
  | some response => pure response
  | none => app.route request method path auth.principal

end AgentdApp

end UniversalAgent.Agentd
