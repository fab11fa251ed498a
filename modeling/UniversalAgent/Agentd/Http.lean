import UniversalAgent.Agentd.RouteDefinitions
import UniversalAgent.Core.Json
import UniversalAgent.Security.Authorization
import UniversalAgent.Security.Credentials

/-!
# Agentd — Http

Requests, responses, and how a request is authenticated (`agentd/http.py`): by a credential of the
credential store, or by one of two tokens that are shared. The audit events that are recorded are part
of what `_authenticate` gives; `hmac.compare_digest` and Starlette's `Headers` may raise.
-/

namespace UniversalAgent.Agentd

open UniversalAgent.Core UniversalAgent.Foundation UniversalAgent.Security

abbrev HttpHeaders := List (String × String)

structure HttpRequest where
  method : String
  path : PathText
  body : JsonMapping
  headers : HttpHeaders

structure HttpResponse where
  statusCode : Nat
  body : JsonMapping
  headers : HttpHeaders
  textBody : Option String := none
deriving DecidableEq

def jsonHeaders : HttpHeaders := [("content-type", "application/json")]

def jsonResponse (body : JsonMapping) (statusCode : Nat := 200) : HttpResponse where
  statusCode := statusCode
  body := body
  headers := jsonHeaders

def errorBody (code message : String) : JsonMapping :=
  [("error", .obj [("code", .str code), ("message", .str message)])]

def notFound (message : String) : HttpResponse := jsonResponse (errorBody "not_found" message) 404

def unauthorized : HttpResponse where
  statusCode := 401
  body := errorBody "unauthorized" "authentication required"
  headers := jsonHeaders ++ [("www-authenticate", "Bearer realm=\"agentd\"")]

def forbidden (message : String) : HttpResponse := jsonResponse (errorBody "forbidden" message) 403

def badRequest (message : String) : HttpResponse :=
  jsonResponse (errorBody "bad_request" message) 400

def conflict (message : String) : HttpResponse := jsonResponse (errorBody "conflict" message) 409

def methodNotAllowed (allowed : List String) : HttpResponse where
  statusCode := 405
  body := errorBody "method_not_allowed" "method is not allowed for this route"
  headers := jsonHeaders ++ [("allow", ", ".intercalate allowed)]

/-! ## The policy -/

/-- What `_authenticate` asks a `CredentialAdminStore`. -/
structure CredentialLookup where
  resolve : String → Option RequestPrincipal
  hasAnyAdmin : Bool
  hasAnyCredential : Bool

/-- An `InMemoryCredentialStore` is asked. -/
def lookupOf (secrets : Secrets) (store : CredentialStore) : CredentialLookup where
  resolve := store.resolve secrets
  hasAnyAdmin := store.memberships.rows.any fun m => m.role = .admin
  hasAnyCredential := !store.byId.rows.isEmpty

/-- `AgentdAuthPolicy`, with what `__post_init__` checks: `compare_digest` refuses two tokens that are
not ASCII. -/
structure AgentdAuthPolicy where
  bearerToken : Option String
  readOnlyBearerToken : Option String
  publicPaths : List PathText
  credentialStore : Option CredentialLookup
  tenantId : Option String
  tokens_filled : ∀ token, bearerToken = some token ∨ readOnlyBearerToken = some token →
    Text.isBlank token = false
  tokens_differ : ∀ bearer readOnly, bearerToken = some bearer →
    readOnlyBearerToken = some readOnly →
      isAscii bearer = true ∧ isAscii readOnly = true ∧ bearer ≠ readOnly
  tenant_filled : ∀ tenant, tenantId = some tenant → Text.isBlank tenant = false
  paths_absolute : ∀ path ∈ publicPaths, path.head? = some '/'

def AgentdAuthPolicy.enabled (policy : AgentdAuthPolicy) : Bool :=
  policy.bearerToken.isSome || policy.readOnlyBearerToken.isSome || policy.credentialStore.isSome

def AgentdAuthPolicy.foreignTo (policy : AgentdAuthPolicy) (principal : RequestPrincipal) :
    Option String :=
  match policy.tenantId with
  | some tenantId => if principal.tenantId = tenantId then none else some tenantId
  | none => none

structure AuthOutcome where
  response : Option HttpResponse := none
  principal : Option RequestPrincipal := none
deriving DecidableEq

/-- An `AuditEvent`. -/
structure AuditEvent where
  event : String
  actor : String
  reason : Option String
  tenantId : Option String
  resource : Option PathText
  details : JsonMapping
deriving DecidableEq

inductive AuthError where
  | notAscii
  | notLatin1
deriving DecidableEq

/-! ## Tokens -/

/-- `hmac.compare_digest(a, b)` of two texts. -/
def compareDigest (a b : String) : Except AuthError Bool :=
  if isAscii a && isAscii b then .ok (decide (a = b)) else .error .notAscii

def tokenMatches (token : String) : Option String → Except AuthError Bool
  | none => .ok false
  | some expected => compareDigest token expected

def isLatin1 (s : String) : Bool := s.toList.all fun c => c.toNat < 256

/-- `Headers(headers=headers)` encodes all headers. -/
def encodable (casing : CaseMapping) (headers : HttpHeaders) : Bool :=
  headers.all fun header => isLatin1 (casing.lower header.1) && isLatin1 header.2

def authorizationHeader (casing : CaseMapping) (headers : HttpHeaders) :
    Except AuthError (Option String) :=
  if encodable casing headers then
    .ok ((headers.find? fun header => casing.lower header.1 = "authorization").map Prod.snd)
  else .error .notLatin1

def bearerToken (casing : CaseMapping) : Option String → Option String
  | none => none
  | some value =>
    let text := (Text.strip value).toList
    let scheme := text.takeWhile (· ≠ ' ')
    match text.dropWhile (· ≠ ' ') with
    | [] => none
    | _ :: token =>
      if casing.lower (String.ofList scheme) ≠ "bearer" || token = [] then none
      else some (String.ofList token)

/-! ## Authentication -/

/-- What `_record_denial` records. -/
def denial (path : PathText) (method reason : String) (actor : String := "anonymous") :
    AuditEvent where
  event := "denied"
  actor := actor
  reason := some reason
  tenantId := none
  resource := some path
  details := [("method", .str method)]

abbrev Authenticated := AuthOutcome × List AuditEvent

def admitted (principal : Option RequestPrincipal := none) : Authenticated :=
  (⟨none, principal⟩, [])

def refused (response : HttpResponse) (events : List AuditEvent) : Authenticated :=
  (⟨some response, none⟩, events)

variable (casing : CaseMapping) (policy : AgentdAuthPolicy)

/-- The branch of `_authenticate` with a credential store. -/
def authenticateCredential (store : CredentialLookup) (path : PathText) (method token : String) :
    Except AuthError Authenticated :=
  match store.resolve token with
  | none => do
      if (← tokenMatches token policy.bearerToken) &&
          !(store.hasAnyAdmin && store.hasAnyCredential) then
        pure admitted
      else pure (refused unauthorized [denial path method "unauthorized"])
  | some principal =>
    match policy.foreignTo principal with
    | some tenantId =>
      pure (refused
        (forbidden ("cross_tenant: subject " ++ principal.subject ++
          " is not a member of the server tenant " ++ tenantId))
        [denial path method "cross_tenant" principal.subject])
    | none =>
      let decision := authorizeRequest casing principal method
      if decision.allowed then pure (admitted (some principal))
      else pure (refused (forbidden ("rbac: " ++ decision.message.getD "None"))
        [denial path method "rbac" principal.subject])

/-- The branch of `_authenticate` with the shared tokens alone. -/
def authenticateShared (path : PathText) (method token : String) :
    Except AuthError Authenticated := do
  if ← tokenMatches token policy.bearerToken then pure admitted
  else if ← tokenMatches token policy.readOnlyBearerToken then
    if method = "GET" then pure admitted
    else pure (refused (forbidden "insufficient bearer token scope") [])
  else pure (refused unauthorized [denial path method "unauthorized"])

def authenticate (request : HttpRequest) (path : PathText) (method : String) :
    Except AuthError Authenticated :=
  if !policy.enabled || decide (path ∈ policy.publicPaths) then pure admitted
  else do
    match bearerToken casing (← authorizationHeader casing request.headers) with
    | none => pure (refused unauthorized [denial path method "unauthorized"])
    | some token =>
      match policy.credentialStore with
      | some store => authenticateCredential casing policy store path method token
      | none => authenticateShared policy path method token

end UniversalAgent.Agentd
