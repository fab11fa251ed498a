import UniversalAgent.Agentd.AppState

/-!
# Agentd — ConfigAdminRoutes

The write planes: the credential store behind `/v1/admin` (`agentd/admin_routes.py`) and the profile
store behind `/v1/profiles`, `/v1/config` and `/v1/domains` (`agentd/config_admin_routes.py`). What the
stores answer, and the bodies of the routes that only read, are parameters.
-/

namespace UniversalAgent.Agentd

open UniversalAgent.Core UniversalAgent.Foundation UniversalAgent.Security

variable {σ : Type}

/-! ## The credential plane -/

inductive AdminStoreError where
  | alreadyExists (message : String)
  | notFound (message : String)
  | value (message : String)

/-- A `CredentialAdminStore`: what a call answers after the calls before it, and what a route reads. -/
structure AdminStore where
  perform : List StoreCall → CredentialCall → Except AdminStoreError HttpResponse
  read : List StoreCall → String → HttpRequest → PathParams → Except AdminStoreError HttpResponse

/-- `_admin_gate`: nobody but an admin; without a principal it is the shared token. -/
def adminGate : Option RequestPrincipal → Option HttpResponse
  | none => none
  | some principal =>
    if principal.role = .admin then none
    else some (forbidden ("rbac: subject " ++ principal.subject ++ " has role " ++
      StrEnum.value principal.role ++ "; the admin plane requires admin"))

def requiredString (body : JsonMapping) (key : String) : Option String :=
  match body.lookup key with
  | some (.str s) => if s = "" then none else some s
  | _ => none

def parseRole (body : JsonMapping) : Option Role :=
  match requiredString body "role" with
  | none => none
  | some value => (StrEnum.members : List Role).find? fun role => StrEnum.value role = value

/-- A status that is `active` or `disabled`. -/
def requiredStatus {α : Type} [StrEnum α] (body : JsonMapping) : Except AdminStoreError α :=
  match (requiredString body "status").bind fun value =>
      (StrEnum.members : List α).find? fun status => StrEnum.value status = value with
  | some status => .ok status
  | none => .error (.value "status is required and must be active or disabled")

def needed {α : Type} (message : String) : Option α → Except AdminStoreError α
  | some a => .ok a
  | none => .error (.value message)

def pathParam (params : PathParams) (name : String) : Option String :=
  (params.lookup name.toList).map String.ofList

/-- The call that a writing route makes of the store; none for a route that reads. -/
def adminCall (route method : String) (body : JsonMapping) (params : PathParams) :
    Except AdminStoreError (Option CredentialCall) :=
  match route, method with
  | "admin_tenant_status", _ => do
      let tenantId ← needed "status is required and must be active or disabled"
        (pathParam params "tenant")
      pure (some (.setTenantStatus tenantId (← requiredStatus body)))
  | "admin_user_status", _ => do
      let userId ← needed "status is required and must be active or disabled"
        (pathParam params "user")
      pure (some (.setUserStatus userId (← requiredStatus body)))
  | "admin_member_write", "DELETE" => do
      let tenantId ← needed "tenant and user are required" (pathParam params "tenant")
      let userId ← needed "tenant and user are required" (pathParam params "user")
      pure (some (.removeMember tenantId userId))
  | "admin_tenant_write", "POST" => do
      let tenantId ← needed "tenant_id and name are required" (requiredString body "tenant_id")
      let name ← needed "tenant_id and name are required" (requiredString body "name")
      pure (some (.createTenant tenantId name))
  | "admin_user_write", "POST" => do
      let userId ← needed "user_id and email are required" (requiredString body "user_id")
      let email ← needed "user_id and email are required" (requiredString body "email")
      pure (some (.createUser userId email (requiredString body "display_name")))
  | "admin_member_write", "PUT" => do
      let message := "role is required and must be one of: admin, operator, read_only"
      let tenantId ← needed message (pathParam params "tenant")
      let userId ← needed message (pathParam params "user")
      pure (some (.setRole tenantId userId (← needed message (parseRole body))))
  | "admin_credential_write", "POST" => do
      let message := "user_id, tenant_id and role are required; role must be one of: " ++
        "admin, operator, read_only"
      let userId ← needed message (requiredString body "user_id")
      let tenantId ← needed message (requiredString body "tenant_id")
      pure (some (.issueCredential userId tenantId (← needed message (parseRole body))))
  | "admin_credential_revoke", _ => do
      let credentialId ← needed "credential id is required" (pathParam params "credential")
      pure (some (.revokeCredential credentialId))
  | _, _ => .ok none

def adminErrorResponse : AdminStoreError → HttpResponse
  | .alreadyExists message => jsonResponse (errorBody "already_exists" message) 409
  | .notFound message => notFound message
  | .value message => badRequest message

/-- `_dispatch`. -/
def dispatchAdmin (store : AdminStore) (route : String) (request : HttpRequest) (params : PathParams)
    (method : String) : AppM σ (Except AdminStoreError HttpResponse) := do
  match adminCall route method request.body params with
  | .error error => pure (.error error)
  | .ok (some call) => do
      let calls := (← get).calls
      recordCall (.credential call)
      pure (store.perform calls call)
  | .ok none => pure (store.read (← get).calls route request params)

/-- The event that `_record_mutation` records, `_AUDIT_EVENT_NAMES`. -/
def auditEventName (route method : String) : Option String :=
  match route, method with
  | "admin_tenant_write", "POST" => some "tenant_created"
  | "admin_user_write", "POST" => some "user_created"
  | "admin_member_write", "PUT" => some "membership_changed"
  | "admin_member_write", "DELETE" => some "member_removed"
  | "admin_user_status", "PUT" => some "user_status_changed"
  | "admin_tenant_status", "PUT" => some "tenant_status_changed"
  | "admin_credential_write", "POST" => some "credential_issued"
  | "admin_credential_revoke", "DELETE" => some "credential_revoked"
  | _, _ => none

/-- `_optional_str(value)`. -/
def optionalString : Option Json → Option String
  | some (.str s) => if s = "" then none else some s
  | _ => none

def truthy : Json → Bool
  | .null => false
  | .bool b => b
  | .int i => i ≠ 0
  | .float x => x ≠ .finite 0
  | .str s => s ≠ ""
  | .arr items => !items.isEmpty
  | .obj fields => !fields.isEmpty

/-- `_record_mutation`. -/
def mutationEvent (event actor : String) (body : JsonMapping) (params : PathParams)
    (statusCode : Nat) : AuditEvent :=
  let pathParams := params.map fun p => (String.ofList p.1, Json.str (String.ofList p.2))
  let details := dictSet (dictUpdate (dictUpdate [] body)
    (pathParams.map fun p => ("param_" ++ p.1, p.2))) "status_code" (.int statusCode)
  { event := event
    actor := actor
    reason := none
    tenantId := optionalString (((details.lookup "tenant_id").filter truthy).or
      (pathParams.lookup "tenant"))
    resource := (optionalString (((pathParams.lookup "credential").filter truthy).or
      (details.lookup "user_id"))).map String.toList
    details := details }

section Planes

variable (casing : CaseMapping) (url : UrlParser)

def handleAdminRoute (store : Option AdminStore) (principal : Option RequestPrincipal)
    (request : HttpRequest) (method : String) (path : PathText) : AppM σ (Option HttpResponse) := do
  match store with
  | none => pure none
  | some store =>
    match ← ofUrl (RouteDefinition.match casing url adminRouteDefinitions path method) with
    | none => pure none
    | some route =>
      if !route.methodAllowed then pure none
      else
        match adminGate principal with
        | some gate => pure (some gate)
        | none => do
            match ← dispatchAdmin store route.name request route.pathParams method with
            | .error error => pure (some (adminErrorResponse error))
            | .ok response =>
              let actor := (principal.map RequestPrincipal.subject).getD "bootstrap"
              match auditEventName route.name method with
              | none => pure (some response)
              | some event => do
                  recordEvents [mutationEvent event actor request.body route.pathParams
                    response.statusCode]
                  pure (some response)

/-! ## The configuration plane -/

inductive ProfileStoreError where
  | alreadyExists (message : String)
  | notFound (message : String)
  | validation (errors : List (String × String)) (message : String)
  | builtin (message : String)
  | value (message : String)

def ProfileStoreError.message : ProfileStoreError → String
  | .alreadyExists message | .notFound message | .validation _ message | .builtin message
  | .value message => message

/-- A `ProfileStore`: what a writing call answers after the calls before it, and what a route reads;
`text` is `str` of a value. -/
structure ProfileStore where
  perform : List StoreCall → StoreCall → Except ProfileStoreError JsonMapping
  read : List StoreCall → String → HttpRequest → PathParams → HttpResponse
  text : Json → String

def profileErrorResponse : ProfileStoreError → HttpResponse
  | .alreadyExists message => jsonResponse (errorBody "already_exists" message) 409
  | .notFound message => notFound message
  | .validation errors _ =>
    jsonResponse [("status", .str "error"), ("errors", .arr (errors.map fun e =>
      .obj [("path", .str e.1), ("message", .str e.2)]))] 422
  | .builtin message => jsonResponse (errorBody "builtin_profile" message) 409
  | .value message => badRequest message

def performProfile (store : ProfileStore) (call : StoreCall) :
    AppM σ (Except ProfileStoreError JsonMapping) := do
  let calls := (← get).calls
  recordCall call
  pure (store.perform calls call)

/-- `[str(x) for x in value] if isinstance(value, list) else []`. -/
def nameList (store : ProfileStore) : Option Json → List String
  | some (.arr items) => items.map store.text
  | _ => []

/-- The bindings of one domain, one profile after another: what was done, and what was not. An error
that is neither a missing profile nor a `ValueError` ends the request. -/
def bindProfiles (store : ProfileStore) (domain : PathText) (bound : Bool)
    (settings : Option JsonMapping) (status : String) :
    List String → AppM σ (Except ProfileStoreError (List Json × List Json))
  | [] => pure (.ok ([], []))
  | name :: names => do
      match ← performProfile store (.setDomainBinding name domain bound settings) with
      | .error (.alreadyExists message) => pure (.error (.alreadyExists message))
      | answer =>
        match ← bindProfiles store domain bound settings status names with
        | .error error => pure (.error error)
        | .ok (results, errors) =>
          match answer with
          | .ok _ =>
            pure (.ok (.obj [("profile", .str name), ("status", .str status)] :: results,
              errors))
          | .error error =>
            pure (.ok (results,
              .obj [("profile", .str name), ("message", .str error.message)] :: errors))

/-- `PUT /v1/domains/{name}/profiles`. -/
def putDomainProfiles (store : ProfileStore) (body : JsonMapping) (domain : PathText) :
    AppM σ (Except ProfileStoreError HttpResponse) := do
  let settings := match body.lookup "settings" with
    | some (.obj fields) => some fields
    | _ => none
  match ← bindProfiles store domain true settings "bound" (nameList store (body.lookup "add")) with
  | .error error => pure (.error error)
  | .ok (added, addErrors) =>
    match ← bindProfiles store domain false none "unbound"
        (nameList store (body.lookup "remove")) with
    | .error error => pure (.error error)
    | .ok (removed, removeErrors) =>
      let errors := addErrors ++ removeErrors
      pure (.ok (jsonResponse ([("domain", .str (String.ofList domain)),
        ("results", .arr (added ++ removed))] ++
        if errors = [] then [] else [("errors", .arr errors)])))

/-- The body of `handle_config_admin_route` behind the matcher; `config_store` is none. -/
def dispatchConfig (store : ProfileStore) (request : HttpRequest) (method : String)
    (route : RouteMatch) : AppM σ (Except ProfileStoreError HttpResponse) := do
  match route.name, route.pathParams with
  | "config_profiles_create", _ => do
      match ← performProfile store (.createProfile request.body) with
      | .ok payload => pure (.ok (jsonResponse payload 201))
      | .error error => pure (.error error)
  | "config_profile_write", [(_, name)] =>
    if method = "PATCH" then do
      match ← performProfile store (.patchProfile name request.body) with
      | .ok payload => pure (.ok (jsonResponse payload))
      | .error error => pure (.error error)
    else do
      match ← performProfile store (.deleteProfile name) with
      | .ok _ => pure (.ok ⟨204, [], jsonHeaders, none⟩)
      | .error error => pure (.error error)
  | "config_read", _ =>
    pure (.ok (jsonResponse (errorBody "not_configured" "no deployment config store") 503))
  | "config_domain_profiles", [(_, domain)] =>
    if method = "PUT" then putDomainProfiles store request.body domain
    else pure (.ok (store.read (← get).calls route.name request route.pathParams))
  | name, params => pure (.ok (store.read (← get).calls name request params))

def handleConfigAdminRoute (store : Option ProfileStore) (request : HttpRequest) (method : String)
    (path : PathText) : AppM σ (Option HttpResponse) := do
  match store with
  | none => pure none
  | some store =>
    match ← ofUrl (RouteDefinition.match casing url configAdminRouteDefinitions path method) with
    | none => pure none
    | some route =>
      if !route.methodAllowed then pure none
      else
        match ← dispatchConfig store request method route with
        | .ok response => pure (some response)
        | .error error => pure (some (profileErrorResponse error))

end Planes

end UniversalAgent.Agentd
