import UniversalAgent.Agentd.App
import UniversalAgent.Agentd.Authentication
import UniversalAgent.Agentd.PathSegments
import UniversalAgent.Foundation.Effect

/-!
# Agentd — PathGuards

For which spellings of a path the guards of the configuration plane and its matcher see the same. The
guards test how the normal form of the path begins; the matcher leaves out the empty segments, and what
is left before the first path of a text that begins with two slashes. And the profile store strips the
name that the guard takes as it is.
-/

namespace UniversalAgent.Agentd

open UniversalAgent.Core UniversalAgent.Foundation UniversalAgent.Security

variable {D : List StoreCall → Prop} {segs : List PathText} {domain : PathText} {last : HttpResponse}

variable {σ α β : Type} {C : List StoreCall → Prop}

/-! ## Computations that keep what is known of the calls -/

/-- Whatever the computation does, `C` holds of the calls afterwards if it did before. -/
def Keeps (C : List StoreCall → Prop) (x : AppM σ α) : Prop :=
  Triple (fun s => C s.calls) x (fun _ s => C s.calls) (fun s => C s.calls)

namespace Keeps

theorem ret (a : α) : Keeps C (pure a : AppM σ α) := Triple.ret fun _ h => h

theorem raise (e : AppError) : Keeps C (throw e : AppM σ α) := Triple.raise fun _ h => h

theorem bind {x : AppM σ α} {f : α → AppM σ β} (hx : Keeps C x) (hf : ∀ a, Keeps C (f a)) :
    Keeps C (x >>= f) := Triple.bind hx fun a => hf a

theorem read {f : AppState σ → AppM σ β} (h : ∀ s, Keeps C (f s)) : Keeps C (get >>= f) :=
  Triple.read fun t ht => (h t).weaken (fun _ hs => hs ▸ ht) (fun _ _ h => h) fun _ h => h

theorem ofUrl (x : Except UrlError α) : Keeps C (ofUrl x : AppM σ α) := by
  cases x with
  | ok a => exact ret a
  | error e => exact raise _

theorem recordEvents (events : List AuditEvent) : Keeps C (recordEvents events : AppM σ Unit) :=
  Triple.update fun _ h => h

theorem recordCall {call : StoreCall} (h : ∀ l, C l → C (l ++ [call])) :
    Keeps C (recordCall call : AppM σ Unit) := Triple.update fun _ hs => h _ hs

/-- The runtime services know nothing of the stores. -/
theorem onServices (x : EStateM AppError σ α) : Keeps C (onServices x) := by
  intro s hs
  unfold Agentd.onServices
  cases x s.services with
  | ok a services => exact hs
  | error e services => exact hs

variable {last : HttpResponse} {handler : AppM σ (Option HttpResponse)}

/-- More may be known behind a handler than before it. -/
theorem firstResponse_cons
    {handlers : List (AppM σ (Option HttpResponse))}
    (h : Triple (fun s => C s.calls) handler (fun _ s => D s.calls) fun s => C s.calls)
    (hmore : ∀ l, D l → C l) (hrest : Keeps D (firstResponse last handlers)) :
    Keeps C (firstResponse last (handler :: handlers)) := by
  refine Triple.bind h fun response => ?_
  cases response with
  | some response => exact Triple.ret fun s hs => hmore s.calls hs
  | none => exact hrest.weaken (fun _ hs => hs) (fun _ s hs => hmore s.calls hs) fun s hs => hmore s.calls hs

theorem firstResponse_step
    {handlers : List (AppM σ (Option HttpResponse))} (h : Keeps C handler)
    (hrest : Keeps C (firstResponse last handlers)) :
    Keeps C (firstResponse last (handler :: handlers)) := firstResponse_cons h (fun _ hl => hl) hrest

theorem firstResponse {handlers : List (AppM σ (Option HttpResponse))}
    (h : ∀ handler ∈ handlers, Keeps C handler) : Keeps C (firstResponse last handlers) := by
  induction handlers with
  | nil => exact ret last
  | cons handler handlers ih =>
    exact firstResponse_step (h handler List.mem_cons_self)
      (ih fun other hother => h other (List.mem_cons_of_mem _ hother))

end Keeps

def Since (base : List StoreCall) (P : List StoreCall → Prop) (calls : List StoreCall) : Prop :=
  ∃ more, calls = base ++ more ∧ P more

theorem since_append {base calls : List StoreCall} {P Q : List StoreCall → Prop} {call : StoreCall}
    (h : Since base P calls) (hcall : ∀ more, P more → Q (more ++ [call])) :
    Since base Q (calls ++ [call]) := by
  obtain ⟨more, rfl, hmore⟩ := h
  exact ⟨more ++ [call], List.append_assoc .., hcall more hmore⟩

/-! ## The routes of the configuration plane -/

def v1 : PathText := "v1".toList

def profilesText : PathText := "profiles".toList

def domainsText : PathText := "domains".toList

/-- The segments are those of a path that a writing route has for the method. -/
def WritingRoute (method : String) (segs : List PathText) : Prop :=
  method = "POST" ∧ segs = [v1, profilesText] ∨
    (method = "PATCH" ∨ method = "DELETE") ∧ (∃ p, segs = [v1, profilesText, p]) ∨
    method = "PUT" ∧ ∃ d, segs = [v1, domainsText, d, profilesText]

inductive ConfigCall (method : String) (segs : List PathText) : StoreCall → Prop where
  | create (payload : JsonMapping) (hm : method = "POST") (hs : segs = [v1, profilesText]) :
      ConfigCall method segs (.createProfile payload)
  | patch (p : PathText) (changes : JsonMapping) (hm : method = "PATCH")
      (hs : segs = [v1, profilesText, p]) : ConfigCall method segs (.patchProfile p changes)
  | delete (p : PathText) (hm : method = "DELETE") (hs : segs = [v1, profilesText, p]) :
      ConfigCall method segs (.deleteProfile p)
  | bind (d : PathText) (profile : String) (bound : Bool) (settings : Option JsonMapping)
      (hm : method = "PUT") (hs : segs = [v1, domainsText, d, profilesText]) :
      ConfigCall method segs (.setDomainBinding profile d bound settings)

theorem ConfigCall.writingRoute {method : String} {call : StoreCall}
    (h : ConfigCall method segs call) : WritingRoute method segs := by
  cases h with
  | create payload hm hs => exact .inl ⟨hm, hs⟩
  | patch p changes hm hs => exact .inr (.inl ⟨.inl hm, p, hs⟩)
  | delete p hm hs => exact .inr (.inl ⟨.inr hm, p, hs⟩)
  | bind d profile bound settings hm hs => exact .inr (.inr ⟨hm, d, hs⟩)

section Matcher

variable {casing : CaseMapping} {method : String} {segs : List PathText}

theorem upper_method {s : String} (h : s ∈ ["GET", "POST", "PUT", "PATCH", "DELETE"]) :
    casing.upper s = s := by
  have hall : ∀ s ∈ ["GET", "POST", "PUT", "PATCH", "DELETE"],
      isAscii s = true ∧ String.ofList (s.toList.map Char.toUpper) = s := by
    decide
  exact (casing.upper_ascii s (hall s h).1).trans (hall s h).2

inductive ConfigRoute (method : String) (segs : List PathText) : String → PathParams → Prop where
  | create (hm : method = "POST") (hs : segs = [v1, profilesText]) :
      ConfigRoute method segs "config_profiles_create" []
  | write (p : PathText) (hm : method = "PATCH" ∨ method = "DELETE")
      (hs : segs = [v1, profilesText, p]) :
      ConfigRoute method segs "config_profile_write" [("profile".toList, p)]
  | domain (d : PathText) (hm : method = "GET" ∨ method = "PUT")
      (hs : segs = [v1, domainsText, d, profilesText]) :
      ConfigRoute method segs "config_domain_profiles" [("name".toList, d)]
  | reading (name : String) (params : PathParams)
      (h : name ∈ ["config_validate", "config_profiles_list", "config_audit", "config_read"]) :
      ConfigRoute method segs name params

theorem configRoute {route : RouteMatch} (hm : casing.upper method = method)
    (h : matchRoutes casing configAdminRouteDefinitions segs method = some route)
    (ha : route.methodAllowed = true) : ConfigRoute method segs route.name route.pathParams := by
  obtain ⟨definition, hmem, hmatch, hname, hallowed⟩ := exists_of_matchRoutes h
  rw [hallowed, decide_eq_true_eq, hm] at ha
  obtain ⟨m, hmethod, hupper⟩ := List.mem_map.mp ha
  have hmethods : ∀ definition ∈ configAdminRouteDefinitions, ∀ m ∈ definition.methods,
      m ∈ ["GET", "POST", "PUT", "PATCH", "DELETE"] := by
    decide
  obtain rfl : m = method := (upper_method (hmethods definition hmem m hmethod)).symm.trans hupper
  rw [hname]
  simp only [configAdminRouteDefinitions, List.mem_cons, List.not_mem_nil, or_false] at hmem
  rcases hmem with rfl | rfl | rfl | rfl | rfl | rfl | rfl
  · have hsegs : RouteDefinition.segments ⟨"config_profiles_create", "/v1/profiles", ["POST"]⟩ =
        [.literal v1, .literal profilesText] := by decide
    rw [hsegs] at hmatch
    simp only [matchSegments_literal, matchSegments_nil] at hmatch
    obtain ⟨_, rfl, _, rfl, rfl, hparams⟩ := hmatch
    rw [hparams]
    exact .create (List.mem_singleton.mp hmethod) rfl
  · have hsegs : RouteDefinition.segments ⟨"config_profile_write", "/v1/profiles/{profile}",
        ["PATCH", "DELETE"]⟩ =
        [.literal v1, .literal profilesText, .parameter "profile".toList] := by decide
    rw [hsegs] at hmatch
    simp only [matchSegments_literal, matchSegments_parameter, matchSegments_nil] at hmatch
    obtain ⟨_, rfl, _, rfl, p, _, _, rfl, ⟨rfl, rfl⟩, hparams⟩ := hmatch
    rw [hparams]
    exact .write p (by simpa using hmethod) rfl
  · exact .reading _ _ (by decide)
  · exact .reading _ _ (by decide)
  · exact .reading _ _ (by decide)
  · exact .reading _ _ (by decide)
  · have hsegs : RouteDefinition.segments ⟨"config_domain_profiles", "/v1/domains/{name}/profiles",
        ["GET", "PUT"]⟩ =
        [.literal v1, .literal domainsText, .parameter "name".toList, .literal profilesText] := by
      decide
    rw [hsegs] at hmatch
    simp only [matchSegments_literal, matchSegments_parameter, matchSegments_nil] at hmatch
    obtain ⟨_, rfl, _, rfl, d, _, _, rfl, ⟨_, rfl, rfl, rfl⟩, hparams⟩ := hmatch
    rw [hparams]
    exact .domain d (by simpa using hmethod) rfl

end Matcher

/-! ## The handlers of the write planes -/

section Planes

variable {casing : CaseMapping} {url : UrlParser} {method : String} {path : PathText}

variable {store : ProfileStore}

theorem performProfile_keeps {call : StoreCall}
    (h : ∀ l, C l → C (l ++ [call])) :
    Keeps C (performProfile store call : AppM σ _) :=
  Keeps.read fun _ => (Keeps.recordCall h).bind fun _ => Keeps.ret _

theorem bindProfiles_keeps {bound : Bool}
    {settings : Option JsonMapping} {status : String}
    (h : ∀ name l, C l → C (l ++ [.setDomainBinding name domain bound settings]))
    (names : List String) :
    Keeps C (bindProfiles store domain bound settings status names : AppM σ _) := by
  induction names with
  | nil => exact Keeps.ret _
  | cons name names ih =>
    refine (performProfile_keeps (h name)).bind fun answer => ?_
    -- only a profile that exists already ends the loop
    cases answer with
    | ok payload =>
      refine ih.bind fun rest => ?_
      cases rest with
      | error error => exact Keeps.ret _
      | ok rest => exact Keeps.ret _
    | error error =>
      cases error with
      | alreadyExists message => exact Keeps.ret _
      | _ =>
        refine ih.bind fun rest => ?_
        cases rest with
        | error error => exact Keeps.ret _
        | ok rest => exact Keeps.ret _

theorem putDomainProfiles_keeps {body : JsonMapping}
    (h : ∀ name bound settings l, C l → C (l ++ [.setDomainBinding name domain bound settings])) :
    Keeps C (putDomainProfiles store body domain : AppM σ _) := by
  refine (bindProfiles_keeps (fun name => h name true _) _).bind fun added => ?_
  cases added with
  | error error => exact Keeps.ret _
  | ok added =>
    refine (bindProfiles_keeps (fun name => h name false none) _).bind fun removed => ?_
    cases removed with
    | error error => exact Keeps.ret _
    | ok removed => exact Keeps.ret _

theorem dispatchConfig_keeps {request : HttpRequest} {route : RouteMatch}
    (hroute : ConfigRoute method segs route.name route.pathParams)
    (h : ∀ call, ConfigCall method segs call → ∀ l, C l → C (l ++ [call])) :
    Keeps C (dispatchConfig store request method route : AppM σ _) := by
  unfold dispatchConfig
  generalize route.name = name, route.pathParams = params at hroute
  cases hroute with
  | create hm hs =>
    refine (performProfile_keeps (h _ (.create _ hm hs))).bind fun answer => ?_
    cases answer with
    | ok payload => exact Keeps.ret _
    | error error => exact Keeps.ret _
  | write p hm hs =>
    by_cases hpatch : method = "PATCH"
    · simp only [if_pos hpatch]
      refine (performProfile_keeps (h _ (.patch p _ hpatch hs))).bind fun answer => ?_
      cases answer with
      | ok payload => exact Keeps.ret _
      | error error => exact Keeps.ret _
    · simp only [if_neg hpatch]
      refine (performProfile_keeps (h _ (.delete p (hm.resolve_left hpatch) hs))).bind fun answer => ?_
      cases answer with
      | ok payload => exact Keeps.ret _
      | error error => exact Keeps.ret _
  | domain d hm hs =>
    by_cases hput : method = "PUT"
    · simp only [if_pos hput]
      exact putDomainProfiles_keeps fun name bound settings =>
        h _ (.bind d name bound settings hput hs)
    · simp only [if_neg hput]
      exact Keeps.read fun _ => Keeps.ret _
  | reading name params hname =>
    simp only [List.mem_cons, List.not_mem_nil, or_false] at hname
    rcases hname with rfl | rfl | rfl | rfl
    · exact Keeps.read fun _ => Keeps.ret _
    · exact Keeps.read fun _ => Keeps.ret _
    · exact Keeps.read fun _ => Keeps.ret _
    · exact Keeps.ret _

/-- The configuration plane makes only the calls of the segments that the matcher sees. -/
theorem handleConfigAdminRoute_keeps {store : Option ProfileStore} {request : HttpRequest}
    (hm : casing.upper method = method)
    (h : ∀ segs, routePath url path = .ok segs →
      ∀ call, ConfigCall method segs call → ∀ l, C l → C (l ++ [call])) :
    Keeps C (handleConfigAdminRoute casing url store request method path : AppM σ _) := by
  cases store with
  | none => exact Keeps.ret _
  | some store =>
    unfold handleConfigAdminRoute RouteDefinition.match
    cases hpath : routePath url path with
    | error error => exact Keeps.raise _
    | ok segs =>
      change Keeps C (pure (matchRoutes casing configAdminRouteDefinitions segs method) >>= _)
      rw [pure_bind]
      cases hmatch : matchRoutes casing configAdminRouteDefinitions segs method with
      | none => exact Keeps.ret _
      | some route =>
        by_cases ha : route.methodAllowed = true
        · simp only [ha, Bool.not_true, Bool.false_eq_true, if_false]
          refine (dispatchConfig_keeps (configRoute hm hmatch ha) (h segs hpath)).bind
            fun answer => ?_
          cases answer with
          | ok response => exact Keeps.ret _
          | error error => exact Keeps.ret _
        · simp only [ha, Bool.not_false, if_true]
          exact Keeps.ret _

theorem dispatchAdmin_keeps {store : AdminStore} {name : String} {request : HttpRequest}
    {params : PathParams} (h : ∀ call l, C l → C (l ++ [.credential call])) :
    Keeps C (dispatchAdmin store name request params method : AppM σ _) := by
  unfold dispatchAdmin
  cases adminCall name method request.body params with
  | error error => exact Keeps.ret _
  | ok call =>
    cases call with
    | none => exact Keeps.read fun _ => Keeps.ret _
    | some call =>
      exact Keeps.read fun _ => (Keeps.recordCall (h call)).bind fun _ => Keeps.ret _

/-- The credential plane calls its store for nobody but an admin. -/
theorem handleAdminRoute_keeps {store : Option AdminStore} {principal : Option RequestPrincipal}
    {request : HttpRequest}
    (h : adminGate principal = none → ∀ call l, C l → C (l ++ [.credential call])) :
    Keeps C (handleAdminRoute casing url store principal request method path : AppM σ _) := by
  cases store with
  | none => exact Keeps.ret _
  | some store =>
    refine (Keeps.ofUrl _).bind fun route => ?_
    cases route with
    | none => exact Keeps.ret _
    | some route =>
      by_cases ha : route.methodAllowed = true
      · simp only [ha, Bool.not_true, Bool.false_eq_true, if_false]
        cases hgate : adminGate principal with
        | some gate => exact Keeps.ret _
        | none =>
          refine (dispatchAdmin_keeps (h hgate)).bind fun answer => ?_
          cases answer with
          | error error => exact Keeps.ret _
          | ok response =>
            cases hevent : auditEventName route.name method with
            | none => simpa only [hevent] using Keeps.ret _
            | some event =>
              simpa only [hevent] using
                (Keeps.recordEvents _).bind fun _ => Keeps.ret _
      · simp only [ha, Bool.not_false, if_true]
        exact Keeps.ret _

end Planes

/-! ## The application -/

section Application

variable {app : AgentdApp σ} {request : HttpRequest} {method : String} {path : PathText}
  {principal : Option RequestPrincipal}

theorem bundleFor_keeps : Keeps C (app.bundleFor request) := by
  unfold AgentdApp.bundleFor
  cases request.headers.lookup "x-profile" with
  | none => exact Keeps.ret _
  | some profile =>
    dsimp only
    split
    · exact Keeps.ret _
    · cases app.profileServiceFactory with
      | none => exact Keeps.ret _
      | some factory =>
        refine Keeps.read fun s => ?_
        split
        · exact Keeps.ret _
        · cases factory profile with
          | ok _ => exact Keeps.bind (Triple.update fun _ hs => hs) fun _ => Keeps.ret _
          | error error =>
            cases error with
            | notFound => exact Keeps.ret _
            | failed message => exact Keeps.ret _

/-- Behind the authentication, it is the credential plane and the handlers that may call a store. -/
theorem route_keeps
    (hadmin : adminGate principal = none → ∀ call l, C l → C (l ++ [.credential call]))
    (hhandlers : ∀ last routed, routed.request = request → routed.method = method →
      routed.path = path → Keeps C (firstResponse last (app.handlers principal routed))) :
    Keeps C (app.route request method path principal) := by
  unfold AgentdApp.route
  split
  · exact Keeps.ret _
  · refine (handleAdminRoute_keeps hadmin).bind fun response => ?_
    cases response with
    | some response => exact Keeps.ret _
    | none =>
      refine bundleFor_keeps.bind fun bundle => ?_
      cases bundle with
      | error response => exact Keeps.ret _
      | ok bundle => exact hhandlers _ _ rfl rfl rfl

theorem handle_admitted {norm : PathText} {outcome : AuthOutcome} {events : List AuditEvent}
    (hnorm : normalizePath app.url request.path = .ok norm)
    (hauth : authenticate app.casing app.auth request norm (app.casing.upper request.method) =
      .ok (outcome, events))
    (hresponse : outcome.response = none) :
    app.handle request = (do
      recordEvents events
      app.route request (app.casing.upper request.method) norm outcome.principal) := by
  simp only [AgentdApp.handle, hnorm, hauth, ofUrl, ofAuth, pure_bind, hresponse]

theorem handle_keeps (h : ∀ norm outcome events, normalizePath app.url request.path = .ok norm →
      authenticate app.casing app.auth request norm (app.casing.upper request.method) =
        .ok (outcome, events) →
      outcome.response = none →
      Keeps C (app.route request (app.casing.upper request.method) norm outcome.principal)) :
    Keeps C (app.handle request) := by
  cases hnorm : normalizePath app.url request.path with
  | error error =>
    unfold AgentdApp.handle
    rw [hnorm]
    exact Keeps.raise _
  | ok norm =>
    cases hauth : authenticate app.casing app.auth request norm
        (app.casing.upper request.method) with
    | error error =>
      simp only [AgentdApp.handle, hnorm, hauth, ofUrl, pure_bind]
      exact Keeps.raise _
    | ok decided =>
      obtain ⟨outcome, events⟩ := decided
      cases hresponse : outcome.response with
      | some response =>
        simp only [AgentdApp.handle, hnorm, hauth, ofUrl, ofAuth, pure_bind, hresponse]
        exact (Keeps.recordEvents events).bind fun _ => Keeps.ret response
      | none =>
        rw [handle_admitted hnorm hauth hresponse]
        exact (Keeps.recordEvents events).bind fun _ => h norm outcome events hnorm hauth hresponse

/-- What is kept from every start holds of the calls of the computation alone. -/
theorem of_callsOf {P : List StoreCall → Prop} {x : AppM σ α} (hnil : P [])
    (h : ∀ base, Keeps (Since base P) x) (s : AppState σ) :
    P (callsOf x s) := by
  have hrun := h s.calls s ⟨[], (List.append_nil _).symm, hnil⟩
  unfold callsOf
  cases hx : x s with
  | ok a s' =>
    rw [hx] at hrun
    obtain ⟨more, hmore, hP⟩ := hrun
    simpa only [hmore, List.drop_left] using hP
  | error e s' =>
    rw [hx] at hrun
    obtain ⟨more, hmore, hP⟩ := hrun
    simpa only [hmore, List.drop_left] using hP

variable {handler : AppM σ (Option HttpResponse)}

theorem firstResponse_none
    {handlers : List (AppM σ (Option HttpResponse))} {s s' : AppState σ} (h : handler s = .ok none s') :
    firstResponse last (handler :: handlers) s = firstResponse last handlers s' := by
  simp only [firstResponse, bind, EStateM.bind, h]

theorem firstResponse_some {last response : HttpResponse}
    {handlers : List (AppM σ (Option HttpResponse))} {s s' : AppState σ}
    (h : handler s = .ok (some response) s') :
    firstResponse last (handler :: handlers) s = .ok response s' := by
  simp only [firstResponse, bind, EStateM.bind, h]
  rfl

theorem profileMutationGuard_spec
    (hskip : AgentdApp.guardedProfile method path = none → ∀ l, C l → D l)
    (hcheck : ∀ profile, AgentdApp.guardedProfile method path = some profile →
      ∀ l, C l → D (l ++ [.checked profile])) :
    Triple (fun s => C s.calls) (app.profileMutationGuard method path) (fun _ s => D s.calls)
      fun s => C s.calls := by
  unfold AgentdApp.profileMutationGuard
  cases hguarded : AgentdApp.guardedProfile method path with
  | none => exact Triple.ret fun s hs => hskip hguarded s.calls hs
  | some profile =>
    refine Triple.bind (Q := fun _ s => D s.calls)
      (Triple.update fun s hs => hcheck profile hguarded s.calls hs) fun _ => Triple.read fun t ht => ?_
    have hstart : ∀ s : AppState σ, s = t → D s.calls := fun s hs => hs ▸ ht
    split
    · exact Triple.ret hstart
    · split
      · exact Triple.ret hstart
      · exact Triple.bind (Q := fun _ s => D s.calls) (Triple.update hstart) fun _ => Triple.ret fun _ hs => hs

theorem configGate_keeps {handlers : List (AppM σ (Option HttpResponse))}
    (h : (method ≠ "GET" → AgentdApp.adminPath path = true → adminGate principal = none) →
      Keeps C (firstResponse last handlers)) :
    Keeps C (firstResponse last (AgentdApp.configGate principal method path :: handlers)) := by
  unfold AgentdApp.configGate
  by_cases hgate : (method ≠ "GET" && AgentdApp.adminPath path) = true
  · rw [if_pos hgate]
    cases hadmin : adminGate principal with
    | some response => exact Keeps.ret response
    | none => exact Keeps.firstResponse_step (Keeps.ret none) (h fun _ _ => hadmin)
  · rw [if_neg hgate]
    refine Keeps.firstResponse_step (Keeps.ret none) (h fun hm hp => absurd ?_ hgate)
    simp [hm, hp]

end Application

/-! ## What the guards see of a path -/

section Spellings

variable {url : UrlParser} {path norm rest : PathText} {segs : List PathText} {method : String}

/-- A path with single slashes at its start, as the matcher and the guards see it. -/
theorem rest_of_plain {t : PathText} {ss : List PathText} (hnorm : normalizePath url path = .ok norm)
    (hsegs : routePath url norm = .ok (v1 :: t :: ss)) (hhost : ¬"//".toList <+: norm)
    (hversion : ¬"/v1//".toList <+: norm) :
    ∃ rest, norm = "/v1/".toList ++ rest ∧ segments rest = t :: ss ∧ rest.head? ≠ some '/' := by
  obtain ⟨hclean, rest, rfl⟩ := normalizePath_ok hnorm
  have hhead : rest.head? ≠ some '/' := by
    intro hhead
    obtain ⟨more, rfl⟩ := List.head?_eq_some_iff.mp hhead
    exact hhost ⟨more, rfl⟩
  rw [routePath_rooted hclean ⟨rest, rfl, hhead⟩, segments_slash] at hsegs
  obtain ⟨rest, rfl, hrest⟩ := segments_cons_cons hhead (Except.ok.inj hsegs)
  refine ⟨rest, rfl, hrest, fun hslash => hversion ?_⟩
  obtain ⟨more, rfl⟩ := List.head?_eq_some_iff.mp hslash
  exact ⟨more, rfl⟩

theorem adminPath_of_plain (hw : WritingRoute method segs) (hnorm : normalizePath url path = .ok norm)
    (hsegs : routePath url norm = .ok segs) (hhost : ¬"//".toList <+: norm)
    (hversion : ¬"/v1//".toList <+: norm) : AgentdApp.adminPath norm = true := by
  have hprofiles : ∀ ss, segs = v1 :: profilesText :: ss → AgentdApp.adminPath norm = true := by
    rintro ss rfl
    obtain ⟨rest, rfl, hrest, hhead⟩ := rest_of_plain hnorm hsegs hhost hversion
    obtain ⟨more, rfl, -⟩ := segments_cons hhead hrest
    rfl
  rcases hw with ⟨-, hs⟩ | ⟨-, p, hs⟩ | ⟨-, d, rfl⟩
  · exact hprofiles _ hs
  · exact hprofiles _ hs
  · obtain ⟨rest, rfl, hrest, hhead⟩ := rest_of_plain hnorm hsegs hhost hversion
    obtain ⟨more, rfl, -⟩ := segments_cons_cons hhead hrest
    rfl

theorem WritingRoute.ne_get (h : WritingRoute method segs) : method ≠ "GET" := by
  rintro rfl
  rcases h with ⟨h, -⟩ | ⟨h | h, -⟩ | ⟨h, -⟩ <;> exact absurd h (by decide)

/-- The guard takes the segment of the matcher, unless there is a slash more before it. -/
theorem guardedProfile_of_plain {p : PathText} (hm : method = "PATCH" ∨ method = "DELETE")
    (hnorm : normalizePath url path = .ok norm)
    (hsegs : routePath url norm = .ok [v1, profilesText, p]) (hhost : ¬"//".toList <+: norm)
    (hversion : ¬"/v1//".toList <+: norm) :
    AgentdApp.guardedProfile method norm =
      if "/v1/profiles//".toList.isPrefixOf norm then none else some p := by
  obtain ⟨rest, rfl, hrest, hhead⟩ := rest_of_plain hnorm hsegs hhost hversion
  obtain ⟨tail, rfl, htail⟩ := segments_cons_cons hhead hrest
  have hmutates : ¬(method ≠ "PATCH" ∧ method ≠ "DELETE") := fun h => hm.elim h.1 h.2
  have hprefix : AgentdApp.profilePrefix.isPrefixOf
      ("/v1/".toList ++ (profilesText ++ '/' :: tail)) = true := rfl
  have hdrop : ("/v1/".toList ++ (profilesText ++ '/' :: tail)).drop
      AgentdApp.profilePrefix.length = tail := rfl
  have hdouble : "/v1/profiles//".toList.isPrefixOf ("/v1/".toList ++ (profilesText ++ '/' :: tail)) =
      ['/'].isPrefixOf tail := rfl
  rw [AgentdApp.guardedProfile, if_neg hmutates, hprefix, if_neg (by decide), hdrop, hdouble]
  by_cases hslash : tail.head? = some '/'
  · obtain ⟨more, rfl⟩ := List.head?_eq_some_iff.mp hslash
    rfl
  · obtain ⟨more, rfl, -, hnoslash, hne, hmore⟩ := segments_cons hslash htail
    have htake : (p ++ more).takeWhile (· ≠ '/') = p := by
      rw [List.takeWhile_append_of_pos fun c hc => by simpa using fun h : c = '/' => hnoslash (h ▸ hc)]
      rcases hmore with rfl | ⟨more, rfl⟩
      · exact List.append_nil p
      · exact List.append_nil p
    rw [htake, if_neg hne, if_neg]
    cases p with
    | nil => exact absurd rfl hne
    | cons c cs =>
      intro hprefix
      obtain ⟨hc, -⟩ : '/' = c ∧ True := by simpa [List.isPrefixOf] using hprefix
      exact hnoslash (hc ▸ List.mem_cons_self)

end Spellings

end UniversalAgent.Agentd
