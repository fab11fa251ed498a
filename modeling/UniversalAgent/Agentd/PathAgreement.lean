import UniversalAgent.Agentd.PathGuards

/-!
# Agentd — PathAgreement

What the guards promise of every path, and for which paths they keep it: those whose spelling they read
as the matcher does.
-/

namespace UniversalAgent.Agentd

open UniversalAgent.Core UniversalAgent.Foundation UniversalAgent.Security

variable {σ : Type}

structure Asked (casing : CaseMapping) (url : UrlParser) (method : String) (path : PathText)
    (app : AgentdApp σ) (request : HttpRequest) : Prop where
  casing : app.casing = casing
  url : app.url = url
  method : request.method = method
  path : request.path = path

/-- Who is not an admin writes nothing, and no profile is changed whose sessions were not looked at. -/
structure GuardsHold (casing : CaseMapping) (url : UrlParser) (method : String) (path : PathText) :
    Prop where
  admins : ∀ {σ : Type} {app : AgentdApp σ} {request : HttpRequest} {norm : PathText}
    {principal : RequestPrincipal} {events : List AuditEvent},
    Asked casing url method path app request → normalizePath url path = .ok norm →
    authenticate casing app.auth request norm (casing.upper method) =
      .ok (⟨none, some principal⟩, events) →
    principal.role ≠ .admin → ∀ s, ∀ call ∈ callsOf (app.handle request) s, call.writes = false
  checks : ∀ {σ : Type} {app : AgentdApp σ} {request : HttpRequest} {before after : List StoreCall}
    {call : StoreCall} {profile : PathText}, Asked casing url method path app request →
    ∀ s, callsOf (app.handle request) s = before ++ call :: after →
      call.changes? = some profile → .checked profile ∈ before

/-- The guards read the path as the matcher does: for a writing route it begins with single slashes, and
the name of a profile that is changed has no white space around it. -/
structure Spelled (casing : CaseMapping) (url : UrlParser) (method : String) (path : PathText) :
    Prop where
  plain : ∀ {norm segs}, normalizePath url path = .ok norm → routePath url norm = .ok segs →
    WritingRoute (casing.upper method) segs → ¬"//".toList <+: norm ∧ ¬"/v1//".toList <+: norm
  named : ∀ {norm profile}, normalizePath url path = .ok norm →
    routePath url norm = .ok [v1, profilesText, profile] →
    casing.upper method = "PATCH" ∨ casing.upper method = "DELETE" →
      ¬"/v1/profiles//".toList <+: norm ∧ profileFile profile = profile

section Promises

variable {casing : CaseMapping} {url : UrlParser} {method : String} {path : PathText}

/-! ## Paths that are spelled so -/

def Reads (calls : List StoreCall) : Prop := ∀ call ∈ calls, call.writes = false

def Checked (calls : List StoreCall) : Prop :=
  ∀ before call after profile, calls = before ++ call :: after → call.changes? = some profile →
    .checked profile ∈ before

theorem reads_append {calls : List StoreCall} {call : StoreCall} (h : Reads calls)
    (hcall : call.writes = false) : Reads (calls ++ [call]) := by
  intro other hother
  rcases List.mem_append.mp hother with hother | hother
  · exact h other hother
  · rwa [List.mem_singleton.mp hother]

theorem checked_append {calls : List StoreCall} {call : StoreCall} (h : Checked calls)
    (hcall : ∀ profile, call.changes? = some profile → .checked profile ∈ calls) :
    Checked (calls ++ [call]) := by
  intro before other after profile heq hchanges
  rcases List.append_eq_append_iff.mp heq with ⟨rest, rfl, hrest⟩ | ⟨rest, rfl, hrest⟩
  · cases rest with
    | nil =>
      obtain ⟨rfl, -⟩ := List.cons.inj hrest
      simpa using hcall profile hchanges
    | cons c cs =>
      obtain ⟨-, hcs⟩ := List.cons.inj hrest
      exact absurd hcs (by simp)
  · cases rest with
    | nil =>
      obtain ⟨rfl, -⟩ := List.cons.inj hrest
      simpa using hcall profile hchanges
    | cons c cs =>
      obtain ⟨rfl, hcs⟩ := List.cons.inj hrest
      exact h before other cs profile rfl hchanges

variable {norm : PathText} {m : String} {segs : List PathText}

theorem admins_of_spelled (h : Spelled casing url method path) {app : AgentdApp σ}
    {request : HttpRequest} {principal : RequestPrincipal} {events : List AuditEvent}
    (hasked : Asked casing url method path app request) (hnorm : normalizePath url path = .ok norm)
    (hauth : authenticate casing app.auth request norm (casing.upper method) =
      .ok (⟨none, some principal⟩, events))
    (hrole : principal.role ≠ .admin) (s : AppState σ) :
    ∀ call ∈ callsOf (app.handle request) s, call.writes = false := by
  obtain ⟨rfl, rfl, rfl, rfl⟩ := hasked
  have hgate : adminGate (some principal) ≠ none := by
    simp [adminGate, hrole]
  refine of_callsOf (P := Reads) (fun call hcall => nomatch hcall) (fun base => ?_) s
  refine handle_keeps fun norm' outcome events' hnorm' hauth' hresponse => ?_
  obtain rfl := Except.ok.inj (hnorm.symm.trans hnorm')
  obtain ⟨rfl, rfl⟩ := Prod.mk.inj (Except.ok.inj (hauth.symm.trans hauth'))
  refine route_keeps (fun hadmin => absurd hadmin hgate) fun last routed hrequest hmethod hpath => ?_
  refine Keeps.firstResponse_step (Keeps.onServices _) ?_
  refine Keeps.firstResponse_step (Keeps.onServices _) ?_
  rw [hrequest, hmethod, hpath]
  refine Keeps.firstResponse_cons (C := Since base Reads) (profileMutationGuard_spec (fun _ _ hl => hl)
    fun profile _ l hl => since_append hl fun more hmore => reads_append hmore rfl) (fun _ hl => hl) ?_
  refine configGate_keeps fun hopen => ?_
  refine Keeps.firstResponse_step (handleConfigAdminRoute_keeps (app.casing.upper_upper _) ?_)
    (Keeps.firstResponse fun handler hhandler => ?_)
  · -- a writing route is one that the gate knows, and it is shut
    intro segs hsegs call hcall
    have hwriting := hcall.writingRoute
    have hplain := h.plain hnorm hsegs hwriting
    exact absurd (hopen hwriting.ne_get (adminPath_of_plain hwriting hnorm hsegs hplain.1 hplain.2)) hgate
  · obtain ⟨later, -, rfl⟩ := List.mem_map.mp hhandler
    exact Keeps.onServices _

theorem checks_of_spelled (h : Spelled casing url method path) {app : AgentdApp σ}
    {request : HttpRequest} (hasked : Asked casing url method path app request) (s : AppState σ) :
    Checked (callsOf (app.handle request) s) := by
  obtain ⟨rfl, rfl, rfl, rfl⟩ := hasked
  refine of_callsOf (fun before call after profile heq => absurd heq (by simp)) (fun base => ?_) s
  refine handle_keeps fun norm outcome events hnorm hauth hresponse => ?_
  refine route_keeps (fun _ call l hl => since_append hl fun more hmore =>
    checked_append hmore fun profile hprofile => nomatch hprofile) fun last routed hrequest hmethod hpath => ?_
  refine Keeps.firstResponse_step (Keeps.onServices _) ?_
  refine Keeps.firstResponse_step (Keeps.onServices _) ?_
  rw [hrequest, hmethod, hpath]
  refine Keeps.firstResponse_cons (C := Since base Checked) (D := Since base fun more => Checked more ∧
      ∀ profile, AgentdApp.guardedProfile (app.casing.upper request.method) norm = some profile →
        .checked profile ∈ more)
    (profileMutationGuard_spec ?_ ?_) (fun _ ⟨more, heq, hmore⟩ => ⟨more, heq, hmore.1⟩) ?_
  · rintro hnone l ⟨more, rfl, hmore⟩
    exact ⟨more, rfl, hmore, fun profile hprofile => absurd (hnone.symm.trans hprofile) (by simp)⟩
  · intro profile hguarded l hl
    refine since_append hl fun more hmore => ⟨checked_append hmore fun _ hprofile => (nomatch hprofile), ?_⟩
    intro other hother
    obtain rfl := Option.some.inj (hguarded.symm.trans hother)
    exact List.mem_append_right _ List.mem_cons_self
  · refine configGate_keeps fun _ => ?_
    refine Keeps.firstResponse_step (handleConfigAdminRoute_keeps (app.casing.upper_upper _) ?_)
      (Keeps.firstResponse fun handler hhandler => ?_)
    · intro segs hsegs call hcall l hl
      refine since_append hl fun more hmore => ⟨checked_append hmore.1 fun profile hprofile => ?_,
        fun other hother => List.mem_append_left _ (hmore.2 other hother)⟩
      -- the matcher's profile is the one that the guard looked at
      have hpatched : ∀ p, (app.casing.upper request.method = "PATCH" ∨
          app.casing.upper request.method = "DELETE") → segs = [v1, profilesText, p] →
          .checked (profileFile p) ∈ more := by
        rintro p hm rfl
        have hplain := h.plain hnorm hsegs (.inr (.inl ⟨hm, p, rfl⟩))
        have hnamed := h.named hnorm hsegs hm
        have hguarded := guardedProfile_of_plain hm hnorm hsegs hplain.1 hplain.2
        rw [if_neg (fun hprefix => hnamed.1 (List.isPrefixOf_iff_prefix.mp hprefix))] at hguarded
        rw [hnamed.2]
        exact hmore.2 p hguarded
      cases hcall with
      | create payload hm hs => cases hprofile
      | patch p changes hm hs =>
        obtain rfl := Option.some.inj hprofile
        exact hpatched p (.inl hm) hs
      | delete p hm hs =>
        obtain rfl := Option.some.inj hprofile
        exact hpatched p (.inr hm) hs
      | bind d name bound settings hm hs => cases hprofile
    · obtain ⟨later, -, rfl⟩ := List.mem_map.mp hhandler
      exact Keeps.onServices _

/-! ## An application that shows what a path lets through -/

def subjectOf (role : Role) : RequestPrincipal where
  user := ⟨"ada", none, .active, by decide⟩
  tenant := ⟨"acme", "Acme", .active, by decide⟩
  role := role
  scope := .readWrite

theorem none_filled (tenant : String) (h : none = some tenant) : Text.isBlank tenant = false := by
  cases h

def everyToken (role : Role) : AgentdAuthPolicy where
  bearerToken := none
  readOnlyBearerToken := none
  publicPaths := []
  credentialStore := some ⟨fun _ => some (subjectOf role), true, true⟩
  tenantId := none
  tokens_filled := by simp
  tokens_differ := by simp
  tenant_filled := none_filled
  paths_absolute := by simp

def takingStore : ProfileStore where
  perform _ _ := .ok []
  read _ _ _ _ := jsonResponse []
  text _ := "p"

def bareApp (casing : CaseMapping) (url : UrlParser) (role : Role) : AgentdApp Unit where
  casing := casing
  url := url
  auth := everyToken role
  adminStore := none
  profileStore := some takingStore
  defaultProfileNames := []
  profileServiceFactory := none
  hasActiveSessions _ _ := false
  tenantGuard _ := pure none
  memoryRoutes _ := pure none
  laterRoutes := []

/-- A request with a token, whose body adds one profile to a domain. -/
def bearing (method : String) (path : PathText) : HttpRequest where
  method := method
  path := path
  body := [("add", .arr [.str "p"])]
  headers := [("authorization", "Bearer t")]

def idle : AppState Unit := ⟨(), [], [], []⟩

theorem bare_asked {role : Role} :
    Asked casing url method path (bareApp casing url role) (bearing method path) := ⟨rfl, rfl, rfl, rfl⟩

theorem lower_lower {s t : String} (hs : isAscii s = true)
    (h : String.ofList (s.toList.map Char.toLower) = t) : casing.lower s = t :=
  (casing.lower_ascii s hs).trans h

theorem bare_authenticate {role : Role} :
    authenticate casing (bareApp casing url role).auth (bearing method path) norm
      (casing.upper method) = .ok (⟨none, some (subjectOf role)⟩, []) := by
  have hname : casing.lower "authorization" = "authorization" :=
    lower_lower (by decide) (by decide)
  have hscheme : casing.lower "Bearer" = "bearer" := lower_lower (by decide) (by decide)
  have hheader : authorizationHeader casing (bearing method path).headers = .ok (some "Bearer t") := by
    have hencodable : encodable casing [("authorization", "Bearer t")] = true := by
      simp only [encodable, List.all_cons, List.all_nil, hname]
      decide
    rw [authorizationHeader, show (bearing method path).headers = [("authorization", "Bearer t")] from rfl,
      if_pos hencodable, List.find?_cons_of_pos (by simp [hname])]
    rfl
  have htoken : bearerToken casing (some "Bearer t") = some "t" := by
    have htext : (Text.strip "Bearer t").toList = "Bearer t".toList := by decide
    have hdecide : ("Bearer t".toList.takeWhile (· ≠ ' ')) = "Bearer".toList := by decide
    simp only [bearerToken, htext, hdecide]
    change (if casing.lower "Bearer" ≠ "bearer" || decide (['t'] = []) then none else some "t") = some "t"
    rw [hscheme]
    rfl
  have hallowed : (authorizeRequest casing (subjectOf role) (casing.upper method)).allowed = true :=
    authorizeRequest_allowed.mpr (.inr rfl)
  have henabled : ¬(!(everyToken role).enabled || decide (norm ∈ (everyToken role).publicPaths)) = true := by
    simp [everyToken, AgentdAuthPolicy.enabled]
  change authenticate casing (everyToken role) (bearing method path) norm (casing.upper method) = _
  rw [authenticate, if_neg henabled, hheader]
  simp only [Except.ok_bind, htoken]
  change (if (authorizeRequest casing (subjectOf role) (casing.upper method)).allowed then _ else _) = _
  rw [if_pos hallowed]
  rfl

theorem bare_handle {role : Role} {norm : PathText} (hnorm : normalizePath url path = .ok norm)
    (hadmin : "/v1/admin".toList.isPrefixOf norm = false) :
    ∃ last, (bareApp casing url role).handle (bearing method path) idle =
      firstResponse last [(bareApp casing url role).profileMutationGuard (casing.upper method) norm,
        AgentdApp.configGate (some (subjectOf role)) (casing.upper method) norm,
        handleConfigAdminRoute casing url (some takingStore) (bearing method path)
          (casing.upper method) norm] idle := by
  refine ⟨notFound ("unknown route: " ++ String.ofList norm), ?_⟩
  have hhandle := @handle_admitted _ (bareApp casing url role) (bearing method path) _ _ _ hnorm
    bare_authenticate rfl
  rw [hhandle]
  change (bareApp casing url role).route (bearing method path) (casing.upper method) norm
    (some (subjectOf role)) idle = _
  rw [AgentdApp.route, hadmin]
  rfl

theorem match_create :
    matchRoutes casing configAdminRouteDefinitions [v1, profilesText] m =
      some ⟨"config_profiles_create", [], ["POST"].map casing.upper,
        decide (casing.upper m ∈ ["POST"].map casing.upper)⟩ := rfl

theorem match_write {p : PathText} :
    matchRoutes casing configAdminRouteDefinitions [v1, profilesText, p] m =
      some ⟨"config_profile_write", [("profile".toList, p)], ["PATCH", "DELETE"].map casing.upper,
        decide (casing.upper m ∈ ["PATCH", "DELETE"].map casing.upper)⟩ := rfl

theorem match_domain {d : PathText} :
    matchRoutes casing configAdminRouteDefinitions [v1, domainsText, d, profilesText] m =
      some ⟨"config_domain_profiles", [("name".toList, d)], ["GET", "PUT"].map casing.upper,
        decide (casing.upper m ∈ ["GET", "PUT"].map casing.upper)⟩ := rfl

/-- The store is called for the segments of a writing route. -/
theorem bare_config {norm : PathText} {m : String} {segs : List PathText}
    (hsegs : routePath url norm = .ok segs) (hw : WritingRoute m segs) :
    ∃ call response, ConfigCall m segs call ∧ ∀ s : AppState Unit,
      handleConfigAdminRoute casing url (some takingStore) (bearing method path) m norm s =
        .ok (some response) { s with calls := s.calls ++ [call] } := by
  have hmatch : ∀ (methods : List String), m ∈ methods →
      decide (casing.upper m ∈ methods.map casing.upper) = true :=
    fun methods hm => decide_eq_true (List.mem_map_of_mem hm)
  unfold handleConfigAdminRoute RouteDefinition.match
  simp only [hsegs, ofUrl, bind, Except.bind]
  rcases hw with ⟨rfl, rfl⟩ | ⟨hm, p, rfl⟩ | ⟨rfl, d, rfl⟩
  · rw [match_create, hmatch _ (by simp)]
    exact ⟨_, _, .create _ rfl rfl, fun s => rfl⟩
  · rw [match_write, hmatch _ (by simpa using hm)]
    rcases hm with rfl | rfl
    · exact ⟨_, _, .patch p _ rfl rfl, fun s => rfl⟩
    · exact ⟨_, _, .delete p rfl rfl, fun s => rfl⟩
  · rw [match_domain, hmatch _ (by simp)]
    exact ⟨_, _, .bind d "p" true none rfl rfl, fun s => rfl⟩

/-- A writing route is not one of the credential plane. -/
theorem not_admin_of_writing
    (hnorm : normalizePath url path = .ok norm) (hsegs : routePath url norm = .ok segs)
    (hw : WritingRoute m segs) : "/v1/admin".toList.isPrefixOf norm = false := by
  rw [Bool.eq_false_iff]
  intro hprefix
  obtain ⟨rest, rfl⟩ := List.isPrefixOf_iff_prefix.mp hprefix
  have hone : ("v1/admin".toList ++ rest).head? ≠ some '/' := show some 'v' ≠ some '/' by decide
  have hletter : ("admin".toList ++ rest).head? ≠ some '/' := show some 'a' ≠ some '/' by decide
  rw [routePath_rooted (normalizePath_ok hnorm).1 ⟨"v1/admin".toList ++ rest, rfl, hone⟩] at hsegs
  have hsplit : segments ("/v1/admin".toList ++ rest) = v1 :: segments ("admin".toList ++ rest) :=
    (segments_slash ("v1/admin".toList ++ rest)).trans
      (segments_append (s := v1) (by decide) (by decide) ("admin".toList ++ rest))
  rw [hsplit] at hsegs
  obtain ⟨s, ss, hs, hhead⟩ : ∃ s ss, segs = v1 :: s :: ss ∧ s.head? ≠ some 'a' := by
    rcases hw with ⟨-, rfl⟩ | ⟨-, p, rfl⟩ | ⟨-, d, rfl⟩
    · exact ⟨_, _, rfl, by decide⟩
    · exact ⟨_, _, rfl, by decide⟩
    · exact ⟨_, _, rfl, by decide⟩
  obtain ⟨more, hmore, -, -, hne, -⟩ :=
    segments_cons hletter (List.cons.inj ((Except.ok.inj hsegs).trans hs)).2
  cases s with
  | nil => exact hne rfl
  | cons c cs =>
    obtain ⟨rfl, -⟩ := List.cons.inj hmore
    exact hhead rfl

theorem bare_calls {role : Role} {norm : PathText} {segs : List PathText}
    (hnorm : normalizePath url path = .ok norm) (hsegs : routePath url norm = .ok segs)
    (hw : WritingRoute (casing.upper method) segs)
    (hgate : AgentdApp.adminPath norm = false ∨ role = .admin) :
    ∃ call, ConfigCall (casing.upper method) segs call ∧
      callsOf ((bareApp casing url role).handle (bearing method path)) idle =
        (AgentdApp.guardedProfile (casing.upper method) norm).toList.map .checked ++ [call] := by
  obtain ⟨call, response, hcall, hconfig⟩ := @bare_config casing url method path _ _ _ hsegs hw
  obtain ⟨last, hhandle⟩ := @bare_handle casing url method path role _ hnorm (not_admin_of_writing hnorm hsegs hw)
  have hopen : AgentdApp.configGate (σ := Unit) (some (subjectOf role)) (casing.upper method) norm =
      pure none := by
    unfold AgentdApp.configGate
    rcases hgate with hpath | rfl
    · rw [hpath, Bool.and_false]
      rfl
    · exact ite_self _
  refine ⟨call, hcall, ?_⟩
  have hguard : (bareApp casing url role).profileMutationGuard (casing.upper method) norm idle =
      .ok none ⟨(), [], [], (AgentdApp.guardedProfile (casing.upper method) norm).toList.map .checked⟩ := by
    unfold AgentdApp.profileMutationGuard
    cases AgentdApp.guardedProfile (casing.upper method) norm with
    | none => rfl
    | some profile => rfl
  rw [callsOf, hhandle, firstResponse_none hguard, firstResponse_none (by rw [hopen]; rfl),
    firstResponse_some (hconfig _)]
  rfl

/-! ## The promises and the spelling -/

theorem ConfigCall.writes {call : StoreCall} (h : ConfigCall m segs call) : call.writes = true := by
  cases h with
  | create payload hm hs => rfl
  | patch p changes hm hs => rfl
  | delete p hm hs => rfl
  | bind d profile bound settings hm hs => rfl

theorem ConfigCall.changes {p : PathText} {call : StoreCall}
    (h : ConfigCall m [v1, profilesText, p] call) : call.changes? = some (profileFile p) := by
  cases h with
  | create payload hm hs => cases hs
  | patch q changes hm hs => rw [(List.cons.inj (List.cons.inj (List.cons.inj hs).2).2).1]; rfl
  | delete q hm hs => rw [(List.cons.inj (List.cons.inj (List.cons.inj hs).2).2).1]; rfl
  | bind d profile bound settings hm hs => cases hs

/-- A path that the gate does not know lets an operator write. -/
theorem plain_of_guardsHold (h : GuardsHold casing url method path)
    (hnorm : normalizePath url path = .ok norm)
    (hsegs : routePath url norm = .ok segs) (hw : WritingRoute (casing.upper method) segs) :
    ¬"//".toList <+: norm ∧ ¬"/v1//".toList <+: norm := by
  have hclosed : AgentdApp.adminPath norm ≠ false := by
    intro hopen
    obtain ⟨call, hcall, hcalls⟩ := @bare_calls casing url method path .operator _ _ hnorm hsegs hw (.inl hopen)
    have hread := h.admins bare_asked hnorm bare_authenticate (by decide) idle call
      (hcalls ▸ List.mem_append_right _ List.mem_cons_self)
    exact absurd (hcall.writes.symm.trans hread) (by decide)
  constructor
  · rintro ⟨rest, rfl⟩
    exact hclosed rfl
  · rintro ⟨rest, rfl⟩
    exact hclosed rfl

/-- Where the guard takes another name than the matcher, or none, a profile is changed unchecked. -/
theorem named_of_guardsHold (h : GuardsHold casing url method path) {norm p : PathText}
    (hnorm : normalizePath url path = .ok norm)
    (hsegs : routePath url norm = .ok [v1, profilesText, p])
    (hm : casing.upper method = "PATCH" ∨ casing.upper method = "DELETE") :
    ¬"/v1/profiles//".toList <+: norm ∧ profileFile p = p := by
  have hw : WritingRoute (casing.upper method) [v1, profilesText, p] := .inr (.inl ⟨hm, p, rfl⟩)
  obtain ⟨hhost, hversion⟩ := plain_of_guardsHold h hnorm hsegs hw
  obtain ⟨call, hcall, hcalls⟩ := @bare_calls casing url method path .admin _ _ hnorm hsegs hw (.inr rfl)
  have hchecked := h.checks bare_asked idle hcalls hcall.changes
  rw [guardedProfile_of_plain hm hnorm hsegs hhost hversion] at hchecked
  by_cases hdouble : "/v1/profiles//".toList.isPrefixOf norm = true
  · rw [if_pos hdouble] at hchecked
    cases hchecked
  · rw [if_neg hdouble] at hchecked
    refine ⟨fun hprefix => hdouble (List.isPrefixOf_iff_prefix.mpr hprefix), ?_⟩
    exact StoreCall.checked.inj (List.mem_singleton.mp hchecked)

/-- **The guards keep their promises of a path** exactly if they read it as the matcher does. -/
theorem path_guards (casing : CaseMapping) (url : UrlParser) (method : String) (path : PathText) :
    GuardsHold casing url method path ↔ Spelled casing url method path := by
  constructor
  · intro h
    exact ⟨plain_of_guardsHold h, named_of_guardsHold h⟩
  · intro h
    exact ⟨admins_of_spelled h, fun hasked s heq hchanges =>
      checks_of_spelled h hasked s _ _ _ _ heq hchanges⟩

end Promises

/-! ## A path with two slashes -/

instance (path : PathText) : Decidable (Clean path) :=
  inferInstanceAs (Decidable (∀ c ∈ path, c ∉ ['?', '#', '\t', '\r', '\n']))

/-- A parser for the paths that begin with one slash and have nothing to clean. -/
def plainUrl : UrlParser where
  path text :=
    if Clean text ∧ text.head? = some '/' ∧ text.tail.head? ≠ some '/' then .ok text
    else .error .invalid
  clean text p h := by
    split at h
    · next hclean => exact Except.ok.inj h ▸ hclean.1
    · cases h
  rooted p hclean hrooted := by
    obtain ⟨rest, rfl, hhead⟩ := hrooted
    exact if_pos ⟨hclean, rfl, hhead⟩

/-- An operator creates a profile under `/v1//profiles`. -/
theorem doubled_slash_writes : ¬GuardsHold asciiCase plainUrl "POST" "/v1//profiles".toList := by
  intro h
  have hclean : Clean "/v1//profiles".toList := by simp [Clean]
  have hrooted : Rooted "/v1//profiles".toList := ⟨"v1//profiles".toList, rfl, by decide⟩
  have hsegments : segments "/v1//profiles".toList = [v1, profilesText] := by
    change segments ('/' :: (v1 ++ '/' :: '/' :: profilesText)) = _
    rw [segments_slash, segments_append (by decide) (by decide), segments_slash,
      segments_single (by decide) (by decide)]
  have hnorm : normalizePath plainUrl "/v1//profiles".toList = .ok "/v1//profiles".toList := by
    rw [normalizePath, plainUrl.rooted _ hclean hrooted]
    rfl
  have hplain := plain_of_guardsHold h hnorm (routePath_rooted hclean hrooted)
    (hsegments ▸ .inl ⟨by decide, rfl⟩)
  exact hplain.2 (by decide)

end UniversalAgent.Agentd
