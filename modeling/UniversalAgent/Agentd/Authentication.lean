import UniversalAgent.Agentd.Http

/-!
# Agentd — Authentication

Which requests `_authenticate` decides as it should. It lets through only who may pass; but it raises
on headers and tokens that cannot be compared, and it forgets the audit event of one refusal.
-/

namespace UniversalAgent.Agentd

open UniversalAgent.Core UniversalAgent.Foundation UniversalAgent.Security

variable {casing : CaseMapping} {policy : AgentdAuthPolicy} {request : HttpRequest} {path : PathText}
  {method : String}

/-! ## What is asked for -/

def Unwritten (casing : CaseMapping) (method : String) : Prop :=
  ∀ route ∈ routeDefinitions, ¬route.writes (casing.upper method)

def presented (casing : CaseMapping) (request : HttpRequest) : Option String :=
  match authorizationHeader casing request.headers with
  | .ok header => bearerToken casing header
  | .error _ => none

/-- Why a request may pass, and as whom. A read-only token, or a principal with a read-only scope,
passes only with a method that no route treats as writing. -/
inductive Entitled (casing : CaseMapping) (policy : AgentdAuthPolicy) (request : HttpRequest)
    (path : PathText) (method : String) : Option RequestPrincipal → Prop where
  | unguarded (h : path ∈ policy.publicPaths) : Entitled casing policy request path method none
  | bootstrap {token : String} {store : CredentialLookup} (ht : presented casing request = some token)
      (hs : policy.credentialStore = some store) (hnone : store.resolve token = none)
      (hb : policy.bearerToken = some token)
      (hopen : ¬(store.hasAnyAdmin = true ∧ store.hasAnyCredential = true)) :
      Entitled casing policy request path method none
  | shared {token : String} (ht : presented casing request = some token)
      (hs : policy.credentialStore = none) (hb : policy.bearerToken = some token) :
      Entitled casing policy request path method none
  | readOnly {token : String} (ht : presented casing request = some token)
      (hs : policy.credentialStore = none) (hr : policy.readOnlyBearerToken = some token)
      (hu : Unwritten casing method) : Entitled casing policy request path method none
  | credential {token : String} {store : CredentialLookup} {principal : RequestPrincipal}
      (ht : presented casing request = some token) (hs : policy.credentialStore = some store)
      (hp : store.resolve token = some principal)
      (htenant : ∀ tenant, policy.tenantId = some tenant → principal.tenantId = tenant)
      (hu : principal.scope = .readOnly → Unwritten casing method) :
      Entitled casing policy request path method (some principal)

/-- The request is decided: it is let through only if it may pass, and if it is refused then one denial
is recorded. -/
def Sound (casing : CaseMapping) (policy : AgentdAuthPolicy) (request : HttpRequest) (path : PathText)
    (method : String) (answer : Except AuthError Authenticated) : Prop :=
  ∃ outcome events, answer = .ok (outcome, events) ∧
    (outcome.response = none → Entitled casing policy request path method outcome.principal) ∧
    (outcome.response ≠ none → ∃ event, events = [event] ∧ event.event = "denied")

/-- `compare_digest` accepts the two texts, if it is asked. -/
def Comparable (token : String) : Option String → Prop
  | none => True
  | some expected => isAscii token = true ∧ isAscii expected = true

instance (token : String) : ∀ expected, Decidable (Comparable token expected)
  | none => .isTrue trivial
  | some _ => inferInstanceAs (Decidable (_ ∧ _))

/-- What the comparisons of the token need, and that it is not a read-only token that is refused. -/
def Decides (policy : AgentdAuthPolicy) (method token : String) : Prop :=
  match policy.credentialStore with
  | some store => store.resolve token ≠ none ∨ Comparable token policy.bearerToken
  | none =>
    Comparable token policy.bearerToken ∧
      (policy.bearerToken = some token ∨
        Comparable token policy.readOnlyBearerToken ∧
          (policy.readOnlyBearerToken = some token → method = "GET"))

/-! ## Comparisons -/

theorem tokenMatches_comparable {token : String} {expected : Option String}
    (h : Comparable token expected) :
    tokenMatches token expected = .ok (decide (expected = some token)) := by
  cases expected with
  | none => rfl
  | some expected =>
    obtain ⟨ht, he⟩ := h
    rw [tokenMatches, compareDigest, ht, he]
    simp [eq_comm]

theorem tokenMatches_not_comparable {token : String} {expected : Option String}
    (h : ¬Comparable token expected) : tokenMatches token expected = .error .notAscii := by
  cases expected with
  | none => exact absurd trivial h
  | some expected =>
    rw [tokenMatches, compareDigest, if_neg]
    rw [Bool.and_eq_true]
    exact h

theorem foreignTo_eq_none {principal : RequestPrincipal} (h : policy.foreignTo principal = none) :
    ∀ tenant, policy.tenantId = some tenant → principal.tenantId = tenant := by
  intro tenant he
  rw [AgentdAuthPolicy.foreignTo, he] at h
  by_contra hne
  exact absurd ((if_neg hne).symm.trans h) (by simp)

theorem unwritten_of_read (h : methodIsRead casing method = true) : Unwritten casing method :=
  not_writes_of_read (of_decide_eq_true h)

theorem unwritten_get : Unwritten casing "GET" := by
  apply not_writes_of_read
  have hupper : casing.upper "GET" = "GET" := casing.upper_ascii "GET" (by decide)
  rw [hupper]
  decide

/-! ## The branches -/

theorem sound_admitted {principal : Option RequestPrincipal}
    (h : Entitled casing policy request path method principal) :
    Sound casing policy request path method (.ok (admitted principal)) :=
  ⟨_, _, rfl, fun _ => h, fun hne => absurd rfl hne⟩

theorem sound_refused (response : HttpResponse) (reason : String) (actor : String) :
    Sound casing policy request path method
      (.ok (refused response [denial path method reason actor])) :=
  ⟨⟨some response, none⟩, [denial path method reason actor], rfl, fun hnone => (nomatch hnone),
    fun _ => ⟨_, rfl, rfl⟩⟩

theorem not_sound_unrecorded (response : HttpResponse) :
    ¬Sound casing policy request path method (.ok (refused response [])) := by
  rintro ⟨outcome, events, heq, -, hdenied⟩
  obtain ⟨rfl, rfl⟩ := Prod.mk.inj (Except.ok.inj heq)
  obtain ⟨event, hevent, -⟩ := hdenied (by simp)
  cases hevent

theorem not_sound_error (error : AuthError) :
    ¬Sound casing policy request path method (.error error) := by
  rintro ⟨_, _, heq, -⟩
  cases heq

theorem sound_credential {store : CredentialLookup} {token : String}
    (hs : policy.credentialStore = some store) (ht : presented casing request = some token) :
    Sound casing policy request path method
        (authenticateCredential casing policy store path method token) ↔
      store.resolve token ≠ none ∨ Comparable token policy.bearerToken := by
  unfold authenticateCredential
  cases hp : store.resolve token with
  | none =>
    by_cases hc : Comparable token policy.bearerToken
    · refine iff_of_true ?_ (.inr hc)
      dsimp only
      rw [tokenMatches_comparable hc]
      by_cases hb : policy.bearerToken = some token ∧
          ¬(store.hasAnyAdmin = true ∧ store.hasAnyCredential = true)
      · have hopen : (decide (policy.bearerToken = some token) &&
            !(store.hasAnyAdmin && store.hasAnyCredential)) = true := by
          rw [Bool.and_eq_true, Bool.not_eq_true', Bool.eq_false_iff, ne_eq, Bool.and_eq_true]
          exact ⟨decide_eq_true hb.1, hb.2⟩
        show Sound casing policy request path method (if _ then _ else _)
        rw [if_pos hopen]
        exact sound_admitted (.bootstrap ht hs hp hb.1 hb.2)
      · have hclosed : ¬(decide (policy.bearerToken = some token) &&
            !(store.hasAnyAdmin && store.hasAnyCredential)) = true := by
          rw [Bool.and_eq_true, Bool.not_eq_true', Bool.eq_false_iff, ne_eq, Bool.and_eq_true]
          exact fun h => hb ⟨of_decide_eq_true h.1, h.2⟩
        show Sound casing policy request path method (if _ then _ else _)
        rw [if_neg hclosed]
        exact sound_refused _ _ _
    · refine iff_of_false ?_ (by simp [hc])
      dsimp only
      rw [tokenMatches_not_comparable hc]
      exact not_sound_error _
  | some principal =>
    refine iff_of_true ?_ (.inl (by simp))
    dsimp only
    cases htenant : policy.foreignTo principal with
    | some tenantId => exact sound_refused _ _ _
    | none =>
      have hsame := foreignTo_eq_none htenant
      dsimp only
      split
      · next hallowed =>
          refine sound_admitted (.credential ht hs hp hsame fun hscope => ?_)
          refine unwritten_of_read ((authorizeRequest_allowed.mp hallowed).resolve_right ?_)
          rw [hscope]
          decide
      · exact sound_refused _ _ _

theorem sound_shared {token : String} (hs : policy.credentialStore = none)
    (ht : presented casing request = some token) :
    Sound casing policy request path method (authenticateShared policy path method token) ↔
      Comparable token policy.bearerToken ∧
        (policy.bearerToken = some token ∨
          Comparable token policy.readOnlyBearerToken ∧
            (policy.readOnlyBearerToken = some token → method = "GET")) := by
  unfold authenticateShared
  by_cases hc : Comparable token policy.bearerToken
  · rw [tokenMatches_comparable hc]
    show Sound casing policy request path method (if _ then _ else _) ↔ _
    by_cases hb : policy.bearerToken = some token
    · rw [if_pos (decide_eq_true hb)]
      exact iff_of_true (sound_admitted (.shared ht hs hb)) ⟨hc, .inl hb⟩
    · rw [if_neg (by simpa using hb)]
      by_cases hr : Comparable token policy.readOnlyBearerToken
      · rw [tokenMatches_comparable hr]
        show Sound casing policy request path method (if _ then _ else _) ↔ _
        by_cases hro : policy.readOnlyBearerToken = some token
        · rw [if_pos (decide_eq_true hro)]
          by_cases hm : method = "GET"
          · rw [if_pos hm]
            refine iff_of_true (sound_admitted (.readOnly ht hs hro ?_)) ⟨hc, .inr ⟨hr, fun _ => hm⟩⟩
            rw [hm]
            exact unwritten_get
          · rw [if_neg hm]
            refine iff_of_false (not_sound_unrecorded _) ?_
            rintro ⟨-, h | ⟨-, h⟩⟩
            · exact hb h
            · exact hm (h hro)
        · rw [if_neg (by simpa using hro)]
          exact iff_of_true (sound_refused _ _ _) ⟨hc, .inr ⟨hr, fun h => absurd h hro⟩⟩
      · rw [tokenMatches_not_comparable hr]
        refine iff_of_false (not_sound_error _) ?_
        rintro ⟨-, h | ⟨h, -⟩⟩
        · exact hb h
        · exact hr h
  · rw [tokenMatches_not_comparable hc]
    exact iff_of_false (not_sound_error _) fun h => hc h.1

def sharedTokens : AgentdAuthPolicy where
  bearerToken := some "full"
  readOnlyBearerToken := some "view"
  publicPaths := ["/health".toList, "/ready".toList]
  credentialStore := none
  tenantId := none
  tokens_filled := by
    rintro token (h | h)
    · obtain rfl := Option.some.inj h
      decide
    · obtain rfl := Option.some.inj h
      decide
  tokens_differ := by
    intro bearer readOnly hb hr
    obtain rfl := Option.some.inj hb
    obtain rfl := Option.some.inj hr
    decide
  tenant_filled := by
    intro tenant h
    cases h
  paths_absolute := by decide

def requestWith (token method : String) : HttpRequest where
  method := method
  path := "/v1/sessions".toList
  body := []
  headers := [("Authorization", "Bearer " ++ token)]

end UniversalAgent.Agentd
