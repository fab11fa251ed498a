import UniversalAgent.Security.Credentials

/-!
# Security — Authority

What a token is worth, told from the history of the in-memory store: what was granted and revoked,
which users and tenants are active, and which role was assigned last. The store keeps all of this
in tables of its own, and `Reflects` says that they agree with the history. A token resolves to
the principal that the history gives it, but for the scope: `resolve` takes the scope of the role
and does not look at the scope the credential was issued with.
-/

namespace UniversalAgent.Security

open UniversalAgent.Core UniversalAgent.Foundation

variable {h : CredentialHistory} {g : Grant} {credentialId : String}

/-! ## What a history says -/

abbrev CredentialHistory := List (AdminCall × CredentialAnswer)

/-- What a credential was issued for; `scope` is the one that was asked for explicitly. -/
structure Grant where
  credentialId : String
  userId : String
  tenantId : String
  scope : Option Scope
deriving DecidableEq

def grantOf : AdminCall × CredentialAnswer → Option (String × Grant)
  | (.issue userId tenantId _ scope _ _, .issued token c) =>
    some (token, ⟨c.credentialId, userId, tenantId, scope⟩)
  | (.store (.issueCredential userId tenantId _), .issued token c) =>
    some (token, ⟨c.credentialId, userId, tenantId, none⟩)
  | _ => none

def Issued (h : CredentialHistory) (token : String) (g : Grant) : Prop :=
  (token, g) ∈ h.filterMap grantOf

instance (h : CredentialHistory) (token : String) (g : Grant) : Decidable (Issued h token g) :=
  inferInstanceAs (Decidable (_ ∈ _))

/-- The credential was revoked: after it was issued, `revoke` was called with its id. -/
def Revoked (h : CredentialHistory) (credentialId : String) : Prop :=
  ∃ before answer after, h = before ++ (.store (.revokeCredential credentialId), answer) :: after ∧
    ∃ token g, Issued before token g ∧ g.credentialId = credentialId

/-- What a call makes of a user's status; no status means no such user. -/
def userAfter (userId : String) (status : Option UserAccountStatus) :
    AdminCall × CredentialAnswer → Option UserAccountStatus
  | (.store (.createUser u _ _), .user _) => if u = userId then some .active else status
  | (.store (.setUserStatus u new), .account _) => if u = userId then some new else status
  | (.registerUser p, _) => if p.userId = userId then some p.status else status
  | (.issue u _ _ _ displayName _, _) =>
    if u = userId ∧ status = none ∧ (UserPrincipal.make u displayName .active).toBool = true then
      some .active
    else status
  | _ => status

def userStatus (h : CredentialHistory) (userId : String) : Option UserAccountStatus :=
  h.foldl (userAfter userId) none

def tenantAfter (tenantId : String) (status : Option TenantStatus) :
    AdminCall × CredentialAnswer → Option TenantStatus
  | (.store (.createTenant t _), .tenant _) => if t = tenantId then some .active else status
  | (.store (.setTenantStatus t new), .tenant _) => if t = tenantId then some new else status
  | (.registerTenant t, _) => if t.tenantId = tenantId then some t.status else status
  | (.issue _ t _ _ _ _, .issued _ _) =>
    if t = tenantId ∧ status = none then some .active else status
  | _ => status

def tenantStatus (h : CredentialHistory) (tenantId : String) : Option TenantStatus :=
  h.foldl (tenantAfter tenantId) none

def roleAfter (tenantId userId : String) (role : Option Role) :
    AdminCall × CredentialAnswer → Option Role
  | (.store (.setRole t u new), .done) => if t = tenantId ∧ u = userId then some new else role
  | (.store (.issueCredential u t new), .issued _ _) =>
    if t = tenantId ∧ u = userId then some new else role
  | (.issue u t new _ _ _, .issued _ _) => if t = tenantId ∧ u = userId then some new else role
  | (.store (.removeMember t u), .flag _) => if t = tenantId ∧ u = userId then none else role
  | _ => role

/-- The role last assigned to the membership, none when it was removed since. -/
def lastRole (h : CredentialHistory) (tenantId userId : String) : Option Role :=
  h.foldl (roleAfter tenantId userId) none

/-- The grant still counts: not revoked, user and tenant active, and a member with that role. -/
structure Live (h : CredentialHistory) (g : Grant) (role : Role) : Prop where
  unrevoked : ¬ Revoked h g.credentialId
  user : userStatus h g.userId = some .active
  tenant : tenantStatus h g.tenantId = some .active
  role : lastRole h g.tenantId g.userId = some role

structure Authorised (h : CredentialHistory) (token : String) (result : Option RequestPrincipal) :
    Prop where
  resolves : result.isSome = true ↔ ∃ g role, Issued h token g ∧ Live h g role
  principal : ∀ p g, result = some p → Issued h token g →
    p.user.userId = g.userId ∧ p.tenant.tenantId = g.tenantId ∧
      lastRole h g.tenantId g.userId = some p.role
  scope : ∀ p g, result = some p → Issued h token g → p.scope = .readWrite →
    roleScope p.role = .readWrite ∧ g.scope ≠ some .readOnly
  never : ∀ g, Issued h token g → Revoked h g.credentialId → result = none

/-! ### One call later -/

theorem issued_snoc {entry : AdminCall × CredentialAnswer}
    {token : String} :
    Issued (h ++ [entry]) token g ↔ Issued h token g ∨ grantOf entry = some (token, g) := by
  unfold Issued
  rw [List.filterMap_append, List.mem_append]
  cases hg : grantOf entry <;> simp [hg, eq_comm]

theorem revoked_snoc {call : AdminCall} {answer : CredentialAnswer}
    :
    Revoked (h ++ [(call, answer)]) credentialId ↔ Revoked h credentialId ∨
      (call = .store (.revokeCredential credentialId) ∧
        ∃ token g, Issued h token g ∧ g.credentialId = credentialId) := by
  constructor
  · rintro ⟨before, a, after, heq, hissued⟩
    rcases List.eq_nil_or_concat after with rfl | ⟨rest, last, rfl⟩
    · obtain ⟨rfl, hlast⟩ := List.append_inj' heq rfl
      cases hlast
      exact .inr ⟨rfl, hissued⟩
    · rw [List.concat_eq_append, ← List.cons_append, ← List.append_assoc] at heq
      exact .inl ⟨before, a, rest, (List.append_inj' heq rfl).1, hissued⟩
  · rintro (⟨before, a, after, rfl, hissued⟩ | ⟨rfl, hissued⟩)
    · exact ⟨before, a, after ++ [(call, answer)], by simp, hissued⟩
    · exact ⟨h, answer, [], rfl, hissued⟩

theorem userStatus_snoc (h : CredentialHistory) (entry : AdminCall × CredentialAnswer)
    (userId : String) :
    userStatus (h ++ [entry]) userId = userAfter userId (userStatus h userId) entry := by
  simp [userStatus]

theorem tenantStatus_snoc (h : CredentialHistory) (entry : AdminCall × CredentialAnswer)
    (tenantId : String) :
    tenantStatus (h ++ [entry]) tenantId = tenantAfter tenantId (tenantStatus h tenantId) entry := by
  simp [tenantStatus]

theorem lastRole_snoc (h : CredentialHistory) (entry : AdminCall × CredentialAnswer)
    (tenantId userId : String) :
    lastRole (h ++ [entry]) tenantId userId
      = roleAfter tenantId userId (lastRole h tenantId userId) entry := by
  simp [lastRole]

/-! ## What a call does to the tables -/

section Tables

variable (secrets : Secrets) (s : CredentialStore)

/-- `_ensure_user` adds the user when it is new and passes its check. -/
theorem ensureUser_spec {s s₁ : CredentialStore} {userId : String} {displayName : Option String}
    (h : s.ensureUser userId displayName = .ok s₁) :
    s₁ = { s with users := s₁.users } ∧ ∀ u, (s₁.users.get? u).map UserPrincipal.status
      = userAfter u ((s.users.get? u).map UserPrincipal.status)
        (.issue userId "" .operator none displayName none, .done) := by
  unfold CredentialStore.ensureUser at h
  split at h
  · next p hp =>
      cases h
      refine ⟨rfl, fun u => ?_⟩
      simp only [userAfter]
      rw [if_neg]
      rintro ⟨rfl, hn, -⟩
      simp [hp] at hn
  · next hn =>
      split at h
      · cases h
      · next p hp =>
          cases h
          obtain ⟨hid, -, hst⟩ := UserPrincipal.make_eq_ok.mp hp
          refine ⟨rfl, fun u => ?_⟩
          simp only [userAfter, hp, Table.get?_put, hid]
          by_cases hu : u = userId
          · subst hu
            simp [hn, hst, Except.toBool]
          · simp [hu, Ne.symm hu]

theorem ensureUser_error {s : CredentialStore} {userId message : String}
    {displayName : Option String} (h : s.ensureUser userId displayName = .error message) (u : String) :
    userAfter u ((s.users.get? u).map UserPrincipal.status)
      (.issue userId "" .operator none displayName none, .done)
      = (s.users.get? u).map UserPrincipal.status := by
  unfold CredentialStore.ensureUser at h
  split at h
  · cases h
  · split at h
    · next m hm => simp [userAfter, hm, Except.toBool]
    · cases h

/-- `_ensure_tenant` adds the tenant when it is new and passes its check. -/
theorem ensureTenant_spec {s s₁ : CredentialStore} {tenantId : String} {name : Option String}
    (h : s.ensureTenant tenantId name = .ok s₁) :
    s₁ = { s with tenants := s₁.tenants } ∧ ∀ t, (s₁.tenants.get? t).map Tenant.status
      = if tenantId = t ∧ (s.tenants.get? t).map Tenant.status = none then some .active
        else (s.tenants.get? t).map Tenant.status := by
  unfold CredentialStore.ensureTenant at h
  split at h
  · next p hp =>
      cases h
      refine ⟨rfl, fun t => ?_⟩
      rw [if_neg]
      rintro ⟨rfl, hn⟩
      simp [hp] at hn
  · next hn =>
      dsimp only at h
      split at h
      · cases h
      · next p hp =>
          cases h
          obtain ⟨hid, -, hst⟩ := Tenant.make_eq_ok.mp hp
          refine ⟨rfl, fun t => ?_⟩
          simp only [Table.get?_put, hid]
          by_cases ht : t = tenantId
          · subst ht
            simp [hn, hst]
          · simp [ht, Ne.symm ht]

/-- What `issue` does, when it issues and when it raises. -/
theorem issue_spec (userId tenantId : String) (role : Role) (scope : Option Scope)
    (displayName tenantName : Option String) :
    (∃ s₁ s₂, s.ensureUser userId displayName = .ok s₁ ∧ s₁.ensureTenant tenantId tenantName = .ok s₂ ∧
        let c := CredentialStore.newCredential secrets s.calls tenantId userId role scope
        s.issue secrets userId tenantId role scope displayName tenantName
          = (.issued (secrets.token s.calls) c,
            { s₂ with
              byHash := s₂.byHash.put c
              byId := s₂.byId.put c
              memberships := s₂.memberships.put ⟨tenantId, userId, role⟩ })) ∨
      (∃ message s₁, s.ensureUser userId displayName = .ok s₁ ∧
        s.issue secrets userId tenantId role scope displayName tenantName
          = (.raised (.invalid message), s₁)) ∨
      ∃ message, s.ensureUser userId displayName = .error message ∧
        s.issue secrets userId tenantId role scope displayName tenantName
          = (.raised (.invalid message), s) := by
  unfold CredentialStore.issue
  cases hu : s.ensureUser userId displayName with
  | error message => exact .inr (.inr ⟨message, rfl, rfl⟩)
  | ok s₁ =>
    cases ht : s₁.ensureTenant tenantId tenantName with
    | error message => exact .inr (.inl ⟨message, s₁, rfl, by simp only [ht]⟩)
    | ok s₂ => exact .inl ⟨s₁, s₂, rfl, ht, by simp only [ht]⟩

/-- `issue_credential` either raises or issues to a user and a tenant that are there. -/
theorem issueCredential_spec (userId tenantId : String) (role : Role) :
    (∃ error, s.issueCredential secrets userId tenantId role = (.raised error, s)) ∨
      ((∃ t, s.tenants.get? tenantId = some t) ∧ (∃ u, s.users.get? userId = some u) ∧
        let c := CredentialStore.newCredential secrets s.calls tenantId userId role none
        s.issueCredential secrets userId tenantId role
          = (.issued (secrets.token s.calls) c,
            { s with
              byHash := s.byHash.put c
              byId := s.byId.put c
              memberships := s.memberships.put ⟨tenantId, userId, role⟩ })) := by
  unfold CredentialStore.issueCredential
  cases hm : s.missingPrincipal? tenantId userId with
  | some error => exact .inl ⟨error, rfl⟩
  | none =>
    obtain ⟨⟨t, ht⟩, u, hu⟩ := missingPrincipal?_eq_none hm
    have huser : s.ensureUser userId none = .ok s := by
      simp [CredentialStore.ensureUser, hu]
    have htenant : s.ensureTenant tenantId none = .ok s := by
      simp [CredentialStore.ensureTenant, ht]
    refine .inr ⟨⟨t, ht⟩, ⟨u, hu⟩, ?_⟩
    simp only [CredentialStore.issue, huser, htenant]

/-- Every call changes the users as the history says. -/
theorem users_call (call : AdminCall) (u : String) :
    (((s.call secrets call).2.users.get? u).map UserPrincipal.status)
      = userAfter u ((s.users.get? u).map UserPrincipal.status) (call, (s.call secrets call).1) := by
  cases call with
  | issue userId tenantId role scope displayName tenantName =>
    have hshape : ∀ answer, userAfter u ((s.users.get? u).map UserPrincipal.status)
        (.issue userId tenantId role scope displayName tenantName, answer)
        = userAfter u ((s.users.get? u).map UserPrincipal.status)
          (.issue userId "" .operator none displayName none, .done) := fun _ => rfl
    rcases issue_spec secrets s userId tenantId role scope displayName tenantName with
      ⟨s₁, s₂, hu, ht, hi⟩ | ⟨message, s₁, hu, hi⟩ | ⟨message, hu, hi⟩
    · have hs₂ := congrArg CredentialStore.users (ensureTenant_spec ht).1
      simp only [CredentialStore.call, hi, hshape]
      rw [hs₂]
      exact (ensureUser_spec hu).2 u
    · simp only [CredentialStore.call, hi, hshape]
      exact (ensureUser_spec hu).2 u
    · simp only [CredentialStore.call, hi, hshape]
      exact (ensureUser_error hu u).symm
  | registerUser p =>
    simp only [CredentialStore.call, CredentialStore.registerUser, userAfter, Table.get?_put]
    by_cases h : u = p.userId
    · simp [h]
    · simp [h, Ne.symm h]
  | registerTenant t => rfl
  | store call =>
    cases call with
    | createTenant tenantId name =>
      simp only [CredentialStore.call, CredentialStore.createTenant]
      split
      · rfl
      · split <;> rfl
    | createUser userId email displayName =>
      simp only [CredentialStore.call, CredentialStore.createUser]
      split
      · rfl
      · split
        · rfl
        · split
          · rfl
          · next p hp =>
              obtain ⟨hid, -, hst⟩ := UserPrincipal.make_eq_ok.mp hp
              simp only [userAfter, Table.get?_put, hid]
              by_cases h : u = userId
              · simp [h, hst]
              · simp [h, Ne.symm h]
    | setRole tenantId userId role =>
      simp only [CredentialStore.call, CredentialStore.setRole]
      split <;> rfl
    | issueCredential userId tenantId role =>
      simp only [CredentialStore.call]
      rcases issueCredential_spec secrets s userId tenantId role with ⟨e, hi⟩ | ⟨-, -, hi⟩
      · rw [hi]
        rfl
      · rw [hi]
        rfl
    | revokeCredential credentialId =>
      simp only [CredentialStore.call, CredentialStore.revoke]
      split <;> rfl
    | removeMember tenantId userId =>
      simp only [CredentialStore.call, CredentialStore.removeMember]
      split <;> rfl
    | setUserStatus userId status =>
      simp only [CredentialStore.call, CredentialStore.setUserStatus]
      split
      · rfl
      · next p hp =>
          have hid : p.userId = userId := (Table.get?_eq_some.mp hp).2
          simp only [userAfter, Table.get?_put, hid]
          by_cases h : u = userId
          · simp [h]
          · simp [h, Ne.symm h]
    | setTenantStatus tenantId status =>
      simp only [CredentialStore.call, CredentialStore.setTenantStatus]
      split <;> rfl
    | resolve rawToken => rfl

/-- Every call changes the tenants as the history says. -/
theorem tenants_call (call : AdminCall) (t : String) :
    (((s.call secrets call).2.tenants.get? t).map Tenant.status)
      = tenantAfter t ((s.tenants.get? t).map Tenant.status) (call, (s.call secrets call).1) := by
  cases call with
  | issue userId tenantId role scope displayName tenantName =>
    rcases issue_spec secrets s userId tenantId role scope displayName tenantName with
      ⟨s₁, s₂, hu, ht, hi⟩ | ⟨message, s₁, hu, hi⟩ | ⟨message, hu, hi⟩
    · have hs₁ := congrArg CredentialStore.tenants (ensureUser_spec hu).1
      simp only [CredentialStore.call, hi, tenantAfter]
      rw [(ensureTenant_spec ht).2, hs₁]
    · have hs₁ := congrArg CredentialStore.tenants (ensureUser_spec hu).1
      simp only [CredentialStore.call, hi, tenantAfter, hs₁]
    · simp only [CredentialStore.call, hi, tenantAfter]
  | registerUser p => rfl
  | registerTenant tenant =>
    simp only [CredentialStore.call, CredentialStore.registerTenant, tenantAfter, Table.get?_put]
    by_cases h : t = tenant.tenantId
    · simp [h]
    · simp [h, Ne.symm h]
  | store call =>
    cases call with
    | createTenant tenantId name =>
      simp only [CredentialStore.call, CredentialStore.createTenant]
      split
      · rfl
      · split
        · rfl
        · next tenant hp =>
            obtain ⟨hid, -, hst⟩ := Tenant.make_eq_ok.mp hp
            simp only [tenantAfter, Table.get?_put, hid]
            by_cases h : t = tenantId
            · simp [h, hst]
            · simp [h, Ne.symm h]
    | createUser userId email displayName =>
      simp only [CredentialStore.call, CredentialStore.createUser]
      split
      · rfl
      · split
        · rfl
        · split <;> rfl
    | setRole tenantId userId role =>
      simp only [CredentialStore.call, CredentialStore.setRole]
      split <;> rfl
    | issueCredential userId tenantId role =>
      simp only [CredentialStore.call]
      rcases issueCredential_spec secrets s userId tenantId role with ⟨e, hi⟩ | ⟨-, -, hi⟩
      · rw [hi]
        rfl
      · rw [hi]
        rfl
    | revokeCredential credentialId =>
      simp only [CredentialStore.call, CredentialStore.revoke]
      split <;> rfl
    | removeMember tenantId userId =>
      simp only [CredentialStore.call, CredentialStore.removeMember]
      split <;> rfl
    | setUserStatus userId status =>
      simp only [CredentialStore.call, CredentialStore.setUserStatus]
      split <;> rfl
    | setTenantStatus tenantId status =>
      simp only [CredentialStore.call, CredentialStore.setTenantStatus]
      split
      · rfl
      · next tenant hp =>
          have hid : tenant.tenantId = tenantId := (Table.get?_eq_some.mp hp).2
          simp only [tenantAfter, Table.get?_put, hid]
          by_cases h : t = tenantId
          · simp [h]
          · simp [h, Ne.symm h]
    | resolve rawToken => rfl

theorem role_put (memberships : Table Membership.key) (tenantId userId : String) (role : Role)
    (t u : String) :
    ((memberships.put ⟨tenantId, userId, role⟩).get? (t, u)).map Membership.role
      = if tenantId = t ∧ userId = u then some role
        else (memberships.get? (t, u)).map Membership.role := by
  rw [Table.get?_put]
  by_cases h : tenantId = t ∧ userId = u
  · obtain ⟨rfl, rfl⟩ := h
    simp [Membership.key]
  · have hk : (t, u) ≠ Membership.key ⟨tenantId, userId, role⟩ := fun hk => by
      simp only [Membership.key, Prod.mk.injEq] at hk
      exact h ⟨hk.1.symm, hk.2.symm⟩
    rw [if_neg hk, if_neg h]

/-- Every call changes the roles as the history says. -/
theorem roles_call (call : AdminCall) (t u : String) :
    (((s.call secrets call).2.memberships.get? (t, u)).map Membership.role)
      = roleAfter t u ((s.memberships.get? (t, u)).map Membership.role)
        (call, (s.call secrets call).1) := by
  cases call with
  | issue userId tenantId role scope displayName tenantName =>
    rcases issue_spec secrets s userId tenantId role scope displayName tenantName with
      ⟨s₁, s₂, hu, ht, hi⟩ | ⟨message, s₁, hu, hi⟩ | ⟨message, hu, hi⟩
    · have hs₁ := congrArg CredentialStore.memberships (ensureUser_spec hu).1
      have hs₂ := congrArg CredentialStore.memberships (ensureTenant_spec ht).1
      simp only [CredentialStore.call, hi, roleAfter, role_put]
      rw [hs₂, hs₁]
    · have hs₁ := congrArg CredentialStore.memberships (ensureUser_spec hu).1
      simp only [CredentialStore.call, hi, roleAfter, hs₁]
    · simp only [CredentialStore.call, hi, roleAfter]
  | registerUser p => rfl
  | registerTenant tenant => rfl
  | store call =>
    cases call with
    | createTenant tenantId name =>
      simp only [CredentialStore.call, CredentialStore.createTenant]
      split
      · rfl
      · split <;> rfl
    | createUser userId email displayName =>
      simp only [CredentialStore.call, CredentialStore.createUser]
      split
      · rfl
      · split
        · rfl
        · split <;> rfl
    | setRole tenantId userId role =>
      simp only [CredentialStore.call, CredentialStore.setRole]
      split
      · rfl
      · exact role_put _ _ _ _ _ _
    | issueCredential userId tenantId role =>
      simp only [CredentialStore.call]
      rcases issueCredential_spec secrets s userId tenantId role with ⟨e, hi⟩ | ⟨-, -, hi⟩
      · rw [hi]
        rfl
      · rw [hi]
        exact role_put _ _ _ _ _ _
    | revokeCredential credentialId =>
      simp only [CredentialStore.call, CredentialStore.revoke]
      split <;> rfl
    | removeMember tenantId userId =>
      simp only [CredentialStore.call, CredentialStore.removeMember]
      split
      · rfl
      · simp only [roleAfter]
        by_cases h : tenantId = t ∧ userId = u
        · obtain ⟨rfl, rfl⟩ := h
          simp
        · rw [if_neg h, Table.get?_erase_ne]
          intro hk
          simp only [Prod.mk.injEq] at hk
          exact h ⟨hk.1.symm, hk.2.symm⟩
    | setUserStatus userId status =>
      simp only [CredentialStore.call, CredentialStore.setUserStatus]
      split <;> rfl
    | setTenantStatus tenantId status =>
      simp only [CredentialStore.call, CredentialStore.setTenantStatus]
      split <;> rfl
    | resolve rawToken => rfl

/-- What a call does to the credentials: it issues one, revokes one, or leaves them. -/
theorem credentials_call (call : AdminCall) :
    (∃ userId tenantId role scope explicit,
        let c := CredentialStore.newCredential secrets s.calls tenantId userId role scope
        grantOf (call, (s.call secrets call).1)
            = some (secrets.token s.calls, ⟨c.credentialId, userId, tenantId, explicit⟩) ∧
          (∀ id, call ≠ .store (.revokeCredential id)) ∧
          (s.call secrets call).2.byHash = s.byHash.put c ∧
          (s.call secrets call).2.byId = s.byId.put c) ∨
      (grantOf (call, (s.call secrets call).1) = none ∧
        ((∃ id c, call = .store (.revokeCredential id) ∧ s.byId.get? id = some c ∧
            (s.call secrets call).2.byHash = s.byHash.put { c with revoked := true } ∧
            (s.call secrets call).2.byId = s.byId.put { c with revoked := true }) ∨
          ((∀ id, call = .store (.revokeCredential id) → s.byId.get? id = none) ∧
            (s.call secrets call).2.byHash = s.byHash ∧
            (s.call secrets call).2.byId = s.byId))) := by
  cases call with
  | issue userId tenantId role scope displayName tenantName =>
    rcases issue_spec secrets s userId tenantId role scope displayName tenantName with
      ⟨s₁, s₂, hu, ht, hi⟩ | ⟨message, s₁, hu, hi⟩ | ⟨message, hu, hi⟩
    · have hs₁ := (ensureUser_spec hu).1
      have hs₂ := (ensureTenant_spec ht).1
      refine .inl ⟨userId, tenantId, role, scope, scope, ?_⟩
      simp only [CredentialStore.call, hi, grantOf]
      refine ⟨trivial, by rintro _ ⟨⟩, ?_, ?_⟩
      · rw [hs₂, hs₁]
      · rw [hs₂, hs₁]
    · have hs₁ := (ensureUser_spec hu).1
      refine .inr ⟨?_, .inr ⟨by rintro _ ⟨⟩, ?_, ?_⟩⟩
      · simp only [CredentialStore.call, hi, grantOf]
      · simp only [CredentialStore.call, hi]
        rw [hs₁]
      · simp only [CredentialStore.call, hi]
        rw [hs₁]
    · refine .inr ⟨?_, .inr ⟨by rintro _ ⟨⟩, ?_, ?_⟩⟩
      · simp only [CredentialStore.call, hi, grantOf]
      · simp only [CredentialStore.call, hi]
      · simp only [CredentialStore.call, hi]
  | registerUser p => exact .inr ⟨rfl, .inr ⟨by rintro _ ⟨⟩, rfl, rfl⟩⟩
  | registerTenant tenant => exact .inr ⟨rfl, .inr ⟨by rintro _ ⟨⟩, rfl, rfl⟩⟩
  | store call =>
    cases call with
    | createTenant tenantId name =>
      simp only [CredentialStore.call, CredentialStore.createTenant]
      split
      · exact .inr ⟨rfl, .inr ⟨by rintro _ ⟨⟩, rfl, rfl⟩⟩
      · split <;> exact .inr ⟨rfl, .inr ⟨by rintro _ ⟨⟩, rfl, rfl⟩⟩
    | createUser userId email displayName =>
      simp only [CredentialStore.call, CredentialStore.createUser]
      split
      · exact .inr ⟨rfl, .inr ⟨by rintro _ ⟨⟩, rfl, rfl⟩⟩
      · split
        · exact .inr ⟨rfl, .inr ⟨by rintro _ ⟨⟩, rfl, rfl⟩⟩
        · split <;> exact .inr ⟨rfl, .inr ⟨by rintro _ ⟨⟩, rfl, rfl⟩⟩
    | setRole tenantId userId role =>
      simp only [CredentialStore.call, CredentialStore.setRole]
      split <;> exact .inr ⟨rfl, .inr ⟨by rintro _ ⟨⟩, rfl, rfl⟩⟩
    | issueCredential userId tenantId role =>
      simp only [CredentialStore.call]
      rcases issueCredential_spec secrets s userId tenantId role with ⟨e, hi⟩ | ⟨-, -, hi⟩
      · rw [hi]
        exact .inr ⟨rfl, .inr ⟨by rintro _ ⟨⟩, rfl, rfl⟩⟩
      · rw [hi]
        exact .inl ⟨userId, tenantId, role, none, none, rfl, by rintro _ ⟨⟩, rfl, rfl⟩
    | revokeCredential credentialId =>
      simp only [CredentialStore.call, CredentialStore.revoke]
      split
      · next hn =>
          refine .inr ⟨rfl, .inr ⟨fun id hid => ?_, rfl, rfl⟩⟩
          cases hid
          exact hn
      · next c hc => exact .inr ⟨rfl, .inl ⟨credentialId, c, rfl, hc, rfl, rfl⟩⟩
    | removeMember tenantId userId =>
      simp only [CredentialStore.call, CredentialStore.removeMember]
      split <;> exact .inr ⟨rfl, .inr ⟨by rintro _ ⟨⟩, rfl, rfl⟩⟩
    | setUserStatus userId status =>
      simp only [CredentialStore.call, CredentialStore.setUserStatus]
      split <;> exact .inr ⟨rfl, .inr ⟨by rintro _ ⟨⟩, rfl, rfl⟩⟩
    | setTenantStatus tenantId status =>
      simp only [CredentialStore.call, CredentialStore.setTenantStatus]
      split <;> exact .inr ⟨rfl, .inr ⟨by rintro _ ⟨⟩, rfl, rfl⟩⟩
    | resolve rawToken => exact .inr ⟨rfl, .inr ⟨by rintro _ ⟨⟩, rfl, rfl⟩⟩

end Tables

/-! ## The store reflects the history -/

/-- The credential under a token's hash, and under its own id, is the one that was granted. -/
structure Held (secrets : Secrets) (h : CredentialHistory) (s : CredentialStore) (token : String)
    (g : Grant) (c : Credential) : Prop where
  hashed : s.byHash.get? (secrets.hashCredential token) = some c
  found : s.byId.get? g.credentialId = some c
  user : c.userId = g.userId
  tenant : c.tenantId = g.tenantId
  revoked : c.revoked = true ↔ Revoked h g.credentialId

structure Reflects (secrets : Secrets) (h : CredentialHistory) (s : CredentialStore) : Prop where
  users : ∀ u, (s.users.get? u).map UserPrincipal.status = userStatus h u
  tenants : ∀ t, (s.tenants.get? t).map Tenant.status = tenantStatus h t
  roles : ∀ t u, (s.memberships.get? (t, u)).map Membership.role = lastRole h t u
  calls : s.calls = h.length
  drawn : ∀ token g, Issued h token g →
    ∃ n < h.length, token = secrets.token n ∧ g.credentialId = secrets.credentialId n
  held : ∀ token g, Issued h token g → ∃ c, Held secrets h s token g c
  granted : ∀ c, c ∈ s.byHash ∨ c ∈ s.byId → ∃ token g, Issued h token g ∧
    c.tokenHash = secrets.hashCredential token ∧ c.credentialId = g.credentialId

section Reflects

variable {secrets : Secrets} {h : CredentialHistory} {s : CredentialStore}

theorem Reflects.empty : Reflects secrets [] .empty where
  users _ := rfl
  tenants _ := rfl
  roles _ _ := rfl
  calls := rfl
  drawn _ _ hi := absurd hi List.not_mem_nil
  held _ _ hi := absurd hi List.not_mem_nil
  granted _ hc := hc.elim (absurd · (Table.not_mem_empty _)) (absurd · (Table.not_mem_empty _))

/-- A credential id is revoked only after a credential of it was issued. -/
theorem Revoked.issued (hr : Revoked h credentialId) :
    ∃ token g, Issued h token g ∧ g.credentialId = credentialId := by
  obtain ⟨before, a, after, rfl, token, g, hi, hid⟩ := hr
  refine ⟨token, g, ?_, hid⟩
  unfold Issued at hi ⊢
  rw [List.filterMap_append]
  exact List.mem_append_left _ hi

/-- What was granted before is not what is drawn now. -/
theorem Reflects.fresh (hr : Reflects secrets h s) {token : String}
    (hi : Issued h token g) :
    token ≠ secrets.token s.calls ∧ g.credentialId ≠ secrets.credentialId s.calls := by
  obtain ⟨n, hn, rfl, hid⟩ := hr.drawn token g hi
  have hne : n ≠ s.calls := by
    rw [hr.calls]
    omega
  refine ⟨fun hk => hne (secrets.token_injective hk), fun hk => hne ?_⟩
  exact secrets.credentialId_injective (hid.symm.trans hk)

/-- A credential found under its id answers to one token. -/
theorem Reflects.token_eq (hr : Reflects secrets h s) {id token : String} {c : Credential}
    (hc : s.byId.get? id = some c) (hi : Issued h token g)
    (ht : c.tokenHash = secrets.hashCredential token) : g.credentialId = id := by
  obtain ⟨hmem, hid⟩ := Table.get?_eq_some.mp hc
  obtain ⟨token', g', hi', hhash, hg'⟩ := hr.granted c (.inr hmem)
  obtain rfl : token = token' := secrets.hash_injective (ht.symm.trans hhash)
  obtain ⟨c₁, h₁⟩ := hr.held token g hi
  obtain ⟨c₂, h₂⟩ := hr.held token g' hi'
  obtain rfl : c₁ = c₂ := Option.some.inj (h₁.hashed.symm.trans h₂.hashed)
  have hk := (Table.get?_eq_some.mp h₁.found).2
  have hk' := (Table.get?_eq_some.mp h₂.found).2
  rw [← hk, hk', ← hg', hid]

theorem Reflects.issued (hr : Reflects secrets h s) {call : AdminCall} {answer : CredentialAnswer}
    {s' : CredentialStore} {userId tenantId : String} {role : Role} {scope explicit : Option Scope}
    (hg : grantOf (call, answer) = some (secrets.token s.calls,
      ⟨secrets.credentialId s.calls, userId, tenantId, explicit⟩))
    (hnot : ∀ id, call ≠ .store (.revokeCredential id))
    (hhash : s'.byHash
      = s.byHash.put (CredentialStore.newCredential secrets s.calls tenantId userId role scope))
    (hid : s'.byId
      = s.byId.put (CredentialStore.newCredential secrets s.calls tenantId userId role scope)) :
    ∀ token g, Issued (h ++ [(call, answer)]) token g →
      ∃ c, Held secrets (h ++ [(call, answer)]) s' token g c := by
  have hrevoked : ∀ id, Revoked (h ++ [(call, answer)]) id ↔ Revoked h id := fun id => by
    rw [revoked_snoc]
    exact or_iff_left fun hk => hnot id hk.1
  intro token g hi
  rcases issued_snoc.mp hi with hi | hi
  · obtain ⟨c, hc⟩ := hr.held token g hi
    obtain ⟨htoken, hfresh⟩ := hr.fresh hi
    refine ⟨c, ?_, ?_, hc.user, hc.tenant, hc.revoked.trans (hrevoked _).symm⟩
    · rw [hhash, Table.get?_put_ne]
      · exact hc.hashed
      · exact fun hk => htoken (secrets.hash_injective hk)
    · rw [hid, Table.get?_put_ne]
      · exact hc.found
      · exact hfresh
  · rw [hg, Option.some.injEq, Prod.mk.injEq] at hi
    obtain ⟨rfl, rfl⟩ := hi
    refine ⟨CredentialStore.newCredential secrets s.calls tenantId userId role scope, ?_, ?_, rfl,
      rfl, ?_⟩
    · rw [hhash]
      exact Table.get?_put_self _ _
    · rw [hid]
      exact Table.get?_put_self _ _
    · refine iff_of_false (by simp [CredentialStore.newCredential]) fun hk => ?_
      obtain ⟨token, g, hi, hk⟩ := ((hrevoked _).mp hk).issued
      exact (hr.fresh hi).2 hk

/-- The credentials after one that was found is revoked. -/
theorem Reflects.revoked (hr : Reflects secrets h s) {id : String} {c : Credential}
    {answer : CredentialAnswer} {s' : CredentialStore} (hc : s.byId.get? id = some c)
    (hg : grantOf (.store (.revokeCredential id), answer) = none)
    (hhash : s'.byHash = s.byHash.put { c with revoked := true })
    (hid : s'.byId = s.byId.put { c with revoked := true }) :
    ∀ token g, Issued (h ++ [(.store (.revokeCredential id), answer)]) token g →
      ∃ c, Held secrets (h ++ [(.store (.revokeCredential id), answer)]) s' token g c := by
  intro token g hi
  have hi : Issued h token g := (issued_snoc.mp hi).resolve_right (by rw [hg]; nofun)
  obtain ⟨c₀, h₀⟩ := hr.held token g hi
  have hcid : c.credentialId = id := (Table.get?_eq_some.mp hc).2
  by_cases hk : g.credentialId = id
  · obtain rfl : c = c₀ := by
      have := h₀.found
      rw [hk, hc] at this
      exact Option.some.inj this
    have htoken : c.tokenHash = secrets.hashCredential token := (Table.get?_eq_some.mp h₀.hashed).2
    refine ⟨{ c with revoked := true }, ?_, ?_, h₀.user, h₀.tenant, ?_⟩
    · rw [hhash, ← htoken]
      exact Table.get?_put_self _ _
    · rw [hid, hk, ← hcid]
      exact Table.get?_put_self _ _
    · refine iff_of_true rfl (revoked_snoc.mpr (.inr ⟨by rw [hk], token, g, hi, rfl⟩))
  · refine ⟨c₀, ?_, ?_, h₀.user, h₀.tenant, h₀.revoked.trans ?_⟩
    · rw [hhash, Table.get?_put_ne]
      · exact h₀.hashed
      · exact fun hkey => hk (hr.token_eq hc hi hkey.symm)
    · rw [hid, Table.get?_put_ne]
      · exact h₀.found
      · exact fun hkey => hk (hkey.trans hcid)
    · rw [revoked_snoc]
      refine (or_iff_left fun hn => hk ?_).symm
      simp only [AdminCall.store.injEq, CredentialCall.revokeCredential.injEq] at hn
      exact hn.1.symm

theorem Reflects.left (hr : Reflects secrets h s) {call : AdminCall} {answer : CredentialAnswer}
    {s' : CredentialStore} (hg : grantOf (call, answer) = none)
    (hnone : ∀ id, call = .store (.revokeCredential id) → s.byId.get? id = none)
    (hhash : s'.byHash = s.byHash) (hid : s'.byId = s.byId) :
    ∀ token g, Issued (h ++ [(call, answer)]) token g →
      ∃ c, Held secrets (h ++ [(call, answer)]) s' token g c := by
  intro token g hi
  have hi : Issued h token g := (issued_snoc.mp hi).resolve_right (by rw [hg]; nofun)
  obtain ⟨c, hc⟩ := hr.held token g hi
  refine ⟨c, hhash ▸ hc.hashed, hid ▸ hc.found, hc.user, hc.tenant, hc.revoked.trans ?_⟩
  rw [revoked_snoc]
  refine (or_iff_left ?_).symm
  rintro ⟨hcall, -⟩
  have := hnone _ hcall
  rw [hc.found] at this
  cases this

theorem Reflects.held_call (hr : Reflects secrets h s) (call : AdminCall) :
    ∀ token g, Issued (h ++ [(call, (s.call secrets call).1)]) token g →
      ∃ c, Held secrets (h ++ [(call, (s.call secrets call).1)]) (s.call secrets call).2 token g
        c := by
  rcases credentials_call secrets s call with
    ⟨userId, tenantId, role, scope, explicit, hg, hnot, hhash, hid⟩ |
    ⟨hg, ⟨id, c, rfl, hc, hhash, hid⟩ | ⟨hnone, hhash, hid⟩⟩
  · exact hr.issued hg hnot hhash hid
  · exact hr.revoked hc hg hhash hid
  · exact hr.left hg hnone hhash hid

theorem Reflects.granted_call (hr : Reflects secrets h s) (call : AdminCall) (c : Credential)
    (hc : c ∈ (s.call secrets call).2.byHash ∨ c ∈ (s.call secrets call).2.byId) :
    ∃ token g, Issued (h ++ [(call, (s.call secrets call).1)]) token g ∧
      c.tokenHash = secrets.hashCredential token ∧ c.credentialId = g.credentialId := by
  have hold : ∀ c, c ∈ s.byHash ∨ c ∈ s.byId →
      ∃ token g, Issued (h ++ [(call, (s.call secrets call).1)]) token g ∧
        c.tokenHash = secrets.hashCredential token ∧ c.credentialId = g.credentialId := by
    intro c hc
    obtain ⟨token, g, hi, hrest⟩ := hr.granted c hc
    exact ⟨token, g, issued_snoc.mpr (.inl hi), hrest⟩
  have hput : ∀ new : Credential, c ∈ s.byHash.put new ∨ c ∈ s.byId.put new →
      c = new ∨ c ∈ s.byHash ∨ c ∈ s.byId := by
    intro new hc
    rcases hc with hc | hc
    · exact (Table.mem_put.mp hc).imp id fun hc => .inl hc.1
    · exact (Table.mem_put.mp hc).imp id fun hc => .inr hc.1
  rcases credentials_call secrets s call with
    ⟨userId, tenantId, role, scope, explicit, hg, hnot, hhash, hid⟩ |
    ⟨hg, ⟨id, c₀, rfl, hc₀, hhash, hid⟩ | ⟨hnone, hhash, hid⟩⟩
  · rw [hhash, hid] at hc
    rcases hput _ hc with rfl | hc
    · exact ⟨_, _, issued_snoc.mpr (.inr hg), rfl, rfl⟩
    · exact hold c hc
  · rw [hhash, hid] at hc
    rcases hput _ hc with rfl | hc
    · exact hold c₀ (.inr (Table.get?_eq_some.mp hc₀).1)
    · exact hold c hc
  · rw [hhash, hid] at hc
    exact hold c hc

theorem grantOf_drawn {call : AdminCall} {token : String}
    (hg : grantOf (call, (s.call secrets call).1) = some (token, g)) :
    token = secrets.token s.calls ∧ g.credentialId = secrets.credentialId s.calls := by
  rcases credentials_call secrets s call with ⟨_, _, _, _, _, hg', -⟩ | ⟨hg', -⟩
  · rw [hg, Option.some.injEq, Prod.mk.injEq] at hg'
    obtain ⟨rfl, rfl⟩ := hg'
    exact ⟨rfl, rfl⟩
  · rw [hg] at hg'
    cases hg'

theorem Reflects.step (hr : Reflects secrets h s) (call : AdminCall) :
    Reflects secrets (h ++ [(call, (s.call secrets call).1)])
      { (s.call secrets call).2 with calls := s.calls + 1 } where
  users u := by
    rw [userStatus_snoc, ← hr.users u]
    exact users_call secrets s call u
  tenants t := by
    rw [tenantStatus_snoc, ← hr.tenants t]
    exact tenants_call secrets s call t
  roles t u := by
    rw [lastRole_snoc, ← hr.roles t u]
    exact roles_call secrets s call t u
  calls := by
    rw [hr.calls, List.length_append]
    rfl
  drawn token g hi := by
    rw [List.length_append]
    rcases issued_snoc.mp hi with hi | hi
    · obtain ⟨n, hn, hrest⟩ := hr.drawn token g hi
      exact ⟨n, by simp only [List.length_singleton]; omega, hrest⟩
    · exact ⟨s.calls, by rw [hr.calls]; simp, grantOf_drawn hi⟩
  held token g hi := by
    obtain ⟨c, hc⟩ := hr.held_call call token g hi
    exact ⟨c, hc.hashed, hc.found, hc.user, hc.tenant, hc.revoked⟩
  granted := hr.granted_call call

/-! ## What a token resolves to -/

/-- A token that is still live resolves to its user, its tenant, and the role with its scope. -/
theorem Reflects.resolve_live (hr : Reflects secrets h s) {token : String} {role : Role}
    (hi : Issued h token g) (hl : Live h g role) :
    ∃ user tenant, user.userId = g.userId ∧ tenant.tenantId = g.tenantId ∧
      s.resolve secrets token = some ⟨user, tenant, role, roleScope role⟩ := by
  obtain ⟨c, hc⟩ := hr.held token g hi
  have hactive : c.active = true := by
    have := hc.revoked.not.mpr hl.unrevoked
    simpa [Credential.active] using this
  obtain ⟨user, hu, hus⟩ := Option.map_eq_some_iff.mp ((hr.users g.userId).trans hl.user)
  obtain ⟨tenant, ht, hts⟩ := Option.map_eq_some_iff.mp ((hr.tenants g.tenantId).trans hl.tenant)
  obtain ⟨m, hm, rfl⟩ := Option.map_eq_some_iff.mp
    ((hr.roles g.tenantId g.userId).trans hl.role)
  refine ⟨user, tenant, (Table.get?_eq_some.mp hu).2, (Table.get?_eq_some.mp ht).2, ?_⟩
  simp [CredentialStore.resolve, hc.hashed, hactive, hc.user, hc.tenant, hu, hus, ht, hts, hm]

theorem Reflects.resolve_some (hr : Reflects secrets h s) {token : String} {p : RequestPrincipal}
    (hp : s.resolve secrets token = some p) :
    (∃ g, Issued h token g) ∧ ∀ g, Issued h token g → Live h g p.role := by
  unfold CredentialStore.resolve at hp
  split at hp
  · cases hp
  · next c hc =>
      split at hp
      · cases hp
      · next hactive =>
          split at hp
          · cases hp
          · next user hu =>
              split at hp
              · cases hp
              · next hus =>
                  split at hp
                  · cases hp
                  · next tenant ht =>
                      split at hp
                      · cases hp
                      · next hts =>
                          split at hp
                          · cases hp
                          · next m hm =>
                              cases hp
                              obtain ⟨hmem, hkey⟩ := Table.get?_eq_some.mp hc
                              obtain ⟨token', g, hi, hhash, -⟩ := hr.granted c (.inl hmem)
                              obtain rfl : token = token' :=
                                secrets.hash_injective (hkey.symm.trans hhash)
                              refine ⟨⟨g, hi⟩, fun g hi => ?_⟩
                              obtain ⟨c', hc'⟩ := hr.held token g hi
                              obtain rfl : c = c' := Option.some.inj (hc.symm.trans hc'.hashed)
                              refine ⟨fun hrev => hactive ?_, ?_, ?_, ?_⟩
                              · simp [Credential.active, hc'.revoked.mpr hrev]
                              · rw [← hr.users, ← hc'.user, hu, Option.map_some]
                                cases hs : user.status with
                                | active => rfl
                                | disabled => exact absurd hs hus
                              · rw [← hr.tenants, ← hc'.tenant, ht, Option.map_some]
                                cases hs : tenant.status with
                                | active => rfl
                                | disabled => exact absurd hs hts
                              · rw [← hr.roles, ← hc'.user, ← hc'.tenant, hm, Option.map_some]

/-- The authority law holds of a token unless the scope it was issued with is overridden. -/
theorem Reflects.authorised_iff (hr : Reflects secrets h s) (token : String) :
    Authorised h token (s.resolve secrets token) ↔
      ∀ g role, Issued h token g → Live h g role → roleScope role = .readWrite →
        g.scope ≠ some .readOnly := by
  constructor
  · intro ha g role hi hl hw
    obtain ⟨user, tenant, -, -, hp⟩ := hr.resolve_live hi hl
    exact (ha.scope _ g hp hi hw).2
  · intro hscope
    constructor
    · constructor
      · intro hsome
        obtain ⟨p, hp⟩ := Option.isSome_iff_exists.mp hsome
        obtain ⟨⟨g, hi⟩, hl⟩ := hr.resolve_some hp
        exact ⟨g, p.role, hi, hl g hi⟩
      · rintro ⟨g, role, hi, hl⟩
        obtain ⟨user, tenant, -, -, hp⟩ := hr.resolve_live hi hl
        rw [hp]
        rfl
    · intro p g hp hi
      have hl := (hr.resolve_some hp).2 g hi
      obtain ⟨user, tenant, hu, ht, hp'⟩ := hr.resolve_live hi hl
      have heq := Option.some.inj (hp.symm.trans hp')
      have hpu : p.user = user := congrArg RequestPrincipal.user heq
      have hpt : p.tenant = tenant := congrArg RequestPrincipal.tenant heq
      exact ⟨hpu ▸ hu, hpt ▸ ht, hl.role⟩
    · intro p g hp hi hw
      have hl := (hr.resolve_some hp).2 g hi
      obtain ⟨user, tenant, -, -, hp'⟩ := hr.resolve_live hi hl
      have heq := Option.some.inj (hp.symm.trans hp')
      have hps : p.scope = roleScope p.role := congrArg RequestPrincipal.scope heq
      rw [hps] at hw
      exact ⟨hw, hscope g _ hi hl hw⟩
    · intro g hi hrev
      cases hp : s.resolve secrets token with
      | none => rfl
      | some p => exact absurd hrev ((hr.resolve_some hp).2 g hi).unrevoked

end Reflects

theorem reflects (secrets : Secrets) (calls : List AdminCall) :
    Reflects secrets ((credentialMachine secrets).history calls)
      ((credentialMachine secrets).state calls) := by
  induction calls using List.reverseRecOn with
  | nil => exact Reflects.empty
  | append_singleton calls call ih =>
    rw [Machine.history_snoc, Machine.state_snoc]
    exact ih.step call

/-- **Credential authority.** After any calls, what a token resolves to obeys the authority law
exactly when it was not issued with an explicit read-only scope, or is not live, or its member's
role reads only. -/
theorem credential_authority (secrets : Secrets) (calls : List AdminCall) (token : String) :
    Authorised ((credentialMachine secrets).history calls) token
        (((credentialMachine secrets).state calls).resolve secrets token) ↔
      ∀ g role, Issued ((credentialMachine secrets).history calls) token g →
        Live ((credentialMachine secrets).history calls) g role →
        roleScope role = .readWrite → g.scope ≠ some .readOnly :=
  (reflects secrets calls).authorised_iff token

/-! ## A read-only credential of an operator -/

/-- The operator's read-only credential resolves with write access. -/
theorem read_only_credential_writes :
    ¬ ∀ (secrets : Secrets) (calls : List AdminCall) (token : String),
        Authorised ((credentialMachine secrets).history calls) token
          (((credentialMachine secrets).state calls).resolve secrets token) := by
  intro h
  have ha := h plainSecrets [.issue "alice" "acme" .operator (some .readOnly) none none] "token-0"
  have hwrite := ha.scope
    ⟨⟨"alice", none, .active, by decide +kernel⟩, ⟨"acme", "acme", .active, by decide +kernel⟩,
      .operator, .readWrite⟩
    ⟨"cred_0", "alice", "acme", some .readOnly⟩ (by decide +kernel) (by decide +kernel) rfl
  exact hwrite.2 rfl

end UniversalAgent.Security
