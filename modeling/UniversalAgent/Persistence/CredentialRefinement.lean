import UniversalAgent.Persistence.CredentialTables

/-!
# Persistence — CredentialRefinement

The durable credential store against the in-memory one. `Mirrors` says that the tables hold what
the dictionaries do, and every call that is `Agreeing` keeps it and is answered alike. The calls
that are not: a token that is live, whose row has no column `user_id`; a second revocation; and a
user or a tenant that only one of the stores takes.
-/

namespace UniversalAgent.Persistence

open UniversalAgent.Core UniversalAgent.Foundation UniversalAgent.Security

def SameAnswer (a b : CredentialAnswer) : Prop :=
  a = b ∨ ∃ e e', a = .raised e ∧ b = .raised e'

/-! ## The condition -/

/-- The credential would resolve: it is active, and so are its user and its tenant, of which the
user is a member. -/
structure LiveCredential (s : CredentialStore) (c : Credential) : Prop where
  active : c.revoked = false
  user : (s.users.get? c.userId).any (fun u => u.status = .active) = true
  tenant : (s.tenants.get? c.tenantId).any (fun t => t.status = .active) = true
  member : (s.memberships.get? (c.tenantId, c.userId)).isSome = true

/-- A call that both stores treat alike: of a new user or tenant, PostgreSQL holds the texts just
when the record passes its own check; no credential is revoked twice; and no live token is
resolved. -/
def Agreeing (secrets : Secrets) (s : CredentialStore) : CredentialCall → Prop
  | .createTenant tenantId name =>
    s.tenants.get? tenantId = none →
      (pgText tenantId = true ∧ pgText name = true ↔
        Text.isBlank tenantId = false ∧ Text.isBlank name = false)
  | .createUser userId email displayName =>
    s.users.get? userId = none → s.emails.get? email = none →
      (pgText userId = true ∧ pgText email = true ∧ (∀ d ∈ displayName, pgText d = true) ↔
        Text.isBlank userId = false ∧ ∀ d ∈ displayName, Text.isBlank d = false)
  | .revokeCredential credentialId =>
    pgText credentialId = true ∧ ∀ c ∈ s.byId.get? credentialId, c.revoked = false
  | .resolve rawToken =>
    ∀ c ∈ s.byHash.get? (secrets.hashCredential rawToken), ¬ LiveCredential s c
  | .setRole _ _ _ | .issueCredential _ _ _ | .removeMember _ _ | .setUserStatus _ _
  | .setTenantStatus _ _ => True

/-! ## The tables hold what the dictionaries do -/

def credentialRow (c : Credential) : CredentialRow :=
  ⟨c.credentialId, c.tenantId, c.userId, c.tokenHash, StrEnum.value c.scope, c.revoked⟩

structure Mirrors (secrets : Secrets) (s : CredentialStore) (t : PrincipalTables) : Prop where
  users : ∀ id, (t.users.get? id).map (fun r => (r.displayName, r.status))
    = (s.users.get? id).map fun u => (u.displayName, StrEnum.value u.status)
  emails : ∀ id, (t.users.get? id).map UserRow.email = (s.emailByUser.get? id).map EmailRow.email
  taken : ∀ e, (∃ r ∈ t.users, r.email = e) ↔ (s.emails.get? e).isSome = true
  tenants : ∀ id, (t.tenants.get? id).map (fun r => (r.name, r.status))
    = (s.tenants.get? id).map fun x => (x.name, StrEnum.value x.status)
  memberships : ∀ k, (t.memberships.get? k).map MembershipRow.role
    = (s.memberships.get? k).map fun m => StrEnum.value m.role
  credentials : ∀ r, r ∈ t.credentials ↔ ∃ c ∈ s.byId, r = credentialRow c
  hashes : ∀ c, c ∈ s.byHash ↔ c ∈ s.byId
  drawn : ∀ c ∈ s.byId, ∃ n < s.calls, c.credentialId = secrets.credentialId n ∧
    c.tokenHash = secrets.hashCredential (secrets.token n)
  userTexts : ∀ u ∈ s.users, pgText u.userId = true
  tenantTexts : ∀ x ∈ s.tenants, pgText x.tenantId = true
  calls : t.calls = s.calls

section Mirrors

variable {secrets : Secrets} {s : CredentialStore} {t : PrincipalTables}

theorem Mirrors.empty : Mirrors secrets .empty .empty where
  users _ := rfl
  emails _ := rfl
  taken _ := by simp [PrincipalTables.empty, CredentialStore.empty]
  tenants _ := rfl
  memberships _ := rfl
  credentials _ := by simp [PrincipalTables.empty, CredentialStore.empty]
  hashes _ := by simp [CredentialStore.empty]
  drawn _ h := absurd h (Table.not_mem_empty _)
  userTexts _ h := absurd h (Table.not_mem_empty _)
  tenantTexts _ h := absurd h (Table.not_mem_empty _)
  calls := rfl

theorem Mirrors.user_none (h : Mirrors secrets s t) (id : String) :
    t.users.get? id = none ↔ s.users.get? id = none := by
  have hmap := congrArg Option.isNone (h.users id)
  rw [Option.isNone_map, Option.isNone_map] at hmap
  rw [← Option.isNone_iff_eq_none, hmap, Option.isNone_iff_eq_none]

theorem Mirrors.tenant_none (h : Mirrors secrets s t) (id : String) :
    t.tenants.get? id = none ↔ s.tenants.get? id = none := by
  have hmap := congrArg Option.isNone (h.tenants id)
  rw [Option.isNone_map, Option.isNone_map] at hmap
  rw [← Option.isNone_iff_eq_none, hmap, Option.isNone_iff_eq_none]

/-- The guards of the two stores let the same calls through. -/
theorem Mirrors.guard (h : Mirrors secrets s t) (tenantId userId : String) :
    (s.missingPrincipal? tenantId userId = none ∧
        t.requireMemberPrincipals tenantId userId = .ok ()) ∨
      ∃ e e', s.missingPrincipal? tenantId userId = some e ∧
        t.requireMemberPrincipals tenantId userId = .error e' := by
  unfold CredentialStore.missingPrincipal? PrincipalTables.requireMemberPrincipals
    PrincipalTables.requireTenant
  by_cases ht : s.tenants.get? tenantId = none
  · rw [if_pos ht]
    by_cases hp : pgText tenantId = false
    · rw [if_pos hp]
      exact .inr ⟨_, _, rfl, rfl⟩
    · rw [if_neg hp, if_pos ((h.tenant_none tenantId).mpr ht)]
      exact .inr ⟨_, _, rfl, rfl⟩
  · have hpt : ¬ pgText tenantId = false := by
      obtain ⟨x, hx⟩ := Option.ne_none_iff_exists'.mp ht
      obtain ⟨hmem, hid⟩ := Table.get?_eq_some.mp hx
      have := h.tenantTexts x hmem
      rw [hid] at this
      simp [this]
    rw [if_neg ht, if_neg hpt, if_neg ((h.tenant_none tenantId).not.mpr ht)]
    by_cases hu : s.users.get? userId = none
    · rw [if_pos hu]
      by_cases hp : pgText userId = false
      · simp only [if_pos hp]
        exact .inr ⟨_, _, rfl, rfl⟩
      · simp only [if_neg hp, if_pos ((h.user_none userId).mpr hu)]
        exact .inr ⟨_, _, rfl, rfl⟩
    · have hpu : ¬ pgText userId = false := by
        obtain ⟨x, hx⟩ := Option.ne_none_iff_exists'.mp hu
        obtain ⟨hmem, hid⟩ := Table.get?_eq_some.mp hx
        have := h.userTexts x hmem
        rw [hid] at this
        simp [this]
      rw [if_neg hu]
      simp only [if_neg hpu, if_neg ((h.user_none userId).not.mpr hu)]
      exact .inl ⟨trivial, trivial⟩

theorem Mirrors.tick (h : Mirrors secrets s t) {n m : Nat} (hn : s.calls = n) (hm : m = n) :
    Mirrors secrets { s with calls := n + 1 } { t with calls := m + 1 } :=
  { h with
    drawn := fun c hc => by
      obtain ⟨k, hk, hrest⟩ := h.drawn c hc
      exact ⟨k, Nat.lt_succ_of_lt (hn ▸ hk), hrest⟩
    calls := congrArg (· + 1) hm }

theorem users_put {users : Table UserPrincipal.userId} {rows : Table UserRow.userId}
    (h : ∀ id, (rows.get? id).map (fun r => (r.displayName, r.status))
      = (users.get? id).map fun u => (u.displayName, StrEnum.value u.status))
    {u : UserPrincipal} {r : UserRow} (hid : r.userId = u.userId)
    (hd : r.displayName = u.displayName) (hs : r.status = StrEnum.value u.status) (id : String) :
    ((rows.put r).get? id).map (fun r => (r.displayName, r.status))
      = ((users.put u).get? id).map fun u => (u.displayName, StrEnum.value u.status) := by
  rw [Table.get?_put, Table.get?_put, hid]
  split
  · simp [hd, hs]
  · exact h id

theorem tenants_put {tenants : Table Tenant.tenantId} {rows : Table TenantRow.tenantId}
    (h : ∀ id, (rows.get? id).map (fun r => (r.name, r.status))
      = (tenants.get? id).map fun x => (x.name, StrEnum.value x.status))
    {x : Tenant} {r : TenantRow} (hid : r.tenantId = x.tenantId) (hn : r.name = x.name)
    (hs : r.status = StrEnum.value x.status) (id : String) :
    ((rows.put r).get? id).map (fun r => (r.name, r.status))
      = ((tenants.put x).get? id).map fun x => (x.name, StrEnum.value x.status) := by
  rw [Table.get?_put, Table.get?_put, hid]
  split
  · simp [hn, hs]
  · exact h id

theorem memberships_put {members : Table Membership.key} {rows : Table MembershipRow.key}
    (h : ∀ k, (rows.get? k).map MembershipRow.role
      = (members.get? k).map fun m => StrEnum.value m.role) (tenantId userId : String) (role : Role)
    (k : String × String) :
    ((rows.put ⟨tenantId, userId, StrEnum.value role⟩).get? k).map MembershipRow.role
      = ((members.put ⟨tenantId, userId, role⟩).get? k).map fun m => StrEnum.value m.role := by
  rw [Table.get?_put, Table.get?_put]
  by_cases hk : k = (tenantId, userId)
  · rw [if_pos hk, if_pos hk]
    rfl
  · rw [if_neg hk, if_neg hk]
    exact h k

/-! ## Calls -/

theorem Mirrors.createTenant (h : Mirrors secrets s t) {tenantId name : String}
    (hc : Agreeing secrets s (.createTenant tenantId name)) :
    SameAnswer (s.createTenant tenantId name).1 (t.createTenant tenantId name).1 ∧
      Mirrors secrets (s.createTenant tenantId name).2 (t.createTenant tenantId name).2 := by
  unfold CredentialStore.createTenant PrincipalTables.createTenant
  cases hx : s.tenants.get? tenantId with
  | some x =>
    have ht : t.tenants.get? tenantId ≠ none := (h.tenant_none tenantId).not.mpr (by simp [hx])
    by_cases hp : pgText tenantId = false ∨ pgText name = false
    · rw [if_pos hp]
      exact ⟨.inr ⟨_, _, rfl, rfl⟩, h⟩
    · rw [if_neg hp, if_pos ht]
      exact ⟨.inr ⟨_, _, rfl, rfl⟩, h⟩
  | none =>
    have ht : ¬ t.tenants.get? tenantId ≠ none := not_not.mpr ((h.tenant_none tenantId).mpr hx)
    have hiff := hc hx
    cases hm : Tenant.make tenantId name .active with
    | error message =>
      have hp : pgText tenantId = false ∨ pgText name = false := by
        have hunbound := hiff.not.mpr (Tenant.invalid_of_error hm)
        rw [not_and_or] at hunbound
        simpa using hunbound
      rw [if_pos hp]
      exact ⟨.inr ⟨_, _, rfl, rfl⟩, h⟩
    | ok x =>
      obtain ⟨hid, hname, hst⟩ := Tenant.make_eq_ok.mp hm
      obtain ⟨hpi, hpn⟩ := hiff.mpr (hid ▸ hname ▸ x.postInit)
      have hp : ¬ (pgText tenantId = false ∨ pgText name = false) := by simp [hpi, hpn]
      rw [if_neg hp, if_neg ht]
      refine ⟨.inl rfl, { h with tenants := ?_, tenantTexts := ?_ }⟩
      · exact tenants_put h.tenants hid.symm hname.symm (by rw [hst]; rfl)
      · intro y hy
        rcases Table.mem_put.mp hy with rfl | ⟨hy, -⟩
        · rw [hid]
          exact hpi
        · exact h.tenantTexts y hy

/-- A user id or an email that is taken is refused, and nothing changes. -/
theorem createUser_refused (t : PrincipalTables) (userId email : String)
    (displayName : Option String)
    (h : t.users.get? userId ≠ none ∨ (t.users.rows.any fun r => r.email = email) = true) :
    ∃ e, t.createUser userId email displayName = (.raised e, t) := by
  unfold PrincipalTables.createUser
  by_cases hb : pgText userId = false ∨ pgText email = false ∨
      displayName.any (fun d => !pgText d)
  · rw [if_pos hb]
    exact ⟨_, rfl⟩
  · rw [if_neg hb, if_pos h]
    exact ⟨_, rfl⟩

theorem Mirrors.createUser (h : Mirrors secrets s t) {userId email : String}
    {displayName : Option String} (hc : Agreeing secrets s (.createUser userId email displayName)) :
    SameAnswer (s.createUser userId email displayName).1 (t.createUser userId email displayName).1 ∧
      Mirrors secrets (s.createUser userId email displayName).2
        (t.createUser userId email displayName).2 := by
  have hany : (t.users.rows.any fun r => r.email = email) = true ↔
      (s.emails.get? email).isSome = true := by
    rw [← h.taken email, List.any_eq_true]
    simp [Table.mem_def]
  unfold CredentialStore.createUser
  cases hu : s.users.get? userId with
  | some u =>
    obtain ⟨e, he⟩ := createUser_refused t userId email displayName
      (.inl ((h.user_none userId).not.mpr (by simp [hu])))
    rw [he]
    exact ⟨.inr ⟨_, _, rfl, rfl⟩, h⟩
  | none =>
    cases hm : s.emails.get? email with
    | some r =>
      obtain ⟨e, he⟩ := createUser_refused t userId email displayName
        (.inr (hany.mpr (by simp [hm])))
      rw [he]
      exact ⟨.inr ⟨_, _, rfl, rfl⟩, h⟩
    | none =>
      have hfree : ¬ (t.users.get? userId ≠ none ∨
          (t.users.rows.any fun r => r.email = email) = true) := by
        rw [hany, hm, (h.user_none userId).mpr hu]
        simp
      have hiff := hc hu hm
      unfold PrincipalTables.createUser
      cases hp : UserPrincipal.make userId displayName .active with
      | error message =>
        have hunbound : pgText userId = false ∨ pgText email = false ∨
            displayName.any (fun d => !pgText d) = true := by
          have := hiff.not.mpr (UserPrincipal.invalid_of_error hp)
          rw [not_and_or, not_and_or] at this
          cases displayName <;> simpa using this
        rw [if_pos hunbound]
        exact ⟨.inr ⟨_, _, rfl, rfl⟩, h⟩
      | ok u =>
        obtain ⟨hid, hd, hst⟩ := UserPrincipal.make_eq_ok.mp hp
        obtain ⟨hpi, hpe, hpd⟩ := hiff.mpr (hid ▸ hd ▸ u.postInit)
        have hbound : ¬ (pgText userId = false ∨ pgText email = false ∨
            displayName.any (fun d => !pgText d) = true) := by
          cases displayName <;> simp_all
        rw [if_neg hbound, if_neg hfree]
        refine ⟨.inl rfl, { h with users := ?_, emails := ?_, taken := ?_, userTexts := ?_ }⟩
        · exact users_put h.users hid.symm hd.symm (by rw [hst]; rfl)
        · intro id
          rw [Table.get?_put, Table.get?_put]
          split
          · rfl
          · exact h.emails id
        · intro e
          rw [Table.get?_put]
          constructor
          · rintro ⟨r, hr, rfl⟩
            rcases Table.mem_put.mp hr with rfl | ⟨hr, -⟩
            · simp
            · split
              · rfl
              · exact (h.taken r.email).mp ⟨r, hr, rfl⟩
          · intro hsome
            split at hsome
            · next heq => exact ⟨_, Table.mem_put_self _ _, heq.symm⟩
            · obtain ⟨r, hr, hre⟩ := (h.taken e).mpr hsome
              refine ⟨r, Table.mem_put.mpr (.inr ⟨hr, fun hk => ?_⟩), hre⟩
              have := Table.get?_eq_none.mp ((h.user_none userId).mpr hu) r hr
              exact this hk
        · intro y hy
          rcases Table.mem_put.mp hy with rfl | ⟨hy, -⟩
          · rw [hid]
            exact hpi
          · exact h.userTexts y hy

theorem Mirrors.setRole (h : Mirrors secrets s t) (tenantId userId : String) (role : Role) :
    SameAnswer (s.setRole tenantId userId role).1 (t.setRole tenantId userId role).1 ∧
      Mirrors secrets (s.setRole tenantId userId role).2 (t.setRole tenantId userId role).2 := by
  unfold CredentialStore.setRole PrincipalTables.setRole
  rcases h.guard tenantId userId with ⟨hs, ht⟩ | ⟨e, e', hs, ht⟩
  · rw [hs, ht]
    exact ⟨.inl rfl, { h with memberships := memberships_put h.memberships tenantId userId role }⟩
  · rw [hs, ht]
    exact ⟨.inr ⟨_, _, rfl, rfl⟩, h⟩

theorem Mirrors.removeMember (h : Mirrors secrets s t) (tenantId userId : String) :
    SameAnswer (s.removeMember tenantId userId).1 (t.removeMember tenantId userId).1 ∧
      Mirrors secrets (s.removeMember tenantId userId).2 (t.removeMember tenantId userId).2 := by
  unfold CredentialStore.removeMember PrincipalTables.removeMember
  rcases h.guard tenantId userId with ⟨hs, ht⟩ | ⟨e, e', hs, ht⟩
  · rw [hs, ht]
    have hmember := congrArg Option.isSome (h.memberships (tenantId, userId))
    rw [Option.isSome_map, Option.isSome_map] at hmember
    refine ⟨.inl (by rw [hmember]), { h with memberships := fun k => ?_ }⟩
    by_cases hk : k = (tenantId, userId)
    · subst hk
      simp
    · rw [Table.get?_erase_ne _ hk, Table.get?_erase_ne _ hk]
      exact h.memberships k
  · rw [hs, ht]
    exact ⟨.inr ⟨_, _, rfl, rfl⟩, h⟩

theorem Mirrors.fresh (h : Mirrors secrets s t) {c : Credential} (hc : c ∈ s.byId) :
    c.credentialId ≠ secrets.credentialId s.calls ∧
      c.tokenHash ≠ secrets.hashCredential (secrets.token s.calls) := by
  obtain ⟨n, hn, hid, hhash⟩ := h.drawn c hc
  constructor
  · intro heq
    exact hn.ne (secrets.credentialId_injective (hid.symm.trans heq))
  · intro heq
    exact hn.ne (secrets.token_injective (secrets.hash_injective (hhash.symm.trans heq)))

theorem Mirrors.unused (h : Mirrors secrets s t) :
    ¬ (t.credentials.get? (secrets.credentialId t.calls) ≠ none ∨
      (t.credentials.rows.any fun c =>
        c.tokenHash = secrets.hashCredential (secrets.token t.calls)) = true) := by
  rw [h.calls]
  rintro (hid | hhash)
  · obtain ⟨r, hr⟩ := Option.ne_none_iff_exists'.mp hid
    obtain ⟨hmem, hkey⟩ := Table.get?_eq_some.mp hr
    obtain ⟨c, hc, rfl⟩ := (h.credentials r).mp hmem
    exact (h.fresh hc).1 hkey
  · obtain ⟨r, hmem, hkey⟩ := List.any_eq_true.mp hhash
    obtain ⟨c, hc, rfl⟩ := (h.credentials r).mp hmem
    exact (h.fresh hc).2 (of_decide_eq_true hkey)

theorem Mirrors.issueCredential (h : Mirrors secrets s t) (userId tenantId : String)
    (role : Role) :
    SameAnswer (s.issueCredential secrets userId tenantId role).1
        (t.issueCredential secrets userId tenantId role).1 ∧
      Mirrors secrets
        { (s.issueCredential secrets userId tenantId role).2 with calls := s.calls + 1 }
        { (t.issueCredential secrets userId tenantId role).2 with calls := t.calls + 1 } := by
  unfold CredentialStore.issueCredential PrincipalTables.issueCredential
  rcases h.guard tenantId userId with ⟨hs, ht⟩ | ⟨e, e', hs, ht⟩
  · obtain ⟨⟨x, hx⟩, u, hu⟩ := missingPrincipal?_eq_none hs
    rw [hs, ht]
    simp only [if_neg h.unused, CredentialStore.issue, CredentialStore.ensureUser,
      CredentialStore.ensureTenant, hu, hx, CredentialStore.newCredential, Option.getD_none,
      PrincipalTables.upsertRole]
    refine ⟨.inl (by rw [h.calls]), { h.tick rfl h.calls with
      memberships := memberships_put h.memberships tenantId userId role
      credentials := fun r => ?_
      hashes := fun c => ?_
      drawn := fun c hc => ?_ }⟩
    · rw [Table.mem_put, h.credentials]
      constructor
      · rintro (rfl | ⟨⟨c, hc, rfl⟩, -⟩)
        · exact ⟨_, Table.mem_put_self _ _, by simp [credentialRow, h.calls]⟩
        · exact ⟨c, Table.mem_put.mpr (.inr ⟨hc, (h.fresh hc).1⟩), rfl⟩
      · rintro ⟨c, hc, rfl⟩
        rcases Table.mem_put.mp hc with rfl | ⟨hc, hne⟩
        · exact .inl (by simp [credentialRow, h.calls])
        · refine .inr ⟨⟨c, hc, rfl⟩, ?_⟩
          simpa [credentialRow, h.calls] using hne
    · rw [Table.mem_put, Table.mem_put, h.hashes c]
      refine or_congr Iff.rfl ⟨fun hc => ⟨hc.1, (h.fresh hc.1).1⟩, fun hc => ⟨hc.1, ?_⟩⟩
      exact (h.fresh hc.1).2
    · rcases Table.mem_put.mp hc with rfl | ⟨hc, -⟩
      · exact ⟨s.calls, Nat.lt_succ_self _, rfl, rfl⟩
      · obtain ⟨n, hn, hrest⟩ := h.drawn c hc
        exact ⟨n, Nat.lt_succ_of_lt hn, hrest⟩
  · rw [hs, ht]
    exact ⟨.inr ⟨_, _, rfl, rfl⟩, h.tick rfl h.calls⟩

theorem Mirrors.revokeCredential (h : Mirrors secrets s t) {credentialId : String}
    (hc : Agreeing secrets s (.revokeCredential credentialId)) :
    SameAnswer (s.revoke credentialId).1 (t.revokeCredential credentialId).1 ∧
      Mirrors secrets (s.revoke credentialId).2 (t.revokeCredential credentialId).2 := by
  obtain ⟨hp, hactive⟩ := hc
  unfold CredentialStore.revoke PrincipalTables.revokeCredential
  rw [if_neg (by simp [hp])]
  cases hx : s.byId.get? credentialId with
  | none =>
    have ht : t.credentials.get? credentialId = none := by
      rw [Table.get?_eq_none] at hx ⊢
      intro r hr
      obtain ⟨c, hc, rfl⟩ := (h.credentials r).mp hr
      exact hx c hc
    rw [ht]
    exact ⟨.inl rfl, h⟩
  | some c =>
    obtain ⟨hmem, hid⟩ := Table.get?_eq_some.mp hx
    have hrevoked : c.revoked = false := hactive c hx
    have ht : t.credentials.get? credentialId = some (credentialRow c) :=
      Table.get?_eq_some.mpr ⟨(h.credentials _).mpr ⟨c, hmem, rfl⟩, hid⟩
    rw [ht]
    simp only [credentialRow, hrevoked, Bool.false_eq_true, if_false]
    refine ⟨.inl rfl, { h with
      credentials := fun r => ?_
      hashes := fun d => ?_
      drawn := fun d hd => ?_ }⟩
    · rw [Table.mem_put, h.credentials]
      constructor
      · rintro (rfl | ⟨⟨d, hd, rfl⟩, hne⟩)
        · exact ⟨_, Table.mem_put_self _ _, rfl⟩
        · exact ⟨d, Table.mem_put.mpr (.inr ⟨hd, hne⟩), rfl⟩
      · rintro ⟨d, hd, rfl⟩
        rcases Table.mem_put.mp hd with rfl | ⟨hd, hne⟩
        · exact .inl rfl
        · exact .inr ⟨⟨d, hd, rfl⟩, hne⟩
    · -- a credential is found under its id just when it is found under its hash
      rw [Table.mem_put, Table.mem_put, h.hashes d]
      refine or_congr Iff.rfl (and_congr_right fun hd => not_congr ?_)
      constructor
      · intro hkey
        have heq : d = c := Table.eq_of_key ((h.hashes d).mpr hd) ((h.hashes c).mpr hmem) hkey
        rw [heq]
      · intro hkey
        have heq : d = c := Table.eq_of_key hd hmem hkey
        rw [heq]
    · rcases Table.mem_put.mp hd with rfl | ⟨hd, -⟩
      · exact h.drawn c hmem
      · exact h.drawn d hd

theorem Mirrors.setUserStatus (h : Mirrors secrets s t) (userId : String)
    (status : UserAccountStatus) :
    SameAnswer (s.setUserStatus userId status).1 (t.setUserStatus userId status).1 ∧
      Mirrors secrets (s.setUserStatus userId status).2 (t.setUserStatus userId status).2 := by
  unfold CredentialStore.setUserStatus PrincipalTables.setUserStatus
  cases hu : s.users.get? userId with
  | none =>
    have ht := (h.user_none userId).mpr hu
    by_cases hp : pgText userId = false
    · rw [if_pos hp]
      exact ⟨.inr ⟨_, _, rfl, rfl⟩, h⟩
    · rw [if_neg hp, ht]
      exact ⟨.inr ⟨_, _, rfl, rfl⟩, h⟩
  | some u =>
    obtain ⟨hmem, hid⟩ := Table.get?_eq_some.mp hu
    have hp : ¬ pgText userId = false := by
      have := h.userTexts u hmem
      rw [hid] at this
      simp [this]
    obtain ⟨r, ht⟩ := Option.ne_none_iff_exists'.mp
      ((h.user_none userId).not.mpr (by simp [hu]))
    obtain ⟨hrow, hrid⟩ := Table.get?_eq_some.mp ht
    have hview := h.users userId
    have hemail := h.emails userId
    rw [ht, hu] at hview
    rw [ht] at hemail
    simp only [Option.map_some, Option.some.injEq, Prod.mk.injEq] at hview hemail
    rw [if_neg hp, ht]
    refine ⟨.inl (by simp [← hemail, hview.1]), { h with
      users := users_put h.users (by simp [hid, hrid]) hview.1 rfl
      emails := fun id => ?_
      taken := fun e => ?_
      userTexts := fun y hy => ?_ }⟩
    · rw [Table.get?_put]
      split
      · next heq =>
          have : id = userId := heq.trans hrid
          rw [this, ← hemail]
          rfl
      · exact h.emails id
    · rw [← h.taken e]
      constructor
      · rintro ⟨y, hy, rfl⟩
        rcases Table.mem_put.mp hy with rfl | ⟨hy, -⟩
        · exact ⟨r, hrow, rfl⟩
        · exact ⟨y, hy, rfl⟩
      · rintro ⟨y, hy, rfl⟩
        by_cases hk : y.userId = r.userId
        · have heq := Table.eq_of_key hy hrow hk
          exact ⟨_, Table.mem_put_self _ _, by rw [heq]⟩
        · exact ⟨y, Table.mem_put.mpr (.inr ⟨hy, hk⟩), rfl⟩
    · rcases Table.mem_put.mp hy with rfl | ⟨hy, -⟩
      · exact h.userTexts u hmem
      · exact h.userTexts y hy

theorem Mirrors.setTenantStatus (h : Mirrors secrets s t) (tenantId : String)
    (status : TenantStatus) :
    SameAnswer (s.setTenantStatus tenantId status).1 (t.setTenantStatus tenantId status).1 ∧
      Mirrors secrets (s.setTenantStatus tenantId status).2
        (t.setTenantStatus tenantId status).2 := by
  unfold CredentialStore.setTenantStatus PrincipalTables.setTenantStatus
  cases hx : s.tenants.get? tenantId with
  | none =>
    have ht := (h.tenant_none tenantId).mpr hx
    by_cases hp : pgText tenantId = false
    · rw [if_pos hp]
      exact ⟨.inr ⟨_, _, rfl, rfl⟩, h⟩
    · rw [if_neg hp, ht]
      exact ⟨.inr ⟨_, _, rfl, rfl⟩, h⟩
  | some x =>
    obtain ⟨hmem, hid⟩ := Table.get?_eq_some.mp hx
    have hp : ¬ pgText tenantId = false := by
      have := h.tenantTexts x hmem
      rw [hid] at this
      simp [this]
    obtain ⟨r, ht⟩ := Option.ne_none_iff_exists'.mp
      ((h.tenant_none tenantId).not.mpr (by simp [hx]))
    have hrid := (Table.get?_eq_some.mp ht).2
    have hview := h.tenants tenantId
    rw [ht, hx] at hview
    simp only [Option.map_some, Option.some.injEq, Prod.mk.injEq] at hview
    have hmake : Tenant.make tenantId r.name status = .ok { x with status := status } :=
      Tenant.make_eq_ok.mpr ⟨hid, hview.1.symm, rfl⟩
    rw [if_neg hp, ht]
    simp only [hmake]
    refine ⟨.inl rfl, { h with
      tenants := tenants_put h.tenants (by simp [hid, hrid]) hview.1 rfl
      tenantTexts := fun y hy => ?_ }⟩
    rcases Table.mem_put.mp hy with rfl | ⟨hy, -⟩
    · exact h.tenantTexts x hmem
    · exact h.tenantTexts y hy

/-! ## Resolution -/

theorem Mirrors.find_hash (h : Mirrors secrets s t) (tokenHash : String) :
    t.credentials.rows.find? (fun r => r.tokenHash = tokenHash)
      = (s.byHash.get? tokenHash).map credentialRow := by
  cases hx : s.byHash.get? tokenHash with
  | none =>
    rw [Option.map_none, List.find?_eq_none]
    intro r hr
    obtain ⟨c, hc, rfl⟩ := (h.credentials r).mp hr
    have hne := Table.get?_eq_none.mp hx c ((h.hashes c).mpr hc)
    exact fun heq => hne (of_decide_eq_true heq)
  | some c =>
    obtain ⟨hmem, hhash⟩ := Table.get?_eq_some.mp hx
    have hrow := (h.credentials _).mpr ⟨c, (h.hashes c).mp hmem, rfl⟩
    cases hf : t.credentials.rows.find? (fun r => r.tokenHash = tokenHash) with
    | none =>
      have := List.find?_eq_none.mp hf _ hrow
      simp [credentialRow, hhash] at this
    | some r =>
      obtain ⟨d, hd, rfl⟩ := (h.credentials r).mp (List.mem_of_find?_eq_some hf)
      have hkey : d.tokenHash = tokenHash := by
        have := List.find?_some hf
        exact of_decide_eq_true this
      have heq : d = c :=
        Table.eq_of_key ((h.hashes d).mpr hd) hmem (hkey.trans hhash.symm)
      rw [heq]
      rfl

/-- An active account of the tables is one of the dictionaries. -/
theorem Mirrors.active_user (h : Mirrors secrets s t) {id : String} {r : UserRow}
    (hr : t.users.get? id = some r) (hs : r.status = activeStatus) :
    (s.users.get? id).any (fun u => u.status = .active) = true := by
  have hview := h.users id
  rw [hr, Option.map_some] at hview
  obtain ⟨u, hu, heq⟩ := Option.map_eq_some_iff.mp hview.symm
  have hst : StrEnum.value u.status = StrEnum.value UserAccountStatus.active :=
    ((Prod.mk.injEq _ _ _ _).mp heq).2.trans hs
  rw [hu]
  exact decide_eq_true (StrEnum.value_injective hst)

theorem Mirrors.active_tenant (h : Mirrors secrets s t) {id : String} {r : TenantRow}
    (hr : t.tenants.get? id = some r) (hs : r.status = activeStatus) :
    (s.tenants.get? id).any (fun x => x.status = .active) = true := by
  have hview := h.tenants id
  rw [hr, Option.map_some] at hview
  obtain ⟨x, hx, heq⟩ := Option.map_eq_some_iff.mp hview.symm
  have hst : StrEnum.value x.status = StrEnum.value TenantStatus.active :=
    ((Prod.mk.injEq _ _ _ _).mp heq).2.trans hs
  rw [hx]
  exact decide_eq_true (StrEnum.value_injective hst)

theorem resolve_live {rawToken : String} {p : RequestPrincipal}
    (hp : s.resolve secrets rawToken = some p) :
    ∃ c ∈ s.byHash.get? (secrets.hashCredential rawToken), LiveCredential s c := by
  unfold CredentialStore.resolve at hp
  split at hp
  · cases hp
  · next c hc =>
      refine ⟨c, hc, ?_⟩
      split at hp
      · cases hp
      · next hactive =>
          split at hp
          · cases hp
          · next u hu =>
              split at hp
              · cases hp
              · next hus =>
                  split at hp
                  · cases hp
                  · next x hx =>
                      split at hp
                      · cases hp
                      · next hxs =>
                          split at hp
                          · cases hp
                          · next m hm =>
                              refine ⟨by simpa [Credential.active] using hactive, ?_, ?_, ?_⟩
                              · cases hus' : u.status <;> simp_all
                              · cases hxs' : x.status <;> simp_all
                              · rw [hm]
                                rfl

/-- A row that the join finds is of a live credential, or its status columns say that it is not. -/
theorem Mirrors.resolve_tables (h : Mirrors secrets s t) {rawToken : String}
    (hc : Agreeing secrets s (.resolve rawToken)) : t.resolve secrets rawToken = .ok none := by
  unfold PrincipalTables.resolve PrincipalTables.credentialJoin
  rw [h.find_hash]
  cases hx : s.byHash.get? (secrets.hashCredential rawToken) with
  | none => rfl
  | some c =>
    have hlive : ¬ LiveCredential s c := hc c hx
    simp only [Option.map_some, Option.bind_eq_bind, Option.bind_some, credentialRow]
    cases hm : t.memberships.get? (c.tenantId, c.userId) with
    | none => rfl
    | some m =>
      cases hu : t.users.get? c.userId with
      | none => rfl
      | some u =>
        cases ht : t.tenants.get? c.tenantId with
        | none => rfl
        | some x =>
          cases hr : c.revoked with
          | true => rfl
          | false =>
            by_cases hs : some u.status ≠ some activeStatus ∨
                some x.status ≠ some activeStatus
            · exact if_pos hs
            · rw [not_or, not_not, not_not, Option.some.injEq, Option.some.injEq] at hs
              refine absurd ⟨hr, h.active_user hu hs.1, h.active_tenant ht hs.2, ?_⟩ hlive
              have hmember := congrArg Option.isSome (h.memberships (c.tenantId, c.userId))
              rw [Option.isSome_map, Option.isSome_map, hm] at hmember
              exact hmember.symm

theorem resolve_not_live {rawToken : String}
    (hc : Agreeing secrets s (.resolve rawToken)) : s.resolve secrets rawToken = none := by
  cases hp : s.resolve secrets rawToken with
  | none => rfl
  | some p =>
    obtain ⟨c, hc', hlive⟩ := resolve_live hp
    exact absurd hlive (hc c hc')

/-! ## Runs -/

theorem call_calls (secrets : Secrets) (s : CredentialStore) (call : CredentialCall) :
    (s.call secrets (.store call)).2.calls = s.calls := by
  cases call with
  | createTenant tenantId name =>
    simp only [CredentialStore.call, CredentialStore.createTenant]
    split
    · rfl
    · split <;> rfl
  | createUser userId email displayName =>
    simp only [CredentialStore.call, CredentialStore.createUser]
    split
    · rfl
    · split
      · rfl
      · split <;> rfl
  | setRole tenantId userId role =>
    simp only [CredentialStore.call, CredentialStore.setRole]
    split <;> rfl
  | issueCredential userId tenantId role =>
    simp only [CredentialStore.call, CredentialStore.issueCredential]
    split
    · rfl
    · next hm =>
        obtain ⟨⟨x, hx⟩, u, hu⟩ := missingPrincipal?_eq_none hm
        simp only [CredentialStore.issue, CredentialStore.ensureUser,
          CredentialStore.ensureTenant, hu, hx]
  | revokeCredential credentialId =>
    simp only [CredentialStore.call, CredentialStore.revoke]
    split <;> rfl
  | removeMember tenantId userId =>
    simp only [CredentialStore.call, CredentialStore.removeMember]
    split <;> rfl
  | setUserStatus userId status =>
    simp only [CredentialStore.call, CredentialStore.setUserStatus]
    split <;> rfl
  | setTenantStatus tenantId status =>
    simp only [CredentialStore.call, CredentialStore.setTenantStatus]
    split <;> rfl
  | resolve rawToken => rfl

/-- A call that is agreeing is answered alike, and the tables go on holding what the dictionaries
do. -/
theorem Mirrors.step (h : Mirrors secrets s t) {call : CredentialCall}
    (hc : Agreeing secrets s call) :
    SameAnswer ((memoryCredentials secrets).step s call).1
        ((postgresCredentials secrets).step t call).1 ∧
      Mirrors secrets ((memoryCredentials secrets).step s call).2
        ((postgresCredentials secrets).step t call).2 := by
  have hn := call_calls secrets s call
  cases call with
  | createTenant tenantId name => exact (h.createTenant hc).imp_right (·.tick hn h.calls)
  | createUser userId email displayName =>
    exact (h.createUser hc).imp_right (·.tick hn h.calls)
  | setRole tenantId userId role =>
    exact (h.setRole tenantId userId role).imp_right (·.tick hn h.calls)
  | issueCredential userId tenantId role => exact h.issueCredential userId tenantId role
  | revokeCredential credentialId =>
    exact (h.revokeCredential hc).imp_right (·.tick hn h.calls)
  | removeMember tenantId userId =>
    exact (h.removeMember tenantId userId).imp_right (·.tick hn h.calls)
  | setUserStatus userId status =>
    exact (h.setUserStatus userId status).imp_right (·.tick hn h.calls)
  | setTenantStatus tenantId status =>
    exact (h.setTenantStatus tenantId status).imp_right (·.tick hn h.calls)
  | resolve rawToken =>
    have hmemory := resolve_not_live hc
    have htables := h.resolve_tables hc
    simp only [memoryCredentials, credentialMachine, CredentialStore.call, postgresCredentials,
      PrincipalTables.call, hmemory, htables]
    exact ⟨.inl rfl, h.tick rfl h.calls⟩

end Mirrors

/-- **Refinement.** Over any calls that are each agreeing, the two stores raise at the same calls
and otherwise answer the same. -/
theorem credential_stores_agree (secrets : Secrets) {calls : List CredentialCall}
    (h : (memoryCredentials secrets).Meets (fun _ s call => Agreeing secrets s call) calls) :
    List.Forall₂ SameAnswer ((memoryCredentials secrets).answers calls)
      ((postgresCredentials secrets).answers calls) :=
  ((memoryCredentials secrets).lockstep (postgresCredentials secrets)
    (fun _ s t => Mirrors secrets s t) SameAnswer .empty (fun _ _ _ _ hr hc => hr.step hc) h).1

/-! ## Runs of fixed calls -/

instance (s : CredentialStore) (c : Credential) : Decidable (LiveCredential s c) :=
  decidable_of_iff
    (c.revoked = false ∧ (s.users.get? c.userId).any (fun u => u.status = .active) = true ∧
      (s.tenants.get? c.tenantId).any (fun t => t.status = .active) = true ∧
      (s.memberships.get? (c.tenantId, c.userId)).isSome = true)
    ⟨fun h => ⟨h.1, h.2.1, h.2.2.1, h.2.2.2⟩, fun h => ⟨h.active, h.user, h.tenant, h.member⟩⟩

instance (secrets : Secrets) (s : CredentialStore) (call : CredentialCall) :
    Decidable (Agreeing secrets s call) := by
  cases call <;> unfold Agreeing <;> infer_instance

/-- Accounts, a role, a credential that is issued and revoked, and refusals. -/
def provisioning : List CredentialCall :=
  [.createTenant "acme" "Acme", .createUser "ada" "ada@acme" none,
    .createUser "bob" "ada@acme" none, .setRole "acme" "bob" .admin,
    .issueCredential "ada" "acme" .operator, .setUserStatus "ada" .disabled, .resolve "token-4",
    .revokeCredential "cred_4", .setUserStatus "ada" .active, .resolve "token-4",
    .removeMember "acme" "ada", .removeMember "acme" "ada"]

theorem credential_stores_agree_provisioning :
    List.Forall₂ SameAnswer ((memoryCredentials plainSecrets).answers provisioning)
      ((postgresCredentials plainSecrets).answers provisioning) :=
  credential_stores_agree plainSecrets (by decide +kernel)

/-- A tenant, a user and a credential, whose token is then resolved. -/
def firstResolution : List CredentialCall :=
  [.createTenant "acme" "Acme", .createUser "ada" "ada@acme" none,
    .issueCredential "ada" "acme" .operator, .resolve "token-2"]

def CredentialAnswer.isRaised : CredentialAnswer → Bool
  | .raised _ => true
  | _ => false

theorem SameAnswer.isRaised {a b : CredentialAnswer} (h : SameAnswer a b) :
    CredentialAnswer.isRaised a = CredentialAnswer.isRaised b := by
  rcases h with rfl | ⟨e, e', rfl, rfl⟩ <;> rfl

/-- The in-memory store names the principal; the durable one has no column `user_id`. -/
theorem live_token_raises :
    ((postgresCredentials plainSecrets).answers firstResolution).getLast?
        = some (.raised (.keyError "user_id")) ∧
      ¬ ∀ (secrets : Secrets) (calls : List CredentialCall),
        List.Forall₂ SameAnswer ((memoryCredentials secrets).answers calls)
          ((postgresCredentials secrets).answers calls) := by
  constructor
  · decide +kernel
  · intro h
    have hraised : List.map CredentialAnswer.isRaised
          ((memoryCredentials plainSecrets).answers firstResolution)
        = List.map CredentialAnswer.isRaised
          ((postgresCredentials plainSecrets).answers firstResolution) := by
      rw [← List.forall₂_eq_eq_eq, List.forall₂_map_left_iff, List.forall₂_map_right_iff]
      exact (h plainSecrets firstResolution).imp fun _ _ => SameAnswer.isRaised
    revert hraised
    decide +kernel

end UniversalAgent.Persistence
