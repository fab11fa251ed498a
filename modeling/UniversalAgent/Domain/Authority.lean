import UniversalAgent.Domain.Composition
import UniversalAgent.Foundation.Except
import UniversalAgent.Runtime.InitialState

/-!
# Domain — Authority

What a domain may do in a composition that it may not do alone. Capabilities are resolved to the same
tools; the policies and the recovery rules of all domains are one pool.
-/

namespace UniversalAgent.Domain

open UniversalAgent.Core UniversalAgent.Foundation UniversalAgent.Policies UniversalAgent.Recovery
open UniversalAgent.Tools
open UniversalAgent.Domains (CapabilityDefinition PolicyResult)
open UniversalAgent.Runtime (initialAgentState)

variable {tool : ToolDefinition} {composition : DomainComposition} {extra : List Policy}

/-! ## Registries of a composition -/

section Register

theorem register_tool {registry registry' : ToolRegistry}
    {identity : Option DomainIdentity} (h : registry.register tool identity = .ok registry') :
    registry'.rows = registry.rows ++ [⟨tool, identity⟩] := by
  unfold ToolRegistry.register at h
  split at h
  · cases h
  · split at h
    · cases h
    · split at h
      · cases h
      · next hfresh =>
          obtain rfl := Except.ok.inj h
          exact Table.rows_put_of_fresh (Option.not_isSome_iff_eq_none.mp hfresh)

theorem register_capability {registry registry' : CapabilityRegistry}
    {capability : CapabilityDefinition} {identity : Option DomainIdentity}
    (h : registry.register capability identity = .ok registry') :
    registry'.rows = registry.rows ++ [⟨capability, identity⟩] := by
  unfold CapabilityRegistry.register at h
  split at h
  · cases h
  · split at h
    · cases h
    · next hfresh =>
        obtain rfl := Except.ok.inj h
        exact Table.rows_put_of_fresh (Option.not_isSome_iff_eq_none.mp hfresh)

/-- What is registered is in the registry, in its order. -/
theorem registerAll_rows {α β ρ : Type} {register : ρ → α → Option DomainIdentity → Except RegistryError ρ}
    {rows : ρ → List β} {row : α → Option DomainIdentity → β}
    (hregister : ∀ {registry registry' a identity}, register registry a identity = .ok registry' →
      rows registry' = rows registry ++ [row a identity])
    {items : List (α × DomainIdentity)} {registry registry' : ρ}
    (h : registerAll register items registry = .ok registry') :
    rows registry' = rows registry ++ items.map fun item => row item.1 (some item.2) := by
  induction items generalizing registry with
  | nil =>
    obtain rfl := Except.ok.inj h
    exact (List.append_nil _).symm
  | cons item items ih =>
    rw [registerAll, List.foldlM_cons] at h
    obtain ⟨middle, hmiddle, hrest⟩ := Except.bind_eq_ok.mp h
    rw [ih hrest, hregister hmiddle, List.append_assoc]
    rfl

end Register

def registeredTools (domains : List ActiveDomain) : List ToolRegistration :=
  domains.flatMap fun d => d.tools.map fun t => ⟨t, some d.identity⟩

def registeredCapabilities (domains : List ActiveDomain) : List CapabilityRegistration :=
  domains.flatMap fun d => d.capabilities.map fun c => ⟨c, some d.identity⟩

variable {components : RuntimeComponents}

theorem build_ok
    (h : build composition extra = .ok components) :
    components.resolver.capabilities.rows = registeredCapabilities composition.domains ∧
    components.resolver.tools.rows = registeredTools composition.domains ∧
    components.policies = composition.policies ++ extra ∧
    components.recoveryManager = .of composition.recoveryRules := by
  obtain ⟨capabilities, hcapabilities, h⟩ := Except.bind_eq_ok.mp h
  obtain ⟨tools, htools, h⟩ := Except.bind_eq_ok.mp h
  obtain rfl := Except.ok.inj h
  refine ⟨?_, ?_, rfl, rfl⟩
  · have hrows := @registerAll_rows _ _ _ _ Table.rows
      (fun c identity => (⟨c, identity⟩ : CapabilityRegistration)) register_capability _ _ _ hcapabilities
    simpa [RuntimeComponents.resolver, registeredCapabilities, List.map_flatMap, Function.comp_def]
      using hrows
  · have hrows := @registerAll_rows _ _ _ _ Table.rows
      (fun t identity => (⟨t, identity⟩ : ToolRegistration)) register_tool _ _ _ htools
    simpa [RuntimeComponents.resolver, registeredTools, List.map_flatMap, Function.comp_def] using hrows

/-! ## Resolution -/

theorem checkCapabilities_ok {label name : String} {used known : List String}
    (h : checkCapabilities label name used known = .ok ()) : ∀ c ∈ used, c ∈ known := by
  by_cases hnone : used.filter (· ∉ known) = []
  · intro c hc
    simpa using List.filter_eq_nil_iff.mp hnone c hc
  · rw [checkCapabilities, if_neg hnone] at h
    cases h

/-- The loader lets a tool implement capabilities of its domain only. -/
theorem capabilities_of_tool (d : ActiveDomain) (htool : tool ∈ d.tools) :
    ∀ c ∈ tool.capabilities, c ∈ capabilityNames d := by
  have htools : d.tools.forM (fun tool =>
      checkCapabilities "tool" tool.name tool.capabilities (capabilityNames d)) = .ok () := by
    have h := d.loaded
    unfold validate at h
    iterate 7 refine Except.of_bind_eq_ok h fun _ h => ?_
    obtain ⟨_, hok, -⟩ := Except.bind_eq_ok.mp h
    exact hok
  exact checkCapabilities_ok (Except.forM_eq_ok.mp htools tool htool)

/-- A registered capability is found under its name. -/
theorem get?_capability
    (h : build composition extra = .ok components)
    {d : ActiveDomain} (hd : d ∈ composition.domains) {c : CapabilityDefinition}
    (hc : c ∈ d.capabilities) :
    components.resolver.capabilities.get? c.name = some ⟨c, some d.identity⟩ := by
  refine Table.get?_eq_some.mpr ⟨?_, rfl⟩
  rw [Table.mem_def, (build_ok h).1]
  exact List.mem_flatMap.mpr ⟨d, hd, List.mem_map.mpr ⟨c, hc, rfl⟩⟩

section Pair

variable {a b : ActiveDomain} {single composition : DomainComposition} {extra : List Policy}
  {alone composed : RuntimeComponents}

/-- The names of the capabilities are apart, or they could not have been registered. -/
theorem names_apart (hcomposed : build composition extra = .ok composed)
    (hpair : composition.domains = [a, b] ∨ composition.domains = [b, a]) {name : String}
    (hname : name ∈ capabilityNames a) : name ∉ capabilityNames b := by
  have hnodup := composed.resolver.capabilities.nodup
  rw [(build_ok hcomposed).1] at hnodup
  have hkeys : ∀ d e : ActiveDomain, (registeredCapabilities [d, e]).map CapabilityRegistration.name =
      capabilityNames d ++ capabilityNames e := by
    intro d e
    simp [registeredCapabilities, capabilityNames, Function.comp_def]
  rcases hpair with hpair | hpair
  · rw [hpair, hkeys] at hnodup
    exact List.disjoint_of_nodup_append hnodup hname
  · rw [hpair, hkeys] at hnodup
    exact fun hb => List.disjoint_of_nodup_append hnodup hb hname

/-- The tools that may implement a capability of a domain are those of the domain alone. -/
theorem registrations_composed (hsingle : single.domains = [a])
    (hpair : composition.domains = [a, b] ∨ composition.domains = [b, a])
    (halone : build single extra = .ok alone) (hcomposed : build composition extra = .ok composed)
    {name : String} (hname : name ∈ capabilityNames a) :
    composed.resolver.tools.registrationsForCapability name =
      alone.resolver.tools.registrationsForCapability name := by
  have hnone : (registeredTools [b]).filter (fun item => name ∈ item.tool.capabilities) = [] := by
    refine List.filter_eq_nil_iff.mpr fun item hitem => ?_
    obtain ⟨d, hd, hitem⟩ := List.mem_flatMap.mp hitem
    obtain ⟨tool, htool, rfl⟩ := List.mem_map.mp hitem
    obtain rfl := List.mem_singleton.mp hd
    intro hmem
    exact names_apart hcomposed hpair hname (capabilities_of_tool d htool name (by simpa using hmem))
  have happend : ∀ d e : ActiveDomain, registeredTools [d, e] = registeredTools [d] ++ registeredTools [e] := by
    intro d e
    simp [registeredTools]
  unfold ToolRegistry.registrationsForCapability
  rw [(build_ok hcomposed).2.1, (build_ok halone).2.1, hsingle]
  rcases hpair with hpair | hpair
  · rw [hpair, happend, List.filter_append, hnone, List.append_nil]
  · rw [hpair, happend, List.filter_append, hnone, List.nil_append]

/-- A composition resolves the capabilities of a domain as the domain alone does. -/
theorem resolve_composed (hsingle : single.domains = [a])
    (hpair : composition.domains = [a, b] ∨ composition.domains = [b, a])
    (halone : build single extra = .ok alone) (hcomposed : build composition extra = .ok composed)
    {name : String} (hname : name ∈ capabilityNames a) :
    composed.resolver.resolveRegistration name = alone.resolver.resolveRegistration name := by
  obtain ⟨c, hc, rfl⟩ := List.mem_map.mp hname
  have ha : a ∈ composition.domains := by
    rcases hpair with hpair | hpair
    · simp [hpair]
    · simp [hpair]
  unfold CapabilityResolver.resolveRegistration
  rw [get?_capability hcomposed ha hc, get?_capability halone (by simp [hsingle]) hc]
  dsimp only
  rw [registrations_composed hsingle hpair halone hcomposed (List.mem_map_of_mem hc)]

end Pair

/-! ## Effects -/

def permissiveness : PolicyEffect → Nat
  | .deny => 0
  | .requireConfirmation => 1
  | .allow => 2

def policyEffect (components : RuntimeComponents) (state : AgentState) (pending : PendingAction)
    (environment : JsonMapping) (confirmed : Bool) : Except ResolutionError PolicyEffect := do
  let resolution ← components.resolver.resolveRegistration pending.capability
  pure (check components.policies (contextOf state pending resolution environment confirmed)).effect

theorem says_append {results results' : List PolicyResult} {effect : PolicyEffect} :
    Says (results ++ results') effect ↔ Says results effect ∨ Says results' effect := by
  simp [Says, or_and_right, exists_or]

/-- What only some say can take the effect from the rest in one case alone: nothing is said, and the
capability mutates. -/
theorem permissiveness_append (results more : List PolicyResult) (category : CapabilityCategory)
    (confirmed : Bool) (all : List PolicyResult) (hall : ∀ e, Says all e ↔ Says results e ∨ Says more e)
    (heffect : (verdict results category confirmed).effect ≠ .allow) :
    permissiveness (verdict all category confirmed).effect ≤
        permissiveness (verdict results category confirmed).effect ↔
      (category = .mutation → results = [] → more ≠ [] → Says more .deny) := by
  obtain ⟨hdeny, hconfirm, hallow, hnone⟩ := verdict_effect results category confirmed
  obtain ⟨hdeny', hconfirm', hallow', hnone'⟩ := verdict_effect all category confirmed
  by_cases hd : Says all .deny
  · rw [hdeny' hd]
    refine iff_of_true (Nat.zero_le _) fun _ hr _ => ?_
    refine ((hall .deny).mp hd).resolve_left ?_
    rw [hr]
    rintro ⟨r, hr, -⟩
    cases hr
  · have hdr : ¬Says results .deny := fun h => hd ((hall _).mpr (.inl h))
    have hdm : ¬Says more .deny := fun h => hd ((hall _).mpr (.inr h))
    by_cases hr : results = []
    · have hm : category = .mutation := by
        by_contra hm
        exact heffect ((hnone hr).trans (if_neg hm))
      rw [hnone hr, if_pos hm]
      by_cases hmore : more = []
      · have hempty : all = [] := by
          by_contra hne
          have hsaid : ∀ e, ¬Says all e := fun e h => by
            rcases (hall e).mp h with ⟨r, hmem, -⟩ | ⟨r, hmem, -⟩
            · rw [hr] at hmem
              cases hmem
            · rw [hmore] at hmem
              cases hmem
          rcases says_of_ne_nil hne with h | h | h <;> exact hsaid _ h
        rw [hnone' hempty, if_pos hm]
        exact iff_of_true le_rfl fun _ _ h => absurd hmore h
      · -- something is said, and no denial
        refine iff_of_false (Nat.not_le.mpr ?_) fun h => hdm (h hm hr hmore)
        by_cases hc : Says all .requireConfirmation
        · rw [hconfirm' hd hc]
          cases confirmed <;> decide
        · have ha : Says all .allow := (says_of_ne_nil hmore).elim (fun h => absurd h hdm) fun h =>
            h.elim (fun h => absurd ((hall _).mpr (.inr h)) hc) fun h => (hall _).mpr (.inr h)
          rw [hallow' hd hc ha]
          decide
    · refine iff_of_true ?_ fun _ h => absurd h hr
      by_cases hc : Says results .requireConfirmation
      · rw [hconfirm hdr hc, hconfirm' hd ((hall _).mpr (.inl hc))]
      · have ha : Says results .allow := (says_of_ne_nil hr).elim (fun h => absurd h hdr) fun h =>
          h.elim (fun h => absurd h hc) id
        exact absurd (hallow hdr hc ha) heffect

/-! ## Composing domains -/

/-- Nothing that a domain may not do alone is permitted in the composition, and no failure of its actions
is recovered by a rule or a capability of the other domain, whatever attempts are counted. -/
structure NeverWidens (a b : ActiveDomain) (alone composed : RuntimeComponents) : Prop where
  policies : ∀ state pending environment confirmed effect, pending.capability ∈ capabilityNames a →
    policyEffect alone state pending environment confirmed = .ok effect → effect ≠ .allow →
      ∀ effect', policyEffect composed state pending environment confirmed = .ok effect' →
        permissiveness effect' ≤ permissiveness effect
  recovery : ∀ failure capability attempts rule, failure.capability = some capability →
    capability ∈ capabilityNames a → (∀ counter ∈ attempts, (0 : Int) ≤ counter.2) →
      composed.recoveryManager.ruleFor failure = some rule →
      (composed.recoveryManager.decide failure attempts).1.strategy ≠ .stop →
        rule ∈ a.recoveryRules ∧ ∀ c, rule.capability = some c → c ∉ capabilityNames b

/-- The other domain has nothing to say where the domain's own policies are silent on a mutation, and
the rule that leads for a failure is the domain's own and names no capability of the other. -/
structure KeptApart (a b : ActiveDomain) (extra : List Policy) (alone : RuntimeComponents)
    (composition : DomainComposition) : Prop where
  silent : ∀ state pending environment confirmed resolution, pending.capability ∈ capabilityNames a →
    alone.resolver.resolveRegistration pending.capability = .ok resolution →
      resolution.capability.category = .mutation →
        let context := contextOf state pending resolution environment confirmed
        (∀ policy ∈ a.policies ++ extra, policy.evaluate context = none) →
          (∃ policy ∈ b.policies, ∃ r, policy.evaluate context = some r) →
            ∃ policy ∈ b.policies, ∃ r, policy.evaluate context = some r ∧ r.effect = .deny
  led : ∀ failure capability rule, failure.capability = some capability →
    capability ∈ capabilityNames a →
      Leads ruleBefore (fun rule => rule.applies failure) composition.recoveryRules rule →
        rule.strategy ≠ .stop → 1 ≤ rule.maxAttempts →
          rule ∈ a.recoveryRules ∧ ∀ c, rule.capability = some c → c ∉ capabilityNames b

variable {context : PolicyContext}

theorem resultsOf_append {policies policies' : List Policy} :
    resultsOf (policies ++ policies') context =
      resultsOf policies context ++ resultsOf policies' context := List.filterMap_append

theorem resultsOf_eq_nil {policies : List Policy} :
    resultsOf policies context = [] ↔ ∀ policy ∈ policies, policy.evaluate context = none :=
  List.filterMap_eq_nil_iff

theorem says_resultsOf {policies : List Policy} {effect : PolicyEffect} :
    Says (resultsOf policies context) effect ↔
      ∃ policy ∈ policies, ∃ r, policy.evaluate context = some r ∧ r.effect = effect := by
  constructor
  · rintro ⟨r, hr, he⟩
    obtain ⟨policy, hpolicy, hsaid⟩ := List.mem_filterMap.mp hr
    exact ⟨policy, hpolicy, r, hsaid, he⟩
  · rintro ⟨policy, hpolicy, r, hsaid, he⟩
    exact ⟨r, List.mem_filterMap.mpr ⟨policy, hpolicy, hsaid⟩, he⟩

theorem permissiveness_check {policies more all : List Policy}
    (hall : ∀ e, Says (resultsOf all context) e ↔
      Says (resultsOf policies context) e ∨ Says (resultsOf more context) e)
    (heffect : (check policies context).effect ≠ .allow) :
    permissiveness (check all context).effect ≤ permissiveness (check policies context).effect ↔
      (context.capability.category = .mutation → resultsOf policies context = [] →
        resultsOf more context ≠ [] → Says (resultsOf more context) .deny) :=
  permissiveness_append _ _ _ _ _ hall heffect

/-- A decision with no attempt spent is the rule's own, if it has an attempt. -/
theorem decide_strategy {manager : RecoveryManager} {failure : Failure} {rule : RecoveryRule}
    (h : manager.ruleFor failure = some rule) (attempts : List (String × Int)) :
    (manager.decide failure attempts).1.strategy =
      if rule.maxAttempts <
          (attempts.lookup (attemptKey failure.taskId failure.category rule.name)).getD 0 + 1 then .stop
      else rule.strategy := by
  rw [RecoveryManager.decide, h]

theorem lookup_nonneg {attempts : List (String × Int)} (h : ∀ counter ∈ attempts, (0 : Int) ≤ counter.2)
    (key : String) : 0 ≤ (attempts.lookup key).getD 0 := by
  cases hlookup : attempts.lookup key with
  | none => exact le_rfl
  | some count =>
    obtain ⟨pre, post, rfl, -⟩ := List.lookup_eq_some_iff.mp hlookup
    exact h (key, count) (by simp)

/-- **A composition gives a domain no authority** that it does not have alone, exactly if the other
domain's policies and rules have nothing to say of its actions. -/
theorem composition_authority {a b : ActiveDomain} {single composition : DomainComposition}
    {extra : List Policy} {alone composed : RuntimeComponents} (hsingle : single.domains = [a])
    (hpair : composition.domains = [a, b] ∨ composition.domains = [b, a])
    (halone : build single extra = .ok alone) (hcomposed : build composition extra = .ok composed) :
    NeverWidens a b alone composed ↔ KeptApart a b extra alone composition := by
  have hpolicies : alone.policies = a.policies ++ extra := by
    simp [(build_ok halone).2.2.1, DomainComposition.policies, hsingle]
  have hsaid : ∀ context e, Says (resultsOf composed.policies context) e ↔
      Says (resultsOf alone.policies context) e ∨ Says (resultsOf b.policies context) e := by
    intro context e
    rw [(build_ok hcomposed).2.2.1, hpolicies, DomainComposition.policies]
    rcases hpair with hpair | hpair
    · simp only [hpair, List.flatMap_cons, List.flatMap_nil, List.append_nil, resultsOf_append,
        says_append]
      tauto
    · simp only [hpair, List.flatMap_cons, List.flatMap_nil, List.append_nil, resultsOf_append,
        says_append]
      tauto
  have hrule : ∀ failure rule, composed.recoveryManager.ruleFor failure = some rule ↔
      Leads ruleBefore (fun rule => rule.applies failure) composition.recoveryRules rule := by
    intro failure rule
    rw [(build_ok hcomposed).2.2.2]
    exact find?_insertionSort
  constructor
  · intro h
    refine ⟨fun state pending environment confirmed resolution hname hresolve hm hsilent hspeaks => ?_,
      fun failure capability rule hcapability hname hleads hstop hmax => ?_⟩
    · have hnil : resultsOf alone.policies (contextOf state pending resolution environment confirmed) = [] :=
        resultsOf_eq_nil.mpr (hpolicies ▸ hsilent)
      have hmore : resultsOf b.policies (contextOf state pending resolution environment confirmed) ≠ [] := by
        obtain ⟨policy, hpolicy, r, hr⟩ := hspeaks
        exact fun hnone => absurd (resultsOf_eq_nil.mp hnone policy hpolicy) (by simp [hr])
      have hdeny : (check alone.policies (contextOf state pending resolution environment confirmed)).effect =
          .deny := ((verdict_effect _ _ _).2.2.2 hnil).trans (if_pos hm)
      have hle := h.policies state pending environment confirmed .deny hname
        (by rw [policyEffect, hresolve, ← hdeny]; rfl) (by decide) _
        (by rw [policyEffect, resolve_composed hsingle hpair halone hcomposed hname, hresolve]; rfl)
      have hapart := permissiveness_check (hsaid _) (by rw [hdeny]; decide)
      exact says_resultsOf.mp (hapart.mp (hdeny ▸ hle) hm hnil hmore)
    · have hstrategy := decide_strategy ((hrule failure rule).mpr hleads) []
      rw [if_neg (by simpa using hmax)] at hstrategy
      exact h.recovery failure capability [] rule hcapability hname nofun ((hrule failure rule).mpr hleads)
        (hstrategy ▸ hstop)
  · intro h
    refine ⟨fun state pending environment confirmed effect hname heffect hne effect' heffect' => ?_,
      fun failure capability attempts rule hcapability hname hcounts hrulefor hstop => ?_⟩
    · obtain ⟨resolution, hresolve, heffect⟩ := Except.bind_eq_ok.mp heffect
      obtain ⟨resolution', hresolve', heffect'⟩ := Except.bind_eq_ok.mp heffect'
      rw [resolve_composed hsingle hpair halone hcomposed hname, hresolve] at hresolve'
      obtain rfl := Except.ok.inj hresolve'
      obtain rfl := Except.ok.inj heffect
      obtain rfl := Except.ok.inj heffect'
      refine (permissiveness_check (hsaid _) hne).mpr fun hm hnil hmore => ?_
      refine says_resultsOf.mpr (h.silent state pending environment confirmed resolution hname hresolve hm
        (hpolicies ▸ resultsOf_eq_nil.mp hnil) ?_)
      obtain ⟨r, hr⟩ := List.exists_mem_of_ne_nil _ hmore
      obtain ⟨policy, hpolicy, hsaid⟩ := List.mem_filterMap.mp hr
      exact ⟨policy, hpolicy, r, hsaid⟩
    · rw [decide_strategy hrulefor] at hstop
      by_cases hspent : rule.maxAttempts <
          (attempts.lookup (attemptKey failure.taskId failure.category rule.name)).getD 0 + 1
      · exact absurd (if_pos hspent) hstop
      · rw [if_neg hspent] at hstop
        refine h.led failure capability rule hcapability hname ((hrule failure rule).mp hrulefor) hstop ?_
        have hcount := lookup_nonneg hcounts (attemptKey failure.taskId failure.category rule.name)
        omega

/-! ## Two domains that mutate -/

/-- A domain with one capability that mutates, one tool for it, and the given policies. -/
def mutating (name capability tool : String) (policies : List Policy) : DomainRuntime where
  manifest := ⟨"agent.nantian.dev/v1alpha1", "Domain", name, "1.0.0", [capability], ["criteria"]⟩
  capabilities := [⟨capability, .mutation⟩]
  tools := [{ name := tool, capabilities := [capability], sideEffect := .destructive }]
  policies := policies
  evaluators := ["criteria"]
  taskExpanders := []
  recoveryRules := []
  actionArgumentProviders := []
  actionReconcilers := []
  memories := []

def files : ActiveDomain := ⟨mutating "files" "delete_file" "file_delete" [], rfl⟩

def notes : ActiveDomain :=
  ⟨mutating "notes" "write_note" "note_write"
    [ofRule ⟨"notes-allow", .allow, "notes may be written", [], [.mutation], []⟩], rfl⟩

def filesAlone : DomainComposition := ⟨[files], rfl⟩

def filesAndNotes : DomainComposition := ⟨[files, notes], rfl⟩

theorem composition_authority_files : ∃ alone composed, build filesAlone = .ok alone ∧
    build filesAndNotes = .ok composed ∧
      (NeverWidens files notes alone composed ↔ KeptApart files notes [] alone filesAndNotes) := by
  refine ⟨_, _, rfl, rfl, ?_⟩
  have hsingle : filesAlone.domains = [files] := rfl
  have hpair : filesAndNotes.domains = [files, notes] := rfl
  exact composition_authority hsingle (.inl hpair) rfl rfl

def cleanup : AgentState :=
  initialAgentState "session-1" ⟨"clean up", [], "goal-1", .running, 0⟩
    ⟨"clean up", [], "task-1", .running, 0⟩ false none []

def deletion : PendingAction :=
  ⟨"action-1", "delete_file", "file_delete", some "a.txt", [], "files", "1.0.0", "key", "hash", 1,
    "a.txt", none⟩

/-- The rule for notes lets files be deleted. -/
theorem pooled_policy_widens : ∃ alone composed, build filesAlone = .ok alone ∧
    build filesAndNotes = .ok composed ∧ ¬NeverWidens files notes alone composed := by
  refine ⟨_, _, rfl, rfl, fun h => ?_⟩
  have hle := h.policies cleanup deletion [] false .deny (by decide) rfl (by decide) .allow rfl
  exact absurd hle (by decide)

end UniversalAgent.Domain
