import UniversalAgent.Tools.Registry

/-!
# Policy — Engine

The engine of a runtime (`policy/engine.py`), over the whole context that its policies are given: a
verdict on what the policies say of one action.
-/

namespace UniversalAgent.Policies

open UniversalAgent.Core UniversalAgent.Domains UniversalAgent.Tools

structure PolicyContext where
  sessionId : SessionId
  goalId : GoalId
  taskId : TaskId
  actionId : ActionId
  capability : CapabilityDefinition
  tool : ToolDefinition
  target : Option String
  arguments : JsonMapping
  environment : JsonMapping
  confirmed : Bool
  goalSuccessCriteria : List SuccessCriterion
  taskRequiredCriteria : List String
deriving DecidableEq

def contextOf (state : AgentState) (pending : PendingAction) (resolution : CapabilityResolution)
    (environment : JsonMapping) (confirmed : Bool) : PolicyContext where
  sessionId := state.sessionId
  goalId := state.goal.id
  taskId := state.currentTask.id
  actionId := pending.actionId
  capability := resolution.capability
  tool := resolution.tool
  target := pending.target
  arguments := pending.arguments
  environment := environment
  confirmed := confirmed
  goalSuccessCriteria := state.goal.successCriteria
  taskRequiredCriteria := state.currentTask.requiredCriteria

structure Policy where
  name : String
  evaluate : PolicyContext → Option PolicyResult

/-- `PolicyRule.evaluate`. -/
def ofRule (rule : PolicyRule) : Policy where
  name := rule.name
  evaluate context :=
    if rule.capabilities ≠ [] ∧ context.capability.name ∉ rule.capabilities then none
    else if rule.categories ≠ [] ∧ context.capability.category ∉ rule.categories then none
    else if rule.risks ≠ [] ∧ context.tool.risk ∉ rule.risks then none
    else some ⟨rule.effect, rule.reason, rule.name⟩

def firstWith (effect : PolicyEffect) (results : List PolicyResult) : Option PolicyResult :=
  results.find? fun r => decide (r.effect = effect)

/-- What `PolicyEngine.check` makes of the results of the policies. -/
def verdict (results : List PolicyResult) (category : CapabilityCategory) (confirmed : Bool) :
    PolicyResult :=
  match firstWith .deny results with
  | some denied => denied
  | none =>
    match firstWith .requireConfirmation results with
    | some confirmation =>
      if confirmed then ⟨.allow, "user confirmation satisfied", confirmation.policyName⟩
      else confirmation
    | none =>
      match firstWith .allow results with
      | some allowed => allowed
      | none =>
        if category = .mutation then
          ⟨.deny, "mutation capability has no explicit allow policy", "mutation-default-deny"⟩
        else ⟨.allow, "read-only capability allowed", "read-only-default"⟩

def resultsOf (policies : List Policy) (context : PolicyContext) : List PolicyResult :=
  policies.filterMap fun policy => policy.evaluate context

def check (policies : List Policy) (context : PolicyContext) : PolicyResult :=
  verdict (resultsOf policies context) context.capability.category context.confirmed

/-- The engine of the domain packages gives the same verdict. -/
theorem domains_check (policies : List Domains.Policy) (context : Domains.PolicyContext) :
    Domains.check policies context =
      verdict (policies.filterMap fun policy => policy context) context.capability.category
        context.confirmed := rfl

/-! ## The effect of a verdict -/

variable {results : List PolicyResult}

theorem firstWith_eq_some {effect : PolicyEffect} {r : PolicyResult}
    (h : firstWith effect results = some r) : r ∈ results ∧ r.effect = effect :=
  ⟨List.mem_of_find?_eq_some h, by simpa using List.find?_some h⟩

theorem firstWith_eq_none {effect : PolicyEffect} :
    firstWith effect results = none ↔ ∀ r ∈ results, r.effect ≠ effect := by
  simp [firstWith]

def Says (results : List PolicyResult) (effect : PolicyEffect) : Prop :=
  ∃ r ∈ results, r.effect = effect

theorem no_result_iff {effect : PolicyEffect} : ¬Says results effect ↔ firstWith effect results = none := by
  rw [firstWith_eq_none]
  simp [Says]

/-- The effect of a verdict: a denial first, then a confirmation, then an allowance. -/
theorem verdict_effect (results : List PolicyResult) (category : CapabilityCategory)
    (confirmed : Bool) :
    (Says results .deny → (verdict results category confirmed).effect = .deny) ∧
    (¬Says results .deny → Says results .requireConfirmation →
      (verdict results category confirmed).effect =
        if confirmed then .allow else .requireConfirmation) ∧
    (¬Says results .deny → ¬Says results .requireConfirmation → Says results .allow →
      (verdict results category confirmed).effect = .allow) ∧
    (results = [] → (verdict results category confirmed).effect =
      if category = .mutation then .deny else .allow) := by
  unfold verdict
  refine ⟨fun h => ?_, fun hd h => ?_, fun hd hc h => ?_, ?_⟩
  · cases hf : firstWith .deny results with
    | none => exact absurd (no_result_iff.mpr hf) (not_not.mpr h)
    | some r => exact (firstWith_eq_some hf).2
  · rw [no_result_iff.mp hd]
    cases hf : firstWith .requireConfirmation results with
    | none => exact absurd (no_result_iff.mpr hf) (not_not.mpr h)
    | some r =>
      cases confirmed with
      | true => rfl
      | false => exact (firstWith_eq_some hf).2
  · rw [no_result_iff.mp hd, no_result_iff.mp hc]
    cases hf : firstWith .allow results with
    | none => exact absurd (no_result_iff.mpr hf) (not_not.mpr h)
    | some r => exact (firstWith_eq_some hf).2
  · rintro rfl
    by_cases hm : category = .mutation
    · rw [if_pos hm, if_pos hm]
      rfl
    · rw [if_neg hm, if_neg hm]
      rfl

theorem says_of_ne_nil (h : results ≠ []) :
    Says results .deny ∨ Says results .requireConfirmation ∨ Says results .allow := by
  obtain ⟨r, hr⟩ := List.exists_mem_of_ne_nil results h
  cases he : r.effect with
  | deny => exact .inl ⟨r, hr, he⟩
  | requireConfirmation => exact .inr (.inl ⟨r, hr, he⟩)
  | allow => exact .inr (.inr ⟨r, hr, he⟩)

end UniversalAgent.Policies
