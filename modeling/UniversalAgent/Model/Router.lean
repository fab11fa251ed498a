import UniversalAgent.Core.Json
import UniversalAgent.Core.Models

/-!
# Model — Router

Which model decides (`model/router.py`, and `_model_selection_context` of `runtime/agent.py`). The
capabilities that are offered are reduced to one of the highest risk before the router looks at
risk and category.
-/

namespace UniversalAgent.Model

open UniversalAgent.Core

/-- `RISK_RANK`. -/
def riskRank : RiskLevel → Nat
  | .low => 0
  | .medium => 1
  | .high => 2

/-- `RiskLevel.value`. -/
def riskText : RiskLevel → String
  | .low => "low"
  | .medium => "medium"
  | .high => "high"

structure CapabilityDefinition where
  name : String
  category : CapabilityCategory
  risk : RiskLevel
deriving DecidableEq

structure ModelSelectionContext where
  risk : RiskLevel
  capabilityCategory : Option CapabilityCategory
  sideEffect : Option SideEffect
  readonly : Bool
  maxCost : Option PyFloat
  preferredAdapter : Option String

structure ModelCandidate (α : Type) where
  name : String
  adapter : α
  cost : PyFloat
  riskTolerance : RiskLevel
  weight : PyFloat

/-- The route of a candidate; `cost or None` leaves out a cost of zero. -/
structure ModelRoute (α : Type) where
  adapter : α
  reason : String
  estimatedCost : Option PyFloat

/-- `max(items, key=...)`: the first that none exceeds. -/
def maxBy {α : Type} (above : α → α → Bool) (first : α) (rest : List α) : α :=
  rest.foldl (fun best item => if above item best then item else best) first

/-- `_model_selection_context`. -/
def modelSelectionContext : List CapabilityDefinition → ModelSelectionContext
  | [] => ⟨.low, none, none, true, none, none⟩
  | first :: rest =>
    let highest := maxBy (fun a b => decide (riskRank b.risk < riskRank a.risk)) first rest
    let readonly := (first :: rest).all fun item => decide (item.category ≠ .mutation)
    ⟨highest.risk, some highest.category, none, readonly, none, none⟩

/-- `_required_tolerance`. -/
def requiredTolerance (context : ModelSelectionContext) : RiskLevel :=
  if context.risk = .high ∨ context.sideEffect = some .destructive then .high
  else if context.risk = .medium ∨ context.sideEffect = some .reversible ∨
      context.capabilityCategory = some .mutation then .medium
  else .low

/-! ## Selection -/

section Floats

/-- `<` of two floats. -/
def floatLt : PyFloat → PyFloat → Bool
  | .finite p, .finite q => decide (p < q)
  | .finite _, .infinite negative => !negative
  | .infinite negative, .finite _ => negative
  | .infinite s, .infinite t => s && !t
  | .nan, _ | _, .nan => false

/-- `-x`. -/
def floatNeg : PyFloat → PyFloat
  | .finite q => .finite (-q)
  | .infinite negative => .infinite !negative
  | .nan => .nan

/-- `<` of two tuples: of the first items that differ. -/
def tupleLt : List PyFloat → List PyFloat → Bool
  | x :: xs, y :: ys => if Json.sameNumber x y then tupleLt xs ys else floatLt x y
  | [], _ :: _ => true
  | _, [] => false

end Floats

inductive RouterError where
  | noModelRoute (message : String)

section Select

variable {α : Type} (repr : String → String) (candidates : List (ModelCandidate α))
  (context : ModelSelectionContext)

/-- `_within_budget`. -/
def withinBudget : List (ModelCandidate α) :=
  match context.maxCost with
  | none => candidates
  | some maxCost => candidates.filter fun c => floatLt c.cost maxCost || Json.sameNumber c.cost maxCost

def route (c : ModelCandidate α) (reason : String) : ModelRoute α :=
  ⟨c.adapter, reason, if c.cost = .finite 0 then none else some c.cost⟩

/-- The candidates within the budget that tolerate what is required. -/
def meeting : List (ModelCandidate α) :=
  (withinBudget candidates context).filter fun c =>
    decide (riskRank (requiredTolerance context) ≤ riskRank c.riskTolerance)

/-- The best of the candidates that tolerate what is required. -/
def chosen (first : ModelCandidate α) (rest : List (ModelCandidate α)) : ModelCandidate α :=
  if requiredTolerance context = .high then
    maxBy (fun a b => tupleLt [b.weight, floatNeg b.cost] [a.weight, floatNeg a.cost]) first rest
  else maxBy (fun a b => tupleLt [a.cost, floatNeg a.weight] [b.cost, floatNeg b.weight]) first rest

/-- The candidate that comes closest when none tolerates what is required. -/
def bestEffort (first : ModelCandidate α) (rest : List (ModelCandidate α)) : ModelCandidate α :=
  let key c := [.finite (riskRank c.riskTolerance), c.weight, floatNeg c.cost]
  maxBy (fun a b : ModelCandidate α => tupleLt (key b) (key a)) first rest

def reasonMeeting (repr : String → String) (required : RiskLevel) (name : String) : String :=
  if required = .high then
    riskText required ++ " risk context routed to highest-capability adapter " ++ repr name
  else riskText required ++ " risk context routed to lowest-cost capable adapter " ++ repr name

/-- `RiskAwareModelRouter.select`; `repr` is Python's. -/
def select : Except RouterError (ModelRoute α) :=
  let eligible := withinBudget candidates context
  let required := requiredTolerance context
  match eligible.find? fun c => decide (context.preferredAdapter = some c.name) with
  | some preferred =>
    .ok (route preferred ("preferred adapter " ++ repr preferred.name ++ " selected for "
      ++ riskText context.risk ++ " risk"))
  | none =>
    match meeting candidates context with
    | first :: rest =>
      let chosen := chosen context first rest
      .ok (route chosen (reasonMeeting repr required chosen.name))
    | [] =>
      match eligible with
      | [] =>
        .error (.noModelRoute ("no model candidate within cost budget for context risk=" ++ riskText context.risk))
      | first :: rest =>
        let best := bestEffort first rest
        if riskRank best.riskTolerance < riskRank required - 1 then
          .error (.noModelRoute ("no model candidate tolerant of " ++ riskText required ++ " risk (best available is "
            ++ riskText best.riskTolerance ++ ") for context risk=" ++ riskText context.risk))
        else
          .ok (route best ("degraded route to " ++ repr best.name ++ ": no candidate meets " ++ riskText required
            ++ " risk within budget, using closest capable adapter"))

end Select

/-! ## What is required -/

section Required

variable {caps caps' : List CapabilityDefinition} {c : CapabilityDefinition}

/-- What the runtime requires of the model when the capabilities are offered. -/
def required (caps : List CapabilityDefinition) : RiskLevel := requiredTolerance (modelSelectionContext caps)

theorem maxBy_mem {α : Type} (above : α → α → Bool) (first : α) (rest : List α) :
    maxBy above first rest ∈ first :: rest := by
  induction rest generalizing first with
  | nil => exact List.mem_singleton_self first
  | cons item rest ih =>
    have h := ih (if above item first then item else first)
    change maxBy above (if above item first then item else first) rest ∈ _
    generalize maxBy above (if above item first then item else first) rest = best at h ⊢
    split at h <;> simp_all
    tauto

/-- The highest risk is that of the capability the runtime looks at. -/
theorem le_rank_maxBy (first : CapabilityDefinition) (rest : List CapabilityDefinition) :
    ∀ c ∈ first :: rest, riskRank c.risk ≤
      riskRank (maxBy (fun a b => decide (riskRank b.risk < riskRank a.risk)) first rest).risk := by
  induction rest generalizing first with
  | nil => simp [maxBy]
  | cons item rest ih =>
    intro c hc
    by_cases h : riskRank first.risk < riskRank item.risk
    · have hbest := ih item
      rw [maxBy, List.foldl_cons, if_pos (decide_eq_true h), ← maxBy]
      rcases List.mem_cons.mp hc with rfl | hc
      · exact h.le.trans (hbest item List.mem_cons_self)
      · exact hbest c hc
    · have hbest := ih first
      rw [maxBy, List.foldl_cons, if_neg (by simpa using h), ← maxBy]
      rcases List.mem_cons.mp hc with rfl | hc
      · exact hbest c List.mem_cons_self
      · rcases List.mem_cons.mp hc with rfl | hc
        · exact (not_lt.mp h).trans (hbest first List.mem_cons_self)
        · exact hbest c (List.mem_cons_of_mem first hc)

theorem riskRank_injective {a b : RiskLevel} (h : riskRank a = riskRank b) : a = b := by
  cases a <;> cases b <;> first | rfl | cases h

theorem requiredTolerance_risk {context : ModelSelectionContext} (h : context.risk ≠ .low)
    (hside : context.sideEffect = none) : requiredTolerance context = context.risk := by
  unfold requiredTolerance
  rw [hside]
  cases hr : context.risk with
  | low => exact absurd hr h
  | medium | high => simp

/-- Where some risk is above low, the highest risk is required. -/
theorem required_of_risk (h : ∃ c ∈ caps, c.risk ≠ .low) :
    (∀ c ∈ caps, riskRank c.risk ≤ riskRank (required caps)) ∧ ∃ c ∈ caps, required caps = c.risk := by
  cases caps with
  | nil => simp at h
  | cons first rest =>
    obtain ⟨c, hc, hrisk⟩ := h
    have hmem := maxBy_mem (fun a b => decide (riskRank b.risk < riskRank a.risk)) first rest
    have hbest := le_rank_maxBy first rest
    have habove : (maxBy (fun a b => decide (riskRank b.risk < riskRank a.risk)) first rest).risk ≠ .low := by
      intro hlow
      have hle := hbest c hc
      rw [hlow] at hle
      exact hrisk (riskRank_injective (Nat.le_zero.mp hle))
    have heq : required (first :: rest) = _ := requiredTolerance_risk habove rfl
    rw [heq]
    exact ⟨hbest, _, hmem, rfl⟩

/-- Where every risk is low, the first capability alone counts. -/
theorem required_of_low (h : ∀ c ∈ caps, c.risk = .low) : required caps =
    if caps.head?.map CapabilityDefinition.category = some .mutation then .medium else .low := by
  cases caps with
  | nil => rfl
  | cons first rest =>
    have hbest : maxBy (fun a b => decide (riskRank b.risk < riskRank a.risk)) first rest = first := by
      induction rest with
      | nil => rfl
      | cons item rest ih =>
        have hitem : ¬riskRank first.risk < riskRank item.risk := by
          rw [h item (List.mem_cons_of_mem first List.mem_cons_self)]
          exact Nat.not_lt_zero _
        rw [maxBy, List.foldl_cons, if_neg (by simpa using hitem), ← maxBy]
        exact ih fun c hc => h c (by
          rcases List.mem_cons.mp hc with rfl | hc
          · exact List.mem_cons_self
          · exact List.mem_cons_of_mem _ (List.mem_cons_of_mem _ hc))
    simp [required, modelSelectionContext, requiredTolerance, hbest, h first List.mem_cons_self]

/-- Without a mutation and without risk, nothing is required. -/
theorem required_of_readonly (hlow : ∀ c ∈ caps, c.risk = .low) (h : ∀ c ∈ caps, c.category ≠ .mutation) :
    required caps = .low := by
  rw [required_of_low hlow]
  cases caps with
  | nil => rfl
  | cons first rest => simp [h first List.mem_cons_self]

/-- What is required of one capability. -/
theorem rank_required_singleton (c : CapabilityDefinition) : riskRank (required [c]) =
    max (riskRank c.risk) (if c.category = .mutation then 1 else 0) := by
  obtain ⟨name, category, risk⟩ := c
  cases risk <;> cases category <;> rfl

end Required

/-! ## Monotone in risk -/

section Monotone

variable {α : Type} {repr : String → String} {candidates : List (ModelCandidate α)} {caps : List CapabilityDefinition}

/-- Without a preferred adapter, what is selected tolerates what is required if any candidate within the
budget does. -/
theorem select_meets (repr : String → String) (candidates : List (ModelCandidate α)) {context : ModelSelectionContext}
    (hpreferred : context.preferredAdapter = none) (h : meeting candidates context ≠ []) :
    ∃ c ∈ meeting candidates context, ∃ reason, select repr candidates context = .ok (route c reason) := by
  have hfind : ((withinBudget candidates context).find? fun c =>
      decide (context.preferredAdapter = some c.name)) = none := by
    rw [hpreferred]
    simp
  unfold select
  dsimp only
  rw [hfind]
  cases hm : meeting candidates context with
  | nil => exact absurd hm h
  | cons first rest =>
    refine ⟨chosen context first rest, ?_, _, rfl⟩
    unfold chosen
    split
    · exact maxBy_mem _ first rest
    · exact maxBy_mem _ first rest

/-- What is required of the routed model grows with the set of capabilities, and depends on nothing else. -/
structure RiskMonotone (repr : String → String) (candidates : List (ModelCandidate α)) (caps : List CapabilityDefinition) : Prop where
  alone : ∀ c ∈ caps, riskRank (required [c]) ≤ riskRank (required caps)
  unordered : ∀ caps' : List CapabilityDefinition,
    (caps'.map fun c => (c.category, c.risk)).Perm (caps.map fun c => (c.category, c.risk)) →
      required caps' = required caps
  grows : ∀ c before after, caps = before ++ after →
    riskRank (required caps) ≤ riskRank (required (before ++ c :: after))
  selected : ∀ maxCost : Option PyFloat, let context := { modelSelectionContext caps with maxCost }
    meeting candidates context ≠ [] →
      ∃ c ∈ meeting candidates context, ∃ reason, select repr candidates context = .ok (route c reason)

theorem selected (repr : String → String) (candidates : List (ModelCandidate α))
    (caps : List CapabilityDefinition) (maxCost : Option PyFloat) :
    let context := { modelSelectionContext caps with maxCost }
    meeting candidates context ≠ [] →
      ∃ c ∈ meeting candidates context, ∃ reason, select repr candidates context = .ok (route c reason) := by
  refine select_meets repr candidates ?_
  cases caps <;> rfl

theorem monotone_of_risk (h : ∃ c ∈ caps, c.risk ≠ .low) : RiskMonotone repr candidates caps := by
  obtain ⟨hmax, top, htop, heq⟩ := required_of_risk h
  obtain ⟨c₀, hc₀, hrisk⟩ := h
  have hone : 1 ≤ riskRank (required caps) := by
    have hle := hmax c₀ hc₀
    cases hr : c₀.risk with
    | low => exact absurd hr hrisk
    | medium | high =>
      rw [hr] at hle
      exact le_trans (by decide) hle
  refine ⟨fun c hc => ?_, fun caps' hperm => ?_, fun c before after hcaps => ?_, selected repr candidates caps⟩
  · rw [rank_required_singleton]
    refine max_le (hmax c hc) ?_
    split
    · exact hone
    · exact Nat.zero_le _
  · have hmem : ∀ c ∈ caps, ∃ c' ∈ caps', c'.risk = c.risk := by
      intro c hc
      obtain ⟨c', hc', he⟩ := List.mem_map.mp (hperm.mem_iff.mpr (List.mem_map_of_mem hc))
      exact ⟨c', hc', congrArg Prod.snd he⟩
    have hmem' : ∀ c' ∈ caps', ∃ c ∈ caps, c.risk = c'.risk := by
      intro c' hc'
      obtain ⟨c, hc, he⟩ := List.mem_map.mp (hperm.mem_iff.mp (List.mem_map_of_mem hc'))
      exact ⟨c, hc, congrArg Prod.snd he⟩
    obtain ⟨c₁, hc₁, h₁⟩ := hmem c₀ hc₀
    obtain ⟨hmax', top', htop', heq'⟩ := required_of_risk ⟨c₁, hc₁, h₁ ▸ hrisk⟩
    apply riskRank_injective
    apply Nat.le_antisymm
    · obtain ⟨c, hc, he⟩ := hmem' top' htop'
      rw [heq', ← he]
      exact hmax c hc
    · obtain ⟨c, hc, he⟩ := hmem top htop
      rw [heq, ← he]
      exact hmax' c hc
  · have hsub : ∀ x ∈ caps, x ∈ before ++ c :: after := by
      rw [hcaps]
      intro x hx
      rw [List.mem_append, List.mem_cons]
      exact (List.mem_append.mp hx).imp_right .inr
    have hmax' := (required_of_risk ⟨c₀, hsub c₀ hc₀, hrisk⟩).1
    rw [heq]
    exact hmax' top (hsub top htop)

theorem monotone_of_readonly (hlow : ∀ c ∈ caps, c.risk = .low) (h : ∀ c ∈ caps, c.category ≠ .mutation) :
    RiskMonotone repr candidates caps := by
  have hrequired := required_of_readonly hlow h
  refine ⟨fun c hc => ?_, fun caps' hperm => ?_, fun c before after _ => ?_, selected repr candidates caps⟩
  · rw [rank_required_singleton, hlow c hc, if_neg (h c hc)]
    exact Nat.zero_le _
  · have hmem : ∀ c' ∈ caps', ∃ c ∈ caps, c.category = c'.category ∧ c.risk = c'.risk := by
      intro c' hc'
      obtain ⟨c, hc, he⟩ := List.mem_map.mp (hperm.mem_iff.mp (List.mem_map_of_mem hc'))
      exact ⟨c, hc, congrArg Prod.fst he, congrArg Prod.snd he⟩
    rw [hrequired]
    refine required_of_readonly (fun c' hc' => ?_) fun c' hc' => ?_
    · obtain ⟨c, hc, -, he⟩ := hmem c' hc'
      exact he ▸ hlow c hc
    · obtain ⟨c, hc, he, -⟩ := hmem c' hc'
      exact he ▸ h c hc
  · rw [hrequired]
    exact Nat.zero_le _

/-- **Model routing** is monotone in risk if and only if some capability has a risk above low, or none is a
mutation. -/
theorem risk_monotone_iff (repr : String → String) (candidates : List (ModelCandidate α)) (caps : List CapabilityDefinition) :
    RiskMonotone repr candidates caps ↔ (∃ c ∈ caps, c.risk ≠ .low) ∨ ∀ c ∈ caps, c.category ≠ .mutation := by
  by_cases hrisk : ∃ c ∈ caps, c.risk ≠ .low
  · exact iff_of_true (monotone_of_risk hrisk) (.inl hrisk)
  have hlow : ∀ c ∈ caps, c.risk = .low := by
    push Not at hrisk
    exact hrisk
  constructor
  · intro h
    refine .inr fun m hm hmutation => ?_
    cases caps with
    | nil => cases hm
    | cons first rest =>
      by_cases hfirst : first.category = .mutation
      · -- A capability in front that only reads takes the mutations' place.
        have hgrows := h.grows ⟨"", .observation, .low⟩ [] (first :: rest) rfl
        rw [required_of_low hlow, List.nil_append, required_of_low (List.forall_mem_cons.mpr ⟨rfl, hlow⟩)]
          at hgrows
        simp [hfirst, riskRank] at hgrows
      · have halone := h.alone m hm
        rw [required_of_low hlow, rank_required_singleton, hmutation] at halone
        simp [hfirst, riskRank] at halone
  · intro h
    exact monotone_of_readonly hlow (h.resolve_left hrisk)

end Monotone

/-- Two capabilities without risk, the second a mutation. -/
def readAndWrite : List CapabilityDefinition := [⟨"get", .observation, .low⟩, ⟨"put", .mutation, .low⟩]

/-- Offered alone, the mutation requires more than together with a capability before it. -/
theorem mutation_behind_read : ¬RiskMonotone id ([] : List (ModelCandidate Unit)) readAndWrite := by
  intro h
  exact absurd (h.alone ⟨"put", .mutation, .low⟩ (by decide)) (by decide)

/-! ## Degraded routes -/

section Degraded

variable {α : Type} {candidates : List (ModelCandidate α)} {context : ModelSelectionContext}

/-- The rank leads the key. -/
theorem rank_le_bestEffort (first : ModelCandidate α) (rest : List (ModelCandidate α)) :
    ∀ c ∈ first :: rest, riskRank c.riskTolerance ≤ riskRank (bestEffort first rest).riskTolerance := by
  have hlead : ∀ (x y : Nat) (xs ys : List PyFloat),
      if tupleLt (.finite x :: xs) (.finite y :: ys) = true then x ≤ y else y ≤ x := by
    intro x y xs ys
    simp only [tupleLt, Json.sameNumber, floatLt, Nat.cast_inj, Nat.cast_lt, decide_eq_true_eq]
    split <;> split <;> simp_all
    omega
  unfold bestEffort
  dsimp only
  induction rest generalizing first with
  | nil => simp [maxBy]
  | cons item rest ih =>
    have hstep := hlead (riskRank first.riskTolerance) (riskRank item.riskTolerance)
      [first.weight, floatNeg first.cost] [item.weight, floatNeg item.cost]
    have hbest := List.forall_mem_cons.mp (ih first)
    have hbest' := List.forall_mem_cons.mp (ih item)
    rw [List.forall_mem_cons, List.forall_mem_cons, maxBy, List.foldl_cons, ← maxBy]
    split at hstep
    · next habove =>
      rw [if_pos habove]
      exact ⟨hstep.trans hbest'.1, hbest'⟩
    · next habove =>
      rw [if_neg habove]
      exact ⟨hbest.1, hstep.trans hbest.1, hbest.2⟩

/-- **Degraded routes**: the candidate that is selected is the preferred one, tolerates what is required, or
one level less where none within the budget tolerates more; and none is selected only if every candidate within
the budget tolerates less than that. -/
theorem select_degrades (repr : String → String) (candidates : List (ModelCandidate α)) (context : ModelSelectionContext) :
    match select repr candidates context with
    | .ok r => ∃ c ∈ withinBudget candidates context, ∃ reason, r = route c reason ∧
        (context.preferredAdapter = some c.name ∨
          riskRank (requiredTolerance context) ≤ riskRank c.riskTolerance ∨
          riskRank (requiredTolerance context) = riskRank c.riskTolerance + 1 ∧
            ∀ d ∈ withinBudget candidates context, riskRank d.riskTolerance ≤ riskRank c.riskTolerance)
    | .error _ => ∀ c ∈ withinBudget candidates context,
        riskRank c.riskTolerance + 1 < riskRank (requiredTolerance context) := by
  unfold select
  dsimp only
  cases hfind : (withinBudget candidates context).find? fun c => decide (context.preferredAdapter = some c.name) with
  | some c =>
    have hname := List.find?_some hfind
    exact ⟨c, List.mem_of_find?_eq_some hfind, _, rfl, .inl (of_decide_eq_true hname)⟩
  | none =>
    dsimp only
    cases hmeeting : meeting candidates context with
    | cons first rest =>
      have hchosen : chosen context first rest ∈ meeting candidates context := by
        rw [hmeeting, chosen]
        split <;> exact maxBy_mem _ first rest
      obtain ⟨hwithin, hrank⟩ := List.mem_filter.mp hchosen
      exact ⟨_, hwithin, _, rfl, .inr (.inl (of_decide_eq_true hrank))⟩
    | nil =>
      have hbelow : ∀ c ∈ withinBudget candidates context,
          riskRank c.riskTolerance < riskRank (requiredTolerance context) := by
        simpa [meeting] using hmeeting
      cases hw : withinBudget candidates context with
      | nil => simp
      | cons first rest =>
        rw [hw] at hbelow
        have hbest := rank_le_bestEffort first rest
        have hmem : bestEffort first rest ∈ first :: rest := maxBy_mem _ first rest
        have hlt := hbelow _ hmem
        dsimp only
        by_cases hlow : riskRank (bestEffort first rest).riskTolerance < riskRank (requiredTolerance context) - 1
        · rw [if_pos hlow]
          intro c hc
          have hle := hbest c hc
          omega
        · rw [if_neg hlow]
          exact ⟨_, hmem, _, rfl, .inr (.inr ⟨by omega, hbest⟩)⟩

end Degraded

end UniversalAgent.Model
