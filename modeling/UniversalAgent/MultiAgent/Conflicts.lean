import UniversalAgent.Core.JsonText
import UniversalAgent.Foundation.Grouping
import UniversalAgent.Foundation.Selection
import UniversalAgent.Foundation.Sorting
import UniversalAgent.MultiAgent.Contracts

/-!
# MultiAgent — Conflicts

`AgentConflictResolver` (`multi_agent/conflicts.py`): which of the actions that agents propose for one
resource is taken, if one is. Proposals that the policy denies or that would mutate under a read-only
constraint are out; if one of the rest requires confirmation all of the rest are put up for review; else
they agree, or the safest is selected, or the safest share a rank.

Two proposals are of one action if the JSON texts of what they would do are equal. The serializer may
refuse to write a text.
-/

namespace UniversalAgent.MultiAgent

open UniversalAgent.Core UniversalAgent.Foundation

abbrev AgentProposalId := String

inductive ConflictResolutionStatus where
  | noConflict | selected | denied | requiresReview
deriving DecidableEq, Repr

@[ext]
structure AgentActionProposal where
  proposalId : AgentProposalId
  agentId : AgentId
  taskId : AgentTaskId
  capability : String
  resourceKey : String
  target : Option String
  arguments : JsonMapping
  evidenceIds : List EvidenceId
  sideEffect : SideEffect
  risk : RiskLevel
  policyEffect : PolicyEffect
  constraints : AgentTaskConstraints
  priority : Int
  id_filled : Text.isBlank proposalId = false
  agent_filled : Text.isBlank agentId = false
  task_filled : Text.isBlank taskId = false
  capability_filled : Text.isBlank capability = false
  resource_filled : Text.isBlank resourceKey = false

instance : DecidableEq AgentActionProposal := fun _ _ =>
  decidable_of_iff _ AgentActionProposal.ext_iff.symm

structure ConflictResolution where
  resourceKey : String
  status : ConflictResolutionStatus
  selectedProposalId : Option AgentProposalId
  rejectedProposalIds : List AgentProposalId
  reviewProposalIds : List AgentProposalId
  supportingEvidenceIds : List EvidenceId
  reason : String
deriving DecidableEq

inductive ConflictError where
  | value (text : String)
  | jsonCodec
  | index
deriving DecidableEq

namespace AgentActionProposal

def violatesReadOnly (p : AgentActionProposal) : Bool :=
  p.constraints.readOnly && decide (p.sideEffect ≠ .none)

/-- The first branch of `_partition`. -/
def isDenied (p : AgentActionProposal) : Bool := decide (p.policyEffect = .deny) || p.violatesReadOnly

def isReview (p : AgentActionProposal) : Bool :=
  !p.isDenied && decide (p.policyEffect = .requireConfirmation)

def isAllowed (p : AgentActionProposal) : Bool :=
  !p.isDenied && !decide (p.policyEffect = .requireConfirmation)

def action (p : AgentActionProposal) : Json :=
  .obj [("capability", .str p.capability), ("target", (p.target.map Json.str).getD .null),
    ("arguments", .obj p.arguments)]

def sideEffectRank : SideEffect → Nat
  | .none => 0
  | .reversible => 1
  | .destructive => 2

def riskRank : RiskLevel → Nat
  | .low => 0
  | .medium => 1
  | .high => 2

/-- `_proposal_rank`. -/
def rank (p : AgentActionProposal) : ℕ ×ₗ ℕ ×ₗ ℤ :=
  toLex (sideEffectRank p.sideEffect, toLex (riskRank p.risk, -p.priority))

/-- The key of `_highest_priority`. -/
def priorityKey (p : AgentActionProposal) : ℤ ×ₗ String := toLex (-p.priority, p.proposalId)

end AgentActionProposal

open AgentActionProposal

/-- `_evidence_ids`. -/
def proposalEvidenceIds (proposals : List AgentActionProposal) : List EvidenceId :=
  firsts id [] (proposals.flatMap evidenceIds)

def highestPriority (proposals : List AgentActionProposal) : Option AgentActionProposal :=
  (proposals.insertionSort fun a b => a.priorityKey ≤ b.priorityKey).head?

def without (proposals : List AgentActionProposal) (selected : AgentActionProposal) :
    List AgentActionProposal :=
  proposals.filter fun p => decide (p.proposalId ≠ selected.proposalId)

/-! ## The outcomes -/

section Outcomes

variable (resourceKey : String) (denied : List AgentActionProposal)

def reviewResolution (reviewed : List AgentActionProposal) (reason : String) : ConflictResolution where
  resourceKey := resourceKey
  status := .requiresReview
  selectedProposalId := none
  rejectedProposalIds := denied.map proposalId
  reviewProposalIds := reviewed.map proposalId
  supportingEvidenceIds := proposalEvidenceIds reviewed
  reason := reason

def deniedResolution : ConflictResolution where
  resourceKey := resourceKey
  status := .denied
  selectedProposalId := none
  rejectedProposalIds := denied.map proposalId
  reviewProposalIds := []
  supportingEvidenceIds := []
  reason := "all proposals were denied by policy or delegation constraints"

def agreedResolution (allowed : List AgentActionProposal) (selected : AgentActionProposal) :
    ConflictResolution where
  resourceKey := resourceKey
  status := .noConflict
  selectedProposalId := some selected.proposalId
  rejectedProposalIds := denied.map proposalId
  reviewProposalIds := []
  supportingEvidenceIds := proposalEvidenceIds allowed
  reason := "all allowed proposals agree on the same action"

def selectedResolution (allowed : List AgentActionProposal) (winner : AgentActionProposal) :
    ConflictResolution where
  resourceKey := resourceKey
  status := .selected
  selectedProposalId := some winner.proposalId
  rejectedProposalIds := (denied ++ without allowed winner).map proposalId
  reviewProposalIds := []
  supportingEvidenceIds := proposalEvidenceIds [winner]
  reason := "selected the safest allowed proposal by side effect, risk and priority"

end Outcomes

section Resolver

variable (floats : FloatText) (refuses : Json → Bool)

def actionFingerprint (p : AgentActionProposal) : Except ConflictError String :=
  if refuses p.action then .error .jsonCodec else .ok (JsonText.dumps floats p.action)

/-- `all(proposal.action_fingerprint == first for proposal in proposals)`. -/
def allFingerprints (first : String) : List AgentActionProposal → Except ConflictError Bool
  | [] => .ok true
  | p :: proposals => do
      let fingerprint ← actionFingerprint floats refuses p
      if fingerprint = first then allFingerprints first proposals else .ok false

def allSameAction : List AgentActionProposal → Except ConflictError Bool
  | [] => .error .index
  | p :: proposals => do
      let first ← actionFingerprint floats refuses p
      allFingerprints floats refuses first (p :: proposals)

/-- The last part of `resolve`: the proposals that are left do not agree. -/
def selectSafest (resourceKey : String) (denied allowed : List AgentActionProposal) :
    Except ConflictError ConflictResolution :=
  match allowed.insertionSort fun a b => a.rank ≤ b.rank with
  | [] => .error .index
  | winner :: others =>
    if others.head?.any fun second => decide (winner.rank = second.rank) then
      .ok (reviewResolution resourceKey denied allowed
        "conflicting proposals have equal safety and priority rank")
    else .ok (selectedResolution resourceKey denied allowed winner)

/-- `resolve`, once the proposals are known to share a resource. -/
def resolveShared (resourceKey : String) (proposals : List AgentActionProposal) :
    Except ConflictError ConflictResolution :=
  let denied := proposals.filter isDenied
  let review := proposals.filter isReview
  let allowed := proposals.filter isAllowed
  if review ≠ [] then
    .ok (reviewResolution resourceKey denied (review ++ allowed)
      "one or more proposals require confirmation or violate delegation limits")
  else if allowed = [] then .ok (deniedResolution resourceKey denied)
  else do
    let same ← allSameAction floats refuses allowed
    if same then
      match highestPriority allowed with
      | none => .error .index
      | some selected => .ok (agreedResolution resourceKey denied allowed selected)
    else selectSafest resourceKey denied allowed

def resolve (proposals : List AgentActionProposal) : Except ConflictError ConflictResolution :=
  match proposals with
  | [] => .error (.value "agent conflict resolution requires proposals")
  | first :: _ =>
    if proposals.any fun p => decide (p.resourceKey ≠ first.resourceKey) then
      .error (.value "agent conflict resolution proposals must share one resource_key")
    else resolveShared floats refuses first.resourceKey proposals

def resolveAll (proposals : List AgentActionProposal) :
    Except ConflictError (List ConflictResolution) :=
  ((groupBy resourceKey proposals).insertionSort fun a b => a.1 ≤ b.1).mapM fun group =>
    resolve floats refuses group.2

end Resolver

/-! ## The parts of the proposals -/

variable {proposals proposals' : List AgentActionProposal}

/-- Each proposal is denied, up for review or allowed, and only one of these. -/
theorem partition_cases (p : AgentActionProposal) :
    (p.isDenied = true ∧ p.isReview = false ∧ p.isAllowed = false) ∨
      (p.isDenied = false ∧ p.isReview = true ∧ p.isAllowed = false) ∨
      (p.isDenied = false ∧ p.isReview = false ∧ p.isAllowed = true) := by
  unfold isReview isAllowed
  cases p.isDenied <;> cases decide (p.policyEffect = .requireConfirmation) <;> simp

theorem partition_perm (proposals : List AgentActionProposal) :
    (proposals.filter isDenied ++ (proposals.filter isReview ++ proposals.filter isAllowed)).Perm
      proposals := by
  induction proposals with
  | nil => exact .nil
  | cons p proposals ih =>
    rcases partition_cases p with ⟨hd, hr, ha⟩ | ⟨hd, hr, ha⟩ | ⟨hd, hr, ha⟩
    · rw [List.filter_cons_of_pos hd, List.filter_cons_of_neg (by simp [hr]),
        List.filter_cons_of_neg (by simp [ha])]
      exact ih.cons p
    · rw [List.filter_cons_of_neg (by simp [hd]), List.filter_cons_of_pos hr,
        List.filter_cons_of_neg (by simp [ha])]
      exact List.perm_middle.trans (ih.cons p)
    · rw [List.filter_cons_of_neg (by simp [hd]), List.filter_cons_of_neg (by simp [hr]),
        List.filter_cons_of_pos ha, ← List.append_assoc]
      refine List.perm_middle.trans (List.Perm.cons p ?_)
      rw [List.append_assoc]
      exact ih

theorem mem_proposalEvidenceIds {i : EvidenceId} :
    i ∈ proposalEvidenceIds proposals ↔ ∃ p ∈ proposals, i ∈ p.evidenceIds := by
  rw [proposalEvidenceIds, ← List.mem_flatMap]
  constructor
  · exact fun h => (@firsts_sublist _ _ _ id [] _).subset h
  · intro h
    have hall : (proposals.flatMap evidenceIds).Pairwise fun _ _ => True :=
      List.pairwise_of_forall fun _ _ => trivial
    obtain ⟨j, hj, hface, -⟩ := @exists_first _ _ _ id _ [] _ hall i h List.not_mem_nil
    obtain rfl : j = i := hface
    exact hj

/-! ## Agreement -/

section Agreement

variable {floats : FloatText} {refuses : Json → Bool}

def AllSame (floats : FloatText) (proposals : List AgentActionProposal) : Prop :=
  ∀ p ∈ proposals, ∀ q ∈ proposals, JsonText.dumps floats p.action = JsonText.dumps floats q.action

theorem actionFingerprint_ok {p : AgentActionProposal} {text : String}
    (h : actionFingerprint floats refuses p = .ok text) : text = JsonText.dumps floats p.action := by
  rw [actionFingerprint] at h
  split at h
  · cases h
  · exact (Except.ok.inj h).symm

theorem allFingerprints_ok {first : String} {same : Bool}
    (h : allFingerprints floats refuses first proposals = .ok same) :
    same = true ↔ ∀ p ∈ proposals, JsonText.dumps floats p.action = first := by
  induction proposals with
  | nil =>
    obtain rfl := Except.ok.inj h
    simp
  | cons p proposals ih =>
    rw [allFingerprints] at h
    obtain ⟨text, htext, hrest⟩ := Except.bind_eq_ok.mp h
    obtain rfl := actionFingerprint_ok htext
    rw [List.forall_mem_cons]
    by_cases hfirst : JsonText.dumps floats p.action = first
    · rw [if_pos hfirst] at hrest
      rw [ih hrest]
      exact ⟨fun h => ⟨hfirst, h⟩, fun h => h.2⟩
    · rw [if_neg hfirst] at hrest
      obtain rfl := Except.ok.inj hrest
      exact iff_of_false Bool.false_ne_true fun h => hfirst h.1

theorem allSameAction_ok {same : Bool} (h : allSameAction floats refuses proposals = .ok same) :
    same = true ↔ AllSame floats proposals := by
  cases proposals with
  | nil => cases h
  | cons p proposals =>
    rw [allSameAction] at h
    obtain ⟨text, htext, hrest⟩ := Except.bind_eq_ok.mp h
    obtain rfl := actionFingerprint_ok htext
    rw [allFingerprints_ok hrest]
    constructor
    · intro h q hq q' hq'
      rw [h q hq, h q' hq']
    · intro h q hq
      exact h q hq p List.mem_cons_self

theorem allFingerprints_written {first : String} (h : ∀ p ∈ proposals, refuses p.action = false) :
    ∃ same, allFingerprints floats refuses first proposals = .ok same := by
  induction proposals with
  | nil => exact ⟨true, rfl⟩
  | cons p proposals ih =>
    rw [List.forall_mem_cons] at h
    rw [allFingerprints, actionFingerprint, h.1]
    simp only [Bool.false_eq_true, if_false, Except.ok_bind]
    split
    · exact ih h.2
    · exact ⟨false, rfl⟩

theorem allSameAction_written (hne : proposals ≠ []) (h : ∀ p ∈ proposals, refuses p.action = false) :
    ∃ same, allSameAction floats refuses proposals = .ok same := by
  cases proposals with
  | nil => exact absurd rfl hne
  | cons p proposals =>
    rw [allSameAction, actionFingerprint, h p List.mem_cons_self]
    exact allFingerprints_written h

end Agreement

/-! ## The highest priority -/

theorem priorityKey_injective {a b : AgentActionProposal} (hids : (proposals.map proposalId).Nodup)
    (ha : a ∈ proposals) (hb : b ∈ proposals) (h : a.priorityKey = b.priorityKey) : a = b := by
  simp only [priorityKey, EmbeddingLike.apply_eq_iff_eq, Prod.mk.injEq] at h
  exact List.inj_on_of_nodup_map hids ha hb h.2

theorem highestPriority_congr (hperm : proposals.Perm proposals') (hids : (proposals.map proposalId).Nodup) :
    highestPriority proposals = highestPriority proposals' := by
  rw [highestPriority, highestPriority,
    sortByKey_congr priorityKey hperm fun a ha b hb => priorityKey_injective hids ha hb]

theorem mem_highestPriority {selected : AgentActionProposal} (h : highestPriority proposals = some selected) :
    selected ∈ proposals :=
  (List.mem_insertionSort _).mp (List.mem_of_mem_head? h)

theorem exists_highestPriority (h : proposals ≠ []) : ∃ selected, highestPriority proposals = some selected := by
  rw [highestPriority]
  cases hsorted : proposals.insertionSort fun a b => a.priorityKey ≤ b.priorityKey with
  | nil =>
    have hperm := List.perm_insertionSort (fun a b : AgentActionProposal => a.priorityKey ≤ b.priorityKey)
      proposals
    rw [hsorted] at hperm
    exact absurd hperm.nil_eq.symm h
  | cons a rest => exact ⟨a, rfl⟩

/-! ## The safest -/

def Safest (proposals : List AgentActionProposal) (winner : AgentActionProposal) : Prop :=
  winner ∈ proposals ∧ ∀ p ∈ proposals, p ≠ winner → winner.rank < p.rank

theorem Safest.unique {a b : AgentActionProposal} (ha : Safest proposals a) (hb : Safest proposals b) :
    a = b := by
  by_contra hne
  exact lt_asymm (ha.2 b hb.1 (Ne.symm hne)) (hb.2 a ha.1 hne)

theorem Safest.perm {a : AgentActionProposal} (h : Safest proposals a) (hperm : proposals.Perm proposals') :
    Safest proposals' a :=
  ⟨hperm.mem_iff.mp h.1, fun p hp => h.2 p (hperm.mem_iff.mpr hp)⟩

/-- The first two of the ranked proposals show whether there is a safest. -/
theorem selectSafest_cases (resourceKey : String) (denied : List AgentActionProposal)
    {allowed : List AgentActionProposal} (hn : allowed.Nodup) (hne : allowed ≠ []) :
    (∃ winner, Safest allowed winner ∧
      selectSafest resourceKey denied allowed = .ok (selectedResolution resourceKey denied allowed winner)) ∨
    ((¬∃ winner, Safest allowed winner) ∧ selectSafest resourceKey denied allowed =
      .ok (reviewResolution resourceKey denied allowed
        "conflicting proposals have equal safety and priority rank")) := by
  have hperm := List.perm_insertionSort (fun a b : AgentActionProposal => a.rank ≤ b.rank) allowed
  have hsorted := pairwise_sortByKey rank allowed
  rw [selectSafest]
  cases hranked : allowed.insertionSort fun a b => a.rank ≤ b.rank with
  | nil =>
    rw [hranked] at hperm
    exact absurd hperm.nil_eq.symm hne
  | cons winner others =>
    rw [hranked] at hperm hsorted
    have hnodup := hperm.nodup_iff.mpr hn
    dsimp only
    by_cases htie : others.head?.any fun second => decide (winner.rank = second.rank)
    · refine .inr ⟨?_, by rw [if_pos htie]⟩
      rintro ⟨w, hw⟩
      cases others with
      | nil => cases htie
      | cons second others =>
        have heq : winner.rank = second.rank := of_decide_eq_true htie
        have hne : winner ≠ second := fun h => (List.nodup_cons.mp hnodup).1 (h ▸ List.mem_cons_self)
        have hw' := hw.perm hperm.symm
        by_cases hwinner : w = winner
        · have hlt := hw'.2 second (by simp) (hwinner ▸ Ne.symm hne)
          exact hlt.ne (hwinner ▸ heq)
        · have hlt := hw'.2 winner List.mem_cons_self (Ne.symm hwinner)
          rcases List.mem_cons.mp hw'.1 with h | h
          · exact hwinner h
          · exact absurd ((List.pairwise_cons.mp hsorted).1 w h) (not_le_of_gt hlt)
    · refine .inl ⟨winner, ⟨hperm.mem_iff.mp List.mem_cons_self, ?_⟩, by rw [if_neg htie]⟩
      intro p hp hpne
      have hother : p ∈ others := (List.mem_cons.mp (hperm.mem_iff.mpr hp)).resolve_left hpne
      cases others with
      | nil => cases hother
      | cons second others =>
        obtain ⟨hfirst, hrest⟩ := List.pairwise_cons.mp hsorted
        have hlt : winner.rank < second.rank :=
          lt_of_le_of_ne (hfirst second List.mem_cons_self) fun h => htie (decide_eq_true h)
        rcases List.mem_cons.mp hother with rfl | hlater
        · exact hlt
        · exact hlt.trans_le ((List.pairwise_cons.mp hrest).1 p hlater)

end UniversalAgent.MultiAgent
