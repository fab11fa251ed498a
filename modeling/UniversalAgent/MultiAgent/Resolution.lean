import UniversalAgent.MultiAgent.Conflicts
import UniversalAgent.Runtime.Fingerprints

/-!
# MultiAgent — Resolution

What a resolution of a conflict guarantees: it is safe, each proposal has one place in it, and the order in
which the proposals come does not matter.
-/

namespace UniversalAgent.MultiAgent

open UniversalAgent.Core UniversalAgent.Foundation AgentActionProposal

variable {proposals proposals' : List AgentActionProposal}

/-! ## What a resolution says -/

structure SaysSame (r r' : ConflictResolution) : Prop where
  status : r.status = r'.status
  selected : r.selectedProposalId = r'.selectedProposalId
  rejected : ∀ i, i ∈ r.rejectedProposalIds ↔ i ∈ r'.rejectedProposalIds
  reviewed : ∀ i, i ∈ r.reviewProposalIds ↔ i ∈ r'.reviewProposalIds
  evidence : ∀ i, i ∈ r.supportingEvidenceIds ↔ i ∈ r'.supportingEvidenceIds

structure Safe (proposals : List AgentActionProposal) (r : ConflictResolution) : Prop where
  /-- A denied proposal is neither selected nor put up for review. -/
  denied : ∀ p ∈ proposals, p.isDenied = true →
    r.selectedProposalId ≠ some p.proposalId ∧ p.proposalId ∉ r.reviewProposalIds
  /-- Nothing is selected while a proposal that is left requires confirmation. -/
  confirmed : ∀ p ∈ proposals, p.isDenied = false → p.policyEffect = .requireConfirmation →
    r.selectedProposalId = none
  /-- A selected proposal is safer than every other that is allowed. -/
  safest : r.status = .selected → ∃ winner ∈ proposals, r.selectedProposalId = some winner.proposalId ∧
    winner.isAllowed = true ∧ ∀ p ∈ proposals, p.isAllowed = true → p ≠ winner → winner.rank < p.rank
  /-- Without an agreement each proposal is in one place. -/
  placed : r.status ≠ .noConflict →
    (r.selectedProposalId.toList ++ r.rejectedProposalIds ++ r.reviewProposalIds).Perm
      (proposals.map proposalId)

/-! ## Order -/

section Order

variable {denied denied' reviewed reviewed' allowed allowed' : List AgentActionProposal} {key : String}

theorem evidenceIds_perm (h : proposals.Perm proposals') (i : EvidenceId) :
    i ∈ proposalEvidenceIds proposals ↔ i ∈ proposalEvidenceIds proposals' := by
  rw [mem_proposalEvidenceIds, mem_proposalEvidenceIds]
  constructor
  · rintro ⟨p, hp, hi⟩
    exact ⟨p, h.mem_iff.mp hp, hi⟩
  · rintro ⟨p, hp, hi⟩
    exact ⟨p, h.mem_iff.mpr hp, hi⟩

theorem reviewResolution_same {reason reason' : String} (hd : denied.Perm denied')
    (hr : reviewed.Perm reviewed') :
    SaysSame (reviewResolution key denied reviewed reason) (reviewResolution key denied' reviewed' reason') where
  status := rfl
  selected := rfl
  rejected _ := (hd.map proposalId).mem_iff
  reviewed _ := (hr.map proposalId).mem_iff
  evidence := evidenceIds_perm hr

theorem deniedResolution_same (hd : denied.Perm denied') :
    SaysSame (deniedResolution key denied) (deniedResolution key denied') where
  status := rfl
  selected := rfl
  rejected _ := (hd.map proposalId).mem_iff
  reviewed _ := Iff.rfl
  evidence _ := Iff.rfl

theorem agreedResolution_same (hd : denied.Perm denied') (ha : allowed.Perm allowed')
    (selected : AgentActionProposal) :
    SaysSame (agreedResolution key denied allowed selected)
      (agreedResolution key denied' allowed' selected) where
  status := rfl
  selected := rfl
  rejected _ := (hd.map proposalId).mem_iff
  reviewed _ := Iff.rfl
  evidence := evidenceIds_perm ha

theorem selectedResolution_same (hd : denied.Perm denied') (ha : allowed.Perm allowed')
    (winner : AgentActionProposal) :
    SaysSame (selectedResolution key denied allowed winner)
      (selectedResolution key denied' allowed' winner) where
  status := rfl
  selected := rfl
  rejected _ := ((hd.append (ha.filter _)).map proposalId).mem_iff
  reviewed _ := Iff.rfl
  evidence _ := Iff.rfl

theorem selectSafest_same {r r' : ConflictResolution} (hn : allowed.Nodup) (hne : allowed ≠ [])
    (hd : denied.Perm denied') (ha : allowed.Perm allowed') (h : selectSafest key denied allowed = .ok r)
    (h' : selectSafest key denied' allowed' = .ok r') : SaysSame r r' := by
  have hn' := ha.nodup_iff.mp hn
  have hne' : allowed' ≠ [] := fun hnil => hne (List.Perm.eq_nil (hnil ▸ ha))
  rcases selectSafest_cases key denied hn hne with
    ⟨winner, hw, heq⟩ | ⟨hnone, heq⟩
  · rcases selectSafest_cases key denied' hn' hne' with
      ⟨winner', hw', heq'⟩ | ⟨hnone', -⟩
    · obtain rfl := (hw.perm ha).unique hw'
      rw [heq] at h
      rw [heq'] at h'
      obtain rfl := Except.ok.inj h
      obtain rfl := Except.ok.inj h'
      exact selectedResolution_same hd ha winner
    · exact absurd ⟨winner, hw.perm ha⟩ hnone'
  · rcases selectSafest_cases key denied' hn' hne' with
      ⟨winner', hw', -⟩ | ⟨-, heq'⟩
    · exact absurd ⟨winner', hw'.perm ha.symm⟩ hnone
    · rw [heq] at h
      rw [heq'] at h'
      obtain rfl := Except.ok.inj h
      obtain rfl := Except.ok.inj h'
      exact reviewResolution_same hd ha

variable {floats : FloatText} {refuses : Json → Bool}

theorem allSame_perm (h : allowed.Perm allowed') : AllSame floats allowed ↔ AllSame floats allowed' := by
  constructor
  · exact fun hs p hp q hq => hs p (h.mem_iff.mpr hp) q (h.mem_iff.mpr hq)
  · exact fun hs p hp q hq => hs p (h.mem_iff.mp hp) q (h.mem_iff.mp hq)

theorem resolveShared_same {r r' : ConflictResolution} (hids : (proposals.map proposalId).Nodup)
    (hperm : proposals.Perm proposals') (h : resolveShared floats refuses key proposals = .ok r)
    (h' : resolveShared floats refuses key proposals' = .ok r') : SaysSame r r' := by
  have hd := hperm.filter isDenied
  have hr := hperm.filter isReview
  have ha := hperm.filter isAllowed
  have hallowed : ((proposals.filter isAllowed).map proposalId).Nodup :=
    hids.sublist (List.filter_sublist.map proposalId)
  rw [resolveShared] at h h'
  by_cases hreview : proposals.filter isReview = []
  · have hreview' : proposals'.filter isReview = [] := (hreview ▸ hr).nil_eq.symm
    rw [if_neg (not_not.mpr hreview)] at h
    rw [if_neg (not_not.mpr hreview')] at h'
    by_cases hnone : proposals.filter isAllowed = []
    · have hnone' : proposals'.filter isAllowed = [] := (hnone ▸ ha).nil_eq.symm
      rw [if_pos hnone] at h
      rw [if_pos hnone'] at h'
      obtain rfl := Except.ok.inj h
      obtain rfl := Except.ok.inj h'
      exact deniedResolution_same hd
    · have hnone' : proposals'.filter isAllowed ≠ [] := fun hnil => hnone (List.Perm.eq_nil (hnil ▸ ha))
      rw [if_neg hnone] at h
      rw [if_neg hnone'] at h'
      obtain ⟨same, hsame, h⟩ := Except.bind_eq_ok.mp h
      obtain ⟨same', hsame', h'⟩ := Except.bind_eq_ok.mp h'
      obtain rfl : same = same' := by
        rw [Bool.eq_iff_iff, allSameAction_ok hsame, allSameAction_ok hsame']
        exact allSame_perm ha
      cases same with
      | true =>
        rw [if_pos rfl] at h h'
        rw [← highestPriority_congr ha hallowed] at h'
        obtain ⟨selected, hselected⟩ := exists_highestPriority hnone
        rw [hselected] at h h'
        obtain rfl := Except.ok.inj h
        obtain rfl := Except.ok.inj h'
        exact agreedResolution_same hd ha selected
      | false =>
        rw [if_neg Bool.false_ne_true] at h h'
        exact selectSafest_same hallowed.of_map hnone hd ha h h'
  · have hreview' : proposals'.filter isReview ≠ [] := fun hnil => hreview (List.Perm.eq_nil (hnil ▸ hr))
    rw [if_pos hreview] at h
    rw [if_pos hreview'] at h'
    obtain rfl := Except.ok.inj h
    obtain rfl := Except.ok.inj h'
    exact reviewResolution_same hd (hr.append ha)

end Order

/-! ## Safety -/

section Safety

variable {key : String} {floats : FloatText} {refuses : Json → Bool}

variable {p : AgentActionProposal} {part : List AgentActionProposal}

theorem mem_ids
    (hids : (proposals.map proposalId).Nodup) (hp : p ∈ proposals) (hpart : part ⊆ proposals)
    (h : p.proposalId ∈ part.map proposalId) : p ∈ part := by
  obtain ⟨q, hq, hid⟩ := List.mem_map.mp h
  obtain rfl := List.inj_on_of_nodup_map hids (hpart hq) hp hid
  exact hq

theorem denied_not_reviewed (hids : (proposals.map proposalId).Nodup)
    (hp : p ∈ proposals) (hdenied : p.isDenied = true)
    (hpart : ∀ q ∈ part, q ∈ proposals ∧ q.isDenied = false) : p.proposalId ∉ part.map proposalId := by
  intro h
  obtain ⟨-, hfree⟩ := hpart p (mem_ids hids hp (fun q hq => (hpart q hq).1) h)
  rw [hdenied] at hfree
  cases hfree

theorem free_of_mem (h : p ∈ proposals.filter isReview ++ proposals.filter isAllowed) :
    p ∈ proposals ∧ p.isDenied = false := by
  rcases List.mem_append.mp h with h | h
  · obtain ⟨hp, hreview⟩ := List.mem_filter.mp h
    rw [isReview, Bool.and_eq_true, Bool.not_eq_true'] at hreview
    exact ⟨hp, hreview.1⟩
  · obtain ⟨hp, hallowed⟩ := List.mem_filter.mp h
    rw [isAllowed, Bool.and_eq_true, Bool.not_eq_true'] at hallowed
    exact ⟨hp, hallowed.1⟩

theorem allowed_ne_denied {p q : AgentActionProposal} (hids : (proposals.map proposalId).Nodup)
    (hp : p ∈ proposals) (hdenied : p.isDenied = true) (hq : q ∈ proposals.filter isAllowed) :
    q.proposalId ≠ p.proposalId := by
  intro hid
  obtain ⟨hmem, hfree⟩ := free_of_mem (List.mem_append_right _ hq)
  obtain rfl := List.inj_on_of_nodup_map hids hmem hp hid
  rw [hdenied] at hfree
  cases hfree

theorem no_confirmation (hreview : proposals.filter isReview = []) (hp : p ∈ proposals)
    (hfree : p.isDenied = false) : p.policyEffect ≠ .requireConfirmation := by
  intro heffect
  have hmem : p ∈ proposals.filter isReview := by
    rw [List.mem_filter, isReview, hfree, heffect]
    exact ⟨hp, rfl⟩
  rw [hreview] at hmem
  cases hmem

theorem without_perm {winner : AgentActionProposal} {allowed : List AgentActionProposal}
    (hids : (allowed.map proposalId).Nodup) (hw : winner ∈ allowed) :
    (winner :: without allowed winner).Perm allowed := by
  have herase : without allowed winner = allowed.erase winner := by
    rw [hids.of_map.erase_eq_filter, without]
    refine List.filter_congr fun p hp => ?_
    have hid : p.proposalId = winner.proposalId ↔ p = winner :=
      ⟨List.inj_on_of_nodup_map hids hp hw, congrArg proposalId⟩
    by_cases h : p = winner <;> simp [hid, h]
  rw [herase]
  exact (List.perm_cons_erase hw).symm

/-- A review of all the proposals that are not denied. -/
theorem reviewResolution_safe {reason : String} (hids : (proposals.map proposalId).Nodup) :
    Safe proposals (reviewResolution key (proposals.filter isDenied)
      (proposals.filter isReview ++ proposals.filter isAllowed) reason) where
  denied p hp hdenied :=
    ⟨nofun, denied_not_reviewed hids hp hdenied fun q hq => free_of_mem hq⟩
  confirmed _ _ _ _ := rfl
  safest := nofun
  placed _ := by
    have hperm := (partition_perm proposals).map proposalId
    rw [List.map_append] at hperm
    exact hperm

theorem selectSafest_safe {r : ConflictResolution} (hids : (proposals.map proposalId).Nodup)
    (hreview : proposals.filter isReview = []) (hne : proposals.filter isAllowed ≠ [])
    (h : selectSafest key (proposals.filter isDenied) (proposals.filter isAllowed) = .ok r) :
    Safe proposals r := by
  have hallowed : ((proposals.filter isAllowed).map proposalId).Nodup :=
    hids.sublist (List.filter_sublist.map proposalId)
  rcases selectSafest_cases key (proposals.filter isDenied) hallowed.of_map hne with
    ⟨winner, hw, heq⟩ | ⟨-, heq⟩
  · rw [heq] at h
    obtain rfl := Except.ok.inj h
    obtain ⟨hmem, hsafest⟩ := hw
    obtain ⟨hwinner, hfree⟩ := List.mem_filter.mp hmem
    constructor
    · intro p hp hdenied
      refine ⟨fun hid => ?_, List.not_mem_nil⟩
      exact allowed_ne_denied hids hp hdenied hmem (Option.some.inj hid)
    · intro p hp hfree heffect
      exact absurd heffect (no_confirmation hreview hp hfree)
    · intro _
      refine ⟨winner, hwinner, rfl, hfree, fun p hp hallowed hne => ?_⟩
      exact hsafest p (List.mem_filter.mpr ⟨hp, hallowed⟩) hne
    · intro _
      have hparts := partition_perm proposals
      rw [hreview, List.nil_append] at hparts
      have hwithout := (without_perm hallowed hmem).append_left (proposals.filter isDenied)
      have hperm := ((List.perm_middle.symm.trans hwithout).trans hparts).map proposalId
      simpa [selectedResolution] using hperm
  · rw [heq] at h
    obtain rfl := Except.ok.inj h
    have hsafe := @reviewResolution_safe _ key "conflicting proposals have equal safety and priority rank" hids
    rw [hreview, List.nil_append] at hsafe
    exact hsafe

theorem resolveShared_safe {r : ConflictResolution} (hids : (proposals.map proposalId).Nodup)
    (h : resolveShared floats refuses key proposals = .ok r) : Safe proposals r := by
  rw [resolveShared] at h
  by_cases hreview : proposals.filter isReview = []
  · rw [if_neg (not_not.mpr hreview)] at h
    by_cases hnone : proposals.filter isAllowed = []
    · rw [if_pos hnone] at h
      obtain rfl := Except.ok.inj h
      constructor
      · exact fun _ _ _ => ⟨nofun, List.not_mem_nil⟩
      · exact fun _ _ _ _ => rfl
      · exact nofun
      · intro _
        have hperm := (partition_perm proposals).map proposalId
        rw [hreview, hnone] at hperm
        simpa [deniedResolution] using hperm
    · rw [if_neg hnone] at h
      obtain ⟨same, -, h⟩ := Except.bind_eq_ok.mp h
      cases same with
      | true =>
        obtain ⟨selected, hselected⟩ := exists_highestPriority hnone
        rw [if_pos rfl, hselected] at h
        obtain rfl := Except.ok.inj h
        have hmem := mem_highestPriority hselected
        constructor
        · intro p hp hdenied
          refine ⟨fun hid => ?_, List.not_mem_nil⟩
          exact allowed_ne_denied hids hp hdenied hmem (Option.some.inj hid)
        · intro p hp hfree heffect
          exact absurd heffect (no_confirmation hreview hp hfree)
        · exact nofun
        · exact fun hstatus => absurd rfl hstatus
      | false =>
        rw [if_neg Bool.false_ne_true] at h
        exact selectSafest_safe hids hreview hnone h
  · rw [if_pos hreview] at h
    obtain rfl := Except.ok.inj h
    exact reviewResolution_safe hids

end Safety

/-! ## Conflict resolution -/

section Resolution

variable {floats : FloatText} {refuses : Json → Bool}

theorem resolve_eq {key : String} (hne : proposals ≠ []) (hkey : ∀ p ∈ proposals, p.resourceKey = key) :
    resolve floats refuses proposals = resolveShared floats refuses key proposals := by
  cases proposals with
  | nil => exact absurd rfl hne
  | cons first rest =>
    have hfirst := hkey first List.mem_cons_self
    have hshared : ¬((first :: rest).any fun p => decide (p.resourceKey ≠ first.resourceKey)) = true := by
      rw [List.any_eq_true]
      rintro ⟨p, hp, hother⟩
      exact of_decide_eq_true hother ((hkey p hp).trans hfirst.symm)
    rw [resolve, if_neg hshared, hfirst]

/-- Where every text can be written, the resolver comes to a resolution. -/
theorem resolveShared_returns {key : String} (hids : (proposals.map proposalId).Nodup)
    (hwritten : ∀ p ∈ proposals, refuses p.action = false) :
    ∃ r, resolveShared floats refuses key proposals = .ok r := by
  rw [resolveShared]
  split
  · exact ⟨_, rfl⟩
  · split
    · exact ⟨_, rfl⟩
    · next hnone =>
        obtain ⟨same, hsame⟩ := @allSameAction_written _ floats _ hnone
          fun p hp => hwritten p (List.mem_of_mem_filter hp)
        rw [hsame, Except.ok_bind]
        cases same with
        | true =>
          obtain ⟨selected, hselected⟩ := exists_highestPriority hnone
          rw [if_pos rfl, hselected]
          exact ⟨_, rfl⟩
        | false =>
          rw [if_neg Bool.false_ne_true]
          have hallowed : ((proposals.filter isAllowed).map proposalId).Nodup :=
            hids.sublist (List.filter_sublist.map proposalId)
          rcases selectSafest_cases key (proposals.filter isDenied) hallowed.of_map hnone with
            ⟨_, -, heq⟩ | ⟨-, heq⟩
          · exact ⟨_, heq⟩
          · exact ⟨_, heq⟩

end Resolution

/-- **Conflict resolution** is safe and, wherever it comes to a result, free of the order; it does come to
one when the texts of the actions can be written. -/
theorem conflict_resolution (floats : FloatText) (refuses : Json → Bool) {key : String} (hne : proposals ≠ [])
    (hids : (proposals.map proposalId).Nodup) (hkey : ∀ p ∈ proposals, p.resourceKey = key) :
    (∀ r, resolve floats refuses proposals = .ok r → Safe proposals r) ∧
    (∀ proposals' r r', proposals.Perm proposals' → resolve floats refuses proposals = .ok r →
      resolve floats refuses proposals' = .ok r' → SaysSame r r') ∧
    ((∀ p ∈ proposals, refuses p.action = false) → ∃ r, resolve floats refuses proposals = .ok r) := by
  rw [resolve_eq hne hkey]
  refine ⟨fun r h => resolveShared_safe hids h, fun proposals' r r' hperm h h' => ?_,
    resolveShared_returns hids⟩
  have hne' : proposals' ≠ [] := fun hnil => hne (List.Perm.eq_nil (hnil ▸ hperm))
  rw [resolve_eq hne' fun p hp => hkey p (hperm.mem_iff.mpr hp)] at h'
  exact resolveShared_same hids hperm h h'

def restartProposal (id : AgentProposalId) (filled : Text.isBlank id = false) (capability : String)
    (capable : Text.isBlank capability = false) (arguments : JsonMapping) (priority : Int) :
    AgentActionProposal where
  proposalId := id
  agentId := "agent"
  taskId := "task"
  capability := capability
  resourceKey := "api"
  target := some "api"
  arguments := arguments
  evidenceIds := ["evidence-" ++ id]
  sideEffect := .reversible
  risk := .low
  policyEffect := .allow
  constraints := .plain
  priority := priority
  id_filled := filled
  agent_filled := by decide
  task_filled := by decide
  capability_filled := capable
  resource_filled := by decide

theorem conflict_resolution_two : ∃ r, resolve Runtime.Actions.plainFloats (fun v => !v.isPlain)
    [restartProposal "a" (by decide) "restart" (by decide) [] 1,
      restartProposal "b" (by decide) "stop" (by decide) [] 2] = .ok r :=
  (@conflict_resolution _ Runtime.Actions.plainFloats (fun v => !v.isPlain) "api" (by simp) (by decide)
    (by simp [restartProposal])).2.2 (by decide)

/-- Three proposals, one with an argument that has no JSON text. If its text is asked for first nothing is
resolved; if the other two are seen to differ before, it is not asked for. -/
theorem order_shows : resolve Runtime.Actions.plainFloats (fun v => !v.isPlain)
      [restartProposal "c" (by decide) "scale" (by decide) [("n", .int (2 ^ 64))] 0,
        restartProposal "a" (by decide) "restart" (by decide) [] 1,
        restartProposal "b" (by decide) "stop" (by decide) [] 2] = .error .jsonCodec ∧
    (resolve Runtime.Actions.plainFloats (fun v => !v.isPlain)
      [restartProposal "a" (by decide) "restart" (by decide) [] 1,
        restartProposal "b" (by decide) "stop" (by decide) [] 2,
        restartProposal "c" (by decide) "scale" (by decide) [("n", .int (2 ^ 64))] 0]).map
      (fun r => (r.status, r.selectedProposalId)) = .ok (.selected, some "b") := by
  decide +kernel

end UniversalAgent.MultiAgent
