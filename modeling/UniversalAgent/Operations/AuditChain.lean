import UniversalAgent.Core.Models
import UniversalAgent.Core.OffsetDateTime
import UniversalAgent.Core.UniqueKeys
import UniversalAgent.Foundation.Sorting
import UniversalAgent.Runtime.Fingerprints

/-!
# Operations — AuditChain

The integrity report over audit records (`operations/audit_logs.py`): the records in the order of their times
and ids, each hashed together with the hash before it. The hash is a function of texts.
-/

namespace UniversalAgent.Operations

open UniversalAgent.Core UniversalAgent.Foundation

structure AuditRecordView where
  recordId : String
  sessionId : SessionId
  goalId : GoalId
  taskId : TaskId
  actionId : Option ActionId
  capability : String
  toolName : String
  sideEffect : String
  risk : String
  policyEffect : String
  policyName : String
  status : String
  occurredAt : OffsetDateTime
  completedAt : Option OffsetDateTime
  errorCode : Option ErrorCode
deriving DecidableEq

structure AuditIntegrityRecordView where
  recordId : String
  previousHash : String
  recordHash : String
deriving DecidableEq

structure AuditIntegrityReportView where
  recordCount : Nat
  headHash : String
  records : List AuditIntegrityRecordView
deriving DecidableEq

/-- `None if value is None else str(value)`. -/
def optionalText {α : Type} (text : α → String) (value : Option α) : Json := (value.map (Json.str ∘ text)).getD .null

/-- `_audit_record_hash_payload`. -/
def auditRecordHashPayload (r : AuditRecordView) : JsonMapping :=
  [("record_id", .str r.recordId), ("session_id", .str r.sessionId), ("goal_id", .str r.goalId),
    ("task_id", .str r.taskId), ("action_id", optionalText id r.actionId), ("capability", .str r.capability),
    ("tool_name", .str r.toolName), ("side_effect", .str r.sideEffect), ("risk", .str r.risk),
    ("policy_effect", .str r.policyEffect), ("policy_name", .str r.policyName), ("status", .str r.status),
    ("occurred_at", .str r.occurredAt.isoformat),
    ("completed_at", optionalText OffsetDateTime.isoformat r.completedAt),
    ("error_code", optionalText ErrorCode.text r.errorCode)]

section Chain

variable (floats : FloatText) (hash : String → String)

/-- What a link is hashed from: `{"previous_hash": ..., "record": ...}`. -/
def linkText (previousHash : String) (r : AuditRecordView) : String :=
  JsonText.dumps floats (.obj [("previous_hash", .str previousHash), ("record", .obj (auditRecordHashPayload r))])

/-- `_hash_text("audit-chain-v1")`. -/
def genesis : String := hash "audit-chain-v1"

/-- One turn of the loop of `build_audit_integrity`. -/
def addLink (chain : String × List AuditIntegrityRecordView) (r : AuditRecordView) :
    String × List AuditIntegrityRecordView :=
  let recordHash := hash (linkText floats chain.1 r)
  (recordHash, chain.2 ++ [⟨r.recordId, chain.1, recordHash⟩])

/-- `(item.occurred_at, item.record_id)`, compared. -/
def SortsBefore (a b : AuditRecordView) : Prop :=
  a.occurredAt.moment < b.occurredAt.moment ∨
    a.occurredAt.moment = b.occurredAt.moment ∧ a.recordId ≤ b.recordId

instance (a b : AuditRecordView) : Decidable (SortsBefore a b) := inferInstanceAs (Decidable (_ ∨ _))

def sortedRecords (records : List AuditRecordView) : List AuditRecordView := records.insertionSort SortsBefore

def buildAuditIntegrity (records : List AuditRecordView) : AuditIntegrityReportView :=
  let chain := (sortedRecords records).foldl (addLink floats hash) (genesis hash, [])
  ⟨records.length, chain.1, chain.2⟩

end Chain

/-! ## The text of a link -/

section LinkText

variable {floats : FloatText} {a b : AuditRecordView} {p q : String}

theorem optionalText_injective {α : Type} {text : α → String} (h : Function.Injective text) {x y : Option α}
    (he : JsonText.canonical (optionalText text x) = JsonText.canonical (optionalText text y)) : x = y := by
  cases x <;> cases y
  · rfl
  · cases he
  · cases he
  · exact congrArg some (h (Json.str.inj he))

theorem payload_nodup (r : AuditRecordView) : ((auditRecordHashPayload r).map Prod.fst).Nodup := by
  simp [auditRecordHashPayload]

/-- Two records with one canonical payload are equal in every field. -/
theorem payload_injective (h : JsonText.canonical (.obj (auditRecordHashPayload a)) =
    JsonText.canonical (.obj (auditRecordHashPayload b))) : a = b := by
  have hkey := JsonText.lookup_of_canonical_eq (payload_nodup a) (payload_nodup b) h
  have hiso := OffsetDateTime.isoformat_injective
  cases a
  cases b
  congr
  · exact Json.str.inj (Option.some.inj (hkey "record_id"))
  · exact Json.str.inj (Option.some.inj (hkey "session_id"))
  · exact Json.str.inj (Option.some.inj (hkey "goal_id"))
  · exact Json.str.inj (Option.some.inj (hkey "task_id"))
  · exact optionalText_injective (fun _ _ h => h) (Option.some.inj (hkey "action_id"))
  · exact Json.str.inj (Option.some.inj (hkey "capability"))
  · exact Json.str.inj (Option.some.inj (hkey "tool_name"))
  · exact Json.str.inj (Option.some.inj (hkey "side_effect"))
  · exact Json.str.inj (Option.some.inj (hkey "risk"))
  · exact Json.str.inj (Option.some.inj (hkey "policy_effect"))
  · exact Json.str.inj (Option.some.inj (hkey "policy_name"))
  · exact Json.str.inj (Option.some.inj (hkey "status"))
  · exact hiso (Json.str.inj (Option.some.inj (hkey "occurred_at")))
  · exact optionalText_injective hiso (Option.some.inj (hkey "completed_at"))
  · exact optionalText_injective StrEnum.value_injective (Option.some.inj (hkey "error_code"))

theorem linkText_injective (h : linkText floats p a = linkText floats q b) : p = q ∧ a = b := by
  have hkey := JsonText.lookup_of_canonical_eq (by simp) (by simp) (JsonText.dumps_injective h)
  exact ⟨Json.str.inj (Option.some.inj (hkey "previous_hash")), payload_injective (Option.some.inj (hkey "record"))⟩

/-- No link is hashed from the text that the chain starts with. -/
theorem linkText_ne : linkText floats p a ≠ "audit-chain-v1" := by
  intro h
  have hhead := congrArg (fun s => s.toList.head?) h
  simp [linkText, JsonText.dumps, JsonText.sortKeys, JsonText.write] at hhead

end LinkText

/-! ## The chain -/

section Head

variable {floats : FloatText} {hash : String → String} {records records' : List AuditRecordView}

/-- The hash after the records. -/
def headHash (floats : FloatText) (hash : String → String) (records : List AuditRecordView) : String :=
  (records.foldl (addLink floats hash) (genesis hash, [])).1

theorem headHash_snoc (r : AuditRecordView) :
    headHash floats hash (records ++ [r]) = hash (linkText floats (headHash floats hash records) r) := by
  rw [headHash, List.foldl_append, ← Prod.mk.eta (p := records.foldl (addLink floats hash) (genesis hash, []))]
  rfl

/-- Two sequences of records with one head are the same. -/
theorem headHash_injective (hhash : Function.Injective hash)
    (h : headHash floats hash records = headHash floats hash records') : records = records' := by
  induction records using List.reverseRecOn generalizing records' with
  | nil =>
    cases records' using List.reverseRecOn with
    | nil => rfl
    | append_singleton records' r =>
      rw [headHash_snoc] at h
      exact absurd (hhash h).symm linkText_ne
  | append_singleton records r ih =>
    cases records' using List.reverseRecOn with
    | nil =>
      rw [headHash_snoc] at h
      exact absurd (hhash h) linkText_ne
    | append_singleton records' r' =>
      rw [headHash_snoc, headHash_snoc] at h
      obtain ⟨hprevious, rfl⟩ := linkText_injective (hhash h)
      rw [ih hprevious]

/-- Links are added behind those that there are. -/
theorem links_eq (chain : String × List AuditIntegrityRecordView) : ∃ more,
    (records.foldl (addLink floats hash) chain).2 = chain.2 ++ more ∧
      more.map AuditIntegrityRecordView.recordId = records.map AuditRecordView.recordId := by
  induction records generalizing chain with
  | nil => exact ⟨[], (List.append_nil _).symm, rfl⟩
  | cons r records ih =>
    obtain ⟨more, hmore, hids⟩ := ih (addLink floats hash chain r)
    refine ⟨⟨r.recordId, chain.1, hash (linkText floats chain.1 r)⟩ :: more, ?_,
      congrArg (List.cons r.recordId) hids⟩
    rw [List.foldl_cons, hmore, addLink, List.append_assoc, List.singleton_append]

/-- The link of a record, by its id. -/
theorem find_link {r : AuditRecordView} {before after : List AuditRecordView}
    (h : r.recordId ∉ before.map AuditRecordView.recordId) :
    ((before ++ r :: after).foldl (addLink floats hash) (genesis hash, [])).2.find?
      (fun link => link.recordId = r.recordId) =
        some ⟨r.recordId, headHash floats hash before, headHash floats hash (before ++ [r])⟩ := by
  obtain ⟨links, hlinks, hids⟩ := @links_eq floats hash before (genesis hash, [])
  rw [List.nil_append] at hlinks
  obtain ⟨more, hmore, -⟩ :=
    @links_eq floats hash after (addLink floats hash (before.foldl (addLink floats hash) (genesis hash, [])) r)
  have hnone : links.find? (fun link => link.recordId = r.recordId) = none := by
    rw [List.find?_eq_none]
    intro link hlink he
    rw [← hids] at h
    exact h (of_decide_eq_true he ▸ List.mem_map_of_mem hlink)
  rw [List.foldl_append, List.foldl_cons, hmore, addLink, hlinks, List.append_assoc, List.find?_append, hnone,
    Option.none_or, List.singleton_append, List.find?_cons_of_pos (by simp), headHash_snoc]
  rfl

end Head

/-! ## The order -/

section Order

variable {records records' : List AuditRecordView} {a b c : AuditRecordView}

def occurredMoment (r : AuditRecordView) : Int := r.occurredAt.moment

instance : Std.Total SortsBefore where
  total _ _ := Then.total occurredMoment (·.recordId ≤ ·.recordId) (le_total _ _)

instance : IsTrans AuditRecordView SortsBefore where
  trans _ _ _ := Then.trans occurredMoment (·.recordId ≤ ·.recordId) le_trans

/-- Records that each come before the other have one id. -/
theorem SortsBefore.id_eq (hab : SortsBefore a b) (hba : SortsBefore b a) : a.recordId = b.recordId :=
  (Then.tie occurredMoment (·.recordId ≤ ·.recordId) hab hba).elim le_antisymm

theorem sorted_pairwise (records : List AuditRecordView) : (sortedRecords records).Pairwise SortsBefore :=
  List.pairwise_insertionSort _ _

theorem sorted_perm (records : List AuditRecordView) : (sortedRecords records).Perm records :=
  List.perm_insertionSort _ _

/-- The order in which the records are passed does not matter. -/
theorem sorted_congr (hids : (records.map AuditRecordView.recordId).Nodup) (hperm : records.Perm records') :
    sortedRecords records = sortedRecords records' :=
  insertionSort_eq_of_perm hperm fun _ ha _ hb hab hba => List.inj_on_of_nodup_map hids ha hb (hab.id_eq hba)

theorem sorted_eq_iff (hids : (records.map AuditRecordView.recordId).Nodup)
    (hids' : (records'.map AuditRecordView.recordId).Nodup) :
    sortedRecords records = sortedRecords records' ↔ ∀ r, r ∈ records ↔ r ∈ records' := by
  constructor
  · intro h r
    rw [← (sorted_perm records).mem_iff, h, (sorted_perm records').mem_iff]
  · intro h
    exact sorted_congr hids ((List.perm_ext_iff_of_nodup hids.of_map hids'.of_map).mpr h)

end Order

/-! ## Tampering is seen -/

section Integrity

variable {floats : FloatText} {hash : String → String} {records records' : List AuditRecordView}

/-- The hash of the link of a record. -/
def linkHash (report : AuditIntegrityReportView) (recordId : String) : Option String :=
  (report.records.find? fun link => link.recordId = recordId).map AuditIntegrityRecordView.recordHash

/-- The records up to one of them. -/
def upTo (records : List AuditRecordView) (r : AuditRecordView) : List AuditRecordView :=
  records.filter fun x => decide (SortsBefore x r)

theorem sorted_upTo (hids : (records.map AuditRecordView.recordId).Nodup) {r : AuditRecordView} (hr : r ∈ records) :
    ∃ before after, sortedRecords records = before ++ r :: after ∧ sortedRecords (upTo records r) = before ++ [r] ∧
      r.recordId ∉ before.map AuditRecordView.recordId := by
  obtain ⟨before, after, he⟩ := List.append_of_mem ((sorted_perm records).mem_iff.mpr hr)
  have hpairwise := sorted_pairwise records
  have hnodup := ((sorted_perm records).map AuditRecordView.recordId).nodup_iff.mpr hids
  rw [he] at hpairwise hnodup
  rw [List.map_append, List.map_cons] at hnodup
  obtain ⟨-, hsorted, hbefore⟩ := List.pairwise_append.mp hpairwise
  have hafter : ∀ x ∈ after, ¬SortsBefore x r := by
    intro x hx hxr
    have hid := ((List.pairwise_cons.mp hsorted).1 x hx).id_eq hxr
    have hfresh := (List.nodup_cons.mp (List.nodup_append.mp hnodup).2.1).1
    exact hfresh (hid ▸ List.mem_map_of_mem hx)
  refine ⟨before, after, he, ?_, fun hmem => ?_⟩
  · have hfilter : sortedRecords (upTo records r) = (sortedRecords records).filter fun x => decide (SortsBefore x r) :=
      (filter_insertionSort _).symm
    have hrefl : SortsBefore r r := .inr ⟨rfl, String.le_refl _⟩
    rw [hfilter, he, List.filter_append, List.filter_cons, if_pos (decide_eq_true hrefl),
      List.filter_eq_self.mpr fun x hx => decide_eq_true (hbefore x hx r List.mem_cons_self),
      List.filter_eq_nil_iff.mpr fun x hx h => hafter x hx (of_decide_eq_true h)]
  · exact (List.nodup_append.mp hnodup).2.2 _ hmem _ List.mem_cons_self rfl

/-- The link of a record has the hash of the records up to it. -/
theorem linkHash_eq (hids : (records.map AuditRecordView.recordId).Nodup) {r : AuditRecordView} (hr : r ∈ records) :
    linkHash (buildAuditIntegrity floats hash records) r.recordId =
      some (headHash floats hash (sortedRecords (upTo records r))) := by
  obtain ⟨before, after, he, hupTo, hfresh⟩ := sorted_upTo hids hr
  rw [linkHash, buildAuditIntegrity]
  dsimp only
  rw [he, find_link hfresh, hupTo]
  rfl

theorem linkHash_eq_iff (hhash : Function.Injective hash) (hids : (records.map AuditRecordView.recordId).Nodup)
    (hids' : (records'.map AuditRecordView.recordId).Nodup) {r r' : AuditRecordView} (hr : r ∈ records)
    (hr' : r' ∈ records') : linkHash (buildAuditIntegrity floats hash records) r.recordId =
        linkHash (buildAuditIntegrity floats hash records') r'.recordId ↔
      ∀ x, x ∈ records ∧ SortsBefore x r ↔ x ∈ records' ∧ SortsBefore x r' := by
  rw [linkHash_eq hids hr, linkHash_eq hids' hr', Option.some_inj]
  have hsub : ∀ (l : List AuditRecordView) (r : AuditRecordView), (l.map AuditRecordView.recordId).Nodup →
      ((upTo l r).map AuditRecordView.recordId).Nodup := fun l r h => h.sublist (List.filter_sublist.map _)
  have hmem : ∀ (l : List AuditRecordView) (r x : AuditRecordView), x ∈ upTo l r ↔ x ∈ l ∧ SortsBefore x r :=
    fun l r x => List.mem_filter.trans (and_congr_right fun _ => decide_eq_true_iff)
  constructor
  · intro h x
    have hsame := (sorted_eq_iff (hsub records r hids) (hsub records' r' hids')).mp (headHash_injective hhash h) x
    rwa [hmem, hmem] at hsame
  · intro h
    refine congrArg _ ((sorted_eq_iff (hsub records r hids) (hsub records' r' hids')).mpr fun x => ?_)
    rw [hmem, hmem]
    exact h x

/-- **The audit chain** shows in its head which records there are, whatever their order, and in the hash of
each link which records there are up to the link's; so a record that only one of two collections has
makes a difference to every later link. -/
theorem audit_chain (floats : FloatText) (hhash : Function.Injective hash)
    (hids : (records.map AuditRecordView.recordId).Nodup) (hids' : (records'.map AuditRecordView.recordId).Nodup) :
    ((buildAuditIntegrity floats hash records).headHash = (buildAuditIntegrity floats hash records').headHash ↔
      ∀ r, r ∈ records ↔ r ∈ records') ∧
    (∀ r ∈ records, ∀ r' ∈ records', linkHash (buildAuditIntegrity floats hash records) r.recordId =
        linkHash (buildAuditIntegrity floats hash records') r'.recordId ↔
      ∀ x, x ∈ records ∧ SortsBefore x r ↔ x ∈ records' ∧ SortsBefore x r') ∧
    ∀ x, (x ∈ records ↔ x ∉ records') → ∀ r ∈ records, r ∈ records' → SortsBefore x r →
      linkHash (buildAuditIntegrity floats hash records) r.recordId ≠
        linkHash (buildAuditIntegrity floats hash records') r.recordId := by
  refine ⟨?_, fun r hr r' hr' => linkHash_eq_iff hhash hids hids' hr hr', fun x hx r hr hr' hbefore he => ?_⟩
  · rw [← sorted_eq_iff hids hids']
    exact ⟨headHash_injective hhash, congrArg (headHash floats hash)⟩
  · have hsame := (linkHash_eq_iff hhash hids hids' hr hr').mp he x
    tauto

/-- A record of midnight, with an offset in minutes. -/
def recordAt (id : String) (minutes : Int) (h : (minutes * 60000000).natAbs < dayMicroseconds) : AuditRecordView :=
  ⟨id, "session-1", "goal-1", "task-1", some "action-1", "restart", "kubectl", "reversible", "medium", "allow",
    "default", "completed",
    ⟨⟨2026, 1, 1, 0, DateTime.newYear_isDate, DateTime.midnight_isTime⟩, minutes * 60000000, h⟩, none, none⟩

/-- Two records in either order; one of one moment with another offset makes another head. -/
theorem audit_chain_two :
    let first := recordAt "audit-1" 0 (by decide)
    let second := recordAt "audit-2" 60 (by decide)
    let report := buildAuditIntegrity Runtime.Actions.plainFloats id
    (report [first, second]).headHash = (report [second, first]).headHash ∧
      (report [first]).headHash ≠ (report [first, second]).headHash := by
  intro first second report
  constructor
  · refine (audit_chain _ Function.injective_id (by decide) (by decide)).1.mpr fun r => ?_
    rw [List.mem_pair, List.mem_pair, or_comm]
  · intro h
    have hmem := ((audit_chain _ Function.injective_id (by decide) (by decide)).1.mp h second).mpr (by simp)
    exact absurd hmem (by decide)

end Integrity

/-! ## Later records -/

section Later

variable {floats : FloatText} {hash : String → String} {records more : List AuditRecordView}

/-- Each link names the hash of the one before it; the last hash is the head. -/
def Linked (previous head : String) : List AuditIntegrityRecordView → Prop
  | [] => previous = head
  | link :: links => link.previousHash = previous ∧ Linked link.recordHash head links

theorem linked_links (chain : String × List AuditIntegrityRecordView) : ∃ links,
    (records.foldl (addLink floats hash) chain).2 = chain.2 ++ links ∧
      links.map AuditIntegrityRecordView.recordId = records.map AuditRecordView.recordId ∧
      Linked chain.1 (records.foldl (addLink floats hash) chain).1 links := by
  induction records generalizing chain with
  | nil => exact ⟨[], (List.append_nil _).symm, rfl, rfl⟩
  | cons r records ih =>
    obtain ⟨links, hlinks, hids, hlinked⟩ := ih (addLink floats hash chain r)
    refine ⟨⟨r.recordId, chain.1, hash (linkText floats chain.1 r)⟩ :: links, ?_,
      congrArg (List.cons r.recordId) hids, rfl, hlinked⟩
    rw [List.foldl_cons, hlinks, addLink, List.append_assoc, List.singleton_append]

/-- **Later records** leave the links that there are as they are: theirs are added behind, each linked to the one
before it, the first to the old head. -/
theorem integrity_extends (floats : FloatText) (hash : String → String)
    (hlater : ∀ r ∈ records, ∀ x ∈ more, SortsBefore r x) :
    ∃ links, (buildAuditIntegrity floats hash (records ++ more)).records =
        (buildAuditIntegrity floats hash records).records ++ links ∧
      links.map AuditIntegrityRecordView.recordId = (sortedRecords more).map AuditRecordView.recordId ∧
      Linked (buildAuditIntegrity floats hash records).headHash
        (buildAuditIntegrity floats hash (records ++ more)).headHash links := by
  obtain ⟨links, hlinks, hids, hlinked⟩ := @linked_links floats hash (sortedRecords more)
    ((sortedRecords records).foldl (addLink floats hash) (genesis hash, []))
  have hsorted : sortedRecords (records ++ more) = sortedRecords records ++ sortedRecords more :=
    insertionSort_append hlater
  refine ⟨links, ?_, hids, ?_⟩
  · rw [buildAuditIntegrity, hsorted, List.foldl_append, hlinks]
    rfl
  · rw [buildAuditIntegrity, buildAuditIntegrity, hsorted, List.foldl_append]
    exact hlinked

/-- A record behind another. -/
theorem integrity_extends_one :
    let report := buildAuditIntegrity Runtime.Actions.plainFloats id
    let first := recordAt "audit-1" 0 (by decide)
    let second := recordAt "audit-2" (-60) (by decide)
    ∃ links, (report ([first] ++ [second])).records = (report [first]).records ++ links ∧
      links.map AuditIntegrityRecordView.recordId = ["audit-2"] ∧
      Linked (report [first]).headHash (report ([first] ++ [second])).headHash links :=
  integrity_extends _ _ (by decide)

end Later

end UniversalAgent.Operations
