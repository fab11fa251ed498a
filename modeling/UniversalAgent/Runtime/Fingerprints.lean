import UniversalAgent.Core.JsonText
import UniversalAgent.Runtime.Actions

/-!
# Runtime — Fingerprints

Whether the fingerprint of an action (`_action_fingerprint` in `runtime/actions.py`) tells it from every
other. It is the capability, the target and the canonical text of the arguments, joined with bars. The text
has its bars in quotation marks, so it is told from what comes before. The capability is told from the target
only if no name goes on, behind a bar, from another name: the registry asks of a name that it is not blank,
and is new.
-/

namespace UniversalAgent.Runtime.Actions

open UniversalAgent.Core UniversalAgent.Foundation UniversalAgent.Domains UniversalAgent.Tools

def ActionExecutor.writing (executor : ActionExecutor) (floats : FloatText) : ActionExecutor :=
  { executor with canonicalText := fun arguments => JsonText.dumps floats (.obj arguments) }

def Registered (registry : CapabilityRegistry) (name : String) : Prop := (registry.get? name).isSome = true

/-- Two actions of one capability, target and canonical arguments. No target is the empty target. -/
structure SameAction (p q : PendingAction) : Prop where
  capability : p.capability = q.capability
  target : p.target.getD "" = q.target.getD ""
  arguments : JsonText.canonical (.obj p.arguments) = JsonText.canonical (.obj q.arguments)

def Distinguished (executor : ActionExecutor) (registry : CapabilityRegistry) : Prop :=
  ∀ p q, Registered registry p.capability → Registered registry q.capability →
    actionFingerprint executor p = actionFingerprint executor q → SameAction p q

def NamesApart (registry : CapabilityRegistry) : Prop :=
  ∀ name name', Registered registry name → Registered registry name' → ∀ w, name' ≠ name ++ "|" ++ w

section Fingerprints

variable {executor : ActionExecutor} {floats : FloatText} {registry : CapabilityRegistry}
  {p q : PendingAction}

theorem toList_fingerprint (executor : ActionExecutor) (floats : FloatText) (p : PendingAction) :
    (actionFingerprint (executor.writing floats) p).toList =
      (p.capability.toList ++ '|' :: (p.target.getD "").toList) ++
        '|' :: (JsonText.dumps floats (.obj p.arguments)).toList := by
  unfold actionFingerprint
  simp only [String.toList_append, List.append_assoc]
  rfl

/-- Equal fingerprints are of the same arguments, and of names and targets with one joined text. -/
theorem of_fingerprint_eq
    (h : actionFingerprint (executor.writing floats) p = actionFingerprint (executor.writing floats) q) :
    JsonText.canonical (.obj p.arguments) = JsonText.canonical (.obj q.arguments) ∧
      p.capability.toList ++ '|' :: (p.target.getD "").toList =
        q.capability.toList ++ '|' :: (q.target.getD "").toList := by
  have hlist := congrArg String.toList h
  rw [toList_fingerprint, toList_fingerprint,
    append_quoted_eq_iff (by decide) (by decide) (JsonText.quoted_dumps floats _)
      (JsonText.quoted_dumps floats _)] at hlist
  exact ⟨JsonText.dumps_injective (String.toList_inj.mp hlist.2), hlist.1⟩

theorem continues_of_toList {name name' : String} {w : List Char} (h : name'.toList = name.toList ++ '|' :: w) :
    name' = name ++ "|" ++ String.ofList w := by
  rw [← String.toList_inj, h]
  simp

theorem distinguished_of_apart (h : NamesApart registry) : Distinguished (executor.writing floats) registry := by
  intro p q hp hq hfingerprint
  obtain ⟨harguments, hjoined⟩ := of_fingerprint_eq hfingerprint
  rcases append_cons_eq_iff.mp hjoined with ⟨hname, htarget⟩ | ⟨w, hname, -⟩ | ⟨w, hname, -⟩
  · exact ⟨String.toList_inj.mp hname, String.toList_inj.mp htarget, harguments⟩
  · exact absurd (continues_of_toList hname) (h _ _ hp hq _)
  · exact absurd (continues_of_toList hname) (h _ _ hq hp _)

def actionOn (capability target : String) : PendingAction where
  actionId := "action-1"
  capability := capability
  toolName := "tool"
  target := some target
  arguments := []
  domainName := ""
  domainVersion := ""
  idempotencyKey := ""
  parametersHash := ""
  attempt := 1
  resourceKey := ""
  resourceVersion := none

/-- What goes on in the one name begins the other's target. -/
theorem fingerprint_shared (executor : ActionExecutor) (name w target : String) :
    actionFingerprint executor (actionOn name (w ++ "|" ++ target)) =
      actionFingerprint executor (actionOn (name ++ "|" ++ w) target) := by
  unfold actionFingerprint actionOn
  simp only [Option.getD_some, String.append_assoc]

theorem append_bar_ne (name w : String) : name ++ "|" ++ w ≠ name := by
  intro h
  have hlength := congrArg String.length h
  rw [String.length_append, String.length_append] at hlength
  have hbar : "|".length = 1 := rfl
  omega

end Fingerprints

/-- **Fingerprints** tell the actions of the registered capabilities apart exactly if no name goes on from
another behind a bar. -/
theorem fingerprints_distinguish (executor : ActionExecutor) (floats : FloatText)
    (registry : CapabilityRegistry) :
    Distinguished (executor.writing floats) registry ↔ NamesApart registry := by
  refine ⟨fun h name name' hname hname' w heq => ?_, distinguished_of_apart⟩
  subst heq
  have hsame := h (actionOn name (w ++ "|" ++ "")) (actionOn (name ++ "|" ++ w) "") hname hname'
    (fingerprint_shared _ _ _ _)
  exact append_bar_ne name w hsame.capability.symm

/-- Texts of floats: the numerator and, behind a point, how far the denominator is from one. A whole float's
text is as `1.0`. -/
def plainFloats : FloatText where
  text q := q.num.repr ++ "." ++ (q.den - 1).repr
  number q c hc := by
    rw [String.toList_append, String.toList_append, List.mem_append, List.mem_append] at hc
    rcases hc with (hc | hc) | hc
    · exact JsonText.int_number _ c hc
    · rw [List.mem_singleton.mp hc]
      decide
    · unfold isNumberChar
      rw [Text.isDigit_of_mem_toString hc]
      rfl
  fraction q := by
    refine .inl ?_
    rw [String.toList_append, String.toList_append]
    simp
  injective := by
    intro q q' h
    have hlist := congrArg String.toList h
    have hpoint : ∀ i : Int, '.' ∉ i.repr.toList := fun i hc =>
      absurd (JsonText.int_chars i _ hc) (by decide)
    simp only [String.toList_append, List.append_assoc] at hlist
    rcases (append_cons_eq_iff_of_notMem (hpoint _)).mp hlist with ⟨hnum, hden⟩ | ⟨w, hnum, -⟩
    case inr =>
      refine absurd ?_ (hpoint q'.num)
      rw [hnum]
      exact List.mem_append_right _ List.mem_cons_self
    have hnum' := Int.repr_injective (String.toList_inj.mp hnum)
    have hden' := Text.toString_injective (String.toList_inj.mp hden)
    have hq := q.den_pos
    have hq' := q'.den_pos
    exact Rat.ext hnum' (by omega)

/-- Two capabilities of which the one's name goes on from the other's: what is approved for the one on a
target is approved for the other. -/
theorem approval_of_another :
    (∃ registry registry',
      CapabilityRegistry.register .empty ⟨"deploy", .mutation⟩ none = .ok registry ∧
      CapabilityRegistry.register registry ⟨"deploy|rollback", .mutation⟩ none = .ok registry' ∧
      Registered registry' "deploy" ∧ Registered registry' "deploy|rollback") ∧
    (∀ executor : ActionExecutor,
      actionFingerprint executor (actionOn "deploy" "rollback|api") =
        actionFingerprint executor (actionOn "deploy|rollback" "api")) ∧
    ¬SameAction (actionOn "deploy" "rollback|api") (actionOn "deploy|rollback" "api") :=
  ⟨⟨_, _, rfl, rfl, by unfold Registered; decide +kernel, by unfold Registered; decide +kernel⟩,
    fun executor => fingerprint_shared executor "deploy" "rollback" "api",
    fun h => absurd h.capability (by decide)⟩

end UniversalAgent.Runtime.Actions
