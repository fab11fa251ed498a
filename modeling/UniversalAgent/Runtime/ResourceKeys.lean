import UniversalAgent.Foundation.Separators
import UniversalAgent.Foundation.Stripping
import UniversalAgent.Runtime.Fingerprints

/-!
# Runtime — ResourceKeys

When two actions have one resource key. The key is the action's target, or its namespace and name, or, for
a name without a namespace, the name behind the capability.
-/

namespace UniversalAgent.Runtime.Actions

open UniversalAgent.Core UniversalAgent.Foundation

structure UnkeyedAction where
  pending : PendingAction
  sideEffect : SideEffect
  effect : sideEffect ≠ .none
  fresh : pending.resourceKey = ""
  unkeyed : ∀ key ∈ ["resource_key", "resource", "target", "id"], pending.arguments.lookup key = none

namespace UnkeyedAction

def target (a : UnkeyedAction) : Option String := strippedText (a.pending.target.map .str)

def ns (a : UnkeyedAction) : Option String := strippedText (a.pending.arguments.lookup "namespace")

def name (a : UnkeyedAction) : Option String := strippedText (a.pending.arguments.lookup "name")

/-- The key of its lock and of its version. -/
def key (a : UnkeyedAction) : String := (ensureResourceMetadata a.pending a.sideEffect).resourceKey

end UnkeyedAction

/-- One resource has one key, whatever the capabilities, and resources of two namespaces have two. -/
structure Identified (a b : UnkeyedAction) : Prop where
  same : a.target = b.target → a.ns = b.ns → a.name = b.name → a.key = b.key
  apart : ∀ ns ∈ a.ns, ∀ ns' ∈ b.ns, ns ≠ ns' → a.key ≠ b.key

/-- The namespace and name of one action, and the target of another, are one text. -/
def Spells (a b : UnkeyedAction) : Prop :=
  a.target = none ∧ ∃ ns ∈ a.ns, ∃ name ∈ a.name, b.target = some (ns ++ "/" ++ name)

/-- The namespace of one action goes on where that of the other ends, into the other's name. -/
def Continues (a b : UnkeyedAction) : Prop :=
  ∃ ns ∈ a.ns, ∃ name' ∈ b.name, ∃ middle, b.ns = some (ns ++ "/" ++ middle) ∧
    a.name = some (middle ++ "/" ++ name')

inductive Confused (a b : UnkeyedAction) : Prop where
  | target (text : String) (ha : a.target = some text) (hb : b.target = some text)
  | nameless (hta : a.target = none) (htb : b.target = none) (ha : a.name = none) (hb : b.name = none)
  | spelled (h : Spells a b ∨ Spells b a)
  | continued (hta : a.target = none) (htb : b.target = none) (h : Continues a b ∨ Continues b a)

section Keys

variable {a b : UnkeyedAction}

theorem strippedText_ne {v : Option Json} {text : String} (h : strippedText v = some text) : text ≠ "" := by
  unfold strippedText at h
  split at h
  · next s =>
    split at h
    · cases h
    · next hblank =>
      obtain rfl := Option.some.inj h
      exact fun he => hblank ((Text.isBlank_iff s).mpr he)
  · cases h

theorem UnkeyedAction.key_eq (a : UnkeyedAction) : a.key = match a.target, a.ns, a.name with
    | some target, _, _ => target
    | none, some ns, some name => ns ++ "/" ++ name
    | none, none, some name => a.pending.capability ++ ":" ++ name
    | none, _, none => "" := by
  have hkey : a.key = resourceKey a.pending.capability a.pending.target a.pending.arguments := by
    unfold key ensureResourceMetadata resourceMetadata
    rw [if_neg (by simp [a.effect, a.fresh]), if_neg a.effect]
    dsimp only
    split
    · next h => rw [a.fresh, h.1]
    · rfl
  have hnone : (["resource_key", "resource", "target", "id"].findSome? fun key =>
      strippedText (a.pending.arguments.lookup key)) = none := by
    rw [List.findSome?_eq_none_iff]
    intro key hmem
    rw [a.unkeyed key hmem]
    rfl
  rw [hkey, resourceKey, hnone, target, ns, name]
  cases strippedText (a.pending.target.map .str) <;> cases strippedText (a.pending.arguments.lookup "namespace") <;>
    cases strippedText (a.pending.arguments.lookup "name") <;> rfl

theorem joined_ne (sep : Char) (text text' : String) : text ++ String.singleton sep ++ text' ≠ "" := by
  intro h
  have hlist := congrArg String.toList h
  simp at hlist

/-- Two namespaces and names are joined to one text if one of the namespaces goes on in the other. -/
theorem joined_eq_iff {ns ns' name name' : String} (hne : ns ≠ ns') : ns ++ "/" ++ name = ns' ++ "/" ++ name' ↔
    (∃ middle, ns' = ns ++ "/" ++ middle ∧ name = middle ++ "/" ++ name') ∨
      ∃ middle, ns = ns' ++ "/" ++ middle ∧ name' = middle ++ "/" ++ name := by
  have hlist : ∀ s t u : String, s = t ++ "/" ++ u ↔ s.toList = t.toList ++ '/' :: u.toList := by
    intro s t u
    rw [← String.toList_inj, String.toList_append, String.toList_append, List.append_assoc]
    rfl
  rw [hlist, String.toList_append, String.toList_append, List.append_assoc]
  change ns.toList ++ '/' :: name.toList = _ ↔ _
  rw [append_cons_eq_iff, or_iff_right fun h => hne (String.toList_inj.mp h.1)]
  refine or_congr ⟨?_, ?_⟩ ⟨?_, ?_⟩
  · rintro ⟨w, h, h'⟩
    exact ⟨String.ofList w, (hlist _ _ _).mpr (by simpa using h), (hlist _ _ _).mpr (by simpa using h')⟩
  · rintro ⟨middle, h, h'⟩
    exact ⟨middle.toList, (hlist _ _ _).mp h, (hlist _ _ _).mp h'⟩
  · rintro ⟨w, h, h'⟩
    exact ⟨String.ofList w, (hlist _ _ _).mpr (by simpa using h), (hlist _ _ _).mpr (by simpa using h')⟩
  · rintro ⟨middle, h, h'⟩
    exact ⟨middle.toList, (hlist _ _ _).mp h, (hlist _ _ _).mp h'⟩

/-- Two actions that name one resource have one key, unless they name it by a name alone and the capabilities
differ. -/
theorem same_iff (htarget : a.target = b.target) (hns : a.ns = b.ns) (hname : a.name = b.name) :
    a.key = b.key ↔
      (a.target = none → a.ns = none → a.name ≠ none → a.pending.capability = b.pending.capability) := by
  rw [a.key_eq, b.key_eq, ← htarget, ← hns, ← hname]
  cases a.target with
  | some target => simp
  | none =>
    cases a.ns with
    | some ns => cases a.name <;> simp
    | none => cases a.name <;> simp

/-- Two actions in two namespaces have two keys, unless the key does not show them. -/
theorem confused_iff {ns ns' : String} (hns : a.ns = some ns) (hns' : b.ns = some ns') (hne : ns ≠ ns') :
    a.key = b.key ↔ Confused a b := by
  rw [a.key_eq, b.key_eq, hns, hns']
  constructor
  · cases hta : a.target with
    | some text =>
      cases htb : b.target with
      | some text' => exact fun h => .target text hta (htb.trans (congrArg some h.symm))
      | none =>
        cases hname : b.name with
        | some name =>
          exact fun h => .spelled (.inr ⟨htb, ns', hns', name, hname, hta.trans (congrArg some h)⟩)
        | none => exact fun h => absurd h (strippedText_ne hta)
    | none =>
      cases htb : b.target with
      | some text =>
        cases hname : a.name with
        | some name =>
          exact fun h => .spelled (.inl ⟨hta, ns, hns, name, hname, htb.trans (congrArg some h.symm)⟩)
        | none => exact fun h => absurd h.symm (strippedText_ne htb)
      | none =>
        cases hname : a.name with
        | none =>
          cases hname' : b.name with
          | none => exact fun _ => .nameless hta htb hname hname'
          | some name' => exact fun h => absurd h.symm (joined_ne '/' ns' name')
        | some name =>
          cases hname' : b.name with
          | none => exact fun h => absurd h (joined_ne '/' ns name)
          | some name' =>
            intro h
            refine .continued hta htb (((joined_eq_iff hne).mp h).imp ?_ ?_)
            · rintro ⟨middle, rfl, rfl⟩
              exact ⟨ns, hns, name', hname', middle, hns', hname⟩
            · rintro ⟨middle, rfl, rfl⟩
              exact ⟨ns', hns', name, hname, middle, hns, hname'⟩
  · rintro (⟨text, hta, htb⟩ | ⟨hta, htb, hname, hname'⟩ | h | ⟨hta, htb, h⟩)
    · rw [hta, htb]
    · rw [hta, htb, hname, hname']
    · rcases h with ⟨hta, s, hs, name, hname, htb⟩ | ⟨htb, s, hs, name, hname, hta⟩
      · obtain rfl := Option.some.inj (hns.symm.trans hs)
        rw [hta, htb, hname]
      · obtain rfl := Option.some.inj (hns'.symm.trans hs)
        rw [hta, htb, hname]
    · rw [hta, htb]
      rcases h with ⟨s, hs, name', hname', middle, hmiddle, hname⟩ | ⟨s, hs, name', hname', middle, hmiddle, hname⟩
      · obtain rfl := Option.some.inj (hns.symm.trans hs)
        obtain rfl := Option.some.inj (hns'.symm.trans hmiddle)
        rw [hname, hname']
        exact (joined_eq_iff hne).mpr (.inl ⟨middle, rfl, rfl⟩)
      · obtain rfl := Option.some.inj (hns'.symm.trans hs)
        obtain rfl := Option.some.inj (hns.symm.trans hmiddle)
        rw [hname, hname']
        exact (joined_eq_iff hne).mpr (.inr ⟨middle, rfl, rfl⟩)

/-- **Resource keys** identify the resources of two actions if and only if the actions do not name one resource
by its name alone from two capabilities, and are not in two namespaces that the key does not show. -/
theorem identified_iff (a b : UnkeyedAction) : Identified a b ↔
    (a.target = none → b.target = none → a.ns = none → b.ns = none → a.name ≠ none → a.name = b.name →
      a.pending.capability = b.pending.capability) ∧
    ∀ ns ∈ a.ns, ∀ ns' ∈ b.ns, ns ≠ ns' → ¬Confused a b := by
  constructor
  · intro h
    constructor
    · intro hta htb hna hnb hname heq
      have hkey := h.same (hta.trans htb.symm) (hna.trans hnb.symm) heq
      exact (same_iff (hta.trans htb.symm) (hna.trans hnb.symm) heq).mp hkey hta hna hname
    · intro ns hns ns' hns' hne
      exact mt (confused_iff hns hns' hne).mpr (h.apart ns hns ns' hns' hne)
  · rintro ⟨hsame, hapart⟩
    constructor
    · intro htarget hns hname
      rw [same_iff htarget hns hname]
      intro hta hna hne
      exact hsame hta (htarget ▸ hta) hna (hns ▸ hna) hne hname
    · intro ns hns ns' hns' hne
      exact mt (confused_iff hns hns' hne).mp (hapart ns hns ns' hns' hne)

/-- An action on a name without a namespace. -/
def named (capability : String) : UnkeyedAction where
  pending := { actionOn capability "" with target := none, arguments := [("name", .str "api")] }
  sideEffect := .reversible
  effect := by decide
  fresh := rfl
  unkeyed := by simp

/-- To restart and to scale one resource takes two locks. -/
theorem capability_in_key : ¬Identified (named "restart") (named "scale") := by
  intro h
  have hname : (named "restart").name ≠ none := by decide
  have hkey : (named "restart").key = (named "scale").key := h.same rfl rfl rfl
  exact absurd ((@same_iff (named "restart") (named "scale") rfl rfl rfl).mp hkey rfl rfl hname) (by decide)

end Keys

end UniversalAgent.Runtime.Actions
