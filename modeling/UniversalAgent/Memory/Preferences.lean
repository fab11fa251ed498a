import UniversalAgent.Core.Dictionaries
import UniversalAgent.Foundation.Separators
import UniversalAgent.Foundation.Table
import UniversalAgent.Foundation.Text

/-!
# Memory — Preferences

`PreferenceMemory` (`memory/preference.py`): preferences by their ids, and an index of the ids by the text
`domain:key`. While neither part of what is set has a colon in it the memory is a map from pairs; the text
of a pair with a colon is that of another pair too.

`uuid n` is the `n`-th number that `uuid4` gives; the numbers differ. Raising a confidence is a parameter.
-/

namespace UniversalAgent.Memory

open UniversalAgent.Core UniversalAgent.Foundation

abbrev PreferenceId := String

structure UserPreference where
  id : PreferenceId
  key : String
  value : JsonMapping
  domain : String
  confidence : PyFloat
  confirmationCount : Nat
  updatedAt : Instant
  source : String
  tags : List String
  metadata : JsonMapping
  createdAt : Instant
deriving DecidableEq

structure PreferenceMemory where
  preferences : Table UserPreference.id
  keyIndex : Table (Prod.fst : String × PreferenceId → String)
  /-- How many ids were made. -/
  drawn : Nat
deriving DecidableEq

/-- The arguments of `set_preference`, and what the clock shows. -/
structure SetArguments where
  key : String
  value : JsonMapping
  domain : String
  confidence : PyFloat
  source : String
  tags : List String
  metadata : JsonMapping
  updatedAt : Instant
  createdAt : Instant

inductive PreferenceCall where
  | set (arguments : SetArguments)
  | get (key domain : String)
  | delete (key domain : String)
  | all (domain : String)

/-- `f"{domain}:{key}"`. -/
def indexKey (key domain : String) : String := domain ++ ":" ++ key

namespace PreferenceMemory

/-- `PreferenceMemory()`. -/
def empty : PreferenceMemory := ⟨.empty, .empty, 0⟩

def getPreference (m : PreferenceMemory) (key domain : String) : Option UserPreference :=
  match m.keyIndex.get? (indexKey key domain) with
  | none => none
  | some row => if row.2 = "" then none else m.preferences.get? row.2

def getAll (m : PreferenceMemory) (domain : String) : List UserPreference :=
  if domain = "" then m.preferences.rows else m.preferences.rows.filter fun p => decide (p.domain = domain)

def deletePreference (m : PreferenceMemory) (key domain : String) : Bool × PreferenceMemory :=
  let index := m.keyIndex.erase (indexKey key domain)
  match m.keyIndex.get? (indexKey key domain) with
  | none => (false, m)
  | some row =>
    if row.2 ≠ "" ∧ (m.preferences.get? row.2).isSome then
      (true, { m with preferences := m.preferences.erase row.2, keyIndex := index })
    else (false, { m with keyIndex := index })

section Steps

variable (raised : PyFloat → PyFloat) (uuid : Nat → String)

def nextId (m : PreferenceMemory) : PreferenceId := "pref-" ++ uuid m.drawn

def updated (existing : UserPreference) (a : SetArguments) : UserPreference where
  id := existing.id
  key := existing.key
  value := a.value
  domain := existing.domain
  confidence := raised existing.confidence
  confirmationCount := existing.confirmationCount + 1
  updatedAt := a.updatedAt
  source := a.source
  tags := existing.tags
  metadata := dictUpdate existing.metadata a.metadata
  createdAt := existing.createdAt

def created (m : PreferenceMemory) (a : SetArguments) : UserPreference where
  id := m.nextId uuid
  key := a.key
  value := a.value
  domain := a.domain
  confidence := a.confidence
  confirmationCount := 0
  updatedAt := a.updatedAt
  source := a.source
  tags := a.tags
  metadata := a.metadata
  createdAt := a.createdAt

def setPreference (m : PreferenceMemory) (a : SetArguments) : UserPreference × PreferenceMemory :=
  match m.getPreference a.key a.domain with
  | some existing =>
    (updated raised existing a, { m with preferences := m.preferences.put (updated raised existing a) })
  | none =>
    let preference := m.created uuid a
    (preference, ⟨m.preferences.put preference, m.keyIndex.put (indexKey a.key a.domain, preference.id),
      m.drawn + 1⟩)

def step (m : PreferenceMemory) : PreferenceCall → PreferenceMemory
  | .set a => (m.setPreference raised uuid a).2
  | .delete key domain => (m.deletePreference key domain).2
  | .get _ _ | .all _ => m

def run (calls : List PreferenceCall) : PreferenceMemory := calls.foldl (step raised uuid) empty

end Steps

end PreferenceMemory

/-! ## The map -/

abbrev PreferenceMap := String × String → Option JsonMapping

namespace PreferenceCall

def target : PreferenceCall → Option (String × String)
  | .set a => some (a.domain, a.key)
  | .delete key domain => some (domain, key)
  | .get _ _ | .all _ => none

def onMap (values : PreferenceMap) : PreferenceCall → PreferenceMap
  | .set a => Function.update values (a.domain, a.key) (some a.value)
  | .delete key domain => Function.update values (domain, key) none
  | .get _ _ | .all _ => values

def SetsPlain : PreferenceCall → Prop
  | .set a => ':' ∉ a.domain.toList ∧ ':' ∉ a.key.toList
  | _ => True

end PreferenceCall

def lastSet (calls : List PreferenceCall) : PreferenceMap := calls.foldl PreferenceCall.onMap fun _ => none

structure AnswersAs (m : PreferenceMemory) (values : PreferenceMap) : Prop where
  found : ∀ key domain p, m.getPreference key domain = some p →
    p.key = key ∧ p.domain = domain ∧ values (domain, key) = some p.value
  absent : ∀ key domain, m.getPreference key domain = none → values (domain, key) = none
  listed : ∀ domain p, p ∈ m.getAll domain ↔
    (∃ key domain', m.getPreference key domain' = some p) ∧ (domain = "" ∨ p.domain = domain)
  once : ∀ domain, (m.getAll domain).Nodup

/-- In every state of the run the memory answers as the map does, and no call changes what is answered for
a pair that is not its own. -/
structure KeyedByPair (raised : PyFloat → PyFloat) (uuid : Nat → String) (calls : List PreferenceCall) :
    Prop where
  answers : ∀ past rest, calls = past ++ rest → AnswersAs (PreferenceMemory.run raised uuid past) (lastSet past)
  others : ∀ past call rest, calls = past ++ call :: rest → ∀ key domain, call.target ≠ some (domain, key) →
    (PreferenceMemory.run raised uuid (past ++ [call])).getPreference key domain =
      (PreferenceMemory.run raised uuid past).getPreference key domain

/-! ## Texts with and without colons -/

theorem indexKey_eq_iff {key domain key' domain' : String} :
    indexKey key domain = indexKey key' domain' ↔
      domain.toList ++ ':' :: key.toList = domain'.toList ++ ':' :: key'.toList := by
  have hcolon : ":".toList = [':'] := rfl
  rw [← String.toList_inj, indexKey, indexKey]
  simp only [String.toList_append, hcolon, List.append_assoc, List.singleton_append]

theorem indexKey_inj {key domain key' domain' : String} (hdomain : ':' ∉ domain.toList)
    (hkey : ':' ∉ key.toList) (h : indexKey key domain = indexKey key' domain') :
    key = key' ∧ domain = domain' := by
  rw [indexKey_eq_iff, append_cons_eq_iff_of_notMem hdomain] at h
  rcases h with ⟨hd, hk⟩ | ⟨w, -, hk⟩
  · exact ⟨String.toList_inj.mp hk, String.toList_inj.mp hd⟩
  · rw [hk] at hkey
    exact absurd (List.mem_append_right _ List.mem_cons_self) hkey

/-- A text with more than one colon is that of another pair too. -/
theorem exists_indexKey_eq {key domain : String} (h : ¬(':' ∉ domain.toList ∧ ':' ∉ key.toList)) :
    ∃ key' domain', (domain', key') ≠ (domain, key) ∧ indexKey key' domain' = indexKey key domain := by
  by_cases hdomain : ':' ∈ domain.toList
  · obtain ⟨a, b, hsplit⟩ := List.append_of_mem hdomain
    refine ⟨String.ofList (b ++ ':' :: key.toList), String.ofList a, fun heq => ?_, ?_⟩
    · have hlist := congrArg String.toList (Prod.mk.inj heq).1
      rw [String.toList_ofList, hsplit] at hlist
      have hlength := congrArg List.length hlist
      rw [List.length_append, List.length_cons] at hlength
      omega
    · rw [indexKey_eq_iff, String.toList_ofList, String.toList_ofList, hsplit, List.append_assoc,
        List.cons_append]
  · have hkey : ':' ∈ key.toList := by
      by_contra hkey
      exact h ⟨hdomain, hkey⟩
    obtain ⟨a, b, hsplit⟩ := List.append_of_mem hkey
    refine ⟨String.ofList b, String.ofList (domain.toList ++ ':' :: a), fun heq => ?_, ?_⟩
    · have hlist := congrArg String.toList (Prod.mk.inj heq).1
      rw [String.toList_ofList] at hlist
      have hlength := congrArg List.length hlist
      rw [List.length_append, List.length_cons] at hlength
      omega
    · rw [indexKey_eq_iff, String.toList_ofList, String.toList_ofList, hsplit, List.append_assoc,
        List.cons_append]

/-! ## While no colon is set -/

namespace PreferenceMemory

variable {raised : PyFloat → PyFloat} {uuid : Nat → String} {m : PreferenceMemory} {key domain : String}
  {p : UserPreference}

structure Plain (uuid : Nat → String) (m : PreferenceMemory) : Prop where
  indexed : ∀ row, row ∈ m.keyIndex ↔ ∃ p ∈ m.preferences, row = (indexKey p.key p.domain, p.id)
  colonless : ∀ p ∈ m.preferences, ':' ∉ p.domain.toList ∧ ':' ∉ p.key.toList
  ids : ∀ p ∈ m.preferences, ∃ n < m.drawn, p.id = "pref-" ++ uuid n

theorem plain_empty : Plain uuid empty :=
  ⟨fun _ => iff_of_false (Table.not_mem_empty _) fun ⟨_, hp, _⟩ => Table.not_mem_empty _ hp,
    fun _ hp => absurd hp (Table.not_mem_empty _), fun _ hp => absurd hp (Table.not_mem_empty _)⟩

theorem id_ne_empty (s : String) : "pref-" ++ s ≠ "" := by
  intro h
  have hlength := congrArg String.length h
  rw [String.length_append] at hlength
  exact absurd hlength (by change 5 + s.length ≠ 0; omega)

theorem Plain.lookup (h : m.Plain uuid) (hp : p ∈ m.preferences) :
    m.keyIndex.get? (indexKey p.key p.domain) = some (indexKey p.key p.domain, p.id) :=
  Table.get?_of_mem ((h.indexed _).mpr ⟨p, hp, rfl⟩)

/-- What is found for a pair is the preference of that pair. -/
theorem Plain.getPreference_eq_some (h : m.Plain uuid) :
    m.getPreference key domain = some p ↔ p ∈ m.preferences ∧ p.key = key ∧ p.domain = domain := by
  rw [getPreference]
  constructor
  · intro hget
    cases hrow : m.keyIndex.get? (indexKey key domain) with
    | none =>
      rw [hrow] at hget
      cases hget
    | some row =>
      rw [hrow] at hget
      obtain ⟨hmem, htext⟩ := Table.get?_eq_some.mp hrow
      obtain ⟨q, hq, rfl⟩ := (h.indexed row).mp hmem
      dsimp only at hget htext
      split at hget
      · cases hget
      · obtain ⟨hp, hid⟩ := Table.get?_eq_some.mp hget
        obtain rfl := Table.eq_of_key hp hq hid
        obtain ⟨hdomain, hkey⟩ := h.colonless p hp
        obtain ⟨rfl, rfl⟩ := indexKey_inj hdomain hkey htext
        exact ⟨hp, rfl, rfl⟩
  · rintro ⟨hp, rfl, rfl⟩
    obtain ⟨n, -, hid⟩ := h.ids p hp
    rw [h.lookup hp]
    dsimp only
    rw [if_neg (hid ▸ id_ne_empty _)]
    exact Table.get?_of_mem hp

theorem Plain.getPreference_eq_none (h : m.Plain uuid) :
    m.getPreference key domain = none ↔ ∀ p ∈ m.preferences, ¬(p.key = key ∧ p.domain = domain) := by
  rw [Option.eq_none_iff_forall_ne_some]
  constructor
  · exact fun hnone p hp hpair => hnone p (h.getPreference_eq_some.mpr ⟨hp, hpair⟩)
  · intro hall p hget
    obtain ⟨hp, hpair⟩ := h.getPreference_eq_some.mp hget
    exact hall p hp hpair

theorem Plain.eq_of_pair {q : UserPreference} (h : m.Plain uuid) (hp : p ∈ m.preferences)
    (hq : q ∈ m.preferences) (hkey : p.key = q.key) (hdomain : p.domain = q.domain) : p = q := by
  have hfound := h.getPreference_eq_some.mpr ⟨hp, hkey, hdomain⟩
  rw [h.getPreference_eq_some.mpr ⟨hq, rfl, rfl⟩] at hfound
  exact (Option.some.inj hfound).symm

/-- Setting a pair: what it was is gone, the rest stays. -/
theorem Plain.mem_set (h : m.Plain uuid) (huuid : Function.Injective uuid) (a : SetArguments)
    (q : UserPreference) :
    q ∈ (m.setPreference raised uuid a).2.preferences ↔
      q = (m.setPreference raised uuid a).1 ∨ q ∈ m.preferences ∧ ¬(q.key = a.key ∧ q.domain = a.domain) := by
  rw [setPreference]
  cases hget : m.getPreference a.key a.domain with
  | some existing =>
    obtain ⟨hmem, hkey, hdomain⟩ := h.getPreference_eq_some.mp hget
    dsimp only
    rw [Table.mem_put]
    refine or_congr_right (and_congr_right fun hq => not_congr ?_)
    constructor
    · intro hid
      obtain rfl := Table.eq_of_key hq hmem hid
      exact ⟨hkey, hdomain⟩
    · rintro ⟨hk, hd⟩
      rw [h.eq_of_pair hq hmem (hk.trans hkey.symm) (hd.trans hdomain.symm)]
      rfl
  | none =>
    dsimp only
    rw [Table.mem_put]
    refine or_congr_right (and_congr_right fun hq => ?_)
    refine iff_of_true (fun hid => ?_) (h.getPreference_eq_none.mp hget q hq)
    obtain ⟨n, hn, hid'⟩ := h.ids q hq
    have hsame := huuid (Text.prefix_inj (hid'.symm.trans hid))
    omega

theorem Plain.set_result (h : m.Plain uuid) (a : SetArguments) :
    (m.setPreference raised uuid a).1.key = a.key ∧ (m.setPreference raised uuid a).1.domain = a.domain ∧
      (m.setPreference raised uuid a).1.value = a.value := by
  rw [setPreference]
  cases hget : m.getPreference a.key a.domain with
  | some existing =>
    obtain ⟨-, hkey, hdomain⟩ := h.getPreference_eq_some.mp hget
    exact ⟨hkey, hdomain, rfl⟩
  | none => exact ⟨rfl, rfl, rfl⟩

variable {a : SetArguments}

theorem Plain.set_again (h : m.Plain uuid) {existing : UserPreference}
    (hget : m.getPreference a.key a.domain = some existing) :
    ∀ row, row ∈ m.keyIndex ↔ ∃ p ∈ m.preferences.put (updated raised existing a),
      row = (indexKey p.key p.domain, p.id) := by
  obtain ⟨hmem, -, -⟩ := h.getPreference_eq_some.mp hget
  intro row
  rw [h.indexed]
  constructor
  · rintro ⟨p, hp, rfl⟩
    by_cases hid : p.id = existing.id
    · obtain rfl := Table.eq_of_key hp hmem hid
      exact ⟨_, Table.mem_put_self _ _, rfl⟩
    · exact ⟨p, Table.mem_put.mpr (.inr ⟨hp, hid⟩), rfl⟩
  · rintro ⟨p, hp, rfl⟩
    rcases Table.mem_put.mp hp with rfl | ⟨hp, -⟩
    · exact ⟨existing, hmem, rfl⟩
    · exact ⟨p, hp, rfl⟩

/-- The index after a preference was set for the first time. -/
theorem Plain.set_new (h : m.Plain uuid) (huuid : Function.Injective uuid)
    (hget : m.getPreference a.key a.domain = none) :
    ∀ row, row ∈ m.keyIndex.put (indexKey a.key a.domain, (m.created uuid a).id) ↔
      ∃ p ∈ m.preferences.put (m.created uuid a), row = (indexKey p.key p.domain, p.id) := by
  intro row
  rw [Table.mem_put]
  constructor
  · rintro (rfl | ⟨hrow, -⟩)
    · exact ⟨_, Table.mem_put_self _ _, rfl⟩
    · obtain ⟨p, hp, rfl⟩ := (h.indexed row).mp hrow
      refine ⟨p, Table.mem_put.mpr (.inr ⟨hp, fun hid => ?_⟩), rfl⟩
      obtain ⟨n, hn, hid'⟩ := h.ids p hp
      have hsame := huuid (Text.prefix_inj (hid'.symm.trans hid))
      omega
  · rintro ⟨p, hp, rfl⟩
    rcases Table.mem_put.mp hp with rfl | ⟨hp, -⟩
    · exact .inl rfl
    · refine .inr ⟨(h.indexed _).mpr ⟨p, hp, rfl⟩, fun htext => ?_⟩
      obtain ⟨hdomain, hkey⟩ := h.colonless p hp
      exact h.getPreference_eq_none.mp hget p hp (indexKey_inj hdomain hkey htext)

theorem Plain.set (h : m.Plain uuid) (huuid : Function.Injective uuid)
    (ha : ':' ∉ a.domain.toList ∧ ':' ∉ a.key.toList) : (m.setPreference raised uuid a).2.Plain uuid := by
  rw [setPreference]
  cases hget : m.getPreference a.key a.domain with
  | some existing =>
    obtain ⟨hmem, -, -⟩ := h.getPreference_eq_some.mp hget
    refine ⟨h.set_again hget, fun p hp => ?_, fun p hp => ?_⟩
    · rcases Table.mem_put.mp hp with rfl | ⟨hp, -⟩
      · exact h.colonless existing hmem
      · exact h.colonless p hp
    · rcases Table.mem_put.mp hp with rfl | ⟨hp, -⟩
      · exact h.ids existing hmem
      · exact h.ids p hp
  | none =>
    refine ⟨h.set_new huuid hget, fun p hp => ?_, fun p hp => ?_⟩
    · rcases Table.mem_put.mp hp with rfl | ⟨hp, -⟩
      · exact ha
      · exact h.colonless p hp
    · rcases Table.mem_put.mp hp with rfl | ⟨hp, -⟩
      · exact ⟨m.drawn, Nat.lt_succ_self _, rfl⟩
      · obtain ⟨n, hn, hid⟩ := h.ids p hp
        exact ⟨n, Nat.lt_succ_of_lt hn, hid⟩

theorem Plain.delete_cases (h : m.Plain uuid) (key domain : String) :
    ((∀ p ∈ m.preferences, ¬(p.key = key ∧ p.domain = domain)) ∧ m.deletePreference key domain = (false, m)) ∨
    ∃ p ∈ m.preferences, p.key = key ∧ p.domain = domain ∧ m.deletePreference key domain =
      (true, { m with preferences := m.preferences.erase p.id,
                      keyIndex := m.keyIndex.erase (indexKey key domain) }) := by
  rw [deletePreference]
  cases hrow : m.keyIndex.get? (indexKey key domain) with
  | none =>
    refine .inl ⟨?_, rfl⟩
    rintro p hp ⟨rfl, rfl⟩
    rw [h.lookup hp] at hrow
    cases hrow
  | some row =>
    obtain ⟨hmem, htext⟩ := Table.get?_eq_some.mp hrow
    obtain ⟨p, hp, rfl⟩ := (h.indexed row).mp hmem
    obtain ⟨hdomain, hkey⟩ := h.colonless p hp
    obtain ⟨rfl, rfl⟩ := indexKey_inj hdomain hkey htext
    obtain ⟨n, -, hid⟩ := h.ids p hp
    refine .inr ⟨p, hp, rfl, rfl, ?_⟩
    have hfound : p.id ≠ "" ∧ (m.preferences.get? p.id).isSome := by
      rw [Table.get?_of_mem hp]
      exact ⟨hid ▸ id_ne_empty _, rfl⟩
    exact if_pos hfound

/-- Deleting a pair: what it was is gone, the rest stays. -/
theorem Plain.mem_delete (h : m.Plain uuid) (q : UserPreference) :
    q ∈ (m.deletePreference key domain).2.preferences ↔
      q ∈ m.preferences ∧ ¬(q.key = key ∧ q.domain = domain) := by
  rcases h.delete_cases key domain with ⟨hnone, heq⟩ | ⟨p, hp, rfl, rfl, heq⟩
  · rw [heq]
    exact ⟨fun hq => ⟨hq, hnone q hq⟩, And.left⟩
  · rw [heq]
    dsimp only
    rw [Table.mem_erase]
    refine and_congr_right fun hq => not_congr ⟨fun hid => ?_, fun hpair => ?_⟩
    · obtain rfl := Table.eq_of_key hq hp hid
      exact ⟨rfl, rfl⟩
    · rw [h.eq_of_pair hq hp hpair.1 hpair.2]

theorem Plain.delete (h : m.Plain uuid) (key domain : String) :
    (m.deletePreference key domain).2.Plain uuid := by
  rcases h.delete_cases key domain with ⟨hnone, heq⟩ | ⟨p, hp, rfl, rfl, heq⟩
  · rw [heq]
    exact h
  · rw [heq]
    refine ⟨fun row => ?_, fun q hq => h.colonless q (Table.mem_erase.mp hq).1,
      fun q hq => h.ids q (Table.mem_erase.mp hq).1⟩
    dsimp only
    rw [Table.mem_erase, h.indexed]
    constructor
    · rintro ⟨⟨q, hq, rfl⟩, htext⟩
      refine ⟨q, Table.mem_erase.mpr ⟨hq, fun hid => htext ?_⟩, rfl⟩
      rw [Table.eq_of_key hq hp hid]
    · rintro ⟨q, hq, rfl⟩
      obtain ⟨hq, hid⟩ := Table.mem_erase.mp hq
      refine ⟨⟨q, hq, rfl⟩, fun htext => hid ?_⟩
      obtain ⟨hdomain, hkey⟩ := h.colonless q hq
      obtain ⟨hk, hd⟩ := indexKey_inj hdomain hkey htext
      rw [h.eq_of_pair hq hp hk hd]

def Holds (m : PreferenceMemory) (values : PreferenceMap) : Prop :=
  ∀ key domain v, values (domain, key) = some v ↔
    ∃ p ∈ m.preferences, p.key = key ∧ p.domain = domain ∧ p.value = v

theorem holds_empty : Holds empty fun _ => none :=
  fun _ _ _ => iff_of_false nofun fun ⟨_, hp, _⟩ => Table.not_mem_empty _ hp

theorem Plain.answersAs (h : m.Plain uuid) {values : PreferenceMap} (hv : m.Holds values) :
    AnswersAs m values := by
  constructor
  · intro key domain p hget
    obtain ⟨hp, rfl, rfl⟩ := h.getPreference_eq_some.mp hget
    exact ⟨rfl, rfl, (hv _ _ _).mpr ⟨p, hp, rfl, rfl, rfl⟩⟩
  · intro key domain hget
    rw [Option.eq_none_iff_forall_ne_some]
    intro v hvalue
    obtain ⟨p, hp, hkey, hdomain, -⟩ := (hv _ _ _).mp hvalue
    exact h.getPreference_eq_none.mp hget p hp ⟨hkey, hdomain⟩
  · intro domain p
    have hfound : (∃ key domain', m.getPreference key domain' = some p) ↔ p ∈ m.preferences := by
      constructor
      · rintro ⟨key, domain', hget⟩
        exact (h.getPreference_eq_some.mp hget).1
      · exact fun hp => ⟨_, _, h.getPreference_eq_some.mpr ⟨hp, rfl, rfl⟩⟩
    rw [hfound, getAll]
    by_cases hall : domain = ""
    · rw [if_pos hall]
      exact ⟨fun hp => ⟨hp, .inl hall⟩, And.left⟩
    · rw [if_neg hall, List.mem_filter, decide_eq_true_eq, or_iff_right hall]
      rfl
  · intro domain
    rw [getAll]
    split
    · exact m.preferences.nodup.of_map
    · exact m.preferences.nodup.of_map.filter _

/-- A pair other than that of the call has the preference it had. -/
theorem Plain.mem_step (h : m.Plain uuid) (huuid : Function.Injective uuid) {call : PreferenceCall}
    {q : UserPreference} (hother : call.target ≠ some (q.domain, q.key)) :
    q ∈ (step raised uuid m call).preferences ↔ q ∈ m.preferences := by
  cases call with
  | set a =>
    obtain ⟨hkey, hdomain, -⟩ := @Plain.set_result raised _ _ h a
    have hpair : ¬(q.key = a.key ∧ q.domain = a.domain) := by
      rintro ⟨hk, hd⟩
      exact hother (by rw [PreferenceCall.target, hk, hd])
    rw [step, h.mem_set huuid]
    constructor
    · rintro (rfl | hq)
      · exact absurd ⟨hkey, hdomain⟩ hpair
      · exact hq.1
    · exact fun hq => .inr ⟨hq, hpair⟩
  | delete key domain =>
    rw [step, h.mem_delete]
    refine ⟨And.left, fun hq => ⟨hq, ?_⟩⟩
    rintro ⟨rfl, rfl⟩
    exact hother rfl
  | get key domain => exact Iff.rfl
  | all domain => exact Iff.rfl

theorem Plain.step (h : m.Plain uuid) (huuid : Function.Injective uuid) {call : PreferenceCall}
    (hcall : call.SetsPlain) : (m.step raised uuid call).Plain uuid := by
  cases call with
  | set a => exact h.set huuid hcall
  | delete key domain => exact h.delete key domain
  | get key domain => exact h
  | all domain => exact h

theorem Plain.holds_step (h : m.Plain uuid) (huuid : Function.Injective uuid) {values : PreferenceMap}
    (hv : m.Holds values) (call : PreferenceCall) : (m.step raised uuid call).Holds (call.onMap values) := by
  intro key domain v
  by_cases hother : call.target = some (domain, key)
  · cases call with
    | set a =>
      obtain ⟨rfl, rfl⟩ := Prod.mk.inj (Option.some.inj hother)
      obtain ⟨hkey, hdomain, hvalue⟩ := @Plain.set_result raised _ _ h a
      rw [PreferenceCall.onMap, Function.update_self, Option.some.injEq]
      constructor
      · rintro rfl
        exact ⟨_, (h.mem_set huuid a _).mpr (.inl rfl), hkey, hdomain, hvalue⟩
      · rintro ⟨p, hp, hk, hd, rfl⟩
        rcases (h.mem_set huuid a p).mp hp with rfl | ⟨-, hne⟩
        · exact hvalue.symm
        · exact absurd ⟨hk, hd⟩ hne
    | delete key' domain' =>
      obtain ⟨rfl, rfl⟩ := Prod.mk.inj (Option.some.inj hother)
      rw [PreferenceCall.onMap, Function.update_self]
      refine iff_of_false nofun ?_
      rintro ⟨p, hp, hk, hd, -⟩
      exact ((h.mem_delete p).mp hp).2 ⟨hk, hd⟩
    | get key' domain' => cases hother
    | all domain' => cases hother
  · have hvalues : call.onMap values (domain, key) = values (domain, key) := by
      cases call with
      | set a => exact Function.update_of_ne (fun heq => hother (congrArg some heq.symm)) _ _
      | delete key' domain' => exact Function.update_of_ne (fun heq => hother (congrArg some heq.symm)) _ _
      | get key' domain' => rfl
      | all domain' => rfl
    rw [hvalues, hv]
    refine exists_congr fun p => ?_
    constructor
    · rintro ⟨hp, rfl, rfl, hvalue⟩
      exact ⟨(h.mem_step huuid hother).mpr hp, rfl, rfl, hvalue⟩
    · rintro ⟨hp, rfl, rfl, hvalue⟩
      exact ⟨(h.mem_step huuid hother).mp hp, rfl, rfl, hvalue⟩

theorem run_snoc (calls : List PreferenceCall) (call : PreferenceCall) :
    run raised uuid (calls ++ [call]) = (run raised uuid calls).step raised uuid call := by
  rw [run, List.foldl_append]
  rfl

theorem run_plain (huuid : Function.Injective uuid) {calls : List PreferenceCall}
    (h : ∀ call ∈ calls, call.SetsPlain) :
    (run raised uuid calls).Plain uuid ∧ (run raised uuid calls).Holds (lastSet calls) := by
  induction calls using List.reverseRecOn with
  | nil => exact ⟨plain_empty, holds_empty⟩
  | append_singleton calls call ih =>
    obtain ⟨hplain, hholds⟩ := ih fun c hc => h c (List.mem_append_left _ hc)
    have hlast : lastSet (calls ++ [call]) = call.onMap (lastSet calls) := by
      rw [lastSet, List.foldl_append]
      rfl
    rw [run_snoc, hlast]
    exact ⟨hplain.step huuid (h call (by simp)), hplain.holds_step huuid hholds call⟩

/-! ## A colon -/

theorem getPreference_set (m : PreferenceMemory) (a : SetArguments) :
    ∃ p, (m.setPreference raised uuid a).2.getPreference a.key a.domain = some p := by
  rw [setPreference]
  cases hget : m.getPreference a.key a.domain with
  | some existing =>
    rw [getPreference] at hget
    cases hrow : m.keyIndex.get? (indexKey a.key a.domain) with
    | none =>
      rw [hrow] at hget
      cases hget
    | some row =>
      rw [hrow] at hget
      dsimp only at hget
      split at hget
      · cases hget
      · next hne =>
          refine ⟨updated raised existing a, ?_⟩
          have hid : row.2 = (updated raised existing a).id := (Table.get?_eq_some.mp hget).2.symm
          rw [getPreference, hrow]
          dsimp only
          rw [if_neg hne, hid, Table.get?_put_self]
  | none =>
    refine ⟨m.created uuid a, ?_⟩
    have hindex := Table.get?_put_self m.keyIndex (indexKey a.key a.domain, (m.created uuid a).id)
    have hid : (m.created uuid a).id ≠ "" := id_ne_empty _
    rw [getPreference, hindex]
    dsimp only
    rw [if_neg hid, Table.get?_put_self]

/-- Once a colon was set, what is found for one of two pairs is the preference of the other. -/
theorem not_answersAs (m : PreferenceMemory)
    (ha : ¬(':' ∉ a.domain.toList ∧ ':' ∉ a.key.toList)) (values : PreferenceMap) :
    ¬AnswersAs (m.setPreference raised uuid a).2 values := by
  intro h
  obtain ⟨p, hp⟩ := @getPreference_set raised uuid m a
  obtain ⟨key, domain, hne, htext⟩ := exists_indexKey_eq ha
  have hp' : (m.setPreference raised uuid a).2.getPreference key domain = some p := by
    rw [← hp, getPreference, htext, getPreference]
  obtain ⟨rfl, rfl, -⟩ := h.found _ _ p hp'
  obtain ⟨hkey, hdomain, -⟩ := h.found _ _ p hp
  rw [hkey, hdomain] at hne
  exact hne rfl

end PreferenceMemory

open PreferenceMemory

/-- **Preference memory** is a map from pairs in every state of a run if and only if the run sets nothing
under a domain or a key that has a colon in it. -/
theorem keyed_by_pair (raised : PyFloat → PyFloat) {uuid : Nat → String} (huuid : Function.Injective uuid)
    (calls : List PreferenceCall) :
    KeyedByPair raised uuid calls ↔ ∀ call ∈ calls, call.SetsPlain := by
  constructor
  · intro h call hcall
    by_contra hcolon
    obtain ⟨past, rest, rfl⟩ := List.append_of_mem hcall
    cases call with
    | set a =>
      have hanswers := h.answers (past ++ [.set a]) rest (by rw [List.append_assoc]; rfl)
      rw [run_snoc] at hanswers
      exact not_answersAs _ hcolon _ hanswers
    | get key domain => exact hcolon trivial
    | delete key domain => exact hcolon trivial
    | all domain => exact hcolon trivial
  · intro h
    constructor
    · rintro past rest rfl
      obtain ⟨hplain, hholds⟩ := run_plain huuid fun c hc => h c (List.mem_append_left _ hc)
      exact hplain.answersAs hholds
    · rintro past call rest rfl key domain hother
      obtain ⟨hplain, -⟩ := @run_plain raised _ huuid past fun c hc => h c (List.mem_append_left _ hc)
      rw [run_snoc]
      apply Option.ext
      intro p
      have hplain' := @Plain.step raised _ _ hplain huuid _ (h call (by simp))
      rw [hplain'.getPreference_eq_some, hplain.getPreference_eq_some]
      constructor
      · rintro ⟨hp, rfl, rfl⟩
        exact ⟨(hplain.mem_step huuid hother).mp hp, rfl, rfl⟩
      · rintro ⟨hp, rfl, rfl⟩
        exact ⟨(hplain.mem_step huuid hother).mpr hp, rfl, rfl⟩

def setting (domain key value : String) : PreferenceCall :=
  .set ⟨key, [("value", .str value)], domain, .finite 1, "explicit", [], [], 0, 0⟩

theorem keyed_by_pair_region : KeyedByPair id (fun n => toString n)
    [setting "aws" "region" "us-east-1", setting "gcp" "region" "europe-west1", .delete "region" "aws"] :=
  (keyed_by_pair id Text.toString_injective _).mpr (by
    intro call hcall
    simp only [List.mem_cons, List.not_mem_nil, or_false] at hcall
    rcases hcall with rfl | rfl | rfl
    · exact ⟨by decide, by decide⟩
    · exact ⟨by decide, by decide⟩
    · exact trivial)

/-- The key "b:c" of the domain "a" is taken for the key "c" of the domain "a:b". -/
theorem colon_confuses :
    ((run id (fun n => toString n) [setting "a" "b:c" "x"]).getPreference "c" "a:b").map
        (fun p => (p.key, p.domain)) = some ("b:c", "a") ∧
      lastSet [setting "a" "b:c" "x"] ("a:b", "c") = none ∧
      ¬KeyedByPair id (fun n => toString n) [setting "a" "b:c" "x"] := by
  refine ⟨by decide +kernel, by decide +kernel, fun h => ?_⟩
  have hanswers := h.answers [setting "a" "b:c" "x"] [] rfl
  obtain ⟨p, hp⟩ : ∃ p, (run id (fun n => toString n) [setting "a" "b:c" "x"]).getPreference "c" "a:b" = some p :=
    Option.isSome_iff_exists.mp (by decide +kernel)
  have hvalue := (hanswers.found "c" "a:b" p hp).2.2
  rw [show lastSet [setting "a" "b:c" "x"] ("a:b", "c") = none by decide +kernel] at hvalue
  cases hvalue

end UniversalAgent.Memory
