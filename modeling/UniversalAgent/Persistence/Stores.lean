import UniversalAgent.Persistence.RoundTrip
import UniversalAgent.State.Store

/-!
# Persistence — Stores

The file and the SQLite session store (`persistence/file.py`, `persistence/sqlite.py`) as
backends. Both keep the JSON form of a snapshot as text; text holds plain values only, so a
document is a plain value, and whatever is decoded from it has plain values again. The SQLite
store keeps the version in a column of its own beside the document.
-/

namespace UniversalAgent.Persistence

open UniversalAgent.Core UniversalAgent.Foundation UniversalAgent.State UniversalAgent.Tasks

/-! ## Plain documents are read as plain records -/

theorem field_plain {v w : Json} {key : String} (hv : v.isPlain = true)
    (h : field v key = .ok w) : w.isPlain = true := by
  cases v with
  | obj fields =>
    simp only [field, Json.field?] at h
    split at h
    · next u hu =>
        cases h
        rw [Json.isPlain, Json.fieldsPlain_eq_all, List.all_eq_true] at hv
        obtain ⟨before, after, rfl, -⟩ := List.lookup_eq_some_iff.mp hu
        exact hv (key, w) (by simp)
    · cases h
  | _ => cases h

theorem readMapping_plain {v : Json} {fields : JsonMapping} (hv : v.isPlain = true)
    (h : readMapping v = .ok fields) : Json.fieldsPlain fields = true := by
  cases v with
  | obj fields' =>
    cases h
    exact hv
  | _ => cases h

theorem arePlain_eq_all (items : List Json) :
    Json.arePlain items = items.all Json.isPlain := by
  induction items with
  | nil => rfl
  | cons x xs ih => simp [Json.arePlain, ih]

/-- Every item read from a plain list is read from a plain value. -/
theorem readList_plain {α : Type} {read : Json → Except DecodeError α} {v : Json} {items : List α}
    (hv : v.isPlain = true) (h : readList read v = .ok items) :
    ∀ a ∈ items, ∃ w : Json, w.isPlain = true ∧ read w = .ok a := by
  cases v with
  | arr ws =>
    intro a ha
    rw [Json.isPlain, arePlain_eq_all, List.all_eq_true] at hv
    obtain ⟨w, hw, hr⟩ := Except.exists_of_mem_mapM h a ha
    exact ⟨w, hv w hw, hr⟩
  | _ => cases h

theorem readOptional_some {α : Type} {read : Json → Except DecodeError α} {v : Json} {a : α}
    (h : readOptional read v = .ok (some a)) : read v = .ok a := by
  by_cases hn : v = .null
  · subst hn
    cases h
  · rw [readOptional_present _ _ hn] at h
    obtain ⟨b, hb, hk⟩ := Except.bind_eq_ok.mp h
    cases hk
    exact hb

section Codec

variable {iso : IsoFormat}

variable {v : Json}

theorem decodeGoal_plain {goal : Goal} (hv : v.isPlain = true)
    (h : decodeGoal iso v = .ok goal) : goalPlain goal = true := by
  simp only [decodeGoal, Except.bind_eq_ok] at h
  obtain ⟨w, hw, criteria, hc, _, -, _, -, _, -, _, -, _, -, _, -, _, -, _, -, hk⟩ := h
  cases hk
  refine List.all_eq_true.mpr fun c hmem => ?_
  obtain ⟨item, hitem, hr⟩ := readList_plain (field_plain hv hw) hc c hmem
  obtain ⟨_, -, _, -, expected, he, hk⟩ := by simpa only [Except.bind_eq_ok] using hr
  cases hk
  exact field_plain hitem he

theorem decodeObservation_plain {o : Observation} (hv : v.isPlain = true)
    (h : decodeObservation iso v = .ok o) : observationPlain o = true := by
  simp only [decodeObservation, Except.bind_eq_ok] at h
  obtain ⟨_, -, _, -, _, -, _, -, _, -, _, -, _, -, _, -, _, -, _, -, w, hw, data, hd, _, -, _, -,
    _, -, _, -, _, -, _, -, hk⟩ := h
  cases hk
  exact readMapping_plain (field_plain hv hw) hd

theorem decodeEvaluation_plain {e : EvaluationResult} (hv : v.isPlain = true)
    (h : decodeEvaluation v = .ok e) : evaluationPlain e = true := by
  simp only [decodeEvaluation, Except.bind_eq_ok] at h
  obtain ⟨_, -, _, -, _, -, _, -, _, -, _, -, w, hw, matched, hm, _, -, _, -, _, -, _, -, hk⟩ := h
  cases hk
  exact readMapping_plain (field_plain hv hw) hm

theorem decodePendingAction_plain {a : PendingAction} (hv : v.isPlain = true)
    (h : decodePendingAction v = .ok a) : pendingActionPlain a = true := by
  simp only [decodePendingAction, Except.bind_eq_ok] at h
  obtain ⟨_, -, _, -, _, -, _, -, _, -, _, -, _, -, _, -, w, hw, arguments, ha, _, -, _, -, _, -,
    _, -, _, -, _, -, _, -, _, -, _, -, hk⟩ := h
  cases hk
  exact readMapping_plain (field_plain hv hw) ha

theorem decodeEvidence_plain {e : Core.Evidence} (hv : v.isPlain = true)
    (h : decodeEvidence iso v = .ok e) : e.value.isPlain = true := by
  simp only [decodeEvidence, Except.bind_eq_ok] at h
  obtain ⟨_, -, _, -, _, -, _, -, _, -, _, -, _, -, _, -, _, -, _, -, _, -, _, -, w, hw, _, -,
    _, -, _, -, _, -, _, -, _, -, _, -, _, -, _, -, _, -, hk⟩ := h
  unfold makeEvidence at hk
  split at hk
  · split at hk
    · cases hk
      exact field_plain hv hw
    · cases hk
  all_goals cases hk

theorem all_of_readOptional {α : Type} {read : Json → Except DecodeError α}
    {o : Option α} {plain : α → Bool} (h : readOptional read v = .ok o)
    (hp : ∀ a, read v = .ok a → plain a = true) : o.all plain = true := by
  cases o with
  | none => rfl
  | some a => exact hp a (readOptional_some h)

/-- The session state that a plain document is read as. -/
theorem decodeAgentState_plain {nodes : List TaskNodeSnapshot} {s : AgentState}
    (hv : v.isPlain = true) (h : decodeAgentState iso v nodes = .ok s) :
    statePlain s = true ∧ TotalsUnset s := by
  simp only [decodeAgentState, Except.bind_eq_ok] at h
  obtain ⟨_, -, _, -, _, -, _, -, w₁, hw₁, goal, hg, _, -, _, -, _, -, _, -, _, -, _, -, w₂, hw₂,
    satisfied, hs, w₃, hw₃, observations, ho, w₄, hw₄, evaluation, he, w₅, hw₅, pending, hp, _, -,
    _, -, _, -, _, -, _, -, _, -, _, -, _, -, _, -, hk⟩ := h
  cases hk
  have hobs : observations.all observationPlain = true := by
    refine List.all_eq_true.mpr fun o hmem => ?_
    obtain ⟨w, hw, hr⟩ := readList_plain (field_plain hv hw₃) ho o hmem
    exact decodeObservation_plain hw hr
  refine ⟨?_, rfl, rfl, rfl⟩
  simp only [statePlain, Bool.and_eq_true]
  exact ⟨⟨⟨⟨decodeGoal_plain (field_plain hv hw₁) hg, readMapping_plain (field_plain hv hw₂) hs⟩,
    hobs⟩, all_of_readOptional he fun _ => decodeEvaluation_plain (field_plain hv hw₄)⟩,
    all_of_readOptional hp fun _ => decodePendingAction_plain (field_plain hv hw₅)⟩

theorem domains_decode {s : SessionSnapshot} {identities : Option (List DomainIdentity)}
    (h : s.domainIdentities = decodeDomainIdentities identities s.domainName s.domainVersion) :
    s.domains = s.domainIdentities := by
  unfold SessionSnapshot.domains
  split
  · rfl
  · next hne =>
      rw [not_not] at hne
      rw [hne] at h ⊢
      unfold decodeDomainIdentities at h
      split at h
      · exact h.symm
      · exact h.symm
      · next hcons => exact absurd h.symm (by simpa using hcons)

/-- **A plain document is read as a snapshot that can be written again.** -/
theorem decodeSessionSnapshot_handedOut {s : SessionSnapshot} (hv : v.isPlain = true)
    (h : decodeSessionSnapshot iso v = .ok s) : HandedOut s := by
  simp only [decodeSessionSnapshot, Except.bind_eq_ok] at h
  obtain ⟨_, -, schema, -, h⟩ := h
  split at h
  · cases h
  · simp only [Except.bind_eq_ok] at h
    obtain ⟨_, -, _, -, w₁, hw₁, state, hs, w₂, hw₂, evidence, he, _, -, _, -, _, -, _, -, hk⟩ := h
    cases hk
    obtain ⟨hp, ht⟩ := decodeAgentState_plain (field_plain hv hw₁) hs
    have hev : (evidence.all fun e => e.value.isPlain) = true := by
      refine List.all_eq_true.mpr fun e hmem => ?_
      obtain ⟨w, hw, hr⟩ := readList_plain (field_plain hv hw₂) he e hmem
      exact decodeEvidence_plain hw hr
    refine ⟨?_, ht, domains_decode rfl⟩
    simp only [snapshotPlain, Bool.and_eq_true]
    exact ⟨hp, hev⟩

/-- The session id survives the JSON form of any snapshot. -/
theorem sessionId_of_reread {codec : JsonCodec} {s t : SessionSnapshot}
    (hv : encodeSessionSnapshot codec iso s = .ok v)
    (ht : decodeSessionSnapshot iso v = .ok t) : t.state.sessionId = s.state.sessionId := by
  simp only [encodeSessionSnapshot, encodeAgentState, Except.bind_eq_ok] at hv
  obtain ⟨w, ⟨_, -, _, -, _, -, _, -, _, -, hw⟩, _, -, hv⟩ := hv
  cases hw
  cases hv
  simp only [decodeSessionSnapshot, Except.bind_eq_ok] at ht
  obtain ⟨_, -, schema, -, ht⟩ := ht
  split at ht
  · cases ht
  · simp only [Except.bind_eq_ok] at ht
    obtain ⟨_, -, graph, -, w, hw, state, hs, _, -, _, -, _, -, _, -, _, -, _, -, hk⟩ := ht
    cases hk
    rw [field_obj (by simp [List.lookup]; rfl)] at hw
    cases hw
    simp only [decodeAgentState, Except.bind_eq_ok] at hs
    obtain ⟨_, -, _, -, u, hu, id, hid, _, -, _, -, _, -, _, -, _, -, _, -, _, -, _, -, _, -, _, -, _, -, _, -,
      _, -, _, -, _, -, _, -, _, -, _, -, _, -, _, -, _, -, _, -, _, -, _, -, _, -, hk⟩ := hs
    cases hk
    rw [field_obj (by simp [List.lookup]; rfl)] at hu
    cases hu
    cases hid
    rfl

end Codec

/-! ## The stores -/

abbrev Document := {v : Json // v.isPlain = true}

section Stores

variable (codec : JsonCodec) (iso : IsoFormat)

/-- The text of the JSON form of a snapshot. A number that JSON text cannot hold is refused. -/
def writeDocument (s : SessionSnapshot) : Except StoreError Document :=
  match encodeSessionSnapshot codec iso s with
  | .ok v => if h : v.isPlain = true then .ok ⟨v, h⟩ else .error .notSerializable
  | .error _ => .error .notSerializable

def readDocument (d : Document) : Except StoreError SessionSnapshot :=
  (decodeSessionSnapshot iso d.1).mapError fun _ => .malformed

variable {s : SessionSnapshot} {d : Document}

theorem writeDocument_eq_ok :
    writeDocument codec iso s = .ok d ↔ encodeSessionSnapshot codec iso s = .ok d.1 := by
  obtain ⟨v, hv⟩ := d
  unfold writeDocument
  split
  · next w hw =>
      rw [hw]
      constructor
      · intro h
        split at h
        · cases h
          rfl
        · cases h
      · intro h
        cases h
        simp [hv]
  · next e he => simp [he]

theorem readDocument_eq_ok : readDocument iso d = .ok s ↔ decodeSessionSnapshot iso d.1 = .ok s := by
  unfold readDocument
  cases decodeSessionSnapshot iso d.1 <;> simp [Except.mapError]

theorem readDocument_write (hc : Coherent s)
    (h : writeDocument codec iso s = .ok d) :
    ∃ t, copySession codec s = .ok t ∧ readDocument iso d = .ok t := by
  rw [writeDocument_eq_ok] at h
  have hr := snapshot_readsAs codec iso hc
  obtain ⟨t, ht⟩ := hr.copied _ h
  obtain ⟨v, hv, hd⟩ := hr.read t ht
  obtain rfl : v = d.1 := Except.ok.inj (hv.symm.trans h)
  exact ⟨t, ht, (readDocument_eq_ok iso).mpr hd⟩

/-- `FileSessionStore`: one document a session, read again for its version. -/
def fileBackend : Backend codec where
  Record := Document
  write := writeDocument codec iso
  read := readDocument iso
  version d := do pure (← readDocument iso d).version
  read_write _ _ := readDocument_write codec iso
  same_session s d t h ht :=
    sessionId_of_reread ((writeDocument_eq_ok codec iso).mp h) ((readDocument_eq_ok iso).mp ht)
  read_version d s h := by rw [h]; rfl
  handedOut d s h := decodeSessionSnapshot_handedOut d.2 ((readDocument_eq_ok iso).mp h)

/-- `SQLiteSessionStore`: a document and, in a column of its own, its version. -/
def sqliteBackend : Backend codec where
  Record := Document × Int
  write s := do pure (← writeDocument codec iso s, s.version)
  read row := do pure { ← readDocument iso row.1 with version := row.2 }
  version row := .ok row.2
  read_write s row hc h := by
    obtain ⟨d, hd, hk⟩ := Except.bind_eq_ok.mp h
    cases hk
    obtain ⟨t, ht, hr⟩ := readDocument_write codec iso hc hd
    refine ⟨t, ht, ?_⟩
    rw [hr, Except.ok_bind, ← (copySession_same ht).2.1]
    rfl
  same_session s row t h ht := by
    obtain ⟨d, hd, hk⟩ := Except.bind_eq_ok.mp h
    cases hk
    obtain ⟨u, hu, hk⟩ := Except.bind_eq_ok.mp ht
    cases hk
    exact sessionId_of_reread (t := u) ((writeDocument_eq_ok codec iso).mp hd)
      ((readDocument_eq_ok iso).mp hu)
  read_version row s h := by
    obtain ⟨u, -, hk⟩ := Except.bind_eq_ok.mp h
    cases hk
    rfl
  handedOut row s h := by
    obtain ⟨u, hu, hk⟩ := Except.bind_eq_ok.mp h
    cases hk
    have hh := decodeSessionSnapshot_handedOut row.1.2 ((readDocument_eq_ok iso).mp hu)
    exact ⟨hh.plain, hh.totals, hh.domains⟩

end Stores

end UniversalAgent.Persistence
