import UniversalAgent.Foundation.Sorting
import UniversalAgent.World.BoundedHistory
import UniversalAgent.World.CrossDomainModel

/-!
# World — Single domain

Where all evidence is of one domain, the merged world (`world/cross_domain_model.py`) is compared with the
in-memory model (`world/model.py`). The model keeps every piece of evidence of a claim up to its cap, and the
merged world those that were above the fact they came to: they say the same when no evidence is dropped, when
no evidence of a claim disagrees, and when no entity is the same as a lesser one.
-/

namespace UniversalAgent.World

open UniversalAgent.Core UniversalAgent.Foundation UniversalAgent.Evidence

variable {m : Core.Evidence} {l : List Core.Evidence} {f : WorldFact} {k : String × String}
  {p : WorldFact × Bool} {names : List String} {e : Core.Evidence}

/-! ## Buckets -/

section Buckets

variable {dumps : Json → String} {cap : Nat} {l : List Core.Evidence} {m n : Core.Evidence}

theorem inOrder_ids_nodup (hids : (l.map Core.Evidence.id).Nodup) :
    ((inOrder l).map Core.Evidence.id).Nodup := ((inOrder_perm l).map _).nodup_iff.mpr hids

theorem inOrder_oldest (hids : (l.map Core.Evidence.id).Nodup) (hm : m ∈ l) (holdest : ∀ x ∈ l, Observed m x) :
    ∃ rest, inOrder l = m :: rest := by
  have hsorted := pairwise_inOrder l
  cases horder : inOrder l with
  | nil =>
    have hmem := mem_inOrder.mpr hm
    rw [horder] at hmem
    cases hmem
  | cons a rest =>
    have ha : a ∈ l := mem_inOrder.mp (horder ▸ List.mem_cons_self)
    rcases List.mem_cons.mp (horder ▸ mem_inOrder.mpr hm) with rfl | hmem
    · exact ⟨rest, rfl⟩
    · rw [horder] at hsorted
      have hid := (holdest a ha).id_eq ((List.pairwise_cons.mp hsorted).1 m hmem)
      obtain rfl := List.inj_on_of_nodup_map hids hm ha hid
      exact ⟨rest, rfl⟩

theorem inOrder_newest (hids : (l.map Core.Evidence.id).Nodup) (hn : n ∈ l) (hnewest : ∀ x ∈ l, Observed x n) :
    ∃ rest, inOrder l = rest ++ [n] := by
  have hsorted := pairwise_inOrder l
  rcases List.eq_nil_or_concat (inOrder l) with horder | ⟨rest, a, horder⟩
  · have hmem := mem_inOrder.mpr hn
    rw [horder] at hmem
    cases hmem
  · rw [List.concat_eq_append] at horder
    have ha : a ∈ l := mem_inOrder.mp (horder ▸ List.mem_append_right rest (List.mem_singleton_self a))
    rcases List.mem_append.mp (horder ▸ mem_inOrder.mpr hn) with hmem | hmem
    · rw [horder] at hsorted
      have hle := (List.pairwise_append.mp hsorted).2.2 n hmem a (List.mem_singleton_self a)
      obtain rfl := List.inj_on_of_nodup_map hids hn ha (hle.id_eq (hnewest a ha))
      exact ⟨rest, horder⟩
    · obtain rfl := List.mem_singleton.mp hmem
      exact ⟨rest, horder⟩

def keptIds (dumps : Json → String) (l : List Core.Evidence) : List EvidenceId :=
  ((inOrder l).reverse.foldl (fun (acc : List String × List EvidenceId) item =>
    if dumps item.value ∈ acc.1 then acc else (dumps item.value :: acc.1, item.id :: acc.2))
      ([], ((currentFact? l).map Core.Evidence.id).toList)).2

theorem trimFactBucket_of_lt (h : cap < l.length) : trimFactBucket dumps cap l =
    (l.filter fun item => item.id ∈ keptIds dumps l) ++
      ((inOrder l).reverse.filter fun item => item.id ∉ keptIds dumps l).take
        (cap - (l.filter fun item => item.id ∈ keptIds dumps l).length) := if_neg (Nat.not_le_of_gt h)

theorem length_kept (dumps : Json → String) (l : List Core.Evidence) :
    (l.filter fun item => item.id ∈ keptIds dumps l).length +
      ((inOrder l).reverse.filter fun item => item.id ∉ keptIds dumps l).length = l.length := by
  have hperm := (List.reverse_perm (inOrder l)).trans (inOrder_perm l)
  rw [(hperm.filter _).length_eq]
  simpa using (List.filter_append_perm (fun item => decide (item.id ∈ keptIds dumps l)) l).length_eq

theorem trimFactBucket_full (h : cap ≤ l.length) : cap ≤ (trimFactBucket dumps cap l).length := by
  rcases Nat.lt_or_ge cap l.length with hlt | hle
  · have hlength := length_kept dumps l
    rw [trimFactBucket_of_lt hlt, List.length_append, List.length_take]
    omega
  · rw [trimFactBucket_of_le dumps hle]
    exact h

/-- What was observed last is the newest of its text. -/
theorem trimFactBucket_newest (hids : (l.map Core.Evidence.id).Nodup) (hn : n ∈ l)
    (hnewest : ∀ x ∈ l, Observed x n) : n ∈ trimFactBucket dumps cap l := by
  rcases Nat.lt_or_ge cap l.length with hlt | hle
  · rw [trimFactBucket_of_lt hlt]
    refine List.mem_append_left _ (List.mem_filter.mpr ⟨hn, decide_eq_true ?_⟩)
    obtain ⟨rest, horder⟩ := inOrder_newest hids hn hnewest
    rw [keptIds, horder, List.reverse_append, List.reverse_singleton, List.singleton_append,
      List.foldl_cons, if_neg List.not_mem_nil]
    exact (perValue_spec dumps rest.reverse _).1 n.id List.mem_cons_self
  · rw [trimFactBucket_of_le dumps hle]
    exact hn

def OneText (dumps : Json → String) (l : List Core.Evidence) : Prop :=
  ∀ e ∈ l, ∀ e' ∈ l, dumps e.value = dumps e'.value

theorem perValue_one {text : String} {acc : List String × List EvidenceId} (htext : text ∈ acc.1)
    (h : ∀ e ∈ l, dumps e.value = text) :
    l.foldl (fun (acc : List String × List EvidenceId) item =>
      if dumps item.value ∈ acc.1 then acc else (dumps item.value :: acc.1, item.id :: acc.2)) acc = acc := by
  induction l with
  | nil => rfl
  | cons e l ih =>
    rw [List.foldl_cons, if_pos (h e List.mem_cons_self ▸ htext)]
    exact ih fun e he => h e (List.mem_cons_of_mem _ he)

/-- Where all is of one text, the last that was observed and the current fact are kept. -/
theorem keptIds_one (htext : OneText dumps l) {rest : List Core.Evidence} (horder : inOrder l = rest ++ [n]) :
    keptIds dumps l = n.id :: ((currentFact? l).map Core.Evidence.id).toList := by
  have hmem : ∀ x ∈ rest ++ [n], x ∈ l := fun x hx => mem_inOrder.mp (horder ▸ hx)
  rw [keptIds, horder, List.reverse_append, List.reverse_singleton, List.singleton_append, List.foldl_cons,
    if_neg List.not_mem_nil, @perValue_one _ _ (dumps n.value) _ List.mem_cons_self fun e he => ?_]
  have he := hmem e (List.mem_append_left _ (List.mem_reverse.mp he))
  exact htext e he n (hmem n (List.mem_append_right _ (List.mem_singleton_self n)))

/-- Where all is of one text, what was observed first is dropped unless it is the current fact. -/
theorem trimFactBucket_oldest (hids : (l.map Core.Evidence.id).Nodup) (htext : OneText dumps l)
    (hcap : 0 < cap) (hlength : cap < l.length) (hm : m ∈ trimFactBucket dumps cap l)
    (holdest : ∀ x ∈ l, Observed m x) : currentFact? l = some m := by
  have hml := trimFactBucket_subset dumps cap hm
  obtain ⟨rest, horder⟩ := inOrder_oldest hids hml holdest
  have hcount := (inOrder_perm l).length_eq
  have hnodup := inOrder_ids_nodup hids
  rcases List.eq_nil_or_concat rest with rfl | ⟨older, n, rfl⟩
  · rw [horder, List.length_singleton] at hcount
    omega
  · rw [List.concat_eq_append] at horder
    have hkept := @keptIds_one _ _ _ htext (m :: older) horder
    have hne : m.id ≠ n.id := by
      rw [horder, List.map_cons, List.nodup_cons] at hnodup
      exact fun he => hnodup.1 (he ▸ List.mem_map_of_mem (by simp))
    rw [trimFactBucket_of_lt hlength] at hm
    rcases List.mem_append.mp hm with hm | hm
    · -- it is kept, and it is not the last
      have hid := of_decide_eq_true (List.mem_filter.mp hm).2
      rw [hkept] at hid
      rcases List.mem_cons.mp hid with hid | hid
      · exact absurd hid hne
      · obtain ⟨b, hb, hid⟩ := Option.map_eq_some_iff.mp (Option.mem_toList.mp hid)
        rw [hb, List.inj_on_of_nodup_map hids (currentFact?_spec hb).1 hml hid]
    · -- it is the last of the rest, of which not all are taken
      have hrest := (List.mem_filter.mp (List.mem_of_mem_take hm)).2
      have hdrop := length_kept dumps l
      have hreverse : (inOrder l).reverse = (older ++ [n]).reverse ++ [m] := by
        rw [horder, List.reverse_cons]
      have hlast : [m].filter (fun item => decide (item.id ∉ keptIds dumps l)) = [m] :=
        List.filter_eq_self.mpr fun x hx => List.mem_singleton.mp hx ▸ hrest
      rw [hreverse, List.filter_append, hlast] at hm hdrop
      rw [List.length_append, List.length_singleton] at hdrop
      rw [List.take_append_of_le_length (by omega)] at hm
      have hmem := List.mem_reverse.mp (List.mem_filter.mp (List.mem_of_mem_take hm)).1
      rw [horder, List.map_cons, List.nodup_cons] at hnodup
      exact absurd (List.mem_map_of_mem hmem) hnodup.1

def bucketRun (dumps : Json → String) (cap : Nat) (l : List Core.Evidence) : List Core.Evidence :=
  l.foldl (fun bucket e => trimFactBucket dumps cap (bucket ++ [e])) []

theorem bucketRun_snoc (l : List Core.Evidence) (e : Core.Evidence) :
    bucketRun dumps cap (l ++ [e]) = trimFactBucket dumps cap (bucketRun dumps cap l ++ [e]) := by
  rw [bucketRun, List.foldl_append]
  rfl

structure BucketOf (dumps : Json → String) (cap : Nat) (l bucket : List Core.Evidence) : Prop where
  subset : ∀ x ∈ bucket, x ∈ l
  distinct : (bucket.map Core.Evidence.id).Nodup
  present : SamePresent (fun v => some (dumps v)) bucket l
  whole : l.length ≤ cap → bucket = l
  full : cap ≤ l.length → cap ≤ bucket.length
  newest : ∀ n ∈ l, (∀ x ∈ l, Observed x n) → n ∈ bucket
  oldest : OneText dumps l → cap < l.length → ∀ m ∈ bucket, (∀ x ∈ l, Observed m x) → currentFact? l = some m

theorem BucketOf.snoc (hcap : 0 < cap) {bucket : List Core.Evidence} {e : Core.Evidence}
    (h : BucketOf dumps cap l bucket) (hids : ((l ++ [e]).map Core.Evidence.id).Nodup) :
    BucketOf dumps cap (l ++ [e]) (trimFactBucket dumps cap (bucket ++ [e])) := by
  have hsubset : ∀ x ∈ bucket ++ [e], x ∈ l ++ [e] := fun x hx => by
    rcases List.mem_append.mp hx with hx | hx
    · exact List.mem_append_left _ (h.subset x hx)
    · exact List.mem_append_right _ hx
  have hdistinct : ((bucket ++ [e]).map Core.Evidence.id).Nodup := by
    rw [List.map_append, List.nodup_append] at hids ⊢
    refine ⟨h.distinct, hids.2.1, fun i hi j hj => hids.2.2 i ?_ j hj⟩
    obtain ⟨x, hx, rfl⟩ := List.mem_map.mp hi
    exact List.mem_map_of_mem (h.subset x hx)
  have hpresent := (@samePresent_trim (fun v => some (dumps v)) _ cap hdistinct fun _ _ => rfl).trans
    (h.present.append e)
  constructor
  case subset => exact fun x hx => hsubset x (trimFactBucket_subset _ _ hx)
  case distinct => exact trimFactBucket_nodup dumps cap hdistinct
  case present => exact hpresent
  case whole =>
    intro hle
    rw [List.length_append, List.length_singleton] at hle
    rw [h.whole (by omega), trimFactBucket_of_le]
    rwa [List.length_append, List.length_singleton]
  case full =>
    intro hle
    rw [List.length_append, List.length_singleton] at hle
    refine trimFactBucket_full ?_
    rw [List.length_append, List.length_singleton]
    rcases Nat.lt_or_ge l.length cap with hlt | hge
    · rw [h.whole hlt.le]
      exact hle
    · have := h.full hge
      omega
  case newest =>
    intro n hn hnewest
    refine trimFactBucket_newest hdistinct ?_ fun x hx => hnewest x (hsubset x hx)
    rcases List.mem_append.mp hn with hn | hn
    · exact List.mem_append_left _ (h.newest n hn fun x hx => hnewest x (List.mem_append_left _ hx))
    · exact List.mem_append_right _ hn
  case oldest =>
    intro htext hlt m hm holdest
    rw [List.length_append, List.length_singleton] at hlt
    have hfull : cap < (bucket ++ [e]).length := by
      rw [List.length_append, List.length_singleton]
      have := h.full (by omega)
      omega
    have hcurrent := trimFactBucket_oldest hdistinct
      (fun x hx y hy => htext x (hsubset x hx) y (hsubset y hy)) hcap hfull hm
      fun x hx => holdest x (hsubset x hx)
    rw [← (h.present.append e).current, hcurrent]

theorem bucketRun_spec (hcap : 0 < cap) (hids : (l.map Core.Evidence.id).Nodup) :
    BucketOf dumps cap l (bucketRun dumps cap l) := by
  induction l using List.reverseRecOn with
  | nil =>
    exact ⟨fun _ h => h, List.nodup_nil, .refl _, fun _ => rfl, fun h => h, nofun, fun _ _ _ h => nomatch h⟩
  | append_singleton l e ih =>
    rw [bucketRun_snoc]
    refine (ih (hids.sublist ?_)).snoc hcap hids
    exact (List.sublist_append_left l [e]).map _

end Buckets

/-! ## One claim -/

section Claims

variable {dumps : Json → String} {cap : Nat} {l : List Core.Evidence} {k : String × String}

/-- What a snapshot of the model states of a claim: the fact, and whether its evidence disagrees. -/
def statedOf (dumps : Json → String) (k : String × String) (bucket : List Core.Evidence) :
    Option (WorldFact × Bool) :=
  (currentFact? bucket).map fun current =>
    (⟨k.1, k.2, current.value, current.confidence, current.observedAt, (inOrder bucket).map Core.Evidence.id⟩,
      hasConflictingValues dumps (inOrder bucket))

/-- What the merged world states of a claim about an entity that is its own. -/
def restatedOf (l : List Core.Evidence) : Option (WorldFact × Bool) :=
  ((inOrder l).foldl advance none).map fun fact => (fact, false)

/-- No evidence of a claim is dropped: there is no more than the cap, and each piece agrees with the one
before it and is above it. -/
structure Undropped (dumps : Json → String) (cap : Nat) (l : List Core.Evidence) : Prop where
  few : l.length ≤ cap
  agreeing : OneText dumps l
  rising : (inOrder l).Pairwise Below

theorem hasConflictingValues_eq_false : hasConflictingValues dumps l = false ↔ OneText dumps l := by
  rw [hasConflictingValues, decide_eq_false_iff_not, one_lt_length_iff (List.nodup_dedup _)]
  constructor
  · intro h e he e' he'
    by_contra hne
    exact h ⟨_, List.mem_dedup.mpr (List.mem_map_of_mem he), _, List.mem_dedup.mpr (List.mem_map_of_mem he'), hne⟩
  · rintro h ⟨_, ha, _, hb, hne⟩
    obtain ⟨e, he, rfl⟩ := List.mem_map.mp (List.mem_dedup.mp ha)
    obtain ⟨e', he', rfl⟩ := List.mem_map.mp (List.mem_dedup.mp hb)
    exact hne (h e he e' he')

theorem oneText_congr {l' : List Core.Evidence} (h : SamePresent (fun v => some (dumps v)) l l') :
    OneText dumps l ↔ OneText dumps l' := by
  have hsame : hasConflictingValues dumps l = hasConflictingValues dumps l' :=
    @hasConflictingValues_congr (fun v => some (dumps v)) _ _ h.texts
  rw [← hasConflictingValues_eq_false, ← hasConflictingValues_eq_false, hsame]

theorem oneText_inOrder : OneText dumps (inOrder l) ↔ OneText dumps l := by
  simp only [OneText, mem_inOrder]

variable {rest : List Core.Evidence}

/-- A claim that has been observed is restated by its records. -/
theorem restatedOf_eq (hids : (l.map Core.Evidence.id).Nodup)
    (horder : inOrder l = m :: rest) : restatedOf l = some (recordedFact m [m.id] rest, false) := by
  have hnodup := inOrder_ids_nodup hids
  rw [horder] at hnodup
  rw [restatedOf, horder, List.foldl_cons]
  exact congrArg (Option.map fun fact => (fact, false)) (@foldl_advance m [m.id] _ hnodup)

/-- Where more evidence came than the cap, a piece that is recorded has been dropped, or one is kept that was
not recorded. -/
theorem length_le_of_ids (hcap : 0 < cap) (hids : (l.map Core.Evidence.id).Nodup) (htext : OneText dumps l)
    (horder : inOrder l = m :: rest)
    (h : (inOrder (bucketRun dumps cap l)).map Core.Evidence.id =
      m.id :: (recordsFrom Below m rest).map Core.Evidence.id) : l.length ≤ cap := by
  have hbucket := @bucketRun_spec dumps _ _ hcap hids
  have hsorted := pairwise_inOrder l
  have hnodup := inOrder_ids_nodup hids
  have hcount := (inOrder_perm l).length_eq
  have hm : m ∈ l := mem_inOrder.mp (horder ▸ List.mem_cons_self)
  by_contra hlt
  rw [horder] at hsorted hnodup hcount
  have holdest : ∀ x ∈ l, Observed m x := by
    intro x hx
    rcases List.mem_cons.mp (horder ▸ mem_inOrder.mpr hx) with rfl | hx
    · exact .refl x
    · exact (List.pairwise_cons.mp hsorted).1 x hx
  have hkept : m ∈ bucketRun dumps cap l := by
    obtain ⟨x, hx, hid⟩ := List.mem_map.mp (h ▸ List.mem_cons_self :
      m.id ∈ (inOrder (bucketRun dumps cap l)).map Core.Evidence.id)
    have hx := mem_inOrder.mp hx
    exact List.inj_on_of_nodup_map hids (hbucket.subset x hx) hm hid ▸ hx
  have hcurrent := hbucket.oldest htext (by omega) m hkept holdest
  rcases List.eq_nil_or_concat rest with rfl | ⟨older, n, rfl⟩
  · rw [List.length_singleton] at hcount
    omega
  · -- the last is kept, so it is a record, above the first
    rw [List.concat_eq_append] at *
    have hn : n ∈ l := mem_inOrder.mp (horder ▸ by simp)
    have hnewest : ∀ x ∈ l, Observed x n := by
      intro x hx
      rw [← List.cons_append] at horder hsorted
      rcases List.mem_append.mp (horder ▸ mem_inOrder.mpr hx) with hx | hx
      · exact (List.pairwise_append.mp hsorted).2.2 x hx n (List.mem_singleton_self n)
      · exact List.mem_singleton.mp hx ▸ .refl _
    have hid : n.id ∈ m.id :: (recordsFrom Below m (older ++ [n])).map Core.Evidence.id :=
      h ▸ List.mem_map_of_mem (mem_inOrder.mpr (hbucket.newest n hn hnewest))
    rw [List.map_cons, List.nodup_cons] at hnodup
    rcases List.mem_cons.mp hid with hid | hid
    · exact hnodup.1 (hid ▸ List.mem_map_of_mem (by simp))
    · obtain ⟨r, hr, hid⟩ := List.mem_map.mp hid
      have hrl : r ∈ l := mem_inOrder.mp (horder ▸ List.mem_cons_of_mem m (recordsFrom_sublist.subset hr))
      obtain rfl := List.inj_on_of_nodup_map hids hrl hn hid
      exact (above_of_mem_recordsFrom hr).not_outranked ((currentFact?_spec hcurrent).2 r hrl)

/-- Where each is above the one before it, the last is above all. -/
theorem below_last (h : (m :: rest).Pairwise Below) :
    ∀ x ∈ m :: rest, x = rest.getLastD m ∨ Below x (rest.getLastD m) := by
  induction rest generalizing m with
  | nil => exact fun x hx => .inl (List.mem_singleton.mp hx)
  | cons a rest ih =>
    obtain ⟨hm, hrest⟩ := List.pairwise_cons.mp h
    intro x hx
    rw [List.getLastD_cons]
    rcases List.mem_cons.mp hx with rfl | hx
    · exact .inr (hm _ List.getLastD_mem_cons)
    · exact ih hrest x hx

/-- **The model and the merged world state the same of a claim** just when no evidence of it is dropped. -/
theorem statedOf_eq_iff (hcap : 0 < cap) (hids : (l.map Core.Evidence.id).Nodup)
    (hkey : ∀ e ∈ l, claimKey e = k) :
    statedOf dumps k (bucketRun dumps cap l) = restatedOf l ↔ Undropped dumps cap l := by
  have hbucket := @bucketRun_spec dumps _ _ hcap hids
  cases horder : inOrder l with
  | nil =>
    obtain rfl : l = [] := (horder ▸ inOrder_perm l).nil_eq.symm
    exact iff_of_true rfl ⟨Nat.zero_le cap, nofun, List.Pairwise.nil⟩
  | cons m rest =>
    rw [restatedOf_eq hids horder]
    constructor
    · intro h
      obtain ⟨c, -, hstated⟩ := Option.map_eq_some_iff.mp h
      obtain ⟨hfact, hconflict⟩ := Prod.mk.inj hstated
      have htext : OneText dumps l := (oneText_congr hbucket.present).mp
        (oneText_inOrder.mp (hasConflictingValues_eq_false.mp hconflict))
      have hrecorded := congrArg WorldFact.evidenceIds hfact
      have hfew := length_le_of_ids hcap hids htext horder hrecorded
      refine ⟨hfew, htext, ?_⟩
      rw [hbucket.whole hfew, horder] at hrecorded
      have hlength := congrArg List.length hrecorded
      simp only [List.length_map, List.length_cons, recordedFact, List.length_append, List.length_nil] at hlength
      have hall : recordsFrom Below m rest = rest := recordsFrom_sublist.eq_of_length (by omega)
      exact horder ▸ List.isChain_iff_pairwise.mp (recordsFrom_eq_self_iff.mp hall)
    · rintro ⟨hfew, htext, hrising⟩
      rw [horder] at hrising
      have hall := recordsFrom_eq_self_iff.mpr (List.isChain_iff_pairwise.mpr hrising)
      have hconflict := hasConflictingValues_eq_false.mpr (oneText_inOrder.mpr htext)
      have hmem : ∀ x, x ∈ l ↔ x ∈ m :: rest := fun x => by rw [← horder, mem_inOrder]
      have hcurrent : currentFact? l = some (rest.getLastD m) := by
        cases hc : currentFact? l with
        | none =>
          rw [currentFact?_eq_none.mp hc] at horder
          cases horder
        | some c =>
          obtain ⟨hcl, hmax⟩ := currentFact?_spec hc
          have hlast := (hmem _).mpr List.getLastD_mem_cons
          rcases below_last hrising c ((hmem c).mp hcl) with rfl | hbelow
          · rfl
          · exact absurd (hmax _ hlast) hbelow.not_outranked
      have hk := hkey _ ((hmem _).mpr List.getLastD_mem_cons)
      rw [hbucket.whole hfew, statedOf, hconflict, recordedFact, hall, hcurrent, horder, ← hk]
      rfl

end Claims

/-! ## The model -/

section Memory

variable {dumps : Json → String} {cap : Nat} {items : List Core.Evidence} {sessionId : SessionId}

def SameBuckets (w w' : WorldModel) : Prop := w'.facts = w.facts ∧ w'.maxEvidencePerFact = w.maxEvidencePerFact

theorem sameBuckets_relations (w : WorldModel) (sessionId : SessionId) (relations : List WorldRelation) :
    SameBuckets w (relations.foldl (fun w r => w.applyRelation sessionId r) w) := by
  induction relations generalizing w with
  | nil => exact ⟨rfl, rfl⟩
  | cons r relations ih =>
    have hone : SameBuckets w (w.applyRelation sessionId r) := by
      unfold WorldModel.applyRelation
      split <;> exact ⟨rfl, rfl⟩
    exact ⟨(ih _).1.trans hone.1, (ih _).2.trans hone.2⟩

/-- Entities and relations are kept apart from the facts. -/
theorem sameBuckets_updater (w : WorldModel) (e : Core.Evidence) :
    SameBuckets (w.applyFact dumps e) (factWorldUpdater dumps w e) := by
  unfold factWorldUpdater
  split <;> exact sameBuckets_relations _ _ _

theorem cap_applyFact (w : WorldModel) (e : Core.Evidence) :
    (w.applyFact dumps e).maxEvidencePerFact = w.maxEvidencePerFact := by
  rw [WorldModel.applyFact_eq]
  split
  · rfl
  · exact WorldModel.refresh_maxEvidencePerFact _ _ _

theorem cap_applied (hcap : 0 < cap) (items : List Core.Evidence) :
    (items.foldl (factWorldUpdater dumps) (.withCap cap hcap)).maxEvidencePerFact = cap := by
  induction items using List.reverseRecOn with
  | nil => rfl
  | append_singleton items e ih =>
    rw [List.foldl_append, List.foldl_cons, List.foldl_nil, (sameBuckets_updater _ e).2, cap_applyFact, ih]

theorem bucketRun_subset {x : Core.Evidence} (h : x ∈ bucketRun dumps cap l) : x ∈ l := by
  induction l using List.reverseRecOn with
  | nil => exact h
  | append_singleton l e ih =>
    rw [bucketRun_snoc] at h
    rcases List.mem_append.mp (trimFactBucket_subset _ _ h) with h | h
    · exact List.mem_append_left _ (ih h)
    · exact List.mem_append_right _ h

def evidenceFor (sessionId : SessionId) (k : String × String) (items : List Core.Evidence) : List Core.Evidence :=
  items.filter fun e => (e.sessionId, claimKey e) = (sessionId, k)

/-- Each claim has the bucket of the evidence that was applied for it. -/
theorem factEvidence_applied (hcap : 0 < cap) (hids : (items.map Core.Evidence.id).Nodup)
    (sessionId : SessionId) (k : String × String) :
    (items.foldl (factWorldUpdater dumps) (.withCap cap hcap)).factEvidence sessionId k.1 k.2 =
      bucketRun dumps cap (evidenceFor sessionId k items) := by
  induction items using List.reverseRecOn generalizing sessionId k with
  | nil => rfl
  | append_singleton items e ih =>
    have hcapped := @cap_applied dumps _ hcap items
    rw [List.foldl_append, List.foldl_cons, List.foldl_nil]
    generalize items.foldl (factWorldUpdater dumps) (.withCap cap hcap) = w at ih hcapped ⊢
    rw [List.map_append, List.nodup_append] at hids
    have hbucket := fun sessionId k => ih hids.1 sessionId k
    have hfresh : ¬((w.factEvidence e.sessionId e.subject e.claim).any fun item => item.id = e.id) = true := by
      rw [hbucket e.sessionId (claimKey e), List.any_eq_true]
      rintro ⟨x, hx, hid⟩
      have hx := List.mem_of_mem_filter (bucketRun_subset hx)
      exact hids.2.2 x.id (List.mem_map_of_mem hx) e.id (by simp) (of_decide_eq_true hid)
    have hone : (factWorldUpdater dumps w e).factEvidence sessionId k.1 k.2 =
        (w.applyFact dumps e).factEvidence sessionId k.1 k.2 := by
      unfold WorldModel.factEvidence
      rw [(sameBuckets_updater w e).1]
    rw [hone, WorldModel.applyFact_eq, if_neg hfresh, WorldModel.factEvidence_refresh,
      WorldModel.factEvidence_withFact, hcapped, evidenceFor, filter_snoc]
    by_cases hk : (e.sessionId, claimKey e) = (sessionId, k)
    · obtain ⟨rfl, rfl⟩ := Prod.mk.inj hk
      rw [if_pos ⟨rfl, rfl, rfl⟩, if_pos rfl, bucketRun_snoc, hbucket e.sessionId (claimKey e), evidenceFor]
    · have hne : ¬(sessionId = e.sessionId ∧ k.1 = e.subject ∧ k.2 = e.claim) :=
        fun h => hk (Prod.ext h.1.symm (Prod.ext h.2.1.symm h.2.2.symm))
      rw [if_neg hne, if_neg hk, List.append_nil, hbucket sessionId k, evidenceFor]

/-- Evidence that is observed is stored (`record`), and is applied to the model the first time. -/
def observeInto (dumps : Json → String) (held : EvidenceStore × WorldModel) (e : Core.Evidence) :
    EvidenceStore × WorldModel :=
  ((held.1.add e).2, if (held.1.add e).1 then factWorldUpdater dumps held.2 e else held.2)

def observed (dumps : Json → String) (cap : Nat) (hcap : 0 < cap) (items : List Core.Evidence) :
    EvidenceStore × WorldModel :=
  items.foldl (observeInto dumps) (Table.empty, .withCap cap hcap)

/-- What is stored has been applied to the model, each piece once. -/
theorem model_observed (hcap : 0 < cap) (items : List Core.Evidence) : (observed dumps cap hcap items).2 =
    (observed dumps cap hcap items).1.rows.foldl (factWorldUpdater dumps) (.withCap cap hcap) := by
  induction items using List.reverseRecOn with
  | nil => rfl
  | append_singleton items e ih =>
    rw [observed, List.foldl_append, List.foldl_cons, List.foldl_nil, ← observed, observeInto]
    generalize observed dumps cap hcap items = held at ih ⊢
    cases hget : held.1.get? e.id with
    | some x =>
      obtain ⟨hx, hid⟩ := Table.get?_eq_some.mp hget
      rw [EvidenceStore.add_refused hx hid, if_neg Bool.false_ne_true, ih]
    | none =>
      rw [EvidenceStore.add_eq (Table.get?_eq_none.mp hget), if_pos rfl, Table.rows_put_of_fresh hget,
        List.foldl_append, List.foldl_cons, List.foldl_nil, ih]

end Memory

/-! ## The merged world -/

section Merged

variable {views : List DomainWorldView} {edges : List (String × String)} {identityRelations : List WorldRelation}
  {mappings : List EntityIdentityMapping} {policy : WorldMergePolicy} {sessionId : SessionId}

theorem facts_factEntries (ids : List (String × String)) (views : List DomainWorldView) :
    (factEntries ids views).map FactEntry.key =
      (viewFacts views).map fun fact => (canonicalEntityId fact.subject ids, fact.claim) := by
  rw [factEntries, viewFacts, List.map_flatMap, List.map_flatMap]
  exact List.flatMap_congr fun view _ => by rw [List.map_map]; rfl

theorem filter_key_eq {α κ : Type} [DecidableEq κ] {key : α → κ} {items : List α} {a : α}
    (h : (items.map key).Nodup) (ha : a ∈ items) : (items.filter fun b => key b = key a) = [a] := by
  induction items with
  | nil => cases ha
  | cons b items ih =>
    rw [List.map_cons, List.nodup_cons] at h
    rcases List.mem_cons.mp ha with rfl | ha
    · have hnone : (items.filter fun c => key c = key a) = [] := by
        refine List.filter_eq_nil_iff.mpr fun c hc hkey => h.1 ?_
        exact of_decide_eq_true hkey ▸ List.mem_map_of_mem hc
      rw [List.filter_cons_of_pos (by simp), hnone]
    · have hne : key b ≠ key a := fun he => h.1 (he ▸ List.mem_map_of_mem ha)
      rw [List.filter_cons_of_neg (by simpa using hne)]
      exact ih h.2 ha

theorem mergedFact_alone {e : FactEntry} (hsubject : e.subject = e.fact.subject)
    (hids : e.fact.evidenceIds.Nodup) : mergedFact policy (e.key, [e]) = some e.fact := by
  have hchosen : chooseFactEntry policy [e] = some e := by
    simp only [chooseFactEntry, List.foldl_nil, ite_self]
  rw [mergedFact, hchosen, FactEntry.key, hsubject, List.flatMap_singleton, dedupeEvidenceIds_of_nodup hids]
  rfl

/-- What is merged is about entities that are their own. -/
theorem merged_own (h : IsIdentityClasses edges identityRelations mappings) {dumps : Json → String}
    {conflicts : List CrossDomainConflict}
    (hf : f ∈ (mergeWith dumps views sessionId policy mappings conflicts).snapshot.facts) :
    IsCanonicalOf edges f.subject f.subject := by
  rw [mergeWith, mem_sortedBy, List.mem_filterMap] at hf
  obtain ⟨⟨k, group⟩, hg, hmerged⟩ := hf
  obtain ⟨e, he, hkey⟩ := List.mem_map.mp (mem_groupBy.mp hg).1
  exact ((key_eq_iff h he).mp (hkey.trans (mergedFact_key hmerged).symm)).1.self

structure OwnFacts (edges : List (String × String)) (views : List DomainWorldView) : Prop where
  once : ((viewFacts views).map WorldFact.key).Nodup
  ids : ∀ f ∈ viewFacts views, f.evidenceIds.Nodup
  own : ∀ f ∈ viewFacts views, IsCanonicalOf edges f.subject f.subject

theorem OwnFacts.subject_eq (hown : OwnFacts edges views) (h : IsIdentityClasses edges identityRelations mappings)
    {e : FactEntry} (he : e ∈ factEntries (canonicalIdMapping mappings) views) : e.subject = e.fact.subject := by
  obtain ⟨hfact, hsubject⟩ := mem_factEntries he
  exact hsubject.trans ((canonicalEntityId_isLeast h e.fact.subject).unique (hown.own e.fact hfact))

theorem OwnFacts.group_alone (hown : OwnFacts edges views) (h : IsIdentityClasses edges identityRelations mappings)
    {group : (String × String) × List FactEntry} :
    group ∈ groupBy FactEntry.key (factEntries (canonicalIdMapping mappings) views) ↔
      ∃ e ∈ factEntries (canonicalIdMapping mappings) views, group = (e.key, [e]) := by
  have hkeys : ((factEntries (canonicalIdMapping mappings) views).map FactEntry.key).Nodup := by
    have hsame : ∀ f ∈ viewFacts views,
        (canonicalEntityId f.subject (canonicalIdMapping mappings), f.claim) = f.key := fun f hf =>
      congrArg (·, f.claim) ((canonicalEntityId_isLeast h f.subject).unique (hown.own f hf))
    rw [facts_factEntries, List.map_congr_left hsame]
    exact hown.once
  obtain ⟨k, group⟩ := group
  rw [mem_groupBy]
  constructor
  · rintro ⟨hk, rfl⟩
    obtain ⟨e, he, rfl⟩ := List.mem_map.mp hk
    exact ⟨e, he, by rw [filter_key_eq hkeys he]⟩
  · rintro ⟨e, he, heq⟩
    obtain ⟨rfl, rfl⟩ := Prod.mk.inj heq
    exact ⟨List.mem_map_of_mem he, (filter_key_eq hkeys he).symm⟩

/-- Facts about entities that are their own are merged into themselves. -/
theorem OwnFacts.mem_merged (hown : OwnFacts edges views) (h : IsIdentityClasses edges identityRelations mappings)
    {dumps : Json → String} {conflicts : List CrossDomainConflict} :
    f ∈ (mergeWith dumps views sessionId policy mappings conflicts).snapshot.facts ↔ f ∈ viewFacts views := by
  rw [mergeWith, mem_sortedBy, List.mem_filterMap]
  constructor
  · rintro ⟨group, hg, hmerged⟩
    obtain ⟨e, he, rfl⟩ := (hown.group_alone h).mp hg
    have hfact := (mem_factEntries he).1
    rw [mergedFact_alone (hown.subject_eq h he) (hown.ids _ hfact)] at hmerged
    exact Option.some.inj hmerged ▸ hfact
  · intro hf
    obtain ⟨e, he, rfl⟩ := exists_factEntry (canonicalIdMapping mappings) hf
    exact ⟨_, (hown.group_alone h).mpr ⟨e, he, rfl⟩, mergedFact_alone (hown.subject_eq h he) (hown.ids _ hf)⟩

theorem OwnFacts.no_conflicts (hown : OwnFacts edges views)
    (h : IsIdentityClasses edges identityRelations mappings) (dumps : Json → String) :
    groupConflicts dumps (groupBy FactEntry.key (factEntries (canonicalIdMapping mappings) views)) = [] := by
  refine List.eq_nil_iff_forall_not_mem.mpr fun c hc => ?_
  obtain ⟨group, hg, hconflict⟩ := List.mem_filterMap.mp (mem_sortedBy.mp hc)
  obtain ⟨e, -, rfl⟩ := (hown.group_alone h).mp hg
  have hone : conflictOf dumps e.key.1 e.key.2 [e] = none := by
    refine if_neg fun hlt => ?_
    obtain ⟨v, hv, v', hv', hne⟩ := one_lt_distinctValues.mp hlt
    rw [List.map_singleton, List.mem_singleton] at hv hv'
    exact hne (hv ▸ hv' ▸ rfl)
  rw [hone] at hconflict
  cases hconflict

end Merged

/-! ## What both state -/

/-- What a merged world states: each fact, and whether a conflict is reported of it. -/
def MergedWorld.stated (merged : MergedWorld) : List (WorldFact × Bool) :=
  merged.snapshot.facts.map fun f =>
    (f, decide (∃ c ∈ merged.conflicts, c.subject = f.subject ∧ c.claim = f.claim))

/-- What a snapshot of the model states: each fact, and whether its evidence disagrees. -/
def WorldSnapshot.stated (taken : WorldSnapshot) : List (WorldFact × Bool) :=
  taken.factHistories.map fun h => (h.current, h.conflicting)

abbrev statedKey (p : WorldFact × Bool) : List String := [p.1.subject, p.1.claim]

theorem map_sortedBy {α β : Type} {key : α → List String} {key' : β → List String} {f : α → β} {l : List α}
    (h : ∀ a ∈ l, key' (f a) = key a) : (sortedBy key l).map f = sortedBy key' (l.map f) :=
  List.map_insertionSort _ _ _ _ fun a ha b hb => by rw [h a ha, h b hb]

/-- Sorted statements, one for each claim, are the same when each makes what the other makes. -/
theorem sorted_eq_iff {α : Type} {key : α → List String} {l l' : List α} (h : (l.map key).Nodup)
    (h' : (l'.map key).Nodup) : sortedBy key l = sortedBy key l' ↔ ∀ a, a ∈ l ↔ a ∈ l' := by
  refine ⟨fun heq a => ?_, sortedBy_congr h h'⟩
  rw [← (@mem_sortedBy _ key), heq, mem_sortedBy]

section Stated

variable {dumps : Json → String} {cap : Nat} {w : WorldModel} {sessionId : SessionId}
  {subjects claims : List String}

theorem mem_askedHistories {h : WorldFactHistory} :
    h ∈ (WorldModel.selected (w.factRows sessionId) subjects claims).filterMap (FactBucket.history? dumps) ↔
      Asked subjects claims (h.subject, h.claim) ∧ w.historyOf dumps sessionId h.subject h.claim = some h := by
  rw [← WorldModel.mem_histories, List.mem_filterMap, List.mem_filterMap]
  constructor
  · rintro ⟨b, hb, hh⟩
    obtain ⟨hb, hasked⟩ := List.mem_filter.mp hb
    obtain ⟨hsubject, hclaim⟩ := WorldModel.history?_keys hh
    rw [hsubject, hclaim]
    exact ⟨of_decide_eq_true hasked, b, hb, hh⟩
  · rintro ⟨hasked, b, hb, hh⟩
    obtain ⟨hsubject, hclaim⟩ := WorldModel.history?_keys hh
    rw [hsubject, hclaim] at hasked
    exact ⟨b, List.mem_filter.mpr ⟨hb, decide_eq_true hasked⟩, hh⟩

theorem statedOf_history (dumps : Json → String) (w : WorldModel) (sessionId : SessionId) (k : String × String) :
    (w.historyOf dumps sessionId k.1 k.2).map (fun h => (h.current, h.conflicting)) =
      statedOf dumps k (w.factEvidence sessionId k.1 k.2) := by
  rw [WorldModel.historyOf, FactBucket.history?, Option.map_map]
  rfl

theorem statedOf_key (h : statedOf dumps k l = some p) : p.1.key = k := by
  obtain ⟨c, -, rfl⟩ := Option.map_eq_some_iff.mp h
  rfl

/-- A snapshot states of each claim that is asked for what its bucket does. -/
theorem takeSnapshot_stated (dumps : Json → String) (w : WorldModel) (sessionId : SessionId)
    (subjects claims : List String) :
    ∃ taken l, w.takeSnapshot sessionId (fun v => some (dumps v)) subjects claims = .ok taken ∧
      taken.stated = sortedBy statedKey l ∧ (l.map statedKey).Nodup ∧
      ∀ p, p ∈ l ↔ Asked subjects claims p.1.key ∧
        statedOf dumps p.1.key (w.factEvidence sessionId p.1.subject p.1.claim) = some p := by
  let histories := (WorldModel.selected (w.factRows sessionId) subjects claims).filterMap
    (FactBucket.history? dumps)
  have hkeys : ∀ h ∈ histories, statedKey (h.current, h.conflicting) = [h.subject, h.claim] := by
    intro h hh
    obtain ⟨b, -, hb⟩ := List.mem_filterMap.mp hh
    obtain ⟨c, -, rfl⟩ := Option.map_eq_some_iff.mp hb
    rfl
  refine ⟨_, histories.map fun h => (h.current, h.conflicting), if_pos fun _ _ _ _ => rfl, ?_, ?_, ?_⟩
  · exact map_sortedBy hkeys
  · rw [List.map_map, List.map_congr_left (g := fun h => [h.subject, h.claim]) hkeys]
    refine (WorldModel.histories_nodup dumps w sessionId).sublist (List.Sublist.map _ ?_)
    exact List.filter_sublist.filterMap _
  · rintro ⟨f, b⟩
    rw [List.mem_map, ← statedOf_history]
    constructor
    · rintro ⟨h, hh, heq⟩
      have hkey := hkeys h hh
      rw [heq] at hkey
      obtain ⟨hasked, hhistory⟩ := mem_askedHistories.mp hh
      simp only [statedKey, List.cons.injEq, and_true] at hkey
      rw [← hkey.1, ← hkey.2] at hasked hhistory
      exact ⟨hasked, Option.map_eq_some_iff.mpr ⟨h, hhistory, heq⟩⟩
    · rintro ⟨hasked, hstated⟩
      obtain ⟨h, hhistory, heq⟩ := Option.map_eq_some_iff.mp hstated
      refine ⟨h, mem_askedHistories.mpr ?_, heq⟩
      obtain ⟨hsubject, hclaim⟩ := WorldModel.history?_keys hhistory
      rw [hsubject, hclaim]
      exact ⟨hasked, hhistory⟩

end Stated

/-! ## One domain -/

section OneDomain

variable {store : EvidenceStore} {sessionId : SessionId} {subjects claims : List String}

def askedEvidence (store : EvidenceStore) (sessionId : SessionId) (subjects claims : List String) :
    List Core.Evidence :=
  (store.exportSession sessionId).filter fun e => Asked subjects claims (claimKey e)

theorem askedEvidence_ids (store : EvidenceStore) (sessionId : SessionId) (subjects claims : List String) :
    ((askedEvidence store sessionId subjects claims).map Core.Evidence.id).Nodup :=
  (EvidenceStore.exportSession_ids_nodup store sessionId).sublist (List.filter_sublist.map _)

theorem inOrder_query : inOrder ((store.query sessionId none none).filter fun e =>
    Asked subjects claims (claimKey e)) = askedEvidence store sessionId subjects claims := by
  have hquery : (store.query sessionId none none) = (store.exportSession sessionId).reverse := by
    simp [EvidenceStore.query]
  have hperm : ((store.query sessionId none none).filter fun e => Asked subjects claims (claimKey e)).Perm
      (askedEvidence store sessionId subjects claims) := by
    rw [hquery]
    exact (List.reverse_perm _).filter _
  have hsorted : (askedEvidence store sessionId subjects claims).Pairwise Observed :=
    (EvidenceStore.pairwise_exportSession store sessionId).filter _
  rw [inOrder_congr hperm ((hperm.map _).nodup_iff.mpr (askedEvidence_ids store sessionId subjects claims)),
    inOrder_eq_self hsorted]

/-- Where all is of one domain, its view has what the evidence is rebuilt to. -/
theorem domainViews_one {domain : String × String} {items evidence : List Core.Evidence}
    (horder : inOrder evidence = items) (hasked : ∀ e ∈ items, Asked subjects claims (claimKey e))
    (hdomain : ∀ e ∈ items, domainKey e = domain) :
    viewFacts (domainViews sessionId evidence subjects claims) =
        sortedBy (fun f => [f.subject, f.claim]) (items.foldl applyToFacts Table.empty).rows ∧
      allRelations (domainViews sessionId evidence subjects claims) =
        sortedBy (fun r => [r.source, r.relation, r.target]) (items.foldl applyToRelations Table.empty).rows := by
  have hmem : ∀ e ∈ evidence, e ∈ items := fun e he => horder ▸ mem_inOrder.mpr he
  cases evidence with
  | nil =>
    obtain rfl : items = [] := horder.symm
    exact ⟨rfl, rfl⟩
  | cons e evidence =>
    have hall : ((inOrder (e :: evidence)).filter fun e => Asked subjects claims (claimKey e)) = items := by
      rw [horder]
      exact List.filter_eq_self.mpr fun x hx => decide_eq_true (hasked x hx)
    rw [domainViews, groupBy_one (fun x hx => hdomain x (hmem x hx)) (List.cons_ne_nil e evidence)]
    constructor
    · rw [viewFacts, List.map_singleton, List.flatMap_singleton, rebuildDomainSnapshot, hall]
    · rw [allRelations, List.map_singleton, List.flatMap_singleton, rebuildDomainSnapshot, hall]

variable {relations : List WorldRelation}

theorem mem_identityEdges {a b : String} :
    (a, b) ∈ identityEdges names relations ↔ ∃ name ∈ names, (a, name, b) ∈ relations.map WorldRelation.key := by
  simp only [identityEdges, List.mem_map, List.mem_filter, decide_eq_true_eq]
  constructor
  · rintro ⟨r, ⟨hr, hname⟩, hends⟩
    obtain ⟨rfl, rfl⟩ := Prod.mk.inj hends
    exact ⟨r.relation, hname, r, hr, rfl⟩
  · rintro ⟨name, hname, r, hr, hkey⟩
    simp only [WorldRelation.key, Prod.mk.injEq] at hkey
    obtain ⟨rfl, rfl, rfl⟩ := hkey
    exact ⟨r, ⟨hr, hname⟩, rfl⟩

/-- Entities are joined by the relations that the evidence states. -/
theorem linked_rebuilt {items : List Core.Evidence}
    (h : relations = sortedBy (fun r => [r.source, r.relation, r.target])
      (items.foldl applyToRelations Table.empty).rows) {x y : String} :
    Linked (identityEdges names relations) x y ↔
      Linked (identityEdges names (items.flatMap relationsFromEvidence)) x y := by
  have hkeys : ∀ k, k ∈ relations.map WorldRelation.key ↔
      k ∈ (items.flatMap relationsFromEvidence).map WorldRelation.key := by
    intro k
    have hfold : items.foldl applyToRelations Table.empty =
        (items.flatMap relationsFromEvidence).foldl mergeRelation Table.empty := List.foldl_flatMap.symm
    have hsorted : relations.Perm (items.foldl applyToRelations Table.empty).rows :=
      h ▸ List.perm_insertionSort _ _
    rw [(hsorted.map _).mem_iff, hfold, mem_foldl_keys mergeRelation_put]
    exact or_iff_right List.not_mem_nil
  rw [linked_congr fun e => ?_]
  rw [← Prod.mk.eta (p := e), mem_identityEdges, mem_identityEdges]
  simp only [hkeys]

/-- A claim is rebuilt to what its evidence is restated as. -/
theorem mem_rebuilt {items : List Core.Evidence} (hsorted : items.Pairwise Observed) :
    f ∈ (items.foldl applyToFacts Table.empty).rows ↔
      restatedOf (items.filter fun e => claimKey e = f.key) = some (f, false) := by
  have hget : f ∈ (items.foldl applyToFacts Table.empty).rows ↔
      (items.foldl applyToFacts Table.empty).get? f.key = some f :=
    ⟨fun hf => Table.get?_of_mem hf, fun hf => (Table.get?_eq_some.mp hf).1⟩
  rw [hget, get?_foldl_applyToFacts, restatedOf, inOrder_eq_self (hsorted.filter _), Option.map_eq_some_iff]
  constructor
  · exact fun h => ⟨f, h, rfl⟩
  · rintro ⟨f', h, heq⟩
    obtain rfl := (Prod.mk.inj heq).1
    exact h

/-- A claim is restated as one of its facts, with evidence of its own. -/
theorem restatedOf_spec (hids : (l.map Core.Evidence.id).Nodup)
    (hkey : ∀ e ∈ l, claimKey e = k) (h : restatedOf l = some p) :
    p.1.key = k ∧ p.1.evidenceIds.Nodup ∧ p.2 = false := by
  cases horder : inOrder l with
  | nil =>
    rw [restatedOf, horder] at h
    cases h
  | cons m rest =>
    rw [restatedOf_eq hids horder] at h
    obtain rfl := Option.some.inj h
    have hrecords : (m :: recordsFrom Below m rest).Sublist (inOrder l) :=
      horder ▸ recordsFrom_sublist.cons_cons m
    refine ⟨?_, (inOrder_ids_nodup hids).sublist (hrecords.map _), rfl⟩
    exact hkey _ (mem_inOrder.mp (hrecords.subset List.getLastD_mem_cons))

end OneDomain

/-! ## Refinement -/

section Refinement

variable {dumps : Json → String} {cap : Nat} {names : List String} {items : List Core.Evidence}

/-- The evidence is such that both say the same: every entity is its own, and no evidence is dropped. -/
structure NothingLost (dumps : Json → String) (cap : Nat) (names : List String) (items : List Core.Evidence) :
    Prop where
  own : ∀ e ∈ items, IsCanonicalOf (identityEdges names (items.flatMap relationsFromEvidence)) e.subject e.subject
  undropped : ∀ k, Undropped dumps cap (items.filter fun e => claimKey e = k)

def arrived (store : EvidenceStore) (sessionId : SessionId) (subjects claims : List String)
    (k : String × String) : List Core.Evidence :=
  if Asked subjects claims k then evidenceFor sessionId k store.rows else []

section Arrived

variable {store : EvidenceStore} {sessionId : SessionId} {subjects claims : List String} {k : String × String}

theorem arrived_ids (store : EvidenceStore) (sessionId : SessionId) (subjects claims : List String)
    (k : String × String) : ((arrived store sessionId subjects claims k).map Core.Evidence.id).Nodup := by
  unfold arrived
  split
  · exact store.nodup.sublist (List.filter_sublist.map _)
  · exact List.nodup_nil

theorem arrived_key : ∀ e ∈ arrived store sessionId subjects claims k, claimKey e = k := by
  intro e he
  unfold arrived at he
  split at he
  · exact congrArg Prod.snd (of_decide_eq_true (List.mem_filter.mp he).2)
  · cases he

/-- The evidence that is asked for has that of each claim, in order. -/
theorem askedEvidence_claim (store : EvidenceStore) (sessionId : SessionId) (subjects claims : List String)
    (k : String × String) : (askedEvidence store sessionId subjects claims).filter (fun e => claimKey e = k) =
      inOrder (arrived store sessionId subjects claims k) := by
  unfold arrived
  split
  · next hk =>
    rw [askedEvidence, EvidenceStore.exportSession, inOrder, List.filter_filter, filter_insertionSort, inOrder,
      List.filter_filter, evidenceFor]
    refine congrArg _ (List.filter_congr fun e _ => ?_)
    by_cases hkey : claimKey e = k <;> simp [hkey, hk]
  · next hk =>
    refine List.filter_eq_nil_iff.mpr fun e he hkey => hk ?_
    exact of_decide_eq_true hkey ▸ of_decide_eq_true (List.mem_filter.mp he).2

theorem mem_arrived (he : e ∈ askedEvidence store sessionId subjects claims) :
    e ∈ arrived store sessionId subjects claims (claimKey e) := by
  rw [← mem_inOrder, ← askedEvidence_claim]
  exact List.mem_filter.mpr ⟨he, decide_eq_true rfl⟩

theorem mem_asked (he : e ∈ arrived store sessionId subjects claims k) :
    e ∈ askedEvidence store sessionId subjects claims := by
  rw [← mem_inOrder, ← askedEvidence_claim] at he
  exact List.mem_of_mem_filter he

end Arrived

theorem inOrder_inOrder (l : List Core.Evidence) : inOrder (inOrder l) = inOrder l :=
  inOrder_eq_self (pairwise_inOrder l)

theorem undropped_inOrder : Undropped dumps cap (inOrder l) ↔ Undropped dumps cap l := by
  have hlength := (inOrder_perm l).length_eq
  constructor
  · rintro ⟨hfew, htext, hrising⟩
    exact ⟨hlength ▸ hfew, oneText_inOrder.mp htext, inOrder_inOrder l ▸ hrising⟩
  · rintro ⟨hfew, htext, hrising⟩
    exact ⟨hlength ▸ hfew, oneText_inOrder.mpr htext, (inOrder_inOrder l).symm ▸ hrising⟩

theorem isCanonicalOf_congr {edges edges' : List (String × String)}
    (h : ∀ x y, Linked edges x y ↔ Linked edges' x y) (x c : String) :
    IsCanonicalOf edges x c ↔ IsCanonicalOf edges' x c := by
  simp only [IsCanonicalOf, h]

theorem mergeWith_stated (dumps : Json → String) (views : List DomainWorldView) (sessionId : Option SessionId)
    (policy : WorldMergePolicy) (mappings : List EntityIdentityMapping) (conflicts : List CrossDomainConflict) :
    let merged := mergeWith dumps views sessionId policy mappings conflicts
    ∃ l, merged.stated = sortedBy statedKey l ∧ (l.map statedKey).Nodup ∧
      ∀ p, p ∈ l ↔ p.1 ∈ merged.snapshot.facts ∧
        p.2 = decide (∃ c ∈ conflicts, c.subject = p.1.subject ∧ c.claim = p.1.claim) := by
  intro merged
  let facts := (groupBy FactEntry.key (factEntries (canonicalIdMapping mappings) views)).filterMap
    (mergedFact policy)
  refine ⟨facts.map fun f => (f, decide (∃ c ∈ conflicts, c.subject = f.subject ∧ c.claim = f.claim)),
    map_sortedBy fun _ _ => rfl, ?_, fun p => ?_⟩
  · have hkeys : (facts.map fun f => (f.subject, f.claim)).Nodup :=
      nodup_filterMap_keys (groupBy_nodup _ _) fun g f hf => mergedFact_key hf
    rw [List.map_map]
    have hpairs := hkeys.map (f := fun k : String × String => [k.1, k.2]) fun a b hab => by
      simp only [List.cons.injEq, and_true] at hab
      exact Prod.ext hab.1 hab.2
    rwa [List.map_map] at hpairs
  · have hfacts : p.1 ∈ merged.snapshot.facts ↔ p.1 ∈ facts := mem_sortedBy
    rw [List.mem_map, hfacts]
    constructor
    · rintro ⟨f, hf, rfl⟩
      exact ⟨hf, rfl⟩
    · rintro ⟨hf, hflag⟩
      exact ⟨p.1, hf, Prod.ext rfl hflag.symm⟩

section Views

variable {store : EvidenceStore} {sessionId : SessionId} {subjects claims : List String}
  {views : List DomainWorldView} {edges : List (String × String)}

def Rebuilt (items : List Core.Evidence) (views : List DomainWorldView) : Prop :=
  viewFacts views = sortedBy (fun f => [f.subject, f.claim]) (items.foldl applyToFacts Table.empty).rows

theorem mem_viewFacts (h : Rebuilt (askedEvidence store sessionId subjects claims) views) :
    f ∈ viewFacts views ↔ restatedOf (arrived store sessionId subjects claims f.key) = some (f, false) := by
  have hsorted : (askedEvidence store sessionId subjects claims).Pairwise Observed :=
    (EvidenceStore.pairwise_exportSession store sessionId).filter _
  rw [h, mem_sortedBy, mem_rebuilt hsorted, askedEvidence_claim, restatedOf, inOrder_inOrder, restatedOf]

/-- Where every entity is its own, the facts that are rebuilt are too. -/
theorem ownFacts_rebuilt (h : Rebuilt (askedEvidence store sessionId subjects claims) views)
    (hown : ∀ e ∈ askedEvidence store sessionId subjects claims, IsCanonicalOf edges e.subject e.subject) :
    OwnFacts edges views := by
  refine ⟨?_, fun f hf => ?_, fun f hf => ?_⟩
  · rw [h]
    exact ((List.perm_insertionSort _ _).map _).nodup_iff.mpr
      ((askedEvidence store sessionId subjects claims).foldl applyToFacts Table.empty).nodup
  · exact (restatedOf_spec (arrived_ids store sessionId subjects claims f.key) arrived_key
      ((mem_viewFacts h).mp hf)).2.1
  · have hf := (mem_viewFacts h).mp hf
    cases harrived : arrived store sessionId subjects claims f.key with
    | nil =>
      rw [harrived] at hf
      cases hf
    | cons e rest =>
      have he : e ∈ arrived store sessionId subjects claims f.key := harrived ▸ List.mem_cons_self
      have hkey : e.subject = f.subject := congrArg Prod.fst (arrived_key e he)
      exact hkey ▸ hown e (mem_asked he)

/-- Evidence of a claim is never all dropped from its bucket. -/
theorem statedOf_arrived (hcap : 0 < cap) {l : List Core.Evidence} (hids : (l.map Core.Evidence.id).Nodup)
    (hl : l ≠ []) (k : String × String) : ∃ p, statedOf dumps k (bucketRun dumps cap l) = some p := by
  cases hcurrent : currentFact? (bucketRun dumps cap l) with
  | none =>
    rw [(bucketRun_spec hcap hids).present.current, currentFact?_eq_none] at hcurrent
    exact absurd hcurrent hl
  | some c =>
    rw [statedOf, hcurrent]
    exact ⟨_, rfl⟩

/-- The statements of a merged world against those of the model's buckets. -/
theorem stated_eq_iff (hcap : 0 < cap) (hrebuilt : Rebuilt (askedEvidence store sessionId subjects claims) views)
    {identityRelations : List WorldRelation} {mappings : List EntityIdentityMapping} {policy : WorldMergePolicy}
    (h : IsIdentityClasses edges identityRelations mappings) {stated : List (WorldFact × Bool)}
    (hnodup : (stated.map statedKey).Nodup)
    (hstated : ∀ p, p ∈ stated ↔
      statedOf dumps p.1.key (bucketRun dumps cap (arrived store sessionId subjects claims p.1.key)) = some p) :
    (mergeWith dumps views (some sessionId) policy mappings (groupConflicts dumps
        (groupBy FactEntry.key (factEntries (canonicalIdMapping mappings) views)))).stated =
      sortedBy statedKey stated ↔
    (∀ e ∈ askedEvidence store sessionId subjects claims, IsCanonicalOf edges e.subject e.subject) ∧
      ∀ k, Undropped dumps cap (arrived store sessionId subjects claims k) := by
  obtain ⟨merged, hmerged, hmergednodup, hmem⟩ := mergeWith_stated dumps views (some sessionId) policy mappings
    (groupConflicts dumps (groupBy FactEntry.key (factEntries (canonicalIdMapping mappings) views)))
  have hids := arrived_ids store sessionId subjects claims
  rw [hmerged, sorted_eq_iff hmergednodup hnodup]
  -- where every entity is its own, the merged world states what is restated
  have hrestated : (∀ e ∈ askedEvidence store sessionId subjects claims, IsCanonicalOf edges e.subject e.subject) →
      ∀ p, p ∈ merged ↔ restatedOf (arrived store sessionId subjects claims p.1.key) = some p := by
    intro hown p
    have hfacts := ownFacts_rebuilt hrebuilt hown
    rw [hmem, hfacts.mem_merged h, mem_viewFacts hrebuilt, hfacts.no_conflicts h]
    constructor
    · rintro ⟨hp, hflag⟩
      rw [hp]
      exact congrArg some (Prod.ext rfl (hflag.trans (by simp)).symm)
    · intro hp
      have hflag := (restatedOf_spec (hids p.1.key) arrived_key hp).2.2
      exact ⟨hp.trans (congrArg some (Prod.ext rfl hflag)), hflag.trans (by simp)⟩
  constructor
  · intro heq
    have hown : ∀ e ∈ askedEvidence store sessionId subjects claims,
        IsCanonicalOf edges e.subject e.subject := by
      intro e he
      obtain ⟨p, hp⟩ := (@statedOf_arrived dumps) hcap (hids (claimKey e))
        (List.ne_nil_of_mem (mem_arrived he)) (claimKey e)
      have hkey := statedOf_key hp
      have hsubject : p.1.subject = e.subject := congrArg Prod.fst hkey
      rw [← hkey] at hp
      have hfact := ((hmem p).mp ((heq p).mpr ((hstated p).mpr hp))).1
      exact hsubject ▸ merged_own h hfact
    refine ⟨hown, fun k => (statedOf_eq_iff hcap (hids k) arrived_key).mp (Option.ext fun p => ?_)⟩
    constructor
    · intro hp
      obtain rfl := statedOf_key hp
      exact (hrestated hown p).mp ((heq p).mpr ((hstated p).mpr hp))
    · intro hp
      obtain rfl := (restatedOf_spec (hids k) arrived_key hp).1
      exact (hstated p).mp ((heq p).mp ((hrestated hown p).mpr hp))
  · rintro ⟨hown, hundropped⟩ p
    rw [hrestated hown, hstated, (statedOf_eq_iff hcap (hids p.1.key) arrived_key).mpr (hundropped p.1.key)]

end Views

end Refinement

end UniversalAgent.World
