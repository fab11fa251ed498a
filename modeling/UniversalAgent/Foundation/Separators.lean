import Mathlib

/-!
# Foundation — Separators

Texts joined with a separator. A joined text tells its two parts if the separator is in one of them only, or
if what comes last has it in quotation marks only: then the last separator that is not quoted is the one
that joins.
-/

namespace UniversalAgent.Foundation

section Splits

variable {α : Type} {x : α} {a a' b b' : List α}

/-- Two splits of one list at an item: they are the same, or one is inside the first part of the other. -/
theorem split_cases {y : α} (h : a ++ x :: b = a' ++ y :: b') : (a = a' ∧ x = y ∧ b = b') ∨
    (∃ w, a' = a ++ x :: w ∧ b = w ++ y :: b') ∨ ∃ w, a = a' ++ y :: w ∧ b' = w ++ x :: b := by
  rcases List.append_eq_append_iff.mp h with ⟨mid, ha, hb⟩ | ⟨mid, ha, hb⟩
  · cases mid with
    | nil =>
      rw [List.append_nil] at ha
      exact .inl ⟨ha.symm, List.cons.inj hb⟩
    | cons z mid =>
      obtain ⟨rfl, hrest⟩ := List.cons.inj hb
      exact .inr (.inl ⟨mid, ha, hrest⟩)
  · cases mid with
    | nil =>
      rw [List.append_nil] at ha
      exact .inl ⟨ha, (List.cons.inj hb).1.symm, (List.cons.inj hb).2.symm⟩
    | cons z mid =>
      obtain ⟨rfl, hrest⟩ := List.cons.inj hb
      exact .inr (.inr ⟨mid, ha, hrest⟩)

/-- Two splits at one separator. -/
theorem append_cons_eq_iff :
    a ++ x :: b = a' ++ x :: b' ↔
      (a = a' ∧ b = b') ∨ (∃ w, a' = a ++ x :: w ∧ b = w ++ x :: b') ∨
        ∃ w, a = a' ++ x :: w ∧ b' = w ++ x :: b := by
  constructor
  · intro h
    exact (split_cases h).imp_left fun hsame => ⟨hsame.1, hsame.2.2⟩
  · rintro (⟨rfl, rfl⟩ | ⟨w, rfl, rfl⟩ | ⟨w, rfl, rfl⟩)
    · rfl
    · rw [List.append_assoc, List.cons_append]
    · rw [List.append_assoc, List.cons_append]

/-- Where the first part of the one has no separator. -/
theorem append_cons_eq_iff_of_notMem (ha : x ∉ a) :
    a ++ x :: b = a' ++ x :: b' ↔ (a = a' ∧ b = b') ∨ ∃ w, a' = a ++ x :: w ∧ b = w ++ x :: b' := by
  rw [append_cons_eq_iff]
  refine or_congr_right ⟨fun h => h.elim id ?_, .inl⟩
  rintro ⟨w, rfl, -⟩
  exact absurd (List.mem_append_right _ List.mem_cons_self) ha

end Splits

/-! ## Quotation marks -/

inductive Quotation where
  | outside
  | inside
  | escaped
deriving DecidableEq

/-- One character. A separator stands inside of quotation marks only, and so does a backslash. -/
def Quotation.next (sep : Char) : Quotation → Char → Option Quotation
  | .outside, c =>
    if c = '"' then some .inside else if c = '\\' ∨ c = sep then none else some .outside
  | .inside, c => if c = '"' then some .outside else if c = '\\' then some .escaped else some .inside
  | .escaped, c => if c = sep then none else some .inside

def Quotation.read (sep : Char) (q : Quotation) (cs : List Char) : Option Quotation :=
  cs.foldlM (Quotation.next sep) q

def Quoted (sep : Char) (cs : List Char) : Prop := Quotation.read sep .outside cs = some .outside

instance (sep : Char) (cs : List Char) : Decidable (Quoted sep cs) :=
  inferInstanceAs (Decidable (_ = _))

section Quoted

variable {sep : Char} {q q' : Quotation} {a a' b b' cs : List Char}

theorem next_outside {c : Char} : Quotation.next sep .outside c = some q ↔
    (c = '"' ∧ q = .inside) ∨ (c ≠ '"' ∧ c ≠ '\\' ∧ c ≠ sep ∧ q = .outside) := by
  rw [Quotation.next.eq_1]
  grind

theorem next_inside {c : Char} : Quotation.next sep .inside c = some q ↔
    (c = '"' ∧ q = .outside) ∨ (c ≠ '"' ∧ c = '\\' ∧ q = .escaped) ∨
      (c ≠ '"' ∧ c ≠ '\\' ∧ q = .inside) := by
  rw [Quotation.next.eq_2]
  grind

theorem next_escaped {c : Char} : Quotation.next sep .escaped c = some q ↔ c ≠ sep ∧ q = .inside := by
  rw [Quotation.next.eq_3]
  grind

theorem read_nil (q : Quotation) : Quotation.read sep q [] = some q := rfl

theorem read_cons (q : Quotation) (c : Char) (cs : List Char) :
    Quotation.read sep q (c :: cs) = (Quotation.next sep q c).bind fun q => Quotation.read sep q cs :=
  List.foldlM_cons ..

theorem read_append (q : Quotation) (a b : List Char) :
    Quotation.read sep q (a ++ b) = (Quotation.read sep q a).bind fun q => Quotation.read sep q b :=
  List.foldlM_append ..

theorem read_of_read (h : Quotation.read sep q a = some q') (b : List Char) :
    Quotation.read sep q (a ++ b) = Quotation.read sep q' b := by
  rw [read_append, h]
  rfl

theorem Quoted.append (ha : Quoted sep a) (hb : Quoted sep b) : Quoted sep (a ++ b) :=
  (read_of_read ha b).trans hb

theorem read_outside {cs : List Char} (h : ∀ c ∈ cs, c ≠ '"' ∧ c ≠ '\\' ∧ c ≠ sep) : Quoted sep cs := by
  unfold Quoted
  induction cs with
  | nil => rfl
  | cons c cs ih =>
    have hnext := next_outside.mpr (.inr ⟨(h c List.mem_cons_self).1, (h c List.mem_cons_self).2.1,
      (h c List.mem_cons_self).2.2, rfl⟩)
    rw [read_cons, hnext]
    exact ih fun d hd => h d (List.mem_cons_of_mem _ hd)

theorem read_inside {cs : List Char} (h : ∀ c ∈ cs, c ≠ '"' ∧ c ≠ '\\') :
    Quotation.read sep .inside cs = some .inside := by
  induction cs with
  | nil => rfl
  | cons c cs ih =>
    have hnext : Quotation.next sep .inside c = some .inside :=
      next_inside.mpr (.inr (.inr ⟨(h c List.mem_cons_self).1, (h c List.mem_cons_self).2, rfl⟩))
    rw [read_cons, hnext]
    exact ih fun d hd => h d (List.mem_cons_of_mem _ hd)

/-- Two readers, one outside and one inside, stay so. -/
theorem read_opposite (hout : Quotation.read sep .outside cs = some q)
    (hin : Quotation.read sep .inside cs = some q') :
    (q = .outside ∧ q' = .inside) ∨ (q = .inside ∧ q' = .outside) := by
  induction cs using List.reverseRecOn generalizing q q' with
  | nil =>
    cases hout
    cases hin
    exact .inl ⟨rfl, rfl⟩
  | append_singleton cs c ih =>
    rw [read_append, Option.bind_eq_some_iff] at hout hin
    obtain ⟨p, hp, hout⟩ := hout
    obtain ⟨p', hp', hin⟩ := hin
    rw [read_cons, Option.bind_eq_some_iff] at hout hin
    obtain ⟨r, hr, hout⟩ := hout
    obtain ⟨r', hr', hin⟩ := hin
    cases hout
    cases hin
    -- a backslash stops the one that is outside, so neither is ever behind one
    rcases ih hp hp' with ⟨rfl, rfl⟩ | ⟨rfl, rfl⟩
    · rw [next_outside] at hr
      rw [next_inside] at hr'
      grind
    · rw [next_inside] at hr
      rw [next_outside] at hr'
      grind

/-- What follows a separator in a quoted text is not quoted itself. -/
theorem Quoted.not_after (hquote : sep ≠ '"') (hback : sep ≠ '\\') (h : Quoted sep (a ++ sep :: b)) :
    ¬Quoted sep b := by
  intro hb
  unfold Quoted at h
  rw [read_append, Option.bind_eq_some_iff] at h
  obtain ⟨q, -, h⟩ := h
  rw [read_cons, Option.bind_eq_some_iff] at h
  obtain ⟨q', hnext, h⟩ := h
  have hinside : q' = .inside := by
    cases q with
    | outside =>
      rw [next_outside] at hnext
      exact hnext.elim (fun h => absurd h.1 hquote) fun h => absurd rfl h.2.2.1
    | inside =>
      rw [next_inside] at hnext
      rcases hnext with h | h | h
      · exact absurd h.1 hquote
      · exact absurd h.2.1 hback
      · exact h.2.2
    | escaped =>
      rw [next_escaped] at hnext
      exact absurd rfl hnext.1
  rw [hinside] at h
  rcases read_opposite hb h with ⟨-, h⟩ | ⟨h, -⟩
  · cases h
  · cases h

/-- **Quoted texts** behind a separator are told from what comes before. -/
theorem append_quoted_eq_iff (hquote : sep ≠ '"') (hback : sep ≠ '\\') (hb : Quoted sep b)
    (hb' : Quoted sep b') : a ++ sep :: b = a' ++ sep :: b' ↔ a = a' ∧ b = b' := by
  rw [append_cons_eq_iff]
  refine ⟨fun h => h.elim id fun h => h.elim ?_ ?_, .inl⟩
  · rintro ⟨w, -, rfl⟩
    exact absurd hb' (hb.not_after hquote hback)
  · rintro ⟨w, -, rfl⟩
    exact absurd hb (hb'.not_after hquote hback)

end Quoted

end UniversalAgent.Foundation
