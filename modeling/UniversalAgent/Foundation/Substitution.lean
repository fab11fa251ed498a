import Mathlib

/-!
# Foundation — Substitution

Substitution at the matches of a pattern, from the left and without overlaps, as the substitution
of regular expressions does it. A pattern is what it finds at a position: it sees the character
before the position and the text from there on.

`Substitutes` is the substitution as a relation, with one rule for a character that begins no match
and one for a match. Facts about the output are proved by induction along it; where the replacement
begins with a mark, whatever stands in the output and has no mark in it stands in the input.
-/

namespace UniversalAgent.Foundation.Substitution

/-- A match: how much of the text it covers, and how much of that stays before the
replacement. -/
structure Match where
  keep : Nat
  length : Nat
deriving DecidableEq

abbrev Pattern := Option Char → List Char → Option Match

/-- The substitution, inside a match of which some characters are still to be passed over. -/
def substituteFrom (p : Pattern) (replacement : List Char) :
    Nat → Option Char → List Char → List Char
  | _, _, [] => []
  | k + 1, _, c :: cs => substituteFrom p replacement k (some c) cs
  | 0, prev, c :: cs =>
    match p prev (c :: cs) with
    | some m =>
      (c :: cs).take m.keep ++ replacement ++
        substituteFrom p replacement (m.length - 1) (some c) cs
    | none => c :: substituteFrom p replacement 0 (some c) cs

def substitute (p : Pattern) (replacement cs : List Char) : List Char :=
  substituteFrom p replacement 0 none cs

/-- The character before the end of a text that follows a character. -/
def lastOr (prev : Option Char) (cs : List Char) : Option Char := cs.getLast?.or prev

@[simp] theorem lastOr_nil (prev : Option Char) : lastOr prev [] = prev := rfl

@[simp] theorem lastOr_cons (prev : Option Char) (c : Char) (cs : List Char) :
    lastOr prev (c :: cs) = lastOr (some c) cs := by
  simp only [lastOr, List.getLast?_cons]
  cases cs.getLast? <;> rfl

theorem lastOr_append (prev : Option Char) (cs ds : List Char) :
    lastOr prev (cs ++ ds) = lastOr (lastOr prev cs) ds := by
  induction cs generalizing prev with
  | nil => rfl
  | cons c cs ih => simp only [List.cons_append, lastOr_cons, ih]

theorem lastOr_of_ne_nil (prev : Option Char) {cs : List Char} (h : cs ≠ []) :
    lastOr prev cs = cs.getLast? := by
  rw [lastOr, List.getLast?_eq_some_getLast h]
  rfl

/-! ## Texts without a match -/

/-- The pattern finds nothing in the text, which follows a character. -/
def Unmatched (p : Pattern) : Option Char → List Char → Prop
  | _, [] => True
  | prev, c :: cs => p prev (c :: cs) = none ∧ Unmatched p (some c) cs

section Unmatched

variable {p : Pattern} {replacement : List Char}

variable {prev : Option Char}

theorem substituteFrom_unmatched {cs : List Char}
    (h : Unmatched p prev cs) : substituteFrom p replacement 0 prev cs = cs := by
  induction cs generalizing prev with
  | nil => rfl
  | cons c cs ih =>
    simp only [substituteFrom, h.1]
    rw [ih h.2]

theorem Unmatched.append {cs ds : List Char}
    (hcs : ∀ a c b, cs = a ++ c :: b → p (lastOr prev a) (c :: (b ++ ds)) = none)
    (hds : Unmatched p (lastOr prev cs) ds) : Unmatched p prev (cs ++ ds) := by
  induction cs generalizing prev with
  | nil => exact hds
  | cons c cs ih =>
    refine ⟨hcs [] c cs rfl, ih ?_ ?_⟩
    · intro a d b he
      have h := hcs (c :: a) d b (by rw [he]; rfl)
      rwa [lastOr_cons] at h
    · rwa [lastOr_cons] at hds

theorem Unmatched.right {cs ds : List Char}
    (h : Unmatched p prev (cs ++ ds)) : Unmatched p (lastOr prev cs) ds := by
  induction cs generalizing prev with
  | nil => exact h
  | cons c cs ih =>
    rw [lastOr_cons]
    exact ih h.2

/-- A pattern whose every match has a match of another in it finds nothing where the other
does not. -/
theorem Unmatched.of_imp {r : Pattern}
    (himp : ∀ prev cs, p prev cs ≠ none →
      ∃ a b, cs = a ++ b ∧ b ≠ [] ∧ r (lastOr prev a) b ≠ none)
    {cs : List Char} (h : Unmatched r prev cs) : Unmatched p prev cs := by
  induction cs generalizing prev with
  | nil => trivial
  | cons c cs ih =>
    refine ⟨?_, ih h.2⟩
    by_contra hne
    obtain ⟨a, b, hab, hb, hr⟩ := himp prev (c :: cs) hne
    rw [hab] at h
    have hright := h.right
    cases b with
    | nil => exact hb rfl
    | cons d b => exact hr hright.1

end Unmatched

/-! ## The substitution as a relation -/

inductive Substitutes (p : Pattern) (replacement : List Char) :
    Option Char → List Char → List Char → Prop where
  | done (prev : Option Char) : Substitutes p replacement prev [] []
  | passed {prev : Option Char} {c : Char} {cs out : List Char}
      (h : p prev (c :: cs) = none) (rest : Substitutes p replacement (some c) cs out) :
      Substitutes p replacement prev (c :: cs) (c :: out)
  | found {prev : Option Char} {kept dropped cs out : List Char}
      (h : p prev (kept ++ dropped ++ cs) =
        some ⟨kept.length, (kept ++ dropped).length⟩)
      (rest : Substitutes p replacement (lastOr prev (kept ++ dropped)) cs out) :
      Substitutes p replacement prev (kept ++ dropped ++ cs) (kept ++ replacement ++ out)

/-- A match covers something, no more than there is, and keeps no more than it covers. -/
def Pattern.Lawful (p : Pattern) : Prop :=
  ∀ prev cs m, p prev cs = some m → m.keep ≤ m.length ∧ 0 < m.length ∧ m.length ≤ cs.length

theorem substituteFrom_substitutes {p : Pattern} (hp : p.Lawful) (replacement : List Char)
    (k : Nat) (prev : Option Char) (cs : List Char) (hk : k ≤ cs.length) :
    Substitutes p replacement (lastOr prev (cs.take k)) (cs.drop k)
      (substituteFrom p replacement k prev cs) := by
  induction cs generalizing k prev with
  | nil =>
    have : k = 0 := Nat.le_zero.mp hk
    subst this
    exact .done prev
  | cons c cs ih =>
    cases k with
    | succ k =>
      simp only [List.take_succ_cons, List.drop_succ_cons, substituteFrom, lastOr_cons]
      exact ih k (some c) (by simpa using hk)
    | zero =>
      simp only [List.take_zero, List.drop_zero, substituteFrom, lastOr_nil]
      cases hm : p prev (c :: cs) with
      | none => exact .passed hm (ih 0 (some c) (Nat.zero_le _))
      | some m =>
        obtain ⟨hkeep, hpos, hlen⟩ := hp prev (c :: cs) m hm
        -- the match, cut where the kept part ends and where the match ends
        have htake : (c :: cs).take m.keep ++ ((c :: cs).take m.length).drop m.keep
            = (c :: cs).take m.length := by
          have hpre : (c :: cs).take m.keep = ((c :: cs).take m.length).take m.keep := by
            rw [List.take_take, Nat.min_eq_left hkeep]
          rw [hpre, List.take_append_drop]
        have hall : (c :: cs).take m.keep ++ ((c :: cs).take m.length).drop m.keep
            ++ (c :: cs).drop m.length = c :: cs := by
          rw [htake, List.take_append_drop]
        have hsub := ih (m.length - 1) (some c) (by simp only [List.length_cons] at hlen; omega)
        obtain ⟨n, hn⟩ : ∃ n, m.length = n + 1 := ⟨m.length - 1, by omega⟩
        have hlast : lastOr prev ((c :: cs).take m.length)
            = lastOr (some c) (cs.take (m.length - 1)) := by
          rw [hn, List.take_succ_cons, lastOr_cons, Nat.add_sub_cancel]
        have hdrop : (c :: cs).drop m.length = cs.drop (m.length - 1) := by
          rw [hn, List.drop_succ_cons, Nat.add_sub_cancel]
        rw [← hlast, ← hdrop, ← htake] at hsub
        have hmatch : p prev ((c :: cs).take m.keep ++
            ((c :: cs).take m.length).drop m.keep ++ (c :: cs).drop m.length) =
            some ⟨((c :: cs).take m.keep).length,
              ((c :: cs).take m.keep ++ ((c :: cs).take m.length).drop m.keep).length⟩ := by
          rw [hall, hm, htake, List.length_take, List.length_take,
            Nat.min_eq_left (hkeep.trans hlen), Nat.min_eq_left hlen]
        have h := Substitutes.found hmatch hsub
        rwa [hall] at h

theorem substitute_substitutes {p : Pattern} (hp : p.Lawful) (replacement cs : List Char) :
    Substitutes p replacement none cs (substitute p replacement cs) :=
  substituteFrom_substitutes hp replacement 0 none cs (Nat.zero_le _)

/-! ## Where the replacement begins with a mark -/

section Marked

variable {p : Pattern} {mark : Char} {replacement : List Char}

/-- What has no mark in it and begins a text with a mark ends before the mark. -/
theorem exists_append_of_unmarked {A B kept rest : List Char} (hmark : mark ∉ A)
    (h : A ++ B = kept ++ mark :: rest) : ∃ C, kept = A ++ C ∧ B = C ++ mark :: rest := by
  rcases List.append_eq_append_iff.mp h with ⟨C, hC, hB⟩ | ⟨C, hC, hB⟩
  · exact ⟨C, hC, hB⟩
  · cases C with
    | nil => exact ⟨[], by simpa using hC.symm, by simpa using hB.symm⟩
    | cons d C =>
      have hd : d = mark := by simpa using (List.cons.inj hB).1.symm
      subst hd
      exact absurd (hC ▸ List.mem_append_right kept List.mem_cons_self) hmark

variable {prev : Option Char} {cs out : List Char}

/-- What has no mark in it and begins the output begins the input. -/
theorem Substitutes.unmarked
    (h : Substitutes p (mark :: replacement) prev cs out) {A B : List Char}
    (hout : out = A ++ B) (hmark : mark ∉ A) : ∃ r, cs = A ++ r := by
  induction h generalizing A B with
  | done prev =>
    obtain ⟨rfl, -⟩ := List.append_eq_nil_iff.mp hout.symm
    exact ⟨[], rfl⟩
  | @passed prev c cs out _ _ ih =>
    cases A with
    | nil => exact ⟨c :: cs, rfl⟩
    | cons a A =>
      obtain ⟨rfl, hrest⟩ := List.cons.inj hout
      obtain ⟨r, hr⟩ := ih hrest fun hm => hmark (List.mem_cons_of_mem _ hm)
      exact ⟨r, by rw [hr]; rfl⟩
  | @found prev kept dropped cs out _ _ _ =>
    have hsplit : A ++ B = kept ++ mark :: (replacement ++ out) := by
      rw [← hout, List.append_assoc]
      rfl
    obtain ⟨C, rfl, -⟩ := exists_append_of_unmarked hmark hsplit
    exact ⟨C ++ dropped ++ cs, by simp only [List.append_assoc]⟩

/-- Where no match keeps anything, what comes after such a beginning comes after it in the
input, unless a match began there. -/
theorem Substitutes.next_of_unmarked
    (hkeep : ∀ prev cs m, p prev cs = some m → m.keep = 0)
    (h : Substitutes p (mark :: replacement) prev cs out) {A B : List Char}
    (hout : out = A ++ B) (hmark : mark ∉ A) :
    ∃ r, cs = A ++ r ∧
      (B.head? = r.head? ∨ B.head? = some mark ∧ p (lastOr prev A) r ≠ none) := by
  induction h generalizing A B with
  | done prev =>
    obtain ⟨rfl, rfl⟩ := List.append_eq_nil_iff.mp hout.symm
    exact ⟨[], rfl, .inl rfl⟩
  | @passed prev c cs out _ _ ih =>
    cases A with
    | nil =>
      refine ⟨c :: cs, rfl, .inl ?_⟩
      rw [List.nil_append] at hout
      rw [← hout]
      rfl
    | cons a A =>
      obtain ⟨rfl, hrest⟩ := List.cons.inj hout
      obtain ⟨r, hr, hnext⟩ := ih hrest fun hm => hmark (List.mem_cons_of_mem _ hm)
      refine ⟨r, by rw [hr]; rfl, ?_⟩
      rwa [lastOr_cons]
  | @found prev kept dropped cs out hm _ _ =>
    have hnil : kept = [] := List.length_eq_zero_iff.mp (hkeep _ _ _ hm)
    subst hnil
    have hsplit : A ++ B = [] ++ mark :: (replacement ++ out) := by
      rw [← hout]
      rfl
    obtain ⟨C, hC, hB⟩ := exists_append_of_unmarked hmark hsplit
    obtain ⟨rfl, rfl⟩ := List.append_eq_nil_iff.mp hC.symm
    refine ⟨[] ++ dropped ++ cs, rfl, .inr ⟨?_, ?_⟩⟩
    · rw [hB]
      rfl
    · rw [lastOr_nil, hm]
      exact Option.some_ne_none _

/-- **No match is left behind.** `r` finds nothing in the output, where it finds nothing at the
characters that are passed over, however far the output agrees with the input there, and nothing
from inside a kept part or a replacement on. `I` is what is known of the input at a position, and
`K` how the character before a position of the output goes with the one in the input. -/
theorem Substitutes.unmatched {r : Pattern} {I : Option Char → List Char → Prop}
    {K : Option Char → Option Char → List Char → Prop} (hrefl : ∀ prev cs, K prev prev cs)
    (hright : ∀ prev a cs, I prev (a ++ cs) → I (lastOr prev a) cs)
    (hpassed : ∀ q prev c cs out, K q prev (c :: cs) → I prev (c :: cs) → p prev (c :: cs) = none →
      Substitutes p (mark :: replacement) prev (c :: cs) (c :: out) → r q (c :: out) = none)
    (hfound : ∀ prev kept dropped cs,
      p prev (kept ++ dropped ++ cs) = some ⟨kept.length, (kept ++ dropped).length⟩ →
        K (lastOr none (mark :: replacement)) (lastOr prev (kept ++ dropped)) cs ∧
          ∀ q a c b z, kept ++ mark :: replacement = a ++ c :: b → r q (c :: (b ++ z)) = none)
    (h : Substitutes p (mark :: replacement) prev cs out) (hI : I prev cs) {q : Option Char}
    (hK : K q prev cs) : Unmatched r q out := by
  induction h generalizing q with
  | done prev => trivial
  | @passed prev c cs out hp hrest ih =>
    exact ⟨hpassed q prev c cs out hK hI hp (.passed hp hrest),
      ih (hright prev [c] cs hI) (hrefl _ _)⟩
  | @found prev kept dropped cs out hp _ ih =>
    obtain ⟨hnext, hnone⟩ := hfound prev kept dropped cs hp
    refine Unmatched.append (fun a c b hab => hnone _ a c b out hab) (ih (hright _ _ _ hI) ?_)
    rw [lastOr_append, lastOr_of_ne_nil _ (List.cons_ne_nil _ _)]
    rwa [lastOr_of_ne_nil _ (List.cons_ne_nil _ _)] at hnext

end Marked

end UniversalAgent.Foundation.Substitution
