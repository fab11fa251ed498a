import UniversalAgent.Foundation.Text

/-!
# Foundation — Stripping

What `strip` takes away from a text and what it leaves.
-/

namespace UniversalAgent.Foundation.Text

theorem dropEnd_split (p : Char → Bool) (cs : List Char) :
    ∃ r, cs = (cs.reverse.dropWhile p).reverse ++ r ∧ ∀ c ∈ r, p c = true := by
  refine ⟨(cs.reverse.takeWhile p).reverse, ?_, fun c hc => ?_⟩
  · rw [← List.reverse_append, List.takeWhile_append_dropWhile, List.reverse_reverse]
  · exact List.mem_takeWhile_imp (List.mem_reverse.mp hc)

theorem strip_split (s : String) :
    ∃ l r, s.toList = l ++ (strip s).toList ++ r ∧ (∀ c ∈ l, isSpace c = true) ∧
      ∀ c ∈ r, isSpace c = true := by
  obtain ⟨r, hr, hspace⟩ := dropEnd_split isSpace (s.toList.dropWhile isSpace)
  refine ⟨s.toList.takeWhile isSpace, r, ?_, fun c hc => List.mem_takeWhile_imp hc, hspace⟩
  rw [strip, String.toList_ofList, List.append_assoc, ← hr, List.takeWhile_append_dropWhile]

/-- What is left at the end of a text whose first character is not dropped begins with it. -/
theorem dropEnd_cons {p : Char → Bool} {c : Char} (h : p c = false) (cs : List Char) :
    ∃ rest, ((c :: cs).reverse.dropWhile p).reverse = c :: rest := by
  obtain ⟨r, hr, hall⟩ := dropEnd_split p (c :: cs)
  cases hleft : ((c :: cs).reverse.dropWhile p).reverse with
  | nil =>
    rw [hleft, List.nil_append] at hr
    rw [hall c (hr ▸ List.mem_cons_self)] at h
    cases h
  | cons d rest =>
    rw [hleft, List.cons_append, List.cons.injEq] at hr
    exact ⟨rest, by rw [hr.1]⟩

theorem strip_cons {s : String} {c : Char} {cs : List Char} (hs : s.toList = c :: cs)
    (h : isSpace c = false) : ∃ rest, (strip s).toList = c :: rest := by
  rw [strip, String.toList_ofList, hs, List.dropWhile_cons_of_neg (by simp [h])]
  exact dropEnd_cons h cs

theorem isBlank_iff (s : String) : isBlank s = true ↔ strip s = "" := by
  rw [isBlank, List.all_eq_true, ← String.toList_inj, strip, String.toList_ofList]
  constructor
  · intro hall
    rw [List.dropWhile_eq_nil_iff.mpr hall]
    rfl
  · intro hnil c hc
    obtain ⟨l, r, hs, hl, hr⟩ := strip_split s
    rw [strip, String.toList_ofList, hnil] at hs
    simp only [String.toList_empty, List.append_nil] at hs
    rw [hs, List.mem_append] at hc
    exact hc.elim (hl c) (hr c)

/-- A text that is not blank, stripped, begins with no white space. -/
theorem strip_begins {s : String} (h : isBlank s = false) :
    ∃ c cs, (strip s).toList = c :: cs ∧ isSpace c = false := by
  cases hdrop : s.toList.dropWhile isSpace with
  | nil =>
    have hblank : isBlank s = true :=
      List.all_eq_true.mpr (List.dropWhile_eq_nil_iff.mp hdrop)
    rw [hblank] at h
    cases h
  | cons c cs =>
    have hc : isSpace c = false := by
      have hhead := List.head?_dropWhile_not isSpace s.toList
      rw [hdrop] at hhead
      exact hhead
    obtain ⟨rest, hrest⟩ := dropEnd_cons hc cs
    refine ⟨c, rest, ?_, hc⟩
    rw [strip, String.toList_ofList, hdrop]
    exact hrest

theorem isBlank_strip {s : String} (h : isBlank s = false) : isBlank (strip s) = false := by
  obtain ⟨c, cs, hstrip, hc⟩ := strip_begins h
  rw [isBlank, hstrip, List.all_cons, hc, Bool.false_and]

end UniversalAgent.Foundation.Text
