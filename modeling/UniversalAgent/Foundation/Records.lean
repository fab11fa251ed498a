import Mathlib

/-!
# Foundation — Records

The records of a list: of its items, those that are above the record before them. All are records just
when each is above the one before it.
-/

namespace UniversalAgent.Foundation

variable {α : Type} (r : α → α → Prop) [DecidableRel r]

def recordsFrom (best : α) : List α → List α
  | [] => []
  | a :: items => if r best a then a :: recordsFrom a items else recordsFrom best items

variable {r} {best : α} {items : List α}

theorem recordsFrom_cons (a : α) : recordsFrom r best (a :: items) =
    if r best a then a :: recordsFrom r a items else recordsFrom r best items := rfl

theorem recordsFrom_sublist : (recordsFrom r best items).Sublist items := by
  induction items generalizing best with
  | nil => exact .slnil
  | cons a items ih =>
    rw [recordsFrom_cons]
    split
    · exact ih.cons_cons a
    · exact ih.cons a

/-- Every item is a record just when each is above the one before it. -/
theorem recordsFrom_eq_self_iff : recordsFrom r best items = items ↔ (best :: items).IsChain r := by
  induction items generalizing best with
  | nil => exact iff_of_true rfl (List.isChain_singleton best)
  | cons a items ih =>
    rw [List.isChain_cons_cons, recordsFrom_cons]
    split
    · next ha =>
      rw [List.cons.injEq, ih]
      exact ⟨fun h => ⟨ha, h.2⟩, fun h => ⟨rfl, h.2⟩⟩
    · next ha =>
      refine iff_of_false (fun h => ?_) fun h => ha h.1
      have hlength := congrArg List.length h
      have hle := (@recordsFrom_sublist _ r _ best items).length_le
      rw [List.length_cons] at hlength
      omega

theorem above_of_mem_recordsFrom [IsTrans α r] {a : α} (h : a ∈ recordsFrom r best items) : r best a := by
  induction items generalizing best with
  | nil => cases h
  | cons b items ih =>
    rw [recordsFrom_cons] at h
    split at h
    · next hb =>
      rcases List.mem_cons.mp h with rfl | h
      · exact hb
      · exact trans_of r hb (ih h)
    · exact ih h

end UniversalAgent.Foundation
