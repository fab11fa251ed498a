import Mathlib

/-!
# Core — DateTime

Points in time as the calendar has them, for what the program does with their parts: a `datetime` in
UTC, as `utc_now` gives it. They are ordered as time is.
-/

namespace UniversalAgent.Core

def isLeap (year : Nat) : Bool := year % 4 = 0 ∧ (year % 100 ≠ 0 ∨ year % 400 = 0)

def daysInMonth (year month : Nat) : Nat :=
  if month = 2 then (if isLeap year then 29 else 28)
  else if month = 4 ∨ month = 6 ∨ month = 9 ∨ month = 11 then 30
  else 31

/-- The date is one that `datetime` takes. -/
def IsDate (year month day : Nat) : Prop :=
  (1 ≤ year ∧ year ≤ 9999) ∧ (1 ≤ month ∧ month ≤ 12) ∧ (1 ≤ day ∧ day ≤ daysInMonth year month)

instance (year month day : Nat) : Decidable (IsDate year month day) :=
  inferInstanceAs (Decidable (_ ∧ _ ∧ _))

/-- `datetime`, with the microsecond of the day for its time. -/
structure DateTime where
  year : Nat
  month : Nat
  day : Nat
  microsecond : Nat
  isDate : IsDate year month day
  isTime : microsecond < 86400000000
deriving DecidableEq

namespace DateTime

def key (d : DateTime) : ℕ ×ₗ ℕ ×ₗ ℕ ×ₗ ℕ :=
  toLex (d.year, toLex (d.month, toLex (d.day, d.microsecond)))

theorem key_injective : Function.Injective key := by
  rintro ⟨year, month, day, microsecond, hd, ht⟩ ⟨year', month', day', microsecond', hd', ht'⟩ h
  simp only [key, EmbeddingLike.apply_eq_iff_eq, Prod.mk.injEq] at h
  obtain ⟨rfl, rfl, rfl, rfl⟩ := h
  rfl

instance : LinearOrder DateTime := LinearOrder.lift' key key_injective

/-- `replace(year=year)`: none is a `ValueError`. -/
def replaceYear (d : DateTime) (year : Int) : Option DateTime :=
  if h : IsDate year.toNat d.month d.day then
    some { year := year.toNat, month := d.month, day := d.day, microsecond := d.microsecond,
           isDate := h, isTime := d.isTime }
  else none

theorem newYear_isDate : IsDate 2026 1 1 := by decide

theorem midnight_isTime : 0 < 86400000000 := by decide

end DateTime

end UniversalAgent.Core
