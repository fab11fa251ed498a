import UniversalAgent.Core.Json
import UniversalAgent.Foundation.Rounding

/-!
# Core — Floats

Numbers as Python's floats hold them: with 53 binary digits. What lies beneath the least normal float, where
there are fewer digits, does not occur here.
-/

namespace UniversalAgent.Core

open UniversalAgent.Foundation

def toFloat (x : ℚ) : ℚ := Rounding.toBinary Rounding.halfEven 53 x

/-- `round(x, ndigits)` of a float. -/
def roundFloat (x : ℚ) (ndigits : ℕ) : ℚ := toFloat (Rounding.toDecimals Rounding.halfEven ndigits x)

/-- An `int` or a `float`. -/
inductive Number where
  | int (i : Int)
  | float (x : PyFloat)
deriving DecidableEq

namespace Number

def value : Number → PyFloat
  | int i => .finite i
  | float x => x

/-- `float(x)`; Python raises for an integer beyond all floats. -/
def toFloat? : Number → Option PyFloat
  | int i => if |toFloat i| < 2 ^ 1024 then some (.finite (toFloat i)) else none
  | float x => some x

def toJson : Number → Json
  | int i => .int i
  | float x => .float x

/-- The number is given as a float, or it is an integer of at most 53 binary digits, with zeros behind. -/
def IsFloat : Number → Prop
  | int i => ∃ m e : ℤ, |m| ≤ 2 ^ 53 ∧ (i : ℚ) = m * (2 : ℚ) ^ e
  | float _ => True

theorem value_toFloat?_iff {n : Number} {x : PyFloat} (h : n.toFloat? = some x) : x = n.value ↔ n.IsFloat := by
  cases n with
  | float y =>
    obtain rfl := Option.some.inj h
    exact iff_of_true rfl trivial
  | int i =>
    rw [toFloat?] at h
    split at h
    · obtain rfl := Option.some.inj h
      rw [value, PyFloat.finite.injEq]
      exact Rounding.halfEven_nearest.toBinary_eq_self_iff (by decide)
    · cases h

end Number

end UniversalAgent.Core
