import Mathlib

/-!
# Foundation — Text

The few operations of Python's `str` that the program's checks and identifiers rest on:
`strip`, `isdecimal` followed by `int`, and the f-string rendering of a natural number.
The tables of white space and of decimal digits are Unicode's (15.0): `str.isspace` and
`str.isdecimal` are not limited to ASCII.

The lemmas are about identifiers assembled from a text and a number: a rendered number
parses back to itself, and it never contains the separator put in front of it, so the
number and the text can be recovered from the assembled identifier.
-/

namespace UniversalAgent.Foundation.Text

/-- Code points for which `str.isspace` is true. -/
def spaceCodes : List Nat :=
  [0x9, 0xa, 0xb, 0xc, 0xd, 0x1c, 0x1d, 0x1e, 0x1f, 0x20, 0x85, 0xa0, 0x1680,
    0x2000, 0x2001, 0x2002, 0x2003, 0x2004, 0x2005, 0x2006, 0x2007, 0x2008, 0x2009, 0x200a,
    0x2028, 0x2029, 0x202f, 0x205f, 0x3000]

def isSpace (c : Char) : Bool := spaceCodes.contains c.toNat

/-- `str.strip()`. -/
def strip (s : String) : String :=
  String.ofList ((s.toList.dropWhile isSpace).reverse.dropWhile isSpace).reverse

/-- `not s.strip()`: nothing but white space. -/
def isBlank (s : String) : Bool := s.toList.all isSpace

/-- The zeros of the decimal digit blocks: each begins a run of ten code points with the
values 0 to 9. -/
def decimalZeros : List Nat :=
  [0x30, 0x660, 0x6f0, 0x7c0, 0x966, 0x9e6, 0xa66, 0xae6, 0xb66, 0xbe6, 0xc66, 0xce6, 0xd66,
    0xde6, 0xe50, 0xed0, 0xf20, 0x1040, 0x1090, 0x17e0, 0x1810, 0x1946, 0x19d0, 0x1a80, 0x1a90,
    0x1b50, 0x1bb0, 0x1c40, 0x1c50, 0xa620, 0xa8d0, 0xa900, 0xa9d0, 0xa9f0, 0xaa50, 0xabf0,
    0xff10, 0x104a0, 0x10d30, 0x11066, 0x110f0, 0x11136, 0x111d0, 0x112f0, 0x11450, 0x114d0,
    0x11650, 0x116c0, 0x11730, 0x118e0, 0x11950, 0x11c50, 0x11d50, 0x11da0, 0x11f50, 0x16a60,
    0x16ac0, 0x16b50, 0x1d7ce, 0x1d7d8, 0x1d7e2, 0x1d7ec, 0x1d7f6, 0x1e140, 0x1e2f0, 0x1e4f0,
    0x1e950, 0x1fbf0]

/-- The value of a decimal digit, `none` for any other character. -/
def decimalDigit (c : Char) : Option Nat :=
  (decimalZeros.find? fun z => decide (z ≤ c.toNat ∧ c.toNat < z + 10)).map fun z => c.toNat - z

/-- `int(s)` where `s.isdecimal()`, `none` where it is not. -/
def parseDecimal (s : String) : Option Nat :=
  if s.toList = [] then none
  else (s.toList.mapM decimalDigit).map fun ds => ds.foldl (fun acc d => 10 * acc + d) 0

theorem decimalDigit_of_isDigit {c : Char} (h : c.isDigit) :
    decimalDigit c = some (c.toNat - '0'.toNat) := by
  have hlo : 0x30 ≤ c.toNat := by
    simp only [Char.isDigit, Bool.and_eq_true, decide_eq_true_eq] at h
    exact h.1
  have hhi : c.toNat < 0x30 + 10 := by
    simp only [Char.isDigit, Bool.and_eq_true, decide_eq_true_eq] at h
    exact Nat.lt_succ_of_le h.2
  simp only [decimalDigit, decimalZeros, List.find?_cons, hlo, hhi, and_self, decide_true,
    Option.map_some]
  rfl

theorem mapM_decimalDigit {cs : List Char} (h : ∀ c ∈ cs, c.isDigit) :
    cs.mapM decimalDigit = some (cs.map fun c => c.toNat - '0'.toNat) := by
  induction cs with
  | nil => rfl
  | cons c cs ih =>
    have hc := decimalDigit_of_isDigit (h c (by simp))
    have hcs := ih fun d hd => h d (by simp [hd])
    simp [List.mapM_cons, hc, hcs]

theorem toList_toString (n : Nat) : (toString n).toList = Nat.toDigits 10 n := Nat.toList_repr

theorem isDigit_of_mem_toString {n : Nat} {c : Char} (h : c ∈ (toString n).toList) : c.isDigit :=
  Nat.isDigit_of_mem_toDigits (by decide) (by decide) (toList_toString n ▸ h)

theorem toString_injective : Function.Injective (fun n : Nat => toString n) :=
  fun _ _ h => Nat.repr_inj.mp h

theorem parseDecimal_toString (n : Nat) : parseDecimal (toString n) = some n := by
  have hne : (toString n).toList ≠ [] := by
    rw [toList_toString]; exact Nat.toDigits_ne_nil
  rw [parseDecimal, if_neg hne, mapM_decimalDigit fun c hc => isDigit_of_mem_toString hc,
    toList_toString, Option.map_some, List.foldl_map]
  have h := Nat.ofDigitChars_ten_toDigits (n := n)
  rw [Nat.ofDigitChars_eq_foldl] at h
  rw [h]

theorem dash_notMem_toString (n : Nat) : '-' ∉ (toString n).toList := fun h =>
  absurd (isDigit_of_mem_toString h) (by decide)

/-- Texts split at their last separator: equal splits have equal parts. -/
theorem append_sep_inj {α : Type*} {sep : α} {l₁ l₂ r₁ r₂ : List α} (h₁ : sep ∉ r₁) (h₂ : sep ∉ r₂)
    (h : l₁ ++ sep :: r₁ = l₂ ++ sep :: r₂) : l₁ = l₂ ∧ r₁ = r₂ := by
  induction l₁ generalizing l₂ with
  | nil =>
    cases l₂ with
    | nil => simpa using h
    | cons a l₂ =>
      simp only [List.nil_append, List.cons_append, List.cons.injEq] at h
      exact absurd (h.2 ▸ by simp) h₁
  | cons a l₁ ih =>
    cases l₂ with
    | nil =>
      simp only [List.nil_append, List.cons_append, List.cons.injEq] at h
      exact absurd (h.2 ▸ by simp) h₂
    | cons b l₂ =>
      simp only [List.cons_append, List.cons.injEq] at h
      obtain ⟨hl, hr⟩ := ih h.2
      exact ⟨by rw [h.1, hl], hr⟩

/-- A text and a number joined by `-` behind a fixed prefix determine both. -/
theorem dashed_inj {pre a b : String} {m n : Nat}
    (h : pre ++ a ++ "-" ++ toString m = pre ++ b ++ "-" ++ toString n) : a = b ∧ m = n := by
  have hl := congrArg String.toList h
  simp only [String.toList_append, List.append_assoc] at hl
  have hd : "-".toList = ['-'] := rfl
  rw [List.append_cancel_left_eq, hd] at hl
  obtain ⟨ha, hn⟩ := append_sep_inj (dash_notMem_toString m) (dash_notMem_toString n) hl
  exact ⟨String.toList_inj.mp ha, toString_injective (String.toList_inj.mp hn)⟩

theorem prefix_inj {pre a b : String} (h : pre ++ a = pre ++ b) : a = b := by
  have hl := congrArg String.toList h
  simp only [String.toList_append, List.append_cancel_left_eq] at hl
  exact String.toList_inj.mp hl

end UniversalAgent.Foundation.Text
