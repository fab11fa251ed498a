import Mathlib

/-!
# Foundation — CaseMapping

`str.lower` and `str.upper`. Only their values on ASCII texts are fixed.
-/

namespace UniversalAgent.Foundation

def isAscii (s : String) : Bool := s.toList.all fun c => c.toNat < 128

structure CaseMapping where
  lower : String → String
  upper : String → String
  lower_ascii : ∀ s, isAscii s = true → lower s = String.ofList (s.toList.map Char.toLower)
  upper_upper : ∀ s, upper (upper s) = upper s
  upper_ascii : ∀ s, isAscii s = true → upper s = String.ofList (s.toList.map Char.toUpper)

theorem toUpper_toUpper (c : Char) : c.toUpper.toUpper = c.toUpper := by
  unfold Char.toUpper
  split
  · next h =>
      have hle : 97 ≤ c.toNat ∧ c.toNat ≤ 122 := by
        simpa [UInt32.le_iff_toNat_le] using h
      rw [dif_neg]
      intro hbig
      have hval : (c.val + ('A'.val - 'a'.val)).toNat = c.toNat - 32 := by
        have hdiff : 'A'.val - 'a'.val = 4294967264 := by decide
        rw [hdiff, UInt32.toNat_add]
        simp
        omega
      have hlow : 97 ≤ (c.val + ('A'.val - 'a'.val)).toNat := by
        simpa [UInt32.le_iff_toNat_le] using hbig.1
      omega
  · rfl

def asciiCase : CaseMapping where
  lower s := String.ofList (s.toList.map Char.toLower)
  upper s := String.ofList (s.toList.map Char.toUpper)
  upper_upper s := by
    have htwice : Char.toUpper ∘ Char.toUpper = Char.toUpper := funext toUpper_toUpper
    rw [String.toList_ofList, List.map_map, htwice]
  lower_ascii _ _ := rfl
  upper_ascii _ _ := rfl

end UniversalAgent.Foundation
