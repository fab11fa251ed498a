import Mathlib

/-!
# Foundation — Rounding

Numbers rounded to a count of binary digits, as binary floating point does with exponents that do not
run out, and to a count of decimal places. How an integer is chosen for a number is a parameter, `near`:
whatever it chooses is at most a half away, as what `halfEven` chooses is.
-/

namespace UniversalAgent.Foundation.Rounding

def Nearest (near : ℚ → ℤ) : Prop := ∀ x : ℚ, |(near x : ℚ) - x| ≤ 1 / 2

def halfEven (x : ℚ) : ℤ :=
  if x - x.floor < 1 / 2 then x.floor
  else if 1 / 2 < x - x.floor then x.floor + 1
  else if x.floor % 2 = 0 then x.floor
  else x.floor + 1

theorem halfEven_nearest : Nearest halfEven := by
  intro x
  have hle : (x.floor : ℚ) ≤ x := Int.floor_le x
  have hlt : x < x.floor + 1 := Int.lt_floor_add_one x
  rw [abs_le, halfEven]
  split
  · constructor <;> linarith
  · split
    · push_cast
      constructor <;> linarith
    · split
      · constructor <;> linarith
      · push_cast
        constructor <;> linarith

/-- The distance between the numbers of `p` binary digits around `x`. -/
def quantum (p : ℕ) (x : ℚ) : ℚ := (2 : ℚ) ^ (Int.log 2 |x| + 1 - p)

variable (near : ℚ → ℤ)

/-- A number of `p` binary digits for `x`. -/
def toBinary (p : ℕ) (x : ℚ) : ℚ := near (x / quantum p x) * quantum p x

/-- A number of `n` decimal places for `x`. -/
def toDecimals (n : ℕ) (x : ℚ) : ℚ := near (x * 10 ^ n) / 10 ^ n

variable {near} {p n : ℕ} {x : ℚ}

theorem quantum_pos (p : ℕ) (x : ℚ) : 0 < quantum p x := zpow_pos two_pos _

theorem quantum_le (hx : x ≠ 0) : quantum p x ≤ 2 * (|x| / 2 ^ p) := by
  have hlog : (2 : ℚ) ^ Int.log 2 |x| ≤ |x| := Int.zpow_log_le_self one_lt_two (abs_pos.mpr hx)
  have hp : (0 : ℚ) < 2 ^ p := by positivity
  calc quantum p x = 2 * ((2 : ℚ) ^ Int.log 2 |x| / 2 ^ p) := by
        rw [quantum, zpow_sub₀ two_ne_zero, zpow_add_one₀ two_ne_zero, zpow_natCast]
        ring
    _ ≤ 2 * (|x| / 2 ^ p) := by gcongr

/-- A number of `p` binary digits has fewer, or is a power of two. -/
theorem exists_fewer (hp : p ≠ 0) {m e : ℤ} (hm : |m| ≤ 2 ^ p) :
    ∃ m' e' : ℤ, |m'| < 2 ^ p ∧ (m : ℚ) * (2 : ℚ) ^ e = m' * (2 : ℚ) ^ e' := by
  rcases lt_or_eq_of_le hm with hlt | heq
  · exact ⟨m, e, hlt, rfl⟩
  · obtain ⟨k, rfl⟩ : (2 : ℤ) ∣ m := (dvd_abs 2 m).mp (heq ▸ dvd_pow_self 2 hp)
    refine ⟨k, e + 1, ?_, ?_⟩
    · rw [abs_mul, abs_two] at heq
      have hpos : (0 : ℤ) < 2 ^ p := by positivity
      linarith
    · rw [zpow_add_one₀ two_ne_zero]
      push_cast
      ring

/-- It is a multiple of the distance between such numbers around it. -/
theorem exists_div_quantum (hp : p ≠ 0) {m e : ℤ} (hm : |m| ≤ 2 ^ p) (hx : x = m * (2 : ℚ) ^ e) :
    ∃ k : ℤ, x / quantum p x = k := by
  rcases eq_or_ne x 0 with h0 | h0
  · exact ⟨0, by simp [h0]⟩
  · obtain ⟨m', e', hm', hmul⟩ := exists_fewer (e := e) hp hm
    rw [hmul] at hx
    have hpow : (0 : ℚ) < 2 ^ e' := zpow_pos two_pos _
    have hlt : |x| < (2 : ℚ) ^ (p + e' : ℤ) := by
      rw [zpow_add₀ two_ne_zero, zpow_natCast, hx, abs_mul, abs_of_pos hpow]
      gcongr
      exact_mod_cast hm'
    have hlog : Int.log 2 |x| < p + e' := (Int.lt_zpow_iff_log_lt one_lt_two (abs_pos.mpr h0)).mp hlt
    obtain ⟨n, hn⟩ := Int.le.dest (show Int.log 2 |x| + 1 - p ≤ e' by omega)
    refine ⟨m' * 2 ^ n, ?_⟩
    have hdiv : (2 : ℚ) ^ e' = 2 ^ n * quantum p x := by
      rw [quantum, ← zpow_natCast, ← zpow_add₀ two_ne_zero, add_comm, hn]
    rw [div_eq_iff (quantum_pos p x).ne']
    conv_lhs => rw [hx, hdiv]
    push_cast
    ring

namespace Nearest

variable (hnear : Nearest near)

include hnear

theorem zero : near 0 = 0 := by
  have h := hnear 0
  rw [sub_zero, abs_le] at h
  have hlow : (-1 : ℚ) < near 0 := by linarith
  have hhigh : (near 0 : ℚ) < 1 := by linarith
  have hlow' : -1 < near 0 := by exact_mod_cast hlow
  have hhigh' : near 0 < 1 := by exact_mod_cast hhigh
  omega

theorem intCast (k : ℤ) : near k = k := by
  have h := abs_le.mp (hnear k)
  have hlow : ((k - 1 : ℤ) : ℚ) < near k := by
    push_cast
    linarith [h.1]
  have hhigh : (near k : ℚ) < ((k + 1 : ℤ) : ℚ) := by
    push_cast
    linarith [h.2]
  have hlow' : k - 1 < near k := by exact_mod_cast hlow
  have hhigh' : near k < k + 1 := by exact_mod_cast hhigh
  omega

theorem abs_le_of_abs_lt {m : ℤ} (hx : |x| < m) : |near x| ≤ m := by
  have h := hnear x
  have hle : |(near x : ℚ)| ≤ |(near x : ℚ) - x| + |x| := by
    simpa using abs_add_le ((near x : ℚ) - x) x
  have hlt : |(near x : ℚ)| < ((m + 1 : ℤ) : ℚ) := by
    push_cast
    linarith
  have hlt' : |near x| < m + 1 := by exact_mod_cast hlt
  omega

theorem nonpos (hx : x < 1 / 2) : near x ≤ 0 := by
  have h := (abs_le.mp (hnear x)).2
  have hlt : (near x : ℚ) < 1 := by linarith
  have : near x < 1 := by exact_mod_cast hlt
  omega

theorem pos (hx : 1 / 2 < x) : 0 < near x := by
  have h := (abs_le.mp (hnear x)).1
  have hlt : (0 : ℚ) < near x := by linarith
  exact_mod_cast hlt

/-- Rounding to `p` binary digits changes a number by at most its `2 ^ p`th part. -/
theorem abs_toBinary_sub_le : |toBinary near p x - x| ≤ |x| / 2 ^ p := by
  rcases eq_or_ne x 0 with rfl | hx
  · simp [toBinary, hnear.zero]
  · have hq := quantum_pos p x
    have hscaled : toBinary near p x - x = (near (x / quantum p x) - x / quantum p x) * quantum p x := by
      rw [toBinary, sub_mul, div_mul_cancel₀ _ hq.ne']
    calc |toBinary near p x - x| = |(near (x / quantum p x) : ℚ) - x / quantum p x| * quantum p x := by
          rw [hscaled, abs_mul, abs_of_pos hq]
      _ ≤ 1 / 2 * quantum p x := by gcongr; exact hnear _
      _ ≤ 1 / 2 * (2 * (|x| / 2 ^ p)) := by gcongr; exact quantum_le hx
      _ = |x| / 2 ^ p := by ring

/-- The numbers that are rounded to themselves are those of at most `p` binary digits. -/
theorem toBinary_eq_self_iff (hp : p ≠ 0) :
    toBinary near p x = x ↔ ∃ m e : ℤ, |m| ≤ 2 ^ p ∧ x = m * (2 : ℚ) ^ e := by
  have hq := quantum_pos p x
  constructor
  · intro h
    refine ⟨near (x / quantum p x), Int.log 2 |x| + 1 - p, ?_, h.symm⟩
    refine hnear.abs_le_of_abs_lt ?_
    have hlt : |x| < (2 : ℚ) ^ (Int.log 2 |x| + 1) := Int.lt_zpow_succ_log_self one_lt_two _
    rw [abs_div, abs_of_pos hq, div_lt_iff₀ hq, quantum]
    push_cast
    rwa [← zpow_natCast, ← zpow_add₀ two_ne_zero, show (p : ℤ) + (Int.log 2 |x| + 1 - p) = Int.log 2 |x| + 1 by ring]
  · rintro ⟨m, e, hm, hx⟩
    obtain ⟨k, hk⟩ := exists_div_quantum hp hm hx
    rw [toBinary, hk, hnear.intCast, ← hk, div_mul_cancel₀ _ hq.ne']

theorem toBinary_le (hx : 0 ≤ x) : toBinary near p x ≤ x + x / 2 ^ p := by
  have h := (abs_le.mp (hnear.abs_toBinary_sub_le (p := p) (x := x))).2
  rw [abs_of_nonneg hx] at h
  linarith

theorem le_toBinary (hx : 0 ≤ x) : x - x / 2 ^ p ≤ toBinary near p x := by
  have h := (abs_le.mp (hnear.abs_toBinary_sub_le (p := p) (x := x))).1
  rw [abs_of_nonneg hx] at h
  linarith

theorem toBinary_pos_iff (hp : p ≠ 0) : 0 < toBinary near p x ↔ 0 < x := by
  have herr := abs_le.mp (hnear.abs_toBinary_sub_le (p := p) (x := x))
  have hpow : (2 : ℚ) ≤ 2 ^ p := le_self_pow₀ one_le_two hp
  have hpart : |x| / 2 ^ p ≤ |x| / 2 := by gcongr
  constructor
  · intro h
    by_contra hx
    rw [abs_of_nonpos (not_lt.mp hx)] at herr hpart
    linarith [herr.2]
  · intro hx
    rw [abs_of_pos hx] at herr hpart
    linarith [herr.1]

theorem toDecimals_nonpos (hx : x < 1 / (2 * 10 ^ n)) : toDecimals near n x ≤ 0 := by
  have hten : (0 : ℚ) < 10 ^ n := by positivity
  have hhalf : x * 10 ^ n < 1 / 2 := by
    rw [lt_div_iff₀ (by positivity)] at hx
    linarith
  exact div_nonpos_of_nonpos_of_nonneg (by exact_mod_cast hnear.nonpos hhalf) hten.le

theorem toDecimals_pos (hx : 1 / (2 * 10 ^ n) < x) : 0 < toDecimals near n x := by
  have hten : (0 : ℚ) < 10 ^ n := by positivity
  have hhalf : 1 / 2 < x * 10 ^ n := by
    rw [div_lt_iff₀ (by positivity)] at hx
    linarith
  exact div_pos (by exact_mod_cast hnear.pos hhalf) hten

end Nearest

end UniversalAgent.Foundation.Rounding
