import UniversalAgent.Core.DateTime

/-!
# Core — OffsetDateTime

A `datetime` with an offset from UTC: the moment that it is, by which Python compares such values, and
the text that `isoformat` gives for it.
-/

namespace UniversalAgent.Core

def dayMicroseconds : Nat := 86400000000

namespace DateTime

def daysBeforeYear (year : Nat) : Nat := (year - 1) * 365 + (year - 1) / 4 - (year - 1) / 100 + (year - 1) / 400

def daysBeforeMonth (year month : Nat) : Nat :=
  ((List.range (month - 1)).map fun m => daysInMonth year (m + 1)).sum

/-- `toordinal`: the 1st of January of the year 1 is day 1. -/
def toOrdinal (d : DateTime) : Nat := daysBeforeYear d.year + daysBeforeMonth d.year d.month + d.day

def microseconds (d : DateTime) : Nat := d.toOrdinal * dayMicroseconds + d.microsecond

/-! ## The calendar in order -/

theorem clock_lt_iff {a b : DateTime} : a < b ↔ a.year < b.year ∨ a.year = b.year ∧
    (a.month < b.month ∨ a.month = b.month ∧
      (a.day < b.day ∨ a.day = b.day ∧ a.microsecond < b.microsecond)) := by
  show key a < key b ↔ _
  simp only [key, Prod.Lex.toLex_lt_toLex]

theorem clock_eq_iff {a b : DateTime} : a = b ↔ a.year = b.year ∧ a.month = b.month ∧ a.day = b.day ∧
    a.microsecond = b.microsecond := by
  rw [← key_injective.eq_iff]
  simp only [key, EmbeddingLike.apply_eq_iff_eq, Prod.mk.injEq]

theorem daysBeforeMonth_succ (year month : Nat) :
    daysBeforeMonth year (month + 2) = daysBeforeMonth year (month + 1) + daysInMonth year (month + 1) := by
  simp [daysBeforeMonth, List.range_succ]

theorem daysBeforeMonth_lt {year month month' : Nat} (hmonth : 1 ≤ month) (h : month < month') :
    daysBeforeMonth year month + daysInMonth year month ≤ daysBeforeMonth year month' := by
  obtain ⟨month, rfl⟩ := Nat.exists_eq_add_of_le' hmonth
  induction month', h using Nat.le_induction with
  | base => rw [daysBeforeMonth_succ]
  | succ n hn ih =>
    obtain ⟨n, rfl⟩ := Nat.exists_eq_add_of_le' (show 1 ≤ n by omega)
    rw [daysBeforeMonth_succ]
    omega

theorem daysBeforeYear_succ {year : Nat} (hyear : 1 ≤ year) :
    daysBeforeYear (year + 1) = daysBeforeYear year + daysBeforeMonth year 13 := by
  have hmonths : daysBeforeMonth year 13 = 365 + if isLeap year then 1 else 0 := by
    simp [daysBeforeMonth, daysInMonth, List.range_succ]
    split_ifs <;> rfl
  have hleap : isLeap year = true ↔ year % 4 = 0 ∧ (year % 100 ≠ 0 ∨ year % 400 = 0) := by
    simp [isLeap]
  have hdiv : ∀ n, 0 < n → year / n = (year - 1) / n + if year % n = 0 then 1 else 0 := by
    intro n hn
    obtain ⟨y, rfl⟩ := Nat.exists_eq_add_of_le' hyear
    rw [Nat.add_sub_cancel, Nat.succ_div]
    simp only [Nat.dvd_iff_mod_eq_zero]
  have h100 : year % 100 = 0 → year % 4 = 0 := by omega
  have h400 : year % 400 = 0 → year % 100 = 0 := by omega
  rw [hmonths, daysBeforeYear, daysBeforeYear, Nat.add_sub_cancel, hdiv 4 (by decide),
    hdiv 100 (by decide), hdiv 400 (by decide)]
  have hle : (year - 1) / 100 ≤ (year - 1) / 4 := Nat.div_le_div_left (by decide) (by decide)
  simp only [hleap]
  by_cases hy4 : year % 4 = 0 <;> by_cases hy100 : year % 100 = 0 <;> by_cases hy400 : year % 400 = 0
  all_goals
    simp only [hy4, hy100, hy400, ne_eq, not_true_eq_false, not_false_eq_true, or_true, or_false,
      and_true, and_false, if_true, if_false] at h100 h400 ⊢
    omega

theorem daysBeforeYear_lt {year year' : Nat} (hyear : 1 ≤ year) (h : year < year') :
    daysBeforeYear year + daysBeforeMonth year 13 ≤ daysBeforeYear year' := by
  induction year', h using Nat.le_induction with
  | base => rw [daysBeforeYear_succ hyear]
  | succ n hn ih =>
    rw [daysBeforeYear_succ (by omega)]
    omega

theorem microseconds_lt {a b : DateTime} (h : a < b) : a.microseconds < b.microseconds := by
  obtain ⟨⟨hya, -⟩, ⟨hma, hma'⟩, hda, hda'⟩ := a.isDate
  obtain ⟨-, ⟨hmb, -⟩, hdb, -⟩ := b.isDate
  have hta := a.isTime
  have hmonth := @daysBeforeMonth_lt a.year _ _ hma (show a.month < 13 by omega)
  rw [clock_lt_iff] at h
  rw [microseconds, microseconds, dayMicroseconds]
  rcases h with hyear | ⟨hyear, hmonth' | ⟨hmonth', hday | ⟨hday, htime⟩⟩⟩
  · have hord : a.toOrdinal < b.toOrdinal := by
      have := daysBeforeYear_lt hya hyear
      rw [toOrdinal, toOrdinal]
      omega
    omega
  · have hord : a.toOrdinal < b.toOrdinal := by
      have := @daysBeforeMonth_lt a.year _ _ hma hmonth'
      rw [toOrdinal, toOrdinal, ← hyear]
      omega
    omega
  · have hord : a.toOrdinal < b.toOrdinal := by
      rw [toOrdinal, toOrdinal, ← hyear, ← hmonth']
      omega
    omega
  · have hord : a.toOrdinal = b.toOrdinal := by
      rw [toOrdinal, toOrdinal, hyear, hmonth', hday]
    omega

theorem microseconds_strictMono : StrictMono microseconds := fun _ _ h => microseconds_lt h

end DateTime

/-- An aware `datetime`: what a clock shows where it was taken, and how far that clock is ahead of
UTC, in microseconds. -/
@[ext] structure OffsetDateTime where
  clock : DateTime
  offset : Int
  isOffset : offset.natAbs < dayMicroseconds
deriving DecidableEq

namespace OffsetDateTime

def moment (d : OffsetDateTime) : Int := (d.clock.microseconds : Int) - d.offset

/-! ## `isoformat` -/

def decimal : Nat → Nat → List Char
  | 0, _ => []
  | width + 1, n => decimal width (n / 10) ++ [Nat.digitChar (n % 10)]

/-- `.%06d`, unless there is nothing to show. -/
def fractionText (microseconds : Nat) : List Char :=
  if microseconds = 0 then [] else '.' :: decimal 6 microseconds

def secondText (d : DateTime) : List Char :=
  let seconds := d.microsecond / 1000000
  decimal 4 d.year ++ '-' :: decimal 2 d.month ++ '-' :: decimal 2 d.day ++
    'T' :: decimal 2 (seconds / 3600) ++ ':' :: decimal 2 (seconds / 60 % 60) ++
    ':' :: decimal 2 (seconds % 60)

/-- How far an offset is from UTC: seconds and their fraction only where there are some. -/
def magnitudeText (microseconds : Nat) : List Char :=
  let seconds := microseconds / 1000000
  decimal 2 (seconds / 3600) ++ ':' :: decimal 2 (seconds / 60 % 60) ++
    if microseconds % 60000000 = 0 then []
    else ':' :: decimal 2 (seconds % 60) ++ fractionText (microseconds % 1000000)

/-- `_format_offset`. -/
def offsetText (offset : Int) : List Char :=
  (if offset < 0 then '-' else '+') :: magnitudeText offset.natAbs

def isoformat (d : OffsetDateTime) : String :=
  String.ofList (secondText d.clock ++ fractionText (d.clock.microsecond % 1000000) ++ offsetText d.offset)

/-! ## Texts in order -/

section Texts

variable {p q s t : List Char}

theorem append_lt_append_iff (h : p.length = q.length) : p ++ s < q ++ t ↔ p < q ∨ p = q ∧ s < t := by
  induction p generalizing q with
  | nil =>
    obtain rfl := List.length_eq_zero_iff.mp h.symm
    simp
  | cons a p ih =>
    cases q with
    | nil => cases h
    | cons b q =>
      rw [List.cons_append, List.cons_append, List.cons_lt_cons_iff, List.cons_lt_cons_iff,
        ih (Nat.succ.inj h), List.cons.injEq]
      tauto

/-- Values that are ordered as numbers are, are told apart as they are. -/
theorem eq_iff_of_lt_iff {α : Type} [LT α] [Std.Irrefl fun a b : α => a < b] {f : Nat → α} {m n : Nat}
    (hlt : f m < f n ↔ m < n) (hgt : f n < f m ↔ n < m) : f m = f n ↔ m = n := by
  constructor
  · intro h
    rw [h] at hlt hgt
    have hirrefl := irrefl_of (fun a b : α => a < b) (f n)
    have hmn : ¬m < n := fun h => hirrefl (hlt.mpr h)
    have hnm : ¬n < m := fun h => hirrefl (hgt.mpr h)
    omega
  · exact congrArg f

theorem length_decimal (width n : Nat) : (decimal width n).length = width := by
  induction width generalizing n with
  | zero => rfl
  | succ width ih => rw [decimal, List.length_append, ih, List.length_singleton]

theorem digitChar_lt_iff : ∀ m < 10, ∀ n < 10, Nat.digitChar m < Nat.digitChar n ↔ m < n := by
  decide

/-- Numbers with so many digits are ordered as their digits are. -/
theorem decimal_lt_iff {width m n : Nat} (hm : m < 10 ^ width) (hn : n < 10 ^ width) :
    decimal width m < decimal width n ↔ m < n := by
  induction width generalizing m n with
  | zero =>
    rw [Nat.pow_zero, Nat.lt_one_iff] at hm hn
    rw [hm, hn]
    simp
  | succ width ih =>
    rw [Nat.pow_succ] at hm hn
    have hlt := ih (m := m / 10) (n := n / 10) (by omega) (by omega)
    have heq := eq_iff_of_lt_iff hlt (ih (m := n / 10) (n := m / 10) (by omega) (by omega))
    have hlen : (decimal width (m / 10)).length = (decimal width (n / 10)).length := by
      rw [length_decimal, length_decimal]
    rw [decimal, decimal, append_lt_append_iff hlen, hlt, heq, List.cons_lt_cons_iff,
      digitChar_lt_iff _ (by omega) _ (by omega)]
    simp only [List.not_lt_nil, and_false, or_false]
    omega

theorem decimal_append_lt_iff {width m n : Nat} (hm : m < 10 ^ width) (hn : n < 10 ^ width) :
    decimal width m ++ s < decimal width n ++ t ↔ m < n ∨ m = n ∧ s < t := by
  have hlt := decimal_lt_iff hm hn
  have hlen : (decimal width m).length = (decimal width n).length := by
    rw [length_decimal, length_decimal]
  rw [append_lt_append_iff hlen, hlt, eq_iff_of_lt_iff hlt (decimal_lt_iff hn hm)]

/-- What a fraction is followed by comes before a fraction: the sign of an offset, or nothing. -/
def BeforeFraction (s : List Char) : Prop := ∀ a ∈ s.head?, a < '.'

theorem fraction_append_lt_iff {m n : Nat} (hm : m < 1000000) (hn : n < 1000000)
    (hs : BeforeFraction s) (ht : BeforeFraction t) :
    fractionText m ++ s < fractionText n ++ t ↔ m < n ∨ m = n ∧ s < t := by
  rw [fractionText, fractionText]
  by_cases hm0 : m = 0
  · by_cases hn0 : n = 0
    · simp [hm0, hn0]
    · rw [if_pos hm0, if_neg hn0]
      refine iff_of_true ?_ (.inl (by omega))
      cases s with
      | nil => exact List.nil_lt_cons _ _
      | cons a s => exact List.cons_lt_cons_iff.mpr (.inl (hs a rfl))
  · by_cases hn0 : n = 0
    · rw [if_neg hm0, if_pos hn0]
      refine iff_of_false (fun h => ?_) (by omega)
      cases t with
      | nil => exact List.not_lt_nil _ h
      | cons a t =>
        have ha := ht a rfl
        rcases List.cons_lt_cons_iff.mp h with h | ⟨rfl, -⟩
        · exact lt_asymm ha h
        · exact lt_irrefl _ ha
    · rw [if_neg hm0, if_neg hn0, List.cons_append, List.cons_append, List.cons_lt_cons_self,
        decimal_append_lt_iff hm hn]

end Texts

section Clock

variable {a b : DateTime} {s t : List Char}

/-- Of two texts, the one with the earlier clock comes first. -/
theorem clock_append_lt_iff (hs : BeforeFraction s) (ht : BeforeFraction t) :
    secondText a ++ fractionText (a.microsecond % 1000000) ++ s <
        secondText b ++ fractionText (b.microsecond % 1000000) ++ t ↔
      a < b ∨ a = b ∧ s < t := by
  obtain ⟨⟨-, hya⟩, ⟨-, hma⟩, -, hda⟩ := a.isDate
  obtain ⟨⟨-, hyb⟩, ⟨-, hmb⟩, -, hdb⟩ := b.isDate
  have hdays : ∀ year month, daysInMonth year month ≤ 31 := by
    intro year month
    rw [daysInMonth]
    split_ifs <;> omega
  have hda' := hda.trans (hdays _ _)
  have hdb' := hdb.trans (hdays _ _)
  have hta := a.isTime
  have htb := b.isTime
  simp only [secondText, List.append_assoc, List.cons_append]
  rw [decimal_append_lt_iff (by omega) (by omega), List.cons_lt_cons_self,
    decimal_append_lt_iff (by omega) (by omega), List.cons_lt_cons_self,
    decimal_append_lt_iff (by omega) (by omega), List.cons_lt_cons_self,
    decimal_append_lt_iff (by omega) (by omega), List.cons_lt_cons_self,
    decimal_append_lt_iff (by omega) (by omega), List.cons_lt_cons_self,
    decimal_append_lt_iff (by omega) (by omega),
    fraction_append_lt_iff (by omega) (by omega) hs ht, DateTime.clock_lt_iff, DateTime.clock_eq_iff]
  by_cases h : s < t
  · simp only [h, and_true]
    omega
  · simp only [h, and_false, or_false]
    omega

end Clock

section Offset

theorem magnitudeText_lt {u v : Nat} (hv : v < dayMicroseconds) (h : u < v) :
    magnitudeText u < magnitudeText v := by
  have hday : v < 86400000000 := hv
  simp only [magnitudeText, List.append_assoc, List.cons_append]
  rw [decimal_append_lt_iff (by omega) (by omega), List.cons_lt_cons_self,
    decimal_append_lt_iff (by omega) (by omega)]
  by_cases hminute : u / 60000000 = v / 60000000
  · refine .inr ⟨by omega, .inr ⟨by omega, ?_⟩⟩
    rw [if_neg (by omega : ¬v % 60000000 = 0)]
    by_cases hzero : u % 60000000 = 0
    · rw [if_pos hzero]
      exact List.nil_lt_cons _ _
    · have hnil : BeforeFraction [] := nofun
      rw [if_neg hzero, List.cons_lt_cons_self, decimal_append_lt_iff (by omega) (by omega)]
      have hfraction := fraction_append_lt_iff (m := u % 1000000) (n := v % 1000000) (by omega) (by omega)
        hnil hnil
      rw [List.append_nil, List.append_nil] at hfraction
      rw [hfraction]
      omega
  · omega

theorem magnitudeText_lt_iff {u v : Nat} (hu : u < dayMicroseconds) (hv : v < dayMicroseconds) :
    magnitudeText u < magnitudeText v ↔ u < v := by
  refine ⟨fun h => ?_, magnitudeText_lt hv⟩
  rcases lt_trichotomy u v with hlt | rfl | hgt
  · exact hlt
  · exact absurd h (List.lt_irrefl _)
  · exact absurd h (List.lt_asymm (magnitudeText_lt hu hgt))

/-- Offsets ahead of UTC come first, and on each side those that are closer to it. -/
theorem offsetText_lt_iff {m n : Int} (hm : m.natAbs < dayMicroseconds) (hn : n.natAbs < dayMicroseconds) :
    offsetText m < offsetText n ↔ (n < 0 ∧ n < m) ∨ (0 ≤ m ∧ m < n) := by
  rw [offsetText, offsetText, List.cons_lt_cons_iff, magnitudeText_lt_iff hm hn]
  have hsigns : '+' < '-' ∧ ¬ '-' < '+' ∧ '+' ≠ '-' := by decide
  by_cases hm0 : m < 0
  · by_cases hn0 : n < 0
    · rw [if_pos hm0, if_pos hn0]
      simp only [lt_irrefl, false_or, true_and]
      omega
    · rw [if_pos hm0, if_neg hn0]
      refine iff_of_false (fun h => ?_) (by omega)
      exact h.elim hsigns.2.1 fun h => hsigns.2.2 h.1.symm
  · by_cases hn0 : n < 0
    · rw [if_neg hm0, if_pos hn0]
      exact iff_of_true (.inl hsigns.1) (by omega)
    · rw [if_neg hm0, if_neg hn0]
      simp only [lt_irrefl, false_or, true_and]
      omega

theorem beforeFraction_offsetText (offset : Int) : BeforeFraction (offsetText offset) := by
  intro a ha
  rw [offsetText, List.head?_cons, Option.mem_some_iff] at ha
  subst ha
  split <;> decide

end Offset

/-- **The order of texts**: by what the clocks show, and by the offsets where they show the same. -/
theorem isoformat_lt_iff {a b : OffsetDateTime} : a.isoformat < b.isoformat ↔
    a.clock < b.clock ∨ a.clock = b.clock ∧
      ((b.offset < 0 ∧ b.offset < a.offset) ∨ (0 ≤ a.offset ∧ a.offset < b.offset)) := by
  rw [String.lt_iff_toList_lt, isoformat, isoformat, String.toList_ofList, String.toList_ofList,
    clock_append_lt_iff (beforeFraction_offsetText _) (beforeFraction_offsetText _),
    offsetText_lt_iff a.isOffset b.isOffset]

theorem isoformat_injective : Function.Injective isoformat := by
  intro a b h
  have hab : ¬a.isoformat < b.isoformat := h.not_lt
  have hba : ¬b.isoformat < a.isoformat := h.not_gt
  rw [isoformat_lt_iff, not_or] at hab hba
  have hclock : a.clock = b.clock := le_antisymm (not_lt.mp hba.1) (not_lt.mp hab.1)
  have hoffset : a.offset = b.offset := by
    have hnot : ¬((b.offset < 0 ∧ b.offset < a.offset) ∨ (0 ≤ a.offset ∧ a.offset < b.offset)) :=
      fun h => hab.2 ⟨hclock, h⟩
    have hnot' : ¬((a.offset < 0 ∧ a.offset < b.offset) ∨ (0 ≤ b.offset ∧ b.offset < a.offset)) :=
      fun h => hba.2 ⟨hclock.symm, h⟩
    omega
  exact OffsetDateTime.ext hclock hoffset

end OffsetDateTime

end UniversalAgent.Core
