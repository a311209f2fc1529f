import Mathlib.Tactic.IntervalCases
import Mathlib.Tactic.Ring

/-! Dates of the proleptic Gregorian calendar as `datetime` computes with them: a date has
an ordinal, from the first day of the year 1, and the ordinals are in the order of the
years, the months and the days. -/
namespace Python

def isLeap (year : Nat) : Bool := year % 4 = 0 && (year % 100 ≠ 0 || year % 400 = 0)

/-- The days before the first of January. -/
def daysBeforeYear (year : Nat) : Nat :=
  let y := year - 1
  y * 365 + y / 4 - y / 100 + y / 400

def monthLengths : List Nat := [31, 28, 31, 30, 31, 30, 31, 31, 30, 31, 30, 31]

def daysInMonth (leap : Bool) (month : Nat) : Nat :=
  if month = 2 ∧ leap = true then 29 else monthLengths.getD (month - 1) 0

/-- The days of the year before the month. -/
def daysBeforeMonth (leap : Bool) (month : Nat) : Nat :=
  (monthLengths.take (month - 1)).sum + if 2 < month ∧ leap = true then 1 else 0

structure Date where
  year : Nat
  month : Nat
  day : Nat
  year_range : 1 ≤ year ∧ year ≤ 9999
  month_range : 1 ≤ month ∧ month ≤ 12
  day_range : 1 ≤ day ∧ day ≤ daysInMonth (isLeap year) month
  deriving DecidableEq

def ymd2ord (year month day : Nat) : Nat :=
  daysBeforeYear year + daysBeforeMonth (isLeap year) month + day

def Date.toordinal (date : Date) : Nat := ymd2ord date.year date.month date.day

def daysIn400Years : Nat := daysBeforeYear 401
def daysIn100Years : Nat := daysBeforeYear 101
def daysIn4Years : Nat := daysBeforeYear 5

/-- The month and the day of a day of the year, counted from zero. The estimate of the month
is exact or one too large. -/
def monthAndDay (leap : Bool) (n : Nat) : Nat × Nat :=
  let month := (n + 50) / 32
  if daysBeforeMonth leap month ≤ n then (month, n - daysBeforeMonth leap month + 1)
  else (month - 1, n - daysBeforeMonth leap (month - 1) + 1)

/-- The date of an ordinal, by cycles of 400, 100, 4 years and one. -/
def ord2ymd (ordinal : Nat) : Nat × Nat × Nat :=
  let n := ordinal - 1
  let n400 := n / daysIn400Years
  let n := n % daysIn400Years
  let n100 := n / daysIn100Years
  let n := n % daysIn100Years
  let n4 := n / daysIn4Years
  let n := n % daysIn4Years
  let n1 := n / 365
  let n := n % 365
  let year := n400 * 400 + 1 + n100 * 100 + n4 * 4 + n1
  if n1 = 4 ∨ n100 = 4 then (year - 1, 12, 31)
  else (year, monthAndDay (n1 = 3 && (n4 ≠ 24 || n100 = 3)) n)

def maxOrdinal : Nat := 3652059

/- A year. -/

def daysInYear (leap : Bool) : Nat := if leap = true then 366 else 365

/-- The years of the cycles: a last day is left over after four of the shorter ones. -/
theorem daysBeforeYear_cycles {a b c d : Nat} (hundreds : b ≤ 3) (fours : c ≤ 24) (ones : d ≤ 3) :
    daysBeforeYear (a * 400 + 1 + b * 100 + c * 4 + d) =
      a * 146097 + b * 36524 + c * 1461 + d * 365 := by
  unfold daysBeforeYear
  simp only
  omega

theorem isLeap_cycles {a b c d : Nat} (hundreds : b ≤ 3) (fours : c ≤ 24) (ones : d ≤ 3) :
    isLeap (a * 400 + 1 + b * 100 + c * 4 + d) = (decide (d = 3) && (c ≠ 24 || b = 3)) := by
  have four : (a * 400 + 1 + b * 100 + c * 4 + d) % 4 = 0 ↔ d = 3 := by omega
  have hundred : (a * 400 + 1 + b * 100 + c * 4 + d) % 100 ≠ 0 ↔ ¬ (c = 24 ∧ d = 3) := by omega
  have whole : (a * 400 + 1 + b * 100 + c * 4 + d) % 400 = 0 ↔ c = 24 ∧ d = 3 ∧ b = 3 := by omega
  rw [Bool.eq_iff_iff]
  simp only [isLeap, Bool.and_eq_true, Bool.or_eq_true, decide_eq_true_eq, four, hundred, whole]
  omega

theorem daysBeforeYear_succ {year : Nat} (positive : 1 ≤ year) :
    daysBeforeYear (year + 1) = daysBeforeYear year + daysInYear (isLeap year) := by
  obtain ⟨y, rfl⟩ : ∃ y, year = y + 1 := ⟨year - 1, by omega⟩
  have four : (y + 1) / 4 = y / 4 + if (y + 1) % 4 = 0 then 1 else 0 := by split <;> omega
  have hundred : (y + 1) / 100 = y / 100 + if (y + 1) % 100 = 0 then 1 else 0 := by
    split <;> omega
  have whole : (y + 1) / 400 = y / 400 + if (y + 1) % 400 = 0 then 1 else 0 := by
    split <;> omega
  have fewer : y / 100 ≤ y / 4 := by omega
  have nested : (y + 1) % 400 = 0 → (y + 1) % 100 = 0 := by omega
  have inner : (y + 1) % 100 = 0 → (y + 1) % 4 = 0 := by omega
  simp only [daysBeforeYear, daysInYear, isLeap, Nat.add_sub_cancel, four, hundred, whole]
  by_cases byFour : (y + 1) % 4 = 0 <;> by_cases byHundred : (y + 1) % 100 = 0 <;>
    by_cases byWhole : (y + 1) % 400 = 0 <;> simp_all <;> omega

theorem daysBeforeYear_mono {year other : Nat} (le : year ≤ other) :
    daysBeforeYear year ≤ daysBeforeYear other := by
  induction other, le using Nat.le_induction with
  | base => exact Nat.le_refl _
  | succ other le ih =>
    refine ih.trans ?_
    rcases Nat.eq_zero_or_pos other with rfl | positive
    · exact Nat.le_refl _
    · rw [daysBeforeYear_succ positive]
      exact Nat.le_add_right _ _

/- A month. -/

/-- The day of the year is one of those of its month. -/
theorem monthAndDay_spec (leap : Bool) (n : Nat) (within : n < daysInYear leap) :
    (1 ≤ (monthAndDay leap n).1 ∧ (monthAndDay leap n).1 ≤ 12) ∧
    (1 ≤ (monthAndDay leap n).2 ∧
      (monthAndDay leap n).2 ≤ daysInMonth leap (monthAndDay leap n).1) ∧
    daysBeforeMonth leap (monthAndDay leap n).1 + (monthAndDay leap n).2 = n + 1 := by
  have all : ∀ leap : Bool, ∀ n < daysInYear leap,
      (1 ≤ (monthAndDay leap n).1 ∧ (monthAndDay leap n).1 ≤ 12) ∧
      (1 ≤ (monthAndDay leap n).2 ∧
        (monthAndDay leap n).2 ≤ daysInMonth leap (monthAndDay leap n).1) ∧
      daysBeforeMonth leap (monthAndDay leap n).1 + (monthAndDay leap n).2 = n + 1 := by
    decide +kernel
  exact all leap n within

theorem daysBeforeMonth_succ (leap : Bool) {month : Nat} (range : 1 ≤ month ∧ month ≤ 12) :
    daysBeforeMonth leap (month + 1) = daysBeforeMonth leap month + daysInMonth leap month := by
  obtain ⟨low, high⟩ := range
  cases leap <;> interval_cases month <;> rfl

theorem daysBeforeMonth_mono (leap : Bool) {month other : Nat} (positive : 1 ≤ month)
    (le : month ≤ other) (high : other ≤ 13) :
    daysBeforeMonth leap month ≤ daysBeforeMonth leap other := by
  induction other, le using Nat.le_induction with
  | base => exact Nat.le_refl _
  | succ other le ih =>
    rw [daysBeforeMonth_succ leap ⟨positive.trans le, by omega⟩]
    exact (ih (by omega)).trans (Nat.le_add_right _ _)

theorem daysBeforeMonth_end (leap : Bool) : daysBeforeMonth leap 13 = daysInYear leap := by
  cases leap <;> rfl

/- The order of the dates. -/

namespace Date

/-- By year, then by month, then by day. -/
def Before (a b : Date) : Prop :=
  a.year < b.year ∨ a.year = b.year ∧ (a.month < b.month ∨ a.month = b.month ∧ a.day < b.day)

theorem toordinal_pos (date : Date) : 1 ≤ date.toordinal :=
  date.day_range.1.trans (Nat.le_add_left _ _)

theorem toordinal_le_year (date : Date) : date.toordinal ≤ daysBeforeYear (date.year + 1) := by
  have month : daysBeforeMonth (isLeap date.year) (date.month + 1) ≤
      daysBeforeMonth (isLeap date.year) 13 :=
    daysBeforeMonth_mono _ (by omega) (Nat.succ_le_succ date.month_range.2) (Nat.le_refl _)
  rw [daysBeforeMonth_succ _ date.month_range, daysBeforeMonth_end] at month
  rw [daysBeforeYear_succ date.year_range.1, toordinal, ymd2ord]
  have day := date.day_range.2
  omega

theorem toordinal_lt {a b : Date} (before : a.Before b) : a.toordinal < b.toordinal := by
  obtain year | ⟨year, month | ⟨month, day⟩⟩ := before
  · calc
      a.toordinal ≤ daysBeforeYear (a.year + 1) := a.toordinal_le_year
      _ ≤ daysBeforeYear b.year := daysBeforeYear_mono year
      _ < b.toordinal := by
        have day := b.day_range.1
        unfold toordinal ymd2ord
        omega
  · have later : daysBeforeMonth (isLeap a.year) (a.month + 1) ≤
        daysBeforeMonth (isLeap a.year) b.month :=
      daysBeforeMonth_mono _ (by omega) month (b.month_range.2.trans (by decide))
    rw [daysBeforeMonth_succ _ a.month_range] at later
    have last := a.day_range.2
    have first := b.day_range.1
    unfold toordinal ymd2ord
    rw [← year]
    omega
  · unfold toordinal ymd2ord
    rw [year, month]
    omega

theorem before_trichotomy (a b : Date) : a.Before b ∨ a = b ∨ b.Before a := by
  obtain ⟨y, m, d, _, _, _⟩ := a
  obtain ⟨y', m', d', _, _, _⟩ := b
  simp only [Before, mk.injEq]
  omega

theorem toordinal_lt_iff {a b : Date} : a.toordinal < b.toordinal ↔ a.Before b := by
  refine ⟨fun less => ?_, toordinal_lt⟩
  rcases before_trichotomy a b with before | rfl | after
  · exact before
  · exact absurd less (Nat.lt_irrefl _)
  · exact absurd (toordinal_lt after) (Nat.lt_asymm less)

theorem toordinal_injective {a b : Date} (same : a.toordinal = b.toordinal) : a = b := by
  rcases before_trichotomy a b with before | equal | after
  · exact absurd same (Nat.ne_of_lt (toordinal_lt before))
  · exact equal
  · exact absurd same (Nat.ne_of_gt (toordinal_lt after))

theorem toordinal_le_max (date : Date) : date.toordinal ≤ maxOrdinal :=
  date.toordinal_le_year.trans
    (daysBeforeYear_mono (Nat.succ_le_succ date.year_range.2))

end Date

/-- The date that `ord2ymd` gives is one, and has the ordinal. -/
theorem ord2ymd_spec {ordinal : Nat} (positive : 1 ≤ ordinal) :
    1 ≤ (ord2ymd ordinal).1 ∧
    (1 ≤ (ord2ymd ordinal).2.1 ∧ (ord2ymd ordinal).2.1 ≤ 12) ∧
    (1 ≤ (ord2ymd ordinal).2.2 ∧
      (ord2ymd ordinal).2.2 ≤ daysInMonth (isLeap (ord2ymd ordinal).1) (ord2ymd ordinal).2.1) ∧
    ymd2ord (ord2ymd ordinal).1 (ord2ymd ordinal).2.1 (ord2ymd ordinal).2.2 = ordinal := by
  have cycles : daysIn400Years = 146097 ∧ daysIn100Years = 36524 ∧ daysIn4Years = 1461 := by decide
  obtain ⟨fourHundred, hundred, four⟩ := cycles
  simp only [ord2ymd, fourHundred, hundred, four]
  generalize n400_eq : (ordinal - 1) / 146097 = n400
  generalize left400_eq : (ordinal - 1) % 146097 = left400
  generalize n100_eq : left400 / 36524 = n100
  generalize left100_eq : left400 % 36524 = left100
  generalize n4_eq : left100 / 1461 = n4
  generalize left4_eq : left100 % 1461 = left4
  generalize n1_eq : left4 / 365 = n1
  generalize n_eq : left4 % 365 = n
  have whole : ordinal = n400 * 146097 + n100 * 36524 + n4 * 1461 + n1 * 365 + n + 1 := by omega
  by_cases last : n1 = 4 ∨ n100 = 4
  · rw [if_pos last]
    -- The last day of a cycle of 400 years, or of one of four.
    obtain ⟨b, c, hundreds, fours, year, days, leap⟩ : ∃ b c, b ≤ 3 ∧ c ≤ 24 ∧
        n400 * 400 + 1 + n100 * 100 + n4 * 4 + n1 - 1 = n400 * 400 + 1 + b * 100 + c * 4 + 3 ∧
        n100 * 36524 + n4 * 1461 + n1 * 365 + n + 1 = b * 36524 + c * 1461 + 1461 ∧
        (c ≠ 24 ∨ b = 3) := by
      rcases Nat.lt_or_ge n100 4 with fewer | four
      · have one : n1 = 4 := by omega
        have rest : n = 0 := by omega
        have short : n4 ≠ 24 := by omega
        exact ⟨n100, n4, by omega, by omega, by omega, by omega, .inl short⟩
      · have rest : n100 = 4 ∧ n4 = 0 ∧ n1 = 0 ∧ n = 0 := by omega
        obtain ⟨rfl, rfl, rfl, rfl⟩ := rest
        exact ⟨3, 24, by omega, by omega, by omega, by omega, .inr rfl⟩
    have leapYear := isLeap_cycles (a := n400) hundreds fours (Nat.le_refl 3)
    have before := daysBeforeYear_cycles (a := n400) hundreds fours (Nat.le_refl 3)
    have isTrue : isLeap (n400 * 400 + 1 + b * 100 + c * 4 + 3) = true := by
      rw [leapYear]
      simpa using leap
    simp only [year, ymd2ord, isTrue, before]
    refine ⟨by omega, by decide, by decide, ?_⟩
    have december : daysBeforeMonth true 12 = 335 := by decide
    have total : ordinal = n400 * 146097 + (n100 * 36524 + n4 * 1461 + n1 * 365 + n + 1) :=
      whole.trans (by ring)
    rw [december, total, days]
    ring
  · rw [if_neg last]
    rw [not_or] at last
    have hundreds : n100 ≤ 3 := by omega
    have fours : n4 ≤ 24 := by omega
    have ones : n1 ≤ 3 := by omega
    have leapYear := isLeap_cycles (a := n400) hundreds fours ones
    have before := daysBeforeYear_cycles (a := n400) hundreds fours ones
    have within : n < daysInYear (isLeap (n400 * 400 + 1 + n100 * 100 + n4 * 4 + n1)) := by
      unfold daysInYear
      split <;> omega
    rw [leapYear] at within
    obtain ⟨month, day, sum⟩ := monthAndDay_spec _ n within
    simp only [ymd2ord, leapYear, before]
    exact ⟨by omega, month, day, by omega⟩

theorem ord2ymd_year {ordinal : Nat} (positive : 1 ≤ ordinal) (small : ordinal ≤ maxOrdinal) :
    (ord2ymd ordinal).1 ≤ 9999 := by
  obtain ⟨_, _, day, sum⟩ := ord2ymd_spec positive
  by_contra beyond
  have later : daysBeforeYear 10000 ≤ daysBeforeYear (ord2ymd ordinal).1 :=
    daysBeforeYear_mono (by omega)
  have last : daysBeforeYear 10000 = maxOrdinal := by decide
  unfold ymd2ord at sum
  omega

/-- The date with an ordinal. -/
def Date.fromordinal (ordinal : Nat) (range : 1 ≤ ordinal ∧ ordinal ≤ maxOrdinal) : Date where
  year := (ord2ymd ordinal).1
  month := (ord2ymd ordinal).2.1
  day := (ord2ymd ordinal).2.2
  year_range := ⟨(ord2ymd_spec range.1).1, ord2ymd_year range.1 range.2⟩
  month_range := (ord2ymd_spec range.1).2.1
  day_range := (ord2ymd_spec range.1).2.2.1

@[simp] theorem Date.toordinal_fromordinal {ordinal : Nat}
    (range : 1 ≤ ordinal ∧ ordinal ≤ maxOrdinal) :
    (Date.fromordinal ordinal range).toordinal = ordinal := (ord2ymd_spec range.1).2.2.2

@[simp] theorem Date.fromordinal_toordinal (date : Date) :
    Date.fromordinal date.toordinal ⟨date.toordinal_pos, date.toordinal_le_max⟩ = date :=
  Date.toordinal_injective (Date.toordinal_fromordinal _)

end Python
