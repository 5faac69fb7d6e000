import Mathlib

/-!
# The proleptic Gregorian calendar

Days are counted from the first of January 1970, and years astronomically: year zero is the one
before year one. Every day number belongs to a date.
-/

namespace Postgamma
namespace Calendar

/-- The leap years of the Gregorian calendar. -/
def Leap (year : ℤ) : Prop := year % 4 = 0 ∧ (year % 100 ≠ 0 ∨ year % 400 = 0)

instance (year : ℤ) : Decidable (Leap year) := inferInstanceAs (Decidable (_ ∧ _))

/-- The number of days of a year. -/
def yearLength (year : ℤ) : ℕ := if Leap year then 366 else 365

/-- The number of days of a month. -/
def monthLength (year : ℤ) (month : ℕ) : ℕ :=
  if month = 2 then if Leap year then 29 else 28
  else if month = 4 ∨ month = 6 ∨ month = 9 ∨ month = 11 then 30
  else 31

/-- The number of days of a year before a month. -/
def monthStart (year : ℤ) : ℕ → ℕ
  | 0 => 0
  | 1 => 0
  | month + 2 => monthStart year (month + 1) + monthLength year (month + 1)

/-- The day number of the first of January. -/
def yearStart (year : ℤ) : ℤ :=
  365 * (year - 1970) + ((year - 1) / 4 - (year - 1) / 100 + (year - 1) / 400 - 477)

/-- A date of the calendar. -/
structure Date where
  year : ℤ
  month : ℕ
  day : ℕ
  month_pos : 1 ≤ month
  month_le : month ≤ 12
  day_pos : 1 ≤ day
  day_le : day ≤ monthLength year month

/-- The number of days since the first of January 1970. -/
def Date.dayNumber (date : Date) : ℤ :=
  yearStart date.year + monthStart date.year date.month + (date.day - 1 : ℤ)

theorem yearStart_succ (year : ℤ) : yearStart (year + 1) = yearStart year + yearLength year := by
  by_cases leap : Leap year
  · rw [yearLength, if_pos leap, yearStart, yearStart]
    unfold Leap at leap
    omega
  · rw [yearLength, if_neg leap, yearStart, yearStart]
    unfold Leap at leap
    omega

theorem monthStart_one (year : ℤ) : monthStart year 1 = 0 := rfl

theorem monthStart_succ {month : ℕ} (positive : 1 ≤ month) (year : ℤ) :
    monthStart year (month + 1) = monthStart year month + monthLength year month := by
  obtain ⟨month, rfl⟩ := Nat.exists_eq_add_of_le' positive
  rfl

theorem monthStart_year (year : ℤ) : monthStart year 13 = yearLength year := by
  by_cases leap : Leap year <;> simp [monthStart, monthLength, yearLength, leap]

theorem monthLength_bounds (year : ℤ) (month : ℕ) :
    1 ≤ monthLength year month ∧ monthLength year month ≤ 31 := by
  unfold monthLength
  split_ifs <;> omega

namespace Date

theorem day_le_31 (date : Date) : date.day ≤ 31 :=
  date.day_le.trans (monthLength_bounds ..).2

/-- The day after a date. -/
theorem exists_next (date : Date) : ∃ next : Date, next.dayNumber = date.dayNumber + 1 := by
  obtain ⟨year, month, day, monthPos, monthLe, dayPos, dayLe⟩ := date
  by_cases inside : day < monthLength year month
  · exact ⟨⟨year, month, day + 1, monthPos, monthLe, by omega, inside⟩, by simp [dayNumber]; omega⟩
  have last : day = monthLength year month := by omega
  by_cases december : month = 12
  · refine ⟨⟨year + 1, 1, 1, le_rfl, by norm_num, le_rfl, (monthLength_bounds ..).1⟩, ?_⟩
    have whole := monthStart_succ monthPos year
    subst december
    rw [monthStart_year] at whole
    simp only [dayNumber, yearStart_succ, monthStart_one, last]
    omega
  · refine ⟨⟨year, month + 1, 1, by omega, by omega, le_rfl, (monthLength_bounds ..).1⟩, ?_⟩
    simp only [dayNumber, monthStart_succ monthPos, last]
    omega

/-- The day before a date. -/
theorem exists_previous (date : Date) :
    ∃ previous : Date, previous.dayNumber = date.dayNumber - 1 := by
  obtain ⟨year, month, day, monthPos, monthLe, dayPos, dayLe⟩ := date
  by_cases inside : 1 < day
  · exact ⟨⟨year, month, day - 1, monthPos, monthLe, by omega, by omega⟩, by
      simp only [dayNumber]
      omega⟩
  have first : day = 1 := by omega
  by_cases january : month = 1
  · refine ⟨⟨year - 1, 12, monthLength (year - 1) 12, by norm_num, le_rfl,
      (monthLength_bounds ..).1, le_rfl⟩, ?_⟩
    have before := yearStart_succ (year - 1)
    have whole := @monthStart_succ 12 (by norm_num) (year - 1)
    rw [monthStart_year] at whole
    rw [sub_add_cancel] at before
    subst january
    simp only [dayNumber, monthStart_one, first]
    omega
  · obtain ⟨before, rfl⟩ : ∃ before, month = before + 1 := ⟨month - 1, by omega⟩
    have positive : 1 ≤ before := by omega
    refine ⟨⟨year, before, monthLength year before, positive, by omega, (monthLength_bounds ..).1,
      le_rfl⟩, ?_⟩
    simp only [dayNumber, monthStart_succ positive, first]
    omega

/-- The first of January 1970. -/
def epoch : Date := ⟨1970, 1, 1, le_rfl, by norm_num, le_rfl, by decide⟩

theorem exists_dayNumber (number : ℤ) : ∃ date : Date, date.dayNumber = number := by
  induction number using Int.induction_on with
  | zero => exact ⟨epoch, rfl⟩
  | succ number induction =>
      obtain ⟨date, numbered⟩ := induction
      rw [← numbered]
      exact date.exists_next
  | pred number induction =>
      obtain ⟨date, numbered⟩ := induction
      rw [← numbered]
      exact date.exists_previous

end Date
end Calendar
end Postgamma
