import Boat.Core.Domain

/-!
# Dates

The proleptic Gregorian calendar of Python's `datetime.date`: a date has a year from
1 to 9999, and a day that its month has (`Date.valid`). Adding months keeps the day,
or takes the last one of the month (`Date.addMonths`).
-/

namespace Boat

/-- `calendar.isleap`. -/
def isLeap (year : ℤ) : Bool := year % 4 = 0 && (year % 100 ≠ 0 || year % 400 = 0)

/-- The number of days of a month, `calendar.monthrange(year, month)[1]`. -/
def monthDays (year : ℤ) (month : ℕ) : ℕ :=
  match month with
  | 4 | 6 | 9 | 11 => 30
  | 2 => if isLeap year then 29 else 28
  | _ => 31

/-- `date`. -/
structure Date where
  year : ℕ
  month : ℕ
  day : ℕ
  valid : (1 ≤ year ∧ year ≤ 9999) ∧ (1 ≤ month ∧ month ≤ 12) ∧ 1 ≤ day ∧ day ≤ monthDays year month
  deriving DecidableEq, Repr

namespace Date

/-- `date(year, month, day)`. -/
def create (year : ℤ) (month day : ℕ) : Except DomainError Date :=
  if h : (1 ≤ year.toNat ∧ year.toNat ≤ 9999) ∧ (1 ≤ month ∧ month ≤ 12) ∧ 1 ≤ day ∧
      day ≤ monthDays year.toNat month then
    .ok ⟨year.toNat, month, day, h⟩
  else .error (.other "ValueError")

/-- A date comes before another. -/
def before (a b : Date) : Bool :=
  a.year < b.year || a.year = b.year && (a.month < b.month || a.month = b.month && a.day < b.day)

/-- `_add_months`: the same day of another month, or its last day. -/
def addMonths (start : Date) (months : ℤ) : Except DomainError Date :=
  let monthIndex : ℤ := start.month - 1 + months
  let year := start.year + monthIndex / 12
  let month := (monthIndex % 12).toNat + 1
  create year month (min start.day (monthDays year month))

/-- Months later is not before. -/
theorem not_before_of_addMonths {start e : Date} {months : ℤ} (hmonths : 1 ≤ months)
    (h : start.addMonths months = .ok e) : e.before start = false := by
  obtain ⟨⟨hyear, -⟩, ⟨hmonth, hmonth'⟩, -⟩ := start.valid
  rw [addMonths, create] at h
  split at h
  · next hvalid =>
    cases h
    -- The year is later, or the month is in the same year.
    have hlater : start.year < (start.year + (start.month - 1 + months) / 12 : ℤ).toNat ∨
        start.year = (start.year + (start.month - 1 + months) / 12 : ℤ).toNat ∧
          start.month < ((start.month - 1 + months : ℤ) % 12).toNat + 1 := by omega
    simp only [before, Bool.or_eq_false_iff, Bool.and_eq_false_iff, decide_eq_false_iff_not]
    omega
  · cases h

theorem addMonths_error {start : Date} {months : ℤ} {error : DomainError}
    (h : start.addMonths months = .error error) :
    error = .other "ValueError" := by
  rw [addMonths, create] at h
  split at h
  · cases h
  · cases h
    rfl

theorem one_le_monthDays (year : ℤ) (month : ℕ) : 1 ≤ monthDays year month := by
  unfold monthDays
  split <;> try split
  all_goals decide

/-- There is a date months later up to the last year. -/
theorem exists_addMonths_iff {start : Date} {months : ℤ} (hmonths : 1 ≤ months) :
    (∃ e, start.addMonths months = .ok e) ↔ start.year + (start.month - 1 + months) / 12 ≤ 9999 := by
  obtain ⟨⟨hyear, -⟩, ⟨hmonth, hmonth'⟩, hday, -⟩ := start.valid
  have hcast : (((start.year + (start.month - 1 + months) / 12 : ℤ).toNat : ℕ) : ℤ) =
      start.year + (start.month - 1 + months) / 12 := by omega
  rw [addMonths, create]
  constructor
  · rintro ⟨e, he⟩
    split at he
    · next h => omega
    · cases he
  · intro hle
    have hdays := one_le_monthDays (start.year + (start.month - 1 + months) / 12)
      (((start.month - 1 + months : ℤ) % 12).toNat + 1)
    refine ⟨_, dif_pos ⟨by omega, by omega, by omega, ?_⟩⟩
    rw [hcast]
    exact Nat.min_le_right _ _

end Date

end Boat
