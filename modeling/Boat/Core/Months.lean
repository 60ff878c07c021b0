import Boat.Core.Calendar

/-!
# Months

Months are counted across the years (`Date.monthIndex`), and dates are in the order of their months
and days (`Date.before_iff`). Adding months is a law of the calendar (`MonthAddition`):

* `monthAddition_addMonths`: the month is that many later, the day is kept as far as the month has
  it, later dates do not come before, and more months lead further.
-/

namespace Boat

namespace Date

/-- The number of a month, across the years. -/
def monthIndex (d : Date) : ℤ := 12 * d.year + (d.month - 1)

theorem before_iff {a b : Date} : a.before b = true ↔ a.monthIndex < b.monthIndex ∨
    a.monthIndex = b.monthIndex ∧ a.day < b.day := by
  obtain ⟨-, ⟨hmonth, hmonth'⟩, -⟩ := a.valid
  obtain ⟨-, ⟨hmonth₁, hmonth₁'⟩, -⟩ := b.valid
  simp only [before, monthIndex, Bool.or_eq_true, Bool.and_eq_true, decide_eq_true_eq]
  omega

/-- A month has its number. -/
theorem eq_of_monthIndex_eq {a b : Date} (h : a.monthIndex = b.monthIndex) : a.year = b.year ∧
    a.month = b.month := by
  obtain ⟨-, ⟨hmonth, hmonth'⟩, -⟩ := a.valid
  obtain ⟨-, ⟨hmonth₁, hmonth₁'⟩, -⟩ := b.valid
  rw [monthIndex, monthIndex] at h
  omega

/-- The month is so many later, with the day as far as it has it. -/
theorem addMonths_spec {start e : Date} {months : ℤ} (h : start.addMonths months = .ok e) :
    e.monthIndex = start.monthIndex + months ∧ e.day = min start.day (monthDays e.year e.month) := by
  obtain ⟨hyear, hmonth, hday⟩ := create_eq_ok h
  obtain ⟨⟨hone, -⟩, -⟩ := e.valid
  obtain ⟨-, ⟨hstart, -⟩, -⟩ := start.valid
  have hcast : (e.year : ℤ) = start.year + (start.month - 1 + months) / 12 := by omega
  refine ⟨?_, ?_⟩
  · rw [monthIndex, monthIndex]
    omega
  · rw [hday, hcast, hmonth]

/-- There is a month so many later up to the last year. -/
theorem exists_addMonths {start : Date} {months : ℤ} (hmonths : 1 ≤ months)
    (h : (start.monthIndex + months) / 12 ≤ 9999) :
    ∃ e, start.addMonths months = .ok e := by
  rw [exists_addMonths_iff hmonths]
  rw [monthIndex] at h
  omega

end Date

/-- The months that are added are those of the calendar. -/
structure MonthAddition (addMonths : Date → ℤ → Except DomainError Date) : Prop where
  total : ∀ d m, 1 ≤ m → (d.monthIndex + m) / 12 ≤ 9999 → ∃ e, addMonths d m = .ok e
  law : ∀ d m e, 1 ≤ m → addMonths d m = .ok e →
    e.monthIndex = d.monthIndex + m ∧ e.day = min d.day (monthDays e.year e.month)
  after : ∀ d m e, 1 ≤ m → addMonths d m = .ok e → d.before e = true
  mono : ∀ d d' m e e', 1 ≤ m → d'.before d = false → addMonths d m = .ok e →
    addMonths d' m = .ok e' → e'.before e = false
  strictMono : ∀ d m m' e e', 1 ≤ m → m < m' → addMonths d m = .ok e → addMonths d m' = .ok e' →
    e.before e' = true

theorem monthAddition_addMonths : MonthAddition Date.addMonths where
  total _ _ := Date.exists_addMonths
  law _ _ _ _ := Date.addMonths_spec
  after d m e hm h := by
    obtain ⟨hindex, -⟩ := Date.addMonths_spec h
    rw [Date.before_iff]
    omega
  mono d d' m e e' hm hle h h' := by
    obtain ⟨hindex, hday⟩ := Date.addMonths_spec h
    obtain ⟨hindex', hday'⟩ := Date.addMonths_spec h'
    rw [← Bool.not_eq_true, Date.before_iff, not_or, not_and, not_lt, not_lt] at hle ⊢
    obtain ⟨hle, hdays⟩ := hle
    refine ⟨by omega, fun heq => ?_⟩
    -- Days are cut at the same end, of the same month.
    obtain ⟨hyear, hmonth⟩ := Date.eq_of_monthIndex_eq heq
    rw [hday, hday', hyear, hmonth]
    exact min_le_min_right _ (hdays (by omega))
  strictMono d m m' e e' hm hlt h h' := by
    obtain ⟨hindex, -⟩ := Date.addMonths_spec h
    obtain ⟨hindex', -⟩ := Date.addMonths_spec h'
    rw [Date.before_iff]
    omega

end Boat
