import Boat.Core.DateTime

/-!
# The calendar

Dates are counted by their ordinals (`Date.toordinal`), in their order (`Date.toordinal_lt`):

* `Date.fromordinal` finds the date of an ordinal (`toordinal_fromordinal`): first its year, in cycles
  of 400, 100 and 4 years, then its month;
* `Date.nextMonth` is the first day of the next month, as many days after the first day of a month as
  that month has (`toordinal_nextMonth`).
-/

namespace Boat

/-- The days before the first one of a year, `_days_before_year`. -/
def daysBeforeYear (year : ℤ) : ℤ :=
  let y := year - 1
  y * 365 + y / 4 - y / 100 + y / 400

/-- The days of a year before its `n + 1`-st month, `_days_before_month`. -/
def daysBeforeMonth (year : ℤ) (n : ℕ) : ℤ :=
  ((List.range n).map fun m => (monthDays year (m + 1) : ℤ)).sum

theorem daysBeforeMonth_succ (year : ℤ) (n : ℕ) :
    daysBeforeMonth year (n + 1) = daysBeforeMonth year n + monthDays year (n + 1) := by
  simp [daysBeforeMonth, List.range_succ]

theorem daysBeforeMonth_mono (year : ℤ) {m n : ℕ}
    (h : m ≤ n) : daysBeforeMonth year m ≤ daysBeforeMonth year n := by
  induction h with
  | refl => exact le_rfl
  | step _ ih =>
    rw [daysBeforeMonth_succ]
    omega

theorem monthDays_le (year : ℤ) (month : ℕ) : monthDays year month ≤ 31 := by
  unfold monthDays
  split <;> try split
  all_goals decide

/-- All months of a year make the days of the year. -/
theorem daysBeforeMonth_twelve (year : ℤ) : daysBeforeMonth year 12 = if isLeap year then 366
    else 365 := by
  cases hleap : isLeap year <;> simp [daysBeforeMonth, List.range_succ, monthDays, hleap]

theorem isLeap_iff {year : ℤ} : isLeap year = true ↔ year % 4 = 0 ∧
    (year % 100 ≠ 0 ∨ year % 400 = 0) := by
  simp [isLeap]

theorem daysBeforeYear_succ (year : ℤ) :
    daysBeforeYear (year + 1) = daysBeforeYear year + if isLeap year then 366 else 365 := by
  -- Each of the three quotients steps up in the multiples of its divisor.
  have h4 : year / 4 = (year - 1) / 4 + if year % 4 = 0 then 1 else 0 := by split <;> omega
  have h100 : year / 100 = (year - 1) / 100 + if year % 100 = 0 then 1 else 0 := by split <;> omega
  have h400 : year / 400 = (year - 1) / 400 + if year % 400 = 0 then 1 else 0 := by split <;> omega
  simp only [daysBeforeYear, add_sub_cancel_right, h4, h100, h400, isLeap_iff]
  have h : year % 100 = 0 → year % 4 = 0 := by omega
  have h' : year % 400 = 0 → year % 100 = 0 := by omega
  split_ifs <;> omega

theorem daysBeforeYear_mono {y y' : ℤ} (h : y ≤ y') : daysBeforeYear y ≤ daysBeforeYear y' := by
  simp only [daysBeforeYear]
  omega

namespace Date

theorem toordinal_eq (d : Date) :
    d.toordinal = daysBeforeYear d.year + daysBeforeMonth d.year (d.month - 1) + d.day := rfl

/-- A date comes before the first day of the next month, and of the next year. -/
theorem toordinal_le_month (d : Date) :
    d.toordinal ≤ daysBeforeYear d.year + daysBeforeMonth d.year d.month := by
  obtain ⟨-, ⟨hmonth, -⟩, -, hday⟩ := d.valid
  have hsucc := daysBeforeMonth_succ d.year (d.month - 1)
  rw [Nat.sub_add_cancel hmonth] at hsucc
  rw [toordinal_eq]
  omega

theorem toordinal_le_year (d : Date) : d.toordinal ≤ daysBeforeYear (d.year + 1) := by
  obtain ⟨-, ⟨-, hmonth⟩, -⟩ := d.valid
  rw [daysBeforeYear_succ, ← daysBeforeMonth_twelve]
  exact d.toordinal_le_month.trans (by have := daysBeforeMonth_mono d.year hmonth; omega)

/-- The ordinals have the order of the dates. -/
theorem toordinal_lt {a b : Date} (h : a.before b = true) : a.toordinal < b.toordinal := by
  obtain ⟨-, ⟨hmonth, -⟩, hday, -⟩ := b.valid
  simp only [before, Bool.or_eq_true, Bool.and_eq_true, decide_eq_true_eq] at h
  have hb : daysBeforeYear b.year + daysBeforeMonth b.year (b.month - 1) < b.toordinal := by
    rw [toordinal_eq]
    omega
  have hfirst : 0 ≤ daysBeforeMonth b.year (b.month - 1) :=
    daysBeforeMonth_mono b.year (Nat.zero_le _)
  rcases h with hyear | ⟨hyear, hmonths | ⟨hmonths, hdays⟩⟩
  · have ha := a.toordinal_le_year
    have hyears : daysBeforeYear (a.year + 1) ≤ daysBeforeYear b.year :=
      daysBeforeYear_mono (by omega)
    omega
  · have ha := a.toordinal_le_month
    have hmono : daysBeforeMonth a.year a.month ≤ daysBeforeMonth a.year (b.month - 1) :=
      daysBeforeMonth_mono _ (by omega)
    rw [hyear] at ha hmono
    omega
  · rw [toordinal_eq, toordinal_eq, hyear, hmonths]
    omega

/-! ## Dates of ordinals -/

/-- The year of an ordinal, from the cycles of the calendar. -/
def yearOf (ordinal : ℤ) : ℤ :=
  let n := ordinal - 1
  let n400 := n / 146097
  let n100 := min (n % 146097 / 36524) 3
  let r := n % 146097 - n100 * 36524
  let n4 := r / 1461
  let n1 := min (r % 1461 / 365) 3
  n400 * 400 + n100 * 100 + n4 * 4 + n1 + 1

/-- An ordinal is a day of its year. -/
theorem yearOf_spec (ordinal : ℤ) :
    daysBeforeYear (yearOf ordinal) < ordinal ∧ ordinal ≤ daysBeforeYear (yearOf ordinal + 1) := by
  obtain ⟨n, rfl⟩ : ∃ n, ordinal = n + 1 := ⟨ordinal - 1, by omega⟩
  obtain ⟨a, r, ha, hr, hr', hn⟩ : ∃ a r, n / 146097 = a ∧ n % 146097 = r ∧ (0 ≤ r ∧ r < 146097) ∧
      n = 146097 * a + r :=
    ⟨n / 146097, n % 146097, rfl, rfl, by omega, by omega⟩
  obtain ⟨b, hb, hb'⟩ : ∃ b, min (r / 36524) 3 = b ∧ 0 ≤ b ∧ b ≤ 3 ∧ 0 ≤ r - b * 36524 ∧
      r - b * 36524 ≤ 36524 ∧
        (b < 3 → r - b * 36524 < 36524) := ⟨_, rfl, by omega⟩
  obtain ⟨c, u, hc, hu, hu', hcu⟩ : ∃ c u, (r - b * 36524) / 1461 = c ∧ (r - b * 36524) % 1461 = u ∧
      (0 ≤ u ∧ u < 1461) ∧ r - b * 36524 = 1461 * c + u := ⟨_, _, rfl, rfl, by omega, by omega⟩
  obtain ⟨d, hd, hd'⟩ : ∃ d, min (u / 365) 3 = d ∧ 0 ≤ d ∧ d ≤ 3 ∧ 0 ≤ u - d * 365 ∧
      u - d * 365 ≤ 365 ∧
        (d < 3 → u - d * 365 < 365) := ⟨_, rfl, by omega⟩
  have hyear : yearOf (n + 1) = a * 400 + b * 100 + c * 4 + d + 1 := by
    simp only [yearOf, add_sub_cancel_right, ha, hr, hb, hc, hu, hd]
  have hbefore : daysBeforeYear (yearOf (n + 1)) = n - (u - d * 365) := by
    simp only [hyear, daysBeforeYear, add_sub_cancel_right]
    rw [show (a * 400 + b * 100 + c * 4 + d) / 4 = a * 100 + b * 25 + c by omega,
      show (a * 400 + b * 100 + c * 4 + d) / 100 = a * 4 + b by omega,
      show (a * 400 + b * 100 + c * 4 + d) / 400 = a by omega]
    omega
  rw [daysBeforeYear_succ, hbefore]
  refine ⟨by omega, ?_⟩
  split
  · omega
  · next hleap =>
    -- The last day of the longest cycle is in a leap year.
    have hlast : u - d * 365 ≠ 365 := by
      intro h
      have hc' : c ≤ 24 ∧ (c = 24 → b = 3) := by clear hyear hbefore hleap; omega
      refine hleap (isLeap_iff.2 ?_)
      rw [hyear, show d = 3 by omega]
      clear hyear hbefore hleap
      refine ⟨by omega, ?_⟩
      by_cases h24 : c = 24
      · rw [h24, hc'.2 h24]
        exact .inr (by omega)
      · exact .inl (by omega)
    omega

/-- The month and the day of a day of the year, the `left` last months being left. -/
def ofDayOfYear (year : ℤ) : ℕ → ℕ → ℕ × ℕ
  | 0, day => (12, day)
  | left + 1, day =>
    if day ≤ monthDays year (11 - left) then (11 - left, day)
    else ofDayOfYear year left (day - monthDays year (11 - left))

theorem ofDayOfYear_spec (year : ℤ) (left day : ℕ) (hleft : left ≤ 11) (hday : 1 ≤ day)
    (hdays : daysBeforeMonth year (11 - left) + day ≤ daysBeforeMonth year 12) :
    (1 ≤ (ofDayOfYear year left day).1 ∧ (ofDayOfYear year left day).1 ≤ 12) ∧
      (1 ≤ (ofDayOfYear year left day).2 ∧
        (ofDayOfYear year left day).2 ≤ monthDays year (ofDayOfYear year left day).1) ∧
      daysBeforeMonth year ((ofDayOfYear year left day).1 - 1) + (ofDayOfYear year left day).2 =
        daysBeforeMonth year (11 - left) + day := by
  induction left generalizing day with
  | zero =>
    have hsucc := daysBeforeMonth_succ year 11
    simp only [ofDayOfYear]
    norm_num at hdays hsucc ⊢
    omega
  | succ left ih =>
    have hsucc := daysBeforeMonth_succ year (11 - (left + 1))
    rw [show 11 - (left + 1) + 1 = 11 - left by omega] at hsucc
    rw [ofDayOfYear]
    split
    · next h => exact ⟨by omega, ⟨hday, h⟩, by rw [Nat.sub_sub]⟩
    · next h =>
      obtain ⟨hmonth, hdays', heq⟩ :=
        ih (day - monthDays year (11 - left)) (by omega) (by omega) (by omega)
      exact ⟨hmonth, hdays', by omega⟩

/-- `date.fromordinal`. -/
def fromordinal (ordinal : ℤ) : Except DomainError Date :=
  let year := yearOf ordinal
  let (month, day) := ofDayOfYear year 11 (ordinal - daysBeforeYear year).toNat
  create year month day

/-- The ordinals of dates have dates. -/
theorem toordinal_fromordinal {ordinal : ℤ} (h : 1 ≤ ordinal) (h' : ordinal ≤ 3652059) :
    ∃ d, fromordinal ordinal = .ok d ∧ d.toordinal = ordinal := by
  obtain ⟨hlow, hhigh⟩ := yearOf_spec ordinal
  have hyear : 1 ≤ yearOf ordinal := by
    by_contra hlt
    have := daysBeforeYear_mono (show yearOf ordinal + 1 ≤ 1 by omega)
    rw [show daysBeforeYear 1 = 0 from rfl] at this
    omega
  have hyear' : yearOf ordinal ≤ 9999 := by
    by_contra hlt
    have := daysBeforeYear_mono (show 10000 ≤ yearOf ordinal by omega)
    rw [show daysBeforeYear 10000 = 3652059 from rfl] at this
    omega
  rw [daysBeforeYear_succ, ← daysBeforeMonth_twelve] at hhigh
  have hspec := ofDayOfYear_spec (yearOf ordinal) 11 (ordinal - daysBeforeYear (yearOf ordinal)).toNat
    le_rfl (by omega) (by rw [show daysBeforeMonth (yearOf ordinal) (11 - 11) = 0 from rfl]; omega)
  rw [fromordinal]
  simp only
  generalize ofDayOfYear (yearOf ordinal) 11 (ordinal - daysBeforeYear (yearOf ordinal)).toNat =
    found at hspec ⊢
  obtain ⟨month, day⟩ := found
  obtain ⟨hmonth, hday, heq⟩ := hspec
  rw [show daysBeforeMonth (yearOf ordinal) (11 - 11) = 0 from rfl] at heq
  have hcast : ((yearOf ordinal).toNat : ℤ) = yearOf ordinal := by omega
  refine ⟨_, dif_pos ⟨⟨by omega, by omega⟩, hmonth, by rw [hcast]; exact hday⟩, ?_⟩
  rw [toordinal_eq]
  simp only [hcast] at heq ⊢
  omega

/-! ## Months -/

/-- `replace(day=1)`. -/
def firstOfMonth (d : Date) : Date where
  year := d.year
  month := d.month
  day := 1
  valid := ⟨d.valid.1, d.valid.2.1, le_rfl, one_le_monthDays _ _⟩

/-- `_next_month`. -/
def nextMonth (month : Date) : Except DomainError Date :=
  if month.month = 12 then create (month.year + 1) 1 1 else create month.year (month.month + 1) 1

theorem toordinal_firstOfMonth (d : Date) : d.firstOfMonth.toordinal = d.toordinal - d.day + 1 := by
  rw [toordinal_eq, toordinal_eq]
  simp only [firstOfMonth]
  omega

theorem create_eq_ok {year : ℤ} {month day : ℕ} {d : Date} (h : create year month day = .ok d) :
    d.year = year.toNat ∧ d.month = month ∧ d.day = day := by
  rw [create] at h
  split at h
  · cases h
    exact ⟨rfl, rfl, rfl⟩
  · cases h

/-- The next month begins when the days of a month have passed. -/
theorem toordinal_nextMonth {month next : Date} (hfirst : month.day = 1)
    (h : month.nextMonth = .ok next) :
    next.toordinal = month.toordinal + monthDays month.year month.month ∧ next.day = 1 := by
  obtain ⟨⟨hyear, -⟩, ⟨hmonth, -⟩, -⟩ := month.valid
  have hsucc := daysBeforeMonth_succ month.year (month.month - 1)
  rw [Nat.sub_add_cancel hmonth] at hsucc
  rw [nextMonth] at h
  split at h
  · next hlast =>
    obtain ⟨hy, hm, hd⟩ := create_eq_ok h
    have hyears := daysBeforeYear_succ month.year
    rw [← daysBeforeMonth_twelve] at hyears
    have hcast : (next.year : ℤ) = month.year + 1 := by omega
    refine ⟨?_, hd⟩
    rw [toordinal_eq, toordinal_eq, hcast, hyears, hm, hd, hfirst]
    rw [hlast] at hsucc ⊢
    simp only [Nat.sub_self, show daysBeforeMonth (month.year + 1) 0 = 0 from rfl]
    omega
  · obtain ⟨hy, hm, hd⟩ := create_eq_ok h
    have hcast : (next.year : ℤ) = month.year := by omega
    refine ⟨?_, hd⟩
    rw [toordinal_eq, toordinal_eq, hcast, hm, hd, hfirst, Nat.add_sub_cancel]
    omega

/-- There is a next month, but after the last one. -/
theorem exists_nextMonth {month : Date} (h : month.year ≤ 9998 ∨ month.month < 12) :
    ∃ next, month.nextMonth = .ok next := by
  obtain ⟨⟨hyear, -⟩, ⟨hmonth, hmonth'⟩, -⟩ := month.valid
  rw [nextMonth]
  split
  · exact ⟨_, dif_pos ⟨by omega, by omega, le_rfl, one_le_monthDays _ _⟩⟩
  · have := month.valid.1.2
    exact ⟨_, dif_pos ⟨by omega, by omega, le_rfl, one_le_monthDays _ _⟩⟩

/-- Different months follow each other. -/
theorem before_or_before {month later : Date} (h : month.day = 1) (h' : later.day = 1)
    (hne : month ≠ later) :
    (month.before later = true ∧ (later.year, later.month) ≠ (month.year, month.month)) ∨
      (later.before month = true ∧ (month.year, month.month) ≠ (later.year, later.month)) := by
  obtain ⟨year, month, day, _⟩ := month
  obtain ⟨year', month', day', _⟩ := later
  simp only [before, Bool.or_eq_true, Bool.and_eq_true, decide_eq_true_eq, ne_eq, Prod.mk.injEq,
    Date.mk.injEq] at h h' hne ⊢
  omega

/-- A later month does not begin before the next one. -/
theorem toordinal_nextMonth_le {month next later : Date} (hlater : later.day = 1)
    (h : month.nextMonth = .ok next) (hlt : month.before later = true)
    (hne : (later.year, later.month) ≠ (month.year, month.month)) :
    next.toordinal ≤ later.toordinal := by
  obtain ⟨⟨hyear, hyear'⟩, ⟨hmonth, hmonth'⟩, -⟩ := month.valid
  obtain ⟨-, ⟨hmonths, hmonths'⟩, -⟩ := later.valid
  have hnext : next.day = 1 ∧
      (next.before later = true ∨ next.year = later.year ∧ next.month = later.month) := by
    simp only [before, Bool.or_eq_true, Bool.and_eq_true, decide_eq_true_eq, ne_eq,
      Prod.mk.injEq] at hlt hne ⊢
    rw [nextMonth] at h
    split at h
    · obtain ⟨hy, hm, hd⟩ := create_eq_ok h
      omega
    · obtain ⟨hy, hm, hd⟩ := create_eq_ok h
      omega
  obtain ⟨hday, hbefore | ⟨hy, hm⟩⟩ := hnext
  · exact (toordinal_lt hbefore).le
  · rw [toordinal_eq, toordinal_eq, hy, hm, hday, hlater]

end Date

end Boat
