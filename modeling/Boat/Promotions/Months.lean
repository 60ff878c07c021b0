import Boat.Core.Calendar
import Boat.Notifications.Rules
import Boat.Promotions.Domain

/-!
# Promotions: months

The monthly job (`app/modules/promotions/jobs/ensure_monthly_recharge_promotion.py`) makes a
promotion for one month in Seoul, which is at UTC+9: `monthlyRechargePromotionSpec` says from when
to when, in UTC.

* `exists_window`: the window of the current month contains the time of the clock;
* `expiresAt_eq_startsAt`: the windows of consecutive months abut;
* `windows_disjoint`: the windows of different months are disjoint.
-/

namespace Boat

/-- When a date begins in Seoul. -/
def Date.startInSeoul (d : Date) : Instant := (d.toordinal - epochOrdinal) * dayMicros - systemOffset

/-- `datetime(.., tzinfo=SEOUL_TZ).astimezone(UTC)`, at midnight, which may be before the first date
    of UTC. -/
def seoulMidnight (d : Date) : Except DomainError Instant :=
  if 1 ≤ d.startInSeoul / dayMicros + epochOrdinal then .ok d.startInSeoul
    else .error (.other "OverflowError")

/-- `_target_month_or_current`: the first day of the month. -/
def targetMonthOrCurrent (targetMonth : Option Date) (clock : Instant) : Except DomainError Date :=
  match targetMonth with
  | some month => .ok month.firstOfMonth
  | none => do
    let (today, _) ← localNow clock
    let date ← Date.fromordinal today.ordinal
    return date.firstOfMonth

/-- `MONTHLY_RECHARGE_AMOUNT`. -/
def monthlyRechargeAmount : PromotionBenefitAmount := ⟨5, by decide⟩

/-- `MONTHLY_RECHARGE_USER_LIMIT`. -/
def monthlyRechargeUserLimit : ℤ := 1

/-- `MonthlyRechargePromotionSpec`. -/
structure MonthlyRechargePromotionSpec where
  name : String
  startsAt : Instant
  expiresAt : Instant
  benefitAmount : PromotionBenefitAmount
  deriving DecidableEq, Repr

/-- `%Y-%m`, where the C library does not pad the year. -/
def Date.yearMonth (d : Date) : String :=
  toString d.year ++ ("-" ++ ((if d.month < 10 then "0" else "") ++ toString d.month))

/-- `_monthly_recharge_promotion_spec`. -/
def monthlyRechargePromotionSpec (targetMonth : Option Date) (clock : Instant) :
    Except DomainError MonthlyRechargePromotionSpec := do
  let month ← targetMonthOrCurrent targetMonth clock
  let nextMonth ← month.nextMonth
  let startsAt ← seoulMidnight month
  let expiresAt ← seoulMidnight nextMonth
  return ⟨"월간 OCR 크레딧 충전 " ++ month.yearMonth, startsAt, expiresAt, monthlyRechargeAmount⟩

/-! ## Windows -/

theorem seoulMidnight_ok {d : Date} {t : Instant}
    (h : seoulMidnight d = .ok t) : t = d.startInSeoul := by
  rw [seoulMidnight] at h
  split at h
  · exact (Except.ok.inj h).symm
  · cases h

/-- From the second date on, midnight is a time of UTC too. -/
theorem seoulMidnight_eq {d : Date} (h : 2 ≤ d.toordinal) : seoulMidnight d = .ok d.startInSeoul := by
  refine if_pos ?_
  change (1 : ℤ) ≤ ((d.toordinal - epochOrdinal) * dayMicros - systemOffset) / dayMicros +
    epochOrdinal
  simp only [dayMicros, systemOffset, epochOrdinal]
  omega

theorem day_targetMonthOrCurrent {targetMonth : Option Date} {clock : Instant} {month : Date}
    (h : targetMonthOrCurrent targetMonth clock = .ok month) : month.day = 1 := by
  match targetMonth with
  | some target =>
    cases h
    rfl
  | none =>
    obtain ⟨_, _, h⟩ := except_bind_eq_ok.1 h
    obtain ⟨date, _, h⟩ := except_bind_eq_ok.1 h
    cases h
    rfl

theorem startInSeoul_mono {d d' : Date} (h : d.toordinal ≤ d'.toordinal) :
    d.startInSeoul ≤ d'.startInSeoul := by
  change (_ : ℤ) ≤ _
  simp only [Date.startInSeoul, dayMicros]
  omega

/-- A specification is the one of a month. -/
structure MonthlyRechargePromotionSpec.Of (spec : MonthlyRechargePromotionSpec)
    (month : Date) : Prop where
  day : month.day = 1
  next : ∃ nextMonth, month.nextMonth = .ok nextMonth ∧ spec.expiresAt = nextMonth.startInSeoul
  startsAt : spec.startsAt = month.startInSeoul
  name : spec.name = "월간 OCR 크레딧 충전 " ++ month.yearMonth
  benefitAmount : spec.benefitAmount = monthlyRechargeAmount

theorem of_monthlyRechargePromotionSpec {targetMonth : Option Date} {clock : Instant}
    {spec : MonthlyRechargePromotionSpec}
    (h : monthlyRechargePromotionSpec targetMonth clock = .ok spec) :
    ∃ month, targetMonthOrCurrent targetMonth clock = .ok month ∧ spec.Of month := by
  obtain ⟨month, hmonth, h⟩ := except_bind_eq_ok.1 h
  obtain ⟨nextMonth, hnext, h⟩ := except_bind_eq_ok.1 h
  obtain ⟨startsAt, hstarts, h⟩ := except_bind_eq_ok.1 h
  obtain ⟨expiresAt, hexpires, h⟩ := except_bind_eq_ok.1 h
  cases h
  exact ⟨month, hmonth, day_targetMonthOrCurrent hmonth,
    ⟨nextMonth, hnext, seoulMidnight_ok hexpires⟩, seoulMidnight_ok hstarts, rfl, rfl⟩

/-- Instants of the years 2 to 9998. -/
def InYears (t : Instant) : Prop :=
  (366 - epochOrdinal) * dayMicros ≤ t ∧ t < (3651695 - epochOrdinal) * dayMicros

theorem localOrdinal_spec (t : ℤ) : (localOrdinal t - epochOrdinal) * dayMicros ≤ t + systemOffset ∧
    t + systemOffset < (localOrdinal t + 1 - epochOrdinal) * dayMicros := by
  simp only [localOrdinal, dayMicros, systemOffset, epochOrdinal]
  omega

theorem InYears.localOrdinal {t : ℤ} (h : InYears t) : 366 ≤ localOrdinal t ∧
    localOrdinal t ≤ 3651695 := by
  obtain ⟨hlow, hhigh⟩ := h
  change (_ : ℤ) < _ at hhigh
  simp only [Boat.localOrdinal, dayMicros, systemOffset, epochOrdinal] at hlow hhigh ⊢
  omega

/-- The window of the current month contains the time of the clock. -/
theorem exists_window {t : ℤ} (ht : InYears t) : ∃ spec,
    monthlyRechargePromotionSpec none t = .ok spec ∧ spec.startsAt ≤ t ∧ t < spec.expiresAt := by
  obtain ⟨hone, hle⟩ := ht.localOrdinal
  obtain ⟨hday, hday'⟩ := localOrdinal_spec t
  obtain ⟨date, hdate, hordinal⟩ :=
    Date.toordinal_fromordinal (show 1 ≤ localOrdinal t by omega) (by omega)
  have hmonth : targetMonthOrCurrent none t = .ok date.firstOfMonth := by
    simp only [targetMonthOrCurrent, localNow]
    rw [dif_pos ⟨by omega, by omega⟩]
    exact except_bind_eq_ok.2 ⟨_, rfl, except_bind_eq_ok.2 ⟨date, hdate, rfl⟩⟩
  have hfirst := date.toordinal_firstOfMonth
  have hlast : date.firstOfMonth.year ≤ 9998 ∨ date.firstOfMonth.month < 12 := by
    simp only [Date.firstOfMonth]
    by_contra hlast
    have hyear := daysBeforeYear_mono (show (9999 : ℤ) ≤ date.year by omega)
    have hmonths := daysBeforeMonth_mono date.year (show 1 ≤ date.month - 1 by omega)
    rw [show daysBeforeYear 9999 = 3651694 from rfl] at hyear
    rw [show daysBeforeMonth date.year 1 = 31 from rfl] at hmonths
    rw [Date.toordinal_eq] at hordinal
    omega
  obtain ⟨nextMonth, hnext⟩ := Date.exists_nextMonth hlast
  obtain ⟨hadd, -⟩ := Date.toordinal_nextMonth rfl hnext
  have hdays : date.day ≤ monthDays date.year date.month := date.valid.2.2.2
  have hday₁ : 1 ≤ date.day := date.valid.2.2.1
  have hadd' : nextMonth.toordinal = date.firstOfMonth.toordinal + monthDays date.year date.month :=
    hadd
  have hfirst' : 334 ≤ date.firstOfMonth.toordinal := by
    have := monthDays_le date.year date.month
    omega
  have hstarts := seoulMidnight_eq (show 2 ≤ date.firstOfMonth.toordinal by omega)
  have hexpires := seoulMidnight_eq (show 2 ≤ nextMonth.toordinal by omega)
  refine ⟨_, except_bind_eq_ok.2 ⟨_, hmonth,
    except_bind_eq_ok.2 ⟨_, hnext, except_bind_eq_ok.2 ⟨_, hstarts,
    except_bind_eq_ok.2 ⟨_, hexpires, rfl⟩⟩⟩⟩, ?_, ?_⟩
  · change (_ : ℤ) ≤ _
    simp only [Date.startInSeoul, dayMicros, systemOffset, epochOrdinal] at hday ⊢
    omega
  · simp only [Date.startInSeoul, dayMicros, systemOffset, epochOrdinal] at hday' ⊢
    omega

/-- A specification is determined by its month. -/
theorem MonthlyRechargePromotionSpec.Of.eq {spec spec' : MonthlyRechargePromotionSpec}
    {month : Date} (h : spec.Of month) (h' : spec'.Of month) : spec = spec' := by
  obtain ⟨next, hnext, hexpires⟩ := h.next
  obtain ⟨next', hnext', hexpires'⟩ := h'.next
  obtain rfl := Except.ok.inj (hnext.symm.trans hnext')
  obtain ⟨name, startsAt, expiresAt, benefitAmount⟩ := spec
  obtain ⟨name', startsAt', expiresAt', benefitAmount'⟩ := spec'
  simp only [MonthlyRechargePromotionSpec.mk.injEq]
  exact ⟨h.name.trans h'.name.symm, h.startsAt.trans h'.startsAt.symm, hexpires.trans hexpires'.symm,
    h.benefitAmount.trans h'.benefitAmount.symm⟩

/-- A window is not empty. -/
theorem startsAt_lt_expiresAt {targetMonth : Option Date} {clock : Instant}
    {spec : MonthlyRechargePromotionSpec}
    (h : monthlyRechargePromotionSpec targetMonth clock = .ok spec) :
    spec.startsAt < spec.expiresAt := by
  obtain ⟨month, -, hmonth⟩ := of_monthlyRechargePromotionSpec h
  obtain ⟨next, hnext, hexpires⟩ := hmonth.next
  have hadd := (Date.toordinal_nextMonth hmonth.day hnext).1
  have hdays := Date.one_le_monthDays month.year month.month
  rw [hexpires, hmonth.startsAt]
  change (_ : ℤ) < _
  simp only [Date.startInSeoul, dayMicros]
  omega

/-- The windows of consecutive months abut. -/
theorem expiresAt_eq_startsAt {spec spec' : MonthlyRechargePromotionSpec} {month nextMonth : Date}
    (h : spec.Of month) (h' : spec'.Of nextMonth)
    (hnext : month.nextMonth = .ok nextMonth) : spec.expiresAt = spec'.startsAt := by
  obtain ⟨next, hnext', hexpires⟩ := h.next
  obtain rfl := Except.ok.inj (hnext.symm.trans hnext')
  rw [hexpires, h'.startsAt]

/-- The windows of different months are disjoint. -/
theorem windows_disjoint {spec spec' : MonthlyRechargePromotionSpec} {month month' : Date}
    (h : spec.Of month) (h' : spec'.Of month') (hne : month ≠ month') :
    spec.expiresAt ≤ spec'.startsAt ∨ spec'.expiresAt ≤ spec.startsAt := by
  obtain ⟨next, hnext, hexpires⟩ := h.next
  obtain ⟨next', hnext', hexpires'⟩ := h'.next
  -- One of the months comes before the other one.
  rcases Date.before_or_before h.day h'.day hne with ⟨hbefore, hne⟩ | ⟨hbefore, hne⟩
  · left
    rw [hexpires, h'.startsAt]
    exact startInSeoul_mono (Date.toordinal_nextMonth_le h'.day hnext hbefore hne)
  · right
    rw [hexpires', h.startsAt]
    exact startInSeoul_mono (Date.toordinal_nextMonth_le h.day hnext' hbefore hne)

end Boat
