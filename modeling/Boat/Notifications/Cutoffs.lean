import Boat.Core.DateTime
import Boat.Notifications.Rendering

/-!
# Notifications: cutoffs

A rule is due on a day once the instant until which it observes has passed. What decides is the wall
clock in Seoul, its date first and its time only on the day itself, and it agrees with the instants:

* `resolve_iff_cutoff`: a rule is due on a day exactly if the cutoff of that day has passed;
* `resolve_overflows`: a time that has no wall clock in Seoul, and raises.
-/

namespace Boat

/-- `day.toordinal()`, as a day. -/
def Date.toDay (d : Date) : Day := ⟨d.toordinal, d.one_le_toordinal, d.toordinal_le⟩

def TimeOfDay.toLocalTime (t : TimeOfDay) : LocalTime := ⟨t.micros, t.micros_nonneg, t.micros_lt⟩

/-- The key of `SYSTEM_TIMEZONE`. -/
def systemZone : TzInfo := .zoneInfo "Asia/Seoul"

section

variable [TimeZones]

/-- `now.astimezone(SYSTEM_TIMEZONE)`, as its date and time: `now` itself if it is in that zone, and
    else by way of UTC, which has to be a datetime too. -/
def systemNow (now : DateTime) : Except DomainError (Day × LocalTime) :=
  if now.tzinfo = systemZone then .ok (now.date.toDay, now.time.toLocalTime)
  else if 1 ≤ utcOrdinal now.instant ∧ utcOrdinal now.instant ≤ 3652059 then
    localNow now.instant
  else .error (.other "OverflowError")

/-- `resolve_due_notification_rule`, at an aware datetime. -/
def NotificationScheduleRule.resolve (rule : NotificationScheduleRule) (now : DateTime)
    (targetDate : Option Day) :
    Except DomainError (Option DueNotificationRule) :=
  if !rule.enabled then .ok none
  else do
    let (currentDate, currentTime) ← systemNow now
    let resolvedTargetDate := targetDate.getD currentDate
    if resolvedTargetDate.ordinal > currentDate.ordinal then return none
    if resolvedTargetDate = currentDate ∧
      currentTime.micros < rule.sendTimeLocal.micros then return none
    return some ⟨rule, resolvedTargetDate⟩

/-- There is a datetime for it in Seoul, and in UTC if it is converted. -/
def HasSystemTime (now : DateTime) : Prop :=
  now.tzinfo = systemZone ∨ 1 ≤ utcOrdinal now.instant ∧ localOrdinal now.instant ≤ 3652059

/-- Seoul is at UTC+9. -/
def SeoulAtNine : Prop :=
  ∀ date time fold, (TimeZones.utcoffset "Asia/Seoul" date time fold).micros = systemOffset

/-! ## The wall clock -/

theorem systemNow_eq (hseoul : SeoulAtNine) {now : DateTime} (hnow : HasSystemTime now) :
    systemNow now = localNow now.instant ∧ 1 ≤ localOrdinal now.instant ∧
    localOrdinal now.instant ≤ 3652059 := by
  by_cases htz : now.tzinfo = systemZone
  · -- In its own zone, the date and the time are those of the instant.
    have hoffset : now.utcoffset.micros = systemOffset := by
      rw [DateTime.utcoffset, htz]
      exact hseoul ..
    have hinstant : now.instant + systemOffset = (now.date.toordinal - 719163) * 86400000000 +
        now.time.micros := by
      rw [DateTime.instant, hoffset, sub_add_cancel]
    have hday := now.time.micros_nonneg
    have hday' := now.time.micros_lt
    have hordinal : localOrdinal now.instant = now.date.toordinal := by
      rw [localOrdinal, hinstant, dayMicros, epochOrdinal]
      omega
    have htime : (now.instant + systemOffset) % dayMicros = now.time.micros := by
      rw [hinstant, dayMicros]
      exact (Int.mul_add_emod_self_right ..).trans (Int.emod_eq_of_lt hday hday')
    have hone := now.date.one_le_toordinal
    have hle := now.date.toordinal_le
    refine ⟨?_, by rw [hordinal]; exact hone, by rw [hordinal]; exact hle⟩
    rw [systemNow, if_pos htz, localNow, dif_pos (by rw [hordinal]; exact ⟨hone, hle⟩)]
    simp only [hordinal, htime]
    rfl
  · obtain ⟨hone, hle⟩ := hnow.resolve_left htz
    have hlocal : 1 ≤ localOrdinal now.instant ∧ utcOrdinal now.instant ≤ 3652059 := by
      simp only [localOrdinal, utcOrdinal, dayMicros, systemOffset, epochOrdinal] at hone hle ⊢
      omega
    rw [systemNow, if_neg htz, if_pos ⟨hone, hlocal.2⟩]
    exact ⟨rfl, hlocal.1, hle⟩

/-- What is due at a datetime is what is due at its instant. -/
theorem resolve_eq (hseoul : SeoulAtNine) {now : DateTime} (hnow : HasSystemTime now)
    (rule : NotificationScheduleRule) (targetDate : Option Day) :
    rule.resolve now targetDate = resolveDueNotificationRule rule now.instant targetDate := by
  rw [NotificationScheduleRule.resolve, resolveDueNotificationRule, (systemNow_eq hseoul hnow).1]

end

/-! ## The cutoff -/

/-- An instant is not before a local time if its date is a later one, or its time of the same date
    is. -/
theorem combine_le_iff (day : Day) (time : LocalTime) (now : ℤ) : day.combine time ≤ now ↔
    day.ordinal < localOrdinal now ∨ day.ordinal = localOrdinal now ∧
    time.micros ≤ (now + systemOffset) % dayMicros := by
  have hnonneg := time.nonneg
  have hlt := time.lt
  show (_ : ℤ) ≤ _ ↔ _
  simp only [Day.combine, localOrdinal, dayMicros, systemOffset, epochOrdinal]
  omega

theorem localNow_eq {now : Instant} (hnow : 1 ≤ localOrdinal now ∧ localOrdinal now ≤ 3652059) :
    ∃ today time, localNow now = .ok (today, time) ∧ today.ordinal = localOrdinal now ∧
      time.micros = (now + systemOffset) % dayMicros :=
  ⟨_, _, dif_pos hnow, rfl, rfl⟩

/-- On a day that is given, a rule is due once its cutoff has passed. -/
theorem resolve_some {rule : NotificationScheduleRule} (henabled : rule.enabled = true)
    {now : Instant} (hnow : 1 ≤ localOrdinal now ∧ localOrdinal now ≤ 3652059) (day : Day) :
    resolveDueNotificationRule rule now (some day) =
      .ok (if observationCutoffFor ⟨rule, day⟩ ≤ now then some ⟨rule, day⟩ else none) := by
  obtain ⟨today, time, hlocal, htoday, htime⟩ := localNow_eq hnow
  have hcutoff := combine_le_iff day rule.sendTimeLocal now
  rw [← htoday, ← htime] at hcutoff
  have hday : day = today ↔ day.ordinal = today.ordinal := ⟨fun h => congrArg Day.ordinal h, Day.ext⟩
  simp only [resolveDueNotificationRule, henabled, Bool.not_true, Bool.false_eq_true,
    if_false, hlocal, Option.getD_some, observationCutoffFor, hcutoff, hday, bind, Except.bind,
    pure, Except.pure]
  -- The date is a later one, the same one at an earlier time, or neither.
  by_cases hfuture : day.ordinal > today.ordinal
  · rw [if_pos hfuture, if_neg (by omega)]
  rw [if_neg hfuture]
  by_cases hearly : day.ordinal = today.ordinal ∧ time.micros < rule.sendTimeLocal.micros
  · rw [if_pos hearly, if_neg (by omega)]
  · rw [if_neg hearly, if_pos (by omega)]

/-- Without a day, it is that of the current date. -/
theorem resolve_none (rule : NotificationScheduleRule) {now : Instant}
    (hnow : 1 ≤ localOrdinal now ∧ localOrdinal now ≤ 3652059) :
    resolveDueNotificationRule rule now none =
      resolveDueNotificationRule rule now (some ⟨localOrdinal now, hnow.1, hnow.2⟩) := by
  simp only [resolveDueNotificationRule, localNow, dif_pos hnow, bind, Except.bind,
    Option.getD_none, Option.getD_some]

section

variable [TimeZones]

/-- The rule is due on the day. -/
def DueOn (rule : NotificationScheduleRule) (now : DateTime) (targetDate : Option Day)
    (day : Day) : Prop :=
  rule.resolve now targetDate = .ok (some ⟨rule, day⟩)

/-- At a datetime with a wall clock in Seoul, an enabled rule is due on a day that is given exactly
    if the cutoff of the day has passed, and is not due otherwise. Once it is due it always is; it
    is due on no day in the future; what is due does not depend on the zone of the datetime; and
    without a day, it is due on the current one of Seoul if the cutoff of that has passed. A rule
    that is not enabled is never due. -/
theorem resolve_iff_cutoff (hseoul : SeoulAtNine) {now : DateTime} (hnow : HasSystemTime now)
    (rule : NotificationScheduleRule) :
    (rule.enabled = true →
      (∀ day, (DueOn rule now (some day) day ↔ observationCutoffFor ⟨rule, day⟩ ≤ now.instant) ∧
        (¬DueOn rule now (some day) day → rule.resolve now (some day) = .ok none)) ∧
      (∀ day later, HasSystemTime later → now.instant ≤ later.instant →
        DueOn rule now (some day) day →
        DueOn rule later (some day) day) ∧
      (∀ day : Day, localOrdinal now.instant < day.ordinal → ¬DueOn rule now (some day) day) ∧
      ∃ today : Day, today.ordinal = localOrdinal now.instant ∧
        rule.resolve now none =
          .ok (if observationCutoffFor ⟨rule, today⟩ ≤ now.instant then some ⟨rule, today⟩
            else none)) ∧
    (∀ now', HasSystemTime now' → now'.instant = now.instant → ∀ targetDate,
      rule.resolve now' targetDate = rule.resolve now targetDate) ∧
    (rule.enabled = false → ∀ (now : DateTime) targetDate,
      rule.resolve now targetDate = .ok none) := by
  have hlocal {now : DateTime} (hnow : HasSystemTime now) := (systemNow_eq hseoul hnow).2
  -- What a rule is due on, by the instants.
  have hresolve (henabled : rule.enabled = true) {now : DateTime} (hnow : HasSystemTime now)
      (day : Day) :
        rule.resolve now (some day) =
          .ok (if observationCutoffFor ⟨rule, day⟩ ≤ now.instant then some ⟨rule, day⟩ else none) :=
    (resolve_eq hseoul hnow rule _).trans (resolve_some henabled (hlocal hnow) day)
  have hdue (henabled : rule.enabled = true) {now : DateTime} (hnow : HasSystemTime now) (day : Day) :
      DueOn rule now (some day) day ↔ observationCutoffFor ⟨rule, day⟩ ≤ now.instant := by
    rw [DueOn, hresolve henabled hnow]
    split <;> simp [*]
  refine ⟨fun henabled =>
    ⟨fun day => ⟨hdue henabled hnow day, fun hnot => ?_⟩, fun day later hlater hle h => ?_,
    fun day hfuture h => ?_, ?_⟩, fun now' hnow' heq targetDate =>
      ?_, fun hdisabled now targetDate => ?_⟩
  · rw [hresolve henabled hnow, if_neg fun h => hnot ((hdue henabled hnow day).2 h)]
  · exact (hdue henabled hlater day).2 (((hdue henabled hnow day).1 h).trans hle)
  · have hcutoff := (combine_le_iff day rule.sendTimeLocal now.instant).1
      ((hdue henabled hnow day).1 h)
    omega
  · refine ⟨⟨localOrdinal now.instant, (hlocal hnow).1, (hlocal hnow).2⟩, rfl, ?_⟩
    rw [resolve_eq hseoul hnow, resolve_none rule (hlocal hnow), resolve_some henabled (hlocal hnow)]
  · rw [resolve_eq hseoul hnow', resolve_eq hseoul hnow, heq]
  · simp only [NotificationScheduleRule.resolve, hdisabled, Bool.not_false, if_true]

end

/-! ## A rule of the morning -/

/-- Every zone is at UTC+9. -/
@[reducible] def seoulZones : TimeZones := ⟨fun _ _ _ _ => ⟨systemOffset, by decide⟩⟩

/-- A rule that sends at ten. -/
def morningRule : NotificationScheduleRule :=
  { itemNameRule with sendTimeLocal := ⟨36000000000, by decide, by decide⟩ }

/-- Ten in the morning of 1 July 2026 in Seoul, as the time of UTC. -/
def julyMorning : DateTime :=
  ⟨⟨2026, 7, 1, by decide⟩, ⟨1, 0, 0, 0, by decide⟩, false, .timezone ⟨0, UtcOffset.zero_lt⟩⟩

theorem lastDay_valid :
    ((1 ≤ 9999 ∧ 9999 ≤ 9999) ∧ (1 ≤ 12 ∧ 12 ≤ 12) ∧ 1 ≤ 31 ∧ 31 ≤ monthDays (9999 : ℕ) 12) := by
  decide

/-- Eight in the evening of the last day of the calendar, in UTC. -/
def lastEvening : DateTime :=
  ⟨⟨9999, 12, 31, lastDay_valid⟩, ⟨20, 0, 0, 0, by decide⟩, false, .timezone ⟨0, UtcOffset.zero_lt⟩⟩

/-- 1 July 2026. -/
def july : Day := ⟨739798, by decide, by decide⟩

theorem resolve_iff_cutoff_july :
    @DueOn seoulZones morningRule julyMorning (some july) july ∧
      @NotificationScheduleRule.resolve seoulZones morningRule julyMorning none =
        .ok (some ⟨morningRule, july⟩) := by
  let _ : TimeZones := seoulZones
  have hnow : HasSystemTime julyMorning := .inr ⟨by decide +kernel, by decide +kernel⟩
  have hcutoff : observationCutoffFor ⟨morningRule, july⟩ ≤ julyMorning.instant := by decide +kernel
  obtain ⟨henabled, -⟩ := resolve_iff_cutoff (fun _ _ _ => rfl) hnow morningRule
  obtain ⟨hdue, -, -, today, htoday, hnone⟩ := henabled rfl
  obtain rfl : today = july := by
    refine Day.ext (htoday.trans ?_)
    decide +kernel
  rw [if_pos hcutoff] at hnone
  exact ⟨(hdue july).1.2 hcutoff, hnone⟩

/-- The cutoff has passed, and the time has no wall clock in Seoul. -/
theorem resolve_overflows : ¬(@DueOn seoulZones morningRule lastEvening (some july) july ↔
    observationCutoffFor ⟨morningRule, july⟩ ≤ @DateTime.instant seoulZones lastEvening) := by
  let _ : TimeZones := seoulZones
  intro h
  have hdue := h.2 (by decide +kernel)
  have hresolve : morningRule.resolve lastEvening (some july) = .error (.other "OverflowError") := by
    decide +kernel
  rw [DueOn, hresolve] at hdue
  cases hdue

end Boat
