import Boat.Notifications.Values
import Boat.Text.Replace

/-!
# Notifications: schedule rules

The rules of scheduled notifications (`app/modules/notifications/domain/schedule_rule.py`,
`due_notification.py`), and what they say about a day: whether a rule is due, which users
it is about, and the notification of a candidate.

Days are the ordinals of Python's `date`, and instants the microseconds of UTC. The system
is in Seoul, at UTC+9.
-/

namespace Boat

/-! ## Days -/

/-- `date`, by its ordinal. -/
@[ext]
structure Day where
  ordinal : ℤ
  one_le : 1 ≤ ordinal
  ordinal_le : ordinal ≤ 3652059
  deriving Repr

instance : DecidableEq Day := fun a b =>
  decidable_of_iff (a.ordinal = b.ordinal) ⟨Day.ext, congrArg Day.ordinal⟩

/-- `time`, in microseconds since midnight. -/
@[ext]
structure LocalTime where
  micros : ℤ
  nonneg : 0 ≤ micros
  lt : micros < 86400000000
  deriving Repr

instance : DecidableEq LocalTime := fun a b =>
  decidable_of_iff (a.micros = b.micros) ⟨LocalTime.ext, congrArg LocalTime.micros⟩

/-- `time.min`. -/
def LocalTime.min : LocalTime := ⟨0, by decide, by decide⟩

/-- `day + timedelta(days=days)`. -/
def Day.addDays (day : Day) (days : ℤ) : Except DomainError Day :=
  if h : 1 ≤ day.ordinal + days ∧ day.ordinal + days ≤ 3652059 then .ok ⟨day.ordinal + days, h.1, h.2⟩
  else .error (.other "OverflowError")

/-- The microseconds of a day. -/
def dayMicros : ℤ := 86400000000

/-- The ordinal of 1 January 1970. -/
def epochOrdinal : ℤ := 719163

/-- `SYSTEM_TIMEZONE`: nine hours before UTC. -/
def systemOffset : ℤ := 9 * 3600000000

/-- `datetime.combine(day, time, tzinfo=SYSTEM_TIMEZONE)`. -/
def Day.combine (day : Day) (time : LocalTime) : Instant :=
  (day.ordinal - epochOrdinal) * dayMicros + time.micros - systemOffset

/-- The ordinal of the date in UTC. -/
def utcOrdinal (t : Instant) : ℤ := t / dayMicros + epochOrdinal

/-- There is a datetime of UTC for it. -/
def HasUtc (t : Instant) : Prop := 1 ≤ utcOrdinal t ∧ utcOrdinal t ≤ 3652059

instance (t : Instant) : Decidable (HasUtc t) := inferInstanceAs (Decidable (_ ∧ _))

/-- The ordinal of the date of `t.astimezone(SYSTEM_TIMEZONE)`. -/
def localOrdinal (t : Instant) : ℤ := (t + systemOffset) / dayMicros + epochOrdinal

/-- `now.astimezone(SYSTEM_TIMEZONE)`, as its date and time. -/
def localNow (now : Instant) : Except DomainError (Day × LocalTime) :=
  if h : 1 ≤ localOrdinal now ∧ localOrdinal now ≤ 3652059 then
    .ok (⟨localOrdinal now, h.1, h.2⟩,
      ⟨(now + systemOffset) % dayMicros, Int.emod_nonneg _ (by decide),
      Int.emod_lt_of_pos _ (by decide)⟩)
  else .error (.other "OverflowError")

/-! ## Rules -/

inductive ScheduleRuleTargetKind
  | warrantyReceipt
  | engagementUnregisteredReceipt
  | engagementInactiveReceipt
  | engagementAllUser
  deriving DecidableEq, Repr

/-- `_target_kind`. -/
def targetKind : String → Validated ScheduleRuleTargetKind
  | "warranty_receipt" => .ok .warrantyReceipt
  | "engagement_unregistered_receipt" => .ok .engagementUnregisteredReceipt
  | "engagement_inactive_receipt" => .ok .engagementInactiveReceipt
  | "engagement_all_user" => .ok .engagementAllUser
  | _ => .error [⟨"targetKind", "예약 알림 대상 유형이 올바르지 않습니다."⟩]

/-- `_validate_optional_non_negative`. -/
def validateOptionalNonNegative (field : String) (value : Option ℤ) : Validated Unit :=
  if value.any (· < 0) then .error [⟨field, "예약 알림 일수 값이 올바르지 않습니다."⟩] else .ok ()

theorem validateOptionalNonNegative_none (field : String) :
    validateOptionalNonNegative field none = .ok () := rfl

/-- `_validate_timing_rule`. -/
def validateTimingRule (targetKind : ScheduleRuleTargetKind)
    (dayOffset firstDelayDays repeatIntervalDays lookbackDays : Option ℤ) : Validated Unit :=
  match targetKind with
  | .warrantyReceipt =>
    let details :=
      (if dayOffset.isNone then [⟨"dayOffset", "보증 알림 예약 규칙에는 D-day offset이 필요합니다."⟩] else []) ++
      ([("firstDelayDays", firstDelayDays), ("repeatIntervalDays", repeatIntervalDays),
        ("lookbackDays", lookbackDays)].filter (·.2.isSome)).map fun (field, _) =>
          ⟨field, "보증 알림 예약 규칙에는 D-day offset 외의 일정 값이 없어야 합니다."⟩
    if details = [] then .ok () else .error details
  | .engagementUnregisteredReceipt | .engagementInactiveReceipt | .engagementAllUser =>
    if repeatIntervalDays.isNone then
      .error [⟨"repeatIntervalDays", "상시 유도 예약 규칙에는 반복 간격이 필요합니다."⟩]
    else .ok ()

/-- `_validate_engagement_consent`. -/
def validateEngagementConsent (targetKind : ScheduleRuleTargetKind)
    (requiresMarketingConsent : Bool) :
    Validated Unit :=
  if targetKind ≠ .warrantyReceipt ∧ !requiresMarketingConsent then
    .error [⟨"requiresMarketingConsent", "상시 유도 알림 예약 규칙은 마케팅 수신 동의가 필요합니다."⟩]
  else .ok ()

theorem validateEngagementConsent_warrantyReceipt (requiresMarketingConsent : Bool) :
    validateEngagementConsent .warrantyReceipt requiresMarketingConsent = .ok () := rfl

/-- `NotificationScheduleRule`, as `create` accepts it. -/
structure NotificationScheduleRule where
  campaignKey : Text 100
  enabled : Bool
  targetKind : ScheduleRuleTargetKind
  dayOffset : Option ℤ
  firstDelayDays : Option ℤ
  repeatIntervalDays : Option ℤ
  lookbackDays : Option ℤ
  sendTimeLocal : LocalTime
  requiresMarketingConsent : Bool
  titleTemplate : Text 100
  bodyTemplate : Text 255
  dayOffset_valid : validateOptionalNonNegative "dayOffset" dayOffset = .ok ()
  firstDelayDays_valid : validateOptionalNonNegative "firstDelayDays" firstDelayDays = .ok ()
  repeatIntervalDays_valid :
    validateOptionalNonNegative "repeatIntervalDays" repeatIntervalDays = .ok ()
  lookbackDays_valid : validateOptionalNonNegative "lookbackDays" lookbackDays = .ok ()
  timing_valid :
    validateTimingRule targetKind dayOffset firstDelayDays repeatIntervalDays lookbackDays = .ok ()
  consent_valid : validateEngagementConsent targetKind requiresMarketingConsent = .ok ()
  deriving DecidableEq

/-- `NotificationScheduleRule.create`: the checks of the fields collect their details, the
    others raise. -/
def NotificationScheduleRule.create (campaignKey : String) (enabled : Bool) (kind : String)
    (dayOffset firstDelayDays repeatIntervalDays lookbackDays : Option ℤ) (sendTimeLocal : LocalTime)
    (requiresMarketingConsent : Bool) (titleTemplate bodyTemplate : String) :
    Except DomainError NotificationScheduleRule :=
  let newCampaignKey := Text.create 100 "campaignKey" "예약 알림 캠페인 키가 올바르지 않습니다." campaignKey
  let newDayOffset := validateOptionalNonNegative "dayOffset" dayOffset
  let newFirstDelayDays := validateOptionalNonNegative "firstDelayDays" firstDelayDays
  let newRepeatIntervalDays := validateOptionalNonNegative "repeatIntervalDays" repeatIntervalDays
  let newLookbackDays := validateOptionalNonNegative "lookbackDays" lookbackDays
  let newTitleTemplate := Text.create 100 "titleTemplate" "예약 알림 제목 템플릿이 올바르지 않습니다." titleTemplate
  let newBodyTemplate := Text.create 255 "bodyTemplate" "예약 알림 본문 템플릿이 올바르지 않습니다." bodyTemplate
  let newTargetKind := Boat.targetKind kind
  match newCampaignKey, h₁ : newDayOffset, h₂ : newFirstDelayDays, h₃ : newRepeatIntervalDays,
    h₄ : newLookbackDays, newTitleTemplate, newBodyTemplate, newTargetKind with
  | .ok campaignKey, .ok (), .ok (), .ok (), .ok (), .ok titleTemplate, .ok bodyTemplate,
    .ok targetKind =>
    match h₅ : validateTimingRule targetKind dayOffset firstDelayDays repeatIntervalDays lookbackDays,
      h₆ : validateEngagementConsent targetKind requiresMarketingConsent with
    | .ok (), .ok () =>
      .ok ⟨campaignKey, enabled, targetKind, dayOffset, firstDelayDays, repeatIntervalDays,
        lookbackDays, sendTimeLocal, requiresMarketingConsent, titleTemplate, bodyTemplate, h₁, h₂,
        h₃, h₄, h₅, h₆⟩
    | .error details, _ => .error (.validation details)
    | .ok (), .error details => .error (.validation details)
  | _, _, _, _, _, _, _, _ =>
    .error (.validation
      (newCampaignKey.details ++ newDayOffset.details ++ newFirstDelayDays.details ++
      newRepeatIntervalDays.details ++ newLookbackDays.details ++ newTitleTemplate.details ++
      newBodyTemplate.details ++ newTargetKind.details))

end Boat
