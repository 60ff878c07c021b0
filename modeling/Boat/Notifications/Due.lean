import Boat.Notifications.Rules

/-!
# Notifications: due rules

What a rule that is due says (`domain/due_notification.py`): until when it observes, which
users and receipts it is about, and the notification of a candidate
(`application/due_notification.py`).
-/

namespace Boat

/-- `DueNotificationRule`. -/
structure DueNotificationRule where
  rule : NotificationScheduleRule
  targetDate : Day
  deriving DecidableEq

/-- `resolve_due_notification_rule`. -/
def resolveDueNotificationRule (rule : NotificationScheduleRule) (now : Instant)
    (targetDate : Option Day) :
    Except DomainError (Option DueNotificationRule) :=
  if !rule.enabled then .ok none
  else do
    let (currentDate, currentTime) ← localNow now
    let resolvedTargetDate := targetDate.getD currentDate
    if resolvedTargetDate.ordinal > currentDate.ordinal then return none
    if resolvedTargetDate = currentDate ∧
      currentTime.micros < rule.sendTimeLocal.micros then return none
    return some ⟨rule, resolvedTargetDate⟩

/-- `observation_cutoff_for`. -/
def observationCutoffFor (due : DueNotificationRule) : Instant :=
  due.targetDate.combine due.rule.sendTimeLocal

/-! ## Candidates -/

/-- `_first_due_day`. -/
def firstDueDay (rule : NotificationScheduleRule) : ℤ :=
  match rule.firstDelayDays, rule.lookbackDays with
  | some days, _ => days
  | none, some days => days
  | none, none => 0

/-- `matches_join_cadence`. -/
def matchesJoinCadence (rule : NotificationScheduleRule) (daysSinceJoined : ℤ) : Bool :=
  if daysSinceJoined < firstDueDay rule then false
  else
    match rule.repeatIntervalDays with
    | none => daysSinceJoined = firstDueDay rule
    | some interval =>
      if interval = 0 then daysSinceJoined = firstDueDay rule
      else (daysSinceJoined - firstDueDay rule) % interval = 0

/-- `registration_age_days_on`. -/
def registrationAgeDaysOn (targetDate : Day) (registeredAt : Instant) : ℤ :=
  targetDate.ordinal - localOrdinal registeredAt

/-- `matches_receipt_activity`. -/
def matchesReceiptActivity (targetKind : ScheduleRuleTargetKind) (receiptCount : ℕ) : Bool :=
  match targetKind with
  | .engagementUnregisteredReceipt => receiptCount = 0
  | .engagementInactiveReceipt => 0 < receiptCount
  | .warrantyReceipt | .engagementAllUser => false

/-- `receipt_activity_since_for`. -/
def receiptActivitySinceFor (due : DueNotificationRule) : Except DomainError (Option Instant) :=
  match due.rule.targetKind with
  | .engagementUnregisteredReceipt => .ok none
  | .engagementInactiveReceipt =>
    match due.rule.lookbackDays with
    | none => .error (.other "비활성 영수증 유도 예약 규칙에 lookbackDays가 필요합니다.")
    | some lookbackDays => do
      let since ← due.targetDate.addDays (-lookbackDays)
      return some (since.combine .min)
  | .warrantyReceipt | .engagementAllUser => .error (.other "영수증 활동 조회 대상이 아닌 예약 규칙입니다.")

/-! ## Notifications -/

/-- `NotificationDeliveryContract`. -/
structure NotificationDeliveryContract where
  category : NotificationCategory
  messageType : NotificationMessageType
  kind : String
  resourceType : Option String
  deriving DecidableEq, Repr

/-- `delivery_contract_for`. -/
def deliveryContractFor : ScheduleRuleTargetKind → NotificationDeliveryContract
  | .warrantyReceipt => ⟨.warranty, .transactional, "warranty_expiry", some "receipt"⟩
  | .engagementUnregisteredReceipt =>
    ⟨.productManagement, .marketing, "receipt_registration_reminder", none⟩
  | .engagementInactiveReceipt =>
    ⟨.productManagement, .marketing, "receipt_inactivity_reminder", none⟩
  | .engagementAllUser => ⟨.benefit, .marketing, "receipt_analysis_reminder", none⟩

inductive ScheduleOccurrenceTargetType
  | receipt
  | user
  deriving DecidableEq, Repr

/-- `target_type_for_kind`. -/
def targetTypeForKind : ScheduleRuleTargetKind → ScheduleOccurrenceTargetType
  | .warrantyReceipt => .receipt
  | .engagementUnregisteredReceipt | .engagementInactiveReceipt | .engagementAllUser => .user

/-- `ScheduleOccurrenceKey`. -/
structure ScheduleOccurrenceKey where
  campaignKey : Text 100
  targetType : ScheduleOccurrenceTargetType
  targetId : UUID
  occurrenceOn : Day
  deriving DecidableEq, Repr

/-- `DueNotification`. -/
structure DueNotification where
  command : CreateNotificationCommand
  occurrence : ScheduleOccurrenceKey
  deriving DecidableEq, Repr

/-- `_ITEM_NAME_MARKER`. -/
def itemNameMarker : List Char := "[기기명]".toList

/-- `render_notification_text`. -/
def renderNotificationText (template itemName : String) (maxLength : ℕ) : String :=
  let markerCount := Text.count itemNameMarker template.toList
  if markerCount = 0 then template
  else
    let fixedTextLength := (Text.replace itemNameMarker [] template.toList).length
    let itemNameLength : ℤ := max (((maxLength : ℤ) - fixedTextLength) / markerCount) 0
    .ofList (Text.replace itemNameMarker (itemName.toList.take itemNameLength.toNat) template.toList)

/-- A text that its column can store. -/
@[ext]
structure VarChar (maxLength : ℕ) where
  value : String
  length_le : value.length ≤ maxLength
  deriving Repr

instance {maxLength : ℕ} : DecidableEq (VarChar maxLength) := fun a b =>
  decidable_of_iff (a.value = b.value) ⟨VarChar.ext, congrArg VarChar.value⟩

/-- `warranty_expiry_notification`, of the columns of a receipt. -/
def warrantyExpiryNotification (due : DueNotificationRule) (userId receiptId : UUID)
    (itemName : Text 255) (subCategory : Option (VarChar 100)) : DueNotification :=
  let delivery := deliveryContractFor due.rule.targetKind
  { command :=
    { userId
      category := delivery.category
      messageType := delivery.messageType
      kind := delivery.kind
      title := renderNotificationText due.rule.titleTemplate.value itemName.value
        NotificationTitle.maxLength
      message := renderNotificationText due.rule.bodyTemplate.value itemName.value
        NotificationMessage.maxLength
      resourceType := delivery.resourceType
      resourceId := some receiptId
      metadata := ("productName", itemName.value) ::
        (subCategory.map fun s => ("subCategory", s.value)).toList }
    occurrence :=
      ⟨due.rule.campaignKey, targetTypeForKind due.rule.targetKind, receiptId, due.targetDate⟩ }

/-- `receipt_reminder_notification`. -/
def receiptReminderNotification (due : DueNotificationRule) (userId : UUID)
    (receiptCount : Option ℕ) :
    DueNotification :=
  let delivery := deliveryContractFor due.rule.targetKind
  { command :=
    { userId
      category := delivery.category
      messageType := delivery.messageType
      kind := delivery.kind
      title := due.rule.titleTemplate.value
      message := due.rule.bodyTemplate.value
      resourceType := delivery.resourceType
      resourceId := none
      metadata := (receiptCount.map fun n => ("receiptCount", toString n)).toList }
    occurrence :=
      ⟨due.rule.campaignKey, targetTypeForKind due.rule.targetKind, userId, due.targetDate⟩ }

end Boat
