import Boat.Notifications.Database

/-!
# Notifications: use cases

The repositories of the notifications module (`SqlAlchemyNotificationRepository`,
`SqlAlchemyPushTokenRepository`, `SqlAlchemyScheduleOccurrenceRepository`), and the commands about
settings and push tokens, which other modules run in their transactions too.
-/

namespace Boat.Notifications

open ReadCommitted

/-! ## Programs -/

/-- The statements of the repositories. -/
inductive NotificationsStatement
  | findSettings (userId : UUID)
  | insertSettings (userId : UUID)
  | getSettingsForUpdate (userId : UUID)
  | upsertSettings (userId : UUID)
  | findPushToken (token : String)
  | upsertPushToken (token : String)
  | listPushTokens (userId : UUID)
  /-- The snapshot of a `DELETE`. -/
  | findPushTokens (userId : UUID)
  /-- The same, by the tokens. -/
  | findInvalidPushTokens (tokens : List String)
  | deletePushTokens (ids : List UUID)
  | reserveOccurrence (key : ScheduleOccurrenceKey)
  | bindOccurrence (key : ScheduleOccurrenceKey)
  | flushNotification (id : UUID)
  | findNotification (id : UUID)
  | findNotificationForUpdate (id : UUID)
  | updateNotification (id : UUID)
  | deleteNotification (id : UUID)
  -- The queries of rules, users and receipts.
  | listScheduleRules
  | listReceiptsExpiringOn
  | getExistingUserIds
  | listRegistrationFacts
  | getReceiptActivityForUsers
  | flushOutbox
  | commit
  | rollback
  deriving DecidableEq, Repr

inductive NotificationsError
  | domain (e : DomainError)
  /-- `NotFoundError`. -/
  | notFound (message : String)
  /-- `IntegrityError`. -/
  | integrity (e : NotificationsEntry)
  /-- `PushTokenUpsertMissingRecordError`. -/
  | pushTokenMissing
  /-- `NotificationSettingsLockMissingRecordError`. -/
  | settingsMissing
  /-- `StaleDataError`. -/
  | stale
  /-- A loop over pages has not ended. -/
  | unfinished
  /-- A statement, a commit or a rollback fails. -/
  | fault (s : NotificationsStatement)
  deriving DecidableEq, Repr

abbrev NotificationsTx := Prog NotificationsDatabase NotificationsStatement NotificationsError

namespace NotificationsTx

def exec {α : Type} (s : NotificationsStatement)
    (c : Command NotificationsDatabase NotificationsError α) :
    NotificationsTx α := Prog.exec s (.fault s) c

def select {α : Type} (s : NotificationsStatement)
    (f : NotificationsDatabase → α) : NotificationsTx α :=
  exec s (.query (fun _ => []) f)

def insert (s : NotificationsStatement) (entries : List NotificationsEntry)
    (w : NotificationsDatabase → NotificationsDatabase)
    (hw : Touches (entries.map .entry) w) : NotificationsTx Unit :=
  exec s (.insert .entry NotificationsDatabase.hasEntry .integrity entries w hw)

/-- `INSERT ... ON CONFLICT`, with the row it conflicts with. -/
def insertOnConflict {ρ : Type} (s : NotificationsStatement) (find : NotificationsDatabase → Option ρ)
    (rowLocks : ρ → List NotificationsLock)
    (update : ρ → NotificationsDatabase → NotificationsDatabase)
    (hupdate : ∀ r, Touches (rowLocks r) (update r)) (entries : List NotificationsEntry)
    (w : NotificationsDatabase → NotificationsDatabase)
    (hw : Touches (entries.map .entry) w) : NotificationsTx (Option ρ) :=
  exec s (.insertOnConflict find rowLocks update hupdate .entry NotificationsDatabase.hasEntry
    .integrity entries w hw)

def commit : NotificationsTx Unit := Prog.commitOr (.fault .commit)

def rollback : NotificationsTx Unit := Prog.rollbackOr (.fault .rollback)

end NotificationsTx

/-- `publish`, of which the next flush makes the inserts. -/
def flushOutbox (events : List (Stamped NotificationCreated)) : NotificationsTx Unit :=
  NotificationsTx.insert .flushOutbox [] (NotificationsDatabase.insertOutbox events)
    (NotificationsDatabase.touches_insertOutbox events)

/-! ## Repositories -/

namespace SqlAlchemyNotificationRepository

/-- `create`. -/
def create (notification : UserNotification) : NotificationsTx Unit :=
  NotificationsTx.insert (.flushNotification notification.id) (notificationEntries notification)
    (NotificationsDatabase.insertNotification notification)
      (NotificationsDatabase.touches_insertNotification notification)

/-- `get_settings_for_update`. -/
def getSettingsForUpdate (userId : UUID) : NotificationsTx NotificationSettings := do
  let _ ← NotificationsTx.insertOnConflict (.insertSettings userId) (·.settings.find userId)
    (fun _ => []) (fun _ => id) (fun _ => touches_id _) (NotificationSettings.create userId).entries
    (NotificationsDatabase.insertSettings (.create userId))
      (NotificationsDatabase.touches_insertSettings (.create userId))
  let record ← NotificationsTx.exec (.getSettingsForUpdate userId) (.query
    (fun v => ((v.settings.find userId).map fun r => .row (.settings r.userId)).toList)
      (·.settings.find userId))
  match record with
  | some settings => return settings
  | none => throw .settingsMissing

/-- `update_settings`. -/
def updateSettings (userId : UUID) (pushEnabled marketingConsent : Option Bool) :
    NotificationsTx NotificationSettings := do
  if pushEnabled ≠ none ∨ marketingConsent ≠ none then
    let defaults := NotificationSettings.create userId
    let row : NotificationSettings :=
      ⟨userId, pushEnabled.getD defaults.pushEnabled, marketingConsent.getD defaults.marketingConsent⟩
    let _ ← NotificationsTx.insertOnConflict (.upsertSettings userId) (·.settings.find userId)
      (fun r => [.row (.settings r.userId)])
      (fun r => NotificationsDatabase.updateSettings r.userId pushEnabled marketingConsent)
      (fun r => NotificationsDatabase.touches_updateSettings r.userId pushEnabled marketingConsent)
        row.entries
      (NotificationsDatabase.insertSettings row) (NotificationsDatabase.touches_insertSettings row)
  let record ← NotificationsTx.select (.findSettings userId) (·.settings.find userId)
  return record.getD (.create userId)

/-- The record that `_find_record_by_id_for_user` finds. -/
def findRecordByIdForUser (notificationId userId : UUID)
    (v : NotificationsDatabase) : Option UserNotification :=
  (v.notifications.find notificationId).filter fun r =>
    r.userId = userId ∧
      (r.messageType ≠ .marketing ∨ v.settings.rows.any fun s =>
        s.userId = userId ∧ s.marketingConsent)

/-- `mark_read`. -/
def markRead (notificationId userId : UUID) (readAt : Instant) :
    NotificationsTx (Option UserNotification) := do
  let record ← NotificationsTx.exec (.findNotificationForUpdate notificationId) (.query
    (fun v => ((findRecordByIdForUser notificationId userId v).map fun r =>
      .row (.notification r.id)).toList)
    (findRecordByIdForUser notificationId userId))
  match record with
  | none => return none
  | some record =>
    NotificationsTx.exec (.updateNotification record.id) (.update (·.notifications.find record.id)
      (fun r => .row (.notification r.id)) .stale
        (fun r => NotificationsDatabase.updateNotification r.id readAt)
      fun r => NotificationsDatabase.touches_updateNotification r.id readAt)
    return some { record with readAt := some readAt }

/-- `delete_by_id_for_user`. -/
def deleteByIdForUser (notificationId userId : UUID) : NotificationsTx Bool := do
  let find : NotificationsDatabase → Option UserNotification := fun v =>
    (v.notifications.find notificationId).filter (·.userId = userId)
  let record ← NotificationsTx.exec (.findNotificationForUpdate notificationId) (.query
    (fun v => ((find v).map fun r => .row (.notification r.id)).toList) find)
  match record with
  | none => return false
  | some record =>
    NotificationsTx.exec (.deleteNotification record.id) (.update (·.notifications.find record.id)
      (fun r => .row (.notification r.id)) .stale
        (fun r => NotificationsDatabase.deleteNotification r.id)
      fun r => NotificationsDatabase.touches_deleteNotification r.id)
    return true

end SqlAlchemyNotificationRepository

namespace SqlAlchemyPushTokenRepository

/-- `register`, with the identity of a new row and the time of the transaction. -/
def register (id userId : UUID) (token : String) (platform : DevicePlatform) (now : Instant) :
    NotificationsTx UserPushToken := do
  let row : UserPushToken := ⟨id, userId, token, platform, now, now⟩
  let _ ← NotificationsTx.insertOnConflict (.upsertPushToken token)
    (fun v => v.pushTokens.rows.find? (·.token = token)) (fun r => [.row (.pushToken r.id)])
    (fun r => NotificationsDatabase.updatePushToken r.id userId platform now)
    (fun r => NotificationsDatabase.touches_updatePushToken r.id userId platform now) row.entries
    (NotificationsDatabase.insertPushToken row) (NotificationsDatabase.touches_insertPushToken row)
  let record ← NotificationsTx.select (.findPushToken token) fun v =>
    v.pushTokens.rows.find? (·.token = token)
  match record with
  | some pushToken => return pushToken
  | none => throw .pushTokenMissing

/-- `delete_by_user_id`. A row that has been changed in the meantime is checked again. -/
def deleteByUserId (userId : UUID) : NotificationsTx Unit := do
  let ids ← NotificationsTx.select (.findPushTokens userId) fun v =>
    (v.pushTokens.rows.filter (·.userId = userId)).map (·.id)
  let _ ← NotificationsTx.exec (.deletePushTokens ids) (.modify
    (fun v => (v.pushTokens.rows.filter fun r => r.id ∈ ids ∧ r.userId = userId).map
      (.pushToken ·.id))
    (List.map .row) NotificationsDatabase.deleteRows NotificationsDatabase.touches_deleteRows)

end SqlAlchemyPushTokenRepository

namespace SqlAlchemyScheduleOccurrenceRepository

/-- `reserve`. -/
def reserve (occurrence : ScheduleOccurrenceKey) : NotificationsTx Bool := do
  let row : ScheduleOccurrence := ⟨occurrence, none⟩
  let conflict ← NotificationsTx.insertOnConflict (.reserveOccurrence occurrence)
    (·.occurrences.find occurrence)
    (fun _ => []) (fun _ => id) (fun _ => touches_id _) row.entries
    (NotificationsDatabase.insertOccurrence row) (NotificationsDatabase.touches_insertOccurrence row)
  return conflict.isNone

/-- `bind_notification`. -/
def bindNotification (occurrence : ScheduleOccurrenceKey)
    (notificationId : UUID) : NotificationsTx Unit := do
  let _ ← NotificationsTx.exec (.bindOccurrence occurrence) (.modify (·.occurrences.find occurrence)
    (fun record => (record.map fun r => .row (.occurrence r.key)).toList)
    (fun record => record.elim id fun r =>
      NotificationsDatabase.bindOccurrence r.key notificationId) fun record => by
      rcases record with - | r
      · exact touches_id _
      · exact NotificationsDatabase.touches_bindOccurrence r.key notificationId)

end SqlAlchemyScheduleOccurrenceRepository

/-! ## Commands -/

/-- `UpdateNotificationSettingsCommand`. -/
structure UpdateNotificationSettingsCommand where
  userId : UUID
  pushEnabled : Option Bool
  marketingConsent : Option Bool
  deriving DecidableEq, Repr

/-- `UpdateNotificationSettingsCommandUseCase.execute`. -/
def UpdateNotificationSettingsCommandUseCase.execute (commit : NotificationsTx Unit)
    (command : UpdateNotificationSettingsCommand) : NotificationsTx NotificationSettings := do
  let settings ← SqlAlchemyNotificationRepository.updateSettings command.userId command.pushEnabled
    command.marketingConsent
  commit
  return settings

/-- `EventPublisher`: `OutboxEventPublisher`, or `NoOpEventPublisher`. -/
inductive EventPublisher
  | outbox
  | noOp
  deriving DecidableEq, Repr

/-- The rows of the outbox that the publisher makes of events. -/
def EventPublisher.rows : EventPublisher → List (Stamped NotificationCreated) →
    List (Stamped NotificationCreated)
  | .outbox, events => events
  | .noOp, _ => []

/-- `publish`. -/
def EventPublisher.publish : EventPublisher → List (Stamped NotificationCreated) →
    NotificationsTx Unit
  | .outbox, events => flushOutbox events
  | .noOp, _ => return ()

/-- What a creation takes from the clock, from `uuid4`, and for its event. -/
structure CreationStamps where
  createdAt : Instant
  id : UUID
  event : Stamp
  deriving DecidableEq, Repr

/-- The events that `UserNotification.create` records. -/
def CreationStamps.events (stamps : CreationStamps)
    (notification : UserNotification) : List (Stamped NotificationCreated) :=
  [⟨stamps.event, .of notification⟩]

/-- `NotificationCreationResult`, of a notification that is created. -/
inductive CreationResult
  | created (notification : UserNotification)
  | skippedMarketingConsent
  deriving DecidableEq

namespace NotificationCreator

/-- `_save_notification`. -/
def saveNotification (publisher : EventPublisher) (notification : UserNotification)
    (stamps : CreationStamps) :
    NotificationsTx CreationResult := do
  SqlAlchemyNotificationRepository.create notification
  publisher.publish (stamps.events notification)
  return .created notification

/-- `create`. -/
def create (publisher : EventPublisher) (command : CreateNotificationCommand)
    (stamps : CreationStamps) :
    NotificationsTx CreationResult := do
  match UserNotification.create command stamps.createdAt stamps.id with
  | .error e => throw (.domain e)
  | .ok notification =>
    match command.messageType with
    | .transactional => saveNotification publisher notification stamps
    | .marketing =>
      let settings ← SqlAlchemyNotificationRepository.getSettingsForUpdate command.userId
      if !settings.marketingConsent then return .skippedMarketingConsent
      else saveNotification publisher notification stamps

end NotificationCreator

/-- `CreateNotificationCommandUseCase.execute`. -/
def CreateNotificationCommandUseCase.execute (publisher : EventPublisher)
    (command : CreateNotificationCommand) (stamps : CreationStamps) :
    NotificationsTx CreationResult := do
  let result ← NotificationCreator.create publisher command stamps
  match result with
  | .created notification =>
    NotificationsTx.commit
    return .created notification
  | .skippedMarketingConsent =>
    NotificationsTx.rollback
    return .skippedMarketingConsent

/-- `MarkNotificationReadCommand`, and `DeleteNotificationCommand`. -/
structure NotificationCommand where
  userId : UUID
  notificationId : UUID
  deriving DecidableEq, Repr

/-- `MarkNotificationReadCommandUseCase.execute`, with the time of the clock. -/
def MarkNotificationReadCommandUseCase.execute (command : NotificationCommand) (readAt : Instant) :
    NotificationsTx UserNotification := do
  let _ ← SqlAlchemyNotificationRepository.getSettingsForUpdate command.userId
  let notification ← SqlAlchemyNotificationRepository.markRead command.notificationId
    command.userId readAt
  match notification with
  | none => throw (.notFound "알림을 찾을 수 없습니다.")
  | some notification =>
    NotificationsTx.commit
    return notification

/-- `DeleteNotificationCommandUseCase.execute`. -/
def DeleteNotificationCommandUseCase.execute (command : NotificationCommand) :
    NotificationsTx Unit := do
  let deleted ← SqlAlchemyNotificationRepository.deleteByIdForUser command.notificationId
    command.userId
  if !deleted then throw (.notFound "알림을 찾을 수 없습니다.")
  NotificationsTx.commit

/-- `RegistrationToken(value)`. -/
def RegistrationToken.create (value : String) : Validated (Text 512) :=
  Text.create 512 "token" "FCM 등록 토큰이 올바르지 않습니다." value

/-- `RegisterDeviceTokenCommand`. -/
structure RegisterDeviceTokenCommand where
  userId : UUID
  token : String
  platform : DevicePlatform
  deriving DecidableEq, Repr

/-- `RegisterDeviceTokenCommandUseCase.execute`. -/
def RegisterDeviceTokenCommandUseCase.execute (commit : NotificationsTx Unit)
    (command : RegisterDeviceTokenCommand) (id : UUID)
    (now : Instant) : NotificationsTx UserPushToken := do
  match RegistrationToken.create command.token with
  | .error details => throw (.domain (.validation details))
  | .ok _ =>
    let saved ← SqlAlchemyPushTokenRepository.register id command.userId command.token
      command.platform now
    commit
    return saved

/-- `DeleteUserPushTokensCommandUseCase.execute`. -/
def DeleteUserPushTokensCommandUseCase.execute (commit : NotificationsTx Unit)
    (userId : UUID) : NotificationsTx Unit := do
  SqlAlchemyPushTokenRepository.deleteByUserId userId
  commit

end Boat.Notifications
