import Boat.Notifications.Runs
import Boat.ReadCommitted.Logic

/-!
# Notifications: what requests commit

Updates of settings, creations, runs of the scheduler, notifications that are read, and deletions
(`NotificationRequest`): what every commit of them changes (`NotificationRequest.Commits`), of which
the settings of a user are in force (`getSettings`), whether they have a row or not.
-/

namespace Boat.Notifications

open ReadCommitted

/-! ## Settings -/

/-- `get_settings`. -/
def NotificationsDatabase.getSettings (d : NotificationsDatabase)
    (userId : UUID) : NotificationSettings :=
  (d.settings.find userId).getD (.create userId)

/-- The user consents to marketing. -/
def NotificationsDatabase.Consents (d : NotificationsDatabase) (userId : UUID) : Prop :=
  (d.getSettings userId).marketingConsent = true

instance (d : NotificationsDatabase) (userId : UUID) : Decidable (d.Consents userId) :=
  inferInstanceAs (Decidable (_ = true))

/-- The settings are those that were in force, with a row or without one. -/
structure SettingsKept (d d' : NotificationsDatabase) : Prop where
  getSettings : ∀ userId, d'.getSettings userId = d.getSettings userId
  rows : ∀ r ∈ d.settings.rows, r ∈ d'.settings.rows

theorem settingsKept_of_eq {d d' : NotificationsDatabase}
    (h : d'.settings = d.settings) : SettingsKept d d' where
  getSettings userId := by
    rw [NotificationsDatabase.getSettings, h, NotificationsDatabase.getSettings]
  rows r hr := h ▸ hr

theorem getSettings_of_mem {d : NotificationsDatabase} {r : NotificationSettings}
    (h : r ∈ d.settings.rows) :
    d.getSettings r.userId = r := by
  rw [NotificationsDatabase.getSettings, Table.find_eq_some.2 ⟨h, rfl⟩, Option.getD_some]

theorem getSettings_of_find_eq_none {d : NotificationsDatabase} {userId : UUID}
    (h : d.settings.find userId = none) :
    d.getSettings userId = .create userId := by
  rw [NotificationsDatabase.getSettings, h, Option.getD_none]

/-- The defaults do not change what is in force. -/
theorem settingsKept_insertSettings {d : NotificationsDatabase} {userId : UUID}
    (h : d.settings.find userId = none) :
    SettingsKept d (NotificationsDatabase.insertSettings (.create userId) d) where
  getSettings u := by
    rw [NotificationsDatabase.getSettings, NotificationsDatabase.insertSettings]
    rw [Table.find_insert (r := NotificationSettings.create userId) h]
    split
    · next hu =>
      rw [hu]
      exact (getSettings_of_find_eq_none h).symm
    · rfl
  rows r hr := Table.mem_insert.2 (.inl hr)

/-! ## Commits -/

/-- The settings that the command names, and no others. -/
structure SettingsUpdated (command : UpdateNotificationSettingsCommand)
    (d d' : NotificationsDatabase) : Prop where
  getSettings : d'.getSettings command.userId =
    ⟨command.userId, command.pushEnabled.getD (d.getSettings command.userId).pushEnabled,
      command.marketingConsent.getD (d.getSettings command.userId).marketingConsent⟩
  others : ∀ userId, userId ≠ command.userId → d'.getSettings userId = d.getSettings userId
  rows : ∀ r ∈ d.settings.rows, r.userId ∈ d'.settings.rows.map (·.userId)
  occurrences : d'.occurrences = d.occurrences
  notifications : d'.notifications = d.notifications
  outboxEvents : d'.outboxEvents = d.outboxEvents

/-- A notification and its rows of the outbox. The user consents if it is about marketing. -/
structure Created (notification : UserNotification) (events : List (Stamped NotificationCreated))
    (d d' : NotificationsDatabase) : Prop where
  consents : notification.messageType = .marketing → d.Consents notification.userId
  unused : ∀ r ∈ d.notifications.rows, r.id ≠ notification.id
  notifications : d'.notifications = d.notifications.insert notification
  outboxEvents : d'.outboxEvents = d.outboxEvents ++ events
  settings : d'.settings = d.settings

/-- A candidate of a run: its notification, its event and its occurrence. -/
structure Scheduled (candidate : DueNotification) (stamps : CreationStamps)
    (notification : UserNotification) (d d' : NotificationsDatabase) :
    Prop extends Created notification (stamps.events notification) d d' where
  create : UserNotification.create candidate.command stamps.createdAt stamps.id = .ok notification
  unreserved : ∀ r ∈ d.occurrences.rows, r.key ≠ candidate.occurrence
  occurrences : d'.occurrences = d.occurrences.insert ⟨candidate.occurrence, some notification.id⟩

/-- The notification that the user sees. -/
structure MarkedRead (command : NotificationCommand) (readAt : Instant)
    (d d' : NotificationsDatabase) : Prop where
  found : ∃ r ∈ d.notifications.rows, r.id = command.notificationId ∧ r.userId = command.userId ∧
    (r.messageType = .marketing → d.Consents r.userId)
  notifications : d'.notifications = d.notifications.modify command.notificationId fun r =>
    { r with readAt := some readAt }
  settings : SettingsKept d d'
  occurrences : d'.occurrences = d.occurrences
  outboxEvents : d'.outboxEvents = d.outboxEvents

/-- The notification of the user. -/
structure Deleted (command : NotificationCommand) (d d' : NotificationsDatabase) : Prop where
  found : ∃ r ∈ d.notifications.rows, r.id = command.notificationId ∧ r.userId = command.userId
  notifications : d'.notifications = d.notifications.delete command.notificationId
  settings : d'.settings = d.settings
  occurrences : d'.occurrences = d.occurrences
  outboxEvents : d'.outboxEvents = d.outboxEvents

/-! ## Requests -/

inductive NotificationRequest
  | updateSettings (command : UpdateNotificationSettingsCommand)
  | create (publisher : EventPublisher) (command : CreateNotificationCommand)
    (stamps : CreationStamps)
  | schedule (run : ScheduledRun)
  | markRead (command : NotificationCommand) (readAt : Instant)
  | delete (command : NotificationCommand)

inductive NotificationResponse
  | settings (settings : NotificationSettings)
  | creation (result : CreationResult)
  | run (result : CreateDueNotificationsResult)
  | notification (notification : UserNotification)
  | done
  deriving DecidableEq

namespace NotificationRequest

/-- The program of a request. -/
def prog : NotificationRequest → NotificationsTx NotificationResponse
  | .updateSettings command => do
    return .settings
      (← UpdateNotificationSettingsCommandUseCase.execute NotificationsTx.commit command)
  | .create publisher command stamps => do
    return .creation (← CreateNotificationCommandUseCase.execute publisher command stamps)
  | .schedule run => do return .run (← CreateDueNotificationsCommandUseCase.execute run)
  | .markRead command readAt => do
    return .notification (← MarkNotificationReadCommandUseCase.execute command readAt)
  | .delete command => do
    DeleteNotificationCommandUseCase.execute command
    return .done

/-- What a commit of the request changes. -/
def Commits : NotificationRequest → NotificationsDatabase → NotificationsDatabase → Prop
  | .updateSettings command => SettingsUpdated command
  | .create publisher command stamps => fun d d' => ∃ notification,
      UserNotification.create command stamps.createdAt stamps.id = .ok notification ∧
      Created notification (publisher.rows (stamps.events notification)) d d' ∧
      d'.occurrences = d.occurrences
  | .schedule run => fun d d' => run.command.dryRun = false ∧ ∃ candidate stamps notification,
      Scheduled candidate stamps notification d d'
  | .markRead command readAt => MarkedRead command readAt
  | .delete command => Deleted command

/-- What the request raises: a notification that is read is not found, or a statement fails. -/
def Raises : NotificationRequest → NotificationsError → Prop
  | .markRead _ _, e => e = .notFound "알림을 찾을 수 없습니다." ∨ ∃ s, e = .fault s
  | _, _ => True

end NotificationRequest

/-- The protocol of requests. -/
def notifications {ι : Type} (request : ι → NotificationRequest) :
    Protocol ι NotificationsDatabase NotificationsLock NotificationsStatement where
  inv _ := True
  guar i _ := (request i).Commits
  cond := Always

end Boat.Notifications
