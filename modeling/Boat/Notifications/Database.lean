import Boat.Core.Table
import Boat.Notifications.Due
import Boat.ReadCommitted.Commands

/-!
# Notifications: tables

The tables of the notifications module (`app/modules/notifications/infrastructure/persistence`), as
a store of sessions, and the statements of its repositories.

* `INSERT ... ON CONFLICT` waits for the transactions that insert a row with its key, and then
  meets their row, or inserts its own.
* A `DELETE` of several rows takes a snapshot of the rows it finds, then waits for each of them, and
  deletes those that are still there.
-/

namespace Boat.Notifications

open ReadCommitted

/-! ## Rows -/

structure NotificationSettings where
  userId : UUID
  pushEnabled : Bool
  marketingConsent : Bool
  deriving DecidableEq, Repr

/-- The defaults of the columns, and of the domain. -/
def NotificationSettings.create (userId : UUID) : NotificationSettings := ⟨userId, true, false⟩

inductive DevicePlatform
  | ios
  | android
  deriving DecidableEq, Repr

structure UserPushToken where
  id : UUID
  userId : UUID
  token : String
  platform : DevicePlatform
  createdAt : Instant
  /-- The time of the registration that wrote the row. -/
  updatedAt : Instant
  deriving DecidableEq, Repr

/-- `NotificationScheduleOccurrence`. -/
structure ScheduleOccurrence where
  key : ScheduleOccurrenceKey
  notificationId : Option UUID
  deriving DecidableEq, Repr

/-- `NotificationCreated`. -/
structure NotificationCreated where
  notificationId : UUID
  userId : UUID
  messageType : NotificationMessageType
  kind : String
  title : String
  message : String
  resourceType : Option String
  resourceId : Option UUID
  category : NotificationCategory
  deriving DecidableEq, Repr

/-- The event that `UserNotification.create` records. -/
def NotificationCreated.of (n : UserNotification) : NotificationCreated :=
  ⟨n.id, n.userId, n.messageType, n.kind.value, n.title.value, n.message.value,
    n.resourceType.map (·.value), n.resourceId, n.category⟩

/-- The tables, and the rows of the outbox with events of the module. -/
structure NotificationsDatabase where
  settings : Table NotificationSettings.userId
  pushTokens : Table UserPushToken.id
  occurrences : Table ScheduleOccurrence.key
  notifications : Table UserNotification.id
  outboxEvents : List (Stamped NotificationCreated)

def NotificationsDatabase.empty : NotificationsDatabase := ⟨.empty, .empty, .empty, .empty, []⟩

/-! ## Locks -/

/-- The identity of a row. -/
inductive NotificationsRow
  | settings (userId : UUID)
  | pushToken (id : UUID)
  | occurrence (key : ScheduleOccurrenceKey)
  | notification (id : UUID)
  deriving DecidableEq, Repr

/-- An entry of a unique index. -/
inductive NotificationsEntry
  | primaryKey (row : NotificationsRow)
  | token (token : String)
  deriving DecidableEq, Repr

inductive NotificationsLock
  | row (row : NotificationsRow)
  | entry (entry : NotificationsEntry)
  deriving DecidableEq, Repr

/-- The entries of a row in the unique indexes. -/
def NotificationSettings.entries (r : NotificationSettings) : List NotificationsEntry :=
  [.primaryKey (.settings r.userId)]

def UserPushToken.entries (r : UserPushToken) : List NotificationsEntry :=
  [.primaryKey (.pushToken r.id), .token r.token]

def ScheduleOccurrence.entries (r : ScheduleOccurrence) : List NotificationsEntry :=
  [.primaryKey (.occurrence r.key)]

def notificationEntries (r : UserNotification) : List NotificationsEntry :=
  [.primaryKey (.notification r.id)]

/-- Is there a row with this entry? -/
def NotificationsDatabase.hasEntry (d : NotificationsDatabase) (e : NotificationsEntry) : Bool :=
  d.settings.rows.any (e ∈ ·.entries) || d.pushTokens.rows.any (e ∈ ·.entries) ||
    d.occurrences.rows.any (e ∈ ·.entries) || d.notifications.rows.any (e ∈ notificationEntries ·)

theorem NotificationsDatabase.hasEntry_eq_false {d : NotificationsDatabase} {e : NotificationsEntry} :
    d.hasEntry e = false ↔ (∀ r ∈ d.settings.rows, e ∉ r.entries) ∧
    (∀ r ∈ d.pushTokens.rows, e ∉ r.entries) ∧
      (∀ r ∈ d.occurrences.rows, e ∉ r.entries) ∧
      ∀ r ∈ d.notifications.rows, e ∉ notificationEntries r := by
  simp [hasEntry, and_assoc]

/-- What a lock protects: the row, or that there is none with the entry. -/
inductive NotificationsLock.Protects : NotificationsLock → (NotificationsDatabase → Prop) → Prop
  | settings (r : NotificationSettings) : Protects (.row (.settings r.userId)) fun d =>
    r ∈ d.settings.rows
  | pushToken (r : UserPushToken) : Protects (.row (.pushToken r.id)) fun d => r ∈ d.pushTokens.rows
  | occurrence (r : ScheduleOccurrence) : Protects (.row (.occurrence r.key)) fun d =>
    r ∈ d.occurrences.rows
  | notification (r : UserNotification) : Protects (.row (.notification r.id)) fun d =>
    r ∈ d.notifications.rows
  | entry (e : NotificationsEntry) : Protects (.entry e) fun d => d.hasEntry e = false

instance : Locking NotificationsDatabase NotificationsLock := ⟨NotificationsLock.Protects⟩

/-- What a write has to leave alone. -/
theorem touches_of {ks : List NotificationsLock} {w : NotificationsDatabase → NotificationsDatabase}
    (hsettings : ∀ r d, .row (.settings r.userId) ∉ ks → r ∈ d.settings.rows →
      r ∈ (w d).settings.rows)
    (hpushToken : ∀ r d, .row (.pushToken r.id) ∉ ks → r ∈ d.pushTokens.rows →
      r ∈ (w d).pushTokens.rows)
    (hoccurrence : ∀ r d, .row (.occurrence r.key) ∉ ks → r ∈ d.occurrences.rows →
      r ∈ (w d).occurrences.rows)
    (hnotification : ∀ r d, .row (.notification r.id) ∉ ks → r ∈ d.notifications.rows →
      r ∈ (w d).notifications.rows)
    (hentry : ∀ e d, .entry e ∉ ks → d.hasEntry e = false → (w d).hasEntry e = false) :
    Touches ks w := by
  rintro k hk d p (r | r | r | r | e) h
  · exact hsettings r d hk h
  · exact hpushToken r d hk h
  · exact hoccurrence r d hk h
  · exact hnotification r d hk h
  · exact hentry e d hk h

/-! ## Writes -/

namespace NotificationsDatabase

def insertSettings (r : NotificationSettings) (d : NotificationsDatabase) : NotificationsDatabase :=
  { d with settings := d.settings.insert r }

/-- Set the columns that are given. -/
def updateSettings (userId : UUID) (pushEnabled marketingConsent : Option Bool)
    (d : NotificationsDatabase) :
    NotificationsDatabase :=
  { d with settings := d.settings.modify userId fun r =>
      { r with
        pushEnabled := pushEnabled.getD r.pushEnabled
        marketingConsent := marketingConsent.getD r.marketingConsent } }

def insertPushToken (r : UserPushToken) (d : NotificationsDatabase) : NotificationsDatabase :=
  { d with pushTokens := d.pushTokens.insert r }

/-- Set the user, the platform and the time. -/
def updatePushToken (id userId : UUID) (platform : DevicePlatform) (updatedAt : Instant)
    (d : NotificationsDatabase) :
    NotificationsDatabase :=
  { d with pushTokens := d.pushTokens.modify id fun r => { r with userId, platform, updatedAt } }

def insertOccurrence (r : ScheduleOccurrence) (d : NotificationsDatabase) : NotificationsDatabase :=
  { d with occurrences := d.occurrences.insert r }

/-- Set the notification. -/
def bindOccurrence (key : ScheduleOccurrenceKey) (notificationId : UUID) (d : NotificationsDatabase) :
    NotificationsDatabase :=
  { d with occurrences := d.occurrences.modify key fun r =>
    { r with notificationId := some notificationId } }

def insertNotification (r : UserNotification) (d : NotificationsDatabase) : NotificationsDatabase :=
  { d with notifications := d.notifications.insert r }

/-- Set when it has been read. -/
def updateNotification (id : UUID) (readAt : Instant)
    (d : NotificationsDatabase) : NotificationsDatabase :=
  { d with notifications := d.notifications.modify id fun r => { r with readAt := some readAt } }

def deleteNotification (id : UUID) (d : NotificationsDatabase) : NotificationsDatabase :=
  { d with notifications := d.notifications.delete id }

def deleteRows (rows : List NotificationsRow) (d : NotificationsDatabase) : NotificationsDatabase :=
  { d with
    settings := d.settings.filter (.settings ·.userId ∉ rows)
    pushTokens := d.pushTokens.filter (.pushToken ·.id ∉ rows)
    occurrences := d.occurrences.filter (.occurrence ·.key ∉ rows)
    notifications := d.notifications.filter (.notification ·.id ∉ rows) }

def insertOutbox (events : List (Stamped NotificationCreated))
    (d : NotificationsDatabase) : NotificationsDatabase :=
  { d with outboxEvents := d.outboxEvents ++ events }

theorem mem_updateSettings {userId : UUID} {pushEnabled marketingConsent : Option Bool}
    {d : NotificationsDatabase} {q : NotificationSettings} :
    q ∈ (updateSettings userId pushEnabled marketingConsent d).settings.rows ↔
      q ∈ d.settings.rows ∧ q.userId ≠ userId ∨ ∃ r ∈ d.settings.rows, r.userId = userId ∧
        q = ⟨r.userId, pushEnabled.getD r.pushEnabled, marketingConsent.getD r.marketingConsent⟩ := by
  refine Table.mem_modify fun r => ?_
  rfl

theorem mem_updatePushToken {id userId : UUID} {platform : DevicePlatform} {updatedAt : Instant}
    {d : NotificationsDatabase} {q : UserPushToken} :
    q ∈ (updatePushToken id userId platform updatedAt d).pushTokens.rows ↔
      q ∈ d.pushTokens.rows ∧ q.id ≠ id ∨
        ∃ r ∈ d.pushTokens.rows, r.id = id ∧ q = { r with userId, platform, updatedAt } := by
  refine Table.mem_modify fun r => ?_
  rfl

theorem mem_bindOccurrence {key : ScheduleOccurrenceKey} {notificationId : UUID}
    {d : NotificationsDatabase} {q : ScheduleOccurrence} :
    q ∈ (bindOccurrence key notificationId d).occurrences.rows ↔
      q ∈ d.occurrences.rows ∧ q.key ≠ key ∨
        ∃ r ∈ d.occurrences.rows, r.key = key ∧
        q = { r with notificationId := some notificationId } := by
  refine Table.mem_modify fun r => ?_
  rfl

theorem mem_updateNotification {id : UUID} {readAt : Instant} {d : NotificationsDatabase}
    {q : UserNotification} :
    q ∈ (updateNotification id readAt d).notifications.rows ↔ q ∈ d.notifications.rows ∧ q.id ≠ id ∨
      ∃ r ∈ d.notifications.rows, r.id = id ∧ q = { r with readAt := some readAt } := by
  refine Table.mem_modify fun r => ?_
  rfl

theorem mem_deleteNotification {id : UUID} {d : NotificationsDatabase} {q : UserNotification} :
    q ∈ (deleteNotification id d).notifications.rows ↔ q ∈ d.notifications.rows ∧ q.id ≠ id := by
  rw [deleteNotification, Table.delete, List.mem_filter]
  simp

/-! A write touches only the entries of the rows it inserts, and the rows that it updates or
deletes. -/

theorem touches_insertSettings (r : NotificationSettings) :
    Touches (r.entries.map .entry) (insertSettings r) := by
  refine touches_of (fun q d _ hq => Table.mem_insert.2 (.inl hq)) (fun _ _ _ h => h)
    (fun _ _ _ h => h) (fun _ _ _ h => h) ?_
  intro e d he h
  obtain ⟨hsettings, h⟩ := hasEntry_eq_false.1 h
  exact hasEntry_eq_false.2 ⟨Table.forall_insert hsettings fun her => he (List.mem_map_of_mem her), h⟩

theorem touches_updateSettings (userId : UUID) (pushEnabled marketingConsent : Option Bool) :
    Touches [.row (.settings userId)] (updateSettings userId pushEnabled marketingConsent) := by
  refine touches_of (fun q d hq h => ?_) (fun _ _ _ h => h) (fun _ _ _ h => h) (fun _ _ _ h => h) ?_
  · exact mem_updateSettings.2 (.inl ⟨h, fun hid => hq (by simp [hid])⟩)
  · intro e d _ h
    obtain ⟨hsettings, h⟩ := hasEntry_eq_false.1 h
    refine hasEntry_eq_false.2 ⟨fun q hq => ?_, h⟩
    rcases mem_updateSettings.1 hq with ⟨hq, -⟩ | ⟨r, hr, -, rfl⟩
    · exact hsettings q hq
    · exact hsettings r hr

theorem touches_insertPushToken (r : UserPushToken) :
    Touches (r.entries.map .entry) (insertPushToken r) := by
  refine touches_of (fun _ _ _ h => h) (fun q d _ hq => Table.mem_insert.2 (.inl hq))
    (fun _ _ _ h => h) (fun _ _ _ h => h) ?_
  intro e d he h
  obtain ⟨hsettings, hpushTokens, h⟩ := hasEntry_eq_false.1 h
  exact hasEntry_eq_false.2 ⟨hsettings, Table.forall_insert hpushTokens fun her =>
    he (List.mem_map_of_mem her), h⟩

theorem touches_updatePushToken (id userId : UUID) (platform : DevicePlatform) (updatedAt : Instant) :
    Touches [.row (.pushToken id)] (updatePushToken id userId platform updatedAt) := by
  refine touches_of (fun _ _ _ h => h) (fun q d hq h => ?_) (fun _ _ _ h => h) (fun _ _ _ h => h) ?_
  · exact mem_updatePushToken.2 (.inl ⟨h, fun hid => hq (by simp [hid])⟩)
  · intro e d _ h
    obtain ⟨hsettings, hpushTokens, h⟩ := hasEntry_eq_false.1 h
    refine hasEntry_eq_false.2 ⟨hsettings, fun q hq => ?_, h⟩
    rcases mem_updatePushToken.1 hq with ⟨hq, -⟩ | ⟨r, hr, -, rfl⟩
    · exact hpushTokens q hq
    · exact hpushTokens r hr

theorem touches_insertOccurrence (r : ScheduleOccurrence) :
    Touches (r.entries.map .entry) (insertOccurrence r) := by
  refine touches_of (fun _ _ _ h => h) (fun _ _ _ h => h)
    (fun q d _ hq => Table.mem_insert.2 (.inl hq)) (fun _ _ _ h => h) ?_
  intro e d he h
  obtain ⟨hsettings, hpushTokens, hoccurrences, h⟩ := hasEntry_eq_false.1 h
  exact hasEntry_eq_false.2
    ⟨hsettings, hpushTokens, Table.forall_insert hoccurrences fun her =>
      he (List.mem_map_of_mem her), h⟩

theorem touches_bindOccurrence (key : ScheduleOccurrenceKey) (notificationId : UUID) :
    Touches [.row (.occurrence key)] (bindOccurrence key notificationId) := by
  refine touches_of (fun _ _ _ h => h) (fun _ _ _ h => h) (fun q d hq h => ?_) (fun _ _ _ h => h) ?_
  · exact mem_bindOccurrence.2 (.inl ⟨h, fun hid => hq (by simp [hid])⟩)
  · intro e d _ h
    obtain ⟨hsettings, hpushTokens, hoccurrences, h⟩ := hasEntry_eq_false.1 h
    refine hasEntry_eq_false.2 ⟨hsettings, hpushTokens, fun q hq => ?_, h⟩
    rcases mem_bindOccurrence.1 hq with ⟨hq, -⟩ | ⟨r, hr, -, rfl⟩
    · exact hoccurrences q hq
    · exact hoccurrences r hr

theorem touches_insertNotification (r : UserNotification) :
    Touches ((notificationEntries r).map .entry) (insertNotification r) := by
  refine touches_of (fun _ _ _ h => h) (fun _ _ _ h => h) (fun _ _ _ h => h)
    (fun q d _ hq => Table.mem_insert.2 (.inl hq)) ?_
  intro e d he h
  obtain ⟨hsettings, hpushTokens, hoccurrences, hnotifications⟩ := hasEntry_eq_false.1 h
  exact hasEntry_eq_false.2
    ⟨hsettings, hpushTokens, hoccurrences, Table.forall_insert hnotifications fun her =>
      he (List.mem_map_of_mem her)⟩

theorem touches_updateNotification (id : UUID) (readAt : Instant) :
    Touches [.row (.notification id)] (updateNotification id readAt) := by
  refine touches_of (fun _ _ _ h => h) (fun _ _ _ h => h) (fun _ _ _ h => h) (fun q d hq h => ?_) ?_
  · exact mem_updateNotification.2 (.inl ⟨h, fun hid => hq (by simp [hid])⟩)
  · intro e d _ h
    obtain ⟨hsettings, hpushTokens, hoccurrences, hnotifications⟩ := hasEntry_eq_false.1 h
    refine hasEntry_eq_false.2 ⟨hsettings, hpushTokens, hoccurrences, fun q hq => ?_⟩
    rcases mem_updateNotification.1 hq with ⟨hq, -⟩ | ⟨r, hr, -, rfl⟩
    · exact hnotifications q hq
    · exact hnotifications r hr

theorem touches_deleteNotification (id : UUID) :
    Touches [.row (.notification id)] (deleteNotification id) := by
  refine touches_of (fun _ _ _ h => h) (fun _ _ _ h => h) (fun _ _ _ h => h) (fun q d hq h => ?_) ?_
  · exact mem_deleteNotification.2 ⟨h, fun hid => hq (by simp [hid])⟩
  · intro e d _ h
    obtain ⟨hsettings, hpushTokens, hoccurrences, hnotifications⟩ := hasEntry_eq_false.1 h
    exact hasEntry_eq_false.2 ⟨hsettings, hpushTokens, hoccurrences, fun q hq =>
      hnotifications q (mem_deleteNotification.1 hq).1⟩

theorem touches_deleteRows (rows : List NotificationsRow) :
    Touches (rows.map .row) (deleteRows rows) := by
  have hnot : ∀ {row : NotificationsRow}, NotificationsLock.row row ∉ rows.map .row → row ∉ rows :=
    fun h hrow => h (List.mem_map_of_mem hrow)
  refine touches_of (fun r d hr h => ?_) (fun r d hr h => ?_) (fun r d hr h => ?_)
    (fun r d hr h => ?_) ?_
  · exact Table.mem_filter.2 ⟨h, by simpa using hnot hr⟩
  · exact Table.mem_filter.2 ⟨h, by simpa using hnot hr⟩
  · exact Table.mem_filter.2 ⟨h, by simpa using hnot hr⟩
  · exact Table.mem_filter.2 ⟨h, by simpa using hnot hr⟩
  · intro e d _ h
    obtain ⟨hsettings, hpushTokens, hoccurrences, hnotifications⟩ := hasEntry_eq_false.1 h
    exact hasEntry_eq_false.2 ⟨Table.forall_filter hsettings, Table.forall_filter hpushTokens,
      Table.forall_filter hoccurrences, Table.forall_filter hnotifications⟩

theorem touches_insertOutbox (events : List (Stamped NotificationCreated)) :
    Touches [] (insertOutbox events) :=
  touches_of (fun _ _ _ h => h) (fun _ _ _ h => h) (fun _ _ _ h => h)
    (fun _ _ _ h => h) fun _ _ _ h => h

end NotificationsDatabase

end Boat.Notifications
