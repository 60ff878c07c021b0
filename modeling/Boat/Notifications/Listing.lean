import Boat.Core.TimeCursor
import Boat.Notifications.Database

/-!
# Notifications: the list of a user

The notifications that a user sees (`ListNotificationsQueryUseCase`), the latest first: those about
marketing are among them while the user consents to it. Following the cursors of the list visits
every one of them once (`enumerates_notifications`).
-/

namespace Boat.Notifications

/-! ## Rows -/

/-- `orm.UserNotification`. The columns hold what a notification was made of. -/
structure UserNotificationRecord where
  id : UUID
  userId : UUID
  category : NotificationCategory
  messageType : NotificationMessageType
  kind : Text 50
  title : Text NotificationTitle.maxLength
  message : Text NotificationMessage.maxLength
  resourceType : Option (Text 50)
  resourceId : Option UUID
  metadata : NotificationMetadata
  createdAt : Timestamp
  readAt : Option Timestamp
  /-- `ck_user_notifications_resource_pair`. -/
  resourcePair : resourceType.isNone = resourceId.isNone

/-- The tables that the list reads. -/
structure NotificationTables where
  settings : Table NotificationSettings.userId
  notifications : Table UserNotificationRecord.id

/-- `NotificationListItemResult`. -/
structure NotificationListItem where
  notificationId : UUID
  messageType : NotificationMessageType
  category : NotificationCategory
  kind : String
  title : String
  message : String
  resourceType : Option String
  resourceId : Option UUID
  metadata : List (String × String)
  createdAt : DateTime
  readAt : Option DateTime

/-- The item of a row: `notification_to_domain`, of which the checks hold for a row, and then its
    values. -/
def UserNotificationRecord.toListItem (r : UserNotificationRecord) : NotificationListItem where
  notificationId := r.id
  messageType := r.messageType
  category := r.category
  kind := r.kind.value
  title := r.title.value
  message := r.message.value
  resourceType := r.resourceType.map (·.value)
  resourceId := r.resourceId
  metadata := r.metadata.value
  createdAt := r.createdAt.toDateTime
  readAt := r.readAt.map (·.toDateTime)

/-! ## Repository -/

/-- `NotificationListResult`. -/
structure NotificationListResult where
  notifications : List NotificationListItem
  hasNext : Bool
  totalCount : ℕ

/-- `marketing_visible`. -/
def marketingVisible (userId : UUID) (d : NotificationTables) : Bool :=
  d.settings.rows.any fun s => s.userId = userId ∧ s.marketingConsent

/-- `visible_notifications`. -/
def visibleNotifications (userId : UUID) (d : NotificationTables) : List UserNotificationRecord :=
  d.notifications.rows.filter fun r =>
    r.userId = userId ∧ (r.messageType ≠ .marketing ∨ marketingVisible userId d)

theorem mem_visibleNotifications {userId : UUID} {d : NotificationTables}
    {r : UserNotificationRecord} :
    r ∈ visibleNotifications userId d ↔ r ∈ d.notifications.rows ∧ r.userId = userId ∧
    (r.messageType = .marketing →
      ∃ s ∈ d.settings.rows, s.userId = userId ∧ s.marketingConsent = true) := by
  rw [visibleNotifications, List.mem_filter, decide_eq_true_eq, marketingVisible, List.any_eq_true]
  simp only [decide_eq_true_eq, ne_eq, ← imp_iff_not_or]

/-- The rows of `total` joined with those of the page: a row without a notification if there are
    none. -/
def joinTotal {ρ : Type} (total : ℕ) (page : List ρ) : List (Option ρ × ℕ) :=
  if page.isEmpty then [(none, total)] else page.map fun r => (some r, total)

theorem filterMap_joinTotal {ρ : Type} (total : ℕ)
    (page : List ρ) : (joinTotal total page).filterMap (·.1) = page := by
  rw [joinTotal]
  split
  · next hempty => exact (List.isEmpty_iff.1 hempty).symm
  · rw [List.filterMap_map]
    exact List.filterMap_some

theorem head_joinTotal {ρ : Type} (total : ℕ) (page : List ρ) :
    ((joinTotal total page).head?.map (·.2)).getD 0 = total := by
  rcases page with - | ⟨r, page⟩
  · rfl
  · rfl

variable [TimeZones]

/-- `list_by_user`. -/
def listByUser (userId : UUID) (cursor : Option TimeCursor) (limit : ℕ)
    (d : NotificationTables) : NotificationListResult :=
  let visible := visibleNotifications userId d
  let found := visible.filter fun r => cursor.all (isBefore (·.createdAt) (·.id) · r)
  let page := (found.insertionSort (comesLast (·.createdAt) (·.id))).take (limit + 1)
  let rows := joinTotal visible.length (page.insertionSort (comesLast (·.createdAt) (·.id)))
  let records := rows.filterMap (·.1)
  ⟨(records.take limit).map (·.toListItem), limit < records.length, (rows.head?.map (·.2)).getD 0⟩

/-! ## Query -/

/-- `ListNotificationsQuery`. -/
structure ListNotificationsQuery where
  userId : UUID
  cursor : Option String
  limit : ℕ

/-- `ListNotificationsResult`. -/
structure ListNotificationsResult where
  notifications : List NotificationListItem
  nextCursor : Option String
  hasNext : Bool
  limit : ℕ
  totalCount : ℕ

namespace ListNotificationsQueryUseCase

/-- `InvalidNotificationCursorError`. -/
def invalidCursor : DomainError := .other "알림 목록 cursor가 올바르지 않습니다."

/-- `_parse_cursor`. -/
def parseCursor (cursor : Option String) : Except DomainError (Option TimeCursor) :=
  parseTimeCursor invalidCursor cursor

/-- `_next_cursor`. -/
def nextCursor (notifications : List NotificationListItem) : Except DomainError (Option String) :=
  lastTimeCursor (notifications.getLast?.map fun last => (last.createdAt, last.notificationId))

/-- `execute`. -/
def execute (query : ListNotificationsQuery) (d : NotificationTables) :
    Except DomainError ListNotificationsResult := do
  let cursor ← parseCursor query.cursor
  let result := listByUser query.userId cursor query.limit d
  let next ← (if result.hasNext = true then nextCursor result.notifications
    else .ok none : Except _ _)
  return ⟨result.notifications, next, result.hasNext, query.limit, result.totalCount⟩

end ListNotificationsQueryUseCase

open ListNotificationsQueryUseCase

/-! ## Following the cursors -/

/-- The cursor of a notification. -/
abbrev notificationCursor (r : UserNotificationRecord) : String := rowCursor r.createdAt r.id

/-- The condition of a cursor. -/
def beforeNotification : String → UserNotificationRecord → Bool :=
  ofText invalidCursor (isBefore (·.createdAt) (·.id))

/-- The notifications of a page. -/
def notificationPage (userId : UUID) (limit : ℕ) (d : NotificationTables) (cursor : Option String) :
    Paging.Page UserNotificationRecord String :=
  Paging.page (comesLast (·.createdAt) (·.id)) beforeNotification notificationCursor limit
    (visibleNotifications userId d) cursor

omit [TimeZones] in
theorem nodup_visibleNotifications (userId : UUID) (d : NotificationTables) :
    ((visibleNotifications userId d).map (·.id)).Nodup :=
  (List.filter_sublist.map _).nodup d.notifications.nodup

/-- The rows that are read are in their order, before they are joined and after. -/
theorem insertionSort_take {userId : UUID} (d : NotificationTables)
    (p : UserNotificationRecord → Bool) (n : ℕ) :
    ((((visibleNotifications userId d).filter p).insertionSort
      (comesLast (·.createdAt) (·.id))).take n).insertionSort
      (comesLast (·.createdAt) (·.id)) =
    (((visibleNotifications userId d).filter p).insertionSort
      (comesLast (·.createdAt) (·.id))).take n := by
  have hid := nodup_visibleNotifications userId d
  have hfilter : (((visibleNotifications userId d).filter p).map (·.id)).Nodup :=
    (List.filter_sublist.map _).nodup hid
  have hpairwise := (orders_comesLast invalidCursor UserNotificationRecord.createdAt hfilter).pairwise
  exact (hpairwise.sublist (List.take_sublist ..)).insertionSort_eq

/-- After a cursor of a notification, the list is a page. -/
theorem execute_eq {userId : UUID} {limit : ℕ} {d : NotificationTables} {cursor : Option String}
    (hcursor : ∀ c ∈ cursor, ∃ t u, rowCursor t u = c) :
    execute ⟨userId, cursor, limit⟩ d =
      .ok ⟨(notificationPage userId limit d cursor).rows.map (·.toListItem),
      (notificationPage userId limit d cursor).next,
        (notificationPage userId limit d cursor).hasNext, limit,
      (visibleNotifications userId d).length⟩ := by
  obtain ⟨parsed, hparsed, hall⟩ := parseTimeCursor_ofText invalidCursor
    (isBefore UserNotificationRecord.createdAt (·.id)) hcursor
  obtain ⟨found, hfound⟩ : ∃ found, (((visibleNotifications userId d).filter fun r =>
      cursor.all (beforeNotification · r)).insertionSort (comesLast (·.createdAt) (·.id))).take
        (limit + 1) = found := ⟨_, rfl⟩
  have hsorted : found.insertionSort (comesLast (·.createdAt) (·.id)) = found :=
    hfound ▸ insertionSort_take d _ _
  have hlist : listByUser userId parsed limit d =
      ⟨(found.take limit).map (·.toListItem), limit < found.length,
        (visibleNotifications userId d).length⟩ := by
    have hfound' :
        (((visibleNotifications userId d).filter fun r =>
          parsed.all (isBefore (·.createdAt) (·.id) · r)).insertionSort
          (comesLast (·.createdAt) (·.id))).take (limit + 1) = found := by
      simp only [hall]
      exact hfound
    simp only [listByUser, hfound', hsorted, filterMap_joinTotal, head_joinTotal]
  have hpage : notificationPage userId limit d cursor =
      Paging.cut notificationCursor limit found := by
    rw [notificationPage, Paging.page, hfound]
  have hnext : (if (Paging.cut notificationCursor limit found).hasNext = true then
      ListNotificationsQueryUseCase.nextCursor ((found.take limit).map (·.toListItem))
        else .ok none) =
      .ok (Paging.cut notificationCursor limit found).next := by
    rw [ListNotificationsQueryUseCase.nextCursor, List.getLast?_map, Option.map_map]
    exact lastTimeCursor_getLast UserNotificationRecord.createdAt (·.id) limit found
  rw [hpage]
  refine except_bind_eq_ok.2 ⟨parsed, hparsed, ?_⟩
  simp only [hlist]
  exact except_bind_eq_ok.2 ⟨_, hnext, rfl⟩

/-- Following the cursors visits every notification that the user sees once, the latest first. -/
theorem enumerates_notifications (userId : UUID) {limit : ℕ} (hlimit : 1 ≤ limit)
    (d : NotificationTables) :
    Paging.Enumerates (comesLast UserNotificationRecord.createdAt (·.id))
      (fun cursor => execute ⟨userId, cursor, limit⟩ d) (·.nextCursor)
      (·.notifications) (·.hasNext) (·.totalCount) (·.toListItem) limit
      ((visibleNotifications userId d).insertionSort (comesLast (·.createdAt) (·.id))) := by
  have hid := nodup_visibleNotifications userId d
  have horders : Paging.Orders (comesLast (·.createdAt) (·.id)) beforeNotification notificationCursor
      (visibleNotifications userId d) :=
        orders_comesLast invalidCursor UserNotificationRecord.createdAt hid
  refine horders.enumerates hid.of_map hlimit fun cursor hcursor => ?_
  refine ⟨_, execute_eq fun c hc => ?_, rfl, rfl, rfl, rfl⟩
  obtain ⟨a, -, ha⟩ := hcursor c hc
  exact ⟨_, _, ha⟩

end Boat.Notifications
