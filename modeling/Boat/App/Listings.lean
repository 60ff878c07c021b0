import Boat.Credits.Transactions
import Boat.Notifications.Listing

/-!
# Lists in the order of times

The list of credit transactions and the list of notifications, of which one goes on after the time
and the identity of its last row and the other one before them.

* `lists_enumerate`: following the cursors of either visits its rows once, in their order, and the
  cursors that it makes are read as what they were made of.
-/

namespace Boat

section

variable [TimeZones]

/-- Of the cursors of a listing, with the items of which `createdAt` and `id` are the time and the
    identity: there is one as far as the time of the last item is one of UTC, and its instant and
    identity are read back; another text is read as a cursor as well, of which the time is aware, or
    is invalid. -/
structure ReadsCursors {ι : Type}
    (parseCursor : Option String → Except DomainError (Option TimeCursor))
    (nextCursor : List ι → Except DomainError (Option String)) (createdAt : ι → DateTime)
    (id : ι → UUID) (invalidCursor : DomainError) : Prop where
  exists_iff : ∀ items last, items.getLast? = some last →
    ((∃ text, nextCursor items = .ok (some text)) ↔ (createdAt last).InUtc)
  read_back : ∀ items last text, items.getLast? = some last → nextCursor items = .ok text →
    ∃ cursor, parseCursor text = .ok (some cursor) ∧
      cursor.createdAt.instant = (createdAt last).instant ∧ cursor.id = id last
  total : ∀ text, (∃ cursor offset, parseCursor (some text) = .ok (some cursor) ∧
    cursor.createdAt.tzinfo = .timezone offset) ∨
    parseCursor (some text) = .error invalidCursor

theorem readsCursors {ι : Type} (createdAt : ι → DateTime) (id : ι → UUID)
    (invalidCursor : DomainError) :
    ReadsCursors (parseTimeCursor invalidCursor)
      (fun items => lastTimeCursor (items.getLast?.map fun last =>
      (createdAt last, id last))) createdAt id invalidCursor where
  exists_iff items last hlast := by
    have hnext : (∃ text, nextTimeCursor (createdAt last) (id last) = .ok text) ↔
        (createdAt last).InUtc :=
      exists_nextTimeCursor_iff
    simp only [hlast, Option.map_some, lastTimeCursor, ← hnext, except_map_eq_ok, Option.some_inj,
      exists_eq_right]
  read_back items last text hlast htext := by
    simp only [hlast, Option.map_some, lastTimeCursor] at htext
    obtain ⟨printed, hprinted, rfl⟩ := except_map_eq_ok.1 htext
    exact parseTimeCursor_next hprinted
  total text := parseTimeCursor_cases invalidCursor text

/-- Following the cursors of the transactions of a user for the OCR, or of the notifications that
    the user sees, visits each of them once, in the order of their times, or the latest first. The
    cursors are read as what they were made of. -/
theorem lists_enumerate :
    (∀ (userId : UUID) (limit : ℕ) (d : CreditTransactions),
      1 ≤ limit → ∃ rs : List CreditTransactionRecord,
      (∀ r, r ∈ rs ↔ r ∈ d.rows ∧ r.userId = userId ∧ r.featureKey = ocrFeatureKey) ∧
      Paging.Enumerates (comesFirst CreditTransactionRecord.createdAt (·.id))
        (fun cursor => ListCreditTransactionsQueryUseCase.execute ⟨userId, cursor, limit⟩ d)
          (·.nextCursor)
        (·.transactions) (·.hasNext) (·.totalCount) (·.toListItem) limit rs) ∧
    (∀ (userId : UUID) (limit : ℕ) (d : Notifications.NotificationTables), 1 ≤ limit →
      ∃ rs : List Notifications.UserNotificationRecord,
      (∀ r, r ∈ rs ↔ r ∈ d.notifications.rows ∧ r.userId = userId ∧ (r.messageType = .marketing →
        ∃ s ∈ d.settings.rows, s.userId = userId ∧ s.marketingConsent = true)) ∧
      Paging.Enumerates (comesLast Notifications.UserNotificationRecord.createdAt (·.id))
        (fun cursor => Notifications.ListNotificationsQueryUseCase.execute
          ⟨userId, cursor, limit⟩ d) (·.nextCursor)
        (·.notifications) (·.hasNext) (·.totalCount) (·.toListItem) limit rs) ∧
    ReadsCursors ListCreditTransactionsQueryUseCase.parseCursor
      ListCreditTransactionsQueryUseCase.nextCursor
      (·.createdAt) (·.transactionId) ListCreditTransactionsQueryUseCase.invalidCursor ∧
    ReadsCursors Notifications.ListNotificationsQueryUseCase.parseCursor
      Notifications.ListNotificationsQueryUseCase.nextCursor
      (·.createdAt) (·.notificationId) Notifications.ListNotificationsQueryUseCase.invalidCursor := by
  refine ⟨fun userId limit d hlimit => ?_, fun userId limit d hlimit => ?_, readsCursors ..,
    readsCursors ..⟩
  · refine ⟨_, fun r => ?_, enumerates_transactions userId hlimit d⟩
    rw [(List.perm_insertionSort ..).mem_iff, ocrTransactions, List.mem_filter, decide_eq_true_eq]
  · refine ⟨_, fun r => ?_, Notifications.enumerates_notifications userId hlimit d⟩
    rw [(List.perm_insertionSort ..).mem_iff, Notifications.mem_visibleNotifications]

end

/-! ## Rows of one time -/

/-- Two results are those of which one comes before the other. -/
theorem eq_pair {α : Type} {le : α → α → Prop} {x y : α} {rs : List α} (hnodup : rs.Nodup)
    (hordered : rs.Pairwise le) (hmem : ∀ r, r ∈ rs ↔ r ∈ [x, y]) (hle : le x y)
    (hnot : ¬le y x) : rs = [x, y] := by
  have hne : x ≠ y := fun h => hnot (h ▸ hle)
  have hperm : rs.Perm [x, y] := (List.perm_ext_iff_of_nodup hnodup (by simpa using hne)).2 hmem
  refine hperm.eq_of_pairwise (fun a b ha hb hab hba => ?_) hordered (List.pairwise_pair.2 hle)
  rcases List.mem_pair.1 ((hmem a).1 ha) with rfl | rfl
  · rcases List.mem_pair.1 hb with rfl | rfl
    · rfl
    · exact absurd hba hnot
  · rcases List.mem_pair.1 hb with rfl | rfl
    · exact absurd hab hnot
    · rfl

@[reducible] def onlyUtc : TimeZones := ⟨fun _ _ _ _ => ⟨0, UtcOffset.zero_lt⟩⟩

/-- The time of all rows. -/
def mayMorning : Timestamp := ⟨⟨2026, 5, 4, by decide⟩, ⟨10, 20, 30, 0, by decide⟩⟩

/-- A transaction of user 1. -/
def tiedTransaction (n : ℕ) : CreditTransactionRecord :=
  { id := .ofNat n, userId := .ofNat 1, reason := .eventOcrAllowance, action := .grant,
    amount := ⟨1, CreditAmount.one_le_one⟩, source := none, idempotencyKey := none,
    featureKey := ocrFeatureKey, createdAt := mayMorning }

def tiedTransactions : CreditTransactions :=
  (Table.empty.insert (tiedTransaction 3)).insert (tiedTransaction 2)

theorem validate_nil : NotificationMetadata.validate [] = .ok () := rfl

/-- A notification of user 1. -/
def tiedNotification (n : ℕ) (messageType : NotificationMessageType) :
    Notifications.UserNotificationRecord where
  id := .ofNat n
  userId := .ofNat 1
  category := .benefit
  messageType := messageType
  kind := ⟨"coupon_arrived", by decide, by decide, by decide⟩
  title := ⟨"쿠폰 도착", by decide, by decide, by decide⟩
  message := ⟨"쿠폰이 도착했어요.", by decide, by decide, by decide⟩
  resourceType := none
  resourceId := none
  metadata := ⟨[], validate_nil⟩
  createdAt := mayMorning
  readAt := none
  resourcePair := rfl

/-- User 1 has given the marketing consent, and has two notifications. -/
def tiedNotifications : Notifications.NotificationTables where
  settings := Table.empty.insert ⟨.ofNat 1, true, true⟩
  notifications :=
    (Table.empty.insert (tiedNotification 2 .transactional)).insert (tiedNotification 3 .marketing)

/-- Of two rows of one time, each on a page of its own, the transaction with the less identity comes
    first, and the notification with the greater one. -/
theorem lists_enumerate_tied : letI := onlyUtc
    (∃ pages, Paging.follow (fun cursor =>
      some ((ListCreditTransactionsQueryUseCase.execute ⟨.ofNat 1, cursor, 1⟩
        tiedTransactions).map fun p => ([p], p.nextCursor))) 3 none = some (.ok pages) ∧
      pages.flatMap (·.transactions) =
        [(tiedTransaction 2).toListItem, (tiedTransaction 3).toListItem] ∧
      ∀ p ∈ pages, p.transactions.length ≤ 1 ∧ p.totalCount = 2) ∧
    ∃ pages, Paging.follow (fun cursor =>
      some ((Notifications.ListNotificationsQueryUseCase.execute ⟨.ofNat 1, cursor, 1⟩
        tiedNotifications).map fun p => ([p], p.nextCursor))) 3 none = some (.ok pages) ∧
      pages.flatMap (·.notifications) =
        [(tiedNotification 3 .marketing).toListItem, (tiedNotification 2 .transactional).toListItem] ∧
      ∀ p ∈ pages, p.notifications.length ≤ 1 ∧ p.totalCount = 2 := by
  let _ := onlyUtc
  obtain ⟨htransactions, hnotifications, -⟩ := lists_enumerate
  constructor
  · obtain ⟨rs, hmem, hnodup, hordered, pages, hpages, hrows, hpage⟩ :=
      htransactions (.ofNat 1) 1 tiedTransactions le_rfl
    have hstored : tiedTransactions.rows = [tiedTransaction 3, tiedTransaction 2] := rfl
    obtain rfl : rs = [tiedTransaction 2, tiedTransaction 3] := by
      refine eq_pair hnodup hordered (fun r => ?_) (by decide) (by decide)
      rw [hmem, hstored, (List.Perm.swap (tiedTransaction 2) (tiedTransaction 3) []).mem_iff,
        and_iff_left_iff_imp]
      intro hr
      rcases List.mem_pair.1 hr with rfl | rfl
      · exact ⟨rfl, rfl⟩
      · exact ⟨rfl, rfl⟩
    refine ⟨pages, hpages, hrows, fun p hp => ?_⟩
    obtain ⟨l, hl, hlength, hcount, -⟩ := hpage p hp
    rw [hl, List.length_map]
    exact ⟨hlength, hcount⟩
  · obtain ⟨rs, hmem, hnodup, hordered, pages, hpages, hrows, hpage⟩ :=
      hnotifications (.ofNat 1) 1 tiedNotifications le_rfl
    have hstored : tiedNotifications.notifications.rows =
        [tiedNotification 2 .transactional, tiedNotification 3 .marketing] := rfl
    obtain rfl : rs = [tiedNotification 3 .marketing, tiedNotification 2 .transactional] := by
      refine eq_pair hnodup hordered (fun r => ?_) (by decide) (by decide)
      rw [hmem, hstored,
        (List.Perm.swap (tiedNotification 3 .marketing) (tiedNotification 2 .transactional)
          []).mem_iff,
        and_iff_left_iff_imp]
      intro hr
      have hconsent : ∃ s ∈ tiedNotifications.settings.rows, s.userId = .ofNat 1 ∧
          s.marketingConsent = true :=
        ⟨_, List.mem_cons_self, rfl, rfl⟩
      rcases List.mem_pair.1 hr with rfl | rfl
      · exact ⟨rfl, fun _ => hconsent⟩
      · exact ⟨rfl, fun _ => hconsent⟩
    refine ⟨pages, hpages, hrows, fun p hp => ?_⟩
    obtain ⟨l, hl, hlength, hcount, -⟩ := hpage p hp
    rw [hl, List.length_map]
    exact ⟨hlength, hcount⟩

end Boat
