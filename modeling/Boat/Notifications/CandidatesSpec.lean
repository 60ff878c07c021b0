import Boat.Notifications.Candidates
import Mathlib.Data.List.Dedup

/-!
# Notifications: the candidates that are found

The loops over pages find the candidates of a due rule, each once: the receipts
`warrantyCandidate` says, or the users `reminderCandidate` says.

* `warrantyExpiryNotifications_perm`, `receiptReminderNotifications_perm`: what the loops find;
* `receiptActivity_eq`: what is known of the receipts of a user, up to a time.
-/

namespace Boat

variable {store : CandidateStore} {batchSize : ℤ} {due : DueNotificationRule}

/-! ## Pages -/

/-- Where there are more rows, there is a cursor. -/
theorem nextCursor_cut {α γ : Type} {message : String} {key : α → γ} {limit : ℕ} {found : List α}
    (hlimit : 1 ≤ limit) :
    nextCursor message (Paging.cut key limit found) = .ok (Paging.cut key limit found).next := by
  have h : (Paging.cut key limit found).next.isSome = (Paging.cut key limit found).hasNext :=
    Paging.isSome_next hlimit
  rw [nextCursor, ← h]
  rcases (Paging.cut key limit found).next with - | next
  · rfl
  · rfl

theorem ordinal_of_addDays {day day' : Day} {days : ℤ} (h : day.addDays days = .ok day') :
    day'.ordinal = day.ordinal + days := by
  unfold Day.addDays at h
  split at h
  · exact congrArg Day.ordinal (Except.ok.inj h).symm
  · cases h

theorem validateBatchSize_eq {message : String}
    (hbatch : 1 ≤ batchSize) : validateBatchSize message batchSize = [] :=
  if_neg (by omega)

theorem validate_receipts {offsetDays : ℤ} (hnonneg : 0 ≤ offsetDays) (hbatch : 1 ≤ batchSize) :
    ListReceiptsExpiringOnQuery.validate offsetDays batchSize = .ok () := by
  rw [ListReceiptsExpiringOnQuery.validate, validateBatchSize_eq hbatch,
    if_neg (by omega : ¬offsetDays < 0)]
  rfl

theorem validate_facts (hbatch : 1 ≤ batchSize) :
    ListUserRegistrationFactsQuery.validate batchSize = .ok () := by
  rw [ListUserRegistrationFactsQuery.validate, validateBatchSize_eq hbatch]
  rfl

theorem validate_activity (hbatch : 1 ≤ batchSize) :
    GetReceiptActivityForUsersQuery.validate batchSize = .ok () := by
  rw [GetReceiptActivityForUsersQuery.validate, validateBatchSize_eq hbatch]
  rfl

theorem bindInstant_eq {t : Instant} (h : HasUtc t) : bindInstant t = .ok () := if_pos h

/-- The receipts are read in the order of their ids. -/
theorem orders_receipts (p : ReceiptRow → Bool) : Paging.Orders
    (fun r q : ReceiptRow => r.id.number ≤ q.id.number)
    (fun c r => c.number < r.id.number) ReceiptRow.id (store.receipts.rows.filter p) where
  total r q := Nat.le_total ..
  trans _ _ _ := Nat.le_trans
  antisymm r hr q hq hrq hqr := List.inj_on_of_nodup_map store.receipts.nodup
    (List.mem_of_mem_filter hr)
    (List.mem_of_mem_filter hq) (UUID.number_inj (Nat.le_antisymm hrq hqr))
  after_iff r q := by
    rw [decide_eq_true_iff, Nat.not_le]

/-- The users are read in the order of their registration, and of their ids. -/
theorem orders_users (p : UserRow → Bool) : Paging.Orders
    (fun u v : UserRow => u.createdAt < v.createdAt ∨ u.createdAt = v.createdAt ∧
      u.id.number ≤ v.id.number)
    (fun c u => c.1 < u.createdAt ∨ u.createdAt = c.1 ∧ c.2.number < u.id.number) UserRow.cursor
    (store.users.rows.filter p) where
  total u v := by
    rcases lt_trichotomy u.createdAt v.createdAt with h | h | h
    · exact .inl (.inl h)
    · rcases Nat.le_total u.id.number v.id.number with hid | hid
      · exact .inl (.inr ⟨h, hid⟩)
      · exact .inr (.inr ⟨h.symm, hid⟩)
    · exact .inr (.inl h)
  trans u v w := by
    rintro (huv | ⟨huv, hid⟩) (hvw | ⟨hvw, hid'⟩)
    · exact .inl (huv.trans hvw)
    · exact .inl (hvw ▸ huv)
    · exact .inl (huv ▸ hvw)
    · exact .inr ⟨huv.trans hvw, hid.trans hid'⟩
  antisymm u hu v hv := by
    rintro (huv | ⟨huv, hid⟩) (hvu | ⟨hvu, hid'⟩)
    · exact absurd hvu huv.asymm
    · exact absurd hvu huv.ne'
    · exact absurd huv hvu.ne'
    · exact List.inj_on_of_nodup_map store.users.nodup (List.mem_of_mem_filter hu)
        (List.mem_of_mem_filter hv)
        (UUID.number_inj (Nat.le_antisymm hid hid'))
  after_iff u v := by
    rw [decide_eq_true_iff]
    simp only [UserRow.cursor, not_or, not_and, Nat.not_le]
    constructor
    · rintro (h | ⟨h, hid⟩)
      · exact ⟨h.asymm, fun h' => absurd h' h.ne'⟩
      · exact ⟨h.not_lt, fun _ => hid⟩
    · rintro ⟨h, hid⟩
      rcases lt_or_eq_of_le (not_lt.1 h) with hlt | heq
      · exact .inl hlt
      · exact .inr ⟨heq.symm, hid heq.symm⟩

theorem nodup_receipts (p : ReceiptRow → Bool) : (store.receipts.rows.filter p).Nodup :=
  store.receipts.nodup.of_map.filter _

theorem nodup_users (p : UserRow → Bool) : (store.users.rows.filter p).Nodup :=
  store.users.nodup.of_map.filter _

theorem mem_getExistingUserIds (store : CandidateStore) {userIds : List UUID} {userId : UUID}
    (h : userId ∈ userIds) :
    userId ∈ store.getExistingUserIds userIds ↔ ∃ u ∈ store.users.rows, u.id = userId := by
  simp [CandidateStore.getExistingUserIds, h]

/-! ## Receipts that expire -/

variable (store due)

/-- The notification of a receipt that expires `offsetDays` after the target date, if it is due:
    it has been registered before, by a user who exists. -/
def warrantyCandidate (offsetDays : ℤ) (r : ReceiptRow) : Option DueNotification :=
  if r.expiresOn.ordinal = due.targetDate.ordinal + offsetDays ∧
    r.createdAt < observationCutoffFor due ∧
      ∃ u ∈ store.users.rows, u.id = r.userId then
    some (warrantyExpiryNotification due r.userId r.id r.itemName r.subCategory)
  else none

variable {store due}

/-- A page of receipts: those of its rows that are due. -/
theorem warrantyExpiryNotifications_step {offsetDays : ℤ} {expiresOn : Day} (hnonneg : 0 ≤ offsetDays)
    (hday : due.targetDate.addDays offsetDays = .ok expiresOn)
    (hutc : HasUtc (observationCutoffFor due)) (hbatch : 1 ≤ batchSize) (cursor : Option UUID) :
    let page := Paging.page (fun r q : ReceiptRow => r.id.number ≤ q.id.number)
      (fun c r => c.number < r.id.number)
      ReceiptRow.id batchSize.toNat
      (store.receipts.rows.filter fun r =>
        r.expiresOn = expiresOn ∧ r.createdAt < observationCutoffFor due) cursor
    WarrantyExpiryNotifications.step store batchSize due offsetDays cursor =
      .ok (page.rows.filterMap (warrantyCandidate store due offsetDays), page.next) := by
  intro page
  have hread : store.listReceiptsExpiringOn due.targetDate offsetDays (observationCutoffFor due)
      batchSize cursor = .ok page := by
    rw [CandidateStore.listReceiptsExpiringOn, hday, bindInstant_eq hutc]
    rfl
  have hnext : nextCursor "만료 예정 영수증 조회 cursor가 누락되었습니다." page = .ok page.next :=
    nextCursor_cut (by omega)
  have hord := ordinal_of_addDays hday
  have hrows : ∀ r ∈ page.rows, r.expiresOn = expiresOn ∧ r.createdAt < observationCutoffFor due := by
    intro r hr
    have hr := List.mem_of_mem_filter
      ((List.perm_insertionSort ..).subset (List.mem_of_mem_take (List.mem_of_mem_take hr)))
    exact of_decide_eq_true (List.mem_filter.1 hr).2
  have hout : page.rows.filterMap (warrantyCandidate store due offsetDays) =
      page.rows.filterMap fun r =>
        if r.userId ∉ store.getExistingUserIds (page.rows.map (·.userId)) then none
        else some (warrantyExpiryNotification due r.userId r.id r.itemName r.subCategory) := by
    refine List.filterMap_congr fun r hr => ?_
    obtain ⟨hexpires, hcreated⟩ := hrows r hr
    have hexists := mem_getExistingUserIds store (List.mem_map_of_mem (f := (·.userId)) hr)
    rw [warrantyCandidate]
    by_cases hmem : r.userId ∈ store.getExistingUserIds (page.rows.map (·.userId))
    · rw [if_pos ⟨hexpires ▸ hord, hcreated, hexists.1 hmem⟩, if_neg (not_not.2 hmem)]
    · rw [if_neg fun h => hmem (hexists.2 h.2.2), if_pos hmem]
  rw [WarrantyExpiryNotifications.step, validate_receipts hnonneg hbatch, hread, hout]
  simp only [bind, Except.bind, hnext, pure, Except.pure]

/-- What does not pass a filter need not be filtered, if it is nothing anyway. -/
theorem filterMap_filter_of_none {α β : Type} {p : α → Bool} {f : α → Option β} {l : List α}
    (h : ∀ a ∈ l, p a = false → f a = none) : (l.filter p).filterMap f = l.filterMap f := by
  rw [List.filterMap_filter]
  refine List.filterMap_congr fun a ha => ?_
  by_cases hp : p a
  · rw [if_pos hp]
  · rw [if_neg hp, h a ha (Bool.eq_false_iff.2 hp)]

/-- A rule of warranties finds the receipts that are due. -/
theorem warrantyExpiryNotifications_perm {offsetDays : ℤ} {expiresOn : Day} {fuel : ℕ}
    (hoffset : due.rule.dayOffset = some offsetDays) (hnonneg : 0 ≤ offsetDays)
    (hday : due.targetDate.addDays offsetDays = .ok expiresOn)
    (hutc : HasUtc (observationCutoffFor due)) (hbatch : 1 ≤ batchSize)
    (hfuel : store.receipts.rows.length < fuel) :
    ∃ out, WarrantyExpiryNotifications.iterDueNotifications store batchSize due fuel = some
      (.ok out) ∧
      out.Perm (store.receipts.rows.filterMap (warrantyCandidate store due offsetDays)) := by
  obtain ⟨out, hout, hperm⟩ := Paging.follow_perm (orders_receipts _) (nodup_receipts _) (by omega)
    (fun cursor => ⟨_,
      congrArg some (warrantyExpiryNotifications_step hnonneg hday hutc hbatch cursor), .refl _⟩)
    ((List.length_filter_le ..).trans_lt hfuel)
  refine ⟨out, ?_, ?_⟩
  · rw [WarrantyExpiryNotifications.iterDueNotifications, hoffset]
    exact hout
  · rw [filterMap_filter_of_none] at hperm
    · exact hperm
    · intro r _ hr
      rw [decide_eq_false_iff_not] at hr
      rw [warrantyCandidate, if_neg]
      rintro ⟨hexpires, hcreated, -⟩
      exact hr ⟨Day.ext (hexpires.trans (ordinal_of_addDays hday).symm), hcreated⟩

/-! ## Receipts of a user -/

/-- The aggregate of a user with receipts: how many there are, and when the last one was
    registered. -/
theorem activityAggregate_eq_some {observedBefore : Instant} {userId : UUID}
    {aggregate : ReceiptActivityAggregate}
    (h : store.activityAggregate observedBefore userId = some aggregate) :
    aggregate.receiptCount = (store.receiptsOf observedBefore userId).length ∧
      (∃ r ∈ store.receiptsOf observedBefore userId, r.createdAt = aggregate.lastReceiptCreatedAt) ∧
      ∀ r ∈ store.receiptsOf observedBefore userId, r.createdAt ≤ aggregate.lastReceiptCreatedAt := by
  obtain ⟨last, hlast, rfl⟩ := Option.map_eq_some_iff.1 h
  obtain ⟨hmem, hle⟩ := List.max?_eq_some_iff.1 hlast
  exact ⟨rfl, List.mem_map.1 hmem, fun r hr => hle _ (List.mem_map_of_mem hr)⟩

theorem activityAggregate_eq_none {observedBefore : Instant} {userId : UUID}
    (h : store.activityAggregate observedBefore userId = none) :
    store.receiptsOf observedBefore userId = [] :=
  List.map_eq_nil_iff.1 (List.max?_eq_none_iff.1 (Option.map_eq_none_iff.1 h))

/-- What is known of the receipts of a user up to a time: how many there are, unless one of them
    is recent. -/
theorem receiptActivity_eq (store : CandidateStore) (observedBefore : Instant)
    (recentSince : Option Instant) (userId : UUID) :
    (receiptActivity userId (store.activityAggregate observedBefore userId) recentSince).map
      (·.receiptCount) =
      if ∃ r ∈ store.receiptsOf observedBefore userId, recentSince.any (· ≤ r.createdAt) then none
      else some (store.receiptsOf observedBefore userId).length := by
  rcases h : store.activityAggregate observedBefore userId with - | aggregate
  · rw [activityAggregate_eq_none h]
    simp [receiptActivity]
  · obtain ⟨hcount, ⟨r, hr, hlast⟩, hle⟩ := activityAggregate_eq_some h
    have hiff : (∃ r ∈ store.receiptsOf observedBefore userId, recentSince.any (· ≤ r.createdAt)) ↔
        recentSince.any (· ≤ aggregate.lastReceiptCreatedAt) := by
      constructor
      · rintro ⟨q, hq, hany⟩
        rcases recentSince with - | since
        · cases hany
        · exact decide_eq_true ((of_decide_eq_true hany).trans (hle q hq))
      · exact fun hany => ⟨r, hr, hlast ▸ hany⟩
    simp only [receiptActivity, hiff]
    split
    · rfl
    · rw [Option.map_some, hcount]

theorem userId_of_receiptActivity {userId : UUID} {aggregate : Option ReceiptActivityAggregate}
    {recentSince : Option Instant} {a : ReceiptActivity}
    (h : receiptActivity userId aggregate recentSince = some a) :
    a.userId = userId := by
  unfold receiptActivity at h
  split at h
  · rw [← Option.some.inj h]
  · split at h
    · cases h
    · rw [← Option.some.inj h]

/-- The activities of users, in the order of their ids. -/
def activities (store : CandidateStore) (observedBefore : Instant) (recentSince : Option Instant)
    (userIds : List UUID) : List ReceiptActivity :=
  (userIds.dedup.insertionSort fun u v => u.number ≤ v.number).filterMap fun u =>
    receiptActivity u (store.activityAggregate observedBefore u) recentSince

variable {observedBefore : Instant} {recentSince : Option Instant} {userIds : List UUID}

theorem of_mem_activities {a : ReceiptActivity}
    (h : a ∈ activities store observedBefore recentSince userIds) :
    receiptActivity a.userId (store.activityAggregate observedBefore a.userId) recentSince =
      some a := by
  obtain ⟨u, -, ha⟩ := List.mem_filterMap.1 h
  rw [userId_of_receiptActivity ha]
  exact ha

/-- The activities are read in the order of the users. -/
theorem orders_activities : Paging.Orders
    (fun a b : ReceiptActivity => a.userId.number ≤ b.userId.number)
    (fun c a => c.number < a.userId.number) ReceiptActivity.userId
    (activities store observedBefore recentSince userIds) where
  total a b := Nat.le_total ..
  trans _ _ _ := Nat.le_trans
  antisymm a ha b hb hab hba := by
    have h := of_mem_activities ha
    rw [UUID.number_inj (Nat.le_antisymm hab hba), of_mem_activities hb] at h
    exact (Option.some.inj h).symm
  after_iff a b := by
    rw [decide_eq_true_iff, Nat.not_le]

theorem nodup_activities : (activities store observedBefore recentSince userIds).Nodup := by
  refine List.Nodup.filterMap ?_ ((List.perm_insertionSort ..).nodup_iff.2 (List.nodup_dedup userIds))
  intro u v a hu hv
  exact (userId_of_receiptActivity hu).symm.trans (userId_of_receiptActivity hv)

/-- They are in this order already. -/
theorem insertionSort_activities :
    (activities store observedBefore recentSince userIds).insertionSort
      (fun a b => a.userId.number ≤ b.userId.number) =
      activities store observedBefore recentSince userIds := by
  refine List.Pairwise.insertionSort_eq ?_
  have : Std.Total fun u v : UUID => u.number ≤ v.number := ⟨fun _ _ => Nat.le_total ..⟩
  have : IsTrans UUID fun u v => u.number ≤ v.number := ⟨fun _ _ _ => Nat.le_trans⟩
  refine (List.pairwise_insertionSort
    (fun u v : UUID => u.number ≤ v.number) userIds.dedup).filterMap _ ?_
  intro u v huv a ha b hb
  rw [userId_of_receiptActivity ha, userId_of_receiptActivity hb]
  exact huv

theorem getReceiptActivityForUsers_eq (hutc : HasUtc observedBefore) (limit : ℤ)
    (cursor : Option UUID) :
    store.getReceiptActivityForUsers userIds limit recentSince observedBefore cursor =
      .ok (Paging.page (fun a b : ReceiptActivity => a.userId.number ≤ b.userId.number)
        (fun c a => c.number < a.userId.number) ReceiptActivity.userId limit.toNat
        (activities store observedBefore recentSince userIds) cursor) := by
  have hfound : (pageableUserIds userIds cursor).filterMap
      (fun u => receiptActivity u (store.activityAggregate observedBefore u) recentSince) =
      (activities store observedBefore recentSince userIds).filter fun a =>
        cursor.all (·.number < a.userId.number) := by
    rw [pageableUserIds, activities, List.filterMap_filter, List.filter_filterMap]
    refine List.filterMap_congr fun u _ => ?_
    rcases h : receiptActivity u (store.activityAggregate observedBefore u) recentSince with - | a
    · simp
    · rw [Option.filter_some, userId_of_receiptActivity h]
  rw [Paging.page, orders_activities.insertionSort_filter, insertionSort_activities,
    Paging.cut_take, ← hfound, CandidateStore.getReceiptActivityForUsers]
  by_cases h : pageableUserIds userIds cursor = []
  · simp only [h, if_true, List.filterMap_nil]
    rw [Paging.cut_of_le (Nat.zero_le _)]
  · simp only [h, if_false, bindInstant_eq hutc]
    rfl

/-- The activities of the users of a page are all found. -/
theorem activitiesFor_perm (store : CandidateStore) (hutc : HasUtc observedBefore)
    (recentSince : Option Instant) {facts : List UserRow} {fuel : ℕ}
    (hnodup : (facts.map (·.id)).Nodup) (hbatch : 1 ≤ batchSize) (hfuel : facts.length < fuel) :
    ∃ out, ReceiptReminderNotifications.activitiesFor store batchSize facts recentSince
      observedBefore fuel =
        some (.ok out) ∧
      out.Perm (facts.filterMap fun u =>
        receiptActivity u.id (store.activityAggregate observedBefore u.id) recentSince) := by
  by_cases hfacts : facts = []
  · exact ⟨[], by rw [ReceiptReminderNotifications.activitiesFor, if_pos hfacts], by rw [hfacts]; rfl⟩
  · have hstep : ∀ cursor,
      ReceiptReminderNotifications.activityStep store batchSize facts recentSince
        observedBefore cursor =
        .ok ((Paging.page (fun a b : ReceiptActivity => a.userId.number ≤ b.userId.number)
          (fun c a => c.number < a.userId.number) ReceiptActivity.userId batchSize.toNat
          (activities store observedBefore recentSince (facts.map (·.id))) cursor).rows.filterMap
            some,
        (Paging.page (fun a b : ReceiptActivity => a.userId.number ≤ b.userId.number)
          (fun c a => c.number < a.userId.number) ReceiptActivity.userId batchSize.toNat
          (activities store observedBefore recentSince (facts.map (·.id))) cursor).next) := by
      intro cursor
      rw [ReceiptReminderNotifications.activityStep, validate_activity hbatch,
        getReceiptActivityForUsers_eq hutc, List.filterMap_some]
      simp only [bind, Except.bind, Paging.page, nextCursor_cut (show 1 ≤ batchSize.toNat by omega),
        pure, Except.pure]
    have hperm :
      (activities store observedBefore recentSince (facts.map (·.id))).Perm (facts.filterMap fun u =>
        receiptActivity u.id (store.activityAggregate observedBefore u.id) recentSince) := by
      rw [activities, hnodup.dedup]
      refine ((List.perm_insertionSort ..).filterMap _).trans ?_
      rw [List.filterMap_map]
      rfl
    obtain ⟨out, hout, hall⟩ := Paging.follow_perm orders_activities nodup_activities (by omega)
      (fun cursor => ⟨_, congrArg some (hstep cursor), .refl _⟩)
      (show (activities store observedBefore recentSince (facts.map (·.id))).length < fuel by
        rw [hperm.length_eq]
        exact (List.length_filterMap_le ..).trans_lt hfuel)
    rw [List.filterMap_some] at hall
    exact ⟨out, by rw [ReceiptReminderNotifications.activitiesFor, if_neg hfacts]; exact hout,
      hall.trans hperm⟩

/-! ## Users a reminder is due for -/

/-- The days after a registration on which a reminder is due: from the first day on, at intervals. -/
def Cadence (rule : NotificationScheduleRule) (days : ℤ) : Prop :=
  let first := rule.firstDelayDays.getD (rule.lookbackDays.getD 0)
  let interval := rule.repeatIntervalDays.getD 0
  first ≤ days ∧ if interval = 0 then days = first else interval ∣ days - first

instance (rule : NotificationScheduleRule) (days : ℤ) : Decidable (Cadence rule days) :=
  inferInstanceAs (Decidable (rule.firstDelayDays.getD (rule.lookbackDays.getD 0) ≤ days ∧
    if rule.repeatIntervalDays.getD 0 = 0 then
      days = rule.firstDelayDays.getD (rule.lookbackDays.getD 0)
    else rule.repeatIntervalDays.getD 0 ∣ days - rule.firstDelayDays.getD (rule.lookbackDays.getD 0)))

theorem matchesJoinCadence_iff {rule : NotificationScheduleRule} {days : ℤ} :
    matchesJoinCadence rule days ↔ Cadence rule days := by
  have hfirst : firstDueDay rule = rule.firstDelayDays.getD (rule.lookbackDays.getD 0) := by
    rw [firstDueDay]
    rcases rule.firstDelayDays with - | first
    · rcases rule.lookbackDays with - | lookback
      · rfl
      · rfl
    · rfl
  rw [matchesJoinCadence, Cadence, ← hfirst, ← not_lt]
  by_cases hlt : days < firstDueDay rule
  · simp [hlt]
  · rcases rule.repeatIntervalDays with - | interval
    · simp [hlt]
    · by_cases hzero : interval = 0
      · simp [hlt, hzero]
      · simp only [hlt, hzero, if_false, not_false_eq_true, true_and, Option.getD_some,
          decide_eq_true_eq]
        exact Int.dvd_iff_emod_eq_zero.symm

/-- The beginning of the day on which receipts are recent, for the users without recent ones. -/
def lookbackStart (due : DueNotificationRule) : Instant :=
  (due.targetDate.ordinal - due.rule.lookbackDays.getD 0 - epochOrdinal) * dayMicros - systemOffset

/-- The receipts of a user that make a reminder due: any, none at all, or some, but no recent ones. -/
def ReceiptsMatch (store : CandidateStore) (due : DueNotificationRule)
    (userId : UUID) : ScheduleRuleTargetKind → Prop
  | .engagementAllUser => True
  | .engagementUnregisteredReceipt => store.receiptsOf (observationCutoffFor due) userId = []
  | .engagementInactiveReceipt => store.receiptsOf (observationCutoffFor due) userId ≠ [] ∧
      ∀ r ∈ store.receiptsOf (observationCutoffFor due) userId, r.createdAt < lookbackStart due
  | .warrantyReceipt => False

instance (userId : UUID) : ∀ kind, Decidable (ReceiptsMatch store due userId kind)
  | .engagementAllUser => inferInstanceAs (Decidable True)
  | .engagementUnregisteredReceipt => inferInstanceAs (Decidable (_ = []))
  | .engagementInactiveReceipt => inferInstanceAs (Decidable (_ ≠ [] ∧ ∀ r ∈ _, _))
  | .warrantyReceipt => inferInstanceAs (Decidable False)

/-- The receipts that the reminder of a user counts. -/
def reminderCount (store : CandidateStore) (due : DueNotificationRule) (userId : UUID) : Option ℕ :=
  if due.rule.targetKind = .engagementAllUser then none
  else some (store.receiptsOf (observationCutoffFor due) userId).length

/-- The reminder of a user, if it is due. -/
def reminderCandidate (store : CandidateStore) (due : DueNotificationRule)
    (u : UserRow) : Option DueNotification :=
  if u.createdAt < observationCutoffFor due ∧
    Cadence due.rule (registrationAgeDaysOn due.targetDate u.createdAt) ∧
      ReceiptsMatch store due u.id due.rule.targetKind then
    some (receiptReminderNotification due u.id (reminderCount store due u.id))
  else none

/-- The first receipts that are recent, where the rule can be executed. -/
theorem receiptActivitySinceFor_eq {since : Option Instant}
    (h : receiptActivitySinceFor due = .ok since) :
    due.rule.targetKind = .engagementUnregisteredReceipt ∧ since = none ∨
      due.rule.targetKind = .engagementInactiveReceipt ∧ since = some (lookbackStart due) := by
  unfold receiptActivitySinceFor at h
  split at h
  · next hkind => exact .inl ⟨hkind, (Except.ok.inj h).symm⟩
  · next hkind =>
    split at h
    · cases h
    · next lookback hlookback =>
      rcases hday : due.targetDate.addDays (-lookback) with e | day
      · rw [hday] at h
        cases h
      · rw [hday] at h
        refine .inr ⟨hkind, (Except.ok.inj h).symm.trans (congrArg some ?_)⟩
        rw [lookbackStart, hlookback, Day.combine, ordinal_of_addDays hday]
        simp [LocalTime.min, sub_eq_add_neg]
  · cases h
  · cases h

/-- The activities that match are those of users whose receipts match. -/
theorem matchesReceiptActivity_iff {since : Option Instant}
    (hsince : receiptActivitySinceFor due = .ok since) (userId : UUID) :
    (¬(∃ r ∈ store.receiptsOf (observationCutoffFor due) userId, since.any (· ≤ r.createdAt)) ∧
      matchesReceiptActivity due.rule.targetKind
        (store.receiptsOf (observationCutoffFor due) userId).length) ↔
      ReceiptsMatch store due userId due.rule.targetKind := by
  rcases receiptActivitySinceFor_eq hsince with ⟨hkind, rfl⟩ | ⟨hkind, rfl⟩
  · rw [hkind]
    simp [ReceiptsMatch, matchesReceiptActivity]
  · rw [hkind]
    simp only [ReceiptsMatch, matchesReceiptActivity, decide_eq_true_eq, List.length_pos_iff,
      Option.any_some]
    rw [and_comm]
    refine and_congr_right fun _ => ?_
    constructor
    · exact fun h r hr => not_le.1 fun hle => h ⟨r, hr, hle⟩
    · rintro h ⟨r, hr, hle⟩
      exact (h r hr).not_ge hle

/-- What a reminder says of the activity of a user, if there is one. -/
theorem bind_receiptActivity (userId : UUID) (since : Option Instant) :
    (receiptActivity userId (store.activityAggregate (observationCutoffFor due) userId) since).bind
        (ReceiptReminderNotifications.ofActivity due) =
    if ¬(∃ r ∈ store.receiptsOf (observationCutoffFor due) userId, since.any (· ≤ r.createdAt)) ∧
        matchesReceiptActivity due.rule.targetKind
          (store.receiptsOf (observationCutoffFor due) userId).length then
      some (receiptReminderNotification due userId
        (some (store.receiptsOf (observationCutoffFor due) userId).length))
    else none := by
  have h := receiptActivity_eq store (observationCutoffFor due) since userId
  rcases ha : receiptActivity userId
    (store.activityAggregate (observationCutoffFor due) userId) since with - | a
  · rw [ha, Option.map_none] at h
    split at h
    · next hrecent => rw [if_neg fun hn => hn.1 hrecent, Option.bind_none]
    · cases h
  · rw [ha, Option.map_some] at h
    split at h
    · cases h
    · next hrecent =>
      rw [Option.bind_some, ReceiptReminderNotifications.ofActivity, userId_of_receiptActivity ha,
        Option.some.inj h]
      simp only [hrecent, not_false_eq_true, true_and]

/-- The users of a page that match the cadence: those whose receipts match, too. -/
theorem notificationsForFacts_perm (store : CandidateStore)
    (hutc : HasUtc (observationCutoffFor due)) {facts : List UserRow} {fuel : ℕ}
    (hsince : due.rule.targetKind ≠ .engagementAllUser → (receiptActivitySinceFor due).isOk)
    (hnodup : (facts.map (·.id)).Nodup) (hbatch : 1 ≤ batchSize) (hfuel : facts.length < fuel)
    (hfacts : ∀ u ∈ facts, u.createdAt < observationCutoffFor due ∧
      Cadence due.rule (registrationAgeDaysOn due.targetDate u.createdAt)) :
    ∃ out, ReceiptReminderNotifications.notificationsForFacts store batchSize due facts
      (observationCutoffFor due) fuel =
      some (.ok out) ∧ out.Perm (facts.filterMap (reminderCandidate store due)) := by
  have hcandidate : ∀ u ∈ facts, reminderCandidate store due u =
      if ReceiptsMatch store due u.id due.rule.targetKind then
        some (receiptReminderNotification due u.id (reminderCount store due u.id))
      else none := by
    intro u hu
    obtain ⟨hcreated, hcadence⟩ := hfacts u hu
    simp only [reminderCandidate, hcreated, hcadence, true_and]
  rw [List.filterMap_congr hcandidate]
  by_cases hall : due.rule.targetKind = .engagementAllUser
  · refine ⟨facts.map fun u => receiptReminderNotification due u.id none, ?_, ?_⟩
    · rw [ReceiptReminderNotifications.notificationsForFacts, hall]
    · simp only [hall, ReceiptsMatch, if_true, reminderCount]
      rw [← List.filterMap_eq_map]
      rfl
  · obtain ⟨since, hsince⟩ := isOk_iff.1 (hsince hall)
    obtain ⟨activities, hactivities, hperm⟩ :=
      activitiesFor_perm store hutc since hnodup hbatch hfuel
    refine ⟨activities.filterMap (ReceiptReminderNotifications.ofActivity due), ?_,
      (hperm.filterMap _).trans (.of_eq ?_)⟩
    · rw [ReceiptReminderNotifications.notificationsForFacts]
      rcases receiptActivitySinceFor_eq hsince with ⟨hkind, -⟩ | ⟨hkind, -⟩
      · simp only [hkind, hsince, hactivities, Option.map_some, Except.map]
      · simp only [hkind, hsince, hactivities, Option.map_some, Except.map]
    · rw [List.filterMap_filterMap]
      refine List.filterMap_congr fun u _ => ?_
      rw [bind_receiptActivity, reminderCount, if_neg hall]
      exact if_congr (matchesReceiptActivity_iff hsince u.id) rfl rfl

/-- The users of a page. -/
theorem listRegistrationFacts_eq (store : CandidateStore) (hutc : HasUtc observedBefore)
    (cursor : Option (Instant × UUID)) :
    store.listRegistrationFacts batchSize observedBefore cursor = .ok (Paging.page
      (fun u v => u.createdAt < v.createdAt ∨ u.createdAt = v.createdAt ∧ u.id.number ≤ v.id.number)
      (fun c u => c.1 < u.createdAt ∨ u.createdAt = c.1 ∧ c.2.number < u.id.number) UserRow.cursor
      batchSize.toNat (store.users.rows.filter fun u => u.createdAt < observedBefore) cursor) := by
  rw [CandidateStore.listRegistrationFacts, bindInstant_eq hutc]
  rfl

/-- A rule of reminders finds the users it is due for. -/
theorem receiptReminderNotifications_perm {fuel : ℕ} (hutc : HasUtc (observationCutoffFor due))
    (hsince : due.rule.targetKind ≠ .engagementAllUser → (receiptActivitySinceFor due).isOk)
    (hbatch : 1 ≤ batchSize) (hfuel : store.users.rows.length < fuel) :
    ∃ out, ReceiptReminderNotifications.iterDueNotifications store batchSize due fuel =
      some (.ok out) ∧
      out.Perm (store.users.rows.filterMap (reminderCandidate store due)) := by
  have hstep : ∀ cursor,
      let page := Paging.page (fun u v : UserRow =>
          u.createdAt < v.createdAt ∨ u.createdAt = v.createdAt ∧ u.id.number ≤ v.id.number)
        (fun c u => c.1 < u.createdAt ∨ u.createdAt = c.1 ∧ c.2.number < u.id.number) UserRow.cursor
        batchSize.toNat (store.users.rows.filter fun u =>
          u.createdAt < observationCutoffFor due) cursor
      ∃ out, ReceiptReminderNotifications.step store batchSize due fuel cursor =
        some (.ok (out, page.next)) ∧
        out.Perm (page.rows.filterMap (reminderCandidate store due)) := by
    intro cursor page
    -- The rows of a page are some of the users registered before.
    have hsub : page.rows.Subperm (store.users.rows.filter fun u =>
      u.createdAt < observationCutoffFor due) :=
      Paging.subperm_page
    simp only [ReceiptReminderNotifications.step, validate_facts hbatch,
      listRegistrationFacts_eq store hutc]
    change ∃ out,
      (ReceiptReminderNotifications.notificationsForFacts store batchSize due
        (page.rows.filter _) _ fuel).map
      (·.map (·, page.next)) = _ ∧ _
    generalize page = page at hsub ⊢
    have hdue : ∀ u : UserRow,
        matchesJoinCadence due.rule (registrationAgeDaysOn due.targetDate u.createdAt) = false →
          reminderCandidate store due u = none := by
      intro u hu
      rw [reminderCandidate, if_neg]
      rintro ⟨-, hcadence, -⟩
      rw [← matchesJoinCadence_iff, hu] at hcadence
      cases hcadence
    obtain ⟨rows, hrows, hsublist⟩ := hsub
    have hnodup : (page.rows.map (·.id)).Nodup :=
      ((hrows.map _).nodup_iff).1
        (((hsublist.trans List.filter_sublist).map _).nodup store.users.nodup)
    have hlength := hrows.length_eq ▸ (hsublist.trans List.filter_sublist).length_le
    have hcreated : ∀ u ∈ page.rows, u.createdAt < observationCutoffFor due := by
      intro u hu
      exact of_decide_eq_true (List.mem_filter.1 (hsublist.subset (hrows.symm.subset hu))).2
    have hfacts : ∀ u ∈ page.rows.filter fun u =>
        matchesJoinCadence due.rule (registrationAgeDaysOn due.targetDate u.createdAt),
        u.createdAt < observationCutoffFor due ∧
          Cadence due.rule (registrationAgeDaysOn due.targetDate u.createdAt) := by
      intro u hu
      obtain ⟨hu, hcadence⟩ := List.mem_filter.1 hu
      exact ⟨hcreated u hu, matchesJoinCadence_iff.1 hcadence⟩
    obtain ⟨out, hout, hperm⟩ := notificationsForFacts_perm store hutc hsince
      ((List.filter_sublist.map _).nodup hnodup)
      hbatch ((List.length_filter_le ..).trans_lt (hlength.trans_lt hfuel)) hfacts
    rw [filterMap_filter_of_none fun u _ => hdue u] at hperm
    exact ⟨out, by rw [hout]; rfl, hperm⟩
  obtain ⟨out, hout, hperm⟩ := Paging.follow_perm (orders_users _) (nodup_users _) (by omega) hstep
    ((List.length_filter_le ..).trans_lt hfuel)
  refine ⟨out, hout, ?_⟩
  rwa [filterMap_filter_of_none] at hperm
  intro u _ hu
  rw [decide_eq_false_iff_not] at hu
  rw [reminderCandidate, if_neg fun h => hu h.1]

end Boat
