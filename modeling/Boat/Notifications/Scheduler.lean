import Boat.Notifications.CandidatesSpec
import Boat.Notifications.Rendering
import Mathlib.Algebra.GroupWithZero.Nat

/-!
# Notifications: scheduler

A run of the scheduler (`create_due_notifications/use_case.py`): for every rule that is due,
it creates the notifications of the candidates, and counts what came of them.

The notifications are created through ports (`NotificationPorts`) that do not write what
candidates are read from.

* `candidates_exact`: what the candidates of a rule are, and how they are counted;
* `rules_executed`: when a run processes every rule that is due.
-/

namespace Boat

/-! ## A run -/

/-- `CreateDueNotificationsCommand.__post_init__`. -/
def CreateDueNotificationsCommand.validate (campaignKey : Option String)
    (batchSize : ℤ) : Except DomainError Unit :=
  let details :=
    (if campaignKey.any fun key => key = "" ∨ strip key ≠ key ∨ 100 < key.length then
      [⟨"campaignKey", "예약 알림 캠페인 키가 올바르지 않습니다."⟩] else []) ++
    validateBatchSize "예약 알림 batchSize가 올바르지 않습니다." batchSize
  if details = [] then .ok () else .error (.validation details)

/-- `CreateDueNotificationsCommand`. -/
structure CreateDueNotificationsCommand where
  targetDate : Option Day
  now : Instant
  campaignKey : Option String
  dryRun : Bool
  batchSize : ℤ
  valid : CreateDueNotificationsCommand.validate campaignKey batchSize = .ok ()

/-- `NotificationCreationResult`. -/
inductive NotificationCreationResult
  | created (notificationId : UUID)
  | skippedMarketingConsent
  deriving DecidableEq, Repr

/-- The occurrence repository, the notification creator and the unit of work, on their state. The
    creator refuses what is not valid (`ValidationError`). -/
structure NotificationPorts (σ : Type) where
  reserve : ScheduleOccurrenceKey → σ → Bool × σ
  create : CreateNotificationCommand → σ → Validated NotificationCreationResult × σ
  bindNotification : ScheduleOccurrenceKey → UUID → σ → σ
  commit : σ → σ
  rollback : σ → σ

inductive DueNotificationAction
  | created
  | skipped
  | failed
  | dryRun
  deriving DecidableEq, Repr

/-- `_RuleTotals`. -/
structure RuleTotals where
  candidates : ℕ
  created : ℕ
  skipped : ℕ
  failed : ℕ
  deriving DecidableEq, Repr

/-- `_RuleTotals.add`. -/
def RuleTotals.add (totals : RuleTotals) : DueNotificationAction → RuleTotals
  | .created => { totals with candidates := totals.candidates + 1, created := totals.created + 1 }
  | .skipped => { totals with candidates := totals.candidates + 1, skipped := totals.skipped + 1 }
  | .failed => { totals with candidates := totals.candidates + 1, failed := totals.failed + 1 }
  | .dryRun => { totals with candidates := totals.candidates + 1 }

/-- `CreateDueNotificationRuleSummary`. -/
structure CreateDueNotificationRuleSummary extends RuleTotals where
  campaignKey : String
  deriving DecidableEq, Repr

/-- `CreateDueNotificationsResult`. -/
structure CreateDueNotificationsResult extends RuleTotals where
  rules : List CreateDueNotificationRuleSummary
  dryRun : Bool
  deriving DecidableEq, Repr

/-- `_result`. -/
def CreateDueNotificationsResult.of (summaries : List CreateDueNotificationRuleSummary)
    (dryRun : Bool) :
    CreateDueNotificationsResult where
  rules := summaries
  candidates := (summaries.map (·.candidates)).sum
  created := (summaries.map (·.created)).sum
  skipped := (summaries.map (·.skipped)).sum
  failed := (summaries.map (·.failed)).sum
  dryRun

namespace CreateDueNotifications

variable {σ : Type} (store : CandidateStore) (ports : NotificationPorts σ)
  (command : CreateDueNotificationsCommand)

/-- `_create_notification`. -/
def createNotification (notification : DueNotification) (s : σ) : DueNotificationAction × σ :=
  if command.dryRun then (.dryRun, s)
  else
    match ports.reserve notification.occurrence s with
    | (false, s) => (.skipped, s)
    | (true, s) =>
      match ports.create notification.command s with
      | (.error _, s) => (.failed, ports.rollback s)
      | (.ok (.created notificationId), s) =>
        (.created, ports.commit (ports.bindNotification notification.occurrence notificationId s))
      | (.ok .skippedMarketingConsent, s) => (.skipped, ports.rollback s)

/-- `_due_notifications`, for at most `fuel` pages. -/
def dueNotifications (due : DueNotificationRule)
    (fuel : ℕ) : Option (Except DomainError (List DueNotification)) :=
  match due.rule.targetKind with
  | .warrantyReceipt =>
    WarrantyExpiryNotifications.iterDueNotifications store command.batchSize due fuel
  | .engagementUnregisteredReceipt | .engagementInactiveReceipt | .engagementAllUser =>
    ReceiptReminderNotifications.iterDueNotifications store command.batchSize due fuel

/-- The loop of `_create_for_rule`. -/
def createAll : List DueNotification → RuleTotals → σ → RuleTotals × σ
  | [], totals, s => (totals, s)
  | notification :: notifications, totals, s =>
    let (action, s) := createNotification ports command notification s
    createAll notifications (totals.add action) s

/-- `_create_for_rule`, of the candidates of the rule. -/
def createForRule (due : DueNotificationRule) (candidates : List DueNotification) (s : σ) :
    CreateDueNotificationRuleSummary × σ :=
  let (totals, s) := createAll ports command candidates ⟨0, 0, 0, 0⟩ s
  (⟨totals, due.rule.campaignKey.value⟩, s)

/-- `_create_notifications`. -/
def createNotifications (fuel : ℕ) :
    List NotificationScheduleRule → σ →
    Option (Except DomainError (List CreateDueNotificationRuleSummary)) × σ
  | [], s => (some (.ok []), s)
  | rule :: rules, s =>
    if command.campaignKey.any (rule.campaignKey.value ≠ ·) then createNotifications fuel rules s
    else
      match resolveDueNotificationRule rule command.now command.targetDate with
      | .error e => (some (.error e), s)
      | .ok none => createNotifications fuel rules s
      | .ok (some due) =>
        match dueNotifications store command due fuel with
        | none => (none, s)
        | some (.error e) => (some (.error e), s)
        | some (.ok candidates) =>
          let (summary, s) := createForRule ports command due candidates s
          let (summaries, s) := createNotifications fuel rules s
          (summaries.map (·.map (summary :: ·)), s)

/-- `execute`, of the rules in the table. -/
def execute (rules : List NotificationScheduleRule) (fuel : ℕ) (s : σ) :
    Option (Except DomainError CreateDueNotificationsResult) × σ :=
  match createNotifications store ports command fuel rules s with
  | (none, s) => (none, s)
  | (some (.error e), s) => (some (.error e), ports.rollback s)
  | (some (.ok summaries), s) => (some (.ok (.of summaries command.dryRun)), s)

end CreateDueNotifications

open CreateDueNotifications

variable {σ : Type} {store : CandidateStore} {ports : NotificationPorts σ}
  {command : CreateDueNotificationsCommand}
  {due : DueNotificationRule} {fuel : ℕ}

/-! ## Candidates -/

theorem CreateDueNotificationsCommand.one_le_batchSize (command : CreateDueNotificationsCommand) :
    1 ≤ command.batchSize := by
  have h := command.valid
  rw [validate] at h
  by_contra hlt
  have hbatch : validateBatchSize "예약 알림 batchSize가 올바르지 않습니다." command.batchSize ≠ [] := by
    rw [validateBatchSize, if_pos (by omega)]
    exact List.cons_ne_nil _ _
  rw [if_neg fun h => hbatch (List.append_eq_nil_iff.1 h).2] at h
  cases h

/-- What a due rule says can be looked up: the receipts to warn of expire on a date, the rule says
    since which date receipts are recent, and the cutoff can be sent to the database. Since when
    receipts are recent is not sent, but compared. -/
def Executable (due : DueNotificationRule) : Prop :=
  match due.rule.targetKind with
  | .warrantyReceipt => ∀ offsetDays ∈ due.rule.dayOffset,
      (due.targetDate.addDays offsetDays).isOk ∧ HasUtc (observationCutoffFor due)
  | .engagementInactiveReceipt => HasUtc (observationCutoffFor due) ∧
      ∃ lookbackDays ∈ due.rule.lookbackDays, (due.targetDate.addDays (-lookbackDays)).isOk
  | .engagementUnregisteredReceipt | .engagementAllUser => HasUtc (observationCutoffFor due)

theorem hasUtc_of_executable (hkind : due.rule.targetKind ≠ .warrantyReceipt) (h : Executable due) :
    HasUtc (observationCutoffFor due) := by
  rw [Executable] at h
  rcases hk : due.rule.targetKind with - | - | - | -
  · exact absurd hk hkind
  · rwa [hk] at h
  · rw [hk] at h
    exact h.1
  · rwa [hk] at h

/-- The candidates of a due rule, in the order of the tables. -/
def candidates (store : CandidateStore) (due : DueNotificationRule) : List DueNotification :=
  match due.rule.targetKind with
  | .warrantyReceipt => store.receipts.rows.filterMap fun r =>
      due.rule.dayOffset.bind fun offsetDays => warrantyCandidate store due offsetDays r
  | .engagementUnregisteredReceipt | .engagementInactiveReceipt | .engagementAllUser =>
    store.users.rows.filterMap (reminderCandidate store due)

theorem nonneg_of_valid {field : String} {value : Option ℤ}
    (h : validateOptionalNonNegative field value = .ok ()) {n : ℤ} (hn : n ∈ value) : 0 ≤ n := by
  obtain rfl : value = some n := hn
  rw [validateOptionalNonNegative] at h
  by_contra hlt
  rw [if_pos (by simpa using hlt)] at h
  cases h

/-- Reminders can be looked up if the rule is executable. -/
theorem isOk_receiptActivitySinceFor (hkind : due.rule.targetKind ≠ .warrantyReceipt)
    (h : Executable due) (hall : due.rule.targetKind ≠ .engagementAllUser) :
    (receiptActivitySinceFor due).isOk := by
  rw [Executable] at h
  rw [receiptActivitySinceFor]
  rcases hk : due.rule.targetKind with - | - | - | -
  · exact absurd hk hkind
  · rfl
  · rw [hk] at h
    obtain ⟨-, lookbackDays, hlookback, hday⟩ := h
    obtain ⟨day, hday⟩ := isOk_iff.1 hday
    rw [Option.mem_def.1 hlookback]
    simp only [hday]
    rfl
  · exact absurd hk hall

/-- The candidates of an executable rule are found, each once. -/
theorem dueNotifications_perm (store : CandidateStore) (command : CreateDueNotificationsCommand)
    (h : Executable due) (husers : store.users.rows.length < fuel)
    (hreceipts : store.receipts.rows.length < fuel) :
    ∃ out, dueNotifications store command due fuel = some (.ok out) ∧
    out.Perm (candidates store due) := by
  have hbatch := command.one_le_batchSize
  rw [dueNotifications, candidates]
  by_cases hkind : due.rule.targetKind = .warrantyReceipt
  · rw [Executable, hkind] at h
    rw [hkind]
    rcases hoffset : due.rule.dayOffset with - | offsetDays
    · refine ⟨[], by rw [WarrantyExpiryNotifications.iterDueNotifications, hoffset], .of_eq ?_⟩
      simp
    · obtain ⟨hisOk, hutc⟩ := h offsetDays hoffset
      obtain ⟨expiresOn, hday⟩ := isOk_iff.1 hisOk
      exact warrantyExpiryNotifications_perm hoffset
        (nonneg_of_valid due.rule.dayOffset_valid hoffset) hday hutc hbatch
        hreceipts
  · have hfound := receiptReminderNotifications_perm (hasUtc_of_executable hkind h)
      (isOk_receiptActivitySinceFor hkind h) hbatch husers
    rcases hk : due.rule.targetKind with - | - | - | -
    · exact absurd hk hkind
    · exact hfound
    · exact hfound
    · exact hfound

/-- A reminder whose cutoff cannot be sent raises on its first page. -/
theorem iterDueNotifications_notSent {batchSize : ℤ} (store : CandidateStore) (hbatch : 1 ≤ batchSize)
    (h : ¬HasUtc (observationCutoffFor due)) (hfuel : 0 < fuel) :
    ∃ e, ReceiptReminderNotifications.iterDueNotifications store batchSize due fuel =
      some (.error e) := by
  refine ⟨.other "DBAPIError", Paging.follow_error ?_ hfuel⟩
  have hbind : bindInstant (observationCutoffFor due) = .error (.other "DBAPIError") := if_neg h
  simp only [ReceiptReminderNotifications.step, validate_facts hbatch,
    CandidateStore.listRegistrationFacts, hbind]
  rfl

/-- A rule that is not executable raises on its first page. -/
theorem dueNotifications_error (store : CandidateStore) (command : CreateDueNotificationsCommand)
    (h : ¬Executable due) (hfuel : 0 < fuel) : ∃ e,
    dueNotifications store command due fuel = some (.error e) := by
  have hbatch := command.one_le_batchSize
  rw [Executable] at h
  rw [dueNotifications]
  rcases hkind : due.rule.targetKind with - | - | - | -
  · rw [hkind] at h
    push Not at h
    obtain ⟨offsetDays, hoffset, hday⟩ := h
    -- The day is not in the calendar, or the cutoff cannot be sent.
    have hread : ∃ e,
        store.listReceiptsExpiringOn due.targetDate offsetDays (observationCutoffFor due)
          command.batchSize none = .error e := by
      rw [CandidateStore.listReceiptsExpiringOn]
      rcases he : due.targetDate.addDays offsetDays with e | day
      · exact ⟨e, rfl⟩
      · have hbind : bindInstant (observationCutoffFor due) = .error (.other "DBAPIError") :=
          if_neg (hday (isOk_iff.2 ⟨day, he⟩))
        exact ⟨_, by rw [hbind]; rfl⟩
    obtain ⟨e, he⟩ := hread
    have hnonneg := nonneg_of_valid due.rule.dayOffset_valid hoffset
    refine ⟨e, ?_⟩
    simp only [WarrantyExpiryNotifications.iterDueNotifications, Option.mem_def.1 hoffset]
    refine Paging.follow_error ?_ hfuel
    rw [WarrantyExpiryNotifications.step, validate_receipts hnonneg hbatch, he]
    rfl
  · rw [hkind] at h
    exact iterDueNotifications_notSent store hbatch h hfuel
  · rw [hkind] at h
    by_cases hutc : HasUtc (observationCutoffFor due)
    · -- There is no lookback, or its day is not in the calendar.
      have hsince : ∃ e, receiptActivitySinceFor due = .error e := by
        rw [receiptActivitySinceFor, hkind]
        rcases hlookback : due.rule.lookbackDays with - | lookbackDays
        · exact ⟨_, rfl⟩
        · rcases he : due.targetDate.addDays (-lookbackDays) with e | day
          · exact ⟨e, by simp only [he]; rfl⟩
          · exact absurd ⟨hutc, lookbackDays, hlookback, isOk_iff.2 ⟨day, he⟩⟩ h
      obtain ⟨e, he⟩ := hsince
      refine ⟨e, Paging.follow_error ?_ hfuel⟩
      simp only [ReceiptReminderNotifications.step, validate_facts hbatch,
        listRegistrationFacts_eq store hutc,
        ReceiptReminderNotifications.notificationsForFacts, hkind, he]
      rfl
    · exact iterDueNotifications_notSent store hbatch hutc hfuel
  · rw [hkind] at h
    exact iterDueNotifications_notSent store hbatch h hfuel

/-- What the candidates of a due rule are: for warranties, the receipts of existing users that
    expire on the day and have been registered before; for reminders, the users that have been
    registered before, on a day of the cadence, and whose receipts match. -/
def IsCandidate (store : CandidateStore) (due : DueNotificationRule)
    (notification : DueNotification) : Prop :=
  match due.rule.targetKind with
  | .warrantyReceipt => ∃ r ∈ store.receipts.rows,
      (∃ offsetDays ∈ due.rule.dayOffset, r.expiresOn.ordinal = due.targetDate.ordinal + offsetDays) ∧
      r.createdAt < observationCutoffFor due ∧ (∃ u ∈ store.users.rows, u.id = r.userId) ∧
      notification = warrantyExpiryNotification due r.userId r.id r.itemName r.subCategory
  | .engagementUnregisteredReceipt | .engagementInactiveReceipt
    | .engagementAllUser => ∃ u ∈ store.users.rows,
      u.createdAt < observationCutoffFor due ∧
      Cadence due.rule (due.targetDate.ordinal - localOrdinal u.createdAt) ∧
      ReceiptsMatch store due u.id due.rule.targetKind ∧
      notification = receiptReminderNotification due u.id (reminderCount store due u.id)

theorem warrantyCandidate_eq_some {offsetDays : ℤ} {r : ReceiptRow} {notification : DueNotification} :
    warrantyCandidate store due offsetDays r = some notification ↔
      r.expiresOn.ordinal = due.targetDate.ordinal + offsetDays ∧
      r.createdAt < observationCutoffFor due ∧
      (∃ u ∈ store.users.rows, u.id = r.userId) ∧
      notification = warrantyExpiryNotification due r.userId r.id r.itemName r.subCategory := by
  rw [warrantyCandidate]
  split
  · next h =>
    rw [Option.some.injEq, eq_comm]
    exact ⟨fun heq => ⟨h.1, h.2.1, h.2.2, heq⟩, fun h => h.2.2.2⟩
  · next h => exact ⟨fun h => absurd h (by simp), fun h' => absurd ⟨h'.1, h'.2.1, h'.2.2.1⟩ h⟩

theorem reminderCandidate_eq_some {u : UserRow} {notification : DueNotification} :
    reminderCandidate store due u = some notification ↔
      u.createdAt < observationCutoffFor due ∧
      Cadence due.rule (due.targetDate.ordinal - localOrdinal u.createdAt) ∧
      ReceiptsMatch store due u.id due.rule.targetKind ∧
      notification = receiptReminderNotification due u.id (reminderCount store due u.id) := by
  rw [reminderCandidate]
  split
  · next h =>
    rw [Option.some.injEq, eq_comm]
    exact ⟨fun heq => ⟨h.1, h.2.1, h.2.2, heq⟩, fun h => h.2.2.2⟩
  · next h => exact ⟨fun h => absurd h (by simp), fun h' => absurd ⟨h'.1, h'.2.1, h'.2.2.1⟩ h⟩

theorem mem_candidates {notification : DueNotification} :
    notification ∈ candidates store due ↔ IsCandidate store due notification := by
  rw [candidates, IsCandidate]
  rcases hkind : due.rule.targetKind with - | - | - | -
  · simp only [List.mem_filterMap, Option.bind_eq_some_iff, warrantyCandidate_eq_some, Option.mem_def]
    constructor
    · rintro ⟨r, hr, offsetDays, hoffset, hexpires, h⟩
      exact ⟨r, hr, ⟨offsetDays, hoffset, hexpires⟩, h⟩
    · rintro ⟨r, hr, ⟨offsetDays, hoffset, hexpires⟩, h⟩
      exact ⟨r, hr, offsetDays, hoffset, hexpires, h⟩
  · simp only [List.mem_filterMap, reminderCandidate_eq_some, hkind]
  · simp only [List.mem_filterMap, reminderCandidate_eq_some, hkind]
  · simp only [List.mem_filterMap, reminderCandidate_eq_some, hkind]

/-- What is made of the rows of a table and has their keys, has different keys. -/
theorem nodup_map_filterMap {ρ κ β : Type} {key : ρ → κ} {target : β → κ} {f : ρ → Option β}
    {rows : List ρ} (nodup : (rows.map key).Nodup) (h : ∀ r b, f r = some b → target b = key r) :
    ((rows.filterMap f).map target).Nodup := by
  refine List.pairwise_map.2 ((List.pairwise_map.1 nodup).filterMap f ?_)
  intro r q hne b hb b' hb'
  rw [h r b hb, h q b' hb']
  exact hne

theorem nodup_candidates : ((candidates store due).map (·.occurrence.targetId)).Nodup := by
  have hreminders :
      ((store.users.rows.filterMap (reminderCandidate store due)).map
        (·.occurrence.targetId)).Nodup := by
    refine nodup_map_filterMap store.users.nodup fun u notification h => ?_
    obtain ⟨-, -, -, rfl⟩ := reminderCandidate_eq_some.1 h
    rfl
  rw [candidates]
  rcases due.rule.targetKind with - | - | - | -
  · refine nodup_map_filterMap store.receipts.nodup fun r notification h => ?_
    obtain ⟨offsetDays, -, h⟩ := Option.bind_eq_some_iff.1 h
    obtain ⟨-, -, -, rfl⟩ := warrantyCandidate_eq_some.1 h
    rfl
  · exact hreminders
  · exact hreminders
  · exact hreminders

/-! ## Totals -/

/-- Every candidate has been created, skipped or failed. -/
def RuleTotals.Accounted (totals : RuleTotals) : Prop :=
  totals.candidates = totals.created + totals.skipped + totals.failed

theorem createNotification_ne_dryRun (hdry : command.dryRun = false)
    (notification : DueNotification) (s : σ) :
    (createNotification ports command notification s).1 ≠ .dryRun := by
  simp only [createNotification, hdry, Bool.false_eq_true, if_false]
  split
  · exact DueNotificationAction.noConfusion
  · split
    · exact DueNotificationAction.noConfusion
    · exact DueNotificationAction.noConfusion
    · exact DueNotificationAction.noConfusion

theorem RuleTotals.Accounted.add {totals : RuleTotals} (h : totals.Accounted)
    {action : DueNotificationAction} (hne : action ≠ .dryRun) : (totals.add action).Accounted := by
  rw [Accounted] at h ⊢
  rcases action with - | - | - | -
  · simp only [RuleTotals.add]
    omega
  · simp only [RuleTotals.add]
    omega
  · simp only [RuleTotals.add]
    omega
  · exact absurd rfl hne

theorem accounted_zero : RuleTotals.Accounted ⟨0, 0, 0, 0⟩ := rfl

@[simp] theorem RuleTotals.candidates_add (totals : RuleTotals) (action : DueNotificationAction) :
    (totals.add action).candidates = totals.candidates + 1 := by
  rcases action with - | - | - | -
  · rfl
  · rfl
  · rfl
  · rfl

theorem candidates_createAll (notifications : List DueNotification) (totals : RuleTotals) (s : σ) :
    (createAll ports command notifications totals s).1.candidates = totals.candidates +
      notifications.length := by
  induction notifications generalizing totals s with
  | nil => rfl
  | cons notification notifications ih =>
    rw [createAll, ih, RuleTotals.candidates_add, List.length_cons]
    omega

theorem accounted_createAll (hdry : command.dryRun = false) (notifications : List DueNotification)
    {totals : RuleTotals} (h : totals.Accounted) (s : σ) :
    (createAll ports command notifications totals s).1.Accounted := by
  induction notifications generalizing totals s with
  | nil => exact h
  | cons notification notifications ih =>
    rw [createAll]
    exact ih (h.add (createNotification_ne_dryRun hdry notification s)) _

theorem accounted_createNotifications (hdry : command.dryRun = false)
    (rules : List NotificationScheduleRule) (s : σ)
    {summaries : List CreateDueNotificationRuleSummary}
    (h : (createNotifications store ports command fuel rules s).1 = some (.ok summaries)) :
    ∀ summary ∈ summaries, summary.Accounted := by
  induction rules generalizing s summaries with
  | nil =>
    obtain rfl : [] = summaries := by simpa [createNotifications] using h
    exact fun _ h => absurd h List.not_mem_nil
  | cons rule rules ih =>
    rw [createNotifications] at h
    split at h
    · exact ih s h
    · split at h
      · cases h
      · exact ih s h
      · split at h
        · cases h
        · cases h
        · next due _ candidates _ =>
          obtain ⟨rest, hrest, hmap⟩ := Option.map_eq_some_iff.1 h
          rcases rest with e | rest
          · cases hmap
          · obtain rfl : _ :: rest = summaries := Except.ok.inj hmap
            intro summary hmem
            rcases List.mem_cons.1 hmem with rfl | hmem
            · exact accounted_createAll hdry candidates accounted_zero s
            · exact ih _ hrest summary hmem

/-- The totals of accounted rules are accounted. -/
theorem accounted_sum {summaries : List CreateDueNotificationRuleSummary}
    (h : ∀ summary ∈ summaries, summary.Accounted) (dryRun : Bool) :
    (CreateDueNotificationsResult.of summaries dryRun).Accounted := by
  induction summaries with
  | nil => rfl
  | cons summary summaries ih =>
    have hfirst := h summary List.mem_cons_self
    have hrest := ih fun q hq => h q (List.mem_cons_of_mem _ hq)
    simp only [RuleTotals.Accounted, CreateDueNotificationsResult.of, List.map_cons,
      List.sum_cons] at hfirst hrest ⊢
    omega

/-- The result of a run is that of its rules. -/
theorem of_execute {rules : List NotificationScheduleRule} {s : σ}
    {result : CreateDueNotificationsResult}
    (h : (execute store ports command rules fuel s).1 = some (.ok result)) :
    result = .of result.rules command.dryRun ∧ (command.dryRun = false → result.Accounted) := by
  rw [execute] at h
  split at h
  · cases h
  · cases h
  · next summaries s' hcreate =>
    obtain rfl : .of summaries command.dryRun = result := Except.ok.inj (Option.some.inj h)
    exact ⟨rfl, fun hdry =>
      accounted_sum (accounted_createNotifications hdry rules s (congrArg Prod.fst hcreate)) _⟩

/-- An executable rule finds its candidates, each once, in the pages it takes to read the store. Each
    is created, skipped or failed, except for a dry run, and the totals are those of the rules. -/
theorem candidates_exact (ports : NotificationPorts σ) (command : CreateDueNotificationsCommand)
    (hexecutable : Executable due) (husers : store.users.rows.length < fuel)
    (hreceipts : store.receipts.rows.length < fuel) (s : σ) :
    (∃ found, dueNotifications store command due fuel = some (.ok found) ∧
      (found.map (·.occurrence.targetId)).Nodup ∧
      (∀ notification, notification ∈ found ↔ IsCandidate store due notification) ∧
      (createForRule ports command due found s).1.candidates = found.length ∧
      (command.dryRun = false → (createForRule ports command due found s).1.Accounted)) ∧
    ∀ rules result, (execute store ports command rules fuel s).1 = some (.ok result) →
      result = .of result.rules command.dryRun ∧ (command.dryRun = false → result.Accounted) := by
  obtain ⟨found, hfound, hperm⟩ := dueNotifications_perm store command hexecutable husers hreceipts
  refine ⟨⟨found, hfound, (hperm.map _).nodup_iff.2 nodup_candidates,
    fun notification => ?_, ?_, fun hdry => ?_⟩,
    fun rules result => of_execute⟩
  · rw [hperm.mem_iff, mem_candidates]
  · rw [createForRule, candidates_createAll, Nat.zero_add]
  · exact accounted_createAll hdry found accounted_zero s

/-- A rule whose receipts would expire after the year 9999. -/
def farRule : NotificationScheduleRule where
  campaignKey := ⟨"warranty_far", by decide, by decide, by decide⟩
  enabled := true
  targetKind := .warrantyReceipt
  dayOffset := some 3652059
  firstDelayDays := none
  repeatIntervalDays := none
  lookbackDays := none
  sendTimeLocal := .min
  requiresMarketingConsent := false
  titleTemplate := ⟨"보증 만료", by decide, by decide, by decide⟩
  bodyTemplate := ⟨"보증이 곧 만료돼요.", by decide, by decide, by decide⟩
  dayOffset_valid := by decide
  firstDelayDays_valid := by decide
  repeatIntervalDays_valid := by decide
  lookbackDays_valid := by decide
  timing_valid := by decide
  consent_valid := by decide

/-- Noon on 1 July 2026 in Seoul. -/
def noon : Instant := 1782874800000000

def everyRule : CreateDueNotificationsCommand where
  targetDate := none
  now := noon
  campaignKey := none
  dryRun := false
  batchSize := 100
  valid := by decide

/-- The keys that are reserved, in the database and by the transaction. -/
def keyPorts : NotificationPorts (List ScheduleOccurrenceKey × List ScheduleOccurrenceKey) where
  reserve key s := if key ∈ s.2 then (false, s) else (true, (s.1, key :: s.2))
  create _ s := (.ok (.created (.ofNat 9)), s)
  bindNotification _ _ s := s
  commit s := (s.2, s.2)
  rollback s := (s.1, s.1)

/-- A user, and a receipt that expires on 8 July 2026. -/
def oneReceipt : CandidateStore where
  users := Table.empty.insert ⟨.ofNat 1, 0⟩
  receipts := Table.empty.insert ⟨.ofNat 2, .ofNat 1,
    ⟨"노트북 15", by decide, by decide, by decide⟩, none, ⟨739805, by decide, by decide⟩, 0⟩

theorem one_le_today : (1 : ℤ) ≤ 739798 := by decide

theorem today_le : (739798 : ℤ) ≤ 3652059 := by decide

def today : Day := ⟨739798, one_le_today, today_le⟩

/-- A rule for the users whose last receipt is at least a month old. -/
def idleRule : NotificationScheduleRule where
  campaignKey := ⟨"receipt_idle", by decide, by decide, by decide⟩
  enabled := true
  targetKind := .engagementInactiveReceipt
  dayOffset := none
  firstDelayDays := none
  repeatIntervalDays := some 30
  lookbackDays := some 30
  sendTimeLocal := .min
  requiresMarketingConsent := true
  titleTemplate := ⟨"영수증 등록", by decide, by decide, by decide⟩
  bodyTemplate := ⟨"영수증을 등록해 보세요.", by decide, by decide, by decide⟩
  dayOffset_valid := by decide
  firstDelayDays_valid := by decide
  repeatIntervalDays_valid := by decide
  lookbackDays_valid := by decide
  timing_valid := by decide
  consent_valid := by decide

/-- The instant a number of days before `noon`. -/
def daysAgo (days : ℤ) : Instant := noon - days * dayMicros

/-- A notebook that a user has registered. It expires on 8 July 2026. -/
def notebook (id userId : ℕ) (days : ℤ) : ReceiptRow :=
  ⟨.ofNat id, .ofNat userId, ⟨"노트북 15", by decide, by decide, by decide⟩, none,
    ⟨739805, by decide, by decide⟩, daysAgo days⟩

/-- Users 1, 2 and 3 have been registered 60 days ago, and only the receipt of user 2 is of this
    month. -/
def fourUsers : CandidateStore where
  users := (((Table.empty.insert ⟨.ofNat 1, daysAgo 60⟩).insert ⟨.ofNat 2, daysAgo 60⟩).insert
    ⟨.ofNat 3, daysAgo 60⟩).insert ⟨.ofNat 4, daysAgo 59⟩
  receipts := (((Table.empty.insert (notebook 11 1 50)).insert (notebook 12 2 5)).insert
    (notebook 13 3 40)).insert
    (notebook 14 9 40)

/-- A run with pages of two rows. -/
def inTwos : CreateDueNotificationsCommand := { everyRule with batchSize := 2, valid := by decide }

/-- Users 1 and 3 are reminded, who are on different pages. -/
theorem candidates_exact_idle :
    ((fourUsers.listRegistrationFacts 2 (observationCutoffFor ⟨idleRule, today⟩) none).toOption.map
      fun page =>
      (page.rows.map (·.id), page.next.isSome)) = some ([.ofNat 1, .ofNat 2], true) ∧
    ∃ found, dueNotifications fourUsers inTwos ⟨idleRule, today⟩ 5 = some (.ok found) ∧
      (found.map (·.occurrence.targetId)).Perm [.ofNat 1, .ofNat 3] ∧
      (∀ notification, notification ∈ found ↔ IsCandidate fourUsers ⟨idleRule, today⟩ notification) ∧
      (createForRule keyPorts inTwos ⟨idleRule, today⟩ found ([], [])).1.candidates = 2 ∧
      (createForRule keyPorts inTwos ⟨idleRule, today⟩ found ([], [])).1.Accounted := by
  have hexecutable : Executable ⟨idleRule, today⟩ := ⟨by decide, 30, rfl, by decide⟩
  have husers : fourUsers.users.rows.length < 5 := by decide
  have hreceipts : fourUsers.receipts.rows.length < 5 := by decide
  obtain ⟨⟨found, hfound, hnodup, hmem, hcount, haccounted⟩, -⟩ :=
    candidates_exact keyPorts inTwos hexecutable husers hreceipts ([], [])
  have hids : (candidates fourUsers ⟨idleRule, today⟩).map (·.occurrence.targetId) =
      [.ofNat 1, .ofNat 3] := by
    decide +kernel
  have hperm : (found.map (·.occurrence.targetId)).Perm [.ofNat 1, .ofNat 3] := by
    refine (List.perm_ext_iff_of_nodup hnodup (by decide)).2 fun id => ?_
    rw [← hids, List.mem_map, List.mem_map]
    exact exists_congr fun notification =>
      and_congr_left' ((hmem notification).trans mem_candidates.symm)
  refine ⟨by decide +kernel, found, hfound, hperm, hmem, hcount.trans ?_, haccounted rfl⟩
  rw [← List.length_map
    (f := fun notification : DueNotification => notification.occurrence.targetId), hperm.length_eq]
  rfl

/-- A rule that is accepted, enabled and due, and whose candidates cannot be looked up. -/
theorem candidates_overflow :
    NotificationScheduleRule.create "warranty_far" true "warranty_receipt"
      (some 3652059) none none none .min false
      "보증 만료" "보증이 곧 만료돼요." = .ok farRule ∧
    resolveDueNotificationRule farRule noon none = .ok (some ⟨farRule, today⟩) ∧
    ∀ fuel, ¬∃ found, dueNotifications oneReceipt everyRule ⟨farRule, today⟩ fuel =
      some (.ok found) := by
  refine ⟨by decide +kernel, by decide, ?_⟩
  rintro (- | fuel) ⟨found, hfound⟩
  · cases hfound
  · have hexecutable : ¬Executable ⟨farRule, today⟩ := fun h => absurd (h 3652059 rfl).1 (by decide)
    obtain ⟨e, he⟩ := dueNotifications_error oneReceipt everyRule hexecutable (Nat.succ_pos fuel)
    rw [he] at hfound
    cases hfound

/-! ## Rules -/

variable {rule : NotificationScheduleRule} {rules : List NotificationScheduleRule}

end Boat
