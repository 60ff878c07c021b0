import Boat.Notifications.Scheduler
import Boat.Notifications.UseCases

/-!
# Notifications: runs of the scheduler

A run of the scheduler as a program of a session (`create_due_notifications/use_case.py`), which
reads its candidates page by page, and commits or rolls back between them.

The rules, the users and the receipts are tables that no session of the module writes: a run is
given what its statements see of them, which may change from one to the next (`ScheduledRun`). A
loop over pages goes on for at most `fuel` pages.
-/

namespace Boat.Notifications

open ReadCommitted

/-- A run: its command, and what it takes from its environment. Rules, pages of a rule, statements of
    a page and candidates of a rule are numbered. -/
structure ScheduledRun where
  command : CreateDueNotificationsCommand
  /-- `list_all`. -/
  rules : List NotificationScheduleRule
  /-- What a statement sees of users and receipts: of the rule, of its page. -/
  sees : ℕ → ℕ → ℕ → CandidateStore
  /-- What the creation for a candidate takes: of the rule. -/
  stamps : ℕ → ℕ → CreationStamps
  fuel : ℕ

/-! ## Candidates -/

namespace CreateDueNotificationsCommandUseCase

/-- `_create_notification`. -/
def createNotification (dryRun : Bool) (stamps : CreationStamps) (notification : DueNotification) :
    NotificationsTx DueNotificationAction := do
  if dryRun then return .dryRun
  let reserved ← SqlAlchemyScheduleOccurrenceRepository.reserve notification.occurrence
  if !reserved then return .skipped
  let result ← tryCatch
    (do return some (← NotificationCreator.create .outbox notification.command stamps)) fun e =>
    match e with
    | .domain (.validation _) => do
      NotificationsTx.rollback
      return none
    | e => throw e
  match result with
  | none => return .failed
  | some (.created created) =>
    SqlAlchemyScheduleOccurrenceRepository.bindNotification notification.occurrence created.id
    NotificationsTx.commit
    return .created
  | some .skippedMarketingConsent =>
    NotificationsTx.rollback
    return .skipped

/-- The candidates of a page, in the loop of `_create_for_rule`. -/
def createAll (dryRun : Bool) (stamps : ℕ → CreationStamps) : List DueNotification → RuleTotals →
    NotificationsTx RuleTotals
  | [], totals => return totals
  | notification :: notifications, totals => do
    let action ← createNotification dryRun (stamps totals.candidates) notification
    createAll dryRun stamps notifications (totals.add action)

/-! ## Pages -/

/-- An exception of the domain. -/
def ofExcept {α : Type} (e : Except DomainError α) : NotificationsTx α :=
  Prog.ofExcept (e.mapError .domain)

/-- A query of users and receipts. -/
def read {α : Type} (statement : NotificationsStatement) (a : α) : NotificationsTx α :=
  NotificationsTx.select statement fun _ => a

section Loops

variable (command : CreateDueNotificationsCommand) (stamps : ℕ → CreationStamps)
  (due : DueNotificationRule)

/-- The loop over pages of `WarrantyExpiryNotifications.iter_due_notifications`. -/
def warrantyExpiryNotifications (sees : ℕ → ℕ → CandidateStore) (offsetDays : ℤ) :
    ℕ → ℕ → Option UUID → RuleTotals → NotificationsTx RuleTotals
  | 0, _, _, _ => throw .unfinished
  | fuel + 1, n, cursor, totals => do
    ofExcept (ListReceiptsExpiringOnQuery.validate offsetDays command.batchSize)
    let page ← read .listReceiptsExpiringOn
      ((sees n 0).listReceiptsExpiringOn due.targetDate offsetDays
        (observationCutoffFor due) command.batchSize cursor)
    let page ← ofExcept page
    let existingUserIds ← read .getExistingUserIds
      ((sees n 1).getExistingUserIds (page.rows.map (·.userId)))
    let candidates := page.rows.filterMap fun r =>
      if r.userId ∉ existingUserIds then none
      else some (warrantyExpiryNotification due r.userId r.id r.itemName r.subCategory)
    let totals ← createAll command.dryRun stamps candidates totals
    let next ← ofExcept (nextCursor "만료 예정 영수증 조회 cursor가 누락되었습니다." page)
    match next with
    | none => return totals
    | some cursor => warrantyExpiryNotifications sees offsetDays fuel (n + 1) (some cursor) totals

/-- The loop over pages of `_activities_for`. -/
def activitiesFor (sees : ℕ → CandidateStore) (facts : List UserRow) (recentSince : Option Instant) :
    ℕ → ℕ → Option UUID → RuleTotals → NotificationsTx RuleTotals
  | 0, _, _, _ => throw .unfinished
  | fuel + 1, n, cursor, totals => do
    ofExcept (GetReceiptActivityForUsersQuery.validate command.batchSize)
    let page ← read .getReceiptActivityForUsers
      ((sees n).getReceiptActivityForUsers (facts.map (·.id))
      command.batchSize recentSince (observationCutoffFor due) cursor)
    let page ← ofExcept page
    let totals ← createAll command.dryRun stamps
      (page.rows.filterMap (ReceiptReminderNotifications.ofActivity due)) totals
    let next ← ofExcept (nextCursor "영수증 활동 조회 cursor가 누락되었습니다." page)
    match next with
    | none => return totals
    | some cursor => activitiesFor sees facts recentSince fuel (n + 1) (some cursor) totals

/-- `_notifications_for_facts`. -/
def notificationsForFacts (sees : ℕ → CandidateStore) (facts : List UserRow) (fuel : ℕ)
    (totals : RuleTotals) :
    NotificationsTx RuleTotals := do
  match due.rule.targetKind with
  | .engagementAllUser =>
    createAll command.dryRun stamps (facts.map fun u =>
      receiptReminderNotification due u.id none) totals
  | .engagementUnregisteredReceipt | .engagementInactiveReceipt =>
    let recentSince ← ofExcept (receiptActivitySinceFor due)
    if facts = [] then return totals
    activitiesFor command stamps due sees facts recentSince fuel 1 none totals
  | .warrantyReceipt => return totals

/-- The loop over pages of `ReceiptReminderNotifications.iter_due_notifications`. -/
def receiptReminderNotifications (sees : ℕ → ℕ → CandidateStore) :
    ℕ → ℕ → Option (Instant × UUID) → RuleTotals → NotificationsTx RuleTotals
  | 0, _, _, _ => throw .unfinished
  | fuel + 1, n, cursor, totals => do
    ofExcept (ListUserRegistrationFactsQuery.validate command.batchSize)
    let page ← read .listRegistrationFacts
      ((sees n 0).listRegistrationFacts command.batchSize (observationCutoffFor due) cursor)
    let page ← ofExcept page
    let dueFacts := page.rows.filter fun u =>
      matchesJoinCadence due.rule (registrationAgeDaysOn due.targetDate u.createdAt)
    let totals ← notificationsForFacts command stamps due (sees n) dueFacts fuel totals
    match page.next with
    | none => return totals
    | some cursor => receiptReminderNotifications sees fuel (n + 1) (some cursor) totals

/-- `_due_notifications`, and the loop of `_create_for_rule`. -/
def dueNotifications (sees : ℕ → ℕ → CandidateStore) (fuel : ℕ)
    (totals : RuleTotals) : NotificationsTx RuleTotals :=
  match due.rule.targetKind with
  | .warrantyReceipt =>
    match due.rule.dayOffset with
    | none => return totals
    | some offsetDays =>
      warrantyExpiryNotifications command stamps due sees offsetDays fuel 0 none totals
  | .engagementUnregisteredReceipt | .engagementInactiveReceipt | .engagementAllUser =>
    receiptReminderNotifications command stamps due sees fuel 0 none totals

/-- `_create_for_rule`. -/
def createForRule (sees : ℕ → ℕ → CandidateStore)
    (fuel : ℕ) : NotificationsTx CreateDueNotificationRuleSummary := do
  let totals ← dueNotifications command stamps due sees fuel ⟨0, 0, 0, 0⟩
  return ⟨totals, due.rule.campaignKey.value⟩

end Loops

/-! ## Rules -/

/-- `_create_notifications`, of the rules from the `n`-th on. -/
def createNotifications (run : ScheduledRun) :
    ℕ → List NotificationScheduleRule → NotificationsTx (List CreateDueNotificationRuleSummary)
  | _, [] => return []
  | n, rule :: rules => do
    if run.command.campaignKey.any (rule.campaignKey.value ≠ ·) then
    createNotifications run (n + 1) rules
    else
      let due ← ofExcept (resolveDueNotificationRule rule run.command.now run.command.targetDate)
      match due with
      | none => createNotifications run (n + 1) rules
      | some due =>
        let summary ← createForRule run.command (run.stamps n) due (run.sees n) run.fuel
        return summary :: (← createNotifications run (n + 1) rules)

/-- `execute`. -/
def execute (run : ScheduledRun) : NotificationsTx CreateDueNotificationsResult := do
  let summaries ← tryCatch
    (do
      let rules ← read .listScheduleRules run.rules
      createNotifications run 0 rules)
    fun e => do
      NotificationsTx.rollback
      throw e
  return .of summaries run.command.dryRun

end CreateDueNotificationsCommandUseCase

end Boat.Notifications
