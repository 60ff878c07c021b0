import Boat.Notifications.Commits
import Boat.ReadCommitted.Commands

/-!
# Notifications: requests commit what they say

The programs of requests meet the protocol `notifications`: whenever one of them commits, in
whatever order the statements of all of them are executed, the change is the one of
`NotificationRequest.Commits`.

* `wp_getSettingsForUpdate`: settings that are locked stay in force, also if they have no row yet;
* `wp_createNotification`: a candidate is committed with all its rows, or leaves nothing.
-/

namespace Boat.Notifications

open ReadCommitted NotificationsDatabase

variable {ι : Type} {request : ι → NotificationRequest} {i : ι} {d d' : NotificationsDatabase}
  {w : NotificationsDatabase → NotificationsDatabase} {ks : List NotificationsLock}

/-! ## Entries -/

theorem hasEntry_settings {userId : UUID} :
    d.hasEntry (.primaryKey (.settings userId)) = false ↔ d.settings.find userId = none := by
  rw [hasEntry_eq_false, Table.find_eq_none]
  simp [NotificationSettings.entries, UserPushToken.entries, ScheduleOccurrence.entries,
    notificationEntries, eq_comm]

theorem hasEntry_occurrence {key : ScheduleOccurrenceKey} :
    d.hasEntry (.primaryKey (.occurrence key)) = false ↔ d.occurrences.find key = none := by
  rw [hasEntry_eq_false, Table.find_eq_none]
  simp [NotificationSettings.entries, UserPushToken.entries, ScheduleOccurrence.entries,
    notificationEntries, eq_comm]

theorem hasEntry_notification {id : UUID} :
    d.hasEntry (.primaryKey (.notification id)) = false ↔ d.notifications.find id = none := by
  rw [hasEntry_eq_false, Table.find_eq_none]
  simp [NotificationSettings.entries, UserPushToken.entries, ScheduleOccurrence.entries,
    notificationEntries, eq_comm]

/-! ## Settings -/

/-- The locked settings of a user: a row, or the defaults, which the session has inserted. -/
def Locked (userId : UUID) (settings : NotificationSettings)
    (u : NotificationsDatabase → NotificationsDatabase) (ks : List NotificationsLock)
    (d : NotificationsDatabase) : Prop :=
  (u = id ∧ settings ∈ d.settings.rows ∧ settings.userId = userId ∧ .row (.settings userId) ∈ ks) ∨
    (u = insertSettings (.create userId) ∧ settings = .create userId ∧ d.settings.find userId = none ∧
      .entry (.primaryKey (.settings userId)) ∈ ks)

variable {userId : UUID} {settings : NotificationSettings}
  {u : NotificationsDatabase → NotificationsDatabase}

/-- Locked settings stay locked. -/
theorem Locked.interf (h : Locked userId settings u ks d) {ms : List NotificationsLock}
    (hks : ks ⊆ ms) (hi : (notifications request).Interf i ms d d') :
    Locked userId settings u ms d' := by
  rcases h with ⟨hu, hmem, rfl, hlock⟩ | ⟨hu, hsettings, hnone, hlock⟩
  · exact .inl ⟨hu, hi.kept (hks hlock) _ (.settings settings) hmem, rfl, hks hlock⟩
  · refine .inr ⟨hu, hsettings, ?_, hks hlock⟩
    exact hasEntry_settings.1 (hi.kept (hks hlock) _ (.entry _) (hasEntry_settings.2 hnone))

/-- Locked settings are in force. -/
theorem Locked.getSettings (h : Locked userId settings u ks d) : d.getSettings userId = settings := by
  rcases h with ⟨-, hmem, rfl, -⟩ | ⟨-, rfl, hnone, -⟩
  · exact getSettings_of_mem hmem
  · exact getSettings_of_find_eq_none hnone

theorem Locked.settingsKept (h : Locked userId settings u ks d) : SettingsKept d (u d) := by
  rcases h with ⟨rfl, -, -, -⟩ | ⟨rfl, -, hnone, -⟩
  · exact settingsKept_of_eq rfl
  · exact settingsKept_insertSettings hnone

/-- Locked settings with a consent are a row. -/
theorem Locked.eq_id (h : Locked userId settings u ks d)
    (hconsent : settings.marketingConsent = true) : u = id := by
  rcases h with ⟨rfl, -, -, -⟩ | ⟨-, rfl, -, -⟩
  · rfl
  · cases hconsent

/-- A user with a row has one from then on. -/
theorem rows_of_commits {r : NotificationRequest} (h : r.Commits d d') {q : NotificationSettings}
    (hq : q ∈ d.settings.rows) : q.userId ∈ d'.settings.rows.map (·.userId) := by
  have hkept : d'.settings = d.settings → q.userId ∈ d'.settings.rows.map (·.userId) := by
    intro h
    rw [h]
    exact List.mem_map_of_mem hq
  rcases r with command | ⟨publisher, command, stamps⟩ | run | ⟨command, readAt⟩ | command
  · exact SettingsUpdated.rows h q hq
  · obtain ⟨n, -, hcreated, -⟩ := h
    exact hkept hcreated.settings
  · obtain ⟨-, candidate, stamps, n, hscheduled⟩ := h
    exact hkept hscheduled.settings
  · exact List.mem_map_of_mem ((MarkedRead.settings h).rows q hq)
  · exact hkept (Deleted.settings h)

theorem stable_rows : (notifications request).Stable i fun d => d.settings.find userId ≠ none := by
  rintro d d' ⟨j, ks, -, -, -, -, hc, -⟩ h hnone
  obtain ⟨q, hq⟩ := Option.ne_none_iff_exists'.1 h
  obtain ⟨hmem, rfl⟩ := Table.find_eq_some.1 hq
  exact Table.find_eq_none.1 hnone (rows_of_commits hc hmem)

/-- Settings are locked, or a statement fails. -/
theorem wp_getSettingsForUpdate {X : NotificationsError → Prop} (hX : ∀ s, X (.fault s))
    {Q : Post NotificationsDatabase NotificationsLock NotificationSettings}
    (hw : ∀ d, (w d).settings = d.settings)
    (hQ : ∀ settings u ms d', (notifications request).Interf i ks d d' →
      Locked userId settings u ms d' → ks ⊆ ms →
      Q settings (u ∘ w) ms d') :
    (notifications request).wp i Q (fun e _ _ _ => X e)
      (SqlAlchemyNotificationRepository.getSettingsForUpdate userId) w ks d := by
  simp only [SqlAlchemyNotificationRepository.getSettingsForUpdate, Prog.bind_eq, Protocol.wp_bind_eq,
    NotificationsTx.insertOnConflict, NotificationsTx.exec]
  rw [Protocol.wp_exec]
  refine fun d₁ hi₁ _ => ⟨fun _ => ?_, hX _, hX _⟩
  simp only [Command.insertOnConflict, hw]
  rcases hfind : d₁.settings.find userId with - | r
  · -- The session inserts the defaults, and locks their entry.
    have hentry : (w d₁).hasEntry (.primaryKey (.settings userId)) = false := by
      rw [hasEntry_settings, hw]
      exact hfind
    have hentries :
        (NotificationSettings.create userId).entries.find? ((w d₁).hasEntry ·) = none := by
      rw [List.find?_eq_none]
      intro e he
      rw [List.mem_singleton.1 he]
      exact hentry ▸ Bool.false_ne_true
    simp only [hentries]
    rw [Protocol.wp_exec]
    refine fun d₂ hi₂ _ => ⟨fun _ => ?_, hX _, hX _⟩
    have hlock : NotificationsLock.entry (.primaryKey (.settings userId)) ∈
        (NotificationSettings.create userId).entries.map .entry ++ ks :=
          List.mem_append_left _ List.mem_cons_self
    have hnone : d₂.settings.find userId = none :=
      hasEntry_settings.1 (hi₂.kept hlock _ (.entry _) (hasEntry_settings.2 hfind))
    have hown : ((insertSettings (.create userId) ∘ w) d₂).settings.find userId =
        some (.create userId) := by
      rw [Function.comp, insertSettings, hw]
      exact (Table.find_insert (r := NotificationSettings.create userId) hnone _).trans (if_pos rfl)
    simp only [Command.query, hown, Function.id_comp]
    refine hQ _ _ _ d₂ (hi₁.trans hi₂.append_right) ?_ ?_
    · exact .inr ⟨rfl, rfl, hnone, List.mem_append_right _ hlock⟩
    · exact fun k hk => List.mem_append_right _ (List.mem_append_right _ hk)
  · -- There is a row, which stays, and the session locks what it is now.
    simp only
    rw [Protocol.wp_exec]
    refine fun d₂ hi₂ _ => ⟨fun _ => ?_, hX _, hX _⟩
    have hrow : d₁.settings.find userId ≠ none := by
      rw [hfind]
      exact Option.some_ne_none r
    obtain ⟨q, hq⟩ := Option.ne_none_iff_exists'.1 (stable_rows.interf hi₂ hrow)
    have hown : (w d₂).settings.find userId = some q := by
      rw [hw]
      exact hq
    obtain ⟨hmem, hid⟩ := Table.find_eq_some.1 hq
    simp only [Command.query, Function.id_comp, hown]
    refine hQ q id _ d₂ (hi₁.trans hi₂) ?_ ?_
    · exact .inl ⟨rfl, hmem, hid, List.mem_append_left _ (by simp [hid])⟩
    · exact fun k hk => List.mem_append_right _ hk

/-! ## Creations -/

theorem insertOutbox_nil : insertOutbox [] = id := by
  funext d
  simp [insertOutbox]

/-- A notification is about what the command says. -/
theorem create_eq_ok {command : CreateNotificationCommand} {createdAt : Instant} {id : UUID}
    {n : UserNotification} (h : UserNotification.create command createdAt id = .ok n) :
    n.id = id ∧ n.userId = command.userId ∧ n.messageType = command.messageType := by
  unfold UserNotification.create at h
  split at h
  · cases h
    exact ⟨rfl, rfl, rfl⟩
  · cases h

/-- What the creation of a notification rests on: its identity is locked, and so is the consent. -/
structure Ready (n : UserNotification) (ks : List NotificationsLock)
    (d : NotificationsDatabase) : Prop where
  unused : d.notifications.find n.id = none
  entry : .entry (.primaryKey (.notification n.id)) ∈ ks
  consents : n.messageType = .marketing → ∃ r ∈ d.settings.rows, r.userId = n.userId ∧
    r.marketingConsent = true ∧
    .row (.settings n.userId) ∈ ks

variable {n : UserNotification} {publisher : EventPublisher} {command : CreateNotificationCommand}
  {stamps : CreationStamps}

theorem Ready.interf (h : Ready n ks d) {ms : List NotificationsLock} (hks : ks ⊆ ms)
    (hi : (notifications request).Interf i ms d d') : Ready n ms d' where
  unused := hasEntry_notification.1
    (hi.kept (hks h.entry) _ (.entry _) (hasEntry_notification.2 h.unused))
  entry := hks h.entry
  consents hmarketing := by
    obtain ⟨r, hr, huser, hconsent, hlock⟩ := h.consents hmarketing
    have hprotects : Protects (NotificationsLock.row (.settings n.userId)) fun d :
        NotificationsDatabase =>
          r ∈ d.settings.rows := by
      rw [← huser]
      exact .settings r
    exact ⟨r, hi.kept (hks hlock) _ hprotects hr, huser, hconsent, hks hlock⟩

/-- What is written then is a creation. -/
theorem Ready.created (h : Ready n ks d) {events : List (Stamped NotificationCreated)}
    (hnotifications : d'.notifications = d.notifications.insert n)
    (houtbox : d'.outboxEvents = d.outboxEvents ++ events)
    (hsettings : d'.settings = d.settings) : Created n events d d' where
  consents hmarketing := by
    obtain ⟨r, hr, huser, hconsent, -⟩ := h.consents hmarketing
    rw [Consents, ← huser, getSettings_of_mem hr]
    exact hconsent
  unused r hr hid := Table.find_eq_none.1 h.unused (hid ▸ List.mem_map_of_mem hr)
  notifications := hnotifications
  outboxEvents := houtbox
  settings := hsettings

theorem wp_saveNotification {Q : Post NotificationsDatabase NotificationsLock CreationResult}
    (hw : ∀ d, (w d).notifications = d.notifications)
    (hQ : ∀ ms d', (notifications request).Interf i ks d d' → d'.notifications.find n.id = none →
      .entry (.primaryKey (.notification n.id)) ∈ ms → ks ⊆ ms →
      Q (.created n)
        (insertOutbox (publisher.rows (stamps.events n)) ∘ insertNotification n ∘ w) ms d') :
    (notifications request).wp i Q (fun _ _ _ _ => True)
      (NotificationCreator.saveNotification publisher n stamps) w ks d := by
  simp only [NotificationCreator.saveNotification, Prog.bind_eq, Protocol.wp_bind_eq,
    SqlAlchemyNotificationRepository.create, NotificationsTx.insert, NotificationsTx.exec]
  refine Protocol.wp_insert (X := fun _ _ => True) (fun d₁ hi₁ _ _ hentries => ?_)
    (fun _ _ _ _ _ _ _ _ _ => trivial)
    fun _ _ => trivial
  have hlock : NotificationsLock.entry (.primaryKey (.notification n.id)) ∈
      (notificationEntries n).map .entry ++ ks :=
    List.mem_append_left _ List.mem_cons_self
  have hnone : d₁.notifications.find n.id = none := by
    have h := hentries _ List.mem_cons_self
    rw [hasEntry_notification, hw] at h
    exact h
  rcases publisher with - | -
  · simp only [EventPublisher.publish, flushOutbox, NotificationsTx.insert, NotificationsTx.exec]
    refine Protocol.wp_insert (X := fun _ _ => True) (fun d₂ hi₂ _ _ _ => ?_)
      (fun _ _ _ _ _ _ _ _ _ => trivial)
      fun _ _ => trivial
    refine hQ _ d₂ (hi₁.trans hi₂.append_right) ?_ hlock fun k hk =>
      List.mem_append_right _ (List.mem_append_right _ hk)
    exact hasEntry_notification.1 (hi₂.kept hlock _ (.entry _) (hasEntry_notification.2 hnone))
  · have h := hQ _ d₁ hi₁ hnone hlock fun k hk => List.mem_append_right _ hk
    rw [EventPublisher.rows, insertOutbox_nil] at h
    exact h

/-- A creation goes on with a notification it may commit, or without one. -/
theorem wp_create {Q : Post NotificationsDatabase NotificationsLock CreationResult}
    (hnotifications : ∀ d, (w d).notifications = d.notifications)
    (hsettings : ∀ d, (w d).settings = d.settings)
    (hcreated : ∀ n ms d', (notifications request).Interf i ks d d' →
      UserNotification.create command stamps.createdAt stamps.id = .ok n → Ready n ms d' → ks ⊆ ms →
      Q (.created n)
        (insertOutbox (publisher.rows (stamps.events n)) ∘ insertNotification n ∘ w) ms d')
    (hskipped : ∀ u ms d', Q .skippedMarketingConsent u ms d') :
    (notifications request).wp i Q (fun _ _ _ _ => True)
      (NotificationCreator.create publisher command stamps) w ks d := by
  rw [NotificationCreator.create]
  rcases hn : UserNotification.create command stamps.createdAt stamps.id with e | n
  · trivial
  obtain ⟨-, huser, htype⟩ := create_eq_ok hn
  rcases hmessage : command.messageType with - | -
  · refine wp_saveNotification hnotifications fun ms d' hi hnone hentry hks => ?_
    refine hcreated n ms d' hi hn ⟨hnone, hentry, fun hmarketing => ?_⟩ hks
    rw [htype, hmessage] at hmarketing
    cases hmarketing
  · simp only [Prog.bind_eq, Protocol.wp_bind]
    refine wp_getSettingsForUpdate (X := fun _ => True)
      (fun _ => trivial) hsettings fun settings u ms d₁ hi₁ hlocked hks => ?_
    rcases hconsent : settings.marketingConsent with - | -
    · exact hskipped _ _ _
    -- The consent is in a row, and the session holds its lock.
    have hu := hlocked.eq_id hconsent
    rw [hu, Function.id_comp]
    refine wp_saveNotification hnotifications fun ms' d₂ hi₂ hnone hentry hms => ?_
    refine hcreated n ms' d₂ (hi₁.trans (hi₂.anti hks)) hn ⟨hnone, hentry, fun _ => ?_⟩
      (List.Subset.trans hks hms)
    rcases hlocked.interf (List.Subset.refl _) hi₂ with ⟨-, hmem, hid, hlock⟩ | ⟨hinsert, rfl, -, -⟩
    · rw [huser]
      exact ⟨settings, hmem, hid, hconsent, hms hlock⟩
    · cases hconsent

/-! ## Runs of the scheduler -/

/-- A program that is at the end of its transaction whenever it returns. -/
def Settled {α : Type} (request : ι → NotificationRequest) (i : ι) (p : NotificationsTx α) : Prop :=
  ∀ ks d, (notifications request).wp i (fun _ w _ _ => w = id) (fun _ _ _ _ => True) p id ks d

section Settled

variable {α β : Type}

theorem settled_ret (a : α) : Settled request i (Prog.ret a) := fun _ _ => rfl

theorem settled_raise (e : NotificationsError) : Settled request i
    (Prog.raise e : NotificationsTx α) := fun _ _ => trivial

theorem Settled.bind {p : NotificationsTx α} {f : α → NotificationsTx β} (hp : Settled request i p)
    (hf : ∀ a, Settled request i (f a)) : Settled request i (p.bind f) := by
  intro ks d
  rw [Protocol.wp_bind]
  refine Protocol.wp_mono (hp ks d) (fun a w ks d hw => ?_) fun _ _ _ _ h => h
  rw [hw]
  exact hf a ks d

theorem settled_ofExcept (e : Except DomainError α) :
    Settled request i (CreateDueNotificationsCommandUseCase.ofExcept e) := by
  rcases e with e | a
  · exact settled_raise _
  · exact settled_ret a

theorem settled_read {s : NotificationsStatement} (a : α) :
    Settled request i (CreateDueNotificationsCommandUseCase.read s a) := by
  intro ks d
  rw [CreateDueNotificationsCommandUseCase.read, NotificationsTx.select, NotificationsTx.exec]
  rw [Protocol.wp_query (X := fun _ _ => True)]
  exact fun _ _ _ => ⟨fun _ => rfl, trivial⟩

end Settled

open CreateDueNotificationsCommandUseCase SqlAlchemyScheduleOccurrenceRepository

/-- The rows of a candidate are those of a creation, with its occurrence. -/
theorem Ready.scheduled {candidate : DueNotification} (h : Ready n ks d)
    (hn : UserNotification.create candidate.command stamps.createdAt stamps.id = .ok n)
    (hnone : d.occurrences.find candidate.occurrence = none) :
    Scheduled candidate stamps n d
      (bindOccurrence candidate.occurrence n.id (insertOutbox (stamps.events n)
      (insertNotification n (insertOccurrence ⟨candidate.occurrence, none⟩ d)))) where
  toCreated := h.created rfl rfl rfl
  create := hn
  unreserved _ hr hkey := Table.find_eq_none.1 hnone (hkey ▸ List.mem_map_of_mem hr)
  occurrences :=
    Table.modify_insert (r := (⟨candidate.occurrence, none⟩ : ScheduleOccurrence)) hnone rfl

/-- A candidate is committed with all its rows, or leaves nothing. -/
theorem settled_createNotification {run : ScheduledRun} (hrequest : request i = .schedule run)
    (candidate : DueNotification) :
    Settled request i (createNotification run.command.dryRun stamps candidate) := by
  rw [createNotification]
  rcases hdry : run.command.dryRun with - | -
  swap
  · exact settled_ret _
  intro ks d
  simp only [Bool.false_eq_true, if_false, Prog.bind_eq, Protocol.wp_bind, reserve, Prog.pure_eq]
  rw [NotificationsTx.insertOnConflict, NotificationsTx.exec]
  refine Protocol.wp_insertOnConflict (X := fun _ _ => True) (fun _ _ _ _ _ _ => rfl)
    (fun d₁ hi₁ _ _ hfind _ => ?_)
    (fun _ _ _ _ => trivial) fun _ _ => trivial
  -- The entry of the occurrence is locked from its insertion to the commit.
  have hlock : NotificationsLock.entry (.primaryKey (.occurrence candidate.occurrence)) ∈
      (ScheduleOccurrence.entries ⟨candidate.occurrence, none⟩).map .entry ++ ks :=
    List.mem_append_left _ List.mem_cons_self
  simp only [Option.isNone_none, Bool.not_true, Bool.false_eq_true, if_false, Prog.tryCatch_eq,
    Protocol.wp_bind, Protocol.wp_handle, Protocol.wp_ret]
  refine Protocol.wp_mono
    (wp_create (fun _ => rfl) (fun _ => rfl) (fun n ms d₂ hi₂ hn hready hms => ?_) fun u ms d₂ => ?_)
    (fun _ _ _ _ h => h) fun e u ms d₂ _ => ?_
  · -- The notification is bound to its occurrence, which nobody else has reserved.
    simp only [Protocol.wp_ret, Protocol.wp_bind, bindNotification, Prog.bind_eq,
      NotificationsTx.exec]
    rw [Protocol.wp_modify (X := fun _ _ => True)]
    refine fun d₃ hi₃ _ => ⟨fun _ => ?_, trivial⟩
    have hnone : ∀ {d'}, (notifications request).Interf i ms d₂ d' →
        d'.occurrences.find candidate.occurrence = none :=
      fun hi => hasEntry_occurrence.1
        ((hi₂.trans (hi.anti hms)).kept hlock _ (.entry _) (hasEntry_occurrence.2 hfind))
    have hown : ((insertOutbox (EventPublisher.outbox.rows (stamps.events n)) ∘ insertNotification n ∘
        insertOccurrence ⟨candidate.occurrence, none⟩ ∘ id) d₃).occurrences.find
          candidate.occurrence =
          some ⟨candidate.occurrence, none⟩ :=
      (Table.find_insert (r := (⟨candidate.occurrence, none⟩ : ScheduleOccurrence))
        (hnone hi₃) _).trans (if_pos rfl)
    simp only [hown, Option.elim_some, Prog.pure_eq, Protocol.wp_ret, NotificationsTx.commit]
    refine fun d₄ hi₄ _ => ⟨⟨trivial, ?_, rfl⟩, trivial⟩
    have hi₃₄ := hi₃.trans hi₄.append_right
    show (request i).Commits _ _
    rw [hrequest]
    exact ⟨hdry, candidate, stamps, n,
      (hready.interf (List.Subset.refl _) hi₃₄).scheduled hn (hnone hi₃₄)⟩
  · simp only [Protocol.wp_ret, Protocol.wp_bind, NotificationsTx.rollback, Protocol.wp_rollbackOr]
    exact fun _ _ _ => ⟨trivial, trivial⟩
  · split
    · simp only [Protocol.wp_ret, Protocol.wp_bind, NotificationsTx.rollback, Protocol.wp_rollbackOr]
      exact fun _ _ _ => ⟨trivial, trivial⟩
    · trivial

section Loops

variable {run : ScheduledRun} {stampsOf : ℕ → CreationStamps} {due : DueNotificationRule}

theorem settled_createAll (hrequest : request i = .schedule run) (candidates : List DueNotification)
    (totals : RuleTotals) :
    Settled request i (createAll run.command.dryRun stampsOf candidates totals) := by
  induction candidates generalizing totals with
  | nil => exact settled_ret totals
  | cons candidate candidates ih =>
    exact (settled_createNotification hrequest candidate).bind fun action => ih _

theorem settled_warrantyExpiryNotifications (hrequest : request i = .schedule run)
    {sees : ℕ → ℕ → CandidateStore} {offsetDays : ℤ} (fuel n : ℕ) (cursor : Option UUID)
    (totals : RuleTotals) :
    Settled request i (warrantyExpiryNotifications run.command stampsOf due sees offsetDays fuel n
      cursor totals) := by
  induction fuel generalizing n cursor totals with
  | zero => exact settled_raise _
  | succ fuel ih =>
    refine (settled_ofExcept _).bind fun _ => (settled_read _).bind fun page =>
      (settled_ofExcept page).bind fun page => ?_
    refine (settled_read _).bind fun existingUserIds =>
      (settled_createAll hrequest _ _).bind fun totals => ?_
    refine (settled_ofExcept _).bind fun next => ?_
    rcases next with - | cursor
    · exact settled_ret totals
    · exact ih (n + 1) (some cursor) totals

theorem settled_activitiesFor (hrequest : request i = .schedule run) {sees : ℕ → CandidateStore}
    {facts : List UserRow} {recentSince : Option Instant} (fuel n : ℕ) (cursor : Option UUID)
    (totals : RuleTotals) : Settled request i
      (activitiesFor run.command stampsOf due sees facts recentSince fuel n cursor totals) := by
  induction fuel generalizing n cursor totals with
  | zero => exact settled_raise _
  | succ fuel ih =>
    refine (settled_ofExcept _).bind fun _ => (settled_read _).bind fun page =>
      (settled_ofExcept page).bind fun page => ?_
    refine (settled_createAll hrequest _ _).bind fun totals =>
      (settled_ofExcept _).bind fun next => ?_
    rcases next with - | cursor
    · exact settled_ret totals
    · exact ih (n + 1) (some cursor) totals

theorem settled_notificationsForFacts (hrequest : request i = .schedule run)
    {sees : ℕ → CandidateStore} {facts : List UserRow} {fuel : ℕ} (totals : RuleTotals) :
    Settled request i (notificationsForFacts run.command stampsOf due sees facts fuel totals) := by
  have hactivities :
      Settled request i (Prog.bind (ofExcept (receiptActivitySinceFor due)) fun recentSince =>
        if facts = [] then .ret totals
        else activitiesFor run.command stampsOf due sees facts recentSince fuel 1 none totals) := by
    refine (settled_ofExcept _).bind fun recentSince => ?_
    split
    · exact settled_ret totals
    · exact settled_activitiesFor hrequest _ _ _ _
  rw [notificationsForFacts]
  rcases due.rule.targetKind with - | - | - | -
  · exact settled_ret totals
  · exact hactivities
  · exact hactivities
  · exact settled_createAll hrequest _ _

theorem settled_receiptReminderNotifications (hrequest : request i = .schedule run)
    {sees : ℕ → ℕ → CandidateStore} (fuel n : ℕ) (cursor : Option (Instant × UUID))
    (totals : RuleTotals) : Settled request i
      (receiptReminderNotifications run.command stampsOf due sees fuel n cursor totals) := by
  induction fuel generalizing n cursor totals with
  | zero => exact settled_raise _
  | succ fuel ih =>
    refine (settled_ofExcept _).bind fun _ => (settled_read _).bind fun page =>
      (settled_ofExcept page).bind fun page => ?_
    refine (settled_notificationsForFacts hrequest _).bind fun totals => ?_
    rcases page.next with - | cursor
    · exact settled_ret totals
    · exact ih (n + 1) (some cursor) totals

theorem settled_createForRule (hrequest : request i = .schedule run) {sees : ℕ → ℕ → CandidateStore}
    {fuel : ℕ} :
    Settled request i (createForRule run.command stampsOf due sees fuel) := by
  have hreminders : Settled request i
      (receiptReminderNotifications run.command stampsOf due sees fuel 0 none ⟨0, 0, 0, 0⟩) :=
    settled_receiptReminderNotifications hrequest _ _ _ _
  refine Settled.bind ?_ fun totals => settled_ret _
  rw [CreateDueNotificationsCommandUseCase.dueNotifications]
  rcases due.rule.targetKind with - | - | - | -
  · rcases due.rule.dayOffset with - | offsetDays
    · exact settled_ret _
    · exact settled_warrantyExpiryNotifications hrequest _ _ _ _
  · exact hreminders
  · exact hreminders
  · exact hreminders

theorem settled_createNotifications (hrequest : request i = .schedule run) (n : ℕ)
    (rules : List NotificationScheduleRule) :
    Settled request i (createNotifications run n rules) := by
  induction rules generalizing n with
  | nil => exact settled_ret []
  | cons rule rules ih =>
    rw [createNotifications]
    split
    · exact ih (n + 1)
    · refine (settled_ofExcept _).bind fun due => ?_
      rcases due with - | due
      · exact ih (n + 1)
      · refine (settled_createForRule hrequest).bind fun summary => ?_
        exact (ih (n + 1)).bind fun summaries => settled_ret _

end Loops

/-! ## Requests -/

theorem getSettings_userId : (d.getSettings userId).userId = userId := by
  rcases hfind : d.settings.find userId with - | r
  · rw [getSettings_of_find_eq_none hfind]
    rfl
  · rw [NotificationsDatabase.getSettings, hfind]
    exact (Table.find_eq_some.1 hfind).2

theorem find_updateSettings {r : NotificationSettings} {pushEnabled marketingConsent : Option Bool}
    (hr : r ∈ d.settings.rows) (u : UUID) :
    (updateSettings r.userId pushEnabled marketingConsent d).settings.find u = if u = r.userId then
      some ⟨r.userId, pushEnabled.getD r.pushEnabled, marketingConsent.getD r.marketingConsent⟩
      else d.settings.find u := by
  have hfind : d.settings.find r.userId = some r := Table.find_eq_some.2 ⟨hr, rfl⟩
  rw [updateSettings, Table.modify, hfind]
  simp only [Table.find_update]
  by_cases hu : u = r.userId
  · simp [hu, hfind]
  · simp [hu]

/-- A row is updated as the command says. -/
theorem settingsUpdated_updateSettings {command : UpdateNotificationSettingsCommand}
    {r : NotificationSettings} (hr : r ∈ d.settings.rows) (hid : r.userId = command.userId) :
    SettingsUpdated command d
      (updateSettings r.userId command.pushEnabled command.marketingConsent d) where
  getSettings := by
    rw [← hid, getSettings_of_mem hr, NotificationsDatabase.getSettings, find_updateSettings hr,
      if_pos rfl]
    rfl
  others u hu := by
    rw [NotificationsDatabase.getSettings, find_updateSettings hr, if_neg (hid ▸ hu),
      NotificationsDatabase.getSettings]
  rows q hq := by
    by_contra hnot
    have hnone := Table.find_eq_none.2 hnot
    rw [find_updateSettings hr] at hnone
    split at hnone
    · cases hnone
    · exact Table.find_eq_none.1 hnone (List.mem_map_of_mem hq)
  occurrences := rfl
  notifications := rfl
  outboxEvents := rfl

/-- A row is inserted as the command says. -/
theorem settingsUpdated_insertSettings {command : UpdateNotificationSettingsCommand}
    (hnone : d.settings.find command.userId = none) :
    SettingsUpdated command d (insertSettings ⟨command.userId, command.pushEnabled.getD true,
      command.marketingConsent.getD false⟩ d) where
  getSettings := by
    rw [getSettings_of_find_eq_none hnone, NotificationsDatabase.getSettings, insertSettings]
    rw [Table.find_insert (r := NotificationSettings.mk _ _ _) hnone, if_pos rfl]
    rfl
  others u hu := by
    rw [NotificationsDatabase.getSettings, insertSettings]
    rw [Table.find_insert (r := NotificationSettings.mk _ _ _) hnone, if_neg hu,
      NotificationsDatabase.getSettings]
  rows q hq := List.mem_map_of_mem (Table.mem_insert.2 (.inl hq))
  occurrences := rfl
  notifications := rfl
  outboxEvents := rfl

theorem settingsUpdated_id {command : UpdateNotificationSettingsCommand}
    (hpush : command.pushEnabled = none) (hmarketing : command.marketingConsent = none) :
    SettingsUpdated command d d where
  getSettings := by
    rw [hpush, hmarketing, Option.getD_none, Option.getD_none]
    have huser : (d.getSettings command.userId).userId = command.userId := getSettings_userId
    rcases hsettings : d.getSettings command.userId with ⟨u, push, marketing⟩
    rw [hsettings] at huser
    rw [← show u = command.userId from huser]
  others _ _ := rfl
  rows q hq := List.mem_map_of_mem hq
  occurrences := rfl
  notifications := rfl
  outboxEvents := rfl

theorem wp_updateSettings {command : UpdateNotificationSettingsCommand}
    (hrequest : request i = .updateSettings command) :
    (notifications request).wp i (fun _ _ _ _ => True) (fun _ _ _ _ => True)
      (UpdateNotificationSettingsCommandUseCase.execute NotificationsTx.commit command) id [] d := by
  -- The statements after the one that writes.
  have hcommit : ∀ {w ks d₁},
    (∀ d', (notifications request).Interf i ks d₁ d' → SettingsUpdated command d' (w d')) →
      (notifications request).wp i (fun settings w ks d =>
        (notifications request).wp i (fun _ _ _ _ => True)
        (fun _ _ _ _ => True) (NotificationsTx.commit.bind fun _ => .ret settings) w ks d)
          (fun _ _ _ _ => True)
        (do
          let record ← NotificationsTx.select (.findSettings command.userId)
            (·.settings.find command.userId)
          return record.getD (.create command.userId)) w ks d₁ := by
    intro w ks d₁ h
    simp only [Prog.bind_eq, Protocol.wp_bind, NotificationsTx.select, NotificationsTx.exec]
    rw [Protocol.wp_query (X := fun _ _ => True)]
    refine fun d₂ hi₂ _ => ⟨fun _ => ?_, trivial⟩
    refine fun d₃ hi₃ _ => ⟨⟨trivial, ?_, trivial⟩, trivial⟩
    show (request i).Commits d₃ (w d₃)
    rw [hrequest]
    exact h d₃ (hi₂.trans hi₃.append_right)
  simp only [UpdateNotificationSettingsCommandUseCase.execute, Prog.bind_eq, Protocol.wp_bind]
  rw [SqlAlchemyNotificationRepository.updateSettings]
  split
  · simp only [Prog.bind_eq, Protocol.wp_bind, NotificationsTx.insertOnConflict, NotificationsTx.exec]
    refine Protocol.wp_insertOnConflict (X := fun _ _ => True) (fun d₁ r hi₁ _ _ hfind => ?_)
      (fun d₁ hi₁ _ _ hfind _ => ?_) (fun _ _ _ _ => trivial) fun _ _ => trivial
    · obtain ⟨hmem, hid⟩ := Table.find_eq_some.1 hfind
      refine hcommit fun d' hi => ?_
      exact settingsUpdated_updateSettings (hi.kept List.mem_cons_self _ (.settings r) hmem) hid
    · refine hcommit fun d' hi => settingsUpdated_insertSettings ?_
      exact hasEntry_settings.1 (hi.kept List.mem_cons_self _ (.entry _) (hasEntry_settings.2 hfind))
  · next hnone =>
    obtain ⟨hpush, hmarketing⟩ := not_or.1 hnone
    exact hcommit fun d' _ => settingsUpdated_id (not_not.1 hpush) (not_not.1 hmarketing)

theorem wp_createNotification {publisher : EventPublisher} {command : CreateNotificationCommand}
    {stamps : CreationStamps} (hrequest : request i = .create publisher command stamps) :
    (notifications request).wp i (fun _ _ _ _ => True) (fun _ _ _ _ => True)
      (CreateNotificationCommandUseCase.execute publisher command stamps) id [] d := by
  simp only [CreateNotificationCommandUseCase.execute, Prog.bind_eq, Protocol.wp_bind]
  refine wp_create (fun _ => rfl) (fun _ => rfl) (fun n ms d₁ _ hn hready _ => ?_) fun _ _ _ => ?_
  · simp only [Protocol.wp_bind]
    refine fun d₂ hi₂ _ => ⟨⟨trivial, ?_, trivial⟩, trivial⟩
    show (request i).Commits d₂ _
    rw [hrequest]
    exact ⟨n, hn, (hready.interf (List.Subset.refl _) hi₂).created rfl rfl rfl, rfl⟩
  · simp only [Protocol.wp_bind, NotificationsTx.rollback, Protocol.wp_rollbackOr]
    exact fun _ _ _ => ⟨trivial, trivial⟩

/-- A notification is read, or is not found. -/
theorem wp_markRead {command : NotificationCommand} {readAt : Instant}
    (hrequest : request i = .markRead command readAt) :
    (notifications request).wp i (fun _ _ _ _ => True) (fun e _ _ _ => (request i).Raises e)
      (MarkNotificationReadCommandUseCase.execute command readAt) id [] d := by
  have hX : ∀ s, (request i).Raises (.fault s) := by
    intro s
    rw [hrequest]
    exact .inr ⟨s, rfl⟩
  simp only [MarkNotificationReadCommandUseCase.execute, Prog.bind_eq, Protocol.wp_bind]
  refine wp_getSettingsForUpdate hX (fun _ => rfl) fun settings u ms d₁ hi₁ hlocked _ => ?_
  simp only [SqlAlchemyNotificationRepository.markRead, Prog.bind_eq, Protocol.wp_bind,
    NotificationsTx.exec]
  rw [Protocol.wp_query (X := fun e _ => (request i).Raises e)]
  refine fun d₂ hi₂ _ => ⟨fun _ => ?_, hX _⟩
  have hlocked₂ := hlocked.interf (List.Subset.refl _) hi₂
  rcases hfound :
    SqlAlchemyNotificationRepository.findRecordByIdForUser command.notificationId command.userId
    ((u ∘ id) d₂) with - | record
  · show (request i).Raises _
    rw [hrequest]
    exact .inl rfl
  have hsame : ∀ d', (u d').notifications = d'.notifications := by
    intro d'
    rcases hlocked with ⟨rfl, -⟩ | ⟨rfl, -⟩
    · rfl
    · rfl
  obtain ⟨hfind, hvisible⟩ := Option.filter_eq_some_iff.1 hfound
  rw [Function.comp_id, hsame] at hfind
  obtain ⟨hmem, hid⟩ := Table.find_eq_some.1 hfind
  rw [decide_eq_true_eq] at hvisible
  obtain ⟨huser, hvisible⟩ := hvisible
  -- A notification about marketing is seen under the settings that are locked.
  have hconsent : record.messageType = .marketing → settings.marketingConsent = true := by
    intro hmarketing
    obtain ⟨q, hq, hq'⟩ := List.any_eq_true.1 (hvisible.resolve_left fun hne => hne hmarketing)
    rw [decide_eq_true_eq] at hq'
    have hforce : (u d₂).getSettings command.userId = settings :=
      (hlocked₂.settingsKept.getSettings command.userId).trans hlocked₂.getSettings
    have hown : (u d₂).getSettings q.userId = q := getSettings_of_mem hq
    rw [hq'.1, hforce] at hown
    exact hown ▸ hq'.2
  set ms₂ := (Option.map (fun r : UserNotification => NotificationsLock.row (.notification r.id))
    (some record)).toList ++ ms
    with hms₂
  have hlock : NotificationsLock.row (.notification record.id) ∈ ms₂ :=
    List.mem_append_left _ List.mem_cons_self
  have hkept : ∀ {d'}, (notifications request).Interf i ms₂ d₂ d' → record ∈ d'.notifications.rows ∧
      Locked command.userId settings u ms₂ d' := fun hi =>
    ⟨hi.kept hlock _ (.notification record) hmem,
      hlocked₂.interf (fun k hk => List.mem_append_right _ hk) hi⟩
  simp only [Protocol.wp_bind]
  rw [Protocol.wp_exec]
  refine fun d₃ hi₃ _ => ⟨fun _ => ?_, hX _, hX _⟩
  have hown : ((u ∘ id) d₃).notifications.find record.id = some record := by
    rw [Function.comp_id, hsame]
    exact Table.find_eq_some.2 ⟨(hkept hi₃).1, rfl⟩
  simp only [Command.update, hown, Prog.pure_eq, Protocol.wp_ret, Protocol.wp_bind]
  refine fun d₄ hi₄ _ => ⟨⟨trivial, ?_, trivial⟩, hX _⟩
  obtain ⟨hmem₄, hlocked₄⟩ := hkept (hi₃.trans hi₄.append_right)
  show (request i).Commits d₄ (updateNotification record.id readAt (u d₄))
  rw [hrequest]
  refine ⟨⟨record, hmem₄, hid, huser, fun hmarketing => ?_⟩, ?_,
    ⟨hlocked₄.settingsKept.getSettings, hlocked₄.settingsKept.rows⟩, ?_, ?_⟩
  · rw [Consents, huser, hlocked₄.getSettings]
    exact hconsent hmarketing
  · rw [updateNotification, hsame, hid]
  · rcases hlocked with ⟨rfl, -⟩ | ⟨rfl, -⟩
    · rfl
    · rfl
  · rcases hlocked with ⟨rfl, -⟩ | ⟨rfl, -⟩
    · rfl
    · rfl

theorem wp_delete {command : NotificationCommand} (hrequest : request i = .delete command) :
    (notifications request).wp i (fun _ _ _ _ => True) (fun _ _ _ _ => True)
      (DeleteNotificationCommandUseCase.execute command) id [] d := by
  simp only [DeleteNotificationCommandUseCase.execute,
    SqlAlchemyNotificationRepository.deleteByIdForUser, Prog.bind_eq, Protocol.wp_bind,
    NotificationsTx.exec]
  rw [Protocol.wp_query (X := fun _ _ => True)]
  refine fun d₁ hi₁ _ => ⟨fun _ => ?_, trivial⟩
  simp only [id]
  generalize hfound : Option.filter _ (d₁.notifications.find command.notificationId) = found
  rcases found with - | record
  · trivial
  obtain ⟨hfind, huser⟩ := Option.filter_eq_some_iff.1 hfound
  obtain ⟨hmem, hid⟩ := Table.find_eq_some.1 hfind
  simp only [Protocol.wp_bind]
  refine Protocol.wp_update (X := fun _ _ => True) (fun d₂ r hi₂ _ _ hfind₂ => ?_)
    (fun _ _ => trivial) fun _ _ => trivial
  obtain ⟨-, hrid⟩ := Table.find_eq_some.1 hfind₂
  simp only [Prog.pure_eq, Protocol.wp_ret, Bool.not_true, Bool.false_eq_true, if_false]
  refine fun d₃ hi₃ _ => ⟨⟨trivial, ?_, trivial⟩, trivial⟩
  show (request i).Commits d₃ (deleteNotification r.id d₃)
  rw [hrequest]
  have hkept := (hi₂.trans (hi₃.anti fun k hk => List.mem_cons_of_mem _ hk)).kept List.mem_cons_self _
    (.notification record) hmem
  refine ⟨⟨record, hkept, hid, by simpa using huser⟩, ?_, rfl, rfl, rfl⟩
  rw [deleteNotification, hrid, hid]

/-- A run of the scheduler commits its candidates only. -/
theorem wp_schedule {run : ScheduledRun} (hrequest : request i = .schedule run) :
    (notifications request).wp i (fun _ _ _ _ => True) (fun _ _ _ _ => True)
      (CreateDueNotificationsCommandUseCase.execute run) id [] d := by
  have hrun : Settled request i (Prog.bind (read .listScheduleRules run.rules) fun rules =>
    createNotifications run 0 rules) :=
    (settled_read _).bind fun rules => settled_createNotifications hrequest 0 rules
  simp only [CreateDueNotificationsCommandUseCase.execute, Prog.bind_eq, Prog.tryCatch_eq,
    Protocol.wp_bind, Protocol.wp_handle]
  refine Protocol.wp_bind.1
    (Protocol.wp_mono (hrun [] d) (fun _ _ _ _ _ => trivial) fun _ _ _ _ _ => ?_)
  rw [Protocol.wp_bind, NotificationsTx.rollback, Protocol.wp_rollbackOr]
  exact fun _ _ _ => ⟨trivial, trivial⟩

/-- Requests meet the protocol. -/
theorem meets (request : ι → NotificationRequest) (d : NotificationsDatabase) :
    (notifications request).Meets (fun i => (request i).prog) d (fun _ _ _ => True) fun i e _ =>
      (request i).Raises e where
  inv := trivial
  wp i := by
    have hmap : ∀ {α : Type} {p : NotificationsTx α} {E : NotificationsError → Prop}
        (f : α → NotificationResponse),
          (notifications request).wp i (fun _ _ _ _ => True) (fun e _ _ _ => E e) p id [] d →
          (notifications request).wp i (fun _ _ _ _ => True) (fun e _ _ _ => E e)
            (p.bind fun a => .ret (f a)) id [] d :=
      fun f hp => Protocol.wp_bind.2 hp
    rcases hrequest : request i with command | ⟨publisher, command, stamps⟩ | run
      | ⟨command, readAt⟩ | command
    · exact hmap .settings (wp_updateSettings hrequest)
    · exact hmap .creation (wp_createNotification hrequest)
    · exact hmap .run (wp_schedule hrequest)
    · have hread := wp_markRead (d := d) hrequest
      rw [hrequest] at hread
      exact hmap .notification hread
    · exact hmap (fun _ => .done) (wp_delete hrequest)
  stable_ret _ _ _ _ _ h := h
  stable_raise _ _ _ _ _ h := h

end Boat.Notifications
