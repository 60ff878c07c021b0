import Boat.Notifications.CommitsSpec
import Boat.ReadCommitted.Checks
import Boat.ReadCommitted.Serial

/-!
# Notifications: consent

Marketing needs the consent of the user, whatever else happens at the same time.

* `marketing_consented`: in every run, notifications about marketing are committed, and read, only
  while the user consents; a notification that is gone or hidden is not read; an update changes the
  settings that it names, of those that are in force.
-/

namespace Boat.Notifications

open ReadCommitted NotificationsDatabase

/-- The user sees the notification. -/
def Visible (command : NotificationCommand) (d : NotificationsDatabase) : Prop :=
  ∃ r ∈ d.notifications.rows, r.id = command.notificationId ∧ r.userId = command.userId ∧
    (r.messageType = .marketing → d.Consents r.userId)

/-- The events about marketing to a user. -/
def marketingEvents (userId : UUID) (d : NotificationsDatabase) :
    List (Stamped NotificationCreated) :=
  d.outboxEvents.filter fun e => e.event.userId = userId ∧ e.event.messageType = .marketing

/-! ## Commits -/

section Commits

variable {r : NotificationRequest} {d d' : NotificationsDatabase}

theorem Created.consents_of_mem {notification n : UserNotification}
    {events : List (Stamped NotificationCreated)} (h : Created notification events d d')
    (hn : n ∈ d'.notifications.rows) (hmarketing : n.messageType = .marketing)
    (hnew : n ∉ d.notifications.rows) : d.Consents n.userId := by
  rw [h.notifications] at hn
  rcases Table.mem_insert.1 hn with hn | ⟨rfl, -⟩
  · exact absurd hn hnew
  · exact h.consents hmarketing

/-- What is new or has been read is about a user who consents. -/
theorem consents_of_commits (h : r.Commits d d') {n : UserNotification}
    (hn : n ∈ d'.notifications.rows) (hmarketing : n.messageType = .marketing)
    (hnew : n ∉ d.notifications.rows) : d.Consents n.userId := by
  rcases r with command | ⟨publisher, command, stamps⟩ | run | ⟨command, readAt⟩ | command
  · rw [SettingsUpdated.notifications h] at hn
    exact absurd hn hnew
  · obtain ⟨notification, -, hcreated, -⟩ := h
    exact hcreated.consents_of_mem hn hmarketing hnew
  · obtain ⟨-, candidate, stamps, notification, hscheduled⟩ := h
    exact hscheduled.consents_of_mem hn hmarketing hnew
  · obtain ⟨⟨q, hq, hid, -, hconsents⟩, hnotifications, -, -, -⟩ := h
    rw [hnotifications] at hn
    rcases mem_updateNotification.1 hn with ⟨hn, -⟩ | ⟨q', hq', hid', rfl⟩
    · exact absurd hn hnew
    · obtain rfl : q' = q := Table.eq_of_key hq' hq (hid'.trans hid.symm)
      exact hconsents hmarketing
  · rw [Deleted.notifications h] at hn
    exact absurd (mem_deleteNotification.1 hn).1 hnew

/-- So are the events that are new. -/
theorem events_of_commits (h : r.Commits d d') : ∃ events,
    d'.outboxEvents = d.outboxEvents ++ events ∧
    ∀ e ∈ events, e.event.messageType = .marketing → d.Consents e.event.userId := by
  have hnone : d'.outboxEvents = d.outboxEvents →
      ∃ events, d'.outboxEvents = d.outboxEvents ++ events ∧
        ∀ e ∈ events, e.event.messageType = .marketing → d.Consents e.event.userId :=
    fun h => ⟨[], h.trans (List.append_nil _).symm, fun _ he => absurd he List.not_mem_nil⟩
  have hevents : ∀ {n : UserNotification} {stamps : CreationStamps},
      (n.messageType = .marketing → d.Consents n.userId) →
        ∀ e ∈ stamps.events n, e.event.messageType = .marketing → d.Consents e.event.userId := by
    intro n stamps hn e he
    rw [List.mem_singleton.1 he]
    exact hn
  rcases r with command | ⟨publisher, command, stamps⟩ | run | ⟨command, readAt⟩ | command
  · exact hnone (SettingsUpdated.outboxEvents h)
  · obtain ⟨n, -, hcreated, -⟩ := h
    refine ⟨_, hcreated.outboxEvents, fun e he => ?_⟩
    rcases publisher with - | -
    · exact hevents hcreated.consents e he
    · exact absurd he List.not_mem_nil
  · obtain ⟨-, candidate, stamps, n, hscheduled⟩ := h
    exact ⟨_, hscheduled.outboxEvents, hevents hscheduled.consents⟩
  · exact hnone (MarkedRead.outboxEvents h)
  · exact hnone (Deleted.outboxEvents h)

/-- Settings change by an update that names them. -/
theorem settings_of_commits (h : r.Commits d d')
    (userId : UUID) : d'.getSettings userId = d.getSettings userId ∨
    ∃ command, r = .updateSettings command ∧ command.userId = userId ∧
    SettingsUpdated command d d' := by
  rcases r with command | ⟨publisher, command, stamps⟩ | run | ⟨command, readAt⟩ | command
  · by_cases huser : command.userId = userId
    · exact .inr ⟨command, rfl, huser, h⟩
    · exact .inl (SettingsUpdated.others h userId (Ne.symm huser))
  · obtain ⟨n, -, hcreated, -⟩ := h
    exact .inl ((settingsKept_of_eq hcreated.settings).getSettings userId)
  · obtain ⟨-, candidate, stamps, n, hscheduled⟩ := h
    exact .inl ((settingsKept_of_eq hscheduled.settings).getSettings userId)
  · exact .inl ((MarkedRead.settings h).getSettings userId)
  · exact .inl ((settingsKept_of_eq (Deleted.settings h)).getSettings userId)

end Commits

/-! ## Runs -/

section Runs

variable {ι : Type} [DecidableEq ι] {request : ι → NotificationRequest} {d : NotificationsDatabase}
  {s s' : System ι NotificationsDatabase NotificationsStatement NotificationsError
    NotificationResponse}

/-- A step changes the store by a commit, if at all. -/
theorem commits_of_step (hs : Reach Always (System.init (fun i => (request i).prog) d) s) {m : Move ι}
    (hst : Step Always s m s') : s'.store = s.store ∨ ∃ i, m = .run i ∧
    (request i).Commits s.store s'.store := by
  obtain h | ⟨i, hm, -, hc, -⟩ := ((meets request d).good hs).change hst
  · exact .inl h
  · exact .inr ⟨i, hm, hc⟩

/-- Without consent, nothing about marketing is added, and nothing is read. -/
theorem marketing_of_reachIf {userId : UUID}
    (hs : Reach Always (System.init (fun i => (request i).prog) d) s)
    (hno : ReachIf (fun s _ => ¬s.store.Consents userId) s s') :
    (∀ n ∈ s'.store.notifications.rows, n.userId = userId → n.messageType = .marketing →
      n ∈ s.store.notifications.rows) ∧
      marketingEvents userId s'.store = marketingEvents userId s.store := by
  suffices h : Reach Always (System.init (fun i => (request i).prog) d) s' ∧
      (∀ n ∈ s'.store.notifications.rows, n.userId = userId → n.messageType = .marketing →
        n ∈ s.store.notifications.rows) ∧
          marketingEvents userId s'.store = marketingEvents userId s.store from h.2
  induction hno with
  | refl => exact ⟨hs, fun n hn _ _ => hn, rfl⟩
  | @step s₁ s₂ m _ hconsent hst ih =>
    obtain ⟨hs₁, hrows, hevents⟩ := ih
    refine ⟨hs₁.step hst, ?_⟩
    obtain heq | ⟨i, -, hc⟩ := commits_of_step hs₁ hst
    · rw [heq]
      exact ⟨hrows, hevents⟩
    refine ⟨fun n hn huser hmarketing => ?_, ?_⟩
    · refine hrows n ?_ huser hmarketing
      by_contra hnew
      exact hconsent (huser ▸ consents_of_commits hc hn hmarketing hnew)
    · obtain ⟨events, happend, hconsents⟩ := events_of_commits hc
      have hnone : events.filter (fun e => e.event.userId = userId ∧
          e.event.messageType = .marketing) = [] := by
        rw [List.filter_eq_nil_iff]
        intro e he hmarketing
        rw [decide_eq_true_eq] at hmarketing
        exact hconsent (hmarketing.1 ▸ hconsents e he hmarketing.2)
      rw [marketingEvents, happend, List.filter_append, hnone, List.append_nil]
      exact hevents

/-! A notification is read by a commit only. -/

theorem deferred_getSettingsForUpdate (userId : UUID) :
    (SqlAlchemyNotificationRepository.getSettingsForUpdate userId).Deferred := by
  refine (Prog.Deferred.exec _ _ _).bind fun _ => (Prog.Deferred.exec _ _ _).bind fun record => ?_
  rcases record with - | settings
  · trivial
  · trivial

theorem deferred_markRead (notificationId userId : UUID) (readAt : Instant) :
    (SqlAlchemyNotificationRepository.markRead notificationId userId readAt).Deferred := by
  refine (Prog.Deferred.exec _ _ _).bind fun record => ?_
  rcases record with - | record
  · trivial
  · exact (Prog.Deferred.exec _ _ _).bind fun _ => trivial

theorem returnsByCommit_markRead (command : NotificationCommand) (readAt : Instant) :
    (NotificationRequest.markRead command readAt).prog.ReturnsByCommit := by
  refine Prog.ReturnsByCommit.map ?_
  refine .bind (deferred_getSettingsForUpdate _) fun _ => ?_
  refine .bind (deferred_markRead _ _ _) fun n => ?_
  rcases n with - | n
  · trivial
  · exact ⟨⟨n, rfl⟩, _, rfl⟩

/-- What is hidden is not read. -/
theorem not_returned_of_hidden {i : ι} {command : NotificationCommand} {readAt : Instant}
    (hrequest : request i = .markRead command readAt)
    (hs : Reach Always (System.init (fun i => (request i).prog) d) s)
    (hhidden : ReachIf (fun s _ => ¬Visible command s.store) s s') (hnone : s.returned i = none) :
    s'.returned i = none := by
  suffices h : Reach Always (System.init (fun i => (request i).prog) d) s' ∧
    s'.returned i = none from h.2
  induction hhidden with
  | refl => exact ⟨hs, hnone⟩
  | @step s₁ s₂ m _ hnot hst ih =>
    obtain ⟨hs₁, hnone₁⟩ := ih
    refine ⟨hs₁.step hst, ?_⟩
    by_contra hne
    obtain ⟨a, ha⟩ := Option.ne_none_iff_exists'.1 hne
    have hprog : (request i).prog.ReturnsByCommit := by
      rw [hrequest]
      exact returnsByCommit_markRead command readAt
    obtain ⟨next, rfl, hnext⟩ := hs₁.commit_of_returned hprog hst hnone₁ ha
    have hc : (request i).Commits s₁.store s₂.store := ((meets request d).good hs₁).commits hnext hst
    rw [hrequest] at hc
    exact hnot (MarkedRead.found hc)

/-- Marketing needs consent: in every step of every run, notifications about marketing are added or
    read, and their events added, only while the user consents, so that nothing of it happens
    between a withdrawal and the next consent. A notification that is hidden or gone is not found,
    or a statement fails, and nothing is changed. An update changes what it names, of the settings
    in force. -/
theorem marketing_consented (hs : Reach Always (System.init (fun i => (request i).prog) d) s) :
    (∀ m s', Step Always s m s' →
      (∀ n ∈ s'.store.notifications.rows, n.messageType = .marketing →
        n ∉ s.store.notifications.rows →
        s.store.Consents n.userId) ∧
      ∃ events, s'.store.outboxEvents = s.store.outboxEvents ++ events ∧
        ∀ e ∈ events, e.event.messageType = .marketing → s.store.Consents e.event.userId) ∧
    (∀ userId s', ReachIf (fun s _ => ¬s.store.Consents userId) s s' →
      (∀ n ∈ s'.store.notifications.rows, n.userId = userId → n.messageType = .marketing →
        n ∈ s.store.notifications.rows) ∧
          marketingEvents userId s'.store = marketingEvents userId s.store) ∧
    (∀ i command readAt, request i = .markRead command readAt →
      (∀ next s', (s.session i).prog = some (.commit next) → Step Always s (.run i) s' →
        MarkedRead command readAt s.store s'.store) ∧
      (∀ s', ReachIf (fun s _ => ¬Visible command s.store) s s' → s.returned i = none →
        s'.returned i = none) ∧
      (∀ e, s.raised i = some e → e = .notFound "알림을 찾을 수 없습니다." ∨
        ∃ statement, e = .fault statement) ∧
      ∀ m s', Step Always s m s' → m.session = i → s'.store ≠ s.store → ∃ a, s'.returned i = some a) ∧
    (∀ i command, request i = .updateSettings command →
      ∀ next s', (s.session i).prog = some (.commit next) →
      Step Always s (.run i) s' → SettingsUpdated command s.store s'.store) ∧
    ∀ m s' userId, Step Always s m s' → s'.store.getSettings userId = s.store.getSettings userId ∨
      ∃ i command, m = .run i ∧ request i = .updateSettings command ∧ command.userId = userId ∧
        SettingsUpdated command s.store s'.store := by
  have hgood := (meets request d).good hs
  -- What a request commits is what `Commits` says of it.
  have hcommits : ∀ {i : ι} {next s'}, (s.session i).prog = some (.commit next) →
      Step Always s (.run i) s' →
        (request i).Commits s.store s'.store := fun hnext hst => hgood.commits hnext hst
  refine ⟨fun m s' hst => ?_, fun userId s' hno =>
    marketing_of_reachIf hs hno, fun i command readAt hrequest =>
      ?_, fun i command hrequest next s' hnext hst => ?_, fun m s' userId hst => ?_⟩
  · obtain heq | ⟨i, -, hc⟩ := commits_of_step hs hst
    · rw [heq]
      exact ⟨fun n hn _ hnew => absurd hn hnew, [], (List.append_nil _).symm,
        fun _ he => absurd he List.not_mem_nil⟩
    · exact ⟨fun n hn hmarketing hnew =>
        consents_of_commits hc hn hmarketing hnew, events_of_commits hc⟩
  · refine ⟨fun next s' hnext hst => ?_, fun s' hhidden hnone =>
      not_returned_of_hidden hrequest hs hhidden hnone, fun e he => ?_, fun m s' hst hm hne => ?_⟩
    · have hc := hcommits hnext hst
      rw [hrequest] at hc
      exact hc
    · have hraises := ((meets request d).sound hs).2.2 i e he
      rw [hrequest] at hraises
      exact hraises
    · have hprog : (request i).prog.CommitsLast := by
        rw [hrequest]
        exact (returnsByCommit_markRead command readAt).commitsLast
      exact hs.returned_of_commit hprog hst hm hne
  · have hc := hcommits hnext hst
    rw [hrequest] at hc
    exact hc
  · obtain heq | ⟨i, hm, hc⟩ := commits_of_step hs hst
    · rw [heq]
      exact .inl rfl
    · obtain heq | ⟨command, hrequest, huser, hupdated⟩ := settings_of_commits hc userId
      · exact .inl heq
      · exact .inr ⟨i, command, hm, hrequest, huser, hupdated⟩

end Runs

/-- A notification about marketing. -/
def offer : UserNotification where
  id := .ofNat 2
  userId := .ofNat 1
  category := .benefit
  messageType := .marketing
  kind := ⟨"offer", by decide, by decide, by decide⟩
  title := ⟨"A", by decide, by decide, by decide⟩
  message := ⟨"B", by decide, by decide, by decide⟩
  resourceType := none
  resourceId := none
  metadata := ⟨[], rfl⟩
  createdAt := 0
  readAt := none

/-- The user has been sent the offer, and consents. -/
def offers : NotificationsDatabase :=
  insertNotification offer (insertSettings ⟨.ofNat 1, true, true⟩ .empty)

/-- The offer is read, or the consent is withdrawn. -/
def offerRequests : Bool → NotificationRequest
  | false => .markRead ⟨.ofNat 1, .ofNat 2⟩ 0
  | true => .updateSettings ⟨.ofNat 1, none, some false⟩

/-- The offer is not found once the consent is withdrawn. -/
theorem marketing_consented_offer :
    ∃ s, Reach Always (System.init (fun i => (offerRequests i).prog) offers) s ∧
    s.returned true ≠ none ∧
      ∃ e, s.raised false = some e ∧
      (e = .notFound "알림을 찾을 수 없습니다." ∨ ∃ statement, e = .fault statement) := by
  obtain ⟨s, hs, hreturned, hraised⟩ := System.exists_reach (C := Always)
    (s := System.init (fun i => (offerRequests i).prog) offers)
    (p := fun s => s.returned true ≠ none ∧ (s.raised false).isSome)
    (List.replicate 3 (.run true) ++ List.replicate 3 (.run false)) (by decide +kernel)
  obtain ⟨e, he⟩ := Option.isSome_iff_exists.1 hraised
  exact ⟨s, hs, hreturned, e, he, ((marketing_consented hs).2.2.1 false _ _ rfl).2.2.1 e he⟩

end Boat.Notifications
