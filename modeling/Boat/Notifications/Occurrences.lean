import Boat.Notifications.CommitsSpec

/-!
# Notifications: occurrences

The scheduler creates the notification of an occurrence once, however many runs overlap, fail or
crash, and with all its rows.

* `notifications_scheduled_once`: in every run, an occurrence has one row, which has been committed
  with its notification and its event; a run commits whole candidates only, and a dry run nothing.
-/

namespace Boat.Notifications

open ReadCommitted NotificationsDatabase

/-- Occurrences and events are about notifications that are there, occurrences about different
    ones. -/
structure Linked (d : NotificationsDatabase) : Prop where
  notifications : ∀ o ∈ d.occurrences.rows, ∀ id, o.notificationId = some id →
    ∃ n ∈ d.notifications.rows, n.id = id
  events : ∀ e ∈ d.outboxEvents, ∃ n ∈ d.notifications.rows, n.id = e.event.notificationId
  injective : ∀ o ∈ d.occurrences.rows, ∀ o' ∈ d.occurrences.rows, ∀ id, o.notificationId = some id →
    o'.notificationId = some id → o = o'

/-- What has come since `d₀`: every occurrence with one notification and one event. -/
structure Once (d₀ d : NotificationsDatabase) : Prop extends Linked d where
  kept : ∀ o ∈ d₀.occurrences.rows, o ∈ d.occurrences.rows
  complete : ∀ o ∈ d.occurrences.rows, o ∉ d₀.occurrences.rows → ∃ n ∈ d.notifications.rows,
    o.notificationId = some n.id ∧ d.outboxEvents.countP (·.event.notificationId = n.id) = 1

theorem Linked.once {d : NotificationsDatabase} (h : Linked d) : Once d d where
  toLinked := h
  kept _ ho := ho
  complete _ ho hnew := absurd ho hnew

variable {d₀ d d' : NotificationsDatabase}

/-- Changes to settings, and to what has been read, keep it. -/
theorem Once.congr (h : Once d₀ d) (hoccurrences : d'.occurrences = d.occurrences)
    (hnotifications : ∀ n ∈ d.notifications.rows, ∃ n' ∈ d'.notifications.rows, n'.id = n.id)
    (hevents : d'.outboxEvents = d.outboxEvents) : Once d₀ d' where
  notifications o ho id hid := by
    rw [hoccurrences] at ho
    obtain ⟨n, hn, rfl⟩ := h.notifications o ho id hid
    exact hnotifications n hn
  events e he := by
    rw [hevents] at he
    obtain ⟨n, hn, hid⟩ := h.events e he
    obtain ⟨n', hn', hid'⟩ := hnotifications n hn
    exact ⟨n', hn', hid'.trans hid⟩
  injective := by
    rw [hoccurrences]
    exact h.injective
  kept := by
    rw [hoccurrences]
    exact h.kept
  complete o ho hnew := by
    rw [hoccurrences] at ho
    obtain ⟨n, hn, hid, hcount⟩ := h.complete o ho hnew
    obtain ⟨n', hn', hid'⟩ := hnotifications n hn
    rw [hevents]
    exact ⟨n', hn', hid'.symm ▸ hid, hid'.symm ▸ hcount⟩

/-- So does a creation, with an occurrence if it has an event. -/
theorem Once.created (h : Once d₀ d) {n : UserNotification}
    {events : List (Stamped NotificationCreated)} (hc : Created n events d d')
    (hevents : ∀ e ∈ events, e.event.notificationId = n.id)
    (hkept : ∀ o ∈ d.occurrences.rows, o ∈ d'.occurrences.rows)
    (hadded : ∀ o ∈ d'.occurrences.rows, o ∉ d.occurrences.rows → o.notificationId = some n.id ∧
      events.length = 1 ∧
      ∀ o' ∈ d'.occurrences.rows, o' ∉ d.occurrences.rows → o = o') : Once d₀ d' := by
  have hn : n ∈ d'.notifications.rows := by
    rw [hc.notifications]
    refine Table.mem_insert.2 (.inr ⟨rfl, fun hmem => ?_⟩)
    obtain ⟨r, hr, hid⟩ := List.mem_map.1 hmem
    exact hc.unused r hr hid
  have hmem : ∀ r ∈ d.notifications.rows, r ∈ d'.notifications.rows := by
    intro r hr
    rw [hc.notifications]
    exact Table.mem_insert.2 (.inl hr)
  -- The occurrences before have notifications that there were, and this one is new.
  have hold : ∀ o ∈ d.occurrences.rows, o.notificationId ≠ some n.id := by
    intro o ho hid
    obtain ⟨r, hr, hrid⟩ := h.notifications o ho _ hid
    exact hc.unused r hr hrid
  have hnone : d.outboxEvents.countP (·.event.notificationId = n.id) = 0 := by
    rw [List.countP_eq_zero]
    intro e he hid
    obtain ⟨r, hr, hrid⟩ := h.events e he
    exact hc.unused r hr (hrid.trans (of_decide_eq_true hid))
  refine ⟨⟨fun o ho id hid => ?_, fun e he => ?_, fun o ho o' ho' id hid hid' => ?_⟩, fun o ho =>
    hkept o (h.kept o ho), fun o ho hnew => ?_⟩
  · by_cases hmem' : o ∈ d.occurrences.rows
    · obtain ⟨r, hr, hrid⟩ := h.notifications o hmem' id hid
      exact ⟨r, hmem r hr, hrid⟩
    · obtain ⟨hid₀, -⟩ := hadded o ho hmem'
      exact ⟨n, hn, Option.some.inj (hid₀.symm.trans hid)⟩
  · rw [hc.outboxEvents] at he
    rcases List.mem_append.1 he with he | he
    · obtain ⟨r, hr, hrid⟩ := h.events e he
      exact ⟨r, hmem r hr, hrid⟩
    · exact ⟨n, hn, (hevents e he).symm⟩
  · by_cases hmem₁ : o ∈ d.occurrences.rows
    · by_cases hmem₂ : o' ∈ d.occurrences.rows
      · exact h.injective o hmem₁ o' hmem₂ id hid hid'
      · exact absurd (hid.trans (hid'.symm.trans (hadded o' ho' hmem₂).1)) (hold o hmem₁)
    · by_cases hmem₂ : o' ∈ d.occurrences.rows
      · exact absurd (hid'.trans (hid.symm.trans (hadded o ho hmem₁).1)) (hold o' hmem₂)
      · exact (hadded o ho hmem₁).2.2 o' ho' hmem₂
  · rw [hc.outboxEvents]
    by_cases hmem' : o ∈ d.occurrences.rows
    · obtain ⟨r, hr, hid, hcount⟩ := h.complete o hmem' hnew
      refine ⟨r, hmem r hr, hid, ?_⟩
      rw [List.countP_append, hcount, List.countP_eq_zero.2]
      intro e he heq
      rw [decide_eq_true_eq, hevents e he] at heq
      exact hc.unused r hr heq.symm
    · obtain ⟨hid, hlength, -⟩ := hadded o ho hmem'
      refine ⟨n, hn, hid, ?_⟩
      rw [List.countP_append, hnone, Nat.zero_add, List.countP_eq_length.2 fun e he =>
        decide_eq_true (hevents e he), hlength]

theorem notificationId_of_mem_events {n : UserNotification} {stamps : CreationStamps}
    {e : Stamped NotificationCreated} (he : e ∈ stamps.events n) : e.event.notificationId = n.id := by
  rw [List.mem_singleton.1 he]
  rfl

/-- Every commit but a deletion keeps it. -/
theorem Once.commits (h : Once d₀ d) {r : NotificationRequest} (hc : r.Commits d d')
    (hdelete : ∀ command, r ≠ .delete command) : Once d₀ d' := by
  -- The requests: settings, a creation, a scheduled run, a notification that is read, and a deletion.
  rcases r with command | ⟨publisher, command, stamps⟩ | run | ⟨command, readAt⟩ | command
  · refine h.congr (SettingsUpdated.occurrences hc) (fun n hn => ⟨n, ?_, rfl⟩)
      (SettingsUpdated.outboxEvents hc)
    rw [SettingsUpdated.notifications hc]
    exact hn
  · obtain ⟨n, -, hcreated, hoccurrences⟩ := hc
    refine h.created hcreated (fun e he => ?_) (fun o ho => hoccurrences ▸ ho) fun o ho hnew => ?_
    · rcases publisher with - | -
      · exact notificationId_of_mem_events he
      · exact absurd he List.not_mem_nil
    · rw [hoccurrences] at ho
      exact absurd ho hnew
  · obtain ⟨-, candidate, stamps, n, hscheduled⟩ := hc
    have hadded : ∀ o ∈ d'.occurrences.rows, o ∉ d.occurrences.rows →
        o = ⟨candidate.occurrence, some n.id⟩ := by
      intro o ho hnew
      rw [hscheduled.occurrences] at ho
      rcases Table.mem_insert.1 ho with ho | ⟨rfl, -⟩
      · exact absurd ho hnew
      · rfl
    refine h.created hscheduled.toCreated (fun e he => notificationId_of_mem_events he)
      (fun o ho => ?_) fun o ho hnew => ?_
    · rw [hscheduled.occurrences]
      exact Table.mem_insert.2 (.inl ho)
    · rw [hadded o ho hnew]
      exact ⟨rfl, rfl, fun o' ho' hnew' => (hadded o' ho' hnew').symm⟩
  · obtain ⟨-, hnotifications, -, hoccurrences, hevents⟩ := hc
    refine h.congr hoccurrences (fun n hn => ?_) hevents
    rw [hnotifications]
    by_cases hid : n.id = command.notificationId
    · exact ⟨_, mem_updateNotification.2 (.inr ⟨n, hn, hid, rfl⟩), rfl⟩
    · exact ⟨n, mem_updateNotification.2 (.inl ⟨hn, hid⟩), rfl⟩
  · exact absurd rfl (hdelete command)

/-- Occurrences are added by a run of the scheduler only, and stay. -/
theorem occurrences_of_commits {r : NotificationRequest}
    (hc : r.Commits d d') : d'.occurrences = d.occurrences ∨
    ∃ run candidate stamps n, r = .schedule run ∧ Scheduled candidate stamps n d d' := by
  rcases r with command | ⟨publisher, command, stamps⟩ | run | ⟨command, readAt⟩ | command
  · exact .inl (SettingsUpdated.occurrences hc)
  · obtain ⟨n, -, -, hoccurrences⟩ := hc
    exact .inl hoccurrences
  · obtain ⟨-, candidate, stamps, n, hscheduled⟩ := hc
    exact .inr ⟨run, candidate, stamps, n, rfl, hscheduled⟩
  · exact .inl (MarkedRead.occurrences hc)
  · exact .inl (Deleted.occurrences hc)

theorem mem_occurrences_of_commits {r : NotificationRequest} (hc : r.Commits d d')
    {o : ScheduleOccurrence} (ho : o ∈ d.occurrences.rows) : o ∈ d'.occurrences.rows := by
  obtain heq | ⟨run, candidate, stamps, n, -, hscheduled⟩ := occurrences_of_commits hc
  · exact heq ▸ ho
  · rw [hscheduled.occurrences]
    exact Table.mem_insert.2 (.inl ho)

/-! ## Runs -/

/-- The occurrence is created. -/
def Creates (key : ScheduleOccurrenceKey) (d d' : NotificationsDatabase) : Prop :=
  key ∉ d.occurrences.rows.map (·.key) ∧ key ∈ d'.occurrences.rows.map (·.key)

section Runs

variable {ι : Type} [DecidableEq ι] {request : ι → NotificationRequest}
  {s s' : System ι NotificationsDatabase NotificationsStatement NotificationsError
    NotificationResponse}

theorem mem_occurrences_of_reach (hs : Reach Always (System.init (fun i => (request i).prog) d) s)
    (hs' : Reach Always s s') {o : ScheduleOccurrence} (ho : o ∈ s.store.occurrences.rows) :
    o ∈ s'.store.occurrences.rows := by
  induction hs' with
  | refl => exact ho
  | @step s₁ s₂ m hs₁ hst ih =>
    obtain heq | ⟨i, -, -, hc, -⟩ := ((meets request d).good (hs.trans hs₁)).change hst
    · exact heq ▸ ih
    · exact mem_occurrences_of_commits hc ih

theorem once_of_reach (hdelete : ∀ i command, request i ≠ .delete command) (hd : Linked d)
    (hs : Reach Always (System.init (fun i => (request i).prog) d) s) : Once d s.store := by
  induction hs with
  | refl => exact hd.once
  | @step s₁ s₂ m hs₁ hst ih =>
    obtain heq | ⟨i, -, -, hc, -⟩ := ((meets request d).good hs₁).change hst
    · exact heq ▸ ih
    · exact ih.commits hc (hdelete i)

/-- Scheduled notifications are created exactly once, and with all their rows: in every state of
    every run, an occurrence that has come has one row, one notification, which is of no other
    occurrence, and one event. A run of the scheduler changes nothing, or commits all rows of one
    candidate, and nothing if it is dry. An occurrence is created at most once in a run of all of
    them. -/
theorem notifications_scheduled_once (hdelete : ∀ i command, request i ≠ .delete command)
    (hd : Linked d) (hs : Reach Always (System.init (fun i => (request i).prog) d) s) :
    (s.store.occurrences.rows.map (·.key)).Nodup ∧
    (∀ o ∈ s.store.occurrences.rows, o ∉ d.occurrences.rows → ∃ n ∈ s.store.notifications.rows,
      o.notificationId = some n.id ∧ s.store.outboxEvents.countP (·.event.notificationId = n.id) = 1 ∧
      ∀ o' ∈ s.store.occurrences.rows, o'.notificationId = some n.id → o' = o) ∧
    (∀ i run, request i = .schedule run → ∀ m s', Step Always s m s' → m.session = i →
      s'.store = s.store ∨
      run.command.dryRun = false ∧ ∃ candidate stamps n,
      Scheduled candidate stamps n s.store s'.store) ∧
    (∀ m s', Step Always s m s' → s'.store.occurrences = s.store.occurrences ∨
      ∃ i run candidate stamps n, m = .run i ∧ request i = .schedule run ∧
        Scheduled candidate stamps n s.store s'.store) ∧
    (∀ m s₁ candidate stamps n, Step Always s m s₁ → Scheduled candidate stamps n s.store s₁.store →
      ∀ s₂, Reach Always s₁ s₂ → ⟨candidate.occurrence, some n.id⟩ ∈ s₂.store.occurrences.rows ∧
        (∀ o ∈ s₂.store.occurrences.rows, o.notificationId = some n.id →
          o = ⟨candidate.occurrence, some n.id⟩) ∧
        s₂.store.outboxEvents.countP (·.event.notificationId = n.id) = 1) ∧
    ∀ m s₁ s₂ m' s₃ key, Step Always s m s₁ → Reach Always s₁ s₂ → Step Always s₂ m' s₃ →
      Creates key s.store s₁.store → ¬Creates key s₂.store s₃.store := by
  have honce := once_of_reach hdelete hd hs
  refine ⟨s.store.occurrences.nodup,
    fun o ho hnew => ?_, fun i run hrequest m s' hst hm => ?_, fun m s' hst =>
      ?_, fun m s₁ candidate stamps n hst hscheduled s₂ hs₂ =>
        ?_, fun m s₁ s₂ m' s₃ key hst hs₂ _ hcreates => ?_⟩
  · obtain ⟨n, hn, hid, hcount⟩ := honce.complete o ho hnew
    exact ⟨n, hn, hid, hcount, fun o' ho' hid' => honce.injective o' ho' o ho _ hid' hid⟩
  · obtain heq | ⟨j, rfl, -, hc, -⟩ := ((meets request d).good hs).change hst
    · exact .inl heq
    · obtain rfl : j = i := hm
      have hc : (request j).Commits s.store s'.store := hc
      rw [hrequest] at hc
      exact .inr hc
  · obtain heq | ⟨i, hm, -, hc, -⟩ := ((meets request d).good hs).change hst
    · exact .inl (congrArg NotificationsDatabase.occurrences heq)
    · obtain heq | ⟨run, candidate, stamps, n, hrequest, hscheduled⟩ := occurrences_of_commits hc
      · exact .inl heq
      · exact .inr ⟨i, run, candidate, stamps, n, hm, hrequest, hscheduled⟩
  · -- The row is new, and stays.
    have hnew : (⟨candidate.occurrence, some n.id⟩ : ScheduleOccurrence) ∉ d.occurrences.rows :=
      fun hmem =>
      hscheduled.unreserved _ (honce.kept _ hmem) rfl
    have hmem₁ : (⟨candidate.occurrence, some n.id⟩ : ScheduleOccurrence) ∈
        s₁.store.occurrences.rows := by
      rw [hscheduled.occurrences]
      refine Table.mem_insert.2 (.inr ⟨rfl, fun hmem => ?_⟩)
      obtain ⟨o, ho, hkey⟩ := List.mem_map.1 hmem
      exact hscheduled.unreserved o ho hkey
    have hs₁ := hs.step hst
    have hmem₂ := mem_occurrences_of_reach hs₁ hs₂ hmem₁
    have honce₂ := once_of_reach hdelete hd (hs₁.trans hs₂)
    obtain ⟨n', -, hid, hcount⟩ := honce₂.complete _ hmem₂ hnew
    rw [← Option.some.inj hid] at hcount
    exact ⟨hmem₂, fun o ho hid' => honce₂.injective o ho _ hmem₂ _ hid' rfl, hcount⟩
  · rintro ⟨hnone, -⟩
    obtain ⟨o, ho, hkey⟩ := List.mem_map.1 hcreates.2
    exact hnone (List.mem_map.2 ⟨o, mem_occurrences_of_reach (hs.step hst) hs₂ ho, hkey⟩)

end Runs

/-- A run of a reminder and of a warranty, which numbers its notifications from here on. -/
def reminderRun (first : ℕ) : ScheduledRun where
  command := inTwos
  rules := [idleRule, itemNameRule]
  sees _ _ _ := fourUsers
  stamps rule candidate :=
    ⟨0, .ofNat (first + 10 * rule + candidate), ⟨.ofNat (first + 10 * rule + candidate), 0⟩⟩
  fuel := 3

/-- Two runs that overlap. -/
def reminderRuns : Bool → NotificationRequest
  | false => .schedule (reminderRun 100)
  | true => .schedule (reminderRun 200)

/-- User 1 has given the marketing consent, and user 3 has not. -/
def consentOfOne : NotificationsDatabase :=
  { NotificationsDatabase.empty with
    settings := (Table.empty.insert ⟨.ofNat 1, true, true⟩).insert ⟨.ofNat 3, true, false⟩ }

/-- The reminder of user 1 and the three receipts have one occurrence each, with its notification,
    and one event. User 3 is not reminded. -/
theorem notifications_scheduled_once_reminders :
    ∃ s, Reach Always (System.init (fun i => (reminderRuns i).prog) consentOfOne) s ∧
      (∀ i, (s.returned i).isSome) ∧
      s.store.occurrences.rows.map (fun o => (o.key.campaignKey.value, o.key.targetId)) =
        [("receipt_idle", .ofNat 1), ("warranty_risk_d7", .ofNat 11), ("warranty_risk_d7", .ofNat 12),
          ("warranty_risk_d7", .ofNat 13)] ∧
      (s.store.occurrences.rows.map (·.key)).Nodup ∧
      ∀ o ∈ s.store.occurrences.rows, o ∉ consentOfOne.occurrences.rows →
        ∃ n ∈ s.store.notifications.rows,
          o.notificationId = some n.id ∧
          s.store.outboxEvents.countP (·.event.notificationId = n.id) = 1 ∧
          ∀ o' ∈ s.store.occurrences.rows, o'.notificationId = some n.id → o' = o := by
  obtain ⟨s, hs, hreturned, hrows⟩ := System.exists_reach (C := Always)
    (s := System.init (fun i => (reminderRuns i).prog) consentOfOne)
    (p := fun s => (∀ i, (s.returned i).isSome) ∧
      s.store.occurrences.rows.map (fun o => (o.key.campaignKey.value, o.key.targetId)) =
        [("receipt_idle", .ofNat 1), ("warranty_risk_d7", .ofNat 11), ("warranty_risk_d7", .ofNat 12),
          ("warranty_risk_d7", .ofNat 13)])
    -- The one run waits for the other to commit its first occurrence.
    (List.replicate 9 (.run true) ++ List.replicate 3 (.run false) ++ List.replicate 26 (.run true) ++
      List.replicate 14 (.run false)) (by decide +kernel)
  have hdelete : ∀ i command, reminderRuns i ≠ .delete command := by
    rintro (- | -) command h
    · cases h
    · cases h
  have hlinked : Linked consentOfOne := by
    refine ⟨?_, ?_, ?_⟩
    · exact fun o ho => absurd ho List.not_mem_nil
    · exact fun e he => absurd he List.not_mem_nil
    · exact fun o ho => absurd ho List.not_mem_nil
  obtain ⟨hnodup, honce, -⟩ := notifications_scheduled_once hdelete hlinked hs
  exact ⟨s, hs, hreturned, hrows, hnodup, honce⟩

end Boat.Notifications
