import Boat.Outbox.Delivery

/-!
# Outbox: claims are fenced

The `occurred_at` of a row is the time, the lease and the generation of its latest claim
(`claims_fenced`).

* `IsClaim`, `IsFailure`: the steps that commit a claim, or count a failure.
* `valid_or_superseded`: a claim is valid until another one supersedes it.
* `InLease`: no relay redelivers a row so soon after a claim. With synchronous clocks the
  claim is valid as long as its lease (`valid_of_inLease`).
* `Timely`: dispatches end within the lease.
-/

namespace Boat

open Transition

namespace Outbox

variable {ι π : Type} [DecidableEq ι] [EventTypeRegistry π]

/-- The step commits the claim `c`. -/
def IsClaim (c : ClaimedEvent π) (s : Outbox ι π) (m : Move ι π) : Prop :=
  ∃ i, m = .run i ∧ s.phase i = .claiming c

/-- The step counts a failure of the claim `c`. -/
def IsFailure (c : ClaimedEvent π) (s : Outbox ι π) (m : Move ι π) : Prop :=
  ∃ i, m = .run i ∧ s.phase i = .settled c false true

/-- Another claim of the event has been committed after the claim `c` of worker `i`. -/
def Superseded (worker : ι → Worker) (i : ι) (c : ClaimedEvent π) (s : Outbox ι π) :
    List (Move ι π) → Outbox ι π → Prop :=
  Did (Step worker) (fun ms₁ s₁ m _ => HasClaimed worker i c s ms₁ s₁ ∧
    ∃ c', IsClaim c' s₁ m ∧ c'.eventId = c.eventId) s

/-- The lease of a claim: the time in which no relay redelivers the row. -/
def InLease (worker : ι → Worker) (s : Outbox ι π) (c : ClaimedEvent π) : Prop :=
  ∀ j r, worker j = .relay r → s.now ≤ c.claimedAt + seconds r.redeliverAfterSeconds

/-- Every dispatch that goes on is within the lease of its claim. -/
def Timely (worker : ι → Worker) (s : Outbox ι π) : Prop :=
  ∀ i c, s.phase i = .dispatching c → InLease worker s c

/-- The steps with synchronous clocks. -/
def SyncedStep (worker : ι → Worker) (s : Outbox ι π) (m : Move ι π) (s' : Outbox ι π) : Prop :=
  Step worker s m s' ∧ Synced s m

/-- The steps with synchronous clocks, while dispatches are timely. -/
def TimelyStep (worker : ι → Worker) (s : Outbox ι π) (m : Move ι π) (s' : Outbox ι π) : Prop :=
  SyncedStep worker s m s' ∧ Timely worker s'

/-- No worker dispatches the event. -/
def Idle (e : UUID) (s : Outbox ι π) : Prop := ∀ j c, s.phase j = .dispatching c → c.eventId ≠ e

variable {worker : ι → Worker} {s s₀ s₁ s₂ s₃ s' : Outbox ι π} {m : Move ι π}
  {ms ms' : List (Move ι π)}
  {i : ι} {c : ClaimedEvent π} {t : Instant}

/-! ## Generations -/

theorem HasClaimed.isClaim (h : HasClaimed worker i c s ms s') :
    Did (Step worker) (fun _ s₁ m _ => IsClaim c s₁ m) s ms s' :=
  Did.mono (fun _ _ _ _ h => ⟨i, h⟩) h

/-- A committed claim is a lower bound of the row, and later than its event. -/
theorem le_of_claim (h : Run (Step worker) (Outbox.init t) ms s)
    (hd : Did (Step worker) (fun _ s₁ m _ => IsClaim c s₁ m) (Outbox.init t) ms s) {row : OutboxRow π}
    (hrow : s.rows.find c.eventId = some row) : c.claimedAt ≤ row.occurredAt ∧
      ∀ event, deserializeEvent row.eventType row.payload = some event →
      event.occurredAt < c.claimedAt := by
  obtain ⟨ms₁, _, ms₂, s₁, s₂, rfl, hr₁, ⟨i, rfl, hp⟩, hst, hr₂⟩ := hd
  have hs₁ := Inv.of_run hr₁
  obtain ⟨row₁, hrow₁, -, htype, hpay, -, ht, hrow₂⟩ := hs₁.find_claim hp hst
  have hs₂ := hs₁.keeps (.single hst)
  obtain ⟨row', hrow', ha⟩ := (hs₂.later_of_run hr₂).ahead _ (hs₂.published _ _ hrow₂) _ hrow
  obtain rfl := Option.some_inj.1 (hrow₂.symm.trans hrow')
  refine ⟨ha.occurredAt, fun event hev => ?_⟩
  rw [ha.eventType, ha.payload] at hev
  exact (hs₁.occurredAt _ _ hrow₁ event hev).trans_lt ht

/-- A row has failed as often as its `retry_count` says. -/
theorem lt_of_failure (h : Run (Step worker) (Outbox.init t) ms s)
    (hd : Did (Step worker) (fun _ s₁ m _ => IsFailure c s₁ m) (Outbox.init t) ms s)
    {row : OutboxRow π} (hrow : s.rows.find c.eventId = some row) : 0 < row.retryCount := by
  obtain ⟨ms₁, _, ms₂, s₁, s₂, rfl, hr₁, ⟨i, rfl, hp⟩, hst, hr₂⟩ := hd
  have hs₁ := Inv.of_run hr₁
  obtain ⟨row₁, ⟨-, hrow₁⟩, hid, hm⟩ := hs₁.settled hp
  have hs₂ := hs₁.keeps (.single hst)
  have hl := hs₁.later_of_run (.single hst)
  obtain ⟨row₂, hrow₂, ha⟩ :=
    (hs₂.later_of_run hr₂).ahead _ (hl.published (hs₁.published _ _ (hid ▸ hrow₁))) _ hrow
  rw [(settled_step hp hst).1, if_pos rfl, find_settle, if_pos rfl, ← hid, hrow₁] at hrow₂
  obtain rfl := Option.some_inj.1 hrow₂
  have hc := (hs₁.committed (i := i) (c := c) (by rw [hp]; rfl)).nonneg
  exact lt_of_lt_of_le (Int.lt_add_one_of_le hc) ha.retryCount

/-- A worker that claims a row finds it as claimed, and moves it forward. -/
theorem claim_step (h : Run (Step worker) (Outbox.init t) ms s) (hc : IsClaim c s m)
    (hst : Step worker s m s') :
    ∃ row, s.rows.find c.eventId = some row ∧ row.occurredAt < c.claimedAt ∧
      s'.rows.find c.eventId = some (row.claimed c.claimedAt) := by
  obtain ⟨i, rfl, hp⟩ := hc
  obtain ⟨row, hrow, -, -, -, -, ht, hrow'⟩ := (Inv.of_run h).find_claim hp hst
  exact ⟨row, hrow, ht, hrow'⟩

/-- The `occurred_at` of a row changes by a claim only. -/
theorem occurredAt_step (h : Run (Step worker) (Outbox.init t) ms s)
    (hst : Step worker s m s') {e : UUID} {row row' : OutboxRow π} (hrow : s.rows.find e = some row)
    (hrow' : s'.rows.find e = some row') (hne : row'.occurredAt ≠ row.occurredAt) : ∃ c,
    IsClaim c s m ∧ c.eventId = e ∧ row' = row.claimed c.claimedAt := by
  have hr := (Inv.of_run h).row (step_cases hst) e
  rw [hrow, hrow'] at hr
  cases hr with
  | stay | fail => exact absurd rfl hne
  | claim hp hc => exact ⟨_, ⟨_, rfl, hp⟩, hc, rfl⟩

/-- The immediate path claims a row that has neither been claimed nor failed. -/
theorem immediate_claim (h : Run (Step worker) (Outbox.init t) ms s) {e : UUID}
    (hw : worker i = .immediate e) (hp : s.phase i = .claiming c) {c' : ClaimedEvent π}
    (hc : c'.eventId = c.eventId) :
    ¬Did (Step worker) (fun _ s₁ m _ => IsClaim c' s₁ m ∨ IsFailure c' s₁ m)
      (Outbox.init t) ms s := by
  obtain ⟨row, ⟨-, hrow⟩, t', rfl, he, -⟩ := (Inv.of_run h).claiming hp
  rw [hw] at he
  obtain ⟨-, hretry, event, hev, ho⟩ := he
  have hrow' : s.rows.find c'.eventId = some row := hc.symm ▸ hrow
  rintro ⟨ms₁, m, ms₂, s₁, s₂, rfl, hr₁, hc' | hc', hst, hr₂⟩
  · obtain ⟨hle, hlt⟩ := le_of_claim h ⟨ms₁, m, ms₂, s₁, s₂, rfl, hr₁, hc', hst, hr₂⟩ hrow'
    exact absurd (hlt event hev) (ho ▸ hle).not_gt
  · have hlt := lt_of_failure h ⟨ms₁, m, ms₂, s₁, s₂, rfl, hr₁, hc', hst, hr₂⟩ hrow'
    exact absurd hretry hlt.ne'

/-- A claim that another one has superseded is not valid. -/
theorem Superseded.not_matches (h : Run (Step worker) (Outbox.init t) ms s)
    (hd : Superseded worker i c (Outbox.init t) ms s) {row : OutboxRow π}
    (hrow : s.rows.find c.eventId = some row) : ¬row.Matches c := by
  obtain ⟨ms₁, m, ms₂, s₁, s₂, rfl, hr₁, ⟨hclaimed, c', hc', hid⟩, hst, hr₂⟩ := hd
  obtain ⟨row₁, hrow₁, ht, -⟩ := claim_step hr₁ hc' hst
  have h₁ := (le_of_claim hr₁ hclaimed.isClaim (hid ▸ hrow₁)).1
  have h₂ := (le_of_claim h ⟨_, m, ms₂, s₁, s₂, rfl, hr₁, hc', hst, hr₂⟩ (hid ▸ hrow)).1
  intro hm
  exact absurd hm.2 (h₁.trans_lt (ht.trans_le h₂)).ne'

/-- A worker whose claim has been superseded changes no row. -/
theorem Superseded.rows_eq (h : Run (Step worker) (Outbox.init t) ms s)
    (hd : Superseded worker i c (Outbox.init t) ms s)
    (hp : (∃ ok, s.phase i = .settling c ok) ∨ ∃ ok hit, s.phase i = .settled c ok hit)
    (hst : Step worker s (.run i) s') : s'.rows = s.rows := by
  have hs := Inv.of_run h
  rcases hp with ⟨ok, hp⟩ | ⟨ok, hit, hp⟩
  · -- the statement: no row matches
    cases step_cases hst with
    | claim hp' => cases hp.symm.trans hp'
    | settle hp' => cases hp.symm.trans hp'
    | _ => rfl
  · rw [(settled_step hp hst).1]
    cases hit with
    | false => rfl
    | true =>
      obtain ⟨row, ⟨-, hrow⟩, hid, hm⟩ := hs.settled hp
      exact absurd hm (hd.not_matches h (hid ▸ hrow))

/-- The claim of worker `i` is valid: the row is there as claimed, and the worker has not
    found otherwise. -/
def Valid (i : ι) (c : ClaimedEvent π) (s : Outbox ι π) : Prop :=
  (∃ row, s.rows.find c.eventId = some row ∧ row.Matches c) ∧ ∀ ok, s.phase i ≠ .settled c ok false

/-- A worker that goes on with a valid claim finds it valid, unless another one claims the row. -/
theorem Valid.step (hv : Valid i c s) (hs : Inv worker False s) (hi : claimOf (s.phase i) = some c)
    (h : Step worker s m s') (hi' : claimOf (s'.phase i) = some c)
    (hno : ∀ c', IsClaim c' s m → c'.eventId ≠ c.eventId) : Valid i c s' := by
  have hc := step_cases h
  obtain ⟨⟨row, hrow, hm⟩, hhit⟩ := hv
  refine ⟨?_, fun ok hp' => ?_⟩
  · have hr := hs.row hc c.eventId
    rw [hrow] at hr
    -- Another worker that settles this version of the row would have the same claim.
    have hsame : ∀ {j c' ok}, s.phase j = .settled c' ok true → c'.eventId = c.eventId →
        m ≠ .run j := by
      rintro j c' ok hp' hid rfl
      obtain ⟨row', ⟨-, hrow'⟩, hid', hm'⟩ := hs.settled hp'
      rw [hid', hid, hrow] at hrow'
      obtain rfl := Option.some_inj.1 hrow'
      obtain rfl := hs.unique i j c c' hi (by rw [hp']; rfl) hid.symm (hm.2.symm.trans hm'.2)
      rw [(settled_step hp' h).2] at hi'
      cases hi'
    generalize s'.rows.find c.eventId = o at hr
    cases hr with
    | stay => exact ⟨row, rfl, hm⟩
    | claim hp' hid => exact absurd hid (hno _ ⟨_, rfl, hp'⟩)
    | delete hp' hid | fail hp' hid => exact absurd rfl (hsame hp' hid)
  · by_cases hact : actor m = some i
    · cases hc with
      | publish | tick => cases hact
      | miss hp hmiss =>
        cases hact
        simp only [goto, Function.update_self] at hp'
        cases hp'
        exact hmiss row hrow hm
      | wait _ hp | settle _ hp =>
        cases hact
        obtain rfl | rfl := hp <;> simp [unlock, goto] at hp'
      | _ =>
        cases hact
        simp [lock, unlock, goto] at hp'
    · rw [hc.phase hact] at hp'
      exact hhit ok hp'

/-- A claim is valid until another one supersedes it. -/
theorem valid_or_superseded (h : Run (Step worker) (Outbox.init t) ms s)
    (hi : claimOf (s.phase i) = some c) :
    Valid i c s ∨ Superseded worker i c (Outbox.init t) ms s := by
  induction h with
  | refl => cases hi
  | @step ms m s₁ s₂ h hst ih =>
    have hs := Inv.of_run h
    rcases (step_cases hst).claimOf hi with hi₁ | ⟨rfl, hp⟩
    · rcases ih hi₁ with hv | hd
      · by_cases hno : ∀ c', IsClaim c' s₁ m → c'.eventId ≠ c.eventId
        · exact .inl (hv.step hs hi₁ hst hi hno)
        · push Not at hno
          exact .inr (.last h hst ⟨hasClaimed_of_claimOf h hi₁, hno⟩)
      · exact .inr (Did.step hd hst)
    · obtain ⟨row, -, -, -, -, hretry, -, hrow'⟩ := hs.find_claim hp hst
      refine .inl ⟨⟨_, hrow', hretry, rfl⟩, fun ok hp' => ?_⟩
      obtain ⟨-, -, -, hp''⟩ := claiming_step hp hst
      cases hp'.symm.trans hp''

/-! ## Leases -/

theorem Run.step_of_synced (h : Run (SyncedStep worker) s ms s') : Run (Step worker) s ms s' :=
  h.mono fun _ _ _ hst => hst.1

theorem Run.synced_of_timely (h : Run (TimelyStep worker) s ms s') :
    Run (SyncedStep worker) s ms s' :=
  h.mono fun _ _ _ hst => hst.1

/-- The moves up to a state of a run with synchronous clocks. -/
theorem Run.synced_of_prefix (h : Run (SyncedStep worker) s (ms ++ ms') s')
    (h₁ : Run (Step worker) s ms s₁) :
    Run (SyncedStep worker) s ms s₁ := by
  obtain ⟨s₂, h₂, -⟩ := h.split
  obtain rfl :=
    h₁.unique (fun s m s' s'' h h' => Option.some_inj.1 (h.symm.trans h')) (Run.step_of_synced h₂)
  exact h₂

theorem Inv.of_synced (h : Run (SyncedStep worker) (Outbox.init t) ms s) : Inv worker True s :=
  h.keeps (fun _ _ _ hst hs => hs.step (step_cases hst.1) fun _ => hst.2) .init

/-- Dispatches are timely in every state of a timely run. -/
theorem Timely.of_run (h : Run (TimelyStep worker) (Outbox.init t) ms s) : Timely worker s :=
  h.keeps (p := Timely worker) (fun _ _ _ hst _ => hst.2) fun _ _ hp => by cases hp

theorem now_of_run (h : Run (Step worker) s ms s') : s.now ≤ s'.now := by
  induction h with
  | refl => exact le_rfl
  | step _ hst ih => exact ih.trans (step_cases hst).now

omit [DecidableEq ι] [EventTypeRegistry π] in
theorem InLease.anti (h : InLease worker s' c) (hn : s.now ≤ s'.now) : InLease worker s c :=
  fun j r hr => hn.trans (h j r hr)

/-- A relay claims a row after the lease of the latest claim. -/
theorem relay_claim (h : Run (SyncedStep worker) (Outbox.init t) ms s) {r : OutboxRelay}
    (hw : worker i = .relay r) (hp : s.phase i = .claiming c) {c' : ClaimedEvent π}
    (hid : c'.eventId = c.eventId)
    (hd : Did (Step worker) (fun _ s₁ m _ => IsClaim c' s₁ m) (Outbox.init t) ms s) :
    c'.claimedAt + seconds r.redeliverAfterSeconds < s.now := by
  obtain ⟨row, ⟨-, hrow⟩, t, rfl, he, ht⟩ := (Inv.of_synced h).claiming hp
  rw [hw] at he
  have hrow' : s.rows.find c'.eventId = some row := hid.symm ▸ hrow
  have hle := (le_of_claim (Run.step_of_synced h) hd hrow').1
  have hlt := Int.add_lt_of_lt_sub_right he.1
  exact (Int.add_le_add_right hle _).trans_lt (hlt.trans_le (ht trivial))

/-- A claim is superseded after its lease. -/
theorem Superseded.not_inLease (h : Run (SyncedStep worker) (Outbox.init t) ms s)
    (hd : Superseded worker i c (Outbox.init t) ms s) : ¬InLease worker s c := by
  intro hlease
  obtain ⟨ms₁, m, ms₂, s₁, s₂, rfl, hr₁, ⟨hclaimed, c', ⟨j, rfl, hp⟩, hid⟩, hst, hr₂⟩ := hd
  have hd' := hclaimed.isClaim
  cases hw : worker j with
  | immediate e =>
    exact immediate_claim hr₁ hw hp hid.symm (hd'.mono fun _ _ _ _ => .inl)
  | relay r =>
    have hlt := relay_claim (Run.synced_of_prefix h hr₁) hw hp hid.symm hd'
    have hle := (now_of_run (.single hst)).trans (now_of_run hr₂)
    exact absurd (hlease j r hw) (hlt.trans_le hle).not_ge

/-- A claim is valid as long as its lease. -/
theorem valid_of_inLease (h : Run (SyncedStep worker) (Outbox.init t) ms s)
    (hi : claimOf (s.phase i) = some c) (hlease : InLease worker s c) : Valid i c s :=
  (valid_or_superseded (Run.step_of_synced h) hi).resolve_right fun hd => hd.not_inLease h hlease

/-- Timely dispatches of an event do not overlap. -/
theorem dispatch_unique (h : Run (TimelyStep worker) (Outbox.init t) ms s) {j : ι}
    {c' : ClaimedEvent π} (hi : s.phase i = .dispatching c) (hj : s.phase j = .dispatching c')
    (hid : c.eventId = c'.eventId) : i = j := by
  have hsync := Run.synced_of_timely h
  have hs := Inv.of_synced hsync
  have ht := Timely.of_run h
  have hci : claimOf (s.phase i) = some c := by rw [hi]; rfl
  have hcj : claimOf (s.phase j) = some c' := by rw [hj]; rfl
  obtain ⟨⟨row, hrow, hm⟩, -⟩ := valid_of_inLease hsync hci (ht i c hi)
  obtain ⟨⟨row', hrow', hm'⟩, -⟩ := valid_of_inLease hsync hcj (ht j c' hj)
  rw [hid, hrow'] at hrow
  obtain rfl := Option.some_inj.1 hrow
  exact hs.unique i j c c' hci hcj hid (hm.2.symm.trans hm'.2)

/-- A step that does not claim the row of an idle event leaves it idle. -/
theorem Idle.step {e : UUID} (hidle : Idle e s) (h : StepCases worker s m s')
    (hc : ∀ c, IsClaim c s m → c.eventId ≠ e) : Idle e s' := by
  intro j c hp
  rcases h.dispatching hp with hj | hj
  · exact hidle j c hj
  · exact hc c ⟨j, hj⟩

/-- An event whose row has been deleted stays idle. -/
theorem Idle.of_deleted {e : UUID} (hs : Inv worker False s) (hidle : Idle e s) (he : e ∈ s.published)
    (hnone : s.rows.find e = none) (h : Run (Step worker) s ms s') : Idle e s' := by
  induction h with
  | refl => exact hidle
  | @step ms m s₁ s₂ h hst ih =>
    have hs₁ := hs.keeps h
    refine ih.step (step_cases hst) fun c hc hid => ?_
    -- A claim finds its row, which has not come back.
    obtain ⟨i, rfl, hp⟩ := hc
    obtain ⟨row, hrow, -⟩ := hs₁.find_claim hp hst
    obtain ⟨row', hrow', -⟩ := (hs.later_of_run h).ahead _ he _ (hid ▸ hrow)
    rw [hnone] at hrow'
    cases hrow'

/-- An event stays idle as long as its row is not written. -/
theorem Idle.of_find {e : UUID} {row : OutboxRow π} (hs : Inv worker False s) (hidle : Idle e s)
    (h : Run (Step worker) s ms s')
    (hrow : ∀ u ms ms', Run (Step worker) s ms u → Run (Step worker) u ms' s' →
      u.rows.find e = some row) :
    Idle e s' := by
  induction h with
  | refl => exact hidle
  | @step ms m s₁ s₂ h hst ih =>
    have hs₁ := hs.keeps h
    have hih := ih fun u ms' ms'' hu hu' => hrow u ms' _ hu (hu'.step hst)
    refine hih.step (step_cases hst) fun c hc hid => ?_
    obtain ⟨i, rfl, hp⟩ := hc
    obtain ⟨row₁, hrow₁, -, -, -, -, ht, hrow₂⟩ := hs₁.find_claim hp hst
    rw [hid, hrow _ _ _ h (.single hst)] at hrow₁
    rw [hid, hrow _ _ _ (h.step hst) .refl] at hrow₂
    obtain rfl := Option.some_inj.1 hrow₁
    have ho := congrArg OutboxRow.occurredAt (Option.some_inj.1 hrow₂)
    exact ht.ne ho

/-- An event that has been dispatched, and is settled within the lease of its claim, is
    deleted and never dispatched again. -/
theorem dispatched_once (h : Run (TimelyStep worker) (Outbox.init t) ms s)
    (hp : s.phase i = .dispatching c) (hst : TimelyStep worker s (.dispatched i true) s₁)
    (h₁ : Run (TimelyStep worker) s₁ ms' s₂) {hit : Bool} (hp₂ : s₂.phase i = .settled c true hit)
    (hlease : InLease worker s₂ c) (hst₂ : Step worker s₂ (.run i) s₃) :
    s₃.rows.find c.eventId = none ∧
      (∀ u ms ms', Run (Step worker) s₁ ms u → Run (Step worker) u ms' s₂ → Idle c.eventId u) ∧
      ∀ u ms, Run (Step worker) s₃ ms u → Idle c.eventId u := by
  have hr := Run.step_of_synced (Run.synced_of_timely h)
  have hr₁ := Run.step_of_synced (Run.synced_of_timely h₁)
  have hr₂ := (Run.single hst.1.1).append hr₁
  have hs' := Inv.of_run hr
  have hs₂ := hs'.keeps hr₂
  have hc : claimOf (s.phase i) = some c := by rw [hp]; rfl
  -- The claim is valid from the dispatch to its end, so that the row is not written.
  obtain ⟨⟨row, hrow, hm⟩, -⟩ :=
    valid_of_inLease (Run.synced_of_timely h) hc (hlease.anti (now_of_run hr₂))
  obtain ⟨⟨row₂, hrow₂, hm₂⟩, hhit⟩ :=
    valid_of_inLease (Run.synced_of_timely ((h.step hst).append h₁)) (by rw [hp₂]; rfl) hlease
  have hfind : ∀ u ms ms', Run (Step worker) s₁ ms u → Run (Step worker) u ms' s₂ →
      u.rows.find c.eventId = some row := fun u ms ms' hu hu' =>
    (hs'.find_between hrow ((Run.single hst.1.1).append hu) hu' hrow₂ (hm₂.2.trans hm.2.symm).le
      (hm₂.1.trans hm.1.symm).le).1
  have hidle₁ : Idle c.eventId s₁ := by
    intro j c' hj hid
    rcases (step_cases hst.1.1).dispatching hj with hj' | ⟨hm, -⟩
    · obtain rfl := dispatch_unique h hj' hp hid
      cases step_cases hst.1.1 with
      | dispatched => simp [goto] at hj
    · cases hm
  have hidle : ∀ u ms ms', Run (Step worker) s₁ ms u → Run (Step worker) u ms' s₂ →
      Idle c.eventId u :=
    fun u ms ms' hu hu' => Idle.of_find (hs'.keeps (.single hst.1.1)) hidle₁ hu
      fun v ms₁ ms₂ hv hv' => hfind v ms₁ _ hv (hv'.append hu')
  obtain rfl : hit = true := by
    cases hit with
    | false => exact absurd hp₂ (hhit true)
    | true => rfl
  have hnone : s₃.rows.find c.eventId = none := by
    rw [(settled_step hp₂ hst₂).1, if_pos rfl, find_settle, if_pos rfl, if_pos rfl]
  have hidle₃ : Idle c.eventId s₃ := by
    refine (hidle s₂ _ _ hr₁ .refl).step (step_cases hst₂) ?_
    rintro c' ⟨j, hj, hp'⟩
    cases hj
    cases hp₂.symm.trans hp'
  have he : c.eventId ∈ s₃.published := (step_cases hst₂).published (hs₂.published _ _ hrow₂)
  exact ⟨hnone, hidle, fun u ms hu => hidle₃.of_deleted (hs₂.keeps (.single hst₂)) he hnone hu⟩

/-! ## The result -/

/-- Claims are fenced.

    1. The `occurred_at` of a row changes by claims only, and every claim moves it forward.
    2. The immediate path claims a row that has neither been claimed nor failed before.
    3. A worker whose claim has been superseded changes no row.
    4. If clocks are synchronous, a relay claims a row after the lease of every claim before.
       If dispatches are timely, too, those of an event do not overlap, and one that succeeds
       and is settled within the lease is the last one. -/
theorem claims_fenced (h : Run (Step worker) (Outbox.init t) ms s) :
    (∀ m s', Step worker s m s' →
      (∀ c, IsClaim c s m → ∃ row, s.rows.find c.eventId = some row ∧ row.occurredAt < c.claimedAt ∧
        s'.rows.find c.eventId = some (row.claimed c.claimedAt)) ∧
      ∀ e row row', s.rows.find e = some row → s'.rows.find e = some row' →
      row'.occurredAt ≠ row.occurredAt →
        ∃ c, IsClaim c s m ∧ c.eventId = e ∧ row' = row.claimed c.claimedAt) ∧
    (∀ i e c c', worker i = .immediate e → s.phase i = .claiming c → c'.eventId = c.eventId →
      ¬Did (Step worker) (fun _ s₁ m _ => IsClaim c' s₁ m ∨ IsFailure c' s₁ m) (.init t) ms s) ∧
    (∀ i c s', Superseded worker i c (.init t) ms s →
      ((∃ ok, s.phase i = .settling c ok) ∨ ∃ ok hit, s.phase i = .settled c ok hit) →
      Step worker s (.run i) s' → s'.rows = s.rows) ∧
    (Run (SyncedStep worker) (.init t) ms s → ∀ i r c c', worker i = .relay r →
      s.phase i = .claiming c →
      c'.eventId = c.eventId → Did (Step worker) (fun _ s₁ m _ => IsClaim c' s₁ m) (.init t) ms s →
      c'.claimedAt + seconds r.redeliverAfterSeconds < s.now) ∧
    (Run (TimelyStep worker) (.init t) ms s →
      (∀ i j c c', s.phase i = .dispatching c → s.phase j = .dispatching c' →
        c.eventId = c'.eventId → i = j) ∧
      ∀ i c s₁ ms₁ s₂ hit s₃, s.phase i = .dispatching c →
      TimelyStep worker s (.dispatched i true) s₁ →
        Run (TimelyStep worker) s₁ ms₁ s₂ → s₂.phase i = .settled c true hit → InLease worker s₂ c →
        Step worker s₂ (.run i) s₃ →
        s₃.rows.find c.eventId = none ∧
        (∀ u ms ms', Run (Step worker) s₁ ms u → Run (Step worker) u ms' s₂ → Idle c.eventId u) ∧
        ∀ u ms, Run (Step worker) s₃ ms u → Idle c.eventId u) := by
  refine ⟨fun m s' hst =>
    ⟨fun c hc => claim_step h hc hst, fun e row row' => occurredAt_step h hst⟩, ?_, ?_, ?_, ?_⟩
  · intro i e c c' hw hp hc
    exact immediate_claim h hw hp hc
  · intro i c s' hd hp hst
    exact hd.rows_eq h hp hst
  · intro hsync i r c c' hw hp hc hd
    exact relay_claim hsync hw hp hc hd
  · intro htimely
    refine ⟨fun i j c c' hi hj hid => dispatch_unique htimely hi hj hid, ?_⟩
    intro i c s₁ ms₁ s₂ hit s₃ hp hst h₁ hp₂ hlease hst₂
    exact dispatched_once htimely hp hst h₁ hp₂ hlease hst₂

/-- The claim of the relay, after the lease of a claim at 5. -/
def secondClaim : ClaimedEvent Instant := ⟨registeredRow.eventId, "UserRegistered", 0, 0, seconds 61⟩

/-- The claim of the immediate dispatcher at 5. -/
def overtakenClaim : ClaimedEvent Instant := ⟨registeredRow.eventId, "UserRegistered", 0, 0, 5⟩

/-- The dispatch of the immediate dispatcher is still going on when the relay claims the row, and
    succeeds then. -/
def overtaken : List (Move Bool Instant) :=
  [.publish registeredRow, .run false, .readClock false 5, .run false, .tick (seconds 61),
    .readClock true (seconds 61), .run true, .run true, .dispatched false true]

/-- The relay claims the row of the dispatcher that has crashed, and a dispatcher that has been
    overtaken by the relay leaves the row to it. -/
theorem claims_fenced_afterCrash : letI := timeRegistry
    (∃ (s s' : Outbox Bool Instant) (row : OutboxRow Instant),
      Run (Step twoWorkers) (.init 0) (afterCrash.take 8) s ∧ Step twoWorkers s (.run true) s' ∧
      s.rows.find secondClaim.eventId = some row ∧ row.occurredAt < secondClaim.claimedAt ∧
      s'.rows.find secondClaim.eventId = some (row.claimed secondClaim.claimedAt)) ∧
    ∃ s s' : Outbox Bool Instant, Run (Step twoWorkers) (.init 0) overtaken s ∧
      s.phase false = .settling overtakenClaim true ∧
        Superseded twoWorkers false overtakenClaim (.init 0) overtaken s ∧
      Step twoWorkers s (.run false) s' ∧ s'.rows = s.rows ∧
      s'.rows.find registeredRow.eventId = some (registeredRow.claimed (seconds 61)) := by
  let _ := timeRegistry
  constructor
  · have hrun : ∃ s : Outbox Bool Instant, Run (Step twoWorkers) (.init 0) (afterCrash.take 8) s ∧
        s.phase true = .claiming secondClaim ∧ (s.step twoWorkers (.run true)).isSome :=
      Run.exists_of_execute (Outbox.step twoWorkers) (afterCrash.take 8) (by decide +kernel)
    obtain ⟨s, hs, hp, hstep⟩ := hrun
    obtain ⟨s', hs'⟩ := Option.isSome_iff_exists.1 hstep
    obtain ⟨row, hrow⟩ := ((claims_fenced hs).1 _ s' hs').1 secondClaim ⟨true, rfl, hp⟩
    exact ⟨s, s', row, hs, hs', hrow⟩
  · have hrun : ∃ s : Outbox Bool Instant, Run (Step twoWorkers) (.init 0) overtaken s ∧
        s.phase false = .settling overtakenClaim true ∧
        s.rows.find registeredRow.eventId = some (registeredRow.claimed (seconds 61)) ∧
        (s.step twoWorkers (.run false)).isSome :=
      Run.exists_of_execute (Outbox.step twoWorkers) overtaken (by decide +kernel)
    obtain ⟨s, hs, hp, hfind, hstep⟩ := hrun
    obtain ⟨s', hs'⟩ := Option.isSome_iff_exists.1 hstep
    -- The row has the time of the other claim.
    have hclaim : claimOf (s.phase false) = some overtakenClaim := by
      rw [hp]
      rfl
    have hinvalid : ¬Valid false overtakenClaim s := by
      rintro ⟨⟨row, hrow, hmatches⟩, -⟩
      obtain rfl : row = registeredRow.claimed (seconds 61) := Option.some.inj (hrow.symm.trans hfind)
      exact absurd hmatches (by decide)
    have hsuperseded := (valid_or_superseded hs hclaim).resolve_left hinvalid
    have hrows := (claims_fenced hs).2.2.1 false overtakenClaim s' hsuperseded (.inl ⟨true, hp⟩) hs'
    exact ⟨s, s', hs, hp, hsuperseded, hs', hrows, hrows ▸ hfind⟩

end Outbox

end Boat
