import Boat.Outbox.Fencing

/-!
# Outbox: retries

The `retry_count` of a row is the number of its claims that have failed: those whose
dispatch has raised, and that no other claim has superseded when the worker reports it
(`retry_accounting`).
-/

namespace Boat

open Transition

namespace Outbox

variable {ι π : Type} [DecidableEq ι] [EventTypeRegistry π]
  {worker : ι → Worker} {s s₁ s' u : Outbox ι π} {m : Move ι π} {ms ms' : List (Move ι π)}
  {i : ι} {c : ClaimedEvent π} {t : Instant} {e : UUID} {row row' : OutboxRow π}

/-- A claim that is valid has not been superseded. -/
theorem valid_iff (h : Run (Step worker) (Outbox.init t) ms s) (hi : claimOf (s.phase i) = some c) :
    Valid i c s ↔ ¬Superseded worker i c (Outbox.init t) ms s := by
  constructor
  · rintro ⟨⟨row, hrow, hm⟩, -⟩ hd
    exact hd.not_matches h hrow hm
  · exact (valid_or_superseded h hi).resolve_right

/-- The statement that reports an outcome finds a row if the claim has not been superseded. -/
theorem report_step (h : Run (Step worker) (Outbox.init t) ms s) {ok : Bool}
    (hp : s.phase i = .settling c ok) (hst : Step worker s (.run i) s') :
    ∃ hit, s'.phase i = .settled c ok hit ∧
    (hit = true ↔ ¬Superseded worker i c (Outbox.init t) ms s) := by
  have hi : claimOf (s.phase i) = some c := by rw [hp]; rfl
  have hfree : ¬Free (s.phase i) := by rw [hp]; exact id
  rw [← valid_iff h hi]
  cases step_cases hst with
  | miss hp' hno =>
    cases hp.symm.trans hp'
    refine ⟨false, by simp [goto], ⟨fun h => (Bool.false_ne_true h).elim, ?_⟩⟩
    rintro ⟨⟨row, hrow, hm⟩, -⟩
    exact absurd hm (hno row hrow)
  | hit hp' hrow hm hlock =>
    cases hp.symm.trans hp'
    refine ⟨true, by simp [goto, lock], ⟨fun _ => ⟨⟨_, hrow, hm⟩, fun ok' h => ?_⟩, fun _ => rfl⟩⟩
    rw [hp] at h
    cases h
  | wait hf => exact absurd hf hfree
  | check _ hp' | skip hp' | select _ hp' | claim hp' | settle hp' | release hp' =>
    cases hp.symm.trans hp'

/-- A failure that is counted adds one, and is not counted again. -/
theorem failure_step (h : Run (Step worker) (Outbox.init t) ms s) (hf : IsFailure c s m)
    (hst : Step worker s m s') :
    ∃ row, s.rows.find c.eventId = some row ∧ row.Matches c ∧
      s'.rows.find c.eventId = some { row with retryCount := row.retryCount + 1 } ∧
      ¬Did (Step worker) (fun _ s₁ m _ => IsFailure c s₁ m) (Outbox.init t) ms s := by
  obtain ⟨i, rfl, hp⟩ := hf
  have hs := Inv.of_run h
  obtain ⟨row, ⟨-, hrow⟩, hid, hm⟩ := hs.settled hp
  rw [hid] at hrow
  refine ⟨row, hrow, hm, ?_, ?_⟩
  · rw [(settled_step hp hst).1, if_pos rfl, find_settle, if_pos rfl, hrow, hm.1]
    rfl
  · rintro ⟨ms₁, _, ms₂, s₁, s₂, rfl, hr₁, ⟨j, rfl, hp₁⟩, hst₁, hr₂⟩
    have hs₁ := Inv.of_run hr₁
    obtain ⟨row₁, ⟨-, hrow₁⟩, hid₁, hm₁⟩ := hs₁.settled hp₁
    rw [hid₁] at hrow₁
    have hrow₂ : s₂.rows.find c.eventId = some { row₁ with retryCount := c.retryCount + 1 } := by
      rw [(settled_step hp₁ hst₁).1, if_pos rfl, find_settle, if_pos rfl, hrow₁]
      rfl
    have hs₂ := hs₁.keeps (.single hst₁)
    obtain ⟨row₃, hrow₃, ha⟩ := (hs₂.later_of_run hr₂).ahead _ (hs₂.published _ _ hrow₂) _ hrow
    obtain rfl := Option.some_inj.1 (hrow₂.symm.trans hrow₃)
    have hlt := Int.lt_of_add_one_le ha.retryCount
    exact hlt.ne hm.1.symm

/-- The `retry_count` of a row changes by the failure of a claim that has been dispatched and
    has not been superseded. -/
theorem retryCount_step (h : Run (Step worker) (Outbox.init t) ms s) (hst : Step worker s m s')
    (hrow : s.rows.find e = some row) (hrow' : s'.rows.find e = some row')
    (hne : row'.retryCount ≠ row.retryCount) :
    ∃ i c, m = .run i ∧ s.phase i = .settled c false true ∧ c.eventId = e ∧
      HasDispatched worker i c false (Outbox.init t) ms s ∧
      ¬Superseded worker i c (Outbox.init t) ms s ∧
      (∀ e', worker i = .immediate e' → deserializeEvent row.eventType row.payload ≠ none) := by
  have hs := Inv.of_run h
  have hr := hs.row (step_cases hst) e
  rw [hrow, hrow'] at hr
  cases hr with
  | stay | claim => exact absurd rfl hne
  | @fail i c _ hp hid =>
    have hi : claimOf (s.phase i) = some c := by rw [hp]; rfl
    obtain ⟨row₁, ⟨-, hrow₁⟩, hid₁, hm⟩ := hs.settled hp
    rw [hid₁, hid, hrow] at hrow₁
    obtain rfl := Option.some_inj.1 hrow₁
    have hd := History.of_run h i
    rw [History, hp] at hd
    refine ⟨i, c, rfl, hp, hid, hd, (valid_iff h hi).1 ⟨⟨row, hid ▸ hrow, hm⟩, by simp [hp]⟩,
      fun e' hw => ?_⟩
    -- The immediate path claims what it can deserialize.
    obtain ⟨ms₁, _, ms₂, s₁, s₂, rfl, hr₁, ⟨rfl, hp₁⟩, hst₁, hr₂⟩ := hd.hasClaimed
    obtain ⟨row₂, ⟨-, hrow₂⟩, t', rfl, he, -⟩ := (Inv.of_run hr₁).claiming hp₁
    rw [hw] at he
    obtain ⟨-, -, event, hev, -⟩ := he
    obtain ⟨htype, hpay, -⟩ := (hs.committed hi).ahead row (hid ▸ hrow)
    rw [htype, hpay]
    exact fun hnone => by cases hev.symm.trans hnone

/-- No relay writes a row that has failed as often as it retries. -/
theorem exhausted_step (h : Run (Step worker) (Outbox.init t) ms s) {r : OutboxRelay}
    (hw : worker i = .relay r) (hrow : s.rows.find e = some row)
    (hmax : r.maxRetry ≤ row.retryCount) (hst : Step worker s m s')
    (hm : actor m = some i) : s'.rows.find e = some row := by
  have hs := Inv.of_run h
  have hr := hs.row (step_cases hst) e
  rw [hrow] at hr
  -- The claims of the relay are of rows that have failed less often.
  have hsettled : ∀ {c ok}, s.phase i = .settled c ok true → c.eventId = e → False := by
    intro c ok hp hid
    obtain ⟨row₁, ⟨-, hrow₁⟩, hid₁, hm⟩ := hs.settled hp
    rw [hid₁, hid, hrow] at hrow₁
    obtain rfl := Option.some_inj.1 hrow₁
    have hlt := (hs.committed (i := i) (c := c) (by rw [hp]; rfl)).relay r hw
    exact absurd hlt (hm.1 ▸ hmax).not_gt
  generalize s'.rows.find e = o at hr
  cases hr with
  | stay => rfl
  | claim hp hid =>
    cases hm
    obtain ⟨row₁, ⟨-, hrow₁⟩, t', rfl, he, -⟩ := hs.claiming hp
    rw [hw] at he
    have hrow₂ : s.rows.find e = some row₁ := hid ▸ hrow₁
    obtain rfl := Option.some_inj.1 (hrow.symm.trans hrow₂)
    exact absurd he.2 hmax.not_gt
  | delete hp hid | fail hp hid =>
    cases hm
    exact (hsettled hp hid).elim

/-- Rows are tried as often as relays retry them, or once. -/
theorem retryCount_le (h : Run (Step worker) (Outbox.init t) ms s) {M : ℤ}
    (hM : ∀ i r, worker i = .relay r → r.maxRetry ≤ M) (hrow : s.rows.find e = some row) :
    row.retryCount ≤ max 1 M := by
  induction h generalizing row with
  | refl => cases hrow
  | @step ms m s₁ s₂ h hst ih =>
    have hs := Inv.of_run h
    have hr := hs.row (step_cases hst) e
    rw [hrow] at hr
    generalize ho : s₁.rows.find e = o at hr
    cases hr with
    | stay => exact ih ho
    | publish hp => exact hp.1.le.trans (Int.one_nonneg.trans (le_max_left _ _))
    | claim =>
      have hle := ih ho
      exact hle
    | @fail i c row₁ hp =>
      have hc := hs.committed (i := i) (c := c) (by rw [hp]; rfl)
      cases hw : worker i with
      | immediate e' =>
        exact (hc.immediate e' hw ▸ le_rfl : c.retryCount + 1 ≤ 1).trans (le_max_left _ _)
      | relay r =>
        exact ((Int.add_one_le_of_lt (hc.relay r hw)).trans (hM i r hw)).trans (le_max_right _ _)

/-- How `retry_count` is kept.

    1. It never decreases.
    2. It changes by the failure of a claim that has been dispatched and not superseded.
    3. A worker whose dispatch has raised finds its row when it reports, if its claim has not
       been superseded; then the failure counts one, and only once.
    4. It is at most `max_retry`, or one.
    5. A relay claims rows that have failed less often than `max_retry`, and writes no others. -/
theorem retry_accounting (h : Run (Step worker) (Outbox.init t) ms s) :
    (∀ ms' u e row row', Run (Step worker) s ms' u → s.rows.find e = some row →
      u.rows.find e = some row' →
      row.retryCount ≤ row'.retryCount) ∧
    (∀ m s' e row row', Step worker s m s' → s.rows.find e = some row → s'.rows.find e = some row' →
      row'.retryCount ≠ row.retryCount → ∃ i c, m = .run i ∧ s.phase i = .settled c false true ∧
      c.eventId = e ∧
        HasDispatched worker i c false (.init t) ms s ∧ ¬Superseded worker i c (.init t) ms s ∧
        ∀ e', worker i = .immediate e' → deserializeEvent row.eventType row.payload ≠ none) ∧
    (∀ i c s', s.phase i = .settling c false → Step worker s (.run i) s' → ∃ hit,
      s'.phase i = .settled c false hit ∧ (hit = true ↔ ¬Superseded worker i c (.init t) ms s)) ∧
    (∀ c m s', IsFailure c s m → Step worker s m s' → ∃ row, s.rows.find c.eventId = some row ∧
      row.Matches c ∧
      s'.rows.find c.eventId = some { row with retryCount := row.retryCount + 1 } ∧
      ¬Did (Step worker) (fun _ s₁ m _ => IsFailure c s₁ m) (.init t) ms s) ∧
    (∀ M, (∀ i r, worker i = .relay r → r.maxRetry ≤ M) → ∀ e row, s.rows.find e = some row →
      row.retryCount ≤ max 1 M) ∧
    (∀ i r c, worker i = .relay r → s.phase i = .claiming c →
      ∃ row, s.rows.find c.eventId = some row ∧
      row.retryCount < r.maxRetry) ∧
    ∀ e row i r, s.rows.find e = some row → worker i = .relay r → r.maxRetry ≤ row.retryCount →
      ∀ ms' u m u', Run (Step worker) s ms' u → Step worker u m u' → actor m = some i →
        u'.rows.find e = u.rows.find e := by
  have hs := Inv.of_run h
  have hmono : ∀ ms' u e row row', Run (Step worker) s ms' u → s.rows.find e = some row →
      u.rows.find e = some row' → row.retryCount ≤ row'.retryCount := by
    intro ms' u e row row' hu hrow hrow'
    obtain ⟨row₁, hrow₁, ha⟩ := (hs.later_of_run hu).ahead _ (hs.published _ _ hrow) _ hrow'
    obtain rfl := Option.some_inj.1 (hrow.symm.trans hrow₁)
    exact ha.retryCount
  refine ⟨hmono, fun m s' e row row' => retryCount_step h, fun i c s' => report_step h,
    fun c m s' => failure_step h, fun M hM e row => retryCount_le h hM, ?_, ?_⟩
  · intro i r c hw hp
    obtain ⟨row, ⟨-, hrow⟩, t', rfl, he, -⟩ := hs.claiming hp
    rw [hw] at he
    exact ⟨row, hrow, he.2⟩
  · intro e row i r hrow hw hmax ms' u m u' hu hst hm
    cases hrow₁ : u.rows.find e with
    | some row₁ =>
      exact exhausted_step (h.append hu) hw hrow₁
        (hmax.trans (hmono _ u e row row₁ hu hrow hrow₁)) hst hm
    | none =>
      -- A row that is gone does not come back.
      have hl := (hs.keeps hu).later (step_cases hst)
      by_contra hsome
      obtain ⟨row₂, hrow₂⟩ := Option.ne_none_iff_exists'.1 hsome
      obtain ⟨row₁, hrow₃, -⟩ :=
        hl.ahead e ((hs.later_of_run hu).published (hs.published _ _ hrow)) row₂ hrow₂
      cases hrow₁.symm.trans hrow₃

/-- The immediate dispatcher fails, and is about to count it. -/
def afterFailure : List (Move Bool Instant) :=
  [.publish registeredRow, .run false, .readClock false 5, .run false, .dispatched false false,
    .run false]

/-- The claim of the immediate dispatcher. -/
def firstClaim : ClaimedEvent Instant := ⟨registeredRow.eventId, "UserRegistered", 0, 0, 5⟩

theorem retry_accounting_afterFailure : letI := timeRegistry
    ∃ (s s' : Outbox Bool Instant) (row : OutboxRow Instant),
      Run (Step twoWorkers) (.init 0) afterFailure s ∧ Step twoWorkers s (.run false) s' ∧
      s.rows.find firstClaim.eventId = some row ∧
      s'.rows.find firstClaim.eventId = some { row with retryCount := row.retryCount + 1 } := by
  let _ := timeRegistry
  have hrun : ∃ s : Outbox Bool Instant, Run (Step twoWorkers) (.init 0) afterFailure s ∧
      s.phase false = .settled firstClaim false true ∧ (s.step twoWorkers (.run false)).isSome :=
    Run.exists_of_execute (Outbox.step twoWorkers) afterFailure (by decide +kernel)
  obtain ⟨s, hs, hp, hstep⟩ := hrun
  obtain ⟨s', hs'⟩ := Option.isSome_iff_exists.1 hstep
  obtain ⟨-, -, -, hfail, -⟩ := retry_accounting hs
  obtain ⟨row, hrow, -, hrow', -⟩ := hfail firstClaim (.run false) s' ⟨false, rfl, hp⟩ hs'
  exact ⟨s, s', row, hs, hs', hrow, hrow'⟩

end Outbox

end Boat
