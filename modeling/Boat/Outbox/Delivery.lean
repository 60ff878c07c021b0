import Boat.Outbox.Invariant

/-!
# Outbox: no event is lost

A row of the outbox is deleted only after the dispatch of its event has succeeded, by the
worker whose claim is the latest one (`no_event_lost`).

* `HasClaimed`, `HasDispatched`: what a worker has done in a run.
* `History`: a worker that dispatches a claim has committed it, and one that settles a claim
  has dispatched it.
-/

namespace Boat

open Transition

namespace Outbox

variable {ι π : Type} [DecidableEq ι] [EventTypeRegistry π]

/-- Worker `i` has committed the claim `c`. -/
def HasClaimed (worker : ι → Worker) (i : ι) (c : ClaimedEvent π) (s : Outbox ι π) :
    List (Move ι π) → Outbox ι π → Prop :=
  Did (Step worker) (fun _ s₁ m _ => m = .run i ∧ s₁.phase i = .claiming c) s

/-- Worker `i` has dispatched the event of its claim `c`: with success, if `ok`. -/
def HasDispatched (worker : ι → Worker) (i : ι) (c : ClaimedEvent π) (ok : Bool) (s : Outbox ι π) :
    List (Move ι π) → Outbox ι π → Prop :=
  Did (Step worker) (fun ms₁ s₁ m _ => m = .dispatched i ok ∧ s₁.phase i = .dispatching c ∧
    HasClaimed worker i c s ms₁ s₁) s

/-- What a worker has done so far for the claim it has. -/
def History (worker : ι → Worker) (i : ι) (s : Outbox ι π) (ms : List (Move ι π))
    (s' : Outbox ι π) : Prop :=
  match s'.phase i with
  | .dispatching c => HasClaimed worker i c s ms s'
  | .settling c ok | .settled c ok _ => HasDispatched worker i c ok s ms s'
  | _ => True

/-- Worker `i` has claimed the row, has then dispatched its event successfully, and the row
    has been as it has claimed it ever since. -/
def Delivered (worker : ι → Worker) (i : ι) (row : OutboxRow π) (s : Outbox ι π)
    (ms : List (Move ι π)) (s' : Outbox ι π) : Prop :=
  deserializeEvent row.eventType row.payload ≠ none ∧
  ∃ c ms₁ ms₂ ms₃ s₁ s₂ s₃ s₄, ms = ms₁ ++ .run i :: ms₂ ++ .dispatched i true :: ms₃ ∧
    c.eventId = row.eventId ∧ c.eventType = row.eventType ∧ c.payload = row.payload ∧
    Run (Step worker) s ms₁ s₁ ∧ s₁.phase i = .claiming c ∧ Step worker s₁ (.run i) s₂ ∧
    Run (Step worker) s₂ ms₂ s₃ ∧ s₃.phase i = .dispatching c ∧
      Step worker s₃ (.dispatched i true) s₄ ∧
    Run (Step worker) s₄ ms₃ s' ∧
    ∀ u ms' ms'', Run (Step worker) s₂ ms' u → Run (Step worker) u ms'' s' →
      u.rows.find row.eventId = some row

variable {worker : ι → Worker} {s s₀ s₁ s' : Outbox ι π} {m : Move ι π} {ms : List (Move ι π)} {i : ι}
  {c : ClaimedEvent π} {t : Instant}

/-- A step adds to the history of a worker what the worker does. -/
theorem History.step (hr : Run (Step worker) s₀ ms s) (h : History worker i s₀ ms s)
    (hst : Step worker s m s') :
    History worker i s₀ (ms ++ [m]) s' := by
  have hc := step_cases hst
  by_cases hi : actor m = some i
  · unfold History at h ⊢
    cases hc with
    | publish | tick => cases hi
    | claim hp =>
      cases hi
      simp only [unlock, goto, Function.update_self]
      exact Did.last hr hst ⟨rfl, hp⟩
    | dispatched hp =>
      cases hi
      rw [hp] at h
      simp only [goto, Function.update_self]
      exact Did.last hr hst ⟨rfl, hp, h⟩
    | miss hp | hit hp =>
      cases hi
      rw [hp] at h
      simp only [lock, goto, Function.update_self]
      exact Did.step h hst
    | wait _ hp | settle _ hp =>
      cases hi
      obtain rfl | rfl := hp <;> simp [unlock, goto]
    | _ =>
      cases hi
      simp [lock, unlock, goto]
  · unfold History at h ⊢
    rw [hc.phase hi]
    cases hp : s.phase i with
    | dispatching | settling | settled =>
      rw [hp] at h
      exact Did.step h hst
    | _ => trivial

theorem History.of_run (h : Run (Step worker) (Outbox.init t) ms s) (i : ι) :
    History worker i (Outbox.init t) ms s := by
  induction h with
  | refl => trivial
  | step h hst ih => exact ih.step h hst

theorem HasDispatched.hasClaimed {ok : Bool} (h : HasDispatched worker i c ok s ms s') :
    HasClaimed worker i c s ms s' := by
  obtain ⟨_, m, ms₂, s₁, s₂, rfl, -, ⟨-, -, hc⟩, hst, h₂⟩ := h
  exact hc.append (.cons hst h₂)

/-- A worker has committed the claim it has. -/
theorem hasClaimed_of_claimOf (h : Run (Step worker) (Outbox.init t) ms s)
    (hi : claimOf (s.phase i) = some c) :
    HasClaimed worker i c (Outbox.init t) ms s := by
  have hh := History.of_run h i
  unfold History at hh
  cases hp : s.phase i with
  | dispatching =>
    rw [hp] at hh hi
    cases hi
    exact hh
  | settling | settled =>
    rw [hp] at hh hi
    cases hi
    exact hh.hasClaimed
  | _ =>
    rw [hp] at hi
    cases hi

/-- A worker commits its claim, and goes on to dispatch the event. -/
theorem claiming_step (hp : s.phase i = .claiming c) (hst : Step worker s (.run i) s') :
    ∃ row, s.rows.find c.eventId = some row ∧ s'.rows = s.rows.update (row.claimed c.claimedAt) ∧
      s'.phase i = .dispatching c := by
  have hst' : s.run worker i = some s' := hst
  cases hrow : s.rows.find c.eventId with
  | none => cases hw : worker i <;> simp [run, hw, hp, hrow] at hst'
  | some row =>
    cases hw : worker i <;> simp only [run, hw, hp, hrow, Option.some_inj] at hst' <;>
      exact ⟨row, rfl, by simp [← hst', unlock, goto], by simp [← hst', unlock, goto]⟩

/-- What a worker has just claimed is in the table as it has claimed it. -/
theorem Inv.find_claim {synced : Prop} (hs : Inv worker synced s) (hp : s.phase i = .claiming c)
    (hst : Step worker s (.run i) s') :
    ∃ row, s.rows.find c.eventId = some row ∧ row.eventId = c.eventId ∧ row.eventType = c.eventType ∧
      row.payload = c.payload ∧ row.retryCount = c.retryCount ∧ row.occurredAt < c.claimedAt ∧
      s'.rows.find c.eventId = some (row.claimed c.claimedAt) := by
  obtain ⟨row, ⟨-, hrow⟩, t, rfl, -⟩ := hs.claiming hp
  obtain ⟨row', hrow', hs', -⟩ := claiming_step hp hst
  obtain rfl := Option.some_inj.1 (hrow.symm.trans hrow')
  have hid : (row.claimed (row.claim t).claimedAt).eventId = (row.claim t).eventId := rfl
  refine ⟨row, hrow, rfl, rfl, rfl, rfl, lt_claim row t, ?_⟩
  rw [hs', Table.find_update, hid, if_pos rfl, hrow', Option.map_some]

/-- A worker that settles a claim writes the row if the claim is valid, and forgets it. -/
theorem settled_step {ok hit : Bool} (hp : s.phase i = .settled c ok hit)
    (hst : Step worker s (.run i) s') :
    s'.rows = (if hit then settle s.rows c ok else s.rows) ∧ claimOf (s'.phase i) = none := by
  have hst' : s.run worker i = some s' := hst
  cases hw : worker i <;> simp only [run, hw, hp, Option.some_inj] at hst' <;>
    simp [← hst', unlock, goto, claimOf]

/-- A row that is as claimed has not been written since. -/
theorem Inv.find_between {u : Outbox ι π} {ms' : List (Move ι π)} {e : UUID} {row : OutboxRow π}
    (hs : Inv worker False s) (hrow : s.rows.find e = some row) (h : Run (Step worker) s ms u)
    (h' : Run (Step worker) u ms' s') {row' : OutboxRow π} (hrow' : s'.rows.find e = some row')
    (ho : row'.occurredAt ≤ row.occurredAt) (hr : row'.retryCount ≤ row.retryCount) :
    u.rows.find e = some row ∧ row' = row := by
  have he := hs.published _ _ hrow
  have hl := hs.later_of_run h
  obtain ⟨row₂, hrow₂, h₂⟩ := ((hs.keeps h).later_of_run h').ahead _ (hl.published he) _ hrow'
  obtain ⟨row₁, hrow₁, h₁⟩ := hl.ahead _ he _ hrow₂
  obtain rfl := Option.some_inj.1 (hrow.symm.trans hrow₁)
  obtain rfl := h₁.eq (h₂.occurredAt.trans ho) (h₂.retryCount.trans hr)
  exact ⟨hrow₂, h₂.eq ho hr⟩

/-- A worker whose claim is valid after its dispatch has delivered the event. -/
theorem HasDispatched.delivered (h : Run (Step worker) (Outbox.init t) ms s)
    (hd : HasDispatched worker i c true (Outbox.init t) ms s) {row : OutboxRow π}
    (hrow : s.rows.find c.eventId = some row) (hm : row.Matches c) :
    Delivered worker i row (Outbox.init t) ms s := by
  obtain ⟨_, _, ms₃, s₃, s₄, rfl, hr₃,
    ⟨rfl, hp₃, _, _, ms₂, s₁, s₂, rfl, hr₁, ⟨rfl, hp₁⟩, hst₁, hr₂⟩, hst₃, hr₄⟩ := hd
  have hs₁ := Inv.of_run hr₁
  obtain ⟨row₁, hrow₁, hid, htype, hpay, hretry, -, hrow₂⟩ := hs₁.find_claim hp₁ hst₁
  have hs₂ := hs₁.keeps (.single hst₁)
  have hfind : ∀ u ms' ms'', Run (Step worker) s₂ ms' u → Run (Step worker) u ms'' s →
      u.rows.find c.eventId = some (row₁.claimed c.claimedAt) ∧ row = row₁.claimed c.claimedAt :=
    fun u ms' ms'' hu hu' => hs₂.find_between hrow₂ hu hu' hrow hm.2.le (hm.1.trans hretry.symm).le
  obtain ⟨-, rfl⟩ := hfind s₂ _ _ .refl (hr₂.append ((Run.single hst₃).append hr₄))
  refine ⟨?_, c, _, ms₂, ms₃, s₁, s₂, s₃, s₄, rfl, hid.symm, htype.symm, hpay.symm, hr₁,
    hp₁, hst₁, hr₂, hp₃, hst₃, hr₄, fun u ms' ms'' hu hu' => ?_⟩
  · cases step_cases hst₃ with
    | dispatched hp hok =>
      cases hp₃.symm.trans hp
      exact htype ▸ hpay ▸ hok rfl
  · exact hid ▸ (hfind u ms' ms'' hu hu').1

/-- A row is deleted by a worker that has delivered its event. -/
theorem delete_delivered (h : Run (Step worker) (Outbox.init t) ms s)
    (hst : Step worker s m s') {e : UUID} {row : OutboxRow π} (hrow : s.rows.find e = some row)
    (hrow' : s'.rows.find e = none) :
    ∃ i, m = .run i ∧ Delivered worker i row (Outbox.init t) ms s := by
  have hs := Inv.of_run h
  have hr := hs.row (step_cases hst) e
  rw [hrow, hrow'] at hr
  cases hr with
  | @delete i c _ hp hc =>
    obtain ⟨row', ⟨-, hfind⟩, hid, hm⟩ := hs.settled hp
    rw [hid, hc, hrow] at hfind
    obtain rfl := Option.some_inj.1 hfind
    have hd := History.of_run h i
    rw [History, hp] at hd
    exact ⟨i, rfl, HasDispatched.delivered h hd (hc ▸ hrow) hm⟩

/-- The row of an event that has just been published is there. -/
theorem Inv.find_of_publish (hs : Inv worker False s) (h : StepCases worker s m s') {e : UUID}
    (he : e ∈ s'.published) (hnew : e ∉ s.published) : s'.rows.find e ≠ none := by
  cases h with
  | @publish row hp hrow =>
    obtain rfl | he := List.mem_cons.1 he
    · have hnone : s.rows.find row.eventId = none := by
        by_contra hsome
        obtain ⟨row', hrow'⟩ := Option.ne_none_iff_exists'.1 hsome
        exact hnew (hs.published _ _ hrow')
      simp [Table.find_insert hnone]
    · exact absurd he hnew
  | _ => exact absurd he hnew

/-- No event is lost: a row is deleted only by a worker that has delivered its event. So the
    row of an event is there, unless a worker has delivered the event before. -/
theorem no_event_lost (h : Run (Step worker) (Outbox.init t) ms s) :
    (∀ m s', Step worker s m s' → ∀ e row, s.rows.find e = some row → s'.rows.find e = none →
      ∃ i, m = .run i ∧ Delivered worker i row (Outbox.init t) ms s) ∧
    ∀ e ∈ s.published, s.rows.find e ≠ none ∨ ∃ ms₁ ms₂ s₁ i row, ms = ms₁ ++ ms₂ ∧
      Run (Step worker) (Outbox.init t) ms₁ s₁ ∧ s₁.rows.find e = some row ∧
      Delivered worker i row (Outbox.init t) ms₁ s₁ := by
  refine ⟨fun m s' hst e row hrow hrow' => delete_delivered h hst hrow hrow', fun e he => ?_⟩
  by_cases hnone : s.rows.find e = none
  · obtain ⟨ms₁, m, ms₂, s₁, s₂, rfl, hr₁, hst, -, hbefore, he₂, hnone₂⟩ :=
      h.exists_step (p := fun u => e ∈ u.published ∧ u.rows.find e = none) (fun h => by cases h.1)
        ⟨he, hnone⟩
    have hs₁ := Inv.of_run hr₁
    by_cases he₁ : e ∈ s₁.published
    · obtain ⟨row, hrow⟩ := Option.ne_none_iff_exists'.1 fun h => hbefore ⟨he₁, h⟩
      obtain ⟨i, -, hd⟩ := delete_delivered hr₁ hst hrow hnone₂
      exact .inr ⟨ms₁, _, s₁, i, row, rfl, hr₁, hrow, hd⟩
    · exact absurd hnone₂ (hs₁.find_of_publish (step_cases hst) he₂ he₁)
  · exact .inl hnone

/-! ## A run -/

/-- Payloads that are the time of the event. -/
@[reducible] def timeRegistry : EventTypeRegistry Instant :=
  ⟨fun eventType t => if eventType = "UserRegistered" then some ⟨.ofNat 1, t⟩ else none⟩

/-- The row of an event at time zero. -/
def registeredRow : OutboxRow Instant := ⟨1, .ofNat 1, "UserRegistered", 0, 0, 0⟩

/-- An immediate dispatcher and a relay. -/
def twoWorkers : Bool → Worker
  | false => .immediate registeredRow.eventId
  | true => .relay ⟨60, 3, 10⟩

/-- The immediate dispatcher crashes after its claim, and the relay claims the row after the
    lease. It is about to delete it. -/
def afterCrash : List (Move Bool Instant) :=
  [.publish registeredRow, .run false, .readClock false 5, .run false, .crash false,
    .tick (seconds 61), .readClock true (seconds 61), .run true, .run true,
      .dispatched true true, .run true]

theorem no_event_lost_afterCrash : letI := timeRegistry
    ∃ (s s' : Outbox Bool Instant) (row : OutboxRow Instant),
      Run (Step twoWorkers) (.init 0) afterCrash s ∧ Step twoWorkers s (.run true) s' ∧
      s.rows.find registeredRow.eventId = some row ∧ s'.rows.find registeredRow.eventId = none ∧
      ∃ i, Move.run (π := Instant) true = .run i ∧
        Delivered twoWorkers i row (.init 0) afterCrash s := by
  let _ := timeRegistry
  have hrun : ∃ s : Outbox Bool Instant, Run (Step twoWorkers) (.init 0) afterCrash s ∧
      (s.rows.find registeredRow.eventId).isSome ∧ (s.step twoWorkers (.run true)).any fun s' =>
        (s'.rows.find registeredRow.eventId).isNone :=
    Run.exists_of_execute (Outbox.step twoWorkers) afterCrash (by decide +kernel)
  obtain ⟨s, hs, hrow, hstep⟩ := hrun
  obtain ⟨row, hrow⟩ := Option.isSome_iff_exists.1 hrow
  obtain ⟨s', hs', hnone⟩ := (Option.any_eq_true _ _).1 hstep
  have hnone := Option.isNone_iff_eq_none.1 hnone
  exact ⟨s, s', row, hs, hs', hrow, hnone, (no_event_lost hs).1 _ _ hs' _ row hrow hnone⟩

end Outbox

end Boat
