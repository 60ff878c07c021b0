import Boat.Outbox.Workers

/-!
# Outbox: invariant

What holds in every state of the workers of the outbox (`Outbox.Inv`), derived from the
kinds of steps there are (`Outbox.StepCases`).

* A worker that holds the lock of a row finds it as it has read it (`Holds`).
* Rows only move forward (`Later`): their `occurred_at` and `retry_count` never fall, and a
  row that is gone does not come back.
-/

namespace Boat

open Transition

namespace Outbox

variable {ι π : Type}

/-- The row that a relay selects is there, due, and not locked. -/
theorem nextDue_eq_some {s : Outbox ι π} {r : OutboxRelay} {now : Instant} {row : OutboxRow π}
    (h : s.nextDue r now = some row) : s.rows.find row.eventId = some row ∧ row.Due r now ∧
      s.locks row.eventId = none := by
  have hmem := (List.perm_insertionSort ..).subset (List.mem_of_mem_head? h)
  obtain ⟨hmem, hdue⟩ := List.mem_filter.1 hmem
  exact ⟨Table.find_eq_some.2 ⟨hmem, rfl⟩, (decide_eq_true_iff.1 hdue).1,
    (decide_eq_true_iff.1 hdue).2⟩

variable [DecidableEq ι] [EventTypeRegistry π]

/-! ## The kinds of steps -/

/-- Phases without a claim, and without a row that is known. -/
def Free : Phase π → Prop
  | .ready | .selecting _ | .releasing | .done => True
  | _ => False

/-- What a step can do. -/
inductive StepCases (worker : ι → Worker) (s : Outbox ι π) : Move ι π → Outbox ι π → Prop
  | publish {row} : row.Published → row.eventId ∉ s.published → StepCases worker s (.publish row)
      { s with rows := s.rows.insert row, published := row.eventId :: s.published }
  | tick {t} : s.now ≤ t → StepCases worker s (.tick t) { s with now := t }
  | readClock {i r t} : worker i = .relay r → s.phase i = .ready →
      StepCases worker s (.readClock i t) (s.goto i (.selecting t))
  | wait {i p} : Free (s.phase i) → (p = .releasing ∨ p = .done) →
    StepCases worker s (.run i) (s.goto i p)
  | check {i row} : worker i = .immediate row.eventId → s.phase i = .ready →
      s.rows.find row.eventId = some row →
      s.locks row.eventId = none → row.Original →
      StepCases worker s (.run i) ((s.goto i (.checked row)).lock i row.eventId)
  | skip {i row} : s.phase i = .ready → s.rows.find row.eventId = some row →
      s.locks row.eventId = none →
        StepCases worker s (.run i) ((s.goto i .releasing).lock i row.eventId)
  | select {i r row now} : worker i = .relay r → s.phase i = .selecting now →
      s.rows.find row.eventId = some row → s.locks row.eventId = none → row.Due r now →
      StepCases worker s (.run i) ((s.goto i (.claiming (row.claim now))).lock i row.eventId)
  | claimChecked {i e row t} : worker i = .immediate e → s.phase i = .checked row →
      StepCases worker s (.readClock i t) (s.goto i (.claiming (row.claim t)))
  | claim {i c row} : s.phase i = .claiming c → s.rows.find c.eventId = some row →
      StepCases worker s (.run i) ({ s with
        rows := s.rows.update (row.claimed c.claimedAt)
        processed := Function.update s.processed i (s.processed i + 1) }.goto i
          (.dispatching c) |>.unlock i)
  | dispatched {i c ok} : s.phase i = .dispatching c →
      (ok = true → deserializeEvent c.eventType c.payload ≠ none) →
      StepCases worker s (.dispatched i ok) (s.goto i (.settling c ok))
  | miss {i c ok} : s.phase i = .settling c ok →
      (∀ row, s.rows.find c.eventId = some row → ¬row.Matches c) →
      StepCases worker s (.run i) (s.goto i (.settled c ok false))
  | hit {i c ok row} : s.phase i = .settling c ok → s.rows.find c.eventId = some row → row.Matches c →
      s.locks c.eventId = none →
      StepCases worker s (.run i) ((s.goto i (.settled c ok true)).lock i c.eventId)
  | settle {i c ok hit p} : s.phase i = .settled c ok hit → (p = .done ∨ p = .ready) →
      StepCases worker s (.run i)
        ({ s with rows := if hit then settle s.rows c ok else s.rows }.goto i p |>.unlock i)
  | release {i} : s.phase i = .releasing → StepCases worker s (.run i) (s.goto i .done |>.unlock i)
  | crash {i} : StepCases worker s (.crash i) (s.goto i .done |>.unlock i)
  | restart {i} : s.phase i = .done → StepCases worker s (.restart i)
      ({ s with processed := Function.update s.processed i 0 }.goto i .ready)

variable {worker : ι → Worker} {s s' : Outbox ι π} {m : Move ι π} {i : ι}

theorem run_cases (h : s.run worker i = some s') : StepCases worker s (.run i) s' := by
  -- By the phases of a worker, in the order of `run`, and whether its statement has to wait.
  unfold run at h
  split at h
  · next e hw hp =>
    split at h
    · cases h
      exact .wait (by rw [hp]; trivial) (.inl rfl)
    · next row hrow hlock =>
      cases h
      obtain rfl := (Table.find_eq_some.1 hrow).2
      by_cases ho : row.Original
      · rw [if_pos ho]
        exact .check hw hp hrow hlock ho
      · rw [if_neg ho]
        exact .skip hp hrow hlock
    · cases h
  · next r hw hp =>
    split at h
    · cases h
      exact .wait (by rw [hp]; trivial) (.inr rfl)
    · cases h
  · next r now hw hp =>
    split at h
    · cases h
      exact .wait (by rw [hp]; trivial) (.inl rfl)
    · next row hrow =>
      cases h
      obtain ⟨hfind, hdue, hlock⟩ := nextDue_eq_some hrow
      exact .select hw hp hfind hlock hdue
  · next c hp =>
    split at h
    · cases h
    · next row hrow =>
      cases h
      exact .claim hp hrow
  · next c ok hp =>
    split at h
    · next hrow =>
      cases h
      exact .miss hp (by simp [hrow])
    · next row hrow =>
      split at h
      · next hm =>
        split at h
        · next hlock =>
          cases h
          exact .hit hp hrow hm hlock
        · cases h
      · next hm =>
        cases h
        refine .miss hp fun row' hrow' => ?_
        rw [hrow] at hrow'
        cases hrow'
        exact hm
  · next c ok hit hw hp =>
    cases h
    exact .settle hp (.inl rfl)
  · next c ok hit hw hp =>
    cases h
    exact .settle hp (.inr rfl)
  · next hp =>
    cases h
    exact .release hp
  · cases h

theorem step_cases (h : Step worker s m s') : StepCases worker s m s' := by
  rw [Step] at h
  cases m with
  | publish row =>
    simp only [step] at h
    split at h
    · next hp => cases h; exact .publish hp.1 hp.2
    · cases h
  | tick t =>
    simp only [step] at h
    split at h
    · next ht => cases h; exact .tick ht
    · cases h
  | readClock i t =>
    simp only [step] at h
    split at h
    · next hw hp =>
      split at h
      · cases h; exact .readClock hw hp
      · cases h
    · next hw hp => cases h; exact .claimChecked hw hp
    · cases h
  | run i => exact run_cases h
  | dispatched i ok =>
    simp only [step] at h
    split at h
    · next c hp =>
      split at h
      · cases h
      · next hok => cases h; exact .dispatched hp fun h h' => hok ⟨h, h'⟩
    · cases h
  | crash i => cases h; exact .crash
  | restart i =>
    simp only [step] at h
    split at h
    · next hp => cases h; exact .restart hp
    · cases h

/-- What a step can do to the row of an event. -/
inductive RowStep (s : Outbox ι π) (e : UUID) :
    Move ι π → Option (OutboxRow π) → Option (OutboxRow π) → Prop
  | stay {m row} : RowStep s e m row row
  | publish {row} : row.Published → row.eventId = e → e ∉ s.published →
      RowStep s e (.publish row) none (some row)
  | claim {i c row} : s.phase i = .claiming c → c.eventId = e →
      RowStep s e (.run i) (some row) (some (row.claimed c.claimedAt))
  | delete {i c row} : s.phase i = .settled c true true → c.eventId = e →
      RowStep s e (.run i) (some row) none
  | fail {i c row} : s.phase i = .settled c false true → c.eventId = e →
      RowStep s e (.run i) (some row) (some { row with retryCount := c.retryCount + 1 })

omit [DecidableEq ι] [EventTypeRegistry π] in
/-- What is found after a claim has been settled. -/
theorem find_settle (rows : Table (OutboxRow.eventId (π := π))) (c : ClaimedEvent π) (ok : Bool)
    (e : UUID) :
    (settle rows c ok).find e = if e = c.eventId then
      if ok then none else (rows.find e).map fun row => { row with retryCount := c.retryCount + 1 }
    else rows.find e := by
  unfold settle
  split
  · next h =>
    by_cases he : e = c.eventId
    · cases ok <;> simp [he, h]
    · simp [he]
  · next row h =>
    have hid := (Table.find_eq_some.1 h).2
    by_cases he : e = c.eventId <;> cases ok <;>
      simp [Table.find_delete, Table.find_update, he, h, hid]

theorem StepCases.row (h : StepCases worker s m s')
    (hids : ∀ e row, s.rows.find e = some row → e ∈ s.published) (e : UUID) :
    RowStep s e m (s.rows.find e) (s'.rows.find e) := by
  cases h with
  | @publish row hp hnew =>
    -- An event with a row has been published, and this one has not.
    have hnone : s.rows.find row.eventId = none := by
      cases h : s.rows.find row.eventId with
      | none => rfl
      | some row' => exact absurd (hids _ _ h) hnew
    rw [Table.find_insert hnone]
    by_cases he : e = row.eventId
    · rw [if_pos he, he, hnone]
      exact .publish hp rfl hnew
    · rw [if_neg he]
      exact .stay
  | @claim i c row hp hrow =>
    have hid : (row.claimed c.claimedAt).eventId = c.eventId := (Table.find_eq_some.1 hrow).2
    simp only [unlock, goto, Table.find_update, hid]
    by_cases he : e = c.eventId
    · rw [if_pos he, he, hrow]
      exact .claim hp rfl
    · rw [if_neg he]
      exact .stay
  | @settle i c ok hit p hp =>
    cases hit with
    -- A row that was missed stays as it is.
    | false => exact .stay
    | true =>
      simp only [unlock, goto, if_true, find_settle]
      by_cases he : e = c.eventId
      · rw [if_pos he, he]
        cases h : s.rows.find c.eventId with
        | none => cases ok <;> exact .stay
        | some row =>
          cases ok
          · exact .fail hp rfl
          · exact .delete hp rfl
      · rw [if_neg he]
        exact .stay
  | _ => exact .stay

/-! ## Rows move forward -/

/-- The two are versions of one row, and the second is not older. -/
structure Ahead (row row' : OutboxRow π) : Prop where
  id : row'.id = row.id
  eventId : row'.eventId = row.eventId
  eventType : row'.eventType = row.eventType
  payload : row'.payload = row.payload
  occurredAt : row.occurredAt ≤ row'.occurredAt
  retryCount : row.retryCount ≤ row'.retryCount

/-- Events are not forgotten, rows that are gone do not come back, and others have moved
    forward. -/
structure Later (s s' : Outbox ι π) : Prop where
  published : s.published ⊆ s'.published
  ahead : ∀ e ∈ s.published, ∀ row', s'.rows.find e = some row' →
    ∃ row, s.rows.find e = some row ∧ Ahead row row'

section
omit [DecidableEq ι] [EventTypeRegistry π]

theorem Ahead.refl (row : OutboxRow π) : Ahead row row := ⟨rfl, rfl, rfl, rfl, le_rfl, le_rfl⟩

theorem Ahead.trans {row row' row'' : OutboxRow π} (h : Ahead row row') (h' : Ahead row' row'') :
    Ahead row row'' :=
  ⟨h'.id.trans h.id, h'.eventId.trans h.eventId, h'.eventType.trans h.eventType,
    h'.payload.trans h.payload, h.occurredAt.trans h'.occurredAt, h.retryCount.trans h'.retryCount⟩

/-- A row that has not moved is the same. -/
theorem Ahead.eq {row row' : OutboxRow π} (h : Ahead row row') (ho : row'.occurredAt ≤ row.occurredAt)
    (hr : row'.retryCount ≤ row.retryCount) : row' = row := by
  obtain ⟨h₁, h₂, h₃, h₄, h₅, h₆⟩ := h
  obtain ⟨id, eventId, eventType, payload, occurredAt, retryCount⟩ := row
  obtain ⟨id', eventId', eventType', payload', occurredAt', retryCount'⟩ := row'
  obtain rfl := le_antisymm ho h₅
  obtain rfl := le_antisymm hr h₆
  subst h₁ h₂ h₃ h₄
  rfl

theorem Later.refl (s : Outbox ι π) : Later s s :=
  ⟨fun _ h => h, fun _ _ row h => ⟨row, h, .refl row⟩⟩

theorem Later.trans {s s' s'' : Outbox ι π} (h : Later s s') (h' : Later s' s'') : Later s s'' := by
  refine ⟨fun e he => h'.published (h.published he), fun e he row'' hrow'' => ?_⟩
  obtain ⟨row', hrow', ha'⟩ := h'.ahead e (h.published he) row'' hrow''
  obtain ⟨row, hrow, ha⟩ := h.ahead e he row' hrow'
  exact ⟨row, hrow, ha.trans ha'⟩

end

/-! ## The invariant -/

/-- The rows that a worker claims, when its clock reads `t`. -/
def Eligible (t : Instant) (row : OutboxRow π) : Worker → Prop
  | .immediate e => row.eventId = e ∧ row.Original
  | .relay r => row.Due r t

/-- Worker `i` claims a row, by a reading of its clock: not of the future, if clocks are
    `synced`. -/
def Claims (worker : ι → Worker) (synced : Prop) (s : Outbox ι π) (i : ι) (row : OutboxRow π)
    (c : ClaimedEvent π) : Prop :=
  ∃ t, c = row.claim t ∧ Eligible t row (worker i) ∧ (synced → t ≤ s.now)

/-- What is known of a claim that worker `i` has committed: the row is there as claimed, or
    has moved forward, or is gone. -/
structure Committed (worker : ι → Worker) (s : Outbox ι π) (i : ι) (c : ClaimedEvent π) : Prop where
  published : c.eventId ∈ s.published
  ahead : ∀ row', s.rows.find c.eventId = some row' → row'.eventType = c.eventType ∧
    row'.payload = c.payload ∧ c.claimedAt ≤ row'.occurredAt ∧ c.retryCount ≤ row'.retryCount
  occurredAt : ∀ event, deserializeEvent c.eventType c.payload = some event →
    event.occurredAt < c.claimedAt
  nonneg : 0 ≤ c.retryCount
  immediate : ∀ e, worker i = .immediate e → c.retryCount = 0
  relay : ∀ r, worker i = .relay r → c.retryCount < r.maxRetry

/-- Worker `i` holds the lock of a row, which is as it has read it. -/
def Owns (s : Outbox ι π) (i : ι) (row : OutboxRow π) : Prop :=
  s.locks row.eventId = some i ∧ s.rows.find row.eventId = some row

/-- What holds of worker `i` in its phase. -/
def Holds (worker : ι → Worker) (synced : Prop) (s : Outbox ι π) (i : ι) : Phase π → Prop
  | .selecting t => synced → t ≤ s.now
  | .checked row => worker i = .immediate row.eventId ∧ Owns s i row ∧ row.Original
  | .claiming c => ∃ row, Owns s i row ∧ Claims worker synced s i row c
  | .dispatching c | .settling c _ | .settled c _ false => Committed worker s i c
  | .settled c _ true => Committed worker s i c ∧
      ∃ row, Owns s i row ∧ row.eventId = c.eventId ∧ row.Matches c
  | .ready | .releasing | .done => True

/-- The claim that a worker has committed and not yet settled. -/
def claimOf : Phase π → Option (ClaimedEvent π)
  | .dispatching c | .settling c _ | .settled c _ _ => some c
  | _ => none

/-- The invariant of the outbox and its workers. Whether clocks are `synced` matters to what
    they read only. -/
structure Inv (worker : ι → Worker) (synced : Prop) (s : Outbox ι π) : Prop where
  published : ∀ e row, s.rows.find e = some row → e ∈ s.published
  nonneg : ∀ e row, s.rows.find e = some row → 0 ≤ row.retryCount
  occurredAt : ∀ e row, s.rows.find e = some row → ∀ event,
    deserializeEvent row.eventType row.payload = some event → event.occurredAt ≤ row.occurredAt
  holds : ∀ i, Holds worker synced s i (s.phase i)
  /-- Claims of an event differ in their time. -/
  unique : ∀ i j c c', claimOf (s.phase i) = some c → claimOf (s.phase j) = some c' →
    c.eventId = c'.eventId → c.claimedAt = c'.claimedAt → i = j

/-! ## What a step leaves unchanged -/

/-- The worker that makes a move. -/
def actor : Move ι π → Option ι
  | .publish _ | .tick _ => none
  | .readClock i _ | .run i | .dispatched i _ | .crash i | .restart i => some i

theorem StepCases.published (h : StepCases worker s m s') : s.published ⊆ s'.published := by
  cases h with
  | publish => exact fun _ => List.mem_cons_of_mem _
  | _ => exact fun _ h => h

theorem StepCases.now (h : StepCases worker s m s') : s.now ≤ s'.now := by
  cases h with
  | tick ht => exact ht
  | _ => exact le_rfl

theorem StepCases.phase (h : StepCases worker s m s') {j : ι} (hj : actor m ≠ some j) :
    s'.phase j = s.phase j := by
  cases h with
  | publish | tick => rfl
  | _ => exact Function.update_of_ne (fun h => hj (congrArg some h.symm)) ..

/-- A step takes free locks, and gives locks of its worker back. -/
theorem StepCases.locks (h : StepCases worker s m s') {j : ι} (hj : actor m ≠ some j) {e : UUID}
    (he : s.locks e = some j) : s'.locks e = some j := by
  have hlock : ∀ {i e'}, s.locks e' = none → Function.update s.locks e' (some i) e = some j := by
    intro i e' h'
    rw [Function.update_of_ne (fun h => by rw [h, h'] at he; cases he)]
    exact he
  have hunlock : ∀ {i}, some i ≠ some j →
      (if s.locks e = some i then none else s.locks e) = some j := by
    intro i hi
    rw [if_neg (fun h => hi (h.symm.trans he))]
    exact he
  cases h with
  | check _ _ _ h' | skip _ _ h' | select _ _ _ h' | hit _ _ _ h' => exact hlock h'
  | claim | settle | release | crash => exact hunlock hj
  | _ => exact he

/-- A claim that a worker has after a step, it had before, or has just committed. -/
theorem StepCases.claimOf (h : StepCases worker s m s') {j : ι} {c : ClaimedEvent π}
    (hc : claimOf (s'.phase j) = some c) :
    claimOf (s.phase j) = some c ∨ m = .run j ∧ s.phase j = .claiming c := by
  by_cases hj : actor m = some j
  · cases h with
    | publish | tick => cases hj
    | claim hp =>
      cases hj
      simp only [unlock, goto, Function.update_self, Outbox.claimOf, Option.some_inj] at hc
      exact .inr ⟨rfl, hc ▸ hp⟩
    | dispatched hp | miss hp | hit hp =>
      cases hj
      simp only [lock, goto, Function.update_self, Outbox.claimOf] at hc
      exact .inl (hp ▸ hc)
    | wait _ hp | settle _ hp =>
      cases hj
      obtain rfl | rfl := hp <;> simp [unlock, goto, Outbox.claimOf] at hc
    | _ =>
      cases hj
      simp [lock, unlock, goto, Outbox.claimOf] at hc
  · rw [h.phase hj] at hc
    exact .inl hc

/-- A worker starts to dispatch an event by committing its claim. -/
theorem StepCases.dispatching (h : StepCases worker s m s') {j : ι} {c : ClaimedEvent π}
    (hp : s'.phase j = .dispatching c) : s.phase j = .dispatching c ∨ m = .run j ∧
    s.phase j = .claiming c := by
  rcases h.claimOf (j := j) (c := c) (by rw [hp]; rfl) with hc | hc
  · left
    by_cases hj : actor m = some j
    · cases h with
      | publish | tick => cases hj
      | claim hp' =>
        cases hj
        rw [hp'] at hc
        cases hc
      | wait _ hp' | settle _ hp' =>
        cases hj
        obtain rfl | rfl := hp' <;> simp [unlock, goto] at hp
      | _ =>
        cases hj
        simp [lock, unlock, goto] at hp
    · rw [← h.phase hj]
      exact hp
  · exact .inr hc

/-! ## Steps keep the invariant -/

section
omit [DecidableEq ι] [EventTypeRegistry π]

theorem lt_claim (row : OutboxRow π) (t : Instant) : row.occurredAt < (row.claim t).claimedAt :=
  lt_of_lt_of_le (Int.lt_add_one_of_le le_rfl) (le_max_right _ _)

end

variable {synced : Prop}

namespace Inv

omit [DecidableEq ι] in
/-- A row that a worker is about to claim. -/
theorem claiming (hs : Inv worker synced s) {c : ClaimedEvent π} (hp : s.phase i = .claiming c) :
    ∃ row, Owns s i row ∧ Claims worker synced s i row c := by
  have h := hs.holds i
  rw [hp] at h
  exact h

omit [DecidableEq ι] in
/-- A claim that a worker has. -/
theorem committed (hs : Inv worker synced s) {c : ClaimedEvent π}
    (hc : claimOf (s.phase i) = some c) :
    Committed worker s i c := by
  have h := hs.holds i
  cases hp : s.phase i with
  | dispatching | settling =>
    rw [hp] at h hc
    cases hc
    exact h
  | settled c ok hit =>
    rw [hp] at h hc
    cases hc
    cases hit
    · exact h
    · exact h.1
  | _ =>
    rw [hp] at hc
    cases hc

omit [DecidableEq ι] in
/-- A worker that is about to settle a valid claim. -/
theorem settled (hs : Inv worker synced s) {c : ClaimedEvent π} {ok : Bool}
    (hp : s.phase i = .settled c ok true) :
    ∃ row, Owns s i row ∧ row.eventId = c.eventId ∧ row.Matches c := by
  have h := hs.holds i
  rw [hp] at h
  exact h.2

theorem row (hs : Inv worker synced s) (h : StepCases worker s m s') (e : UUID) :
    RowStep s e m (s.rows.find e) (s'.rows.find e) :=
  h.row hs.published e

/-- A row that is there after a step has moved forward. -/
theorem later (hs : Inv worker synced s) (h : StepCases worker s m s') : Later s s' := by
  refine ⟨h.published, fun e he row' hrow' => ?_⟩
  have hr := hs.row h e
  generalize ho : s.rows.find e = o at hr
  rw [hrow'] at hr
  cases hr with
  | stay => exact ⟨row', rfl, .refl row'⟩
  | publish _ _ hnew => exact absurd he hnew
  | @claim i c row hp hc =>
    obtain ⟨_, ⟨-, hfind⟩, t, rfl, -⟩ := hs.claiming hp
    rw [← hc] at ho
    obtain rfl := Option.some_inj.1 (hfind.symm.trans ho)
    exact ⟨_, rfl, rfl, rfl, rfl, rfl, (lt_claim _ t).le, le_rfl⟩
  | @fail i c row hp hc =>
    obtain ⟨_, ⟨-, hfind⟩, hid, hm⟩ := hs.settled hp
    rw [hid, hc, ho] at hfind
    obtain rfl := Option.some_inj.1 hfind
    exact ⟨_, rfl, rfl, rfl, rfl, rfl, le_rfl, hm.1.le.trans (Int.le_add_one le_rfl)⟩

/-- A row that is there after a step has just been published, or has moved forward. -/
theorem origin (hs : Inv worker synced s) (h : StepCases worker s m s') {e : UUID}
    {row' : OutboxRow π} (hrow' : s'.rows.find e = some row') :
    (e ∈ s'.published ∧ row'.Published) ∨ ∃ row, s.rows.find e = some row ∧ Ahead row row' := by
  by_cases he : e ∈ s.published
  · exact .inr ((hs.later h).ahead e he row' hrow')
  · have hr := hs.row h e
    generalize ho : s.rows.find e = o at hr
    rw [hrow'] at hr
    cases hr with
    | publish hp hid =>
      cases h
      exact .inl ⟨hid ▸ List.mem_cons_self, hp⟩
    | _ => exact absurd (hs.published e _ ho) he

/-- Workers keep the rows they have locked while others take a step. -/
theorem owns (hs : Inv worker synced s) (h : StepCases worker s m s') {j : ι} (hj : actor m ≠ some j)
    {row : OutboxRow π} (ho : Owns s j row) : Owns s' j row := by
  refine ⟨h.locks hj ho.1, ?_⟩
  have hr := hs.row h row.eventId
  rw [ho.2] at hr
  -- Another worker only writes rows that it has locked.
  have hother : ∀ {i} {row' : OutboxRow π},
      m = .run i → Owns s i row' → row'.eventId ≠ row.eventId := by
    rintro i row' rfl ⟨hl, -⟩ he
    rw [he, ho.1] at hl
    exact hj (congrArg some (Option.some_inj.1 hl).symm)
  generalize s'.rows.find row.eventId = o at hr
  cases hr with
  | stay => rfl
  | claim hp hc =>
    obtain ⟨row', ho', t, rfl, -⟩ := hs.claiming hp
    exact absurd hc (hother rfl ho')
  | delete hp hc | fail hp hc =>
    obtain ⟨row', ho', hid, -⟩ := hs.settled hp
    exact absurd (hid.trans hc) (hother rfl ho')

end Inv

omit [DecidableEq ι] in
theorem Committed.later {c : ClaimedEvent π} (hc : Committed worker s i c) (h : Later s s') :
    Committed worker s' i c := by
  refine ⟨h.published hc.published,
    fun row' hrow' => ?_, hc.occurredAt, hc.nonneg, hc.immediate, hc.relay⟩
  obtain ⟨row, hrow, ha⟩ := h.ahead _ hc.published _ hrow'
  obtain ⟨h₁, h₂, h₃, h₄⟩ := hc.ahead _ hrow
  exact ⟨ha.eventType.trans h₁, ha.payload.trans h₂, h₃.trans ha.occurredAt, h₄.trans ha.retryCount⟩

omit [DecidableEq ι] in
/-- What holds of a worker holds after a step of another one. -/
theorem Holds.frame {p : Phase π} (hp : Holds worker synced s i p)
    (ho : ∀ row, Owns s i row → Owns s' i row) (hl : Later s s') (hn : s.now ≤ s'.now) :
    Holds worker synced s' i p := by
  match p, hp with
  | .selecting t, hp => exact fun hsync => (hp hsync).trans hn
  | .checked row, ⟨hw, hr, horig⟩ => exact ⟨hw, ho _ hr, horig⟩
  | .claiming c, ⟨row, hr, t, hc, he, ht⟩ =>
    exact ⟨row, ho _ hr, t, hc, he, fun hsync => (ht hsync).trans hn⟩
  | .dispatching c, hc | .settling c _, hc | .settled c _ false, hc => exact hc.later hl
  | .settled c _ true, ⟨hc, row, hr, hid, hm⟩ => exact ⟨hc.later hl, row, ho _ hr, hid, hm⟩
  | .ready, _ | .releasing, _ | .done, _ => trivial

/-- What holds of a worker after its own step. -/
theorem Inv.holds_actor (hs : Inv worker synced s) (h : StepCases worker s m s')
    (hsync : synced → ∀ i t, m = .readClock i t → t = s.now) (hi : actor m = some i) :
    Holds worker synced s' i (s'.phase i) := by
  have hl := hs.later h
  have hp := hs.holds i
  cases h with
  | publish | tick => cases hi
  | @readClock i r t hw hphase =>
    cases hi
    simp only [goto, Function.update_self]
    exact fun hsy => (hsync hsy _ _ rfl).le
  | wait _ hfree | settle _ hfree =>
    cases hi
    obtain rfl | rfl := hfree <;> simp [unlock, goto, Holds]
  | @check i row hw _ hrow hlock horig =>
    cases hi
    simp only [lock, goto, Function.update_self]
    exact ⟨hw, ⟨Function.update_self .., hrow⟩, horig⟩
  | @select i r row now hw hphase hrow hlock hdue =>
    cases hi
    rw [hphase] at hp
    simp only [lock, goto, Function.update_self]
    exact ⟨row, ⟨Function.update_self .., hrow⟩, now, rfl, hw ▸ hdue, hp⟩
  | @claimChecked i e row t hw hphase =>
    cases hi
    rw [hphase] at hp
    obtain ⟨hw', hown, horig⟩ := hp
    simp only [goto, Function.update_self]
    exact ⟨row, hown, t, rfl, hw' ▸ ⟨rfl, horig⟩, fun hsy => (hsync hsy _ _ rfl).le⟩
  | @claim i c row hphase hrow =>
    cases hi
    -- The worker holds the lock of the row, so it is still the one that it selected.
    obtain ⟨row', ⟨-, hrow'⟩, t, rfl, he, -⟩ := hs.claiming hphase
    obtain rfl := Option.some_inj.1 (hrow'.symm.trans hrow)
    simp only [unlock, goto, Function.update_self]
    refine ⟨hs.published _ _ hrow, fun row hr => ?_, fun event hev => ?_, hs.nonneg _ _ hrow,
      fun e hw => ?_, fun r hw => ?_⟩
    · have hid : (row'.claimed (row'.claim t).claimedAt).eventId = (row'.claim t).eventId := rfl
      simp only [Table.find_update, hid, if_true, hrow] at hr
      obtain rfl := Option.some_inj.1 hr
      exact ⟨rfl, rfl, le_rfl, le_rfl⟩
    · exact (hs.occurredAt _ _ hrow event hev).trans_lt (lt_claim _ _)
    · rw [hw] at he
      exact he.2.1
    · rw [hw] at he
      exact he.2
  | dispatched hphase | miss hphase =>
    cases hi
    simp only [goto, Function.update_self]
    exact (hs.committed (by rw [hphase]; rfl)).later hl
  | @hit i c ok row hphase hrow hm hlock =>
    cases hi
    have hid := (Table.find_eq_some.1 hrow).2
    simp only [lock, goto, Function.update_self]
    refine ⟨(hs.committed (by rw [hphase]; rfl)).later hl, row, ⟨?_, ?_⟩, hid, hm⟩
    · rw [hid]
      exact Function.update_self ..
    · rw [hid]
      exact hrow
  | skip | release | crash | restart =>
    cases hi
    simp [lock, unlock, goto, Holds]

/-- A step keeps the invariant, if a synchronous clock reads the time. -/
theorem Inv.step (hs : Inv worker synced s) (h : StepCases worker s m s')
    (hsync : synced → ∀ i t, m = .readClock i t → t = s.now) : Inv worker synced s' := by
  have hl := hs.later h
  refine ⟨fun e row' hrow' => ?_, fun e row' hrow' => ?_, fun e row' hrow' event hev => ?_,
    fun i => ?_, ?_⟩
  · obtain ⟨he, -⟩ | ⟨row, hrow, -⟩ := hs.origin h hrow'
    · exact he
    · exact h.published (hs.published e row hrow)
  · obtain ⟨-, hp⟩ | ⟨row, hrow, ha⟩ := hs.origin h hrow'
    · exact hp.1.ge
    · exact (hs.nonneg e row hrow).trans ha.retryCount
  · obtain ⟨-, hp⟩ | ⟨row, hrow, ha⟩ := hs.origin h hrow'
    · exact (hp.2 event hev).le
    · rw [ha.eventType, ha.payload] at hev
      exact (hs.occurredAt e row hrow event hev).trans ha.occurredAt
  · by_cases hi : actor m = some i
    · exact hs.holds_actor h hsync hi
    · rw [h.phase hi]
      exact (hs.holds i).frame (fun row hown => hs.owns h hi hown) hl h.now
  · intro i j c c' hi hj he ht
    -- A claim that is committed has a later time than those before.
    have hnew : ∀ {i j c c'}, Outbox.claimOf (s.phase i) = some c → m = .run j →
        s.phase j = .claiming c' →
          c.eventId = c'.eventId → c.claimedAt ≠ c'.claimedAt := by
      intro i j c c' hi _ hj he
      obtain ⟨row, ⟨-, hrow⟩, t, rfl, -⟩ := hs.claiming hj
      exact (((hs.committed hi).ahead row (he ▸ hrow)).2.2.1.trans_lt (lt_claim row t)).ne
    obtain hi | ⟨rfl, hi⟩ := h.claimOf hi <;> obtain hj | ⟨hm, hj⟩ := h.claimOf hj
    · exact hs.unique i j c c' hi hj he ht
    · exact absurd ht (hnew hi hm hj he)
    · exact absurd ht.symm (hnew hj rfl hi he.symm)
    · cases hm
      rfl

omit [DecidableEq ι] in
theorem Inv.init {t : Instant} : Inv worker synced (Outbox.init t : Outbox ι π) := by
  refine ⟨fun e row h => ?_, fun e row h => ?_, fun e row h => ?_, fun i => trivial,
    fun i j c c' h => ?_⟩
  · cases h
  · cases h
  · cases h
  · cases h

/-! ## Runs -/

/-- Clocks read the time of the outbox. -/
def Synced (s : Outbox ι π) (m : Move ι π) : Prop := ∀ i t, m = .readClock i t → t = s.now

variable {ms ms' : List (Move ι π)} {t : Instant}

/-- The invariant holds in every state of a run. -/
theorem Inv.of_run (h : Run (Step worker) (Outbox.init t) ms s) : Inv worker False s :=
  h.keeps (fun _ _ _ hst hs => hs.step (step_cases hst) False.elim) Inv.init

theorem Inv.keeps (hs : Inv worker False s) (h : Run (Step worker) s ms s') : Inv worker False s' :=
  h.keeps (fun _ _ _ hst hs => hs.step (step_cases hst) False.elim) hs

/-- Rows move forward in every run. -/
theorem Inv.later_of_run (hs : Inv worker False s) (h : Run (Step worker) s ms s') : Later s s' := by
  induction h with
  | refl => exact .refl s
  | step h hst ih => exact ih.trans ((hs.keeps h).later (step_cases hst))

end Outbox

end Boat
