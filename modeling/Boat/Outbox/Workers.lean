import Boat.Core.Domain
import Boat.Core.Table
import Boat.Transition.Run
import Mathlib.Data.List.Sort

/-!
# Outbox: workers

The workers that dispatch the events of the outbox (`app/core/db/outbox`), as one
machine (`Outbox.step`): any number of immediate dispatchers
(`dispatch_outbox_event_immediately`, one event each) and of relays (`OutboxRelay`), in
any interleaving of their statements.

A worker claims a row by a new `occurred_at`, which it commits before it dispatches the
event; then it deletes the row, or counts a failure, if the row still has the
`occurred_at` and the `retry_count` of its claim. It holds the lock of the row from the
statement that takes it to the end of the transaction.

* Clocks return any reading (`Move.readClock`). They are synchronous if they read the time
  of the machine (`Synced`).
* Dispatch succeeds, raises (`Move.dispatched`), or never returns.
* A worker may crash at any point; a relay is started again.
-/

namespace Boat

/-- `DomainEvent`: what the outbox needs of it. -/
structure DomainEvent where
  eventId : UUID
  occurredAt : Instant
  deriving DecidableEq, Repr

/-- `deserialize_event`, with the registered types: none if it raises. -/
class EventTypeRegistry (π : Type) where
  deserializeEvent : String → π → Option DomainEvent

export EventTypeRegistry (deserializeEvent)

/-- A row of `outbox_events`, with a payload in `π`. -/
structure OutboxRow (π : Type) where
  id : ℤ
  eventId : UUID
  eventType : String
  payload : π
  occurredAt : Instant
  retryCount : ℤ
  deriving DecidableEq, Repr

/-- `_ClaimedEvent`. -/
structure ClaimedEvent (π : Type) where
  eventId : UUID
  eventType : String
  payload : π
  retryCount : ℤ
  claimedAt : Instant
  deriving DecidableEq, Repr

/-- `OutboxRelay`. -/
structure OutboxRelay where
  redeliverAfterSeconds : ℤ
  maxRetry : ℤ
  batchSize : ℕ
  deriving DecidableEq, Repr

/-- A number of seconds, in microseconds. -/
def seconds (n : ℤ) : ℤ := n * 1000000

/-- What a worker runs: the immediate dispatch of an event, or the loop of a relay. -/
inductive Worker
  | immediate (eventId : UUID)
  | relay (r : OutboxRelay)
  deriving DecidableEq, Repr

/-- What a worker does next. -/
inductive Phase (π : Type)
  /-- to start with an event: read the clock, or select the row -/
  | ready
  /-- relay: select a row that is due -/
  | selecting (now : Instant)
  /-- immediate: read the clock for the claim of the row it has locked -/
  | checked (row : OutboxRow π)
  /-- commit the claim of the row it has locked -/
  | claiming (claim : ClaimedEvent π)
  /-- dispatch the event it has claimed -/
  | dispatching (claim : ClaimedEvent π)
  /-- delete the row after success, or count a failure, if the claim is still valid -/
  | settling (claim : ClaimedEvent π) (ok : Bool)
  /-- commit what it has done; `hit` if the claim was valid -/
  | settled (claim : ClaimedEvent π) (ok hit : Bool)
  /-- end the transaction without a change -/
  | releasing
  | done
  deriving DecidableEq, Repr

/-- The outbox and its workers. -/
structure Outbox (ι π : Type) where
  rows : Table (OutboxRow.eventId (π := π))
  /-- the identities of the events so far, as `uuid4` never repeats one -/
  published : List UUID
  /-- the locks of the rows -/
  locks : UUID → Option ι
  now : Instant
  phase : ι → Phase π
  /-- `processed` of the relays -/
  processed : ι → ℕ

/-- What happens next: a row is committed, time passes, or a worker goes on. -/
inductive Move (ι π : Type)
  | publish (row : OutboxRow π)
  | tick (t : Instant)
  | readClock (i : ι) (t : Instant)
  | run (i : ι)
  | dispatched (i : ι) (ok : Bool)
  | crash (i : ι)
  | restart (i : ι)
  deriving DecidableEq, Repr

namespace OutboxRow

variable {π : Type}

/-- The row with the `occurred_at` of a claim. -/
def claimed (row : OutboxRow π) (claimedAt : Instant) : OutboxRow π :=
  { row with occurredAt := claimedAt }

/-- The claim of a row, by a worker whose clock reads `now`. -/
def claim (row : OutboxRow π) (now : Instant) : ClaimedEvent π :=
  ⟨row.eventId, row.eventType, row.payload, row.retryCount, max now (row.occurredAt + 1)⟩

/-- The conditions of the statement that deletes the row of a claim, or counts a failure. -/
def Matches (row : OutboxRow π) (claim : ClaimedEvent π) : Prop :=
  row.retryCount = claim.retryCount ∧ row.occurredAt = claim.claimedAt

instance (row : OutboxRow π) (claim : ClaimedEvent π) : Decidable (row.Matches claim) :=
  inferInstanceAs (Decidable (_ ∧ _))

/-- The conditions on a row that a relay redelivers. -/
def Due (r : OutboxRelay) (now : Instant) (row : OutboxRow π) : Prop :=
  row.occurredAt < now - seconds r.redeliverAfterSeconds ∧ row.retryCount < r.maxRetry

instance (r : OutboxRelay) (now : Instant) (row : OutboxRow π) : Decidable (row.Due r now) :=
  inferInstanceAs (Decidable (_ ∧ _))

variable [EventTypeRegistry π]

/-- The row has neither been claimed nor failed: it has the `occurred_at` of its event. -/
def Original (row : OutboxRow π) : Prop :=
  row.retryCount = 0 ∧ ∃ event, deserializeEvent row.eventType row.payload = some event ∧
    event.occurredAt = row.occurredAt

instance (row : OutboxRow π) : Decidable row.Original :=
  decidable_of_iff (row.retryCount = 0 ∧
    (deserializeEvent row.eventType row.payload).any (·.occurredAt = row.occurredAt) = true)
    (by simp [Original, Option.any_eq_true])

/-- A row as `OutboxEventPublisher.publish` inserts it. -/
def Published (row : OutboxRow π) : Prop :=
  row.retryCount = 0 ∧ ∀ event, deserializeEvent row.eventType row.payload = some event →
    event.occurredAt = row.occurredAt

instance (row : OutboxRow π) : Decidable row.Published :=
  decidable_of_iff (row.retryCount = 0 ∧
    (deserializeEvent row.eventType row.payload).all (·.occurredAt = row.occurredAt) = true)
    (by simp [Published, Option.all_eq_true])

end OutboxRow

namespace Outbox

variable {ι π : Type} [DecidableEq ι]

/-- No events, and workers about to start. -/
def init (now : Instant) : Outbox ι π where
  rows := .empty
  published := []
  locks _ := none
  now := now
  phase _ := .ready
  processed _ := 0

/-- Worker `i` goes on with `p`. -/
def goto (s : Outbox ι π) (i : ι) (p : Phase π) : Outbox ι π :=
  { s with phase := Function.update s.phase i p }

/-- Worker `i` locks a row. -/
def lock (s : Outbox ι π) (i : ι) (e : UUID) : Outbox ι π :=
  { s with locks := Function.update s.locks e (some i) }

/-- Worker `i` ends its transaction. -/
def unlock (s : Outbox ι π) (i : ι) : Outbox ι π :=
  { s with locks := fun e => if s.locks e = some i then none else s.locks e }

/-- The row that a relay selects: the first that is due, of those that are not locked. -/
def nextDue (s : Outbox ι π) (r : OutboxRelay) (now : Instant) : Option (OutboxRow π) :=
  ((s.rows.rows.filter fun row => row.Due r now ∧ s.locks row.eventId = none).insertionSort
    (·.id ≤ ·.id)).head?

/-- What is left of the row of a claim after success, or failure. -/
def settle (rows : Table (OutboxRow.eventId (π := π))) (claim : ClaimedEvent π) (ok : Bool) :
    Table (OutboxRow.eventId (π := π)) :=
  match rows.find claim.eventId with
  | none => rows
  | some row =>
    if ok then rows.delete claim.eventId
    else rows.update { row with retryCount := claim.retryCount + 1 }

variable [EventTypeRegistry π]

/-- The next statement, commit or rollback of worker `i`. -/
def run (worker : ι → Worker) (s : Outbox ι π) (i : ι) : Option (Outbox ι π) :=
  match worker i, s.phase i with
  | .immediate e, .ready =>
    -- SELECT ... FOR UPDATE
    match s.rows.find e, s.locks e with
    | none, _ => some (s.goto i .releasing)
    | some row, none =>
      some ((s.goto i (if row.Original then .checked row else .releasing)).lock i e)
    | some _, some _ => none
  | .relay r, .ready => if r.batchSize ≤ s.processed i then some (s.goto i .done) else none
  | .relay r, .selecting now =>
    -- SELECT ... FOR UPDATE SKIP LOCKED
    match s.nextDue r now with
    | none => some (s.goto i .releasing)
    | some row => some ((s.goto i (.claiming (row.claim now))).lock i row.eventId)
  | _, .claiming c =>
    match s.rows.find c.eventId with
    | none => none
    | some row => some ({ s with
        rows := s.rows.update (row.claimed c.claimedAt)
        processed := Function.update s.processed i (s.processed i + 1) }.goto i
          (.dispatching c) |>.unlock i)
  | _, .settling c ok =>
    -- DELETE or UPDATE, which wait for the lock of a row that matches
    match s.rows.find c.eventId with
    | none => some (s.goto i (.settled c ok false))
    | some row =>
      if row.Matches c then
        if s.locks c.eventId = none then some ((s.goto i (.settled c ok true)).lock i c.eventId)
        else none
      else some (s.goto i (.settled c ok false))
  | .immediate _, .settled c ok hit =>
    some ({ s with rows := if hit then settle s.rows c ok else s.rows }.goto i .done |>.unlock i)
  | .relay _, .settled c ok hit =>
    some ({ s with rows := if hit then settle s.rows c ok else s.rows }.goto i .ready |>.unlock i)
  | _, .releasing => some (s.goto i .done |>.unlock i)
  | _, _ => none

/-- One move. -/
def step (worker : ι → Worker) (s : Outbox ι π) : Move ι π → Option (Outbox ι π)
  | .publish row =>
    if row.Published ∧ row.eventId ∉ s.published then
      some { s with rows := s.rows.insert row, published := row.eventId :: s.published }
    else none
  | .tick t => if s.now ≤ t then some { s with now := t } else none
  | .readClock i t =>
    match worker i, s.phase i with
    | .relay r, .ready =>
      if s.processed i < r.batchSize then some (s.goto i (.selecting t)) else none
    | .immediate _, .checked row => some (s.goto i (.claiming (row.claim t)))
    | _, _ => none
  | .run i => s.run worker i
  | .dispatched i ok =>
    match s.phase i with
    | .dispatching c =>
      if ok ∧ deserializeEvent c.eventType c.payload = none then none
      else some (s.goto i (.settling c ok))
    | _ => none
  | .crash i => some (s.goto i .done |>.unlock i)
  | .restart i =>
    match worker i, s.phase i with
    | .relay _, .done => some ({ s with processed := Function.update s.processed i 0 }.goto i .ready)
    | _, _ => none

/-- The steps of the machine. -/
def Step (worker : ι → Worker) (s : Outbox ι π) (m : Move ι π) (s' : Outbox ι π) : Prop :=
  s.step worker m = some s'


end Outbox

end Boat
