import Boat.Core.Table
import Boat.Credits.Domain
import Boat.Promotions.Domain
import Boat.ReadCommitted.Logic

/-!
# The database

The tables of the application, as one store of the sessions of `ReadCommitted`,
with what the locks of PostgreSQL protect (`LockKey.Protects`):

* a row lock, taken by `SELECT ... FOR UPDATE` and by updates, protects the row;
* an entry of a unique index, taken by inserts, protects its absence: an insert
  waits for the transactions that are inserting the same entry.

`insertCommand` and `updateCommand` make the two kinds of writes, refused when
they violate a constraint. `Tx` are the programs over the database, and
`UnitOfWork` ends their transactions.
-/

namespace Boat

open ReadCommitted

/-- The events of all modules. -/
inductive Event
  | credit (event : CreditEvent)
  | promotion (event : PromotionEvent)
  deriving DecidableEq, Repr

/-- A row of the outbox. -/
structure OutboxEvent where
  eventId : UUID
  event : Event
  occurredAt : Instant
  deriving DecidableEq, Repr

/-- The tables. Their rows have the identities their defaults give them (`uuid4`),
    and `userCredits` has its primary key, the user. -/
structure Database where
  userCredits : UUID → Option CreditBalance
  creditTransactions : List CreditTransaction
  promotions : Table Promotion.id
  promotionContents : List PromotionContent
  promotionCodes : Table PromotionCode.id
  promotionRedemptions : List PromotionRedemption
  outboxEvents : List OutboxEvent

/-- The tables before the first request. -/
def Database.empty : Database where
  userCredits _ := none
  creditTransactions := []
  promotions := .empty
  promotionContents := []
  promotionCodes := .empty
  promotionRedemptions := []
  outboxEvents := []

/-- An entry of a unique index. -/
inductive IndexEntry
  /-- `pk_user_credits` -/
  | userCredit (userId : UUID)
  /-- `ix_credit_transactions_idempotency_key_unique` -/
  | transactionKey (key : String)
  /-- `ix_credit_transactions_source_unique` -/
  | transactionSource (source : CreditSource) (userId : UUID) (action : CreditAction)
  /-- `uq_promotion_redemptions_idempotency_key` -/
  | redemptionKey (key : String)
  /-- `uq_promotion_redemptions_promotion_beneficiary` -/
  | redemptionBeneficiary (promotionId : UUID) (beneficiaryKey : String)
  deriving DecidableEq, Repr

/-- A row that can be locked. -/
inductive RowKey
  | userCredit (userId : UUID)
  | promotion (promotionId : UUID)
  | promotionCode (codeId : UUID)
  deriving DecidableEq, Repr

/-- A lock. -/
inductive LockKey
  | row (key : RowKey)
  | entry (entry : IndexEntry)
  deriving DecidableEq, Repr

/-- The entries of a row in the unique indexes of `credit_transactions`, which are
    partial: a missing key or source has none. -/
def CreditTransaction.entries (t : CreditTransaction) : List IndexEntry :=
  (t.idempotencyKey.map .transactionKey).toList ++
    (t.source.map fun s => .transactionSource s t.userId t.action).toList

/-- The entries of a row in the unique indexes of `promotion_redemptions`. -/
def PromotionRedemption.entries (r : PromotionRedemption) : List IndexEntry :=
  .redemptionKey r.idempotencyKey ::
    (r.beneficiaryKey.map (.redemptionBeneficiary r.promotionId)).toList

namespace Database

/-- The promotion with an id. -/
def promotion (d : Database) (promotionId : UUID) : Option Promotion :=
  d.promotions.find promotionId

/-- The promotion code with an id. -/
def promotionCode (d : Database) (codeId : UUID) : Option PromotionCode :=
  d.promotionCodes.find codeId

/-- Is there a row with this entry? -/
def hasEntry (d : Database) (e : IndexEntry) : Bool :=
  match e with
  | .userCredit u => (d.userCredits u).isSome
  | .transactionKey _ | .transactionSource .. => d.creditTransactions.any (e ∈ ·.entries)
  | .redemptionKey _ | .redemptionBeneficiary .. => d.promotionRedemptions.any (e ∈ ·.entries)

end Database

/-- What a lock protects: the row, or that there is none with the entry. -/
inductive LockKey.Protects : LockKey → (Database → Prop) → Prop
  | userCredit (userId : UUID) (row : CreditBalance) :
      Protects (.row (.userCredit userId)) fun d => d.userCredits userId = some row
  | promotion (promotionId : UUID) (row : Promotion) :
      Protects (.row (.promotion promotionId)) fun d => d.promotion promotionId = some row
  | promotionCode (codeId : UUID) (row : PromotionCode) :
      Protects (.row (.promotionCode codeId)) fun d => d.promotionCode codeId = some row
  | entry (e : IndexEntry) : Protects (.entry e) fun d => d.hasEntry e = false

instance : Locking Database LockKey := ⟨LockKey.Protects⟩

/-! ## Writes -/

namespace Database

/-- Insert a row of `credit_transactions`. -/
def insertTransaction (t : CreditTransaction) (d : Database) : Database :=
  { d with creditTransactions := d.creditTransactions ++ [t] }

/-- Insert a row of `promotion_redemptions`. -/
def insertRedemption (r : PromotionRedemption) (d : Database) : Database :=
  { d with promotionRedemptions := d.promotionRedemptions ++ [r] }

/-- Update a row of `promotions`. -/
def updatePromotion (p : Promotion) (d : Database) : Database :=
  { d with promotions := d.promotions.update p }

/-- Update a row of `promotion_codes`. -/
def updatePromotionCode (c : PromotionCode) (d : Database) : Database :=
  { d with promotionCodes := d.promotionCodes.update c }

/-- Insert rows of `outbox_events`. -/
def insertOutbox (events : List OutboxEvent) (d : Database) : Database :=
  { d with outboxEvents := d.outboxEvents ++ events }

/-- Delete the transactions that a `DELETE` has found. -/
def deleteTransactions (found : List CreditTransaction) (d : Database) : Database :=
  { d with creditTransactions := d.creditTransactions.filter (· ∉ found) }

/-- The database with another row of `user_credits`, or none. -/
def setUserCredit (userId : UUID) (row : Option CreditBalance) (d : Database) : Database :=
  { d with userCredits := Function.update d.userCredits userId row }

/-- Insert a row of `user_credits`. -/
def insertUserCredit (userId : UUID) (row : CreditBalance) (d : Database) : Database :=
  d.setUserCredit userId ((d.userCredits userId).or (some row))

/-- Update a row of `user_credits`. -/
def updateUserCredit (userId : UUID) (row : CreditBalance) (d : Database) : Database :=
  d.setUserCredit userId ((d.userCredits userId).map fun _ => row)

/-- Delete the credits of a user. -/
def deleteUserCredit (userId : UUID) (d : Database) : Database := d.setUserCredit userId none

theorem userCredits_setUserCredit (d : Database) (u v : UUID) (o : Option CreditBalance) :
    (d.setUserCredit u o).userCredits v = if v = u then o else d.userCredits v :=
  Function.update_apply ..

theorem hasEntry_userCredit {d : Database} {u : UUID} :
    d.hasEntry (.userCredit u) = false ↔ d.userCredits u = none := by
  simp [hasEntry]

theorem promotion_updatePromotion (q : Promotion) (d : Database) (i : UUID) :
    (updatePromotion q d).promotion i =
      if i = q.id then (d.promotion i).map fun _ => q else d.promotion i :=
  Table.find_update q d.promotions i

theorem promotionCode_updatePromotionCode (c : PromotionCode) (d : Database) (i : UUID) :
    (updatePromotionCode c d).promotionCode i =
      if i = c.id then (d.promotionCode i).map fun _ => c else d.promotionCode i :=
  Table.find_update c d.promotionCodes i

/-! Every write touches only the entries of the rows it inserts, and the rows it
updates or deletes. -/

theorem touches_insertUserCredit (userId : UUID) (row : CreditBalance) :
    Touches [.entry (.userCredit userId)] (insertUserCredit userId row) := by
  rintro k hk d p (⟨u, b⟩ | ⟨u, b⟩ | ⟨u, b⟩ | e) h
  · grind [insertUserCredit, userCredits_setUserCredit]
  · exact h
  · exact h
  · cases e with
    | userCredit v =>
      rw [hasEntry_userCredit] at h ⊢; grind [insertUserCredit, userCredits_setUserCredit]
    | _ => exact h

theorem touches_updateUserCredit (userId : UUID) (row : CreditBalance) :
    Touches [.row (.userCredit userId)] (updateUserCredit userId row) := by
  rintro k hk d p (⟨u, b⟩ | ⟨u, b⟩ | ⟨u, b⟩ | e) h
  · grind [updateUserCredit, userCredits_setUserCredit]
  · exact h
  · exact h
  · cases e with
    | userCredit v =>
      rw [hasEntry_userCredit] at h ⊢; grind [updateUserCredit, userCredits_setUserCredit]
    | _ => exact h

theorem touches_insertTransaction (t : CreditTransaction) :
    Touches (t.entries.map .entry) (insertTransaction t) := by
  rintro k hk d p (⟨u, b⟩ | ⟨u, b⟩ | ⟨u, b⟩ | e) h
  · exact h
  · exact h
  · exact h
  · cases e with
    | userCredit v => exact h
    | _ => grind [insertTransaction, hasEntry]

theorem touches_insertRedemption (r : PromotionRedemption) :
    Touches (r.entries.map .entry) (insertRedemption r) := by
  rintro k hk d p (⟨u, b⟩ | ⟨u, b⟩ | ⟨u, b⟩ | e) h
  · exact h
  · exact h
  · exact h
  · cases e with
    | userCredit v => exact h
    | _ => grind [insertRedemption, hasEntry]

theorem touches_updatePromotion (q : Promotion) :
    Touches [.row (.promotion q.id)] (updatePromotion q) := by
  rintro k hk d p (⟨u, b⟩ | ⟨u, b⟩ | ⟨u, b⟩ | e) h
  · exact h
  · grind [promotion_updatePromotion]
  · exact h
  · cases e <;> exact h

theorem touches_updatePromotionCode (c : PromotionCode) :
    Touches [.row (.promotionCode c.id)] (updatePromotionCode c) := by
  rintro k hk d p (⟨u, b⟩ | ⟨u, b⟩ | ⟨u, b⟩ | e) h
  · exact h
  · exact h
  · grind [promotionCode_updatePromotionCode]
  · cases e <;> exact h

theorem touches_insertOutbox (events : List OutboxEvent) : Touches [] (insertOutbox events) := by
  rintro k hk d p (⟨u, b⟩ | ⟨u, b⟩ | ⟨u, b⟩ | e) h
  · exact h
  · exact h
  · exact h
  · cases e <;> exact h

theorem touches_deleteTransactions (found : List CreditTransaction) :
    Touches [] (deleteTransactions found) := by
  rintro k hk d p (⟨u, b⟩ | ⟨u, b⟩ | ⟨u, b⟩ | e) h
  · exact h
  · exact h
  · exact h
  · cases e with
    | userCredit v => exact h
    | _ => grind [deleteTransactions, hasEntry]

theorem touches_deleteUserCredit (userId : UUID) :
    Touches [.row (.userCredit userId)] (deleteUserCredit userId) := by
  rintro k hk d p (⟨u, b⟩ | ⟨u, b⟩ | ⟨u, b⟩ | e) h
  · grind [deleteUserCredit, userCredits_setUserCredit]
  · exact h
  · exact h
  · cases e with
    | userCredit v =>
      rw [hasEntry_userCredit] at h ⊢; grind [deleteUserCredit, userCredits_setUserCredit]
    | _ => exact h

end Database

/-! ## Programs -/

/-- What `save` leaves pending in the session for a row of `user_credits`: a new
    row, or the row it has read with the counts it has set. -/
inductive PendingUserCredit
  | insert (row : CreditBalance)
  | update (seen row : CreditBalance)
  deriving DecidableEq, Repr

/-- The statements of the repositories, with what the analysis needs to know. -/
inductive Statement
  | getUserCredit (userId : UUID)
  | getUserCreditForUpdate (userId : UUID)
  | existsTransactionWithKey (key : String)
  | existsTransactionWithSource (source : CreditSource) (userId : UUID) (action : CreditAction)
  | flushOutbox
  | flushTransaction (t : CreditTransaction) (pending : PendingUserCredit)
  | flushUserCredit (userId : UUID) (pending : PendingUserCredit)
  | deleteTransactions (userId : UUID)
  | deleteUserCredit (userId : UUID)
  | findPromotion (promotionId : UUID)
  | findPromotionForUpdate (promotionId : UUID)
  | findCurrentPromotion (context : Option PromotionContext)
  | findCurrentPromotions (context : PromotionContext)
  | lockCurrentPromotion (promotionId : UUID)
  | findCodeByCodeForUpdate (code : String)
  | findCode (codeId : UUID)
  | findContent (promotionId : UUID)
  | findRedemptionByKey (key : String)
  | findRedemptionByUser (userId promotionId : UUID)
  | findRedemptionByBeneficiary (promotionId : UUID) (beneficiaryKey : String)
  | countUserRedemptions (userId promotionId : UUID)
  | flushRedemption (r : PromotionRedemption)
  | flushPromotion (p : Promotion)
  | flushPromotionCode (c : PromotionCode)
  /-- Not a statement of the database: the external service is called. -/
  | callOcrClient
  | commit
  | rollback
  deriving DecidableEq, Repr

/-- The constraints that a write can violate. -/
inductive Constraint
  | pkUserCredits
  | ixCreditTransactionsIdempotencyKeyUnique
  | ixCreditTransactionsSourceUnique
  | uqPromotionRedemptionsIdempotencyKey
  | uqPromotionRedemptionsPromotionBeneficiary
  | ckCreditTransactionsReasonActionPair
  /-- The check constraints on the counts of `user_credits`. -/
  | ckUserCredits
  deriving DecidableEq, Repr

/-- The unique index of an entry. -/
def IndexEntry.constraint : IndexEntry → Constraint
  | .userCredit _ => .pkUserCredits
  | .transactionKey _ => .ixCreditTransactionsIdempotencyKeyUnique
  | .transactionSource .. => .ixCreditTransactionsSourceUnique
  | .redemptionKey _ => .uqPromotionRedemptionsIdempotencyKey
  | .redemptionBeneficiary .. => .uqPromotionRedemptionsPromotionBeneficiary

/-- The exceptions of the programs. -/
inductive Error
  | domain (e : DomainError)
  /-- `IntegrityError` -/
  | integrity (c : Constraint)
  /-- `StaleDataError`: an update has met no row. -/
  | staleData
  /-- A statement, a commit or a rollback fails: the connection is lost, a value
      does not fit its column, a deadlock is resolved, ... -/
  | fault (s : Statement)
  deriving DecidableEq, Repr

/-- The programs over the database. -/
abbrev Tx := Prog Database Statement Error

/-- Execute a command. -/
def Tx.exec {α : Type} (s : Statement) (c : Command Database Error α) : Tx α :=
  Prog.exec s (.fault s) c

/-- The result of a domain function. -/
def Tx.lift {α : Type} : Except DomainError α → Tx α
  | .ok a => .ret a
  | .error e => .raise (.domain e)

/-- Read without locks. -/
def Tx.select {α : Type} (s : Statement) (f : Database → α) : Tx α :=
  Tx.exec s (.query (fun _ => []) f)

/-- Read a row, and lock it (`SELECT ... FOR UPDATE`). -/
def Tx.selectForUpdate {α : Type} (s : Statement) (key : α → RowKey) (f : Database → Option α) :
    Tx (Option α) :=
  Tx.exec s (.query (fun v => ((f v).map fun r => .row (key r)).toList) f)

/-- Insert a row with these entries in unique indexes, if it passes the checks. -/
def insertCommand (entries : List IndexEntry) (check : Option Constraint)
    (w : Database → Database) (hw : Touches (entries.map .entry) w) :
    Command Database Error Unit where
  locks _ := entries.map .entry
  run v := match check, entries.find? (v.hasEntry ·) with
    | some c, _ => .error (.integrity c)
    | none, some e => .error (.integrity e.constraint)
    | none, none => .ok ((), w)
  touches v a u h := by
    split at h
    · cases h
    · cases h
    · cases h; exact hw

/-- Update the row that `f` finds, by what `set` makes of it. -/
def updateCommand {ρ : Type} (key : RowKey) (f : Database → Option ρ)
    (set : ρ → Except Error (Database → Database))
    (hset : ∀ r w, set r = .ok w → Touches [.row key] w) : Command Database Error Unit where
  locks v := if (f v).isSome then [.row key] else []
  run v := match f v with
    | none => .error .staleData
    | some r => (set r).map fun w => ((), w)
  touches v a w h := by
    cases hr : f v with
    | none => simp [hr] at h
    | some r =>
      cases hs : set r with
      | error e => simp [hr, hs, Except.map] at h
      | ok u =>
        simp only [hr, hs, Except.map, Except.ok.injEq, Prod.mk.injEq, true_and] at h
        simpa [h] using hset r u hs

/-- A column of an `UPDATE`: the ORM writes only what has changed since it was read. -/
def changed {α : Type} [DecidableEq α] (seen new current : α) : α :=
  if new = seen then current else new

@[simp] theorem changed_self {α : Type} [DecidableEq α] (seen new : α) :
    changed seen new seen = new := by
  unfold changed
  split <;> simp_all

/-- The row of an event: the payload is the event. -/
def OutboxEvent.of {α : Type} (inj : α → Event) (e : Stamped α) : OutboxEvent :=
  ⟨e.eventId, inj e.event, e.occurredAt⟩

/-- The insert of rows of `outbox_events`. -/
def insertOutboxCommand (rows : List OutboxEvent) : Command Database Error Unit where
  locks _ := []
  run _ := .ok ((), Database.insertOutbox rows)
  touches v a w h := by cases h; exact Database.touches_insertOutbox rows

/-- `OutboxEventPublisher.publish`: rows of the outbox, inserted by the same session. -/
def publish {α : Type} (inj : α → Event) (events : List (Stamped α)) : Tx Unit :=
  Tx.exec .flushOutbox (insertOutboxCommand (events.map (.of inj)))

/-- `UnitOfWork`: how a use case ends the transaction of its session. -/
structure UnitOfWork where
  commit : Tx Unit
  rollback : Tx Unit

/-- `session.rollback`. -/
def sessionRollback : Tx Unit :=
  .rollback fun b => if b then .ret () else .raise (.fault .rollback)

/-- `SqlAlchemyUnitOfWork`. -/
def sqlAlchemyUnitOfWork : UnitOfWork where
  commit := .commit fun b => if b then .ret () else .raise (.fault .commit)
  rollback := sessionRollback

/-- `DeferredCommitUnitOfWork`: the commit is left to the caller. -/
def deferredCommitUnitOfWork (rollback : Option (Tx Unit)) : UnitOfWork where
  commit := .ret ()
  rollback := rollback.getD (.ret ())

section Rules

variable {ι α : Type} {P : Protocol ι Database LockKey Statement} {i : ι}
  {Q : Post Database LockKey α} {E : Post Database LockKey Error} {X : Error → Database → Prop}
  {w : Database → Database} {ks : List LockKey} {d : Database} {s : Statement}

/-! What the locks of a session protect from the others. -/

theorem interf_userCredit {d' : Database} {u : UUID} {row : CreditBalance} (hi : P.Interf i ks d d')
    (hk : .row (.userCredit u) ∈ ks) (h : d.userCredits u = some row) :
    d'.userCredits u = some row :=
  hi.kept hk (fun d => d.userCredits u = some row) (.userCredit u row) h

theorem interf_promotion {d' : Database} {p : UUID} {row : Promotion} (hi : P.Interf i ks d d')
    (hk : .row (.promotion p) ∈ ks) (h : d.promotion p = some row) : d'.promotion p = some row :=
  hi.kept hk (fun d => d.promotion p = some row) (.promotion p row) h

theorem interf_promotionCode {d' : Database} {c : UUID} {row : PromotionCode}
    (hi : P.Interf i ks d d') (hk : .row (.promotionCode c) ∈ ks)
    (h : d.promotionCode c = some row) : d'.promotionCode c = some row :=
  hi.kept hk (fun d => d.promotionCode c = some row) (.promotionCode c row) h

theorem interf_entry {d' : Database} {e : IndexEntry} (hi : P.Interf i ks d d')
    (hk : .entry e ∈ ks) (h : d.hasEntry e = false) : d'.hasEntry e = false :=
  hi.kept hk (fun d => d.hasEntry e = false) (.entry e) h

/-! The rules of the statements. What an exception leaves behind (`X`) does not depend
on what has been written and locked, see also `Protocol.wp_raises`. -/

theorem wp_lift {r : Except DomainError α} :
    P.wp i Q E (Tx.lift r) w ks d ↔
      (∀ a, r = .ok a → Q a w ks d) ∧ ∀ e, r = .error e → E (.domain e) w ks d := by
  cases r <;> simp [Tx.lift]

theorem wp_select {f : Database → α} :
    P.wp i Q (fun e _ _ d => X e d) (Tx.select s f) w ks d ↔
      ∀ d', P.Interf i ks d d' → P.inv d' →
        (P.cond i s d' ks → Q (f (w d')) w ks d') ∧ X (.fault s) d' := by
  simp only [Tx.select, Tx.exec, Protocol.wp_exec, Command.query_run, and_self]
  rfl

theorem wp_publish {β : Type} {inj : β → Event} {events : List (Stamped β)}
    {Q : Post Database LockKey Unit} :
    P.wp i Q (fun e _ _ d => X e d) (publish inj events) w ks d ↔
      ∀ d', P.Interf i ks d d' → P.inv d' →
        (P.cond i .flushOutbox d' ks →
          Q () (Database.insertOutbox (events.map (.of inj)) ∘ w) ks d') ∧
        X (.fault .flushOutbox) d' := by
  simp only [publish, Tx.exec, Protocol.wp_exec, insertOutboxCommand, and_self]
  rfl

theorem wp_sessionRollback {E : Post Database LockKey Error} {Q : Post Database LockKey Unit} :
    P.wp i Q E sessionRollback w ks d ↔ ∀ d', P.Interf i ks d d' → P.inv d' →
      Q () id [] d' ∧ E (.fault .rollback) id [] d' := by
  simp only [sessionRollback, Protocol.wp_rollback, Bool.forall_bool]
  exact forall_congr' fun _ => forall₂_congr fun _ _ => and_comm

theorem wp_commit {E : Post Database LockKey Error} {Q : Post Database LockKey Unit} :
    P.wp i Q E sqlAlchemyUnitOfWork.commit w ks d ↔ ∀ d', P.Interf i ks d d' → P.inv d' →
      (P.inv (w d') ∧ P.guar i ks d' (w d') ∧ Q () id [] (w d')) ∧ E (.fault .commit) id [] d' :=
  .rfl

theorem wp_selectForUpdate {f : Database → Option α} {key : α → RowKey}
    {Q : Post Database LockKey (Option α)} :
    P.wp i Q (fun e _ _ d => X e d) (Tx.selectForUpdate s key f) w ks d ↔
      ∀ d', P.Interf i ks d d' → P.inv d' →
        (P.cond i s d' ks → Q (f (w d')) w (((f (w d')).map fun r => .row (key r)).toList ++ ks) d') ∧
          X (.fault s) d' := by
  simp only [Tx.selectForUpdate, Tx.exec, Protocol.wp_exec, Command.query_run, and_self]
  rfl

/-- An insert waits for the entries of the row, and finds none of them, or is refused. -/
theorem wp_insert {entries : List IndexEntry} {check : Option Constraint} {u : Database → Database}
    {hu : Touches (entries.map .entry) u} {Q : Post Database LockKey Unit}
    (hQ : ∀ d', P.Interf i ks d d' → P.cond i s d' ks → check = none →
      (∀ e ∈ entries, (w d').hasEntry e = false) → Q () (u ∘ w) (entries.map .entry ++ ks) d')
    (hentry : ∀ d' d'', P.Interf i ks d d' → P.cond i s d' ks → P.Interf i [] d' d'' →
      ∀ e ∈ entries, (w d').hasEntry e = true → X (.integrity e.constraint) d'')
    (hcheck : ∀ c d', check = some c → P.Interf i [] d d' → X (.integrity c) d')
    (hfault : ∀ d', P.Interf i [] d d' → X (.fault s) d') :
    P.wp i Q (fun e _ _ d => X e d) (Tx.exec s (insertCommand entries check u hu)) w ks d := by
  rw [Tx.exec, Protocol.wp_exec]
  refine fun d' hi _ => ⟨fun hc => ?_, hfault d' hi.nil, hfault d' hi.nil⟩
  simp only [insertCommand]
  cases check with
  | some c => exact fun d'' hi' _ => hcheck c d'' rfl (hi.nil.trans hi'.nil)
  | none =>
    cases hf : entries.find? ((w d').hasEntry ·) with
    | some e =>
      exact fun d'' hi' _ => hentry d' d'' hi hc hi'.nil e (List.mem_of_find?_eq_some hf)
        (List.find?_some hf)
    | none => exact hQ d' hi hc rfl fun e he => by simpa using List.find?_eq_none.1 hf e he

/-- An update waits for the row, and sets what it makes of it, or is refused. -/
theorem wp_update {ρ : Type} {key : RowKey} {f : Database → Option ρ}
    {set : ρ → Except Error (Database → Database)}
    {hset : ∀ r w, set r = .ok w → Touches [.row key] w} {Q : Post Database LockKey Unit}
    (hQ : ∀ d' r u, P.Interf i ks d d' → P.cond i s d' ks → f (w d') = some r → set r = .ok u →
      Q () (u ∘ w) (.row key :: ks) d')
    (hX : ∀ e d', P.Interf i [] d d' →
      e = .staleData ∨ e = .fault s ∨ (∃ r, set r = .error e) → X e d') :
    P.wp i Q (fun e _ _ d => X e d) (Tx.exec s (updateCommand key f set hset)) w ks d := by
  rw [Tx.exec, Protocol.wp_exec]
  refine fun d' hi _ =>
    ⟨fun hc => ?_, hX _ d' hi.nil (.inr (.inl rfl)), hX _ d' hi.nil (.inr (.inl rfl))⟩
  simp only [updateCommand]
  cases hr : f (w d') with
  | none => exact fun d'' hi' _ => hX _ d'' (hi.nil.trans hi'.nil) (.inl rfl)
  | some r =>
    cases hu : set r with
    | error e =>
      simp only [hu, Except.map]
      exact fun d'' hi' _ => hX e d'' (hi.nil.trans hi'.nil) (.inr (.inr ⟨r, hu⟩))
    | ok u =>
      simp only [hu, Except.map]
      exact hQ d' r u hi hc hr hu

end Rules

end Boat
