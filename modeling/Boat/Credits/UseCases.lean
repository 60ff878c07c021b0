import Boat.Database
import Boat.ReadCommitted.Commands

/-!
# Credits: use cases

The repository of the credits module (`SqlAlchemyCreditRepository`) and its
commands: granting credit, using it in two steps (reserve and finalize), and
deleting the credits of a user.

The unit of work of the ORM is made explicit: `save` and `appendTransaction` leave
rows pending, and `flush` writes them, in the order of the names of their
classes: outbox rows, credit transactions, user credits. `session.get` always
reads the row again, as the identity map holds unchanged rows only weakly.
-/

namespace Boat

open ReadCommitted

/-! ## Repository -/

/-- `mapper.user_credit_to_domain`. -/
def userCreditToDomain (record : Option CreditBalance) (userId : UUID) : UserCredit where
  id := userId
  balance := record.getD .zero

namespace SqlAlchemyCreditRepository

/-- `get_balance`. -/
def getBalance (userId : UUID) : Tx CreditBalance :=
  Tx.select (.getUserCredit userId) fun v =>
    (userCreditToDomain (v.userCredits userId) userId).balance

/-- `get_user_credit_for_update`. -/
def getUserCreditForUpdate (userId : UUID) : Tx UserCredit := do
  let record ← Tx.selectForUpdate (.getUserCreditForUpdate userId) (fun _ => .userCredit userId)
    (·.userCredits userId)
  return userCreditToDomain record userId

/-- The write of `save`, for the record it has read. -/
def pendingFor (record : Option CreditBalance) (row : CreditBalance) : PendingUserCredit :=
  match record with
  | none => .insert row
  | some seen => .update seen row

/-- `save`. -/
def save (userCredit : UserCredit) : Tx PendingUserCredit := do
  let record ← Tx.select (.getUserCredit userCredit.id) (·.userCredits userCredit.id)
  return pendingFor record userCredit.balance

/-- The row of `append_transaction`. -/
def appendTransaction (id userId : UUID) (reason : CreditReason) (action : CreditAction)
    (amount : CreditAmount) (source : Option CreditSource := none)
    (idempotencyKey : Option String := none) : CreditTransaction :=
  ⟨id, userId, reason, action, amount, source, idempotencyKey⟩

/-- The insert of a credit transaction. -/
def insertTransaction (t : CreditTransaction) : Command Database Error Unit :=
  insertCommand t.entries (if t.reasonActionPair then none
    else some .ckCreditTransactionsReasonActionPair)
    (Database.insertTransaction t) (Database.touches_insertTransaction t)

/-- The insert of a new row of `user_credits`. -/
def insertUserCredit (userId : UUID) (row : CreditBalance) : Command Database Error Unit :=
  insertCommand [.userCredit userId] none (Database.insertUserCredit userId row)
    (Database.touches_insertUserCredit userId row)

/-- The counts after an update of those that have changed, if they pass the checks. -/
def mergeCounts (seen row current : CreditBalance) : Except Error CreditBalance :=
  match CreditBalance.create
    (changed seen.totalGrantedCount row.totalGrantedCount current.totalGrantedCount)
    (changed seen.usedCount row.usedCount current.usedCount)
    (changed seen.remainingCount row.remainingCount current.remainingCount) with
  | .ok b => .ok b
  | .error _ => .error (.integrity .ckUserCredits)

/-- The update of a row of `user_credits`. -/
def updateUserCredit (userId : UUID) (seen row : CreditBalance) : Command Database Error Unit :=
  updateCommand (.userCredit userId) (·.userCredits userId)
    (fun current => (mergeCounts seen row current).map (Database.updateUserCredit userId))
    fun r w h => by
      cases hm : mergeCounts seen row r with
      | error e => simp [hm, Except.map] at h
      | ok b =>
        simp only [hm, Except.map, Except.ok.injEq] at h
        exact h ▸ Database.touches_updateUserCredit userId b

/-- The flush of a row of `user_credits`: an update only if a count has changed. -/
def flushUserCredit (userId : UUID) (pending : PendingUserCredit) : Tx Unit :=
  match pending with
  | .insert row => Tx.exec (.flushUserCredit userId pending) (insertUserCredit userId row)
  | .update seen row =>
    if row = seen then .ret ()
    else Tx.exec (.flushUserCredit userId pending) (updateUserCredit userId seen row)

/-- `session.flush()`, of a transaction and a row of `user_credits`. -/
def flush (t : CreditTransaction) (pending : PendingUserCredit) : Tx Unit := do
  Tx.exec (.flushTransaction t pending) (insertTransaction t)
  flushUserCredit t.userId pending

/-- `_IDEMPOTENT_CREDIT_TRANSACTION_CONSTRAINTS`. -/
def idempotentCreditTransactionConstraints : List Constraint :=
  [.ixCreditTransactionsIdempotencyKeyUnique, .ixCreditTransactionsSourceUnique, .pkUserCredits]

/-- `flush_pending_writes`. -/
def flushPendingWrites (t : CreditTransaction) (pending : PendingUserCredit) : Tx Unit :=
  tryCatch (flush t pending) fun
    | .integrity c =>
      if c ∈ idempotentCreditTransactionConstraints then
        throw (.domain .creditTransactionWriteConflict)
      else throw (.integrity c)
    | e => throw e

/-- `exists_transaction_with_idempotency_key`. -/
def existsTransactionWithIdempotencyKey (key : String) : Tx Bool :=
  Tx.select (.existsTransactionWithKey key) fun v =>
    v.creditTransactions.any (·.idempotencyKey = some key)

/-- `exists_transaction_with_source`. -/
def existsTransactionWithSource (source : CreditSource) (userId : UUID) (action : CreditAction) :
    Tx Bool :=
  Tx.select (.existsTransactionWithSource source userId action) fun v =>
    v.creditTransactions.any fun t => t.source = some source ∧ t.userId = userId ∧ t.action = action

/-- `delete_by_user_id`. -/
def deleteByUserId (userId : UUID) : Tx Unit := do
  -- rows that are committed in the meantime are not seen
  let _ ← Tx.exec (.deleteTransactions userId)
    (.modify (·.creditTransactions.filter (·.userId = userId)) (fun _ => [])
    Database.deleteTransactions Database.touches_deleteTransactions)
  Tx.exec (.deleteUserCredit userId)
    { locks v := if (v.userCredits userId).isSome then [.row (.userCredit userId)] else []
      run v := .ok ((), if (v.userCredits userId).isSome then
        Database.deleteUserCredit userId else id)
      touches v a w h := by
        cases h
        split
        · exact Database.touches_deleteUserCredit userId
        · exact touches_id _ }

end SqlAlchemyCreditRepository

open SqlAlchemyCreditRepository

/-! ## Grant -/

/-- `GrantCreditCommand`. -/
structure GrantCreditCommand where
  userId : UUID
  amount : CreditAmount
  reason : CreditReason
  source : Option CreditSource
  idempotencyKey : Option String
  deriving DecidableEq, Repr

/-- `GrantCreditCommand(...)`, which refuses half a source. -/
def GrantCreditCommand.create (userId : UUID) (amount : CreditAmount) (reason : CreditReason)
    (sourceType : Option CreditSourceType) (sourceId : Option UUID)
    (idempotencyKey : Option String) : Except DomainError GrantCreditCommand :=
  match sourceType, sourceId with
  | none, none => .ok ⟨userId, amount, reason, none, idempotencyKey⟩
  | some t, some i => .ok ⟨userId, amount, reason, some ⟨t, i⟩, idempotencyKey⟩
  | _, _ => .error (.validation [⟨"source", "크레딧 출처 유형과 출처 ID는 함께 전달해야 합니다."⟩])

/-- The values of `uuid4` and of the clock that a change of credits takes. -/
structure CreditIds where
  transactionId : UUID
  stamp : Stamp
  deriving DecidableEq, Repr

/-- `GrantCreditCommandResult`. -/
structure GrantCreditCommandResult where
  totalGrantedCount : ℤ
  remainingCount : ℤ
  deriving DecidableEq, Repr

namespace GrantCreditCommandUseCase

/-- `_has_idempotent_identity`. -/
def hasIdempotentIdentity (command : GrantCreditCommand) : Bool :=
  command.idempotencyKey.isSome || command.source.isSome

/-- `_is_duplicate_grant`. -/
def isDuplicateGrant (command : GrantCreditCommand) : Tx Bool := do
  let keyExists ← match command.idempotencyKey with
    | some key => existsTransactionWithIdempotencyKey key
    | none => pure false
  if keyExists then
    return true
  else match command.source with
    | none => return false
    | some source => existsTransactionWithSource source command.userId .grant

/-- The transaction of a grant. -/
def transaction (command : GrantCreditCommand) (ids : CreditIds) : CreditTransaction :=
  appendTransaction ids.transactionId command.userId command.reason .grant command.amount
    command.source command.idempotencyKey

/-- The result for a grant that was made before. -/
def replay (command : GrantCreditCommand) : Tx GrantCreditCommandResult := do
  let balance ← getBalance command.userId
  return ⟨balance.totalGrantedCount, balance.remainingCount⟩

/-- The grant itself, once it is known to be new. -/
def grant (unitOfWork : UnitOfWork) (command : GrantCreditCommand) (ids : CreditIds) :
    Tx GrantCreditCommandResult := do
  let userCredit ← getUserCreditForUpdate command.userId
  let userCredit ← Tx.lift (userCredit.grant command.amount command.reason command.source
    command.idempotencyKey ids.stamp)
  let pending ← save userCredit
  publish .credit userCredit.domainEvents
  tryCatch (do
    flushPendingWrites (transaction command ids) pending
    unitOfWork.commit
    return ⟨userCredit.balance.totalGrantedCount, userCredit.balance.remainingCount⟩) fun
    | .domain .creditTransactionWriteConflict =>
      if !hasIdempotentIdentity command then
        throw (.domain .creditTransactionWriteConflict)
      else do
        -- taken for a replay of the same grant, whichever of the constraints it was
        unitOfWork.rollback
        replay command
    | e => throw e

/-- `execute`. -/
def execute (unitOfWork : UnitOfWork) (command : GrantCreditCommand) (ids : CreditIds) :
    Tx GrantCreditCommandResult := do
  if ← isDuplicateGrant command then
    replay command
  else
    grant unitOfWork command ids

end GrantCreditCommandUseCase

/-! ## Use -/

/-- `UseCreditCommand`. -/
structure UseCreditCommand where
  userId : UUID
  amount : CreditAmount
  reason : CreditReason
  deriving DecidableEq, Repr

/-- `ReserveCreditCommandUseCase.execute`: nothing is committed. -/
def ReserveCreditCommandUseCase.execute (command : UseCreditCommand) : Tx PendingUserCredit := do
  let userCredit ← getUserCreditForUpdate command.userId
  let userCredit ← Tx.lift (userCredit.use command.amount)
  save userCredit

namespace FinalizeCreditUsageCommandUseCase

/-- The transaction of a usage. -/
def transaction (command : UseCreditCommand) (ids : CreditIds) : CreditTransaction :=
  appendTransaction ids.transactionId command.userId command.reason .use command.amount

/-- `execute`, with what `ReserveCreditCommandUseCase` has left pending. The commit
    flushes. -/
def execute (unitOfWork : UnitOfWork) (command : UseCreditCommand) (pending : PendingUserCredit)
    (ids : CreditIds) : Tx Unit := do
  publish .credit [⟨ids.stamp, .creditUsed command.userId command.amount.value command.reason⟩]
  flush (transaction command ids) pending
  unitOfWork.commit

end FinalizeCreditUsageCommandUseCase

/-- `UseCreditCommandUseCase.execute`. -/
def UseCreditCommandUseCase.execute (unitOfWork : UnitOfWork) (command : UseCreditCommand)
    (ids : CreditIds) : Tx Unit := do
  let pending ← ReserveCreditCommandUseCase.execute command
  FinalizeCreditUsageCommandUseCase.execute unitOfWork command pending ids

/-- `DeleteUserCreditsCommandUseCase.execute`. -/
def DeleteUserCreditsCommandUseCase.execute (unitOfWork : UnitOfWork) (userId : UUID)
    (stamp : Stamp) : Tx Unit := do
  deleteByUserId userId
  publish .credit [⟨stamp, .userCreditsDeleted userId⟩]
  unitOfWork.commit

end Boat
