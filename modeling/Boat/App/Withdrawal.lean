import Boat.App.Database
import Boat.Credits.UseCases

/-!
# Withdrawal

The withdrawal of an account (`auth/application/commands/withdraw/use_case.py`): the modules delete
what they have of the user, in one transaction. Their own commits are deferred.
-/

namespace Boat.App

open ReadCommitted Auth Users Notifications

/-- `WithdrawAccountCommand`. -/
structure WithdrawAccountCommand where
  userId : UUID
  credentialsId : UUID
  deriving DecidableEq, Repr

/-- The identities and times of the events of a withdrawal. -/
structure WithdrawalStamps where
  accountWithdrawn : Stamp
  userWithdrawn : Stamp
  userCreditsDeleted : Stamp
  deriving DecidableEq, Repr

/-- `WithdrawAccountCommandUseCase.execute`. -/
def WithdrawAccountCommandUseCase.execute (command : WithdrawAccountCommand)
    (stamps : WithdrawalStamps) : AppTx Unit := do
  AppTx.auth do
    SqlAlchemyCredentialRepository.deleteAccountAuthState command.userId command.credentialsId
    Auth.flushOutbox
      [⟨stamps.accountWithdrawn, .accountWithdrawn command.credentialsId command.userId⟩]
  AppTx.users (WithdrawalCleanupCommandUseCase.execute (return) command.userId stamps.userWithdrawn)
  AppTx.billing
    (DeleteUserCreditsCommandUseCase.execute (deferredCommitUnitOfWork none) command.userId
    stamps.userCreditsDeleted)
  AppTx.notifications (DeleteUserPushTokensCommandUseCase.execute (return) command.userId)
  AppTx.commit

/-! The modules leave the end of the transaction to the withdrawal. -/

theorem deferred_withdrawalCleanup (userId : UUID) (stamp : Stamp) :
    (WithdrawalCleanupCommandUseCase.execute (return) userId stamp).Deferred := by
  refine .bind (.bind ?_ fun _ => ?_) fun _ => .bind (.exec ..) fun _ => trivial
  · exact .bind (.exec ..) fun _ => trivial
  · exact .bind (.exec ..) fun _ => trivial

theorem deferred_deleteUserCredits (userId : UUID) (stamp : Stamp) :
    (DeleteUserCreditsCommandUseCase.execute (deferredCommitUnitOfWork none) userId stamp).Deferred :=
  .bind (.bind (.exec ..) fun _ => .exec ..) fun _ => .bind (.exec ..) fun _ => trivial

theorem deferred_deleteUserPushTokens (userId : UUID) :
    (DeleteUserPushTokensCommandUseCase.execute (return) userId).Deferred :=
  .bind (.bind (.exec ..) fun _ => .bind (.exec ..) fun _ => trivial) fun _ => trivial

end Boat.App
