import Boat.App.Database
import Boat.Auth.UseCases
import Boat.Promotions.UseCases

/-!
# Signup

The signup of a new account (`auth/application/commands/signup/use_case.py`): the modules create
what they have of the user, in one transaction. Their own commits are deferred, and the session is
rolled back on any exception. The grant of a signup promotion may also roll it back on its own.
-/

namespace Boat.App

open ReadCommitted Auth Users Notifications

/-! ## Values -/

/-- `SignupCommand`, without the token of the provider, which has been verified. -/
structure SignupCommand where
  termsAccepted : Bool
  privacyAccepted : Bool
  termsVersion : Option String
  privacyVersion : Option String
  marketingConsent : Bool
  deriving DecidableEq, Repr

/-- What a signup takes from `uuid4`, the issuer of tokens, the clocks and the settings. -/
structure SignupIds where
  account : AccountIds
  defaultProfileImageUrl : Option String
  redeemedAt : Instant
  redemption : RedemptionIds
  credentialsId : UUID
  stamp : Stamp
  login : LoginIds
  deriving DecidableEq, Repr

/-- The characters of `hexdigest`. -/
def isHexDigit (c : Char) : Bool := c.isDigit || 'a' ≤ c && c ≤ 'f'

/-- HMAC-SHA256 under the secret of `PromotionBeneficiaryHmacSecret`, in hexadecimal digits. -/
class BeneficiaryDigest where
  hexdigest : String → String
  length_hexdigest : ∀ s, (hexdigest s).length = 64
  hex : ∀ s, ∀ c ∈ (hexdigest s).toList, isHexDigit c

/-- `HmacPromotionBeneficiaryKeyFactory.create`. -/
def beneficiaryKey [BeneficiaryDigest] (issuer subject : String) : String :=
  "v1:" ++ BeneficiaryDigest.hexdigest (issuer ++ ("\x00" ++ subject))

/-! ## Execution -/

namespace SignupCommandUseCase

/-- The checks of the consents, of normalized versions: those of `_require_consent` again. -/
def requireConsent (command : SignupCommand) : Except DomainError Unit :=
  Users.requireConsent command.termsAccepted
    (normalizedConsentVersion command.termsVersion) command.privacyAccepted
    (normalizedConsentVersion command.privacyVersion)

variable [CaseFolding]

/-- `_ensure_new_user`. -/
def ensureNewUser (identity : ExternalIdentity) : AuthTx Unit := do
  match ← SqlAlchemyCredentialRepository.findByExternalIdentity identity.issuer identity.subject with
  | some _ => AuthTx.raise .userAlreadyExists
  | none =>
    match canonicalEmail identity, identity.emailVerified with
    | some email, true =>
      match ← SqlAlchemyCredentialRepository.findByVerifiedEmail email with
      | some _ => AuthTx.raise .userAlreadyExists
      | none => return
    | _, _ => return

variable [Digests]

/-- The credentials of the account. -/
def credentials (ids : SignupIds) (userId : UUID) : UserCredential :=
  ⟨ids.credentialsId, userId, "user", some ids.login.loggedInAt⟩

/-- `create_for_external_identity`, `create_session` and `save_refresh_token`, as they are flushed. -/
def createCredentials (identity : ExternalIdentity) (ids : SignupIds)
    (userId : UUID) : AuthTx Unit := do
  SqlAlchemyCredentialRepository.flushCredential (credentials ids userId)
  SqlAlchemyCredentialRepository.flushIdentity (externalIdentityToRecord identity ids.credentialsId)
  Auth.flushOutbox [⟨ids.stamp, .userCredentialCreated ids.credentialsId userId "user"⟩]
  SqlAlchemyCredentialRepository.flushSession ⟨ids.login.sessionId, ids.credentialsId, none⟩
  SqlAlchemyCredentialRepository.flushRefreshToken none
    (ids.login.refreshToken.row ids.credentialsId ids.login.sessionId)

variable [BeneficiaryDigest]

/-- `SignupPromotionRedeemerAdapter.redeem`. -/
def redeem (identity : ExternalIdentity) (ids : SignupIds) (userId : UUID) : Tx Bool := do
  let command ← Tx.lift
    (RedeemSignupPromotionCommand.create userId (beneficiaryKey identity.issuer identity.subject))
  RedeemSignupPromotionCommandUseCase.execute
    (deferredCommitUnitOfWork none) command ids.redeemedAt ids.redemption

/-- The body of `execute`, of an identity that has been verified. -/
def register (identity : ExternalIdentity) (command : SignupCommand)
    (ids : SignupIds) : AppTx TokenResult := do
  AppTx.auth do
    ensureNewUser identity
    SqlAlchemyExternalIdentityLoginSynchronizer.synchronize identity
  let userId ← AppTx.users (ResolveUserForLoginCommandUseCase.execute (return)
    { name := identity.name
      email := identity.email
      profileImageUrl := ids.defaultProfileImageUrl
      termsVersion := normalizedConsentVersion command.termsVersion
      privacyVersion := normalizedConsentVersion command.privacyVersion
      termsAccepted := command.termsAccepted
      privacyAccepted := command.privacyAccepted } ids.account)
  let _ ← AppTx.notifications (UpdateNotificationSettingsCommandUseCase.execute (return)
    { userId, pushEnabled := none, marketingConsent := some command.marketingConsent })
  let _ ← AppTx.billing (redeem identity ids userId)
  AppTx.auth (createCredentials identity ids userId)
  AppTx.commit
  return ⟨⟨userId, ids.credentialsId, ids.login.sessionId, "user"⟩, ids.login.refreshToken.token⟩

/-- `execute`, of an identity that has been verified. -/
def execute (identity : ExternalIdentity) (command : SignupCommand)
    (ids : SignupIds) : AppTx TokenResult :=
  match requireConsent command with
  | .error e => throw (.domain e)
  | .ok _ =>
    tryCatch (register identity command ids) fun e => do
      -- exceptions of the rollback are suppressed
      tryCatch (Prog.rollbackOr .fault) fun _ => return
      throw e

end SignupCommandUseCase

end Boat.App
