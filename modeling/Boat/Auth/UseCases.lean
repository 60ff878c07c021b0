import Boat.Auth.Database

/-!
# Auth: use cases

The repository of the auth module (`SqlAlchemyCredentialRepository`), and the commands and queries
that use it alone: login, refresh, logout, and who makes a request.

The unit of work of the ORM is made explicit: what is added to the session is inserted by the next
flush, which queries and commits make too, and a record that has been changed is updated by it.
`session.get` always reads the row again, as the identity map holds unchanged rows only weakly.
-/

namespace Boat.Auth

open ReadCommitted

/-! ## Identities and tokens -/

/-- `ExternalIdentity`, as the identity provider verifies it. -/
structure ExternalIdentity where
  id : UUID
  issuer : String
  subject : String
  provider : String
  email : Option String
  emailVerified : Bool
  name : Option String
  deriving DecidableEq, Repr

/-- `AuthenticatedPrincipal`: the claims of an access token. -/
structure AuthenticatedPrincipal where
  userId : UUID
  credentialsId : UUID
  sessionId : UUID
  role : String
  deriving DecidableEq, Repr

/-- `IssuedRefreshToken`, with the identity of its row. -/
structure IssuedRefreshToken where
  id : UUID
  token : String
  expiresAt : Instant
  deriving DecidableEq, Repr

/-- `LoginResult`, `SignupResult` and `RefreshTokenResult`: the access token by its claims. -/
structure TokenResult where
  accessToken : AuthenticatedPrincipal
  refreshToken : String
  deriving DecidableEq, Repr

/-- The digests of the module: of refresh tokens, and of the keys of advisory locks. -/
class Digests where
  hash : String → String
  lockIdFromKey : String → ℤ

export Digests (hash lockIdFromKey)

/-- The verifier of access tokens: none if it raises. -/
class AccessTokenVerifier where
  verify : String → Option AuthenticatedPrincipal

/-- `_canonical_email`. -/
def canonicalEmail [CaseFolding] (identity : ExternalIdentity) : Option String :=
  identity.email.map lower

/-- `mapper.external_identity_to_record`. -/
def externalIdentityToRecord [CaseFolding] (identity : ExternalIdentity)
    (credentialsId : UUID) : ExternalIdentityRecord :=
  ⟨identity.id, credentialsId, identity.issuer, identity.subject, identity.provider, identity.email,
    canonicalEmail identity, identity.emailVerified⟩

/-! ## Programs -/

/-- The statements of the repository. -/
inductive AuthStatement
  | advisoryLock (lockId : ℤ)
  | findByExternalIdentity (issuer subject : String)
  | findByVerifiedEmail (canonicalEmail : String)
  | getCredential (credentialsId : UUID)
  | getSession (sessionId : UUID)
  | findRefreshToken (tokenHash : String)
  | findOwnedCredential (credentialsId userId : UUID)
  | findActiveSession (sessionId : UUID)
  | deleteRefreshToken (tokenHash : String)
  /-- The snapshot of a `DELETE`. -/
  | findRows
  | deleteRows (rows : List AuthRow)
  | flushCredential (r : UserCredential)
  | flushLogin (credentialsId : UUID)
  | flushIdentity (r : ExternalIdentityRecord)
  | flushSession (r : AuthSession)
  | flushRevocation (sessionId : UUID)
  | flushRefreshToken (r : RefreshToken)
  | flushOutbox
  | commit
  | rollback
  deriving DecidableEq, Repr

inductive AuthError
  | domain (e : DomainError)
  /-- `IntegrityError`. -/
  | integrity (e : AuthEntry)
  /-- `StaleDataError`: an update has met no row. -/
  | staleData
  /-- A statement, a commit or a rollback fails. -/
  | fault (s : AuthStatement)
  deriving DecidableEq, Repr

abbrev AuthTx := Prog AuthDatabase AuthStatement AuthError

namespace AuthTx

def exec {α : Type} (s : AuthStatement) (c : Command AuthDatabase AuthError α) : AuthTx α :=
  Prog.exec s (.fault s) c

def select {α : Type} (s : AuthStatement) (f : AuthDatabase → α) : AuthTx α :=
  exec s (.query (fun _ => []) f)

def insert (s : AuthStatement) (entries : List AuthEntry) (w : AuthDatabase → AuthDatabase)
    (hw : Touches (entries.map .entry) w) : AuthTx Unit :=
  exec s (.insert .entry AuthDatabase.hasEntry .integrity entries w hw)

def commit : AuthTx Unit := Prog.commitOr (.fault .commit)

def rollback : AuthTx Unit := Prog.rollbackOr (.fault .rollback)

def raise {α : Type} (e : DomainError) : AuthTx α := throw (.domain e)

end AuthTx

/-! ## Repository -/

namespace SqlAlchemyExternalIdentityLoginSynchronizer

variable [Digests]

/-- `_identity_lock_id`. -/
def identityLockId (issuer subject : String) : ℤ := lockIdFromKey (issuer ++ "\u001f" ++ subject)

/-- `_email_lock_id`. -/
def emailLockId (canonicalEmail : String) : ℤ := lockIdFromKey ("email" ++ "\u001f" ++ canonicalEmail)

/-- `SELECT pg_advisory_xact_lock(:lock_id)`. -/
def advisoryLock (lockId : ℤ) : AuthTx Unit :=
  AuthTx.exec (.advisoryLock lockId) (.query (fun _ => [.advisory lockId]) fun _ => ())

/-- `synchronize`. -/
def synchronize [CaseFolding] (identity : ExternalIdentity) : AuthTx Unit := do
  advisoryLock (identityLockId identity.issuer identity.subject)
  match canonicalEmail identity with
  | some email => advisoryLock (emailLockId email)
  | none => return

end SqlAlchemyExternalIdentityLoginSynchronizer

/-- The rows of these that are still there, and those that refer to them. -/
def AuthDatabase.cascade (d : AuthDatabase) (rows : List AuthRow) : List AuthRow :=
  let credentials := d.userCredentials.rows.filter (.credential ·.id ∈ rows)
  let ofCredentials (credentialsId : UUID) : Bool := credentials.any (·.id = credentialsId)
  let identities := d.externalIdentities.rows.filter fun r =>
    .identity r.id ∈ rows ∨ ofCredentials r.credentialsId
  let sessions := d.authSessions.rows.filter fun r =>
    .session r.id ∈ rows ∨ ofCredentials r.credentialsId
  let refreshTokens := d.refreshTokens.rows.filter fun r =>
    .refreshToken r.id ∈ rows ∨ ofCredentials r.credentialsId ∨ sessions.any (r.sessionId = some ·.id)
  credentials.map (.credential ·.id) ++ identities.map (.identity ·.id) ++
    sessions.map (.session ·.id) ++
    refreshTokens.map (.refreshToken ·.id)

namespace SqlAlchemyCredentialRepository

/-- The credentials of the first row that is found. -/
def credentialsOf (d : AuthDatabase) (p : ExternalIdentityRecord → Bool) : Option UserCredential :=
  (d.externalIdentities.rows.filter p).findSome? fun r => d.userCredentials.find r.credentialsId

/-- `find_by_external_identity`. -/
def findByExternalIdentity (issuer subject : String) : AuthTx (Option UserCredential) :=
  AuthTx.select (.findByExternalIdentity issuer subject) fun v =>
    credentialsOf v fun r => r.issuer = issuer ∧ r.subject = subject

/-- `find_by_verified_email`. -/
def findByVerifiedEmail (canonicalEmail : String) : AuthTx (Option UserCredential) :=
  AuthTx.select (.findByVerifiedEmail canonicalEmail) fun v =>
    credentialsOf v fun r => r.normalizedEmail = some canonicalEmail ∧ r.emailVerified

/-- `session.get` of credentials. -/
def getCredential (credentialsId : UUID) : AuthTx (Option UserCredential) :=
  AuthTx.select (.getCredential credentialsId) (·.userCredentials.find credentialsId)

/-- `session.get` of a session. -/
def getSession (sessionId : UUID) : AuthTx (Option AuthSession) :=
  AuthTx.select (.getSession sessionId) (·.authSessions.find sessionId)

def flushCredential (r : UserCredential) : AuthTx Unit :=
  AuthTx.insert (.flushCredential r) r.entries (AuthDatabase.insertCredential r)
    (AuthDatabase.touches_insertCredential r)

def flushIdentity (r : ExternalIdentityRecord) : AuthTx Unit :=
  AuthTx.insert (.flushIdentity r) r.entries (AuthDatabase.insertIdentity r)
    (AuthDatabase.touches_insertIdentity r)

def flushSession (r : AuthSession) : AuthTx Unit :=
  AuthTx.insert (.flushSession r) r.entries (AuthDatabase.insertSession r)
    (AuthDatabase.touches_insertSession r)

def flushRefreshToken (replaced : Option String) (r : RefreshToken) : AuthTx Unit :=
  AuthTx.insert (.flushRefreshToken r) r.entries (AuthDatabase.insertRefreshToken replaced r)
    (AuthDatabase.touches_insertRefreshToken replaced r)

/-- The update of `last_login_at`, if it has changed. -/
def flushLogin (seen : UserCredential) (loggedInAt : Instant) : AuthTx Unit :=
  if seen.lastLoginAt = some loggedInAt then return
  else
    AuthTx.exec (.flushLogin seen.id)
      (.update (·.userCredentials.find seen.id) (fun r => .row (.credential r.id)) .staleData
      (fun r => AuthDatabase.updateCredential r.id loggedInAt) fun r =>
        AuthDatabase.touches_updateCredential r.id loggedInAt)

/-- The update of `revoked_at`. -/
def flushRevocation (sessionId : UUID) (revokedAt : Instant) : AuthTx Unit :=
  AuthTx.exec (.flushRevocation sessionId)
    (.update (·.authSessions.find sessionId) (fun r => .row (.session r.id)) .staleData
    (fun r => AuthDatabase.revokeSession r.id revokedAt) fun r =>
      AuthDatabase.touches_revokeSession r.id revokedAt)

/-- `record_login`, of which the next flush makes the update. -/
def recordLogin (credentialsId : UUID) : AuthTx UserCredential := do
  match ← getCredential credentialsId with
  | some credentials => return credentials
  | none => AuthTx.raise .authentication

/-- A `DELETE` of the rows that `f` finds. -/
def deleteWhere (f : AuthDatabase → List AuthRow) : AuthTx Unit := do
  let rows ← AuthTx.select .findRows f
  let _ ← AuthTx.exec (.deleteRows rows)
    (.modify (·.cascade rows) (List.map .row) AuthDatabase.deleteRows
    AuthDatabase.touches_deleteRows)

/-- The `DELETE` of `rotate_refresh_token`, with the row that it returns. -/
def deleteRefreshToken (tokenHash : String) : AuthTx (Option RefreshToken) := do
  let rows ← AuthTx.exec (.deleteRefreshToken tokenHash) (.modify
    (fun v => v.refreshTokens.rows.filter (·.tokenHash = tokenHash))
    (fun rows => (rows.map (.refreshToken ·.id)).map .row)
      (fun rows => AuthDatabase.deleteRows (rows.map (.refreshToken ·.id)))
    fun rows => AuthDatabase.touches_deleteRows (rows.map (.refreshToken ·.id)))
  return rows.head?

/-- `rotate_refresh_token`: the credentials and the session of the token, if they are active. -/
def rotateRefreshToken (tokenHash : String) (now : Instant) :
    AuthTx (UserCredential × AuthSession) := do
  match ← deleteRefreshToken tokenHash with
  | none => AuthTx.raise .authentication
  | some row =>
    match row.sessionId with
    | none => AuthTx.raise .authentication
    | some sessionId =>
      if row.expiresAt ≤ now then AuthTx.raise .authentication
      else
        match ← getSession sessionId with
        | none => AuthTx.raise .authentication
        | some authSession =>
          if authSession.revokedAt ≠ none then AuthTx.raise .authentication
          else
            match ← getCredential row.credentialsId with
            | none => AuthTx.raise .authentication
            | some credentials =>
              if credentials.id ≠ authSession.credentialsId then AuthTx.raise .authentication
              else return (credentials, authSession)

/-- `revoke_session_by_refresh_token`. -/
def revokeSessionByRefreshToken (tokenHash : String) (now revokedAt : Instant) : AuthTx Unit := do
  let refreshToken ← AuthTx.select (.findRefreshToken tokenHash) fun v =>
    v.refreshTokens.rows.find? fun r => r.tokenHash = tokenHash ∧ now < r.expiresAt
  match refreshToken with
  | none => return
  | some refreshToken =>
    match refreshToken.sessionId with
    | none => deleteWhere fun _ => [.refreshToken refreshToken.id]
    | some sessionId =>
      match ← getSession sessionId with
      | some authSession => flushRevocation authSession.id revokedAt
      | none => pure ()
      deleteWhere fun v =>
        (v.refreshTokens.rows.filter (·.sessionId = some sessionId)).map (.refreshToken ·.id)

/-- What `exists_active_session` finds. -/
def hasActiveSession (userId credentialsId sessionId : UUID) (d : AuthDatabase) : Bool :=
  d.authSessions.rows.any fun s => s.id = sessionId ∧ s.revokedAt = none ∧
    s.credentialsId = credentialsId ∧
    d.userCredentials.rows.any fun c => c.id = credentialsId ∧ c.userId = userId

/-- `exists_active_session`. -/
def existsActiveSession (userId credentialsId sessionId : UUID) : AuthTx Bool :=
  AuthTx.select (.findActiveSession sessionId) (hasActiveSession userId credentialsId sessionId)

/-- `delete_account_auth_state`. -/
def deleteAccountAuthState (userId credentialsId : UUID) : AuthTx Unit := do
  let owned ← AuthTx.select (.findOwnedCredential credentialsId userId) fun v =>
    v.userCredentials.rows.find? fun c => c.id = credentialsId ∧ c.userId = userId
  match owned with
  | none => return
  | some credentials => do
    deleteWhere fun v =>
      (v.refreshTokens.rows.filter (·.credentialsId = credentials.id)).map (.refreshToken ·.id)
    deleteWhere fun v =>
      (v.authSessions.rows.filter (·.credentialsId = credentials.id)).map (.session ·.id)
    deleteWhere fun v =>
      (v.externalIdentities.rows.filter (·.credentialsId = credentials.id)).map (.identity ·.id)
    deleteWhere fun v =>
      (v.userCredentials.rows.filter (·.id = credentials.id)).map (.credential ·.id)

end SqlAlchemyCredentialRepository

/-- `publish`, of which the next flush makes the inserts. -/
def flushOutbox (events : List (Stamped AuthEvent)) : AuthTx Unit :=
  AuthTx.insert .flushOutbox [] (AuthDatabase.insertOutbox events)
    (AuthDatabase.touches_insertOutbox events)

/-! ## Commands and queries -/

open SqlAlchemyCredentialRepository SqlAlchemyExternalIdentityLoginSynchronizer

variable [CaseFolding] [Digests]

/-- What a login takes from `uuid4`, the issuer of tokens and the clock. -/
structure LoginIds where
  sessionId : UUID
  refreshToken : IssuedRefreshToken
  loggedInAt : Instant
  deriving DecidableEq, Repr

/-- The row of a token that is issued for a session. -/
def IssuedRefreshToken.row (issued : IssuedRefreshToken)
    (credentialsId sessionId : UUID) : RefreshToken :=
  ⟨issued.id, credentialsId, some sessionId, hash issued.token, issued.expiresAt⟩

/-- The credentials with which an identity logs in, which it is linked to by its verified email, if
    it is new. -/
def loginCredentials (identity : ExternalIdentity) : AuthTx UserCredential := do
  match ← findByExternalIdentity identity.issuer identity.subject with
  | some credentials => recordLogin credentials.id
  | none =>
    match canonicalEmail identity, identity.emailVerified with
    | some email, true =>
      match ← findByVerifiedEmail email with
      | some credentials => do
        flushIdentity (externalIdentityToRecord identity credentials.id)
        recordLogin credentials.id
      | none => AuthTx.raise .userNotRegistered
    | _, _ => AuthTx.raise .authentication

/-- `LoginCommandUseCase.execute`, of an identity that has been verified. -/
def LoginCommandUseCase.execute (identity : ExternalIdentity)
    (ids : LoginIds) : AuthTx TokenResult := do
  synchronize identity
  let credentials ← loginCredentials identity
  flushLogin credentials ids.loggedInAt
  flushSession ⟨ids.sessionId, credentials.id, none⟩
  flushRefreshToken none (ids.refreshToken.row credentials.id ids.sessionId)
  AuthTx.commit
  return ⟨⟨credentials.userId, credentials.id, ids.sessionId, credentials.role⟩,
    ids.refreshToken.token⟩

omit [CaseFolding] in
/-- `RefreshTokenCommandUseCase.execute`. -/
def RefreshTokenCommandUseCase.execute (refreshToken : String) (issued : IssuedRefreshToken)
    (now : Instant) :
    AuthTx TokenResult := do
  let (credentials, authSession) ← rotateRefreshToken (hash refreshToken) now
  flushRefreshToken (some (hash refreshToken)) (issued.row credentials.id authSession.id)
  AuthTx.commit
  return ⟨⟨credentials.userId, credentials.id, authSession.id, credentials.role⟩, issued.token⟩

omit [CaseFolding] in
/-- `LogoutCommandUseCase.execute`. -/
def LogoutCommandUseCase.execute (refreshToken : String) (now revokedAt : Instant) : AuthTx Unit := do
  revokeSessionByRefreshToken (hash refreshToken) now revokedAt
  AuthTx.commit

omit [CaseFolding] [Digests] in
/-- `CurrentPrincipalQueryUseCase.execute`. -/
def CurrentPrincipalQueryUseCase.execute [AccessTokenVerifier]
    (token : String) : AuthTx AuthenticatedPrincipal := do
  match AccessTokenVerifier.verify token with
  | none => AuthTx.raise .authentication
  | some principal =>
    if ← existsActiveSession principal.userId principal.credentialsId principal.sessionId then
      return principal
    else AuthTx.raise .authentication

end Boat.Auth
