import Boat.Users.Database

/-!
# Users: use cases

The repository of the users module (`SqlAlchemyUserRepository`), and the commands that other modules
run in their transactions: creating the account of a signup, and deleting that of a withdrawal. Their
unit of work is given by its commit.
-/

namespace Boat.Users

open ReadCommitted

/-! ## Consent -/

/-- `MAX_CONSENT_VERSION_LENGTH`. -/
def maxConsentVersionLength : ℕ := 50

/-- `_normalized_consent_version`. -/
def normalizedConsentVersion (version : Option String) : Option String :=
  (version.map strip).filter (· ≠ "")

/-- The fields of a consent, and what is said of them. -/
structure Consent where
  acceptedField : String
  notAccepted : String
  versionField : String
  versionMissing : String
  versionTooLong : String

def Consent.terms : Consent where
  acceptedField := "termsAccepted"
  notAccepted := "이용약관에 동의해야 가입할 수 있습니다."
  versionField := "termsVersion"
  versionMissing := "동의한 이용약관 버전이 필요합니다."
  versionTooLong := "동의한 이용약관 버전은 50자 이하여야 합니다."

def Consent.privacy : Consent where
  acceptedField := "privacyAccepted"
  notAccepted := "개인정보 처리방침에 동의해야 가입할 수 있습니다."
  versionField := "privacyVersion"
  versionMissing := "동의한 개인정보 처리방침 버전이 필요합니다."
  versionTooLong := "동의한 개인정보 처리방침 버전은 50자 이하여야 합니다."

/-- The details of one consent. -/
def Consent.details (c : Consent) (accepted : Bool) (version : Option String) : List ErrorDetail :=
  (if !accepted then [⟨c.acceptedField, c.notAccepted⟩] else []) ++
    (if accepted ∧ version = none then [⟨c.versionField, c.versionMissing⟩] else []) ++
    (if accepted ∧ version.any (maxConsentVersionLength < ·.length) then
      [⟨c.versionField, c.versionTooLong⟩] else [])

/-- `_require_consent`, of normalized versions. -/
def requireConsent (termsAccepted : Bool) (termsVersion : Option String) (privacyAccepted : Bool)
    (privacyVersion : Option String) : Except DomainError Unit :=
  let details := Consent.terms.details termsAccepted termsVersion ++
    Consent.privacy.details privacyAccepted privacyVersion
  if details = [] then .ok () else .error (.validation details)

/-! ## Programs -/

/-- The statements of the repository. -/
inductive UsersStatement
  | flushUser (r : UserRecord)
  | flushSettings (r : UserSettings)
  | deleteSettings (userId : UUID)
  | deleteUser (userId : UUID)
  | flushOutbox
  deriving DecidableEq, Repr

inductive UsersError
  | domain (e : DomainError)
  /-- `IntegrityError`. -/
  | integrity (row : UsersRow)
  /-- A statement fails. -/
  | fault (s : UsersStatement)
  deriving DecidableEq, Repr

abbrev UsersTx := Prog UsersDatabase UsersStatement UsersError

namespace UsersTx

def exec {α : Type} (s : UsersStatement) (c : Command UsersDatabase UsersError α) : UsersTx α :=
  Prog.exec s (.fault s) c

def insert (s : UsersStatement) (row : UsersRow) (w : UsersDatabase → UsersDatabase)
    (hw : Touches [.entry row] w) :
    UsersTx Unit :=
  exec s (.insert .entry UsersDatabase.hasRow .integrity [row] w hw)

/-- Delete the rows that `f` finds. -/
def deleteWhere (s : UsersStatement) (f : UsersDatabase → List UsersRow) : UsersTx Unit := do
  let _ ← exec s (.modify f (List.map .row) UsersDatabase.deleteRows UsersDatabase.touches_deleteRows)

/-- The result of a domain function. -/
def lift {α : Type} : Except DomainError α → UsersTx α
  | .ok a => .ret a
  | .error e => .raise (.domain e)

end UsersTx

/-- `publish`, of which the next flush makes the inserts. -/
def flushOutbox (events : List (Stamped UsersEvent)) : UsersTx Unit :=
  UsersTx.exec .flushOutbox
    (.insert .entry UsersDatabase.hasRow .integrity [] (UsersDatabase.insertOutbox events)
    (UsersDatabase.touches_insertOutbox events))

namespace SqlAlchemyUserRepository

/-- `create_account_state`. -/
def createAccountState (user : UserRecord) (settings : UserSettings) : UsersTx Unit := do
  UsersTx.insert (.flushUser user) (.user user.id) (UsersDatabase.insertUser user)
    (UsersDatabase.touches_insertUser user)
  UsersTx.insert (.flushSettings settings) (.settings settings.userId)
    (UsersDatabase.insertSettings settings)
    (UsersDatabase.touches_insertSettings settings)

/-- `delete_account_state`. -/
def deleteAccountState (userId : UUID) : UsersTx Unit := do
  UsersTx.deleteWhere (.deleteSettings userId) fun v =>
    (v.userSettings.rows.filter (·.userId = userId)).map (.settings ·.userId)
  UsersTx.deleteWhere (.deleteUser userId) fun v =>
    -- the settings refer to the user (`ON DELETE CASCADE`)
    (v.users.rows.filter (·.id = userId)).flatMap fun r => [.user r.id, .settings r.id]

end SqlAlchemyUserRepository

/-! ## Commands -/

/-- `Email.MAX_LENGTH`. -/
def Email.maxLength : ℕ := 255

/-- `Email.validate`. -/
def Email.validate (value : String) : Except DomainError Unit :=
  if value = "" ∨ strip value ≠ value ∨ '@' ∉ value.toList ∨ Email.maxLength < value.length then
    .error (.validation [⟨"email", "이메일이 올바르지 않습니다."⟩])
  else .ok ()

/-- `User.create`, with the event that it records. -/
def UserRecord.create (id : UUID) (name email profileImageUrl : Option String) (stamp : Stamp) :
    Except DomainError (UserRecord × List (Stamped UsersEvent)) := do
  email.forM Email.validate
  return (⟨id, name, none, email, profileImageUrl⟩, [⟨stamp, .userRegistered id email name⟩])

/-- `ResolveUserForLoginCommand`. -/
structure ResolveUserForLoginCommand where
  name : Option String
  email : Option String
  profileImageUrl : Option String
  termsVersion : Option String
  privacyVersion : Option String
  termsAccepted : Bool
  privacyAccepted : Bool
  deriving DecidableEq, Repr

/-- What a new account takes from `uuid4` and the clock. -/
structure AccountIds where
  userId : UUID
  stamp : Stamp
  acceptedAt : Instant
  deriving DecidableEq, Repr

/-- `ResolveUserForLoginCommandUseCase.execute`, with the user of its result. -/
def ResolveUserForLoginCommandUseCase.execute (commit : UsersTx Unit)
    (command : ResolveUserForLoginCommand) (ids : AccountIds) : UsersTx UUID := do
  let termsVersion := normalizedConsentVersion command.termsVersion
  let privacyVersion := normalizedConsentVersion command.privacyVersion
  UsersTx.lift
    (requireConsent command.termsAccepted termsVersion command.privacyAccepted privacyVersion)
  let (user, events) ← UsersTx.lift
    (UserRecord.create ids.userId command.name command.email command.profileImageUrl ids.stamp)
  SqlAlchemyUserRepository.createAccountState user ⟨user.id, termsVersion, privacyVersion,
    if command.termsAccepted then some ids.acceptedAt else none,
    if command.privacyAccepted then some ids.acceptedAt else none⟩
  flushOutbox events
  commit
  return user.id

/-- `WithdrawalCleanupCommandUseCase.execute`. -/
def WithdrawalCleanupCommandUseCase.execute (commit : UsersTx Unit) (userId : UUID)
    (stamp : Stamp) : UsersTx Unit := do
  SqlAlchemyUserRepository.deleteAccountState userId
  flushOutbox [⟨stamp, .userWithdrawn userId⟩]
  commit

end Boat.Users
