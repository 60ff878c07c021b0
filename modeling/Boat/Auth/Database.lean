import Boat.Core.Domain
import Boat.Core.Table
import Boat.ReadCommitted.Commands

/-!
# Auth: tables

The tables of the auth module (`app/modules/auth/infrastructure/persistence/orm.py`), as a store of
sessions, and the statements of its repository.

* A `DELETE` of several rows takes a snapshot of the rows it finds (a statement of its own here),
  then waits for each of them, and deletes those that are still there: rows that are committed in
  the meantime are not seen. It deletes the rows that refer to them too (`ON DELETE CASCADE`).
* Foreign keys are not checked: what they refuse is a failure of the statement, which may fail anyway.
* `sessionHistory` and `tokenHistory` are no tables: they say which sessions and tokens there have
  been, as neither identities nor tokens are issued twice.
-/

namespace Boat.Auth

open ReadCommitted

/-! ## Rows -/

structure UserCredential where
  id : UUID
  userId : UUID
  role : String
  lastLoginAt : Option Instant
  deriving DecidableEq, Repr

/-- `orm.ExternalIdentity`. -/
structure ExternalIdentityRecord where
  id : UUID
  credentialsId : UUID
  issuer : String
  subject : String
  provider : String
  email : Option String
  normalizedEmail : Option String
  emailVerified : Bool
  deriving DecidableEq, Repr

structure AuthSession where
  id : UUID
  credentialsId : UUID
  revokedAt : Option Instant
  deriving DecidableEq, Repr

structure RefreshToken where
  id : UUID
  credentialsId : UUID
  sessionId : Option UUID
  tokenHash : String
  expiresAt : Instant
  deriving DecidableEq, Repr

/-- The events of the module. -/
inductive AuthEvent
  | userCredentialCreated (credentialsId userId : UUID) (role : String)
  | accountWithdrawn (credentialsId userId : UUID)
  deriving DecidableEq, Repr

/-- The tables, and the rows of the outbox with events of the module. -/
structure AuthDatabase where
  userCredentials : Table UserCredential.id
  externalIdentities : Table ExternalIdentityRecord.id
  authSessions : Table AuthSession.id
  refreshTokens : Table RefreshToken.id
  outboxEvents : List (Stamped AuthEvent)
  /-- The sessions that have been created. -/
  sessionHistory : List UUID
  /-- The hashes of the tokens that have been issued, each with the one that it has replaced. -/
  tokenHistory : List (Option String × String)

def AuthDatabase.empty : AuthDatabase := ⟨.empty, .empty, .empty, .empty, [], [], []⟩

/-! ## Locks -/

/-- The identity of a row. -/
inductive AuthRow
  | credential (id : UUID)
  | identity (id : UUID)
  | session (id : UUID)
  | refreshToken (id : UUID)
  deriving DecidableEq, Repr

/-- An entry of a unique index. -/
inductive AuthEntry
  | primaryKey (row : AuthRow)
  | credentialUser (userId : UUID)
  | identity (issuer subject : String)
  | credentialIssuer (credentialsId : UUID) (issuer : String)
  | tokenHash (tokenHash : String)
  deriving DecidableEq, Repr

inductive AuthLock
  | row (row : AuthRow)
  | entry (entry : AuthEntry)
  /-- `pg_advisory_xact_lock`. -/
  | advisory (lockId : ℤ)
  deriving DecidableEq, Repr

/-- The entries of a row in the unique indexes. -/
def UserCredential.entries (r : UserCredential) : List AuthEntry :=
  [.primaryKey (.credential r.id), .credentialUser r.userId]

def ExternalIdentityRecord.entries (r : ExternalIdentityRecord) : List AuthEntry :=
  [.primaryKey (.identity r.id), .identity r.issuer r.subject,
    .credentialIssuer r.credentialsId r.issuer]

def AuthSession.entries (r : AuthSession) : List AuthEntry := [.primaryKey (.session r.id)]

def RefreshToken.entries (r : RefreshToken) : List AuthEntry :=
  [.primaryKey (.refreshToken r.id), .tokenHash r.tokenHash]

/-- Is there a row with this entry? -/
def AuthDatabase.hasEntry (d : AuthDatabase) (e : AuthEntry) : Bool :=
  d.userCredentials.rows.any (e ∈ ·.entries) || d.externalIdentities.rows.any (e ∈ ·.entries) ||
    d.authSessions.rows.any (e ∈ ·.entries) || d.refreshTokens.rows.any (e ∈ ·.entries)

theorem AuthDatabase.hasEntry_eq_false {d : AuthDatabase} {e : AuthEntry} :
    d.hasEntry e = false ↔ (∀ r ∈ d.userCredentials.rows, e ∉ r.entries) ∧
      (∀ r ∈ d.externalIdentities.rows, e ∉ r.entries) ∧ (∀ r ∈ d.authSessions.rows, e ∉ r.entries) ∧
      ∀ r ∈ d.refreshTokens.rows, e ∉ r.entries := by
  simp [hasEntry, and_assoc]

/-- What a lock protects: the row, or that there is none with the entry. An advisory lock protects
    nothing. -/
inductive AuthLock.Protects : AuthLock → (AuthDatabase → Prop) → Prop
  | credential (r : UserCredential) : Protects (.row (.credential r.id)) fun d =>
    r ∈ d.userCredentials.rows
  | identity (r : ExternalIdentityRecord) : Protects (.row (.identity r.id)) fun d =>
    r ∈ d.externalIdentities.rows
  | session (r : AuthSession) : Protects (.row (.session r.id)) fun d => r ∈ d.authSessions.rows
  | refreshToken (r : RefreshToken) : Protects (.row (.refreshToken r.id)) fun d =>
    r ∈ d.refreshTokens.rows
  | entry (e : AuthEntry) : Protects (.entry e) fun d => d.hasEntry e = false

instance : Locking AuthDatabase AuthLock := ⟨AuthLock.Protects⟩

/-- What a write has to leave alone. -/
theorem touches_of {ks : List AuthLock} {w : AuthDatabase → AuthDatabase}
    (hcredential : ∀ r d, .row (.credential r.id) ∉ ks → r ∈ d.userCredentials.rows →
      r ∈ (w d).userCredentials.rows)
    (hidentity : ∀ r d, .row (.identity r.id) ∉ ks → r ∈ d.externalIdentities.rows →
      r ∈ (w d).externalIdentities.rows)
    (hsession : ∀ r d, .row (.session r.id) ∉ ks → r ∈ d.authSessions.rows →
      r ∈ (w d).authSessions.rows)
    (htoken : ∀ r d, .row (.refreshToken r.id) ∉ ks → r ∈ d.refreshTokens.rows →
      r ∈ (w d).refreshTokens.rows)
    (hentry : ∀ e d, .entry e ∉ ks → d.hasEntry e = false → (w d).hasEntry e = false) :
    Touches ks w := by
  rintro k hk d p (r | r | r | r | e) h
  · exact hcredential r d hk h
  · exact hidentity r d hk h
  · exact hsession r d hk h
  · exact htoken r d hk h
  · exact hentry e d hk h

/-! ## Writes -/

namespace AuthDatabase

def insertCredential (r : UserCredential) (d : AuthDatabase) : AuthDatabase :=
  { d with userCredentials := d.userCredentials.insert r }

/-- Set `last_login_at`. -/
def updateCredential (id : UUID) (loggedInAt : Instant) (d : AuthDatabase) : AuthDatabase :=
  { d with userCredentials := d.userCredentials.modify id fun r =>
    { r with lastLoginAt := some loggedInAt } }

def insertIdentity (r : ExternalIdentityRecord) (d : AuthDatabase) : AuthDatabase :=
  { d with externalIdentities := d.externalIdentities.insert r }

def insertSession (r : AuthSession) (d : AuthDatabase) : AuthDatabase :=
  { d with authSessions := d.authSessions.insert r, sessionHistory := r.id :: d.sessionHistory }

/-- Set `revoked_at`. -/
def revokeSession (id : UUID) (revokedAt : Instant) (d : AuthDatabase) : AuthDatabase :=
  { d with authSessions := d.authSessions.modify id fun r => { r with revokedAt := some revokedAt } }

/-- Insert a token, in the place of the one with the hash `replaced`. -/
def insertRefreshToken (replaced : Option String) (r : RefreshToken)
    (d : AuthDatabase) : AuthDatabase :=
  { d with
    refreshTokens := d.refreshTokens.insert r
    tokenHistory := (replaced, r.tokenHash) :: d.tokenHistory }

def deleteRows (rows : List AuthRow) (d : AuthDatabase) : AuthDatabase :=
  { d with
    userCredentials := d.userCredentials.filter (.credential ·.id ∉ rows)
    externalIdentities := d.externalIdentities.filter (.identity ·.id ∉ rows)
    authSessions := d.authSessions.filter (.session ·.id ∉ rows)
    refreshTokens := d.refreshTokens.filter (.refreshToken ·.id ∉ rows) }

def insertOutbox (events : List (Stamped AuthEvent)) (d : AuthDatabase) : AuthDatabase :=
  { d with outboxEvents := d.outboxEvents ++ events }

theorem mem_updateCredential {id : UUID} {loggedInAt : Instant} {d : AuthDatabase}
    {q : UserCredential} :
    q ∈ (updateCredential id loggedInAt d).userCredentials.rows ↔ q ∈ d.userCredentials.rows ∧
    q.id ≠ id ∨
      ∃ r ∈ d.userCredentials.rows, r.id = id ∧ q = { r with lastLoginAt := some loggedInAt } := by
  refine Table.mem_modify fun r => ?_
  rfl

theorem mem_revokeSession {id : UUID} {revokedAt : Instant} {d : AuthDatabase} {q : AuthSession} :
    q ∈ (revokeSession id revokedAt d).authSessions.rows ↔ q ∈ d.authSessions.rows ∧ q.id ≠ id ∨
      ∃ r ∈ d.authSessions.rows, r.id = id ∧ q = { r with revokedAt := some revokedAt } := by
  refine Table.mem_modify fun r => ?_
  rfl

/-! A write touches only the entries of the rows it inserts, and the rows that it updates or
deletes. -/

theorem touches_insertCredential (r : UserCredential) :
    Touches (r.entries.map .entry) (insertCredential r) := by
  refine touches_of (fun q d _ hq => Table.mem_insert.2 (.inl hq)) (fun _ _ _ h => h)
    (fun _ _ _ h => h) (fun _ _ _ h => h) ?_
  intro e d he h
  obtain ⟨hcredentials, h⟩ := hasEntry_eq_false.1 h
  exact hasEntry_eq_false.2 ⟨Table.forall_insert hcredentials fun her =>
    he (List.mem_map_of_mem her), h⟩

theorem touches_insertIdentity (r : ExternalIdentityRecord) :
    Touches (r.entries.map .entry) (insertIdentity r) := by
  refine touches_of (fun _ _ _ h => h) (fun q d _ hq => Table.mem_insert.2 (.inl hq))
    (fun _ _ _ h => h) (fun _ _ _ h => h) ?_
  intro e d he h
  obtain ⟨hcredentials, hidentities, h⟩ := hasEntry_eq_false.1 h
  exact hasEntry_eq_false.2 ⟨hcredentials, Table.forall_insert hidentities fun her =>
    he (List.mem_map_of_mem her), h⟩

theorem touches_insertSession (r : AuthSession) :
    Touches (r.entries.map .entry) (insertSession r) := by
  refine touches_of (fun _ _ _ h => h) (fun _ _ _ h => h)
    (fun q d _ hq => Table.mem_insert.2 (.inl hq)) (fun _ _ _ h => h) ?_
  intro e d he h
  obtain ⟨hcredentials, hidentities, hsessions, h⟩ := hasEntry_eq_false.1 h
  exact hasEntry_eq_false.2
    ⟨hcredentials, hidentities, Table.forall_insert hsessions fun her =>
      he (List.mem_map_of_mem her), h⟩

theorem touches_insertRefreshToken (replaced : Option String) (r : RefreshToken) :
    Touches (r.entries.map .entry) (insertRefreshToken replaced r) := by
  refine touches_of (fun _ _ _ h => h) (fun _ _ _ h => h) (fun _ _ _ h => h)
    (fun q d _ hq => Table.mem_insert.2 (.inl hq)) ?_
  intro e d he h
  obtain ⟨hcredentials, hidentities, hsessions, htokens⟩ := hasEntry_eq_false.1 h
  exact hasEntry_eq_false.2
    ⟨hcredentials, hidentities, hsessions, Table.forall_insert htokens fun her =>
      he (List.mem_map_of_mem her)⟩

theorem touches_updateCredential (id : UUID) (loggedInAt : Instant) :
    Touches [.row (.credential id)] (updateCredential id loggedInAt) := by
  refine touches_of (fun q d hq h => ?_) (fun _ _ _ h => h) (fun _ _ _ h => h) (fun _ _ _ h => h) ?_
  · exact mem_updateCredential.2 (.inl ⟨h, fun hid => hq (by simp [hid])⟩)
  · intro e d _ h
    obtain ⟨hcredentials, h⟩ := hasEntry_eq_false.1 h
    refine hasEntry_eq_false.2 ⟨fun q hq => ?_, h⟩
    rcases mem_updateCredential.1 hq with ⟨hq, -⟩ | ⟨r, hr, -, rfl⟩
    · exact hcredentials q hq
    · exact hcredentials r hr

theorem touches_revokeSession (id : UUID) (revokedAt : Instant) :
    Touches [.row (.session id)] (revokeSession id revokedAt) := by
  refine touches_of (fun _ _ _ h => h) (fun _ _ _ h => h) (fun q d hq h => ?_) (fun _ _ _ h => h) ?_
  · exact mem_revokeSession.2 (.inl ⟨h, fun hid => hq (by simp [hid])⟩)
  · intro e d _ h
    obtain ⟨hcredentials, hidentities, hsessions, h⟩ := hasEntry_eq_false.1 h
    refine hasEntry_eq_false.2 ⟨hcredentials, hidentities, fun q hq => ?_, h⟩
    rcases mem_revokeSession.1 hq with ⟨hq, -⟩ | ⟨r, hr, -, rfl⟩
    · exact hsessions q hq
    · exact hsessions r hr

theorem touches_deleteRows (rows : List AuthRow) : Touches (rows.map .row) (deleteRows rows) := by
  have hnot : ∀ {row : AuthRow}, AuthLock.row row ∉ rows.map .row → row ∉ rows :=
    fun h hrow => h (List.mem_map_of_mem hrow)
  refine touches_of (fun r d hr h => ?_) (fun r d hr h => ?_) (fun r d hr h => ?_)
    (fun r d hr h => ?_) ?_
  · exact Table.mem_filter.2 ⟨h, by simpa using hnot hr⟩
  · exact Table.mem_filter.2 ⟨h, by simpa using hnot hr⟩
  · exact Table.mem_filter.2 ⟨h, by simpa using hnot hr⟩
  · exact Table.mem_filter.2 ⟨h, by simpa using hnot hr⟩
  · intro e d _ h
    obtain ⟨hcredentials, hidentities, hsessions, htokens⟩ := hasEntry_eq_false.1 h
    exact hasEntry_eq_false.2 ⟨Table.forall_filter hcredentials, Table.forall_filter hidentities,
      Table.forall_filter hsessions, Table.forall_filter htokens⟩

theorem touches_insertOutbox (events : List (Stamped AuthEvent)) : Touches [] (insertOutbox events) :=
  touches_of (fun _ _ _ h => h) (fun _ _ _ h => h) (fun _ _ _ h => h)
    (fun _ _ _ h => h) fun _ _ _ h => h

end AuthDatabase

end Boat.Auth
