import Boat.Core.Domain
import Boat.Core.Table
import Boat.ReadCommitted.Commands

/-!
# Users: tables

The tables of the users module (`app/modules/users/infrastructure/persistence/orm.py`), as a store
of sessions. Their rows are found by their primary keys only, which are their locks.
-/

namespace Boat.Users

open ReadCommitted

/-! ## Rows -/

/-- `orm.User`. -/
structure UserRecord where
  id : UUID
  name : Option String
  nickname : Option String
  email : Option String
  profileImageUrl : Option String
  deriving DecidableEq, Repr

structure UserSettings where
  userId : UUID
  termsVersion : Option String
  privacyVersion : Option String
  termsAcceptedAt : Option Instant
  privacyAcceptedAt : Option Instant
  deriving DecidableEq, Repr

/-- The events of accounts. -/
inductive UsersEvent
  | userRegistered (userId : UUID) (email name : Option String)
  | userWithdrawn (userId : UUID)
  deriving DecidableEq, Repr

/-- The tables, and the rows of the outbox with events of the module. -/
structure UsersDatabase where
  users : Table UserRecord.id
  userSettings : Table UserSettings.userId
  outboxEvents : List (Stamped UsersEvent)

def UsersDatabase.empty : UsersDatabase := ⟨.empty, .empty, []⟩

/-! ## Locks -/

/-- The identity of a row. -/
inductive UsersRow
  | user (id : UUID)
  | settings (userId : UUID)
  deriving DecidableEq, Repr

inductive UsersLock
  | row (row : UsersRow)
  /-- An entry of a primary key. -/
  | entry (row : UsersRow)
  deriving DecidableEq, Repr

/-- Is there this row? -/
def UsersDatabase.hasRow (d : UsersDatabase) : UsersRow → Bool
  | .user id => (d.users.find id).isSome
  | .settings userId => (d.userSettings.find userId).isSome

/-- What a lock protects: the row, or that there is none. -/
inductive UsersLock.Protects : UsersLock → (UsersDatabase → Prop) → Prop
  | user (r : UserRecord) : Protects (.row (.user r.id)) fun d => r ∈ d.users.rows
  | settings (r : UserSettings) : Protects (.row (.settings r.userId)) fun d =>
    r ∈ d.userSettings.rows
  | entry (row : UsersRow) : Protects (.entry row) fun d => d.hasRow row = false

instance : Locking UsersDatabase UsersLock := ⟨UsersLock.Protects⟩

/-! ## Writes -/

namespace UsersDatabase

def insertUser (r : UserRecord) (d : UsersDatabase) : UsersDatabase :=
  { d with users := d.users.insert r }

def insertSettings (r : UserSettings) (d : UsersDatabase) : UsersDatabase :=
  { d with userSettings := d.userSettings.insert r }

/-- Delete rows. -/
def deleteRows (rows : List UsersRow) (d : UsersDatabase) : UsersDatabase :=
  { d with
    users := d.users.filter (.user ·.id ∉ rows)
    userSettings := d.userSettings.filter (.settings ·.userId ∉ rows) }

def insertOutbox (events : List (Stamped UsersEvent)) (d : UsersDatabase) : UsersDatabase :=
  { d with outboxEvents := d.outboxEvents ++ events }

theorem hasRow_user {d : UsersDatabase} {id : UUID} : d.hasRow (.user id) = false ↔
    ∀ r ∈ d.users.rows, r.id ≠ id := by
  simp [hasRow, Table.find_eq_none]

theorem hasRow_settings {d : UsersDatabase} {userId : UUID} :
    d.hasRow (.settings userId) = false ↔ ∀ r ∈ d.userSettings.rows, r.userId ≠ userId := by
  simp [hasRow, Table.find_eq_none]

/-! A write touches only the entries of the rows it inserts, and the rows that it deletes. -/

theorem touches_insertUser (r : UserRecord) : Touches [.entry (.user r.id)] (insertUser r) := by
  rintro k hk d p (q | q | row) h
  · exact Table.mem_insert.2 (.inl h)
  · exact h
  · rcases row with id | userId
    · rw [hasRow_user] at h ⊢
      exact Table.forall_insert h fun hid => hk (by simp [hid])
    · exact h

theorem touches_insertSettings (r : UserSettings) :
    Touches [.entry (.settings r.userId)] (insertSettings r) := by
  rintro k hk d p (q | q | row) h
  · exact h
  · exact Table.mem_insert.2 (.inl h)
  · rcases row with id | userId
    · exact h
    · rw [hasRow_settings] at h ⊢
      exact Table.forall_insert h fun hid => hk (by simp [hid])

theorem touches_deleteRows (rows : List UsersRow) : Touches (rows.map .row) (deleteRows rows) := by
  have hnot : ∀ {row : UsersRow}, UsersLock.row row ∉ rows.map .row → row ∉ rows :=
    fun h hrow => h (List.mem_map_of_mem hrow)
  rintro k hk d p (q | q | row) h
  · exact Table.mem_filter.2 ⟨h, by simpa using hnot hk⟩
  · exact Table.mem_filter.2 ⟨h, by simpa using hnot hk⟩
  · rcases row with id | userId
    · rw [hasRow_user] at h ⊢
      exact Table.forall_filter h
    · rw [hasRow_settings] at h ⊢
      exact Table.forall_filter h

theorem touches_insertOutbox (events : List (Stamped UsersEvent)) :
    Touches [] (insertOutbox events) := by
  rintro k - d p (q | q | row) h
  · exact h
  · exact h
  · rcases row with id | userId
    · exact h
    · exact h

end UsersDatabase

end Boat.Users
