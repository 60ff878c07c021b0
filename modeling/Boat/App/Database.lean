import Boat.Auth.UseCases
import Boat.Database
import Boat.Notifications.UseCases
import Boat.ReadCommitted.Part
import Boat.Users.UseCases

/-!
# The store of the application

All modules write through one session, to the tables of one database: `AppDatabase` puts the stores of
the modules together (`authPart`, `usersPart`, `notificationsPart`, `billingPart`), and a program of
a module becomes one of the application (`AppTx.auth`, ...). The locks of a module protect its part.
-/

namespace Boat.App

open ReadCommitted Auth Users Notifications

/-- The tables of all modules. -/
structure AppDatabase where
  auth : AuthDatabase
  users : UsersDatabase
  notifications : NotificationsDatabase
  billing : Database

def AppDatabase.empty : AppDatabase := ⟨.empty, .empty, .empty, .empty⟩

inductive AppLock
  | auth (k : AuthLock)
  | users (k : UsersLock)
  | notifications (k : NotificationsLock)
  | billing (k : LockKey)
  deriving DecidableEq, Repr

/-- A lock protects what it protects in its part. -/
inductive AppLock.Protects : AppLock → (AppDatabase → Prop) → Prop
  | auth {k p} : ReadCommitted.Protects k p → Protects (.auth k) fun d => p d.auth
  | users {k p} : ReadCommitted.Protects k p → Protects (.users k) fun d => p d.users
  | notifications {k p} : ReadCommitted.Protects k p → Protects (.notifications k) fun d =>
    p d.notifications
  | billing {k p} : ReadCommitted.Protects k p → Protects (.billing k) fun d => p d.billing

instance : Locking AppDatabase AppLock := ⟨AppLock.Protects⟩

/-! ## Parts -/

def authPart : Part AppDatabase AuthDatabase where
  get := AppDatabase.auth
  put d auth := { d with auth }
  get_put _ _ := rfl
  put_get _ := rfl
  put_put _ _ _ := rfl
  lock := .auth
  unlock
    | .auth k => some k
    | _ => none
  unlock_eq_some {m k} := by rcases m with m | m | m | m <;> simp [eq_comm]
  protects := .auth
  protected_cases {m q} h := by
    rcases h with h | h | h | h
    · exact .inl ⟨_, _, rfl, h, rfl⟩
    · exact .inr fun _ _ h => h
    · exact .inr fun _ _ h => h
    · exact .inr fun _ _ h => h

def usersPart : Part AppDatabase UsersDatabase where
  get := AppDatabase.users
  put d users := { d with users }
  get_put _ _ := rfl
  put_get _ := rfl
  put_put _ _ _ := rfl
  lock := .users
  unlock
    | .users k => some k
    | _ => none
  unlock_eq_some {m k} := by rcases m with m | m | m | m <;> simp [eq_comm]
  protects := .users
  protected_cases {m q} h := by
    rcases h with h | h | h | h
    · exact .inr fun _ _ h => h
    · exact .inl ⟨_, _, rfl, h, rfl⟩
    · exact .inr fun _ _ h => h
    · exact .inr fun _ _ h => h

def notificationsPart : Part AppDatabase NotificationsDatabase where
  get := AppDatabase.notifications
  put d notifications := { d with notifications }
  get_put _ _ := rfl
  put_get _ := rfl
  put_put _ _ _ := rfl
  lock := .notifications
  unlock
    | .notifications k => some k
    | _ => none
  unlock_eq_some {m k} := by rcases m with m | m | m | m <;> simp [eq_comm]
  protects := .notifications
  protected_cases {m q} h := by
    rcases h with h | h | h | h
    · exact .inr fun _ _ h => h
    · exact .inr fun _ _ h => h
    · exact .inl ⟨_, _, rfl, h, rfl⟩
    · exact .inr fun _ _ h => h

def billingPart : Part AppDatabase Database where
  get := AppDatabase.billing
  put d billing := { d with billing }
  get_put _ _ := rfl
  put_get _ := rfl
  put_put _ _ _ := rfl
  lock := .billing
  unlock
    | .billing k => some k
    | _ => none
  unlock_eq_some {m k} := by rcases m with m | m | m | m <;> simp [eq_comm]
  protects := .billing
  protected_cases {m q} h := by
    rcases h with h | h | h | h
    · exact .inr fun _ _ h => h
    · exact .inr fun _ _ h => h
    · exact .inr fun _ _ h => h
    · exact .inl ⟨_, _, rfl, h, rfl⟩

/-! ## Programs -/

inductive AppStatement
  | auth (s : AuthStatement)
  | users (s : UsersStatement)
  | notifications (s : NotificationsStatement)
  | billing (s : Statement)
  deriving DecidableEq, Repr

inductive AppError
  | domain (e : DomainError)
  | auth (e : AuthError)
  | users (e : UsersError)
  | notifications (e : NotificationsError)
  | billing (e : Error)
  /-- A commit fails. -/
  | fault
  deriving DecidableEq, Repr

/-! The exceptions of a module, of which those of the domain have one type. -/

def AppError.ofAuth : AuthError → AppError
  | .domain e => .domain e
  | e => .auth e

def AppError.ofUsers : UsersError → AppError
  | .domain e => .domain e
  | e => .users e

def AppError.ofNotifications : NotificationsError → AppError
  | .domain e => .domain e
  | e => .notifications e

def AppError.ofBilling : Error → AppError
  | .domain e => .domain e
  | e => .billing e

abbrev AppTx := Prog AppDatabase AppStatement AppError

namespace AppTx

variable {α : Type}

def auth (p : AuthTx α) : AppTx α := Prog.lift authPart .auth .ofAuth p

def users (p : UsersTx α) : AppTx α := Prog.lift usersPart .users .ofUsers p

def notifications (p : NotificationsTx α) : AppTx α :=
  Prog.lift notificationsPart .notifications .ofNotifications p

def billing (p : Tx α) : AppTx α := Prog.lift billingPart .billing .ofBilling p

/-- `unit_of_work.commit`. -/
def commit : AppTx Unit := Prog.commitOr .fault

end AppTx

end Boat.App
