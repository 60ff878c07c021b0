import Boat.Core.Uuid

/-!
# Domain errors and events

The exceptions the domain and application layers raise (`DomainError`, one
constructor for each exception class, with what it carries), checks that collect the
details of what is invalid (`Validated`), and domain events stamped with their identity
and time (`Stamped`).
-/

namespace Boat

/-- `ErrorDetail`: an invalid field, and why. -/
structure ErrorDetail where
  field : String
  message : String
  deriving DecidableEq, Repr

/-- The exceptions of the domain and application layers. -/
inductive DomainError
  | validation (details : List ErrorDetail)
  | insufficientCredit
  | creditTransactionWriteConflict
  | promotionNotFound
  | promotionCodeNotFound
  | promotionRedemptionConflict (message : String)
  | receiptImageUnreadable (fileIndexes : List ℤ)
  | unsupportedReceipt (unsupportedFileIndexes unreadableFileIndexes : List ℤ)
  | receiptOcrProviderUnavailable
  | authentication
  | userNotRegistered
  | userAlreadyExists
  /-- A built-in exception of Python (`ValueError`, `OverflowError`, ...), or one
      of a library. -/
  | other (message : String)
  deriving DecidableEq, Repr

/-- What the constructor of a value object returns, or the details it raises. -/
abbrev Validated (α : Type) := Except (List ErrorDetail) α

/-- The details that `Notification.collect` adds. -/
def Validated.details {α : Type} : Validated α → List ErrorDetail
  | .ok _ => []
  | .error details => details

theorem isOk_iff {ε α : Type} {e : Except ε α} : e.isOk ↔ ∃ a, e = .ok a := by
  rcases e with error | a
  · simp [Except.isOk, Except.toBool]
  · simp [Except.isOk, Except.toBool]

theorem except_bind_eq_ok {ε α β : Type} {x : Except ε α} {f : α → Except ε β} {b : β} :
    x >>= f = .ok b ↔ ∃ a, x = .ok a ∧ f a = .ok b := by
  rcases x with e | a
  · simp [bind, Except.bind]
  · simp [bind, Except.bind]

theorem except_map_eq_ok {ε α β : Type} {x : Except ε α} {f : α → β} {b : β} :
    x.map f = .ok b ↔ ∃ a, x = .ok a ∧ f a = b := by
  rcases x with e | a
  · simp [Except.map]
  · simp [Except.map]

/-- The defaults of `DomainEvent`: a fresh identity, and the time of the event. -/
structure Stamp where
  eventId : UUID
  occurredAt : Instant
  deriving DecidableEq, Repr

/-- A recorded domain event. -/
structure Stamped (ε : Type) extends Stamp where
  event : ε
  deriving DecidableEq, Repr

end Boat
