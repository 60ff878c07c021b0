import Mathlib.Data.List.Basic
import Mathlib.Logic.Function.Basic

/-!
# Session programs

A *session program* is what one client of a transactional store does with its
session: a tree of database statements, each continuing with what it returned.
The store has the type `D`, its locks (row locks, entries of unique indexes,
advisory locks) are named by `K`, statements carry a label in `L`, and the
program raises exceptions in `ε` or returns an `α`.

* What a lock protects is given by `Locking`; an `Action`, what a statement does,
  keeps everything it takes no lock of.
* A statement (`Prog.stmt`) first waits for the locks it needs, which may depend
  on what it sees, then sees the committed store with the session's own writes
  on top of it, and adds a write to those. It may also *fail*: the continuation
  gets `none`, and the session has lost its transaction.
* `Prog.commit` makes the writes of the session visible to the others, or fails
  without taking effect; `Prog.rollback` drops them. Both release all locks.

Programs form a monad with exceptions, so that they are written in `do`
notation, like the code they model. How the programs of several sessions
interleave is defined in `ReadCommitted.System`.
-/

namespace ReadCommitted

/-- What the locks of a store protect: properties of the store that stay true
    while the lock is held. -/
class Locking (D : Type) (K : outParam Type) where
  Protects : K → (D → Prop) → Prop

export Locking (Protects)

variable {D K L ε α β : Type} [Locking D K]

/-- What the lock `k` protects in `d` is still there in `d'`. -/
def Kept (k : K) (d d' : D) : Prop := ∀ p, Protects k p → p d → p d'

theorem kept_refl (k : K) (d : D) : Kept k d d := fun _ _ h => h

theorem kept_trans {k : K} {d d' d'' : D} (h : Kept k d d') (h' : Kept k d' d'') : Kept k d d'' :=
  fun p hp hd => h' p hp (h p hp hd)

/-- A write that changes nothing that other locks than `ks` protect. -/
def Touches (ks : List K) (w : D → D) : Prop := ∀ k, k ∉ ks → ∀ d, Kept k d (w d)

theorem touches_id (ks : List K) : Touches ks (id : D → D) := fun k _ d => kept_refl k d

theorem Touches.comp {ks ks' : List K} {w w' : D → D} (h : Touches ks w) (h' : Touches ks' w') :
    Touches (ks ++ ks') (w ∘ w') := fun k hk d =>
  have hk := not_or.1 fun h => hk (List.mem_append.2 h)
  kept_trans (h' k hk.2 d) (h k hk.1 _)

/-- What a statement does, depending on what it sees: the locks it waits for, and
    the write it adds to those of its session. -/
structure Action (D : Type) {K : Type} [Locking D K] where
  locks : D → List K
  write : D → D → D
  touches : ∀ v, Touches (locks v) (write v)

/-- A session program, see above. -/
inductive Prog (D : Type) {K : Type} [Locking D K] (L ε α : Type) : Type
  | ret (a : α)
  | raise (e : ε)
  | stmt (l : L) (act : Action D) (next : Option D → Prog D L ε α)
  | commit (next : Bool → Prog D L ε α)
  | rollback (next : Bool → Prog D L ε α)

/-- A statement with a result, or refused by the database with an exception. -/
structure Command (D : Type) {K : Type} [Locking D K] (ε α : Type) where
  locks : D → List K
  run : D → Except ε (α × (D → D))
  touches : ∀ v a w, run v = .ok (a, w) → Touches (locks v) w

namespace Command

/-- The write of a command: none if it is refused. -/
def action (c : Command D ε α) : Action D where
  locks := c.locks
  write v := match c.run v with
    | .ok (_, w) => w
    | .error _ => id
  touches v := by
    rcases h : c.run v with e | ⟨a, w⟩
    · exact touches_id _
    · exact c.touches v a w h

/-- A query, which locks what it reads (`FOR UPDATE`) or nothing. -/
def query (locks : D → List K) (f : D → α) : Command D ε α where
  locks := locks
  run v := .ok (f v, id)
  touches v a w h := by cases h; exact touches_id _

@[simp] theorem query_locks {locks : D → List K} {f : D → α} :
    (query locks f : Command D ε α).locks = locks := rfl

@[simp] theorem query_run {locks : D → List K} {f : D → α} {v : D} :
    (query locks f : Command D ε α).run v = .ok (f v, id) := rfl

end Command

namespace Prog

/-- Sequencing: `f` goes on from the results of `p`; exceptions skip it. -/
def bind : Prog D L ε α → (α → Prog D L ε β) → Prog D L ε β
  | ret a, f => f a
  | raise e, _ => raise e
  | stmt l act next, f => stmt l act fun v => (next v).bind f
  | commit next, f => commit fun b => (next b).bind f
  | rollback next, f => rollback fun b => (next b).bind f

/-- Handling: `h` goes on from the exceptions of `p`; results skip it. -/
def handle : Prog D L ε α → (ε → Prog D L ε α) → Prog D L ε α
  | ret a, _ => ret a
  | raise e, h => h e
  | stmt l act next, h => stmt l act fun v => (next v).handle h
  | commit next, h => commit fun b => (next b).handle h
  | rollback next, h => rollback fun b => (next b).handle h

instance : Monad (Prog D L ε) where
  pure := ret
  bind := bind

instance : MonadExceptOf ε (Prog D L ε) where
  throw := raise
  tryCatch := handle

@[simp] theorem pure_eq (a : α) : (pure a : Prog D L ε α) = ret a := rfl

@[simp] theorem bind_eq (p : Prog D L ε α) (f : α → Prog D L ε β) : p >>= f = p.bind f := rfl

@[simp] theorem throw_eq (e : ε) : (throw e : Prog D L ε α) = raise e := rfl

@[simp] theorem tryCatch_eq (p : Prog D L ε α) (h : ε → Prog D L ε α) :
    tryCatch p h = p.handle h := rfl

@[simp] theorem ret_bind (a : α) (f : α → Prog D L ε β) : (ret a).bind f = f a := rfl

@[simp] theorem raise_bind (e : ε) (f : α → Prog D L ε β) : (raise e).bind f = raise e := rfl

@[simp] theorem ret_handle (a : α) (h : ε → Prog D L ε α) : (ret a).handle h = ret a := rfl

@[simp] theorem raise_handle (e : ε) (h : ε → Prog D L ε α) : (raise e).handle h = h e := rfl

/-- A program that has ended, with a result or an exception. -/
def Ended : Prog D L ε α → Prop
  | ret _ | raise _ => True
  | _ => False

instance : (p : Prog D L ε α) → Decidable p.Ended
  | ret _ | raise _ => isTrue trivial
  | stmt .. | commit _ | rollback _ => isFalse id

/-- Execute a command. It raises `fault` if it fails, and what it is refused with
    if it is refused, which also ends the transaction. -/
def exec (l : L) (fault : ε) (c : Command D ε α) : Prog D L ε α :=
  stmt l c.action fun
    | none => raise fault
    | some v => match c.run v with
      | .ok (a, _) => ret a
      | .error e => rollback fun _ => raise e

/-- A result computed without the database. -/
def ofExcept : Except ε α → Prog D L ε α
  | .ok a => ret a
  | .error e => raise e

@[simp] theorem ofExcept_ok (a : α) : (ofExcept (.ok a) : Prog D L ε α) = ret a := rfl

@[simp] theorem ofExcept_error (e : ε) : (ofExcept (.error e) : Prog D L ε α) = raise e := rfl

end Prog

end ReadCommitted
