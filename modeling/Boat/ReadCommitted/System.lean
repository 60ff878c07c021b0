import Boat.ReadCommitted.Prog
import Mathlib.Data.Fintype.Basic
import Mathlib.Data.List.Basic

/-!
# Interleaved sessions

Any number of sessions, indexed by `ι`, run their programs over one store, one
statement at a time, in any order (`Step`):

* a statement sees the *committed* store at the time it runs, under the writes of
  its own session, as in READ COMMITTED isolation; it waits while another session
  holds a lock it needs, and the locks are held to the end of the transaction;
* a statement, a commit or a rollback may fail, and a session may crash at any
  point: the writes since its last commit are lost;
* a session may be interrupted before a statement, by an exception of its own: its
  transaction stays open;
* a session whose program has ended is closed, which rolls back what it left open.

A run may be restricted by a condition on the statements that are executed
(`Reach C`): the condition sees the label of the statement, the committed store
it meets and the locks the session already holds. Without one, `C` is `Always`.
Runs on concrete inputs are computed with `System.exec`, from a list of moves
(`System.exists_reach`).
-/

namespace ReadCommitted

variable {ι D K L ε α : Type} [Locking D K]

/-- A session: the rest of its program (`none` after a crash), the writes it has
    not committed, and the locks it holds. -/
structure Session (D : Type) {K : Type} [Locking D K] (L ε α : Type) where
  prog : Option (Prog D L ε α)
  writes : D → D
  locks : List K

/-- The sessions and the committed store. -/
structure System (ι D : Type) {K : Type} [Locking D K] (L ε α : Type) where
  store : D
  session : ι → Session D L ε α

/-- A session without open transaction. -/
def Session.idle (p : Option (Prog D L ε α)) : Session D L ε α := ⟨p, id, []⟩

/-- All programs at their start. -/
def System.init (p : ι → Prog D L ε α) (d : D) : System ι D L ε α :=
  ⟨d, fun i => .idle (some (p i))⟩

namespace System

/-- What the program of a session has returned. -/
def returned (s : System ι D L ε α) (i : ι) : Option α :=
  match (s.session i).prog with
  | some (.ret a) => some a
  | _ => none

/-- What the program of a session has raised. -/
def raised (s : System ι D L ε α) (i : ι) : Option ε :=
  match (s.session i).prog with
  | some (.raise e) => some e
  | _ => none

theorem returned_eq_some {s : System ι D L ε α} {i : ι} {a : α} :
    s.returned i = some a ↔ (s.session i).prog = some (.ret a) := by
  unfold returned
  split <;> simp_all

theorem raised_eq_some {s : System ι D L ε α} {i : ι} {e : ε} :
    s.raised i = some e ↔ (s.session i).prog = some (.raise e) := by
  unfold raised
  split <;> simp_all

end System

/-- A condition on the statements that are executed. -/
abbrev Condition (ι D K L : Type) := ι → L → D → List K → Prop

/-- No condition. -/
def Always : Condition ι D K L := fun _ _ _ _ => True

instance (i : ι) (l : L) (d : D) (ks : List K) : Decidable (Always i l d ks) :=
  inferInstanceAs (Decidable True)

/-- What the scheduler does next: let a session go on, let its next statement,
    commit or rollback fail, interrupt it, crash it, or close it. -/
inductive Move (ι : Type)
  | run (i : ι)
  | fail (i : ι)
  | interrupt (i : ι)
  | crash (i : ι)
  | close (i : ι)

/-- The session that moves. -/
def Move.session : Move ι → ι
  | .run i | .fail i | .interrupt i | .crash i | .close i => i

namespace System

variable [DecidableEq ι]

/-- The system with another session `i`. -/
def set (s : System ι D L ε α) (i : ι) (x : Session D L ε α) : System ι D L ε α :=
  ⟨s.store, Function.update s.session i x⟩

@[simp] theorem set_store (s : System ι D L ε α) (i : ι) (x : Session D L ε α) :
    (s.set i x).store = s.store := rfl

@[simp] theorem set_session_self (s : System ι D L ε α) (i : ι) (x : Session D L ε α) :
    (s.set i x).session i = x := Function.update_self ..

theorem set_session_of_ne (s : System ι D L ε α) {i j : ι} (x : Session D L ε α)
    (h : j ≠ i) : (s.set i x).session j = s.session j := Function.update_of_ne h ..

/-- No other session holds one of the locks `ks`. -/
def Free (s : System ι D L ε α) (i : ι) (ks : List K) : Prop :=
  ∀ j, j ≠ i → ks.Disjoint (s.session j).locks

end System

variable [DecidableEq ι]

/-- One move of the system. -/
inductive Step (C : Condition ι D K L) :
    System ι D L ε α → Move ι → System ι D L ε α → Prop
  | stmt {s : System ι D L ε α} {i l act next w ks} :
      s.session i = ⟨some (.stmt l act next), w, ks⟩ → C i l s.store ks →
      s.Free i (act.locks (w s.store)) →
      Step C s (.run i) (s.set i
        ⟨some (next (some (w s.store))), act.write (w s.store) ∘ w, act.locks (w s.store) ++ ks⟩)
  | stmt_fail {s : System ι D L ε α} {i l act next w ks} :
      s.session i = ⟨some (.stmt l act next), w, ks⟩ →
      Step C s (.fail i) (s.set i (.idle (some (next none))))
  | interrupt {s : System ι D L ε α} {i l act next w ks} :
      s.session i = ⟨some (.stmt l act next), w, ks⟩ →
      Step C s (.interrupt i) (s.set i ⟨some (next none), w, ks⟩)
  | commit {s : System ι D L ε α} {i next w ks} :
      s.session i = ⟨some (.commit next), w, ks⟩ →
      Step C s (.run i) ⟨w s.store, (s.set i (.idle (some (next true)))).session⟩
  | commit_fail {s : System ι D L ε α} {i next w ks} :
      s.session i = ⟨some (.commit next), w, ks⟩ →
      Step C s (.fail i) (s.set i (.idle (some (next false))))
  | rollback {s : System ι D L ε α} {i next w ks} :
      s.session i = ⟨some (.rollback next), w, ks⟩ →
      Step C s (.run i) (s.set i (.idle (some (next true))))
  | rollback_fail {s : System ι D L ε α} {i next w ks} :
      s.session i = ⟨some (.rollback next), w, ks⟩ →
      Step C s (.fail i) (s.set i (.idle (some (next false))))
  | crash {s : System ι D L ε α} {i p w ks} :
      s.session i = ⟨some p, w, ks⟩ → ¬p.Ended →
      Step C s (.crash i) (s.set i (.idle none))
  | close {s : System ι D L ε α} {i p w ks} :
      s.session i = ⟨some p, w, ks⟩ → p.Ended →
      Step C s (.close i) (s.set i (.idle (some p)))

/-- The systems reachable from `s`. -/
inductive Reach (C : Condition ι D K L) (s : System ι D L ε α) : System ι D L ε α → Prop
  | refl : Reach C s s
  | step {s' s'' m} : Reach C s s' → Step C s' m s'' → Reach C s s''

theorem Reach.trans {C : Condition ι D K L} {s s' s'' : System ι D L ε α}
    (h : Reach C s s') (h' : Reach C s' s'') : Reach C s s'' := by
  induction h' with
  | refl => exact h
  | step _ hst ih => exact .step ih hst

/-- What becomes true in a run becomes true in one of its steps. -/
theorem Reach.exists_step {C : Condition ι D K L} {s s' : System ι D L ε α}
    (h : Reach C s s') {p : System ι D L ε α → Prop} (hs : ¬p s) (hs' : p s') :
    ∃ s₁ m s₂, Reach C s s₁ ∧ Step C s₁ m s₂ ∧ Reach C s₂ s' ∧ ¬p s₁ ∧ p s₂ := by
  induction h with
  | refl => exact absurd hs' hs
  | @step s₁ s₂ m h hst ih =>
    by_cases h₁ : p s₁
    · obtain ⟨t₁, m', t₂, ht₁, ht, ht₂, hp⟩ := ih h₁
      exact ⟨t₁, m', t₂, ht₁, ht, ht₂.step hst, hp⟩
    · exact ⟨s₁, m, s₂, h, hst, .refl, h₁, hs'⟩

theorem Step.mono {C C' : Condition ι D K L} (hC : ∀ i l d ks, C i l d ks → C' i l d ks)
    {s s' : System ι D L ε α} {m : Move ι} (h : Step C s m s') : Step C' s m s' := by
  cases h with
  | stmt hs hc hf => exact .stmt hs (hC _ _ _ _ hc) hf
  | stmt_fail hs => exact .stmt_fail hs
  | interrupt hs => exact .interrupt hs
  | commit hs => exact .commit hs
  | commit_fail hs => exact .commit_fail hs
  | rollback hs => exact .rollback hs
  | rollback_fail hs => exact .rollback_fail hs
  | crash hs he => exact .crash hs he
  | close hs he => exact .close hs he

theorem Reach.mono {C C' : Condition ι D K L} (hC : ∀ i l d ks, C i l d ks → C' i l d ks)
    {s s' : System ι D L ε α} (h : Reach C s s') : Reach C' s s' := by
  induction h with
  | refl => exact .refl
  | step _ hst ih => exact .step ih (hst.mono hC)

/-! ## Computed runs -/

namespace System

variable [Fintype ι] [DecidableEq K] (C : Condition ι D K L) [∀ i l d ks, Decidable (C i l d ks)]

instance (s : System ι D L ε α) (i : ι) (ks : List K) : Decidable (s.Free i ks) :=
  inferInstanceAs (Decidable (∀ j, j ≠ i → ∀ ⦃k⦄, k ∈ ks → k ∈ (s.session j).locks → False))

/-- The system after the move `m`, if it is possible. -/
def move (s : System ι D L ε α) : Move ι → Option (System ι D L ε α)
  | .run i =>
    let x := s.session i
    match x.prog with
    | some (.stmt l act next) =>
      let v := x.writes s.store
      if C i l s.store x.locks ∧ s.Free i (act.locks v) then
        some (s.set i ⟨some (next (some v)), act.write v ∘ x.writes, act.locks v ++ x.locks⟩)
      else none
    | some (.commit next) =>
      some ⟨x.writes s.store, (s.set i (.idle (some (next true)))).session⟩
    | some (.rollback next) => some (s.set i (.idle (some (next true))))
    | _ => none
  | .fail i =>
    match (s.session i).prog with
    | some (.stmt _ _ next) => some (s.set i (.idle (some (next none))))
    | some (.commit next) => some (s.set i (.idle (some (next false))))
    | some (.rollback next) => some (s.set i (.idle (some (next false))))
    | _ => none
  | .interrupt i =>
    let x := s.session i
    match x.prog with
    | some (.stmt _ _ next) => some (s.set i ⟨some (next none), x.writes, x.locks⟩)
    | _ => none
  | .crash i =>
    match (s.session i).prog with
    | some p => if p.Ended then none else some (s.set i (.idle none))
    | none => none
  | .close i =>
    match (s.session i).prog with
    | some p => if p.Ended then some (s.set i (.idle (some p))) else none
    | none => none

/-- The system after the moves `ms`, if they are possible. -/
def exec (s : System ι D L ε α) : List (Move ι) → Option (System ι D L ε α)
  | [] => some s
  | m :: ms => (s.move C m).bind fun s' => s'.exec ms

variable {C}

theorem step_of_move {s s' : System ι D L ε α} {m : Move ι} (h : s.move C m = some s') :
    Step C s m s' := by
  cases m with
  | run i =>
    rcases hx : s.session i with ⟨p, w, ks⟩
    rcases p with _ | p | p | ⟨l, act, next⟩ | next | next <;> simp only [move, hx] at h
    · cases h
    · cases h
    · cases h
    · split at h
      · next hf => cases h; exact .stmt hx hf.1 hf.2
      · cases h
    · cases h; exact .commit hx
    · cases h; exact .rollback hx
  | fail i =>
    rcases hx : s.session i with ⟨p, w, ks⟩
    rcases p with _ | p | p | ⟨l, act, next⟩ | next | next <;> simp only [move, hx] at h
    · cases h
    · cases h
    · cases h
    · cases h; exact .stmt_fail hx
    · cases h; exact .commit_fail hx
    · cases h; exact .rollback_fail hx
  | interrupt i =>
    rcases hx : s.session i with ⟨p, w, ks⟩
    rcases p with _ | p | p | ⟨l, act, next⟩ | next | next <;> simp only [move, hx] at h
    · cases h
    · cases h
    · cases h
    · cases h; exact .interrupt hx
    · cases h
    · cases h
  | crash i =>
    rcases hx : s.session i with ⟨_ | p, w, ks⟩ <;> simp only [move, hx] at h
    · cases h
    · split at h
      · cases h
      · next he => cases h; exact .crash hx he
  | close i =>
    rcases hx : s.session i with ⟨_ | p, w, ks⟩ <;> simp only [move, hx] at h
    · cases h
    · split at h
      · next he => cases h; exact .close hx he
      · cases h

/-- What `exec` computes is reachable. -/
theorem reach_of_exec {s s' : System ι D L ε α} {ms : List (Move ι)}
    (h : s.exec C ms = some s') : Reach C s s' := by
  induction ms generalizing s with
  | nil => cases h; exact .refl
  | cons m ms ih =>
    obtain ⟨s₁, hm, h⟩ := Option.bind_eq_some_iff.1 h
    exact (Reach.refl.step (step_of_move hm)).trans (ih h)

/-- What `exec` finds at the end of a run, a run reaches. -/
theorem exists_reach {s : System ι D L ε α} (ms : List (Move ι)) {p : System ι D L ε α → Prop}
    [DecidablePred p] (h : (s.exec C ms).any (p ·) = true) : ∃ s', Reach C s s' ∧ p s' := by
  cases hs : s.exec C ms with
  | none => simp [hs] at h
  | some s' => exact ⟨s', reach_of_exec hs, by simpa [hs] using h⟩

end System

end ReadCommitted
