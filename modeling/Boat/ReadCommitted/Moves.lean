import Boat.ReadCommitted.Commands
import Boat.Transition.Run

/-!
# Moves

What one step does to one session, by what its program does next, and runs of sessions with their
moves (`Transition.Run (Step C)`).

* A step of another session leaves it as it is (`Step.session_of_ne`). The store changes by commits
  only (`Step.commits`).
* Its own step goes on with its program (`Session.Goes`): under a handler, with the result of a
  statement or to the handler (`Goes.of_query`, `Goes.of_modify`, `Goes.of_commitOr`,
  `Goes.of_rollbackOr`).
* Until a program that commits last has ended, the store has what the other sessions keep
  (`Reach.store_of_commitsLast`).
-/

namespace ReadCommitted

open Transition

variable {ι D K L ε α : Type} [Locking D K]

/-- The statement that the session executes next. -/
def System.statement (s : System ι D L ε α) (i : ι) : Option L :=
  match (s.session i).prog with
  | some (.stmt l _ _) => some l
  | _ => none

/-! ## Sessions -/

variable {m : Move ι} {i : ι} {w : D → D} {ks : List K}

/-- How the session `i` goes on by a move, from a store to a store. -/
inductive Session.Goes (i : ι) (d : D) : Session D L ε α → Move ι → D → Session D L ε α → Prop
  | stmt {l act next w ks} : Goes i d ⟨some (.stmt l act next), w, ks⟩ (.run i) d
      ⟨some (next (some (w d))), act.write (w d) ∘ w, act.locks (w d) ++ ks⟩
  | stmt_fail {l act next w ks} :
    Goes i d ⟨some (.stmt l act next), w, ks⟩ (.fail i) d (.idle (some (next none)))
  | interrupt {l act next w ks} :
    Goes i d ⟨some (.stmt l act next), w, ks⟩ (.interrupt i) d ⟨some (next none), w, ks⟩
  | commit {next w ks} :
    Goes i d ⟨some (.commit next), w, ks⟩ (.run i) (w d) (.idle (some (next true)))
  | commit_fail {next w ks} :
    Goes i d ⟨some (.commit next), w, ks⟩ (.fail i) d (.idle (some (next false)))
  | rollback {next w ks} :
    Goes i d ⟨some (.rollback next), w, ks⟩ (.run i) d (.idle (some (next true)))
  | rollback_fail {next w ks} :
    Goes i d ⟨some (.rollback next), w, ks⟩ (.fail i) d (.idle (some (next false)))
  | crash {p w ks} : Goes i d ⟨some p, w, ks⟩ (.crash i) d (.idle none)
  | close {p w ks} : p.Ended → Goes i d ⟨some p, w, ks⟩ (.close i) d (.idle (some p))

namespace Session.Goes

variable {d d' : D} {x y : Session D L ε α} {β : Type} {l : L} {fault : ε}

/-- A statement is executed, it fails, or the session crashes. -/
theorem of_stmt {act : Action D} {next : Option D → Prog D L ε α}
    (h : Goes i d ⟨some (.stmt l act next), w, ks⟩ m d' y) :
    d' = d ∧ (m = .run i ∧
      y = ⟨some (next (some (w d))), act.write (w d) ∘ w, act.locks (w d) ++ ks⟩ ∨
      y.prog = some (next none) ∨ y.prog = none) := by
  cases h with
  | stmt => exact ⟨rfl, .inl ⟨rfl, rfl⟩⟩
  | stmt_fail => exact ⟨rfl, .inr (.inl rfl)⟩
  | interrupt => exact ⟨rfl, .inr (.inl rfl)⟩
  | crash => exact ⟨rfl, .inr (.inr rfl)⟩
  | close hended => exact hended.elim

/-- A query under a handler goes on with what it has read, or to the handler. -/
theorem of_query {f : D → β} {k : β → Prog D L ε α} {handler : ε → Prog D L ε α}
    (h : Goes i d ⟨some (((Prog.exec l fault (.query (fun _ => []) f)).bind k).handle handler), w,
      ks⟩ m d' y) :
    d' = d ∧ (m = .run i ∧ y = ⟨some ((k (f (w d))).handle handler), w, ks⟩ ∨
      y.prog = some (handler fault) ∨ y.prog = none) :=
  of_stmt h

/-- A write of rows under a handler goes on with them, or to the handler. -/
theorem of_modify {f : D → β} {locks : β → List K} {u : β → D → D} {hu : ∀ a, Touches (locks a) (u a)}
    {k : β → Prog D L ε α} {handler : ε → Prog D L ε α}
    (h : Goes i d ⟨some (((Prog.exec l fault (.modify f locks u hu)).bind k).handle handler), w,
      ks⟩ m d' y) :
    d' = d ∧ (m = .run i ∧
      y = ⟨some ((k (f (w d))).handle handler), u (f (w d)) ∘ w, locks (f (w d)) ++ ks⟩ ∨
      y.prog = some (handler fault) ∨ y.prog = none) :=
  of_stmt h

/-- The end of a transaction under a handler that returns. -/
theorem of_commitOr {handler : ε → Prog D L ε Unit} {y : Session D L ε Unit}
    (h : Goes i d ⟨some ((Prog.commitOr fault).handle handler), w, ks⟩ m d' y) :
    m = .run i ∧ d' = w d ∧ y.prog = some (.ret ()) ∨
      d' = d ∧ (y.prog = some (handler fault) ∨ y.prog = none) := by
  generalize hp : (Prog.commitOr fault).handle handler = p at h
  cases h with
  | commit =>
    cases hp
    exact .inl ⟨rfl, rfl, rfl⟩
  | commit_fail =>
    cases hp
    exact .inr ⟨rfl, .inl rfl⟩
  | crash => exact .inr ⟨rfl, .inr rfl⟩
  | stmt | stmt_fail | interrupt | rollback | rollback_fail => cases hp
  | close hended =>
    subst hp
    exact hended.elim

/-- A rollback under a handler goes on without a transaction, or to the handler. -/
theorem of_rollbackOr {k : Unit → Prog D L ε α} {handler : ε → Prog D L ε α}
    (h : Goes i d ⟨some (((Prog.rollbackOr fault).bind k).handle handler), w, ks⟩ m d' y) :
    d' = d ∧ (y = .idle (some ((k ()).handle handler)) ∨ y.prog = some (handler fault) ∨
      y.prog = none) := by
  generalize hp : ((Prog.rollbackOr fault).bind k).handle handler = p at h
  cases h with
  | rollback =>
    cases hp
    exact ⟨rfl, .inl rfl⟩
  | rollback_fail =>
    cases hp
    exact ⟨rfl, .inr (.inl rfl)⟩
  | crash => exact ⟨rfl, .inr (.inr rfl)⟩
  | stmt | stmt_fail | interrupt | commit | commit_fail => cases hp
  | close hended =>
    subst hp
    exact hended.elim

/-- A program that has ended stays, or its session is lost. -/
theorem of_ended {p : Prog D L ε α} (hended : p.Ended) (h : Goes i d ⟨some p, w, ks⟩ m d' y) :
    d' = d ∧ (y.prog = some p ∨ y.prog = none) := by
  cases h with
  | close _ => exact ⟨rfl, .inl rfl⟩
  | crash => exact ⟨rfl, .inr rfl⟩
  | stmt | stmt_fail | interrupt | commit | commit_fail | rollback | rollback_fail =>
    exact hended.elim

/-- A session that is lost does not move. -/
theorem prog_isSome (h : Goes i d x m d' y) : x.prog.isSome = true := by
  cases h with
  | stmt | stmt_fail | interrupt | commit | commit_fail | rollback | rollback_fail | crash
    | close => rfl

end Session.Goes

/-! ## Steps -/

variable [DecidableEq ι] {C : Condition ι D K L} {s s' : System ι D L ε α}

theorem Reach.of_run {ms : List (Move ι)} (h : Run (Step C) s ms s') : Reach C s s' := by
  induction h with
  | refl => exact .refl
  | step _ hst ih => exact ih.step hst

section

variable [Fintype ι] [DecidableEq K] [∀ i l d ks, Decidable (C i l d ks)]

/-- What `exec` computes is a run. -/
theorem System.run_of_exec {ms : List (Move ι)}
    (h : s.exec C ms = some s') : Run (Step C) s ms s' := by
  induction ms generalizing s with
  | nil =>
    cases h
    exact .refl
  | cons m ms ih =>
    obtain ⟨s₁, hm, h⟩ := Option.bind_eq_some_iff.1 h
    exact .cons (System.step_of_move hm) (ih h)

end

/-- A step leaves the other sessions as they are. -/
theorem Step.session_of_ne (h : Step C s m s') (hm : i ≠ m.session) : s'.session i = s.session i := by
  cases h with
  | stmt | stmt_fail | interrupt | commit | commit_fail | rollback | rollback_fail | crash | close =>
    exact System.set_session_of_ne _ _ hm

/-- A run of other sessions leaves a session as it is. -/
theorem System.session_of_exec [Fintype ι] [DecidableEq K] [∀ i l d ks, Decidable (C i l d ks)]
    {ms : List (Move ι)} (h : s.exec C ms = some s')
    (hms : ∀ m ∈ ms, i ≠ m.session) : s'.session i = s.session i := by
  induction ms generalizing s with
  | nil =>
    cases h
    rfl
  | cons m ms ih =>
    obtain ⟨s₁, hm, h⟩ := Option.bind_eq_some_iff.1 h
    rw [ih h fun m' hm' => hms m' (List.mem_cons_of_mem _ hm'),
      (System.step_of_move hm).session_of_ne (hms m List.mem_cons_self)]

/-- A step changes the store by a commit. -/
theorem Step.commits (h : Step C s m s') (hne : s'.store ≠ s.store) :
    ∃ j next, m = .run j ∧ (s.session j).prog = some (.commit next) := by
  cases h with
  | @commit j next w ks hs => exact ⟨j, next, rfl, congrArg Session.prog hs⟩
  | stmt | stmt_fail | interrupt | commit_fail | rollback | rollback_fail | crash | close =>
    exact absurd rfl hne

/-- A step is how its session goes on. -/
theorem Step.goes (h : Step C s m s') :
    Session.Goes m.session s.store (s.session m.session) m s'.store (s'.session m.session) := by
  have hself {j : ι} {x : Session D L ε α} : (s.set j x).session j = x := System.set_session_self ..
  cases h with
  | @stmt j l act next w ks hs =>
    rw [Move.session, hs, hself]
    exact .stmt
  | @stmt_fail j l act next w ks hs =>
    rw [Move.session, hs, hself]
    exact .stmt_fail
  | @interrupt j l act next w ks hs =>
    rw [Move.session, hs, hself]
    exact .interrupt
  | @commit j next w ks hs =>
    rw [Move.session, hs, hself]
    exact .commit
  | @commit_fail j next w ks hs =>
    rw [Move.session, hs, hself]
    exact .commit_fail
  | @rollback j next w ks hs =>
    rw [Move.session, hs, hself]
    exact .rollback
  | @rollback_fail j next w ks hs =>
    rw [Move.session, hs, hself]
    exact .rollback_fail
  | @crash j p w ks hs =>
    rw [Move.session, hs, hself]
    exact .crash
  | @close j p w ks hs hended =>
    rw [Move.session, hs, hself]
    exact .close hended

/-- A program that commits last makes its commit when it ends: until then, the store has what the
    other sessions keep. -/
theorem Reach.store_of_commitsLast {prog : ι → Prog D L ε α} {d : D} {Q : D → Prop}
    (hs : Reach C (System.init prog d) s) (hlast : (prog i).CommitsLast) (hd : Q d)
    (hother : ∀ s m s', Reach C (System.init prog d) s → Step C s m s' → m.session ≠ i → Q s.store →
      Q s'.store) :
    Q s.store ∨ ∀ p, (s.session i).prog = some p → p.Ended := by
  induction hs with
  | refl => exact .inl hd
  | @step s s' m hs hst ih =>
    rcases ih with hQ | hended
    · by_cases hm : m.session = i
      · by_cases hne : s'.store = s.store
        · exact .inl (hne ▸ hQ)
        · obtain ⟨a, ha⟩ := hs.returned_of_commit hlast hst hm hne
          rw [System.returned_eq_some] at ha
          refine .inr fun p hp => ?_
          cases hp.symm.trans ha
          trivial
      · exact .inl (hother s m s' hs hst hm hQ)
    · refine .inr fun q hq => ?_
      obtain ⟨p, hp, rfl | hnext⟩ := hst.next hq
      · exact hended _ hp
      · cases hnext with
        | stmt | commit | rollback => exact (hended _ hp).elim

/-- A step keeps what other locks than those of its session protect. -/
theorem Protocol.Good.kept_of_notMem {P : Protocol ι D K L} {R : ι → α → D → Prop}
    {X : ι → ε → D → Prop} (h : P.Good R X s) (hst : Step C s m s') {k : K}
    (hk : k ∉ (s.session m.session).locks) : Kept k s.store s'.store := by
  cases hst with
  | @commit j next w ks hs =>
    have htouches := h.touches j
    rw [hs] at htouches
    rw [Move.session, hs] at hk
    exact htouches k hk s.store
  | stmt | stmt_fail | interrupt | commit_fail | rollback | rollback_fail | crash | close =>
    exact kept_refl k _

/-- What the locks of a session protect, the steps of the others keep. -/
theorem Protocol.Good.kept_of_ne {P : Protocol ι D K L} {R : ι → α → D → Prop}
    {X : ι → ε → D → Prop} (h : P.Good R X s) (hst : Step C s m s') (hm : i ≠ m.session) {k : K}
    (hk : k ∈ (s.session i).locks) : Kept k s.store s'.store :=
  h.kept_of_notMem hst fun hk' => h.disjoint i m.session hm hk hk'

end ReadCommitted
