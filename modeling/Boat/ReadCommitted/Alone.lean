import Boat.ReadCommitted.Commands

/-!
# Programs alone

What a program does that has the store for itself is determined, but for the statements that the
database refuses because of what they store, such as text that is too long for its column
(`Prog.alone`). It is one of the runs of the system (`exists_reach_alone`), and is computed statement
by statement (`alone_bind`, `alone_exec`).
-/

namespace ReadCommitted

variable {D K L ε α β : Type} [Locking D K]

/-- What is left by a program that has ended: its result, what its session sees, and the committed
    store. -/
structure Outcome (D ε α : Type) where
  result : Except ε α
  view : D
  store : D

namespace Prog

variable (refused : L → Bool)

/-- The outcome of a program that runs alone, from what its session sees and the committed store. A
    refused statement loses the transaction. -/
def alone : Prog D L ε α → D → D → Outcome D ε α
  | .ret a, v, d => ⟨.ok a, v, d⟩
  | .raise e, v, d => ⟨.error e, v, d⟩
  | .stmt l act next, v, d =>
    if refused l then (next none).alone d d else (next (some v)).alone (act.write v v) d
  | .commit next, v, _ => (next true).alone v v
  | .rollback next, _, d => (next true).alone d d

variable {refused} {v d : D}

@[simp] theorem alone_ret (a : α) : (ret a : Prog D L ε α).alone refused v d = ⟨.ok a, v, d⟩ := rfl

@[simp] theorem alone_raise (e : ε) : (raise e : Prog D L ε α).alone refused v d =
    ⟨.error e, v, d⟩ := rfl

/-- A program goes on from the outcome of another one. -/
theorem alone_bind (p : Prog D L ε α) (f : α → Prog D L ε β) :
    (p.bind f).alone refused v d =
      match p.alone refused v d with
      | ⟨.ok a, v', d'⟩ => (f a).alone refused v' d'
      | ⟨.error e, v', d'⟩ => ⟨.error e, v', d'⟩ := by
  induction p generalizing v d with
  | ret a => rfl
  | raise e => rfl
  | stmt l act next ih =>
    simp only [bind, alone]
    split
    · exact ih _
    · exact ih _
  | commit next ih => exact ih _
  | rollback next ih => exact ih _

theorem alone_bind_ok {p : Prog D L ε α} {f : α → Prog D L ε β} {a : α} {v' d' : D}
    (h : p.alone refused v d = ⟨.ok a, v', d'⟩) :
    (p.bind f).alone refused v d = (f a).alone refused v' d' := by
  rw [alone_bind, h]

theorem alone_bind_error {p : Prog D L ε α} {f : α → Prog D L ε β} {e : ε} {v' d' : D}
    (h : p.alone refused v d = ⟨.error e, v', d'⟩) :
    (p.bind f).alone refused v d = ⟨.error e, v', d'⟩ := by
  rw [alone_bind, h]

/-- A handler goes on from an exception. -/
theorem alone_handle (p : Prog D L ε α) (h : ε → Prog D L ε α) :
    (p.handle h).alone refused v d =
      match p.alone refused v d with
      | ⟨.ok a, v', d'⟩ => ⟨.ok a, v', d'⟩
      | ⟨.error e, v', d'⟩ => (h e).alone refused v' d' := by
  induction p generalizing v d with
  | ret a => rfl
  | raise e => rfl
  | stmt l act next ih =>
    simp only [handle, alone]
    split
    · exact ih _
    · exact ih _
  | commit next ih => exact ih _
  | rollback next ih => exact ih _

theorem alone_exec {l : L} {fault : ε} {c : Command D ε α} (hl : refused l = false) :
    (exec l fault c).alone refused v d =
      match c.run v with
      | .ok (a, w) => ⟨.ok a, w v, d⟩
      | .error e => ⟨.error e, d, d⟩ := by
  simp only [exec, alone, hl, Command.action]
  rcases c.run v with e | ⟨a, w⟩
  · rfl
  · rfl

theorem alone_exec_refused {l : L} {fault : ε} {c : Command D ε α} (hl : refused l = true) :
    (exec l fault c).alone refused v d = ⟨.error fault, d, d⟩ := by
  simp only [exec, alone, hl, if_true]

theorem alone_query {l : L} {fault : ε} {locks : D → List K} {f : D → α} (hl : refused l = false) :
    (exec l fault (.query locks f)).alone refused v d = ⟨.ok (f v), v, d⟩ := alone_exec hl

theorem alone_modify {l : L} {fault : ε} {f : D → α} {locks : α → List K} {w : α → D → D}
    {hw : ∀ a, Touches (locks a) (w a)} (hl : refused l = false) :
    (exec l fault (.modify f locks w hw)).alone refused v d = ⟨.ok (f v), w (f v) v, d⟩ :=
  alone_exec hl

@[simp] theorem alone_commitOr {fault : ε} :
    (commitOr fault : Prog D L ε Unit).alone refused v d = ⟨.ok (), v, v⟩ := rfl

end Prog

/-- What a program does alone is one of its runs, in which the refused statements fail. -/
theorem exists_reach_alone (refused : L → Bool) (p : Prog D L ε α) (d : D) :
    ∃ s : System Unit D L ε α, Reach Always (System.init (fun _ => p) d) s ∧
      s.store = (p.alone refused d d).store ∧
      (s.session ()).prog = some (.ofExcept (p.alone refused d d).result) := by
  -- The session sees its writes on top of the committed store.
  suffices h : ∀ (s : System Unit D L ε α) (w : D → D) (ks : List K), s.session () = ⟨some p, w, ks⟩ →
      ∃ s', Reach Always s s' ∧ s'.store = (p.alone refused (w s.store) s.store).store ∧
        (s'.session ()).prog = some (.ofExcept (p.alone refused (w s.store) s.store).result) from
    h (System.init (fun _ => p) d) id [] rfl
  induction p with
  | ret a => exact fun s w ks hs => ⟨s, .refl, rfl, congrArg Session.prog hs⟩
  | raise e => exact fun s w ks hs => ⟨s, .refl, rfl, congrArg Session.prog hs⟩
  | stmt l act next ih =>
    intro s w ks hs
    by_cases hl : refused l = true
    · obtain ⟨s', hs', h⟩ := ih none (s.set () (.idle (some (next none)))) id []
        (System.set_session_self ..)
      refine ⟨s', (Reach.refl.step (.stmt_fail hs)).trans hs', ?_⟩
      rwa [Prog.alone, if_pos hl]
    · have hfree : s.Free () (act.locks (w s.store)) := fun j hj => absurd rfl hj
      obtain ⟨s', hs', h⟩ := ih (some (w s.store)) (s.set () ⟨some (next (some (w s.store))),
        act.write (w s.store) ∘ w, act.locks (w s.store) ++ ks⟩) _ _ (System.set_session_self ..)
      refine ⟨s', (Reach.refl.step (.stmt hs trivial hfree)).trans hs', ?_⟩
      rwa [Prog.alone, if_neg hl]
  | commit next ih =>
    intro s w ks hs
    have hidle : (s.set () (.idle (some (next true)))).session () = ⟨some (next true), id, []⟩ :=
      System.set_session_self ..
    obtain ⟨s', hs', h⟩ :=
      ih true ⟨w s.store, (s.set () (.idle (some (next true)))).session⟩ id [] hidle
    exact ⟨s', (Reach.refl.step (.commit hs)).trans hs', h⟩
  | rollback next ih =>
    intro s w ks hs
    obtain ⟨s', hs', h⟩ :=
      ih true (s.set () (.idle (some (next true)))) id [] (System.set_session_self ..)
    exact ⟨s', (Reach.refl.step (.rollback hs)).trans hs', h⟩

end ReadCommitted
