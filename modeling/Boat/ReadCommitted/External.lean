import Boat.ReadCommitted.Serial

/-!
# Programs with effects outside of the store

A program may also change something outside of the store, which has no part in its transaction: some
of its statements have an effect that takes place at once, and that no rollback undoes. Such
programs run one after the other, and may fail or be stopped where `mayFail` allows it, of what a
program has executed so far (`Prog.Runs`).

* `Prog.always`: the weakest precondition of a program for all of its runs, see `Prog.Runs.sound`.
* `always_bind`, `always_exec`: its rules.
-/

namespace ReadCommitted

variable {D K L S ε α β : Type} [Locking D K]

/-- What is left by a program that has ended, or has been stopped (`none`). -/
structure Ending (D S ε α : Type) where
  result : Option (Except ε α)
  store : D
  external : S

namespace Prog

variable (effect : L → S → S) (mayFail : List L → Prop)

/-- The runs of a program that has executed the statements `ls`, from what its session sees, the
    committed store and what is outside of it. A failure loses the transaction. -/
inductive Runs : Prog D L ε α → List L → D → D → S → Ending D S ε α → Prop
  | ret {a ls v d s} : Runs (.ret a) ls v d s ⟨some (.ok a), d, s⟩
  | raise {e ls v d s} : Runs (.raise e) ls v d s ⟨some (.error e), d, s⟩
  | stmt {l act next ls v d s o} : Runs (next (some v)) (l :: ls) (act.write v v) d (effect l s) o →
      Runs (.stmt l act next) ls v d s o
  | stmt_fail {l act next ls v d s o} : mayFail ls → Runs (next none) ls d d s o →
    Runs (.stmt l act next) ls v d s o
  | commit {next ls v d s o} : Runs (next true) ls v v s o → Runs (.commit next) ls v d s o
  | commit_fail {next ls v d s o} : mayFail ls → Runs (next false) ls d d s o →
    Runs (.commit next) ls v d s o
  | rollback {next ls v d s o} : Runs (next true) ls d d s o → Runs (.rollback next) ls v d s o
  | rollback_fail {next ls v d s o} : mayFail ls → Runs (next false) ls d d s o →
    Runs (.rollback next) ls v d s o
  | stop {p ls v d s} : mayFail ls → ¬p.Ended → Runs p ls v d s ⟨none, d, s⟩

/-- The run in which the steps fail that `faults` says, of the first ones on. -/
def run : Prog D L ε α → List Bool → D → D → S → Ending D S ε α
  | .ret a, _, _, d, s => ⟨some (.ok a), d, s⟩
  | .raise e, _, _, d, s => ⟨some (.error e), d, s⟩
  | .stmt l act next, faults, v, d, s =>
    if faults.headD false then run (next none) faults.tail d d s
    else run (next (some v)) faults.tail (act.write v v) d (effect l s)
  | .commit next, faults, v, d, s =>
    if faults.headD false then run (next false) faults.tail d d s
    else run (next true) faults.tail v v s
  | .rollback next, faults, _, d, s =>
    if faults.headD false then run (next false) faults.tail d d s
    else run (next true) faults.tail d d s

/-- What a program has executed, after `ls`, before each step of this run that fails. -/
def failsAfter : Prog D L ε α → List Bool → List L → D → D → List (List L)
  | .ret _, _, _, _, _ => []
  | .raise _, _, _, _, _ => []
  | .stmt l act next, faults, ls, v, d =>
    if faults.headD false then ls :: failsAfter (next none) faults.tail ls d d
    else failsAfter (next (some v)) faults.tail (l :: ls) (act.write v v) d
  | .commit next, faults, ls, v, d =>
    if faults.headD false then ls :: failsAfter (next false) faults.tail ls d d
    else failsAfter (next true) faults.tail ls v v
  | .rollback next, faults, ls, _, d =>
    if faults.headD false then ls :: failsAfter (next false) faults.tail ls d d
    else failsAfter (next true) faults.tail ls d d

/-- Every run of the program that returns establishes `Q`, and every other one establishes `X`, of
    the exception it raises, if any. -/
def always (Q : α → List L → D → D → S → Prop) (X : Option ε → D → S → Prop) :
    Prog D L ε α → List L → D → D → S → Prop
  | .ret a, ls, v, d, s => Q a ls v d s
  | .raise e, _, _, d, s => X (some e) d s
  | .stmt l act next, ls, v, d, s =>
    always Q X (next (some v)) (l :: ls) (act.write v v) d (effect l s) ∧
      (mayFail ls → always Q X (next none) ls d d s ∧ X none d s)
  | .commit next, ls, v, d, s =>
    always Q X (next true) ls v v s ∧ (mayFail ls → always Q X (next false) ls d d s ∧ X none d s)
  | .rollback next, ls, _, d, s =>
    always Q X (next true) ls d d s ∧ (mayFail ls → always Q X (next false) ls d d s ∧ X none d s)

/-- What an ending establishes. -/
def Ending.Satisfies (Q : α → D → S → Prop) (X : Option ε → D → S → Prop)
    (o : Ending D S ε α) : Prop :=
  match o.result with
  | some (.ok a) => Q a o.store o.external
  | some (.error e) => X (some e) o.store o.external
  | none => X none o.store o.external

variable {effect mayFail} {Q : α → List L → D → D → S → Prop} {X : Option ε → D → S → Prop}
  {ls : List L} {v d : D} {s : S}

/-- Every run establishes what the program always does. -/
theorem Runs.sound {p : Prog D L ε α} {o : Ending D S ε α} (h : Runs effect mayFail p ls v d s o)
    (hp : always effect mayFail Q X p ls v d s) :
    Ending.Satisfies (fun a d s => ∃ ls v, Q a ls v d s) X o := by
  induction h with
  | ret => exact ⟨_, _, hp⟩
  | raise => exact hp
  | stmt _ ih => exact ih hp.1
  | stmt_fail hfail _ ih => exact ih (hp.2 hfail).1
  | commit _ ih => exact ih hp.1
  | commit_fail hfail _ ih => exact ih (hp.2 hfail).1
  | rollback _ ih => exact ih hp.1
  | rollback_fail hfail _ ih => exact ih (hp.2 hfail).1
  | @stop p _ _ _ _ hfail hended =>
    cases p with
    | ret a => exact absurd trivial hended
    | raise e => exact absurd trivial hended
    | stmt l act next => exact (hp.2 hfail).2
    | commit next => exact (hp.2 hfail).2
    | rollback next => exact (hp.2 hfail).2

/-- No step fails if none is to. -/
theorem failsAfter_nil (p : Prog D L ε α) : p.failsAfter [] ls v d = [] := by
  induction p generalizing ls v d with
  | ret a => rfl
  | raise e => rfl
  | stmt l act next ih => exact ih _
  | commit next ih => exact ih _
  | rollback next ih => exact ih _

/-- The run is one, where no step fails that may not. -/
theorem runs_run {p : Prog D L ε α} {faults : List Bool}
    (h : ∀ ls' ∈ p.failsAfter faults ls v d, mayFail ls') :
    Runs effect mayFail p ls v d s (p.run effect faults v d s) := by
  induction p generalizing ls v d s faults with
  | ret a => exact .ret
  | raise e => exact .raise
  | stmt l act next ih =>
    rw [failsAfter] at h
    rw [run]
    split
    · next hfault =>
      rw [if_pos hfault] at h
      exact .stmt_fail (h _ List.mem_cons_self) (ih _ fun _ hls => h _ (List.mem_cons_of_mem _ hls))
    · next hfault =>
      rw [if_neg hfault] at h
      exact .stmt (ih _ h)
  | commit next ih =>
    rw [failsAfter] at h
    rw [run]
    split
    · next hfault =>
      rw [if_pos hfault] at h
      exact .commit_fail (h _ List.mem_cons_self) (ih _ fun _ hls => h _ (List.mem_cons_of_mem _ hls))
    · next hfault =>
      rw [if_neg hfault] at h
      exact .commit (ih _ h)
  | rollback next ih =>
    rw [failsAfter] at h
    rw [run]
    split
    · next hfault =>
      rw [if_pos hfault] at h
      exact .rollback_fail (h _ List.mem_cons_self)
        (ih _ fun _ hls => h _ (List.mem_cons_of_mem _ hls))
    · next hfault =>
      rw [if_neg hfault] at h
      exact .rollback (ih _ h)

/-- What a program always does, it does of anything that follows. -/
theorem always_mono {Q' : α → List L → D → D → S → Prop} {X' : Option ε → D → S → Prop}
    (hQ : ∀ a ls v d s, Q a ls v d s → Q' a ls v d s) (hX : ∀ e d s, X e d s → X' e d s)
    {p : Prog D L ε α} (h : always effect mayFail Q X p ls v d s) :
    always effect mayFail Q' X' p ls v d s := by
  induction p generalizing ls v d s with
  | ret a => exact hQ _ _ _ _ _ h
  | raise e => exact hX _ _ _ h
  | stmt l act next ih => exact ⟨ih _ h.1, fun hfail => ⟨ih _ (h.2 hfail).1, hX _ _ _ (h.2 hfail).2⟩⟩
  | commit next ih => exact ⟨ih _ h.1, fun hfail => ⟨ih _ (h.2 hfail).1, hX _ _ _ (h.2 hfail).2⟩⟩
  | rollback next ih => exact ⟨ih _ h.1, fun hfail => ⟨ih _ (h.2 hfail).1, hX _ _ _ (h.2 hfail).2⟩⟩

theorem always_bind {Q : β → List L → D → D → S → Prop} {p : Prog D L ε α} {f : α → Prog D L ε β} :
    always effect mayFail Q X (p.bind f) ls v d s ↔
      always effect mayFail (fun a => always effect mayFail Q X (f a)) X p ls v d s := by
  induction p generalizing ls v d s with
  | ret a => rfl
  | raise e => rfl
  | stmt l act next ih => simp only [bind, always, ih]
  | commit next ih => simp only [bind, always, ih]
  | rollback next ih => simp only [bind, always, ih]

theorem always_bind_eq {Q : β → List L → D → D → S → Prop} {p : Prog D L ε α} {f : α → Prog D L ε β} :
    always effect mayFail Q X (p.bind f) =
      always effect mayFail (fun a => always effect mayFail Q X (f a)) X p := by
  funext ls v d s
  exact propext always_bind

theorem always_pure {a : α} : always effect mayFail Q X (pure a) = Q a := rfl

/-- A command runs, is refused, or fails. -/
theorem always_exec {l : L} {fault : ε} {c : Command D ε α} :
    always effect mayFail Q X (exec l fault c) ls v d s ↔
      (match c.run v with
        | .ok (a, w) => Q a (l :: ls) (w v) d (effect l s)
        | .error e => X (some e) d (effect l s) ∧ (mayFail (l :: ls) → X none d (effect l s))) ∧
      (mayFail ls → X (some fault) d s ∧ X none d s) := by
  simp only [exec, always, Command.action]
  rcases c.run v with e | ⟨a, w⟩
  · simp only [always]
    refine and_congr_left' (and_congr_right fun he => ?_)
    exact imp_congr_right fun _ => and_iff_right he
  · rfl

theorem always_query {l : L} {fault : ε} {locks : D → List K} {f : D → α} :
    always effect mayFail Q X (exec l fault (.query locks f)) ls v d s ↔
      Q (f v) (l :: ls) v d (effect l s) ∧ (mayFail ls → X (some fault) d s ∧ X none d s) :=
  always_exec

theorem always_modify {l : L} {fault : ε} {f : D → α} {locks : α → List K} {w : α → D → D}
    {hw : ∀ a, Touches (locks a) (w a)} :
    always effect mayFail Q X (exec l fault (.modify f locks w hw)) ls v d s ↔
      Q (f v) (l :: ls) (w (f v) v) d (effect l s) ∧
      (mayFail ls → X (some fault) d s ∧ X none d s) := always_exec

theorem always_insert {Q : Unit → List L → D → D → S → Prop} {l : L} {fault : ε} {η : Type}
    {lock : η → K} {hasEntry : D → η → Bool} {refused : η → ε} {entries : List η} {w : D → D}
    {hw : Touches (entries.map lock) w}
    (hQ : (∀ e ∈ entries, hasEntry v e = false) → Q () (l :: ls) (w v) d (effect l s))
    (hrefused : ∀ e ∈ entries, hasEntry v e = true →
      X (some (refused e)) d (effect l s) ∧ (mayFail (l :: ls) → X none d (effect l s)))
    (hfail : mayFail ls → X (some fault) d s ∧ X none d s) :
    always effect mayFail Q X
      (exec l fault (.insert lock hasEntry refused entries w hw)) ls v d s := by
  refine always_exec.2 ⟨?_, hfail⟩
  simp only [Command.insert]
  rcases hf : entries.find? (hasEntry v ·) with - | e
  · exact hQ fun e he => by simpa using List.find?_eq_none.1 hf e he
  · exact hrefused e (List.mem_of_find?_eq_some hf) (List.find?_some hf)

theorem always_commitOr {fault : ε} {Q : Unit → List L → D → D → S → Prop} :
    always effect mayFail Q X (commitOr fault : Prog D L ε Unit) ls v d s ↔
      Q () ls v v s ∧ (mayFail ls → X (some fault) d s ∧ X none d s) := .rfl

end Prog

end ReadCommitted
