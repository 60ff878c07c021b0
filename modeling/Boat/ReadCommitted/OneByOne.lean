import Boat.ReadCommitted.Alone
import Boat.ReadCommitted.Serial

/-!
# Requests one by one

What a program leaves that has the store for itself, while its statements and its commit may fail,
and it may be interrupted or crash (`Leaves`). A program that raises where something fails, and
returns after its commit if it has one (`Prog.Plain`), leaves the store as it is, or does what it
does when nothing fails (`Prog.Plain.leaves`).

* `Prog.relabel`: programs keep what they do when their statements and exceptions are renamed, so that
  requests can be put together from the programs of several repositories.
* `Serial.refines`: if each request refines a step of a specification, serial runs refine its runs.
-/

namespace ReadCommitted

variable {D K L L' ε ε' α β : Type} [Locking D K]

/-- The answer of a program that has ended. -/
def Prog.answer : Prog D L ε α → Option (Except ε α)
  | .ret a => some (.ok a)
  | .raise e => some (.error e)
  | _ => none

/-- A session that has the store `d` for itself may leave the store `d'`, with the answer `x` if its
    program has ended. -/
def Leaves (p : Prog D L ε α) (d d' : D) (x : Option (Except ε α)) : Prop :=
  ∃ s : System Unit D L ε α, Reach Always (System.init (fun _ => p) d) s ∧ s.store = d' ∧
    x = (s.session ()).prog.bind Prog.answer

namespace Prog

/-- A program that raises where something fails, and returns after its commit. -/
def Plain : Prog D L ε α → Prop
  | .ret _ | .raise _ => True
  | .stmt _ _ next => (∃ e, next none = .raise e) ∧ ∀ v, (next (some v)).Plain
  | .commit next => (∃ a, next true = .ret a) ∧ ∃ e, next false = .raise e
  | .rollback next => ∀ b, ∃ e, next b = .raise e

theorem Plain.bind {p : Prog D L ε α} {f : α → Prog D L ε β} (hp : p.Deferred)
    (hf : ∀ a, (f a).Plain) :
    (p.bind f).Plain := by
  induction p with
  | ret a => exact hf a
  | raise e => trivial
  | stmt l act next ih =>
    obtain ⟨⟨e, he⟩, hp⟩ := hp
    exact ⟨⟨e, congrArg (·.bind f) he⟩, fun v => ih _ (hp v)⟩
  | commit next => exact hp.elim
  | rollback next =>
    intro b
    obtain ⟨e, he⟩ := hp b
    exact ⟨e, congrArg (·.bind f) he⟩

theorem Deferred.plain {p : Prog D L ε α} (hp : p.Deferred) : p.Plain := by
  induction p with
  | ret a | raise e => trivial
  | stmt l act next ih => exact ⟨hp.1, fun v => ih _ (hp.2 v)⟩
  | commit next => exact hp.elim
  | rollback next => exact hp

theorem plain_commitOr (fault : ε) (a : α) :
    ((commitOr fault : Prog D L ε Unit).bind fun _ => .ret a).Plain :=
  ⟨⟨a, rfl⟩, fault, rfl⟩

theorem Plain.map {f : α → β} {p : Prog D L ε α}
    (hp : p.Plain) : (p.bind fun a => .ret (f a)).Plain := by
  induction p with
  | ret a | raise e => trivial
  | stmt l act next ih =>
    obtain ⟨⟨e, he⟩, hp⟩ := hp
    exact ⟨⟨e, congrArg (·.bind fun a => .ret (f a)) he⟩, fun v => ih _ (hp v)⟩
  | commit next =>
    obtain ⟨⟨a, ha⟩, e, he⟩ := hp
    exact ⟨⟨f a, congrArg (·.bind fun a => .ret (f a)) ha⟩, e,
      congrArg (·.bind fun a => .ret (f a)) he⟩
  | rollback next =>
    intro b
    obtain ⟨e, he⟩ := hp b
    exact ⟨e, congrArg (·.bind fun a => .ret (f a)) he⟩

/-- The outcome of a program that runs alone while nothing fails. -/
def serve (p : Prog D L ε α) (d : D) : Outcome D ε α := p.alone (fun _ => false) d d

theorem serve_map {f : α → β} {p : Prog D L ε α} {d : D} :
    ((p.bind fun a => .ret (f a)).serve d).result = (p.serve d).result.map f ∧
      ((p.bind fun a => .ret (f a)).serve d).store = (p.serve d).store := by
  rw [serve, serve, alone_bind]
  rcases p.alone (fun _ => false) d d with ⟨result, v, d'⟩
  rcases result with e | a
  · exact ⟨rfl, rfl⟩
  · exact ⟨rfl, rfl⟩

end Prog

/-- An outcome with a result that satisfies `Q`, or with an exception, which leaves the store `d` as
    it is. -/
def Outcome.Answers (o : Outcome D ε α) (d : D) (Q : α → D → Prop) : Prop :=
  (∃ a, o.result = .ok a ∧ Q a o.store) ∨ (∃ e, o.result = .error e) ∧ o.store = d

theorem Outcome.Answers.map {p : Prog D L ε α} {d : D} {f : α → β} {Q : β → D → Prop}
    (h : (p.serve d).Answers d fun a => Q (f a)) :
    ((p.bind fun a => .ret (f a)).serve d).Answers d Q := by
  obtain ⟨hresult, hstore⟩ := Prog.serve_map (p := p) (d := d) (f := f)
  rcases h with ⟨a, ha, hQ⟩ | ⟨⟨e, he⟩, hd⟩
  · exact .inl ⟨f a, by rw [hresult, ha]; rfl, by rwa [hstore]⟩
  · exact .inr ⟨⟨e, by rw [hresult, he]; rfl⟩, hstore.trans hd⟩

section

variable {p : Prog D L ε α} {d : D}

/-- Where a plain program may be that has the store for itself. -/
inductive Prog.Stage (p : Prog D L ε α) (d : D) (s : System Unit D L ε α) : Prop
  /-- It goes on to the outcome of the whole program, and has not committed. -/
  | running (q : Prog D L ε α) (w : D → D) (ks : List K) (hs : s.session () = ⟨some q, w, ks⟩)
    (hplain : q.Plain)
      (hd : s.store = d) (hresult : (q.alone (fun _ => false) (w d) d).result = (p.serve d).result)
      (hstore : (q.alone (fun _ => false) (w d) d).store = (p.serve d).store)
  /-- It has failed. -/
  | failed (hs : ∀ q, (s.session ()).prog = some q → ∃ e, q = .raise e) (hd : s.store = d)
  /-- It has committed. -/
  | committed (a : α) (hs : (s.session ()).prog = some (.ret a))
    (hresult : (p.serve d).result = .ok a)
      (hstore : (p.serve d).store = s.store)

/-- Each step goes on to the next stage, or fails. -/
theorem Prog.Stage.step {s s' : System Unit D L ε α} {m : Move Unit} (h : p.Stage d s)
    (hst : Step Always s m s') :
    p.Stage d s' := by
  have hrest {q q' : Prog D L ε α} {w w' : D → D} {ks ks' : List K}
      (hs : s.session () = ⟨some q, w, ks⟩)
        (hs' : s.session () = ⟨some q', w', ks'⟩) : q = q' ∧ w = w' ∧ ks = ks' := by
    simpa using hs.symm.trans hs'
  -- A step to a session that has failed, or to one that is closed.
  have hfail {q : Option (Prog D L ε α)} {w : D → D} {ks : List K} (hd : s.store = d)
      (hq : ∀ q', q = some q' → ∃ e, q' = .raise e) : p.Stage d (s.set () ⟨q, w, ks⟩) := by
    refine .failed (fun q' hq' => hq q' ?_) hd
    rwa [System.set_session_self] at hq'
  cases h with
  | running q w ks hs hplain hd hresult hstore =>
    cases hst with
    | stmt hs' =>
      obtain ⟨rfl, rfl, rfl⟩ := hrest hs hs'
      subst hd
      exact .running _ _ _ (System.set_session_self ..) (hplain.2 _) rfl hresult hstore
    | stmt_fail hs' | interrupt hs' =>
      obtain ⟨rfl, rfl, rfl⟩ := hrest hs hs'
      exact hfail hd fun q' hq' => Option.some.inj hq' ▸ hplain.1
    | commit hs' =>
      obtain ⟨rfl, rfl, rfl⟩ := hrest hs hs'
      subst hd
      obtain ⟨⟨a, ha⟩, -⟩ := hplain
      rw [Prog.alone, ha] at hresult hstore
      refine .committed a ?_ hresult.symm hstore.symm
      exact (congrArg Session.prog (System.set_session_self ..)).trans (congrArg some ha)
    | commit_fail hs' =>
      obtain ⟨rfl, rfl, rfl⟩ := hrest hs hs'
      exact hfail hd fun q' hq' => Option.some.inj hq' ▸ hplain.2
    | rollback hs' | rollback_fail hs' =>
      obtain ⟨rfl, rfl, rfl⟩ := hrest hs hs'
      exact hfail hd fun q' hq' => Option.some.inj hq' ▸ hplain _
    | crash hs' => exact hfail hd fun q' hq' => by cases hq'
    | close hs' hended =>
      obtain ⟨rfl, rfl, rfl⟩ := hrest hs hs'
      cases q with
      | ret a => exact .running _ _ _ (System.set_session_self ..) trivial hd hresult hstore
      | raise e => exact hfail hd fun q' hq' => ⟨e, (Option.some.inj hq').symm⟩
      | stmt | commit | rollback => exact hended.elim
  | failed hs hd =>
    cases hst with
    | stmt hs' | stmt_fail hs' | interrupt hs' | commit hs' | commit_fail hs' | rollback hs'
      | rollback_fail hs' =>
      obtain ⟨e, he⟩ := hs _ (congrArg Session.prog hs')
      cases he
    | crash hs' => exact hfail hd fun q' hq' => by cases hq'
    | close hs' =>
      exact hfail hd fun q' hq' => Option.some.inj hq' ▸ hs _ (congrArg Session.prog hs')
  | committed a hs hresult hstore =>
    have hret {q : Prog D L ε α} {w : D → D} {ks : List K}
        (hs' : s.session () = ⟨some q, w, ks⟩) : q = .ret a :=
      Option.some.inj ((congrArg Session.prog hs').symm.trans hs)
    cases hst with
    | stmt hs' | stmt_fail hs' | interrupt hs' | commit hs' | commit_fail hs' | rollback hs'
      | rollback_fail hs' =>
      cases hret hs'
    | crash hs' hended =>
      cases hret hs'
      exact absurd trivial hended
    | close hs' =>
      cases hret hs'
      exact .committed a (congrArg Session.prog (System.set_session_self ..)) hresult hstore

/-- A plain program leaves the store as it is and has not returned, or leaves what it does alone,
    and returns that. -/
theorem Prog.Plain.leaves (hp : p.Plain) {d' : D} {x : Option (Except ε α)} (h : Leaves p d d' x) :
    (d' = d ∧ ∀ a, x ≠ some (.ok a)) ∨ (∃ a, (p.serve d).result = .ok a ∧ x = some (.ok a)) ∧
    (p.serve d).store = d' := by
  obtain ⟨s, hs, rfl, rfl⟩ := h
  have hstage : p.Stage d s := by
    induction hs with
    | refl => exact .running p id [] rfl hp rfl rfl rfl
    | step _ hst ih => exact ih.step hst
  cases hstage with
  | running q w ks hs hplain hd hresult hstore =>
    rw [hs]
    cases q with
    | ret a =>
      refine .inr ⟨⟨a, hresult.symm, rfl⟩, hstore.symm.trans hd.symm⟩
    | raise | stmt | commit | rollback =>
      refine .inl ⟨hd, fun a ha => ?_⟩
      cases ha
  | failed hs hd =>
    refine .inl ⟨hd, fun a ha => ?_⟩
    rcases hq : (s.session ()).prog with - | q
    · rw [hq] at ha
      cases ha
    · obtain ⟨e, rfl⟩ := hs q hq
      rw [hq] at ha
      cases ha
  | committed a hs hresult hstore =>
    rw [hs]
    exact .inr ⟨⟨a, hresult, rfl⟩, hstore⟩

/-- When nothing fails, a program leaves what it does alone. -/
theorem leaves_serve (p : Prog D L ε α) (d : D) :
    Leaves p d (p.serve d).store (some (p.serve d).result) := by
  obtain ⟨s, hs, hstore, hprog⟩ := exists_reach_alone (fun _ => false) p d
  refine ⟨s, hs, hstore, ?_⟩
  rw [hprog, Option.bind_some]
  show some (p.alone _ d d).result = _
  rcases (p.alone (fun _ => false) d d).result with e | a
  · rfl
  · rfl

end

/-! ## Renamed statements -/

namespace Prog

/-- The program with other names for its statements and exceptions. -/
def relabel (label : L → L') (error : ε → ε') : Prog D L ε α → Prog D L' ε' α
  | .ret a => .ret a
  | .raise e => .raise (error e)
  | .stmt l act next => .stmt (label l) act fun v => (next v).relabel label error
  | .commit next => .commit fun b => (next b).relabel label error
  | .rollback next => .rollback fun b => (next b).relabel label error

variable {label : L → L'} {error : ε → ε'} {p : Prog D L ε α}

theorem Deferred.relabel (hp : p.Deferred) : (p.relabel label error).Deferred := by
  induction p with
  | ret a | raise e => trivial
  | stmt l act next ih =>
    obtain ⟨⟨e, he⟩, hp⟩ := hp
    exact ⟨⟨error e, congrArg (·.relabel label error) he⟩, fun v => ih _ (hp v)⟩
  | commit next => exact hp.elim
  | rollback next =>
    intro b
    obtain ⟨e, he⟩ := hp b
    exact ⟨error e, congrArg (·.relabel label error) he⟩

theorem Plain.relabel (hp : p.Plain) : (p.relabel label error).Plain := by
  induction p with
  | ret a | raise e => trivial
  | stmt l act next ih =>
    obtain ⟨⟨e, he⟩, hp⟩ := hp
    exact ⟨⟨error e, congrArg (·.relabel label error) he⟩, fun v => ih _ (hp v)⟩
  | commit next =>
    obtain ⟨⟨a, ha⟩, e, he⟩ := hp
    exact ⟨⟨a, congrArg (·.relabel label error) ha⟩, error e, congrArg (·.relabel label error) he⟩
  | rollback next =>
    intro b
    obtain ⟨e, he⟩ := hp b
    exact ⟨error e, congrArg (·.relabel label error) he⟩

/-- A renamed program that runs alone while nothing fails does what it did. -/
theorem alone_relabel {v d : D} :
    (p.relabel label error).alone (fun _ => false) v d =
      let o := p.alone (fun _ => false) v d
      ⟨o.result.mapError error, o.view, o.store⟩ := by
  induction p generalizing v d with
  | ret a | raise e => rfl
  | stmt l act next ih => exact ih _
  | commit next ih => exact ih _
  | rollback next ih => exact ih _

end Prog

/-! ## Refinement -/

/-- If every step from related states is a step of the specification to related states, serial runs
    are. -/
theorem Serial.refines {ι A : Type} {T : ι → D → D → Prop} {U : ι → A → A → Prop} {R : D → A → Prop}
    (h : ∀ i d d' a, R d a → T i d d' → ∃ a', U i a a' ∧ R d' a') {d d' : D} {a : A} {log : List ι}
    (hlog : Serial T d log d') (ha : R d a) : ∃ a', Serial U a log a' ∧ R d' a' := by
  induction hlog with
  | nil => exact ⟨a, .nil, ha⟩
  | snoc _ hstep ih =>
    obtain ⟨a', hlog, ha'⟩ := ih
    obtain ⟨a'', hstep, ha''⟩ := h _ _ _ _ ha' hstep
    exact ⟨a'', .snoc hlog hstep, ha''⟩

end ReadCommitted
