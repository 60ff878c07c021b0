import Boat.ReadCommitted.Logic

/-!
# Deferred programs

A program may run in the transaction of its caller, which commits (`Prog.Deferred`). Often it is
enough to know what all of its writes have in common (`Prog.Within`, `Protocol.wp_within`).

What a program does after it has committed says which of its sessions have changed the store: if it
ends there (`Prog.CommitsLast`), then only sessions that return have (`Reach.returned_of_commit`).
-/

namespace ReadCommitted

variable {ι D K L ε α β : Type} [Locking D K]

/-- A program in the transaction of its caller: it does not commit, and after a failure or a
    rollback it raises. -/
def Prog.Deferred : Prog D L ε α → Prop
  | .ret _ | .raise _ => True
  | .stmt _ _ next => (∃ e, next none = .raise e) ∧ ∀ v, (next (some v)).Deferred
  | .commit _ => False
  | .rollback next => ∀ b, ∃ e, next b = .raise e

theorem Prog.Deferred.bind {p : Prog D L ε α} {f : α → Prog D L ε β} (hp : p.Deferred)
    (hf : ∀ a, (f a).Deferred) :
    (p.bind f).Deferred := by
  induction p with
  | ret a => exact hf a
  | raise e => trivial
  | stmt l act next ih =>
    obtain ⟨⟨e, he⟩, hp⟩ := hp
    exact ⟨⟨e, congrArg (·.bind f) he⟩, fun v => ih _ (hp v)⟩
  | commit next => exact hp.elim
  | rollback next =>
    intro b
    obtain ⟨e, he⟩ := hp b
    exact ⟨e, congrArg (·.bind f) he⟩

theorem Prog.Deferred.exec (l : L) (fault : ε) (c : Command D ε α) :
    (Prog.exec l fault c).Deferred := by
  refine ⟨⟨fault, rfl⟩, fun v => ?_⟩
  rcases h : c.run v with e | ⟨a, w⟩
  · simp only [h]
    exact fun _ => ⟨e, rfl⟩
  · simp only [h]
    trivial

namespace Prog

variable {W : (D → D) → Prop}

/-- Every write of the program satisfies `W`. -/
def Writes (W : (D → D) → Prop) : Prog D L ε α → Prop
  | .ret _ | .raise _ => True
  | .stmt _ act next => (∀ v, W (act.write v)) ∧ ∀ v, (next v).Writes W
  | .commit next => ∀ b, (next b).Writes W
  | .rollback next => ∀ b, (next b).Writes W

theorem Writes.of_forall (hW : ∀ w, W w) (p : Prog D L ε α) : p.Writes W := by
  induction p with
  | ret a => trivial
  | raise e => trivial
  | stmt l act next ih => exact ⟨fun v => hW _, ih⟩
  | commit next ih => exact ih
  | rollback next ih => exact ih

theorem Writes.bind {p : Prog D L ε α} {f : α → Prog D L ε β} (hp : p.Writes W)
    (hf : ∀ a, (f a).Writes W) :
    (p.bind f).Writes W := by
  induction p with
  | ret a => exact hf a
  | raise e => trivial
  | stmt l act next ih => exact ⟨hp.1, fun v => ih v (hp.2 v)⟩
  | commit next ih => exact fun b => ih b (hp b)
  | rollback next ih => exact fun b => ih b (hp b)

theorem Writes.handle {p : Prog D L ε α} {h : ε → Prog D L ε α} (hp : p.Writes W)
    (hh : ∀ e, (h e).Writes W) :
    (p.handle h).Writes W := by
  induction p with
  | ret a => trivial
  | raise e => exact hh e
  | stmt l act next ih => exact ⟨hp.1, fun v => ih v (hp.2 v)⟩
  | commit next ih => exact fun b => ih b (hp b)
  | rollback next ih => exact fun b => ih b (hp b)

theorem Writes.exec {l : L} {fault : ε} {c : Command D ε α} (hid : W id)
    (hc : ∀ v a u, c.run v = .ok (a, u) → W u) :
    (Prog.exec l fault c).Writes W := by
  refine ⟨fun v => ?_, fun v => ?_⟩
  · simp only [Command.action]
    rcases h : c.run v with e | ⟨a, u⟩
    · exact hid
    · exact hc v a u h
  · rcases v with - | v
    · trivial
    · rcases h : c.run v with e | ⟨a, u⟩
      · simp only [h]
        exact fun _ => trivial
      · simp only [h]
        trivial

/-- A deferred program, every write of which satisfies `W`. -/
def Within (W : (D → D) → Prop) (p : Prog D L ε α) : Prop := p.Deferred ∧ p.Writes W

theorem Within.bind {p : Prog D L ε α} {f : α → Prog D L ε β} (hp : p.Within W)
    (hf : ∀ a, (f a).Within W) :
    (p.bind f).Within W :=
  ⟨hp.1.bind fun a => (hf a).1, hp.2.bind fun a => (hf a).2⟩

theorem Within.ret (a : α) : (Prog.ret a : Prog D L ε α).Within W := ⟨trivial, trivial⟩

theorem Within.raise (e : ε) : (Prog.raise e : Prog D L ε α).Within W := ⟨trivial, trivial⟩

theorem Within.exec {l : L} {fault : ε} {c : Command D ε α} (hid : W id)
    (hc : ∀ v a u, c.run v = .ok (a, u) → W u) :
    (Prog.exec l fault c).Within W :=
  ⟨.exec l fault c, .exec hid hc⟩

/-- Everything the program may return satisfies `R`. -/
def Returns (R : α → Prop) : Prog D L ε α → Prop
  | .ret a => R a
  | .raise _ => True
  | .stmt _ _ next => ∀ v, (next v).Returns R
  | .commit next => ∀ b, (next b).Returns R
  | .rollback next => ∀ b, (next b).Returns R

theorem Returns.of_forall {R : α → Prop} (h : ∀ a, R a) (p : Prog D L ε α) : p.Returns R := by
  induction p with
  | ret a => exact h a
  | raise e => trivial
  | stmt l act next ih => exact ih
  | commit next ih => exact ih
  | rollback next ih => exact ih

@[simp] theorem returns_bind {R : β → Prop} {p : Prog D L ε α} {f : α → Prog D L ε β} :
    (p.bind f).Returns R ↔ p.Returns fun a => (f a).Returns R := by
  induction p with
  | ret a => rfl
  | raise e => rfl
  | stmt l act next ih => exact forall_congr' ih
  | commit next ih => exact forall_congr' ih
  | rollback next ih => exact forall_congr' ih

theorem Returns.handle {R : α → Prop} {p : Prog D L ε α} {h : ε → Prog D L ε α} (hp : p.Returns R)
    (hh : ∀ e, (h e).Returns R) : (p.handle h).Returns R := by
  induction p with
  | ret a => exact hp
  | raise e => exact hh e
  | stmt l act next ih => exact fun v => ih v (hp v)
  | commit next ih => exact fun b => ih b (hp b)
  | rollback next ih => exact fun b => ih b (hp b)

/-- After a commit, the program ends. -/
def CommitsLast : Prog D L ε α → Prop
  | .ret _ | .raise _ => True
  | .stmt _ _ next => ∀ v, (next v).CommitsLast
  | .commit next => (∃ a, next true = .ret a) ∧ ∃ e, next false = .raise e
  | .rollback next => ∀ b, (next b).CommitsLast

theorem CommitsLast.bind {p : Prog D L ε α} {f : α → Prog D L ε β} (hp : p.Deferred)
    (hf : ∀ a, (f a).CommitsLast) :
    (p.bind f).CommitsLast := by
  induction p with
  | ret a => exact hf a
  | raise e => trivial
  | stmt l act next ih =>
    obtain ⟨⟨e, he⟩, hp⟩ := hp
    rintro (- | v)
    · show ((next none).bind f).CommitsLast
      rw [he]
      trivial
    · exact ih _ (hp v)
  | commit next => exact hp.elim
  | rollback next =>
    intro b
    obtain ⟨e, he⟩ := hp b
    show ((next b).bind f).CommitsLast
    rw [he]
    trivial

theorem CommitsLast.map {p : Prog D L ε α} {f : α → β}
    (hp : p.CommitsLast) : (p.bind fun a => .ret (f a)).CommitsLast := by
  induction p with
  | ret a => trivial
  | raise e => trivial
  | stmt l act next ih => exact fun v => ih v (hp v)
  | commit next =>
    obtain ⟨⟨a, ha⟩, e, he⟩ := hp
    exact ⟨⟨f a, congrArg (·.bind fun a => .ret (f a)) ha⟩, e,
      congrArg (·.bind fun a => .ret (f a)) he⟩
  | rollback next ih => exact fun b => ih b (hp b)

end Prog

namespace Protocol

variable {P : Protocol ι D K L} {i : ι} {Q : Post D K α} {E : Post D K ε} {W : (D → D) → Prop}
  {w : D → D} {ks : List K}
  {d : D}

/-- A deferred program makes writes that satisfy what each of them does, and compositions do. -/
theorem wp_within {p : Prog D L ε α} (hp : p.Within W) (hcomp : ∀ u w, W u → W w → W (u ∘ w))
    (hinv : P.inv d) (hw : W w) (hQ : ∀ a w ks d', P.Interf i [] d d' → P.inv d' → W w → Q a w ks d')
    (hE : ∀ e w ks d', P.Interf i [] d d' → E e w ks d') : P.wp i Q E p w ks d := by
  suffices h : ∀ w ks d', P.Interf i [] d d' → P.inv d' → W w →
    P.wp i Q E p w ks d' from h w ks d .refl hinv hw
  clear hw
  obtain ⟨hp, hwrites⟩ := hp
  induction p with
  | ret a => exact fun w ks d' hi hinv hw => hQ a w ks d' hi hinv hw
  | raise e => exact fun w ks d' hi _ _ => hE e w ks d' hi
  | stmt l act next ih =>
    intro w ks d' hi hinv hw d'' hi' hinv''
    obtain ⟨⟨e, he⟩, hp⟩ := hp
    have hi'' : P.Interf i [] d d'' := hi.trans hi'.nil
    have hraise : ∀ w ks, P.wp i Q E (next none) w ks d'' := by
      intro w ks
      rw [he]
      exact hE _ _ _ _ hi''
    exact ⟨fun _ => ih _ (hp _) (hwrites.2 _) _ _ _ hi'' hinv'' (hcomp _ _ (hwrites.1 _) hw),
      hraise _ _, hraise _ _⟩
  | commit next => exact hp.elim
  | rollback next =>
    intro w ks d' hi hinv hw d'' hi' hinv'' b
    obtain ⟨e, he⟩ := hp b
    show P.wp i Q E (next b) id [] d''
    rw [he]
    exact hE _ _ _ _ (hi.trans hi'.nil)

/-- A program may commit at any time, if the protocol allows its writes and their compositions. -/
theorem wp_writes {p : Prog D L ε α} (hp : p.Writes W) (hid : W id)
    (hcomp : ∀ u w, W u → W w → W (u ∘ w))
    (hcommit : ∀ w ks d, W w → P.inv d → P.inv (w d) ∧ P.guar i ks d (w d)) (hw : W w) :
    P.wp i (fun _ _ _ _ => True) (fun _ _ _ _ => True) p w ks d := by
  induction p generalizing w ks d with
  | ret a => trivial
  | raise e => trivial
  | stmt l act next ih =>
    exact fun d' _ _ =>
      ⟨fun _ => ih _ (hp.2 _) (hcomp _ _ (hp.1 _) hw), ih _ (hp.2 _) hw, ih _ (hp.2 _) hid⟩
  | commit next ih =>
    intro d' _ hinv
    obtain ⟨hinv', hguar⟩ := hcommit w ks d' hw hinv
    exact ⟨⟨hinv', hguar, ih _ (hp _) hid⟩, ih _ (hp _) hid⟩
  | rollback next ih => exact fun d' _ _ b => ih _ (hp b) hid

/-- A program that writes nothing may commit what has been written, if that is allowed while the
    locks are held. -/
theorem wp_unwritten {p : Prog D L ε α} (hp : p.Writes (· = id))
    (hid : ∀ ks d, P.inv d → P.guar i ks d d)
    (hcommit : ∀ ks' d', P.Interf i ks d d' → P.inv d' → P.inv (w d') ∧ P.guar i ks' d' (w d')) :
    P.wp i (fun _ _ _ _ => True) (fun _ _ _ _ => True) p w ks d := by
  have hidle {d' : D} : ∀ ks' d'', P.Interf i [] d' d'' → P.inv d'' → P.inv (id d'') ∧
      P.guar i ks' d'' (id d'') :=
    fun ks' d'' _ hinv => ⟨hinv, hid ks' d'' hinv⟩
  induction p generalizing w ks d with
  | ret a => trivial
  | raise e => trivial
  | stmt l act next ih =>
    intro d' hi hinv
    refine ⟨fun _ => ?_, ih _ (hp.2 _) fun ks' d'' hi' => hcommit ks' d'' (hi.trans hi'),
      ih _ (hp.2 _) hidle⟩
    rw [hp.1 (w d'), Function.id_comp]
    exact ih _ (hp.2 _) fun ks' d'' hi' => hcommit ks' d'' (hi.trans hi'.append_right)
  | commit next ih =>
    intro d' hi hinv
    obtain ⟨hinv', hguar⟩ := hcommit ks d' hi hinv
    exact ⟨⟨hinv', hguar, ih _ (hp _) hidle⟩, ih _ (hp _) hidle⟩
  | rollback next ih => exact fun d' _ _ b => ih _ (hp b) hidle

end Protocol

/-! ## Runs -/

/-- A program goes on as another one. -/
inductive Prog.Next : Prog D L ε α → Prog D L ε α → Prop
  | stmt {l act next} (v : Option D) : Next (.stmt l act next) (next v)
  | commit {next} (b : Bool) : Next (.commit next) (next b)
  | rollback {next} (b : Bool) : Next (.rollback next) (next b)

theorem Prog.CommitsLast.next {p q : Prog D L ε α} (hp : p.CommitsLast)
    (h : p.Next q) : q.CommitsLast := by
  rcases h with ⟨v⟩ | ⟨b⟩ | ⟨b⟩
  · exact hp v
  · obtain ⟨⟨a, ha⟩, e, he⟩ := hp
    rcases b with - | -
    · rw [he]
      trivial
    · rw [ha]
      trivial
  · exact hp b

theorem Prog.Returns.next {R : α → Prop} {p q : Prog D L ε α} (hp : p.Returns R)
    (h : p.Next q) : q.Returns R := by
  rcases h with ⟨v⟩ | ⟨b⟩ | ⟨b⟩
  · exact hp v
  · exact hp b
  · exact hp b

variable [DecidableEq ι] {C : Condition ι D K L} {s s' : System ι D L ε α} {i : ι}

/-- In a step, a program stays as it is, goes on, or is lost. -/
theorem Step.next {m : Move ι} (h : Step C s m s') {q : Prog D L ε α}
    (hq : (s'.session i).prog = some q) :
    ∃ p, (s.session i).prog = some p ∧ (q = p ∨ p.Next q) := by
  have hset : ∀ {j : ι} {x : Session D L ε α}, ((s.set j x).session i).prog = some q →
      (∀ q, x.prog = some q → ∃ p, (s.session j).prog = some p ∧ (q = p ∨ p.Next q)) →
      ∃ p, (s.session i).prog = some p ∧ (q = p ∨ p.Next q) := by
    intro j x hq hx
    by_cases hj : i = j
    · subst hj
      rw [System.set_session_self] at hq
      exact hx q hq
    · rw [System.set_session_of_ne _ _ hj] at hq
      exact ⟨q, hq, .inl rfl⟩
  cases h with
  | stmt hj | stmt_fail hj | interrupt hj =>
    refine hset hq ?_
    rintro q ⟨⟩
    exact ⟨_, congrArg Session.prog hj, .inr (.stmt _)⟩
  | commit hj | commit_fail hj =>
    refine hset hq ?_
    rintro q ⟨⟩
    exact ⟨_, congrArg Session.prog hj, .inr (.commit _)⟩
  | rollback hj | rollback_fail hj =>
    refine hset hq ?_
    rintro q ⟨⟩
    exact ⟨_, congrArg Session.prog hj, .inr (.rollback _)⟩
  | crash hj =>
    -- There is no program any more.
    refine hset hq ?_
    rintro q ⟨⟩
  | close hj =>
    refine hset hq ?_
    rintro q ⟨⟩
    exact ⟨_, congrArg Session.prog hj, .inl rfl⟩

/-- What holds of the rest of a program whatever it does next, holds throughout the run. -/
theorem Reach.of_next {prog : ι → Prog D L ε α} {d : D} {T : Prog D L ε α → Prop}
    (hs : Reach C (System.init prog d) s) (hprog : T (prog i))
    (hnext : ∀ p q, T p → p.Next q → T q) : ∀ p, (s.session i).prog = some p → T p := by
  induction hs with
  | refl =>
    rintro p ⟨⟩
    exact hprog
  | step _ h ih =>
    intro q hq
    obtain ⟨p, hp, rfl | hpq⟩ := h.next hq
    · exact ih _ hp
    · exact hnext p q (ih p hp) hpq

/-- A session returns what its program may return. -/
theorem Reach.returns {prog : ι → Prog D L ε α} {d : D} {R : α → Prop}
    (hs : Reach C (System.init prog d) s) (hprog : (prog i).Returns R) {a : α}
    (ha : s.returned i = some a) : R a :=
  hs.of_next hprog (fun _ _ => Prog.Returns.next) _ (System.returned_eq_some.1 ha)

/-- A session whose program commits last changes the store only by the step in which it returns. -/
theorem Reach.returned_of_commit {prog : ι → Prog D L ε α} {d : D}
    (hs : Reach C (System.init prog d) s) (hprog : (prog i).CommitsLast) {m : Move ι}
    (hst : Step C s m s') (hm : m.session = i) (hne : s'.store ≠ s.store) :
    ∃ a, s'.returned i = some a := by
  have hlast := hs.of_next hprog fun _ _ => Prog.CommitsLast.next
  cases hst with
  | @commit j next w ks hj =>
    obtain rfl : j = i := hm
    obtain ⟨⟨a, ha⟩, -⟩ := hlast _ (congrArg Session.prog hj)
    refine ⟨a, System.returned_eq_some.2 ?_⟩
    show ((s.set j _).session j).prog = _
    rw [System.set_session_self, ha]
    rfl
  | _ => exact absurd rfl hne

end ReadCommitted
