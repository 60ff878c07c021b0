import Boat.ReadCommitted.Checks
import Boat.ReadCommitted.Moves
import Boat.ReadCommitted.Part

/-!
# Statements that are behind a session

A session that deletes what it finds in one statement, and commits later, leaves nothing behind if
the other sessions add nothing from this statement on. Before it, they may do anything.

* `System.Past`: the session has the statement behind it.
* `Prog.ComesTo`: programs that come to a statement with writes of a kind, from which the rest is met.
* `Departs.reach`: what such a program establishes when it returns, in all runs in which the others
  keep to a protocol as soon as it has the statement behind it.
* `Protocol.holding`: the protocol of others that keep a relation to the store there was.
-/

namespace ReadCommitted

variable {ι D K L ε α β : Type} [Locking D K]

/-- The session has the statement `l` behind it. -/
def System.Past (s : System ι D L ε α) (i : ι) (l : L) : Prop :=
  ∃ p, (s.session i).prog = some p ∧ p.Without l

namespace Prog

variable {l : L} {W : (D → D) → Prop}

/-- A program that does not return before the statement `l`, and makes writes that satisfy `W` until
    then. From there on, it satisfies `T`. -/
def ComesTo (l : L) (W : (D → D) → Prop) (T : Action D → (Option D → Prog D L ε α) → Prop) :
    Prog D L ε α → Prop
  | .ret _ => False
  | .raise _ => True
  | .stmt l' act next => l' = l ∧ T act next ∨ (∀ v, W (act.write v)) ∧ ∀ v, (next v).ComesTo l W T
  | .commit next | .rollback next => ∀ b, (next b).ComesTo l W T

/-- What comes first makes other statements, and such writes. -/
theorem ComesTo.bind {T : Action D → (Option D → Prog D L ε β) → Prop} {p : Prog D L ε α}
    {f : α → Prog D L ε β} (hp : p.Writes W) (hf : ∀ a, (f a).ComesTo l W T) :
    (p.bind f).ComesTo l W T := by
  induction p with
  | ret a => exact hf a
  | raise e => trivial
  | stmt l' act next ih => exact .inr ⟨hp.1, fun v => ih v (hp.2 v)⟩
  | commit next ih => exact fun b => ih b (hp b)
  | rollback next ih => exact fun b => ih b (hp b)

theorem Without.bind {p : Prog D L ε α} {f : α → Prog D L ε β} (hp : p.Without l)
    (hf : ∀ a, (f a).Without l) :
    (p.bind f).Without l := by
  induction p with
  | ret a => exact hf a
  | raise e => trivial
  | stmt l' act next ih => exact ⟨hp.1, fun v => ih v (hp.2 v)⟩
  | commit next ih => exact fun b => ih b (hp b)
  | rollback next ih => exact fun b => ih b (hp b)

theorem without_exec {l' : L} {fault : ε} {c : Command D ε α}
    (hl : l' ≠ l) : (exec l' fault c).Without l := by
  refine ⟨hl, fun v => ?_⟩
  rcases v with - | v
  · trivial
  · rcases h : c.run v with e | ⟨a, u⟩
    · simp only [h]
      exact fun _ => trivial
    · simp only [h]
      trivial

/-- A program that starts with a command makes its statement first, and maybe never again. -/
theorem exists_stmt_exec {fault : ε} {c : Command D ε α} {f : α → Prog D L ε β}
    (hf : ∀ a, (f a).Without l) :
    ∃ act next, (exec l fault c).bind f = .stmt l act next ∧ ∀ v, (next v).Without l := by
  refine ⟨_, _, rfl, fun v => ?_⟩
  rcases v with - | v
  · trivial
  · rcases h : c.run v with e | ⟨a, u⟩
    · simp only [h]
      exact fun _ => trivial
    · simp only [h]
      exact hf a

/-! Programs over a part of the store. -/

variable {S M L' ε' : Type} [Locking S M] {part : Part S D} {label : L → L'} {error : ε → ε'}

theorem Without.lift {p : Prog D L ε α} (hp : p.Without l)
    (hlabel : ∀ l', label l' = label l → l' = l) :
    (p.lift part label error).Without (label l) := by
  induction p with
  | ret a => trivial
  | raise e => trivial
  | stmt l' act next ih => exact ⟨fun h => hp.1 (hlabel l' h), fun v => ih _ (hp.2 _)⟩
  | commit next ih => exact fun b => ih b (hp b)
  | rollback next ih => exact fun b => ih b (hp b)

theorem without_lift {p : Prog D L ε α} {m : L'}
    (hlabel : ∀ l', label l' ≠ m) : (p.lift part label error).Without m := by
  induction p with
  | ret a => trivial
  | raise e => trivial
  | stmt l' act next ih => exact ⟨hlabel l', fun v => ih _⟩
  | commit next ih => exact ih
  | rollback next ih => exact ih

/-- A program over the part that starts with the statement. -/
theorem comesTo_lift_bind {p : Prog D L ε α} {f : α → Prog S L' ε' β} {V : (S → S) → Prop}
    {T : Action S → (Option S → Prog S L' ε' β) → Prop}
    (hp : ∃ act next, p = .stmt l act next ∧ ∀ v, (next v).Without l)
    (hlabel : ∀ l', label l' = label l → l' = l) (hf : ∀ a, (f a).Without (label l))
    (hT : ∀ act next, (p.lift part label error).bind f = .stmt (label l) act next →
      (∀ v, (next v).Without (label l)) →
      T act next) : ((p.lift part label error).bind f).ComesTo (label l) V T := by
  obtain ⟨act, next, rfl, hnext⟩ := hp
  exact .inl ⟨rfl, hT _ _ rfl fun v => ((hnext _).lift hlabel).bind hf⟩

end Prog

/-- The session `i` comes to the statement `l` with writes that satisfy `W`, and returns with `R`
    then, if the others keep to the protocol. -/
structure Departs (P : Protocol ι D K L) (i : ι) (l : L) (W : (D → D) → Prop) (R : D → Prop)
    (p : Prog D L ε α) : Prop where
  id : W id
  comp : ∀ u w, W u → W w → W (u ∘ w)
  inv : ∀ d, P.inv d
  cond : ∀ l d ks, P.cond i l d ks
  stable : P.Stable i R
  comesTo : p.ComesTo l W fun act next => (∀ v, (next v).Without l) ∧
    ∀ w ks d, W w → P.wp i (fun _ _ _ => R) (fun _ _ _ _ => True) (.stmt l act next) w ks d

namespace Departs

variable {P : Protocol ι D K L} {i : ι} {l : L} {W : (D → D) → Prop} {R : D → Prop} {d d' : D}
  {m : Move ι}
  {x y : Session D L ε α}

/-- What is left of the session: it is before the statement, or the rest establishes `R`. -/
def Left (P : Protocol ι D K L) (i : ι) (l : L) (W : (D → D) → Prop) (R : D → Prop) (d : D)
    (x : Session D L ε α) : Prop :=
  ∀ p, x.prog = some p →
    (p.ComesTo l W fun act next => (∀ v, (next v).Without l) ∧
      ∀ w ks d, W w → P.wp i (fun _ _ _ => R) (fun _ _ _ _ => True) (.stmt l act next) w ks d) ∧
        W x.writes ∨
    p.Without l ∧ P.wp i (fun _ _ _ => R) (fun _ _ _ _ => True) p x.writes x.locks d

/-- The session goes on. -/
theorem left_goes {p : Prog D L ε α} (h : Departs P i l W R p) (hx : Left P i l W R d x)
    (hgoes : Session.Goes i d x m d' y) :
    Left P i l W R d' y := by
  have hset : ∀ {q : Prog D L ε α} {w ks d'},
      (q.ComesTo l W (fun act next => (∀ v, (next v).Without l) ∧
          ∀ w ks d, W w → P.wp i (fun _ _ _ => R) (fun _ _ _ _ => True) (.stmt l act next) w ks d) ∧
            W w ∨
        q.Without l ∧ P.wp i (fun _ _ _ => R) (fun _ _ _ _ => True) q w ks d') →
          Left P i l W R d' ⟨some q, w, ks⟩ := by
    rintro q w ks d' hq _ ⟨⟩
    exact hq
  -- Before `l` the program comes to it; at `l`, `Departs` says what follows; after it, the weakest
  -- precondition does.
  cases hgoes with
  | @stmt l' act next w ks =>
    rcases hx _ rfl with ⟨⟨rfl, hwithout, hwp⟩ | ⟨hwrite, hcomes⟩, hw⟩ | ⟨⟨-, hwithout⟩, hwp⟩
    · exact hset (.inr ⟨hwithout _, (hwp w ks d hw d .refl (h.inv d)).1 (h.cond _ _ _)⟩)
    · exact hset (.inl ⟨hcomes _, h.comp _ _ (hwrite _) hw⟩)
    · exact hset (.inr ⟨hwithout _, (hwp d .refl (h.inv d)).1 (h.cond _ _ _)⟩)
  | @stmt_fail l' act next w ks =>
    rcases hx _ rfl with ⟨⟨rfl, hwithout, hwp⟩ | ⟨-, hcomes⟩, hw⟩ | ⟨⟨-, hwithout⟩, hwp⟩
    · exact hset (.inr ⟨hwithout _, (hwp w ks d hw d .refl (h.inv d)).2.2⟩)
    · exact hset (.inl ⟨hcomes _, h.id⟩)
    · exact hset (.inr ⟨hwithout _, (hwp d .refl (h.inv d)).2.2⟩)
  | @interrupt l' act next w ks =>
    rcases hx _ rfl with ⟨⟨rfl, hwithout, hwp⟩ | ⟨-, hcomes⟩, hw⟩ | ⟨⟨-, hwithout⟩, hwp⟩
    · exact hset (.inr ⟨hwithout _, (hwp w ks d hw d .refl (h.inv d)).2.1⟩)
    · exact hset (.inl ⟨hcomes _, hw⟩)
    · exact hset (.inr ⟨hwithout _, (hwp d .refl (h.inv d)).2.1⟩)
  | commit =>
    obtain ⟨hcomes, -⟩ | ⟨hwithout, hwp⟩ := hx _ rfl
    · exact hset (.inl ⟨hcomes _, h.id⟩)
    · exact hset (.inr ⟨hwithout _, (hwp d .refl (h.inv d)).1.2.2⟩)
  | commit_fail =>
    obtain ⟨hcomes, -⟩ | ⟨hwithout, hwp⟩ := hx _ rfl
    · exact hset (.inl ⟨hcomes _, h.id⟩)
    · exact hset (.inr ⟨hwithout _, (hwp d .refl (h.inv d)).2⟩)
  | rollback | rollback_fail =>
    obtain ⟨hcomes, -⟩ | ⟨hwithout, hwp⟩ := hx _ rfl
    · exact hset (.inl ⟨hcomes _, h.id⟩)
    · exact hset (.inr ⟨hwithout _, hwp d .refl (h.inv d) _⟩)
  | crash =>
    rintro p ⟨⟩
  | @close q w ks hended =>
    obtain ⟨hcomes, -⟩ | ⟨hwithout, hwp⟩ := hx _ rfl
    · exact hset (.inl ⟨hcomes, h.id⟩)
    · refine hset (.inr ⟨hwithout, ?_⟩)
      cases q with
      | ret a => exact hwp
      | raise e => trivial
      | stmt | commit | rollback => exact hended.elim

variable [DecidableEq ι] {prog : ι → Prog D L ε α} {A : System ι D L ε α → Move ι → Prop}
  {s s' : System ι D L ε α}

/-- What the program establishes when it returns. -/
theorem reach (h : Departs P i l W R (prog i))
    (hother : ∀ s m s', Reach Always (System.init prog d) s → A s m → Step Always s m s' →
      m.session ≠ i → s.Past i l →
      s'.store ≠ s.store → P.guar m.session (s.session m.session).locks s.store s'.store)
    (hs : ReachIf A (System.init prog d) s) {a : α} (ha : s.returned i = some a) : R s.store := by
  -- Locks are held by one session at a time, whatever the sessions do.
  have hgood : ∀ {s}, ReachIf A (System.init prog d) s → Reach Always (System.init prog d) s ∧
      Protocol.Good
        (⟨fun _ => True, fun _ _ _ _ => True, Always⟩ : Protocol ι D K L) (fun _ _ _ => True)
        (fun _ _ _ => True) s := by
    intro s hs
    have hmeets : Protocol.Meets
        (⟨fun _ => True, fun _ _ _ _ => True, Always⟩ : Protocol ι D K L) prog d
          (fun _ _ _ => True) (fun _ _ _ => True) :=
      { inv := trivial
        wp := fun i => Protocol.wp_writes (Prog.Writes.of_forall (fun _ => trivial) _) trivial
          (fun _ _ _ _ => trivial)
          (fun _ _ _ _ _ => ⟨trivial, trivial⟩) trivial
        stable_ret := fun _ _ _ _ _ _ => trivial
        stable_raise := fun _ _ _ _ _ _ => trivial }
    exact ⟨hs.reach, hmeets.good hs.reach⟩
  suffices hleft : Left P i l W R s.store (s.session i) by
    obtain ⟨hfalse, -⟩ | ⟨-, hR⟩ := hleft _ (System.returned_eq_some.1 ha)
    · exact hfalse.elim
    · exact hR
  clear ha
  induction hs with
  | refl =>
    rintro _ ⟨⟩
    exact .inl ⟨h.comesTo, h.id⟩
  | @step s s' m hs hA hst ih =>
    obtain ⟨hs', hgood⟩ := hgood hs
    by_cases hm : m.session = i
    · subst hm
      exact h.left_goes ih hst.goes
    · rw [hst.session_of_ne (Ne.symm hm)]
      intro p hp
      obtain hbefore | ⟨hwithout, hwp⟩ := ih p hp
      · exact .inl hbefore
      · refine .inr ⟨hwithout, ?_⟩
        by_cases hne : s'.store = s.store
        · rwa [hne]
        · refine Protocol.wp_interf (fun _ => h.stable) (fun _ _ _ _ _ => trivial) hwp
            (.single ⟨m.session, _, hm,
            hgood.disjoint _ _ (Ne.symm hm), fun k hk =>
              ?_, h.inv _, hother s m s' hs' hA hst hm ⟨p, hp, hwithout⟩ hne,
            h.inv _⟩)
          exact hgood.kept_of_notMem hst hk

end Departs

/-! ## Holding a part of the store -/

namespace Protocol

variable (i : ι) (R : D → D → Prop)

/-- The other sessions change the store from one to another that `R` relates to it. -/
def holding : Protocol ι D K L where
  inv _ := True
  guar j _ d d' := j ≠ i → R d d'
  cond := Always

variable {i R} {ks : List K} {d d' : D}

theorem stable_holding {p : D → Prop} (hp : ∀ d d', R d d' → p d → p d') :
    (holding i R : Protocol ι D K L).Stable i p := by
  rintro d d' ⟨j, ks', hj, -, -, -, hguar, -⟩ hd
  exact hp d d' (hguar hj) hd

theorem interf_holding (hrefl : ∀ d, R d d) (htrans : ∀ {d₁ d₂ d₃}, R d₁ d₂ → R d₂ d₃ → R d₁ d₃)
    (h : (holding i R : Protocol ι D K L).Interf i ks d d') : R d d' := by
  have hstable : (holding i R : Protocol ι D K L).Stable i (R d) :=
    stable_holding fun d₁ d₂ hR h => htrans h hR
  exact hstable.interf h (hrefl d)

/-! They may leave it as it is. -/

theorem stable_holding_eq (p : D → Prop) :
    (holding i fun d d' => d' = d : Protocol ι D K L).Stable i p :=
  stable_holding fun _ _ h hd => h ▸ hd

theorem interf_holding_eq
    (h : (holding i fun d d' => d' = d : Protocol ι D K L).Interf i ks d d') : d' = d :=
  interf_holding (R := fun d d' => d' = d) (fun _ => rfl) (fun h h' => h'.trans h) h

end Protocol

end ReadCommitted
