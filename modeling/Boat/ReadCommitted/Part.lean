import Boat.ReadCommitted.Commands

/-!
# Parts of a store

A store may be put together from parts that have locks of their own, such as the tables of the
modules of an application (`Part`). A program over a part is one over the whole store
(`Prog.lift`).

* A protocol about a part is one about the store (`Protocol.comap`), of which the programs over the
  part have the same weakest preconditions (`wp_lift`).
* What a deferred program does to its part can be left open (`wp_lift_frame`), as it leaves the
  other parts alone (`wp_lift_other`).
-/

namespace ReadCommitted

/-- A part of the stores in `S`. Its locks, and no others, protect it. -/
structure Part (S : Type) {M : Type} [Locking S M] (D : Type) {K : Type} [Locking D K] where
  get : S → D
  put : S → D → S
  get_put : ∀ s d, get (put s d) = d
  put_get : ∀ s, put s (get s) = s
  put_put : ∀ s d d', put (put s d) d' = put s d'
  lock : K → M
  unlock : M → Option K
  unlock_eq_some : ∀ {m k}, unlock m = some k ↔ lock k = m
  protects : ∀ {k p}, Protects k p → Protects (lock k) fun s => p (get s)
  protected_cases : ∀ {m q}, Protects m q →
    (∃ k p, lock k = m ∧ Protects k p ∧ q = fun s => p (get s)) ∨ ∀ s d, q s → q (put s d)

variable {ι S D M K L L' ε ε' α β : Type} [Locking S M] [Locking D K]

namespace Part

variable (part : Part S D)

/-- A write to the part. -/
def write (w : D → D) (s : S) : S := part.put s (w (part.get s))

@[simp] theorem get_write (w : D → D) (s : S) : part.get (part.write w s) = w (part.get s) :=
  part.get_put _ _

@[simp] theorem write_id : part.write id = id := funext part.put_get

theorem write_comp (w w' : D → D) : part.write w ∘ part.write w' = part.write (w ∘ w') := by
  funext s
  show part.put (part.write w' s) (w (part.get (part.write w' s))) = _
  rw [get_write, write, part.put_put]
  rfl

/-- The locks of the part. -/
def locks (ms : List M) : List K := ms.filterMap part.unlock

@[simp] theorem unlock_lock (k : K) : part.unlock (part.lock k) = some k := part.unlock_eq_some.2 rfl

@[simp] theorem locks_map (ks : List K) : part.locks (ks.map part.lock) = ks := by
  rw [locks, List.filterMap_map]
  have hsome : part.unlock ∘ part.lock = some := funext part.unlock_lock
  rw [hsome, List.filterMap_some]

@[simp] theorem locks_append (ms ms' : List M) :
    part.locks (ms ++ ms') = part.locks ms ++ part.locks ms' :=
  List.filterMap_append

theorem mem_locks {k : K} {ms : List M} : k ∈ part.locks ms ↔ part.lock k ∈ ms := by
  simp only [locks, List.mem_filterMap, part.unlock_eq_some]
  constructor
  · rintro ⟨m, hm, rfl⟩
    exact hm
  · exact fun h => ⟨_, h, rfl⟩

theorem touches {ks : List K} {w : D → D} (h : Touches ks w) :
    Touches (ks.map part.lock) (part.write w) := by
  intro m hm s q hq hs
  rcases part.protected_cases hq with ⟨k, p, rfl, hp, rfl⟩ | hfix
  · have hk : k ∉ ks := fun hk => hm (List.mem_map_of_mem hk)
    show p (part.get (part.write w s))
    rw [get_write]
    exact h k hk _ p hp hs
  · exact hfix _ _ hs

theorem kept {k : K} {s s' : S} (h : Kept (part.lock k) s s') : Kept k (part.get s) (part.get s') :=
  fun _ hp => h _ (part.protects hp)

/-- A statement of the part. -/
def action (act : Action D) : Action S where
  locks v := (act.locks (part.get v)).map part.lock
  write v := part.write (act.write (part.get v))
  touches v := part.touches (act.touches (part.get v))

end Part

/-- A program over a part, as one over the store. -/
def Prog.lift (part : Part S D) (label : L → L') (error : ε → ε') : Prog D L ε α → Prog S L' ε' α
  | .ret a => .ret a
  | .raise e => .raise (error e)
  | .stmt l act next => .stmt (label l) (part.action act) fun v =>
    (next (v.map part.get)).lift part label error
  | .commit next => .commit fun b => (next b).lift part label error
  | .rollback next => .rollback fun b => (next b).lift part label error

theorem Prog.CommitsLast.lift {part : Part S D} {label : L → L'} {error : ε → ε'} {p : Prog D L ε α}
    (hp : p.CommitsLast) : (p.lift part label error).CommitsLast := by
  induction p with
  | ret a => trivial
  | raise e => trivial
  | stmt l act next ih => exact fun v => ih _ (hp _)
  | commit next =>
    obtain ⟨⟨a, ha⟩, e, he⟩ := hp
    exact ⟨⟨a, congrArg (·.lift part label error) ha⟩, error e, congrArg (·.lift part label error) he⟩
  | rollback next ih => exact fun b => ih b (hp b)

theorem Prog.Writes.lift {part : Part S D} {label : L → L'} {error : ε → ε'} {W : (D → D) → Prop}
    {V : (S → S) → Prop} {p : Prog D L ε α} (hp : p.Writes W)
    (hV : ∀ w, W w → V (part.write w)) : (p.lift part label error).Writes V := by
  induction p with
  | ret a => trivial
  | raise e => trivial
  | stmt l act next ih => exact ⟨fun v => hV _ (hp.1 _), fun v => ih _ (hp.2 _)⟩
  | commit next ih => exact fun b => ih b (hp b)
  | rollback next ih => exact fun b => ih b (hp b)

/-- What the writes `w` of a session do to the part of a store satisfies `G`. -/
def Part.Does (part : Part S D) (G : (D → D) → D → Prop) (w : S → S) (s : S) : Prop :=
  ∃ u : D → D, (∀ s, part.get (w s) = u (part.get s)) ∧ G u (part.get s)

namespace Protocol

/-- A protocol about a part. -/
def comap (part : Part S D) (label : L → L') (P : Protocol ι D K L) : Protocol ι S M L' where
  inv s := P.inv (part.get s)
  guar i ms s s' := P.guar i (part.locks ms) (part.get s) (part.get s')
  cond i l' s ms := ∀ l, label l = l' → P.cond i l (part.get s) (part.locks ms)

variable {part : Part S D} {label : L → L'} {error : ε → ε'} {P : Protocol ι D K L} {i : ι}
  {ms : List M} {s s' : S}

theorem Other.comap (h : (P.comap part label).Other i ms s s') :
    P.Other i (part.locks ms) (part.get s) (part.get s') := by
  obtain ⟨j, ms', hj, hdisjoint, hkept, hinv, hguar, hinv'⟩ := h
  refine ⟨j, part.locks ms', hj, fun k hk hk' => ?_, fun k hk => ?_, hinv, hguar, hinv'⟩
  · exact hdisjoint (part.mem_locks.1 hk) (part.mem_locks.1 hk')
  · exact part.kept (hkept _ fun h => hk (part.mem_locks.2 h))

theorem Interf.comap (h : (P.comap part label).Interf i ms s s') :
    P.Interf i (part.locks ms) (part.get s) (part.get s') := by
  induction h with
  | refl => exact .refl
  | tail _ h ih => exact ih.tail (Other.comap h)

/-- A program over the part does in the store what it does in the part. -/
theorem wp_lift {Q : Post D K α} {E : Post D K ε} {Q' : Post S M α} {E' : Post S M ε'}
    {p : Prog D L ε α} {w : D → D} {w' : S → S} (hw : ∀ s, part.get (w' s) = w (part.get s))
    (hQ : ∀ a w w' ms s, (∀ s, part.get (w' s) = w (part.get s)) →
      Q a w (part.locks ms) (part.get s) → Q' a w' ms s)
    (hE : ∀ e w w' ms s, (∀ s, part.get (w' s) = w (part.get s)) →
      E e w (part.locks ms) (part.get s) → E' (error e) w' ms s)
    (h : P.wp i Q E p w (part.locks ms) (part.get s)) :
    (P.comap part label).wp i Q' E' (p.lift part label error) w' ms s := by
  induction p generalizing w w' ms s with
  | ret a => exact hQ a w w' ms s hw h
  | raise e => exact hE e w w' ms s hw h
  | stmt l act next ih =>
    intro s' hi hinv
    obtain ⟨hrun, hint, hfail⟩ := h (part.get s') hi.comap hinv
    refine ⟨fun hcond => ?_, ih none hw hint, ih none (w := id) (fun _ => rfl) hfail⟩
    rw [← hw s'] at hrun
    refine ih _ (w := act.write (part.get (w' s')) ∘ w) (fun s => ?_) ?_
    · show part.get (part.write _ (w' s)) = _
      rw [part.get_write, hw s, hw s']
      rfl
    · show P.wp i Q E _ _ (part.locks ((act.locks (part.get (w' s'))).map part.lock ++ ms)) _
      rw [part.locks_append, part.locks_map]
      exact hrun (hcond l rfl)
  | commit next ih =>
    intro s' hi hinv
    obtain ⟨⟨hinv', hguar, htrue⟩, hfalse⟩ := h (part.get s') hi.comap hinv
    rw [← hw s'] at hinv' hguar htrue
    exact ⟨⟨hinv', hguar, ih true (fun _ => rfl) htrue⟩, ih false (fun _ => rfl) hfalse⟩
  | rollback next ih =>
    intro s' hi hinv b
    exact ih b (fun _ => rfl) (h (part.get s') hi.comap hinv b)

/-- What a deferred program does to its part is left open. -/
theorem wp_lift_frame {P : Protocol ι S M L'} {Q : Post S M α} {E : Post S M ε'} {p : Prog D L ε α}
    {w : S → S} (hp : p.Deferred) (hinv : P.inv s)
    (hQ : ∀ a u (ks : List K) s', P.Interf i ms s s' → P.inv s' →
      Q a (part.write u ∘ w) (ks.map part.lock ++ ms) s')
    (hE : ∀ e w ms s', P.Interf i [] s s' → E e w ms s') :
    P.wp i Q E (p.lift part label error) w ms s := by
  -- The writes and the locks of the program so far are added to the others.
  suffices h : ∀ (u : D → D) (ks : List K) (s' : S), P.Interf i ms s s' → P.inv s' →
      P.wp i Q E (p.lift part label error) (part.write u ∘ w) (ks.map part.lock ++ ms) s' by
    have h := h id [] s .refl hinv
    rwa [part.write_id, Function.id_comp, List.map_nil, List.nil_append] at h
  induction p with
  | ret a => exact fun u ks s' hi hinv => hQ a u ks s' hi hinv
  | raise e => exact fun u ks s' hi _ => hE _ _ _ s' hi.nil
  | stmt l act next ih =>
    intro u ks s' hi hinv s'' hi' hinv''
    have hi'' : P.Interf i ms s s'' := hi.trans hi'.append_right
    obtain ⟨⟨e, he⟩, hp⟩ := hp
    have hraise : ∀ w ms, P.wp i Q E ((next none).lift part label error) w ms s'' := by
      intro w ms
      rw [he]
      exact hE _ _ _ s'' hi''.nil
    refine ⟨fun _ => ?_, hraise _ _, hraise _ _⟩
    have h := ih _ (hp (part.get ((part.write u ∘ w) s'')))
      (act.write (part.get ((part.write u ∘ w) s'')) ∘ u)
      (act.locks (part.get ((part.write u ∘ w) s'')) ++ ks) s'' hi'' hinv''
    rw [← part.write_comp, List.map_append, List.append_assoc] at h
    exact h
  | commit next => exact hp.elim
  | rollback next =>
    intro u ks s' hi hinv s'' hi' hinv'' b
    obtain ⟨e, he⟩ := hp b
    show P.wp i Q E ((next b).lift part label error) id [] s''
    rw [he]
    exact hE _ _ _ s'' (hi.nil.trans hi'.nil)

/-- A deferred program over another part leaves alone what its session does to this one. -/
theorem wp_lift_other {D' K' L₁ ε₁ : Type} [Locking D' K'] {part' : Part S D'} {label' : L₁ → L'}
    {error' : ε₁ → ε'} {p : Prog D' L₁ ε₁ α} {G : (D → D) → D → Prop} {Q : Post S M α} {w : S → S}
    (hp : p.Deferred) (hpart : ∀ s d, part.get (part'.put s d) = part.get s)
    (hstable : ∀ u, P.Stable i (G u)) (hinv : P.inv (part.get s)) (hs : part.Does G w s)
    (hQ : ∀ a w ms s, P.inv (part.get s) → part.Does G w s → Q a w ms s) :
    (P.comap part label).wp i Q (fun _ _ _ _ => True) (p.lift part' label' error') w ms s := by
  obtain ⟨u, hu, hG⟩ := hs
  refine wp_lift_frame hp hinv (fun a v ks s' hi hinv' =>
    hQ a _ _ s' hinv' ⟨u, fun s => ?_, ?_⟩) fun _ _ _ _ _ => trivial
  · exact (hpart (w s) _).trans (hu s)
  · exact (hstable u).interf hi.comap hG

/-- The writes of the session are committed as the protocol allows. -/
theorem wp_commitOr_does {G : (D → D) → D → Prop} {R : D → Prop} {fault : ε'} {w : S → S}
    (hstable : ∀ u, P.Stable i (G u)) (hs : part.Does G w s)
    (hcommit : ∀ u ks d, P.inv d → G u d → P.inv (u d) ∧ P.guar i ks d (u d) ∧ R (u d)) :
    (P.comap part label).wp i (fun _ _ _ s => R (part.get s)) (fun _ _ _ _ => True)
      (Prog.commitOr fault : Prog S L' ε' Unit) w ms s := by
  obtain ⟨u, hu, hG⟩ := hs
  refine wp_commitOr.2 fun s' hi hinv => ⟨?_, trivial⟩
  obtain ⟨hinv', hguar, hR⟩ :=
    hcommit u (part.locks ms) (part.get s') hinv ((hstable u).interf hi.comap hG)
  rw [← hu s'] at hinv' hguar hR
  exact ⟨hinv', hguar, hR⟩

end Protocol

end ReadCommitted
