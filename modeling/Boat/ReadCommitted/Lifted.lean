import Boat.ReadCommitted.Part

/-!
# Statements of a part

Rules for the programs over a part of the store, under protocols about the whole store: what a
session has written to the other parts, and what it has locked there, stays as it is while such a
program goes on (`wp_lift_exec`). They follow the program, see `wp_lift_bind` and `wp_lift_handle`,
so that they are also for programs that roll the session back in a handler. The entries of what it
inserts are locked, and stay free of other rows (`Holds`).
-/

namespace ReadCommitted

variable {ι S D M K L L' ε ε' α β : Type} [Locking S M] [Locking D K] {part : Part S D}
  {label : L → L'} {error : ε → ε'}

theorem Prog.lift_bind {p : Prog D L ε α} {f : α → Prog D L ε β} :
    (p.bind f).lift part label error = (p.lift part label error).bind fun a =>
      (f a).lift part label error := by
  induction p with
  | ret a => rfl
  | raise e => rfl
  | stmt l act next ih => simp only [bind, lift, ih]
  | commit next ih => simp only [bind, lift, ih]
  | rollback next ih => simp only [bind, lift, ih]

theorem Prog.Returns.lift {R : α → Prop} {p : Prog D L ε α}
    (hp : p.Returns R) : (p.lift part label error).Returns R := by
  induction p with
  | ret a => exact hp
  | raise e => trivial
  | stmt l act next ih => exact fun v => ih _ (hp _)
  | commit next ih => exact fun b => ih b (hp b)
  | rollback next ih => exact fun b => ih b (hp b)

namespace Protocol

variable {P : Protocol ι S M L'} {i : ι} {Q : Post S M α} {E : Post S M ε'} {w : S → S}
  {ms : List M} {s : S} {l : L}
  {fault : ε}

theorem wp_lift_bind {Q : Post S M β} {p : Prog D L ε α} {f : α → Prog D L ε β} :
    P.wp i Q E ((p.bind f).lift part label error) w ms s ↔
      P.wp i (fun a => P.wp i Q E ((f a).lift part label error)) E
        (p.lift part label error) w ms s := by
  rw [Prog.lift_bind, wp_bind]

theorem wp_lift_handle {p : Prog D L ε α} {h : ε → Prog D L ε α} :
    P.wp i Q E ((p.handle h).lift part label error) w ms s ↔
      P.wp i Q (fun e => P.wp i Q E ((h e).lift part label error)) (p.lift part label id) w ms s := by
  induction p generalizing w ms s with
  | ret | raise => rfl
  | stmt l act next ih => simp only [Prog.handle, Prog.lift, wp, ih]
  | commit next ih => simp only [Prog.handle, Prog.lift, wp, ih]
  | rollback next ih => simp only [Prog.handle, Prog.lift, wp, ih]

/-- A command runs on the part, is refused, or fails. -/
theorem wp_lift_exec {c : Command D ε α} :
    P.wp i Q E ((Prog.exec l fault c).lift part label error) w ms s ↔
    ∀ s', P.Interf i ms s s' → P.inv s' →
      (P.cond i (label l) s' ms → match c.run (part.get (w s')) with
        | .ok (a, u) => Q a (part.write u ∘ w) ((c.locks (part.get (w s'))).map part.lock ++ ms) s'
        | .error e => ∀ s'', P.Interf i ((c.locks (part.get (w s'))).map part.lock ++ ms) s' s'' →
        P.inv s'' →
          E (error e) id [] s'') ∧ E (error fault) w ms s' ∧ E (error fault) id [] s' := by
  refine forall_congr' fun s' => forall₂_congr fun _ _ =>
    and_congr_left' (imp_congr_right fun _ => ?_)
  rcases h : c.run (part.get (w s')) with e | ⟨a, u⟩
  · simp only [Part.action, Command.action, Option.map_some, h, Prog.lift, wp_rollback, wp_raise,
      forall_const]
  · simp only [Part.action, Command.action, Option.map_some, h, Prog.lift, wp_ret]

/-- What a command does that neither is refused nor fails. -/
theorem wp_lift_exec_of_ok {c : Command D ε α}
    (hQ : ∀ s' a u, P.Interf i ms s s' → P.inv s' → c.run (part.get (w s')) = .ok (a, u) →
      Q a (part.write u ∘ w) ((c.locks (part.get (w s'))).map part.lock ++ ms) s')
    (hE : ∀ e w ms s', P.Interf i [] s s' → E e w ms s') :
    P.wp i Q E ((Prog.exec l fault c).lift part label error) w ms s := by
  refine wp_lift_exec.2 fun s' hi hinv => ⟨fun _ => ?_, hE _ _ _ s' hi.nil, hE _ _ _ s' hi.nil⟩
  rcases h : c.run (part.get (w s')) with e | ⟨a, u⟩
  · exact fun s'' hi' _ => hE _ _ _ s'' (hi.nil.trans hi'.nil)
  · exact hQ s' a u hi hinv h

/-- A query reads the part. -/
theorem wp_lift_query {locks : D → List K} {f : D → α}
    (hQ : ∀ s', P.Interf i ms s s' → P.inv s' →
      Q (f (part.get (w s'))) w ((locks (part.get (w s'))).map part.lock ++ ms) s')
    (hE : ∀ e w ms s', P.Interf i [] s s' → E e w ms s') :
    P.wp i Q E ((Prog.exec l fault (.query locks f)).lift part label error) w ms s := by
  refine wp_lift_exec_of_ok (fun s' a u hi hinv h => ?_) hE
  cases h
  rw [Part.write_id, Function.id_comp]
  exact hQ s' hi hinv

/-- An insert waits for its entries, of which there are none. -/
theorem wp_lift_insert {η : Type} {lock : η → K} {hasEntry : D → η → Bool} {refused : η → ε}
    {entries : List η} {u : D → D} {hu : Touches (entries.map lock) u} {Q : Post S M Unit}
    (hQ : ∀ s', P.Interf i ms s s' → P.inv s' →
      (∀ e ∈ entries, hasEntry (part.get (w s')) e = false) →
      Q () (part.write u ∘ w) ((entries.map lock).map part.lock ++ ms) s')
    (hE : ∀ e w ms s', P.Interf i [] s s' → E e w ms s') :
    P.wp i Q E ((Prog.exec l fault (.insert lock hasEntry refused entries u hu)).lift part label
      error) w ms s := by
  refine wp_lift_exec_of_ok (fun s' a u' hi hinv h => ?_) hE
  simp only [Command.insert] at h
  split at h
  · cases h
  · next hfind =>
    cases h
    exact hQ s' hi hinv fun e he => by simpa using List.find?_eq_none.1 hfind e he

theorem wp_lift_commitOr {Q : Post S M Unit} :
    P.wp i Q E ((Prog.commitOr fault : Prog D L ε Unit).lift part label error) w ms s ↔
    ∀ s', P.Interf i ms s s' → P.inv s' →
      (P.inv (w s') ∧ P.guar i ms s' (w s') ∧ Q () id [] (w s')) ∧ E (error fault) id [] s' := .rfl

/-- A deferred program makes writes to the part that satisfy what each of them does, and
    compositions do. -/
theorem wp_lift_within {W : (D → D) → Prop} {Q : Post S M α} {p : Prog D L ε α} {u₀ : D → D}
    (hp : p.Within W) (hcomp : ∀ u w, W u → W w → W (u ∘ w)) (hu₀ : W u₀)
    (hQ : ∀ a u ms' s', P.Interf i ms s s' → ms ⊆ ms' → W u → Q a (part.write u ∘ w) ms' s')
    (hE : ∀ e w ms s', P.Interf i [] s s' → E e w ms s') :
    P.wp i Q E (p.lift part label error) (part.write u₀ ∘ w) ms s := by
  -- By induction on the program, over all that it may have written so far.
  suffices h : ∀ (u : D → D) (ms' : List M) (s' : S), P.Interf i ms s s' → ms ⊆ ms' → W u →
      P.wp i Q E (p.lift part label error) (part.write u ∘ w) ms' s' from h u₀ ms s .refl
        (List.Subset.refl ms) hu₀
  clear hu₀
  obtain ⟨hp, hwrites⟩ := hp
  induction p with
  | ret a => exact fun u ms' s' hi hsub hu => hQ a u ms' s' hi hsub hu
  | raise e => exact fun u ms' s' hi _ _ => hE _ _ _ s' hi.nil
  | stmt l act next ih =>
    intro u ms' s' hi hsub hu s'' hi' _
    have hi'' : P.Interf i ms s s'' := hi.trans (hi'.anti hsub)
    obtain ⟨⟨e, he⟩, hp⟩ := hp
    have hraise : ∀ w ms, P.wp i Q E ((next none).lift part label error) w ms s'' := by
      intro w ms
      rw [he]
      exact hE _ _ _ s'' hi''.nil
    refine ⟨fun _ => ?_, hraise _ _, hraise _ _⟩
    have h := ih _ (hp (part.get ((part.write u ∘ w) s''))) (hwrites.2 _)
      (act.write (part.get ((part.write u ∘ w) s'')) ∘ u)
        ((act.locks (part.get ((part.write u ∘ w) s''))).map part.lock ++ ms')
      s'' hi'' (List.subset_append_of_subset_right _ hsub) (hcomp _ _ (hwrites.1 _) hu)
    rw [← part.write_comp] at h
    exact h
  | commit next => exact hp.elim
  | rollback next =>
    intro u ms' s' hi hsub hu s'' hi' _ b
    obtain ⟨e, he⟩ := hp b
    show P.wp i Q E ((next b).lift part label error) id [] s''
    rw [he]
    exact hE _ _ _ s'' (hi.nil.trans hi'.nil)

/-! ## Entries that are held -/

section

variable {η : Type} {lock : η → K} {hasEntry : D → η → Bool}

variable (part lock hasEntry) in
/-- A session has locked these entries, of which there are none. -/
def Holds (entries : List η) (ms : List M) (s : S) : Prop :=
  ∀ e ∈ entries, part.lock (lock e) ∈ ms ∧ hasEntry (part.get s) e = false

variable {entries entries' : List η} {ms' : List M} {s' : S}

/-- There are still none of the entries while the session holds them. -/
theorem Holds.interf (h : Holds part lock hasEntry entries ms s)
    (hlock : ∀ e, Protects (lock e) fun d => hasEntry d e = false) (hi : P.Interf i ms s s') :
    Holds part lock hasEntry entries ms s' := fun e he =>
  ⟨(h e he).1, part.kept (hi.kept (h e he).1) _ (hlock e) (h e he).2⟩

theorem Holds.mono (h : Holds part lock hasEntry entries ms s) (hms : ms ⊆ ms') :
    Holds part lock hasEntry entries ms' s := fun e he => ⟨hms (h e he).1, (h e he).2⟩

theorem Holds.append (h : Holds part lock hasEntry entries ms s)
    (h' : Holds part lock hasEntry entries' ms s) :
    Holds part lock hasEntry (entries ++ entries') ms s := fun e he => by
  rcases List.mem_append.1 he with he | he
  · exact h e he
  · exact h' e he

/-- An insert holds the entries of the row, as a session sees all rows there are. -/
theorem wp_lift_insert_holds {refused : η → ε} {u : D → D} {hu : Touches (entries.map lock) u}
    {Q : Post S M Unit}
    (hview : ∀ s e, hasEntry (part.get (w s)) e = false → hasEntry (part.get s) e = false)
    (hQ : ∀ ms' s', P.Interf i ms s s' → P.inv s' → ms ⊆ ms' →
      Holds part lock hasEntry entries ms' s' →
      Q () (part.write u ∘ w) ms' s')
    (hE : ∀ e w ms s', P.Interf i [] s s' → E e w ms s') :
    P.wp i Q E ((Prog.exec l fault (.insert lock hasEntry refused entries u hu)).lift part label
      error) w ms s := by
  refine wp_lift_insert (fun s' hi hinv h => ?_) hE
  refine hQ _ s' hi hinv (List.subset_append_right _ _) fun e he => ⟨?_, hview s' e (h e he)⟩
  exact List.mem_append_left _ (List.mem_map_of_mem (List.mem_map_of_mem he))

/-- What a session has added to the part since it has had the locks `ms₀` in the store `s₀`: the
    writes `u`, to rows with entries that it holds. It still sees all rows there are. -/
structure Adding (P : Protocol ι S M L') (i : ι) (part : Part S D) (lock : η → K)
    (hasEntry : D → η → Bool) (ms₀ : List M) (s₀ : S) (u : D → D) (entries : List η) (ms : List M)
    (s : S) : Prop where
  interf : P.Interf i ms₀ s₀ s
  subset : ms₀ ⊆ ms
  view : ∀ d e, hasEntry (u d) e = false → hasEntry d e = false
  holds : Holds part lock hasEntry entries ms s

theorem Adding.refl : P.Adding i part lock hasEntry ms s id [] ms s :=
  ⟨.refl, List.Subset.refl _, fun _ _ h => h, fun _ h => absurd h List.not_mem_nil⟩

variable {ms₀ : List M} {s₀ : S} {u₀ : D → D} {w₀ : S → S}

/-- An insert adds a row, and holds its entries. -/
theorem wp_lift_insert_adding {refused : η → ε} {u : D → D} {hu : Touches (entries'.map lock) u}
    {Q : Post S M Unit} (h : P.Adding i part lock hasEntry ms₀ s₀ u₀ entries ms s)
    (hw₀ : ∀ s, part.get (w₀ s) = part.get s)
    (hlock : ∀ e, Protects (lock e) fun d => hasEntry d e = false)
    (hadd : ∀ d e, hasEntry (u d) e = false → hasEntry d e = false)
    (hQ : ∀ ms' s', P.Adding i part lock hasEntry ms₀ s₀ (u ∘ u₀) (entries ++ entries') ms' s' →
      Q () (part.write (u ∘ u₀) ∘ w₀) ms' s')
    (hE : ∀ e w ms s', P.Interf i [] s₀ s' → E e w ms s') :
    P.wp i Q E ((Prog.exec l fault (.insert lock hasEntry refused entries' u hu)).lift part
      label error)
      (part.write u₀ ∘ w₀) ms s := by
  have hview : ∀ s e, hasEntry (part.get ((part.write u₀ ∘ w₀) s)) e = false →
      hasEntry (part.get s) e = false := by
    intro s e he
    have hget : part.get ((part.write u₀ ∘ w₀) s) = u₀ (part.get s) :=
      (part.get_write u₀ (w₀ s)).trans (congrArg u₀ (hw₀ s))
    exact h.view _ e (hget ▸ he)
  refine wp_lift_insert_holds hview (fun ms' s' hi _ hsub hholds => ?_) fun e w ms s' hi =>
    hE e w ms s' (h.interf.nil.trans hi)
  rw [← Function.comp_assoc, part.write_comp]
  exact hQ ms' s' ⟨h.interf.trans (hi.anti h.subset), List.Subset.trans h.subset hsub,
    fun d e he => h.view d e (hadd (u₀ d) e he), ((h.holds.interf hlock hi).mono hsub).append hholds⟩

end

end Protocol

end ReadCommitted
