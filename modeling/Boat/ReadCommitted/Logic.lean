import Boat.ReadCommitted.System
import Mathlib.Logic.Relation

/-!
# A logic for interleaved sessions

Reasoning about one session at a time, under the interference of the others. A
*protocol* says what every committed store satisfies (`inv`) and how a commit of
the session `i`, holding the locks `ks`, may change it (`guar i ks`). While a
session holds its own locks, the others change the store by commits made under
*other* locks (`Protocol.Interf`), so that what a lock protects stays as it is
(`Interf.kept`).

* `Protocol.wp`: the weakest precondition of a program. Before every statement
  the store may change by interference; every commit has to keep the invariant
  and to be one the protocol allows.
* The rules follow the program: `wp_bind`, `wp_handle`, `wp_exec`, `wp_mono`; the
  rules of `commit` and `rollback` are the equations of the definition.
* `Meets.sound`: if every program of a system meets the protocol, then so does
  every reachable state, and what a program ended with satisfies its
  postcondition from then on. Every step changes the store as the protocol
  allows (`Good.change`), and so do whole runs (`Good.changes`).
-/

namespace ReadCommitted

open Relation

variable {ι D K L ε α β : Type} [Locking D K]

/-- What the sessions of a system rely on and guarantee, see above. -/
structure Protocol (ι D K L : Type) where
  inv : D → Prop
  guar : ι → List K → D → D → Prop
  cond : Condition ι D K L

/-- A condition on what a program ended with: its writes and locks, and the store. -/
abbrev Post (D K α : Type) := α → (D → D) → List K → D → Prop

namespace Protocol

variable (P : Protocol ι D K L)

/-- A commit of another session than `i`, made without the locks `ks`. -/
def Other (i : ι) (ks : List K) (d d' : D) : Prop :=
  ∃ j ks', j ≠ i ∧ ks.Disjoint ks' ∧ (∀ k, k ∉ ks' → Kept k d d') ∧
    P.inv d ∧ P.guar j ks' d d' ∧ P.inv d'

/-- What happens to the store while the session `i` holds the locks `ks`. -/
def Interf (i : ι) (ks : List K) : D → D → Prop := ReflTransGen (P.Other i ks)

/-- A commit the protocol allows. -/
def Change (d d' : D) : Prop := ∃ i ks, P.inv d ∧ P.guar i ks d d' ∧ P.inv d'

variable {P} {i : ι} {ks ks' : List K} {d d' d'' : D}

theorem Other.anti (hks : ks ⊆ ks') (h : P.Other i ks' d d') : P.Other i ks d d' :=
  let ⟨j, ks₁, hj, hdis, h⟩ := h; ⟨j, ks₁, hj, fun _ hk => hdis (hks hk), h⟩

theorem Interf.refl : P.Interf i ks d d := ReflTransGen.refl

theorem Interf.trans (h : P.Interf i ks d d') (h' : P.Interf i ks d' d'') : P.Interf i ks d d'' :=
  ReflTransGen.trans h h'

/-- Holding more locks, a session sees less interference. -/
theorem Interf.anti (hks : ks ⊆ ks') (h : P.Interf i ks' d d') : P.Interf i ks d d' :=
  ReflTransGen.mono (fun _ _ => Other.anti hks) _ _ h

theorem Interf.nil (h : P.Interf i ks d d') : P.Interf i [] d d' := h.anti (List.nil_subset ks)

theorem Interf.append_right (h : P.Interf i (ks ++ ks') d d') : P.Interf i ks' d d' :=
  h.anti (List.subset_append_right ..)

/-- What a single commit of another session keeps, interference keeps. -/
theorem Interf.keeps {p : D → Prop} (hp : ∀ d d', P.Other i ks d d' → p d → p d')
    (h : P.Interf i ks d d') (hd : p d) : p d' := by
  induction h with
  | refl => exact hd
  | tail _ h ih => exact hp _ _ h ih

/-- Interference keeps the invariant. -/
theorem Interf.inv (h : P.Interf i ks d d') (hd : P.inv d) : P.inv d' := by
  refine h.keeps (fun d d' h _ => ?_) hd
  obtain ⟨_, _, _, _, _, _, _, hd'⟩ := h
  exact hd'

/-- What a lock protects stays true while the lock is held. -/
theorem Interf.kept {k : K} (h : P.Interf i ks d d') (hk : k ∈ ks) : Kept k d d' := by
  intro p hp
  refine h.keeps fun d d' h => ?_
  obtain ⟨j, ks', _, hdis, hkept, _⟩ := h
  exact hkept k (fun hk' => hdis hk hk') p hp

/-- A session alone sees no interference. -/
theorem Interf.eq [Subsingleton ι] (h : P.Interf i ks d d') : d' = d := by
  induction h with
  | refl => rfl
  | tail _ h _ => obtain ⟨j, _, hj, _⟩ := h; exact absurd (Subsingleton.elim j i) hj

/-- A property of the store that the commits of the other sessions keep. -/
def Stable (P : Protocol ι D K L) (i : ι) (p : D → Prop) : Prop :=
  ∀ d d', P.Other i [] d d' → p d → p d'

theorem Stable.interf {p : D → Prop} (hp : P.Stable i p) (h : P.Interf i ks d d') (hd : p d) :
    p d' := h.nil.keeps hp hd

/-! ## Weakest preconditions -/

variable (P) (i)

/-- The weakest precondition of a program of the session `i`, for the
    postcondition `Q` on results and `E` on exceptions: a property of the writes
    and the locks of the session, and of the store. -/
def wp (Q : Post D K α) (E : Post D K ε) : Prog D L ε α → (D → D) → List K → D → Prop
  | .ret a, w, ks, d => Q a w ks d
  | .raise e, w, ks, d => E e w ks d
  | .stmt l act next, w, ks, d => ∀ d', P.Interf i ks d d' → P.inv d' →
      (P.cond i l d' ks → wp Q E (next (some (w d'))) (act.write (w d') ∘ w)
        (act.locks (w d') ++ ks) d') ∧ wp Q E (next none) w ks d' ∧ wp Q E (next none) id [] d'
  | .commit next, w, ks, d => ∀ d', P.Interf i ks d d' → P.inv d' →
      (P.inv (w d') ∧ P.guar i ks d' (w d') ∧ wp Q E (next true) id [] (w d')) ∧
        wp Q E (next false) id [] d'
  | .rollback next, _, ks, d => ∀ d', P.Interf i ks d d' → P.inv d' → ∀ b, wp Q E (next b) id [] d'

variable {P i} {Q Q' : Post D K α} {E E' : Post D K ε} {w : D → D}

@[simp] theorem wp_ret {a : α} : P.wp i Q E (.ret a : Prog D L ε α) w ks d ↔ Q a w ks d := .rfl

@[simp] theorem wp_raise {e : ε} : P.wp i Q E (.raise e : Prog D L ε α) w ks d ↔ E e w ks d := .rfl

@[simp] theorem wp_rollback {next : Bool → Prog D L ε α} :
    P.wp i Q E (.rollback next) w ks d ↔
      ∀ d', P.Interf i ks d d' → P.inv d' → ∀ b, P.wp i Q E (next b) id [] d' := .rfl

/-- Sequencing: the first program establishes the precondition of the second. -/
@[simp] theorem wp_bind {Q : Post D K β} {p : Prog D L ε α} {f : α → Prog D L ε β} :
    P.wp i Q E (p.bind f) w ks d ↔ P.wp i (fun a => P.wp i Q E (f a)) E p w ks d := by
  induction p generalizing w ks d with
  | ret | raise => rfl
  | stmt l act next ih => simp only [Prog.bind, wp, ih]
  | commit next ih => simp only [Prog.bind, wp, ih]
  | rollback next ih => simp only [Prog.bind, wp, ih]

/-- Sequencing, inside of postconditions. -/
theorem wp_bind_eq {Q : Post D K β} {p : Prog D L ε α} {f : α → Prog D L ε β} :
    P.wp i Q E (p.bind f) = P.wp i (fun a => P.wp i Q E (f a)) E p := by
  funext w ks d
  exact propext wp_bind

/-- Handling: the exceptions of the program establish the precondition of the handler. -/
@[simp] theorem wp_handle {p : Prog D L ε α} {h : ε → Prog D L ε α} :
    P.wp i Q E (p.handle h) w ks d ↔ P.wp i Q (fun e => P.wp i Q E (h e)) p w ks d := by
  induction p generalizing w ks d with
  | ret | raise => rfl
  | stmt l act next ih => simp only [Prog.handle, wp, ih]
  | commit next ih => simp only [Prog.handle, wp, ih]
  | rollback next ih => simp only [Prog.handle, wp, ih]

/-- A command runs, is refused, or fails. -/
theorem wp_exec {l : L} {fault : ε} {c : Command D ε α} :
    P.wp i Q E (Prog.exec l fault c) w ks d ↔ ∀ d', P.Interf i ks d d' → P.inv d' →
      (P.cond i l d' ks → match c.run (w d') with
        | .ok (a, u) => Q a (u ∘ w) (c.locks (w d') ++ ks) d'
        | .error e => ∀ d'', P.Interf i (c.locks (w d') ++ ks) d' d'' → P.inv d'' →
          E e id [] d'') ∧ E fault w ks d' ∧ E fault id [] d' := by
  refine forall_congr' fun d' => forall₂_congr fun _ _ =>
    and_congr_left' (imp_congr_right fun _ => ?_)
  rcases h : c.run (w d') with e | ⟨a, u⟩
  · simp only [Command.action, h, wp_rollback, wp_raise, forall_const]
  · simp only [Command.action, h, wp_ret]

/-- Consequence: a program also establishes weaker postconditions. -/
theorem wp_mono {p : Prog D L ε α} (h : P.wp i Q E p w ks d)
    (hQ : ∀ a w ks d, Q a w ks d → Q' a w ks d) (hE : ∀ e w ks d, E e w ks d → E' e w ks d) :
    P.wp i Q' E' p w ks d := by
  induction p generalizing w ks d with
  | ret a => exact hQ _ _ _ _ h
  | raise e => exact hE _ _ _ _ h
  | stmt l act next ih =>
    intro d' hi hd
    obtain ⟨hrun, hint, hfail⟩ := h d' hi hd
    exact ⟨fun hc => ih _ (hrun hc), ih _ hint, ih _ hfail⟩
  | commit next ih =>
    intro d' hi hd
    obtain ⟨⟨hinv, hg, ht⟩, hf⟩ := h d' hi hd
    exact ⟨⟨hinv, hg, ih _ ht⟩, ih _ hf⟩
  | rollback next ih => exact fun d' hi hd b => ih _ (h d' hi hd b)

/-- Exceptions are handled in the same way, whatever has been written and locked. -/
theorem wp_raises {p : Prog D L ε α}
    (h : P.wp i Q (fun e _ _ d => ∀ w ks, E e w ks d) p w ks d) : P.wp i Q E p w ks d :=
  wp_mono h (fun _ _ _ _ h => h) fun _ _ _ _ h => h _ _

/-- Weakest preconditions withstand interference, if their postconditions do. -/
theorem wp_interf {R : α → D → Prop} {X : ε → D → Prop} (hR : ∀ a, P.Stable i (R a))
    (hX : ∀ e, P.Stable i (X e)) {p : Prog D L ε α}
    (h : P.wp i (fun a _ _ => R a) (fun e _ _ => X e) p w ks d) (hi : P.Interf i ks d d') :
    P.wp i (fun a _ _ => R a) (fun e _ _ => X e) p w ks d' := by
  cases p with
  | ret a => exact (hR a).interf hi h
  | raise e => exact (hX e).interf hi h
  | stmt | commit | rollback => exact fun d'' hi' => h d'' (hi.trans hi')

/-! ## Soundness -/

variable [DecidableEq ι]

/-- The invariant of the systems whose programs meet the protocol: what every
    session has still to do has its weakest precondition. -/
structure Good (P : Protocol ι D K L) (R : ι → α → D → Prop) (X : ι → ε → D → Prop)
    (s : System ι D L ε α) : Prop where
  inv : P.inv s.store
  disjoint : ∀ i j, i ≠ j → (s.session i).locks.Disjoint (s.session j).locks
  touches : ∀ i, Touches (s.session i).locks (s.session i).writes
  wp : ∀ i p, (s.session i).prog = some p → P.wp i (fun a _ _ => R i a) (fun e _ _ => X i e) p
    (s.session i).writes (s.session i).locks s.store

variable {R R' : ι → α → D → Prop} {X X' : ι → ε → D → Prop} {s s' : System ι D L ε α}

/-- Replacing one session, whose new locks are free, without a commit. -/
theorem Good.set (h : P.Good R X s) {x : Session D L ε α} (hfree : s.Free i x.locks)
    (htouch : Touches x.locks x.writes)
    (hx : ∀ p, x.prog = some p →
      P.wp i (fun a _ _ => R i a) (fun e _ _ => X i e) p x.writes x.locks s.store) :
    P.Good R X (s.set i x) where
  inv := h.inv
  disjoint j k hjk := by
    by_cases hj : j = i
    · subst hj
      rw [System.set_session_self, System.set_session_of_ne _ _ hjk.symm]
      exact hfree k hjk.symm
    by_cases hk : k = i
    · subst hk
      rw [System.set_session_self, System.set_session_of_ne _ _ hj]
      exact (hfree j hj).symm
    · rw [System.set_session_of_ne _ _ hj, System.set_session_of_ne _ _ hk]
      exact h.disjoint j k hjk
  touches j := by
    by_cases hj : j = i
    · subst hj; rw [System.set_session_self]; exact htouch
    · rw [System.set_session_of_ne _ _ hj]; exact h.touches j
  wp j p hp := by
    by_cases hj : j = i
    · subst hj
      rw [System.set_session_self] at hp ⊢
      exact hx p hp
    · rw [System.set_session_of_ne _ _ hj] at hp ⊢
      exact h.wp j p hp

/-- Ending the transaction of a session, without a commit. -/
theorem Good.idle (h : P.Good R X s) {q : Option (Prog D L ε α)}
    (hq : ∀ p, q = some p →
      P.wp i (fun a _ _ => R i a) (fun e _ _ => X i e) p id [] s.store) :
    P.Good R X (s.set i (.idle q)) :=
  h.set (fun _ _ => List.disjoint_nil_left _) (touches_id []) hq

/-- Committing the writes of a session, as the protocol allows. -/
theorem Good.commit (hR : ∀ i a, P.Stable i (R i a)) (hX : ∀ i e, P.Stable i (X i e))
    (h : P.Good R X s) (hd : d = (s.session i).writes s.store) (hinv : P.inv d)
    (hg : P.guar i (s.session i).locks s.store d)
    {p : Prog D L ε α} (hp : P.wp i (fun a _ _ => R i a) (fun e _ _ => X i e) p id [] d) :
    P.Good R X ⟨d, (s.set i (.idle (some p))).session⟩ := by
  -- The other sessions see the commit as interference under the locks of `i`.
  have hidle : P.Good R X (s.set i (.idle none)) := h.idle (by simp)
  have hne {j : ι} (hj : j ≠ i) : ((s.set i (.idle (some p))).session j) = s.session j :=
    System.set_session_of_ne _ _ hj
  have hself : ((s.set i (.idle (some p))).session i) = .idle (some p) :=
    System.set_session_self ..
  refine ⟨hinv, fun j k hjk => ?_, fun j => ?_, fun j q hq => ?_⟩
  · by_cases hj : j = i
    · subst hj; rw [hself]; exact List.disjoint_nil_left _
    by_cases hk : k = i
    · subst hk; rw [hself]; exact List.disjoint_nil_right _
    · rw [hne hj, hne hk]; exact h.disjoint j k hjk
  · by_cases hj : j = i
    · subst hj; rw [hself]; exact touches_id []
    · rw [hne hj]; exact h.touches j
  · by_cases hj : j = i
    · subst hj
      rw [hself] at hq ⊢
      cases hq
      exact hp
    · rw [hne hj] at hq ⊢
      refine wp_interf (hR j) (hX j) (h.wp j q hq) <| .single
        ⟨i, _, Ne.symm hj, h.disjoint j i hj, fun k hk => ?_, h.inv, hg, hinv⟩
      exact hd ▸ h.touches i k hk s.store

/-- Of one session, other postconditions can be shown from any state on. -/
theorem Good.focus (h : P.Good R X s) {Q : α → D → Prop} {E : ε → D → Prop}
    (hi : ∀ p, (s.session i).prog = some p → P.wp i (fun a _ _ => Q a) (fun e _ _ => E e) p
      (s.session i).writes (s.session i).locks s.store) :
    P.Good (fun j a d => j = i → Q a d) (fun j e d => j = i → E e d) s where
  inv := h.inv
  disjoint := h.disjoint
  touches := h.touches
  wp j p hp := by
    by_cases hj : j = i
    · subst hj
      exact wp_mono (hi p hp) (fun _ _ _ _ h _ => h) fun _ _ _ _ h _ => h
    · exact wp_mono (h.wp j p hp) (fun _ _ _ _ _ h => absurd h hj) fun _ _ _ _ _ h => absurd h hj

/-- A step keeps the invariant. -/
theorem Good.step (hR : ∀ i a, P.Stable i (R i a)) (hX : ∀ i e, P.Stable i (X i e))
    (h : P.Good R X s) {m : Move ι} (hst : Step P.cond s m s') : P.Good R X s' := by
  -- The weakest precondition holds of what is left after the step, with no interference in between.
  cases hst with
  | @stmt i l act next w ks hs hc hf =>
    have hw := h.wp i _ (by rw [hs])
    have ht := h.touches i
    simp only [hs] at hw ht
    refine h.set (fun j hj k hk => ?_) ((act.touches _).comp ht) fun p hp => ?_
    · rcases List.mem_append.1 hk with hk | hk
      · exact hf j hj hk
      · exact h.disjoint i j hj.symm (by rw [hs]; exact hk)
    · cases hp
      exact (hw _ .refl h.inv).1 hc
  | @stmt_fail i l act next w ks hs =>
    have hw := h.wp i _ (by rw [hs])
    simp only [hs] at hw
    exact h.idle fun p hp => by cases hp; exact (hw _ .refl h.inv).2.2
  | @interrupt i l act next w ks hs =>
    have hw := h.wp i _ (by rw [hs])
    have ht := h.touches i
    simp only [hs] at hw ht
    refine h.set (fun j hj => ?_) ht fun p hp => ?_
    · have := h.disjoint i j hj.symm
      rwa [hs] at this
    · cases hp
      exact (hw _ .refl h.inv).2.1
  | @commit i next w ks hs =>
    have hw := h.wp i _ (by rw [hs])
    simp only [hs] at hw
    obtain ⟨hinv, hg, ht⟩ := (hw _ .refl h.inv).1
    exact h.commit hR hX (by rw [hs]) hinv (by rw [hs]; exact hg) ht
  | @commit_fail i next w ks hs =>
    have hw := h.wp i _ (by rw [hs])
    simp only [hs] at hw
    exact h.idle fun p hp => by cases hp; exact (hw _ .refl h.inv).2
  | @rollback i next w ks hs =>
    have hw := h.wp i _ (by rw [hs])
    simp only [hs] at hw
    exact h.idle fun p hp => by cases hp; exact hw _ .refl h.inv true
  | @rollback_fail i next w ks hs =>
    have hw := h.wp i _ (by rw [hs])
    simp only [hs] at hw
    exact h.idle fun p hp => by cases hp; exact hw _ .refl h.inv false
  | crash hs _ => exact h.idle fun p hp => by cases hp
  | @close i p w ks hs he =>
    have hw := h.wp i _ (by rw [hs])
    simp only [hs] at hw
    refine h.idle fun q hq => ?_
    cases hq
    cases p with
    | ret | raise => exact hw
    | stmt | commit | rollback => exact he.elim

/-- A run keeps the invariant. -/
theorem Good.reach (hR : ∀ i a, P.Stable i (R i a)) (hX : ∀ i e, P.Stable i (X i e))
    (h : P.Good R X s) (hs : Reach P.cond s s') : P.Good R X s' := by
  induction hs with
  | refl => exact h
  | step _ hst ih => exact ih.step hR hX hst

/-- The store changes in a step by a commit of the session that moves, as the
    protocol allows, if at all. -/
theorem Good.change (h : P.Good R X s) {m : Move ι} (hst : Step P.cond s m s') :
    s'.store = s.store ∨ ∃ i, m = .run i ∧ P.inv s.store ∧
      P.guar i (s.session i).locks s.store s'.store ∧ P.inv s'.store := by
  cases hst with
  | @commit i next w ks hs =>
    have hw := h.wp i _ (by rw [hs])
    simp only [hs] at hw
    obtain ⟨hinv, hg, _⟩ := (hw _ .refl h.inv).1
    exact .inr ⟨i, rfl, h.inv, by rw [hs]; exact hg, hinv⟩
  | _ => exact .inl rfl

/-- Every commit is one the protocol allows. -/
theorem Good.commits (h : P.Good R X s) {next : Bool → Prog D L ε α}
    (hprog : (s.session i).prog = some (.commit next))
    (hst : Step P.cond s (.run i) s') : P.guar i (s.session i).locks s.store s'.store := by
  cases hst with
  | stmt hs =>
    rw [hs] at hprog
    cases hprog
  | @commit _ next w ks hs =>
    have hw := h.wp i _ (congrArg Session.prog hs)
    simp only [hs] at hw
    rw [hs]
    exact (hw _ .refl h.inv).1.2.1
  | rollback hs =>
    rw [hs] at hprog
    cases hprog

/-- The store changes in a run by commits the protocol allows. -/
theorem Good.changes (hR : ∀ i a, P.Stable i (R i a)) (hX : ∀ i e, P.Stable i (X i e))
    (h : P.Good R X s) (hs : Reach P.cond s s') : ReflTransGen P.Change s.store s'.store := by
  induction hs with
  | refl => exact .refl
  | step hs hst ih =>
    rcases (h.reach hR hX hs).change hst with h | ⟨i, _, hd, hg, hd'⟩
    · exact h ▸ ih
    · exact ih.tail ⟨i, _, hd, hg, hd'⟩

/-- The programs of a system meet the protocol from the store `d` on, with the
    postconditions `R` and `X`. -/
structure Meets (P : Protocol ι D K L) (prog : ι → Prog D L ε α) (d : D) (R : ι → α → D → Prop)
    (X : ι → ε → D → Prop) : Prop where
  inv : P.inv d
  wp : ∀ i, P.wp i (fun a _ _ => R i a) (fun e _ _ => X i e) (prog i) id [] d
  stable_ret : ∀ i a, P.Stable i (R i a)
  stable_raise : ∀ i e, P.Stable i (X i e)

variable {prog : ι → Prog D L ε α}

/-- Programs that meet the protocol keep its invariant, along every run. -/
theorem Meets.good (hp : P.Meets prog d R X) (hs : Reach P.cond (System.init prog d) s) :
    P.Good R X s := by
  refine Good.reach hp.stable_ret hp.stable_raise ⟨hp.inv, fun _ _ _ => List.disjoint_nil_left _,
    fun _ => touches_id [], fun i p h => ?_⟩ hs
  cases h
  exact hp.wp i

/-- Soundness: along every run of programs that meet the protocol, the store
    satisfies its invariant, and what a program has ended with its postcondition. -/
theorem Meets.sound (hp : P.Meets prog d R X) (hs : Reach P.cond (System.init prog d) s) :
    P.inv s.store ∧ (∀ i a, s.returned i = some a → R i a s.store) ∧
      ∀ i e, s.raised i = some e → X i e s.store :=
  ⟨(hp.good hs).inv, fun i _ h => (hp.good hs).wp i _ (System.returned_eq_some.1 h),
    fun i _ h => (hp.good hs).wp i _ (System.raised_eq_some.1 h)⟩

end Protocol

end ReadCommitted
