import Boat.ReadCommitted.Lifted
import Boat.ReadCommitted.Moves
import Mathlib.Data.DFinsupp.WellFounded

/-!
# Progress

Sessions that wait for each other's locks are stuck. They are not if all of them take their locks in
one order (`LockOrder`).

* `LockOrder.Ascends`: a program takes its locks in the order, up to locks that only its session
  takes, and those that it holds already. Its rules follow the program, as do those of
  `LockOrder.Climbs`, of which only the levels matter.
* `LockOrder.Good.proceeds`: while a session has not ended, some session can go on.
* `Reach.completes`: from every reachable system, finitely many sessions can be brought to their
  ends, without a failure.
-/

namespace ReadCommitted

open Transition

variable {ι S D M K L L' ε ε' α β : Type} [Locking S M] [Locking D K]

/-- The order in which sessions take locks. A lock that has an owner is taken by no other session.
    What all stores that they see have in common (`view`) may be used to show that they do. -/
structure LockOrder (ι D : Type) {K : Type} [Locking D K] where
  view : D → Prop
  owner : K → Option ι
  rank : K → ℕ
  bound : ℕ
  rank_lt : ∀ k, rank k < bound

namespace LockOrder

variable (o : LockOrder ι D) (i : ι)

/-- A session may take the lock on its way up from the level `n` to `n'`, holding `ks`. -/
def Takes (n n' : ℕ) (ks : List K) (k : K) : Prop :=
  o.owner k = some i ∨ o.owner k = none ∧ (k ∈ ks ∨ n ≤ o.rank k ∧ o.rank k < n')

/-- A write that keeps what all stores have in common. -/
def Respects (w : D → D) : Prop := ∀ d, o.view d → o.view (w d)

/-- A program takes its locks in the order, from a level on, holding some locks, and ends with `Q`
    or `E`. -/
def Ascends (Q : α → ℕ → List K → Prop) (E : ε → ℕ → List K → Prop) : Prog D L ε α → ℕ → List K → Prop
  | .ret a, n, ks => Q a n ks
  | .raise e, n, ks => E e n ks
  | .stmt _ act next, n, ks =>
    (∀ v, o.view v → o.Respects (act.write v) ∧ ∃ n', n ≤ n' ∧
      (∀ k ∈ act.locks v, o.Takes i n n' ks k) ∧
      Ascends Q E (next (some v)) n' (act.locks v ++ ks)) ∧
    Ascends Q E (next none) n ks ∧ Ascends Q E (next none) 0 []
  | .commit next, _, _ => ∀ b, Ascends Q E (next b) 0 []
  | .rollback next, _, _ => ∀ b, Ascends Q E (next b) 0 []

variable {o i} {Q Q' : α → ℕ → List K → Prop} {E E' : ε → ℕ → List K → Prop} {n n' : ℕ}
  {ks : List K} {l : L} {fault : ε}

theorem Respects.comp {u w : D → D} (hu : o.Respects u) (hw : o.Respects w) : o.Respects (u ∘ w) :=
  fun d hd => hu _ (hw d hd)

namespace Ascends

theorem mono {p : Prog D L ε α} (h : o.Ascends i Q E p n ks) (hQ : ∀ a n ks, Q a n ks → Q' a n ks)
    (hE : ∀ e n ks, E e n ks → E' e n ks) : o.Ascends i Q' E' p n ks := by
  induction p generalizing n ks with
  | ret a => exact hQ a n ks h
  | raise e => exact hE e n ks h
  | stmt l act next ih =>
    refine ⟨fun v hv => ?_, ih none h.2.1, ih none h.2.2⟩
    obtain ⟨hw, n', hle, hlocks, h⟩ := h.1 v hv
    exact ⟨hw, n', hle, hlocks, ih (some v) h⟩
  | commit next ih => exact fun b => ih b (h b)
  | rollback next ih => exact fun b => ih b (h b)

theorem bind {Q : β → ℕ → List K → Prop} {p : Prog D L ε α} {f : α → Prog D L ε β}
    (h : o.Ascends i (fun a => o.Ascends i Q E (f a)) E p n ks) :
    o.Ascends i Q E (p.bind f) n ks := by
  induction p generalizing n ks with
  | ret a => exact h
  | raise e => exact h
  | stmt l act next ih =>
    refine ⟨fun v hv => ?_, ih none h.2.1, ih none h.2.2⟩
    obtain ⟨hw, n', hle, hlocks, h⟩ := h.1 v hv
    exact ⟨hw, n', hle, hlocks, ih (some v) h⟩
  | commit next ih => exact fun b => ih b (h b)
  | rollback next ih => exact fun b => ih b (h b)

theorem handle {p : Prog D L ε α} {f : ε → Prog D L ε α}
    (h : o.Ascends i Q (fun e => o.Ascends i Q E (f e)) p n ks) :
    o.Ascends i Q E (p.handle f) n ks := by
  induction p generalizing n ks with
  | ret a => exact h
  | raise e => exact h
  | stmt l act next ih =>
    refine ⟨fun v hv => ?_, ih none h.2.1, ih none h.2.2⟩
    obtain ⟨hw, n', hle, hlocks, h⟩ := h.1 v hv
    exact ⟨hw, n', hle, hlocks, ih (some v) h⟩
  | commit next ih => exact fun b => ih b (h b)
  | rollback next ih => exact fun b => ih b (h b)

/-- What a program returns does not depend on its locks. -/
theorem returns {R : α → Prop} {p : Prog D L ε α} (h : o.Ascends i Q E p n ks) (hp : p.Returns R) :
    o.Ascends i (fun a n ks => Q a n ks ∧ R a) E p n ks := by
  induction p generalizing n ks with
  | ret a => exact ⟨h, hp⟩
  | raise e => exact h
  | stmt l act next ih =>
    refine ⟨fun v hv => ?_, ih none h.2.1 (hp none), ih none h.2.2 (hp none)⟩
    obtain ⟨hw, n', hle, hlocks, h⟩ := h.1 v hv
    exact ⟨hw, n', hle, hlocks, ih (some v) h (hp (some v))⟩
  | commit next ih => exact fun b => ih b (h b) (hp b)
  | rollback next ih => exact fun b => ih b (h b) (hp b)

/-- A command takes its locks, is refused, or fails. -/
theorem exec {m : ℕ} {c : Command D ε α} (hle : n ≤ m)
    (hc : ∀ v, o.view v → (∀ k ∈ c.locks v, o.Takes i n m ks k) ∧
      ∀ a u, c.run v = .ok (a, u) → o.Respects u ∧ Q a m (c.locks v ++ ks))
    (hE : ∀ e n ks, E e n ks) : o.Ascends i Q E (Prog.exec l fault c) n ks := by
  refine ⟨fun v hv => ?_, hE .., hE ..⟩
  obtain ⟨hlocks, hrun⟩ := hc v hv
  rcases h : c.run v with e | ⟨a, u⟩
  · refine ⟨?_, m, hle, hlocks, ?_⟩
    · simp only [Command.action, h]
      exact fun d hd => hd
    · simp only [h]
      exact fun b => hE e 0 []
  · refine ⟨?_, m, hle, hlocks, ?_⟩
    · simp only [Command.action, h]
      exact (hrun a u h).1
    · simp only [h]
      exact (hrun a u h).2

/-- A query that locks nothing. -/
theorem query {f : D → α} (hQ : ∀ v, o.view v → Q (f v) n ks) (hE : ∀ e n ks, E e n ks) :
    o.Ascends i Q E (Prog.exec l fault (.query (fun _ => []) f)) n ks := by
  refine exec le_rfl (fun v hv => ⟨fun k hk => absurd hk List.not_mem_nil, ?_⟩) hE
  rintro - - ⟨⟩
  exact ⟨fun d hd => hd, hQ v hv⟩

theorem commitOr {Q : Unit → ℕ → List K → Prop} (hQ : Q () 0 []) (hE : E fault 0 []) :
    o.Ascends i Q E (Prog.commitOr fault : Prog D L ε Unit) n ks := by
  rintro (- | -)
  · exact hE
  · exact hQ

theorem rollbackOr {Q : Unit → ℕ → List K → Prop} (hQ : Q () 0 []) (hE : E fault 0 []) :
    o.Ascends i Q E (Prog.rollbackOr fault : Prog D L ε Unit) n ks := by
  rintro (- | -)
  · exact hE
  · exact hQ

end Ascends

/-! ## From level to level -/

variable (o i) in
/-- A program takes its locks from the level `n` on and below `m`, whatever it holds. -/
def Climbs (p : Prog D L ε α) (n m : ℕ) : Prop :=
  ∀ ks, o.Ascends i (fun _ n' _ => n' ≤ m) (fun _ _ _ => True) p n ks

namespace Climbs

variable {m m' : ℕ} {p : Prog D L ε α}

theorem ret {a : α} (hnm : n ≤ m) : o.Climbs i (.ret a : Prog D L ε α) n m := fun _ => hnm

theorem raise {e : ε} : o.Climbs i (.raise e : Prog D L ε α) n m := fun _ => trivial

/-- A program that takes its locks from a level on may start below it. -/
theorem mono (h : o.Climbs i p n m) (hn : n' ≤ n) (hm : m ≤ m') : o.Climbs i p n' m' := by
  intro ks
  replace h := h ks
  induction p generalizing n n' ks with
  | ret a => exact hn.trans (le_trans (show n ≤ m from h) hm)
  | raise e => trivial
  | stmt l act next ih =>
    refine ⟨fun v hv => ?_, ih none hn ks h.2.1, ih none le_rfl [] h.2.2⟩
    obtain ⟨hw, n₁, hle, hlocks, h⟩ := h.1 v hv
    refine ⟨hw, n₁, hn.trans hle, fun k hk => ?_, ih (some v) le_rfl _ h⟩
    exact (hlocks k hk).imp_right (And.imp_right (Or.imp_right (And.imp_left hn.trans)))
  | commit next ih => exact fun b => ih b le_rfl [] (h b)
  | rollback next ih => exact fun b => ih b le_rfl [] (h b)

theorem bind {f : α → Prog D L ε β} (h : o.Climbs i p n m)
    (hf : ∀ a, o.Climbs i (f a) m m') : o.Climbs i (p.bind f) n m' :=
  fun ks => Ascends.bind ((h ks).mono (fun a _ ks hn => (hf a).mono hn le_rfl ks) fun _ _ _ he => he)

theorem bind_returns {R : α → Prop} {f : α → Prog D L ε β} (h : o.Climbs i p n m) (hp : p.Returns R)
    (hf : ∀ a, R a → o.Climbs i (f a) m m') : o.Climbs i (p.bind f) n m' :=
  fun ks => Ascends.bind
    (((h ks).returns hp).mono (fun a _ ks ha => (hf a ha.2).mono ha.1 le_rfl ks) fun _ _ _ he => he)

/-- The handler starts from anywhere. -/
theorem handle {f : ε → Prog D L ε α} (h : o.Climbs i p n m) (hf : ∀ e n, o.Climbs i (f e) n m) :
    o.Climbs i (p.handle f) n m :=
  fun ks => Ascends.handle ((h ks).mono (fun _ _ _ hn => hn) fun e n ks _ => hf e n ks)

theorem exec {c : Command D ε α} (hnm : n ≤ m)
    (hlocks : ∀ v, o.view v → ∀ k ∈ c.locks v, o.owner k = some i ∨ o.owner k = none ∧
      n ≤ o.rank k ∧ o.rank k < m)
    (hrun : ∀ v a u, o.view v → c.run v = .ok (a, u) → o.Respects u) :
    o.Climbs i (Prog.exec l fault c) n m := by
  refine fun ks =>
    .exec hnm (fun v hv => ⟨fun k hk => ?_, fun a u hu => ⟨hrun v a u hv hu, le_rfl⟩⟩) fun _ _ _ =>
      trivial
  exact (hlocks v hv k hk).imp_right (And.imp_right .inr)

/-- A query that locks nothing. -/
theorem query {f : D → α} : o.Climbs i (Prog.exec l fault (.query (fun _ => []) f)) n n :=
  fun _ => Ascends.query (fun _ _ => le_rfl) fun _ _ _ => trivial

/-- What a query reads may decide what is locked next. -/
theorem query_bind {f : D → α} {k : α → Prog D L ε β}
    (hk : ∀ v, o.view v → o.Climbs i (k (f v)) n m) :
    o.Climbs i ((Prog.exec l fault (.query (fun _ => []) f)).bind k) n m :=
  fun ks => Ascends.bind (.query (fun v hv => hk v hv ks) fun _ _ _ => trivial)

theorem commitOr : o.Climbs i (Prog.commitOr fault : Prog D L ε Unit) n m :=
  fun _ => Ascends.commitOr (Nat.zero_le m) trivial

theorem rollbackOr : o.Climbs i (Prog.rollbackOr fault : Prog D L ε Unit) n m :=
  fun _ => Ascends.rollbackOr (Nat.zero_le m) trivial

end Climbs

/-! ## Parts of a store -/

/-- The order of the locks of a part. -/
def comap (o : LockOrder ι S) (part : Part S D) (view : D → Prop) : LockOrder ι D :=
  ⟨view, fun k => o.owner (part.lock k), fun k => o.rank (part.lock k), o.bound,
    fun k => o.rank_lt (part.lock k)⟩

/-- A program over a part takes its locks in the order of the store. -/
theorem Ascends.lift {o : LockOrder ι S} {part : Part S D} {view : D → Prop} {label : L → L'}
    {error : ε → ε'} {Q' : α → ℕ → List M → Prop} {E' : ε' → ℕ → List M → Prop} {p : Prog D L ε α}
    {ms : List M} (hview : ∀ s, o.view s → view (part.get s))
    (hwrite : ∀ u : D → D, (∀ d, view d → view (u d)) → o.Respects (part.write u))
    (hQ : ∀ a n ks ms, Q a n ks → Q' a n ms) (hE : ∀ e n ks ms, E e n ks → E' (error e) n ms)
    (h : (o.comap part view).Ascends i Q E p n ks) (hms : ∀ k ∈ ks, part.lock k ∈ ms) :
    o.Ascends i Q' E' (p.lift part label error) n ms := by
  induction p generalizing n ks ms with
  | ret a => exact hQ a n ks ms h
  | raise e => exact hE e n ks ms h
  | stmt l act next ih =>
    refine ⟨fun s hs => ?_, ih none h.2.1 hms, ih none h.2.2 fun k hk => absurd hk List.not_mem_nil⟩
    obtain ⟨hw, n', hle, hlocks, h⟩ := h.1 (part.get s) (hview s hs)
    refine ⟨hwrite _ hw, n', hle, fun m hm => ?_, ih (some (part.get s)) h fun k hk => ?_⟩
    · obtain ⟨k, hk, rfl⟩ := List.mem_map.1 hm
      exact (hlocks k hk).imp_right (And.imp_right (Or.imp_left (hms k)))
    · exact List.mem_append.2 ((List.mem_append.1 hk).imp List.mem_map_of_mem (hms k))
  | commit next ih => exact fun b => ih b (h b) fun k hk => absurd hk List.not_mem_nil
  | rollback next ih => exact fun b => ih b (h b) fun k hk => absurd hk List.not_mem_nil

theorem Climbs.lift {o : LockOrder ι S} {part : Part S D} {view : D → Prop} {label : L → L'}
    {error : ε → ε'} {m : ℕ} {p : Prog D L ε α} (hview : ∀ s, o.view s → view (part.get s))
    (hwrite : ∀ u : D → D, (∀ d, view d → view (u d)) → o.Respects (part.write u))
    (h : (o.comap part view).Climbs i p n m) :
    o.Climbs i (p.lift part label error) n m :=
  fun _ => .lift hview hwrite (fun _ _ _ _ hn => hn) (fun _ _ _ _ he => he) (h []) fun _ hk =>
    absurd hk List.not_mem_nil

/-! ## Runs -/

variable (o i) in
/-- A session that keeps to the order: the locks that it holds are below the level from which its
    program goes on. -/
structure Keeps (x : Session D L ε α) : Prop where
  writes : o.Respects x.writes
  lost : x.prog = none → x.locks = []
  rest : ∀ p, x.prog = some p → ∃ n ks, ks ⊆ x.locks ∧
    (∀ k ∈ x.locks, o.owner k = some i ∨ o.owner k = none ∧ o.rank k < n) ∧
    o.Ascends i (fun _ _ _ => True) (fun _ _ _ => True) p n ks

theorem Keeps.idle {p : Prog D L ε α}
    (h : o.Ascends i (fun _ _ _ => True) (fun _ _ _ => True) p 0 []) :
    o.Keeps i (.idle (some p)) := by
  refine ⟨fun d hd => hd, fun _ => rfl, fun q hq => ?_⟩
  cases hq
  exact ⟨0, [], List.Subset.refl _, fun k hk => absurd hk List.not_mem_nil, h⟩

/-- A session holds no lock that another one owns. -/
theorem Keeps.owner {x : Session D L ε α} (h : o.Keeps i x) {k : K} (hk : k ∈ x.locks) :
    o.owner k = some i ∨ o.owner k = none := by
  rcases hp : x.prog with - | p
  · rw [h.lost hp] at hk
    exact absurd hk List.not_mem_nil
  · obtain ⟨n, ks, -, hbelow, -⟩ := h.rest p hp
    exact (hbelow k hk).imp_right (·.1)

/-- A session goes on in the order. -/
theorem Keeps.goes {x y : Session D L ε α} {d d' : D} {m : Move ι} (h : o.Keeps i x) (hd : o.view d)
    (hgo : Session.Goes i d x m d' y) : o.view d' ∧ o.Keeps i y := by
  cases hgo with
  | @stmt l act next w locks =>
    obtain ⟨n, ks, hsub, hbelow, hp⟩ := h.rest _ rfl
    obtain ⟨hwrite, n', hle, hlocks, hp⟩ := hp.1 (w d) (h.writes d hd)
    refine ⟨hd, hwrite.comp h.writes, fun hnone => (nomatch hnone), ?_⟩
    rintro - ⟨⟩
    -- The locks it holds are its own, or below the rank that it has come to.
    have hheld : ∀ k ∈ locks, o.owner k = some i ∨ o.owner k = none ∧ o.rank k < n' := fun k hk =>
      (hbelow k hk).imp_right (And.imp_right fun hlt => lt_of_lt_of_le hlt hle)
    refine ⟨n', act.locks (w d) ++ ks, ?_, fun k hk => ?_, hp⟩
    · exact List.append_subset.2 ⟨List.subset_append_left _ _,
        List.subset_append_of_subset_right _ hsub⟩
    rcases List.mem_append.1 hk with hk | hk
    · obtain howner | ⟨howner, hk | ⟨-, hlt⟩⟩ := hlocks k hk
      · exact .inl howner
      · exact hheld k (hsub hk)
      · exact .inr ⟨howner, hlt⟩
    · exact hheld k hk
  | stmt_fail =>
    obtain ⟨n, ks, hsub, hbelow, hp⟩ := h.rest _ rfl
    exact ⟨hd, .idle hp.2.2⟩
  | interrupt =>
    obtain ⟨n, ks, hsub, hbelow, hp⟩ := h.rest _ rfl
    refine ⟨hd, h.writes, fun hnone => (nomatch hnone), ?_⟩
    rintro - ⟨⟩
    exact ⟨n, ks, hsub, hbelow, hp.2.1⟩
  | commit =>
    obtain ⟨n, ks, hsub, hbelow, hp⟩ := h.rest _ rfl
    exact ⟨h.writes d hd, .idle (hp true)⟩
  | commit_fail =>
    obtain ⟨n, ks, hsub, hbelow, hp⟩ := h.rest _ rfl
    exact ⟨hd, .idle (hp false)⟩
  | rollback =>
    obtain ⟨n, ks, hsub, hbelow, hp⟩ := h.rest _ rfl
    exact ⟨hd, .idle (hp true)⟩
  | rollback_fail =>
    obtain ⟨n, ks, hsub, hbelow, hp⟩ := h.rest _ rfl
    exact ⟨hd, .idle (hp false)⟩
  | crash => exact ⟨hd, fun d hd => hd, fun _ => rfl, fun p hp => (nomatch hp)⟩
  | @close p w locks hended =>
    refine ⟨hd, .idle ?_⟩
    cases p with
    | ret | raise => trivial
    | stmt | commit | rollback => exact hended.elim

variable [DecidableEq ι] {C : Condition ι D K L} {s s' : System ι D L ε α} {m : Move ι}

variable (o) in
/-- All sessions keep to the order, and each lock is held by one of them. -/
structure Good (s : System ι D L ε α) : Prop where
  view : o.view s.store
  disjoint : ∀ i j, i ≠ j → (s.session i).locks.Disjoint (s.session j).locks
  keeps : ∀ i, o.Keeps i (s.session i)

end LockOrder

/-- What a session locks in a step, no other session holds. -/
theorem Step.locks [DecidableEq ι] {C : Condition ι D K L} {s s' : System ι D L ε α} {m : Move ι}
    (h : Step C s m s') {j : ι} (hj : j ≠ m.session)
    (hdisjoint : (s.session m.session).locks.Disjoint (s.session j).locks) :
    (s'.session m.session).locks.Disjoint (s.session j).locks := by
  have hidle : ∀ p : Option (Prog D L ε α), (Session.idle p).locks.Disjoint (s.session j).locks :=
    fun _ => List.disjoint_nil_left _
  cases h with
  | @stmt i l act next w ks hs hc hfree =>
    simp only [Move.session, hs] at hdisjoint
    rw [Move.session, System.set_session_self]
    exact List.disjoint_append_left.2 ⟨hfree j hj, hdisjoint⟩
  | @interrupt i l act next w ks hs =>
    simp only [Move.session, hs] at hdisjoint
    rw [Move.session, System.set_session_self]
    exact hdisjoint
  | @commit i next w ks hs =>
    show ((s.set i _).session i).locks.Disjoint _
    rw [System.set_session_self]
    exact hidle _
  | stmt_fail | commit_fail | rollback | rollback_fail | crash | close =>
    rw [Move.session, System.set_session_self]
    exact hidle _

namespace LockOrder

variable [DecidableEq ι] {o : LockOrder ι D} {i : ι} {C : Condition ι D K L}
  {s s' : System ι D L ε α} {m : Move ι}

theorem Good.step (h : o.Good s) (hst : Step C s m s') : o.Good s' := by
  obtain ⟨hview, hkeeps⟩ := (h.keeps m.session).goes h.view hst.goes
  refine ⟨hview, fun i j hij => ?_, fun i => ?_⟩
  · by_cases hi : i = m.session
    · subst hi
      rw [hst.session_of_ne hij.symm]
      exact hst.locks hij.symm (h.disjoint _ j hij)
    by_cases hj : j = m.session
    · subst hj
      rw [hst.session_of_ne hi]
      exact (hst.locks hi (h.disjoint _ i hij.symm)).symm
    · rw [hst.session_of_ne hi, hst.session_of_ne hj]
      exact h.disjoint i j hij
  · by_cases hi : i = m.session
    · exact hi ▸ hkeeps
    · rw [hst.session_of_ne hi]
      exact h.keeps i

theorem Good.reach {prog : ι → Prog D L ε α} {d : D} (hd : o.view d)
    (hprog : ∀ i, o.Ascends i (fun _ _ _ => True) (fun _ _ _ => True) (prog i) 0 [])
    (hs : Reach C (System.init prog d) s) : o.Good s := by
  induction hs with
  | refl => exact ⟨hd, fun _ _ _ => List.disjoint_nil_left _, fun i => .idle (hprog i)⟩
  | step _ hst ih => exact ih.step hst

end LockOrder

/-! ## Progress -/

/-- A move in which nothing goes wrong. -/
def Move.Regular : Move ι → Prop
  | .run _ | .close _ => True
  | .fail _ | .interrupt _ | .crash _ => False

/-- The program of the session has ended, or is lost. -/
def System.Over (s : System ι D L ε α) (i : ι) : Prop := ∀ p, (s.session i).prog = some p → p.Ended

instance (s : System ι D L ε α) (i : ι) : Decidable (s.Over i) :=
  match hp : (s.session i).prog with
  | none => isTrue fun _ h => (nomatch hp.symm.trans h)
  | some p => decidable_of_iff p.Ended ⟨fun h _ hq => Option.some.inj (hp.symm.trans hq) ▸ h,
    fun h => h p hp⟩

/-- Some sessions have not ended, and none of them can go on. -/
def System.Stuck [DecidableEq ι] (s : System ι D L ε α) : Prop :=
  (∃ i, ¬s.Over i) ∧ ∀ m s', Step Always s m s' → ¬m.Regular

/-- What cannot be computed is no move. -/
theorem System.stuck_of_move [DecidableEq ι] [Fintype ι] [DecidableEq K] {s : System ι D L ε α}
    {i : ι} (hi : ¬s.Over i) (hrun : ∀ i, (s.move Always (.run i)).isNone)
    (hclose : ∀ i, (s.move Always (.close i)).isNone) : s.Stuck := by
  refine ⟨⟨i, hi⟩, fun m s' hst hm => ?_⟩
  cases hst with
  | @stmt j l act next w ks hs _ hfree =>
    have hnone := hrun j
    simp [System.move, hs, Always, hfree] at hnone
  | @commit j next w ks hs =>
    have hnone := hrun j
    simp [System.move, hs] at hnone
  | @rollback j next w ks hs =>
    have hnone := hrun j
    simp [System.move, hs] at hnone
  | @close j p w ks hs hended =>
    have hnone := hclose j
    simp [System.move, hs, hended] at hnone
  | stmt_fail | interrupt | commit_fail | rollback_fail | crash => exact hm

/-- A session has less to do than another one: its program is further on, or it has released its
    locks at the end. -/
inductive Session.Less : Session D L ε α → Session D L ε α → Prop
  | next {x y : Session D L ε α} {p q} : x.prog = some p → y.prog = some q → p.Next q → Less y x
  | close {x y : Session D L ε α} {p} : x.prog = some p → y.prog = some p → p.Ended → y.locks = [] →
    x.locks ≠ [] → Less y x

/-- No session has less and less to do. -/
theorem Session.wellFounded_less : WellFounded
    (Session.Less : Session D L ε α → Session D L ε α → Prop) := by
  -- A session at its end can release its locks, once.
  have hstep : ∀ (p : Prog D L ε α) (x : Session D L ε α), x.prog = some p →
      (∀ q, p.Next q → ∀ y : Session D L ε α, y.prog = some q → Acc Less y) → Acc Less x := by
    intro p x hx hnext
    have hclosed : ∀ y : Session D L ε α, y.prog = some p → y.locks = [] → Acc Less y := by
      intro y hy hlocks
      refine ⟨y, fun z hz => ?_⟩
      rcases hz with ⟨hp, hq, hpq⟩ | ⟨-, -, -, -, hne⟩
      · cases hy.symm.trans hp
        exact hnext _ hpq z hq
      · exact absurd hlocks hne
    refine ⟨x, fun y hy => ?_⟩
    rcases hy with ⟨hp, hq, hpq⟩ | ⟨hp, hq, -, hlocks, -⟩
    · cases hx.symm.trans hp
      exact hnext _ hpq y hq
    · cases hx.symm.trans hp
      exact hclosed y hq hlocks
  have hsome : ∀ (p : Prog D L ε α) (x : Session D L ε α), x.prog = some p → Acc Less x := by
    intro p
    induction p with
    | ret | raise => exact fun x hx => hstep _ x hx fun q hq => (nomatch hq)
    | stmt l act next ih =>
      refine fun x hx => hstep _ x hx fun q hq => ?_
      obtain ⟨v⟩ := hq
      exact ih v
    | commit next ih =>
      refine fun x hx => hstep _ x hx fun q hq => ?_
      rcases hq with - | ⟨b⟩ | ⟨b⟩
      exact ih b
    | rollback next ih =>
      refine fun x hx => hstep _ x hx fun q hq => ?_
      rcases hq with - | ⟨b⟩ | ⟨b⟩
      exact ih b
  refine ⟨fun x => ?_⟩
  rcases hx : x.prog with - | p
  · refine ⟨x, fun y hy => ?_⟩
    rcases hy with ⟨hp, -, -⟩ | ⟨hp, -, -, -, -⟩
    · exact nomatch hx.symm.trans hp
    · exact nomatch hx.symm.trans hp
  · exact hsome p x hx

section

variable [DecidableEq ι] {o : LockOrder ι D} {s : System ι D L ε α} {i : ι}

/-- A session that has something to do goes on, or waits for a lock that is above all that it
    holds. -/
theorem LockOrder.Good.goes_or_waits (h : o.Good s) (hi : ¬s.Over i ∨ (s.session i).locks ≠ []) :
    (∃ m s', Step Always s m s' ∧ m.Regular ∧ (s'.session m.session).Less (s.session m.session)) ∨
      ∃ j, ∃ k ∈ (s.session j).locks, o.owner k = none ∧
        ∀ k' ∈ (s.session i).locks, o.owner k' = none → o.rank k' < o.rank k := by
  rcases hx : s.session i with ⟨prog, w, locks⟩
  have hself : ∀ y : Session D L ε α, (s.set i y).session i = y := fun y => System.set_session_self ..
  have hprog : (s.session i).prog = prog := congrArg Session.prog hx
  rcases prog with - | p
  · -- A session that is lost holds nothing.
    rcases hi with hi | hi
    · exact absurd (fun p hp => (nomatch hprog.symm.trans hp)) hi
    · exact absurd ((h.keeps i).lost hprog) hi
  have hless : ∀ q, p.Next q → ∀ y : Session D L ε α, y.prog = some q →
      ((s.set i y).session i).Less (s.session i) := by
    intro q hq y hy
    rw [hself]
    exact .next hprog hy hq
  have hclose : p.Ended → (s.session i).locks ≠ [] :=
    fun hended => hi.resolve_left fun hover => hover fun q hq =>
      Option.some.inj (hprog.symm.trans hq) ▸ hended
  cases p with
  | ret | raise =>
    exact .inl ⟨.close i, _, .close hx trivial, trivial,
      .close hprog (congrArg Session.prog (hself _)) trivial
      (congrArg Session.locks (hself _)) (hclose trivial)⟩
  | commit next => exact .inl ⟨.run i, _, .commit hx, trivial, hless _ (.commit true) _ rfl⟩
  | rollback next => exact .inl ⟨.run i, _, .rollback hx, trivial, hless _ (.rollback true) _ rfl⟩
  | stmt l act next =>
    by_cases hfree : s.Free i (act.locks (w s.store))
    · exact .inl ⟨.run i, _, .stmt hx trivial hfree, trivial, hless _ (.stmt _) _ rfl⟩
    -- It waits for a lock `k` of another session `j`: none of its own, and none that `j` owns.
    obtain ⟨j, hj, k, hk, hkj⟩ : ∃ j, j ≠ i ∧ ∃ k ∈ act.locks (w s.store),
        k ∈ (s.session j).locks := by
      by_contra hnone
      exact hfree fun j hj k hk hkj => hnone ⟨j, hj, k, hk, hkj⟩
    have hview : o.view (w s.store) := by
      have hwrites := (h.keeps i).writes
      rw [hx] at hwrites
      exact hwrites _ h.view
    obtain ⟨n, ks, hsub, hbelow, hp⟩ := (h.keeps i).rest _ hprog
    obtain ⟨-, n', -, htakes, -⟩ := hp.1 (w s.store) hview
    have hne : o.owner k ≠ some i := by
      rcases (h.keeps j).owner hkj with howner | howner
      · rw [howner]
        exact fun heq => hj (Option.some.inj heq)
      · rw [howner]
        exact fun heq => (nomatch heq)
    obtain ⟨howner, hk' | ⟨hle, -⟩⟩ := (htakes k hk).resolve_left hne
    · exact absurd hkj (h.disjoint i j hj.symm (hsub hk'))
    · refine .inr ⟨j, k, hkj, howner, fun k' hk' howner' => ?_⟩
      obtain hown | ⟨-, hlt⟩ := hbelow k' (hx ▸ hk')
      · exact absurd (hown.symm.trans howner') (fun heq => (nomatch heq))
      · exact lt_of_lt_of_le hlt hle

/-- While there is a session that has not ended, some session goes on. -/
theorem LockOrder.Good.proceeds (h : o.Good s) (hi : ¬s.Over i) :
    ∃ m s', Step Always s m s' ∧ m.Regular ∧ (s'.session m.session).Less (s.session m.session) := by
  -- Who holds a lock goes on, or waits for a higher one: by induction on what is above the lock.
  have hholds : ∀ r j k, k ∈ (s.session j).locks → o.owner k = none → o.bound - o.rank k = r →
      ∃ m s', Step Always s m s' ∧ m.Regular ∧ (s'.session m.session).Less (s.session m.session) := by
    intro r
    induction r using Nat.strong_induction_on with
    | _ r ih =>
      intro j k hk howner hr
      obtain hgoes | ⟨j', k', hk', howner', hlt⟩ := h.goes_or_waits (.inr (List.ne_nil_of_mem hk))
      · exact hgoes
      · have hrank := hlt k hk howner
        have hbound := o.rank_lt k'
        exact ih (o.bound - o.rank k') (by omega) j' k' hk' howner' rfl
  obtain hgoes | ⟨j, k, hk, howner, -⟩ := h.goes_or_waits (.inl hi)
  · exact hgoes
  · exact hholds _ j k hk howner rfl

/-- Finitely many sessions that keep to an order can be brought to their ends, without a failure. -/
theorem LockOrder.Good.completes [Finite ι] (h : o.Good s) :
    ∃ ms s', Run (Step Always) s ms s' ∧ (∀ m ∈ ms, m.Regular) ∧ ∀ i, s'.Over i := by
  have hwf : WellFounded (Pi.Lex (WellOrderingRel : ι → ι → Prop) fun {_} =>
      (Session.Less : Session D L ε α → Session D L ε α → Prop)) :=
        Pi.Lex.wellFounded _ fun _ => Session.wellFounded_less
  induction hsession : s.session using hwf.induction generalizing s with
  | _ x ih =>
    by_cases hover : ∀ i, s.Over i
    · exact ⟨[], s, .refl, fun m hm => absurd hm List.not_mem_nil, hover⟩
    obtain ⟨i, hi⟩ := not_forall.1 hover
    obtain ⟨m, s₁, hst, hm, hless⟩ := h.proceeds hi
    have hlex : Pi.Lex WellOrderingRel (fun {_} => Session.Less) s₁.session x := by
      subst hsession
      refine ⟨m.session, fun j hj => hst.session_of_ne ?_, hless⟩
      exact fun heq => (irrefl _ (heq ▸ hj))
    obtain ⟨ms, s', hrun, hms, hs'⟩ := ih _ hlex (h.step hst) rfl
    refine ⟨m :: ms, s', hrun.cons hst, fun m' hm' => ?_, hs'⟩
    rcases List.mem_cons.1 hm' with rfl | hm'
    · exact hm
    · exact hms m' hm'

end

end ReadCommitted
