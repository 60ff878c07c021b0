import Boat.ReadCommitted.Commands

/-!
# Serial runs

Programs that return by their only commit (`Prog.ReturnsByCommit`) are serializable if each commit
does to the committed store what the program does alone: the sessions that have returned, in the
order of their commits, are a serial run of it (`Protocol.Meets.serial`).
-/

namespace ReadCommitted

variable {ι D K L ε α β : Type} [Locking D K]

/-- Steps of `T`, one after the other. -/
inductive Serial (T : ι → D → D → Prop) (d : D) : List ι → D → Prop
  | nil : Serial T d [] d
  | snoc {order i d' d''} : Serial T d order d' → T i d' d'' → Serial T d (order ++ [i]) d''

/-- What every step keeps, a serial run keeps. -/
theorem Serial.keeps {T : ι → D → D → Prop} {p : D → Prop}
    (hT : ∀ i d d', T i d d' → p d → p d') {d d' : D} {order : List ι} (h : Serial T d order d')
    (hd : p d) : p d' := by
  induction h with
  | nil => exact hd
  | snoc _ hstep ih => exact hT _ _ _ hstep ih

namespace Prog

/-- A program that ends with its commit, and returns only there. -/
def ReturnsByCommit : Prog D L ε α → Prop
  | .ret _ => False
  | .raise _ => True
  | .stmt _ _ next => ∀ v, (next v).ReturnsByCommit
  | .commit next => (∃ a, next true = .ret a) ∧ ∃ e, next false = .raise e
  | .rollback next => ∀ b, (next b).ReturnsByCommit

theorem ReturnsByCommit.bind {p : Prog D L ε α} {f : α → Prog D L ε β} (hp : p.Deferred)
    (hf : ∀ a, (f a).ReturnsByCommit) : (p.bind f).ReturnsByCommit := by
  induction p with
  | ret a => exact hf a
  | raise e => trivial
  | stmt l act next ih =>
    obtain ⟨⟨e, he⟩, hp⟩ := hp
    intro v
    rcases v with - | v
    · show ((next none).bind f).ReturnsByCommit
      rw [he]
      trivial
    · exact ih _ (hp v)
  | commit next => exact hp.elim
  | rollback next =>
    intro b
    obtain ⟨e, he⟩ := hp b
    show ((next b).bind f).ReturnsByCommit
    rw [he]
    trivial

theorem ReturnsByCommit.map {p : Prog D L ε α} {f : α → β} (hp : p.ReturnsByCommit) :
    (p.bind fun a => .ret (f a)).ReturnsByCommit := by
  induction p with
  | ret a => exact hp.elim
  | raise e => trivial
  | stmt l act next ih => exact fun v => ih v (hp v)
  | commit next =>
    obtain ⟨⟨a, ha⟩, e, he⟩ := hp
    exact ⟨⟨f a, congrArg (·.bind fun a => .ret (f a)) ha⟩, e,
      congrArg (·.bind fun a => .ret (f a)) he⟩
  | rollback next ih => exact fun b => ih b (hp b)

theorem ReturnsByCommit.commitsLast {p : Prog D L ε α} (hp : p.ReturnsByCommit) : p.CommitsLast := by
  induction p with
  | ret a => trivial
  | raise e => trivial
  | stmt l act next ih => exact fun v => ih v (hp v)
  | commit next => exact hp
  | rollback next ih => exact fun b => ih b (hp b)

theorem returnsByCommit_commitOr_bind (fault : ε) (a : α) :
    ((commitOr fault : Prog D L ε Unit).bind fun _ => .ret a).ReturnsByCommit :=
  ⟨⟨a, rfl⟩, fault, rfl⟩

/-- What is left of such a program: it has returned, or will return by a commit. -/
def ReturnedOrCommits (p : Prog D L ε α) : Prop := (∃ a, p = .ret a) ∨ p.ReturnsByCommit

theorem ReturnedOrCommits.next {p q : Prog D L ε α} (hp : p.ReturnedOrCommits)
    (h : p.Next q) : q.ReturnedOrCommits := by
  rcases hp with ⟨a, rfl⟩ | hp
  · cases h
  · rcases h with ⟨v⟩ | ⟨b⟩ | ⟨b⟩
    · exact .inr (hp v)
    · obtain ⟨⟨a, ha⟩, e, he⟩ := hp
      rcases b with - | -
      · rw [he]
        exact .inr trivial
      · exact .inl ⟨a, ha⟩
    · exact .inr (hp b)

end Prog

variable [DecidableEq ι] {C : Condition ι D K L} {s s' : System ι D L ε α} {i : ι}

theorem System.returned_set {x : Session D L ε α} {j : ι}
    (hx : (∃ a, x.prog = some (.ret a)) ↔ ∃ a, s.returned i = some a) :
    (∃ a, (s.set i x).returned j = some a) ↔ ∃ a, s.returned j = some a := by
  by_cases hj : j = i
  · subst hj
    simp only [System.returned_eq_some, System.set_session_self] at hx ⊢
    exact hx
  · simp only [System.returned_eq_some, System.set_session_of_ne _ _ hj]

/-- A session of which nothing is left that returns. -/
theorem not_returned {p : Prog D L ε α} (hp : p.ReturnsByCommit) : ¬∃ a, some p = some (.ret a) := by
  rintro ⟨a, ⟨⟩⟩
  exact hp

/-- A session whose program returns by a commit only returns in the step of its commit. -/
theorem Reach.commit_of_returned {prog : ι → Prog D L ε α} {d : D}
    (hs : Reach C (System.init prog d) s) (hprog : (prog i).ReturnsByCommit) {m : Move ι}
    (hst : Step C s m s') (hnone : s.returned i = none) {a : α} (ha : s'.returned i = some a) :
    ∃ next, m = .run i ∧ (s.session i).prog = some (.commit next) := by
  have hrest : ∀ {p}, (s.session i).prog = some p → p.ReturnsByCommit := by
    intro p hp
    obtain ⟨a, rfl⟩ | hp' := hs.of_next (.inr hprog) (fun _ _ => Prog.ReturnedOrCommits.next) p hp
    · rw [System.returned_eq_some.2 hp] at hnone
      cases hnone
    · exact hp'
  rw [System.returned_eq_some] at ha
  -- The session that moves is the one that returns.
  have hset : ∀ {j : ι} {x : Session D L ε α}, ((s.set j x).session i).prog = some (.ret a) →
      j = i ∧ x.prog = some (.ret a) := by
    intro j x hx
    by_cases hj : i = j
    · subst hj
      rw [System.set_session_self] at hx
      exact ⟨rfl, hx⟩
    · rw [System.set_session_of_ne _ _ hj] at hx
      rw [System.returned_eq_some.2 hx] at hnone
      cases hnone
  cases hst with
  | @stmt j l act next w ks hj =>
    obtain ⟨rfl, hx⟩ := hset ha
    have h := hrest (congrArg Session.prog hj) (some (w s.store))
    rw [Option.some.inj hx] at h
    exact h.elim
  | @stmt_fail j l act next w ks hj =>
    obtain ⟨rfl, hx⟩ := hset ha
    have h := hrest (congrArg Session.prog hj) none
    rw [Option.some.inj hx] at h
    exact h.elim
  | @interrupt j l act next w ks hj =>
    obtain ⟨rfl, hx⟩ := hset ha
    have h := hrest (congrArg Session.prog hj) none
    rw [Option.some.inj hx] at h
    exact h.elim
  | @commit j next w ks hj =>
    obtain ⟨rfl, -⟩ := hset ha
    exact ⟨next, rfl, congrArg Session.prog hj⟩
  | @commit_fail j next w ks hj =>
    obtain ⟨rfl, hx⟩ := hset ha
    obtain ⟨-, e, he⟩ := hrest (congrArg Session.prog hj)
    rw [Session.idle, he] at hx
    cases hx
  | @rollback j next w ks hj =>
    obtain ⟨rfl, hx⟩ := hset ha
    have h := hrest (congrArg Session.prog hj) true
    rw [Option.some.inj hx] at h
    exact h.elim
  | @rollback_fail j next w ks hj =>
    obtain ⟨rfl, hx⟩ := hset ha
    have h := hrest (congrArg Session.prog hj) false
    rw [Option.some.inj hx] at h
    exact h.elim
  | crash hj =>
    obtain ⟨rfl, hx⟩ := hset ha
    cases hx
  | close hj =>
    obtain ⟨rfl, hx⟩ := hset ha
    have h := hrest (congrArg Session.prog hj)
    rw [Option.some.inj hx] at h
    exact h.elim

namespace Protocol

variable {P : Protocol ι D K L} {prog : ι → Prog D L ε α} {d : D} {R : ι → α → D → Prop}
  {X : ι → ε → D → Prop}

/-- The sessions that have returned have run one after the other, in the order of their commits. -/
theorem Meets.serial (hp : P.Meets prog d R X) {T : ι → D → D → Prop}
    (hprog : ∀ i, (prog i).ReturnsByCommit)
    (hguar : ∀ i ks d d', P.inv d → P.guar i ks d d' → T i d d')
    (hs : Reach P.cond (System.init prog d) s) :
    ∃ order : List ι, order.Nodup ∧ (∀ i, i ∈ order ↔ ∃ a, s.returned i = some a) ∧
    Serial T d order s.store := by
  induction hs with
  | refl =>
    refine ⟨[], List.nodup_nil, fun i => ?_, .nil⟩
    have hnot := not_returned (hprog i)
    simp only [System.returned_eq_some]
    exact iff_of_false List.not_mem_nil hnot
  | @step s s' m hs hst ih =>
    obtain ⟨order, hnodup, hreturned, hserial⟩ := ih
    have hrest : ∀ {j p}, (s.session j).prog = some p → p.ReturnedOrCommits := fun {j p} hp =>
      hs.of_next (.inr (hprog j)) (fun _ _ => Prog.ReturnedOrCommits.next) p hp
    -- A step that is no commit changes neither the store nor who has returned.
    have hset : ∀ {j : ι} {x : Session D L ε α} {p : Prog D L ε α},
        s' = s.set j x → (s.session j).prog = some p →
          ¬p.Ended → (∀ a, x.prog ≠ some (.ret a)) → ∃ order : List ι, order.Nodup ∧
            (∀ i, i ∈ order ↔ ∃ a, s'.returned i = some a) ∧ Serial T d order s'.store := by
      rintro j x p rfl hp hended hx
      refine ⟨order, hnodup, fun i => ?_, hserial⟩
      rw [hreturned, System.returned_set]
      refine iff_of_false (fun ⟨a, ha⟩ => hx a ha) fun ⟨a, ha⟩ => ?_
      rw [System.returned_eq_some, hp] at ha
      cases ha
      exact hended trivial
    have hnot : ∀ {p : Prog D L ε α}, p.ReturnsByCommit → ∀ a, some p ≠ some (.ret a) :=
      fun hp a ha =>
      not_returned hp ⟨a, ha⟩
    cases hst with
    | stmt hj =>
      obtain ⟨a, ⟨⟩⟩ | hrest := hrest (congrArg Session.prog hj)
      exact hset rfl (congrArg Session.prog hj) id (hnot (hrest _))
    | stmt_fail hj =>
      obtain ⟨a, ⟨⟩⟩ | hrest := hrest (congrArg Session.prog hj)
      exact hset rfl (congrArg Session.prog hj) id (hnot (hrest _))
    | interrupt hj =>
      obtain ⟨a, ⟨⟩⟩ | hrest := hrest (congrArg Session.prog hj)
      exact hset rfl (congrArg Session.prog hj) id (hnot (hrest _))
    | @commit j next w ks hj =>
      obtain ⟨a, ⟨⟩⟩ | ⟨⟨a, ha⟩, -⟩ := hrest (congrArg Session.prog hj)
      have hgood := hp.good hs
      have hw := hgood.wp j _ (congrArg Session.prog hj)
      simp only [hj] at hw
      obtain ⟨-, hg, -⟩ := (hw _ .refl hgood.inv).1
      have hprog' : (s.session j).prog = some (.commit next) := congrArg Session.prog hj
      have hnew : j ∉ order := by
        rw [hreturned]
        rintro ⟨a, ha⟩
        rw [System.returned_eq_some, hprog'] at ha
        cases ha
      refine ⟨order ++ [j], List.nodup_append.2 ⟨hnodup, List.nodup_singleton j, ?_⟩, fun i => ?_,
        hserial.snoc (hguar _ _ _ _ hgood.inv hg)⟩
      · rintro i hi _ hj' rfl
        exact hnew (List.mem_singleton.1 hj' ▸ hi)
      · have hsession : (System.session ⟨w s.store, (s.set j (.idle (some (next true)))).session⟩ i) =
            (s.set j (.idle (some (next true)))).session i := rfl
        by_cases hij : i = j
        · subst hij
          refine iff_of_true (List.mem_append_right _ (List.mem_singleton_self i))
            ⟨a, System.returned_eq_some.2 ?_⟩
          rw [hsession, System.set_session_self, ha]
          rfl
        · rw [List.mem_append, or_iff_left (fun h => hij (List.mem_singleton.1 h)), hreturned]
          simp only [System.returned_eq_some, System.set_session_of_ne _ _ hij]
    | commit_fail hj =>
      obtain ⟨a, ⟨⟩⟩ | ⟨-, e, he⟩ := hrest (congrArg Session.prog hj)
      exact hset rfl (congrArg Session.prog hj) id (hnot (he ▸ trivial))
    | rollback hj =>
      obtain ⟨a, ⟨⟩⟩ | hrest := hrest (congrArg Session.prog hj)
      exact hset rfl (congrArg Session.prog hj) id (hnot (hrest _))
    | rollback_fail hj =>
      obtain ⟨a, ⟨⟩⟩ | hrest := hrest (congrArg Session.prog hj)
      exact hset rfl (congrArg Session.prog hj) id (hnot (hrest _))
    | crash hj hended => exact hset rfl (congrArg Session.prog hj) hended nofun
    | @close j p w ks hj hended =>
      refine ⟨order, hnodup, fun i => ?_, hserial⟩
      rw [hreturned, System.returned_set]
      simp only [System.returned_eq_some, hj]
      rfl

end Protocol

end ReadCommitted
