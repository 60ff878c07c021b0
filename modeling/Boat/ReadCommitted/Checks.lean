import Boat.ReadCommitted.Commands

/-!
# Checks before commits

Sessions that check something in one statement and commit later, without a lock on what they have
checked. The commits are fine if, whenever a session commits, no other session that it conflicts
with is between its check and its end (`Inside`).

* `Prog.Checked`: programs that check before they commit.
* `Checks.reach`: what they keep, and that what they have checked stays.
-/

namespace ReadCommitted

variable {ι D K L ε α β : Type} [Locking D K]

namespace Prog

/-- No statement with this label is left. -/
def Without (l : L) : Prog D L ε α → Prop
  | .ret _ | .raise _ => True
  | .stmt l' _ next => l' ≠ l ∧ ∀ v, (next v).Without l
  | .commit next | .rollback next => ∀ b, (next b).Without l

/-- After the check: every write satisfies `W`, and the program ends with its transaction. -/
def Inside (l : L) (W : (D → D) → Prop) : Prog D L ε α → Prop
  | .ret _ | .raise _ => True
  | .stmt l' act next => l' ≠ l ∧ (∀ v, W (act.write v)) ∧ (next none).Ended ∧
    ∀ v, (next (some v)).Inside l W
  | .commit next | .rollback next => ∀ b, (next b).Ended

/-- A program that commits only after the statement `l`, where it has seen `C`. -/
def Checked (l : L) (C : D → Prop) (W : (D → D) → Prop) : Prog D L ε α → Prop
  | .ret _ | .raise _ => True
  | .stmt l' act next => (∀ v, W (act.write v)) ∧ (next none).Ended ∧
      ∀ v, (l' ≠ l ∧ (next (some v)).Checked l C W) ∨ (next (some v)).Ended ∨ C v ∧
      (next (some v)).Inside l W
  | .commit _ => False
  | .rollback next => ∀ b, (next b).Ended

variable {l l' : L} {C : D → Prop} {W : (D → D) → Prop} {fault : ε} {c : Command D ε α}

theorem Ended.without {p : Prog D L ε α} (h : p.Ended) : p.Without l := by
  cases p with
  | ret a => trivial
  | raise e => trivial
  | stmt l' act next => exact h.elim
  | commit next => exact h.elim
  | rollback next => exact h.elim

theorem Inside.without {p : Prog D L ε α} (h : p.Inside l W) : p.Without l := by
  induction p with
  | ret a => trivial
  | raise e => trivial
  | stmt l' act next ih =>
    refine ⟨h.1, fun v => ?_⟩
    rcases v with - | v
    · exact h.2.2.1.without
    · exact ih _ (h.2.2.2 v)
  | commit next => exact fun b => (h b).without
  | rollback next => exact fun b => (h b).without

theorem bind_assoc {γ : Type} {p : Prog D L ε α} {f : α → Prog D L ε β} {g : β → Prog D L ε γ} :
    (p.bind f).bind g = p.bind fun a => (f a).bind g := by
  induction p with
  | ret a => rfl
  | raise e => rfl
  | stmt l act next ih => simp only [bind, ih]
  | commit next ih => simp only [bind, ih]
  | rollback next ih => simp only [bind, ih]

/-! Of a command, what follows it has to be inside or checked. -/

theorem inside_exec_bind (hl : l' ≠ l) (hid : W id) (hc : ∀ v a u, c.run v = .ok (a, u) → W u)
    {f : α → Prog D L ε β} (hf : ∀ a, (f a).Inside l W) : ((exec l' fault c).bind f).Inside l W := by
  refine ⟨hl, fun v => ?_, trivial, fun v => ?_⟩
  · simp only [Command.action]
    rcases h : c.run v with e | ⟨a, u⟩
    · exact hid
    · exact hc v a u h
  · rcases h : c.run v with e | ⟨a, u⟩
    · simp only [h]
      exact fun _ => trivial
    · simp only [h]
      exact hf a

theorem inside_commitOr : (commitOr fault : Prog D L ε Unit).Inside l W := by
  rintro (- | -)
  · trivial
  · trivial

theorem inside_commitOr_bind (a : α) :
    ((commitOr fault : Prog D L ε Unit).bind fun _ => .ret a).Inside l W := by
  rintro (- | -)
  · trivial
  · trivial

theorem checked_exec_bind (hl : l' ≠ l) (hid : W id) (hc : ∀ v a u, c.run v = .ok (a, u) → W u)
    {f : α → Prog D L ε β} (hf : ∀ a, (f a).Checked l C W) :
    ((exec l' fault c).bind f).Checked l C W := by
  refine ⟨fun v => ?_, trivial, fun v => .inl ⟨hl, ?_⟩⟩
  · simp only [Command.action]
    rcases h : c.run v with e | ⟨a, u⟩
    · exact hid
    · exact hc v a u h
  · rcases h : c.run v with e | ⟨a, u⟩
    · simp only [h]
      exact fun _ => trivial
    · simp only [h]
      exact hf a

/-- The check is a query. -/
theorem check_query_bind (hid : W id) {locks : D → List K} {g : D → α} {f : α → Prog D L ε β}
    (hf : ∀ v, (f (g v)).Ended ∨ C v ∧ (f (g v)).Inside l W) :
    ((exec l fault (.query locks g)).bind f).Checked l C W :=
  ⟨fun _ => hid, trivial, fun v => .inr (hf v)⟩

end Prog

variable [DecidableEq ι] {s s' s'' : System ι D L ε α}

/-- The session is in progress, with its check `l` behind it. -/
def System.Inside (s : System ι D L ε α) (i : ι) (l : L) : Prop :=
  ∃ p, (s.session i).prog = some p ∧ ¬p.Ended ∧ p.Without l

/-- The systems reachable from `s` by steps that `A` allows. -/
inductive ReachIf (A : System ι D L ε α → Move ι → Prop)
    (s : System ι D L ε α) : System ι D L ε α → Prop
  | refl : ReachIf A s s
  | step {s' s'' m} : ReachIf A s s' → A s' m → Step Always s' m s'' → ReachIf A s s''

/-- Whenever a session commits, no session that it conflicts with is between its check and its end. -/
def NoOverlap (label : ι → L) (conflict : ι → ι → Prop) (s : System ι D L ε α) (m : Move ι) : Prop :=
  ∀ i next, m = .run i → (s.session i).prog = some (.commit next) → ∀ j, conflict i j →
    ¬s.Inside j (label j)

theorem Reach.reachIf {A : System ι D L ε α → Move ι → Prop} (hA : ∀ s m, A s m)
    (hs : Reach Always s s') :
    ReachIf A s s' := by
  induction hs with
  | refl => exact .refl
  | step _ hst ih => exact ih.step (hA _ _) hst

theorem ReachIf.reach {A : System ι D L ε α → Move ι → Prop}
    (hs : ReachIf A s s') : Reach Always s s' := by
  induction hs with
  | refl => exact .refl
  | step _ _ hst ih => exact ih.step hst

/-- Sessions that do not conflict may run in any order. -/
theorem Reach.noOverlap {label : ι → L} {conflict : ι → ι → Prop} (h : ∀ i j, ¬conflict i j)
    (hs : Reach Always s s') :
    ReachIf (NoOverlap label conflict) s s' :=
  hs.reachIf fun _ _ i _ _ _ j hij => absurd hij (h i j)

/-- Sessions that check `C` before they change the store by `R`. -/
structure Checks (prog : ι → Prog D L ε α) (label : ι → L) (C : ι → D → Prop) (R : ι → D → D → Prop)
    (inv : D → Prop) (conflict : ι → ι → Prop) : Prop where
  checked : ∀ i, (prog i).Checked (label i) (C i) fun w => ∀ d, R i d (w d)
  refl : ∀ i d, R i d d
  trans : ∀ i d d' d'', R i d d' → R i d' d'' → R i d d''
  reads : ∀ i d d', R i d d' → C i d' → C i d
  keeps : ∀ i d d', inv d → C i d → R i d d' → inv d'
  other : ∀ i j d d', j ≠ i → ¬conflict i j → inv d → C i d → C j d → R i d d' → C j d'

namespace Checks

variable {prog : ι → Prog D L ε α} {label : ι → L} {C : ι → D → Prop} {R : ι → D → D → Prop}
  {inv : D → Prop}
  {conflict : ι → ι → Prop}

/-- What is left of a session: it is before its check, or inside, where what it has checked holds. -/
def Left (label : ι → L) (C : ι → D → Prop) (R : ι → D → D → Prop) (i : ι) (d : D)
    (x : Session D L ε α) : Prop :=
  ∀ p, x.prog = some p → p.Ended ∨ (∀ d, R i d (x.writes d)) ∧
    (p.Checked (label i) (C i) (fun w => ∀ d, R i d (w d)) ∨
      C i d ∧ p.Inside (label i) fun w => ∀ d, R i d (w d))

omit [DecidableEq ι] in
theorem left_ended {i : ι} {d : D} {x : Session D L ε α}
    (h : ∀ p, x.prog = some p → p.Ended) : Left label C R i d x :=
  fun p hp => .inl (h p hp)

section Left

omit [DecidableEq ι]

variable {i : ι} {d : D} {x : Session D L ε α} {w : D → D} {ks : List K}

theorem Left.stmt_none {l : L} {act : Action D} {next : Option D → Prog D L ε α}
    (hx : Left label C R i d ⟨some (.stmt l act next), w, ks⟩) : (next none).Ended := by
  obtain hended | ⟨-, ⟨-, hended, -⟩ | ⟨-, -, -, hended, -⟩⟩ := hx _ rfl
  · exact hended.elim
  · exact hended
  · exact hended

theorem Left.rollback {next : Bool → Prog D L ε α}
    (hx : Left label C R i d ⟨some (.rollback next), w, ks⟩) (b : Bool) :
    (next b).Ended := by
  obtain hended | ⟨-, hnext | ⟨-, hnext⟩⟩ := hx _ rfl
  · exact hended.elim
  · exact hnext b
  · exact hnext b

/-- A session has checked before it commits, and ends then. -/
theorem Left.commit {next : Bool → Prog D L ε α}
    (hx : Left label C R i d ⟨some (.commit next), w, ks⟩) :
    (∀ d, R i d (w d)) ∧ C i d ∧ ∀ b, (next b).Ended := by
  obtain hended | ⟨hw, hfalse | ⟨hC, hnext⟩⟩ := hx _ rfl
  · exact hended.elim
  · exact hfalse.elim
  · exact ⟨hw, hC, hnext⟩

/-- A statement of a session is before its check, or is the check, or is inside. -/
theorem Left.stmt (h : Checks prog label C R inv conflict) {l : L} {act : Action D}
    {next : Option D → Prog D L ε α} (hx : Left label C R i d ⟨some (.stmt l act next), w, ks⟩)
    (ks' : List K) :
    Left label C R i d ⟨some (next (some (w d))), act.write (w d) ∘ w, ks'⟩ := by
  rintro _ ⟨⟩
  obtain hended | ⟨hw, hp⟩ := hx _ rfl
  · exact hended.elim
  have hcomp {u : D → D} (hu : ∀ d, R i d (u d)) (d : D) : R i d ((u ∘ w) d) :=
    h.trans _ _ _ _ (hw d) (hu _)
  obtain ⟨hwrite, -, hnext⟩ | ⟨hC, -, hwrite, -, hnext⟩ := hp
  · obtain ⟨-, hchecked⟩ | hended | ⟨hC, hinside⟩ := hnext (w d)
    · exact .inr ⟨hcomp (hwrite _), .inl hchecked⟩
    · exact .inl hended
    · exact .inr ⟨hcomp (hwrite _), .inr ⟨h.reads _ _ _ (hw _) hC, hinside⟩⟩
  · exact .inr ⟨hcomp (hwrite _), .inr ⟨hC, hnext _⟩⟩

/-- What a session has checked holds after the commit of another one that it does not conflict with,
    if it is inside. -/
theorem Left.other (h : Checks prog label C R inv conflict) {j : ι} {d' : D} (hne : j ≠ i)
    (hinv : inv d) (hC : C i d) (hR : R i d d')
    (hconflict : conflict i j → ∀ p, x.prog = some p → p.Without (label j) → p.Ended)
    (hx : Left label C R j d x) : Left label C R j d' x := by
  intro p hp
  by_cases hended : p.Ended
  · exact .inl hended
  obtain ⟨hw, hchecked | ⟨hCj, hinside⟩⟩ := (hx p hp).resolve_left hended
  · exact .inr ⟨hw, .inl hchecked⟩
  · have hnot : ¬conflict i j := fun hij => hended (hconflict hij p hp hinside.without)
    exact .inr ⟨hw, .inr ⟨h.other i j _ _ hne hnot hinv hC hCj hR, hinside⟩⟩

end Left

/-- What every step keeps. -/
theorem step (h : Checks prog label C R inv conflict)
    (hs : inv s.store ∧ ∀ i, Left label C R i s.store (s.session i)) {m : Move ι}
    (hA : NoOverlap label conflict s m) (hst : Step Always s m s') :
    inv s'.store ∧ ∀ i, Left label C R i s'.store (s'.session i) := by
  obtain ⟨hinv, hleft⟩ := hs
  -- A step that is no commit changes one session only.
  have hset {i : ι} {x : Session D L ε α} (hx : Left label C R i s.store x) :
      inv (s.set i x).store ∧ ∀ j, Left label C R j (s.set i x).store ((s.set i x).session j) := by
    refine ⟨hinv, fun j => ?_⟩
    by_cases hj : j = i
    · subst hj
      rw [System.set_session_self]
      exact hx
    · rw [System.set_session_of_ne _ _ hj]
      exact hleft j
  have hended {i : ι} {p : Prog D L ε α} {w : D → D} {ks : List K} (hp : p.Ended) :=
    hset (i := i) (left_ended (x := ⟨some p, w, ks⟩) (by rintro _ ⟨⟩; exact hp))
  cases hst with
  | @stmt i l act next w ks hi => exact hset (Left.stmt h (hi ▸ hleft i) _)
  | @stmt_fail i l act next w ks hi => exact hended (Left.stmt_none (hi ▸ hleft i))
  | @interrupt i l act next w ks hi => exact hended (Left.stmt_none (hi ▸ hleft i))
  | @commit i next w ks hi =>
    obtain ⟨hw, hC, hnext⟩ := Left.commit (hi ▸ hleft i)
    refine ⟨h.keeps _ _ _ hinv hC (hw _), fun j => ?_⟩
    show Left label C R j (w s.store) ((s.set i (.idle (some (next true)))).session j)
    by_cases hj : j = i
    · subst hj
      rw [System.set_session_self]
      refine left_ended ?_
      rintro _ ⟨⟩
      exact hnext true
    · rw [System.set_session_of_ne _ _ hj]
      refine Left.other h hj hinv hC (hw _) (fun hij p hp hwithout => ?_) (hleft j)
      by_contra hnot
      exact hA i next rfl (congrArg Session.prog hi) j hij ⟨p, hp, hnot, hwithout⟩
  | @commit_fail i next w ks hi => exact hended ((Left.commit (hi ▸ hleft i)).2.2 false)
  | @rollback i next w ks hi => exact hended (Left.rollback (hi ▸ hleft i) true)
  | @rollback_fail i next w ks hi => exact hended (Left.rollback (hi ▸ hleft i) false)
  | crash hi _ => exact hset nofun
  | close hi hp => exact hended hp

/-- What the sessions keep, in all runs in which no commit overlaps a conflicting session. -/
theorem reach (h : Checks prog label C R inv conflict) {d : D} (hd : inv d)
    (hs : ReachIf (NoOverlap label conflict) (System.init prog d) s) : inv s.store := by
  suffices hs : inv s.store ∧ ∀ i, Left label C R i s.store (s.session i) from hs.1
  induction hs with
  | refl =>
    refine ⟨hd, fun i => ?_⟩
    rintro _ ⟨⟩
    exact .inr ⟨h.refl i, .inl (h.checked i)⟩
  | step _ hA hst ih => exact h.step ih hA hst

end Checks

end ReadCommitted
