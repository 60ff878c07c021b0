import Boat.ReadCommitted.Commands
import Boat.ReadCommitted.Part

/-!
# How programs end

Specifications of programs that do not depend on the store: whatever the statements return, and
whether they fail, the results satisfy `R` and the exceptions satisfy `X` (`Prog.Ends`;
`Prog.Raises` is about the exceptions alone). They compose like programs do, see `ends_bind` and
`ends_handle`, and hold in every run, whatever the other sessions do (`Reach.ends`).
-/

namespace ReadCommitted

variable {ι S D M K L L' ε ε' α β : Type} [Locking S M] [Locking D K]

namespace Prog

/-- The program may only return what satisfies `R`, and only raise what satisfies `X`. -/
def Ends (R : α → Prop) (X : ε → Prop) : Prog D L ε α → Prop
  | .ret a => R a
  | .raise e => X e
  | .stmt _ _ next => ∀ v, (next v).Ends R X
  | .commit next => ∀ b, (next b).Ends R X
  | .rollback next => ∀ b, (next b).Ends R X

variable {R R' : α → Prop} {X X' : ε → Prop} {p : Prog D L ε α}

@[simp] theorem ends_ret {a : α} : (Prog.ret a : Prog D L ε α).Ends R X ↔ R a := .rfl

@[simp] theorem ends_raise {e : ε} : (Prog.raise e : Prog D L ε α).Ends R X ↔ X e := .rfl

theorem Ends.mono (hp : p.Ends R X) (hR : ∀ a, R a → R' a) (hX : ∀ e, X e → X' e) : p.Ends R' X' := by
  induction p with
  | ret a => exact hR a hp
  | raise e => exact hX e hp
  | stmt l act next ih => exact fun v => ih v (hp v)
  | commit next ih => exact fun b => ih b (hp b)
  | rollback next ih => exact fun b => ih b (hp b)

theorem ends_bind {R : β → Prop} {f : α → Prog D L ε β} :
    (p.bind f).Ends R X ↔ p.Ends (fun a => (f a).Ends R X) X := by
  induction p with
  | ret a => rfl
  | raise e => rfl
  | stmt l act next ih => exact forall_congr' ih
  | commit next ih => exact forall_congr' ih
  | rollback next ih => exact forall_congr' ih

theorem ends_handle {h : ε → Prog D L ε α} : (p.handle h).Ends R X ↔ p.Ends R fun e =>
    (h e).Ends R X := by
  induction p with
  | ret a => rfl
  | raise e => rfl
  | stmt l act next ih => exact forall_congr' ih
  | commit next ih => exact forall_congr' ih
  | rollback next ih => exact forall_congr' ih

/-- What comes first returns what the rest relies on. -/
theorem Ends.bind {R : β → Prop} {T : α → Prop} {f : α → Prog D L ε β} (hp : p.Ends T X)
    (hf : ∀ a, T a → (f a).Ends R X) : (p.bind f).Ends R X := ends_bind.2 (hp.mono hf fun _ h => h)

/-- What is raised satisfies what the handler relies on. -/
theorem Ends.handle {Y : ε → Prop} {h : ε → Prog D L ε α} (hp : p.Ends R Y)
    (hh : ∀ e, Y e → (h e).Ends R X) :
    (p.handle h).Ends R X := ends_handle.2 (hp.mono (fun _ h => h) hh)

/-- The program may only raise what satisfies `X`, whatever it returns. -/
abbrev Raises (X : ε → Prop) (p : Prog D L ε α) : Prop := p.Ends (fun _ => True) X

theorem Raises.bind {f : α → Prog D L ε β} (hp : p.Raises X)
    (hf : ∀ a, (f a).Raises X) : (p.bind f).Raises X :=
  Ends.bind hp fun a _ => hf a

/-- What comes first returns what the rest relies on. -/
theorem Raises.after {R : α → Prop} {f : α → Prog D L ε β} (hp : p.Ends R X)
    (hf : ∀ a, R a → (f a).Raises X) :
    (p.bind f).Raises X := Ends.bind hp hf

theorem Raises.handle {Y : ε → Prop} {h : ε → Prog D L ε α} (hp : p.Raises Y)
    (hh : ∀ e, Y e → (h e).Raises X) :
    (p.handle h).Raises X := Ends.handle hp hh

/-- A command runs, is refused, or fails. -/
theorem Ends.exec {l : L} {fault : ε} {c : Command D ε α} (hrun : ∀ v a w, c.run v = .ok (a, w) → R a)
    (hrefused : ∀ v e, c.run v = .error e → X e) (hfault : X fault) :
    (Prog.exec l fault c).Ends R X := by
  intro v
  rcases v with - | v
  · exact hfault
  · rcases h : c.run v with e | ⟨a, w⟩
    · simp only [h]
      exact fun _ => hrefused v e h
    · simp only [h]
      exact hrun v a w h

/-- A query is not refused. -/
theorem Ends.query {l : L} {fault : ε} {locks : D → List K} {f : D → α} (hrun : ∀ v, R (f v))
    (hfault : X fault) :
    (Prog.exec l fault (.query locks f)).Ends R X :=
  .exec (fun v _ _ h => by cases h; exact hrun v) (fun _ _ h => nomatch h) hfault

/-! Of the other commands nothing is known but how they are refused. -/

theorem Ends.insert {η : Type} {R : Unit → Prop} {l : L} {fault : ε} {lock : η → K}
    {hasEntry : D → η → Bool} {refused : η → ε} {entries : List η} {w : D → D}
    {hw : Touches (entries.map lock) w} (hR : R ()) (hrefused : ∀ e, X (refused e))
    (hfault : X fault) :
    (Prog.exec l fault (.insert lock hasEntry refused entries w hw)).Ends R X := by
  refine .exec (fun _ _ _ _ => hR) (fun v e h => ?_) hfault
  simp only [Command.insert] at h
  split at h
  · cases h
    exact hrefused _
  · cases h

theorem Ends.update {R : Unit → Prop} {ρ : Type} {l : L} {fault : ε} {find : D → Option ρ}
    {lock : ρ → K} {stale : ε} {w : ρ → D → D} {hw : ∀ r, Touches [lock r] (w r)} (hR : R ())
    (hstale : X stale) (hfault : X fault) :
    (Prog.exec l fault (.update find lock stale w hw)).Ends R X := by
  refine .exec (fun _ _ _ _ => hR) (fun v e h => ?_) hfault
  simp only [Command.update] at h
  split at h
  · cases h
    exact hstale
  · cases h

theorem Ends.insertOnConflict {η ρ : Type} {R : Option ρ → Prop} {l : L} {fault : ε}
    {find : D → Option ρ} {rowLocks : ρ → List K} {update : ρ → D → D}
    {hupdate : ∀ r, Touches (rowLocks r) (update r)} {lock : η → K} {hasEntry : D → η → Bool}
    {refused : η → ε} {entries : List η} {w : D → D} {hw : Touches (entries.map lock) w}
    (hR : ∀ o, R o) (hrefused : ∀ e, X (refused e)) (hfault : X fault) :
    (Prog.exec l fault
      (.insertOnConflict find rowLocks update hupdate lock hasEntry refused entries w
        hw)).Ends R X := by
  refine .exec (fun _ o _ _ => hR o) (fun v e h => ?_) hfault
  simp only [Command.insertOnConflict] at h
  split at h
  · cases h
  · cases h
    exact hrefused _
  · cases h

theorem Ends.modify {l : L} {fault : ε} {f : D → α} {locks : α → List K} {w : α → D → D}
    {hw : ∀ a, Touches (locks a) (w a)} (hR : ∀ a, R a) (hfault : X fault) :
    (Prog.exec l fault (.modify f locks w hw)).Ends R X :=
  .exec (fun _ a _ _ => hR a) (fun _ _ h => nomatch h) hfault

theorem Ends.commitOr {R : Unit → Prop} {fault : ε} (hR : R ()) (hfault : X fault) :
    (Prog.commitOr fault : Prog D L ε Unit).Ends R X := fun b => by
  cases b
  · exact hfault
  · exact hR

theorem Ends.rollbackOr {R : Unit → Prop} {fault : ε} (hR : R ()) (hfault : X fault) :
    (Prog.rollbackOr fault : Prog D L ε Unit).Ends R X := fun b => by
  cases b
  · exact hfault
  · exact hR

/-- The exceptions of a part, in the whole. -/
theorem Ends.lift {part : Part S D} {label : L → L'} {error : ε → ε'} {X : ε' → Prop}
    (hp : p.Ends R fun e => X (error e)) : (p.lift part label error).Ends R X := by
  induction p with
  | ret a => exact hp
  | raise e => exact hp
  | stmt l act next ih => exact fun v => ih _ (hp _)
  | commit next ih => exact fun b => ih b (hp b)
  | rollback next ih => exact fun b => ih b (hp b)

theorem Ends.next {p q : Prog D L ε α} (hp : p.Ends R X) (h : p.Next q) : q.Ends R X := by
  rcases h with ⟨v⟩ | ⟨b⟩ | ⟨b⟩
  · exact hp v
  · exact hp b
  · exact hp b

end Prog

variable [DecidableEq ι] {C : Condition ι D K L} {prog : ι → Prog D L ε α} {d : D}
  {s : System ι D L ε α} {i : ι}
  {R : α → Prop} {X : ε → Prop}

/-- A session ends as its program may end. -/
theorem Reach.ends (hs : Reach C (System.init prog d) s) (hprog : (prog i).Ends R X) :
    (∀ a, s.returned i = some a → R a) ∧ ∀ e, s.raised i = some e → X e := by
  have h := hs.of_next hprog fun _ _ => Prog.Ends.next
  exact ⟨fun a ha => h _ (System.returned_eq_some.1 ha), fun e he => h _ (System.raised_eq_some.1 he)⟩

end ReadCommitted
