import Mathlib.Data.List.Induction

/-!
# Runs

The runs of a labelled transition system, with the moves that are made (`Run`).

* `Run.append`, `Run.split`: runs can be put together and taken apart.
* `Run.keeps`: what every step keeps, a run keeps.
* `Run.exists_step`: what becomes true in a run becomes true in one of its steps.
* `Did`: a run has taken some step.
* `execute`: the run of a list of moves, if steps are a function.
-/

namespace Transition

variable {σ μ : Type}

/-- A run from `s`, with the moves that have been made. -/
inductive Run (Step : σ → μ → σ → Prop) (s : σ) : List μ → σ → Prop
  | refl : Run Step s [] s
  | step {ms m s' s''} : Run Step s ms s' → Step s' m s'' → Run Step s (ms ++ [m]) s''

variable {Step Step' : σ → μ → σ → Prop} {s s' s'' : σ} {m : μ} {ms ms' : List μ}

namespace Run

theorem single (h : Step s m s') : Run Step s [m] s' := .step .refl h

theorem append (h : Run Step s ms s') (h' : Run Step s' ms' s'') : Run Step s (ms ++ ms') s'' := by
  induction h' with
  | refl => rwa [List.append_nil]
  | step _ hst ih => exact List.append_assoc .. ▸ ih.step hst

theorem cons (hst : Step s m s') (h : Run Step s' ms s'') : Run Step s (m :: ms) s'' :=
  (single hst).append h

theorem mono (hS : ∀ s m s', Step s m s' → Step' s m s')
    (h : Run Step s ms s') : Run Step' s ms s' := by
  induction h with
  | refl => exact .refl
  | step _ hst ih => exact ih.step (hS _ _ _ hst)

/-- The last step of a run. -/
theorem last (h : Run Step s (ms ++ [m]) s') : ∃ s₁, Run Step s ms s₁ ∧ Step s₁ m s' := by
  generalize hms : ms ++ [m] = l at h
  cases h with
  | refl => simp at hms
  | step h hst =>
    obtain ⟨rfl, hm⟩ := List.append_inj' hms rfl
    cases hm
    exact ⟨_, h, hst⟩

/-- A run goes through a state between two parts of its moves. -/
theorem split (h : Run Step s (ms ++ ms') s') : ∃ s₁, Run Step s ms s₁ ∧ Run Step s₁ ms' s' := by
  induction ms' using List.reverseRecOn generalizing s' with
  | nil => exact ⟨s', by rwa [List.append_nil] at h, .refl⟩
  | append_singleton ms' m ih =>
    rw [← List.append_assoc] at h
    obtain ⟨s₂, h, hst⟩ := h.last
    obtain ⟨s₁, h₁, h₂⟩ := ih h
    exact ⟨s₁, h₁, h₂.step hst⟩

/-- Moves lead to one state, if every move does. -/
theorem unique (hS : ∀ s m s' s'', Step s m s' → Step s m s'' → s' = s'') (h : Run Step s ms s')
    (h' : Run Step s ms s'') : s' = s'' := by
  induction h generalizing s'' with
  | refl =>
    generalize hms : [] = l at h'
    cases h' with
    | refl => rfl
    | step => simp at hms
  | step _ hst ih =>
    obtain ⟨s₃, h₁, hst'⟩ := h'.last
    obtain rfl := ih h₁
    exact hS _ _ _ _ hst hst'

/-- What every step keeps, a run keeps. -/
theorem keeps {p : σ → Prop} (hp : ∀ s m s', Step s m s' → p s → p s') (h : Run Step s ms s')
    (hs : p s) : p s' := by
  induction h with
  | refl => exact hs
  | step _ hst ih => exact hp _ _ _ hst ih

/-- What becomes true in a run becomes true in one of its steps. -/
theorem exists_step (h : Run Step s ms s') {p : σ → Prop} (hs : ¬p s) (hs' : p s') :
    ∃ ms₁ m ms₂ s₁ s₂, ms = ms₁ ++ m :: ms₂ ∧ Run Step s ms₁ s₁ ∧ Step s₁ m s₂ ∧ Run Step s₂ ms₂ s' ∧
      ¬p s₁ ∧ p s₂ := by
  induction h with
  | refl => exact absurd hs' hs
  | @step ms m s₁ s₂ h hst ih =>
    by_cases h₁ : p s₁
    · obtain ⟨ms₁, m', ms₂, t₁, t₂, rfl, ht₁, ht, ht₂, hp⟩ := ih h₁
      exact ⟨ms₁, m', ms₂ ++ [m], t₁, t₂, by simp, ht₁, ht, ht₂.step hst, hp⟩
    · exact ⟨ms, m, [], s₁, s₂, rfl, h, hst, .refl, h₁, hs'⟩

end Run

/-- The run has taken a step of which `p` holds, given the moves before it. -/
def Did (Step : σ → μ → σ → Prop) (p : List μ → σ → μ → σ → Prop) (s : σ) (ms : List μ)
    (s' : σ) : Prop :=
  ∃ ms₁ m ms₂ s₁ s₂, ms = ms₁ ++ m :: ms₂ ∧ Run Step s ms₁ s₁ ∧ p ms₁ s₁ m s₂ ∧ Step s₁ m s₂ ∧
    Run Step s₂ ms₂ s'

namespace Did

variable {p : List μ → σ → μ → σ → Prop}

theorem last (h : Run Step s ms s') (hst : Step s' m s'') (hp : p ms s' m s'') :
    Did Step p s (ms ++ [m]) s'' :=
  ⟨ms, m, [], s', s'', rfl, h, hp, hst, .refl⟩

theorem append (h : Did Step p s ms s') (h' : Run Step s' ms' s'') :
    Did Step p s (ms ++ ms') s'' := by
  obtain ⟨ms₁, m', ms₂, s₁, s₂, rfl, h₁, hp, hst, h₂⟩ := h
  exact ⟨ms₁, m', ms₂ ++ ms', s₁, s₂, by simp, h₁, hp, hst, h₂.append h'⟩

theorem mono {q : List μ → σ → μ → σ → Prop} (hpq : ∀ ms s m s', p ms s m s' → q ms s m s')
    (h : Did Step p s ms s') : Did Step q s ms s' := by
  obtain ⟨ms₁, m', ms₂, s₁, s₂, rfl, h₁, hp, hst, h₂⟩ := h
  exact ⟨ms₁, m', ms₂, s₁, s₂, rfl, h₁, hpq _ _ _ _ hp, hst, h₂⟩

theorem step (h : Did Step p s ms s') (hst : Step s' m s'') : Did Step p s (ms ++ [m]) s'' :=
  h.append (.single hst)

end Did

section

variable {step : σ → μ → Option σ}

/-- The state after some moves, if they can be made. -/
def execute (step : σ → μ → Option σ) : List μ → σ → Option σ
  | [], s => some s
  | m :: ms, s => (step s m).bind (execute step ms)

theorem Run.of_execute (h : execute step ms s = some s') :
    Run (fun s m s' => step s m = some s') s ms s' := by
  induction ms generalizing s with
  | nil =>
    cases h
    exact .refl
  | cons m ms ih =>
    obtain ⟨s₁, h₁, h₂⟩ := Option.bind_eq_some_iff.1 h
    exact (Run.single h₁).append (ih h₂)

/-- Moves that can be made are a run, to a state with what the execution shows. -/
theorem Run.exists_of_execute (step : σ → μ → Option σ) (ms : List μ) {p : σ → Prop} [DecidablePred p]
    (h : (execute step ms s).any (fun s' => p s')) :
    ∃ s', Run (fun s m s' => step s m = some s') s ms s' ∧ p s' := by
  obtain ⟨s', hs', hp⟩ := (Option.any_eq_true _ _).1 h
  exact ⟨s', .of_execute hs', of_decide_eq_true hp⟩

end

end Transition
