import Boat.Text.Replace
import Mathlib.Data.List.Infix

/-!
# LIKE

The patterns of SQL's `LIKE ... ESCAPE '\'`, where characters match that `same` says, as for `ILIKE`
those that differ in case. Of a text that is escaped first, the pattern for its occurrences matches
just the texts that contain it (`like_contains`).
-/

namespace Text

variable {α : Type} [DecidableEq α]

/-! ## Replacing a single element -/

theorem replace_singleton (a : α) (new s : List α) : replace [a] new s = s.flatMap fun b =>
    if b = a then new else [b] := by
  induction s with
  | nil => rfl
  | cons b s ih =>
    rw [List.flatMap_cons, ← ih]
    simp only [replace, pieces, piecesFrom, List.length_singleton, Nat.sub_self]
    obtain ⟨p, ps, hps⟩ := List.exists_cons_of_ne_nil (piecesFrom_ne_nil [a] s 0)
    rw [hps]
    by_cases h : b = a
    · simp [h, List.intercalate]
    · have hstart : [a].isPrefixOf (b :: s) = false := by simp [List.isPrefixOf, Ne.symm h]
      rw [hstart, if_neg h, if_neg Bool.false_ne_true, List.modifyHead_cons]
      rcases ps with - | ⟨q, ps⟩
      · simp [List.intercalate]
      · simp [List.intercalate]

/-! ## Patterns -/

/-- Does the pattern match the text? -/
def like (same : Char → Char → Bool) : List Char → List Char → Bool
  | [], s => s.isEmpty
  | '%' :: p, s => s.tails.any (like same p)
  | '_' :: p, s => match s with
    | [] => false
    | _ :: s => like same p s
  | '\\' :: c :: p, s => match s with
    | [] => false
    | d :: s => same d c && like same p s
  | c :: p, s => match s with
    | [] => false
    | d :: s => same d c && like same p s

/-- `keyword.replace("\\", "\\\\").replace("%", "\\%").replace("_", "\\_")`. -/
def escapeLike (keyword : List Char) : List Char :=
  replace ['_'] ['\\', '_'] (replace ['%'] ['\\', '%'] (replace ['\\'] ['\\', '\\'] keyword))

/-- `%keyword%`. -/
def containsPattern (keyword : List Char) : List Char := '%' :: (escapeLike keyword ++ ['%'])

variable {same : Char → Char → Bool}

theorem escapeLike_eq (keyword : List Char) :
    escapeLike keyword = keyword.flatMap fun c =>
      if c = '\\' ∨ c = '%' ∨ c = '_' then ['\\', c] else [c] := by
  simp only [escapeLike, replace_singleton, List.flatMap_assoc]
  congr 1
  funext c
  by_cases h₁ : c = '\\'
  · rw [h₁]
    rfl
  by_cases h₂ : c = '%'
  · rw [h₂]
    rfl
  by_cases h₃ : c = '_'
  · rw [h₃]
    rfl
  · simp [h₁, h₂, h₃]

/-- An escaped character matches the characters that are the same. -/
theorem like_escape (c : Char) (p s : List Char) :
    like same ((if c = '\\' ∨ c = '%' ∨ c = '_' then ['\\', c] else [c]) ++ p) s =
      match s with
      | [] => false
      | d :: s => same d c && like same p s := by
  split
  · rfl
  · next h =>
    obtain ⟨h₁, h₂, h₃⟩ : c ≠ '\\' ∧ c ≠ '%' ∧ c ≠ '_' := by
      refine ⟨fun hc => h (.inl hc), fun hc => h (.inr (.inl hc)), fun hc => h (.inr (.inr hc))⟩
    rw [List.cons_append, List.nil_append, like.eq_def]
    split
    · next heq => cases heq
    · next heq => exact absurd (List.cons.inj heq).1 h₂
    · next heq => exact absurd (List.cons.inj heq).1 h₃
    · next heq => exact absurd (List.cons.inj heq).1 h₁
    · next heq =>
      obtain ⟨rfl, rfl⟩ := List.cons.inj heq
      rfl

/-- An escaped text matches the texts of the same characters. -/
theorem like_escapeLike (keyword p s : List Char) : like same (escapeLike keyword ++ p) s = true ↔
    ∃ t rest, s = t ++ rest ∧ List.Forall₂ (same · ·) t keyword ∧ like same p rest = true := by
  rw [escapeLike_eq]
  induction keyword generalizing s with
  | nil =>
    constructor
    · exact fun h => ⟨[], s, rfl, .nil, h⟩
    · rintro ⟨t, rest, rfl, ht, h⟩
      cases ht
      exact h
  | cons c keyword ih =>
    rw [List.flatMap_cons, List.append_assoc, like_escape]
    rcases s with - | ⟨d, s⟩
    · refine iff_of_false Bool.false_ne_true ?_
      rintro ⟨t, rest, hs, ht, -⟩
      obtain ⟨rfl, -⟩ := List.append_eq_nil_iff.1 hs.symm
      cases ht
    · simp only [Bool.and_eq_true, ih]
      constructor
      · rintro ⟨hd, t, rest, rfl, ht, h⟩
        exact ⟨d :: t, rest, rfl, .cons hd ht, h⟩
      · rintro ⟨t, rest, hs, ht, h⟩
        cases ht with
        | cons hd ht =>
          cases hs
          exact ⟨hd, _, _, rfl, ht, h⟩

theorem like_percent (s : List Char) : like same ['%'] s = true := by
  rw [like, List.any_eq_true]
  exact ⟨[], by simp, rfl⟩

/-- The pattern matches the texts that contain the keyword. -/
theorem like_contains (keyword s : List Char) : like same (containsPattern keyword) s = true ↔
    ∃ t t' t'', s = t ++ t' ++ t'' ∧ List.Forall₂ (same · ·) t' keyword := by
  rw [containsPattern, like, List.any_eq_true]
  constructor
  · rintro ⟨u, hu, h⟩
    obtain ⟨t, rfl⟩ := (List.mem_tails _ _).1 hu
    obtain ⟨t', t'', rfl, ht', -⟩ := (like_escapeLike _ _ _).1 h
    exact ⟨t, t', t'', (List.append_assoc _ _ _).symm, ht'⟩
  · rintro ⟨t, t', t'', rfl, ht'⟩
    refine ⟨t' ++ t'', (List.mem_tails _ _).2 ⟨t, (List.append_assoc _ _ _).symm⟩, ?_⟩
    exact (like_escapeLike _ _ _).2 ⟨t', t'', rfl, ht', like_percent _⟩

end Text
