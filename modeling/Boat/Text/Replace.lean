import Mathlib.Algebra.BigOperators.Group.List.Basic
import Mathlib.Algebra.GroupWithZero.Nat
import Mathlib.Data.List.Basic

/-!
# Counting and replacing

The occurrences of a list in another, found from the left and without overlap, as Python's
`str.count` and `str.replace` find them: they cut the list into pieces (`pieces`).

* `intercalate_pieces`: the list is its pieces, with the separator between them.
* `length_replace`: the length of a list after a replacement.
* `head?_replace`, `getLast?_replace`: its ends are those of the list, or of what is put in.
-/

namespace Text

variable {α : Type} [DecidableEq α]

/-- The pieces of a list between the occurrences of `sep`, after the first `k` elements. -/
def piecesFrom (sep : List α) : ℕ → List α → List (List α)
  | _, [] => [[]]
  | 0, a :: s =>
    if sep.isPrefixOf (a :: s) then [] :: piecesFrom sep (sep.length - 1) s
    else (piecesFrom sep 0 s).modifyHead (a :: ·)
  | k + 1, _ :: s => piecesFrom sep k s

/-- `s.split(sep)`. -/
def pieces (sep s : List α) : List (List α) := piecesFrom sep 0 s

/-- `s.count(sep)`. -/
def count (sep s : List α) : ℕ := (pieces sep s).length - 1

/-- `s.replace(sep, new)`. -/
def replace (sep new s : List α) : List α := new.intercalate (pieces sep s)

variable {sep s : List α}

theorem piecesFrom_ne_nil (sep s : List α) (k : ℕ) : piecesFrom sep k s ≠ [] := by
  induction s generalizing k with
  | nil => cases k <;> simp [piecesFrom]
  | cons a s ih =>
    cases k with
    | zero =>
      rw [piecesFrom]
      split
      · exact List.cons_ne_nil _ _
      · rw [Ne, List.modifyHead_eq_nil_iff]
        exact ih 0
    | succ k => exact ih k

theorem intercalate_piecesFrom (hsep : sep ≠ []) (k : ℕ) :
    sep.intercalate (piecesFrom sep k s) = s.drop k := by
  induction s generalizing k with
  | nil => cases k <;> simp [piecesFrom]
  | cons a s ih =>
    cases k with
    | zero =>
      rw [piecesFrom]
      split
      · next h =>
        obtain ⟨t, ht⟩ := List.isPrefixOf_iff_prefix.1 h
        rw [List.intercalate_cons_of_ne_nil (piecesFrom_ne_nil _ _ _), ih, List.nil_append]
        obtain ⟨b, sep', rfl⟩ := List.exists_cons_of_ne_nil hsep
        obtain ⟨rfl, rfl⟩ := List.cons_eq_cons.1 ht
        simp
      · have h := ih 0
        obtain ⟨p, ps, hp⟩ := List.exists_cons_of_ne_nil (piecesFrom_ne_nil sep s 0)
        rw [hp] at h ⊢
        rw [List.modifyHead_cons, List.intercalate_cons_cons_left, h]
        rfl
    | succ k => exact ih k

/-- A list is its pieces, with the separator between them. -/
theorem intercalate_pieces (hsep : sep ≠ []) : sep.intercalate (pieces sep s) = s :=
  intercalate_piecesFrom hsep 0

omit [DecidableEq α] in
theorem length_intercalate (sep : List α) (ps : List (List α)) :
    (sep.intercalate ps).length = (ps.map List.length).sum + (ps.length - 1) * sep.length := by
  induction ps with
  | nil => simp
  | cons p ps ih =>
    cases ps with
    | nil => simp
    | cons q ps =>
      rw [List.intercalate_cons_cons, List.length_append, List.length_append, ih]
      simp only [List.map_cons, List.sum_cons, List.length_cons, Nat.add_sub_cancel, Nat.succ_mul]
      omega

/-- The length of the pieces, without separators. -/
theorem length_replace_nil : (replace sep [] s).length = ((pieces sep s).map List.length).sum := by
  rw [replace, length_intercalate, List.length_nil, Nat.mul_zero, Nat.add_zero]

/-- The length of a list after a replacement. -/
theorem length_replace (new : List α) :
    (replace sep new s).length = (replace sep [] s).length + count sep s * new.length := by
  rw [length_replace_nil, replace, length_intercalate, count]

theorem length_eq (hsep : sep ≠ []) :
    s.length = (replace sep [] s).length + count sep s * sep.length := by
  conv_lhs => rw [← intercalate_pieces (s := s) hsep]
  exact length_replace sep

/-- Nothing is replaced where an element of `sep` is missing. -/
theorem replace_of_notMem {a : α} (ha : a ∈ sep) (hs : a ∉ s)
    (new : List α) : replace sep new s = s := by
  have hpieces : piecesFrom sep 0 s = [s] := by
    induction s with
    | nil => rfl
    | cons b s ih =>
      have hprefix : sep.isPrefixOf (b :: s) = false := by
        rw [Bool.eq_false_iff]
        exact fun h => hs ((List.isPrefixOf_iff_prefix.1 h).subset ha)
      rw [piecesFrom, hprefix, ih fun h => hs (List.mem_cons_of_mem _ h)]
      rfl
  rw [replace, pieces, hpieces]
  simp [List.intercalate]

/-- The list ends in an occurrence of `sep`. -/
def EndsIn (sep s : List α) : Prop := 0 < count sep s ∧ (pieces sep s).getLast? = some []

instance (sep s : List α) : Decidable (EndsIn sep s) := inferInstanceAs (Decidable (_ ∧ _))

omit [DecidableEq α] in
theorem intercalate_concat (sep p : List α) {ps : List (List α)} (hps : ps ≠ []) :
    sep.intercalate (ps ++ [p]) = sep.intercalate ps ++ (sep ++ p) := by
  induction ps with
  | nil => exact absurd rfl hps
  | cons q ps ih =>
    cases ps with
    | nil => simp
    | cons r ps =>
      rw [List.cons_append, List.cons_append, List.intercalate_cons_cons, List.intercalate_cons_cons,
        ← List.cons_append, ih (List.cons_ne_nil _ _), List.append_assoc (q ++ sep)]

/-- A list begins as before after a replacement, or with what has been put in. -/
theorem head?_replace (hsep : sep ≠ []) {new : List α} (hnew : new ≠ []) :
    (replace sep new s).head? = s.head? ∨ (replace sep new s).head? = new.head? := by
  have hs := intercalate_pieces (s := s) hsep
  rw [replace]
  obtain ⟨p, ps, hp⟩ := List.exists_cons_of_ne_nil (piecesFrom_ne_nil sep s 0)
  rw [pieces, hp] at hs ⊢
  rw [← hs]
  rcases ps with - | ⟨q, ps⟩
  · simp
  · rw [List.intercalate_cons_cons, List.intercalate_cons_cons]
    rcases p with - | ⟨a, p⟩
    · right
      obtain ⟨b, new', rfl⟩ := List.exists_cons_of_ne_nil hnew
      simp
    · simp

/-- A list ends as before after a replacement, or with what has been put in. -/
theorem getLast?_replace (hsep : sep ≠ []) {new : List α} (hnew : new ≠ []) :
    (EndsIn sep s → (replace sep new s).getLast? = new.getLast?) ∧
      (¬EndsIn sep s → (replace sep new s).getLast? = s.getLast?) := by
  have hs := intercalate_pieces (s := s) hsep
  obtain ⟨ps, p, hp⟩ := (List.eq_nil_or_concat (pieces sep s)).resolve_left (piecesFrom_ne_nil _ _ _)
  rw [List.concat_eq_append] at hp
  have hiff : EndsIn sep s ↔ ps ≠ [] ∧ p = [] := by
    simp [EndsIn, count, hp, List.length_pos_iff]
  rw [hiff, replace]
  rw [hp] at hs ⊢
  rw [← hs]
  rcases ps with - | ⟨q, ps⟩
  · simp
  · rw [intercalate_concat _ _ (List.cons_ne_nil _ _), intercalate_concat _ _ (List.cons_ne_nil _ _)]
    rcases p.eq_nil_or_concat with rfl | ⟨p', a, rfl⟩
    · simp [List.getLast?_append, List.getLast?_eq_some_getLast hnew]
    · simp [List.getLast?_append]

end Text
