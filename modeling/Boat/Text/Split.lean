import Boat.Text.Replace

/-!
# Splitting

The pieces of a text whose parts are known: `s.split(sep)` and `s.replace(sep, new)` find a
separator after what has none of its start (`pieces_append`, `pieces_separator`).
-/

namespace Text

variable {α : Type} [DecidableEq α] {c : α} {sep a s : List α}

/-- What has none of the start of a separator is before the first piece. -/
theorem pieces_append (hc : c ∉ a) : pieces (c :: sep) (a ++ s) =
    (pieces (c :: sep) s).modifyHead (a ++ ·) := by
  induction a with
  | nil =>
    rw [List.nil_append]
    rcases pieces (c :: sep) s with - | ⟨p, ps⟩
    · rfl
    · rfl
  | cons b a ih =>
    have hne : c ≠ b := fun h => hc (h ▸ List.mem_cons_self)
    have hprefix : (c :: sep).isPrefixOf (b :: (a ++ s)) = false := by simp [List.isPrefixOf, hne]
    have ih := ih fun h => hc (List.mem_cons_of_mem _ h)
    rw [pieces] at ih ⊢
    rw [List.cons_append, piecesFrom, hprefix, if_neg Bool.false_ne_true, ih,
      List.modifyHead_modifyHead]
    rfl

theorem piecesFrom_append (a s : List α) : piecesFrom sep a.length (a ++ s) = piecesFrom sep 0 s := by
  induction a with
  | nil => rfl
  | cons b a ih => exact ih

/-- A separator ends a piece. -/
theorem pieces_separator : pieces (c :: sep) (c :: sep ++ s) = [] :: pieces (c :: sep) s := by
  have hprefix : (c :: sep).isPrefixOf (c :: (sep ++ s)) = true := by simp [List.isPrefixOf]
  rw [pieces, List.cons_append, piecesFrom, hprefix, if_pos rfl, List.length_cons,
    Nat.add_sub_cancel, piecesFrom_append]
  rfl

/-- What has none of the start of a separator is one piece. -/
theorem pieces_of_notMem (hc : c ∉ s) : pieces (c :: sep) s = [s] := by
  have h : pieces (c :: sep) (s ++ []) = _ := pieces_append hc
  rw [List.append_nil] at h
  rw [h]
  simp [pieces, piecesFrom]

/-- A text of two parts. -/
theorem pieces_two (ha : c ∉ a) (hs : c ∉ s) : pieces (c :: sep) (a ++ (c :: sep ++ s)) = [a, s] := by
  rw [pieces_append ha, pieces_separator, pieces_of_notMem hs]
  simp

/-- Replacing the end of a text. -/
theorem replace_end (hc : c ∉ a) (new : List α) :
    replace (c :: sep) new (a ++ c :: sep) = a ++ new := by
  have h : pieces (c :: sep) (a ++ (c :: sep ++ [])) = [a, []] := pieces_two hc List.not_mem_nil
  rw [List.append_nil] at h
  rw [replace, h]
  simp [List.intercalate]

end Text
