import Boat.Core.Uuid
import Mathlib.Data.List.TakeWhile

/-!
# White space

`str.strip` leaves no white space at the ends (`strip_strip`), and is the identity on text without
(`strip_eq_self_iff`).
-/

namespace Boat

theorem dropWhile_eq_self_iff_head? {p : Char → Bool} {l : List Char} :
    l.dropWhile p = l ↔ ∀ c ∈ l.head?, p c = false := by
  rw [List.dropWhile_eq_self_iff]
  rcases l with - | ⟨a, l⟩ <;> simp

/-- `value.strip() == value`: there is no white space at the ends. -/
theorem strip_eq_self_iff {s : String} : strip s = s ↔
    (∀ c ∈ s.toList.head?, isSpace c = false) ∧ ∀ c ∈ s.toList.getLast?, isSpace c = false := by
  rw [← List.head?_reverse, ← dropWhile_eq_self_iff_head?, ← dropWhile_eq_self_iff_head?, strip,
    ← String.toList_inj, String.toList_ofList]
  generalize s.toList = l
  constructor
  · intro h
    -- Nothing has been dropped, as nothing is missing in the end.
    have hlen := congrArg List.length h
    rw [List.length_reverse] at hlen
    have h₁ := (l.dropWhile_suffix isSpace).sublist
    have h₂ := ((l.dropWhile isSpace).reverse.dropWhile_suffix isSpace).sublist
    have hle := h₂.length_le
    rw [List.length_reverse, hlen] at hle
    have hdrop := h₁.eq_of_length_le hle
    rw [hdrop] at h
    exact ⟨hdrop, by rw [← List.reverse_inj, List.reverse_reverse, h]⟩
  · rintro ⟨h₁, h₂⟩
    rw [h₁, h₂, List.reverse_reverse]

theorem strip_strip (s : String) : strip (strip s) = strip s := by
  rw [strip_eq_self_iff]
  simp only [strip, String.toList_ofList, List.head?_reverse, List.getLast?_reverse]
  have hlast : ∀ m : List Char, ∀ c ∈ (m.dropWhile isSpace).head?, isSpace c = false := by
    intro m c hc
    have h := List.head?_dropWhile_not isSpace m
    rw [hc] at h
    exact h
  refine ⟨?_, hlast _⟩
  -- What is left at the front is the front of what has been stripped there.
  intro c hc
  obtain ⟨t, ht⟩ := List.dropWhile_suffix (l := (s.toList.dropWhile isSpace).reverse) isSpace
  refine hlast s.toList c ?_
  rw [← List.getLast?_reverse, ← ht]
  exact List.mem_getLast?_append_of_mem_getLast? hc

end Boat
