import Boat.Json.Text

/-!
# Compact JSON

Objects of texts, as Python's `json.dumps` prints them with `ensure_ascii=False` and without blanks
between the fields.

* `loads_dumpsCompact`: a printed object is read.
-/

namespace Json

/-- A character of a text: all but quotes, backslashes and control characters stand for themselves. -/
def escapeRaw (c : Char) : List Char :=
  if c = '"' then ['\\', '"']
  else if c = '\\' then ['\\', '\\']
  else if c = '\n' then ['\\', 'n']
  else if c = '\r' then ['\\', 'r']
  else if c = '\t' then ['\\', 't']
  else if c = '\x08' then ['\\', 'b']
  else if c = '\x0c' then ['\\', 'f']
  else if ' ' ≤ c then [c]
  else escapeUnit c.toNat

/-- A text in quotes. -/
def dumpRaw (s : String) : List Char := '"' :: (s.toList.flatMap escapeRaw ++ ['"'])

def dumpRawField : String × String → List Char
  | (key, value) => dumpRaw key ++ ':' :: dumpRaw value

/-- The fields after the first one. -/
def dumpRawFields : List (String × String) → List Char
  | [] => ['}']
  | f :: fs => ',' :: (dumpRawField f ++ dumpRawFields fs)

/-- `json.dumps(payload, ensure_ascii=False, separators=(",", ":"))`. -/
def dumpsCompact : List (String × String) → String
  | [] => "{}"
  | f :: fs => .ofList ('{' :: (dumpRawField f ++ dumpRawFields fs))

/-! ## Round trip -/

theorem readChar_escapeRaw (c : Char) (rest : List Char) :
    readChar (escapeRaw c ++ rest) = some (c, rest) := by
  unfold escapeRaw
  split_ifs with h₁ h₂ h₃ h₄ h₅ h₆ h₇ h₈
  · rw [h₁]; rfl
  · rw [h₂]; rfl
  · rw [h₃]; rfl
  · rw [h₄]; rfl
  · rw [h₅]; rfl
  · rw [h₆]; rfl
  · rw [h₇]; rfl
  · exact readChar_self h₂ h₈ rest
  · have hlt : c.toNat < 0x20 := by
      rw [Char.le_def, UInt32.le_iff_toNat_le, Nat.not_le] at h₈
      exact h₈
    exact readChar_unit (by omega) rest

theorem head?_escapeRaw (c : Char) (rest : List Char) : (escapeRaw c ++ rest).head? ≠ some '"' := by
  unfold escapeRaw
  split_ifs
  all_goals simp_all [escapeUnit]

theorem length_escapeRaw_pos (c : Char) : 0 < (escapeRaw c).length := by
  unfold escapeRaw
  split_ifs
  all_goals simp [escapeUnit]

theorem length_dumpRaw (s : String) : s.toList.length + 2 ≤ (dumpRaw s).length := by
  have hlen : s.toList.length ≤ (s.toList.flatMap escapeRaw).length := by
    generalize s.toList = cs
    induction cs with
    | nil => exact Nat.le_refl _
    | cons c cs ih =>
      have hpos := length_escapeRaw_pos c
      rw [List.flatMap_cons, List.length_append, List.length_cons]
      omega
  rw [dumpRaw, List.length_cons, List.length_append, List.length_singleton]
  omega

theorem readString_dumpRaw (s : String) {fuel : ℕ} (rest : List Char)
    (hfuel : (dumpRaw s).length ≤ fuel + 1) :
    readString fuel ((dumpRaw s).tail ++ rest) = some (s.toList, rest) := by
  have hlen := length_dumpRaw s
  rw [dumpRaw, List.tail_cons, List.append_assoc]
  exact readString_escape readChar_escapeRaw head?_escapeRaw s.toList rest (by omega)

theorem readValue_dumpRaw (s : String) {fuel : ℕ} (rest : List Char)
    (hfuel : (dumpRaw s).length ≤ fuel) :
    readValue fuel (dumpRaw s ++ rest) = some (str s, rest) := by
  have hlen := length_dumpRaw s
  obtain ⟨fuel, rfl⟩ := Nat.exists_eq_add_one_of_ne_zero (by omega : fuel ≠ 0)
  have hread := readString_dumpRaw s rest hfuel
  have h : readValue (fuel + 1) ('"' :: ((dumpRaw s).tail ++ rest)) =
      (readString fuel ((dumpRaw s).tail ++ rest)).map fun r => (str (.ofList r.1), r.2) := rfl
  refine h.trans ?_
  rw [hread]
  simp

/-- Printed fields are read. -/
theorem readFields_dumpRaw (f : String × String) (fs : List (String × String)) {fuel : ℕ}
    (rest : List Char) (hfuel : (dumpRawField f ++ dumpRawFields fs).length < fuel) :
    readFields fuel (dumpRawField f ++ dumpRawFields fs ++ rest) =
      some ((f :: fs).map fun f => (f.1, str f.2), rest) := by
  induction fs generalizing f fuel with
  | nil =>
    obtain ⟨key, value⟩ := f
    obtain ⟨fuel, rfl⟩ := Nat.exists_eq_add_one_of_ne_zero (by omega : fuel ≠ 0)
    rw [dumpRawField, dumpRawFields, List.length_append, List.length_append, List.length_cons,
      List.length_singleton] at hfuel
    have hkey := readString_dumpRaw key (':' :: (dumpRaw value ++ '}' :: rest))
      (by omega : _ ≤ fuel + 1)
    have hvalue := readValue_dumpRaw value ('}' :: rest) (by omega : _ ≤ fuel)
    have hshape : dumpRawField (key, value) ++ dumpRawFields [] ++ rest =
        '"' :: ((dumpRaw key).tail ++ ':' :: (dumpRaw value ++ '}' :: rest)) := by
      simp [dumpRawField, dumpRawFields, dumpRaw]
    have hcolon : skip (':' :: (dumpRaw value ++ '}' :: rest)) = ':' ::
      (dumpRaw value ++ '}' :: rest) := rfl
    have hend : skip ('}' :: rest) = '}' :: rest := rfl
    rw [hshape, readFields_quote, hkey]
    simp only [Option.bind_some, hcolon, hvalue, hend, String.ofList_toList, List.map_cons,
      List.map_nil]
  | cons g fs ih =>
    obtain ⟨key, value⟩ := f
    obtain ⟨fuel, rfl⟩ := Nat.exists_eq_add_one_of_ne_zero (by omega : fuel ≠ 0)
    rw [dumpRawField, dumpRawFields, List.length_append, List.length_append, List.length_cons,
      List.length_cons] at hfuel
    have hfields := ih g (by omega : _ < fuel)
    have hnext : dumpRawFields (g :: fs) ++ rest = ',' ::
        (dumpRawField g ++ dumpRawFields fs ++ rest) := rfl
    have hkey := readString_dumpRaw key (':' :: (dumpRaw value ++ (dumpRawFields (g :: fs) ++ rest)))
      (by omega : _ ≤ fuel + 1)
    have hvalue := readValue_dumpRaw value (dumpRawFields (g :: fs) ++ rest) (by omega : _ ≤ fuel)
    have hshape : dumpRawField (key, value) ++ dumpRawFields (g :: fs) ++ rest =
        '"' :: ((dumpRaw key).tail ++ ':' ::
          (dumpRaw value ++ (dumpRawFields (g :: fs) ++ rest))) := by
      simp [dumpRawField, dumpRaw]
    have hcolon : skip (':' :: (dumpRaw value ++ (dumpRawFields (g :: fs) ++ rest))) =
        ':' :: (dumpRaw value ++ (dumpRawFields (g :: fs) ++ rest)) := rfl
    have hskip : skip (dumpRawFields (g :: fs) ++ rest) = ',' ::
        (dumpRawField g ++ dumpRawFields fs ++ rest) := by
      rw [hnext]
      rfl
    rw [hshape, readFields_quote, hkey]
    simp only [Option.bind_some, hcolon, hvalue, hskip, hfields, String.ofList_toList, List.map_cons]

/-- A printed object is read. -/
theorem loads_dumpsCompact (fs : List (String × String)) :
    loads (dumpsCompact fs) = some (obj (fs.map fun f => (f.1, str f.2))) := by
  rcases fs with - | ⟨f, fs⟩
  · rfl
  · have h := readFields_dumpRaw f fs [] (Nat.lt_succ_self _)
    have hread : ∀ fuel s, readValue (fuel + 1) ('{' :: '"' :: s) =
        (readFields fuel ('"' :: s)).map fun r => (obj r.1, r.2) := fun _ _ => rfl
    obtain ⟨cs, hcs⟩ : ∃ cs, dumpRawField f ++ dumpRawFields fs = '"' :: cs := ⟨_, rfl⟩
    rw [List.append_nil, hcs] at h
    rw [loads, dumpsCompact, String.length_ofList, String.toList_ofList, hcs,
      List.length_cons, hread, h]
    rfl

end Json
