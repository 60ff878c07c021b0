import Boat.Core.Uuid
import Boat.Text.Digits
import Boat.Text.Split

/-!
# UUIDs of text

The constructor `UUID(hex)` of Python reads what `str` prints (`parse_str`), and whatever else `int`
reads as a number of 32 characters.
-/

namespace Boat.UUID

/-! ## Numbers -/

/-- The zeros of the decimal digits of Unicode, but for that of ASCII. -/
def decimalZeros : List ℕ :=
  [0x660, 0x6f0, 0x7c0, 0x966, 0x9e6, 0xa66, 0xae6, 0xb66, 0xbe6, 0xc66, 0xce6, 0xd66, 0xde6, 0xe50,
    0xed0, 0xf20, 0x1040, 0x1090, 0x17e0, 0x1810, 0x1946, 0x19d0, 0x1a80, 0x1a90, 0x1b50, 0x1bb0,
    0x1c40, 0x1c50, 0xa620, 0xa8d0, 0xa900, 0xa9d0, 0xa9f0, 0xaa50, 0xabf0, 0xff10, 0x104a0,
    0x10d30, 0x11066, 0x110f0, 0x11136, 0x111d0, 0x112f0, 0x11450, 0x114d0, 0x11650, 0x116c0,
    0x11730, 0x118e0, 0x11950, 0x11c50, 0x11d50, 0x11da0, 0x11f50, 0x16a60, 0x16ac0, 0x16b50,
    0x1d7ce, 0x1d7d8, 0x1d7e2, 0x1d7ec, 0x1d7f6, 0x1e140, 0x1e2f0, 0x1e4f0, 0x1e950, 0x1fbf0]

/-- A decimal digit or a white space as the one of ASCII. -/
def toAscii (c : Char) : Char :=
  if c.toNat < 127 then c
  else if isSpace c then ' '
  else
    match decimalZeros.find? fun first => first ≤ c.toNat ∧ c.toNat < first + 10 with
    | some first => (c.toNat - first).digitChar
    | none => '?'

/-- The white space of ASCII. -/
def isAsciiSpace (c : Char) : Bool := c = ' ' || '\t' ≤ c && c ≤ '\r'

/-- `int(text, 16)`, of a text without hyphens. None is a `ValueError`. -/
def hexInt (text : List Char) : Option ℕ :=
  let s := (((text.map toAscii).dropWhile isAsciiSpace).reverse.dropWhile isAsciiSpace).reverse
  let s := if s.head? = some '+' then s.tail else s
  let digits :=
    if s.head? = some '0' ∧ (s[1]? = some 'x' ∨ s[1]? = some 'X') then
      -- An underscore may follow the prefix.
      if s[2]? = some '_' then s.drop 3 else s.drop 2
    else s
  let groups := Text.pieces ['_'] digits
  if groups.any (·.isEmpty) then none else Text.number 16 groups.flatten

/-! ## UUIDs -/

/-- `UUID(hex)`: 32 characters of a hexadecimal number, among prefixes, braces and hyphens that are
    ignored. None is a `ValueError`. -/
def parse (hex : String) : Option UUID :=
  let hex := Text.replace "uuid:".toList [] (Text.replace "urn:".toList [] hex.toList)
  let braced := fun c => c = '{' || c = '}'
  let hex := ((hex.dropWhile braced).reverse.dropWhile braced).reverse.filter (· ≠ '-')
  if hex.length ≠ 32 then none else (hexInt hex).map ofNat

theorem hexDigit_eq : ∀ n < 16, hexDigit n = n.digitChar := by decide

theorem hexDigits_eq (k n : ℕ) : hexDigits k n = Text.padded 16 k n := by
  induction k generalizing n with
  | zero => rfl
  | succ k ih => rw [hexDigits, Text.padded, ih, hexDigit_eq _ (Nat.mod_lt _ (by decide))]

theorem isDigit_of_mem_hexDigits {k n : ℕ} {c : Char}
    (hc : c ∈ hexDigits k n) : ∃ d < 16, c = hexDigit d := by
  induction k generalizing n with
  | zero => cases hc
  | succ k ih =>
    rw [hexDigits, List.mem_append, List.mem_singleton] at hc
    rcases hc with hc | hc
    · exact ih hc
    · exact ⟨n % 16, Nat.mod_lt _ (by decide), hc⟩

/-- The characters of a printed UUID: digits and hyphens. -/
theorem of_mem_chars {u : UUID} {c : Char} (hc : c ∈ u.chars) : c = '-' ∨
    ∃ d < 16, c = hexDigit d := by
  simp only [chars, List.mem_append, List.mem_cons] at hc
  rcases hc with hc | rfl | hc | rfl | hc | rfl | hc | rfl | hc
  · exact .inr (isDigit_of_mem_hexDigits hc)
  · exact .inl rfl
  · exact .inr (isDigit_of_mem_hexDigits hc)
  · exact .inl rfl
  · exact .inr (isDigit_of_mem_hexDigits hc)
  · exact .inl rfl
  · exact .inr (isDigit_of_mem_hexDigits hc)
  · exact .inl rfl
  · exact .inr (isDigit_of_mem_hexDigits hc)

theorem notMem_chars {u : UUID} {c : Char} (h : c ≠ '-')
    (hdigits : ∀ d < 16, c ≠ hexDigit d) : c ∉ u.chars := by
  intro hc
  rcases of_mem_chars hc with rfl | ⟨d, hd, rfl⟩
  · exact h rfl
  · exact hdigits d hd rfl

theorem filter_hexDigits (k n : ℕ) : (hexDigits k n).filter (· ≠ '-') = hexDigits k n := by
  rw [List.filter_eq_self]
  intro c hc
  obtain ⟨d, hd, rfl⟩ := isDigit_of_mem_hexDigits hc
  exact decide_eq_true ((by decide : ∀ d < 16, hexDigit d ≠ '-') d hd)

/-- Without the hyphens, a printed UUID is the digits of its number. -/
theorem filter_chars (u : UUID) : u.chars.filter (· ≠ '-') = Text.padded 16 32 u.val.toNat := by
  have h₁ := Text.padded_add 16 8 24 u.val.toNat
  have h₂ := Text.padded_add 16 4 20 u.val.toNat
  have h₃ := Text.padded_add 16 4 16 u.val.toNat
  have h₄ := Text.padded_add 16 4 12 u.val.toNat
  simp only [chars, List.filter_append, List.filter_cons, filter_hexDigits, ne_eq,
    not_true_eq_false, decide_false, Bool.false_eq_true, if_false]
  simp only [hexDigits_eq, Text.padded_mod]
  rw [h₁, h₂, h₃, h₄]

theorem dropWhile_of_forall {p : Char → Bool} {l : List Char}
    (h : ∀ c ∈ l, p c = false) : l.dropWhile p = l := by
  rcases l with - | ⟨c, l⟩
  · rfl
  · rw [List.dropWhile_cons, h c List.mem_cons_self, if_neg Bool.false_ne_true]

theorem mem_padded {k n : ℕ} {c : Char} (hc : c ∈ Text.padded 16 k n) : ∃ d < 16, c = hexDigit d := by
  rw [← hexDigits_eq] at hc
  exact isDigit_of_mem_hexDigits hc

/-- A number of hexadecimal digits is read. -/
theorem hexInt_padded {k n : ℕ} (hk : 0 < k) (hn : n < 16 ^ k) :
    hexInt (Text.padded 16 k n) = some n := by
  have hdigit : ∀ d < 16, toAscii (hexDigit d) = hexDigit d ∧ isAsciiSpace (hexDigit d) = false ∧
      hexDigit d ≠ '+' ∧
        hexDigit d ≠ 'x' ∧ hexDigit d ≠ 'X' ∧ hexDigit d ≠ '_' := by decide
  have hnumber : Text.number 16 (Text.padded 16 k n) = some n :=
    Text.number_padded (by decide) (by decide) hn
  have hne : Text.padded 16 k n ≠ [] := by
    rw [← List.length_pos_iff, Text.length_padded]
    exact hk
  have hmem : ∀ c ∈ Text.padded 16 k n, toAscii c = c ∧ isAsciiSpace c = false ∧ c ≠ '+' ∧ c ≠ 'x' ∧
      c ≠ 'X' ∧ c ≠ '_' := by
    intro c hc
    obtain ⟨d, hd, rfl⟩ := mem_padded hc
    exact hdigit d hd
  generalize Text.padded 16 k n = s at *
  have hmap : s.map toAscii = s :=
    (List.map_congr_left fun c hc => (hmem c hc).1).trans (List.map_id s)
  have hfront : s.dropWhile isAsciiSpace = s := dropWhile_of_forall fun c hc => (hmem c hc).2.1
  have hback : s.reverse.dropWhile isAsciiSpace = s.reverse :=
    dropWhile_of_forall fun c hc => (hmem c (List.mem_reverse.1 hc)).2.1
  have hsign : s.head? ≠ some '+' := fun h => (hmem _ (List.mem_of_head? h)).2.2.1 rfl
  have hprefix : ¬(s.head? = some '0' ∧ (s[1]? = some 'x' ∨ s[1]? = some 'X')) := by
    rintro ⟨-, h | h⟩
    · exact (hmem _ (List.mem_of_getElem? h)).2.2.2.1 rfl
    · exact (hmem _ (List.mem_of_getElem? h)).2.2.2.2.1 rfl
  have hgroups : Text.pieces ['_'] s = [s] := Text.pieces_of_notMem fun h => (hmem _ h).2.2.2.2.2 rfl
  simp only [hexInt, hmap, hfront, hback, List.reverse_reverse, if_neg hsign, if_neg hprefix, hgroups]
  simp [hne, hnumber]

/-- A printed UUID is read. -/
theorem parse_str (u : UUID) : parse u.str = some u := by
  have hcolon : ':' ∉ u.chars := notMem_chars (by decide) (by decide)
  have hbrace : ∀ c ∈ u.chars, (c = '{' || c = '}') = false := by
    intro c hc
    rw [Bool.or_eq_false_iff, decide_eq_false_iff_not, decide_eq_false_iff_not]
    constructor
    · rintro rfl
      exact notMem_chars (by decide) (by decide) hc
    · rintro rfl
      exact notMem_chars (by decide) (by decide) hc
  have hstrip : ∀ l : List Char, (∀ c ∈ l, (c = '{' || c = '}') = false) →
      l.dropWhile (fun c => c = '{' || c = '}') = l :=
    fun l hl => dropWhile_of_forall hl
  have hnumber : hexInt (Text.padded 16 32 u.val.toNat) = some u.val.toNat :=
    hexInt_padded (by decide) (by have := u.val.isLt; omega)
  simp only [parse, toList_str, Text.replace_of_notMem (by decide : ':' ∈ "urn:".toList) hcolon,
    Text.replace_of_notMem (by decide : ':' ∈ "uuid:".toList) hcolon, hstrip u.chars hbrace]
  rw [hstrip _ fun c hc => hbrace c (List.mem_reverse.1 hc), List.reverse_reverse, filter_chars,
    Text.length_padded, hnumber]
  simp [ofNat]

end Boat.UUID
