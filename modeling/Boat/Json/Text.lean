import Boat.Text.Digits

/-!
# JSON

JSON values and their text, as Python's `json.dumps` prints it (with all but ASCII escaped)
and `json.loads` reads it. Numbers are integers, and texts have no lone surrogates.

* `loads_dumps`: a printed value is read, and values are equal if they are printed alike
  (`dumps_inj`).
-/

/-- A JSON value. -/
inductive Json
  | null
  | bool (b : Bool)
  | int (n : ℤ)
  | str (s : String)
  | arr (items : List Json)
  | obj (fields : List (String × Json))

namespace Json

/-! ## Printing -/

/-- A code unit of UTF-16, escaped. -/
def escapeUnit (n : ℕ) : List Char := '\\' :: 'u' :: Text.padded 16 4 n

/-- A character of a text: the printable ones of ASCII stand for themselves. -/
def escapeChar (c : Char) : List Char :=
  if c = '"' then ['\\', '"']
  else if c = '\\' then ['\\', '\\']
  else if c = '\n' then ['\\', 'n']
  else if c = '\r' then ['\\', 'r']
  else if c = '\t' then ['\\', 't']
  else if c = '\x08' then ['\\', 'b']
  else if c = '\x0c' then ['\\', 'f']
  else if ' ' ≤ c ∧ c ≤ '~' then [c]
  else if c.toNat < 0x10000 then escapeUnit c.toNat
  else escapeUnit (0xd800 + (c.toNat - 0x10000) / 0x400) ++
    escapeUnit (0xdc00 + (c.toNat - 0x10000) % 0x400)

/-- A text in quotes. -/
def dumpString (s : String) : List Char := '"' :: (s.toList.flatMap escapeChar ++ ['"'])

/-- A number. -/
def dumpInt (n : ℤ) : List Char :=
  if n < 0 then '-' :: Nat.toDigits 10 n.natAbs else Nat.toDigits 10 n.natAbs

mutual

/-- The characters of a value. -/
def dump : Json → List Char
  | null => ['n', 'u', 'l', 'l']
  | bool true => ['t', 'r', 'u', 'e']
  | bool false => ['f', 'a', 'l', 's', 'e']
  | int n => dumpInt n
  | str s => dumpString s
  | arr [] => ['[', ']']
  | arr (v :: vs) => '[' :: (dump v ++ dumpItems vs)
  | obj [] => ['{', '}']
  | obj (f :: fs) => '{' :: (dumpField f ++ dumpFields fs)

/-- The items after the first one. -/
def dumpItems : List Json → List Char
  | [] => [']']
  | v :: vs => ',' :: ' ' :: (dump v ++ dumpItems vs)

def dumpField : String × Json → List Char
  | (key, v) => dumpString key ++ ':' :: ' ' :: dump v

/-- The fields after the first one. -/
def dumpFields : List (String × Json) → List Char
  | [] => ['}']
  | f :: fs => ',' :: ' ' :: (dumpField f ++ dumpFields fs)

end

/-- `json.dumps`. -/
def dumps (v : Json) : String := .ofList v.dump

/-! ## Reading -/

/-- The rest after white space. -/
def skip (s : List Char) : List Char := s.dropWhile fun c =>
    c = ' ' || c = '\t' || c = '\n' || c = '\r'

/-- The escaped code unit at the front. -/
def readUnit : List Char → Option (ℕ × List Char)
  | '\\' :: 'u' :: s => Text.readNumber 16 4 s
  | _ => none

/-- The character at the front of the rest of a text. -/
def readChar : List Char → Option (Char × List Char)
  | '\\' :: 'u' :: s => do
    let (n, rest) ← readUnit ('\\' :: 'u' :: s)
    if 0xd800 ≤ n ∧ n < 0xdc00 then
      let (m, rest) ← readUnit rest
      if 0xdc00 ≤ m ∧ m < 0xe000 then
      some (.ofNat (0x10000 + (n - 0xd800) * 0x400 + (m - 0xdc00)), rest) else none
    else if 0xdc00 ≤ n ∧ n < 0xe000 then none
    else some (.ofNat n, rest)
  | '\\' :: '"' :: s => some ('"', s)
  | '\\' :: '\\' :: s => some ('\\', s)
  | '\\' :: '/' :: s => some ('/', s)
  | '\\' :: 'n' :: s => some ('\n', s)
  | '\\' :: 'r' :: s => some ('\r', s)
  | '\\' :: 't' :: s => some ('\t', s)
  | '\\' :: 'b' :: s => some ('\x08', s)
  | '\\' :: 'f' :: s => some ('\x0c', s)
  | '\\' :: _ => none
  | c :: s => if ' ' ≤ c then some (c, s) else none
  | [] => none

/-- The rest of a text after its opening quote, of at most `fuel` characters. -/
def readString : ℕ → List Char → Option (List Char × List Char)
  | 0, _ => none
  | fuel + 1, s =>
    if s.head? = some '"' then some ([], s.tail)
    else do
      let (c, s) ← readChar s
      let (cs, s) ← readString fuel s
      some (c :: cs, s)

/-- The number at the front, without a sign: its digits are those it is printed with, and neither
    a fraction nor an exponent follows. -/
def readNat (s : List Char) : Option (ℕ × List Char) :=
  let digits := s.takeWhile Char.isDigit
  let rest := s.dropWhile Char.isDigit
  match Text.number 10 digits with
  | none => none
  | some n =>
    if digits ≠ Nat.toDigits 10 n ∨ rest.head?.any (fun c => c = '.' || c = 'e' || c = 'E') then none
    else some (n, rest)

/-- The number at the front. -/
def readInt : List Char → Option (ℤ × List Char)
  | '-' :: s => (readNat s).map fun (n, s) => (-n, s)
  | s => (readNat s).map fun (n, s) => (n, s)

mutual

/-- The value at the front. -/
def readValue : ℕ → List Char → Option (Json × List Char)
  | 0, _ => none
  | fuel + 1, s =>
    match skip s with
    | [] => none
    | c :: s =>
      if c = '"' then (readString fuel s).map fun (cs, s) => (str (.ofList cs), s)
      else if c = '[' then
        match skip s with
        | ']' :: s => some (arr [], s)
        | s => (readItems fuel s).map fun (vs, s) => (arr vs, s)
      else if c = '{' then
        match skip s with
        | '}' :: s => some (obj [], s)
        | s => (readFields fuel s).map fun (fs, s) => (obj fs, s)
      else
        match c, s with
        | 'n', 'u' :: 'l' :: 'l' :: s => some (null, s)
        | 't', 'r' :: 'u' :: 'e' :: s => some (bool true, s)
        | 'f', 'a' :: 'l' :: 's' :: 'e' :: s => some (bool false, s)
        | c, s => (readInt (c :: s)).map fun (n, s) => (int n, s)

/-- The items of an array, up to its end. -/
def readItems : ℕ → List Char → Option (List Json × List Char)
  | 0, _ => none
  | fuel + 1, s => do
    let (v, s) ← readValue fuel s
    match skip s with
    | ',' :: s => do
      let (vs, s) ← readItems fuel s
      some (v :: vs, s)
    | ']' :: s => some ([v], s)
    | _ => none

/-- The fields of an object, up to its end. -/
def readFields : ℕ → List Char → Option (List (String × Json) × List Char)
  | 0, _ => none
  | fuel + 1, s => do
    match skip s with
    | '"' :: s => do
      let (key, s) ← readString fuel s
      match skip s with
      | ':' :: s => do
        let (v, s) ← readValue fuel s
        match skip s with
        | ',' :: s => do
          let (fs, s) ← readFields fuel s
          some ((.ofList key, v) :: fs, s)
        | '}' :: s => some ([(.ofList key, v)], s)
        | _ => none
      | _ => none
    | _ => none

end

/-- `json.loads`. -/
def loads (s : String) : Option Json :=
  match readValue (s.length + 1) s.toList with
  | some (v, rest) => if skip rest = [] then some v else none
  | none => none

/-! ## Round trip -/

theorem readUnit_escapeUnit {n : ℕ} (hn : n < 0x10000) (rest : List Char) :
    readUnit (escapeUnit n ++ rest) = some (n, rest) :=
  Text.readNumber_padded (by decide) (by decide) hn rest

theorem readChar_escapeUnit {n : ℕ} (hn : n < 0x10000) (rest : List Char) :
    readChar (escapeUnit n ++ rest) =
      if 0xd800 ≤ n ∧ n < 0xdc00 then
        (readUnit rest).bind fun (m, rest) =>
          if 0xdc00 ≤ m ∧ m < 0xe000 then
          some (.ofNat (0x10000 + (n - 0xd800) * 0x400 + (m - 0xdc00)), rest) else none
      else if 0xdc00 ≤ n ∧ n < 0xe000 then none
      else some (.ofNat n, rest) := by
  have h := readUnit_escapeUnit hn rest
  rw [escapeUnit, List.cons_append, List.cons_append] at h ⊢
  rw [readChar, h]
  rfl

/-- A code unit that is no surrogate is a character. -/
theorem readChar_unit {c : Char} (hc : c.toNat < 0x10000) (rest : List Char) :
    readChar (escapeUnit c.toNat ++ rest) = some (c, rest) := by
  have hvalid : c.toNat < 0xd800 ∨ 0xdfff < c.toNat ∧ c.toNat < 0x110000 := c.valid
  have hchar := Char.ofNat_toNat c
  generalize c.toNat = n at *
  rw [readChar_escapeUnit hc, if_neg (by omega), if_neg (by omega), hchar]

/-- Two surrogates are a character. -/
theorem readChar_surrogates {high low : ℕ} (hhigh : 0xd800 ≤ high ∧ high < 0xdc00)
    (hlow : 0xdc00 ≤ low ∧ low < 0xe000) (rest : List Char) :
    readChar (escapeUnit high ++ (escapeUnit low ++ rest)) =
      some (.ofNat (0x10000 + (high - 0xd800) * 0x400 + (low - 0xdc00)), rest) := by
  rw [readChar_escapeUnit (by omega), if_pos hhigh, readUnit_escapeUnit (by omega), Option.bind_some]
  exact if_pos hlow

/-- The surrogates of a character. -/
theorem surrogates_eq {n high low : ℕ} (hn : ¬n < 0x10000)
    (hhigh : high = 0xd800 + (n - 0x10000) / 0x400) (hlow : low = 0xdc00 + (n - 0x10000) % 0x400) :
    0x10000 + (high - 0xd800) * 0x400 + (low - 0xdc00) = n := by
  omega

/-- A printable character stands for itself. -/
theorem readChar_self {c : Char} (hc : c ≠ '\\') (hle : ' ' ≤ c) (rest : List Char) :
    readChar (c :: rest) = some (c, rest) := by
  unfold readChar
  split
  all_goals simp_all

/-- An escaped character is read. -/
theorem readChar_escapeChar (c : Char) (rest : List Char) :
    readChar (escapeChar c ++ rest) = some (c, rest) := by
  have hvalid : c.toNat < 0xd800 ∨ 0xdfff < c.toNat ∧ c.toNat < 0x110000 := c.valid
  unfold escapeChar
  split_ifs with h₁ h₂ h₃ h₄ h₅ h₆ h₇ h₈ h₉
  · rw [h₁]; rfl
  · rw [h₂]; rfl
  · rw [h₃]; rfl
  · rw [h₄]; rfl
  · rw [h₅]; rfl
  · rw [h₆]; rfl
  · rw [h₇]; rfl
  · exact readChar_self h₂ h₈.1 rest
  · exact readChar_unit h₉ rest
  · have hlt : c.toNat < 0x110000 := by omega
    obtain ⟨high, hhigh⟩ : ∃ high, high = 0xd800 + (c.toNat - 0x10000) / 0x400 := ⟨_, rfl⟩
    obtain ⟨low, hlow⟩ : ∃ low, low = 0xdc00 + (c.toNat - 0x10000) % 0x400 := ⟨_, rfl⟩
    have hchar := surrogates_eq h₉ hhigh hlow
    rw [← hhigh, ← hlow, List.append_assoc, readChar_surrogates (by omega) (by omega), hchar,
      Char.ofNat_toNat]

theorem head?_escapeChar (c : Char) (rest : List Char) : (escapeChar c ++ rest).head? ≠ some '"' := by
  unfold escapeChar
  split_ifs
  all_goals simp_all [escapeUnit]

theorem length_escapeChar_pos (c : Char) : 0 < (escapeChar c).length := by
  unfold escapeChar
  split_ifs
  all_goals simp [escapeUnit]

/-- A text in quotes is read, if its characters are escaped so that each of them is. -/
theorem readString_escape {escape : Char → List Char}
    (hread : ∀ c rest, readChar (escape c ++ rest) = some (c, rest))
    (hhead : ∀ c rest, (escape c ++ rest).head? ≠ some '"') (cs : List Char) {fuel : ℕ}
    (rest : List Char) (hfuel : cs.length < fuel) :
    readString fuel (cs.flatMap escape ++ '"' :: rest) = some (cs, rest) := by
  induction cs generalizing fuel with
  | nil =>
    obtain ⟨fuel, rfl⟩ := Nat.exists_eq_add_one_of_ne_zero (Nat.ne_of_gt hfuel)
    rfl
  | cons c cs ih =>
    obtain ⟨fuel, rfl⟩ := Nat.exists_eq_add_one_of_ne_zero (Nat.ne_of_gt (Nat.zero_lt_of_lt hfuel))
    rw [List.flatMap_cons, List.append_assoc, readString, if_neg (hhead c _), hread]
    simp only [Option.bind_eq_bind, Option.bind_some]
    rw [ih (Nat.lt_of_succ_lt_succ hfuel)]
    rfl

/-- What follows a number: no digit, and no fraction or exponent. -/
def EndsNumber (rest : List Char) : Prop :=
  ∀ c ∈ rest.head?, c.isDigit = false ∧ c ≠ '.' ∧ c ≠ 'e' ∧ c ≠ 'E'

theorem readNat_toDigits (n : ℕ) {rest : List Char} (hrest : EndsNumber rest) :
    readNat (Nat.toDigits 10 n ++ rest) = some (n, rest) := by
  have hdigits : ∀ c ∈ Nat.toDigits 10 n, c.isDigit :=
    fun c hc => Nat.isDigit_of_mem_toDigits (by decide) (by decide) hc
  have htake : (Nat.toDigits 10 n ++ rest).takeWhile Char.isDigit = Nat.toDigits 10 n := by
    rw [List.takeWhile_append_of_pos hdigits]
    rcases rest with - | ⟨c, rest⟩
    · simp
    · simp [(hrest c rfl).1]
  have hdrop : (Nat.toDigits 10 n ++ rest).dropWhile Char.isDigit = rest := by
    rw [List.dropWhile_append_of_pos hdigits]
    rcases rest with - | ⟨c, rest⟩
    · simp
    · simp [(hrest c rfl).1]
  have hend : (rest.head?.any fun c => c = '.' || c = 'e' || c = 'E') = false := by
    rcases rest with - | ⟨c, rest⟩
    · rfl
    · obtain ⟨-, hdot, he, hE⟩ := hrest c rfl
      simp [hdot, he, hE]
  simp only [readNat, htake, hdrop, Text.number_toDigits (by decide : 1 < 10) (by decide) n,
    hend, ne_eq, not_true_eq_false, Bool.false_eq_true, or_self, if_false]

/-- A printed number begins with a digit. -/
theorem toDigits_eq_cons (n : ℕ) : ∃ c cs, Nat.toDigits 10 n = c :: cs ∧ c.isDigit := by
  rcases h : Nat.toDigits 10 n with - | ⟨c, cs⟩
  · exact absurd h Nat.toDigits_ne_nil
  · exact ⟨c, cs, rfl, Nat.isDigit_of_mem_toDigits (by decide) (by decide) (h ▸ List.mem_cons_self)⟩

/-- A number is read. -/
theorem readInt_dumpInt (n : ℤ) {rest : List Char} (hrest : EndsNumber rest) :
    readInt (dumpInt n ++ rest) = some (n, rest) := by
  have hnat := readNat_toDigits n.natAbs hrest
  by_cases hneg : n < 0
  · have hn : -(n.natAbs : ℤ) = n := by omega
    rw [dumpInt, if_pos hneg, List.cons_append, readInt, hnat]
    simp only [Option.map_some, hn]
  · have hn : (n.natAbs : ℤ) = n := by omega
    obtain ⟨c, cs, hcs, hc⟩ := toDigits_eq_cons n.natAbs
    rw [dumpInt, if_neg hneg]
    rw [hcs] at hnat ⊢
    rw [List.cons_append] at hnat ⊢
    rw [readInt, hnat]
    · simp only [Option.map_some, hn]
    · rintro s ⟨⟩
      cases hc

/-- The characters that a value begins with. -/
def Starts (c : Char) : Prop :=
  c = '"' ∨ c = '[' ∨ c = '{' ∨ c = 'n' ∨ c = 't' ∨ c = 'f' ∨ c = '-' ∨ c.isDigit

theorem dump_eq_cons (v : Json) : ∃ c cs, dump v = c :: cs ∧ Starts c := by
  unfold dump
  split
  · exact ⟨_, _, rfl, by simp [Starts]⟩
  · exact ⟨_, _, rfl, by simp [Starts]⟩
  · exact ⟨_, _, rfl, by simp [Starts]⟩
  · next n =>
    rw [dumpInt]
    split
    · exact ⟨_, _, rfl, by simp [Starts]⟩
    · obtain ⟨c, cs, hcs, hc⟩ := toDigits_eq_cons n.natAbs
      exact ⟨c, cs, hcs, by simp [Starts, hc]⟩
  · exact ⟨_, _, rfl, by simp [Starts]⟩
  · exact ⟨_, _, rfl, by simp [Starts]⟩
  · exact ⟨_, _, rfl, by simp [Starts]⟩
  · exact ⟨_, _, rfl, by simp [Starts]⟩
  · exact ⟨_, _, rfl, by simp [Starts]⟩

theorem Starts.ne {c d : Char} (hc : Starts c) (hd : ¬Starts d) : c ≠ d := fun h => hd (h ▸ hc)

instance (c : Char) : Decidable (Starts c) := inferInstanceAs (Decidable (_ ∨ _))

/-- No white space is before a value. -/
theorem skip_starts {c : Char} (hc : Starts c) (cs : List Char) : skip (c :: cs) = c :: cs := by
  have h₁ := hc.ne (by decide : ¬Starts ' ')
  have h₂ := hc.ne (by decide : ¬Starts '\t')
  have h₃ := hc.ne (by decide : ¬Starts '\n')
  have h₄ := hc.ne (by decide : ¬Starts '\r')
  simp [skip, h₁, h₂, h₃, h₄]

/-- What begins with a sign or a digit is a number. -/
theorem readValue_number {c : Char} (hc : c = '-' ∨ c.isDigit) (fuel : ℕ) (s : List Char) :
    readValue (fuel + 1) (c :: s) = (readInt (c :: s)).map fun (n, s) => (int n, s) := by
  have hne : ∀ d : Char, d ≠ '-' → d.isDigit = false → c ≠ d := by
    rintro d hd hdigit rfl
    rcases hc with hc | hc
    · exact hd hc
    · rw [hdigit] at hc
      cases hc
  have hstarts : Starts c := by
    rcases hc with hc | hc
    · simp [Starts, hc]
    · simp [Starts, hc]
  rw [readValue, skip_starts hstarts]
  simp only [hne '"' (by decide) rfl, hne '[' (by decide) rfl, hne '{' (by decide) rfl, if_false]
  split
  · exact absurd rfl (hne 'n' (by decide) rfl)
  · exact absurd rfl (hne 't' (by decide) rfl)
  · exact absurd rfl (hne 'f' (by decide) rfl)
  · rfl

theorem readValue_arr {c : Char} (hc : Starts c) (fuel : ℕ) (s : List Char) :
    readValue (fuel + 1) ('[' :: c :: s) = (readItems fuel (c :: s)).map fun (vs, s) =>
      (arr vs, s) := by
  have h : readValue (fuel + 1) ('[' :: c :: s) =
      match skip (c :: s) with
      | ']' :: s => some (arr [], s)
      | s => (readItems fuel s).map fun (vs, s) => (arr vs, s) := rfl
  rw [h, skip_starts hc]
  split
  · next heq => exact absurd (List.cons.inj heq).1 (hc.ne (by decide))
  · rfl

theorem readValue_space (fuel : ℕ) (s : List Char) :
    readValue fuel (' ' :: s) = readValue fuel s := by
  rcases fuel with - | fuel
  · rfl
  · rfl

theorem readItems_space (fuel : ℕ) (s : List Char) :
    readItems fuel (' ' :: s) = readItems fuel s := by
  rcases fuel with - | fuel
  · rfl
  · rw [readItems, readItems, readValue_space]

theorem readFields_space (fuel : ℕ) (s : List Char) :
    readFields fuel (' ' :: s) = readFields fuel s := by
  rcases fuel with - | fuel
  · rfl
  · rfl

theorem readFields_quote (fuel : ℕ) (s : List Char) :
    readFields (fuel + 1) ('"' :: s) = (readString fuel s).bind fun (key, s) =>
      match skip s with
      | ':' :: s => (readValue fuel s).bind fun (v, s) =>
        match skip s with
        | ',' :: s => (readFields fuel s).bind fun (fs, s) => some ((.ofList key, v) :: fs, s)
        | '}' :: s => some ([(.ofList key, v)], s)
        | _ => none
      | _ => none := rfl

theorem endsNumber_cons {c : Char} (hc : c.isDigit = false ∧ c ≠ '.' ∧ c ≠ 'e' ∧ c ≠ 'E')
    (rest : List Char) :
    EndsNumber (c :: rest) := by
  rintro d ⟨⟩
  exact hc

theorem endsNumber_items (vs : List Json) (rest : List Char) : EndsNumber (dumpItems vs ++ rest) := by
  rcases vs with - | ⟨v, vs⟩
  · exact endsNumber_cons (by decide) _
  · exact endsNumber_cons (by decide) _

theorem endsNumber_fields (fs : List (String × Json))
    (rest : List Char) : EndsNumber (dumpFields fs ++ rest) := by
  rcases fs with - | ⟨f, fs⟩
  · exact endsNumber_cons (by decide) _
  · exact endsNumber_cons (by decide) _

/-- What is between quotes is a text. -/
theorem readString_dumpString (s : String) {fuel : ℕ} (rest : List Char)
    (hfuel : (dumpString s).length ≤ fuel + 1) :
    readString fuel ((dumpString s).tail ++ rest) = some (s.toList, rest) := by
  have hlen : s.toList.length ≤ (s.toList.flatMap escapeChar).length := by
    generalize s.toList = cs
    induction cs with
    | nil => exact Nat.le_refl _
    | cons c cs ih =>
      have hpos := length_escapeChar_pos c
      rw [List.flatMap_cons, List.length_append, List.length_cons]
      omega
  rw [dumpString, List.length_cons, List.length_append, List.length_singleton] at hfuel
  rw [dumpString, List.tail_cons, List.append_assoc]
  exact readString_escape readChar_escapeChar head?_escapeChar s.toList rest (by omega)

mutual

/-- A printed value is read, if enough characters may be read. -/
theorem readValue_dump : ∀ (v : Json) (fuel : ℕ) (rest : List Char),
    (dump v).length < fuel → EndsNumber rest →
    readValue fuel (dump v ++ rest) = some (v, rest)
  | .null, fuel + 1, rest, _, _ => rfl
  | .bool true, fuel + 1, rest, _, _ => rfl
  | .bool false, fuel + 1, rest, _, _ => rfl
  | .int n, fuel + 1, rest, _, hrest => by
    have hread := readInt_dumpInt n hrest
    -- The first character says that a number follows.
    have hhead : ∃ c cs, dumpInt n = c :: cs ∧ (c = '-' ∨ c.isDigit) := by
      rw [dumpInt]
      split
      · exact ⟨_, _, rfl, .inl rfl⟩
      · obtain ⟨c, cs, hcs, hc⟩ := toDigits_eq_cons n.natAbs
        exact ⟨c, cs, hcs, .inr hc⟩
    obtain ⟨c, cs, hcs, hc⟩ := hhead
    rw [dump]
    rw [hcs] at hread ⊢
    rw [List.cons_append, readValue_number hc, ← List.cons_append, hread]
    rfl
  | .str s, fuel + 1, rest, hfuel, _ => by
    rw [dump] at hfuel
    have hread := readString_dumpString s rest (Nat.le_of_lt hfuel)
    have h : readValue (fuel + 1) ('"' :: ((dumpString s).tail ++ rest)) =
        (readString fuel ((dumpString s).tail ++ rest)).map fun (cs, s) =>
          (str (.ofList cs), s) := rfl
    rw [dump]
    refine h.trans ?_
    rw [hread]
    simp
  | .arr [], fuel + 1, rest, _, _ => rfl
  | .arr (v :: vs), fuel + 1, rest, hfuel, _ => by
    rw [dump] at hfuel
    have hread := readItems_dump (v :: vs) v vs rfl fuel rest (Nat.lt_of_succ_lt_succ hfuel)
    -- The first character of an element is no bracket, so the array is read as one with elements.
    obtain ⟨c, cs, hcs, hc⟩ := dump_eq_cons v
    rw [dump]
    rw [hcs] at hread ⊢
    simp only [List.cons_append] at hread ⊢
    rw [readValue_arr hc, hread]
    rfl
  | .obj [], fuel + 1, rest, _, _ => rfl
  | .obj ((key, v) :: fs), fuel + 1, rest, hfuel, _ => by
    rw [dump] at hfuel
    have hread :=
      readFields_dump ((key, v) :: fs) (key, v) fs rfl fuel rest (Nat.lt_of_succ_lt_succ hfuel)
    have h : readValue (fuel + 1) ('{' :: (dumpField (key, v) ++ dumpFields fs ++ rest)) =
        (readFields fuel (dumpField (key, v) ++ dumpFields fs ++ rest)).map fun (fs, s) =>
          (obj fs, s) := rfl
    rw [dump]
    refine h.trans ?_
    rw [hread]
    rfl

theorem readItems_dump : ∀ (vs : List Json) (v : Json) (us : List Json),
    vs = v :: us → ∀ (fuel : ℕ) (rest : List Char),
    (dump v ++ dumpItems us).length < fuel →
    readItems fuel (dump v ++ dumpItems us ++ rest) = some (v :: us, rest)
  | v :: vs, _, _, rfl, fuel + 1, rest, hfuel => by
    rw [List.length_append] at hfuel
    have hpos : 0 < (dumpItems vs).length := by
      rcases vs with - | ⟨w, vs⟩
      · exact Nat.one_pos
      · exact Nat.succ_pos _
    have hv := readValue_dump v fuel (dumpItems vs ++ rest) (by omega) (endsNumber_items vs rest)
    rw [List.append_assoc, readItems, hv]
    rcases vs with - | ⟨w, vs⟩
    · rfl
    · have hvs := readItems_dump (w :: vs) w vs rfl fuel rest (by
        rw [dumpItems, List.length_cons, List.length_cons] at hfuel
        omega)
      have hskip : skip (dumpItems (w :: vs) ++ rest) = ',' :: ' ' ::
          (dump w ++ dumpItems vs ++ rest) := rfl
      simp only [Option.bind_eq_bind, Option.bind_some, hskip, readItems_space, hvs]

theorem readFields_dump : ∀ (fs : List (String × Json)) (f : String × Json)
    (gs : List (String × Json)), fs = f :: gs →
    ∀ (fuel : ℕ) (rest : List Char), (dumpField f ++ dumpFields gs).length < fuel →
    readFields fuel (dumpField f ++ dumpFields gs ++ rest) = some (f :: gs, rest)
  | (key, v) :: fs, _, _, rfl, fuel + 1, rest, hfuel => by
    have hlen : (dumpString key).length + (dump v).length + 2 + (dumpFields fs).length <
        fuel + 1 := by
      rw [List.length_append, dumpField, List.length_append, List.length_cons,
        List.length_cons] at hfuel
      omega
    have hkey := readString_dumpString key (':' :: ' ' :: (dump v ++ (dumpFields fs ++ rest)))
      (by omega : _ ≤ fuel + 1)
    have hv := readValue_dump v fuel (dumpFields fs ++ rest) (by omega) (endsNumber_fields fs rest)
    have hshape : dumpField (key, v) ++ dumpFields fs ++ rest =
        '"' :: ((dumpString key).tail ++ ':' :: ' ' :: (dump v ++ (dumpFields fs ++ rest))) := by
      simp [dumpField, dumpString]
    rw [hshape, readFields_quote, hkey]
    simp only [Option.bind_some]
    have hcolon : skip (':' :: ' ' :: (dump v ++ (dumpFields fs ++ rest))) =
        ':' :: ' ' :: (dump v ++ (dumpFields fs ++ rest)) := rfl
    simp only [hcolon, readValue_space, hv, Option.bind_some]
    rcases fs with - | ⟨f, fs⟩
    · have hend : skip (dumpFields [] ++ rest) = '}' :: rest := rfl
      simp only [hend, String.ofList_toList]
    · have hfs := readFields_dump (f :: fs) f fs rfl fuel rest (by
        rw [dumpFields, List.length_cons, List.length_cons] at hlen
        omega)
      have hnext : skip (dumpFields (f :: fs) ++ rest) = ',' :: ' ' ::
          (dumpField f ++ dumpFields fs ++ rest) := rfl
      simp only [hnext, readFields_space, hfs, Option.bind_some, String.ofList_toList]

end

/-- A printed value is read. -/
theorem loads_dumps (v : Json) : loads (dumps v) = some v := by
  have h := readValue_dump v ((dump v).length + 1) [] (Nat.lt_succ_self _) (fun c hc => by cases hc)
  rw [List.append_nil] at h
  rw [loads, dumps, String.length_ofList, String.toList_ofList, h]
  rfl

/-- Different values are printed differently. -/
theorem dumps_inj {v w : Json} : dumps v = dumps w ↔ v = w := by
  constructor
  · intro h
    rw [← Option.some.injEq, ← loads_dumps v, h, loads_dumps]
  · rintro rfl
    rfl

instance : DecidableEq Json := fun _ _ => decidable_of_iff _ dumps_inj

end Json
