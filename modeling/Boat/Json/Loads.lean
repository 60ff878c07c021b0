import Boat.Json.Compact
import Mathlib.Data.Nat.Init
import Mathlib.Order.Lattice

/-!
# JSON of any text

`json.loads` of Python on texts that nobody has checked: numbers with fractions and exponents, `NaN`
and `Infinity`, lone surrogates, and values that are nested deeper than the recursion limit of the
interpreter, which is an error of its own (`LoadsError`).

* `loadsAny_ne_recursion`: no text is nested deeper than it is long.
* `loadsAny_dumpsCompact`: a printed object is read.
-/

namespace Json

/-- What `json.loads` returns. Texts are code points, of which some may be surrogates, and nothing
    is kept of a number. -/
inductive Loaded
  | null
  | bool (b : Bool)
  | number
  | str (s : List ℕ)
  | arr (items : List Loaded)
  | obj (fields : List (List ℕ × Loaded))

/-- `JSONDecodeError`, a `ValueError`, or `RecursionError`. -/
inductive LoadsError
  | invalid
  | recursion
  deriving DecidableEq, Repr

/-! ## Texts and numbers -/

/-- The code points of a text. -/
def codePoints (s : String) : List ℕ := s.toList.map (·.toNat)

/-- The surrogates of a character are put together. -/
def joinSurrogates : List ℕ → List ℕ
  | n :: m :: s =>
    if (0xd800 ≤ n ∧ n < 0xdc00) ∧ 0xdc00 ≤ m ∧ m < 0xe000 then
      (0x10000 + (n - 0xd800) * 0x400 + (m - 0xdc00)) :: joinSurrogates s
    else n :: joinSurrogates (m :: s)
  | s => s

/-- The character that is escaped by a backslash and another one. -/
def unescape (c : Char) : Option ℕ :=
  ([('"', '"'), ('\\', '\\'), ('/', '/'), ('b', '\x08'), ('f', '\x0c'), ('n', '\n'), ('r', '\r'),
    ('t', '\t')].lookup c).map
    (·.toNat)

/-- The code units of a text after its opening quote, and the rest. -/
def scanUnits : List Char → Option (List ℕ × List Char)
  | [] => none
  | c :: s =>
    if c = '"' then some ([], s)
    else if c = '\\' then
      match s with
      | 'u' :: a :: b :: c :: d :: s =>
        match Text.number 16 [a, b, c, d], scanUnits s with
        | some n, some (units, rest) => some (n :: units, rest)
        | _, _ => none
      | c :: s =>
        match unescape c, scanUnits s with
        | some n, some (units, rest) => some (n :: units, rest)
        | _, _ => none
      | [] => none
    else
      match scanUnits s with
      | some (units, rest) => if c < ' ' then none else some (c.toNat :: units, rest)
      | none => none

/-- The rest after a fraction, if there is one. -/
def skipFraction (s : List Char) : List Char :=
  if s.head? = some '.' ∧ s.tail.head?.any Char.isDigit then s.tail.dropWhile Char.isDigit else s

/-- The rest after an exponent, if there is one. -/
def skipExponent (s : List Char) : List Char :=
  let signed := if s.tail.head? = some '+' ∨ s.tail.head? = some '-' then s.tail.tail else s.tail
  if (s.head? = some 'e' ∨ s.head? = some 'E') ∧
    signed.head?.any Char.isDigit then signed.dropWhile Char.isDigit else s

/-- The rest after a number. An integer has at most 4300 digits. -/
def scanNumber (s : List Char) : Option (List Char) :=
  let unsigned := if s.head? = some '-' then s.tail else s
  -- A zero is not followed by other digits.
  let digits := if unsigned.head? = some '0' then ['0'] else unsigned.takeWhile Char.isDigit
  let rest := unsigned.drop digits.length
  let rest' := skipExponent (skipFraction rest)
  if digits = [] ∨ rest' = rest ∧ 4300 < digits.length then none else some rest'

/-- The values that are words. -/
def words : List (List Char × Loaded) :=
  [(['n', 'u', 'l', 'l'], .null), (['t', 'r', 'u', 'e'], .bool true),
    (['f', 'a', 'l', 's', 'e'], .bool false), (['N', 'a', 'N'], .number),
    (['I', 'n', 'f', 'i', 'n', 'i', 't', 'y'], .number),
    (['-', 'I', 'n', 'f', 'i', 'n', 'i', 't', 'y'], .number)]

/-! ## Values -/

/-- What reads a value at the front of a text. -/
abbrev Scan := List Char → Except LoadsError (Loaded × List Char)

/-- A text, a word or a number. -/
def scanScalar : Scan := fun s =>
  if s.head? = some '"' then
    match scanUnits s.tail with
    | some (units, rest) => .ok (.str (joinSurrogates units), rest)
    | none => .error .invalid
  else
    match words.find? (·.1.isPrefixOf s), scanNumber s with
    | some (word, value), _ => .ok (value, s.drop word.length)
    | none, some rest => .ok (.number, rest)
    | none, none => .error .invalid

/-- The items of an array that is not empty, up to its end. -/
def scanItems (scan : Scan) : ℕ → List Char → Except LoadsError (List Loaded × List Char)
  | 0, _ => .error .recursion
  | fuel + 1, s =>
    match scan s with
    | .error e => .error e
    | .ok (v, s) =>
      match skip s with
      | ',' :: s =>
        match scanItems scan fuel (skip s) with
        | .error e => .error e
        | .ok (vs, s) => .ok (v :: vs, s)
      | ']' :: s => .ok ([v], s)
      | _ => .error .invalid

/-- The fields of an object that is not empty, up to its end. -/
def scanFields (scan : Scan) : ℕ → List Char → Except LoadsError (List (List ℕ × Loaded) × List Char)
  | 0, _ => .error .recursion
  | fuel + 1, s =>
    match if s.head? = some '"' then scanUnits s.tail else none with
    | none => .error .invalid
    | some (key, s) =>
      if (skip s).head? = some ':' then
        match scan (skip (skip s).tail) with
        | .error e => .error e
        | .ok (v, s) =>
          match skip s with
          | ',' :: s =>
            match scanFields scan fuel (skip s) with
            | .error e => .error e
            | .ok (fs, s) => .ok ((joinSurrogates key, v) :: fs, s)
          | '}' :: s => .ok ([(joinSurrogates key, v)], s)
          | _ => .error .invalid
      else .error .invalid

/-- `_parse_array`, after the bracket. No text has more items than characters. -/
def scanArray (scan : Scan) : Scan := fun s =>
  if (skip s).head? = some ']' then .ok (.arr [], (skip s).tail)
  else
    match scanItems scan (s.length + 1) (skip s) with
    | .error e => .error e
    | .ok (vs, s) => .ok (.arr vs, s)

/-- `_parse_object`, after the brace. -/
def scanObject (scan : Scan) : Scan := fun s =>
  if (skip s).head? = some '}' then .ok (.obj [], (skip s).tail)
  else
    match scanFields scan (s.length + 1) (skip s) with
    | .error e => .error e
    | .ok (fs, s) => .ok (.obj fs, s)

/-- `scan_once`, where `depth` more arrays or objects may be nested. -/
def scanOnce : ℕ → Scan
  | 0, s => if s.head? = some '[' ∨ s.head? = some '{' then .error .recursion else scanScalar s
  | depth + 1, s =>
    if s.head? = some '[' then scanArray (scanOnce depth) s.tail
    else if s.head? = some '{' then scanObject (scanOnce depth) s.tail
    else scanScalar s

/-- `json.loads`, under a recursion limit. -/
def loadsAny (limit : ℕ) (s : String) : Except LoadsError Loaded :=
  if s.toList.head? = some '\ufeff' then .error .invalid
  else
    match scanOnce limit (skip s.toList) with
    | .error e => .error e
    | .ok (v, rest) => if skip rest = [] then .ok v else .error .invalid

/-! ## Depth -/

theorem length_skip_le (s : List Char) : (skip s).length ≤ s.length :=
  (List.dropWhile_suffix _).length_le

/-- `scan` reads something. -/
def Shortens (scan : Scan) : Prop := ∀ s v rest, scan s = .ok (v, rest) → rest.length < s.length

theorem length_tail_le (s : List Char) : s.tail.length ≤ s.length := (List.tail_sublist s).length_le

theorem length_scanUnits {s rest : List Char} {units : List ℕ}
    (h : scanUnits s = some (units, rest)) :
    rest.length < s.length := by
  -- An escape reads several characters at once, so the induction is on the length.
  induction hn : s.length using Nat.strong_induction_on generalizing s units with
  | _ n ih =>
    subst hn
    rcases s with - | ⟨c, s⟩
    · cases h
    rw [scanUnits.eq_def] at h
    simp only at h
    rw [List.length_cons]
    split at h
    · cases h
      exact Nat.lt_succ_self _
    · split at h
      · split at h
        · split at h
          · next hs =>
            cases h
            have := ih _ (by simp only [List.length_cons]; omega) hs rfl
            simp only [List.length_cons]
            omega
          · cases h
        · split at h
          · next hs =>
            cases h
            have := ih _ (by simp only [List.length_cons]; omega) hs rfl
            simp only [List.length_cons]
            omega
          · cases h
        · cases h
      · split at h
        · next hs =>
          split at h
          · cases h
          · cases h
            have := ih _ (Nat.lt_succ_self _) hs rfl
            omega
        · cases h

theorem length_skipFraction_le (s : List Char) : (skipFraction s).length ≤ s.length := by
  rw [skipFraction]
  split
  · exact (List.dropWhile_suffix _).length_le.trans (length_tail_le _)
  · exact le_rfl

theorem length_skipExponent_le (s : List Char) : (skipExponent s).length ≤ s.length := by
  have hsigned : (if s.tail.head? = some '+' ∨ s.tail.head? = some '-' then s.tail.tail
      else s.tail).length ≤ s.length := by
    split
    · exact (length_tail_le _).trans (length_tail_le _)
    · exact length_tail_le _
  simp only [skipExponent]
  generalize (if s.tail.head? = some '+' ∨ s.tail.head? = some '-' then s.tail.tail else s.tail) =
    signed at *
  split
  · exact (List.dropWhile_suffix _).length_le.trans hsigned
  · exact le_rfl

theorem length_scanNumber {s rest : List Char} (h : scanNumber s = some rest) :
    rest.length < s.length := by
  simp only [scanNumber] at h
  generalize hunsigned : (if s.head? = some '-' then s.tail else s) = unsigned at h
  generalize hdigits :
    (if unsigned.head? = some '0' then ['0'] else unsigned.takeWhile Char.isDigit) = digits at h
  split at h
  · cases h
  · next hne =>
    cases h
    have hle : unsigned.length ≤ s.length := by
      rw [← hunsigned]
      split
      · exact length_tail_le _
      · exact le_rfl
    have hdrop : (unsigned.drop digits.length).length < unsigned.length := by
      have hpos : 0 < digits.length := List.length_pos_iff.2 fun h => hne (.inl h)
      have hle : digits.length ≤ unsigned.length := by
        rw [← hdigits]
        split
        · next hzero =>
          rcases unsigned with - | ⟨c, unsigned⟩
          · cases hzero
          · exact Nat.succ_le_succ (Nat.zero_le _)
        · exact (List.takeWhile_prefix _).length_le
      rw [List.length_drop]
      omega
    exact ((length_skipExponent_le _).trans (length_skipFraction_le _)).trans_lt (hdrop.trans_le hle)

theorem shortens_scanScalar : Shortens scanScalar := by
  intro s v rest h
  rw [scanScalar] at h
  split at h
  · next hquote =>
    split at h
    · next units rest' hunits =>
      cases h
      exact (length_scanUnits hunits).trans_le (length_tail_le _)
    · cases h
  · split at h
    · next word value hword =>
      cases h
      have hmem := List.mem_of_find?_eq_some hword
      have hpos : ∀ w ∈ words, 0 < w.1.length := by
        simp [words]
      have hfound : word.isPrefixOf s = true := by
        have hfound := List.find?_some hword
        exact hfound
      have hle := (List.isPrefixOf_iff_prefix.1 hfound).length_le
      have hpos : 0 < word.length := hpos _ hmem
      rw [List.length_drop]
      omega
    · next hnumber =>
      cases h
      exact length_scanNumber hnumber
    · cases h

theorem length_scanItems {scan : Scan} (hscan : Shortens scan) {fuel : ℕ} {s rest : List Char}
    {vs : List Loaded} (h : scanItems scan fuel s = .ok (vs, rest)) : rest.length < s.length := by
  induction fuel generalizing s vs with
  | zero => cases h
  | succ fuel ih =>
    rw [scanItems] at h
    split at h
    · cases h
    · next v s' hv =>
      have hlt := hscan _ _ _ hv
      have hskip := length_skip_le s'
      split at h
      · next s'' hs'' =>
        rw [hs'', List.length_cons] at hskip
        have hskip' := length_skip_le s''
        split at h
        · cases h
        · next hitems =>
          cases h
          have := ih hitems
          omega
      · next s'' hs'' =>
        cases h
        rw [hs'', List.length_cons] at hskip
        omega
      · cases h

theorem length_scanFields {scan : Scan} (hscan : Shortens scan) {fuel : ℕ} {s rest : List Char}
    {fs : List (List ℕ × Loaded)} (h : scanFields scan fuel s = .ok (fs, rest)) :
    rest.length < s.length := by
  induction fuel generalizing s fs with
  | zero => cases h
  | succ fuel ih =>
    rw [scanFields] at h
    split at h
    · cases h
    · next key s' hkey =>
      have hlt : s'.length < s.length := by
        split at hkey
        · exact (length_scanUnits hkey).trans_le (length_tail_le s)
        · cases hkey
      have hcolon :=
        (length_skip_le (skip s').tail).trans ((length_tail_le _).trans (length_skip_le s'))
      split at h
      · split at h
        · cases h
        · next v s'' hv =>
          have hlt' := hscan _ _ _ hv
          have hskip := length_skip_le s''
          split at h
          · next t ht =>
            rw [ht, List.length_cons] at hskip
            have hskip' := length_skip_le t
            split at h
            · cases h
            · next hfields =>
              cases h
              have := ih hfields
              omega
          · next t ht =>
            cases h
            rw [ht, List.length_cons] at hskip
            omega
          · cases h
      · cases h

theorem shortens_scanOnce (depth : ℕ) : Shortens (scanOnce depth) := by
  induction depth with
  | zero =>
    intro s v rest h
    rw [scanOnce] at h
    split at h
    · cases h
    · exact shortens_scanScalar s v rest h
  | succ depth ih =>
    intro s v rest h
    rw [scanOnce] at h
    have hskip := length_skip_le s.tail
    have htail := length_tail_le (skip s.tail)
    split at h
    · next hs =>
      obtain ⟨c, t, rfl⟩ := List.exists_cons_of_ne_nil (show s ≠ [] by rintro rfl; cases hs)
      rw [List.tail_cons] at hskip htail h
      rw [List.length_cons]
      rw [scanArray] at h
      split at h
      · cases h
        omega
      · split at h
        · cases h
        · next hitems =>
          cases h
          -- What opens the array has been read, and its items are shorter.
          have := length_scanItems ih hitems
          omega
    · split at h
      · next hs =>
        obtain ⟨c, t, rfl⟩ := List.exists_cons_of_ne_nil (show s ≠ [] by rintro rfl; cases hs)
        rw [List.tail_cons] at hskip htail h
        rw [List.length_cons]
        rw [scanObject] at h
        split at h
        · cases h
          omega
        · split at h
          · cases h
          · next hfields =>
            cases h
            have := length_scanFields ih hfields
            omega
      · exact shortens_scanScalar s v rest h

theorem scanScalar_ne_recursion (s : List Char) : scanScalar s ≠ .error .recursion := by
  rw [scanScalar]
  split
  · split
    · exact nofun
    · exact nofun
  · split
    · exact nofun
    · exact nofun
    · exact nofun

section

variable {scan : Scan} {n fuel : ℕ} {s : List Char}

theorem scanItems_ne_recursion (hscan : Shortens scan)
    (hne : ∀ s, s.length ≤ n → scan s ≠ .error .recursion) (hs : s.length ≤ n)
    (hfuel : s.length < fuel) : scanItems scan fuel s ≠ .error .recursion := by
  induction fuel generalizing s with
  | zero => exact absurd hfuel (Nat.not_lt_zero _)
  | succ fuel ih =>
    rw [scanItems]
    split
    · next e he =>
      rintro ⟨⟩
      exact hne s hs he
    · next v s' hv =>
      have hlt := hscan _ _ _ hv
      have hskip := length_skip_le s'
      split
      · next s'' hs'' =>
        rw [hs'', List.length_cons] at hskip
        have hskip' := length_skip_le s''
        have ih : scanItems scan fuel (skip s'') ≠ .error .recursion := ih (by omega) (by omega)
        split
        · next he =>
          rintro ⟨⟩
          exact ih he
        · exact nofun
      · exact nofun
      · exact nofun

theorem scanFields_ne_recursion (hscan : Shortens scan)
    (hne : ∀ s, s.length ≤ n → scan s ≠ .error .recursion) (hs : s.length ≤ n)
    (hfuel : s.length < fuel) : scanFields scan fuel s ≠ .error .recursion := by
  induction fuel generalizing s with
  | zero => exact absurd hfuel (Nat.not_lt_zero _)
  | succ fuel ih =>
    rw [scanFields]
    split
    · exact nofun
    · next key s' hkey =>
      have hlt : s'.length < s.length := by
        split at hkey
        · exact (length_scanUnits hkey).trans_le (length_tail_le s)
        · cases hkey
      have hcolon :=
        (length_skip_le (skip s').tail).trans ((length_tail_le _).trans (length_skip_le s'))
      split
      · split
        · next e he =>
          rintro ⟨⟩
          exact hne _ (by omega) he
        · next v s'' hv =>
          have hlt' := hscan _ _ _ hv
          have hskip := length_skip_le s''
          split
          · next t ht =>
            rw [ht, List.length_cons] at hskip
            have hskip' := length_skip_le t
            have ih : scanFields scan fuel (skip t) ≠ .error .recursion := ih (by omega) (by omega)
            split
            · next he =>
              rintro ⟨⟩
              exact ih he
            · exact nofun
          · exact nofun
          · exact nofun
      · exact nofun

end

theorem scanOnce_ne_recursion {depth : ℕ} {s : List Char}
    (hs : s.length ≤ depth) : scanOnce depth s ≠ .error .recursion := by
  induction depth generalizing s with
  | zero =>
    rw [List.eq_nil_of_length_eq_zero (Nat.le_zero.1 hs)]
    exact scanScalar_ne_recursion []
  | succ depth ih =>
    have hscan := shortens_scanOnce depth
    have hskip := length_skip_le s.tail
    have htail : s.tail.length ≤ depth := by
      rw [List.length_tail]
      omega
    rw [scanOnce]
    split
    · rw [scanArray]
      split
      · exact nofun
      · have hitems := scanItems_ne_recursion hscan (fun s hs => ih hs) (hskip.trans htail)
          (Nat.lt_succ_of_le hskip)
        split
        · next he =>
          rintro ⟨⟩
          exact hitems he
        · exact nofun
    · split
      · rw [scanObject]
        split
        · exact nofun
        · have hfields := scanFields_ne_recursion hscan (fun s hs => ih hs) (hskip.trans htail)
            (Nat.lt_succ_of_le hskip)
          split
          · next he =>
            rintro ⟨⟩
            exact hfields he
          · exact nofun
      · exact scanScalar_ne_recursion s

/-- No text is nested deeper than it is long. -/
theorem loadsAny_ne_recursion {limit : ℕ} {s : String}
    (hs : s.length ≤ limit) : loadsAny limit s ≠ .error .recursion := by
  have hne := scanOnce_ne_recursion
    ((length_skip_le s.toList).trans (String.length_toList.le.trans hs))
  rw [loadsAny]
  split
  · exact nofun
  · split
    · next he =>
      rintro ⟨⟩
      exact hne he
    · split
      · exact nofun
      · exact nofun

/-! ## Round trip -/

theorem scanUnits_escape {c : Char} {n : ℕ} {s rest : List Char} {units : List ℕ} (hc : c ≠ 'u')
    (hn : unescape c = some n) (hs : scanUnits s = some (units, rest)) :
    scanUnits ('\\' :: c :: s) = some (n :: units, rest) := by
  rw [scanUnits.eq_def]
  simp [hc, hn, hs]

theorem scanUnits_escapeUnit {n : ℕ} {s rest : List Char} {units : List ℕ} (hn : n < 0x10000)
    (hs : scanUnits s = some (units, rest)) :
    scanUnits (escapeUnit n ++ s) = some (n :: units, rest) := by
  have hlength : (Text.padded 16 4 n).length = 4 := Text.length_padded 16 4 n
  have hnumber : Text.number 16 (Text.padded 16 4 n) = some n :=
    Text.number_padded (by decide) (by decide) hn
  obtain ⟨a, b, c, d, habcd⟩ := List.length_eq_four.1 hlength
  rw [habcd] at hnumber
  rw [escapeUnit, habcd, scanUnits.eq_def]
  simp [hnumber, hs]

theorem scanUnits_self {c : Char} {s rest : List Char} {units : List ℕ} (hquote : c ≠ '"')
    (hc : c ≠ '\\')  (hle : ' ' ≤ c) (hs : scanUnits s = some (units, rest)) :
    scanUnits (c :: s) = some (c.toNat :: units, rest) := by
  rw [scanUnits.eq_def]
  simp [hquote, hc, hs, hle]

/-- A character is read as it is printed. -/
theorem scanUnits_escapeRaw (c : Char) {s rest : List Char} {units : List ℕ}
    (hs : scanUnits s = some (units, rest)) :
    scanUnits (escapeRaw c ++ s) = some (c.toNat :: units, rest) := by
  unfold escapeRaw
  split_ifs with h₁ h₂ h₃ h₄ h₅ h₆ h₇ h₈
  · rw [h₁]
    exact scanUnits_escape (by decide) rfl hs
  · rw [h₂]
    exact scanUnits_escape (by decide) rfl hs
  · rw [h₃]
    exact scanUnits_escape (by decide) rfl hs
  · rw [h₄]
    exact scanUnits_escape (by decide) rfl hs
  · rw [h₅]
    exact scanUnits_escape (by decide) rfl hs
  · rw [h₆]
    exact scanUnits_escape (by decide) rfl hs
  · rw [h₇]
    exact scanUnits_escape (by decide) rfl hs
  · exact scanUnits_self h₁ h₂ h₈ hs
  · have hlt : c.toNat < 0x20 := by
      rw [Char.le_def, UInt32.le_iff_toNat_le, Nat.not_le] at h₈
      exact h₈
    exact scanUnits_escapeUnit (by omega) hs

theorem scanUnits_flatMap (cs rest : List Char) :
    scanUnits (cs.flatMap escapeRaw ++ '"' :: rest) = some (cs.map (·.toNat), rest) := by
  induction cs with
  | nil => 
    rw [List.flatMap_nil, List.nil_append, scanUnits.eq_def]
    rfl
  | cons c cs ih =>
    rw [List.flatMap_cons, List.append_assoc]
    exact scanUnits_escapeRaw c ih

/-- The characters of a text are no surrogates. -/
theorem joinSurrogates_toNat (cs : List Char) :
    joinSurrogates (cs.map (·.toNat)) = cs.map (·.toNat) := by
  induction cs with
  | nil => rfl
  | cons c cs ih =>
    rcases cs with - | ⟨d, cs⟩
    · rfl
    · have hvalid : c.toNat < 0xd800 ∨ 0xdfff < c.toNat ∧ c.toNat < 0x110000 := c.valid
      rw [List.map_cons, List.map_cons, joinSurrogates, if_neg (by omega)]
      exact congrArg _ ih

/-- A text in quotes is read. -/
theorem scanScalar_dumpRaw (s : String) (rest : List Char) :
    scanScalar (dumpRaw s ++ rest) = .ok (.str (codePoints s), rest) := by
  have hunits := scanUnits_flatMap s.toList rest
  rw [scanScalar, dumpRaw, List.cons_append, List.head?_cons, if_pos rfl, List.tail_cons,
    List.append_assoc, List.singleton_append, hunits]
  exact congrArg (fun units => Except.ok (Loaded.str units, rest)) (joinSurrogates_toNat s.toList)

theorem scanOnce_dumpRaw (depth : ℕ) (s : String) (rest : List Char) :
    scanOnce depth (dumpRaw s ++ rest) = .ok (.str (codePoints s), rest) := by
  refine Eq.trans ?_ (scanScalar_dumpRaw s rest)
  cases depth with
  | zero => rfl
  | succ depth => rfl

/-- A printed field is read, up to what comes after it. -/
theorem scanFields_field {scan : Scan}
    (hscan : ∀ s rest, scan (dumpRaw s ++ rest) = .ok (.str (codePoints s), rest))
    (f : String × String) (fuel : ℕ) (rest : List Char) :
    scanFields scan (fuel + 1) (dumpRawField f ++ rest) =
      match skip rest with
      | ',' :: s =>
        match scanFields scan fuel (skip s) with
        | .error e => .error e
        | .ok (fs, s) => .ok ((codePoints f.1, .str (codePoints f.2)) :: fs, s)
      | '}' :: s => .ok ([(codePoints f.1, .str (codePoints f.2))], s)
      | _ => .error .invalid := by
  obtain ⟨key, value⟩ := f
  have hkey := scanUnits_flatMap key.toList (':' :: (dumpRaw value ++ rest))
  have hshape : dumpRawField (key, value) ++ rest =
      '"' :: (key.toList.flatMap escapeRaw ++ '"' :: ':' :: (dumpRaw value ++ rest)) := by
    simp [dumpRawField, dumpRaw]
  have hcolon : skip (':' :: (dumpRaw value ++ rest)) = ':' :: (dumpRaw value ++ rest) := rfl
  have hquote : skip (dumpRaw value ++ rest) = dumpRaw value ++ rest := rfl
  rw [scanFields, hshape, List.head?_cons, if_pos rfl, List.tail_cons, hkey]
  simp only [hcolon, List.head?_cons, if_true, List.tail_cons, hquote, hscan, joinSurrogates_toNat]
  rfl

/-- Printed fields are read. -/
theorem scanFields_dumpRaw {scan : Scan}
    (hscan : ∀ s rest, scan (dumpRaw s ++ rest) = .ok (.str (codePoints s), rest))
    (f : String × String) (fs : List (String × String)) {fuel : ℕ} (hfuel : fs.length < fuel)
    (rest : List Char) :
    scanFields scan fuel (dumpRawField f ++ (dumpRawFields fs ++ rest)) =
      .ok ((f :: fs).map fun f => (codePoints f.1, .str (codePoints f.2)), rest) := by
  induction fs generalizing f fuel with
  | nil =>
    obtain ⟨fuel, rfl⟩ := Nat.exists_eq_add_one_of_ne_zero (Nat.ne_of_gt hfuel)
    have hend : skip (dumpRawFields [] ++ rest) = '}' :: rest := rfl
    rw [scanFields_field hscan, hend]
    rfl
  | cons g fs ih =>
    obtain ⟨fuel, rfl⟩ := Nat.exists_eq_add_one_of_ne_zero (Nat.ne_of_gt (Nat.zero_lt_of_lt hfuel))
    have hnext : skip (dumpRawFields (g :: fs) ++ rest) = ',' ::
        (dumpRawField g ++ (dumpRawFields fs ++ rest)) := by
      rw [dumpRawFields, List.cons_append, List.append_assoc]
      rfl
    have hquote : skip (dumpRawField g ++ (dumpRawFields fs ++ rest)) = dumpRawField g ++
        (dumpRawFields fs ++ rest) := rfl
    rw [scanFields_field hscan, hnext]
    simp only [hquote, ih g (Nat.lt_of_succ_lt_succ hfuel)]
    rfl

/-- A printed object is read, if an object may be nested at all. -/
theorem loadsAny_dumpsCompact {limit : ℕ} (hlimit : 1 ≤ limit) (f : String × String)
    (fs : List (String × String)) :
    loadsAny limit (dumpsCompact (f :: fs)) =
      .ok (.obj ((f :: fs).map fun f => (codePoints f.1, .str (codePoints f.2)))) := by
  obtain ⟨depth, rfl⟩ := Nat.exists_eq_add_one_of_ne_zero (Nat.ne_of_gt hlimit)
  have hlength (fs : List (String × String)) : fs.length < (dumpRawFields fs).length := by
    induction fs with
    | nil => exact Nat.one_pos
    | cons g fs ih =>
      rw [dumpRawFields, List.length_cons, List.length_cons, List.length_append]
      omega
  have hfuel : fs.length < (dumpRawField f ++ dumpRawFields fs).length + 1 := by
    have hlt := hlength fs
    rw [List.length_append]
    omega
  have hfields := scanFields_dumpRaw (scanOnce_dumpRaw depth) f fs hfuel []
  rw [List.append_nil] at hfields
  have hobject : scanOnce (depth + 1) ('{' :: (dumpRawField f ++ dumpRawFields fs)) =
      .ok (.obj ((f :: fs).map fun f => (codePoints f.1, .str (codePoints f.2))), []) := by
    have hskip : skip (dumpRawField f ++ dumpRawFields fs) = dumpRawField f ++ dumpRawFields fs := rfl
    have hhead : (dumpRawField f ++ dumpRawFields fs).head? ≠ some '}' := by
      rintro ⟨⟩
    rw [scanOnce, List.head?_cons, if_neg (by decide), if_pos rfl, List.tail_cons, scanObject,
      hskip, if_neg hhead, hfields]
  rw [loadsAny, dumpsCompact, String.toList_ofList, if_neg (by rw [List.head?_cons]; decide)]
  have hskip : skip ('{' :: (dumpRawField f ++ dumpRawFields fs)) = '{' ::
    (dumpRawField f ++ dumpRawFields fs) := rfl
  rw [hskip, hobject]
  rfl

end Json
