import Boat.Core.Calendar

/-!
# Dates and times of text

`datetime.fromisoformat` reads more than `isoformat` prints: dates without hyphens and dates of
weeks, times that are cut short, with a comma or without colons, any character between the date and
the time, and texts without an offset (`IsoFormat.fromisoformat`). The parser is the one of Python
3.12, which looks at the text from the left and takes what it finds, so that it also reads some
texts that are not of ISO 8601.

It reads what `isoformat` prints (`fromisoformat_dump`), but for offsets of less than a second,
which it takes for UTC.
-/

namespace Boat

namespace IsoFormat

def isDigit (c : Char) : Bool := '0' ≤ c && c ≤ '9'

/-! ## Dates -/

/-- `_iso_to_ymd`: the day of a week of a year. -/
def fromisocalendar (year week day : ℕ) : Option Date :=
  -- The weekday of 1 January, from Monday on.
  let first := daysBeforeYear year + 1
  let weekday := (first + 6) % 7
  let weeks := if weekday = 3 ∨ weekday = 2 ∧ isLeap year then 53 else 52
  if (1 ≤ year ∧ year ≤ 9999) ∧ (1 ≤ week ∧ week ≤ weeks) ∧ 1 ≤ day ∧ day ≤ 7 then
    let monday := first - weekday + if weekday > 3 then 7 else 0
    (Date.fromordinal (monday + (week - 1) * 7 + day - 1)).toOption
  else none

/-- `_find_isoformat_datetime_separator`, in a text of at least seven characters: where the date
    ends. -/
def findSeparator (s : List Char) : Option ℕ :=
  if s.length = 7 then some 7
  else if s[4]? = some '-' then
    if s[5]? = some 'W' then
      if s[8]? = some '-' then
        if s.length = 9 then none
        else if (s[10]?).any isDigit then some 8
        else some 10
      else some 8
    else some 10
  else if s[4]? = some 'W' then
    let position := 7 + ((s.drop 7).takeWhile isDigit).length
    if position < 9 then some position
    else if position % 2 = 0 then some 7
    else some 8
  else some 8

/-- `-`, if the date has them. -/
def readDash (dashed : Bool) (s : List Char) : Option (List Char) :=
  if dashed then DateTime.expect '-' s else some s

/-- `parse_isoformat_date`, for a date that ends at `separator`. -/
def readIsoDate (separator : ℕ) (s : List Char) : Option Date := do
  let (year, s) ← Text.readNumber 10 4 s
  let dashed := s.head? = some '-'
  let s := if dashed then s.tail else s
  if s.head? = some 'W' then
    let (week, s) ← Text.readNumber 10 2 s.tail
    if (if dashed then 8 else 7) < separator then
      let s ← readDash dashed s
      let (day, _) ← Text.readNumber 10 1 s
      fromisocalendar year week day
    else fromisocalendar year week 1
  else
    let (month, s) ← Text.readNumber 10 2 s
    let s ← readDash dashed s
    let (day, _) ← Text.readNumber 10 2 s
    (Date.create year month day).toOption

/-! ## Times -/

/-- Up to six digits of a fraction, in microseconds, and whether there is more: `next` comes after
    the text. -/
def readIsoFraction (next : Char) (s : List Char) : Option (ℕ × Bool) := do
  let k := min s.length 6
  let (microsecond, s) ← Text.readNumber 10 k s
  return (microsecond * 10 ^ (6 - k), ((s.dropWhile isDigit).head?.getD next) ≠ '\x00')

/-- `parse_hh_mm_ss_ff`: up to `left` numbers of two digits, the microseconds, and whether there is
    more. The first character after a number decides whether all are separated by colons. -/
def readComponents (next : Char) : (left : ℕ) → (colons : Option Bool) → List Char →
    Option (List ℕ × ℕ × Bool)
  | 0, _, s => do
    let (microsecond, more) ← readIsoFraction next s
    return ([], microsecond, more)
  | left + 1, colons, s => do
    let (value, s) ← Text.readNumber 10 2 s
    match s with
    | [] => return ([value], 0, next ≠ '\x00')
    | [c] => return ([value], 0, c ≠ '\x00')
    | c :: s =>
      let separated := colons.getD (c = ':')
      if separated ∧ c = ':' then
        let (values, microsecond, more) ← readComponents next left (some separated) s
        return (value :: values, microsecond, more)
      else if c = '.' ∨ c = ',' then
        let (microsecond, more) ← readIsoFraction next s
        return ([value], microsecond, more)
      else if separated then none
      else
        let (values, microsecond, more) ← readComponents next left (some separated) (c :: s)
        return (value :: values, microsecond, more)

/-- `time`, of its components. -/
def toTimeOfDay (values : List ℕ) (microsecond : ℕ) : Option TimeOfDay :=
  let hour := values.getD 0 0
  let minute := values.getD 1 0
  let second := values.getD 2 0
  if h : hour < 24 ∧ minute < 60 ∧ second < 60 ∧
    microsecond < 1000000 then some ⟨hour, minute, second, microsecond, h⟩
  else none

/-- `timezone`, of the components of an offset; without seconds, the microseconds do not matter. -/
def toOffset (negative : Bool) (values : List ℕ) (microsecond : ℕ) : Option UtcOffset :=
  let seconds : ℤ := values.getD 0 0 * 3600 + values.getD 1 0 * 60 + values.getD 2 0
  let micros := if seconds = 0 then 0 else seconds * 1000000 + microsecond
  let micros := if negative then -micros else micros
  if h : -86400000000 < micros ∧ micros < 86400000000 then some ⟨micros, h⟩ else none

/-- The start of an offset. -/
def isSign (c : Char) : Bool := c = '+' || c = '-' || c = 'Z'

/-- `parse_isoformat_time`: a time, and its offset if there is one. -/
def readIsoTime (s : List Char) : Option (TimeOfDay × Option UtcOffset) := do
  match s.dropWhile (!isSign ·) with
  | [] =>
    let (values, microsecond, more) ← readComponents '\x00' 3 none s
    if more then none
    else
      let time ← toTimeOfDay values microsecond
      return (time, none)
  | sign :: offset =>
    let (values, microsecond, _) ← readComponents sign 3 none (s.takeWhile (!isSign ·))
    let time ← toTimeOfDay values microsecond
    if sign = 'Z' then
      if offset.head?.getD '\x00' ≠ '\x00' then none else return (time, some ⟨0, UtcOffset.zero_lt⟩)
    else
      let (values, microsecond, more) ← readComponents '\x00' 3 none offset
      if more then none
      else
        let offset ← toOffset (sign = '-') values microsecond
        return (time, some offset)

/-- `time.min`. -/
def midnight : TimeOfDay := ⟨0, 0, 0, 0, by decide⟩

/-- The bytes of a text: the parser reads those of UTF-8, of which each stands here as the character
    it belongs to. -/
def bytes (s : List Char) : List Char := s.flatMap fun c => .replicate c.utf8Size c

/-- `datetime.fromisoformat`: its date and time, and the offset of an aware one. None is a
    `ValueError`. -/
def fromisoformat (text : String) : Option (Date × TimeOfDay × Option UtcOffset) := do
  let s := bytes text.toList
  if text.toList.length < 7 then none
  else
    let separator ← findSeparator s
    let date ← readIsoDate separator s
    match s.drop separator with
    | [] => return (date, midnight, none)
    | c :: _ =>
      let (time, offset) ← readIsoTime (s.drop (separator + c.utf8Size))
      return (date, time, offset)

/-- `date.fromisoformat`. None is a `ValueError`. -/
def dateFromisoformat (text : String) : Option Date :=
  let s := bytes text.toList
  if s.length = 7 ∨ s.length = 8 ∨ s.length = 10 then readIsoDate s.length s else none

/-! ## What is printed -/

theorem digitChar_spec : ∀ d < 10, isDigit d.digitChar = true ∧ isSign d.digitChar = false ∧
    d.digitChar ≠ '-' ∧
    d.digitChar ≠ 'W' ∧ d.digitChar ≠ ':' ∧ d.digitChar ≠ '.' ∧ d.digitChar ≠ ',' := by decide

theorem mem_padded {k n : ℕ} {c : Char} (h : c ∈ Text.padded 10 k n) : ∃ d < 10, c = d.digitChar := by
  induction k generalizing n with
  | zero => cases h
  | succ k ih =>
    rcases List.mem_append.1 h with h | h
    · exact ih h
    · exact ⟨n % 10, Nat.mod_lt _ (by decide), List.mem_singleton.1 h⟩

/-- The characters of a time. -/
theorem of_mem_dumpTime {t : TimeOfDay} {c : Char} (h : c ∈ DateTime.dumpTime t) :
    c = ':' ∨ c = '.' ∨ ∃ d < 10, c = d.digitChar := by
  have hpadded {k n : ℕ} (h : c ∈ Text.padded 10 k n) : c = ':' ∨ c = '.' ∨
      ∃ d < 10, c = d.digitChar :=
    .inr (.inr (mem_padded h))
  simp only [DateTime.dumpTime, List.mem_append, List.mem_cons] at h
  rcases h with h | rfl | h | rfl | h | h
  · exact hpadded h
  · exact .inl rfl
  · exact hpadded h
  · exact .inl rfl
  · exact hpadded h
  · rw [DateTime.dumpFraction] at h
    split at h
    · cases h
    · rcases List.mem_cons.1 h with rfl | h
      · exact .inr (.inl rfl)
      · exact hpadded h

theorem isSign_of_mem_dumpTime {t : TimeOfDay} {c : Char}
    (h : c ∈ DateTime.dumpTime t) : isSign c = false := by
  rcases of_mem_dumpTime h with rfl | rfl | ⟨d, hd, rfl⟩
  · rfl
  · rfl
  · exact (digitChar_spec d hd).2.1

/-- The characters of an offset. -/
theorem of_mem_dumpOffset {offset : UtcOffset} {c : Char} (h : c ∈ DateTime.dumpOffset offset) :
    c = '+' ∨ c = '-' ∨ c = ':' ∨ c = '.' ∨ ∃ d < 10, c = d.digitChar := by
  have hpadded {k n : ℕ} (h : c ∈ Text.padded 10 k n) : c = '+' ∨ c = '-' ∨ c = ':' ∨ c = '.' ∨
      ∃ d < 10, c = d.digitChar :=
    .inr (.inr (.inr (.inr (mem_padded h))))
  simp only [DateTime.dumpOffset, List.mem_append, List.mem_cons] at h
  rcases h with h | h | rfl | h | h
  · split at h
    · exact .inr (.inl h)
    · exact .inl h
  · exact hpadded h
  · exact .inr (.inr (.inl rfl))
  · exact hpadded h
  · split at h
    · cases h
    · rcases List.mem_cons.1 h with rfl | h
      · exact .inr (.inr (.inl rfl))
      · rcases List.mem_append.1 h with h | h
        · exact hpadded h
        · rw [DateTime.dumpFraction] at h
          split at h
          · cases h
          · rcases List.mem_cons.1 h with rfl | h
            · exact .inr (.inr (.inr (.inl rfl)))
            · exact hpadded h

theorem bytes_eq_self {s : List Char} (h : ∀ c ∈ s, c.utf8Size = 1) : bytes s = s := by
  induction s with
  | nil => rfl
  | cons c s ih =>
    obtain ⟨hc, hs⟩ := List.forall_mem_cons.1 h
    have ih := ih hs
    rw [bytes] at ih ⊢
    rw [List.flatMap_cons, ih, hc]
    rfl

theorem utf8Size_digitChar : ∀ d < 10, d.digitChar.utf8Size = 1 := by decide

theorem utf8Size_of_mem_dumpDate {d : Date} {c : Char}
    (h : c ∈ DateTime.dumpDate d) : c.utf8Size = 1 := by
  have hpadded {k n : ℕ} (h : c ∈ Text.padded 10 k n) : c.utf8Size = 1 := by
    obtain ⟨d, hd, rfl⟩ := mem_padded h
    exact utf8Size_digitChar d hd
  simp only [DateTime.dumpDate, List.mem_append, List.mem_cons] at h
  rcases h with h | rfl | h | rfl | h
  · exact hpadded h
  · rfl
  · exact hpadded h
  · rfl
  · exact hpadded h

/-- The characters of a date and a time are one byte each. -/
theorem utf8Size_of_mem {d : Date} {t : TimeOfDay} {offset : UtcOffset} {c : Char}
    (h : c ∈ DateTime.dumpDate d ++ 'T' :: (DateTime.dumpTime t ++ DateTime.dumpOffset offset)) :
    c.utf8Size = 1 := by
  rw [List.mem_append, List.mem_cons, List.mem_append] at h
  rcases h with h | rfl | h | h
  · exact utf8Size_of_mem_dumpDate h
  · rfl
  · rcases of_mem_dumpTime h with rfl | rfl | ⟨d, hd, rfl⟩
    · rfl
    · rfl
    · exact utf8Size_digitChar d hd
  · rcases of_mem_dumpOffset h with rfl | rfl | rfl | rfl | ⟨d, hd, rfl⟩
    · rfl
    · rfl
    · rfl
    · rfl
    · exact utf8Size_digitChar d hd

/-- A number before a colon. -/
theorem readComponents_colon (next : Char) (left : ℕ) {colons : Option Bool}
    (hcolons : colons ≠ some false) {n : ℕ} (hn : n < 10 ^ 2) {s : List Char} (hs : s ≠ []) :
    readComponents next (left + 1) colons (Text.padded 10 2 n ++ ':' :: s) =
      (readComponents next left (some true) s).map fun r => (n :: r.1, r.2) := by
  have hread := Text.readNumber_padded (by decide : 0 < 10) (by decide) hn (':' :: s)
  obtain ⟨c, cs, rfl⟩ := List.exists_cons_of_ne_nil hs
  have hseparated : colons.getD true = true := by
    rcases colons with - | - | -
    · rfl
    · exact absurd rfl hcolons
    · rfl
  rw [readComponents.eq_def]
  simp only [hread, Option.bind_eq_bind, Option.bind_some, decide_true, hseparated, and_self, if_true]
  rcases readComponents next left (some true) (c :: cs) with - | ⟨values, microsecond, more⟩
  · rfl
  · rfl

/-- The last number of a time, with its fraction. -/
theorem readComponents_second (next : Char) {second microsecond : ℕ} (hsecond : second < 60)
    (hmicrosecond : microsecond < 1000000) :
    readComponents next 1 (some true) (Text.padded 10 2 second ++ DateTime.dumpFraction microsecond) =
      some ([second], microsecond, decide (next ≠ '\x00')) := by
  have hread := Text.readNumber_padded
    (by decide : 0 < 10) (by decide) (show second < 10 ^ 2 by omega)
    (DateTime.dumpFraction microsecond)
  rw [readComponents.eq_def]
  simp only [hread, Option.bind_eq_bind, Option.bind_some]
  by_cases hzero : microsecond = 0
  · rw [DateTime.dumpFraction, if_pos hzero, hzero]
    rfl
  · have hlength := Text.length_padded 10 6 microsecond
    have hread' :=
      Text.readNumber_padded (by decide : 0 < 10) (by decide) (show microsecond < 10 ^ 6 by omega) []
    rw [List.append_nil] at hread'
    have hfraction : readIsoFraction next (Text.padded 10 6 microsecond) =
        some (microsecond, decide (next ≠ '\x00')) := by
      simp only [readIsoFraction, hlength, hread', Nat.min_self, Option.bind_eq_bind,
        Option.bind_some, Nat.sub_self, pow_zero, mul_one]
      rfl
    obtain ⟨c, cs, hcs⟩ : ∃ c cs, Text.padded 10 6 microsecond = c :: cs :=
      List.exists_cons_of_ne_nil (by rw [← List.length_pos_iff, hlength]; decide)
    rw [DateTime.dumpFraction, if_neg hzero, hcs]
    rw [hcs] at hfraction
    simp [hfraction]

theorem padded_ne_nil {k n : ℕ} (hk : 0 < k) (s : List Char) : Text.padded 10 k n ++ s ≠ [] := by
  rw [← List.length_pos_iff, List.length_append, Text.length_padded]
  omega

/-- The time of what is printed. -/
theorem readComponents_dumpTime (next : Char) (t : TimeOfDay) :
    readComponents next 3 none (DateTime.dumpTime t) =
    some ([t.hour, t.minute, t.second], t.microsecond, decide (next ≠ '\x00')) := by
  obtain ⟨hhour, hminute, hsecond, hmicrosecond⟩ := t.valid
  rw [DateTime.dumpTime,
    readComponents_colon next 2 (by decide) (by omega) (padded_ne_nil (by decide) _),
    readComponents_colon next 1 (by decide) (by omega) (padded_ne_nil (by decide) _),
    readComponents_second next hsecond hmicrosecond]
  rfl

/-! ## Offsets -/

/-- The offset that is read where this one is printed: less than a second is not. -/
def readBack (offset : UtcOffset) : UtcOffset :=
  if offset.micros.natAbs < 1000000 then ⟨0, UtcOffset.zero_lt⟩ else offset

/-- The components of a printed offset of `n` microseconds. -/
theorem readComponents_offset (n : ℕ) (hn : n < 86400000000) : ∃ values microsecond,
    readComponents '\x00' 3 none
      (Text.padded 10 2 (n / 3600000000) ++ ':' :: (Text.padded 10 2 (n / 60000000 % 60) ++
      if n % 60000000 = 0 then []
      else ':' :: (Text.padded 10 2 (n / 1000000 % 60) ++ DateTime.dumpFraction (n % 1000000)))) =
      some (values, microsecond, false) ∧ values.getD 0 0 = n / 3600000000 ∧
      values.getD 1 0 = n / 60000000 % 60 ∧
      values.getD 2 0 = n / 1000000 % 60 ∧ microsecond = n % 1000000 := by
  by_cases hzero : n % 60000000 = 0
  · have hread := Text.readNumber_padded
      (by decide : 0 < 10) (by decide) (show n / 60000000 % 60 < 10 ^ 2 by omega) []
    rw [List.append_nil] at hread
    refine ⟨[n / 3600000000, n / 60000000 % 60], 0, ?_, rfl, rfl, ?_, ?_⟩
    · rw [if_pos hzero, readComponents_colon '\x00' 2 (by decide) (by omega)
        (padded_ne_nil (by decide) _), List.append_nil, readComponents.eq_def]
      simp only [hread, Option.bind_eq_bind, Option.bind_some]
      rfl
    · simp only [List.getD_cons_succ, List.getD_nil]
      omega
    · omega
  · refine ⟨[n / 3600000000, n / 60000000 % 60, n / 1000000 % 60], n % 1000000, ?_, rfl,
      rfl, rfl, rfl⟩
    rw [if_neg hzero,
      readComponents_colon '\x00' 2 (by decide) (by omega) (padded_ne_nil (by decide) _),
      readComponents_colon '\x00' 1 (by decide) (by omega) (padded_ne_nil (by decide) _),
      readComponents_second '\x00' (by omega) (by omega)]
    rfl

/-- The offset of its components. -/
theorem toOffset_eq (offset : UtcOffset) {values : List ℕ} {microsecond : ℕ}
    (hhour : values.getD 0 0 = offset.micros.natAbs / 3600000000)
    (hminute : values.getD 1 0 = offset.micros.natAbs / 60000000 % 60)
    (hsecond : values.getD 2 0 = offset.micros.natAbs / 1000000 % 60)
    (hmicrosecond : microsecond = offset.micros.natAbs % 1000000) :
    toOffset (decide (offset.micros < 0)) values microsecond = some (readBack offset) := by
  obtain ⟨n, hn⟩ := offset
  simp only [toOffset, readBack, hhour, hminute, hsecond, hmicrosecond, decide_eq_true_eq]
  by_cases hsmall : n.natAbs < 1000000
  · have hzero : ((n.natAbs / 3600000000 : ℕ) : ℤ) * 3600 +
        ((n.natAbs / 60000000 % 60 : ℕ) : ℤ) * 60 +
          ((n.natAbs / 1000000 % 60 : ℕ) : ℤ) = 0 := by omega
    simp only [if_pos hzero, if_pos hsmall, neg_zero, ite_self]
    rfl
  · have hne : ((n.natAbs / 3600000000 : ℕ) : ℤ) * 3600 + ((n.natAbs / 60000000 % 60 : ℕ) : ℤ) * 60 +
        ((n.natAbs / 1000000 % 60 : ℕ) : ℤ) ≠ 0 := by omega
    have hsum : (((n.natAbs / 3600000000 : ℕ) : ℤ) * 3600 +
        ((n.natAbs / 60000000 % 60 : ℕ) : ℤ) * 60 +
          ((n.natAbs / 1000000 % 60 : ℕ) : ℤ)) * 1000000 + ((n.natAbs % 1000000 : ℕ) : ℤ) =
            n.natAbs := by omega
    have hmicros : (if n < 0 then -(n.natAbs : ℤ) else n.natAbs) = n := by
      split
      · omega
      · omega
    simp only [if_neg hne, if_neg hsmall, hsum, hmicros, hn, and_self, dif_pos]

theorem readIsoTime_dumpTime (t : TimeOfDay) (offset : UtcOffset) :
    readIsoTime (DateTime.dumpTime t ++ DateTime.dumpOffset offset) =
      some (t, some (readBack offset)) := by
  have hsign : ∀ c ∈ DateTime.dumpTime t, (!isSign c) = true :=
    fun c hc => by rw [isSign_of_mem_dumpTime hc]; rfl
  obtain ⟨values, microsecond, hread, hhour, hminute, hsecond, hmicrosecond⟩ :=
    readComponents_offset offset.micros.natAbs (by have := offset.lt; omega)
  have htime : toTimeOfDay [t.hour, t.minute, t.second] t.microsecond = some t := dif_pos t.valid
  have htoOffset := toOffset_eq offset hhour hminute hsecond hmicrosecond
  rw [DateTime.dumpOffset]
  generalize hrest : (Text.padded 10 2 (offset.micros.natAbs / 3600000000) ++ _ : List Char) =
    rest at hread ⊢
  generalize hc : (if offset.micros < 0 then '-' else '+') = c
  have hminus : (c = '-') ↔ offset.micros < 0 := by
    rw [← hc]
    split
    · next h => exact iff_of_true rfl h
    · next h => exact iff_of_false (by decide) h
  have hpm : isSign c = true ∧ c ≠ 'Z' := by
    rw [← hc]
    split
    · decide
    · decide
  have hdrop : (DateTime.dumpTime t ++ c :: rest).dropWhile (!isSign ·) = c :: rest := by
    rw [List.dropWhile_append_of_pos hsign, List.dropWhile_cons_of_neg (by simp [hpm.1])]
  have htake : (DateTime.dumpTime t ++ c :: rest).takeWhile (!isSign ·) = DateTime.dumpTime t := by
    rw [List.takeWhile_append_of_pos hsign, List.takeWhile_cons_of_neg (by simp [hpm.1])]
    exact List.append_nil _
  rw [readIsoTime, hdrop]
  simp only [htake, readComponents_dumpTime, htime, hread, if_neg hpm.2, Option.bind_eq_bind,
    Option.bind_some, Bool.false_eq_true, if_false, hminus, htoOffset, Option.pure_def]

/-- The date of what is printed. -/
theorem readIsoDate_dumpDate (d : Date) (rest : List Char) :
    readIsoDate 10 (DateTime.dumpDate d ++ rest) = some d := by
  obtain ⟨⟨hyear, hyear'⟩, ⟨hmonth, hmonth'⟩, hday, hday'⟩ := d.valid
  have hdays := monthDays_le d.year d.month
  have hread {k n : ℕ} (hn : n < 10 ^ k) (rest : List Char) :=
    Text.readNumber_padded (by decide : 0 < 10) (by decide) hn rest
  obtain ⟨e, f, hef⟩ : ∃ e f, Text.padded 10 2 d.month = [e, f] := ⟨_, _, rfl⟩
  have he : e ≠ 'W' := by
    obtain ⟨n, hn, heq⟩ :=
      mem_padded (show e ∈ Text.padded 10 2 d.month by rw [hef]; exact List.mem_cons_self)
    rw [heq]
    exact (digitChar_spec n hn).2.2.2.1
  have hhead (s : List Char) : (Text.padded 10 2 d.month ++ s).head? ≠ some 'W' := by
    rw [hef]
    exact fun h => he (Option.some.inj h)
  have hcreate : (Date.create d.year d.month d.day).toOption = some d := by
    have h : Date.create d.year d.month d.day = .ok d := dif_pos d.valid
    rw [h]
    rfl
  simp only [DateTime.dumpDate, readIsoDate, List.append_assoc, List.cons_append,
    hread (show d.year < 10 ^ 4 by omega), hread (show d.month < 10 ^ 2 by omega),
    hread (show d.day < 10 ^ 2 by omega), Option.bind_eq_bind, Option.bind_some,
    List.head?_cons, decide_true, if_true, List.tail_cons, hhead, if_false, readDash,
      DateTime.expect_cons, hcreate]

theorem findSeparator_dumpDate (d : Date) (rest : List Char) :
    findSeparator (DateTime.dumpDate d ++ rest) = some 10 := by
  obtain ⟨e, f, hef⟩ : ∃ e f, Text.padded 10 2 d.month = [e, f] := ⟨_, _, rfl⟩
  obtain ⟨y₁, y₂, y₃, y₄, hy⟩ : ∃ a b c e, Text.padded 10 4 d.year = [a, b, c, e] := ⟨_, _, _, _, rfl⟩
  obtain ⟨g, h, hgh⟩ : ∃ g h, Text.padded 10 2 d.day = [g, h] := ⟨_, _, rfl⟩
  have he : e ≠ 'W' := by
    obtain ⟨n, hn, heq⟩ :=
      mem_padded (show e ∈ Text.padded 10 2 d.month by rw [hef]; exact List.mem_cons_self)
    rw [heq]
    exact (digitChar_spec n hn).2.2.2.1
  simp [DateTime.dumpDate, findSeparator, hy, hef, hgh, he]

theorem length_dumpDate (d : Date) : (DateTime.dumpDate d).length = 10 := by
  simp [DateTime.dumpDate, Text.length_padded]

/-- How `isoformat` prints the offset of UTC. -/
def utcText : List Char := "+00:00".toList

theorem dumpOffset_utc : DateTime.dumpOffset .utc = utcText := by decide +kernel

/-- A datetime is read back, at the offset that is read. -/
theorem fromisoformat_dump (d : Date) (t : TimeOfDay) (offset : UtcOffset) :
    fromisoformat
      (.ofList (DateTime.dumpDate d ++ 'T' :: (DateTime.dumpTime t ++ DateTime.dumpOffset offset))) =
      some (d, t, some (readBack offset)) := by
  have hbytes := bytes_eq_self (fun c => @utf8Size_of_mem d t offset c)
  have hread := readIsoTime_dumpTime t offset
  generalize hrest : DateTime.dumpTime t ++ DateTime.dumpOffset offset = rest at hbytes hread ⊢
  have hlength : (DateTime.dumpDate d ++ 'T' :: rest).length = 11 + rest.length := by
    rw [List.length_append, length_dumpDate, List.length_cons]
    omega
  have hdrop : (DateTime.dumpDate d ++ 'T' :: rest).drop (10 + 1) = rest := by
    rw [← length_dumpDate d, ← List.drop_drop, List.drop_left]
    rfl
  have hseparator : (DateTime.dumpDate d ++ 'T' :: rest).drop 10 = 'T' :: rest := by
    rw [← length_dumpDate d, List.drop_left]
  have hsize : 'T'.utf8Size = 1 := rfl
  rw [fromisoformat, String.toList_ofList, hbytes]
  simp only
  rw [if_neg (by omega), findSeparator_dumpDate]
  simp only [Option.bind_eq_bind, Option.bind_some, readIsoDate_dumpDate, hseparator, hsize,
    hdrop, hread]
  rfl

/-- A date is read back. -/
theorem dateFromisoformat_dumpDate (d : Date) :
    dateFromisoformat (.ofList (DateTime.dumpDate d)) = some d := by
  have hbytes := bytes_eq_self fun c hc => utf8Size_of_mem_dumpDate (d := d) hc
  have hread := readIsoDate_dumpDate d []
  rw [List.append_nil] at hread
  rw [dateFromisoformat, String.toList_ofList]
  simp only [hbytes, length_dumpDate, or_true, if_true, hread]

end IsoFormat

namespace DateTime

/-- `datetime.fromisoformat`, of a text with an offset. -/
def fromisoformat (text : String) : Option DateTime :=
  match IsoFormat.fromisoformat text with
  | some (date, time, some offset) => some ⟨date, time, false, .timezone offset⟩
  | _ => none

section

variable [TimeZones] (d : DateTime)

/-- The datetime that is read where this one is printed. -/
def readBack : DateTime := ⟨d.date, d.time, false, .timezone (IsoFormat.readBack d.utcoffset)⟩

theorem fromisoformat_isoformat : fromisoformat d.isoformat = some d.readBack := by
  rw [fromisoformat, isoformat, IsoFormat.fromisoformat_dump]
  rfl

/-- A time of the database is read back. -/
theorem readBack_toDateTime (t : Timestamp) : t.toDateTime.readBack = t.toDateTime := by
  have hutc : IsoFormat.readBack .utc = .utc := if_pos (by decide)
  exact congrArg (fun offset => DateTime.mk t.date t.time false (.timezone offset)) hutc

/-- The offset is not that of UTC, but less than a second from it. -/
def Subsecond : Prop := d.utcoffset.micros ≠ 0 ∧ d.utcoffset.micros.natAbs < 1000000

instance : Decidable d.Subsecond := inferInstanceAs (Decidable (_ ∧ _))

variable {d}

theorem utcoffset_readBack (h : ¬d.Subsecond) : d.readBack.utcoffset = d.utcoffset := by
  show IsoFormat.readBack d.utcoffset = d.utcoffset
  rw [Subsecond] at h
  generalize d.utcoffset = offset at h ⊢
  obtain ⟨n, hn⟩ := offset
  rw [IsoFormat.readBack]
  split
  · next hsmall =>
    have hzero : n = 0 := by_contra fun hne => h ⟨hne, hsmall⟩
    simp only [hzero]
  · rfl

/-- The instant is read back, unless the offset is lost. -/
theorem instant_readBack : d.readBack.instant = d.instant ↔ ¬d.Subsecond := by
  constructor
  · rintro h ⟨hne, hsmall⟩
    have hoffset : d.readBack.utcoffset.micros = 0 := by
      show (IsoFormat.readBack d.utcoffset).micros = 0
      rw [IsoFormat.readBack, if_pos hsmall]
    have hutc : d.readBack.instant = (d.date.toordinal - 719163) * 86400000000 +
        d.time.micros - 0 := by
      rw [instant, hoffset]
      rfl
    rw [hutc, instant] at h
    exact hne (sub_right_inj.1 h).symm
  · intro h
    rw [instant, instant, utcoffset_readBack h]
    rfl

/-- It is equal, unless the offset depends on the fold or is lost. -/
theorem eq_readBack : d.eq d.readBack = true ↔ ¬d.Folded ∧ ¬d.Subsecond := by
  have hfixed : ¬d.readBack.Folded := fun h => h rfl
  rw [eq]
  split
  · next htz =>
    -- The datetime is of the offset that is read.
    have hoffset : d.utcoffset = IsoFormat.readBack d.utcoffset := by
      conv_lhs => rw [utcoffset, htz]
      rfl
    have hfolded : ¬d.Folded := by
      rw [Folded, not_not]
      simp only [utcoffset]
      rw [htz]
      rfl
    have hsubsecond : ¬d.Subsecond := by
      rintro ⟨hne, hsmall⟩
      rw [IsoFormat.readBack, if_pos hsmall] at hoffset
      exact hne (congrArg UtcOffset.micros hoffset)
    simp [hfolded, hsubsecond, readBack]
  · by_cases hfolded : d.Folded
    · simp [hfolded]
    · simp only [hfolded, hfixed, or_self, if_false, not_false_eq_true, true_and, decide_eq_true_eq]
      rw [eq_comm, instant_readBack]

end

end DateTime

end Boat
