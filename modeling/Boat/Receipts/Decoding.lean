import Boat.Core.TimeCursor
import Boat.Json.Loads
import Boat.Receipts.Cursors

/-!
# Receipts: cursors of any text

`decode_cursor` of a text that nobody has checked: what is in it goes through base64, UTF-8, JSON of
any type, and the parsers of Python (`Listing.lean` has what it makes of the cursors that the
listing hands out).

* `decodeCursor_sound_iff`: a cursor is refused, or is one that the listing can go on after, unless
  it has a time without an offset or out of the years of UTC, or a title that the database cannot
  store.
* `decodeCursor_encodeCursor`: of the cursors that the listing hands out, it makes what
  `Listing.lean` does.
-/

namespace Boat.Receipts.Decoding

open Json (Loaded codePoints)

/-! ## Texts of Python -/

/-- A surrogate, which no text of UTF-8 has. -/
def IsSurrogate (n : ℕ) : Prop := 0xd800 ≤ n ∧ n < 0xe000

instance (n : ℕ) : Decidable (IsSurrogate n) := inferInstanceAs (Decidable (_ ∧ _))

/-- The characters of code points without surrogates. -/
def chars (s : List ℕ) : Option (List Char) :=
  s.mapM fun n => if IsSurrogate n then none else some (.ofNat n)

/-- `_sanitize_isoformat_str`: one surrogate between the date and the time does not matter. -/
def sanitize (s : List ℕ) : List ℕ :=
  match [7, 8, 10].find? fun i => (s[i]?).any fun n => decide (IsSurrogate n) with
  | some i => s.set i 'T'.toNat
  | none => s

/-- `datetime.fromisoformat`. -/
def datetimeFromisoformat (s : List ℕ) : Option (Date × TimeOfDay × Option UtcOffset) :=
  (chars (sanitize s)).bind fun cs => IsoFormat.fromisoformat (.ofList cs)

/-- `date.fromisoformat`. -/
def dateFromisoformat (s : List ℕ) : Option Date :=
  (chars s).bind fun cs => IsoFormat.dateFromisoformat (.ofList cs)

/-! ## Cursors -/

/-- The value of a cursor. -/
inductive CursorValue
  | datetime (date : Date) (time : TimeOfDay) (offset : Option UtcOffset)
  | date (d : Date)
  | text (s : List ℕ)
  deriving DecidableEq

/-- `ReceiptCursor`. -/
structure ReceiptCursor where
  sort : ReceiptSort
  value : CursorValue
  receiptId : UUID
  deriving DecidableEq

/-- `payload[key]`. None is a `KeyError` or a `TypeError`. -/
def field (payload : Loaded) (key : String) : Option Loaded :=
  match payload with
  | .obj fields => fields.reverse.lookup (codePoints key)
  | _ => none

/-- `payload[key]`, if it is a text. -/
def textField (payload : Loaded) (key : String) : Option (List ℕ) :=
  match field payload key with
  | some (.str s) => some s
  | _ => none

/-- `ReceiptSort(payload["sort"])`. -/
def sortOf (payload : Loaded) : Option ReceiptSort :=
  (textField payload "sort").bind fun s =>
    [ReceiptSort.recent, .expiresOn, .purchaseDate, .title].find? (codePoints ·.value = s)

/-- `UUID(payload["id"])`. -/
def idOf (payload : Loaded) : Option UUID :=
  (textField payload "id").bind fun s => (chars s).bind fun cs => UUID.parse (.ofList cs)

/-- `_parse_cursor_value`, of a text; all else raises `TypeError`, or is refused. -/
def parseCursorValue (sort : ReceiptSort) (value : List ℕ) : Option CursorValue :=
  match sort with
  | .recent => (datetimeFromisoformat value).map fun t => .datetime t.1 t.2.1 t.2.2
  | .expiresOn => (dateFromisoformat value).map .date
  | .purchaseDate => (dateFromisoformat value).map .date
  | .title => some (.text value)

/-- The cursor of a payload. None is one of the exceptions that make it invalid. -/
def readCursor (sort : ReceiptSort) (payload : Loaded) : Option ReceiptCursor := do
  let cursorSort ← sortOf payload
  if cursorSort ≠ sort then none
  let value ← parseCursorValue cursorSort (← textField payload "value")
  let receiptId ← idOf payload
  return ⟨cursorSort, value, receiptId⟩

/-- The text in a cursor, of which the padding has been left out. -/
def payloadText (cursor : String) : Option String :=
  (Text.Base64.decode (Text.Base64.repad cursor.toList)).bind utf8Decode

/-- The cursor of a text, where the interpreter nests `limit` calls. `RecursionError` is not
    caught. -/
def decodeText (limit : ℕ) (text : String) (sort : ReceiptSort) :
    Except DomainError (Option ReceiptCursor) :=
  match Json.loadsAny limit text with
  | .error .invalid => .error invalidCursor
  | .error .recursion => .error (.other "RecursionError")
  | .ok payload =>
    match readCursor sort payload with
    | some cursor => .ok (some cursor)
    | none => .error invalidCursor

/-- `decode_cursor`. -/
def decodeCursor (limit : ℕ) (cursor : Option String)
    (sort : ReceiptSort) : Except DomainError (Option ReceiptCursor) :=
  match cursor with
  | none => .ok none
  | some cursor =>
    match payloadText cursor with
    | none => .error invalidCursor
    | some text => decodeText limit text sort

/-! ## Sound cursors -/

/-- A text of the database: without NUL, and of UTF-8. -/
def Storable (s : List ℕ) : Prop := ∀ n ∈ s, n ≠ 0 ∧ ¬IsSurrogate n

variable [TimeZones]

/-- The form of the values that `encode_cursor` prints under a sort. -/
def CursorValue.HasForm : ReceiptSort → CursorValue → Prop
  | .recent, .datetime _ _ offset => offset.isSome
  | .expiresOn, .date _ => True
  | .purchaseDate, .date _ => True
  | .title, .text s => Storable s
  | _, _ => False

/-- The query with the value does not fail: the driver sends a time in UTC, where it has to be in
    the years of `datetime`, and a text in UTF-8, which the database takes if there is no NUL in
    it. -/
def CursorValue.Queryable : CursorValue → Prop
  | .datetime d time offset => ∀ o ∈ offset, DateTime.InUtc ⟨d, time, false, .timezone o⟩
  | .date _ => True
  | .text s => Storable s

/-- The cursor is refused, or is one that the listing can go on after. -/
structure Sound (limit : ℕ) (cursor : String) (sort : ReceiptSort) : Prop where
  refused : ∀ e, decodeCursor limit (some cursor) sort = .error e → e = invalidCursor
  ne_none : decodeCursor limit (some cursor) sort ≠ .ok none
  read : ∀ c, decodeCursor limit (some cursor) sort = .ok (some c) → c.sort = sort ∧
    c.value.HasForm sort ∧ c.value.Queryable

/-- The payload in a cursor. -/
def Carries (limit : ℕ) (cursor : String) (payload : Loaded) : Prop :=
  ∃ text, payloadText cursor = some text ∧ Json.loadsAny limit text = .ok payload

/-- The payload is that of a cursor under the sort, but for its value. -/
def Names (sort : ReceiptSort) (payload : Loaded) : Prop :=
  sortOf payload = some sort ∧ (idOf payload).isSome

/-- The value of a payload does no harm: a time has an offset, and is in the years of UTC, and a
    title can be stored. -/
def Harmless (sort : ReceiptSort) (value : List ℕ) : Prop :=
  match sort with
  | .recent => ∀ t ∈ datetimeFromisoformat value, ∃ o ∈ t.2.2,
    DateTime.InUtc ⟨t.1, t.2.1, false, .timezone o⟩
  | .expiresOn => True
  | .purchaseDate => True
  | .title => Storable value

/-! ## Sizes -/

omit [TimeZones] in
theorem length_decodeFrom {quad pads left : ℕ} {s : List Char} {bytes : List UInt8}
    (h : Text.Base64.decodeFrom quad pads left s = some bytes) : bytes.length ≤ s.length := by
  induction s generalizing quad pads left bytes with
  | nil =>
    rw [Text.Base64.decodeFrom] at h
    split at h
    · cases h
      exact le_rfl
    · cases h
  | cons c s ih =>
    rw [Text.Base64.decodeFrom] at h
    rw [List.length_cons]
    split at h
    · split at h
      · exact (ih h).trans (Nat.le_succ _)
      · split at h
        · cases h
          exact Nat.zero_le _
        · exact (ih h).trans (Nat.le_succ _)
    · split at h
      · exact (ih h).trans (Nat.le_succ _)
      · split at h
        · exact (ih h).trans (Nat.le_succ _)
        all_goals
          obtain ⟨rest, hrest, rfl⟩ := Option.map_eq_some_iff.1 h
          exact Nat.succ_le_succ (ih hrest)

omit [TimeZones] in
theorem length_utf8Decode {bytes : List UInt8} {text : String} (h : utf8Decode bytes = some text) :
    text.length ≤ bytes.length := by
  have hbytes : utf8Encode text = bytes := by
    rw [utf8Decode, String.fromUTF8?] at h
    split at h
    · cases h
      rfl
    · cases h
  have hsizes (cs : List Char) : cs.length ≤ (cs.map Char.utf8Size).sum := by
    induction cs with
    | nil => exact le_rfl
    | cons c cs ih =>
      have hpos := c.utf8Size_pos
      rw [List.length_cons, List.map_cons, List.sum_cons]
      omega
  have hlength := length_utf8Encode text.toList
  rw [String.ofList_toList, hbytes] at hlength
  rw [hlength, ← String.length_toList]
  exact hsizes text.toList

omit [TimeZones] in
/-- The text in a cursor is hardly longer than the cursor. -/
theorem length_payloadText {cursor text : String}
    (h : payloadText cursor = some text) : text.length ≤ cursor.length + 3 := by
  obtain ⟨bytes, hbytes, htext⟩ := Option.bind_eq_some_iff.1 h
  have hdecode : bytes.length ≤ (Text.Base64.repad cursor.toList).length := by
    rw [Text.Base64.decode] at hbytes
    split at hbytes
    · exact length_decodeFrom hbytes
    · cases hbytes
  have hrepad : (Text.Base64.repad cursor.toList).length ≤ cursor.length + 3 := by
    rw [Text.Base64.repad, List.length_append, List.length_replicate, String.length_toList]
    omega
  exact (length_utf8Decode htext).trans (hdecode.trans hrepad)

/-! ## Soundness -/

/-- What a cursor does is what its value does. -/
theorem parseCursorValue_iff {sort : ReceiptSort} {value : List ℕ} :
    (∀ v ∈ parseCursorValue sort value, v.HasForm sort ∧ v.Queryable) ↔ Harmless sort value := by
  cases sort with
  | recent =>
    simp only [parseCursorValue, Option.mem_def, Option.map_eq_some_iff, forall_exists_index, and_imp,
      forall_apply_eq_imp_iff₂, Harmless, CursorValue.HasForm, CursorValue.Queryable,
        Option.isSome_iff_exists]
    refine forall₂_congr fun t _ => ?_
    rcases t.2.2 with - | o
    · simp
    · simp
  | expiresOn => simp [parseCursorValue, Harmless, CursorValue.HasForm, CursorValue.Queryable]
  | purchaseDate => simp [parseCursorValue, Harmless, CursorValue.HasForm, CursorValue.Queryable]
  | title => simp [parseCursorValue, Harmless, CursorValue.HasForm, CursorValue.Queryable]

omit [TimeZones] in
theorem readCursor_eq_some {sort : ReceiptSort} {payload : Loaded} {c : ReceiptCursor} :
    readCursor sort payload = some c ↔ sortOf payload = some sort ∧
    idOf payload = some c.receiptId ∧ c.sort = sort ∧
      ∃ value, textField payload "value" = some value ∧
      parseCursorValue sort value = some c.value := by
  obtain ⟨sort', value', receiptId⟩ := c
  rw [readCursor]
  rcases hsort : sortOf payload with - | cursorSort
  · simp
  · rcases htext : textField payload "value" with - | value
    · simp
    · rcases hid : idOf payload with - | id
      · simp
      · by_cases heq : cursorSort = sort
        · subst heq
          rcases hvalue : parseCursorValue cursorSort value with - | v
          · simp [hvalue]
          · simp [hvalue]
            tauto
        · simp [heq]

/-- The cursors of a payload. -/
theorem readCursor_iff {sort : ReceiptSort} {payload : Loaded} :
    (∀ c ∈ readCursor sort payload, c.sort = sort ∧ c.value.HasForm sort ∧ c.value.Queryable) ↔
      (Names sort payload → ∀ value, textField payload "value" = some value →
        Harmless sort value) := by
  constructor
  · rintro h ⟨hsort, hid⟩ value hvalue
    obtain ⟨id, hid⟩ := Option.isSome_iff_exists.1 hid
    rw [← parseCursorValue_iff]
    intro v hv
    exact (h ⟨sort, v, id⟩ (readCursor_eq_some.2 ⟨hsort, hid, rfl, value, hvalue, hv⟩)).2
  · intro h c hc
    obtain ⟨hsort, hid, hcsort, value, hvalue, hv⟩ := readCursor_eq_some.1 hc
    have hharmless := h ⟨hsort, Option.isSome_iff_exists.2 ⟨_, hid⟩⟩ value hvalue
    exact ⟨hcsort, parseCursorValue_iff.2 hharmless c.value hv⟩

theorem sound_of_error {limit : ℕ} {cursor : String} {sort : ReceiptSort}
    (h : decodeCursor limit (some cursor) sort = .error invalidCursor) : Sound limit cursor sort := by
  refine ⟨fun e he => ?_, ?_, fun c hc => ?_⟩
  · rw [h] at he
    cases he
    rfl
  · rw [h]
    exact nofun
  · rw [h] at hc
    cases hc

theorem sound_iff_of_ok {limit : ℕ} {cursor : String} {sort : ReceiptSort} {c : ReceiptCursor}
    (h : decodeCursor limit (some cursor) sort = .ok (some c)) :
    Sound limit cursor sort ↔ c.sort = sort ∧ c.value.HasForm sort ∧ c.value.Queryable := by
  refine ⟨fun hsound => hsound.read c h, fun hc => ⟨fun e he => ?_, ?_, fun c' hc' => ?_⟩⟩
  · rw [h] at he
    cases he
  · rw [h]
    exact nofun
  · rw [h] at hc'
    cases hc'
    exact hc

/-- Every cursor of the length that the listing accepts is refused, or is one that the listing can
    go on after, if and only if the value in it does no harm. -/
theorem decodeCursor_sound_iff {limit : ℕ} (hlimit : 2051 ≤ limit) (sort : ReceiptSort)
    {cursor : String} (hlength : 1 ≤ cursor.length ∧ cursor.length ≤ 2048) :
    Sound limit cursor sort ↔ ∀ payload, Carries limit cursor payload → Names sort payload →
      ∀ value, textField payload "value" = some value → Harmless sort value := by
  simp only [← readCursor_iff, Carries, forall_exists_index, and_imp]
  rcases htext : payloadText cursor with - | text
  · refine iff_of_true (sound_of_error ?_) nofun
    rw [decodeCursor, htext]
  have hlen := length_payloadText htext
  -- The text of a cursor is too short to nest that deep.
  have hne : Json.loadsAny limit text ≠ .error .recursion := Json.loadsAny_ne_recursion (by omega)
  have hdecode : decodeCursor limit (some cursor) sort = decodeText limit text sort := by
    rw [decodeCursor, htext]
  rw [decodeText] at hdecode
  rcases hloads : Json.loadsAny limit text with (- | -) | payload
  · rw [hloads] at hdecode
    refine iff_of_true (sound_of_error hdecode) ?_
    rintro payload text' ⟨⟩ h
    rw [hloads] at h
    cases h
  · exact absurd hloads hne
  · rw [hloads] at hdecode
    have hpayload :
      (∀ payload' text', some text = some text' → Json.loadsAny limit text' = .ok payload' →
        ∀ c ∈ readCursor sort payload', c.sort = sort ∧ c.value.HasForm sort ∧ c.value.Queryable) ↔
        ∀ c ∈ readCursor sort payload, c.sort = sort ∧ c.value.HasForm sort ∧ c.value.Queryable := by
      refine ⟨fun h => h payload text rfl hloads, ?_⟩
      rintro h payload' text' ⟨⟩ h'
      cases hloads.symm.trans h'
      exact h
    rw [hpayload]
    dsimp only at hdecode
    rcases hread : readCursor sort payload with - | c
    · rw [hread] at hdecode
      refine iff_of_true (sound_of_error hdecode) ?_
      rintro c ⟨⟩
    · rw [hread] at hdecode
      rw [sound_iff_of_ok hdecode]
      exact ⟨fun h c' hc' => Option.some_inj.1 hc' ▸ h, fun h => h c rfl⟩

/-! ## Cursors of the listing -/

omit [TimeZones] in
theorem payloadText_ofList (text : String) :
    payloadText (.ofList (Text.Base64.unpad (Text.Base64.encode (utf8Encode text)))) = some text := by
  rw [payloadText, String.toList_ofList, Text.Base64.decode_repad, Option.bind_some,
    utf8Decode_utf8Encode]

omit [TimeZones] in
/-- A text of UTF-8 has no surrogates. -/
theorem not_isSurrogate (c : Char) : ¬IsSurrogate c.toNat := by
  have hvalid : c.toNat < 0xd800 ∨ 0xdfff < c.toNat ∧ c.toNat < 0x110000 := c.valid
  rw [IsSurrogate]
  omega

omit [TimeZones] in
theorem chars_codePoints (s : String) : chars (codePoints s) = some s.toList := by
  rw [chars, codePoints]
  induction s.toList with
  | nil => rfl
  | cons c cs ih => 
    rw [List.map_cons, List.mapM_cons, ih, if_neg (not_isSurrogate c), Char.ofNat_toNat]
    rfl

omit [TimeZones] in
theorem sanitize_codePoints (s : String) : sanitize (codePoints s) = codePoints s := by
  have hnone :
    [7, 8, 10].find? (fun i => ((codePoints s)[i]?).any fun n => decide (IsSurrogate n)) = none := by
    refine List.find?_eq_none.2 fun i _ h => ?_
    obtain ⟨n, hn, hsurrogate⟩ := (Option.any_eq_true _ _).1 h
    obtain ⟨c, -, rfl⟩ := List.mem_map.1 (List.mem_of_getElem? hn)
    exact not_isSurrogate c (of_decide_eq_true hsurrogate)
  rw [sanitize, hnone]

/-- The value of a sort, as a value of any sort. -/
def CursorValue.ofSort : (sort : ReceiptSort) → SortValue sort → CursorValue
  | .recent, value =>
    .datetime (DateTime.date value) (DateTime.time value) (some (DateTime.utcoffset value))
  | .expiresOn, value => .date value
  | .purchaseDate, value => .date value
  | .title, value => .text (codePoints value)

theorem parseCursorValue_dumpCursorValue (sort : ReceiptSort) (r : ReceiptRecord) :
    parseCursorValue sort (codePoints (dumpCursorValue sort (cursorValue sort r))) =
      some (.ofSort sort (cursorValue sort r)) := by
  have hdate (d : Date) : dateFromisoformat (codePoints (.ofList (DateTime.dumpDate d))) =
      some d := by
    rw [dateFromisoformat, chars_codePoints, Option.bind_some, String.ofList_toList,
      IsoFormat.dateFromisoformat_dumpDate]
  cases sort with
  | recent =>
    have hutc : IsoFormat.readBack .utc = .utc := if_pos (by decide)
    have hread := IsoFormat.fromisoformat_dump r.createdAt.date r.createdAt.time .utc
    rw [parseCursorValue, dumpCursorValue, cursorValue, datetimeFromisoformat, sanitize_codePoints,
      chars_codePoints, Option.bind_some, String.ofList_toList]
    rw [hutc] at hread
    rw [DateTime.isoformat]
    exact congrArg (Option.map _) hread
  | expiresOn => exact congrArg (Option.map _) (hdate r.expiresOn)
  | purchaseDate => exact congrArg (Option.map _) (hdate r.paymentDate)
  | title => rfl

omit [TimeZones] in
/-- What a payload of texts says. -/
theorem textField_payload (sort value id : String) :
    let payload := Loaded.obj ([("sort", sort), ("value", value), ("id", id)].map fun f =>
      (codePoints f.1, .str (codePoints f.2)))
    textField payload "sort" = some (codePoints sort) ∧
      textField payload "value" = some (codePoints value) ∧
      textField payload "id" = some (codePoints id) := by
  have hsort : (codePoints "sort" == codePoints "id") = false ∧
      (codePoints "sort" == codePoints "value") = false := by decide
  have hvalue : (codePoints "value" == codePoints "id") = false := by decide
  simp [textField, field, List.lookup_cons, hsort, hvalue]

/-- Of the cursors that the listing hands out, what is read here is what is read there. -/
theorem decodeCursor_encodeCursor {limit : ℕ} (hlimit : 1 ≤ limit) (sort other : ReceiptSort)
    (r : ReceiptRecord) :
    decodeCursor limit (some (encodeCursor sort r)) other =
      (Receipts.decodeCursor (some (encodeCursor sort r)) other).map
        (·.map fun c => ⟨other, .ofSort other c.value, c.receiptId⟩) := by
  obtain ⟨hsort, hvalue, hid⟩ :=
    textField_payload sort.value (dumpCursorValue sort (cursorValue sort r)) r.id.str
  have hloads := Json.loadsAny_dumpsCompact hlimit ("sort", sort.value)
    [("value", dumpCursorValue sort (cursorValue sort r)), ("id", r.id.str)]
  generalize hpayload : Loaded.obj _ = payload at hloads hsort hvalue hid
  have hsortOf : sortOf payload = some sort := by
    rw [sortOf, hsort]
    cases sort
    all_goals rfl
  have hidOf : idOf payload = some r.id := by
    rw [idOf, hid, Option.bind_some, chars_codePoints, Option.bind_some, String.ofList_toList,
      UUID.parse_str]
  have hdecode : decodeCursor limit (some (encodeCursor sort r)) other =
      match readCursor other payload with
      | some cursor => .ok (some cursor)
      | none => .error invalidCursor := by
    rw [decodeCursor, encodeCursor, payloadText_ofList]
    simp only [decodeText, hloads]
  rw [hdecode, decodeCursor_encodeCursor_of_sort]
  by_cases h : sort = other
  · subst h
    have hparse := Receipts.parseCursorValue_dumpCursorValue sort r
    have hread : readCursor sort payload = some ⟨sort, .ofSort sort (cursorValue sort r), r.id⟩ :=
      readCursor_eq_some.2 ⟨hsortOf, hidOf, rfl, _, hvalue, parseCursorValue_dumpCursorValue sort r⟩
    rw [hread, if_neg (by simp), hparse]
    rfl
  · have hnone : readCursor other payload = none := Option.eq_none_iff_forall_ne_some.2 fun c hc => by
      have hother := (readCursor_eq_some.1 hc).1
      rw [hsortOf] at hother
      exact h (Option.some.inj hother)
    rw [hnone, if_pos h]
    rfl

/-! ## A time without an offset -/

/-- A time without an offset. -/
def naiveText : String :=
  "\x7b\"sort\":\"recent\",\"value\":\"2024-01-01T00:00:00\",\"id\":\"00000000-0000-0000-0000-000000000001\"\x7d"

/-- The cursor of a time without an offset. -/
def naiveCursor : String := .ofList (Text.Base64.unpad (Text.Base64.encode (utf8Encode naiveText)))

omit [TimeZones] in
theorem decodeText_naive : decodeText 10000 naiveText .recent =
    .ok (some ⟨.recent, .datetime ⟨2024, 1, 1, by decide⟩ IsoFormat.midnight none, ⟨1⟩⟩) := by
  decide +kernel

omit [TimeZones] in
theorem length_naiveCursor : 1 ≤ naiveCursor.length ∧ naiveCursor.length ≤ 2048 := by decide +kernel

theorem not_sound_naive : ¬Sound 10000 naiveCursor .recent := by
  have hdecode : decodeCursor 10000 (some naiveCursor) .recent =
      decodeText 10000 naiveText .recent := by
    rw [decodeCursor, naiveCursor, payloadText_ofList]
  rw [sound_iff_of_ok (hdecode.trans decodeText_naive)]
  rintro ⟨-, hform, -⟩
  cases hform

omit [TimeZones] in
/-- A cursor of `recent` with a time without an offset is read as one. -/
theorem naiveCursor_not_sound : ¬∀ (sort : ReceiptSort) (cursor : String),
    1 ≤ cursor.length ∧ cursor.length ≤ 2048 →
    @Sound noTimeZones 10000 cursor sort := by
  intro h
  exact @not_sound_naive noTimeZones (h .recent naiveCursor length_naiveCursor)

omit [TimeZones] in
/-- What is in that cursor does harm. -/
theorem decodeCursor_sound_iff_naive : ¬∀ payload, Carries 10000 naiveCursor payload →
    Names .recent payload →
    ∀ value, textField payload "value" = some value → @Harmless noTimeZones .recent value := by
  intro h
  exact @not_sound_naive noTimeZones
    ((@decodeCursor_sound_iff noTimeZones 10000
      (by decide) .recent naiveCursor length_naiveCursor).2 h)

end Boat.Receipts.Decoding
