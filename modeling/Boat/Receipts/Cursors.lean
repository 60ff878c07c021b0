import Boat.Receipts.ListingSpec
import Boat.Receipts.Patch

/-!
# Receipts: cursors that are handed out

The cursor of a receipt is read back as the place of the receipt, under the sort it was made for and
no other one. The parameter of the listing accepts at most 2048 characters, which a title that
mostly has control characters exceeds: its escaped text is up to six times as long
(`cursor_accepted_iff`).
-/

namespace Boat.Receipts

/-! ## Sizes -/

/-- The bytes of a character of a text in JSON. -/
def escapedSize (c : Char) : ℕ :=
  if c ∈ ['"', '\\', '\n', '\r', '\t', '\x08', '\x0c'] then 2 else if ' ' ≤ c then c.utf8Size else 6

/-- The bytes of a text in JSON, without its quotes. -/
def escapedLength (s : String) : ℕ := (s.toList.map escapedSize).sum

theorem utf8Size_digitChar : ∀ d < 16, d.digitChar.utf8Size = 1 := by decide

theorem utf8Sizes_padded {b : ℕ} (hb : 0 < b ∧ b ≤ 16)
    (k n : ℕ) : ((Text.padded b k n).map Char.utf8Size).sum = k := by
  induction k generalizing n with
  | zero => rfl
  | succ k ih =>
    have hdigit := utf8Size_digitChar (n % b) ((Nat.mod_lt _ hb.1).trans_le hb.2)
    simp [Text.padded, ih, hdigit]

theorem utf8Sizes_escapeRaw (c : Char) :
    ((Json.escapeRaw c).map Char.utf8Size).sum = escapedSize c := by
  have hunit : ((Json.escapeUnit c.toNat).map Char.utf8Size).sum = 6 := by
    have hpadded := utf8Sizes_padded (b := 16) (by decide) 4 c.toNat
    rw [Json.escapeUnit, List.map_cons, List.map_cons, List.sum_cons, List.sum_cons, hpadded]
    rfl
  by_cases hshort : c ∈ ['"', '\\', '\n', '\r', '\t', '\x08', '\x0c']
  · -- Each of these characters is a backslash and another character.
    rw [escapedSize, if_pos hshort]
    have hsize : (['"', '\\', '\n', '\r', '\t', '\x08', '\x0c'].all fun c =>
        ((Json.escapeRaw c).map Char.utf8Size).sum = 2) = true := by
      decide
    exact of_decide_eq_true (List.all_eq_true.1 hsize c hshort)
  · have hescape : Json.escapeRaw c = if ' ' ≤ c then [c] else Json.escapeUnit c.toNat := by
      simp only [List.mem_cons, List.not_mem_nil, or_false, not_or] at hshort
      obtain ⟨h₁, h₂, h₃, h₄, h₅, h₆, h₇⟩ := hshort
      rw [Json.escapeRaw, if_neg h₁, if_neg h₂, if_neg h₃, if_neg h₄, if_neg h₅, if_neg h₆, if_neg h₇]
    rw [hescape, escapedSize, if_neg hshort]
    split
    · simp
    · exact hunit

/-- The bytes of a text are those of its characters. -/
theorem length_utf8Encode (cs : List Char) :
    (utf8Encode (.ofList cs)).length = (cs.map Char.utf8Size).sum := by
  have hsize (cs : List Char) : (utf8Encode (.ofList cs)).length =
      (String.ofList cs).utf8ByteSize := rfl
  induction cs with
  | nil => rfl
  | cons c cs ih =>
    have hcons : String.ofList (c :: cs) = String.ofList [c] ++ String.ofList cs := by
      rw [← String.ofList_append, List.singleton_append]
    rw [hsize, hcons, String.utf8ByteSize_append, ← hsize cs, ih, List.map_cons, List.sum_cons]
    congr 1
    simp

/-- The bytes of a text in JSON, with its quotes. -/
theorem utf8Sizes_dumpRaw (s : String) :
    ((Json.dumpRaw s).map Char.utf8Size).sum = escapedLength s + 2 := by
  have hchars (cs : List Char) : ((cs.flatMap Json.escapeRaw).map Char.utf8Size).sum =
      (cs.map escapedSize).sum := by
    induction cs with
    | nil => rfl
    | cons c cs ih => rw [List.flatMap_cons, List.map_append, List.sum_append, utf8Sizes_escapeRaw,
      ih, List.map_cons,
        List.sum_cons]
  rw [Json.dumpRaw, List.map_cons, List.sum_cons, List.map_append, List.sum_append, hchars,
    escapedLength]
  simp [show '"'.utf8Size = 1 from rfl]
  omega

/-- The characters that stand for themselves, and are one byte. -/
def Plain (c : Char) : Prop := ' ' ≤ c ∧ c ≤ '~' ∧ c ≠ '"' ∧ c ≠ '\\'

instance (c : Char) : Decidable (Plain c) := inferInstanceAs (Decidable (_ ∧ _ ∧ _ ∧ _))

theorem escapedLength_of_plain {s : String} (h : ∀ c ∈ s.toList, Plain c) :
    escapedLength s = s.length := by
  have hsize : ∀ c ∈ s.toList, escapedSize c = 1 := by
    intro c hc
    obtain ⟨hle, hge, hquote, hslash⟩ := h c hc
    have hshort : c ∉ ['"', '\\', '\n', '\r', '\t', '\x08', '\x0c'] := by
      simp only [List.mem_cons, List.not_mem_nil, or_false, not_or]
      refine ⟨hquote, hslash, ?_, ?_, ?_, ?_, ?_⟩
      all_goals
        rintro rfl
        revert hle
        decide
    have hone : c.utf8Size = 1 := by
      rw [Char.le_def, UInt32.le_iff_toNat_le] at hge
      rw [Char.utf8Size, if_pos]
      exact UInt32.le_iff_toNat_le.2 (hge.trans (by decide))
    rw [escapedSize, if_neg hshort, if_pos hle, hone]
  rw [escapedLength, List.map_congr_left hsize, List.map_const', List.sum_replicate,
    ← String.length_toList]
  simp

theorem plain_digitChar : ∀ d < 16, Plain d.digitChar := by decide

theorem plain_padded {b : ℕ} (hb : 0 < b ∧ b ≤ 16) (k n : ℕ) : ∀ c ∈ Text.padded b k n, Plain c := by
  induction k generalizing n with
  | zero => exact nofun
  | succ k ih =>
    intro c hc
    rw [Text.padded, List.mem_append, List.mem_singleton] at hc
    rcases hc with hc | rfl
    · exact ih _ c hc
    · exact plain_digitChar _ ((Nat.mod_lt _ hb.1).trans_le hb.2)

theorem escapedLength_str (id : UUID) : escapedLength id.str = 36 := by
  have hplain : ∀ c ∈ id.str.toList, Plain c := by
    intro c hc
    rw [UUID.toList_str] at hc
    rcases UUID.of_mem_chars hc with rfl | ⟨d, hd, rfl⟩
    · decide
    · exact (by decide : ∀ d < 16, Plain (hexDigit d)) d hd
  rw [escapedLength_of_plain hplain, ← String.length_toList, UUID.toList_str, UUID.length_chars]

/-- The bytes of an object. -/
theorem length_dumpsCompact (f : String × String) (fs : List (String × String)) :
    (utf8Encode (Json.dumpsCompact (f :: fs))).length =
      ((f :: fs).map fun f => escapedLength f.1 + escapedLength f.2 + 6).sum + 1 := by
  have hfield (f : String × String) : ((Json.dumpRawField f).map Char.utf8Size).sum =
      escapedLength f.1 + escapedLength f.2 + 5 := by
    rw [Json.dumpRawField, List.map_append, List.sum_append, List.map_cons, List.sum_cons,
      utf8Sizes_dumpRaw, utf8Sizes_dumpRaw, show ':'.utf8Size = 1 from rfl]
    omega
  have hfields (fs : List (String × String)) : ((Json.dumpRawFields fs).map Char.utf8Size).sum =
      (fs.map fun f => escapedLength f.1 + escapedLength f.2 + 6).sum + 1 := by
    induction fs with
    | nil => rfl
    | cons f fs ih =>
      rw [Json.dumpRawFields, List.map_cons, List.sum_cons, List.map_append, List.sum_append,
        hfield, ih, List.map_cons, List.sum_cons, show ','.utf8Size = 1 from rfl]
      omega
  rw [Json.dumpsCompact, length_utf8Encode, List.map_cons, List.sum_cons, List.map_append,
    List.sum_append, hfield, hfields, List.map_cons, List.sum_cons, show '{'.utf8Size = 1 from rfl]
  omega

/-! ## Dates and times -/

theorem plain_dumpFraction (microsecond : ℕ) :
    (∀ c ∈ DateTime.dumpFraction microsecond, Plain c) ∧
    (DateTime.dumpFraction microsecond).length ≤ 7 := by
  rw [DateTime.dumpFraction]
  split
  · exact ⟨List.forall_mem_nil _, by decide⟩
  · exact ⟨List.forall_mem_cons.2 ⟨by decide,
      plain_padded (by decide) _ _⟩, by simp [Text.length_padded]⟩

theorem plain_dumpDate (d : Date) : (∀ c ∈ DateTime.dumpDate d, Plain c) ∧
    (DateTime.dumpDate d).length = 10 := by
  have hpadded (k n : ℕ) := plain_padded (b := 10) (by decide) k n
  refine ⟨?_, by simp [DateTime.dumpDate, Text.length_padded]⟩
  simp only [DateTime.dumpDate, List.forall_mem_append, List.forall_mem_cons]
  exact ⟨hpadded _ _, by decide, hpadded _ _, by decide, hpadded _ _⟩

theorem plain_dumpTime (t : TimeOfDay) : (∀ c ∈ DateTime.dumpTime t, Plain c) ∧
    (DateTime.dumpTime t).length ≤ 15 := by
  have hpadded (k n : ℕ) := plain_padded (b := 10) (by decide) k n
  obtain ⟨hfraction, hlength⟩ := plain_dumpFraction t.microsecond
  constructor
  · simp only [DateTime.dumpTime, List.forall_mem_append, List.forall_mem_cons]
    exact ⟨hpadded _ _, by decide, hpadded _ _, by decide, hpadded _ _, hfraction⟩
  · simp only [DateTime.dumpTime, List.length_append, List.length_cons, Text.length_padded]
    omega

theorem plain_dumpOffset (offset : UtcOffset) :
    (∀ c ∈ DateTime.dumpOffset offset, Plain c) ∧ (DateTime.dumpOffset offset).length ≤ 16 := by
  have hpadded (k n : ℕ) := plain_padded (b := 10) (by decide) k n
  obtain ⟨hfraction, hlength⟩ := plain_dumpFraction (offset.micros.natAbs % 1000000)
  have hsign : Plain (if offset.micros < 0 then '-' else '+') := by
    split
    · decide
    · decide
  by_cases hzero : offset.micros.natAbs % 60000000 = 0
  · simp only [DateTime.dumpOffset, if_pos hzero]
    constructor
    · simp only [List.forall_mem_append, List.forall_mem_cons]
      exact ⟨hsign, hpadded _ _, by decide, hpadded _ _, List.forall_mem_nil _⟩
    · simp only [List.length_append, List.length_cons, Text.length_padded, List.length_nil]
      omega
  · simp only [DateTime.dumpOffset, if_neg hzero]
    constructor
    · simp only [List.forall_mem_append, List.forall_mem_cons]
      exact ⟨hsign, hpadded _ _, by decide, hpadded _ _, by decide, hpadded _ _, hfraction⟩
    · simp only [List.length_append, List.length_cons, Text.length_padded]
      omega

section

variable [TimeZones]

/-- The length of a cursor, by those of the texts in it. -/
theorem length_encodeCursor (sort : ReceiptSort) (r : ReceiptRecord) : (encodeCursor sort r).length =
    (4 * (escapedLength sort.value + escapedLength (dumpCursorValue sort (cursorValue sort r)) +
      66) + 2) / 3 := by
  have hkeys : escapedLength "sort" = 4 ∧ escapedLength "value" = 5 ∧
      escapedLength "id" = 2 := by decide
  have hbytes : ∀ n m, n = m → (4 * n + 2) / 3 = (4 * m + 2) / 3 := fun n m h => by rw [h]
  rw [encodeCursor, String.length_ofList, Text.Base64.length_unpad_encode]
  refine hbytes _ _ ((length_dumpsCompact _ _).trans ?_)
  simp only [List.map_cons, List.map_nil, List.sum_cons, List.sum_nil, hkeys, escapedLength_str]
  omega

/-- The text of an instant or a date is short. -/
theorem escapedLength_dumpCursorValue {sort : ReceiptSort} (hsort : sort ≠ .title)
    (value : SortValue sort) :
    escapedLength (dumpCursorValue sort value) ≤ 42 := by
  have hdate (d : Date) : escapedLength (.ofList (DateTime.dumpDate d)) ≤ 42 := by
    rw [escapedLength_of_plain (by simpa using (plain_dumpDate d).1), String.length_ofList,
      (plain_dumpDate d).2]
    decide
  cases sort with
  | recent =>
    rw [dumpCursorValue, DateTime.isoformat]
    obtain ⟨hdate, hdate'⟩ := plain_dumpDate (DateTime.date value)
    obtain ⟨htime, htime'⟩ := plain_dumpTime (DateTime.time value)
    obtain ⟨hoffset, hoffset'⟩ := plain_dumpOffset (DateTime.utcoffset value)
    rw [escapedLength_of_plain]
    · simp only [String.length_ofList, List.length_append, List.length_cons]
      omega
    · simp only [String.toList_ofList, List.forall_mem_append, List.forall_mem_cons]
      exact ⟨hdate, by decide, htime, hoffset⟩
  | expiresOn => exact hdate value
  | purchaseDate => exact hdate value
  | title => exact absurd rfl hsort

/-! ## What is accepted -/

/-- The values are the same: aware datetimes of one instant, or the same date or text. -/
def SameValue : (sort : ReceiptSort) → SortValue sort → SortValue sort → Prop
  | .recent, value, value' => DateTime.instant value = DateTime.instant value'
  | .expiresOn, value, value' => value = value'
  | .purchaseDate, value, value' => value = value'
  | .title, value, value' => value = value'

/-- The error of a cursor. -/
def invalidCursor : DomainError := .validation [⟨"cursor", "유효하지 않은 커서입니다."⟩]

/-- The cursor of a receipt is accepted by the listing, and read as what it was made of. -/
structure Accepted (sort : ReceiptSort) (r : ReceiptRecord) : Prop where
  length : 1 ≤ (encodeCursor sort r).length ∧ (encodeCursor sort r).length ≤ 2048
  decoded : ∃ value, decodeCursor (some (encodeCursor sort r)) sort = .ok (some ⟨value, r.id⟩) ∧
    SameValue sort value (cursorValue sort r)
  rejected : ∀ other, other ≠ sort →
    decodeCursor (some (encodeCursor sort r)) other = .error invalidCursor

theorem SameValue.refl (sort : ReceiptSort) (value : SortValue sort) :
    SameValue sort value value := by
  cases sort with
  | recent => rfl
  | expiresOn => rfl
  | purchaseDate => rfl
  | title => rfl

/-- Read under a sort, a cursor is the place of the receipt under its own, and nothing under
    another. -/
theorem decodeCursor_encodeCursor_of_sort (sort other : ReceiptSort) (r : ReceiptRecord) :
    decodeCursor (some (encodeCursor sort r)) other = if sort ≠ other then .error invalidCursor else
      match parseCursorValue other (dumpCursorValue sort (cursorValue sort r)) with
      | some value => .ok (some ⟨value, r.id⟩)
      | none => .error invalidCursor := by
  obtain ⟨hsort, htext, hid⟩ :=
    textField_payload sort.value (dumpCursorValue sort (cursorValue sort r)) r.id.str
  rw [decodeCursor, encodeCursor, readCursor, String.toList_ofList, Text.Base64.decode_repad]
  simp only [Option.bind_eq_bind, Option.bind_some, utf8Decode_utf8Encode, Json.loads_dumpsCompact,
    hsort, htext, hid, ReceiptSort.ofValue_value, UUID.parse_str]
  by_cases hother : sort = other
  · simp only [hother, ne_eq, not_true_eq_false, if_false]
    cases parseCursorValue other (dumpCursorValue sort (cursorValue sort r)) with
    | none => rfl
    | some value => rfl
  · simp only [ne_eq, hother, not_false_eq_true, if_true]
    rfl

/-- A cursor fits the parameter of the listing unless it is that of a title that is too long once it
    is escaped. -/
theorem length_encodeCursor_le_iff (sort : ReceiptSort) (r : ReceiptRecord) :
    (encodeCursor sort r).length ≤ 2048 ↔ (sort = .title → escapedLength r.itemName ≤ 1465) := by
  have hlength := length_encodeCursor sort r
  by_cases hsort : sort = .title
  · subst hsort
    have htitle : escapedLength ReceiptSort.title.value = 5 := by decide
    simp only [htitle, dumpCursorValue, cursorValue] at hlength
    simp only [forall_const]
    omega
  · have hname : escapedLength sort.value ≤ 12 := by
      cases sort with
      | recent => decide
      | expiresOn => decide
      | purchaseDate => decide
      | title => exact absurd rfl hsort
    have hvalue := escapedLength_dumpCursorValue hsort (cursorValue sort r)
    simp only [hsort, false_implies, iff_true]
    omega

/-- A cursor is accepted if and only if it fits the parameter. -/
theorem cursor_accepted_iff (sort : ReceiptSort) (r : ReceiptRecord) :
    Accepted sort r ↔ (sort = .title → escapedLength r.itemName ≤ 1465) := by
  rw [← length_encodeCursor_le_iff]
  refine ⟨fun h => h.length.2, fun h => ⟨⟨?_, h⟩, ?_, ?_⟩⟩
  · have hlength := length_encodeCursor sort r
    omega
  · exact ⟨_, decodeCursor_encodeCursor sort r, .refl sort _⟩
  · intro other hother
    rw [decodeCursor_encodeCursor_of_sort, if_pos hother.symm]

end

/-- A receipt of which the name is 255 control characters. -/
def controlReceipt : ReceiptRecord := { lastReceipt with itemName := .ofList (.replicate 255 '\x01') }

/-- The name is one that a receipt may have, and the cursor after it is refused. -/
theorem cursor_of_title_refused : StoredText 255 controlReceipt.itemName ∧
    ¬@Accepted noTimeZones .title controlReceipt := by
  let _ := noTimeZones
  refine ⟨by decide +kernel, fun h => ?_⟩
  exact absurd ((length_encodeCursor_le_iff .title controlReceipt).1 h.length.2 rfl)
    (by decide +kernel)

end Boat.Receipts
