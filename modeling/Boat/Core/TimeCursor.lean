import Boat.Core.IsoFormat
import Boat.Core.UuidText
import Boat.Paging.Keyset
import Boat.Text.Split

/-!
# Cursors of times

A listing in the order of times and identities goes on after a cursor, the time and the identity of
its last row, as the text of both. The time is printed in UTC with `Z` (`nextTimeCursor`). Another
cursor than a listing has made is a text like any other (`parseTimeCursor`).

* `parseTimeCursor_next`: the instant and the identity are read back;
* `exists_nextTimeCursor_iff`: there is a cursor as far as the time is one of UTC.
-/

namespace Boat

/-! ## UTC -/

/-- The time of microseconds since midnight. -/
def TimeOfDay.ofMicros (n : ℕ) (h : n < 86400000000) : TimeOfDay where
  hour := n / 3600000000
  minute := n / 60000000 % 60
  second := n / 1000000 % 60
  microsecond := n % 1000000
  valid := by omega

theorem TimeOfDay.micros_ofMicros {n : ℕ} (h : n < 86400000000) : (ofMicros n h).micros = n := by
  simp only [micros, ofMicros]
  omega

/-- The ordinal of the date of UTC at an instant. -/
def utcDay (t : ℤ) : ℤ := t / 86400000000 + 719163

/-- The datetime of UTC at an instant. -/
def DateTime.ofInstant (t : Instant) : Except DomainError DateTime :=
  if 1 ≤ utcDay t ∧ utcDay t ≤ 3652059 then
    (Date.fromordinal (utcDay t)).map fun date =>
      ⟨date, .ofMicros (t % 86400000000).toNat (by omega), false, .timezone .utc⟩
  else .error (.other "OverflowError")

/-- `replace("Z", "+00:00")`. -/
def withoutZ (text : List Char) : List Char := Text.replace ['Z'] IsoFormat.utcText text

/-- `replace("+00:00", "Z")`. -/
def withZ (text : List Char) : List Char := Text.replace IsoFormat.utcText ['Z'] text

/-- The characters of a time. -/
theorem notMem_isoText {c : Char} (hdigits : ∀ d < 10, c ≠ d.digitChar)
    (hc : c ≠ '-' ∧ c ≠ 'T' ∧ c ≠ ':' ∧ c ≠ '.') (date : Date)
    (time : TimeOfDay) : c ∉ DateTime.dumpDate date ++ 'T' :: DateTime.dumpTime time := by
  have hpadded (k n : ℕ) : c ∉ Text.padded 10 k n := by
    intro h
    obtain ⟨d, hd, heq⟩ := IsoFormat.mem_padded h
    exact hdigits d hd heq
  have hfraction : c ∉ DateTime.dumpFraction time.microsecond := by
    rw [DateTime.dumpFraction]
    split
    · exact List.not_mem_nil
    · simp [hpadded, hc]
  simp [DateTime.dumpDate, DateTime.dumpTime, hpadded, hfraction, hc]

section

variable [TimeZones]

/-- `astimezone(UTC)`. -/
def DateTime.astimezoneUtc (d : DateTime) : Except DomainError DateTime :=
  if d.tzinfo = .timezone .utc then .ok d else ofInstant d.instant

/-! ## Cursors -/

/-- The cursor of a listing. -/
structure TimeCursor where
  createdAt : DateTime
  id : UUID
  deriving DecidableEq, Repr

/-- `_parse_cursor`, which raises `invalid`: a cursor has an aware time. -/
def parseTimeCursor (invalid : DomainError) (cursor : Option String) :
    Except DomainError (Option TimeCursor) :=
  match cursor with
  | none => .ok none
  | some cursor =>
    match Text.pieces ['|'] cursor.toList with
    | [createdAt, id] =>
      match IsoFormat.fromisoformat (.ofList (withoutZ createdAt)), UUID.parse (.ofList id) with
      | some (date, time, some offset), some id =>
        .ok (some ⟨⟨date, time, false, .timezone offset⟩, id⟩)
      | _, _ => .error invalid
    | _ => .error invalid

/-- The cursor of a row. -/
def nextTimeCursor (createdAt : DateTime) (id : UUID) : Except DomainError String := do
  let createdAt ← createdAt.astimezoneUtc
  return .ofList (withZ createdAt.isoformat.toList ++ '|' :: id.chars)

/-- `_next_cursor`, of the time and the identity of the last row. -/
def lastTimeCursor (last : Option (DateTime × UUID)) : Except DomainError (Option String) :=
  match last with
  | none => .ok none
  | some (createdAt, id) => (nextTimeCursor createdAt id).map some

/-! ## Round trip -/

/-- The instant is one of UTC. -/
def DateTime.InUtc (d : DateTime) : Prop := 1 ≤ utcDay d.instant ∧ utcDay d.instant ≤ 3652059

theorem DateTime.inUtc_of_utc {d : DateTime} (h : d.tzinfo = .timezone .utc) : d.InUtc := by
  have hone := d.date.one_le_toordinal
  have hle := d.date.toordinal_le
  have hnonneg := d.time.micros_nonneg
  have hlt := d.time.micros_lt
  have hinstant : d.instant = (d.date.toordinal - 719163) * 86400000000 + d.time.micros := by
    rw [instant, utcoffset, h]
    exact sub_zero _
  rw [InUtc, hinstant, utcDay]
  omega

theorem DateTime.ofInstant_spec {t : ℤ} (h : 1 ≤ utcDay t ∧ utcDay t ≤ 3652059) :
    ∃ d, ofInstant t = .ok d ∧ d.tzinfo = .timezone .utc ∧ d.instant = t := by
  obtain ⟨date, hdate, hordinal⟩ := Date.toordinal_fromordinal h.1 h.2
  refine ⟨_, (if_pos h).trans (by rw [hdate]; rfl), rfl, ?_⟩
  have hlt : (t % 86400000000).toNat < 86400000000 := by omega
  change (date.toordinal - 719163) * 86400000000 +
    (TimeOfDay.ofMicros (t % 86400000000).toNat hlt).micros - 0 = t
  rw [TimeOfDay.micros_ofMicros, hordinal, utcDay]
  omega

theorem DateTime.astimezoneUtc_ok {d u : DateTime} (h : d.astimezoneUtc = .ok u) :
    u.tzinfo = .timezone .utc ∧ u.instant = d.instant := by
  rw [astimezoneUtc] at h
  split at h
  · next hutc =>
    cases h
    exact ⟨hutc, rfl⟩
  · by_cases hin : 1 ≤ utcDay d.instant ∧ utcDay d.instant ≤ 3652059
    · obtain ⟨u', hu', hspec⟩ := ofInstant_spec hin
      obtain rfl := Except.ok.inj (h.symm.trans hu')
      exact hspec
    · rw [ofInstant, if_neg hin] at h
      cases h

/-- There is a cursor as far as the time is one of UTC. -/
theorem exists_nextTimeCursor_iff {createdAt : DateTime} {id : UUID} :
    (∃ text, nextTimeCursor createdAt id = .ok text) ↔ createdAt.InUtc := by
  constructor
  · rintro ⟨text, h⟩
    obtain ⟨u, hu, -⟩ := except_bind_eq_ok.1 h
    obtain ⟨hutc, hinstant⟩ := DateTime.astimezoneUtc_ok hu
    have hin := DateTime.inUtc_of_utc hutc
    rwa [DateTime.InUtc, hinstant] at hin
  · intro hin
    rw [nextTimeCursor, DateTime.astimezoneUtc]
    split
    · exact ⟨_, rfl⟩
    · obtain ⟨u, hu, -⟩ := DateTime.ofInstant_spec hin
      rw [hu]
      exact ⟨_, rfl⟩

/-- The text of a time of UTC. -/
theorem toList_isoformat {u : DateTime} (h : u.tzinfo = .timezone .utc) : u.isoformat.toList =
    (DateTime.dumpDate u.date ++ 'T' :: DateTime.dumpTime u.time) ++ IsoFormat.utcText := by
  have hoffset : DateTime.dumpOffset u.utcoffset = IsoFormat.utcText := by
    rw [DateTime.utcoffset, h]
    exact IsoFormat.dumpOffset_utc
  rw [DateTime.isoformat, hoffset, String.toList_ofList]
  simp

/-- The instant and the identity are read back. -/
theorem parseTimeCursor_next {invalid : DomainError} {createdAt : DateTime} {id : UUID}
    {text : String} (h : nextTimeCursor createdAt id = .ok text) :
    ∃ cursor, parseTimeCursor invalid (some text) = .ok (some cursor) ∧
    cursor.createdAt.instant = createdAt.instant ∧
      cursor.id = id := by
  obtain ⟨u, hu, htext⟩ := except_bind_eq_ok.1 h
  obtain ⟨hutc, hinstant⟩ := DateTime.astimezoneUtc_ok hu
  have hiso := toList_isoformat hutc
  have hplus : '+' ∉ DateTime.dumpDate u.date ++ 'T' :: DateTime.dumpTime u.time :=
    notMem_isoText (by decide) (by decide) _ _
  have hz : 'Z' ∉ DateTime.dumpDate u.date ++ 'T' :: DateTime.dumpTime u.time :=
    notMem_isoText (by decide) (by decide) _ _
  have hbar : '|' ∉ DateTime.dumpDate u.date ++ 'T' :: DateTime.dumpTime u.time :=
    notMem_isoText (by decide) (by decide) _ _
  generalize hlocal : DateTime.dumpDate u.date ++ 'T' :: DateTime.dumpTime u.time = local' at *
  have hwith : withZ u.isoformat.toList = local' ++ ['Z'] := by
    rw [hiso]
    exact Text.replace_end hplus _
  have hwithout : withoutZ (local' ++ ['Z']) = local' ++ IsoFormat.utcText := Text.replace_end hz _
  have hpieces : Text.pieces ['|'] (local' ++ ['Z'] ++ '|' :: id.chars) =
      [local' ++ ['Z'], id.chars] :=
    Text.pieces_two (by simp [hbar]) (UUID.notMem_chars (by decide) (by decide))
  have hread : IsoFormat.fromisoformat (.ofList (local' ++ IsoFormat.utcText)) =
      some (u.date, u.time, some .utc) := by
    have hread := IsoFormat.fromisoformat_dump u.date u.time .utc
    rw [← hlocal, List.append_assoc, List.cons_append, ← IsoFormat.dumpOffset_utc]
    exact hread
  have hid : UUID.parse (.ofList id.chars) = some id := UUID.parse_str id
  refine ⟨⟨⟨u.date, u.time, false, .timezone .utc⟩, id⟩, ?_, ?_, rfl⟩
  · rw [← Except.ok.inj htext]
    simp only [parseTimeCursor, String.toList_ofList, hwith, hpieces, hwithout, hread, hid]
  · rw [← hinstant, DateTime.instant, DateTime.instant, DateTime.utcoffset, DateTime.utcoffset, hutc]

omit [TimeZones] in
/-- A cursor is read, with an aware time, or invalid. -/
theorem parseTimeCursor_cases (invalid : DomainError) (text : String) :
    (∃ cursor offset, parseTimeCursor invalid (some text) = .ok (some cursor) ∧
      cursor.createdAt.tzinfo = .timezone offset) ∨
    parseTimeCursor invalid (some text) = .error invalid := by
  simp only [parseTimeCursor]
  split
  · split
    · exact .inl ⟨_, _, rfl, rfl⟩
    · exact .inr rfl
  · exact .inr rfl

/-! ## Rows -/

/-- The cursor of a row that is stored. -/
def rowCursor (createdAt : Timestamp) (id : UUID) : String :=
  .ofList (withZ createdAt.toDateTime.isoformat.toList ++ '|' :: id.chars)

theorem nextTimeCursor_toDateTime (createdAt : Timestamp) (id : UUID) :
    nextTimeCursor createdAt.toDateTime id = .ok (rowCursor createdAt id) := by
  have hutc : createdAt.toDateTime.astimezoneUtc = .ok createdAt.toDateTime := if_pos rfl
  rw [nextTimeCursor, hutc]
  rfl

/-- The cursor of a row is read as its instant and its identity. -/
theorem parseTimeCursor_rowCursor (invalid : DomainError) (createdAt : Timestamp) (id : UUID) :
    ∃ cursor, parseTimeCursor invalid (some (rowCursor createdAt id)) = .ok (some cursor) ∧
      cursor.createdAt.instant = createdAt.micros ∧ cursor.id = id := by
  obtain ⟨cursor, hparse, hinstant, hid⟩ :=
    parseTimeCursor_next (nextTimeCursor_toDateTime createdAt id)
  exact ⟨cursor, hparse, hinstant.trans (Timestamp.instant_toDateTime _), hid⟩

/-- A listing that has more rows goes on after its last one. -/
theorem lastTimeCursor_getLast {ρ : Type} (createdAt : ρ → Timestamp) (id : ρ → UUID) (limit : ℕ)
    (found : List ρ) :
    (if (Paging.cut (fun r => rowCursor (createdAt r) (id r)) limit found).hasNext = true then
      lastTimeCursor ((found.take limit).getLast?.map fun r => ((createdAt r).toDateTime, id r))
      else .ok none) =
    .ok (Paging.cut (fun r => rowCursor (createdAt r) (id r)) limit found).next := by
  simp only [Paging.cut, decide_eq_true_eq]
  split
  · rcases (found.take limit).getLast? with - | r
    · rfl
    · rw [Option.map_some, lastTimeCursor, nextTimeCursor_toDateTime]
      rfl
  · rfl

section

variable {ρ : Type} (createdAt : ρ → Timestamp) (id : ρ → UUID)

/-- `created_at ASC, id ASC`. -/
def comesFirst (a b : ρ) : Prop := (createdAt a).micros < (createdAt b).micros ∨
  (createdAt a).micros = (createdAt b).micros ∧ (id a).val.toNat ≤ (id b).val.toNat

instance : DecidableRel (comesFirst createdAt id) := fun _ _ => inferInstanceAs (Decidable (_ ∨ _))

/-- The rows after a cursor: `created_at > .. OR created_at = .. AND id > ..`. -/
def isAfter (cursor : TimeCursor) (r : ρ) : Bool := cursor.createdAt.instant < (createdAt r).micros ∨
  (createdAt r).micros = cursor.createdAt.instant ∧ cursor.id.val.toNat < (id r).val.toNat

/-- `created_at DESC, id DESC`. -/
def comesLast (a b : ρ) : Prop := (createdAt b).micros < (createdAt a).micros ∨
  (createdAt a).micros = (createdAt b).micros ∧ (id b).val.toNat ≤ (id a).val.toNat

instance : DecidableRel (comesLast createdAt id) := fun _ _ => inferInstanceAs (Decidable (_ ∨ _))

/-- The rows before a cursor: `created_at < .. OR created_at = .. AND id < ..`. -/
def isBefore (cursor : TimeCursor) (r : ρ) : Bool := (createdAt r).micros < cursor.createdAt.instant ∨
  (createdAt r).micros = cursor.createdAt.instant ∧ (id r).val.toNat < cursor.id.val.toNat

/-- A condition on the cursor of a text. -/
def ofText (invalid : DomainError) (condition : TimeCursor → ρ → Bool) (text : String)
    (r : ρ) : Bool :=
  match parseTimeCursor invalid (some text) with
  | .ok (some cursor) => condition cursor r
  | _ => false

variable {createdAt id} {invalid : DomainError} {rows : List ρ}

/-- The condition of the cursors of rows. -/
theorem parseTimeCursor_ofText (invalid : DomainError) (condition : TimeCursor → ρ → Bool)
    {cursor : Option String} (hcursor : ∀ c ∈ cursor, ∃ t u, rowCursor t u = c) : ∃ parsed,
    parseTimeCursor invalid cursor = .ok parsed ∧
      ∀ r, parsed.all (condition · r) = cursor.all (ofText invalid condition · r) := by
  rcases cursor with - | c
  · exact ⟨none, rfl, fun _ => rfl⟩
  · obtain ⟨t, u, rfl⟩ := hcursor c rfl
    obtain ⟨parsed, hparse, -⟩ := parseTimeCursor_rowCursor invalid t u
    refine ⟨some parsed, hparse, fun r => ?_⟩
    simp only [Option.all_some, ofText, hparse]

omit [TimeZones] in
theorem id_inj (hid : (rows.map id).Nodup) {a b : ρ} (ha : a ∈ rows) (hb : b ∈ rows)
    (h : (id a).val.toNat = (id b).val.toNat) : a = b :=
  List.inj_on_of_nodup_map hid ha hb (congrArg UUID.mk (BitVec.eq_of_toNat_eq h))

theorem orders_comesFirst (invalid : DomainError) (createdAt : ρ → Timestamp)
    (hid : (rows.map id).Nodup) : Paging.Orders (comesFirst createdAt id)
    (ofText invalid (isAfter createdAt id)) (fun r => rowCursor (createdAt r) (id r)) rows := by
  refine Paging.orders_lex (k := fun r => (createdAt r).micros) (i := fun r => (id r).val.toNat)
    (fun a ha b hb h => id_inj hid ha hb h) (fun a b => .rfl) fun a b => ?_
  obtain ⟨cursor, hparse, hinstant, hcursor⟩ := parseTimeCursor_rowCursor invalid (createdAt a) (id a)
  simp only [ofText, hparse, isAfter, hinstant, hcursor, decide_eq_true_eq]

theorem orders_comesLast (invalid : DomainError) (createdAt : ρ → Timestamp)
    (hid : (rows.map id).Nodup) : Paging.Orders (comesLast createdAt id)
    (ofText invalid (isBefore createdAt id)) (fun r => rowCursor (createdAt r) (id r)) rows := by
  refine Paging.orders_lex (k := fun r => OrderDual.toDual (createdAt r).micros)
    (i := fun r => OrderDual.toDual (id r).val.toNat) (fun a ha b hb h => id_inj hid ha hb h)
      (fun a b => .rfl) fun a b => ?_
  obtain ⟨cursor, hparse, hinstant, hcursor⟩ := parseTimeCursor_rowCursor invalid (createdAt a) (id a)
  simp only [ofText, hparse, isBefore, hinstant, hcursor, decide_eq_true_eq]
  rfl

end

end

end Boat
