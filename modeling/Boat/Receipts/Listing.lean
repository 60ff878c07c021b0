import Boat.Core.IsoFormat
import Boat.Core.UuidText
import Boat.Json.Compact
import Boat.Paging.Keyset
import Boat.Receipts.UseCases
import Boat.Text.Base64
import Boat.Text.Like

/-!
# Receipts: listing

The pages of a user's receipts (`app/modules/receipts/infrastructure/persistence/listing.py`), in one
of four orders, each with the identity of the receipt as its last key. The cursor of a page is a text
that says where it ends.

* `decodeCursor_encodeCursor`: a cursor is read as the place of the receipt it was made of.
-/

namespace Boat.Receipts

/-! ## Texts of the database -/

/-- A text, in the order of the collation of the database. -/
structure Collated where
  text : String
  deriving DecidableEq, Repr

/-- `lower`, by which `ILIKE` compares. -/
class CaseFolding where
  lower : Char → Char

/-- `value ILIKE pattern ESCAPE '\'`. -/
def ilike [CaseFolding] (value : String) (pattern : List Char) : Bool :=
  Text.like (fun c d => CaseFolding.lower c = CaseFolding.lower d) pattern value.toList

/-! ## Warranties -/

/-- `warranty_d_day`. -/
def warrantyDDay (expiresOn today : Date) : ℤ := expiresOn.toordinal - today.toordinal

/-- `warranty_status`. -/
def warrantyStatus (expiresOn today : Date) : ReceiptStatusFilter :=
  let dDay := warrantyDDay expiresOn today
  if dDay < 0 then .expired else if dDay ≤ 30 then .expiring else .active

/-! ## Queries -/

/-- `ListReceiptsQuery`. -/
structure ListReceiptsQuery where
  userId : UUID
  status : ReceiptStatusFilter := .all
  sort : ReceiptSort := .recent
  limit : ℕ := 20
  cursor : Option String := none
  category : Option ReceiptCategory := none
  q : Option String := none
  one_le_limit : 1 ≤ limit := by decide

/-- `date.max.toordinal()`. -/
def maxOrdinal : ℤ := 3652059

/-- `today + timedelta(days=days)`, by its ordinal. -/
def plusDays (today : Date) (days : ℤ) : Except DomainError ℤ :=
  let ordinal := today.toordinal + days
  if 0 < ordinal ∧ ordinal ≤ maxOrdinal then .ok ordinal else .error (.other "OverflowError")

/-- The condition of a status. -/
def statusCondition (status : ReceiptStatusFilter)
    (today : Date) : Except DomainError (ReceiptRecord → Bool) :=
  match status with
  | .all => return fun _ => true
  | .active => do
    let limit ← plusDays today 30
    return fun r => limit < r.expiresOn.toordinal
  | .expiring => do
    let limit ← plusDays today 30
    return fun r => today.toordinal ≤ r.expiresOn.toordinal && r.expiresOn.toordinal ≤ limit
  | .expired => return fun r => r.expiresOn.toordinal < today.toordinal

/-- `list_conditions`. -/
def listConditions [CaseFolding] (query : ListReceiptsQuery)
    (today : Date) : Except DomainError (ReceiptRecord → Bool) := do
  let status ← statusCondition query.status today
  return fun r => r.userId =
    query.userId && status r && query.category.all (r.category = some ·) && query.q.all fun q =>
    [some r.itemName, r.brandName, r.paymentLocation, r.memo].any
      (·.any (ilike · (Text.containsPattern q.toList)))

/-- The keyword goes to the database, which takes no text with U+0000 (`DBAPIError`). -/
def sendKeyword (query : ListReceiptsQuery) : Except DomainError Unit :=
  if query.q.all sendable then .ok () else .error (.other "DBAPIError")

/-! ## Cursors -/

/-- The values that a sort compares. -/
@[reducible] def SortValue : ReceiptSort → Type
  | .recent => DateTime
  | .expiresOn => Date
  | .purchaseDate => Date
  | .title => String

/-- `ReceiptCursor`. -/
structure ReceiptCursor (sort : ReceiptSort) where
  value : SortValue sort
  receiptId : UUID

section

variable [LinearOrder Collated] [TimeZones]

/-- `cursor_condition`, of a cursor. -/
def cursorCondition : (sort : ReceiptSort) → ReceiptCursor sort → ReceiptRecord → Bool
  | .recent, ⟨value, receiptId⟩, r =>
    r.createdAt.micros < DateTime.instant value ||
      r.createdAt.micros = DateTime.instant value && r.id.val.toNat < receiptId.val.toNat
  | .expiresOn, ⟨value, receiptId⟩, r =>
    Date.toordinal value < r.expiresOn.toordinal ||
      r.expiresOn.toordinal = Date.toordinal value && receiptId.val.toNat < r.id.val.toNat
  | .purchaseDate, ⟨value, receiptId⟩, r =>
    r.paymentDate.toordinal < Date.toordinal value ||
      r.paymentDate.toordinal = Date.toordinal value && r.id.val.toNat < receiptId.val.toNat
  | .title, ⟨value, receiptId⟩, r =>
    Collated.mk value < ⟨r.itemName⟩ || r.itemName = value && receiptId.val.toNat < r.id.val.toNat

/-- `list_order_by`: a receipt comes before another, or is the same. -/
def listOrderBy : ReceiptSort → ReceiptRecord → ReceiptRecord → Prop
  | .recent, a, b => b.createdAt.micros < a.createdAt.micros ∨
      a.createdAt.micros = b.createdAt.micros ∧ b.id.val.toNat ≤ a.id.val.toNat
  | .expiresOn, a, b => a.expiresOn.toordinal < b.expiresOn.toordinal ∨
      a.expiresOn.toordinal = b.expiresOn.toordinal ∧ a.id.val.toNat ≤ b.id.val.toNat
  | .purchaseDate, a, b => b.paymentDate.toordinal < a.paymentDate.toordinal ∨
      a.paymentDate.toordinal = b.paymentDate.toordinal ∧ b.id.val.toNat ≤ a.id.val.toNat
  | .title, a, b => Collated.mk a.itemName < ⟨b.itemName⟩ ∨ a.itemName = b.itemName ∧
    a.id.val.toNat ≤ b.id.val.toNat

instance : (sort : ReceiptSort) → DecidableRel (listOrderBy sort)
  | .recent => fun _ _ => inferInstanceAs (Decidable (_ ∨ _))
  | .expiresOn => fun _ _ => inferInstanceAs (Decidable (_ ∨ _))
  | .purchaseDate => fun _ _ => inferInstanceAs (Decidable (_ ∨ _))
  | .title => fun _ _ => inferInstanceAs (Decidable (_ ∨ _))

end

section

variable [TimeZones]

/-- `_cursor_value`. -/
def cursorValue : (sort : ReceiptSort) → ReceiptRecord → SortValue sort
  | .recent, r => r.createdAt.toDateTime
  | .expiresOn, r => r.expiresOn
  | .purchaseDate, r => r.paymentDate
  | .title, r => r.itemName

/-- The text of a value: a text itself, or `value.isoformat()`. -/
def dumpCursorValue : (sort : ReceiptSort) → SortValue sort → String
  | .recent, value => DateTime.isoformat value
  | .expiresOn, value => .ofList (DateTime.dumpDate value)
  | .purchaseDate, value => .ofList (DateTime.dumpDate value)
  | .title, value => value

/-- `text.encode("utf-8")`. -/
def utf8Encode (text : String) : List UInt8 := text.toByteArray.data.toList

/-- `bytes.decode("utf-8")`. -/
def utf8Decode (bytes : List UInt8) : Option String := String.fromUTF8? ⟨bytes.toArray⟩

/-- `encode_cursor`. -/
def encodeCursor (sort : ReceiptSort) (record : ReceiptRecord) : String :=
  let payload :=
    [("sort", sort.value), ("value", dumpCursorValue sort (cursorValue sort record)),
      ("id", record.id.str)]
  .ofList (Text.Base64.unpad (Text.Base64.encode (utf8Encode (Json.dumpsCompact payload))))

/-- `ReceiptSort(value)`. -/
def ReceiptSort.ofValue (value : String) : Option ReceiptSort :=
  [recent, expiresOn, purchaseDate, title].find? (·.value = value)

/-- `payload[key]`, of the last one with the key. -/
def field (payload : Json) (key : String) : Option Json :=
  match payload with
  | .obj fields => (fields.reverse.lookup key)
  | _ => none

/-- A text, of `payload[key]`. -/
def textField (payload : Json) (key : String) : Option String :=
  match field payload key with
  | some (.str text) => some text
  | _ => none

/-- `_parse_cursor_value`. -/
def parseCursorValue : (sort : ReceiptSort) → String → Option (SortValue sort)
  | .recent, value => DateTime.fromisoformat value
  | .expiresOn, value => IsoFormat.dateFromisoformat value
  | .purchaseDate, value => IsoFormat.dateFromisoformat value
  | .title, value => some value

/-- What is in the text of a cursor, of which everything that is wrong is one error. -/
def readCursor (cursor : String) (sort : ReceiptSort) : Option (ReceiptCursor sort) := do
  let bytes ← Text.Base64.decode (Text.Base64.repad cursor.toList)
  let text ← utf8Decode bytes
  let payload ← Json.loads text
  let cursorSort ← (← textField payload "sort") |> ReceiptSort.ofValue
  if cursorSort ≠ sort then none
  let cursorReceiptId ← textField payload "id"
  let value ← parseCursorValue sort (← textField payload "value")
  let receiptId ← UUID.parse cursorReceiptId
  return ⟨value, receiptId⟩

/-- `decode_cursor`, of the cursors that the listing hands out. -/
def decodeCursor (cursor : Option String) (sort : ReceiptSort) :
    Except DomainError (Option (ReceiptCursor sort)) :=
  match cursor with
  | none => .ok none
  | some cursor =>
    match readCursor cursor sort with
    | some cursor => .ok (some cursor)
    | none => .error (.validation [⟨"cursor", "유효하지 않은 커서입니다."⟩])

end

/-! ## Pages -/

/-- `ReceiptListPage`, and `ListReceiptsResult`. -/
structure ReceiptListPage where
  receipts : List ReceiptReadModel
  totalCount : ℕ
  nextCursor : Option String
  hasNext : Bool
  limit : ℕ

/-- The read model of a receipt, with its files. -/
def ReceiptsDatabase.toReadModel (d : ReceiptsDatabase) (r : ReceiptRecord) : ReceiptReadModel :=
  recordToReadModel r (d.fileIds r.id)

section

variable [CaseFolding] [LinearOrder Collated] [TimeZones]

/-- `SqlAlchemyReceiptRepository.list_by_user`, on a day, which is all that
    `ListReceiptsQueryUseCase.execute` does. -/
def listByUser (query : ListReceiptsQuery) (today : Date)
    (d : ReceiptsDatabase) : Except DomainError ReceiptListPage := do
  let baseConditions ← listConditions query today
  let cursor ← decodeCursor query.cursor query.sort
  sendKeyword query
  let totalCount := (d.receipts.rows.filter baseConditions).length
  let found := d.receipts.rows.filter fun r =>
    baseConditions r && cursor.all (cursorCondition query.sort · r)
  let records := (found.insertionSort (listOrderBy query.sort)).take (query.limit + 1)
  let pageRecords := records.take query.limit
  let hasNext : Bool := query.limit < records.length
  return {
    receipts := pageRecords.map d.toReadModel
    totalCount := totalCount
    nextCursor := if hasNext then pageRecords.getLast?.map (encodeCursor query.sort) else none
    hasNext := hasNext
    limit := query.limit }

end

/-! ## Cursors are read back -/

theorem utf8Decode_utf8Encode (text : String) : utf8Decode (utf8Encode text) = some text := by
  have h : (⟨text.toByteArray.data.toList.toArray⟩ : ByteArray) = text.toByteArray := rfl
  rw [utf8Decode, utf8Encode, h, String.fromUTF8?, dif_pos text.isValidUTF8]
  rfl

theorem ReceiptSort.ofValue_value (sort : ReceiptSort) : ofValue sort.value = some sort := by
  cases sort
  · rfl
  · rfl
  · rfl
  · rfl

/-- The payload of a cursor. -/
theorem textField_payload (sort value id : String) :
    let payload :=
  Json.obj ([("sort", sort), ("value", value), ("id", id)].map fun f => (f.1, .str f.2))
    textField payload "sort" = some sort ∧ textField payload "value" = some value ∧
      textField payload "id" = some id := by
  simp [textField, field, List.lookup_cons]

section

variable [TimeZones]

/-- The value of a receipt is read back. -/
theorem parseCursorValue_dumpCursorValue (sort : ReceiptSort) (r : ReceiptRecord) :
    parseCursorValue sort (dumpCursorValue sort (cursorValue sort r)) =
      some (cursorValue sort r) := by
  cases sort with
  | recent =>
    have h := DateTime.fromisoformat_isoformat r.createdAt.toDateTime
    rwa [DateTime.readBack_toDateTime] at h
  | expiresOn => exact IsoFormat.dateFromisoformat_dumpDate r.expiresOn
  | purchaseDate => exact IsoFormat.dateFromisoformat_dumpDate r.paymentDate
  | title => rfl

/-- A cursor is read as the place of the receipt it was made of. -/
theorem decodeCursor_encodeCursor (sort : ReceiptSort) (r : ReceiptRecord) :
    decodeCursor (some (encodeCursor sort r)) sort = .ok (some ⟨cursorValue sort r, r.id⟩) := by
  have hvalue := parseCursorValue_dumpCursorValue sort r
  obtain ⟨hsort, htext, hid⟩ :=
    textField_payload sort.value (dumpCursorValue sort (cursorValue sort r)) r.id.str
  rw [decodeCursor, encodeCursor, readCursor, String.toList_ofList, Text.Base64.decode_repad]
  simp only [Option.bind_eq_bind, Option.bind_some, utf8Decode_utf8Encode, Json.loads_dumpsCompact,
    hsort, htext, hid, ReceiptSort.ofValue_value, hvalue, UUID.parse_str]
  simp

end

end Boat.Receipts
