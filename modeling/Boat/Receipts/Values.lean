import Boat.Core.Date
import Mathlib.Data.List.Dedup

/-!
# Receipts: values

The value objects of the receipts module (`app/modules/receipts/domain/value_objects.py`). The
limits of an amount and of a period are those of new values: what was stored under other limits is
restored as it is (`restoreGrandfathered`).
-/

namespace Boat.Receipts

/-! ## Categories -/

inductive ReceiptStatusFilter
  | all
  | active
  | expiring
  | expired
  deriving DecidableEq, Repr

inductive ReceiptSort
  | recent
  | expiresOn
  | purchaseDate
  | title
  deriving DecidableEq, Repr

/-- The values of `ReceiptSort`. -/
def ReceiptSort.value : ReceiptSort → String
  | .recent => "recent"
  | .expiresOn => "expiresOn"
  | .purchaseDate => "purchaseDate"
  | .title => "title"

inductive ReceiptCategory
  | kitchenAppliance
  | laundryCleaning
  | livingClimate
  | itDevice
  | otherDevice
  deriving DecidableEq, Repr

namespace ReceiptCategory

/-- The values of `ReceiptCategory`. -/
def value : ReceiptCategory → String
  | kitchenAppliance => "kitchen_appliance"
  | laundryCleaning => "laundry_cleaning"
  | livingClimate => "living_climate"
  | itDevice => "it_device"
  | otherDevice => "other_device"

/-- `api_label`. -/
def apiLabel : ReceiptCategory → String
  | kitchenAppliance => "주방 가전"
  | laundryCleaning => "세탁/청소"
  | livingClimate => "리빙/냉난방"
  | itDevice => "IT 기기"
  | otherDevice => "기타 기기"

/-- `str.lower`, as far as the keys of the aliases can tell: besides the letters of ASCII, only the
    Kelvin sign becomes a letter of a key. -/
def lowerChar (c : Char) : Char := if c = '\u212a' then 'k' else c.toLower

/-- `_category_alias_key`. -/
def aliasKey (value : String) : String :=
  String.ofList ((value.toList.filter (!isSpace ·)).map lowerChar)

/-- `_CATEGORY_ALIASES`. -/
def aliases : List (String × ReceiptCategory) :=
  [kitchenAppliance, laundryCleaning, livingClimate, itDevice, otherDevice].map
    (fun c => (aliasKey c.value, c)) ++
    [("주방가전", kitchenAppliance), ("세탁/청소", laundryCleaning), ("세탁청소", laundryCleaning),
      ("리빙/냉난방", livingClimate), ("리빙냉난방", livingClimate), ("it기기", itDevice), ("it제품", itDevice),
      ("영상/it제품", itDevice), ("영상it제품", itDevice), ("기타기기", otherDevice), ("기타제품", otherDevice),
      ("기타", otherDevice)]

/-- `ReceiptCategory(value)`: by the value, or by an alias. -/
def ofValue (value : String) : Option ReceiptCategory :=
  match [kitchenAppliance, laundryCleaning, livingClimate, itDevice, otherDevice].find?
    (·.value = value) with
  | some category => some category
  | none => aliases.lookup (aliasKey value)

end ReceiptCategory

/-! ## Value objects -/

/-- `ItemName`. -/
@[ext]
structure ItemName where
  value : String
  not_blank : strip value ≠ ""
  length_le : (strip value).length ≤ 255
  deriving Repr

instance : DecidableEq ItemName := fun a b =>
  decidable_of_iff (a.value = b.value) ⟨ItemName.ext, congrArg ItemName.value⟩

/-- `ItemName(...)`. -/
def ItemName.create (value : String) : Validated ItemName :=
  if h : strip value = "" then .error [⟨"item_name", "제품명은 필수입니다."⟩]
  else if hlength : 255 < (strip value).length then .error [⟨"item_name", "제품명은 255자 이하여야 합니다."⟩]
  else .ok ⟨value, h, Nat.le_of_not_lt hlength⟩

/-- `PaymentDate(...)`, checked against the date of today. -/
def PaymentDate.create (value today : Date) : Validated Date :=
  if today.before value then .error [⟨"payment_date", "구매일은 미래 날짜일 수 없습니다."⟩] else .ok value

/-- `TotalAmount`, of any size if it was stored under another limit. -/
@[ext]
structure TotalAmount where
  value : ℤ
  le_value : 0 ≤ value
  deriving Repr

instance : DecidableEq TotalAmount := fun a b =>
  decidable_of_iff (a.value = b.value) ⟨TotalAmount.ext, congrArg TotalAmount.value⟩

namespace TotalAmount

/-- `MAX_AMOUNT`. -/
def maxAmount : ℤ := 999999999

/-- `TotalAmount(...)`. -/
def create (value : ℤ) : Validated TotalAmount :=
  if h : 0 ≤ value ∧ value ≤ maxAmount then .ok ⟨value, h.1⟩
  else .error [⟨"total_amount", "구매가격은 0원 이상 999,999,999원 이하로 입력해 주세요."⟩]

/-- `restore_grandfathered`. -/
def restoreGrandfathered (value : ℤ) : Validated TotalAmount :=
  if h : value ≤ maxAmount then create value
  else .ok ⟨value, by unfold maxAmount at h; omega⟩

/-- What is stored is restored. -/
theorem restoreGrandfathered_eq (amount : TotalAmount) :
    restoreGrandfathered amount.value = .ok amount := by
  have hle := amount.le_value
  rw [restoreGrandfathered]
  split
  · next h => rw [create, dif_pos ⟨hle, h⟩]
  · rfl

end TotalAmount

/-- `WarrantyPeriodMonths`, of any length if it was stored under another limit. -/
@[ext]
structure WarrantyPeriodMonths where
  value : ℤ
  le_value : 1 ≤ value
  deriving Repr

instance : DecidableEq WarrantyPeriodMonths := fun a b =>
  decidable_of_iff (a.value = b.value) ⟨WarrantyPeriodMonths.ext, congrArg WarrantyPeriodMonths.value⟩

namespace WarrantyPeriodMonths

/-- `MAX_MONTHS`. -/
def maxMonths : ℤ := 60

/-- `WarrantyPeriodMonths(...)`. -/
def create (value : ℤ) : Validated WarrantyPeriodMonths :=
  if h : 1 ≤ value ∧ value ≤ maxMonths then .ok ⟨value, h.1⟩
  else .error [⟨"period_months", "무상 AS 기간은 1개월 이상 60개월 이하로 입력해 주세요."⟩]

/-- `restore_grandfathered`. -/
def restoreGrandfathered (value : ℤ) : Validated WarrantyPeriodMonths :=
  if h : value ≤ maxMonths then create value
  else .ok ⟨value, by unfold maxMonths at h; omega⟩

/-- What is stored is restored. -/
theorem restoreGrandfathered_eq (period : WarrantyPeriodMonths) :
    restoreGrandfathered period.value = .ok period := by
  have hle := period.le_value
  rw [restoreGrandfathered]
  split
  · next h => rw [create, dif_pos ⟨hle, h⟩]
  · rfl

/-- A period has the value that it is created or restored with. -/
theorem value_of_create {value : ℤ} {period : WarrantyPeriodMonths} (h : create value = .ok period) :
    period.value = value := by
  rw [create] at h
  split at h
  · cases h
    rfl
  · cases h

theorem value_of_restoreGrandfathered {value : ℤ} {period : WarrantyPeriodMonths}
    (h : restoreGrandfathered value = .ok period) : period.value = value := by
  rw [restoreGrandfathered] at h
  split at h
  · exact value_of_create h
  · cases h
    rfl

end WarrantyPeriodMonths

/-- `ReceiptFileReferences`. -/
structure ReceiptFileReferences where
  value : List UUID
  le_length : 1 ≤ value.length
  length_le : value.length ≤ 5
  nodup : value.Nodup
  deriving DecidableEq, Repr

/-- `ReceiptFileReferences(...)`. -/
def ReceiptFileReferences.create (value : List UUID) : Validated ReceiptFileReferences :=
  if hmin : value.length < 1 then .error [⟨"receipt_file_ids", "영수증 파일은 최소 1개 이상 연결해야 합니다."⟩]
  else if hmax : 5 < value.length then
    .error [⟨"receipt_file_ids", "영수증 파일은 최대 5개까지 연결할 수 있습니다."⟩]
  else if hnodup : value.Nodup then .ok ⟨value, Nat.le_of_not_lt hmin, Nat.le_of_not_lt hmax, hnodup⟩
  else .error [⟨"receipt_file_ids", "중복된 영수증 파일은 연결할 수 없습니다."⟩]

end Boat.Receipts
