import Boat.Core.Date
import Mathlib.Data.List.Dedup
import Mathlib.Data.List.Sort

/-!
# OCR: domain

What the analysis of a receipt results in (`ReceiptOcrResult`), and the exceptions
it is refused with (`app/modules/ocr/domain`). The values of a result have passed
their checks, which are fields of their types.
-/

namespace Boat

/-! ## Exceptions -/

/-- `tuple(sorted(set(...)))`. -/
def sortedSet (l : List ℤ) : List ℤ := l.dedup.insertionSort (· ≤ ·)

/-- `ReceiptImageUnreadableError(file_indexes=...)`. -/
def receiptImageUnreadableError (fileIndexes : List ℤ) : DomainError :=
  if fileIndexes = [] then .other "인식 실패 파일 인덱스가 최소 1개 필요합니다."
  else .receiptImageUnreadable (sortedSet fileIndexes)

/-- `UnsupportedReceiptError(file_indexes=..., unreadable_file_indexes=...)`. -/
def unsupportedReceiptError (fileIndexes : List ℤ) (unreadableFileIndexes : List ℤ := []) :
    DomainError :=
  if fileIndexes = [] then .other "지원하지 않는 영수증 파일 인덱스가 최소 1개 필요합니다."
  else if fileIndexes.any (· ∈ unreadableFileIndexes) then
    .other "동일한 파일을 지원 대상 아님과 인식 실패로 함께 처리할 수 없습니다."
  else .unsupportedReceipt (sortedSet fileIndexes) (sortedSet unreadableFileIndexes)

/-! ## Value objects -/

/-- Text that is not blank. -/
structure NonBlank where
  value : String
  not_blank : strip value ≠ ""
  deriving DecidableEq, Repr

/-- The check of a text, which names the field. -/
def NonBlank.create (value fieldName message : String) : Validated NonBlank :=
  if h : strip value = "" then .error [⟨fieldName, message⟩] else .ok ⟨value, h⟩

/-- `ItemName`. -/
def ItemName.create (value : String) : Validated NonBlank :=
  NonBlank.create value "item_name" "제품명은 필수입니다."

/-- `BrandName`. -/
def BrandName.create (value : String) : Validated NonBlank :=
  NonBlank.create value "brand_name" "브랜드명은 비어 있을 수 없습니다."

/-- `PaymentLocation`. -/
def PaymentLocation.create (value : String) : Validated NonBlank :=
  NonBlank.create value "payment_location" "구매처는 비어 있을 수 없습니다."

/-- `PaymentDate`, checked against the date of today. -/
def PaymentDate.create (value today : Date) : Validated Date :=
  if today.before value then .error [⟨"payment_date", "구매일은 미래 날짜일 수 없습니다."⟩] else .ok value

/-- `WarrantyPeriodMonths`. -/
@[ext]
structure WarrantyPeriodMonths where
  value : ℤ
  le_value : 1 ≤ value
  value_le : value ≤ 60
  deriving Repr

instance : DecidableEq WarrantyPeriodMonths := fun a b =>
  decidable_of_iff (a.value = b.value) ⟨WarrantyPeriodMonths.ext, congrArg WarrantyPeriodMonths.value⟩

/-- `WarrantyPeriodMonths(...)`. -/
def WarrantyPeriodMonths.create (value : ℤ) : Validated WarrantyPeriodMonths :=
  if h : 1 ≤ value ∧ value ≤ 60 then .ok ⟨value, h.1, h.2⟩
  else .error [⟨"period_months", "무상 AS 기간은 1개월 이상 60개월 이하여야 합니다."⟩]

/-- `TotalAmount`. -/
@[ext]
structure TotalAmount where
  value : ℤ
  le_value : 0 ≤ value
  value_le : value ≤ 999999999
  deriving Repr

instance : DecidableEq TotalAmount := fun a b =>
  decidable_of_iff (a.value = b.value) ⟨TotalAmount.ext, congrArg TotalAmount.value⟩

/-- `TotalAmount(...)`. -/
def TotalAmount.create (value : ℤ) : Validated TotalAmount :=
  if h : 0 ≤ value ∧ value ≤ 999999999 then .ok ⟨value, h.1, h.2⟩
  else .error [⟨"total_amount", "구매가격은 0원 이상 999,999,999원 이하로 입력해 주세요."⟩]

/-! ## Results -/

/-- `blank_to_none`. -/
def blankToNone (value : Option String) : Option String :=
  (value.map strip).filter (· ≠ "")

/-- `_add_months`. -/
abbrev Ocr.addMonths (startDate : Date) (months : ℤ) : Except DomainError Date :=
  startDate.addMonths months

/-- `ReceiptOcrResult`. -/
structure ReceiptOcrResult where
  itemName : NonBlank
  brandName : Option NonBlank
  serialNumber : Option String
  paymentLocation : Option NonBlank
  paymentDate : Date
  totalAmount : Option TotalAmount
  periodMonths : WarrantyPeriodMonths
  expiresOn : Date
  category : String
  subCategory : String
  warnings : List String
  deriving DecidableEq, Repr

namespace ReceiptOcrResult

/-- `DEFAULT_WARRANTY_PERIOD_MONTHS`. -/
def defaultWarrantyPeriodMonths : ℤ := 12

/-- `DEFAULT_CATEGORY`. -/
def defaultCategory : String := "기타 기기"

/-- `DEFAULT_SUB_CATEGORY`. -/
def defaultSubCategory : String := "기타"

/-- `create`. The date of today is read twice: as a default, and for a check. -/
def create (itemName brandName serialNumber paymentLocation : Option String)
    (paymentDate : Option Date) (totalAmount periodMonths : Option ℤ)
    (category subCategory : Option String) (expiresOn : Option Date) (today todayChecked : Date) :
    Except DomainError ReceiptOcrResult :=
  let resolvedPaymentDate := paymentDate.getD today
  let resolvedPeriodMonths := periodMonths.getD defaultWarrantyPeriodMonths
  let resolvedExpiresOn := expiresOn.filter fun e => !e.before resolvedPaymentDate
  let warnings :=
    (if paymentDate.isNone then ["구매일을 찾지 못해 오늘 날짜 기본값을 적용했습니다."] else []) ++
    (if periodMonths.isNone then ["무상 AS 기간을 찾지 못해 12개월 기본값을 적용했습니다."] else []) ++
    (if expiresOn.any (·.before resolvedPaymentDate) then
      ["보장 만료일이 구매일보다 빨라 구매일과 무상 AS 기간으로 다시 계산했습니다."] else [])
  let newItemName := ItemName.create (strip (itemName.getD ""))
  let newPaymentDate := PaymentDate.create resolvedPaymentDate todayChecked
  let newPeriodMonths := WarrantyPeriodMonths.create resolvedPeriodMonths
  let newBrandName := (blankToNone brandName).mapM BrandName.create
  let newPaymentLocation := (blankToNone paymentLocation).mapM PaymentLocation.create
  let newTotalAmount := totalAmount.mapM TotalAmount.create
  match newItemName, newPaymentDate, newPeriodMonths, newBrandName, newPaymentLocation,
    newTotalAmount with
  | .ok itemName, .ok paymentDate, .ok periodMonths, .ok brandName, .ok paymentLocation,
      .ok totalAmount => do
    let expiresOn ← match resolvedExpiresOn with
      | some e => pure e
      | none => Ocr.addMonths paymentDate periodMonths.value
    return {
      itemName, brandName, paymentLocation, paymentDate, totalAmount, periodMonths,
        expiresOn, warnings
      serialNumber := blankToNone serialNumber
      category := (blankToNone category).getD defaultCategory
      subCategory := (blankToNone subCategory).getD defaultSubCategory }
  | _, _, _, _, _, _ =>
    -- all the details that were collected, in the order of the checks
    .error (.validation (newItemName.details ++ newPaymentDate.details ++ newPeriodMonths.details ++
      newBrandName.details ++ newPaymentLocation.details ++ newTotalAmount.details))

end ReceiptOcrResult

end Boat
