import Boat.Ocr.UseCases

/-!
# OCR: provider

What the provider answers (`ReceiptOcrStructuredOutput`), and the fields that the client takes from
an answer (`app/modules/ocr/infrastructure/receipt_ocr_client.py`). The request itself is a
parameter: it fails, or there is an answer of the schema.
-/

namespace Boat

inductive OcrReceiptCategory
  | kitchenAppliance
  | laundryCleaning
  | livingClimate
  | itDevice
  | otherDevice
  deriving DecidableEq, Repr

/-- `api_label`. -/
def OcrReceiptCategory.apiLabel : OcrReceiptCategory → String
  | kitchenAppliance => "주방 가전"
  | laundryCleaning => "세탁/청소"
  | livingClimate => "리빙/냉난방"
  | itDevice => "IT 기기"
  | otherDevice => "기타 기기"

/-- The values of `SubCategoryLiteral`. -/
def subCategoryLiterals : List String :=
  ["냉장고", "전자레인지", "밥솥", "정수기", "세탁기", "건조기", "청소기", "로봇청소기", "에어컨", "선풍기", "공기청정기",
    "가습기", "오븐", "데스크탑/TV", "게임기", "카메라", "스피커", "무선이어폰", "노트북", "헤드셋", "스마트워치", "핸드폰",
    "기타"]

/-- `SubCategoryLiteral`. -/
abbrev SubCategoryLiteral := { value : String // value ∈ subCategoryLiterals }

/-- `ReceiptOcrStructuredOutput`. -/
structure ReceiptOcrStructuredOutput where
  itemName : Option String := none
  brandName : Option String := none
  serialNumber : Option String := none
  paymentLocation : Option String := none
  paymentDate : Option Date := none
  totalAmount : Option ℤ := none
  periodMonths : Option ℤ := none
  expiresOn : Option Date := none
  category : Option OcrReceiptCategory := none
  subCategory : Option SubCategoryLiteral := none
  transactionEvidence : ReceiptTransactionEvidence := ⟨false, false, false, false⟩
  receiptFileIndexes : List ℤ := []
  unreadableFileIndexes : List ℤ := []
  unsupportedFileIndexes : List ℤ := []
  deriving DecidableEq, Repr

/-- `to_extracted_fields`. -/
def ReceiptOcrStructuredOutput.toExtractedFields (o : ReceiptOcrStructuredOutput) (imageCount : ℕ) :
    Except DomainError ExtractedReceiptOcrFields := do
  let allClassifiedIndexes :=
    o.receiptFileIndexes ++ o.unreadableFileIndexes ++ o.unsupportedFileIndexes
  if allClassifiedIndexes.any fun index => index < 0 ∨ index ≥ imageCount then
    throw (.other "OCR provider가 요청 범위를 벗어난 이미지 인덱스를 반환했습니다.")
  if o.unreadableFileIndexes.any (· ∈ o.unsupportedFileIndexes) then
    throw (.other "OCR provider가 동일한 이미지를 두 실패 유형으로 반환했습니다.")
  if o.receiptFileIndexes.any (· ∈ o.unreadableFileIndexes ++ o.unsupportedFileIndexes) then
    throw (.other "OCR provider가 동일한 이미지를 지원 영수증과 실패 유형으로 반환했습니다.")
  return {
    itemName := blankToNone o.itemName
    brandName := blankToNone o.brandName
    serialNumber := blankToNone o.serialNumber
    paymentLocation := blankToNone o.paymentLocation
    paymentDate := o.paymentDate
    totalAmount := o.totalAmount
    periodMonths := o.periodMonths
    expiresOn := o.expiresOn
    category := some (o.category.elim ReceiptOcrResult.defaultCategory OcrReceiptCategory.apiLabel)
    subCategory :=
      some ((blankToNone (o.subCategory.map (·.1))).getD ReceiptOcrResult.defaultSubCategory)
    transactionEvidence := some o.transactionEvidence
    receiptFileIndexes := sortedSet o.receiptFileIndexes
    unreadableFileIndexes := sortedSet o.unreadableFileIndexes
    unsupportedFileIndexes := sortedSet o.unsupportedFileIndexes }

/-- `OpenRouterReceiptOcrClient.extract`: whatever goes wrong, the provider is unavailable. -/
def OpenRouterReceiptOcrClient.extract
    (request : List ReceiptOcrImage → Option ReceiptOcrStructuredOutput) :
    ReceiptOcrClient := fun images =>
  if images = [] then .error .receiptOcrProviderUnavailable
  else match request images with
    | none => .error .receiptOcrProviderUnavailable
    | some output => match output.toExtractedFields images.length with
      | .ok extracted => .ok extracted
      | .error _ => .error .receiptOcrProviderUnavailable

/-- What the client extracts of an answer. -/
theorem ReceiptOcrStructuredOutput.toExtractedFields_eq_ok {o : ReceiptOcrStructuredOutput}
    {imageCount : ℕ} {extracted : ExtractedReceiptOcrFields}
    (h : o.toExtractedFields imageCount = .ok extracted) :
    extracted.itemName = blankToNone o.itemName ∧ extracted.brandName = blankToNone o.brandName ∧
      extracted.serialNumber = blankToNone o.serialNumber ∧
      extracted.paymentLocation = blankToNone o.paymentLocation ∧
      extracted.paymentDate = o.paymentDate ∧
      extracted.totalAmount = o.totalAmount ∧ extracted.periodMonths = o.periodMonths ∧
      extracted.expiresOn = o.expiresOn ∧
      extracted.category =
        some (o.category.elim ReceiptOcrResult.defaultCategory OcrReceiptCategory.apiLabel) ∧
      extracted.subCategory =
        some ((blankToNone (o.subCategory.map (·.1))).getD ReceiptOcrResult.defaultSubCategory) := by
  simp only [toExtractedFields, bind, Except.bind, pure, Except.pure, throw, throwThe,
    MonadExceptOf.throw] at h
  split at h
  · cases h
  split at h
  · cases h
  split at h
  · cases h
  cases h
  exact ⟨rfl, rfl, rfl, rfl, rfl, rfl, rfl, rfl, rfl, rfl⟩

end Boat
