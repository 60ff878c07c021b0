import Boat.Receipts.Values

/-!
# Receipts: domain

The receipts (`app/modules/receipts/domain/model.py`). `Receipt.create` checks all its arguments and
reports everything that is invalid at once; then it takes the day the warranty expires on, or adds
the period to the day of the payment (`resolveExpiresOn`).
-/

namespace Boat.Receipts

/-- `Receipt`. -/
structure Receipt where
  id : UUID
  userId : UUID
  itemName : ItemName
  brandName : Option String
  serialNumber : Option String
  paymentLocation : Option String
  paymentDate : Date
  totalAmount : Option TotalAmount
  periodMonths : WarrantyPeriodMonths
  expiresOn : Date
  category : Option ReceiptCategory
  subCategory : Option String
  memo : Option String
  requiresPhysicalReceipt : Bool
  receiptFileIds : ReceiptFileReferences
  deriving DecidableEq, Repr

/-! ## Checks -/

/-- `_required_item_name`. -/
def requiredItemName : Option String → Validated ItemName
  | none => .error [⟨"item_name", "제품명은 필수입니다."⟩]
  | some value => ItemName.create (strip value)

/-- `_required_payment_date`. -/
def requiredPaymentDate (value : Option Date) (today : Date) : Validated Date :=
  match value with
  | none => .error [⟨"payment_date", "구매일은 필수입니다."⟩]
  | some value => PaymentDate.create value today

/-- `_required_bool`. -/
def requiredBool (value : Option Bool) (fieldName label : String) : Validated Bool :=
  match value with
  | none => .error [⟨fieldName, label ++ "는 필수입니다."⟩]
  | some value => .ok value

/-- `_required_file_references`. -/
def requiredFileReferences : Option (List UUID) → Validated ReceiptFileReferences
  | none => .error [⟨"receipt_file_ids", "영수증 파일은 필수입니다."⟩]
  | some value => ReceiptFileReferences.create value

/-- `_topic_particle`: the particle after a final consonant, or the one after a vowel. -/
def topicParticle (label : String) : String :=
  match label.toList.getLast? with
  | none => "은"
  | some c =>
    if c < '가' ∨ '힣' < c then "은"
    else if (c.toNat - '가'.toNat) % 28 = 0 then "는" else "은"

/-- `_optional_text`. -/
def optionalText (value : Option String) (fieldName label : String)
    (maxLength : ℕ) : Validated (Option String) :=
  match value with
  | none => .ok none
  | some value =>
    let stripped := strip value
    if stripped = "" then .ok none
    else if maxLength < stripped.length then
      .error [⟨fieldName, label ++ topicParticle label ++ " " ++ toString maxLength ++ "자 이하여야 합니다."⟩]
    else .ok (some stripped)

/-- A category, or the text of one. -/
inductive CategoryArgument
  | category (category : ReceiptCategory)
  | text (value : String)
  deriving DecidableEq, Repr

/-- `_optional_category`. -/
def optionalCategory : Option CategoryArgument → Validated (Option ReceiptCategory)
  | none => .ok none
  | some (.category category) => .ok (some category)
  | some (.text value) =>
    let stripped := strip value
    if stripped = "" then .ok none
    else match ReceiptCategory.ofValue stripped with
      | some category => .ok (some category)
      | none => .error [⟨"category", "지원하지 않는 대분류 카테고리입니다."⟩]

/-- `_add_months`. -/
abbrev addMonths (startDate : Date) (months : ℤ) : Except DomainError Date :=
  startDate.addMonths months

/-- `_resolve_expires_on`. -/
def resolveExpiresOn (explicitExpiresOn : Option Date) (paymentDate : Date) (periodMonths : ℤ) :
    Except DomainError Date :=
  match explicitExpiresOn with
  | none => addMonths paymentDate periodMonths
  | some expiresOn =>
    if expiresOn.before paymentDate then
      .error (.validation [⟨"expires_on", "보장 만료일은 구매일보다 빠를 수 없습니다."⟩])
    else .ok expiresOn

/-! ## Creation -/

/-- `DEFAULT_WARRANTY_PERIOD_MONTHS`. -/
def defaultWarrantyPeriodMonths : ℤ := 12

/-- The arguments of `Receipt.create`, with their defaults. -/
structure ReceiptArguments where
  userId : UUID
  itemName : Option String
  paymentDate : Option Date
  receiptId : Option UUID := none
  brandName : Option String := none
  serialNumber : Option String := none
  paymentLocation : Option String := none
  totalAmount : Option ℤ := none
  preserveLegacyTotalAmount : Bool := false
  periodMonths : Option ℤ := none
  preserveFuturePeriodMonths : Bool := false
  expiresOn : Option Date := none
  category : Option CategoryArgument := none
  subCategory : Option String := none
  memo : Option String := none
  requiresPhysicalReceipt : Option Bool := some false
  receiptFileIds : Option (List UUID) := none
  deriving DecidableEq, Repr

namespace ReceiptArguments

variable (a : ReceiptArguments) (today : Date)

/-! The arguments, checked. -/

def newItemName : Validated ItemName := requiredItemName a.itemName

def newPaymentDate : Validated Date := requiredPaymentDate a.paymentDate today

def newTotalAmount : Validated (Option TotalAmount) :=
  a.totalAmount.mapM fun value =>
    if a.preserveLegacyTotalAmount then TotalAmount.restoreGrandfathered value
      else TotalAmount.create value

def newPeriodMonths : Validated WarrantyPeriodMonths :=
  let resolved := a.periodMonths.getD defaultWarrantyPeriodMonths
  if a.preserveFuturePeriodMonths then WarrantyPeriodMonths.restoreGrandfathered resolved
  else WarrantyPeriodMonths.create resolved

def newBrandName : Validated (Option String) := optionalText a.brandName "brand_name" "브랜드명" 255

def newSerialNumber : Validated (Option String) :=
  optionalText a.serialNumber "serial_number" "시리얼 넘버" 255

def newPaymentLocation : Validated (Option String) :=
  optionalText a.paymentLocation "payment_location" "구매처" 500

def newCategory : Validated (Option ReceiptCategory) := optionalCategory a.category

def newSubCategory : Validated (Option String) :=
  optionalText a.subCategory "sub_category" "소분류 카테고리" 100

def newMemo : Validated (Option String) := optionalText a.memo "memo" "메모" 1000

def newRequiresPhysicalReceipt : Validated Bool :=
  requiredBool a.requiresPhysicalReceipt "requires_physical_receipt" "실물 영수증 보관 필요 여부"

def newFileReferences : Validated ReceiptFileReferences := requiredFileReferences a.receiptFileIds

/-- Everything that is invalid, in the order of the checks. -/
def details : List ErrorDetail :=
  a.newItemName.details ++ (a.newPaymentDate today).details ++ a.newTotalAmount.details ++
    a.newPeriodMonths.details ++ a.newBrandName.details ++ a.newSerialNumber.details ++
    a.newPaymentLocation.details ++ a.newCategory.details ++ a.newSubCategory.details ++
      a.newMemo.details ++
    a.newRequiresPhysicalReceipt.details ++ a.newFileReferences.details

/-- The receipt of the checked arguments, if there is a day it expires on. -/
def build (newId : UUID) : Validated (Except DomainError Receipt) := do
  let itemName ← a.newItemName
  let paymentDate ← a.newPaymentDate today
  let totalAmount ← a.newTotalAmount
  let periodMonths ← a.newPeriodMonths
  let brandName ← a.newBrandName
  let serialNumber ← a.newSerialNumber
  let paymentLocation ← a.newPaymentLocation
  let category ← a.newCategory
  let subCategory ← a.newSubCategory
  let memo ← a.newMemo
  let requiresPhysicalReceipt ← a.newRequiresPhysicalReceipt
  let receiptFileIds ← a.newFileReferences
  return (resolveExpiresOn a.expiresOn paymentDate periodMonths.value).map fun expiresOn =>
    { id := a.receiptId.getD newId, userId := a.userId, itemName, brandName, serialNumber,
      paymentLocation, paymentDate, totalAmount, periodMonths, expiresOn, category, subCategory,
      memo, requiresPhysicalReceipt, receiptFileIds }

end ReceiptArguments

/-- `Receipt.create`. All that is invalid is collected before it is raised. -/
def Receipt.create (a : ReceiptArguments) (today : Date)
    (newId : UUID) : Except DomainError Receipt :=
  match a.build today newId with
  | .ok result => result
  | .error _ => .error (.validation (a.details today))

/-- What a receipt takes from the arguments it is created with. -/
structure Receipt.Created (a : ReceiptArguments) (today : Date) (newId : UUID)
    (r : Receipt) : Prop where
  id : r.id = a.receiptId.getD newId
  userId : r.userId = a.userId
  itemName : a.newItemName = .ok r.itemName
  paymentDate : a.newPaymentDate today = .ok r.paymentDate
  totalAmount : a.newTotalAmount = .ok r.totalAmount
  periodMonths : a.newPeriodMonths = .ok r.periodMonths
  brandName : a.newBrandName = .ok r.brandName
  serialNumber : a.newSerialNumber = .ok r.serialNumber
  paymentLocation : a.newPaymentLocation = .ok r.paymentLocation
  category : a.newCategory = .ok r.category
  subCategory : a.newSubCategory = .ok r.subCategory
  memo : a.newMemo = .ok r.memo
  requiresPhysicalReceipt : a.newRequiresPhysicalReceipt = .ok r.requiresPhysicalReceipt
  receiptFileIds : a.newFileReferences = .ok r.receiptFileIds
  expiresOn : resolveExpiresOn a.expiresOn r.paymentDate r.periodMonths.value = .ok r.expiresOn

theorem ReceiptArguments.build_eq_ok {a : ReceiptArguments} {today : Date} {newId : UUID}
    {r : Receipt} :
    a.build today newId = .ok (.ok r) ↔ r.Created a today newId := by
  simp only [build, except_bind_eq_ok, pure, Except.pure, Except.ok.injEq, except_map_eq_ok]
  constructor
  · rintro ⟨_, h₁, _, h₂, _, h₃, _, h₄, _, h₅, _, h₆, _, h₇, _, h₈, _, h₉, _, h₁₀, _, h₁₁, _,
      h₁₂, _, h, rfl⟩
    exact ⟨rfl, rfl, h₁, h₂, h₃, h₄, h₅, h₆, h₇, h₈, h₉, h₁₀, h₁₁, h₁₂, h⟩
  · rintro ⟨hid, huser, h₁, h₂, h₃, h₄, h₅, h₆, h₇, h₈, h₉, h₁₀, h₁₁, h₁₂, h⟩
    refine ⟨_, h₁, _, h₂, _, h₃, _, h₄, _, h₅, _, h₆, _, h₇, _, h₈, _, h₉, _, h₁₀, _, h₁₁, _,
      h₁₂, _, h, ?_⟩
    rw [← hid, ← huser]

/-- A receipt is created exactly if every check passes, and there is a day it expires on. -/
theorem Receipt.create_eq_ok {a : ReceiptArguments} {today : Date} {newId : UUID} {r : Receipt} :
    Receipt.create a today newId = .ok r ↔ r.Created a today newId := by
  rw [← ReceiptArguments.build_eq_ok, Receipt.create]
  rcases a.build today newId with e | result
  · simp
  · simp

end Boat.Receipts
