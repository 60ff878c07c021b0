import Boat.Receipts.Patch

/-!
# Receipts: what a creation reports

`Receipt.create` collects what is invalid, and raises all of it at once. The day the warranty
expires on is looked at afterwards:

* an explicit one that is before the payment is reported if nothing else is invalid, and left out if
  something else is;
* a derived one is a date up to the year 9999, or an exception of `datetime`.

Apart from these, a creation names exactly the fields that are invalid, and returns the normalised
arguments if there are none (`create_reports`).
-/

namespace Boat.Receipts

/-! ## Fields of errors -/

/-- The errors of a check name a field. -/
def NamesField {α : Type} (check : Validated α) (field : String) : Prop :=
  ∀ details, check = .error details → details.map (·.field) = [field]

namespace NamesField

variable {α : Type} {check : Validated α} {name : String}

theorem of_ok {a : α} (h : check = .ok a) : NamesField check name := by
  intro details hdetails
  rw [h] at hdetails
  cases hdetails

theorem of_error {message : String} (h : check = .error [⟨name, message⟩]) :
    NamesField check name := by
  intro details hdetails
  rw [h] at hdetails
  cases hdetails
  rfl

end NamesField

/-- The field of a check is among those that are named exactly if its value is invalid. -/
theorem Checks.mem_fields {α β : Type} {check : Validated α} {val : α → β} {valid : Prop}
    {value : β} {name : String} (h : Checks check val valid value) (hname : NamesField check name)
    (f : String) :
    f ∈ check.details.map (·.field) ↔ f = name ∧ ¬valid := by
  rcases hcheck : check with details | a
  · have hnot : ¬valid := by
      intro hvalid
      obtain ⟨a, ha⟩ := h.complete hvalid
      rw [hcheck] at ha
      cases ha
    rw [Validated.details, hname details hcheck]
    simp [hnot]
  · simp [Validated.details, (h.sound a hcheck).1]

theorem namesField_requiredItemName (value : Option String) :
    NamesField (requiredItemName value) "item_name" := by
  rcases value with - | s
  · exact .of_error rfl
  · rw [requiredItemName, ItemName.create]
    split
    · exact .of_error rfl
    split
    · exact .of_error rfl
    · exact .of_ok rfl

theorem namesField_requiredPaymentDate (value : Option Date) (today : Date) :
    NamesField (requiredPaymentDate value today) "payment_date" := by
  rcases value with - | p
  · exact .of_error rfl
  · rw [requiredPaymentDate, PaymentDate.create]
    split
    · exact .of_error rfl
    · exact .of_ok rfl

theorem namesField_optionalText (value : Option String) (fieldName label : String) (maxLength : ℕ) :
    NamesField (optionalText value fieldName label maxLength) fieldName := by
  rcases value with - | s
  · exact .of_ok rfl
  · simp only [optionalText]
    split
    · exact .of_ok rfl
    split
    · exact .of_error rfl
    · exact .of_ok rfl

theorem namesField_requiredBool (value : Option Bool) (fieldName label : String) :
    NamesField (requiredBool value fieldName label) fieldName := by
  rcases value with - | b
  · exact .of_error rfl
  · exact .of_ok rfl

theorem namesField_requiredFileReferences (value : Option (List UUID)) :
    NamesField (requiredFileReferences value) "receipt_file_ids" := by
  rcases value with - | fileIds
  · exact .of_error rfl
  · rw [requiredFileReferences, ReceiptFileReferences.create]
    split
    · exact .of_error rfl
    split
    · exact .of_error rfl
    split
    · exact .of_ok rfl
    · exact .of_error rfl

/-! ## Amounts, periods and categories -/

/-- An amount that is valid for a receipt that is created, or restored. -/
def ValidAmount (keeps : Bool) (value : ℤ) : Prop :=
  0 ≤ value ∧ (keeps ∨ value ≤ TotalAmount.maxAmount)

/-- A period that is valid for a receipt that is created, or restored. -/
def ValidPeriod (keeps : Bool) (value : ℤ) : Prop :=
  1 ≤ value ∧ (keeps ∨ value ≤ WarrantyPeriodMonths.maxMonths)

/-- A value that fits its limit is restored as it is created, and any other one as it is. -/
theorem checks_restored {α β : Type} {created restored : Validated α} {val : α → β}
    {lower upper : Prop} {value : β} {name : String}
    (hcreated : Checks created val (lower ∧ upper) value ∧ NamesField created name)
    (hfits : upper → restored = created)
    (hover : ¬upper → lower ∧ ∃ a, restored = .ok a ∧ val a = value) (keeps : Bool) :
    Checks (if keeps then restored else created) val (lower ∧ (keeps ∨ upper)) value ∧
      NamesField (if keeps then restored else created) name := by
  cases keeps with
  | false => simpa using hcreated
  | true =>
    by_cases hupper : upper
    · simpa [hfits hupper, hupper] using hcreated
    · obtain ⟨hlower, a, ha, hvalue⟩ := hover hupper
      exact ⟨.of_ok ha ⟨hlower, .inl rfl⟩ hvalue, .of_ok ha⟩

theorem checks_amount (keeps : Bool) (value : ℤ) :
    let check := if keeps then TotalAmount.restoreGrandfathered value else TotalAmount.create value
    Checks check (·.value) (ValidAmount keeps value) value ∧ NamesField check "total_amount" := by
  have hfits (h : value ≤ TotalAmount.maxAmount) :
      TotalAmount.restoreGrandfathered value = TotalAmount.create value :=
    dif_pos h
  refine checks_restored ?_ hfits (fun h => ?_) keeps
  · rw [TotalAmount.create]
    split
    · next h => exact ⟨.of_ok rfl h rfl, .of_ok rfl⟩
    · next h => exact ⟨.of_error rfl h, .of_error rfl⟩
  · refine ⟨?_, _, dif_neg h, rfl⟩
    unfold TotalAmount.maxAmount at h
    omega

theorem checks_period (keeps : Bool) (value : ℤ) :
    let check := if keeps then WarrantyPeriodMonths.restoreGrandfathered value
    else WarrantyPeriodMonths.create value
    Checks check (·.value) (ValidPeriod keeps value) value ∧ NamesField check "period_months" := by
  have hfits (h : value ≤ WarrantyPeriodMonths.maxMonths) :
      WarrantyPeriodMonths.restoreGrandfathered value = WarrantyPeriodMonths.create value :=
    dif_pos h
  refine checks_restored ?_ hfits (fun h => ?_) keeps
  · rw [WarrantyPeriodMonths.create]
    split
    · next h => exact ⟨.of_ok rfl h rfl, .of_ok rfl⟩
    · next h => exact ⟨.of_error rfl h, .of_error rfl⟩
  · refine ⟨?_, _, dif_neg h, rfl⟩
    unfold WarrantyPeriodMonths.maxMonths at h
    omega

/-- A check of an optional value. -/
theorem checks_mapM {α β γ : Type} {check : γ → Validated α} {val : α → β} {valid : γ → Prop}
    {value : γ → β} {name : String}
    (h : ∀ x, Checks (check x) val (valid x) (value x) ∧ NamesField (check x) name) (o : Option γ) :
    Checks (o.mapM check) (Option.map val) (∀ x ∈ o, valid x) (o.map value) ∧
    NamesField (o.mapM check) name := by
  rcases o with - | x
  · exact ⟨.of_ok rfl nofun rfl, .of_ok rfl⟩
  · obtain ⟨hchecks, hname⟩ := h x
    rcases hx : check x with details | a
    · have hcheck : (some x).mapM check = .error details := by
        rw [Option.mapM_some, hx]
        rfl
      refine ⟨.of_error hcheck fun hvalid => ?_, fun details' hdetails' => ?_⟩
      · obtain ⟨a, ha⟩ := hchecks.complete (hvalid x rfl)
        rw [hx] at ha
        cases ha
      · rw [hcheck] at hdetails'
        cases hdetails'
        exact hname details hx
    · obtain ⟨hvalid, hvalue⟩ := hchecks.sound a hx
      have hcheck : (some x).mapM check = .ok (some a) := by
        rw [Option.mapM_some, hx]
        rfl
      exact ⟨.of_ok hcheck (by simpa using hvalid) (congrArg some hvalue), .of_ok hcheck⟩

/-- A category, from its text. -/
def normalizedCategory : Option CategoryArgument → Option ReceiptCategory
  | none => none
  | some (.category category) => some category
  | some (.text value) => if strip value = "" then none else ReceiptCategory.ofValue (strip value)

/-- A text that is not blank is that of a category. -/
def ValidCategory (value : Option CategoryArgument) : Prop :=
  ∀ text, value = some (.text text) → strip text ≠ "" →
    ∃ category, ReceiptCategory.ofValue (strip text) = some category

theorem checks_optionalCategory (value : Option CategoryArgument) :
    Checks (optionalCategory value) id (ValidCategory value) (normalizedCategory value) ∧
      NamesField (optionalCategory value) "category" := by
  match value with
  | none => exact ⟨.of_ok rfl nofun rfl, .of_ok rfl⟩
  | some (.category category) => exact ⟨.of_ok rfl nofun rfl, .of_ok rfl⟩
  | some (.text text) =>
    simp only [optionalCategory, normalizedCategory]
    split
    · next hblank =>
      refine ⟨.of_ok rfl ?_ rfl, .of_ok rfl⟩
      intro text' htext' hne
      cases htext'
      exact absurd hblank hne
    · next hne =>
      rcases hcategory : ReceiptCategory.ofValue (strip text) with - | category
      · refine ⟨.of_error rfl fun hvalid => ?_, .of_error rfl⟩
        obtain ⟨category, h⟩ := hvalid text rfl hne
        rw [hcategory] at h
        cases h
      · refine ⟨.of_ok rfl ?_ rfl, .of_ok rfl⟩
        intro text' htext' _
        cases htext'
        exact ⟨category, hcategory⟩

/-! ## Invalid arguments -/

namespace ReceiptArguments

section

variable (a : ReceiptArguments) (today : Date)

/-- An argument that is invalid on its own, by the name of its field. -/
inductive InvalidAlone : String → Prop
  | itemName : ¬(strip (a.itemName.getD "") ≠ "" ∧ (strip (a.itemName.getD "")).length ≤ 255) →
  InvalidAlone "item_name"
  | paymentDate : ¬(∃ p, a.paymentDate = some p ∧ today.before p = false) →
    InvalidAlone "payment_date"
  | totalAmount : ¬(∀ x ∈ a.totalAmount, ValidAmount a.preserveLegacyTotalAmount x) →
    InvalidAlone "total_amount"
  | periodMonths :
    ¬ValidPeriod a.preserveFuturePeriodMonths (a.periodMonths.getD defaultWarrantyPeriodMonths) →
      InvalidAlone "period_months"
  | brandName : ¬(∀ s ∈ normalizedText a.brandName, s.length ≤ 255) → InvalidAlone "brand_name"
  | serialNumber : ¬(∀ s ∈ normalizedText a.serialNumber, s.length ≤ 255) →
    InvalidAlone "serial_number"
  | paymentLocation : ¬(∀ s ∈ normalizedText a.paymentLocation, s.length ≤ 500) →
    InvalidAlone "payment_location"
  | category : ¬ValidCategory a.category → InvalidAlone "category"
  | subCategory : ¬(∀ s ∈ normalizedText a.subCategory, s.length ≤ 100) → InvalidAlone "sub_category"
  | memo : ¬(∀ s ∈ normalizedText a.memo, s.length ≤ 1000) → InvalidAlone "memo"
  | requiresPhysicalReceipt : ¬(a.requiresPhysicalReceipt ≠ none) →
    InvalidAlone "requires_physical_receipt"
  | receiptFileIds : ¬(∃ fileIds, a.receiptFileIds = some fileIds ∧ ValidFiles fileIds) →
    InvalidAlone "receipt_file_ids"

/-- The explicit day the warranty expires on is before the day of a valid payment. -/
def ExpiresBeforePayment : Prop :=
  ∃ p e, a.paymentDate = some p ∧ today.before p = false ∧ a.expiresOn = some e ∧ e.before p = true

/-- An argument that is invalid, by the name of its field. -/
def Invalid (name : String) : Prop :=
  a.InvalidAlone today name ∨ name = "expires_on" ∧ a.ExpiresBeforePayment today

/-- The day the warranty expires on is derived, and after the last year of the calendar. -/
def ExpiresAfterCalendar : Prop :=
  a.expiresOn = none ∧ ∃ p, a.paymentDate = some p ∧
    9999 < p.year + (p.month - 1 + a.periodMonths.getD defaultWarrantyPeriodMonths) / 12

end

variable {a : ReceiptArguments} {today : Date}

/-- The fields that a creation collects are those that are invalid on their own. -/
theorem mem_details (name : String) : name ∈ (a.details today).map (·.field) ↔
    a.InvalidAlone today name := by
  have htext (value : Option String) (fieldName label : String) (maxLength : ℕ) :=
    (checks_optionalText value fieldName label maxLength).mem_fields
      (namesField_optionalText value fieldName label maxLength)
      name
  have hamount := checks_mapM (checks_amount a.preserveLegacyTotalAmount) a.totalAmount
  have hperiod :=
    checks_period a.preserveFuturePeriodMonths (a.periodMonths.getD defaultWarrantyPeriodMonths)
  have hcategory := checks_optionalCategory a.category
  simp only [details, List.map_append, List.mem_append, newBrandName, newSerialNumber,
    newPaymentLocation, newSubCategory, newMemo, htext, newTotalAmount,
    hamount.1.mem_fields hamount.2, newPeriodMonths, hperiod.1.mem_fields hperiod.2,
    newCategory, hcategory.1.mem_fields hcategory.2, newItemName,
    (checks_requiredItemName a.itemName).mem_fields (namesField_requiredItemName _), newPaymentDate,
    (checks_requiredPaymentDate a.paymentDate today today).mem_fields
      (namesField_requiredPaymentDate _ _),
    newRequiresPhysicalReceipt,
    (checks_requiredBool a.requiresPhysicalReceipt _ _ false).mem_fields
      (namesField_requiredBool _ _ _), newFileReferences,
    (checks_requiredFileReferences a.receiptFileIds []).mem_fields
      (namesField_requiredFileReferences _)]
  constructor
  · rintro (((((((((((⟨rfl, h⟩ | ⟨rfl, h⟩) | ⟨rfl, h⟩) | ⟨rfl, h⟩) | ⟨rfl, h⟩) | ⟨rfl, h⟩)
      | ⟨rfl, h⟩) | ⟨rfl, h⟩) |
      ⟨rfl, h⟩) | ⟨rfl, h⟩) | ⟨rfl, h⟩) | ⟨rfl, h⟩)
    exacts [.itemName h, .paymentDate h, .totalAmount h, .periodMonths h, .brandName h,
      .serialNumber h, .paymentLocation h, .category h, .subCategory h, .memo h,
      .requiresPhysicalReceipt h, .receiptFileIds h]
  · intro h
    cases h with
    | itemName h | paymentDate h | totalAmount h | periodMonths h | brandName h | serialNumber h
      | paymentLocation h
      | category h | subCategory h | memo h | requiresPhysicalReceipt h | receiptFileIds h =>
      simp only [h, not_false_eq_true, and_self, true_or, or_true]

/-- The checks all pass if no argument is invalid on its own. -/
theorem exists_build (newId : UUID) (h : ∀ name, ¬a.InvalidAlone today name) :
    ∃ result, a.build today newId = .ok result := by
  have hvalid {p : Prop} {name : String} (hinvalid : ¬p → a.InvalidAlone today name) : p :=
    by_contra fun hp => h name (hinvalid hp)
  have htext (value : Option String) (fieldName label : String) {maxLength : ℕ} :=
    (checks_optionalText value fieldName label maxLength).complete
  obtain ⟨_, h₁⟩ := (checks_requiredItemName a.itemName).complete (hvalid .itemName)
  obtain ⟨_, h₂⟩ :=
    (checks_requiredPaymentDate a.paymentDate today today).complete (hvalid .paymentDate)
  obtain ⟨_, h₃⟩ := (checks_mapM (checks_amount _) a.totalAmount).1.complete (hvalid .totalAmount)
  obtain ⟨_, h₄⟩ := (checks_period _ _).1.complete (hvalid .periodMonths)
  obtain ⟨_, h₅⟩ := htext a.brandName "brand_name" "브랜드명" (hvalid .brandName)
  obtain ⟨_, h₆⟩ := htext a.serialNumber "serial_number" "시리얼 넘버" (hvalid .serialNumber)
  obtain ⟨_, h₇⟩ := htext a.paymentLocation "payment_location" "구매처" (hvalid .paymentLocation)
  obtain ⟨_, h₈⟩ := (checks_optionalCategory a.category).1.complete (hvalid .category)
  obtain ⟨_, h₉⟩ := htext a.subCategory "sub_category" "소분류 카테고리" (hvalid .subCategory)
  obtain ⟨_, h₁₀⟩ := htext a.memo "memo" "메모" (hvalid .memo)
  obtain ⟨_, h₁₁⟩ :=
    (checks_requiredBool a.requiresPhysicalReceipt "requires_physical_receipt" "실물 영수증 보관 필요 여부"
    false).complete (hvalid .requiresPhysicalReceipt)
  obtain ⟨_, h₁₂⟩ :=
    (checks_requiredFileReferences a.receiptFileIds []).complete (hvalid .receiptFileIds)
  rw [build, newItemName, h₁, newPaymentDate, h₂, newTotalAmount, h₃, newPeriodMonths, h₄,
    newBrandName, h₅, newSerialNumber, h₆, newPaymentLocation, h₇, newCategory, h₈, newSubCategory,
    h₉, newMemo, h₁₀,
    newRequiresPhysicalReceipt, h₁₁, newFileReferences, h₁₂]
  exact ⟨_, rfl⟩

/-- If the checks all pass, no argument is invalid on its own, and the day the warranty expires on
    is what is left. -/
theorem build_ok {newId : UUID} {result : Except DomainError Receipt}
    (h : a.build today newId = .ok result) :
    (∀ name, ¬a.InvalidAlone today name) ∧ ∃ p receipt, a.paymentDate = some p ∧
    today.before p = false ∧
      1 ≤ a.periodMonths.getD defaultWarrantyPeriodMonths ∧
      result = (resolveExpiresOn a.expiresOn p
        (a.periodMonths.getD defaultWarrantyPeriodMonths)).map receipt := by
  simp only [build, except_bind_eq_ok, pure, Except.pure, Except.ok.injEq] at h
  obtain ⟨_, h₁, p, h₂, _, h₃, m, h₄, _, h₅, _, h₆, _, h₇, _, h₈, _, h₉, _, h₁₀, _, h₁₁, _,
    h₁₂, rfl⟩ := h
  have hdetails : a.details today = [] := by
    simp only [details, h₁, h₂, h₃, h₄, h₅, h₆, h₇, h₈, h₉, h₁₀, h₁₁, h₁₂, Validated.details,
      List.append_nil]
  refine ⟨fun name hname => ?_, ?_⟩
  · rw [← mem_details, hdetails] at hname
    cases hname
  · obtain ⟨⟨p', hp, hpast⟩, hp'⟩ := (checks_requiredPaymentDate a.paymentDate today today).sound p h₂
    rw [hp, Option.getD_some, id] at hp'
    subst hp'
    rw [← ((checks_period _ _).1.sound m h₄).2]
    exact ⟨p, _, hp, hpast, m.le_value, rfl⟩

end ReceiptArguments

/-! ## What a creation reports -/

/-- The fields of a receipt are the arguments it is created with, normalised. -/
structure Receipt.Normalised (a : ReceiptArguments) (newId : UUID) (r : Receipt) : Prop where
  id : r.id = a.receiptId.getD newId
  userId : r.userId = a.userId
  itemName : r.itemName.value = strip (a.itemName.getD "")
  paymentDate : a.paymentDate = some r.paymentDate
  totalAmount : r.totalAmount.map (·.value) = a.totalAmount
  periodMonths : r.periodMonths.value = a.periodMonths.getD defaultWarrantyPeriodMonths
  brandName : r.brandName = normalizedText a.brandName
  serialNumber : r.serialNumber = normalizedText a.serialNumber
  paymentLocation : r.paymentLocation = normalizedText a.paymentLocation
  category : r.category = normalizedCategory a.category
  subCategory : r.subCategory = normalizedText a.subCategory
  memo : r.memo = normalizedText a.memo
  requiresPhysicalReceipt : a.requiresPhysicalReceipt = some r.requiresPhysicalReceipt
  receiptFileIds : a.receiptFileIds = some r.receiptFileIds.value
  expiresOn : a.expiresOn = some r.expiresOn ∨
    a.expiresOn = none ∧ r.paymentDate.addMonths r.periodMonths.value = .ok r.expiresOn

/-- A creation reports exactly what is invalid, and otherwise returns the normalised arguments. -/
def Reports (a : ReceiptArguments) (today : Date) (newId : UUID) : Prop :=
  match Receipt.create a today newId with
  | .error (.validation details) =>
    (∃ name, a.Invalid today name) ∧ ∀ name, name ∈ details.map (·.field) ↔ a.Invalid today name
  | .error _ => False
  | .ok receipt => (∀ name, ¬a.Invalid today name) ∧ receipt.Normalised a newId

theorem Receipt.Created.normalised {a : ReceiptArguments} {today : Date} {newId : UUID} {r : Receipt}
    (h : r.Created a today newId) : r.Normalised a newId := by
  have htext {value r : Option String} {fieldName label : String} {maxLength : ℕ}
      (h : optionalText value fieldName label maxLength = .ok r) : r = normalizedText value :=
    ((checks_optionalText value fieldName label maxLength).sound r h).2
  obtain ⟨⟨p, hp, -⟩, hp'⟩ :=
    (checks_requiredPaymentDate a.paymentDate today today).sound _ h.paymentDate
  obtain ⟨hbool, hbool'⟩ :=
    (checks_requiredBool a.requiresPhysicalReceipt _ _ false).sound _ h.requiresPhysicalReceipt
  obtain ⟨⟨fileIds, hfiles, -⟩, hfiles'⟩ :=
    (checks_requiredFileReferences a.receiptFileIds []).sound _ h.receiptFileIds
  exact {
    id := h.id
    userId := h.userId
    itemName := ((checks_requiredItemName a.itemName).sound _ h.itemName).2
    paymentDate := by
      rw [hp, Option.getD_some] at hp'
      rw [hp, ← hp']
      rfl
    totalAmount := by
      simpa using ((checks_mapM (checks_amount _) a.totalAmount).1.sound _ h.totalAmount).2
    periodMonths := ((checks_period _ _).1.sound _ h.periodMonths).2
    brandName := htext h.brandName
    serialNumber := htext h.serialNumber
    paymentLocation := htext h.paymentLocation
    category := ((checks_optionalCategory a.category).1.sound _ h.category).2
    subCategory := htext h.subCategory
    memo := htext h.memo
    requiresPhysicalReceipt := by
      obtain ⟨b, hb⟩ := Option.ne_none_iff_exists'.1 hbool
      rw [hb, Option.getD_some] at hbool'
      rw [hb, ← hbool']
      rfl
    receiptFileIds := by
      rw [hfiles, Option.getD_some] at hfiles'
      rw [hfiles, ← hfiles']
    expiresOn := by
      have hexpires := h.expiresOn
      unfold resolveExpiresOn at hexpires
      split at hexpires
      · next hnone => exact .inr ⟨hnone, hexpires⟩
      · next e hsome =>
        split at hexpires
        · cases hexpires
        · cases hexpires
          exact .inl hsome }

/-- `expires_on` is not among the fields that are checked on their own. -/
theorem ReceiptArguments.InvalidAlone.ne_expiresOn {a : ReceiptArguments} {today : Date}
    {name : String} (h : a.InvalidAlone today name) : name ≠ "expires_on" := by
  cases h <;> decide

/-- A creation reports everything if the explicit day the warranty expires on is valid or all that
    is invalid, and a derived one of valid arguments is in the calendar. -/
theorem create_reports (a : ReceiptArguments) (today : Date) (newId : UUID) :
    Reports a today newId ↔ (a.ExpiresBeforePayment today → ∀ name, ¬a.InvalidAlone today name) ∧
      ((∀ name, ¬a.Invalid today name) → ¬a.ExpiresAfterCalendar) := by
  rcases hbuild : a.build today newId with errors | result
  · have hcreate : Receipt.create a today newId = .error (.validation (a.details today)) := by
      simp only [Receipt.create, hbuild]
    obtain ⟨bad, hbad⟩ : ∃ name, a.InvalidAlone today name := by
      by_contra hnone
      obtain ⟨result, hresult⟩ := a.exists_build newId (not_exists.1 hnone)
      rw [hbuild] at hresult
      cases hresult
    rw [Reports, hcreate]
    simp only [ReceiptArguments.mem_details]
    constructor
    · rintro ⟨-, hall⟩
      exact ⟨fun hexpires => absurd rfl ((hall "expires_on").2 (.inr ⟨rfl, hexpires⟩)).ne_expiresOn,
        fun hnone => absurd (.inl hbad) (hnone bad)⟩
    · rintro ⟨hexpires, -⟩
      refine ⟨⟨bad, .inl hbad⟩, fun name => ⟨.inl, ?_⟩⟩
      rintro (h | ⟨-, h⟩)
      · exact h
      · exact absurd hbad (hexpires h bad)
  · obtain ⟨hvalid, p, receipt, hp, hpast, hmonths, hresult⟩ := ReceiptArguments.build_ok hbuild
    have hcreate : Receipt.create a today newId = result := by
      simp only [Receipt.create, hbuild]
    -- What is created, is created from normalised arguments.
    have hok (e : Date) (he : result = .ok (receipt e)) : (receipt e).Normalised a newId :=
      (Receipt.create_eq_ok.1 (hcreate.trans he)).normalised
    have hbefore : a.ExpiresBeforePayment today ↔ ∃ e, a.expiresOn = some e ∧ e.before p = true := by
      simp only [ReceiptArguments.ExpiresBeforePayment, hp, Option.some.injEq]
      constructor
      · rintro ⟨_, e, rfl, -, he⟩
        exact ⟨e, he⟩
      · rintro ⟨e, he⟩
        exact ⟨p, e, rfl, hpast, he⟩
    rw [Reports, hcreate, hresult]
    simp only [ReceiptArguments.Invalid, hvalid, false_or, not_false_eq_true, implies_true, true_and]
    rcases hexpires : a.expiresOn with - | e
    · have hnot : ¬a.ExpiresBeforePayment today := by simp [hbefore, hexpires]
      have hcalendar := @Date.exists_addMonths_iff p _ hmonths
      simp only [hnot, and_false, not_false_eq_true, implies_true, forall_const,
        ReceiptArguments.ExpiresAfterCalendar, hexpires, hp, Option.some.injEq, true_and,
        exists_eq_left', not_lt, ← hcalendar, resolveExpiresOn,
        addMonths]
      rcases hadd : p.addMonths (a.periodMonths.getD defaultWarrantyPeriodMonths) with error | e
      · rw [Date.addMonths_error hadd]
        simp [Except.map]
      · have hnormalised := hok e (by rw [hresult, hexpires, resolveExpiresOn, addMonths, hadd]; rfl)
        simp [Except.map, hnormalised]
    · simp only [ReceiptArguments.ExpiresAfterCalendar, hexpires, reduceCtorEq, false_and,
        not_false_eq_true, implies_true, iff_true, resolveExpiresOn]
      by_cases he : e.before p = true
      · have hbad : a.ExpiresBeforePayment today := hbefore.2 ⟨e, hexpires, he⟩
        simp [Except.map, he, hbad]
      · have hnot : ¬a.ExpiresBeforePayment today := by simp [hbefore, hexpires, he]
        have hnormalised := hok e (by rw [hresult, hexpires, resolveExpiresOn, if_neg he]; rfl)
        simp [Except.map, he, hnormalised, hnot]

/-- The arguments of a receipt without a name, whose warranty expires before its payment. -/
def unnamedArguments : ReceiptArguments where
  userId := .ofNat 1
  itemName := none
  paymentDate := some ⟨2026, 9, 10, by decide⟩
  expiresOn := some ⟨2026, 9, 9, by decide⟩
  receiptFileIds := some [.ofNat 2]

/-- The name is reported, and the day the warranty expires on is not. -/
theorem create_not_reports : ¬Reports unnamedArguments ⟨2026, 9, 11, by decide⟩ (.ofNat 3) := by
  intro h
  have hexpires : unnamedArguments.ExpiresBeforePayment ⟨2026, 9, 11, by decide⟩ :=
    ⟨_, _, rfl, by decide, rfl, by decide⟩
  have hcreate : Receipt.create unnamedArguments ⟨2026, 9, 11, by decide⟩ (.ofNat 3) =
      .error (.validation [⟨"item_name", "제품명은 필수입니다."⟩]) := by decide +kernel
  rw [Reports, hcreate] at h
  have hname := (h.2 "expires_on").2 (.inr ⟨rfl, hexpires⟩)
  simp at hname

end Boat.Receipts
