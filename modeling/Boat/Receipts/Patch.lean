import Boat.Receipts.Alone
import Boat.Text.Strip

/-!
# Receipts: the frame of an update

An update creates the whole receipt anew, from what is stored and what its command lists. Each stored
value passes the checks that it has to pass again, so that only the listed fields and the day the
warranty expires on decide whether the update succeeds, and the others keep their values
(`patch_frame`).
-/

namespace Boat.Receipts

open ReadCommitted SqlAlchemyReceiptRepository

/-! ## Checks -/

/-- A check accepts exactly what is valid, and what it accepts has a value. -/
structure Checks {α β : Type} (check : Validated α) (val : α → β) (valid : Prop)
    (value : β) : Prop where
  sound : ∀ a, check = .ok a → valid ∧ val a = value
  complete : valid → ∃ a, check = .ok a

namespace Checks

variable {α β : Type} {check : Validated α} {val : α → β} {valid : Prop} {value : β}

theorem of_ok {a : α} (h : check = .ok a) (hvalid : valid)
    (hvalue : val a = value) : Checks check val valid value := by
  refine ⟨fun b hb => ?_, fun _ => ⟨a, h⟩⟩
  rw [h] at hb
  cases hb
  exact ⟨hvalid, hvalue⟩

theorem of_error {details : List ErrorDetail} (h : check = .error details) (hnot : ¬valid) :
    Checks check val valid value := by
  refine ⟨fun a ha => ?_, fun hvalid => absurd hvalid hnot⟩
  rw [h] at ha
  cases ha

end Checks

theorem Checks.of_valid {α β : Type} {check : Validated α} {val : α → β} {valid : Prop} {value : β}
    (h : Checks check val valid value) (hvalid : valid) : Checks check val True value :=
  ⟨fun a ha => ⟨trivial, (h.sound a ha).2⟩, fun _ => h.complete hvalid⟩

/-- A field is checked if it is listed, and keeps its value if it is not. -/
theorem Checks.updated {α β γ : Type} {c : UpdateReceiptCommand} {field : ReceiptField}
    (check : γ → Validated α) {val : α → β} {valid : Prop} {given stored : γ} {new old : β}
    (hgiven : Checks (check given) val valid new) (hstored : Checks (check stored) val True old) :
    Checks (check (c.updatedValue field given stored)) val (field ∈ c.updatedFields → valid)
      (c.updatedValue field new old) := by
  by_cases h : field ∈ c.updatedFields
  · simpa only [UpdateReceiptCommand.updatedValue, h, if_true, forall_const] using hgiven
  · simpa only [UpdateReceiptCommand.updatedValue, h, if_false, false_implies] using hstored

/-- A text without white space around it, which fits its column. -/
def StoredText (maxLength : ℕ) (s : String) : Prop :=
  strip s = s ∧ s ≠ "" ∧ s.length ≤ maxLength ∧ sendable s = true

instance (maxLength : ℕ) (s : String) : Decidable (StoredText maxLength s) :=
  inferInstanceAs (Decidable (_ ∧ _ ∧ _ ∧ _))

/-- An optional text, normalised. -/
def normalizedText (value : Option String) : Option String := (value.map strip).filter (· ≠ "")

theorem normalizedText_stored {maxLength : ℕ} {value : Option String}
    (h : ∀ s ∈ value, StoredText maxLength s) :
    normalizedText value = value := by
  rcases value with - | s
  · rfl
  · obtain ⟨hstrip, hne, -⟩ := h s rfl
    simp [normalizedText, hstrip, hne]

theorem checks_optionalText (value : Option String) (fieldName label : String) (maxLength : ℕ) :
    Checks (optionalText value fieldName label maxLength) id
      (∀ s ∈ normalizedText value, s.length ≤ maxLength)
      (normalizedText value) := by
  rcases value with - | s
  · exact .of_ok rfl (by simp [normalizedText]) rfl
  · by_cases hblank : strip s = ""
    · have hnormal : normalizedText (some s) = none := by simp [normalizedText, hblank]
      rw [hnormal]
      exact .of_ok (if_pos hblank) nofun rfl
    · have hnormal : normalizedText (some s) = some (strip s) := by simp [normalizedText, hblank]
      rw [hnormal]
      simp only [optionalText, if_neg hblank, Option.mem_some_iff, forall_eq']
      split
      · next hlong => exact .of_error rfl (Nat.not_le_of_lt hlong)
      · next hfits => exact .of_ok rfl (Nat.le_of_not_lt hfits) rfl

/-- A text of an update is checked, or has been stored. -/
theorem checks_text (c : UpdateReceiptCommand) (field : ReceiptField) (given : Option String)
    {stored : Option String} {maxLength : ℕ} (h : ∀ s ∈ stored, StoredText maxLength s)
    (fieldName label : String) :
    Checks (optionalText (c.updatedValue field given stored) fieldName label maxLength) id
      (field ∈ c.updatedFields → ∀ s ∈ normalizedText given, s.length ≤ maxLength)
      (c.updatedValue field (normalizedText given) stored) := by
  have hstored := checks_optionalText stored fieldName label maxLength
  rw [normalizedText_stored h] at hstored
  exact .updated (optionalText · fieldName label maxLength)
    (checks_optionalText given fieldName label maxLength)
    (hstored.of_valid fun s hs => (h s hs).2.2.1)

theorem checks_requiredItemName (value : Option String) :
    Checks (requiredItemName value) (·.value)
      (strip (value.getD "") ≠ "" ∧ (strip (value.getD "")).length ≤ 255)
      (strip (value.getD "")) := by
  rcases value with - | s
  · exact .of_error rfl fun h => h.1 (by decide)
  · simp only [requiredItemName, ItemName.create, strip_strip, Option.getD_some]
    split
    · next h => exact .of_error rfl fun hvalid => hvalid.1 h
    split
    · next hlong => exact .of_error rfl fun hvalid => Nat.not_le_of_lt hlong hvalid.2
    · next h hfits => exact .of_ok rfl ⟨h, Nat.le_of_not_lt hfits⟩ rfl

theorem checks_requiredPaymentDate (value : Option Date) (today old : Date) :
    Checks (requiredPaymentDate value today) id (∃ p, value = some p ∧ today.before p = false)
      (value.getD old) := by
  rcases value with - | p
  · exact .of_error rfl nofun
  · simp only [requiredPaymentDate, PaymentDate.create, Option.getD_some, Option.some.injEq,
      exists_eq_left']
    split
    · next h => exact .of_error rfl fun hnot => Bool.false_ne_true (hnot.symm.trans h)
    · next h => exact .of_ok rfl (Bool.eq_false_iff.2 h) rfl

theorem checks_requiredBool (value : Option Bool) (fieldName label : String) (old : Bool) :
    Checks (requiredBool value fieldName label) id (value ≠ none) (value.getD old) := by
  rcases value with - | b
  · exact .of_error rfl fun h => h rfl
  · exact .of_ok rfl nofun rfl

/-- What files a receipt may have. -/
def ValidFiles (fileIds : List UUID) : Prop := 1 ≤ fileIds.length ∧ fileIds.length ≤ 5 ∧ fileIds.Nodup

instance (fileIds : List UUID) : Decidable (ValidFiles fileIds) :=
  inferInstanceAs (Decidable (_ ∧ _ ∧ _))

theorem checks_requiredFileReferences (value : Option (List UUID)) (old : List UUID) :
    Checks (requiredFileReferences value) (·.value)
      (∃ fileIds, value = some fileIds ∧ ValidFiles fileIds)
      (value.getD old) := by
  rcases value with - | fileIds
  · exact .of_error rfl nofun
  · simp only [requiredFileReferences, ReceiptFileReferences.create, Option.getD_some,
      Option.some.injEq, exists_eq_left']
    split
    · next h => exact .of_error rfl fun hvalid => Nat.not_le_of_lt h hvalid.1
    split
    · next h => exact .of_error rfl fun hvalid => Nat.not_le_of_lt h hvalid.2.1
    split
    · next hmin hmax h => exact .of_ok rfl ⟨Nat.le_of_not_lt hmin, Nat.le_of_not_lt hmax, h⟩ rfl
    · next h => exact .of_error rfl fun hvalid => h hvalid.2.2

/-! ## Stored receipts -/

/-- A receipt as it is stored: its columns and files are what the tables allow and `Receipt.create`
    leaves, under the limits of amounts and periods of the tables. -/
structure Stored (r : ReceiptRecord) (fileIds : List UUID) (today : Date) : Prop where
  itemName : StoredText 255 r.itemName
  brandName : ∀ s ∈ r.brandName, StoredText 255 s
  serialNumber : ∀ s ∈ r.serialNumber, StoredText 255 s
  paymentLocation : ∀ s ∈ r.paymentLocation, StoredText 500 s
  subCategory : ∀ s ∈ r.subCategory, StoredText 100 s
  memo : ∀ s ∈ r.memo, StoredText 1000 s
  paymentDate : today.before r.paymentDate = false
  expiresOn : r.expiresOn.before r.paymentDate = false
  totalAmount : ∀ x ∈ r.totalAmount, 0 ≤ x
  periodMonths : 1 ≤ r.periodMonths ∧ r.periodMonths ≤ 120
  fileIds : ValidFiles fileIds

theorem Stored.sendable {r : ReceiptRecord} {fileIds : List UUID} {today : Date}
    (hs : Stored r fileIds today) : r.Sendable := by
  have htext {value : Option String} {maxLength : ℕ} (h : ∀ s ∈ value, StoredText maxLength s) :
      value.all Boat.sendable = true :=
    (Option.all_eq_true _ _).2 fun s hs => (h s hs).2.2.2
  simp only [ReceiptRecord.Sendable, ReceiptRecord.texts, List.forall_mem_cons]
  exact ⟨hs.itemName.2.2.2, htext hs.brandName, htext hs.serialNumber, htext hs.paymentLocation,
    htext hs.subCategory, htext hs.memo, nofun⟩

namespace UpdateReceiptCommand

section

variable (c : UpdateReceiptCommand) (r : ReceiptRecord)

/-! The value of each field after an update: the listed one, normalised, or the stored one. -/

def newItemName : String := c.updatedValue .itemName (strip (c.itemName.getD "")) r.itemName

def newPaymentDate : Date :=
  c.updatedValue .paymentDate (c.paymentDate.getD r.paymentDate) r.paymentDate

def newPeriodMonths : ℤ :=
  c.updatedValue .periodMonths (c.periodMonths.getD r.periodMonths) r.periodMonths

def newFileIds (fileIds : List UUID) : List UUID :=
  c.updatedValue .receiptFileIds (c.receiptFileIds.getD fileIds) fileIds

/-- The record after an update, with the day the warranty expires on. -/
def patch (expiresOn : Date) : ReceiptRecord :=
  { r with
    itemName := c.newItemName r
    brandName := c.updatedValue .brandName (normalizedText c.brandName) r.brandName
    serialNumber := c.updatedValue .serialNumber (normalizedText c.serialNumber) r.serialNumber
    paymentLocation :=
      c.updatedValue .paymentLocation (normalizedText c.paymentLocation) r.paymentLocation
    paymentDate := c.newPaymentDate r
    totalAmount := c.updatedValue .totalAmount c.totalAmount r.totalAmount
    periodMonths := c.newPeriodMonths r
    expiresOn := expiresOn
    category := c.updatedValue .category c.category r.category
    subCategory := c.updatedValue .subCategory (normalizedText c.subCategory) r.subCategory
    memo := c.updatedValue .memo (normalizedText c.memo) r.memo
    requiresPhysicalReceipt :=
      c.updatedValue .requiresPhysicalReceipt
        (c.requiresPhysicalReceipt.getD r.requiresPhysicalReceipt)
        r.requiresPhysicalReceipt }

/-- The fields that a command lists are valid. -/
structure Valid (today : Date) : Prop where
  itemName : .itemName ∈ c.updatedFields → strip (c.itemName.getD "") ≠ "" ∧
    (strip (c.itemName.getD "")).length ≤ 255
  brandName : .brandName ∈ c.updatedFields → ∀ s ∈ normalizedText c.brandName, s.length ≤ 255
  serialNumber : .serialNumber ∈ c.updatedFields → ∀ s ∈ normalizedText c.serialNumber, s.length ≤ 255
  paymentLocation : .paymentLocation ∈ c.updatedFields →
    ∀ s ∈ normalizedText c.paymentLocation, s.length ≤ 500
  paymentDate : .paymentDate ∈ c.updatedFields → ∃ p, c.paymentDate = some p ∧ today.before p = false
  totalAmount : .totalAmount ∈ c.updatedFields → ∀ x ∈ c.totalAmount, 0 ≤ x ∧
    x ≤ TotalAmount.maxAmount
  periodMonths : .periodMonths ∈ c.updatedFields → ∃ m, c.periodMonths = some m ∧ 1 ≤ m ∧
    m ≤ WarrantyPeriodMonths.maxMonths
  subCategory : .subCategory ∈ c.updatedFields → ∀ s ∈ normalizedText c.subCategory, s.length ≤ 100
  memo : .memo ∈ c.updatedFields → ∀ s ∈ normalizedText c.memo, s.length ≤ 1000
  requiresPhysicalReceipt : .requiresPhysicalReceipt ∈ c.updatedFields →
    c.requiresPhysicalReceipt ≠ none
  receiptFileIds : .receiptFileIds ∈ c.updatedFields → ∃ fileIds, c.receiptFileIds = some fileIds ∧
    ValidFiles fileIds

/-- The texts that are listed, normalised. -/
def listedTexts : List (Option String) :=
  [(ReceiptField.itemName, c.itemName), (.brandName, c.brandName), (.serialNumber, c.serialNumber),
    (.paymentLocation, c.paymentLocation), (.subCategory, c.subCategory), (.memo, c.memo)].map
      fun p => c.updatedValue p.1 (normalizedText p.2) none

/-- The database takes them. -/
def Sendable : Prop := ∀ text ∈ c.listedTexts, text.all sendable = true

instance : Decidable c.Sendable := inferInstanceAs (Decidable (∀ text ∈ c.listedTexts, _))

/-- The day the warranty expires on after an update. -/
inductive Expires : Date → Prop
  /-- It is listed, and is not before the payment. -/
  | explicit {e : Date} : .expiresOn ∈ c.updatedFields → c.expiresOn = some e →
    e.before (c.newPaymentDate r) = false →
      Expires e
  /-- It is listed as null. -/
  | cleared {e : Date} : .expiresOn ∈ c.updatedFields → c.expiresOn = none →
      (c.newPaymentDate r).addMonths (c.newPeriodMonths r) = .ok e → Expires e
  /-- What it depends on has changed. -/
  | derived {e : Date} : .expiresOn ∉ c.updatedFields →
      c.newPaymentDate r ≠ r.paymentDate ∨ c.newPeriodMonths r ≠ r.periodMonths →
      (c.newPaymentDate r).addMonths (c.newPeriodMonths r) = .ok e → Expires e
  | kept : .expiresOn ∉ c.updatedFields → c.newPaymentDate r = r.paymentDate →
    c.newPeriodMonths r = r.periodMonths →
      Expires r.expiresOn

end

variable {c : UpdateReceiptCommand} {r : ReceiptRecord} {fileIds : List UUID} {today : Date}

/-! ## The texts of an update -/

/-- A text of an update is listed, or has been stored. -/
theorem all_updatedValue {field : ReceiptField} {given stored : Option String} {p : String → Bool}
    (hstored : stored.all p = true) :
    (c.updatedValue field given stored).all p = (c.updatedValue field given none).all p := by
  rw [updatedValue, updatedValue]
  split
  · rfl
  · exact hstored

/-- The name is listed as a text, unless it is empty. -/
theorem all_newItemName (p : String → Bool) (hempty : p "" = true) (hr : p r.itemName = true) :
    p (c.newItemName r) = (c.updatedValue .itemName (normalizedText c.itemName) none).all p := by
  rw [newItemName, updatedValue, updatedValue]
  split
  · rcases c.itemName with - | s
    · exact hempty
    · by_cases h : strip s = ""
      · simp [normalizedText, h, hempty]
      · simp [normalizedText, h]
  · exact hr

/-- The database takes the row after an update, if it takes the texts that are listed. -/
theorem sendable_patch (hr : r.Sendable) (e : Date) : (c.patch r e).Sendable ↔ c.Sendable := by
  simp only [ReceiptRecord.Sendable, ReceiptRecord.texts, List.forall_mem_cons, List.not_mem_nil,
    false_implies, implies_true, and_true, Option.all_some] at hr
  obtain ⟨hname, hbrand, hserial, hlocation, hsub, hmemo⟩ := hr
  simp only [ReceiptRecord.Sendable, ReceiptRecord.texts, Sendable, listedTexts, List.map_cons,
    List.map_nil, List.forall_mem_cons, patch, Option.all_some,
    all_newItemName Boat.sendable (by decide) hname,
    all_updatedValue hbrand, all_updatedValue hserial, all_updatedValue hlocation,
      all_updatedValue hsub,
    all_updatedValue hmemo]

/-! ## The checks of an update -/

theorem checks_totalAmount (hs : Stored r fileIds today) (m : ℤ) :
    Checks (c.arguments (recordToReadModel r fileIds) m).newTotalAmount (Option.map (·.value))
      (.totalAmount ∈ c.updatedFields → ∀ x ∈ c.totalAmount, 0 ≤ x ∧ x ≤ TotalAmount.maxAmount)
      (c.updatedValue .totalAmount c.totalAmount r.totalAmount) := by
  by_cases h : ReceiptField.totalAmount ∈ c.updatedFields
  · simp only [ReceiptArguments.newTotalAmount, arguments, updatedValue, h, if_true, forall_const,
      not_true_eq_false, decide_false, Bool.false_and, Bool.false_eq_true, if_false]
    rcases c.totalAmount with - | x
    · exact .of_ok rfl nofun rfl
    · by_cases hx : 0 ≤ x ∧ x ≤ TotalAmount.maxAmount
      · refine .of_ok (a := some ⟨x, hx.1⟩) ?_ (by simpa using hx) rfl
        simp only [Option.mapM_some, TotalAmount.create, dif_pos hx]
        rfl
      · obtain ⟨details, herror⟩ : ∃ details, TotalAmount.create x = .error details := ⟨_, dif_neg hx⟩
        have hcheck : (some x).mapM TotalAmount.create = .error details := by
          rw [Option.mapM_some, herror]
          rfl
        exact .of_error hcheck (by simpa using hx)
  · -- The stored amount is restored under whichever limit it satisfies.
    simp only [ReceiptArguments.newTotalAmount, arguments, updatedValue, h, if_false,
      not_false_eq_true, decide_true, Bool.true_and, false_implies, recordToReadModel]
    rcases hr : r.totalAmount with - | x
    · exact .of_ok rfl trivial rfl
    · have hx : 0 ≤ x := hs.totalAmount x hr
      refine .of_ok (a := some ⟨x, hx⟩) ?_ trivial rfl
      have hcheck :
        (if (some x).any (TotalAmount.maxAmount < ·) = true then TotalAmount.restoreGrandfathered x
          else TotalAmount.create x) = .ok ⟨x, hx⟩ := by
        split
        · exact TotalAmount.restoreGrandfathered_eq ⟨x, hx⟩
        · next hle => exact dif_pos ⟨hx, by simpa using hle⟩
      simp only [Option.mapM_some, hcheck]
      rfl

theorem checks_periodMonths (hs : Stored r fileIds today) {m : ℤ}
    (hm : c.requiredUpdatedValue .periodMonths c.periodMonths r.periodMonths "무상 AS 기간" = .ok m) :
    Checks (c.arguments (recordToReadModel r fileIds) m).newPeriodMonths (·.value)
      (.periodMonths ∈ c.updatedFields → ∃ m, c.periodMonths = some m ∧ 1 ≤ m ∧
        m ≤ WarrantyPeriodMonths.maxMonths)
      (c.newPeriodMonths r) := by
  by_cases h : ReceiptField.periodMonths ∈ c.updatedFields
  · simp only [requiredUpdatedValue, h, if_true] at hm
    rcases hp : c.periodMonths with - | m'
    · simp only [hp] at hm
      cases hm
    · simp only [hp, Except.ok.injEq] at hm
      subst hm
      simp only [ReceiptArguments.newPeriodMonths, arguments, newPeriodMonths, updatedValue, h, hp,
        if_true, forall_const, not_true_eq_false, decide_false, Bool.false_and, Bool.false_eq_true,
        if_false, Option.getD_some,
        Option.some.injEq, exists_eq_left', WarrantyPeriodMonths.create]
      split
      · next hvalid => exact .of_ok rfl hvalid rfl
      · next hvalid => exact .of_error rfl hvalid
  · simp only [requiredUpdatedValue, h, if_false, Except.ok.injEq] at hm
    subst hm
    obtain ⟨hmin, -⟩ := hs.periodMonths
    simp only [ReceiptArguments.newPeriodMonths, arguments, newPeriodMonths, updatedValue, h,
      if_false, not_false_eq_true, decide_true, Bool.true_and, false_implies, recordToReadModel,
      Option.getD_some]
    refine .of_ok (a := ⟨r.periodMonths, hmin⟩) ?_ trivial rfl
    split
    · exact WarrantyPeriodMonths.restoreGrandfathered_eq ⟨r.periodMonths, hmin⟩
    · next hle => exact dif_pos ⟨hmin, not_lt.1 fun h => hle (decide_eq_true h)⟩

theorem checks_category (m : ℤ) :
    Checks (c.arguments (recordToReadModel r fileIds) m).newCategory id True
    (c.updatedValue .category c.category r.category) := by
  simp only [ReceiptArguments.newCategory, arguments, recordToReadModel]
  rcases c.updatedValue .category c.category r.category with - | category
  · exact .of_ok rfl trivial rfl
  · exact .of_ok rfl trivial rfl

/-- The payment date has changed if the new one is another one. -/
theorem paymentDateChanged_iff (hvalid : c.Valid today) :
    c.paymentDateChanged (recordToReadModel r fileIds) ↔ c.newPaymentDate r ≠ r.paymentDate := by
  by_cases h : ReceiptField.paymentDate ∈ c.updatedFields
  · obtain ⟨p, hp, -⟩ := hvalid.paymentDate h
    simp [paymentDateChanged, newPaymentDate, updatedValue, h, hp, recordToReadModel]
  · simp [paymentDateChanged, newPaymentDate, updatedValue, h]

theorem periodMonthsChanged_iff (hvalid : c.Valid today) :
    c.periodMonthsChanged (recordToReadModel r fileIds) ↔ c.newPeriodMonths r ≠ r.periodMonths := by
  by_cases h : ReceiptField.periodMonths ∈ c.updatedFields
  · obtain ⟨m, hm, -⟩ := hvalid.periodMonths h
    simp [periodMonthsChanged, newPeriodMonths, updatedValue, h, hm, recordToReadModel]
  · simp [periodMonthsChanged, newPeriodMonths, updatedValue, h]

/-- The day the warranty expires on is resolved as it should be. -/
theorem resolveExpiresOn_eq_ok (hs : Stored r fileIds today) (hvalid : c.Valid today) {e : Date} :
    resolveExpiresOn (c.resolvedExpiresOn (recordToReadModel r fileIds)) (c.newPaymentDate r)
      (c.newPeriodMonths r) = .ok e ↔
      c.Expires r e := by
  have hexplicit : ∀ e' : Date,
      resolveExpiresOn (some e') (c.newPaymentDate r) (c.newPeriodMonths r) = .ok e ↔
        e'.before (c.newPaymentDate r) = false ∧ e' = e := by
    intro e'
    rw [resolveExpiresOn]
    split
    · next h => simp [h]
    · next h => simp [h]
  -- The cases of `Expires` exclude each other.
  by_cases h : ReceiptField.expiresOn ∈ c.updatedFields
  · rw [resolvedExpiresOn, if_pos h]
    rcases hc : c.expiresOn with - | e'
    · constructor
      · exact .cleared h hc
      · rintro (⟨-, hc', -⟩ | ⟨-, -, hadd⟩ | ⟨hnot, -⟩ | ⟨hnot⟩)
        · cases hc.symm.trans hc'
        · exact hadd
        · exact absurd h hnot
        · exact absurd h hnot
    · rw [hexplicit]
      constructor
      · rintro ⟨hbefore, rfl⟩
        exact .explicit h hc hbefore
      · rintro (⟨-, hc', hbefore⟩ | ⟨-, hc', -⟩ | ⟨hnot, -⟩ | ⟨hnot⟩)
        · cases hc.symm.trans hc'
          exact ⟨hbefore, rfl⟩
        · cases hc.symm.trans hc'
        · exact absurd h hnot
        · exact absurd h hnot
  · simp only [resolvedExpiresOn, if_neg h, paymentDateChanged_iff hvalid,
      periodMonthsChanged_iff hvalid]
    split
    · next hchanged =>
      constructor
      · exact .derived h hchanged
      · rintro (⟨hpos, -⟩ | ⟨hpos, -⟩ | ⟨-, -, hadd⟩ | ⟨-, hdate, hmonths⟩)
        · exact absurd hpos h
        · exact absurd hpos h
        · exact hadd
        · rcases hchanged with hne | hne
          · exact absurd hdate hne
          · exact absurd hmonths hne
    · next hsame =>
      obtain ⟨hdate, hmonths⟩ := not_or.1 hsame
      rw [not_not] at hdate hmonths
      rw [hexplicit, hdate]
      constructor
      · rintro ⟨-, rfl⟩
        exact .kept h hdate hmonths
      · rintro (⟨hpos, -⟩ | ⟨hpos, -⟩ | ⟨-, hchanged, -⟩ | -)
        · exact absurd hpos h
        · exact absurd hpos h
        · exact absurd hchanged hsame
        · exact ⟨hs.expiresOn, rfl⟩

/-- A valid command finds a period of months. -/
theorem exists_requiredUpdatedValue (hvalid : c.Valid today) : ∃ m,
    c.requiredUpdatedValue .periodMonths c.periodMonths r.periodMonths "무상 AS 기간" = .ok m := by
  by_cases h : ReceiptField.periodMonths ∈ c.updatedFields
  · obtain ⟨m, hm, -⟩ := hvalid.periodMonths h
    exact ⟨m, by simp only [requiredUpdatedValue, if_pos h, hm]⟩
  · exact ⟨r.periodMonths, if_neg h⟩

theorem checks_itemName (hs : Stored r fileIds today) (m : ℤ) :
    Checks (c.arguments (recordToReadModel r fileIds) m).newItemName (·.value)
      (.itemName ∈ c.updatedFields → strip (c.itemName.getD "") ≠ "" ∧
        (strip (c.itemName.getD "")).length ≤ 255)
      (c.newItemName r) := by
  obtain ⟨hstrip, hne, hlength, -⟩ := hs.itemName
  have hstored := checks_requiredItemName (some r.itemName)
  simp only [Option.getD_some, hstrip] at hstored
  exact .updated requiredItemName (checks_requiredItemName c.itemName)
    (hstored.of_valid ⟨hne, hlength⟩)

theorem checks_paymentDate (hs : Stored r fileIds today) (m : ℤ) :
    Checks ((c.arguments (recordToReadModel r fileIds) m).newPaymentDate today) id
      (.paymentDate ∈ c.updatedFields → ∃ p, c.paymentDate = some p ∧ today.before p = false)
        (c.newPaymentDate r) := by
  have hstored := checks_requiredPaymentDate (some r.paymentDate) today r.paymentDate
  exact .updated (requiredPaymentDate · today)
    (checks_requiredPaymentDate c.paymentDate today r.paymentDate)
    (hstored.of_valid ⟨r.paymentDate, rfl, hs.paymentDate⟩)

theorem checks_requiresPhysicalReceipt (m : ℤ) :
    Checks (c.arguments (recordToReadModel r fileIds) m).newRequiresPhysicalReceipt id
      (.requiresPhysicalReceipt ∈ c.updatedFields → c.requiresPhysicalReceipt ≠ none)
      (c.updatedValue .requiresPhysicalReceipt
        (c.requiresPhysicalReceipt.getD r.requiresPhysicalReceipt)
        r.requiresPhysicalReceipt) := by
  have hcheck := fun value =>
    checks_requiredBool value "requires_physical_receipt" "실물 영수증 보관 필요 여부" r.requiresPhysicalReceipt
  exact .updated (requiredBool · "requires_physical_receipt" "실물 영수증 보관 필요 여부")
    (hcheck c.requiresPhysicalReceipt) ((hcheck (some r.requiresPhysicalReceipt)).of_valid nofun)

theorem checks_receiptFileIds (hs : Stored r fileIds today) (m : ℤ) :
    Checks (c.arguments (recordToReadModel r fileIds) m).newFileReferences (·.value)
      (.receiptFileIds ∈ c.updatedFields → ∃ fileIds, c.receiptFileIds = some fileIds ∧
        ValidFiles fileIds)
      (c.newFileIds fileIds) := by
  have hstored := checks_requiredFileReferences (some fileIds) fileIds
  exact .updated requiredFileReferences (checks_requiredFileReferences c.receiptFileIds fileIds)
    (hstored.of_valid ⟨fileIds, rfl, hs.fileIds⟩)

/-- The receipt of a partial update: it is created exactly if the listed fields are valid, and there
    is a day for the warranty to expire on. -/
theorem receipt_patch (hs : Stored r fileIds today) :
    (∀ receipt, c.receipt (recordToReadModel r fileIds) today = .ok receipt →
      c.Valid today ∧ c.Expires r receipt.expiresOn ∧ receipt.assign r = c.patch r receipt.expiresOn ∧
        receipt.receiptFileIds.value = c.newFileIds fileIds) ∧
    (c.Valid today → ∀ e, c.Expires r e → ∃ receipt,
      c.receipt (recordToReadModel r fileIds) today = .ok receipt ∧ receipt.expiresOn = e) := by
  have hbrand := checks_text c .brandName c.brandName hs.brandName "brand_name" "브랜드명"
  have hserial := checks_text c .serialNumber c.serialNumber hs.serialNumber "serial_number" "시리얼 넘버"
  have hlocation :=
    checks_text c .paymentLocation c.paymentLocation hs.paymentLocation "payment_location" "구매처"
  have hsub := checks_text c .subCategory c.subCategory hs.subCategory "sub_category" "소분류 카테고리"
  have hmemo := checks_text c .memo c.memo hs.memo "memo" "메모"
  constructor
  · -- Each field of a receipt is what its check made of the argument, which was valid.
    intro receipt hreceipt
    obtain ⟨m, hm, hr⟩ := receipt_eq_ok.1 hreceipt
    obtain ⟨hvitem, hitem⟩ := (checks_itemName hs m).sound _ hr.itemName
    obtain ⟨hvdate, hdate⟩ := (checks_paymentDate hs m).sound _ hr.paymentDate
    obtain ⟨hvamount, hamount⟩ := (checks_totalAmount hs m).sound _ hr.totalAmount
    obtain ⟨hvperiod, hperiod⟩ := (checks_periodMonths hs hm).sound _ hr.periodMonths
    obtain ⟨hvbrand, hbrand⟩ := hbrand.sound _ hr.brandName
    obtain ⟨hvserial, hserial⟩ := hserial.sound _ hr.serialNumber
    obtain ⟨hvlocation, hlocation⟩ := hlocation.sound _ hr.paymentLocation
    obtain ⟨-, hcategory⟩ := (checks_category m).sound _ hr.category
    obtain ⟨hvsub, hsub⟩ := hsub.sound _ hr.subCategory
    obtain ⟨hvmemo, hmemo⟩ := hmemo.sound _ hr.memo
    obtain ⟨hvphysical, hphysical⟩ :=
      (checks_requiresPhysicalReceipt m).sound _ hr.requiresPhysicalReceipt
    obtain ⟨hvfiles, hfiles⟩ := (checks_receiptFileIds hs m).sound _ hr.receiptFileIds
    have hvalid : c.Valid today :=
      ⟨hvitem, hvbrand, hvserial, hvlocation, hvdate, hvamount, hvperiod, hvsub, hvmemo,
        hvphysical, hvfiles⟩
    simp only [id_eq] at hdate hbrand hserial hlocation hcategory hsub hmemo hphysical
    refine ⟨hvalid, ?_, ?_, hfiles⟩
    · rw [← resolveExpiresOn_eq_ok hs hvalid, ← hdate, ← hperiod]
      exact hr.expiresOn
    · simp only [Receipt.assign, patch, hitem, hdate, hamount, hperiod, hbrand, hserial, hlocation,
        hcategory, hsub, hmemo, hphysical]
  · -- Each check accepts, and so does the one of the expiry, which is last.
    intro hvalid e he
    obtain ⟨m, hm⟩ := exists_requiredUpdatedValue (r := r) hvalid
    obtain ⟨itemName, hitem⟩ := (checks_itemName hs m).complete hvalid.itemName
    obtain ⟨paymentDate, hdate⟩ := (checks_paymentDate hs m).complete hvalid.paymentDate
    obtain ⟨totalAmount, hamount⟩ := (checks_totalAmount hs m).complete hvalid.totalAmount
    obtain ⟨periodMonths, hperiod⟩ := (checks_periodMonths hs hm).complete hvalid.periodMonths
    obtain ⟨brandName, hbrand⟩ := hbrand.complete hvalid.brandName
    obtain ⟨serialNumber, hserial⟩ := hserial.complete hvalid.serialNumber
    obtain ⟨paymentLocation, hlocation⟩ := hlocation.complete hvalid.paymentLocation
    have hchecks : Checks (c.arguments (recordToReadModel r fileIds) m).newCategory id True _ :=
      checks_category m
    obtain ⟨category, hcategory⟩ := hchecks.complete trivial
    obtain ⟨subCategory, hsub⟩ := hsub.complete hvalid.subCategory
    obtain ⟨memo, hmemo⟩ := hmemo.complete hvalid.memo
    have hchecks :
        Checks (c.arguments (recordToReadModel r fileIds) m).newRequiresPhysicalReceipt id _ _ :=
      checks_requiresPhysicalReceipt m
    obtain ⟨physical, hphysical⟩ := hchecks.complete hvalid.requiresPhysicalReceipt
    obtain ⟨files, hfiles⟩ := (checks_receiptFileIds hs m).complete hvalid.receiptFileIds
    have hexpires : resolveExpiresOn
        (c.resolvedExpiresOn (recordToReadModel r fileIds)) paymentDate periodMonths.value =
          .ok e := by
      have hdateValue : paymentDate = _ := ((checks_paymentDate hs m).sound _ hdate).2
      rw [hdateValue, ((checks_periodMonths hs hm).sound _ hperiod).2]
      exact (resolveExpiresOn_eq_ok hs hvalid).2 he
    exact ⟨⟨r.id, c.userId, itemName, brandName, serialNumber, paymentLocation, paymentDate,
      totalAmount, periodMonths, e, category, subCategory, memo, physical, files⟩,
        receipt_eq_ok.2 ⟨m, hm, ⟨rfl, rfl, hitem, hdate, hamount, hperiod,
        hbrand, hserial, hlocation, hcategory, hsub, hmemo, hphysical, hfiles, hexpires⟩⟩, rfl⟩

end UpdateReceiptCommand

/-! ## The update -/

section

variable {c : UpdateReceiptCommand} {r : ReceiptRecord} {today : Date} {newId : UUID → UUID}
  {d : ReceiptsDatabase}

/-- The files of a receipt, as they are read. -/
def sortedFiles (fileIds : List UUID) : List UUID := fileIds.insertionSort fun a b => a.val ≤ b.val

theorem sortedFiles_sortedFiles (fileIds : List UUID) :
    sortedFiles (sortedFiles fileIds) = sortedFiles fileIds := by
  have : Std.Total fun a b : UUID => a.val ≤ b.val :=
    ⟨fun a b => Nat.le_total a.val.toNat b.val.toNat⟩
  have : IsTrans UUID fun a b => a.val ≤ b.val := ⟨fun _ _ _ => Nat.le_trans⟩
  exact (List.pairwise_insertionSort _ fileIds).insertionSort_eq

/-- A receipt of a user is what is read after an update, and nothing else has changed. -/
structure Patched (d d' : ReceiptsDatabase) (receiptId userId : UUID)
    (model : ReceiptReadModel) : Prop where
  readModel : d'.readModel receiptId userId = some model
  receipts : ∀ id, id ≠ receiptId → d'.receipts.find id = d.receipts.find id
  attachments : ∀ id, id ≠ receiptId → d'.attachmentsOf id = d.attachmentsOf id

theorem attachmentsOf_replaceReceipt (record : ReceiptRecord) {fileIds : List UUID} {id : UUID}
    (hid : id ≠ record.id) :
    (d.replaceReceipt record (attachmentRecords record.id fileIds newId)).attachmentsOf id =
      d.attachmentsOf id := by
  have hnew : (attachmentRecords record.id fileIds newId).filter (·.receiptId = id) = [] := by
    refine List.filter_eq_nil_iff.2 fun a ha => ?_
    obtain ⟨fileId, -, rfl⟩ := List.mem_map.1 ha
    simpa using hid.symm
  have hold : (d.attachments.filter (·.receiptId ≠ record.id)).filter (·.receiptId = id) =
      d.attachments.filter (·.receiptId = id) := by
    rw [List.filter_filter]
    refine List.filter_congr fun a _ => ?_
    by_cases h : a.receiptId = id
    · simp [h, hid]
    · simp [h]
  rw [ReceiptsDatabase.attachmentsOf, ReceiptsDatabase.replaceReceipt, List.filter_append, hold,
    hnew, List.append_nil]
  rfl

/-- The row of a receipt is replaced, and its attachments are. -/
theorem patched_replaceReceipt (record : ReceiptRecord) (fileIds : List UUID) (newId : UUID → UUID)
    {userId : UUID} (hrow : record.id ∈ d.receipts.rows.map ReceiptRecord.id)
    (huser : record.userId = userId) :
    Patched d (d.replaceReceipt record (attachmentRecords record.id fileIds newId)) record.id userId
      (recordToReadModel record (sortedFiles fileIds)) := by
  refine ⟨?_, fun id hid => ?_, fun id hid => attachmentsOf_replaceReceipt record hid⟩
  · have hfind :
      (d.replaceReceipt record (attachmentRecords record.id fileIds newId)).receipts.find record.id =
        some record := by
      show (d.receipts.update record).find record.id = some record
      rw [Table.find_update, if_pos rfl]
      rcases h : d.receipts.find record.id with - | q
      · exact absurd hrow (Table.find_eq_none.1 h)
      · rfl
    rw [ReceiptsDatabase.readModel, ReceiptsDatabase.receiptOf_eq_some.2 ⟨hfind, huser⟩,
      Option.map_some]
    exact congrArg (fun files => some (recordToReadModel record files))
      ReceiptsDatabase.fileIds_append
  · show (d.receipts.update record).find id = d.receipts.find id
    rw [Table.find_update, if_neg hid]

/-- The frame of a partial update of a stored receipt, by a command that has the database for
    itself. -/
theorem patch_frame (hr : d.receiptOf c.receiptId c.userId = some r)
    (hs : Stored r (d.fileIds c.receiptId) today)
    (hfresh : ∀ fileId, ∀ a ∈ d.attachments, a.id ≠ newId fileId) :
    let o := (UpdateReceiptCommandUseCase.execute c today newId).alone noneRefused d d
    (c.Valid today → c.Sendable → ∀ e, c.Expires r e →
      let model :=
        recordToReadModel (c.patch r e) (sortedFiles (c.newFileIds (d.fileIds c.receiptId)))
      o.result = .ok model ∧ Patched d o.store c.receiptId c.userId model) ∧
    (¬(c.Valid today ∧ c.Sendable ∧ ∃ e, c.Expires r e) → (∃ e, o.result = .error (.domain e)) ∧
      o.store = d) ∧
    (c.updatedFields = ∅ →
      o.result = .ok (recordToReadModel r (d.fileIds c.receiptId)) ∧
        Patched d o.store c.receiptId c.userId (recordToReadModel r (d.fileIds c.receiptId))) := by
  intro o
  obtain ⟨hfind, huser⟩ := ReceiptsDatabase.receiptOf_eq_some.1 hr
  obtain ⟨hmem, hid⟩ := Table.find_eq_some.1 hfind
  obtain ⟨hsound, hcomplete⟩ := UpdateReceiptCommand.receipt_patch (c := c) hs
  have hupdate : c.Valid today → c.Sendable → ∀ e, c.Expires r e →
      let model :=
        recordToReadModel (c.patch r e) (sortedFiles (c.newFileIds (d.fileIds c.receiptId)))
      o.result = .ok model ∧ Patched d o.store c.receiptId c.userId model := by
    intro hvalid hsendable e he model
    obtain ⟨receipt, hreceipt, rfl⟩ := hcomplete hvalid e he
    obtain ⟨-, -, hassign, hfiles⟩ := hsound receipt hreceipt
    have hsends : Sends r (receipt.assign r) := by
      rw [hassign]
      exact .inr ((UpdateReceiptCommand.sendable_patch hs.sendable _).2 hsendable)
    have ho := execute_alone_ok hr hreceipt hsends fun fileId _ a ha _ => hfresh fileId a ha
    rw [hassign, hfiles] at ho
    simp only [o, ho]
    refine ⟨rfl, ?_⟩
    have hpatched := patched_replaceReceipt (d := d) (c.patch r receipt.expiresOn)
      (c.newFileIds (d.fileIds c.receiptId)) newId (List.mem_map.2 ⟨r, hmem, rfl⟩) huser
    have hid' : (c.patch r receipt.expiresOn).id = c.receiptId := hid
    rwa [hid'] at hpatched
  refine ⟨hupdate, fun hnot => ?_, fun hempty => ?_⟩
  · -- The row of the user is found, so it is the receipt that is refused.
    have hmodel : d.readModel c.receiptId c.userId =
        some (recordToReadModel r (d.fileIds c.receiptId)) := by
      rw [ReceiptsDatabase.readModel, hr, Option.map_some]
    rcases hreceipt : c.receipt (recordToReadModel r (d.fileIds c.receiptId)) today with e | receipt
    · have ho : o = ⟨.error (.domain e), d, d⟩ := execute_alone_error hmodel hreceipt
      rw [ho]
      exact ⟨⟨e, rfl⟩, rfl⟩
    · -- The receipt is created, so the database does not take one of the texts that have been listed.
      obtain ⟨hvalid, hexpires, hassign, -⟩ := hsound receipt hreceipt
      have hnotSendable : ¬(receipt.assign r).Sendable := by
        rw [hassign, UpdateReceiptCommand.sendable_patch hs.sendable]
        exact fun hsendable => hnot ⟨hvalid, hsendable, _, hexpires⟩
      have hsends : ¬Sends r (receipt.assign r) := by
        rintro (hsame | hsendable)
        · exact hnotSendable (hsame ▸ hs.sendable)
        · exact hnotSendable hsendable
      have ho : o = ⟨.error notTaken, d, d⟩ := execute_alone_notTaken newId hr hreceipt hsends
      rw [ho]
      exact ⟨⟨_, rfl⟩, rfl⟩
  · -- The empty patch takes every field from the row.
    have hkeep {α : Type} (field : ReceiptField) (new old : α) :
        c.updatedValue field new old = old := by
      rw [UpdateReceiptCommand.updatedValue, hempty, if_neg (Finset.notMem_empty field)]
    have hvalid : c.Valid today := by
      constructor <;> exact fun h => absurd (hempty ▸ h) (Finset.notMem_empty _)
    have hsendable : c.Sendable := by
      simp [UpdateReceiptCommand.Sendable, UpdateReceiptCommand.listedTexts, hkeep]
    have hexpires : c.Expires r r.expiresOn :=
      .kept (hempty ▸ Finset.notMem_empty _) (hkeep ..) (hkeep ..)
    have hpatch : c.patch r r.expiresOn = r := by
      simp only [UpdateReceiptCommand.patch, UpdateReceiptCommand.newItemName,
        UpdateReceiptCommand.newPaymentDate, UpdateReceiptCommand.newPeriodMonths, hkeep]
    have hfiles : sortedFiles (c.newFileIds (d.fileIds c.receiptId)) = d.fileIds c.receiptId := by
      rw [UpdateReceiptCommand.newFileIds, hkeep]
      exact sortedFiles_sortedFiles _
    have h := hupdate hvalid hsendable r.expiresOn hexpires
    simp only [hpatch, hfiles] at h
    exact h

end

/-! ## Examples -/

theorem nine_valid : 9 < 24 ∧ 0 < 60 ∧ 0 < 60 ∧ 0 < 1000000 := by decide

/-- A receipt of a television, with an amount and a period that are not accepted any more. -/
def televisionReceipt : ReceiptRecord where
  id := .ofNat 1
  userId := .ofNat 2
  itemName := "TV"
  brandName := some "LG"
  serialNumber := none
  paymentLocation := none
  paymentDate := ⟨2025, 1, 31, by decide⟩
  totalAmount := some 1000000000
  periodMonths := 72
  expiresOn := ⟨2031, 1, 31, by decide⟩
  category := some .livingClimate
  subCategory := none
  memo := none
  requiresPhysicalReceipt := false
  createdAt := ⟨⟨2025, 2, 1, by decide⟩, ⟨9, 0, 0, 0, nine_valid⟩⟩

/-- A receipt with one file. -/
def receiptWithFile (r : ReceiptRecord) : ReceiptsDatabase where
  receipts := ⟨[r], List.nodup_singleton _⟩
  attachments := [⟨.ofNat 10, r.id, .ofNat 11⟩]

/-- An update of the memo. -/
def updateMemo (memo : String) : UpdateReceiptCommand where
  userId := .ofNat 2
  receiptId := .ofNat 1
  updatedFields := {.memo}
  memo := some memo

/-- Its memo is updated, and its amount and period are kept. -/
theorem patch_frame_television :
    let d := receiptWithFile televisionReceipt
    let o := (UpdateReceiptCommandUseCase.execute (updateMemo " in the living room ")
      ⟨2026, 7, 1, by decide⟩
      fun _ => .ofNat 12).alone noneRefused d d
    o.result = .ok (recordToReadModel { televisionReceipt with memo := some "in the living room" }
      [.ofNat 11]) := by
  intro d
  have hs : Stored televisionReceipt (d.fileIds (.ofNat 1)) ⟨2026, 7, 1, by decide⟩ := by
    constructor <;> decide
  have hvalid : (updateMemo " in the living room ").Valid ⟨2026, 7, 1, by decide⟩ := by
    constructor
    case memo => decide
    all_goals exact fun h => absurd h (by decide)
  have hfresh : ∀ fileId : UUID, ∀ a ∈ d.attachments, a.id ≠ (fun _ => UUID.ofNat 12) fileId := by
    intro fileId a ha
    rw [List.mem_singleton.1 ha]
    show UUID.ofNat 10 ≠ UUID.ofNat 12
    decide
  exact ((patch_frame (c := updateMemo " in the living room ") (d := d) rfl hs hfresh).1 hvalid
    (by decide)
    televisionReceipt.expiresOn (.kept (by decide) rfl rfl)).1

/-- A text that is empty, although no receipt is created with one, is updated with any other field,
    and on the last day of the calendar no day is left for a warranty to expire on. -/
theorem patch_not_frame :
    (let r := { televisionReceipt with brandName := some "" }
      let o := (UpdateReceiptCommandUseCase.execute (updateMemo "in the living room")
        ⟨2026, 7, 1, by decide⟩
        fun _ => .ofNat 12).alone noneRefused (receiptWithFile r) (receiptWithFile r)
      o.result.toOption.map (·.brandName) = some none) ∧
    (let r := televisionReceipt
      let d := receiptWithFile r
      let lastDay : Date := ⟨9999, 12, 31, by decide⟩
      let c : UpdateReceiptCommand := ⟨.ofNat 2, .ofNat 1, {.paymentDate}, none, none, none, none,
        some lastDay, none, none, none, none, none, none, none, none⟩
      Stored r (d.fileIds r.id) lastDay ∧ c.Valid lastDay ∧
        ((UpdateReceiptCommandUseCase.execute c lastDay fun _ => .ofNat 12).alone noneRefused d
          d).result =
          .error (.domain (.other "ValueError"))) := by
  refine ⟨by decide +kernel, ?_, ?_, by decide +kernel⟩
  · constructor <;> decide
  · constructor
    case paymentDate => exact fun _ => ⟨_, rfl, rfl⟩
    all_goals exact fun h => absurd h (by decide)

end Boat.Receipts
