import Boat.Credits.Alone
import Boat.Receipts.Creation
import Boat.Receipts.FromOcr

/-!
# OCR: classification

What the analysis of an answer of the provider results in. The answer sorts the images into three
sets, which the client checks, the policy of supported receipts changes, and an ordered chain of
checks looks at. They leave a result exactly for the receipts that are recognised, and one of four
errors for everything else (`classification_exact`).

Recognised is also a receipt whose warranty expires after the last year of the calendar: there is no
result, and no error of the domain either (`classification_overflows`).
-/

namespace Boat

open ReadCommitted ExtractReceiptOcrCommandUseCase Boat.Receipts

/-! ## Sets of indexes -/

theorem mem_sortedSet {l : List ℤ} {i : ℤ} : i ∈ sortedSet l ↔ i ∈ l := by
  rw [sortedSet, List.mem_insertionSort, List.mem_dedup]

theorem sortedSet_eq_nil {l : List ℤ} : sortedSet l = [] ↔ l = [] := by
  simp only [List.eq_nil_iff_forall_not_mem, mem_sortedSet]

/-- A sorted set has no duplicates. -/
theorem pairwise_sortedSet (l : List ℤ) : (sortedSet l).Pairwise (· < ·) := by
  have hsorted : (sortedSet l).Pairwise (· ≤ ·) := List.pairwise_insertionSort (· ≤ ·) l.dedup
  have hnodup : (sortedSet l).Nodup :=
    (List.perm_insertionSort (· ≤ ·) l.dedup).nodup_iff.2 l.nodup_dedup
  exact hsorted.imp₂ (fun _ _ hle hne => lt_of_le_of_ne hle hne) hnodup

/-- A sorted set of indexes of images. -/
structure ImageIndexes (n : ℕ) (l : List ℤ) : Prop where
  sorted : l.Pairwise (· < ·)
  in_range : ∀ i ∈ l, 0 ≤ i ∧ i < n

theorem imageIndexes_sortedSet {n : ℕ} {l : List ℤ}
    (h : ∀ i ∈ l, 0 ≤ i ∧ i < n) : ImageIndexes n (sortedSet l) :=
  ⟨pairwise_sortedSet l, fun i hi => h i (mem_sortedSet.1 hi)⟩

/-! ## Results -/

/-- The fields of a result are valid. -/
structure ValidFields (itemName : Option String) (paymentDate : Option Date)
    (totalAmount periodMonths : Option ℤ) (clock : OcrClock) : Prop where
  itemName : strip (itemName.getD "") ≠ ""
  paymentDate : clock.todayChecked.before (paymentDate.getD clock.today) = false
  periodMonths : 1 ≤ periodMonths.getD ReceiptOcrResult.defaultWarrantyPeriodMonths ∧
    periodMonths.getD ReceiptOcrResult.defaultWarrantyPeriodMonths ≤ 60
  totalAmount : ∀ x ∈ totalAmount, 0 ≤ x ∧ x ≤ 999999999

/-- The day a warranty expires on has to be derived, and is after the last year of the calendar. -/
def AfterCalendar (paymentDate expiresOn : Option Date) (periodMonths : Option ℤ)
    (clock : OcrClock) : Prop :=
  (expiresOn.filter fun e => !e.before (paymentDate.getD clock.today)) = none ∧
    9999 < (paymentDate.getD clock.today).year +
      ((paymentDate.getD clock.today).month - 1 +
        periodMonths.getD ReceiptOcrResult.defaultWarrantyPeriodMonths) / 12

theorem checks_ocrItemName (value : String) :
    Checks (Boat.ItemName.create (strip value)) (·.value) (strip value ≠ "") (strip value) := by
  rw [Boat.ItemName.create, NonBlank.create]
  split
  · next h => exact .of_error rfl fun hne => hne ((strip_strip value).symm.trans h)
  · next h => exact .of_ok rfl (fun hblank => h ((strip_strip value).trans hblank)) rfl

theorem checks_ocrPaymentDate (value today : Date) :
    Checks (Boat.PaymentDate.create value today) id (today.before value = false) value := by
  rw [Boat.PaymentDate.create]
  split
  · next h => exact .of_error rfl fun hnot => Bool.false_ne_true (hnot.symm.trans h)
  · next h => exact .of_ok rfl (Bool.eq_false_iff.2 h) rfl

theorem checks_ocrPeriodMonths (value : ℤ) :
    Checks (Boat.WarrantyPeriodMonths.create value) (·.value) (1 ≤ value ∧ value ≤ 60) value := by
  rw [Boat.WarrantyPeriodMonths.create]
  split
  · next h => exact .of_ok rfl h rfl
  · next h => exact .of_error rfl h

theorem checks_ocrTotalAmount (value : Option ℤ) :
    Checks (value.mapM Boat.TotalAmount.create) (Option.map (·.value))
      (∀ x ∈ value, 0 ≤ x ∧ x ≤ 999999999) value := by
  have hcheck (x : ℤ) : Checks (Boat.TotalAmount.create x) (·.value) (0 ≤ x ∧ x ≤ 999999999) x ∧
      NamesField (Boat.TotalAmount.create x) "total_amount" := by
    rw [Boat.TotalAmount.create]
    split
    · next h => exact ⟨.of_ok rfl h rfl, .of_ok rfl⟩
    · next h => exact ⟨.of_error rfl h, .of_error rfl⟩
  simpa using (checks_mapM hcheck value).1

/-- A text that is normalised passes the check for blanks. -/
theorem mapM_nonBlank_blankToNone (value : Option String) (fieldName message : String) :
    ∃ text, (blankToNone value).mapM (NonBlank.create · fieldName message) = .ok text := by
  rcases h : blankToNone value with - | s
  · exact ⟨none, rfl⟩
  · obtain ⟨hstrip, hne⟩ := blankToNone_eq_some h
    refine ⟨some ⟨s, by rw [hstrip]; exact hne⟩, ?_⟩
    rw [Option.mapM_some, NonBlank.create, dif_neg (by rw [hstrip]; exact hne)]
    rfl

/-- A result is created exactly of valid fields, up to the end of the calendar. -/
theorem ReceiptOcrResult.create_cases
    (itemName brandName serialNumber paymentLocation : Option String) (paymentDate : Option Date)
    (totalAmount periodMonths : Option ℤ) (category subCategory : Option String)
    (expiresOn : Option Date) (clock : OcrClock) :
    let result := ReceiptOcrResult.create itemName brandName serialNumber paymentLocation
      paymentDate totalAmount
      periodMonths category subCategory expiresOn clock.today clock.todayChecked
    (¬ValidFields itemName paymentDate totalAmount periodMonths clock →
      ∃ details, result = .error (.validation details)) ∧
      (ValidFields itemName paymentDate totalAmount periodMonths clock →
        (AfterCalendar paymentDate expiresOn periodMonths clock →
          result = .error (.other "ValueError")) ∧
          (¬AfterCalendar paymentDate expiresOn periodMonths clock → ∃ r, result = .ok r)) := by
  intro result
  have hname := checks_ocrItemName (itemName.getD "")
  have hdate := checks_ocrPaymentDate (paymentDate.getD clock.today) clock.todayChecked
  have hperiod :=
    checks_ocrPeriodMonths (periodMonths.getD ReceiptOcrResult.defaultWarrantyPeriodMonths)
  have hamount := checks_ocrTotalAmount totalAmount
  obtain ⟨_, hbrand⟩ := mapM_nonBlank_blankToNone brandName "brand_name" "브랜드명은 비어 있을 수 없습니다."
  obtain ⟨_, hlocation⟩ :=
    mapM_nonBlank_blankToNone paymentLocation "payment_location" "구매처는 비어 있을 수 없습니다."
  simp only [result, ReceiptOcrResult.create, Ocr.addMonths]
  split
  · next name date period brand location amount h₁ h₂ h₃ _ _ h₆ =>
    have hvalid : ValidFields itemName paymentDate totalAmount periodMonths clock :=
      ⟨(hname.sound _ h₁).1, (hdate.sound _ h₂).1, (hperiod.sound _ h₃).1, (hamount.sound _ h₆).1⟩
    obtain rfl : date = paymentDate.getD clock.today := (hdate.sound _ h₂).2
    refine ⟨fun h => absurd hvalid h, fun _ => ?_⟩
    -- Only the expiry may fail now, where it is derived from the payment and after the calendar.
    rw [AfterCalendar, ← (hperiod.sound _ h₃).2, ← not_le,
      ← Date.exists_addMonths_iff period.le_value]
    generalize (expiresOn.filter fun e => !e.before (paymentDate.getD clock.today)) = resolved
    rcases resolved with - | e
    · rcases hadd : (paymentDate.getD clock.today).addMonths period.value with error | e
      · rw [Date.addMonths_error hadd]
        simp [bind, Except.bind]
      · simp [bind, Except.bind, pure, Except.pure]
    · simp [bind, Except.bind, pure, Except.pure]
  · next hnot =>
    refine ⟨fun _ => ⟨_, rfl⟩, fun hvalid => ?_⟩
    obtain ⟨_, h₁⟩ := hname.complete hvalid.itemName
    obtain ⟨_, h₂⟩ := hdate.complete hvalid.paymentDate
    obtain ⟨_, h₃⟩ := hperiod.complete hvalid.periodMonths
    obtain ⟨_, h₆⟩ := hamount.complete hvalid.totalAmount
    exact (hnot _ _ _ _ _ _ h₁ h₂ h₃ hbrand hlocation h₆).elim

/-! ## The answer -/

/-- The indexes of an answer sort the images into three sets. -/
structure WellFormed (o : ReceiptOcrStructuredOutput) (n : ℕ) : Prop where
  in_range : ∀ i ∈ o.receiptFileIndexes ++ o.unreadableFileIndexes ++ o.unsupportedFileIndexes,
    0 ≤ i ∧ i < n
  unreadable_unsupported : ∀ i ∈ o.unreadableFileIndexes, i ∉ o.unsupportedFileIndexes
  receipt_unreadable : ∀ i ∈ o.receiptFileIndexes, i ∉ o.unreadableFileIndexes
  receipt_unsupported : ∀ i ∈ o.receiptFileIndexes, i ∉ o.unsupportedFileIndexes

/-- The answer has all the evidence of a purchase. -/
structure HasEvidence (o : ReceiptOcrStructuredOutput) : Prop where
  merchant : o.transactionEvidence.merchant = true
  purchasedItem : o.transactionEvidence.purchasedItem = true
  totalPaid : o.transactionEvidence.totalPaid = true
  paymentProof : o.transactionEvidence.paymentProof = true
  totalAmount : o.totalAmount ≠ none

/-- The images of an answer are a receipt that is supported, with fields that are valid. -/
structure Recognised (o : ReceiptOcrStructuredOutput) (n : ℕ) (clock : OcrClock) : Prop where
  wellFormed : WellFormed o n
  receipt : o.receiptFileIndexes ≠ []
  unsupported : o.unsupportedFileIndexes = []
  unreadable : o.unreadableFileIndexes = []
  evidence : HasEvidence o
  fields : ValidFields o.itemName o.paymentDate o.totalAmount o.periodMonths clock

/-- The errors of a classification of `n` images. -/
inductive Refusal (n : ℕ) : DomainError → Prop
  | unavailable : Refusal n .receiptOcrProviderUnavailable
  | unsupported {unsupported unreadable : List ℤ} : unsupported ≠ [] → ImageIndexes n unsupported →
      ImageIndexes n unreadable → (∀ i ∈ unsupported, i ∉ unreadable) →
      Refusal n (.unsupportedReceipt unsupported unreadable)
  | unreadable {unreadable : List ℤ} : unreadable ≠ [] → ImageIndexes n unreadable →
      Refusal n (.receiptImageUnreadable unreadable)
  | validation (details : List ErrorDetail) : Refusal n (.validation details)

/-- What the use case makes of an answer, between the reservation of the credit and its use. -/
def classify (o : ReceiptOcrStructuredOutput) (command : ExtractReceiptOcrCommand)
    (clock : OcrClock) :
    Except DomainError ReceiptOcrResult := do
  let extracted ← OpenRouterReceiptOcrClient.extract (fun _ => some o) command.images
  analyze command extracted clock

/-! ## The chain of checks -/

section

variable {o : ReceiptOcrStructuredOutput} {n : ℕ}

/-- What the client extracts of a well-formed answer. -/
def extractedFields (o : ReceiptOcrStructuredOutput) : ExtractedReceiptOcrFields where
  itemName := blankToNone o.itemName
  brandName := blankToNone o.brandName
  serialNumber := blankToNone o.serialNumber
  paymentLocation := blankToNone o.paymentLocation
  paymentDate := o.paymentDate
  totalAmount := o.totalAmount
  periodMonths := o.periodMonths
  expiresOn := o.expiresOn
  category := some (o.category.elim ReceiptOcrResult.defaultCategory OcrReceiptCategory.apiLabel)
  subCategory :=
    some ((blankToNone (o.subCategory.map (·.1))).getD ReceiptOcrResult.defaultSubCategory)
  transactionEvidence := some o.transactionEvidence
  receiptFileIndexes := sortedSet o.receiptFileIndexes
  unreadableFileIndexes := sortedSet o.unreadableFileIndexes
  unsupportedFileIndexes := sortedSet o.unsupportedFileIndexes

/-- The client extracts the fields of well-formed answers, and raises for all others. -/
theorem toExtractedFields_cases (o : ReceiptOcrStructuredOutput) (n : ℕ) :
    (WellFormed o n → o.toExtractedFields n = .ok (extractedFields o)) ∧
      (¬WellFormed o n → ∃ e, o.toExtractedFields n = .error e) := by
  simp only [ReceiptOcrStructuredOutput.toExtractedFields, bind, Except.bind, pure, Except.pure,
    throw, throwThe, MonadExceptOf.throw]
  split
  · next h =>
    refine ⟨fun hwf => ?_, fun _ => ⟨_, rfl⟩⟩
    obtain ⟨i, hi, hout⟩ := List.any_eq_true.1 h
    have hin := hwf.in_range i hi
    simp only [decide_eq_true_eq] at hout
    omega
  next hrange =>
  split
  · next h =>
    refine ⟨fun hwf => ?_, fun _ => ⟨_, rfl⟩⟩
    obtain ⟨i, hi, hin⟩ := List.any_eq_true.1 h
    exact absurd (of_decide_eq_true hin) (hwf.unreadable_unsupported i hi)
  next hfailures =>
  split
  · next h =>
    refine ⟨fun hwf => ?_, fun _ => ⟨_, rfl⟩⟩
    obtain ⟨i, hi, hin⟩ := List.any_eq_true.1 h
    rcases List.mem_append.1 (of_decide_eq_true hin) with hin | hin
    · exact absurd hin (hwf.receipt_unreadable i hi)
    · exact absurd hin (hwf.receipt_unsupported i hi)
  next hreceipt =>
  -- No check has refused it, so it is well formed.
  refine ⟨fun _ => rfl, fun hnot =>
    absurd ⟨fun i hi => ?_, fun i hi => ?_, fun i hi => ?_, fun i hi => ?_⟩ hnot⟩
  · simp only [List.any_eq_true, decide_eq_true_eq, not_exists, not_and] at hrange
    have hin := hrange i hi
    omega
  · simp only [List.any_eq_true, decide_eq_true_eq, not_exists, not_and] at hfailures
    exact hfailures i hi
  · simp only [List.any_eq_true, decide_eq_true_eq, not_exists, not_and, List.mem_append,
      not_or] at hreceipt
    exact (hreceipt i hi).1
  · simp only [List.any_eq_true, decide_eq_true_eq, not_exists, not_and, List.mem_append,
      not_or] at hreceipt
    exact (hreceipt i hi).2

/-- The analysis, as a chain of checks. -/
theorem analyze_eq (command : ExtractReceiptOcrCommand) (extracted : ExtractedReceiptOcrFields)
    (clock : OcrClock) :
    analyze command extracted clock =
      let fileIndexes := command.images.map (·.fileIndex)
      let e := enforceSupportedReceiptPolicy extracted fileIndexes
      if e.unsupportedFileIndexes ≠ [] then
        .error (unsupportedReceiptError e.unsupportedFileIndexes e.unreadableFileIndexes)
      else if e.unreadableFileIndexes ≠ [] then
        .error (receiptImageUnreadableError e.unreadableFileIndexes)
      else if e.receiptFileIndexes = [] then .error (unsupportedReceiptError fileIndexes)
      else if strip (e.itemName.getD "") = "" then .error (receiptImageUnreadableError fileIndexes)
      else ReceiptOcrResult.create e.itemName e.brandName e.serialNumber e.paymentLocation
        e.paymentDate e.totalAmount
        e.periodMonths e.category e.subCategory e.expiresOn clock.today clock.todayChecked := by
  simp only [analyze, bind, Except.bind, throw, throwThe, MonadExceptOf.throw]

/-- The policy changes the sets of a receipt without the evidence of a purchase. -/
theorem policy_eq (o : ReceiptOcrStructuredOutput) (fileIndexes : List ℤ) :
    (o.receiptFileIndexes = [] ∨ HasEvidence o →
      enforceSupportedReceiptPolicy (extractedFields o) fileIndexes = extractedFields o) ∧
    (o.receiptFileIndexes ≠ [] → ¬HasEvidence o →
      enforceSupportedReceiptPolicy (extractedFields o) fileIndexes = { extractedFields o with
        receiptFileIndexes := []
        unsupportedFileIndexes :=
          sortedSet (fileIndexes.filter (· ∉ sortedSet o.unreadableFileIndexes)) }) := by
  have hevidence : HasEvidence o ↔
      (o.transactionEvidence.merchant && o.transactionEvidence.purchasedItem &&
        o.transactionEvidence.totalPaid && o.transactionEvidence.paymentProof &&
          o.totalAmount.isSome) = true := by
    simp only [Bool.and_eq_true, Option.isSome_iff_ne_none]
    exact ⟨fun ⟨h₁, h₂, h₃, h₄, h₅⟩ => ⟨⟨⟨⟨h₁, h₂⟩, h₃⟩, h₄⟩, h₅⟩,
      fun ⟨⟨⟨⟨h₁, h₂⟩, h₃⟩, h₄⟩, h₅⟩ => ⟨h₁, h₂, h₃, h₄, h₅⟩⟩
  simp only [enforceSupportedReceiptPolicy, extractedFields, sortedSet_eq_nil,
    Option.any_some, hevidence]
  constructor
  · rintro (h | h)
    · simp only [h, if_true]
    · simp only [h, if_true, ite_self]
  · intro hreceipt hnot
    simp only [hreceipt, hnot, if_false, Bool.false_eq_true]
    rfl

theorem refusal_unsupported {fileIndexes unreadable : List ℤ} (hne : fileIndexes ≠ [])
    (hdisjoint : ∀ i ∈ fileIndexes, i ∉ unreadable) (hin : ∀ i ∈ fileIndexes, 0 ≤ i ∧ i < n)
    (hin' : ∀ i ∈ unreadable, 0 ≤ i ∧ i < n) :
    Refusal n (unsupportedReceiptError fileIndexes unreadable) ∧
      unsupportedReceiptError fileIndexes unreadable ≠ .receiptOcrProviderUnavailable := by
  have hany : ¬fileIndexes.any (· ∈ unreadable) = true := by
    simpa only [List.any_eq_true, decide_eq_true_eq, not_exists, not_and] using hdisjoint
  rw [unsupportedReceiptError, if_neg hne, if_neg hany]
  refine ⟨.unsupported (fun h => hne (sortedSet_eq_nil.1 h)) (imageIndexes_sortedSet hin)
    (imageIndexes_sortedSet hin')
    fun i hi hi' => ?_, nofun⟩
  exact hdisjoint i (mem_sortedSet.1 hi) (mem_sortedSet.1 hi')

theorem refusal_unreadable {fileIndexes : List ℤ} (hne : fileIndexes ≠ [])
    (hin : ∀ i ∈ fileIndexes, 0 ≤ i ∧ i < n) :
    Refusal n (receiptImageUnreadableError fileIndexes) ∧
      receiptImageUnreadableError fileIndexes ≠ .receiptOcrProviderUnavailable := by
  rw [receiptImageUnreadableError, if_neg hne]
  exact ⟨.unreadable (fun h => hne (sortedSet_eq_nil.1 h)) (imageIndexes_sortedSet hin), nofun⟩

/-- The images of a command are numbered in order. -/
def Numbered (command : ExtractReceiptOcrCommand) (n : ℕ) : Prop :=
  1 ≤ n ∧ command.images.map (·.fileIndex) = (List.range n).map Int.ofNat

/-- What a classification can result in. -/
inductive Outcome (o : ReceiptOcrStructuredOutput) (n : ℕ)
    (clock : OcrClock) : Except DomainError ReceiptOcrResult → Prop
  | refused {e : DomainError} : Refusal n e → ¬Recognised o n clock →
      (e = .receiptOcrProviderUnavailable ↔ ¬WellFormed o n) → Outcome o n clock (.error e)
  | recognised (r : ReceiptOcrResult) : Recognised o n clock →
      ¬AfterCalendar o.paymentDate o.expiresOn o.periodMonths clock → Outcome o n clock (.ok r)
  | overflow : Recognised o n clock → AfterCalendar o.paymentDate o.expiresOn o.periodMonths clock →
      Outcome o n clock (.error (.other "ValueError"))

/-- The result of a receipt whose images and evidence are in order. -/
theorem outcome_create {clock : OcrClock} (hwf : WellFormed o n)
    (hreceipt : o.receiptFileIndexes ≠ []) (hunsupported : o.unsupportedFileIndexes = [])
    (hunreadable : o.unreadableFileIndexes = []) (hevidence : HasEvidence o) :
    Outcome o n clock (ReceiptOcrResult.create (blankToNone o.itemName) (blankToNone o.brandName)
      (blankToNone o.serialNumber)
        (blankToNone o.paymentLocation) o.paymentDate o.totalAmount o.periodMonths
      (extractedFields o).category
        (extractedFields o).subCategory o.expiresOn clock.today clock.todayChecked) := by
  obtain ⟨hinvalid, hvalid⟩ := ReceiptOcrResult.create_cases (blankToNone o.itemName)
    (blankToNone o.brandName)
    (blankToNone o.serialNumber)
      (blankToNone o.paymentLocation) o.paymentDate o.totalAmount o.periodMonths
    (extractedFields o).category (extractedFields o).subCategory o.expiresOn clock
  by_cases h : ValidFields (blankToNone o.itemName) o.paymentDate o.totalAmount o.periodMonths clock
  · have hrecognised : Recognised o n clock := ⟨hwf, hreceipt, hunsupported, hunreadable, hevidence,
      ⟨by rw [← strip_getD_blankToNone]; exact h.itemName, h.paymentDate, h.periodMonths,
        h.totalAmount⟩⟩
    by_cases hafter : AfterCalendar o.paymentDate o.expiresOn o.periodMonths clock
    · rw [(hvalid h).1 hafter]
      exact .overflow hrecognised hafter
    · obtain ⟨r, hr⟩ := (hvalid h).2 hafter
      rw [hr]
      exact .recognised r hrecognised hafter
  · obtain ⟨details, hdetails⟩ := hinvalid h
    rw [hdetails]
    refine .refused (.validation details) (fun hrecognised => h ?_)
      (iff_of_false nofun (not_not.2 hwf))
    obtain ⟨hname, hdate, hperiod, hamount⟩ := hrecognised.fields
    exact ⟨by rw [strip_getD_blankToNone]; exact hname, hdate, hperiod, hamount⟩

/-- An answer is refused, or it is recognised and its warranty decides. -/
theorem outcome_classify
    {command : ExtractReceiptOcrCommand} (hcommand : Numbered command n) (clock : OcrClock) :
    Outcome o n clock (classify o command clock) := by
  obtain ⟨hn, hindexes⟩ := hcommand
  have hlength : command.images.length = n := by
    simpa using congrArg List.length hindexes
  have himages : command.images ≠ [] := by
    rw [← List.length_pos_iff_ne_nil, hlength]
    exact hn
  by_cases hwf : WellFormed o n
  · have hin : ∀ i ∈ (List.range n).map Int.ofNat, 0 ≤ i ∧ i < n := by
      intro i hi
      obtain ⟨m, hm, rfl⟩ := List.mem_map.1 hi
      have hlt := List.mem_range.1 hm
      exact ⟨Int.natCast_nonneg m, Int.ofNat_lt.2 hlt⟩
    have hne : (List.range n).map Int.ofNat ≠ [] := by
      rw [Ne, List.map_eq_nil_iff, List.range_eq_nil]
      omega
    have hunreadable : ∀ i ∈ sortedSet o.unreadableFileIndexes, 0 ≤ i ∧ i < n := fun i hi =>
      hwf.in_range i (by simp [mem_sortedSet.1 hi])
    have hunsupported : ∀ i ∈ sortedSet o.unsupportedFileIndexes, 0 ≤ i ∧ i < n := fun i hi =>
      hwf.in_range i (by simp [mem_sortedSet.1 hi])
    have hrefused {e : DomainError} (he : Refusal n e ∧ e ≠ .receiptOcrProviderUnavailable)
        (hnot : ¬Recognised o n clock) :
          Outcome o n clock (.error e) := .refused he.1 hnot (iff_of_false he.2 (not_not.2 hwf))
    have hclassify : classify o command clock = analyze command (extractedFields o) clock := by
      simp only [classify, OpenRouterReceiptOcrClient.extract, if_neg himages, hlength,
        (toExtractedFields_cases o n).1 hwf, bind, Except.bind]
    rw [hclassify, analyze_eq, hindexes]
    by_cases hpolicy : o.receiptFileIndexes = [] ∨ HasEvidence o
    · -- The policy leaves the indexes as they are, and the analysis refuses them in this order.
      simp only [(policy_eq o _).1 hpolicy]
      split
      · next h₁ =>
        refine hrefused (refusal_unsupported h₁ (fun i hi hi' => ?_) hunsupported hunreadable)
          fun h => h₁ (sortedSet_eq_nil.2 h.unsupported)
        exact hwf.unreadable_unsupported i (mem_sortedSet.1 hi') (mem_sortedSet.1 hi)
      next h₁ =>
      split
      · next h₂ =>
          exact hrefused (refusal_unreadable h₂ hunreadable) fun h =>
            h₂ (sortedSet_eq_nil.2 h.unreadable)
      next h₂ =>
      split
      · next h₃ =>
        exact hrefused
          (refusal_unsupported hne (fun i _ => List.not_mem_nil) hin (List.forall_mem_nil _))
          fun h => h.receipt (sortedSet_eq_nil.1 h₃)
      next h₃ =>
      split
      · next h₄ =>
        refine hrefused (refusal_unreadable hne hin) fun h => h.fields.itemName ?_
        rw [← strip_getD_blankToNone]
        exact h₄
      next h₄ =>
      have hreceipt : o.receiptFileIndexes ≠ [] := fun h => h₃ (sortedSet_eq_nil.2 h)
      exact outcome_create hwf hreceipt (sortedSet_eq_nil.1 (not_not.1 h₁))
        (sortedSet_eq_nil.1 (not_not.1 h₂))
        (hpolicy.resolve_left hreceipt)
    · -- Without the evidence of a purchase, all images that are readable are not supported.
      obtain ⟨hreceipt, hevidence⟩ := not_or.1 hpolicy
      have hmem (i : ℤ) : i ∈
        sortedSet (((List.range n).map Int.ofNat).filter (· ∉ sortedSet o.unreadableFileIndexes)) ↔
          i ∈ (List.range n).map Int.ofNat ∧ i ∉ sortedSet o.unreadableFileIndexes := by
        rw [mem_sortedSet, List.mem_filter, decide_eq_true_eq]
      have hsome : sortedSet
          (((List.range n).map Int.ofNat).filter (· ∉ sortedSet o.unreadableFileIndexes)) ≠ [] := by
        obtain ⟨i, hi⟩ := List.exists_mem_of_ne_nil _ hreceipt
        have hrange := hwf.in_range i (by simp [hi])
        refine List.ne_nil_of_mem ((hmem i).2 ⟨List.mem_map.2 ⟨i.toNat, ?_, ?_⟩, ?_⟩)
        · rw [List.mem_range]
          omega
        · exact Int.toNat_of_nonneg hrange.1
        · exact fun h => hwf.receipt_unreadable i hi (mem_sortedSet.1 h)
      simp only [(policy_eq o _).2 hreceipt hevidence]
      rw [if_pos hsome]
      exact hrefused (refusal_unsupported hsome (fun i hi => ((hmem i).1 hi).2)
        (fun i hi => hin i ((hmem i).1 hi).1)
        hunreadable) fun h => hevidence h.evidence
  · -- The client does not accept the indexes.
    obtain ⟨e, he⟩ := (toExtractedFields_cases o n).2 hwf
    have hclassify : classify o command clock = .error .receiptOcrProviderUnavailable := by
      simp only [classify, OpenRouterReceiptOcrClient.extract, if_neg himages, hlength, he, bind,
        Except.bind]
    rw [hclassify]
    exact .refused .unavailable (fun h => hwf h.wellFormed) (iff_of_true rfl hwf)

/-! ## The use case -/

/-- There is a credit, and the counts after its use fit their columns. -/
def HasCredit (d : Database) (userId : UUID) : Prop :=
  ∃ h : 1 ≤ (d.balance userId).remainingCount,
    ((d.balance userId).spent ⟨1, CreditAmount.one_le_one⟩ h).fits = true

/-- Run alone with a credit, the use case returns or raises what the classification does. -/
theorem execute_alone_classify {command : ExtractReceiptOcrCommand} {clock : OcrClock}
    {ids : CreditIds} {d : Database} (hcredit : HasCredit d command.userId) :
    ((execute sqlAlchemyUnitOfWork
      (OpenRouterReceiptOcrClient.extract fun _ => some o) command clock ids).alone
      Statement.refused d d).result = (classify o command clock).mapError .domain := by
  obtain ⟨hcovers, hfits⟩ := hcredit
  have hreserve := @reserve_alone (useCreditCommand command) d d hcovers
  obtain ⟨w, hfinalize⟩ := @finalize_alone (useCreditCommand command) d d hcovers rfl rfl hfits ids
  rw [execute, Prog.bind_eq, Prog.alone_bind_ok hreserve, Prog.tryCatch_eq, Prog.alone_handle,
    classify, callClient, Prog.bind_eq, Prog.bind_eq, Prog.alone_bind,
    Prog.alone_bind_ok (alone_select rfl)]
  rcases OpenRouterReceiptOcrClient.extract (fun _ => some o) command.images with e | extracted
  · rfl
  · simp only [Tx.lift, Prog.alone_ret, bind, Except.bind]
    rcases analyze command extracted clock with e | result
    · rfl
    · dsimp only
      rw [Prog.ret_bind, Prog.alone_bind_ok hfinalize]
      rfl

/-- What the use case does with the answer `o`, run alone. -/
def outcome (o : ReceiptOcrStructuredOutput) (command : ExtractReceiptOcrCommand) (clock : OcrClock)
    (ids : CreditIds) (d : Database) : Except Error ReceiptOcrResult :=
  ((execute sqlAlchemyUnitOfWork
    (OpenRouterReceiptOcrClient.extract fun _ => some o) command clock ids).alone
    Statement.refused d d).result

/-- An answer about numbered images leaves a result exactly if it is recognised and its warranty
    expires in the calendar. Otherwise it is refused with one of four errors, or is a `ValueError`
    if only the calendar is exceeded; the provider is unavailable exactly if the indexes are
    malformed. -/
theorem classification_exact {command : ExtractReceiptOcrCommand} (hcommand : Numbered command n)
    {d : Database} (hcredit : HasCredit d command.userId) (o : ReceiptOcrStructuredOutput)
    (clock : OcrClock) (ids : CreditIds) :
    ((∃ r, outcome o command clock ids d = .ok r) ↔
      Recognised o n clock ∧ ¬AfterCalendar o.paymentDate o.expiresOn o.periodMonths clock) ∧
    (∀ e, outcome o command clock ids d = .error e →
      (∃ refusal, e = .domain refusal ∧ Refusal n refusal) ∨
      e = .domain (.other "ValueError") ∧ Recognised o n clock ∧
        AfterCalendar o.paymentDate o.expiresOn o.periodMonths clock) ∧
    (outcome o command clock ids d = .error (.domain .receiptOcrProviderUnavailable) ↔
      ¬WellFormed o n) := by
  have hresult : outcome o command clock ids d = (classify o command clock).mapError .domain :=
    execute_alone_classify hcredit
  have hclassify := outcome_classify (o := o) hcommand clock
  rw [hresult]
  generalize classify o command clock = result at hclassify
  cases hclassify with
  | refused hrefusal hnot hunavailable => simp [Except.mapError, hrefusal, hnot, hunavailable]
  | recognised r hrecognised hcalendar =>
    simp [Except.mapError, hrecognised, hcalendar, hrecognised.wellFormed]
  | overflow hrecognised hcalendar =>
    simp [Except.mapError, hrecognised, hcalendar, hrecognised.wellFormed]

end

/-- The image of a receipt. -/
def receiptImage : ExtractReceiptOcrCommand := ⟨.ofNat 1, [⟨0, [], "image/png"⟩]⟩

/-- The user has a credit. -/
def creditStore : Database :=
  Database.empty.setUserCredit (.ofNat 1)
    (some (CreditBalance.zero.granted ⟨1, CreditAmount.one_le_one⟩))

theorem classification_exact_tv :
    let today : Date := ⟨2026, 7, 1, by decide⟩
    (∃ r, outcome (namedOutput "TV") receiptImage ⟨today, today⟩
      ⟨.ofNat 2, ⟨.ofNat 3, 0⟩⟩ creditStore = .ok r) ∧
      ∃ e, outcome {} receiptImage ⟨today, today⟩ ⟨.ofNat 2, ⟨.ofNat 3, 0⟩⟩ creditStore =
        .error (.domain e) ∧ Refusal 1 e := by
  intro today
  have hcommand : Numbered receiptImage 1 := ⟨le_rfl, rfl⟩
  have hcredit : HasCredit creditStore receiptImage.userId := ⟨by decide, by decide +kernel⟩
  constructor
  · refine (classification_exact hcommand hcredit (namedOutput "TV") ⟨today, today⟩ _).1.2
      ⟨?_, fun h => absurd h.2 (by decide)⟩
    exact ⟨⟨by decide, by decide, by decide, by decide⟩, by decide, rfl, rfl,
      ⟨rfl, rfl, rfl, rfl, nofun⟩, ⟨by decide +kernel, by decide, by decide, by decide⟩⟩
  · have hnot : ¬Recognised {} 1 ⟨today, today⟩ := fun h => h.receipt rfl
    obtain ⟨hok, herror, -⟩ :=
      classification_exact hcommand hcredit {} ⟨today, today⟩ ⟨.ofNat 2, ⟨.ofNat 3, 0⟩⟩
    rcases h : outcome {} receiptImage ⟨today, today⟩ ⟨.ofNat 2, ⟨.ofNat 3, 0⟩⟩ creditStore with e | r
    · obtain ⟨refusal, rfl, hrefusal⟩ := (herror e h).resolve_right fun h => hnot h.2.1
      exact ⟨refusal, rfl, hrefusal⟩
    · exact absurd (hok.1 ⟨r, h⟩).1 hnot

/-- On the last day of the calendar, an answer is recognised without a result. -/
theorem classification_overflows :
    let lastDay : Date := ⟨9999, 12, 31, by decide⟩
    ¬((∃ r, outcome (namedOutput "TV") receiptImage ⟨lastDay, lastDay⟩
      ⟨.ofNat 2, ⟨.ofNat 3, 0⟩⟩ creditStore = .ok r) ↔
      Recognised (namedOutput "TV") 1 ⟨lastDay, lastDay⟩) := by
  intro lastDay h
  obtain ⟨r, hr⟩ := h.2 ⟨⟨by decide, by decide, by decide, by decide⟩, by decide, rfl, rfl,
    ⟨rfl, rfl, rfl, rfl, nofun⟩, ⟨by decide +kernel, by decide, by decide, by decide⟩⟩
  have hraises : (outcome (namedOutput "TV") receiptImage ⟨lastDay, lastDay⟩ ⟨.ofNat 2, ⟨.ofNat 3, 0⟩⟩
      creditStore).isOk = false := by
    decide +kernel
  rw [hr] at hraises
  cases hraises

end Boat
