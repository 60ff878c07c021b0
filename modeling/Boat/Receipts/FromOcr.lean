import Boat.Ocr.Provider
import Boat.ReadCommitted.Deferred
import Boat.Receipts.Domain
import Boat.Text.Strip

/-!
# Receipts from OCR

A user who has paid for the analysis of a receipt saves its result. The two modules check the values
on their own: the dates, amounts, periods and categories of a result are those that a receipt may
have, but only a receipt limits the length of its texts (`ocr_savable`).
-/

namespace Boat.Receipts

open ReadCommitted

/-! ## Texts -/

theorem blankToNone_some (s : String) : blankToNone (some s) = if strip s = "" then none
    else some (strip s) := by
  simp only [blankToNone, Option.map_some, Option.filter_some]
  by_cases h : strip s = ""
  · simp [h]
  · simp [h]

theorem blankToNone_of_stripped {s : String} (hstrip : strip s = s)
    (hne : s ≠ "") : blankToNone (some s) = some s := by
  rw [blankToNone_some, hstrip, if_neg hne]

theorem blankToNone_eq_some {value : Option String} {s : String} (h : blankToNone value = some s) :
    strip s = s ∧ s ≠ "" := by
  rcases value with - | value
  · cases h
  · rw [blankToNone_some, Option.ite_none_left_eq_some] at h
    obtain ⟨hne, ⟨⟩⟩ := h
    exact ⟨strip_strip value, hne⟩

/-- A text is taken over if it fits. -/
theorem optionalText_eq_ok {value : Option String}
    (hvalue : ∀ s, value = some s → strip s = s ∧ s ≠ "") {fieldName label : String} {maxLength : ℕ}
    {text : Option String} :
    optionalText value fieldName label maxLength = .ok text ↔
      text = value ∧ ∀ s, value = some s → s.length ≤ maxLength := by
  rcases value with - | s
  · simp [optionalText, eq_comm]
  · obtain ⟨hstrip, hne⟩ := hvalue s rfl
    simp only [optionalText, hstrip, if_neg hne, Option.some.injEq]
    split
    · next hlt => simp [hlt]
    · next hle => simp [Nat.le_of_not_lt hle, eq_comm]

theorem requiredItemName_eq_ok {value : String} (hstrip : strip value = value) (hne : value ≠ "")
    {name : ItemName} :
    requiredItemName (some value) = .ok name ↔ name.value = value ∧ value.length ≤ 255 := by
  have hstrip' : strip (strip value) = value := by rw [hstrip, hstrip]
  simp only [requiredItemName, ItemName.create, hstrip', dif_neg hne]
  obtain ⟨n, hn, hlength⟩ := name
  split
  · next hlt => simp [hlt]
  · next hle =>
    simp only [Except.ok.injEq, ItemName.mk.injEq, hstrip, Nat.le_of_not_lt hle, and_true]
    exact eq_comm

/-! ## Results -/

theorem nonBlank_eq_ok {value fieldName message : String} {text : NonBlank} :
    NonBlank.create value fieldName message = .ok text → text.value = value := by
  rw [NonBlank.create]
  split
  · rintro ⟨⟩
  · rintro ⟨⟩
    rfl

theorem mapM_nonBlank_eq_ok {value : Option String} {fieldName message : String}
    {text : Option NonBlank} (h : value.mapM (NonBlank.create · fieldName message) = .ok text) :
    text.map (·.value) = value := by
  rcases value with - | value
  · cases h
    rfl
  · obtain ⟨text, htext, rfl⟩ := except_map_eq_ok.1 h
    exact congrArg some (nonBlank_eq_ok htext)

/-- What a result is made of. -/
theorem ocrResult_eq_ok {itemName brandName serialNumber paymentLocation : Option String}
    {paymentDate : Option Date} {totalAmount periodMonths : Option ℤ}
    {category subCategory : Option String} {expiresOn : Option Date} {today todayChecked : Date}
    {r : ReceiptOcrResult}
    (h : ReceiptOcrResult.create itemName brandName serialNumber paymentLocation paymentDate
      totalAmount periodMonths
      category subCategory expiresOn today todayChecked = .ok r) :
    r.itemName.value = strip (itemName.getD "") ∧ r.brandName.map (·.value) = blankToNone brandName ∧
      r.serialNumber = blankToNone serialNumber ∧
      r.paymentLocation.map (·.value) = blankToNone paymentLocation ∧
      todayChecked.before r.paymentDate = false ∧ r.paymentDate = paymentDate.getD today ∧
      r.category = (blankToNone category).getD ReceiptOcrResult.defaultCategory ∧
      r.subCategory = (blankToNone subCategory).getD ReceiptOcrResult.defaultSubCategory ∧
      match expiresOn.filter fun e => !e.before (paymentDate.getD today) with
        | some e => r.expiresOn = e
        | none => r.paymentDate.addMonths r.periodMonths.value = .ok r.expiresOn := by
  simp only [ReceiptOcrResult.create] at h
  split at h
  · next name date period brand location amount hname hdate hperiod hbrand hlocation hamount =>
    have hdate' : todayChecked.before date = false ∧ date = paymentDate.getD today := by
      rw [Boat.PaymentDate.create] at hdate
      split at hdate
      · cases hdate
      · next hbefore =>
        cases hdate
        exact ⟨Bool.eq_false_iff.2 hbefore, rfl⟩
    have htexts :=
      And.intro (nonBlank_eq_ok hname)
        (And.intro (mapM_nonBlank_eq_ok hbrand) (mapM_nonBlank_eq_ok hlocation))
    generalize (expiresOn.filter fun e => !e.before (paymentDate.getD today)) = resolved at h ⊢
    rcases resolved with - | e
    · obtain ⟨expires, hexpires, hr⟩ := except_bind_eq_ok.1 h
      cases hr
      exact ⟨htexts.1, htexts.2.1, rfl, htexts.2.2, hdate'.1, hdate'.2, rfl, rfl, hexpires⟩
    · cases h
      exact ⟨htexts.1, htexts.2.1, rfl, htexts.2.2, hdate'.1, hdate'.2, rfl, rfl, rfl⟩
  · cases h

/-- The arguments that save a result with a file. -/
def receiptArguments (result : ReceiptOcrResult) (userId fileId : UUID)
    (expiresOn : Option Date) : ReceiptArguments where
  userId := userId
  itemName := some result.itemName.value
  paymentDate := some result.paymentDate
  brandName := result.brandName.map (·.value)
  serialNumber := result.serialNumber
  paymentLocation := result.paymentLocation.map (·.value)
  totalAmount := result.totalAmount.map (·.value)
  periodMonths := some result.periodMonths.value
  expiresOn := expiresOn
  category := some (.text result.category)
  subCategory := some result.subCategory
  receiptFileIds := some [fileId]

/-- The day a result expires on is not the one of the answer. -/
def Derived (output : ReceiptOcrStructuredOutput) (today : Date) : Prop :=
  (output.expiresOn.filter fun e => !e.before (output.paymentDate.getD today)) = none

/-- A result can be saved as it is, and its expiry be derived again. -/
def Savable (output : ReceiptOcrStructuredOutput) (result : ReceiptOcrResult) (today : Date)
    (userId fileId newId : UUID) : Prop :=
  (∃ r,
    Receipt.create (receiptArguments result userId fileId (some result.expiresOn)) today newId =
      .ok r ∧
    r.itemName.value = result.itemName.value ∧ r.paymentDate = result.paymentDate ∧
    r.totalAmount.map (·.value) = result.totalAmount.map (·.value) ∧
    r.periodMonths.value = result.periodMonths.value ∧ r.expiresOn = result.expiresOn ∧
    r.category.map (·.apiLabel) = some result.category) ∧
  (Derived output today →
    ∃ r, Receipt.create (receiptArguments result userId fileId none) today newId = .ok r ∧
    r.expiresOn = result.expiresOn)

/-- The texts of an answer fit a receipt. -/
def Fits (output : ReceiptOcrStructuredOutput) : Prop :=
  (strip (output.itemName.getD "")).length ≤ 255 ∧
    (∀ s, blankToNone output.brandName = some s → s.length ≤ 255) ∧
    (∀ s, blankToNone output.serialNumber = some s → s.length ≤ 255) ∧
    ∀ s, blankToNone output.paymentLocation = some s → s.length ≤ 500

/-- The category of a result is the label of one of a receipt. -/
theorem optionalCategory_apiLabel (category : Option OcrReceiptCategory) : ∃ c,
    optionalCategory
      (some (.text (category.elim ReceiptOcrResult.defaultCategory OcrReceiptCategory.apiLabel))) =
      .ok (some c) ∧
      c.apiLabel = category.elim ReceiptOcrResult.defaultCategory OcrReceiptCategory.apiLabel := by
  rcases category with - | category
  · exact ⟨.otherDevice, by decide +kernel, rfl⟩
  · cases category with
    | kitchenAppliance => exact ⟨.kitchenAppliance, by decide +kernel, rfl⟩
    | laundryCleaning => exact ⟨.laundryCleaning, by decide +kernel, rfl⟩
    | livingClimate => exact ⟨.livingClimate, by decide +kernel, rfl⟩
    | itDevice => exact ⟨.itDevice, by decide +kernel, rfl⟩
    | otherDevice => exact ⟨.otherDevice, by decide +kernel, rfl⟩

theorem labels_stripped (category : Option OcrReceiptCategory) :
    let label := category.elim ReceiptOcrResult.defaultCategory OcrReceiptCategory.apiLabel
    strip label = label ∧ label ≠ "" := by
  rcases category with - | category
  · decide +kernel
  · cases category with
    | kitchenAppliance => decide +kernel
    | laundryCleaning => decide +kernel
    | livingClimate => decide +kernel
    | itDevice => decide +kernel
    | otherDevice => decide +kernel

/-- A literal is a sub-category of a receipt. -/
theorem subCategoryLiterals_fit : ∀ s ∈ subCategoryLiterals, strip s = s ∧ s ≠ "" ∧
    s.length ≤ 100 := by
  decide +kernel

theorem blankToNone_blankToNone (value : Option String) :
    blankToNone (blankToNone value) = blankToNone value := by
  rcases h : blankToNone value with - | s
  · rfl
  · obtain ⟨hstrip, hne⟩ := blankToNone_eq_some h
    exact blankToNone_of_stripped hstrip hne

theorem strip_getD_blankToNone (value : Option String) :
    strip ((blankToNone value).getD "") = strip (value.getD "") := by
  rcases value with - | s
  · rfl
  · rw [blankToNone_some]
    split
    · next h => exact h.symm
    · exact strip_strip s

/-- A result of the analysis of an answer. -/
structure OfOutput (output : ReceiptOcrStructuredOutput) (today : Date)
    (r : ReceiptOcrResult) : Prop where
  itemName : r.itemName.value = strip (output.itemName.getD "")
  brandName : r.brandName.map (·.value) = blankToNone output.brandName
  serialNumber : r.serialNumber = blankToNone output.serialNumber
  paymentLocation : r.paymentLocation.map (·.value) = blankToNone output.paymentLocation
  not_future : today.before r.paymentDate = false
  paymentDate : r.paymentDate = output.paymentDate.getD today
  category : r.category =
    output.category.elim ReceiptOcrResult.defaultCategory OcrReceiptCategory.apiLabel
  subCategory : r.subCategory ∈ subCategoryLiterals
  expiresOn : match output.expiresOn.filter fun e => !e.before (output.paymentDate.getD today) with
    | some e => r.expiresOn = e
    | none => r.paymentDate.addMonths r.periodMonths.value = .ok r.expiresOn

theorem ofOutput_of_analyze {output : ReceiptOcrStructuredOutput} {imageCount : ℕ} {today : Date}
    {command : ExtractReceiptOcrCommand} {extracted : ExtractedReceiptOcrFields}
    {r : ReceiptOcrResult} (hextracted : output.toExtractedFields imageCount = .ok extracted)
    (h : ExtractReceiptOcrCommandUseCase.analyze command extracted ⟨today, today⟩ = .ok r) :
    OfOutput output today r := by
  obtain ⟨h₁, h₂, h₃, h₄, h₅, -, -, h₈, h₉, h₁₀⟩ :=
    ReceiptOcrStructuredOutput.toExtractedFields_eq_ok hextracted
  -- The policy of supported receipts keeps the fields.
  have hpolicy : ∀ indexes,
      (ExtractReceiptOcrCommandUseCase.enforceSupportedReceiptPolicy extracted indexes) =
        { extracted with
          receiptFileIndexes :=
            (ExtractReceiptOcrCommandUseCase.enforceSupportedReceiptPolicy extracted
              indexes).receiptFileIndexes
          unsupportedFileIndexes :=
            (ExtractReceiptOcrCommandUseCase.enforceSupportedReceiptPolicy extracted
              indexes).unsupportedFileIndexes } := by
    intro indexes
    simp only [ExtractReceiptOcrCommandUseCase.enforceSupportedReceiptPolicy]
    split
    · rfl
    · split <;> rfl
  rw [ExtractReceiptOcrCommandUseCase.analyze, hpolicy] at h
  simp only [bind, Except.bind, throw, throwThe, MonadExceptOf.throw] at h
  split at h
  · cases h
  split at h
  · cases h
  split at h
  · cases h
  split at h
  · cases h
  obtain ⟨hname, hbrand, hserial, hlocation, hfuture, hdate, hcategory, hsub, hexpires⟩ :=
    ocrResult_eq_ok h
  have hlabel : ∀ c : Option OcrReceiptCategory,
      blankToNone (some (c.elim ReceiptOcrResult.defaultCategory OcrReceiptCategory.apiLabel)) =
        some (c.elim ReceiptOcrResult.defaultCategory OcrReceiptCategory.apiLabel) := by
    intro c
    obtain ⟨hstrip, hne⟩ := labels_stripped c
    exact blankToNone_of_stripped hstrip hne
  have hliteral : ∀ c : Option SubCategoryLiteral,
      (blankToNone (c.map (·.1))).getD ReceiptOcrResult.defaultSubCategory ∈ subCategoryLiterals := by
    rintro (- | ⟨c, hc⟩)
    · decide
    · obtain ⟨hstrip, hne, -⟩ := subCategoryLiterals_fit c hc
      rw [Option.map_some, blankToNone_of_stripped hstrip hne]
      exact hc
  refine ⟨?_, ?_, ?_, ?_, hfuture, ?_, ?_, ?_, ?_⟩
  · rw [hname, h₁, strip_getD_blankToNone]
  · rw [hbrand, h₂, blankToNone_blankToNone]
  · rw [hserial, h₃, blankToNone_blankToNone]
  · rw [hlocation, h₄, blankToNone_blankToNone]
  · rw [hdate, h₅]
  · rw [hcategory, h₉, hlabel]
    rfl
  · obtain ⟨hstrip, hne, -⟩ := subCategoryLiterals_fit _ (hliteral output.subCategory)
    rw [hsub, h₁₀, blankToNone_of_stripped hstrip hne]
    exact hliteral output.subCategory
  · rwa [h₅, h₈] at hexpires

/-! ## Saving -/

section

variable {output : ReceiptOcrStructuredOutput} {result : ReceiptOcrResult} {today : Date}
  {userId fileId newId : UUID}

/-- A result that fits makes a receipt, for every day it may expire on. -/
theorem exists_created (hof : OfOutput output today result) (hfits : Fits output)
    (expiresOn : Option Date) {e : Date}
    (he : resolveExpiresOn expiresOn result.paymentDate result.periodMonths.value = .ok e) :
    ∃ r, Receipt.create (receiptArguments result userId fileId expiresOn) today newId = .ok r ∧
      r.itemName.value = result.itemName.value ∧ r.paymentDate = result.paymentDate ∧
      r.totalAmount.map (·.value) = result.totalAmount.map (·.value) ∧
      r.periodMonths.value = result.periodMonths.value ∧ r.expiresOn = e ∧
      r.category.map (·.apiLabel) = some result.category := by
  obtain ⟨hname, hbrand, hserial, hlocation⟩ := hfits
  rw [← hof.itemName] at hname
  rw [← hof.brandName] at hbrand
  rw [← hof.serialNumber] at hserial
  rw [← hof.paymentLocation] at hlocation
  have hstrip : strip result.itemName.value = result.itemName.value := by
    rw [hof.itemName, strip_strip]
  have hne : result.itemName.value ≠ "" := hstrip ▸ result.itemName.not_blank
  obtain ⟨category, hcategory, hlabel⟩ := optionalCategory_apiLabel output.category
  -- The category and its subcategory are literals of the schema, which are short enough.
  obtain ⟨hsub, hsubne, hsublength⟩ := subCategoryLiterals_fit _ hof.subCategory
  rw [← hof.category] at hcategory hlabel
  have hperiod := result.periodMonths.value_le
  refine ⟨⟨newId, userId, ⟨result.itemName.value, result.itemName.not_blank, hstrip.symm ▸ hname⟩,
    result.brandName.map (·.value), result.serialNumber, result.paymentLocation.map (·.value),
      result.paymentDate,
    result.totalAmount.map fun a => ⟨a.value, a.le_value⟩,
      ⟨result.periodMonths.value, result.periodMonths.le_value⟩, e,
    some category, some result.subCategory, none, false, ⟨[fileId], by simp, by simp, by simp⟩⟩,
    Receipt.create_eq_ok.2 ?_, rfl, rfl, ?_, rfl, rfl, congrArg some hlabel⟩
  · refine ⟨rfl, rfl, (requiredItemName_eq_ok hstrip hne).2 ⟨rfl, hname⟩, ?_, ?_, ?_,
      (optionalText_eq_ok fun s hs => blankToNone_eq_some (hof.brandName.symm.trans hs)).2
        ⟨rfl, hbrand⟩,
      (optionalText_eq_ok fun s hs => blankToNone_eq_some (hof.serialNumber.symm.trans hs)).2
        ⟨rfl, hserial⟩,
      (optionalText_eq_ok fun s hs => blankToNone_eq_some (hof.paymentLocation.symm.trans hs)).2
        ⟨rfl, hlocation⟩, hcategory,
      (optionalText_eq_ok ?_).2 ⟨rfl, ?_⟩, rfl, rfl, rfl, he⟩
    · show PaymentDate.create result.paymentDate today = _
      rw [PaymentDate.create, if_neg (Bool.eq_false_iff.1 hof.not_future)]
    · show (result.totalAmount.map (·.value)).mapM TotalAmount.create = _
      rcases result.totalAmount with - | amount
      · rfl
      · exact except_map_eq_ok.2 ⟨_, dif_pos ⟨amount.le_value, amount.value_le⟩, rfl⟩
    · exact dif_pos ⟨result.periodMonths.le_value, hperiod⟩
    · rintro s ⟨⟩
      exact ⟨hsub, hsubne⟩
    · rintro s ⟨⟩
      exact hsublength
  · simp only [Option.map_map]
    rfl

/-- Only the lengths of the texts are in the way of saving a result. -/
theorem savable_iff (hof : OfOutput output today result) :
    Savable output result today userId fileId newId ↔ Fits output := by
  constructor
  · rintro ⟨⟨r, hr, -⟩, -⟩
    have hr := Receipt.create_eq_ok.1 hr
    have hstrip : strip result.itemName.value = result.itemName.value := by
      rw [hof.itemName, strip_strip]
    obtain ⟨-, hname⟩ :=
      (requiredItemName_eq_ok hstrip (hstrip ▸ result.itemName.not_blank)).1 hr.itemName
    obtain ⟨-, hbrand⟩ :=
      (optionalText_eq_ok fun s hs => blankToNone_eq_some (hof.brandName.symm.trans hs)).1
        hr.brandName
    obtain ⟨-, hserial⟩ :=
      (optionalText_eq_ok fun s hs => blankToNone_eq_some (hof.serialNumber.symm.trans hs)).1
        hr.serialNumber
    obtain ⟨-, hlocation⟩ :=
      (optionalText_eq_ok fun s hs => blankToNone_eq_some (hof.paymentLocation.symm.trans hs)).1
        hr.paymentLocation
    exact ⟨hof.itemName ▸ hname, fun s hs => hbrand s (hof.brandName.trans hs),
      fun s hs => hserial s (hof.serialNumber.trans hs), fun s hs =>
        hlocation s (hof.paymentLocation.trans hs)⟩
  · intro hfits
    have hexpires := hof.expiresOn
    constructor
    · refine exists_created hof hfits _ ?_
      -- The expiry was checked against the payment, or derived from it.
      have hbefore : result.expiresOn.before result.paymentDate = false := by
        split at hexpires
        · next e he =>
          rw [hexpires, hof.paymentDate]
          simpa using (Option.filter_eq_some_iff.1 he).2
        · exact Date.not_before_of_addMonths result.periodMonths.le_value hexpires
      rw [resolveExpiresOn, hbefore]
      rfl
    · intro hderived
      rw [Derived] at hderived
      rw [hderived] at hexpires
      obtain ⟨r, hr, -, -, -, -, he, -⟩ := exists_created hof hfits none hexpires
      exact ⟨r, hr, he⟩

end

/-- An analysis of an answer returns a result of it. -/
theorem returns_ofOutput {output : ReceiptOcrStructuredOutput} {command : ExtractReceiptOcrCommand}
    {today : Date} {ids : CreditIds} : (ExtractReceiptOcrCommandUseCase.execute sqlAlchemyUnitOfWork
      (OpenRouterReceiptOcrClient.extract fun _ => some output) command ⟨today, today⟩ ids).Returns
      (OfOutput output today) := by
  have hlift : ∀ {α : Type} {R : α → Prop} (x : Except DomainError α),
      (∀ a, x = .ok a → R a) → (Tx.lift x).Returns R := by
    intro α R x h
    rcases x with e | a
    · trivial
    · exact h a rfl
  simp only [ExtractReceiptOcrCommandUseCase.execute, ExtractReceiptOcrCommandUseCase.callClient,
    Prog.bind_eq, Prog.tryCatch_eq, Prog.throw_eq, Prog.pure_eq, Prog.returns_bind]
  refine .of_forall (fun pending => .handle ?_ fun e => ?_) _
  · rw [Prog.returns_bind, Prog.returns_bind]
    refine .of_forall (fun _ => hlift _ fun extracted hclient => ?_) _
    rw [Prog.returns_bind]
    refine hlift _ fun result hanalyze => ?_
    rw [Prog.returns_bind]
    refine .of_forall (fun _ => ?_) _
    -- The client has extracted the fields of the answer.
    rw [OpenRouterReceiptOcrClient.extract] at hclient
    split at hclient
    · cases hclient
    · rcases hextracted : output.toExtractedFields command.images.length with e | fields
      · simp only [hextracted] at hclient
        cases hclient
      · simp only [hextracted] at hclient
        cases hclient
        exact ofOutput_of_analyze hextracted hanalyze
  · rw [Prog.returns_bind]
    exact .of_forall (fun _ => trivial) _

/-- A result that is returned can be saved exactly if the texts of the answer are not too long. -/
theorem ocr_savable {ι : Type} [DecidableEq ι] {prog : ι → Tx ReceiptOcrResult} {i : ι} {d : Database}
    {s : System ι Database Statement Error ReceiptOcrResult} {output : ReceiptOcrStructuredOutput}
    {command : ExtractReceiptOcrCommand} {today : Date} {ids : CreditIds} {result : ReceiptOcrResult}
    (hprog : prog i = ExtractReceiptOcrCommandUseCase.execute sqlAlchemyUnitOfWork
      (OpenRouterReceiptOcrClient.extract fun _ => some output) command ⟨today, today⟩ ids)
    (hs : Reach Always (System.init prog d) s) (hresult : s.returned i = some result)
    (userId fileId newId : UUID) :
    Savable output result today userId fileId newId ↔ Fits output :=
  savable_iff (hs.returns (hprog ▸ returns_ofOutput) hresult)

/-- An answer with an item of this name. -/
def namedOutput (itemName : String) : ReceiptOcrStructuredOutput where
  itemName := some itemName
  totalAmount := some 100
  transactionEvidence := ⟨true, true, true, true⟩
  receiptFileIndexes := [0]

/-- A television is saved. -/
theorem ocr_savable_tv :
    let output := namedOutput "TV"
    let command : ExtractReceiptOcrCommand := ⟨.ofNat 1, [⟨0, [], "image/png"⟩]⟩
    let today : Date := ⟨2026, 7, 1, by decide⟩
    let d := Database.empty.setUserCredit (.ofNat 1)
      (some (CreditBalance.zero.granted ⟨1, CreditAmount.one_le_one⟩))
    ∃ s result, Reach Always
      (System.init (fun _ : Unit => ExtractReceiptOcrCommandUseCase.execute sqlAlchemyUnitOfWork
        (OpenRouterReceiptOcrClient.extract fun _ => some output) command ⟨today, today⟩
        ⟨.ofNat 2, ⟨.ofNat 3, 0⟩⟩) d) s ∧ s.returned () = some result ∧
      Savable output result today (.ofNat 1) (.ofNat 4) (.ofNat 5) := by
  intro output command today d
  obtain ⟨s, hs, hreturned⟩ := System.exists_reach (C := Always)
    (s := System.init (fun _ : Unit => ExtractReceiptOcrCommandUseCase.execute sqlAlchemyUnitOfWork
      (OpenRouterReceiptOcrClient.extract fun _ => some output) command ⟨today, today⟩
        ⟨.ofNat 2, ⟨.ofNat 3, 0⟩⟩) d)
    (p := fun s => (s.returned ()).isSome) (List.replicate 7 (.run ())) (by decide +kernel)
  obtain ⟨result, hresult⟩ := Option.isSome_iff_exists.1 hreturned
  refine ⟨s, result, hs, hresult,
    (ocr_savable (i := ()) (by rfl) hs hresult (.ofNat 1) (.ofNat 4) (.ofNat 5)).2 ?_⟩
  refine ⟨by decide +kernel, ?_, ?_, ?_⟩
  · rintro s ⟨⟩
  · rintro s ⟨⟩
  · rintro s ⟨⟩

/-- A receipt with a name of 256 characters is analyzed, and charged, but the result cannot be
    saved. -/
theorem ocr_not_savable :
    let output := namedOutput (.ofList (.replicate 256 'a'))
    let command : ExtractReceiptOcrCommand := ⟨.ofNat 1, [⟨0, [], "image/png"⟩]⟩
    let today : Date := ⟨2026, 7, 1, by decide⟩
    let d := Database.empty.setUserCredit (.ofNat 1)
      (some (CreditBalance.zero.granted ⟨1, CreditAmount.one_le_one⟩))
    ∃ s result, Reach Always
      (System.init (fun _ : Unit => ExtractReceiptOcrCommandUseCase.execute sqlAlchemyUnitOfWork
        (OpenRouterReceiptOcrClient.extract fun _ => some output) command ⟨today, today⟩
        ⟨.ofNat 2, ⟨.ofNat 3, 0⟩⟩) d) s ∧ s.returned () = some result ∧
      ¬Savable output result today (.ofNat 1) (.ofNat 4) (.ofNat 5) := by
  intro output command today d
  obtain ⟨s, hs, hreturned⟩ := System.exists_reach (C := Always)
    (s := System.init (fun _ : Unit => ExtractReceiptOcrCommandUseCase.execute sqlAlchemyUnitOfWork
      (OpenRouterReceiptOcrClient.extract fun _ => some output) command ⟨today, today⟩
        ⟨.ofNat 2, ⟨.ofNat 3, 0⟩⟩) d)
    (p := fun s => (s.returned ()).isSome) (List.replicate 7 (.run ())) (by decide +kernel)
  obtain ⟨result, hresult⟩ := Option.isSome_iff_exists.1 hreturned
  refine ⟨s, result, hs, hresult, fun hsavable => ?_⟩
  obtain ⟨hname, -⟩ := (savable_iff (hs.returns returns_ofOutput hresult)).1 hsavable
  exact absurd hname (by decide +kernel)

end Boat.Receipts
