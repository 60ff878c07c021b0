import Boat.Core.Months
import Boat.Receipts.FromOcr

/-!
# Receipts: days that warranties expire on

The modules of receipts and of the OCR have a copy of `_add_months` each. Both add months as the
calendar has them, and a warranty whose expiry is derived ends after the day of the payment
(`derived_after_payment`).
-/

namespace Boat

/-- The period of a warranty is in the calendar, unless the payment is in its last ten years. -/
theorem monthIndex_add_le {d : Date} {m : ℤ} (hd : d.year ≤ 9989)
    (hm : m ≤ 120) : (d.monthIndex + m) / 12 ≤ 9999 := by
  obtain ⟨-, ⟨-, hmonth⟩, -⟩ := d.valid
  rw [Date.monthIndex]
  omega

theorem Receipts.before_of_derived {a : Receipts.ReceiptArguments} {today : Date} {newId : UUID}
    {r : Receipts.Receipt} (h : Receipts.Receipt.create a today newId = .ok r)
    (hderived : a.expiresOn = none) :
    Receipts.addMonths r.paymentDate r.periodMonths.value = .ok r.expiresOn ∧
    r.paymentDate.before r.expiresOn = true := by
  have hexpires := (Receipts.Receipt.create_eq_ok.1 h).expiresOn
  rw [hderived] at hexpires
  exact ⟨hexpires, monthAddition_addMonths.after _ _ _ r.periodMonths.le_value hexpires⟩

theorem Ocr.before_of_derived {itemName brandName serialNumber paymentLocation : Option String}
    {paymentDate : Option Date} {totalAmount periodMonths : Option ℤ}
    {category subCategory : Option String} {expiresOn : Option Date} {today todayChecked : Date}
    {r : ReceiptOcrResult}
    (h : ReceiptOcrResult.create itemName brandName serialNumber paymentLocation paymentDate
      totalAmount periodMonths
      category subCategory expiresOn today todayChecked = .ok r)
    (hderived : ∀ e ∈ expiresOn, e.before r.paymentDate = true) :
    Ocr.addMonths r.paymentDate r.periodMonths.value = .ok r.expiresOn ∧
    r.paymentDate.before r.expiresOn = true := by
  obtain ⟨-, -, -, -, -, hpayment, -, -, hexpires⟩ := Receipts.ocrResult_eq_ok h
  have hnone : (expiresOn.filter fun e => !e.before (paymentDate.getD today)) = none := by
    rw [Option.filter_eq_none_iff]
    intro e he
    rw [← hpayment, hderived e he]
    decide
  rw [hnone] at hexpires
  exact ⟨hexpires, monthAddition_addMonths.after _ _ _ r.periodMonths.le_value hexpires⟩

/-- Both copies add months as the calendar has them, and agree; what expires on a day that is
    derived, of a receipt or of a result of the OCR, expires after the day of its payment. -/
theorem derived_after_payment :
    MonthAddition Receipts.addMonths ∧ MonthAddition Ocr.addMonths ∧
    Receipts.addMonths = Ocr.addMonths ∧
    (∀ d m, d.year ≤ 9989 → 1 ≤ m → m ≤ 120 → ∃ e, Receipts.addMonths d m = .ok e ∧
      Ocr.addMonths d m = .ok e) ∧
    (∀ (a : Receipts.ReceiptArguments) today newId r,
      Receipts.Receipt.create a today newId = .ok r → a.expiresOn = none →
      Receipts.addMonths r.paymentDate r.periodMonths.value = .ok r.expiresOn ∧
      r.paymentDate.before r.expiresOn = true) ∧
    ∀ itemName brandName serialNumber paymentLocation paymentDate totalAmount periodMonths category
      subCategory expiresOn today
        todayChecked r,
          ReceiptOcrResult.create itemName brandName serialNumber paymentLocation paymentDate
            totalAmount
        periodMonths category subCategory expiresOn today todayChecked = .ok r →
      (∀ e ∈ expiresOn, e.before r.paymentDate = true) →
      Ocr.addMonths r.paymentDate r.periodMonths.value = .ok r.expiresOn ∧
      r.paymentDate.before r.expiresOn = true := by
  refine ⟨monthAddition_addMonths, monthAddition_addMonths, rfl,
    fun d m hd hm hm' => ?_, fun a today newId r h hderived => ?_, ?_⟩
  · obtain ⟨e, he⟩ := Date.exists_addMonths hm (monthIndex_add_le hd hm')
    exact ⟨e, he, he⟩
  · exact Receipts.before_of_derived h hderived
  · intro _ _ _ _ _ _ _ _ _ _ _ _ _ h hderived
    exact Ocr.before_of_derived h hderived

end Boat
