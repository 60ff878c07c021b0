import Boat.Credits.UseCases
import Boat.Ocr.Domain

/-!
# OCR: use case

The analysis of the images of a receipt (`ExtractReceiptOcrCommandUseCase`), which
costs one credit: the credit is reserved before the client is called, and the usage
is finalized when there is a result. Whatever is raised in between rolls the
reservation back.
-/

namespace Boat

/-- `ReceiptOcrImage`. -/
structure ReceiptOcrImage where
  fileIndex : ℤ
  content : List UInt8
  contentType : String

/-- `ReceiptTransactionEvidence`. -/
structure ReceiptTransactionEvidence where
  merchant : Bool
  purchasedItem : Bool
  totalPaid : Bool
  paymentProof : Bool
  deriving DecidableEq, Repr

/-- `ExtractedReceiptOcrFields`. -/
structure ExtractedReceiptOcrFields where
  itemName : Option String
  brandName : Option String
  serialNumber : Option String
  paymentLocation : Option String
  paymentDate : Option Date
  totalAmount : Option ℤ
  periodMonths : Option ℤ
  category : Option String
  subCategory : Option String
  expiresOn : Option Date := none
  transactionEvidence : Option ReceiptTransactionEvidence := none
  receiptFileIndexes : List ℤ := []
  unreadableFileIndexes : List ℤ := []
  unsupportedFileIndexes : List ℤ := []
  deriving DecidableEq, Repr

/-- `ReceiptOcrClientPort.extract`: the fields it extracts, or the exception it raises. -/
abbrev ReceiptOcrClient := List ReceiptOcrImage → Except DomainError ExtractedReceiptOcrFields

/-- `ExtractReceiptOcrCommand`. -/
structure ExtractReceiptOcrCommand where
  userId : UUID
  images : List ReceiptOcrImage

/-- The dates of today that a result is made with. -/
structure OcrClock where
  today : Date
  todayChecked : Date

namespace ExtractReceiptOcrCommandUseCase

/-- `_enforce_supported_receipt_policy`. -/
def enforceSupportedReceiptPolicy (extracted : ExtractedReceiptOcrFields)
    (requestFileIndexes : List ℤ) : ExtractedReceiptOcrFields :=
  if extracted.receiptFileIndexes = [] then extracted
  else
    let hasRequiredEvidence := extracted.transactionEvidence.any fun e =>
      e.merchant && e.purchasedItem && e.totalPaid && e.paymentProof
    let hasRequiredFields := extracted.totalAmount.isSome
    if hasRequiredEvidence && hasRequiredFields then extracted
    else { extracted with
      receiptFileIndexes := []
      unsupportedFileIndexes :=
        sortedSet (requestFileIndexes.filter (· ∉ extracted.unreadableFileIndexes)) }

/-- The result for what the client has extracted. -/
def analyze (command : ExtractReceiptOcrCommand) (extracted : ExtractedReceiptOcrFields)
    (clock : OcrClock) : Except DomainError ReceiptOcrResult := do
  let fileIndexes := command.images.map (·.fileIndex)
  let extracted := enforceSupportedReceiptPolicy extracted fileIndexes
  if extracted.unsupportedFileIndexes ≠ [] then
    throw (unsupportedReceiptError extracted.unsupportedFileIndexes extracted.unreadableFileIndexes)
  if extracted.unreadableFileIndexes ≠ [] then
    throw (receiptImageUnreadableError extracted.unreadableFileIndexes)
  if extracted.receiptFileIndexes = [] then
    throw (unsupportedReceiptError fileIndexes)
  if strip (extracted.itemName.getD "") = "" then
    throw (receiptImageUnreadableError fileIndexes)
  ReceiptOcrResult.create extracted.itemName extracted.brandName extracted.serialNumber
    extracted.paymentLocation extracted.paymentDate extracted.totalAmount extracted.periodMonths
    extracted.category extracted.subCategory extracted.expiresOn clock.today clock.todayChecked

/-- The use of one credit. -/
def useCreditCommand (command : ExtractReceiptOcrCommand) : UseCreditCommand where
  userId := command.userId
  amount := ⟨1, CreditAmount.one_le_one⟩
  reason := .ocrUsage

/-- The call of the client. -/
def callClient (client : ReceiptOcrClient) (images : List ReceiptOcrImage) :
    Tx ExtractedReceiptOcrFields := do
  Tx.select .callOcrClient fun _ => ()
  Tx.lift (client images)

/-- `execute`. -/
def execute (unitOfWork : UnitOfWork) (client : ReceiptOcrClient)
    (command : ExtractReceiptOcrCommand) (clock : OcrClock) (ids : CreditIds) :
    Tx ReceiptOcrResult := do
  let pending ← ReserveCreditCommandUseCase.execute (useCreditCommand command)
  tryCatch (do
    let extracted ← callClient client command.images
    let result ← Tx.lift (analyze command extracted clock)
    FinalizeCreditUsageCommandUseCase.execute unitOfWork (useCreditCommand command) pending ids
    return result) fun exception => do
      -- the handlers of the single exceptions differ in what they log only
      unitOfWork.rollback
      throw exception

end ExtractReceiptOcrCommandUseCase

end Boat
