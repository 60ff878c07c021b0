import Boat.Receipts.Database
import Boat.Receipts.Domain
import Mathlib.Data.Finset.Insert

/-!
# Receipts: use cases

The repository of the receipts module (`SqlAlchemyReceiptRepository`), and the update of a receipt
(`UpdateReceiptCommandUseCase`), a partial one: the receipt is read, created anew from what is read
and what the command updates, and written column by column.
-/

namespace Boat.Receipts

open ReadCommitted

/-- `ReceiptReadModel`. -/
structure ReceiptReadModel where
  receiptId : UUID
  userId : UUID
  itemName : String
  brandName : Option String
  serialNumber : Option String
  paymentLocation : Option String
  paymentDate : Date
  totalAmount : Option ℤ
  periodMonths : ℤ
  expiresOn : Date
  category : Option ReceiptCategory
  subCategory : Option String
  memo : Option String
  requiresPhysicalReceipt : Bool
  receiptFileIds : List UUID
  registeredAt : Timestamp
  deriving DecidableEq, Repr

/-! ## Programs -/

/-- The statements of the repository. Those of an update say what the update has read first
    (`current`). -/
inductive ReceiptsStatement
  | selectReceipt
  | selectFileIds
  | selectUpdated (current : ReceiptReadModel)
  | updateReceipt (id : UUID)
  /-- `DELETE` looks for the rows. -/
  | findAttachments (receiptId : UUID)
  /-- `DELETE` locks and deletes the rows that it has found, those that are still there. -/
  | deleteAttachments (current : ReceiptReadModel) (found : List ReceiptAttachment)
  | insertAttachments (attachments : List ReceiptAttachment)
  deriving DecidableEq, Repr

inductive ReceiptsError
  | domain (e : DomainError)
  /-- `ReceiptNotFoundError`. -/
  | receiptNotFound (receiptId : UUID)
  /-- `IntegrityError`. -/
  | integrity (entry : ReceiptsEntry)
  /-- `StaleDataError`. -/
  | stale
  /-- A statement fails. -/
  | fault (s : ReceiptsStatement)
  /-- The commit fails. -/
  | commitFailed
  deriving DecidableEq, Repr

/-- `DBAPIError`, of a text that the database does not take. -/
def notTaken : ReceiptsError := .domain (.other "DBAPIError")

abbrev ReceiptsTx := Prog ReceiptsDatabase ReceiptsStatement ReceiptsError

namespace ReceiptsTx

def exec {α : Type} (s : ReceiptsStatement) (c : Command ReceiptsDatabase ReceiptsError α) :
    ReceiptsTx α :=
  Prog.exec s (.fault s) c

/-- A query without locks. -/
def select {α : Type} (s : ReceiptsStatement) (f : ReceiptsDatabase → α) : ReceiptsTx α :=
  exec s (.query (fun _ => []) f)

/-- The result of a domain function. -/
def lift {α : Type} : Except DomainError α → ReceiptsTx α
  | .ok a => .ret a
  | .error e => .raise (.domain e)

end ReceiptsTx

/-! ## Repository -/

/-- `mapper.record_to_read_model`. -/
def recordToReadModel (record : ReceiptRecord) (receiptFileIds : List UUID) : ReceiptReadModel where
  receiptId := record.id
  userId := record.userId
  itemName := record.itemName
  brandName := record.brandName
  serialNumber := record.serialNumber
  paymentLocation := record.paymentLocation
  paymentDate := record.paymentDate
  totalAmount := record.totalAmount
  periodMonths := record.periodMonths
  expiresOn := record.expiresOn
  category := record.category
  subCategory := record.subCategory
  memo := record.memo
  requiresPhysicalReceipt := record.requiresPhysicalReceipt
  receiptFileIds := receiptFileIds
  registeredAt := record.createdAt

/-- What an update assigns to the record it has found. -/
def Receipt.assign (receipt : Receipt) (record : ReceiptRecord) : ReceiptRecord :=
  { record with
    itemName := receipt.itemName.value
    brandName := receipt.brandName
    serialNumber := receipt.serialNumber
    paymentLocation := receipt.paymentLocation
    paymentDate := receipt.paymentDate
    totalAmount := receipt.totalAmount.map (·.value)
    periodMonths := receipt.periodMonths.value
    expiresOn := receipt.expiresOn
    category := receipt.category
    subCategory := receipt.subCategory
    memo := receipt.memo
    requiresPhysicalReceipt := receipt.requiresPhysicalReceipt }

/-- A column after a flush: written if its attribute has changed since it was loaded. -/
def flushColumn {α : Type} [DecidableEq α] (loaded assigned stored : α) : α :=
  if assigned = loaded then stored else assigned

/-- The row after the flush of a record. -/
def flushRecord (loaded assigned stored : ReceiptRecord) : ReceiptRecord :=
  { stored with
    itemName := flushColumn loaded.itemName assigned.itemName stored.itemName
    brandName := flushColumn loaded.brandName assigned.brandName stored.brandName
    serialNumber := flushColumn loaded.serialNumber assigned.serialNumber stored.serialNumber
    paymentLocation :=
      flushColumn loaded.paymentLocation assigned.paymentLocation stored.paymentLocation
    paymentDate := flushColumn loaded.paymentDate assigned.paymentDate stored.paymentDate
    totalAmount := flushColumn loaded.totalAmount assigned.totalAmount stored.totalAmount
    periodMonths := flushColumn loaded.periodMonths assigned.periodMonths stored.periodMonths
    expiresOn := flushColumn loaded.expiresOn assigned.expiresOn stored.expiresOn
    category := flushColumn loaded.category assigned.category stored.category
    subCategory := flushColumn loaded.subCategory assigned.subCategory stored.subCategory
    memo := flushColumn loaded.memo assigned.memo stored.memo
    requiresPhysicalReceipt :=
      flushColumn loaded.requiresPhysicalReceipt assigned.requiresPhysicalReceipt
        stored.requiresPhysicalReceipt }

/-- The records of the files of a receipt, with the identities they get. -/
def attachmentRecords (receiptId : UUID) (fileIds : List UUID)
    (newId : UUID → UUID) : List ReceiptAttachment :=
  fileIds.map fun fileId => ⟨newId fileId, receiptId, fileId⟩

namespace SqlAlchemyReceiptRepository

/-- `_file_ids_for_receipt`. -/
def fileIdsForReceipt (receiptId : UUID) : ReceiptsTx (List UUID) :=
  ReceiptsTx.select .selectFileIds (·.fileIds receiptId)

/-- `find_by_id_for_user`. -/
def findByIdForUser (receiptId userId : UUID) : ReceiptsTx (Option ReceiptReadModel) := do
  match ← ReceiptsTx.select .selectReceipt (·.receiptOf receiptId userId) with
  | none => return none
  | some record => return some (recordToReadModel record (← fileIdsForReceipt record.id))

/-- The `UPDATE` of a flush, if there is something to write. It is refused for a text that the
    database does not take, which is one that has changed, as it has not been stored. -/
def flushUpdate (loaded assigned : ReceiptRecord) : ReceiptsTx Unit :=
  if assigned = loaded then .ret ()
  else ReceiptsTx.exec (.updateReceipt loaded.id) <|
    if assigned.Sendable then
      .update (fun v => v.receipts.find loaded.id) (.row <| .receipt ·.id) .stale
        (fun stored => ReceiptsDatabase.updateReceipt (flushRecord loaded assigned stored))
        fun stored => ReceiptsDatabase.touches_updateReceipt (flushRecord loaded assigned stored)
    else .refuse notTaken

/-- `delete(orm.ReceiptAttachment)`: the rows are those that are there when the statement begins. -/
def deleteAttachments (receiptId : UUID) (current : ReceiptReadModel) : ReceiptsTx Unit := do
  let found ← ReceiptsTx.select (.findAttachments receiptId) (·.attachmentsOf receiptId)
  let _ ← ReceiptsTx.exec (.deleteAttachments current found)
    (.modify (fun v => found.filter (· ∈ v.attachments)) (List.map (.row <| .attachment ·.id))
      ReceiptsDatabase.deleteAttachments ReceiptsDatabase.touches_deleteAttachments)

def insertAttachments (attachments : List ReceiptAttachment) : ReceiptsTx Unit :=
  ReceiptsTx.exec (.insertAttachments attachments)
    (.insert .entry ReceiptsDatabase.hasEntry .integrity (attachments.flatMap (·.entries))
      (ReceiptsDatabase.insertAttachments attachments)
        (ReceiptsDatabase.touches_insertAttachments attachments))

/-- `update`, for an update that has read `current` first. -/
def update (receipt : Receipt) (current : ReceiptReadModel)
    (newId : UUID → UUID) : ReceiptsTx (Option ReceiptReadModel) := do
  match ← ReceiptsTx.select (.selectUpdated current) (·.receiptOf receipt.id receipt.userId) with
  | none => return none
  | some record =>
    let assigned := receipt.assign record
    flushUpdate record assigned
    deleteAttachments receipt.id current
    insertAttachments (attachmentRecords receipt.id receipt.receiptFileIds.value newId)
    return some (recordToReadModel assigned (← fileIdsForReceipt record.id))

end SqlAlchemyReceiptRepository

/-! ## Update -/

/-- The fields that a command may update. -/
inductive ReceiptField
  | itemName
  | brandName
  | serialNumber
  | paymentLocation
  | paymentDate
  | totalAmount
  | periodMonths
  | expiresOn
  | category
  | subCategory
  | memo
  | requiresPhysicalReceipt
  | receiptFileIds
  deriving DecidableEq, Repr

/-- The names of the fields. -/
def ReceiptField.name : ReceiptField → String
  | itemName => "item_name"
  | brandName => "brand_name"
  | serialNumber => "serial_number"
  | paymentLocation => "payment_location"
  | paymentDate => "payment_date"
  | totalAmount => "total_amount"
  | periodMonths => "period_months"
  | expiresOn => "expires_on"
  | category => "category"
  | subCategory => "sub_category"
  | memo => "memo"
  | requiresPhysicalReceipt => "requires_physical_receipt"
  | receiptFileIds => "receipt_file_ids"

/-- `UpdateReceiptCommand`. -/
structure UpdateReceiptCommand where
  userId : UUID
  receiptId : UUID
  updatedFields : Finset ReceiptField
  itemName : Option String := none
  brandName : Option String := none
  serialNumber : Option String := none
  paymentLocation : Option String := none
  paymentDate : Option Date := none
  totalAmount : Option ℤ := none
  periodMonths : Option ℤ := none
  expiresOn : Option Date := none
  category : Option ReceiptCategory := none
  subCategory : Option String := none
  memo : Option String := none
  requiresPhysicalReceipt : Option Bool := none
  receiptFileIds : Option (List UUID) := none
  deriving DecidableEq

namespace UpdateReceiptCommand

variable (c : UpdateReceiptCommand) (current : ReceiptReadModel)

/-- `_updated_value`. -/
def updatedValue {α : Type} (field : ReceiptField) (value currentValue : α) : α :=
  if field ∈ c.updatedFields then value else currentValue

/-- `_required_updated_value`. -/
def requiredUpdatedValue {α : Type} (field : ReceiptField) (value : Option α) (currentValue : α)
    (label : String) :
    Except DomainError α :=
  if field ∈ c.updatedFields then
    match value with
    | none => .error (.validation [⟨field.name, label ++ "은 필수입니다."⟩])
    | some value => .ok value
  else .ok currentValue

def paymentDateChanged : Prop :=
  .paymentDate ∈ c.updatedFields ∧ c.paymentDate ≠ some current.paymentDate

def periodMonthsChanged : Prop :=
  .periodMonths ∈ c.updatedFields ∧ c.periodMonths ≠ some current.periodMonths

instance : Decidable (c.paymentDateChanged current) := inferInstanceAs (Decidable (_ ∧ _))

instance : Decidable (c.periodMonthsChanged current) := inferInstanceAs (Decidable (_ ∧ _))

/-- `_resolved_expires_on`. -/
def resolvedExpiresOn : Option Date :=
  if .expiresOn ∈ c.updatedFields then c.expiresOn
  else if c.paymentDateChanged current ∨ c.periodMonthsChanged current then none
  else some current.expiresOn

/-- The arguments the receipt is created with anew. -/
def arguments (periodMonths : ℤ) : ReceiptArguments where
  receiptId := some current.receiptId
  userId := c.userId
  itemName := c.updatedValue .itemName c.itemName (some current.itemName)
  brandName := c.updatedValue .brandName c.brandName current.brandName
  serialNumber := c.updatedValue .serialNumber c.serialNumber current.serialNumber
  paymentLocation := c.updatedValue .paymentLocation c.paymentLocation current.paymentLocation
  paymentDate := c.updatedValue .paymentDate c.paymentDate (some current.paymentDate)
  totalAmount := c.updatedValue .totalAmount c.totalAmount current.totalAmount
  preserveLegacyTotalAmount :=
    .totalAmount ∉ c.updatedFields && current.totalAmount.any (TotalAmount.maxAmount < ·)
  periodMonths := some periodMonths
  preserveFuturePeriodMonths :=
    .periodMonths ∉ c.updatedFields && decide (WarrantyPeriodMonths.maxMonths < current.periodMonths)
  expiresOn := c.resolvedExpiresOn current
  category := (c.updatedValue .category c.category current.category).map .category
  subCategory := c.updatedValue .subCategory c.subCategory current.subCategory
  memo := c.updatedValue .memo c.memo current.memo
  requiresPhysicalReceipt :=
    c.updatedValue .requiresPhysicalReceipt c.requiresPhysicalReceipt
      (some current.requiresPhysicalReceipt)
  receiptFileIds := c.updatedValue .receiptFileIds c.receiptFileIds (some current.receiptFileIds)

/-- The receipt that is written over what has been read. -/
def receipt (today : Date) : Except DomainError Receipt := do
  let periodMonths ← c.requiredUpdatedValue .periodMonths c.periodMonths
    current.periodMonths "무상 AS 기간"
  Receipt.create (c.arguments current periodMonths) today current.receiptId

end UpdateReceiptCommand

/-- `UpdateReceiptCommandUseCase.execute`, on the day `today`. -/
def UpdateReceiptCommandUseCase.execute (command : UpdateReceiptCommand) (today : Date)
    (newId : UUID → UUID) :
    ReceiptsTx ReceiptReadModel := do
  match ← SqlAlchemyReceiptRepository.findByIdForUser command.receiptId command.userId with
  | none => throw (.receiptNotFound command.receiptId)
  | some current =>
    let receipt ← ReceiptsTx.lift (command.receipt current today)
    match ← SqlAlchemyReceiptRepository.update receipt current newId with
    | none => throw (.receiptNotFound command.receiptId)
    | some updated =>
      Prog.commitOr .commitFailed
      return updated

end Boat.Receipts
