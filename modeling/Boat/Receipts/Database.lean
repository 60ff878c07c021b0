import Boat.Core.DateTime
import Boat.Core.Table
import Boat.ReadCommitted.Commands
import Boat.Receipts.Values
import Mathlib.Data.List.Sort

/-!
# Receipts: tables

The tables of the receipts module (`app/modules/receipts/infrastructure/persistence/orm.py`), as a
store of sessions. A receipt is found by its primary key; the files attached to it are rows of their
own, with a unique index on the receipt and the file.
-/

namespace Boat.Receipts

open ReadCommitted

/-! ## Rows -/

/-- `orm.Receipt`. -/
structure ReceiptRecord where
  id : UUID
  userId : UUID
  itemName : String
  brandName : Option String
  serialNumber : Option String
  paymentLocation : Option String
  paymentDate : Date
  totalAmount : Option ℤ
  periodMonths : ℤ
  expiresOn : Date
  category : Option ReceiptCategory
  subCategory : Option String
  memo : Option String
  requiresPhysicalReceipt : Bool
  createdAt : Timestamp
  deriving DecidableEq, Repr

/-- The texts of a row. -/
def ReceiptRecord.texts (r : ReceiptRecord) : List (Option String) :=
  [some r.itemName, r.brandName, r.serialNumber, r.paymentLocation, r.subCategory, r.memo]

/-- The database takes the texts of a row. -/
def ReceiptRecord.Sendable (r : ReceiptRecord) : Prop := ∀ text ∈ r.texts, text.all sendable = true

instance (r : ReceiptRecord) : Decidable r.Sendable :=
  inferInstanceAs (Decidable (∀ text ∈ r.texts, _))

/-- `orm.ReceiptAttachment`. -/
structure ReceiptAttachment where
  id : UUID
  receiptId : UUID
  fileId : UUID
  deriving DecidableEq, Repr

structure ReceiptsDatabase where
  receipts : Table ReceiptRecord.id
  attachments : List ReceiptAttachment

def ReceiptsDatabase.empty : ReceiptsDatabase := ⟨.empty, []⟩

/-! ## Locks -/

/-- The identity of a row. -/
inductive ReceiptsRow
  | receipt (id : UUID)
  | attachment (id : UUID)
  deriving DecidableEq, Repr

/-- An entry of a unique index of the attachments. -/
inductive ReceiptsEntry
  | attachmentId (id : UUID)
  /-- `uq_receipt_attachments_receipt_id_file_id`. -/
  | receiptFile (receiptId fileId : UUID)
  deriving DecidableEq, Repr

inductive ReceiptsLock
  | row (row : ReceiptsRow)
  | entry (entry : ReceiptsEntry)
  deriving DecidableEq, Repr

/-- The entries of an attachment. -/
def ReceiptAttachment.entries (a : ReceiptAttachment) : List ReceiptsEntry :=
  [.attachmentId a.id, .receiptFile a.receiptId a.fileId]

namespace ReceiptsDatabase

/-- Is there a row with this entry? -/
def hasEntry (d : ReceiptsDatabase) (e : ReceiptsEntry) : Bool := d.attachments.any (e ∈ ·.entries)

theorem hasEntry_eq_false {d : ReceiptsDatabase} {e : ReceiptsEntry} :
    d.hasEntry e = false ↔ ∀ a ∈ d.attachments, e ∉ a.entries := by
  simp [hasEntry]

end ReceiptsDatabase

/-- What a lock protects: the row, or that there is none. -/
inductive ReceiptsLock.Protects : ReceiptsLock → (ReceiptsDatabase → Prop) → Prop
  | receipt (r : ReceiptRecord) : Protects (.row (.receipt r.id)) fun d => r ∈ d.receipts.rows
  | attachment (a : ReceiptAttachment) : Protects (.row (.attachment a.id)) fun d => a ∈ d.attachments
  | entry (e : ReceiptsEntry) : Protects (.entry e) fun d => d.hasEntry e = false

instance : Locking ReceiptsDatabase ReceiptsLock := ⟨ReceiptsLock.Protects⟩

namespace ReceiptsDatabase

/-! ## Reads -/

/-- The receipt of a user. -/
def receiptOf (d : ReceiptsDatabase) (receiptId userId : UUID) : Option ReceiptRecord :=
  (d.receipts.find receiptId).filter (·.userId = userId)

def attachmentsOf (d : ReceiptsDatabase) (receiptId : UUID) : List ReceiptAttachment :=
  d.attachments.filter (·.receiptId = receiptId)

/-- The files of a receipt, by their identities. -/
def fileIds (d : ReceiptsDatabase) (receiptId : UUID) : List UUID :=
  ((d.attachmentsOf receiptId).map (·.fileId)).insertionSort fun a b => a.val ≤ b.val

theorem mem_attachmentsOf {d : ReceiptsDatabase} {receiptId : UUID} {a : ReceiptAttachment} :
    a ∈ d.attachmentsOf receiptId ↔ a ∈ d.attachments ∧ a.receiptId = receiptId := by
  simp [attachmentsOf]

theorem receiptOf_eq_some {d : ReceiptsDatabase} {receiptId userId : UUID} {r : ReceiptRecord} :
    d.receiptOf receiptId userId = some r ↔ d.receipts.find receiptId = some r ∧
    r.userId = userId := by
  simp [receiptOf, Option.filter_eq_some_iff]

/-! ## Writes -/

/-- Write to a row that there is. -/
def updateReceipt (r : ReceiptRecord) (d : ReceiptsDatabase) : ReceiptsDatabase :=
  { d with receipts := d.receipts.update r }

def deleteAttachments (attachments : List ReceiptAttachment)
    (d : ReceiptsDatabase) : ReceiptsDatabase :=
  { d with attachments := d.attachments.filter (· ∉ attachments) }

def insertAttachments (attachments : List ReceiptAttachment)
    (d : ReceiptsDatabase) : ReceiptsDatabase :=
  { d with attachments := d.attachments ++ attachments }

/-! A write touches only the entries of the rows it inserts, and the rows that it updates or
deletes. -/

theorem touches_updateReceipt (r : ReceiptRecord) :
    Touches [.row (.receipt r.id)] (updateReceipt r) := by
  rintro k hk d p (q | a | e) h
  · refine Table.mem_update.2 (.inl ⟨h, fun hid => hk ?_⟩)
    rw [hid]
    exact List.mem_singleton_self _
  · exact h
  · exact h

theorem touches_deleteAttachments (attachments : List ReceiptAttachment) :
    Touches (attachments.map (.row <| .attachment ·.id)) (deleteAttachments attachments) := by
  rintro k hk d p (q | a | e) h
  · exact h
  · refine List.mem_filter.2 ⟨h, decide_eq_true fun ha => hk ?_⟩
    exact List.mem_map_of_mem
      (f := fun a : ReceiptAttachment => ReceiptsLock.row (.attachment a.id)) ha
  · rw [hasEntry_eq_false] at h ⊢
    exact fun a ha => h a (List.mem_filter.1 ha).1

theorem touches_insertAttachments (attachments : List ReceiptAttachment) :
    Touches ((attachments.flatMap (·.entries)).map .entry) (insertAttachments attachments) := by
  rintro k hk d p (q | a | e) h
  · exact h
  · exact List.mem_append_left _ h
  · rw [hasEntry_eq_false] at h ⊢
    intro a ha he
    rcases List.mem_append.1 ha with ha | ha
    · exact h a ha he
    · exact hk (List.mem_map_of_mem (List.mem_flatMap.2 ⟨a, ha, he⟩))

end ReceiptsDatabase

end Boat.Receipts
