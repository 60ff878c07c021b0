import Boat.ReadCommitted.Alone
import Boat.Receipts.UseCases

/-!
# Receipts: updates that run alone

What an update does that has the database for itself: it is refused and nothing changes, or the row of
the receipt and its attachments are replaced by those of the receipt that it has created
(`execute_alone`).
-/

namespace Boat

/-- An update to the row that is there changes nothing. -/
theorem Table.update_self {ρ κ : Type} [DecidableEq κ] {key : ρ → κ} {t : Table key} {r : ρ}
    (hr : r ∈ t.rows) :
    t.update r = t := by
  obtain ⟨rows, nodup⟩ := t
  simp only [update, Table.mk.injEq]
  refine (List.map_congr_left fun q hq => ?_).trans (List.map_id rows)
  split
  · next h => exact eq_of_key (t := ⟨rows, nodup⟩) hr hq h.symm
  · rfl

namespace Receipts

open ReadCommitted SqlAlchemyReceiptRepository

/-- No statement fails. -/
def noneRefused : ReceiptsStatement → Bool := fun _ => false

namespace ReceiptsDatabase

/-- What is read of a receipt of a user. -/
def readModel (d : ReceiptsDatabase) (receiptId userId : UUID) : Option ReceiptReadModel :=
  (d.receiptOf receiptId userId).map fun record => recordToReadModel record (d.fileIds receiptId)

/-- The row of a receipt and its attachments are replaced. -/
def replaceReceipt (record : ReceiptRecord) (attachments : List ReceiptAttachment)
    (d : ReceiptsDatabase) :
    ReceiptsDatabase where
  receipts := d.receipts.update record
  attachments := d.attachments.filter (·.receiptId ≠ record.id) ++ attachments

theorem deleteAttachments_attachmentsOf (d : ReceiptsDatabase) (receiptId : UUID) :
    (d.deleteAttachments (d.attachmentsOf receiptId)).attachments =
      d.attachments.filter (·.receiptId ≠ receiptId) := by
  refine List.filter_congr fun a ha => ?_
  simp [attachmentsOf, ha]

theorem map_fileId_attachmentRecords (receiptId : UUID) (fileIds : List UUID) (newId : UUID → UUID) :
    (attachmentRecords receiptId fileIds newId).map (·.fileId) = fileIds := by
  rw [attachmentRecords, List.map_map]
  exact List.map_id _

/-- The attachments of a receipt after they have been replaced. -/
theorem attachmentsOf_append {receipts : Table ReceiptRecord.id}
    {attachments : List ReceiptAttachment} {receiptId : UUID} {fileIds : List UUID}
    {newId : UUID → UUID} :
    attachmentsOf ⟨receipts,
      attachments.filter (·.receiptId ≠ receiptId) ++ attachmentRecords receiptId fileIds newId⟩
      receiptId = attachmentRecords receiptId fileIds newId := by
  have hold : (attachments.filter (·.receiptId ≠ receiptId)).filter
      (·.receiptId = receiptId) = [] := by
    simp [List.filter_filter]
  have hnew : (attachmentRecords receiptId fileIds newId).filter (·.receiptId = receiptId) =
      attachmentRecords receiptId fileIds newId := by
    refine List.filter_eq_self.2 fun a ha => ?_
    obtain ⟨fileId, -, rfl⟩ := List.mem_map.1 ha
    simp
  rw [attachmentsOf, List.filter_append, hold, hnew, List.nil_append]

theorem fileIds_append {receipts : Table ReceiptRecord.id} {attachments : List ReceiptAttachment}
    {receiptId : UUID} {fileIds : List UUID} {newId : UUID → UUID} :
    ReceiptsDatabase.fileIds ⟨receipts, attachments.filter (·.receiptId ≠ receiptId) ++
      attachmentRecords receiptId fileIds newId⟩ receiptId = fileIds.insertionSort fun a b =>
        a.val ≤ b.val := by
  rw [ReceiptsDatabase.fileIds, attachmentsOf_append, map_fileId_attachmentRecords]

end ReceiptsDatabase

/-! ## Flush -/

/-- A flush that has nothing to write, or writes what the database takes. -/
def Sends (loaded assigned : ReceiptRecord) : Prop := assigned = loaded ∨ assigned.Sendable

@[simp] theorem flushColumn_loaded {α : Type} [DecidableEq α] (loaded assigned : α) :
    flushColumn loaded assigned loaded = assigned := by
  rw [flushColumn]
  split
  · next h => exact h.symm
  · rfl

@[simp] theorem Receipt.assign_id (receipt : Receipt)
    (record : ReceiptRecord) : (receipt.assign record).id = record.id :=
  rfl

/-- Over the row that has been loaded, a flush writes what has been assigned. -/
theorem flushRecord_assign (receipt : Receipt) (record : ReceiptRecord) :
    flushRecord record (receipt.assign record) record = receipt.assign record := by
  simp only [flushRecord, flushColumn_loaded, Receipt.assign]

section

variable {v d : ReceiptsDatabase} {receipt : Receipt} {record : ReceiptRecord} {newId : UUID → UUID}

theorem select_alone {α : Type} (s : ReceiptsStatement) (f : ReceiptsDatabase → α) :
    (ReceiptsTx.select s f).alone noneRefused v d = ⟨.ok (f v), v, d⟩ := Prog.alone_query rfl

theorem flushUpdate_alone (hfind : v.receipts.find record.id = some record)
    (hsends : Sends record (receipt.assign record)) :
    (flushUpdate record (receipt.assign record)).alone noneRefused v d =
      ⟨.ok (), ⟨v.receipts.update (receipt.assign record), v.attachments⟩, d⟩ := by
  rw [flushUpdate]
  split
  · next h =>
    rw [h, Table.update_self (Table.find_eq_some.1 hfind).1]
    rfl
  · next h =>
    rw [ReceiptsTx.exec, if_pos (hsends.resolve_left h), Prog.alone_exec rfl]
    simp only [Command.update, hfind, flushRecord_assign]
    rfl

theorem flushUpdate_alone_notTaken (hsends : ¬Sends record (receipt.assign record)) :
    (flushUpdate record (receipt.assign record)).alone noneRefused v d = ⟨.error notTaken, d, d⟩ := by
  obtain ⟨hne, hnot⟩ := not_or.1 hsends
  rw [flushUpdate, if_neg hne, if_neg hnot, ReceiptsTx.exec, Prog.alone_exec rfl]
  rfl

theorem deleteAttachments_alone (receiptId : UUID) (current : ReceiptReadModel) :
    (deleteAttachments receiptId current).alone noneRefused v d =
      ⟨.ok (), ⟨v.receipts, v.attachments.filter (·.receiptId ≠ receiptId)⟩, d⟩ := by
  have hfound : (v.attachmentsOf receiptId).filter (· ∈ v.attachments) = v.attachmentsOf receiptId :=
    List.filter_eq_self.2 fun a ha => decide_eq_true (ReceiptsDatabase.mem_attachmentsOf.1 ha).1
  rw [deleteAttachments, Prog.bind_eq, Prog.alone_bind_ok (select_alone _ _)]
  rw [Prog.bind_eq, ReceiptsTx.exec, Prog.alone_bind_ok (Prog.alone_modify rfl)]
  rw [hfound, ← ReceiptsDatabase.deleteAttachments_attachmentsOf]
  rfl

/-- New attachments are inserted, or refused. -/
theorem insertAttachments_alone_cases (attachments : List ReceiptAttachment) :
    (insertAttachments attachments).alone noneRefused v d =
      ⟨.ok (), v.insertAttachments attachments, d⟩ ∨
      ∃ e, (insertAttachments attachments).alone noneRefused v d = ⟨.error e, d, d⟩ := by
  rw [insertAttachments, ReceiptsTx.exec, Prog.alone_exec rfl]
  simp only [Command.insert]
  split
  · next h =>
    split at h
    · cases h
    · cases h
      exact .inl rfl
  · exact .inr ⟨_, rfl⟩

theorem insertAttachments_alone {attachments : List ReceiptAttachment}
    (hentries : ∀ a ∈ attachments, ∀ e ∈ a.entries, v.hasEntry e = false) :
    (insertAttachments attachments).alone noneRefused v d =
      ⟨.ok (), v.insertAttachments attachments, d⟩ := by
  have hnone : (attachments.flatMap (·.entries)).find? (v.hasEntry ·) = none := by
    refine List.find?_eq_none.2 fun e he => ?_
    obtain ⟨a, ha, he⟩ := List.mem_flatMap.1 he
    simp [hentries a ha e he]
  rw [insertAttachments, ReceiptsTx.exec, Prog.alone_exec rfl]
  simp only [Command.insert, hnone]

/-- The identities of the new attachments of a receipt are not those of attachments of other
    receipts. -/
def FreshFor (receiptId : UUID) (fileIds : List UUID) (newId : UUID → UUID)
    (d : ReceiptsDatabase) : Prop :=
  ∀ fileId ∈ fileIds, ∀ a ∈ d.attachments, a.receiptId ≠ receiptId → a.id ≠ newId fileId

/-- New attachments are refused by no others, once the receipt has none. -/
theorem hasEntry_attachmentRecords {receiptId : UUID} {fileIds : List UUID}
    {receipts : Table ReceiptRecord.id} (hfresh : FreshFor receiptId fileIds newId d) :
    ∀ a ∈ attachmentRecords receiptId fileIds newId, ∀ e ∈ a.entries,
    ReceiptsDatabase.hasEntry ⟨receipts, d.attachments.filter (·.receiptId ≠ receiptId)⟩ e =
      false := by
  intro a ha e he
  obtain ⟨fileId, hfile, rfl⟩ := List.mem_map.1 ha
  rw [ReceiptsDatabase.hasEntry_eq_false]
  intro b hb heb
  obtain ⟨hb, hne⟩ := List.mem_filter.1 hb
  have hne : b.receiptId ≠ receiptId := by simpa using hne
  have hid : b.id ≠ newId fileId := hfresh fileId hfile b hb hne
  simp only [ReceiptAttachment.entries, List.mem_cons, List.not_mem_nil, or_false] at he heb
  rcases he with rfl | rfl
  · simp [hid.symm] at heb
  · simp [hne.symm] at heb

/-- The repository replaces the row that it finds, if the new attachments are not refused. -/
theorem update_alone_cases (current : ReceiptReadModel) (newId : UUID → UUID)
    (hrecord : d.receiptOf receipt.id receipt.userId = some record)
    (hsends : Sends record (receipt.assign record)) :
    let o := (update receipt current newId).alone noneRefused d d
    o = ⟨.ok (some (recordToReadModel (receipt.assign record)
      (receipt.receiptFileIds.value.insertionSort fun a b => a.val ≤ b.val))),
      d.replaceReceipt (receipt.assign record)
        (attachmentRecords receipt.id receipt.receiptFileIds.value newId), d⟩ ∨
    ¬FreshFor receipt.id receipt.receiptFileIds.value newId d ∧ ∃ e, o = ⟨.error e, d, d⟩ := by
  intro o
  obtain ⟨hfind, huser⟩ := ReceiptsDatabase.receiptOf_eq_some.1 hrecord
  have hid : record.id = receipt.id := (Table.find_eq_some.1 hfind).2
  have ho : o = (update receipt current newId).alone noneRefused d d := rfl
  rw [update, Prog.bind_eq, Prog.alone_bind_ok (select_alone _ _), hrecord] at ho
  simp only [Prog.bind_eq, Prog.pure_eq] at ho
  rw [Prog.alone_bind_ok (flushUpdate_alone (hid.symm ▸ hfind) hsends),
    Prog.alone_bind_ok (deleteAttachments_alone _ _)] at ho
  rcases insertAttachments_alone_cases
    (attachmentRecords receipt.id receipt.receiptFileIds.value newId)
    with hinsert | ⟨e, hinsert⟩
  · refine .inl (ho.trans ?_)
    rw [Prog.alone_bind_ok hinsert, fileIdsForReceipt, Prog.alone_bind_ok (select_alone _ _), hid]
    refine congrArg₂ (fun files view =>
      Outcome.mk (.ok (some (recordToReadModel (receipt.assign record) files))) view d) ?_ ?_
    · exact ReceiptsDatabase.fileIds_append
    · rw [ReceiptsDatabase.replaceReceipt, Receipt.assign_id, hid]
      rfl
  · refine .inr ⟨fun hfresh => ?_, e, ho.trans (Prog.alone_bind_error hinsert)⟩
    rw [insertAttachments_alone (hasEntry_attachmentRecords hfresh)] at hinsert
    cases hinsert

theorem update_alone_notTaken (current : ReceiptReadModel) (newId : UUID → UUID)
    (hrecord : d.receiptOf receipt.id receipt.userId = some record)
    (hsends : ¬Sends record (receipt.assign record)) :
    (update receipt current newId).alone noneRefused d d = ⟨.error notTaken, d, d⟩ := by
  rw [update, Prog.bind_eq, Prog.alone_bind_ok (select_alone _ _), hrecord]
  simp only [Prog.bind_eq, Prog.pure_eq]
  rw [Prog.alone_bind_error (flushUpdate_alone_notTaken hsends)]

end

/-! ## The update -/

section

variable {c : UpdateReceiptCommand} {today : Date} {newId : UUID → UUID} {d : ReceiptsDatabase}

theorem findByIdForUser_alone (receiptId userId : UUID) :
    (findByIdForUser receiptId userId).alone noneRefused d d =
      ⟨.ok (d.readModel receiptId userId), d, d⟩ := by
  rw [findByIdForUser, Prog.bind_eq, Prog.alone_bind_ok (select_alone _ _),
    ReceiptsDatabase.readModel]
  rcases h : d.receiptOf receiptId userId with - | record
  · rfl
  · obtain ⟨hfind, -⟩ := ReceiptsDatabase.receiptOf_eq_some.1 h
    obtain rfl : record.id = receiptId := (Table.find_eq_some.1 hfind).2
    rfl

/-- The receipt of an update is that of its command. -/
theorem UpdateReceiptCommand.receipt_eq_ok {current : ReceiptReadModel} {receipt : Receipt} :
    c.receipt current today = .ok receipt ↔ ∃ periodMonths,
      c.requiredUpdatedValue .periodMonths c.periodMonths current.periodMonths "무상 AS 기간" =
        .ok periodMonths ∧
      receipt.Created (c.arguments current periodMonths) today current.receiptId := by
  simp only [UpdateReceiptCommand.receipt, except_bind_eq_ok, Receipt.create_eq_ok]

/-- What an update does that finds no receipt, is refused by the domain, or writes. -/
theorem execute_alone_none (h : d.readModel c.receiptId c.userId = none) :
    (UpdateReceiptCommandUseCase.execute c today newId).alone noneRefused d d =
      ⟨.error (.receiptNotFound c.receiptId), d, d⟩ := by
  rw [UpdateReceiptCommandUseCase.execute, Prog.bind_eq,
    Prog.alone_bind_ok (findByIdForUser_alone _ _), h]
  rfl

theorem execute_alone_error {current : ReceiptReadModel} {e : DomainError}
    (h : d.readModel c.receiptId c.userId = some current) (he : c.receipt current today = .error e) :
    (UpdateReceiptCommandUseCase.execute c today newId).alone noneRefused d d =
      ⟨.error (.domain e), d, d⟩ := by
  rw [UpdateReceiptCommandUseCase.execute, Prog.bind_eq,
    Prog.alone_bind_ok (findByIdForUser_alone _ _), h]
  simp only [he]
  rfl

/-- With a receipt to write, an update is what the repository does, and its commit. -/
theorem execute_alone_update {record : ReceiptRecord} {receipt : Receipt} (newId : UUID → UUID)
    (h : d.receiptOf c.receiptId c.userId = some record)
    (hreceipt : c.receipt (recordToReadModel record (d.fileIds c.receiptId)) today = .ok receipt) :
    receipt.id = c.receiptId ∧ receipt.userId = c.userId ∧
      ∃ f : Option ReceiptReadModel → ReceiptsTx ReceiptReadModel,
        (∀ model v, (f (some model)).alone noneRefused v d = ⟨.ok model, v, v⟩) ∧
        (UpdateReceiptCommandUseCase.execute c today newId).alone noneRefused d d =
          ((update receipt (recordToReadModel record (d.fileIds c.receiptId)) newId).bind f).alone
            noneRefused d d := by
  obtain ⟨hfind, huser⟩ := ReceiptsDatabase.receiptOf_eq_some.1 h
  obtain ⟨periodMonths, -, hcreated⟩ := UpdateReceiptCommand.receipt_eq_ok.1 hreceipt
  have hmodel : d.readModel c.receiptId c.userId =
      some (recordToReadModel record (d.fileIds c.receiptId)) := by
    rw [ReceiptsDatabase.readModel, h]
    rfl
  refine ⟨hcreated.id.trans (Table.find_eq_some.1 hfind).2, hcreated.userId, ?_⟩
  rw [UpdateReceiptCommandUseCase.execute, Prog.bind_eq,
    Prog.alone_bind_ok (findByIdForUser_alone _ _), hmodel]
  simp only [hreceipt]
  exact ⟨_, fun _ _ => rfl, rfl⟩

/-- An update with a receipt to write replaces the row, if the new attachments are not refused. -/
theorem execute_alone_cases {record : ReceiptRecord} {receipt : Receipt} (newId : UUID → UUID)
    (h : d.receiptOf c.receiptId c.userId = some record)
    (hreceipt : c.receipt (recordToReadModel record (d.fileIds c.receiptId)) today = .ok receipt)
    (hsends : Sends record (receipt.assign record)) :
    let d' := d.replaceReceipt (receipt.assign record)
      (attachmentRecords c.receiptId receipt.receiptFileIds.value newId)
    let o := (UpdateReceiptCommandUseCase.execute c today newId).alone noneRefused d d
    o = ⟨.ok (recordToReadModel (receipt.assign record)
      (receipt.receiptFileIds.value.insertionSort fun a b => a.val ≤ b.val)),
      d', d'⟩ ∨ ¬FreshFor c.receiptId receipt.receiptFileIds.value newId d ∧
        ∃ e, o = ⟨.error e, d, d⟩ := by
  obtain ⟨hid, huserId, f, hf, ho⟩ := execute_alone_update newId h hreceipt
  intro d' o
  rcases update_alone_cases (recordToReadModel record (d.fileIds c.receiptId)) newId
    (by rw [hid, huserId, h]) hsends
    with hupdate | ⟨hfresh, e, hupdate⟩
  · refine .inl (ho.trans ((Prog.alone_bind_ok hupdate).trans ?_))
    rw [hid]
    exact hf _ _
  · exact .inr ⟨by rwa [hid] at hfresh, e, ho.trans (Prog.alone_bind_error hupdate)⟩

theorem execute_alone_ok {record : ReceiptRecord} {receipt : Receipt}
    (h : d.receiptOf c.receiptId c.userId = some record)
    (hreceipt : c.receipt (recordToReadModel record (d.fileIds c.receiptId)) today = .ok receipt)
    (hsends : Sends record (receipt.assign record))
    (hfresh : FreshFor c.receiptId receipt.receiptFileIds.value newId d) :
    let d' := d.replaceReceipt (receipt.assign record)
      (attachmentRecords c.receiptId receipt.receiptFileIds.value newId)
    (UpdateReceiptCommandUseCase.execute c today newId).alone noneRefused d d =
      ⟨.ok (recordToReadModel (receipt.assign record)
        (receipt.receiptFileIds.value.insertionSort fun a b => a.val ≤ b.val)),
        d', d'⟩ :=
  (execute_alone_cases newId h hreceipt hsends).resolve_right fun hnot => hnot.1 hfresh

/-- It is refused for a text that the database does not take. -/
theorem execute_alone_notTaken {record : ReceiptRecord} {receipt : Receipt} (newId : UUID → UUID)
    (h : d.receiptOf c.receiptId c.userId = some record)
    (hreceipt : c.receipt (recordToReadModel record (d.fileIds c.receiptId)) today = .ok receipt)
    (hsends : ¬Sends record (receipt.assign record)) :
    (UpdateReceiptCommandUseCase.execute c today newId).alone noneRefused d d =
      ⟨.error notTaken, d, d⟩ := by
  obtain ⟨hid, huserId, f, -, ho⟩ := execute_alone_update newId h hreceipt
  rw [ho, Prog.alone_bind_error (update_alone_notTaken _ newId (by rw [hid, huserId, h]) hsends)]

end

end Receipts

end Boat
