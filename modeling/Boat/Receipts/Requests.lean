import Boat.ReadCommitted.OneByOne
import Boat.Receipts.Alone
import Boat.Receipts.Listing

/-!
# Receipts: requests

The requests of the receipts API: a receipt is created, updated, deleted and read by its owner, and
the receipts of a user are listed (`app/modules/receipts/application`). The programs of the update
are those of the repository (`Prog.relabel`); what they do alone is computed here for the others.

* `listByUser_serve`: the files of the receipts of a page, which are read by one statement, are
  those that are read receipt by receipt.
-/

namespace Boat.Receipts

open ReadCommitted

namespace ReceiptsDatabase

/-! ## Writes -/

/-- A row is inserted. -/
def insertReceipt (r : ReceiptRecord) (d : ReceiptsDatabase) : ReceiptsDatabase :=
  { d with receipts := d.receipts.insert r }

/-- The rows with the identities of `found` are deleted, and these attachments
    (`ON DELETE CASCADE`). -/
def deleteReceipts (found : List ReceiptRecord) (attachments : List ReceiptAttachment)
    (d : ReceiptsDatabase) :
    ReceiptsDatabase where
  receipts := d.receipts.filter (·.id ∉ found.map (·.id))
  attachments := d.attachments.filter (· ∉ attachments)

theorem touches_insertReceipt (r : ReceiptRecord) : Touches [] (insertReceipt r) := by
  rintro k - d p (q | a | e) h
  · exact Table.mem_insert.2 (.inl h)
  · exact h
  · exact h

/-- The locks on rows. -/
def rowLocks (found : List ReceiptRecord) (attachments : List ReceiptAttachment) :
    List ReceiptsLock :=
  found.map (.row <| .receipt ·.id) ++ attachments.map (.row <| .attachment ·.id)

theorem touches_deleteReceipts (found : List ReceiptRecord) (attachments : List ReceiptAttachment) :
    Touches (rowLocks found attachments) (deleteReceipts found attachments) := by
  rintro k hk d p (q | a | e) h
  · refine Table.mem_filter.2 ⟨h, decide_eq_true fun hq => hk (List.mem_append_left _ ?_)⟩
    obtain ⟨r, hr, hid⟩ := List.mem_map.1 hq
    exact List.mem_map.2 ⟨r, hr, by rw [hid]⟩
  · refine List.mem_filter.2 ⟨h, decide_eq_true fun ha => hk (List.mem_append_right _ ?_)⟩
    exact List.mem_map_of_mem
      (f := fun a : ReceiptAttachment => ReceiptsLock.row (.attachment a.id)) ha
  · rw [hasEntry_eq_false] at h ⊢
    exact fun a ha => h a (List.mem_filter.1 ha).1

end ReceiptsDatabase

/-! ## Programs -/

/-- The statements of requests. -/
inductive RequestStatement
  | repository (s : ReceiptsStatement)
  | insertReceipt (record : ReceiptRecord)
  | refreshReceipt (id : UUID)
  | deleteReceipt (id : UUID)
  | countReceipts
  | selectPage
  | selectFileIdsOf (receiptIds : List UUID)
  deriving DecidableEq, Repr

inductive RequestError
  | receipts (e : ReceiptsError)
  /-- `IntegrityError` of the primary key. -/
  | duplicateReceipt (id : UUID)
  /-- `InvalidRequestError`. -/
  | notRefreshed
  /-- A statement fails. -/
  | fault (s : RequestStatement)
  deriving DecidableEq, Repr

abbrev RequestTx := Prog ReceiptsDatabase RequestStatement RequestError

namespace RequestTx

def exec {α : Type} (s : RequestStatement) (c : Command ReceiptsDatabase RequestError α) :
    RequestTx α :=
  Prog.exec s (.fault s) c

def select {α : Type} (s : RequestStatement) (f : ReceiptsDatabase → α) : RequestTx α :=
  exec s (.query (fun _ => []) f)

/-- A program of the repository. -/
def repository {α : Type} (p : ReceiptsTx α) : RequestTx α := p.relabel .repository .receipts

/-- The result of a domain function. -/
def lift {α : Type} (x : Except DomainError α) : RequestTx α := repository (ReceiptsTx.lift x)

def commit : RequestTx Unit := repository (Prog.commitOr .commitFailed)

end RequestTx

/-! ## Repository -/

/-- `mapper.receipt_to_record`, with the instant of its transaction, which is the default of
    `created_at`. -/
def receiptToRecord (receipt : Receipt) (now : Timestamp) : ReceiptRecord where
  id := receipt.id
  userId := receipt.userId
  itemName := receipt.itemName.value
  brandName := receipt.brandName
  serialNumber := receipt.serialNumber
  paymentLocation := receipt.paymentLocation
  paymentDate := receipt.paymentDate
  totalAmount := receipt.totalAmount.map (·.value)
  periodMonths := receipt.periodMonths.value
  expiresOn := receipt.expiresOn
  category := receipt.category
  subCategory := receipt.subCategory
  memo := receipt.memo
  requiresPhysicalReceipt := receipt.requiresPhysicalReceipt
  createdAt := now

/-- The database takes the texts of a receipt. -/
def Receipt.Sendable (receipt : Receipt) : Prop :=
  ∀ text ∈ [some receipt.itemName.value, receipt.brandName, receipt.serialNumber,
    receipt.paymentLocation, receipt.subCategory, receipt.memo], text.all sendable = true

instance (receipt : Receipt) : Decidable receipt.Sendable :=
  inferInstanceAs (Decidable (∀ text ∈ _, _))

namespace SqlAlchemyReceiptRepository

/-- The `INSERT` of a receipt. Its identity is a new one, and the database takes its texts. -/
def insertReceipt (record : ReceiptRecord) : RequestTx Unit :=
  RequestTx.exec (.insertReceipt record) <|
    if record.Sendable then
      { locks := fun _ => []
        run := fun v => match v.receipts.find record.id with
          | some _ => .error (.duplicateReceipt record.id)
          | none => .ok ((), ReceiptsDatabase.insertReceipt record)
        touches := fun v a w h => by
          split at h
          · cases h
          · cases h
            exact ReceiptsDatabase.touches_insertReceipt record }
    else .refuse (.receipts notTaken)

/-- `create`. -/
def create (receipt : Receipt) (newId : UUID → UUID)
    (now : Timestamp) : RequestTx ReceiptReadModel := do
  insertReceipt (receiptToRecord receipt now)
  RequestTx.repository
    (insertAttachments (attachmentRecords receipt.id receipt.receiptFileIds.value newId))
  match ← RequestTx.select (.refreshReceipt receipt.id) (·.receipts.find receipt.id) with
  | none => throw .notRefreshed
  | some record =>
    return recordToReadModel record (← RequestTx.repository (fileIdsForReceipt record.id))

/-- The `DELETE` of a receipt, and of its attachments. -/
def deleteReceipt (receiptId : UUID) : RequestTx Unit := do
  let _ ← RequestTx.exec (.deleteReceipt receiptId)
    (.modify (fun v => ((v.receipts.find receiptId).toList, v.attachmentsOf receiptId))
      (fun found => ReceiptsDatabase.rowLocks found.1 found.2)
        (fun found => ReceiptsDatabase.deleteReceipts found.1 found.2)
      fun found => ReceiptsDatabase.touches_deleteReceipts found.1 found.2)

/-- `delete_by_id_for_user`. -/
def deleteByIdForUser (receiptId userId : UUID) : RequestTx Bool := do
  match ← RequestTx.repository (ReceiptsTx.select .selectReceipt (·.receiptOf receiptId userId)) with
  | none => return false
  | some record =>
    deleteReceipt record.id
    return true

/-- The order of the rows that have the files of several receipts. -/
def FileOrder (a b : UUID × UUID) : Prop := a.1.val < b.1.val ∨ a.1 = b.1 ∧ a.2.val ≤ b.2.val

instance (a b : UUID × UUID) : Decidable (FileOrder a b) := inferInstanceAs (Decidable (_ ∨ _ ∧ _))

/-- `_file_ids_by_receipt_id`: the rows are grouped by their receipts. -/
def fileIdsByReceiptId (receiptIds : List UUID) : RequestTx (UUID → List UUID) :=
  if receiptIds = [] then return fun _ => []
  else do
    let result ← RequestTx.select (.selectFileIdsOf receiptIds) fun v =>
      ((v.attachments.filter (·.receiptId ∈ receiptIds)).map fun a =>
        (a.receiptId, a.fileId)).insertionSort FileOrder
    return result.foldl (fun fileIds row =>
      Function.update fileIds row.1 (fileIds row.1 ++ [row.2])) fun _ => []

/-- `_records_to_read_models`. -/
def recordsToReadModels (records : List ReceiptRecord) : RequestTx (List ReceiptReadModel) := do
  let recordsById := records.foldl (fun t r => t.set r) (.empty : Table ReceiptRecord.id)
  let receiptFileIds ← fileIdsByReceiptId (recordsById.rows.map (·.id))
  return recordsById.rows.map fun record => recordToReadModel record (receiptFileIds record.id)

section

variable [CaseFolding] [LinearOrder Collated] [TimeZones]

/-- `list_by_user`, on the day `today`. -/
def listByUser (query : ListReceiptsQuery) (today : Date) : RequestTx ReceiptListPage := do
  let baseConditions ← RequestTx.lift (listConditions query today)
  let cursor ← RequestTx.lift (decodeCursor query.cursor query.sort)
  RequestTx.lift (sendKeyword query)
  let totalCount ← RequestTx.select .countReceipts fun v =>
    (v.receipts.rows.filter baseConditions).length
  let records ← RequestTx.select .selectPage fun v =>
    ((v.receipts.rows.filter fun r =>
      baseConditions r && cursor.all (cursorCondition query.sort · r)).insertionSort
      (listOrderBy query.sort)).take (query.limit + 1)
  let pageRecords := records.take query.limit
  let receipts ← recordsToReadModels pageRecords
  let hasNext : Bool := query.limit < records.length
  return {
    receipts := receipts
    totalCount := totalCount
    nextCursor := if hasNext then pageRecords.getLast?.map (encodeCursor query.sort) else none
    hasNext := hasNext
    limit := query.limit }

end

end SqlAlchemyReceiptRepository

/-! ## Requests -/

/-- `CreateReceiptCommand`. -/
structure CreateReceiptCommand where
  userId : UUID
  itemName : String
  paymentDate : Date
  brandName : Option String := none
  serialNumber : Option String := none
  paymentLocation : Option String := none
  totalAmount : Option ℤ := none
  periodMonths : Option ℤ := none
  expiresOn : Option Date := none
  category : Option ReceiptCategory := none
  subCategory : Option String := none
  memo : Option String := none
  requiresPhysicalReceipt : Bool := false
  receiptFileIds : Option (List UUID) := none
  deriving DecidableEq, Repr

/-- The arguments a receipt is created with. -/
def CreateReceiptCommand.arguments (c : CreateReceiptCommand) : ReceiptArguments where
  userId := c.userId
  itemName := some c.itemName
  brandName := c.brandName
  serialNumber := c.serialNumber
  paymentLocation := c.paymentLocation
  paymentDate := some c.paymentDate
  totalAmount := c.totalAmount
  periodMonths := c.periodMonths
  expiresOn := c.expiresOn
  category := c.category.map .category
  subCategory := c.subCategory
  memo := c.memo
  requiresPhysicalReceipt := some c.requiresPhysicalReceipt
  receiptFileIds := c.receiptFileIds

/-- `CreateReceiptCommandUseCase.execute`, on the day `today`. Its result has the fields of the read
    model. -/
def CreateReceiptCommandUseCase.execute (command : CreateReceiptCommand) (today : Date)
    (receiptId : UUID) (newId : UUID → UUID) (now : Timestamp) : RequestTx ReceiptReadModel := do
  let receipt ← RequestTx.lift (Receipt.create command.arguments today receiptId)
  let saved ← SqlAlchemyReceiptRepository.create receipt newId now
  RequestTx.commit
  return saved

/-- `DeleteReceiptCommandUseCase.execute`. -/
def DeleteReceiptCommandUseCase.execute (receiptId userId : UUID) : RequestTx Unit := do
  let deleted ← SqlAlchemyReceiptRepository.deleteByIdForUser receiptId userId
  if !deleted then throw (.receipts (.receiptNotFound receiptId))
  RequestTx.commit

/-- `GetReceiptQueryUseCase.execute`. -/
def GetReceiptQueryUseCase.execute (receiptId userId : UUID) : RequestTx ReceiptReadModel := do
  match ← RequestTx.repository (SqlAlchemyReceiptRepository.findByIdForUser receiptId userId) with
  | none => throw (.receipts (.receiptNotFound receiptId))
  | some receipt => return receipt

/-- A request, with the new identities and the instant it gets. -/
inductive ReceiptRequest
  | create (command : CreateReceiptCommand) (receiptId : UUID) (newId : UUID → UUID) (now : Timestamp)
  | update (command : UpdateReceiptCommand) (newId : UUID → UUID)
  | delete (receiptId userId : UUID)
  | get (receiptId userId : UUID)
  | list (query : ListReceiptsQuery)

inductive ReceiptResponse
  | receipt (receipt : ReceiptReadModel)
  | deleted
  | page (page : ReceiptListPage)

/-- What a request runs, on the day `today`. -/
def ReceiptRequest.prog [CaseFolding] [LinearOrder Collated] [TimeZones] (today : Date) :
    ReceiptRequest → RequestTx ReceiptResponse
  | create command receiptId newId now =>
    .receipt <$> CreateReceiptCommandUseCase.execute command today receiptId newId now
  | update command newId =>
    .receipt <$> RequestTx.repository (UpdateReceiptCommandUseCase.execute command today newId)
  | delete receiptId userId =>
    (fun _ => .deleted) <$> DeleteReceiptCommandUseCase.execute receiptId userId
  | get receiptId userId => .receipt <$> GetReceiptQueryUseCase.execute receiptId userId
  | list query => .page <$> SqlAlchemyReceiptRepository.listByUser query today

section

variable [CaseFolding] [LinearOrder Collated] [TimeZones] (today : Date)

theorem prog_create (command : CreateReceiptCommand) (receiptId : UUID) (newId : UUID → UUID)
    (now : Timestamp) :
    (ReceiptRequest.create command receiptId newId now).prog today =
      (CreateReceiptCommandUseCase.execute command today receiptId newId now).bind fun a =>
        .ret (.receipt a) := rfl

theorem prog_update (command : UpdateReceiptCommand) (newId : UUID → UUID) :
    (ReceiptRequest.update command newId).prog today =
      (RequestTx.repository (UpdateReceiptCommandUseCase.execute command today newId)).bind fun a =>
        .ret (.receipt a) := rfl

theorem prog_delete (receiptId userId : UUID) : (ReceiptRequest.delete receiptId userId).prog today =
    (DeleteReceiptCommandUseCase.execute receiptId userId).bind fun _ => .ret .deleted := rfl

theorem prog_get (receiptId userId : UUID) : (ReceiptRequest.get receiptId userId).prog today =
    (GetReceiptQueryUseCase.execute receiptId userId).bind fun a => .ret (.receipt a) := rfl

theorem prog_list (query : ListReceiptsQuery) : (ReceiptRequest.list query).prog today =
    (SqlAlchemyReceiptRepository.listByUser query today).bind fun a => .ret (.page a) := rfl

end

/-! ## Files of several receipts -/

section

open SqlAlchemyReceiptRepository

theorem uuid_eq {a b : UUID} (h : a.val.toNat = b.val.toNat) : a = b := by
  obtain ⟨a⟩ := a
  obtain ⟨b⟩ := b
  exact congrArg UUID.mk (BitVec.eq_of_toNat_eq h)

/-- The rows of a receipt, in the order of the rows of several receipts, are in the order of its
    files. -/
theorem files_insertionSort (rows : List (UUID × UUID)) (receiptId : UUID) :
    (((rows.insertionSort FileOrder).filter (·.1 = receiptId)).map (·.2)) =
      ((rows.filter (·.1 = receiptId)).map (·.2)).insertionSort fun a b => a.val ≤ b.val := by
  have htotal : Std.Total fun a b : UUID => a.val ≤ b.val :=
    ⟨fun a b => Nat.le_total a.val.toNat b.val.toNat⟩
  have htrans : IsTrans UUID fun a b => a.val ≤ b.val := ⟨fun _ _ _ => Nat.le_trans⟩
  have htotal' : Std.Total FileOrder := ⟨fun a b => by
    rcases Nat.lt_trichotomy a.1.val.toNat b.1.val.toNat with h | h | h
    · exact .inl (.inl h)
    · have h : a.1 = b.1 := uuid_eq h
      rcases Nat.le_total a.2.val.toNat b.2.val.toNat with h' | h'
      · exact .inl (.inr ⟨h, h'⟩)
      · exact .inr (.inr ⟨h.symm, h'⟩)
    · exact .inr (.inl h)⟩
  have htrans' : IsTrans (UUID × UUID) FileOrder := ⟨fun a b c hab hbc => by
    rcases hab with hab | ⟨hab, hab'⟩ <;> rcases hbc with hbc | ⟨hbc, hbc'⟩
    · exact .inl (Nat.lt_trans hab hbc)
    · exact .inl (hbc ▸ hab)
    · exact .inl (hab ▸ hbc)
    · exact .inr ⟨hab.trans hbc, Nat.le_trans hab' hbc'⟩⟩
  refine List.Perm.eq_of_pairwise (fun a b _ _ hab hba => uuid_eq (Nat.le_antisymm hab hba)) ?_
    (List.pairwise_insertionSort (fun a b : UUID => a.val ≤ b.val) _) ?_
  · rw [List.pairwise_map]
    refine (((List.pairwise_insertionSort FileOrder rows).filter _).imp_of_mem fun {a b} ha
      hb hab => ?_)
    have ha : a.1 = receiptId := by simpa using (List.mem_filter.1 ha).2
    have hb : b.1 = receiptId := by simpa using (List.mem_filter.1 hb).2
    rcases hab with hab | ⟨-, hab⟩
    · rw [ha, hb] at hab
      exact absurd hab (Nat.lt_irrefl _)
    · exact hab
  · exact (((List.perm_insertionSort FileOrder rows).filter _).map _).trans
      (List.perm_insertionSort _ _).symm

/-- Grouped rows, by their receipts. -/
theorem foldl_group (rows : List (UUID × UUID)) (fileIds : UUID → List UUID) (receiptId : UUID) :
    rows.foldl (fun fileIds row =>
        Function.update (β := fun _ => List UUID) fileIds row.1 (fileIds row.1 ++ [row.2])) fileIds
          receiptId =
      fileIds receiptId ++ (rows.filter (·.1 = receiptId)).map (·.2) := by
  induction rows generalizing fileIds with
  | nil => simp
  | cons row rows ih =>
    rw [List.foldl_cons, ih]
    by_cases h : row.1 = receiptId
    · simp [h]
    · rw [Function.update_of_ne (Ne.symm h), List.filter_cons_of_neg (by simpa using h)]

/-- Records with different identities are the rows of their dictionary. -/
theorem rows_recordsById (records : List ReceiptRecord) (t : Table ReceiptRecord.id)
    (h : (t.rows.map (·.id) ++ records.map (·.id)).Nodup) :
    (records.foldl (fun t r => t.set r) t).rows = t.rows ++ records := by
  induction records generalizing t with
  | nil => simp
  | cons r records ih =>
    have hr : r.id ∉ t.rows.map (·.id) := fun hr =>
      List.disjoint_of_nodup_append h hr (List.mem_map_of_mem List.mem_cons_self)
    have hset : (t.set r).rows = t.rows ++ [r] := by
      rw [Table.set, if_neg hr]
      exact Table.rows_insert fun q hq hid => hr (List.mem_map.2 ⟨q, hq, hid⟩)
    rw [List.foldl_cons, ih _ (by rw [hset]; simpa using h), hset]
    simp

variable {v d : ReceiptsDatabase}

/-- A program of the repository does alone what it does there. -/
theorem repository_alone {α : Type} {p : ReceiptsTx α} {o : Outcome ReceiptsDatabase ReceiptsError α}
    (h : p.alone noneRefused v d = o) :
    (RequestTx.repository p).alone (fun _ => false) v d =
      ⟨o.result.mapError .receipts, o.view, o.store⟩ :=
  Prog.alone_relabel.trans (by rw [← h]; rfl)

theorem requestSelect_alone {α : Type} (s : RequestStatement) (f : ReceiptsDatabase → α) :
    (RequestTx.select s f).alone (fun _ => false) v d = ⟨.ok (f v), v, d⟩ := Prog.alone_query rfl

theorem fileIdsByReceiptId_alone (receiptIds : List UUID) :
    ∃ fileIds, (fileIdsByReceiptId receiptIds).alone (fun _ => false) v d = ⟨.ok fileIds, v, d⟩ ∧
      ∀ receiptId ∈ receiptIds, fileIds receiptId = v.fileIds receiptId := by
  rw [fileIdsByReceiptId]
  split
  · next h => exact ⟨_, rfl, fun receiptId hid => absurd (h ▸ hid) List.not_mem_nil⟩
  · rw [Prog.bind_eq, Prog.alone_bind_ok (requestSelect_alone _ _)]
    refine ⟨_, rfl, fun receiptId hid => ?_⟩
    rw [foldl_group, List.nil_append, files_insertionSort, ReceiptsDatabase.fileIds,
      ReceiptsDatabase.attachmentsOf, List.filter_map, List.filter_filter, List.map_map]
    refine congrArg (fun rows : List ReceiptAttachment =>
      (rows.map (·.fileId)).insertionSort fun a b => a.val ≤ b.val) ?_
    refine List.filter_congr fun a _ => ?_
    by_cases h : a.receiptId = receiptId
    · simp [h, hid]
    · simp [h]

/-- The files of several receipts are those that are read receipt by receipt. -/
theorem recordsToReadModels_alone {records : List ReceiptRecord} (h : (records.map (·.id)).Nodup) :
    (recordsToReadModels records).alone (fun _ => false) v d =
      ⟨.ok (records.map v.toReadModel), v, d⟩ := by
  have hrows :
      (records.foldl (fun t r => t.set r) (.empty : Table ReceiptRecord.id)).rows = records :=
    rows_recordsById records .empty (by simpa [Table.empty] using h)
  obtain ⟨fileIds, hfileIds, hmem⟩ := fileIdsByReceiptId_alone (v := v) (d := d) (records.map (·.id))
  rw [recordsToReadModels, hrows, Prog.bind_eq, Prog.alone_bind_ok hfileIds]
  refine congrArg (fun models => Outcome.mk (.ok models) v d) (List.map_congr_left fun r hr => ?_)
  rw [hmem _ (List.mem_map_of_mem hr)]
  rfl

end

end Boat.Receipts
