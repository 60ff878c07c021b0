import Boat.Receipts.ListingSpec
import Boat.Receipts.Patch
import Boat.Receipts.Requests

/-!
# Receipts: the shelf

What the receipts API is for: the receipts of all users are on a *shelf*, each under its identity
(`Shelf`). A receipt is put there, replaced, taken away and looked at whole, by the user who owns it
(`Shelf.Serves`).

* `requests_refine_shelf`: whatever the requests are that are served one by one, and whatever of their
  statements and commits fails, each does to the store what a request to the shelf does, or nothing.
* `shelf_served`: a request that the shelf serves is served, if nothing fails.
-/

namespace Boat.Receipts

open ReadCommitted SqlAlchemyReceiptRepository

/-! ## The shelf -/

/-- The receipts, by their identities. -/
abbrev Shelf := UUID → Option ReceiptReadModel

/-- The receipt of a user. -/
def Shelf.owned (σ : Shelf) (receiptId userId : UUID) : Option ReceiptReadModel :=
  (σ receiptId).filter (·.userId = userId)

/-- What is read of a receipt that was registered at an instant. -/
def Receipt.readModel (receipt : Receipt) (registeredAt : Timestamp) : ReceiptReadModel :=
  recordToReadModel (receiptToRecord receipt registeredAt) (sortedFiles receipt.receiptFileIds.value)

/-- A request to the shelf on the day `today`, with the response and what it leaves. -/
inductive Shelf.Serves (today : Date) : ReceiptRequest → Shelf → ReceiptResponse → Shelf → Prop
  /-- A new receipt is put under an identity that there is not. -/
  | create {command : CreateReceiptCommand} {receiptId : UUID} {newId : UUID → UUID}
    {now : Timestamp} {σ : Shelf}
      {receipt : Receipt} : Receipt.create command.arguments today receiptId = .ok receipt →
      receipt.Sendable →
      σ receipt.id = none →
      Serves today (.create command receiptId newId now) σ (.receipt (receipt.readModel now))
        (Function.update σ receipt.id (some (receipt.readModel now)))
  /-- The receipt of its owner is replaced by what the command makes of it. -/
  | update {command : UpdateReceiptCommand} {newId : UUID → UUID} {σ : Shelf}
    {current : ReceiptReadModel}
      {receipt : Receipt} : σ.owned command.receiptId command.userId = some current →
      command.receipt current today = .ok receipt → receipt.Sendable →
      Serves today (.update command newId) σ (.receipt (receipt.readModel current.registeredAt))
        (Function.update σ command.receiptId (some (receipt.readModel current.registeredAt)))
  /-- The receipt of its owner is taken away. -/
  | delete {receiptId userId : UUID} {σ : Shelf} {current : ReceiptReadModel} :
      σ.owned receiptId userId = some current →
      Serves today (.delete receiptId userId) σ .deleted (Function.update σ receiptId none)
  /-- The receipt of its owner is looked at. -/
  | get {receiptId userId : UUID} {σ : Shelf} {current : ReceiptReadModel} :
      σ.owned receiptId userId = some current →
      Serves today (.get receiptId userId) σ (.receipt current) σ
  /-- Different receipts of their owner are looked at, at most as many as there may be on a page. -/
  | list {query : ListReceiptsQuery} {σ : Shelf} {page : ReceiptListPage} :
      (∀ m ∈ page.receipts, σ.owned m.receiptId query.userId = some m) →
      (page.receipts.map (·.receiptId)).Nodup →
      page.receipts.length ≤ query.limit → Serves today (.list query) σ (.page page) σ

/-- A request that is served by the shelf, or is not and leaves it as it is. -/
def Shelf.Step (r : (Date × ReceiptRequest) × Option (Except RequestError ReceiptResponse))
    (σ σ' : Shelf) : Prop :=
  (σ' = σ ∧ ∀ a, r.2 ≠ some (.ok a)) ∨ ∃ a, r.2 = some (.ok a) ∧ Serves r.1.1 r.1.2 σ a σ'

namespace ReceiptsDatabase

/-- The shelf of a store. -/
def shelf (d : ReceiptsDatabase) : Shelf := fun receiptId =>
    (d.receipts.find receiptId).map d.toReadModel

/-- Every attachment is one of a receipt. -/
def Attached (d : ReceiptsDatabase) : Prop := ∀ a ∈ d.attachments, d.receipts.find a.receiptId ≠ none

/-- What the database sees to: every attachment is one of a receipt, and no text has U+0000. -/
structure Consistent (d : ReceiptsDatabase) : Prop where
  attached : d.Attached
  sendable : ∀ r ∈ d.receipts.rows, r.Sendable

variable {d : ReceiptsDatabase}

theorem readModel_eq_owned (receiptId userId : UUID) :
    d.readModel receiptId userId = d.shelf.owned receiptId userId := by
  rw [readModel, receiptOf, Shelf.owned, shelf]
  rcases h : d.receipts.find receiptId with - | r
  · rfl
  · have hid : r.id = receiptId := (Table.find_eq_some.1 h).2
    have huser : (d.toReadModel r).userId = r.userId := rfl
    rw [Option.map_some, Option.filter_some, Option.filter_some, huser]
    split
    · rw [Option.map_some, ← hid]
      rfl
    · rfl

/-- The shelves are the same, but for the receipts that are different, and those whose attachments
    are. -/
theorem shelf_congr {d' : ReceiptsDatabase} {receiptId : UUID}
    (h : d'.receipts.find receiptId = d.receipts.find receiptId)
    (ha : d'.attachmentsOf receiptId = d.attachmentsOf receiptId) :
    d'.shelf receiptId = d.shelf receiptId := by
  rw [shelf, shelf, h]
  refine Option.map_congr fun r hr => ?_
  rw [toReadModel, toReadModel, fileIds, fileIds, (Table.find_eq_some.1 hr).2, ha]

/-- A receipt is put on the shelf. -/
def addReceipt (record : ReceiptRecord) (attachments : List ReceiptAttachment)
    (d : ReceiptsDatabase) : ReceiptsDatabase :=
  ⟨d.receipts.insert record, d.attachments ++ attachments⟩

theorem Attached.filter_ne (hd : d.Attached) {receiptId : UUID}
    (h : d.receipts.find receiptId = none) :
    d.attachments.filter (·.receiptId ≠ receiptId) = d.attachments :=
  List.filter_eq_self.2 fun a ha => decide_eq_true fun hid => hd a ha (hid ▸ h)

theorem shelf_addReceipt (hd : d.Attached) {record : ReceiptRecord}
    (h : d.receipts.find record.id = none) (fileIds : List UUID) (newId : UUID → UUID) :
    (d.addReceipt record (attachmentRecords record.id fileIds newId)).shelf =
      Function.update d.shelf record.id (some (recordToReadModel record (sortedFiles fileIds))) := by
  funext receiptId
  by_cases hid : receiptId = record.id
  · subst hid
    rw [Function.update_self, shelf]
    show (((d.receipts.insert record).find record.id).map _) = _
    rw [Table.find_insert h, if_pos rfl, Option.map_some, toReadModel, addReceipt, ← hd.filter_ne h]
    exact congrArg (fun files => some (recordToReadModel record files)) fileIds_append
  · rw [Function.update_of_ne hid]
    refine shelf_congr ?_ ?_
    · show (d.receipts.insert record).find receiptId = _
      rw [Table.find_insert h, if_neg hid]
    · have hnew :
          (attachmentRecords record.id fileIds newId).filter (·.receiptId = receiptId) = [] := by
        refine List.filter_eq_nil_iff.2 fun a ha => ?_
        obtain ⟨fileId, -, rfl⟩ := List.mem_map.1 ha
        simpa using Ne.symm hid
      rw [attachmentsOf, addReceipt, List.filter_append, hnew, List.append_nil]
      rfl

theorem Attached.addReceipt (hd : d.Attached) {record : ReceiptRecord}
    (h : d.receipts.find record.id = none) (fileIds : List UUID) (newId : UUID → UUID) :
    (d.addReceipt record (attachmentRecords record.id fileIds newId)).Attached := by
  intro a ha
  show (d.receipts.insert record).find a.receiptId ≠ none
  rw [Table.find_insert h]
  split
  · exact Option.some_ne_none _
  · next hne =>
    rcases List.mem_append.1 ha with ha | ha
    · exact hd a ha
    · obtain ⟨fileId, -, rfl⟩ := List.mem_map.1 ha
      exact absurd rfl hne

theorem Consistent.addReceipt (hd : d.Consistent) {record : ReceiptRecord}
    (h : d.receipts.find record.id = none) (hrecord : record.Sendable) (fileIds : List UUID)
    (newId : UUID → UUID) :
    (d.addReceipt record (attachmentRecords record.id fileIds newId)).Consistent := by
  refine ⟨hd.attached.addReceipt h fileIds newId, fun r hr => ?_⟩
  rcases Table.mem_insert.1 hr with hr | ⟨rfl, -⟩
  · exact hd.sendable r hr
  · exact hrecord

theorem shelf_replaceReceipt {r record : ReceiptRecord} (hfind : d.receipts.find record.id = some r)
    (fileIds : List UUID) (newId : UUID → UUID) :
    (d.replaceReceipt record (attachmentRecords record.id fileIds newId)).shelf =
      Function.update d.shelf record.id (some (recordToReadModel record (sortedFiles fileIds))) := by
  obtain ⟨hr, hid⟩ := Table.find_eq_some.1 hfind
  have hpatched : Patched d _ record.id record.userId _ :=
    patched_replaceReceipt record fileIds newId (List.mem_map.2 ⟨r, hr, hid⟩) rfl
  obtain ⟨hmodel, hreceipts, hattachments⟩ := hpatched
  funext receiptId
  by_cases hne : receiptId = record.id
  · subst hne
    rw [readModel_eq_owned, Shelf.owned, Option.filter_eq_some_iff] at hmodel
    rw [Function.update_self, hmodel.1]
  · rw [Function.update_of_ne hne]
    exact shelf_congr (hreceipts _ hne) (hattachments _ hne)

theorem Attached.replaceReceipt (hd : d.Attached) {r record : ReceiptRecord}
    (hfind : d.receipts.find record.id = some r) (fileIds : List UUID) (newId : UUID → UUID) :
    (d.replaceReceipt record (attachmentRecords record.id fileIds newId)).Attached := by
  intro a ha
  show (d.receipts.update record).find a.receiptId ≠ none
  rw [Table.find_update]
  have hfound : d.receipts.find a.receiptId ≠ none := by
    rcases List.mem_append.1 ha with ha | ha
    · exact hd a (List.mem_filter.1 ha).1
    · obtain ⟨fileId, -, rfl⟩ := List.mem_map.1 ha
      rw [hfind]
      exact Option.some_ne_none _
  split
  · simpa using hfound
  · exact hfound

theorem Consistent.replaceReceipt (hd : d.Consistent) {r record : ReceiptRecord}
    (hfind : d.receipts.find record.id = some r) (hrecord : record.Sendable) (fileIds : List UUID)
    (newId : UUID → UUID) :
    (d.replaceReceipt record (attachmentRecords record.id fileIds newId)).Consistent := by
  refine ⟨hd.attached.replaceReceipt hfind fileIds newId, fun q hq => ?_⟩
  rcases Table.mem_update.1 hq with ⟨hq, -⟩ | ⟨rfl, -⟩
  · exact hd.sendable q hq
  · exact hrecord

/-- The receipt of an identity, and its attachments, are deleted. -/
def removeReceipt (receiptId : UUID) (d : ReceiptsDatabase) : ReceiptsDatabase :=
  d.deleteReceipts (d.receipts.find receiptId).toList (d.attachmentsOf receiptId)

theorem find_removeReceipt (receiptId id : UUID) :
    (d.removeReceipt receiptId).receipts.find id = if id = receiptId then none
    else d.receipts.find id := by
  have hdelete : (d.removeReceipt receiptId).receipts = d.receipts.delete receiptId := by
    simp only [removeReceipt, deleteReceipts, Table.filter, Table.delete, Table.mk.injEq]
    refine List.filter_congr fun r hr => decide_eq_decide.2 (not_congr ?_)
    rcases h : d.receipts.find receiptId with - | q
    · have hne : r.id ≠ receiptId := fun hid => Table.find_eq_none.1 h (List.mem_map.2 ⟨r, hr, hid⟩)
      simp [hne]
    · simp [(Table.find_eq_some.1 h).2]
  rw [hdelete, Table.find_delete]

theorem attachmentsOf_removeReceipt {receiptId id : UUID} (h : id ≠ receiptId) :
    (d.removeReceipt receiptId).attachmentsOf id = d.attachmentsOf id := by
  show (d.attachments.filter (· ∉ d.attachmentsOf receiptId)).filter (·.receiptId = id) = _
  rw [List.filter_filter]
  refine List.filter_congr fun a ha => ?_
  by_cases hid : a.receiptId = id
  · simp [hid, mem_attachmentsOf, h]
  · simp [hid]

theorem shelf_removeReceipt (receiptId : UUID) :
    (d.removeReceipt receiptId).shelf = Function.update d.shelf receiptId none := by
  funext id
  by_cases hid : id = receiptId
  · subst hid
    rw [Function.update_self, shelf, find_removeReceipt, if_pos rfl]
    rfl
  · rw [Function.update_of_ne hid]
    exact shelf_congr (by rw [find_removeReceipt, if_neg hid]) (attachmentsOf_removeReceipt hid)

theorem Attached.removeReceipt (hd : d.Attached)
    (receiptId : UUID) : (d.removeReceipt receiptId).Attached := by
  intro a ha
  obtain ⟨ha, hne⟩ := List.mem_filter.1 ha
  have hne : a.receiptId ≠ receiptId := fun hid =>
    of_decide_eq_true hne (mem_attachmentsOf.2 ⟨ha, hid⟩)
  rw [find_removeReceipt, if_neg hne]
  exact hd a ha

theorem Consistent.removeReceipt (hd : d.Consistent)
    (receiptId : UUID) : (d.removeReceipt receiptId).Consistent :=
  ⟨hd.attached.removeReceipt receiptId, fun r hr => hd.sendable r (List.mem_filter.1 hr).1⟩

end ReceiptsDatabase

/-! ## The requests, when nothing fails -/

section

variable {d v : ReceiptsDatabase}

theorem lift_alone {α : Type} (x : Except DomainError α) :
    (RequestTx.lift x).alone (fun _ => false) v d = ⟨x.mapError (.receipts ∘ .domain), v, d⟩ := by
  rcases x with e | a
  · rfl
  · rfl

theorem insertReceipt_alone_cases (record : ReceiptRecord) :
    ((record.Sendable ∧ v.receipts.find record.id = none) ∧
      (SqlAlchemyReceiptRepository.insertReceipt record).alone (fun _ => false) v d =
        ⟨.ok (), v.insertReceipt record, d⟩) ∨
    ¬(record.Sendable ∧ v.receipts.find record.id = none) ∧
      ∃ e, (SqlAlchemyReceiptRepository.insertReceipt record).alone (fun _ => false) v d =
        ⟨.error e, d, d⟩ := by
  rw [SqlAlchemyReceiptRepository.insertReceipt, RequestTx.exec, Prog.alone_exec rfl]
  by_cases hsendable : record.Sendable
  · rw [if_pos hsendable]
    rcases h : v.receipts.find record.id with - | r
    · exact .inl ⟨⟨hsendable, rfl⟩, by simp only [h]⟩
    · exact .inr ⟨(fun hnone => by cases hnone.2), .duplicateReceipt record.id, by simp only [h]⟩
  · rw [if_neg hsendable]
    exact .inr ⟨fun hrecord => hsendable hrecord.1, _, rfl⟩

/-- A creation puts the receipt on the shelf, or is refused. -/
theorem create_alone_cases (hd : d.Attached) (receipt : Receipt) (newId : UUID → UUID)
    (now : Timestamp) :
    let o := (SqlAlchemyReceiptRepository.create receipt newId now).alone (fun _ => false) d d
    ((receipt.Sendable ∧ d.receipts.find receipt.id = none) ∧
      o = ⟨.ok (receipt.readModel now), d.addReceipt (receiptToRecord receipt now)
        (attachmentRecords receipt.id receipt.receiptFileIds.value newId), d⟩) ∨
    ¬((receipt.Sendable ∧ d.receipts.find receipt.id = none) ∧
      FreshFor receipt.id receipt.receiptFileIds.value newId d) ∧ ∃ e, o = ⟨.error e, d, d⟩ := by
  intro o
  have ho : o = (SqlAlchemyReceiptRepository.create receipt newId now).alone (fun _ => false) d d :=
    rfl
  rw [SqlAlchemyReceiptRepository.create, Prog.bind_eq] at ho
  rcases insertReceipt_alone_cases (v := d) (d := d) (receiptToRecord receipt now) with
    ⟨⟨hsendable, hnone⟩, hinsert⟩ | ⟨hnot, e, hinsert⟩
  · -- The row is inserted, then its attachments, and then both are read again.
    replace hnone : d.receipts.find receipt.id = none := hnone
    rw [Prog.alone_bind_ok hinsert, Prog.bind_eq] at ho
    rcases insertAttachments_alone_cases (v := d.insertReceipt (receiptToRecord receipt now)) (d := d)
      (attachmentRecords receipt.id receipt.receiptFileIds.value newId) with hattach | ⟨e, hattach⟩
    · have hfind : (d.receipts.insert (receiptToRecord receipt now)).find receipt.id =
          some (receiptToRecord receipt now) :=
        (Table.find_insert hnone _).trans (if_pos rfl)
      have hfiles : ReceiptsDatabase.fileIds ⟨d.receipts.insert (receiptToRecord receipt now),
          d.attachments.filter (·.receiptId ≠ receipt.id) ++
            attachmentRecords receipt.id receipt.receiptFileIds.value newId⟩ receipt.id =
          sortedFiles receipt.receiptFileIds.value := ReceiptsDatabase.fileIds_append
      rw [hd.filter_ne hnone] at hfiles
      rw [Prog.alone_bind_ok (repository_alone hattach), Prog.bind_eq,
        Prog.alone_bind_ok (requestSelect_alone _ _)] at ho
      simp only [ReceiptsDatabase.insertAttachments, ReceiptsDatabase.insertReceipt, hfind,
        Prog.bind_eq] at ho
      rw [fileIdsForReceipt, Prog.alone_bind_ok (repository_alone (select_alone _ _))] at ho
      refine .inl ⟨⟨hsendable, hnone⟩, ho.trans ?_⟩
      exact congrArg (fun files =>
        Outcome.mk (.ok (recordToReadModel (receiptToRecord receipt now) files)) _ d) hfiles
    · -- An attachment is refused, so its identity is not a new one.
      refine .inr ⟨fun h => ?_, _, ho.trans (Prog.alone_bind_error (repository_alone hattach))⟩
      rw [insertAttachments_alone] at hattach
      · cases hattach
      · intro a ha e he
        have hentry : ReceiptsDatabase.hasEntry ⟨d.receipts.insert (receiptToRecord receipt now),
            d.attachments.filter (·.receiptId ≠ receipt.id)⟩ e = false :=
              hasEntry_attachmentRecords h.2 a ha e he
        rwa [hd.filter_ne hnone] at hentry
  · exact .inr ⟨fun h => hnot h.1, e, ho.trans (Prog.alone_bind_error hinsert)⟩

/-- What a creation does: it puts the receipt on the shelf, or leaves the store as it is. -/
theorem createReceipt_serve (hd : d.Attached) (command : CreateReceiptCommand) (today : Date)
    (receiptId : UUID) (newId : UUID → UUID) (now : Timestamp) :
    let o := (CreateReceiptCommandUseCase.execute command today receiptId newId now).serve d
    (∃ receipt, Receipt.create command.arguments today receiptId = .ok receipt ∧
      (receipt.Sendable ∧ d.receipts.find receipt.id = none) ∧
        o.result = .ok (receipt.readModel now) ∧ o.store = d.addReceipt (receiptToRecord receipt now)
        (attachmentRecords receipt.id receipt.receiptFileIds.value newId)) ∨
    (¬∃ receipt, Receipt.create command.arguments today receiptId = .ok receipt ∧
      (receipt.Sendable ∧ d.receipts.find receipt.id = none) ∧
        FreshFor receipt.id receipt.receiptFileIds.value newId d) ∧ (∃ e, o.result = .error e) ∧
          o.store = d := by
  intro o
  have ho : o = (CreateReceiptCommandUseCase.execute command today receiptId newId now).alone
      (fun _ => false) d d := rfl
  rw [CreateReceiptCommandUseCase.execute, Prog.bind_eq] at ho
  rcases hcreate : Receipt.create command.arguments today receiptId with e | receipt
  · rw [hcreate, Prog.alone_bind_error (lift_alone _)] at ho
    refine .inr ⟨?_, ⟨_, congrArg Outcome.result ho⟩, congrArg Outcome.store ho⟩
    rintro ⟨_, h, -⟩
    cases h
  · rw [hcreate, Prog.alone_bind_ok (lift_alone _), Prog.bind_eq] at ho
    rcases create_alone_cases hd receipt newId now with ⟨hnone, hcreated⟩ | ⟨hnot, e, hrefused⟩
    · rw [Prog.alone_bind_ok hcreated] at ho
      exact .inl ⟨receipt, rfl, hnone, congrArg Outcome.result ho, congrArg Outcome.store ho⟩
    · rw [Prog.alone_bind_error hrefused] at ho
      refine .inr ⟨?_, ⟨_, congrArg Outcome.result ho⟩, congrArg Outcome.store ho⟩
      rintro ⟨r, hr, h⟩
      cases hr
      exact hnot h

theorem deleteByIdForUser_alone_none {receiptId userId : UUID}
    (h : d.receiptOf receiptId userId = none) :
    (deleteByIdForUser receiptId userId).alone (fun _ => false) d d = ⟨.ok false, d, d⟩ := by
  rw [deleteByIdForUser, Prog.bind_eq, Prog.alone_bind_ok (repository_alone (select_alone _ _)), h]
  rfl

theorem deleteByIdForUser_alone_some {receiptId userId : UUID} {record : ReceiptRecord}
    (h : d.receiptOf receiptId userId = some record) :
    (deleteByIdForUser receiptId userId).alone (fun _ => false) d d =
      ⟨.ok true, d.removeReceipt receiptId, d⟩ := by
  obtain rfl : record.id = receiptId :=
    (Table.find_eq_some.1 (ReceiptsDatabase.receiptOf_eq_some.1 h).1).2
  rw [deleteByIdForUser, Prog.bind_eq, Prog.alone_bind_ok (repository_alone (select_alone _ _)), h]
  rfl

/-- What a deletion does: it takes the receipt of its owner from the shelf. -/
theorem deleteReceipt_serve (receiptId userId : UUID) :
    let o := (DeleteReceiptCommandUseCase.execute receiptId userId).serve d
    (∃ current, d.shelf.owned receiptId userId = some current ∧ o.result = .ok () ∧
      o.store = d.removeReceipt receiptId) ∨
    d.shelf.owned receiptId userId = none ∧ (∃ e, o.result = .error e) ∧ o.store = d := by
  intro o
  have ho : o = (DeleteReceiptCommandUseCase.execute receiptId userId).alone (fun _ => false) d d :=
    rfl
  rw [← ReceiptsDatabase.readModel_eq_owned, ReceiptsDatabase.readModel]
  rw [DeleteReceiptCommandUseCase.execute, Prog.bind_eq] at ho
  rcases hfind : d.receiptOf receiptId userId with - | record
  · rw [Prog.alone_bind_ok (deleteByIdForUser_alone_none hfind)] at ho
    exact .inr ⟨rfl, ⟨_, congrArg Outcome.result ho⟩, congrArg Outcome.store ho⟩
  · rw [Prog.alone_bind_ok (deleteByIdForUser_alone_some hfind)] at ho
    exact .inl ⟨_, rfl, congrArg Outcome.result ho, congrArg Outcome.store ho⟩

/-- What a look does. -/
theorem getReceipt_serve (receiptId userId : UUID) :
    (GetReceiptQueryUseCase.execute receiptId userId).serve d =
      ⟨match d.shelf.owned receiptId userId with
        | some current => .ok current
        | none => .error (.receipts (.receiptNotFound receiptId)), d, d⟩ := by
  rw [GetReceiptQueryUseCase.execute, Prog.serve, Prog.bind_eq,
    Prog.alone_bind_ok (repository_alone (findByIdForUser_alone _ _)),
      ReceiptsDatabase.readModel_eq_owned]
  rcases d.shelf.owned receiptId userId with - | current
  · rfl
  · rfl

/-- What an update does: it replaces the receipt of its owner on the shelf. -/
theorem updateReceipt_serve (hd : d.Consistent) (command : UpdateReceiptCommand) (today : Date)
    (newId : UUID → UUID) :
    let o := (RequestTx.repository (UpdateReceiptCommandUseCase.execute command today newId)).serve d
    (∃ current receipt record, d.shelf.owned command.receiptId command.userId = some current ∧
      command.receipt current today = .ok receipt ∧ (receipt.Sendable ∧ record.Sendable) ∧
      d.receipts.find record.id ≠ none ∧ record.id = command.receiptId ∧
      recordToReadModel record (sortedFiles receipt.receiptFileIds.value) =
        receipt.readModel current.registeredAt ∧
      o.result = .ok (receipt.readModel current.registeredAt) ∧
      o.store = d.replaceReceipt record
        (attachmentRecords record.id receipt.receiptFileIds.value newId)) ∨
    (¬∃ current receipt, d.shelf.owned command.receiptId command.userId = some current ∧
      command.receipt current today = .ok receipt ∧ receipt.Sendable ∧
      FreshFor command.receiptId receipt.receiptFileIds.value newId d) ∧
      (∃ e, o.result = .error e) ∧ o.store = d := by
  intro o
  rw [← ReceiptsDatabase.readModel_eq_owned]
  rcases hrecord : d.receiptOf command.receiptId command.userId with - | record
  · have hnone : d.readModel command.receiptId command.userId = none := by
      rw [ReceiptsDatabase.readModel, hrecord, Option.map_none]
    have ho : o = _ := repository_alone (execute_alone_none hnone)
    refine .inr ⟨?_, ⟨_, congrArg Outcome.result ho⟩, congrArg Outcome.store ho⟩
    rintro ⟨_, _, h, -⟩
    rw [hnone] at h
    cases h
  · have hcurrent : d.readModel command.receiptId command.userId =
        some (recordToReadModel record (d.fileIds command.receiptId)) := by
      rw [ReceiptsDatabase.readModel, hrecord, Option.map_some]
    rw [hcurrent]
    rcases hreceipt :
      command.receipt (recordToReadModel record (d.fileIds command.receiptId)) today with e | receipt
    · have ho : o = _ := repository_alone (execute_alone_error hcurrent hreceipt)
      refine .inr ⟨?_, ⟨_, congrArg Outcome.result ho⟩, congrArg Outcome.store ho⟩
      rintro ⟨_, _, h, h', -⟩
      cases h
      rw [hreceipt] at h'
      cases h'
    · obtain ⟨hfind, huser⟩ := ReceiptsDatabase.receiptOf_eq_some.1 hrecord
      obtain ⟨hmem, hid⟩ := Table.find_eq_some.1 hfind
      obtain ⟨periodMonths, -, hcreated⟩ := UpdateReceiptCommand.receipt_eq_ok.1 hreceipt
      by_cases hsendable : receipt.Sendable
      case neg =>
        -- The row has texts that the database takes, so it is not the one that is assigned.
        have hsends : ¬Sends record (receipt.assign record) := by
          rintro (hsame | hassign)
          · exact hsendable (hsame ▸ hd.sendable record hmem : (receipt.assign record).Sendable)
          · exact hsendable hassign
        have ho : o = _ := repository_alone (execute_alone_notTaken newId hrecord hreceipt hsends)
        refine .inr ⟨?_, ⟨_, congrArg Outcome.result ho⟩, congrArg Outcome.store ho⟩
        rintro ⟨_, _, h, h', hsendable', -⟩
        cases h
        rw [hreceipt] at h'
        cases h'
        exact hsendable hsendable'
      rcases execute_alone_cases newId hrecord hreceipt (.inr hsendable) with hok
        | ⟨hfresh, e, hrefused⟩
      · have ho : o = _ := repository_alone hok
        have hmodel :
            recordToReadModel (receipt.assign record) (sortedFiles receipt.receiptFileIds.value) =
              receipt.readModel record.createdAt := by
          have hid' : receipt.id = record.id := hcreated.id
          have huser' : receipt.userId = record.userId := hcreated.userId.trans huser.symm
          rw [Receipt.readModel, receiptToRecord, hid', huser']
          rfl
        refine .inl ⟨_, receipt, receipt.assign record, rfl, hreceipt, ⟨hsendable, hsendable⟩, ?_,
          hid, hmodel, ?_, ?_⟩
        · rw [Receipt.assign_id, hid, hfind]
          exact Option.some_ne_none _
        · exact (congrArg Outcome.result ho).trans (congrArg Except.ok hmodel)
        · rw [Receipt.assign_id, hid]
          exact congrArg Outcome.store ho
      · have ho : o = _ := repository_alone hrefused
        refine .inr ⟨?_, ⟨_, congrArg Outcome.result ho⟩, congrArg Outcome.store ho⟩
        rintro ⟨_, _, h, h', -, hfresh'⟩
        cases h
        rw [hreceipt] at h'
        cases h'
        exact hfresh hfresh'

/-- The rows of a page are different ones. -/
theorem nodup_page (p : ReceiptRecord → Bool) (r : ReceiptRecord → ReceiptRecord → Prop)
    [DecidableRel r] (m n : ℕ) :
    (((((d.receipts.rows.filter p).insertionSort r).take m).take n).map (·.id)).Nodup := by
  have hsorted : (((d.receipts.rows.filter p).insertionSort r).map (·.id)).Nodup :=
    ((List.perm_insertionSort _ _).map _).nodup_iff.2
      ((List.filter_sublist.map _).nodup d.receipts.nodup)
  exact (((List.take_sublist _ _).trans (List.take_sublist _ _)).map _).nodup hsorted

section

variable [CaseFolding] [LinearOrder Collated] [TimeZones]

/-- What a listing does: it is the page of the rows of the receipts. -/
theorem listReceipts_serve (query : ListReceiptsQuery) (today : Date) (d : ReceiptsDatabase) :
    (SqlAlchemyReceiptRepository.listByUser query today).serve d =
      ⟨(Receipts.listByUser query today d).mapError (.receipts ∘ .domain), d, d⟩ := by
  rw [Prog.serve, SqlAlchemyReceiptRepository.listByUser, Receipts.listByUser, Prog.bind_eq]
  rcases hconditions : listConditions query today with e | conditions
  · rw [Prog.alone_bind_error (lift_alone _)]
    rfl
  rw [Prog.alone_bind_ok (lift_alone _), Prog.bind_eq]
  rcases hcursor : decodeCursor query.cursor query.sort with e | cursor
  · rw [Prog.alone_bind_error (lift_alone _)]
    rfl
  rw [Prog.alone_bind_ok (lift_alone _), Prog.bind_eq]
  rcases hsend : sendKeyword query with e | -
  · rw [Prog.alone_bind_error (lift_alone _)]
    rfl
  rw [Prog.alone_bind_ok (lift_alone _), Prog.bind_eq, Prog.alone_bind_ok (requestSelect_alone _ _),
    Prog.bind_eq, Prog.alone_bind_ok (requestSelect_alone _ _), Prog.bind_eq,
    Prog.alone_bind_ok (recordsToReadModels_alone ?_)]
  · rfl
  · exact nodup_page ..

/-- The receipts of a page are different ones of the user. -/
theorem page_owned {query : ListReceiptsQuery} {today : Date} {d : ReceiptsDatabase}
    {page : ReceiptListPage} (h : Receipts.listByUser query today d = .ok page) :
    (∀ m ∈ page.receipts, d.shelf.owned m.receiptId query.userId = some m) ∧
    (page.receipts.map (·.receiptId)).Nodup ∧
      page.receipts.length ≤ query.limit := by
  simp only [Receipts.listByUser, listConditions, except_bind_eq_ok, pure, Except.pure,
    Except.ok.injEq] at h
  obtain ⟨conditions, ⟨status, -, rfl⟩, cursor, -, -, -, rfl⟩ := h
  refine ⟨fun m hm => ?_, ?_, ?_⟩
  · obtain ⟨r, hr, rfl⟩ := List.mem_map.1 hm
    obtain ⟨hr, hselected⟩ := List.mem_filter.1
      ((List.mem_insertionSort _).1 (List.mem_of_mem_take (List.mem_of_mem_take hr)))
    simp only [Bool.and_eq_true, decide_eq_true_eq] at hselected
    have hfind : d.receipts.find r.id = some r := Table.find_eq_some.2 ⟨hr, rfl⟩
    have hm : d.shelf r.id = some (d.toReadModel r) := by
      rw [ReceiptsDatabase.shelf, hfind, Option.map_some]
    exact Option.filter_eq_some_iff.2 ⟨hm, decide_eq_true hselected.1.1.1.1⟩
  · rw [List.map_map]
    exact nodup_page ..
  · rw [List.length_map]
    exact List.length_take_le _ _

end

end

/-! ## Failures -/

theorem deferred_lift {α : Type} (x : Except DomainError α) : (RequestTx.lift x).Deferred := by
  rcases x with e | a
  · trivial
  · trivial

theorem deferred_findByIdForUser (receiptId userId : UUID) :
    (findByIdForUser receiptId userId).Deferred := by
  refine (Prog.Deferred.exec ..).bind fun result => ?_
  rcases result with - | record
  · trivial
  · exact (Prog.Deferred.exec ..).bind fun _ => trivial

theorem deferred_update (receipt : Receipt) (current : ReceiptReadModel) (newId : UUID → UUID) :
    (update receipt current newId).Deferred := by
  refine (Prog.Deferred.exec ..).bind fun result => ?_
  rcases result with - | record
  · trivial
  have hflush : (flushUpdate record (receipt.assign record)).Deferred := by
    rw [flushUpdate]
    split
    · trivial
    · exact .exec ..
  have hdelete : (deleteAttachments receipt.id current).Deferred :=
    (Prog.Deferred.exec ..).bind fun _ => (Prog.Deferred.exec ..).bind fun _ => trivial
  exact hflush.bind fun _ => hdelete.bind fun _ => (Prog.Deferred.exec ..).bind fun _ =>
    (Prog.Deferred.exec ..).bind fun _ => trivial

/-- An update raises where something fails. -/
theorem plain_execute (command : UpdateReceiptCommand) (today : Date) (newId : UUID → UUID) :
    (UpdateReceiptCommandUseCase.execute command today newId).Plain := by
  refine .bind (deferred_findByIdForUser _ _) fun result => ?_
  rcases result with - | current
  · trivial
  refine .bind (p := ReceiptsTx.lift (command.receipt current today)) ?_ fun receipt =>
    .bind (deferred_update receipt current newId) fun result => ?_
  · rcases command.receipt current today with e | receipt
    · trivial
    · trivial
  · rcases result with - | model
    · trivial
    · exact Prog.plain_commitOr _ _

theorem deferred_create (receipt : Receipt) (newId : UUID → UUID) (now : Timestamp) :
    (SqlAlchemyReceiptRepository.create receipt newId now).Deferred := by
  refine (Prog.Deferred.exec ..).bind fun _ => (Prog.Deferred.exec ..).relabel.bind fun _ =>
    (Prog.Deferred.exec ..).bind fun result => ?_
  rcases result with - | record
  · trivial
  · exact (Prog.Deferred.exec ..).relabel.bind fun _ => trivial

section

variable [CaseFolding] [LinearOrder Collated] [TimeZones]

/-- A request raises where something fails, and returns after its commit. -/
theorem plain_prog (today : Date) (r : ReceiptRequest) : (r.prog today).Plain := by
  cases r with
  | create command receiptId newId now =>
    rw [prog_create]
    rw [CreateReceiptCommandUseCase.execute]
    generalize Receipt.create command.arguments today receiptId = created
    refine .map (.bind (deferred_lift created) fun receipt =>
      .bind (deferred_create receipt newId now) fun saved => ?_)
    exact Prog.plain_commitOr _ _
  | update command newId =>
    rw [prog_update]
    exact .map (plain_execute command today newId).relabel
  | delete receiptId userId =>
    rw [prog_delete]
    have hdelete : (deleteByIdForUser receiptId userId).Deferred := by
      refine (Prog.Deferred.exec ..).relabel.bind fun result => ?_
      rcases result with - | record
      · trivial
      · exact .bind (.bind (.exec ..) fun _ => trivial) fun _ => trivial
    refine .map (.bind hdelete fun deleted => ?_)
    rcases deleted with - | -
    · trivial
    · exact Prog.plain_commitOr _ _
  | get receiptId userId =>
    rw [prog_get]
    refine .map (.bind (deferred_findByIdForUser receiptId userId).relabel fun result => ?_)
    rcases result with - | current
    · trivial
    · trivial
  | list query =>
    rw [prog_list]
    rw [SqlAlchemyReceiptRepository.listByUser]
    generalize listConditions query today = conditions
    generalize decodeCursor query.cursor query.sort = cursor
    refine .map (Prog.Deferred.plain ((deferred_lift conditions).bind fun _ =>
      (deferred_lift cursor).bind fun _ =>
      (deferred_lift _).bind fun _ => (Prog.Deferred.exec ..).bind fun _ =>
        (Prog.Deferred.exec ..).bind fun records => ?_))
    have hfiles : ∀ receiptIds, (fileIdsByReceiptId receiptIds).Deferred := by
      intro receiptIds
      rw [fileIdsByReceiptId]
      split
      · trivial
      · exact (Prog.Deferred.exec ..).bind fun _ => trivial
    exact .bind (.bind (hfiles _) fun _ => trivial) fun _ => trivial

variable {d : ReceiptsDatabase}

/-- A request that has the store for itself does what the shelf does, or is refused. -/
theorem prog_serve (hd : d.Consistent) (today : Date) (r : ReceiptRequest) :
    ((r.prog today).serve d).Answers d fun a d' =>
      Shelf.Serves today r d.shelf a d'.shelf ∧ d'.Consistent := by
  cases r with
  | create command receiptId newId now =>
    rw [prog_create]
    refine .map ?_
    rcases createReceipt_serve hd.attached command today receiptId newId now with
      ⟨receipt, hcreate, ⟨hsendable, hnone⟩, hresult, hstore⟩ | ⟨-, ⟨e, hresult⟩, hstore⟩
    · refine .inl ⟨_, hresult, ?_⟩
      have hnone' : d.receipts.find (receiptToRecord receipt now).id = none := hnone
      have hshelf :=
        ReceiptsDatabase.shelf_addReceipt hd.attached hnone' receipt.receiptFileIds.value newId
      rw [hstore]
      refine ⟨(congrArg (Shelf.Serves today _ d.shelf _) hshelf).mpr ?_,
        hd.addReceipt hnone' hsendable _ _⟩
      exact .create hcreate hsendable (by rw [ReceiptsDatabase.shelf, hnone, Option.map_none])
    · exact .inr ⟨⟨e, hresult⟩, hstore⟩
  | update command newId =>
    rw [prog_update]
    refine .map ?_
    rcases updateReceipt_serve hd command today newId with
      ⟨current, receipt, record, howned, hreceipt, hsendable, hfind, hid, hmodel, hresult, hstore⟩
        | ⟨-, ⟨e, hresult⟩, hstore⟩
    · obtain ⟨r, hr⟩ := Option.ne_none_iff_exists'.1 hfind
      refine .inl ⟨_, hresult, ?_⟩
      have hshelf := ReceiptsDatabase.shelf_replaceReceipt hr receipt.receiptFileIds.value newId
      rw [hmodel, hid] at hshelf
      rw [hstore, hid]
      refine ⟨(congrArg (Shelf.Serves today _ d.shelf _) hshelf).mpr
        (.update howned hreceipt hsendable.1), ?_⟩
      exact hid ▸ hd.replaceReceipt hr hsendable.2 _ _
    · exact .inr ⟨⟨e, hresult⟩, hstore⟩
  | delete receiptId userId =>
    rw [prog_delete]
    refine .map ?_
    rcases deleteReceipt_serve (d := d) receiptId userId with
      ⟨current, howned, hresult, hstore⟩ | ⟨-, ⟨e, hresult⟩, hstore⟩
    · refine .inl ⟨_, hresult, ?_⟩
      rw [hstore]
      have hshelf := ReceiptsDatabase.shelf_removeReceipt (d := d) receiptId
      refine ⟨(congrArg (Shelf.Serves today _ d.shelf _) hshelf).mpr ?_, hd.removeReceipt receiptId⟩
      exact .delete howned
    · exact .inr ⟨⟨e, hresult⟩, hstore⟩
  | get receiptId userId =>
    rw [prog_get]
    refine .map ?_
    rw [getReceipt_serve]
    rcases howned : d.shelf.owned receiptId userId with - | current
    · exact .inr ⟨⟨_, rfl⟩, rfl⟩
    · exact .inl ⟨_, rfl, .get howned, hd⟩
  | list query =>
    rw [prog_list]
    refine .map ?_
    rw [listReceipts_serve]
    rcases hpage : Receipts.listByUser query today d with e | page
    · exact .inr ⟨⟨_, rfl⟩, rfl⟩
    · obtain ⟨howned, hnodup, hlength⟩ := page_owned hpage
      exact .inl ⟨_, rfl, .list howned hnodup hlength, hd⟩

/-- The identities that a request gives to attachments are new ones. -/
def ReceiptRequest.FreshIn (d : ReceiptsDatabase) : ReceiptRequest → Prop
  | create _ _ newId _ | update _ newId => ∀ fileId, ∀ a ∈ d.attachments, a.id ≠ newId fileId
  | delete .. | get .. | list _ => True

omit [CaseFolding] [LinearOrder Collated] [TimeZones] in
/-- But for listings, the shelf says what is left, and what the response is. -/
theorem Shelf.Serves.unique {today : Date} {r : ReceiptRequest} {σ σ' σ'' : Shelf}
    {a a' : ReceiptResponse} (h : Serves today r σ a σ') (h' : Serves today r σ a' σ'')
    (hlist : ∀ query, r ≠ .list query) : a = a' ∧ σ' = σ'' := by
  cases h with
  | create hcreate =>
    cases h' with
    | create hcreate' =>
      cases hcreate.symm.trans hcreate'
      exact ⟨rfl, rfl⟩
  | update howned hreceipt =>
    cases h' with
    | update howned' hreceipt' =>
      cases howned.symm.trans howned'
      cases hreceipt.symm.trans hreceipt'
      exact ⟨rfl, rfl⟩
  | delete howned =>
    cases h' with
    | delete => exact ⟨rfl, rfl⟩
  | get howned =>
    cases h' with
    | get howned' =>
      cases howned.symm.trans howned'
      exact ⟨rfl, rfl⟩
  | list => exact absurd rfl (hlist _)

/-- A request that the shelf serves is not refused. -/
theorem serve_ne_error (hd : d.Consistent) {today : Date} {r : ReceiptRequest} {a : ReceiptResponse}
    {σ : Shelf} (h : Shelf.Serves today r d.shelf a σ) (hlist : ∀ query, r ≠ .list query)
    (hfresh : r.FreshIn d) :
    ∃ a, ((r.prog today).serve d).result = .ok a := by
  cases h with
  | @create command receiptId newId now _ receipt hcreate hsendable hnone =>
    rw [prog_create, Prog.serve_map.1]
    have hnone : d.receipts.find receipt.id = none := Option.map_eq_none_iff.1 hnone
    rcases createReceipt_serve hd.attached command today receiptId newId now with
      ⟨_, -, -, hresult, -⟩ | ⟨hnot, -⟩
    · exact ⟨_, by rw [hresult]; rfl⟩
    · exact absurd ⟨receipt, hcreate, ⟨hsendable, hnone⟩,
        fun fileId _ a ha _ => hfresh fileId a ha⟩ hnot
  | @update command newId _ current receipt howned hreceipt hsendable =>
    rw [prog_update, Prog.serve_map.1]
    rcases updateReceipt_serve hd command today newId with ⟨_, _, _, -, -, -, -, -, -, hresult, -⟩
      | ⟨hnot, -⟩
    · exact ⟨_, by rw [hresult]; rfl⟩
    · exact absurd ⟨current, receipt, howned, hreceipt, hsendable,
        fun fileId _ a ha _ => hfresh fileId a ha⟩ hnot
  | @delete receiptId userId _ current howned =>
    rw [prog_delete, Prog.serve_map.1]
    rcases deleteReceipt_serve (d := d) receiptId userId with ⟨_, -, hresult, -⟩ | ⟨hnone, -⟩
    · exact ⟨_, by rw [hresult]; rfl⟩
    · cases hnone.symm.trans howned
  | get howned =>
    rw [prog_get, Prog.serve_map.1, getReceipt_serve, howned]
    exact ⟨_, rfl⟩
  | list => exact absurd rfl (hlist _)

/-- A request that the shelf serves is served, if nothing fails. -/
theorem shelf_served (hd : d.Consistent) {today : Date} {r : ReceiptRequest} {a : ReceiptResponse}
    {σ : Shelf} (h : Shelf.Serves today r d.shelf a σ) (hlist : ∀ query, r ≠ .list query)
    (hfresh : r.FreshIn d) :
    ∃ d', Leaves (r.prog today) d d' (some (.ok a)) ∧ d'.shelf = σ := by
  obtain ⟨_, hok⟩ := serve_ne_error hd h hlist hfresh
  have hleaves := leaves_serve (r.prog today) d
  rcases prog_serve hd today r with ⟨a', hresult, hserves, -⟩ | ⟨⟨e, he⟩, -⟩
  · obtain ⟨rfl, rfl⟩ := h.unique hserves hlist
    exact ⟨_, hresult ▸ hleaves, rfl⟩
  · rw [he] at hok
    cases hok

/-- Requests that are served one by one, whatever fails, do to the store what they do to the shelf. -/
theorem serial_shelf (hd : d.Consistent) {d' : ReceiptsDatabase}
    {log : List ((Date × ReceiptRequest) × Option (Except RequestError ReceiptResponse))}
    (hlog : Serial (fun r d d' => Leaves (r.1.2.prog r.1.1) d d' r.2) d log d') :
    Serial Shelf.Step d.shelf log d'.shelf ∧ d'.Consistent := by
  have hstep : ∀ (r : (Date × ReceiptRequest) × Option (Except RequestError ReceiptResponse))
      (d d' : ReceiptsDatabase)
        (σ : Shelf), d.Consistent ∧ d.shelf = σ → Leaves (r.1.2.prog r.1.1) d d' r.2 →
        ∃ σ', Shelf.Step r σ σ' ∧ d'.Consistent ∧ d'.shelf = σ' := by
    rintro ⟨⟨today, r⟩, x⟩ d d' _ ⟨hd, rfl⟩ hleaves
    rcases (plain_prog today r).leaves hleaves with ⟨rfl, hx⟩ | ⟨⟨a, hresult, hx⟩, rfl⟩
    -- It has not come to its commit, or does what it does when nothing fails.
    · exact ⟨_, .inl ⟨rfl, hx⟩, hd, rfl⟩
    · rcases prog_serve hd today r with ⟨a', hresult', hserves, hconsistent⟩ | ⟨⟨e, he⟩, -⟩
      · obtain rfl : a' = a := Except.ok.inj (hresult'.symm.trans hresult)
        exact ⟨_, .inr ⟨a', hx, hserves⟩, hconsistent, rfl⟩
      · rw [he] at hresult
        cases hresult
  obtain ⟨σ, hσ, hd', rfl⟩ := Serial.refines hstep hlog ⟨hd, rfl⟩
  exact ⟨hσ, hd'⟩

/-- Requests that are served one by one, whatever fails, do to the store what they do to the shelf;
    and what the shelf serves then is served, if nothing fails. -/
theorem requests_refine_shelf (hd : d.Consistent) {d' : ReceiptsDatabase}
    {log : List ((Date × ReceiptRequest) × Option (Except RequestError ReceiptResponse))}
    (hlog : Serial (fun r d d' => Leaves (r.1.2.prog r.1.1) d d' r.2) d log d') :
    Serial Shelf.Step d.shelf log d'.shelf ∧ d'.Consistent ∧
      ∀ today r a σ, Shelf.Serves today r d'.shelf a σ → (∀ query, r ≠ .list query) → r.FreshIn d' →
        ∃ d'', Leaves (r.prog today) d' d'' (some (.ok a)) ∧ d''.shelf = σ := by
  obtain ⟨hσ, hd'⟩ := serial_shelf hd hlog
  exact ⟨hσ, hd', fun today r a σ => shelf_served hd'⟩

end

/-! ## A receipt is put on the shelf -/

/-- A television that was bought today. -/
def televisionCommand : CreateReceiptCommand where
  userId := .ofNat 2
  itemName := " TV "
  paymentDate := televisionReceipt.paymentDate
  brandName := some "LG"
  receiptFileIds := some [.ofNat 9]

/-- The television is put on the empty shelf. -/
theorem television_on_shelf : ∃ (receipt : Receipt) (d : ReceiptsDatabase),
    receipt.itemName.value = "TV" ∧
    Serial Shelf.Step ReceiptsDatabase.empty.shelf
      [((televisionReceipt.paymentDate,
        .create televisionCommand (.ofNat 1) id televisionReceipt.createdAt),
        some (.ok (.receipt (receipt.readModel televisionReceipt.createdAt))))] d.shelf := by
  let _ := sameCase
  let _ := byCharacters
  let _ := noTimeZones
  have hempty : ReceiptsDatabase.empty.Consistent :=
    ⟨fun a ha => absurd ha List.not_mem_nil, fun r hr => absurd hr List.not_mem_nil⟩
  have hok : ((Receipt.create televisionCommand.arguments televisionReceipt.paymentDate
      (.ofNat 1)).toOption.map
        fun receipt => (receipt.itemName.value, decide receipt.Sendable)) = some ("TV", true) := by
        decide
  rcases hcreate : Receipt.create televisionCommand.arguments televisionReceipt.paymentDate
    (.ofNat 1) with e | receipt
  · rw [hcreate] at hok
    cases hok
  · rw [hcreate] at hok
    obtain ⟨hname, hsendable⟩ := Prod.mk.inj (Option.some.inj hok)
    obtain ⟨d', hleaves, -⟩ := shelf_served hempty
      (.create hcreate (of_decide_eq_true hsendable) rfl) (fun _ h => by cases h)
      fun _ a ha => absurd ha List.not_mem_nil
    exact ⟨receipt, d', hname, (requests_refine_shelf hempty (.snoc .nil hleaves)).1⟩

end Boat.Receipts
