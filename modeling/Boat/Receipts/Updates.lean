import Boat.ReadCommitted.Serial
import Boat.Receipts.Patch

/-!
# Receipts: concurrent updates

Whether updates of receipts that run at the same time do what they do one after the other. An update
reads the receipt twice without a lock, checks what it has read, and writes the columns that have
changed since; the attachments are deleted and inserted again, so that the updates of a receipt
exclude each other from the `DELETE` on.

* `updates_serializable`: in all runs in which what an update has read first is still there when it
  reads again, and when it deletes the attachments (`Unchanged`), the updates that have returned are
  a serial run.
* `updates_not_serializable`: there are others.
-/

namespace Boat.Receipts

open ReadCommitted SqlAlchemyReceiptRepository

/-- An update: its command, the day it runs on, and the identities of its new rows. -/
structure Update where
  command : UpdateReceiptCommand
  today : Date
  newId : UUID → UUID

def Update.prog (u : Update) : ReceiptsTx ReceiptReadModel :=
  UpdateReceiptCommandUseCase.execute u.command u.today u.newId

section

variable {ι : Type}

/-- The condition of the runs in which what an update has read first is still there when it reads it
    again, and when it deletes the attachments, which are those it has looked for. -/
def Unchanged : Condition ι ReceiptsDatabase ReceiptsLock ReceiptsStatement := fun _ s d _ =>
  match s with
  | .selectUpdated current => d.readModel current.receiptId current.userId = some current
  | .deleteAttachments current found =>
    d.readModel current.receiptId current.userId = some current ∧
      d.attachmentsOf current.receiptId = found
  | _ => True

instance (i : ι) (s : ReceiptsStatement) (d : ReceiptsDatabase)
    (ks : List ReceiptsLock) : Decidable (Unchanged i s d ks) := by
  unfold Unchanged
  split <;> infer_instance

end

/-! ## One after the other -/

namespace ReceiptsDatabase

/-- Every receipt has one to five files, and does not expire before its payment. -/
structure Proper (d : ReceiptsDatabase) : Prop where
  files : ∀ r ∈ d.receipts.rows, ValidFiles ((d.attachmentsOf r.id).map (·.fileId))
  expiresOn : ∀ r ∈ d.receipts.rows, r.expiresOn.before r.paymentDate = false

/-- A receipt expires its period of months after its payment. -/
def Derives (d : ReceiptsDatabase) (id : UUID) : Prop :=
  ∀ r, d.receipts.find id = some r → r.paymentDate.addMonths r.periodMonths = .ok r.expiresOn

end ReceiptsDatabase

/-- The receipts that expire on a derived day, after an update: one more if it derives the day, one
    less if it sets it. -/
def UpdateReceiptCommand.derivedAfter (c : UpdateReceiptCommand) (d : ReceiptsDatabase)
    (derived : Set UUID) : Set UUID :=
  match d.readModel c.receiptId c.userId with
  | none => derived
  | some current =>
    if c.resolvedExpiresOn current = none then insert c.receiptId derived
    else if .expiresOn ∈ c.updatedFields then derived \ {c.receiptId}
    else derived

/-- An update that runs alone and returns, with the receipts that expire on a derived day. -/
structure Update.Runs (u : Update) (x y : ReceiptsDatabase × Set UUID) : Prop where
  returns : ∃ model, u.prog.alone noneRefused x.1 x.1 = ⟨.ok model, y.1, y.1⟩
  derived : y.2 = u.command.derivedAfter x.1 x.2

/-! ## Interference -/

section

variable {ι : Type} {u : ι → Update}

/-- What a commit of an update does: it is an update of a store that no other one can update. -/
structure Update.Commits (u : Update) (ks : List ReceiptsLock) (d d' : ReceiptsDatabase) : Prop where
  returns : ∃ model, u.prog.alone noneRefused d d = ⟨.ok model, d', d'⟩
  locked : ∀ a ∈ d.attachmentsOf u.command.receiptId, .row (.attachment a.id) ∈ ks
  receipts : ∀ id, id ≠ u.command.receiptId → d'.receipts.find id = d.receipts.find id
  attachments : ∀ id, id ≠ u.command.receiptId → d'.attachmentsOf id = d.attachmentsOf id
  new : ∀ a ∈ d'.attachments, a ∈ d.attachments ∨ .entry (.attachmentId a.id) ∈ ks

/-- The protocol of updates. -/
def updateProtocol (u : ι → Update) : Protocol ι ReceiptsDatabase ReceiptsLock ReceiptsStatement where
  inv := ReceiptsDatabase.Proper
  guar i ks d d' := (u i).Commits ks d d'
  cond := Unchanged

/-- A receipt with its attachments, as an update has found them. -/
structure Found (receiptId : UUID) (record : ReceiptRecord) (found : List ReceiptAttachment)
    (d : ReceiptsDatabase) : Prop where
  record : d.receipts.find receiptId = some record
  found : d.attachmentsOf receiptId = found

variable {i : ι} {ks : List ReceiptsLock} {d d' : ReceiptsDatabase} {receiptId : UUID}
  {record : ReceiptRecord}
  {found : List ReceiptAttachment}

/-- Under the lock of an attachment of a receipt, no other update changes the receipt. -/
theorem Found.interf {a : ReceiptAttachment} (ha : a ∈ found) (hlock : .row (.attachment a.id) ∈ ks)
    (h : (updateProtocol u).Interf i ks d d') (hd : Found receiptId record found d) :
    Found receiptId record found d' := by
  refine Protocol.Interf.keeps (p := Found receiptId record found) ?_ h hd
  rintro d d' ⟨j, ks', -, hdisjoint, -, -, hg, -⟩ ⟨hrecord, hfound⟩
  have hne : receiptId ≠ (u j).command.receiptId := by
    rintro rfl
    exact hdisjoint hlock (hg.locked a (hfound ▸ ha))
  exact ⟨(hg.receipts _ hne).trans hrecord, (hg.attachments _ hne).trans hfound⟩

/-- Under the entries of the new attachments, no other update inserts one with the same identity. -/
theorem freshFor_interf {fileIds : List UUID} {newId : UUID → UUID}
    (hlocks : ∀ fileId ∈ fileIds, .entry (.attachmentId (newId fileId)) ∈ ks)
    (h : (updateProtocol u).Interf i ks d d') (hd : FreshFor receiptId fileIds newId d) :
    FreshFor receiptId fileIds newId d' := by
  refine Protocol.Interf.keeps (p := FreshFor receiptId fileIds newId) ?_ h hd
  rintro d d' ⟨j, ks', -, hdisjoint, -, -, hg, -⟩ hd fileId hfile a ha hne hid
  rcases hg.new a ha with ha | hentry
  · exact hd fileId hfile a ha hne hid
  · rw [hid] at hentry
    exact hdisjoint (hlocks fileId hfile) hentry

/-! ## The steps of an update -/

/-- What the flush of an update has written, and what it has locked. -/
def Flushed (record assigned : ReceiptRecord) (w : ReceiptsDatabase → ReceiptsDatabase)
    (ks : List ReceiptsLock) (d : ReceiptsDatabase) : Prop :=
  w = id ∧ assigned = record ∨ assigned.Sendable ∧ ∃ stored ∈ d.receipts.rows, stored.id = record.id ∧
    w = ReceiptsDatabase.updateReceipt (flushRecord record assigned stored) ∧
      .row (.receipt stored.id) ∈ ks

theorem wp_flushUpdate (record assigned : ReceiptRecord) (d : ReceiptsDatabase) :
    (updateProtocol u).wp i (fun _ w ks d => Flushed record assigned w ks d) (fun _ _ _ _ => True)
      (flushUpdate record assigned) id [] d := by
  rw [flushUpdate]
  split
  · next h => exact .inl ⟨rfl, h⟩
  rw [ReceiptsTx.exec]
  split
  · next hsendable =>
    refine Protocol.wp_update (X := fun _ _ => True) ?_ (fun _ _ => trivial) (fun _ _ => trivial)
    intro d' stored _ _ _ hfind
    obtain ⟨hmem, hid⟩ := Table.find_eq_some.1 hfind
    exact .inr ⟨hsendable, stored, hmem, hid, rfl, List.mem_cons_self⟩
  · exact Protocol.wp_refuse (X := fun _ _ => True) (fun _ _ => trivial) fun _ _ => trivial

theorem Flushed.sends {assigned : ReceiptRecord} {w : ReceiptsDatabase → ReceiptsDatabase}
    (h : Flushed record assigned w ks d) : Sends record assigned :=
  h.imp And.right And.left

/-- Over the record that has been loaded, the flush writes what has been assigned. -/
theorem Flushed.eq {receipt : Receipt} {w : ReceiptsDatabase → ReceiptsDatabase}
    (h : Flushed record (receipt.assign record) w ks d) (hd : (updateProtocol u).Interf i ks d d')
    (hrecord : d'.receipts.find record.id = some record) :
    ∀ d : ReceiptsDatabase, d.receipts.find record.id = some record →
      w d = ⟨d.receipts.update (receipt.assign record), d.attachments⟩ := by
  intro d₁ hfind
  rcases h with ⟨rfl, hassign⟩ | ⟨-, stored, hstored, hid, rfl, hlock⟩
  · rw [hassign, Table.update_self (Table.find_eq_some.1 hfind).1]
    rfl
  · -- The row is locked, so that it is still the one that has been written to.
    have hstored' : stored ∈ d'.receipts.rows := hd.kept hlock _ (.receipt stored) hstored
    obtain rfl : stored = record := Table.eq_of_key hstored' (Table.find_eq_some.1 hrecord).1 hid
    rw [flushRecord_assign]
    rfl

/-- What an update has done when it commits: it has locked the receipt that it has found, and its
    write replaces it. -/
structure Ready (receipt : Receipt) (current : ReceiptReadModel) (newId : UUID → UUID)
    (w : ReceiptsDatabase → ReceiptsDatabase) (ks : List ReceiptsLock) (d : ReceiptsDatabase)
    (record : ReceiptRecord) (found : List ReceiptAttachment) : Prop where
  state : Found receipt.id record found d
  read : d.readModel receipt.id receipt.userId = some current
  sends : Sends record (receipt.assign record)
  nonempty : found ≠ []
  locked : ∀ a ∈ found, .row (.attachment a.id) ∈ ks
  fresh : FreshFor receipt.id receipt.receiptFileIds.value newId d
  entries : ∀ fileId ∈ receipt.receiptFileIds.value, .entry (.attachmentId (newId fileId)) ∈ ks
  write : ∀ d, Found receipt.id record found d → w d = d.replaceReceipt (receipt.assign record)
    (attachmentRecords receipt.id receipt.receiptFileIds.value newId)

/-- What is read of a receipt depends on what has been found. -/
theorem Found.readModel (h : Found receiptId record found d) (h' : Found receiptId record found d')
    (userId : UUID) :
    d'.readModel receiptId userId = d.readModel receiptId userId := by
  simp only [ReceiptsDatabase.readModel, ReceiptsDatabase.receiptOf, ReceiptsDatabase.fileIds,
    h.record, h'.record, h.found, h'.found]

theorem Ready.interf {receipt : Receipt} {current : ReceiptReadModel} {newId : UUID → UUID}
    {w : ReceiptsDatabase → ReceiptsDatabase} (h : Ready receipt current newId w ks d record found)
    (hd : (updateProtocol u).Interf i ks d d') :
    Ready receipt current newId w ks d' record found := by
  obtain ⟨a, ha⟩ := List.exists_mem_of_ne_nil found h.nonempty
  have hfound := h.state.interf ha (h.locked a ha) hd
  exact ⟨hfound, (h.state.readModel hfound _).trans h.read, h.sends, h.nonempty, h.locked,
    freshFor_interf h.entries hd h.fresh, h.entries, h.write⟩

/-- What is read of a record determines it. -/
theorem recordToReadModel_inj {r r' : ReceiptRecord} {files files' : List UUID}
    (h : recordToReadModel r files = recordToReadModel r' files') : r = r' := by
  obtain ⟨⟩ := r
  obtain ⟨⟩ := r'
  simp only [recordToReadModel, ReceiptReadModel.mk.injEq] at h
  simp only [h]

theorem wp_deleteAttachments {receipt : Receipt} {current : ReceiptReadModel}
    {w : ReceiptsDatabase → ReceiptsDatabase} (hid : receipt.id = record.id)
    (hreceiptId : current.receiptId = receipt.id) (huserId : current.userId = receipt.userId)
    (hmodel : ∃ files, current = recordToReadModel record files)
    (hw : Flushed record (receipt.assign record) w ks d) :
    (updateProtocol u).wp i (fun _ w ks d => ∃ found, Found receipt.id record found d ∧
        d.readModel receipt.id receipt.userId = some current ∧ found ≠ [] ∧
        (∀ a ∈ found, .row (.attachment a.id) ∈ ks) ∧
        ∀ d, Found receipt.id record found d → w d =
          ⟨d.receipts.update (receipt.assign record),
            d.attachments.filter (·.receiptId ≠ receipt.id)⟩)
      (fun _ _ _ _ => True) (deleteAttachments receipt.id current) w ks d := by
  rw [deleteAttachments, Prog.bind_eq, Protocol.wp_bind]
  refine (Protocol.wp_query (X := fun _ _ => True)).2 fun d₁ hd₁ _ => ⟨fun _ => ?_, trivial⟩
  rw [Prog.bind_eq, Protocol.wp_bind]
  refine (Protocol.wp_modify (X := fun _ _ => True)).2 fun d₂ hd₂ hproper =>
    ⟨fun hunchanged => ?_, trivial⟩
  -- What has been read first is there, so that all attachments are deleted.
  obtain ⟨hread, hfound⟩ := hunchanged
  rw [hreceiptId, huserId] at hread
  rw [hreceiptId] at hfound
  obtain ⟨files, hfiles⟩ := hmodel
  have hstate : Found receipt.id record ((w d₁).attachmentsOf receipt.id) d₂ := by
    refine ⟨?_, hfound⟩
    obtain ⟨record', hrecord', hmodel'⟩ := Option.map_eq_some_iff.1 hread
    rw [hfiles] at hmodel'
    rw [← recordToReadModel_inj hmodel']
    exact (ReceiptsDatabase.receiptOf_eq_some.1 hrecord').1
  have hwrite := hw.eq (hd₁.trans hd₂) (hid ▸ hstate.record)
  have hfilter : ((w d₁).attachmentsOf receipt.id).filter (· ∈ (w d₂).attachments) =
      (w d₁).attachmentsOf receipt.id := by
    rw [hwrite d₂ (hid ▸ hstate.record), ← hfound]
    exact List.filter_eq_self.2 fun a ha => decide_eq_true (ReceiptsDatabase.mem_attachmentsOf.1 ha).1
  simp only [hfilter]
  refine ⟨_, hstate, hread, ?_, fun a ha => ?_, fun d₃ hd₃ => ?_⟩
  · -- Every receipt has attachments.
    intro hempty
    have hmin := (hproper.files record (Table.find_eq_some.1 hstate.record).1).1
    rw [← hid, hstate.found, hempty] at hmin
    exact Nat.not_succ_le_zero 0 hmin
  · exact List.mem_append_left _ (List.mem_map_of_mem ha)
  · show ReceiptsDatabase.deleteAttachments _ (w d₃) = _
    rw [hwrite d₃ (hid ▸ hd₃.record), ← hd₃.found]
    exact congrArg (ReceiptsDatabase.mk _)
      (ReceiptsDatabase.deleteAttachments_attachmentsOf d₃ receipt.id)

theorem wp_update {receipt : Receipt} {current : ReceiptReadModel} {newId : UUID → UUID}
    (hreceiptId : current.receiptId = receipt.id) (huserId : current.userId = receipt.userId) :
    (updateProtocol u).wp i
      (fun _ w ks d => ∃ record found, Ready receipt current newId w ks d record found)
      (fun _ _ _ _ => True) (update receipt current newId) id [] d := by
  rw [update, Prog.bind_eq, Protocol.wp_bind]
  refine (Protocol.wp_query (X := fun _ _ => True)).2 fun d₁ _ _ => ⟨fun hunchanged => ?_, trivial⟩
  have hread : d₁.readModel receipt.id receipt.userId = some current :=
    hreceiptId ▸ huserId ▸ hunchanged
  obtain ⟨record, hrecord, hmodel⟩ := Option.map_eq_some_iff.1 hread
  have hid : receipt.id = record.id :=
    ((Table.find_eq_some.1 (ReceiptsDatabase.receiptOf_eq_some.1 hrecord).1).2).symm
  simp only [id_eq, hrecord, Prog.bind_eq, Prog.pure_eq, Protocol.wp_bind_eq, List.nil_append]
  refine Protocol.wp_mono (wp_flushUpdate record (receipt.assign record) d₁)
    (fun _ w ks d hw => ?_) fun _ _ _ _ h => h
  have hsends := hw.sends
  refine Protocol.wp_mono
    (wp_deleteAttachments hid hreceiptId huserId ⟨_, hmodel.symm⟩ hw) ?_ fun _ _ _ _ h => h
  rintro - w ks d ⟨found, hstate, hread, hnonempty, hlocked, hwrite⟩
  obtain ⟨a, ha⟩ := List.exists_mem_of_ne_nil found hnonempty
  refine Protocol.wp_insert (X := fun _ _ => True) (fun d₂ hd₂ _ _ hentries => ?_)
    (fun _ _ _ _ _ _ _ _ _ => trivial)
    fun _ _ => trivial
  have hstate₂ := hstate.interf ha (hlocked a ha) hd₂
  -- No attachment of another receipt has the identity of a new one.
  have hfresh : FreshFor receipt.id receipt.receiptFileIds.value newId d₂ := by
    intro fileId hfile b hb hne hbid
    have hentry := hentries (.attachmentId (newId fileId))
      (List.mem_flatMap.2 ⟨⟨newId fileId, receipt.id, fileId⟩,
      List.mem_map_of_mem hfile, List.mem_cons_self⟩)
    rw [hwrite d₂ hstate₂, ReceiptsDatabase.hasEntry_eq_false] at hentry
    refine hentry b (List.mem_filter.2 ⟨hb, by simpa using hne⟩) ?_
    rw [← hbid]
    exact List.mem_cons_self
  refine (Protocol.wp_query (X := fun _ _ => True)).2 fun d₃ hd₃ _ =>
    ⟨fun _ => ⟨record, found, ?_⟩, trivial⟩
  rw [List.nil_append]
  refine Ready.interf ⟨hstate₂, (hstate.readModel hstate₂ _).trans hread, hsends, hnonempty,
    fun b hb => ?_, hfresh, fun fileId hfile => ?_, fun d₄ hd₄ => ?_⟩ hd₃
  · exact List.mem_append_right _ (hlocked b hb)
  · refine List.mem_append_left
      _ (List.mem_map_of_mem (List.mem_flatMap.2 ⟨⟨newId fileId, receipt.id, fileId⟩, ?_, ?_⟩))
    · exact List.mem_map_of_mem hfile
    · exact List.mem_cons_self
  · show ReceiptsDatabase.insertAttachments _ (w d₄) = _
    rw [hwrite d₄ hd₄, ReceiptsDatabase.replaceReceipt, Receipt.assign_id, ← hid]
    rfl

/-- The write of an update keeps the store proper. -/
theorem Ready.proper {receipt : Receipt} {current : ReceiptReadModel} {newId : UUID → UUID}
    {w : ReceiptsDatabase → ReceiptsDatabase} (h : Ready receipt current newId w ks d record found)
    (hd : d.Proper) (hexpires : receipt.expiresOn.before receipt.paymentDate = false) :
    (w d).Proper := by
  obtain ⟨hmem, hid⟩ := Table.find_eq_some.1 h.state.record
  rw [h.write d h.state]
  have hother : ∀ r ∈ (d.receipts.update (receipt.assign record)).rows,
      r ∈ d.receipts.rows ∧ r.id ≠ record.id ∨ r = receipt.assign record := by
    intro r hr
    rcases Table.mem_update.1 hr with h | ⟨rfl, -⟩
    · exact .inl h
    · exact .inr rfl
  have hfiles : ∀ id, id ≠ record.id → (d.replaceReceipt (receipt.assign record)
      (attachmentRecords receipt.id receipt.receiptFileIds.value newId)).attachmentsOf id =
        d.attachmentsOf id := by
    intro id hne
    rw [← hid]
    exact attachmentsOf_replaceReceipt (receipt.assign record) hne
  refine ⟨fun r hr => ?_, fun r hr => ?_⟩
  · rcases hother r hr with ⟨hr, hne⟩ | rfl
    · rw [hfiles _ hne]
      exact hd.files r hr
    · have hperm :
          ((d.replaceReceipt (receipt.assign record)
            (attachmentRecords receipt.id receipt.receiptFileIds.value
            newId)).attachmentsOf record.id).map (·.fileId) = receipt.receiptFileIds.value := by
        rw [ReceiptsDatabase.replaceReceipt, Receipt.assign_id, hid,
          ReceiptsDatabase.attachmentsOf_append, ReceiptsDatabase.map_fileId_attachmentRecords]
      rw [Receipt.assign_id, hperm]
      exact ⟨receipt.receiptFileIds.le_length, receipt.receiptFileIds.length_le,
        receipt.receiptFileIds.nodup⟩
  · rcases hother r hr with ⟨hr, -⟩ | rfl
    · exact hd.expiresOn r hr
    · exact hexpires

/-- What a ready update commits is what it does alone. -/
theorem Ready.commits {receipt : Receipt} {current : ReceiptReadModel}
    {w : ReceiptsDatabase → ReceiptsDatabase} {v : Update}
    (hreceipt : v.command.receipt current v.today = .ok receipt)
    (hid : receipt.id = v.command.receiptId) (huser : receipt.userId = v.command.userId)
    (h : Ready receipt current v.newId w ks d record found) :
    v.Commits ks d (w d) := by
  obtain ⟨record', hrecord, hmodel⟩ := Option.map_eq_some_iff.1 h.read
  obtain rfl : record = record' := Option.some.inj
    (h.state.record.symm.trans (ReceiptsDatabase.receiptOf_eq_some.1 hrecord).1)
  have hidRecord : record.id = receipt.id := (Table.find_eq_some.1 h.state.record).2
  rw [h.write d h.state]
  refine ⟨?_, ?_, fun id hne => ?_, fun id hne => ?_, fun a ha => ?_⟩
  · rw [hid, huser] at hrecord
    rw [hid] at hmodel
    rw [hid]
    exact ⟨_, execute_alone_ok hrecord (hmodel ▸ hreceipt) h.sends (hid ▸ h.fresh)⟩
  · rw [← hid, h.state.found]
    exact h.locked
  · show (d.receipts.update (receipt.assign record)).find id = _
    rw [Table.find_update, if_neg]
    rwa [Receipt.assign_id, hidRecord, hid]
  · rw [← hid, ← hidRecord] at hne
    rw [← hidRecord]
    exact attachmentsOf_replaceReceipt (receipt.assign record) hne
  · rcases List.mem_append.1 ha with ha | ha
    · exact .inl (List.mem_filter.1 ha).1
    · obtain ⟨fileId, hfile, rfl⟩ := List.mem_map.1 ha
      exact .inr (h.entries fileId hfile)

theorem wp_findByIdForUser (receiptId userId : UUID) :
    (updateProtocol u).wp i (fun result w ks _ => w = id ∧ ks = [] ∧
      ∀ current, result = some current →
      current.receiptId = receiptId ∧ current.userId = userId) (fun _ _ _ _ => True)
      (findByIdForUser receiptId userId) id [] d := by
  rw [findByIdForUser, Prog.bind_eq, Protocol.wp_bind]
  refine (Protocol.wp_query (X := fun _ _ => True)).2 fun d₁ _ _ => ⟨fun _ => ?_, trivial⟩
  rcases h : d₁.receiptOf receiptId userId with - | record
  · simp only [id_eq, h, Prog.pure_eq, Protocol.wp_ret, List.append_nil, true_and]
    exact fun _ hnone => by cases hnone
  · obtain ⟨hfind, huser⟩ := ReceiptsDatabase.receiptOf_eq_some.1 h
    simp only [id_eq, h, Prog.bind_eq, Protocol.wp_bind]
    refine (Protocol.wp_query (X := fun _ _ => True)).2 fun d₂ _ _ => ⟨fun _ => ?_, trivial⟩
    simp only [Prog.pure_eq, Protocol.wp_ret, List.append_nil, true_and, Option.some.injEq,
      forall_eq']
    exact ⟨(Table.find_eq_some.1 hfind).2, huser⟩

/-- A receipt does not expire before its payment. -/
theorem Receipt.Created.not_before {a : ReceiptArguments} {today : Date} {newId : UUID}
    {receipt : Receipt} (h : receipt.Created a today newId) :
    receipt.expiresOn.before receipt.paymentDate = false := by
  have hexpires := h.expiresOn
  unfold resolveExpiresOn at hexpires
  split at hexpires
  · exact Date.not_before_of_addMonths receipt.periodMonths.le_value hexpires
  · split at hexpires
    · cases hexpires
    · next hnot =>
      cases hexpires
      exact Bool.eq_false_iff.2 hnot

theorem wp_execute (v : Update) (hv : u i = v) :
    (updateProtocol u).wp i (fun _ _ _ _ => True) (fun _ _ _ _ => True) v.prog id [] d := by
  rw [Update.prog, UpdateReceiptCommandUseCase.execute, Prog.bind_eq, Protocol.wp_bind]
  refine Protocol.wp_mono (wp_findByIdForUser _ _) ?_ fun _ _ _ _ h => h
  rintro (- | current) w ks d₁ ⟨rfl, rfl, hcurrent⟩
  · trivial
  obtain ⟨hreceiptId, huserId⟩ := hcurrent current rfl
  rcases hreceipt : v.command.receipt current v.today with e | receipt
  · simp only [hreceipt]
    trivial
  obtain ⟨_, -, hcreated⟩ := UpdateReceiptCommand.receipt_eq_ok.1 hreceipt
  have hid : receipt.id = current.receiptId := hcreated.id
  have huser : receipt.userId = v.command.userId := hcreated.userId
  simp only [hreceipt]
  show (updateProtocol u).wp i _ _ ((update receipt current v.newId).bind _) id [] d₁
  rw [Protocol.wp_bind]
  refine Protocol.wp_mono (wp_update hid.symm (huserId.trans huser.symm)) ?_ fun _ _ _ _ h => h
  rintro (- | model) w ks d₂ ⟨record, found, hready⟩
  · trivial
  intro d₃ hd₃ hproper
  have hready₃ := hready.interf hd₃
  subst hv
  exact ⟨⟨hready₃.proper hproper hcreated.not_before,
    hready₃.commits hreceipt (hid.trans hreceiptId) huser, trivial⟩, trivial⟩

theorem meets_updates (hd : d.Proper) :
    (updateProtocol u).Meets (fun i => (u i).prog) d (fun _ _ _ => True) fun _ _ _ => True where
  inv := hd
  wp i := wp_execute (u i) rfl
  stable_ret _ _ _ _ _ _ := trivial
  stable_raise _ _ _ _ _ _ := trivial

/-- An update returns by its commit. -/
theorem Update.returnsByCommit (v : Update) : v.prog.ReturnsByCommit := by
  have hselect : ∀ {α : Type} (s : ReceiptsStatement) (f : ReceiptsDatabase → α),
      (ReceiptsTx.select s f).Deferred :=
    fun s f => .exec ..
  have hfind : (findByIdForUser v.command.receiptId v.command.userId).Deferred := by
    refine (hselect _ _).bind fun result => ?_
    rcases result with - | record
    · trivial
    · exact (hselect _ _).bind fun _ => trivial
  have hupdate : ∀ receipt current, (update receipt current v.newId).Deferred := by
    intro receipt current
    refine (hselect _ _).bind fun result => ?_
    rcases result with - | record
    · trivial
    have hflush : (flushUpdate record (receipt.assign record)).Deferred := by
      rw [flushUpdate]
      split
      · trivial
      · exact .exec ..
    have hdelete : (deleteAttachments receipt.id current).Deferred :=
      (hselect _ _).bind fun _ => (Prog.Deferred.exec ..).bind fun _ => trivial
    exact hflush.bind fun _ => hdelete.bind fun _ => (Prog.Deferred.exec ..).bind fun _ =>
      (hselect _ _).bind fun _ => trivial
  refine .bind hfind fun result => ?_
  rcases result with - | current
  · trivial
  refine Prog.ReturnsByCommit.bind
    (p := ReceiptsTx.lift (v.command.receipt current v.today)) ?_ fun receipt =>
    .bind (hupdate receipt current) fun result => ?_
  · rcases v.command.receipt current v.today with e | receipt
    · trivial
    · trivial
  · rcases result with - | model
    · trivial
    · exact Prog.returnsByCommit_commitOr_bind _ _

/-! ## Derived days -/

/-- The day of the payment is what is read, if it has not changed. -/
theorem paymentDate_eq {v : Update} {current : ReceiptReadModel} {m : ℤ} {receipt : Receipt}
    (h : receipt.Created (v.command.arguments current m) v.today current.receiptId)
    (hsame : ¬v.command.paymentDateChanged current) : receipt.paymentDate = current.paymentDate := by
  have hvalue : v.command.updatedValue .paymentDate v.command.paymentDate (some current.paymentDate) =
      some current.paymentDate := by
    rw [UpdateReceiptCommand.updatedValue]
    split
    · next hlisted => exact not_not.1 fun hne => hsame ⟨hlisted, hne⟩
    · rfl
  have hdate : requiredPaymentDate
      (v.command.updatedValue .paymentDate v.command.paymentDate (some current.paymentDate))
        v.today = .ok receipt.paymentDate := h.paymentDate
  rw [hvalue] at hdate
  exact ((checks_requiredPaymentDate _ v.today current.paymentDate).sound _ hdate).2

/-- The period of months is what is read, if it has not changed. -/
theorem periodMonths_eq {v : Update} {current : ReceiptReadModel} {m : ℤ} {receipt : Receipt}
    (hm : v.command.requiredUpdatedValue .periodMonths v.command.periodMonths current.periodMonths
      "무상 AS 기간" = .ok m)
    (h : receipt.Created (v.command.arguments current m) v.today current.receiptId)
    (hsame : ¬v.command.periodMonthsChanged current) :
    receipt.periodMonths.value = current.periodMonths := by
  have hmonths : m = current.periodMonths := by
    by_cases hlisted : ReceiptField.periodMonths ∈ v.command.updatedFields
    · have hvalue : v.command.periodMonths =
          some current.periodMonths := not_not.1 fun hne => hsame ⟨hlisted, hne⟩
      simp only [UpdateReceiptCommand.requiredUpdatedValue, if_pos hlisted, hvalue,
        Except.ok.injEq] at hm
      exact hm.symm
    · simp only [UpdateReceiptCommand.requiredUpdatedValue, if_neg hlisted, Except.ok.injEq] at hm
      exact hm.symm
  have hvalue : receipt.periodMonths.value = m := by
    have hperiod := h.periodMonths
    rw [ReceiptArguments.newPeriodMonths] at hperiod
    by_cases hpreserve : (v.command.arguments current m).preserveFuturePeriodMonths = true
    · rw [if_pos hpreserve] at hperiod
      exact WarrantyPeriodMonths.value_of_restoreGrandfathered hperiod
    · rw [if_neg hpreserve] at hperiod
      exact WarrantyPeriodMonths.value_of_create hperiod
  exact hvalue.trans hmonths

/-- A receipt that expires on a derived day does so after the next update, unless it sets the day. -/
theorem Update.Runs.derives {v : Update} {x y : ReceiptsDatabase × Set UUID} (h : v.Runs x y)
    (hx : ∀ id ∈ x.2, x.1.Derives id) : ∀ id ∈ y.2, y.1.Derives id := by
  obtain ⟨d, derived⟩ := x
  obtain ⟨d', derived'⟩ := y
  obtain ⟨⟨model, hreturns⟩, rfl⟩ := h
  simp only at hreturns hx ⊢
  rw [UpdateReceiptCommand.derivedAfter]
  rcases hmodel : d.readModel v.command.receiptId v.command.userId with - | current
  · -- An update that finds no receipt does not return.
    rw [Update.prog, execute_alone_none hmodel] at hreturns
    cases hreturns
  obtain ⟨record, hrecord, rfl⟩ := Option.map_eq_some_iff.1 hmodel
  obtain ⟨hfind, -⟩ := ReceiptsDatabase.receiptOf_eq_some.1 hrecord
  rcases hreceipt : v.command.receipt
    (recordToReadModel record (d.fileIds v.command.receiptId)) v.today with e | receipt
  · rw [Update.prog, execute_alone_error hmodel hreceipt] at hreturns
    cases hreturns
  by_cases hsends : Sends record (receipt.assign record)
  rotate_left
  · rw [Update.prog, execute_alone_notTaken v.newId hrecord hreceipt hsends] at hreturns
    cases hreturns
  rcases execute_alone_cases v.newId hrecord hreceipt hsends with ho | ⟨-, e, ho⟩
  rotate_left
  · rw [Update.prog, ho] at hreturns
    cases hreturns
  rw [Update.prog, ho] at hreturns
  cases hreturns
  obtain ⟨m, hm, hcreated⟩ := UpdateReceiptCommand.receipt_eq_ok.1 hreceipt
  obtain ⟨hmem, hid⟩ := Table.find_eq_some.1 hfind
  have hexpires := hcreated.expiresOn
  intro id hderived r hr
  change (d.receipts.update (receipt.assign record)).find id = some r at hr
  rw [Table.find_update, Receipt.assign_id, hid] at hr
  by_cases hne : id = v.command.receiptId
  · subst hne
    simp only [if_true, hfind, Option.map_some, Option.some.injEq] at hr
    subst hr
    show receipt.paymentDate.addMonths receipt.periodMonths.value = .ok receipt.expiresOn
    change resolveExpiresOn (v.command.resolvedExpiresOn (recordToReadModel record _)) _ _ =
      _ at hexpires
    by_cases hnone :
      v.command.resolvedExpiresOn (recordToReadModel record (d.fileIds v.command.receiptId)) = none
    · rwa [hnone] at hexpires
    · simp only [if_neg hnone] at hderived
      split at hderived
      · exact absurd rfl hderived.2
      · next hlisted =>
        -- Neither the payment nor the period has changed, and the day is the stored one.
        rw [UpdateReceiptCommand.resolvedExpiresOn, if_neg hlisted] at hnone hexpires
        split at hnone
        · exact absurd rfl hnone
        · next hsame =>
          obtain ⟨hdate, hmonths⟩ := not_or.1 hsame
          rw [if_neg hsame, resolveExpiresOn] at hexpires
          split at hexpires
          · cases hexpires
          · have hstored := hx _ hderived record hfind
            rw [paymentDate_eq hcreated hdate, periodMonths_eq hm hcreated hmonths,
              ← Except.ok.inj hexpires]
            exact hstored
  · rw [if_neg hne] at hr
    refine hx id ?_ r hr
    simp only at hderived
    split at hderived
    · exact (Set.mem_insert_iff.1 hderived).resolve_left hne
    · split at hderived
      · exact hderived.1
      · exact hderived

end

/-! ## Serializability -/

section

variable {ι : Type} {u : ι → Update} {d : ReceiptsDatabase} {derived : Set UUID}

/-- A serial run says which receipts expire on a derived day. -/
theorem exists_runs (derived : Set UUID) {d' : ReceiptsDatabase} {order : List ι}
    (h : Serial (fun i d d' => ∃ model, (u i).prog.alone noneRefused d d = ⟨.ok model, d', d'⟩) d
      order d') :
    ∃ derived', Serial (fun i => (u i).Runs) (d, derived) order (d', derived') := by
  induction h with
  | nil => exact ⟨derived, .nil⟩
  | snoc _ hstep ih =>
    obtain ⟨derived', hserial⟩ := ih
    exact ⟨_, hserial.snoc ⟨hstep, rfl⟩⟩

variable [DecidableEq ι]
  {s : System ι ReceiptsDatabase ReceiptsStatement ReceiptsError ReceiptReadModel}

/-- Updates that find what they have read first are serializable: the committed store is that of the
    updates that have returned, run one after the other. Every receipt has one to five files and
    does not expire before its payment, and it expires its period after its payment if the day has
    been derived. -/
theorem updates_serializable (hd : d.Proper) (hderived : ∀ id ∈ derived, d.Derives id)
    (hs : Reach Unchanged (System.init (fun i => (u i).prog) d) s) :
    s.store.Proper ∧ ∃ order derived', order.Nodup ∧
    (∀ i, i ∈ order ↔ ∃ model, s.returned i = some model) ∧
      Serial (fun i => (u i).Runs) (d, derived) order (s.store, derived') ∧
      ∀ id ∈ derived', s.store.Derives id := by
  have hmeets := meets_updates (u := u) hd
  obtain ⟨order, hnodup, hreturned, hserial⟩ := hmeets.serial (fun i => (u i).returnsByCommit)
    (fun i ks d d' _ hg => hg.returns) hs
  obtain ⟨derived', hruns⟩ := exists_runs derived hserial
  refine ⟨(hmeets.sound hs).1, order, derived', hnodup, hreturned, hruns, ?_⟩
  exact hruns.keeps (p := fun x => ∀ id ∈ x.2, x.1.Derives id)
    (fun i x y h hx => h.derives hx) hderived

end

theorem july_valid :
    ((1 ≤ 2026 ∧ 2026 ≤ 9999) ∧ (1 ≤ 7 ∧ 7 ≤ 12) ∧ 1 ≤ 1 ∧ 1 ≤ monthDays (2026 : ℕ) 7) := by decide

/-- Two updates of a receipt: of the day of the payment, and of the day the warranty expires on. -/
def dateUpdates (payment : Bool) : Update where
  command := {
    userId := .ofNat 2
    receiptId := .ofNat 1
    updatedFields := if payment then {.paymentDate} else {.expiresOn}
    paymentDate := some ⟨2026, 6, 1, by decide⟩
    expiresOn := some ⟨2025, 3, 1, by decide⟩ }
  today := ⟨2026, 7, 1, july_valid⟩
  newId _ := .ofNat (if payment then 20 else 21)

/-- One after the other, the two updates keep the receipt proper, and it expires on the derived
    day. -/
theorem updates_serializable_dates : ∃ s, Reach Unchanged (System.init (fun i => (dateUpdates i).prog)
      (receiptWithFile televisionReceipt)) s ∧ (∀ i, (s.returned i).isSome) ∧ s.store.Proper := by
  obtain ⟨s, hs, hreturned⟩ := System.exists_reach (C := Unchanged)
    (s := System.init (fun i => (dateUpdates i).prog) (receiptWithFile televisionReceipt))
    (p := fun s => ∀ i, (s.returned i).isSome)
    (List.replicate 9 (.run false) ++ List.replicate 9 (.run true)) (by decide +kernel)
  have hproper : (receiptWithFile televisionReceipt).Proper := by
    constructor <;> decide +kernel
  have hderived : ∀ id ∈ (∅ : Set UUID), (receiptWithFile televisionReceipt).Derives id := nofun
  exact ⟨s, hs, hreturned, (updates_serializable hproper hderived hs).1⟩

/-- Each of two updates reads the receipt before the other one commits: the warranty expires before
    the payment. -/
theorem updates_not_serializable :
    ∃ s, Reach Always
      (System.init (fun i => (dateUpdates i).prog) (receiptWithFile televisionReceipt)) s ∧
      (∀ i, (s.returned i).isSome) ∧ ∃ r ∈ s.store.receipts.rows,
      r.expiresOn.before r.paymentDate = true :=
  System.exists_reach
    (List.replicate 3 (.run false) ++ List.replicate 9 (.run true) ++ List.replicate 6 (.run false))
    (by decide +kernel)

end Boat.Receipts
