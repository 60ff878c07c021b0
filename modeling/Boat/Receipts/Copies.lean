import Boat.Receipts.Creation
import Boat.Receipts.Shelf
import Boat.Receipts.Updates

/-!
# Receipts: what is stored stays valid

The limits of amounts and of periods were larger once, and receipts from then are restored as they are
(`restore_grandfathered`). In every store that requests lead to, whatever of them fails
(`receipts_stay_valid`):

* every receipt is one that could be stored (`Stored`), and none exceeds a limit of today unless it
  did so with the same value before (`Limited`);
* every receipt can be updated by its owner, with any values that are valid;
* every receipt within the limits of today can be saved again as it is (`copy`).
-/

namespace Boat.Receipts

open ReadCommitted

namespace ReceiptReadModel

/-- The row that a receipt is read from. -/
def record (m : ReceiptReadModel) : ReceiptRecord where
  id := m.receiptId
  userId := m.userId
  itemName := m.itemName
  brandName := m.brandName
  serialNumber := m.serialNumber
  paymentLocation := m.paymentLocation
  paymentDate := m.paymentDate
  totalAmount := m.totalAmount
  periodMonths := m.periodMonths
  expiresOn := m.expiresOn
  category := m.category
  subCategory := m.subCategory
  memo := m.memo
  requiresPhysicalReceipt := m.requiresPhysicalReceipt
  createdAt := m.registeredAt

/-- The command that saves a receipt again. -/
def copy (m : ReceiptReadModel) : CreateReceiptCommand where
  userId := m.userId
  itemName := m.itemName
  paymentDate := m.paymentDate
  brandName := m.brandName
  serialNumber := m.serialNumber
  paymentLocation := m.paymentLocation
  totalAmount := m.totalAmount
  periodMonths := some m.periodMonths
  expiresOn := some m.expiresOn
  category := m.category
  subCategory := m.subCategory
  memo := m.memo
  requiresPhysicalReceipt := m.requiresPhysicalReceipt
  receiptFileIds := some m.receiptFileIds

/-- A receipt within the limits of today. -/
structure Within (m : ReceiptReadModel) : Prop where
  totalAmount : ∀ x ∈ m.totalAmount, x ≤ TotalAmount.maxAmount
  periodMonths : m.periodMonths ≤ WarrantyPeriodMonths.maxMonths

/-- A receipt that exceeds a limit of today only if it did so on the shelf `σ`, with the same
    value. -/
structure Limited (m : ReceiptReadModel) (σ : Shelf) : Prop where
  totalAmount : ∀ x ∈ m.totalAmount, x ≤ TotalAmount.maxAmount ∨ ∃ old, σ m.receiptId = some old ∧
    old.totalAmount = some x
  periodMonths : m.periodMonths ≤ WarrantyPeriodMonths.maxMonths ∨
    ∃ old, σ m.receiptId = some old ∧ old.periodMonths = m.periodMonths

/-- A receipt that could be stored, with its files in order. -/
structure Proper (m : ReceiptReadModel) (today : Date) : Prop where
  stored : Stored m.record m.receiptFileIds today
  sorted : sortedFiles m.receiptFileIds = m.receiptFileIds

end ReceiptReadModel

/-! ## Receipts that are created -/

theorem storedText_of_normalizedText {value : Option String} {maxLength : ℕ}
    (h : ∀ s ∈ normalizedText value, s.length ≤ maxLength)
    (hsendable : (normalizedText value).all sendable = true) : ∀ s ∈ normalizedText value,
    StoredText maxLength s := by
  intro s hs
  have hnormal := hs
  simp only [normalizedText, Option.mem_def, Option.filter_eq_some_iff,
    Option.map_eq_some_iff] at hnormal
  obtain ⟨⟨t, -, rfl⟩, hne⟩ := hnormal
  exact ⟨strip_strip t, by simpa using hne, h _ hs, (Option.all_eq_true _ _).1 hsendable _ hs⟩

/-- A file list is valid in any order. -/
theorem ValidFiles.sorted {fileIds : List UUID}
    (h : ValidFiles fileIds) : ValidFiles (sortedFiles fileIds) := by
  have hperm : (sortedFiles fileIds).Perm fileIds := List.perm_insertionSort _ _
  obtain ⟨hmin, hmax, hnodup⟩ := h
  exact ⟨hperm.length_eq ▸ hmin, hperm.length_eq ▸ hmax, hperm.nodup_iff.2 hnodup⟩

/-- The database takes a receipt as it takes the row that it is read from. -/
theorem sendable_readModel {receipt : Receipt} {now : Timestamp} :
    (receipt.readModel now).record.Sendable ↔ receipt.Sendable := .rfl

namespace Receipt.Created

variable {a : ReceiptArguments} {today : Date} {newId : UUID} {r : Receipt}

/-- A receipt that is created can be stored, if the database takes its texts, and a period that is
    restored is within the limit of the table. -/
theorem proper (h : r.Created a today newId) (hsendable : r.Sendable)
    (hkept : a.preserveFuturePeriodMonths = true →
      a.periodMonths.getD defaultWarrantyPeriodMonths ≤ 120)
    (registeredAt : Timestamp) : (r.readModel registeredAt).Proper today := by
  have htext {value r : Option String} {fieldName label : String} {maxLength : ℕ}
      (h : optionalText value fieldName label maxLength = .ok r) (hr : r.all sendable = true) :
      ∀ s ∈ r, StoredText maxLength s := by
    obtain ⟨hlength, rfl⟩ := (checks_optionalText value fieldName label maxLength).sound r h
    exact storedText_of_normalizedText hlength hr
  simp only [Receipt.Sendable, List.forall_mem_cons] at hsendable
  obtain ⟨hname, hbrand, hserial, hlocation, hsub, hmemo, -⟩ := hsendable
  refine ⟨⟨?_, htext h.brandName hbrand, htext h.serialNumber hserial,
    htext h.paymentLocation hlocation, htext h.subCategory hsub, htext h.memo hmemo, ?_,
    h.not_before, ?_, ?_, ?_⟩, sortedFiles_sortedFiles _⟩
  · obtain ⟨⟨hne, hlength⟩, hstrip⟩ := (checks_requiredItemName a.itemName).sound _ h.itemName
    show StoredText 255 r.itemName.value
    rw [Option.all_some, hstrip] at hname
    rw [hstrip]
    exact ⟨strip_strip _, hne, hlength, hname⟩
  · obtain ⟨⟨p, hp, hpast⟩, hdate⟩ := (checks_requiredPaymentDate a.paymentDate today today).sound
      _ h.paymentDate
    replace hdate : r.paymentDate = p := by simpa [hp] using hdate
    show today.before r.paymentDate = false
    rw [hdate, hpast]
  · intro x hx
    obtain ⟨amount, -, rfl⟩ := Option.map_eq_some_iff.1 hx
    exact amount.le_value
  · refine ⟨r.periodMonths.le_value, ?_⟩
    obtain ⟨⟨-, hmonths⟩, hperiod⟩ := (checks_period _ _).1.sound _ h.periodMonths
    show r.periodMonths.value ≤ 120
    rw [hperiod]
    rcases hmonths with hkeeps | hmonths
    · exact hkept hkeeps
    · unfold WarrantyPeriodMonths.maxMonths at hmonths
      omega
  · exact ValidFiles.sorted ⟨r.receiptFileIds.le_length, r.receiptFileIds.length_le,
      r.receiptFileIds.nodup⟩

/-- Only what is restored exceeds the limits of today. -/
theorem limits (h : r.Created a today newId) :
    (∀ x ∈ r.totalAmount.map (·.value), a.preserveLegacyTotalAmount = true ∨
      x ≤ TotalAmount.maxAmount) ∧
      (a.preserveFuturePeriodMonths = true ∨
        r.periodMonths.value ≤ WarrantyPeriodMonths.maxMonths) := by
  obtain ⟨hamounts, hamount⟩ := (checks_mapM (checks_amount _) a.totalAmount).1.sound _ h.totalAmount
  obtain ⟨hmonths, hperiod⟩ := (checks_period _ _).1.sound _ h.periodMonths
  simp only [Option.map_id'] at hamount
  rw [hamount, hperiod]
  exact ⟨fun x hx => (hamounts x hx).2, hmonths.2⟩

end Receipt.Created

/-! ## Receipts that are updated -/

section

variable {c : UpdateReceiptCommand} {current : ReceiptReadModel} {today : Date} {receipt : Receipt}
  {σ : Shelf}

/-- What an update restores as it is, it has not updated. -/
theorem not_updated_of_preserve {m : ℤ} :
    ((c.arguments current m).preserveLegacyTotalAmount = true → .totalAmount ∉ c.updatedFields) ∧
      ((c.arguments current m).preserveFuturePeriodMonths = true →
        .periodMonths ∉ c.updatedFields) := by
  simp only [UpdateReceiptCommand.arguments, Bool.and_eq_true, decide_eq_true_eq]
  exact ⟨And.left, And.left⟩

theorem receipt_created (h : c.receipt current today = .ok receipt) : ∃ m : ℤ,
    receipt.Created (c.arguments current m) today current.receiptId ∧
      (.periodMonths ∉ c.updatedFields → m = current.periodMonths) := by
  obtain ⟨m, hm, hcreated⟩ := UpdateReceiptCommand.receipt_eq_ok.1 h
  refine ⟨m, hcreated, fun hnot => ?_⟩
  simp only [UpdateReceiptCommand.requiredUpdatedValue, if_neg hnot, Except.ok.injEq] at hm
  exact hm.symm

/-- An update leaves a receipt that could be stored. -/
theorem proper_of_receipt (h : c.receipt current today = .ok receipt) (hsendable : receipt.Sendable)
    (hperiod : current.periodMonths ≤ 120) (registeredAt : Timestamp) :
    (receipt.readModel registeredAt).Proper today := by
  obtain ⟨m, hcreated, hm⟩ := receipt_created h
  refine hcreated.proper hsendable (fun hkeeps => ?_) registeredAt
  exact (hm (not_updated_of_preserve.2 hkeeps)).le.trans hperiod

/-- An update does not exceed a limit of today, unless it keeps a value that does. -/
theorem limited_of_receipt (h : c.receipt current today = .ok receipt) (hcurrent : current.Limited σ)
    (registeredAt : Timestamp) : (receipt.readModel registeredAt).Limited σ := by
  obtain ⟨m, hcreated, hm⟩ := receipt_created h
  obtain ⟨hamounts, hperiod⟩ := hcreated.limits
  have hid : receipt.id = current.receiptId := hcreated.id
  have hnormal := hcreated.normalised
  refine ⟨fun x hx => ?_, ?_⟩
  · -- An amount over the limit of today is restored, as it was.
    refine (hamounts x hx).elim (fun hkeeps => ?_) .inl
    have hsame : receipt.totalAmount.map (·.value) = current.totalAmount := by
      rw [hnormal.totalAmount]
      exact if_neg (not_updated_of_preserve.1 hkeeps)
    have hx : x ∈ current.totalAmount := hsame ▸ hx
    show x ≤ _ ∨ ∃ old, σ receipt.id = some old ∧ old.totalAmount = some x
    rw [hid]
    exact hcurrent.totalAmount x hx
  · refine hperiod.elim (fun hkeeps => ?_) .inl
    have hsame : receipt.periodMonths.value = current.periodMonths :=
      hnormal.periodMonths.trans (hm (not_updated_of_preserve.2 hkeeps))
    show receipt.periodMonths.value ≤ _ ∨ ∃ old, σ receipt.id = some old ∧
      old.periodMonths = receipt.periodMonths.value
    rw [hsame, hid]
    exact hcurrent.periodMonths

end

/-! ## What every request keeps -/

theorem not_before_trans {a b c : Date} (hab : a.before b = false)
    (hbc : b.before c = false) : a.before c = false := by
  simp only [Date.before, Bool.or_eq_false_iff, Bool.and_eq_false_iff, decide_eq_false_iff_not] at *
  omega

theorem ReceiptReadModel.Proper.mono {m : ReceiptReadModel} {day today : Date} (h : m.Proper day)
    (hday : today.before day = false) : m.Proper today :=
  ⟨{ h.stored with paymentDate := not_before_trans hday h.stored.paymentDate }, h.sorted⟩

/-- The receipts of a shelf are under their identities, could be stored, and are limited by those of
    another. -/
def Shelf.Proper (σ₀ : Shelf) (today : Date) (σ : Shelf) : Prop :=
  ∀ receiptId m, σ receiptId = some m → m.receiptId = receiptId ∧ m.Proper today ∧ m.Limited σ₀

namespace Shelf

variable {σ₀ σ σ' : Shelf} {today day : Date}

theorem Proper.put (h : Proper σ₀ today σ) {receiptId : UUID} {o : Option ReceiptReadModel}
    (ho : ∀ m ∈ o, m.receiptId = receiptId ∧ m.Proper today ∧ m.Limited σ₀) :
    Proper σ₀ today (Function.update σ receiptId o) := by
  intro id m hm
  by_cases hid : id = receiptId
  · subst hid
    rw [Function.update_self] at hm
    exact ho m hm
  · rw [Function.update_of_ne hid] at hm
    exact h id m hm

/-- A request that is served, not after today, keeps it. -/
theorem Serves.keeps {r : ReceiptRequest} {a : ReceiptResponse} (h : Serves day r σ a σ')
    (hσ : Proper σ₀ today σ) (hday : today.before day = false) : Proper σ₀ today σ' := by
  cases h with
  | @create command receiptId newId now _ receipt hcreate hsendable _ =>
    have hcreated := Receipt.create_eq_ok.1 hcreate
    obtain ⟨hamounts, hperiod⟩ := hcreated.limits
    refine hσ.put fun m hm => ?_
    cases hm
    refine ⟨rfl, (hcreated.proper hsendable (fun hkeeps => ?_) now).mono hday, fun x hx => ?_, ?_⟩
    · -- A creation restores nothing.
      cases hkeeps
    · exact .inl ((hamounts x hx).resolve_left fun hkeeps => by cases hkeeps)
    · exact .inl (hperiod.resolve_left fun hkeeps => by cases hkeeps)
  | @update command newId _ current receipt howned hreceipt hsendable =>
    obtain ⟨hcurrent, hproper, hlimited⟩ := hσ _ _ (Option.filter_eq_some_iff.1 howned).1
    obtain ⟨m, hcreated, -⟩ := receipt_created hreceipt
    refine hσ.put fun m hm => ?_
    cases hm
    exact ⟨hcreated.id.trans hcurrent,
      (proper_of_receipt hreceipt hsendable hproper.stored.periodMonths.2 _).mono hday,
      limited_of_receipt hreceipt hlimited _⟩
  | delete =>
    refine hσ.put fun m hm => ?_
    cases hm
  | get | list => exact hσ

theorem Step.keeps {r : (Date × ReceiptRequest) × Option (Except RequestError ReceiptResponse)}
    (h : Step r σ σ') (hday : today.before r.1.1 = false)
    (hσ : Proper σ₀ today σ) : Proper σ₀ today σ' := by
  rcases h with ⟨rfl, -⟩ | ⟨a, -, hserves⟩
  · exact hσ
  · exact hserves.keeps hσ hday

theorem keeps_of_serial
    {log : List ((Date × ReceiptRequest) × Option (Except RequestError ReceiptResponse))}
    (h : Serial Step σ log σ') (hdays : ∀ r ∈ log, today.before r.1.1 = false)
    (hσ : Proper σ₀ today σ) :
    Proper σ₀ today σ' := by
  induction h with
  | nil => exact hσ
  | snoc _ hstep ih =>
    exact hstep.keeps (hdays _ (List.mem_append_right _ List.mem_cons_self))
      (ih fun r hr => hdays r (List.mem_append_left _ hr))

end Shelf

/-! ## Copies -/

section

variable {m : ReceiptReadModel} {today : Date}

/-- A copy is valid, if it is within the limits of today. -/
theorem copy_valid (hm : m.Proper today) (hwithin : m.Within) (name : String) :
    ¬m.copy.arguments.InvalidAlone today name := by
  have hs := hm.stored
  have htext {value : Option String} {maxLength : ℕ} (h : ∀ s ∈ value, StoredText maxLength s) :
      ∀ s ∈ normalizedText value, s.length ≤ maxLength := by
    rw [normalizedText_stored h]
    exact fun s hs => (h s hs).2.2.1
  intro h
  cases h with
  | itemName h =>
    refine h ?_
    show strip m.itemName ≠ "" ∧ (strip m.itemName).length ≤ 255
    have hstrip : strip m.itemName = m.itemName := hs.itemName.1
    rw [hstrip]
    exact ⟨hs.itemName.2.1, hs.itemName.2.2.1⟩
  | paymentDate h => exact h ⟨_, rfl, hs.paymentDate⟩
  | totalAmount h => exact h fun x hx => ⟨hs.totalAmount x hx, .inr (hwithin.totalAmount x hx)⟩
  | periodMonths h => exact h ⟨hs.periodMonths.1, .inr hwithin.periodMonths⟩
  | brandName h => exact h (htext hs.brandName)
  | serialNumber h => exact h (htext hs.serialNumber)
  | paymentLocation h => exact h (htext hs.paymentLocation)
  | subCategory h => exact h (htext hs.subCategory)
  | memo h => exact h (htext hs.memo)
  | category h =>
    -- The category of a receipt is a `ReceiptCategory`, and no text.
    refine h fun text htext => ?_
    obtain ⟨category, -, hcategory⟩ := Option.map_eq_some_iff.1 htext
    cases hcategory
  | requiresPhysicalReceipt h => exact h (Option.some_ne_none _)
  | receiptFileIds h => exact h ⟨_, rfl, hs.fileIds⟩

/-- A copy has the fields of its receipt. -/
theorem readModel_copy (hm : m.Proper today) {receipt : Receipt} {receiptId : UUID}
    (h : receipt.Created m.copy.arguments today receiptId) (now : Timestamp) :
    receipt.readModel now = { m with receiptId := receiptId, registeredAt := now } := by
  have hs := hm.stored
  have hnormal := h.normalised
  have hname : receipt.itemName.value = m.itemName := hnormal.itemName.trans hs.itemName.1
  have hdate : receipt.paymentDate = m.paymentDate := (Option.some.inj hnormal.paymentDate).symm
  have hamount : receipt.totalAmount.map (·.value) = m.totalAmount := hnormal.totalAmount
  have hperiod : receipt.periodMonths.value = m.periodMonths := hnormal.periodMonths
  have htext {value : Option String} {text : Option String} {maxLength : ℕ}
      (h : text = normalizedText value)
        (hvalue : ∀ s ∈ value, StoredText maxLength s) : text = value :=
        h.trans (normalizedText_stored hvalue)
  have hcategory : receipt.category = m.category := by
    refine hnormal.category.trans ?_
    show normalizedCategory (m.category.map .category) = m.category
    rcases m.category with - | category
    · rfl
    · rfl
  have hphysical : receipt.requiresPhysicalReceipt = m.requiresPhysicalReceipt :=
    (Option.some.inj hnormal.requiresPhysicalReceipt).symm
  have hfiles : receipt.receiptFileIds.value = m.receiptFileIds :=
    (Option.some.inj hnormal.receiptFileIds).symm
  have hexpires : receipt.expiresOn = m.expiresOn := by
    rcases hnormal.expiresOn with h | ⟨h, -⟩
    · exact (Option.some.inj h).symm
    · cases h
  rw [Receipt.readModel, receiptToRecord, recordToReadModel, hfiles, hm.sorted, hname, hdate,
    hamount, hperiod, hcategory, hphysical, hexpires, htext hnormal.brandName hs.brandName,
    htext hnormal.serialNumber hs.serialNumber,
    htext hnormal.paymentLocation hs.paymentLocation, htext hnormal.subCategory hs.subCategory,
    htext hnormal.memo hs.memo, hnormal.id, hnormal.userId]
  rfl

/-- A receipt within the limits of today is what a copy of it creates. -/
theorem create_copy (hm : m.Proper today) (hwithin : m.Within) (receiptId : UUID) :
    ∃ receipt, Receipt.create m.copy.arguments today receiptId = .ok receipt ∧
    receipt.id = receiptId ∧
      ∀ now, receipt.readModel now = { m with receiptId := receiptId, registeredAt := now } := by
  obtain ⟨result, hbuild⟩ := m.copy.arguments.exists_build receiptId (copy_valid hm hwithin)
  -- What is left to be refused is an expiry before the payment.
  obtain ⟨-, p, receipt, hp, -, -, hresult⟩ := ReceiptArguments.build_ok hbuild
  have hexpires : resolveExpiresOn m.copy.arguments.expiresOn p
      (m.copy.arguments.periodMonths.getD defaultWarrantyPeriodMonths) = .ok m.expiresOn := by
    cases hp
    exact if_neg (Bool.eq_false_iff.1 hm.stored.expiresOn)
  rw [hexpires] at hresult
  have hcreate : Receipt.create m.copy.arguments today receiptId = .ok (receipt m.expiresOn) := by
    rw [Receipt.create, hbuild, hresult]
    rfl
  have hcreated := Receipt.create_eq_ok.1 hcreate
  exact ⟨_, hcreate, hcreated.id, readModel_copy hm hcreated⟩

end

/-! ## What is stored -/

/-- The receipts of a store are all what could be stored. -/
def ReceiptsDatabase.AllStored (d : ReceiptsDatabase) (today : Date) : Prop :=
  ∀ r ∈ d.receipts.rows, Stored r (d.fileIds r.id) today

theorem shelf_eq_some {d : ReceiptsDatabase} {receiptId : UUID} {m : ReceiptReadModel} :
    d.shelf receiptId = some m ↔ ∃ r ∈ d.receipts.rows, r.id = receiptId ∧ d.toReadModel r = m := by
  simp only [ReceiptsDatabase.shelf, Option.map_eq_some_iff, Table.find_eq_some, and_assoc]

theorem ReceiptsDatabase.AllStored.proper {d : ReceiptsDatabase} {today : Date}
    (h : d.AllStored today) :
    Shelf.Proper d.shelf today d.shelf := by
  intro receiptId m hm
  obtain ⟨r, hr, rfl, rfl⟩ := shelf_eq_some.1 hm
  exact ⟨rfl, ⟨h r hr, sortedFiles_sortedFiles _⟩, ⟨fun x hx => .inr ⟨_, hm, hx⟩, .inr ⟨_, hm, rfl⟩⟩⟩

theorem Shelf.Proper.allStored {d : ReceiptsDatabase} {σ₀ : Shelf} {today : Date}
    (h : Shelf.Proper σ₀ today d.shelf) :
    d.AllStored today :=
  fun r hr => (h r.id _ (shelf_eq_some.2 ⟨r, hr, rfl, rfl⟩)).2.1.stored

section

variable [CaseFolding] [LinearOrder Collated] [TimeZones] {d d' : ReceiptsDatabase} {today : Date}

/-- An update with valid values that the database takes is served. -/
theorem update_served (hd : d.Consistent) {m : ReceiptReadModel} (hm : m.Proper today)
    {c : UpdateReceiptCommand} (howned : d.shelf.owned c.receiptId c.userId = some m)
    (hvalid : c.Valid today) (hsendable : c.Sendable) {e : Date} (he : c.Expires m.record e)
    {newId : UUID → UUID} (hfresh : (ReceiptRequest.update c newId).FreshIn d) :
    ∃ d', Leaves ((ReceiptRequest.update c newId).prog today) d d'
        (some (.ok (.receipt
          (recordToReadModel (c.patch m.record e) (sortedFiles (c.newFileIds m.receiptFileIds)))))) ∧
      d'.shelf = Function.update d.shelf c.receiptId
        (some (recordToReadModel (c.patch m.record e)
          (sortedFiles (c.newFileIds m.receiptFileIds)))) := by
  obtain ⟨hsound, hcomplete⟩ := UpdateReceiptCommand.receipt_patch (c := c) hm.stored
  obtain ⟨receipt, hreceipt, rfl⟩ := hcomplete hvalid e he
  obtain ⟨-, -, hpatch, hfiles⟩ := hsound receipt hreceipt
  obtain ⟨_, hcreated, -⟩ := receipt_created hreceipt
  have huser : m.userId = c.userId := of_decide_eq_true (Option.filter_eq_some_iff.1 howned).2
  have hrecord : receiptToRecord receipt m.registeredAt = c.patch m.record receipt.expiresOn := by
    rw [← hpatch, receiptToRecord, hcreated.id, hcreated.userId]
    exact congrArg (fun userId =>
      { Receipt.assign receipt m.record with userId := userId }) huser.symm
  have htexts : (receipt.assign m.record).Sendable :=
    hpatch.symm ▸ (UpdateReceiptCommand.sendable_patch hm.stored.sendable _).2 hsendable
  have hserved := shelf_served hd (.update howned hreceipt htexts) (fun _ h => by cases h) hfresh
  rwa [Receipt.readModel, hrecord, hfiles] at hserved

/-- A copy of a receipt within the limits of today is served, and is a receipt of its own. -/
theorem copy_served (hd : d.Consistent) {m : ReceiptReadModel} (hm : m.Proper today)
    (hwithin : m.Within) {receiptId : UUID} (hnone : d.shelf receiptId = none) {newId : UUID → UUID}
    {now : Timestamp} (hfresh : (ReceiptRequest.create m.copy receiptId newId now).FreshIn d) :
    ∃ d', Leaves ((ReceiptRequest.create m.copy receiptId newId now).prog today) d d'
        (some (.ok (.receipt { m with receiptId := receiptId, registeredAt := now }))) ∧
      d'.shelf = Function.update d.shelf receiptId
        (some { m with receiptId := receiptId, registeredAt := now }) := by
  obtain ⟨receipt, hcreate, hid, hmodel⟩ := create_copy hm hwithin receiptId
  have hsendable : receipt.Sendable := by
    have hcopied : (receipt.readModel now).record.Sendable := by
      rw [hmodel now]
      exact hm.stored.sendable
    exact sendable_readModel.1 hcopied
  have hserves : Shelf.Serves today (.create m.copy receiptId newId now) d.shelf _ _ :=
    .create hcreate hsendable (hid ▸ hnone)
  have hserved := shelf_served hd hserves (fun _ h => by cases h) hfresh
  rwa [hmodel, hid] at hserved

/-- Requests leave receipts that could be stored, that are not further over the limits of today than
    they were, that can be updated with all that is valid, and that can be saved again if they are
    within the limits. -/
theorem receipts_stay_valid (hd : d.Attached) (hstored : d.AllStored today)
    {log : List ((Date × ReceiptRequest) × Option (Except RequestError ReceiptResponse))}
    (hlog : Serial (fun r d d' => Leaves (r.1.2.prog r.1.1) d d' r.2) d log d')
    (hdays : ∀ r ∈ log, today.before r.1.1 = false) :
    d'.AllStored today ∧ ∀ receiptId userId m, d'.shelf.owned receiptId userId = some m →
      m.Limited d.shelf ∧
      (∀ (c : UpdateReceiptCommand) newId e, c.receiptId = receiptId → c.userId = userId →
        c.Valid today →
        c.Sendable → c.Expires m.record e → (ReceiptRequest.update c newId).FreshIn d' →
        ∃ d'', Leaves ((ReceiptRequest.update c newId).prog today) d' d''
            (some (.ok (.receipt
              (recordToReadModel (c.patch m.record e)
                (sortedFiles (c.newFileIds m.receiptFileIds)))))) ∧
          d''.shelf = Function.update d'.shelf receiptId
            (some (recordToReadModel (c.patch m.record e)
              (sortedFiles (c.newFileIds m.receiptFileIds))))) ∧
      (m.Within → ∀ newReceiptId newId now, d'.shelf newReceiptId = none →
        (ReceiptRequest.create m.copy newReceiptId newId now).FreshIn d' →
        ∃ d'', Leaves ((ReceiptRequest.create m.copy newReceiptId newId now).prog today) d' d''
            (some (.ok (.receipt { m with receiptId := newReceiptId, registeredAt := now }))) ∧
          d''.shelf = Function.update d'.shelf newReceiptId
            (some { m with receiptId := newReceiptId, registeredAt := now })) := by
  obtain ⟨hshelf, hd'⟩ := serial_shelf ⟨hd, fun r hr => (hstored r hr).sendable⟩ hlog
  have hproper := Shelf.keeps_of_serial hshelf hdays hstored.proper
  refine ⟨hproper.allStored, fun receiptId userId m hm => ?_⟩
  obtain ⟨-, hmodel, hlimited⟩ := hproper _ _ (Option.filter_eq_some_iff.1 hm).1
  refine ⟨hlimited, ?_, fun hwithin _ _ _ hnone hfresh => copy_served hd' hmodel hwithin hnone hfresh⟩
  rintro c newId e rfl rfl hvalid hsendable he hfresh
  exact update_served hd' hmodel hm hvalid hsendable he hfresh

end

/-- The memo of the television is updated, and its amount and period, which are not accepted any
    more, are kept. -/
theorem television_stays_valid : ∃ (d : ReceiptsDatabase) (m : ReceiptReadModel),
    d.AllStored televisionReceipt.expiresOn ∧ d.shelf.owned (.ofNat 1) (.ofNat 2) = some m ∧
      m.memo = some "in the living room" ∧ m.Limited (receiptWithFile televisionReceipt).shelf := by
  let _ := sameCase
  let _ := byCharacters
  let _ := noTimeZones
  have hd : (receiptWithFile televisionReceipt).Attached := by
    intro a ha
    cases List.mem_singleton.1 ha
    decide
  have hstored : (receiptWithFile televisionReceipt).AllStored televisionReceipt.expiresOn := by
    intro r hr
    cases List.mem_singleton.1 hr
    constructor <;> decide
  have hvalid : (updateMemo "in the living room").Valid televisionReceipt.expiresOn := by
    constructor
    case memo => decide
    all_goals exact fun h => absurd h (by decide)
  have hsendable : (updateMemo "in the living room").Sendable := by decide
  have hfresh : (ReceiptRequest.update (updateMemo "in the living room") fun _ => .ofNat 12).FreshIn
      (receiptWithFile televisionReceipt) := by
    intro fileId a ha
    cases List.mem_singleton.1 ha
    show UUID.ofNat 10 ≠ UUID.ofNat 12
    decide
  obtain ⟨-, hproper, -⟩ :=
    hstored.proper (.ofNat 1) _ (shelf_eq_some.2 ⟨_, List.mem_singleton_self _, rfl, rfl⟩)
  obtain ⟨d', hleaves, hshelf⟩ := update_served ⟨hd, fun r hr => (hstored r hr).sendable⟩ hproper
    (by decide) hvalid hsendable (.kept (by decide) rfl rfl) hfresh
  have hlog :=
    Serial.snoc (T :=
      fun (r : (Date × ReceiptRequest) × Option (Except RequestError ReceiptResponse)) d d' =>
    Leaves (r.1.2.prog r.1.1) d d' r.2) (i :=
      ((televisionReceipt.expiresOn, .update _ _), _)) .nil hleaves
  have hday : televisionReceipt.expiresOn.before televisionReceipt.expiresOn = false := by decide
  obtain ⟨hall, hvalid⟩ := receipts_stay_valid hd hstored hlog fun r hr => by
    rw [List.mem_singleton.1 hr, hday]
  obtain ⟨m, howned, hmemo⟩ : ∃ m, d'.shelf.owned (.ofNat 1) (.ofNat 2) = some m ∧
      m.memo = some "in the living room" := by
    rw [hshelf]
    exact ⟨_, rfl, by decide⟩
  exact ⟨d', m, hall, howned, hmemo, (hvalid _ _ _ howned).1⟩

end Boat.Receipts
