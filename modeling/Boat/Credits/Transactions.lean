import Boat.Core.Table
import Boat.Core.TimeCursor
import Boat.Credits.Domain

/-!
# Credits: transactions

The list of the credit transactions of a user (`ListCreditTransactionsQueryUseCase`), in the order
of their times. Following its cursors visits every transaction once (`enumerates_transactions`).
-/

namespace Boat

/-! ## Rows -/

/-- `orm.CreditTransaction`, with the columns that only a list reads. -/
structure CreditTransactionRecord extends CreditTransaction where
  featureKey : String
  createdAt : Timestamp

/-- `FeatureKey.OCR.value`. -/
def ocrFeatureKey : String := "ocr"

/-- The table of transactions. -/
abbrev CreditTransactions := Table fun r : CreditTransactionRecord => r.id

/-- `CreditTransactionListItem`. -/
structure CreditTransactionListItem where
  transactionId : UUID
  userId : UUID
  reason : CreditReason
  action : CreditAction
  amount : CreditAmount
  createdAt : DateTime
  deriving DecidableEq, Repr

/-- `transaction_to_list_item`. -/
def CreditTransactionRecord.toListItem (r : CreditTransactionRecord) : CreditTransactionListItem :=
  ⟨r.id, r.userId, r.reason, r.action, r.amount, r.createdAt.toDateTime⟩

/-! ## Repository -/

/-- `CreditTransactionListResult`. -/
structure CreditTransactionListResult where
  transactions : List CreditTransactionListItem
  hasNext : Bool
  totalCount : ℕ

/-- The transactions of a user for the OCR. -/
def ocrTransactions (userId : UUID) (d : CreditTransactions) : List CreditTransactionRecord :=
  d.rows.filter fun r => r.userId = userId ∧ r.featureKey = ocrFeatureKey

variable [TimeZones]

/-- `list_transactions`. -/
def listTransactions (userId : UUID) (cursor : Option TimeCursor) (limit : ℕ)
    (d : CreditTransactions) :
    CreditTransactionListResult :=
  let found := (ocrTransactions userId d).filter fun r =>
    cursor.all (isAfter (·.createdAt) (·.id) · r)
  let records := (found.insertionSort (comesFirst (·.createdAt) (·.id))).take (limit + 1)
  ⟨(records.take limit).map (·.toListItem), limit < records.length, (ocrTransactions userId d).length⟩

/-! ## Query -/

/-- `ListCreditTransactionsQuery`. -/
structure ListCreditTransactionsQuery where
  userId : UUID
  cursor : Option String
  limit : ℕ

/-- `CreditTransactionListPage`. -/
structure CreditTransactionListPage where
  transactions : List CreditTransactionListItem
  nextCursor : Option String
  hasNext : Bool
  limit : ℕ
  totalCount : ℕ

namespace ListCreditTransactionsQueryUseCase

/-- `InvalidCreditTransactionCursorError`. -/
def invalidCursor : DomainError := .validation [⟨"cursor", "유효하지 않은 커서입니다."⟩]

/-- `_parse_cursor`. -/
def parseCursor (cursor : Option String) : Except DomainError (Option TimeCursor) :=
  parseTimeCursor invalidCursor cursor

/-- `_next_cursor`. -/
def nextCursor (transactions : List CreditTransactionListItem) : Except DomainError (Option String) :=
  lastTimeCursor (transactions.getLast?.map fun last => (last.createdAt, last.transactionId))

/-- `execute`. -/
def execute (query : ListCreditTransactionsQuery) (d : CreditTransactions) :
    Except DomainError CreditTransactionListPage := do
  let cursor ← parseCursor query.cursor
  let result := listTransactions query.userId cursor query.limit d
  let next ← (if result.hasNext = true then nextCursor result.transactions else .ok none : Except _ _)
  return ⟨result.transactions, next, result.hasNext, query.limit, result.totalCount⟩

end ListCreditTransactionsQueryUseCase

open ListCreditTransactionsQueryUseCase

/-! ## Following the cursors -/

/-- The cursor of a transaction. -/
abbrev transactionCursor (r : CreditTransactionRecord) : String := rowCursor r.createdAt r.id

/-- The condition of a cursor. -/
def afterTransaction : String → CreditTransactionRecord → Bool :=
  ofText invalidCursor (isAfter (·.createdAt) (·.id))

/-- The transactions of a page. -/
def transactionPage (userId : UUID) (limit : ℕ) (d : CreditTransactions) (cursor : Option String) :
    Paging.Page CreditTransactionRecord String :=
  Paging.page (comesFirst (·.createdAt) (·.id)) afterTransaction transactionCursor limit
    (ocrTransactions userId d) cursor

/-- After a cursor of a transaction, the list is a page. -/
theorem execute_eq {userId : UUID} {limit : ℕ} {d : CreditTransactions} {cursor : Option String}
    (hcursor : ∀ c ∈ cursor, ∃ t u, rowCursor t u = c) :
    execute ⟨userId, cursor, limit⟩ d =
      .ok ⟨(transactionPage userId limit d cursor).rows.map (·.toListItem),
      (transactionPage userId limit d cursor).next,
        (transactionPage userId limit d cursor).hasNext, limit,
      (ocrTransactions userId d).length⟩ := by
  obtain ⟨parsed, hparsed, hall⟩ := parseTimeCursor_ofText invalidCursor
    (isAfter CreditTransactionRecord.createdAt (·.id)) hcursor
  obtain ⟨found, hfound⟩ : ∃ found,
      (((ocrTransactions userId d).filter fun r => cursor.all (afterTransaction · r)).insertionSort
        (comesFirst (·.createdAt) (·.id))).take (limit + 1) = found := ⟨_, rfl⟩
  have hlist : listTransactions userId parsed limit d =
      ⟨(found.take limit).map (·.toListItem), limit < found.length,
        (ocrTransactions userId d).length⟩ := by
    simp only [listTransactions, hall]
    rw [← hfound]
    rfl
  have hpage : transactionPage userId limit d cursor = Paging.cut transactionCursor limit found := by
    rw [transactionPage, Paging.page, hfound]
  have hnext : (if (Paging.cut transactionCursor limit found).hasNext = true then
      nextCursor ((found.take limit).map (·.toListItem)) else .ok none) =
        .ok (Paging.cut transactionCursor limit found).next := by
    rw [nextCursor, List.getLast?_map, Option.map_map]
    exact lastTimeCursor_getLast CreditTransactionRecord.createdAt (·.id) limit found
  rw [hpage]
  refine except_bind_eq_ok.2 ⟨parsed, hparsed, ?_⟩
  simp only [hlist]
  exact except_bind_eq_ok.2 ⟨_, hnext, rfl⟩

/-- Following the cursors visits every transaction of a user for the OCR once, in the order of their
    times. -/
theorem enumerates_transactions (userId : UUID) {limit : ℕ} (hlimit : 1 ≤ limit)
    (d : CreditTransactions) :
    Paging.Enumerates (comesFirst CreditTransactionRecord.createdAt (·.id))
      (fun cursor => execute ⟨userId, cursor, limit⟩ d) (·.nextCursor)
      (·.transactions) (·.hasNext) (·.totalCount) (·.toListItem) limit
      ((ocrTransactions userId d).insertionSort (comesFirst (·.createdAt) (·.id))) := by
  have hid : ((ocrTransactions userId d).map (·.id)).Nodup :=
    (List.filter_sublist.map _).nodup d.nodup
  have horders : Paging.Orders (comesFirst (·.createdAt) (·.id)) afterTransaction transactionCursor
      (ocrTransactions userId d) :=
    orders_comesFirst invalidCursor CreditTransactionRecord.createdAt hid
  refine horders.enumerates hid.of_map hlimit fun cursor hcursor => ?_
  refine ⟨_, execute_eq fun c hc => ?_, rfl, rfl, rfl, rfl⟩
  obtain ⟨a, -, ha⟩ := hcursor c hc
  exact ⟨_, _, ha⟩

end Boat
