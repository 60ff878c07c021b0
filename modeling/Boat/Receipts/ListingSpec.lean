import Boat.Receipts.Listing
import Mathlib.Data.String.Basic

/-!
# Receipts: what a listing enumerates

Following the cursors of a listing visits the receipts that match its filters, each once and in
order, where the status of a filter is the one of the warranty. In the last month of the calendar,
there is no listing of the receipts that are active or expire soon.

* `search_literal`: what a keyword leaves of a listing.
* `listing_enumerates`: what is visited, and what every page says.
* `listing_overflows`: a listing that raises.
-/

namespace Boat.Receipts

open Paging

section

variable [CaseFolding]

/-- The keyword is in the value, up to the case of its characters. -/
def Contains (keyword value : String) : Prop :=
  ∃ t t' t'', value.toList = t ++ t' ++ t'' ∧
    t'.map CaseFolding.lower = keyword.toList.map CaseFolding.lower

/-- A receipt matches a query on a day. -/
structure Matches (query : ListReceiptsQuery) (today : Date) (r : ReceiptRecord) : Prop where
  user : r.userId = query.userId
  status : query.status = .all ∨ warrantyStatus r.expiresOn today = query.status
  category : ∀ category, query.category = some category → r.category = some category
  keyword : ∀ q, query.q = some q →
    ∃ value, some value ∈ [some r.itemName, r.brandName, r.paymentLocation, r.memo] ∧
    Contains q value

/-- There is a day 30 days later, if the status asks for it. -/
def HasLimit (query : ListReceiptsQuery) (today : Date) : Prop :=
  query.status = .active ∨ query.status = .expiring → today.toordinal + 30 ≤ maxOrdinal

/-! ## Conditions -/

theorem ilike_containsPattern (keyword value : String) :
    ilike value (Text.containsPattern keyword.toList) = true ↔ Contains keyword value := by
  have hsame : ∀ t u : List Char,
      List.Forall₂ (fun c d => decide (CaseFolding.lower c = CaseFolding.lower d) = true) t u ↔
        t.map CaseFolding.lower = u.map CaseFolding.lower := by
    intro t u
    rw [← List.forall₂_eq_eq_eq, List.forall₂_map_left_iff, List.forall₂_map_right_iff]
    simp only [decide_eq_true_eq]
  rw [ilike, Text.like_contains]
  simp only [hsame]
  rfl

omit [CaseFolding] in
/-- The condition of a status selects the receipts of that status. -/
theorem statusCondition_eq {status : ReceiptStatusFilter} {today : Date}
    (h : status = .active ∨ status = .expiring → today.toordinal + 30 ≤ maxOrdinal) :
    ∃ condition, statusCondition status today = .ok condition ∧
      ∀ r, condition r = true ↔ status = .all ∨ warrantyStatus r.expiresOn today = status := by
  have hpos := today.one_le_toordinal
  have hlimit : status = .active ∨ status = .expiring →
      plusDays today 30 = .ok (today.toordinal + 30) :=
    fun hs => if_pos ⟨by omega, h hs⟩
  have hstatus : ∀ r : ReceiptRecord, warrantyStatus r.expiresOn today =
      if r.expiresOn.toordinal < today.toordinal then .expired
      else if r.expiresOn.toordinal ≤ today.toordinal + 30 then .expiring else .active := by
    intro r
    rw [warrantyStatus, warrantyDDay]
    split_ifs <;> first | rfl | omega
  rcases status with - | - | - | -
  · exact ⟨_, rfl, fun r => by simp⟩
  · refine ⟨_, by rw [statusCondition, hlimit (.inl rfl)]; rfl, fun r => ?_⟩
    rw [hstatus]
    split_ifs <;> simp <;> omega
  · refine ⟨_, by rw [statusCondition, hlimit (.inr rfl)]; rfl, fun r => ?_⟩
    rw [hstatus]
    split_ifs <;> simp <;> omega
  · refine ⟨_, rfl, fun r => ?_⟩
    rw [hstatus]
    split_ifs <;> simp <;> omega

/-- The conditions select the receipts that match. -/
theorem listConditions_eq {query : ListReceiptsQuery} {today : Date} (h : HasLimit query today) :
    ∃ conditions, listConditions query today = .ok conditions ∧ ∀ r, conditions r = true ↔
    Matches query today r := by
  obtain ⟨condition, hcondition, hstatus⟩ := statusCondition_eq h
  refine ⟨_, by rw [listConditions, hcondition]; rfl, fun r => ?_⟩
  simp only [Bool.and_eq_true, decide_eq_true_eq, hstatus, Option.all_eq_true, List.any_eq_true,
    Option.any_eq_true, ilike_containsPattern]
  constructor
  · rintro ⟨⟨⟨huser, hstatus⟩, hcategory⟩, hq⟩
    refine ⟨huser, hstatus, hcategory, fun q hq' => ?_⟩
    obtain ⟨_, hmem, value, rfl, hcontains⟩ := hq q hq'
    exact ⟨value, hmem, hcontains⟩
  · rintro ⟨huser, hstatus, hcategory, hq⟩
    refine ⟨⟨⟨huser, hstatus⟩, hcategory⟩, fun q hq' => ?_⟩
    obtain ⟨value, hmem, hcontains⟩ := hq q hq'
    exact ⟨_, hmem, value, rfl, hcontains⟩

/-- The query selects the receipt. -/
def Selects (query : ListReceiptsQuery) (today : Date) (r : ReceiptRecord) : Prop :=
  ∃ conditions, listConditions query today = .ok conditions ∧ conditions r = true

/-- A keyword is searched literally: its pattern matches the values that contain it, whatever
    characters it has, and of the receipts that a query selects without a keyword, those are left
    that contain it in one of four columns, if these are not null. -/
theorem search_literal :
    (∀ keyword value : String, ilike value (Text.containsPattern keyword.toList) = true ↔
      Contains keyword value) ∧
    ∀ (query : ListReceiptsQuery) (keyword : String) (today : Date) (r : ReceiptRecord),
      Selects { query with q := some keyword } today r ↔ Selects { query with q := none } today r ∧
        (Contains keyword r.itemName ∨
          (∃ brandName, r.brandName = some brandName ∧ Contains keyword brandName) ∨
          (∃ location, r.paymentLocation = some location ∧ Contains keyword location) ∨
          ∃ memo, r.memo = some memo ∧ Contains keyword memo) := by
  refine ⟨ilike_containsPattern, fun query keyword today r => ?_⟩
  simp only [Selects, listConditions]
  rcases statusCondition query.status today with error | status
  · simp [bind, Except.bind]
  · simp only [bind, Except.bind, pure, Except.pure, Except.ok.injEq, exists_eq_left',
      Option.all_some, Option.all_none, Bool.and_true, Bool.and_eq_true, List.any_cons,
      List.any_nil, Bool.or_false, Bool.or_eq_true, Option.any_some,
      Option.any_eq_true, ilike_containsPattern]

end

/-! ## Orders -/

section

variable [TimeZones] [LinearOrder Collated]

/-- The receipts after the cursor of another one. -/
def afterCursor (sort : ReceiptSort) (cursor : String) (r : ReceiptRecord) : Bool :=
  match decodeCursor (some cursor) sort with
  | .ok (some cursor) => cursorCondition sort cursor r
  | _ => false

theorem afterCursor_encodeCursor (sort : ReceiptSort) (a b : ReceiptRecord) :
    afterCursor sort (encodeCursor sort a) b = cursorCondition sort ⟨cursorValue sort a, a.id⟩ b := by
  rw [afterCursor, decodeCursor_encodeCursor]

omit [TimeZones] [LinearOrder Collated] in
theorem keyset_iff {p q r : Prop} [Decidable p] [Decidable q] [Decidable r] :
    (decide p || decide q && decide r) = true ↔ p ∨ q ∧ r := by
  simp

/-- The order of a sort goes with its cursors. -/
theorem orders_listOrderBy (sort : ReceiptSort) {rows : List ReceiptRecord}
    (hrows : (rows.map (·.id)).Nodup) :
    Orders (listOrderBy sort) (afterCursor sort) (encodeCursor sort) rows := by
  have hid : ∀ a ∈ rows, ∀ b ∈ rows, a.id.val.toNat = b.id.val.toNat → a = b := by
    intro a ha b hb h
    refine List.inj_on_of_nodup_map hrows ha hb ?_
    have hval := BitVec.eq_of_toNat_eq h
    show a.id = b.id
    rw [show a.id = ⟨a.id.val⟩ from rfl, hval]
  cases sort with
  | recent =>
    have hinstant (r : ReceiptRecord) : DateTime.instant (cursorValue .recent r) =
        r.createdAt.micros :=
      r.createdAt.instant_toDateTime
    refine orders_lex (k := fun r => OrderDual.toDual r.createdAt.micros)
      (i := fun r => OrderDual.toDual r.id.val.toNat)
      hid (fun a b => ?_) fun a b => ?_
    · simp [listOrderBy]
    · rw [afterCursor_encodeCursor, cursorCondition, hinstant]
      exact keyset_iff
  | expiresOn =>
    refine orders_lex (k := fun r => r.expiresOn.toordinal) (i := fun r => r.id.val.toNat) hid
      (fun a b => .rfl) fun a b => ?_
    rw [afterCursor_encodeCursor]
    exact keyset_iff
  | purchaseDate =>
    refine orders_lex (k := fun r => OrderDual.toDual r.paymentDate.toordinal)
      (i := fun r => OrderDual.toDual r.id.val.toNat) hid (fun a b => ?_) fun a b => ?_
    · simp [listOrderBy]
    · rw [afterCursor_encodeCursor]
      exact keyset_iff
  | title =>
    refine orders_lex (k := fun r => Collated.mk r.itemName) (i := fun r => r.id.val.toNat) hid
      (fun a b => ?_) fun a b => ?_
    · simp [listOrderBy]
    · simp only [afterCursor_encodeCursor, Collated.mk.injEq]
      exact keyset_iff

end

/-! ## Pages -/

section

variable [CaseFolding] [TimeZones] [LinearOrder Collated]

omit [CaseFolding] [TimeZones] [LinearOrder Collated] in
theorem toReadModel_inj {d : ReceiptsDatabase} {a b : ReceiptRecord}
    (h : d.toReadModel a = d.toReadModel b) : a.id = b.id :=
  congrArg ReceiptReadModel.receiptId h

/-- A page of a listing is a page of the receipts that match. -/
theorem listByUser_eq {query : ListReceiptsQuery} {today : Date} {d : ReceiptsDatabase}
    {conditions : ReceiptRecord → Bool} (hconditions : listConditions query today = .ok conditions)
    (hkeyword : ∀ q ∈ query.q, sendable q = true) (cursor : Option String)
    (hcursor : ∀ c ∈ cursor, ∃ r, encodeCursor query.sort r = c) :
    let p := page (listOrderBy query.sort) (afterCursor query.sort)
      (encodeCursor query.sort) query.limit
      (d.receipts.rows.filter conditions) cursor
    listByUser { query with cursor } today d =
      .ok ⟨p.rows.map d.toReadModel, (d.receipts.rows.filter conditions).length,
      p.next, p.hasNext, query.limit⟩ := by
  have hconditions' : listConditions { query with cursor } today = .ok conditions := hconditions
  obtain ⟨c, hdecode, hafter⟩ : ∃ c, decodeCursor cursor query.sort = .ok c ∧
      ∀ r, c.all (cursorCondition query.sort · r) = cursor.all (afterCursor query.sort · r) := by
    rcases cursor with - | cursor
    · exact ⟨none, rfl, fun _ => rfl⟩
    · obtain ⟨r, rfl⟩ := hcursor cursor rfl
      refine ⟨_, decodeCursor_encodeCursor query.sort r, fun b => ?_⟩
      rw [Option.all_some, Option.all_some, afterCursor_encodeCursor]
  have hfound :
      (d.receipts.rows.filter fun r => conditions r && c.all (cursorCondition query.sort · r)) =
        (d.receipts.rows.filter conditions).filter fun r =>
          cursor.all (afterCursor query.sort · r) := by
    rw [List.filter_filter]
    refine congrArg (List.filter · _) (funext fun r => ?_)
    rw [hafter, Bool.and_comm]
  have hsend : sendKeyword { query with cursor } = .ok () :=
    if_pos ((Option.all_eq_true _ _).2 hkeyword)
  rw [listByUser, hconditions']
  show (decodeCursor cursor query.sort >>= _) = _
  rw [hdecode]
  show (sendKeyword { query with cursor } >>= _) = _
  rw [hsend]
  show Except.ok _ = Except.ok _
  simp only [hfound, page, cut, decide_eq_true_eq]

/-- Every page says how many receipts match, and whether there are more of them after it. -/
structure PageOf (sort : ReceiptSort) (d : ReceiptsDatabase) (rs : List ReceiptRecord)
    (p : ReceiptListPage) : Prop where
  totalCount : p.totalCount = rs.length
  hasNext : p.hasNext = true ↔ ∃ r ∈ rs, ∀ q ∈ rs, d.toReadModel q ∈ p.receipts →
    listOrderBy sort q r ∧ q ≠ r

omit [CaseFolding] [TimeZones] [LinearOrder Collated] in
theorem if_hasNext_page {le : ReceiptRecord → ReceiptRecord → Prop} [DecidableRel le]
    {after : String → ReceiptRecord → Bool} {key : ReceiptRecord → String} {limit : ℕ}
    {rows : List ReceiptRecord} {cursor : Option String} :
    (if (page le after key limit rows cursor).hasNext then
      (page le after key limit rows cursor).next else none) =
      (page le after key limit rows cursor).next := by
  simp only [page, cut, decide_eq_true_eq]
  split
  · rfl
  · rfl

omit [CaseFolding] [TimeZones] in
/-- A page says what its own receipts say: no two receipts share an id. -/
theorem PageOf.of_rows {sort : ReceiptSort} {d : ReceiptsDatabase} {rs l : List ReceiptRecord}
    {p : ReceiptListPage} (hid : (rs.map (·.id)).Nodup) (hl : ∀ q ∈ l, q ∈ rs)
    (hreceipts : p.receipts = l.map d.toReadModel) (htotal : p.totalCount = rs.length)
    (hnext : p.hasNext = true ↔ ∃ r ∈ rs, ∀ q ∈ l, listOrderBy sort q r ∧ q ≠ r) :
    PageOf sort d rs p := by
  refine ⟨htotal, hnext.trans (exists_congr fun r => and_congr_right fun _ => ?_)⟩
  rw [hreceipts]
  constructor
  · intro h q hq hq'
    obtain ⟨q', hq'', heq⟩ := List.mem_map.1 hq'
    rw [← List.inj_on_of_nodup_map hid (hl q' hq'') hq (toReadModel_inj heq)]
    exact h q' hq''
  · exact fun h q hq => h q (hl q hq) (List.mem_map_of_mem hq)

/-- Following the cursors of a listing visits all receipts that match, each once and in order. -/
theorem listing_enumerates (query : ListReceiptsQuery) (today : Date) (d : ReceiptsDatabase)
    (hlimit : HasLimit query today) (hkeyword : ∀ q ∈ query.q, sendable q = true) :
    ∃ pages rs, follow (fun cursor => some ((listByUser { query with cursor } today d).map fun p =>
        ([p], if p.hasNext then p.nextCursor else none))) (d.receipts.rows.length + 1) none =
          some (.ok pages) ∧
      (∀ r, r ∈ rs ↔ r ∈ d.receipts.rows ∧ Matches query today r) ∧ rs.Nodup ∧
      rs.Pairwise (listOrderBy query.sort) ∧
      pages.flatMap (·.receipts) = rs.map d.toReadModel ∧ ∀ p ∈ pages, PageOf query.sort d rs p := by
  obtain ⟨conditions, hconditions, hmatches⟩ := listConditions_eq hlimit
  have hid : ((d.receipts.rows.filter conditions).map (·.id)).Nodup :=
    (List.filter_sublist.map _).nodup d.receipts.nodup
  have horders := orders_listOrderBy query.sort hid
  have hperm := List.perm_insertionSort (listOrderBy query.sort) (d.receipts.rows.filter conditions)
  obtain ⟨pages, hpages, hreceipts, hpage⟩ := follow_list horders hid.of_map query.one_le_limit
    (fun cursor => listByUser { query with cursor } today d)
      (fun p => if p.hasNext then p.nextCursor else none)
    (·.receipts) d.toReadModel
    (fun p l more => (∀ q ∈ l, q ∈ d.receipts.rows.filter conditions) ∧
      p.totalCount = (d.receipts.rows.filter conditions).length ∧ (p.hasNext = true ↔ more))
    (fun cursor hcursor => by
      refine ⟨_, listByUser_eq hconditions hkeyword cursor fun c hc => ?_, if_hasNext_page, rfl,
        fun q hq => subperm_page.subset hq, rfl, .rfl⟩
      obtain ⟨⟨r, -, hr⟩, -⟩ := hcursor c hc
      exact ⟨r, hr⟩)
    (Nat.lt_succ_of_le (List.length_filter_le _ _))
  refine ⟨pages, _, hpages, fun r => ?_, hperm.nodup_iff.2 hid.of_map, horders.pairwise, hreceipts,
    fun p hp => ?_⟩
  · rw [hperm.mem_iff, List.mem_filter, hmatches]
  · obtain ⟨l, hl, hsub, htotal, hnext⟩ := hpage p hp
    refine .of_rows ((hperm.map _).nodup_iff.2 hid) (fun q hq => hperm.mem_iff.2 (hsub q hq)) hl
      (htotal.trans hperm.length_eq.symm) (hnext.trans ?_)
    exact exists_congr fun r => and_congr_left' hperm.mem_iff.symm

/-- Without a day 30 days later, nothing is listed. -/
theorem listByUser_overflow {query : ListReceiptsQuery} {today : Date} (d : ReceiptsDatabase)
    (h : ¬HasLimit query today) :
    listByUser query today d = .error (.other "OverflowError") := by
  obtain ⟨hstatus, hlt⟩ := not_forall.1 h
  have hlimit : plusDays today 30 = .error (.other "OverflowError") := if_neg fun hle => hlt hle.2
  have hconditions : listConditions query today = .error (.other "OverflowError") := by
    rcases hstatus with hstatus | hstatus
    · rw [listConditions, hstatus, statusCondition, hlimit]
      rfl
    · rw [listConditions, hstatus, statusCondition, hlimit]
      rfl
  rw [listByUser, hconditions]
  rfl

end

/-! ## The last days of the calendar -/

/-- Characters are compared as they are. -/
@[reducible] def sameCase : CaseFolding := ⟨id⟩

@[reducible] def noTimeZones : TimeZones := ⟨fun _ _ _ _ => ⟨0, UtcOffset.zero_lt⟩⟩

/-- Texts are compared by their characters. -/
@[reducible] def byCharacters : LinearOrder Collated :=
  LinearOrder.lift' Collated.text fun _ _ h => congrArg Collated.mk h

/-- A receipt of user 1 that expires on the last day. -/
def lastReceipt : ReceiptRecord where
  id := .ofNat 2
  userId := .ofNat 1
  itemName := "television"
  brandName := none
  serialNumber := none
  paymentLocation := none
  paymentDate := ⟨9998, 12, 31, by decide⟩
  totalAmount := none
  periodMonths := 12
  expiresOn := ⟨9999, 12, 31, by decide⟩
  category := none
  subCategory := none
  memo := none
  requiresPhysicalReceipt := false
  createdAt := ⟨⟨9998, 12, 31, by decide⟩, ⟨9, 0, 0, 0, by decide⟩⟩

def lastReceipts : ReceiptsDatabase := ⟨Table.empty.insert lastReceipt, []⟩

/-- The receipts of user 1 that expire within a month. -/
def expiringReceipts : ListReceiptsQuery where
  userId := .ofNat 1
  status := .expiring

theorem lastReceipt_matches : letI :=
  sameCase; Matches expiringReceipts ⟨9999, 12, 2, by decide⟩ lastReceipt := by
  let _ := sameCase
  exact ⟨rfl, .inr (by decide), nofun, nofun⟩

/-- A receipt like the last one, but for its identity. -/
def tiedReceipt : ReceiptRecord := { lastReceipt with id := .ofNat 3 }

def tiedReceipts : ReceiptsDatabase := ⟨(Table.empty.insert tiedReceipt).insert lastReceipt, []⟩

/-- The televisions that expire within a month, one on a page. -/
def expiringTelevisions : ListReceiptsQuery where
  userId := .ofNat 1
  status := .expiring
  sort := .expiresOn
  limit := 1
  q := some "vision"

/-- Of two receipts that expire on the same day, the one with the less identity is on the first
    page, and the cursor goes on after it. -/
theorem listing_enumerates_tied : letI := sameCase; letI := noTimeZones; letI := byCharacters
    ∃ (p : ReceiptListPage) (pages : List ReceiptListPage), follow (fun cursor => some ((listByUser
        { expiringTelevisions with cursor } ⟨9999, 12, 1, by decide⟩ tiedReceipts).map fun p =>
          ([p], if p.hasNext then p.nextCursor else none))) 3 none = some (.ok (p :: pages)) ∧
      p.receipts = [tiedReceipts.toReadModel lastReceipt] ∧ p.hasNext = true ∧
      pages.flatMap (·.receipts) = [tiedReceipts.toReadModel tiedReceipt] ∧
      ∀ q ∈ p :: pages, q.totalCount = 2 := by
  let _ := sameCase
  let _ := noTimeZones
  let _ := byCharacters
  obtain ⟨pages, rs, hpages, hmem, hnodup, hsorted, hreceipts,
    hpage⟩ := listing_enumerates expiringTelevisions
    ⟨9999, 12, 1, by decide⟩ tiedReceipts (fun _ => by decide) (by decide)
  have hmatches : ∀ r ∈ tiedReceipts.receipts.rows,
      Matches expiringTelevisions ⟨9999, 12, 1, by decide⟩ r := by
    intro r hr
    have hkeyword : Contains "vision" "television" :=
      ⟨"tele".toList, "vision".toList, [], by decide, rfl⟩
    have hname : r.userId = .ofNat 1 ∧ r.itemName = "television" ∧
        r.expiresOn = lastReceipt.expiresOn := by
      revert r
      decide
    refine ⟨hname.1, .inr ?_, nofun, fun q hq => ?_⟩
    · rw [hname.2.2]
      decide
    · cases hq
      exact ⟨_, List.mem_cons_self, hname.2.1 ▸ hkeyword⟩
  -- The receipts are the two rows, in their order.
  have hrows : tiedReceipts.receipts.rows.Perm [lastReceipt, tiedReceipt] := by decide
  have hids : (tiedReceipts.receipts.rows.map (·.id)).Nodup := tiedReceipts.receipts.nodup
  have hperm : rs.Perm tiedReceipts.receipts.rows :=
    (List.perm_ext_iff_of_nodup hnodup hids.of_map).2 fun r => by
      rw [hmem, and_iff_left_of_imp (hmatches r)]
  obtain rfl : rs = [lastReceipt, tiedReceipt] :=
    (hperm.trans hrows).eq_of_pairwise (fun a b ha hb =>
      (orders_listOrderBy .expiresOn hids).antisymm a
      (hperm.mem_iff.1 ha) b (hrows.mem_iff.2 hb)) hsorted (by decide)
  -- The first page has the first of them, and more to come.
  have hfirst :
    ((listByUser { expiringTelevisions with cursor := none }
      ⟨9999, 12, 1, by decide⟩ tiedReceipts).toOption.map
      fun p => (p.receipts, p.hasNext)) = some ([tiedReceipts.toReadModel lastReceipt], true) := by
        decide +kernel
  obtain ⟨out, next, rest, hstep, rfl⟩ := follow_eq_ok hpages
  rcases hlist : listByUser { expiringTelevisions with cursor := none }
    ⟨9999, 12, 1, by decide⟩ tiedReceipts with e | p
  · rw [hlist] at hfirst
    cases hfirst
  · rw [hlist] at hstep hfirst
    cases hstep
    obtain ⟨hone, hnext⟩ := Prod.mk.inj (Option.some.inj hfirst)
    refine ⟨p, rest, hpages, hone, hnext, ?_, fun q hq => (hpage q hq).totalCount⟩
    have hall : p.receipts ++ rest.flatMap (·.receipts) =
        [lastReceipt, tiedReceipt].map tiedReceipts.toReadModel := hreceipts
    rw [hone] at hall
    exact List.cons.inj hall |>.2

/-- On one of the last days, a listing of a receipt that expires raises. -/
theorem listing_overflows : letI := sameCase; letI := noTimeZones; letI := byCharacters
    Matches expiringReceipts ⟨9999, 12, 2, by decide⟩ lastReceipt ∧
      lastReceipt ∈ lastReceipts.receipts.rows ∧
      ∀ fuel, 0 < fuel →
        follow (fun cursor =>
          some ((listByUser { expiringReceipts with cursor } ⟨9999, 12, 2, by decide⟩
        lastReceipts).map fun p => ([p], if p.hasNext then p.nextCursor else none))) fuel none =
          some (.error (.other "OverflowError")) := by
  let _ := sameCase
  let _ := noTimeZones
  let _ := byCharacters
  refine ⟨lastReceipt_matches, List.mem_singleton_self _, fun fuel hfuel => follow_error ?_ hfuel⟩
  have hoverflow : listByUser expiringReceipts ⟨9999, 12, 2, by decide⟩ lastReceipts =
      .error (.other "OverflowError") :=
    listByUser_overflow lastReceipts fun h => absurd (h (.inr rfl)) (by decide)
  show some (Except.map _ (listByUser expiringReceipts _ _)) = _
  rw [hoverflow]
  rfl

end Boat.Receipts
