import Boat.Promotions.Months
import Boat.Promotions.UseCases
import Boat.ReadCommitted.Commands

/-!
# Promotions: the monthly job

The table of promotions with its unique index `uq_promotions_benefit_context_starts_at`, as a store
of sessions, and the programs that write to it: the job that makes the promotion of a month or sets
it right (`ensureMonthlyRechargePromotion`), and redemptions, as far as they concern this table
(`redeemPromotion`): they lock a promotion, check it, and count themselves in its row, while their
statements on other tables only matter as they may fail, and the grant of credit as it may roll
back.
-/

namespace Boat.Promotions

open ReadCommitted
open SqlAlchemyPromotionRepository (isCurrent comesBefore mergePromotion)

/-! ## The table -/

/-- The table of promotions. -/
structure PromotionsDatabase where
  promotions : Table Promotion.id

/-- An entry of a unique index. -/
inductive PromotionsEntry
  | primaryKey (id : UUID)
  /-- `uq_promotions_benefit_context_starts_at`, for the only benefit feature there is. -/
  | contextStart (context : PromotionContext) (startsAt : Instant)
  deriving DecidableEq, Repr

inductive PromotionsLock
  | row (id : UUID)
  | entry (entry : PromotionsEntry)
  deriving DecidableEq, Repr

/-- The entries of a promotion: one without a context is only in the primary key. -/
def entries (p : Promotion) : List PromotionsEntry :=
  .primaryKey p.id :: (p.context.map (.contextStart · p.startsAt)).toList

theorem contextStart_mem_entries {p : Promotion} {context : PromotionContext} {startsAt : Instant} :
    .contextStart context startsAt ∈ entries p ↔ p.context = some context ∧
    p.startsAt = startsAt := by
  simp [entries]

theorem primaryKey_mem_entries {p : Promotion} {id : UUID} : .primaryKey id ∈ entries p ↔
    p.id = id := by
  simp [entries, eq_comm]

namespace PromotionsDatabase

def empty : PromotionsDatabase := ⟨.empty⟩

/-- Is there a row with this entry? -/
def hasEntry (d : PromotionsDatabase) (e : PromotionsEntry) : Bool :=
  d.promotions.rows.any (e ∈ entries ·)

theorem hasEntry_eq_false {d : PromotionsDatabase} {e : PromotionsEntry} :
    d.hasEntry e = false ↔ ∀ p ∈ d.promotions.rows, e ∉ entries p := by
  simp [hasEntry]

end PromotionsDatabase

/-- What a lock protects: the row, or that there is none. -/
inductive PromotionsLock.Protects : PromotionsLock → (PromotionsDatabase → Prop) → Prop
  | row (p : Promotion) : Protects (.row p.id) fun d => p ∈ d.promotions.rows
  | entry (e : PromotionsEntry) : Protects (.entry e) fun d => d.hasEntry e = false

instance : Locking PromotionsDatabase PromotionsLock := ⟨PromotionsLock.Protects⟩

namespace PromotionsDatabase

def insertPromotion (p : Promotion) (d : PromotionsDatabase) : PromotionsDatabase :=
  ⟨d.promotions.insert p⟩

/-- Set the row of a promotion. -/
def setPromotion (p : Promotion) (d : PromotionsDatabase) : PromotionsDatabase :=
  ⟨d.promotions.update p⟩

/-- Set the row that has been read: it is locked, so that it is still there. -/
def replacePromotion (row p : Promotion) (d : PromotionsDatabase) : PromotionsDatabase :=
  if row ∈ d.promotions.rows then d.setPromotion p else d

/-- The entries that a row gets when it changes. -/
def newEntries (row p : Promotion) : List PromotionsEntry := (entries p).filter (· ∉ entries row)

theorem touches_insertPromotion (p : Promotion) :
    Touches ((entries p).map .entry) (insertPromotion p) := by
  rintro k hk d _ (q | e) h
  · exact Table.mem_insert.2 (.inl h)
  · rw [hasEntry_eq_false] at h ⊢
    refine Table.forall_insert h fun he => hk (List.mem_map_of_mem he)

theorem touches_replacePromotion {row p : Promotion} (hid : p.id = row.id) :
    Touches (.row row.id :: (newEntries row p).map .entry) (replacePromotion row p) := by
  rintro k hk d _ (q | e) h
  · unfold replacePromotion
    split
    · refine Table.mem_update.2 (.inl ⟨h, fun heq => hk ?_⟩)
      rw [heq, hid]
      exact List.mem_cons_self
    · exact h
  · unfold replacePromotion
    split
    · next hrow =>
      rw [hasEntry_eq_false] at h ⊢
      intro q hq he
      rcases Table.mem_update.1 hq with ⟨hq, -⟩ | ⟨rfl, -⟩
      · exact h q hq he
      · -- An entry of the new row that was free before is one that the row gets.
        exact hk (List.mem_cons_of_mem _ (List.mem_map_of_mem
          (List.mem_filter.2 ⟨he, decide_eq_true (h row hrow)⟩)))
    · exact h

end PromotionsDatabase

/-! ## Statements -/

inductive PromotionsStatement
  | findByContextStart (context : PromotionContext) (startsAt : Instant)
  | findForUpdate (id : UUID)
  | findCurrent (context : PromotionContext)
  | get (id : UUID)
  | insertPromotion (p : Promotion)
  | updatePromotion (p : Promotion)
  /-- The statements on other tables. -/
  | otherTables
  deriving DecidableEq, Repr

inductive PromotionsError
  | domain (e : DomainError)
  /-- `IntegrityError`. -/
  | integrity (entry : PromotionsEntry)
  /-- `StaleDataError`. -/
  | stale
  /-- A statement fails. -/
  | fault (s : PromotionsStatement)
  | commitFailed
  | rollbackFailed
  deriving DecidableEq, Repr

abbrev PromotionsTx := Prog PromotionsDatabase PromotionsStatement PromotionsError

namespace PromotionsTx

def exec {α : Type} (s : PromotionsStatement) (c : Command PromotionsDatabase PromotionsError α) :
    PromotionsTx α :=
  Prog.exec s (.fault s) c

/-- Read a promotion, and lock its row (`SELECT ... FOR UPDATE`). -/
def selectForUpdate (s : PromotionsStatement) (f : PromotionsDatabase → Option Promotion) :
    PromotionsTx (Option Promotion) :=
  exec s (.query (fun v => ((f v).map fun p => .row p.id).toList) f)

/-- A query without locks. -/
def select {α : Type} (s : PromotionsStatement) (f : PromotionsDatabase → α) : PromotionsTx α :=
  exec s (.query (fun _ => []) f)

/-- The result of a domain function. -/
def lift {α : Type} : Except DomainError α → PromotionsTx α
  | .ok a => .ret a
  | .error e => .raise (.domain e)

def commit : PromotionsTx Unit := Prog.commitOr .commitFailed

def rollback : PromotionsTx Unit := Prog.rollbackOr .rollbackFailed

end PromotionsTx

/-! ## Repository -/

/-- The `UPDATE` of the columns that differ between `seen`, what was read of a promotion, and `p`.
    It waits for the row, and for the entries that the row gets. -/
def updateCommand (seen p : Promotion) : Command PromotionsDatabase PromotionsError Unit where
  locks v := match v.promotions.find p.id with
    | none => []
    | some row =>
      .row row.id :: (PromotionsDatabase.newEntries row (mergePromotion seen p row)).map .entry
  run v := match v.promotions.find p.id with
    | none => .error .stale
    | some row =>
      match (PromotionsDatabase.newEntries row (mergePromotion seen p row)).find? (v.hasEntry ·) with
      | some e => .error (.integrity e)
      | none => .ok ((), PromotionsDatabase.replacePromotion row (mergePromotion seen p row))
  touches v a w h := by
    split at h
    · cases h
    · next row hrow =>
      split at h
      · cases h
      · cases h
        exact PromotionsDatabase.touches_replacePromotion rfl

/-- `find_promotion_by_benefit_context_start_for_update`. -/
def findPromotionByBenefitContextStartForUpdate (context : PromotionContext) (startsAt : Instant) :
    PromotionsTx (Option Promotion) :=
  PromotionsTx.selectForUpdate (.findByContextStart context startsAt) fun v =>
    v.promotions.rows.find? fun p => p.context = some context ∧ p.startsAt = startsAt

/-- `find_promotion_for_update`. -/
def findPromotionForUpdate (id : UUID) : PromotionsTx (Option Promotion) :=
  PromotionsTx.selectForUpdate (.findForUpdate id) (·.promotions.find id)

/-- The first of the candidates that still is one when its row is locked. -/
def lockFirst (at' : Instant) (context : PromotionContext) : List UUID →
    PromotionsTx (Option Promotion)
  | [] => return none
  | id :: ids => do
    let row ← findPromotionForUpdate id
    match row.filter (isCurrent at' context) with
    | some p => return some p
    | none => lockFirst at' context ids

/-- `find_current_ocr_credit_promotion_for_update`. -/
def findCurrentOcrCreditPromotionForUpdate (at' : Instant) (context : PromotionContext) :
    PromotionsTx (Option Promotion) := do
  let candidates ← PromotionsTx.select (.findCurrent context) fun v =>
    (v.promotions.rows.filter (isCurrent at' context)).insertionSort comesBefore
  lockFirst at' context (candidates.map Promotion.id)

/-- `create_promotion`. -/
def createPromotion (p : Promotion) : PromotionsTx Unit :=
  PromotionsTx.exec (.insertPromotion p)
    (.insert .entry PromotionsDatabase.hasEntry .integrity (entries p)
    (PromotionsDatabase.insertPromotion p) (PromotionsDatabase.touches_insertPromotion p))

/-- `save_promotion`. -/
def savePromotion (p : Promotion) : PromotionsTx Unit := do
  match ← PromotionsTx.select (.get p.id) (·.promotions.find p.id) with
  | none => return ()
  | some seen =>
    if p = seen then return () else PromotionsTx.exec (.updatePromotion p) (updateCommand seen p)

/-! ## The job -/

/-- `EnsureMonthlyRechargePromotionResult`. -/
structure EnsureMonthlyRechargePromotionResult where
  promotionId : UUID
  created : Bool
  startsAt : Instant
  expiresAt : Instant
  deriving DecidableEq, Repr

/-- `_new_monthly_recharge_promotion`. -/
def newMonthlyRechargePromotion (spec : MonthlyRechargePromotionSpec)
    (promotionId : UUID) : Promotion where
  id := promotionId
  name := spec.name
  active := true
  startsAt := spec.startsAt
  expiresAt := some spec.expiresAt
  maxRedemptions := none
  timesRedeemed := 0
  maxRedemptionsPerUser := monthlyRechargeUserLimit
  context := some .recharge
  benefitAmount := spec.benefitAmount

/-- `_apply_monthly_recharge_spec`. -/
def applyMonthlyRechargeSpec (spec : MonthlyRechargePromotionSpec) (p : Promotion) : Promotion :=
  { p with
    name := spec.name
    active := true
    startsAt := spec.startsAt
    expiresAt := some spec.expiresAt
    maxRedemptions := none
    maxRedemptionsPerUser := monthlyRechargeUserLimit
    context := some .recharge
    benefitAmount := spec.benefitAmount }

/-- `_create_or_load_monthly_recharge_promotion`. -/
def createOrLoadMonthlyRechargePromotion (spec : MonthlyRechargePromotionSpec) (promotionId : UUID) :
    PromotionsTx (Promotion × Bool) :=
  let promotion := newMonthlyRechargePromotion spec promotionId
  tryCatch (do
    createPromotion promotion
    return (promotion, true)) fun
    | .integrity e => do
      PromotionsTx.rollback
      match ← findPromotionByBenefitContextStartForUpdate .recharge spec.startsAt with
      | none => throw (.integrity e)
      | some existing =>
        savePromotion (applyMonthlyRechargeSpec spec existing)
        return (applyMonthlyRechargeSpec spec existing, false)
    | e => throw e

/-- The promotion of the month, and whether it has been created. -/
def loadMonthlyRechargePromotion (spec : MonthlyRechargePromotionSpec) (promotionId : UUID) :
    PromotionsTx (Promotion × Bool) := do
  match ← findPromotionByBenefitContextStartForUpdate .recharge spec.startsAt with
  | none => createOrLoadMonthlyRechargePromotion spec promotionId
  | some promotion =>
    savePromotion (applyMonthlyRechargeSpec spec promotion)
    return (applyMonthlyRechargeSpec spec promotion, false)

/-- `ensure_monthly_recharge_promotion`. -/
def ensureMonthlyRechargePromotion (targetMonth : Option Date) (clock : Instant)
    (promotionId : UUID) :
    PromotionsTx EnsureMonthlyRechargePromotionResult := do
  let spec ← PromotionsTx.lift (monthlyRechargePromotionSpec targetMonth clock)
  let (promotion, created) ← loadMonthlyRechargePromotion spec promotionId
  PromotionsTx.commit
  return ⟨promotion.id, created, promotion.startsAt, promotion.expiresAt.getD spec.expiresAt⟩

/-! ## Redemptions -/

/-- How a redemption finds its promotion. -/
inductive RedeemedBy
  /-- By its id, or the one that its code has. -/
  | id (promotionId : UUID)
  /-- The current one for signups. -/
  | signup

/-- The promotion of a redemption. -/
def findRedeemed (by' : RedeemedBy) (now : Instant) : PromotionsTx (Option Promotion) := do
  match by' with
  | .id promotionId =>
    let some promotion ← findPromotionForUpdate promotionId
      | throw (.domain .promotionNotFound)
    PromotionsTx.lift (refuseSignup promotion)
    return some promotion
  | .signup => findCurrentOcrCreditPromotionForUpdate now .signup

/-- A redemption on the table of promotions. It goes on to its commit unless it is refused, or
    repeated, by what it finds in other tables; `lost` if the grant of credit has rolled back what
    it has written. -/
def redeemPromotion (by' : RedeemedBy) (now : Instant) (lost : Bool) : PromotionsTx Unit := do
  match ← findRedeemed by' now with
  | none => return ()
  | some promotion =>
    PromotionsTx.lift (promotion.ensureRedeemable now)
    PromotionsTx.select .otherTables fun _ => ()
    savePromotion promotion.recordRedemption
    if lost then PromotionsTx.rollback
    PromotionsTx.commit

end Boat.Promotions
