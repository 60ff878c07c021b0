import Boat.Core.Domain
import Mathlib.Algebra.Order.Group.Int
import Mathlib.Data.Fintype.Basic

/-!
# Credits: domain

The credit balance of a user, and what granting and using credit does to it
(`app/modules/credits/domain`). A balance always adds up
(`CreditBalance.consistent`): the checks its constructor makes are the fields of
the structure, so that `UserCredit.grant` and a covered `UserCredit.use` cannot
fail (`grant_eq`, `use_eq`).
-/

namespace Boat

inductive CreditReason
  | monthlyOcrAllowance
  | eventOcrAllowance
  | ocrUsage
  deriving DecidableEq, Repr

inductive CreditAction
  | grant
  | use
  deriving DecidableEq, Repr

inductive CreditSourceType
  | promotionRedemption
  | monthlyAllowance
  | ocrAnalysis
  deriving DecidableEq, Repr

/-- Where a credit transaction comes from: the source type and the source id,
    which come together or not at all. -/
structure CreditSource where
  sourceType : CreditSourceType
  sourceId : UUID
  deriving DecidableEq, Repr

/-- `CreditAmount`: at least one. -/
structure CreditAmount where
  value : ℤ
  one_le : 1 ≤ value
  deriving DecidableEq, Repr

/-- One is an amount. -/
theorem CreditAmount.one_le_one : (1 : ℤ) ≤ 1 := le_rfl

/-- `CreditAmount(value=..., field_name=...)`. -/
def CreditAmount.create (value : ℤ) (fieldName : String) : Except DomainError CreditAmount :=
  if h : value < 1 then .error (.validation [⟨fieldName, "크레딧 수량은 1 이상이어야 합니다."⟩])
  else .ok ⟨value, by omega⟩

/-- `CreditBalance`: counts that are not negative and add up. -/
@[ext]
structure CreditBalance where
  totalGrantedCount : ℤ
  usedCount : ℤ
  remainingCount : ℤ
  used_nonneg : 0 ≤ usedCount
  remaining_nonneg : 0 ≤ remainingCount
  consistent : totalGrantedCount = usedCount + remainingCount
  deriving DecidableEq, Repr

namespace CreditBalance

/-- `CreditCount`: raises for a negative count, naming the field. -/
def checkCount (value : ℤ) (fieldName : String) : Except DomainError (PLift (0 ≤ value)) :=
  if h : value < 0 then .error (.validation [⟨fieldName, "크레딧 횟수는 0 이상이어야 합니다."⟩])
  else .ok ⟨by omega⟩

/-- `CreditBalance(total_granted_count=..., used_count=..., remaining_count=...)`. -/
def create (total used remaining : ℤ) : Except DomainError CreditBalance := do
  let _ ← checkCount total "total_granted_count"
  let hu ← checkCount used "used_count"
  let hr ← checkCount remaining "remaining_count"
  if h : total = used + remaining then
    return ⟨total, used, remaining, hu.down, hr.down, h⟩
  else
    throw (.validation [⟨"total_granted_count",
      "전체 지급 횟수는 사용 횟수와 남은 횟수의 합과 같아야 합니다."⟩])

/-- Counts that add up make a balance. -/
theorem create_eq {total used remaining : ℤ} (hu : 0 ≤ used) (hr : 0 ≤ remaining)
    (h : total = used + remaining) :
    create total used remaining = .ok ⟨total, used, remaining, hu, hr, h⟩ := by
  simp [create, checkCount, not_lt.2 hu, not_lt.2 hr, h, not_lt.2 (add_nonneg hu hr), bind,
    Except.bind, pure, Except.pure]

/-- The balance of a user without a snapshot. -/
def zero : CreditBalance := ⟨0, 0, 0, le_rfl, le_rfl, rfl⟩

/-- The balance after a grant. -/
def granted (b : CreditBalance) (a : CreditAmount) : CreditBalance where
  totalGrantedCount := b.totalGrantedCount + a.value
  usedCount := b.usedCount
  remainingCount := b.remainingCount + a.value
  used_nonneg := b.used_nonneg
  remaining_nonneg := by have := b.remaining_nonneg; have := a.one_le; omega
  consistent := by have := b.consistent; omega

/-- The balance after a use it covers. -/
def spent (b : CreditBalance) (a : CreditAmount) (h : a.value ≤ b.remainingCount) :
    CreditBalance where
  totalGrantedCount := b.totalGrantedCount
  usedCount := b.usedCount + a.value
  remainingCount := b.remainingCount - a.value
  used_nonneg := by have := b.used_nonneg; have := a.one_le; omega
  remaining_nonneg := by omega
  consistent := by have := b.consistent; omega

/-- `can_cover`. -/
def canCover (b : CreditBalance) (a : CreditAmount) : Bool := a.value ≤ b.remainingCount

end CreditBalance

/-- The events of the credits module. -/
inductive CreditEvent
  | creditGranted (userId : UUID) (amount : ℤ) (reason : CreditReason)
      (source : Option CreditSource) (idempotencyKey : Option String)
  | creditUsed (userId : UUID) (amount : ℤ) (reason : CreditReason)
  | userCreditsDeleted (userId : UUID)
  deriving DecidableEq, Repr

/-- `UserCredit`, for the only feature there is (`FeatureKey.OCR`). -/
structure UserCredit where
  id : UUID
  balance : CreditBalance
  domainEvents : List (Stamped CreditEvent) := []

namespace UserCredit

/-- `can_use`. -/
def canUse (u : UserCredit) (amount : CreditAmount) : Bool := u.balance.canCover amount

/-- `use`. -/
def use (u : UserCredit) (amount : CreditAmount) : Except DomainError UserCredit :=
  if !u.canUse amount then .error .insufficientCredit
  else do
    let balance ← CreditBalance.create u.balance.totalGrantedCount
      (u.balance.usedCount + amount.value) (u.balance.remainingCount - amount.value)
    return { u with balance }

/-- `grant`, stamping the event it records. -/
def grant (u : UserCredit) (amount : CreditAmount) (reason : CreditReason)
    (source : Option CreditSource) (idempotencyKey : Option String) (stamp : Stamp) :
    Except DomainError UserCredit := do
  let balance ← CreditBalance.create (u.balance.totalGrantedCount + amount.value)
    u.balance.usedCount (u.balance.remainingCount + amount.value)
  return { u with
    balance
    domainEvents := u.domainEvents ++
      [⟨stamp, .creditGranted u.id amount.value reason source idempotencyKey⟩] }

/-- A use is refused exactly when the balance does not cover it. -/
theorem use_eq (u : UserCredit) (amount : CreditAmount) :
    u.use amount = if h : amount.value ≤ u.balance.remainingCount then
      .ok { u with balance := u.balance.spent amount h } else .error .insufficientCredit := by
  by_cases h : amount.value ≤ u.balance.remainingCount
  · have hc := CreditBalance.create_eq (u.balance.spent amount h).used_nonneg
      (u.balance.spent amount h).remaining_nonneg (u.balance.spent amount h).consistent
    simp only [CreditBalance.spent] at hc
    simp [use, canUse, CreditBalance.canCover, h, hc, CreditBalance.spent, bind, Except.bind, pure,
      Except.pure]
  · simp [use, canUse, CreditBalance.canCover, h]

/-- A grant never fails. -/
theorem grant_eq (u : UserCredit) (amount : CreditAmount) (reason : CreditReason)
    (source : Option CreditSource) (key : Option String) (stamp : Stamp) :
    u.grant amount reason source key stamp = .ok { u with
      balance := u.balance.granted amount
      domainEvents := u.domainEvents ++
        [⟨stamp, .creditGranted u.id amount.value reason source key⟩] } := by
  have hc := CreditBalance.create_eq (u.balance.granted amount).used_nonneg
    (u.balance.granted amount).remaining_nonneg (u.balance.granted amount).consistent
  simp only [CreditBalance.granted] at hc
  simp [grant, hc, CreditBalance.granted, bind, Except.bind, pure, Except.pure]

end UserCredit

/-! ## Rows

The counts of a row of `user_credits` are a balance: the check constraints of the
table are the checks of `CreditBalance`. -/

/-- A row of `credit_transactions`. -/
structure CreditTransaction where
  id : UUID
  userId : UUID
  reason : CreditReason
  action : CreditAction
  amount : CreditAmount
  source : Option CreditSource
  idempotencyKey : Option String
  deriving DecidableEq, Repr

namespace CreditTransaction

/-- The check constraint `ck_credit_transactions_reason_action_pair`. -/
def reasonActionPair (t : CreditTransaction) : Bool :=
  match t.reason, t.action with
  | .monthlyOcrAllowance, .grant | .eventOcrAllowance, .grant | .ocrUsage, .use => true
  | _, _ => false

/-- The counts of a balance after a transaction. -/
def Books (t : CreditTransaction) (b b' : CreditBalance) : Prop :=
  match t.action with
  | .grant => b'.totalGrantedCount = b.totalGrantedCount + t.amount.value ∧
      b'.usedCount = b.usedCount
  | .use => b'.totalGrantedCount = b.totalGrantedCount ∧
      b'.usedCount = b.usedCount + t.amount.value

end CreditTransaction

end Boat
