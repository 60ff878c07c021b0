import Boat.Core.Domain

/-!
# Promotions: domain

Promotions, promotion codes and their redemptions (`app/modules/promotions/domain`).
The persistence mappers copy the entities field by field, so the entities are also
the rows of the tables. `Redeemable` is the meaning of the two checks a redemption
makes: the window, the activity and the limit of a promotion, or of a code.
-/

namespace Boat

inductive PromotionContext
  | recharge
  | signup
  deriving DecidableEq, Repr

inductive PromotionRedemptionStatus
  | granted
  | rejected
  | failed
  deriving DecidableEq, Repr

/-- `PromotionBenefitAmount`: at least one. -/
@[ext]
structure PromotionBenefitAmount where
  value : ℤ
  one_le : 1 ≤ value
  deriving Repr

instance : DecidableEq PromotionBenefitAmount := fun a b =>
  decidable_of_iff (a.value = b.value) ⟨PromotionBenefitAmount.ext,
    congrArg PromotionBenefitAmount.value⟩

/-- `Promotion`, for the only benefit feature there is (`PromotionBenefitFeatureKey.OCR`). -/
structure Promotion where
  id : UUID
  name : String
  active : Bool
  startsAt : Instant
  expiresAt : Option Instant
  maxRedemptions : Option ℤ
  timesRedeemed : ℤ
  maxRedemptionsPerUser : ℤ
  context : Option PromotionContext
  benefitAmount : PromotionBenefitAmount
  deriving DecidableEq, Repr

/-- `PromotionContent`. -/
structure PromotionContent where
  promotionId : UUID
  bannerImageUrl : Option String
  deriving DecidableEq, Repr

/-- `PromotionCode`. -/
structure PromotionCode where
  id : UUID
  promotionId : UUID
  code : String
  active : Bool
  startsAt : Option Instant
  expiresAt : Option Instant
  maxRedemptions : Option ℤ
  timesRedeemed : ℤ
  deriving DecidableEq, Repr

namespace Promotion

/-- `Promotion.ensure_redeemable`. -/
def ensureRedeemable (p : Promotion) (at' : Instant) : Except DomainError Unit := do
  if !p.active then
    throw (.promotionRedemptionConflict "비활성 프로모션입니다.")
  if p.startsAt > at' then
    throw (.promotionRedemptionConflict "아직 시작되지 않은 프로모션입니다.")
  if p.expiresAt.any (· ≤ at') then
    throw (.promotionRedemptionConflict "만료된 프로모션입니다.")
  if p.maxRedemptions.any (· ≤ p.timesRedeemed) then
    throw (.promotionRedemptionConflict "프로모션 사용 한도가 소진되었습니다.")

/-- `Promotion.ensure_user_can_redeem`. -/
def ensureUserCanRedeem (p : Promotion) (userRedemptionCount : ℤ) : Except DomainError Unit :=
  if userRedemptionCount ≥ p.maxRedemptionsPerUser then
    .error (.promotionRedemptionConflict "이미 사용한 프로모션입니다.")
  else .ok ()

/-- `Promotion.record_redemption`. -/
def recordRedemption (p : Promotion) : Promotion := { p with timesRedeemed := p.timesRedeemed + 1 }

/-- What `ensureRedeemable` checks. -/
def Redeemable (p : Promotion) (at' : Instant) : Prop :=
  p.active ∧ p.startsAt ≤ at' ∧ (∀ e, p.expiresAt = some e → at' < e) ∧
    ∀ m, p.maxRedemptions = some m → p.timesRedeemed < m

end Promotion

namespace PromotionCode

/-- `PromotionCode.ensure_redeemable`. -/
def ensureRedeemable (c : PromotionCode) (at' : Instant) : Except DomainError Unit := do
  if !c.active then
    throw (.promotionRedemptionConflict "비활성 프로모션 코드입니다.")
  if c.startsAt.any (· > at') then
    throw (.promotionRedemptionConflict "아직 사용할 수 없는 프로모션 코드입니다.")
  if c.expiresAt.any (· ≤ at') then
    throw (.promotionRedemptionConflict "만료된 프로모션 코드입니다.")
  if c.maxRedemptions.any (· ≤ c.timesRedeemed) then
    throw (.promotionRedemptionConflict "프로모션 코드 사용 한도가 소진되었습니다.")

/-- `PromotionCode.record_redemption`. -/
def recordRedemption (c : PromotionCode) : PromotionCode :=
  { c with timesRedeemed := c.timesRedeemed + 1 }

/-- What `ensureRedeemable` checks. -/
def Redeemable (c : PromotionCode) (at' : Instant) : Prop :=
  c.active ∧ (∀ s, c.startsAt = some s → s ≤ at') ∧ (∀ e, c.expiresAt = some e → at' < e) ∧
    ∀ m, c.maxRedemptions = some m → c.timesRedeemed < m

end PromotionCode

/-- A promotion passes the check exactly when it is redeemable. -/
theorem Promotion.ensureRedeemable_ok {p : Promotion} {at' : Instant} :
    p.ensureRedeemable at' = .ok () ↔ p.Redeemable at' := by
  cases he : p.expiresAt <;> cases hm : p.maxRedemptions <;> cases ha : p.active <;>
    simp [ensureRedeemable, Redeemable, he, hm, ha, bind, Except.bind, pure, Except.pure, throw,
      throwThe, MonadExceptOf.throw] <;> grind

/-- A code passes the check exactly when it is redeemable. -/
theorem PromotionCode.ensureRedeemable_ok {c : PromotionCode} {at' : Instant} :
    c.ensureRedeemable at' = .ok () ↔ c.Redeemable at' := by
  cases hs : c.startsAt <;> cases he : c.expiresAt <;> cases hm : c.maxRedemptions <;>
    cases ha : c.active <;>
    simp [ensureRedeemable, Redeemable, hs, he, hm, ha, bind, Except.bind, pure, Except.pure, throw,
      throwThe, MonadExceptOf.throw] <;> grind

theorem Promotion.ensureUserCanRedeem_ok {p : Promotion} {n : ℤ} :
    p.ensureUserCanRedeem n = .ok () ↔ n < p.maxRedemptionsPerUser := by
  unfold ensureUserCanRedeem
  split <;> simp <;> omega

/-- The events of the promotions module. -/
inductive PromotionEvent
  | promotionRedemptionGranted (redemptionId promotionId userId : UUID)
      (promotionCodeId : Option UUID) (benefitAmount : ℤ) (idempotencyKey : String)
  deriving DecidableEq, Repr

/-- `PromotionRedemption`. -/
structure PromotionRedemption where
  id : UUID
  promotionId : UUID
  promotionCodeId : Option UUID
  userId : UUID
  beneficiaryKey : Option String
  status : PromotionRedemptionStatus
  idempotencyKey : String
  failureReason : Option String
  redeemedAt : Option Instant
  deriving DecidableEq, Repr

/-- `PromotionRedemption.create_granted`, with the event it records. -/
def PromotionRedemption.createGranted (redemptionId promotionId : UUID)
    (promotionCodeId : Option UUID) (userId : UUID) (beneficiaryKey : Option String)
    (idempotencyKey : String) (redeemedAt : Instant) (benefitAmount : ℤ) (stamp : Stamp) :
    PromotionRedemption × List (Stamped PromotionEvent) :=
  (⟨redemptionId, promotionId, promotionCodeId, userId, beneficiaryKey, .granted, idempotencyKey,
      none, some redeemedAt⟩,
    [⟨stamp, .promotionRedemptionGranted redemptionId promotionId userId promotionCodeId
      benefitAmount idempotencyKey⟩])

end Boat
