import Boat.Credits.UseCases
import Mathlib.Data.List.Sort

/-!
# Promotions: use cases

The repository of the promotions module (`SqlAlchemyPromotionRepository`), and the
three ways to redeem a promotion: by its id, by a code, and on signup. The first
two share `PromotionRedemptionExecutor`. All three grant the credit of the
promotion through the credits module, in the same session: the commit of the
grant is deferred to the redemption, but its rollback is not.
-/

namespace Boat

open ReadCommitted

/-! ## Repository -/

namespace SqlAlchemyPromotionRepository

/-- The conditions of `find_current_ocr_credit_promotion_for_update`. -/
def isCurrent (at' : Instant) (context : PromotionContext) (p : Promotion) : Bool :=
  p.active && p.context = some context && p.startsAt ≤ at' && p.expiresAt.all (at' < ·) &&
    p.maxRedemptions.all (p.timesRedeemed < ·)

/-- The order of the candidates: `starts_at DESC, id DESC`. -/
def comesBefore (p q : Promotion) : Prop :=
  q.startsAt < p.startsAt ∨ q.startsAt = p.startsAt ∧ q.id.val.toNat ≤ p.id.val.toNat

instance : DecidableRel comesBefore := fun _ _ => inferInstanceAs (Decidable (_ ∨ _))

/-- The first of the candidates that still is one when its row is locked. A row that has
    changed in the meantime is checked again, and skipped if it does not match. -/
def lockFirst (at' : Instant) (context : PromotionContext) : List UUID → Tx (Option Promotion)
  | [] => return none
  | id :: ids => do
    let row ← Tx.selectForUpdate (.lockCurrentPromotion id) (fun p => .promotion p.id)
      (·.promotion id)
    match row.filter (isCurrent at' context) with
    | some p => return some p
    | none => lockFirst at' context ids

/-- `find_current_ocr_credit_promotion_for_update`. -/
def findCurrentOcrCreditPromotionForUpdate (at' : Instant) (context : PromotionContext) :
    Tx (Option Promotion) := do
  let candidates ← Tx.select (.findCurrentPromotions context) fun v =>
    (v.promotions.rows.filter (isCurrent at' context)).insertionSort comesBefore
  lockFirst at' context (candidates.map Promotion.id)

/-- The conditions of `find_current_ocr_credit_promotion`, for promotions with or without a
    context. -/
def isCurrentIn (at' : Instant) (context : Option PromotionContext) (p : Promotion) : Bool :=
  p.active && p.startsAt ≤
    at' && p.expiresAt.all (at' < ·) && p.maxRedemptions.all (p.timesRedeemed < ·) &&
    p.context = context

/-- `find_current_ocr_credit_promotion`. -/
def findCurrentOcrCreditPromotion (at' : Instant)
    (context : Option PromotionContext) : Tx (Option Promotion) :=
  Tx.select (.findCurrentPromotion context) fun v =>
    ((v.promotions.rows.filter (isCurrentIn at' context)).insertionSort comesBefore).head?

/-- `find_content_by_promotion_id`. -/
def findContentByPromotionId (promotionId : UUID) : Tx (Option PromotionContent) :=
  Tx.select (.findContent promotionId) fun v =>
    v.promotionContents.find? (·.promotionId = promotionId)

/-- `find_promotion_for_update`. -/
def findPromotionForUpdate (promotionId : UUID) : Tx (Option Promotion) :=
  Tx.selectForUpdate (.findPromotionForUpdate promotionId) (fun p => .promotion p.id)
    (·.promotion promotionId)

/-- `find_code_by_code_for_update`. -/
def findCodeByCodeForUpdate [CaseFolding] (code : String) : Tx (Option PromotionCode) :=
  Tx.selectForUpdate (.findCodeByCodeForUpdate code) (fun c => .promotionCode c.id) fun v =>
    v.promotionCodes.rows.find? fun c => sqlLower c.code = lower code

/-- `find_redemption_by_idempotency_key`. -/
def findRedemptionByIdempotencyKey (key : String) : Tx (Option PromotionRedemption) :=
  Tx.select (.findRedemptionByKey key) fun v =>
    v.promotionRedemptions.find? (·.idempotencyKey = key)

/-- `find_redemption_by_user_and_promotion`: one of them, if there are several. -/
def findRedemptionByUserAndPromotion (userId promotionId : UUID) : Tx (Option PromotionRedemption) :=
  Tx.select (.findRedemptionByUser userId promotionId) fun v =>
    v.promotionRedemptions.find? fun r => r.userId = userId ∧ r.promotionId = promotionId

/-- `find_redemption_by_promotion_and_beneficiary`. -/
def findRedemptionByPromotionAndBeneficiary (promotionId : UUID) (beneficiaryKey : String) :
    Tx (Option PromotionRedemption) :=
  Tx.select (.findRedemptionByBeneficiary promotionId beneficiaryKey) fun v =>
    v.promotionRedemptions.find? fun r =>
      r.promotionId = promotionId ∧ r.beneficiaryKey = some beneficiaryKey

/-- The redemptions a user has been granted of a promotion. -/
def grantedTo (userId promotionId : UUID) (r : PromotionRedemption) : Bool :=
  r.userId = userId ∧ r.promotionId = promotionId ∧ r.status = .granted

/-- `count_user_redemptions`. -/
def countUserRedemptions (userId promotionId : UUID) : Tx ℕ :=
  Tx.select (.countUserRedemptions userId promotionId) fun v =>
    v.promotionRedemptions.countP (grantedTo userId promotionId)

/-- `create_redemption`. -/
def createRedemption (r : PromotionRedemption) : Tx Unit :=
  Tx.exec (.flushRedemption r) (insertCommand r.entries none (Database.insertRedemption r)
    (Database.touches_insertRedemption r))

/-- The columns that `save_promotion` writes. -/
def mergePromotion (seen p current : Promotion) : Promotion where
  id := current.id
  name := changed seen.name p.name current.name
  active := changed seen.active p.active current.active
  startsAt := changed seen.startsAt p.startsAt current.startsAt
  expiresAt := changed seen.expiresAt p.expiresAt current.expiresAt
  maxRedemptions := changed seen.maxRedemptions p.maxRedemptions current.maxRedemptions
  timesRedeemed := changed seen.timesRedeemed p.timesRedeemed current.timesRedeemed
  maxRedemptionsPerUser :=
    changed seen.maxRedemptionsPerUser p.maxRedemptionsPerUser current.maxRedemptionsPerUser
  context := changed seen.context p.context current.context
  benefitAmount := changed seen.benefitAmount p.benefitAmount current.benefitAmount

/-- `save_promotion`. -/
def savePromotion (p : Promotion) : Tx Unit := do
  match ← Tx.select (.findPromotion p.id) (·.promotion p.id) with
  | none => return ()
  | some seen =>
    if p = seen then return ()
    else Tx.exec (.flushPromotion p) (updateCommand (.promotion p.id) (·.promotion p.id)
      (fun current =>
        .ok (Database.updatePromotion { mergePromotion seen p current with id := p.id }))
      fun r w h => by
        cases h
        exact Database.touches_updatePromotion { mergePromotion seen p r with id := p.id })

/-- `save_code`. -/
def saveCode (c : PromotionCode) : Tx Unit := do
  match ← Tx.select (.findCode c.id) (·.promotionCode c.id) with
  | none => return ()
  | some seen =>
    if c.timesRedeemed = seen.timesRedeemed then return ()
    else Tx.exec (.flushPromotionCode c) (updateCommand (.promotionCode c.id) (·.promotionCode c.id)
      (fun current => .ok (Database.updatePromotionCode
        { current with id := c.id, timesRedeemed := c.timesRedeemed }))
      fun r w h => by
        cases h
        exact Database.touches_updatePromotionCode
          { r with id := c.id, timesRedeemed := c.timesRedeemed })

end SqlAlchemyPromotionRepository

open SqlAlchemyPromotionRepository

/-! ## Grants of credit -/

/-- `PromotionCreditGrant`. -/
structure PromotionCreditGrant where
  userId : UUID
  amount : ℤ
  redemptionId : UUID
  idempotencyKey : String

/-- `build_deferred_grant_credit_command_use_case`: commits are deferred, rollbacks are not. -/
def deferredGrantUnitOfWork : UnitOfWork := deferredCommitUnitOfWork (some sessionRollback)

/-- `CreditsPromotionCreditGrantPort.grant_ocr_credit`. -/
def grantOcrCredit (grant : PromotionCreditGrant) (ids : CreditIds) :
    Tx GrantCreditCommandResult := do
  let amount ← Tx.lift (CreditAmount.create grant.amount "amount")
  let command ← Tx.lift (GrantCreditCommand.create grant.userId amount .eventOcrAllowance
    (some .promotionRedemption) (some grant.redemptionId) (some grant.idempotencyKey))
  GrantCreditCommandUseCase.execute deferredGrantUnitOfWork command ids

/-! ## Redemption by id or code -/

/-- `CreatePromotionRedemptionResult`. -/
structure CreatePromotionRedemptionResult where
  redemptionId : UUID
  promotionId : UUID
  promotionCodeId : Option UUID
  status : PromotionRedemptionStatus
  alreadyRedeemed : Bool
  creditGranted : Bool
  benefitAmount : ℤ
  remainingRedemptions : Option ℤ
  creditBalanceAfter : Option ℤ
  creditRemainingAfter : Option ℤ
  bannerImageUrl : Option String
  deriving DecidableEq, Repr

/-- The values of `uuid4` and of the clock that a redemption takes. -/
structure RedemptionIds where
  redemptionId : UUID
  stamp : Stamp
  credit : CreditIds
  deriving DecidableEq, Repr

namespace PromotionRedemptionExecutor

/-- `_remaining_redemptions`. -/
def remainingRedemptions (p : Promotion) : Option ℤ :=
  p.maxRedemptions.map fun m => max (m - p.timesRedeemed) 0

/-- `_result`. -/
def result (redemption : PromotionRedemption) (promotion : Promotion)
    (content : Option PromotionContent) (alreadyRedeemed creditGranted : Bool)
    (creditBalanceAfter creditRemainingAfter : Option ℤ) : CreatePromotionRedemptionResult where
  redemptionId := redemption.id
  promotionId := redemption.promotionId
  promotionCodeId := redemption.promotionCodeId
  status := redemption.status
  alreadyRedeemed := alreadyRedeemed
  creditGranted := creditGranted
  benefitAmount := promotion.benefitAmount.value
  remainingRedemptions := remainingRedemptions promotion
  creditBalanceAfter := creditBalanceAfter
  creditRemainingAfter := creditRemainingAfter
  bannerImageUrl := content.bind (·.bannerImageUrl)

/-- The rest of `replay_if_existing`, for a redemption that exists. -/
def replay (userId : UUID) (existing : PromotionRedemption) :
    Tx CreatePromotionRedemptionResult := do
  let some promotion ← findPromotionForUpdate existing.promotionId
    | throw (.domain .promotionNotFound)
  let balance ← SqlAlchemyCreditRepository.getBalance userId
  let content ← findContentByPromotionId promotion.id
  return result existing promotion content true false (some balance.totalGrantedCount)
    (some balance.remainingCount)

/-- `PromotionRedemptionAttempt`. -/
structure Attempt where
  userId : UUID
  promotion : Promotion
  promotionCode : Option PromotionCode
  idempotencyKey : String

/-- The redemption that `redeem` creates. -/
def Attempt.redemption (a : Attempt) (now : Instant) (ids : RedemptionIds) :
    PromotionRedemption × List (Stamped PromotionEvent) :=
  PromotionRedemption.createGranted ids.redemptionId a.promotion.id
    (a.promotionCode.map (·.id)) a.userId none
    a.idempotencyKey now a.promotion.benefitAmount.value ids.stamp

/-- `redeem`. -/
def redeem (unitOfWork : UnitOfWork) (a : Attempt) (now : Instant) (ids : RedemptionIds) :
    Tx CreatePromotionRedemptionResult := do
  if let some code := a.promotionCode then
    Tx.lift (code.ensureRedeemable now)
  Tx.lift (a.promotion.ensureRedeemable now)
  let userRedemptionCount ← countUserRedemptions a.userId a.promotion.id
  Tx.lift (a.promotion.ensureUserCanRedeem userRedemptionCount)
  let (redemption, events) := a.redemption now ids
  let promotion := a.promotion.recordRedemption
  createRedemption redemption
  savePromotion promotion
  if let some code := a.promotionCode then
    saveCode code.recordRedemption
  publish .promotion events
  let grantResult ← grantOcrCredit ⟨redemption.userId, promotion.benefitAmount.value, redemption.id,
    a.idempotencyKey⟩ ids.credit
  unitOfWork.commit
  let content ← findContentByPromotionId promotion.id
  return result redemption promotion content false true (some grantResult.totalGrantedCount)
    (some grantResult.remainingCount)

/-- `replay_if_existing`, and `redeem` if it does not. -/
def replayOrRedeem (unitOfWork : UnitOfWork) (a : Attempt) (now : Instant) (ids : RedemptionIds) :
    Tx CreatePromotionRedemptionResult := do
  match ← findRedemptionByIdempotencyKey a.idempotencyKey with
  | some existing => replay a.userId existing
  | none => redeem unitOfWork a now ids

end PromotionRedemptionExecutor

/-- `CreatePromotionRedemptionCommand`. -/
structure CreatePromotionRedemptionCommand where
  userId : UUID
  promotionId : UUID
  idempotencyKey : Option String

/-- A key of three parts, or of two without a client key. -/
def derivedKey (flow : String) (id userId : UUID) (clientKey : Option String) : String :=
  flow ++ (":" ++ (id.str ++ (":" ++ (userId.str ++ (clientKey.elim "" (":" ++ ·))))))

/-- Signup promotions cannot be redeemed by their id or a code. -/
def refuseSignup (p : Promotion) : Except DomainError Unit :=
  match p.context with
  | some .signup => .error .promotionNotFound
  | some .recharge | none => .ok ()

namespace CreatePromotionRedemptionCommandUseCase

/-- `_idempotency_key`. -/
def idempotencyKey (command : CreatePromotionRedemptionCommand) : String :=
  derivedKey "promotionRedemption" command.promotionId command.userId command.idempotencyKey

/-- `execute`. -/
def execute (unitOfWork : UnitOfWork) (command : CreatePromotionRedemptionCommand) (now : Instant)
    (ids : RedemptionIds) : Tx CreatePromotionRedemptionResult := do
  let some promotion ← findPromotionForUpdate command.promotionId
    | throw (.domain .promotionNotFound)
  Tx.lift (refuseSignup promotion)
  PromotionRedemptionExecutor.replayOrRedeem unitOfWork
    ⟨command.userId, promotion, none, idempotencyKey command⟩ now ids

end CreatePromotionRedemptionCommandUseCase

/-- `CreatePromotionCodeRedemptionCommand`. -/
structure CreatePromotionCodeRedemptionCommand where
  userId : UUID
  code : String
  idempotencyKey : Option String

namespace CreatePromotionCodeRedemptionCommandUseCase

/-- `_idempotency_key`. -/
def idempotencyKey (command : CreatePromotionCodeRedemptionCommand) (code : PromotionCode) : String :=
  derivedKey "promotionCodeRedemption" code.id command.userId command.idempotencyKey

/-- `execute`. -/
def execute [CaseFolding] (unitOfWork : UnitOfWork) (command : CreatePromotionCodeRedemptionCommand)
    (now : Instant) (ids : RedemptionIds) : Tx CreatePromotionRedemptionResult := do
  let some code ← findCodeByCodeForUpdate command.code
    | throw (.domain .promotionCodeNotFound)
  let some promotion ← findPromotionForUpdate code.promotionId
    | throw (.domain .promotionNotFound)
  Tx.lift (refuseSignup promotion)
  PromotionRedemptionExecutor.replayOrRedeem unitOfWork
    ⟨command.userId, promotion, some code, idempotencyKey command code⟩ now ids

end CreatePromotionCodeRedemptionCommandUseCase

/-! ## Query -/

/-- `GetCurrentOcrCreditPromotionQuery`. -/
structure GetCurrentOcrCreditPromotionQuery where
  userId : UUID
  context : Option PromotionContext

/-- `GetCurrentOcrCreditPromotionResult`. -/
structure GetCurrentOcrCreditPromotionResult where
  promotionId : UUID
  name : String
  benefitAmount : ℤ
  remainingRedemptions : Option ℤ
  startsAt : Instant
  expiresAt : Option Instant
  alreadyRedeemed : Bool
  redemptionStatus : Option PromotionRedemptionStatus
  bannerImageUrl : Option String
  deriving DecidableEq, Repr

namespace GetCurrentOcrCreditPromotionQueryUseCase

/-- `_remaining_redemptions`. -/
def remainingRedemptions (p : Promotion) : Option ℤ :=
  p.maxRedemptions.map fun m => max (m - p.timesRedeemed) 0

/-- `execute`. -/
def execute (query : GetCurrentOcrCreditPromotionQuery) (now : Instant) :
    Tx (Option GetCurrentOcrCreditPromotionResult) := do
  match ← findCurrentOcrCreditPromotion now query.context with
  | none => return none
  | some promotion =>
    Tx.lift (promotion.ensureRedeemable now)
    let userRedemptionCount ← countUserRedemptions query.userId promotion.id
    let alreadyRedeemed := decide ((userRedemptionCount : ℤ) ≥ promotion.maxRedemptionsPerUser)
    let redemption ← if alreadyRedeemed then
      findRedemptionByUserAndPromotion query.userId promotion.id else pure none
    let content ← findContentByPromotionId promotion.id
    return some {
      promotionId := promotion.id
      name := promotion.name
      benefitAmount := promotion.benefitAmount.value
      remainingRedemptions := remainingRedemptions promotion
      startsAt := promotion.startsAt
      expiresAt := promotion.expiresAt
      alreadyRedeemed
      redemptionStatus := redemption.map (·.status)
      bannerImageUrl := content.bind (·.bannerImageUrl) }

end GetCurrentOcrCreditPromotionQueryUseCase

/-! ## Redemption on signup -/

/-- `RedeemSignupPromotionCommand`: the key is neither blank nor too long. -/
structure RedeemSignupPromotionCommand where
  userId : UUID
  beneficiaryKey : String
  not_blank : strip beneficiaryKey ≠ ""
  length_le : beneficiaryKey.length ≤ 80

/-- `RedeemSignupPromotionCommand(...)`. -/
def RedeemSignupPromotionCommand.create (userId : UUID) (beneficiaryKey : String) :
    Except DomainError RedeemSignupPromotionCommand :=
  if h : strip beneficiaryKey = "" ∨ beneficiaryKey.length > 80 then
    .error (.validation [⟨"beneficiary_key", "신규 가입 프로모션 수혜자 키가 올바르지 않습니다."⟩])
  else .ok ⟨userId, beneficiaryKey, fun h' => h (.inl h'), by omega⟩

namespace RedeemSignupPromotionCommandUseCase

/-- `_redemption_idempotency_key`. -/
def redemptionIdempotencyKey (promotionId redemptionId : UUID) : String :=
  "signupPromotionRedemption" ++ (":" ++ (promotionId.str ++ (":" ++ redemptionId.str)))

/-- `_credit_idempotency_key`. -/
def creditIdempotencyKey (promotionId redemptionId : UUID) : String :=
  "signupPromotionCredit" ++ (":" ++ (promotionId.str ++ (":" ++ redemptionId.str)))

/-- The redemption that `execute` creates. -/
def redemption (command : RedeemSignupPromotionCommand) (p : Promotion) (now : Instant)
    (ids : RedemptionIds) : PromotionRedemption × List (Stamped PromotionEvent) :=
  PromotionRedemption.createGranted ids.redemptionId p.id none command.userId
    (some command.beneficiaryKey)
    (redemptionIdempotencyKey p.id ids.redemptionId) now p.benefitAmount.value ids.stamp

/-- `execute`, with the `granted` of its result. -/
def execute (unitOfWork : UnitOfWork) (command : RedeemSignupPromotionCommand) (now : Instant)
    (ids : RedemptionIds) : Tx Bool := do
  let some promotion ← findCurrentOcrCreditPromotionForUpdate now .signup
    | return false
  match ← findRedemptionByPromotionAndBeneficiary promotion.id command.beneficiaryKey with
  | some _ => return false
  | none =>
    Tx.lift (promotion.ensureRedeemable now)
    let (redemption, events) := redemption command promotion now ids
    let promotion := promotion.recordRedemption
    createRedemption redemption
    savePromotion promotion
    publish .promotion events
    let _ ← grantOcrCredit ⟨command.userId, promotion.benefitAmount.value, redemption.id,
      creditIdempotencyKey promotion.id redemption.id⟩ ids.credit
    unitOfWork.commit
    return true

end RedeemSignupPromotionCommandUseCase

end Boat
