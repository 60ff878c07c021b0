import Boat.App.SignupSpec
import Boat.Auth.Identity
import Boat.Promotions.Alone
import Boat.ReadCommitted.Ends

/-!
# Refusals

What the use cases of the modules raise, apart from what the database raises: the exceptions satisfy
whatever the refusals that are named here do. What a use case checks again after it has been checked
before (consents, emails, keys of beneficiaries, promotions that are current) it does not refuse,
and the write conflicts of a grant are taken for a replay.
-/

namespace Boat.App

open ReadCommitted Auth Users Notifications SqlAlchemyPromotionRepository

/-! ## Billing -/

section Billing

variable {α : Type} {R : α → Prop} {X : Error → Prop} (hfault : ∀ s, X (.fault s))
  (hintegrity : ∀ c, X (.integrity c))
  (hstale : X .staleData)

include hfault

theorem ends_select {s : Statement} {f : Database → α}
    (hf : ∀ v, R (f v)) : (Tx.select s f).Ends R X :=
  .query hf (hfault s)

theorem raises_sessionRollback : sessionRollback.Raises X := .rollbackOr trivial (hfault _)

omit hfault in
/-- What the domain makes of values, or refuses. -/
theorem ends_txLift {x : Except DomainError α} (hok : ∀ a, x = .ok a → R a)
    (herror : ∀ e, x = .error e → X (.domain e)) :
    (Tx.lift x).Ends R X := by
  rcases x with e | a
  · exact herror e rfl
  · exact hok a rfl

include hintegrity in
theorem raises_insert {s : Statement} {entries : List IndexEntry} {check : Option Constraint}
    {w : Database → Database} {hw : Touches (entries.map .entry) w} :
    (Tx.exec s (insertCommand entries check w hw)).Raises X := by
  refine .exec (fun _ _ _ _ => trivial) (fun v e h => ?_) (hfault s)
  simp only [insertCommand] at h
  split at h
  · cases h
    exact hintegrity _
  · cases h
    exact hintegrity _
  · cases h

include hstale in
theorem raises_update {ρ : Type} {s : Statement} {key : RowKey} {f : Database → Option ρ}
    {set : ρ → Except Error (Database → Database)}
    {hset : ∀ r w, set r = .ok w → Touches [.row key] w} (hX : ∀ r e, set r = .error e → X e) :
    (Tx.exec s (updateCommand key f set hset)).Raises X := by
  refine .exec (fun _ _ _ _ => trivial) (fun v e h => ?_) (hfault s)
  simp only [updateCommand] at h
  split at h
  · cases h
    exact hstale
  · next r hr =>
    rcases he : set r with e' | w
    · rw [he] at h
      cases h
      exact hX r _ he
    · rw [he] at h
      cases h

theorem raises_publish {ε : Type} {inj : ε → Event}
    {events : List (Stamped ε)} : (publish inj events).Raises X :=
  .exec (fun _ _ _ _ => trivial) (fun _ _ h => nomatch h) (hfault _)

include hstale in
theorem raises_savePromotion {p : Promotion} : (savePromotion p).Raises X := by
  refine .bind (ends_select hfault fun _ => trivial) fun seen => ?_
  rcases seen with - | seen
  · trivial
  · dsimp only
    split
    · trivial
    · exact raises_update hfault hstale fun _ _ h => by cases h

include hstale in
theorem raises_saveCode {c : PromotionCode} : (saveCode c).Raises X := by
  refine .bind (ends_select hfault fun _ => trivial) fun seen => ?_
  rcases seen with - | seen
  · trivial
  · dsimp only
    split
    · trivial
    · exact raises_update hfault hstale fun _ _ h => by cases h

theorem raises_replay {command : GrantCreditCommand} :
    (GrantCreditCommandUseCase.replay command).Raises X :=
  .bind (ends_select hfault fun _ => trivial) fun _ => trivial

include hintegrity hstale

/-- Violations of the constraints of idempotency are raised as conflicts. -/
theorem raises_flushPendingWrites {t : CreditTransaction} {pending : PendingUserCredit}
    (hconflict : X (.domain .creditTransactionWriteConflict)) :
    (SqlAlchemyCreditRepository.flushPendingWrites t pending).Raises X := by
  have hflush : (SqlAlchemyCreditRepository.flush t pending).Raises X := by
    refine .bind (raises_insert hfault hintegrity) fun _ => ?_
    rcases pending with row | ⟨seen, row⟩
    · exact raises_insert hfault hintegrity
    · rw [SqlAlchemyCreditRepository.flushUserCredit]
      split
      · trivial
      · refine raises_update hfault hstale fun r e h => ?_
        rw [SqlAlchemyCreditRepository.mergeCounts] at h
        split at h
        · cases h
        · cases h
          exact hintegrity _
  refine .handle hflush fun e he => ?_
  split
  · split
    · exact hconflict
    · exact he
  · exact he

/-- A grant with a key does not refuse anything. -/
theorem raises_grant {command : GrantCreditCommand} {ids : CreditIds}
    (hkey : command.idempotencyKey.isSome) :
    (GrantCreditCommandUseCase.execute deferredGrantUnitOfWork command ids).Raises X := by
  have hduplicate : (GrantCreditCommandUseCase.isDuplicateGrant command).Raises X := by
    obtain ⟨key, hkey⟩ := Option.isSome_iff_exists.1 hkey
    rw [GrantCreditCommandUseCase.isDuplicateGrant]
    simp only [hkey]
    refine .bind (ends_select hfault fun _ => trivial) fun keyExists => ?_
    split
    · trivial
    · split
      · trivial
      · exact ends_select hfault fun _ => trivial
  refine .bind hduplicate fun duplicate => ?_
  split
  · exact raises_replay hfault
  have hsave : ∀ userCredit : UserCredit, (SqlAlchemyCreditRepository.save userCredit).Raises X :=
    fun _ => .bind (ends_select hfault fun _ => trivial) fun _ => trivial
  have hfind : (SqlAlchemyCreditRepository.getUserCreditForUpdate command.userId).Raises X :=
    .bind (.query (fun _ => trivial) (hfault _)) fun _ => trivial
  refine .bind hfind fun userCredit => ?_
  rw [UserCredit.grant_eq, Tx.lift, Prog.bind_eq, Prog.ret_bind]
  refine .bind (hsave _) fun pending => .bind (raises_publish hfault) fun _ => ?_
  -- a conflict is raised within, and taken for a replay
  refine .handle (Y := fun e => X e ∨ e = .domain .creditTransactionWriteConflict) ?_ fun e he => ?_
  · exact .bind (raises_flushPendingWrites (fun s => .inl (hfault s)) (fun c => .inl (hintegrity c))
      (.inl hstale) (.inr rfl)) fun _ => trivial
  · split
    · rw [GrantCreditCommandUseCase.hasIdempotentIdentity, hkey]
      exact .bind (raises_sessionRollback hfault) fun _ => raises_replay hfault
    · next hne => exact he.resolve_right hne

/-- The credit of a promotion is granted without a refusal. -/
theorem raises_grantOcrCredit {grant : PromotionCreditGrant} {ids : CreditIds}
    (hamount : 1 ≤ grant.amount) :
    (grantOcrCredit grant ids).Raises X := by
  rw [grantOcrCredit, CreditAmount.create, dif_neg (not_lt.2 hamount)]
  simp only [GrantCreditCommand.create, Tx.lift, Prog.bind_eq, Prog.ret_bind]
  exact raises_grant hfault hintegrity hstale rfl

/-! ### Redemptions -/

omit hfault hintegrity hstale in
/-- A promotion that is redeemable is not refused. -/
theorem raises_ensureRedeemable {p : Promotion} {now : Instant} (h : p.Redeemable now) :
    (Tx.lift (p.ensureRedeemable now)).Raises X := by
  rw [Promotion.ensureRedeemable_ok.2 h]
  trivial

variable {now : Instant} {ids : RedemptionIds}

/-- A redemption refuses as the promotion and the code do. -/
theorem raises_redeem {a : PromotionRedemptionExecutor.Attempt}
    (hconflict : ∀ message, X (.domain (.promotionRedemptionConflict message))) :
    (PromotionRedemptionExecutor.redeem sqlAlchemyUnitOfWork a now ids).Raises X := by
  have hpromotion : (Tx.lift (a.promotion.ensureRedeemable now)).Raises X := by
    rcases a.promotion.ensureRedeemable_cases now with h | ⟨message, h⟩
    · rw [h]
      trivial
    · rw [h]
      exact hconflict message
  have huser : ∀ count : ℕ, (Tx.lift (a.promotion.ensureUserCanRedeem count)).Raises X := by
    intro count
    rw [Promotion.ensureUserCanRedeem]
    split
    · exact hconflict _
    · trivial
  have hsettle : (a.settle now ids).Raises X := by
    refine .bind (raises_insert hfault hintegrity) fun _ => ?_
    refine .bind (raises_savePromotion hfault hstale) fun _ => .bind ?_ fun _ => ?_
    · split
      · exact raises_saveCode hfault hstale
      · trivial
    refine .bind (raises_publish hfault) fun _ => ?_
    refine .bind (raises_grantOcrCredit hfault hintegrity hstale a.promotion.benefitAmount.one_le)
      fun _ => ?_
    exact .bind (.commitOr trivial (hfault _)) fun _ =>
      .bind (ends_select hfault fun _ => trivial) fun _ => trivial
  -- What comes after the check of the code, if there is one.
  have hchecked : ((Tx.lift (a.promotion.ensureRedeemable now)).bind fun _ =>
      (countUserRedemptions a.userId a.promotion.id).bind fun count =>
        (Tx.lift (a.promotion.ensureUserCanRedeem count)).bind fun _ => a.settle now ids).Raises X :=
    .bind hpromotion fun _ => .bind (ends_select hfault fun _ => trivial) fun count =>
      .bind (huser count) fun _ => hsettle
  simp only [PromotionRedemptionExecutor.Attempt.settle,
    PromotionRedemptionExecutor.Attempt.writes] at hchecked
  rw [PromotionRedemptionExecutor.redeem]
  rcases hc : a.promotionCode with - | code
  · rw [hc] at hchecked
    exact hchecked
  · rw [hc] at hchecked
    refine .bind ?_ fun _ => hchecked
    rcases code.ensureRedeemable_cases now with h | ⟨message, h⟩
    · rw [h]
      trivial
    · rw [h]
      exact hconflict message

/-- A redemption that exists is returned, if there still is its promotion. -/
theorem raises_replayOrRedeem {a : PromotionRedemptionExecutor.Attempt}
    (hconflict : ∀ message, X (.domain (.promotionRedemptionConflict message)))
    (hnotFound : X (.domain .promotionNotFound)) :
    (PromotionRedemptionExecutor.replayOrRedeem sqlAlchemyUnitOfWork a now ids).Raises X := by
  refine .bind (ends_select hfault fun _ => trivial) fun existing => ?_
  split
  · refine .bind (.query (fun _ => trivial) (hfault _)) fun promotion => ?_
    split
    · exact .bind (ends_select hfault fun _ => trivial) fun _ =>
        .bind (ends_select hfault fun _ => trivial) fun _ => trivial
    · exact hnotFound
  · exact raises_redeem hfault hintegrity hstale hconflict

theorem raises_createPromotionRedemption {command : CreatePromotionRedemptionCommand}
    (hconflict : ∀ message, X (.domain (.promotionRedemptionConflict message)))
    (hnotFound : X (.domain .promotionNotFound)) :
    (CreatePromotionRedemptionCommandUseCase.execute sqlAlchemyUnitOfWork command now
      ids).Raises X := by
  refine .bind (.query (fun _ => trivial) (hfault _)) fun promotion => ?_
  split
  · next p =>
    refine .bind (ends_txLift (fun _ _ => trivial) fun e h => ?_) fun _ =>
      raises_replayOrRedeem hfault hintegrity hstale hconflict hnotFound
    rw [refuseSignup] at h
    split at h
    · cases h
      exact hnotFound
    · cases h
    · cases h
  · exact hnotFound

theorem raises_createPromotionCodeRedemption [CaseFolding]
    {command : CreatePromotionCodeRedemptionCommand}
    (hconflict : ∀ message, X (.domain (.promotionRedemptionConflict message)))
    (hnotFound : X (.domain .promotionNotFound)) (hcode : X (.domain .promotionCodeNotFound)) :
    (CreatePromotionCodeRedemptionCommandUseCase.execute sqlAlchemyUnitOfWork command now
      ids).Raises X := by
  refine .bind (.query (fun _ => trivial) (hfault _)) fun code => ?_
  split
  · refine .bind (.query (fun _ => trivial) (hfault _)) fun promotion => ?_
    split
    · refine .bind (ends_txLift (fun _ _ => trivial) fun e h => ?_) fun _ =>
        raises_replayOrRedeem hfault hintegrity hstale hconflict hnotFound
      rw [refuseSignup] at h
      split at h
      · cases h
        exact hnotFound
      · cases h
      · cases h
    · exact hnotFound
  · exact hcode

omit hintegrity hstale in
/-- The current promotion is redeemable when it is shown. -/
theorem raises_getCurrentOcrCreditPromotion {query : GetCurrentOcrCreditPromotionQuery} :
    (GetCurrentOcrCreditPromotionQueryUseCase.execute query now).Raises X := by
  have hfind : (findCurrentOcrCreditPromotion now query.context).Ends
      (fun o => ∀ p ∈ o, p.Redeemable now) X := by
    refine ends_select hfault fun v p hp => ?_
    have hmem := (List.mem_insertionSort _).1 (List.mem_of_mem_head? hp)
    exact (GetCurrentOcrCreditPromotionQuery.isCurrentIn_iff.1 (List.mem_filter.1 hmem).2).1
  refine .after hfind fun o ho => ?_
  split
  · trivial
  · next p =>
    refine .bind (raises_ensureRedeemable (ho p rfl)) fun _ => ?_
    refine .bind (ends_select hfault fun _ => trivial) fun count => ?_
    have hcontent : ∀ f : Option PromotionContent → Option GetCurrentOcrCreditPromotionResult,
        ((findContentByPromotionId p.id).bind fun content => .ret (f content)).Raises X :=
      fun _ => .bind (ends_select hfault fun _ => trivial) fun _ => trivial
    dsimp only
    split
    · exact .bind (ends_select hfault fun _ => trivial) fun _ => hcontent _
    · exact hcontent _

omit hintegrity hstale in
/-- What is locked is redeemable. -/
theorem ends_lockFirst {context : PromotionContext} (candidates : List UUID) :
    (lockFirst now context candidates).Ends (fun o => ∀ p ∈ o, p.Redeemable now) X := by
  induction candidates with
  | nil => exact fun _ h => nomatch h
  | cons c candidates ih =>
    refine .bind (T := fun _ => True) (.query (fun _ => trivial) (hfault _)) fun row _ => ?_
    split
    · next p hp =>
      intro q hq
      cases hq
      obtain ⟨-, hcurrent⟩ := Option.filter_eq_some_iff.1 hp
      have hin : isCurrentIn now (some context) p = true := by
        simp only [isCurrent, Bool.and_eq_true] at hcurrent
        simp only [isCurrentIn, Bool.and_eq_true]
        exact ⟨⟨⟨⟨hcurrent.1.1.1.1, hcurrent.1.1.2⟩, hcurrent.1.2⟩, hcurrent.2⟩, hcurrent.1.1.1.2⟩
      exact (GetCurrentOcrCreditPromotionQuery.isCurrentIn_iff.1 hin).1
    · exact ih

/-- The redemption of a signup does not refuse anything. -/
theorem raises_redeemSignup {command : RedeemSignupPromotionCommand} :
    (RedeemSignupPromotionCommandUseCase.execute
      (deferredCommitUnitOfWork none) command now ids).Raises X := by
  have hfind : (findCurrentOcrCreditPromotionForUpdate now .signup).Ends
      (fun o => ∀ p ∈ o, p.Redeemable now) X :=
    .bind (T := fun _ => True) (ends_select hfault fun _ => trivial) fun _ _ =>
      ends_lockFirst hfault _
  refine .after hfind fun o ho => ?_
  split
  · next p =>
    refine .bind (ends_select hfault fun _ => trivial) fun existing => ?_
    split
    · trivial
    · refine .bind (raises_ensureRedeemable (ho p rfl)) fun _ => ?_
      refine .bind (raises_insert hfault hintegrity) fun _ => ?_
      refine .bind (raises_savePromotion hfault hstale) fun _ =>
        .bind (raises_publish hfault) fun _ => ?_
      exact .bind (raises_grantOcrCredit hfault hintegrity hstale p.benefitAmount.one_le) fun _ =>
        trivial
  · trivial

omit hintegrity hstale in
theorem raises_deleteUserCredits {userId : UUID} {stamp : Stamp} :
    (DeleteUserCreditsCommandUseCase.execute (deferredCommitUnitOfWork none) userId
      stamp).Raises X := by
  refine .bind ?_ fun _ => .bind (raises_publish hfault) fun _ => trivial
  refine .bind (.modify (fun _ => trivial) (hfault _)) fun _ => ?_
  exact .exec (fun _ _ _ _ => trivial) (fun _ _ h => nomatch h) (hfault _)

end Billing

/-! ## Auth -/

section Auth

open SqlAlchemyCredentialRepository SqlAlchemyExternalIdentityLoginSynchronizer

variable {X : AuthError → Prop} (hfault : ∀ s, X (.fault s)) (hintegrity : ∀ e, X (.integrity e))
  (hstale : X .staleData)

include hfault

theorem raises_authSelect {α : Type} {s : AuthStatement}
    {f : AuthDatabase → α} : (AuthTx.select s f).Raises X :=
  .query (fun _ => trivial) (hfault s)

theorem raises_deleteWhere {f : AuthDatabase → List AuthRow} : (deleteWhere f).Raises X :=
  .bind (raises_authSelect hfault) fun _ =>
    .bind (.modify (fun _ => trivial) (hfault _)) fun _ => trivial

include hintegrity in
theorem raises_authInsert {s : AuthStatement} {entries : List AuthEntry}
    {w : AuthDatabase → AuthDatabase} {hw : Touches (entries.map .entry) w} :
    (AuthTx.insert s entries w hw).Raises X :=
  .insert trivial hintegrity (hfault s)

theorem raises_currentPrincipal [AccessTokenVerifier] {token : String}
    (hrefused : X (.domain .authentication)) :
    (CurrentPrincipalQueryUseCase.execute token).Raises X := by
  rw [CurrentPrincipalQueryUseCase.execute]
  split
  · exact hrefused
  · refine .bind (raises_authSelect hfault) fun exists_ => ?_
    split
    · trivial
    · exact hrefused

include hintegrity in
theorem raises_deleteAccountAuthState {userId credentialsId : UUID}
    {events : List (Stamped AuthEvent)} : (do
    deleteAccountAuthState userId credentialsId
    Auth.flushOutbox events : AuthTx Unit).Raises X := by
  refine .bind ?_ fun _ => raises_authInsert hfault hintegrity
  refine .bind (raises_authSelect hfault) fun owned => ?_
  split
  · trivial
  · exact .bind (raises_deleteWhere hfault) fun _ => .bind (raises_deleteWhere hfault) fun _ =>
      .bind (raises_deleteWhere hfault) fun _ => raises_deleteWhere hfault

variable [Digests]

include hstale in
theorem raises_logout {refreshToken : String} {now revokedAt : Instant} :
    (LogoutCommandUseCase.execute refreshToken now revokedAt).Raises X := by
  refine .bind ?_ fun _ => .commitOr trivial (hfault _)
  refine .bind (raises_authSelect hfault) fun row => ?_
  split
  · trivial
  · split
    · exact raises_deleteWhere hfault
    · refine .bind (raises_authSelect hfault) fun authSession => ?_
      dsimp only
      split
      · exact .bind (.update trivial hstale (hfault _)) fun _ => raises_deleteWhere hfault
      · exact raises_deleteWhere hfault

include hintegrity

/-- A refresh token is refused, or used. -/
theorem raises_refresh {refreshToken : String} {issued : IssuedRefreshToken} {now : Instant}
    (hrefused : X (.domain .authentication)) :
    (RefreshTokenCommandUseCase.execute refreshToken issued now).Raises X := by
  have hrotate : (rotateRefreshToken (hash refreshToken) now).Raises X := by
    have hdelete : (deleteRefreshToken (hash refreshToken)).Raises X :=
      .bind (.modify (fun _ => trivial) (hfault _)) fun _ => trivial
    refine .bind hdelete fun row => ?_
    split
    · exact hrefused
    · split
      · exact hrefused
      · split
        · exact hrefused
        · refine .bind (raises_authSelect hfault) fun authSession => ?_
          split
          · exact hrefused
          · split
            · exact hrefused
            · refine .bind (raises_authSelect hfault) fun credentials => ?_
              split
              · exact hrefused
              · split
                · exact hrefused
                · trivial
  refine .bind hrotate fun x => ?_
  exact .bind (raises_authInsert hfault hintegrity) fun _ =>
    .bind (.commitOr trivial (hfault _)) fun _ => trivial

variable [CaseFolding] {identity : ExternalIdentity}

omit hintegrity in
theorem raises_synchronize : (synchronize identity).Raises X := by
  refine .bind (.query (fun _ => trivial) (hfault _)) fun _ => ?_
  split
  · exact .query (fun _ => trivial) (hfault _)
  · trivial

include hstale in
/-- A login is refused to identities that have no credentials. -/
theorem raises_login {ids : LoginIds} (hrefused : X (.domain .authentication))
    (hnotRegistered : X (.domain .userNotRegistered)) :
    (LoginCommandUseCase.execute identity ids).Raises X := by
  have hrecord : ∀ credentialsId, (recordLogin credentialsId).Raises X := by
    intro credentialsId
    refine .bind (raises_authSelect hfault) fun found => ?_
    split
    · trivial
    · exact hrefused
  have hcredentials : (loginCredentials identity).Raises X := by
    refine .bind (raises_authSelect hfault) fun found => ?_
    split
    · exact hrecord _
    · split
      · refine .bind (raises_authSelect hfault) fun owner => ?_
        split
        · exact .bind (raises_authInsert hfault hintegrity) fun _ => hrecord _
        · exact hnotRegistered
      · exact hrefused
  refine .bind (raises_synchronize hfault) fun _ => .bind hcredentials fun credentials => ?_
  refine .bind ?_ fun _ => ?_
  · rw [flushLogin]
    split
    · trivial
    · exact .update trivial hstale (hfault _)
  · exact .bind (raises_authInsert hfault hintegrity) fun _ =>
      .bind (raises_authInsert hfault hintegrity) fun _ =>
        .bind (.commitOr trivial (hfault _)) fun _ => trivial

omit hintegrity in
theorem raises_ensureNewUser (hexists : X (.domain .userAlreadyExists)) :
    (do SignupCommandUseCase.ensureNewUser identity; synchronize identity :
      AuthTx Unit).Raises X := by
  refine .bind ?_ fun _ => raises_synchronize hfault
  refine .bind (raises_authSelect hfault) fun found => ?_
  split
  · exact hexists
  · split
    · refine .bind (raises_authSelect hfault) fun owner => ?_
      split
      · exact hexists
      · trivial
    · trivial

theorem raises_createCredentials {ids : SignupIds} {userId : UUID} :
    (SignupCommandUseCase.createCredentials identity ids userId).Raises X :=
  .bind (raises_authInsert hfault hintegrity) fun _ =>
    .bind (raises_authInsert hfault hintegrity) fun _ =>
      .bind (raises_authInsert hfault hintegrity) fun _ =>
        .bind (raises_authInsert hfault hintegrity) fun _ => raises_authInsert hfault hintegrity

end Auth

/-! ## Users and notifications -/

section Users

variable {X : UsersError → Prop} (hfault : ∀ s, X (.fault s)) (hintegrity : ∀ row, X (.integrity row))

include hfault hintegrity

/-- The account of a signup is created without a refusal: what is checked has been checked before. -/
theorem raises_resolveUserForLogin {command : SignupCommand} {identity : ExternalIdentity}
    {ids : SignupIds} (hconsent : SignupCommandUseCase.requireConsent command = .ok ())
    (hidentity : identity.WellFormed) :
    (ResolveUserForLoginCommandUseCase.execute (return)
      { name := identity.name
        email := identity.email
        profileImageUrl := ids.defaultProfileImageUrl
        termsVersion := normalizedConsentVersion command.termsVersion
        privacyVersion := normalizedConsentVersion command.privacyVersion
        termsAccepted := command.termsAccepted
        privacyAccepted := command.privacyAccepted } ids.account).Raises X := by
  have hcreate :
    UserRecord.create ids.account.userId identity.name identity.email ids.defaultProfileImageUrl
      ids.account.stamp = .ok (SignupCommandUseCase.userRecord identity ids,
        [⟨ids.account.stamp, .userRegistered ids.account.userId identity.email identity.name⟩]) := by
    rw [UserRecord.create, hidentity.validate]
    rfl
  simp only [ResolveUserForLoginCommandUseCase.execute, normalizedConsentVersion_idem, hcreate,
    UsersTx.lift, Prog.bind_eq]
  rw [SignupCommandUseCase.requireConsent] at hconsent
  rw [hconsent]
  simp only [Prog.ret_bind]
  refine .bind ?_ fun _ => .bind (.insert trivial hintegrity (hfault _))
    fun _ => trivial
  exact .bind (.insert trivial hintegrity (hfault _)) fun _ => .insert trivial hintegrity (hfault _)

theorem raises_withdrawalCleanup {userId : UUID} {stamp : Stamp} :
    (WithdrawalCleanupCommandUseCase.execute (return) userId stamp).Raises X := by
  have hdelete : ∀ {s : UsersStatement} {f : UsersDatabase → List UsersRow},
      (UsersTx.deleteWhere s f).Raises X :=
    .bind (.modify (fun _ => trivial) (hfault _)) fun _ => trivial
  refine .bind (.bind hdelete fun _ => hdelete) fun _ => ?_
  exact .bind (.insert trivial hintegrity (hfault _)) fun _ => trivial

end Users

section Notifications

variable {X : NotificationsError → Prop} (hfault : ∀ s, X (.fault s))
  (hintegrity : ∀ e, X (.integrity e))

include hfault hintegrity

theorem raises_updateNotificationSettings {commit : NotificationsTx Unit}
    {command : UpdateNotificationSettingsCommand} (hcommit : commit.Raises X) :
    (UpdateNotificationSettingsCommandUseCase.execute commit command).Raises X := by
  have hread :
      ((NotificationsTx.select (.findSettings command.userId)
        (·.settings.find command.userId)).bind fun record =>
          (.ret (record.getD (.create command.userId)) :
            NotificationsTx NotificationSettings)).Raises X :=
    .bind (.query (fun _ => trivial) (hfault _)) fun _ => trivial
  refine .bind ?_ fun _ => .bind hcommit fun _ => trivial
  rw [SqlAlchemyNotificationRepository.updateSettings]
  split
  · exact .bind (.insertOnConflict (fun _ => trivial) hintegrity (hfault _)) fun _ => hread
  · exact hread

omit hintegrity in
theorem raises_deleteNotification {command : NotificationCommand} (hstale : X .stale)
    (hnotFound : ∀ message, X (.notFound message)) :
    (DeleteNotificationCommandUseCase.execute command).Raises X := by
  have hdelete :
      (SqlAlchemyNotificationRepository.deleteByIdForUser command.notificationId
        command.userId).Raises X := by
    refine .bind (.query (fun _ => trivial) (hfault _)) fun record => ?_
    split
    · trivial
    · exact .bind (.update trivial hstale (hfault _)) fun _ => trivial
  refine .bind hdelete fun deleted => ?_
  split
  · exact hnotFound _
  · exact .commitOr trivial (hfault _)

theorem raises_markNotificationRead {command : NotificationCommand} {readAt : Instant}
    (hstale : X .stale) (hmissing : X .settingsMissing)
    (hnotFound : ∀ message, X (.notFound message)) :
    (MarkNotificationReadCommandUseCase.execute command readAt).Raises X := by
  have hsettings :
      (SqlAlchemyNotificationRepository.getSettingsForUpdate command.userId).Raises X := by
    refine .bind (.insertOnConflict (fun _ => trivial) hintegrity (hfault _)) fun _ => ?_
    refine .bind (.query (fun _ => trivial) (hfault _)) fun record => ?_
    split
    · trivial
    · exact hmissing
  have hmark :
      (SqlAlchemyNotificationRepository.markRead command.notificationId command.userId
        readAt).Raises X := by
    refine .bind (.query (fun _ => trivial) (hfault _)) fun record => ?_
    split
    · trivial
    · exact .bind (.update trivial hstale (hfault _)) fun _ => trivial
  refine .bind hsettings fun _ => .bind hmark fun notification => ?_
  split
  · exact hnotFound _
  · exact .bind (.commitOr trivial (hfault _)) fun _ => trivial

theorem raises_registerDeviceToken {command : RegisterDeviceTokenCommand} {id : UUID} {now : Instant}
    (hmissing : X .pushTokenMissing) (hinvalid : ∀ details, X (.domain (.validation details))) :
    (RegisterDeviceTokenCommandUseCase.execute NotificationsTx.commit command id now).Raises X := by
  rw [RegisterDeviceTokenCommandUseCase.execute]
  split
  · exact hinvalid _
  · refine .bind ?_ fun _ => .bind (.commitOr trivial (hfault _)) fun _ => trivial
    refine .bind (.insertOnConflict (fun _ => trivial) hintegrity (hfault _)) fun _ => ?_
    refine .bind (.query (fun _ => trivial) (hfault _)) fun record => ?_
    split
    · trivial
    · exact hmissing

omit hintegrity in
theorem raises_deleteUserPushTokens {userId : UUID} :
    (DeleteUserPushTokensCommandUseCase.execute (return) userId).Raises X :=
  .bind (.bind (.query (fun _ => trivial) (hfault _)) fun _ =>
    .bind (.modify (fun _ => trivial) (hfault _)) fun _ => trivial) fun _ => trivial

end Notifications

end Boat.App
