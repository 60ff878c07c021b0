import Boat.App.Refusals
import Boat.App.Responses
import Boat.App.Withdrawal

/-!
# Endpoints

The requests of the routers of the auth, users, promotions and notifications modules, from the token
that a request presents to the response to what its use case raises.

* `responses_documented`: whatever other sessions do, a request is refused only as its router
  documents, and is answered 500 only for what is no refusal.
-/

namespace Boat.App

open ReadCommitted Auth Users Notifications SqlAlchemyPromotionRepository

/-! ## Requests -/

/-- A request, with the claims of the token of the provider, or the access token that it presents. -/
inductive ApiRequest
  | signup (claims : Option Claims) (identityId : UUID) (command : SignupCommand) (ids : SignupIds)
  | login (claims : Option Claims) (identityId : UUID) (ids : LoginIds)
  | refresh (refreshToken : String) (issued : IssuedRefreshToken) (now : Instant)
  | logout (refreshToken : String) (now revokedAt : Instant)
  | withdrawMe (token : String) (stamps : WithdrawalStamps)
  | getPromotions (token : String) (context : Option PromotionContext) (now : Instant)
  | createPromotionCodeRedemption (token code : String) (idempotencyKey : Option String)
    (now : Instant) (ids : RedemptionIds)
  | createPromotionRedemption (token : String) (promotionId : UUID) (idempotencyKey : Option String)
    (now : Instant) (ids : RedemptionIds)
  | updateNotificationSettings (token : String) (pushEnabled marketingConsent : Option Bool)
  | updateNotification (token : String) (notificationId : UUID) (readAt : Instant)
  | deleteNotification (token : String) (notificationId : UUID)
  | registerDevice (token registrationToken : String) (platform : DevicePlatform) (id : UUID)
    (now : Instant)

/-- What a request returns. -/
inductive ApiData
  | tokens (result : TokenResult)
  | promotion (result : Option GetCurrentOcrCreditPromotionResult)
  | redemption (result : CreatePromotionRedemptionResult)
  | settings (result : NotificationSettings)
  | notification (result : UserNotification)
  | nothing

/-- What is raised before the use case of a signup or a login reaches the database. -/
def AppTx.check {α : Type} : Except DomainError α → AppTx α
  | .ok a => .ret a
  | .error e => .raise (.domain e)

section

variable [AccessTokenVerifier]

/-- `authenticate_current_principal`, of a token that is presented: the session of
    `RequestActiveSessionChecker` is closed. -/
def authenticateCurrentPrincipal (token : String) : AppTx AuthenticatedPrincipal := do
  let principal ← AppTx.auth (CurrentPrincipalQueryUseCase.execute token)
  Prog.rollbackOr .fault
  return principal

variable [CaseFolding] [Digests] [BeneficiaryDigest] (mapping : FirebaseIdentityMapping)

/-- What the routers run. -/
def ApiRequest.prog : ApiRequest → AppTx ApiData
  | signup claims identityId command ids => do
    AppTx.check (SignupCommandUseCase.requireConsent command)
    let identity ← AppTx.check (FirebaseExternalIdentityVerifier.verify mapping identityId claims)
    return .tokens (← SignupCommandUseCase.execute identity command ids)
  | login claims identityId ids => do
    let identity ← AppTx.check (FirebaseExternalIdentityVerifier.verify mapping identityId claims)
    return .tokens (← AppTx.auth (LoginCommandUseCase.execute identity ids))
  | refresh refreshToken issued now => do
    return .tokens (← AppTx.auth (RefreshTokenCommandUseCase.execute refreshToken issued now))
  | logout refreshToken now revokedAt => do
    AppTx.auth (LogoutCommandUseCase.execute refreshToken now revokedAt)
    return .nothing
  | withdrawMe token stamps => do
    let principal ← authenticateCurrentPrincipal token
    WithdrawAccountCommandUseCase.execute ⟨principal.userId, principal.credentialsId⟩ stamps
    return .nothing
  | getPromotions token context now => do
    let principal ← authenticateCurrentPrincipal token
    return .promotion
      (← AppTx.billing
        (GetCurrentOcrCreditPromotionQueryUseCase.execute ⟨principal.userId, context⟩ now))
  | createPromotionCodeRedemption token code idempotencyKey now ids => do
    let principal ← authenticateCurrentPrincipal token
    return .redemption
      (← AppTx.billing (CreatePromotionCodeRedemptionCommandUseCase.execute sqlAlchemyUnitOfWork
      ⟨principal.userId, code, idempotencyKey⟩ now ids))
  | createPromotionRedemption token promotionId idempotencyKey now ids => do
    let principal ← authenticateCurrentPrincipal token
    return .redemption
      (← AppTx.billing (CreatePromotionRedemptionCommandUseCase.execute sqlAlchemyUnitOfWork
      ⟨principal.userId, promotionId, idempotencyKey⟩ now ids))
  | updateNotificationSettings token pushEnabled marketingConsent => do
    let principal ← authenticateCurrentPrincipal token
    return .settings
      (← AppTx.notifications (UpdateNotificationSettingsCommandUseCase.execute NotificationsTx.commit
      ⟨principal.userId, pushEnabled, marketingConsent⟩))
  | updateNotification token notificationId readAt => do
    let principal ← authenticateCurrentPrincipal token
    return .notification (← AppTx.notifications
      (MarkNotificationReadCommandUseCase.execute ⟨principal.userId, notificationId⟩ readAt))
  | deleteNotification token notificationId => do
    let principal ← authenticateCurrentPrincipal token
    AppTx.notifications (DeleteNotificationCommandUseCase.execute ⟨principal.userId, notificationId⟩)
    return .nothing
  | registerDevice token registrationToken platform id now => do
    let principal ← authenticateCurrentPrincipal token
    let _ ← AppTx.notifications (RegisterDeviceTokenCommandUseCase.execute NotificationsTx.commit
      ⟨principal.userId, registrationToken, platform⟩ id now)
    return .nothing

end

/-- `responses`: the statuses of the failures that the router documents, and the codes it names. -/
def ApiRequest.documented : ApiRequest → List (ℕ × Option String)
  | signup .. => [(401, none), (422, none), (409, some "USER_ALREADY_EXISTS")]
  | login .. => [(401, none), (422, none), (404, some "USER_NOT_REGISTERED")]
  | refresh .. | logout .. | updateNotificationSettings .. | registerDevice .. =>
    [(401, none), (422, none)]
  | withdrawMe .. | updateNotification .. | deleteNotification .. =>
    [(401, none), (404, none), (422, none)]
  | getPromotions .. | createPromotionCodeRedemption .. | createPromotionRedemption .. =>
    [(401, none), (404, none), (409, none), (422, none)]

/-! ## Responses -/

/-- The response to an exception is documented, or the exception is no refusal. -/
def ApiRequest.Documents (request : ApiRequest) (path : String) (e : AppError) : Prop :=
  e.Internal ∧ (respond path e).status = 500 ∨
    ((respond path e).status, (respond path e).code) ∈ request.documented

theorem ApiRequest.documents_of_internal {request : ApiRequest} {path : String} {e : AppError}
    (he : e.Internal) :
    request.Documents path e := .inl ⟨he, congrArg FailureResponse.status (respond_internal he)⟩

theorem ends_check {α : Type} {R : α → Prop} {X : AppError → Prop} {x : Except DomainError α}
    (hok : ∀ a, x = .ok a → R a) (herror : ∀ e, x = .error e → X (.domain e)) :
    (AppTx.check x).Ends R X := by
  rcases x with e | a
  · exact herror e rfl
  · exact hok a rfl

theorem requireConsent_error {command : SignupCommand} {e : DomainError}
    (h : SignupCommandUseCase.requireConsent command = .error e) : ∃ details,
    e = .validation details := by
  rw [SignupCommandUseCase.requireConsent, Users.requireConsent] at h
  split at h
  · cases h
  · cases h
    exact ⟨_, rfl⟩

section

variable {X : AppError → Prop} (hinternal : ∀ e : AppError, e.Internal → X e)

include hinternal

theorem raises_auth {α : Type} {p : AuthTx α}
    (hp : ∀ Y : AuthError → Prop, (∀ s, Y (.fault s)) → (∀ e, Y (.integrity e)) →
    Y .staleData → (∀ e, X (.domain e) → Y (.domain e)) → p.Raises Y) : (AppTx.auth p).Raises X :=
  .lift (hp (fun e => X (.ofAuth e)) (fun s => hinternal (.auth (.fault s)) trivial)
    (fun e => hinternal (.auth (.integrity e)) trivial)
      (hinternal (.auth .staleData) trivial) fun _ h => h)

theorem raises_users {α : Type} {p : UsersTx α} (hp : ∀ Y : UsersError → Prop, (∀ s, Y (.fault s)) →
    (∀ row, Y (.integrity row)) → p.Raises Y) : (AppTx.users p).Raises X :=
  .lift (hp (fun e => X (.ofUsers e)) (fun s => hinternal (.users (.fault s)) trivial)
    fun row => hinternal (.users (.integrity row)) trivial)

theorem raises_notifications {α : Type} {p : NotificationsTx α}
    (hp : ∀ Y : NotificationsError → Prop, (∀ s, Y (.fault s)) →
    (∀ e, Y (.integrity e)) → Y .stale → Y .settingsMissing → Y .pushTokenMissing →
    (∀ e, X (.domain e) → Y (.domain e)) →
    (∀ message, X (.notifications (.notFound message)) → Y (.notFound message)) → p.Raises Y) :
    (AppTx.notifications p).Raises X :=
  .lift (hp (fun e => X (.ofNotifications e)) (fun s => hinternal (.notifications (.fault s)) trivial)
    (fun e => hinternal (.notifications (.integrity e)) trivial)
      (hinternal (.notifications .stale) trivial)
    (hinternal (.notifications .settingsMissing) trivial)
      (hinternal (.notifications .pushTokenMissing) trivial)
    (fun _ h => h) fun _ h => h)

theorem raises_billing {α : Type} {p : Tx α}
    (hp : ∀ Y : Error → Prop, (∀ s, Y (.fault s)) → (∀ c, Y (.integrity c)) →
    Y .staleData → (∀ e, X (.domain e) → Y (.domain e)) → p.Raises Y) : (AppTx.billing p).Raises X :=
  .lift (hp (fun e => X (.ofBilling e)) (fun s => hinternal (.billing (.fault s)) trivial)
    (fun c => hinternal (.billing (.integrity c)) trivial)
      (hinternal (.billing .staleData) trivial) fun _ h => h)

/-- A signup of an identity that has been verified, and of consents that have been checked, is
    refused only to users. -/
theorem raises_signup [CaseFolding] [Digests] [BeneficiaryDigest] {identity : ExternalIdentity}
    {command : SignupCommand} {ids : SignupIds}
    (hconsent : SignupCommandUseCase.requireConsent command = .ok ())
    (hidentity : identity.WellFormed) (hexists : X (.domain .userAlreadyExists)) :
    (SignupCommandUseCase.execute identity command ids).Raises X := by
  have hredeem : ∀ userId,
      (AppTx.billing (SignupCommandUseCase.redeem identity ids userId)).Raises X := by
    intro userId
    have hY : ∀ Y : Error → Prop, (∀ s, Y (.fault s)) → (∀ c, Y (.integrity c)) → Y .staleData →
        (∀ e, X (.domain e) → Y (.domain e)) →
          (SignupCommandUseCase.redeem identity ids userId).Raises Y := by
      intro Y hfault hintegrity hstale _
      have hexecute : (RedeemSignupPromotionCommandUseCase.execute (deferredCommitUnitOfWork none)
          (redemptionCommand identity userId) ids.redeemedAt ids.redemption).Raises Y :=
        raises_redeemSignup hfault hintegrity hstale
      rw [SignupCommandUseCase.redeem, create_beneficiaryKey]
      generalize redemptionCommand identity userId = redemption at hexecute ⊢
      exact hexecute
    generalize SignupCommandUseCase.redeem identity ids userId = redeem at hY ⊢
    exact raises_billing hinternal hY
  have hcredentials : ∀ userId,
      (AppTx.auth (SignupCommandUseCase.createCredentials identity ids userId)).Raises X :=
    fun _ => raises_auth hinternal fun _ hfault hintegrity _ _ =>
      raises_createCredentials hfault hintegrity
  have hregister : (SignupCommandUseCase.register identity command ids).Raises X := by
    rw [SignupCommandUseCase.register]
    generalize SignupCommandUseCase.redeem identity ids = redeem at hredeem ⊢
    generalize SignupCommandUseCase.createCredentials identity ids =
      createCredentials at hcredentials ⊢
    refine .bind (raises_auth hinternal fun _ hfault _ _ hdomain =>
      raises_ensureNewUser hfault (hdomain _ hexists))
      fun _ => ?_
    refine .bind (raises_users hinternal fun _ hfault hintegrity =>
      raises_resolveUserForLogin hfault hintegrity hconsent hidentity) fun userId => ?_
    refine .bind (raises_notifications hinternal fun _ hfault hintegrity _ _ _ _ _ =>
      raises_updateNotificationSettings hfault hintegrity trivial) fun _ => ?_
    refine .bind (hredeem userId) fun _ => .bind (hcredentials userId) fun _ => ?_
    exact .bind (.commitOr trivial (hinternal .fault trivial)) fun _ => trivial
  rw [SignupCommandUseCase.execute, hconsent]
  refine .handle hregister fun e he => .bind ?_ fun _ => he
  exact .handle (Y := fun _ => True) (.rollbackOr trivial trivial) fun _ _ => trivial

theorem raises_authenticate [AccessTokenVerifier] {token : String}
    (hrefused : X (.domain .authentication)) :
    (authenticateCurrentPrincipal token).Raises X :=
  .bind (raises_auth hinternal fun _ hfault _ _ hdomain =>
    raises_currentPrincipal hfault (hdomain _ hrefused)) fun _ =>
    .bind (.rollbackOr trivial (hinternal .fault trivial)) fun _ => trivial

theorem raises_withdraw {command : WithdrawAccountCommand} {stamps : WithdrawalStamps} :
    (WithdrawAccountCommandUseCase.execute command stamps).Raises X := by
  refine .bind (raises_auth hinternal fun _ hfault hintegrity _ _ =>
    raises_deleteAccountAuthState hfault hintegrity)
    fun _ => ?_
  refine .bind (raises_users hinternal fun _ hfault hintegrity =>
    raises_withdrawalCleanup hfault hintegrity) fun _ => ?_
  refine .bind (raises_billing hinternal fun _ hfault _ _ _ =>
    raises_deleteUserCredits hfault) fun _ => ?_
  refine .bind (raises_notifications hinternal fun _ hfault _ _ _ _ _ _ =>
    raises_deleteUserPushTokens hfault) fun _ => ?_
  exact .commitOr trivial (hinternal .fault trivial)

end

section

variable [AccessTokenVerifier] [CaseFolding] [Digests] [BeneficiaryDigest]
  (mapping : FirebaseIdentityMapping)

/-- Each request ends as it documents. -/
theorem raises_prog (request : ApiRequest) (path : String) :
    (request.prog mapping).Raises (request.Documents path) := by
  have hinternal : ∀ e : AppError, e.Internal → request.Documents path e :=
    fun _ => ApiRequest.documents_of_internal
  -- All of them document that they are refused without authentication.
  have hrefused : request.Documents path (.domain .authentication) := by
    cases request <;> exact .inr (.head _)
  cases request with
  | signup claims identityId command ids =>
    refine .after
      (ends_check (R := fun _ => SignupCommandUseCase.requireConsent command = .ok ()) (fun _ h => h)
      fun e h => ?_) fun _ hconsent => ?_
    · obtain ⟨details, rfl⟩ := requireConsent_error h
      exact .inr (.tail _ (.head _))
    refine .after (ends_check (R := ExternalIdentity.WellFormed)
      (fun _ h => (FirebaseExternalIdentityVerifier.verify_ok h).1) fun e h =>
        ?_) fun identity hidentity => ?_
    · rw [FirebaseExternalIdentityVerifier.verify_error h]
      exact hrefused
    exact .bind (raises_signup hinternal hconsent hidentity (.inr (.tail _ (.tail _ (.head _)))))
      fun _ => trivial
  | login claims identityId ids =>
    refine .bind (ends_check (fun _ _ => trivial) fun e h => ?_) fun identity => ?_
    · rw [FirebaseExternalIdentityVerifier.verify_error h]
      exact hrefused
    exact .bind (raises_auth hinternal fun _ hfault hintegrity hstale hdomain =>
      raises_login hfault hintegrity hstale
      (hdomain _ hrefused) (hdomain _ (.inr (.tail _ (.tail _ (.head _)))))) fun _ => trivial
  | refresh refreshToken issued now =>
    exact .bind (raises_auth hinternal fun _ hfault hintegrity _ hdomain =>
      raises_refresh hfault hintegrity (hdomain _ hrefused)) fun _ => trivial
  | logout refreshToken now revokedAt =>
    exact .bind (raises_auth hinternal fun _ hfault _ hstale _ =>
      raises_logout hfault hstale) fun _ => trivial
  | withdrawMe token stamps =>
    exact .bind (raises_authenticate hinternal hrefused) fun _ =>
      .bind (raises_withdraw hinternal) fun _ => trivial
  | getPromotions token context now =>
    exact .bind (raises_authenticate hinternal hrefused) fun _ =>
      .bind (raises_billing hinternal fun _ hfault _ _ _ =>
        raises_getCurrentOcrCreditPromotion hfault) fun _ => trivial
  | createPromotionCodeRedemption token code idempotencyKey now ids =>
    refine .bind (raises_authenticate hinternal hrefused) fun _ => .bind (raises_billing hinternal
      fun _ hfault hintegrity hstale hdomain => ?_) fun _ => trivial
    exact raises_createPromotionCodeRedemption hfault hintegrity hstale
      (fun _ => hdomain _ (.inr (.tail _ (.tail _ (.head _))))) (hdomain _ (.inr (.tail _ (.head _))))
      (hdomain _ (.inr (.tail _ (.head _))))
  | createPromotionRedemption token promotionId idempotencyKey now ids =>
    refine .bind (raises_authenticate hinternal hrefused) fun _ => .bind (raises_billing hinternal
      fun _ hfault hintegrity hstale hdomain => ?_) fun _ => trivial
    exact raises_createPromotionRedemption hfault hintegrity hstale
      (fun _ => hdomain _ (.inr (.tail _ (.tail _ (.head _))))) (hdomain _ (.inr (.tail _ (.head _))))
  | updateNotificationSettings token pushEnabled marketingConsent =>
    refine .bind (raises_authenticate hinternal hrefused) fun _ => .bind
      (raises_notifications hinternal
      fun _ hfault hintegrity _ _ _ _ _ => ?_) fun _ => trivial
    exact raises_updateNotificationSettings hfault hintegrity (.commitOr trivial (hfault _))
  | updateNotification token notificationId readAt =>
    refine .bind (raises_authenticate hinternal hrefused) fun _ => .bind
      (raises_notifications hinternal
      fun _ hfault hintegrity hstale hmissing _ _ hnotFound => ?_) fun _ => trivial
    exact raises_markNotificationRead hfault hintegrity hstale hmissing fun _ =>
      hnotFound _ (.inr (.tail _ (.head _)))
  | deleteNotification token notificationId =>
    refine .bind (raises_authenticate hinternal hrefused) fun _ => .bind
      (raises_notifications hinternal
      fun _ hfault _ hstale _ _ _ hnotFound => ?_) fun _ => trivial
    exact raises_deleteNotification hfault hstale fun _ => hnotFound _ (.inr (.tail _ (.head _)))
  | registerDevice token registrationToken platform id now =>
    refine .bind (raises_authenticate hinternal hrefused) fun _ => .bind
      (raises_notifications hinternal
      fun _ hfault hintegrity _ _ hmissing hdomain _ => ?_) fun _ => trivial
    exact raises_registerDeviceToken hfault hintegrity hmissing fun _ =>
      hdomain _ (.inr (.tail _ (.head _)))

variable {mapping} {ι : Type} [DecidableEq ι] {C : Condition ι AppDatabase AppLock AppStatement}
  {d : AppDatabase}

/-- Whatever the other requests do, a request is refused only as its router documents. It is
    answered 500 only for what is no refusal. -/
theorem responses_documented {requests : ι → ApiRequest}
    {s : System ι AppDatabase AppStatement AppError ApiData}
    (hs : Reach C (System.init (fun i => (requests i).prog mapping) d) s) {i : ι} {e : AppError}
    (he : s.raised i = some e) (path : String) :
    ((respond path e).status, (respond path e).code) ∈ (requests i).documented ∨
      (respond path e).status = 500 ∧ e.Internal :=
  ((hs.ends (raises_prog mapping (requests i) path)).2 e he).symm.imp_right And.symm

end

/-- The claims of a token of Google. -/
def googleClaims : Claims :=
  [("uid", .str "subject"), ("email", .str "user@example.com"), ("email_verified", .bool true),
    ("firebase", .obj [("sign_in_provider", .str "google.com")])]

/-- Somebody signs up twice. -/
def signupTwice : Bool → ApiRequest
  | false => .signup (some googleClaims) (.ofNat 12) signupCommand signupIds
  | true => .signup (some googleClaims) (.ofNat 32) signupCommand
    ⟨⟨.ofNat 31, ⟨.ofNat 33, 0⟩, 0⟩, none, 1,
      ⟨.ofNat 34, ⟨.ofNat 35, 1⟩, ⟨.ofNat 36, ⟨.ofNat 37, 1⟩⟩⟩, .ofNat 38, ⟨.ofNat 39, 2⟩,
      ⟨.ofNat 40, ⟨.ofNat 41, "second", 9⟩, 2⟩⟩

theorem second_signup_refused : letI := lowerCase; letI : Digests := ⟨id, fun _ => 0⟩;
    letI := zeroDigest
    letI : AccessTokenVerifier := ⟨fun _ => none⟩
    ∃ s : System Bool AppDatabase AppStatement AppError ApiData,
      Reach Always (System.init (fun i => (signupTwice i).prog {}) .empty) s ∧
        s.raised true = some (.domain .userAlreadyExists) ∧
        (409, some "USER_ALREADY_EXISTS") ∈ (signupTwice true).documented := by
  let _ := lowerCase
  let _ : Digests := ⟨id, fun _ => 0⟩
  let _ := zeroDigest
  let _ : AccessTokenVerifier := ⟨fun _ => none⟩
  obtain ⟨s, hs, hraised⟩ := System.exists_reach (C := Always)
    (s := (System.init (fun i => (signupTwice i).prog {}) .empty :
      System Bool AppDatabase AppStatement AppError ApiData))
    (p := fun s => s.raised true = some (.domain .userAlreadyExists))
    (List.replicate 16 (.run false) ++ List.replicate 2 (.run true)) (by decide +kernel)
  exact ⟨s, hs, hraised,
    (responses_documented hs hraised "/api/v1/auth/signup").resolve_right fun h => h.2⟩

end Boat.App
