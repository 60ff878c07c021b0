import Boat.App.Signup
import Boat.Auth.Alone
import Boat.Promotions.SignupRedemption
import Boat.Text.Strip

/-!
# Signups are all or nothing

What a signup does to the store, in a transaction that spans all modules.

* `SignedUp`: the rows of an account, in the tables of the modules that have something of it;
* `wp_execute`: under the locks of its identity (`Synchronized`), a signup commits such an account
  or nothing, whatever the other sessions do, as long as its user is new (`SignupIds.New`): its
  promotion is then granted without a replay, which would roll back the session that the signup goes
  on with;
* `signup_all_or_nothing`: a signup that is alone, wherever it fails.
-/

namespace Boat.App

open ReadCommitted Auth Users Notifications SqlAlchemyCredentialRepository
  SqlAlchemyExternalIdentityLoginSynchronizer

theorem normalizedConsentVersion_idem (version : Option String) :
    normalizedConsentVersion (normalizedConsentVersion version) =
      normalizedConsentVersion version := by
  rcases version with - | version
  · rfl
  · rcases h : normalizedConsentVersion (some version) with - | v
    · rfl
    · obtain ⟨hv, hne⟩ := Option.filter_eq_some_iff.1 h
      cases hv
      rw [normalizedConsentVersion, Option.map_some, strip_strip, Option.filter_some, if_pos hne]

/-! ## Keys of beneficiaries -/

section

variable [BeneficiaryDigest]

theorem length_beneficiaryKey (issuer subject : String) :
    (beneficiaryKey issuer subject).length = 67 := by
  rw [beneficiaryKey, String.length_append, BeneficiaryDigest.length_hexdigest]
  rfl

omit [BeneficiaryDigest] in
theorem isSpace_of_isHexDigit {c : Char} (h : isHexDigit c) : isSpace c = false := by
  have hle : 48 ≤ c.toNat ∧ c.toNat ≤ 102 := by
    simp only [isHexDigit, Char.isDigit, Bool.or_eq_true, Bool.and_eq_true, decide_eq_true_eq] at h
    rcases h with ⟨h₁, h₂⟩ | ⟨h₁, h₂⟩
    · exact ⟨h₁, Nat.le_trans h₂ (by decide)⟩
    · exact ⟨Nat.le_trans (by decide) h₁, h₂⟩
  simp [isSpace]
  omega

/-- The key has no white space at its ends. -/
theorem strip_beneficiaryKey (issuer subject : String) :
    strip (beneficiaryKey issuer subject) = beneficiaryKey issuer subject := by
  have hlength := BeneficiaryDigest.length_hexdigest (issuer ++ ("\x00" ++ subject))
  have hhex := BeneficiaryDigest.hex (issuer ++ ("\x00" ++ subject))
  rw [strip_eq_self_iff, beneficiaryKey, String.toList_append]
  generalize BeneficiaryDigest.hexdigest (issuer ++ ("\x00" ++ subject)) = digest at hlength hhex
  rw [← String.length_toList] at hlength
  refine ⟨fun c hc => ?_, fun c hc => ?_⟩
  · cases hc
    rfl
  · have hne : digest.toList ≠ [] := List.ne_nil_of_length_pos (by omega)
    rw [List.getLast?_append_of_ne_nil _ hne] at hc
    exact isSpace_of_isHexDigit (hhex c (List.mem_of_getLast? hc))

/-- The redemption that a signup requests. -/
def redemptionCommand (identity : ExternalIdentity)
    (userId : UUID) : RedeemSignupPromotionCommand where
  userId := userId
  beneficiaryKey := beneficiaryKey identity.issuer identity.subject
  not_blank h := by
    have hlength := length_beneficiaryKey identity.issuer identity.subject
    rw [← strip_beneficiaryKey, h] at hlength
    cases hlength
  length_le := by
    rw [length_beneficiaryKey]
    exact Nat.le_of_ble_eq_true rfl

theorem create_beneficiaryKey (identity : ExternalIdentity) (userId : UUID) :
    RedeemSignupPromotionCommand.create userId (beneficiaryKey identity.issuer identity.subject) =
      .ok (redemptionCommand identity userId) := by
  rw [RedeemSignupPromotionCommand.create, dif_neg]
  · rfl
  · rintro (h | h)
    · exact (redemptionCommand identity userId).not_blank h
    · exact absurd (redemptionCommand identity userId).length_le (Nat.not_le.2 h)

end

/-! ## Rows -/

namespace SignupCommandUseCase

/-- The row of the user. -/
def userRecord (identity : ExternalIdentity) (ids : SignupIds) : UserRecord :=
  ⟨ids.account.userId, identity.name, none, identity.email, ids.defaultProfileImageUrl⟩

/-- The row of the settings of the user, of accepted terms. -/
def userSettings (command : SignupCommand) (ids : SignupIds) : UserSettings :=
  ⟨ids.account.userId, normalizedConsentVersion command.termsVersion,
    normalizedConsentVersion command.privacyVersion, some ids.account.acceptedAt,
    some ids.account.acceptedAt⟩

/-- The row of the notification settings of the user. -/
def notificationSettings (command : SignupCommand) (ids : SignupIds) : NotificationSettings :=
  ⟨ids.account.userId, true, command.marketingConsent⟩

/-- The session of the user. -/
def authSession (ids : SignupIds) : AuthSession := ⟨ids.login.sessionId, ids.credentialsId, none⟩

/-- What is returned. -/
def tokens (ids : SignupIds) : TokenResult :=
  ⟨⟨ids.account.userId, ids.credentialsId, ids.login.sessionId, "user"⟩, ids.login.refreshToken.token⟩

variable [CaseFolding] [Digests]

/-- The entries of the rows of the auth module. -/
def entries (identity : ExternalIdentity) (ids : SignupIds) : List AuthEntry :=
  (credentials ids ids.account.userId).entries ++
    ((externalIdentityToRecord identity ids.credentialsId).entries ++
    ((authSession ids).entries ++
      (ids.login.refreshToken.row ids.credentialsId ids.login.sessionId).entries))

end SignupCommandUseCase

open SignupCommandUseCase

/-- The user ID and the identity of the redemption are new. -/
structure SignupIds.New (ids : SignupIds) (d : AppDatabase) : Prop where
  notifications : d.notifications.settings.find ids.account.userId = none
  billing : NewUser ids.account.userId ids.redemption.redemptionId d.billing

/-- An account has been created, with all that the modules have of it, and a first session. Neither
    the identity nor the other rows have been there before. -/
structure SignedUp [CaseFolding] [Digests] [BeneficiaryDigest] (identity : ExternalIdentity)
    (command : SignupCommand) (ids : SignupIds) (promotion : Option Promotion)
    (d d' : AppDatabase) : Prop where
  new : ∀ e ∈ entries identity ids, d.auth.hasEntry e = false
  consent : requireConsent command = .ok ()
  users : d'.users.users.rows = d.users.users.rows ++ [userRecord identity ids]
  userSettings : d'.users.userSettings.rows = d.users.userSettings.rows ++ [userSettings command ids]
  userEvents : d'.users.outboxEvents = d.users.outboxEvents ++
    [⟨ids.account.stamp, .userRegistered ids.account.userId identity.email identity.name⟩]
  notifications : d'.notifications = d.notifications.insertSettings (notificationSettings command ids)
  notificationSettings : d'.notifications.settings.rows = d.notifications.settings.rows ++
    [notificationSettings command ids]
  credentials : d'.auth.userCredentials.rows = d.auth.userCredentials.rows ++
    [credentials ids ids.account.userId]
  identities : d'.auth.externalIdentities.rows = d.auth.externalIdentities.rows ++
    [externalIdentityToRecord identity ids.credentialsId]
  sessions : d'.auth.authSessions.rows = d.auth.authSessions.rows ++ [authSession ids]
  refreshTokens : d'.auth.refreshTokens.rows = d.auth.refreshTokens.rows ++
    [ids.login.refreshToken.row ids.credentialsId ids.login.sessionId]
  authEvents : d'.auth.outboxEvents = d.auth.outboxEvents ++
    [⟨ids.stamp, .userCredentialCreated ids.credentialsId ids.account.userId "user"⟩]
  billing : d'.billing =
    promotion.elim d.billing fun p => ((redemptionCommand identity ids.account.userId).writes p
    ids.redeemedAt ids.redemption).granted ids.redemption.credit d.billing

/-! ## Writes -/

section

variable {ι : Type} [CaseFolding] [Digests] {P : Protocol ι AppDatabase AppLock AppStatement} {i : ι}
  {E : Post AppDatabase AppLock AppError} {w : AppDatabase → AppDatabase} {ms : List AppLock}
  {s : AppDatabase}
  {identity : ExternalIdentity} {command : SignupCommand} {ids : SignupIds}

/-- The rows of the users module. -/
def registerUser (identity : ExternalIdentity) (command : SignupCommand)
    (ids : SignupIds) : UsersDatabase → UsersDatabase :=
  .insertOutbox
    [⟨ids.account.stamp, .userRegistered ids.account.userId identity.email identity.name⟩] ∘
    .insertSettings (userSettings command ids) ∘ .insertUser (userRecord identity ids)

/-- The rows of the auth module. -/
def registerCredentials (identity : ExternalIdentity) (ids : SignupIds) : AuthDatabase →
    AuthDatabase :=
  .insertRefreshToken none (ids.login.refreshToken.row ids.credentialsId ids.login.sessionId) ∘
    .insertSession (authSession ids) ∘
      .insertOutbox
        [⟨ids.stamp, .userCredentialCreated ids.credentialsId ids.account.userId "user"⟩] ∘
        .insertIdentity (externalIdentityToRecord identity ids.credentialsId) ∘
          .insertCredential (credentials ids ids.account.userId)

/-- The session holds these entries of the auth module. -/
abbrev HoldsAuth : List AuthEntry → List AppLock → AppDatabase → Prop :=
  Protocol.Holds authPart .entry AuthDatabase.hasEntry

/-- The session holds these entries of the users module. -/
abbrev HoldsUsers : List UsersRow → List AppLock → AppDatabase → Prop :=
  Protocol.Holds usersPart .entry UsersDatabase.hasRow

/-- The session has taken the locks of the identity and its email, and since then others have
    changed the store under other locks only. -/
structure Synchronized (P : Protocol ι AppDatabase AppLock AppStatement) (i : ι)
    (identity : ExternalIdentity) (ms : List AppLock) (s : AppDatabase) : Prop where
  identityLock : .auth (.advisory (identityLockId identity.issuer identity.subject)) ∈ ms
  emailLock : ∀ email ∈ canonicalEmail identity,
    .auth (.advisory (emailLockId email)) ∈ ms ∧ ∃ ms₁ s₁, P.inv s₁ ∧
      P.cond i (.auth (.advisoryLock (emailLockId email))) s₁ ms₁ ∧
        P.Interf i [.auth (.advisory (emailLockId email))] s₁ s

theorem Synchronized.mono {ms' : List AppLock} {s' : AppDatabase}
    (h : Synchronized P i identity ms s) (hms : ms ⊆ ms')
    (hi : P.Interf i ms s s') : Synchronized P i identity ms' s' where
  identityLock := hms h.identityLock
  emailLock email he := by
    obtain ⟨hmem, ms₁, s₁, hinv, hcond, hi₁⟩ := h.emailLock email he
    exact ⟨hms hmem, ms₁, s₁, hinv, hcond,
      hi₁.trans (hi.anti (List.cons_subset.2 ⟨hmem, List.nil_subset _⟩))⟩

/-- There has been no account of the identity, or of its verified email, when the signup has looked
    for one. -/
structure Checked (P : Protocol ι AppDatabase AppLock AppStatement) (i : ι)
    (identity : ExternalIdentity) (d : AppDatabase) :
    Prop where
  owner : ∃ s, P.Interf i [] d s ∧ ownerOf identity s.auth = none
  emailOwner : identity.emailVerified = true → ∀ email ∈ canonicalEmail identity,
    ∃ s, P.Interf i [] d s ∧ emailOwner email s.auth = none

omit [CaseFolding] [Digests] in
/-- A session holds an advisory lock from when it is taken on. -/
theorem wp_advisoryLock {lockId : ℤ} {Q : Post AppDatabase AppLock Unit}
    (hQ : ∀ s', P.Interf i ms s s' → P.inv s' → P.cond i (.auth (.advisoryLock lockId)) s' ms →
      Q () w (.auth (.advisory lockId) :: ms) s')
    (hE : ∀ e w ms s', P.Interf i [] s s' → E e w ms s') :
    P.wp i Q E (AppTx.auth (advisoryLock lockId)) w ms s := by
  refine Protocol.wp_lift_exec.2 fun s' hi hinv =>
    ⟨fun hcond => ?_, hE _ _ _ s' hi.nil, hE _ _ _ s' hi.nil⟩
  show Q () (authPart.write id ∘ w) _ s'
  rw [Part.write_id]
  exact hQ s' hi hinv hcond

theorem wp_synchronize {Q : Post AppDatabase AppLock Unit}
    (hQ : ∀ ms' s', P.Interf i ms s s' → ms ⊆ ms' → Synchronized P i identity ms' s' → Q () w ms' s')
    (hE : ∀ e w ms s', P.Interf i [] s s' → E e w ms s') :
    P.wp i Q E (AppTx.auth (synchronize identity)) w ms s := by
  simp only [AppTx.auth, synchronize, Prog.bind_eq, Protocol.wp_lift_bind]
  refine wp_advisoryLock (fun s₁ hi₁ _ _ => ?_) hE
  rcases hemail : canonicalEmail identity with - | email
  · exact hQ _ s₁ hi₁ (List.subset_cons_self ..) ⟨List.mem_cons_self, by simp [hemail]⟩
  · refine wp_advisoryLock (fun s₂ hi₂ hinv hcond => ?_) fun e w ms s' hi => hE e w ms s'
      (hi₁.nil.trans hi)
    refine hQ _ s₂ (hi₁.trans (hi₂.anti (List.subset_cons_self ..)))
      (List.Subset.trans (List.subset_cons_self ..) (List.subset_cons_self ..))
      ⟨List.mem_cons_of_mem _ List.mem_cons_self, fun email' hemail' => ?_⟩
    rw [hemail] at hemail'
    cases hemail'
    exact ⟨List.mem_cons_self, _, s₂, hinv, hcond, .refl⟩

omit [Digests] in
/-- A signup goes on if it has found no account. -/
theorem wp_ensureNewUser {d : AppDatabase} {Q : Post AppDatabase AppLock Unit}
    (hQ : ∀ s', P.Interf i [] d s' → Checked P i identity d → Q () id [] s')
    (hE : ∀ e w ms s', P.Interf i [] d s' → E e w ms s') :
    P.wp i Q E (AppTx.auth (ensureNewUser identity)) id [] d := by
  simp only [AppTx.auth, ensureNewUser, findByExternalIdentity, AuthTx.select, AuthTx.exec,
    Prog.bind_eq, Protocol.wp_lift_bind]
  refine Protocol.wp_lift_query (fun s₁ hi₁ _ => ?_) hE
  split
  · exact hE _ _ _ s₁ hi₁
  · next hnone =>
    have howner : ∃ s, P.Interf i [] d s ∧ ownerOf identity s.auth = none := ⟨s₁, hi₁, hnone⟩
    split
    · next email hemail hverified =>
      simp only [findByVerifiedEmail, AuthTx.select, AuthTx.exec, Protocol.wp_lift_bind]
      refine Protocol.wp_lift_query (fun s₂ hi₂ _ => ?_) fun e w ms s' hi =>
        hE e w ms s' (hi₁.trans hi)
      split
      · exact hE _ _ _ s₂ (hi₁.trans hi₂)
      · next hnone' =>
        refine hQ s₂ (hi₁.trans hi₂) ⟨howner, fun _ email' hemail' => ?_⟩
        rw [hemail] at hemail'
        cases hemail'
        exact ⟨s₂, hi₁.trans hi₂, hnone'⟩
    · next hother =>
        exact hQ s₁ hi₁ ⟨howner, fun hverified email hemail => absurd hverified (hother email hemail)⟩

/-- A signup goes on under the locks of its identity, if it has found no account. -/
theorem wp_begin {d : AppDatabase} {Q : Post AppDatabase AppLock Unit}
    (hQ : ∀ ms' s', P.Interf i [] d s' → Checked P i identity d → Synchronized P i identity ms' s' →
      Q () id ms' s')
    (hE : ∀ e w ms s', P.Interf i [] d s' → E e w ms s') :
    P.wp i Q E (AppTx.auth do
      ensureNewUser identity
      synchronize identity) id [] d := by
  rw [AppTx.auth, Prog.bind_eq, Protocol.wp_lift_bind]
  refine wp_ensureNewUser (fun s₁ hi₁ hchecked => ?_) hE
  refine wp_synchronize (fun ms₂ s₂ hi₂ _ hsync => ?_) fun e w ms s' hi => hE e w ms s' (hi₁.trans hi)
  exact hQ ms₂ s₂ (hi₁.trans hi₂.nil) hchecked hsync

/-! ## Accounts -/

omit [CaseFolding] [Digests] in
theorem create_userRecord {user : UserRecord} {events : List (Stamped UsersEvent)}
    (h : UserRecord.create ids.account.userId identity.name identity.email
      ids.defaultProfileImageUrl ids.account.stamp =
      .ok (user, events)) : user = userRecord identity ids ∧
        events = [⟨ids.account.stamp,
          .userRegistered ids.account.userId identity.email identity.name⟩] := by
  rw [UserRecord.create] at h
  rcases hvalid : identity.email.forM Email.validate with e | ⟨⟩
  · rw [hvalid] at h
    cases h
  · rw [hvalid] at h
    cases h
    exact ⟨rfl, rfl⟩

omit [CaseFolding] [Digests] in
theorem accepted_of_requireConsent (h : requireConsent command = .ok ()) :
    command.termsAccepted = true ∧ command.privacyAccepted = true := by
  simp only [SignupCommandUseCase.requireConsent, Users.requireConsent] at h
  split at h
  · next hdetails =>
    simp only [Consent.details, List.append_eq_nil_iff] at hdetails
    obtain ⟨⟨⟨hterms, -⟩, -⟩, ⟨hprivacy, -⟩, -⟩ := hdetails
    exact ⟨by simpa using hterms, by simpa using hprivacy⟩
  · cases h

omit [CaseFolding] [Digests] in
theorem hasRow_of_insertUser {r : UserRecord} {d : UsersDatabase} {row : UsersRow}
    (h : (UsersDatabase.insertUser r d).hasRow row = false) : d.hasRow row = false := by
  rcases row with id | userId
  · rw [UsersDatabase.hasRow_user] at h ⊢
    exact fun q hq => h q (Table.mem_insert.2 (.inl hq))
  · exact h

omit [CaseFolding] [Digests] in
theorem hasRow_of_insertSettings {r : UserSettings} {d : UsersDatabase} {row : UsersRow}
    (h : (UsersDatabase.insertSettings r d).hasRow row = false) : d.hasRow row = false := by
  rcases row with id | userId
  · exact h
  · rw [UsersDatabase.hasRow_settings] at h ⊢
    exact fun q hq => h q (Table.mem_insert.2 (.inl hq))

omit [CaseFolding] [Digests] in
/-- The account is inserted, if the terms are accepted. -/
theorem wp_resolveUser {Q : Post AppDatabase AppLock UUID}
    (hconsent : requireConsent command = .ok ()) (hw : ∀ s, (w s).users = s.users)
    (hQ : ∀ ms' s', P.Interf i ms s s' → ms ⊆ ms' →
      HoldsUsers [.user ids.account.userId, .settings ids.account.userId] ms' s' →
      Q ids.account.userId (usersPart.write (registerUser identity command ids) ∘ w) ms' s')
    (hE : ∀ e w ms s', P.Interf i [] s s' → E e w ms s') :
    P.wp i Q E (AppTx.users (ResolveUserForLoginCommandUseCase.execute (return)
      { name := identity.name
        email := identity.email
        profileImageUrl := ids.defaultProfileImageUrl
        termsVersion := normalizedConsentVersion command.termsVersion
        privacyVersion := normalizedConsentVersion command.privacyVersion
        termsAccepted := command.termsAccepted
        privacyAccepted := command.privacyAccepted } ids.account)) w ms s := by
  have hlock : ∀ row, Protects (UsersLock.entry row) fun d : UsersDatabase =>
    d.hasRow row = false := UsersLock.Protects.entry
  obtain ⟨hterms, hprivacy⟩ := accepted_of_requireConsent hconsent
  rw [SignupCommandUseCase.requireConsent] at hconsent
  simp only [AppTx.users, ResolveUserForLoginCommandUseCase.execute, normalizedConsentVersion_idem,
    hconsent, UsersTx.lift, Prog.bind_eq, Prog.ret_bind]
  rcases hcreate :
    UserRecord.create ids.account.userId identity.name identity.email ids.defaultProfileImageUrl
      ids.account.stamp with e | ⟨user, events⟩
  · exact hE _ _ _ s .refl
  obtain ⟨rfl, rfl⟩ := create_userRecord hcreate
  simp only [Prog.ret_bind, SqlAlchemyUserRepository.createAccountState, Users.flushOutbox,
    UsersTx.insert, UsersTx.exec, Prog.bind_eq, Prog.pure_eq, Protocol.wp_lift_bind, hterms,
    hprivacy, ↓reduceIte]
  have hid : usersPart.write id ∘ w = w := by rw [Part.write_id, Function.id_comp]
  rw [← hid]
  have hrefl : P.Adding i usersPart UsersLock.entry UsersDatabase.hasRow ms s id [] ms s := .refl
  refine Protocol.wp_lift_insert_adding hrefl hw hlock (fun _ _ => hasRow_of_insertUser)
    (fun ms₁ s₁ h₁ => ?_) hE
  refine Protocol.wp_lift_insert_adding h₁ hw hlock (fun _ _ => hasRow_of_insertSettings)
    (fun ms₂ s₂ h₂ => ?_) hE
  rw [Protocol.wp_lift_bind]
  refine Protocol.wp_lift_insert_adding h₂ hw hlock (by exact fun _ _ h => h) (fun ms₃ s₃ h₃ => ?_) hE
  exact hQ ms₃ s₃ h₃.interf h₃.subset h₃.holds

omit [CaseFolding] [Digests] in
/-- The notification settings are inserted, as there are none. -/
theorem wp_initializeSettings {Q : Post AppDatabase AppLock NotificationSettings}
    (hw : ∀ s, (w s).notifications = s.notifications)
    (hnone : ∀ s', P.Interf i ms s s' → s'.notifications.settings.find ids.account.userId = none)
    (hQ : ∀ a ms' s', P.Interf i ms s s' → ms ⊆ ms' →
      Q a (notificationsPart.write (.insertSettings (notificationSettings command ids)) ∘ w) ms' s')
    (hE : ∀ e w ms s', P.Interf i [] s s' → E e w ms s') :
    P.wp i Q E (AppTx.notifications (UpdateNotificationSettingsCommandUseCase.execute (return)
      { userId := ids.account.userId, pushEnabled := none,
        marketingConsent := some command.marketingConsent })) w ms s := by
  simp only [AppTx.notifications, UpdateNotificationSettingsCommandUseCase.execute,
    SqlAlchemyNotificationRepository.updateSettings, NotificationsTx.insertOnConflict,
    NotificationsTx.select, NotificationsTx.exec, reduceCtorEq, not_false_eq_true, ne_eq,
    not_true_eq_false, or_true, ↓reduceIte, Prog.bind_eq, Prog.pure_eq, Protocol.wp_lift_bind]
  refine Protocol.wp_lift_exec_of_ok (fun s₁ a u hi₁ _ hrun => ?_) hE
  have hfind : (notificationsPart.get (w s₁)).settings.find ids.account.userId = none :=
    (congrArg (·.settings.find ids.account.userId) (hw s₁)).trans (hnone s₁ hi₁)
  simp only [Command.insertOnConflict, hfind] at hrun
  split at hrun
  · next h => cases h
  · cases hrun
  · cases hrun
    rw [Protocol.wp_lift_bind]
    refine Protocol.wp_lift_query (fun s₂ hi₂ _ => ?_) fun e w ms s' hi =>
      hE e w ms s' (hi₁.nil.trans hi)
    exact hQ _ _ s₂ (hi₁.trans (hi₂.anti (List.subset_append_right _ _)))
      (List.subset_append_of_subset_right _ (List.subset_append_right _ _))

omit [CaseFolding] [Digests] in
theorem hasEntry_of_subset {d d' : AuthDatabase} {e : AuthEntry} (h : d'.hasEntry e = false)
    (hcredentials : d.userCredentials.rows ⊆ d'.userCredentials.rows)
    (hidentities : d.externalIdentities.rows ⊆ d'.externalIdentities.rows)
    (hsessions : d.authSessions.rows ⊆ d'.authSessions.rows)
    (htokens : d.refreshTokens.rows ⊆ d'.refreshTokens.rows) :
    d.hasEntry e = false := by
  rw [AuthDatabase.hasEntry_eq_false] at h ⊢
  obtain ⟨h₁, h₂, h₃, h₄⟩ := h
  exact ⟨fun r hr => h₁ r (hcredentials hr), fun r hr => h₂ r (hidentities hr),
    fun r hr => h₃ r (hsessions hr), fun r hr => h₄ r (htokens hr)⟩

/-- The credentials, the identity, the session and the token are inserted. -/
theorem wp_createCredentials {Q : Post AppDatabase AppLock Unit} (hw : ∀ s, (w s).auth = s.auth)
    (hQ : ∀ ms' s', P.Interf i ms s s' → ms ⊆ ms' → HoldsAuth (entries identity ids) ms' s' →
      Q () (authPart.write (registerCredentials identity ids) ∘ w) ms' s')
    (hE : ∀ e w ms s', P.Interf i [] s s' → E e w ms s') :
    P.wp i Q E (AppTx.auth (createCredentials identity ids ids.account.userId)) w ms s := by
  have hlock : ∀ e, Protects (AuthLock.entry e) fun d : AuthDatabase => d.hasEntry e = false :=
    AuthLock.Protects.entry
  have hid : authPart.write id ∘ w = w := by rw [Part.write_id, Function.id_comp]
  have hinsert : ∀ {ρ κ : Type} [DecidableEq κ] {key : ρ → κ} {t : Table key} {r : ρ},
      t.rows ⊆ (t.insert r).rows :=
    fun hr => Table.mem_insert.2 (.inl hr)
  simp only [AppTx.auth, createCredentials, flushCredential, flushIdentity, Auth.flushOutbox,
    flushSession, flushRefreshToken, AuthTx.insert, AuthTx.exec, Prog.bind_eq, Protocol.wp_lift_bind]
  rw [← hid]
  have hrefl : P.Adding i authPart AuthLock.entry AuthDatabase.hasEntry ms s id [] ms s := .refl
  refine Protocol.wp_lift_insert_adding hrefl hw hlock ?_ (fun ms₁ s₁ h₁ => ?_) hE
  · exact fun _ _ h =>
      hasEntry_of_subset h hinsert (List.Subset.refl _) (List.Subset.refl _) (List.Subset.refl _)
  rw [Protocol.wp_lift_bind]
  refine Protocol.wp_lift_insert_adding h₁ hw hlock ?_ (fun ms₂ s₂ h₂ => ?_) hE
  · exact fun _ _ h =>
      hasEntry_of_subset h (List.Subset.refl _) hinsert (List.Subset.refl _) (List.Subset.refl _)
  rw [Protocol.wp_lift_bind]
  refine Protocol.wp_lift_insert_adding h₂ hw hlock ?_ (fun ms₃ s₃ h₃ => ?_) hE
  · exact fun _ _ h => h
  rw [Protocol.wp_lift_bind]
  refine Protocol.wp_lift_insert_adding h₃ hw hlock ?_ (fun ms₄ s₄ h₄ => ?_) hE
  · exact fun _ _ h =>
      hasEntry_of_subset h (List.Subset.refl _) (List.Subset.refl _) hinsert (List.Subset.refl _)
  refine Protocol.wp_lift_insert_adding h₄ hw hlock ?_ (fun ms₅ s₅ h₅ => ?_) hE
  · exact fun _ _ h =>
      hasEntry_of_subset h (List.Subset.refl _) (List.Subset.refl _) (List.Subset.refl _) hinsert
  exact hQ ms₅ s₅ h₅.interf h₅.subset h₅.holds

variable [BeneficiaryDigest]

/-- The redemption of a promotion, if there is one. -/
def redeemPromotion (identity : ExternalIdentity) (ids : SignupIds) (promotion : Option Promotion)
    (d : Database) : Database :=
  promotion.elim d fun p =>
    ((redemptionCommand identity ids.account.userId).writes p ids.redeemedAt ids.redemption).granted
    ids.redemption.credit d

variable (identity ids) in
omit [CaseFolding] [Digests] in
/-- A promotion is redeemed, if there is one for new users. -/
theorem wp_redeem {Q : Post AppDatabase AppLock Bool} (hw : ∀ s, (w s).billing = s.billing)
    (hnew : ∀ s', P.Interf i [] s s' →
      NewUser ids.account.userId ids.redemption.redemptionId s'.billing)
    (hQ : ∀ a promotion ms' s', P.Interf i ms s s' → ms ⊆ ms' →
      (Quiet P i s → promotion =
        (redemptionCommand identity ids.account.userId).promotion ids.redeemedAt s.billing) →
      Q a (billingPart.write (redeemPromotion identity ids promotion) ∘ w) ms' s')
    (hE : ∀ e w ms s', P.Interf i [] s s' → E e w ms s') :
    P.wp i Q E (AppTx.billing (redeem identity ids ids.account.userId)) w ms s := by
  simp only [AppTx.billing, redeem, create_beneficiaryKey, Tx.lift, Prog.bind_eq, Prog.ret_bind]
  have hbilling : ∀ s, billingPart.get (w s) = billingPart.get s := hw
  refine wp_redeemNew hbilling hnew (fun ms' s' hi hsub hnone => ?_)
    (fun p ms' s' hi hsub hsome => ?_) hE
  · have hid : billingPart.write (redeemPromotion identity ids none) ∘ w = w := by
      show billingPart.write id ∘ w = w
      rw [Part.write_id, Function.id_comp]
    exact hid ▸ hQ false none ms' s' hi hsub fun h => (hnone h).symm
  · exact hQ true (some p) ms' s' hi hsub fun h => (hsome h).symm

/-- What a signup writes. -/
def signUp (identity : ExternalIdentity) (command : SignupCommand) (ids : SignupIds)
    (promotion : Option Promotion) :
    AppDatabase → AppDatabase :=
  authPart.write (registerCredentials identity ids) ∘
    billingPart.write (redeemPromotion identity ids promotion) ∘
    notificationsPart.write (.insertSettings (notificationSettings command ids)) ∘
      usersPart.write (registerUser identity command ids)

omit [CaseFolding] [Digests] [BeneficiaryDigest] in
/-- Of a row that is not there, there is no row with its identity. -/
theorem id_ne_of_hasEntry {d : AuthDatabase} {row : AuthRow}
    (h : d.hasEntry (.primaryKey row) = false) :
    (∀ r ∈ d.userCredentials.rows, .credential r.id ≠ row) ∧
    (∀ r ∈ d.externalIdentities.rows, .identity r.id ≠ row) ∧
      (∀ r ∈ d.authSessions.rows, .session r.id ≠ row) ∧
      ∀ r ∈ d.refreshTokens.rows, .refreshToken r.id ≠ row := by
  obtain ⟨h₁, h₂, h₃, h₄⟩ := AuthDatabase.hasEntry_eq_false.1 h
  refine ⟨fun r hr hrow => h₁ r hr ?_, fun r hr hrow => h₂ r hr ?_, fun r hr hrow => h₃ r hr ?_,
    fun r hr hrow => h₄ r hr ?_⟩
  · exact hrow ▸ List.mem_cons_self
  · exact hrow ▸ List.mem_cons_self
  · exact hrow ▸ List.mem_cons_self
  · exact hrow ▸ List.mem_cons_self

/-- The writes of a signup are those of an account, if it holds their entries. -/
theorem signedUp_signUp {promotion : Option Promotion} (hconsent : requireConsent command = .ok ())
    (hauth : HoldsAuth (entries identity ids) ms s)
    (husers : HoldsUsers [.user ids.account.userId, .settings ids.account.userId] ms s)
    (hsettings : s.notifications.settings.find ids.account.userId = none) :
    SignedUp identity command ids promotion s (signUp identity command ids promotion s) where
  new e he := (hauth e he).2
  consent := hconsent
  users := Table.rows_insert
    (UsersDatabase.hasRow_user.1 (husers (.user ids.account.userId) (by simp)).2)
  userSettings :=
    Table.rows_insert
      (UsersDatabase.hasRow_settings.1 (husers (.settings ids.account.userId) (by simp)).2)
  userEvents := rfl
  notifications := rfl
  notificationSettings := Table.rows_insert fun q hq hid =>
    Table.find_eq_none.1 hsettings (List.mem_map.2 ⟨q, hq, hid⟩)
  credentials := by
    have h := (hauth (.primaryKey (.credential ids.credentialsId))
      (by simp [entries, credentials, UserCredential.entries])).2
    exact Table.rows_insert fun q hq hid => (id_ne_of_hasEntry h).1 q hq (congrArg _ hid)
  identities := by
    have h := (hauth (.primaryKey (.identity identity.id))
      (by simp [entries, externalIdentityToRecord,
      ExternalIdentityRecord.entries])).2
    exact Table.rows_insert fun q hq hid => (id_ne_of_hasEntry h).2.1 q hq (congrArg _ hid)
  sessions := by
    have h := (hauth (.primaryKey (.session ids.login.sessionId))
      (by simp [entries, authSession, AuthSession.entries])).2
    exact Table.rows_insert fun q hq hid => (id_ne_of_hasEntry h).2.2.1 q hq (congrArg _ hid)
  refreshTokens := by
    have h := (hauth (.primaryKey (.refreshToken ids.login.refreshToken.id))
      (by simp [entries, IssuedRefreshToken.row,
      RefreshToken.entries])).2
    exact Table.rows_insert fun q hq hid => (id_ne_of_hasEntry h).2.2.2 q hq (congrArg _ hid)
  authEvents := rfl
  billing := rfl

/-! ## Execution -/

/-- The session can commit what a signup has written. -/
structure Registers (P : Protocol ι AppDatabase AppLock AppStatement) (i : ι)
    (identity : ExternalIdentity) (command : SignupCommand) (ids : SignupIds)
    (promotion : Option Promotion) (d : AppDatabase) (ms : List AppLock)
    (s : AppDatabase) : Prop where
  checked : Checked P i identity d
  current : Quiet P i d →
    promotion = (redemptionCommand identity ids.account.userId).promotion ids.redeemedAt d.billing
  synchronized : Synchronized P i identity ms s
  signedUp : SignedUp identity command ids promotion s (signUp identity command ids promotion s)

/-- A signup commits an account, with all that the modules have of it, or raises. -/
theorem wp_register {d : AppDatabase} {Q : Post AppDatabase AppLock TokenResult}
    (hconsent : requireConsent command = .ok ()) (hnew : ∀ s, P.Interf i [] d s → ids.New s)
    (hcommit : ∀ promotion ms s, P.Interf i [] d s → P.inv s →
      Registers P i identity command ids promotion d ms s →
      P.inv (signUp identity command ids promotion s) ∧
      P.guar i ms s (signUp identity command ids promotion s) ∧
        Q (tokens ids) id [] (signUp identity command ids promotion s))
    (hE : ∀ e w ms s, P.Interf i [] d s → E e w ms s) :
    P.wp i Q E (register identity command ids) id [] d := by
  -- The redemption is given by its rule, and not unfolded before.
  obtain ⟨redemption, hredemption⟩ : ∃ p, p = redeem identity ids := ⟨_, rfl⟩
  rw [register, ← hredemption, Prog.bind_eq, Protocol.wp_bind]
  refine wp_begin (fun ms₂ s₂ hi₁₂ hchecked hsync => ?_) hE
  rw [Prog.bind_eq, Protocol.wp_bind]
  refine wp_resolveUser hconsent ?_ (fun ms₃ s₃ hi₃ hsub₃ husers => ?_) fun e w ms s' hi =>
    hE e w ms s' (hi₁₂.trans hi)
  · exact fun _ => rfl
  have hi₁₃ : P.Interf i [] d s₃ := hi₁₂.trans hi₃.nil
  rw [Prog.bind_eq, Protocol.wp_bind]
  refine wp_initializeSettings ?_ ?_ (fun _ ms₄ s₄ hi₄ hsub₄ => ?_) fun e w ms s' hi =>
    hE e w ms s' (hi₁₃.trans hi)
  · exact fun _ => rfl
  · exact fun s' hi => (hnew s' (hi₁₃.trans hi.nil)).notifications
  have hi₁₄ : P.Interf i [] d s₄ := hi₁₃.trans hi₄.nil
  rw [Prog.bind_eq, Protocol.wp_bind]
  apply hredemption ▸ wp_redeem identity ids
  · exact fun _ => rfl
  · exact fun s' hi => (hnew s' (hi₁₄.trans hi)).billing
  · intro _ promotion ms₅ s₅ hi₅ hsub₅ hcurrent
    have hi₁₅ : P.Interf i [] d s₅ := hi₁₄.trans hi₅.nil
    rw [Prog.bind_eq, Protocol.wp_bind]
    refine wp_createCredentials ?_ (fun ms₆ s₆ hi₆ hsub₆ hauth => ?_) fun e w ms s' hi =>
      hE e w ms s' (hi₁₅.trans hi)
    · exact fun _ => rfl
    have hi₁₆ : P.Interf i [] d s₆ := hi₁₅.trans hi₆.nil
    rw [Prog.bind_eq, Protocol.wp_bind]
    refine Protocol.wp_commitOr.2 fun s hi hinv => ⟨?_, hE _ _ _ s (hi₁₆.trans hi.nil)⟩
    -- What has been locked is still held.
    have hi₃ₛ : P.Interf i ms₃ s₃ s :=
      hi₄.trans (((hi₅.trans ((hi₆.trans (hi.anti hsub₆)).anti hsub₅))).anti hsub₄)
    have hsub : ms₃ ⊆ ms₆ := List.Subset.trans hsub₄ (List.Subset.trans hsub₅ hsub₆)
    refine hcommit promotion ms₆ s (hi₁₆.trans hi.nil) hinv ⟨hchecked, fun h => ?_, ?_, ?_⟩
    · obtain rfl := h s₄ hi₁₄
      exact hcurrent h
    · exact hsync.mono (List.Subset.trans hsub₃ hsub) (hi₃.trans (hi₃ₛ.anti hsub₃))
    · exact signedUp_signUp hconsent (hauth.interf AuthLock.Protects.entry hi)
        ((husers.interf UsersLock.Protects.entry hi₃ₛ).mono hsub)
          (hnew s (hi₁₆.trans hi.nil)).notifications
  · exact fun e w ms s' hi => hE e w ms s' (hi₁₄.trans hi)

/-- A signup commits an account, with all that the modules have of it, or nothing. -/
theorem wp_execute {d : AppDatabase} {Q : TokenResult → AppDatabase → Prop}
    {X : AppError → AppDatabase → Prop} (hnew : ∀ s, P.Interf i [] d s → ids.New s)
    (hcommit : ∀ promotion ms s, P.Interf i [] d s → P.inv s →
      Registers P i identity command ids promotion d ms s →
      P.inv (signUp identity command ids promotion s) ∧
      P.guar i ms s (signUp identity command ids promotion s) ∧
        Q (tokens ids) (signUp identity command ids promotion s))
    (hX : ∀ e s, P.Interf i [] d s → X e s) :
    P.wp i (fun a _ _ => Q a) (fun e _ _ => X e) (execute identity command ids) id [] d := by
  rw [execute]
  rcases hconsent : requireConsent command with e | ⟨⟩
  · exact hX _ d .refl
  · rw [Prog.tryCatch_eq, Protocol.wp_handle]
    refine wp_register hconsent hnew hcommit fun e w ms s hi => ?_
    rw [Prog.bind_eq, Protocol.wp_bind, Prog.tryCatch_eq, Protocol.wp_handle]
    refine Protocol.wp_rollbackOr.2 fun s' hi' _ => ?_
    have hraise := hX e s' (hi.trans hi'.nil)
    exact ⟨hraise, hraise⟩

/-! ## A signup alone -/

/-- There is no account of the identity, or of its verified email. -/
def Unregistered (identity : ExternalIdentity) (d : AuthDatabase) : Prop :=
  ownerOf identity d = none ∧
    (identity.emailVerified = true → ∀ email ∈ canonicalEmail identity, emailOwner email d = none)

/-- What a signup that is alone commits: an account, of an identity that has none. -/
def Registered (identity : ExternalIdentity) (command : SignupCommand) (ids : SignupIds)
    (d d' : AppDatabase) : Prop :=
  Unregistered identity d.auth ∧ SignedUp identity command ids
    ((redemptionCommand identity ids.account.userId).promotion ids.redeemedAt d.billing) d d'

/-- The protocol of a signup that is alone. -/
def signupAlone (identity : ExternalIdentity) (command : SignupCommand) (ids : SignupIds)
    (d : AppDatabase) :
    Protocol Unit AppDatabase AppLock AppStatement where
  inv s := s = d ∨ Registered identity command ids d s
  guar _ _ _ _ := True
  cond := Always

theorem meets_signupAlone {d : AppDatabase} (hnew : ids.New d) :
    (signupAlone identity command ids d).Meets
    (fun _ => execute identity command ids) d (fun _ a s =>
      a = tokens ids ∧ Registered identity command ids d s)
    fun _ _ s => s = d where
  inv := .inl rfl
  wp _ := by
    refine wp_execute (fun s hi => ?_) (fun promotion ms s hi _ h => ?_) fun e s hi => hi.eq
    · obtain rfl := hi.eq
      exact hnew
    · obtain rfl := hi.eq
      have hregistered :
          Registered identity command ids s (signUp identity command ids promotion s) := by
        refine ⟨⟨?_, fun hverified email hemail => ?_⟩, h.current (fun s' hi' => hi'.eq) ▸ h.signedUp⟩
        · obtain ⟨s', hi', howner⟩ := h.checked.owner
          obtain rfl := hi'.eq
          exact howner
        · obtain ⟨s', hi', howner⟩ := h.checked.emailOwner hverified email hemail
          obtain rfl := hi'.eq
          exact howner
      exact ⟨.inr hregistered, trivial, rfl, hregistered⟩
  stable_ret i _ _ _ := fun ⟨j, _, hj, _⟩ => absurd (Subsingleton.elim j i) hj
  stable_raise i _ _ _ := fun ⟨j, _, hj, _⟩ => absurd (Subsingleton.elim j i) hj

/-- A signup that is alone creates the account of an identity that has none, with all that the
    modules have of it, or leaves the store as it is. -/
theorem signup_all_or_nothing {d : AppDatabase}
    {s : System Unit AppDatabase AppStatement AppError TokenResult} (hnew : ids.New d)
    (hs : Reach Always (System.init (fun _ => execute identity command ids) d) s) :
    (s.store = d ∨ Registered identity command ids d s.store) ∧
      (∀ a, s.returned () = some a → a = tokens ids ∧ Registered identity command ids d s.store) ∧
      ∀ e, s.raised () = some e → s.store = d := by
  obtain ⟨hinv, hret, hraise⟩ := (meets_signupAlone hnew).sound hs
  exact ⟨hinv, hret (), hraise ()⟩

end

/-! ## A signup with a promotion -/

/-- Digests of one digit. -/
@[reducible] def zeroDigest : BeneficiaryDigest where
  hexdigest _ := String.ofList (List.replicate 64 '0')
  length_hexdigest _ := by rw [String.length_ofList, List.length_replicate]
  hex _ c hc := by
    rw [String.toList_ofList, List.mem_replicate] at hc
    rw [hc.2]
    rfl

/-- A promotion for new users. -/
def signupPromotion : Promotion where
  id := .ofNat 9
  name := "signup"
  active := true
  startsAt := 0
  expiresAt := none
  maxRedemptions := none
  timesRedeemed := 0
  maxRedemptionsPerUser := 1
  context := some .signup
  benefitAmount := ⟨4, by decide⟩

/-- A store with a promotion, before the first account. -/
def beforeSignups : AppDatabase :=
  { AppDatabase.empty with
    billing := { Database.empty with promotions := .insert signupPromotion .empty } }

def signupCommand : SignupCommand := ⟨true, true, some "v1", some "v1", true⟩

def signupIds : SignupIds :=
  ⟨⟨.ofNat 1, ⟨.ofNat 2, 0⟩, 0⟩, none, 1, ⟨.ofNat 3, ⟨.ofNat 4, 1⟩, ⟨.ofNat 5, ⟨.ofNat 6, 1⟩⟩⟩,
    .ofNat 7, ⟨.ofNat 8, 2⟩, ⟨.ofNat 10, ⟨.ofNat 11, "token", 9⟩, 2⟩⟩

theorem signup_registers : letI := lowerCase; letI : Digests := ⟨id, fun _ => 0⟩; letI := zeroDigest
    ∃ s : System Unit AppDatabase AppStatement AppError TokenResult,
      Reach Always
        (System.init (fun _ => execute (googleIdentity 2 "first") signupCommand signupIds)
          beforeSignups) s ∧
        s.returned () = some (tokens signupIds) ∧
          Registered (googleIdentity 2 "first") signupCommand signupIds beforeSignups s.store := by
  let _ := lowerCase
  let _ : Digests := ⟨id, fun _ => 0⟩
  let _ := zeroDigest
  have hnew : signupIds.New beforeSignups :=
    ⟨rfl, rfl, fun _ h => absurd h List.not_mem_nil, fun _ h => absurd h List.not_mem_nil⟩
  obtain ⟨s, hs, -, hprog⟩ := exists_reach_alone (fun _ => false)
    (execute (googleIdentity 2 "first") signupCommand signupIds) beforeSignups
  have hresult :
    ((execute (googleIdentity 2 "first") signupCommand signupIds).alone (fun _ => false) beforeSignups
      beforeSignups).result.toOption = some (tokens signupIds) := by decide +kernel
  generalize ((execute (googleIdentity 2 "first") signupCommand signupIds).alone
    (fun _ => false) beforeSignups beforeSignups).result =
    result at hprog hresult
  rcases result with e | a
  · cases hresult
  · cases hresult
    have hreturned := System.returned_eq_some.2 hprog
    exact ⟨s, hs, hreturned, ((signup_all_or_nothing hnew hs).2.1 _ hreturned).2⟩

end Boat.App
