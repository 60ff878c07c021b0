import Boat.App.Sessions
import Boat.Bystanders
import Boat.ReadCommitted.Passed
import Mathlib.Data.Fintype.Option

/-!
# Withdrawals among other requests

An account is withdrawn while requests of its user and of others are in progress: requests that
grant, redeem or use credits, register push tokens or update the notification settings. They do not
look at the user, and the withdrawal locks no more than the rows that it deletes.

* `withdrawal_clears`: what a withdrawal that has returned leaves of the account. What only it
  deletes is gone in any interleaving (`noAccount_of_returned`, `noUser_of_returned`); what the user
  may add is gone if the user adds nothing after the `DELETE` (`noCredits_of_returned`,
  `noPushTokens_of_returned`), whatever others do.
* `credits_after_withdrawal`: a grant that does.
-/

namespace Boat.App

open ReadCommitted Auth Users Notifications

/-! ## What is deleted -/

/-- The tables of the auth module have nothing of the user, who has no other credentials than
    these. -/
structure NoAccount (userId credentialsId : UUID) (d : AuthDatabase) : Prop where
  credentials : ∀ r ∈ d.userCredentials.rows, r.userId ≠ userId
  identities : ∀ r ∈ d.externalIdentities.rows, r.credentialsId ≠ credentialsId
  sessions : ∀ r ∈ d.authSessions.rows, r.credentialsId ≠ credentialsId
  refreshTokens : ∀ r ∈ d.refreshTokens.rows, r.credentialsId ≠ credentialsId

/-- The credentials of the user are these, and the rows that refer to them do so by a foreign key. -/
structure Owns (userId credentialsId : UUID) (d : AuthDatabase) : Prop where
  credentials : ∀ r ∈ d.userCredentials.rows, r.userId = userId ↔ r.id = credentialsId
  identities : ∀ r ∈ d.externalIdentities.rows, ∃ q ∈ d.userCredentials.rows, q.id = r.credentialsId
  sessions : ∀ r ∈ d.authSessions.rows, ∃ q ∈ d.userCredentials.rows, q.id = r.credentialsId
  refreshTokens : ∀ r ∈ d.refreshTokens.rows, ∃ q ∈ d.userCredentials.rows, q.id = r.credentialsId

/-- The tables of the users module have nothing of the user. -/
structure NoUser (userId : UUID) (d : UsersDatabase) : Prop where
  users : ∀ r ∈ d.users.rows, r.id ≠ userId
  settings : ∀ r ∈ d.userSettings.rows, r.userId ≠ userId

/-- There are no credits of the user. -/
structure NoCredits (userId : UUID) (d : Database) : Prop where
  snapshot : d.userCredits userId = none
  ledger : ∀ t ∈ d.creditTransactions, t.userId ≠ userId

/-- There are no push tokens of the user. -/
def NoPushTokens (userId : UUID) (d : NotificationsDatabase) : Prop :=
  ∀ r ∈ d.pushTokens.rows, r.userId ≠ userId

/-- The push tokens that the user has in the second store are in the first. -/
def NoNewPushTokens (userId : UUID) (d d' : NotificationsDatabase) : Prop :=
  ∀ r ∈ d'.pushTokens.rows, r.userId = userId → r ∈ d.pushTokens.rows

theorem NoCredits.same {userId : UUID} {d d' : Database} (h : NoCredits userId d)
    (hs : SameCredits userId d d') :
    NoCredits userId d' where
  snapshot := hs.snapshot.trans h.snapshot
  ledger t ht huser := by
    have hmem : t ∈ d.creditTransactions.filter (·.userId = userId) :=
      hs.ledger ▸ List.mem_filter.2 ⟨ht, decide_eq_true huser⟩
    exact h.ledger t (List.mem_filter.1 hmem).1 huser

theorem NoPushTokens.noNew {userId : UUID} {d d' : NotificationsDatabase} (h : NoPushTokens userId d)
    (hs : NoNewPushTokens userId d d') : NoPushTokens userId d' :=
  fun r hr huser => h r (hs r hr huser) huser

theorem NoNewPushTokens.trans {userId : UUID} {d d' d'' : NotificationsDatabase}
    (h : NoNewPushTokens userId d d') (h' : NoNewPushTokens userId d' d'') :
    NoNewPushTokens userId d d'' :=
  fun r hr huser => h r (h' r hr huser) huser

section Auth

variable {v : AuthDatabase} {rows : List AuthRow}

/-! A `DELETE` leaves none of the rows that it has found. -/

theorem notMem_of_refreshToken {r : RefreshToken}
    (hr : r ∈ (AuthDatabase.deleteRows (v.cascade rows) v).refreshTokens.rows) :
    .refreshToken r.id ∉ rows := by
  obtain ⟨hmem, hnot⟩ := Table.mem_filter.1 hr
  refine fun h => of_decide_eq_true hnot (List.mem_append_right _ ?_)
  exact List.mem_map_of_mem (List.mem_filter.2 ⟨hmem, decide_eq_true (.inl h)⟩)

theorem notMem_of_session {r : AuthSession}
    (hr : r ∈ (AuthDatabase.deleteRows (v.cascade rows) v).authSessions.rows) :
    .session r.id ∉ rows := by
  obtain ⟨hmem, hnot⟩ := Table.mem_filter.1 hr
  refine fun h => of_decide_eq_true hnot (List.mem_append_left _ (List.mem_append_right _ ?_))
  exact List.mem_map_of_mem (List.mem_filter.2 ⟨hmem, decide_eq_true (.inl h)⟩)

theorem notMem_of_identity {r : ExternalIdentityRecord}
    (hr : r ∈ (AuthDatabase.deleteRows (v.cascade rows) v).externalIdentities.rows) :
    .identity r.id ∉ rows := by
  obtain ⟨hmem, hnot⟩ := Table.mem_filter.1 hr
  refine fun h =>
    of_decide_eq_true hnot
      (List.mem_append_left _ (List.mem_append_left _ (List.mem_append_right _ ?_)))
  exact List.mem_map_of_mem (List.mem_filter.2 ⟨hmem, decide_eq_true (.inl h)⟩)

theorem notMem_of_credential {r : UserCredential}
    (hr : r ∈ (AuthDatabase.deleteRows (v.cascade rows) v).userCredentials.rows) :
    .credential r.id ∉ rows := by
  obtain ⟨hmem, hnot⟩ := Table.mem_filter.1 hr
  refine fun h =>
    of_decide_eq_true hnot
      (List.mem_append_left _ (List.mem_append_left _ (List.mem_append_left _ ?_)))
  exact List.mem_map_of_mem (List.mem_filter.2 ⟨hmem, decide_eq_true h⟩)

variable {ι : Type} {P : Protocol ι AuthDatabase AuthLock AuthStatement} {i : ι}
  {userId credentialsId : UUID}
  {d : AuthDatabase}

/-- While the others leave the tables alone, everything of the account is found and deleted. -/
theorem wp_deleteAccount {Q : Post AuthDatabase AuthLock Unit}
    (hP : ∀ ks d', P.Interf i ks d d' → d' = d) (hcond : ∀ s ks, P.cond i s d ks)
    (howns : Owns userId credentialsId d)
    (hQ : ∀ w ks, NoAccount userId credentialsId (w d) → Q () w ks d) : P.wp i Q (fun _ _ _ _ => True)
      (SqlAlchemyCredentialRepository.deleteAccountAuthState userId credentialsId) id [] d := by
  have hdelete : ∀ {f : AuthDatabase → List AuthRow} {w ks} {Q : Post AuthDatabase AuthLock Unit},
      (∀ w' ks', w' d = AuthDatabase.deleteRows ((w d).cascade (f (w d))) (w d) → Q () w' ks' d) →
      P.wp i Q (fun _ _ _ _ => True) (SqlAlchemyCredentialRepository.deleteWhere f) w ks d := by
    intro f w ks Q hQ
    refine wp_deleteWhere fun ks' d₁ d₂ hi₁ _ hi₂ _ => ?_
    obtain rfl := hP _ _ hi₁
    obtain rfl := hP _ _ hi₂
    exact hQ _ _ rfl
  rw [SqlAlchemyCredentialRepository.deleteAccountAuthState]
  simp only [Prog.bind_eq, Protocol.wp_bind_eq, Auth.wp_select, id, Prog.pure_eq]
  intro d₁ hi₁ _ _
  obtain rfl := hP _ _ hi₁
  generalize howned : d₁.userCredentials.rows.find? _ = owned
  rcases owned with - | credentials
  · -- The account is not there, and so nothing refers to it.
    have hnone : ∀ r ∈ d₁.userCredentials.rows, r.id ≠ credentialsId := by
      intro r hr hid
      have huser := (howns.credentials r hr).2 hid
      simpa [hid, huser] using List.find?_eq_none.1 howned r hr
    have hrefers : ∀ {id : UUID}, (∃ q ∈ d₁.userCredentials.rows, q.id = id) →
        id ≠ credentialsId := by
      rintro id ⟨q, hq, rfl⟩
      exact hnone q hq
    exact hQ id [] ⟨fun r hr h => hnone r hr ((howns.credentials r hr).1 h),
      fun r hr => hrefers (howns.identities r hr), fun r hr =>
        hrefers (howns.sessions r hr), fun r hr => hrefers (howns.refreshTokens r hr)⟩
  obtain ⟨hid, -⟩ : credentials.id = credentialsId ∧ credentials.userId = userId := by
    simpa using List.find?_some howned
  simp only [Protocol.wp_bind_eq, hid]
  refine hdelete fun w₁ _ h₁ => hdelete fun w₂ _ h₂ => hdelete fun w₃ _ h₃ =>
    hdelete fun w₄ ks h₄ => hQ w₄ ks ?_
  generalize w₁ d₁ = v₁ at h₁ h₂
  generalize w₂ d₁ = v₂ at h₂ h₃
  generalize w₃ d₁ = v₃ at h₃ h₄
  rw [h₄]
  -- A later `DELETE` keeps what an earlier one has left.
  constructor
  · intro r hr huser
    have hr₃ := (Table.mem_filter.1 hr).1
    have hr₀ : r ∈ d₁.userCredentials.rows := by
      rw [h₃] at hr₃
      have hr₂ := (Table.mem_filter.1 hr₃).1
      rw [h₂] at hr₂
      have hr₁ := (Table.mem_filter.1 hr₂).1
      rw [h₁] at hr₁
      exact (Table.mem_filter.1 hr₁).1
    exact notMem_of_credential hr (List.mem_map_of_mem (List.mem_filter.2
      ⟨hr₃, decide_eq_true ((howns.credentials r hr₀).1 huser)⟩))
  · refine Table.forall_filter fun r hr hc => ?_
    rw [h₃] at hr
    exact notMem_of_identity hr
      (List.mem_map_of_mem (List.mem_filter.2 ⟨(Table.mem_filter.1 hr).1, decide_eq_true hc⟩))
  · refine Table.forall_filter ?_
    rw [h₃]
    refine Table.forall_filter fun r hr hc => ?_
    rw [h₂] at hr
    exact notMem_of_session hr
      (List.mem_map_of_mem (List.mem_filter.2 ⟨(Table.mem_filter.1 hr).1, decide_eq_true hc⟩))
  · refine Table.forall_filter ?_
    rw [h₃]
    refine Table.forall_filter ?_
    rw [h₂]
    refine Table.forall_filter fun r hr hc => ?_
    rw [h₁] at hr
    exact notMem_of_refreshToken hr
      (List.mem_map_of_mem (List.mem_filter.2 ⟨(Table.mem_filter.1 hr).1, decide_eq_true hc⟩))

end Auth

/-! The other modules delete what they have. -/

section Parts

variable {ι : Type} {i : ι} {userId : UUID} {stamp : Stamp}

theorem wp_withdrawalCleanup {P : Protocol ι UsersDatabase UsersLock UsersStatement}
    {d : UsersDatabase} {ks : List UsersLock} {Q : Post UsersDatabase UsersLock Unit}
    (hP : ∀ ks d', P.Interf i ks d d' → d' = d) (hQ : ∀ w ks, NoUser userId (w d) → Q () w ks d) :
    P.wp i Q (fun _ _ _ _ => True)
      (WithdrawalCleanupCommandUseCase.execute (return) userId stamp) id ks d := by
  have hdelete : ∀ {s} {f : UsersDatabase → List UsersRow} {w ks}
      {Q : Post UsersDatabase UsersLock Unit},
        (∀ w' ks', w' d = UsersDatabase.deleteRows (f (w d)) (w d) → Q () w' ks' d) →
        P.wp i Q (fun _ _ _ _ => True) (UsersTx.deleteWhere s f) w ks d := by
    intro s f w ks Q hQ
    simp only [UsersTx.deleteWhere, UsersTx.exec, Prog.bind_eq, Protocol.wp_bind_eq, Prog.pure_eq]
    rw [Protocol.wp_modify (X := fun _ _ => True)]
    refine fun d' hi _ => ⟨fun _ => ?_, trivial⟩
    obtain rfl := hP _ _ hi
    exact hQ _ _ rfl
  simp only [WithdrawalCleanupCommandUseCase.execute, SqlAlchemyUserRepository.deleteAccountState,
    Prog.bind_eq, Protocol.wp_bind_eq, Prog.pure_eq]
  refine hdelete fun w₁ _ h₁ => hdelete fun w₂ _ h₂ => ?_
  refine Protocol.wp_insert (X := fun _ _ => True) (fun d' hi _ _ _ => ?_)
    (fun _ _ _ _ _ _ _ _ _ => trivial)
    fun _ _ => trivial
  obtain rfl := hP _ _ hi
  refine hQ _ _ ?_
  show NoUser userId (UsersDatabase.insertOutbox _ (w₂ d'))
  rw [h₂]
  constructor
  · intro r hr hid
    obtain ⟨hr, hnot⟩ := Table.mem_filter.1 hr
    exact of_decide_eq_true hnot
      (List.mem_flatMap.2 ⟨r, List.mem_filter.2 ⟨hr, decide_eq_true hid⟩, List.mem_cons_self⟩)
  · refine Table.forall_filter ?_
    rw [h₁]
    intro r hr huser
    obtain ⟨hr, hnot⟩ := Table.mem_filter.1 hr
    exact of_decide_eq_true hnot (List.mem_map_of_mem (List.mem_filter.2 ⟨hr, decide_eq_true huser⟩))

theorem wp_deleteUserCredits {P : Protocol ι Database LockKey Statement} {d : Database}
    {ks : List LockKey} {Q : Post Database LockKey Unit}
    (hP : ∀ ks d₁ d₂, P.Interf i ks d₁ d₂ → SameCredits userId d₁ d₂)
    (hQ : ∀ w ks d₁, (∀ d₂, SameCredits userId d₁ d₂ → NoCredits userId (w d₂)) → Q () w ks d₁) :
    P.wp i Q (fun _ _ _ _ => True)
      (DeleteUserCreditsCommandUseCase.execute (deferredCommitUnitOfWork none) userId stamp)
        id ks d := by
  simp only [DeleteUserCreditsCommandUseCase.execute, SqlAlchemyCreditRepository.deleteByUserId,
    Tx.exec, Prog.bind_eq, Protocol.wp_bind_eq, Protocol.wp_exec, Command.modify]
  refine fun d₁ hi₁ _ => ⟨fun _ d₂ hi₂ _ => ⟨fun _ => ?_, trivial, trivial⟩, trivial, trivial⟩
  refine (wp_publish (X := fun _ _ => True)).2 fun d₃ hi₃ _ =>
    ⟨fun _ => hQ _ _ _ fun d₄ h₄ => ?_, trivial⟩
  have h₃ : SameCredits userId d₂ d₄ := (hP _ _ _ hi₃).trans h₄
  have h₁ : SameCredits userId d₁ d₄ := (hP _ _ _ hi₂).trans h₃
  have hledger : ∀ t ∈ (Database.deleteTransactions (d₁.creditTransactions.filter (·.userId = userId))
      d₄).creditTransactions, t.userId ≠ userId := by
    intro t ht huser
    obtain ⟨ht, hnot⟩ := List.mem_filter.1 ht
    -- The row was there when the rows were looked for.
    refine of_decide_eq_true hnot (h₁.ledger ▸ List.mem_filter.2 ⟨ht, decide_eq_true huser⟩)
  show NoCredits userId
    (Database.insertOutbox _ ((if (d₂.userCredits userId).isSome then Database.deleteUserCredit userId
    else id) (Database.deleteTransactions (d₁.creditTransactions.filter (·.userId = userId)) d₄)))
  split
  · exact ⟨Function.update_self .., hledger⟩
  · next hnone => exact ⟨h₃.snapshot.trans (Option.not_isSome_iff_eq_none.1 hnone), hledger⟩

theorem wp_deleteUserPushTokens
    {P : Protocol ι NotificationsDatabase NotificationsLock NotificationsStatement}
    {d : NotificationsDatabase} {ks : List NotificationsLock}
    {Q : Post NotificationsDatabase NotificationsLock Unit}
    (hP : ∀ ks d₁ d₂, P.Interf i ks d₁ d₂ → NoNewPushTokens userId d₁ d₂)
    (hQ : ∀ w ks d₁, (∀ d₂, NoNewPushTokens userId d₁ d₂ → NoPushTokens userId (w d₂)) →
      Q () w ks d₁) :
    P.wp i Q (fun _ _ _ _ => True)
      (DeleteUserPushTokensCommandUseCase.execute (return) userId) id ks d := by
  simp only [DeleteUserPushTokensCommandUseCase.execute, SqlAlchemyPushTokenRepository.deleteByUserId,
    NotificationsTx.select, NotificationsTx.exec, Prog.bind_eq, Protocol.wp_bind_eq, Prog.pure_eq]
  rw [Protocol.wp_query (X := fun _ _ => True)]
  refine fun d₁ hi₁ _ => ⟨fun _ => ?_, trivial⟩
  rw [Protocol.wp_modify (X := fun _ _ => True)]
  refine fun d₂ hi₂ _ => ⟨fun _ => hQ _ _ _ fun d₃ h₃ r hr huser => ?_, trivial⟩
  obtain ⟨hr, hnot⟩ := Table.mem_filter.1 hr
  -- The row was there when the rows were looked for, and when they were deleted.
  have hr₂ : r ∈ d₂.pushTokens.rows := h₃ r hr huser
  have hr₁ : r ∈ d₁.pushTokens.rows := hP _ _ _ hi₂ r hr₂ huser
  refine of_decide_eq_true hnot
    (List.mem_map_of_mem (List.mem_filter.2 ⟨hr₂, decide_eq_true ⟨?_, huser⟩⟩))
  exact List.mem_map_of_mem (List.mem_filter.2 ⟨hr₁, decide_eq_true huser⟩)

end Parts

/-! How the programs start and end. -/

theorem deferred_deleteAccountAuthState (userId credentialsId : UUID)
    (events : List (Stamped AuthEvent)) :
    ((SqlAlchemyCredentialRepository.deleteAccountAuthState userId credentialsId).bind fun _ =>
      Auth.flushOutbox events).Deferred := by
  have hdelete : ∀ f, (SqlAlchemyCredentialRepository.deleteWhere f).Deferred := fun f =>
    .bind (.exec ..) fun _ => .bind (.exec ..) fun _ => trivial
  refine .bind (.bind (.exec ..) fun owned => ?_) fun _ => .exec ..
  rcases owned with - | credentials
  · trivial
  · exact .bind (hdelete _) fun _ => .bind (hdelete _) fun _ => .bind (hdelete _) fun _ => hdelete _

/-- The credits are deleted by two statements, of which the first comes first. -/
theorem first_deleteUserCredits (userId : UUID) (stamp : Stamp) : ∃ act next,
    DeleteUserCreditsCommandUseCase.execute (deferredCommitUnitOfWork none) userId stamp =
      .stmt (.deleteTransactions userId) act next ∧
      ∀ v, (next v).Without (.deleteTransactions userId) := by
  simp only [DeleteUserCreditsCommandUseCase.execute, SqlAlchemyCreditRepository.deleteByUserId,
    Tx.exec, publish, Prog.bind_eq, Prog.bind_assoc]
  refine Prog.exists_stmt_exec fun _ => .bind (Prog.without_exec Statement.noConfusion) fun _ => ?_
  exact .bind (Prog.without_exec Statement.noConfusion) fun _ => trivial

/-- The push tokens are looked for first. -/
theorem first_deleteUserPushTokens (userId : UUID) : ∃ act next,
    DeleteUserPushTokensCommandUseCase.execute (return) userId =
      .stmt (.findPushTokens userId) act next ∧
      ∀ v, (next v).Without (.findPushTokens userId) := by
  simp only [DeleteUserPushTokensCommandUseCase.execute, SqlAlchemyPushTokenRepository.deleteByUserId,
    NotificationsTx.select, NotificationsTx.exec, Prog.bind_eq, Prog.bind_assoc]
  exact Prog.exists_stmt_exec fun _ =>
    .bind (Prog.without_exec NotificationsStatement.noConfusion) fun _ => trivial

/-! ## Requests -/

/-- A request that may run while an account is withdrawn. -/
inductive UserRequest
  | billing (request : Request)
  | registerDeviceToken (command : RegisterDeviceTokenCommand) (pushTokenId : UUID) (now : Instant)
  | updateSettings (command : UpdateNotificationSettingsCommand)

inductive UserResponse
  | billing (response : Response)
  | pushToken (pushToken : UserPushToken)
  | settings (settings : NotificationSettings)
  | withdrawn

namespace UserRequest

/-- The program of a request. -/
def prog [CaseFolding] : UserRequest → AppTx UserResponse
  | .billing request => AppTx.billing do return .billing (← request.prog)
  | .registerDeviceToken command pushTokenId now => AppTx.notifications do
    return .pushToken
      (← RegisterDeviceTokenCommandUseCase.execute NotificationsTx.commit command pushTokenId now)
  | .updateSettings command => AppTx.notifications do
    return .settings
      (← UpdateNotificationSettingsCommandUseCase.execute NotificationsTx.commit command)

/-- The request changes the credits of the user. -/
def IsBilling (userId : UUID) : UserRequest → Prop
  | .billing request => request.userId = userId
  | _ => False

/-- The request registers a push token of the user. -/
def IsRegistration (userId : UUID) : UserRequest → Prop
  | .registerDeviceToken command _ _ => command.userId = userId
  | _ => False

/-- What the request leaves alone of the account of a user. -/
structure Spares (userId : UUID) (r : UserRequest) (d d' : AppDatabase) : Prop where
  auth : d'.auth = d.auth
  users : d'.users = d.users
  billing : ¬r.IsBilling userId → SameCredits userId d.billing d'.billing
  pushTokens : ¬r.IsRegistration userId → NoNewPushTokens userId d.notifications d'.notifications

variable {userId : UUID}

theorem spares_refl (r : UserRequest) (d : AppDatabase) : r.Spares userId d d :=
  ⟨rfl, rfl, fun _ => .refl userId _, fun _ _ hr _ => hr⟩

theorem Spares.trans {r : UserRequest} {d d' d'' : AppDatabase} (h : r.Spares userId d d')
    (h' : r.Spares userId d' d'') :
    r.Spares userId d d'' where
  auth := h'.auth.trans h.auth
  users := h'.users.trans h.users
  billing hr := (h.billing hr).trans (h'.billing hr)
  pushTokens hr := (h.pushTokens hr).trans (h'.pushTokens hr)

/-- The registration of another user adds no push token to this one. -/
theorem writes_registerDeviceToken {command : RegisterDeviceTokenCommand} {pushTokenId : UUID}
    {now : Instant} (huser : command.userId ≠ userId) :
    (RegisterDeviceTokenCommandUseCase.execute NotificationsTx.commit command pushTokenId now).Writes
      fun w => ∀ d, NoNewPushTokens userId d (w d) := by
  rw [RegisterDeviceTokenCommandUseCase.execute]
  split
  · trivial
  · refine .bind (.bind ?_ fun _ => .bind ?_ fun record => ?_) fun _ => .bind
      (Prog.writes_commitOr _) fun _ => trivial
    · refine (Prog.within_insertOnConflict (fun _ _ hr _ => hr)
        (fun q d r hr hr' => ?_) fun d r hr hr' => ?_).2
      · obtain ⟨hr, -⟩ | ⟨q, -, -, rfl⟩ := NotificationsDatabase.mem_updatePushToken.1 hr
        · exact hr
        · exact absurd hr' huser
      · obtain hr | ⟨rfl, -⟩ := Table.mem_insert.1 hr
        · exact hr
        · exact absurd hr' huser
    · exact (Prog.within_query fun _ _ hr _ => hr).2
    · split
      · trivial
      · trivial

theorem writes_updateSettings {command : UpdateNotificationSettingsCommand} :
    (UpdateNotificationSettingsCommandUseCase.execute NotificationsTx.commit command).Writes
      fun w => ∀ d, (w d).pushTokens = d.pushTokens := by
  refine .bind ?_ fun _ => .bind (Prog.writes_commitOr _) fun _ => trivial
  simp only [SqlAlchemyNotificationRepository.updateSettings, NotificationsTx.insertOnConflict,
    NotificationsTx.select, NotificationsTx.exec, Prog.bind_eq, Prog.pure_eq]
  have hselect : ∀ {s : NotificationsStatement}
      {f : NotificationsDatabase → Option NotificationSettings},
        (Prog.exec s (NotificationsError.fault s) (.query (fun _ => []) f)).Writes
          fun w : NotificationsDatabase → NotificationsDatabase =>
            ∀ d, (w d).pushTokens = d.pushTokens := fun {_ _} =>
    (Prog.within_query (fun _ => rfl)).2
  split
  · exact .bind (Prog.within_insertOnConflict (fun _ => rfl) (fun _ _ => rfl) fun _ => rfl).2 fun _ =>
      .bind hselect fun _ => trivial
  · exact .bind hselect fun _ => trivial

variable [CaseFolding]

theorem writes_prog (r : UserRequest) : r.prog.Writes fun w => ∀ d, r.Spares userId d (w d) := by
  cases r with
  | billing request =>
    by_cases huser : request.userId = userId
    · exact .lift (.of_forall (W := fun _ => True) (fun _ => trivial) _) fun w _ d =>
        ⟨rfl, rfl, fun h => absurd huser h, fun _ _ hr _ => hr⟩
    · refine .lift (W := LeavesCredits userId)
        (.bind (request.writes_prog huser) fun _ => trivial) fun w hw d => ?_
      exact ⟨rfl, rfl, fun _ => hw d.billing, fun _ _ hr _ => hr⟩
  | registerDeviceToken command pushTokenId now =>
    by_cases huser : command.userId = userId
    · exact .lift (.of_forall (W := fun _ => True) (fun _ => trivial) _) fun w _ d =>
        ⟨rfl, rfl, fun _ => .refl userId _, fun h => absurd huser h⟩
    · refine .lift (.bind (writes_registerDeviceToken huser) fun _ => trivial) fun w hw d => ?_
      exact ⟨rfl, rfl, fun _ => .refl userId _, fun _ => hw d.notifications⟩
  | updateSettings command =>
    refine .lift (.bind writes_updateSettings fun _ => trivial) fun w hw d => ?_
    exact ⟨rfl, rfl, fun _ => .refl userId _, fun _ r hr _ => hw d.notifications ▸ hr⟩

end UserRequest

/-! ## Withdrawals -/

section Withdrawals

variable {ι : Type} [CaseFolding] {command : WithdrawAccountCommand} {stamps : WithdrawalStamps}
  {request : ι → UserRequest}

/-- The withdrawal is the session `none`. -/
def withdrawalProg (command : WithdrawAccountCommand) (stamps : WithdrawalStamps)
    (request : ι → UserRequest) :
    Option ι → AppTx UserResponse
  | none => do
    WithdrawAccountCommandUseCase.execute command stamps
    return .withdrawn
  | some j => (request j).prog

theorem wp_request {P : Protocol (Option ι) AppDatabase AppLock AppStatement} {j : ι}
    {d : AppDatabase} (hP : ∀ ks d d', P.inv d → (request j).Spares userId d d' → P.inv d' ∧
      P.guar (some j) ks d d') :
    P.wp (some j) (fun _ _ _ _ => True) (fun _ _ _ _ => True) (request j).prog id [] d :=
  Protocol.wp_writes (UserRequest.writes_prog _) (UserRequest.spares_refl _)
    (fun _ _ hu hw d => (hw d).trans (hu _))
    (fun w ks d hw hinv => hP ks d (w d) hinv (hw d)) (UserRequest.spares_refl _)

variable {d : AppDatabase} {s : System (Option ι) AppDatabase AppStatement AppError UserResponse}
  {a : UserResponse}

/-- What the withdrawal establishes of a part that the requests leave alone. -/
theorem returned_of_wp [DecidableEq ι] {D K L : Type} [Locking D K] (part : Part AppDatabase D)
    (label : L → AppStatement) {R : D → Prop}
    (hrequests : ∀ j s s', (request j).Spares command.userId s s' → part.get s' = part.get s)
    (hwp : ((Protocol.holding none fun d d' => d' = d).comap part label).wp
      (none : Option ι) (fun _ _ _ s => R (part.get s))
      (fun _ _ _ _ => True) (WithdrawAccountCommandUseCase.execute command stamps) id [] d)
    (hs : Reach Always (System.init (withdrawalProg command stamps request) d) s)
    (ha : s.returned none = some a) :
    R (part.get s.store) := by
  have hmeets : Protocol.Meets ((Protocol.holding none fun d d' => d' = d).comap part label)
      (withdrawalProg command stamps request) d (fun i _ s => i = none → R (part.get s))
        (fun _ _ _ => True) :=
    { inv := trivial
      wp := by
        rintro (- | j)
        · exact Protocol.wp_bind.2
            (Protocol.wp_mono hwp (fun _ _ _ _ h _ => h) fun _ _ _ _ _ => trivial)
        · exact Protocol.wp_mono (wp_request fun ks s s' _ h =>
            ⟨trivial, fun _ => hrequests j s s' h⟩)
            (fun _ _ _ _ _ h => nomatch h) fun _ _ _ _ _ => trivial
      stable_ret := by
        rintro i b s s' ⟨j, ks, hj, -, -, -, hguar, -⟩ hd rfl
        rw [show part.get s' = part.get s from hguar hj]
        exact hd rfl
      stable_raise := fun _ _ _ _ _ _ => trivial }
  exact (hmeets.sound (hs.mono fun _ _ _ _ _ _ _ => trivial)).2.1 none a ha rfl

/-- The tables of the auth module are cleared, however the requests run. -/
theorem noAccount_of_returned [DecidableEq ι]
    (howns : Owns command.userId command.credentialsId d.auth)
    (hs : Reach Always (System.init (withdrawalProg command stamps request) d) s)
    (ha : s.returned none = some a) :
    NoAccount command.userId command.credentialsId s.store.auth := by
  refine returned_of_wp authPart AppStatement.auth (fun _ _ _ h => h.auth) ?_ hs ha
  refine wp_withdrawal (G := fun u d => NoAccount command.userId command.credentialsId (u d))
    (fun _ => Protocol.stable_holding_eq _) (fun u ks d _ hu =>
      ⟨trivial, fun h => absurd rfl h, hu⟩) ?_
  refine Protocol.wp_bind.2
    (wp_deleteAccount (fun _ _ => Protocol.interf_holding_eq) (fun _ _ => trivial) howns
    fun w ks h => Auth.wp_insert fun d' hi _ _ _ => ⟨trivial, ?_⟩)
  obtain rfl : d' = d.auth := Protocol.interf_holding_eq hi
  exact ⟨h.credentials, h.identities, h.sessions, h.refreshTokens⟩

/-- So are those of the users module. -/
theorem noUser_of_returned [DecidableEq ι]
    (hs : Reach Always (System.init (withdrawalProg command stamps request) d) s)
    (ha : s.returned none = some a) :
    NoUser command.userId s.store.users := by
  refine returned_of_wp usersPart AppStatement.users (fun _ _ _ h => h.users) ?_ hs ha
  simp only [WithdrawAccountCommandUseCase.execute, Prog.bind_eq, Protocol.wp_bind_eq]
  refine Protocol.wp_lift_other (G := fun u _ => u = id) (deferred_deleteAccountAuthState ..)
    (fun _ _ => rfl)
    (fun _ => Protocol.stable_holding_eq _) trivial ⟨id, fun _ => rfl, rfl⟩ fun _ w _ d₁ _ hw => ?_
  obtain ⟨_, hw, rfl⟩ := hw
  refine Protocol.wp_lift (E := fun _ _ _ _ => True)
    (Q := fun _ u _ d => NoUser command.userId (u d)) hw ?_
    (fun _ _ _ _ _ _ _ => trivial)
      (wp_withdrawalCleanup (fun _ _ => Protocol.interf_holding_eq) fun _ _ h => h)
  intro _ u w ms s hu hnone
  refine Protocol.wp_lift_other (G := fun u d => NoUser command.userId (u d))
    (deferred_deleteUserCredits ..)
    (fun _ _ => rfl) (fun _ => Protocol.stable_holding_eq _) trivial
      ⟨u, hu, hnone⟩ fun _ _ _ _ _ hw => ?_
  refine Protocol.wp_lift_other (deferred_deleteUserPushTokens _) (fun _ _ => rfl)
    (fun _ => Protocol.stable_holding_eq _)
    trivial hw fun _ _ _ _ _ hw => ?_
  exact Protocol.wp_commitOr_does (fun _ => Protocol.stable_holding_eq _) hw fun _ _ _ _ h =>
    ⟨trivial, fun hi => absurd rfl hi, h⟩

/-- What the requests leave alone. -/
theorem spares_of_step [DecidableEq ι] {m : ReadCommitted.Move (Option ι)}
    {s' : System (Option ι) AppDatabase AppStatement AppError UserResponse}
    (hs : Reach Always (System.init (withdrawalProg command stamps request) d) s)
    (hst : Step Always s m s') {j : ι} (hj : m.session = some j) :
    (request j).Spares userId s.store s'.store := by
  let P : Protocol (Option ι) AppDatabase AppLock AppStatement :=
    ⟨fun _ => True, fun i _ d d' => ∀ j, i = some j → (request j).Spares userId d d', Always⟩
  have hmeets :
      P.Meets (withdrawalProg command stamps request) d (fun _ _ _ => True) (fun _ _ _ => True) :=
    { inv := trivial
      wp := by
        rintro (- | j)
        · exact Protocol.wp_writes (.of_forall (fun _ => trivial) _) trivial (fun _ _ _ _ => trivial)
            (fun _ _ _ _ _ => ⟨trivial, fun _ h => nomatch h⟩) trivial
        · refine wp_request fun ks d d' _ (h : (request j).Spares userId d d') => ⟨trivial, ?_⟩
          rintro _ ⟨⟩
          exact h
      stable_ret := fun _ _ _ _ _ _ => trivial
      stable_raise := fun _ _ _ _ _ _ => trivial }
  obtain hstore | ⟨i, rfl, -, hguar, -⟩ := (hmeets.good hs).change hst
  · rw [hstore]
    exact UserRequest.spares_refl ..
  · exact hguar j hj

/-- No request of this kind commits once the withdrawal has the statement `l` behind it. -/
def KeepsOut (l : AppStatement) (kind : UserRequest → Prop) (request : ι → UserRequest)
    (s : System (Option ι) AppDatabase AppStatement AppError UserResponse)
    (m : ReadCommitted.Move (Option ι)) : Prop :=
  ∀ j next, m = .run (some j) → (s.session (some j)).prog = some (.commit next) → kind (request j) →
    ¬s.Past none l

omit [CaseFolding] in
theorem KeepsOut.not_kind [DecidableEq ι] {l : AppStatement} {kind : UserRequest → Prop}
    {m : ReadCommitted.Move (Option ι)}
    {s' : System (Option ι) AppDatabase AppStatement AppError UserResponse}
    (h : KeepsOut l kind request s m) (hst : Step Always s m s') (hpast : s.Past none l)
    (hne : s'.store ≠ s.store) {j : ι} (hj : m.session = some j) :
    ¬kind (request j) := by
  obtain ⟨i, next, rfl, hnext⟩ := hst.commits hne
  obtain rfl : i = some j := hj
  exact fun hkind => h j next rfl hnext hkind hpast

/-- What the withdrawal establishes of a part from its `DELETE` on, if no request of a kind commits
    then, and the other requests keep it. -/
theorem returned_of_comesTo [DecidableEq ι] {D K L : Type} [Locking D K] (part : Part AppDatabase D)
    (label : L → AppStatement) {R : D → D → Prop} {G : D → Prop} {l : AppStatement}
    {kind : UserRequest → Prop} (hG : ∀ d d', R d d' → G d → G d')
    (hrequests : ∀ r s s', ¬kind r → r.Spares command.userId s s' → R (part.get s) (part.get s'))
    (hcomes : (withdrawalProg command stamps request none).ComesTo l
      (fun w => ∀ s, part.get (w s) = part.get s)
      fun act next => (∀ v, (next v).Without l) ∧ ∀ w ks s, (∀ s, part.get (w s) = part.get s) →
        ((Protocol.holding none R).comap part label).wp
        (none : Option ι) (fun _ _ _ s => G (part.get s))
          (fun _ _ _ _ => True) (.stmt l act next) w ks s)
    (hs : ReachIf (KeepsOut l kind request) (System.init (withdrawalProg command stamps request) d) s)
    (ha : s.returned none = some a) : G (part.get s.store) := by
  have hdeparts : Departs ((Protocol.holding none R).comap part label) none l
      (fun w => ∀ s, part.get (w s) = part.get s)
        (fun s => G (part.get s)) (withdrawalProg command stamps request none) :=
    { id := fun _ => rfl
      comp := fun u w hu hw s => (hu (w s)).trans (hw s)
      inv := fun _ => trivial
      cond := fun _ _ _ _ _ => trivial
      stable := by
        rintro s s' ⟨j, ks, hj, -, -, -, hguar, -⟩ hd
        exact hG _ _ (hguar hj) hd
      comesTo := hcomes }
  refine hdeparts.reach (fun s m s' hs hkeeps hst hm hpast hne _ => ?_) hs ha
  obtain ⟨j, hj⟩ := Option.ne_none_iff_exists'.1 hm
  exact hrequests _ _ _ (hkeeps.not_kind hst hpast hne hj) (spares_of_step hs hst hj)

/-- The credits are deleted, unless the user changes them after the first of the two statements. -/
theorem noCredits_of_returned [DecidableEq ι]
    (hs : ReachIf (KeepsOut (.billing (.deleteTransactions command.userId))
      (UserRequest.IsBilling command.userId) request)
      (System.init (withdrawalProg command stamps request) d) s) (ha : s.returned none = some a) :
    NoCredits command.userId s.store.billing := by
  -- What is left of the credits does not depend on what the others add for themselves.
  have hstable : ∀ u : Database → Database,
      (Protocol.holding none (SameCredits command.userId) :
        Protocol (Option ι) Database LockKey Statement).Stable none
        fun d₁ => ∀ d₂, SameCredits command.userId d₁ d₂ → NoCredits command.userId (u d₂) := fun u =>
    Protocol.stable_holding fun _ _ h hd _ h' => hd _ (h.trans h')
  refine returned_of_comesTo billingPart AppStatement.billing (fun _ _ h hnone => hnone.same h)
    (fun _ _ _ hkind h => h.billing hkind) ?_ hs ha
  simp only [withdrawalProg, WithdrawAccountCommandUseCase.execute, Prog.bind_eq, Prog.pure_eq,
    Prog.bind_assoc]
  refine .bind (.lift (.of_forall (W := fun _ => True) (fun _ => trivial) _) fun _ _ _ => rfl)
    fun _ => ?_
  refine .bind (.lift (.of_forall (W := fun _ => True) (fun _ => trivial) _) fun _ _ _ => rfl)
    fun _ => ?_
  refine Prog.comesTo_lift_bind (first_deleteUserCredits ..) (fun _ h => AppStatement.billing.inj h)
    (fun _ => .bind (Prog.without_lift fun _ => AppStatement.noConfusion) fun _ => ?_) ?_
  · rintro (- | -)
    · trivial
    · trivial
  · intro act next hprog hwithout
    refine ⟨hwithout, fun w ks d₁ hw => ?_⟩
    rw [← hprog, Protocol.wp_bind]
    refine Protocol.wp_lift (w := id) (E := fun _ _ _ _ => True)
      (Q := fun _ u _ d₁ => ∀ d₂, SameCredits command.userId d₁ d₂ →
        NoCredits command.userId (u d₂)) hw ?_
      (fun _ _ _ _ _ _ _ => trivial)
      (wp_deleteUserCredits (fun _ _ _ => Protocol.interf_holding (.refl _) .trans) fun _ _ _ h => h)
    intro _ u w ms s hu hnone
    rw [Protocol.wp_bind]
    refine Protocol.wp_lift_other (deferred_deleteUserPushTokens _) (fun _ _ => rfl) hstable trivial
      ⟨u, hu, hnone⟩
      fun _ _ _ _ _ hw => ?_
    exact Protocol.wp_bind.2 (Protocol.wp_commitOr_does hstable hw fun _ _ _ _ h =>
      ⟨trivial, fun hi => absurd rfl hi, h _ (.refl ..)⟩)

/-- The push tokens are deleted, unless the user registers one after the `DELETE`. -/
theorem noPushTokens_of_returned [DecidableEq ι]
    (hs : ReachIf (KeepsOut (.notifications (.findPushTokens command.userId))
      (UserRequest.IsRegistration command.userId)
      request) (System.init (withdrawalProg command stamps request) d) s)
        (ha : s.returned none = some a) :
    NoPushTokens command.userId s.store.notifications := by
  have hstable : ∀ u : NotificationsDatabase → NotificationsDatabase,
      (Protocol.holding none (NoNewPushTokens command.userId) :
        Protocol (Option ι) NotificationsDatabase NotificationsLock NotificationsStatement).Stable
          none fun d₁ =>
          ∀ d₂, NoNewPushTokens command.userId d₁ d₂ → NoPushTokens command.userId (u d₂) := fun u =>
    Protocol.stable_holding fun _ _ h hd _ h' => hd _ (h.trans h')
  refine returned_of_comesTo notificationsPart AppStatement.notifications
    (fun _ _ h hnone => hnone.noNew h)
    (fun _ _ _ hkind h => h.pushTokens hkind) ?_ hs ha
  simp only [withdrawalProg, WithdrawAccountCommandUseCase.execute, Prog.bind_eq, Prog.pure_eq,
    Prog.bind_assoc]
  refine .bind (.lift (.of_forall (W := fun _ => True) (fun _ => trivial) _) fun _ _ _ => rfl)
    fun _ => ?_
  refine .bind (.lift (.of_forall (W := fun _ => True) (fun _ => trivial) _) fun _ _ _ => rfl)
    fun _ => ?_
  refine .bind (.lift (.of_forall (W := fun _ => True) (fun _ => trivial) _) fun _ _ _ => rfl)
    fun _ => ?_
  refine Prog.comesTo_lift_bind (first_deleteUserPushTokens _)
    (fun _ h => AppStatement.notifications.inj h) (fun _ => ?_) ?_
  · rintro (- | -)
    · trivial
    · trivial
  · intro act next hprog hwithout
    refine ⟨hwithout, fun w ks d₁ hw => ?_⟩
    rw [← hprog, Protocol.wp_bind]
    refine Protocol.wp_lift (w := id) (E := fun _ _ _ _ => True)
      (Q := fun _ u _ d₁ => ∀ d₂, NoNewPushTokens command.userId d₁ d₂ →
        NoPushTokens command.userId (u d₂)) hw ?_
      (fun _ _ _ _ _ _ _ => trivial)
      (wp_deleteUserPushTokens (fun _ _ _ =>
        Protocol.interf_holding (fun _ _ hr _ => hr) .trans) fun _ _ _ h => h)
    intro _ u w ms s hu hnone
    exact Protocol.wp_bind.2 (Protocol.wp_commitOr_does hstable ⟨u, hu, hnone⟩ fun _ _ _ _ h =>
      ⟨trivial, fun hi => absurd rfl hi, h _ fun _ hr _ => hr⟩)

/-- A withdrawal that has returned has deleted the account. It has deleted the credits of the user,
    if no request of the user has changed them after its `DELETE`, and the push tokens, if none has
    registered one after that `DELETE`. -/
theorem withdrawal_clears [DecidableEq ι] (howns : Owns command.userId command.credentialsId d.auth)
    (hs : Reach Always (System.init (withdrawalProg command stamps request) d) s)
    (ha : s.returned none = some a) :
    NoAccount command.userId command.credentialsId s.store.auth ∧
    NoUser command.userId s.store.users ∧
      (ReachIf (KeepsOut (.billing (.deleteTransactions command.userId))
        (UserRequest.IsBilling command.userId) request)
        (System.init (withdrawalProg command stamps request) d) s →
        NoCredits command.userId s.store.billing) ∧
      (ReachIf (KeepsOut (.notifications (.findPushTokens command.userId))
        (UserRequest.IsRegistration command.userId) request)
          (System.init (withdrawalProg command stamps request) d) s →
          NoPushTokens command.userId s.store.notifications) :=
  ⟨noAccount_of_returned howns hs ha, noUser_of_returned hs ha, fun h => noCredits_of_returned h ha,
    fun h => noPushTokens_of_returned h ha⟩

end Withdrawals

/-! ## An account -/

/-- The store with the account of user 1, who is signed in and has a push token. -/
def accountStore : AppDatabase where
  auth := { AuthDatabase.empty with
    userCredentials := Table.empty.insert ⟨.ofNat 2, .ofNat 1, "user", none⟩
    authSessions := Table.empty.insert ⟨.ofNat 3, .ofNat 2, none⟩
    refreshTokens := Table.empty.insert ⟨.ofNat 4, .ofNat 2, some (.ofNat 3), "hash", 10⟩ }
  users := { UsersDatabase.empty with users := Table.empty.insert ⟨.ofNat 1, none, none, none, none⟩ }
  notifications := { NotificationsDatabase.empty with
    pushTokens := Table.empty.insert ⟨.ofNat 5, .ofNat 1, "token", .ios, 0, 0⟩ }
  billing := .empty

theorem owns_accountStore : Owns (.ofNat 1) (.ofNat 2) accountStore.auth where
  credentials := by
    intro r hr
    rw [show r = ⟨.ofNat 2, .ofNat 1, "user", none⟩ from List.mem_singleton.1 hr]
    decide
  identities := by
    intro r hr
    exact absurd hr List.not_mem_nil
  sessions := by
    intro r hr
    rw [show r = ⟨.ofNat 3, .ofNat 2, none⟩ from List.mem_singleton.1 hr]
    exact ⟨_, List.mem_singleton_self _, rfl⟩
  refreshTokens := by
    intro r hr
    rw [show r = ⟨.ofNat 4, .ofNat 2, some (.ofNat 3), "hash", 10⟩ from List.mem_singleton.1 hr]
    exact ⟨_, List.mem_singleton_self _, rfl⟩

def withdrawUser : WithdrawAccountCommand := ⟨.ofNat 1, .ofNat 2⟩

def withdrawalStamps : WithdrawalStamps := ⟨⟨.ofNat 6, 1⟩, ⟨.ofNat 7, 1⟩, ⟨.ofNat 8, 1⟩⟩

/-- A grant of a credit to a user. -/
def grantTo (userId : UUID) : UserRequest :=
  .billing (.grantCredit ⟨userId, ⟨1, CreditAmount.one_le_one⟩, .eventOcrAllowance, none, none⟩
    ⟨.ofNat 9, ⟨.ofNat 10, 2⟩⟩)

/-- User 1 has a credit too. -/
def creditStore : AppDatabase :=
  { accountStore with
    billing := (Database.empty.insertTransaction ⟨.ofNat 11, .ofNat 1, .eventOcrAllowance, .grant,
      ⟨1, CreditAmount.one_le_one⟩, none, none⟩).insertUserCredit (.ofNat 1)
        (.granted .zero ⟨1, CreditAmount.one_le_one⟩) }

/-- The settings of user 1 are updated, and user 2 is granted a credit. -/
def settingsAndGrant : Bool → UserRequest
  | false => .updateSettings ⟨.ofNat 1, some true, none⟩
  | true => grantTo (.ofNat 2)

/-- The withdrawal of user 1, who has a credit, while the settings are updated. A grant to user 2
    commits after the credits have been deleted. -/
theorem withdrawal_clears_account :
    letI := CaseFolding.ascii
    ∃ s : System (Option Bool) AppDatabase AppStatement AppError UserResponse,
      Reach Always
        (System.init (withdrawalProg withdrawUser withdrawalStamps settingsAndGrant) creditStore) s ∧
        (creditStore.billing.userCredits (.ofNat 1) ≠ none ∧
          (∃ t ∈ creditStore.billing.creditTransactions, t.userId = .ofNat 1) ∧
          ∃ t ∈ creditStore.notifications.pushTokens.rows, t.userId = .ofNat 1) ∧
        (∃ t ∈ s.store.billing.creditTransactions, t.userId = .ofNat 2) ∧
        NoAccount (.ofNat 1) (.ofNat 2) s.store.auth ∧ NoUser (.ofNat 1) s.store.users ∧
        NoCredits (.ofNat 1) s.store.billing ∧ NoPushTokens (.ofNat 1) s.store.notifications := by
  let _ := CaseFolding.ascii
  obtain ⟨s, hs, hreturned, hgranted⟩ := System.exists_reach (C := Always)
    (s := System.init (withdrawalProg withdrawUser withdrawalStamps settingsAndGrant) creditStore)
    (p := fun s => (s.returned none).isSome ∧
      ∃ t ∈ s.store.billing.creditTransactions, t.userId = .ofNat 2)
    (.replicate 4 (.run none) ++ .replicate 3 (.run (some false)) ++ .replicate 10 (.run none) ++
      .replicate 6 (.run (some true)) ++ .replicate 5 (.run none)) (by decide +kernel)
  obtain ⟨a, ha⟩ := Option.isSome_iff_exists.1 hreturned
  obtain ⟨hauth, husers, hbilling, hnotifications⟩ := withdrawal_clears owns_accountStore hs ha
  have hcredit : creditStore.billing.userCredits (.ofNat 1) ≠ none := by decide
  refine ⟨s, hs, ⟨hcredit, ⟨_, List.mem_singleton_self _, rfl⟩,
    ⟨_, List.mem_singleton_self _, rfl⟩⟩, hgranted, hauth,
    husers, hbilling (hs.reachIf fun _ _ j _ _ _ hkind => ?_),
    hnotifications (hs.reachIf fun _ _ j _ _ _ hkind => ?_)⟩
  -- Neither request is of a kind that user 1 must not commit.
  · rcases j with - | -
    · exact hkind.elim
    · exact absurd (show UUID.ofNat 2 = .ofNat 1 from hkind) (by decide)
  · rcases j with - | -
    · exact hkind.elim
    · exact hkind.elim

/-- A grant that is in progress when the account is withdrawn, and commits later, leaves credits of
    the user. -/
theorem credits_after_withdrawal :
    letI := CaseFolding.ascii
    Owns (.ofNat 1) (.ofNat 2) accountStore.auth ∧
    ∃ s : System (Option Unit) AppDatabase AppStatement AppError UserResponse,
      Reach Always
        (System.init (withdrawalProg withdrawUser withdrawalStamps fun _ : Unit =>
          grantTo (.ofNat 1)) accountStore) s ∧
        (s.returned none).isSome = true ∧ (s.returned (some ())).isSome = true ∧
          ¬NoCredits (.ofNat 1) s.store.billing := by
  let _ := CaseFolding.ascii
  refine ⟨owns_accountStore, ?_⟩
  obtain ⟨s, hs, hdone, hgranted, t, ht, huser⟩ := System.exists_reach (C := Always)
    (s := System.init
      (withdrawalProg withdrawUser withdrawalStamps fun _ : Unit => grantTo (.ofNat 1)) accountStore)
    (p := fun s => (s.returned none).isSome = true ∧ (s.returned (some ())).isSome = true ∧
      ∃ t ∈ s.store.billing.creditTransactions, t.userId = .ofNat 1)
    (.replicate 1 (.run (some ())) ++ .replicate 19 (.run none) ++ .replicate 5 (.run (some ())))
      (by decide +kernel)
  exact ⟨s, hs, hdone, hgranted, fun h => h.ledger t ht huser⟩

end Boat.App
