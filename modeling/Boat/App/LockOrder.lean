import Boat.App.Accounts
import Boat.App.Logouts
import Boat.ReadCommitted.Progress

/-!
# The order of locks

Signups, logins, refreshes, logouts and requests that are authenticated take their locks in one
order, so that they do not wait for each other in a circle (`requests_complete`). Withdrawals do not
keep to it: they delete the tokens of a session before the session, which a logout revokes before
its tokens.
-/

namespace Boat.App

open ReadCommitted Auth Users Notifications SqlAlchemyCredentialRepository
  SqlAlchemyExternalIdentityLoginSynchronizer
  SqlAlchemyPromotionRepository SignupCommandUseCase

/-! ## Requests -/

/-- A request that does not withdraw an account. -/
inductive OrderlyRequest
  | signup (identity : ExternalIdentity) (command : SignupCommand) (ids : SignupIds)
  | login (identity : ExternalIdentity) (ids : LoginIds)
  | refresh (refreshToken : String) (issued : IssuedRefreshToken) (now : Instant)
  | logout (refreshToken : String) (now revokedAt : Instant)
  | access (token : String)

namespace OrderlyRequest

/-- Who signs up or logs in. -/
def identity : OrderlyRequest → Option ExternalIdentity
  | signup identity _ _ | login identity _ => some identity
  | refresh .. | logout .. | access _ => none

/-- The user of a new account. -/
def newUser : OrderlyRequest → Option UUID
  | signup _ _ ids => some ids.account.userId
  | login .. | refresh .. | logout .. | access _ => none

def prog [CaseFolding] [Digests] [BeneficiaryDigest] [AccessTokenVerifier] : OrderlyRequest →
    AppTx AuthResponse
  | signup identity command ids => do
    return .tokens (← SignupCommandUseCase.execute identity command ids)
  | login identity ids => (AuthRequest.login identity ids).prog
  | refresh refreshToken issued now => (AuthRequest.refresh refreshToken issued now).prog
  | logout refreshToken now revokedAt => (AuthRequest.logout refreshToken now revokedAt).prog
  | access token => (AuthRequest.access token).prog

end OrderlyRequest

/-! ## The order -/

/-- Since when promotions are current: signups leave that alone. -/
def promotionStarts (d : Database) : List (UUID × Instant) :=
  d.promotions.rows.map fun p => (p.id, p.startsAt)

/-- A promotion is tried before another one: it starts later. -/
def TriedBefore (x y : UUID × Instant) : Prop := y.2 < x.2 ∨ y.2 = x.2 ∧ y.1.val.toNat < x.1.val.toNat

instance : DecidableRel TriedBefore := fun _ _ => inferInstanceAs (Decidable (_ ∨ _))

theorem TriedBefore.trans {x y z : UUID × Instant} (h : TriedBefore x y)
    (h' : TriedBefore y z) : TriedBefore x z := by
  rcases h with h | ⟨h, hlt⟩
  · rcases h' with h' | ⟨h', -⟩
    · exact .inl (h'.trans h)
    · exact .inl (h' ▸ h)
  · rcases h' with h' | ⟨h', hlt'⟩
    · exact .inl (h ▸ h')
    · exact .inr ⟨h'.trans h, hlt'.trans hlt⟩

theorem TriedBefore.irrefl {x : UUID × Instant} : ¬TriedBefore x x := by
  rintro (h | ⟨-, h⟩)
  · exact lt_irrefl _ h
  · exact lt_irrefl _ h

/-- How many promotions are tried before this one. -/
def position (starts : List (UUID × Instant)) (id : UUID) : ℕ :=
  (starts.toFinset.filter fun x => ∃ y ∈ starts, y.1 = id ∧ TriedBefore x y).card

theorem position_le (starts : List (UUID × Instant))
    (id : UUID) : position starts id ≤ starts.length :=
  (Finset.card_filter_le _ _).trans (List.toFinset_card_le _)

/-- The start of a promotion. -/
theorem start_unique {d : Database} {id : UUID} {t t' : Instant} (h : (id, t) ∈ promotionStarts d)
    (h' : (id, t') ∈ promotionStarts d) : t = t' := by
  obtain ⟨p, hp, heq⟩ := List.mem_map.1 h
  obtain ⟨p', hp', heq'⟩ := List.mem_map.1 h'
  obtain ⟨rfl, rfl⟩ := Prod.mk.inj heq
  obtain ⟨hid, rfl⟩ := Prod.mk.inj heq'
  rw [List.inj_on_of_nodup_map d.promotions.nodup hp hp' hid.symm]

instance : IsTrans Promotion comesBefore where
  trans p q r hpq hqr := by
    rcases hpq with hpq | ⟨hpq, hle⟩
    · rcases hqr with hqr | ⟨hqr, -⟩
      · exact .inl (hqr.trans hpq)
      · exact .inl (hqr ▸ hpq)
    · rcases hqr with hqr | ⟨hqr, hle'⟩
      · exact .inl (hpq ▸ hqr)
      · exact .inr ⟨hqr.trans hpq, hle'.trans hle⟩

instance : Std.Total comesBefore where
  total p q := by
    rcases lt_trichotomy p.startsAt q.startsAt with h | h | h
    · exact .inr (.inl h)
    · exact (le_total q.id.val.toNat p.id.val.toNat).imp (fun hle => .inr ⟨h.symm, hle⟩) fun hle =>
        .inr ⟨h, hle⟩
    · exact .inl (.inl h)

/-- Promotions are tried in the order of their positions. -/
theorem position_lt {d : Database} {p q : Promotion} (hp : p ∈ d.promotions.rows)
    (hq : q ∈ d.promotions.rows) (hne : p.id ≠ q.id) (h : comesBefore p q) :
    position (promotionStarts d) p.id < position (promotionStarts d) q.id := by
  have hp' : (p.id, p.startsAt) ∈ promotionStarts d := List.mem_map_of_mem hp
  have hq' : (q.id, q.startsAt) ∈ promotionStarts d := List.mem_map_of_mem hq
  have hval : p.id.val.toNat ≠ q.id.val.toNat :=
    fun hval => hne (congrArg UUID.mk (BitVec.eq_of_toNat_eq hval))
  have hbefore : TriedBefore (p.id, p.startsAt) (q.id, q.startsAt) :=
    h.imp_right fun ⟨hstart, hle⟩ => ⟨hstart, lt_of_le_of_ne hle hval.symm⟩
  refine Finset.card_lt_card ⟨fun x hx => ?_, fun hsub => ?_⟩
  · obtain ⟨hx, ⟨id, t⟩, hy, rfl, hxy⟩ := Finset.mem_filter.1 hx
    obtain rfl := start_unique hy hp'
    exact Finset.mem_filter.2 ⟨hx, _, hq', rfl, hxy.trans hbefore⟩
  · -- The promotion `p` is tried before `q`, but not before itself.
    obtain ⟨-, ⟨id, t⟩, hy, rfl, hself⟩ := Finset.mem_filter.1
      (hsub (Finset.mem_filter.2 ⟨List.mem_toFinset.2 hp', _, hq', rfl, hbefore⟩))
    obtain rfl := start_unique hy hp'
    exact TriedBefore.irrefl hself

section

variable (identityLock : ℤ → Prop) [DecidablePred identityLock] (starts : List (UUID × Instant))

/-- The ranks of the locks of billing, from `n` on: promotions in the order in which signups try
    them. -/
def billingRank (n : ℕ) : LockKey → ℕ
  | .row (.promotion id) => n + position starts id
  | .entry (.redemptionKey _) | .entry (.redemptionBeneficiary ..) => n + starts.length + 1
  | .entry (.transactionKey _) | .entry (.transactionSource ..) => n + starts.length + 2
  -- these requests do not lock codes, and credits are owned by a signup
  | .row (.promotionCode _) | .row (.userCredit _) | .entry (.userCredit _) => n

/-- The ranks of the locks of the auth module, from `n` on after the advisory ones. -/
def authRank (n : ℕ) : AuthLock → ℕ
  | .advisory lockId => if identityLock lockId then 0 else 1
  | .entry (.primaryKey (.credential _)) | .entry (.credentialUser _) => n
  | .entry (.primaryKey (.identity _)) | .entry (.identity ..)
    | .entry (.credentialIssuer ..) => n + 1
  | .row (.credential _) => n + 2
  | .entry (.primaryKey (.session _)) => n + 3
  | .row (.session _) => n + 4
  | .row (.refreshToken _) => n + 5
  | .entry (.primaryKey (.refreshToken _)) | .entry (.tokenHash _) => n + 6
  -- these requests do not lock rows of identities
  | .row (.identity _) => n

/-- The ranks of all locks. -/
def appRank : AppLock → ℕ
  | .users (.entry (.user _)) | .users (.row (.user _)) => 2
  | .users (.entry (.settings _)) | .users (.row (.settings _)) => 3
  | .notifications _ => 4
  | .billing k => billingRank starts 5 k
  | .auth k => authRank identityLock (starts.length + 8) k

theorem appRank_lt (k : AppLock) : appRank identityLock starts k < starts.length + 15 := by
  have hposition := position_le starts
  rcases k with k | k | k | k
  · rcases k with (- | - | - | -) | (⟨- | - | - | -⟩ | - | - | - | -) | lockId
    case advisory =>
      show (if identityLock lockId then 0 else 1) < _
      split <;> omega
    all_goals simp only [appRank, authRank]; omega
  · rcases k with (- | -) | (- | -)
    all_goals simp only [appRank]; omega
  · simp only [appRank]
    omega
  · rcases k with (- | id | -) | (- | - | - | - | -)
    case row.promotion =>
      have hid := hposition id
      simp only [appRank, billingRank]
      omega
    all_goals simp only [appRank, billingRank]; omega

end

section

variable {ι : Type} [Digests]

open Classical in
/-- The order of the locks of requests. The credits of a new user belong to its signup. -/
noncomputable def appOrder (request : ι → OrderlyRequest)
    (starts : List (UUID × Instant)) : LockOrder ι AppDatabase where
  view d := promotionStarts d.billing = starts
  owner
    | .billing (.row (.userCredit userId)) | .billing (.entry (.userCredit userId)) =>
      if h : ∃ i, (request i).newUser = some userId then some h.choose else none
    | _ => none
  rank := appRank (fun lockId => ∃ i, ∃ identity, (request i).identity = some identity ∧
    identityLockId identity.issuer identity.subject = lockId) starts
  bound := starts.length + 15
  rank_lt := appRank_lt _ starts

/-- A new account has a user of its own. -/
def OwnUsers (request : ι → OrderlyRequest) : Prop :=
  ∀ i j, ∀ userId, (request i).newUser = some userId → (request j).newUser = some userId → i = j

/-- Locks of identities are none of emails. -/
def Apart [CaseFolding] (request : ι → OrderlyRequest) : Prop :=
  ∀ i j, ∀ identity ∈ (request i).identity, ∀ identity' ∈ (request j).identity,
    ∀ email ∈ canonicalEmail identity',
    identityLockId identity.issuer identity.subject ≠ emailLockId email

/-! ## Auth -/

section

variable {request : ι → OrderlyRequest} {starts : List (UUID × Instant)} {i : ι} {n m : ℕ} {α : Type}

/-- The order of the locks of the auth module. -/
noncomputable abbrev authOrder (request : ι → OrderlyRequest)
    (starts : List (UUID × Instant)) : LockOrder ι AuthDatabase :=
  (appOrder request starts).comap authPart fun _ => True

/-- A statement of the auth module takes locks of one rank. -/
theorem climbs_exec {l : AuthStatement} {fault : AuthError} {c : Command AuthDatabase AuthError α}
    (hnm : n < m) (hlocks : ∀ v, ∀ k ∈ c.locks v, (authOrder request starts).rank k = n) :
    (authOrder request starts).Climbs i (Prog.exec l fault c) n m := by
  refine .exec hnm.le (fun v _ k hk => .inr ⟨rfl, ?_⟩) fun _ _ _ _ _ _ _ => trivial
  rw [hlocks v k hk]
  exact ⟨le_rfl, hnm⟩

variable [CaseFolding] in
theorem climbs_synchronize {identity : ExternalIdentity} (hi : (request i).identity = some identity)
    (hapart : Apart request) : (authOrder request starts).Climbs i (synchronize identity) 0 2 := by
  refine .bind (m := 1) (climbs_exec Nat.one_pos fun v k hk => ?_) fun _ => ?_
  · cases List.mem_singleton.1 hk
    exact if_pos ⟨i, identity, hi, rfl⟩
  · split
    · next email hemail =>
      refine climbs_exec Nat.one_lt_two fun v k hk => ?_
      cases List.mem_singleton.1 hk
      refine if_neg ?_
      rintro ⟨j, identity', hj, heq⟩
      exact hapart j i identity' hj identity hi email hemail heq
    · exact .ret (Nat.le_succ 1)

theorem climbs_flushCredential (r : UserCredential) :
    (authOrder request starts).Climbs i (flushCredential r) (starts.length + 8)
      (starts.length + 9) := by
  refine climbs_exec (Nat.lt_succ_self _) fun v k hk => ?_
  obtain ⟨e, he, rfl⟩ := List.mem_map.1 hk
  rcases List.mem_pair.1 he with rfl | rfl
  · rfl
  · rfl

theorem climbs_flushIdentity (r : ExternalIdentityRecord) :
    (authOrder request starts).Climbs i (flushIdentity r) (starts.length + 9)
      (starts.length + 10) := by
  refine climbs_exec (Nat.lt_succ_self _) fun v k hk => ?_
  obtain ⟨e, he, rfl⟩ := List.mem_map.1 hk
  simp only [ExternalIdentityRecord.entries, List.mem_cons, List.not_mem_nil, or_false] at he
  rcases he with rfl | rfl | rfl
  · rfl
  · rfl
  · rfl

theorem climbs_flushLogin (seen : UserCredential) (loggedInAt : Instant) :
    (authOrder request starts).Climbs i (flushLogin seen loggedInAt) (starts.length + 10)
      (starts.length + 11) := by
  rw [flushLogin]
  split
  · exact .ret (Nat.le_succ _)
  · refine climbs_exec (Nat.lt_succ_self _) fun v k hk => ?_
    obtain ⟨r, -, rfl⟩ := Option.mem_map.1 (Option.mem_toList.1 hk)
    rfl

theorem climbs_flushSession (r : AuthSession) :
    (authOrder request starts).Climbs i (flushSession r) (starts.length + 11)
      (starts.length + 12) := by
  refine climbs_exec (Nat.lt_succ_self _) fun v k hk => ?_
  obtain ⟨e, he, rfl⟩ := List.mem_map.1 hk
  cases List.mem_singleton.1 he
  rfl

theorem climbs_flushRevocation (sessionId : UUID) (revokedAt : Instant) :
    (authOrder request starts).Climbs i (flushRevocation sessionId revokedAt) (starts.length + 12)
      (starts.length + 13) := by
  refine climbs_exec (Nat.lt_succ_self _) fun v k hk => ?_
  obtain ⟨r, -, rfl⟩ := Option.mem_map.1 (Option.mem_toList.1 hk)
  rfl

omit [Digests] in
/-- No row refers to a token. -/
theorem mem_cascade_tokens {d : AuthDatabase} {tokens : List RefreshToken} {row : AuthRow}
    (h : row ∈ d.cascade (tokens.map (.refreshToken ·.id))) : ∃ id, row = .refreshToken id := by
  have hfound : ∃ r, (r ∈ d.refreshTokens.rows ∧ ∃ token ∈ tokens, token.id = r.id) ∧
      AuthRow.refreshToken r.id = row := by
    simpa [AuthDatabase.cascade] using h
  obtain ⟨r, -, rfl⟩ := hfound
  exact ⟨r.id, rfl⟩

/-- A deletion of tokens locks nothing else. -/
theorem climbs_deleteTokens {f : AuthDatabase → List RefreshToken} :
    (authOrder request starts).Climbs i (deleteWhere fun v => (f v).map (.refreshToken ·.id))
      (starts.length + 13)
      (starts.length + 14) := by
  refine .query_bind fun v _ => ?_
  refine .bind (m := starts.length + 14)
    (climbs_exec (Nat.lt_succ_self _) fun v' k hk => ?_) fun _ => .ret le_rfl
  obtain ⟨row, hrow, rfl⟩ := List.mem_map.1 hk
  obtain ⟨id, rfl⟩ := mem_cascade_tokens hrow
  rfl

theorem climbs_deleteRefreshToken (tokenHash : String) :
    (authOrder request starts).Climbs i (deleteRefreshToken tokenHash) (starts.length + 13)
      (starts.length + 14) := by
  refine .bind (m := starts.length + 14)
    (climbs_exec (Nat.lt_succ_self _) fun v k hk => ?_) fun _ => .ret le_rfl
  obtain ⟨r, hr, rfl⟩ := List.mem_map.1 hk
  obtain ⟨token, -, rfl⟩ := List.mem_map.1 hr
  rfl

theorem climbs_flushRefreshToken (replaced : Option String) (r : RefreshToken) :
    (authOrder request starts).Climbs i (flushRefreshToken replaced r) (starts.length + 14)
      (starts.length + 15) := by
  refine climbs_exec (Nat.lt_succ_self _) fun v k hk => ?_
  obtain ⟨e, he, rfl⟩ := List.mem_map.1 hk
  rcases List.mem_pair.1 he with rfl | rfl
  · rfl
  · rfl

theorem climbs_recordLogin (credentialsId : UUID) :
    (authOrder request starts).Climbs i (recordLogin credentialsId) n n := by
  refine .bind .query fun r => ?_
  rcases r with - | r
  · exact .raise
  · exact .ret le_rfl

theorem climbs_loginCredentials [CaseFolding] (identity : ExternalIdentity) :
    (authOrder request starts).Climbs i (loginCredentials identity) 2 (starts.length + 10) := by
  have hlinks : ∀ r credentialsId, (authOrder request starts).Climbs i
      ((flushIdentity r).bind fun _ => recordLogin credentialsId) 2 (starts.length + 10) :=
        fun r credentialsId =>
    (LockOrder.Climbs.bind (climbs_flushIdentity r) fun _ => climbs_recordLogin _).mono
      (by omega) le_rfl
  refine .bind .query fun r => ?_
  rcases r with - | r
  · dsimp only
    split
    · refine .bind .query fun r => ?_
      rcases r with - | r
      · exact .raise
      · exact hlinks _ _
    · exact .raise
  · exact (climbs_recordLogin _).mono le_rfl (by omega)

/-! ### Requests -/

variable [CaseFolding]

theorem climbs_login {identity : ExternalIdentity} (hi : (request i).identity = some identity)
    (hapart : Apart request) (ids : LoginIds) :
    (authOrder request starts).Climbs i (LoginCommandUseCase.execute identity ids) 0
      (starts.length + 15) := by
  refine .bind (climbs_synchronize hi hapart) fun _ =>
    .bind (climbs_loginCredentials identity) fun credentials => ?_
  refine .bind (climbs_flushLogin credentials ids.loggedInAt) fun _ =>
    .bind (climbs_flushSession _) fun _ => ?_
  refine .bind ((climbs_flushRefreshToken none _).mono (by omega) le_rfl) fun _ => ?_
  exact .bind .commitOr fun _ => .ret le_rfl

omit [CaseFolding] in
theorem climbs_rotateRefreshToken (tokenHash : String) (now : Instant) :
    (authOrder request starts).Climbs i (rotateRefreshToken tokenHash now) 0
      (starts.length + 14) := by
  refine .bind ((climbs_deleteRefreshToken tokenHash).mono (by omega) le_rfl) fun row => ?_
  rcases row with - | ⟨id, credentialsId, sessionId, hash, expiresAt⟩
  · exact .raise
  rcases sessionId with - | sessionId
  · exact .raise
  dsimp only
  split
  · exact .raise
  refine .bind .query fun authSession => ?_
  rcases authSession with - | authSession
  · exact .raise
  dsimp only
  split
  · exact .raise
  refine .bind .query fun credentials => ?_
  rcases credentials with - | credentials
  · exact .raise
  dsimp only
  split
  · exact .raise
  · exact .ret le_rfl

omit [CaseFolding] in
theorem climbs_refresh (refreshToken : String) (issued : IssuedRefreshToken) (now : Instant) :
    (authOrder request starts).Climbs i (RefreshTokenCommandUseCase.execute refreshToken issued now) 0
      (starts.length + 15) := by
  refine .bind (climbs_rotateRefreshToken _ now) fun x => ?_
  exact .bind (climbs_flushRefreshToken _ _) fun _ => .bind .commitOr fun _ => .ret le_rfl

omit [CaseFolding] in
theorem climbs_revokeSession (tokenHash : String) (now revokedAt : Instant) :
    (authOrder request starts).Climbs i (revokeSessionByRefreshToken tokenHash now revokedAt) 0
      (starts.length + 14) := by
  refine .query_bind fun v _ => ?_
  generalize v.refreshTokens.rows.find? _ = refreshToken
  rcases refreshToken with - | ⟨id, credentialsId, sessionId, hash, expiresAt⟩
  · exact .ret (Nat.zero_le _)
  rcases sessionId with - | sessionId
  · exact (climbs_deleteTokens (f := fun _ => [⟨id, credentialsId, none, hash, expiresAt⟩])).mono
      (Nat.zero_le _) le_rfl
  refine .bind .query fun authSession => ?_
  rcases authSession with - | authSession
  · exact climbs_deleteTokens.mono (Nat.zero_le _) le_rfl
  · exact .mono (.bind (climbs_flushRevocation _ _) fun _ => climbs_deleteTokens)
      (Nat.zero_le _) le_rfl

omit [CaseFolding] in
theorem climbs_access [AccessTokenVerifier] (token : String) :
    (authOrder request starts).Climbs i (CurrentPrincipalQueryUseCase.execute token) 0
      (starts.length + 15) := by
  rw [CurrentPrincipalQueryUseCase.execute]
  rcases AccessTokenVerifier.verify token with - | principal
  · exact .raise
  · refine .bind .query fun active => ?_
    rcases active with - | -
    · exact .raise
    · exact .ret (Nat.zero_le _)

end

/-! ## Users and notifications -/

section

variable {request : ι → OrderlyRequest} {starts : List (UUID × Instant)} {i : ι}

theorem climbs_resolveUser (command : ResolveUserForLoginCommand) (ids : AccountIds) :
    ((appOrder request starts).comap usersPart fun _ => True).Climbs i
      (ResolveUserForLoginCommandUseCase.execute (return) command ids) 2 4 := by
  have hlift : ∀ {α : Type} (r : Except DomainError α),
      ((appOrder request starts).comap usersPart fun _ => True).Climbs i (UsersTx.lift r) 2 2 := by
    rintro α (e | a)
    · exact .raise
    · exact .ret le_rfl
  have hinsert : ∀ {s : UsersStatement} {row : UsersRow} {w : UsersDatabase → UsersDatabase}
      {hw : Touches [.entry row] w}
        {n : ℕ}, appRank (fun _ => True) starts (.users (.entry row)) = n →
          ((appOrder request starts).comap usersPart fun _ => True).Climbs i
            (UsersTx.insert s row w hw) n (n + 1) := by
    intro s row w hw n hn
    refine .exec (Nat.le_succ n) (fun v _ k hk => ?_) fun _ _ _ _ _ _ _ => trivial
    cases List.mem_singleton.1 hk
    cases row with
    | user id => exact .inr ⟨rfl, hn.ge, Nat.lt_succ_of_le hn.le⟩
    | settings id => exact .inr ⟨rfl, hn.ge, Nat.lt_succ_of_le hn.le⟩
  refine .bind (hlift _) fun _ => .bind (hlift _) fun ⟨user, events⟩ => ?_
  refine .bind (.bind (hinsert rfl) fun _ => hinsert rfl) fun _ => ?_
  refine .bind (m := 4) ?_ fun _ => .ret le_rfl
  exact .exec le_rfl (fun v _ k hk => absurd hk List.not_mem_nil) fun _ _ _ _ _ _ _ => trivial

theorem climbs_updateSettings (command : UpdateNotificationSettingsCommand) :
    ((appOrder request starts).comap notificationsPart fun _ => True).Climbs i
      (UpdateNotificationSettingsCommandUseCase.execute (return) command) 4 5 := by
  have hread : ∀ userId, ((appOrder request starts).comap notificationsPart fun _ => True).Climbs i
      ((NotificationsTx.select (.findSettings userId) (·.settings.find userId)).bind fun record =>
        .ret (record.getD (.create userId))) 5 5 :=
          fun userId => .bind .query fun record => .ret le_rfl
  refine .bind (m := 5) ?_ fun settings => .ret le_rfl
  rw [SqlAlchemyNotificationRepository.updateSettings]
  split
  · refine .bind (m := 5) ?_ fun _ => hread command.userId
    exact .exec (Nat.le_succ 4) (fun v _ k hk =>
      .inr ⟨rfl, le_rfl, Nat.lt_succ_self 4⟩) fun _ _ _ _ _ _ _ => trivial
  · exact (hread command.userId).mono (Nat.le_succ 4) le_rfl

end

/-! ## Billing -/

section

variable {request : ι → OrderlyRequest} {starts : List (UUID × Instant)} {i : ι} {n m : ℕ}

/-- The order of the locks of billing. -/
noncomputable abbrev billingOrder (request : ι → OrderlyRequest)
    (starts : List (UUID × Instant)) : LockOrder ι Database :=
  (appOrder request starts).comap billingPart fun d => promotionStarts d = starts

theorem climbs_lift {α : Type} (r : Except DomainError α) :
    (billingOrder request starts).Climbs i (Tx.lift r) n n := by
  rcases r with e | a
  · exact .raise
  · exact .ret le_rfl

/-- A statement of billing that writes no promotion takes locks of one rank, or of the credits of
    its own user. -/
theorem climbs_billing {α : Type} {l : Statement} {fault : Error} {c : Command Database Error α}
    (hnm : n < m) (hlocks : ∀ v, ∀ k ∈ c.locks v, (billingOrder request starts).owner k = some i ∨
      (billingOrder request starts).owner k = none ∧ (billingOrder request starts).rank k = n)
    (hrun : ∀ v a u, c.run v = .ok (a, u) → ∀ d, (u d).promotions = d.promotions) :
    (billingOrder request starts).Climbs i (Prog.exec l fault c) n m := by
  refine .exec hnm.le (fun v _ k hk =>
    (hlocks v k hk).imp_right fun h => ⟨h.1, ?_⟩) fun v a u _ hu d hd => ?_
  · exact ⟨h.2.ge, lt_of_eq_of_lt h.2 hnm⟩
  · show promotionStarts (u d) = starts
    rw [promotionStarts, hrun v a u hu d]
    exact hd

/-- The credits of a new user belong to its signup. -/
theorem owner_userCredit (starts : List (UUID × Instant)) {userId : UUID}
    (hi : (request i).newUser = some userId) (hdistinct : OwnUsers request) :
    (billingOrder request starts).owner (.row (.userCredit userId)) = some i ∧
      (billingOrder request starts).owner (.entry (.userCredit userId)) = some i := by
  have hexists : ∃ i, (request i).newUser = some userId := ⟨i, hi⟩
  have howner : some hexists.choose = some i :=
    congrArg some (hdistinct _ _ userId hexists.choose_spec hi)
  exact ⟨(dif_pos hexists).trans howner, (dif_pos hexists).trans howner⟩

/-- Promotions are locked in the order in which they are tried. -/
theorem ascends_lockFirst {now : Instant} {context : PromotionContext} {ids : List UUID}
    {ks : List LockKey} (hn : ∀ id ∈ ids, n ≤ position starts id + 5) (hnm : n ≤ starts.length + 6)
    (hids : ids.Pairwise fun id id' => position starts id < position starts id') :
    (billingOrder request starts).Ascends i
      (fun found n ks => n ≤ starts.length + 6 ∧ ∀ p ∈ found, (p.id, p.startsAt) ∈ starts ∧
        .row (.promotion p.id) ∈ ks)
      (fun _ _ _ => True) (lockFirst now context ids) n ks := by
  induction ids generalizing n ks with
  | nil => exact ⟨hnm, fun p hp => (nomatch hp)⟩
  | cons id ids ih =>
    rw [List.pairwise_cons] at hids
    have hid : position starts id + 6 ≤ starts.length + 6 :=
      Nat.add_le_add_right (position_le starts id) 6
    refine LockOrder.Ascends.bind
      (.exec (m := position starts id + 6) ?_ (fun v hv => ?_) fun _ _ _ => trivial)
    · exact (hn id List.mem_cons_self).trans (Nat.le_succ _)
    have hfound : ∀ p, v.promotion id = some p → p.id = id ∧ (p.id, p.startsAt) ∈ starts := by
      intro p hp
      obtain ⟨hrow, rfl⟩ := Table.find_eq_some.1 hp
      exact ⟨rfl, hv ▸ List.mem_map_of_mem hrow⟩
    refine ⟨fun k hk => ?_, ?_⟩
    · obtain ⟨p, hp, rfl⟩ := Option.mem_map.1 (Option.mem_toList.1 hk)
      refine .inr ⟨rfl, .inr ?_⟩
      show n ≤ 5 + position starts p.id ∧ 5 + position starts p.id < _
      have hle := hn id List.mem_cons_self
      rw [(hfound p hp).1]
      omega
    · rintro a u ⟨⟩
      refine ⟨fun d hd => hd, ?_⟩
      rcases hrow : (v.promotion id).filter (isCurrent now context) with - | p
      · -- The next ones are tried, above this one.
        refine ih (fun id' hid' => ?_) hid hids.2
        have hlt := hids.1 id' hid'
        omega
      · obtain ⟨hp, -⟩ := Option.filter_eq_some_iff.1 hrow
        refine ⟨hid, fun q hq => ?_⟩
        cases hq
        refine ⟨(hfound p hp).2, List.mem_append.2 (.inl ?_)⟩
        show _ ∈ ((v.promotion id).map _).toList
        rw [hp]
        exact List.mem_singleton_self _

/-- `save_promotion` leaves the start of a promotion alone, which is locked already. -/
theorem ascends_savePromotion {p : Promotion} {ks : List LockKey} (hp : (p.id, p.startsAt) ∈ starts)
    (hlocked : .row (.promotion p.id) ∈ ks) :
    (billingOrder request starts).Ascends i (fun _ n' _ => n' ≤ n) (fun _ _ _ => True)
      (savePromotion p) n ks := by
  have hstart : ∀ v q, promotionStarts v = starts → v.promotion p.id = some q → q.id = p.id ∧
      q.startsAt = p.startsAt := by
    intro v q hv hq
    obtain ⟨hrow, hid⟩ := Table.find_eq_some.1 hq
    have hmem : (p.id, q.startsAt) ∈ promotionStarts v := hid ▸ List.mem_map_of_mem hrow
    exact ⟨hid, start_unique hmem (hv ▸ hp)⟩
  refine .bind (.query (fun v hv => ?_) fun _ _ _ => trivial)
  rcases hseen : v.promotion p.id with - | seen
  · exact le_rfl
  dsimp only
  split
  · exact le_rfl
  refine .exec (m := n) le_rfl (fun v' hv' =>
    ⟨fun k hk => ?_, fun a u hu => ⟨fun d hd => ?_, le_rfl⟩⟩) fun _ _ _ => trivial
  · simp only [updateCommand] at hk
    split at hk
    · cases List.mem_singleton.1 hk
      exact .inr ⟨rfl, .inl hlocked⟩
    · exact absurd hk List.not_mem_nil
  · rcases hcurrent : v'.promotion p.id with - | current
    · simp [updateCommand, hcurrent] at hu
    simp only [updateCommand, hcurrent, Except.map, Except.ok.injEq, Prod.mk.injEq, true_and] at hu
    subst hu
    refine Eq.trans ?_ hd
    refine Table.map_update fun q hq => ?_
    have hmerged : (mergePromotion seen p current).startsAt = p.startsAt := by
      show changed seen.startsAt p.startsAt current.startsAt = p.startsAt
      rw [changed, if_pos (hstart v seen hv hseen).2.symm, (hstart v' current hv' hcurrent).2]
    exact Prod.ext (hstart d q hd hq).1.symm (hmerged.trans (hstart d q hd hq).2.symm)

/-- A statement that locks the credits of its own user. -/
theorem climbs_owned {α : Type} {l : Statement} {fault : Error} {c : Command Database Error α}
    (hlocks : ∀ v, ∀ k ∈ c.locks v, (billingOrder request starts).owner k = some i)
    (hrun : ∀ v a u, c.run v = .ok (a, u) → ∀ d, (u d).promotions = d.promotions) :
    (billingOrder request starts).Climbs i (Prog.exec l fault c) n n := by
  refine .exec le_rfl (fun v _ k hk => .inl (hlocks v k hk)) fun v a u _ hu d hd => ?_
  show promotionStarts (u d) = starts
  rw [promotionStarts, hrun v a u hu d]
  exact hd

omit [Digests] in
theorem run_insertCommand {entries : List IndexEntry} {check : Option Constraint}
    {w : Database → Database} {hw : Touches (entries.map .entry) w} {v : Database} {a : Unit}
    {u : Database → Database} (h : (insertCommand entries check w hw).run v = .ok (a, u)) :
    u = w := by
  simp only [insertCommand] at h
  split at h
  · cases h
  · cases h
  · cases h
    rfl

theorem climbs_publish {α : Type} (inj : α → Event) (events : List (Stamped α)) :
    (billingOrder request starts).Climbs i (publish inj events) n n := by
  refine climbs_owned (fun v k hk => absurd hk List.not_mem_nil) fun v a u hu d => ?_
  cases hu
  rfl

/-- The writes of a grant lock the credits of its own user, and the entries of its transaction. -/
theorem climbs_flush {t : CreditTransaction} {pending : PendingUserCredit}
    (hi : (request i).newUser = some t.userId) (hdistinct : OwnUsers request) :
    (billingOrder request starts).Climbs i (SqlAlchemyCreditRepository.flush t pending)
      (starts.length + 7)
      (starts.length + 8) := by
  obtain ⟨hrow, hentry⟩ := owner_userCredit starts hi hdistinct
  refine .bind (climbs_billing (Nat.lt_succ_self _) (fun v k hk => ?_) fun v a u hu d => ?_)
    fun _ => ?_
  · obtain ⟨e, he, rfl⟩ := List.mem_map.1 hk
    rcases List.mem_append.1 he with he | he
    · obtain ⟨key, -, rfl⟩ := Option.mem_map.1 (Option.mem_toList.1 he)
      exact .inr ⟨rfl, by show 5 + starts.length + 2 = _; omega⟩
    · obtain ⟨source, -, rfl⟩ := Option.mem_map.1 (Option.mem_toList.1 he)
      exact .inr ⟨rfl, by show 5 + starts.length + 2 = _; omega⟩
  · rw [run_insertCommand hu]
    rfl
  rcases pending with row | ⟨seen, row⟩
  · refine climbs_owned (fun v k hk => ?_) fun v a u hu d => ?_
    · cases List.mem_singleton.1 hk
      exact hentry
    · rw [run_insertCommand hu]
      rfl
  · rw [SqlAlchemyCreditRepository.flushUserCredit]
    split
    · exact .ret le_rfl
    refine climbs_owned (fun v k hk => ?_) fun v a u hu d => ?_
    · simp only [SqlAlchemyCreditRepository.updateUserCredit, updateCommand] at hk
      split at hk
      · cases List.mem_singleton.1 hk
        exact hrow
      · exact absurd hk List.not_mem_nil
    · rcases hcurrent : v.userCredits t.userId with - | current
      · simp [SqlAlchemyCreditRepository.updateUserCredit, updateCommand, hcurrent] at hu
      rcases hmerged : SqlAlchemyCreditRepository.mergeCounts seen row current with e | merged
      · simp [SqlAlchemyCreditRepository.updateUserCredit, updateCommand, hcurrent, hmerged,
          Except.map] at hu
      simp only [SqlAlchemyCreditRepository.updateUserCredit, updateCommand, hcurrent, hmerged,
        Except.map, Except.ok.injEq, Prod.mk.injEq, true_and] at hu
      subst hu
      rfl

theorem climbs_flushPendingWrites {t : CreditTransaction} {pending : PendingUserCredit}
    (hi : (request i).newUser = some t.userId)
    (hdistinct : OwnUsers request) :
    (billingOrder request starts).Climbs i (SqlAlchemyCreditRepository.flushPendingWrites t pending)
      (starts.length + 7)
      (starts.length + 8) := by
  refine .handle (climbs_flush hi hdistinct) fun e n => ?_
  cases e with
  | integrity c =>
    dsimp only
    split
    · exact .raise
    · exact .raise
  | domain | staleData | fault => exact .raise

/-- The grant of a promotion locks the credits of its own user, and the entries of its transaction. -/
theorem climbs_grant {command : GrantCreditCommand} {ids : CreditIds}
    (hi : (request i).newUser = some command.userId) (hdistinct : OwnUsers request) :
    (billingOrder request starts).Climbs i
      (GrantCreditCommandUseCase.execute deferredGrantUnitOfWork command ids)
      (starts.length + 7) (starts.length + 8) := by
  obtain ⟨hrow, -⟩ := owner_userCredit starts hi hdistinct
  have hreplay : ∀ n,
      (billingOrder request starts).Climbs i (GrantCreditCommandUseCase.replay command) n n :=
    fun n => .bind .query fun _ => .ret le_rfl
  have hduplicate : ∀ n, (billingOrder request starts).Climbs i
      (GrantCreditCommandUseCase.isDuplicateGrant command) n n := by
    intro n
    rw [GrantCreditCommandUseCase.isDuplicateGrant]
    split
    · refine .bind .query fun keyExists => ?_
      cases keyExists with
      | true => exact .ret le_rfl
      | false =>
        dsimp only
        rw [if_neg Bool.false_ne_true]
        split
        · exact .ret le_rfl
        · exact .query
    · rw [Prog.bind_eq, Prog.pure_eq, Prog.ret_bind]
      dsimp only
      rw [if_neg Bool.false_ne_true]
      split
      · exact .ret le_rfl
      · exact .query
  refine .bind (hduplicate _) fun duplicate => ?_
  cases duplicate with
  | true => exact (hreplay _).mono le_rfl (Nat.le_succ _)
  | false =>
    refine .bind (m := starts.length + 7) ?_ fun userCredit =>
      .bind (climbs_lift _) fun userCredit => ?_
    · refine .bind (climbs_owned (fun v k hk => ?_) fun v a u hu d => ?_) fun _ => .ret le_rfl
      · obtain ⟨r, -, rfl⟩ := Option.mem_map.1 (Option.mem_toList.1 hk)
        exact hrow
      · cases hu
        rfl
    refine .bind (.bind .query fun _ => .ret le_rfl) fun pending =>
      .bind (climbs_publish _ _) fun _ => ?_
    -- The writes climb to the credit; a conflict rolls them back, and its replay only reads.
    have hwrites : (billingOrder request starts).Climbs i
        ((SqlAlchemyCreditRepository.flushPendingWrites
          (GrantCreditCommandUseCase.transaction command ids) pending).bind
          fun _ => deferredGrantUnitOfWork.commit.bind fun _ => .ret
            (⟨userCredit.balance.totalGrantedCount, userCredit.balance.remainingCount⟩ :
              GrantCreditCommandResult))
        (starts.length + 7) (starts.length + 8) :=
      .bind (climbs_flushPendingWrites hi hdistinct) fun _ => .ret le_rfl
    refine .handle hwrites fun e n => ?_
    split
    · split
      · exact .raise
      · exact .bind .rollbackOr fun _ => (hreplay _).mono le_rfl le_rfl
    · exact .raise

/-- What is found is locked, after the promotions that are tried before. -/
theorem ascends_findCurrent {now : Instant} {context : PromotionContext} {ks : List LockKey} :
    (billingOrder request starts).Ascends i
      (fun found n ks => n ≤ starts.length + 6 ∧ ∀ p ∈ found, (p.id, p.startsAt) ∈ starts ∧
        .row (.promotion p.id) ∈ ks)
      (fun _ _ _ => True) (findCurrentOcrCreditPromotionForUpdate now context) 5 ks := by
  refine .bind (.query (fun v hv => ?_) fun _ _ _ => trivial)
  refine ascends_lockFirst (fun id hid => by omega) (by omega) ?_
  have hrows : ∀ p ∈ (v.promotions.rows.filter (isCurrent now context)).insertionSort comesBefore,
      p ∈ v.promotions.rows :=
    fun p hp => List.mem_of_mem_filter ((List.mem_insertionSort _).1 hp)
  have hnodup :
      ((v.promotions.rows.filter (isCurrent now context)).insertionSort comesBefore).Pairwise
        fun p q => p.id ≠ q.id := by
    rw [← List.pairwise_map, ← List.Nodup]
    have hperm :=
      List.perm_insertionSort comesBefore (v.promotions.rows.filter (isCurrent now context))
    exact (hperm.map Promotion.id).nodup_iff.2
      ((List.filter_sublist.map Promotion.id).nodup v.promotions.nodup)
  rw [List.pairwise_map]
  refine (hnodup.and (List.pairwise_insertionSort comesBefore _)).imp_of_mem fun hp hq h => ?_
  exact hv ▸ position_lt (hrows _ hp) (hrows _ hq) h.1 h.2

/-- The redemption of a signup locks promotions, then what it redeems and grants. -/
theorem climbs_redeemSignup {command : RedeemSignupPromotionCommand} {now : Instant}
    {ids : RedemptionIds} (hi : (request i).newUser = some command.userId)
    (hdistinct : OwnUsers request) :
    (billingOrder request starts).Climbs i
      (RedeemSignupPromotionCommandUseCase.execute (deferredCommitUnitOfWork none) command now ids) 5
      (starts.length + 8) := by
  intro ks
  refine .bind (ascends_findCurrent.mono (fun found n ks h => ?_) fun _ _ _ he => he)
  obtain ⟨hn, hfound⟩ := h
  rcases found with - | p
  · exact hn.trans (by omega)
  obtain ⟨hp, hlocked⟩ := hfound p rfl
  refine .bind (.query (fun v hv => ?_) fun _ _ _ => trivial)
  generalize v.promotionRedemptions.find? _ = existing
  rcases existing with - | existing
  · rcases p.ensureRedeemable now with e | -
    · trivial
    have hrest : (billingOrder request starts).Climbs i
        ((publish .promotion
          (RedeemSignupPromotionCommandUseCase.redemption command p now ids).2).bind fun _ =>
          (grantOcrCredit ⟨command.userId, p.benefitAmount.value, ids.redemptionId,
            RedeemSignupPromotionCommandUseCase.creditIdempotencyKey p.id ids.redemptionId⟩
              ids.credit).bind fun _ =>
              (deferredCommitUnitOfWork none).commit.bind fun _ => (return true : Tx Bool))
        (starts.length + 7) (starts.length + 8) := by
      refine .bind (climbs_publish _ _) fun _ => .bind (m := starts.length + 8) ?_ fun _ =>
        .ret le_rfl
      rw [grantOcrCredit]
      rcases CreditAmount.create p.benefitAmount.value "amount" with e | amount
      · exact .raise
      · exact climbs_grant hi hdistinct
    -- The promotion is locked already when its count is written.
    have hle : n ≤ starts.length + 7 := hn.trans (Nat.le_succ _)
    change LockOrder.Ascends _ _ _ _ ((createRedemption _).bind _) n ks
    refine .bind (.exec hle (fun v hv => ⟨fun k hk => ?_, fun a u hu => ?_⟩) fun _ _ _ => trivial)
    · obtain ⟨e, he, rfl⟩ := List.mem_map.1 hk
      have hrank : (billingOrder request starts).owner (.entry e) = none ∧
          (billingOrder request starts).rank (.entry e) = 5 + starts.length + 1 := by
        rcases List.mem_cons.1 he with rfl | he
        · exact ⟨rfl, rfl⟩
        · obtain ⟨key, -, rfl⟩ := Option.mem_map.1 (Option.mem_toList.1 he)
          exact ⟨rfl, rfl⟩
      refine .inr ⟨hrank.1, .inr ?_⟩
      rw [hrank.2]
      omega
    · obtain rfl := run_insertCommand hu
      refine ⟨fun d hd => hd, ?_⟩
      refine .bind
        ((ascends_savePromotion (p := p.recordRedemption) hp (List.mem_append_right _ hlocked)).mono
        (fun _ n ks hn => ?_) fun _ _ _ he => he)
      exact hrest.mono hn le_rfl ks
  · exact hn.trans (by omega)

theorem climbs_redeem [BeneficiaryDigest] {identity : ExternalIdentity} {ids : SignupIds}
    {userId : UUID} (hi : (request i).newUser = some userId)
    (hdistinct : OwnUsers request) :
    (billingOrder request starts).Climbs i (redeem identity ids userId) 5 (starts.length + 8) := by
  rw [redeem, create_beneficiaryKey]
  exact climbs_redeemSignup hi hdistinct

end

/-! ## All requests -/

section

variable {request : ι → OrderlyRequest} {starts : List (UUID × Instant)} {i : ι} {n m : ℕ} {α : Type}

theorem climbs_auth {p : AuthTx α} (h : (authOrder request starts).Climbs i p n m) :
    (appOrder request starts).Climbs i (AppTx.auth p) n m :=
  .lift (fun _ _ => trivial) (fun _ _ _ hs => hs) h

theorem climbs_users {p : UsersTx α}
    (h : ((appOrder request starts).comap usersPart fun _ => True).Climbs i p n m) :
    (appOrder request starts).Climbs i (AppTx.users p) n m :=
  .lift (fun _ _ => trivial) (fun _ _ _ hs => hs) h

theorem climbs_notifications {p : NotificationsTx α}
    (h : ((appOrder request starts).comap notificationsPart fun _ => True).Climbs i p n m) :
    (appOrder request starts).Climbs i (AppTx.notifications p) n m :=
  .lift (fun _ _ => trivial) (fun _ _ _ hs => hs) h

theorem climbs_billingPart {p : Tx α} (h : (billingOrder request starts).Climbs i p n m) :
    (appOrder request starts).Climbs i (AppTx.billing p) n m :=
  .lift (fun _ hs => hs) (fun _ hu s hs => hu s.billing hs) h

variable [CaseFolding]

omit [CaseFolding] [Digests] in
/-- The user of a signup is the new one. -/
theorem returns_resolveUser (command : ResolveUserForLoginCommand) (ids : AccountIds) :
    (ResolveUserForLoginCommandUseCase.execute (return) command ids).Returns (· = ids.userId) := by
  have hid : ∀ x, UserRecord.create ids.userId command.name command.email command.profileImageUrl
      ids.stamp = .ok x →
        x.1.id = ids.userId := by
    intro x hx
    rw [UserRecord.create] at hx
    rcases hemail : command.email.forM Email.validate with e | ⟨⟩
    · rw [hemail] at hx
      cases hx
    · rw [hemail] at hx
      cases hx
      rfl
  rw [ResolveUserForLoginCommandUseCase.execute]
  simp only [Prog.bind_eq, Prog.returns_bind]
  rcases Users.requireConsent command.termsAccepted
    (normalizedConsentVersion command.termsVersion) command.privacyAccepted
    (normalizedConsentVersion command.privacyVersion) with e | -
  · trivial
  rcases hcreate : UserRecord.create ids.userId command.name command.email command.profileImageUrl
    ids.stamp with e | x
  · trivial
  show (SqlAlchemyUserRepository.createAccountState x.1 _).Returns _
  exact .of_forall (fun _ => .of_forall (fun _ => hid x hcreate) _) _

theorem climbs_createCredentials (identity : ExternalIdentity) (ids : SignupIds) (userId : UUID) :
    (authOrder request starts).Climbs i (createCredentials identity ids userId) (starts.length + 8)
      (starts.length + 15) := by
  have houtbox : ∀ n, (authOrder request starts).Climbs i
      (Auth.flushOutbox [⟨ids.stamp, .userCredentialCreated ids.credentialsId userId "user"⟩]) n n :=
    fun n => .exec le_rfl (fun v _ k hk => absurd hk List.not_mem_nil) fun _ _ _ _ _ _ _ => trivial
  refine .bind (climbs_flushCredential _) fun _ => .bind (climbs_flushIdentity _) fun _ =>
    .bind (houtbox _) fun _ => ?_
  refine .bind ((climbs_flushSession _).mono (by omega) le_rfl) fun _ => ?_
  exact (climbs_flushRefreshToken none _).mono (by omega) le_rfl

theorem climbs_ensureNewUser (identity : ExternalIdentity) :
    (authOrder request starts).Climbs i (ensureNewUser identity) 0 0 := by
  refine .bind .query fun found => ?_
  rcases found with - | found
  · dsimp only
    split
    · refine .bind .query fun found => ?_
      rcases found with - | found
      · exact .ret le_rfl
      · exact .raise
    · exact .ret le_rfl
  · exact .raise

variable [BeneficiaryDigest]

theorem climbs_signup {identity : ExternalIdentity} {command : SignupCommand} {ids : SignupIds}
    (hi : request i = .signup identity command ids) (hapart : Apart request)
    (hdistinct : OwnUsers request) :
    (appOrder request starts).Climbs i (SignupCommandUseCase.execute identity command ids) 0
      (starts.length + 15) := by
  have hidentity : (request i).identity = some identity := by rw [hi]; rfl
  have huser : (request i).newUser = some ids.account.userId := by rw [hi]; rfl
  have hregister :
    (appOrder request starts).Climbs i (register identity command ids) 0 (starts.length + 15) := by
    have hredeem : (billingOrder request starts).Climbs i (redeem identity ids ids.account.userId) 5
        (starts.length + 8) :=
      climbs_redeem huser hdistinct
    have hcredentials :
        (authOrder request starts).Climbs i (createCredentials identity ids ids.account.userId)
          (starts.length + 8) (starts.length + 15) := climbs_createCredentials identity ids _
    rw [register, Prog.bind_eq]
    refine .bind (m := 2) ?_ fun _ => ?_
    · exact climbs_auth (.bind (climbs_ensureNewUser identity) fun _ =>
        climbs_synchronize hidentity hapart)
    rw [Prog.bind_eq]
    refine .bind_returns (climbs_users (climbs_resolveUser _ _)) (.lift (returns_resolveUser _ _)) ?_
    rintro _ rfl
    generalize redeem identity ids ids.account.userId = redemption at hredeem ⊢
    generalize createCredentials identity ids ids.account.userId = creation at hcredentials ⊢
    refine .bind (climbs_notifications (climbs_updateSettings _)) fun _ =>
      .bind (climbs_billingPart hredeem) fun _ => ?_
    exact .bind (climbs_auth hcredentials) fun _ => .bind .commitOr fun _ => .ret le_rfl
  rw [SignupCommandUseCase.execute]
  split
  · exact .raise
  · refine .handle hregister fun e n => .bind (m := starts.length + 15)
      (fun ks b => ?_) fun _ => .raise
    -- Whether the rollback fails or not, nothing is locked.
    cases b with
    | true => exact Nat.zero_le _
    | false => exact Nat.zero_le _

variable [AccessTokenVerifier]

/-- Every request takes its locks in the order. -/
theorem climbs_request (hapart : Apart request)
    (hdistinct : OwnUsers request) (i : ι) :
    (appOrder request starts).Climbs i (request i).prog 0 (starts.length + 15) := by
  rcases hi : request i with ⟨identity, command, ids⟩ | ⟨identity, ids⟩
    | ⟨refreshToken, issued, now⟩ |
    ⟨refreshToken, now, revokedAt⟩ | token
  · exact .bind (climbs_signup hi hapart hdistinct) fun _ => .ret le_rfl
  · have hidentity : (request i).identity = some identity := by rw [hi]; rfl
    exact climbs_auth (.bind (climbs_login hidentity hapart ids) fun _ => .ret le_rfl)
  · exact climbs_auth (.bind (climbs_refresh refreshToken issued now) fun _ => .ret le_rfl)
  · refine climbs_auth (.bind (m := starts.length + 15) ?_ fun _ => .ret le_rfl)
    exact .bind (climbs_revokeSession _ now revokedAt) fun _ => .commitOr
  · exact climbs_auth (.bind (climbs_access token) fun _ => .ret le_rfl)

/-- Signups, logins, refreshes, logouts and requests that are authenticated never wait for each
    other in a circle: wherever they are, whatever has gone wrong, all of them can be brought to
    their ends without anything going wrong. -/
theorem requests_complete [Finite ι] [DecidableEq ι] (hapart : Apart request)
    (hdistinct : OwnUsers request)
    {d : AppDatabase} {s : System ι AppDatabase AppStatement AppError AuthResponse}
    (hs : Reach Always (System.init (fun i => (request i).prog) d) s) :
    ∃ ms s', Transition.Run (Step Always) s ms s' ∧ (∀ m ∈ ms, m.Regular) ∧ ∀ i, s'.Over i := by
  refine (LockOrder.Good.reach (o := appOrder request (promotionStarts d.billing)) rfl
    (fun i => ?_) hs).completes
  exact (climbs_request hapart hdistinct i []).mono (fun _ _ _ _ => trivial) fun _ _ _ he => he

end

end

/-! ## Waiting -/

/-- Digests under which the locks of identities and emails differ. -/
@[reducible] def lengthDigests : Digests := ⟨id, fun key => key.length⟩

/-- A signup, and a login with the same identity. -/
def signupAndLogin : Bool → OrderlyRequest
  | false => .signup (googleIdentity 2 "first") signupCommand signupIds
  | true => .login (googleIdentity 2 "first") ⟨.ofNat 20, ⟨.ofNat 21, "second", 9⟩, 2⟩

/-- The login waits for the signup, and both come to an end. -/
theorem login_waits : letI := lowerCase; letI := lengthDigests; letI := zeroDigest
    letI : AccessTokenVerifier := ⟨fun _ => none⟩
    ∃ (s s' : System Bool AppDatabase AppStatement AppError AuthResponse)
      (ms : List (ReadCommitted.Move Bool)),
      Reach Always (System.init (fun i => (signupAndLogin i).prog) beforeSignups) s ∧
        (s.move Always (.run true)).isNone ∧
        Transition.Run (Step Always) s ms s' ∧ (∀ m ∈ ms, m.Regular) ∧ ∀ i, s'.Over i := by
  let _ := lowerCase
  let _ := lengthDigests
  let _ := zeroDigest
  let _ : AccessTokenVerifier := ⟨fun _ => none⟩
  obtain ⟨s, hs, hwaits⟩ := System.exists_reach (C := Always)
    (s := System.init (fun i => (signupAndLogin i).prog) beforeSignups)
    (p := fun s => (s.move Always (.run true)).isNone) (List.replicate 3 (.run false))
      (by decide +kernel)
  have hapart : Apart signupAndLogin := by
    rintro (- | -) (- | -) _ ⟨⟩ _ ⟨⟩ _ ⟨⟩ <;> decide
  have hdistinct : OwnUsers signupAndLogin := by
    rintro (- | -) (- | -) userId hi hj
    · rfl
    · cases hj
    · cases hi
    · rfl
  obtain ⟨ms, s', hrun, hms, hs'⟩ := requests_complete hapart hdistinct hs
  exact ⟨s, s', ms, hs, hwaits, hrun, hms, hs'⟩

/-- A logout, and a withdrawal of the same account. -/
def logoutAndWithdrawal : Bool → AuthRequest
  | false => .logout "first" 1 1
  | true => .withdraw ⟨⟨0⟩, ⟨1⟩⟩ ⟨⟨⟨6⟩, 1⟩, ⟨⟨7⟩, 1⟩, ⟨⟨8⟩, 1⟩⟩

/-- The logout has the session and waits for the token, the withdrawal has the token and waits for
    the session. -/
theorem logout_and_withdrawal_stuck : letI := identityDigests; letI := CaseFolding.ascii
    letI : AccessTokenVerifier := ⟨fun _ => none⟩
    ∃ s, Reach Always (System.init (fun i => (logoutAndWithdrawal i).prog) firstSession) s ∧
      s.Stuck := by
  let _ := identityDigests
  let _ := CaseFolding.ascii
  let _ : AccessTokenVerifier := ⟨fun _ => none⟩
  obtain ⟨s, hs, hover, hrun, hclose⟩ := System.exists_reach (C := Always)
    (s := System.init (fun i => (logoutAndWithdrawal i).prog) firstSession)
    (p := fun s => ¬s.Over false ∧ (∀ i, (s.move Always (.run i)).isNone) ∧
      ∀ i, (s.move Always (.close i)).isNone)
    (List.replicate 4 (.run false) ++ List.replicate 4 (.run true)) (by decide +kernel)
  exact ⟨s, hs, System.stuck_of_move hover hrun hclose⟩

end Boat.App
