import Boat.App.Withdrawal
import Boat.ReadCommitted.Moves
import Boat.Auth.SessionsSpec

/-!
# Refresh sessions

Logins, refreshes, logouts and withdrawals, with requests that are authenticated by an access token
among them, in any interleaving.

* `refresh_sessions`: a refresh token is used at most once, a session owns at most one, what is
  revoked or withdrawn stays so for every request that starts later, and only a refresh that succeeds
  changes the store.
-/

namespace Boat.App

open ReadCommitted Auth Users Notifications

/-! ## Requests -/

inductive AuthRequest
  | login (identity : ExternalIdentity) (ids : LoginIds)
  | refresh (refreshToken : String) (issued : IssuedRefreshToken) (now : Instant)
  | logout (refreshToken : String) (now revokedAt : Instant)
  | withdraw (command : WithdrawAccountCommand) (stamps : WithdrawalStamps)
  /-- Authenticate a request by its access token. -/
  | access (token : String)
  deriving DecidableEq, Repr

inductive AuthResponse
  | tokens (result : TokenResult)
  | done
  | principal (p : AuthenticatedPrincipal)
  deriving DecidableEq, Repr

namespace AuthRequest

/-- The session that the request opens. -/
def sessionId : AuthRequest → Option UUID
  | .login _ ids => some ids.sessionId
  | _ => none

/-- The refresh token that the request issues. -/
def issuedToken : AuthRequest → Option String
  | .login _ ids => some ids.refreshToken.token
  | .refresh _ issued _ => some issued.token
  | _ => none

variable [Digests]

/-- What the request does to sessions and tokens. -/
def effect : AuthRequest → SessionEffect
  | .login _ ids => .opens ids.sessionId (Digests.hash ids.refreshToken.token)
  | .refresh refreshToken issued _ => .rotates (Digests.hash refreshToken) (Digests.hash issued.token)
  | .logout .. | .withdraw .. => .shrinks
  | .access _ => .none

/-- What holds when the request has returned, and from then on. -/
def Ensures (request : AuthRequest) (d : AppDatabase) : Prop :=
  match request with
  | .refresh refreshToken issued _ =>
    (some (Digests.hash refreshToken), Digests.hash issued.token) ∈ d.auth.tokenHistory
  | .withdraw command _ => Withdrawn command.userId command.credentialsId d.auth
  | _ => True

/-- The program of a request. -/
def prog [CaseFolding] [AccessTokenVerifier] : AuthRequest → AppTx AuthResponse
  | .login identity ids => AppTx.auth do return .tokens (← LoginCommandUseCase.execute identity ids)
  | .refresh refreshToken issued now =>
    AppTx.auth do return .tokens (← RefreshTokenCommandUseCase.execute refreshToken issued now)
  | .logout refreshToken now revokedAt => AppTx.auth do
    LogoutCommandUseCase.execute refreshToken now revokedAt
    return .done
  | .withdraw command stamps => do
    WithdrawAccountCommandUseCase.execute command stamps
    return .done
  | .access token => AppTx.auth do return .principal (← CurrentPrincipalQueryUseCase.execute token)

end AuthRequest

section Requests

variable {ι : Type} [Digests] {request : ι → AuthRequest} {i : ι} {d : AppDatabase}

/-- Sessions and refresh tokens are issued once, and have not been there before. -/
structure Fresh (request : ι → AuthRequest) (d : AuthDatabase) : Prop where
  session : ∀ i, ∀ sessionId ∈ (request i).sessionId, sessionId ∉ d.sessionHistory
  session_ne : ∀ i j, ∀ sessionId ∈ (request i).sessionId, sessionId ∈ (request j).sessionId → i = j
  token : ∀ i, ∀ token ∈ (request i).issuedToken, Digests.hash token ∉ d.tokenHistory.map (·.2)
  token_ne : ∀ i j, ∀ token ∈ (request i).issuedToken, token ∈ (request j).issuedToken → i = j

theorem AuthRequest.opened_effect (request : AuthRequest) :
    request.effect.opened = request.sessionId := by
  rcases request with - | - | - | - | - <;> rfl

theorem AuthRequest.issued_effect (request : AuthRequest) :
    request.effect.issued = request.issuedToken.map Digests.hash := by
  rcases request with - | - | - | - | - <;> rfl

theorem Fresh.distinct (h : Fresh request d.auth) (hinj : Function.Injective Digests.hash) :
    Distinct fun i => (request i).effect where
  session i j sessionId hi hj := by
    rw [AuthRequest.opened_effect] at hi hj
    exact h.session_ne i j sessionId hi hj
  token i j tokenHash hi hj := by
    rw [AuthRequest.issued_effect, Option.mem_map] at hi hj
    obtain ⟨token, hi, rfl⟩ := hi
    obtain ⟨token', hj, heq⟩ := hj
    exact h.token_ne i j token hi (hinj heq ▸ hj)

theorem Fresh.unused (h : Fresh request d.auth) (i : ι) : Unused (request i).effect d.auth where
  session sessionId hi := by
    rw [AuthRequest.opened_effect] at hi
    exact h.session i sessionId hi
  token tokenHash hi := by
    rw [AuthRequest.issued_effect, Option.mem_map] at hi
    obtain ⟨token, hi, rfl⟩ := hi
    exact h.token i token hi

/-- The protocol of the requests: that of their effects, on the tables of the auth module. -/
def authSessions (request : ι → AuthRequest) : Protocol ι AppDatabase AppLock AppStatement :=
  (sessions fun i => (request i).effect).comap authPart .auth

theorem stable_ensures (j : ι) : (authSessions request).Stable i (request j).Ensures := by
  intro s s' h hs
  have h' : (sessions fun i => (request i).effect).Other i [] s.auth s'.auth := h.comap
  rcases hj : request j with - | ⟨refreshToken, issued, now⟩ | - | ⟨command, stamps⟩ | -
  · trivial
  · rw [hj] at hs
    exact stable_replaced
      (p := (some (Digests.hash refreshToken), Digests.hash issued.token)) _ _ h' hs
  · trivial
  · rw [hj] at hs
    have hstable : (sessions fun i => (request i).effect).Stable i
        (Withdrawn command.userId command.credentialsId) :=
      stable_withdrawn
    exact hstable _ _ h' hs
  · trivial

omit [Digests] in
/-- A withdrawal commits what it has written to the tables of the auth module, if the other modules
    leave them alone. -/
theorem wp_withdrawal {P : Protocol ι AuthDatabase AuthLock AuthStatement}
    {G : (AuthDatabase → AuthDatabase) → AuthDatabase → Prop} {R : AuthDatabase → Prop}
    {command : WithdrawAccountCommand} {stamps : WithdrawalStamps} (hstable : ∀ w, P.Stable i (G w))
    (hcommit : ∀ w ks d, P.inv d → G w d → P.inv (w d) ∧ P.guar i ks d (w d) ∧ R (w d))
    (h : P.wp i (fun _ w _ d => P.inv d ∧ G w d) (fun _ _ _ _ => True)
      ((SqlAlchemyCredentialRepository.deleteAccountAuthState command.userId
        command.credentialsId).bind fun _ =>
        Auth.flushOutbox
          [⟨stamps.accountWithdrawn, .accountWithdrawn command.credentialsId command.userId⟩]) id
            [] d.auth) :
    (P.comap authPart AppStatement.auth).wp i (fun _ _ _ d => R d.auth) (fun _ _ _ _ => True)
      (WithdrawAccountCommandUseCase.execute command stamps) id [] d := by
  simp only [WithdrawAccountCommandUseCase.execute, Prog.bind_eq, Protocol.wp_bind_eq]
  refine Protocol.wp_lift (w := id) (E := fun _ _ _ _ => True) (fun _ => rfl) ?_
    (fun _ _ _ _ _ _ _ => trivial) h
  rintro - u w ms s hu ⟨hinv, hG⟩
  -- The other modules do not write to the tables of the auth module.
  refine Protocol.wp_lift_other (deferred_withdrawalCleanup ..) (fun _ _ => rfl) hstable hinv
    ⟨u, hu, hG⟩ fun _ _ _ _ hinv hs => ?_
  refine Protocol.wp_lift_other (deferred_deleteUserCredits ..)
    (fun _ _ => rfl) hstable hinv hs fun _ _ _ _ hinv hs => ?_
  refine Protocol.wp_lift_other (deferred_deleteUserPushTokens _)
    (fun _ _ => rfl) hstable hinv hs fun _ _ _ _ hinv hs => ?_
  exact Protocol.wp_commitOr_does hstable hs hcommit

/-- After a withdrawal, the account is not there. -/
theorem wp_withdraw {command : WithdrawAccountCommand} {stamps : WithdrawalStamps}
    (hrequest : request i = .withdraw command stamps) :
    (authSessions request).wp i (fun _ _ _ d => Withdrawn command.userId command.credentialsId d.auth)
      (fun _ _ _ _ => True) (WithdrawAccountCommandUseCase.execute command stamps) id [] d := by
  refine wp_withdrawal (P := sessions fun i => (request i).effect) (G := fun u d => Shrinking u ∧
    (Withdrawn command.userId command.credentialsId d ∨
      ∀ d, Withdrawn command.userId command.credentialsId (u d)))
    (fun u d d' hc hu => hu.imp_right (·.imp_left (stable_withdrawn d d' hc)))
      (fun u ks d hd hu => ?_) ?_
  · have hc : SessionEffect.shrinks.Change d (u d) := .shrinks (hu.1 d)
    refine ⟨hd.change hc, ?_, hu.2.elim (·.shrinks (hu.1 d)) fun h => h d⟩
    show (request i).effect.Change d (u d)
    rw [hrequest]
    exact hc
  · rw [Protocol.wp_bind]
    refine wp_deleteAccountAuthState fun u ks d₁ hd₁ hu hwithdrawn => ?_
    refine Auth.wp_insert fun d₂ hi₂ hd₂ _ _ => ?_
    refine ⟨hd₂, (shrinking_insertOutbox _).comp hu,
      hwithdrawn.imp (stable_withdrawn.interf hi₂) fun h d => ?_⟩
    exact (h d).shrinks (shrinking_insertOutbox _ (u d))

omit [Digests] in
/-- A program of the auth module does to its tables what it does to those of the application. -/
theorem wp_auth {P : Protocol ι AuthDatabase AuthLock AuthStatement} {α : Type} {p : AuthTx α}
    {f : α → AuthResponse} {Q : α → AuthDatabase → Prop} {R : AuthResponse → AppDatabase → Prop}
    (hR : ∀ a (s : AppDatabase), Q a s.auth → R (f a) s)
    (h : P.wp i (fun a _ _ => Q a) (fun _ _ _ _ => True) p id [] d.auth) :
    (P.comap authPart AppStatement.auth).wp i (fun a _ _ => R a) (fun _ _ _ _ => True)
      (AppTx.auth (p.bind fun a => .ret (f a))) id [] d := by
  refine Protocol.wp_lift (w := id) (Q := fun b _ _ s => ∃ a, b = f a ∧ Q a s)
    (E := fun _ _ _ _ => True) (fun _ => rfl)
    (fun b _ _ _ s _ hb => ?_) (fun _ _ _ _ _ _ _ => trivial)
    (Protocol.wp_bind.2
      (Protocol.wp_mono h (fun a _ _ _ ha => ⟨a, rfl, ha⟩) fun _ _ _ _ _ => trivial))
  obtain ⟨a, rfl, ha⟩ := hb
  exact hR a s ha

variable [CaseFolding] [AccessTokenVerifier]

/-- Every request meets the protocol. -/
theorem meets_authSessions (hinj : Function.Injective Digests.hash) (hfresh : Fresh request d.auth)
    (hd : Proper d.auth) :
    (authSessions request).Meets (fun i => (request i).prog) d (fun i _ => (request i).Ensures)
      (fun _ _ _ => True) where
  inv := hd
  wp i := by
    have hdistinct := hfresh.distinct hinj
    have hunused := hfresh.unused i
    rcases hi : request i with ⟨identity, ids⟩ | ⟨refreshToken, issued, now⟩
      | ⟨refreshToken, now, revokedAt⟩ |
      ⟨command, stamps⟩ | token
    · exact wp_auth (fun _ _ _ => trivial)
        (wp_login hdistinct (congrArg AuthRequest.effect hi) hd hunused)
    · exact wp_auth (fun _ _ h => h.1) (wp_refresh hdistinct (congrArg AuthRequest.effect hi) hunused)
    · exact wp_auth (fun _ _ _ => trivial) (wp_logout (congrArg AuthRequest.effect hi) hd)
    · exact Protocol.wp_bind.2 (wp_withdraw hi)
    · exact wp_auth (fun _ _ _ => trivial) (wp_currentPrincipal fun _ _ _ _ => trivial)
  stable_ret i _ := stable_ensures i
  stable_raise _ _ _ _ _ _ := trivial

/-- The session of an access token has been revoked, or its account withdrawn, and that is
    committed. -/
def Ended (request : ι → AuthRequest) (s : System ι AppDatabase AppStatement AppError AuthResponse)
    (p : AuthenticatedPrincipal) : Prop :=
  (∃ r ∈ s.store.auth.authSessions.rows, r.id = p.sessionId ∧ r.revokedAt ≠ none) ∨
    ∃ i command stamps, request i = .withdraw command stamps ∧ command.userId = p.userId ∧
      command.credentialsId = p.credentialsId ∧ s.returned i ≠ none

variable [DecidableEq ι]

omit [CaseFolding] [AccessTokenVerifier] in
theorem commitsLast_refresh (refreshToken : String) (issued : IssuedRefreshToken) (now : Instant) :
    (RefreshTokenCommandUseCase.execute refreshToken issued now).CommitsLast := by
  refine .bind (within_rotateRefreshToken _ now).1 fun a => .bind (.exec ..) fun _ => ?_
  exact Prog.commitsLast_commitOr_bind _ _

omit [CaseFolding] [AccessTokenVerifier] [DecidableEq ι] in
/-- What has ended is dead. -/
theorem Ended.dead {s : System ι AppDatabase AppStatement AppError AuthResponse}
    {p : AuthenticatedPrincipal} (h : Ended request s p) (hproper : Proper s.store.auth)
    (hreturned : ∀ i a, s.returned i = some a → (request i).Ensures s.store) :
    Dead p s.store.auth := by
  rcases h with ⟨r, hr, hid, hrevoked⟩ | ⟨i, command, stamps, hi, huser, hcredentials, hreturn⟩
  · refine .inl ⟨hid ▸ hproper.opened r hr, fun q hq hqid => ?_⟩
    rw [Table.eq_of_key hq hr (hqid.trans hid.symm)]
    exact hrevoked
  · obtain ⟨a, ha⟩ := Option.ne_none_iff_exists'.1 hreturn
    have hensures := hreturned i a ha
    rw [hi] at hensures
    exact .inr (huser ▸ hcredentials ▸ hensures)

omit [CaseFolding] [AccessTokenVerifier] [DecidableEq ι] in
/-- What the commits of requests keep, runs keep. -/
theorem kept_changes {R : AuthDatabase → Prop} {d' : AppDatabase}
    (hR : ∀ {e : SessionEffect} {d d' : AuthDatabase}, R d → e.Change d d' → R d') (h : R d.auth)
    (hc : Relation.ReflTransGen (authSessions request).Change d d') : R d'.auth := by
  induction hc with
  | refl => exact h
  | tail _ hc ih =>
    obtain ⟨i, ks, -, hc, -⟩ := hc
    exact hR ih hc

/-- A refresh token is used at most once, a session owns at most one, what has ended stays so for
    every request that starts later, and only a refresh that succeeds changes the store. -/
theorem refresh_sessions (hinj : Function.Injective Digests.hash) (hfresh : Fresh request d.auth)
    (hd : Proper d.auth) {s : System ι AppDatabase AppStatement AppError AuthResponse}
    (hs : Reach Always (System.init (fun i => (request i).prog) d) s) :
    (∀ i j refreshToken issued issued' now now', request i = .refresh refreshToken issued now →
      request j = .refresh refreshToken issued' now' → s.returned i ≠ none →
      s.returned j ≠ none → i = j) ∧
    (∀ sessionId, s.store.auth.refreshTokens.rows.countP (·.sessionId = some sessionId) ≤ 1) ∧
    (∀ p, Ended request s p → ∀ s', Reach Always s s' →
      SqlAlchemyCredentialRepository.hasActiveSession p.userId p.credentialsId p.sessionId
        s'.store.auth = false ∧
      ∀ j token, request j = .access token → s.session j = .idle (some (request j).prog) →
        s'.returned j ≠ some (.principal p)) ∧
    ∀ i refreshToken issued now, request i = .refresh refreshToken issued now →
      ∀ m s', Step Always s m s' → m.session = i → s'.store ≠ s.store →
      ∃ a, s'.returned i = some a := by
  have hmeets := meets_authSessions hinj hfresh hd
  have hC : ∀ i l (d : AppDatabase) ks, Always i l d ks → (authSessions request).cond i l d ks :=
    fun _ _ _ _ _ _ _ => trivial
  have hgood := hmeets.good (hs.mono hC)
  obtain ⟨hinv, hreturned, -⟩ := hmeets.sound (hs.mono hC)
  have hproper : Proper s.store.auth := hinv
  refine ⟨fun i j refreshToken issued issued' now now' hi hj hri hrj => ?_, fun sessionId => ?_,
    fun p hp s' hs' => ?_, fun i refreshToken issued now hi m s' hst hm hne => ?_⟩
  · obtain ⟨a, ha⟩ := Option.ne_none_iff_exists'.1 hri
    obtain ⟨b, hb⟩ := Option.ne_none_iff_exists'.1 hrj
    have hmem := hreturned i a ha
    have hmem' := hreturned j b hb
    rw [hi] at hmem
    rw [hj] at hmem'
    have heq := eq_of_nodup_filterMap hproper.replaced_nodup hmem hmem' rfl rfl
    refine hfresh.token_ne i j issued.token (by rw [hi]; rfl) ?_
    rw [hj, hinj (Prod.ext_iff.1 heq).2]
    rfl
  · have hcount := List.nodup_iff_count_le_one.1 hproper.owners_nodup sessionId
    rw [List.count_filterMap] at hcount
    simpa [Bool.beq_eq_decide_eq] using hcount
  · have hdead := hp.dead hproper hreturned
    have hdead' : Dead p s'.store.auth :=
      kept_changes (fun h hc => h.change hc) hdead
        (hgood.changes hmeets.stable_ret hmeets.stable_raise (hs'.mono hC))
    refine ⟨hdead'.hasActiveSession, fun j token hj hstart hreturn => ?_⟩
    -- The request has not started: whatever it sees, the session is dead.
    have hfocus := hgood.focus (i := j) (Q := fun a _ => a ≠ .principal p) (E := fun _ _ => True) ?_
    · have hgood' := hfocus.reach (fun _ _ _ _ _ h => h) (fun _ _ _ _ _ h => h) (hs'.mono hC)
      exact hgood'.wp j _ (System.returned_eq_some.1 hreturn) rfl rfl
    · intro q hq
      rw [hstart] at hq ⊢
      cases hq
      rw [hj]
      refine wp_auth (Q := fun q _ => q ≠ p) (fun q _ hne heq =>
        hne (AuthResponse.principal.inj heq)) ?_
      refine wp_currentPrincipal (R := fun q => q ≠ p) fun q d' hi hactive => ?_
      rintro rfl
      have hdead' : Dead q d' :=
        (stable_of_change fun h hc => h.change hc : (sessions _).Stable j (Dead q)).interf hi hdead
      rw [hdead'.hasActiveSession] at hactive
      cases hactive
  · refine hs.returned_of_commit ?_ hst hm hne
    rw [hi]
    exact (commitsLast_refresh refreshToken issued now).map.lift

end Requests

/-- A user who has signed up. -/
def registeredUser : AppDatabase :=
  { AppDatabase.empty with
    auth := AuthDatabase.insertIdentity
      ⟨⟨5⟩, ⟨1⟩, "https://securetoken.google.com/app", "subject", "google.com", none, none, false⟩
      (AuthDatabase.insertCredential ⟨⟨1⟩, ⟨0⟩, "user", none⟩ .empty) }

/-- A login, a refresh of its token, a logout with the token that this issues, and a request with
    the access token. -/
def loginToLogout : Fin 4 → AuthRequest
  | 0 => .login ⟨⟨6⟩, "https://securetoken.google.com/app", "subject", "google.com", none,
    false, none⟩
    ⟨⟨2⟩, ⟨⟨3⟩, "first", 10⟩, 0⟩
  | 1 => .refresh "first" ⟨⟨4⟩, "second", 20⟩ 1
  | 2 => .logout "second" 2 2
  | 3 => .access "access"

/-- Every token is its own hash. -/
@[reducible] def identityDigests : Digests := ⟨id, fun _ => 0⟩

theorem proper_registeredUser : Proper registeredUser.auth := by
  refine ⟨.nil, ?_, ?_, ?_, .nil, .nil, ?_, ?_⟩ <;> exact fun _ h => absurd h List.not_mem_nil

theorem fresh_loginToLogout : letI := identityDigests; Fresh loginToLogout registeredUser.auth := by
  let _ := identityDigests
  have hsession : ∀ i, (loginToLogout i).sessionId = if i = 0 then some ⟨2⟩ else none := by decide
  have htoken : ∀ i, (loginToLogout i).issuedToken =
      if i = 0 then some "first" else if i = 1 then some "second" else none := by decide
  refine ⟨fun i s _ => List.not_mem_nil, fun i j s hi hj => ?_, fun i t _ => List.not_mem_nil,
    fun i j t hi hj => ?_⟩
  · rw [hsession] at hi hj
    grind
  · rw [htoken] at hi hj
    grind

/-- A user logs in and refreshes the session, which has then its one token, the second; after a
    logout with it, the session has ended, and its access token is refused. -/
theorem refresh_sessions_loginToLogout :
    letI := identityDigests
    letI := CaseFolding.ascii
    letI : AccessTokenVerifier :=
      ⟨fun token => if token = "access" then some ⟨⟨0⟩, ⟨1⟩, ⟨2⟩, "user"⟩ else none⟩
    ∃ s₀ s s₁ s₂ : System (Fin 4) AppDatabase AppStatement AppError AuthResponse,
      (Reach Always (System.init (fun i => (loginToLogout i).prog) registeredUser) s₀ ∧
        s₀.store.auth.refreshTokens.rows = [⟨⟨3⟩, ⟨1⟩, some ⟨2⟩, "first", 10⟩]) ∧
      (Step Always s₀ (.run 1) s ∧ s.store ≠ s₀.store ∧ (∃ a, s.returned 1 = some a) ∧
        s.store.auth.refreshTokens.rows = [⟨⟨4⟩, ⟨1⟩, some ⟨2⟩, "second", 20⟩] ∧
        s.store.auth.refreshTokens.rows.countP (·.sessionId = some ⟨2⟩) ≤ 1) ∧
      (Reach Always s s₁ ∧ Ended loginToLogout s₁ ⟨⟨0⟩, ⟨1⟩, ⟨2⟩, "user"⟩) ∧
      Reach Always s₁ s₂ ∧ s₂.raised 3 = some (.domain .authentication) ∧
      SqlAlchemyCredentialRepository.hasActiveSession ⟨0⟩ ⟨1⟩ ⟨2⟩ s₂.store.auth = false ∧
      s₂.returned 3 ≠ some (.principal ⟨⟨0⟩, ⟨1⟩, ⟨2⟩, "user"⟩) := by
  let _ := identityDigests
  let _ := CaseFolding.ascii
  let _ : AccessTokenVerifier :=
    ⟨fun token => if token = "access" then some ⟨⟨0⟩, ⟨1⟩, ⟨2⟩, "user"⟩ else none⟩
  have hrun : (System.exec Always (System.init (fun i => (loginToLogout i).prog) registeredUser)
      (List.replicate 7 (.run 0) ++ List.replicate 4 (.run 1))).any fun s₀ =>
        decide (s₀.store.auth.refreshTokens.rows = [⟨⟨3⟩, ⟨1⟩, some ⟨2⟩, "first", 10⟩]) &&
        (s₀.move Always (.run 1)).any fun s =>
          decide (s.store.auth.refreshTokens.rows = [⟨⟨4⟩, ⟨1⟩, some ⟨2⟩, "second", 20⟩]) &&
          (s.exec Always (List.replicate 6 (.run 2))).any fun s₁ =>
            decide (s₁.store.auth.authSessions.rows = [⟨⟨2⟩, ⟨1⟩, some 2⟩]) &&
            (s₁.exec Always [.run 3]).any fun s₂ =>
              decide (s₂.raised 3 = some (.domain .authentication)) := by
    decide +kernel
  simp only [Option.any_eq_true, Bool.and_eq_true, decide_eq_true_eq] at hrun
  obtain ⟨s₀, h₀, hfirst, s, hstep, hsecond, s₁, h₁, hrevoked, s₂, h₂, hraised⟩ := hrun
  have hs₀ := System.reach_of_exec h₀
  have hst := System.step_of_move hstep
  have hs := hs₀.step hst
  have hs₁ := System.reach_of_exec h₁
  have hs₂ := System.reach_of_exec h₂
  -- The request has not started when the logout has ended.
  have hstart : s₁.session 3 = .idle (some (loginToLogout 3).prog) := by
    rw [System.session_of_exec h₁ (by decide), hst.session_of_ne (by decide),
      System.session_of_exec h₀ (by decide)]
    rfl
  have hended : Ended loginToLogout s₁ ⟨⟨0⟩, ⟨1⟩, ⟨2⟩, "user"⟩ :=
    .inl ⟨⟨⟨2⟩, ⟨1⟩, some 2⟩, by simp [hrevoked], rfl, Option.some_ne_none 2⟩
  have hne : s.store ≠ s₀.store := by
    intro heq
    rw [heq, hfirst] at hsecond
    cases hsecond
  have hinj : Function.Injective Digests.hash := fun _ _ h => h
  have hfresh := fresh_loginToLogout
  have hproper := proper_registeredUser
  obtain ⟨-, hcount, -⟩ := refresh_sessions hinj hfresh hproper hs
  obtain ⟨-, -, -, hcommits⟩ := refresh_sessions hinj hfresh hproper hs₀
  obtain ⟨-, -, hafter, -⟩ := refresh_sessions hinj hfresh hproper (hs.trans hs₁)
  obtain ⟨hinactive, haccess⟩ := hafter _ hended s₂ hs₂
  exact ⟨s₀, s, s₁, s₂, ⟨hs₀, hfirst⟩,
    ⟨hst, hne, hcommits 1 _ _ _ rfl _ s hst rfl hne, hsecond, hcount ⟨2⟩⟩, ⟨hs₁, hended⟩, hs₂,
    hraised, hinactive, haccess 3 "access" rfl hstart⟩

end Boat.App
