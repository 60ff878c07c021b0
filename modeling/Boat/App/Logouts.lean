import Boat.App.Sessions
import Boat.Auth.Logouts
import Boat.ReadCommitted.Moves

/-!
# Logouts

A logout and a refresh of the same token, with logins, refreshes, logouts, withdrawals and requests
that are authenticated by an access token among them, in any interleaving.

* `logout_wins`: if no refresh of its token has committed when a logout looks the token up, then the
  session has ended when the logout has returned, and no request that starts later is answered for it.
* `logout_after_refresh`: what is left of the session otherwise, and of its tokens.
-/

namespace Boat.App

open ReadCommitted Auth Users Notifications SqlAlchemyCredentialRepository

/-- The session of a response. -/
def AuthResponse.sessionId : AuthResponse → Option UUID
  | .tokens result => some result.accessToken.sessionId
  | .principal p => some p.sessionId
  | .done => none

section Requests

variable {ι : Type} [Digests] {request : ι → AuthRequest} {token : RefreshToken}
  {sessionId : UUID} {i j : ι}
  {d : AppDatabase}

/-- The refresh token is current, with its row, for a session of the same credentials. -/
structure Current (refreshToken : String) (now : Instant) (token : RefreshToken)
    (authSession : AuthSession) (d : AuthDatabase) : Prop where
  row : token ∈ d.refreshTokens.rows
  hash : token.tokenHash = Digests.hash refreshToken
  valid : now < token.expiresAt
  session : authSession ∈ d.authSessions.rows
  owner : token.sessionId = some authSession.id
  credentials : authSession.credentialsId = token.credentialsId

/-- When the logout `j` looks the token up, no refresh has replaced it. -/
def LooksUpFirst (j : ι) (tokenHash : String) : Condition ι AppDatabase AppLock AppStatement :=
  fun i l d _ =>
  i = j → l = .auth (.findRefreshToken tokenHash) → ¬Replaced tokenHash d.auth

theorem Current.traced {refreshToken : String} {now : Instant} {authSession : AuthSession}
    {d : AuthDatabase} (hd : Proper d) (h : Current refreshToken now token authSession d) :
    Traced token authSession.id d where
  opened := hd.opened authSession h.session
  owner s hs hid := by
    rw [Table.eq_of_key hs h.session hid]
    exact h.credentials
  row := .inl h.row

variable [CaseFolding] [AccessTokenVerifier]

/-- Every request keeps the row of the token, or it is spent; the logout ends its session. -/
theorem meets_logouts (hinj : Function.Injective Digests.hash) (hfresh : Fresh request d.auth)
    (hd : Proper d.auth) {refreshToken : String} {now revokedAt : Instant} {authSession : AuthSession}
    (hj : request j = .logout refreshToken now revokedAt)
    (hcurrent : Current refreshToken now token authSession d.auth) :
    ((logouts (fun i => (request i).effect) token authSession.id j).comap authPart
      AppStatement.auth).Meets
      (fun i => (request i).prog) d (fun i _ d => i = j → Revoked authSession.id d.auth)
        (fun _ _ _ => True) where
  inv := ⟨hd, hcurrent.traced hd⟩
  wp i := by
    have hdistinct := hfresh.distinct hinj
    have hunused := hfresh.unused i
    have hinv : (logouts (fun i => (request i).effect) token authSession.id j).inv d.auth :=
      ⟨hd, hcurrent.traced hd⟩
    -- The session `j` serves a logout, so a session with any other request is another one.
    have hne : ∀ {r : AuthRequest}, request i = r → (∀ t n e, r ≠ .logout t n e) → i ≠ j := by
      rintro r hi hr rfl
      exact hr _ _ _ (hi.symm.trans hj)
    rcases hi : request i with ⟨identity, ids⟩ | ⟨refreshToken', issued, now'⟩
      | ⟨refreshToken', now', revokedAt'⟩ |
      ⟨command, stamps⟩ | token'
    · exact wp_auth (fun _ _ _ heq => absurd heq (hne hi (by rintro _ _ _ ⟨⟩)))
        (wp_login_logouts hdistinct (congrArg AuthRequest.effect hi) hinv hunused)
    · exact wp_auth (fun _ _ _ heq => absurd heq (hne hi (by rintro _ _ _ ⟨⟩)))
        (wp_refresh_logouts hdistinct (congrArg AuthRequest.effect hi) hunused)
    · refine wp_auth (fun _ s h heq => ?_)
        (wp_logout_logouts (i := i) hcurrent.owner (congrArg AuthRequest.effect hi))
      subst heq
      cases hi.symm.trans hj
      exact h rfl hcurrent.hash.symm hcurrent.valid
    · refine Protocol.wp_bind.2
        (Protocol.wp_mono (wp_withdrawal (R := fun _ => True) (G := Spares token authSession.id)
        (fun w d d' h hs => hs.interf (.single h)) (fun w ks d hd hs => ?_) ?_)
        (fun _ _ _ _ _ heq => absurd heq (hne hi (by rintro _ _ _ ⟨⟩))) fun _ _ _ _ h => h)
      · obtain ⟨hinv, hguar⟩ := hs.commit hd (congrArg AuthRequest.effect hi) ks
        exact ⟨hinv, hguar, trivial⟩
      · rw [Protocol.wp_bind]
        refine wp_deleteAccountAuthState_logouts hcurrent.owner fun w ks d₁ hd₁ hs => ?_
        exact Auth.wp_insert fun d₂ hi₂ hd₂ _ _ => ⟨hd₂, (hs.interf hi₂).insertOutbox _⟩
    · exact wp_auth (fun _ _ _ heq => absurd heq (hne hi (by rintro _ _ _ ⟨⟩)))
        (wp_currentPrincipal (R := fun _ => True) fun _ _ _ _ => trivial)
  stable_ret i _ := by
    intro s s' h hs heq
    exact (hs heq).interf (.single h.comap)
  stable_raise _ _ _ _ _ _ := trivial

variable [DecidableEq ι]

omit [CaseFolding] [DecidableEq ι] in
/-- Once a session has been revoked, no access token of it is accepted. -/
theorem wp_currentPrincipal_revoked {d : AuthDatabase} (hrevoked : Revoked sessionId d)
    {token : String} :
    (sessions fun i => (request i).effect).wp i (fun p _ _ _ => p.sessionId ≠ sessionId)
      (fun _ _ _ _ => True)
      (CurrentPrincipalQueryUseCase.execute token) id [] d := by
  refine wp_currentPrincipal fun p d' hi hactive hid => ?_
  have hdead : Dead p d' := .inl (hid ▸ stable_revoked.interf hi hrevoked)
  rw [hdead.hasActiveSession] at hactive
  cases hactive

/-- What a refresh issues is unused until it starts. -/
theorem unused_refresh (hinj : Function.Injective Digests.hash) (hfresh : Fresh request d.auth)
    (hd : Proper d.auth) {s : System ι AppDatabase AppStatement AppError AuthResponse}
    (hs : Reach Always (System.init (fun i => (request i).prog) d) s) {k : ι} {refreshToken : String}
    {issued : IssuedRefreshToken} {now : Instant} (hk : request k = .refresh refreshToken issued now)
    (hstart : s.session k = .idle (some (request k).prog)) :
    Unused (request k).effect s.store.auth := by
  have hmeets := meets_authSessions hinj hfresh hd
  have hC : ∀ i l (d : AppDatabase) ks, Always i l d ks → (authSessions request).cond i l d ks :=
    fun _ _ _ _ _ _ _ => trivial
  have hlast : (request k).prog.CommitsLast :=
    hk ▸ (commitsLast_refresh refreshToken issued now).map.lift
  refine (hs.store_of_commitsLast (Q := fun d => Unused (request k).effect d.auth) hlast
    (hfresh.unused k)
    fun t m t' ht hst hm hunused => ?_).resolve_right fun hended => ?_
  · rcases (hmeets.good (ht.mono hC)).change (hst.mono hC) with h | ⟨i, rfl, -, hguar, -⟩
    · exact h ▸ hunused
    · exact (hfresh.distinct hinj).unused hm hguar hunused
  · have hprog := hended _ (congrArg Session.prog hstart)
    rw [hk] at hprog
    exact hprog.elim

/-- A session that has been revoked stays so, and no request that starts later is answered for it,
    except for a login that opens it. -/
theorem revoked_stays (hinj : Function.Injective Digests.hash) (hfresh : Fresh request d.auth)
    (hd : Proper d.auth) {s s' : System ι AppDatabase AppStatement AppError AuthResponse}
    (hs : Reach Always (System.init (fun i => (request i).prog) d) s)
    (hrevoked : Revoked sessionId s.store.auth) (hs' : Reach Always s s') :
    Revoked sessionId s'.store.auth ∧ ∀ k a, (request k).sessionId = none →
    s.session k = .idle (some (request k).prog) →
      s'.returned k = some a → a.sessionId ≠ some sessionId := by
  have hmeets := meets_authSessions hinj hfresh hd
  have hC : ∀ i l (d : AppDatabase) ks, Always i l d ks → (authSessions request).cond i l d ks :=
    fun _ _ _ _ _ _ _ => trivial
  have hgood := hmeets.good (hs.mono hC)
  refine ⟨kept_changes (fun h hc => h.change hc) hrevoked
    (hgood.changes hmeets.stable_ret hmeets.stable_raise (hs'.mono hC)),
      fun k a hsession hstart hreturn => ?_⟩
  have hfocus :=
    hgood.focus (i := k) (Q := fun a _ => a.sessionId ≠ some sessionId) (E := fun _ _ => True) ?_
  · have hgood' := hfocus.reach (fun _ _ _ _ _ h => h) (fun _ _ _ _ _ h => h) (hs'.mono hC)
    exact hgood'.wp k _ (System.returned_eq_some.1 hreturn) rfl
  · intro q hq
    rw [hstart] at hq ⊢
    cases hq
    rcases hk : request k with ⟨identity, ids⟩ | ⟨refreshToken, issued, now⟩
      | ⟨refreshToken, now, revokedAt⟩ |
      ⟨command, stamps⟩ | token
    · rw [hk] at hsession
      cases hsession
    · refine wp_auth (fun result _ h heq => h.2 ?_)
        (wp_refresh (hfresh.distinct hinj) (congrArg AuthRequest.effect hk)
          (unused_refresh hinj hfresh hd hs hk hstart))
      exact Option.some.inj heq ▸ hrevoked
    · exact wp_auth (fun _ _ _ => by rintro ⟨⟩) (wp_logout (congrArg AuthRequest.effect hk) hgood.inv)
    · exact Protocol.wp_bind.2
        (Protocol.wp_mono (wp_withdraw hk) (fun _ _ _ _ _ => by rintro ⟨⟩) fun _ _ _ _ h => h)
    · exact wp_auth (fun p _ h heq => h (Option.some.inj heq)) (wp_currentPrincipal_revoked hrevoked)

/-- A logout that looks its token up before a refresh has replaced it ends the session, for every
    request that starts later. -/
theorem logout_wins (hinj : Function.Injective Digests.hash) (hfresh : Fresh request d.auth)
    (hd : Proper d.auth) {refreshToken : String} {now revokedAt : Instant} {authSession : AuthSession}
    (hj : request j = .logout refreshToken now revokedAt)
    (hcurrent : Current refreshToken now token authSession d.auth)
    {s s' : System ι AppDatabase AppStatement AppError AuthResponse}
    (hs : Reach (LooksUpFirst j token.tokenHash) (System.init (fun i => (request i).prog) d) s)
    (hreturned : s.returned j ≠ none) (hs' : Reach Always s s') :
    Revoked authSession.id s'.store.auth ∧
      ∀ k a, (request k).sessionId = none → s.session k = .idle (some (request k).prog) →
      s'.returned k = some a →
        a.sessionId ≠ some authSession.id := by
  obtain ⟨a, ha⟩ := Option.ne_none_iff_exists'.1 hreturned
  have hC : ∀ i l (d : AppDatabase) ks, LooksUpFirst j token.tokenHash i l d ks →
      ((logouts (fun i => (request i).effect) token authSession.id j).comap authPart
        AppStatement.auth).cond i l d ks := by
    intro i l d ks hl l' hl' hi heq
    exact hl hi (hl' ▸ heq ▸ rfl)
  have hrevoked := ((meets_logouts hinj hfresh hd hj hcurrent).sound (hs.mono hC)).2.1 j a ha rfl
  exact revoked_stays hinj hfresh hd (hs.mono fun _ _ _ _ _ => trivial) hrevoked hs'

end Requests

/-! ## Runs -/

/-- A session with its first token. -/
def firstSession : AppDatabase :=
  { AppDatabase.empty with
    auth := AuthDatabase.insertRefreshToken none ⟨⟨3⟩, ⟨1⟩, some ⟨2⟩, "first", 10⟩
      (AuthDatabase.insertSession ⟨⟨2⟩, ⟨1⟩, none⟩
        (AuthDatabase.insertCredential ⟨⟨1⟩, ⟨0⟩, "user", none⟩ .empty)) }

/-- A logout, and a refresh of the same token. -/
def logoutAndRefresh : Bool → AuthRequest
  | false => .logout "first" 1 1
  | true => .refresh "first" ⟨⟨4⟩, "second", 20⟩ 1

theorem proper_firstSession : Proper firstSession.auth := by
  refine ⟨.nil, ?_, ?_, ?_, ?_, ?_, ?_, ?_⟩ <;> decide

theorem fresh_logoutAndRefresh : letI :=
  identityDigests; Fresh logoutAndRefresh firstSession.auth := by
  let _ := identityDigests
  refine ⟨fun i => ?_, fun i j => ?_, fun i => ?_, fun i j => ?_⟩
  · rcases i with - | - <;> rintro _ ⟨⟩
  · rcases i with - | - <;> rintro _ ⟨⟩
  · rcases i with - | -
    · rintro _ ⟨⟩
    · rintro _ ⟨⟩
      decide
  · rcases i with - | - <;> rcases j with - | - <;> rintro _ ⟨⟩ ⟨⟩
    rfl

theorem current_first : letI := identityDigests;
    Current "first" 1 ⟨⟨3⟩, ⟨1⟩, some ⟨2⟩, "first", 10⟩ ⟨⟨2⟩, ⟨1⟩, none⟩ firstSession.auth :=
  letI := identityDigests
  { row := by decide, hash := rfl, valid := by decide, session := by decide, owner := rfl,
    credentials := rfl }

/-- A logout that looks its token up after a refresh has replaced it leaves the session active. One
    that has looked it up before ends the session, but it may not find the token that the refresh
    issues. -/
theorem logout_after_refresh :
    letI := identityDigests
    letI := CaseFolding.ascii
    letI : AccessTokenVerifier := ⟨fun _ => none⟩
    Proper firstSession.auth ∧ Fresh logoutAndRefresh firstSession.auth ∧
      Current "first" 1 ⟨⟨3⟩, ⟨1⟩, some ⟨2⟩, "first", 10⟩ ⟨⟨2⟩, ⟨1⟩, none⟩ firstSession.auth ∧
      (∃ s, Reach Always (System.init (fun i => (logoutAndRefresh i).prog) firstSession) s ∧
        s.returned false = some .done ∧
          s.returned true = some (.tokens ⟨⟨⟨0⟩, ⟨1⟩, ⟨2⟩, "user"⟩, "second"⟩) ∧
        hasActiveSession ⟨0⟩ ⟨1⟩ ⟨2⟩ s.store.auth = true) ∧
      ∃ s, Reach Always (System.init (fun i => (logoutAndRefresh i).prog) firstSession) s ∧
        s.returned false = some .done ∧
          s.returned true = some (.tokens ⟨⟨⟨0⟩, ⟨1⟩, ⟨2⟩, "user"⟩, "second"⟩) ∧
        hasActiveSession ⟨0⟩ ⟨1⟩ ⟨2⟩ s.store.auth = false ∧
        s.store.auth.refreshTokens.rows.map (·.sessionId) = [some ⟨2⟩] := by
  let _ := identityDigests
  let _ := CaseFolding.ascii
  let _ : AccessTokenVerifier := ⟨fun _ => none⟩
  refine ⟨proper_firstSession, fresh_logoutAndRefresh, current_first, ?_, ?_⟩
  · exact System.exists_reach (List.replicate 5 (.run true) ++ List.replicate 2 (.run false))
      (by decide +kernel)
  · exact System.exists_reach
      (List.replicate 4 (.run false) ++ List.replicate 5 (.run true) ++
        List.replicate 2 (.run false)) (by decide +kernel)

instance {ι : Type} [DecidableEq ι] (j : ι) (tokenHash : String) (i : ι) (l : AppStatement)
    (d : AppDatabase) (ks : List AppLock) : Decidable (LooksUpFirst j tokenHash i l d ks) :=
  inferInstanceAs (Decidable
    (i = j → l = .auth (.findRefreshToken tokenHash) →
      ¬some tokenHash ∈ d.auth.tokenHistory.map (·.1)))

/-- A logout and a refresh of the same token, a refresh of the token that the first one issues, and
    an access. -/
def logoutThenTokens : Fin 4 → AuthRequest
  | 0 => .logout "first" 1 1
  | 1 => .refresh "first" ⟨⟨4⟩, "second", 20⟩ 1
  | 2 => .refresh "second" ⟨⟨5⟩, "third", 30⟩ 2
  | 3 => .access "access"

theorem fresh_logoutThenTokens : letI := identityDigests;
    Fresh logoutThenTokens firstSession.auth := by
  let _ := identityDigests
  have hsession : ∀ i, (logoutThenTokens i).sessionId = none := by decide
  have htoken : ∀ i, (logoutThenTokens i).issuedToken =
      if i = 1 then some "second" else if i = 2 then some "third" else none := by decide
  refine ⟨fun i s hi => ?_, fun i j s hi _ => ?_, fun i t hi => ?_, fun i j t hi hj => ?_⟩
  · rw [hsession] at hi
    cases hi
  · rw [hsession] at hi
    cases hi
  · rw [htoken] at hi
    have hne : t ≠ "first" := by grind
    exact fun hmem => hne (List.mem_singleton.1 hmem)
  · rw [htoken] at hi hj
    grind

/-- Of a logout and a refresh, the logout wins if it looks the token up first: the token that the
    refresh has issued and the access token are refused. -/
theorem logout_wins_first :
    letI := identityDigests
    letI := CaseFolding.ascii
    letI : AccessTokenVerifier :=
      ⟨fun token => if token = "access" then some ⟨⟨0⟩, ⟨1⟩, ⟨2⟩, "user"⟩ else none⟩
    ∃ s s' : System (Fin 4) AppDatabase AppStatement AppError AuthResponse,
      (Reach (LooksUpFirst 0 "first")
        (System.init (fun i => (logoutThenTokens i).prog) firstSession) s ∧
        s.returned 0 ≠ none ∧
        s.returned 1 = some (.tokens ⟨⟨⟨0⟩, ⟨1⟩, ⟨2⟩, "user"⟩, "second"⟩)) ∧
      (Reach Always s s' ∧ s'.raised 2 = some (.domain .authentication) ∧
        s'.raised 3 = some (.domain .authentication)) ∧
      Revoked ⟨2⟩ s'.store.auth ∧
        ∀ k, k = 2 ∨ k = 3 → ∀ a, s'.returned k = some a → a.sessionId ≠ some ⟨2⟩ := by
  let _ := identityDigests
  let _ := CaseFolding.ascii
  let _ : AccessTokenVerifier :=
    ⟨fun token => if token = "access" then some ⟨⟨0⟩, ⟨1⟩, ⟨2⟩, "user"⟩ else none⟩
  have hrun : (System.exec (LooksUpFirst 0 "first")
      (System.init (fun i => (logoutThenTokens i).prog) firstSession)
      (List.replicate 4 (.run 0) ++ List.replicate 5 (.run 1) ++
        List.replicate 2 (.run 0))).any fun s =>
        decide (s.returned 0 = some .done) &&
        decide (s.returned 1 = some (.tokens ⟨⟨⟨0⟩, ⟨1⟩, ⟨2⟩, "user"⟩, "second"⟩)) &&
        (s.exec Always (List.replicate 2 (.run 2) ++ [.run 3])).any fun s' =>
          decide (s'.raised 2 = some (.domain .authentication)) &&
          decide (s'.raised 3 = some (.domain .authentication)) := by
    decide +kernel
  simp only [Option.any_eq_true, Bool.and_eq_true, decide_eq_true_eq] at hrun
  obtain ⟨s, h, ⟨hdone, htokens⟩, s', h', hrefused, hdenied⟩ := hrun
  have hs := System.reach_of_exec h
  have hs' := System.reach_of_exec h'
  have hne : s.returned 0 ≠ none := by simp [hdone]
  obtain ⟨hrevoked, hlater⟩ :=
    logout_wins (fun _ _ h => h) fresh_logoutThenTokens proper_firstSession rfl current_first hs hne
      hs'
  refine ⟨s, s', ⟨hs, hne, htokens⟩, ⟨hs', hrefused, hdenied⟩, hrevoked, fun k hk a => ?_⟩
  -- Neither request has started when the logout has returned.
  refine hlater k a ?_ ?_
  · rcases hk with rfl | rfl <;> rfl
  · rcases hk with rfl | rfl <;>
      exact System.session_of_exec h (by decide)

end Boat.App
