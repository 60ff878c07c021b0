import Boat.Auth.Sessions

/-!
# Auth: what requests do to sessions

The programs of `Boat.Auth.UseCases` meet the protocol `sessions`: each commits its effect, if at
all. What they write before that, apart from sessions and tokens, has nothing new
(`Prog.Within Shrinking`).
-/

namespace Boat.Auth

open ReadCommitted SqlAlchemyCredentialRepository SqlAlchemyExternalIdentityLoginSynchronizer

/-! ## Dead sessions -/

/-- The session has been revoked. -/
structure Revoked (sessionId : UUID) (d : AuthDatabase) : Prop where
  opened : sessionId ∈ d.sessionHistory
  revoked : ∀ r ∈ d.authSessions.rows, r.id = sessionId → r.revokedAt ≠ none

/-- The account is not there. -/
def Withdrawn (userId credentialsId : UUID) (d : AuthDatabase) : Prop :=
  ∀ r ∈ d.userCredentials.rows, ¬(r.id = credentialsId ∧ r.userId = userId)

theorem Revoked.shrinks {sessionId : UUID} {d d' : AuthDatabase} (h : Revoked sessionId d)
    (hs : Shrinks d d') :
    Revoked sessionId d' where
  opened := hs.sessionHistory ▸ h.opened
  revoked r hr hid := by
    obtain ⟨q, hq, hqr, hrevoked⟩ := hs.sessions r hr
    exact hrevoked (h.revoked q hq (hqr.trans hid))

/-- A session that has been revoked stays so. -/
theorem Revoked.change {sessionId : UUID} {d d' : AuthDatabase} (h : Revoked sessionId d)
    {e : SessionEffect} (hc : e.Change d d') : Revoked sessionId d' := by
  rcases hc with @⟨s, r, tokenHash, d, d₀, hunused, hs, -, -⟩ | ⟨-, hs, -, -, -, -⟩ | ⟨hs⟩
  · have h₀ := h.shrinks hs
    refine ⟨List.mem_cons_of_mem _ h₀.opened, Table.forall_insert h₀.revoked ?_⟩
    rintro rfl
    exact absurd h.opened (hunused.session _ rfl)
  · have h₀ := h.shrinks hs
    exact ⟨h₀.opened, h₀.revoked⟩
  · exact h.shrinks hs

theorem Withdrawn.shrinks {userId credentialsId : UUID} {d d' : AuthDatabase}
    (h : Withdrawn userId credentialsId d) (hs : Shrinks d d') :
    Withdrawn userId credentialsId d' := by
  rintro r hr ⟨hid, huser⟩
  obtain ⟨q, hq, hqr, hquser⟩ := hs.credentials r hr
  exact h q hq ⟨hqr.trans hid, hquser.trans huser⟩

/-- An account that has been withdrawn stays so. -/
theorem Withdrawn.change {userId credentialsId : UUID} {d d' : AuthDatabase}
    (h : Withdrawn userId credentialsId d) {e : SessionEffect}
    (hc : e.Change d d') : Withdrawn userId credentialsId d' := by
  rcases hc with ⟨-, hs, -, -⟩ | ⟨-, hs, -, -, -, -⟩ | ⟨hs⟩
  · have h₀ := h.shrinks hs
    exact h₀
  · have h₀ := h.shrinks hs
    exact h₀
  · exact h.shrinks hs

/-- The session of an access token is revoked, or its account withdrawn. -/
def Dead (p : AuthenticatedPrincipal) (d : AuthDatabase) : Prop :=
  Revoked p.sessionId d ∨ Withdrawn p.userId p.credentialsId d

theorem Dead.change {p : AuthenticatedPrincipal} {d d' : AuthDatabase} (h : Dead p d)
    {e : SessionEffect} (hc : e.Change d d') : Dead p d' := h.imp (·.change hc) (·.change hc)

/-- Dead sessions are not active. -/
theorem Dead.hasActiveSession {p : AuthenticatedPrincipal} {d : AuthDatabase} (h : Dead p d) :
    hasActiveSession p.userId p.credentialsId p.sessionId d = false := by
  rw [SqlAlchemyCredentialRepository.hasActiveSession, List.any_eq_false]
  intro s hs
  rw [decide_eq_true_eq]
  rintro ⟨hid, hactive, -, hcredential⟩
  rcases h with h | h
  · exact h.revoked s hs hid hactive
  · obtain ⟨c, hc, hc'⟩ := List.any_eq_true.1 hcredential
    exact h c hc (by simpa using hc')

/-! ## The protocol -/

section Protocol

variable {ι : Type}

/-- The protocol of requests with these effects. -/
def sessions (effect : ι → SessionEffect) : Protocol ι AuthDatabase AuthLock AuthStatement where
  inv := Proper
  guar i _ := (effect i).Change
  cond := Always

/-- No session and no token is issued twice. -/
structure Distinct (effect : ι → SessionEffect) : Prop where
  session : ∀ i j, ∀ sessionId ∈ (effect i).opened, sessionId ∈ (effect j).opened → i = j
  token : ∀ i j, ∀ tokenHash ∈ (effect i).issued, tokenHash ∈ (effect j).issued → i = j

variable {effect : ι → SessionEffect} {i : ι}

/-- What the changes of requests keep is stable. -/
theorem stable_of_change {p : AuthDatabase → Prop}
    (hp : ∀ {e : SessionEffect} {d d' : AuthDatabase}, p d → e.Change d d' → p d') :
    (sessions effect).Stable i p := by
  rintro d d' ⟨j, ks, -, -, -, -, hc, -⟩ h
  exact hp h hc

/-- What a request issues, no other issues. -/
theorem Distinct.unused (hdistinct : Distinct effect) {j : ι} {d d' : AuthDatabase} (hj : j ≠ i)
    (hc : (effect j).Change d d') (h : Unused (effect i) d) : Unused (effect i) d' := by
  refine ⟨fun s hs hmem => ?_, fun t ht hmem => ?_⟩
  · rw [hc.sessionHistory, List.mem_append] at hmem
    rcases hmem with hmem | hmem
    · exact hj (hdistinct.session i j s hs (Option.mem_toList.1 hmem)).symm
    · exact h.session s hs hmem
  · rw [hc.tokenHistory, List.mem_append] at hmem
    rcases hmem with hmem | hmem
    · exact hj (hdistinct.token i j t ht (Option.mem_toList.1 hmem)).symm
    · exact h.token t ht hmem

/-- What a request issues is unused until it does. -/
theorem stable_unused (hdistinct : Distinct effect) :
    (sessions effect).Stable i (Unused (effect i)) := by
  rintro d d' ⟨j, ks, hj, -, -, -, hc, -⟩ h
  exact hdistinct.unused hj hc h

/-- A token that has been replaced by another one is never current again. -/
theorem stable_replaced {p : Option String × String} : (sessions effect).Stable i fun d =>
    p ∈ d.tokenHistory :=
  stable_of_change fun h hc => hc.tokenHistory_subset h

theorem stable_revoked {sessionId : UUID} : (sessions effect).Stable i (Revoked sessionId) :=
  stable_of_change fun h hc => h.change hc

end Protocol

/-! ## Programs -/

section Programs

variable {s : AuthStatement} {α : Type} {W : (AuthDatabase → AuthDatabase) → Prop}

theorem within_select {f : AuthDatabase → α} : (AuthTx.select s f).Within Shrinking :=
  Prog.within_query shrinking_id

theorem within_deleteWhere {f : AuthDatabase → List AuthRow} : (deleteWhere f).Within Shrinking :=
  .bind within_select fun _ =>
    .bind (Prog.within_modify shrinking_id shrinking_deleteRows) fun _ => .ret ()

theorem within_synchronize [CaseFolding] [Digests] (hid : W id) (identity : ExternalIdentity) :
    (synchronize identity).Within W := by
  refine .bind (Prog.within_query hid) fun _ => ?_
  rcases canonicalEmail identity with - | email
  · exact .ret ()
  · exact Prog.within_query hid

theorem within_recordLogin (hid : W id) (credentialsId : UUID) :
    (recordLogin credentialsId).Within W := by
  refine .bind (Prog.within_query hid) fun credentials => ?_
  rcases credentials with - | credentials
  · exact .raise _
  · exact .ret _

theorem within_loginCredentials [CaseFolding] (hid : W id)
    (hinsert : ∀ r, W (AuthDatabase.insertIdentity r))
    (identity : ExternalIdentity) : (loginCredentials identity).Within W := by
  refine .bind (Prog.within_query hid) fun credentials => ?_
  rcases credentials with - | credentials
  · dsimp only
    split
    · refine .bind (Prog.within_query hid) fun credentials => ?_
      rcases credentials with - | credentials
      · exact .raise _
      · exact .bind (Prog.within_insert hid (hinsert _)) fun _ => within_recordLogin hid _
    · exact .raise _
  · exact within_recordLogin hid _

theorem within_flushLogin (hid : W id)
    (hupdate : ∀ id loggedInAt, W (AuthDatabase.updateCredential id loggedInAt))
    (seen : UserCredential) (loggedInAt : Instant) : (flushLogin seen loggedInAt).Within W := by
  rw [flushLogin]
  split
  · exact .ret ()
  · exact Prog.within_update hid fun r => hupdate r.id loggedInAt

theorem within_rotateRefreshToken (tokenHash : String) (now : Instant) :
    (rotateRefreshToken tokenHash now).Within Shrinking := by
  refine .bind
    (.bind (Prog.within_modify shrinking_id fun rows => shrinking_deleteRows _) fun _ => .ret _)
      fun row => ?_
  rcases row with - | row
  · exact .raise _
  dsimp only
  rcases row.sessionId with - | sessionId
  · exact .raise _
  show Prog.Within Shrinking (if _ then _ else _)
  split
  · exact .raise _
  refine .bind within_select fun authSession => ?_
  rcases authSession with - | authSession
  · exact .raise _
  show Prog.Within Shrinking (if _ then _ else _)
  split
  · exact .raise _
  refine .bind within_select fun credentials => ?_
  rcases credentials with - | credentials
  · exact .raise _
  show Prog.Within Shrinking (if _ then _ else _)
  split
  · exact .raise _
  · exact .ret _

theorem within_revokeSessionByRefreshToken (tokenHash : String) (now revokedAt : Instant) :
    (revokeSessionByRefreshToken tokenHash now revokedAt).Within Shrinking := by
  refine .bind within_select fun refreshToken => ?_
  rcases refreshToken with - | refreshToken
  · exact .ret ()
  · dsimp only
    rcases refreshToken.sessionId with - | sessionId
    · exact within_deleteWhere
    · refine .bind within_select fun authSession => ?_
      rcases authSession with - | authSession
      · exact within_deleteWhere
      · exact .bind (Prog.within_update shrinking_id fun r => shrinking_revokeSession r.id revokedAt)
          fun _ => within_deleteWhere

end Programs

/-! ## Weakest preconditions -/

section Wp

variable {ι : Type} {P : Protocol ι AuthDatabase AuthLock AuthStatement} {i : ι} {d : AuthDatabase}

theorem wp_select {α : Type} {s : AuthStatement} {f : AuthDatabase → α}
    {Q : Post AuthDatabase AuthLock α} {w : AuthDatabase → AuthDatabase} {ks : List AuthLock} :
    P.wp i Q (fun _ _ _ _ => True) (AuthTx.select s f) w ks d ↔
      ∀ d', P.Interf i ks d d' → P.inv d' → P.cond i s d' ks → Q (f (w d')) w ks d' := by
  rw [AuthTx.select, AuthTx.exec, Protocol.wp_query (X := fun _ _ => True)]
  simp only [and_true]
  rfl

theorem wp_insert {s : AuthStatement} {entries : List AuthEntry} {u : AuthDatabase → AuthDatabase}
    {hu : Touches (entries.map .entry) u} {Q : Post AuthDatabase AuthLock Unit}
    {w : AuthDatabase → AuthDatabase} {ks : List AuthLock}
    (hQ : ∀ d', P.Interf i ks d d' → P.inv d' → P.cond i s d' ks →
      (∀ e ∈ entries, (w d').hasEntry e = false) →
      Q () (u ∘ w) (entries.map .entry ++ ks) d') :
    P.wp i Q (fun _ _ _ _ => True) (AuthTx.insert s entries u hu) w ks d :=
  Protocol.wp_insert (X := fun _ _ => True) hQ (fun _ _ _ _ _ _ _ _ _ => trivial) fun _ _ => trivial

/-- A `DELETE` removes the rows that it has found, and those that refer to them. -/
theorem wp_deleteWhere {f : AuthDatabase → List AuthRow} {Q : Post AuthDatabase AuthLock Unit}
    {w : AuthDatabase → AuthDatabase} {ks : List AuthLock}
    (hQ : ∀ ks' d₁ d₂, P.Interf i ks d d₁ → P.inv d₁ → P.Interf i ks d₁ d₂ → P.inv d₂ →
      Q () (AuthDatabase.deleteRows ((w d₂).cascade (f (w d₁))) ∘ w) ks' d₂) :
    P.wp i Q (fun _ _ _ _ => True) (deleteWhere f) w ks d := by
  simp only [deleteWhere, Prog.bind_eq, Protocol.wp_bind_eq, wp_select, Prog.pure_eq, AuthTx.exec]
  intro d₁ hi₁ hd₁ _
  rw [Protocol.wp_modify (X := fun _ _ => True)]
  exact fun d₂ hi₂ hd₂ => ⟨fun _ => hQ _ d₁ d₂ hi₁ hd₁ hi₂ hd₂, trivial⟩

/-- A login opens a session with a token for the credentials that it finds, in one commit. -/
theorem wp_loginCommit [CaseFolding] [Digests] {Q : Post AuthDatabase AuthLock TokenResult}
    {identity : ExternalIdentity} {ids : LoginIds} {W : (AuthDatabase → AuthDatabase) → Prop}
    (hid : W id) (hcomp : ∀ u w, W u → W w → W (u ∘ w))
    (hinsert : ∀ r, W (AuthDatabase.insertIdentity r))
    (hupdate : ∀ id loggedInAt, W (AuthDatabase.updateCredential id loggedInAt)) (hd : P.inv d)
    (hQ : ∀ w ks d' (credentials : UserCredential), P.Interf i [] d d' → P.inv d' → W w → ∀ d'',
      d'' = AuthDatabase.insertRefreshToken none (ids.refreshToken.row credentials.id ids.sessionId)
        (AuthDatabase.insertSession ⟨ids.sessionId, credentials.id, none⟩ (w d')) →
      P.inv d'' ∧ P.guar i ks d' d'' ∧
        Q ⟨⟨credentials.userId, credentials.id, ids.sessionId, credentials.role⟩,
          ids.refreshToken.token⟩ id [] d'') :
    P.wp i Q (fun _ _ _ _ => True) (LoginCommandUseCase.execute identity ids) id [] d := by
  simp only [LoginCommandUseCase.execute, Prog.bind_eq, Protocol.wp_bind_eq, Prog.pure_eq]
  refine Protocol.wp_within (within_synchronize hid identity) hcomp hd hid ?_
    (fun _ _ _ _ _ => trivial)
  intro _ w ks d₁ hi₁ hd₁ hw
  refine Protocol.wp_within (within_loginCredentials hid hinsert identity) hcomp hd₁ hw ?_
    (fun _ _ _ _ _ => trivial)
  intro credentials w ks d₂ hi₂ hd₂ hw
  refine Protocol.wp_within (within_flushLogin hid hupdate credentials ids.loggedInAt) hcomp hd₂ hw ?_
    (fun _ _ _ _ _ => trivial)
  intro _ w ks d₃ hi₃ hd₃ hw
  refine wp_insert fun d₄ hi₄ _ _ _ => wp_insert fun d₅ hi₅ _ _ _ => ?_
  refine Protocol.wp_commitOr.2 fun d₆ hi₆ hd₆ => ⟨?_, trivial⟩
  exact hQ w _ d₆ credentials
    (hi₁.trans (hi₂.trans (hi₃.trans (hi₄.nil.trans (hi₅.nil.trans hi₆.nil))))) hd₆ hw _ rfl

/-- A refresh goes on with the active session of a token that it has deleted, and holds. -/
theorem wp_rotateRefreshToken {Q : Post AuthDatabase AuthLock (UserCredential × AuthSession)}
    {tokenHash : String} {now : Instant}
    (hQ : ∀ credentials authSession (old : RefreshToken) (rows : List RefreshToken) ks d' d'',
      P.Interf i [] d d' →
      authSession ∈ d'.authSessions.rows → authSession.revokedAt = none → P.Interf i [] d' d'' →
      P.inv d'' →
      old ∈ rows → old.sessionId = some authSession.id →
      (∀ r ∈ rows, r ∈ d''.refreshTokens.rows ∧ r.tokenHash = tokenHash ∧
        .row (.refreshToken r.id) ∈ ks) →
      Q (credentials, authSession) (AuthDatabase.deleteRows (rows.map (.refreshToken ·.id))) ks d'') :
    P.wp i Q (fun _ _ _ _ => True) (rotateRefreshToken tokenHash now) id [] d := by
  simp only [rotateRefreshToken, deleteRefreshToken, Prog.bind_eq, Protocol.wp_bind_eq,
    Prog.pure_eq, AuthTx.exec]
  rw [Protocol.wp_modify (X := fun _ _ => True)]
  refine fun d₁ hi₁ _ => ⟨fun _ => ?_, trivial⟩
  generalize hrows : d₁.refreshTokens.rows.filter (·.tokenHash = tokenHash) = rows
  have hi₁ := hi₁.nil
  simp only [id, hrows, Protocol.wp_ret]
  rcases hold : rows.head? with - | old
  · trivial
  simp only
  rcases hsession : old.sessionId with - | sessionId
  · trivial
  simp only
  split
  · trivial
  simp only [Protocol.wp_bind_eq, getSession, getCredential, wp_select, Function.comp_id]
  set w := AuthDatabase.deleteRows (rows.map (.refreshToken ·.id)) with hw
  intro d₂ hi₂ _ _
  rcases hfind : (w d₂).authSessions.find sessionId with - | authSession
  · trivial
  simp only
  split
  · trivial
  next hactive =>
    rw [Protocol.wp_bind, wp_select]
    intro d₃ hi₃ hinv₃ _
    rcases (w d₃).userCredentials.find old.credentialsId with - | credentials
    · trivial
    simp only
    split
    · trivial
    obtain ⟨hmem, hid⟩ := Table.find_eq_some.1 hfind
    -- The rows of the token are locked since they were deleted, so they are still what was found.
    refine hQ credentials authSession old rows _ d₂ d₃ (hi₁.trans hi₂.nil)
      (Table.mem_filter.1 hmem).1 (not_not.1 hactive)
      hi₃.nil hinv₃ (List.mem_of_head? hold) (by rw [hsession, hid]) fun r hr => ?_
    have hlock : AuthLock.row (.refreshToken r.id) ∈
        (rows.map (AuthRow.refreshToken ·.id)).map AuthLock.row ++ [] :=
      List.mem_append_left _ (List.mem_map_of_mem (List.mem_map_of_mem hr))
    have hfound := hrows ▸ hr
    rw [List.mem_filter, decide_eq_true_eq] at hfound
    exact ⟨(hi₂.trans hi₃).kept hlock _ (.refreshToken r) hfound.1, hfound.2, hlock⟩

/-- A refresh puts a token in the place of one that it has deleted, in one commit. -/
theorem wp_refreshCommit [Digests] {Q : Post AuthDatabase AuthLock TokenResult}
    {refreshToken : String} {issued : IssuedRefreshToken} {now : Instant}
    (hQ : ∀ (credentials : UserCredential) (authSession : AuthSession) old
      (rows : List RefreshToken) ks d' d'', P.Interf i [] d d' →
      authSession ∈ d'.authSessions.rows → authSession.revokedAt = none → P.Interf i [] d' d'' →
      P.inv d'' → old ∈ rows → old.sessionId = some authSession.id →
      (∀ r ∈ rows, r ∈ d''.refreshTokens.rows ∧ r.tokenHash = hash refreshToken) → ∀ d₀,
      d₀ = AuthDatabase.insertRefreshToken (some (hash refreshToken))
        (issued.row credentials.id authSession.id)
        (AuthDatabase.deleteRows (rows.map (.refreshToken ·.id)) d'') →
      P.inv d₀ ∧ P.guar i ks d'' d₀ ∧
        Q ⟨⟨credentials.userId, credentials.id, authSession.id, credentials.role⟩,
          issued.token⟩ id [] d₀) :
    P.wp i Q (fun _ _ _ _ => True)
      (RefreshTokenCommandUseCase.execute refreshToken issued now) id [] d := by
  simp only [RefreshTokenCommandUseCase.execute, Prog.bind_eq, Protocol.wp_bind_eq, Prog.pure_eq]
  refine wp_rotateRefreshToken fun credentials authSession old rows ks d₁ d₂ hi₁ hsession hactive
    hi₂ _ hmem hold hrows => ?_
  refine wp_insert fun d₃ hi₃ _ _ _ => ?_
  refine Protocol.wp_commitOr.2 fun d₄ hi₄ hd₄ => ⟨?_, trivial⟩
  have hi : P.Interf i ks d₂ d₄ := hi₃.trans (hi₄.anti (List.subset_append_right ..))
  refine hQ credentials authSession old rows _ d₁ d₄ hi₁ hsession hactive
    (hi₂.trans hi.nil) hd₄ hmem hold ?_ _ rfl
  exact fun r hr => ⟨hi.kept (hrows r hr).2.2 _ (.refreshToken r) (hrows r hr).1, (hrows r hr).2.1⟩

/-- A request is accepted only if the session of its token is active. -/
theorem wp_currentPrincipal [AccessTokenVerifier] {token : String} {R : AuthenticatedPrincipal → Prop}
    (hR : ∀ p d', P.Interf i [] d d' →
      hasActiveSession p.userId p.credentialsId p.sessionId d' = true → R p) :
    P.wp i (fun p _ _ _ => R p) (fun _ _ _ _ => True) (CurrentPrincipalQueryUseCase.execute token)
      id [] d := by
  rw [CurrentPrincipalQueryUseCase.execute]
  rcases AccessTokenVerifier.verify token with - | principal
  · trivial
  simp only [existsActiveSession, Prog.bind_eq, Protocol.wp_bind_eq, Prog.pure_eq, wp_select, id]
  intro d' hi _ _
  split
  · next hactive => exact hR principal d' hi hactive
  · trivial

end Wp

section Sessions

variable [CaseFolding] [Digests] {ι : Type} {effect : ι → SessionEffect} {i : ι} {d : AuthDatabase}

omit [CaseFolding] [Digests] in
/-- A commit keeps the invariant if it has the effect of the request. -/
theorem commit_change {d' : AuthDatabase} {ks : List AuthLock} {q : Prop} (hd : Proper d)
    (hc : (effect i).Change d d') (hq : q) :
    (sessions effect).inv d' ∧ (sessions effect).guar i ks d d' ∧ q := ⟨hd.change hc, hc, hq⟩

/-- A login opens its session. -/
theorem wp_login (hdistinct : Distinct effect) {identity : ExternalIdentity} {ids : LoginIds}
    (heffect : effect i = .opens ids.sessionId (hash ids.refreshToken.token)) (hd : Proper d)
    (hunused : Unused (effect i) d) :
    (sessions effect).wp i (fun _ _ _ _ => True) (fun _ _ _ _ => True)
      (LoginCommandUseCase.execute identity ids) id [] d := by
  refine wp_loginCommit shrinking_id
    (fun _ _ => .comp) shrinking_insertIdentity shrinking_updateCredential hd
    fun w ks d₁ credentials hi hd₁ hw d₂ heq => heq ▸ commit_change hd₁ ?_ trivial
  have hunused₁ := (stable_unused hdistinct).interf hi hunused
  rw [heffect] at hunused₁ ⊢
  exact .opens (s := ⟨ids.sessionId, credentials.id, none⟩) hunused₁ (hw d₁) rfl rfl

omit [CaseFolding] in
/-- The commit of a refresh. -/
theorem change_refresh {refreshToken : String} {issued : IssuedRefreshToken}
    {credentials : UserCredential} {authSession : AuthSession} {old : RefreshToken}
    {rows : List RefreshToken}
    (heffect : effect i = .rotates (hash refreshToken) (hash issued.token))
    (hunused : Unused (effect i) d) (hmem : old ∈ rows)
    (hsession : old.sessionId = some authSession.id)
    (hrows : ∀ r ∈ rows, r ∈ d.refreshTokens.rows ∧ r.tokenHash = hash refreshToken) :
    (effect i).Change d (AuthDatabase.insertRefreshToken (some (hash refreshToken))
      (issued.row credentials.id authSession.id)
        (AuthDatabase.deleteRows (rows.map (.refreshToken ·.id)) d)) := by
  obtain ⟨hold, hhash⟩ := hrows old hmem
  rw [heffect, ← hhash] at hunused ⊢
  refine .rotates (show Unused (.rotates old.tokenHash _) d from hunused)
    (shrinking_deleteRows (rows.map (.refreshToken ·.id)) d) hold ?_ hsession.symm rfl
  intro hmem'
  have hnot := (Table.mem_filter.1 hmem').2
  rw [decide_eq_true_eq] at hnot
  exact hnot (List.mem_map_of_mem hmem)

omit [CaseFolding] in
/-- A refresh replaces its token, of a session that was not revoked when it began. -/
theorem wp_refresh (hdistinct : Distinct effect) {refreshToken : String}
    {issued : IssuedRefreshToken} {now : Instant}
    (heffect : effect i = .rotates (hash refreshToken) (hash issued.token))
    (hunused : Unused (effect i) d) :
    (sessions effect).wp i (fun result _ _ d' =>
      (some (hash refreshToken), hash issued.token) ∈ d'.tokenHistory ∧
        ¬Revoked result.accessToken.sessionId d)
      (fun _ _ _ _ => True) (RefreshTokenCommandUseCase.execute refreshToken issued now) id [] d := by
  refine wp_refreshCommit
    fun credentials authSession old rows ks d₁ d₂ hi₁ hsession hactive hi₂ hd₂ hmem hold hrows
      d₃ heq => ?_
  have hunused₂ := (stable_unused hdistinct).interf (hi₁.trans hi₂) hunused
  refine heq ▸ commit_change hd₂ (change_refresh heffect hunused₂ hmem hold hrows)
    ⟨List.mem_cons_self, fun hrevoked => ?_⟩
  exact (stable_revoked.interf hi₁ hrevoked).revoked authSession hsession rfl hactive

omit [CaseFolding] in
/-- A logout updates and deletes rows. -/
theorem wp_logout {refreshToken : String} {now revokedAt : Instant} (heffect : effect i = .shrinks)
    (hd : Proper d) :
    (sessions effect).wp i (fun _ _ _ _ => True) (fun _ _ _ _ => True)
      (LogoutCommandUseCase.execute refreshToken now revokedAt) id [] d := by
  simp only [LogoutCommandUseCase.execute, Prog.bind_eq, Protocol.wp_bind_eq]
  refine Protocol.wp_within (within_revokeSessionByRefreshToken _ now revokedAt)
    (fun _ _ => .comp) hd shrinking_id ?_
    (fun _ _ _ _ _ => trivial)
  intro _ w ks d₁ _ _ hw
  refine Protocol.wp_commitOr.2 fun d₂ _ hd₂ => ⟨⟨hd₂.shrinks (hw d₂), ?_, trivial⟩, trivial⟩
  show (effect i).Change d₂ (w d₂)
  rw [heffect]
  exact .shrinks (hw d₂)

end Sessions

/-! ## Withdrawal -/

section Withdrawal

variable {userId credentialsId : UUID} {w u : AuthDatabase → AuthDatabase}

/-- A write that leaves the account alone, or removes it. -/
structure Settles (userId credentialsId : UUID) (w : AuthDatabase → AuthDatabase) : Prop where
  shrinking : Shrinking w
  settles : (∀ d, Withdrawn userId credentialsId (w d)) ∨
    ∀ d, Withdrawn userId credentialsId (w d) → Withdrawn userId credentialsId d

theorem settles_id : Settles userId credentialsId id := ⟨shrinking_id, .inr fun _ h => h⟩

theorem Settles.comp (hu : Settles userId credentialsId u) (hw : Settles userId credentialsId w) :
    Settles userId credentialsId (u ∘ w) := by
  refine ⟨hu.shrinking.comp hw.shrinking, ?_⟩
  rcases hu.settles with hu' | hu'
  · exact .inl fun d => hu' (w d)
  · rcases hw.settles with hw' | hw'
    · exact .inl fun d => (hw' d).shrinks (hu.shrinking (w d))
    · exact .inr fun d h => hw' d (hu' (w d) h)

theorem withdrawn_deleteRows {rows : List AuthRow} (h : .credential credentialsId ∈ rows)
    (d : AuthDatabase) :
    Withdrawn userId credentialsId (AuthDatabase.deleteRows rows d) := by
  rintro r hr ⟨rfl, -⟩
  have hnot := (Table.mem_filter.1 hr).2
  rw [decide_eq_true_eq] at hnot
  exact hnot h

theorem settles_deleteRows (rows : List AuthRow) :
    Settles userId credentialsId (AuthDatabase.deleteRows rows) := by
  refine ⟨shrinking_deleteRows rows, ?_⟩
  by_cases h : .credential credentialsId ∈ rows
  · exact .inl (withdrawn_deleteRows h)
  · refine .inr fun d hd r hr => ?_
    rintro ⟨rfl, huser⟩
    exact hd r (Table.mem_filter.2 ⟨hr, decide_eq_true h⟩) ⟨rfl, huser⟩

theorem Settles.withdrawn (hw : Settles userId credentialsId w) {d : AuthDatabase}
    (h : Withdrawn userId credentialsId (w d)) :
    Withdrawn userId credentialsId d ∨ ∀ d, Withdrawn userId credentialsId (w d) := by
  rcases hw.settles with hw' | hw'
  · exact .inr hw'
  · exact .inl (hw' d h)

theorem settles_deleteWhere {f : AuthDatabase → List AuthRow} :
    (deleteWhere f).Within (Settles userId credentialsId) :=
  .bind (Prog.within_query settles_id) fun _ =>
    .bind (Prog.within_modify settles_id settles_deleteRows) fun _ => .ret ()

variable {ι : Type} {effect : ι → SessionEffect} {i : ι} {d : AuthDatabase}

theorem stable_withdrawn : (sessions effect).Stable i (Withdrawn userId credentialsId) :=
  stable_of_change fun h hc => h.change hc

/-- The account is not there, or will be removed. -/
theorem wp_deleteAccountAuthState {Q : Post AuthDatabase AuthLock Unit}
    (hQ : ∀ w ks d', Proper d' → Shrinking w →
      (Withdrawn userId credentialsId d' ∨ ∀ d, Withdrawn userId credentialsId (w d)) →
      Q () w ks d') :
    (sessions effect).wp i Q (fun _ _ _ _ => True)
      (deleteAccountAuthState userId credentialsId) id [] d := by
  rw [deleteAccountAuthState]
  simp only [Prog.bind_eq, Protocol.wp_bind_eq, wp_select, id, Prog.pure_eq]
  intro d₁ _ hd₁ _
  generalize howned : d₁.userCredentials.rows.find? _ = owned
  rcases owned with - | credentials
  · refine hQ id [] d₁ hd₁ shrinking_id (.inl fun r hr h => ?_)
    simpa [h] using List.find?_eq_none.1 howned r hr
  obtain ⟨hid, huser⟩ : credentials.id = credentialsId ∧ credentials.userId = userId := by
    simpa using List.find?_some howned
  simp only [Protocol.wp_bind_eq]
  have hdelete : ∀ {f : AuthDatabase → List AuthRow} {w ks d'}
      {Q : Post AuthDatabase AuthLock Unit}, Proper d' →
        Settles userId credentialsId w →
        (∀ w ks d'', Proper d'' → Settles userId credentialsId w → Q () w ks d'') →
        (sessions effect).wp i Q (fun _ _ _ _ => True) (deleteWhere f) w ks d' := by
    intro f w ks d' Q hd' hw hQ
    exact Protocol.wp_within settles_deleteWhere (fun _ _ => .comp) hd' hw
      (fun _ w ks d'' _ hd'' hw => hQ w ks d'' hd'' hw) fun _ _ _ _ _ => trivial
  refine hdelete hd₁ settles_id fun w ks d₂ hd₂ hw => ?_
  refine hdelete hd₂ hw fun w ks d₃ hd₃ hw => ?_
  refine hdelete hd₃ hw fun w ks d₄ hd₄ hw => ?_
  refine wp_deleteWhere fun ks d₅ d₆ hi₅ hd₅ hi₆ hd₆ => ?_
  generalize hrows :
    ((w d₅).userCredentials.rows.filter (·.id = credentials.id)).map (AuthRow.credential ·.id) = rows
  have hw' := (settles_deleteRows ((w d₆).cascade rows)).comp hw
  refine hQ _ _ d₆ hd₆ hw'.shrinking ?_
  -- The row is deleted, unless it is not there when the snapshot is taken, or when it is locked.
  by_cases hsnapshot : Withdrawn userId credentialsId (w d₅)
  · rcases hw.withdrawn hsnapshot with h | h
    · exact .inl (stable_withdrawn.interf hi₆ h)
    · exact .inr fun d => (h d).shrinks (shrinking_deleteRows _ (w d))
  by_cases hlocked : Withdrawn userId credentialsId (w d₆)
  · rcases hw.withdrawn hlocked with h | h
    · exact .inl h
    · exact .inr fun d => (h d).shrinks (shrinking_deleteRows _ (w d))
  · simp only [Withdrawn, not_forall, not_not] at hsnapshot hlocked
    obtain ⟨r, hr, hrid, -⟩ := hsnapshot
    obtain ⟨q, hq, hqid, -⟩ := hlocked
    have hmem : AuthRow.credential credentialsId ∈ rows := by
      rw [← hrows, ← hrid]
      exact List.mem_map_of_mem (List.mem_filter.2 ⟨hr, decide_eq_true (hrid.trans hid.symm)⟩)
    refine .inr fun d => withdrawn_deleteRows ?_ (w d)
    simp only [AuthDatabase.cascade, List.append_assoc]
    refine List.mem_append_left _ ?_
    rw [← hqid] at hmem ⊢
    exact List.mem_map_of_mem (List.mem_filter.2 ⟨hq, decide_eq_true hmem⟩)

end Withdrawal

end Boat.Auth
