import Boat.Auth.SessionsSpec

/-!
# Auth: logouts and refreshes

A logout finds its session by the row of a refresh token, which a refresh of the same token deletes:
a session ends by the one or is found no more by the token after the other.

* `Traced`: the row of the token is there, or the token has been replaced, or its session revoked;
* `Spares`: what a transaction writes leaves the row of the token, unless its session ends;
* `logouts`: the protocol of requests that keep this, one of which is a logout that looks the token up
  before it has been replaced. The session has ended when that logout has committed
  (`wp_logout_logouts`).
-/

namespace Boat.Auth

open ReadCommitted SqlAlchemyCredentialRepository SqlAlchemyExternalIdentityLoginSynchronizer

/-! ## The token of a session -/

/-- The token has been replaced by another one. -/
def Replaced (tokenHash : String) (d : AuthDatabase) : Prop :=
  some tokenHash ∈ d.tokenHistory.map (·.1)

/-- The session has these credentials, as long as it is there. -/
def OwnedBy (credentialsId sessionId : UUID) (d : AuthDatabase) : Prop :=
  ∀ s ∈ d.authSessions.rows, s.id = sessionId → s.credentialsId = credentialsId

/-- The token has been replaced, or its session revoked. -/
def Spent (token : RefreshToken) (sessionId : UUID) (d : AuthDatabase) : Prop :=
  Replaced token.tokenHash d ∨ Revoked sessionId d

/-- The row of the token is there, as long as the token is not spent. -/
structure Traced (token : RefreshToken) (sessionId : UUID) (d : AuthDatabase) : Prop where
  opened : sessionId ∈ d.sessionHistory
  owner : OwnedBy token.credentialsId sessionId d
  row : token ∈ d.refreshTokens.rows ∨ Spent token sessionId d

section Traces

variable {token : RefreshToken} {sessionId : UUID} {d d' : AuthDatabase} {e : SessionEffect}

theorem Spent.change (h : Spent token sessionId d) (hc : e.Change d d') : Spent token sessionId d' :=
  h.imp (List.map_subset _ hc.tokenHistory_subset ·) (·.change hc)

theorem Traced.change (h : Traced token sessionId d) (hc : e.Change d d')
    (howner : OwnedBy token.credentialsId sessionId d')
    (hrow : token ∈ d.refreshTokens.rows → token ∈ d'.refreshTokens.rows ∨ Spent token sessionId d') :
    Traced token sessionId d' where
  opened := by
    rw [hc.sessionHistory]
    exact List.mem_append_right _ h.opened
  owner := howner
  row := h.row.elim hrow fun hs => .inr (hs.change hc)

end Traces

/-! ## Writes -/

/-- A write after which there is nothing new, and sessions have the credentials that they had. -/
structure Tame (w : AuthDatabase → AuthDatabase) : Prop where
  shrinking : Shrinking w
  owners : ∀ d, ∀ s' ∈ (w d).authSessions.rows,
    ∃ s ∈ d.authSessions.rows, s.id = s'.id ∧ s.credentialsId = s'.credentialsId

/-- A write that leaves the row of a token. -/
def Keeps (token : RefreshToken) (w : AuthDatabase → AuthDatabase) : Prop :=
  ∀ d, token ∈ d.refreshTokens.rows → token ∈ (w d).refreshTokens.rows

/-- A write after which a session is revoked, or not there. -/
def Revokes (sessionId : UUID) (w : AuthDatabase → AuthDatabase) : Prop :=
  ∀ d, ∀ s ∈ (w d).authSessions.rows, s.id = sessionId → s.revokedAt ≠ none

section Writes

variable {token : RefreshToken} {credentialsId sessionId : UUID} {d d' : AuthDatabase}
  {u w : AuthDatabase → AuthDatabase}

theorem tame_id : Tame id := ⟨shrinking_id, fun _ s hs => ⟨s, hs, rfl, rfl⟩⟩

theorem Tame.comp (hu : Tame u) (hw : Tame w) : Tame (u ∘ w) where
  shrinking := hu.shrinking.comp hw.shrinking
  owners d s hs := by
    obtain ⟨s', hs', hid, hc⟩ := hu.owners (w d) s hs
    obtain ⟨s'', hs'', hid', hc'⟩ := hw.owners d s' hs'
    exact ⟨s'', hs'', hid'.trans hid, hc'.trans hc⟩

theorem Tame.ownedBy (hw : Tame w) (h : OwnedBy credentialsId sessionId d) :
    OwnedBy credentialsId sessionId (w d) := by
  intro s hs hid
  obtain ⟨s', hs', hid', hc⟩ := hw.owners d s hs
  exact hc ▸ h s' hs' (hid'.trans hid)

/-- A write that does not write to sessions is tame, if there is nothing new. -/
theorem tame_of_shrinking (hw : Shrinking w)
    (h : ∀ d, (w d).authSessions = d.authSessions) : Tame w :=
  ⟨hw, fun d s hs => ⟨s, h d ▸ hs, rfl, rfl⟩⟩

theorem tame_deleteRows (rows : List AuthRow) : Tame (AuthDatabase.deleteRows rows) :=
  ⟨shrinking_deleteRows rows, fun _ s hs => ⟨s, (Table.mem_filter.1 hs).1, rfl, rfl⟩⟩

theorem tame_revokeSession (id : UUID) (revokedAt : Instant) :
    Tame (AuthDatabase.revokeSession id revokedAt) := by
  refine ⟨shrinking_revokeSession id revokedAt, fun d s hs => ?_⟩
  rcases AuthDatabase.mem_revokeSession.1 hs with ⟨hs, -⟩ | ⟨q, hq, -, rfl⟩
  · exact ⟨s, hs, rfl, rfl⟩
  · exact ⟨q, hq, rfl, rfl⟩

theorem Keeps.comp (hu : Keeps token u) (hw : Keeps token w) : Keeps token (u ∘ w) :=
  fun d h => hu _ (hw d h)

theorem Revokes.comp (hu : Shrinking u) (hw : Revokes sessionId w) : Revokes sessionId (u ∘ w) := by
  intro d s hs hid
  obtain ⟨s', hs', hid', hrevoked⟩ := (hu (w d)).sessions s hs
  exact hrevoked (hw d s' hs' (hid'.trans hid))

theorem revokes_revokeSession (id : UUID) (revokedAt : Instant) :
    Revokes id (AuthDatabase.revokeSession id revokedAt) := by
  intro d s hs hid
  rcases AuthDatabase.mem_revokeSession.1 hs with ⟨-, hne⟩ | ⟨q, -, -, rfl⟩
  · exact absurd hid hne
  · exact Option.some_ne_none revokedAt

theorem revokes_deleteRows {rows : List AuthRow} (h : .session sessionId ∈ rows) :
    Revokes sessionId (AuthDatabase.deleteRows rows) := by
  rintro d s hs rfl
  exact absurd h (by simpa using (Table.mem_filter.1 hs).2)

theorem keeps_deleteRows {rows : List AuthRow} (h : .refreshToken token.id ∉ rows) :
    Keeps token (AuthDatabase.deleteRows rows) :=
  fun _ ht => Table.mem_filter.2 ⟨ht, decide_eq_true h⟩

/-- What a revocation leaves of its session. -/
theorem Revokes.revoked (hw : Revokes sessionId w)
    (h : sessionId ∈ (w d).sessionHistory) : Revoked sessionId (w d) :=
  ⟨h, hw d⟩

theorem exists_of_not_revoked (hopened : sessionId ∈ d.sessionHistory) (h : ¬Revoked sessionId d) :
    ∃ s ∈ d.authSessions.rows, s.id = sessionId := by
  by_contra hnot
  exact h ⟨hopened, fun s hs hid => absurd ⟨s, hs, hid⟩ hnot⟩

theorem mem_deleteRows_session {rows : List AuthRow} {s : AuthSession} (hs : s ∈ d.authSessions.rows)
    (h : .session s.id ∉ rows) : s ∈ (AuthDatabase.deleteRows rows d).authSessions.rows :=
  Table.mem_filter.2 ⟨hs, decide_eq_true h⟩

theorem mem_cascade_session {rows : List AuthRow} {s : AuthSession} (hs : s ∈ d.authSessions.rows)
    (h : .session s.id ∈ rows) : .session s.id ∈ d.cascade rows := by
  refine List.mem_append_left _ (List.mem_append_right _ ?_)
  exact List.mem_map_of_mem (List.mem_filter.2 ⟨hs, decide_eq_true (.inl h)⟩)

/-- Rows that have nothing to do with the token, its session and its credentials. -/
structure Foreign (token : RefreshToken) (sessionId : UUID) (rows : List AuthRow) : Prop where
  refreshToken : .refreshToken token.id ∉ rows
  session : .session sessionId ∉ rows
  credential : .credential token.credentialsId ∉ rows

/-- The rows that refer to them do not have anything to do with the token either. -/
theorem Foreign.not_mem_cascade {rows : List AuthRow} (h : Foreign token sessionId rows)
    (htoken : token.sessionId = some sessionId) (hrow : token ∈ d.refreshTokens.rows)
    (howner : OwnedBy token.credentialsId sessionId d) : .refreshToken token.id ∉ d.cascade rows := by
  have hcredentials : ∀ credentialsId,
      (d.userCredentials.rows.filter (.credential ·.id ∈ rows)).any (·.id = credentialsId) →
        .credential credentialsId ∈ rows := by
    intro credentialsId hany
    obtain ⟨c, hc, hid⟩ := List.any_eq_true.1 hany
    rw [List.mem_filter, decide_eq_true_eq] at hc
    exact of_decide_eq_true hid ▸ hc.2
  simp only [AuthDatabase.cascade, List.mem_append, List.mem_map, reduceCtorEq, and_false,
    exists_false, false_or, AuthRow.refreshToken.injEq]
  rintro ⟨r, hr, hid⟩
  rw [List.mem_filter, decide_eq_true_eq] at hr
  obtain rfl : r = token := Table.eq_of_key hr.1 hrow hid
  rcases hr.2 with hmem | hmem | hmem
  · exact h.refreshToken hmem
  · exact h.credential (hcredentials _ hmem)
  · obtain ⟨s, hs, hsession⟩ := List.any_eq_true.1 hmem
    rw [List.mem_filter, decide_eq_true_eq] at hs
    have hsid : s.id = sessionId := by simpa [htoken, eq_comm] using hsession
    rcases hs.2 with hmem | hmem
    · exact h.session (hsid ▸ hmem)
    · exact h.credential (howner s hs.1 hsid ▸ hcredentials _ hmem)

end Writes

/-! ## The protocol -/

section Protocol

variable {ι : Type} {effect : ι → SessionEffect} {token : RefreshToken} {sessionId : UUID} {i j : ι}
  {d d' : AuthDatabase}
  {ks : List AuthLock} {w : AuthDatabase → AuthDatabase}

/-- The protocol of requests with these effects, of which the logout `j` looks the token up before
    it has been replaced. -/
def logouts (effect : ι → SessionEffect) (token : RefreshToken) (sessionId : UUID) (j : ι) :
    Protocol ι AuthDatabase AuthLock AuthStatement where
  inv d := Proper d ∧ Traced token sessionId d
  guar i _ := (effect i).Change
  cond i s d _ := i = j → s = .findRefreshToken token.tokenHash → ¬Replaced token.tokenHash d

theorem interf_of_logouts (h : (logouts effect token sessionId j).Interf i ks d d') :
    (sessions effect).Interf i ks d d' := by
  refine Relation.ReflTransGen.mono (fun d d' h => ?_) _ _ h
  obtain ⟨k, ks', hne, hdisjoint, hkept, hinv, hguar, hinv'⟩ := h
  exact ⟨k, ks', hne, hdisjoint, hkept, hinv.1, hguar, hinv'.1⟩

theorem stable_spent : (sessions effect).Stable i (Spent token sessionId) :=
  stable_of_change fun h hc => h.change hc

theorem Spent.interf (h : Spent token sessionId d)
    (hi : (logouts effect token sessionId j).Interf i ks d d') :
    Spent token sessionId d' := stable_spent.interf (interf_of_logouts hi) h

theorem Revoked.interf (h : Revoked sessionId d)
    (hi : (logouts effect token sessionId j).Interf i ks d d') :
    Revoked sessionId d' := stable_revoked.interf (interf_of_logouts hi) h

/-- A write that leaves the row of the token, unless its session ends. -/
structure Spares (token : RefreshToken) (sessionId : UUID) (w : AuthDatabase → AuthDatabase)
    (d : AuthDatabase) : Prop where
  tame : Tame w
  spares : Spent token sessionId d ∨ Keeps token w ∨ Revokes sessionId w

theorem Spares.interf (h : Spares token sessionId w d)
    (hi : (logouts effect token sessionId j).Interf i ks d d') :
    Spares token sessionId w d' := ⟨h.tame, h.spares.imp_left (·.interf hi)⟩

/-- Events have nothing to do with tokens. -/
theorem Spares.insertOutbox (h : Spares token sessionId w d) (events : List (Stamped AuthEvent)) :
    Spares token sessionId (AuthDatabase.insertOutbox events ∘ w) d where
  tame := (tame_of_shrinking (shrinking_insertOutbox events) fun _ => rfl).comp h.tame
  spares := h.spares.imp_right
    (·.imp (fun hk _ ht => hk _ ht) (Revokes.comp (shrinking_insertOutbox events)))

/-- A commit that spares the token keeps the invariant. -/
theorem Spares.commit (h : Spares token sessionId w d) (hd : (logouts effect token sessionId j).inv d)
    (heffect : effect i = .shrinks) (ks : List AuthLock) :
    (logouts effect token sessionId j).inv (w d) ∧
    (logouts effect token sessionId j).guar i ks d (w d) := by
  have hc : SessionEffect.shrinks.Change d (w d) := .shrinks (h.tame.shrinking d)
  have hguar : (effect i).Change d (w d) := heffect ▸ hc
  refine ⟨⟨hd.1.change hc, hd.2.change hc (h.tame.ownedBy hd.2.owner) fun ht => ?_⟩, hguar⟩
  rcases h.spares with hs | hk | hr
  · exact .inr (hs.change hc)
  · exact .inl (hk d ht)
  · refine .inr (.inr (hr.revoked ?_))
    rw [hc.sessionHistory]
    exact hd.2.opened

/-- A `DELETE` of rows that have nothing to do with the token. -/
theorem wp_deleteForeign {f : AuthDatabase → List AuthRow} {Q : Post AuthDatabase AuthLock Unit}
    (htoken : token.sessionId = some sessionId) (hw : Tame w)
    (h : Spent token sessionId d ∨ Keeps token w ∧
      ∀ d', (logouts effect token sessionId j).Interf i ks d d' →
      token ∈ (w d').refreshTokens.rows → OwnedBy token.credentialsId sessionId (w d') →
      Foreign token sessionId (f (w d')))
    (hQ : ∀ w ks' d', (logouts effect token sessionId j).Interf i ks d d' →
      (logouts effect token sessionId j).inv d' →
      Tame w → Spent token sessionId d' ∨ Keeps token w → Q () w ks' d') :
    (logouts effect token sessionId j).wp i Q (fun _ _ _ _ => True) (deleteWhere f) w ks d := by
  refine wp_deleteWhere fun ks' d₁ d₂ hi₁ hd₁ hi₂ hd₂ =>
    hQ _ ks' d₂ (hi₁.trans hi₂) hd₂ ((tame_deleteRows _).comp hw) ?_
  rcases h with hs | ⟨hk, hforeign⟩
  · exact .inl (hs.interf (hi₁.trans hi₂))
  rcases hd₁.2.row with ht₁ | hs
  swap
  · exact .inl (hs.interf hi₂)
  rcases hd₂.2.row with ht₂ | hs
  swap
  · exact .inl hs
  have hf := hforeign d₁ hi₁ (hk d₁ ht₁) (hw.ownedBy hd₁.2.owner)
  exact .inr ((keeps_deleteRows
    (hf.not_mem_cascade htoken (hk d₂ ht₂) (hw.ownedBy hd₂.2.owner))).comp hk)

/-- A `DELETE` after which the session ends, or has ended. -/
theorem wp_deleteEnded {f : AuthDatabase → List AuthRow} {Q : Post AuthDatabase AuthLock Unit}
    (hw : Tame w) (h : Revoked sessionId d ∨ Revokes sessionId w)
    (hQ : ∀ w ks' d', (logouts effect token sessionId j).Interf i ks d d' →
      (logouts effect token sessionId j).inv d' →
      Tame w → Revoked sessionId d' ∨ Revokes sessionId w → Q () w ks' d') :
    (logouts effect token sessionId j).wp i Q (fun _ _ _ _ => True) (deleteWhere f) w ks d := by
  refine wp_deleteWhere fun ks' d₁ d₂ hi₁ _ hi₂ hd₂ =>
    hQ _ ks' d₂ (hi₁.trans hi₂) hd₂ ((tame_deleteRows _).comp hw) ?_
  exact h.imp (·.interf (hi₁.trans hi₂)) (Revokes.comp (shrinking_deleteRows _))

end Protocol

/-! ## Programs -/

section Programs

variable {ι : Type} {effect : ι → SessionEffect} {token : RefreshToken} {sessionId : UUID} {i j : ι}
  {d d' : AuthDatabase}

theorem foreign_of_tokens {rows : List RefreshToken} (h : token.id ∉ rows.map (·.id)) :
    Foreign token sessionId (rows.map (.refreshToken ·.id)) := by
  refine ⟨fun hmem => ?_, fun hmem => ?_, fun hmem => ?_⟩
  · obtain ⟨r, hr, heq⟩ := List.mem_map.1 hmem
    exact h (AuthRow.refreshToken.inj heq ▸ List.mem_map_of_mem hr)
  · obtain ⟨r, -, heq⟩ := List.mem_map.1 hmem
    cases heq
  · obtain ⟨r, -, heq⟩ := List.mem_map.1 hmem
    cases heq

/-- The tokens with a property that the token does not have are others. -/
theorem foreign_filter (hrow : token ∈ d.refreshTokens.rows) {p : RefreshToken → Bool}
    (hp : p token = false) :
    Foreign token sessionId ((d.refreshTokens.rows.filter p).map (.refreshToken ·.id)) := by
  refine foreign_of_tokens fun hmem => ?_
  obtain ⟨r, hr, hid⟩ := List.mem_map.1 hmem
  rw [List.mem_filter] at hr
  rw [Table.eq_of_key hr.1 hrow hid, hp] at hr
  cases hr.2

/-- A logout revokes the session of the token that it finds, and spares other tokens. -/
theorem wp_revokeSessionByRefreshToken {Q : Post AuthDatabase AuthLock Unit} {tokenHash : String}
    {now revokedAt : Instant} (htoken : token.sessionId = some sessionId)
    (hQ : ∀ w ks d', (logouts effect token sessionId j).Interf i [] d d' →
      (logouts effect token sessionId j).inv d' →
      Spares token sessionId w d' →
      (i = j → tokenHash = token.tokenHash → now < token.expiresAt → Revoked sessionId d' ∨
        Revokes sessionId w) →
      Q () w ks d') :
    (logouts effect token sessionId j).wp i Q (fun _ _ _ _ => True)
      (revokeSessionByRefreshToken tokenHash now revokedAt) id [] d := by
  simp only [revokeSessionByRefreshToken, Prog.bind_eq, Protocol.wp_bind_eq, wp_select, id,
    Prog.pure_eq]
  intro d₁ hi₁ hd₁ hcond
  generalize hfind : d₁.refreshTokens.rows.find? _ = found
  have hrow : i = j → tokenHash = token.tokenHash → token ∈ d₁.refreshTokens.rows ∨
      Revoked sessionId d₁ := by
    rintro hi rfl
    exact hd₁.2.row.imp_right fun hs => hs.resolve_left (hcond hi rfl)
  rcases found with - | r
  · refine hQ id [] d₁ hi₁ hd₁ ⟨tame_id, .inr (.inl fun _ h => h)⟩ fun hi hhash hnow => .inl ?_
    refine (hrow hi hhash).resolve_left fun ht => ?_
    simpa [hhash, hnow] using List.find?_eq_none.1 hfind token ht
  have hr : r ∈ d₁.refreshTokens.rows := List.mem_of_find?_eq_some hfind
  obtain ⟨hrhash, -⟩ : r.tokenHash = tokenHash ∧ now < r.expiresAt := by
    simpa using List.find?_some hfind
  have heq : i = j → tokenHash = token.tokenHash → r = token ∨ Revoked sessionId d₁ := fun hi hhash =>
    (hrow hi hhash).imp_left fun ht =>
      List.inj_on_of_nodup_map hd₁.1.hashes_nodup hr ht (hrhash.trans hhash)
  rcases hsession : r.sessionId with - | sessionId'
  · simp only [hsession]
    have hne : token ∈ d₁.refreshTokens.rows → r.id ≠ token.id := by
      intro ht hid
      rw [Table.eq_of_key hr ht hid, htoken] at hsession
      cases hsession
    refine wp_deleteForeign htoken tame_id ?_ fun w ks d₂ hi₂ hd₂ hw hspent =>
      hQ w ks d₂ (hi₁.trans hi₂) hd₂ ⟨hw, ?_⟩ ?_
    · refine hd₁.2.row.symm.imp_right fun ht => ⟨fun _ h => h, fun d' _ _ _ => ?_⟩
      have hrow : token.id ∉ [r].map (·.id) := by simpa [eq_comm] using hne ht
      exact foreign_of_tokens hrow
    · exact hspent.imp_right .inl
    · intro hi hhash _
      refine .inl (((heq hi hhash).resolve_left ?_).interf hi₂)
      rintro rfl
      rw [htoken] at hsession
      cases hsession
  simp only [hsession, Protocol.wp_bind_eq]
  -- With the session or without, what is left is to delete its tokens.
  suffices hdelete : ∀ w ks d₂, (logouts effect token sessionId j).Interf i [] d₁ d₂ →
      (logouts effect token sessionId j).inv d₂ → Tame w →
        (∀ d, (w d).refreshTokens = d.refreshTokens) →
      (sessionId' = sessionId → Revoked sessionId d₂ ∨ Revokes sessionId w) →
      (logouts effect token sessionId j).wp i Q (fun _ _ _ _ => True) (deleteWhere fun v =>
        (v.refreshTokens.rows.filter (·.sessionId = some sessionId')).map (.refreshToken ·.id))
          w ks d₂ by
    simp only [getSession, wp_select]
    intro d₂ hi₂ hd₂ _
    rcases hget : d₂.authSessions.find sessionId' with - | authSession
    · simp only [id, hget]
      refine hdelete id _ d₂ hi₂ hd₂ tame_id (fun _ => rfl) fun hs =>
        .inl ⟨hd₂.2.opened, fun s hs' hid => ?_⟩
      exact absurd (hs ▸ hid ▸ List.mem_map_of_mem hs') (Table.find_eq_none.1 hget)
    · simp only [id, hget, Protocol.wp_bind_eq, flushRevocation, AuthTx.exec]
      refine Protocol.wp_update (X := fun _ _ => True) (fun d₃ s hi₃ hd₃ _ hs => ?_)
        (fun _ _ => trivial)
        fun _ _ => trivial
      refine hdelete _ _ d₃ (hi₂.trans hi₃.nil) hd₃ (tame_revokeSession s.id revokedAt)
        (fun _ => rfl) fun hs' => .inr ?_
      rw [← hs', ← (Table.find_eq_some.1 hget).2, ← (Table.find_eq_some.1 hs).2]
      exact revokes_revokeSession s.id revokedAt
  intro w ks d₂ hi₂ hd₂ hw htokens hrevokes
  by_cases hs : sessionId' = sessionId
  · refine wp_deleteEnded hw (hrevokes hs) fun w ks d₃ hi₃ hd₃ hw hends => ?_
    exact hQ w ks d₃ (hi₁.trans (hi₂.trans hi₃.nil)) hd₃ ⟨hw, hends.imp .inr .inr⟩ fun _ _ _ => hends
  · refine wp_deleteForeign htoken hw ?_ fun w ks d₃ hi₃ hd₃ hw hspent =>
      hQ w ks d₃ (hi₁.trans (hi₂.trans hi₃.nil)) hd₃ ⟨hw, hspent.imp_right .inl⟩ fun hi hhash _ =>
        .inl ?_
    · refine .inr ⟨fun d h => (htokens d).symm ▸ h, fun d' _ ht _ => foreign_filter ht ?_⟩
      simpa [htoken, eq_comm] using hs
    · refine ((heq hi hhash).resolve_left ?_).interf (hi₂.trans hi₃.nil)
      rintro rfl
      exact hs (Option.some.inj (hsession.symm.trans htoken))

end Programs

section Requests

variable [CaseFolding] [Digests] {ι : Type} {effect : ι → SessionEffect} {token : RefreshToken}
  {sessionId : UUID} {i j : ι}
  {d : AuthDatabase}

/-- A login leaves the token alone. -/
theorem wp_login_logouts (hdistinct : Distinct effect) {identity : ExternalIdentity} {ids : LoginIds}
    (heffect : effect i = .opens ids.sessionId (hash ids.refreshToken.token))
    (hd : (logouts effect token sessionId j).inv d) (hunused : Unused (effect i) d) :
    (logouts effect token sessionId j).wp i (fun _ _ _ _ => True) (fun _ _ _ _ => True)
      (LoginCommandUseCase.execute identity ids) id [] d := by
  refine wp_loginCommit (W := fun w => Tame w ∧ Keeps token w) ⟨tame_id, fun _ h => h⟩
    (fun u w hu hw => ⟨hu.1.comp hw.1, hu.2.comp hw.2⟩)
    (fun r => ⟨tame_of_shrinking (shrinking_insertIdentity r) fun _ => rfl, fun _ h => h⟩)
    (fun id t => ⟨tame_of_shrinking (shrinking_updateCredential id t) fun _ => rfl, fun _ h => h⟩) hd
    fun w ks d₁ credentials hi₁ hd₁ hw d₂ heq => ?_
  have hunused₁ := (stable_unused hdistinct).interf (interf_of_logouts hi₁) hunused
  have hc : (effect i).Change d₁ d₂ := by
    rw [heffect] at hunused₁ ⊢
    exact heq ▸ .opens (s := ⟨ids.sessionId, credentials.id, none⟩) hunused₁
      (hw.1.shrinking d₁) rfl rfl
  have htraced : Traced token sessionId d₂ := by
    refine hd₁.2.change hc ?_ fun ht => .inl (heq ▸ Table.mem_insert.2 (.inl (hw.2 d₁ ht)))
    subst heq
    refine Table.forall_insert (hw.1.ownedBy hd₁.2.owner) fun hid => ?_
    rw [heffect] at hunused₁
    exact absurd hd₁.2.opened (hid ▸ hunused₁.session _ rfl)
  exact ⟨⟨hd₁.1.change hc, htraced⟩, hc, trivial⟩

omit [CaseFolding] in
/-- A refresh leaves the token, or replaces it. -/
theorem wp_refresh_logouts (hdistinct : Distinct effect) {refreshToken : String}
    {issued : IssuedRefreshToken} {now : Instant}
    (heffect : effect i = .rotates (hash refreshToken) (hash issued.token))
    (hunused : Unused (effect i) d) :
    (logouts effect token sessionId j).wp i (fun _ _ _ _ => True) (fun _ _ _ _ => True)
      (RefreshTokenCommandUseCase.execute refreshToken issued now) id [] d := by
  refine wp_refreshCommit fun credentials authSession old rows ks d₁ d₂ hi₁ _ _ hi₂ hd₂ hmem
    hsession hrows d₃ heq => ?_
  have hunused₂ := (stable_unused hdistinct).interf (interf_of_logouts (hi₁.trans hi₂)) hunused
  have hc : (effect i).Change d₂ d₃ := heq ▸ change_refresh heffect hunused₂ hmem hsession hrows
  refine ⟨⟨hd₂.1.change hc, hd₂.2.change hc ?_ fun ht => ?_⟩, hc, trivial⟩
  · subst heq
    exact (tame_deleteRows (rows.map (.refreshToken ·.id))).ownedBy hd₂.2.owner
  · by_cases hid : .refreshToken token.id ∈ rows.map (AuthRow.refreshToken ·.id)
    · obtain ⟨r, hr, hrid⟩ := List.mem_map.1 hid
      obtain rfl : r = token := Table.eq_of_key (hrows r hr).1 ht (AuthRow.refreshToken.inj hrid)
      refine .inr (.inl ?_)
      rw [heq, (hrows r hr).2]
      exact List.mem_cons_self
    · exact .inl (heq ▸ Table.mem_insert.2 (.inl (keeps_deleteRows hid d₂ ht)))

omit [CaseFolding] in
/-- A logout that looks the token up before it has been replaced ends its session. -/
theorem wp_logout_logouts {refreshToken : String} {now revokedAt : Instant}
    (htoken : token.sessionId = some sessionId) (heffect : effect i = .shrinks) :
    (logouts effect token sessionId j).wp i
      (fun _ _ _ d => i = j → hash refreshToken = token.tokenHash → now < token.expiresAt →
        Revoked sessionId d)
      (fun _ _ _ _ => True) (LogoutCommandUseCase.execute refreshToken now revokedAt) id [] d := by
  simp only [LogoutCommandUseCase.execute, Prog.bind_eq, Protocol.wp_bind_eq]
  refine wp_revokeSessionByRefreshToken htoken fun w ks d₁ _ _ hspares hends => ?_
  refine Protocol.wp_commitOr.2 fun d₂ hi₂ hd₂ => ⟨?_, trivial⟩
  obtain ⟨hinv, hguar⟩ := (hspares.interf hi₂).commit hd₂ heffect ks
  refine ⟨hinv, hguar, fun hi hhash hnow => ?_⟩
  rcases hends hi hhash hnow with h | h
  · exact (h.interf hi₂).shrinks (hspares.tame.shrinking d₂)
  · exact h.revoked hinv.2.opened

omit [CaseFolding] [Digests] in
/-- A withdrawal ends the sessions of its credentials, and spares the tokens of others. -/
theorem wp_deleteAccountAuthState_logouts {Q : Post AuthDatabase AuthLock Unit}
    {userId credentialsId : UUID} (htoken : token.sessionId = some sessionId)
    (hQ : ∀ w ks d', (logouts effect token sessionId j).inv d' → Spares token sessionId w d' →
      Q () w ks d') :
    (logouts effect token sessionId j).wp i Q (fun _ _ _ _ => True)
      (deleteAccountAuthState userId credentialsId) id [] d := by
  rw [deleteAccountAuthState]
  simp only [Prog.bind_eq, Protocol.wp_bind_eq, wp_select, id, Prog.pure_eq]
  intro d₁ hi₁ hd₁ _
  generalize howned : d₁.userCredentials.rows.find? _ = owned
  rcases owned with - | credentials
  · exact hQ id [] d₁ hd₁ ⟨tame_id, .inr (.inl fun _ h => h)⟩
  simp only [Protocol.wp_bind_eq]
  by_cases hc : token.credentialsId = credentials.id
  · refine wp_deleteWhere fun ks₁ d₂ d₃ _ _ _ hd₃ => ?_
    generalize AuthDatabase.cascade _ _ = rows
    refine wp_deleteWhere fun ks₂ d₄ d₅ hi₄ hd₄ hi₅ hd₅ => ?_
    -- Its session is found with those of the credentials, unless it has been deleted, or revoked.
    refine wp_deleteEnded ((tame_deleteRows _).comp ((tame_deleteRows rows).comp tame_id)) ?_
      fun w ks d₆ _ _ hw hends => ?_
    · by_cases hrows : .session sessionId ∈ rows
      · exact .inr (Revokes.comp (shrinking_deleteRows _) (revokes_deleteRows hrows))
      by_cases h₄ : Revoked sessionId d₄
      · exact .inl (h₄.interf hi₅)
      by_cases h₅ : Revoked sessionId d₅
      · exact .inl h₅
      obtain ⟨s, hs, hid⟩ := exists_of_not_revoked hd₄.2.opened h₄
      obtain ⟨s', hs', rfl⟩ := exists_of_not_revoked hd₅.2.opened h₅
      refine .inr fun d =>
        revokes_deleteRows (mem_cascade_session (mem_deleteRows_session hs' hrows) ?_) _
      rw [← hid] at hrows ⊢
      refine List.mem_map_of_mem
        (List.mem_filter.2 ⟨mem_deleteRows_session hs hrows, decide_eq_true ?_⟩)
      exact (hd₄.2.owner s hs hid).trans hc
    · refine wp_deleteEnded hw hends fun w ks d₇ _ hd₇ hw hends =>
        hQ w ks d₇ hd₇ ⟨hw, hends.imp .inr .inr⟩
  · have hne : ∀ {p : Prop} [Decidable p],
        (p ↔ token.credentialsId = credentials.id) → decide p = false := fun h =>
      decide_eq_false fun hp => hc (h.1 hp)
    refine wp_deleteForeign htoken tame_id
      (.inr ⟨fun _ h => h, fun _ _ ht _ => foreign_filter ht (hne .rfl)⟩)
      fun w ks d₂ _ hd₂ hw hk => ?_
    refine wp_deleteForeign htoken hw (hk.imp_right fun hk =>
      ⟨hk, fun d' _ _ howner => ⟨by simp, ?_, by simp⟩⟩)
      fun w ks d₃ _ hd₃ hw hk => ?_
    · intro hmem
      obtain ⟨s, hs, hid⟩ := List.mem_map.1 hmem
      rw [List.mem_filter, decide_eq_true_eq] at hs
      exact hc ((howner s hs.1 (AuthRow.session.inj hid)).symm.trans hs.2)
    refine wp_deleteForeign htoken hw (hk.imp_right fun hk =>
      ⟨hk, fun d' _ _ _ => ⟨by simp, by simp, by simp⟩⟩)
      fun w ks d₄ _ hd₄ hw hk => ?_
    refine wp_deleteForeign htoken hw (hk.imp_right fun hk =>
      ⟨hk, fun d' _ _ _ => ⟨by simp, by simp, ?_⟩⟩)
      fun w ks d₅ _ hd₅ hw hk => hQ w ks d₅ hd₅ ⟨hw, hk.imp_right .inl⟩
    intro hmem
    obtain ⟨c, hc', hid⟩ := List.mem_map.1 hmem
    rw [List.mem_filter, decide_eq_true_eq] at hc'
    exact hc ((AuthRow.credential.inj hid).symm.trans hc'.2)

end Requests

end Boat.Auth
