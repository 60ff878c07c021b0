import Boat.Auth.UseCases
import Boat.ReadCommitted.Alone

/-!
# Auth: logins that run alone

A login that runs alone logs in the credentials that own the identity, or links the identity to
those that own its verified email, or refuses it and leaves the store as it was (`LoginOutcome`). A
link can fail: credentials have one identity of an issuer, so that a second one of the same issuer,
with the same email, is refused by the database, which is all that goes wrong apart from texts that
it does not store (`login_settles_iff`).
-/

namespace Boat.Auth

open ReadCommitted SqlAlchemyCredentialRepository SqlAlchemyExternalIdentityLoginSynchronizer

/-! ## What the database refuses -/

/-- The texts of an identity fit their columns. -/
def ExternalIdentityRecord.fits (r : ExternalIdentityRecord) : Bool :=
  sendable r.issuer && r.issuer.length ≤ 50 && sendable r.subject && r.subject.length ≤ 255 &&
    sendable r.provider && r.provider.length ≤ 50 &&
    r.email.all (fun email => sendable email && email.length ≤ 255) &&
    r.normalizedEmail.all fun email => sendable email && email.length ≤ 255

/-- The statements that the database refuses, as it does not take or store a text in them. -/
def AuthStatement.refused : AuthStatement → Bool
  | .findByExternalIdentity issuer subject => !(sendable issuer && sendable subject)
  | .findByVerifiedEmail email => !sendable email
  | .flushIdentity r => !r.fits
  | _ => false

/-- What the constraints of the tables say: an identity is there once, and has its credentials. -/
structure AuthDatabase.Constrained (d : AuthDatabase) : Prop where
  identity : (d.externalIdentities.rows.map fun r => (r.issuer, r.subject)).Nodup
  credentials : ∀ r ∈ d.externalIdentities.rows, ∃ c ∈ d.userCredentials.rows, c.id = r.credentialsId

/-! ## Owners -/

/-- The credentials that an identity is linked to. -/
def ownerOf (identity : ExternalIdentity) (d : AuthDatabase) : Option UserCredential :=
  credentialsOf d fun r => r.issuer = identity.issuer ∧ r.subject = identity.subject

/-- The credentials that are found for a verified email. -/
def emailOwner (email : String) (d : AuthDatabase) : Option UserCredential :=
  credentialsOf d fun r => r.normalizedEmail = some email ∧ r.emailVerified

theorem of_credentialsOf {d : AuthDatabase} {p : ExternalIdentityRecord → Bool} {c : UserCredential}
    (h : credentialsOf d p = some c) :
    d.userCredentials.find c.id = some c ∧ ∃ r ∈ d.externalIdentities.rows, p r = true ∧
    r.credentialsId = c.id := by
  obtain ⟨r, hr, hfind⟩ := List.exists_of_findSome?_eq_some h
  obtain ⟨hmem, hid⟩ := Table.find_eq_some.1 hfind
  obtain ⟨hrow, hp⟩ := List.mem_filter.1 hr
  exact ⟨by rw [hid, hfind], r, hrow, hp, hid.symm⟩

theorem AuthDatabase.Constrained.of_credentialsOf_none {d : AuthDatabase} (hd : d.Constrained)
    {p : ExternalIdentityRecord → Bool} (h : credentialsOf d p = none) :
    ∀ r ∈ d.externalIdentities.rows, p r = false := by
  intro r hr
  rw [← Bool.not_eq_true]
  intro hp
  obtain ⟨c, hc, hid⟩ := hd.credentials r hr
  have hnone := List.findSome?_eq_none_iff.1 h r (List.mem_filter.2 ⟨hr, hp⟩)
  exact Table.find_eq_none.1 hnone (List.mem_map.2 ⟨c, hc, hid⟩)

/-- The credentials that an identity is linked to, in all. -/
def AuthDatabase.linked (d : AuthDatabase) (identity : ExternalIdentity) : List UUID :=
  (d.externalIdentities.rows.filter fun r => r.issuer = identity.issuer ∧
    r.subject = identity.subject).map (·.credentialsId)

section

variable [CaseFolding]

/-- What a login that runs alone may do. -/
inductive LoginOutcome (identity : ExternalIdentity)
    (d : AuthDatabase) : Outcome AuthDatabase AuthError TokenResult → Prop
  /-- It logs in the credentials that own the identity or, failing that, the email, to which the
      identity is linked. -/
  | loggedIn {result : TokenResult} {view store : AuthDatabase} {c : UserCredential}
    (hc : c ∈ d.userCredentials.rows)
      (hresult : result.accessToken.credentialsId = c.id ∧ result.accessToken.userId = c.userId)
      (howner : d.linked identity = [c.id] ∨ d.linked identity = [] ∧ identity.emailVerified = true ∧
        ∃ r ∈ d.externalIdentities.rows, r.credentialsId = c.id ∧ r.emailVerified = true ∧
          r.normalizedEmail = canonicalEmail identity ∧ r.normalizedEmail ≠ none)
      (hlinked : store.linked identity = [c.id]) : LoginOutcome identity d ⟨.ok result, view, store⟩
  /-- It refuses an identity without a verified email. -/
  | unverified {view : AuthDatabase} (hnew : d.linked identity = [])
      (hemail : identity.email = none ∨ identity.emailVerified = false) :
      LoginOutcome identity d ⟨.error (.domain .authentication), view, d⟩
  /-- It refuses an email that nobody has. -/
  | unregistered {view : AuthDatabase} (hnew : d.linked identity = [])
      (hemail : ∀ r ∈ d.externalIdentities.rows, r.emailVerified = true →
        r.normalizedEmail ≠ canonicalEmail identity) :
      LoginOutcome identity d ⟨.error (.domain .userNotRegistered), view, d⟩

/-- The database takes the identity and, if it is to be linked, the link: the credentials have none
    of its issuer. -/
def Linkable (identity : ExternalIdentity) (d : AuthDatabase) : Prop :=
  sendable identity.issuer = true ∧ sendable identity.subject = true ∧
    (ownerOf identity d = none → identity.emailVerified = true →
      ∀ email, canonicalEmail identity = some email →
      sendable email = true ∧ ∀ c, emailOwner email d = some c →
        (externalIdentityToRecord identity c.id).fits = true ∧
          ∀ r ∈ d.externalIdentities.rows, r.credentialsId = c.id → r.issuer ≠ identity.issuer)

variable [Digests]

/-- The entries of what a login draws, apart from the identity. -/
def LoginIds.entries (ids : LoginIds) : List AuthEntry :=
  [.primaryKey (.session ids.sessionId), .primaryKey (.refreshToken ids.refreshToken.id),
    .tokenHash (hash ids.refreshToken.token)]

/-- What a login draws is new. -/
def LoginIds.Fresh (ids : LoginIds) (identity : ExternalIdentity) (d : AuthDatabase) : Prop :=
  ∀ e ∈ .primaryKey (.identity identity.id) :: ids.entries, d.hasEntry e = false

instance (ids : LoginIds) (identity : ExternalIdentity)
    (d : AuthDatabase) : Decidable (ids.Fresh identity d) :=
  inferInstanceAs (Decidable (∀ e ∈ _ :: _, _))

end

/-! ## Statements -/

section

variable {α : Type} {s : AuthStatement} {v d : AuthDatabase}

theorem alone_select {f : AuthDatabase → α} (hs : s.refused = false) :
    (AuthTx.select s f).alone AuthStatement.refused v d = ⟨.ok (f v), v, d⟩ := Prog.alone_query hs

theorem alone_refused {c : Command AuthDatabase AuthError α} (hs : s.refused = true) :
    (AuthTx.exec s c).alone AuthStatement.refused v d = ⟨.error (.fault s), d, d⟩ :=
  Prog.alone_exec_refused hs

theorem alone_insert {entries : List AuthEntry} {w : AuthDatabase → AuthDatabase}
    {hw : Touches (entries.map .entry) w} (hs : s.refused = false)
    (hentries : ∀ e ∈ entries, v.hasEntry e = false) :
    (AuthTx.insert s entries w hw).alone AuthStatement.refused v d = ⟨.ok (), w v, d⟩ := by
  have hfind : entries.find? (v.hasEntry ·) = none :=
    List.find?_eq_none.2 fun e he => by simp [hentries e he]
  rw [AuthTx.insert, AuthTx.exec, Prog.alone_exec hs]
  simp only [Command.insert, hfind]

/-- An insert is refused when there is a row with one of the entries. -/
theorem alone_insert_clash {entries : List AuthEntry} {w : AuthDatabase → AuthDatabase}
    {hw : Touches (entries.map .entry) w} (hs : s.refused = false) {e : AuthEntry}
    (he : e ∈ entries) (hclash : v.hasEntry e = true) :
    ∃ e, (AuthTx.insert s entries w hw).alone AuthStatement.refused v d =
      ⟨.error (.integrity e), d, d⟩ := by
  obtain ⟨e', he'⟩ := Option.isSome_iff_exists.1 (List.find?_isSome.2 ⟨e, he, hclash⟩)
  refine ⟨e', ?_⟩
  rw [AuthTx.insert, AuthTx.exec, Prog.alone_exec hs]
  simp only [Command.insert, he']

theorem hasEntry_identity {issuer subject : String} : d.hasEntry (.identity issuer subject) = false ↔
    ∀ r ∈ d.externalIdentities.rows, ¬(r.issuer = issuer ∧ r.subject = subject) := by
  constructor
  · rintro h r hr ⟨rfl, rfl⟩
    exact (AuthDatabase.hasEntry_eq_false.1 h).2.1 r hr (by simp [ExternalIdentityRecord.entries])
  · intro h
    refine AuthDatabase.hasEntry_eq_false.2 ⟨by simp [UserCredential.entries], fun r hr hmem => ?_,
      by simp [AuthSession.entries], by simp [RefreshToken.entries]⟩
    simp only [ExternalIdentityRecord.entries, List.mem_cons, reduceCtorEq,
      AuthEntry.identity.injEq, List.not_mem_nil, or_false, false_or] at hmem
    exact h r hr ⟨hmem.1.symm, hmem.2.symm⟩

theorem hasEntry_credentialIssuer {credentialsId : UUID} {issuer : String} :
    d.hasEntry (.credentialIssuer credentialsId issuer) = false ↔
      ∀ r ∈ d.externalIdentities.rows, r.credentialsId = credentialsId → r.issuer ≠ issuer := by
  constructor
  · rintro h r hr rfl rfl
    exact (AuthDatabase.hasEntry_eq_false.1 h).2.1 r hr (by simp [ExternalIdentityRecord.entries])
  · intro h
    refine AuthDatabase.hasEntry_eq_false.2 ⟨by simp [UserCredential.entries], fun r hr hmem => ?_,
      by simp [AuthSession.entries], by simp [RefreshToken.entries]⟩
    simp only [ExternalIdentityRecord.entries, List.mem_cons, reduceCtorEq,
      AuthEntry.credentialIssuer.injEq, List.not_mem_nil, or_false, false_or] at hmem
    exact h r hr hmem.1.symm hmem.2.symm

/-- A write leaves an entry free that it does not touch. -/
theorem hasEntry_of_touches {ks : List AuthLock} {w : AuthDatabase → AuthDatabase}
    (hw : Touches ks w) {e : AuthEntry} (he : .entry e ∉ ks)
    (h : d.hasEntry e = false) : (w d).hasEntry e = false := hw _ he d _ (.entry e) h

end

/-! ## Logins -/

section

variable [CaseFolding] [Digests] {identity : ExternalIdentity} {ids : LoginIds} {v d : AuthDatabase}

theorem synchronize_alone : (synchronize identity).alone AuthStatement.refused v d =
    ⟨.ok (), v, d⟩ := by
  have hlock (lockId : ℤ) : (advisoryLock lockId).alone AuthStatement.refused v d =
      ⟨.ok (), v, d⟩ := Prog.alone_query rfl
  rw [synchronize, Prog.bind_eq, Prog.alone_bind_ok (hlock _)]
  cases canonicalEmail identity with
  | none => rfl
  | some email => exact hlock _

omit [CaseFolding] [Digests] in
theorem recordLogin_alone {c : UserCredential} (hc : v.userCredentials.find c.id = some c) :
    (recordLogin c.id).alone AuthStatement.refused v d = ⟨.ok c, v, d⟩ := by
  rw [recordLogin, Prog.bind_eq, getCredential, Prog.alone_bind_ok (alone_select rfl), hc]
  rfl

omit [CaseFolding] [Digests] in
theorem flushLogin_alone {c : UserCredential} (hc : v.userCredentials.find c.id = some c)
    (loggedInAt : Instant) :
    ∃ w, (flushLogin c loggedInAt).alone AuthStatement.refused v d = ⟨.ok (), w v, d⟩ ∧
      Touches [.row (.credential c.id)] w ∧ (w v).externalIdentities = v.externalIdentities := by
  rw [flushLogin]
  split
  · exact ⟨id, rfl, fun _ _ _ _ _ h => h, rfl⟩
  · refine ⟨AuthDatabase.updateCredential c.id loggedInAt, ?_,
      AuthDatabase.touches_updateCredential _ _, rfl⟩
    rw [AuthTx.exec, Prog.alone_exec rfl]
    simp only [Command.update, hc]

/-- Once the credentials are found, a login commits a session of theirs. -/
theorem execute_alone_of_credentials {c : UserCredential} {v' : AuthDatabase}
    (hlogin : (loginCredentials identity).alone AuthStatement.refused v d = ⟨.ok c, v', d⟩)
    (hc : v'.userCredentials.find c.id = some c) (hfresh : ∀ e ∈ ids.entries, v'.hasEntry e = false) :
    ∃ store, (LoginCommandUseCase.execute identity ids).alone AuthStatement.refused v d =
        ⟨.ok ⟨⟨c.userId, c.id, ids.sessionId, c.role⟩, ids.refreshToken.token⟩, store, store⟩ ∧
      store.externalIdentities = v'.externalIdentities := by
  obtain ⟨w, hw, htouches, hidentities⟩ := flushLogin_alone (d := d) hc ids.loggedInAt
  simp only [LoginIds.entries, List.forall_mem_cons, List.not_mem_nil] at hfresh
  obtain ⟨hsession, htoken, hhash, -⟩ := hfresh
  -- The entries of the session and the token are free when these are inserted.
  have hafter {e : AuthEntry} (he : v'.hasEntry e = false) : (w v').hasEntry e = false :=
    hasEntry_of_touches htouches (by simp) he
  have hsessions : ∀ e ∈ (⟨ids.sessionId, c.id, none⟩ : AuthSession).entries,
      (w v').hasEntry e = false := by
    simp only [AuthSession.entries, List.forall_mem_cons]
    exact ⟨hafter hsession, nofun⟩
  have hthen {e : AuthEntry} (hne : e ≠ .primaryKey (.session ids.sessionId))
      (he : v'.hasEntry e = false) :
        ((w v').insertSession ⟨ids.sessionId, c.id, none⟩).hasEntry e = false :=
    hasEntry_of_touches (AuthDatabase.touches_insertSession _)
      (by simpa [AuthSession.entries] using hne) (hafter he)
  have htokens : ∀ e ∈ (ids.refreshToken.row c.id ids.sessionId).entries,
      (AuthDatabase.insertSession ⟨ids.sessionId, c.id, none⟩ (w v')).hasEntry e = false := by
    simp only [RefreshToken.entries, List.forall_mem_cons]
    exact ⟨hthen (by simp) htoken, hthen (by simp) hhash, nofun⟩
  refine ⟨.insertRefreshToken none (ids.refreshToken.row c.id ids.sessionId)
    (.insertSession ⟨ids.sessionId, c.id, none⟩
    (w v')), ?_, hidentities⟩
  rw [LoginCommandUseCase.execute, Prog.bind_eq, Prog.alone_bind_ok synchronize_alone, Prog.bind_eq,
    Prog.alone_bind_ok hlogin, Prog.bind_eq, Prog.alone_bind_ok hw, Prog.bind_eq, flushSession,
    Prog.alone_bind_ok (alone_insert rfl hsessions), Prog.bind_eq, flushRefreshToken,
    Prog.alone_bind_ok (alone_insert rfl htokens)]
  rfl

/-- A login raises what is raised while its credentials are found. -/
theorem execute_alone_of_error {e : AuthError} {v' d' : AuthDatabase}
    (hlogin : (loginCredentials identity).alone AuthStatement.refused v d = ⟨.error e, v', d'⟩) :
    (LoginCommandUseCase.execute identity ids).alone AuthStatement.refused v d =
      ⟨.error e, v', d'⟩ := by
  rw [LoginCommandUseCase.execute, Prog.bind_eq, Prog.alone_bind_ok synchronize_alone, Prog.bind_eq,
    Prog.alone_bind_error hlogin]

omit [Digests] in
/-- The credentials are those that own the identity. -/
theorem loginCredentials_alone_of_owner {c : UserCredential} (howner : ownerOf identity v = some c)
    (hs : (AuthStatement.findByExternalIdentity identity.issuer identity.subject).refused = false) :
    (loginCredentials identity).alone AuthStatement.refused v d = ⟨.ok c, v, d⟩ := by
  rw [loginCredentials, Prog.bind_eq, findByExternalIdentity, Prog.alone_bind_ok (alone_select hs)]
  rw [ownerOf] at howner
  simp only [howner]
  exact recordLogin_alone (of_credentialsOf howner).1

omit [Digests] in
/-- An identity that nobody owns is refused without a verified email. -/
theorem loginCredentials_alone_unverified (howner : ownerOf identity v = none)
    (hs : (AuthStatement.findByExternalIdentity identity.issuer identity.subject).refused = false)
    (hemail : canonicalEmail identity = none ∨ identity.emailVerified = false) :
    (loginCredentials identity).alone AuthStatement.refused v d =
      ⟨.error (.domain .authentication), v, d⟩ := by
  rw [loginCredentials, Prog.bind_eq, findByExternalIdentity, Prog.alone_bind_ok (alone_select hs)]
  rw [ownerOf] at howner
  rcases hemail with hemail | hemail
  · simp only [howner, hemail]
    rfl
  · simp only [howner, hemail]
    cases canonicalEmail identity with
    | none => rfl
    | some email => rfl

omit [Digests] in
/-- The credentials of an identity that nobody owns are looked for by its verified email. -/
theorem loginCredentials_alone_verified (howner : ownerOf identity v = none)
    (hs : (AuthStatement.findByExternalIdentity identity.issuer identity.subject).refused = false)
    {email : String} (hemail : canonicalEmail identity = some email)
    (hverified : identity.emailVerified = true) :
    (loginCredentials identity).alone AuthStatement.refused v d =
      ((findByVerifiedEmail email).bind fun
        | some c => (flushIdentity (externalIdentityToRecord identity c.id)).bind fun _ =>
          recordLogin c.id
        | none => AuthTx.raise .userNotRegistered).alone AuthStatement.refused v d := by
  rw [loginCredentials, Prog.bind_eq, findByExternalIdentity, Prog.alone_bind_ok (alone_select hs)]
  rw [ownerOf] at howner
  simp only [howner, hemail, hverified]
  rfl

omit [CaseFolding] [Digests] in
/-- Nobody owns an identity that is not there. -/
theorem linked_eq_nil
    (h : ∀ r ∈ d.externalIdentities.rows,
      ¬(r.issuer = identity.issuer ∧ r.subject = identity.subject)) :
    d.linked identity = [] := by
  rw [AuthDatabase.linked, List.filter_eq_nil_iff.2 fun r hr => by simpa using h r hr, List.map_nil]

omit [Digests] in
/-- The link of a new identity is the only one. -/
theorem linked_insertIdentity {credentialsId : UUID}
    (hfresh : d.hasEntry (.primaryKey (.identity identity.id)) = false)
    (hfree : ∀ r ∈ d.externalIdentities.rows,
      ¬(r.issuer = identity.issuer ∧ r.subject = identity.subject)) :
    (AuthDatabase.insertIdentity (externalIdentityToRecord identity credentialsId) d).linked
      identity = [credentialsId] := by
  have hid : (externalIdentityToRecord identity credentialsId).id ∉ d.externalIdentities.rows.map
      (·.id) := by
    intro hmem
    obtain ⟨r, hr, hid⟩ := List.mem_map.1 hmem
    exact (AuthDatabase.hasEntry_eq_false.1 hfresh).2.1 r hr
      (by simp [ExternalIdentityRecord.entries, hid,
      externalIdentityToRecord])
  have hrows :
      (AuthDatabase.insertIdentity
        (externalIdentityToRecord identity credentialsId) d).externalIdentities.rows =
        d.externalIdentities.rows ++ [externalIdentityToRecord identity credentialsId] := by
    rw [AuthDatabase.insertIdentity, Table.insert, dif_neg hid]
  have hnil := linked_eq_nil hfree
  rw [AuthDatabase.linked] at hnil
  rw [AuthDatabase.linked, hrows, List.filter_append, List.map_append, hnil]
  simp [externalIdentityToRecord]

omit [CaseFolding] [Digests] in
/-- An identity is linked to one credential. -/
theorem AuthDatabase.Constrained.linked_eq (hd : d.Constrained) {r : ExternalIdentityRecord}
    (hr : r ∈ d.externalIdentities.rows)
    (hidentity : r.issuer = identity.issuer ∧ r.subject = identity.subject) :
    d.linked identity = [r.credentialsId] := by
  have hnodup := hd.identity
  rw [AuthDatabase.linked]
  generalize d.externalIdentities.rows = rows at hr hnodup
  induction rows with
  | nil => simp at hr
  | cons q rows ih =>
    obtain ⟨hq, hrows⟩ := List.nodup_cons.1 hnodup
    rcases List.mem_cons.1 hr with rfl | hr
    · have hrest :
        rows.filter (fun r => r.issuer = identity.issuer ∧ r.subject = identity.subject) = [] := by
        refine List.filter_eq_nil_iff.2 fun p hp => ?_
        rw [decide_eq_true_eq]
        rintro ⟨hissuer, hsubject⟩
        refine hq (List.mem_map.2 ⟨p, hp, ?_⟩)
        show (p.issuer, p.subject) = (r.issuer, r.subject)
        rw [hissuer, hsubject, hidentity.1, hidentity.2]
      rw [List.filter_cons_of_pos (by simpa using hidentity), hrest]
      rfl
    · have hne : ¬(q.issuer = identity.issuer ∧ q.subject = identity.subject) := by
        rintro ⟨hissuer, hsubject⟩
        refine hq (List.mem_map.2 ⟨r, hr, ?_⟩)
        show (r.issuer, r.subject) = (q.issuer, q.subject)
        rw [hissuer, hsubject, hidentity.1, hidentity.2]
      rw [List.filter_cons_of_neg (by simpa using hne)]
      exact ih hr hrows

/-- A statement that is refused is not one of the outcomes. -/
theorem not_loginOutcome_of_refused {l : AuthStatement}
    (hlogin : (loginCredentials identity).alone AuthStatement.refused d d =
      ⟨.error (.fault l), d, d⟩) :
    ¬LoginOutcome identity d
      ((LoginCommandUseCase.execute identity ids).alone AuthStatement.refused d d) := by
  rw [execute_alone_of_error hlogin]
  exact nofun

/-- Credentials that own the identity are logged in. -/
theorem loginOutcome_of_owner (hd : d.Constrained) (hfresh : ∀ e ∈ ids.entries, d.hasEntry e = false)
    (hs : (AuthStatement.findByExternalIdentity identity.issuer identity.subject).refused = false)
    {c : UserCredential} (howner : ownerOf identity d = some c) :
    LoginOutcome identity d
      ((LoginCommandUseCase.execute identity ids).alone AuthStatement.refused d d) := by
  obtain ⟨hfind, r, hr, hmatch, hid⟩ := of_credentialsOf howner
  have hlinked : d.linked identity = [c.id] := hid ▸ hd.linked_eq hr (by simpa using hmatch)
  obtain ⟨store, hout, hsame⟩ :=
    execute_alone_of_credentials (loginCredentials_alone_of_owner (d := d) howner hs) hfind hfresh
  rw [hout]
  refine .loggedIn (Table.find_eq_some.1 hfind).1 ⟨rfl, rfl⟩ (.inl hlinked) ?_
  rw [AuthDatabase.linked, hsame]
  exact hlinked

/-- The identity is linked to credentials with its email, unless the database refuses the link. -/
theorem loginOutcome_link_iff (hfresh : ids.Fresh identity d)
    (hfree : ∀ r ∈ d.externalIdentities.rows,
      ¬(r.issuer = identity.issuer ∧ r.subject = identity.subject))
    (hverified : identity.emailVerified = true) {email : String}
    (hemail : canonicalEmail identity = some email) {c : UserCredential}
    (hfound : emailOwner email d = some c)
    (hlogin : (loginCredentials identity).alone AuthStatement.refused d d =
      ((flushIdentity (externalIdentityToRecord identity c.id)).bind fun _ => recordLogin c.id).alone
        AuthStatement.refused d d) :
    LoginOutcome identity d
      ((LoginCommandUseCase.execute identity ids).alone AuthStatement.refused d d) ↔
      (externalIdentityToRecord identity c.id).fits = true ∧
        ∀ r ∈ d.externalIdentities.rows, r.credentialsId = c.id → r.issuer ≠ identity.issuer := by
  obtain ⟨hfreshIdentity, hfreshIds⟩ := List.forall_mem_cons.1 hfresh
  obtain ⟨hfind, r, hr, hmatch, hid⟩ := of_credentialsOf hfound
  by_cases hfits : (externalIdentityToRecord identity c.id).fits = true
  swap
  · have hrefused :
        (AuthStatement.flushIdentity (externalIdentityToRecord identity c.id)).refused = true := by
      simpa [AuthStatement.refused] using hfits
    exact iff_of_false
      (not_loginOutcome_of_refused (hlogin.trans (Prog.alone_bind_error (alone_refused hrefused))))
      fun h => hfits h.1
  have hs : (AuthStatement.flushIdentity (externalIdentityToRecord identity c.id)).refused =
      false := by
    simp [AuthStatement.refused, hfits]
  by_cases hclash : d.hasEntry (.credentialIssuer c.id identity.issuer) = false
  swap
  · have hentry : .credentialIssuer c.id identity.issuer ∈
        (externalIdentityToRecord identity c.id).entries := by
      simp [ExternalIdentityRecord.entries, externalIdentityToRecord]
    obtain ⟨e, hinsert⟩ : ∃ e,
        (flushIdentity (externalIdentityToRecord identity c.id)).alone AuthStatement.refused d d =
        ⟨.error (.integrity e), d, d⟩ := alone_insert_clash hs hentry (by simpa using hclash)
    rw [execute_alone_of_error (hlogin.trans (Prog.alone_bind_error hinsert))]
    exact iff_of_false nofun fun h => hclash (hasEntry_credentialIssuer.2 h.2)
  -- The link is inserted, and the identity is linked to these credentials only.
  have hentries : ∀ e ∈ (externalIdentityToRecord identity c.id).entries, d.hasEntry e = false := by
    simp only [ExternalIdentityRecord.entries, List.forall_mem_cons]
    exact ⟨hfreshIdentity, hasEntry_identity.2 hfree, hclash, nofun⟩
  have hother : ∀ e ∈ ids.entries,
      AuthLock.entry e ∉ (externalIdentityToRecord identity c.id).entries.map .entry := by
    simp [LoginIds.entries, ExternalIdentityRecord.entries]
  have hcredentials :=
    hlogin.trans ((Prog.alone_bind_ok (alone_insert hs hentries)).trans (recordLogin_alone hfind))
  obtain ⟨store, hout, hsame⟩ := execute_alone_of_credentials hcredentials hfind fun e he =>
    hasEntry_of_touches (AuthDatabase.touches_insertIdentity _) (hother e he) (hfreshIds e he)
  rw [hout]
  refine iff_of_true (.loggedIn (Table.find_eq_some.1 hfind).1 ⟨rfl, rfl⟩
    (.inr ⟨linked_eq_nil hfree, hverified, r, hr, hid, ?_⟩) ?_) ⟨hfits,
      hasEntry_credentialIssuer.1 hclash⟩
  · obtain ⟨hremail, hrverified⟩ := of_decide_eq_true hmatch
    exact ⟨hrverified, hremail.trans hemail.symm, by simp [hremail]⟩
  · rw [AuthDatabase.linked, hsame]
    exact linked_insertIdentity hfreshIdentity hfree

/-- An identity that nobody owns is linked by its verified email. -/
theorem loginOutcome_verified_iff (hd : d.Constrained) (hfresh : ids.Fresh identity d)
    (hs : (AuthStatement.findByExternalIdentity identity.issuer identity.subject).refused = false)
    (howner : ownerOf identity d = none) (hverified : identity.emailVerified = true) {email : String}
    (hemail : canonicalEmail identity = some email) :
    LoginOutcome identity d
      ((LoginCommandUseCase.execute identity ids).alone AuthStatement.refused d d) ↔
      sendable email = true ∧ ∀ c, emailOwner email d = some c →
        (externalIdentityToRecord identity c.id).fits = true ∧
          ∀ r ∈ d.externalIdentities.rows, r.credentialsId = c.id → r.issuer ≠ identity.issuer := by
  have hfree : ∀ r ∈ d.externalIdentities.rows,
      ¬(r.issuer = identity.issuer ∧ r.subject = identity.subject) := by
    simpa using hd.of_credentialsOf_none howner
  have hlogin := loginCredentials_alone_verified (d := d) howner hs hemail hverified
  by_cases hsend : sendable email = true
  swap
  · have hrefused : (AuthStatement.findByVerifiedEmail email).refused = true := by
      simpa [AuthStatement.refused] using hsend
    exact iff_of_false
      (not_loginOutcome_of_refused (hlogin.trans (Prog.alone_bind_error (alone_refused hrefused))))
      fun h => hsend h.1
  rw [findByVerifiedEmail,
    Prog.alone_bind_ok (alone_select (by simp [AuthStatement.refused, hsend]))] at hlogin
  rcases hfound : emailOwner email d with - | c
  · -- Nobody has the email.
    rw [emailOwner] at hfound
    simp only [hfound] at hlogin
    rw [execute_alone_of_error hlogin]
    refine iff_of_true (.unregistered (linked_eq_nil hfree) fun r hr hrverified hremail => ?_)
      ⟨hsend, nofun⟩
    have hnone := hd.of_credentialsOf_none hfound r hr
    simp [hremail, hemail, hrverified] at hnone
  · have hc := hfound
    rw [emailOwner] at hc
    simp only [hc] at hlogin
    rw [loginOutcome_link_iff hfresh hfree hverified hemail hfound hlogin]
    simp [hsend]

/-- A login that runs alone is as it should be if and only if the database takes the identity and
    its link. -/
theorem login_settles_iff (hd : d.Constrained) (hfresh : ids.Fresh identity d) :
    LoginOutcome identity d
      ((LoginCommandUseCase.execute identity ids).alone AuthStatement.refused d d) ↔
      Linkable identity d := by
  by_cases hs :
    (AuthStatement.findByExternalIdentity identity.issuer identity.subject).refused = false
  swap
  · refine iff_of_false
      (not_loginOutcome_of_refused (Prog.alone_bind_error (alone_refused (by simpa using hs))))
        fun h => ?_
    simp [AuthStatement.refused, h.1, h.2.1] at hs
  have hsendable : sendable identity.issuer = true ∧ sendable identity.subject = true := by
    simpa [AuthStatement.refused] using hs
  rcases howner : ownerOf identity d with - | c
  · by_cases hemail : canonicalEmail identity = none ∨ identity.emailVerified = false
    · rw [execute_alone_of_error (loginCredentials_alone_unverified howner hs hemail)]
      have hnil := linked_eq_nil (by simpa using hd.of_credentialsOf_none howner)
      refine iff_of_true
        (.unverified hnil (hemail.imp_left fun h => by simpa [canonicalEmail] using h))
        ⟨hsendable.1, hsendable.2, fun _ hverified email hsome => ?_⟩
      simp [hsome, hverified] at hemail
    · obtain ⟨hsome, hverified⟩ := not_or.1 hemail
      obtain ⟨email, hemail⟩ := Option.ne_none_iff_exists'.1 hsome
      rw [loginOutcome_verified_iff hd hfresh hs howner (by simpa using hverified) hemail]
      simp [Linkable, hsendable, howner, hemail, hverified]
  · refine iff_of_true (loginOutcome_of_owner hd (List.forall_mem_cons.1 hfresh).2 hs howner)
      ⟨hsendable.1, hsendable.2,
      fun h => ?_⟩
    rw [howner] at h
    cases h

end

/-! ## A second identity of an issuer -/

/-- Case folding of texts in lower case. -/
@[reducible] def lowerCase : CaseFolding := ⟨id, id⟩

/-- An identity of the user with a verified email. -/
def googleIdentity (id : ℕ) (subject : String) : ExternalIdentity :=
  ⟨.ofNat id, "google", subject, "google", some "user@example.com", true, none⟩

/-- What a login of the user draws. -/
def loginIds : LoginIds := ⟨.ofNat 5, ⟨.ofNat 6, "token", 9⟩, 0⟩

/-- The store after the user has signed up with a first identity. -/
def registered [CaseFolding] : AuthDatabase :=
  .insertIdentity (externalIdentityToRecord (googleIdentity 2 "first") (.ofNat 1))
    (.insertCredential ⟨.ofNat 1, .ofNat 3, "user", none⟩ .empty)

theorem registered_constrained : letI := lowerCase; registered.Constrained := by
  let _ := lowerCase
  exact ⟨by decide, by decide⟩

/-- The first identity logs in. -/
theorem login_settles_registered : letI := lowerCase; letI : Digests := ⟨id, fun _ => 0⟩
    LoginOutcome (googleIdentity 4 "first") registered
      ((LoginCommandUseCase.execute (googleIdentity 4 "first")
      loginIds).alone AuthStatement.refused registered registered) := by
  let _ := lowerCase
  let _ : Digests := ⟨id, fun _ => 0⟩
  exact (login_settles_iff registered_constrained (by decide)).2 ⟨by decide, by decide, by decide⟩

/-- A second one with the same email does not: the database refuses its link. -/
theorem login_clashes : letI := lowerCase; letI : Digests := ⟨id, fun _ => 0⟩
    registered.Constrained ∧ loginIds.Fresh (googleIdentity 4 "second") registered ∧
      ¬LoginOutcome (googleIdentity 4 "second") registered
        ((LoginCommandUseCase.execute (googleIdentity 4 "second")
        loginIds).alone AuthStatement.refused registered registered) := by
  let _ := lowerCase
  let _ : Digests := ⟨id, fun _ => 0⟩
  have hfresh : loginIds.Fresh (googleIdentity 4 "second") registered := by decide
  have hemail : canonicalEmail (googleIdentity 4 "second") = some "user@example.com" := rfl
  refine ⟨registered_constrained, hfresh, fun h => ?_⟩
  rw [loginOutcome_verified_iff registered_constrained hfresh rfl rfl rfl hemail] at h
  exact (h.2 ⟨.ofNat 1, .ofNat 3, "user", none⟩ rfl).2 _ (List.mem_singleton_self _) rfl rfl

end Boat.Auth
