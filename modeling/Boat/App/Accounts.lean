import Boat.App.SignupSpec

/-!
# Accounts

What accounts there are, in runs of any signups and logins.

* `accounts`: their protocol. Accounts and identities are kept, and identities with a verified email
  are added under the lock of the email (`Enrols`). A login links its identity to the account that
  its verified email has (`Links`), a signup adds an account.
* `one_account_per_identity`: the unique index on identities makes it one account for each of them.
* `one_account_per_email`: it is one account for each verified email too, while signups take the
  lock of their email before there is an account of it (`Looked`). They look for one before that,
  and not again: `signups_share_email`.
-/

namespace Boat.App

open ReadCommitted Auth Users Notifications SqlAlchemyCredentialRepository
  SqlAlchemyExternalIdentityLoginSynchronizer
  SignupCommandUseCase

/-! ## Requests -/

/-- A request of someone with an identity, which has been verified. -/
inductive AccountRequest
  | signup (identity : ExternalIdentity) (command : SignupCommand) (ids : SignupIds)
  | login (identity : ExternalIdentity) (ids : LoginIds)

namespace AccountRequest

def identity : AccountRequest → ExternalIdentity
  | signup identity _ _ => identity
  | login identity _ => identity

/-- The ids of a new account. -/
def signupIds : AccountRequest → Option SignupIds
  | signup _ _ ids => some ids
  | login _ _ => none

def prog [CaseFolding] [Digests] [BeneficiaryDigest] : AccountRequest → AppTx TokenResult
  | signup identity command ids => SignupCommandUseCase.execute identity command ids
  | login identity ids => AppTx.auth (LoginCommandUseCase.execute identity ids)

end AccountRequest

/-! ## Accounts -/

/-- A verified email belongs to one account. -/
def OneAccount (d : AuthDatabase) : Prop :=
  ∀ q ∈ d.externalIdentities.rows, ∀ q' ∈ d.externalIdentities.rows, q.emailVerified = true →
    q'.emailVerified = true →
    ∀ email, q.normalizedEmail = some email → q'.normalizedEmail = some email →
      q.credentialsId = q'.credentialsId

/-- The identity is linked to the account. -/
def Linked (identity : ExternalIdentity) (credentialsId : UUID) (d : AuthDatabase) : Prop :=
  ∃ q ∈ d.externalIdentities.rows, q.issuer = identity.issuer ∧ q.subject = identity.subject ∧
    q.credentialsId = credentialsId

/-- What the commits of signups and logins do to accounts: they are kept, and verified emails are
    added under their locks. -/
structure Enrols [Digests] (ms : List AppLock) (d d' : AuthDatabase) : Prop where
  credentials : ∀ c ∈ d.userCredentials.rows, ∃ c' ∈ d'.userCredentials.rows, c'.id = c.id
  identities : d.externalIdentities.rows ⊆ d'.externalIdentities.rows
  locked : ∀ q ∈ d'.externalIdentities.rows, q ∉ d.externalIdentities.rows → q.emailVerified = true →
    ∀ email ∈ q.normalizedEmail, .auth (.advisory (emailLockId email)) ∈ ms

/-- A write that leaves accounts alone. -/
def Inert (u : AuthDatabase → AuthDatabase) : Prop :=
  ∀ d, (u d).externalIdentities = d.externalIdentities ∧
    ∀ c ∈ d.userCredentials.rows, ∃ c' ∈ (u d).userCredentials.rows, c'.id = c.id

theorem inert_id : Inert id := fun _ => ⟨rfl, fun c hc => ⟨c, hc, rfl⟩⟩

theorem Inert.comp {u w : AuthDatabase → AuthDatabase} (hu : Inert u)
    (hw : Inert w) : Inert (u ∘ w) := by
  intro d
  refine ⟨((hu (w d)).1).trans (hw d).1, fun c hc => ?_⟩
  obtain ⟨c₁, hc₁, hid₁⟩ := (hw d).2 c hc
  obtain ⟨c₂, hc₂, hid₂⟩ := (hu (w d)).2 c₁ hc₁
  exact ⟨c₂, hc₂, hid₂.trans hid₁⟩

theorem inert_updateCredential (id : UUID) (loggedInAt : Instant) :
    Inert (AuthDatabase.updateCredential id loggedInAt) := by
  refine fun d => ⟨rfl, fun c hc => ?_⟩
  by_cases hid : c.id = id
  · exact ⟨_, AuthDatabase.mem_updateCredential.2 (.inr ⟨c, hc, hid, rfl⟩), rfl⟩
  · exact ⟨c, AuthDatabase.mem_updateCredential.2 (.inl ⟨hc, hid⟩), rfl⟩

/-- The last statements of a login leave accounts alone. -/
theorem within_flushLogin (seen : UserCredential)
    (loggedInAt : Instant) : (flushLogin seen loggedInAt).Within Inert := by
  rw [flushLogin]
  split
  · exact .ret ()
  · exact Prog.within_update inert_id fun r => inert_updateCredential r.id loggedInAt

theorem within_flushSession (r : AuthSession) : (flushSession r).Within Inert :=
  Prog.within_insert inert_id fun _ => ⟨rfl, fun c hc => ⟨c, hc, rfl⟩⟩

theorem within_flushRefreshToken (replaced : Option String)
    (r : RefreshToken) : (flushRefreshToken replaced r).Within Inert :=
  Prog.within_insert inert_id fun _ => ⟨rfl, fun c hc => ⟨c, hc, rfl⟩⟩

theorem Inert.constrained {u : AuthDatabase → AuthDatabase} (hu : Inert u) {d : AuthDatabase}
    (hd : d.Constrained) :
    (u d).Constrained where
  identity := (hu d).1 ▸ hd.identity
  credentials := by
    rw [(hu d).1]
    intro q hq
    obtain ⟨c, hc, hid⟩ := hd.credentials q hq
    obtain ⟨c', hc', hid'⟩ := (hu d).2 c hc
    exact ⟨c', hc', hid'.trans hid⟩

section

variable {ι : Type} [CaseFolding] [Digests]

/-- When a signup takes the lock of its verified email, there is no account of the email. -/
def Looked (request : ι → AccountRequest) : Condition ι AppDatabase AppLock AppStatement :=
  fun i l s _ =>
  (request i).signupIds ≠ none → (request i).identity.emailVerified = true →
    ∀ email ∈ canonicalEmail (request i).identity, l = .auth (.advisoryLock (emailLockId email)) →
      emailOwner email s.auth = none

instance (request : ι → AccountRequest) (i : ι) (l : AppStatement) (s : AppDatabase)
    (ms : List AppLock) :
    Decidable (Looked request i l s ms) :=
  inferInstanceAs
    (Decidable ((request i).signupIds ≠ none → (request i).identity.emailVerified = true →
    ∀ email ∈ canonicalEmail (request i).identity, l = .auth (.advisoryLock (emailLockId email)) →
      emailOwner email s.auth = none))

/-- The protocol of signups and logins, which look for accounts under the locks of their emails if
    that is `checked`. -/
def accounts (request : ι → AccountRequest) (checked : Prop) :
    Protocol ι AppDatabase AppLock AppStatement where
  inv s := s.auth.Constrained ∧ (checked → OneAccount s.auth)
  guar i ms s s' := Enrols ms s.auth s'.auth ∧ ∀ j, j ≠ i → ∀ ids ∈ (request j).signupIds,
    ids.New s → ids.New s'
  cond i l s ms := checked → Looked request i l s ms

variable {request : ι → AccountRequest} {checked : Prop} {i : ι} {ms : List AppLock}
  {s s' : AppDatabase}
  {identity : ExternalIdentity} {E : Post AppDatabase AppLock AppError}

/-- Identities stay linked. -/
theorem interf_identities (hi : (accounts request checked).Interf i ms s s') :
    s.auth.externalIdentities.rows ⊆ s'.auth.externalIdentities.rows := by
  intro q hq
  refine hi.keeps (p := fun s => q ∈ s.auth.externalIdentities.rows) (fun d d' h hq => ?_) hq
  obtain ⟨_, _, _, _, _, _, hguar, _⟩ := h
  exact hguar.1.identities hq

theorem Linked.interf {credentialsId : UUID} (h : Linked identity credentialsId s.auth)
    (hi : (accounts request checked).Interf i ms s s') : Linked identity credentialsId s'.auth := by
  obtain ⟨q, hq, hmatch⟩ := h
  exact ⟨q, interf_identities hi hq, hmatch⟩

/-- The ids of a signup stay new. -/
theorem interf_new {ids : SignupIds} (hids : ids ∈ (request i).signupIds)
    (hi : (accounts request checked).Interf i ms s s') (h : ids.New s) : ids.New s' := by
  refine hi.keeps (p := ids.New) (fun d d' h hnew => ?_) h
  obtain ⟨j, _, hj, _, _, _, hguar, _⟩ := h
  exact hguar.2 i hj.symm ids hids hnew

/-- A verified email that has no account when its lock is taken has none while it is held. -/
theorem interf_email {email : String}
    (hnone : ∀ q ∈ s.auth.externalIdentities.rows, q.emailVerified = true →
    q.normalizedEmail ≠ some email)
      (hi : (accounts request checked).Interf i [.auth (.advisory (emailLockId email))] s s') :
    ∀ q ∈ s'.auth.externalIdentities.rows, q.emailVerified = true →
    q.normalizedEmail ≠ some email := by
  refine hi.keeps (p := fun s => ∀ q ∈ s.auth.externalIdentities.rows, q.emailVerified = true →
    q.normalizedEmail ≠ some email)
    (fun d d' h hnone q hq hverified hemail => ?_) hnone
  obtain ⟨_, _, _, hdisjoint, _, _, hguar, _⟩ := h
  by_cases hold : q ∈ d.auth.externalIdentities.rows
  · exact hnone q hold hverified hemail
  · exact hdisjoint List.mem_cons_self (hguar.1.locked q hq hold hverified email hemail)

/-! ## Logins -/

/-- What a login has written to the identities: nothing, or a link to the account of its verified
    email. -/
inductive Links (identity : ExternalIdentity) (credentialsId : UUID) (ms : List AppLock)
    (s : AppDatabase) :
    (AuthDatabase → AuthDatabase) → Prop
  | known : Linked identity credentialsId s.auth → Links identity credentialsId ms s id
  | new {email q} : canonicalEmail identity = some email → q ∈ s.auth.externalIdentities.rows →
    q.emailVerified = true →
      q.normalizedEmail = some email → q.credentialsId = credentialsId →
      HoldsAuth (externalIdentityToRecord identity credentialsId).entries ms s →
      Links identity credentialsId ms s
        (AuthDatabase.insertIdentity (externalIdentityToRecord identity credentialsId))

theorem Links.interf {credentialsId : UUID} {v : AuthDatabase → AuthDatabase} {ms' : List AppLock}
    (h : Links identity credentialsId ms s v) (hi : (accounts request checked).Interf i ms s s')
    (hms : ms ⊆ ms') :
    Links identity credentialsId ms' s' v := by
  rcases h with hlinked | ⟨hemail, hq, hverified, hnormalized, hid, hholds⟩
  · exact .known (hlinked.interf hi)
  · exact .new hemail (interf_identities hi hq) hverified hnormalized hid
      ((hholds.interf AuthLock.Protects.entry hi).mono hms)

/-- The credentials that are recorded are those of the account. -/
theorem wp_recordLogin {credentialsId : UUID} {w : AppDatabase → AppDatabase}
    {Q : Post AppDatabase AppLock UserCredential}
    (hQ : ∀ c s', (accounts request checked).Interf i ms s s' → c.id = credentialsId → Q c w ms s')
    (hE : ∀ e w ms s', (accounts request checked).Interf i [] s s' → E e w ms s') :
    (accounts request checked).wp i Q E (AppTx.auth (recordLogin credentialsId)) w ms s := by
  simp only [AppTx.auth, recordLogin, getCredential, AuthTx.select, AuthTx.exec, Prog.bind_eq,
    Protocol.wp_lift_bind]
  refine Protocol.wp_lift_query (fun s₁ hi₁ _ => ?_) hE
  split
  · next c hc => exact hQ c s₁ hi₁ (Table.find_eq_some.1 hc).2
  · exact hE _ _ _ s₁ hi₁.nil

/-- A login is one of the account that its identity is linked to, or is now linked to by its email. -/
theorem wp_loginCredentials {Q : Post AppDatabase AppLock UserCredential}
    (hQ : ∀ c v ms' s', (accounts request checked).Interf i ms s s' → ms ⊆ ms' →
      Links identity c.id ms' s' v →
      Q c (authPart.write v) ms' s')
    (hE : ∀ e w ms s', (accounts request checked).Interf i [] s s' → E e w ms s') :
    (accounts request checked).wp i Q E (AppTx.auth (loginCredentials identity)) id ms s := by
  simp only [AppTx.auth, loginCredentials, findByExternalIdentity, AuthTx.select, AuthTx.exec,
    Prog.bind_eq, Protocol.wp_lift_bind]
  refine Protocol.wp_lift_query (fun s₁ hi₁ _ => ?_) hE
  have hE₁ : ∀ e w ms s', (accounts request checked).Interf i [] s₁ s' → E e w ms s' :=
    fun e w ms s' hi => hE e w ms s' (hi₁.nil.trans hi)
  split
  · next c hfound =>
    obtain ⟨-, q, hq, hmatch, hid⟩ := of_credentialsOf hfound
    refine wp_recordLogin (fun c' s₂ hi₂ hid' => ?_) hE₁
    have hmatch' : q.issuer = identity.issuer ∧ q.subject = identity.subject := by simpa using hmatch
    have hlinked : Linked identity c'.id s₁.auth := ⟨q, hq, hmatch'.1, hmatch'.2, hid.trans hid'.symm⟩
    have hQ' := hQ c' id ms s₂ (hi₁.trans hi₂) (List.Subset.refl _) (.known (hlinked.interf hi₂))
    rwa [Part.write_id] at hQ'
  · split
    · next email hemail hverified =>
      simp only [findByVerifiedEmail, AuthTx.select, AuthTx.exec, Protocol.wp_lift_bind]
      refine Protocol.wp_lift_query (fun s₂ hi₂ _ => ?_) hE₁
      have hi₁₂ : (accounts request checked).Interf i ms s s₂ := hi₁.trans hi₂
      have hE₂ : ∀ e w ms s', (accounts request checked).Interf i [] s₂ s' → E e w ms s' :=
        fun e w ms s' hi => hE e w ms s' (hi₁₂.nil.trans hi)
      split
      · next c hfound =>
        obtain ⟨-, q, hq, hmatch, hid⟩ := of_credentialsOf hfound
        have hmatch' : q.normalizedEmail = some email ∧ q.emailVerified = true := by
          simpa using hmatch
        simp only [flushIdentity, AuthTx.insert, AuthTx.exec, Protocol.wp_lift_bind]
        refine Protocol.wp_lift_insert_holds (fun _ _ h => h)
          (fun ms₃ s₃ hi₃ _ hsub₃ hholds => ?_) hE₂
        refine wp_recordLogin (fun c' s₄ hi₄ hid' => ?_) fun e w ms s' hi =>
          hE₂ e w ms s' (hi₃.nil.trans hi)
        have hi₂₄ : (accounts request checked).Interf i ms s₂ s₄ := hi₃.trans (hi₄.anti hsub₃)
        have hlink : Links identity c.id ms₃ s₃ _ :=
          .new hemail (interf_identities hi₃ hq) hmatch'.2 hmatch'.1 hid hholds
        have hQ' := hQ c' _ ms₃ s₄ (hi₁₂.trans hi₂₄) hsub₃
          (hid' ▸ hlink.interf hi₄ (List.Subset.refl _))
        rwa [hid'] at hQ'
      · exact hE₂ _ _ _ s₂ .refl
    · exact hE₁ _ _ _ s₁ .refl


/-- What holds of the accounts after a commit of the session, which links the identity to the
    account. -/
structure Commits (checked : Prop) (identity : ExternalIdentity) (credentialsId : UUID)
    (ms : List AppLock) (d d' : AuthDatabase) : Prop where
  constrained : d'.Constrained
  oneAccount : checked → OneAccount d'
  enrols : Enrols ms d d'
  linked : Linked identity credentialsId d'

omit [CaseFolding] in
theorem Commits.inert {credentialsId : UUID} {d d' : AuthDatabase} {u : AuthDatabase → AuthDatabase}
    (h : Commits checked identity credentialsId ms d d') (hu : Inert u) :
    Commits checked identity credentialsId ms d (u d') where
  constrained := hu.constrained h.constrained
  oneAccount hchecked := by
    rw [OneAccount, (hu d').1]
    exact h.oneAccount hchecked
  enrols :=
    { credentials := by
        intro c hc
        obtain ⟨c₁, hc₁, hid₁⟩ := h.enrols.credentials c hc
        obtain ⟨c₂, hc₂, hid₂⟩ := (hu d').2 c₁ hc₁
        exact ⟨c₂, hc₂, hid₂.trans hid₁⟩
      identities := (hu d').1 ▸ h.enrols.identities
      locked := (hu d').1 ▸ h.enrols.locked }
  linked := by
    rw [Linked, (hu d').1]
    exact h.linked

/-- An identity is added, with an entry that is new, and linked to the account that its verified
    email has, if it has one. -/
theorem commits_append {credentialsId : UUID} {d d' : AuthDatabase} (hd : d.Constrained)
    (hone : checked → OneAccount d)
    (hidentities : d'.externalIdentities.rows = d.externalIdentities.rows ++
      [externalIdentityToRecord identity credentialsId])
    (hcredentials : ∀ c ∈ d.userCredentials.rows, ∃ c' ∈ d'.userCredentials.rows, c'.id = c.id)
    (hc : ∃ c ∈ d'.userCredentials.rows, c.id = credentialsId)
    (hfree : d.hasEntry (.identity identity.issuer identity.subject) = false)
    (hemail : checked → identity.emailVerified = true →
      ∀ email ∈ canonicalEmail identity, ∀ q ∈ d.externalIdentities.rows, q.emailVerified = true →
      q.normalizedEmail = some email → q.credentialsId = credentialsId)
    (hlock : ∀ email ∈ canonicalEmail identity, .auth (.advisory (emailLockId email)) ∈ ms) :
    Commits checked identity credentialsId ms d d' where
  constrained :=
    { identity := by
        rw [hidentities, List.map_append, List.nodup_append]
        refine ⟨hd.identity, List.nodup_singleton _, fun a ha b hb hab => ?_⟩
        obtain ⟨q, hq, rfl⟩ := List.mem_map.1 ha
        rw [List.map_singleton, List.mem_singleton] at hb
        have h := Prod.mk.inj (hab.trans hb)
        exact (AuthDatabase.hasEntry_eq_false.1 hfree).2.1 q hq
          (by simp [ExternalIdentityRecord.entries, h.1, h.2,
          externalIdentityToRecord])
      credentials := by
        intro q hq
        rcases List.mem_append.1 (hidentities ▸ hq) with hq | hq
        · obtain ⟨c, hc, hid⟩ := hd.credentials q hq
          obtain ⟨c', hc', hid'⟩ := hcredentials c hc
          exact ⟨c', hc', hid'.trans hid⟩
        · obtain rfl := List.mem_singleton.1 hq
          exact hc }
  oneAccount hchecked := by
    intro q hmem q' hmem' hverified hverified' email hq hq'
    -- Two old identities, an old one and the new one, or the new one twice.
    rcases List.mem_append.1 (hidentities ▸ hmem) with hold | hnew
    · rcases List.mem_append.1 (hidentities ▸ hmem') with hold' | hnew'
      · exact hone hchecked q hold q' hold' hverified hverified' email hq hq'
      · obtain rfl := List.mem_singleton.1 hnew'
        exact hemail hchecked hverified' email hq' q hold hverified hq
    · obtain rfl := List.mem_singleton.1 hnew
      rcases List.mem_append.1 (hidentities ▸ hmem') with hold' | hnew'
      · exact (hemail hchecked hverified email hq q' hold' hverified' hq').symm
      · obtain rfl := List.mem_singleton.1 hnew'
        rfl
  enrols :=
    { credentials := hcredentials
      identities := hidentities ▸ List.subset_append_left _ _
      locked := by
        intro q hmem hold _ email hq
        rcases List.mem_append.1 (hidentities ▸ hmem) with hq' | hnew
        · exact absurd hq' hold
        · obtain rfl := List.mem_singleton.1 hnew
          exact hlock email hq }
  linked := ⟨_, hidentities ▸ List.mem_append_right _ (List.mem_singleton_self _), rfl, rfl, rfl⟩

/-- A login commits the link of its identity to the account that already has its email. -/
theorem Links.commits {credentialsId : UUID} {v : AuthDatabase → AuthDatabase}
    (h : Links identity credentialsId ms s v) (hinv : (accounts request checked).inv s)
    (hlock : ∀ email ∈ canonicalEmail identity, .auth (.advisory (emailLockId email)) ∈ ms) :
    Commits checked identity credentialsId ms s.auth (v s.auth) := by
  rcases h with hlinked | @⟨email, q, hemail, hq, hverified, hnormalized, hid, hholds⟩
  · exact ⟨hinv.1, hinv.2,
      ⟨fun c hc => ⟨c, hc, rfl⟩, List.Subset.refl _, fun q hq hold => absurd hq hold⟩, hlinked⟩
  have hfree :=
    (hholds (.identity identity.issuer identity.subject)
      (List.mem_cons_of_mem _ List.mem_cons_self)).2
  have hid' := id_ne_of_hasEntry (hholds (.primaryKey (.identity identity.id)) List.mem_cons_self).2
  refine commits_append hinv.1 hinv.2 ?_ (fun c hc => ⟨c, hc, rfl⟩) ?_ hfree
    (fun hchecked _ email' hemail' q' hq' => ?_) hlock
  · exact Table.rows_insert fun q hq hqid => hid'.2.1 q hq (congrArg _ hqid)
  · obtain ⟨c, hc, hcid⟩ := hinv.1.credentials q hq
    exact ⟨c, hc, hcid.trans hid⟩
  · intro hverified' hnormalized'
    have heq : email' = email := Option.some.inj (Eq.trans (Eq.symm hemail') hemail)
    exact (hinv.2 hchecked q' hq' q hq hverified' hverified email
      (heq ▸ hnormalized') hnormalized).trans hid

/-- A login commits tokens of the account that its identity is linked to. -/
theorem wp_login_accounts {ids : LoginIds} {X : AppError → AppDatabase → Prop} {d : AppDatabase}
    (hX : ∀ e s, (accounts request checked).Interf i [] d s → X e s) :
    (accounts request checked).wp i (fun a _ _ s =>
      Linked identity a.accessToken.credentialsId s.auth) (fun e _ _ => X e)
      (AppTx.auth (LoginCommandUseCase.execute identity ids)) id [] d := by
  have hE {s : AppDatabase} (hi : (accounts request checked).Interf i [] d s) : ∀ e
      (_ : AppDatabase → AppDatabase) (_ : List AppLock) s',
        (accounts request checked).Interf i [] s s' → X e s' :=
        fun e _ _ s' hi' => hX e s' (hi.trans hi')
  rw [AppTx.auth, LoginCommandUseCase.execute, Prog.bind_eq, Protocol.wp_lift_bind]
  refine wp_synchronize (fun ms₁ s₁ hi₁ _ hsync => ?_) (hE .refl)
  rw [Prog.bind_eq, Protocol.wp_lift_bind]
  refine wp_loginCredentials (fun c v ms₂ s₂ hi₂ hsub₂ hlinks => ?_) (hE hi₁)
  have hi₁₂ : (accounts request checked).Interf i [] d s₂ := hi₁.trans hi₂.nil
  have hid : authPart.write id ∘ authPart.write v = authPart.write v := by
    rw [Part.write_id, Function.id_comp]
  rw [← hid, Prog.bind_eq, Protocol.wp_lift_bind]
  refine Protocol.wp_lift_within (within_flushLogin c ids.loggedInAt) (fun _ _ => Inert.comp) inert_id
    (fun _ u₃ ms₃ s₃ hi₃ hsub₃ hu₃ => ?_) (hE hi₁₂)
  have hi₁₃ : (accounts request checked).Interf i [] d s₃ := hi₁₂.trans hi₃.nil
  rw [Prog.bind_eq, Protocol.wp_lift_bind]
  refine Protocol.wp_lift_within (within_flushSession _) (fun _ _ => Inert.comp) hu₃
    (fun _ u₄ ms₄ s₄ hi₄ hsub₄ hu₄ => ?_) (hE hi₁₃)
  have hi₁₄ : (accounts request checked).Interf i [] d s₄ := hi₁₃.trans hi₄.nil
  rw [Prog.bind_eq, Protocol.wp_lift_bind]
  refine Protocol.wp_lift_within (within_flushRefreshToken none _) (fun _ _ => Inert.comp) hu₄
    (fun _ u₅ ms₅ s₅ hi₅ hsub₅ hu₅ => ?_) (hE hi₁₄)
  have hi₁₅ : (accounts request checked).Interf i [] d s₅ := hi₁₄.trans hi₅.nil
  rw [Prog.bind_eq, Protocol.wp_lift_bind, AuthTx.commit]
  refine Protocol.wp_lift_commitOr.2 fun s hi hinv => ⟨?_, hX _ s (hi₁₅.trans hi.nil)⟩
  -- The locks and the link are still there.
  have hsub₂₅ : ms₂ ⊆ ms₅ := List.Subset.trans hsub₃ (List.Subset.trans hsub₄ hsub₅)
  have hi₂ₛ : (accounts request checked).Interf i ms₂ s₂ s :=
    hi₃.trans (((hi₄.trans ((hi₅.trans (hi.anti hsub₅)).anti hsub₄))).anti hsub₃)
  have hcommits := ((hlinks.interf hi₂ₛ hsub₂₅).commits hinv fun email hemail =>
    List.Subset.trans hsub₂ hsub₂₅ (hsync.emailLock email hemail).1).inert hu₅
  refine ⟨⟨hcommits.constrained, hcommits.oneAccount⟩,
    ⟨hcommits.enrols, fun _ _ _ _ hnew => ⟨hnew.notifications, hnew.billing⟩⟩, hcommits.linked⟩


/-! ## Signups -/

variable [BeneficiaryDigest] {command : SignupCommand} {ids : SignupIds}

/-- The ids of other signups stay new. -/
theorem SignedUp.keeps_new {promotion : Option Promotion}
    (h : SignedUp identity command ids promotion s s') {ids' : SignupIds}
    (huser : ids.account.userId ≠ ids'.account.userId)
    (hredemption : ids.redemption.redemptionId ≠ ids'.redemption.redemptionId)
    (hnew : ids'.New s) : ids'.New s' where
  notifications := by
    rw [Table.find_eq_none, h.notificationSettings, List.map_append, List.mem_append, not_or]
    exact ⟨Table.find_eq_none.1 hnew.notifications, fun hmem =>
      huser (List.mem_singleton.1 hmem).symm⟩
  billing := by
    rw [h.billing]
    rcases promotion with - | p
    · exact hnew.billing
    · exact hnew.billing.granted huser hredemption

/-- A signup commits an account, which has its email alone if that has been checked. -/
theorem SignedUp.commits {promotion : Option Promotion}
    (h : SignedUp identity command ids promotion s s') (hinv : (accounts request checked).inv s)
    (hemail : checked → identity.emailVerified = true →
      ∀ email ∈ canonicalEmail identity, ∀ q ∈ s.auth.externalIdentities.rows,
      q.emailVerified = true → q.normalizedEmail ≠ some email)
    (hlock : ∀ email ∈ canonicalEmail identity, .auth (.advisory (emailLockId email)) ∈ ms) :
    Commits checked identity ids.credentialsId ms s.auth s'.auth := by
  refine commits_append hinv.1 hinv.2 h.identities (fun c hc => ⟨c, ?_, rfl⟩) ?_ (h.new _ ?_)
    (fun hchecked hverified email he q hq hq' hqemail =>
      absurd hqemail (hemail hchecked hverified email he q hq hq')) hlock
  · rw [h.credentials]
    exact List.mem_append_left _ hc
  · rw [h.credentials]
    exact ⟨_, List.mem_append_right _ (List.mem_singleton_self _), rfl⟩
  · simp [entries, externalIdentityToRecord, ExternalIdentityRecord.entries]


/-- A signup commits the tokens of its account. -/
theorem wp_signup {X : AppError → AppDatabase → Prop} {d : AppDatabase}
    (hrequest : request i = .signup identity command ids) (hnew : ids.New d)
    (hdistinct : ∀ j, j ≠ i → ∀ ids' ∈ (request j).signupIds,
      ids.account.userId ≠ ids'.account.userId ∧
      ids.redemption.redemptionId ≠ ids'.redemption.redemptionId)
    (hX : ∀ e s, (accounts request checked).Interf i [] d s → X e s) :
    (accounts request checked).wp i (fun a _ _ s => a = tokens ids ∧
      externalIdentityToRecord identity ids.credentialsId ∈
      s.auth.externalIdentities.rows) (fun e _ _ => X e) (execute identity command ids) id [] d := by
  have hids : ids ∈ (request i).signupIds := by
    rw [hrequest]
    rfl
  refine wp_execute (fun s hi => interf_new hids hi hnew) (fun promotion ms s hi hinv h => ?_) hX
  have hemail : checked → identity.emailVerified = true → ∀ email ∈ canonicalEmail identity,
      ∀ q ∈ s.auth.externalIdentities.rows, q.emailVerified = true →
        q.normalizedEmail ≠ some email := by
    intro hchecked hverified email he
    obtain ⟨-, ms₁, s₁, hinv₁, hcond, hi₁⟩ := h.synchronized.emailLock email he
    have hsignup : (request i).signupIds ≠ none := by
      rw [hrequest]
      exact Option.some_ne_none ids
    have hidentity : (request i).identity = identity := by
      rw [hrequest]
      rfl
    have howner : emailOwner email s₁.auth = none :=
      hcond hchecked hsignup (hidentity ▸ hverified) email (hidentity.symm ▸ he) rfl
    refine interf_email (fun q hq hqverified hqemail => ?_) hi₁
    have hfalse := hinv₁.1.of_credentialsOf_none howner q hq
    simp [hqverified, hqemail] at hfalse
  have hcommits := h.signedUp.commits hinv hemail fun email he =>
    (h.synchronized.emailLock email he).1
  refine ⟨⟨hcommits.constrained, hcommits.oneAccount⟩,
    ⟨hcommits.enrols, fun j hj ids' hids' hnew' => ?_⟩, rfl, ?_⟩
  · exact h.signedUp.keeps_new (hdistinct j hj ids' hids').1 (hdistinct j hj ids' hids').2 hnew'
  · rw [h.signedUp.identities]
    exact List.mem_append_right _ (List.mem_singleton_self _)

/-! ## Runs -/

/-- The ids of new accounts are new, and drawn once. -/
structure NewAccounts (request : ι → AccountRequest) (d : AppDatabase) : Prop where
  new : ∀ i, ∀ ids ∈ (request i).signupIds, ids.New d
  distinct : ∀ i j, i ≠ j → ∀ ids ∈ (request i).signupIds, ∀ ids' ∈ (request j).signupIds,
    ids.account.userId ≠ ids'.account.userId ∧
      ids.redemption.redemptionId ≠ ids'.redemption.redemptionId ∧
      ids.credentialsId ≠ ids'.credentialsId

/-- What holds of the accounts after a request has returned. -/
def AccountRequest.Ensures (request : AccountRequest) (a : TokenResult) (d : AuthDatabase) : Prop :=
  match request with
  | .signup identity _ ids =>
    a = tokens ids ∧ externalIdentityToRecord identity ids.credentialsId ∈ d.externalIdentities.rows
  | .login identity _ => Linked identity a.accessToken.credentialsId d

omit [Digests] [BeneficiaryDigest] in
theorem AccountRequest.Ensures.linked {request : AccountRequest} {a : TokenResult} {d : AuthDatabase}
    (h : request.Ensures a d) : Linked request.identity a.accessToken.credentialsId d := by
  rcases request with ⟨identity, command, ids⟩ | ⟨identity, ids⟩
  · obtain ⟨rfl, hmem⟩ := h
    exact ⟨_, hmem, rfl, rfl, rfl⟩
  · exact h

theorem meets_accounts {d : AppDatabase} (hd : d.auth.Constrained)
    (hone : checked → OneAccount d.auth) (hnew : NewAccounts request d) :
    (accounts request checked).Meets (fun i => (request i).prog) d
      (fun i a s => (request i).Ensures a s.auth) fun _ _ _ => True where
  inv := ⟨hd, hone⟩
  wp i := by
    rcases hrequest : request i with ⟨identity, command, ids⟩ | ⟨identity, ids⟩
    · have hids : ids ∈ (request i).signupIds := by
        rw [hrequest]
        rfl
      refine wp_signup hrequest (hnew.new i ids hids) (fun j hj ids' hids' => ?_) fun _ _ _ => trivial
      have hdistinct := hnew.distinct i j (Ne.symm hj) ids hids ids' hids'
      exact ⟨hdistinct.1, hdistinct.2.1⟩
    · exact wp_login_accounts fun _ _ _ => trivial
  stable_ret i a s s' h hs := by
    have hsub := interf_identities (.single h)
    rcases hrequest : request i with ⟨identity, command, ids⟩ | ⟨identity, ids⟩
    · rw [hrequest] at hs
      exact ⟨hs.1, hsub hs.2⟩
    · rw [hrequest] at hs
      obtain ⟨q, hq, hmatch⟩ := hs
      exact ⟨q, hsub hq, hmatch⟩
  stable_raise _ _ _ _ _ _ := trivial


omit [Digests] [BeneficiaryDigest] in
/-- A signup returns the tokens of its own account. -/
theorem AccountRequest.Ensures.signup {request : AccountRequest} {a : TokenResult}
    {d : AuthDatabase} {ids : SignupIds} (h : request.Ensures a d)
    (hids : ids ∈ request.signupIds) : a.accessToken.credentialsId = ids.credentialsId ∧
      externalIdentityToRecord request.identity ids.credentialsId ∈ d.externalIdentities.rows := by
  rcases request with ⟨identity, command, ids⟩ | ⟨identity, ids⟩
  · cases hids
    obtain ⟨rfl, hmem⟩ := h
    exact ⟨rfl, hmem⟩
  · cases hids

omit [CaseFolding] [Digests] [BeneficiaryDigest] in
/-- An identity is linked to one account. -/
theorem Linked.unique {identity' : ExternalIdentity} {c c' : UUID} {d : AuthDatabase}
    (hd : d.Constrained) (h : Linked identity c d) (h' : Linked identity' c' d)
    (hissuer : identity.issuer = identity'.issuer)
    (hsubject : identity.subject = identity'.subject) : c = c' := by
  obtain ⟨q, hq, hqissuer, hqsubject, rfl⟩ := h
  obtain ⟨q', hq', hqissuer', hqsubject', rfl⟩ := h'
  have heq : q = q' := List.inj_on_of_nodup_map hd.identity hq hq' <| Prod.ext
    (hqissuer.trans (hissuer.trans hqissuer'.symm)) (hqsubject.trans (hsubject.trans hqsubject'.symm))
  rw [heq]

/-- In every run of signups and logins, an identity belongs to one account: the requests for it that
    return give out tokens of this account, and at most one of them is a signup. -/
theorem one_account_per_identity {d : AppDatabase}
    {s : System ι AppDatabase AppStatement AppError TokenResult} [DecidableEq ι]
    (hd : d.auth.Constrained) (hnew : NewAccounts request d)
    (hs : Reach Always (System.init (fun i => (request i).prog) d) s) :
    s.store.auth.Constrained ∧
      (∀ i a, s.returned i = some a →
        Linked (request i).identity a.accessToken.credentialsId s.store.auth) ∧
      ∀ i j a b, s.returned i = some a → s.returned j = some b →
      (request i).identity.issuer = (request j).identity.issuer →
        (request i).identity.subject = (request j).identity.subject →
          a.accessToken.credentialsId = b.accessToken.credentialsId ∧
            ((request i).signupIds ≠ none → (request j).signupIds ≠ none → i = j) := by
  have hmeets : (accounts request False).Meets _ d _ _ := meets_accounts hd False.elim hnew
  obtain ⟨hinv, hret, -⟩ := hmeets.sound (hs.mono fun _ _ _ _ _ => False.elim)
  have hlinked : ∀ i a, s.returned i = some a →
      Linked (request i).identity a.accessToken.credentialsId s.store.auth :=
    fun i a ha => (hret i a ha).linked
  refine ⟨hinv.1, hlinked, fun i j a b ha hb hissuer hsubject => ?_⟩
  have hsame := (hlinked i a ha).unique hinv.1 (hlinked j b hb) hissuer hsubject
  refine ⟨hsame, fun hi hj => ?_⟩
  obtain ⟨ids, hids⟩ := Option.ne_none_iff_exists'.1 hi
  obtain ⟨ids', hids'⟩ := Option.ne_none_iff_exists'.1 hj
  by_contra hne
  refine (hnew.distinct i j hne ids hids ids' hids').2.2 ?_
  rw [← ((hret i a ha).signup hids).1, ← ((hret j b hb).signup hids').1, hsame]

/-- In every run of signups and logins in which a signup takes the lock of its email before there is
    an account of it, a verified email belongs to one account, and at most one of the signups with
    it returns. -/
theorem one_account_per_email {d : AppDatabase}
    {s : System ι AppDatabase AppStatement AppError TokenResult} [DecidableEq ι]
    (hd : d.auth.Constrained) (hone : OneAccount d.auth) (hnew : NewAccounts request d)
    (hs : Reach (Looked request) (System.init (fun i => (request i).prog) d) s) :
    OneAccount s.store.auth ∧ ∀ i j a b, s.returned i = some a → s.returned j = some b →
    (request i).signupIds ≠ none →
      (request j).signupIds ≠ none → (request i).identity.emailVerified = true →
      (request j).identity.emailVerified = true →
        ∀ email ∈ canonicalEmail (request i).identity,
          email ∈ canonicalEmail (request j).identity → i = j := by
  have hmeets : (accounts request True).Meets _ d _ _ := meets_accounts hd (fun _ => hone) hnew
  obtain ⟨hinv, hret, -⟩ := hmeets.sound (hs.mono fun _ _ _ _ h _ => h)
  refine ⟨hinv.2 trivial, fun i j a b ha hb hi hj hverified hverified' email hemail hemail' => ?_⟩
  obtain ⟨ids, hids⟩ := Option.ne_none_iff_exists'.1 hi
  obtain ⟨ids', hids'⟩ := Option.ne_none_iff_exists'.1 hj
  by_contra hne
  exact (hnew.distinct i j hne ids hids ids' hids').2.2 <|
    hinv.2 trivial _ ((hret i a ha).signup hids).2 _
    ((hret j b hb).signup hids').2 hverified hverified' email hemail hemail'

end

/-! ## Two identities with one email -/

/-- A signup, or a login with another identity of the same verified email. -/
def emailRequest (login : Bool) : AccountRequest :=
  if login then .login { googleIdentity 20 "first" with issuer := "apple" }
    ⟨.ofNat 21, ⟨.ofNat 22, "second", 9⟩, 3⟩
  else .signup (googleIdentity 2 "first") signupCommand signupIds

theorem newAccounts_emailRequest : NewAccounts emailRequest .empty where
  new := by
    rintro (- | -) ids hids
    · cases hids
      exact ⟨rfl, rfl, fun _ h => absurd h List.not_mem_nil, fun _ h => absurd h List.not_mem_nil⟩
    · cases hids
  distinct := by
    rintro (- | -) (- | -) hne ids hids ids' hids'
    · exact absurd rfl hne
    · cases hids'
    · cases hids
    · cases hids

theorem constrained_empty : AppDatabase.empty.auth.Constrained :=
  ⟨List.nodup_nil, fun _ h => absurd h List.not_mem_nil⟩

/-- The identity of the login is linked to the account of the signup. -/
theorem login_links_email : letI := lowerCase; letI : Digests := ⟨id, fun _ => 0⟩; letI := zeroDigest
    ∃ (s : System Bool AppDatabase AppStatement AppError TokenResult) (a : TokenResult),
      Reach Always (System.init (fun i => (emailRequest i).prog) .empty) s ∧
        s.returned true = some a ∧
        Linked (emailRequest true).identity a.accessToken.credentialsId s.store.auth := by
  let _ := lowerCase
  let _ : Digests := ⟨id, fun _ => 0⟩
  let _ := zeroDigest
  obtain ⟨s, hs, hreturned⟩ := System.exists_reach (C := Always)
    (s := (System.init (fun i => (emailRequest i).prog) .empty :
      System Bool AppDatabase AppStatement AppError TokenResult))
    (p := fun s => (s.returned true).isSome)
      (List.replicate 16 (.run false) ++ List.replicate 10 (.run true))
    (by decide +kernel)
  obtain ⟨a, ha⟩ := Option.isSome_iff_exists.1 hreturned
  exact ⟨s, a, hs, ha,
    (one_account_per_identity constrained_empty newAccounts_emailRequest hs).2.1 true a ha⟩

/-- Then the email belongs to one account. -/
theorem login_keeps_email : letI := lowerCase; letI : Digests := ⟨id, fun _ => 0⟩; letI := zeroDigest
    ∃ s : System Bool AppDatabase AppStatement AppError TokenResult,
      Reach (Looked emailRequest) (System.init (fun i => (emailRequest i).prog) .empty) s ∧
        s.store.auth.externalIdentities.rows.length = 2 ∧ OneAccount s.store.auth := by
  let _ := lowerCase
  let _ : Digests := ⟨id, fun _ => 0⟩
  let _ := zeroDigest
  obtain ⟨s, hs, hlength⟩ := System.exists_reach (C := Looked emailRequest)
    (s := (System.init (fun i => (emailRequest i).prog) .empty :
      System Bool AppDatabase AppStatement AppError TokenResult))
    (p := fun s => s.store.auth.externalIdentities.rows.length = 2)
    (List.replicate 16 (.run false) ++ List.replicate 10 (.run true)) (by decide +kernel)
  exact ⟨s, hs, hlength,
    (one_account_per_email constrained_empty (fun _ h => absurd h List.not_mem_nil)
    newAccounts_emailRequest hs).1⟩

/-! ## Two signups with one email -/

/-- Two signups with different identities of one verified email. -/
def emailSignup (second : Bool) : AccountRequest :=
  if second then .signup (googleIdentity 32 "second") signupCommand
    ⟨⟨.ofNat 31, ⟨.ofNat 33, 0⟩, 0⟩, none, 1,
      ⟨.ofNat 34, ⟨.ofNat 35, 1⟩, ⟨.ofNat 36, ⟨.ofNat 37, 1⟩⟩⟩, .ofNat 38, ⟨.ofNat 39, 2⟩,
      ⟨.ofNat 40, ⟨.ofNat 41, "second", 9⟩, 2⟩⟩
  else .signup (googleIdentity 2 "first") signupCommand signupIds

/-- Both look for an account before either takes the lock of the email: the email then has two. -/
theorem signups_share_email : letI := lowerCase; letI : Digests := ⟨id, fun _ => 0⟩;
    letI := zeroDigest
    ∃ s : System Bool AppDatabase AppStatement AppError TokenResult,
      Reach Always (System.init (fun i => (emailSignup i).prog) .empty) s ∧
        (∀ i, (s.returned i).isSome) ∧
        ¬OneAccount s.store.auth := by
  let _ := lowerCase
  let _ : Digests := ⟨id, fun _ => 0⟩
  let _ := zeroDigest
  obtain ⟨s, hs, hreturned, hrows⟩ := System.exists_reach (C := Always)
    (s := (System.init (fun i => (emailSignup i).prog) .empty :
      System Bool AppDatabase AppStatement AppError TokenResult))
    (p := fun s => (∀ i, (s.returned i).isSome) ∧ s.store.auth.externalIdentities.rows =
      [externalIdentityToRecord (googleIdentity 2 "first") (.ofNat 7),
        externalIdentityToRecord (googleIdentity 32 "second") (.ofNat 38)])
    (List.replicate 2 (.run true) ++ List.replicate 16 (.run false) ++
      List.replicate 14 (.run true)) (by decide +kernel)
  refine ⟨s, hs, hreturned, fun hone => ?_⟩
  have hsame := hone _ (hrows ▸ List.mem_cons_self)
    _ (hrows ▸ List.mem_cons_of_mem _ List.mem_cons_self) rfl rfl
    "user@example.com" rfl rfl
  exact absurd hsame (by decide)

end Boat.App
