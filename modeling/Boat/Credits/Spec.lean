import Boat.Credits.UseCases

/-!
# Credits: specifications

What the credit commands do to the database, for any other commands that run at
the same time (any protocol `P`), as rules for `Protocol.wp`.

* `Posted`: a commit that enters a transaction in the ledger and, when the snapshot
  it was computed from is current, changes the balance by its amount.
* `wp_grant`: a grant posts its transaction, or takes what it finds for a replay:
  a transaction with its key or source, or, as a defect, a conflicting first row
  of its user (`Conflict`).
* `wp_reserve`, `wp_finalize`: a usage posts its transaction, or raises.

A snapshot can be stale only when the row did not exist for `FOR UPDATE` to lock
and did exist for `save` to read (`Statement.Current` excludes it).
-/

namespace Boat

open ReadCommitted SqlAlchemyCreditRepository

/-! ## Transactions in the ledger -/

/-- The balance of a user: zero without a row. -/
def Database.balance (d : Database) (userId : UUID) : CreditBalance :=
  (d.userCredits userId).getD .zero

/-- `d'` is `d` after the commit of the transaction `t`, with the rows of the outbox
    it writes. If it is `exact`, the balance has changed by its amount. -/
structure Posted (exact : Prop) (t : CreditTransaction) (rows : List OutboxEvent)
    (d d' : Database) : Prop where
  fresh : ∀ e ∈ t.entries, d.hasEntry e = false
  eq : ∃ o, d' = (((d.insertOutbox rows).insertTransaction t).setUserCredit t.userId o) ∧
    (exact → ∃ b, o = some b ∧ t.Books (d.balance t.userId) b)

/-- A write that leaves the tables of the credits module alone. -/
structure CreditsFrame (w : Database → Database) : Prop where
  userCredits : ∀ d, (w d).userCredits = d.userCredits
  creditTransactions : ∀ d, (w d).creditTransactions = d.creditTransactions

theorem creditsFrame_id : CreditsFrame id := ⟨fun _ => rfl, fun _ => rfl⟩

theorem CreditsFrame.insertOutbox {w : Database → Database} (hw : CreditsFrame w)
    (rows : List OutboxEvent) : CreditsFrame (Database.insertOutbox rows ∘ w) :=
  ⟨hw.userCredits, hw.creditTransactions⟩

theorem hasEntry_transactionKey {d : Database} {key : String} :
    d.hasEntry (.transactionKey key) = d.creditTransactions.any (·.idempotencyKey = some key) := by
  refine congrArg (List.any d.creditTransactions) (funext fun t => ?_)
  cases hk : t.idempotencyKey <;> cases hs : t.source <;>
    simp [CreditTransaction.entries, hk, hs, eq_comm]

theorem hasEntry_transactionSource {d : Database} {source : CreditSource} {u : UUID}
    {a : CreditAction} : d.hasEntry (.transactionSource source u a) =
      d.creditTransactions.any fun t => t.source = some source ∧ t.userId = u ∧ t.action = a := by
  refine congrArg (List.any d.creditTransactions) (funext fun t => ?_)
  cases hk : t.idempotencyKey <;> cases hs : t.source <;>
    simp [CreditTransaction.entries, hk, hs, eq_comm]

theorem CreditsFrame.hasEntry {w : Database → Database} (hw : CreditsFrame w)
    {t : CreditTransaction} {e : IndexEntry} (he : e ∈ t.entries) (d : Database) :
    (w d).hasEntry e = d.hasEntry e := by
  have := hw.creditTransactions d
  cases e with
  | transactionKey | transactionSource => simp only [Database.hasEntry, this]
  | userCredit | redemptionKey | redemptionBeneficiary =>
    exfalso
    cases hk : t.idempotencyKey <;> cases hs : t.source <;>
      simp [CreditTransaction.entries, hk, hs] at he

/-! ## Conditions on the snapshot -/

/-- The flush does not write a stale snapshot: it updates the row under its lock, or
    the transaction is refused anyway. -/
def Statement.Current (s : Statement) (d : Database) (ks : List LockKey) : Prop :=
  match s with
  | .flushTransaction t (.update _ _) =>
    .row (.userCredit t.userId) ∈ ks ∨ ∃ e ∈ t.entries, d.hasEntry e = true
  | _ => True

/-- The entries in the ledger that a statement looks for, or inserts. -/
def Statement.entries : Statement → List IndexEntry
  | .existsTransactionWithKey key => [.transactionKey key]
  | .existsTransactionWithSource source u a => [.transactionSource source u a]
  | .flushTransaction t _ => t.entries
  | _ => []

/-- The flush does not insert a row that another transaction has just inserted. -/
def Statement.FirstRow (s : Statement) (d : Database) : Prop :=
  match s with
  | .flushUserCredit u (.insert _) => d.userCredits u = none
  | _ => True

instance (s : Statement) (d : Database) (ks : List LockKey) : Decidable (s.Current d ks) := by
  unfold Statement.Current
  split <;> infer_instance

instance (s : Statement) (d : Database) : Decidable (s.FirstRow d) := by
  unfold Statement.FirstRow
  split <;> infer_instance

section

variable {ι : Type} {P : Protocol ι Database LockKey Statement} {i : ι}
  {w : Database → Database} {ks : List LockKey} {d : Database} {t : CreditTransaction}
  {pending : PendingUserCredit}

variable (P i t) in
/-- There is already a transaction with the key or the source of `t`, as a statement
    that looks for it finds. -/
def Duplicate (d : Database) : Prop :=
  ∃ e ∈ t.entries, d.hasEntry e = true ∧ ∃ s ks, e ∈ Statement.entries s ∧ P.cond i s d ks

variable (P i t pending) in
/-- The flush of `t` is refused, in a way that `flushPendingWrites` takes for a replay:
    there is a transaction with its key or source, or already a row of its user. -/
def Conflict (d : Database) : Prop :=
  Duplicate P i t d ∨
    ∃ b ks, pending = .insert b ∧ P.cond i (.flushUserCredit t.userId pending) d ks ∧
      d.userCredits t.userId ≠ none

/-- What the flush of a transaction and a row of `user_credits` does. -/
structure Flushed (t : CreditTransaction) (pending : PendingUserCredit) (d d' : Database) :
    Prop where
  fresh : ∀ e ∈ t.entries, d.hasEntry e = false
  eq : ∃ o, d' = (d.insertTransaction t).setUserCredit t.userId o ∧
    match pending with
    | .insert row => d.userCredits t.userId = none ∧ o = some row
    | .update seen row => d.userCredits t.userId = some seen → o = some row

theorem mergeCounts_self (seen row : CreditBalance) : mergeCounts seen row seen = .ok row := by
  simp only [mergeCounts, changed_self]
  rw [CreditBalance.create_eq row.used_nonneg row.remaining_nonneg row.consistent]

theorem mergeCounts_error {seen row r : CreditBalance} {e : Error}
    (h : mergeCounts seen row r = .error e) : e = .integrity .ckUserCredits := by
  unfold mergeCounts at h
  split at h <;> cases h
  rfl

/-- Another transaction like it cannot be entered while the entries of this one are locked. -/
theorem keeps_fresh (hw : CreditsFrame w) (hlocked : t.entries.map .entry ⊆ ks)
    (hfresh : ∀ e ∈ t.entries, d.hasEntry e = false) {d' : Database} (hi : P.Interf i ks d d') :
    ∀ e ∈ t.entries, (w d').hasEntry e = false := by
  intro e he
  rw [hw.hasEntry he]
  exact interf_entry hi (hlocked (List.mem_map_of_mem he)) (hfresh e he)

/-- The flush of a row of `user_credits`, once the transaction is entered. -/
theorem wp_flushUserCredit {Q : Post Database LockKey Unit} {X : Error → Database → Prop}
    (hw : CreditsFrame w) (hlocked : t.entries.map .entry ⊆ ks)
    (hfresh : ∀ e ∈ t.entries, d.hasEntry e = false)
    (hQ : ∀ w' ks' d', P.Interf i ks d d' → ks ⊆ ks' →
      (∀ d'', P.Interf i ks' d' d'' → Flushed t pending (w d'') (w' d'')) → Q () w' ks' d')
    (hX : ∀ e d', P.Interf i [] d d' → (∀ e', e ≠ .domain e') →
      (∀ c, e = .integrity c → c ∈ idempotentCreditTransactionConstraints →
        ∃ d₁, P.Interf i [] d d₁ ∧ Conflict P i t pending d₁ ∧ P.Interf i [] d₁ d') → X e d') :
    P.wp i Q (fun e _ _ d => X e d) (flushUserCredit t.userId pending)
      (Database.insertTransaction t ∘ w) ks d := by
  cases pending with
  | insert row =>
    refine wp_insert (fun d₂ hi₂ hc₂ _ hnone => ?_) (fun d' d'' hi hc hi' e he h => ?_)
      (by simp) fun d' hi => hX _ d' hi (by simp) (by simp)
    · have hnone' : d₂.userCredits t.userId = none := by
        have := hnone _ List.mem_cons_self
        rw [Database.hasEntry_userCredit] at this
        exact hw.userCredits d₂ ▸ this
      refine hQ _ _ d₂ hi₂ (by simp) fun d'' hi => ?_
      have hnone'' : (w d'').userCredits t.userId = none := by
        rw [hw.userCredits, ← Database.hasEntry_userCredit]
        exact interf_entry hi List.mem_cons_self (Database.hasEntry_userCredit.2 hnone')
      refine ⟨keeps_fresh hw hlocked hfresh (hi₂.trans hi.append_right), some row, ?_, hnone'', rfl⟩
      simp [Database.insertUserCredit, Database.insertTransaction, hnone'']
    · obtain rfl := List.mem_singleton.1 he
      refine hX _ d'' (hi.nil.trans hi') (by simp) fun c hc' _ =>
        ⟨d', hi.nil, .inr ⟨row, _, rfl, hc, fun hnone => ?_⟩, hi'⟩
      have : (w d').userCredits t.userId = none := by rw [hw.userCredits]; exact hnone
      exact Bool.false_ne_true ((Database.hasEntry_userCredit.2 this).symm.trans h)
  | update seen row =>
    simp only [flushUserCredit]
    split
    · next hrow =>
      -- Nothing has changed, so that nothing is written.
      refine hQ _ _ d .refl (List.Subset.refl _) fun d'' hi => ?_
      refine ⟨keeps_fresh hw hlocked hfresh hi, (w d'').userCredits t.userId, ?_, fun h => hrow ▸ h⟩
      simp [Database.setUserCredit, Database.insertTransaction]
    · refine wp_update (fun d₂ r u hi₂ hc₂ hr hu => ?_) fun e d' hi he => ?_
      · cases hm : mergeCounts seen row r with
        | error e => simp [hm, Except.map] at hu
        | ok b =>
          simp only [hm, Except.map, Except.ok.injEq] at hu
          subst hu
          have hr' : d₂.userCredits t.userId = some r := hw.userCredits d₂ ▸ hr
          refine hQ _ _ d₂ hi₂ (by simp) fun d'' hi => ?_
          have hr'' : (w d'').userCredits t.userId = some r := by
            rw [hw.userCredits]
            exact interf_userCredit hi List.mem_cons_self hr'
          have hkept := keeps_fresh hw hlocked hfresh (hi₂.trans (hi.anti (List.subset_cons_self ..)))
          refine ⟨hkept, some b, ?_, fun h => ?_⟩
          · simp [Database.updateUserCredit, Database.insertTransaction, hr'']
          · obtain rfl : r = seen := Option.some.inj (hr''.symm.trans h)
            rw [mergeCounts_self, Except.ok.injEq] at hm
            exact congrArg some hm.symm
      · have hck : e = .staleData ∨ (∃ s, e = .fault s) ∨ e = .integrity .ckUserCredits := by
          rcases he with rfl | rfl | ⟨r, hr⟩
          · exact .inl rfl
          · exact .inr (.inl ⟨_, rfl⟩)
          · cases hm : mergeCounts seen row r with
            | ok b => simp [hm, Except.map] at hr
            | error e' =>
              simp only [hm, Except.map, Except.error.injEq] at hr
              exact .inr (.inr (hr ▸ mergeCounts_error hm))
        refine hX e d' hi ?_ fun c hc hmem => ?_
        · rcases hck with rfl | ⟨s, rfl⟩ | rfl <;> simp
        · subst hc
          simp [idempotentCreditTransactionConstraints] at hck hmem
          simp [hck] at hmem

/-- The flush enters the transaction and writes the row, or is refused. -/
theorem wp_flush {Q : Post Database LockKey Unit} {X : Error → Database → Prop}
    (hw : CreditsFrame w)
    (hQ : ∀ w' ks' d', P.Interf i ks d d' → ks ⊆ ks' →
      (∃ d₁, P.cond i (.flushTransaction t pending) d₁ ks ∧ ∀ e ∈ t.entries, d₁.hasEntry e = false) →
      (∀ d'', P.Interf i ks' d' d'' → Flushed t pending (w d'') (w' d'')) → Q () w' ks' d')
    (hX : ∀ e d', P.Interf i [] d d' → (∀ e', e ≠ .domain e') →
      (∀ c, e = .integrity c → c ∈ idempotentCreditTransactionConstraints →
        ∃ d₁, P.Interf i [] d d₁ ∧ Conflict P i t pending d₁ ∧ P.Interf i [] d₁ d') → X e d') :
    P.wp i Q (fun e _ _ d => X e d) (flush t pending) w ks d := by
  simp only [flush, Prog.bind_eq, Protocol.wp_bind]
  refine wp_insert (fun d₁ hi₁ hc₁ _ hfresh => ?_) (fun d' d'' hi hc hi' e he h => ?_)
    (fun c d' hc hi => ?_) fun d' hi => hX _ d' hi (by simp) (by simp)
  · -- The transaction is entered, and no one else can enter one like it.
    have hfresh' (e) (he : e ∈ t.entries) : d₁.hasEntry e = false := hw.hasEntry he d₁ ▸ hfresh e he
    refine wp_flushUserCredit hw (List.subset_append_left ..) hfresh'
      (fun w' ks' d' hi hks hflushed => ?_)
      fun e d' hi hne hconflict => ?_
    · have hsub : ks ⊆ ks' := List.Subset.trans (List.subset_append_right ..) hks
      exact hQ w' ks' d' (hi₁.trans hi.append_right) hsub ⟨d₁, hc₁, hfresh'⟩ hflushed
    · refine hX e d' (hi₁.nil.trans hi) hne fun c hc hmem => ?_
      obtain ⟨d₂, hi₂, hconf, hi₃⟩ := hconflict c hc hmem
      exact ⟨d₂, hi₁.nil.trans hi₂, hconf, hi₃⟩
  · have h' : d'.hasEntry e = true := hw.hasEntry he d' ▸ h
    exact hX _ d'' (hi.nil.trans hi') (by simp) fun c _ _ =>
      ⟨d', hi.nil, .inl ⟨e, he, h', .flushTransaction t pending, ks, he, hc⟩, hi'⟩
  · refine hX _ d' hi (by simp) fun c' hc' hmem => ?_
    split at hc
    · cases hc
    · cases hc; cases hc'; simp [idempotentCreditTransactionConstraints] at hmem

variable (t) in
/-- `pending` changes the balance by the amount of `t`: the balance zero, or the one of
    the row, if that is locked. -/
def PendingUserCredit.Computed (pending : PendingUserCredit) (ks : List LockKey)
    (d : Database) : Prop :=
  match pending with
  | .insert row => t.Books .zero row
  | .update seen row =>
    .row (.userCredit t.userId) ∈ ks → d.userCredits t.userId = some seen ∧ t.Books seen row

theorem PendingUserCredit.Computed.interf {d' : Database} (h : pending.Computed t ks d)
    (hi : P.Interf i ks d d') : pending.Computed t ks d' := by
  cases pending with
  | insert row => exact h
  | update seen row => exact fun hk => ⟨interf_userCredit hi hk (h hk).1, (h hk).2⟩

variable {exact : Prop} {rows : List OutboxEvent}

/-- The flush of a current snapshot posts the transaction. -/
theorem Flushed.posted {d' : Database} (hw : CreditsFrame w)
    (h : Flushed t pending (Database.insertOutbox rows (w d)) d') (hc : pending.Computed t ks d)
    (hexact : exact → ∀ seen row, pending = .update seen row → .row (.userCredit t.userId) ∈ ks) :
    Posted exact t rows (w d) d' := by
  have hu : (w d).userCredits = d.userCredits := hw.userCredits d
  obtain ⟨o, rfl, ho⟩ := h.eq
  refine ⟨fun e he => ?_, o, rfl, fun hex => ?_⟩
  · rw [hw.hasEntry he, ← (hw.insertOutbox rows).hasEntry he]
    exact h.fresh e he
  · cases pending with
    | insert row =>
      have hnone : (w d).userCredits t.userId = none := ho.1
      exact ⟨row, ho.2, by rw [Database.balance, hnone]; exact hc⟩
    | update seen row =>
      obtain ⟨hseen, hb⟩ := hc (hexact hex seen row rfl)
      have hseen' : (w d).userCredits t.userId = some seen := hu ▸ hseen
      exact ⟨row, ho hseen', by rw [Database.balance, hseen']; exact hb⟩

/-- The flush of a snapshot, current if it has to be, posts the transaction, or is refused. -/
theorem wp_flush_posted {Q : Post Database LockKey Unit} {X : Error → Database → Prop}
    (hw : CreditsFrame w) (hc : pending.Computed t ks d)
    (hexact : exact → ∀ d, P.cond i (.flushTransaction t pending) d ks →
      (Statement.flushTransaction t pending).Current d ks)
    (hQ : ∀ w' ks' d', P.Interf i ks d d' → ks ⊆ ks' →
      (∀ d'', P.Interf i ks' d' d'' → Posted exact t rows (w d'') (w' d'')) → Q () w' ks' d')
    (hX : ∀ e d', P.Interf i [] d d' → (∀ e', e ≠ .domain e') →
      (∀ c, e = .integrity c → c ∈ idempotentCreditTransactionConstraints →
        ∃ d₁, P.Interf i [] d d₁ ∧ Conflict P i t pending d₁ ∧ P.Interf i [] d₁ d') → X e d') :
    P.wp i Q (fun e _ _ d => X e d) (flush t pending) (Database.insertOutbox rows ∘ w) ks d := by
  refine wp_flush (hw.insertOutbox rows) (fun w' ks' d' hi hks hcur hf => ?_) hX
  refine hQ w' ks' d' hi hks fun d'' hi' => (hf d'' hi').posted hw
    (hc.interf (hi.trans (hi'.anti hks))) fun hex seen row hp => ?_
  obtain ⟨d₁, hc₁, hfresh⟩ := hcur
  subst hp
  rcases hexact hex d₁ hc₁ with h | ⟨e, he, h⟩
  · exact h
  · exact absurd h (by simp [hfresh e he])

/-! ## Grants -/

open GrantCreditCommandUseCase

/-- The row of the outbox that a grant writes. -/
def GrantCreditCommand.outboxRow (command : GrantCreditCommand) (ids : CreditIds) : OutboxEvent :=
  .of .credit ⟨ids.stamp, .creditGranted command.userId command.amount.value command.reason
    command.source command.idempotencyKey⟩

variable {command : GrantCreditCommand} {ids : CreditIds} {unitOfWork : UnitOfWork}
  {Q : Post Database LockKey GrantCreditCommandResult} {X : Error → Database → Prop}

theorem books_granted (b : CreditBalance) :
    (transaction command ids).Books b (b.granted command.amount) := ⟨rfl, rfl⟩

theorem wp_replay (hX : ∀ e d', P.Interf i [] d d' → X e d')
    (hQ : ∀ d' r, P.Interf i ks d d' → Q r w ks d') :
    P.wp i Q (fun e _ _ d => X e d) (replay command) w ks d := by
  simp only [replay, getBalance, Prog.bind_eq, Prog.pure_eq, Protocol.wp_bind, wp_select,
    Protocol.wp_ret]
  exact fun d' hi _ => ⟨fun _ => hQ d' _ hi, hX _ d' hi.nil⟩

/-- The end of a grant: the flush and the commit, with the handler of conflicts. -/
theorem wp_grant_finish {r : GrantCreditCommandResult} (hw : CreditsFrame w)
    (hc : pending.Computed (transaction command ids) ks d)
    (hrollback : unitOfWork.rollback = sessionRollback)
    (hexact : exact → ∀ d, P.cond i (.flushTransaction (transaction command ids) pending) d ks →
      (Statement.flushTransaction (transaction command ids) pending).Current d ks)
    (hX : ∀ e d', P.Interf i [] d d' → X e d')
    (hcommit : ∀ w' ks' d' r, P.Interf i ks d d' → ks ⊆ ks' →
      (∀ d'', P.Interf i ks' d' d'' →
        Posted exact (transaction command ids) rows (w d'') (w' d'')) →
      P.wp i (fun _ => Q r)
        (fun e _ _ d => e ≠ .domain .creditTransactionWriteConflict ∧
          X e d) unitOfWork.commit w' ks' d')
    (hreplay : ∀ d₁ d₂ r, P.Interf i [] d d₁ → Conflict P i (transaction command ids) pending d₁ →
      P.Interf i [] d₁ d₂ → Q r id [] d₂) :
    P.wp i Q (fun e _ _ d => X e d)
      (tryCatch (do
        flushPendingWrites (transaction command ids) pending
        unitOfWork.commit
        return r) fun
        | .domain .creditTransactionWriteConflict =>
          if !hasIdempotentIdentity command then
            throw (.domain .creditTransactionWriteConflict)
          else do
            unitOfWork.rollback
            replay command
        | e => throw e) (Database.insertOutbox rows ∘ w) ks d := by
  simp only [Prog.tryCatch_eq, Protocol.wp_handle, Prog.bind_eq, Protocol.wp_bind, Prog.pure_eq,
    flushPendingWrites]
  refine Protocol.wp_raises (wp_flush_posted hw hc hexact (fun w' ks' d' hi hks hpost => ?_)
    fun e d' hi hdom he w₀ ks₀ => ?_)
  · rw [Protocol.wp_bind]
    refine Protocol.wp_mono (hcommit w' ks' d' r hi hks hpost) (fun _ _ _ _ h => h) ?_
    rintro e w ks d ⟨hne, hx⟩
    split
    · exact absurd rfl hne
    · exact hx
  · -- A violation of an idempotency constraint is a conflict, which is replayed after a rollback,
    -- if the command has an identity.
    cases e with
    | integrity c =>
      by_cases hmem : c ∈ idempotentCreditTransactionConstraints
      · obtain ⟨d₁, hi₁, hconf, hi'⟩ := he c rfl hmem
        simp only [hmem, ↓reduceIte, Prog.throw_eq, Protocol.wp_raise]
        split
        · exact hX _ d' hi
        · simp only [hrollback, Protocol.wp_bind, wp_sessionRollback]
          exact fun d₂ hi₂ _ => ⟨wp_replay (fun e d₃ hi₃ => hX e d₃ (hi.trans (hi₂.nil.trans hi₃)))
            fun d₃ r hi₃ => hreplay d₁ d₃ r hi₁ hconf (hi'.trans (hi₂.nil.trans hi₃)),
            hX _ d₂ (hi.trans hi₂.nil)⟩
      · simp only [hmem, ↓reduceIte, Prog.throw_eq, Protocol.wp_raise]
        exact hX _ d' hi
    | domain e => exact absurd rfl (hdom e)
    | staleData | fault => exact hX _ d' hi

/-- The locks of a user's row: none, if there is none to lock. -/
def userCreditLocks (d : Database) (u : UUID) : List LockKey :=
  ((d.userCredits u).map fun _ => .row (.userCredit u)).toList

/-- What `save` leaves pending for a grant is computed from the locked row, or from zero. -/
theorem computed_grant {d₁ d₂ : Database} (hks : .row (.userCredit command.userId) ∉ ks)
    (hi : P.Interf i (userCreditLocks d₁ command.userId ++ ks) d₁ d₂) :
    (pendingFor (d₂.userCredits command.userId)
      ((d₁.balance command.userId).granted command.amount)).Computed (transaction command ids)
        (userCreditLocks d₁ command.userId ++ ks) d₂ := by
  cases h₁ : d₁.userCredits command.userId with
  | none =>
    have hlocks : userCreditLocks d₁ command.userId = [] := by simp [userCreditLocks, h₁]
    have hbal : d₁.balance command.userId = .zero := by simp [Database.balance, h₁]
    rw [hlocks, hbal]
    cases h₂ : d₂.userCredits command.userId with
    | none => exact books_granted _
    | some seen => exact fun hk => absurd hk hks
  | some row =>
    have hk : .row (.userCredit command.userId) ∈ userCreditLocks d₁ command.userId ++ ks := by
      simp [userCreditLocks, h₁]
    have hbal : d₁.balance command.userId = row := by simp [Database.balance, h₁]
    have h₂ := interf_userCredit hi hk h₁
    rw [hbal, h₂]
    exact fun _ => ⟨h₂, books_granted row⟩

/-- A grant that is not known to be a replay. -/
theorem wp_grant (hw : CreditsFrame w) (hks : .row (.userCredit command.userId) ∉ ks)
    (hrollback : unitOfWork.rollback = sessionRollback)
    (hexact : exact → ∀ d pending ks,
      P.cond i (.flushTransaction (transaction command ids) pending) d ks →
      (Statement.flushTransaction (transaction command ids) pending).Current d ks)
    (hX : ∀ e d', P.Interf i [] d d' → X e d')
    (hcommit : ∀ w' ks' d' r, P.Interf i ks d d' → ks ⊆ ks' →
      (∀ d'', P.Interf i ks' d' d'' →
        Posted exact (transaction command ids) [command.outboxRow ids] (w d'') (w' d'')) →
      P.wp i (fun _ => Q r)
        (fun e _ _ d => e ≠ .domain .creditTransactionWriteConflict ∧
          X e d) unitOfWork.commit w' ks' d')
    (hreplay : ∀ d₁ d₂ r, P.Interf i [] d d₁ →
      (∃ pending, Conflict P i (transaction command ids) pending d₁) → P.Interf i [] d₁ d₂ →
      Q r id [] d₂) :
    P.wp i Q (fun e _ _ d => X e d) (grant unitOfWork command ids) w ks d := by
  simp only [grant, getUserCreditForUpdate, save, Prog.bind_eq, Prog.pure_eq, Protocol.wp_bind,
    wp_selectForUpdate, wp_select, Protocol.wp_ret, wp_lift, UserCredit.grant_eq, wp_publish,
    userCreditToDomain, hw.userCredits]
  refine fun d₁ hi₁ _ => ⟨fun _ => ⟨fun userCredit hgrant => ?_, by simp⟩, hX _ _ hi₁.nil⟩
  cases hgrant
  refine fun d₂ hi₂ _ => ⟨fun _ d₃ hi₃ _ =>
    ⟨fun _ => ?_, hX _ _ (hi₁.nil.trans (hi₂.nil.trans hi₃.nil))⟩, hX _ _ (hi₁.nil.trans hi₂.nil)⟩
  have hi₁₃ : P.Interf i ks d d₃ := hi₁.trans (hi₂.append_right.trans hi₃.append_right)
  refine wp_grant_finish hw ?_ hrollback (fun hex d => hexact hex d _ _) (fun e d' hi => ?_)
    (fun w' ks' d' r hi hsub hpost => ?_) fun d' d'' r hi hconf hi' => ?_
  · exact (computed_grant hks hi₂).interf hi₃
  · exact hX e d' (hi₁₃.nil.trans hi)
  · exact hcommit w' ks' d' r (hi₁₃.trans hi.append_right)
      (List.Subset.trans (List.subset_append_right ..) hsub) hpost
  · exact hreplay d' d'' r (hi₁₃.nil.trans hi) ⟨_, hconf⟩ hi'

variable (ids) in
theorem wp_isDuplicateGrant {Q : Post Database LockKey Bool} (hw : CreditsFrame w)
    (hX : ∀ e d', P.Interf i [] d d' → X e d')
    (hdup : ∀ d', P.Interf i ks d d' → Duplicate P i (transaction command ids) d' → Q true w ks d')
    (hnew : ∀ d', P.Interf i ks d d' → Q false w ks d') :
    P.wp i Q (fun e _ _ d => X e d) (isDuplicateGrant command) w ks d := by
  have hsource (source : CreditSource) (hs : command.source = some source) (d₁ : Database)
      (hi₁ : P.Interf i ks d d₁) :
        P.wp i Q (fun e _ _ d => X e d)
          (existsTransactionWithSource source command.userId .grant) w ks d₁ := by
    simp only [existsTransactionWithSource, wp_select]
    refine fun d₂ hi₂ _ => ⟨fun hc => ?_, hX _ _ (hi₁.nil.trans hi₂.nil)⟩
    rw [hw.creditTransactions, ← hasEntry_transactionSource]
    cases h : d₂.hasEntry (.transactionSource source command.userId .grant) with
    | false => exact hnew d₂ (hi₁.trans hi₂)
    | true =>
      refine hdup d₂ (hi₁.trans hi₂) ⟨_, ?_, h, _, ks, List.mem_cons_self, hc⟩
      simp [CreditTransaction.entries, transaction, appendTransaction, hs]
  simp only [isDuplicateGrant, Prog.bind_eq]
  cases hk : command.idempotencyKey with
  | none =>
    cases hs : command.source with
    | none => exact hnew d .refl
    | some source => exact hsource source hs d .refl
  | some key =>
    simp only [existsTransactionWithIdempotencyKey, Protocol.wp_bind, wp_select]
    refine fun d₁ hi₁ _ => ⟨fun hc => ?_, hX _ _ hi₁.nil⟩
    rw [hw.creditTransactions, ← hasEntry_transactionKey]
    cases h : d₁.hasEntry (.transactionKey key) with
    | false =>
      cases hs : command.source with
      | none => exact hnew d₁ hi₁
      | some source => exact hsource source hs d₁ hi₁
    | true =>
      refine hdup d₁ hi₁ ⟨_, ?_, h, _, ks, List.mem_cons_self, hc⟩
      simp [CreditTransaction.entries, transaction, appendTransaction, hk]

/-- A grant posts its transaction before its commit, or is taken for a replay. -/
theorem wp_grantCredit (hw : CreditsFrame w) (hks : .row (.userCredit command.userId) ∉ ks)
    (hrollback : unitOfWork.rollback = sessionRollback)
    (hexact : exact → ∀ d pending ks,
      P.cond i (.flushTransaction (transaction command ids) pending) d ks →
      (Statement.flushTransaction (transaction command ids) pending).Current d ks)
    (hX : ∀ e d', P.Interf i [] d d' → X e d')
    (hdup : ∀ d₁ d₂ r, P.Interf i ks d d₁ → Duplicate P i (transaction command ids) d₁ →
      P.Interf i ks d₁ d₂ → Q r w ks d₂)
    (hcommit : ∀ w' ks' d' r, P.Interf i ks d d' → ks ⊆ ks' →
      (∀ d'', P.Interf i ks' d' d'' →
        Posted exact (transaction command ids) [command.outboxRow ids] (w d'') (w' d'')) →
      P.wp i (fun _ => Q r)
        (fun e _ _ d => e ≠ .domain .creditTransactionWriteConflict ∧
          X e d) unitOfWork.commit w' ks' d')
    (hreplay : ∀ d₁ d₂ r, P.Interf i [] d d₁ →
      (∃ pending, Conflict P i (transaction command ids) pending d₁) → P.Interf i [] d₁ d₂ →
      Q r id [] d₂) :
    P.wp i Q (fun e _ _ d => X e d) (execute unitOfWork command ids) w ks d := by
  simp only [execute, Prog.bind_eq, Protocol.wp_bind]
  refine wp_isDuplicateGrant ids hw hX (fun d₁ hi₁ hd₁ => ?_) fun d₁ hi₁ => ?_
  · exact wp_replay (fun e d' hi => hX e d' (hi₁.nil.trans hi)) fun d₂ r hi₂ =>
      hdup d₁ d₂ r hi₁ hd₁ hi₂
  · exact wp_grant hw hks hrollback hexact (fun e d' hi => hX e d' (hi₁.nil.trans hi))
      (fun w' ks' d' r hi => hcommit w' ks' d' r (hi₁.trans hi))
      fun d' d'' r hi => hreplay d' d'' r (hi₁.nil.trans hi)

/-! ## Usages -/

/-- The row of the outbox that a usage writes. -/
def UseCreditCommand.outboxRow (command : UseCreditCommand) (ids : CreditIds) : OutboxEvent :=
  .of .credit ⟨ids.stamp, .creditUsed command.userId command.amount.value command.reason⟩

/-- What a reservation leaves pending: the locked row, less the amount. -/
structure Reserved (command : UseCreditCommand) (pending : PendingUserCredit) (ks : List LockKey)
    (d : Database) : Prop where
  locked : .row (.userCredit command.userId) ∈ ks
  covered : ∃ row, ∃ h : command.amount.value ≤ row.remainingCount,
    d.userCredits command.userId = some row ∧ pending = .update row (row.spent command.amount h)

theorem Reserved.interf {command : UseCreditCommand} {d' : Database}
    (h : Reserved command pending ks d) (hi : P.Interf i ks d d') : Reserved command pending ks d' :=
  let ⟨row, hle, hrow, hp⟩ := h.covered
  ⟨h.locked, row, hle, interf_userCredit hi h.locked hrow, hp⟩

variable {useCommand : UseCreditCommand}

/-- A reservation is refused, or computed from the locked row of the user. -/
theorem wp_reserve {Q : Post Database LockKey PendingUserCredit} (hw : CreditsFrame w)
    (hX : ∀ e d', P.Interf i [] d d' → X e d')
    (hQ : ∀ pending ks' d', P.Interf i ks d d' → ks ⊆ ks' → Reserved useCommand pending ks' d' →
      Q pending w ks' d') :
    P.wp i Q (fun e _ _ d => X e d) (ReserveCreditCommandUseCase.execute useCommand) w ks d := by
  simp only [ReserveCreditCommandUseCase.execute, getUserCreditForUpdate, save, Prog.bind_eq,
    Prog.pure_eq, Protocol.wp_bind, wp_selectForUpdate, wp_select, Protocol.wp_ret, wp_lift,
    UserCredit.use_eq, userCreditToDomain, hw.userCredits]
  refine fun d₁ hi₁ _ => ⟨fun _ => ⟨?_, fun e _ => hX _ _ hi₁.nil⟩, hX _ _ hi₁.nil⟩
  generalize h₁ : d₁.userCredits useCommand.userId = record
  intro userCredit huse
  split at huse
  · next hle =>
    cases huse
    refine fun d₂ hi₂ _ => ⟨fun _ => ?_, hX _ _ (hi₁.nil.trans hi₂.nil)⟩
    cases record with
    | none =>
      -- Zero does not cover an amount of one or more.
      have := useCommand.amount.one_le
      simp only [Option.getD_none, CreditBalance.zero] at hle
      omega
    | some row =>
      have hk : .row (.userCredit useCommand.userId) ∈
          (Option.map (fun _ => LockKey.row (.userCredit useCommand.userId))
            (some row)).toList ++ ks := by
        simp
      have h₂ := interf_userCredit hi₂ hk h₁
      refine hQ _ _ d₂ (hi₁.trans hi₂.append_right) (by simp) ⟨hk, row, hle, h₂, ?_⟩
      simp only [h₂]
      rfl
  · cases huse

/-- The finalization of a reservation posts its transaction before its commit, or raises. -/
theorem wp_finalize {Q : Post Database LockKey Unit}
    (hw : CreditsFrame w) (hres : Reserved useCommand pending ks d)
    (hX : ∀ e d', P.Interf i [] d d' → X e d')
    (hcommit : ∀ w' ks' d', P.Interf i ks d d' → ks ⊆ ks' →
      (∀ d'', P.Interf i ks' d' d'' → Posted True
        (FinalizeCreditUsageCommandUseCase.transaction useCommand ids) [useCommand.outboxRow ids]
        (w d'') (w' d'')) →
      P.wp i Q (fun e _ _ d => X e d) unitOfWork.commit w' ks' d') :
    P.wp i Q (fun e _ _ d => X e d)
      (FinalizeCreditUsageCommandUseCase.execute unitOfWork useCommand pending ids) w ks d := by
  simp only [FinalizeCreditUsageCommandUseCase.execute, Prog.bind_eq, Protocol.wp_bind, wp_publish]
  refine fun d₁ hi₁ _ => ⟨fun _ => ?_, hX _ _ hi₁.nil⟩
  have hres₁ := hres.interf hi₁
  refine wp_flush_posted hw ?_ (fun _ d _ => ?_)
    (fun w' ks' d' hi hks hpost => hcommit w' ks' d' (hi₁.trans hi) hks hpost)
    fun e d' hi _ _ => hX e d' (hi₁.nil.trans hi)
  · obtain ⟨row, hle, hrow, rfl⟩ := hres₁.covered
    exact fun _ => ⟨hrow, rfl, rfl⟩
  · obtain ⟨row, hle, hrow, rfl⟩ := hres₁.covered
    exact .inl hres.locked

end

end Boat
