import Boat.Credits.Spec
import Boat.Promotions.UseCases
import Boat.ReadCommitted.Alone

/-!
# Credits: grants that run alone

What the database refuses is what does not fit its columns (`Statement.refused`). Nothing else can go
wrong in a grant that runs alone: it returns the counts after it, or those of a user who already has
it (`grantCredit_alone`), unless it does not fit (`grantCredit_alone_refused`).
-/

namespace Boat

open ReadCommitted SqlAlchemyCreditRepository

/-- A number in the range of a column of type `INTEGER`. -/
def fitsInteger (n : ℤ) : Bool := -2147483648 ≤ n && n ≤ 2147483647

theorem fitsInteger_iff {n : ℤ} : fitsInteger n = true ↔ -2147483648 ≤ n ∧ n ≤ 2147483647 := by
  simp [fitsInteger]

/-- The counts of a row of `user_credits` are in the range of their columns. -/
def CreditBalance.fits (b : CreditBalance) : Bool :=
  fitsInteger b.totalGrantedCount && fitsInteger b.usedCount && fitsInteger b.remainingCount

/-- The row with the counts that a flush sets. -/
def PendingUserCredit.row : PendingUserCredit → CreditBalance
  | .insert row | .update _ row => row

/-- The writes that the database refuses, as a value does not fit its column: a text of at most 255
    or 80 characters, or a number in the range of `INTEGER`. -/
def Statement.refused : Statement → Bool
  | .flushRedemption r => 255 < r.idempotencyKey.length || r.beneficiaryKey.any (80 < ·.length)
  | .flushPromotion p => !fitsInteger p.timesRedeemed
  | .flushPromotionCode c => !fitsInteger c.timesRedeemed
  | .flushTransaction t _ => t.idempotencyKey.any (255 < ·.length) || !fitsInteger t.amount.value
  | .flushUserCredit _ pending => !pending.row.fits
  | _ => false

section

variable {α : Type} {s : Statement} {v d : Database}

theorem alone_select {f : Database → α} (hs : s.refused = false) :
    (Tx.select s f).alone Statement.refused v d = ⟨.ok (f v), v, d⟩ := Prog.alone_query hs

theorem alone_selectForUpdate {key : α → RowKey} {f : Database → Option α} (hs : s.refused = false) :
    (Tx.selectForUpdate s key f).alone Statement.refused v d = ⟨.ok (f v), v, d⟩ :=
  Prog.alone_query hs

theorem alone_refused {c : Command Database Error α} (hs : s.refused = true) :
    (Tx.exec s c).alone Statement.refused v d = ⟨.error (.fault s), d, d⟩ :=
  Prog.alone_exec_refused hs

theorem alone_publish {β : Type} {inj : β → Event} {events : List (Stamped β)} :
    (publish inj events).alone Statement.refused v d =
      ⟨.ok (), v.insertOutbox (events.map (.of inj)), d⟩ := Prog.alone_exec rfl

theorem alone_insert {entries : List IndexEntry} {w : Database → Database}
    {hw : Touches (entries.map .entry) w} (hs : s.refused = false)
    (hentries : ∀ e ∈ entries, v.hasEntry e = false) :
    (Tx.exec s (insertCommand entries none w hw)).alone Statement.refused v d = ⟨.ok (), w v, d⟩ := by
  have hfind : entries.find? (v.hasEntry ·) = none :=
    List.find?_eq_none.2 fun e he => by simp [hentries e he]
  rw [Tx.exec, Prog.alone_exec hs]
  simp only [insertCommand, hfind]

theorem alone_update {ρ : Type} {key : RowKey} {f : Database → Option ρ}
    {set : ρ → Except Error (Database → Database)}
    {hset : ∀ r w, set r = .ok w → Touches [.row key] w} {r : ρ} {w : Database → Database}
    (hs : s.refused = false) (hf : f v = some r) (hr : set r = .ok w) :
    (Tx.exec s (updateCommand key f set hset)).alone Statement.refused v d = ⟨.ok (), w v, d⟩ := by
  rw [Tx.exec, Prog.alone_exec hs]
  simp only [updateCommand, hf, hr, Except.map]

end

namespace GrantCreditCommandUseCase

variable {command : GrantCreditCommand} {ids : CreditIds} {v d : Database}

/-- There is a transaction with the key or the source of the grant. -/
def Granted (command : GrantCreditCommand) (ids : CreditIds) (d : Database) : Prop :=
  ∃ e ∈ (transaction command ids).entries, d.hasEntry e = true

instance : Decidable (Granted command ids d) := inferInstanceAs (Decidable (∃ e ∈ _, _))

/-- The grant fits the columns it is stored in. -/
def Fits (command : GrantCreditCommand) (d : Database) : Prop :=
  (∀ key, command.idempotencyKey = some key → key.length ≤ 255) ∧
    (d.balance command.userId).totalGrantedCount + command.amount.value ≤ 2147483647

variable (ids) in
theorem isDuplicateGrant_alone : (isDuplicateGrant command).alone Statement.refused v d =
    ⟨.ok (decide (Granted command ids v)), v, d⟩ := by
  have hkey : ∀ key, (existsTransactionWithIdempotencyKey key).alone Statement.refused v d =
      ⟨.ok (v.hasEntry (.transactionKey key)), v, d⟩ := fun key => by
    rw [existsTransactionWithIdempotencyKey, alone_select rfl, hasEntry_transactionKey]
  have hsource : ∀ source,
      (existsTransactionWithSource source command.userId .grant).alone Statement.refused v d =
        ⟨.ok (v.hasEntry (.transactionSource source command.userId .grant)), v, d⟩ :=
      fun source => by
    rw [existsTransactionWithSource, alone_select rfl, hasEntry_transactionSource]
  obtain ⟨userId, amount, reason, source, key⟩ := command
  simp only [isDuplicateGrant, Granted, transaction, appendTransaction, CreditTransaction.entries,
    Prog.bind_eq, Prog.pure_eq]
  rcases key with - | key
  · rcases source with - | source
    · simp
    · simp [hsource source]
  · simp only [Prog.alone_bind_ok (hkey key)]
    rcases hk : v.hasEntry (.transactionKey key) with - | -
    · rcases source with - | source
      · simp [hk]
      · simp [hk, hsource source]
    · simp [hk]

/-- A grant that was made before is taken for a replay. -/
theorem execute_alone_granted (h : Granted command ids v) :
    (execute deferredGrantUnitOfWork command ids).alone Statement.refused v d =
      ⟨.ok ⟨(v.balance command.userId).totalGrantedCount,
        (v.balance command.userId).remainingCount⟩, v, d⟩ := by
  rw [execute, Prog.bind_eq, Prog.alone_bind_ok (isDuplicateGrant_alone ids), decide_eq_true h]
  rw [if_pos rfl, replay, Prog.bind_eq, getBalance, Prog.alone_bind_ok (alone_select rfl)]
  rfl

variable (ids) in
/-- The columns of the transaction and of the row of a grant that fits. -/
theorem fits_iff : Fits command v ↔
    (∀ pending, (Statement.flushTransaction (transaction command ids) pending).refused = false) ∧
      ((v.balance command.userId).granted command.amount).fits = true := by
  have hused := (v.balance command.userId).used_nonneg
  have hremaining := (v.balance command.userId).remaining_nonneg
  have hconsistent := (v.balance command.userId).consistent
  have hamount := command.amount.one_le
  have hrefused : ∀ pending,
      (Statement.flushTransaction (transaction command ids) pending).refused = false ↔
        (∀ key, command.idempotencyKey = some key → key.length ≤ 255) ∧
          command.amount.value ≤ 2147483647 := by
    intro pending
    simp only [Statement.refused, transaction, appendTransaction, Bool.or_eq_false_iff,
      Bool.not_eq_false', fitsInteger_iff]
    rcases command.idempotencyKey with - | key
    · simp
      omega
    · simp
      omega
  simp only [hrefused, Fits, CreditBalance.fits, CreditBalance.granted, fitsInteger_iff,
    Bool.and_eq_true]
  constructor
  · rintro ⟨hkey, htotal⟩
    exact ⟨fun _ => ⟨hkey, by omega⟩, by omega⟩
  · rintro ⟨hkey, htotal⟩
    exact ⟨(hkey (.insert .zero)).1, by omega⟩

/-- The counts after a grant. -/
def granted (command : GrantCreditCommand) (d : Database) : GrantCreditCommandResult where
  totalGrantedCount := ((d.balance command.userId).granted command.amount).totalGrantedCount
  remainingCount := ((d.balance command.userId).granted command.amount).remainingCount

/-- The write of a grant: the transaction, and the row of its user. -/
def write (command : GrantCreditCommand) (ids : CreditIds) (d : Database) : Database :=
  (((d.insertOutbox [command.outboxRow ids]).insertTransaction
    (transaction command ids)).setUserCredit command.userId
    (some ((d.balance command.userId).granted command.amount)))

theorem reasonActionPair_transaction (hreason : command.reason ≠ .ocrUsage) :
    (transaction command ids).reasonActionPair = true := by
  simp only [CreditTransaction.reasonActionPair, transaction, appendTransaction]
  rcases hr : command.reason with - | - | -
  · rfl
  · rfl
  · exact absurd hr hreason

theorem row_pendingFor (record : Option CreditBalance)
    (row : CreditBalance) : (pendingFor record row).row = row := by
  rcases record with - | seen <;> rfl

/-- A grant changes the row. -/
theorem granted_ne {seen : CreditBalance} (amount : CreditAmount) : seen.granted amount ≠ seen := by
  intro hrow
  have hamount := amount.one_le
  have htotal := congrArg CreditBalance.totalGrantedCount hrow
  simp only [CreditBalance.granted] at htotal
  omega

variable {userId : UUID} {row : CreditBalance}

/-- The flush of a changed row that fits inserts it, or updates it if it was seen. -/
theorem flushUserCredit_alone (hne : ∀ seen, v.userCredits userId = some seen → row ≠ seen)
    (hfits : row.fits = true) :
    (flushUserCredit userId (pendingFor (v.userCredits userId) row)).alone Statement.refused v d =
      ⟨.ok (), v.setUserCredit userId (some row), d⟩ := by
  have hrefused :
    (Statement.flushUserCredit userId (pendingFor (v.userCredits userId) row)).refused = false := by
    rw [Statement.refused, row_pendingFor, hfits]
    rfl
  rcases hrecord : v.userCredits userId with - | seen
  · rw [hrecord] at hrefused
    have hnone : ∀ e ∈ [IndexEntry.userCredit userId], v.hasEntry e = false := by
      intro e he
      rw [List.mem_singleton.1 he, Database.hasEntry_userCredit, hrecord]
    refine (alone_insert hrefused hnone).trans ?_
    rw [Database.insertUserCredit, hrecord]
    rfl
  · rw [hrecord] at hrefused
    have hmerge : (mergeCounts seen row seen).map (Database.updateUserCredit userId) =
        .ok (Database.updateUserCredit userId row) := by
      rw [mergeCounts_self]
      rfl
    simp only [pendingFor] at hrefused ⊢
    rw [flushUserCredit, if_neg (hne seen hrecord)]
    refine (alone_update (r := seen) hrefused hrecord hmerge).trans ?_
    rw [Database.updateUserCredit, hrecord]
    rfl

/-- The flush of a changed row that does not fit is refused. -/
theorem flushUserCredit_alone_refused (hne : ∀ seen, v.userCredits userId = some seen → row ≠ seen)
    (hfits : row.fits = false) :
    ∃ s, (flushUserCredit userId (pendingFor (v.userCredits userId) row)).alone
      Statement.refused v d =
      ⟨.error (.fault s), d, d⟩ := by
  have hrefused :
    (Statement.flushUserCredit userId (pendingFor (v.userCredits userId) row)).refused = true := by
    rw [Statement.refused, row_pendingFor, hfits]
    rfl
  rcases hrecord : v.userCredits userId with - | seen
  · rw [hrecord] at hrefused
    exact ⟨_, alone_refused hrefused⟩
  · rw [hrecord] at hrefused
    simp only [pendingFor] at hrefused ⊢
    rw [flushUserCredit, if_neg (hne seen hrecord)]
    exact ⟨_, alone_refused hrefused⟩

/-- What a grant flushes is what it writes, unless a value does not fit. -/
theorem flush_alone (hgranted : ¬Granted command ids v) (hreason : command.reason ≠ .ocrUsage) :
    let row := (v.balance command.userId).granted command.amount
    let pending := pendingFor (v.userCredits command.userId) row
    (Fits command v → (flush (transaction command ids) pending).alone Statement.refused
      (v.insertOutbox [command.outboxRow ids]) d = ⟨.ok (), write command ids v, d⟩) ∧
    (¬Fits command v → ∃ s, (flush (transaction command ids) pending).alone Statement.refused
      (v.insertOutbox [command.outboxRow ids]) d = ⟨.error (.fault s), d, d⟩) := by
  intro row pending
  have hentries : ∀ e ∈ (transaction command ids).entries,
      (v.insertOutbox [command.outboxRow ids]).hasEntry e = false := by
    intro e he
    have hframe := (creditsFrame_id.insertOutbox [command.outboxRow ids]).hasEntry he v
    exact hframe.trans (Bool.eq_false_iff.2 fun h => hgranted ⟨e, he, h⟩)
  -- The row is flushed after the transaction, which inserts no row of `user_credits`.
  have hne : ∀ seen, ((v.insertOutbox [command.outboxRow ids]).insertTransaction
      (transaction command ids)).userCredits command.userId = some seen → row ≠ seen := by
    intro seen (hseen : v.userCredits command.userId = some seen)
    simp only [row, Database.balance, hseen, Option.getD_some]
    exact granted_ne command.amount
  have hfirst (ht : (Statement.flushTransaction (transaction command ids) pending).refused = false) :
      (flush (transaction command ids) pending).alone Statement.refused
        (v.insertOutbox [command.outboxRow ids]) d =
        (flushUserCredit command.userId pending).alone Statement.refused
          ((v.insertOutbox [command.outboxRow ids]).insertTransaction
            (transaction command ids)) d := by
    rw [flush, Prog.bind_eq, insertTransaction, if_pos (reasonActionPair_transaction hreason),
      Prog.alone_bind_ok (alone_insert ht hentries)]
    rfl
  constructor
  · intro hfits
    obtain ⟨ht, hr⟩ := (fits_iff ids).1 hfits
    exact (hfirst (ht pending)).trans (flushUserCredit_alone hne hr)
  · intro hfits
    rcases ht : (Statement.flushTransaction (transaction command ids) pending).refused with - | -
    · rcases hr : row.fits with - | -
      · rw [hfirst ht]
        exact flushUserCredit_alone_refused hne hr
      · exact absurd ((fits_iff ids).2 ⟨fun _ => ht, hr⟩) hfits
    · refine ⟨.flushTransaction (transaction command ids) pending, ?_⟩
      rw [flush, Prog.bind_eq, insertTransaction, Prog.alone_bind_error (alone_refused ht)]

/-- A grant that was not made before runs up to the flush. -/
theorem execute_alone_eq (hgranted : ¬Granted command ids v) :
    let pending :=
  pendingFor (v.userCredits command.userId) ((v.balance command.userId).granted command.amount)
    (execute deferredGrantUnitOfWork command ids).alone Statement.refused v d =
      ((((flushPendingWrites (transaction command ids) pending).bind fun _ =>
        .ret (granted command v)).handle fun
        | .domain .creditTransactionWriteConflict =>
          if !hasIdempotentIdentity command then .raise (.domain .creditTransactionWriteConflict)
          else sessionRollback.bind fun _ => replay command
        | e => .raise e).alone Statement.refused (v.insertOutbox [command.outboxRow ids]) d) := by
  intro pending
  rw [execute, Prog.bind_eq, Prog.alone_bind_ok (isDuplicateGrant_alone ids),
    decide_eq_false hgranted, if_neg Bool.false_ne_true, grant, Prog.bind_eq,
    getUserCreditForUpdate, Prog.bind_eq, Prog.alone_bind,
    Prog.alone_bind_ok (alone_selectForUpdate rfl)]
  simp only [Prog.pure_eq, Prog.alone_ret, UserCredit.grant_eq, Tx.lift, Prog.ret_bind, Prog.bind_eq]
  rw [Prog.alone_bind, save, Prog.bind_eq, Prog.alone_bind_ok (alone_select rfl)]
  simp only [Prog.pure_eq, Prog.alone_ret]
  rw [Prog.alone_bind_ok alone_publish]
  rfl

/-- A grant that was not made before, and fits. -/
theorem execute_alone (hgranted : ¬Granted command ids v) (hreason : command.reason ≠ .ocrUsage)
    (hfits : Fits command v) :
    (execute deferredGrantUnitOfWork command ids).alone Statement.refused v d =
      ⟨.ok (granted command v), write command ids v, d⟩ := by
  have hflush := (flush_alone (d := d) hgranted hreason).1 hfits
  rw [execute_alone_eq hgranted, Prog.alone_handle, flushPendingWrites, Prog.tryCatch_eq,
    Prog.alone_bind, Prog.alone_handle, hflush]
  rfl

/-- A grant that was not made before, and does not fit. -/
theorem execute_alone_refused (hgranted : ¬Granted command ids v)
    (hreason : command.reason ≠ .ocrUsage) (hfits : ¬Fits command v) : ∃ s,
    (execute deferredGrantUnitOfWork command ids).alone Statement.refused v d =
      ⟨.error (.fault s), d, d⟩ := by
  obtain ⟨s, hflush⟩ := (flush_alone (d := d) hgranted hreason).2 hfits
  refine ⟨s, ?_⟩
  rw [execute_alone_eq hgranted, Prog.alone_handle, flushPendingWrites, Prog.tryCatch_eq,
    Prog.alone_bind, Prog.alone_handle, hflush]
  rfl

end GrantCreditCommandUseCase

/-! ## Use -/

section

variable {command : UseCreditCommand} {v d : Database}

/-- A balance that covers the amount is reserved. -/
theorem reserve_alone (hcovers : command.amount.value ≤ (v.balance command.userId).remainingCount) :
    (ReserveCreditCommandUseCase.execute command).alone Statement.refused v d =
      ⟨.ok (pendingFor (v.userCredits command.userId)
        ((v.balance command.userId).spent command.amount hcovers)), v, d⟩ := by
  rw [ReserveCreditCommandUseCase.execute, Prog.bind_eq, getUserCreditForUpdate, Prog.bind_eq,
    Prog.alone_bind, Prog.alone_bind_ok (alone_selectForUpdate rfl)]
  simp only [Prog.pure_eq, Prog.alone_ret, UserCredit.use_eq, userCreditToDomain]
  have hcovers' : command.amount.value ≤
      ((v.userCredits command.userId).getD .zero).remainingCount := hcovers
  rw [dif_pos hcovers', Tx.lift, Prog.bind_eq, Prog.ret_bind, save, Prog.bind_eq,
    Prog.alone_bind_ok (alone_select rfl)]
  rfl

/-- The usage of a reserved amount that fits is written. -/
theorem finalize_alone (hcovers : command.amount.value ≤ (v.balance command.userId).remainingCount)
    (hreason : command.reason = .ocrUsage) (hamount : fitsInteger command.amount.value = true)
    (hfits : ((v.balance command.userId).spent command.amount hcovers).fits = true)
    (ids : CreditIds) :
    ∃ w, (FinalizeCreditUsageCommandUseCase.execute sqlAlchemyUnitOfWork command
      (pendingFor (v.userCredits command.userId)
        ((v.balance command.userId).spent command.amount hcovers)) ids).alone
      Statement.refused v d = ⟨.ok (), w, w⟩ := by
  have hone := command.amount.one_le
  -- There is a row, as the amount is covered.
  obtain ⟨seen, hseen⟩ : ∃ seen, v.userCredits command.userId = some seen := by
    rcases h : v.userCredits command.userId with - | seen
    · simp only [Database.balance, h, Option.getD_none, CreditBalance.zero] at hcovers
      omega
    · exact ⟨seen, rfl⟩
  set row := (v.balance command.userId).spent command.amount hcovers with hrow
  have hne : row ≠ seen := by
    intro h
    have hused := congrArg CreditBalance.usedCount h
    simp only [hrow, CreditBalance.spent, Database.balance, hseen, Option.getD_some] at hused
    omega
  have hpending : pendingFor (v.userCredits command.userId) row = .update seen row := by
    rw [hseen, pendingFor]
  set t := FinalizeCreditUsageCommandUseCase.transaction command ids
  have ht : (Statement.flushTransaction t (.update seen row)).refused = false := by
    simp [Statement.refused, t, FinalizeCreditUsageCommandUseCase.transaction,
      appendTransaction, hamount]
  have hr : (Statement.flushUserCredit command.userId (.update seen row)).refused = false := by
    rw [Statement.refused, PendingUserCredit.row, hfits]
    rfl
  have hpair : t.reasonActionPair = true := by
    simp [CreditTransaction.reasonActionPair, t, FinalizeCreditUsageCommandUseCase.transaction,
      appendTransaction, hreason]
  have hentries (v : Database) : ∀ e ∈ t.entries, v.hasEntry e = false := List.forall_mem_nil _
  have hmerge : (mergeCounts seen row seen).map (Database.updateUserCredit command.userId) =
      .ok (Database.updateUserCredit command.userId row) := by
    rw [mergeCounts_self]
    rfl
  -- The transaction is inserted, and the row updated, as it still is what was read.
  have hflush (v' : Database) (h : v'.userCredits command.userId = some seen) :
      (flush t (.update seen row)).alone Statement.refused v' d =
        ⟨.ok (), Database.updateUserCredit command.userId row
          (Database.insertTransaction t v'), d⟩ := by
    rw [flush, Prog.bind_eq, insertTransaction, if_pos hpair,
      Prog.alone_bind_ok (alone_insert ht (hentries _)), flushUserCredit, if_neg hne]
    exact alone_update (r := seen) hr h hmerge
  rw [hpending, FinalizeCreditUsageCommandUseCase.execute, Prog.bind_eq,
    Prog.alone_bind_ok alone_publish, Prog.bind_eq]
  exact ⟨_, Prog.alone_bind_ok (hflush (v.insertOutbox _) hseen)⟩

end

end Boat
