import Boat.Ledger

/-!
# Concurrent grants

Whether grants of credit that run at the same time are all credited. A grant that
returns has entered its transaction in the ledger and raised the snapshot, or has found
a transaction with its key or its source (`grant_credited`), in all runs in which
snapshots are current and the flush of a first row meets no other.

Without the condition, the first grants to a user are in conflict in the primary key of
`user_credits`, and one of them is taken for a replay of the other (`grant_lost`).
-/

namespace Boat

open ReadCommitted GrantCreditCommandUseCase

/-- A transaction is a grant with the key or the source of the command. -/
def GrantCreditCommand.Granted (command : GrantCreditCommand) (t : CreditTransaction) : Prop :=
  t.action = .grant ∧
    (command.idempotencyKey.isSome ∧ t.idempotencyKey = command.idempotencyKey ∨
      command.source.isSome ∧ t.source = command.source ∧ t.userId = command.userId)

instance (command : GrantCreditCommand) (t : CreditTransaction) : Decidable (command.Granted t) :=
  inferInstanceAs (Decidable (_ ∧ _))

/-- The identities of the transactions are fresh. -/
structure FreshTransactions {ι : Type} (ids : ι → CreditIds) (d : Database) : Prop where
  inj : ∀ i j, (ids i).transactionId = (ids j).transactionId → i = j
  new : ∀ i, ∀ t ∈ d.creditTransactions, t.id ≠ (ids i).transactionId

/-- A transaction with an entry of a grant, of a ledger in which only grants have keys,
    is a grant with its key or its source. -/
theorem GrantCreditCommand.granted_of_entry {command : GrantCreditCommand} {ids : CreditIds}
    {d : Database} (hd : ∀ t ∈ d.creditTransactions, t.action = .use → t.idempotencyKey = none)
    {e : IndexEntry} (he : e ∈ (transaction command ids).entries) (h : d.hasEntry e = true) :
    ∃ t ∈ d.creditTransactions, command.Granted t := by
  rcases List.mem_append.1 he with he | he
  · cases hk : command.idempotencyKey with
    | none => simp [transaction, SqlAlchemyCreditRepository.appendTransaction, hk] at he
    | some key =>
      obtain rfl : e = .transactionKey key := by
        simpa [transaction, SqlAlchemyCreditRepository.appendTransaction, hk] using he
      rw [hasEntry_transactionKey, List.any_eq_true] at h
      obtain ⟨t, ht, hkey⟩ := h
      have hkey : t.idempotencyKey = some key := by simpa using hkey
      refine ⟨t, ht, ?_, .inl ⟨by simp [hk], hkey.trans hk.symm⟩⟩
      cases ha : t.action with
      | grant => rfl
      | use => rw [hd t ht ha] at hkey; cases hkey
  · cases hs : command.source with
    | none => simp [transaction, SqlAlchemyCreditRepository.appendTransaction, hs] at he
    | some source =>
      obtain rfl : e = .transactionSource source command.userId .grant := by
        simpa [transaction, SqlAlchemyCreditRepository.appendTransaction, hs] using he
      rw [hasEntry_transactionSource, List.any_eq_true] at h
      obtain ⟨t, ht, hsource⟩ := h
      obtain ⟨hsource, hu, ha⟩ : t.source = some source ∧ t.userId = command.userId ∧
          t.action = .grant := by simpa using hsource
      exact ⟨t, ht, ha, .inr ⟨by simp [hs], hsource.trans hs.symm, hu⟩⟩

section

variable {ι : Type} [CaseFolding]

/-- The condition of the runs in which snapshots are current, and the first row of a
    user is inserted when there is none. -/
def CurrentFirst : Condition ι Database LockKey Statement :=
  fun _ s d ks => s.Current d ks ∧ s.FirstRow d

instance (i : ι) (s : Statement) (d : Database) (ks : List LockKey) :
    Decidable (CurrentFirst i s d ks) := inferInstanceAs (Decidable (_ ∧ _))

variable {commands : ι → GrantCreditCommand} {ids : ι → CreditIds}

/-- A grant posts its transaction. -/
theorem Request.Change.grants {i : ι} {exact sure : Prop} {ks : List LockKey} {d d' : Database}
    (h : (grants commands ids i).Change exact sure ks d d') :
    d'.creditTransactions = d.creditTransactions ++ [transaction (commands i) (ids i)] := by
  cases h with
  | posted ht h =>
    obtain ⟨rfl, rfl⟩ := ht
    obtain ⟨o, rfl, _⟩ := h.eq
    rfl
  | redeemed h | nothing h => exact h.elim
  | withdrawn h => cases h

variable {d : Database} {s : System ι Database Statement Error Response}

/-- What grants keep of the store `d` that they start from: what the snapshot has more
    than the ledger, and the ledger, to which they add grants. -/
structure GrantsSince (d d' : Database) : Prop where
  drift : ∀ u, d'.drift u = d.drift u
  ledger : ∃ new, d'.creditTransactions = d.creditTransactions ++ new ∧ ∀ t ∈ new, t.action = .grant

/-- What a grant that returns has left in the ledger. -/
def Credited (commands : ι → GrantCreditCommand) (ids : ι → CreditIds) (i : ι)
    (d : Database) : Prop :=
  transaction (commands i) (ids i) ∈ d.creditTransactions ∨
    ∃ t ∈ d.creditTransactions, t.id ≠ (ids i).transactionId ∧ (commands i).Granted t

theorem grants_bills (hids : FreshTransactions ids d)
    (hkeys : ∀ t ∈ d.creditTransactions, t.action = .use → t.idempotencyKey = none) :
    Bills (GrantsSince d) (fun _ => True) (fun _ => False) CurrentFirst (grants commands ids) d
      (fun i _ => Credited commands ids i) (fun _ _ _ => True) where
  init := ⟨fun _ => rfl, [], (List.append_nil _).symm, by simp⟩
  keeps i ks d₁ d₂ hd₁ hc := by
    obtain ⟨new, hnew, hgrant⟩ := hd₁.ledger
    refine ⟨fun u => (hc.drift (by simp [grants]) u).trans (hd₁.drift u),
      new ++ [transaction (commands i) (ids i)], ?_, fun t ht => ?_⟩
    · rw [hc.grants, hnew, List.append_assoc]
    · rcases List.mem_append.1 ht with ht | ht
      · exact hgrant t ht
      · rw [List.mem_singleton.1 ht]
        rfl
  current _ _ t d pending ks hc := hc.1
  unhindered _ h := h.elim
  raises _ _ := trivial
  returns i ks d₁ d₂ _ _ hc := by
    refine ⟨fun _ _ => .inl ?_, fun _ => trivial⟩
    rw [hc.grants]
    exact List.mem_append_right _ (List.mem_singleton_self _)
  replays i d₁ a hi hd₁ hr := by
    -- The grant has not been made by itself so far.
    have hnew : ∀ t ∈ d₁.creditTransactions, t.id ≠ (ids i).transactionId := by
      refine hi.keeps (p := fun d => ∀ t ∈ d.creditTransactions, t.id ≠ (ids i).transactionId)
        (fun d d' h hd => ?_) (hids.new i)
      obtain ⟨j, _, hj, _, _, _, hc, _⟩ := h
      rw [Request.Change.grants hc]
      intro t ht
      rcases List.mem_append.1 ht with ht | ht
      · exact hd t ht
      · rw [List.mem_singleton.1 ht]
        exact fun h => hj (hids.inj j i h)
    have hkeys₁ : ∀ t ∈ d₁.creditTransactions, t.action = .use → t.idempotencyKey = none := by
      obtain ⟨new, hnew, hgrant⟩ := hd₁.ledger
      rw [hnew]
      intro t ht ha
      rcases List.mem_append.1 ht with ht | ht
      · exact hkeys t ht ha
      · rw [hgrant t ht] at ha
        cases ha
    cases a with
    | granted result =>
      obtain ⟨pending, ⟨e, he, hentry, _⟩ | ⟨b, ks, _, hcond, hrow⟩⟩ := hr
      · obtain ⟨t, ht, hsame⟩ := GrantCreditCommand.granted_of_entry hkeys₁ he hentry
        exact .inr ⟨t, ht, hnew t ht, hsame⟩
      · subst_vars
        exact absurd hcond.2 hrow
    | used | analyzed | redeemed | signedUp | withdrawn => exact hr.elim
  stable_ret i a d₁ d₂ h hd₁ := by
    obtain ⟨j, _, _, _, _, _, hc, _⟩ := h
    have hmem {t : CreditTransaction} (ht : t ∈ d₁.creditTransactions) :
        t ∈ d₂.creditTransactions := by
      rw [Request.Change.grants hc]
      exact List.mem_append_left _ ht
    rcases hd₁ with h | ⟨t, ht, h⟩
    · exact .inl (hmem h)
    · exact .inr ⟨t, hmem ht, h⟩
  stable_raise _ _ _ _ _ _ := trivial

variable [DecidableEq ι] in
/-- Every grant that has returned is credited: the snapshot has been raised by the new
    transactions in the ledger, and the transaction of the grant is one of them, or there
    is a transaction of another grant with its key or its source. -/
theorem grant_credited (hids : FreshTransactions ids d)
    (hkeys : ∀ t ∈ d.creditTransactions, t.action = .use → t.idempotencyKey = none)
    (hs : Reach CurrentFirst (System.init (fun i => (grants commands ids i).prog) d) s) :
    ∃ new, s.store.creditTransactions = d.creditTransactions ++ new ∧
      (∀ u,
        (s.store.balance u).totalGrantedCount =
          (d.balance u).totalGrantedCount + ledgerSum new .grant u ∧
        (s.store.balance u).remainingCount =
          (d.balance u).remainingCount + ledgerSum new .grant u) ∧
      ∀ i r, s.returned i = some r → transaction (commands i) (ids i) ∈ new ∨
        ∃ t ∈ s.store.creditTransactions, t.id ≠ (ids i).transactionId ∧ (commands i).Granted t := by
  obtain ⟨⟨hdrift, new, hnew, hgrant⟩, hret, _⟩ := (grants_bills hids hkeys).meets.sound hs
  refine ⟨new, hnew, fun u => ?_, fun i r hr => ?_⟩
  · have huse : ledgerSum new .use u = 0 := ledgerSum_of_ne (fun t ht => by simp [hgrant t ht]) u
    have hd := hdrift u
    rw [Database.drift, Database.drift, Prod.mk.injEq, Database.sum, Database.sum, Database.sum,
      Database.sum, hnew, ledgerSum_append, ledgerSum_append, huse] at hd
    have hc := (d.balance u).consistent
    have hc' := (s.store.balance u).consistent
    omega
  · refine (hret i r hr).imp_left fun h => ?_
    rw [hnew] at h
    rcases List.mem_append.1 h with h | h
    · exact absurd rfl (hids.new i _ h)
    · exact h

end

/-- A grant that follows another one with its key. -/
theorem grant_credited_sameKey : letI := CaseFolding.ascii
    let commands := firstGrant (fun i => some (if i then 2 else 3)) fun _ => some 1
    ∃ s r, Reach CurrentFirst
      (System.init (fun i => (grants commands firstGrantIds i).prog) .empty) s ∧
      s.returned false = some r ∧ ∃ t ∈ s.store.creditTransactions,
        t.id ≠ (firstGrantIds false).transactionId ∧ (commands false).Granted t := by
  let _ := CaseFolding.ascii
  intro commands
  obtain ⟨s, hs, hret, hnew⟩ := System.exists_reach (C := CurrentFirst)
    (s := System.init (fun i => (grants commands firstGrantIds i).prog) .empty)
    (p := fun s => (s.returned false).isSome ∧
      transaction (commands false) (firstGrantIds false) ∉ s.store.creditTransactions)
    (List.replicate 8 (.run true) ++ List.replicate 2 (.run false)) (by decide +kernel)
  obtain ⟨r, hr⟩ := Option.isSome_iff_exists.1 hret
  refine ⟨s, r, hs, hr, ?_⟩
  obtain ⟨new, hct, _, h⟩ := grant_credited ⟨by decide, by simp [Database.empty]⟩
    (by simp [Database.empty]) hs
  refine (h false r hr).resolve_left fun h => hnew ?_
  rw [hct]
  exact List.mem_append_right _ h

/-- A first grant that meets another one returns, but is not credited. -/
theorem grant_lost : letI := CaseFolding.ascii
    let commands := firstGrant (fun i => some (if i then 2 else 3)) fun i => some (if i then 4 else 5)
    ∃ s, Reach Always (System.init (fun i => (grants commands firstGrantIds i).prog) .empty) s ∧
      (s.returned true).isSome ∧
        ¬(transaction (commands true) (firstGrantIds true) ∈ s.store.creditTransactions ∨
        ∃ t ∈ s.store.creditTransactions, t.id ≠ (firstGrantIds true).transactionId ∧
          (commands true).Granted t) := by
  let _ := CaseFolding.ascii
  exact System.exists_reach
    (List.replicate 4 (.run true) ++ List.replicate 8 (.run false) ++ List.replicate 6 (.run true))
    (by decide +kernel)

end Boat
