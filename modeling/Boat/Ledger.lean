import Boat.Requests
import Mathlib.Algebra.Ring.Int.Defs

/-!
# The ledger and the snapshot

`user_credits` is a snapshot of the ledger `credit_transactions`: its counts should be
the sums of the amounts of the transactions (`Database.Agrees`). What the one has more
than the other (`Database.drift`) stays the same when a transaction is posted with a
current snapshot (`Posted.drift`).

* `ledger_agrees`: starting without credits, the ledger and the snapshot agree, in all
  runs that do not flush a stale snapshot; `ledger_disagrees`: there are others.
-/

namespace Boat

open ReadCommitted

/-- The sum of the amounts of the grants, or the uses, of a user. -/
def ledgerSum (ledger : List CreditTransaction) (action : CreditAction) (u : UUID) : ℤ :=
  ((ledger.filter fun t => t.userId = u ∧ t.action = action).map (·.amount.value)).sum

theorem ledgerSum_append (l l' : List CreditTransaction) (action : CreditAction) (u : UUID) :
    ledgerSum (l ++ l') action u = ledgerSum l action u + ledgerSum l' action u := by
  simp only [ledgerSum, List.filter_append, List.map_append, List.sum_append]

theorem ledgerSum_of_ne {l : List CreditTransaction} {action : CreditAction}
    (h : ∀ t ∈ l, t.action ≠ action) (u : UUID) : ledgerSum l action u = 0 := by
  have : (l.filter fun t => t.userId = u ∧ t.action = action) = [] := by
    refine List.filter_eq_nil_iff.2 fun t ht => ?_
    simp [h t ht]
  rw [ledgerSum, this, List.map_nil, List.sum_nil]

namespace Database

/-- The sums of the ledger. -/
def sum (d : Database) (action : CreditAction) (u : UUID) : ℤ :=
  ledgerSum d.creditTransactions action u

/-- The snapshot of a user agrees with the ledger. -/
structure Agrees (d : Database) (u : UUID) : Prop where
  totalGrantedCount : (d.balance u).totalGrantedCount = d.sum .grant u
  usedCount : (d.balance u).usedCount = d.sum .use u
  remainingCount :
    (d.balance u).remainingCount = (d.balance u).totalGrantedCount - (d.balance u).usedCount
  remaining_nonneg : 0 ≤ (d.balance u).remainingCount

instance (d : Database) (u : UUID) : Decidable (d.Agrees u) :=
  decidable_of_iff ((d.balance u).totalGrantedCount = d.sum .grant u ∧
    (d.balance u).usedCount = d.sum .use u ∧
    (d.balance u).remainingCount = (d.balance u).totalGrantedCount - (d.balance u).usedCount ∧
    0 ≤ (d.balance u).remainingCount)
    ⟨fun ⟨h₁, h₂, h₃, h₄⟩ => ⟨h₁, h₂, h₃, h₄⟩, fun ⟨h₁, h₂, h₃, h₄⟩ => ⟨h₁, h₂, h₃, h₄⟩⟩

/-- What the snapshot of a user has more than the ledger: granted, and used. -/
def drift (d : Database) (u : UUID) : ℤ × ℤ :=
  ((d.balance u).totalGrantedCount - d.sum .grant u, (d.balance u).usedCount - d.sum .use u)

theorem agrees_iff {d : Database} {u : UUID} : d.Agrees u ↔ d.drift u = (0, 0) := by
  have hc := (d.balance u).consistent
  constructor
  · rintro ⟨h₁, h₂, _, _⟩
    rw [drift, h₁, h₂, sub_self, sub_self]
  · intro h
    rw [drift, Prod.mk.injEq, sub_eq_zero, sub_eq_zero] at h
    exact ⟨h.1, h.2, by omega, (d.balance u).remaining_nonneg⟩

theorem sum_insertTransaction (d : Database) (t : CreditTransaction) (action : CreditAction)
    (u : UUID) :
    (d.insertTransaction t).sum action u =
      d.sum action u + if t.userId = u ∧ t.action = action then t.amount.value else 0 := by
  rw [sum, insertTransaction, ledgerSum_append, sum]
  by_cases h : t.userId = u ∧ t.action = action <;> simp [ledgerSum, h]

theorem balance_setUserCredit (d : Database) (u v : UUID) (o : Option CreditBalance) :
    (d.setUserCredit u o).balance v = if v = u then o.getD .zero else d.balance v := by
  rw [balance, userCredits_setUserCredit]
  split <;> rfl

/-- The drift depends on the tables of the credits module only. -/
theorem drift_congr {d d' : Database} (hu : d'.userCredits = d.userCredits)
    (ht : d'.creditTransactions = d.creditTransactions) (u : UUID) : d'.drift u = d.drift u := by
  simp only [drift, balance, sum, hu, ht]

end Database

/-- Posting a transaction with a current snapshot changes the snapshot and the ledger by
    the same amount. -/
theorem Posted.drift {t : CreditTransaction} {rows : List OutboxEvent} {d d' : Database}
    (h : Posted True t rows d d') (u : UUID) : d'.drift u = d.drift u := by
  obtain ⟨o, rfl, ho⟩ := h.eq
  obtain ⟨b, rfl, hb⟩ := ho trivial
  have hsum (action : CreditAction) :
      (((d.insertOutbox rows).insertTransaction t).setUserCredit t.userId (some b)).sum action u =
        d.sum action u + if t.userId = u ∧ t.action = action then t.amount.value else 0 :=
    Database.sum_insertTransaction d t action u
  rw [Database.drift, hsum, hsum, Database.balance_setUserCredit]
  by_cases hu : u = t.userId
  · subst hu
    unfold CreditTransaction.Books at hb
    cases ha : t.action <;> simp only [ha] at hb <;> simp [Database.drift, hb]
  · simp [Database.drift, hu, Ne.symm hu]
    exact ⟨rfl, rfl⟩

/-- No request but a withdrawal changes the drift, if its snapshots are current. -/
theorem Request.Change.drift [CaseFolding] {r : Request} {sure : Prop} {ks : List LockKey}
    {d d' : Database} (h : r.Change True sure ks d d') (hr : ∀ u stamp, r ≠ .withdraw u stamp)
    (u : UUID) :
    d'.drift u = d.drift u := by
  cases h with
  | posted _ h => exact (h.of_exact fun _ => .inr trivial).drift u
  | @redeemed x now ids _ _ _ h =>
    have hx : (x.write d).drift u = d.drift u := Database.drift_congr
      (x.creditsFrame_write.userCredits d) (x.creditsFrame_write.creditTransactions d) u
    cases h with
    | granted _ h => rw [h.drift u, hx]
    | ungranted => exact hx
  | nothing => rfl
  | withdrawn h => exact absurd h (hr _ _)

section

variable {ι : Type} [CaseFolding]

/-- The condition of the runs in which snapshots are current. -/
def Current : Condition ι Database LockKey Statement := fun _ s d ks => s.Current d ks

instance (i : ι) (s : Statement) (d : Database) (ks : List LockKey) : Decidable (Current i s d ks) :=
  inferInstanceAs (Decidable (s.Current d ks))

variable [DecidableEq ι] {req : ι → Request} {d : Database}
  {s : System ι Database Statement Error Response}

/-- The drift stays the same in all runs in which snapshots are current. -/
theorem drift_eq (hreq : ∀ i u stamp, req i ≠ .withdraw u stamp)
    (hs : Reach Current (System.init (fun i => (req i).prog) d) s) (u : UUID) :
    s.store.drift u = d.drift u := by
  have h : Bills (fun d' => ∀ u, d'.drift u = d.drift u) (fun _ => True)
      (fun _ => False) Current req d
        (fun _ _ _ => True) (fun _ _ _ => True) :=
    .of_inv (fun _ => rfl) (fun i ks d₁ d₂ hd₁ hc u => (hc.drift (hreq i) u).trans (hd₁ u))
      (fun i _ t d pending ks hc => hc) fun _ h => h.elim
  exact (h.meets.sound hs).1 u

/-- Starting without credits, the ledger and the snapshot agree, for any grants, usages
    and redemptions, in all runs in which snapshots are current. -/
theorem ledger_agrees (hreq : ∀ i u stamp, req i ≠ .withdraw u stamp)
    (hu : ∀ u, d.userCredits u = none) (ht : d.creditTransactions = [])
    (hs : Reach Current (System.init (fun i => (req i).prog) d) s) (u : UUID) : s.store.Agrees u := by
  rw [Database.agrees_iff, drift_eq hreq hs u]
  simp [Database.drift, Database.balance, Database.sum, ledgerSum, hu, ht, CreditBalance.zero]

end

/-- Two grants to a user without credits, with sources and keys by number. -/
def firstGrant (source key : Bool → Option ℕ) (i : Bool) : GrantCreditCommand where
  userId := .ofNat 1
  amount := ⟨if i then 5 else 10, by cases i <;> decide⟩
  reason := .monthlyOcrAllowance
  source := (source i).map fun n => ⟨.monthlyAllowance, .ofNat n⟩
  idempotencyKey := (key i).map toString

/-- The identities of their transactions and events. -/
def firstGrantIds (i : Bool) : CreditIds where
  transactionId := .ofNat (if i then 10 else 20)
  stamp := ⟨.ofNat (if i then 11 else 21), 0⟩

/-- Grants, as requests. -/
def grants {ι : Type} (commands : ι → GrantCreditCommand) (ids : ι → CreditIds) (i : ι) : Request :=
  .grantCredit (commands i) (ids i)

/-- Two grants without sources and keys. -/
def anonymousGrants : Bool → Request :=
  grants (firstGrant (fun _ => none) fun _ => none) firstGrantIds

/-- One after the other, the two grants agree with the ledger. -/
theorem ledger_agrees_anonymousGrants : letI := CaseFolding.ascii
    ∃ s, Reach Current (System.init (fun i => (anonymousGrants i).prog) .empty) s ∧
      s.store.sum .grant (.ofNat 1) = 15 ∧ s.store.Agrees (.ofNat 1) := by
  let _ := CaseFolding.ascii
  obtain ⟨s, hs, hsum⟩ := System.exists_reach (C := Current)
    (s := System.init (fun i => (anonymousGrants i).prog) .empty)
    (p := fun s => s.store.sum .grant (.ofNat 1) = 15)
    (List.replicate 6 (.run true) ++ List.replicate 6 (.run false)) (by decide +kernel)
  refine ⟨s, hs, hsum, ledger_agrees (fun i u stamp h => ?_) (fun _ => rfl) rfl hs _⟩
  cases h

/-- A grant that finds no row to lock reads the row of another grant, and overwrites it. -/
theorem ledger_disagrees : letI := CaseFolding.ascii
    ∃ s, Reach Always (System.init (fun i => (anonymousGrants i).prog) .empty) s ∧
      ¬s.store.Agrees (.ofNat 1) := by
  let _ := CaseFolding.ascii
  exact System.exists_reach
    (.run true :: List.replicate 6 (.run false) ++ List.replicate 5 (.run true))
    (by decide +kernel)

end Boat
