import Boat.Ocr.Spec

/-!
# OCR: charging

An analysis of a receipt, alone, is charged exactly when it returns a result, whatever
the client does and wherever an exception occurs, and without credit, the client is not
called (`ocr_charging`).
-/

namespace Boat

open ReadCommitted ExtractReceiptOcrCommandUseCase

/-- `d'` is `d` after the charge of one credit: in the snapshot, in the ledger and in the
    outbox. -/
structure Charged (command : ExtractReceiptOcrCommand) (ids : CreditIds)
    (d d' : Database) : Prop where
  snapshot : ∃ b b' : CreditBalance, d.userCredits command.userId = some b ∧
    b'.totalGrantedCount = b.totalGrantedCount ∧ b'.usedCount = b.usedCount + 1 ∧
    b'.remainingCount = b.remainingCount - 1 ∧
    d' = (((d.insertOutbox [⟨ids.stamp.eventId, .credit (.creditUsed command.userId 1 .ocrUsage),
        ids.stamp.occurredAt⟩]).insertTransaction
      ⟨ids.transactionId, command.userId, .ocrUsage, .use, ⟨1, CreditAmount.one_le_one⟩, none,
        none⟩).setUserCredit
        command.userId (some b'))

variable {client : ReceiptOcrClient} {command : ExtractReceiptOcrCommand} {clock : OcrClock}
  {ids : CreditIds} {d : Database} {s : System Unit Database Statement Error ReceiptOcrResult}

/-- The transaction of an analysis can only be posted for a user with credit. -/
theorem Posted.charged {d' : Database}
    (h : Posted True (command.transaction ids) [command.outboxRow ids] d d') :
    Charged command ids d d' := by
  obtain ⟨o, rfl, ho⟩ := h.eq
  obtain ⟨b', rfl, htotal, hused⟩ := ho trivial
  have hused : b'.usedCount = (d.balance command.userId).usedCount + 1 := hused
  have htotal : b'.totalGrantedCount = (d.balance command.userId).totalGrantedCount := htotal
  have hb' := b'.consistent
  cases hb : d.userCredits command.userId with
  | none =>
    rw [Database.balance, hb, Option.getD_none] at htotal hused
    have := b'.remaining_nonneg
    simp only [CreditBalance.zero] at htotal hused
    omega
  | some b =>
    rw [Database.balance, hb, Option.getD_some] at htotal hused
    have := b.consistent
    exact ⟨b, b', hb, htotal, hused, by omega, rfl⟩

/-- The protocol of a session alone: anything may be committed. -/
def alone : Protocol Unit Database LockKey Statement where
  inv _ := True
  guar _ _ _ _ := True
  cond := Always

/-- An analysis returns exactly if it is charged: when it has returned, one credit has
    been charged, and when it has raised, the database is as it was. -/
theorem ocr_charged (hs : Reach Always (System.init
    (fun _ => execute sqlAlchemyUnitOfWork client command clock ids) d) s) :
    (∀ r, s.returned () = some r → Charged command ids d s.store) ∧
      ∀ e, s.raised () = some e → s.store = d := by
  have hmeets : alone.Meets (fun _ => execute sqlAlchemyUnitOfWork client command clock ids) d
      (fun _ _ d' => Charged command ids d d') (fun _ _ d' => d' = d) :=
    { inv := trivial
      wp := fun i => wp_extractReceiptOcr (fun e d' hi => hi.eq) fun ks' d₁ d₂ hi _ hpost =>
        ⟨trivial, trivial, fun _ => hi.eq ▸ hpost.charged⟩
      stable_ret := fun _ _ d₁ d₂ h hd => (Protocol.Interf.eq (.single h) : d₂ = d₁) ▸ hd
      stable_raise := fun _ _ d₁ d₂ h hd => (Protocol.Interf.eq (.single h) : d₂ = d₁) ▸ hd }
  obtain ⟨_, hret, hraise⟩ := hmeets.sound hs
  exact ⟨fun r => hret () r, fun e => hraise () e⟩

variable (client command clock ids) in
/-- The first statement of an analysis reads the balance. Without credit, it is the last. -/
theorem execute_first : ∃ act next,
    execute sqlAlchemyUnitOfWork client command clock ids =
      .stmt (.getUserCreditForUpdate command.userId) act next ∧
    (∃ e, next none = .raise e) ∧
    ∀ v, (v.balance command.userId).remainingCount = 0 → ∃ e, next (some v) = .raise e := by
  refine ⟨_, _, rfl, ⟨_, rfl⟩, fun v hv => ⟨.domain .insufficientCredit, ?_⟩⟩
  have huse : (userCreditToDomain (v.userCredits command.userId) command.userId).use
      (useCreditCommand command).amount = .error .insufficientCredit := by
    have hle : ¬(1 : ℤ) ≤
        (userCreditToDomain (v.userCredits command.userId)
          command.userId).balance.remainingCount := by
      have : (userCreditToDomain (v.userCredits command.userId)
          command.userId).balance.remainingCount = 0 := hv
      rw [this]
      decide
    rw [UserCredit.use_eq]
    exact dif_neg hle
  have hid : (useCreditCommand command).userId = command.userId := rfl
  simp only [Command.query_run, Prog.ret_bind, Prog.pure_eq, Prog.bind_eq, hid, huse, Tx.lift,
    Prog.raise_bind]

/-- Without credit, an analysis is at its start, or it has raised or crashed. -/
theorem execute_start (h₀ : (d.balance command.userId).remainingCount = 0) (hs : Reach Always
    (System.init (fun _ => execute sqlAlchemyUnitOfWork client command clock ids) d) s) :
    s.store = d ∧
    ((s.session ()) = .idle (some (execute sqlAlchemyUnitOfWork client command clock ids)) ∨
      ∀ p, (s.session ()).prog = some p → ∃ e, p = .raise e) := by
  obtain ⟨act, next, heq, hnone, hsome⟩ := execute_first client command clock ids
  rw [heq] at hs ⊢
  induction hs with
  | refl => exact ⟨rfl, .inl rfl⟩
  | step _ hst ih =>
    obtain ⟨hd, h⟩ := ih
    cases hst with
    | stmt hp =>
      -- The first statement finds that there is no credit, and the use case raises; after it, there
      -- is no step but the end.
      rcases h with h | h
      · cases h.symm.trans hp
        refine ⟨hd, .inr fun p hp => ?_⟩
        rw [System.set_session_self] at hp
        cases hp
        exact hsome _ (hd ▸ h₀)
      · obtain ⟨e, he⟩ := h _ (by rw [hp])
        cases he
    | stmt_fail hp | interrupt hp =>
      rcases h with h | h
      · cases h.symm.trans hp
        refine ⟨hd, .inr fun p hp => ?_⟩
        rw [System.set_session_self] at hp
        cases hp
        exact hnone
      · obtain ⟨e, he⟩ := h _ (by rw [hp])
        cases he
    | commit hp | commit_fail hp | rollback hp | rollback_fail hp =>
      rcases h with h | h
      · cases h.symm.trans hp
      · obtain ⟨e, he⟩ := h _ (by rw [hp])
        cases he
    | crash hp => exact ⟨hd, .inr fun p hp => by rw [System.set_session_self] at hp; cases hp⟩
    | close hp he =>
      refine ⟨hd, .inr fun p hp' => ?_⟩
      rw [System.set_session_self] at hp'
      cases hp'
      rcases h with h | h
      · cases h.symm.trans hp
        exact he.elim
      · exact h _ (by rw [hp])

/-- Without credit, an analysis never gets to the call of the client. -/
theorem ocr_uncalled (h₀ : (d.balance command.userId).remainingCount = 0) (hs : Reach Always
    (System.init (fun _ => execute sqlAlchemyUnitOfWork client command clock ids) d) s) :
    ∀ act next, (s.session ()).prog ≠ some (.stmt .callOcrClient act next) := by
  intro act next h
  obtain ⟨_, hs | hs⟩ := execute_start h₀ hs
  · obtain ⟨act', next', heq, _⟩ := execute_first client command clock ids
    rw [hs, heq] at h
    cases h
  · obtain ⟨e, he⟩ := hs _ h
    cases he

/-- An analysis that returns is charged, one that raises is not, and without credit the
    client is not called. -/
theorem ocr_charging (hs : Reach Always (System.init
    (fun _ => execute sqlAlchemyUnitOfWork client command clock ids) d) s) :
    (∀ r, s.returned () = some r → Charged command ids d s.store) ∧
    (∀ e, s.raised () = some e → s.store = d) ∧
    ((d.balance command.userId).remainingCount = 0 →
      ∀ act next, (s.session ()).prog ≠ some (.stmt .callOcrClient act next)) :=
  ⟨(ocr_charged hs).1, (ocr_charged hs).2, fun h₀ => ocr_uncalled h₀ hs⟩

/-- A client that reads a receipt on the first image. -/
def readableClient : ReceiptOcrClient := fun _ => .ok {
  itemName := some "TV", brandName := none, serialNumber := none, paymentLocation := none
  paymentDate := none, totalAmount := some 100, periodMonths := none, category := none
  subCategory := none, transactionEvidence :=
    some ⟨true, true, true, true⟩, receiptFileIndexes := [0] }

/-- The analysis of a receipt by a user with one credit. -/
theorem ocr_charging_readable :
    let command : ExtractReceiptOcrCommand := ⟨.ofNat 1, [⟨0, [], "image/png"⟩]⟩
    let today : Date := ⟨2026, 7, 1, by decide⟩
    let ids : CreditIds := ⟨.ofNat 2, ⟨.ofNat 3, 0⟩⟩
    let d := Database.empty.setUserCredit (.ofNat 1)
      (some (CreditBalance.zero.granted ⟨1, CreditAmount.one_le_one⟩))
    ∃ s, Reach Always
      (System.init (fun _ : Unit => execute sqlAlchemyUnitOfWork readableClient command
      ⟨today, today⟩ ids) d) s ∧ (s.returned ()).isSome ∧ Charged command ids d s.store := by
  intro command today ids d
  obtain ⟨s, hs, hret⟩ := System.exists_reach (C := Always)
    (s := System.init (fun _ : Unit => execute sqlAlchemyUnitOfWork readableClient command
      ⟨today, today⟩ ids) d)
    (p := fun s => (s.returned ()).isSome) (List.replicate 7 (.run ())) (by decide +kernel)
  obtain ⟨r, hr⟩ := Option.isSome_iff_exists.1 hret
  exact ⟨s, hs, hret, (ocr_charging hs).1 r hr⟩

end Boat
