import Boat.Requests

/-!
# Bystanders

What the requests of one user leave of the credits of another: each writes rows of
`user_credits` and `credit_transactions` of its own user only (`Request.writes_prog`).
-/

namespace Boat

open ReadCommitted SqlAlchemyCreditRepository SqlAlchemyPromotionRepository
  PromotionRedemptionExecutor

/-- The credits of the user are the same in both stores. -/
structure SameCredits (owner : UUID) (d d' : Database) : Prop where
  snapshot : d'.userCredits owner = d.userCredits owner
  ledger : d'.creditTransactions.filter (·.userId = owner) =
    d.creditTransactions.filter (·.userId = owner)

theorem SameCredits.refl (owner : UUID) (d : Database) : SameCredits owner d d := ⟨rfl, rfl⟩

theorem SameCredits.trans {owner : UUID} {d d' d'' : Database} (h : SameCredits owner d d')
    (h' : SameCredits owner d' d'') : SameCredits owner d d'' :=
  ⟨h'.snapshot.trans h.snapshot, h'.ledger.trans h.ledger⟩

/-- The write leaves the credits of the user alone. -/
def LeavesCredits (owner : UUID) (w : Database → Database) : Prop := ∀ d, SameCredits owner d (w d)

variable {owner : UUID}

/-! ## Writes -/

theorem leavesCredits_id : LeavesCredits owner id := SameCredits.refl owner

theorem CreditsFrame.leavesCredits {w : Database → Database}
    (hw : CreditsFrame w) : LeavesCredits owner w := fun d =>
  ⟨by rw [hw.userCredits], by rw [hw.creditTransactions]⟩

theorem leavesCredits_insertTransaction {t : CreditTransaction} (ht : t.userId ≠ owner) :
    LeavesCredits owner (Database.insertTransaction t) := fun d =>
  ⟨rfl, by simp [Database.insertTransaction, ht]⟩

theorem leavesCredits_setUserCredit {other : UUID} {w : Database → Database} (h : other ≠ owner)
    (hw : ∀ d, ∃ o, w d = d.setUserCredit other o) : LeavesCredits owner w := by
  intro d
  obtain ⟨o, hd⟩ := hw d
  rw [hd]
  exact ⟨Function.update_of_ne h.symm .., rfl⟩

theorem leavesCredits_deleteTransactions {found : List CreditTransaction}
    (h : ∀ t ∈ found, t.userId ≠ owner) :
    LeavesCredits owner (Database.deleteTransactions found) := by
  refine fun d => ⟨rfl, ?_⟩
  rw [Database.deleteTransactions, List.filter_filter]
  refine List.filter_congr fun t _ => ?_
  by_cases ht : t.userId = owner
  · simp [ht, show t ∉ found from fun hmem => h t hmem ht]
  · simp [ht]

/-! ## Statements -/

variable {W : (Database → Database) → Prop} {α : Type}

theorem writes_txLift (r : Except DomainError α) : (Tx.lift r).Writes W := by
  cases r with
  | ok a => trivial
  | error e => trivial

theorem writes_select {s : Statement} {f : Database → α} :
    (Tx.select s f).Writes (LeavesCredits owner) :=
  (Prog.within_query leavesCredits_id).2

theorem writes_selectForUpdate {s : Statement} {key : α → RowKey} {f : Database → Option α} :
    (Tx.selectForUpdate s key f).Writes (LeavesCredits owner) :=
  (Prog.within_query leavesCredits_id).2

theorem writes_publish {inj : α → Event} {events : List (Stamped α)} :
    (publish inj events).Writes (LeavesCredits owner) :=
  .exec leavesCredits_id fun v a u h => by
    cases h
    exact (creditsFrame_id.insertOutbox _).leavesCredits

theorem writes_insert {s : Statement} {entries : List IndexEntry} {check : Option Constraint}
    {w : Database → Database} {hw : Touches (entries.map .entry) w} (h : LeavesCredits owner w) :
    (Tx.exec s (insertCommand entries check w hw)).Writes (LeavesCredits owner) := by
  refine .exec leavesCredits_id fun v a u hrun => ?_
  simp only [insertCommand] at hrun
  split at hrun
  · cases hrun
  · cases hrun
  · cases hrun
    exact h

theorem writes_update {ρ : Type} {s : Statement} {key : RowKey} {f : Database → Option ρ}
    {set : ρ → Except Error (Database → Database)}
    {hset : ∀ r w, set r = .ok w → Touches [.row key] w}
    (h : ∀ r w, set r = .ok w → LeavesCredits owner w) :
    (Tx.exec s (updateCommand key f set hset)).Writes (LeavesCredits owner) := by
  refine .exec leavesCredits_id fun v a u hrun => ?_
  simp only [updateCommand] at hrun
  split at hrun
  · cases hrun
  · next r _ =>
    cases hs : set r with
    | error e => simp [hs, Except.map] at hrun
    | ok w =>
      simp only [hs, Except.map, Except.ok.injEq, Prod.mk.injEq, true_and] at hrun
      exact hrun ▸ h r w hs

theorem writes_sessionRollback : sessionRollback.Writes W := by
  rintro (- | -)
  · trivial
  · trivial

/-- A unit of work writes nothing by itself. -/
structure UnitOfWork.Writes (unitOfWork : UnitOfWork) (W : (Database → Database) → Prop) : Prop where
  commit : unitOfWork.commit.Writes W
  rollback : unitOfWork.rollback.Writes W

theorem writes_sqlAlchemyUnitOfWork : sqlAlchemyUnitOfWork.Writes W :=
  ⟨Prog.writes_commitOr _, writes_sessionRollback⟩

theorem writes_deferredGrantUnitOfWork : deferredGrantUnitOfWork.Writes W :=
  ⟨trivial, writes_sessionRollback⟩

theorem writes_deferredCommitUnitOfWork : (deferredCommitUnitOfWork none).Writes W :=
  ⟨trivial, trivial⟩

/-! ## Credits -/

variable {unitOfWork : UnitOfWork} {t : CreditTransaction} {pending : PendingUserCredit}

theorem writes_flush (ht : t.userId ≠ owner) : (flush t pending).Writes (LeavesCredits owner) := by
  refine .bind (writes_insert (leavesCredits_insertTransaction ht)) fun _ => ?_
  rw [flushUserCredit.eq_def]
  split
  · exact writes_insert (leavesCredits_setUserCredit ht fun _ => ⟨_, rfl⟩)
  · split
    · trivial
    · refine writes_update fun current w hset => ?_
      generalize mergeCounts _ _ current = merged at hset
      rcases merged with e | b
      · cases hset
      · cases hset
        exact leavesCredits_setUserCredit ht fun _ => ⟨_, rfl⟩

theorem writes_flushPendingWrites (ht : t.userId ≠ owner) :
    (flushPendingWrites t pending).Writes (LeavesCredits owner) := by
  refine .handle (writes_flush ht) fun e => ?_
  split
  · split
    · trivial
    · trivial
  · trivial

theorem writes_replay {command : GrantCreditCommand} :
    (GrantCreditCommandUseCase.replay command).Writes (LeavesCredits owner) :=
  .bind writes_select fun _ => trivial

theorem writes_grantCredit {command : GrantCreditCommand} {ids : CreditIds}
    (hwork : unitOfWork.Writes (LeavesCredits owner)) (huser : command.userId ≠ owner) :
    (GrantCreditCommandUseCase.execute unitOfWork command ids).Writes (LeavesCredits owner) := by
  have hduplicate :
      (GrantCreditCommandUseCase.isDuplicateGrant command).Writes (LeavesCredits owner) := by
    rw [GrantCreditCommandUseCase.isDuplicateGrant]
    split
    · refine .bind writes_select fun keyExists => ?_
      cases keyExists with
      | true => trivial
      | false =>
        show Prog.Writes (LeavesCredits owner) _
        split
        · trivial
        · exact writes_select
    · split
      · trivial
      · exact writes_select
  refine .bind hduplicate fun duplicate => ?_
  split
  · exact writes_replay
  · refine .bind (.bind writes_selectForUpdate fun _ => trivial) fun _ => .bind
      (writes_txLift _) fun _ => ?_
    refine .bind (.bind writes_select fun _ => trivial) fun pending =>
      .bind writes_publish fun _ => ?_
    refine .handle ?_ fun e => ?_
    · exact .bind (writes_flushPendingWrites huser) fun _ => .bind hwork.commit fun _ => trivial
    · split
      · split
        · trivial
        · exact .bind hwork.rollback fun _ => writes_replay
      · trivial

theorem writes_reserveCredit {command : UseCreditCommand} :
    (ReserveCreditCommandUseCase.execute command).Writes (LeavesCredits owner) :=
  .bind (.bind writes_selectForUpdate fun _ => trivial) fun _ =>
    .bind (writes_txLift _) fun _ => .bind writes_select fun _ => trivial

theorem writes_finalizeCreditUsage {command : UseCreditCommand} {ids : CreditIds}
    (hwork : unitOfWork.Writes (LeavesCredits owner)) (huser : command.userId ≠ owner) :
    (FinalizeCreditUsageCommandUseCase.execute unitOfWork command pending ids).Writes
      (LeavesCredits owner) :=
  .bind writes_publish fun _ => .bind (writes_flush huser) fun _ => hwork.commit

theorem writes_extractReceiptOcr {client : ReceiptOcrClient} {command : ExtractReceiptOcrCommand}
    {clock : OcrClock} {ids : CreditIds} (hwork : unitOfWork.Writes (LeavesCredits owner))
    (huser : command.userId ≠ owner) :
    (ExtractReceiptOcrCommandUseCase.execute unitOfWork client command clock ids).Writes
      (LeavesCredits owner) := by
  refine .bind writes_reserveCredit fun pending => .handle ?_ fun _ =>
    .bind hwork.rollback fun _ => trivial
  refine .bind (.bind writes_select fun _ => writes_txLift _) fun _ =>
    .bind (writes_txLift _) fun _ => ?_
  exact .bind (writes_finalizeCreditUsage hwork huser) fun _ => trivial

/-- The rows that are deleted are of another user. -/
theorem writes_deleteUserCredits {other : UUID} {stamp : Stamp}
    (hwork : unitOfWork.Writes (LeavesCredits owner)) (hother : other ≠ owner) :
    (DeleteUserCreditsCommandUseCase.execute unitOfWork other stamp).Writes
      (LeavesCredits owner) := by
  refine .bind (.bind ?_ fun _ => ?_) fun _ => .bind writes_publish fun _ => hwork.commit
  · refine .exec leavesCredits_id fun v found u hrun => ?_
    cases hrun
    refine leavesCredits_deleteTransactions fun t ht => ?_
    rw [of_decide_eq_true (List.mem_filter.1 ht).2]
    exact hother
  · refine .exec leavesCredits_id fun v a u hrun => ?_
    cases hrun
    split
    · exact leavesCredits_setUserCredit hother fun _ => ⟨none, rfl⟩
    · exact leavesCredits_id

/-! ## Promotions -/

theorem writes_savePromotion {p : Promotion} : (savePromotion p).Writes (LeavesCredits owner) := by
  refine .bind writes_select fun found => ?_
  split
  · trivial
  · split
    · trivial
    · refine writes_update fun r w hset => ?_
      cases hset
      exact CreditsFrame.leavesCredits ⟨fun _ => rfl, fun _ => rfl⟩

theorem writes_saveCode {c : PromotionCode} : (saveCode c).Writes (LeavesCredits owner) := by
  refine .bind writes_select fun found => ?_
  split
  · trivial
  · split
    · trivial
    · refine writes_update fun r w hset => ?_
      cases hset
      exact CreditsFrame.leavesCredits ⟨fun _ => rfl, fun _ => rfl⟩

theorem writes_grantOcrCredit {grant : PromotionCreditGrant} {ids : CreditIds}
    (huser : grant.userId ≠ owner) :
    (grantOcrCredit grant ids).Writes (LeavesCredits owner) :=
  .bind (writes_txLift _) fun _ => writes_grantCredit writes_deferredGrantUnitOfWork huser

theorem writes_redeem {a : Attempt} {now : Instant} {ids : RedemptionIds}
    (hwork : unitOfWork.Writes (LeavesCredits owner))
    (huser : a.userId ≠ owner) : (redeem unitOfWork a now ids).Writes (LeavesCredits owner) := by
  rw [redeem]
  rcases a.promotionCode with - | code
  · refine .bind (writes_txLift _) fun _ => .bind writes_select fun _ => .bind
      (writes_txLift _) fun _ => ?_
    refine .bind (writes_insert (CreditsFrame.leavesCredits ⟨fun _ => rfl, fun _ => rfl⟩)) fun _ => ?_
    refine .bind writes_savePromotion fun _ => ?_
    exact .bind writes_publish fun _ => .bind (writes_grantOcrCredit huser) fun _ =>
      .bind hwork.commit fun _ => .bind writes_select fun _ => trivial
  · refine .bind (writes_txLift _) fun _ => ?_
    refine .bind (writes_txLift _) fun _ => .bind writes_select fun _ =>
      .bind (writes_txLift _) fun _ => ?_
    refine .bind (writes_insert (CreditsFrame.leavesCredits ⟨fun _ => rfl, fun _ => rfl⟩)) fun _ => ?_
    refine .bind writes_savePromotion fun _ => .bind writes_saveCode fun _ => ?_
    exact .bind writes_publish fun _ => .bind (writes_grantOcrCredit huser) fun _ =>
      .bind hwork.commit fun _ => .bind writes_select fun _ => trivial

theorem writes_replayOrRedeem {a : Attempt} {now : Instant} {ids : RedemptionIds}
    (hwork : unitOfWork.Writes (LeavesCredits owner)) (huser : a.userId ≠ owner) :
    (replayOrRedeem unitOfWork a now ids).Writes (LeavesCredits owner) := by
  refine .bind writes_select fun existing => ?_
  split
  · refine .bind writes_selectForUpdate fun promotion => ?_
    split
    · exact .bind writes_select fun _ => .bind writes_select fun _ => trivial
    · trivial
  · exact writes_redeem hwork huser

theorem writes_createPromotionRedemption {command : CreatePromotionRedemptionCommand} {now : Instant}
    {ids : RedemptionIds} (hwork : unitOfWork.Writes (LeavesCredits owner))
    (huser : command.userId ≠ owner) :
    (CreatePromotionRedemptionCommandUseCase.execute unitOfWork command now ids).Writes
      (LeavesCredits owner) := by
  refine .bind writes_selectForUpdate fun promotion => ?_
  split
  · exact .bind (writes_txLift _) fun _ => writes_replayOrRedeem hwork huser
  · trivial

theorem writes_createPromotionCodeRedemption [CaseFolding]
    {command : CreatePromotionCodeRedemptionCommand} {now : Instant} {ids : RedemptionIds}
    (hwork : unitOfWork.Writes (LeavesCredits owner)) (huser : command.userId ≠ owner) :
    (CreatePromotionCodeRedemptionCommandUseCase.execute unitOfWork command now ids).Writes
      (LeavesCredits owner) := by
  refine .bind writes_selectForUpdate fun code => ?_
  split
  · refine .bind writes_selectForUpdate fun promotion => ?_
    split
    · exact .bind (writes_txLift _) fun _ => writes_replayOrRedeem hwork huser
    · trivial
  · trivial

theorem writes_lockFirst {context : PromotionContext} {now : Instant} (candidates : List UUID) :
    (lockFirst now context candidates).Writes (LeavesCredits owner) := by
  induction candidates with
  | nil => trivial
  | cons c candidates ih =>
    refine .bind writes_selectForUpdate fun row => ?_
    split
    · trivial
    · exact ih

theorem writes_redeemSignup {command : RedeemSignupPromotionCommand} {now : Instant}
    {ids : RedemptionIds} (hwork : unitOfWork.Writes (LeavesCredits owner))
    (huser : command.userId ≠ owner) :
    (RedeemSignupPromotionCommandUseCase.execute unitOfWork command now ids).Writes
      (LeavesCredits owner) := by
  refine .bind (.bind writes_select fun _ => writes_lockFirst _) fun promotion => ?_
  split
  · refine .bind writes_select fun existing => ?_
    split
    · trivial
    · refine .bind (writes_txLift _) fun _ => ?_
      refine .bind (writes_insert (CreditsFrame.leavesCredits ⟨fun _ => rfl, fun _ => rfl⟩))
        fun _ => ?_
      refine .bind writes_savePromotion fun _ => .bind writes_publish fun _ => ?_
      exact .bind (writes_grantOcrCredit huser) fun _ => .bind hwork.commit fun _ => trivial
  · trivial

/-! ## Requests -/

namespace Request

/-- The user whose credits a request changes. -/
def userId : Request → UUID
  | .grantCredit command _ => command.userId
  | .useCredit command _ => command.userId
  | .extractReceiptOcr _ command _ _ => command.userId
  | .redeem command _ _ => command.userId
  | .redeemCode command _ _ => command.userId
  | .redeemSignup command _ _ => command.userId
  | .withdraw userId _ => userId

/-- A request leaves the credits of every other user alone. -/
theorem writes_prog [CaseFolding] {r : Request}
    (hr : r.userId ≠ owner) : r.prog.Writes (LeavesCredits owner) := by
  cases r with
  | grantCredit command ids =>
    exact .bind (writes_grantCredit writes_sqlAlchemyUnitOfWork hr) fun _ => trivial
  | useCredit command ids =>
    refine .bind (.bind writes_reserveCredit fun _ => ?_) fun _ => trivial
    exact writes_finalizeCreditUsage writes_sqlAlchemyUnitOfWork hr
  | extractReceiptOcr client command clock ids =>
    exact .bind (writes_extractReceiptOcr writes_sqlAlchemyUnitOfWork hr) fun _ => trivial
  | redeem command now ids =>
    exact .bind (writes_createPromotionRedemption writes_sqlAlchemyUnitOfWork hr) fun _ => trivial
  | redeemCode command now ids =>
    exact .bind (writes_createPromotionCodeRedemption writes_sqlAlchemyUnitOfWork hr) fun _ => trivial
  | redeemSignup command now ids =>
    exact .bind (writes_redeemSignup writes_deferredCommitUnitOfWork hr) fun _ =>
      .bind writes_sqlAlchemyUnitOfWork.commit fun _ => trivial
  | withdraw other stamp =>
    exact .bind (writes_deleteUserCredits writes_sqlAlchemyUnitOfWork hr) fun _ => trivial

end Request

end Boat
