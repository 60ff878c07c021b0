import Boat.Credits.Spec
import Boat.Ocr.UseCases

/-!
# OCR: specification

What the analysis of a receipt does to the database, for any other commands that run
at the same time: it commits the usage of one credit and returns a result, or raises
without a commit (`wp_extractReceiptOcr`).
-/

namespace Boat

open ReadCommitted ExtractReceiptOcrCommandUseCase

/-- The transaction of an analysis. -/
def ExtractReceiptOcrCommand.transaction (command : ExtractReceiptOcrCommand) (ids : CreditIds) :
    CreditTransaction :=
  FinalizeCreditUsageCommandUseCase.transaction (useCreditCommand command) ids

/-- The row of the outbox that an analysis writes. -/
def ExtractReceiptOcrCommand.outboxRow (command : ExtractReceiptOcrCommand) (ids : CreditIds) :
    OutboxEvent :=
  (useCreditCommand command).outboxRow ids

variable {ι : Type} {P : Protocol ι Database LockKey Statement} {i : ι} {d : Database}
  {X : Error → Database → Prop}

/-- A usage that is finalized at once posts its transaction, or raises. -/
theorem wp_useCredit {command : UseCreditCommand} {ids : CreditIds} {Q : Post Database LockKey Unit}
    (hX : ∀ e d', P.Interf i [] d d' → X e d')
    (hcommit : ∀ ks' d₁ d₂, P.Interf i [] d d₁ → P.inv d₁ →
      Posted True (FinalizeCreditUsageCommandUseCase.transaction command ids)
        [command.outboxRow ids] d₁ d₂ → P.inv d₂ ∧ P.guar i ks' d₁ d₂ ∧ Q () id [] d₂) :
    P.wp i Q (fun e _ _ d => X e d)
      (UseCreditCommandUseCase.execute sqlAlchemyUnitOfWork command ids) id [] d := by
  simp only [UseCreditCommandUseCase.execute, Prog.bind_eq, Protocol.wp_bind]
  refine wp_reserve creditsFrame_id hX fun pending ks₁ d₁ hi₁ _ hres => ?_
  refine wp_finalize creditsFrame_id hres (fun e d' hi => hX e d' (hi₁.trans hi.nil))
    fun w' ks' d' hi _ hpost => ?_
  rw [wp_commit]
  refine fun d₂ hi₂ hd₂ => ⟨?_, hX _ d₂ (hi₁.trans (hi.nil.trans hi₂.nil))⟩
  exact hcommit ks' d₂ (w' d₂) (hi₁.trans (hi.nil.trans hi₂.nil)) hd₂ (hpost d₂ hi₂)

/-- An analysis posts the usage of one credit and returns, or raises. -/
theorem wp_extractReceiptOcr {client : ReceiptOcrClient} {command : ExtractReceiptOcrCommand}
    {clock : OcrClock} {ids : CreditIds} {Q : Post Database LockKey ReceiptOcrResult}
    (hX : ∀ e d', P.Interf i [] d d' → X e d')
    (hcommit : ∀ ks' d₁ d₂, P.Interf i [] d d₁ → P.inv d₁ →
      Posted True (command.transaction ids) [command.outboxRow ids] d₁ d₂ →
      P.inv d₂ ∧ P.guar i ks' d₁ d₂ ∧ ∀ result, Q result id [] d₂) :
    P.wp i Q (fun e _ _ d => X e d)
      (execute sqlAlchemyUnitOfWork client command clock ids) id [] d := by
  -- Whatever is raised after the reservation, the handler rolls it back.
  have hhandler (e : Error) (d' : Database) (hi : P.Interf i [] d d') (w : Database → Database)
      (ks : List LockKey) : P.wp i (fun _ => P.wp i Q (fun e _ _ d => X e d) (.raise e))
        (fun e _ _ d => X e d) sqlAlchemyUnitOfWork.rollback w ks d' := by
    exact wp_sessionRollback.2 fun d'' hi' _ =>
      ⟨hX e d'' (hi.trans hi'.nil), hX _ d'' (hi.trans hi'.nil)⟩
  simp only [execute, callClient, Prog.bind_eq, Prog.tryCatch_eq, Prog.throw_eq, Prog.pure_eq,
    Protocol.wp_bind]
  refine wp_reserve creditsFrame_id hX fun pending ks₁ d₁ hi₁ _ hres => ?_
  rw [Protocol.wp_handle]
  refine Protocol.wp_raises ?_
  simp only [Protocol.wp_bind_eq, wp_select, wp_lift]
  refine fun d₂ hi₂ _ => ⟨fun _ => ?_, hhandler _ d₂ (hi₁.trans hi₂.nil)⟩
  have hi₁₂ := hi₁.trans hi₂.nil
  refine ⟨fun extracted _ => ⟨fun result _ => ?_, fun e _ => hhandler _ d₂ hi₁₂⟩,
    fun e _ => hhandler _ d₂ hi₁₂⟩
  refine wp_finalize creditsFrame_id (hres.interf hi₂) (fun e d' hi => hhandler e d' (hi₁₂.trans hi))
    fun w' ks' d' hi _ hpost => ?_
  rw [wp_commit]
  refine fun d₃ hi₃ hd₃ => ⟨?_, hhandler _ d₃ (hi₁₂.trans (hi.nil.trans hi₃.nil))⟩
  obtain ⟨hinv, hguar, hQ⟩ :=
    hcommit ks' d₃ (w' d₃) (hi₁₂.trans (hi.nil.trans hi₃.nil)) hd₃ (hpost d₃ hi₃)
  exact ⟨hinv, hguar, hQ result⟩

end Boat
