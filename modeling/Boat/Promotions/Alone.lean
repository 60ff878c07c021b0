import Boat.Credits.Alone
import Boat.Promotions.Spec

/-!
# Promotions: redemptions that run alone

What a redemption that runs alone answers depends on what it finds: it is a replay, it is refused by
the domain, or it is settled, if what it stores fits its columns (`Attempt.settle_alone`).

* `RedemptionRequest.answered_iff`: a request is answered exactly if what it stores fits. A long key
  does not (`redemption_unanswered`).
* `GetCurrentOcrCreditPromotionQuery.agrees_redemption_iff`: what the query says of the current
  promotion is what a redemption of it does, exactly if what that stores fits.
-/

namespace Boat

open ReadCommitted SqlAlchemyPromotionRepository PromotionRedemptionExecutor

/-! ## Checks -/

theorem Promotion.ensureRedeemable_cases (p : Promotion) (at' : Instant) :
    p.ensureRedeemable at' = .ok () ∨
    ∃ message, p.ensureRedeemable at' = .error (.promotionRedemptionConflict message) := by
  simp only [ensureRedeemable, bind, Except.bind, pure, Except.pure, throw, throwThe,
    MonadExceptOf.throw]
  split
  · exact .inr ⟨_, rfl⟩
  split
  · exact .inr ⟨_, rfl⟩
  split
  · exact .inr ⟨_, rfl⟩
  split
  · exact .inr ⟨_, rfl⟩
  · exact .inl rfl

theorem PromotionCode.ensureRedeemable_cases (c : PromotionCode) (at' : Instant) :
    c.ensureRedeemable at' = .ok () ∨
    ∃ message, c.ensureRedeemable at' = .error (.promotionRedemptionConflict message) := by
  simp only [ensureRedeemable, bind, Except.bind, pure, Except.pure, throw, throwThe,
    MonadExceptOf.throw]
  split
  · exact .inr ⟨_, rfl⟩
  split
  · exact .inr ⟨_, rfl⟩
  split
  · exact .inr ⟨_, rfl⟩
  split
  · exact .inr ⟨_, rfl⟩
  · exact .inl rfl

/-! ## Writes -/

section

variable {v d : Database}

theorem savePromotion_alone {p q : Promotion} (hv : v.promotion q.id = some p) (hne : q ≠ p) :
    (fitsInteger q.timesRedeemed = true → (savePromotion q).alone Statement.refused v d =
      ⟨.ok (), Database.updatePromotion q v, d⟩) ∧
    (fitsInteger q.timesRedeemed = false → ∃ s, (savePromotion q).alone Statement.refused v d =
      ⟨.error (.fault s), d, d⟩) := by
  rw [savePromotion, Prog.bind_eq, Prog.alone_bind_ok (alone_select rfl)]
  simp only [hv, if_neg hne]
  constructor
  · intro hfits
    refine (alone_update (r := p) ?_ hv rfl).trans ?_
    · rw [Statement.refused, hfits]
      rfl
    · rw [mergePromotion_self]
  · intro hfits
    refine ⟨_, alone_refused ?_⟩
    rw [Statement.refused, hfits]
    rfl

theorem saveCode_alone {c : PromotionCode} (c' : PromotionCode) (hv : v.promotionCode c'.id = some c)
    (hne : c'.timesRedeemed ≠ c.timesRedeemed) :
    (fitsInteger c'.timesRedeemed = true → (saveCode c').alone Statement.refused v d =
      ⟨.ok (), Database.updatePromotionCode
        { c with id := c'.id, timesRedeemed := c'.timesRedeemed } v, d⟩) ∧
    (fitsInteger c'.timesRedeemed = false → ∃ s, (saveCode c').alone Statement.refused v d =
      ⟨.error (.fault s), d, d⟩) := by
  rw [saveCode, Prog.bind_eq, Prog.alone_bind_ok (alone_select rfl)]
  simp only [hv, if_neg hne]
  constructor
  · intro hfits
    refine alone_update (r := c) ?_ hv rfl
    rw [Statement.refused, hfits]
    rfl
  · intro hfits
    refine ⟨_, alone_refused ?_⟩
    rw [Statement.refused, hfits]
    rfl

end

theorem RedemptionWrites.grantOcrCredit_eq (x : RedemptionWrites) (ids : CreditIds) :
    grantOcrCredit ⟨x.redemption.userId, x.promotion.benefitAmount.value, x.redemption.id,
      x.creditKey⟩ ids =
      GrantCreditCommandUseCase.execute deferredGrantUnitOfWork x.grantCommand ids := by
  have hamount : ¬x.promotion.benefitAmount.value < 1 := not_lt.2 x.promotion.benefitAmount.one_le
  simp only [grantOcrCredit, CreditAmount.create, dif_neg hamount]
  rfl

/-! ## Redemptions -/

namespace PromotionRedemptionExecutor.Attempt

variable {a : Attempt} {now : Instant} {ids : RedemptionIds} {d : Database}

/-- The code and the promotion are redeemable, and the user has redeemed it less often than
    allowed. -/
def Eligible (a : Attempt) (now : Instant) (d : Database) : Prop :=
  (∀ c, a.promotionCode = some c → c.Redeemable now) ∧ a.promotion.Redeemable now ∧
    (d.promotionRedemptions.countP (grantedTo a.userId a.promotion.id) : ℤ) <
      a.promotion.maxRedemptionsPerUser

/-- What a redemption writes fits its columns. -/
def Fits (a : Attempt) (now : Instant) (ids : RedemptionIds) (d : Database) : Prop :=
  a.idempotencyKey.length ≤ 255 ∧ fitsInteger (a.promotion.timesRedeemed + 1) ∧
    (∀ c, a.promotionCode = some c → fitsInteger (c.timesRedeemed + 1)) ∧
    (¬GrantCreditCommandUseCase.Granted (a.writes now ids).grantCommand ids.credit d →
      GrantCreditCommandUseCase.Fits (a.writes now ids).grantCommand d)

/-- What a redemption does after its own writes. -/
def finish (a : Attempt) (now : Instant) (ids : RedemptionIds) :
    Tx CreatePromotionRedemptionResult := do
  let x := a.writes now ids
  let grantResult ← grantOcrCredit ⟨x.redemption.userId, x.promotion.benefitAmount.value,
    x.redemption.id, x.creditKey⟩
    ids.credit
  sqlAlchemyUnitOfWork.commit
  let content ← findContentByPromotionId x.promotion.id
  return result x.redemption x.promotion.recordRedemption content false true
    (some grantResult.totalGrantedCount)
    (some grantResult.remainingCount)

/-- What a redemption does once it has passed its checks. -/
def settle (a : Attempt) (now : Instant) (ids : RedemptionIds) : Tx CreatePromotionRedemptionResult :=
  let x := a.writes now ids
  (createRedemption x.redemption).bind fun _ =>
    (savePromotion x.promotion.recordRedemption).bind fun _ =>
    (match x.code with | some code => saveCode code.recordRedemption | none => .ret ()).bind fun _ =>
      (publish .promotion x.events).bind fun _ => a.finish now ids

theorem alone_lift_ok {α : Type} {x : Except DomainError α} {y : α} (h : x = .ok y) :
    (Tx.lift x).alone Statement.refused d d = ⟨.ok y, d, d⟩ := by
  rw [h]
  rfl

theorem alone_lift_error {α : Type} {x : Except DomainError α} {e : DomainError} (h : x = .error e) :
    (Tx.lift x).alone Statement.refused d d = ⟨.error (.domain e), d, d⟩ := by
  rw [h]
  rfl

theorem countUserRedemptions_alone :
    (countUserRedemptions a.userId a.promotion.id).alone Statement.refused d d =
    ⟨.ok (d.promotionRedemptions.countP (grantedTo a.userId a.promotion.id)), d, d⟩ :=
  alone_select rfl

variable (ids) in
/-- An attempt that is not eligible is refused. -/
theorem redeem_alone_ineligible (h : ¬a.Eligible now d) : ∃ message,
    (redeem sqlAlchemyUnitOfWork a now ids).alone Statement.refused d d =
      ⟨.error (.domain (.promotionRedemptionConflict message)), d, d⟩ := by
  -- The promotion and the user are checked after the code.
  have hpromotion : ∀ f : Unit → Tx CreatePromotionRedemptionResult,
      ¬(a.promotion.Redeemable now ∧
        (d.promotionRedemptions.countP (grantedTo a.userId a.promotion.id) : ℤ) <
          a.promotion.maxRedemptionsPerUser) →
      ∃ message, ((Tx.lift (a.promotion.ensureRedeemable now)).bind fun _ =>
        (countUserRedemptions a.userId a.promotion.id).bind fun count =>
          (Tx.lift (a.promotion.ensureUserCanRedeem count)).bind f).alone Statement.refused d d =
        ⟨.error (.domain (.promotionRedemptionConflict message)), d, d⟩ := by
    intro f hnot
    rcases a.promotion.ensureRedeemable_cases now with hok | ⟨message, herror⟩
    · rw [Prog.alone_bind_ok (alone_lift_ok hok), Prog.alone_bind_ok countUserRedemptions_alone]
      have hcount : ¬(d.promotionRedemptions.countP (grantedTo a.userId a.promotion.id) : ℤ) <
          a.promotion.maxRedemptionsPerUser := fun h => hnot ⟨Promotion.ensureRedeemable_ok.1 hok, h⟩
      exact ⟨_, Prog.alone_bind_error (alone_lift_error (if_pos (not_lt.1 hcount)))⟩
    · exact ⟨message, Prog.alone_bind_error (alone_lift_error herror)⟩
  rw [redeem]
  rcases hc : a.promotionCode with - | c
  · exact hpromotion _ fun h' => h ⟨by simp [hc], h'⟩
  · rcases c.ensureRedeemable_cases now with hok | ⟨message, herror⟩
    · simp only [Prog.bind_eq]
      rw [Prog.alone_bind_ok (alone_lift_ok hok)]
      refine hpromotion _ fun h' => h ⟨fun c' hc' => ?_, h'⟩
      obtain rfl : c = c' := by simpa [hc] using hc'
      exact PromotionCode.ensureRedeemable_ok.1 hok
    · exact ⟨message, Prog.alone_bind_error (alone_lift_error herror)⟩

/-- An eligible attempt is settled. -/
theorem redeem_alone_eligible (h : a.Eligible now d) :
    (redeem sqlAlchemyUnitOfWork a now ids).alone Statement.refused d d =
      (a.settle now ids).alone Statement.refused d d := by
  obtain ⟨hcode, hpromotion, hcount⟩ := h
  have hlift := alone_lift_ok (d := d) (Promotion.ensureRedeemable_ok.2 hpromotion)
  have huser := alone_lift_ok (d := d) (Promotion.ensureUserCanRedeem_ok.2 hcount)
  rw [redeem, settle]
  rcases hc : a.promotionCode with - | c
  · simp only [Prog.bind_eq, Prog.pure_eq, Attempt.writes, hc]
    rw [Prog.alone_bind_ok hlift, Prog.alone_bind_ok countUserRedemptions_alone,
      Prog.alone_bind_ok huser]
    rfl
  · simp only [Prog.bind_eq, Prog.pure_eq, Attempt.writes, hc]
    rw [Prog.alone_bind_ok (alone_lift_ok (PromotionCode.ensureRedeemable_ok.2 (hcode c hc))),
      Prog.alone_bind_ok hlift, Prog.alone_bind_ok countUserRedemptions_alone,
      Prog.alone_bind_ok huser]
    rfl

variable (now ids) in
/-- The redemption itself, the counters and the events. -/
theorem writes_alone {β : Type} {f : Unit → Tx β}
    (hentry : d.hasEntry (.redemptionKey a.idempotencyKey) = false)
    (hseen : (a.writes now ids).Seen d) :
    let x := a.writes now ids
    let p := (createRedemption x.redemption).bind fun _ =>
      (savePromotion x.promotion.recordRedemption).bind fun _ =>
      (match x.code with
        | some code => saveCode code.recordRedemption | none => .ret ()).bind fun _ =>
        (publish .promotion x.events).bind f
    (a.idempotencyKey.length ≤ 255 ∧ fitsInteger (a.promotion.timesRedeemed + 1) ∧
      (∀ c, a.promotionCode = some c → fitsInteger (c.timesRedeemed + 1)) →
      p.alone Statement.refused d d = (f ()).alone Statement.refused (x.write d) d) ∧
    (¬(a.idempotencyKey.length ≤ 255 ∧ fitsInteger (a.promotion.timesRedeemed + 1) ∧
      (∀ c, a.promotionCode = some c → fitsInteger (c.timesRedeemed + 1))) →
      ∃ s, p.alone Statement.refused d d = ⟨.error (.fault s), d, d⟩) := by
  intro x p
  obtain ⟨hpromotion, hcode⟩ := hseen
  have hrefused : (Statement.flushRedemption x.redemption).refused =
      decide (255 < a.idempotencyKey.length) := by
    simp [Statement.refused, x, Attempt.writes, Attempt.redemption, PromotionRedemption.createGranted]
  have hentries : ∀ e ∈ x.redemption.entries, d.hasEntry e = false := by
    intro e he
    rw [List.mem_singleton.1 (show e ∈ [IndexEntry.redemptionKey a.idempotencyKey] from he)]
    exact hentry
  have hne : a.promotion.recordRedemption ≠ a.promotion := by
    intro h
    have htimes := congrArg Promotion.timesRedeemed h
    simp only [Promotion.recordRedemption] at htimes
    omega
  -- The redemption is refused by the length of its key, the promotion and the code by their counts;
  -- what was written before is lost.
  by_cases hkey : a.idempotencyKey.length ≤ 255
  · have hcreate : (createRedemption x.redemption).alone Statement.refused d d =
        ⟨.ok (), Database.insertRedemption x.redemption d, d⟩ := by
      refine alone_insert ?_ hentries
      rw [hrefused, decide_eq_false (Nat.not_lt.2 hkey)]
    have hsave := savePromotion_alone (v := Database.insertRedemption x.redemption d) (d := d)
      (p := a.promotion)
      (q := a.promotion.recordRedemption) hpromotion hne
    rcases htimes : fitsInteger (a.promotion.timesRedeemed + 1) with - | -
    · obtain ⟨s, hs⟩ := hsave.2 htimes
      refine ⟨fun h => absurd h.2.1 (by simp), fun _ => ⟨s, ?_⟩⟩
      exact (Prog.alone_bind_ok hcreate).trans (Prog.alone_bind_error hs)
    · have hsaved := hsave.1 htimes
      rcases hc : a.promotionCode with - | c
      · have hx : x.code = none := hc
        refine ⟨fun _ => ?_, fun h => absurd ⟨hkey, rfl, by simp⟩ h⟩
        refine (Prog.alone_bind_ok hcreate).trans ((Prog.alone_bind_ok hsaved).trans ?_)
        rw [hx, Prog.ret_bind, Prog.alone_bind_ok alone_publish, RedemptionWrites.write, hx]
        rfl
      · have hx : x.code = some c := hc
        have hsave := saveCode_alone (d := d) (c := c) c.recordRedemption
          (v := Database.updatePromotion a.promotion.recordRedemption
            (Database.insertRedemption x.redemption d))
          (hcode c hc) (by simp only [PromotionCode.recordRedemption]; omega)
        rcases hctimes : fitsInteger (c.timesRedeemed + 1) with - | -
        · obtain ⟨s, hs⟩ := hsave.2 hctimes
          refine ⟨fun h => absurd (h.2.2 c rfl) (by simp [hctimes]), fun _ => ⟨s, ?_⟩⟩
          refine (Prog.alone_bind_ok hcreate).trans ((Prog.alone_bind_ok hsaved).trans ?_)
          rw [hx]
          exact Prog.alone_bind_error hs
        · refine ⟨fun _ => ?_, fun h => absurd ⟨hkey, rfl, by simpa using hctimes⟩ h⟩
          refine (Prog.alone_bind_ok hcreate).trans ((Prog.alone_bind_ok hsaved).trans ?_)
          rw [hx]
          refine (Prog.alone_bind_ok (hsave.1 hctimes)).trans ?_
          rw [Prog.alone_bind_ok alone_publish, RedemptionWrites.write, hx]
          rfl
  · have hs := alone_refused (s := .flushRedemption x.redemption) (v := d) (d := d)
      (c := insertCommand x.redemption.entries none (Database.insertRedemption x.redemption)
        (Database.touches_insertRedemption x.redemption))
      (by rw [hrefused, decide_eq_true (Nat.lt_of_not_le hkey)])
    exact ⟨fun h => absurd h.1 hkey, fun _ => ⟨_, Prog.alone_bind_error hs⟩⟩

theorem granted_write {x : RedemptionWrites} {ids : CreditIds} :
    GrantCreditCommandUseCase.Granted x.grantCommand ids (x.write d) ↔
      GrantCreditCommandUseCase.Granted x.grantCommand ids d :=
  exists_congr fun _ => and_congr_right fun he => by rw [x.creditsFrame_write.hasEntry he]

theorem fits_write {x : RedemptionWrites} :
    GrantCreditCommandUseCase.Fits x.grantCommand (x.write d) ↔
    GrantCreditCommandUseCase.Fits x.grantCommand d := by
  simp only [GrantCreditCommandUseCase.Fits, Database.balance, x.creditsFrame_write.userCredits]

/-- The grant, and the commit. -/
theorem finish_alone {v : Database} (r : GrantCreditCommandResult) (v' : Database)
    (hgrant : (GrantCreditCommandUseCase.execute deferredGrantUnitOfWork
      (a.writes now ids).grantCommand ids.credit).alone
      Statement.refused v d = ⟨.ok r, v', d⟩) :
    ∃ r d', (a.finish now ids).alone Statement.refused v d = ⟨.ok r, d', d'⟩ ∧
      CreatePromotionRedemptionResult.IsNew r ids.redemptionId ∧
      r.remainingRedemptions = remainingRedemptions a.promotion.recordRedemption := by
  rw [finish, RedemptionWrites.grantOcrCredit_eq, Prog.bind_eq, Prog.alone_bind_ok hgrant]
  exact ⟨_, v', rfl, ⟨rfl, rfl, rfl⟩, rfl⟩

/-- A redemption that fits is settled. -/
theorem settle_alone (hentry : d.hasEntry (.redemptionKey a.idempotencyKey) = false)
    (hseen : (a.writes now ids).Seen d)
    (hfits : a.Fits now ids d) : ∃ r d', (a.settle now ids).alone Statement.refused d d =
    ⟨.ok r, d', d'⟩ ∧
      CreatePromotionRedemptionResult.IsNew r ids.redemptionId ∧
      r.remainingRedemptions = remainingRedemptions a.promotion.recordRedemption := by
  obtain ⟨hkey, htimes, hcode, hgrant⟩ := hfits
  have hwrites := (writes_alone now ids (f := fun _ => a.finish now ids) hentry hseen).1
    ⟨hkey, htimes, hcode⟩
  rw [settle, hwrites]
  by_cases hgranted : GrantCreditCommandUseCase.Granted (a.writes now ids).grantCommand ids.credit d
  · exact finish_alone
      _ _ (GrantCreditCommandUseCase.execute_alone_granted (granted_write.2 hgranted))
  · exact finish_alone
      _ _ (GrantCreditCommandUseCase.execute_alone (fun h => hgranted (granted_write.1 h))
      (by rintro ⟨⟩) (fits_write.2 (hgrant hgranted)))

/-- A redemption that does not fit is not. -/
theorem settle_alone_refused (hentry : d.hasEntry (.redemptionKey a.idempotencyKey) = false)
    (hseen : (a.writes now ids).Seen d) (hfits : ¬a.Fits now ids d) :
    ∃ s, (a.settle now ids).alone Statement.refused d d = ⟨.error (.fault s), d, d⟩ := by
  have hwrites := writes_alone now ids (f := fun _ => a.finish now ids) hentry hseen
  by_cases hwritten : a.idempotencyKey.length ≤ 255 ∧ fitsInteger (a.promotion.timesRedeemed + 1) ∧
      ∀ c, a.promotionCode = some c → fitsInteger (c.timesRedeemed + 1)
  · obtain ⟨hkey, htimes, hcode⟩ := hwritten
    rw [settle, hwrites.1 ⟨hkey, htimes, hcode⟩, finish, RedemptionWrites.grantOcrCredit_eq,
      Prog.bind_eq]
    have hgrant : ¬GrantCreditCommandUseCase.Granted (a.writes now ids).grantCommand ids.credit d ∧
        ¬GrantCreditCommandUseCase.Fits (a.writes now ids).grantCommand d := by
      by_contra h
      exact hfits ⟨hkey, htimes, hcode, fun hgranted => by_contra fun hnot => h ⟨hgranted, hnot⟩⟩
    obtain ⟨s, hs⟩ := GrantCreditCommandUseCase.execute_alone_refused (d := d)
      (v := (a.writes now ids).write d)
      (show ¬GrantCreditCommandUseCase.Granted _ ids.credit _ from fun h =>
        hgrant.1 (granted_write.1 h)) (by rintro ⟨⟩)
      (fun h => hgrant.2 (fits_write.1 h))
    exact ⟨s, Prog.alone_bind_error hs⟩
  · exact hwrites.2 hwritten

/-- The redemption that is not new finds the first one. -/
theorem replayOrRedeem_alone (hentry : d.hasEntry (.redemptionKey a.idempotencyKey) = false) :
    (replayOrRedeem sqlAlchemyUnitOfWork a now ids).alone Statement.refused d d =
      (redeem sqlAlchemyUnitOfWork a now ids).alone Statement.refused d d := by
  have hfind : d.promotionRedemptions.find? (·.idempotencyKey = a.idempotencyKey) = none := by
    rw [List.find?_eq_none]
    intro r hr hkey
    have hmem : IndexEntry.redemptionKey a.idempotencyKey ∈ r.entries := by
      rw [PromotionRedemption.entries, of_decide_eq_true hkey]
      exact List.mem_cons_self
    have hany : d.hasEntry (.redemptionKey a.idempotencyKey) = true :=
      List.any_eq_true.2 ⟨r, hr, by simpa using hmem⟩
    exact absurd hany (by simp [hentry])
  rw [replayOrRedeem, Prog.bind_eq, findRedemptionByIdempotencyKey,
    Prog.alone_bind_ok (alone_select rfl)]
  simp only [hfind]

/-- A replay returns, unless the promotion is gone. -/
theorem replay_alone (userId : UUID) (existing : PromotionRedemption) :
    (∃ r, (replay userId existing).alone Statement.refused d d = ⟨.ok r, d, d⟩) ∨
      (replay userId existing).alone Statement.refused d d =
        ⟨.error (.domain .promotionNotFound), d, d⟩ := by
  rw [replay, Prog.bind_eq, findPromotionForUpdate, Prog.alone_bind_ok (alone_selectForUpdate rfl)]
  rcases d.promotion existing.promotionId with - | p
  · exact .inr rfl
  · exact .inl ⟨_, rfl⟩

variable (now ids) in
/-- A redemption with a key that is in use is a replay. -/
theorem replayOrRedeem_alone_replay (hentry : d.hasEntry (.redemptionKey a.idempotencyKey) = true) :
    ∃ existing, (replayOrRedeem sqlAlchemyUnitOfWork a now ids).alone Statement.refused d d =
      (replay a.userId existing).alone Statement.refused d d := by
  obtain ⟨r, hr, hmem⟩ := List.any_eq_true.1 hentry
  have hkey : r.idempotencyKey = a.idempotencyKey := by
    rcases r.beneficiaryKey.eq_none_or_eq_some with h | ⟨b, h⟩
    · simpa [PromotionRedemption.entries, h, eq_comm] using hmem
    · simpa [PromotionRedemption.entries, h, eq_comm] using hmem
  have hsome : (d.promotionRedemptions.find? (·.idempotencyKey = a.idempotencyKey)).isSome :=
    List.find?_isSome.2 ⟨r, hr, decide_eq_true hkey⟩
  obtain ⟨existing, hfind⟩ := Option.isSome_iff_exists.1 hsome
  refine ⟨existing, ?_⟩
  rw [replayOrRedeem, Prog.bind_eq, findRedemptionByIdempotencyKey,
    Prog.alone_bind_ok (alone_select rfl)]
  simp only [hfind]

end PromotionRedemptionExecutor.Attempt

/-! ## Requests -/

/-- A redemption by the id of a promotion, or by a code. -/
inductive RedemptionRequest
  | byId (command : CreatePromotionRedemptionCommand)
  | byCode (command : CreatePromotionCodeRedemptionCommand)

namespace RedemptionRequest

variable [CaseFolding] {request : RedemptionRequest} {now : Instant} {ids : RedemptionIds}
  {d : Database}

/-- What a request runs. -/
def prog (request : RedemptionRequest) (now : Instant)
    (ids : RedemptionIds) : Tx CreatePromotionRedemptionResult :=
  match request with
  | .byId command =>
    CreatePromotionRedemptionCommandUseCase.execute sqlAlchemyUnitOfWork command now ids
  | .byCode command =>
    CreatePromotionCodeRedemptionCommandUseCase.execute sqlAlchemyUnitOfWork command now ids

/-- The promotion, and the code, that a request finds. Those of signup are not found. -/
def attempt (request : RedemptionRequest) (d : Database) : Option Attempt :=
  match request with
  | .byId command =>
    ((d.promotion command.promotionId).filter (·.context ≠ some .signup)).map fun p =>
      ⟨command.userId, p, none, CreatePromotionRedemptionCommandUseCase.idempotencyKey command⟩
  | .byCode command =>
    (d.promotionCodes.rows.find? fun c => sqlLower c.code = lower command.code).bind fun c =>
      ((d.promotion c.promotionId).filter (·.context ≠ some .signup)).map fun p =>
        ⟨command.userId, p, some c,
          CreatePromotionCodeRedemptionCommandUseCase.idempotencyKey command c⟩

/-- A request is answered: it returns a result, or it is refused by the domain and changes nothing. -/
def Answered (o : Outcome Database Error CreatePromotionRedemptionResult) (d : Database) : Prop :=
  (∃ r, o.result = .ok r) ∨
    (∃ e, o.result = .error (.domain e) ∧
      (e = .promotionNotFound ∨ e = .promotionCodeNotFound ∨
        ∃ message, e = .promotionRedemptionConflict message)) ∧
    o.store = d

variable (now ids) in
theorem prog_alone_attempt {a : Attempt} (h : request.attempt d = some a) :
    (request.prog now ids).alone Statement.refused d d =
      (replayOrRedeem sqlAlchemyUnitOfWork a now ids).alone Statement.refused d d ∧
      (a.writes now ids).Seen d := by
  have hfound : ∀ {promotionId : UUID} {p : Promotion},
      (d.promotion promotionId).filter (·.context ≠ some .signup) = some p →
      d.promotion promotionId = some p ∧ refuseSignup p = .ok () ∧ d.promotion p.id = some p := by
    intro promotionId p hp
    obtain ⟨hp, hcontext⟩ := Option.filter_eq_some_iff.1 hp
    obtain ⟨hmem, hid⟩ := Table.find_eq_some.1 hp
    exact ⟨hp, refuseSignup_ok.2 (of_decide_eq_true hcontext), hid ▸ hp⟩
  rcases request with command | command
  · obtain ⟨p, hp, rfl⟩ := Option.map_eq_some_iff.1 h
    obtain ⟨hp, hsignup, hseen⟩ := hfound hp
    refine ⟨?_, hseen, by rintro c ⟨⟩⟩
    simp only [prog, CreatePromotionRedemptionCommandUseCase.execute, findPromotionForUpdate,
      Prog.bind_eq]
    rw [Prog.alone_bind_ok (alone_selectForUpdate rfl), hp]
    simp only [hsignup]
    rfl
  · obtain ⟨c, hc, h⟩ := Option.bind_eq_some_iff.1 h
    obtain ⟨p, hp, rfl⟩ := Option.map_eq_some_iff.1 h
    obtain ⟨hp, hsignup, hseen⟩ := hfound hp
    refine ⟨?_, hseen, ?_⟩
    · simp only [prog, CreatePromotionCodeRedemptionCommandUseCase.execute, findCodeByCodeForUpdate,
        findPromotionForUpdate, Prog.bind_eq]
      rw [Prog.alone_bind_ok (alone_selectForUpdate rfl), hc]
      simp only
      rw [Prog.alone_bind_ok (alone_selectForUpdate rfl), hp]
      simp only [hsignup]
      rfl
    · rintro c' ⟨⟩
      exact Table.find_eq_some.2 ⟨List.mem_of_find?_eq_some hc, rfl⟩

variable (now ids) in
/-- Nothing is found. -/
theorem prog_alone_none (h : request.attempt d = none) :
    ∃ e, (request.prog now ids).alone Statement.refused d d = ⟨.error (.domain e), d, d⟩ ∧
      (e = .promotionNotFound ∨ e = .promotionCodeNotFound) := by
  have hsignup : ∀ {promotionId : UUID} {p : Promotion}, d.promotion promotionId = some p →
      (d.promotion promotionId).filter (·.context ≠ some .signup) = none →
        refuseSignup p = .error .promotionNotFound := by
    intro promotionId p hp hnone
    have hcontext : p.context = some .signup := by simpa [hp, Option.filter_some] using hnone
    rw [refuseSignup, hcontext]
  rcases request with command | command
  · have hnone := Option.map_eq_none_iff.1 h
    refine ⟨.promotionNotFound, ?_, .inl rfl⟩
    simp only [prog, CreatePromotionRedemptionCommandUseCase.execute, findPromotionForUpdate,
      Prog.bind_eq]
    rw [Prog.alone_bind_ok (alone_selectForUpdate rfl)]
    rcases hp : d.promotion command.promotionId with - | p
    · rfl
    · simp only [hsignup hp hnone]
      rfl
  · simp only [prog, CreatePromotionCodeRedemptionCommandUseCase.execute, findCodeByCodeForUpdate,
      findPromotionForUpdate, Prog.bind_eq]
    rw [Prog.alone_bind_ok (alone_selectForUpdate rfl)]
    rcases hc : d.promotionCodes.rows.find? (fun c => sqlLower c.code = lower command.code) with - | c
    · refine ⟨.promotionCodeNotFound, ?_, .inr rfl⟩
      simp only [hc]
      rfl
    · refine ⟨.promotionNotFound, ?_, .inl rfl⟩
      simp only [attempt, hc, Option.bind_some] at h
      have hnone := Option.map_eq_none_iff.1 h
      simp only [hc]
      rw [Prog.alone_bind_ok (alone_selectForUpdate rfl)]
      rcases hp : d.promotion c.promotionId with - | p
      · rfl
      · simp only [hsignup hp hnone]
        rfl

/-- A request is answered exactly if what it stores fits. -/
theorem answered_iff : Answered ((request.prog now ids).alone Statement.refused d d) d ↔
    ∀ a, request.attempt d = some a → d.hasEntry (.redemptionKey a.idempotencyKey) = false →
    a.Eligible now d →
      a.Fits now ids d := by
  rcases h : request.attempt d with - | a
  · obtain ⟨e, he, hcases⟩ := prog_alone_none now ids h
    rw [he]
    exact iff_of_true (.inr ⟨⟨e, rfl, hcases.imp id .inl⟩, rfl⟩) (by rintro a ⟨⟩)
  · obtain ⟨hprog, hseen⟩ := prog_alone_attempt now ids h
    rw [hprog]
    rcases hentry : d.hasEntry (.redemptionKey a.idempotencyKey) with - | -
    · rw [Attempt.replayOrRedeem_alone hentry]
      by_cases heligible : a.Eligible now d
      · rw [Attempt.redeem_alone_eligible heligible]
        by_cases hfits : a.Fits now ids d
        · obtain ⟨r, d', hr, -⟩ := Attempt.settle_alone hentry hseen hfits
          rw [hr]
          refine iff_of_true (.inl ⟨r, rfl⟩) ?_
          rintro a' ⟨⟩ - -
          exact hfits
        · -- A count does not fit its column, or the key is too long.
          obtain ⟨s, hs⟩ := Attempt.settle_alone_refused hentry hseen hfits
          rw [hs]
          refine iff_of_false ?_ fun hall => hfits (hall a rfl hentry heligible)
          rintro (⟨r, ⟨⟩⟩ | ⟨⟨e, ⟨⟩, -⟩, -⟩)
      · obtain ⟨message, hm⟩ := Attempt.redeem_alone_ineligible ids heligible
        rw [hm]
        refine iff_of_true (.inr ⟨⟨_, rfl, .inr (.inr ⟨message, rfl⟩)⟩, rfl⟩) ?_
        rintro a' ⟨⟩ - heligible'
        exact absurd heligible' heligible
    · -- The key has been redeemed, and what it has redeemed is replayed.
      obtain ⟨existing, hreplay⟩ := Attempt.replayOrRedeem_alone_replay now ids hentry
      rw [hreplay]
      refine iff_of_true ?_ ?_
      · rcases Attempt.replay_alone (d := d) a.userId existing with ⟨r, hr⟩ | hr
        · rw [hr]
          exact .inl ⟨r, rfl⟩
        · rw [hr]
          exact .inr ⟨⟨_, rfl, .inl rfl⟩, rfl⟩
      · rintro a' ⟨⟩ hentry'
        exact absurd hentry (by simp [hentry'])

end RedemptionRequest

/-- A promotion without limits, of which every user may have one. -/
def openPromotion : Promotion where
  id := .ofNat 1
  name := "promotion"
  active := true
  startsAt := 0
  expiresAt := none
  maxRedemptions := none
  timesRedeemed := 0
  maxRedemptionsPerUser := 1
  context := none
  benefitAmount := ⟨1, CreditAmount.one_le_one⟩

/-- A store with the promotion only. -/
def openStore : Database := { Database.empty with promotions := Table.empty.insert openPromotion }

/-- A statement has failed. -/
def Outcome.isFault {α : Type} (o : Outcome Database Error α) : Bool :=
  match o.result with
  | .error (.fault _) => true
  | _ => false

theorem Outcome.result_ne {α : Type} {o : Outcome Database Error α} (h : Outcome.isFault o = true) :
    (∀ r, o.result ≠ .ok r) ∧ ∀ e, o.result ≠ .error (.domain e) := by
  constructor
  · intro r hr
    simp [Outcome.isFault, hr] at h
  · intro e he
    simp [Outcome.isFault, he] at h

theorem RedemptionRequest.not_answered {o : Outcome Database Error CreatePromotionRedemptionResult}
    {d : Database} (h : Outcome.isFault o = true) : ¬Answered o d := by
  rintro (⟨r, hr⟩ | ⟨⟨e, he, -⟩, -⟩)
  · exact (Outcome.result_ne h).1 r hr
  · exact (Outcome.result_ne h).2 e he

/-- A key of 256 characters is not answered, but by an error of the database. -/
theorem redemption_unanswered : letI := CaseFolding.ascii
    ¬RedemptionRequest.Answered (((RedemptionRequest.byId
      ⟨.ofNat 2, .ofNat 1, some (.ofList (.replicate 256 'a'))⟩).prog 0
      ⟨.ofNat 3, ⟨.ofNat 4, 0⟩, ⟨.ofNat 5, ⟨.ofNat 6, 0⟩⟩⟩).alone Statement.refused openStore
        openStore) openStore :=
  RedemptionRequest.not_answered (by decide +kernel)

/-! ## Query -/

namespace GetCurrentOcrCreditPromotionQuery

variable {query : GetCurrentOcrCreditPromotionQuery} {key : Option String} {now : Instant}
  {ids : RedemptionIds}
  {d : Database}

/-- The promotion that a query finds. -/
def current (query : GetCurrentOcrCreditPromotionQuery) (now : Instant)
    (d : Database) : Option Promotion :=
  ((d.promotions.rows.filter (isCurrentIn now query.context)).insertionSort comesBefore).head?

/-- The request that redeems a promotion for the user of the query. -/
def redeemCommand (query : GetCurrentOcrCreditPromotionQuery) (promotionId : UUID)
    (key : Option String) :
    CreatePromotionRedemptionCommand :=
  ⟨query.userId, promotionId, key⟩

/-- A query and a redemption with a client key agree: the query raises nothing, and what it says about
    the promotion is what a redemption of it does. -/
def Agrees (query : GetCurrentOcrCreditPromotionQuery) (key : Option String) (now : Instant)
    (ids : RedemptionIds) (d : Database) : Prop :=
  ∃ o, (GetCurrentOcrCreditPromotionQueryUseCase.execute query now).alone Statement.refused d d =
    ⟨.ok o, d, d⟩ ∧
    match o with
    | none => ∀ p ∈ d.promotions.rows, p.context = query.context → ¬p.Redeemable now
    | some r =>
      let command := query.redeemCommand r.promotionId key
      let redemption :=
        (CreatePromotionRedemptionCommandUseCase.execute sqlAlchemyUnitOfWork command now ids).alone
        Statement.refused d d
      d.hasEntry (.redemptionKey (CreatePromotionRedemptionCommandUseCase.idempotencyKey command)) =
        false →
        (r.alreadyRedeemed = true → ∃ e, redemption = ⟨.error (.domain e), d, d⟩) ∧
        (r.alreadyRedeemed = false → ∃ result, redemption.result = .ok result ∧
          CreatePromotionRedemptionResult.IsNew result ids.redemptionId ∧
          result.remainingRedemptions = r.remainingRedemptions.map (· - 1))

/-- The filter selects the promotions of a context that are redeemable. -/
theorem isCurrentIn_iff {p : Promotion} {context : Option PromotionContext} :
    isCurrentIn now context p = true ↔ p.Redeemable now ∧ p.context = context := by
  rcases he : p.expiresAt with - | e
  · rcases hm : p.maxRedemptions with - | m
    · simp [isCurrentIn, Promotion.Redeemable, he, hm, and_assoc]
    · simp [isCurrentIn, Promotion.Redeemable, he, hm, and_assoc]
  · rcases hm : p.maxRedemptions with - | m
    · simp [isCurrentIn, Promotion.Redeemable, he, hm, and_assoc]
    · simp [isCurrentIn, Promotion.Redeemable, he, hm, and_assoc]

/-- What a redemption of the promotion that the query finds stores, fits. -/
def Fits (query : GetCurrentOcrCreditPromotionQuery) (key : Option String) (now : Instant)
    (ids : RedemptionIds) (d : Database) : Prop :=
  ∀ p, query.current now d = some p →
    let a : PromotionRedemptionExecutor.Attempt := ⟨query.userId, p, none,
      CreatePromotionRedemptionCommandUseCase.idempotencyKey (query.redeemCommand p.id key)⟩
    d.hasEntry (.redemptionKey a.idempotencyKey) = false → a.Eligible now d → a.Fits now ids d

/-- Redeemable promotions have redemptions left. -/
theorem remainingRedemptions_recordRedemption {p : Promotion} (h : p.Redeemable now) :
    PromotionRedemptionExecutor.remainingRedemptions p.recordRedemption =
      (GetCurrentOcrCreditPromotionQueryUseCase.remainingRedemptions p).map (· - 1) := by
  obtain ⟨-, -, -, hlimit⟩ := h
  rw [PromotionRedemptionExecutor.remainingRedemptions,
    GetCurrentOcrCreditPromotionQueryUseCase.remainingRedemptions, Promotion.recordRedemption]
  rcases hm : p.maxRedemptions with - | m
  · rfl
  · have hlt := hlimit m hm
    simp only [Option.map_some, Option.some.injEq]
    omega

/-- The result of a query. -/
theorem execute_alone {p : Promotion} (hcurrent : query.current now d = some p)
    (hp : p.Redeemable now) :
    ∃ r, (GetCurrentOcrCreditPromotionQueryUseCase.execute query now).alone Statement.refused d d =
      ⟨.ok (some r), d, d⟩ ∧
      r.promotionId = p.id ∧
      r.remainingRedemptions = GetCurrentOcrCreditPromotionQueryUseCase.remainingRedemptions p ∧
      (r.alreadyRedeemed = true ↔
        p.maxRedemptionsPerUser ≤
        (d.promotionRedemptions.countP (grantedTo query.userId p.id) : ℤ)) := by
  rw [GetCurrentOcrCreditPromotionQueryUseCase.execute, Prog.bind_eq, findCurrentOcrCreditPromotion,
    Prog.alone_bind_ok (alone_select rfl)]
  rw [current] at hcurrent
  simp only [hcurrent, Promotion.ensureRedeemable_ok.2 hp, Tx.lift, Prog.bind_eq, Prog.ret_bind,
    Prog.pure_eq]
  rw [countUserRedemptions, Prog.alone_bind_ok (alone_select rfl)]
  by_cases halready : p.maxRedemptionsPerUser ≤
    (d.promotionRedemptions.countP (grantedTo query.userId p.id) : ℤ)
  · simp only [ge_iff_le, decide_eq_true halready, if_true]
    exact ⟨_, rfl, rfl, rfl, iff_of_true rfl halready⟩
  · simp only [ge_iff_le, decide_eq_false halready, Bool.false_eq_true, if_false]
    exact ⟨_, rfl, rfl, rfl, iff_of_false Bool.false_ne_true halready⟩

/-- Nothing is found if nothing is redeemable. -/
theorem agrees_of_current_none (hcurrent : query.current now d = none) :
    query.Agrees key now ids d := by
  refine ⟨none, ?_, ?_⟩
  · rw [GetCurrentOcrCreditPromotionQueryUseCase.execute, Prog.bind_eq, findCurrentOcrCreditPromotion,
      Prog.alone_bind_ok (alone_select rfl)]
    rw [current] at hcurrent
    rw [hcurrent]
    rfl
  · intro p hp hcontext hredeemable
    have hfound :
        p ∈ (d.promotions.rows.filter (isCurrentIn now query.context)).insertionSort comesBefore :=
      (List.perm_insertionSort ..).mem_iff.2
        (List.mem_filter.2 ⟨hp, isCurrentIn_iff.2 ⟨hredeemable, hcontext⟩⟩)
    rw [List.head?_eq_none_iff.1 hcurrent] at hfound
    cases hfound

/-- The promotion that is found is redeemable, and of the context. -/
theorem current_some {p : Promotion} (hcurrent : query.current now d = some p) :
    p ∈ d.promotions.rows ∧ p.Redeemable now ∧ p.context = query.context := by
  have hp : p ∈ d.promotions.rows ∧ isCurrentIn now query.context p = true :=
    List.mem_filter.1 ((List.perm_insertionSort ..).mem_iff.1 (List.mem_of_head? hcurrent))
  exact ⟨hp.1, isCurrentIn_iff.1 hp.2⟩

/-- A redemption of a redeemable promotion is what is said of it exactly if it is refused or fits. -/
theorem redemption_as_said_iff {a : PromotionRedemptionExecutor.Attempt} {already : Bool}
    {remaining : Option ℤ} (hcode : a.promotionCode = none)
    (hentry : d.hasEntry (.redemptionKey a.idempotencyKey) = false)
    (hseen : (a.writes now ids).Seen d) (hredeemable : a.promotion.Redeemable now)
    (halready : already = true ↔
      a.promotion.maxRedemptionsPerUser ≤
      (d.promotionRedemptions.countP (grantedTo a.userId a.promotion.id) : ℤ))
    (hremaining :
      remaining = GetCurrentOcrCreditPromotionQueryUseCase.remainingRedemptions a.promotion) :
    let redemption :=
      (PromotionRedemptionExecutor.replayOrRedeem sqlAlchemyUnitOfWork a now ids).alone
      Statement.refused d d
    ((already = true → ∃ e, redemption = ⟨.error (.domain e), d, d⟩) ∧
      (already = false → ∃ result, redemption.result = .ok result ∧
        CreatePromotionRedemptionResult.IsNew result ids.redemptionId ∧
        result.remainingRedemptions = remaining.map (· - 1))) ↔
          (a.Eligible now d → a.Fits now ids d) := by
  intro redemption
  simp only [redemption]
  rw [PromotionRedemptionExecutor.Attempt.replayOrRedeem_alone hentry]
  rcases hr : already with - | -
  · have heligible : a.Eligible now d :=
      ⟨by rw [hcode]; rintro c ⟨⟩, hredeemable, not_le.1 fun h => by simp [halready.2 h] at hr⟩
    simp only [heligible, PromotionRedemptionExecutor.Attempt.redeem_alone_eligible, forall_true_left]
    by_cases hfits : a.Fits now ids d
    · obtain ⟨result, d', hresult, hnew, hrest⟩ :=
        PromotionRedemptionExecutor.Attempt.settle_alone hentry hseen hfits
      refine iff_of_true ⟨by simp, result, by rw [hresult], hnew, ?_⟩ hfits
      rw [hrest, hremaining]
      exact remainingRedemptions_recordRedemption hredeemable
    · obtain ⟨s, hs⟩ := PromotionRedemptionExecutor.Attempt.settle_alone_refused hentry hseen hfits
      refine iff_of_false ?_ hfits
      rintro ⟨-, result, hresult, -⟩
      rw [hs] at hresult
      cases hresult
  · have hnot : ¬a.Eligible now d := fun h => absurd h.2.2 (not_lt.2 (halready.1 hr))
    obtain ⟨message, hm⟩ := PromotionRedemptionExecutor.Attempt.redeem_alone_ineligible ids hnot
    exact iff_of_true ⟨fun _ => ⟨_, hm⟩, by simp⟩ fun h => absurd h hnot

/-- The query of a context other than signup agrees with a redemption exactly if what it stores
    fits. -/
theorem agrees_redemption_iff (hcontext : query.context ≠ some .signup) :
    query.Agrees key now ids d ↔ query.Fits key now ids d := by
  let := CaseFolding.ascii
  rcases hcurrent : query.current now d with - | p
  · refine iff_of_true (agrees_of_current_none hcurrent) fun p hp => ?_
    rw [hcurrent] at hp
    cases hp
  · obtain ⟨hp, hredeemable, hpcontext⟩ := current_some hcurrent
    obtain ⟨r, hr, hid, hremaining, halready⟩ := execute_alone hcurrent hredeemable
    -- The redemption finds the promotion, too.
    have hattempt : (RedemptionRequest.byId (query.redeemCommand r.promotionId key)).attempt d =
        some ⟨query.userId, p, none,
          CreatePromotionRedemptionCommandUseCase.idempotencyKey (query.redeemCommand p.id key)⟩ := by
      have hfind : d.promotion p.id = some p := Table.find_eq_some.2 ⟨hp, rfl⟩
      have hsignup : decide (p.context ≠ some .signup) = true := decide_eq_true (hpcontext ▸ hcontext)
      simp only [RedemptionRequest.attempt, redeemCommand, hid, hfind, Option.filter_some,
        hsignup, if_true, Option.map_some]
    obtain ⟨hprog, hseen⟩ := RedemptionRequest.prog_alone_attempt now ids hattempt
    have hexecute : (CreatePromotionRedemptionCommandUseCase.execute sqlAlchemyUnitOfWork
        (query.redeemCommand p.id key) now ids).alone Statement.refused d d = _ := hid ▸ hprog
    have hsaid (hentry :
        d.hasEntry (.redemptionKey (CreatePromotionRedemptionCommandUseCase.idempotencyKey
          (query.redeemCommand p.id key))) = false) :=
          redemption_as_said_iff (a := ⟨query.userId, p, none, _⟩) rfl hentry
      hseen hredeemable halready hremaining
    constructor
    · rintro ⟨o, ho, h⟩ p' hp' a hentry
      rw [hcurrent] at hp'
      cases hp'
      rw [hr] at ho
      cases ho
      simp only [hid, hexecute] at h
      exact (hsaid hentry).1 (h hentry)
    · intro h
      refine ⟨some r, hr, ?_⟩
      simp only [hid, hexecute]
      exact fun hentry => (hsaid hentry).2 (h p hcurrent hentry)

/-- A redemption with a short key agrees with the query. -/
theorem agrees_short : (⟨.ofNat 2, none⟩ : GetCurrentOcrCreditPromotionQuery).Agrees (some "key") 0
    ⟨.ofNat 3, ⟨.ofNat 4, 0⟩, ⟨.ofNat 5, ⟨.ofNat 6, 0⟩⟩⟩ openStore := by
  refine (agrees_redemption_iff (by decide)).2 fun p hp => ?_
  have hcurrent : (⟨.ofNat 2, none⟩ : GetCurrentOcrCreditPromotionQuery).current 0 openStore =
      some openPromotion := by
    decide +kernel
  rw [hcurrent] at hp
  cases hp
  intro a hentry heligible
  refine ⟨by decide +kernel, by decide, by rintro c ⟨⟩, fun _ => ⟨?_, by decide +kernel⟩⟩
  rintro key ⟨⟩
  decide +kernel

/-- A redemption with a key of 256 characters does not. -/
theorem not_agrees_long : ¬(⟨.ofNat 2, none⟩ : GetCurrentOcrCreditPromotionQuery).Agrees
    (some (.ofList (.replicate 256 'a'))) 0 ⟨.ofNat 3, ⟨.ofNat 4, 0⟩,
      ⟨.ofNat 5, ⟨.ofNat 6, 0⟩⟩⟩ openStore := by
  have hquery :
      ((GetCurrentOcrCreditPromotionQueryUseCase.execute ⟨.ofNat 2, none⟩ 0).alone
        Statement.refused openStore
        openStore).result =
          .ok (some ⟨.ofNat 1, "promotion", 1, none, 0, none, false, none, none⟩) := by rfl
  rintro ⟨o, ho, h⟩
  rw [ho] at hquery
  cases hquery
  obtain ⟨-, hredeemed⟩ := h (by decide +kernel)
  obtain ⟨result, hresult, -⟩ := hredeemed rfl
  have hfault : Outcome.isFault ((CreatePromotionRedemptionCommandUseCase.execute sqlAlchemyUnitOfWork
      ⟨.ofNat 2, .ofNat 1, some (.ofList (.replicate 256 'a'))⟩ 0
      ⟨.ofNat 3, ⟨.ofNat 4, 0⟩, ⟨.ofNat 5, ⟨.ofNat 6, 0⟩⟩⟩).alone Statement.refused openStore
        openStore) = true := by
    decide +kernel
  exact (Outcome.result_ne hfault).1 result hresult

end GetCurrentOcrCreditPromotionQuery

end Boat
