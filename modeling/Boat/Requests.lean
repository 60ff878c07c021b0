import Boat.Ocr.Spec
import Boat.Promotions.Spec

/-!
# Requests

The requests that change credits and promotions, as the programs of a system of
sessions, and what their commits may do (`Request.Change`): post a transaction,
commit a redemption, delete the credits of a user, or nothing.

* `billing`: the protocol of these changes, for an invariant and a condition.
* `billing_meets`: the requests meet it, if their changes keep the invariant.
* `Change.frame_…`: what the changes leave alone.
-/

namespace Boat

open ReadCommitted PromotionRedemptionExecutor SqlAlchemyPromotionRepository

/-- A request, with the values of `uuid4` and of the clock that it takes. -/
inductive Request
  | grantCredit (command : GrantCreditCommand) (ids : CreditIds)
  | useCredit (command : UseCreditCommand) (ids : CreditIds)
  | extractReceiptOcr (client : ReceiptOcrClient) (command : ExtractReceiptOcrCommand)
      (clock : OcrClock) (ids : CreditIds)
  | redeem (command : CreatePromotionRedemptionCommand) (now : Instant) (ids : RedemptionIds)
  | redeemCode (command : CreatePromotionCodeRedemptionCommand) (now : Instant) (ids : RedemptionIds)
  | redeemSignup (command : RedeemSignupPromotionCommand) (now : Instant) (ids : RedemptionIds)
  | withdraw (userId : UUID) (stamp : Stamp)

/-- What a request returns. -/
inductive Response
  | granted (result : GrantCreditCommandResult)
  | used
  | analyzed (result : ReceiptOcrResult)
  | redeemed (result : CreatePromotionRedemptionResult)
  | signedUp (granted : Bool)
  | withdrawn

namespace Request

/-- The program of a request. On signup, the redemption is part of the session that
    signs the user up, which commits. -/
def prog [CaseFolding] : Request → Tx Response
  | .grantCredit command ids => do
    let result ← GrantCreditCommandUseCase.execute sqlAlchemyUnitOfWork command ids
    return .granted result
  | .useCredit command ids => do
    UseCreditCommandUseCase.execute sqlAlchemyUnitOfWork command ids
    return .used
  | .extractReceiptOcr client command clock ids => do
    let result ← ExtractReceiptOcrCommandUseCase.execute sqlAlchemyUnitOfWork client command clock ids
    return .analyzed result
  | .redeem command now ids => do
    let result ← CreatePromotionRedemptionCommandUseCase.execute sqlAlchemyUnitOfWork command now ids
    return .redeemed result
  | .redeemCode command now ids => do
    let result ←
      CreatePromotionCodeRedemptionCommandUseCase.execute sqlAlchemyUnitOfWork command now ids
    return .redeemed result
  | .redeemSignup command now ids => do
    let granted ←
      RedeemSignupPromotionCommandUseCase.execute (deferredCommitUnitOfWork none) command now ids
    sqlAlchemyUnitOfWork.commit
    return .signedUp granted
  | .withdraw userId stamp => do
    DeleteUserCreditsCommandUseCase.execute sqlAlchemyUnitOfWork userId stamp
    return .withdrawn

/-! ## What a commit may do -/

/-- The transaction that a request posts by itself, and its row of the outbox. -/
def Posts : Request → CreditTransaction → OutboxEvent → Prop
  | .grantCredit command ids, t, row =>
    t = GrantCreditCommandUseCase.transaction command ids ∧ row = command.outboxRow ids
  | .useCredit command ids, t, row =>
    t = FinalizeCreditUsageCommandUseCase.transaction command ids ∧ row = command.outboxRow ids
  | .extractReceiptOcr _ command _ ids, t, row =>
    t = command.transaction ids ∧ row = command.outboxRow ids
  | _, _, _ => False

/-- The redemption that a request writes. -/
def Redeems [CaseFolding] : Request → RedemptionWrites → Instant → RedemptionIds → Prop
  | .redeem command now ids, x, now', ids' =>
    now' = now ∧ ids' = ids ∧ ∃ a, command.Attempts a ∧ x = a.writes now ids
  | .redeemCode command now ids, x, now', ids' =>
    now' = now ∧ ids' = ids ∧ ∃ a, command.Attempts a ∧ x = a.writes now ids
  | .redeemSignup command now ids, x, now', ids' =>
    now' = now ∧ ids' = ids ∧ ∃ p, x = command.writes p now ids
  | _, _, _, _ => False

/-- The request may commit nothing: a redemption that has been rolled back by its grant,
    or a signup without a promotion. -/
def MayCommitNothing (sure : Prop) : Request → Prop
  | .redeem .. | .redeemCode .. => ¬sure
  | .redeemSignup .. => True
  | _ => False

/-- What a commit of a request, under the locks `ks`, may do. If it is `exact`, the
    balance changes by the amount of the transaction; if it is `sure`, redemptions come
    with their grants. -/
inductive Change [CaseFolding] (r : Request) (exact sure : Prop) (ks : List LockKey) (d : Database) :
    Database → Prop
  | posted {t row d'} : r.Posts t row → Posted (t.action = .use ∨ exact) t [row] d d' →
      Change r exact sure ks d d'
  | redeemed {x now ids d'} : r.Redeems x now ids → x.Locked ks →
      x.Committed exact sure now ids.credit d d' → Change r exact sure ks d d'
  | nothing : r.MayCommitNothing sure → Change r exact sure ks d d
  | withdrawn {u stamp found o} : r = .withdraw u stamp → (∀ t ∈ found, t.userId = u) →
    Change r exact sure ks d
      (((d.deleteTransactions found).insertOutbox
        [.of .credit ⟨stamp, .userCreditsDeleted u⟩]).setUserCredit
        u o)

/-! ## What the changes have in common -/

/-- The redemption of a request has the identity it was given, and belongs to its
    promotion and its code. -/
structure Proper (x : RedemptionWrites) (ids : RedemptionIds) : Prop where
  id : x.redemption.id = ids.redemptionId
  promotionId : x.redemption.promotionId = x.promotion.id
  promotionCodeId : x.redemption.promotionCodeId = x.code.map (·.id)
  status : x.redemption.status = .granted

theorem Redeems.proper [CaseFolding] {r : Request} {x : RedemptionWrites} {now : Instant}
    {ids : RedemptionIds} (h : r.Redeems x now ids) : Proper x ids := by
  cases r with
  | redeem command now' ids' =>
    obtain ⟨rfl, rfl, a, _, rfl⟩ := h
    exact ⟨rfl, rfl, rfl, rfl⟩
  | redeemCode command now' ids' =>
    obtain ⟨rfl, rfl, a, _, rfl⟩ := h
    exact ⟨rfl, rfl, rfl, rfl⟩
  | redeemSignup command now' ids' =>
    obtain ⟨rfl, rfl, p, rfl⟩ := h
    exact ⟨rfl, rfl, rfl, rfl⟩
  | grantCredit | useCredit | extractReceiptOcr | withdraw => exact h.elim

/-- The identities that a request gives to a redemption. -/
def redemptionIds : Request → Option RedemptionIds
  | .redeem _ _ ids | .redeemCode _ _ ids | .redeemSignup _ _ ids => some ids
  | _ => none

theorem Redeems.redemptionIds [CaseFolding] {r : Request} {x : RedemptionWrites} {now : Instant}
    {ids : RedemptionIds} (h : r.Redeems x now ids) : r.redemptionIds = some ids := by
  cases r with
  | redeem | redeemCode | redeemSignup =>
    obtain ⟨rfl, rfl, _⟩ := h
    rfl
  | grantCredit | useCredit | extractReceiptOcr | withdraw => exact h.elim

end Request

theorem Posted.of_exact {exact exact' : Prop} {t : CreditTransaction} {rows : List OutboxEvent}
    {d d' : Database} (h : Posted exact t rows d d') (he : exact' → exact) :
    Posted exact' t rows d d' :=
  let ⟨o, hd, ho⟩ := h.eq
  ⟨h.fresh, o, hd, fun h => ho (he h)⟩

theorem Posted.frame {exact : Prop} {t : CreditTransaction} {rows : List OutboxEvent}
    {d d' : Database} (h : Posted exact t rows d d') :
    d'.promotions = d.promotions ∧ d'.promotionCodes = d.promotionCodes ∧
      d'.promotionRedemptions = d.promotionRedemptions := by
  obtain ⟨o, rfl, _⟩ := h.eq
  exact ⟨rfl, rfl, rfl⟩

namespace RedemptionWrites

variable {x : RedemptionWrites} {exact sure : Prop} {now : Instant} {ids : CreditIds}
  {d d' : Database}

theorem write_promotionRedemptions (d : Database) :
    (x.write d).promotionRedemptions = d.promotionRedemptions ++ [x.redemption] := by
  cases h : x.code <;> simp only [write, h] <;> rfl

theorem write_promotions (d : Database) :
    (x.write d).promotions = d.promotions.update x.promotion.recordRedemption := by
  cases h : x.code <;> simp only [write, h] <;> rfl

theorem write_promotionCodes (d : Database) : (x.write d).promotionCodes =
    x.code.elim d.promotionCodes fun c => d.promotionCodes.update c.recordRedemption := by
  cases h : x.code <;> simp only [write, h] <;> rfl

/-- What a redemption does to the tables of promotions, with or without its grant. -/
theorem Committed.promotions (h : x.Committed exact sure now ids d d') :
    d'.promotions = (x.write d).promotions ∧ d'.promotionCodes = (x.write d).promotionCodes ∧
      d'.promotionRedemptions = (x.write d).promotionRedemptions := by
  cases h with
  | granted _ h => exact h.frame
  | ungranted => exact ⟨rfl, rfl, rfl⟩

end RedemptionWrites

namespace Request.Change

variable [CaseFolding] {r : Request} {exact sure : Prop} {ks : List LockKey} {d d' : Database}

/-- A change leaves the tables of promotions alone, or is a redemption. -/
theorem promotions (h : r.Change exact sure ks d d') :
    (d'.promotions = d.promotions ∧ d'.promotionCodes = d.promotionCodes ∧
      d'.promotionRedemptions = d.promotionRedemptions) ∨
    ∃ x now ids, r.Redeems x now ids ∧ x.Locked ks ∧ x.Committed exact sure now ids.credit d d' := by
  cases h with
  | posted _ h => exact .inl h.frame
  | redeemed hr hk hc => exact .inr ⟨_, _, _, hr, hk, hc⟩
  | nothing | withdrawn => exact .inl ⟨rfl, rfl, rfl⟩

/-- What a request that redeems commits is a redemption, or nothing. -/
theorem redeems (h : r.Change exact sure ks d d') (hr : r.redemptionIds.isSome) :
    d' = d ∨ ∃ x now ids, r.Redeems x now ids ∧ x.Committed exact sure now ids.credit d d' := by
  cases h with
  | posted hp => cases r <;> first | exact hp.elim | cases hr
  | redeemed hx _ hc => exact .inr ⟨_, _, _, hx, hc⟩
  | nothing => exact .inl rfl
  | withdrawn hw => rw [hw] at hr; cases hr

/-- A redemption stays. -/
theorem mem_redemptions (h : r.Change exact sure ks d d') {q : PromotionRedemption}
    (hq : q ∈ d.promotionRedemptions) : q ∈ d'.promotionRedemptions := by
  rcases h.promotions with ⟨_, _, h⟩ | ⟨x, now, ids, _, _, hc⟩
  · rwa [h]
  · rw [hc.promotions.2.2, RedemptionWrites.write_promotionRedemptions]
    exact List.mem_append_left _ hq

end Request.Change

/-! ## The protocol -/

/-- What a request has returned after its commit. -/
def Response.IsNew : Response → Request → Prop
  | .redeemed result, .redeem _ _ ids | .redeemed result, .redeemCode _ _ ids =>
    result.IsNew ids.redemptionId
  | .redeemed _, _ => False
  | _, _ => True

section

variable {ι : Type} [CaseFolding]

/-- The protocol of the requests. -/
def billing (inv : Database → Prop) (exact sure : ι → Prop)
    (cond : Condition ι Database LockKey Statement) (req : ι → Request) :
    Protocol ι Database LockKey Statement where
  inv := inv
  guar i ks d d' := (req i).Change (exact i) (sure i) ks d d'
  cond := cond

variable {inv : Database → Prop} {exact sure : ι → Prop}
  {cond : Condition ι Database LockKey Statement} {req : ι → Request} {i : ι}

/-- The lock of a promotion protects its redemptions. -/
theorem billing_count {u p : UUID} {ks : List LockKey} {d₁ d₂ : Database}
    (hk : .row (.promotion p) ∈ ks) (hi : (billing inv exact sure cond req).Interf i ks d₁ d₂) :
    d₂.promotionRedemptions.countP (grantedTo u p) =
      d₁.promotionRedemptions.countP (grantedTo u p) := by
  refine hi.keeps (p := fun d => d.promotionRedemptions.countP (grantedTo u p) =
    d₁.promotionRedemptions.countP (grantedTo u p)) (fun d d' h hd => ?_) rfl
  obtain ⟨j, ks', _, hdis, _, _, hguar, _⟩ := h
  rcases Request.Change.promotions hguar with ⟨_, _, h⟩ | ⟨x, now, ids, hr, hk', hc⟩
  · rw [h, hd]
  · -- The redemptions of `p` need its lock.
    have hne : x.redemption.promotionId ≠ p := by
      rw [hr.proper.promotionId]
      rintro rfl
      exact hdis hk hk'.1
    rw [hc.promotions.2.2, RedemptionWrites.write_promotionRedemptions, List.countP_append, hd]
    simp [grantedTo, hne]

/-- What a request returns without a commit of its own: a grant that is taken for a
    replay, or a redemption that was made before. -/
def Request.Replays (P : Protocol ι Database LockKey Statement) (i : ι) (d : Database) :
    Request → Response → Prop
  | .grantCredit command ids, .granted _ => ∃ pending,
    Conflict P i (GrantCreditCommandUseCase.transaction command ids) pending d
  | .redeem command _ _, .redeemed result => ∃ a, command.Attempts a ∧
    ∃ existing ∈ d.promotionRedemptions, existing.idempotencyKey = a.idempotencyKey ∧
      result.IsReplay existing.id
  | .redeemCode command _ _, .redeemed result => ∃ a, command.Attempts a ∧
    ∃ existing ∈ d.promotionRedemptions, existing.idempotencyKey = a.idempotencyKey ∧
      result.IsReplay existing.id
  | _, _ => False

/-- What there is to show about requests, starting from the store `d`. -/
structure Bills (inv : Database → Prop) (exact sure : ι → Prop)
    (cond : Condition ι Database LockKey Statement) (req : ι → Request) (d : Database)
    (R : ι → Response → Database → Prop) (X : ι → Error → Database → Prop) : Prop where
  init : inv d
  keeps : ∀ i ks d₁ d₂, inv d₁ → (req i).Change (exact i) (sure i) ks d₁ d₂ → inv d₂
  current : ∀ i, exact i → ∀ t, CurrentAt (billing inv exact sure cond req) i t
  unhindered : ∀ i, sure i → ∀ t, Unhindered (billing inv exact sure cond req) i t
  raises : ∀ i e, X i e d
  returns : ∀ i ks d₁ d₂, (billing inv exact sure cond req).Interf i [] d d₁ → inv d₁ →
    (req i).Change (exact i) (sure i) ks d₁ d₂ →
      (∀ a : Response, a.IsNew (req i) → R i a d₂) ∧ ∀ p, X i (.fault (.findContent p)) d₂
  replays : ∀ i d₁ a, (billing inv exact sure cond req).Interf i [] d d₁ → inv d₁ →
    (req i).Replays (billing inv exact sure cond req) i d₁ a → R i a d₁
  stable_ret : ∀ i a, (billing inv exact sure cond req).Stable i (R i a)
  stable_raise : ∀ i e, (billing inv exact sure cond req).Stable i (X i e)

variable {d : Database} {R : ι → Response → Database → Prop} {X : ι → Error → Database → Prop}

namespace Bills

/-- What there is to show about requests, if only the invariant matters. -/
theorem of_inv (hinit : inv d)
    (hkeeps : ∀ i ks d₁ d₂, inv d₁ → (req i).Change (exact i) (sure i) ks d₁ d₂ → inv d₂)
    (hcurrent : ∀ i, exact i → ∀ t, CurrentAt (billing inv exact sure cond req) i t)
    (hunhindered : ∀ i, sure i → ∀ t, Unhindered (billing inv exact sure cond req) i t) :
    Bills inv exact sure cond req d (fun _ _ _ => True) (fun _ _ _ => True) where
  init := hinit
  keeps := hkeeps
  current := hcurrent
  unhindered := hunhindered
  raises _ _ := trivial
  returns _ _ _ _ _ _ _ := ⟨fun _ _ => trivial, fun _ => trivial⟩
  replays _ _ _ _ _ _ := trivial
  stable_ret _ _ _ _ _ _ := trivial
  stable_raise _ _ _ _ _ _ := trivial

variable (h : Bills inv exact sure cond req d R X)
include h

theorem raise {e : Error} {d' : Database}
    (hi : (billing inv exact sure cond req).Interf i [] d d') : X i e d' :=
  (h.stable_raise i e).interf hi (h.raises i e)

/-- The rule of the redemptions of a request. -/
theorem redemptionRule {now : Instant} {ids : RedemptionIds} {userId : UUID}
    {Attempts : Attempt → Prop}
    (hwrites : ∀ a, Attempts a → (req i).Redeems (a.writes now ids) now ids)
    (hnothing : ∀ s : Prop, ¬s → (req i).MayCommitNothing s)
    (hnew : ∀ result : CreatePromotionRedemptionResult, result.IsNew ids.redemptionId →
      (Response.redeemed result).IsNew (req i))
    (hreplays : ∀ d₁ a existing result, Attempts a → existing ∈ d₁.promotionRedemptions →
      existing.idempotencyKey = a.idempotencyKey → result.IsReplay existing.id →
        (req i).Replays (billing inv exact sure cond req) i d₁ (.redeemed result)) :
    RedemptionRule (billing inv exact sure cond req) i (exact i) (sure i) now ids userId Attempts
      (fun result => R i (.redeemed result)) (X i) d where
  count p ks d₁ d₂ hk hi := billing_count hk hi
  current := h.current i
  unhindered := h.unhindered i
  raises e d' hi := h.raise hi
  commits a ha ks' d₁ d₂ hi hd₁ hcom := by
    have hchange : (req i).Change (exact i) (sure i) ks' d₁ d₂ := by
      rcases hcom with ⟨hs, rfl⟩ | ⟨hk, hcom⟩
      · exact .nothing (hnothing _ hs)
      · exact .redeemed (hwrites a ha) hk hcom
    obtain ⟨hR, hX⟩ := h.returns i ks' d₁ d₂ hi hd₁ hchange
    refine ⟨h.keeps i ks' d₁ d₂ hd₁ hchange, hchange, fun d₃ hi₃ => ⟨?_, fun result hres => ?_⟩⟩
    · exact (h.stable_raise i _).interf hi₃ (hX _)
    · exact (h.stable_ret i _).interf hi₃ (hR _ (hnew result hres))
  replays a ha d₁ existing hi hd₁ hmem hkey d₂ result hi₂ hres :=
    (h.stable_ret i _).interf hi₂
      (h.replays i d₁ _ hi hd₁ (hreplays d₁ a existing result ha hmem hkey hres))

/-- After a commit, what a request returns or raises is as it should be. -/
theorem commit {ks : List LockKey} {d₁ d₂ : Database}
    (hi : (billing inv exact sure cond req).Interf i [] d d₁) (hd₁ : inv d₁)
    (hc : (req i).Change (exact i) (sure i) ks d₁ d₂) :
    inv d₂ ∧ (billing inv exact sure cond req).guar i ks d₁ d₂ ∧
      ∀ a : Response, a.IsNew (req i) → R i a d₂ :=
  ⟨h.keeps i ks d₁ d₂ hd₁ hc, hc, (h.returns i ks d₁ d₂ hi hd₁ hc).1⟩

theorem grantCredit_wp {i : ι} {command : GrantCreditCommand} {ids : CreditIds}
    (hr : req i = .grantCredit command ids) :
    (billing inv exact sure cond req).wp i (fun a _ _ => R i a) (fun e _ _ => X i e)
      (Request.grantCredit command ids).prog id [] d := by
  simp only [Request.prog, Prog.bind_eq, Protocol.wp_bind, Prog.pure_eq]
  -- A conflict is with a transaction that there is, and its result is replayed.
  have hreplay {d₁ d₂ : Database} {result : GrantCreditCommandResult} {pending : PendingUserCredit}
      (hi₁ : (billing inv exact sure cond req).Interf i [] d d₁)
      (hconf : Conflict (billing inv exact sure cond req) i
        (GrantCreditCommandUseCase.transaction command ids) pending d₁)
      (hi₂ : (billing inv exact sure cond req).Interf i [] d₁ d₂) : R i (.granted result) d₂ :=
    (h.stable_ret i _).interf hi₂ (h.replays i d₁ _ hi₁ (hi₁.inv h.init)
      (by rw [hr]; exact ⟨pending, hconf⟩))
  refine wp_grantCredit creditsFrame_id (by simp) rfl (fun hex => h.current i hex _)
    (fun _ _ => h.raise)
    (fun d₁ d₂ r hi₁ hdup hi₂ => ?_)
    (fun w' ks' d' r hi _ hpost => ?_) fun d₁ d₂ r hi₁ hconf hi₂ => ?_
  · have hconf : Conflict (billing inv exact sure cond req) i _ (.insert .zero) d₁ := .inl hdup
    exact hreplay hi₁ hconf hi₂
  · rw [wp_commit]
    refine fun d₁ hi₁ hd₁ => ⟨?_, by simp, h.raise (hi.trans hi₁.nil)⟩
    obtain ⟨hinv, hguar, hR⟩ := h.commit (hi.trans hi₁.nil) hd₁
      (.posted (by rw [hr]; exact ⟨rfl, rfl⟩)
        ((hpost d₁ hi₁).of_exact fun he =>
          he.resolve_left (by simp [GrantCreditCommandUseCase.transaction,
          SqlAlchemyCreditRepository.appendTransaction])))
    exact ⟨hinv, hguar, hR _ (by rw [hr]; trivial)⟩
  · obtain ⟨pending, hconf⟩ := hconf
    exact hreplay hi₁ hconf hi₂

theorem useCredit_wp {i : ι} {command : UseCreditCommand} {ids : CreditIds}
    (hr : req i = .useCredit command ids) :
    (billing inv exact sure cond req).wp i (fun a _ _ => R i a) (fun e _ _ => X i e)
      (Request.useCredit command ids).prog id [] d := by
  simp only [Request.prog, Prog.bind_eq, Protocol.wp_bind, Prog.pure_eq]
  refine wp_useCredit (fun _ _ => h.raise) fun ks' d₁ d₂ hi₁ hd₁ hpost => ?_
  obtain ⟨hinv, hguar, hR⟩ := h.commit hi₁ hd₁
    (.posted (by rw [hr]; exact ⟨rfl, rfl⟩) (hpost.of_exact fun _ => trivial))
  exact ⟨hinv, hguar, hR _ (by rw [hr]; trivial)⟩

theorem extractReceiptOcr_wp {i : ι} {client : ReceiptOcrClient}
    {command : ExtractReceiptOcrCommand} {clock : OcrClock} {ids : CreditIds}
    (hr : req i = .extractReceiptOcr client command clock ids) :
    (billing inv exact sure cond req).wp i (fun a _ _ => R i a) (fun e _ _ => X i e)
      (Request.extractReceiptOcr client command clock ids).prog id [] d := by
  simp only [Request.prog, Prog.bind_eq, Protocol.wp_bind, Prog.pure_eq]
  refine wp_extractReceiptOcr (fun _ _ => h.raise) fun ks' d₁ d₂ hi₁ hd₁ hpost => ?_
  obtain ⟨hinv, hguar, hR⟩ := h.commit hi₁ hd₁
    (.posted (by rw [hr]; exact ⟨rfl, rfl⟩) (hpost.of_exact fun _ => trivial))
  exact ⟨hinv, hguar, fun result => hR _ (by rw [hr]; trivial)⟩

theorem redeem_wp {i : ι} {command : CreatePromotionRedemptionCommand} {now : Instant}
    {ids : RedemptionIds} (hr : req i = .redeem command now ids) :
    (billing inv exact sure cond req).wp i (fun a _ _ => R i a) (fun e _ _ => X i e)
      (Request.redeem command now ids).prog id [] d := by
  simp only [Request.prog, Prog.bind_eq, Protocol.wp_bind, Prog.pure_eq]
  refine wp_createPromotionRedemption (h.redemptionRule (fun a ha => ?_) (fun s hs => ?_)
    (fun result hres => ?_) fun d₁ a existing result ha hmem hkey hres => ?_)
  · rw [hr]; exact ⟨rfl, rfl, a, ha, rfl⟩
  · rw [hr]; exact hs
  · rw [hr]; exact hres
  · rw [hr]; exact ⟨a, ha, existing, hmem, hkey, hres⟩

theorem redeemCode_wp {i : ι} {command : CreatePromotionCodeRedemptionCommand} {now : Instant}
    {ids : RedemptionIds} (hr : req i = .redeemCode command now ids) :
    (billing inv exact sure cond req).wp i (fun a _ _ => R i a) (fun e _ _ => X i e)
      (Request.redeemCode command now ids).prog id [] d := by
  simp only [Request.prog, Prog.bind_eq, Protocol.wp_bind, Prog.pure_eq]
  refine wp_createPromotionCodeRedemption (h.redemptionRule (fun a ha => ?_) (fun s hs => ?_)
    (fun result hres => ?_) fun d₁ a existing result ha hmem hkey hres => ?_)
  · rw [hr]; exact ⟨rfl, rfl, a, ha, rfl⟩
  · rw [hr]; exact hs
  · rw [hr]; exact hres
  · rw [hr]; exact ⟨a, ha, existing, hmem, hkey, hres⟩

theorem redeemSignup_wp {i : ι} {command : RedeemSignupPromotionCommand} {now : Instant}
    {ids : RedemptionIds} (hr : req i = .redeemSignup command now ids) :
    (billing inv exact sure cond req).wp i (fun a _ _ => R i a) (fun e _ _ => X i e)
      (Request.redeemSignup command now ids).prog id [] d := by
  simp only [Request.prog, Prog.bind_eq, Protocol.wp_bind_eq, Prog.pure_eq]
  -- The commit of what the redemption has written, or of nothing.
  have hcommit {granted : Bool} {w' : Database → Database} {ks' : List LockKey} {d' : Database}
      (hi : (billing inv exact sure cond req).Interf i [] d d')
      (hc : ∀ d'', (billing inv exact sure cond req).Interf i ks' d' d'' →
        (req i).Change (exact i) (sure i) ks' d'' (w' d'')) :
      (billing inv exact sure cond req).wp i (fun _ _ _ d => R i (.signedUp granted) d)
        (fun e _ _ d => X i e d) sqlAlchemyUnitOfWork.commit w' ks' d' := by
    rw [wp_commit]
    refine fun d₁ hi₁ hd₁ => ⟨?_, h.raise (hi.trans hi₁.nil)⟩
    obtain ⟨hinv, hguar, hR⟩ := h.commit (hi.trans hi₁.nil) hd₁ (hc d₁ hi₁)
    exact ⟨hinv, hguar, hR _ (by rw [hr]; trivial)⟩
  have hnothing : (req i).MayCommitNothing (sure i) := by rw [hr]; trivial
  refine wp_redeemSignup promotionsFrame_id (by simp) (h.current i) (h.unhindered i)
    (fun _ _ => h.raise)
    (fun ks' d' hi _ => hcommit hi fun _ _ => .nothing hnothing)
    (fun p w' ks' d' hi _ hk hcom => hcommit hi fun d'' hi' => .redeemed ?_ hk (hcom d'' hi'))
    fun d' _ hi => hcommit hi fun _ _ => .nothing hnothing
  rw [hr]; exact ⟨rfl, rfl, p, rfl⟩

theorem withdraw_wp {i : ι} {userId : UUID} {stamp : Stamp}
    (hr : req i = .withdraw userId stamp) :
    (billing inv exact sure cond req).wp i (fun a _ _ => R i a) (fun e _ _ => X i e)
      (Request.withdraw userId stamp).prog id [] d := by
  simp only [Request.prog, DeleteUserCreditsCommandUseCase.execute,
    SqlAlchemyCreditRepository.deleteByUserId, Tx.exec, Prog.bind_eq, Protocol.wp_bind_eq,
      Prog.pure_eq,
    Protocol.wp_exec, Command.modify, and_self]
  refine fun d₁ hi₁ _ =>
    ⟨fun _ => fun d₂ hi₂ _ => ⟨fun _ => ?_, h.raise (hi₁.trans hi₂.nil)⟩, h.raise hi₁⟩
  have hfound : ∀ t ∈ d₁.creditTransactions.filter (·.userId = userId), t.userId = userId :=
    fun t ht => by
    simpa using List.of_mem_filter ht
  rw [wp_publish]
  refine fun d₃ hi₃ _ => ⟨fun _ => ?_, h.raise (hi₁.trans (hi₂.nil.trans hi₃.nil))⟩
  rw [wp_commit]
  intro d₄ hi₄ hd₄
  have hi := hi₁.trans (hi₂.nil.trans (hi₃.nil.trans hi₄.nil))
  refine ⟨?_, h.raise hi⟩
  suffices hc : (req i).Change (exact i) (sure i) _ d₄ _ by
    obtain ⟨hinv, hguar, hR⟩ := h.commit hi hd₄ hc
    exact ⟨hinv, hguar, hR _ (by rw [hr]; trivial)⟩
  split
  · exact .withdrawn (o := none) hr hfound
  · have hself :
        ((d₄.deleteTransactions (d₁.creditTransactions.filter (·.userId = userId))).insertOutbox
          [.of .credit ⟨stamp, .userCreditsDeleted userId⟩]).setUserCredit userId
            (d₄.userCredits userId) =
          (d₄.deleteTransactions (d₁.creditTransactions.filter (·.userId = userId))).insertOutbox
            [.of .credit ⟨stamp, .userCreditsDeleted userId⟩] := by
      simp [Database.setUserCredit, Database.insertOutbox, Database.deleteTransactions]
    have hc : (req i).Change (exact i) (sure i) ([] ++ ([] ++ [])) d₄ _ :=
      .withdrawn (o := d₄.userCredits userId) hr hfound
    rw [hself] at hc
    exact hc

/-- A request meets the protocol. -/
theorem wp (i : ι) : (billing inv exact sure cond req).wp i (fun a _ _ => R i a)
    (fun e _ _ => X i e) (req i).prog id [] d := by
  cases hr : req i with
  | grantCredit command ids => exact h.grantCredit_wp hr
  | useCredit command ids => exact h.useCredit_wp hr
  | extractReceiptOcr client command clock ids => exact h.extractReceiptOcr_wp hr
  | redeem command now ids => exact h.redeem_wp hr
  | redeemCode command now ids => exact h.redeemCode_wp hr
  | redeemSignup command now ids => exact h.redeemSignup_wp hr
  | withdraw userId stamp => exact h.withdraw_wp hr

/-- The requests meet the protocol. -/
theorem meets : (billing inv exact sure cond req).Meets (fun i => (req i).prog) d R X where
  inv := h.init
  wp := h.wp
  stable_ret := h.stable_ret
  stable_raise := h.stable_raise

end Bills

end

end Boat
