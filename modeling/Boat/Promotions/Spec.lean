import Boat.Credits.Spec
import Boat.Promotions.UseCases

/-!
# Promotions: specifications

What a redemption does to the database, for any other commands that run at the
same time (any protocol `P`), as rules for `Protocol.wp`.

* `RedemptionWrites`: what a redemption is about to write, and `Allowed`: when it
  may. The checks are made under the lock of the promotion, and of the code, so
  that they still hold at the commit.
* `Committed`: what the commit of a redemption has done: the redemption and its
  grant, or the redemption only, when the grant has been taken for a replay. There
  may also be nothing to commit, as the grant rolls the session back on a conflict.
* `wp_redeem`, `wp_redeemSignup`: a redemption commits so, or raises;
  `wp_createPromotionRedemption`, `wp_createPromotionCodeRedemption`: it does,
  unless it finds its idempotency key.
-/

namespace Boat

open ReadCommitted SqlAlchemyPromotionRepository

/-! ## What a redemption writes -/

/-- What a redemption is about to write: the redemption itself, once more on the
    counters of the promotion and the code, the events, and a grant of credit. -/
structure RedemptionWrites where
  promotion : Promotion
  code : Option PromotionCode
  redemption : PromotionRedemption
  events : List (Stamped PromotionEvent)
  creditKey : String

namespace RedemptionWrites

variable (x : RedemptionWrites)

/-- The grant of credit of a redemption. -/
def grantCommand : GrantCreditCommand where
  userId := x.redemption.userId
  amount := ⟨x.promotion.benefitAmount.value, x.promotion.benefitAmount.one_le⟩
  reason := .eventOcrAllowance
  source := some ⟨.promotionRedemption, x.redemption.id⟩
  idempotencyKey := some x.creditKey

/-- The transaction of the grant. -/
def transaction (ids : CreditIds) : CreditTransaction :=
  GrantCreditCommandUseCase.transaction x.grantCommand ids

/-- The writes up to the grant. -/
def write (d : Database) : Database :=
  Database.insertOutbox (x.events.map (.of .promotion)) <|
    (x.code.elim id fun c => Database.updatePromotionCode c.recordRedemption) <|
      Database.updatePromotion x.promotion.recordRedemption <|
        Database.insertRedemption x.redemption d

theorem creditsFrame_write : CreditsFrame x.write := by
  constructor <;> intro d <;> cases h : x.code <;> simp only [write, h] <;> rfl

/-- The locks of a redemption on its promotion and its code. -/
def Locked (ks : List LockKey) : Prop :=
  .row (.promotion x.promotion.id) ∈ ks ∧
    ∀ c ∈ x.code, .row (.promotionCode c.id) ∈ ks

/-- The promotion and the code as they were read. -/
def Seen (d : Database) : Prop :=
  d.promotion x.promotion.id = some x.promotion ∧
    ∀ c ∈ x.code, d.promotionCode c.id = some c

/-- A redemption may be written: it is new, its promotion and its code are as they
    were read, and redeemable, and so are they by the user (on signup, it is the
    beneficiary that counts). -/
structure Allowed (now : Instant) (d : Database) : Prop where
  fresh : ∀ e ∈ x.redemption.entries, d.hasEntry e = false
  seen : x.Seen d
  promotion : x.promotion.Redeemable now
  code : ∀ c ∈ x.code, c.Redeemable now
  user : x.redemption.beneficiaryKey = none →
    (d.promotionRedemptions.countP (grantedTo x.redemption.userId x.promotion.id) : ℤ) <
      x.promotion.maxRedemptionsPerUser

/-- What the commit of a redemption has done. If it is `exact`, a grant has changed the
    balance by its amount; if it is `sure`, there is a grant. -/
inductive Committed (exact sure : Prop) (now : Instant) (ids : CreditIds) (d : Database) :
    Database → Prop
  | granted {d' : Database} : x.Allowed now d →
      Posted exact (x.transaction ids) [x.grantCommand.outboxRow ids] (x.write d) d' →
      Committed exact sure now ids d d'
  | ungranted : ¬sure → x.Allowed now d → Committed exact sure now ids d (x.write d)

theorem Committed.allowed {exact sure : Prop} {now : Instant} {ids : CreditIds} {d d' : Database}
    {x : RedemptionWrites} (h : x.Committed exact sure now ids d d') : x.Allowed now d := by
  cases h with
  | granted h => exact h
  | ungranted _ h => exact h

variable {x} {ι : Type} {P : Protocol ι Database LockKey Statement} {i : ι} {ks ks' : List LockKey}
  {d d' : Database}

theorem Locked.mono (h : x.Locked ks) (hks : ks ⊆ ks') : x.Locked ks' :=
  ⟨hks h.1, fun c hc => hks (h.2 c hc)⟩

/-- What was read under the locks stays. -/
theorem Seen.interf (h : x.Seen d) (hk : x.Locked ks) (hi : P.Interf i ks d d') : x.Seen d' :=
  ⟨interf_promotion hi hk.1 h.1, fun c hc => interf_promotionCode hi (hk.2 c hc) (h.2 c hc)⟩

end RedemptionWrites

/-- A write that leaves the tables of credits and of promotions alone. -/
structure PromotionsFrame (w : Database → Database) : Prop extends CreditsFrame w where
  promotions : ∀ d, (w d).promotions = d.promotions
  promotionCodes : ∀ d, (w d).promotionCodes = d.promotionCodes
  promotionRedemptions : ∀ d, (w d).promotionRedemptions = d.promotionRedemptions

theorem promotionsFrame_id : PromotionsFrame id :=
  ⟨creditsFrame_id, fun _ => rfl, fun _ => rfl, fun _ => rfl⟩

namespace PromotionsFrame

variable {w : Database → Database} (hw : PromotionsFrame w)
include hw

theorem promotion (d : Database) (p : UUID) : (w d).promotion p = d.promotion p :=
  congrArg (·.find p) (hw.promotions d)

theorem promotionCode (d : Database) (c : UUID) : (w d).promotionCode c = d.promotionCode c :=
  congrArg (·.find c) (hw.promotionCodes d)

theorem hasEntry {r : PromotionRedemption} {e : IndexEntry} (he : e ∈ r.entries) (d : Database) :
    (w d).hasEntry e = d.hasEntry e := by
  have := hw.promotionRedemptions d
  cases e with
  | redemptionKey | redemptionBeneficiary => simp only [Database.hasEntry, this]
  | userCredit | transactionKey | transactionSource =>
    exfalso
    cases hb : r.beneficiaryKey <;> simp [PromotionRedemption.entries, hb] at he

/-- What may be redeemed in a database may be redeemed after such writes. -/
theorem allowed {x : RedemptionWrites} {now : Instant} {d : Database} (h : x.Allowed now d) :
    x.Allowed now (w d) where
  fresh e he := by rw [hw.hasEntry he]; exact h.fresh e he
  seen := ⟨by rw [hw.promotion]; exact h.seen.1, fun c hc => by
    rw [hw.promotionCode]; exact h.seen.2 c hc⟩
  promotion := h.promotion
  code := h.code
  user := by rw [hw.promotionRedemptions]; exact h.user

end PromotionsFrame

/-! ## The statements of a redemption -/

section

variable {ι : Type} {P : Protocol ι Database LockKey Statement} {i : ι}
  {w : Database → Database} {ks : List LockKey} {d : Database}
  {exact sure : Prop} {X : Error → Database → Prop}

theorem mergePromotion_self (seen p : Promotion) :
    { mergePromotion seen p seen with id := p.id } = p := by
  simp only [mergePromotion, changed_self]

theorem wp_savePromotion {p : Promotion} {Q : Post Database LockKey Unit}
    (hw : ∀ d, (w d).promotion p.id = d.promotion p.id) (hk : .row (.promotion p.id) ∈ ks)
    (hp : d.promotion p.id = some p) (hX : ∀ e d', P.Interf i [] d d' → X e d')
    (hQ : ∀ d', P.Interf i ks d d' → Q () (Database.updatePromotion p.recordRedemption ∘ w)
      (.row (.promotion p.id) :: ks) d') :
    P.wp i Q (fun e _ _ d => X e d) (savePromotion p.recordRedemption) w ks d := by
  have hid : p.recordRedemption.id = p.id := rfl
  have hne : p.recordRedemption ≠ p := by
    intro h
    have := congrArg Promotion.timesRedeemed h
    simp [Promotion.recordRedemption] at this
  simp only [savePromotion, Prog.bind_eq, Protocol.wp_bind, wp_select, hid, hw]
  refine fun d₁ hi₁ _ => ⟨fun _ => ?_, hX _ d₁ hi₁.nil⟩
  rw [interf_promotion hi₁ hk hp]
  simp only [hne, ↓reduceIte]
  refine wp_update (fun d₂ r u hi₂ _ hr hu => ?_) fun e d' hi _ => hX e d' (hi₁.nil.trans hi)
  rw [hw, interf_promotion (hi₁.trans hi₂) hk hp] at hr
  cases hr
  cases hu
  have hset := mergePromotion_self p p.recordRedemption
  rw [hid] at hset
  rw [hset]
  exact hQ d₂ (hi₁.trans hi₂)

theorem wp_saveCode {c : PromotionCode} {Q : Post Database LockKey Unit}
    (hw : ∀ d, (w d).promotionCode c.id = d.promotionCode c.id)
    (hk : .row (.promotionCode c.id) ∈ ks) (hc : d.promotionCode c.id = some c)
    (hX : ∀ e d', P.Interf i [] d d' → X e d')
    (hQ : ∀ d', P.Interf i ks d d' → Q () (Database.updatePromotionCode c.recordRedemption ∘ w)
      (.row (.promotionCode c.id) :: ks) d') :
    P.wp i Q (fun e _ _ d => X e d) (saveCode c.recordRedemption) w ks d := by
  have hid : c.recordRedemption.id = c.id := rfl
  have hne : c.recordRedemption.timesRedeemed ≠ c.timesRedeemed := by
    simp [PromotionCode.recordRedemption]
  simp only [saveCode, Prog.bind_eq, Protocol.wp_bind, wp_select, hid, hw]
  refine fun d₁ hi₁ _ => ⟨fun _ => ?_, hX _ d₁ hi₁.nil⟩
  rw [interf_promotionCode hi₁ hk hc]
  simp only [hne, ↓reduceIte]
  refine wp_update (fun d₂ r u hi₂ _ hr hu => ?_) fun e d' hi _ => hX e d' (hi₁.nil.trans hi)
  rw [hw, interf_promotionCode (hi₁.trans hi₂) hk hc] at hr
  cases hr
  cases hu
  exact hQ d₂ (hi₁.trans hi₂)

/-- The snapshot that is flushed with `t` is current. -/
def CurrentAt (P : Protocol ι Database LockKey Statement) (i : ι) (t : CreditTransaction) : Prop :=
  ∀ d pending ks, P.cond i (.flushTransaction t pending) d ks →
    (Statement.flushTransaction t pending).Current d ks

/-- No conflict makes the grant of `t` look like a replay. -/
def Unhindered (P : Protocol ι Database LockKey Statement) (i : ι) (t : CreditTransaction) : Prop :=
  ∀ d pending, ¬Conflict P i t pending d

variable {x : RedemptionWrites} {now : Instant} {ids : CreditIds}

/-- The grant of a redemption is posted, with its commit left to the redemption, or
    taken for a replay, which may have rolled the session back. -/
theorem wp_grantOcrCredit {Q : Post Database LockKey GrantCreditCommandResult} (hw : CreditsFrame w)
    (hks : .row (.userCredit x.redemption.userId) ∉ ks)
    (hcurrent : exact → CurrentAt P i (x.transaction ids))
    (hsure : sure → Unhindered P i (x.transaction ids))
    (hX : ∀ e d', P.Interf i [] d d' → X e d')
    (hposted : ∀ w' ks' d' r, P.Interf i ks d d' → ks ⊆ ks' →
      (∀ d'', P.Interf i ks' d' d'' →
        Posted exact (x.transaction ids) [x.grantCommand.outboxRow ids] (w d'') (w' d'')) →
      Q r w' ks' d')
    (hungranted : ∀ d' r, ¬sure → P.Interf i ks d d' → Q r w ks d')
    (hrolledBack : ∀ d' r, ¬sure → P.Interf i [] d d' → Q r id [] d') :
    P.wp i Q (fun e _ _ d => X e d) (grantOcrCredit ⟨x.redemption.userId,
      x.promotion.benefitAmount.value, x.redemption.id, x.creditKey⟩ ids) w ks d := by
  have hamount : CreditAmount.create x.promotion.benefitAmount.value "amount" =
      .ok x.grantCommand.amount := by
    rw [CreditAmount.create, dif_neg (not_lt.2 x.promotion.benefitAmount.one_le)]
    rfl
  have hks' : .row (.userCredit x.grantCommand.userId) ∉ ks := hks
  simp only [grantOcrCredit, hamount, GrantCreditCommand.create, Tx.lift, Prog.bind_eq, Prog.ret_bind]
  refine wp_grantCredit hw hks' rfl hcurrent hX
    (fun d₁ d₂ r hi₁ hdup hi₂ => ?_) (fun w' ks' d' r hi hsub hpost =>
      hposted w' ks' d' r hi hsub hpost)
    fun d₁ d₂ r hi₁ hconf hi₂ => ?_
  · exact hungranted d₂ r (fun h => hsure h d₁ (.insert .zero) (.inl hdup)) (hi₁.trans hi₂)
  · obtain ⟨pending, hconf⟩ := hconf
    exact hrolledBack d₂ r (fun h => hsure h d₁ pending hconf) (hi₁.trans hi₂)

/-- The writes of a redemption up to its grant, made under the locks of its promotion
    and its code: it is still allowed when they are committed. -/
theorem wp_write {Q : Post Database LockKey Unit} (hw : PromotionsFrame w) (hk : x.Locked ks)
    (hseen : x.Seen d) (hpromotion : x.promotion.Redeemable now)
    (hcode : ∀ c ∈ x.code, c.Redeemable now)
    (huser : ∀ d', P.Interf i ks d d' → x.redemption.beneficiaryKey = none →
      (d'.promotionRedemptions.countP (grantedTo x.redemption.userId x.promotion.id) : ℤ) <
        x.promotion.maxRedemptionsPerUser)
    (hX : ∀ e d', P.Interf i [] d d' → X e d')
    (hQ : ∀ ks' d', P.Interf i ks d d' → ks ⊆ ks' →
      (∀ u, .row (.userCredit u) ∈ ks' → .row (.userCredit u) ∈ ks) →
      (∀ d'', P.Interf i ks' d' d'' → x.Allowed now d'') → Q () (x.write ∘ w) ks' d') :
    P.wp i (fun _ => P.wp i (fun _ => P.wp i (fun _ => P.wp i Q (fun e _ _ d => X e d)
      (publish .promotion x.events)) (fun e _ _ d => X e d)
      (match x.code with | some c => saveCode c.recordRedemption | none => .ret ()))
      (fun e _ _ d => X e d) (savePromotion x.promotion.recordRedemption))
      (fun e _ _ d => X e d) (createRedemption x.redemption) w ks d := by
  refine wp_insert (fun d₁ hi₁ _ _ hfresh => ?_)
    (fun d' d'' hi _ hi' _ _ _ => hX _ d'' (hi.nil.trans hi'))
    (by simp) fun d' hi => hX _ d' hi
  have hk₁ := hk.mono (List.subset_append_right (x.redemption.entries.map .entry) ks)
  -- Everything that the redemption rests on is locked now.
  have hallowed {ks' : List LockKey} (hks : x.redemption.entries.map .entry ++ ks ⊆ ks')
      {d' : Database} (hi : P.Interf i ks' d₁ d') : x.Allowed now d' := by
    have hi₁' := hi.anti hks
    refine ⟨fun e he => ?_, (hseen.interf hk hi₁).interf hk₁ hi₁', hpromotion, hcode, ?_⟩
    · exact interf_entry hi₁' (List.mem_append_left _ (List.mem_map_of_mem he))
        (hw.hasEntry he d₁ ▸ hfresh e he)
    · exact huser d' (hi₁.trans hi₁'.append_right)
  refine wp_savePromotion (fun d => hw.promotion d _) hk₁.1 (hseen.interf hk hi₁).1
    (fun e d' hi => hX e d' (hi₁.nil.trans hi)) fun d₂ hi₂ => ?_
  have hpublish {w' : Database → Database} {ks' : List LockKey} {d' : Database}
      (hw : x.write ∘ w = Database.insertOutbox (x.events.map (.of .promotion)) ∘ w')
      (hi : P.Interf i (x.redemption.entries.map .entry ++ ks) d₁ d')
      (hks : x.redemption.entries.map .entry ++ ks ⊆ ks')
      (hrow : ∀ u, .row (.userCredit u) ∈ ks' → .row (.userCredit u) ∈ ks) :
      P.wp i Q (fun e _ _ d => X e d) (publish .promotion x.events) w' ks' d' := by
    rw [wp_publish]
    refine fun d'' hi' _ => ⟨fun _ => ?_, hX _ d'' (hi₁.nil.trans (hi.nil.trans hi'.nil))⟩
    have hi'' := hi.trans (hi'.anti hks)
    rw [← hw]
    exact hQ ks' d'' (hi₁.trans hi''.append_right)
      (List.Subset.trans (List.subset_append_right ..) hks) hrow
      fun d₃ hi₃ => hallowed (List.Subset.refl _) (hi''.trans (hi₃.anti hks))
  cases hc : x.code with
  | none =>
    refine hpublish ?_ hi₂ (List.subset_cons_self ..) fun u hu => ?_
    · funext d; simp only [Function.comp, RedemptionWrites.write, hc]; rfl
    · simpa using hu
  | some c =>
    refine wp_saveCode (fun d => hw.promotionCode d _) (List.mem_cons_of_mem _ (hk₁.2 c hc))
      ((hallowed (List.Subset.refl _) hi₂).seen.2 c hc)
      (fun e d' hi => hX e d' (hi₁.nil.trans (hi₂.nil.trans hi))) fun d₃ hi₃ => ?_
    refine hpublish ?_ (hi₂.trans (hi₃.anti (List.subset_cons_self ..))) (fun k hk => by simp [hk])
      fun u hu => ?_
    · funext d; simp only [Function.comp, RedemptionWrites.write, hc]; rfl
    · simpa using hu

/-- A redemption up to its commit: what it commits is a redemption with its grant,
    without it, or nothing. -/
theorem wp_settle (Q : Post Database LockKey GrantCreditCommandResult) (hw : PromotionsFrame w)
    (hk : x.Locked ks) (hseen : x.Seen d)
    (hpromotion : x.promotion.Redeemable now) (hcode : ∀ c ∈ x.code, c.Redeemable now)
    (huser : ∀ d', P.Interf i ks d d' → x.redemption.beneficiaryKey = none →
      (d'.promotionRedemptions.countP (grantedTo x.redemption.userId x.promotion.id) : ℤ) <
        x.promotion.maxRedemptionsPerUser)
    (hks : .row (.userCredit x.redemption.userId) ∉ ks)
    (hcurrent : exact → CurrentAt P i (x.transaction ids))
    (hsure : sure → Unhindered P i (x.transaction ids))
    (hX : ∀ e d', P.Interf i [] d d' → X e d')
    (hQ : ∀ w' ks' d' r, P.Interf i ks d d' → ks ⊆ ks' →
      (∀ d'', P.Interf i ks' d' d'' → x.Committed exact sure now ids (w d'') (w' d'')) →
      Q r w' ks' d')
    (hback : ∀ d' r, ¬sure → P.Interf i [] d d' → Q r id [] d') :
    P.wp i (fun _ => P.wp i (fun _ => P.wp i (fun _ => P.wp i (fun _ =>
      P.wp i Q (fun e _ _ d => X e d) (grantOcrCredit ⟨x.redemption.userId,
        x.promotion.benefitAmount.value, x.redemption.id, x.creditKey⟩ ids))
      (fun e _ _ d => X e d) (publish .promotion x.events)) (fun e _ _ d => X e d)
      (match x.code with | some c => saveCode c.recordRedemption | none => .ret ()))
      (fun e _ _ d => X e d) (savePromotion x.promotion.recordRedemption))
      (fun e _ _ d => X e d) (createRedemption x.redemption) w ks d := by
  refine wp_write hw hk hseen hpromotion hcode huser hX fun ks₁ d₁ hi₁ hks₁ hrow hallowed => ?_
  have hframe : CreditsFrame (x.write ∘ w) :=
    ⟨fun d => (x.creditsFrame_write.userCredits _).trans (hw.userCredits d),
      fun d => (x.creditsFrame_write.creditTransactions _).trans (hw.creditTransactions d)⟩
  refine wp_grantOcrCredit hframe (fun h => hks (hrow _ h)) hcurrent hsure
    (fun e d' hi => hX e d' (hi₁.nil.trans hi)) (fun w' ks' d' r hi hsub hpost => ?_)
    (fun d' r hex hi => ?_) fun d' r hex hi => hback d' r hex (hi₁.nil.trans hi)
  · exact hQ w' ks' d' r (hi₁.trans (hi.anti hks₁)) (List.Subset.trans hks₁ hsub) fun d'' hi' =>
      .granted (hw.allowed (hallowed d'' (hi.trans (hi'.anti hsub)))) (hpost d'' hi')
  · exact hQ _ ks₁ d' r (hi₁.trans (hi.anti hks₁)) hks₁ fun d'' hi' =>
      .ungranted hex (hw.allowed (hallowed d'' (hi.trans hi')))

/-! ## The redemptions -/

open PromotionRedemptionExecutor

/-- What a redemption by id or by code writes. -/
def PromotionRedemptionExecutor.Attempt.writes (a : Attempt) (now : Instant) (ids : RedemptionIds) :
    RedemptionWrites where
  promotion := a.promotion
  code := a.promotionCode
  redemption := (a.redemption now ids).1
  events := (a.redemption now ids).2
  creditKey := a.idempotencyKey

/-- The results of a redemption that has been made. -/
def CreatePromotionRedemptionResult.IsNew (r : CreatePromotionRedemptionResult)
    (redemptionId : UUID) : Prop :=
  r.redemptionId = redemptionId ∧ r.alreadyRedeemed = false ∧ r.creditGranted = true

/-- The results for a redemption that was made before. -/
def CreatePromotionRedemptionResult.IsReplay (r : CreatePromotionRedemptionResult)
    (redemptionId : UUID) : Prop :=
  r.redemptionId = redemptionId ∧ r.alreadyRedeemed = true ∧ r.creditGranted = false

/-- A redemption commits what it writes, or raises. -/
theorem wp_redeem {a : Attempt} {ids : RedemptionIds}
    {Q : Post Database LockKey CreatePromotionRedemptionResult}
    (hk : (a.writes now ids).Locked ks) (hseen : (a.writes now ids).Seen d)
    (hcount : ∀ d₁ d₂, P.Interf i ks d₁ d₂ →
      d₂.promotionRedemptions.countP (grantedTo a.userId a.promotion.id) =
        d₁.promotionRedemptions.countP (grantedTo a.userId a.promotion.id))
    (hks : .row (.userCredit a.userId) ∉ ks)
    (hcurrent : exact → CurrentAt P i ((a.writes now ids).transaction ids.credit))
    (hsure : sure → Unhindered P i ((a.writes now ids).transaction ids.credit))
    (hX : ∀ e d', P.Interf i [] d d' → X e d')
    (hcommit : ∀ ks' d₁ d₂, P.Interf i [] d d₁ → P.inv d₁ →
      (¬sure ∧ d₂ = d₁ ∨ (a.writes now ids).Locked ks' ∧
        (a.writes now ids).Committed exact sure now ids.credit d₁ d₂) →
      P.inv d₂ ∧ P.guar i ks' d₁ d₂ ∧ ∀ d₃, P.Interf i [] d₂ d₃ →
        X (.fault (.findContent a.promotion.id)) d₃ ∧
          ∀ r, CreatePromotionRedemptionResult.IsNew r ids.redemptionId → Q r id [] d₃) :
    P.wp i Q (fun e _ _ d => X e d) (redeem sqlAlchemyUnitOfWork a now ids) id ks d := by
  -- The commit, and the content that is read after it.
  have hfinish {d₁ d' : Database} {w' : Database → Database} {ks' : List LockKey}
      (hi₁ : P.Interf i [] d d₁) (grantResult : GrantCreditCommandResult) (hi : P.Interf i [] d₁ d')
      (hcom : ∀ d'', P.Interf i ks' d' d'' → ¬sure ∧ w' d'' = d'' ∨ (a.writes now ids).Locked ks' ∧
        (a.writes now ids).Committed exact sure now ids.credit d'' (w' d'')) :
      P.wp i (fun _ => P.wp i (fun content => Q
          (result (a.redemption now ids).1 a.promotion.recordRedemption content false true
            (some grantResult.totalGrantedCount) (some grantResult.remainingCount)))
          (fun e _ _ d => X e d) (findContentByPromotionId a.promotion.id))
        (fun e _ _ d => X e d) sqlAlchemyUnitOfWork.commit w' ks' d' := by
    rw [wp_commit]
    refine fun d₂ hi₂ hd₂ => ⟨?_, hX _ d₂ (hi₁.trans (hi.trans hi₂.nil))⟩
    obtain ⟨hinv, hguar, hafter⟩ :=
      hcommit ks' d₂ (w' d₂) (hi₁.trans (hi.trans hi₂.nil)) hd₂ (hcom d₂ hi₂)
    refine ⟨hinv, hguar, ?_⟩
    simp only [findContentByPromotionId, wp_select]
    exact fun d₃ hi₃ _ => ⟨fun _ => (hafter d₃ hi₃).2 _ ⟨rfl, rfl, rfl⟩, (hafter d₃ hi₃).1⟩
  -- All that follows the count of the redemptions of the user, with a code or without.
  have hsettle {d₁ : Database} (hi₁ : P.Interf i ks d d₁) (hp : a.promotion.Redeemable now)
      (hc : ∀ c ∈ a.promotionCode, c.Redeemable now)
      (hu : (d₁.promotionRedemptions.countP (grantedTo a.userId a.promotion.id) : ℤ) <
        a.promotion.maxRedemptionsPerUser) :=
    wp_settle (fun grantResult => P.wp i (fun _ => P.wp i (fun content => Q
          (result (a.redemption now ids).1 a.promotion.recordRedemption content false true
            (some grantResult.totalGrantedCount) (some grantResult.remainingCount)))
          (fun e _ _ d => X e d) (findContentByPromotionId a.promotion.id))
        (fun e _ _ d => X e d) sqlAlchemyUnitOfWork.commit)
      promotionsFrame_id hk (hseen.interf hk hi₁) hp hc (fun d₂ hi₂ _ => hcount d₁ d₂ hi₂ ▸ hu) hks
      hcurrent hsure (fun e d' hi => hX e d' (hi₁.nil.trans hi))
      (fun w' ks' d' r hi hsub hcom => hfinish hi₁.nil r hi.nil fun d'' hi' =>
        .inr ⟨hk.mono hsub, hcom d'' hi'⟩)
      fun d' r hex hi => hfinish hi₁.nil r hi fun _ _ => .inl ⟨hex, rfl⟩
  unfold redeem
  cases hc : a.promotionCode with
  | none =>
    simp only [Prog.bind_eq, Protocol.wp_bind_eq, Prog.pure_eq, wp_lift,
      countUserRedemptions, wp_select]
    refine ⟨fun _ hp d₁ hi₁ _ =>
      ⟨fun _ => ⟨fun _ hu => ?_, fun e _ => hX _ d₁ hi₁.nil⟩, hX _ d₁ hi₁.nil⟩, fun e _ =>
        hX _ d .refl⟩
    have := hsettle hi₁ (Promotion.ensureRedeemable_ok.1 hp) (by simp [hc])
      (Promotion.ensureUserCanRedeem_ok.1 hu)
    simp only [Attempt.writes, hc] at this
    exact this
  | some c =>
    simp only [Prog.bind_eq, Protocol.wp_bind_eq, Prog.pure_eq, wp_lift,
      countUserRedemptions, wp_select]
    refine ⟨fun _ hcode =>
      ⟨fun _ hp d₁ hi₁ _ => ⟨fun _ => ⟨fun _ hu => ?_, fun e _ => hX _ d₁ hi₁.nil⟩,
      hX _ d₁ hi₁.nil⟩, fun e _ => hX _ d .refl⟩, fun e _ => hX _ d .refl⟩
    have := hsettle hi₁ (Promotion.ensureRedeemable_ok.1 hp)
      (by simpa [hc] using PromotionCode.ensureRedeemable_ok.1 hcode)
      (Promotion.ensureUserCanRedeem_ok.1 hu)
    simp only [Attempt.writes, hc] at this
    exact this

/-- A replay returns the redemption it has found, if there still is its promotion. -/
theorem wp_replayRedemption {userId : UUID} {existing : PromotionRedemption}
    {Q : Post Database LockKey CreatePromotionRedemptionResult}
    (hX : ∀ s d', P.Interf i [] d d' → X (.fault s) d')
    (hmissing : ∀ d', P.Interf i [] d d' → (w d').promotion existing.promotionId = none →
      X (.domain .promotionNotFound) d')
    (hQ : ∀ r ks' d', P.Interf i [] d d' → r.IsReplay existing.id → Q r w ks' d') :
    P.wp i Q (fun e _ _ d => X e d) (replay userId existing) w ks d := by
  simp only [replay, findPromotionForUpdate, Prog.bind_eq, Protocol.wp_bind_eq, wp_selectForUpdate]
  refine fun d₁ hi₁ _ => ⟨fun _ => ?_, hX _ d₁ hi₁.nil⟩
  cases hp : (w d₁).promotion existing.promotionId with
  | none => exact hmissing d₁ hi₁.nil hp
  | some p =>
    simp only [SqlAlchemyCreditRepository.getBalance, findContentByPromotionId, Protocol.wp_bind_eq,
      wp_select]
    refine fun d₂ hi₂ _ => ⟨fun _ => ?_, hX _ d₂ (hi₁.nil.trans hi₂.nil)⟩
    intro d₃ hi₃ _
    have hi := hi₁.nil.trans (hi₂.nil.trans hi₃.nil)
    exact ⟨fun _ => hQ _ _ d₃ hi ⟨rfl, rfl, rfl⟩, hX _ d₃ hi⟩

variable {R : CreatePromotionRedemptionResult → Database → Prop}

/-- A redemption is replayed, if its key is found, or made. -/
theorem wp_replayOrRedeem {a : Attempt} {ids : RedemptionIds}
    (hk : (a.writes now ids).Locked ks) (hseen : (a.writes now ids).Seen d)
    (hcount : ∀ d₁ d₂, P.Interf i ks d₁ d₂ →
      d₂.promotionRedemptions.countP (grantedTo a.userId a.promotion.id) =
        d₁.promotionRedemptions.countP (grantedTo a.userId a.promotion.id))
    (hks : .row (.userCredit a.userId) ∉ ks)
    (hcurrent : exact → CurrentAt P i ((a.writes now ids).transaction ids.credit))
    (hsure : sure → Unhindered P i ((a.writes now ids).transaction ids.credit))
    (hX : ∀ e d', P.Interf i [] d d' → X e d')
    (hcommit : ∀ ks' d₁ d₂, P.Interf i [] d d₁ → P.inv d₁ →
      (¬sure ∧ d₂ = d₁ ∨ (a.writes now ids).Locked ks' ∧
        (a.writes now ids).Committed exact sure now ids.credit d₁ d₂) →
      P.inv d₂ ∧ P.guar i ks' d₁ d₂ ∧ ∀ d₃, P.Interf i [] d₂ d₃ →
        X (.fault (.findContent a.promotion.id)) d₃ ∧
          ∀ r, CreatePromotionRedemptionResult.IsNew r ids.redemptionId → R r d₃)
    (hreplay : ∀ d₁ existing, P.Interf i [] d d₁ → P.inv d₁ → existing ∈ d₁.promotionRedemptions →
      existing.idempotencyKey = a.idempotencyKey → ∀ d₂ r, P.Interf i [] d₁ d₂ →
      CreatePromotionRedemptionResult.IsReplay r existing.id → R r d₂) :
    P.wp i (fun r _ _ d => R r d) (fun e _ _ d => X e d)
      (replayOrRedeem sqlAlchemyUnitOfWork a now ids) id ks d := by
  simp only [replayOrRedeem, findRedemptionByIdempotencyKey, Prog.bind_eq,
    Protocol.wp_bind, wp_select]
  refine fun d₁ hi₁ hd₁ => ⟨fun _ => ?_, hX _ d₁ hi₁.nil⟩
  have hX₁ (e : Error) (d' : Database) (hi : P.Interf i [] d₁ d') : X e d' :=
    hX e d' (hi₁.nil.trans hi)
  cases hf : (id d₁).promotionRedemptions.find? (·.idempotencyKey = a.idempotencyKey) with
  | none =>
    exact wp_redeem hk (hseen.interf hk hi₁) hcount hks hcurrent hsure hX₁ fun ks' d₂ d₃ hi =>
      hcommit ks' d₂ d₃ (hi₁.nil.trans hi)
  | some existing =>
    refine wp_replayRedemption (fun s d' => hX₁ _ d') (fun d' hi _ => hX₁ _ d' hi)
      fun r _ d' hi => hreplay d₁ existing hi₁.nil hd₁ (List.mem_of_find?_eq_some hf) ?_ d' r hi
    simpa using List.find?_some hf

/-- A request finds the redemption that was made before, if it still is there. -/
theorem wp_replayOrRedeem_replay {a : Attempt} {ids : RedemptionIds} {redemptionId : UUID}
    (hfound : ∀ d', P.Interf i [] d d' → ∃ existing ∈ d'.promotionRedemptions,
      existing.idempotencyKey = a.idempotencyKey)
    (hid : ∀ d', P.Interf i [] d d' → ∀ existing ∈ d'.promotionRedemptions,
      existing.idempotencyKey = a.idempotencyKey → existing.id = redemptionId ∧
        ∀ d'', P.Interf i [] d' d'' → d''.promotion existing.promotionId ≠ none)
    (hX : ∀ s d', P.Interf i [] d d' → X (.fault s) d')
    (hR : ∀ r d', P.Interf i [] d d' →
      CreatePromotionRedemptionResult.IsReplay r redemptionId → R r d') :
    P.wp i (fun r _ _ d => R r d) (fun e _ _ d => X e d)
      (replayOrRedeem sqlAlchemyUnitOfWork a now ids) id ks d := by
  simp only [replayOrRedeem, findRedemptionByIdempotencyKey, Prog.bind_eq,
    Protocol.wp_bind, wp_select]
  refine fun d₁ hi₁ _ => ⟨fun _ => ?_, hX _ d₁ hi₁.nil⟩
  cases hf : (id d₁).promotionRedemptions.find? (·.idempotencyKey = a.idempotencyKey) with
  | none =>
    obtain ⟨existing, hmem, hkey⟩ := hfound d₁ hi₁.nil
    exact absurd (List.find?_eq_none.1 hf existing hmem) (by simpa using hkey)
  | some existing =>
    have hkey : existing.idempotencyKey = a.idempotencyKey := by simpa using List.find?_some hf
    obtain ⟨rfl, hp⟩ := hid d₁ hi₁.nil existing (List.mem_of_find?_eq_some hf) hkey
    exact wp_replayRedemption (fun s d' hi => hX s d' (hi₁.nil.trans hi))
      (fun d' hi h => absurd h (hp d' hi)) fun r _ d' hi => hR r d' (hi₁.nil.trans hi)

/-! ## The requests -/

/-- The attempts that a request by id makes. -/
def CreatePromotionRedemptionCommand.Attempts (command : CreatePromotionRedemptionCommand)
    (a : Attempt) : Prop :=
  ∃ p : Promotion, p.id = command.promotionId ∧ p.context ≠ some .signup ∧
    a = ⟨command.userId, p, none, CreatePromotionRedemptionCommandUseCase.idempotencyKey command⟩

/-- The attempts that a request by code makes. -/
def CreatePromotionCodeRedemptionCommand.Attempts [CaseFolding]
    (command : CreatePromotionCodeRedemptionCommand) (a : Attempt) : Prop :=
  ∃ (p : Promotion) (c : PromotionCode), p.id = c.promotionId ∧ p.context ≠ some .signup ∧
    sqlLower c.code = lower command.code ∧
    a = ⟨command.userId, p, some c,
      CreatePromotionCodeRedemptionCommandUseCase.idempotencyKey command c⟩

/-- What the analysis of a redemption assumes of the others, and shows of itself. -/
structure RedemptionRule (P : Protocol ι Database LockKey Statement) (i : ι) (exact sure : Prop)
    (now : Instant) (ids : RedemptionIds) (userId : UUID) (Attempts : Attempt → Prop)
    (R : CreatePromotionRedemptionResult → Database → Prop) (X : Error → Database → Prop)
    (d : Database) : Prop where
  count : ∀ p ks d₁ d₂, .row (.promotion p) ∈ ks → P.Interf i ks d₁ d₂ →
    d₂.promotionRedemptions.countP (grantedTo userId p) =
      d₁.promotionRedemptions.countP (grantedTo userId p)
  current : exact → ∀ t, CurrentAt P i t
  unhindered : sure → ∀ t, Unhindered P i t
  raises : ∀ e d', P.Interf i [] d d' → X e d'
  commits : ∀ a, Attempts a → ∀ ks' d₁ d₂, P.Interf i [] d d₁ → P.inv d₁ →
    (¬sure ∧ d₂ = d₁ ∨ (a.writes now ids).Locked ks' ∧
      (a.writes now ids).Committed exact sure now ids.credit d₁ d₂) →
    P.inv d₂ ∧ P.guar i ks' d₁ d₂ ∧ ∀ d₃, P.Interf i [] d₂ d₃ →
      X (.fault (.findContent a.promotion.id)) d₃ ∧
        ∀ r, CreatePromotionRedemptionResult.IsNew r ids.redemptionId → R r d₃
  replays : ∀ a, Attempts a → ∀ d₁ existing, P.Interf i [] d d₁ → P.inv d₁ →
    existing ∈ d₁.promotionRedemptions → existing.idempotencyKey = a.idempotencyKey →
    ∀ d₂ r, P.Interf i [] d₁ d₂ → CreatePromotionRedemptionResult.IsReplay r existing.id → R r d₂

variable {ids : RedemptionIds}

/-- The executor follows the rule, once it has its promotion and its code. -/
theorem RedemptionRule.wp_replayOrRedeem {Attempts : Attempt → Prop} {a : Attempt} {d₁ : Database}
    (h : RedemptionRule P i exact sure now ids a.userId Attempts R X d) (ha : Attempts a)
    (hk : (a.writes now ids).Locked ks) (hseen : (a.writes now ids).Seen d₁)
    (hks : .row (.userCredit a.userId) ∉ ks) (hi₁ : P.Interf i [] d d₁) :
    P.wp i (fun r _ _ d => R r d) (fun e _ _ d => X e d)
      (replayOrRedeem sqlAlchemyUnitOfWork a now ids) id ks d₁ :=
  Boat.wp_replayOrRedeem hk hseen (fun d₁ d₂ => h.count _ _ d₁ d₂ hk.1) hks
    (fun hex => h.current hex _)
    (fun hs => h.unhindered hs _)
    (fun e d' hi => h.raises e d' (hi₁.trans hi))
    (fun ks' d₂ d₃ hi => h.commits a ha ks' d₂ d₃ (hi₁.trans hi))
    fun d₂ existing hi => h.replays a ha d₂ existing (hi₁.trans hi)

theorem refuseSignup_ok {p : Promotion} : refuseSignup p = .ok () ↔ p.context ≠ some .signup := by
  unfold refuseSignup
  rcases p.context with _ | _ | _ <;> simp

/-- A request by id follows the rule. -/
theorem wp_createPromotionRedemption {command : CreatePromotionRedemptionCommand}
    (h : RedemptionRule P i exact sure now ids command.userId command.Attempts R X d) :
    P.wp i (fun r _ _ d => R r d) (fun e _ _ d => X e d)
      (CreatePromotionRedemptionCommandUseCase.execute sqlAlchemyUnitOfWork command now ids)
        id [] d := by
  simp only [CreatePromotionRedemptionCommandUseCase.execute, findPromotionForUpdate, Prog.bind_eq,
    Protocol.wp_bind_eq, wp_selectForUpdate]
  refine fun d₁ hi₁ _ => ⟨fun _ => ?_, h.raises _ d₁ hi₁⟩
  cases hp : (id d₁).promotion command.promotionId with
  | none => exact h.raises _ d₁ hi₁
  | some p =>
    have hid : p.id = command.promotionId := (Table.find_eq_some.1 hp).2
    simp only [wp_lift, Protocol.wp_bind_eq]
    refine ⟨fun _ hctx => ?_, fun e _ => h.raises _ d₁ hi₁⟩
    refine h.wp_replayOrRedeem (a := ⟨command.userId, p, none, _⟩)
      ⟨p, hid, refuseSignup_ok.1 hctx, rfl⟩
      ?_ ?_ ?_ hi₁
    · exact ⟨by simp [Attempt.writes], by simp [Attempt.writes]⟩
    · exact ⟨hid ▸ hp, by simp [Attempt.writes]⟩
    · simp

/-- A request by code follows the rule. -/
theorem wp_createPromotionCodeRedemption [CaseFolding]
    {command : CreatePromotionCodeRedemptionCommand}
    (h : RedemptionRule P i exact sure now ids command.userId command.Attempts R X d) :
    P.wp i (fun r _ _ d => R r d) (fun e _ _ d => X e d)
      (CreatePromotionCodeRedemptionCommandUseCase.execute sqlAlchemyUnitOfWork command now ids)
      id [] d := by
  simp only [CreatePromotionCodeRedemptionCommandUseCase.execute, findCodeByCodeForUpdate,
    findPromotionForUpdate, Prog.bind_eq, Protocol.wp_bind_eq, wp_selectForUpdate]
  refine fun d₁ hi₁ _ => ⟨fun _ => ?_, h.raises _ d₁ hi₁⟩
  cases hc : (id d₁).promotionCodes.rows.find? fun c => sqlLower c.code = lower command.code with
  | none => exact h.raises _ d₁ hi₁
  | some c =>
    have hcode : sqlLower c.code = lower command.code := by simpa using List.find?_some hc
    have hrow : d₁.promotionCode c.id = some c :=
      Table.find_eq_some.2 ⟨List.mem_of_find?_eq_some hc, rfl⟩
    simp only [Protocol.wp_bind_eq, wp_selectForUpdate]
    refine fun d₂ hi₂ _ => ⟨fun _ => ?_, h.raises _ d₂ (hi₁.trans hi₂.nil)⟩
    have hrow₂ := interf_promotionCode hi₂ (by simp) hrow
    cases hp : (id d₂).promotion c.promotionId with
    | none => exact h.raises _ d₂ (hi₁.trans hi₂.nil)
    | some p =>
      have hid : p.id = c.promotionId := (Table.find_eq_some.1 hp).2
      simp only [wp_lift, Protocol.wp_bind_eq]
      refine ⟨fun _ hctx => ?_, fun e _ => h.raises _ d₂ (hi₁.trans hi₂.nil)⟩
      refine h.wp_replayOrRedeem (a := ⟨command.userId, p, some c, _⟩)
        ⟨p, c, hid, refuseSignup_ok.1 hctx, hcode, rfl⟩ ?_ ?_ ?_ (hi₁.trans hi₂.nil)
      · exact ⟨by simp [Attempt.writes], by simp [Attempt.writes]⟩
      · exact ⟨hid ▸ hp, by simpa [Attempt.writes] using hrow₂⟩
      · simp

/-! ## Signup -/

/-- What a redemption on signup writes. -/
def RedeemSignupPromotionCommand.writes (command : RedeemSignupPromotionCommand) (p : Promotion)
    (now : Instant) (ids : RedemptionIds) : RedemptionWrites where
  promotion := p
  code := none
  redemption := (RedeemSignupPromotionCommandUseCase.redemption command p now ids).1
  events := (RedeemSignupPromotionCommandUseCase.redemption command p now ids).2
  creditKey := RedeemSignupPromotionCommandUseCase.creditIdempotencyKey p.id ids.redemptionId

/-- The candidates are locked one after the other, up to the first that still matches. -/
theorem wp_lockFirst {Q : Post Database LockKey (Option Promotion)} {context : PromotionContext}
    (hw : PromotionsFrame w) (hX : ∀ e d', P.Interf i [] d d' → X e d') (candidates : List UUID)
    (hQ : ∀ o ks' d', P.Interf i ks d d' → ks ⊆ ks' →
      (∀ u, .row (.userCredit u) ∈ ks' → .row (.userCredit u) ∈ ks) →
      (∀ p, o = some p → .row (.promotion p.id) ∈ ks' ∧ d'.promotion p.id = some p) → Q o w ks' d') :
    P.wp i Q (fun e _ _ d => X e d) (lockFirst now context candidates) w ks d := by
  induction candidates generalizing ks d with
  | nil => exact hQ none ks d .refl (List.Subset.refl ks) (fun _ h => h) (by simp)
  | cons c candidates ih =>
    simp only [lockFirst, Prog.bind_eq, Protocol.wp_bind_eq, wp_selectForUpdate, hw.promotion]
    refine fun d₁ hi₁ _ => ⟨fun _ => ?_, hX _ d₁ hi₁.nil⟩
    cases hp : d₁.promotion c with
    | none =>
      exact ih (fun e d' hi => hX e d' (hi₁.nil.trans hi)) fun o ks' d' hi =>
        hQ o ks' d' (hi₁.trans hi)
    | some p =>
      have hid : p.id = c := (Table.find_eq_some.1 hp).2
      by_cases hcur : isCurrent now context p
      · simp only [Option.filter_some, hcur, ↓reduceIte]
        refine hQ (some p) _ d₁ hi₁ (by simp) (by simp) fun q hq => ?_
        cases hq
        exact ⟨by simp, hid ▸ hp⟩
      · simp only [Option.filter_some, hcur]
        refine ih (fun e d' hi => hX e d' (hi₁.nil.trans hi)) fun o ks' d' hi hks hrow => ?_
        refine hQ o ks' d' (hi₁.trans hi.append_right)
          (List.Subset.trans (List.subset_append_right ..) hks) fun u hu => ?_
        simpa using hrow u hu

/-- A redemption on signup is left to be committed by the caller, or not made; or the
    session has been rolled back. -/
theorem wp_redeemSignup {command : RedeemSignupPromotionCommand} {Q : Post Database LockKey Bool}
    (hw : PromotionsFrame w) (hks : .row (.userCredit command.userId) ∉ ks)
    (hcurrent : exact → ∀ t, CurrentAt P i t) (hsure : sure → ∀ t, Unhindered P i t)
    (hX : ∀ e d', P.Interf i [] d d' → X e d')
    (hfalse : ∀ ks' d', P.Interf i ks d d' → ks ⊆ ks' → Q false w ks' d')
    (htrue : ∀ p w' ks' d', P.Interf i ks d d' → ks ⊆ ks' → (command.writes p now ids).Locked ks' →
      (∀ d'', P.Interf i ks' d' d'' →
        (command.writes p now ids).Committed exact sure now ids.credit (w d'') (w' d'')) →
          Q true w' ks' d')
    (hback : ∀ d', ¬sure → P.Interf i [] d d' → Q true id [] d') :
    P.wp i Q (fun e _ _ d => X e d) (RedeemSignupPromotionCommandUseCase.execute
      (deferredCommitUnitOfWork none) command now ids) w ks d := by
  simp only [RedeemSignupPromotionCommandUseCase.execute, findCurrentOcrCreditPromotionForUpdate,
    Prog.bind_eq, Protocol.wp_bind_eq, wp_select]
  refine fun d₁ hi₁ _ => ⟨fun _ => ?_, hX _ d₁ hi₁.nil⟩
  refine wp_lockFirst hw (fun e d' hi => hX e d' (hi₁.nil.trans hi)) _
    fun o ks₂ d₂ hi₂ hks₂ hrow hlock => ?_
  have hi₁₂ := hi₁.trans hi₂
  cases o with
  | none => exact hfalse ks₂ d₂ hi₁₂ hks₂
  | some p =>
    obtain ⟨hk, hp⟩ := hlock p rfl
    simp only [findRedemptionByPromotionAndBeneficiary, Protocol.wp_bind_eq, wp_select]
    refine fun d₃ hi₃ _ => ⟨fun _ => ?_, hX _ d₃ (hi₁₂.nil.trans hi₃.nil)⟩
    have hi₁₃ := hi₁₂.trans (hi₃.anti hks₂)
    cases (w d₃).promotionRedemptions.find? fun r =>
        r.promotionId = p.id ∧ r.beneficiaryKey = some command.beneficiaryKey with
    | some _ => exact hfalse ks₂ d₃ hi₁₃ hks₂
    | none =>
      simp only [Protocol.wp_bind_eq, wp_lift]
      refine ⟨fun _ hred => ?_, fun e _ => hX _ d₃ hi₁₃.nil⟩
      -- The promotion is locked and current, and the beneficiary has not redeemed it.
      have hlocked : (command.writes p now ids).Locked ks₂ :=
        ⟨hk, by simp [RedeemSignupPromotionCommand.writes]⟩
      exact wp_settle (x := command.writes p now ids) (fun _ => Q true) hw hlocked
        ⟨interf_promotion hi₃ hk hp, by simp [RedeemSignupPromotionCommand.writes]⟩
        (Promotion.ensureRedeemable_ok.1 hred) (by simp [RedeemSignupPromotionCommand.writes])
        (fun _ _ h => by cases h) (fun h => hks (hrow _ h)) (fun hex => hcurrent hex _)
        (fun hs => hsure hs _)
        (fun e d' hi => hX e d' (hi₁₃.nil.trans hi))
        (fun w' ks' d' _ hi hsub hcom => htrue p w' ks' d' (hi₁₃.trans (hi.anti hks₂))
          (List.Subset.trans hks₂ hsub) (hlocked.mono hsub) hcom)
        fun d' _ hex hi => hback d' hex (hi₁₃.nil.trans hi)

end

end Boat
