import Boat.Ledger
import Boat.Limits

/-!
# Redemptions

Whether a redemption by id or by code is truthful and atomic, under any requests that
run at the same time. A redemption that returns that it has granted credit has
committed all it writes at once (`Redeemed`), and one that raises before the end of its
commit has committed nothing (`redemption_atomic`), in all runs in which the grant of the
redemption is not in conflict with other grants (`Unconflicted`).

Without the condition, the grant rolls back the session that it shares with the
redemption, which goes on to commit nothing, and to report that it has granted credit
(`redemption_lost`).
-/

namespace Boat

open ReadCommitted PromotionRedemptionExecutor

/-- What is committed together by a redemption. -/
structure Redeemed (a : Attempt) (now : Instant) (ids : RedemptionIds) (d d' : Database) : Prop where
  redemption : d'.promotionRedemptions = d.promotionRedemptions ++ [(a.redemption now ids).1]
  promotion : d.promotion a.promotion.id = some a.promotion ∧
    d'.promotion a.promotion.id =
      some { a.promotion with timesRedeemed := a.promotion.timesRedeemed + 1 }
  code : ∀ c, a.promotionCode = some c → d.promotionCode c.id = some c ∧
    d'.promotionCode c.id = some { c with timesRedeemed := c.timesRedeemed + 1 }
  ledger : ∃ t, d'.creditTransactions = d.creditTransactions ++ [t] ∧ t.action = .grant ∧
    t.userId = a.userId ∧ t.source = some ⟨.promotionRedemption, ids.redemptionId⟩ ∧
    t.amount.value = a.promotion.benefitAmount.value
  granted : (d'.balance a.userId).totalGrantedCount =
    (d.balance a.userId).totalGrantedCount + a.promotion.benefitAmount.value
  remaining : (d'.balance a.userId).remainingCount =
    (d.balance a.userId).remainingCount + a.promotion.benefitAmount.value
  outbox : ∃ p c, d'.outboxEvents = d.outboxEvents ++ [p, c] ∧
    p.event = .promotion (.promotionRedemptionGranted ids.redemptionId a.promotion.id a.userId
      (a.promotionCode.map (·.id)) a.promotion.benefitAmount.value a.idempotencyKey) ∧
    c.event = .credit (.creditGranted a.userId a.promotion.benefitAmount.value .eventOcrAllowance
      (some ⟨.promotionRedemption, ids.redemptionId⟩) (some a.idempotencyKey))

section

variable {x : RedemptionWrites} {now : Instant} {ids : RedemptionIds} {d d' : Database}

theorem RedemptionWrites.write_outboxEvents (d : Database) :
    (x.write d).outboxEvents = d.outboxEvents ++ x.events.map (.of .promotion) := by
  cases h : x.code <;> simp only [write, h] <;> rfl

theorem RedemptionWrites.balance_write (d : Database) (u : UUID) :
    (x.write d).balance u = d.balance u := by
  rw [Database.balance, x.creditsFrame_write.userCredits]
  rfl

/-- A redemption that has been committed with its grant is complete. -/
theorem RedemptionWrites.Committed.redeemed {a : Attempt} {exact sure : Prop}
    (h : (a.writes now ids).Committed exact sure now ids.credit d d') (hexact : exact)
    (hsure : sure) :
    Redeemed a now ids d d' := by
  have hseen := h.allowed.seen
  have hp := h.promotion a.promotion.id
  have hr := h.redemptions
  have hcode (c : PromotionCode) (hc : a.promotionCode = some c) :
      d'.promotionCode c.id = some c.recordRedemption := by
    have hx : (a.writes now ids).code = some c := hc
    rw [h.promotionCode, hx]
    exact if_pos rfl
  -- A grant is missed only by a conflict, which `sure` excludes.
  cases h with
  | ungranted h => exact absurd hsure h
  | granted _ h =>
    obtain ⟨o, hd', ho⟩ := h.eq
    obtain ⟨b, rfl, hb⟩ := ho hexact
    rw [RedemptionWrites.balance_write] at hb
    have hbal : d'.balance a.userId = b := by
      have : d'.userCredits a.userId = some b := by
        rw [hd', Database.userCredits_setUserCredit]
        exact if_pos rfl
      rw [Database.balance, this]
      rfl
    refine ⟨hr, ⟨hseen.1, ?_⟩, fun c hc => ⟨hseen.2 c hc, hcode c hc⟩, ?_, ?_, ?_, ?_⟩
    · rw [hp]
      exact if_pos rfl
    · refine ⟨(a.writes now ids).transaction ids.credit, ?_, rfl, rfl, rfl, rfl⟩
      rw [← (a.writes now ids).creditsFrame_write.creditTransactions d, hd']
      rfl
    · rw [hbal]
      exact hb.1
    · have hgranted : b.totalGrantedCount = (d.balance a.userId).totalGrantedCount +
          a.promotion.benefitAmount.value := hb.1
      have hused : b.usedCount = (d.balance a.userId).usedCount := hb.2
      have hc := (d.balance a.userId).consistent
      have hc' := b.consistent
      rw [hbal]
      omega
    · refine ⟨.of .promotion ⟨ids.stamp, _⟩, (a.writes now ids).grantCommand.outboxRow ids.credit, ?_,
        rfl, rfl⟩
      have hw := (a.writes now ids).write_outboxEvents d
      rw [hd']
      exact (congrArg (· ++ _) hw).trans (List.append_assoc ..)

end

/-! ## The condition -/

namespace Request

/-- A redemption by id or by code. -/
def IsRedemption : Request → Prop
  | .redeem .. | .redeemCode .. => True
  | _ => False

instance : DecidablePred IsRedemption := fun r => by
  cases r <;> unfold IsRedemption <;> infer_instance

end Request

/-- The identities of the redemptions are fresh. -/
structure FreshRedemptions {ι : Type} (req : ι → Request) (d : Database) : Prop where
  inj : ∀ i j x y, (req i).redemptionIds = some x → (req j).redemptionIds = some y →
    x.redemptionId = y.redemptionId → i = j
  new : ∀ i x, (req i).redemptionIds = some x → ∀ r ∈ d.promotionRedemptions, r.id ≠ x.redemptionId

section

variable {ι : Type}

/-- The condition of the runs in which no grant of a redemption meets another grant: its
    snapshot is current, the first row of a user is inserted when there is none, and there
    is no transaction with its key or its source. -/
def Unconflicted (req : ι → Request) : Condition ι Database LockKey Statement :=
  fun i s d ks => (req i).IsRedemption →
    s.Current d ks ∧ s.FirstRow d ∧ ∀ e ∈ s.entries, d.hasEntry e = false

instance (req : ι → Request) (i : ι) (s : Statement) (d : Database) (ks : List LockKey) :
    Decidable (Unconflicted req i s d ks) := inferInstanceAs (Decidable (_ → _))

variable [CaseFolding] {req : ι → Request} {d : Database}

/-- The redemption of a request has been committed. -/
def RedemptionCommitted (r : Request) (d : Database) : Prop :=
  ∃ ids, r.redemptionIds = some ids ∧ ∃ q ∈ d.promotionRedemptions, q.id = ids.redemptionId

/-- A request that is not the one of a redemption does not commit it. -/
theorem FreshRedemptions.of_change (h : FreshRedemptions req d) {i j : ι} {exact sure : Prop}
    {ks : List LockKey} {d₁ d₂ : Database} (hc : (req j).Change exact sure ks d₁ d₂)
    (h₁ : ¬RedemptionCommitted (req i) d₁) (h₂ : RedemptionCommitted (req i) d₂) : i = j ∧
      ∃ x now ids, (req j).Redeems x now ids ∧ x.Committed exact sure now ids.credit d₁ d₂ := by
  obtain ⟨ids, hids, q, hq, hid⟩ := h₂
  rcases hc.promotions with ⟨_, _, hr⟩ | ⟨x, now, ids', hr, _, hcom⟩
  · exact absurd ⟨ids, hids, q, hr ▸ hq, hid⟩ h₁
  · rw [hcom.redemptions, List.mem_append, List.mem_singleton] at hq
    rcases hq with hq | rfl
    · exact absurd ⟨ids, hids, q, hq, hid⟩ h₁
    · exact ⟨h.inj i j ids ids' hids hr.redemptionIds (hid.symm.trans hr.proper.id), x, now,
        ids', hr, hcom⟩

/-- A redemption that is sure of its grant commits itself. -/
theorem Request.Change.committed {r : Request} (hr : r.IsRedemption) {exact : Prop}
    {ks : List LockKey} {d₁ d₂ : Database} (hc : r.Change exact r.IsRedemption ks d₁ d₂) :
    RedemptionCommitted r d₂ := by
  cases hc with
  | posted hp => cases r <;> first | exact hp.elim | exact hr.elim
  | @redeemed x now ids _ h _ hcom =>
    refine ⟨ids, h.redemptionIds, x.redemption, ?_, h.proper.id⟩
    rw [hcom.redemptions]
    exact List.mem_append_right _ (List.mem_singleton_self _)
  | nothing hn => cases r <;> first | exact absurd hr hn | exact hr.elim
  | withdrawn hw => exact (hw ▸ hr : (Request.withdraw _ _).IsRedemption).elim

theorem redemption_bills (hids : FreshRedemptions req d) :
    Bills (fun _ => True) (fun i => (req i).IsRedemption) (fun i => (req i).IsRedemption)
      (Unconflicted req) req d
      (fun i a d => (req i).IsRedemption → ∀ result, a = .redeemed result →
        result.creditGranted = true →
        (∃ ids, (req i).redemptionIds = some ids ∧ ids.redemptionId = result.redemptionId) ∧
          RedemptionCommitted (req i) d)
      (fun i e d => (∃ p, e = .fault (.findContent p)) ∨ ¬RedemptionCommitted (req i) d) where
  init := trivial
  keeps _ _ _ _ _ _ := trivial
  current i hi t d pending ks hc := (hc hi).1
  unhindered i hi t d pending := by
    rintro (⟨e, _, hentry, s, ks, he, hc⟩ | ⟨b, ks, rfl, hc, hne⟩)
    · exact Bool.false_ne_true (((hc hi).2.2 e he).symm.trans hentry)
    · exact hne (hc hi).2.1
  raises i e := .inr fun ⟨ids, hi, q, hq, hid⟩ => hids.new i ids hi q hq hid
  returns i ks d₁ d₂ _ _ hc := by
    refine ⟨fun a ha hi result hres _ => ⟨?_, hc.committed hi⟩, fun p => .inl ⟨p, rfl⟩⟩
    subst hres
    cases h : req i with
    -- The response has the identity that the request has for its redemption.
    | redeem | redeemCode =>
      rw [h] at ha
      exact ⟨_, rfl, ha.1.symm⟩
    | grantCredit | useCredit | extractReceiptOcr | redeemSignup | withdraw =>
      rw [h] at hi
      exact hi.elim
  replays i d₁ a _ _ hr hi result hres hgranted := by
    subst hres
    cases h : req i with
    | redeem | redeemCode =>
      rw [h] at hr
      obtain ⟨_, _, existing, _, _, hrep⟩ := hr
      exact absurd hgranted (by simp [hrep.2.2])
    | grantCredit | useCredit | extractReceiptOcr | redeemSignup | withdraw =>
      rw [h] at hi
      exact hi.elim
  stable_ret i a d₁ d₂ h hd₁ hi result hres hgranted := by
    obtain ⟨j, ks, _, _, _, _, hc, _⟩ := h
    obtain ⟨hid, ids, hids, q, hq, hqid⟩ := hd₁ hi result hres hgranted
    exact ⟨hid, ids, hids, q, Request.Change.mem_redemptions hc hq, hqid⟩
  stable_raise i e d₁ d₂ h hd₁ := by
    obtain ⟨j, ks, hne, _, _, _, hc, _⟩ := h
    exact hd₁.imp_right fun h₁ h₂ => hne (hids.of_change hc h₁ h₂).1.symm

variable [DecidableEq ι] {s s' : System ι Database Statement Error Response}

/-- A redemption that has been committed stays. -/
theorem RedemptionCommitted.reach (hids : FreshRedemptions req d)
    (hs : Reach (Unconflicted req) (System.init (fun i => (req i).prog) d) s)
    (hs' : Reach (Unconflicted req) s s') {r : Request} (h : RedemptionCommitted r s.store) :
    RedemptionCommitted r s'.store := by
  by_contra hlost
  obtain ⟨s₁, m, s₂, h₁, hst, _, hc₁, hc₂⟩ := hs'.exists_step
    (p := fun s => ¬RedemptionCommitted r s.store)
    (not_not.2 h) hlost
  obtain ⟨ids, hr, q, hq, hid⟩ := not_not.1 hc₁
  rcases ((redemption_bills hids).meets.good (hs.trans h₁)).change hst with heq | ⟨i, _, _, hc, _⟩
  · exact hc₂ ⟨ids, hr, q, heq ▸ hq, hid⟩
  · exact hc₂ ⟨ids, hr, q, Request.Change.mem_redemptions hc hq, hid⟩

/-- A redemption that returns that it has granted credit has committed all of it in one of
    its steps, and one that raises before the end of its commit has committed nothing. -/
theorem redemption_atomic (hids : FreshRedemptions req d)
    (hs : Reach (Unconflicted req) (System.init (fun i => (req i).prog) d) s) (i : ι)
    (hi : (req i).IsRedemption) :
    (∀ result, s.returned i = some (.redeemed result) → result.creditGranted = true →
      ∃ a now ids s₁ s₂, (req i).Redeems (a.writes now ids) now ids ∧
        ids.redemptionId = result.redemptionId ∧
        Reach (Unconflicted req) (System.init (fun i => (req i).prog) d) s₁ ∧
        Step (Unconflicted req) s₁ (.run i) s₂ ∧ Reach (Unconflicted req) s₂ s ∧
        Redeemed a now ids s₁.store s₂.store) ∧
    ∀ e, s.raised i = some e → (∀ p, e ≠ .fault (.findContent p)) → ∀ s₁ s₂,
      Reach (Unconflicted req) (System.init (fun i => (req i).prog) d) s₁ →
      Step (Unconflicted req) s₁ (.run i) s₂ → Reach (Unconflicted req) s₂ s →
      s₂.store = s₁.store := by
  have hmeets := (redemption_bills hids).meets
  obtain ⟨_, hret, hraise⟩ := hmeets.sound hs
  refine ⟨fun result hres hgranted => ?_, fun e he hne s₁ s₂ hs₁ hst hs₂ => ?_⟩
  · obtain ⟨⟨ids, hids', hid⟩, hcom⟩ := hret i _ hres hi result rfl hgranted
    -- The step that commits the redemption is a commit of its own session.
    obtain ⟨s₁, m, s₂, hs₁, hst, hs₂, hc₁, hc₂⟩ := hs.exists_step
      (p := fun s => RedemptionCommitted (req i) s.store)
      (fun ⟨ids, hi, q, hq, hid⟩ => hids.new i ids hi q hq hid) hcom
    rcases (hmeets.good hs₁).change hst with heq | ⟨j, rfl, _, hc, _⟩
    · rw [heq] at hc₂
      exact absurd hc₂ hc₁
    · obtain ⟨rfl, x, now, ids', hr, hx⟩ := hids.of_change hc hc₁ hc₂
      obtain rfl : ids = ids' := Option.some.inj (hids'.symm.trans hr.redemptionIds)
      have hr' := hr
      cases hreq : req i with
      | redeem | redeemCode =>
        rw [hreq] at hr
        obtain ⟨rfl, rfl, a, ha, rfl⟩ := hr
        exact ⟨a, _, _, s₁, s₂, hreq ▸ hr', hid, hs₁, hst, hs₂, hx.redeemed hi hi⟩
      | grantCredit | useCredit | extractReceiptOcr | redeemSignup | withdraw =>
        rw [hreq] at hi
        exact hi.elim
  · rcases (hmeets.good hs₁).change hst with heq | ⟨j, hj, _, hc, _⟩
    · exact heq
    · cases hj
      have hcom := RedemptionCommitted.reach hids (hs₁.step hst) hs₂ (Request.Change.committed hi hc)
      rcases hraise i e he with ⟨p, hp⟩ | hnot
      · exact absurd hp (hne p)
      · exact absurd hcom hnot

end

/-- A redemption and a grant of credit, for one user. -/
def redemptionAndGrant (i : Bool) : Request :=
  if i then .redeem ⟨.ofNat 1, .ofNat 1, none⟩ 1 (redemptionIds true)
  else .grantCredit (firstGrant (fun _ => none) (fun _ => none) false) (firstGrantIds false)

/-- A response that reports a grant of credit. -/
def Response.creditGranted : Response → Bool
  | .redeemed result => result.creditGranted
  | _ => false

theorem Response.creditGranted_eq {o : Option Response} (h : o.any Response.creditGranted = true) :
    ∃ result, o = some (.redeemed result) ∧ result.creditGranted = true := by
  cases o with
  | none => cases h
  | some r =>
    cases r with
    | redeemed result => exact ⟨result, rfl, h⟩
    | granted | used | analyzed | signedUp | withdrawn => cases h

theorem freshRedemptions_redemptionAndGrant : FreshRedemptions redemptionAndGrant onceStore where
  inj i j x y hx hy _ := by
    cases i
    · cases hx
    cases j
    · cases hy
    rfl
  new i x _ r hr := by simp [onceStore, Database.empty] at hr

/-- After the grant, the redemption is committed with its own grant. -/
theorem redemption_atomic_afterGrant : letI := CaseFolding.ascii
    ∃ s result a now ids s₁ s₂,
      Reach (Unconflicted redemptionAndGrant)
        (System.init (fun i => (redemptionAndGrant i).prog) onceStore) s ∧
      s.returned true = some (.redeemed result) ∧
      Step (Unconflicted redemptionAndGrant) s₁ (.run true) s₂ ∧
      Reach (Unconflicted redemptionAndGrant) s₂ s ∧ Redeemed a now ids s₁.store s₂.store := by
  let _ := CaseFolding.ascii
  have hrun : ∃ s, Reach (Unconflicted redemptionAndGrant)
      (System.init (fun i => (redemptionAndGrant i).prog) onceStore) s ∧
      (s.returned true).any Response.creditGranted = true :=
    System.exists_reach (List.replicate 6 (.run false) ++ List.replicate 16 (.run true))
      (by decide +kernel)
  obtain ⟨s, hs, hret⟩ := hrun
  obtain ⟨result, hret, hgranted⟩ := Response.creditGranted_eq hret
  obtain ⟨a, now, ids, s₁, s₂, _, _, _, hst, hs₂, hred⟩ :=
    (redemption_atomic freshRedemptions_redemptionAndGrant hs true trivial).1 result hret hgranted
  exact ⟨s, result, a, now, ids, s₁, s₂, hs, hret, hst, hs₂, hred⟩

/-- The grant inserts the first row of the user before the redemption does: the
    redemption reports that it has granted credit, but nothing of it is there. -/
theorem redemption_lost : letI := CaseFolding.ascii
    ∃ s result, Reach Always (System.init (fun i => (redemptionAndGrant i).prog) onceStore) s ∧
      s.returned true = some (.redeemed result) ∧ result.creditGranted = true ∧
      s.store.promotionRedemptions = [] ∧ s.store.promotion (.ofNat 1) = some oncePromotion ∧
      s.store.sum .grant (.ofNat 1) = 10 ∧ (s.store.balance (.ofNat 1)).totalGrantedCount = 10 := by
  let _ := CaseFolding.ascii
  have hrun : ∃ s, Reach Always (System.init (fun i => (redemptionAndGrant i).prog) onceStore) s ∧
      (s.returned true).any Response.creditGranted = true ∧
      s.store.promotionRedemptions = [] ∧ s.store.promotion (.ofNat 1) = some oncePromotion ∧
      s.store.sum .grant (.ofNat 1) = 10 ∧ (s.store.balance (.ofNat 1)).totalGrantedCount = 10 :=
    System.exists_reach
      (List.replicate 12 (.run true) ++ List.replicate 6 (.run false) ++ List.replicate 7 (.run true))
      (by decide +kernel)
  obtain ⟨s, hs, hret, hstore⟩ := hrun
  obtain ⟨result, hret, hgranted⟩ := Response.creditGranted_eq hret
  exact ⟨s, result, hs, hret, hgranted, hstore⟩

end Boat
