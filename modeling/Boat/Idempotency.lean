import Boat.Limits
import Mathlib.Data.List.Pairwise

/-!
# Idempotency of redemptions

Redemptions are made once, in every run of any requests (`redemption_idempotent`).

* The keys that are derived from requests determine what was requested (`derivedKey_inj`).
* `Database.Proper`: the redemptions of a store are there as the requests make them,
  with different keys and beneficiaries. As they are never deleted, no redemption, and no
  grant of one, is committed twice.
* A request that starts when there is a redemption with its key replays it.
-/

namespace Boat

open ReadCommitted PromotionRedemptionExecutor SqlAlchemyPromotionRepository

/-! ## Keys -/

/-- What comes before the first colon. -/
theorem flow_inj {flow flow' s t : String} (hf : ':' ∉ flow.toList) (hf' : ':' ∉ flow'.toList)
    (h : flow ++ (":" ++ s) = flow' ++ (":" ++ t)) : flow = flow' := by
  have key (f s : String) (hf : ':' ∉ f.toList) :
      (f ++ (":" ++ s)).toList.takeWhile (· ≠ ':') = f.toList := by
    have hpos : ∀ c ∈ f.toList, decide (c ≠ ':') = true := by
      intro c hc
      exact decide_eq_true fun h => hf (h ▸ hc)
    rw [String.toList_append, List.takeWhile_append_of_pos hpos, String.toList_append]
    simp
  have heq := key flow s hf
  rw [h, key flow' t hf'] at heq
  exact (String.toList_inj.1 heq).symm

/-- The parts of a derived key, which has a flow without a colon, can be told apart. -/
theorem derivedKey_inj {flow : String} {id id' u u' : UUID} {k k' : Option String}
    (h : derivedKey flow id u k = derivedKey flow id' u' k') : id = id' ∧ u = u' ∧ k = k' := by
  have h := String.append_right_inj _ |>.1 (String.append_right_inj _ |>.1 h)
  obtain ⟨hid, h⟩ := UUID.str_append_inj h
  obtain ⟨hu, h⟩ := UUID.str_append_inj (String.append_right_inj _ |>.1 h)
  refine ⟨hid, hu, ?_⟩
  cases k <;> cases k'
  · rfl
  · simp at h
  · simp at h
  · simpa using h

/-! ## Stores -/

/-- Two redemptions that may be there together: their keys are different, and so are the
    promotions of one beneficiary. -/
def PromotionRedemption.Distinct (r r' : PromotionRedemption) : Prop :=
  r.idempotencyKey ≠ r'.idempotencyKey ∧
    ∀ b, r.beneficiaryKey = some b → r'.beneficiaryKey = some b → r.promotionId ≠ r'.promotionId

instance : Std.Symm PromotionRedemption.Distinct where
  symm _ _ h := ⟨h.1.symm, fun b hb hb' => (h.2 b hb' hb).symm⟩

/-- A redemption as the requests make it: by the id of a promotion, by a code, or on signup. -/
inductive PromotionRedemption.Made (d : Database) (r : PromotionRedemption) : Prop
  | byId {p k} : d.promotion r.promotionId = some p → p.context ≠ some .signup →
      r.idempotencyKey = derivedKey "promotionRedemption" r.promotionId r.userId k → Made d r
  | byCode {p c k} : d.promotion r.promotionId = some p → p.context ≠ some .signup →
      d.promotionCode c.id = some c → c.promotionId = r.promotionId →
      r.idempotencyKey = derivedKey "promotionCodeRedemption" c.id r.userId k → Made d r
  | onSignup {p} : d.promotion r.promotionId = some p →
      r.idempotencyKey =
        RedeemSignupPromotionCommandUseCase.redemptionIdempotencyKey r.promotionId r.id → Made d r

/-- The redemptions are there as the requests make them, and the unique indexes on
    redemptions and codes hold. -/
structure Database.Proper [CaseFolding] (d : Database) : Prop where
  distinct : d.promotionRedemptions.Pairwise PromotionRedemption.Distinct
  made : ∀ r ∈ d.promotionRedemptions, r.Made d
  texts : (d.promotionCodes.rows.map fun c => sqlLower c.code).Nodup

/-- What is fixed in promotions and codes: all but the counters. -/
structure Fixed (d d' : Database) : Prop where
  promotion : ∀ p row, d.promotion p = some row →
    ∃ n, d'.promotion p = some { row with timesRedeemed := n }
  code : ∀ c row, d.promotionCode c = some row →
    ∃ n, d'.promotionCode c = some { row with timesRedeemed := n }
  redemption : ∀ r ∈ d.promotionRedemptions, r ∈ d'.promotionRedemptions

theorem Fixed.refl (d : Database) : Fixed d d :=
  ⟨fun _ row h => ⟨row.timesRedeemed, h⟩, fun _ row h => ⟨row.timesRedeemed, h⟩, fun _ h => h⟩

theorem Fixed.trans {d₁ d₂ d₃ : Database} (h : Fixed d₁ d₂) (h' : Fixed d₂ d₃) : Fixed d₁ d₃ where
  promotion p row hrow := by
    obtain ⟨n, hn⟩ := h.promotion p row hrow
    obtain ⟨m, hm⟩ := h'.promotion p _ hn
    exact ⟨m, hm⟩
  code c row hrow := by
    obtain ⟨n, hn⟩ := h.code c row hrow
    obtain ⟨m, hm⟩ := h'.code c _ hn
    exact ⟨m, hm⟩
  redemption r hr := h'.redemption r (h.redemption r hr)

theorem PromotionRedemption.Made.fixed {r : PromotionRedemption} {d d' : Database} (h : r.Made d)
    (hf : Fixed d d') : r.Made d' := by
  cases h with
  | byId hp hctx hkey =>
    obtain ⟨n, hn⟩ := hf.promotion _ _ hp
    exact .byId hn hctx hkey
  | @byCode p c k hp hctx hc hpc hkey =>
    obtain ⟨n, hn⟩ := hf.promotion _ _ hp
    obtain ⟨m, hm⟩ := hf.code _ _ hc
    exact .byCode (c := { c with timesRedeemed := m }) hn hctx hm hpc hkey
  | onSignup hp hkey =>
    obtain ⟨n, hn⟩ := hf.promotion _ _ hp
    exact .onSignup hn hkey

section

variable {exact sure : Prop} {ks : List LockKey} {d d' : Database} {x : RedemptionWrites}
  {now : Instant} {ids : RedemptionIds}

/-- A redemption is new: it is distinct from all others. -/
theorem RedemptionWrites.Allowed.distinct (h : x.Allowed now d) {q : PromotionRedemption}
    (hq : q ∈ d.promotionRedemptions) : q.Distinct x.redemption := by
  have hfresh (e : IndexEntry) (he : e ∈ x.redemption.entries) (hq' : e ∈ q.entries) : False := by
    have := h.fresh e he
    cases e with
    | redemptionKey | redemptionBeneficiary =>
      simp only [Database.hasEntry, List.any_eq_false, decide_eq_true_eq] at this
      exact this q hq hq'
    | userCredit | transactionKey | transactionSource =>
      cases hb : q.beneficiaryKey <;> simp [PromotionRedemption.entries, hb] at hq'
  refine ⟨fun heq => hfresh (.redemptionKey q.idempotencyKey) ?_ List.mem_cons_self,
    fun b hb hb' heq => hfresh (.redemptionBeneficiary q.promotionId b) ?_ ?_⟩
  · rw [heq]
    exact List.mem_cons_self
  · simp [PromotionRedemption.entries, hb', heq]
  · simp [PromotionRedemption.entries, hb]

/-- A commit leaves fixed what is. -/
theorem RedemptionWrites.Committed.fixed (h : x.Committed exact sure now ids.credit d d') :
    Fixed d d' where
  promotion p row hrow := by
    rw [h.promotion]
    by_cases hp : p = x.promotion.id
    · have hx := h.allowed.seen.1
      rw [← hp, hrow, Option.some.injEq] at hx
      rw [if_pos hp, hx]
      exact ⟨_, rfl⟩
    · rw [if_neg hp]
      exact ⟨row.timesRedeemed, hrow⟩
  code c row hrow := by
    rw [h.promotionCode]
    cases hcode : x.code with
    | none => exact ⟨row.timesRedeemed, hrow⟩
    | some code =>
      by_cases hc : c = code.id
      · have hx := h.allowed.seen.2 code hcode
        rw [← hc, hrow, Option.some.injEq] at hx
        simp only [if_pos hc, hx]
        exact ⟨_, rfl⟩
      · simp only [if_neg hc]
        exact ⟨row.timesRedeemed, hrow⟩
  redemption q hq := by
    rw [h.redemptions]
    exact List.mem_append_left _ hq

variable [CaseFolding] {r : Request}

theorem Request.Change.fixed (h : r.Change exact sure ks d d') : Fixed d d' := by
  rcases h.promotions with ⟨hp, hc, hr⟩ | ⟨x, now, ids, _, _, hcom⟩
  · have hd := Fixed.refl d
    refine ⟨fun p row hrow => ?_, fun c row hrow => ?_, fun q hq => hr ▸ hq⟩
    · have := hd.promotion p row hrow
      rwa [Database.promotion, ← hp] at this
    · have := hd.code c row hrow
      rwa [Database.promotionCode, ← hc] at this
  · exact hcom.fixed

/-- The redemption of a request is made as it should be. -/
theorem Request.Redeems.made (h : r.Redeems x now ids)
    (hc : x.Committed exact sure now ids.credit d d') : x.redemption.Made d' := by
  have hp : d'.promotion x.redemption.promotionId = some x.promotion.recordRedemption := by
    rw [hc.promotion, h.proper.promotionId]
    exact if_pos rfl
  cases r with
  | redeem command =>
    obtain ⟨rfl, rfl, a, ⟨p, hid, hctx, rfl⟩, rfl⟩ := h
    refine .byId (k := command.idempotencyKey) hp hctx ?_
    change derivedKey _ command.promotionId _ _ = derivedKey _ p.id _ _
    rw [hid]
    rfl
  | redeemCode command =>
    obtain ⟨rfl, rfl, a, ⟨p, c, hid, hctx, _, rfl⟩, rfl⟩ := h
    have hcode := hc.promotionCode c.id
    have hx : (Attempt.writes ⟨command.userId, p, some c,
        CreatePromotionCodeRedemptionCommandUseCase.idempotencyKey command c⟩ now ids).code =
          some c := rfl
    rw [hx] at hcode
    simp only [↓reduceIte] at hcode
    exact .byCode (c := c.recordRedemption) (k := command.idempotencyKey) hp hctx hcode hid.symm rfl
  | redeemSignup command =>
    obtain ⟨rfl, rfl, p, rfl⟩ := h
    exact .onSignup hp rfl
  | grantCredit | useCredit | extractReceiptOcr | withdraw => exact h.elim

/-- Requests keep stores proper. -/
theorem Request.Change.proper (h : r.Change exact sure ks d d') (hd : d.Proper) : d'.Proper := by
  have hmade : ∀ q ∈ d.promotionRedemptions, q.Made d' := fun q hq => (hd.made q hq).fixed h.fixed
  rcases h.promotions with ⟨hp, hc, hr⟩ | ⟨x, now, ids, hx, _, hcom⟩
  · refine ⟨by rw [hr]; exact hd.distinct, by rw [hr]; exact hmade, by rw [hc]; exact hd.texts⟩
  · refine ⟨?_, ?_, ?_⟩
    · rw [hcom.redemptions, List.pairwise_append]
      refine ⟨hd.distinct, List.pairwise_singleton .., fun q hq q' hq' => ?_⟩
      rw [List.mem_singleton.1 hq']
      exact hcom.allowed.distinct hq
    · rw [hcom.redemptions]
      intro q hq
      rcases List.mem_append.1 hq with hq | hq
      · exact hmade q hq
      · rw [List.mem_singleton.1 hq]
        exact hx.made hcom
    · rw [hcom.promotions.2.1, RedemptionWrites.write_promotionCodes]
      cases hcode : x.code with
      | none => exact hd.texts
      | some code =>
        have hseen : d.promotionCodes.find code.id = some code := hcom.allowed.seen.2 code hcode
        rw [Option.elim_some, Table.map_update]
        · exact hd.texts
        · intro q hq
          have hid : code.recordRedemption.id = code.id := rfl
          rw [hid, hseen, Option.some.injEq] at hq
          rw [← hq]
          rfl

/-- A redemption is determined by its key. -/
theorem Database.Proper.eq_of_key (hd : d.Proper) {q q' : PromotionRedemption}
    (hq : q ∈ d.promotionRedemptions) (hq' : q' ∈ d.promotionRedemptions)
    (h : q.idempotencyKey = q'.idempotencyKey) : q = q' := by
  by_contra hne
  exact (hd.distinct.forall hq hq' hne).1 h

end

/-! ## Replays -/

/-- The redemption with the key of a request by id is one of its promotion. -/
theorem PromotionRedemption.Made.of_byId {d : Database} {r : PromotionRedemption} (h : r.Made d)
    {id u : UUID} {k : Option String}
    (hkey : r.idempotencyKey = derivedKey "promotionRedemption" id u k) :
    r.promotionId = id ∧ ∃ p, d.promotion r.promotionId = some p ∧ p.context ≠ some .signup := by
  cases h with
  | byId hp hctx hkey' => exact ⟨(derivedKey_inj (hkey'.symm.trans hkey)).1, _, hp, hctx⟩
  | byCode _ _ _ _ hkey' =>
    exact absurd (flow_inj (by decide) (by decide) (hkey'.symm.trans hkey)) (by decide)
  | onSignup _ hkey' =>
    exact absurd (flow_inj (by decide) (by decide) (hkey'.symm.trans hkey)) (by decide)

/-- The redemption with the key of a request by code is one of its promotion. -/
theorem PromotionRedemption.Made.of_byCode {d : Database} {r : PromotionRedemption} (h : r.Made d)
    {id u : UUID} {k : Option String}
    (hkey : r.idempotencyKey = derivedKey "promotionCodeRedemption" id u k) :
    ∃ p c, d.promotion r.promotionId = some p ∧ p.context ≠ some .signup ∧
      d.promotionCode id = some c ∧ c.promotionId = r.promotionId := by
  cases h with
  | byId _ _ hkey' =>
    exact absurd (flow_inj (by decide) (by decide) (hkey'.symm.trans hkey)) (by decide)
  | byCode hp hctx hc hpc hkey' =>
    obtain ⟨rfl, _, _⟩ := derivedKey_inj (hkey'.symm.trans hkey)
    exact ⟨_, _, hp, hctx, hc, hpc⟩
  | onSignup _ hkey' =>
    exact absurd (flow_inj (by decide) (by decide) (hkey'.symm.trans hkey)) (by decide)

/-- There is a redemption with the key of the request. -/
def Request.Finds [CaseFolding] (r : Request) (d : Database)
    (existing : PromotionRedemption) : Prop :=
  existing ∈ d.promotionRedemptions ∧
    match r with
    | .redeem command _ _ =>
      existing.idempotencyKey = CreatePromotionRedemptionCommandUseCase.idempotencyKey command
    | .redeemCode command _ _ => ∃ c ∈ d.promotionCodes.rows, sqlLower c.code = lower command.code ∧
      existing.idempotencyKey = CreatePromotionCodeRedemptionCommandUseCase.idempotencyKey command c
    | _ => False

section

variable {ι : Type} [CaseFolding] {inv : Database → Prop} {exact sure : ι → Prop}
  {cond : Condition ι Database LockKey Statement} {req : ι → Request} {i : ι} {ks : List LockKey}
  {d d' : Database} {existing : PromotionRedemption}

theorem billing_fixed (hi : (billing inv exact sure cond req).Interf i ks d d') : Fixed d d' := by
  refine hi.keeps (p := Fixed d) (fun d₁ d₂ h hd => ?_) (.refl d)
  obtain ⟨j, _, _, _, _, _, hc, _⟩ := h
  exact hd.trans (Request.Change.fixed hc)

theorem billing_proper (hi : (billing inv exact sure cond req).Interf i ks d d') (hd : d.Proper) :
    d'.Proper := by
  refine hi.keeps (p := Database.Proper) (fun d₁ d₂ h hd => ?_) hd
  obtain ⟨j, _, _, _, _, _, hc, _⟩ := h
  exact Request.Change.proper hc hd

/-- The executor replays a redemption with its key. -/
theorem wp_replays {a : Attempt} {now : Instant} {ids : RedemptionIds} (hd : d.Proper)
    (hmem : existing ∈ d.promotionRedemptions) (hkey : existing.idempotencyKey = a.idempotencyKey) :
    (billing inv exact sure cond req).wp i (fun r _ _ _ => r.IsReplay existing.id)
      (fun e _ _ _ => ∃ s, e = .fault s) (replayOrRedeem sqlAlchemyUnitOfWork a now ids) id ks d := by
  refine wp_replayOrRedeem_replay (R := fun r _ => r.IsReplay existing.id)
    (X := fun e _ => ∃ s, e = .fault s) (fun d₁ hi₁ => ?_) (fun d₁ hi₁ q hq hqk => ?_)
    (fun s _ _ => ⟨s, rfl⟩) fun r _ _ h => h
  · exact ⟨existing, (billing_fixed hi₁).redemption _ hmem, hkey⟩
  · obtain rfl := (billing_proper hi₁ hd).eq_of_key hq ((billing_fixed hi₁).redemption _ hmem)
      (hqk.trans hkey.symm)
    refine ⟨rfl, fun d₂ hi₂ hnone => ?_⟩
    obtain ⟨p, hp⟩ : ∃ p, d₂.promotion q.promotionId = some p := by
      cases (((billing_proper hi₁ hd).made q hq).fixed (billing_fixed hi₂)) with
      | byId hp | byCode hp | onSignup hp => exact ⟨_, hp⟩
    rw [hnone] at hp
    cases hp

/-- A request replays the redemption with its key. -/
theorem wp_prog_replay (hd : d.Proper) (h : (req i).Finds d existing) :
    (billing inv exact sure cond req).wp i
      (fun a _ _ _ => ∃ result, a = .redeemed result ∧ result.IsReplay existing.id)
      (fun e _ _ _ => ∃ s, e = .fault s) (req i).prog id [] d := by
  obtain ⟨hmem, hkey⟩ := h
  have hpromotion {p : Promotion} (hp : d.promotion existing.promotionId = some p)
      (hctx : p.context ≠ some .signup) {ks : List LockKey} {d₁ : Database}
      (hi : (billing inv exact sure cond req).Interf i ks d d₁) :
      ∃ p', d₁.promotion existing.promotionId = some p' ∧ refuseSignup p' = .ok () := by
    obtain ⟨n, hn⟩ := (billing_fixed hi).promotion _ _ hp
    exact ⟨_, hn, refuseSignup_ok.2 hctx⟩
  cases hr : req i with
  | redeem command now ids =>
    rw [hr] at hkey
    obtain ⟨hid, p, hp, hctx⟩ := (hd.made _ hmem).of_byId hkey
    simp only [Request.prog, CreatePromotionRedemptionCommandUseCase.execute, findPromotionForUpdate,
      Prog.bind_eq, Protocol.wp_bind_eq, wp_selectForUpdate]
    refine fun d₁ hi₁ _ => ⟨fun _ => ?_, _, rfl⟩
    obtain ⟨p', hp', hrefuse⟩ := hpromotion hp hctx hi₁
    rw [id, ← hid, hp']
    simp only [Protocol.wp_bind_eq, hrefuse, Tx.lift, Protocol.wp_ret]
    exact Protocol.wp_mono
      (wp_replays (billing_proper hi₁ hd) ((billing_fixed hi₁).redemption _ hmem) hkey)
      (fun r _ _ _ h => ⟨r, rfl, h⟩) fun _ _ _ _ h => h
  | redeemCode command now ids =>
    rw [hr] at hkey
    obtain ⟨c, hc, htext, hkey⟩ := hkey
    obtain ⟨p, c', hp, hctx, hc', hpc⟩ := (hd.made _ hmem).of_byCode hkey
    obtain rfl : c = c' := Option.some.inj ((Table.find_eq_some.2 ⟨hc, rfl⟩).symm.trans hc')
    simp only [Request.prog, CreatePromotionCodeRedemptionCommandUseCase.execute,
      findCodeByCodeForUpdate, findPromotionForUpdate, Prog.bind_eq, Protocol.wp_bind_eq,
      wp_selectForUpdate]
    refine fun d₁ hi₁ _ => ⟨fun _ => ?_, _, rfl⟩
    -- No other code has the same text.
    obtain ⟨n, hn⟩ := (billing_fixed hi₁).code _ _ hc'
    have hfind : d₁.promotionCodes.rows.find? (fun c => sqlLower c.code = lower command.code) =
        some { c with timesRedeemed := n } := by
      rw [← htext]
      exact Table.find?_of_nodup (billing_proper hi₁ hd).texts (Table.find_eq_some.1 hn).1
    rw [id, hfind]
    simp only [Protocol.wp_bind_eq, wp_selectForUpdate, hpc]
    refine fun d₂ hi₂ _ => ⟨fun _ => ?_, _, rfl⟩
    have hi := hi₁.trans hi₂.nil
    obtain ⟨p', hp', hrefuse⟩ := hpromotion hp hctx hi
    rw [id, hp']
    simp only [Protocol.wp_bind_eq, hrefuse, Tx.lift, Protocol.wp_ret]
    exact Protocol.wp_mono
      (wp_replays (billing_proper hi hd) ((billing_fixed hi).redemption _ hmem) hkey)
      (fun r _ _ _ h => ⟨r, rfl, h⟩) fun _ _ _ _ h => h
  | grantCredit | useCredit | extractReceiptOcr | redeemSignup | withdraw =>
    rw [hr] at hkey
    exact hkey.elim

/-- A commit that enters the redemption `r`, with the grant `t`, or without one. -/
structure Enters (r : PromotionRedemption) (t : Option CreditTransaction)
    (d d' : Database) : Prop where
  redemption : d'.promotionRedemptions = d.promotionRedemptions ++ [r]
  grant : d'.creditTransactions = d.creditTransactions ++ t.toList

omit [CaseFolding] in
theorem RedemptionWrites.Committed.enters {exact sure : Prop} {x : RedemptionWrites} {now : Instant}
    {ids : RedemptionIds} (h : x.Committed exact sure now ids.credit d d') :
    ∃ t, Enters x.redemption t d d' ∧ ∀ g ∈ t, g = x.transaction ids.credit := by
  have hr := h.redemptions
  have hw := x.creditsFrame_write.creditTransactions d
  cases h with
  | granted _ h =>
    obtain ⟨o, rfl, _⟩ := h.eq
    refine ⟨some (x.transaction ids.credit), ⟨hr, ?_⟩, fun g hg => (Option.mem_some.1 hg).symm⟩
    rw [← hw]
    rfl
  | ungranted =>
    exact ⟨none, ⟨hr, by rw [hw]; exact (List.append_nil _).symm⟩, fun g hg => by cases hg⟩

/-- What a request finds, it finds in all later stores. -/
theorem Request.Finds.fixed {r : Request} (h : r.Finds d existing) (hf : Fixed d d') :
    r.Finds d' existing := by
  obtain ⟨hmem, hkey⟩ := h
  refine ⟨hf.redemption _ hmem, ?_⟩
  cases r with
  | redeem => exact hkey
  | redeemCode =>
    obtain ⟨c, hc, htext, hkey⟩ := hkey
    obtain ⟨n, hn⟩ := hf.code c.id c (Table.find_eq_some.2 ⟨hc, rfl⟩)
    exact ⟨_, (Table.find_eq_some.1 hn).1, htext, hkey⟩
  | grantCredit | useCredit | extractReceiptOcr | redeemSignup | withdraw => exact hkey.elim

/-- A request that finds a redemption with its key commits no other. -/
theorem Request.Finds.not_redeems {r : Request} {exact sure : Prop} {x : RedemptionWrites}
    {now : Instant} {ids : RedemptionIds} (hd : d.Proper) (h : r.Finds d existing)
    (hr : r.Redeems x now ids) :
    ¬x.Committed exact sure now ids.credit d d' := by
  intro hc
  obtain ⟨hmem, hkey⟩ := h
  refine (hc.allowed.distinct hmem).1 ?_
  cases r with
  | redeem =>
    obtain ⟨rfl, rfl, a, ⟨p, _, _, rfl⟩, rfl⟩ := hr
    exact hkey
  | redeemCode command =>
    obtain ⟨rfl, rfl, a, ⟨p, c', _, _, htext', rfl⟩, rfl⟩ := hr
    obtain ⟨c, hmem', htext, hkey⟩ := hkey
    -- The two codes have the same text, so they are the same.
    have hc' : c' ∈ d.promotionCodes.rows := (Table.find_eq_some.1 (hc.allowed.seen.2 c' rfl)).1
    obtain rfl := List.inj_on_of_nodup_map hd.texts hmem' hc' (htext.trans htext'.symm)
    exact hkey
  | grantCredit | useCredit | extractReceiptOcr | redeemSignup | withdraw => exact hkey.elim

theorem redemptions_bills (hd : d.Proper) : Bills Database.Proper (fun _ => False) (fun _ => False)
    Always req d (fun _ _ _ => True) (fun _ _ _ => True) :=
  .of_inv hd (fun _ _ _ _ hd₁ hc => hc.proper hd₁) (fun _ h => h.elim) fun _ h => h.elim

variable [DecidableEq ι] {s s' : System ι Database Statement Error Response}

/-- Redemptions are made once in the runs from `s` on. -/
structure RedeemsOnce (req : ι → Request)
    (s : System ι Database Statement Error Response) : Prop where
  /-- There are no two redemptions with one key, or of one beneficiary. -/
  distinct : s.store.promotionRedemptions.Pairwise PromotionRedemption.Distinct
  /-- The requests of redemptions enter grants together with their redemptions only. -/
  granted : ∀ i s', (req i).redemptionIds.isSome → Step Always s (.run i) s' →
    (s'.store.promotionRedemptions = s.store.promotionRedemptions ∧
      s'.store.creditTransactions = s.store.creditTransactions) ∨
    ∃ x now ids t, (req i).Redeems x now ids ∧ Enters x.redemption t s.store s'.store ∧
      ∀ g ∈ t, g.source = some ⟨.promotionRedemption, x.redemption.id⟩ ∧
        g.idempotencyKey = some x.creditKey
  /-- No two redemptions with one key, or of one beneficiary, are ever entered. -/
  once : ∀ m s₁ r t s₂ m' s₃ r' t', Step Always s m s₁ → Enters r t s.store s₁.store →
    Reach Always s₁ s₂ → Step Always s₂ m' s₃ → Enters r' t' s₂.store s₃.store → r.Distinct r'
  /-- A request that starts when there is a redemption with its key replays it, and changes
      nothing. -/
  replays : ∀ i existing s', s.session i = .idle (some (req i).prog) →
    (req i).Finds s.store existing →
    Reach Always s s' →
      (∀ a, s'.returned i = some a → ∃ result, a = .redeemed result ∧ result.IsReplay existing.id) ∧
      (∀ e, s'.raised i = some e → ∃ st, e = .fault st) ∧
      ∀ s'', Step Always s' (.run i) s'' → s''.store = s'.store

/-- What is fixed stays fixed in runs. -/
theorem fixed_reach (hd : d.Proper) (hs : Reach Always (System.init (fun i => (req i).prog) d) s)
    (hs' : Reach Always s s') : Fixed s.store s'.store := by
  induction hs' with
  | refl => exact .refl _
  | step h hst ih =>
    rcases ((redemptions_bills hd).meets.good (hs.trans h)).change hst with heq | ⟨i, _, _, hc, _⟩
    · rwa [heq]
    · exact ih.trans (Request.Change.fixed hc)

/-- Redemptions are idempotent, in every run: the keys that are derived from requests
    determine the user, the promotion or the code, and the key of the client, redemptions are
    made once, and replayed from then on. -/
theorem redemption_idempotent (hd : d.Proper)
    (hs : Reach Always (System.init (fun i => (req i).prog) d) s) :
    (∀ c c', CreatePromotionRedemptionCommandUseCase.idempotencyKey c =
      CreatePromotionRedemptionCommandUseCase.idempotencyKey c' →
        c.promotionId = c'.promotionId ∧ c.userId = c'.userId ∧
        c.idempotencyKey = c'.idempotencyKey) ∧
    (∀ c c' code code', CreatePromotionCodeRedemptionCommandUseCase.idempotencyKey c code =
      CreatePromotionCodeRedemptionCommandUseCase.idempotencyKey c' code' →
        code.id = code'.id ∧ c.userId = c'.userId ∧ c.idempotencyKey = c'.idempotencyKey) ∧
    RedeemsOnce req s := by
  have hbills : Bills _ _ _ _ req d _ _ := redemptions_bills hd
  have hmeets := hbills.meets
  refine ⟨fun c c' h => derivedKey_inj h, fun c c' code code' h => derivedKey_inj h,
    (hmeets.sound hs).1.distinct, fun i s' hi hst =>
      ?_, fun m s₁ r t s₂ m' s₃ r' t' hst h hs' hst' h' => ?_,
    fun i existing s' hidle hfinds hs' => ?_⟩
  · rcases (hmeets.good hs).change hst with heq | ⟨j, hj, _, hc, _⟩
    · exact .inl (by rw [heq]; exact ⟨rfl, rfl⟩)
    · cases hj
      rcases Request.Change.redeems hc hi with heq | ⟨x, now, ids, hr, hcom⟩
      · exact .inl (by rw [heq]; exact ⟨rfl, rfl⟩)
      · obtain ⟨t, ht, hg⟩ := hcom.enters
        exact .inr ⟨x, now, ids, t, hr, ht, fun g h => hg g h ▸ ⟨rfl, rfl⟩⟩
  · -- The first redemption is still there when the second one is entered.
    have hs₁ := hs.step hst
    have hmem : r ∈ s₂.store.promotionRedemptions := by
      refine (fixed_reach hd hs₁ hs').redemption r ?_
      rw [h.redemption]
      exact List.mem_append_right _ (List.mem_singleton_self r)
    have hpair := (hmeets.sound ((hs₁.trans hs').step hst')).1.distinct
    rw [h'.redemption, List.pairwise_append] at hpair
    exact hpair.2.2 r hmem r' (List.mem_singleton_self r')
  · -- A replay finds the redemption from now on, as redemptions stay, and writes nothing.
    have hproper : s.store.Proper := (hmeets.sound hs).1
    have hgood := (hmeets.good hs).focus (i := i)
      (Q := fun a _ => ∃ result, a = .redeemed result ∧ result.IsReplay existing.id)
      (E := fun e _ => ∃ st, e = .fault st) fun p hp => by
        rw [hidle] at hp ⊢
        cases hp
        exact wp_prog_replay hproper hfinds
    have hgood' := hgood.reach (fun _ _ _ _ _ h => h) (fun _ _ _ _ _ h => h) hs'
    refine ⟨fun a ha => hgood'.wp i _ (System.returned_eq_some.1 ha) rfl,
      fun e he => hgood'.wp i _ (System.raised_eq_some.1 he) rfl, fun s'' hst => ?_⟩
    rcases hgood'.change hst with heq | ⟨j, hj, hd', hc, _⟩
    · exact heq
    · cases hj
      have hf := hfinds.fixed (fixed_reach hd hs hs')
      have hids : (req i).redemptionIds.isSome := by
        cases hr : req i with
        | redeem | redeemCode | redeemSignup => rfl
        | grantCredit | useCredit | extractReceiptOcr | withdraw => rw [hr] at hf; exact hf.2.elim
      rcases Request.Change.redeems hc hids with heq | ⟨x, now, ids, hr, hcom⟩
      · exact heq
      · exact absurd hcom (hf.not_redeems hd' hr)

end

/-- The promotion that can be redeemed once, after it has been, and is no longer active. -/
def exhaustedPromotion : Promotion := { oncePromotion with active := false, timesRedeemed := 1 }

/-- Its redemption. -/
def onceRedemption : PromotionRedemption where
  id := .ofNat 30
  promotionId := .ofNat 1
  promotionCodeId := none
  userId := .ofNat 5
  beneficiaryKey := none
  status := .granted
  idempotencyKey := derivedKey "promotionRedemption" (.ofNat 1) (.ofNat 5) none
  failureReason := none
  redeemedAt := some 1

/-- A store with both. -/
def exhaustedStore : Database :=
  { Database.empty with
    promotions := ⟨[exhaustedPromotion], List.nodup_singleton _⟩
    promotionRedemptions := [onceRedemption] }

theorem exhaustedStore_proper [CaseFolding] : exhaustedStore.Proper where
  distinct := List.pairwise_singleton ..
  made r hr := by
    obtain rfl := List.mem_singleton.1 hr
    exact .byId (p := exhaustedPromotion) (k := none) rfl (by decide) rfl
  texts := List.nodup_nil

/-- The user redeems the promotion once more, and gets the redemption that is there. -/
theorem redemption_idempotent_exhausted : letI := CaseFolding.ascii
    ∃ s result, Reach Always (System.init (fun i => (twoRedemptions i).prog) exhaustedStore) s ∧
      s.returned true = some (.redeemed result) ∧ result.IsReplay onceRedemption.id := by
  let _ := CaseFolding.ascii
  have hrun : ∃ s, Reach Always (System.init (fun i => (twoRedemptions i).prog) exhaustedStore) s ∧
      (s.returned true).isSome :=
    System.exists_reach (List.replicate 5 (.run true)) (by decide +kernel)
  obtain ⟨s, hs, hret⟩ := hrun
  obtain ⟨a, ha⟩ := Option.isSome_iff_exists.1 hret
  have honce : RedeemsOnce twoRedemptions
      (System.init (fun i => (twoRedemptions i).prog) exhaustedStore) :=
    (redemption_idempotent exhaustedStore_proper .refl).2.2
  obtain ⟨result, rfl, hreplay⟩ :=
    (honce.replays true onceRedemption s rfl ⟨List.mem_singleton_self _, rfl⟩ hs).1 a ha
  exact ⟨s, result, hs, ha, hreplay⟩

end Boat
