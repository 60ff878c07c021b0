import Boat.Requests
import Mathlib.Data.Nat.Cast.Basic
import Mathlib.Tactic.NormNum.Basic

/-!
# Limits of promotions

The counters and the limits of promotions and codes, under any requests that run at the
same time. Every redemption is checked and counted under the locks of its promotion and
its code (`RedemptionWrites.Committed`), so that the counters count the redemptions
committed (`Since`), and no limit is passed (`promotion_limits`).
-/

namespace Boat

open ReadCommitted Relation SqlAlchemyPromotionRepository

namespace PromotionRedemption

/-- A redemption granted of a promotion. -/
def isOf (p : UUID) (r : PromotionRedemption) : Bool := r.promotionId = p ∧ r.status = .granted

/-- A redemption granted of a code. -/
def isOfCode (c : UUID) (r : PromotionRedemption) : Bool :=
  r.promotionCodeId = some c ∧ r.status = .granted

/-- A redemption granted to a user by id or by code: one on signup has a beneficiary. -/
def isByUser (u p : UUID) (r : PromotionRedemption) : Bool :=
  grantedTo u p r && r.beneficiaryKey.isNone

theorem countP_isByUser_le (u p : UUID) (l : List PromotionRedemption) :
    l.countP (isByUser u p) ≤ l.countP (grantedTo u p) :=
  List.countP_mono_left fun _ _ h => (Bool.and_eq_true _ _ ▸ h).1

end PromotionRedemption

open PromotionRedemption

/-- The redemptions `new` have been committed since the store was `d`, and it is `d'` now:
    they have been counted, within the limits of promotions, codes and users. -/
structure Since (d d' : Database) (new : List PromotionRedemption) : Prop where
  redemptions : d'.promotionRedemptions = d.promotionRedemptions ++ new
  promotion : ∀ p row, d.promotion p = some row →
    d'.promotion p = some { row with timesRedeemed := row.timesRedeemed + new.countP (isOf p) }
  limit : ∀ p row m, d.promotion p = some row → row.maxRedemptions = some m →
    row.timesRedeemed ≤ m → row.timesRedeemed + new.countP (isOf p) ≤ m
  code : ∀ c row, d.promotionCode c = some row →
    d'.promotionCode c =
      some { row with timesRedeemed := row.timesRedeemed + new.countP (isOfCode c) }
  codeLimit : ∀ c row m, d.promotionCode c = some row → row.maxRedemptions = some m →
    row.timesRedeemed ≤ m → row.timesRedeemed + new.countP (isOfCode c) ≤ m
  user : ∀ u p row, d.promotion p = some row →
    d.promotionRedemptions.countP (isByUser u p) ≤ row.maxRedemptionsPerUser →
    (d'.promotionRedemptions.countP (isByUser u p) : ℤ) ≤ row.maxRedemptionsPerUser

theorem Since.refl (d : Database) : Since d d [] where
  redemptions := (List.append_nil _).symm
  promotion p row h := by simpa using h
  limit p row m _ _ h := by simpa using h
  code c row h := by simpa using h
  codeLimit c row m _ _ h := by simpa using h
  user u p row _ h := h

/-- The tables of promotions are all that matters. -/
theorem Since.congr {d d₁ d₂ : Database} {new : List PromotionRedemption} (h : Since d d₁ new)
    (hp : d₂.promotions = d₁.promotions) (hc : d₂.promotionCodes = d₁.promotionCodes)
    (hr : d₂.promotionRedemptions = d₁.promotionRedemptions) : Since d d₂ new where
  redemptions := hr.trans h.redemptions
  promotion p row hrow := by
    have := h.promotion p row hrow
    rwa [Database.promotion, ← hp] at this
  limit := h.limit
  code c row hrow := by
    have := h.code c row hrow
    rwa [Database.promotionCode, ← hc] at this
  codeLimit := h.codeLimit
  user u p row hrow hle := by
    rw [hr]
    exact h.user u p row hrow hle

section

variable {d d₁ d₂ : Database} {new : List PromotionRedemption} {x : RedemptionWrites}
  {exact sure : Prop} {now : Instant} {ids : RedemptionIds}

theorem RedemptionWrites.Committed.promotion
    (hc : x.Committed exact sure now ids.credit d₁ d₂) (p : UUID) :
    d₂.promotion p = if p = x.promotion.id then some x.promotion.recordRedemption
    else d₁.promotion p := by
  have hx : d₁.promotions.find x.promotion.id = some x.promotion := hc.allowed.seen.1
  have hid : x.promotion.recordRedemption.id = x.promotion.id := rfl
  rw [Database.promotion, hc.promotions.1, RedemptionWrites.write_promotions, Table.find_update, hid]
  by_cases hp : p = x.promotion.id
  · rw [if_pos hp, if_pos hp, hp, hx]
    rfl
  · rw [if_neg hp, if_neg hp]
    rfl

theorem RedemptionWrites.Committed.promotionCode
    (hc : x.Committed exact sure now ids.credit d₁ d₂) (c : UUID) :
    d₂.promotionCode c = match x.code with
      | some code => if c = code.id then some code.recordRedemption else d₁.promotionCode c
      | none => d₁.promotionCode c := by
  rw [Database.promotionCode, hc.promotions.2.1, RedemptionWrites.write_promotionCodes]
  cases hcode : x.code with
  | none => rfl
  | some code =>
    have hx : d₁.promotionCodes.find code.id = some code := hc.allowed.seen.2 code hcode
    have hid : code.recordRedemption.id = code.id := rfl
    rw [Option.elim_some, Table.find_update, hid]
    by_cases h : c = code.id
    · simp only [if_pos h]
      rw [h, hx]
      rfl
    · simp only [if_neg h]
      rfl

theorem RedemptionWrites.Committed.redemptions
    (hc : x.Committed exact sure now ids.credit d₁ d₂) :
    d₂.promotionRedemptions = d₁.promotionRedemptions ++ [x.redemption] := by
  rw [hc.promotions.2.2, RedemptionWrites.write_promotionRedemptions]

theorem isOf_redemption (hx : Request.Proper x ids) (p : UUID) :
    isOf p x.redemption = decide (p = x.promotion.id) := by
  simp [isOf, hx.promotionId, hx.status, eq_comm]

theorem isOfCode_redemption (hx : Request.Proper x ids) (c : UUID) :
    isOfCode c x.redemption = decide (x.code.map (·.id) = some c) := by
  simp [isOfCode, hx.promotionCodeId, hx.status]

/-- A redemption is counted, and was within the limits. -/
theorem Since.redeem (h : Since d d₁ new) (hx : Request.Proper x ids)
    (hc : x.Committed exact sure now ids.credit d₁ d₂) : Since d d₂ (new ++ [x.redemption]) where
  redemptions := by rw [hc.redemptions, h.redemptions, List.append_assoc]
  promotion p row hrow := by
    have h₁ := h.promotion p row hrow
    rw [hc.promotion, List.countP_append, List.countP_singleton, isOf_redemption hx]
    by_cases hp : p = x.promotion.id
    · have hxrow := hc.allowed.seen.1
      rw [← hp, h₁, Option.some.injEq] at hxrow
      rw [if_pos hp, decide_eq_true hp, ← hxrow]
      simp [Promotion.recordRedemption, add_assoc]
    · simp [hp, h₁]
  limit p row m hrow hm hle := by
    rw [List.countP_append, List.countP_singleton, isOf_redemption hx]
    by_cases hp : p = x.promotion.id
    · have hxrow := hc.allowed.seen.1
      rw [← hp, h.promotion p row hrow, Option.some.injEq] at hxrow
      -- The promotion was below its limit when it was redeemed.
      have hlt := hc.allowed.promotion.2.2.2 m (by rw [← hxrow]; exact hm)
      simp only [← hxrow] at hlt
      simp only [hp, decide_true, ↓reduceIte, Nat.cast_add, Nat.cast_one]
      rw [hp] at hlt
      omega
    · simpa [hp] using h.limit p row m hrow hm hle
  code c row hrow := by
    have h₁ := h.code c row hrow
    rw [hc.promotionCode, List.countP_append, List.countP_singleton, isOfCode_redemption hx]
    cases hcode : x.code with
    | none => simp [h₁]
    | some code =>
      by_cases hid : c = code.id
      · have hxrow := hc.allowed.seen.2 code hcode
        rw [← hid, h₁, Option.some.injEq] at hxrow
        have hdec : decide (Option.map (·.id) (some code) = some c) = true := by simp [hid]
        rw [hdec]
        simp only [if_pos hid]
        rw [← hxrow]
        simp [PromotionCode.recordRedemption, add_assoc]
      · simp [hid, Ne.symm hid, h₁]
  codeLimit c row m hrow hm hle := by
    rw [List.countP_append, List.countP_singleton, isOfCode_redemption hx]
    cases hcode : x.code with
    | none => simpa using h.codeLimit c row m hrow hm hle
    | some code =>
      by_cases hid : c = code.id
      · have hxrow := hc.allowed.seen.2 code hcode
        rw [← hid, h.code c row hrow, Option.some.injEq] at hxrow
        have hlt := (hc.allowed.code code hcode).2.2.2 m (by rw [← hxrow]; exact hm)
        simp only [← hxrow] at hlt
        simp only [hid, Option.map_some, decide_true, ↓reduceIte, Nat.cast_add, Nat.cast_one]
        rw [hid] at hlt
        omega
      · simpa [hid, Ne.symm hid] using h.codeLimit c row m hrow hm hle
  user u p row hrow hle := by
    have h₁ := h.user u p row hrow hle
    rw [hc.redemptions, List.countP_append, List.countP_singleton]
    by_cases hr : isByUser u p x.redemption
    · obtain ⟨hgranted, hb⟩ := (Bool.and_eq_true _ _).mp hr
      obtain ⟨hu, hp, _⟩ : x.redemption.userId = u ∧ x.redemption.promotionId = p ∧ _ := by
        simpa [grantedTo] using hgranted
      have hp : x.promotion.id = p := hx.promotionId.symm.trans hp
      have hxrow := hc.allowed.seen.1
      rw [hp, h.promotion p row hrow, Option.some.injEq] at hxrow
      -- The redemption was checked against all redemptions of the user.
      have hlt := hc.allowed.user (by simpa using hb)
      rw [hu, hp, ← hxrow] at hlt
      have hmono := countP_isByUser_le u p d₁.promotionRedemptions
      simp only [hr, ↓reduceIte, Nat.cast_add, Nat.cast_one]
      simp only at hlt
      omega
    · simpa [hr] using h₁

end

section

variable {ι : Type} [CaseFolding] {req : ι → Request} {d : Database}

/-- Every commit of a request is counted. -/
theorem Request.Change.since {r : Request} {exact sure : Prop} {ks : List LockKey} {d₁ d₂ : Database}
    (hc : r.Change exact sure ks d₁ d₂) (h : ∃ new, Since d d₁ new) : ∃ new, Since d d₂ new := by
  obtain ⟨new, h⟩ := h
  rcases hc.promotions with ⟨hp, hcode, hr⟩ | ⟨x, now, ids, hr, _, hcom⟩
  · exact ⟨new, h.congr hp hcode hr⟩
  · exact ⟨_, h.redeem hr.proper hcom⟩

variable [DecidableEq ι] {s : System ι Database Statement Error Response}

/-- In every run of any requests, the counters of promotions and codes count the
    redemptions that have been committed, and the limits hold. -/
theorem promotion_limits (hs : Reach Always (System.init (fun i => (req i).prog) d) s) :
    ∃ new, Since d s.store new := by
  have h : Bills (fun d' => ∃ new, Since d d' new) (fun _ => False) (fun _ => False) Always req d
      (fun _ _ _ => True) (fun _ _ _ => True) :=
    .of_inv ⟨[], .refl d⟩ (fun _ _ _ _ hd₁ hc => hc.since hd₁) (fun _ h => h.elim) fun _ h => h.elim
  exact (h.meets.sound hs).1

end

/-- A promotion that can be redeemed once. -/
def oncePromotion : Promotion where
  id := .ofNat 1
  name := "once"
  active := true
  startsAt := 0
  expiresAt := none
  maxRedemptions := some 1
  timesRedeemed := 0
  maxRedemptionsPerUser := 1
  context := none
  benefitAmount := ⟨3, by decide⟩

/-- A store with the promotion. -/
def onceStore : Database :=
  { Database.empty with promotions := ⟨[oncePromotion], List.nodup_singleton _⟩ }

/-- The identities of two redemptions, their transactions and their events. -/
def redemptionIds (i : Bool) : RedemptionIds where
  redemptionId := .ofNat (if i then 30 else 40)
  stamp := ⟨.ofNat (if i then 31 else 41), 0⟩
  credit := ⟨.ofNat (if i then 32 else 42), ⟨.ofNat (if i then 33 else 43), 0⟩⟩

/-- Two users redeem the promotion. -/
def twoRedemptions (i : Bool) : Request :=
  .redeem ⟨.ofNat (if i then 5 else 6), .ofNat 1, none⟩ 1 (redemptionIds i)

/-- The second of two redemptions is refused by the limit of the promotion. -/
theorem promotion_limits_twoRedemptions : letI := CaseFolding.ascii
    ∃ s new, Reach Always (System.init (fun i => (twoRedemptions i).prog) onceStore) s ∧
      (s.returned true).isSome ∧ (s.raised false).isSome ∧ s.store.promotionRedemptions.length = 1 ∧
      Since onceStore s.store new := by
  let _ := CaseFolding.ascii
  have hrun : ∃ s, Reach Always (System.init (fun i => (twoRedemptions i).prog) onceStore) s ∧
      (s.returned true).isSome ∧ (s.raised false).isSome ∧ s.store.promotionRedemptions.length = 1 :=
    System.exists_reach (List.replicate 16 (.run true) ++ List.replicate 2 (.run false))
      (by decide +kernel)
  obtain ⟨s, hs, htrue, hfalse, hlen⟩ := hrun
  obtain ⟨new, h⟩ := promotion_limits hs
  exact ⟨s, new, hs, htrue, hfalse, hlen, h⟩

end Boat
