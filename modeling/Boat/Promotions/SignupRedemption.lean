import Boat.Promotions.Spec
import Boat.ReadCommitted.Lifted

/-!
# Redemptions on signup

What the redemption of a signup does in a transaction that spans other parts of the store
(`wp_redeemNew`): the user is new, so that the grant of the promotion is not taken for a replay, and
does not roll the session back.
-/

namespace Boat

open ReadCommitted SqlAlchemyPromotionRepository SqlAlchemyCreditRepository

/-- The promotion that a signup redeems: the first of the current ones, if the beneficiary has not
    redeemed it. -/
def RedeemSignupPromotionCommand.promotion (command : RedeemSignupPromotionCommand) (now : Instant)
    (d : Database) :
    Option Promotion :=
  ((d.promotions.rows.filter (isCurrent now .signup)).insertionSort comesBefore).head?.filter fun p =>
    (d.promotionRedemptions.find? fun r => r.promotionId = p.id ∧
      r.beneficiaryKey = some command.beneficiaryKey).isNone

/-! ## New users -/

/-- There are no credits of the user, and no grant for the redemption. -/
structure NewUser (userId redemptionId : UUID) (d : Database) : Prop where
  credit : d.userCredits userId = none
  user : ∀ t ∈ d.creditTransactions, t.userId ≠ userId
  key : ∀ t ∈ d.creditTransactions, ∀ promotionId,
    t.idempotencyKey ≠
      some (RedeemSignupPromotionCommandUseCase.creditIdempotencyKey promotionId redemptionId)

theorem NewUser.entries {command : RedeemSignupPromotionCommand} {p : Promotion} {now : Instant}
    {ids : RedemptionIds} {d : Database} (h : NewUser command.userId ids.redemptionId d) :
    ∀ e ∈ ((command.writes p now ids).transaction ids.credit).entries, d.hasEntry e = false := by
  have hentries : ((command.writes p now ids).transaction ids.credit).entries =
      [.transactionKey
        (RedeemSignupPromotionCommandUseCase.creditIdempotencyKey p.id ids.redemptionId),
        .transactionSource ⟨.promotionRedemption, ids.redemptionId⟩ command.userId .grant] := rfl
  rw [hentries]
  intro e he
  rw [List.mem_pair] at he
  rcases he with rfl | rfl
  · rw [hasEntry_transactionKey, List.any_eq_false]
    exact fun t ht => by simpa using h.key t ht p.id
  · rw [hasEntry_transactionSource, List.any_eq_false]
    exact fun t ht => by simp [h.user t ht]

namespace RedemptionWrites

/-- The row of the credits of a new user. -/
def credit (x : RedemptionWrites) : CreditBalance := CreditBalance.zero.granted x.grantCommand.amount

/-- The writes of a redemption by a new user. -/
def granted (x : RedemptionWrites) (ids : CreditIds) (d : Database) : Database :=
  (((x.write d).insertOutbox [x.grantCommand.outboxRow ids]).insertTransaction
    (x.transaction ids)).insertUserCredit
    x.redemption.userId x.credit

end RedemptionWrites

theorem creditIdempotencyKey_inj {promotionId promotionId' redemptionId redemptionId' : UUID}
    (h : RedeemSignupPromotionCommandUseCase.creditIdempotencyKey promotionId redemptionId =
      RedeemSignupPromotionCommandUseCase.creditIdempotencyKey promotionId' redemptionId') :
        redemptionId = redemptionId' := by
  have h := String.append_right_inj _ |>.1 (String.append_right_inj _ |>.1 h)
  obtain ⟨-, h⟩ := UUID.str_append_inj h
  exact UUID.str_inj (String.append_right_inj _ |>.1 h)

/-- Users are still new after a redemption of another one. -/
theorem NewUser.granted {userId redemptionId : UUID} {command : RedeemSignupPromotionCommand}
    {p : Promotion} {now : Instant} {ids : RedemptionIds} {d : Database}
    (h : NewUser userId redemptionId d) (huser : command.userId ≠ userId)
    (hredemption : ids.redemptionId ≠ redemptionId) :
    NewUser userId redemptionId ((command.writes p now ids).granted ids.credit d) := by
  have hframe := (command.writes p now ids).creditsFrame_write
  have hcases : ∀ t ∈ ((command.writes p now ids).granted ids.credit d).creditTransactions,
      t ∈ d.creditTransactions ∨ t = (command.writes p now ids).transaction ids.credit := by
    intro t ht
    rcases List.mem_append.1
      (show t ∈ ((command.writes p now ids).write d).creditTransactions ++ _ from ht) with ht | ht
    · exact .inl (hframe.creditTransactions d ▸ ht)
    · exact .inr (List.mem_singleton.1 ht)
  refine ⟨?_, fun t ht => ?_, fun t ht promotionId => ?_⟩
  · refine (Function.update_of_ne huser.symm _ _).trans ?_
    exact (congrFun (hframe.userCredits d) userId).trans h.credit
  · rcases hcases t ht with ht | rfl
    · exact h.user t ht
    · exact huser
  · rcases hcases t ht with ht | rfl
    · exact h.key t ht promotionId
    · exact fun hkey => hredemption (creditIdempotencyKey_inj (Option.some.inj hkey))

section

variable {ι S M L' ε' : Type} [Locking S M] {P : Protocol ι S M L'} {i : ι} {part : Part S Database}
  {label : Statement → L'} {error : Error → ε'} {w : S → S} {ms : List M} {s : S}

/-- The rows of a grant to a new user are inserted. -/
theorem wp_flushPendingWrites_new {t : CreditTransaction} {row : CreditBalance} {Q : Post S M Unit}
    {E : Post S M Error} (hpair : t.reasonActionPair)
    (hnew : ∀ s', P.Interf i ms s s' → (part.get (w s')).userCredits t.userId = none ∧
      ∀ e ∈ t.entries, (part.get (w s')).hasEntry e = false)
    (hQ : ∀ ms' s', P.Interf i ms s s' → ms ⊆ ms' →
      Q () (part.write (Database.insertUserCredit t.userId row) ∘
        part.write (Database.insertTransaction t) ∘ w) ms' s')
    (hE : ∀ st w ms s', P.Interf i [] s s' → E (.fault st) w ms s') :
    P.wp i Q E (Prog.lift part label id (flushPendingWrites t (.insert row))) w ms s := by
  rw [flushPendingWrites, Prog.tryCatch_eq, Protocol.wp_lift_handle]
  simp only [flush, flushUserCredit, Prog.bind_eq, Protocol.wp_lift_bind, Tx.exec]
  refine Protocol.wp_lift_exec.2 fun s₁ hi₁ _ =>
    ⟨fun _ => ?_, hE _ _ _ s₁ hi₁.nil, hE _ _ _ s₁ hi₁.nil⟩
  have hentries : t.entries.find? ((part.get (w s₁)).hasEntry ·) = none :=
    List.find?_eq_none.2 fun e he => by simp [(hnew s₁ hi₁).2 e he]
  simp only [insertTransaction, insertCommand, hpair, if_true, hentries]
  refine Protocol.wp_lift_exec.2 fun s₂ hi₂ _ =>
    ⟨fun _ => ?_, hE _ _ _ s₂ (hi₁.nil.trans hi₂.nil), hE _ _ _ s₂ (hi₁.nil.trans hi₂.nil)⟩
  have hi : P.Interf i ms s s₂ := hi₁.trans hi₂.append_right
  have hnone : (part.get ((part.write (Database.insertTransaction t) ∘ w) s₂)).hasEntry
      (.userCredit t.userId) = false := by
    rw [Database.hasEntry_userCredit]
    show (part.get (part.write _ (w s₂))).userCredits t.userId = none
    rw [Part.get_write]
    exact (hnew s₂ hi).1
  simp only [insertUserCredit, insertCommand, List.find?_singleton, hnone, Bool.false_eq_true,
    ↓reduceIte]
  exact hQ _ s₂ hi (List.subset_append_of_subset_right _ (List.subset_append_right _ _))

variable {x : RedemptionWrites} {ids : CreditIds} {E : Post S M ε'}

/-- A grant to a new user inserts the credits of the user and the transaction. -/
theorem wp_grant_new {Q : Post S M GrantCreditCommandResult}
    (hnew : ∀ s', P.Interf i ms s s' → (part.get (w s')).userCredits x.redemption.userId = none ∧
      ∀ e ∈ (x.transaction ids).entries, (part.get (w s')).hasEntry e = false)
    (hQ : ∀ r ms' s', P.Interf i ms s s' → ms ⊆ ms' →
      Q r (part.write (Database.insertUserCredit x.redemption.userId x.credit) ∘
        part.write (Database.insertTransaction (x.transaction ids)) ∘
          part.write (Database.insertOutbox [x.grantCommand.outboxRow ids]) ∘ w) ms' s')
    (hE : ∀ e w ms s', P.Interf i [] s s' → E e w ms s') :
    P.wp i Q E (Prog.lift part label error
      (GrantCreditCommandUseCase.grant deferredGrantUnitOfWork x.grantCommand ids)) w ms s := by
  simp only [GrantCreditCommandUseCase.grant, getUserCreditForUpdate, save, Prog.bind_eq,
    Prog.pure_eq, Tx.selectForUpdate, Tx.select, Tx.exec, Protocol.wp_lift_bind]
  refine Protocol.wp_lift_query (fun s₁ hi₁ _ => ?_) hE
  -- The user has no row to lock, and still none when `save` looks for it.
  have hlocks : ∀ {l : List M}, ((((part.get (w s₁)).userCredits x.grantCommand.userId).map fun _ =>
      LockKey.row (.userCredit x.grantCommand.userId)).toList.map part.lock) ++ l = l := by
    intro l
    have hnone : (part.get (w s₁)).userCredits x.grantCommand.userId = none := (hnew s₁ hi₁).1
    rw [hnone]
    rfl
  have hnone : (part.get (w s₁)).userCredits x.grantCommand.userId = none := (hnew s₁ hi₁).1
  rw [hlocks, hnone]
  simp only [Prog.lift, Protocol.wp_ret, userCreditToDomain, Option.getD_none, UserCredit.grant_eq,
    Tx.lift, Prog.ret_bind, Protocol.wp_lift_bind]
  refine Protocol.wp_lift_query (fun s₂ hi₂ _ => ?_) fun e w ms s' hi =>
    hE e w ms s' (hi₁.nil.trans hi)
  have hi₁₂ : P.Interf i ms s s₂ := hi₁.trans hi₂
  have hnone₂ : (part.get (w s₂)).userCredits x.grantCommand.userId = none := (hnew s₂ hi₁₂).1
  rw [hnone₂]
  simp only [Protocol.wp_ret, pendingFor, publish, Tx.exec, Protocol.wp_lift_bind]
  refine Protocol.wp_lift_exec_of_ok (fun s₃ _ u hi₃ _ hrun => ?_) fun e w ms s' hi =>
    hE e w ms s' (hi₁₂.nil.trans hi)
  cases hrun
  have hi₁₃ : P.Interf i ms s s₃ := hi₁₂.trans hi₃
  rw [Prog.tryCatch_eq, Protocol.wp_lift_handle, Protocol.wp_lift_bind]
  refine wp_flushPendingWrites_new rfl (fun s' hi => ?_)
    (fun ms' s' hi hsub => ?_) fun st w ms s' hi => ?_
  · rw [Function.comp_apply, Part.get_write]
    exact hnew s' (hi₁₃.trans hi)
  · exact hQ _ ms' s' (hi₁₃.trans hi) hsub
  · exact hE _ w ms s' (hi₁₃.nil.trans hi)

/-- A grant to a new user is made, whatever the others do, and its commit is left to the
    redemption. -/
theorem wp_grantOcrCredit_new {Q : Post S M GrantCreditCommandResult}
    (hnew : ∀ s', P.Interf i ms s s' → (part.get (w s')).userCredits x.redemption.userId = none ∧
      ∀ e ∈ (x.transaction ids).entries, (part.get (w s')).hasEntry e = false)
    (hQ : ∀ r ms' s', P.Interf i ms s s' → ms ⊆ ms' →
      Q r (part.write (Database.insertUserCredit x.redemption.userId x.credit) ∘
        part.write (Database.insertTransaction (x.transaction ids)) ∘
          part.write (Database.insertOutbox [x.grantCommand.outboxRow ids]) ∘ w) ms' s')
    (hE : ∀ e w ms s', P.Interf i [] s s' → E e w ms s') :
    P.wp i Q E (Prog.lift part label error
      (grantOcrCredit ⟨x.redemption.userId, x.promotion.benefitAmount.value,
      x.redemption.id, x.creditKey⟩ ids)) w ms s := by
  have hamount : CreditAmount.create x.promotion.benefitAmount.value "amount" =
      .ok x.grantCommand.amount := by
    rw [CreditAmount.create, dif_neg (not_lt.2 x.promotion.benefitAmount.one_le)]
    rfl
  have hkey : .transactionKey x.creditKey ∈ (x.transaction ids).entries := List.mem_cons_self
  have hsource :
      .transactionSource ⟨.promotionRedemption, x.redemption.id⟩ x.redemption.userId .grant ∈
        (x.transaction ids).entries := List.mem_cons_of_mem _ List.mem_cons_self
  simp only [grantOcrCredit, hamount, GrantCreditCommand.create, Tx.lift, Prog.bind_eq, Prog.ret_bind,
    GrantCreditCommandUseCase.execute, GrantCreditCommandUseCase.isDuplicateGrant,
      existsTransactionWithIdempotencyKey,
    existsTransactionWithSource, Tx.select, Tx.exec, Protocol.wp_lift_bind]
  refine Protocol.wp_lift_query (fun s₁ hi₁ _ => ?_) hE
  have hE₁ : ∀ e w ms s', P.Interf i [] s₁ s' → E e w ms s' :=
    fun e w ms s' hi => hE e w ms s' (hi₁.nil.trans hi)
  rw [← hasEntry_transactionKey, (hnew s₁ hi₁).2 _ hkey]
  simp only [Bool.false_eq_true, ↓reduceIte]
  refine Protocol.wp_lift_query (fun s₂ hi₂ _ => ?_) hE₁
  have hi₁₂ : P.Interf i ms s s₂ := hi₁.trans hi₂
  rw [← hasEntry_transactionSource, (hnew s₂ hi₁₂).2 _ hsource]
  simp only [Bool.false_eq_true, ↓reduceIte]
  refine wp_grant_new (fun s' hi => hnew s' (hi₁₂.trans hi))
    (fun r ms' s' hi hsub => hQ r ms' s' (hi₁₂.trans hi) hsub)
    fun e w ms s' hi => hE e w ms s' (hi₁₂.nil.trans hi)

/-- The promotion is saved as it was read, once more redeemed, while it does not change. -/
theorem wp_savePromotion_lift {p : Promotion} {Q : Post S M Unit}
    (hp : ∀ s', P.Interf i ms s s' → (part.get (w s')).promotion p.id = some p)
    (hQ : ∀ ms' s', P.Interf i ms s s' → ms ⊆ ms' →
      Q () (part.write (Database.updatePromotion p.recordRedemption) ∘ w) ms' s')
    (hE : ∀ e w ms s', P.Interf i [] s s' → E e w ms s') :
    P.wp i Q E (Prog.lift part label error (savePromotion p.recordRedemption)) w ms s := by
  have hid : p.recordRedemption.id = p.id := rfl
  have hne : p.recordRedemption ≠ p := by
    intro h
    have htimes := congrArg Promotion.timesRedeemed h
    simp [Promotion.recordRedemption] at htimes
  simp only [savePromotion, Prog.bind_eq, Tx.select, Tx.exec, Protocol.wp_lift_bind, hid]
  refine Protocol.wp_lift_query (fun s₁ hi₁ _ => ?_) hE
  rw [hp s₁ hi₁]
  simp only [hne, ↓reduceIte]
  refine Protocol.wp_lift_exec_of_ok (fun s₂ _ u hi₂ _ hrun => ?_) fun e w ms s' hi =>
    hE e w ms s' (hi₁.nil.trans hi)
  have hi₁₂ : P.Interf i ms s s₂ := hi₁.trans hi₂
  simp only [updateCommand, hp s₂ hi₁₂, Except.map] at hrun
  cases hrun
  have hset := mergePromotion_self p p.recordRedemption
  rw [hid] at hset
  rw [hset]
  exact hQ _ s₂ hi₁₂ (List.subset_append_right _ _)

/-- No other session changes the store. -/
def Quiet (P : Protocol ι S M L') (i : ι) (s : S) : Prop := ∀ s', P.Interf i [] s s' → s' = s

variable {now : Instant} {context : PromotionContext}

/-- The candidates are locked one after the other, up to the first that still matches. -/
theorem wp_lockFirst_lift {Q : Post S M (Option Promotion)} (hw : ∀ s, part.get (w s) = part.get s)
    (hE : ∀ e w ms s', P.Interf i [] s s' → E e w ms s') (candidates : List UUID)
    (hQ : ∀ o ms' s', P.Interf i ms s s' → ms ⊆ ms' →
      (∀ p ∈ o, part.lock (.row (.promotion p.id)) ∈ ms' ∧ (part.get s').promotion p.id = some p) →
      (Quiet P i s → o = (candidates.filterMap (part.get s).promotion).find?
        (isCurrent now context)) → Q o w ms' s') :
    P.wp i Q E (Prog.lift part label error (lockFirst now context candidates)) w ms s := by
  induction candidates generalizing ms s with
  | nil => exact hQ none ms s .refl (List.Subset.refl ms) (fun _ h => nomatch h) fun _ => rfl
  | cons c candidates ih =>
    simp only [lockFirst, Prog.bind_eq, Tx.selectForUpdate, Tx.exec, Protocol.wp_lift_bind]
    refine Protocol.wp_lift_query (fun s₁ hi₁ _ => ?_) hE
    rw [hw s₁]
    rcases hp : (part.get s₁).promotion c with - | p
    · refine ih (fun e w ms s' hi => hE e w ms s' (hi₁.nil.trans hi)) fun o ms' s' hi hsub hlock
        hquiet => ?_
      refine hQ o ms' s' (hi₁.trans hi) hsub hlock fun h => ?_
      obtain rfl := h s₁ hi₁.nil
      rw [List.filterMap_cons_none hp]
      exact hquiet h
    · -- It is locked, and is returned if it is current by now.
      obtain ⟨-, hid⟩ := Table.find_eq_some.1 hp
      by_cases hcurrent : isCurrent now context p
      · simp only [Option.filter_some, hcurrent, ↓reduceIte]
        refine hQ (some p) _ s₁ hi₁ (List.subset_append_right _ _) (fun q hq => ?_) fun h => ?_
        · cases hq
          exact ⟨List.mem_cons_self, hid ▸ hp⟩
        · obtain rfl := h s₁ hi₁.nil
          rw [List.filterMap_cons_some hp, List.find?_cons_of_pos hcurrent]
      · simp only [Option.filter_some, hcurrent, Bool.false_eq_true, ↓reduceIte]
        refine ih (fun e w ms s' hi => hE e w ms s' (hi₁.nil.trans hi)) fun o ms' s' hi hsub hlock
          hquiet => ?_
        refine hQ o ms' s' (hi₁.trans hi.append_right)
          (List.Subset.trans (List.subset_append_right _ _) hsub) hlock fun h => ?_
        obtain rfl := h s₁ hi₁.nil
        rw [List.filterMap_cons_some hp, List.find?_cons_of_neg hcurrent]
        exact hquiet h

/-- The first candidate is the one that is found, if they do not change. -/
theorem find?_candidates (d : Database) :
    (((((d.promotions.rows.filter (isCurrent now context)).insertionSort
    comesBefore).map Promotion.id).filterMap d.promotion).find? (isCurrent now context)) =
      ((d.promotions.rows.filter (isCurrent now context)).insertionSort comesBefore).head? := by
  have hrows : ∀ p ∈ (d.promotions.rows.filter (isCurrent now context)).insertionSort comesBefore,
      p ∈ d.promotions.rows ∧ isCurrent now context p = true := by
    intro p hp
    exact List.mem_filter.1 ((List.mem_insertionSort _).1 hp)
  generalize (d.promotions.rows.filter (isCurrent now context)).insertionSort comesBefore =
    l at hrows ⊢
  cases l with
  | nil => rfl
  | cons p l =>
    obtain ⟨hp, hcurrent⟩ := hrows p List.mem_cons_self
    have hfind : d.promotion p.id = some p := Table.find_eq_some.2 ⟨hp, rfl⟩
    rw [List.map_cons, List.filterMap_cons_some hfind, List.find?_cons_of_pos hcurrent,
      List.head?_cons]

variable {command : RedeemSignupPromotionCommand} {ids : RedemptionIds}

omit [Locking S M] in
theorem run_insertCommand {entries : List IndexEntry} {check : Option Constraint}
    {u : Database → Database} {hu : Touches (entries.map .entry) u} {v : Database} {a : Unit}
    {u' : Database → Database} (h : (insertCommand entries check u hu).run v = .ok (a, u')) :
    u' = u ∧ ∀ e ∈ entries, v.hasEntry e = false := by
  simp only [insertCommand] at h
  split at h
  · cases h
  · cases h
  · next hfind =>
    cases h
    exact ⟨rfl, fun e he => by simpa using List.find?_eq_none.1 hfind e he⟩

/-- A promotion is redeemed by a new user, while it does not change. -/
theorem wp_writeNew {p : Promotion} {Q : Post S M Bool} (hw : ∀ s, part.get (w s) = part.get s)
    (hp : ∀ s', P.Interf i ms s s' → (part.get s').promotion p.id = some p)
    (hnew : ∀ s', P.Interf i [] s s' → NewUser command.userId ids.redemptionId (part.get s'))
    (hQ : ∀ ms' s', P.Interf i ms s s' → ms ⊆ ms' →
      Q true (part.write ((command.writes p now ids).granted ids.credit) ∘ w) ms' s')
    (hE : ∀ e w ms s', P.Interf i [] s s' → E e w ms s') :
    P.wp i Q E (Prog.lift part label error (do
      let (redemption, events) := RedeemSignupPromotionCommandUseCase.redemption command p now ids
      let promotion := p.recordRedemption
      createRedemption redemption
      savePromotion promotion
      publish .promotion events
      let _ ← grantOcrCredit ⟨command.userId, promotion.benefitAmount.value, redemption.id,
        RedeemSignupPromotionCommandUseCase.creditIdempotencyKey promotion.id redemption.id⟩
          ids.credit
      (deferredCommitUnitOfWork none).commit
      return true)) w ms s := by
  simp only [createRedemption, publish, Prog.bind_eq, Tx.exec, Protocol.wp_lift_bind]
  refine Protocol.wp_lift_exec_of_ok (fun s₁ _ u hi₁ _ hrun => ?_) hE
  obtain ⟨rfl, -⟩ := run_insertCommand hrun
  -- The redemption has been inserted; the count of the promotion, the events and the grant follow.
  have hE₁ : ∀ e w ms s', P.Interf i [] s₁ s' → E e w ms s' :=
    fun e w ms s' hi => hE e w ms s' (hi₁.nil.trans hi)
  rw [Protocol.wp_lift_bind]
  refine wp_savePromotion_lift (fun s' hi => ?_) (fun ms₂ s₂ hi₂ hsub => ?_) hE₁
  · rw [Function.comp_apply, Part.get_write, hw s']
    exact hp s' (hi₁.trans hi.append_right)
  have hi₁₂ : P.Interf i ms s s₂ := hi₁.trans hi₂.append_right
  have hsub₂ : ms ⊆ ms₂ := List.Subset.trans (List.subset_append_right _ _) hsub
  rw [Protocol.wp_lift_bind]
  refine Protocol.wp_lift_exec_of_ok (fun s₃ _ u hi₃ _ hrun => ?_) fun e w ms s' hi =>
    hE e w ms s' (hi₁₂.nil.trans hi)
  cases hrun
  have hi₁₃ : P.Interf i ms s s₃ := hi₁₂.trans (hi₃.anti hsub₂)
  rw [Protocol.wp_lift_bind]
  refine wp_grantOcrCredit_new (x := command.writes p now ids) (fun s' hi => ?_)
    (fun r ms' s' hi hsub' => ?_)
    fun e w ms s' hi => hE e w ms s' (hi₁₃.nil.trans hi)
  · -- The grant sees what the session has written, over what is committed by now.
    have hview : ∀ s, part.get
      ((part.write (Database.insertOutbox ((command.writes p now ids).events.map (.of .promotion))) ∘
        part.write (Database.updatePromotion p.recordRedemption) ∘
          part.write (Database.insertRedemption (command.writes p now ids).redemption) ∘ w) s) =
        (command.writes p now ids).write (part.get s) := by
      intro s
      simp only [Function.comp_apply, Part.get_write, hw]
      rfl
    have hframe := (command.writes p now ids).creditsFrame_write
    have hnew' := hnew s' (hi₁₃.nil.trans hi.nil)
    refine ⟨?_, fun e he => ?_⟩
    · exact (congrArg (·.userCredits command.userId) (hview s')).trans
        ((congrFun (hframe.userCredits _) _).trans hnew'.credit)
    · exact (congrArg (·.hasEntry e) (hview s')).trans
        ((hframe.hasEntry he _).trans (hnew'.entries e he))
  · have hwrite : part.write ((command.writes p now ids).granted ids.credit) ∘ w =
        part.write (Database.insertUserCredit command.userId (command.writes p now ids).credit) ∘
          part.write (Database.insertTransaction
            ((command.writes p now ids).transaction ids.credit)) ∘
            part.write (Database.insertOutbox
              [(command.writes p now ids).grantCommand.outboxRow ids.credit]) ∘
              part.write (Database.insertOutbox
                ((command.writes p now ids).events.map (.of .promotion))) ∘
                part.write (Database.updatePromotion p.recordRedemption) ∘
                  part.write (Database.insertRedemption
                    (command.writes p now ids).redemption) ∘ w := by
      simp only [← Function.comp_assoc, Part.write_comp]
      rfl
    have hQ' := hQ ms' s' (hi₁₃.trans (hi.anti hsub₂)) (List.Subset.trans hsub₂ hsub')
    rw [hwrite] at hQ'
    exact hQ'

/-- A new user redeems the promotion, or there is none to redeem; the session is not rolled back. -/
theorem wp_redeemNew {Q : Post S M Bool} (hw : ∀ s, part.get (w s) = part.get s)
    (hnew : ∀ s', P.Interf i [] s s' → NewUser command.userId ids.redemptionId (part.get s'))
    (hfalse : ∀ ms' s', P.Interf i ms s s' → ms ⊆ ms' →
      (Quiet P i s → command.promotion now (part.get s) = none) → Q false w ms' s')
    (htrue : ∀ p ms' s', P.Interf i ms s s' → ms ⊆ ms' →
      (Quiet P i s → command.promotion now (part.get s) = some p) →
      Q true (part.write ((command.writes p now ids).granted ids.credit) ∘ w) ms' s')
    (hE : ∀ e w ms s', P.Interf i [] s s' → E e w ms s') :
    P.wp i Q E (Prog.lift part label error
      (RedeemSignupPromotionCommandUseCase.execute (deferredCommitUnitOfWork none)
      command now ids)) w ms s := by
  simp only [RedeemSignupPromotionCommandUseCase.execute, findCurrentOcrCreditPromotionForUpdate,
    Prog.bind_eq, Tx.select, Tx.exec, Protocol.wp_lift_bind]
  refine Protocol.wp_lift_query (fun s₁ hi₁ _ => ?_) hE
  rw [hw s₁]
  refine wp_lockFirst_lift hw (fun e w ms s' hi => hE e w ms s' (hi₁.nil.trans hi)) _
    fun o ms₂ s₂ hi₂ hsub hlock hquiet => ?_
  have hi₁₂ : P.Interf i ms s s₂ := hi₁.trans hi₂
  -- If nothing changes, it is the first of the promotions that are current.
  have hfirst : Quiet P i s →
      o = ((((part.get s).promotions.rows.filter (isCurrent now .signup)).insertionSort
        comesBefore).head?) := by
    intro h
    obtain rfl := h s₁ hi₁.nil
    rw [hquiet h, find?_candidates]
  rcases o with - | p
  · refine hfalse ms₂ s₂ hi₁₂ hsub fun h => ?_
    rw [RedeemSignupPromotionCommand.promotion, ← hfirst h, Option.filter_none]
  obtain ⟨hmem, hp⟩ := hlock p rfl
  simp only [findRedemptionByPromotionAndBeneficiary, Tx.select, Tx.exec, Protocol.wp_lift_bind]
  refine Protocol.wp_lift_query (fun s₃ hi₃ _ => ?_) fun e w ms s' hi =>
    hE e w ms s' (hi₁₂.nil.trans hi)
  have hi₁₃ : P.Interf i ms s s₃ := hi₁₂.trans (hi₃.anti hsub)
  rw [hw s₃]
  have hpromotion : Quiet P i s → command.promotion now (part.get s) = (some p).filter fun p =>
      ((part.get s₃).promotionRedemptions.find? fun r =>
        r.promotionId = p.id ∧ r.beneficiaryKey = some command.beneficiaryKey).isNone := by
    intro h
    rw [RedeemSignupPromotionCommand.promotion, ← hfirst h, h s₃ hi₁₃.nil]
  split
  · next existing hfound =>
    refine hfalse _ s₃ hi₁₃ (List.Subset.trans hsub (List.subset_append_right _ _)) fun h => ?_
    rw [hpromotion h, Option.filter_some, hfound]
    rfl
  · next hfound =>
    have hE₃ : ∀ e w ms s', P.Interf i [] s₃ s' → E e w ms s' :=
      fun e w ms s' hi => hE e w ms s' (hi₁₃.nil.trans hi)
    rcases p.ensureRedeemable now with error | -
    · exact hE₃ _ _ _ s₃ .refl
    refine wp_writeNew hw (fun s' hi => ?_) (fun s' hi => hnew s' (hi₁₃.nil.trans hi))
      (fun ms' s' hi hsub' => ?_) hE₃
    · exact part.kept ((hi₃.trans hi).kept hmem) (fun d => d.promotion p.id = some p)
        (.promotion p.id p) hp
    · refine htrue p ms' s' (hi₁₃.trans (hi.anti hsub)) (List.Subset.trans hsub hsub') fun h => ?_
      · rw [hpromotion h, Option.filter_some, hfound]
        rfl

end

end Boat
