import Boat.Promotions.Monthly

/-!
# Promotions: runs of the monthly job

Any number of runs of the monthly job, for any months, and of redemptions, interleave on the table of
promotions. What each of them commits is one of `Ensured` and `Counted` (`meets_promotions`), so that

* the unique index holds along every run: there is one promotion for recharging that starts at a time;
* a run of the job keeps the promotions with their identities and counts, up to a new promotion;
* once a run of the job has returned, those for the same month change nothing any more
  (`monthly_promotions`).
-/

namespace Boat.Promotions

open ReadCommitted
open SqlAlchemyPromotionRepository (mergePromotion)

/-- A run of the job, or a redemption. -/
inductive PromotionsRun
  | ensure (targetMonth : Option Date) (clock : Instant) (promotionId : UUID)
  | redeem (by' : RedeemedBy) (now : Instant) (lost : Bool)

def PromotionsRun.prog : PromotionsRun → PromotionsTx (Option EnsureMonthlyRechargePromotionResult)
  | .ensure targetMonth clock promotionId => do
    let result ← ensureMonthlyRechargePromotion targetMonth clock promotionId
    return some result
  | .redeem by' now lost => do
    redeemPromotion by' now lost
    return none

/-- The unique indexes of the table hold. -/
def Unique (d : PromotionsDatabase) : Prop :=
  ∀ e, ∀ p ∈ d.promotions.rows, ∀ q ∈ d.promotions.rows, e ∈ entries p → e ∈ entries q → p = q

/-- What a run of the job commits. -/
inductive Ensured (spec : MonthlyRechargePromotionSpec) (promotionId : UUID)
    (d d' : PromotionsDatabase) : Prop
  | created (hfree : ∀ e ∈ entries (newMonthlyRechargePromotion spec promotionId),
    d.hasEntry e = false)
      (h : d' = d.insertPromotion (newMonthlyRechargePromotion spec promotionId))
  | applied (p : Promotion) (hp : p ∈ d.promotions.rows) (hcontext : p.context = some .recharge)
      (hstarts : p.startsAt = spec.startsAt)
      (h : d' = d.setPromotion (applyMonthlyRechargeSpec spec p))

/-- What a redemption commits. -/
inductive Counted (d d' : PromotionsDatabase) : Prop
  | nothing (h : d' = d)
  | counted (p : Promotion) (hp : p ∈ d.promotions.rows) (h : d' = d.setPromotion p.recordRedemption)

variable {ι : Type}

/-- The protocol of the runs. -/
def promotionsProtocol (run : ι → PromotionsRun) :
    Protocol ι PromotionsDatabase PromotionsLock PromotionsStatement where
  inv := Unique
  guar i _ d d' := match run i with
    | .ensure targetMonth clock promotionId =>
      ∃ spec, monthlyRechargePromotionSpec targetMonth clock = .ok spec ∧
        Ensured spec promotionId d d'
    | .redeem .. => Counted d d'
  cond := Always

/-- What a run has returned: of the job, a promotion that is as it should be. -/
def Holds (run : PromotionsRun) (result : Option EnsureMonthlyRechargePromotionResult)
    (d : PromotionsDatabase) : Prop :=
  match run with
  | .ensure targetMonth clock _ => ∃ spec r p,
    monthlyRechargePromotionSpec targetMonth clock = .ok spec ∧
      result = some r ∧ p ∈ d.promotions.rows ∧ p.id = r.promotionId ∧
        applyMonthlyRechargeSpec spec p = p ∧
      r.startsAt = spec.startsAt ∧ r.expiresAt = spec.expiresAt
  | .redeem .. => True

/-! ## Rows -/

section

variable {d : PromotionsDatabase} {p q : Promotion} {spec : MonthlyRechargePromotionSpec}
  {promotionId : UUID}

/-- Setting a row to what it is. -/
theorem setPromotion_self (hp : p ∈ d.promotions.rows) : d.setPromotion p = d := by
  have hrows : (d.promotions.update p).rows = d.promotions.rows := by
    refine (List.map_congr_left fun q hq => ?_).trans (List.map_id _)
    split
    · next hid => exact Table.eq_of_key hp hq hid.symm
    · rfl
  obtain ⟨⟨rows, nodup⟩⟩ := d
  simp only [PromotionsDatabase.setPromotion, Table.update, PromotionsDatabase.mk.injEq,
    Table.mk.injEq]
  exact hrows

/-- A row may be set to one with the same entries. -/
theorem Unique.setPromotion (h : Unique d) (hp : p ∈ d.promotions.rows) (hid : q.id = p.id)
    (hq : entries q = entries p) :
    Unique (d.setPromotion q) := by
  intro e r hr r' hr' he he'
  rcases Table.mem_update.1 hr with ⟨hold, hne⟩ | ⟨rfl, -⟩
  · rcases Table.mem_update.1 hr' with ⟨hold', -⟩ | ⟨rfl, -⟩
    · exact h e r hold r' hold' he he'
    · exact absurd ((h e r hold p hp he (hq ▸ he')) ▸ hid.symm) hne
  · rcases Table.mem_update.1 hr' with ⟨hold', hne⟩ | ⟨rfl, -⟩
    · exact absurd ((h e r' hold' p hp he' (hq ▸ he)) ▸ hid.symm) hne
    · rfl

/-- A row may be inserted with free entries. -/
theorem Unique.insertPromotion (h : Unique d) (hfree : ∀ e ∈ entries p, d.hasEntry e = false) :
    Unique (d.insertPromotion p) := by
  intro e r hr r' hr' he he'
  rcases Table.mem_insert.1 hr with hold | ⟨rfl, -⟩
  · rcases Table.mem_insert.1 hr' with hold' | ⟨rfl, -⟩
    · exact h e r hold r' hold' he he'
    · exact absurd he (PromotionsDatabase.hasEntry_eq_false.1 (hfree e he') r hold)
  · rcases Table.mem_insert.1 hr' with hold' | ⟨rfl, -⟩
    · exact absurd he' (PromotionsDatabase.hasEntry_eq_false.1 (hfree e he) r' hold')
    · rfl

theorem entries_apply (hcontext : p.context = some .recharge) (hstarts : p.startsAt = spec.startsAt) :
    entries (applyMonthlyRechargeSpec spec p) = entries p := by
  simp [entries, applyMonthlyRechargeSpec, hcontext, hstarts]

/-- The specification of a month is applied to what it has been applied to, and to a new promotion. -/
theorem apply_apply (spec : MonthlyRechargePromotionSpec) (p : Promotion) :
    applyMonthlyRechargeSpec spec (applyMonthlyRechargeSpec spec p) =
      applyMonthlyRechargeSpec spec p := rfl

theorem apply_new : applyMonthlyRechargeSpec spec (newMonthlyRechargePromotion spec promotionId) =
    newMonthlyRechargePromotion spec promotionId := rfl

/-- Where the specification of a month has been applied, there is the promotion of the month. -/
theorem startsAt_of_apply (h : applyMonthlyRechargeSpec spec p = p) :
    p.context = some .recharge ∧ p.startsAt = spec.startsAt ∧ p.expiresAt = some spec.expiresAt := by
  rw [← h]
  exact ⟨rfl, rfl, rfl⟩

theorem Unique.eq_of_startsAt (h : Unique d) (hp : p ∈ d.promotions.rows) (hq : q ∈ d.promotions.rows)
    {context : PromotionContext} (hpc : p.context = some context) (hqc : q.context = some context)
    (hstarts : p.startsAt = q.startsAt) : p = q :=
  h (.contextStart context q.startsAt) p hp q hq (contextStart_mem_entries.2 ⟨hpc, hstarts⟩)
    (contextStart_mem_entries.2 ⟨hqc, rfl⟩)

/-- Where the promotion of the month is as it should be, the job changes nothing. -/
theorem Ensured.eq {d' : PromotionsDatabase} (h : Ensured spec promotionId d d') (hd : Unique d)
    (hp : p ∈ d.promotions.rows) (hspec : applyMonthlyRechargeSpec spec p = p) : d' = d := by
  obtain ⟨hcontext, hstarts, -⟩ := startsAt_of_apply hspec
  cases h with
  | created hfree =>
    have := hfree (.contextStart .recharge spec.startsAt) (contextStart_mem_entries.2 ⟨rfl, rfl⟩)
    exact absurd (contextStart_mem_entries.2 ⟨hcontext, hstarts⟩)
      (PromotionsDatabase.hasEntry_eq_false.1 this p hp)
  | applied q hq hqc hqs h =>
    obtain rfl := hd.eq_of_startsAt hp hq hcontext hqc (hstarts.trans hqs.symm)
    rw [h, hspec]
    exact setPromotion_self hp

end

/-! ## Programs -/

section

variable {run : ι → PromotionsRun} {i : ι} {w : PromotionsDatabase → PromotionsDatabase}
  {ks : List PromotionsLock}
  {d d' : PromotionsDatabase} {p q : Promotion} {spec : MonthlyRechargePromotionSpec}
    {promotionId : UUID}

/-- A row that is locked stays. -/
theorem mem_of_interf (hi : (promotionsProtocol run).Interf i ks d d') (hk : .row p.id ∈ ks)
    (hp : p ∈ d.promotions.rows) :
    p ∈ d'.promotions.rows :=
  hi.kept hk (fun d => p ∈ d.promotions.rows) (.row p) hp

/-- Exceptions do not matter. -/
abbrev AnyError : Post PromotionsDatabase PromotionsLock PromotionsError := fun _ _ _ _ => True

/-- The write sets a row that it has found to `q`. -/
def Sets (p q : Promotion) (w : PromotionsDatabase → PromotionsDatabase) : Prop :=
  ∀ d : PromotionsDatabase, p ∈ d.promotions.rows → w d = d.setPromotion q

theorem mergePromotion_of_id (hid : q.id = p.id) : mergePromotion p q p = q := by
  obtain ⟨⟩ := q
  simp only [mergePromotion, changed_self, ← hid]

theorem newEntries_eq_nil (hq : entries q = entries p) : PromotionsDatabase.newEntries p q = [] := by
  simp [PromotionsDatabase.newEntries, hq]

/-- Saving a promotion whose row is locked, with the same entries. -/
theorem wp_savePromotion {Q : Post PromotionsDatabase PromotionsLock Unit} (hid : q.id = p.id)
    (hq : entries q = entries p) (hk : .row p.id ∈ ks) (hp : p ∈ d.promotions.rows)
    (hQ : ∀ u ks' d', (promotionsProtocol run).Interf i ks d d' → ks ⊆ ks' → Sets p q u →
      Q () u ks' d') :
    (promotionsProtocol run).wp i Q AnyError (savePromotion q) id ks d := by
  simp only [savePromotion, PromotionsTx.select, PromotionsTx.exec, Prog.bind_eq, Protocol.wp_bind]
  refine Protocol.wp_query.2 fun d' hi _ => ⟨fun _ => ?_, trivial⟩
  have hp' := mem_of_interf hi hk hp
  rw [id, hid, Table.find_eq_some.2 ⟨hp', rfl⟩]
  dsimp only
  split
  · next heq =>
    subst heq
    exact hQ id _ d' hi (List.Subset.refl _) fun d'' h => (setPromotion_self h).symm
  · refine Protocol.wp_exec.2 fun d'' hi' _ => ⟨fun _ => ?_, trivial, trivial⟩
    have hp'' := mem_of_interf hi' hk hp'
    have hfind : d''.promotions.find q.id = some p := Table.find_eq_some.2 ⟨hp'', hid.symm⟩
    simp only [updateCommand, id, hfind, mergePromotion_of_id hid, newEntries_eq_nil hq,
      List.find?_nil]
    exact hQ _ _ d'' (hi.trans hi') (List.subset_append_right _ _) fun d₃ h => if_pos h

/-- What the job has found or made, before it commits. -/
inductive Loaded (spec : MonthlyRechargePromotionSpec) (promotionId : UUID) (a : Promotion × Bool)
    (w : PromotionsDatabase → PromotionsDatabase) (ks : List PromotionsLock)
    (d : PromotionsDatabase) : Prop
  | created (ha : a.1 = newMonthlyRechargePromotion spec promotionId)
      (hfree : ∀ e ∈ entries a.1, d.hasEntry e = false ∧ .entry e ∈ ks)
      (hw : w = PromotionsDatabase.insertPromotion a.1)
  | applied (p : Promotion) (hp : p ∈ d.promotions.rows) (hk : .row p.id ∈ ks)
    (hcontext : p.context = some .recharge)
      (hstarts : p.startsAt = spec.startsAt) (ha : a.1 = applyMonthlyRechargeSpec spec p)
      (hw : Sets p a.1 w)

/-- What is found by the start of a month is locked. -/
theorem wp_findByStart {Q : Post PromotionsDatabase PromotionsLock (Option Promotion)}
    {context : PromotionContext} {startsAt : Instant}
    (hnone : ∀ d', (promotionsProtocol run).Interf i ks d d' → Q none id ks d')
    (hsome : ∀ p d', (promotionsProtocol run).Interf i ks d d' → p ∈ d'.promotions.rows →
      p.context = some context →
      p.startsAt = startsAt → Q (some p) id (.row p.id :: ks) d') :
    (promotionsProtocol run).wp i Q AnyError
      (findPromotionByBenefitContextStartForUpdate context startsAt) id ks d := by
  refine Protocol.wp_query.2 fun d' hi _ => ⟨fun _ => ?_, trivial⟩
  dsimp only [id]
  generalize hfind : d'.promotions.rows.find? _ = found
  cases found with
  | none => exact hnone d' hi
  | some p =>
    have hmatch : p.context = some context ∧ p.startsAt = startsAt := by
      simpa using List.find?_some hfind
    exact hsome p d' hi (List.mem_of_find?_eq_some hfind) hmatch.1 hmatch.2

/-- Applying the specification of the month to the promotion that is there. -/
theorem wp_applied {created : Bool} (hp : p ∈ d.promotions.rows) (hk : .row p.id ∈ ks)
    (hcontext : p.context = some .recharge) (hstarts : p.startsAt = spec.startsAt) :
    (promotionsProtocol run).wp i (Loaded spec promotionId) AnyError
      ((savePromotion (applyMonthlyRechargeSpec spec p)).bind fun _ =>
        .ret (applyMonthlyRechargeSpec spec p, created)) id ks d := by
  rw [Protocol.wp_bind]
  refine wp_savePromotion (p := p) rfl
    (entries_apply hcontext hstarts) hk hp fun u ks' d' hi hks hu => ?_
  exact .applied p (mem_of_interf hi hk hp) (hks hk) hcontext hstarts rfl hu

/-- A promotion is created, or another session has done so. -/
theorem wp_createOrLoad : (promotionsProtocol run).wp i (Loaded spec promotionId) AnyError
    (createOrLoadMonthlyRechargePromotion spec promotionId) id ks d := by
  simp only [createOrLoadMonthlyRechargePromotion, createPromotion, PromotionsTx.exec,
    Prog.tryCatch_eq, Prog.bind_eq, Protocol.wp_handle, Protocol.wp_bind, Prog.pure_eq]
  refine Protocol.wp_raises (Protocol.wp_insert (X := fun e d => ∀ w ks, _) ?_ ?_ ?_)
  · intro d' hi _ _ hfree
    refine .created rfl (fun e he => ⟨hfree e he, ?_⟩) rfl
    exact List.mem_append_left _ (List.mem_map_of_mem he)
  · -- The transaction is rolled back, and the promotion of the other session is read.
    intro d' d'' hi _ _ hi' e he _ w ks'
    simp only [PromotionsTx.rollback, Protocol.wp_bind]
    refine Protocol.wp_rollbackOr.2 fun d₃ hi₃ _ => ⟨?_, trivial⟩
    rw [Protocol.wp_bind]
    refine wp_findByStart (fun _ _ => trivial) fun p d₄ _ hp hcontext hstarts => ?_
    exact wp_applied hp List.mem_cons_self hcontext hstarts
  · intro d' _ w ks'
    trivial

theorem wp_load : (promotionsProtocol run).wp i (Loaded spec promotionId) AnyError
    (loadMonthlyRechargePromotion spec promotionId) id ks d := by
  simp only [loadMonthlyRechargePromotion, Prog.bind_eq, Protocol.wp_bind]
  refine wp_findByStart (fun _ _ => wp_createOrLoad) fun p d' _ hp hcontext hstarts => ?_
  exact wp_applied hp List.mem_cons_self hcontext hstarts

/-- What has been loaded may be committed. -/
theorem Loaded.ensured {a : Promotion × Bool} (h : Loaded spec promotionId a w ks d)
    (hi : (promotionsProtocol run).Interf i ks d d') (hd' : Unique d') :
    Ensured spec promotionId d' (w d') ∧ Unique (w d') ∧ a.1 ∈ (w d').promotions.rows := by
  cases h with
  | created ha hfree hw =>
    -- The entries are locked, so that they are still free.
    have hfree' : ∀ e ∈ entries a.1, d'.hasEntry e = false := fun e he =>
      hi.kept (hfree e he).2 (fun d => d.hasEntry e = false) (.entry e) (hfree e he).1
    subst hw
    refine ⟨.created (ha ▸ hfree') (ha ▸ rfl), hd'.insertPromotion hfree',
      Table.mem_insert.2 (.inr ⟨rfl, fun hid => ?_⟩)⟩
    obtain ⟨q, hq, hid⟩ := List.mem_map.1 hid
    exact PromotionsDatabase.hasEntry_eq_false.1 (hfree' (.primaryKey a.1.id) List.mem_cons_self) q hq
      (primaryKey_mem_entries.2 hid)
  | applied p hp hk hcontext hstarts ha hw =>
    have hp' := mem_of_interf hi hk hp
    rw [hw d' hp', ha]
    refine ⟨.applied p hp' hcontext hstarts rfl,
      hd'.setPromotion hp' rfl (entries_apply hcontext hstarts), ?_⟩
    exact Table.mem_update.2 (.inr ⟨rfl, (List.mem_map_of_mem hp' : p.id ∈ _)⟩)

theorem Loaded.apply_eq {a : Promotion × Bool} (h : Loaded spec promotionId a w ks d) :
    applyMonthlyRechargeSpec spec a.1 = a.1 := by
  cases h with
  | created ha => rw [ha, apply_new]
  | applied p _ _ _ _ ha => rw [ha, apply_apply]

/-- A run of the job meets the protocol. -/
theorem wp_ensure {targetMonth : Option Date} {clock : Instant}
    (hrun : run i = .ensure targetMonth clock promotionId) :
    (promotionsProtocol run).wp i (fun a _ _ => Holds (run i) a) AnyError (run i).prog id [] d := by
  simp only [hrun, PromotionsRun.prog, ensureMonthlyRechargePromotion, Prog.bind_eq, Protocol.wp_bind]
  rcases hspec : monthlyRechargePromotionSpec targetMonth clock with e | spec
  · trivial
  simp only [PromotionsTx.lift, Protocol.wp_ret, Protocol.wp_bind]
  refine Protocol.wp_mono wp_load (fun a w ks d h => ?_) fun _ _ _ _ _ => trivial
  simp only [PromotionsTx.commit, Protocol.wp_bind]
  refine Protocol.wp_commitOr.2 fun d' hi hd' => ⟨?_, trivial⟩
  obtain ⟨hensured, hunique, hmem⟩ := h.ensured hi hd'
  obtain ⟨-, hstarts, hexpires⟩ := startsAt_of_apply h.apply_eq
  refine ⟨hunique, ?_, spec, _, a.1, hspec, rfl, hmem, rfl, h.apply_eq, hstarts, ?_⟩
  · simp only [promotionsProtocol, hrun]
    exact ⟨spec, hspec, hensured⟩
  · rw [hexpires]
    rfl

/-- What is found for a redemption is locked. -/
def Found (a : Option Promotion) (w : PromotionsDatabase → PromotionsDatabase)
    (ks : List PromotionsLock) (d : PromotionsDatabase) : Prop :=
  w = id ∧ ∀ p, a = some p → p ∈ d.promotions.rows ∧ .row p.id ∈ ks

theorem wp_findForUpdate {promotionId : UUID} : (promotionsProtocol run).wp i Found AnyError
    (findPromotionForUpdate promotionId) id ks d := by
  refine Protocol.wp_query.2 fun d' hi _ => ⟨fun _ => ⟨rfl, fun p hp => ?_⟩, trivial⟩
  dsimp only [id] at hp ⊢
  rw [hp]
  exact ⟨(Table.find_eq_some.1 hp).1, List.mem_cons_self⟩

theorem wp_lockFirst {at' : Instant} {context : PromotionContext} {ids : List UUID} :
    (promotionsProtocol run).wp i Found AnyError (lockFirst at' context ids) id ks d := by
  induction ids generalizing ks d with
  | nil => exact ⟨rfl, fun p hp => by cases hp⟩
  | cons promotionId ids ih =>
    simp only [lockFirst, Prog.bind_eq, Protocol.wp_bind]
    refine Protocol.wp_mono wp_findForUpdate (fun row w ks d h => ?_) fun _ _ _ _ _ => trivial
    obtain ⟨rfl, hrow⟩ := h
    split
    · next p hp =>
      refine ⟨rfl, fun q hq => ?_⟩
      obtain rfl := Option.some.inj hq
      exact hrow p (Option.filter_eq_some_iff.1 hp).1
    · exact ih

theorem wp_findRedeemed {by' : RedeemedBy} {now : Instant} :
    (promotionsProtocol run).wp i Found AnyError (findRedeemed by' now) id ks d := by
  cases by' with
  | id promotionId =>
    simp only [findRedeemed, Prog.bind_eq, Protocol.wp_bind]
    refine Protocol.wp_mono wp_findForUpdate (fun row w ks d h => ?_) fun _ _ _ _ _ => trivial
    cases row with
    | none => trivial
    | some p =>
      dsimp only
      rw [Protocol.wp_bind]
      rcases refuseSignup p with e | -
      · trivial
      · exact h
  | signup =>
    simp only [findRedeemed, findCurrentOcrCreditPromotionForUpdate, Prog.bind_eq, Protocol.wp_bind]
    exact Protocol.wp_query.2 fun d' _ _ => ⟨fun _ => wp_lockFirst, trivial⟩

/-- A redemption meets the protocol. -/
theorem wp_redeem {by' : RedeemedBy} {now : Instant} {lost : Bool}
    (hrun : run i = .redeem by' now lost) :
    (promotionsProtocol run).wp i (fun a _ _ => Holds (run i) a) AnyError (run i).prog id [] d := by
  have hguar {ks' : List PromotionsLock} {d d' : PromotionsDatabase} (h : Counted d d') :
      (promotionsProtocol run).guar i ks' d d' := by
    simp only [promotionsProtocol, hrun]
    exact h
  simp only [hrun, PromotionsRun.prog, redeemPromotion, Prog.bind_eq, Protocol.wp_bind]
  refine Protocol.wp_mono wp_findRedeemed (fun found w ks d h => ?_) fun _ _ _ _ _ => trivial
  obtain ⟨rfl, hfound⟩ := h
  cases found with
  | none => trivial
  | some p =>
    obtain ⟨hp, hk⟩ := hfound p rfl
    simp only [Protocol.wp_bind]
    rcases p.ensureRedeemable now with e | -
    · trivial
    simp only [PromotionsTx.lift, Protocol.wp_ret, Protocol.wp_bind]
    refine Protocol.wp_query.2 fun d₁ hi₁ _ => ⟨fun _ => ?_, trivial⟩
    rw [Protocol.wp_bind]
    refine wp_savePromotion (p := p) rfl rfl hk (mem_of_interf hi₁ hk hp)
      fun u ks' d₂ hi₂ hks hu => ?_
    have hp₂ := mem_of_interf hi₂ hk (mem_of_interf hi₁ hk hp)
    cases lost with
    | false =>
      refine Protocol.wp_commitOr.2 fun d₃ hi₃ hd₃ => ⟨?_, trivial⟩
      have hp₃ := mem_of_interf hi₃ (hks hk) hp₂
      rw [hu d₃ hp₃]
      exact ⟨hd₃.setPromotion hp₃ rfl rfl, hguar (.counted p hp₃ rfl), trivial⟩
    | true =>
      simp only [PromotionsTx.rollback, if_true, Protocol.wp_bind]
      refine Protocol.wp_rollbackOr.2 fun d₃ _ _ => ⟨?_, trivial⟩
      exact Protocol.wp_commitOr.2 fun d₄ _ hd₄ => ⟨⟨hd₄, hguar (.nothing rfl), trivial⟩, trivial⟩

end

/-! ## Runs -/

/-- The windows of a specification do not overlap with those of another one, and the start
    determines it. -/
theorem spec_unique {targetMonth targetMonth' : Option Date} {clock clock' : Instant}
    {spec spec' : MonthlyRechargePromotionSpec}
    (h : monthlyRechargePromotionSpec targetMonth clock = .ok spec)
    (h' : monthlyRechargePromotionSpec targetMonth' clock' = .ok spec') {t : Instant}
    (ht : spec.startsAt ≤ t ∧ t < spec.expiresAt)
    (ht' : spec'.startsAt ≤ t ∧ t < spec'.expiresAt) : spec = spec' := by
  obtain ⟨month, -, hmonth⟩ := of_monthlyRechargePromotionSpec h
  obtain ⟨month', -, hmonth'⟩ := of_monthlyRechargePromotionSpec h'
  by_cases heq : month = month'
  · exact hmonth.eq (heq ▸ hmonth')
  · rcases windows_disjoint hmonth hmonth' heq with hle | hle
    · exact absurd (ht.2.trans_le (hle.trans ht'.1)) (lt_irrefl t)
    · exact absurd (ht'.2.trans_le (hle.trans ht.1)) (lt_irrefl t)

section

variable {run : ι → PromotionsRun} {d : PromotionsDatabase}

/-- The commits of a run keep the promotion of a month as it should be. -/
theorem Ensured.keeps {spec spec' : MonthlyRechargePromotionSpec} {promotionId : UUID}
    {d d' : PromotionsDatabase} (h : Ensured spec' promotionId d d')
    (hspec : spec'.startsAt = spec.startsAt → spec' = spec) {p : Promotion}
    (hp : p ∈ d.promotions.rows) (happly : applyMonthlyRechargeSpec spec p = p) :
    p ∈ d'.promotions.rows := by
  cases h with
  | created _ h => exact h ▸ Table.mem_insert.2 (.inl hp)
  | applied q hq hcontext hstarts h =>
    subst h
    by_cases hid : p.id = q.id
    · obtain rfl := Table.eq_of_key hp hq hid
      -- The other run is for the same month.
      obtain rfl := hspec (hstarts.symm.trans (startsAt_of_apply happly).2.1)
      rw [happly, setPromotion_self hp]
      exact hp
    · exact Table.mem_update.2 (.inl ⟨hp, hid⟩)

theorem Counted.keeps {spec : MonthlyRechargePromotionSpec} {d d' : PromotionsDatabase}
    (h : Counted d d') {p : Promotion} (hp : p ∈ d.promotions.rows)
    (happly : applyMonthlyRechargeSpec spec p = p) :
    ∃ q ∈ d'.promotions.rows, q.id = p.id ∧ applyMonthlyRechargeSpec spec q = q := by
  cases h with
  | nothing h => exact ⟨p, h ▸ hp, rfl, happly⟩
  | counted q hq h =>
    subst h
    by_cases hid : p.id = q.id
    · obtain rfl := Table.eq_of_key hp hq hid
      refine ⟨p.recordRedemption,
        Table.mem_update.2 (.inr ⟨rfl, (List.mem_map_of_mem hp : p.id ∈ _)⟩), rfl, ?_⟩
      rw [← happly]
      rfl
    · exact ⟨p, Table.mem_update.2 (.inl ⟨hp, hid⟩), rfl, happly⟩

/-- There is the promotion of a month with an identity, as it should be. -/
def Current (spec : MonthlyRechargePromotionSpec) (promotionId : UUID)
    (d : PromotionsDatabase) : Prop :=
  ∃ p ∈ d.promotions.rows, p.id = promotionId ∧ applyMonthlyRechargeSpec spec p = p

/-- It stays in every commit. -/
theorem Current.guar {targetMonth : Option Date} {clock : Instant}
    {spec : MonthlyRechargePromotionSpec}
    (hspec : monthlyRechargePromotionSpec targetMonth clock = .ok spec) {promotionId : UUID} {i : ι}
    {ks : List PromotionsLock} {d d' : PromotionsDatabase}
    (hg : (promotionsProtocol run).guar i ks d d')
    (h : Current spec promotionId d) : Current spec promotionId d' := by
  obtain ⟨p, hp, hid, happly⟩ := h
  cases hrun : run i with
  | ensure targetMonth' clock' promotionId' =>
    simp only [promotionsProtocol, hrun] at hg
    obtain ⟨spec', hspec', hensured⟩ := hg
    refine ⟨p, hensured.keeps (fun hstarts => ?_) hp happly, hid, happly⟩
    have hlt := startsAt_lt_expiresAt hspec
    have hlt' := startsAt_lt_expiresAt hspec'
    exact spec_unique hspec' hspec ⟨le_rfl, hlt'⟩ ⟨hstarts.ge, hstarts ▸ hlt⟩
  | redeem =>
    simp only [promotionsProtocol, hrun] at hg
    obtain ⟨q, hq, hqid, hqapply⟩ := hg.keeps hp happly
    exact ⟨q, hq, hqid.trans hid, hqapply⟩

theorem Current.changes {targetMonth : Option Date} {clock : Instant}
    {spec : MonthlyRechargePromotionSpec}
    (hspec : monthlyRechargePromotionSpec targetMonth clock = .ok spec) {promotionId : UUID}
    {d d' : PromotionsDatabase} (h : Current spec promotionId d)
    (hchanges : Relation.ReflTransGen (promotionsProtocol run).Change d d') :
    Current spec promotionId d' := by
  induction hchanges with
  | refl => exact h
  | tail _ hchange ih =>
    obtain ⟨j, ks, -, hg, -⟩ := hchange
    exact ih.guar hspec hg

theorem holds_ensure {targetMonth : Option Date} {clock : Instant} {promotionId : UUID}
    {a : Option EnsureMonthlyRechargePromotionResult} :
    Holds (.ensure targetMonth clock promotionId) a d ↔
      ∃ spec r, monthlyRechargePromotionSpec targetMonth clock = .ok spec ∧ a = some r ∧
      Current spec r.promotionId d ∧
        r.startsAt = spec.startsAt ∧ r.expiresAt = spec.expiresAt := by
  constructor
  · rintro ⟨spec, r, p, hspec, ha, hp, hid, happly, h⟩
    exact ⟨spec, r, hspec, ha, ⟨p, hp, hid, happly⟩, h⟩
  · rintro ⟨spec, r, hspec, ha, ⟨p, hp, hid, happly⟩, h⟩
    exact ⟨spec, r, p, hspec, ha, hp, hid, happly, h⟩

/-- The runs meet the protocol. -/
theorem meets_promotions (hd : Unique d) : (promotionsProtocol run).Meets (fun i => (run i).prog) d
    (fun i a => Holds (run i) a) (fun _ _ _ => True) where
  inv := hd
  wp i := by
    cases hrun : run i with
    | ensure => exact hrun ▸ wp_ensure hrun
    | redeem => exact hrun ▸ wp_redeem hrun
  stable_ret i a d₁ d₂ h hd₁ := by
    obtain ⟨j, ks, -, -, -, -, hg, -⟩ := h
    cases hrun : run i with
    | ensure =>
      rw [hrun] at hd₁
      rw [holds_ensure] at hd₁ ⊢
      obtain ⟨spec, r, hspec, ha, hcurrent, hr⟩ := hd₁
      exact ⟨spec, r, hspec, ha, hcurrent.guar hspec hg, hr⟩
    | redeem => trivial
  stable_raise _ _ _ _ _ _ := trivial

/-- A promotion is as the job makes it for a month, but for its redemptions. -/
def IsMonthly (p : Promotion) : Prop :=
  ∃ targetMonth clock spec, monthlyRechargePromotionSpec targetMonth clock = .ok spec ∧
    applyMonthlyRechargeSpec spec p = p

/-- At most one monthly promotion is current at a time. -/
theorem IsMonthly.eq_of_isCurrent {p q : Promotion} (h : Unique d) (hp : p ∈ d.promotions.rows)
    (hq : q ∈ d.promotions.rows) (hpm : IsMonthly p) (hqm : IsMonthly q) {t : Instant}
    (hpc : SqlAlchemyPromotionRepository.isCurrent t .recharge p = true)
    (hqc : SqlAlchemyPromotionRepository.isCurrent t .recharge q = true) : p = q := by
  obtain ⟨target, clock, spec, hspec, happly⟩ := hpm
  obtain ⟨target', clock', spec', hspec', happly'⟩ := hqm
  obtain ⟨hcontext, hstarts, hexpires⟩ := startsAt_of_apply happly
  obtain ⟨hcontext', hstarts', hexpires'⟩ := startsAt_of_apply happly'
  simp only [SqlAlchemyPromotionRepository.isCurrent, hexpires, hexpires', Option.all_some,
    Bool.and_eq_true, decide_eq_true_eq] at hpc hqc
  obtain rfl :=
    spec_unique hspec hspec' ⟨hstarts ▸ hpc.1.1.2, hpc.1.2⟩ ⟨hstarts' ▸ hqc.1.1.2, hqc.1.2⟩
  exact h.eq_of_startsAt hp hq hcontext hcontext' (hstarts.trans hstarts'.symm)

/-- A run of the job keeps the identities and the counts of all promotions, and makes one at most. -/
def Keeps (promotionId : UUID) (d d' : PromotionsDatabase) : Prop :=
  (∀ p ∈ d.promotions.rows, ∃ q ∈ d'.promotions.rows, q.id = p.id ∧
    q.timesRedeemed = p.timesRedeemed) ∧
    ∀ q ∈ d'.promotions.rows, (∃ p ∈ d.promotions.rows, p.id = q.id) ∨ q.id = promotionId

theorem keeps_refl (promotionId : UUID) (d : PromotionsDatabase) : Keeps promotionId d d :=
  ⟨fun p hp => ⟨p, hp, rfl, rfl⟩, fun q hq => .inl ⟨q, hq, rfl⟩⟩

theorem Ensured.keepsAll {spec : MonthlyRechargePromotionSpec} {promotionId : UUID}
    {d d' : PromotionsDatabase} (h : Ensured spec promotionId d d') : Keeps promotionId d d' := by
  cases h with
  | created _ h =>
    subst h
    refine ⟨fun p hp => ⟨p, Table.mem_insert.2 (.inl hp), rfl, rfl⟩, fun q hq => ?_⟩
    rcases Table.mem_insert.1 hq with hq | ⟨rfl, -⟩
    · exact .inl ⟨q, hq, rfl⟩
    · exact .inr rfl
  | applied r hr _ _ h =>
    subst h
    refine ⟨fun p hp => ?_, fun q hq => ?_⟩
    · by_cases hid : p.id = r.id
      · obtain rfl := Table.eq_of_key hp hr hid
        exact ⟨_, Table.mem_update.2 (.inr ⟨rfl, (List.mem_map_of_mem hp : p.id ∈ _)⟩), rfl, rfl⟩
      · exact ⟨p, Table.mem_update.2 (.inl ⟨hp, hid⟩), rfl, rfl⟩
    · rcases Table.mem_update.1 hq with ⟨hq, -⟩ | ⟨rfl, -⟩
      · exact .inl ⟨q, hq, rfl⟩
      · exact .inl ⟨r, hr, rfl⟩

variable [DecidableEq ι] {s s' s'' : System ι PromotionsDatabase PromotionsStatement PromotionsError
  (Option EnsureMonthlyRechargePromotionResult)}

/-- A step of a run of the job. -/
theorem keeps_step (hd : Unique d) (hs : Reach Always (System.init (fun i => (run i).prog) d) s)
    {m : Move ι} (hst : Step Always s m s') {targetMonth : Option Date} {clock : Instant}
    {promotionId : UUID} (hrun : run m.session = .ensure targetMonth clock promotionId) :
    Keeps promotionId s.store s'.store := by
  rcases ((meets_promotions hd).good hs).change hst with h | ⟨i, rfl, _, hg, _⟩
  · rw [h]
    exact keeps_refl ..
  · have hrun' : run i = .ensure targetMonth clock promotionId := hrun
    simp only [promotionsProtocol, hrun'] at hg
    obtain ⟨spec, -, hensured⟩ := hg
    exact hensured.keepsAll

/-- Specifications for one month. -/
theorem spec_eq_of_month {targetMonth targetMonth' : Option Date} {clock clock' : Instant}
    (h : targetMonthOrCurrent targetMonth' clock' = targetMonthOrCurrent targetMonth clock)
    {spec spec' : MonthlyRechargePromotionSpec}
    (hspec : monthlyRechargePromotionSpec targetMonth clock = .ok spec)
    (hspec' : monthlyRechargePromotionSpec targetMonth' clock' = .ok spec') : spec' = spec := by
  obtain ⟨month, hmonth, hof⟩ := of_monthlyRechargePromotionSpec hspec
  obtain ⟨month', hmonth', hof'⟩ := of_monthlyRechargePromotionSpec hspec'
  obtain rfl := Except.ok.inj (hmonth'.symm.trans (h.trans hmonth))
  exact hof'.eq hof

theorem current_of_returned (hd : Unique d)
    (hs : Reach Always (System.init (fun i => (run i).prog) d) s) {i : ι}
    {targetMonth : Option Date} {clock : Instant} {promotionId : UUID}
    (hrun : run i = .ensure targetMonth clock promotionId)
    {a : Option EnsureMonthlyRechargePromotionResult} (hret : s.returned i = some a) :
    ∃ spec r, monthlyRechargePromotionSpec targetMonth clock = .ok spec ∧ a = some r ∧
      Current spec r.promotionId s.store ∧ r.startsAt = spec.startsAt ∧
      r.expiresAt = spec.expiresAt := by
  have hholds := ((meets_promotions hd).sound hs).2.1 i a hret
  rw [hrun, holds_ensure] at hholds
  exact hholds

/-- Once a run of the job has returned, the runs for the same month change nothing. -/
theorem store_eq_of_returned (hd : Unique d)
    (hs : Reach Always (System.init (fun i => (run i).prog) d) s) {i : ι}
    {targetMonth targetMonth' : Option Date} {clock clock' : Instant}
    {promotionId promotionId' : UUID} (hrun : run i = .ensure targetMonth clock promotionId)
    {a : Option EnsureMonthlyRechargePromotionResult} (hret : s.returned i = some a)
    (hs' : Reach Always s s') {m : Move ι} (hst : Step Always s' m s'')
    (hrun' : run m.session = .ensure targetMonth' clock' promotionId')
    (hmonth : targetMonthOrCurrent targetMonth' clock' = targetMonthOrCurrent targetMonth clock) :
    s''.store = s'.store := by
  obtain ⟨spec, r, hspec, -, hcurrent, -⟩ := current_of_returned hd hs hrun hret
  have hmeets : (promotionsProtocol run).Meets _ d _ _ := meets_promotions hd
  -- The promotion stays as it should be, up to the step.
  have hcurrent' :=
    hcurrent.changes hspec ((hmeets.good hs).changes hmeets.stable_ret hmeets.stable_raise hs')
  rcases (hmeets.good (hs.trans hs')).change hst with h | ⟨j, rfl, hinv, hg, -⟩
  · exact h
  · have hrun'' : run j = .ensure targetMonth' clock' promotionId' := hrun'
    simp only [promotionsProtocol, hrun''] at hg
    obtain ⟨spec', hspec', hensured⟩ := hg
    obtain rfl := spec_eq_of_month hmonth hspec hspec'
    obtain ⟨p, hp, -, happly⟩ := hcurrent'
    exact hensured.eq hinv hp happly

/-- Runs of the job for the same month return the same promotion. -/
theorem result_eq_of_returned (hd : Unique d)
    (hs : Reach Always (System.init (fun i => (run i).prog) d) s) {i j : ι}
    {targetMonth targetMonth' : Option Date} {clock clock' : Instant}
    {promotionId promotionId' : UUID} (hrun : run i = .ensure targetMonth clock promotionId)
    (hrun' : run j = .ensure targetMonth' clock' promotionId')
    (hmonth : targetMonthOrCurrent targetMonth' clock' = targetMonthOrCurrent targetMonth clock)
    {r r' : EnsureMonthlyRechargePromotionResult} (hret : s.returned i = some (some r))
    (hret' : s.returned j = some (some r')) :
    r'.promotionId = r.promotionId ∧ r'.startsAt = r.startsAt ∧ r'.expiresAt = r.expiresAt := by
  obtain ⟨spec, _, hspec, ha, ⟨p, hp, hid, happly⟩, hstarts, hexpires⟩ :=
    current_of_returned hd hs hrun hret
  obtain ⟨spec', _, hspec', ha', ⟨q, hq, hqid, hqapply⟩, hstarts', hexpires'⟩ :=
    current_of_returned hd hs hrun' hret'
  obtain rfl := Option.some.inj ha
  obtain rfl := Option.some.inj ha'
  obtain rfl := spec_eq_of_month hmonth hspec hspec'
  obtain ⟨hcontext, hps, -⟩ := startsAt_of_apply happly
  obtain ⟨hcontext', hqs, -⟩ := startsAt_of_apply hqapply
  have hinv : Unique s.store := ((meets_promotions hd).good hs).inv
  obtain rfl := hinv.eq_of_startsAt hp hq hcontext hcontext' (hps.trans hqs.symm)
  exact ⟨hqid.symm.trans hid, hstarts'.trans hstarts.symm, hexpires'.trans hexpires.symm⟩

/-- The windows of months partition the time. Along every run of the job and of redemptions, in any
    order, there is one promotion for recharging that starts at a time, and one monthly promotion
    that is current; the job keeps the promotions with their identities and counts; and once it has
    returned for a month, it changes nothing for that month, and returns the same promotion
    again. -/
theorem monthly_promotions (hd : Unique d) :
    (∀ t : Instant, InYears t → ∃ spec, monthlyRechargePromotionSpec none t = .ok spec ∧
      spec.startsAt ≤ t ∧ t < spec.expiresAt) ∧
    (∀ targetMonth targetMonth' clock clock' spec spec' month month',
      monthlyRechargePromotionSpec targetMonth clock = .ok spec →
      monthlyRechargePromotionSpec targetMonth' clock' = .ok spec' →
      targetMonthOrCurrent targetMonth clock = .ok month →
      targetMonthOrCurrent targetMonth' clock' = .ok month' →
      (month.nextMonth = .ok month' → spec.expiresAt = spec'.startsAt) ∧
        (month ≠ month' → ∀ t, ¬((spec.startsAt ≤ t ∧ t < spec.expiresAt) ∧
          spec'.startsAt ≤ t ∧ t < spec'.expiresAt))) ∧
    ∀ s : System ι PromotionsDatabase PromotionsStatement PromotionsError
      (Option EnsureMonthlyRechargePromotionResult),
      Reach Always (System.init (fun i => (run i).prog) d) s →
      (∀ p ∈ s.store.promotions.rows, ∀ q ∈ s.store.promotions.rows, p.context = some .recharge →
        q.context = some .recharge → p.startsAt = q.startsAt → p = q) ∧
      (∀ t, ∀ p ∈ s.store.promotions.rows, ∀ q ∈ s.store.promotions.rows, IsMonthly p → IsMonthly q →
        SqlAlchemyPromotionRepository.isCurrent t .recharge p = true →
        SqlAlchemyPromotionRepository.isCurrent t .recharge q = true → p = q) ∧
      (∀ m s' targetMonth clock promotionId, Step Always s m s' →
        run m.session = .ensure targetMonth clock promotionId →
        Keeps promotionId s.store s'.store) ∧
      ∀ i targetMonth clock promotionId, run i = .ensure targetMonth clock promotionId →
        ∀ r, s.returned i = some (some r) → ∀ targetMonth' clock' promotionId',
          targetMonthOrCurrent targetMonth' clock' = targetMonthOrCurrent targetMonth clock →
          (∀ s' m s'', Reach Always s s' → Step Always s' m s'' →
            run m.session = .ensure targetMonth' clock' promotionId' → s''.store = s'.store) ∧
          ∀ j r', run j = .ensure targetMonth' clock' promotionId' → s.returned j = some (some r') →
            r'.promotionId = r.promotionId ∧ r'.startsAt = r.startsAt ∧
            r'.expiresAt = r.expiresAt := by
  refine ⟨fun t ht => exists_window ht, ?_, fun s hs => ⟨?_, ?_, ?_, ?_⟩⟩
  · intro targetMonth targetMonth' clock clock' spec spec' month month' hspec hspec' hmonth hmonth'
    obtain ⟨m, hm, hof⟩ := of_monthlyRechargePromotionSpec hspec
    obtain ⟨m', hm', hof'⟩ := of_monthlyRechargePromotionSpec hspec'
    obtain rfl := Except.ok.inj (hm.symm.trans hmonth)
    obtain rfl := Except.ok.inj (hm'.symm.trans hmonth')
    refine ⟨fun hnext => expiresAt_eq_startsAt hof hof' hnext, fun hne t ⟨ht, ht'⟩ => hne ?_⟩
    -- One of the windows ends before the other starts.
    rcases windows_disjoint hof hof' hne with hle | hle
    · exact absurd (ht.2.trans_le (hle.trans ht'.1)) (lt_irrefl t)
    · exact absurd (ht'.2.trans_le (hle.trans ht.1)) (lt_irrefl t)
  · intro p hp q hq hpc hqc hstarts
    exact Unique.eq_of_startsAt ((meets_promotions hd).good hs).inv hp hq hpc hqc hstarts
  · intro t p hp q hq hpm hqm hpc hqc
    exact IsMonthly.eq_of_isCurrent ((meets_promotions hd).good hs).inv hp hq hpm hqm hpc hqc
  · intro m s' targetMonth clock promotionId hst hrun
    exact keeps_step hd hs hst hrun
  · intro i targetMonth clock promotionId hrun r hret targetMonth' clock' promotionId' hmonth
    refine ⟨fun s' m s'' hs' hst hrun' => ?_, fun j r' hrun' hret' => ?_⟩
    · exact store_eq_of_returned hd hs hrun hret hs' hst hrun' hmonth
    · exact result_eq_of_returned hd hs hrun hrun' hmonth hret hret'

end

/-- Two runs of the job in June 2026, on the empty table. -/
def juneRuns (i : Bool) : PromotionsRun := .ensure none 1781000000000000 (.ofNat (if i then 2 else 1))

theorem returned_of_any {o : Option (Option EnsureMonthlyRechargePromotionResult)} {b : Bool}
    (h : o.any (·.any (·.created == b)) = true) : ∃ r, o = some (some r) ∧ r.created = b := by
  rcases o with - | - | r
  · cases h
  · cases h
  · exact ⟨r, rfl, by simpa using h⟩

/-- The second run finds the promotion that the first one has created. -/
theorem monthly_promotions_june : ∃ s r r',
    Reach Always (System.init (fun i => (juneRuns i).prog) PromotionsDatabase.empty) s ∧
      s.returned false = some (some r) ∧ r.created = true ∧ s.returned true = some (some r') ∧
      r'.created = false ∧
      r'.promotionId = r.promotionId := by
  have hrun : ∃ s,
      Reach Always (System.init (fun i => (juneRuns i).prog) PromotionsDatabase.empty) s ∧
        (s.returned false).any (·.any (·.created == true)) = true ∧
        (s.returned true).any (·.any (·.created == false)) = true :=
    System.exists_reach
      ([.run false, .run true, .run false, .run false] ++ List.replicate 6 (.run true))
      (by decide +kernel)
  obtain ⟨s, hs, hret, hret'⟩ := hrun
  obtain ⟨r, hr, hcreated⟩ := returned_of_any hret
  obtain ⟨r', hr', hcreated'⟩ := returned_of_any hret'
  have hunique : Unique PromotionsDatabase.empty := fun _ p hp => by cases hp
  have hruns := (monthly_promotions hunique).2.2 s hs
  exact ⟨s, r, r', hs, hr, hcreated, hr', hcreated',
    ((hruns.2.2.2 false none _ _ rfl r hr none _ _ rfl).2 true r' rfl hr').1⟩

end Boat.Promotions
