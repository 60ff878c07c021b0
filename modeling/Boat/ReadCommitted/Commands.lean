import Boat.ReadCommitted.Deferred

/-!
# Commands

The statements that programs are written with, and their rules: queries, inserts into tables with
unique indexes, updates and deletes of rows, and the ends of the transaction. The rules are for
postconditions on exceptions that do not depend on what has been written and locked, see also
`Protocol.wp_raises`.
-/

namespace ReadCommitted

variable {ι D K L ε α : Type} [Locking D K]

namespace Command

/-- Insert a row with these entries in unique indexes: it waits for the entries, and is refused if
    there is a row with one of them. -/
def insert {η : Type} (lock : η → K) (hasEntry : D → η → Bool) (refused : η → ε) (entries : List η)
    (w : D → D) (hw : Touches (entries.map lock) w) : Command D ε Unit where
  locks _ := entries.map lock
  run v := match entries.find? (hasEntry v ·) with
    | some e => .error (refused e)
    | none => .ok ((), w)
  touches v a u h := by
    split at h
    · cases h
    · cases h
      exact hw

/-- Update the row that is found, under its lock. -/
def update {ρ : Type} (find : D → Option ρ) (lock : ρ → K) (stale : ε) (w : ρ → D → D)
    (hw : ∀ r, Touches [lock r] (w r)) : Command D ε Unit where
  locks v := ((find v).map lock).toList
  run v := match find v with
    | none => .error stale
    | some r => .ok ((), w r)
  touches v a u h := by
    cases hr : find v with
    | none => simp [hr] at h
    | some r =>
      simp only [hr, Except.ok.injEq, Prod.mk.injEq, true_and] at h
      simpa [h] using hw r

/-- Insert a row with these entries, unless there is a row that it conflicts with: then write to
    that one, and return it. -/
def insertOnConflict {η ρ : Type} (find : D → Option ρ) (rowLocks : ρ → List K) (update : ρ → D → D)
    (hupdate : ∀ r, Touches (rowLocks r) (update r)) (lock : η → K) (hasEntry : D → η → Bool)
    (refused : η → ε) (entries : List η) (w : D → D)
    (hw : Touches (entries.map lock) w) : Command D ε (Option ρ) where
  locks v := match find v with
    | some r => rowLocks r
    | none => entries.map lock
  run v := match find v, entries.find? (hasEntry v ·) with
    | some r, _ => .ok (some r, update r)
    | none, some e => .error (refused e)
    | none, none => .ok (none, w)
  touches v a u h := by
    rcases hfind : find v with - | r
    · simp only [hfind] at h
      split at h
      · next hr => cases hr
      · cases h
      · cases h
        exact hw
    · simp only [hfind, Except.ok.injEq, Prod.mk.injEq] at h
      rw [← h.2]
      exact hupdate r

/-- A command with a parameter that the database does not take. -/
def refuse (e : ε) : Command D ε α where
  locks _ := []
  run _ := .error e
  touches v a u h := by cases h

/-- Write rows under their locks, and return what they were. -/
def modify (f : D → α) (locks : α → List K) (w : α → D → D)
    (hw : ∀ a, Touches (locks a) (w a)) : Command D ε α where
  locks v := locks (f v)
  run v := .ok (f v, w (f v))
  touches v a u h := by
    cases h
    exact hw _

theorem run_insert {η : Type} {lock : η → K} {hasEntry : D → η → Bool} {refused : η → ε}
    {entries : List η} {w : D → D} {hw : Touches (entries.map lock) w} {v : D} {a : Unit} {u : D → D}
    (h : (insert lock hasEntry refused entries w hw).run v = .ok (a, u)) : u = w := by
  simp only [insert] at h
  split at h
  · cases h
  · cases h
    rfl

theorem run_insertOnConflict {η ρ : Type} {find : D → Option ρ} {rowLocks : ρ → List K}
    {update : ρ → D → D} {hupdate : ∀ r, Touches (rowLocks r) (update r)} {lock : η → K}
    {hasEntry : D → η → Bool} {refused : η → ε} {entries : List η} {w : D → D}
    {hw : Touches (entries.map lock) w} {v : D} {a : Option ρ} {u : D → D}
    (h : (insertOnConflict find rowLocks update hupdate lock hasEntry refused entries w hw).run v =
      .ok (a, u)) :
    (∃ r, u = update r) ∨ u = w := by
  rcases hfind : find v with - | r
  · simp only [insertOnConflict, hfind] at h
    split at h
    · next hr => cases hr
    · cases h
    · cases h
      exact .inr rfl
  · simp only [insertOnConflict, hfind, Except.ok.injEq, Prod.mk.injEq] at h
    exact .inl ⟨r, h.2.symm⟩

theorem run_update {ρ : Type} {find : D → Option ρ} {lock : ρ → K} {stale : ε} {w : ρ → D → D}
    {hw : ∀ r, Touches [lock r] (w r)} {v : D} {a : Unit} {u : D → D}
    (h : (update find lock stale w hw).run v = .ok (a, u)) : ∃ r, find v = some r ∧ u = w r := by
  simp only [update] at h
  split at h
  · cases h
  · next r hr =>
    cases h
    exact ⟨r, hr, rfl⟩

end Command

namespace Prog

/-! What the commands write. -/

section Writes

variable {W : (D → D) → Prop} {l : L} {fault : ε}

theorem within_query (hid : W id) {locks : D → List K}
    {f : D → α} : (exec l fault (.query locks f)).Within W :=
  .exec hid fun v a u h => by
    cases h
    exact hid

theorem within_insert (hid : W id) {η : Type} {lock : η → K} {hasEntry : D → η → Bool}
    {refused : η → ε} {entries : List η} {w : D → D} {hw : Touches (entries.map lock) w} (h : W w) :
    (exec l fault (.insert lock hasEntry refused entries w hw)).Within W :=
  .exec hid fun _ _ _ hrun => Command.run_insert hrun ▸ h

theorem within_insertOnConflict (hid : W id) {η ρ : Type} {find : D → Option ρ}
    {rowLocks : ρ → List K} {update : ρ → D → D} {hupdate : ∀ r, Touches (rowLocks r) (update r)}
    {lock : η → K} {hasEntry : D → η → Bool} {refused : η → ε} {entries : List η} {w : D → D}
    {hw : Touches (entries.map lock) w} (hupdates : ∀ r, W (update r)) (h : W w) :
    (exec l fault
      (.insertOnConflict find rowLocks update hupdate lock hasEntry refused entries w
        hw)).Within W := by
  refine .exec hid fun v a u hrun => ?_
  obtain ⟨r, rfl⟩ | rfl := Command.run_insertOnConflict hrun
  · exact hupdates r
  · exact h

theorem within_update (hid : W id) {ρ : Type} {find : D → Option ρ} {lock : ρ → K} {stale : ε}
    {w : ρ → D → D} {hw : ∀ r, Touches [lock r] (w r)}
    (h : ∀ r, W (w r)) : (exec l fault (.update find lock stale w hw)).Within W := by
  refine .exec hid fun v a u hrun => ?_
  obtain ⟨r, -, rfl⟩ := Command.run_update hrun
  exact h r

theorem within_modify (hid : W id) {f : D → α} {locks : α → List K} {w : α → D → D}
    {hw : ∀ a, Touches (locks a) (w a)} (h : ∀ a, W (w a)) :
    (exec l fault (.modify f locks w hw)).Within W :=
  .exec hid fun v a u hrun => by
    cases hrun
    exact h _

end Writes

/-- End the transaction, or raise. -/
def commitOr (fault : ε) : Prog D L ε Unit := .commit fun b => if b then .ret () else .raise fault

theorem commitsLast_commitOr_bind (fault : ε) (a : α) :
    ((commitOr fault : Prog D L ε Unit).bind fun _ => .ret a).CommitsLast :=
  ⟨⟨a, rfl⟩, fault, rfl⟩

theorem writes_commitOr {W : (D → D) → Prop} (fault : ε) :
    (commitOr fault : Prog D L ε Unit).Writes W := by
  rintro (- | -)
  · trivial
  · trivial

/-- Drop the transaction, or raise. -/
def rollbackOr (fault : ε) : Prog D L ε Unit := .rollback fun b => if b then .ret () else .raise fault

end Prog

namespace Protocol

variable {P : Protocol ι D K L} {i : ι} {X : ε → D → Prop} {w : D → D} {ks : List K} {d : D} {l : L}
  {fault : ε}

theorem wp_query {Q : Post D K α} {locks : D → List K} {f : D → α} :
    P.wp i Q (fun e _ _ d => X e d) (Prog.exec l fault (.query locks f)) w ks d ↔
      ∀ d', P.Interf i ks d d' → P.inv d' →
        (P.cond i l d' ks → Q (f (w d')) w (locks (w d') ++ ks) d') ∧ X fault d' := by
  simp only [wp_exec, Command.query_run, and_self]
  rfl

theorem wp_insert {Q : Post D K Unit} {η : Type} {lock : η → K} {hasEntry : D → η → Bool}
    {refused : η → ε} {entries : List η} {u : D → D} {hu : Touches (entries.map lock) u}
    (hQ : ∀ d', P.Interf i ks d d' → P.inv d' → P.cond i l d' ks →
      (∀ e ∈ entries, hasEntry (w d') e = false) →
      Q () (u ∘ w) (entries.map lock ++ ks) d')
    (hrefused : ∀ d' d'', P.Interf i ks d d' → P.inv d' → P.cond i l d' ks → P.Interf i [] d' d'' →
      ∀ e ∈ entries, hasEntry (w d') e = true → X (refused e) d'')
    (hfault : ∀ d', P.Interf i [] d d' → X fault d') :
    P.wp i Q (fun e _ _ d => X e d)
      (Prog.exec l fault (.insert lock hasEntry refused entries u hu)) w ks d := by
  rw [wp_exec]
  refine fun d' hi hinv => ⟨fun hc => ?_, hfault d' hi.nil, hfault d' hi.nil⟩
  simp only [Command.insert]
  rcases hf : entries.find? (hasEntry (w d') ·) with - | e
  · exact hQ d' hi hinv hc fun e he => by simpa using List.find?_eq_none.1 hf e he
  · exact fun d'' hi' _ =>
      hrefused d' d'' hi hinv hc hi'.nil e (List.mem_of_find?_eq_some hf) (List.find?_some hf)

theorem wp_update {Q : Post D K Unit} {ρ : Type} {find : D → Option ρ} {lock : ρ → K} {stale : ε}
    {u : ρ → D → D} {hu : ∀ r, Touches [lock r] (u r)}
    (hQ : ∀ d' r, P.Interf i ks d d' → P.inv d' → P.cond i l d' ks → find (w d') = some r →
      Q () (u r ∘ w) (lock r :: ks) d')
    (hstale : ∀ d', P.Interf i [] d d' → X stale d')
    (hfault : ∀ d', P.Interf i [] d d' → X fault d') :
    P.wp i Q (fun e _ _ d => X e d) (Prog.exec l fault (.update find lock stale u hu)) w ks d := by
  rw [wp_exec]
  refine fun d' hi hinv => ⟨fun hc => ?_, hfault d' hi.nil, hfault d' hi.nil⟩
  simp only [Command.update]
  rcases hf : find (w d') with - | r
  · exact fun d'' hi' _ => hstale d'' (hi.nil.trans hi'.nil)
  · exact hQ d' r hi hinv hc hf

theorem wp_insertOnConflict {η ρ : Type} {Q : Post D K (Option ρ)} {find : D → Option ρ}
    {rowLocks : ρ → List K} {update : ρ → D → D} {hupdate : ∀ r, Touches (rowLocks r) (update r)}
    {lock : η → K} {hasEntry : D → η → Bool} {refused : η → ε} {entries : List η} {u : D → D}
    {hu : Touches (entries.map lock) u}
    (hconflict : ∀ d' r, P.Interf i ks d d' → P.inv d' → P.cond i l d' ks → find (w d') = some r →
      Q (some r) (update r ∘ w) (rowLocks r ++ ks) d')
    (hinsert : ∀ d', P.Interf i ks d d' → P.inv d' → P.cond i l d' ks → find (w d') = none →
      (∀ e ∈ entries, hasEntry (w d') e = false) → Q none (u ∘ w) (entries.map lock ++ ks) d')
    (hrefused : ∀ d', P.Interf i [] d d' → ∀ e ∈ entries, X (refused e) d')
    (hfault : ∀ d', P.Interf i [] d d' → X fault d') :
    P.wp i Q (fun e _ _ d => X e d) (Prog.exec l fault
      (.insertOnConflict find rowLocks update hupdate lock hasEntry refused entries u hu))
        w ks d := by
  rw [wp_exec]
  refine fun d' hi hinv => ⟨fun hc => ?_, hfault d' hi.nil, hfault d' hi.nil⟩
  simp only [Command.insertOnConflict]
  rcases hfind : find (w d') with - | r
  · rcases hf : entries.find? (hasEntry (w d') ·) with - | e
    · exact hinsert d' hi hinv hc hfind fun e he => by simpa using List.find?_eq_none.1 hf e he
    · exact fun d'' hi' _ => hrefused d'' (hi.nil.trans hi'.nil) e (List.mem_of_find?_eq_some hf)
  · exact hconflict d' r hi hinv hc hfind

theorem wp_modify {Q : Post D K α} {f : D → α} {locks : α → List K} {u : α → D → D}
    {hu : ∀ a, Touches (locks a) (u a)} :
    P.wp i Q (fun e _ _ d => X e d) (Prog.exec l fault (.modify f locks u hu)) w ks d ↔
      ∀ d', P.Interf i ks d d' → P.inv d' →
        (P.cond i l d' ks → Q (f (w d')) (u (f (w d')) ∘ w) (locks (f (w d')) ++ ks) d') ∧
        X fault d' := by
  simp only [wp_exec, Command.modify, and_self]

theorem wp_refuse {Q : Post D K α} {e : ε} (he : ∀ d', P.Interf i [] d d' → X e d')
    (hfault : ∀ d', P.Interf i [] d d' → X fault d') :
    P.wp i Q (fun e _ _ d => X e d) (Prog.exec l fault (.refuse e)) w ks d := by
  rw [wp_exec]
  refine fun d' hi _ => ⟨fun _ d'' hi' _ => ?_, hfault d' hi.nil, hfault d' hi.nil⟩
  exact he d'' (hi.nil.trans hi'.nil)

theorem wp_commitOr {Q : Post D K Unit} {E : Post D K ε} :
    P.wp i Q E (Prog.commitOr fault : Prog D L ε Unit) w ks d ↔ ∀ d', P.Interf i ks d d' → P.inv d' →
      (P.inv (w d') ∧ P.guar i ks d' (w d') ∧ Q () id [] (w d')) ∧ E fault id [] d' := .rfl

theorem wp_rollbackOr {Q : Post D K Unit} {E : Post D K ε} :
    P.wp i Q E (Prog.rollbackOr fault : Prog D L ε Unit) w ks d ↔
    ∀ d', P.Interf i ks d d' → P.inv d' →
      Q () id [] d' ∧ E fault id [] d' := by
  simp only [Prog.rollbackOr, wp_rollback, Bool.forall_bool]
  exact forall_congr' fun _ => forall₂_congr fun _ _ => and_comm

end Protocol

end ReadCommitted
