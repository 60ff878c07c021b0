import Boat.Notifications.Consent
import Boat.Notifications.PushCleanup
import Boat.ReadCommitted.Checks
import Boat.ReadCommitted.Moves

/-!
# Notifications: what the cleanup after a push deletes

Sends and registrations of push tokens run in any order. The tokens of a user are read before they
are sent to, without a lock that would hold until the cleanup, and the cleanup finds its rows by
their tokens alone.

* A row changes its token never, and a token has one row (`TokensUnique`): a registration leaves the
  other rows alone (`PushRequest.Adds`).
* `Cleaning`: what is left of a send whose list has been read.
* `cleanup_removes_listed`: the cleanup deletes rows that were in the list and have been there
  since, if no token that the send finds invalid is registered between the list and the delete.
-/

namespace Boat.Notifications

open ReadCommitted Transition SqlAlchemyPushTokenRepository SendNotificationPushCommandUseCase

variable {ι : Type} [DecidableEq ι]

/-! ## The table -/

/-- The unique constraint of `user_push_tokens`. -/
def TokensUnique (d : NotificationsDatabase) : Prop := (d.pushTokens.rows.map (·.token)).Nodup

theorem TokensUnique.eq {d : NotificationsDatabase} (h : TokensUnique d) {r q : UserPushToken}
    (hr : r ∈ d.pushTokens.rows) (hq : q ∈ d.pushTokens.rows) (htoken : r.token = q.token) : r = q :=
  List.inj_on_of_nodup_map h hr hq htoken

/-- Rows are deleted only. -/
def Fewer (w : NotificationsDatabase → NotificationsDatabase) : Prop :=
  ∀ d, (w d).pushTokens.rows.Sublist d.pushTokens.rows

theorem fewer_id : Fewer id := fun _ => .refl _

theorem Fewer.comp {u w : NotificationsDatabase → NotificationsDatabase} (hu : Fewer u)
    (hw : Fewer w) : Fewer (u ∘ w) :=
  fun d => (hu _).trans (hw d)

theorem fewer_deleteRows (rows : List NotificationsRow) :
    Fewer (NotificationsDatabase.deleteRows rows) :=
  fun _ => List.filter_sublist

theorem mem_deleteRows {rows : List NotificationsRow} {d : NotificationsDatabase}
    {r : UserPushToken} :
    r ∈ (NotificationsDatabase.deleteRows rows d).pushTokens.rows ↔ r ∈ d.pushTokens.rows ∧
    .pushToken r.id ∉ rows := by
  rw [NotificationsDatabase.deleteRows, Table.mem_filter, decide_eq_true_eq]

theorem tokensUnique_updatePushToken {id userId : UUID} {platform : DevicePlatform}
    {updatedAt : Instant} {d : NotificationsDatabase} (h : TokensUnique d) :
    TokensUnique (NotificationsDatabase.updatePushToken id userId platform updatedAt d) := by
  have hmap : (NotificationsDatabase.updatePushToken id userId platform updatedAt
      d).pushTokens.rows.map (·.token) =
        d.pushTokens.rows.map (·.token) := by
    rw [NotificationsDatabase.updatePushToken, Table.modify]
    split
    · next r hr =>
      refine Table.map_update fun q hq => ?_
      have hid : r.id = id := (Table.find_eq_some.1 hr).2
      rw [show UserPushToken.id _ = id from hid, hr] at hq
      cases hq
      rfl
    · rfl
  rw [TokensUnique, hmap]
  exact h

theorem tokensUnique_insertPushToken {row : UserPushToken} {d : NotificationsDatabase}
    (h : TokensUnique d) (hfree : ∀ r ∈ d.pushTokens.rows, r.token ≠ row.token) :
    TokensUnique (NotificationsDatabase.insertPushToken row d) := by
  rw [TokensUnique, NotificationsDatabase.insertPushToken, Table.insert]
  split
  · exact h
  · rw [List.map_append, List.nodup_append]
    refine ⟨h, List.nodup_singleton _, fun token htoken token' htoken' heq => ?_⟩
    obtain ⟨r, hr, rfl⟩ := List.mem_map.1 htoken
    obtain rfl := List.mem_singleton.1 htoken'
    exact hfree r hr heq

/-- The token that a request registers. -/
def PushRequest.registered : PushRequest → Option String
  | .register command _ _ => some command.token
  | _ => none

/-- All rows were there before, but for the token that is registered. -/
def PushRequest.Adds (request : PushRequest) (d d' : NotificationsDatabase) : Prop :=
  ∀ r ∈ d'.pushTokens.rows, r ∈ d.pushTokens.rows ∨ request.registered = some r.token

/-! ## Requests -/

/-- Tokens stay unique, and rows are added by registrations. -/
def pushProtocol (requests : ι → PushRequest) :
    Protocol ι NotificationsDatabase NotificationsLock NotificationsStatement where
  inv := TokensUnique
  guar i _ := (requests i).Adds
  cond := Always

section

variable {requests : ι → PushRequest} {i : ι} {d : NotificationsDatabase}

omit [DecidableEq ι] in
theorem wp_fewer {p : NotificationsTx Unit} (hp : p.Writes Fewer) :
    (pushProtocol requests).wp i (fun _ _ _ _ => True) (fun _ _ _ _ => True) p id [] d := by
  refine Protocol.wp_writes hp fewer_id (fun _ _ => .comp)
    (fun w ks d hw hinv => ⟨?_, fun r hr => ?_⟩) fewer_id
  · exact ((hw d).map _).nodup hinv
  · exact .inl ((hw d).subset hr)

theorem writes_select {W : (NotificationsDatabase → NotificationsDatabase) → Prop}
    (hid : W id) {α : Type} {s : NotificationsStatement}
    {f : NotificationsDatabase → α} : (NotificationsTx.select s f).Writes W :=
  .exec hid fun v a u h => by
    cases h
    exact hid

theorem writes_commit {W : (NotificationsDatabase → NotificationsDatabase) → Prop} :
    NotificationsTx.commit.Writes W :=
  Prog.writes_commitOr _

theorem writes_deleteWhere {s : NotificationsStatement}
    {p : UserPushToken → Bool} : (deleteWhere s p).Writes Fewer := by
  refine .bind (writes_select fewer_id) fun ids =>
    .bind (.exec fewer_id fun v a u h => ?_) fun _ => trivial
  cases h
  exact fewer_deleteRows _

theorem writes_deleteByUserId (userId : UUID) : (deleteByUserId userId).Writes Fewer := by
  refine .bind (writes_select fewer_id) fun ids =>
    .bind (.exec fewer_id fun v a u h => ?_) fun _ => trivial
  cases h
  exact fewer_deleteRows _

theorem writes_sendTo (sender : PushSender) (tokens : List UserPushToken) :
    (sendTo sender tokens).Writes Fewer := by
  refine .bind (fun b => ?_) fun _ => ?_
  · cases b with
    | false => trivial
    | true => trivial
  · split
    · trivial
    · split
      · refine .bind ?_ fun _ => writes_commit
        rw [deleteByTokens]
        split
        · trivial
        · exact writes_deleteWhere
      · trivial

theorem writes_execute (sender : PushSender) (command : SendNotificationPushCommand) :
    (SendNotificationPushCommandUseCase.execute sender command).Writes Fewer := by
  refine .handle (.bind (writes_select fewer_id) fun notification => ?_) fun _ => trivial
  split
  · trivial
  · refine .bind (.bind (writes_select fewer_id) fun _ => trivial) fun settings => ?_
    split
    · trivial
    · split
      · trivial
      · refine .bind (.bind (writes_select fewer_id) fun records => ?_) fun tokens => ?_
        · cases records.mapM pushTokenToDomain with
          | error e => trivial
          | ok tokens => trivial
        · split
          · trivial
          · exact writes_sendTo sender tokens

/-- What is written may be committed, as long as the locks are held. -/
def Pending (requests : ι → PushRequest) (i : ι) (w : NotificationsDatabase → NotificationsDatabase)
    (ks : List NotificationsLock) (d : NotificationsDatabase) : Prop :=
  ∀ d', (pushProtocol requests).Interf i ks d d' → TokensUnique d' → TokensUnique (w d') ∧
    (requests i).Adds d' (w d')

omit [DecidableEq ι] in
theorem wp_registerDeviceToken {command : RegisterDeviceTokenCommand} {pushTokenId : UUID}
    {now : Instant} (hi : requests i = .register command pushTokenId now) :
    (pushProtocol requests).wp i (fun _ _ _ _ => True) (fun _ _ _ _ => True)
      (PushRequest.register command pushTokenId now).prog id [] d := by
  have hregistered : (requests i).registered = some command.token := congrArg (·.registered) hi
  rw [PushRequest.prog, RegisterDeviceTokenCommandUseCase.execute]
  cases RegistrationToken.create command.token with
  | error details => trivial
  | ok token =>
    simp only [SqlAlchemyPushTokenRepository.register, Prog.bind_eq, Prog.bind_assoc]
    refine Protocol.wp_bind.2
      (Protocol.wp_mono (Q := fun _ => Pending requests i) (Protocol.wp_insertOnConflict
      (X := fun _ _ => True) (fun d₁ r _ _ _ hr d₂ hi₂ hunique => ?_)
        (fun d₁ _ _ _ hr hfree d₂ hi₂ hunique => ?_)
      (fun _ _ _ _ => trivial) fun _ _ => trivial) (fun _ w ks d₁ hpending => ?_) fun _ _ _ _ h => h)
    · -- The row of the token is locked, and updated.
      have hr₂ : r ∈ d₂.pushTokens.rows :=
        hi₂.kept List.mem_cons_self _ (.pushToken r) (List.mem_of_find?_eq_some hr)
      have htoken : r.token = command.token := by simpa using List.find?_some hr
      refine ⟨tokensUnique_updatePushToken hunique, fun q hq => ?_⟩
      rcases NotificationsDatabase.mem_updatePushToken.1 hq with ⟨hq, -⟩ | ⟨r', hr', hid', rfl⟩
      · exact .inl hq
      · obtain rfl : r' = r := Table.eq_of_key hr' hr₂ hid'
        exact .inr (hregistered.trans (congrArg some htoken.symm))
    · -- The token has no row, its entry is locked, and a row inserted.
      have hfree₂ : d₂.hasEntry (.token command.token) = false :=
        hi₂.kept (by simp [UserPushToken.entries]) _ (.entry _)
          (hfree _ (by simp [UserPushToken.entries]))
      obtain ⟨-, hfree₂, -⟩ := NotificationsDatabase.hasEntry_eq_false.1 hfree₂
      refine ⟨tokensUnique_insertPushToken hunique fun r hr htoken => hfree₂ r hr ?_, fun q hq => ?_⟩
      · rw [UserPushToken.entries, htoken]
        exact List.mem_cons_of_mem _ List.mem_cons_self
      · rcases Table.mem_insert.1 hq with hq | ⟨rfl, -⟩
        · exact .inl hq
        · exact .inr hregistered
    · -- It is read back, and committed.
      refine Protocol.wp_unwritten (.bind (writes_select (W := (· = id)) rfl) fun record =>
        .bind ?_ fun _ => .bind writes_commit fun _ => trivial) (fun _ _ _ r hr => .inl hr) fun _ =>
          hpending
      split
      · trivial
      · trivial

omit [DecidableEq ι] in
/-- All requests meet the protocol. -/
theorem meets_push (hd : TokensUnique d) :
    (pushProtocol requests).Meets (fun i => (requests i).prog) d (fun _ _ _ => True) fun _ _ _ =>
      True where
  inv := hd
  wp i := by
    cases hi : requests i with
    | register command id now => exact wp_registerDeviceToken hi
    | unregister command => exact wp_fewer (.bind writes_deleteWhere fun _ => writes_commit)
    | deleteUserPushTokens userId =>
      exact wp_fewer (.bind (writes_deleteByUserId userId) fun _ => writes_commit)
    | send command sender => exact wp_fewer (writes_execute sender command)
  stable_ret _ _ _ _ _ _ := trivial
  stable_raise _ _ _ _ _ _ := trivial

variable {s s' : System ι NotificationsDatabase NotificationsStatement NotificationsError Unit}
  {m : ReadCommitted.Move ι}

/-- The move commits a registration of the token. -/
def Registers (requests : ι → PushRequest)
    (s : System ι NotificationsDatabase NotificationsStatement NotificationsError Unit)
    (m : ReadCommitted.Move ι) (token : String) : Prop :=
  ∃ j next, m = .run j ∧ (requests j).registered = some token ∧
    (s.session j).prog = some (.commit next)

/-- A step adds a row only by registering its token. -/
theorem mem_of_step (hgood : (pushProtocol requests).Good (fun _ _ _ => True) (fun _ _ _ => True) s)
    (hst : Step Always s m s') {r : UserPushToken} (hr : r ∈ s'.store.pushTokens.rows) :
    r ∈ s.store.pushTokens.rows ∨ Registers requests s m r.token := by
  by_cases hne : s'.store = s.store
  · exact .inl (hne ▸ hr)
  · obtain ⟨j, next, rfl, hcommit⟩ := hst.commits hne
    have hadds : (requests j).Adds s.store s'.store := hgood.commits hcommit hst
    exact (hadds r hr).imp_right fun hregistered => ⟨j, next, rfl, hregistered, hcommit⟩

end

/-! ## The sender -/

theorem mem_of_mapM {α β ε : Type} {f : α → Except ε β} {l : List α} {l' : List β}
    (h : l.mapM f = .ok l') {b : β} (hb : b ∈ l') : ∃ a ∈ l, f a = .ok b := by
  induction l generalizing l' with
  | nil =>
    cases h
    cases hb
  | cons a l ih =>
    rw [List.mapM_cons] at h
    cases ha : f a with
    | error e => simp [ha, bind, Except.bind] at h
    | ok b' =>
      cases hl : l.mapM f with
      | error e => simp [ha, hl, bind, Except.bind] at h
      | ok bs =>
        simp only [ha, hl, bind, Except.bind, pure, Except.pure, Except.ok.injEq] at h
        subst h
        rcases List.mem_cons.1 hb with rfl | hb
        · exact ⟨a, List.mem_cons_self, ha⟩
        · obtain ⟨a', ha', hfa'⟩ := ih hl hb
          exact ⟨a', List.mem_cons_of_mem _ ha', hfa'⟩

/-- The tokens that a sender reports are some of those that it has sent to. -/
theorem mem_of_send {sender : PushSender} {tokens : List UserPushToken} {invalid : List String}
    (h : sender.send tokens = .ok invalid) {token : String}
    (htoken : token ∈ invalid) : ∃ r ∈ tokens, r.token = token := by
  cases sender with
  | disabled =>
    cases h
    cases htoken
  | fcm sendEach =>
    cases hreports : (batched tokens sendBatchLimit).mapM (sendChunk sendEach) with
    | error e => simp [PushSender.send, hreports, Except.map] at h
    | ok reports =>
      simp only [PushSender.send, hreports, Except.map, Except.ok.injEq] at h
      subst h
      obtain ⟨report, hreport, htoken⟩ := List.mem_flatten.1 htoken
      obtain ⟨chunk, hchunk, hsent⟩ := mem_of_mapM hreports hreport
      rw [sendChunk] at hsent
      split at hsent
      · cases hsent
      · next responses _ =>
        rw [invalidTokens] at hsent
        split at hsent
        · cases hsent
          obtain ⟨⟨r, dead⟩, hr, rfl⟩ := List.mem_map.1 htoken
          exact ⟨r, mem_of_mem_batched hchunk (List.of_mem_zip (List.mem_filter.1 hr).1).1, rfl⟩
        · cases hsent

/-- The rows of the list are those of the user. -/
theorem mem_of_mapM_pushTokenToDomain {userId : UUID} {d : NotificationsDatabase}
    {tokens : List UserPushToken} (h : (rowsOf userId d).mapM pushTokenToDomain = .ok tokens)
    {r : UserPushToken} (hr : r ∈ tokens) :
    r ∈ d.pushTokens.rows ∧ r.userId = userId := by
  obtain ⟨r', hr', heq⟩ := mem_of_mapM h hr
  rw [pushTokenToDomain] at heq
  split at heq
  · cases heq
  · cases heq
    rw [rowsOf, List.mem_insertionSort, List.mem_filter, decide_eq_true_eq] at hr'
    exact hr'

/-- The tokens that a send deletes, which reads its list from `d`. -/
def reportedTokens (sender : PushSender) (userId : UUID) (d : NotificationsDatabase) : List String :=
  match (rowsOf userId d).mapM pushTokenToDomain with
  | .error _ => []
  | .ok tokens =>
    match sender.send tokens with
    | .error _ => []
    | .ok invalidTokens => invalidTokens

theorem exists_of_mem_reportedTokens {sender : PushSender} {userId : UUID}
    {d : NotificationsDatabase} {token : String} (h : token ∈ reportedTokens sender userId d) :
    ∃ r ∈ d.pushTokens.rows, r.userId = userId ∧ r.token = token := by
  rw [reportedTokens] at h
  split at h
  · cases h
  · next tokens htokens =>
    split at h
    · cases h
    · next invalidTokens hsend =>
      obtain ⟨r, hr, hrtoken⟩ := mem_of_send hsend h
      obtain ⟨hmem, huser⟩ := mem_of_mapM_pushTokenToDomain htokens hr
      exact ⟨r, hmem, huser, hrtoken⟩

/-! ## The rest of a send -/

/-- The exceptions of a send are logged. -/
def logged (p : NotificationsTx Unit) : NotificationsTx Unit := p.handle fun _ => .ret ()

/-- What is left of a send before its list. -/
inductive BeforeList (sender : PushSender) (command : SendNotificationPushCommand) :
    NotificationsTx Unit → Prop
  | start : BeforeList sender command (SendNotificationPushCommandUseCase.execute sender command)
  | settings : BeforeList sender command (logged (sendIfEnabled sender command))
  | list : BeforeList sender command (logged (sendToDevices sender command.userId))

/-- The session has still to query or to delete. -/
def BeforeDelete
    (x : Session NotificationsDatabase NotificationsStatement NotificationsError Unit) : Prop :=
  match x.prog with
  | some (.stmt ..) | some (.rollback _) => True
  | _ => False

/-- The session has ended. -/
def Over (x : Session NotificationsDatabase NotificationsStatement NotificationsError Unit) : Prop :=
  ∀ p, x.prog = some p → p = .ret ()

/-- What is left of a send after its list: `T` are the tokens that it deletes, and every row of them
    is one of `G`, until the rows are locked. -/
inductive Cleaning (T : List String) (G : UserPushToken → Prop) (d : NotificationsDatabase) :
    Session NotificationsDatabase NotificationsStatement NotificationsError Unit → Prop
  | send {sender tokens}
    (hT : ∀ invalidTokens, sender.send tokens = .ok invalidTokens → invalidTokens = T)
      (hG : ∀ r ∈ d.pushTokens.rows, r.token ∈ T → G r) :
      Cleaning T G d (.idle (some (logged (sendTo sender tokens))))
  | find (hG : ∀ r ∈ d.pushTokens.rows, r.token ∈ T → G r) : Cleaning T G d (.idle (some (logged
      ((deleteWhere (.findInvalidPushTokens T) (·.token ∈ T)).bind fun _ => NotificationsTx.commit))))
  | delete {ids} (hG : ∀ r ∈ d.pushTokens.rows, r.token ∈ T → G r) :
    Cleaning T G d (.idle (some (logged
      ((deleteFound (·.token ∈ T) ids).bind fun _ => NotificationsTx.commit))))
  | commit {rows}
    (hrows : ∀ row ∈ rows, ∃ r ∈ d.pushTokens.rows, row = .pushToken r.id ∧ r.token ∈ T ∧ G r) :
      Cleaning T G d ⟨some (logged NotificationsTx.commit), NotificationsDatabase.deleteRows rows,
        rows.map .row⟩
  | past {x} (h : Over x) : Cleaning T G d x

section

variable {sender : PushSender} {command : SendNotificationPushCommand} {T : List String}
  {G G' : UserPushToken → Prop}
  {d d' : NotificationsDatabase}
    {x y : Session NotificationsDatabase NotificationsStatement NotificationsError Unit}
  {m : ReadCommitted.Move ι} {i : ι}

theorem over_ret (h : x.prog = some (.ret ()) ∨ x.prog = none) : Over x := by
  rintro p hp
  rcases h with h | h
  · exact Option.some.inj (hp.symm.trans h)
  · cases hp.symm.trans h

omit [DecidableEq ι] in
theorem Over.goes (h : Over x) (hgo : x.Goes i d m d' y) : d' = d ∧ Over y := by
  obtain ⟨p, w, ks⟩ := x
  obtain ⟨p, rfl⟩ := Option.isSome_iff_exists.1 hgo.prog_isSome
  obtain rfl := h p rfl
  obtain ⟨hd, hy⟩ := Session.Goes.of_ended (p := .ret ()) trivial hgo
  exact ⟨hd, over_ret hy⟩

omit [DecidableEq ι] in
/-- Before its list, a send changes nothing, and its list is the beginning of a cleanup. -/
theorem BeforeList.goes {p : NotificationsTx Unit} (h : BeforeList sender command p)
    (hgo : (Session.idle (some p)).Goes i d m d' y) : d' = d ∧
    ((∃ q, y = .idle (some q) ∧ BeforeList sender command q) ∨
      Over y ∨ m = .run i ∧ p = logged (sendToDevices sender command.userId) ∧
        ∃ tokens, (rowsOf command.userId d).mapM pushTokenToDomain = .ok tokens ∧
          y = .idle (some (logged (sendTo sender tokens)))) := by
  -- A query that fails ends the program, as every exception of it is logged.
  cases h with
  | start =>
    obtain ⟨rfl, ⟨-, rfl⟩ | hover⟩ := hgo.of_query
    · refine ⟨rfl, ?_⟩
      split
      · exact .inr (.inl (over_ret (.inl rfl)))
      · exact .inl ⟨_, rfl, .settings⟩
    · exact ⟨rfl, .inr (.inl (over_ret hover))⟩
  | settings =>
    rw [logged, sendIfEnabled, Prog.bind_eq, SqlAlchemyNotificationRepository.getSettings,
      Prog.bind_eq, Prog.bind_assoc] at hgo
    obtain ⟨rfl, ⟨-, rfl⟩ | hover⟩ := hgo.of_query
    · refine ⟨rfl, ?_⟩
      simp only [Prog.pure_eq, Prog.ret_bind]
      split
      · exact .inr (.inl (over_ret (.inl rfl)))
      · split
        · exact .inr (.inl (over_ret (.inl rfl)))
        · exact .inl ⟨_, rfl, .list⟩
    · exact ⟨rfl, .inr (.inl (over_ret hover))⟩
  | list =>
    rw [logged, sendToDevices, Prog.bind_eq, SqlAlchemyPushTokenRepository.listByUser, Prog.bind_eq,
      Prog.bind_assoc] at hgo
    obtain ⟨rfl, ⟨rfl, rfl⟩ | hover⟩ := hgo.of_query
    · refine ⟨rfl, .inr ?_⟩
      cases hrecords : (rowsOf command.userId d').mapM pushTokenToDomain with
      | error e =>
        refine .inl (over_ret (.inl ?_))
        simp only [id, hrecords, Prog.ofExcept_error, Prog.raise_bind, Prog.raise_handle]
      | ok tokens =>
        simp only [id, hrecords, Prog.ofExcept_ok, Prog.ret_bind]
        split
        · exact .inl (over_ret (.inl rfl))
        · exact .inr ⟨trivial, trivial, tokens, rfl, rfl⟩
    · exact ⟨rfl, .inr (.inl (over_ret hover))⟩

omit [DecidableEq ι] in
/-- A cleanup goes on as one. -/
theorem Cleaning.goes (h : Cleaning T G d x) (hgo : x.Goes i d m d' y)
    (hG : ∀ r, G r → r ∈ d'.pushTokens.rows → G' r) :
    Cleaning T G' d' y := by
  cases h with
  | send hT hsub =>
    obtain ⟨rfl, rfl | hover⟩ := hgo.of_rollbackOr
    · split
      · exact .past (over_ret (.inl rfl))
      · next invalidTokens hsend =>
        -- The tokens that were reported are those of `T`.
        obtain rfl := hT _ hsend
        split
        · next hne =>
          rw [deleteByTokens, if_neg hne]
          exact .find fun r hr htoken => hG r (hsub r hr htoken) hr
        · exact .past (over_ret (.inl rfl))
    · exact .past (over_ret hover)
  | find hsub =>
    rw [logged, deleteWhere, Prog.bind_eq, Prog.bind_assoc] at hgo
    obtain ⟨rfl, ⟨-, rfl⟩ | hover⟩ := hgo.of_query
    · exact .delete fun r hr htoken => hG r (hsub r hr htoken) hr
    · exact .past (over_ret hover)
  | delete hsub =>
    rw [logged, deleteFound, Prog.bind_eq, Prog.bind_assoc] at hgo
    obtain ⟨rfl, ⟨-, rfl⟩ | hover⟩ := hgo.of_modify
    · rw [List.append_nil, Function.comp_id]
      refine .commit fun row hrow => ?_
      obtain ⟨r, hr, rfl⟩ := List.mem_map.1 hrow
      rw [List.mem_filter, decide_eq_true_eq] at hr
      have htoken : r.token ∈ T := of_decide_eq_true hr.2.2
      exact ⟨r, hr.1, rfl, htoken, hG r (hsub r hr.1 htoken) hr.1⟩
    · exact .past (over_ret hover)
  | commit hrows =>
    obtain ⟨-, -, hy⟩ | ⟨-, hover⟩ := hgo.of_commitOr
    · exact .past (over_ret (.inl hy))
    · exact .past (over_ret hover)
  | past h => exact .past (h.goes hgo).2

/-- A cleanup withstands the steps of other sessions, if they add none of its tokens before its
    delete. -/
theorem Cleaning.other (h : Cleaning T G d x) (hG : ∀ r, G r → r ∈ d'.pushTokens.rows → G' r)
    (hnew : BeforeDelete x → ∀ r ∈ d'.pushTokens.rows, r.token ∈ T → r ∈ d.pushTokens.rows)
    (hkept : ∀ k ∈ x.locks, Kept k d d') : Cleaning T G' d' x := by
  cases h with
  | send hT hsub =>
    exact .send hT fun r hr htoken => hG r (hsub r (hnew trivial r hr htoken) htoken) hr
  | find hsub => exact .find fun r hr htoken => hG r (hsub r (hnew trivial r hr htoken) htoken) hr
  | delete hsub => exact .delete fun r hr htoken => hG r (hsub r (hnew trivial r hr htoken) htoken) hr
  | commit hrows =>
    -- The rows are locked.
    refine .commit fun row hrow => ?_
    obtain ⟨r, hr, rfl, htoken, hGr⟩ := hrows row hrow
    have hr' : r ∈ d'.pushTokens.rows := hkept _ (List.mem_map_of_mem hrow) _ (.pushToken r) hr
    exact ⟨r, hr', rfl, htoken, hG r hGr hr'⟩
  | past h => exact .past h

omit [DecidableEq ι] in
/-- What a cleanup deletes. -/
theorem Cleaning.deletes (h : Cleaning T G d x) (hgo : x.Goes i d m d' y) {r : UserPushToken}
    (hr : r ∈ d.pushTokens.rows) (hr' : r ∉ d'.pushTokens.rows) : r.token ∈ T ∧ G r := by
  cases h with
  | send hT hsub =>
    obtain ⟨rfl, -⟩ := hgo.of_rollbackOr
    exact absurd hr hr'
  | find hsub =>
    rw [logged, deleteWhere, Prog.bind_eq, Prog.bind_assoc] at hgo
    obtain ⟨rfl, -⟩ := hgo.of_query
    exact absurd hr hr'
  | delete hsub =>
    rw [logged, deleteFound, Prog.bind_eq, Prog.bind_assoc] at hgo
    obtain ⟨rfl, -⟩ := hgo.of_modify
    exact absurd hr hr'
  | @commit rows hrows =>
    obtain ⟨-, rfl, -⟩ | ⟨rfl, -⟩ := hgo.of_commitOr
    · have hrow : NotificationsRow.pushToken r.id ∈ rows := by
        by_contra hrow
        exact hr' (mem_deleteRows.2 ⟨hr, hrow⟩)
      obtain ⟨q, hq, hid, htoken, hGq⟩ := hrows _ hrow
      obtain rfl : r = q := Table.eq_of_key hr hq (NotificationsRow.pushToken.inj hid)
      exact ⟨htoken, hGq⟩
    · exact absurd hr hr'
  | past h =>
    obtain ⟨rfl, -⟩ := h.goes hgo
    exact absurd hr hr'

end

/-! ## Runs -/

section

variable (requests : ι → PushRequest) (d : NotificationsDatabase)

/-- The moves lead from the start to a state. -/
abbrev PushRun (ms : List (ReadCommitted.Move ι))
    (s : System ι NotificationsDatabase NotificationsStatement NotificationsError Unit) : Prop :=
  Run (Step Always) (System.init (fun i => (requests i).prog) d) ms s

/-- In the run, the last move is that in which the send `i` reads its list, in the state `s`. -/
structure Lists (i : ι) (userId : UUID) (ms : List (ReadCommitted.Move ι))
    (s : System ι NotificationsDatabase NotificationsStatement NotificationsError Unit) : Prop where
  run : PushRun requests d ms s
  statement : s.statement i = some (.listPushTokens userId)

/-- The row was in the list that the send `i` has read, with a token that it has found invalid, and
    has been there since. -/
structure ListedSince (i : ι) (command : SendNotificationPushCommand) (sender : PushSender)
    (r : UserPushToken)
    (s₁ : System ι NotificationsDatabase NotificationsStatement NotificationsError Unit)
    (ms : List (ReadCommitted.Move ι))
    (s : System ι NotificationsDatabase NotificationsStatement NotificationsError Unit) : Prop where
  listed : r ∈ s₁.store.pushTokens.rows
  owner : r.userId = command.userId
  invalid : r.token ∈ reportedTokens sender command.userId s₁.store
  since : Run (fun s m s' => Step Always s m s' ∧ r ∈ s'.store.pushTokens.rows) s₁ (.run i :: ms) s

/-- No token that the send `i` finds invalid is registered between its list and its delete. -/
def Undisturbed (i : ι) (command : SendNotificationPushCommand) (sender : PushSender)
    (ms : List (ReadCommitted.Move ι)) : Prop :=
  ∀ ms₁ ms₂ s₁, ms = ms₁ ++ .run i :: ms₂ → Lists requests d i command.userId ms₁ s₁ →
    ∀ a m b s₂, ms₂ = a ++ m :: b → Run (Step Always) s₁ (.run i :: a) s₂ →
      BeforeDelete (s₂.session i) →
      ∀ token ∈ reportedTokens sender command.userId s₁.store, ¬Registers requests s₂ m token

end

variable {requests : ι → PushRequest} {d : NotificationsDatabase} {i : ι}
  {command : SendNotificationPushCommand}
  {sender : PushSender}
    {s s' : System ι NotificationsDatabase NotificationsStatement NotificationsError Unit}
  {m : ReadCommitted.Move ι} {ms : List (ReadCommitted.Move ι)}

theorem Undisturbed.of_append (h : Undisturbed requests d i command sender (ms ++ [m])) :
    Undisturbed requests d i command sender ms := by
  rintro ms₁ ms₂ s₁ rfl hlists a m' b s₂ rfl
  exact h ms₁ (a ++ m' :: b ++ [m]) s₁ (by simp) hlists a m' (b ++ [m]) s₂ (by simp)

/-- A send is before its list, or over, or it has read its list, and cleans up after it. -/
def Progress (requests : ι → PushRequest) (d : NotificationsDatabase) (i : ι)
    (command : SendNotificationPushCommand) (sender : PushSender) (ms : List (ReadCommitted.Move ι))
    (s : System ι NotificationsDatabase NotificationsStatement NotificationsError Unit) : Prop :=
  (∃ p, s.session i = .idle (some p) ∧ BeforeList sender command p) ∨ Over (s.session i) ∨
    ∃ ms₁ ms₂ s₁, ms = ms₁ ++ .run i :: ms₂ ∧ Lists requests d i command.userId ms₁ s₁ ∧
      Run (Step Always) s₁ (.run i :: ms₂) s ∧
        Cleaning (reportedTokens sender command.userId s₁.store)
        (fun r => ListedSince i command sender r s₁ ms₂ s) s.store (s.session i)

/-- What every step keeps of it. -/
theorem Progress.step (h : Progress requests d i command sender ms s) (hrun : PushRun requests d ms s)
    (hgood : (pushProtocol requests).Good (fun _ _ _ => True) (fun _ _ _ => True) s)
    (hquiet : Undisturbed requests d i command sender (ms ++ [m])) (hst : Step Always s m s') :
    Progress requests d i command sender (ms ++ [m]) s' := by
  have hsince {ms₂ s₁ r} (h : ListedSince i command sender r s₁ ms₂ s)
      (hr : r ∈ s'.store.pushTokens.rows) :
        ListedSince i command sender r s₁ (ms₂ ++ [m]) s' :=
        ⟨h.listed, h.owner, h.invalid, h.since.step ⟨hst, hr⟩⟩
  by_cases hm : m.session = i
  · have hgo : (s.session i).Goes i s.store m s'.store (s'.session i) := hm ▸ hst.goes
    rcases h with ⟨p, hp, hbefore⟩ | hover | ⟨ms₁, ms₂, s₁, rfl, hlists, hrun', hcleaning⟩
    · rw [hp] at hgo
      obtain ⟨hstore, hnext | hover | ⟨rfl, rfl, tokens, htokens, hsession⟩⟩ := hbefore.goes hgo
      · exact .inl hnext
      · exact .inr (.inl hover)
      · -- The list is read.
        refine .inr (.inr ⟨ms, [], s, rfl, ⟨hrun, ?_⟩, .single hst, ?_⟩)
        · rw [System.statement, hp]
          rfl
        · rw [hsession, hstore]
          refine .send (fun invalidTokens hsend => ?_) fun r hr htoken => ?_
          · rw [reportedTokens, htokens]
            simp only [hsend]
          · obtain ⟨q, hq, howner, heq⟩ := exists_of_mem_reportedTokens htoken
            obtain rfl : r = q := hgood.inv.eq hr hq heq.symm
            exact ⟨hr, howner, htoken, .single ⟨hst, hstore ▸ hr⟩⟩
    · exact .inr (.inl (hover.goes hgo).2)
    · refine .inr
        (.inr ⟨ms₁, ms₂ ++ [m], s₁, by simp, hlists, hrun'.step hst,
          hcleaning.goes hgo fun r => hsince⟩)
  · have hsession : s'.session i = s.session i := hst.session_of_ne (Ne.symm hm)
    rw [Progress, hsession]
    rcases h with hbefore | hover | ⟨ms₁, ms₂, s₁, rfl, hlists, hrun', hcleaning⟩
    · exact .inl hbefore
    · exact .inr (.inl hover)
    · refine .inr (.inr ⟨ms₁, ms₂ ++ [m], s₁, by simp, hlists, hrun'.step hst,
        hcleaning.other (fun r => hsince) (fun hdelete r hr htoken => ?_) fun k hk =>
          hgood.kept_of_ne hst (Ne.symm hm) hk⟩)
      refine (mem_of_step hgood hst hr).resolve_right ?_
      exact hquiet ms₁ (ms₂ ++ [m]) s₁ (by simp) hlists ms₂ m [] s rfl hrun' hdelete r.token htoken

theorem progress (hd : TokensUnique d) (hi : requests i = .send command sender)
    (h : PushRun requests d ms s) (hquiet : Undisturbed requests d i command sender ms) :
    Progress requests d i command sender ms s := by
  induction h with
  | refl =>
    refine .inl ⟨_, rfl, ?_⟩
    show BeforeList sender command (requests i).prog
    rw [hi]
    exact .start
  | step hrun hst ih =>
    exact (ih hquiet.of_append).step hrun ((meets_push hd).good (.of_run hrun)) hquiet hst

/-- A cleanup deletes rows that were in its list, and have been there since. -/
theorem cleanup_removes_listed (hd : TokensUnique d) (hi : requests i = .send command sender)
    (h : PushRun requests d ms s) (hquiet : Undisturbed requests d i command sender ms)
    (hst : Step Always s (.run i) s') {r : UserPushToken} (hr : r ∈ s.store.pushTokens.rows)
    (hr' : r ∉ s'.store.pushTokens.rows) :
    ∃ ms₁ ms₂ s₁, ms = ms₁ ++ .run i :: ms₂ ∧ Lists requests d i command.userId ms₁ s₁ ∧
      ListedSince i command sender r s₁ ms₂ s := by
  have hgo : (s.session i).Goes i s.store (.run i) s'.store (s'.session i) := hst.goes
  rcases progress hd hi h hquiet with ⟨p, hp, hbefore⟩ | hover
    | ⟨ms₁, ms₂, s₁, hms, hlists, -, hcleaning⟩
  · rw [hp] at hgo
    obtain ⟨hstore, -⟩ := hbefore.goes hgo
    exact absurd (hstore ▸ hr) hr'
  · exact absurd ((hover.goes hgo).1 ▸ hr) hr'
  · exact ⟨ms₁, ms₂, s₁, hms, hlists, (hcleaning.deletes hgo hr hr').2⟩

/-- The phone of user 1, to whom the offer is sent. -/
def phone : UserPushToken := ⟨.ofNat 3, .ofNat 1, "phone", .ios, 0, 0⟩

/-- The offer, and the phone that it is sent to. -/
def phones : NotificationsDatabase := NotificationsDatabase.insertPushToken phone offers

/-- All registrations are dead. -/
def deadPhones : PushSender := .fcm fun chunk => some (chunk.map fun _ => true)

/-- The offer is sent to user 1, and user 2 registers the phone. -/
def phoneRequests : Bool → PushRequest
  | false => .send ⟨.ofNat 1, .ofNat 2, .marketing⟩ deadPhones
  | true => .register ⟨.ofNat 2, "phone", .ios⟩ (.ofNat 4) 1

/-- The push tokens before and after the last move of a run. -/
def tokensAround (requests : Bool → PushRequest) (d : NotificationsDatabase)
    (ms : List (ReadCommitted.Move Bool)) (m : ReadCommitted.Move Bool) :
    Option (List UserPushToken × List UserPushToken) :=
  ((System.init (fun i => (requests i).prog) d).exec Always ms).bind fun s =>
    (s.move Always m).map fun s' => (s.store.pushTokens.rows, s'.store.pushTokens.rows)

theorem exists_of_tokensAround (requests : Bool → PushRequest) (d : NotificationsDatabase)
    (ms : List (ReadCommitted.Move Bool)) (m : ReadCommitted.Move Bool)
    (rows rows' : List UserPushToken) (h : tokensAround requests d ms m = some (rows, rows')) :
    ∃ s s', PushRun requests d ms s ∧ Step Always s m s' ∧ s.store.pushTokens.rows = rows ∧
      s'.store.pushTokens.rows = rows' := by
  obtain ⟨s, hs, h⟩ := Option.bind_eq_some_iff.1 h
  obtain ⟨s', hs', h⟩ := Option.map_eq_some_iff.1 h
  cases h
  exact ⟨s, s', System.run_of_exec hs, System.step_of_move hs', rfl, rfl⟩

theorem tokensUnique_phones : TokensUnique phones := by
  show (phones.pushTokens.rows.map (·.token)).Nodup
  decide +kernel

/-- The phone is sent to, and deleted. -/
theorem cleanup_removes_listed_phone : ∃ ms s s' r, PushRun phoneRequests phones ms s ∧
    Step Always s (.run false) s' ∧
    r ∈ s.store.pushTokens.rows ∧ r ∉ s'.store.pushTokens.rows ∧
    ∃ ms₁ ms₂ s₁, ms = ms₁ ++ .run false :: ms₂ ∧
      Lists phoneRequests phones false (.ofNat 1) ms₁ s₁ ∧
        ListedSince false ⟨.ofNat 1, .ofNat 2, .marketing⟩ deadPhones r s₁ ms₂ s := by
  have hquiet : Undisturbed phoneRequests phones false ⟨.ofNat 1, .ofNat 2, .marketing⟩ deadPhones
      (List.replicate 6 (.run false)) := by
    rintro ms₁ ms₂ s₁ hms - a m b s₂ rfl - - token - ⟨j, next, rfl, hregistered, -⟩
    have hmem : ReadCommitted.Move.run j ∈ List.replicate 6 (ReadCommitted.Move.run false) :=
      hms ▸ by simp
    cases List.eq_of_mem_replicate hmem
    cases hregistered
  obtain ⟨s, s', hrun, hst, hrows, hrows'⟩ := exists_of_tokensAround phoneRequests phones
    (List.replicate 6 (.run false)) (.run false) [phone] [] (by decide +kernel)
  have hr : phone ∈ s.store.pushTokens.rows := hrows ▸ List.mem_singleton_self _
  have hr' : phone ∉ s'.store.pushTokens.rows := hrows' ▸ List.not_mem_nil
  exact ⟨_, s, s', phone, hrun, hst, hr, hr', cleanup_removes_listed tokensUnique_phones
    (show phoneRequests false = .send ⟨.ofNat 1, .ofNat 2, .marketing⟩ deadPhones from rfl) hrun
      hquiet hst hr hr'⟩

/-- Between the list and the delete, user 2 registers the phone, and the cleanup deletes what is
    registered. -/
theorem cleanup_removes_registered : TokensUnique phones ∧
    ∃ ms s s' r, PushRun phoneRequests phones ms s ∧
    Step Always s (.run false) s' ∧ r ∈ s.store.pushTokens.rows ∧ r ∉ s'.store.pushTokens.rows ∧
      ¬∃ ms₁ ms₂ s₁, ms = ms₁ ++ .run false :: ms₂ ∧
      Lists phoneRequests phones false (.ofNat 1) ms₁ s₁ ∧
        ListedSince false ⟨.ofNat 1, .ofNat 2, .marketing⟩ deadPhones r s₁ ms₂ s := by
  obtain ⟨s, s', hrun, hst, hrows, hrows'⟩ := exists_of_tokensAround phoneRequests phones
    (List.replicate 3 (.run false) ++ List.replicate 3 (.run true) ++ List.replicate 3 (.run false))
      (.run false)
    [⟨.ofNat 3, .ofNat 2, "phone", .ios, 0, 1⟩] [] (by decide +kernel)
  refine ⟨tokensUnique_phones, _, s, s', _, hrun, hst, hrows ▸ List.mem_singleton_self _,
    hrows' ▸ List.not_mem_nil, ?_⟩
  rintro ⟨ms₁, ms₂, s₁, -, -, hlisted⟩
  exact absurd hlisted.owner (by decide)

end Boat.Notifications
