import Boat.Auth.UseCases

/-!
# Auth: sessions

What the requests of the auth module do to sessions and refresh tokens, as a protocol of their own
(`sessions`). A commit opens a session with its first token, puts a token in the place of another
one (`SessionEffect`), or only updates and deletes rows (`Shrinks`). Neither sessions nor tokens are
issued twice (`Distinct`).

* `Proper`: a token that has been replaced is never current again, and a session owns at most one
  token;
* `wp_login`, `wp_refresh`, `wp_logout`, `wp_deleteAccountAuthState`: what the programs do;
* `Dead`: a session that has been revoked, or whose account has been withdrawn, stays so.
-/

namespace Boat.Auth

open ReadCommitted

/-! ## Changes -/

/-- Nothing new: rows are updated or deleted, and what is revoked stays so. -/
structure Shrinks (d d' : AuthDatabase) : Prop where
  credentials : ∀ r' ∈ d'.userCredentials.rows, ∃ r ∈ d.userCredentials.rows, r.id = r'.id ∧
    r.userId = r'.userId
  sessions : ∀ r' ∈ d'.authSessions.rows, ∃ r ∈ d.authSessions.rows, r.id = r'.id ∧
    (r.revokedAt ≠ none → r'.revokedAt ≠ none)
  refreshTokens : d'.refreshTokens.rows.Sublist d.refreshTokens.rows
  sessionHistory : d'.sessionHistory = d.sessionHistory
  tokenHistory : d'.tokenHistory = d.tokenHistory

/-- A write after which there is nothing new. -/
def Shrinking (w : AuthDatabase → AuthDatabase) : Prop := ∀ d, Shrinks d (w d)

theorem Shrinks.refl (d : AuthDatabase) : Shrinks d d where
  credentials r hr := ⟨r, hr, rfl, rfl⟩
  sessions r hr := ⟨r, hr, rfl, id⟩
  refreshTokens := List.Sublist.refl _
  sessionHistory := rfl
  tokenHistory := rfl

theorem Shrinks.trans {d d' d'' : AuthDatabase} (h : Shrinks d d')
    (h' : Shrinks d' d'') : Shrinks d d'' where
  credentials r hr := by
    obtain ⟨r', hr', hid, huser⟩ := h'.credentials r hr
    obtain ⟨r'', hr'', hid', huser'⟩ := h.credentials r' hr'
    exact ⟨r'', hr'', hid'.trans hid, huser'.trans huser⟩
  sessions r hr := by
    obtain ⟨r', hr', hid, hrevoked⟩ := h'.sessions r hr
    obtain ⟨r'', hr'', hid', hrevoked'⟩ := h.sessions r' hr'
    exact ⟨r'', hr'', hid'.trans hid, fun hr => hrevoked (hrevoked' hr)⟩
  refreshTokens := h'.refreshTokens.trans h.refreshTokens
  sessionHistory := h'.sessionHistory.trans h.sessionHistory
  tokenHistory := h'.tokenHistory.trans h.tokenHistory

theorem shrinking_id : Shrinking id := Shrinks.refl

theorem Shrinking.comp {u w : AuthDatabase → AuthDatabase} (hu : Shrinking u)
    (hw : Shrinking w) : Shrinking (u ∘ w) :=
  fun d => (hw d).trans (hu (w d))

theorem shrinking_updateCredential (id : UUID) (loggedInAt : Instant) :
    Shrinking (AuthDatabase.updateCredential id loggedInAt) := fun d =>
  { Shrinks.refl d with
    credentials := by
      intro r hr
      rcases AuthDatabase.mem_updateCredential.1 hr with ⟨hr, -⟩ | ⟨q, hq, -, rfl⟩
      · exact ⟨r, hr, rfl, rfl⟩
      · exact ⟨q, hq, rfl, rfl⟩ }

theorem shrinking_revokeSession (id : UUID) (revokedAt : Instant) :
    Shrinking (AuthDatabase.revokeSession id revokedAt) := fun d =>
  { Shrinks.refl d with
    sessions := by
      intro r hr
      rcases AuthDatabase.mem_revokeSession.1 hr with ⟨hr, -⟩ | ⟨q, hq, -, rfl⟩
      · exact ⟨r, hr, rfl, fun h => h⟩
      · exact ⟨q, hq, rfl, fun _ => Option.some_ne_none revokedAt⟩ }

theorem shrinking_insertIdentity (r : ExternalIdentityRecord) :
    Shrinking (AuthDatabase.insertIdentity r) :=
  fun d => { Shrinks.refl d with }

theorem shrinking_insertOutbox (events : List (Stamped AuthEvent)) :
    Shrinking (AuthDatabase.insertOutbox events) :=
  fun d => { Shrinks.refl d with }

theorem shrinking_deleteRows (rows : List AuthRow) : Shrinking (AuthDatabase.deleteRows rows) :=
  fun _ =>
  { credentials := fun r hr => ⟨r, (Table.mem_filter.1 hr).1, rfl, rfl⟩
    sessions := fun r hr => ⟨r, (Table.mem_filter.1 hr).1, rfl, fun h => h⟩
    refreshTokens := List.filter_sublist
    sessionHistory := rfl
    tokenHistory := rfl }

/-- What a request does to sessions and tokens: it opens a session with a token, replaces a token by
    another one, only updates and deletes rows, or commits nothing. -/
inductive SessionEffect
  | opens (sessionId : UUID) (tokenHash : String)
  | rotates (replaced tokenHash : String)
  | shrinks
  | none

namespace SessionEffect

/-- The session that is opened. -/
def opened : SessionEffect → Option UUID
  | opens sessionId _ => some sessionId
  | _ => .none

/-- The token that is issued. -/
def issued : SessionEffect → Option String
  | opens _ tokenHash | rotates _ tokenHash => some tokenHash
  | _ => .none

end SessionEffect

/-- Neither the session nor the token have been there before. -/
structure Unused (e : SessionEffect) (d : AuthDatabase) : Prop where
  session : ∀ sessionId ∈ e.opened, sessionId ∉ d.sessionHistory
  token : ∀ tokenHash ∈ e.issued, tokenHash ∉ d.tokenHistory.map (·.2)

/-- The commits of a request. -/
inductive SessionEffect.Change : SessionEffect → AuthDatabase → AuthDatabase → Prop
  | opens {s r tokenHash d d₀} : Unused (.opens s.id tokenHash) d → Shrinks d d₀ →
  r.sessionId = some s.id →
      r.tokenHash = tokenHash →
      Change (.opens s.id tokenHash) d
        (AuthDatabase.insertRefreshToken .none r (AuthDatabase.insertSession s d₀))
  | rotates {old r tokenHash d d₀} : Unused (.rotates old.tokenHash tokenHash) d → Shrinks d d₀ →
      old ∈ d.refreshTokens.rows → old ∉ d₀.refreshTokens.rows → r.sessionId = old.sessionId →
      r.tokenHash = tokenHash →
      Change (.rotates old.tokenHash tokenHash) d
        (AuthDatabase.insertRefreshToken (some old.tokenHash) r d₀)
  | shrinks {d d'} : Shrinks d d' → Change .shrinks d d'

variable {e : SessionEffect} {d d' : AuthDatabase}

theorem SessionEffect.Change.sessionHistory (h : e.Change d d') :
    d'.sessionHistory = e.opened.toList ++ d.sessionHistory := by
  rcases h with ⟨-, h, -, -⟩ | ⟨-, h, -, -, -, -⟩ | ⟨h⟩
  · exact congrArg (_ :: ·) h.sessionHistory
  · exact h.sessionHistory
  · exact h.sessionHistory

theorem SessionEffect.Change.tokenHistory (h : e.Change d d') :
    d'.tokenHistory.map (·.2) = e.issued.toList ++ d.tokenHistory.map (·.2) := by
  rcases h with ⟨-, h, -, rfl⟩ | ⟨-, h, -, -, -, rfl⟩ | ⟨h⟩
  · exact congrArg (_ :: List.map _ ·) h.tokenHistory
  · exact congrArg (_ :: List.map _ ·) h.tokenHistory
  · exact congrArg (List.map _) h.tokenHistory

theorem SessionEffect.Change.tokenHistory_subset (h : e.Change d d') :
    d.tokenHistory ⊆ d'.tokenHistory := by
  rcases h with ⟨-, h, -, -⟩ | ⟨-, h, -, -, -, -⟩ | ⟨h⟩
  · exact h.tokenHistory ▸ List.subset_cons_self ..
  · exact h.tokenHistory ▸ List.subset_cons_self ..
  · exact h.tokenHistory ▸ List.Subset.refl _

/-! ## The invariant -/

/-- Tokens and sessions are accounted for in the histories; a replaced token is not current, and no
    session owns two tokens. -/
structure Proper (d : AuthDatabase) : Prop where
  replaced_nodup : (d.tokenHistory.filterMap (·.1)).Nodup
  replaced_issued : ∀ tokenHash ∈ d.tokenHistory.filterMap (·.1), tokenHash ∈ d.tokenHistory.map (·.2)
  current : ∀ r ∈ d.refreshTokens.rows, r.tokenHash ∉ d.tokenHistory.filterMap (·.1)
  issued : ∀ r ∈ d.refreshTokens.rows, r.tokenHash ∈ d.tokenHistory.map (·.2)
  hashes_nodup : (d.refreshTokens.rows.map (·.tokenHash)).Nodup
  owners_nodup : (d.refreshTokens.rows.filterMap (·.sessionId)).Nodup
  owned : ∀ r ∈ d.refreshTokens.rows, ∀ sessionId ∈ r.sessionId, sessionId ∈ d.sessionHistory
  opened : ∀ r ∈ d.authSessions.rows, r.id ∈ d.sessionHistory

theorem Proper.shrinks (hd : Proper d) (h : Shrinks d d') : Proper d' where
  replaced_nodup := h.tokenHistory ▸ hd.replaced_nodup
  replaced_issued := h.tokenHistory ▸ hd.replaced_issued
  current r hr := h.tokenHistory ▸ hd.current r (h.refreshTokens.subset hr)
  issued r hr := h.tokenHistory ▸ hd.issued r (h.refreshTokens.subset hr)
  hashes_nodup := (h.refreshTokens.map _).nodup hd.hashes_nodup
  owners_nodup := (h.refreshTokens.filterMap _).nodup hd.owners_nodup
  owned r hr := h.sessionHistory ▸ hd.owned r (h.refreshTokens.subset hr)
  opened r hr := by
    obtain ⟨r', hr', hid, -⟩ := h.sessions r hr
    rw [h.sessionHistory, ← hid]
    exact hd.opened r' hr'

/-- Inserting a token that has never been issued, for a session that has none. -/
theorem Proper.insertRefreshToken (hd : Proper d) {replaced : Option String} {r : RefreshToken}
    (hunused : r.tokenHash ∉ d.tokenHistory.map (·.2))
    (hreplaced : ∀ tokenHash ∈ replaced, tokenHash ∈ d.tokenHistory.map (·.2) ∧
      tokenHash ∉ d.tokenHistory.filterMap (·.1) ∧
      ∀ q ∈ d.refreshTokens.rows, q.tokenHash ≠ tokenHash)
    (hsession : ∀ sessionId ∈ r.sessionId, sessionId ∈ d.sessionHistory ∧
      ∀ q ∈ d.refreshTokens.rows, q.sessionId ≠ some sessionId) :
    Proper (AuthDatabase.insertRefreshToken replaced r d) := by
  have hnew : r.tokenHash ∉ replaced.toList ++ d.tokenHistory.filterMap (·.1) := by
    rw [List.mem_append]
    rintro (h | h)
    · exact hunused (hreplaced _ (Option.mem_toList.1 h)).1
    · exact hunused (hd.replaced_issued _ h)
  have hhistory : (AuthDatabase.insertRefreshToken replaced r d).tokenHistory.filterMap (·.1) =
      replaced.toList ++ d.tokenHistory.filterMap (·.1) := by
    rcases replaced with - | h
    · rfl
    · rfl
  have hrows : (AuthDatabase.insertRefreshToken replaced r d).refreshTokens.rows =
      d.refreshTokens.rows ∨
        (AuthDatabase.insertRefreshToken replaced r d).refreshTokens.rows =
          d.refreshTokens.rows ++ [r] := by
    simp only [AuthDatabase.insertRefreshToken, Table.insert]
    split
    · exact .inl rfl
    · exact .inr rfl
  have hmem : ∀ q ∈ (AuthDatabase.insertRefreshToken replaced r d).refreshTokens.rows,
      q ∈ d.refreshTokens.rows ∨ q = r := by
    intro q hq
    rcases hrows with h | h
    · exact .inl (h ▸ hq)
    · rw [h, List.mem_append, List.mem_singleton] at hq
      exact hq
  refine ⟨?_, ?_, fun q hq => ?_, fun q hq => ?_, ?_, ?_, fun q hq => ?_, hd.opened⟩
  · -- What is replaced had not been replaced before.
    rw [hhistory, List.nodup_append]
    refine ⟨by rcases replaced with - | h <;> simp, hd.replaced_nodup, ?_⟩
    rintro a ha b hb rfl
    exact (hreplaced a (Option.mem_toList.1 ha)).2.1 hb
  · rw [hhistory]
    intro h hh
    rcases List.mem_append.1 hh with hh | hh
    · exact List.mem_cons_of_mem _ (hreplaced h (Option.mem_toList.1 hh)).1
    · exact List.mem_cons_of_mem _ (hd.replaced_issued h hh)
  · rw [hhistory]
    rcases hmem q hq with hq | rfl
    · rw [List.mem_append]
      rintro (h | h)
      · exact (hreplaced _ (Option.mem_toList.1 h)).2.2 q hq rfl
      · exact hd.current q hq h
    · exact hnew
  · rcases hmem q hq with hq | rfl
    · exact List.mem_cons_of_mem _ (hd.issued q hq)
    · exact List.mem_cons_self
  · rcases hrows with h | h
    · rw [h]
      exact hd.hashes_nodup
    · rw [h, List.map_append, List.nodup_append]
      refine ⟨hd.hashes_nodup, List.nodup_singleton _, ?_⟩
      rintro a ha b hb rfl
      rw [List.map_singleton, List.mem_singleton] at hb
      obtain ⟨q, hq, rfl⟩ := List.mem_map.1 ha
      exact hunused (hb ▸ hd.issued q hq)
  · rcases hrows with h | h
    · rw [h]
      exact hd.owners_nodup
    · rw [h, List.filterMap_append, List.nodup_append]
      refine ⟨hd.owners_nodup, ?_, ?_⟩
      · rcases hs : r.sessionId with - | s <;> simp [hs]
      · rintro a ha b hb rfl
        obtain ⟨q, hq, hqa⟩ := List.mem_filterMap.1 ha
        have hra : r.sessionId = some a := by simpa using hb
        exact (hsession a hra).2 q hq hqa
  · rcases hmem q hq with hq | rfl
    · exact hd.owned q hq
    · exact fun s hs => (hsession s hs).1

theorem Proper.insertSession (hd : Proper d) (s : AuthSession) :
    Proper (AuthDatabase.insertSession s d) :=
  { hd with
    owned := fun r hr sessionId hs => List.mem_cons_of_mem _ (hd.owned r hr sessionId hs)
    opened := Table.forall_insert (fun r hr =>
      List.mem_cons_of_mem _ (hd.opened r hr)) List.mem_cons_self }

/-- The commits of requests keep the invariant. -/
theorem Proper.change (hd : Proper d) (h : e.Change d d') : Proper d' := by
  rcases h with @⟨s, r, tokenHash, d, d₀, hunused, h, hsession, rfl⟩ |
    @⟨old, r, tokenHash, d, d₀, hunused, h, hold, hnot, hsession, rfl⟩ | ⟨h⟩
  · have hunopened : s.id ∉ d₀.sessionHistory := h.sessionHistory ▸ hunused.session _ rfl
    refine ((hd.shrinks h).insertSession s).insertRefreshToken ?_ (by simp) fun sessionId hs => ?_
    · show r.tokenHash ∉ d₀.tokenHistory.map (·.2)
      rw [h.tokenHistory]
      exact hunused.token _ rfl
    · obtain rfl : s.id = sessionId := by simpa [hsession] using hs
      exact ⟨List.mem_cons_self, fun q hq hqs => hunopened ((hd.shrinks h).owned q hq _ hqs)⟩
  · have hrow : ∀ q ∈ d₀.refreshTokens.rows, q ∈ d.refreshTokens.rows ∧ q ≠ old := fun q hq =>
      ⟨h.refreshTokens.subset hq, fun heq => hnot (heq ▸ hq)⟩
    refine (hd.shrinks h).insertRefreshToken ?_ ?_ fun sessionId hs => ?_
    · rw [h.tokenHistory]
      exact hunused.token _ rfl
    · rintro tokenHash ⟨⟩
      rw [h.tokenHistory]
      refine ⟨hd.issued old hold, hd.current old hold, fun q hq heq => ?_⟩
      exact (hrow q hq).2 (List.inj_on_of_nodup_map hd.hashes_nodup (hrow q hq).1 hold heq)
    · rw [hsession] at hs
      rw [h.sessionHistory]
      refine ⟨hd.owned old hold _ hs, fun q hq heq => ?_⟩
      exact (hrow q hq).2 (eq_of_nodup_filterMap hd.owners_nodup (hrow q hq).1 hold heq hs)
  · exact hd.shrinks h

end Boat.Auth
