import Mathlib.Data.List.Sort
import Mathlib.Order.Defs.LinearOrder

/-!
# Keyset paging

Rows are read in pages: a page has the first rows after a cursor, in an order of the rows
(`page`), and the cursor of its last row if there are more. Following the cursors (`follow`)
visits every row once (`follow_perm`), in their order (`follow_rel`, `Orders.enumerates`).
-/

namespace Paging

variable {α β γ ε : Type}

/-- A page: its rows, and whether there are more, with the cursor of the last row then. -/
structure Page (α γ : Type) where
  rows : List α
  next : Option γ
  hasNext : Bool

/-- The page of the rows found: there are more if more than `limit` have been found. -/
def cut (key : α → γ) (limit : ℕ) (found : List α) : Page α γ where
  rows := found.take limit
  next := if limit < found.length then (found.take limit).getLast?.map key else none
  hasNext := limit < found.length

/-- The page after a cursor: one row more than `limit` is read. -/
def page (le : α → α → Prop) [DecidableRel le] (after : γ → α → Bool) (key : α → γ) (limit : ℕ)
    (rows : List α) (cursor : Option γ) : Page α γ :=
  cut key limit (((rows.filter fun a => cursor.all (after · a)).insertionSort le).take (limit + 1))

/-- The results of the pages from a cursor on, of which `step` reads one; none if there is no
    end within `fuel` pages. -/
def follow (step : Option γ → Option (Except ε (List β × Option γ))) :
    ℕ → Option γ → Option (Except ε (List β))
  | 0, _ => none
  | fuel + 1, cursor =>
    match step cursor with
    | none => none
    | some (.error e) => some (.error e)
    | some (.ok (out, none)) => some (.ok out)
    | some (.ok (out, some next)) => (follow step fuel (some next)).map (·.map (out ++ ·))

/-- `le` orders the rows, and `after` finds those after the cursor of a row. -/
structure Orders (le : α → α → Prop) (after : γ → α → Bool) (key : α → γ) (rows : List α) : Prop where
  total : ∀ a b, le a b ∨ le b a
  trans : ∀ a b c, le a b → le b c → le a c
  antisymm : ∀ a ∈ rows, ∀ b ∈ rows, le a b → le b a → a = b
  after_iff : ∀ a b, after (key a) b ↔ ¬le b a

variable {le : α → α → Prop} [DecidableRel le] {after : γ → α → Bool} {key : α → γ}
  {rows found : List α} {limit : ℕ}

theorem cut_take : cut key limit (found.take (limit + 1)) = cut key limit found := by
  have hlt : limit < (found.take (limit + 1)).length ↔ limit < found.length := by
    rw [List.length_take]
    omega
  simp only [cut, List.take_take, Nat.min_eq_left (Nat.le_succ limit), hlt]

/-- Where there are more rows, the page is split off at its last one. -/
theorem cut_of_lt (key : α → γ) (hlimit : 1 ≤ limit) (hlt : limit < found.length) :
    ∃ rows a, found.take limit = rows ++ [a] ∧
    cut key limit found = ⟨rows ++ [a], some (key a), true⟩ := by
  have hne : found.take limit ≠ [] := by
    rw [← List.length_pos_iff, List.length_take]
    omega
  obtain ⟨rows, a, h⟩ := (List.eq_nil_or_concat (found.take limit)).resolve_left hne
  rw [List.concat_eq_append] at h
  refine ⟨rows, a, h, ?_⟩
  simp [cut, hlt, h]

theorem cut_of_le (hle : found.length ≤ limit) : cut key limit found = ⟨found, none, false⟩ := by
  simp [cut, hle.not_gt, List.take_of_length_le hle]

/-- The rows of a page are some of the rows. -/
theorem subperm_page {cursor : Option γ} : (page le after key limit rows cursor).rows.Subperm rows :=
  ((List.take_sublist ..).trans (List.take_sublist ..)).subperm.trans
    ((List.perm_insertionSort ..).subperm.trans List.filter_sublist.subperm)

/-- There is a cursor if there are more rows. -/
theorem isSome_next (hlimit : 1 ≤ limit) :
    (cut key limit found).next.isSome = (cut key limit found).hasNext := by
  by_cases hlt : limit < found.length
  · obtain ⟨rows, a, -, hcut⟩ := cut_of_lt key hlimit hlt
    rw [hcut]
    rfl
  · rw [cut_of_le (Nat.le_of_not_lt hlt)]
    rfl

namespace Orders

theorem pairwise (h : Orders le after key rows) : (rows.insertionSort le).Pairwise le :=
  have : Std.Total le := ⟨h.total⟩
  have : IsTrans α le := ⟨h.trans⟩
  List.pairwise_insertionSort le rows

/-- Rows are selected before they are sorted, or after. -/
theorem insertionSort_filter (h : Orders le after key rows) (p : α → Bool) :
    (rows.filter p).insertionSort le = (rows.insertionSort le).filter p := by
  have hsub : Orders le after key (rows.filter p) :=
    ⟨h.total, h.trans, fun a ha b hb =>
      h.antisymm a (List.mem_of_mem_filter ha) b (List.mem_of_mem_filter hb), h.after_iff⟩
  refine List.Perm.eq_of_pairwise ?_ hsub.pairwise (h.pairwise.filter p) ?_
  · intro a b ha hb
    have ha := List.mem_of_mem_filter ((List.perm_insertionSort ..).subset ha)
    have hb := (List.perm_insertionSort ..).subset (List.mem_of_mem_filter hb)
    exact h.antisymm a ha b hb
  · exact (List.perm_insertionSort ..).trans ((List.perm_insertionSort ..).symm.filter p)

/-- The rows after the cursor of a row are those that follow it. -/
theorem filter_after (h : Orders le after key rows) (hnodup : rows.Nodup) {l₁ l₂ : List α} {a : α}
    (hrows : rows.insertionSort le = l₁ ++ a :: l₂) :
    (rows.insertionSort le).filter (after (key a)) = l₂ := by
  have hp := h.pairwise
  have hmem : ∀ b ∈ l₁ ++ a :: l₂, b ∈ rows := fun b hb =>
    (List.perm_insertionSort ..).subset (hrows ▸ hb)
  have hnodup' : (l₁ ++ a :: l₂).Nodup := hrows ▸ (List.perm_insertionSort ..).nodup_iff.2 hnodup
  rw [hrows] at hp ⊢
  obtain ⟨-, hp₂, hp₁⟩ := List.pairwise_append.1 hp
  obtain ⟨hal₂, -⟩ := List.pairwise_cons.1 hp₂
  obtain ⟨-, hnodup₂, -⟩ := List.nodup_append.1 hnodup'
  have hrefl : le a a := (h.total a a).elim id id
  rw [List.filter_append, List.filter_cons, if_neg, List.filter_eq_nil_iff.2, List.nil_append,
    List.filter_eq_self]
  · intro b hb
    rw [h.after_iff]
    intro hba
    have heq := h.antisymm b (hmem b (by simp [hb])) a (hmem a (by simp)) hba (hal₂ b hb)
    exact (List.nodup_cons.1 hnodup₂).1 (heq ▸ hb)
  · intro b hb
    rw [h.after_iff, not_not]
    exact hp₁ b hb a List.mem_cons_self
  · rw [h.after_iff, not_not]
    exact hrefl

end Orders

omit [DecidableRel le] in
/-- Rows are ordered by a key, and then by another one that no two of them share. -/
theorem orders_lex {κ ν : Type} [LinearOrder κ] [LinearOrder ν] {k : α → κ} {i : α → ν}
    (hi : ∀ a ∈ rows, ∀ b ∈ rows, i a = i b → a = b)
    (hle : ∀ a b, le a b ↔ k a < k b ∨ k a = k b ∧ i a ≤ i b)
    (hafter : ∀ a b, after (key a) b = true ↔ k a < k b ∨ k b = k a ∧ i a < i b) :
    Orders le after key rows where
  total a b := by
    rw [hle, hle]
    rcases lt_trichotomy (k a) (k b) with h | h | h
    · exact .inl (.inl h)
    · exact (le_total (i a) (i b)).imp (fun h' => .inr ⟨h, h'⟩) fun h' => .inr ⟨h.symm, h'⟩
    · exact .inr (.inl h)
  trans a b c := by
    rw [hle, hle, hle]
    rintro (h | ⟨h, h'⟩) (h₁ | ⟨h₁, h₁'⟩)
    · exact .inl (h.trans h₁)
    · exact .inl (h₁ ▸ h)
    · exact .inl (h ▸ h₁)
    · exact .inr ⟨h.trans h₁, h'.trans h₁'⟩
  antisymm a ha b hb := by
    rw [hle, hle]
    rintro (h | ⟨h, h'⟩) (h₁ | ⟨h₁, h₁'⟩)
    · exact absurd h₁ h.asymm
    · exact absurd h (h₁ ▸ lt_irrefl _)
    · exact absurd h₁ (h ▸ lt_irrefl _)
    · exact hi a ha b hb (le_antisymm h' h₁')
  after_iff a b := by
    rw [hafter, hle]
    rcases lt_trichotomy (k a) (k b) with h | h | h
    · simp [h, h.not_gt, h.ne']
    · simp [h]
    · simp [h.not_gt, h.ne, h]

/-- Following the cursors visits the rows in their order: if the results of a page relate to its
    rows by a relation that goes with concatenation, so do the results of all pages to all rows. -/
theorem follow_rel (h : Orders le after key rows) (hnodup : rows.Nodup) (hlimit : 1 ≤ limit)
    {R : List β → List α → Prop}
    (happend : ∀ out l out' l', R out l → R out' l' → R (out ++ out') (l ++ l'))
    {step : Option γ → Option (Except ε (List β × Option γ))}
    (hstep : ∀ cursor, (∀ c ∈ cursor, (∃ a ∈ rows, key a = c) ∧ ∃ b ∈ rows, after c b = true) → ∃ out,
      step cursor = some (.ok (out, (page le after key limit rows cursor).next)) ∧
      R out (page le after key limit rows cursor).rows)
    {fuel : ℕ} (hfuel : rows.length < fuel) : ∃ out, follow step fuel none = some (.ok out) ∧
    R out (rows.insertionSort le) := by
  have hpage : ∀ cursor, page le after key limit rows cursor =
      cut key limit ((rows.insertionSort le).filter fun a => cursor.all (after · a)) := by
    intro cursor
    rw [page, h.insertionSort_filter, cut_take]
  -- From a cursor on, the rest of the rows is visited.
  have hrest : ∀ fuel cursor l₁ l₂, rows.insertionSort le = l₁ ++ l₂ →
      (∀ c ∈ cursor, (∃ a ∈ rows, key a = c) ∧ ∃ b ∈ rows, after c b = true) →
      ((rows.insertionSort le).filter fun a => cursor.all (after · a)) = l₂ → l₂.length < fuel →
      ∃ out, follow step fuel cursor = some (.ok out) ∧ R out l₂ := by
    intro fuel
    induction fuel with
    | zero => exact fun _ _ _ _ _ _ h => absurd h (Nat.not_lt_zero _)
    | succ fuel ih =>
      intro cursor l₁ l₂ hrows hkey hcursor hfuel
      obtain ⟨out, hout, hR⟩ := hstep cursor hkey
      rw [hpage, hcursor] at hout hR
      rw [follow, hout]
      by_cases hlt : limit < l₂.length
      · obtain ⟨init, a, htake, hcut⟩ := cut_of_lt key hlimit hlt
        have hsplit : rows.insertionSort le = (l₁ ++ init) ++ a :: l₂.drop limit := by
          conv_lhs => rw [hrows, ← List.take_append_drop limit l₂, htake]
          simp
        have ha : a ∈ rows := (List.perm_insertionSort le rows).subset (by rw [hsplit]; simp)
        have hafter := h.filter_after hnodup hsplit
        obtain ⟨b, hb⟩ : ∃ b, b ∈ l₂.drop limit :=
          List.exists_mem_of_length_pos (by rw [List.length_drop]; omega)
        rw [← hafter] at hb
        have hb' : b ∈ rows := (List.perm_insertionSort le rows).subset (List.mem_of_mem_filter hb)
        obtain ⟨rest, hnext, hrest⟩ := ih (some (key a)) (l₁ ++ init ++ [a]) (l₂.drop limit)
          (by rw [hsplit]; simp)
          (by rintro c ⟨⟩; exact ⟨⟨a, ha, rfl⟩, b, hb', List.of_mem_filter hb⟩) hafter
            (by rw [List.length_drop]; omega)
        rw [hcut] at hR ⊢
        refine ⟨out ++ rest, by simp only [hnext, Option.map_some, Except.map], ?_⟩
        rw [← List.take_append_drop limit l₂, htake]
        exact happend _ _ _ _ hR hrest
      · rw [cut_of_le (by omega)] at hR ⊢
        exact ⟨out, rfl, hR⟩
  exact hrest fuel none [] _ rfl nofun (List.filter_eq_self.2 fun _ _ => rfl)
    ((List.length_insertionSort le rows).trans_lt hfuel)

/-- There are more rows if there is one that comes after those of the page. -/
theorem hasNext_page (h : Orders le after key rows) (hnodup : rows.Nodup) {cursor : Option γ}
    (hcursor : ∀ c ∈ cursor, (∃ a ∈ rows, key a = c) ∧ ∃ b ∈ rows, after c b = true) :
    (page le after key limit rows cursor).hasNext = true ↔
      ∃ r ∈ rows, ∀ q ∈ (page le after key limit rows cursor).rows, le q r ∧ q ≠ r := by
  have hmem : ∀ r, r ∈ rows.insertionSort le ↔ r ∈ rows :=
    fun r => (List.perm_insertionSort ..).mem_iff
  obtain ⟨found, hfound⟩ : ∃ found, found = (rows.insertionSort le).filter fun r =>
    cursor.all (after · r) := ⟨_, rfl⟩
  have hpage : page le after key limit rows cursor = cut key limit found := by
    rw [page, h.insertionSort_filter, cut_take, hfound]
  have hfound' : ∀ r ∈ found, r ∈ rows := fun r hr =>
    (hmem r).1 (List.mem_of_mem_filter (hfound ▸ hr))
  simp only [hpage, cut, decide_eq_true_eq]
  constructor
  · -- The first row that is not on the page comes after those that are.
    intro hlt
    have hsplit := List.take_append_drop limit found
    have hpairwise : found.Pairwise le := hfound ▸ h.pairwise.filter _
    have hnodup' : found.Nodup := hfound ▸ ((List.perm_insertionSort ..).nodup_iff.2 hnodup).filter _
    obtain ⟨r, hr⟩ : ∃ r, r ∈ found.drop limit :=
      List.exists_mem_of_length_pos (by rw [List.length_drop]; omega)
    rw [← hsplit] at hpairwise hnodup'
    refine ⟨r, hfound' r (List.mem_of_mem_drop hr), fun q hq => ?_⟩
    exact ⟨(List.pairwise_append.1 hpairwise).2.2 q hq r hr,
      (List.nodup_append.1 hnodup').2.2 q hq r hr⟩
  · rintro ⟨r, hr, hlater⟩
    by_contra hle
    rw [List.take_of_length_le (Nat.le_of_not_lt hle)] at hlater
    -- The later row is found as well, after the cursor, and so on the page.
    refine (hlater r ?_).2 rfl
    rw [hfound, List.mem_filter]
    refine ⟨(hmem r).2 hr, ?_⟩
    rcases cursor with - | c
    · rfl
    · obtain ⟨⟨a, ha, hc⟩, b, hb, hafter⟩ := hcursor c rfl
      have hiff : ∀ r, after c r = true ↔ ¬le r a := by
        rw [← hc]
        exact h.after_iff a
      have hbfound : b ∈ found := by
        rw [hfound, List.mem_filter, Option.all_some]
        exact ⟨(hmem b).2 hb, hafter⟩
      rw [Option.all_some, hiff]
      rw [hiff] at hafter
      exact fun hra => hafter (h.trans b r a (hlater b hbfound).1 hra)

/-- Following the cursors of a listing: if each of its pages has the rows and the cursor of a page,
    and more rows if there is one that comes after them, then all rows are on its pages, in their
    order. -/
theorem follow_list (h : Orders le after key rows) (hnodup : rows.Nodup)
    (hlimit : 1 ≤ limit) {π : Type} (list : Option γ → Except ε π) (nextOf : π → Option γ)
    (rowsOf : π → List β) (item : α → β) (Q : π → List α → Prop → Prop)
    (hlist : ∀ cursor, (∀ c ∈ cursor, (∃ a ∈ rows, key a = c) ∧ ∃ b ∈ rows, after c b = true) →
      ∃ p, list cursor = .ok p ∧
      nextOf p = (page le after key limit rows cursor).next ∧
      rowsOf p = (page le after key limit rows cursor).rows.map item ∧
      Q p (page le after key limit rows cursor).rows
        ((page le after key limit rows cursor).hasNext = true))
    {fuel : ℕ} (hfuel : rows.length < fuel) :
    ∃ pages, follow (fun cursor => some ((list cursor).map fun p => ([p], nextOf p))) fuel none =
      some (.ok pages) ∧
      pages.flatMap rowsOf = (rows.insertionSort le).map item ∧
      ∀ p ∈ pages, ∃ l : List α, rowsOf p = l.map item ∧
      Q p l (∃ r ∈ rows, ∀ q ∈ l, le q r ∧ q ≠ r) := by
  refine follow_rel (R := fun pages l => pages.flatMap rowsOf = l.map item ∧ ∀ p ∈ pages,
    ∃ l : List α, rowsOf p = l.map item ∧
      Q p l (∃ r ∈ rows, ∀ q ∈ l, le q r ∧ q ≠ r)) h hnodup hlimit ?_ ?_ hfuel
  · rintro out l out' l' ⟨ho, hp⟩ ⟨ho', hp'⟩
    refine ⟨by rw [List.flatMap_append, List.map_append, ho, ho'], fun p hmem => ?_⟩
    exact (List.mem_append.1 hmem).elim (hp p) (hp' p)
  · intro cursor hcursor
    obtain ⟨p, hp, hnext, hrows, hQ⟩ := hlist cursor hcursor
    refine ⟨[p], by rw [hp, ← hnext]; rfl, by rw [List.flatMap_singleton, hrows], fun p' hp' => ?_⟩
    rw [List.mem_singleton.1 hp']
    refine ⟨_, hrows, ?_⟩
    rwa [← propext (hasNext_page h hnodup hcursor)]

/-- The rows `rs` are the results of a listing, `limit` of them a page at most: in their order, each
    of them is on one of the pages that follow each other by their cursors, and every page has their
    number, and whether there are more. -/
structure Enumerates {π : Type} (le : α → α → Prop) (list : Option γ → Except ε π)
    (nextOf : π → Option γ) (rowsOf : π → List β) (hasNext : π → Bool) (totalCount : π → ℕ)
    (item : α → β) (limit : ℕ) (rs : List α) : Prop where
  nodup : rs.Nodup
  ordered : rs.Pairwise le
  pages : ∃ pages,
    follow (fun cursor => some ((list cursor).map fun p => ([p], nextOf p))) (rs.length + 1) none =
      some (.ok pages) ∧ pages.flatMap rowsOf = rs.map item ∧
    ∀ p ∈ pages, ∃ l : List α, rowsOf p = l.map item ∧ l.length ≤ limit ∧ totalCount p = rs.length ∧
      (nextOf p).isSome = hasNext p ∧ (hasNext p = true ↔ ∃ r ∈ rs, ∀ q ∈ l, le q r ∧ q ≠ r)

/-- A listing of pages has the rows as its results. -/
theorem Orders.enumerates {π : Type} (h : Orders le after key rows) (hnodup : rows.Nodup)
    (hlimit : 1 ≤ limit) {list : Option γ → Except ε π} {nextOf : π → Option γ}
    {rowsOf : π → List β} {hasNext : π → Bool} {totalCount : π → ℕ} {item : α → β}
    (hlist : ∀ cursor, (∀ c ∈ cursor, ∃ a ∈ rows, key a = c) → ∃ p, list cursor = .ok p ∧
      nextOf p = (page le after key limit rows cursor).next ∧
      rowsOf p = (page le after key limit rows cursor).rows.map item ∧
      hasNext p = (page le after key limit rows cursor).hasNext ∧ totalCount p = rows.length) :
    Enumerates le list nextOf rowsOf hasNext totalCount item limit (rows.insertionSort le) := by
  have hperm := List.perm_insertionSort le rows
  have hlength : rows.length < (rows.insertionSort le).length + 1 :=
    Nat.lt_succ_of_le hperm.length_eq.ge
  refine ⟨hperm.nodup_iff.2 hnodup, h.pairwise, ?_⟩
  obtain ⟨pages, hpages, hrows, hpage⟩ := follow_list h hnodup hlimit list nextOf rowsOf item
    (fun p l more => l.length ≤ limit ∧ totalCount p = rows.length ∧ (nextOf p).isSome = hasNext p ∧
      (hasNext p = true ↔ more))
    (fun cursor hcursor => by
      obtain ⟨p, hp, hnext, hrows, hmore, htotal⟩ := hlist cursor fun c hc => (hcursor c hc).1
      refine ⟨p, hp, hnext, hrows, List.length_take_le _ _, htotal, ?_, by rw [hmore]⟩
      rw [hnext, hmore]
      exact isSome_next hlimit) hlength
  refine ⟨pages, hpages, hrows, fun p hp => ?_⟩
  obtain ⟨l, hl, hle, htotal, hsome, hmore⟩ := hpage p hp
  refine ⟨l, hl, hle, htotal.trans hperm.length_eq.symm, hsome, hmore.trans ?_⟩
  exact exists_congr fun r => and_congr_left' hperm.mem_iff.symm

/-- Following the cursors visits every row once: if a page's results are those of its rows, the
    results of all pages are those of all rows. -/
theorem follow_perm (h : Orders le after key rows) (hnodup : rows.Nodup) (hlimit : 1 ≤ limit)
    {f : α → Option β} {step : Option γ → Option (Except ε (List β × Option γ))}
    (hstep : ∀ cursor, ∃ out,
      step cursor = some (.ok (out, (page le after key limit rows cursor).next)) ∧
      out.Perm ((page le after key limit rows cursor).rows.filterMap f)) {fuel : ℕ}
        (hfuel : rows.length < fuel) :
    ∃ out, follow step fuel none = some (.ok out) ∧ out.Perm (rows.filterMap f) := by
  obtain ⟨out, hout, hperm⟩ := follow_rel (R := fun out l => out.Perm (l.filterMap f)) h hnodup hlimit
    (fun _ _ _ _ hperm hperm' => by rw [List.filterMap_append]; exact hperm.append hperm')
      (fun cursor _ => hstep cursor) hfuel
  exact ⟨out, hout, hperm.trans ((List.perm_insertionSort le rows).filterMap f)⟩

/-- A loop begins with what its first step returns. -/
theorem follow_eq_ok {step : Option γ → Option (Except ε (List β × Option γ))} {fuel : ℕ}
    {cursor : Option γ} {outs : List β} (h : follow step fuel cursor = some (.ok outs)) :
    ∃ out next rest, step cursor = some (.ok (out, next)) ∧ outs = out ++ rest := by
  cases fuel with
  | zero => cases h
  | succ fuel =>
    rw [follow] at h
    rcases hstep : step cursor with - | (e | ⟨out, - | next⟩)
    · rw [hstep] at h
      cases h
    · rw [hstep] at h
      cases h
    · rw [hstep] at h
      cases h
      exact ⟨_, none, [], rfl, (List.append_nil _).symm⟩
    · rw [hstep] at h
      obtain ⟨result, -, hresult⟩ := Option.map_eq_some_iff.1 h
      rcases result with e | rest
      · cases hresult
      · cases hresult
        exact ⟨_, some next, rest, rfl, rfl⟩

/-- A loop whose first step raises, raises. -/
theorem follow_error {step : Option γ → Option (Except ε (List β × Option γ))} {e : ε} {fuel : ℕ}
    (hstep : step none = some (.error e)) (hfuel : 0 < fuel) :
    follow step fuel none = some (.error e) := by
  obtain ⟨fuel, rfl⟩ := Nat.exists_eq_succ_of_ne_zero hfuel.ne'
  rw [follow, hstep]

end Paging
