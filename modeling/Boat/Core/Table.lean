import Mathlib.Data.List.Nodup
import Mathlib.Data.List.Pairwise

/-!
# Tables

A table is a list of rows with different keys (`Table.nodup`), so that a row is
determined by its key (`Table.find_eq_some`). Inserting, updating and deleting a row
changes what is found under its own key only (`Table.find_insert`,
`Table.find_update`, `Table.find_delete`).
-/

namespace Boat

/-- A text without the null character, which PostgreSQL does not take. -/
def sendable (s : String) : Bool := '\x00' ∉ s.toList

/-- Elements that agree on what is there once are equal. -/
theorem eq_of_nodup_filterMap {α β : Type} {f : α → Option β} {l : List α}
    (h : (l.filterMap f).Nodup) {a b : α} (ha : a ∈ l) (hb : b ∈ l) {c : β} (hac : f a = some c)
    (hbc : f b = some c) : a = b := by
  by_contra hne
  have : Std.Symm fun a b : α => ∀ c, f a = some c → ∀ c', f b = some c' → c ≠ c' :=
    ⟨fun _ _ h c hc c' hc' => (h c' hc' c hc).symm⟩
  exact (List.pairwise_filterMap.1 h).forall ha hb hne _ hac _ hbc rfl

/-- A table with a primary key. -/
structure Table {ρ κ : Type} (key : ρ → κ) where
  rows : List ρ
  nodup : (rows.map key).Nodup

namespace Table

variable {ρ κ : Type} [DecidableEq κ] {key : ρ → κ}

/-- The table without rows. -/
def empty : Table key := ⟨[], List.nodup_nil⟩

/-- The row with a key. -/
def find (t : Table key) (k : κ) : Option ρ := t.rows.find? (key · = k)

/-- The table with the row replaced that has the key of `r`. -/
def update (r : ρ) (t : Table key) : Table key where
  rows := t.rows.map fun q => if key q = key r then r else q
  nodup := by
    have : key ∘ (fun q => if key q = key r then r else q) = key := by
      funext q
      by_cases h : key q = key r <;> simp [h]
    rw [List.map_map, this]
    exact t.nodup

/-- The table with the row of a key changed by `f`, if there is one. -/
def modify (k : κ) (f : ρ → ρ) (t : Table key) : Table key :=
  match t.find k with
  | some r => t.update (f r)
  | none => t

/-- The table with another row, if its key is free. -/
def insert (r : ρ) (t : Table key) : Table key :=
  if h : key r ∈ t.rows.map key then t
  else
    { rows := t.rows ++ [r]
      nodup := by
        rw [List.map_append, List.nodup_append]
        refine ⟨t.nodup, List.nodup_singleton _, fun k hk k' hk' hne => h ?_⟩
        rw [List.mem_singleton.1 hk'] at hne
        exact hne ▸ hk }

/-- The table without the row with a key. -/
def delete (k : κ) (t : Table key) : Table key where
  rows := t.rows.filter (key · ≠ k)
  nodup := (List.filter_sublist.map key).nodup t.nodup

/-- The table with a row under its key, whether another one has it or not. -/
def set (r : ρ) (t : Table key) : Table key :=
  if key r ∈ t.rows.map key then t.update r else t.insert r

/-- The table with the rows that `p` keeps. -/
def filter (p : ρ → Bool) (t : Table key) : Table key where
  rows := t.rows.filter p
  nodup := (List.filter_sublist.map key).nodup t.nodup

omit [DecidableEq κ] in
theorem mem_filter {p : ρ → Bool} {t : Table key} {r : ρ} : r ∈ (t.filter p).rows ↔ r ∈ t.rows ∧
    p r = true :=
  List.mem_filter

/-- A row is found under its key, if keys are different. -/
theorem find?_of_nodup {rows : List ρ} (nodup : (rows.map key).Nodup) {r : ρ} (hr : r ∈ rows) :
    rows.find? (key · = key r) = some r := by
  induction rows with
  | nil => cases hr
  | cons q rows ih =>
    rw [List.map_cons, List.nodup_cons] at nodup
    rw [List.find?_cons]
    rcases List.mem_cons.1 hr with rfl | hr
    · simp
    · have hne : key q ≠ key r := fun h => nodup.1 (h ▸ List.mem_map_of_mem hr)
      rw [decide_eq_false hne]
      exact ih nodup.2 hr

/-- A row is found under its key, and no other. -/
theorem find_eq_some {t : Table key} {k : κ} {r : ρ} : t.find k = some r ↔ r ∈ t.rows ∧
    key r = k := by
  constructor
  · intro h
    exact ⟨List.mem_of_find?_eq_some h, by simpa using List.find?_some h⟩
  · rintro ⟨hr, rfl⟩
    exact find?_of_nodup t.nodup hr

/-- What an update leaves unchanged in a row, it leaves unchanged in the table. -/
theorem map_update {α : Type} {f : ρ → α} {t : Table key} {r : ρ}
    (h : ∀ q, t.find (key r) = some q → f r = f q) : (t.update r).rows.map f = t.rows.map f := by
  simp only [update, List.map_map]
  refine List.map_congr_left fun q hq => ?_
  by_cases hk : key q = key r
  · simp only [Function.comp, if_pos hk]
    exact h q (find_eq_some.2 ⟨hq, hk⟩)
  · simp only [Function.comp, if_neg hk]

/-- What is found after an update. -/
theorem find_update (r : ρ) (t : Table key) (k : κ) :
    (t.update r).find k = if k = key r then (t.find k).map fun _ => r else t.find k := by
  obtain ⟨rows, nodup⟩ := t
  simp only [update, find]
  clear nodup
  induction rows with
  | nil => simp
  | cons q rows ih =>
    rw [List.map_cons, List.find?_cons, List.find?_cons, ih]
    by_cases hq : key q = key r <;> by_cases hk : k = key r
    · simp [hq, hk]
    · simp [hq, hk, Ne.symm hk]
    · simp [hq, hk]
    · by_cases hqk : key q = k <;> simp [hq, hk, hqk]

theorem find_eq_none {t : Table key} {k : κ} : t.find k = none ↔ k ∉ t.rows.map key := by
  rw [find, List.find?_eq_none, List.mem_map]
  simp

theorem mem_update {t : Table key} {r q : ρ} :
    q ∈ (t.update r).rows ↔ q ∈ t.rows ∧ key q ≠ key r ∨ q = r ∧ key r ∈ t.rows.map key := by
  rw [update, List.mem_map]
  constructor
  · rintro ⟨q', hq', rfl⟩
    by_cases hk : key q' = key r
    · rw [if_pos hk]
      exact .inr ⟨rfl, hk ▸ List.mem_map_of_mem hq'⟩
    · rw [if_neg hk]
      exact .inl ⟨hq', hk⟩
  · rintro (⟨hq, hk⟩ | ⟨rfl, hk⟩)
    · exact ⟨q, hq, if_neg hk⟩
    · obtain ⟨q', hq', hk⟩ := List.mem_map.1 hk
      exact ⟨q', hq', if_pos hk⟩

theorem mem_insert {t : Table key} {r q : ρ} :
    q ∈ (t.insert r).rows ↔ q ∈ t.rows ∨ q = r ∧ key r ∉ t.rows.map key := by
  rw [insert]
  split
  · next h => simp [h]
  · next h => simp [h]

/-- A row with a free key is the last one. -/
theorem rows_insert {t : Table key} {r : ρ} (h : ∀ q ∈ t.rows, key q ≠ key r) :
    (t.insert r).rows = t.rows ++ [r] := by
  rw [insert, dif_neg]
  rintro hr
  obtain ⟨q, hq, hk⟩ := List.mem_map.1 hr
  exact h q hq hk

/-- What holds of the rows, and of another one. -/
theorem forall_insert {p : ρ → Prop} {t : Table key} {r : ρ} (h : ∀ q ∈ t.rows, p q) (hr : p r) :
    ∀ q ∈ (t.insert r).rows, p q := by
  intro q hq
  rcases mem_insert.1 hq with hq | ⟨rfl, -⟩
  · exact h q hq
  · exact hr

omit [DecidableEq κ] in
theorem forall_filter {p : ρ → Prop} {t : Table key} {b : ρ → Bool} (h : ∀ q ∈ t.rows, p q) :
    ∀ q ∈ (t.filter b).rows, p q := fun q hq => h q (mem_filter.1 hq).1

omit [DecidableEq κ] in
/-- Rows with one key are one row. -/
theorem eq_of_key {t : Table key} {r q : ρ} (hr : r ∈ t.rows) (hq : q ∈ t.rows)
    (h : key r = key q) : r = q :=
  List.inj_on_of_nodup_map t.nodup hr hq h

/-- The rows after one is changed. -/
theorem mem_modify {t : Table key} {k : κ} {f : ρ → ρ} (hf : ∀ r, key (f r) = key r) {q : ρ} :
    q ∈ (t.modify k f).rows ↔ q ∈ t.rows ∧ key q ≠ k ∨ ∃ r ∈ t.rows, key r = k ∧ q = f r := by
  rw [modify]
  rcases hfind : t.find k with - | r
  · have hnot : ∀ r ∈ t.rows,
        key r ≠ k := fun r hr hk => find_eq_none.1 hfind (hk ▸ List.mem_map_of_mem hr)
    constructor
    · exact fun hq => .inl ⟨hq, hnot q hq⟩
    · rintro (⟨hq, -⟩ | ⟨r, hr, hk, -⟩)
      · exact hq
      · exact absurd hk (hnot r hr)
  · obtain ⟨hr, rfl⟩ := find_eq_some.1 hfind
    rw [mem_update, hf]
    constructor
    · rintro (h | ⟨rfl, -⟩)
      · exact .inl h
      · exact .inr ⟨r, hr, rfl, rfl⟩
    · rintro (h | ⟨r', hr', hk, rfl⟩)
      · exact .inl h
      · rw [eq_of_key hr' hr hk]
        exact .inr ⟨rfl, List.mem_map_of_mem hr⟩

/-- What is found after an insert. -/
theorem find_insert {r : ρ} {t : Table key} (h : t.find (key r) = none) (k : κ) :
    (t.insert r).find k = if k = key r then some r else t.find k := by
  rw [insert, dif_neg (find_eq_none.1 h)]
  rw [find] at h
  by_cases hk : k = key r
  · rw [if_pos hk, hk]
    simp [find, List.find?_append, h]
  · simp [find, List.find?_append, hk, Ne.symm hk]

/-- A row that is inserted and changed is inserted as changed. -/
theorem modify_insert {t : Table key} {r : ρ} {f : ρ → ρ} (h : t.find (key r) = none)
    (hf : key (f r) = key r) :
    (t.insert r).modify (key r) f = t.insert (f r) := by
  have hr : key r ∉ t.rows.map key := find_eq_none.1 h
  rw [modify, find_insert h, if_pos rfl]
  rw [insert, dif_neg hr, insert, dif_neg (hf ▸ hr)]
  simp only [update, List.map_append, List.map_cons, List.map_nil, hf, if_true, mk.injEq,
    List.append_cancel_right_eq]
  refine (List.map_congr_left fun q hq => if_neg fun hk => hr ?_).trans (List.map_id _)
  exact hk ▸ List.mem_map_of_mem hq

/-- What is found after a delete. -/
theorem find_delete (t : Table key) (k k' : κ) :
    (t.delete k).find k' = if k' = k then none else t.find k' := by
  by_cases hk : k' = k
  · rw [if_pos hk, find_eq_none]
    simp [delete, hk]
  · rw [if_neg hk]
    cases h : t.find k' with
    | none =>
      rw [find_eq_none] at h ⊢
      exact fun h' => h ((List.filter_sublist.map key).subset h')
    | some r =>
      obtain ⟨hr, hrk⟩ := find_eq_some.1 h
      exact find_eq_some.2 ⟨List.mem_filter.2 ⟨hr, decide_eq_true fun h => hk (hrk ▸ h)⟩, hrk⟩

/-- What is found after a row has been set. -/
theorem find_set (r : ρ) (t : Table key) (k : κ) :
    (t.set r).find k = if k = key r then some r else t.find k := by
  rw [set]
  split
  · next h =>
    rw [find_update]
    split
    · next hk =>
      rcases hfind : t.find k with - | q
      · exact absurd (hk ▸ h) (find_eq_none.1 hfind)
      · rfl
    · rfl
  · next h => exact find_insert (find_eq_none.2 h) k

end Table

end Boat
