import Boat.Core.Table

/-!
# Registries

Registries of classes by their names (`EventTypeRegistry` of
`app/core/db/outbox/serialization.py`), over any type of classes: equal classes are the same
class. A registry is merged into another one class by class, unless another class has its name.

* `mergeAll_eq_ok`, `mergeAll_eq_error`: registries are merged, into all of their classes, or
  two of the classes conflict;
* `mergeAll_perm`: what is found does not depend on the order.
-/

namespace Boat.Events

/-- `EventTypeRegistry`, of classes `κ`. -/
abbrev EventTypeRegistry {κ : Type} (name : κ → String) := Table name

/-- `ConflictingEventTypeError`. -/
structure ConflictingEventTypeError where
  eventType : String
  deriving DecidableEq, Repr

namespace EventTypeRegistry

variable {κ : Type} [DecidableEq κ] {name : κ → String}

/-- `register`. -/
def register (registry : EventTypeRegistry name) (c : κ) : EventTypeRegistry name := registry.set c

/-- One class of `merge`. -/
def mergeClass (registry : EventTypeRegistry name) (c : κ) :
    Except ConflictingEventTypeError (EventTypeRegistry name) :=
  match registry.find (name c) with
  | some existing => if existing ≠ c then .error ⟨name c⟩ else .ok (registry.set c)
  | none => .ok (registry.set c)

/-- `merge`. -/
def merge (registry other : EventTypeRegistry name) :
    Except ConflictingEventTypeError (EventTypeRegistry name) :=
  other.rows.foldlM mergeClass registry

/-- The registries merged, one after the other. -/
def mergeAll (registries : List (EventTypeRegistry name)) :
    Except ConflictingEventTypeError (EventTypeRegistry name) :=
  registries.foldlM merge .empty

/-- Classes with one name are one class. -/
def Compatible (name : κ → String) (cs : List κ) : Prop := ∀ c ∈ cs, ∀ d ∈ cs, name c = name d → c = d

omit [DecidableEq κ] in
theorem compatible_rows (registry : EventTypeRegistry name) : Compatible name registry.rows :=
  fun _ hc _ hd => List.inj_on_of_nodup_map registry.nodup hc hd

omit [DecidableEq κ] in
theorem mem_set {registry : EventTypeRegistry name} {c : κ}
    (h : Compatible name (registry.rows ++ [c])) (d : κ) :
    d ∈ (Table.set c registry).rows ↔ d ∈ registry.rows ∨ d = c := by
  have hmem : ∀ (t : EventTypeRegistry name) (d : κ), d ∈ t.rows ↔ t.find (name d) = some d :=
    fun t d => (Table.find_eq_some.trans (and_iff_left rfl)).symm
  rw [hmem, Table.find_set]
  split
  · next hname =>
    rw [Option.some.injEq]
    constructor
    · rintro rfl
      exact .inr rfl
    · rintro (hd | rfl)
      · exact (h d (by simp [hd]) c (by simp) hname).symm
      · rfl
  · next hname =>
    rw [hmem]
    constructor
    · exact .inl
    · rintro (hd | rfl)
      · exact hd
      · exact absurd rfl hname

/-- A class is added, unless another one has its name. -/
theorem mergeClass_eq (registry : EventTypeRegistry name) (c : κ) :
    (Compatible name (registry.rows ++ [c]) ∧ mergeClass registry c = .ok (registry.set c)) ∨
      ¬Compatible name (registry.rows ++ [c]) ∧ mergeClass registry c = .error ⟨name c⟩ := by
  rw [mergeClass]
  rcases hfind : registry.find (name c) with - | existing
  · refine .inl ⟨?_, rfl⟩
    have hnot : ∀ d ∈ registry.rows, name d ≠ name c := fun d hd hname =>
      Table.find_eq_none.1 hfind (hname ▸ List.mem_map_of_mem hd)
    intro d hd e he hname
    rcases List.mem_append.1 hd with hd | hd
    · rcases List.mem_append.1 he with he | he
      · exact compatible_rows registry d hd e he hname
      · rw [List.mem_singleton.1 he] at hname
        exact absurd hname (hnot d hd)
    · rw [List.mem_singleton.1 hd] at hname ⊢
      rcases List.mem_append.1 he with he | he
      · exact absurd hname.symm (hnot e he)
      · exact (List.mem_singleton.1 he).symm
  · obtain ⟨hexisting, hname⟩ := Table.find_eq_some.1 hfind
    by_cases heq : existing = c
    · subst heq
      refine .inl ⟨?_, if_neg (not_not.2 rfl)⟩
      intro d hd e he
      have hrows : ∀ x ∈ registry.rows ++ [existing], x ∈ registry.rows := by
        intro x hx
        rcases List.mem_append.1 hx with hx | hx
        · exact hx
        · rwa [List.mem_singleton.1 hx]
      exact compatible_rows registry d (hrows d hd) e (hrows e he)
    · refine .inr ⟨fun h => heq (h existing (by simp [hexisting]) c (by simp) hname), if_pos heq⟩

/-- Classes are added one after the other, until two conflict. -/
theorem foldlM_mergeClass (cs : List κ) (registry : EventTypeRegistry name) :
    (Compatible name (registry.rows ++ cs) ∧
        ∃ merged, cs.foldlM mergeClass registry = .ok merged ∧ ∀ d, d ∈ merged.rows ↔
        d ∈ registry.rows ∨ d ∈ cs) ∨
      ¬Compatible name (registry.rows ++ cs) ∧ ∃ e, cs.foldlM mergeClass registry = .error e := by
  induction cs generalizing registry with
  | nil =>
    refine .inl ⟨?_, registry, rfl, by simp⟩
    rw [List.append_nil]
    exact compatible_rows registry
  | cons c cs ih =>
    rw [List.foldlM_cons]
    rcases mergeClass_eq registry c with ⟨hcompatible, hmerge⟩ | ⟨hconflict, hmerge⟩
    · have hiff : Compatible name (registry.rows ++ c :: cs) ↔
          Compatible name ((registry.set c).rows ++ cs) := by
        have hmem : ∀ d, d ∈ registry.rows ++ c :: cs ↔ d ∈ (registry.set c).rows ++ cs := by
          intro d
          rw [List.mem_append, List.mem_append, mem_set hcompatible, List.mem_cons, or_assoc]
        simp only [Compatible, hmem]
      rw [hmerge, hiff]
      rcases ih (registry.set c) with ⟨h, merged, hmerged, hrows⟩ | ⟨h, e, he⟩
      · refine .inl ⟨h, merged, hmerged, fun d => ?_⟩
        rw [hrows, mem_set hcompatible, List.mem_cons, or_assoc]
      · exact .inr ⟨h, e, he⟩
    · refine .inr ⟨fun h => hconflict ?_, _, by rw [hmerge]; rfl⟩
      intro d hd e he
      refine h d ?_ e ?_
      · rcases List.mem_append.1 hd with hd | hd
        · exact List.mem_append_left _ hd
        · simp [List.mem_singleton.1 hd]
      · rcases List.mem_append.1 he with he | he
        · exact List.mem_append_left _ he
        · simp [List.mem_singleton.1 he]

/-- Merging registries is adding all of their classes. -/
theorem mergeAll_eq (registries : List (EventTypeRegistry name)) :
    mergeAll registries = (registries.flatMap (·.rows)).foldlM mergeClass .empty := by
  rw [mergeAll]
  generalize (Table.empty : EventTypeRegistry name) = registry
  induction registries generalizing registry with
  | nil => rfl
  | cons other registries ih =>
    rw [List.foldlM_cons, List.flatMap_cons, List.foldlM_append, merge]
    congr
    funext merged
    exact ih merged

/-- Registries without a conflict are merged into all of their classes. -/
theorem mergeAll_eq_ok {registries : List (EventTypeRegistry name)}
    (h : Compatible name (registries.flatMap (·.rows))) :
    ∃ merged, mergeAll registries = .ok merged ∧ ∀ d, d ∈ merged.rows ↔
    ∃ registry ∈ registries, d ∈ registry.rows := by
  rw [mergeAll_eq]
  rcases foldlM_mergeClass (registries.flatMap (·.rows)) (.empty : EventTypeRegistry name) with
    ⟨-, merged, hmerged, hrows⟩ | ⟨hconflict, -⟩
  · refine ⟨merged, hmerged, fun d => ?_⟩
    rw [hrows, List.mem_flatMap]
    exact or_iff_right List.not_mem_nil
  · exact absurd h hconflict

/-- Registries with a conflict are not merged. -/
theorem mergeAll_eq_error {registries : List (EventTypeRegistry name)}
    (h : ¬Compatible name (registries.flatMap (·.rows))) : ∃ e, mergeAll registries = .error e := by
  rw [mergeAll_eq]
  rcases foldlM_mergeClass (registries.flatMap (·.rows)) (.empty : EventTypeRegistry name) with
    ⟨hcompatible, -⟩ | ⟨-, herror⟩
  · exact absurd hcompatible h
  · exact herror

omit [DecidableEq κ] in
/-- What is found in a registry depends on its classes only. -/
theorem find_congr {registry registry' : EventTypeRegistry name}
    (h : ∀ d, d ∈ registry.rows ↔ d ∈ registry'.rows)
    (eventType : String) : registry.find eventType = registry'.find eventType := by
  refine Option.ext fun c => ?_
  rw [Table.find_eq_some, Table.find_eq_some, h]

/-- Merging raises exactly if two different classes share a name. -/
theorem mergeAll_error_iff (registries : List (EventTypeRegistry name)) :
    (∃ e, mergeAll registries = .error e) ↔
      ∃ registry ∈ registries, ∃ c ∈ registry.rows, ∃ other ∈ registries, ∃ d ∈ other.rows,
      name c = name d ∧ c ≠ d := by
  have hconflict : ¬Compatible name (registries.flatMap (·.rows)) ↔
      ∃ registry ∈ registries, ∃ c ∈ registry.rows, ∃ other ∈ registries, ∃ d ∈ other.rows,
        name c = name d ∧ c ≠ d := by
    simp only [Compatible, List.mem_flatMap]
    push Not
    constructor
    · rintro ⟨c, ⟨registry, hregistry, hc⟩, d, ⟨other, hother, hd⟩, h⟩
      exact ⟨registry, hregistry, c, hc, other, hother, d, hd, h⟩
    · rintro ⟨registry, hregistry, c, hc, other, hother, d, hd, h⟩
      exact ⟨c, ⟨registry, hregistry, hc⟩, d, ⟨other, hother, hd⟩, h⟩
  rw [← hconflict]
  constructor
  · rintro ⟨e, he⟩ hcompatible
    obtain ⟨merged, hmerged, -⟩ := mergeAll_eq_ok hcompatible
    rw [he] at hmerged
    cases hmerged
  · exact mergeAll_eq_error

/-- The order of the registries does not matter. -/
theorem mergeAll_perm {registries registries' : List (EventTypeRegistry name)}
    (h : registries.Perm registries') {merged : EventTypeRegistry name}
    (hmerged : mergeAll registries = .ok merged) :
    ∃ merged', mergeAll registries' = .ok merged' ∧
    ∀ eventType, merged'.find eventType = merged.find eventType := by
  by_cases hcompatible : Compatible name (registries.flatMap (·.rows))
  · have hcompatible' : Compatible name (registries'.flatMap (·.rows)) := by
      intro c hc d hd
      exact hcompatible c ((h.flatMap_right _).mem_iff.2 hc) d ((h.flatMap_right _).mem_iff.2 hd)
    obtain ⟨merged₁, hmerged₁, hrows⟩ := mergeAll_eq_ok hcompatible
    obtain rfl : merged₁ = merged := Except.ok.inj (hmerged₁.symm.trans hmerged)
    obtain ⟨merged', hmerged', hrows'⟩ := mergeAll_eq_ok hcompatible'
    refine ⟨merged', hmerged', find_congr fun d => ?_⟩
    rw [hrows, hrows']
    simp only [h.mem_iff]
  · obtain ⟨e, he⟩ := mergeAll_eq_error hcompatible
    rw [he] at hmerged
    cases hmerged

end EventTypeRegistry

end Boat.Events
