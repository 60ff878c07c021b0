import Boat.Events.Publisher

/-!
# Payloads without some of the fields

Payloads from which fields are missing, as those of events that were published before the fields
were added. A default is decoded like a value that was read (`decodeValue`), although it is one
of Python: the numbers and members of enumerations are decoded into themselves, but `UUID` and
`fromisoformat` do not accept the values of the default factories.

* The defaults are held unless `event_id` or `occurred_at` is missing (`old_payloads_readable`).
-/

namespace Boat.Events

/-- A payload without some of its keys. -/
def without (removed : List String) (payload : List (String × Json)) : List (String × Json) :=
  payload.filter fun p => p.1 ∉ removed

/-- The declared default of a field, or what its default factory returns. -/
def Field.HasDefault (fresh : Fresh) (field : Field) (v : PyValue) : Prop :=
  match field.default with
  | .missing => False
  | .value w => v = w
  | .factory .uuid4 => v = .uuid fresh.uuid4
  | .factory .now => v = .datetime fresh.now

/-- A field without a default is missing. -/
def EventClass.Lacks (removed : List String) (cls : EventClass) : Prop :=
  ∃ field ∈ cls.fields, field.name ∈ removed ∧ field.default = .missing

/-- What is to be read from the payload of an event without some of its keys: if a field without a
    default is missing, a `KeyError` of such a field, or else the event, with equal values of the
    fields that are kept, and the defaults of the others. -/
def Reads [TimeZones] (fresh : Fresh) (removed : List String) (event : Event)
    (result : Except PyError Event) : Prop :=
  (event.cls.Lacks removed → ∃ field ∈ event.cls.fields, field.name ∈ removed ∧
    field.default = .missing ∧
    result = .error (.keyError field.name)) ∧
  (¬event.cls.Lacks removed → ∃ restored, result = .ok restored ∧ restored.cls = event.cls ∧
    List.Forall₂ (fun (p : Field × String × PyValue) (b : String × PyValue) => b.1 = p.1.name ∧
      if p.1.name ∈ removed then p.1.HasDefault fresh b.2 else p.2.2.eq b.2 = true)
      (event.cls.fields.zip event.attributes) restored.attributes)

/-- An annotation by a class whose instances are no times. -/
def TypeHint.Timeless : TypeHint → Prop
  | .plain type => type ≠ .datetime
  | _ => False

instance : ∀ hint : TypeHint, Decidable hint.Timeless
  | .plain type => inferInstanceAs (Decidable (type ≠ .datetime))
  | .union _ | .list _ => inferInstanceAs (Decidable False)

/-- A default that is decoded into itself, of a field that is no time. -/
def Field.Defaulted (field : Field) : Prop :=
  match field.default with
  | .missing => True
  | .value v => decodeValue field.type v = .ok v ∧ field.type.Timeless
  | .factory _ => False

instance (field : Field) : Decidable field.Defaulted := by
  unfold Field.Defaulted
  split
  · exact inferInstanceAs (Decidable True)
  · exact inferInstanceAs (Decidable (_ ∧ _))
  · exact inferInstanceAs (Decidable False)

/-! ## Lists side by side -/

section

variable {α β γ : Type} {r : α → β → Prop} {s : α → γ → Prop} {l : List α} {m : List β} {n : List γ}

theorem exists_mem_zip (h : List.Forall₂ r l m) {x : α} (hx : x ∈ l) : ∃ y, (x, y) ∈ l.zip m := by
  have hfst : (l.zip m).map Prod.fst = l := List.map_fst_zip h.length_eq.le
  rw [← hfst] at hx
  obtain ⟨⟨_, y⟩, hmem, rfl⟩ := List.mem_map.1 hx
  exact ⟨y, hmem⟩

theorem exists_mem_zip_right (h : List.Forall₂ r l m) {y : β}
    (hy : y ∈ m) : ∃ x, (x, y) ∈ l.zip m := by
  have hsnd : (l.zip m).map Prod.snd = m := List.map_snd_zip h.length_eq.ge
  rw [← hsnd] at hy
  obtain ⟨⟨x, _⟩, hmem, rfl⟩ := List.mem_map.1 hy
  exact ⟨x, hmem⟩

theorem forall₂_zip_left (h : List.Forall₂ r l m) (h' : List.Forall₂ s l n) :
    List.Forall₂ (fun p z => r p.1 p.2 ∧ s p.1 z) (l.zip m) n := by
  induction h generalizing n with
  | nil =>
    cases h'
    exact .nil
  | cons h _ ih =>
    cases h' with
    | cons hs h' => exact .cons ⟨h, hs⟩ (ih h')

end

/-! ## Decoding -/

/-- The value of a field, of which `deserialize_event` decodes one after the other. -/
def fieldValue (fresh : Fresh) (payload : List (String × Json))
    (field : Field) : Except PyError PyValue :=
  match payloadValue fresh field payload with
  | .error e => .error e
  | .ok v => decodeValue field.type v

theorem decodeFields_cons (fresh : Fresh) (payload : List (String × Json)) (field : Field)
    (fields : List Field) :
    decodeFields fresh payload (field :: fields) =
      match fieldValue fresh payload field with
      | .error e => .error e
      | .ok v =>
        match decodeFields fresh payload fields with
        | .error e => .error e
        | .ok attributes => .ok ((field.name, v) :: attributes) := by
  rw [decodeFields, fieldValue]
  rcases payloadValue fresh field payload with e | v
  · rfl
  · rfl

/-- The error is that of a field. -/
theorem decodeFields_error {fresh : Fresh} {payload : List (String × Json)} {fields : List Field}
    {e : PyError} (h : decodeFields fresh payload fields = .error e) : ∃ field ∈ fields,
    fieldValue fresh payload field = .error e := by
  induction fields with
  | nil => cases h
  | cons field fields ih =>
    rw [decodeFields_cons] at h
    split at h
    · next e' hfield =>
      obtain rfl := Except.error.inj h
      exact ⟨field, List.mem_cons_self, hfield⟩
    · split at h
      · next e' hfields =>
        obtain rfl := Except.error.inj h
        obtain ⟨field', hmem, hfield'⟩ := ih hfields
        exact ⟨field', List.mem_cons_of_mem _ hmem, hfield'⟩
      · cases h

/-- Otherwise all fields have values. -/
theorem decodeFields_ok {fresh : Fresh} {payload : List (String × Json)} {fields : List Field}
    {attributes : List (String × PyValue)} (h : decodeFields fresh payload fields = .ok attributes) :
    List.Forall₂ (fun (field : Field) (a : String × PyValue) => a.1 = field.name ∧
      fieldValue fresh payload field = .ok a.2) fields attributes := by
  induction fields generalizing attributes with
  | nil =>
    obtain rfl := Except.ok.inj h
    exact .nil
  | cons field fields ih =>
    rw [decodeFields_cons] at h
    split at h
    · cases h
    · next v hfield =>
      split at h
      · cases h
      · next attributes' hfields =>
        obtain rfl := Except.ok.inj h
        exact .cons ⟨rfl, hfield⟩ (ih hfields)

theorem lookup_without (removed : List String) (payload : List (String × Json)) (name : String) :
    (without removed payload).lookup name = if name ∈ removed then none else payload.lookup name := by
  induction payload with
  | nil => simp [without]
  | cons p payload ih =>
    rw [without] at ih ⊢
    rw [List.filter_cons, List.lookup_cons]
    by_cases hp : p.1 ∈ removed
    · rw [if_neg (by simpa using hp), ih]
      split
      · rfl
      · next hname =>
        have hne : (name == p.1) = false := beq_eq_false_iff_ne.2 fun h => hname (h ▸ hp)
        rw [hne]
    · rw [if_pos (by simpa using hp), List.lookup_cons, ih]
      split
      · next heq => rw [if_neg (beq_iff_eq.1 heq ▸ hp)]
      · rfl

/-- The default factories are those of the first two fields. -/
theorem Registered.defaulted {cls : EventClass} (h : Registered cls) : ∃ fields,
    cls.fields = ⟨"event_id", uuid, .factory .uuid4⟩ ::
      ⟨"occurred_at", .plain .datetime, .factory .now⟩ :: fields ∧
      ∀ field ∈ fields, field.Defaulted := by
  have hall : ∀ registry ∈ eventRegistries, ∀ cls ∈ registry.rows,
      cls.fields.take 2 = domainEventFields.take 2 ∧
        ∀ field ∈ cls.fields.drop 2, field.Defaulted := by decide
  obtain ⟨registry, hregistry, hcls⟩ := h
  obtain ⟨htake, hdefaulted⟩ := hall registry hregistry cls hcls
  refine ⟨cls.fields.drop 2, ?_, hdefaulted⟩
  conv_lhs => rw [← List.take_append_drop 2 cls.fields, htake]
  rfl

/-! ## Events -/

variable [TimeZones]

/-- A field that is kept is read back. -/
theorem fieldValue_kept (fresh : Fresh) {removed : List String} {event : Event}
    (hdecodable : event.cls.Decodable) (hvalid : event.Valid) {field : Field} {a : String × PyValue}
    (hmem : (field, a) ∈ event.cls.fields.zip event.attributes) (hkept : field.name ∉ removed) :
    fieldValue fresh (without removed (serializeEvent event).2) field = .ok a.2.restored := by
  obtain ⟨hname, hinstance⟩ := (List.forall₂_iff_zip.1 hvalid).2 hmem
  obtain ⟨hfield, ha⟩ := List.of_mem_zip hmem
  rw [fieldValue, payloadValue, lookup_without, if_neg hkept, ← hname,
    lookup_serializeEvent hdecodable.1 hvalid ha]
  exact decodeValue_encodeValue (hdecodable.2 field hfield) hinstance

/-- A field that is removed has its default decoded, if there is one. -/
theorem fieldValue_removed (fresh : Fresh) {removed : List String} (event : Event) (field : Field)
    (hremoved : field.name ∈ removed) :
    fieldValue fresh (without removed (serializeEvent event).2) field =
      match field.default with
      | .missing => .error (.keyError field.name)
      | .value v => decodeValue field.type v
      | .factory .uuid4 => decodeValue field.type (.uuid fresh.uuid4)
      | .factory .now => decodeValue field.type (.datetime fresh.now) := by
  rw [fieldValue, payloadValue, lookup_without, if_pos hremoved]
  rcases field.default with - | v | (- | -)
  · rfl
  · rfl
  · rfl
  · rfl

/-- Without `event_id`, or without `occurred_at`, the event cannot be read. -/
theorem decodeFields_factory (fresh : Fresh) {removed : List String} {event : Event}
    (hregistered : Registered event.cls) (hvalid : event.Valid)
    (hremoved : "event_id" ∈ removed ∨ "occurred_at" ∈ removed) :
    ∃ e, decodeFields fresh (without removed (serializeEvent event).2) event.cls.fields = .error e ∧
      ∀ name, e ≠ .keyError name := by
  obtain ⟨fields, hfields, -⟩ := hregistered.defaulted
  by_cases hid : "event_id" ∈ removed
  · have hvalue := fieldValue_removed fresh event ⟨"event_id", uuid, .factory .uuid4⟩ hid
    refine ⟨.attributeError, ?_, fun _ => by simp⟩
    rw [hfields, decodeFields_cons, hvalue]
    rfl
  · -- the first field is read, and the second is not
    have hat := hremoved.resolve_left hid
    have hvalue := fieldValue_removed fresh event ⟨"occurred_at", .plain .datetime, .factory .now⟩ hat
    obtain ⟨a, ha⟩ := exists_mem_zip hvalid (hfields ▸ List.mem_cons_self)
    have hfirst := fieldValue_kept fresh hregistered.decodable hvalid ha hid
    refine ⟨.typeError, ?_, fun _ => by simp⟩
    rw [hfields, decodeFields_cons, hfirst, decodeFields_cons, hvalue]
    rfl

/-- A field of an event, if these two are kept. -/
theorem fieldValue_cases (fresh : Fresh) {removed : List String} {event : Event}
    (hregistered : Registered event.cls) (hvalid : event.Valid) (hid : "event_id" ∉ removed)
    (hat : "occurred_at" ∉ removed) {field : Field} {a : String × PyValue}
    (hmem : (field, a) ∈ event.cls.fields.zip event.attributes) :
    (field.name ∉ removed ∧
      fieldValue fresh (without removed (serializeEvent event).2) field = .ok a.2.restored) ∨
      (field.name ∈ removed ∧ field.default = .missing ∧
        fieldValue fresh (without removed (serializeEvent event).2) field =
          .error (.keyError field.name)) ∨
      field.name ∈ removed ∧ field.type.Timeless ∧ ∃ v, field.default = .value v ∧
        fieldValue fresh (without removed (serializeEvent event).2) field = .ok v := by
  by_cases hremoved : field.name ∈ removed
  · have hvalue := fieldValue_removed fresh event field hremoved
    obtain ⟨fields, hfields, hdefaulted⟩ := hregistered.defaulted
    have hfield := (List.of_mem_zip hmem).1
    rw [hfields, List.mem_cons, List.mem_cons] at hfield
    rcases hfield with rfl | rfl | hfield
    · exact absurd hremoved hid
    · exact absurd hremoved hat
    · have hdefaulted := hdefaulted field hfield
      unfold Field.Defaulted at hdefaulted
      split at hdefaulted
      · next hmissing =>
        rw [hmissing] at hvalue
        exact .inr (.inl ⟨hremoved, hmissing, hvalue⟩)
      · next v hv =>
        rw [hv] at hvalue
        exact .inr (.inr ⟨hremoved, hdefaulted.2, v, hv, hvalue.trans hdefaulted.1⟩)
      · exact hdefaulted.elim
  · exact .inl ⟨hremoved, fieldValue_kept fresh hregistered.decodable hvalid hmem hremoved⟩

omit [TimeZones] in
theorem TypeHint.Timeless.ne_datetime {hint : TypeHint} (h : hint.Timeless) {v : PyValue}
    (hinstance : hint.HasInstance v) (d : DateTime) : v ≠ .datetime d := by
  rintro rfl
  rcases hint with type | args | item
  · rcases type with - | - | c | - | -
    · exact hinstance
    · exact h rfl
    · exact hinstance
    · exact hinstance
    · exact hinstance
  · exact h
  · exact h

/-- The values of the fields that are kept are equal, unless the event has a time that is not. -/
theorem kept_eq_iff (fresh : Fresh) {removed : List String} {event : Event}
    (hregistered : Registered event.cls) (hvalid : event.Valid) (hid : "event_id" ∉ removed)
    (hat : "occurred_at" ∉ removed) {attributes : List (String × PyValue)}
    (hok : decodeFields fresh (without removed (serializeEvent event).2) event.cls.fields =
      .ok attributes) :
    List.Forall₂ (fun (p : Field × String × PyValue) (b : String × PyValue) => b.1 = p.1.name ∧
      if p.1.name ∈ removed then p.1.HasDefault fresh b.2 else p.2.2.eq b.2 = true)
      (event.cls.fields.zip event.attributes) attributes ↔ ¬event.Lossy := by
  have hmem : List.Forall₂ (fun field a =>
    (field, a) ∈ event.cls.fields.zip event.attributes) event.cls.fields
      event.attributes := List.forall₂_iff_zip.2 ⟨List.Forall₂.length_eq hvalid, id⟩
  have hboth := forall₂_zip_left hmem (decodeFields_ok hok)
  constructor
  · rintro h ⟨a, ha, d, hd, hlossy⟩
    obtain ⟨field, hfield⟩ := exists_mem_zip_right hvalid ha
    obtain ⟨b, hb⟩ := exists_mem_zip h hfield
    obtain ⟨-, hname, hvalue⟩ := (List.forall₂_iff_zip.1 hboth).2 hb
    have hkept := ((List.forall₂_iff_zip.1 h).2 hb).2
    rcases fieldValue_cases fresh hregistered hvalid hid hat hfield with
      ⟨hnot, hread⟩ | ⟨-, -, herror⟩ | ⟨-, htimeless, -⟩
    · -- A field that is kept is read as it was, but for a time that is folded.
      rw [if_neg hnot, ← Except.ok.inj (hread.symm.trans hvalue)] at hkept
      exact (PyValue.eq_restored _).1 hkept d hd hlossy
    · rw [herror] at hvalue
      cases hvalue
    · exact htimeless.ne_datetime ((List.forall₂_iff_zip.1 hvalid).2 hfield).2 d hd
  · intro hlossy
    refine hboth.imp fun p b hp => ?_
    obtain ⟨hp, hname, hvalue⟩ := hp
    refine ⟨hname, ?_⟩
    rcases fieldValue_cases fresh hregistered hvalid hid hat hp with
      ⟨hnot, hread⟩ | ⟨-, -, herror⟩ | ⟨hremoved, -, v, hdefault, hread⟩
    · rw [if_neg hnot, ← Except.ok.inj (hread.symm.trans hvalue)]
      exact (PyValue.eq_restored _).2 fun d hd hd' => hlossy ⟨p.2, (List.of_mem_zip hp).2, d, hd, hd'⟩
    · rw [herror] at hvalue
      cases hvalue
    · rw [if_pos hremoved, Field.HasDefault, hdefault]
      exact (Except.ok.inj (hread.symm.trans hvalue)).symm

/-- What the decoded fields of an event make of it. -/
def ofFields (cls : EventClass) : Except PyError (List (String × PyValue)) → Except PyError Event
  | .error e => .error e
  | .ok attributes => .ok ⟨cls, attributes⟩

theorem deserializeEvent_eq (fresh : Fresh) {merged : EventTypeRegistry EventClass.name}
    (hmerged : buildMergedEventRegistry = .ok merged) {event : Event}
    (hregistered : Registered event.cls) (payload : List (String × Json)) :
    deserializeEvent merged fresh (serializeEvent event).1 payload =
      ofFields event.cls (decodeFields fresh payload event.cls.fields) := by
  have hfind := find_merged hmerged hregistered
  have htype : (serializeEvent event).1 = event.cls.name := rfl
  rcases hdecode : decodeFields fresh payload event.cls.fields with e | attributes
  · simp only [deserializeEvent, htype, hfind, hdecode, ofFields]
  · simp only [deserializeEvent, htype, hfind, hdecode, ofFields]

/-- What is to be read is read, exactly if `event_id` and `occurred_at` are kept, unless a field
    without a default is missing or the event has a time that is not read back as it was. -/
theorem old_payloads_readable (fresh : Fresh) (removed : List String) (event : Event)
    (hregistered : Registered event.cls) (hvalid : event.Valid)
    (merged : EventTypeRegistry EventClass.name) (hmerged : buildMergedEventRegistry = .ok merged) :
    Reads fresh removed event
        (deserializeEvent merged fresh (serializeEvent event).1
          (without removed (serializeEvent event).2)) ↔
      "event_id" ∉ removed ∧ "occurred_at" ∉ removed ∧ (event.cls.Lacks removed ∨ ¬event.Lossy) := by
  rw [deserializeEvent_eq fresh hmerged hregistered, Reads]
  by_cases hkept : "event_id" ∉ removed ∧ "occurred_at" ∉ removed
  · obtain ⟨hid, hat⟩ := hkept
    rw [and_iff_right hid, and_iff_right hat]
    rcases hdecode : decodeFields fresh
      (without removed (serializeEvent event).2) event.cls.fields with e | attributes
    · -- a field without a default is missing
      rw [ofFields]
      obtain ⟨field, hfield, hvalue⟩ := decodeFields_error hdecode
      obtain ⟨a, ha⟩ := exists_mem_zip hvalid hfield
      rcases fieldValue_cases fresh hregistered hvalid hid hat ha with ⟨-, h⟩
        | ⟨hremoved, hmissing, h⟩ | ⟨-, -, v, -, h⟩
      · rw [h] at hvalue
        cases hvalue
      · rw [h] at hvalue
        obtain rfl := Except.error.inj hvalue
        have hlacks : event.cls.Lacks removed := ⟨field, hfield, hremoved, hmissing⟩
        simp only [hlacks, true_or, iff_true, not_true_eq_false, false_implies, and_true,
          true_implies]
        exact ⟨field, hfield, hremoved, hmissing, rfl⟩
      · rw [h] at hvalue
        cases hvalue
    · -- The fields are decoded, so each one that is removed has a default.
      have hlacks : ¬event.cls.Lacks removed := by
        rintro ⟨field, hfield, hremoved, hmissing⟩
        have hvalue := fieldValue_removed fresh event field hremoved
        rw [hmissing] at hvalue
        obtain ⟨b, hb⟩ := exists_mem_zip (decodeFields_ok hdecode) hfield
        have hok := ((List.forall₂_iff_zip.1 (decodeFields_ok hdecode)).2 hb).2
        rw [hvalue] at hok
        cases hok
      rw [ofFields, ← kept_eq_iff fresh hregistered hvalid hid hat hdecode]
      simp only [hlacks, false_or, false_implies, true_and, not_false_eq_true, true_implies]
      constructor
      · rintro ⟨restored, hrestored, -, h⟩
        obtain rfl := Except.ok.inj hrestored
        exact h
      · exact fun h => ⟨_, rfl, rfl, h⟩
  · have hremoved : "event_id" ∈ removed ∨ "occurred_at" ∈ removed := by
      by_contra hnot
      exact hkept (not_or.1 hnot)
    obtain ⟨e, he, hne⟩ := decodeFields_factory fresh hregistered hvalid hremoved
    rw [he, ofFields]
    constructor
    · rintro ⟨hlacks, hok⟩
      by_cases h : event.cls.Lacks removed
      · obtain ⟨field, -, -, -, herror⟩ := hlacks h
        exact absurd (Except.error.inj herror) (hne _)
      · obtain ⟨restored, hrestored, -⟩ := hok h
        cases hrestored
    · rintro ⟨hid, hat, -⟩
      exact absurd ⟨hid, hat⟩ hkept

/-! ## A payload without its identity -/

omit [TimeZones] in
theorem identity_unreadable : letI := newYork
    Registered (userWithdrawn noon).cls ∧ (userWithdrawn noon).Valid ∧
      ¬(userWithdrawn noon).cls.Lacks ["event_id"] ∧
      ∀ (fresh : Fresh) merged, buildMergedEventRegistry = .ok merged →
        ¬Reads fresh ["event_id"] (userWithdrawn noon)
          (deserializeEvent merged fresh (serializeEvent (userWithdrawn noon)).1
          (without ["event_id"] (serializeEvent (userWithdrawn noon)).2)) := by
  let _ := newYork
  have hregistered : Registered (userWithdrawn noon).cls := ⟨_, userWithdrawn_registered⟩
  have hvalid := userWithdrawn_valid noon
  have hlacks : ¬(userWithdrawn noon).cls.Lacks ["event_id"] := by
    have hall : ∀ field ∈ UserWithdrawn.fields, field.name ∈ ["event_id"] →
        field.default ≠ .missing := by decide
    rintro ⟨field, hfield, hremoved, hmissing⟩
    exact hall field hfield hremoved hmissing
  refine ⟨hregistered, hvalid, hlacks, ?_⟩
  intro fresh merged hmerged hreads
  obtain ⟨restored, hrestored, -⟩ := hreads.2 hlacks
  have hremoved : "event_id" ∈ ["event_id"] ∨ "occurred_at" ∈ ["event_id"] :=
    .inl (List.mem_singleton_self _)
  obtain ⟨e, he, -⟩ := decodeFields_factory fresh hregistered hvalid hremoved
  rw [deserializeEvent_eq fresh hmerged hregistered, he, ofFields] at hrestored
  cases hrestored

omit [TimeZones] in
theorem old_payloads_readable_version : letI := newYork
    ∃ merged, buildMergedEventRegistry = .ok merged ∧
      Reads ⟨.ofNat 3, noon⟩ ["event_version"] (userWithdrawn noon)
        (deserializeEvent merged ⟨.ofNat 3, noon⟩
        (serializeEvent (userWithdrawn noon)).1
          (without ["event_version"] (serializeEvent (userWithdrawn noon)).2)) := by
  let _ := newYork
  obtain ⟨merged, hmerged, -⟩ := buildMergedEventRegistry_eq_ok
  have hlossy : ¬(userWithdrawn noon).Lossy := fun h => absurd (lossy_userWithdrawn.1 h) (by decide)
  refine ⟨merged, hmerged, ?_⟩
  exact (old_payloads_readable ⟨.ofNat 3, noon⟩ ["event_version"] (userWithdrawn noon)
    ⟨_, userWithdrawn_registered⟩
    (userWithdrawn_valid noon) merged hmerged).2 ⟨by decide, by decide, .inr hlossy⟩

end Boat.Events
