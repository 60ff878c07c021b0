import Boat.Events.Classes
import Boat.Outbox.Workers

/-!
# Round trip of events

An event of a registered class is read from the outbox as it was, with its times at the offsets they
were printed at: they are equal unless the offset depends on the fold, or is less than a second from
UTC.

* `decodeValue_encodeValue`: an encoded value is decoded by the annotation it is an instance of;
* `deserialize_serialize`: so are the events of a class whose annotations can be decoded.
-/

namespace Boat.Events

/-! ## Values -/

/-- Annotations by which encoded values are decoded: there is one class, or a list of what JSON
    has. -/
def TypeHint.Decodable : TypeHint → Prop
  | .plain _ => True
  | .union args => (onlyArg args).isSome
  | .list item => item = .str ∨ item = .int

instance : ∀ hint : TypeHint, Decidable hint.Decodable
  | .plain _ => inferInstanceAs (Decidable True)
  | .union args => inferInstanceAs (Decidable ((onlyArg args).isSome = true))
  | .list item => inferInstanceAs (Decidable (item = .str ∨ item = .int))

theorem mem_of_onlyArg {args : List (Option FieldType)} {type type' : FieldType}
    (h : onlyArg args = some type) (hmem : some type' ∈ args) : type' = type := by
  have hmem : type' ∈ args.filterMap id := List.mem_filterMap.2 ⟨some type', hmem, rfl⟩
  unfold onlyArg at h
  split at h
  · next heq =>
    rw [heq, List.mem_singleton] at hmem
    exact hmem.trans (Option.some.inj h)
  · cases h

variable [TimeZones]

/-- The value that is read back: datetimes have fixed offsets. -/
def PyValue.restored : PyValue → PyValue
  | .datetime d => .datetime d.readBack
  | v => v

/-- It is equal, except for a time whose offset depends on the fold or is lost. -/
theorem PyValue.eq_restored (v : PyValue) :
    v.eq v.restored = true ↔ ∀ d, v = .datetime d → ¬(d.Folded ∨ d.Subsecond) := by
  rcases v with v | u | d | ⟨c, value⟩
  · simp [PyValue.eq, restored]
  · simp [PyValue.eq, restored]
  · rw [restored, PyValue.eq, DateTime.eq_readBack, ← not_or]
    constructor
    · rintro h _ ⟨⟩
      exact h
    · exact fun h => h d rfl
  · simp [PyValue.eq, restored]

/-- A value is decoded by the class that it is an instance of. -/
theorem decodeValue_of_type {hint : TypeHint} {type : FieldType}
    (htype : hint.underlyingType = some type) {v : PyValue}
    (h : type.HasInstance v) : decodeValue hint (.json (encodeValue v)) = .ok v.restored := by
  unfold FieldType.HasInstance at h
  split at h
  · next u => simp [decodeValue, encodeValue, htype, PyValue.str?, UUID.parse_str, PyValue.restored]
  · next d => simp [decodeValue, encodeValue, htype, PyValue.str?, DateTime.fromisoformat_isoformat,
      PyValue.restored]
  · next c d value =>
    obtain ⟨rfl, hmem⟩ := h
    simp [decodeValue, encodeValue, htype, PyValue.str?, hmem, PyValue.restored]
  · simp [decodeValue, encodeValue, htype, PyValue.restored]
  · simp [decodeValue, encodeValue, htype, PyValue.restored]
  · cases h

/-- An encoded value is decoded by the annotation that it is an instance of. -/
theorem decodeValue_encodeValue {hint : TypeHint} (hdecodable : hint.Decodable) {v : PyValue}
    (h : hint.HasInstance v) :
    decodeValue hint (.json (encodeValue v)) = .ok v.restored := by
  rcases hint with type | args | item
  · exact decodeValue_of_type rfl h
  · rcases h with ⟨-, rfl⟩ | ⟨type, hmem, h⟩
    · rfl
    · obtain ⟨type', htype⟩ := Option.isSome_iff_exists.1 hdecodable
      obtain rfl := mem_of_onlyArg htype hmem
      exact decodeValue_of_type (show (TypeHint.union args).underlyingType = some _ from htype) h
  · obtain ⟨items, rfl, -⟩ := h
    rcases hdecodable with rfl | rfl
    · simp [decodeValue, encodeValue, TypeHint.underlyingType, onlyArg, PyValue.restored]
    · simp [decodeValue, encodeValue, TypeHint.underlyingType, onlyArg, PyValue.restored]

/-! ## Events -/

omit [TimeZones] in
/-- Fields are decoded one by one. -/
theorem decodeFields_eq_ok {fresh : Fresh} {payload : List (String × Json)} {fields : List Field}
    {attributes : List (String × PyValue)}
    (h : List.Forall₂ (fun (field : Field) (a : String × PyValue) => a.1 = field.name ∧
      ∃ v, payloadValue fresh field payload = .ok v ∧
      decodeValue field.type v = .ok a.2) fields attributes) :
    decodeFields fresh payload fields = .ok attributes := by
  induction h with
  | nil => rfl
  | @cons field a fields attributes h _ ih =>
    obtain ⟨hname, v, hpayload, hdecode⟩ := h
    rw [decodeFields, hpayload]
    simp only [hdecode, ih, ← hname]

omit [TimeZones] in
/-- A key is found in a dictionary with different keys. -/
theorem lookup_of_mem {α : Type} {l : List (String × α)} (nodup : (l.map (·.1)).Nodup)
    {k : String} {v : α} (h : (k, v) ∈ l) : l.lookup k = some v := by
  induction l with
  | nil => cases h
  | cons a l ih =>
    rw [List.map_cons, List.nodup_cons] at nodup
    rw [List.lookup_cons]
    rcases List.mem_cons.1 h with rfl | h
    · simp
    · have hne : (k == a.1) = false := by
        rw [beq_eq_false_iff_ne]
        rintro rfl
        exact nodup.1 (List.mem_map.2 ⟨_, h, rfl⟩)
      rw [hne]
      exact ih nodup.2 h

omit [TimeZones] in
theorem storedPayload_eq (payload : List (String × Json)) : storedPayload payload = some payload := by
  rw [storedPayload, Json.loads_dumps]

/-- The fields of a class have different names, and annotations that can be decoded. -/
def EventClass.Decodable (cls : EventClass) : Prop :=
  (cls.fields.map (·.name)).Nodup ∧ ∀ field ∈ cls.fields, field.type.Decodable

instance (cls : EventClass) : Decidable cls.Decodable :=
  inferInstanceAs (Decidable (_ ∧ ∀ field ∈ _, _))

omit [TimeZones] in
theorem Event.Valid.names {event : Event} (h : event.Valid) :
    event.attributes.map (·.1) = event.cls.fields.map (·.name) := by
  obtain ⟨cls, attributes⟩ := event
  have h : List.Forall₂ (fun (field : Field) (a : String × PyValue) =>
    a.1 = field.name ∧ field.type.HasInstance a.2)
      cls.fields attributes := h
  rw [← List.forall₂_eq_eq_eq, List.forall₂_map_left_iff, List.forall₂_map_right_iff]
  exact (h.imp fun _ _ h => h.1).flip

/-- The value of an attribute is found in the payload. -/
theorem lookup_serializeEvent {event : Event} (hnodup : (event.cls.fields.map (·.name)).Nodup)
    (hvalid : event.Valid) {a : String × PyValue} (ha : a ∈ event.attributes) :
    (serializeEvent event).2.lookup a.1 = some (encodeValue a.2) := by
  refine lookup_of_mem ?_
    (List.mem_map_of_mem (f := fun a : String × PyValue => (a.1, encodeValue a.2)) ha)
  rw [serializeEvent, List.map_map]
  exact hvalid.names ▸ hnodup

/-- An event is read back, with the values restored. -/
theorem deserialize_serialize {registry : EventTypeRegistry EventClass.name} (fresh : Fresh)
    {event : Event} (hfind : registry.find event.cls.name = some event.cls)
    (hdecodable : event.cls.Decodable) (hvalid : event.Valid) :
    deserializeEvent registry fresh (serializeEvent event).1 (serializeEvent event).2 =
      .ok ⟨event.cls, event.attributes.map fun a => (a.1, a.2.restored)⟩ := by
  have hfields : List.Forall₂ (fun (field : Field) (a : String × PyValue) => a.1 = field.name ∧
      ∃ v, payloadValue fresh field (serializeEvent event).2 = .ok v ∧
        decodeValue field.type v = .ok a.2)
      event.cls.fields (event.attributes.map fun a => (a.1, a.2.restored)) := by
    rw [List.forall₂_map_right_iff, List.forall₂_iff_zip]
    refine ⟨List.Forall₂.length_eq hvalid, fun {field a} hmem => ?_⟩
    obtain ⟨hname, hinstance⟩ := (List.forall₂_iff_zip.1 hvalid).2 hmem
    obtain ⟨hfield, ha⟩ := List.of_mem_zip hmem
    refine ⟨hname, .json (encodeValue a.2), ?_,
      decodeValue_encodeValue (hdecodable.2 field hfield) hinstance⟩
    rw [payloadValue, ← hname, lookup_serializeEvent hdecodable.1 hvalid ha]
  have htype : (serializeEvent event).1 = event.cls.name := rfl
  simp only [deserializeEvent, htype, hfind, decodeFields_eq_ok hfields]

/-- The event that is read back equals the original, unless it has a time that does not. -/
theorem eq_restored (event : Event) :
    event.Eq ⟨event.cls, event.attributes.map fun a => (a.1, a.2.restored)⟩ ↔ ¬event.Lossy := by
  have hiff : event.Eq ⟨event.cls, event.attributes.map fun a => (a.1, a.2.restored)⟩ ↔
      ∀ a ∈ event.attributes, a.2.eq a.2.restored = true := by
    rw [Event.Eq, and_iff_right rfl, List.forall₂_map_right_iff, List.forall₂_same]
    simp
  rw [hiff, Event.Lossy]
  simp only [PyValue.eq_restored]
  push Not
  rfl

/-! ## Registered classes -/

omit [TimeZones] in
/-- Two of the registered classes have different names. -/
theorem nodup_registered : ((eventRegistries.flatMap (·.rows)).map EventClass.name).Nodup := by decide

omit [TimeZones] in
/-- The registries of the modules do not conflict. -/
theorem buildMergedEventRegistry_eq_ok : ∃ registry, buildMergedEventRegistry = .ok registry ∧
    ∀ cls, registry.find cls.name = some cls ↔ Registered cls := by
  have hcompatible :
      EventTypeRegistry.Compatible EventClass.name (eventRegistries.flatMap (·.rows)) :=
    fun _ hc _ hd => List.inj_on_of_nodup_map nodup_registered hc hd
  obtain ⟨registry, hregistry, hrows⟩ := EventTypeRegistry.mergeAll_eq_ok hcompatible
  refine ⟨registry, hregistry, fun cls => ?_⟩
  rw [Table.find_eq_some, and_iff_left rfl, hrows]
  rfl

omit [TimeZones] in
/-- The registered classes are found. -/
theorem find_merged {registry : EventTypeRegistry EventClass.name}
    (hregistry : buildMergedEventRegistry = .ok registry) {cls : EventClass}
    (h : Registered cls) : registry.find cls.name = some cls := by
  obtain ⟨registry', hregistry', hfind⟩ := buildMergedEventRegistry_eq_ok
  obtain rfl : registry' = registry := Except.ok.inj (hregistry'.symm.trans hregistry)
  exact (hfind cls).2 h

omit [TimeZones] in
/-- The fields of the registered classes can be decoded. -/
theorem Registered.decodable {cls : EventClass} (h : Registered cls) : cls.Decodable := by
  have hall : ∀ registry ∈ eventRegistries, ∀ cls ∈ registry.rows, cls.Decodable := by decide
  obtain ⟨registry, hregistry, hcls⟩ := h
  exact hall registry hregistry cls hcls

end Boat.Events
