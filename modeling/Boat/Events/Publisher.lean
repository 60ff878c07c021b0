import Boat.Core.TimeCursor
import Boat.Events.RoundTrip
import Boat.Outbox.Workers

/-!
# Publishing events

The rows of published events (`app/core/db/outbox/publisher.py`), and what is read back from
their payloads.

* Events of the registered classes survive: what is read back equals the event, unless it has a time
  whose offset depends on the fold or is lost, and has the same values in any case (`events_survive`);
* their rows have the time of the event that is read back (`original_of_publish`), by which an
  immediate dispatcher tells that they are unclaimed.
-/

namespace Boat.Events

variable [TimeZones]

/-- The identity and the time of an event. -/
def Event.toDomainEvent (event : Event) : Option DomainEvent :=
  match event.attributes.lookup "event_id", event.attributes.lookup "occurred_at" with
  | some (.uuid eventId), some (.datetime occurredAt) => some ⟨eventId, occurredAt.instant⟩
  | _, _ => none

/-- `OutboxEventPublisher.publish`: the row of an event, which gets the next `id`. The driver writes
    its time in UTC. -/
def publish (registry : EventTypeRegistry EventClass.name) (id : ℤ) (event : Event) :
    Except PyError (OutboxRow String) :=
  match registry.find (serializeEvent event).1 with
  | none => .error (.unregisteredEventType (serializeEvent event).1)
  | some _ =>
    match event.toDomainEvent with
    | none => .error .attributeError
    | some e =>
      if 1 ≤ utcDay e.occurredAt ∧ utcDay e.occurredAt ≤ 3652059 then
        .ok ⟨id, e.eventId, (serializeEvent event).1, Json.dumps (.obj (serializeEvent event).2),
          e.occurredAt, 0⟩
      else .error .overflowError

/-- What is read back from a payload, which is text in its column. -/
def readEvent (registry : EventTypeRegistry EventClass.name) (fresh : Fresh)
    (eventType text : String) :
    Option DomainEvent :=
  match Json.loads text with
  | some (.obj payload) =>
    match deserializeEvent registry fresh eventType payload with
    | .ok event => event.toDomainEvent
    | .error _ => none
  | _ => none

/-- The outbox, with a registry. -/
@[reducible] def payloadRegistry (registry : EventTypeRegistry EventClass.name) (fresh : Fresh) :
    Boat.EventTypeRegistry String :=
  ⟨readEvent registry fresh⟩

/-! ## Rows -/

omit [TimeZones] in
/-- A field of the class is found in the event, with a value that it allows. -/
theorem Event.Valid.lookup {event : Event} (hvalid : event.Valid) {name : String} {field : Field}
    (hfield : event.cls.fields.find? (·.name = name) = some field) :
    ∃ v, event.attributes.lookup name = some v ∧ field.type.HasInstance v := by
  obtain ⟨⟨_, _, fields⟩, attributes⟩ := event
  replace hvalid : List.Forall₂ (fun (field : Field) (a : String × PyValue) => a.1 = field.name ∧
      field.type.HasInstance a.2) fields attributes := hvalid
  dsimp only at hfield ⊢
  induction hvalid with
  | nil => cases hfield
  | @cons first a fields attributes h _ ih =>
    obtain ⟨_, v⟩ := a
    obtain ⟨rfl, hv⟩ := h
    rw [List.find?_cons] at hfield
    rw [List.lookup_cons]
    by_cases hname : first.name = name
    · simp only [hname, decide_true, Option.some.injEq] at hfield
      subst hfield
      exact ⟨v, by simp [hname], hv⟩
    · simp only [hname, decide_false] at hfield
      have hname : (name == first.name) = false := beq_eq_false_iff_ne.2 (Ne.symm hname)
      rw [hname]
      exact ih hfield

omit [TimeZones] in
theorem FieldType.hasInstance_uuid {v : PyValue}
    (h : FieldType.uuid.HasInstance v) : ∃ u, v = .uuid u := by
  rcases v with v | u | d | ⟨c, value⟩
  · exact h.elim
  · exact ⟨u, rfl⟩
  · exact h.elim
  · exact h.elim

omit [TimeZones] in
theorem FieldType.hasInstance_datetime {v : PyValue}
    (h : FieldType.datetime.HasInstance v) : ∃ d, v = .datetime d := by
  rcases v with v | u | d | ⟨c, value⟩
  · exact h.elim
  · exact h.elim
  · exact ⟨d, rfl⟩
  · exact h.elim

/-- An attribute that is read back. -/
theorem lookup_restored (event : Event) (name : String) :
    (event.attributes.map fun a => (a.1, a.2.restored)).lookup name =
      (event.attributes.lookup name).map PyValue.restored := by
  induction event.attributes with
  | nil => rfl
  | cons a attributes ih =>
    rw [List.map_cons, List.lookup_cons, List.lookup_cons, ih]
    split
    · rfl
    · rfl

omit [TimeZones] in
/-- Events of the registered classes have an identity and a time. -/
theorem Registered.fields {cls : EventClass} (h : Registered cls) :
    ∃ eventId occurredAt : Field, cls.fields.find? (·.name = "event_id") = some eventId ∧
    eventId.type = uuid ∧
      cls.fields.find? (·.name = "occurred_at") = some occurredAt ∧
      occurredAt.type = .plain .datetime := by
  have hall : ∀ registry ∈ eventRegistries, ∀ cls ∈ registry.rows,
      cls.fields.take 3 = domainEventFields := by decide
  obtain ⟨registry, hregistry, hcls⟩ := h
  have htake := hall registry hregistry cls hcls
  rw [← List.take_append_drop 3 cls.fields, htake]
  exact ⟨_, _, rfl, rfl, rfl, rfl⟩

omit [TimeZones] in
/-- Every event has an identity and a time. -/
theorem Event.Valid.identity {event : Event} (hregistered : Registered event.cls)
    (hvalid : event.Valid) :
    ∃ u d, event.attributes.lookup "event_id" = some (.uuid u) ∧
      event.attributes.lookup "occurred_at" = some (.datetime d) := by
  obtain ⟨eventId, occurredAt, heventId, hid, hoccurredAt, hat⟩ := hregistered.fields
  obtain ⟨v, hv, hinstance⟩ := hvalid.lookup heventId
  obtain ⟨w, hw, hinstance'⟩ := hvalid.lookup hoccurredAt
  rw [hid] at hinstance
  rw [hat] at hinstance'
  obtain ⟨u, rfl⟩ := FieldType.hasInstance_uuid hinstance
  obtain ⟨d, rfl⟩ := FieldType.hasInstance_datetime hinstance'
  exact ⟨u, d, hv, hw⟩

/-- The event that is read back has the identity, and the time that is read. -/
theorem toDomainEvent_restored {event : Event} {u : UUID} {d : DateTime}
    (hid : event.attributes.lookup "event_id" = some (.uuid u))
    (hat : event.attributes.lookup "occurred_at" = some (.datetime d)) :
    (⟨event.cls, event.attributes.map fun a => (a.1, a.2.restored)⟩ : Event).toDomainEvent =
      some ⟨u, d.readBack.instant⟩ := by
  rw [Event.toDomainEvent, lookup_restored, lookup_restored, hid, hat]
  rfl

/-- A module publishes the events of its classes, as far as their times are those of UTC. The time
    of the row is the one that is read back, unless its offset is lost. -/
theorem original_of_publish {registry merged : EventTypeRegistry EventClass.name}
    (hmerged : buildMergedEventRegistry = .ok merged) (hregistry : registry ∈ eventRegistries)
    (fresh : Fresh) (id : ℤ) {event : Event} (hcls : event.cls ∈ registry.rows)
    (hvalid : event.Valid) {u : UUID} {d : DateTime}
    (hid : event.attributes.lookup "event_id" = some (.uuid u))
    (hat : event.attributes.lookup "occurred_at" = some (.datetime d)) (hutc : d.InUtc) :
    letI := payloadRegistry merged fresh
    ∃ row, publish registry id event = .ok row ∧ row.eventId = u ∧ row.occurredAt = d.instant ∧
      (row.Original ↔ ¬d.Subsecond) := by
  have hregistered : Registered event.cls := ⟨registry, hregistry, hcls⟩
  have he : event.toDomainEvent = some ⟨u, d.instant⟩ := by rw [Event.toDomainEvent, hid, hat]
  have hresolve : registry.find (serializeEvent event).1 = some event.cls :=
    Table.find_eq_some.2 ⟨hcls, rfl⟩
  have hread :
      readEvent merged fresh (serializeEvent event).1 (Json.dumps (.obj (serializeEvent event).2)) =
        some ⟨u, d.readBack.instant⟩ := by
    have hdeserialize :=
      deserialize_serialize fresh (find_merged hmerged hregistered) hregistered.decodable hvalid
    rw [readEvent, Json.loads_dumps]
    simp only [hdeserialize, toDomainEvent_restored hid hat]
  refine ⟨⟨id, u, (serializeEvent event).1, Json.dumps (.obj (serializeEvent event).2), d.instant,
    0⟩, ?_, rfl, rfl, ?_⟩
  · rw [publish, hresolve, he]
    exact if_pos hutc
  · rw [← DateTime.instant_readBack]
    constructor
    · rintro ⟨-, e, he, heq⟩
      obtain rfl := Option.some.inj (hread.symm.trans he)
      exact heq
    · exact fun heq => ⟨rfl, _, hread, heq⟩

/-! ## Events survive -/

/-- What is kept of a value: all but the zone of a datetime, and its offset if that is lost. -/
def PyValue.Kept : PyValue → PyValue → Prop
  | .datetime d, w => ∃ e, w = .datetime e ∧ e.date = d.date ∧ e.time = d.time ∧
      (¬d.Subsecond → e.utcoffset = d.utcoffset ∧ e.instant = d.instant)
  | v, w => w = v

theorem PyValue.kept_restored (v : PyValue) : v.Kept v.restored := by
  rcases v with v | u | d | ⟨c, value⟩
  · rfl
  · rfl
  · exact ⟨d.readBack, rfl, rfl, rfl, fun h =>
      ⟨DateTime.utcoffset_readBack h, DateTime.instant_readBack.2 h⟩⟩
  · rfl

/-- An event that a module publishes is read back from its payload, with every value kept: it equals
    the original unless it has a time whose offset depends on the fold or is lost, and the row has
    its time unless that is one of an offset that is lost. Merging registries in any order finds the
    same classes, unless two classes share a name. -/
theorem events_survive (fresh : Fresh) (id : ℤ) (event : Event)
    (registry : EventTypeRegistry EventClass.name) (hregistry : registry ∈ eventRegistries)
    (hcls : event.cls ∈ registry.rows) (hvalid : event.Valid) :
    (∃ merged payload restored, buildMergedEventRegistry = .ok merged ∧
      storedPayload (serializeEvent event).2 = some payload ∧
      deserializeEvent merged fresh (serializeEvent event).1 payload = .ok restored ∧
      restored.cls = event.cls ∧
      List.Forall₂ (fun a b : String × PyValue => b.1 = a.1 ∧
        a.2.Kept b.2) event.attributes restored.attributes ∧
      (event.Eq restored ↔ ¬event.Lossy) ∧
      letI := payloadRegistry merged fresh
      ∃ u d, event.attributes.lookup "event_id" = some (.uuid u) ∧
        event.attributes.lookup "occurred_at" = some (.datetime d) ∧
        restored.attributes.lookup "event_id" = some (.uuid u) ∧
        (d.InUtc → ∃ row, publish registry id event = .ok row ∧ row.eventId = u ∧
          row.occurredAt = d.instant ∧
          (row.Original ↔ ¬d.Subsecond))) ∧
    ∀ (κ : Type) (_ : DecidableEq κ) (name : κ → String)
      (registries registries' : List (EventTypeRegistry name)),
      registries.Perm registries' →
      ((∃ e, EventTypeRegistry.mergeAll registries = .error e) ↔
        ∃ registry ∈ registries, ∃ c ∈ registry.rows, ∃ other ∈ registries, ∃ d ∈ other.rows,
          name c = name d ∧ c ≠ d) ∧
      ∀ merged, EventTypeRegistry.mergeAll registries = .ok merged → ∃ merged',
        EventTypeRegistry.mergeAll registries' = .ok merged' ∧
        ∀ eventType, merged'.find eventType = merged.find eventType := by
  constructor
  · have hregistered : Registered event.cls := ⟨registry, hregistry, hcls⟩
    obtain ⟨merged, hmerged, -⟩ := buildMergedEventRegistry_eq_ok
    obtain ⟨u, d, hid, hat⟩ := hvalid.identity hregistered
    have hdeserialize :=
      deserialize_serialize fresh (find_merged hmerged hregistered) hregistered.decodable hvalid
    refine ⟨merged, (serializeEvent event).2, _, hmerged, storedPayload_eq _, hdeserialize, rfl, ?_,
      eq_restored event, u, d, hid, hat, ?_,
        original_of_publish hmerged hregistry fresh id hcls hvalid hid hat⟩
    · rw [List.forall₂_map_right_iff, List.forall₂_same]
      exact fun a _ => ⟨rfl, a.2.kept_restored⟩
    · rw [lookup_restored, hid]
      rfl
  · intro κ _ name registries registries' hperm
    exact ⟨EventTypeRegistry.mergeAll_error_iff registries,
      fun merged hmerged => EventTypeRegistry.mergeAll_perm hperm hmerged⟩

/-! ## A time that occurs twice -/

/-- Zones in which the clocks of New York are set back on 1 November 2026. -/
@[reducible] def newYork : TimeZones where
  utcoffset key date time fold :=
    if key = "America/New_York" then
      if date = ⟨2026, 11, 1, by decide⟩ ∧ (time.hour < 1 ∨ time.hour = 1 ∧ fold = false) then
        ⟨-14400000000, by decide⟩
      else ⟨-18000000000, by decide⟩
    else ⟨0, UtcOffset.zero_lt⟩

/-- A time that occurs twice in New York. -/
def halfPastOne : DateTime :=
  ⟨⟨2026, 11, 1, by decide⟩, ⟨1, 30, 0, 0, by decide⟩, false, .zoneInfo "America/New_York"⟩

/-- A withdrawal at a time. -/
def userWithdrawn (occurredAt : DateTime) : Event :=
  ⟨UserWithdrawn, [("event_id", .uuid (.ofNat 1)), ("occurred_at", .datetime occurredAt),
    ("event_version", .json (.int 1)), ("user_id", .uuid (.ofNat 2))]⟩

omit [TimeZones] in
theorem userWithdrawn_registered : buildUsersEventRegistry ∈ eventRegistries ∧
    UserWithdrawn ∈ buildUsersEventRegistry.rows :=
  ⟨by simp [eventRegistries], by decide⟩

omit [TimeZones] in
theorem userWithdrawn_valid (occurredAt : DateTime) : (userWithdrawn occurredAt).Valid := by
  refine .cons ⟨rfl, trivial⟩
    (.cons ⟨rfl, trivial⟩ (.cons ⟨rfl, trivial⟩ (.cons ⟨rfl, trivial⟩ .nil)))

omit [TimeZones] in
theorem halfPastOne_differs : letI := newYork
    Registered (userWithdrawn halfPastOne).cls ∧ (userWithdrawn halfPastOne).Valid ∧
      ∀ (fresh : Fresh) merged payload restored, buildMergedEventRegistry = .ok merged →
        storedPayload (serializeEvent (userWithdrawn halfPastOne)).2 = some payload →
        deserializeEvent merged fresh (serializeEvent (userWithdrawn halfPastOne)).1 payload =
          .ok restored →
        ¬(userWithdrawn halfPastOne).Eq restored := by
  let _ := newYork
  have hregistered : Registered (userWithdrawn halfPastOne).cls := ⟨_, userWithdrawn_registered⟩
  have hvalid := userWithdrawn_valid halfPastOne
  refine ⟨hregistered, hvalid, ?_⟩
  intro fresh merged payload restored hmerged hpayload hrestored heq
  obtain rfl := Option.some.inj ((storedPayload_eq _).symm.trans hpayload)
  obtain rfl := Except.ok.inj
    ((deserialize_serialize fresh
      (find_merged hmerged hregistered) hregistered.decodable hvalid).symm.trans hrestored)
  have hfolded : halfPastOne.Folded := by decide
  exact (eq_restored _).1 heq
    ⟨("occurred_at", .datetime halfPastOne), by simp [userWithdrawn], halfPastOne, rfl, .inl hfolded⟩

omit [TimeZones] in
theorem november_valid : (1 ≤ 2026 ∧ 2026 ≤ 9999) ∧ (1 ≤ 11 ∧ 11 ≤ 12) ∧ 1 ≤ 1 ∧
    1 ≤ monthDays (2026 : ℕ) 11 := by
  decide

/-- A time of UTC. -/
def noon : DateTime :=
  ⟨⟨2026, 11, 1, november_valid⟩, ⟨12, 0, 0, 0, by decide⟩, false, .timezone .utc⟩

/-- A withdrawal has no other time than its own. -/
theorem lossy_userWithdrawn {occurredAt : DateTime} :
    (userWithdrawn occurredAt).Lossy ↔ occurredAt.Folded ∨ occurredAt.Subsecond := by
  simp [Event.Lossy, userWithdrawn]

omit [TimeZones] in
theorem events_survive_userWithdrawn : letI := newYork
    buildUsersEventRegistry ∈ eventRegistries ∧ UserWithdrawn ∈ buildUsersEventRegistry.rows ∧
      (userWithdrawn noon).Valid ∧ (userWithdrawn halfPastOne).Valid ∧
      (∃ merged payload restored, buildMergedEventRegistry = .ok merged ∧
        storedPayload (serializeEvent (userWithdrawn noon)).2 = some payload ∧
        deserializeEvent merged ⟨.ofNat 3, noon⟩ (serializeEvent (userWithdrawn noon)).1 payload =
          .ok restored ∧
        (userWithdrawn noon).Eq restored ∧
        letI := payloadRegistry merged ⟨.ofNat 3, noon⟩
        ∃ row, publish buildUsersEventRegistry 1 (userWithdrawn noon) = .ok row ∧
          row.eventId = .ofNat 1 ∧
          row.Original) ∧
      ∃ merged payload restored, buildMergedEventRegistry = .ok merged ∧
        storedPayload (serializeEvent (userWithdrawn halfPastOne)).2 = some payload ∧
        deserializeEvent merged ⟨.ofNat 3, noon⟩
          (serializeEvent (userWithdrawn halfPastOne)).1 payload = .ok restored ∧
        ¬(userWithdrawn halfPastOne).Eq restored ∧
          restored.attributes.lookup "event_id" = some (.uuid (.ofNat 1)) ∧
        letI := payloadRegistry merged ⟨.ofNat 3, noon⟩
        ∃ row, publish buildUsersEventRegistry 2 (userWithdrawn halfPastOne) = .ok row ∧
          row.Original := by
  let _ := newYork
  obtain ⟨hregistry, hcls⟩ := userWithdrawn_registered
  have hvalid := userWithdrawn_valid noon
  have hvalid' := userWithdrawn_valid halfPastOne
  obtain ⟨merged, payload, restored, hmerged, hpayload, hrestored, -, -, heq, u, d, hid, hat,
    -, hrow⟩ :=
    (events_survive ⟨.ofNat 3, noon⟩ 1 (userWithdrawn noon) _ hregistry hcls hvalid).1
  obtain ⟨merged', payload', restored', hmerged', hpayload', hrestored', -, -, heq', u', d', hid',
    hat', hkept, hrow'⟩ :=
    (events_survive ⟨.ofNat 3, noon⟩ 2 (userWithdrawn halfPastOne) _ hregistry hcls hvalid').1
  obtain rfl : .ofNat 1 = u := PyValue.uuid.inj (Option.some.inj hid)
  obtain rfl : noon = d := PyValue.datetime.inj (Option.some.inj hat)
  obtain rfl : .ofNat 1 = u' := PyValue.uuid.inj (Option.some.inj hid')
  obtain rfl : halfPastOne = d' := PyValue.datetime.inj (Option.some.inj hat')
  obtain ⟨row, hpublish, hrowId, -, horiginal⟩ := hrow (DateTime.inUtc_of_utc rfl)
  obtain ⟨row', hpublish', -, -, horiginal'⟩ := hrow' (show _ ∧ _ by decide +kernel)
  have hnoon : ¬noon.Folded ∧ ¬noon.Subsecond := by decide
  have hfolded : halfPastOne.Folded ∧ ¬halfPastOne.Subsecond := by decide
  refine ⟨hregistry, hcls, hvalid, hvalid',
    ⟨merged, payload, restored, hmerged, hpayload, hrestored, ?_, row, hpublish,
    hrowId, horiginal.2 hnoon.2⟩, merged', payload', restored', hmerged', hpayload', hrestored', ?_,
      hkept, row',
    hpublish', horiginal'.2 hfolded.2⟩
  · exact heq.2 fun h => (lossy_userWithdrawn.1 h).elim hnoon.1 hnoon.2
  · exact fun h => heq'.1 h (lossy_userWithdrawn.2 (.inl hfolded.1))

end Boat.Events
