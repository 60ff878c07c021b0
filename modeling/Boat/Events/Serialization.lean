import Boat.Core.IsoFormat
import Boat.Core.UuidText
import Boat.Events.Registry
import Boat.Json.Text

/-!
# Event serialization

Events in the outbox (`app/core/db/outbox/serialization.py`). An event is serialized field by
field, into values that JSON has, and deserialized by the annotations of the fields of its class:
classes, `X | None` and `list[X]`.
-/

namespace Boat.Events

/-! ## Classes and values -/

/-- A subclass of `StrEnum`, by the values of its members. -/
structure StrEnum where
  name : String
  members : List String
  deriving DecidableEq, Repr

/-- The classes that fields are annotated with. -/
inductive FieldType
  | uuid
  | datetime
  | strEnum (c : StrEnum)
  | str
  | int
  deriving DecidableEq, Repr

/-- An annotation. -/
inductive TypeHint
  | plain (type : FieldType)
  /-- `X | Y`, with none for `None`. -/
  | union (args : List (Option FieldType))
  /-- `list[X]`. -/
  | list (item : FieldType)
  deriving DecidableEq, Repr

/-- A value of a field: None, numbers, texts, and lists and dictionaries of these are those of
    JSON. -/
inductive PyValue
  | json (v : Json)
  | uuid (u : UUID)
  | datetime (d : DateTime)
  | enum (c : StrEnum) (value : String)
  deriving DecidableEq

inductive Factory
  /-- `uuid4`. -/
  | uuid4
  /-- `datetime.now(UTC)`. -/
  | now
  deriving DecidableEq, Repr

/-- The default of a field. -/
inductive Default
  | missing
  | value (v : PyValue)
  | factory (f : Factory)
  deriving DecidableEq

/-- `dataclasses.Field`. -/
structure Field where
  name : String
  type : TypeHint
  default : Default
  deriving DecidableEq

/-- A subclass of `DomainEvent`. -/
structure EventClass where
  module : String
  name : String
  fields : List Field
  deriving DecidableEq

/-- An event: its class, and its attributes in the order of the fields. -/
structure Event where
  cls : EventClass
  attributes : List (String × PyValue)
  deriving DecidableEq

/-- What the default factories return. -/
structure Fresh where
  uuid4 : UUID
  now : DateTime

/-- The exceptions that publishing and deserialization raise. -/
inductive PyError
  | valueError
  | typeError
  | attributeError
  | overflowError
  | keyError (name : String)
  | unregisteredEventType (eventType : String)
  deriving DecidableEq, Repr

/-! ## Serialization -/

section

variable [TimeZones]

/-- `_encode_value`. -/
def encodeValue : PyValue → Json
  | .uuid u => .str u.str
  | .datetime d => .str d.isoformat
  | .enum _ value => .str value
  | .json v => v

/-- `serialize_event`. -/
def serializeEvent (event : Event) : String × List (String × Json) :=
  (event.cls.name, event.attributes.map fun (name, value) => (name, encodeValue value))

end

/-- The only one of `__args__` that is not `None`. -/
def onlyArg (args : List (Option FieldType)) : Option FieldType :=
  match args.filterMap id with
  | [type] => some type
  | _ => none

/-- The `underlying_type` of `_decode_value`, if it is a class. -/
def TypeHint.underlyingType : TypeHint → Option FieldType
  | .plain type => some type
  | .union args => onlyArg args
  | .list item => onlyArg [some item]

/-- The text of a value that is a `str`. -/
def PyValue.str? : PyValue → Option String
  | .json (.str s) => some s
  | .enum _ s => some s
  | _ => none

/-- `_decode_value`. -/
def decodeValue (fieldType : TypeHint) (value : PyValue) : Except PyError PyValue :=
  if value = .json .null then .ok value
  else
    match fieldType.underlyingType with
    | some .uuid =>
      match value.str? with
      | none => .error .attributeError
      | some s =>
        match UUID.parse s with
        | none => .error .valueError
        | some u => .ok (.uuid u)
    | some .datetime =>
      match value.str? with
      | none => .error .typeError
      | some s =>
        match DateTime.fromisoformat s with
        | none => .error .valueError
        | some d => .ok (.datetime d)
    | some (.strEnum c) =>
      match value.str? with
      | none => .error .valueError
      | some s => if s ∈ c.members then .ok (.enum c s) else .error .valueError
    | some .str | some .int | none => .ok value

/-- `_payload_value`. -/
def payloadValue (fresh : Fresh) (field : Field)
    (payload : List (String × Json)) : Except PyError PyValue :=
  match payload.lookup field.name with
  | some v => .ok (.json v)
  | none =>
    match field.default with
    | .value v => .ok v
    | .factory .uuid4 => .ok (.uuid fresh.uuid4)
    | .factory .now => .ok (.datetime fresh.now)
    | .missing => .error (.keyError field.name)

/-- The attributes that `deserialize_event` creates the event with. -/
def decodeFields (fresh : Fresh) (payload : List (String × Json)) :
    List Field → Except PyError (List (String × PyValue))
  | [] => .ok []
  | field :: fields =>
    match payloadValue fresh field payload with
    | .error e => .error e
    | .ok v =>
      match decodeValue field.type v with
      | .error e => .error e
      | .ok v =>
        match decodeFields fresh payload fields with
        | .error e => .error e
        | .ok attributes => .ok ((field.name, v) :: attributes)

/-- `deserialize_event`. -/
def deserializeEvent (registry : EventTypeRegistry EventClass.name) (fresh : Fresh)
    (eventType : String) (payload : List (String × Json)) : Except PyError Event :=
  match registry.find eventType with
  | none => .error (.unregisteredEventType eventType)
  | some cls =>
    match decodeFields fresh payload cls.fields with
    | .error e => .error e
    | .ok attributes => .ok ⟨cls, attributes⟩

/-- A payload in its column: JSON text that is read again. -/
def storedPayload (payload : List (String × Json)) : Option (List (String × Json)) :=
  match Json.loads (Json.dumps (.obj payload)) with
  | some (.obj payload) => some payload
  | _ => none

/-! ## Instances -/

/-- The values that are instances of a class. -/
def FieldType.HasInstance : FieldType → PyValue → Prop
  | .uuid, .uuid _ => True
  | .datetime, .datetime _ => True
  | .strEnum c, .enum d value => d = c ∧ value ∈ c.members
  | .str, .json (.str _) => True
  | .int, .json (.int _) => True
  | _, _ => False

/-- The values that an annotation allows. -/
def TypeHint.HasInstance : TypeHint → PyValue → Prop
  | .plain type, v => type.HasInstance v
  | .union args, v => none ∈ args ∧ v = .json .null ∨ ∃ type, some type ∈ args ∧ type.HasInstance v
  | .list item, v => ∃ items, v = .json (.arr items) ∧ ∀ i ∈ items, item.HasInstance (.json i)

/-- The event has the fields of its class, with values that they allow. -/
def Event.Valid (event : Event) : Prop :=
  List.Forall₂ (fun (field : Field) (a : String × PyValue) =>
    a.1 = field.name ∧ field.type.HasInstance a.2)
    event.cls.fields event.attributes

/-- `v == w`, of values of one type. -/
def PyValue.eq [TimeZones] : PyValue → PyValue → Bool
  | .datetime d, .datetime e => d.eq e
  | v, w => v = w

/-- `event == other`, as dataclasses compare: one class, and equal fields. -/
def Event.Eq [TimeZones] (event other : Event) : Prop :=
  event.cls = other.cls ∧
    List.Forall₂
      (fun a b : String × PyValue => a.1 = b.1 ∧ a.2.eq b.2 = true) event.attributes other.attributes

/-- The event has a time whose offset depends on the fold, or is less than a second from UTC. -/
def Event.Lossy [TimeZones] (event : Event) : Prop :=
  ∃ a ∈ event.attributes, ∃ d, a.2 = .datetime d ∧ (d.Folded ∨ d.Subsecond)

end Boat.Events
