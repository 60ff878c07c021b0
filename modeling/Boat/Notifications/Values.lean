import Boat.Core.Domain
import Boat.Text.Strip

/-!
# Notifications: value objects

The texts of a notification (`app/modules/notifications/domain/value_objects.py`) are not
empty, have no white space at their ends, and are not too long (`Text`); so are the
texts of a schedule rule. A notification is created from such values (`UserNotification`),
or refused with the details of all that are invalid.
-/

namespace Boat

/-! ## Texts -/

/-- Text without white space at its ends, of at most `maxLength` characters. -/
structure Text (maxLength : ℕ) where
  value : String
  ne_empty : value ≠ ""
  stripped : strip value = value
  length_le : value.length ≤ maxLength
  deriving DecidableEq, Repr

/-- The check of a text, which names the field. -/
def Text.create (maxLength : ℕ) (field message value : String) : Validated (Text maxLength) :=
  if h : value ≠ "" ∧ strip value = value ∧
    value.length ≤ maxLength then .ok ⟨value, h.1, h.2.1, h.2.2⟩
  else .error [⟨field, message⟩]

/-- `NotificationKind(value)`. -/
def NotificationKind.create (value : String) : Validated (Text 50) :=
  Text.create 50 "kind" "알림 유형이 올바르지 않습니다." value

/-- `NotificationTitle.MAX_LENGTH`. -/
def NotificationTitle.maxLength : ℕ := 100

/-- `NotificationTitle(value)`. -/
def NotificationTitle.create (value : String) : Validated (Text NotificationTitle.maxLength) :=
  Text.create NotificationTitle.maxLength "title" "알림 제목이 올바르지 않습니다." value

/-- `NotificationMessage.MAX_LENGTH`. -/
def NotificationMessage.maxLength : ℕ := 255

/-- `NotificationMessage(value)`. -/
def NotificationMessage.create (value : String) : Validated (Text NotificationMessage.maxLength) :=
  Text.create NotificationMessage.maxLength "message" "알림 문구가 올바르지 않습니다." value

/-- `ResourceType(value)`. -/
def ResourceType.create (value : String) : Validated (Text 50) :=
  Text.create 50 "resourceType" "리소스 유형이 올바르지 않습니다." value

theorem Text.isOk_create {maxLength : ℕ} {field message value : String} :
    (Text.create maxLength field message value).isOk ↔
      value ≠ "" ∧ strip value = value ∧ value.length ≤ maxLength := by
  unfold Text.create
  split <;> next h => simp [h, Except.isOk, Except.toBool]

/-! ## Metadata -/

inductive NotificationCategory
  | productManagement
  | warranty
  | benefit
  deriving DecidableEq, Repr

inductive NotificationMessageType
  | transactional
  | marketing
  deriving DecidableEq, Repr

/-- The check of one item of the metadata. -/
def NotificationMetadata.validateItem (item : String × String) : Validated Unit :=
  if strip item.1 ≠ item.1 ∨ ¬(1 ≤ item.1.length ∧ item.1.length ≤ 40) then
    .error [⟨"metadata", "metadata 키는 1~40자이며 앞뒤 공백이 없어야 합니다."⟩]
  else if 500 < item.2.length then
    .error [⟨"metadata", "metadata 값은 문자열이며 500자를 넘을 수 없습니다."⟩]
  else .ok ()

/-- `NotificationMetadata.validate`: the first item that is invalid raises. -/
def NotificationMetadata.validate (items : List (String × String)) : Validated Unit :=
  if 50 < items.length then .error [⟨"metadata", "metadata는 최대 50개 키까지 허용됩니다."⟩]
  else items.forM validateItem

/-- `NotificationMetadata`: the items of a `dict`. -/
structure NotificationMetadata where
  value : List (String × String)
  valid : NotificationMetadata.validate value = .ok ()
  deriving DecidableEq

/-- `NotificationMetadata(value)`. -/
def NotificationMetadata.create (value : List (String × String)) : Validated NotificationMetadata :=
  match h : NotificationMetadata.validate value with
  | .ok () => .ok ⟨value, h⟩
  | .error details => .error details

theorem NotificationMetadata.validateItem_ok {key value : String}
    (hkey : strip key = key ∧ 1 ≤ key.length ∧ key.length ≤ 40) (hvalue : value.length ≤ 500) :
    validateItem (key, value) = .ok () := by
  rw [validateItem, if_neg, if_neg]
  · exact hvalue.not_gt
  · rw [not_or, not_not, not_not]
    exact hkey

theorem NotificationMetadata.isOk_create {value : List (String × String)} :
    (NotificationMetadata.create value).isOk ↔ NotificationMetadata.validate value = .ok () := by
  unfold NotificationMetadata.create
  split <;> next h => simp [h, Except.isOk, Except.toBool]

/-! ## Notifications -/

/-- `CreateNotificationCommand`. -/
structure CreateNotificationCommand where
  userId : UUID
  category : NotificationCategory
  messageType : NotificationMessageType
  kind : String
  title : String
  message : String
  resourceType : Option String
  resourceId : Option UUID
  metadata : List (String × String)
  deriving DecidableEq, Repr

/-- `UserNotification`. -/
structure UserNotification where
  id : UUID
  userId : UUID
  category : NotificationCategory
  messageType : NotificationMessageType
  kind : Text 50
  title : Text NotificationTitle.maxLength
  message : Text NotificationMessage.maxLength
  resourceType : Option (Text 50)
  resourceId : Option UUID
  metadata : NotificationMetadata
  createdAt : Instant
  readAt : Option Instant
  deriving DecidableEq

/-- `_validate_resource_pair`. -/
def validateResourcePair (resourceType : Option String) (resourceId : Option UUID) : Validated Unit :=
  if resourceType.isNone ≠ resourceId.isNone then
    .error [⟨"resource", "리소스 유형과 리소스 ID는 함께 있거나 함께 없어야 합니다."⟩]
  else .ok ()

namespace UserNotification

/-- The details of a command that is invalid, in the order of the checks. -/
def details (command : CreateNotificationCommand) : List ErrorDetail :=
  (NotificationKind.create command.kind).details ++
    (NotificationTitle.create command.title).details ++
    (NotificationMessage.create command.message).details ++
    (command.resourceType.mapM ResourceType.create).details ++
    (validateResourcePair command.resourceType command.resourceId).details ++
    (NotificationMetadata.create command.metadata).details

/-- `UserNotification.create`, with the identity that `uuid4` returns. -/
def create (command : CreateNotificationCommand) (createdAt : Instant) (id : UUID) :
    Except DomainError UserNotification :=
  match NotificationKind.create command.kind, NotificationTitle.create command.title,
    NotificationMessage.create command.message, command.resourceType.mapM ResourceType.create,
    validateResourcePair command.resourceType command.resourceId,
    NotificationMetadata.create command.metadata with
  | .ok kind, .ok title, .ok message, .ok resourceType, .ok _, .ok metadata =>
    .ok {
      id, kind, title, message, resourceType, metadata, createdAt
      userId := command.userId
      category := command.category
      messageType := command.messageType
      resourceId := command.resourceId
      readAt := none }
  | _, _, _, _, _, _ => .error (.validation (details command))

/-- A notification is created if every check succeeds; otherwise all details are raised. -/
theorem isOk_create {command : CreateNotificationCommand} {createdAt : Instant} {id : UUID} :
    (create command createdAt id).isOk ↔ (NotificationKind.create command.kind).isOk ∧
      (NotificationTitle.create command.title).isOk ∧
      (NotificationMessage.create command.message).isOk ∧
      (command.resourceType.mapM ResourceType.create).isOk ∧
      (validateResourcePair command.resourceType command.resourceId).isOk ∧
      (NotificationMetadata.create command.metadata).isOk := by
  unfold create
  split
  · next h₁ h₂ h₃ h₄ h₅ h₆ => simp [h₁, h₂, h₃, h₄, h₅, h₆, Except.isOk, Except.toBool]
  · next hno =>
    constructor
    · intro h
      cases h
    · simp only [isOk_iff]
      rintro ⟨⟨_, h₁⟩, ⟨_, h₂⟩, ⟨_, h₃⟩, ⟨_, h₄⟩, ⟨_, h₅⟩, ⟨_, h₆⟩⟩
      exact absurd h₆ (hno _ _ _ _ _ _ h₁ h₂ h₃ h₄ h₅)

end UserNotification

end Boat
