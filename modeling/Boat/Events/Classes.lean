import Boat.Events.Serialization

/-!
# Event classes

The events of the modules (`app/modules/*/domain/events.py`), and the registries of the
modules, which `main.py` merges.
-/

namespace Boat.Events

/-! ## Enumerations -/

def NotificationMessageType : StrEnum := ⟨"NotificationMessageType", ["transactional", "marketing"]⟩

def NotificationCategory : StrEnum :=
  ⟨"NotificationCategory", ["product_management", "warranty", "benefit"]⟩

def CreditReason : StrEnum :=
  ⟨"CreditReason", ["monthlyOcrAllowance", "eventOcrAllowance", "ocrUsage"]⟩

def CreditSourceType : StrEnum :=
  ⟨"CreditSourceType", ["promotionRedemption", "monthlyAllowance", "ocrAnalysis"]⟩

/-! ## Classes -/

/-- A field without a default. -/
def required (name : String) (type : TypeHint) : Field := ⟨name, type, .missing⟩

def uuid : TypeHint := .plain .uuid
def str : TypeHint := .plain .str
def int : TypeHint := .plain .int
def enum (c : StrEnum) : TypeHint := .plain (.strEnum c)

/-- `type | None`. -/
def optional (type : FieldType) : TypeHint := .union [some type, none]

/-- The fields of `DomainEvent`. -/
def domainEventFields : List Field :=
  [⟨"event_id", uuid, .factory .uuid4⟩, ⟨"occurred_at", .plain .datetime, .factory .now⟩,
    ⟨"event_version", int, .value (.json (.int 1))⟩]

/-- A subclass of `DomainEvent`, with its own fields. -/
def domainEvent (module name : String) (fields : List Field) : EventClass :=
  ⟨module, name, domainEventFields ++ fields⟩

def NotificationCreated :
    EventClass := domainEvent "app.modules.notifications.domain.events" "NotificationCreated"
  [required "notification_id" uuid, required "user_id" uuid,
    required "message_type" (enum NotificationMessageType), required "kind" str,
    required "title" str, required "message" str, required "resource_type" (optional .str),
    required "resource_id" (optional .uuid),
    ⟨"category", enum NotificationCategory, .value (.enum NotificationCategory "product_management")⟩]

def CreditGranted : EventClass := domainEvent "app.modules.credits.domain.events" "CreditGranted"
  [required "user_id" uuid, required "amount" int, required "reason" (enum CreditReason),
    required "source_type" (optional (.strEnum CreditSourceType)),
      required "source_id" (optional .uuid),
    required "idempotency_key" (optional .str)]

def CreditUsed : EventClass := domainEvent "app.modules.credits.domain.events" "CreditUsed"
  [required "user_id" uuid, required "amount" int, required "reason" (enum CreditReason)]

def UserCreditsDeleted :
    EventClass := domainEvent "app.modules.credits.domain.events" "UserCreditsDeleted"
  [required "user_id" uuid]

def PromotionRedemptionGranted : EventClass :=
  domainEvent "app.modules.promotions.domain.events" "PromotionRedemptionGranted"
    [required "redemption_id" uuid, required "promotion_id" uuid, required "user_id" uuid,
      required "promotion_code_id" (optional .uuid), required "benefit_amount" int,
        required "idempotency_key" str]

def UserCredentialCreated :
    EventClass := domainEvent "app.modules.auth.domain.events" "UserCredentialCreated"
  [required "credentials_id" uuid, required "user_id" uuid, required "role" str]

def AccountWithdrawn : EventClass := domainEvent "app.modules.auth.domain.events" "AccountWithdrawn"
  [required "credentials_id" uuid, required "user_id" uuid]

def UserRegistered : EventClass := domainEvent "app.modules.users.domain.events" "UserRegistered"
  [required "user_id" uuid, required "email" (optional .str), required "name" (optional .str)]

def UserProfileImageChanged :
    EventClass := domainEvent "app.modules.users.domain.events" "UserProfileImageChanged"
  [required "user_id" uuid, required "previous_image_url" (optional .str),
    required "new_image_url" (optional .str)]

def UserWithdrawn : EventClass := domainEvent "app.modules.users.domain.events" "UserWithdrawn"
  [required "user_id" uuid]

def FileUploaded : EventClass := domainEvent "app.modules.files.domain.events" "FileUploaded"
  [required "file_id" uuid, required "user_id" uuid, required "original_name" str,
    required "content_type" str, required "size" int, required "storage_key" str]

def FileDeleted : EventClass := domainEvent "app.modules.files.domain.events" "FileDeleted"
  [required "file_id" uuid, required "user_id" uuid, required "storage_keys" (.list .str)]

/-! ## Registries -/

/-- A registry with the classes registered. -/
def buildRegistry (classes : List EventClass) : EventTypeRegistry EventClass.name :=
  classes.foldl EventTypeRegistry.register .empty

def buildNotificationEventRegistry : EventTypeRegistry EventClass.name :=
  buildRegistry [NotificationCreated]

def buildCreditsEventRegistry : EventTypeRegistry EventClass.name :=
  buildRegistry [CreditGranted, CreditUsed, UserCreditsDeleted]

def buildPromotionsEventRegistry : EventTypeRegistry EventClass.name :=
  buildRegistry [PromotionRedemptionGranted]

def buildUsersEventRegistry : EventTypeRegistry EventClass.name :=
  buildRegistry [UserRegistered, UserProfileImageChanged, UserWithdrawn]

def buildAuthEventRegistry : EventTypeRegistry EventClass.name :=
  buildRegistry [UserCredentialCreated, AccountWithdrawn]

def buildFilesEventRegistry : EventTypeRegistry EventClass.name :=
  buildRegistry [FileUploaded, FileDeleted]

/-- The registries of `_EVENT_REGISTRY_BUILDERS`. -/
def eventRegistries : List (EventTypeRegistry EventClass.name) :=
  [buildNotificationEventRegistry, buildCreditsEventRegistry, buildPromotionsEventRegistry,
    buildUsersEventRegistry, buildAuthEventRegistry, buildFilesEventRegistry]

/-- `_build_merged_event_registry`. -/
def buildMergedEventRegistry : Except ConflictingEventTypeError (EventTypeRegistry EventClass.name) :=
  EventTypeRegistry.mergeAll eventRegistries

/-- A class is registered by a module. -/
def Registered (cls : EventClass) : Prop := ∃ registry ∈ eventRegistries, cls ∈ registry.rows

end Boat.Events
