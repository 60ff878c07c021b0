import Boat.Notifications.UseCases
import Mathlib.Data.List.Sort

/-!
# Notifications: pushes, and the cleanup after them

The command that sends a notification to the devices of its user
(`SendNotificationPushCommandUseCase`), and the commands that it runs concurrently with.

* The transaction that reads the list of tokens ends before the tokens are sent to.
* `FcmPushSender`: the answer of the messaging service is `sendEach`, for each of the messages
  whether it says that the registration is dead.
* The tokens whose registration is dead are deleted in a transaction of their own
  (`deleteByTokens`), which finds its rows by their tokens.
-/

namespace Boat.Notifications

open ReadCommitted

/-! ## The sender -/

/-- `_SEND_BATCH_LIMIT`. -/
def sendBatchLimit : ℕ := 500

/-- `batched(items, n)`. -/
def batched {α : Type} (items : List α) (n : ℕ) : List (List α) :=
  (List.range ((items.length + n - 1) / n)).map fun k => (items.drop (k * n)).take n

theorem mem_of_mem_batched {α : Type} {items : List α} {n : ℕ} {chunk : List α}
    (hchunk : chunk ∈ batched items n) {a : α} (ha : a ∈ chunk) : a ∈ items := by
  obtain ⟨k, -, rfl⟩ := List.mem_map.1 hchunk
  exact List.mem_of_mem_drop (List.mem_of_mem_take ha)

/-- `PushSender`: `DisabledPushSender`, or `FcmPushSender` with what `messaging.send_each` answers
    for the messages to some registrations: which of them are dead, or nothing if it raises. -/
inductive PushSender
  | disabled
  | fcm (sendEach : List UserPushToken → Option (List Bool))

/-- The tokens of a chunk whose registrations are dead. There has to be an answer for each. -/
def invalidTokens (chunk : List UserPushToken) (responses : List Bool) :
    Except DomainError (List String) :=
  if chunk.length = responses.length then
    .ok (((chunk.zip responses).filter (·.2)).map (·.1.token))
  else .error (.other "zip() arguments have different lengths")

/-- What is sent to the devices of a chunk. -/
def sendChunk (sendEach : List UserPushToken → Option (List Bool)) (chunk : List UserPushToken) :
    Except DomainError (List String) :=
  match sendEach chunk with
  | none => .error (.other "푸시 발송에 실패했습니다.")
  | some responses => invalidTokens chunk responses

/-- `send`, with the invalid tokens that it reports. -/
def PushSender.send (tokens : List UserPushToken) : PushSender → Except DomainError (List String)
  | .disabled => .ok []
  | .fcm sendEach => ((batched tokens sendBatchLimit).mapM (sendChunk sendEach)).map (·.flatten)

/-! ## Repositories -/

namespace SqlAlchemyNotificationRepository

/-- `find_by_id_for_user`. -/
def findByIdForUser (notificationId userId : UUID) : NotificationsTx (Option UserNotification) :=
  NotificationsTx.select (.findNotification notificationId)
    (findRecordByIdForUser notificationId userId)

/-- `get_settings`. -/
def getSettings (userId : UUID) : NotificationsTx NotificationSettings := do
  let record ← NotificationsTx.select (.findSettings userId) (·.settings.find userId)
  return record.getD (.create userId)

end SqlAlchemyNotificationRepository

/-- `push_token_to_domain`. -/
def pushTokenToDomain (record : UserPushToken) : Except NotificationsError UserPushToken :=
  match RegistrationToken.create record.token with
  | .error details => .error (.domain (.validation details))
  | .ok _ => .ok record

namespace SqlAlchemyPushTokenRepository

/-- Delete rows that have been found by `p`. Those that have been changed in the meantime are
    checked again. -/
def deleteFound (p : UserPushToken → Bool) (ids : List UUID) : NotificationsTx Unit := do
  let _ ← NotificationsTx.exec (.deletePushTokens ids) (.modify
    (fun v => (v.pushTokens.rows.filter fun r => r.id ∈ ids ∧ p r).map (.pushToken ·.id))
    (List.map .row) NotificationsDatabase.deleteRows NotificationsDatabase.touches_deleteRows)

/-- `DELETE ... WHERE p`: a snapshot, and the rows of it. -/
def deleteWhere (snapshot : NotificationsStatement)
    (p : UserPushToken → Bool) : NotificationsTx Unit := do
  let ids ← NotificationsTx.select snapshot fun v => (v.pushTokens.rows.filter p).map (·.id)
  deleteFound p ids

/-- `unregister`. -/
def unregister (userId : UUID) (token : String) : NotificationsTx Unit :=
  deleteWhere (.findPushToken token) fun r => r.userId = userId ∧ r.token = token

/-- The rows of a user, in their order. -/
def rowsOf (userId : UUID) (v : NotificationsDatabase) : List UserPushToken :=
  (v.pushTokens.rows.filter (·.userId = userId)).insertionSort fun a b =>
    a.createdAt < b.createdAt ∨ a.createdAt = b.createdAt ∧ a.id.val ≤ b.id.val

/-- `list_by_user`. -/
def listByUser (userId : UUID) : NotificationsTx (List UserPushToken) := do
  let records ← NotificationsTx.select (.listPushTokens userId) (rowsOf userId)
  Prog.ofExcept (records.mapM pushTokenToDomain)

/-- `delete_by_tokens`. -/
def deleteByTokens (tokens : List String) : NotificationsTx Unit := do
  if tokens = [] then return
  deleteWhere (.findInvalidPushTokens tokens) (·.token ∈ tokens)

end SqlAlchemyPushTokenRepository

/-! ## Commands -/

/-- `UnregisterDeviceTokenCommand`. -/
structure UnregisterDeviceTokenCommand where
  userId : UUID
  token : String
  deriving DecidableEq, Repr

/-- `UnregisterDeviceTokenCommandUseCase.execute`. -/
def UnregisterDeviceTokenCommandUseCase.execute
    (command : UnregisterDeviceTokenCommand) : NotificationsTx Unit := do
  SqlAlchemyPushTokenRepository.unregister command.userId command.token
  NotificationsTx.commit

/-- `SendNotificationPushCommand`. -/
structure SendNotificationPushCommand where
  userId : UUID
  notificationId : UUID
  messageType : NotificationMessageType
  deriving DecidableEq, Repr

namespace SendNotificationPushCommandUseCase

/-- Send to the tokens outside of a transaction, and delete those that are invalid. -/
def sendTo (sender : PushSender) (tokens : List UserPushToken) : NotificationsTx Unit := do
  NotificationsTx.rollback
  match sender.send tokens with
  | .error e => throw (.domain e)
  | .ok invalidTokens =>
    if invalidTokens ≠ [] then
      SqlAlchemyPushTokenRepository.deleteByTokens invalidTokens
      NotificationsTx.commit

/-- Send to the devices of the user. -/
def sendToDevices (sender : PushSender) (userId : UUID) : NotificationsTx Unit := do
  let tokens ← SqlAlchemyPushTokenRepository.listByUser userId
  if tokens = [] then return
  sendTo sender tokens

/-- Send, if the user wants it. -/
def sendIfEnabled (sender : PushSender) (command : SendNotificationPushCommand) :
    NotificationsTx Unit := do
  let settings ← SqlAlchemyNotificationRepository.getSettings command.userId
  if !settings.pushEnabled then return
  if command.messageType = .marketing ∧ !settings.marketingConsent then return
  sendToDevices sender command.userId

/-- `execute`. A push is the best effort: no exception leaves it. -/
def execute (sender : PushSender) (command : SendNotificationPushCommand) : NotificationsTx Unit :=
  tryCatch
    (do
      let notification ← SqlAlchemyNotificationRepository.findByIdForUser command.notificationId
        command.userId
      match notification with
      | none => return
      | some _ => sendIfEnabled sender command)
    fun _ => return

end SendNotificationPushCommandUseCase

/-- A request about push tokens, with what it takes from `uuid4`, from the clock, and from the
    sender. -/
inductive PushRequest
  | register (command : RegisterDeviceTokenCommand) (id : UUID) (now : Instant)
  | unregister (command : UnregisterDeviceTokenCommand)
  | deleteUserPushTokens (userId : UUID)
  | send (command : SendNotificationPushCommand) (sender : PushSender)

/-- What a request does. -/
def PushRequest.prog : PushRequest → NotificationsTx Unit
  | .register command id now => do
    let _ ← RegisterDeviceTokenCommandUseCase.execute NotificationsTx.commit command id now
  | .unregister command => UnregisterDeviceTokenCommandUseCase.execute command
  | .deleteUserPushTokens userId =>
    DeleteUserPushTokensCommandUseCase.execute NotificationsTx.commit userId
  | .send command sender => SendNotificationPushCommandUseCase.execute sender command

end Boat.Notifications
