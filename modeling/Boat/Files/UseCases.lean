import Boat.Files.Database

/-!
# Files: use cases

The repository of the files module (`SqlAlchemyFileRepository`), uploading and deleting a file, whose
contents are in an object storage, and the image of a profile, which refers to a file by its path. The
calls of the storage are statements of the programs like others, but have their effect outside of the
database (`FilesStatement.effect`).
-/

namespace Boat.Files

open ReadCommitted
open Users (UserRecord)

abbrev Bytes := List UInt8

/-- The digest of contents, `sha256(...).hexdigest()`. -/
class ContentDigest where
  hexdigest : Bytes → String

/-! ## Programs -/

inductive FilesStatement
  | selectFile (fileId : UUID)
  | selectObjects (fileId : UUID)
  /-- `UserProfileImageFileReferenceGuard`. -/
  | selectReferences (fileId : UUID)
  /-- `ObjectStorage.put`. -/
  | putContent (key : String) (content : Bytes)
  /-- `ObjectStorage.delete`. -/
  | deleteContent (key : String)
  | insertFile (r : FileRecord)
  | insertObject (o : FileObjectRecord)
  | deleteFile (fileId : UUID)
  | selectUser (userId : UUID)
  | updateUser (userId : UUID)
  | insertOutbox
  deriving DecidableEq, Repr

inductive FilesError
  | domain (e : DomainError)
  /-- `FileNotFoundError`, or `NotFoundError` of a profile. -/
  | notFound
  /-- `ConflictError`. -/
  | conflict (message : String)
  /-- `IntegrityError`. -/
  | integrity (entry : FilesEntry)
  /-- `StaleDataError`. -/
  | stale
  /-- A statement fails. -/
  | fault (s : FilesStatement)
  /-- The commit fails. -/
  | commitFailed
  deriving DecidableEq, Repr

abbrev FilesTx := Prog FilesDatabase FilesStatement FilesError

/-- The contents of the object storage, by their keys. -/
abbrev ObjectStorage := String → Option Bytes

/-- What a statement does to the object storage. -/
def FilesStatement.effect : FilesStatement → ObjectStorage → ObjectStorage
  | .putContent key content, storage => Function.update storage key (some content)
  | .deleteContent key, storage => Function.update storage key none
  | _, storage => storage

namespace FilesTx

def exec {α : Type} (s : FilesStatement) (c : Command FilesDatabase FilesError α) : FilesTx α :=
  Prog.exec s (.fault s) c

/-- A query without locks. -/
def select {α : Type} (s : FilesStatement) (f : FilesDatabase → α) : FilesTx α :=
  exec s (.query (fun _ => []) f)

/-- A call of the object storage. -/
def call (s : FilesStatement) : FilesTx Unit := select s fun _ => ()

def insert (s : FilesStatement) (entries : List FilesEntry) (w : FilesDatabase → FilesDatabase)
    (hw : Touches (entries.map .entry) w) : FilesTx Unit :=
  exec s (.insert .entry FilesDatabase.hasEntry .integrity entries w hw)

/-- The result of a domain function. -/
def lift {α : Type} : Except DomainError α → FilesTx α
  | .ok a => .ret a
  | .error e => .raise (.domain e)

end FilesTx

/-- `publish`, of which the next flush makes the inserts. -/
def publish (events : List (Stamped FilesEvent)) : FilesTx Unit :=
  FilesTx.insert .insertOutbox [] (FilesDatabase.insertOutbox events)
    (FilesDatabase.touches_insertOutbox events)

/-! ## Object storage -/

/-- `StoredObject`. -/
structure StoredObject where
  storageKey : String
  size : ℤ
  checksum : String

/-- `put`. -/
def put [ContentDigest] (key : String) (content : Bytes) : FilesTx StoredObject := do
  FilesTx.call (.putContent key content)
  return ⟨key, content.length, ContentDigest.hexdigest content⟩

/-- `delete`. -/
def deleteContent (key : String) : FilesTx Unit := FilesTx.call (.deleteContent key)

/-! ## Repository -/

/-- `mapper.file_to_record`. -/
def File.toRecord (file : File) : FileRecord := ⟨file.id, file.userId, file.originalName.value⟩

/-- `mapper.file_object_to_record`. -/
def FileObject.toRecord (o : FileObject) : FileObjectRecord :=
  ⟨o.id, o.fileId, o.variantType.value, o.storageKey.value, o.contentType.value, o.size.value,
    o.checksum.map (·.value)⟩

/-- `mapper.stored_file_to_domain`. -/
def storedFileToDomain (fileRecord : FileRecord)
    (r : FileObjectRecord) : Except DomainError StoredFile := do
  let file ← File.create fileRecord.id fileRecord.userId fileRecord.originalName
  let variantType ← FileVariant.ofValue r.variantType
  let fileObject ← FileObject.create r.id r.fileId r.storageKey r.contentType r.size
    variantType r.checksum
  return ⟨file, fileObject⟩

namespace SqlAlchemyFileRepository

/-- `save`. -/
def save (file : File) (fileObject : FileObject) : FilesTx StoredFile := do
  FilesTx.insert (.insertFile file.toRecord) [.file file.id] (FilesDatabase.insertFile file.toRecord)
    (FilesDatabase.touches_insertFile file.toRecord)
  FilesTx.insert (.insertObject fileObject.toRecord) fileObject.toRecord.entries
    (FilesDatabase.insertObject fileObject.toRecord)
      (FilesDatabase.touches_insertObject fileObject.toRecord)
  return ⟨file, fileObject⟩

/-- `find_by_id_for_user`. -/
def findByIdForUser (fileId userId : UUID) : FilesTx (Option StoredFile) := do
  match ← FilesTx.select (.selectFile fileId) (·.fileOf fileId userId) with
  | none => return none
  | some fileRecord =>
    match ← FilesTx.select (.selectObjects fileId) fun v =>
        (v.objectsOf fileRecord.id).find? (·.variantType = FileVariant.original.value) with
    | none => return none
    | some fileObjectRecord =>
      return some (← FilesTx.lift (storedFileToDomain fileRecord fileObjectRecord))

/-- `find_all_by_id_for_user`. -/
def findAllByIdForUser (fileId userId : UUID) : FilesTx (List StoredFile) := do
  match ← FilesTx.select (.selectFile fileId) (·.fileOf fileId userId) with
  | none => return []
  | some fileRecord =>
    let records ← FilesTx.select (.selectObjects fileId) (·.objectsOf fileRecord.id)
    FilesTx.lift (records.mapM (storedFileToDomain fileRecord))

/-- `delete_by_id`. -/
def deleteById (fileId : UUID) : FilesTx Unit := do
  let _ ← FilesTx.exec (.deleteFile fileId)
    (.modify (·.objectsOf fileId) (FilesDatabase.deleteLocks fileId)
    (FilesDatabase.deleteFile fileId) (FilesDatabase.touches_deleteFile fileId))

end SqlAlchemyFileRepository

/-! ## Upload -/

structure UploadFileCommand where
  userId : UUID
  originalName : String
  contentType : String
  size : ℤ
  content : Bytes := []
  storageKey : Option String := none
  checksum : Option String := none
  deriving DecidableEq, Repr

structure UploadFileResult where
  fileId : UUID
  originalName : String
  contentType : String
  size : ℤ
  contentPath : String
  deriving DecidableEq, Repr

/-- The identities that an upload generates: those of the file, of the object before and after it is
    stored, and of the event. -/
structure UploadIds where
  fileId : UUID
  draftId : UUID
  objectId : UUID
  stamp : Stamp
  deriving DecidableEq, Repr

/-- `_build_storage_key`. -/
def buildStorageKey (userId fileId : UUID) : String :=
  "users/" ++ userId.str ++ "/files/" ++ fileId.str ++ "/" ++ FileVariant.original.value

/-- The path of the content of a file. -/
def contentPath (fileId : UUID) : String := "/files/" ++ fileId.str ++ "/content"

/-- `command.storage_key or _build_storage_key(...)`: a key that is empty is none. -/
def UploadFileCommand.key (command : UploadFileCommand) (fileId : UUID) : String :=
  (command.storageKey.filter (· ≠ "")).getD (buildStorageKey command.userId fileId)

/-- `UploadFileCommandUseCase.execute`. -/
def UploadFileCommandUseCase.execute [ContentDigest] (command : UploadFileCommand) (ids : UploadIds) :
    FilesTx UploadFileResult := do
  let file ← FilesTx.lift (File.create ids.fileId command.userId command.originalName)
  let draft ← FilesTx.lift
    (FileObject.create ids.draftId file.id (command.key ids.fileId) command.contentType command.size
    .original command.checksum)
  let storedObject ← put draft.storageKey.value command.content
  let fileObject ← FilesTx.lift
    (FileObject.create ids.objectId file.id storedObject.storageKey command.contentType
    storedObject.size .original (some storedObject.checksum))
  let storedFile ← SqlAlchemyFileRepository.save file fileObject
  publish [⟨ids.stamp, file.recordUploaded fileObject⟩]
  Prog.commitOr .commitFailed
  return ⟨storedFile.file.id, storedFile.file.originalName.value,
    storedFile.fileObject.contentType.value, storedFile.fileObject.size.value,
    contentPath storedFile.file.id⟩

/-! ## Deletion -/

structure DeleteFileCommand where
  fileId : UUID
  userId : UUID
  deriving DecidableEq, Repr

/-- `UserProfileImageFileReferenceGuard.ensure_not_referenced`. -/
def ensureNotReferenced (fileId : UUID) : FilesTx Unit := do
  let referenced ← FilesTx.select (.selectReferences fileId) fun v =>
    v.users.rows.any (·.profileImageUrl = some (contentPath fileId))
  if referenced then throw (.conflict "프로필 이미지로 사용 중인 파일은 삭제할 수 없습니다.")

/-- The contents of the objects are deleted one after the other. -/
def deleteContents : List StoredFile → FilesTx Unit
  | [] => return
  | storedFile :: storedFiles => do
    deleteContent storedFile.fileObject.storageKey.value
    deleteContents storedFiles

/-- `DeleteFileCommandUseCase.execute`. -/
def DeleteFileCommandUseCase.execute (command : DeleteFileCommand)
    (stamp : Stamp) : FilesTx Unit := do
  match ← SqlAlchemyFileRepository.findAllByIdForUser command.fileId command.userId with
  | [] => throw .notFound
  | storedFile :: storedFiles =>
    ensureNotReferenced command.fileId
    deleteContents (storedFile :: storedFiles)
    SqlAlchemyFileRepository.deleteById command.fileId
    publish [⟨stamp, storedFile.file.recordDeleted
      ((storedFile :: storedFiles).map (·.fileObject.storageKey.value))⟩]
    Prog.commitOr .commitFailed

/-! ## Profile images -/

/-- `ensure_owned_image_file`. -/
def ensureOwnedImageFile (userId fileId : UUID) : FilesTx Unit := do
  match ← SqlAlchemyFileRepository.findByIdForUser fileId userId with
  | none => throw .notFound
  | some _ => return

/-- `update_profile_image_url`, which is flushed if the URL has changed. It returns the event of the
    update. -/
def updateProfileImageUrl (userId : UUID) (profileImageUrl : Option String) : FilesTx FilesEvent := do
  match ← FilesTx.select (.selectUser userId) (·.users.find userId) with
  | none => throw .notFound
  | some record =>
    if profileImageUrl = record.profileImageUrl then
      return .userProfileImageChanged userId record.profileImageUrl profileImageUrl
    else do
      FilesTx.exec (.updateUser userId)
        (.update (fun v => v.users.find userId) (fun _ => .row (.user userId)) .stale
        (fun _ => FilesDatabase.setProfileImage userId profileImageUrl)
        fun _ => FilesDatabase.touches_setProfileImage userId profileImageUrl)
      return .userProfileImageChanged userId record.profileImageUrl profileImageUrl

structure SetProfileImageCommand where
  userId : UUID
  fileId : UUID
  deriving DecidableEq, Repr

namespace UpdateProfileImageCommandUseCase

/-- `set_profile_image`. It returns the path of the image. -/
def setProfileImage (command : SetProfileImageCommand) (stamp : Stamp) : FilesTx String := do
  ensureOwnedImageFile command.userId command.fileId
  let event ← updateProfileImageUrl command.userId (some (contentPath command.fileId))
  publish [⟨stamp, event⟩]
  Prog.commitOr .commitFailed
  return contentPath command.fileId

/-- `clear_profile_image`. -/
def clearProfileImage (userId : UUID) (stamp : Stamp) : FilesTx Unit := do
  let event ← updateProfileImageUrl userId none
  publish [⟨stamp, event⟩]
  Prog.commitOr .commitFailed

end UpdateProfileImageCommandUseCase

end Boat.Files
