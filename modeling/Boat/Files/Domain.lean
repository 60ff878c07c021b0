import Boat.Core.Domain

/-!
# Files: domain

The files that users upload (`app/modules/files/domain`). A file has one object for each of its
variants, each with a content in the object storage, under a key.
-/

namespace Boat.Files

/-! ## Value objects -/

/-- `FileVariant`. -/
inductive FileVariant
  | original
  | thumbnail
  | compressed
  deriving DecidableEq, Repr

/-- The values of `FileVariant`. -/
def FileVariant.value : FileVariant → String
  | original => "original"
  | thumbnail => "thumbnail"
  | compressed => "compressed"

/-- `FileVariant(value)`. -/
def FileVariant.ofValue (value : String) : Except DomainError FileVariant :=
  match [original, thumbnail, compressed].find? (·.value = value) with
  | some variant => .ok variant
  | none => .error (.other "ValueError")

/-- A text that satisfies `valid`. -/
structure CheckedText (valid : String → Bool) where
  value : String
  isValid : valid value = true
  deriving DecidableEq, Repr

def CheckedText.create (valid : String → Bool) (fieldName message : String) (value : String) :
    Validated (CheckedText valid) :=
  if h : valid value = true then .ok ⟨value, h⟩ else .error [⟨fieldName, message⟩]

/-- `OriginalName`. -/
abbrev OriginalName := CheckedText fun value =>
  value ≠ "" && strip value =
    value && !value.toList.contains '/' && !value.toList.contains '\\' && value.length ≤ 255

/-- `OriginalName(...)`. -/
def OriginalName.create : String → Validated OriginalName :=
  CheckedText.create _ "originalName" "파일명이 올바르지 않습니다."

/-- `StorageKey`: the parts between slashes are names. -/
abbrev StorageKey := CheckedText fun value =>
  let parts := value.toList.splitOn '/'
  value ≠ "" && value.toList.head? ≠
    some '/' && !value.toList.contains '\\' && !parts.contains [] && !parts.contains ['.'] &&
    !parts.contains ['.', '.'] && value.length ≤ 500

/-- `StorageKey(...)`. -/
def StorageKey.create : String → Validated StorageKey :=
  CheckedText.create _ "storageKey" "파일 저장 키가 올바르지 않습니다."

/-- `ContentType`. -/
abbrev ContentType := CheckedText fun value =>
  ["image/jpeg", "image/png", "image/heic", "image/heif"].contains value && value.length ≤ 100

/-- `ContentType(...)`. -/
def ContentType.create : String → Validated ContentType :=
  CheckedText.create _ "contentType" "지원하지 않는 이미지 형식입니다."

/-- `FileSize`. -/
structure FileSize where
  value : ℤ
  pos : 0 < value
  le : value ≤ 10485760
  deriving DecidableEq, Repr

/-- `FileSize(...)`. -/
def FileSize.create (value : ℤ) : Validated FileSize :=
  if h : 0 < value ∧ value ≤ 10485760 then .ok ⟨value, h.1, h.2⟩
  else .error [⟨"size", "파일 크기는 10MB 이하여야 합니다."⟩]

/-- `Checksum`. -/
abbrev Checksum := CheckedText fun value => value ≠ "" && strip value = value && value.length ≤ 255

/-- `Checksum(...)`. -/
def Checksum.create : String → Validated Checksum :=
  CheckedText.create _ "checksum" "파일 체크섬이 올바르지 않습니다."

/-! ## Files -/

/-- `File`. -/
structure File where
  id : UUID
  userId : UUID
  originalName : OriginalName
  deriving DecidableEq, Repr

/-- `File.create`, with its identity. -/
def File.create (id userId : UUID) (originalName : String) : Except DomainError File :=
  match OriginalName.create originalName with
  | .ok originalName => .ok ⟨id, userId, originalName⟩
  | .error details => .error (.validation details)

/-- `FileObject`. -/
structure FileObject where
  id : UUID
  fileId : UUID
  variantType : FileVariant
  storageKey : StorageKey
  contentType : ContentType
  size : FileSize
  checksum : Option Checksum
  deriving DecidableEq, Repr

/-- `FileObject.create`, with its identity. All that is invalid is collected before it is raised. -/
def FileObject.create (id fileId : UUID) (storageKey contentType : String) (size : ℤ)
    (variantType : FileVariant) (checksum : Option String) : Except DomainError FileObject :=
  match StorageKey.create storageKey, ContentType.create contentType, FileSize.create size,
    checksum.mapM Checksum.create with
  | .ok storageKey, .ok contentType, .ok size, .ok checksum =>
    .ok ⟨id, fileId, variantType, storageKey, contentType, size, checksum⟩
  | storageKey, contentType, size, checksum =>
    .error (.validation
      (storageKey.details ++ contentType.details ++ size.details ++ checksum.details))

/-- An object has the key that it is created with. -/
theorem FileObject.storageKey_of_create {id fileId : UUID}
    {storageKey contentType : String} {size : ℤ} {variantType : FileVariant}
    {checksum : Option String} {o : FileObject}
    (h : FileObject.create id fileId storageKey contentType size variantType checksum = .ok o) :
    o.storageKey.value = storageKey ∧ o.fileId = fileId := by
  rw [create] at h
  split at h
  · next key _ _ _ hkey _ _ _ =>
    cases h
    refine ⟨?_, rfl⟩
    rw [StorageKey.create, CheckedText.create] at hkey
    split at hkey
    · cases hkey
      rfl
    · cases hkey
  · cases h

/-- `StoredFile`. -/
structure StoredFile where
  file : File
  fileObject : FileObject
  deriving DecidableEq, Repr

/-- The events of files, and of the images of profiles. -/
inductive FilesEvent
  | fileUploaded (fileId userId : UUID) (originalName contentType : String) (size : ℤ)
  (storageKey : String)
  | fileDeleted (fileId userId : UUID) (storageKeys : List String)
  | userProfileImageChanged (userId : UUID) (previousImageUrl newImageUrl : Option String)
  deriving DecidableEq, Repr

/-- `record_uploaded`. -/
def File.recordUploaded (file : File) (fileObject : FileObject) : FilesEvent :=
  .fileUploaded file.id file.userId file.originalName.value fileObject.contentType.value
    fileObject.size.value
    fileObject.storageKey.value

/-- `record_deleted`. -/
def File.recordDeleted (file : File) (storageKeys : List String) : FilesEvent :=
  .fileDeleted file.id file.userId storageKeys

end Boat.Files
