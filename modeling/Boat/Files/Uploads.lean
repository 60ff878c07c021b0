import Boat.Core.UuidText
import Boat.Files.Contents
import Mathlib.Control.Traversable.Instances

/-!
# Files: requests that upload files

A request uploads several files (`app/modules/files/api`): all of them are validated first, but for
their names, and then stored one after the other, each in a transaction of its own.

* `Storing`: the runs of a request, which may fail where `mayFail` allows it, of the number of files
  stored before.
* `uploadFile_all_or_nothing_iff`: a request that fails nowhere but in its first file is all or
  nothing if and only if no file is refused after the first one has been stored.
-/

namespace Boat.Files

open ReadCommitted

/-! ## Validation -/

/-- `UploadFile`, as it is received. -/
structure UploadFile where
  filename : Option String
  contentType : Option String
  content : Bytes
  deriving DecidableEq, Repr

/-- `ValidatedUpload`. -/
structure ValidatedUpload where
  originalName : String
  contentType : String
  content : Bytes
  deriving DecidableEq, Repr

/-- `UploadValidationPolicy`. -/
structure UploadValidationPolicy where
  allowedContentTypes : List String
  maxUploadBytes : ℕ
  maxUploadCount : ℕ
  deriving DecidableEq, Repr

/-- `_format_bytes`. -/
def formatBytes (size : ℕ) : String :=
  if size < 1024 then s!"{size}B"
  else if size % 1048576 = 0 then s!"{size / 1048576}MB"
  else if size % 1024 = 0 then s!"{size / 1024}KB"
  else s!"{size}B"

/-- `_PNG_SIGNATURE`. -/
def pngSignature : Bytes := [0x89, 0x50, 0x4e, 0x47, 0x0d, 0x0a, 0x1a, 0x0a]

/-- `_JPEG_SIGNATURE`. -/
def jpegSignature : Bytes := [0xff, 0xd8, 0xff]

/-- A text in ASCII. -/
def ascii (text : String) : Bytes := text.toList.map (.ofNat ·.toNat)

/-- `_HEIF_COMPATIBLE_BRANDS`. -/
def heifCompatibleBrands : List Bytes := ["heic", "heix", "hevc", "hevx", "mif1", "msf1"].map ascii

/-- `_HEIF_CONTENT_TYPES`. -/
def heifContentTypes : List String := ["image/heic", "image/heif"]

/-- `content[start:stop]`. -/
def slice (start stop : ℕ) (content : Bytes) : Bytes := (content.take stop).drop start

/-- `int.from_bytes(bytes, "big")`. -/
def intFromBytes (bytes : Bytes) : ℕ := bytes.foldl (fun n b => 256 * n + b.toNat) 0

/-- `_detect_image_content_type`. -/
def detectImageContentType (content : Bytes) : Option String :=
  if pngSignature.isPrefixOf content then some "image/png"
  else if jpegSignature.isPrefixOf content then some "image/jpeg"
  else if 16 ≤ content.length ∧ slice 4 8 content = ascii "ftyp" then
    let boxSize := intFromBytes (slice 0 4 content)
    if 16 ≤ boxSize ∧ boxSize ≤ content.length then
      let brands := slice 8 12 content :: (List.range' 16 ((boxSize - 16) / 4) 4).map fun i =>
        slice i (i + 4) content
      if brands.any (· ∈ heifCompatibleBrands) then some "image/heif" else none
    else none
  else none

/-- `_matches_image_content_type`. -/
def matchesImageContentType (contentType : String) (content : Bytes) : Bool :=
  match detectImageContentType content with
  | none => false
  | some detected =>
    detected ∈ heifContentTypes && contentType ∈ heifContentTypes || detected = contentType

/-- `_validate_upload`. -/
def validateUpload (contentType : Option String) (content : Bytes) (policy : UploadValidationPolicy) :
    Except DomainError Unit :=
  let unsupported : ErrorDetail := ⟨"contentType", "지원하지 않는 이미지 형식입니다."⟩
  let allowed : Bool := contentType.any (· ∈ policy.allowedContentTypes)
  let details : List ErrorDetail :=
    (if allowed then [] else [unsupported]) ++
    (if content.length = 0 ∨ policy.maxUploadBytes < content.length then
      [⟨"size", s!"파일 크기는 {formatBytes policy.maxUploadBytes} 이하여야 합니다."⟩] else []) ++
    if allowed && !contentType.any (matchesImageContentType · content) then [unsupported] else []
  if details = [] then .ok () else .error (.validation details)

/-- What is read of a file, and kept once it is valid. -/
def UploadFile.validated (file : UploadFile) (policy : UploadValidationPolicy) :
    Except DomainError ValidatedUpload := do
  let content := file.content.take (policy.maxUploadBytes + 1)
  validateUpload file.contentType content policy
  return ⟨(file.filename.filter (· ≠ "")).getD "upload", file.contentType.getD "", content⟩

/-- `read_and_validate_uploads`. -/
def readAndValidateUploads (files : List UploadFile) (policy : UploadValidationPolicy) :
    Except DomainError (List ValidatedUpload) :=
  if 1 ≤ files.length ∧ files.length ≤ policy.maxUploadCount then files.mapM (·.validated policy)
  else .error (.validation [⟨"files", s!"파일은 최대 {policy.maxUploadCount}개까지 업로드할 수 있습니다."⟩])

/-! ## Requests -/

/-- A file that is uploaded, with the identities that are drawn for it. -/
abbrev Upload := UploadFileCommand × UploadIds

/-- The command of a file. -/
def ValidatedUpload.command (upload : ValidatedUpload) (userId : UUID) : UploadFileCommand where
  userId := userId
  originalName := upload.originalName
  contentType := upload.contentType
  size := upload.content.length
  content := upload.content

/-- The uploads of a request, which draws `ids i` for the file in place `i`. -/
def uploadsOf (userId : UUID) (uploads : List ValidatedUpload) (ids : ℕ → UploadIds) : List Upload :=
  uploads.mapIdx fun i upload => (upload.command userId, ids i)

/-- The end of an upload, or of several ones. -/
abbrev UploadEnding (α : Type) := Ending FilesDatabase ObjectStorage FilesError α

section

variable [ContentDigest]

/-- The files of a request are stored one after the other, as long as none raises or is stopped.
    After `k` ones, `mayFail k` says where the next one may fail. -/
inductive Storing (mayFail : ℕ → List FilesStatement → Prop) :
    ℕ → List Upload → FilesDatabase → ObjectStorage → UploadEnding (List UploadFileResult) → Prop
  | nil {k d storage} : Storing mayFail k [] d storage ⟨some (.ok []), d, storage⟩
  | stored {k upload uploads d storage result results d' storage' d'' storage''}
      (hrun : (UploadFileCommandUseCase.execute upload.1 upload.2).Runs FilesStatement.effect
        (mayFail k) [] d d storage
        ⟨some (.ok result), d', storage'⟩)
      (hrest : Storing mayFail (k + 1) uploads d' storage' ⟨some (.ok results), d'', storage''⟩) :
      Storing mayFail k (upload :: uploads) d storage ⟨some (.ok (result :: results)), d'', storage''⟩
  | failed_later {k upload uploads d storage result d' storage' d'' storage''} {e : Option FilesError}
      (hrun : (UploadFileCommandUseCase.execute upload.1 upload.2).Runs FilesStatement.effect
        (mayFail k) [] d d storage
        ⟨some (.ok result), d', storage'⟩)
      (hrest : Storing mayFail (k + 1) uploads d' storage' ⟨e.map .error, d'', storage''⟩) :
      Storing mayFail k (upload :: uploads) d storage ⟨e.map .error, d'', storage''⟩
  | failed {k upload uploads d storage d' storage'} {e : Option FilesError}
      (hrun : (UploadFileCommandUseCase.execute upload.1 upload.2).Runs FilesStatement.effect
        (mayFail k) [] d d storage
        ⟨e.map .error, d', storage'⟩) :
          Storing mayFail k (upload :: uploads) d storage ⟨e.map .error, d', storage'⟩

/-- The runs of `upload_file`. -/
def UploadFileRuns (mayFail : ℕ → List FilesStatement → Prop) (userId : UUID)
    (policy : UploadValidationPolicy) (files : List UploadFile) (ids : ℕ → UploadIds)
    (d : FilesDatabase) (storage : ObjectStorage) (o : UploadEnding (List UploadFileResult)) : Prop :=
  match readAndValidateUploads files policy with
  | .error e => o = ⟨some (.error (.domain e)), d, storage⟩
  | .ok uploads => Storing mayFail 0 (uploadsOf userId uploads ids) d storage o

/-! ## What is stored -/

/-- The rows and the event of a file: its object has the size and the checksum that the storage
    reports. -/
def FilesDatabase.uploaded (d : FilesDatabase) (upload : Upload) : FilesDatabase :=
  let key := upload.1.key upload.2.fileId
  let size : ℤ := upload.1.content.length
  { d with
    files := d.files.insert ⟨upload.2.fileId, upload.1.userId, upload.1.originalName⟩
    fileObjects := d.fileObjects ++
      [⟨upload.2.objectId, upload.2.fileId, FileVariant.original.value, key,
      upload.1.contentType, size, some (ContentDigest.hexdigest upload.1.content)⟩]
    outboxEvents := d.outboxEvents ++ [⟨upload.2.stamp, .fileUploaded upload.2.fileId upload.1.userId
      upload.1.originalName upload.1.contentType size key⟩] }

/-- What is returned for a file. -/
def Upload.result (upload : Upload) : UploadFileResult :=
  ⟨upload.2.fileId, upload.1.originalName, upload.1.contentType, upload.1.content.length,
    contentPath upload.2.fileId⟩

/-- The file can be stored: the domain takes its name, its key, its type, its size and its
    checksum. -/
structure Storable (upload : Upload) : Prop where
  originalName : (OriginalName.create upload.1.originalName).isOk = true
  storageKey : (StorageKey.create (upload.1.key upload.2.fileId)).isOk = true
  contentType : (ContentType.create upload.1.contentType).isOk = true
  size : (FileSize.create upload.1.size).isOk = true
  storedSize : (FileSize.create upload.1.content.length).isOk = true
  givenChecksum : (upload.1.checksum.mapM Checksum.create).isOk = true
  checksum : (Checksum.create (ContentDigest.hexdigest upload.1.content)).isOk = true

instance (upload : Upload) : Decidable (Storable upload) :=
  decidable_of_iff ((OriginalName.create upload.1.originalName).isOk = true ∧
      (StorageKey.create (upload.1.key upload.2.fileId)).isOk = true ∧
        (ContentType.create upload.1.contentType).isOk = true ∧
      (FileSize.create upload.1.size).isOk = true ∧
        (FileSize.create upload.1.content.length).isOk = true ∧
      (upload.1.checksum.mapM Checksum.create).isOk = true ∧
      (Checksum.create (ContentDigest.hexdigest upload.1.content)).isOk = true)
    ⟨fun ⟨h₁, h₂, h₃, h₄, h₅, h₆, h₇⟩ => ⟨h₁, h₂, h₃, h₄, h₅, h₆, h₇⟩,
      fun h => ⟨h.originalName, h.storageKey, h.contentType, h.size, h.storedSize, h.givenChecksum,
        h.checksum⟩⟩

/-- The entries of the rows of a file. -/
def Upload.entries (upload : Upload) : List FilesEntry :=
  [.file upload.2.fileId, .fileObject upload.2.objectId, .storageKey (upload.1.key upload.2.fileId),
    .fileVariant upload.2.fileId FileVariant.original.value]

omit [ContentDigest] in
theorem ne_error_of_isOk {ε α : Type} {r : Except ε α} {e : ε}
    (h : r.isOk = true) : r ≠ .error e := by
  rintro rfl
  cases h

omit [ContentDigest] in
theorem CheckedText.value_of_create {valid : String → Bool} {fieldName message value : String}
    {t : CheckedText valid} (h : CheckedText.create valid fieldName message value = .ok t) :
    t.value = value := by
  rw [create] at h
  split at h
  · cases h
    rfl
  · cases h

omit [ContentDigest] in
theorem FileSize.value_of_create {value : ℤ} {size : FileSize}
    (h : create value = .ok size) : size.value = value := by
  rw [create] at h
  split at h
  · cases h
    rfl
  · cases h

omit [ContentDigest] in
theorem File.isOk_create {id userId : UUID} {name : String} :
    (File.create id userId name).isOk = true ↔ (OriginalName.create name).isOk = true := by
  rw [File.create]
  rcases OriginalName.create name with - | name
  · simp [Except.isOk, Except.toBool]
  · simp [Except.isOk, Except.toBool]

omit [ContentDigest] in
/-- The row of a file has the values that it is created with. -/
theorem File.toRecord_of_create {id userId : UUID} {name : String} {file : File}
    (h : File.create id userId name = .ok file) :
    file.toRecord = ⟨id, userId, name⟩ := by
  rw [create] at h
  split at h
  · next name' hname =>
    cases h
    rw [File.toRecord, CheckedText.value_of_create hname]
  · cases h

omit [ContentDigest] in
theorem isOk_mapM_some (checksum : String) :
    ((some checksum).mapM Checksum.create).isOk = true ↔ (Checksum.create checksum).isOk = true := by
  rcases h : Checksum.create checksum with e | t
  · simp [Option.mapM, h, Except.isOk, Except.toBool]
  · simp [Option.mapM, h, Except.isOk, Except.toBool]

omit [ContentDigest] in
/-- An object is created exactly of valid values. -/
theorem FileObject.isOk_create {id fileId : UUID} {storageKey contentType : String} {size : ℤ}
    {variantType : FileVariant} {checksum : Option String} :
    (FileObject.create id fileId storageKey contentType size variantType checksum).isOk = true ↔
      (StorageKey.create storageKey).isOk = true ∧ (ContentType.create contentType).isOk = true ∧
        (FileSize.create size).isOk = true ∧ (checksum.mapM Checksum.create).isOk = true := by
  rw [FileObject.create]
  rcases StorageKey.create storageKey with - | key
  · simp [Except.isOk, Except.toBool]
  rcases ContentType.create contentType with - | contentType
  · simp [Except.isOk, Except.toBool]
  rcases FileSize.create size with - | size
  · simp [Except.isOk, Except.toBool]
  rcases checksum.mapM Checksum.create with - | checksum
  · simp [Except.isOk, Except.toBool]
  · simp [Except.isOk, Except.toBool]

omit [ContentDigest] in
/-- The row of an object has the values that it is created with. -/
theorem FileObject.toRecord_of_create {id fileId : UUID} {storageKey contentType : String} {size : ℤ}
    {variantType : FileVariant} {checksum : Option String} {o : FileObject}
    (h : FileObject.create id fileId storageKey contentType size variantType checksum = .ok o) :
    o.toRecord = ⟨id, fileId, variantType.value, storageKey, contentType, size, checksum⟩ := by
  rw [create] at h
  split at h
  · next key type size' checksum' hkey htype hsize hchecksum =>
    cases h
    have hsum : checksum'.map (·.value) = checksum := by
      rcases checksum with - | checksum
      · cases hchecksum
        rfl
      · obtain ⟨t, ht, hchecksum⟩ := except_bind_eq_ok.1 hchecksum
        cases hchecksum
        rw [Option.map_some, CheckedText.value_of_create ht]
    rw [FileObject.toRecord, CheckedText.value_of_create hkey, CheckedText.value_of_create htype,
      FileSize.value_of_create hsize, hsum]
  · cases h

/-! ## What can be stored -/

omit [ContentDigest] in
theorem splitOn_cons_of_not_mem {a : Char} {xs ys : List Char} (h : a ∉ xs) :
    (xs ++ a :: ys).splitOn a = xs :: ys.splitOn a := by
  refine List.splitOnP_append_cons_of_forall_mem (fun x hx => ?_) a (by simp) ys
  simpa using fun hxa : x = a => h (hxa ▸ hx)

omit [ContentDigest] in
/-- The key of a file is valid. -/
theorem isOk_buildStorageKey (userId fileId : UUID) :
    (StorageKey.create (buildStorageKey userId fileId)).isOk = true := by
  have hchars (id : UUID) : ∀ c ∈ id.str.toList, c ≠ '/' ∧ c ≠ '\\' ∧ c ≠ '.' := by
    intro c hc
    rw [UUID.toList_str] at hc
    rcases UUID.of_mem_chars hc with rfl | ⟨d, hd, rfl⟩
    · decide
    · exact (by decide : ∀ d < 16, hexDigit d ≠ '/' ∧ hexDigit d ≠ '\\' ∧ hexDigit d ≠ '.') d hd
  have hlength (id : UUID) : id.str.toList.length = 36 := by rw [UUID.toList_str, UUID.length_chars]
  have hkey : (buildStorageKey userId fileId).toList = "users".toList ++ '/' ::
      (userId.str.toList ++ '/' ::
        ("files".toList ++ '/' :: (fileId.str.toList ++ '/' :: "original".toList))) := by
    simp [buildStorageKey, FileVariant.value]
  -- The identities have no slash, so the key is split at those that it is built with.
  have hparts : (buildStorageKey userId fileId).toList.splitOn '/' =
      ["users".toList, userId.str.toList, "files".toList, fileId.str.toList, "original".toList] := by
    rw [hkey, splitOn_cons_of_not_mem (by decide), splitOn_cons_of_not_mem fun h =>
      (hchars _ _ h).1 rfl, splitOn_cons_of_not_mem (by decide), splitOn_cons_of_not_mem fun h =>
        (hchars _ _ h).1 rfl]
    rfl
  have hnot : '\\' ∉ (buildStorageKey userId fileId).toList := by
    rw [hkey]
    simp only [List.mem_append, List.mem_cons, not_or]
    exact ⟨by decide, by decide, fun h => (hchars _ _ h).2.1 rfl, by decide, by decide, by decide,
      fun h => (hchars _ _ h).2.1 rfl, by decide, by decide⟩
  have hlong (id : UUID) (xs : List Char) (hxs : xs.length < 36) : xs ≠ id.str.toList := by
    rintro rfl
    exact absurd (hlength id) hxs.ne
  have hname (xs : List Char) (hxs : xs.length < 3) :
      xs ∉ ["users".toList, userId.str.toList, "files".toList, fileId.str.toList,
        "original".toList] := by
    simp only [List.mem_cons, List.not_mem_nil, or_false, not_or]
    refine ⟨?_, hlong _ _ (by omega), ?_, hlong _ _ (by omega), ?_⟩
    all_goals
      rintro rfl
      exact absurd hxs (by decide)
  have htext : (buildStorageKey userId fileId).length = 94 := by
    rw [← String.length_toList, hkey]
    simp only [List.length_append, List.length_cons, hlength]
    rfl
  rw [StorageKey.create, CheckedText.create, dif_pos]
  · rfl
  · have hempty : buildStorageKey userId fileId ≠ "" := by
      intro h
      rw [h] at htext
      cases htext
    have hhead : (buildStorageKey userId fileId).toList.head? ≠ some '/' := by
      rw [hkey]
      exact (by decide : some 'u' ≠ some '/')
    simp only [hparts, List.contains_iff_mem, Bool.and_eq_true, decide_eq_true_eq,
      Bool.not_eq_true', Bool.eq_false_iff, ne_eq]
    exact ⟨⟨⟨⟨⟨⟨hempty, hhead⟩, hnot⟩, hname _ (by decide)⟩, hname _ (by decide)⟩,
      hname _ (by decide)⟩, by omega⟩

omit [ContentDigest] in
theorem detectImageContentType_mem {content : Bytes} {contentType : String}
    (h : detectImageContentType content = some contentType) :
    contentType ∈ ["image/png", "image/jpeg", "image/heif"] := by
  simp only [detectImageContentType] at h
  split at h
  · cases h
    decide
  split at h
  · cases h
    decide
  split at h
  · split at h
    · split at h
      · cases h
        decide
      · cases h
    · cases h
  · cases h

omit [ContentDigest] in
/-- The domain takes the types that contents are found to have. -/
theorem isOk_contentType {contentType : String} {content : Bytes}
    (h : matchesImageContentType contentType content = true) :
    (ContentType.create contentType).isOk = true := by
  have hmem : contentType ∈ ["image/jpeg", "image/png", "image/heic", "image/heif"] := by
    rw [matchesImageContentType] at h
    split at h
    · cases h
    · next detected hdetected =>
      have hmem := detectImageContentType_mem hdetected
      simp only [heifContentTypes, Bool.or_eq_true, Bool.and_eq_true, decide_eq_true_eq] at h
      rcases h with ⟨-, h⟩ | rfl
      · simp only [List.mem_cons, List.not_mem_nil, or_false, decide_eq_true_eq] at h ⊢
        tauto
      · simp only [List.mem_cons, List.not_mem_nil, or_false] at hmem ⊢
        tauto
  exact (by decide : ∀ contentType ∈ ["image/jpeg", "image/png", "image/heic", "image/heif"],
    (ContentType.create contentType).isOk = true) _ hmem

variable {mayFail : List FilesStatement → Prop} {d : FilesDatabase} {storage : ObjectStorage}

omit [ContentDigest] in
theorem always_lift_of {α : Type}
    {Q : α → List FilesStatement → FilesDatabase → FilesDatabase → ObjectStorage → Prop}
    {X : Option FilesError → FilesDatabase → ObjectStorage → Prop} {r : Except DomainError α}
    {ls : List FilesStatement} {v : FilesDatabase}
    (hX : ∀ e, r = .error e → X (some (.domain e)) d storage)
    (hQ : ∀ a, r = .ok a → Q a ls v d storage) :
    Prog.always FilesStatement.effect mayFail Q X (FilesTx.lift r) ls v d storage := by
  rcases r with e | a
  · exact hX e rfl
  · exact hQ a rfl

/-- The upload of a file stores what it should, or raises and stores nothing, if something fails or
    the file cannot be stored. -/
theorem always_execute {upload : Upload} (hfresh : ∀ e ∈ upload.entries, d.hasEntry e = false) :
    Prog.always FilesStatement.effect mayFail
      (fun result _ _ d' _ => Storable upload ∧ d' = d.uploaded upload ∧ result = upload.result)
      (fun _ d' _ => d' = d ∧ ((∃ ls, mayFail ls) ∨ ¬Storable upload))
      (UploadFileCommandUseCase.execute upload.1 upload.2) [] d d storage := by
  simp only [Upload.entries, List.forall_mem_cons] at hfresh
  obtain ⟨hfile, hobject, hkey, hvariant, -⟩ := hfresh
  have hinvalid (h : ¬Storable upload) : d = d ∧ ((∃ ls, mayFail ls) ∨ ¬Storable upload) :=
    ⟨rfl, .inr h⟩
  have hfail {ls : List FilesStatement} (h : mayFail ls) :
    (d = d ∧ ((∃ ls, mayFail ls) ∨ ¬Storable upload)) ∧
      (d = d ∧ ((∃ ls, mayFail ls) ∨ ¬Storable upload)) := ⟨⟨rfl, .inl ⟨ls, h⟩⟩, rfl, .inl ⟨ls, h⟩⟩
  simp only [UploadFileCommandUseCase.execute, put, SqlAlchemyFileRepository.save, FilesTx.call,
    FilesTx.select, FilesTx.exec, FilesTx.insert, publish, Prog.bind_eq, Prog.always_bind_eq,
    Prog.always_pure]
  -- The domain takes the name of the file, and the object before it is stored.
  refine always_lift_of (fun e he => hinvalid fun h => ?_) fun file hname => ?_
  · exact ne_error_of_isOk (File.isOk_create.2 h.originalName) he
  have hrecord := File.toRecord_of_create hname
  have hnameOk := File.isOk_create.1 (isOk_iff.2 ⟨_, hname⟩)
  obtain ⟨fileId, userId, originalName⟩ := file
  obtain ⟨rfl, rfl, horiginalName⟩ : fileId = upload.2.fileId ∧ userId = upload.1.userId ∧
      originalName.value = upload.1.originalName := by simpa [File.toRecord] using hrecord
  refine always_lift_of (fun e he => hinvalid fun h => ?_) fun draft hdraft => ?_
  · exact ne_error_of_isOk
      (FileObject.isOk_create.2 ⟨h.storageKey, h.contentType, h.size, h.givenChecksum⟩) he
  obtain ⟨hkeyOk, htypeOk, hsizeOk, hgivenOk⟩ := FileObject.isOk_create.1 (isOk_iff.2 ⟨_, hdraft⟩)
  have hdraftKey : draft.storageKey.value = upload.1.key upload.2.fileId :=
    (FileObject.storageKey_of_create hdraft).1
  refine Prog.always_query.2 ⟨?_, hfail⟩
  -- And the object as the storage reports it.
  refine always_lift_of (fun e he => hinvalid fun h => ?_) fun fileObject hstored => ?_
  · rw [hdraftKey] at he
    exact ne_error_of_isOk (FileObject.isOk_create.2 ⟨h.storageKey, h.contentType, h.storedSize,
      (isOk_mapM_some _).2 h.checksum⟩) he
  rw [hdraftKey] at hstored
  obtain ⟨-, -, hstoredSizeOk, hchecksumOk⟩ := FileObject.isOk_create.1 (isOk_iff.2 ⟨_, hstored⟩)
  have hobjectRecord := FileObject.toRecord_of_create hstored
  have hstoredType : fileObject.contentType.value = _ :=
    congrArg FileObjectRecord.contentType hobjectRecord
  have hstoredSize : fileObject.size.value = _ := congrArg FileObjectRecord.size hobjectRecord
  have hstoredKey : fileObject.storageKey.value = _ :=
    congrArg FileObjectRecord.storageKey hobjectRecord
  -- The entries of the rows are free.
  refine Prog.always_insert (fun _ => ?_) (fun e he hentry => ?_) hfail
  swap
  · obtain rfl := List.mem_singleton.1 he
    rw [hfile] at hentry
    cases hentry
  refine Prog.always_insert (fun _ => ?_) (fun e he hentry => ?_) hfail
  swap
  · have hfree : d.hasEntry e = false := by
      rw [hobjectRecord] at he
      simp only [FileObjectRecord.entries, List.mem_cons, List.not_mem_nil, or_false] at he
      rcases he with rfl | rfl | rfl
      · exact hobject
      · exact hkey
      · exact hvariant
    have hne : FilesLock.entry e ∉ [FilesLock.entry (.file upload.2.fileId)] := by
      rw [hobjectRecord] at he
      simp only [FileObjectRecord.entries, List.mem_cons, List.not_mem_nil, or_false] at he
      rcases he with rfl | rfl | rfl
      · simp
      · simp
      · simp
    rw [FilesDatabase.touches_insertFile _ _ hne d _ (.entry e) hfree] at hentry
    cases hentry
  refine Prog.always_insert (fun _ => ?_) (List.forall_mem_nil _) hfail
  refine Prog.always_commitOr.2
    ⟨⟨⟨hnameOk, hkeyOk, htypeOk, hsizeOk, hstoredSizeOk, hgivenOk, (isOk_mapM_some _).1 hchecksumOk⟩,
    ?_, ?_⟩, hfail⟩
  · show FilesDatabase.insertOutbox
      [⟨upload.2.stamp, File.recordUploaded ⟨_, _, originalName⟩ fileObject⟩]
      (FilesDatabase.insertObject fileObject.toRecord
        (FilesDatabase.insertFile (File.toRecord ⟨_, _, originalName⟩) d)) = _
    rw [hrecord, hobjectRecord, File.recordUploaded, horiginalName, hstoredType, hstoredSize,
      hstoredKey]
    rfl
  · show UploadFileResult.mk _ originalName.value fileObject.contentType.value
      fileObject.size.value _ = _
    rw [horiginalName, hstoredType, hstoredSize]
    rfl

/-! ## Requests -/

omit [ContentDigest] in
/-- What the uploads draw is new. -/
def Fresh (d : FilesDatabase) (uploads : List Upload) : Prop :=
  (uploads.flatMap Upload.entries).Nodup ∧ ∀ e ∈ uploads.flatMap Upload.entries, d.hasEntry e = false

omit [ContentDigest] in
instance (d : FilesDatabase) (uploads : List Upload) : Decidable (Fresh d uploads) :=
  inferInstanceAs (Decidable (_ ∧ ∀ e ∈ _, _))

theorem hasEntry_uploaded {upload : Upload} {e : FilesEntry} (he : e ∉ upload.entries)
    (h : d.hasEntry e = false) :
    (d.uploaded upload).hasEntry e = false := by
  simp only [Upload.entries, List.mem_cons, List.not_mem_nil, or_false, not_or] at he
  obtain ⟨hfile, hobject, hkey, hvariant⟩ := he
  rw [FilesDatabase.hasEntry_eq_false] at h ⊢
  refine ⟨Table.forall_insert h.1 (Ne.symm hfile), fun o ho => ?_⟩
  rcases List.mem_append.1 ho with ho | ho
  · exact h.2 o ho
  · rw [List.mem_singleton.1 ho]
    simp [FileObjectRecord.entries, hobject, hkey, hvariant]

/-- What later uploads draw is still new once a file is stored. -/
theorem Fresh.uploaded {upload : Upload} {uploads : List Upload} (h : Fresh d (upload :: uploads)) :
    Fresh (d.uploaded upload) uploads := by
  rw [Fresh, List.flatMap_cons, List.nodup_append, List.forall_mem_append] at h
  obtain ⟨⟨-, hnodup, hdisjoint⟩, -, hfree⟩ := h
  exact ⟨hnodup, fun e he => hasEntry_uploaded (fun he' => hdisjoint e he' e he rfl) (hfree e he)⟩

variable {requestFails : ℕ → List FilesStatement → Prop} {k : ℕ} {uploads : List Upload}
  {o : UploadEnding (List UploadFileResult)}

/-- A request stores its files up to the first one that cannot be stored, or with which something
    fails. -/
theorem Storing.sound (h : Storing requestFails k uploads d storage o) (hfresh : Fresh d uploads) :
    ∃ stored rest, uploads = stored ++ rest ∧ o.store = stored.foldl .uploaded d ∧
    (∀ u ∈ stored, Storable u) ∧
      (rest = [] ∧ o.result = some (.ok (uploads.map Upload.result)) ∨
        ∃ u us, ∃ e : Option FilesError, rest = u :: us ∧ o.result = e.map .error ∧
          ((∃ ls, requestFails (k + stored.length) ls) ∨ ¬Storable u)) := by
  induction h with
  | nil => exact ⟨[], [], rfl, rfl, nofun, .inl ⟨rfl, rfl⟩⟩
  | stored hrun _ ih =>
    obtain ⟨_, _, hstorable, rfl, rfl⟩ :=
      hrun.sound (always_execute fun e he => hfresh.2 e (List.mem_append_left _ he))
    obtain ⟨stored, rest, rfl, hstore, hall, hend⟩ := ih hfresh.uploaded
    refine ⟨_ :: stored, rest, rfl, hstore, List.forall_mem_cons.2 ⟨hstorable, hall⟩, ?_⟩
    rcases hend with ⟨rfl, hresult⟩ | ⟨u, us, e, rfl, hresult, hfail⟩
    · refine .inl ⟨rfl, ?_⟩
      rw [Except.ok.inj (Option.some.inj hresult)]
      rfl
    · rcases e with - | e
      · cases hresult
      · cases hresult
  | @failed_later k upload uploads d storage result d' storage' d'' storage'' e hrun _ ih =>
    obtain ⟨_, _, hstorable, rfl, rfl⟩ :=
      hrun.sound (always_execute fun e he => hfresh.2 e (List.mem_append_left _ he))
    obtain ⟨stored, rest, rfl, hstore, hall, hend⟩ := ih hfresh.uploaded
    refine ⟨_ :: stored, rest, rfl, hstore, List.forall_mem_cons.2 ⟨hstorable, hall⟩, .inr ?_⟩
    rcases hend with ⟨-, hresult⟩ | ⟨u, us, e, rfl, hresult, hfail⟩
    · rcases e with - | e
      · cases hresult
      · cases hresult
    · refine ⟨u, us, e, rfl, hresult, hfail.imp_left fun ⟨ls, hls⟩ => ⟨ls, ?_⟩⟩
      -- The index of the file that has failed counts those that are stored before it.
      rwa [List.length_cons, Nat.add_comm stored.length, ← Nat.add_assoc]
  | @failed k upload uploads d storage d' storage' e hrun =>
    have hend := hrun.sound (always_execute fun e he => hfresh.2 e (List.mem_append_left _ he))
    obtain ⟨hstore, hfail⟩ : d' = d ∧ ((∃ ls, requestFails k ls) ∨ ¬Storable upload) := by
      rcases e with - | e
      · exact hend
      · exact hend
    exact ⟨[], upload :: uploads, rfl, hstore, nofun, .inr ⟨upload, uploads, e, rfl, rfl, hfail⟩⟩

/-- A request has a run in which nothing fails. -/
theorem exists_storing (uploads : List Upload) (k : ℕ) (d : FilesDatabase) (storage : ObjectStorage) :
    ∃ o, ∀ requestFails, Storing requestFails k uploads d storage o := by
  induction uploads generalizing k d storage with
  | nil => exact ⟨_, fun _ => .nil⟩
  | cons upload uploads ih =>
    have hrun (mayFail : List FilesStatement → Prop) :
        (UploadFileCommandUseCase.execute upload.1 upload.2).Runs
          FilesStatement.effect mayFail [] d d storage
            ((UploadFileCommandUseCase.execute upload.1 upload.2).run
            FilesStatement.effect [] d d storage) := Prog.runs_run fun ls hls => by
        rw [Prog.failsAfter_nil] at hls
        cases hls
    generalize Prog.run FilesStatement.effect _ [] d d storage = ending at hrun
    obtain ⟨result, d', storage'⟩ := ending
    rcases result with - | e | result
    · exact ⟨⟨(none : Option FilesError).map .error, d', storage'⟩, fun _ => .failed (hrun _)⟩
    · exact ⟨⟨(some e).map .error, d', storage'⟩, fun _ => .failed (hrun _)⟩
    · obtain ⟨⟨results, d'', storage''⟩, hrest⟩ := ih (k + 1) d' storage'
      rcases results with - | e | results
      · exact ⟨⟨(none : Option FilesError).map .error, d'', storage''⟩,
          fun _ => .failed_later (hrun _) (hrest _)⟩
      · exact ⟨⟨(some e).map .error, d'', storage''⟩, fun _ => .failed_later (hrun _) (hrest _)⟩
      · exact ⟨_, fun _ => .stored (hrun _) (hrest _)⟩

/-- Either all files are stored, in order, or the request raises, or is stopped, and nothing is. -/
def AllOrNothing (uploads : List Upload) (d : FilesDatabase)
    (o : UploadEnding (List UploadFileResult)) : Prop :=
  match o.result with
  | some (.ok results) => o.store = uploads.foldl .uploaded d ∧ results = uploads.map Upload.result
  | _ => o.store = d

omit [ContentDigest] in
/-- Something may fail with the first file only. -/
def OnlyFirst (k : ℕ) (_ : List FilesStatement) : Prop := k = 0

/-- If nothing is refused once the first file is stored, a request that fails with the first one
    only is all or nothing. -/
theorem Storing.allOrNothing (h : Storing OnlyFirst 0 uploads d storage o) (hfresh : Fresh d uploads)
    (hall : (∀ u, uploads.head? = some u → Storable u) → ∀ u ∈ uploads, Storable u) :
    AllOrNothing uploads d o := by
  obtain ⟨stored, rest, rfl, hstore, hstored, ⟨rfl, hresult⟩ | ⟨u, us, e, rfl, hresult, hfail⟩⟩ :=
    h.sound hfresh
  · rw [AllOrNothing, hresult]
    exact ⟨by rw [List.append_nil, hstore], rfl⟩
  · have hnone : stored = [] := by
      rcases stored with - | ⟨u', stored⟩
      · rfl
      · have hu := hall (by simpa using hstored u' List.mem_cons_self) u (by simp)
        obtain ⟨ls, hls⟩ := hfail.resolve_right (not_not_intro hu)
        simp [OnlyFirst] at hls
    subst hnone
    rw [AllOrNothing, hresult]
    rcases e with - | e
    · exact hstore
    · exact hstore

/-- The events of a request are added one after the other. -/
theorem length_outboxEvents_foldl (stored : List Upload) (d : FilesDatabase) :
    (stored.foldl .uploaded d).outboxEvents.length = d.outboxEvents.length + stored.length := by
  induction stored generalizing d with
  | nil => rfl
  | cons u stored ih =>
    rw [List.foldl_cons, ih]
    simp [FilesDatabase.uploaded]
    omega

/-- A request in which a file is refused after the first one is stored has a run that is neither all
    nor nothing. -/
theorem exists_not_allOrNothing (storage : ObjectStorage) (hfresh : Fresh d uploads)
    (hfirst : ∀ u, uploads.head? = some u → Storable u) (hrefused : ∃ u ∈ uploads, ¬Storable u) :
    ∃ o, Storing OnlyFirst 0 uploads d storage o ∧ ¬AllOrNothing uploads d o := by
  obtain ⟨o, ho⟩ := exists_storing uploads 0 d storage
  refine ⟨o, ho _, fun hnot => ?_⟩
  obtain ⟨stored, rest, rfl, hstore, hstored, ⟨rfl, hresult⟩ | ⟨u, us, e, rfl, hresult, hfail⟩⟩ :=
    (ho fun _ _ => False).sound hfresh
  · obtain ⟨u, hu, hnotStorable⟩ := hrefused
    exact hnotStorable (hstored u (by simpa using hu))
  · have hu : ¬Storable u := hfail.resolve_left (by simp)
    rcases stored with - | ⟨u', stored⟩
    · exact hu (hfirst u rfl)
    · have hsame : o.store = d := by
        rw [AllOrNothing, hresult] at hnot
        rcases e with - | e
        · exact hnot
        · exact hnot
      have hlength := length_outboxEvents_foldl (u' :: stored) d
      rw [← hstore, hsame, List.length_cons] at hlength
      omega

omit [ContentDigest] in
/-- A file as it is received. -/
def UploadFile.received (file : UploadFile) : ValidatedUpload :=
  ⟨(file.filename.filter (· ≠ "")).getD "upload", file.contentType.getD "", file.content⟩

omit [ContentDigest] in
theorem of_ite_eq_ok {ε : Type} {p : Prop} [Decidable p] {e : ε} {a : Unit}
    (h : (if p then Except.ok () else Except.error e) = .ok a) : p := by
  by_contra hp
  rw [if_neg hp] at h
  cases h

omit [ContentDigest] in
/-- A valid file is short enough to be read in full. -/
theorem UploadFile.eq_received {file : UploadFile} {policy : UploadValidationPolicy}
    {upload : ValidatedUpload} (h : file.validated policy = .ok upload) : upload = file.received := by
  obtain ⟨_, hvalid, h⟩ := except_bind_eq_ok.1 h
  cases h
  have hlength : file.content.length ≤ policy.maxUploadBytes := by
    have hdetails := of_ite_eq_ok hvalid
    rw [List.append_eq_nil_iff, List.append_eq_nil_iff] at hdetails
    have hsize := hdetails.1.2
    simp only [ite_eq_right_iff, List.cons_ne_nil, imp_false, not_or, not_lt,
      List.length_take] at hsize
    omega
  rw [received, List.take_of_length_le (by omega)]

omit [ContentDigest] in
theorem eq_received {files : List UploadFile} {policy : UploadValidationPolicy}
    {uploads : List ValidatedUpload} (h : readAndValidateUploads files policy = .ok uploads) :
    uploads = files.map (·.received) := by
  rw [readAndValidateUploads] at h
  split at h
  · clear * - h
    induction files generalizing uploads with
    | nil =>
      cases h
      rfl
    | cons file files ih =>
      rw [List.mapM_cons] at h
      obtain ⟨upload, hfile, h⟩ := except_bind_eq_ok.1 h
      obtain ⟨uploads, hfiles, h⟩ := except_bind_eq_ok.1 h
      cases h
      rw [List.map_cons, UploadFile.eq_received hfile, ih hfiles]
  · cases h

omit [ContentDigest] in
/-- A file that passes the first validation is not empty, and has the type that it says. -/
theorem matches_of_validated {file : UploadFile} {policy : UploadValidationPolicy}
    {upload : ValidatedUpload} (h : file.validated policy = .ok upload) :
    0 < upload.content.length ∧ matchesImageContentType upload.contentType upload.content = true := by
  obtain ⟨_, hvalid, h⟩ := except_bind_eq_ok.1 h
  cases h
  have hdetails := of_ite_eq_ok hvalid
  rw [List.append_eq_nil_iff, List.append_eq_nil_iff] at hdetails
  obtain ⟨⟨hallowed, hsize⟩, hmatches⟩ := hdetails
  simp only [ite_eq_right_iff, ite_eq_left_iff, List.cons_ne_nil, imp_false, not_or, not_not,
    not_lt] at hallowed hsize hmatches
  refine ⟨Nat.pos_of_ne_zero hsize.1, ?_⟩
  rcases htype : file.contentType with - | contentType
  · rw [htype] at hallowed
    cases hallowed
  · rw [hallowed, htype] at hmatches
    simpa using hmatches

/-- What is left to be refused of a file that passes the first validation: its name, and its size if
    that is not limited to what the domain takes. -/
theorem storable_iff_of_validated {file : UploadFile} {policy : UploadValidationPolicy}
    {upload : ValidatedUpload} (h : file.validated policy = .ok upload) (userId : UUID)
    (ids : UploadIds) : Storable (upload.command userId, ids) ↔
      (OriginalName.create upload.originalName).isOk = true ∧ upload.content.length ≤ 10485760 ∧
        (Checksum.create (ContentDigest.hexdigest upload.content)).isOk = true := by
  obtain ⟨hpos, hmatches⟩ := matches_of_validated h
  have hsize : (FileSize.create upload.content.length).isOk = true ↔
      upload.content.length ≤ 10485760 := by
    rw [FileSize.create]
    split
    · next h => exact iff_of_true rfl (by omega)
    · next h => exact iff_of_false nofun (by omega)
  constructor
  · exact fun hs => ⟨hs.originalName, hsize.1 hs.storedSize, hs.checksum⟩
  · rintro ⟨hname, hlength, hchecksum⟩
    exact ⟨hname, isOk_buildStorageKey _ _, isOk_contentType hmatches, hsize.2 hlength,
      hsize.2 hlength, rfl, hchecksum⟩

/-- The uploads of the files that are received. -/
def received (userId : UUID) (files : List UploadFile) (ids : ℕ → UploadIds) : List Upload :=
  uploadsOf userId (files.map (·.received)) ids

/-- A request that fails with its first file only, if at all, is all or nothing if and only if, of
    files that pass the first validation, none is refused after the first one is stored. -/
theorem uploadFile_all_or_nothing_iff {userId : UUID} {policy : UploadValidationPolicy}
    {files : List UploadFile} {ids : ℕ → UploadIds} (hfresh : Fresh d (received userId files ids)) :
    (∀ o, UploadFileRuns OnlyFirst userId policy files ids d storage o →
      AllOrNothing (received userId files ids) d o) ↔
      ((readAndValidateUploads files policy).isOk = true →
        (∀ u, (received userId files ids).head? = some u → Storable u) →
        ∀ u ∈ received userId files ids, Storable u) := by
  rcases hvalid : readAndValidateUploads files policy with e | uploads
  · refine iff_of_true (fun o ho => ?_) nofun
    rw [UploadFileRuns, hvalid] at ho
    rw [show o = _ from ho, AllOrNothing]
  · have huploads := eq_received hvalid
    have hruns (o : UploadEnding (List UploadFileResult)) :
        UploadFileRuns OnlyFirst userId policy files ids d storage o ↔
          Storing OnlyFirst 0 (received userId files ids) d storage o := by
      rw [UploadFileRuns, hvalid, received, ← huploads]
    simp only [hruns]
    constructor
    · intro h _ hfirst
      by_contra hrefused
      push Not at hrefused
      obtain ⟨o, ho, hnot⟩ := exists_not_allOrNothing storage hfresh hfirst hrefused
      exact hnot (h o ho)
    · exact fun hall o ho => ho.allOrNothing hfresh (hall rfl)

end

/-! ## A request that stores a part of its files -/

def pngFile (filename : String) : UploadFile := ⟨some filename, some "image/png", pngSignature⟩

def defaultPolicy : UploadValidationPolicy :=
  ⟨["image/jpeg", "image/png", "image/heic", "image/heif"], 10485760, 5⟩

/-- The identities that are drawn for the file in place `i`. -/
def photosIds (i : ℕ) : UploadIds :=
  ⟨.ofNat (4 * i + 2), .ofNat (4 * i + 3), .ofNat (4 * i + 4), ⟨.ofNat (4 * i + 5), 0⟩⟩

/-- The upload of a file in place `i`. -/
def photoUpload (filename : String) (i : ℕ) : Upload :=
  ((pngFile filename).received.command (.ofNat 1), photosIds i)

theorem received_photos (filename filename' : String) :
    received (.ofNat 1) [pngFile filename, pngFile filename'] photosIds =
      [photoUpload filename 0, photoUpload filename' 1] :=
  rfl

/-- Only the name of such a file may be refused once it has been validated. -/
theorem storable_photo {filename : String} (i : ℕ)
    (hvalid : (pngFile filename).validated defaultPolicy = .ok (pngFile filename).received) :
    @Storable lengthDigest (photoUpload filename i) ↔
      (OriginalName.create (pngFile filename).received.originalName).isOk = true := by
  let _ := lengthDigest
  refine (storable_iff_of_validated hvalid (.ofNat 1) (photosIds i)).trans (and_iff_left ⟨?_, ?_⟩)
  · show pngSignature.length ≤ 10485760
    decide
  · show (Checksum.create (toString pngSignature.length)).isOk = true
    decide +kernel

/-- Two files with names that the domain takes. -/
theorem uploadFile_all_or_nothing_photos : letI := lengthDigest
    ¬∃ o, UploadFileRuns OnlyFirst (.ofNat 1) defaultPolicy
      [pngFile "1.png", pngFile "2.png"] photosIds .empty
      (fun _ => none) o ∧
        ¬AllOrNothing (received (.ofNat 1) [pngFile "1.png", pngFile "2.png"]
          photosIds) .empty o := by
  let _ := lengthDigest
  rintro ⟨o, ho, hnot⟩
  refine hnot ((uploadFile_all_or_nothing_iff (by decide +kernel)).2 (fun _ _ => ?_) o ho)
  have h₁ := (storable_photo 0
    (by decide +kernel : (pngFile "1.png").validated defaultPolicy = _)).2 (by decide +kernel)
  have h₂ := (storable_photo 1
    (by decide +kernel : (pngFile "2.png").validated defaultPolicy = _)).2 (by decide +kernel)
  rw [received_photos]
  exact List.forall_mem_cons.2 ⟨h₁, List.forall_mem_singleton.2 h₂⟩

/-- The second file has a name that the domain refuses once the first one is stored. -/
theorem uploadFile_stores_first : letI := lengthDigest
    ∃ o, UploadFileRuns OnlyFirst (.ofNat 1) defaultPolicy
      [pngFile "1.png", pngFile "2/2.png"] photosIds .empty
      (fun _ => none) o ∧
        ¬AllOrNothing (received (.ofNat 1) [pngFile "1.png", pngFile "2/2.png"]
          photosIds) .empty o := by
  let _ := lengthDigest
  have hvalid : readAndValidateUploads [pngFile "1.png", pngFile "2/2.png"] defaultPolicy =
      .ok ([pngFile "1.png", pngFile "2/2.png"].map (·.received)) := by decide +kernel
  have h₁ := (storable_photo 0
    (by decide +kernel : (pngFile "1.png").validated defaultPolicy = _)).2 (by decide +kernel)
  have h₂ : ¬@Storable lengthDigest (photoUpload "2/2.png" 1) :=
    mt (storable_photo 1 (by decide +kernel)).1 (by decide +kernel)
  have hfresh : Fresh .empty
      (received (.ofNat 1) [pngFile "1.png", pngFile "2/2.png"] photosIds) := by decide +kernel
  rw [received_photos] at hfresh ⊢
  obtain ⟨o, ho, hnot⟩ := exists_not_allOrNothing (fun _ => none) hfresh
    (by rintro u ⟨⟩; exact h₁) ⟨_, List.mem_cons_of_mem _ (List.mem_singleton_self _), h₂⟩
  refine ⟨o, ?_, hnot⟩
  rw [UploadFileRuns, hvalid]
  exact ho

end Boat.Files
