import Boat.Files.Uploads
import Boat.ReadCommitted.OneByOne

/-!
# Files: the cabinet

What the files API is for: the files of all users are in a *cabinet*, each under its identity
(`Cabinet`). What is opened of a file is what was uploaded, unless its content is lost: a deletion
deletes the content before the rows, and may not come to them. Uploads and deletions may fail, or be
stopped, anywhere.

* `Shows`: the rows and the contents that a cabinet has.
* `files_refine_cabinet`: uploads and deletions that are served one by one do to the rows and
  contents what they do to the cabinet, and what is read is what the cabinet has.
-/

namespace Boat.Files

open ReadCommitted SqlAlchemyFileRepository

/-! ## Queries -/

/-- `GetFileQuery`, and `OpenFileContentQuery`. -/
structure FileQuery where
  fileId : UUID
  userId : UUID
  deriving DecidableEq, Repr

/-- `GetFileResult`. -/
structure GetFileResult where
  fileId : UUID
  originalName : String
  contentType : String
  size : ℤ
  contentPath : String
  deriving DecidableEq, Repr

/-- `OpenFileContentResult`. -/
structure OpenFileContentResult where
  content : Bytes
  contentType : String
  size : ℤ
  deriving DecidableEq, Repr

/-- `GetFileQueryUseCase.execute`. -/
def GetFileQueryUseCase.execute (query : FileQuery) : FilesTx GetFileResult := do
  match ← findByIdForUser query.fileId query.userId with
  | none => throw .notFound
  | some storedFile =>
    return ⟨storedFile.file.id, storedFile.file.originalName.value,
      storedFile.fileObject.contentType.value, storedFile.fileObject.size.value,
      contentPath storedFile.file.id⟩

/-- `OpenFileContentQueryUseCase.execute`, which reads from the object storage at last. It has no
    result if the storage raises, as there is no content under the key. -/
def OpenFileContentQueryUseCase.execute (query : FileQuery) :
    FilesTx (ObjectStorage → Option OpenFileContentResult) := do
  match ← findByIdForUser query.fileId query.userId with
  | none => throw .notFound
  | some storedFile =>
    return fun storage => (storage storedFile.fileObject.storageKey.value).map fun content =>
      ⟨content, storedFile.fileObject.contentType.value, storedFile.fileObject.size.value⟩

/-! ## The cabinet -/

/-- A file in the cabinet. -/
structure Filed where
  userId : UUID
  originalName : String
  contentType : String
  content : Bytes
  /-- Its content has been deleted, and its rows have not. -/
  lost : Bool
  deriving DecidableEq, Repr

/-- The files, by their identities. -/
abbrev Cabinet := UUID → Option Filed

namespace Cabinet

/-- The file of a user. -/
def owned (σ : Cabinet) (fileId userId : UUID) : Option Filed := (σ fileId).filter (·.userId = userId)

/-- What a query of a file gets. -/
def got (σ : Cabinet) (query : FileQuery) : Except FilesError GetFileResult :=
  match σ.owned query.fileId query.userId with
  | none => .error .notFound
  | some f => .ok ⟨query.fileId, f.originalName, f.contentType, f.content.length,
    contentPath query.fileId⟩

/-- What a query of a content gets. -/
def opened (σ : Cabinet) (query : FileQuery) : Except FilesError (Option OpenFileContentResult) :=
  match σ.owned query.fileId query.userId with
  | none => .error .notFound
  | some f => .ok (if f.lost then none else some ⟨f.content, f.contentType, f.content.length⟩)

end Cabinet

/-- The file of an upload. -/
def UploadFileCommand.filed (command : UploadFileCommand) : Filed :=
  ⟨command.userId, command.originalName, command.contentType, command.content, false⟩

/-- A request to the cabinet, with its end. -/
inductive Cabinet.Step : FilesRequest × Option (Except FilesError Unit) → Cabinet → Cabinet → Prop
  | uploaded {command : UploadFileCommand} {ids : UploadIds} {σ : Cabinet} : σ ids.fileId = none →
      Step (.upload command ids, some (.ok ())) σ (Function.update σ ids.fileId (some command.filed))
  | deleted {command : DeleteFileCommand} {stamp : Stamp} {σ : Cabinet} {f : Filed} :
      σ.owned command.fileId command.userId = some f →
      Step (.delete command stamp, some (.ok ())) σ (Function.update σ command.fileId none)
  /-- A deletion that does not end well may have deleted the content. -/
  | lost {command : DeleteFileCommand} {stamp : Stamp} {σ : Cabinet} {f : Filed}
    {x : Option (Except FilesError Unit)} :
      σ.owned command.fileId command.userId = some f → x ≠ some (.ok ()) →
      Step (.delete command stamp, x) σ
        (Function.update σ command.fileId (some { f with lost := true }))
  | refused {r : FilesRequest} {σ : Cabinet} {x : Option (Except FilesError Unit)} :
    x ≠ some (.ok ()) →
      Step (r, x) σ σ

/-! ## Rows and contents -/

section

variable [ContentDigest]

/-- The object of a file, which is readable. -/
structure Filed.IsObject (f : Filed) (fileId : UUID) (o : FileObjectRecord) : Prop where
  record : o = ⟨o.id, fileId, FileVariant.original.value, o.storageKey, f.contentType,
    f.content.length, some (ContentDigest.hexdigest f.content)⟩
  originalName : (OriginalName.create f.originalName).isOk = true
  object : (FileObject.create o.id fileId o.storageKey f.contentType f.content.length .original
    (some (ContentDigest.hexdigest f.content))).isOk = true

/-- The rows and the contents of the files in a cabinet. -/
structure Shows (d : FilesDatabase) (storage : ObjectStorage) (σ : Cabinet) : Prop where
  files : ∀ fileId, d.files.find fileId = (σ fileId).map fun f => ⟨fileId, f.userId, f.originalName⟩
  objects : ∀ fileId f, σ fileId = some f → ∃ o, d.objectsOf fileId = [o] ∧ f.IsObject fileId o ∧
    storage o.storageKey = if f.lost then none else some f.content
  filed : ∀ o ∈ d.fileObjects, σ o.fileId ≠ none
  keys : (d.fileObjects.map (·.storageKey)).Nodup

namespace Shows

variable {d : FilesDatabase} {storage : ObjectStorage} {σ : Cabinet}

theorem fileOf (h : Shows d storage σ) (fileId userId : UUID) :
    d.fileOf fileId userId = (σ.owned fileId userId).map fun f =>
      ⟨fileId, f.userId, f.originalName⟩ := by
  rw [FilesDatabase.fileOf, h.files, Cabinet.owned, Option.filter_map]
  rfl

omit [ContentDigest] in
theorem mem_of_objectsOf {fileId : UUID} {o : FileObjectRecord} (h : d.objectsOf fileId = [o]) :
    o ∈ d.fileObjects ∧ o.fileId = fileId := by
  have ho : o ∈ d.objectsOf fileId := h ▸ List.mem_singleton_self o
  obtain ⟨ho, hid⟩ := List.mem_filter.1 ho
  exact ⟨ho, of_decide_eq_true hid⟩

/-- The content of a file is kept where that of another one changes. -/
theorem update_content (h : Shows d storage σ) {fileId id : UUID} {o o' : FileObjectRecord}
    (ho : d.objectsOf fileId = [o]) (ho' : d.objectsOf id = [o']) (hid : id ≠ fileId)
    (content : Option Bytes) :
    Function.update storage o.storageKey content o'.storageKey = storage o'.storageKey := by
  obtain ⟨hmem, hfile⟩ := mem_of_objectsOf ho
  obtain ⟨hmem', hfile'⟩ := mem_of_objectsOf ho'
  refine Function.update_of_ne (fun hkey => hid ?_) _ _
  -- An object with the key is the same, and of the same file.
  have heq : o' = o := List.inj_on_of_nodup_map h.keys hmem' hmem hkey
  rw [← hfile, ← hfile', heq]

/-- A content that belongs to no object may change. -/
theorem congr_storage (h : Shows d storage σ) {storage' : ObjectStorage}
    (hstorage : ∀ o ∈ d.fileObjects, storage' o.storageKey = storage o.storageKey) :
    Shows d storage' σ := by
  refine ⟨h.files, fun fileId f hf => ?_, h.filed, h.keys⟩
  obtain ⟨o, hobjects, hobject, hcontent⟩ := h.objects fileId f hf
  exact ⟨o, hobjects, hobject, (hstorage o (mem_of_objectsOf hobjects).1).trans hcontent⟩

/-- The content of a file is deleted. -/
theorem lose (h : Shows d storage σ) {fileId : UUID} {f : Filed} (hf : σ fileId = some f)
    {o : FileObjectRecord} (ho : d.objectsOf fileId = [o]) :
    Shows d (Function.update storage o.storageKey none)
      (Function.update σ fileId (some { f with lost := true })) := by
  refine ⟨fun id => ?_, fun id f' hf' => ?_, fun o' ho' => ?_, h.keys⟩
  · by_cases hid : id = fileId
    · subst hid
      rw [Function.update_self, h.files, hf]
      rfl
    · rw [Function.update_of_ne hid, h.files]
  · by_cases hid : id = fileId
    · subst hid
      rw [Function.update_self] at hf'
      cases hf'
      obtain ⟨o', ho', hobject, -⟩ := h.objects id f hf
      cases ho.symm.trans ho'
      refine ⟨o, ho, ⟨hobject.record, hobject.originalName, hobject.object⟩, ?_⟩
      rw [Function.update_self, if_pos rfl]
    · rw [Function.update_of_ne hid] at hf'
      obtain ⟨o', ho', hobject, hcontent⟩ := h.objects id f' hf'
      exact ⟨o', ho', hobject, (h.update_content ho ho' hid _).trans hcontent⟩
  · by_cases hid : o'.fileId = fileId
    · rw [hid, Function.update_self]
      exact Option.some_ne_none _
    · rw [Function.update_of_ne hid]
      exact h.filed o' ho'

omit [ContentDigest] in
/-- The file of an upload with new identities is new, and so is its key. -/
theorem new_of_entries {upload : Upload} (hfresh : ∀ e ∈ upload.entries, d.hasEntry e = false) :
    d.files.find upload.2.fileId = none ∧
    ∀ o ∈ d.fileObjects, o.storageKey ≠ upload.1.key upload.2.fileId := by
  simp only [Upload.entries, List.forall_mem_cons, FilesDatabase.hasEntry_eq_false] at hfresh
  obtain ⟨⟨hfile, -⟩, -, ⟨-, hkey⟩, -⟩ := hfresh
  refine ⟨?_, fun o ho heq => hkey o ho ?_⟩
  · rw [Table.find_eq_none]
    intro hid
    obtain ⟨r, hr, hid⟩ := List.mem_map.1 hid
    exact hfile r hr (congrArg FilesEntry.file hid)
  · rw [← heq]
    exact List.mem_cons_of_mem _ List.mem_cons_self

/-- The content of an upload that does not come to its rows changes no file. -/
theorem put (h : Shows d storage σ) {upload : Upload}
    (hfresh : ∀ e ∈ upload.entries, d.hasEntry e = false) (content : Option Bytes) :
    Shows d (Function.update storage (upload.1.key upload.2.fileId) content) σ :=
  h.congr_storage fun o ho => Function.update_of_ne ((new_of_entries hfresh).2 o ho) _ _

/-- A file is uploaded, with new identities. -/
theorem upload (h : Shows d storage σ) {upload : Upload}
    (hfresh : ∀ e ∈ upload.entries, d.hasEntry e = false)
    (hstorable : Storable upload) : σ upload.2.fileId = none ∧
      Shows (d.uploaded upload)
        (Function.update storage (upload.1.key upload.2.fileId) (some upload.1.content))
        (Function.update σ upload.2.fileId (some upload.1.filed)) := by
  obtain ⟨hnone, hkey⟩ := new_of_entries hfresh
  have hσ : σ upload.2.fileId = none := Option.map_eq_none_iff.1 ((h.files _).symm.trans hnone)
  have hother : ∀ o ∈ d.fileObjects, o.fileId ≠ upload.2.fileId :=
    fun o ho hid => h.filed o ho (hid ▸ hσ)
  refine ⟨hσ, fun id => ?_, fun id f hf => ?_, fun o ho => ?_, ?_⟩
  · show (d.files.insert ⟨upload.2.fileId, upload.1.userId, upload.1.originalName⟩).find id = _
    rw [Table.find_insert hnone]
    by_cases hid : id = upload.2.fileId
    · subst hid
      rw [if_pos rfl, Function.update_self]
      rfl
    · rw [if_neg hid, Function.update_of_ne hid, h.files]
  · by_cases hid : id = upload.2.fileId
    · subst hid
      rw [Function.update_self] at hf
      cases hf
      refine ⟨⟨upload.2.objectId, upload.2.fileId, FileVariant.original.value,
        upload.1.key upload.2.fileId, upload.1.contentType, upload.1.content.length,
        some (ContentDigest.hexdigest upload.1.content)⟩, ?_,
        ⟨rfl, hstorable.originalName, ?_⟩, ?_⟩
      · have hnot : d.fileObjects.filter (·.fileId = upload.2.fileId) = [] :=
          List.filter_eq_nil_iff.2 fun o ho => by simpa using hother o ho
        rw [FilesDatabase.objectsOf, FilesDatabase.uploaded, List.filter_append, hnot]
        simp
      · exact FileObject.isOk_create.2 ⟨hstorable.storageKey, hstorable.contentType,
          hstorable.storedSize, (isOk_mapM_some _).2 hstorable.checksum⟩
      · rw [Function.update_self]
        rfl
    · rw [Function.update_of_ne hid] at hf
      obtain ⟨o, ho, hobject, hcontent⟩ := h.objects id f hf
      refine ⟨o, ?_, hobject, ?_⟩
      · rw [FilesDatabase.objectsOf, FilesDatabase.uploaded, List.filter_append,
          List.filter_cons_of_neg (by simpa using Ne.symm hid), List.filter_nil, List.append_nil]
        exact ho
      · rw [Function.update_of_ne (hkey o (mem_of_objectsOf ho).1), hcontent]
  · rcases List.mem_append.1 ho with ho | ho
    · rw [Function.update_of_ne (hother o ho)]
      exact h.filed o ho
    · rw [List.mem_singleton.1 ho, Function.update_self]
      exact Option.some_ne_none _
  · show (List.map FileObjectRecord.storageKey (d.fileObjects ++ [_])).Nodup
    rw [List.map_append, List.nodup_append]
    refine ⟨h.keys, List.nodup_singleton _, ?_⟩
    rintro _ hold _ hnew rfl
    obtain ⟨o, ho, hokey⟩ := List.mem_map.1 hold
    exact hkey o ho (hokey.trans (List.mem_singleton.1 hnew))

/-- A file is deleted, with its object and its content. -/
theorem delete (h : Shows d storage σ) {fileId : UUID} {o : FileObjectRecord}
    (ho : d.objectsOf fileId = [o]) :
    Shows (d.deleteFile fileId [o]) (Function.update storage o.storageKey none)
      (Function.update σ fileId none) := by
  refine ⟨fun id => ?_, fun id f hf => ?_, fun o' ho' => ?_, (List.filter_sublist.map _).nodup h.keys⟩
  · show (d.files.delete fileId).find id = _
    rw [Table.find_delete]
    by_cases hid : id = fileId
    · rw [if_pos hid, hid, Function.update_self]
      rfl
    · rw [if_neg hid, Function.update_of_ne hid, h.files]
  · by_cases hid : id = fileId
    · rw [hid, Function.update_self] at hf
      cases hf
    · rw [Function.update_of_ne hid] at hf
      obtain ⟨o', ho', hobject, hcontent⟩ := h.objects id f hf
      refine ⟨o', ?_, hobject, (h.update_content ho ho' hid _).trans hcontent⟩
      show (d.fileObjects.filter (· ∉ [o])).filter (·.fileId = id) = [o']
      rw [← ho', FilesDatabase.objectsOf, List.filter_filter]
      refine List.filter_congr fun q _ => ?_
      by_cases hq : q.fileId = id
      · have hne : q ≠ o := fun hqo => hid (hq.symm.trans (hqo ▸ (mem_of_objectsOf ho).2))
        simp [hq, hne]
      · simp [hq]
  · obtain ⟨ho', hne⟩ := List.mem_filter.1 ho'
    have hid : o'.fileId ≠ fileId := by
      intro hid
      have hin : o' ∈ d.objectsOf fileId := List.mem_filter.2 ⟨ho', decide_eq_true hid⟩
      rw [ho] at hin
      exact of_decide_eq_true hne hin
    rw [Function.update_of_ne hid]
    exact h.filed o' ho'

end Shows

/-! ## Requests -/

variable {mayFail : List FilesStatement → Prop} {d : FilesDatabase} {storage : ObjectStorage}
  {σ : Cabinet}

/-- An upload stores its content under its key, and nothing else. -/
theorem always_stores (command : UploadFileCommand) (ids : UploadIds) :
    let stored := Function.update storage (command.key ids.fileId) (some command.content)
    Prog.always FilesStatement.effect mayFail (fun _ _ _ _ storage' => storage' = stored)
      (fun _ _ storage' => storage' = storage ∨ storage' = stored)
        (UploadFileCommandUseCase.execute command ids) [] d d storage := by
  intro stored
  simp only [UploadFileCommandUseCase.execute, put, save, FilesTx.call, FilesTx.select,
    FilesTx.exec, FilesTx.insert, publish, Prog.bind_eq, Prog.always_bind_eq, Prog.always_pure]
  refine always_lift (fun file hfile =>
    always_lift (fun draft hdraft => ?_) fun _ => .inl rfl) fun _ => .inl rfl
  refine always_select (fun _ => .inl rfl) ?_
  rw [(FileObject.storageKey_of_create hdraft).1]
  refine always_lift (fun fileObject hobject => ?_) fun _ => .inr rfl
  refine always_insert rfl (fun _ => .inr rfl) fun _ => ?_
  refine always_insert rfl (fun _ => .inr rfl) fun _ => ?_
  refine always_insert rfl (fun _ => .inr rfl) fun _ => ?_
  exact always_commit (fun _ => .inr rfl) rfl

/-- A deletion deletes a file of its user, or does not end well and deletes nothing, or only its
    content. -/
theorem always_deletes (h : Shows d storage σ) (command : DeleteFileCommand) (stamp : Stamp) :
    Prog.always FilesStatement.effect mayFail
      (fun _ _ _ d' storage' => ∃ f, σ.owned command.fileId command.userId = some f ∧
        Shows d' storage' (Function.update σ command.fileId none))
      (fun _ d' storage' => Shows d' storage' σ ∨
        ∃ f, σ.owned command.fileId command.userId = some f ∧
        Shows d' storage' (Function.update σ command.fileId (some { f with lost := true })))
      (DeleteFileCommandUseCase.execute command stamp) [] d d storage := by
  simp only [DeleteFileCommandUseCase.execute, findAllByIdForUser, ensureNotReferenced,
    FilesTx.select, FilesTx.exec, Prog.bind_eq, Prog.always_bind_eq]
  refine always_select (fun _ => .inl h) ?_
  rw [h.fileOf]
  rcases howned : σ.owned command.fileId command.userId with - | f
  · exact .inl h
  simp only [Prog.always_bind_eq, Option.map_some]
  obtain ⟨o, ho, -, -⟩ := h.objects command.fileId f (Option.filter_eq_some_iff.1 howned).1
  refine always_select (fun _ => .inl h) ?_
  refine always_lift (fun storedFiles hstored => ?_) fun _ => .inl h
  have hkeys : storedFiles.map (·.fileObject.storageKey.value) =
      (d.objectsOf command.fileId).map (·.storageKey) :=
    keys_of_storedFileToDomain hstored
  rw [ho] at hkeys
  -- The file has one object.
  rcases storedFiles with - | ⟨storedFile, storedFiles⟩
  · exact .inl h
  obtain ⟨hkey, hnil⟩ := List.cons_eq_cons.1 hkeys
  obtain rfl := List.map_eq_nil_iff.1 hnil
  simp only [Prog.always_bind_eq, deleteContents, deleteContent, FilesTx.call, FilesTx.select,
    FilesTx.exec, hkey, SqlAlchemyFileRepository.deleteById, publish, FilesTx.insert, Prog.bind_eq,
    Prog.always_pure]
  refine always_select (fun _ => .inl h) ?_
  split
  · exact .inl h
  -- From here on its content is deleted.
  have hlost : ∃ f', some f = some f' ∧ Shows d (Function.update storage o.storageKey none)
      (Function.update σ command.fileId (some { f' with lost := true })) :=
    ⟨f, rfl, h.lose (Option.filter_eq_some_iff.1 howned).1 ho⟩
  rw [Prog.always_pure]
  refine always_select (fun _ => .inl h) ?_
  refine Prog.always_modify.2 ⟨?_, fun _ => ⟨.inr hlost, .inr hlost⟩⟩
  refine always_insert rfl (fun _ => .inr hlost) fun _ => ?_
  refine always_commit (fun _ => .inr hlost) ⟨f, rfl, ?_⟩
  obtain ⟨hfiles, hobjects, hfiled, hnodup⟩ := h.delete ho
  rw [← ho] at hfiles hobjects hfiled hnodup
  exact ⟨hfiles, hobjects, hfiled, hnodup⟩

/-- The upload of a request has new identities. -/
def FilesRequest.NewIn (d : FilesDatabase) : FilesRequest → Prop
  | .upload command ids => ∀ e ∈ Upload.entries (command, ids), d.hasEntry e = false
  | .delete .. => True

instance (d : FilesDatabase) (r : FilesRequest) : Decidable (r.NewIn d) :=
  match r with
  | .upload .. => inferInstanceAs (Decidable (∀ e ∈ _, _))
  | .delete .. => inferInstanceAs (Decidable True)

/-- The runs of a request, with its end, which may fail or be stopped anywhere. -/
def FilesRequest.Served (r : FilesRequest × Option (Except FilesError Unit))
    (x y : FilesDatabase × ObjectStorage) : Prop :=
  r.1.NewIn x.1 ∧ r.1.prog.Runs FilesStatement.effect (fun _ => True) [] x.1 x.1 x.2 ⟨r.2, y.1, y.2⟩

/-- A request does to the rows and the contents what it does to the cabinet. -/
theorem FilesRequest.Served.step {r : FilesRequest × Option (Except FilesError Unit)}
    {x y : FilesDatabase × ObjectStorage} (hr : FilesRequest.Served r x y)
    (h : Shows x.1 x.2 σ) : ∃ σ', Cabinet.Step r σ σ' ∧ Shows y.1 y.2 σ' := by
  obtain ⟨r, result⟩ := r
  obtain ⟨hnew, hr⟩ := hr
  cases r with
  | upload command ids =>
    have hexecute := @always_execute _ (fun _ => True) x.1 x.2 (command, ids) hnew
    have hrows : Prog.always FilesStatement.effect (fun _ => True)
        (fun (_ : UploadFileResult) _ _ d' (_ : ObjectStorage) =>
          Storable (command, ids) ∧ d' = x.1.uploaded (command, ids))
        (fun _ d' _ => d' = x.1) (UploadFileCommandUseCase.execute command ids) [] x.1 x.1 x.2 :=
      Prog.always_mono (fun _ _ _ _ _ h => ⟨h.1, h.2.1⟩) (fun _ _ _ h => h.1) hexecute
    have hrows := hr.sound (Q := fun _ _ _ d' _ => Storable (command, ids) ∧
      d' = x.1.uploaded (command, ids))
      (Prog.always_bind.2 hrows)
    have hstored := hr.sound
      (Q := fun _ _ _ _ storage' =>
        storage' = Function.update x.2 (command.key ids.fileId) (some command.content))
      (Prog.always_bind.2 (always_stores command ids))
    -- The content may be stored without the rows, under a key of its own.
    have hput : Shows x.1 (Function.update x.2 (command.key ids.fileId) (some command.content)) σ :=
      h.put hnew _
    have hrefused {e : Option FilesError} (hresult : result = e.map .error) (hd : y.1 = x.1)
        (hstorage : y.2 = x.2 ∨
          y.2 = Function.update x.2 (command.key ids.fileId) (some command.content)) :
        ∃ σ', Cabinet.Step (.upload command ids, result) σ σ' ∧ Shows y.1 y.2 σ' := by
      refine ⟨σ, .refused ?_, ?_⟩
      · rw [hresult]
        rcases e with - | e
        · simp
        · simp
      · rcases hstorage with hstorage | hstorage
        · rwa [hd, hstorage]
        · rwa [hd, hstorage]
    rcases result with - | e | a
    · exact hrefused (e := none) rfl hrows hstored
    · exact hrefused (e := some e) rfl hrows hstored
    · obtain ⟨_, _, hstorable, hd⟩ := hrows
      obtain ⟨_, _, hstorage⟩ := hstored
      obtain ⟨hnone, hshows⟩ := h.upload hnew hstorable
      refine ⟨_, .uploaded hnone, ?_⟩
      show Shows y.1 y.2 _
      rw [show y.1 = _ from hd, show y.2 = _ from hstorage]
      exact hshows
  | delete command stamp =>
    have hend := hr.sound (always_deletes h command stamp)
    rcases result with - | e | a
    · rcases hend with hσ | ⟨f, hf, hσ⟩
      · exact ⟨σ, .refused (by simp), hσ⟩
      · exact ⟨_, .lost hf (by simp), hσ⟩
    · rcases hend with hσ | ⟨f, hf, hσ⟩
      · exact ⟨σ, .refused (by simp), hσ⟩
      · exact ⟨_, .lost hf (by simp), hσ⟩
    · obtain ⟨_, _, f, hf, hσ⟩ := hend
      exact ⟨_, .deleted hf, hσ⟩

/-! ## Queries -/

omit [ContentDigest] in
theorem filesSelect_alone {α : Type} (s : FilesStatement) (f : FilesDatabase → α) :
    (FilesTx.select s f).alone (fun _ => false) d d = ⟨.ok (f d), d, d⟩ := Prog.alone_query rfl

/-- The file of an object is read. -/
theorem Filed.IsObject.stored {f : Filed} {fileId : UUID} {o : FileObjectRecord}
    (h : f.IsObject fileId o) :
    ∃ storedFile, storedFileToDomain ⟨fileId, f.userId, f.originalName⟩ o = .ok storedFile ∧
      storedFile.file.toRecord = ⟨fileId, f.userId, f.originalName⟩ ∧
      storedFile.fileObject.toRecord = o := by
  have hname : (File.create fileId f.userId f.originalName).isOk = true :=
    File.isOk_create.2 h.originalName
  obtain ⟨file, hfile⟩ := isOk_iff.1 hname
  obtain ⟨object, hobject⟩ := isOk_iff.1 h.object
  refine ⟨⟨file, object⟩, ?_, File.toRecord_of_create hfile, ?_⟩
  · rw [storedFileToDomain, hfile, h.record]
    show (FileObject.create o.id fileId o.storageKey f.contentType f.content.length .original
      _ >>= _) = _
    rw [hobject]
    rfl
  · rw [FileObject.toRecord_of_create hobject]
    exact h.record.symm

/-- What is found of a file, and of its content. -/
structure Filed.Found (f : Filed) (fileId : UUID) (storage : ObjectStorage)
    (storedFile : StoredFile) : Prop where
  id : storedFile.file.id = fileId
  originalName : storedFile.file.originalName.value = f.originalName
  contentType : storedFile.fileObject.contentType.value = f.contentType
  size : storedFile.fileObject.size.value = f.content.length
  content : storage storedFile.fileObject.storageKey.value = if f.lost then none else some f.content

theorem findByIdForUser_none (h : Shows d storage σ) {fileId userId : UUID}
    (hnone : σ.owned fileId userId = none) :
    (findByIdForUser fileId userId).alone (fun _ => false) d d = ⟨.ok none, d, d⟩ := by
  rw [findByIdForUser, Prog.bind_eq, Prog.alone_bind_ok (filesSelect_alone _ _), h.fileOf, hnone]
  rfl

theorem findByIdForUser_some (h : Shows d storage σ) {fileId userId : UUID} {f : Filed}
    (hsome : σ.owned fileId userId = some f) : ∃ storedFile, f.Found fileId storage storedFile ∧
      (findByIdForUser fileId userId).alone (fun _ => false) d d = ⟨.ok (some storedFile), d, d⟩ := by
  obtain ⟨o, ho, hobject, hcontent⟩ := h.objects fileId f (Option.filter_eq_some_iff.1 hsome).1
  obtain ⟨storedFile, hstored, hfile, hrecord⟩ := hobject.stored
  have hvariant : o.variantType = FileVariant.original.value :=
    congrArg FileObjectRecord.variantType hobject.record
  have hfound : (d.objectsOf fileId).find? (·.variantType = FileVariant.original.value) = some o := by
    rw [ho, List.find?_cons_of_pos]
    exact decide_eq_true hvariant
  refine ⟨storedFile,
    ⟨congrArg FileRecord.id hfile, congrArg FileRecord.originalName hfile, ?_, ?_, ?_⟩, ?_⟩
  · exact (congrArg FileObjectRecord.contentType hrecord).trans
      (congrArg FileObjectRecord.contentType hobject.record)
  · exact (congrArg FileObjectRecord.size hrecord).trans
      (congrArg FileObjectRecord.size hobject.record)
  · have hkey : storedFile.fileObject.storageKey.value =
        o.storageKey := congrArg FileObjectRecord.storageKey hrecord
    rw [hkey, hcontent]
  · rw [findByIdForUser, Prog.bind_eq, Prog.alone_bind_ok (filesSelect_alone _ _), h.fileOf, hsome]
    simp only [Option.map_some, Prog.bind_eq]
    rw [Prog.alone_bind_ok (filesSelect_alone _ _)]
    simp only [hfound, hstored]
    rfl

theorem getFile_serve (h : Shows d storage σ) (query : FileQuery) :
    ((GetFileQueryUseCase.execute query).serve d).result = σ.got query := by
  rw [GetFileQueryUseCase.execute, Cabinet.got, Prog.bind_eq, Prog.serve]
  rcases howned : σ.owned query.fileId query.userId with - | f
  · rw [Prog.alone_bind_ok (findByIdForUser_none h howned)]
    rfl
  · obtain ⟨storedFile, hfound, halone⟩ := findByIdForUser_some h howned
    rw [Prog.alone_bind_ok halone]
    show Except.ok _ = Except.ok _
    rw [hfound.id, hfound.originalName, hfound.contentType, hfound.size]

theorem openFileContent_serve (h : Shows d storage σ) (query : FileQuery) :
    ((OpenFileContentQueryUseCase.execute query).serve d).result.map (· storage) =
      σ.opened query := by
  rw [OpenFileContentQueryUseCase.execute, Cabinet.opened, Prog.bind_eq, Prog.serve]
  rcases howned : σ.owned query.fileId query.userId with - | f
  · rw [Prog.alone_bind_ok (findByIdForUser_none h howned)]
    rfl
  · obtain ⟨storedFile, hfound, halone⟩ := findByIdForUser_some h howned
    rw [Prog.alone_bind_ok halone]
    show Except.ok ((storage storedFile.fileObject.storageKey.value).map _) = Except.ok _
    rw [hfound.content, hfound.contentType, hfound.size]
    split
    · rfl
    · rfl

/-! ## Runs -/

/-- Where a file of a cabinet comes from: it was there, or has been uploaded, and its content is
    lost only by a deletion of its owner that did not end well. -/
def Cabinet.Origin (σ : Cabinet) (log : List (FilesRequest × Option (Except FilesError Unit)))
    (fileId : UUID) (f : Filed) : Prop :=
  ∃ f₀ : Filed, (σ fileId = some f₀ ∨ ∃ command ids, (.upload command ids, some (.ok ())) ∈ log ∧
    ids.fileId = fileId ∧
      f₀ = command.filed) ∧
    (f = f₀ ∨ f = { f₀ with lost := true } ∧
      ∃ stamp x, (.delete ⟨fileId, f₀.userId⟩ stamp, x) ∈ log ∧ x ≠ some (.ok ()))

omit [ContentDigest] in
theorem Cabinet.Origin.mono {log log' : List (FilesRequest × Option (Except FilesError Unit))}
    {fileId : UUID} {f : Filed} (h : Cabinet.Origin σ log fileId f)
    (hsub : log ⊆ log') : Cabinet.Origin σ log' fileId f := by
  obtain ⟨f₀, hstart, hend⟩ := h
  refine ⟨f₀, hstart.imp_right ?_, hend.imp_right ?_⟩
  · rintro ⟨command, ids, hmem, hid⟩
    exact ⟨command, ids, hsub hmem, hid⟩
  · rintro ⟨hf, stamp, x, hmem, hx⟩
    exact ⟨hf, stamp, x, hsub hmem, hx⟩

omit [ContentDigest] in
theorem Cabinet.origin {σ' : Cabinet} {log : List (FilesRequest × Option (Except FilesError Unit))}
    (h : Serial Cabinet.Step σ log σ') : ∀ fileId f, σ' fileId = some f →
    Cabinet.Origin σ log fileId f := by
  induction h with
  | nil => exact fun fileId f hf => ⟨f, .inl hf, .inl rfl⟩
  | @snoc order r σ₁ σ₂ _ hstep ih =>
    intro fileId f hf
    have hsub : order ⊆ order ++ [r] := List.subset_append_left _ _
    cases hstep with
    | @uploaded command ids _ hnone =>
      by_cases hid : fileId = ids.fileId
      · subst hid
        rw [Function.update_self] at hf
        cases hf
        exact ⟨_, .inr ⟨command, ids, List.mem_append_right _ List.mem_cons_self, rfl, rfl⟩, .inl rfl⟩
      · rw [Function.update_of_ne hid] at hf
        exact (ih fileId f hf).mono hsub
    | @deleted command stamp _ f' howned =>
      by_cases hid : fileId = command.fileId
      · rw [hid, Function.update_self] at hf
        cases hf
      · rw [Function.update_of_ne hid] at hf
        exact (ih fileId f hf).mono hsub
    | @lost command stamp _ f' x howned hx =>
      by_cases hid : fileId = command.fileId
      · subst hid
        rw [Function.update_self] at hf
        cases hf
        obtain ⟨hf', huser⟩ := Option.filter_eq_some_iff.1 howned
        have huser : f'.userId = command.userId := of_decide_eq_true huser
        obtain ⟨f₀, hstart, hend⟩ := (ih _ f' hf').mono hsub
        -- The content was lost before, or is lost now.
        have hlost : { f' with lost := true } = { f₀ with lost := true } ∧ f'.userId = f₀.userId := by
          rcases hend with rfl | ⟨rfl, -⟩
          · exact ⟨rfl, rfl⟩
          · exact ⟨rfl, rfl⟩
        refine ⟨f₀, hstart, .inr ⟨hlost.1, stamp, x, List.mem_append_right _ ?_, hx⟩⟩
        rw [← hlost.2, huser]
        exact List.mem_cons_self
      · rw [Function.update_of_ne hid] at hf
        exact (ih fileId f hf).mono hsub
    | refused => exact (ih fileId f hf).mono hsub

/-- Uploads and deletions do to the rows and the contents what they do to the cabinet, and what is
    read is what the cabinet has: what was uploaded. -/
theorem files_refine_cabinet {x y : FilesDatabase × ObjectStorage} (hx : Shows x.1 x.2 σ)
    {log : List (FilesRequest × Option (Except FilesError Unit))}
    (hlog : Serial FilesRequest.Served x log y) :
    ∃ σ', Serial Cabinet.Step σ log σ' ∧
      (∀ query, ((GetFileQueryUseCase.execute query).serve y.1).result = σ'.got query ∧
        ((OpenFileContentQueryUseCase.execute query).serve y.1).result.map (· y.2) =
          σ'.opened query) ∧
      ∀ fileId f, σ' fileId = some f → Cabinet.Origin σ log fileId f := by
  have hstep : ∀ (r : FilesRequest × Option (Except FilesError Unit))
    (x y : FilesDatabase × ObjectStorage) (σ : Cabinet),
      Shows x.1 x.2 σ → FilesRequest.Served r x y → ∃ σ', Cabinet.Step r σ σ' ∧ Shows y.1 y.2 σ' :=
    fun r x y σ h hr => hr.step h
  obtain ⟨σ', hσ, hy⟩ := Serial.refines hstep hlog hx
  exact ⟨σ', hσ, fun query => ⟨getFile_serve hy query, openFileContent_serve hy query⟩,
    Cabinet.origin hσ⟩

end

/-! ## A content that is lost -/

/-- The request draws new identities, and ends with this result under the faults. -/
abbrev FilesRequest.EndsWith (r : FilesRequest) (faults : List Bool)
    (result : Option (Except FilesError Unit)) (x : FilesDatabase × ObjectStorage) : Prop :=
  letI := lengthDigest
  r.NewIn x.1 ∧ (r.prog.run FilesStatement.effect faults x.1 x.1 x.2).result = result

theorem FilesRequest.EndsWith.served {r : FilesRequest} {faults : List Bool}
    {result : Option (Except FilesError Unit)} {x : FilesDatabase × ObjectStorage}
    (h : r.EndsWith faults result x) :
    letI := lengthDigest; FilesRequest.Served (r, result) x (r.after faults x) := by
  let _ := lengthDigest
  obtain ⟨hnew, rfl⟩ := h
  exact ⟨hnew, Prog.runs_run fun _ _ => trivial⟩

/-- What is opened of a file of the photos. -/
abbrev openedPhoto (fileId : UUID) (x : FilesDatabase × ObjectStorage) :
    Except FilesError (Option OpenFileContentResult) :=
  ((OpenFileContentQueryUseCase.execute ⟨fileId, photo.userId⟩).serve x.1).result.map (· x.2)

/-- A deletion of the first photo that cannot be committed. -/
def lostRequests : List (FilesRequest × List Bool) :=
  photoRequests.take 3 ++ [(deletePhoto, [false, false, false, false, false, false, true])]

/-- Two photos are uploaded, but not a third one. The first is filed without its content then, and
    the second is opened as it is. -/
theorem photo_filed :
    ∃ σ : Cabinet, Serial Cabinet.Step (fun _ => none)
        [(.upload photo photoIds, some (.ok ())), (.upload photo (otherIds 12), some (.ok ())),
          (.upload photo (otherIds 22), some (.error .commitFailed)),
            (deletePhoto, some (.error .commitFailed))] σ ∧
      σ.opened ⟨photoIds.fileId, photo.userId⟩ = .ok none ∧
      σ.opened ⟨.ofNat 12, photo.userId⟩ = .ok (some ⟨photo.content, photo.contentType, photo.size⟩) ∧
      σ.opened ⟨.ofNat 22, photo.userId⟩ = .error .notFound := by
  let _ := lengthDigest
  have hempty : Shows .empty (fun _ => none) fun _ => none :=
    ⟨fun _ => rfl, fun _ _ h => (by cases h), fun o ho => absurd ho List.not_mem_nil, List.nodup_nil⟩
  -- One evaluation, for which each state is evaluated once.
  obtain ⟨hfirst, hsecond, hthird, hdelete, hlost, hkept, hnone⟩ :
      (FilesRequest.upload photo photoIds).EndsWith [] (some (.ok ()))
        (afterAll (lostRequests.take 0)) ∧
      (FilesRequest.upload photo (otherIds 12)).EndsWith [] (some (.ok ()))
        (afterAll (lostRequests.take 1)) ∧
      (FilesRequest.upload photo (otherIds 22)).EndsWith [false, false, false, false, true]
        (some (.error .commitFailed)) (afterAll (lostRequests.take 2)) ∧
      deletePhoto.EndsWith [false, false, false, false, false, false, true]
        (some (.error .commitFailed))
        (afterAll (lostRequests.take 3)) ∧
      openedPhoto photoIds.fileId (afterAll lostRequests) = .ok none ∧
      openedPhoto (.ofNat 12) (afterAll lostRequests) =
        .ok (some ⟨photo.content, photo.contentType, photo.size⟩) ∧
      openedPhoto (.ofNat 22) (afterAll lostRequests) = .error .notFound := by decide +kernel
  obtain ⟨σ, hσ, hread, -⟩ := files_refine_cabinet hempty
    ((((Serial.nil.snoc hfirst.served).snoc hsecond.served).snoc hthird.served).snoc hdelete.served)
  exact ⟨σ, hσ, (hread _).2.symm.trans hlost, (hread _).2.symm.trans hkept,
    (hread _).2.symm.trans hnone⟩

end Boat.Files
