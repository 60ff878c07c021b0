import Boat.Files.UseCases
import Boat.ReadCommitted.External

/-!
# Files: contents

Whether every stored file has its content in the object storage, for uploads and deletions that run
one after the other, and fail or are stopped at any point. An upload stores the content before the
rows. A deletion deletes the contents before the rows, so that a failure in between leaves rows
without them.

* `files_have_content`: every row has its content, and a deletion that raises changes nothing, in
  all runs in which no deletion fails or is stopped once it has deleted a content
  (`NothingDeleted`).
* `file_without_content`: there are others.
-/

namespace Boat.Files

open ReadCommitted SqlAlchemyFileRepository

inductive FilesRequest
  | upload (command : UploadFileCommand) (ids : UploadIds)
  | delete (command : DeleteFileCommand) (stamp : Stamp)

/-- The program of a request. -/
def FilesRequest.prog [ContentDigest] : FilesRequest → FilesTx Unit
  | .upload command ids => do let _ ← UploadFileCommandUseCase.execute command ids
  | .delete command stamp => DeleteFileCommandUseCase.execute command stamp

/-- The database and the object storage after a request, which may fail where `mayFail` allows it. -/
def FilesRequest.Executed [ContentDigest] (mayFail : List FilesStatement → Prop) (r : FilesRequest)
    (x y : FilesDatabase × ObjectStorage) : Prop :=
  ∃ result, r.prog.Runs FilesStatement.effect mayFail [] x.1 x.1 x.2 ⟨result, y.1, y.2⟩

/-- No content has been deleted. -/
def NothingDeleted (executed : List FilesStatement) : Prop := ∀ key, .deleteContent key ∉ executed

/-- The statement is not one that deletes a content. -/
def FilesStatement.keepsContents : FilesStatement → Bool
  | .deleteContent _ => false
  | _ => true

theorem FilesStatement.keepsContents_iff {s : FilesStatement} : s.keepsContents = true ↔
    ∀ key, s ≠ .deleteContent key := by
  cases s <;> simp [keepsContents]

instance (executed : List FilesStatement) : Decidable (NothingDeleted executed) :=
  decidable_of_iff (∀ s ∈ executed, s.keepsContents = true)
    ⟨fun h key hkey => FilesStatement.keepsContents_iff.1 (h _ hkey) key rfl,
    fun h _ hs => FilesStatement.keepsContents_iff.2 fun key heq => h key (heq ▸ hs)⟩

/-- Every object of a file has its content, under a key of its own. -/
structure HasContents (d : FilesDatabase) (storage : ObjectStorage) : Prop where
  keys : (d.fileObjects.map (·.storageKey)).Nodup
  content : ∀ o ∈ d.fileObjects, storage o.storageKey ≠ none

section

variable {mayFail : List FilesStatement → Prop} {ls : List FilesStatement} {v d : FilesDatabase}
  {storage : ObjectStorage}
  {X : Option FilesError → FilesDatabase → ObjectStorage → Prop}

section

variable {α : Type}
  {Q : α → List FilesStatement → FilesDatabase → FilesDatabase → ObjectStorage → Prop}

theorem always_lift {r : Except DomainError α} (hQ : ∀ a, r = .ok a → Q a ls v d storage)
    (hX : ∀ e, X e d storage) :
    Prog.always FilesStatement.effect mayFail Q X (FilesTx.lift r) ls v d storage := by
  rcases r with e | a
  · exact hX _
  · exact hQ a rfl

theorem always_select {s : FilesStatement} {f : FilesDatabase → α} (hX : ∀ e, X e d storage)
    (hQ : Q (f v) (s :: ls) v d (s.effect storage)) :
    Prog.always FilesStatement.effect mayFail Q X
      (Prog.exec s (.fault s) (.query (fun _ => []) f)) ls v d storage :=
  Prog.always_query.2 ⟨hQ, fun _ => ⟨hX _, hX _⟩⟩

end

variable {Q : Unit → List FilesStatement → FilesDatabase → FilesDatabase → ObjectStorage → Prop}

theorem always_insert {s : FilesStatement} {entries : List FilesEntry}
    {w : FilesDatabase → FilesDatabase} {hw : Touches (entries.map FilesLock.entry) w}
    (hs : s.effect storage = storage) (hX : ∀ e, X e d storage)
    (hQ : (∀ e ∈ entries, v.hasEntry e = false) → Q () (s :: ls) (w v) d storage) :
    Prog.always FilesStatement.effect mayFail Q X
      (Prog.exec s (.fault s) (.insert .entry FilesDatabase.hasEntry .integrity entries w hw)) ls v
        d storage := by
  refine Prog.always_insert ?_ ?_ fun _ => ⟨hX _, hX _⟩
  · rw [hs]
    exact hQ
  · rw [hs]
    exact fun _ _ _ => ⟨hX _, fun _ => hX _⟩

theorem always_commit (hX : ∀ e, X e d storage) (hQ : Q () ls v v storage) :
    Prog.always FilesStatement.effect mayFail Q X (Prog.commitOr .commitFailed) ls v d storage :=
  Prog.always_commitOr.2 ⟨hQ, fun _ => ⟨hX _, hX _⟩⟩

/-! ## Uploads -/

/-- Other contents stay when one is stored. -/
theorem HasContents.put (h : HasContents d storage) (key : String) (content : Bytes) :
    HasContents d (Function.update storage key (some content)) := by
  refine ⟨h.keys, fun o ho => ?_⟩
  by_cases hkey : o.storageKey = key
  · rw [hkey, Function.update_self]
    exact Option.some_ne_none _
  · rw [Function.update_of_ne hkey]
    exact h.content o ho

/-- An upload leaves every object with its content. -/
theorem always_upload [ContentDigest] (command : UploadFileCommand) (ids : UploadIds)
    (h : HasContents d storage) :
    Prog.always FilesStatement.effect mayFail (fun _ _ _ d storage => HasContents d storage)
      (fun _ d storage => HasContents d storage) (UploadFileCommandUseCase.execute command ids)
        [] d d storage := by
  simp only [UploadFileCommandUseCase.execute, put, save, FilesTx.call, FilesTx.select,
    FilesTx.exec, FilesTx.insert, publish, Prog.bind_eq, Prog.always_bind_eq, Prog.always_pure]
  refine always_lift (fun file hfile => always_lift (fun draft hdraft => ?_) fun _ => h) fun _ => h
  refine always_select (fun _ => h) ?_
  have hput := h.put draft.storageKey.value command.content
  refine always_lift (fun fileObject hobject => ?_) fun _ => hput
  have hkey : fileObject.storageKey.value = draft.storageKey.value :=
    (FileObject.storageKey_of_create hobject).1
  refine always_insert rfl (fun _ => hput) fun _ => ?_
  refine always_insert rfl (fun _ => hput) fun hentries => ?_
  refine always_insert rfl (fun _ => hput) fun _ => ?_
  refine always_commit (fun _ => hput) ?_
  -- The new object has a key of its own, under which its content has been stored.
  have hnew :=
    hentries (.storageKey fileObject.storageKey.value) (List.mem_cons_of_mem _ List.mem_cons_self)
  rw [FilesDatabase.hasEntry_eq_false] at hnew
  show HasContents { d with
    files := d.files.insert file.toRecord
    fileObjects := d.fileObjects ++ [fileObject.toRecord]
    outboxEvents := _ } (Function.update storage draft.storageKey.value (some command.content))
  constructor
  · show ((d.fileObjects ++ [fileObject.toRecord]).map (·.storageKey)).Nodup
    rw [List.map_append, List.nodup_append]
    refine ⟨h.keys, List.nodup_singleton _, ?_⟩
    rintro key hkey' _ hkey'' rfl
    obtain ⟨o, ho, hokey⟩ := List.mem_map.1 hkey'
    have hkey₂ : key = fileObject.storageKey.value := List.mem_singleton.1 hkey''
    refine hnew.2 o ho (List.mem_cons_of_mem _ ?_)
    rw [hokey, hkey₂]
    exact List.mem_cons_self
  · intro o ho
    rcases List.mem_append.1 ho with ho | ho
    · exact hput.content o ho
    · rw [List.mem_singleton.1 ho]
      show Function.update storage draft.storageKey.value
        (some command.content) fileObject.storageKey.value ≠ none
      rw [hkey, Function.update_self]
      exact Option.some_ne_none _

/-! ## Deletions -/

/-- The storage without the contents of some keys. -/
def without (keys : List String) (storage : ObjectStorage) : ObjectStorage :=
  fun key => if key ∈ keys then none else storage key

theorem without_update (keys : List String) (key : String) :
    without keys (Function.update storage key none) = without (key :: keys) storage := by
  funext key'
  by_cases h : key' = key
  · simp [without, h]
  · simp [without, h]

theorem not_nothingDeleted (key : String) : ¬NothingDeleted (.deleteContent key :: ls) :=
  fun h => h key List.mem_cons_self

theorem not_nothingDeleted_cons {s : FilesStatement}
    (h : ¬NothingDeleted ls) : ¬NothingDeleted (s :: ls) :=
  fun h' => h fun key hkey => h' key (List.mem_cons_of_mem _ hkey)

/-- Once a content has been deleted, no deletion of another one fails. -/
theorem always_deleteContents
    {Q : Unit → List FilesStatement → FilesDatabase → FilesDatabase → ObjectStorage → Prop}
    {storedFiles : List StoredFile} (hdeleted : ¬NothingDeleted ls)
    (hQ : ∀ ls, ¬NothingDeleted ls →
      Q () ls v d (without (storedFiles.map (·.fileObject.storageKey.value)) storage)) :
    Prog.always FilesStatement.effect NothingDeleted Q X
      (deleteContents storedFiles) ls v d storage := by
  induction storedFiles generalizing ls storage with
  | nil =>
    exact hQ ls hdeleted
  | cons storedFile storedFiles ih =>
    refine Prog.always_bind.2
      (Prog.always_query.2 ⟨ih (not_nothingDeleted _) fun ls hls => ?_, fun h => absurd h hdeleted⟩)
    show Q () ls v d (without _ (Function.update storage storedFile.fileObject.storageKey.value none))
    rw [without_update]
    exact hQ ls hls

/-- The objects of a file keep their keys when they are read. -/
theorem keys_of_storedFileToDomain {fileRecord : FileRecord} {records : List FileObjectRecord}
    {storedFiles : List StoredFile}
    (h : records.mapM (storedFileToDomain fileRecord) = .ok storedFiles) :
    storedFiles.map (·.fileObject.storageKey.value) = records.map (·.storageKey) := by
  induction records generalizing storedFiles with
  | nil =>
    cases h
    rfl
  | cons r records ih =>
    rw [List.mapM_cons] at h
    obtain ⟨storedFile, hr, h⟩ := except_bind_eq_ok.1 h
    obtain ⟨storedFiles', hrecords, h⟩ := except_bind_eq_ok.1 h
    cases h
    have hkey : storedFile.fileObject.storageKey.value = r.storageKey := by
      obtain ⟨_, _, hr⟩ := except_bind_eq_ok.1 hr
      obtain ⟨_, _, hr⟩ := except_bind_eq_ok.1 hr
      obtain ⟨fileObject, hobject, hr⟩ := except_bind_eq_ok.1 hr
      cases hr
      exact (FileObject.storageKey_of_create hobject).1
    rw [List.map_cons, List.map_cons, hkey, ih hrecords]

/-- The other objects keep their contents when a file is deleted with the contents of its objects. -/
theorem HasContents.deleteFile (h : HasContents d storage) (fileId : UUID) :
    HasContents (d.deleteFile fileId (d.objectsOf fileId))
      (without ((d.objectsOf fileId).map (·.storageKey)) storage) := by
  constructor
  · exact (List.filter_sublist.map _).nodup h.keys
  · intro o ho
    obtain ⟨ho, hother⟩ := List.mem_filter.1 ho
    have hkey : o.storageKey ∉ (d.objectsOf fileId).map (·.storageKey) := by
      intro hkey
      obtain ⟨o', ho', hkey⟩ := List.mem_map.1 hkey
      have : o' = o := List.inj_on_of_nodup_map h.keys (List.mem_of_mem_filter ho') ho hkey
      exact of_decide_eq_true hother (this ▸ ho')
    rw [without, if_neg hkey]
    exact h.content o ho

theorem HasContents.of_fileObjects {d' : FilesDatabase} (h : HasContents d storage)
    (heq : d'.fileObjects = d.fileObjects) :
    HasContents d' storage := ⟨heq ▸ h.keys, heq ▸ h.content⟩

/-- A deletion leaves every object with its content, or raises and changes nothing. -/
theorem always_delete [ContentDigest] (command : DeleteFileCommand) (stamp : Stamp)
    (h : HasContents d storage) :
    Prog.always FilesStatement.effect NothingDeleted (fun _ _ _ d storage => HasContents d storage)
      (fun _ d' storage' => d' = d ∧ storage' = storage)
        (DeleteFileCommandUseCase.execute command stamp) [] d d storage := by
  simp only [DeleteFileCommandUseCase.execute, findAllByIdForUser, ensureNotReferenced,
    FilesTx.select, FilesTx.exec, Prog.bind_eq, Prog.always_bind_eq]
  refine always_select (fun _ => ⟨rfl, rfl⟩) ?_
  rcases hfile : d.fileOf command.fileId command.userId with - | fileRecord
  · exact ⟨rfl, rfl⟩
  simp only [Prog.always_bind_eq]
  refine always_select (fun _ => ⟨rfl, rfl⟩) ?_
  refine always_lift (fun storedFiles hstored => ?_) fun _ => ⟨rfl, rfl⟩
  rcases storedFiles with - | ⟨storedFile, storedFiles⟩
  · exact ⟨rfl, rfl⟩
  simp only [Prog.always_bind_eq, SqlAlchemyFileRepository.deleteById, FilesTx.exec, publish,
    FilesTx.insert, Prog.bind_eq, Prog.always_pure]
  refine always_select (fun _ => ⟨rfl, rfl⟩) ?_
  split
  · exact ⟨rfl, rfl⟩
  -- Nothing fails from the first content on that is deleted.
  refine Prog.always_bind.2 (Prog.always_query.2 ⟨?_, fun _ => ⟨⟨rfl, rfl⟩, rfl, rfl⟩⟩)
  refine always_deleteContents (not_nothingDeleted _) fun ls hls => ?_
  refine Prog.always_modify.2 ⟨?_, fun h => absurd h hls⟩
  refine Prog.always_insert (fun _ => ?_) (fun _ he => absurd he List.not_mem_nil) fun h =>
    absurd h (not_nothingDeleted_cons hls)
  refine Prog.always_commitOr.2 ⟨?_, fun h =>
    absurd h (not_nothingDeleted_cons (not_nothingDeleted_cons hls))⟩
  refine HasContents.of_fileObjects
    (d := d.deleteFile command.fileId (d.objectsOf command.fileId)) ?_ rfl
  show HasContents (d.deleteFile command.fileId (d.objectsOf command.fileId))
    (without _ (Function.update storage _ none))
  have hkeys := keys_of_storedFileToDomain hstored
  rw [List.map_cons, (Table.find_eq_some.1 (FilesDatabase.fileOf_eq_some.1 hfile).1).2] at hkeys
  rw [without_update, hkeys]
  exact h.deleteFile command.fileId

end

/-! ## Runs -/

section

variable [ContentDigest]

/-- A request keeps a content for every object, unless it fails once it has deleted a content. -/
theorem FilesRequest.Executed.hasContents {r : FilesRequest} {x y : FilesDatabase × ObjectStorage}
    (hr : r.Executed NothingDeleted x y) (h : HasContents x.1 x.2) : HasContents y.1 y.2 := by
  obtain ⟨result, hr⟩ := hr
  rcases r with ⟨command, ids⟩ | ⟨command, stamp⟩
  · have hp := hr.sound (Q := fun _ _ _ d storage => HasContents d storage)
      (X := fun _ d storage => HasContents d storage)
      (Prog.always_bind.2 (always_upload command ids h))
    rcases result with - | e | a
    · exact hp
    · exact hp
    · obtain ⟨_, _, hp⟩ := hp
      exact hp
  · have hp := hr.sound (always_delete command stamp h)
    rcases result with - | e | a
    · obtain ⟨hd, hstorage⟩ := hp
      show HasContents y.1 y.2
      rw [show y.1 = x.1 from hd, show y.2 = x.2 from hstorage]
      exact h
    · obtain ⟨hd, hstorage⟩ := hp
      rw [show y.1 = x.1 from hd, show y.2 = x.2 from hstorage]
      exact h
    · obtain ⟨_, _, hp⟩ := hp
      exact hp

/-- In all runs in which no deletion fails or is stopped once it has deleted a content, every file
    has its content, and a deletion that raises leaves the rows and the contents. -/
theorem files_have_content {x y : FilesDatabase × ObjectStorage} {requests : List FilesRequest}
    (hx : HasContents x.1 x.2) (hrun : Serial (fun r => r.Executed NothingDeleted) x requests y) :
    HasContents y.1 y.2 ∧ ∀ command stamp e d storage,
      (DeleteFileCommandUseCase.execute command stamp).Runs FilesStatement.effect NothingDeleted
        [] y.1 y.1 y.2
        ⟨some (.error e), d, storage⟩ → (d, storage) = y := by
  have hy : HasContents y.1 y.2 :=
    hrun.keeps (p := fun x => HasContents x.1 x.2) (fun _ _ _ hr => hr.hasContents) hx
  refine ⟨hy, fun command stamp e d storage hr => ?_⟩
  obtain ⟨hd, hstorage⟩ := hr.sound (always_delete command stamp hy)
  exact Prod.ext hd hstorage

end

/-! ## A run that leaves a file without its content -/

/-- A digest of contents: their length. -/
@[reducible] def lengthDigest : ContentDigest := ⟨fun content => toString content.length⟩

def photo : UploadFileCommand where
  userId := .ofNat 1
  originalName := "photo.png"
  contentType := "image/png"
  size := 1
  content := [0]

def photoIds : UploadIds := ⟨.ofNat 2, .ofNat 3, .ofNat 4, ⟨.ofNat 5, 0⟩⟩

def deletePhoto : FilesRequest := .delete ⟨.ofNat 2, .ofNat 1⟩ ⟨.ofNat 6, 0⟩

/-- The database and the storage after a request, in which the steps fail that `faults` says. -/
def FilesRequest.after (r : FilesRequest) (faults : List Bool) (x : FilesDatabase × ObjectStorage) :
    FilesDatabase × ObjectStorage :=
  letI := lengthDigest
  let ending := r.prog.run FilesStatement.effect faults x.1 x.1 x.2
  (ending.store, ending.external)

theorem FilesRequest.executed_after (r : FilesRequest) (mayFail : List FilesStatement → Prop)
    (faults : List Bool) (x : FilesDatabase × ObjectStorage) : letI := lengthDigest
    (∀ ls ∈ r.prog.failsAfter faults [] x.1 x.1, mayFail ls) →
      r.Executed mayFail x (r.after faults x) := by
  let _ := lengthDigest
  exact fun h => ⟨_, Prog.runs_run h⟩

/-- Nothing fails of a request without faults. -/
theorem FilesRequest.executed_after_nil (r : FilesRequest) (mayFail : List FilesStatement → Prop)
    (x : FilesDatabase × ObjectStorage) : letI :=
  lengthDigest; r.Executed mayFail x (r.after [] x) := by
  refine r.executed_after mayFail [] x fun ls hls => ?_
  rw [Prog.failsAfter_nil] at hls
  cases hls

/-- The content of a file is deleted before its rows: a deletion whose commit fails leaves them
    without it. -/
theorem file_without_content : letI := lengthDigest
    ∃ y, Serial (fun r : FilesRequest => r.Executed fun _ => True) (.empty, fun _ => none)
      [.upload photo photoIds, deletePhoto] y ∧ ∃ o ∈ y.1.fileObjects, y.2 o.storageKey = none := by
  let _ := lengthDigest
  have hupload :=
    (FilesRequest.upload photo photoIds).executed_after_nil (fun _ => True) (.empty, fun _ => none)
  have hdelete := deletePhoto.executed_after (fun _ => True) [false, false, false, false, false,
    false, true]
    ((FilesRequest.upload photo photoIds).after [] (.empty, fun _ => none)) fun _ _ => trivial
  refine ⟨_, (Serial.nil.snoc hupload).snoc hdelete, ?_⟩
  decide +kernel

/-- The identities of another file. -/
def otherIds (n : ℕ) : UploadIds := ⟨.ofNat n, .ofNat (n + 1), .ofNat (n + 2), ⟨.ofNat (n + 3), 0⟩⟩

/-- Two photos are uploaded, the upload of a third one cannot be committed, and the first one is
    deleted. -/
def photoRequests : List (FilesRequest × List Bool) :=
  [(.upload photo photoIds, []), (.upload photo (otherIds 12), []),
    (.upload photo (otherIds 22), [false, false, false, false, true]), (deletePhoto, [])]

/-- The database and the storage after requests, each with its faults. -/
def afterAll (requests : List (FilesRequest × List Bool)) : FilesDatabase × ObjectStorage :=
  requests.foldl (fun x r => r.1.after r.2 x) (.empty, fun _ => none)

/-- The second photo is left, with its content. -/
theorem files_have_content_photo : letI := lengthDigest
    ∃ y : FilesDatabase × ObjectStorage,
      Serial (fun r : FilesRequest => r.Executed NothingDeleted) (.empty, fun _ =>
        none) (photoRequests.map (·.1)) y ∧
      y.1.fileObjects.map (·.fileId) = [.ofNat 12] ∧ HasContents y.1 y.2 := by
  let _ := lengthDigest
  have hfirst := (FilesRequest.upload photo photoIds).executed_after_nil NothingDeleted (afterAll [])
  have hsecond := (FilesRequest.upload photo (otherIds 12)).executed_after_nil NothingDeleted
    (afterAll (photoRequests.take 1))
  have hthird := (FilesRequest.upload photo (otherIds 22)).executed_after NothingDeleted [false,
    false, false, false, true]
    (afterAll (photoRequests.take 2)) (by decide +kernel)
  have hdelete := deletePhoto.executed_after_nil NothingDeleted (afterAll (photoRequests.take 3))
  have hrun := (((Serial.nil.snoc hfirst).snoc hsecond).snoc hthird).snoc hdelete
  have hempty : HasContents .empty fun _ => none :=
    ⟨List.nodup_nil, fun o ho => absurd ho List.not_mem_nil⟩
  exact ⟨_, hrun, by decide +kernel, (files_have_content hempty hrun).1⟩

end Boat.Files
