import Boat.Files.Domain
import Boat.ReadCommitted.Commands
import Boat.Users.Database

/-!
# Files: tables

The tables of the files module (`app/modules/files/infrastructure/persistence/orm.py`), as a store
of sessions, with the table of users, as their profiles refer to files. Deleting a file deletes its
objects (`ON DELETE CASCADE`).
-/

namespace Boat.Files

open ReadCommitted
open Users (UserRecord)

/-! ## Rows -/

/-- `orm.File`. -/
structure FileRecord where
  id : UUID
  userId : UUID
  originalName : String
  deriving DecidableEq, Repr

/-- `orm.FileObject`. -/
structure FileObjectRecord where
  id : UUID
  fileId : UUID
  variantType : String
  storageKey : String
  contentType : String
  size : ℤ
  checksum : Option String
  deriving DecidableEq, Repr

/-- The tables, and the rows of the outbox with events of files and profiles. -/
structure FilesDatabase where
  files : Table FileRecord.id
  fileObjects : List FileObjectRecord
  users : Table UserRecord.id
  outboxEvents : List (Stamped FilesEvent)

def FilesDatabase.empty : FilesDatabase := ⟨.empty, [], .empty, []⟩

/-! ## Locks -/

/-- The identity of a row. -/
inductive FilesRow
  | file (id : UUID)
  | fileObject (id : UUID)
  | user (id : UUID)
  deriving DecidableEq, Repr

/-- An entry of a unique index. -/
inductive FilesEntry
  | file (id : UUID)
  | fileObject (id : UUID)
  | storageKey (key : String)
  /-- `ix_file_objects_file_id_variant_type`. -/
  | fileVariant (fileId : UUID) (variantType : String)
  deriving DecidableEq, Repr

inductive FilesLock
  | row (row : FilesRow)
  | entry (entry : FilesEntry)
  deriving DecidableEq, Repr

/-- The entries of an object. -/
def FileObjectRecord.entries (o : FileObjectRecord) : List FilesEntry :=
  [.fileObject o.id, .storageKey o.storageKey, .fileVariant o.fileId o.variantType]

namespace FilesDatabase

/-- Is there a row with this entry? -/
def hasEntry (d : FilesDatabase) (e : FilesEntry) : Bool :=
  d.files.rows.any (.file ·.id = e) || d.fileObjects.any (e ∈ ·.entries)

theorem hasEntry_eq_false {d : FilesDatabase} {e : FilesEntry} :
    d.hasEntry e = false ↔ (∀ r ∈ d.files.rows, .file r.id ≠ e) ∧
    ∀ o ∈ d.fileObjects, e ∉ o.entries := by
  simp [hasEntry]

end FilesDatabase

/-- What a lock protects: the row, or that there is none. -/
inductive FilesLock.Protects : FilesLock → (FilesDatabase → Prop) → Prop
  | file (r : FileRecord) : Protects (.row (.file r.id)) fun d => r ∈ d.files.rows
  | fileObject (o : FileObjectRecord) : Protects (.row (.fileObject o.id)) fun d => o ∈ d.fileObjects
  | user (r : UserRecord) : Protects (.row (.user r.id)) fun d => r ∈ d.users.rows
  | entry (e : FilesEntry) : Protects (.entry e) fun d => d.hasEntry e = false

instance : Locking FilesDatabase FilesLock := ⟨FilesLock.Protects⟩

namespace FilesDatabase

/-! ## Reads -/

/-- The file of a user. -/
def fileOf (d : FilesDatabase) (fileId userId : UUID) : Option FileRecord :=
  (d.files.find fileId).filter (·.userId = userId)

def objectsOf (d : FilesDatabase) (fileId : UUID) : List FileObjectRecord :=
  d.fileObjects.filter (·.fileId = fileId)

theorem fileOf_eq_some {d : FilesDatabase} {fileId userId : UUID} {r : FileRecord} :
    d.fileOf fileId userId = some r ↔ d.files.find fileId = some r ∧ r.userId = userId := by
  simp [fileOf, Option.filter_eq_some_iff]

/-! ## Writes -/

def insertFile (r : FileRecord) (d : FilesDatabase) : FilesDatabase :=
  { d with files := d.files.insert r }

def insertObject (o : FileObjectRecord) (d : FilesDatabase) : FilesDatabase :=
  { d with fileObjects := d.fileObjects ++ [o] }

/-- Delete a file, with its objects. -/
def deleteFile (fileId : UUID) (objects : List FileObjectRecord)
    (d : FilesDatabase) : FilesDatabase :=
  { d with
    files := d.files.delete fileId
    fileObjects := d.fileObjects.filter (· ∉ objects) }

/-- Set the image of a profile. -/
def setProfileImage (userId : UUID) (url : Option String) (d : FilesDatabase) : FilesDatabase :=
  { d with users := d.users.modify userId fun r => { r with profileImageUrl := url } }

theorem mem_setProfileImage {d : FilesDatabase} {userId : UUID} {url : Option String}
    {r : UserRecord} :
    r ∈ (d.setProfileImage userId url).users.rows ↔
      r ∈ d.users.rows ∧ r.id ≠ userId ∨ ∃ q ∈ d.users.rows, q.id = userId ∧
      r = { q with profileImageUrl := url } :=
  Table.mem_modify (f := fun q : UserRecord => { q with profileImageUrl := url }) fun _ => rfl

def insertOutbox (events : List (Stamped FilesEvent)) (d : FilesDatabase) : FilesDatabase :=
  { d with outboxEvents := d.outboxEvents ++ events }

/-! A write touches only the entries of the rows it inserts, and the rows that it updates or
deletes. -/

theorem touches_insertFile (r : FileRecord) : Touches [.entry (.file r.id)] (insertFile r) := by
  rintro k hk d p (q | o | u | e) h
  · exact Table.mem_insert.2 (.inl h)
  · exact h
  · exact h
  · rw [hasEntry_eq_false] at h ⊢
    refine ⟨Table.forall_insert h.1 ?_, h.2⟩
    rintro rfl
    exact hk (List.mem_singleton_self _)

theorem touches_insertObject (o : FileObjectRecord) :
    Touches (o.entries.map .entry) (insertObject o) := by
  rintro k hk d p (q | o' | u | e) h
  · exact h
  · exact List.mem_append_left _ h
  · exact h
  · rw [hasEntry_eq_false] at h ⊢
    refine ⟨h.1, fun o' ho' he => ?_⟩
    rcases List.mem_append.1 ho' with ho' | ho'
    · exact h.2 o' ho' he
    · rw [List.mem_singleton.1 ho'] at he
      exact hk (List.mem_map_of_mem he)

/-- The locks of the deletion of a file that has these objects. -/
def deleteLocks (fileId : UUID) (objects : List FileObjectRecord) : List FilesLock :=
  .row (.file fileId) :: objects.map (.row <| .fileObject ·.id)

theorem touches_deleteFile (fileId : UUID) (objects : List FileObjectRecord) :
    Touches (deleteLocks fileId objects) (deleteFile fileId objects) := by
  rintro k hk d p (q | o | u | e) h
  · refine List.mem_filter.2 ⟨h, decide_eq_true ?_⟩
    rintro rfl
    exact hk List.mem_cons_self
  · refine List.mem_filter.2 ⟨h, decide_eq_true fun ho => hk (List.mem_cons_of_mem _ ?_)⟩
    exact List.mem_map_of_mem (f := fun o : FileObjectRecord => FilesLock.row (.fileObject o.id)) ho
  · exact h
  · rw [hasEntry_eq_false] at h ⊢
    exact ⟨fun r hr => h.1 r (List.mem_filter.1 hr).1, fun o ho => h.2 o (List.mem_filter.1 ho).1⟩

theorem touches_setProfileImage (userId : UUID) (url : Option String) :
    Touches [.row (.user userId)] (setProfileImage userId url) := by
  rintro k hk d p (q | o | r | e) h
  · exact h
  · exact h
  · refine mem_setProfileImage.2 (.inl ⟨h, ?_⟩)
    rintro rfl
    exact hk (List.mem_singleton_self _)
  · exact h

theorem touches_insertOutbox (events : List (Stamped FilesEvent)) :
    Touches [] (insertOutbox events) := by
  rintro k - d p (q | o | u | e) h
  · exact h
  · exact h
  · exact h
  · exact h

end FilesDatabase

end Boat.Files
