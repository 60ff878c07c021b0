import Boat.FileTree.Disk
import Boat.Files.UseCases

/-!
# Files: the object storage in a directory

`LocalObjectStorage`, which keeps the contents of a key in a file below its root. The tree of files
has no links, so that `resolve` only looks at the texts of paths. A content is first written to a
temporary file next to its target, which then takes the place of the target.
-/

namespace Boat.Files

open FileTree

/-! ## Paths -/

/-- A name in a path. -/
abbrev PathName := List Char

/-- `PurePosixPath`, with its parts from the first to the last. -/
structure PurePath where
  isAbsolute : Bool
  parts : List PathName
  deriving DecidableEq, Repr

namespace PurePath

/-- `Path(...)`. -/
def ofText (text : String) : PurePath where
  isAbsolute := text.toList.head? = some '/'
  parts := (text.toList.splitOn '/').filter fun part => part ≠ [] ∧ part ≠ ['.']

/-- The directory, or the one above it, to which a part leads. -/
def step (p : List PathName) (part : PathName) : List PathName :=
  if part = ['.', '.'] then p.tail else part :: p

/-- `(root / path).resolve(strict=False)`. -/
def resolve (root : List PathName) (path : PurePath) : List PathName :=
  path.parts.foldl step (if path.isAbsolute then [] else root)

end PurePath

/-- `f".{name}.tmp"`. -/
def temporaryName (name : PathName) : PathName := '.' :: (name ++ ['.', 't', 'm', 'p'])

/-- `path.with_name(f".{path.name}.tmp")`. -/
def temporaryPath : List PathName → Except DomainError (List PathName)
  | [] => .error (.other "ValueError")
  | name :: p => .ok (temporaryName name :: p)

/-! ## Storage -/

/-- `LocalObjectStorage`. -/
structure LocalObjectStorage where
  /-- The root, resolved. -/
  root : List PathName

abbrev StorageProgram := Program PathName UInt8 DomainError

namespace LocalObjectStorage

variable (self : LocalObjectStorage)

/-- `_target_path`. A null character is not one of a path. -/
def targetPath (key : String) : Except DomainError (List PathName) := do
  let _ ← (StorageKey.create key).mapError .validation
  if key.toList.contains '\x00' then .error (.other "ValueError")
  else
    let target := (PurePath.ofText key).resolve self.root
    if self.root.isSuffixOf target then .ok target
    else .error (.validation [⟨"storageKey", "파일 저장 키가 올바르지 않습니다."⟩])

/-- `_write_bytes`. -/
def writeBytes (key : String) (content : Bytes) : StorageProgram Unit := do
  let target ← Program.ofExcept (self.targetPath key)
  Program.makeDirs target.tail
  let temporary ← Program.ofExcept (temporaryPath target)
  Program.writeBytes temporary content
  Program.replace temporary target

/-- `_read_bytes`. -/
def readBytes (key : String) : StorageProgram Bytes := do
  let target ← Program.ofExcept (self.targetPath key)
  Program.readBytes target

/-- `_delete_file`. -/
def deleteFile (key : String) : StorageProgram Unit := do
  let target ← Program.ofExcept (self.targetPath key)
  Program.handle (Program.unlink target) fun e =>
    match e with
    | .os .fileNotFound => Program.ret ()
    | _ => Program.throw e

/-- `put`. -/
def put [ContentDigest] (key : String) (content : Bytes) : StorageProgram StoredObject := do
  self.writeBytes key content
  return ⟨key, content.length, ContentDigest.hexdigest content⟩

/-- `read`. -/
def read (key : String) : StorageProgram Bytes := self.readBytes key

/-- `delete`. -/
def delete (key : String) : StorageProgram Unit := self.deleteFile key

end LocalObjectStorage

/-! ## Calls -/

inductive StorageCall
  | put (key : String) (content : Bytes)
  | read (key : String)
  | delete (key : String)
  deriving DecidableEq, Repr

namespace StorageCall

def key : StorageCall → String
  | .put key _ | .read key | .delete key => key

/-- What a call returns. -/
inductive Response
  | stored (object : StoredObject)
  | content (content : Bytes)
  | deleted

def execute [ContentDigest] (storage : LocalObjectStorage) : StorageCall → StorageProgram Response
  | .put key content => do return .stored (← storage.put key content)
  | .read key => do return .content (← storage.read key)
  | .delete key => do
    storage.delete key
    return .deleted

/-- What a call does to the contents by their keys. -/
def effect : StorageCall → ObjectStorage → ObjectStorage
  | .put key content => FilesStatement.effect (.putContent key content)
  | .read _ => id
  | .delete key => FilesStatement.effect (.deleteContent key)

end StorageCall

/-- A call that was made, what failed other than by the tree, and how it ended. -/
structure StorageMove where
  call : StorageCall
  faults : Faults PathName
  result : Except (Failure DomainError) StorageCall.Response
  calls : List (Syscall PathName)

/-- A call in a tree. -/
def StorageMove.Leads [ContentDigest] (storage : LocalObjectStorage) (t : Tree PathName UInt8)
    (m : StorageMove) (t' : Tree PathName UInt8) : Prop :=
  m.call.execute storage m.faults ⟨t, []⟩ = (m.result, ⟨t', m.calls⟩)

/-- The contents by their keys after a call: those that were there, if it fails. -/
def StorageMove.effect (m : StorageMove) (contents : ObjectStorage) : ObjectStorage :=
  if m.result.isOk then m.call.effect contents else contents

/-- What `read` returns of a key. -/
def LocalObjectStorage.contents (self : LocalObjectStorage)
    (t : Tree PathName UInt8) : ObjectStorage := fun key =>
  (self.read key (fun _ => none) ⟨t, []⟩).1.toOption

end Boat.Files
