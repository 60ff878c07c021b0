import Mathlib.Data.List.Infix
import Mathlib.Logic.Function.Basic

/-!
# Trees of files

A file system without links is a tree of directories and files (`Tree`), given by the nodes that are
at its paths. A path is the list of its names, from the last to the first, so that `name :: p` is in
the directory `p`, and `p` is at or above `q` if `p <:+ q`. A node is always in a directory, so that
no other tree can be built.

* `mkdir`, `create`, `write`, `rename`, `unlink`, `read`: the system calls, and their errors;
* `node_of_suffix`: what is above a node is a directory;
* `fileAt`: the contents of the file at a path.
-/

namespace FileTree

variable {ν β : Type}

/-- What is at a path. -/
inductive Node (β : Type)
  | file (content : List β)
  | directory
  deriving DecidableEq, Repr

instance : (n : Option (Node β)) → Decidable (n = some .directory)
  | some .directory => isTrue rfl
  | some (.file _) => isFalse (by simp)
  | none => isFalse (by simp)

/-- Why a system call fails. -/
inductive OSError
  | fileNotFound
  | fileExists
  | notADirectory
  | isADirectory
  /-- One of the device, of rights, of resources, or of the length of a name. -/
  | other
  deriving DecidableEq, Repr

/-- A tree of files, where a node is in a directory. -/
structure Tree (ν β : Type) where
  node : List ν → Option (Node β)
  nil : node [] = some .directory
  parent : ∀ name p, node (name :: p) ≠ none → node p = some .directory

namespace Tree

variable {t t' : Tree ν β} {p q : List ν}

@[ext]
theorem ext (h : ∀ p, t.node p = t'.node p) : t = t' := by
  obtain ⟨node, nil, parent⟩ := t
  obtain ⟨node', nil', parent'⟩ := t'
  obtain rfl : node = node' := funext h
  rfl

/-- What is above a node is a directory. -/
theorem node_of_suffix (hq : t.node q ≠ none) (hp : p <:+ q)
    (hne : p ≠ q) : t.node p = some .directory := by
  induction q with
  | nil => exact absurd (List.suffix_nil.1 hp) hne
  | cons name q ih =>
    have hdirectory := t.parent name q hq
    rcases List.suffix_cons_iff.1 hp with rfl | hp
    · exact absurd rfl hne
    · by_cases h : p = q
      · rwa [h]
      · exact ih (by simp [hdirectory]) hp h

/-- The contents of the file at a path. -/
def fileAt (t : Tree ν β) (p : List ν) : Option (List β) :=
  match t.node p with
  | some (.file content) => some content
  | _ => none

theorem fileAt_of_node (h : t'.node p = t.node p) : t'.fileAt p = t.fileAt p := by
  rw [fileAt, fileAt, h]

variable [DecidableEq ν]

/-! ## One node -/

/-- A node is put in a directory, but not in the place of one. -/
def set (t : Tree ν β) (p : List ν) (n : Node β) (hp : t.node p.tail = some .directory)
    (hne : t.node p ≠ some .directory) :
    Tree ν β where
  node := Function.update t.node p (some n)
  nil := by
    have h : [] ≠ p := by
      rintro rfl
      exact hne t.nil
    rw [Function.update_of_ne h, t.nil]
  parent name q hq := by
    by_cases h : name :: q = p
    · subst h
      rw [Function.update_of_ne (by simp)]
      exact hp
    · rw [Function.update_of_ne h] at hq
      have hdirectory := t.parent name q hq
      have hqp : q ≠ p := by
        rintro rfl
        exact hne hdirectory
      rwa [Function.update_of_ne hqp]

/-- What isn't a directory is removed. -/
def erase (t : Tree ν β) (p : List ν) (hne : t.node p ≠ some .directory) : Tree ν β where
  node := Function.update t.node p none
  nil := by
    have h : [] ≠ p := by
      rintro rfl
      exact hne t.nil
    rw [Function.update_of_ne h, t.nil]
  parent name q hq := by
    have h : name :: q ≠ p := by
      rintro rfl
      exact hq (Function.update_self ..)
    rw [Function.update_of_ne h] at hq
    have hdirectory := t.parent name q hq
    have hqp : q ≠ p := by
      rintro rfl
      exact hne hdirectory
    rwa [Function.update_of_ne hqp]

@[simp]
theorem node_set {n : Node β} (hp : t.node p.tail = some .directory)
    (hne : t.node p ≠ some .directory) :
    (t.set p n hp hne).node = Function.update t.node p (some n) := rfl

@[simp]
theorem node_erase (hne : t.node p ≠ some .directory) :
    (t.erase p hne).node = Function.update t.node p none := rfl

/-! ## System calls -/

/-- Why there is no node at a path. -/
def missing (t : Tree ν β) (p : List ν) : OSError :=
  if p.tails.any fun q => (t.fileAt q).isSome then .notADirectory else .fileNotFound

/-- `mkdir`. -/
def mkdir (t : Tree ν β) (p : List ν) : Except OSError (Tree ν β) :=
  if h : t.node p = none then
    if hp : t.node p.tail = some .directory then .ok (t.set p .directory hp (by simp [h]))
    else .error (t.missing p)
  else .error .fileExists

/-- `open` for writing, which creates the file or truncates it, and the writing of `content`. -/
def writeFile (t : Tree ν β) (p : List ν) (content : List β) : Except OSError (Tree ν β) :=
  if hne : t.node p = some .directory then .error .isADirectory
  else if hp : t.node p.tail = some .directory then .ok (t.set p (.file content) hp hne)
  else .error (t.missing p)

/-- `read`. -/
def readFile (t : Tree ν β) (p : List ν) : Except OSError (List β) :=
  match t.node p with
  | some (.file content) => .ok content
  | some .directory => .error .isADirectory
  | none => .error (t.missing p)

/-- `unlink`. -/
def unlink (t : Tree ν β) (p : List ν) : Except OSError (Tree ν β) :=
  if hne : t.node p = some .directory then .error .isADirectory
  else if t.node p = none then .error (t.missing p)
  else .ok (t.erase p hne)

/-- `rename` of a file, that takes the place of the one at `dst`. (Directories are not moved.) -/
def rename (t : Tree ν β) (src dst : List ν) : Except OSError (Tree ν β) :=
  match h : t.node src with
  | some (.file content) =>
    let t' := t.erase src (by simp [h])
    if hne : t'.node dst = some .directory then .error .isADirectory
    else if hp : t'.node dst.tail = some .directory then .ok (t'.set dst (.file content) hp hne)
    else .error (t.missing dst)
  | some .directory => .error .other
  | none => .error (t.missing src)

theorem mkdir_eq_ok (h : t.mkdir p = .ok t') :
    t.node p = none ∧ t.node p.tail = some .directory ∧
    t'.node = Function.update t.node p (some .directory) := by
  unfold mkdir at h
  split_ifs at h with hnone hp
  obtain rfl := Except.ok.inj h
  exact ⟨hnone, hp, rfl⟩

/-- There is no node in place of a directory that can't be made for lack of one above it. -/
theorem mkdir_not_found (h : t.mkdir p = .error .fileNotFound) : t.node p = none := by
  by_contra hnone
  unfold mkdir at h
  split_ifs at h
  cases h

theorem writeFile_eq_ok {content : List β} (h : t.writeFile p content = .ok t') :
    t.node p ≠ some .directory ∧ t'.node = Function.update t.node p (some (.file content)) := by
  unfold writeFile at h
  split_ifs at h with hne hp
  obtain rfl := Except.ok.inj h
  exact ⟨hne, rfl⟩

/-- A file that is open can be written. -/
theorem writeFile_writeFile {content : List β} (content' : List β)
    (h : t.writeFile p content = .ok t') :
    ∃ t'', t'.writeFile p content' = .ok t'' ∧
    t''.node = Function.update t.node p (some (.file content')) := by
  unfold writeFile at h
  split_ifs at h with hne hp
  obtain rfl := Except.ok.inj h
  have hself : p.tail ≠ p := by
    intro heq
    exact hne (heq ▸ hp)
  have hne' : (t.set p (.file content) hp hne).node p ≠ some .directory := by simp
  have hp' : (t.set p (.file content) hp hne).node p.tail = some .directory := by
    rw [node_set, Function.update_of_ne hself, hp]
  refine ⟨_, by rw [writeFile, dif_neg hne', dif_pos hp'], ?_⟩
  simp

omit [DecidableEq ν] in
theorem readFile_eq_ok {content : List β} : t.readFile p = .ok content ↔
    t.fileAt p = some content := by
  rw [readFile, fileAt]
  rcases t.node p with - | content' | -
  · simp
  · simp
  · simp

theorem unlink_eq_ok (h : t.unlink p = .ok t') :
    t.node p ≠ some .directory ∧ t'.node = Function.update t.node p none := by
  unfold unlink at h
  split_ifs at h with hne hnone
  obtain rfl := Except.ok.inj h
  exact ⟨hne, rfl⟩

/-- There is no node at the path of a file that is not found. -/
theorem unlink_not_found (h : t.unlink p = .error .fileNotFound) : t.node p = none := by
  by_contra hnone
  unfold unlink at h
  split_ifs at h
  cases h

theorem rename_eq_ok {src dst : List ν} (h : t.rename src dst = .ok t') : ∃ content,
    t.node src = some (.file content) ∧
    t.node dst ≠ some .directory ∧
    t'.node = Function.update (Function.update t.node src none) dst (some (.file content)) := by
  unfold rename at h
  split at h
  · rename_i content hsrc
    dsimp only at h
    split_ifs at h with hne hp
    obtain rfl := Except.ok.inj h
    refine ⟨content, hsrc, fun hdst => hne ?_, rfl⟩
    have hdst' : dst ≠ src := by
      rintro rfl
      cases hsrc.symm.trans hdst
    exact (Function.update_of_ne hdst' ..).trans hdst
  · cases h
  · cases h

/-- A file only fails to take the place of what is next to it if that is a directory. -/
theorem rename_eq_error {src dst : List ν} {content : List β} {e : OSError}
    (h : t.rename src dst = .error e) (hsrc : t.node src = some (.file content)) (hne : src ≠ [])
    (htail : src.tail = dst.tail) :
    t.node dst = some .directory := by
  by_contra hdst
  have hparent : t.node src.tail = some .directory := by
    rcases src with - | ⟨name, p⟩
    · exact absurd rfl hne
    · exact t.parent name p (by simp [hsrc])
  have hself : dst.tail ≠ src := by
    rintro heq
    rw [htail, heq, hsrc] at hparent
    cases hparent
  unfold rename at h
  split at h
  · have hfile : t.node src ≠ some .directory := by simp [hsrc]
    have hdst' : ¬(t.erase src hfile).node dst = some .directory := by
      rw [node_erase]
      by_cases heq : dst = src
      · rw [heq, Function.update_self]
        simp
      · rwa [Function.update_of_ne heq]
    have hparent' : (t.erase src hfile).node dst.tail = some .directory := by
      rw [node_erase, Function.update_of_ne hself, ← htail, hparent]
    dsimp only at h
    rw [dif_neg hdst', dif_pos hparent'] at h
    cases h
  · next hdirectory => cases hsrc.symm.trans hdirectory
  · next hnone => cases hsrc.symm.trans hnone

end Tree

end FileTree
