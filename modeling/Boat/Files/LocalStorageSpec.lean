import Boat.Files.LocalStorage
import Boat.Transition.Run

/-!
# Files: contents in a directory

The object storage in a directory keeps a content for each key (`ObjectStorage`): what `read`
returns of a key is what the last `put` of it has stored, unless it has been deleted.

* `keyPath`: a key leads to a path of its own, below the root (`targetPath_eq`, `keyPath_inj`);
* `Put`: how `put` may end, with what it leaves in the tree;
* `storage_refines`: runs of calls do to the contents by their keys what the calls say, as long as
  no `put` writes its temporary file where another key has its own (`StorageMove.Clear`);
* `storage_not_refines`: it may, as the names of temporary files are names of keys as well.
-/

namespace Boat.Files

open FileTree Transition

/-! ## Paths of keys -/

/-- The path of a key. -/
def LocalObjectStorage.keyPath (self : LocalObjectStorage) (key : String) : List PathName :=
  (key.toList.splitOn '/').reverse ++ self.root

variable {storage : LocalObjectStorage} {key key' : String}

/-- The parts of a key are names. -/
structure IsKey (key : String) : Prop where
  relative : key.toList.head? ≠ some '/'
  names : ∀ part ∈ key.toList.splitOn '/', part ≠ [] ∧ part ≠ ['.'] ∧ part ≠ ['.', '.']

theorem isKey_of_create (h : (StorageKey.create key).isOk = true) : IsKey key := by
  obtain ⟨k, hk⟩ := isOk_iff.1 h
  rw [StorageKey.create, CheckedText.create] at hk
  split_ifs at hk with hvalid
  simp only [Bool.and_eq_true, decide_eq_true_eq, Bool.not_eq_true', List.contains_eq_mem,
    decide_eq_false_iff_not] at hvalid
  obtain ⟨⟨⟨⟨⟨⟨-, hhead⟩, -⟩, hempty⟩, hdot⟩, hdots⟩, -⟩ := hvalid
  refine ⟨hhead, fun part hpart => ⟨?_, ?_, ?_⟩⟩
  · rintro rfl
    exact hempty hpart
  · rintro rfl
    exact hdot hpart
  · rintro rfl
    exact hdots hpart

theorem keyPath_inj (h : storage.keyPath key = storage.keyPath key') : key = key' := by
  have hparts : key.toList.splitOn '/' = key'.toList.splitOn '/' :=
    List.reverse_injective (List.append_cancel_right h)
  have htext := congrArg (List.intercalate ['/']) hparts
  rw [List.intercalate_splitOn, List.intercalate_splitOn] at htext
  exact String.toList_inj.1 htext

/-- A key has a last name, in a directory at or below the root. -/
theorem exists_keyPath (storage : LocalObjectStorage) (key : String) :
    ∃ name dir, storage.keyPath key = name :: dir ∧ storage.root <:+ dir := by
  rw [LocalObjectStorage.keyPath]
  rcases hparts : (key.toList.splitOn '/').reverse with - | ⟨name, dir⟩
  · exact absurd (List.reverse_eq_nil_iff.1 hparts) (List.splitOn_ne_nil _ _)
  · exact ⟨name, dir ++ storage.root, rfl, List.suffix_append ..⟩

theorem foldl_step {parts root : List PathName} (h : ∀ part ∈ parts, part ≠ ['.', '.']) :
    parts.foldl PurePath.step root = parts.reverse ++ root := by
  induction parts generalizing root with
  | nil => rfl
  | cons part parts ih =>
    rw [List.forall_mem_cons] at h
    rw [List.foldl_cons, ih h.2, PurePath.step, if_neg h.1, List.reverse_cons, List.append_assoc,
      List.singleton_append]

/-- A key leads to its path, which is below the root. -/
theorem targetPath_eq (hkey : (StorageKey.create key).isOk = true) :
    storage.targetPath key = if key.toList.contains '\x00' then .error (.other "ValueError")
    else .ok (storage.keyPath key) := by
  obtain ⟨k, hk⟩ := isOk_iff.1 hkey
  obtain ⟨hrelative, hnames⟩ := isKey_of_create hkey
  have hparts : (PurePath.ofText key).parts = key.toList.splitOn '/' :=
    List.filter_eq_self.2 fun part hpart => by
      simpa using ⟨(hnames part hpart).1, (hnames part hpart).2.1⟩
  have htarget : (PurePath.ofText key).resolve storage.root = storage.keyPath key := by
    rw [PurePath.resolve, hparts, foldl_step fun part hpart => (hnames part hpart).2.2]
    simp [PurePath.ofText, hrelative, LocalObjectStorage.keyPath]
  have hbelow : storage.root.isSuffixOf (storage.keyPath key) = true :=
    List.isSuffixOf_iff_suffix.2 (List.suffix_append ..)
  rw [LocalObjectStorage.targetPath, hk]
  simp only [Except.mapError, bind, Except.bind, htarget, hbelow, if_true]

/-! ## Calls -/

/-- `read` returns what is in the file of a key. -/
theorem contents_eq (hkey : (StorageKey.create key).isOk = true) (t : Tree PathName UInt8) :
    storage.contents t key = if key.toList.contains '\x00' then none
    else t.fileAt (storage.keyPath key) := by
  rw [LocalObjectStorage.contents, LocalObjectStorage.read, LocalObjectStorage.readBytes,
    targetPath_eq hkey]
  by_cases hnull : key.toList.contains '\x00' = true
  · rw [if_pos hnull, if_pos hnull]
    rfl
  · rw [if_neg hnull, if_neg hnull]
    change (Except.mapError Failure.os (t.readFile (storage.keyPath key))).toOption = _
    rcases hread : t.readFile (storage.keyPath key) with e | content
    · refine (Option.eq_none_iff_forall_ne_some.2 fun content hcontent => ?_).symm
      cases hread.symm.trans (Tree.readFile_eq_ok.2 hcontent)
    · exact (Tree.readFile_eq_ok.1 hread).symm

/-- `put` makes the directory `dir`, and opens the temporary file of `name` in it. -/
def Opens (name : PathName) (dir : List PathName) (faults : Faults PathName)
    (d : Disk PathName UInt8) : Prop :=
  ((do Program.makeDirs dir
       Program.create (temporaryName name :: dir) : StorageProgram Unit) faults d).1 = .ok ()

/-- How `put` ends: it has only made directories, or broken off with a temporary file, or stored the
    content. -/
inductive Put (name : PathName) (dir : List PathName) (content : Bytes) (faults : Faults PathName)
    (d : Disk PathName UInt8) :
    Except (Failure DomainError) Unit → Tree PathName UInt8 → Prop
  | refused {e t'} : Program.Grows dir d.tree t' → Put name dir content faults d (.error e) t'
  | broken {e t₁ t' content'} : Opens name dir faults d → Program.Grows dir d.tree t₁ →
      t'.node = Function.update t₁.node (temporaryName name :: dir) (some (.file content')) →
      ((∃ calls, faults (.write (temporaryName name :: dir) :: calls) ≠ none) ∨
        (∃ calls, faults (.rename (temporaryName name :: dir) (name :: dir) :: calls) ≠ none) ∨
        t₁.node (name :: dir) = some .directory) → Put name dir content faults d (.error e) t'
  | stored {t₁ t'} : Opens name dir faults d → Program.Grows dir d.tree t₁ →
      t'.node = Function.update (Function.update t₁.node (temporaryName name :: dir) none)
        (name :: dir) (some (.file content)) →
      Put name dir content faults d (.ok ()) t'

theorem temporaryName_ne (name : PathName) : temporaryName name ≠ name := by
  intro h
  have hlength := congrArg List.length h
  simp only [temporaryName, List.length_cons, List.length_append, List.length_nil] at hlength
  omega

variable {faults : Faults PathName} {d : Disk PathName UInt8} {name : PathName}
  {dir : List PathName} {content : Bytes}

theorem wp_writeBytes (hkey : (StorageKey.create key).isOk = true)
    (hpath : storage.keyPath key = name :: dir) (hroot : d.tree.node storage.root = some .directory)
    (hdir : storage.root <:+ dir) :
    Program.wp (storage.writeBytes key content) faults (fun res d' =>
      Program.Within storage.root d d' ∧ Put name dir content faults d res d'.tree ∧
        (res = .ok () → key.toList.contains '\x00' ≠ true)) d := by
  have htemporary : storage.root <:+ temporaryName name :: dir := hdir.trans (List.suffix_cons ..)
  have htarget : storage.root <:+ name :: dir := hdir.trans (List.suffix_cons ..)
  have hname : name :: dir ≠ temporaryName name :: dir :=
    fun h => temporaryName_ne name (List.cons.inj h).1.symm
  rw [LocalObjectStorage.writeBytes, Program.wp_bind, Program.wp_ofExcept, targetPath_eq hkey]
  -- A key with a null character is refused before anything is done; the other calls are within the
  -- root, and write to the temporary file until it is renamed.
  by_cases hnull : key.toList.contains '\x00' = true
  · rw [if_pos hnull]
    exact ⟨Program.Within.refl _ _, .refused (Program.Grows.refl _ _), by rintro ⟨⟩⟩
  rw [if_neg hnull, hpath]
  refine Program.wp_bind.2 (Program.wp_mono (Program.wp_run (Program.wp_makeDirs hdir hroot)) ?_)
  rintro (e | _) d₁ ⟨hmade, hwithin, hgrows⟩
  · exact ⟨hwithin, .refused hgrows, by rintro ⟨⟩⟩
  have hopens (hcreate : (Program.create (temporaryName name :: dir) faults d₁).1 =
      (.ok () : Except (Failure DomainError) Unit)) :
        Opens name dir faults d := by
    change (Program.bind (Program.makeDirs dir) _ faults d).1 = _
    rw [Program.bind, show Program.makeDirs dir faults d = _ from hmade]
    exact hcreate
  refine Program.wp_bind.2
    (Program.wp_ofExcept.2 (Program.wp_bind.2 (Program.wp_mono Program.wp_writeBytes ?_)))
  rintro res ⟨t₂, calls₂⟩ ⟨hwithin', hwritten⟩
  have hwithin₂ := hwithin.trans (hwithin'.mono htemporary)
  dsimp only at hwritten
  rcases hwritten with e | ⟨hcreate, hfault, -, hnode⟩ | ⟨hcreate, -, hnode⟩
  · exact ⟨hwithin₂, .refused hgrows, by rintro ⟨⟩⟩
  · exact ⟨hwithin₂, .broken (hopens hcreate) hgrows hnode
      (.inl ⟨_, fun h => absurd (hfault.symm.trans h) (by simp)⟩), by rintro ⟨⟩⟩
  · refine Program.wp_mono (Program.wp_replace htemporary htarget) ?_
    rintro res d₃ ⟨hwithin₃, ⟨⟨e, rfl⟩, htree, hreason⟩ | ⟨rfl, content', hfile, -, hnode'⟩⟩
    · -- The temporary file stays.
      refine ⟨hwithin₂.trans hwithin₃,
        .broken (hopens hcreate) hgrows (by rw [htree, hnode]) (.inr ?_), by rintro ⟨⟩⟩
      refine hreason.imp_right ?_
      rintro ⟨e, he⟩
      have hsrc : t₂.node (temporaryName name :: dir) = some (.file content) := by
        rw [hnode, Function.update_self]
      have hdst := Tree.rename_eq_error he hsrc (by simp) rfl
      rwa [hnode, Function.update_of_ne hname] at hdst
    · -- The temporary file takes the place of the target.
      rw [hnode, Function.update_self] at hfile
      cases hfile
      rw [hnode, Function.update_idem] at hnode'
      exact ⟨hwithin₂.trans hwithin₃, .stored (hopens hcreate) hgrows hnode', fun _ => hnull⟩

theorem wp_readBytes (hkey : (StorageKey.create key).isOk = true) :
    Program.wp (storage.readBytes key) faults (fun _ d' =>
    Program.Within storage.root d d' ∧ d'.tree = d.tree) d := by
  rw [LocalObjectStorage.readBytes, Program.wp_bind, Program.wp_ofExcept, targetPath_eq hkey]
  by_cases hnull : key.toList.contains '\x00' = true
  · rw [if_pos hnull]
    exact ⟨Program.Within.refl _ _, rfl⟩
  rw [if_neg hnull]
  have hpaths : ∀ q ∈ (Syscall.read (storage.keyPath key)).paths, storage.root <:+ q := by
    simp [Syscall.paths, LocalObjectStorage.keyPath]
  refine Program.wp_query ?_ ?_
  · exact fun _ => ⟨(Program.Within.refl storage.root d).call hpaths, rfl⟩
  · exact fun _ => ⟨(Program.Within.refl storage.root d).call hpaths, rfl⟩

/-- `delete` removes the file of a key, or nothing; it only succeeds if there is none any more. -/
theorem wp_deleteFile (hkey : (StorageKey.create key).isOk = true) :
    Program.wp (storage.deleteFile key) faults (fun res d' =>
    Program.Within storage.root d d' ∧
    ((d'.tree = d.tree ∧ (res.isOk = true → storage.contents d.tree key = none)) ∨
      res = .ok () ∧ d.tree.node (storage.keyPath key) ≠ some .directory ∧
        d'.tree.node = Function.update d.tree.node (storage.keyPath key) none)) d := by
  rw [LocalObjectStorage.deleteFile, Program.wp_bind, Program.wp_ofExcept, targetPath_eq hkey]
  by_cases hnull : key.toList.contains '\x00' = true
  · rw [if_pos hnull]
    exact ⟨Program.Within.refl _ _, .inl ⟨rfl, by rintro ⟨⟩⟩⟩
  rw [if_neg hnull]
  refine Program.wp_handle.2 (Program.wp_mono Program.wp_unlink ?_)
  rintro res d' ⟨hwithin, ⟨⟨e, rfl, hnone⟩, htree⟩ | ⟨rfl, hne, hnode⟩⟩
  · have hwithin' := hwithin.mono (List.suffix_append _ _ : storage.root <:+ storage.keyPath key)
    by_cases he : e = .os .fileNotFound
    · subst he
      refine ⟨hwithin', .inl ⟨htree, fun _ => ?_⟩⟩
      rw [contents_eq hkey, if_neg hnull, Tree.fileAt, hnone rfl]
    · rcases e with (- | - | - | - | -) | e
      · exact absurd rfl he
      all_goals exact ⟨hwithin', .inl ⟨htree, by rintro ⟨⟩⟩⟩
  · exact ⟨hwithin.mono (List.suffix_append _ _), .inr ⟨rfl, hne, hnode⟩⟩

/-! ## Refinement -/

variable {t t' : Tree PathName UInt8} {m : StorageMove} {K : Set String}

/-- Where the temporary file of a key that is put is the file of one of the keys `K`, it is not
    opened, or nothing is there before, and nothing stays there. -/
def StorageMove.Clear (storage : LocalObjectStorage) (K : Set String) (t : Tree PathName UInt8)
    (m : StorageMove) : Prop :=
  ∀ key content name dir, m.call = .put key content → storage.keyPath key = name :: dir → ∀ other ∈ K,
    storage.keyPath other = temporaryName name :: dir → Opens name dir m.faults ⟨t, []⟩ →
      storage.contents t other = none ∧ t.node (name :: dir) ≠ some .directory ∧
        ∀ calls, m.faults (.write (temporaryName name :: dir) :: calls) = none ∧
          m.faults (.rename (temporaryName name :: dir) (name :: dir) :: calls) = none

/-- A call does to the contents of keys what it says, if it succeeds, and stays below the root. -/
structure StorageMove.Refines (storage : LocalObjectStorage) (K : Set String)
    (t : Tree PathName UInt8) (m : StorageMove) (t' : Tree PathName UInt8) : Prop where
  contents : ∀ key ∈ K, storage.contents t' key = m.effect (storage.contents t) key
  root : t'.node storage.root = some .directory
  outside : ∀ p, ¬storage.root <:+ p → t'.node p = t.node p
  within : ∀ c ∈ m.calls, ∀ p ∈ c.paths, storage.root <:+ p

theorem contents_of_node (hkey : (StorageKey.create key).isOk = true)
    (h : t'.node (storage.keyPath key) = t.node (storage.keyPath key)) :
    storage.contents t' key = storage.contents t key := by
  rw [contents_eq hkey, contents_eq hkey, Tree.fileAt_of_node h]

theorem contents_of_grows (hkey : (StorageKey.create key).isOk = true) (h : Program.Grows dir t t') :
    storage.contents t' key = storage.contents t key := by
  rw [contents_eq hkey, contents_eq hkey, h.fileAt]

/-- Directories are only gained below the root. -/
theorem node_outside (hroot : t.node storage.root = some .directory) (hdir : storage.root <:+ dir)
    (h : Program.Grows dir t t') {p : List PathName}
    (hp : ¬storage.root <:+ p) : t'.node p = t.node p := by
  rcases h p with hnode | ⟨hpdir, hnone, -⟩
  · exact hnode
  · rcases List.suffix_or_suffix_of_suffix hpdir hdir with hp' | hp'
    · have hne : p ≠ storage.root := by
        rintro rfl
        exact hp List.suffix_rfl
      cases hnone.symm.trans (t.node_of_suffix (by simp [hroot]) hp' hne)
    · exact absurd hp' hp

/-- What is put at or below the root, but not at the root, leaves the root. -/
theorem root_ne (hdir : storage.root <:+ dir) : storage.root ≠ name :: dir := by
  intro h
  have hlength := hdir.length_le
  rw [h, List.length_cons] at hlength
  omega

/-- The tree after `put`. -/
theorem Put.tree {faults : Faults PathName} {res : Except (Failure DomainError) Unit}
    (hroot : d.tree.node storage.root = some .directory) (hdir : storage.root <:+ dir)
    (h : Put name dir content faults d res t') :
    t'.node storage.root = some .directory ∧ ∀ p, ¬storage.root <:+ p →
    t'.node p = d.tree.node p := by
  have hbelow {x : PathName} {p : List PathName} (hp : ¬storage.root <:+ p) : p ≠ x :: dir := by
    rintro rfl
    exact hp (hdir.trans (List.suffix_cons ..))
  have hgrown {t₁ : Tree PathName UInt8} (hgrows : Program.Grows dir d.tree t₁) :
      t₁.node storage.root = some .directory := by
    rw [hgrows.node (by simp [hroot]), hroot]
  rcases h with hgrows | ⟨-, hgrows, hnode, -⟩ | ⟨-, hgrows, hnode⟩
  · exact ⟨hgrown hgrows, fun p hp => node_outside hroot hdir hgrows hp⟩
  · refine ⟨?_, fun p hp => ?_⟩
    · rw [hnode, Function.update_of_ne (root_ne hdir), hgrown hgrows]
    · rw [hnode, Function.update_of_ne (hbelow hp), node_outside hroot hdir hgrows hp]
  · refine ⟨?_, fun p hp => ?_⟩
    · rw [hnode, Function.update_of_ne (root_ne hdir), Function.update_of_ne (root_ne hdir),
        hgrown hgrows]
    · rw [hnode, Function.update_of_ne (hbelow hp), Function.update_of_ne (hbelow hp),
        node_outside hroot hdir hgrows hp]

/-- The contents after `put`, unless the temporary file is that of a key. -/
theorem Put.contents {faults : Faults PathName} {res : Except (Failure DomainError) Unit}
    (hkeys : ∀ key ∈ K, (StorageKey.create key).isOk = true) (hkey : key ∈ K)
    (hpath : storage.keyPath key = name :: dir)
    (hclear : ∀ other ∈ K, storage.keyPath other = temporaryName name :: dir →
      Opens name dir faults d →
      storage.contents d.tree other = none ∧ d.tree.node (name :: dir) ≠ some .directory ∧
        ∀ calls, faults (.write (temporaryName name :: dir) :: calls) = none ∧
          faults (.rename (temporaryName name :: dir) (name :: dir) :: calls) = none)
    (hnull : res = .ok () → key.toList.contains '\x00' ≠ true)
    (h : Put name dir content faults d res t') :
    ∀ other ∈ K, storage.contents t' other =
      (if res.isOk then Function.update (storage.contents d.tree) key (some content)
        else storage.contents d.tree) other := by
  intro other hother
  rcases h with hgrows | @⟨e, t₁, _, content', hopens, hgrows, hnode, hreason⟩
    | @⟨t₁, _, hopens, hgrows, hnode⟩
  · exact contents_of_grows (hkeys other hother) hgrows
  · have htemporary : storage.keyPath other ≠ temporaryName name :: dir := by
      intro hpath'
      obtain ⟨-, hdirectory, hfaults⟩ := hclear other hother hpath' hopens
      -- The directories are at or above `dir`, so that the target isn't one of them.
      have htarget : t₁.node (name :: dir) = d.tree.node (name :: dir) := by
        refine (hgrows (name :: dir)).resolve_right fun ⟨hsuffix, _⟩ => ?_
        have hlength := hsuffix.length_le
        rw [List.length_cons] at hlength
        omega
      rcases hreason with ⟨calls, hfault⟩ | ⟨calls, hfault⟩ | hdirectory'
      · exact hfault (hfaults calls).1
      · exact hfault (hfaults calls).2
      · exact hdirectory (htarget ▸ hdirectory')
    have hnode' : t'.node (storage.keyPath other) = t₁.node (storage.keyPath other) := by
      rw [hnode, Function.update_of_ne htemporary]
    rw [contents_of_node (hkeys other hother) hnode', contents_of_grows (hkeys other hother) hgrows]
    rfl
  · have hres : (Except.ok () : Except (Failure DomainError) Unit).isOk = true := rfl
    rw [if_pos hres]
    by_cases heq : other = key
    · subst heq
      rw [contents_eq (hkeys other hother), if_neg (hnull rfl), hpath, Tree.fileAt, hnode,
        Function.update_self, Function.update_self]
    · rw [Function.update_of_ne heq]
      have htarget : storage.keyPath other ≠ name :: dir :=
        fun h => heq (keyPath_inj (h.trans hpath.symm))
      by_cases htemporary : storage.keyPath other = temporaryName name :: dir
      · -- Nothing was at the temporary file, and nothing is.
        have hfile : t'.fileAt (storage.keyPath other) = none := by
          rw [Tree.fileAt, hnode, Function.update_of_ne htarget, htemporary, Function.update_self]
        rw [contents_eq (hkeys other hother), hfile, ite_self,
          (hclear other hother htemporary hopens).1]
      · have hnode' : t'.node (storage.keyPath other) = t₁.node (storage.keyPath other) := by
          rw [hnode, Function.update_of_ne htarget, Function.update_of_ne htemporary]
        rw [contents_of_node (hkeys other hother) hnode',
          contents_of_grows (hkeys other hother) hgrows]

/-- A call leaves the tree as it is, and the contents of keys. -/
theorem StorageMove.Refines.of_eq (hroot : t.node storage.root = some .directory) (htree : t' = t)
    (heffect : m.effect (storage.contents t) = storage.contents t)
    (hwithin : ∀ c ∈ m.calls, ∀ p ∈ c.paths, storage.root <:+ p) : m.Refines storage K t t' := by
  subst htree
  exact ⟨fun key _ => by rw [heffect], hroot, fun _ _ => rfl, hwithin⟩

/-- What a call does to the content of a key only depends on that content. -/
theorem StorageMove.effect_congr (m : StorageMove) {contents contents' : ObjectStorage}
    (h : contents key = contents' key) :
    m.effect contents key = m.effect contents' key := by
  rw [StorageMove.effect, StorageMove.effect]
  by_cases hok : m.result.isOk = true
  · rw [if_pos hok, if_pos hok]
    cases m.call with
    | put key' content =>
      simp only [StorageCall.effect, FilesStatement.effect, Function.update_apply, h]
    | read => exact h
    | delete key' => simp only [StorageCall.effect, FilesStatement.effect, Function.update_apply, h]
  · rw [if_neg hok, if_neg hok, h]

theorem StorageMove.effect_of_ne (m : StorageMove) {contents : ObjectStorage}
    (hne : key ≠ m.call.key) :
    m.effect contents key = contents key := by
  obtain ⟨call, faults, result, calls⟩ := m
  rw [StorageMove.effect]
  by_cases hok : result.isOk = true
  · rw [if_pos hok]
    cases call with
    | put key' content => exact Function.update_of_ne hne ..
    | read => rfl
    | delete key' => exact Function.update_of_ne hne ..
  · rw [if_neg hok]

section

variable [ContentDigest]

theorem StorageMove.Leads.wp (h : m.Leads storage t t')
    {Q : Except (Failure DomainError) StorageCall.Response → Disk PathName UInt8 → Prop}
    (hQ : Program.wp (m.call.execute storage) m.faults Q ⟨t, []⟩) : Q m.result ⟨t', m.calls⟩ := by
  rw [Program.wp, h] at hQ
  exact hQ

/-- A call does what it says, unless a temporary file is that of another key. -/
theorem StorageMove.Leads.refines (hroot : t.node storage.root = some .directory)
    (hkeys : ∀ key ∈ K, (StorageKey.create key).isOk = true) (hcall : m.call.key ∈ K)
    (hclear : m.Clear storage K t) (h : m.Leads storage t t') : m.Refines storage K t t' := by
  obtain ⟨call, faults, result, calls⟩ := m
  have hwithin {d : Disk PathName UInt8} (h : Program.Within storage.root ⟨t, []⟩ d) :
      ∀ c ∈ d.calls, ∀ p ∈ c.paths, storage.root <:+ p :=
        fun c hc => (h c hc).resolve_left (List.not_mem_nil)
  cases call with
  | put key content =>
    obtain ⟨name, dir, hpath, hdir⟩ := exists_keyPath storage key
    have hclear' := hclear key content name dir rfl hpath
    refine h.wp (Q := fun res d' =>
      StorageMove.Refines storage K t ⟨.put key content, faults, res, d'.calls⟩ d'.tree)
      (Program.wp_bind.2
        (Program.wp_bind.2 (Program.wp_mono (wp_writeBytes (hkeys key hcall) hpath hroot hdir) ?_)))
    rintro res d' ⟨hcalls, hput, hnull⟩
    obtain ⟨hroot', houtside⟩ := hput.tree hroot hdir
    have hcontents := hput.contents hkeys hcall hpath hclear' hnull
    rcases res with e | _
    · exact ⟨hcontents, hroot', houtside, hwithin hcalls⟩
    · exact ⟨hcontents, hroot', houtside, hwithin hcalls⟩
  | read key =>
    refine h.wp (Q := fun res d' =>
      StorageMove.Refines storage K t ⟨.read key, faults, res, d'.calls⟩ d'.tree)
      (Program.wp_bind.2 (Program.wp_mono (wp_readBytes (hkeys key hcall)) ?_))
    rintro res d' ⟨hcalls, htree⟩
    rcases res with e | _
    · exact .of_eq hroot htree rfl (hwithin hcalls)
    · exact Program.wp_ret.2 (.of_eq hroot htree rfl (hwithin hcalls))
  | delete key =>
    refine h.wp (Q := fun res d' =>
      StorageMove.Refines storage K t ⟨.delete key, faults, res, d'.calls⟩ d'.tree)
      (Program.wp_bind.2 (Program.wp_mono (wp_deleteFile (hkeys key hcall)) ?_))
    rintro res d' ⟨hcalls, ⟨htree, hnone⟩ | ⟨rfl, hne, hnode⟩⟩
    · rcases res with e | _
      · exact .of_eq hroot htree rfl (hwithin hcalls)
      · refine Program.wp_ret.2 (.of_eq hroot htree ?_ (hwithin hcalls))
        exact Function.update_eq_self_iff.2 (hnone rfl).symm
    · -- The file is deleted. Another key has another path, and the root is a directory.
      refine Program.wp_ret.2 ⟨fun other hother => ?_, ?_, fun p hp => ?_, hwithin hcalls⟩
      · change storage.contents d'.tree other = Function.update (storage.contents t) key none other
        by_cases heq : other = key
        · rw [heq, Function.update_self, contents_eq (hkeys key hcall), Tree.fileAt, hnode,
            Function.update_self, ite_self]
        · rw [Function.update_of_ne heq, contents_of_node (hkeys other hother)]
          rw [hnode, Function.update_of_ne fun h => heq (keyPath_inj h)]
      · have hroot_ne : storage.root ≠ storage.keyPath key := by
          intro heq
          exact hne (heq ▸ hroot)
        rw [hnode, Function.update_of_ne hroot_ne, hroot]
      · rw [hnode, Function.update_of_ne]
        rintro rfl
        exact hp (List.suffix_append ..)

/-- The runs of calls with keys of `K`, of which all are `Clear`. -/
theorem refines_of_run (hroot : t.node storage.root = some .directory)
    (hkeys : ∀ key ∈ K, (StorageKey.create key).isOk = true) {ms : List StorageMove}
    (hrun : Run (fun t m t' => m.Leads storage t t' ∧ m.call.key ∈ K ∧ m.Clear storage K t) t ms t') :
    t'.node storage.root = some .directory ∧
      ∀ key ∈ K, storage.contents t' key =
        (ms.foldl (fun contents m => m.effect contents) (storage.contents t)) key := by
  induction hrun with
  | refl => exact ⟨hroot, fun _ _ => rfl⟩
  | @step ms m t₁ t₂ _ hstep ih =>
    obtain ⟨hleads, hcall, hclear⟩ := hstep
    obtain ⟨hroot₁, hcontents⟩ := ih
    have hrefines := hleads.refines hroot₁ hkeys hcall hclear
    refine ⟨hrefines.root, fun key hkey => ?_⟩
    rw [hrefines.contents key hkey, List.foldl_append]
    exact m.effect_congr (hcontents key hkey)

/-- After a run, what `read` returns of a key is what was last put and not deleted since. A call
    then only does to its own key what it says, if it succeeds, and nothing outside of the root. -/
theorem storage_refines (hroot : t.node storage.root = some .directory)
    (hkeys : ∀ key ∈ K, (StorageKey.create key).isOk = true) {ms : List StorageMove}
    (hrun : Run (fun t m t' => m.Leads storage t t' ∧ m.call.key ∈ K ∧ m.Clear storage K t) t ms t') :
    (∀ key ∈ K, storage.contents t' key =
      (ms.foldl (fun contents m => m.effect contents) (storage.contents t)) key) ∧
      ∀ (m : StorageMove) (t'' : Tree PathName UInt8),
        m.Leads storage t' t'' → m.call.key ∈ K → m.Clear storage K t' →
        (∀ key ∈ K, key ≠ m.call.key → storage.contents t'' key = storage.contents t' key) ∧
        (∀ e, m.result = .error e → ∀ key ∈ K, storage.contents t'' key = storage.contents t' key) ∧
        (∀ key content, m.call = .put key content → m.result.isOk = true →
          storage.contents t'' key = some content) ∧
        (∀ key, m.call = .delete key → m.result.isOk = true → storage.contents t'' key = none) ∧
        (∀ p, ¬storage.root <:+ p → t''.node p = t'.node p) ∧
        ∀ c ∈ m.calls, ∀ p ∈ c.paths, storage.root <:+ p := by
  obtain ⟨hroot', hcontents⟩ := refines_of_run hroot hkeys hrun
  refine ⟨hcontents, fun m t'' hleads hcall hclear => ?_⟩
  have hrefines := hleads.refines hroot' hkeys hcall hclear
  refine ⟨fun key hkey hne => ?_, fun e he key hkey => ?_, fun key content hput hok => ?_,
    fun key hdelete hok => ?_, hrefines.outside, hrefines.within⟩
  · rw [hrefines.contents key hkey, m.effect_of_ne hne]
  · rw [hrefines.contents key hkey, StorageMove.effect, he]
    rfl
  · rw [hput] at hcall
    rw [hrefines.contents key hcall, StorageMove.effect, if_pos hok, hput]
    exact Function.update_self ..
  · rw [hdelete] at hcall
    rw [hrefines.contents key hcall, StorageMove.effect, if_pos hok, hdelete]
    exact Function.update_self ..

end

/-! ## The file of another key -/

/-- The call as a move, and the tree after it. -/
def StorageCall.move [ContentDigest] (call : StorageCall) (storage : LocalObjectStorage)
    (faults : Faults PathName) (t : Tree PathName UInt8) : StorageMove × Tree PathName UInt8 :=
  let (result, d) := call.execute storage faults ⟨t, []⟩
  (⟨call, faults, result, d.calls⟩, d.tree)

/-- A storage in a directory that is below `/`. -/
def smallStorage : LocalObjectStorage := ⟨["storage".toList]⟩

/-- The directory of the storage is empty. -/
def smallTree : Tree PathName UInt8 where
  node p := if p.isEmpty ∨ p = ["storage".toList] then some .directory else none
  nil := rfl
  parent name p h := by
    by_cases hp : p.isEmpty ∨ p = ["storage".toList]
    · exact if_pos hp
    · rw [if_neg] at h
      · exact absurd rfl h
      · rintro (h' | h')
        · cases h'
        · exact hp (.inl (by rw [(List.cons.inj h').2]; rfl))

@[reducible]
def smallDigest : ContentDigest := ⟨fun _ => ""⟩

/-- A content is put. -/
def firstPut : StorageMove × Tree PathName UInt8 :=
  @StorageCall.move smallDigest (.put ".a.tmp" [1]) smallStorage (fun _ => none) smallTree

theorem leads_firstPut :
    @StorageMove.Leads smallDigest smallStorage smallTree firstPut.1 firstPut.2 := rfl

/-- Another one is put, which had the file of the first for a temporary file. -/
def secondPut : StorageMove × Tree PathName UInt8 :=
  @StorageCall.move smallDigest (.put "a" [2]) smallStorage (fun _ => none) firstPut.2

theorem leads_secondPut :
    @StorageMove.Leads smallDigest smallStorage firstPut.2 secondPut.1 secondPut.2 := rfl

/-- A call in which nothing fails. -/
def smallMove (call : StorageCall) (t : Tree PathName UInt8) : StorageMove × Tree PathName UInt8 :=
  @StorageCall.move smallDigest call smallStorage (fun _ => none) t

/-- The tree after calls in which nothing fails. -/
def treeAfter (calls : List StorageCall) : Tree PathName UInt8 :=
  calls.foldl (fun t call => (smallMove call t).2) smallTree

/-- Neither of two keys has its temporary file where the other one has its own. -/
theorem smallMove_step (call : StorageCall) (t : Tree PathName UInt8)
    (hkey : call.key ∈ ({"a", "b"} : Set String)) :
    @StorageMove.Leads smallDigest smallStorage t (smallMove call t).1 (smallMove call t).2 ∧
      (smallMove call t).1.call.key ∈ ({"a", "b"} : Set String) ∧
      (smallMove call t).1.Clear smallStorage {"a", "b"} t := by
  refine ⟨rfl, hkey, ?_⟩
  have hdot (name : PathName) (dir : List PathName) (c : Char) (hc : c ≠ '.') :
      [[c], "storage".toList] ≠ temporaryName name :: dir := by
    intro h
    exact hc (List.cons.inj (List.cons.inj h).1).1
  rintro key content name dir - - other (rfl | rfl) htemporary
  · exact absurd htemporary (hdot name dir 'a' (by decide))
  · exact absurd htemporary (hdot name dir 'b' (by decide))

/-- The content that was put last is read back, of one key, and none of the other one, which was
    deleted. -/
theorem storage_refines_overwritten :
    smallStorage.contents (treeAfter [.put "a" [1], .put "b" [2], .put "a" [3], .delete "b"]) "a" =
      some [3] ∧
      smallStorage.contents
        (treeAfter [.put "a" [1], .put "b" [2], .put "a" [3], .delete "b"]) "b" = none := by
  have hkeys : ∀ key ∈ ({"a", "b"} : Set String), (StorageKey.create key).isOk = true := by
    rintro key (rfl | rfl)
    · decide +kernel
    · decide +kernel
  have hfirst := smallMove_step (.put "a" [1]) smallTree (.inl rfl)
  have hsecond := smallMove_step (.put "b" [2]) (treeAfter [.put "a" [1]]) (.inr rfl)
  have hthird := smallMove_step (.put "a" [3]) (treeAfter [.put "a" [1], .put "b" [2]]) (.inl rfl)
  have hdelete :=
    smallMove_step (.delete "b") (treeAfter [.put "a" [1], .put "b" [2], .put "a" [3]]) (.inr rfl)
  have hrun : Run (fun t m t' => @StorageMove.Leads smallDigest smallStorage t m t' ∧
      m.call.key ∈ ({"a", "b"} : Set String) ∧
        m.Clear smallStorage {"a", "b"} t) smallTree _
        (treeAfter [.put "a" [1], .put "b" [2], .put "a" [3], .delete "b"]) :=
    (((Run.single hfirst).step hsecond).step hthird).step hdelete
  have hcontents := (@storage_refines _ _ _ {"a", "b"} smallDigest rfl hkeys _ hrun).1
  refine ⟨(hcontents "a" (.inl rfl)).trans ?_, (hcontents "b" (.inr rfl)).trans ?_⟩
  · decide +kernel
  · decide +kernel

/-- The storage doesn't refine the contents by their keys in all runs: a key that is put may have
    its temporary file where another key has its own. -/
theorem storage_not_refines : ¬∀ (_ : ContentDigest) (storage : LocalObjectStorage) (K : Set String)
    (t t' : Tree PathName UInt8) (ms : List StorageMove),
    t.node storage.root = some .directory → (∀ key ∈ K, (StorageKey.create key).isOk = true) →
      (∀ key ∈ K, ∀ key' ∈ K, storage.keyPath key <:+ storage.keyPath key' → key = key') →
        Run (fun t m t' => StorageMove.Leads storage t m t' ∧ m.call.key ∈ K) t ms t' →
          ∀ key ∈ K, storage.contents t' key =
            (ms.foldl (fun contents m => m.effect contents) (storage.contents t)) key := by
  intro h
  have hrun : Run (fun t m t' => @StorageMove.Leads smallDigest smallStorage t m t' ∧
      m.call.key ∈ ({"a", ".a.tmp"} : Set String))
        smallTree [firstPut.1, secondPut.1] secondPut.2 :=
    (Run.single ⟨leads_firstPut, .inr rfl⟩).step ⟨leads_secondPut, .inl rfl⟩
  have hkeys : ∀ key ∈ ({"a", ".a.tmp"} : Set String), (StorageKey.create key).isOk = true := by
    rintro key (rfl | rfl)
    · decide +kernel
    · decide +kernel
  have hfree : ∀ key ∈ ({"a", ".a.tmp"} : Set String), ∀ key' ∈ ({"a", ".a.tmp"} : Set String),
      smallStorage.keyPath key <:+ smallStorage.keyPath key' → key = key' := by
    rintro key (rfl | rfl) key' (rfl | rfl) hsuffix
    · rfl
    · revert hsuffix
      decide +kernel
    · revert hsuffix
      decide +kernel
    · rfl
  have hlost :=
    h smallDigest smallStorage
      {"a", ".a.tmp"} smallTree secondPut.2 _ rfl hkeys hfree hrun ".a.tmp" (.inr rfl)
  have hnone : smallStorage.contents secondPut.2 ".a.tmp" = none := by decide +kernel
  have hsome :
      ([firstPut.1, secondPut.1].foldl (fun contents m => m.effect contents)
        (smallStorage.contents smallTree)) ".a.tmp" = some [1] := by
    decide +kernel
  cases hnone.symm.trans (hlost.trans hsome)

end Boat.Files
