import Boat.FileTree.Tree

/-!
# Programs on a tree of files

A program makes system calls, of which each may fail for reasons that are not in the tree
(`Faults`): the device, the rights, the resources. A failing `write` leaves some of the contents.
What was done before an exception stays done.

* `wp`: the weakest precondition of a program, for its result or exception, with the rules for its
  parts;
* `makeDirs`: a directory and those above it, of which the rule (`wp_makeDirs`) says that the tree
  only gains directories, and that no call leaves a directory that is there.
-/

namespace FileTree

variable {ν β ε α γ : Type}

inductive Syscall (ν : Type)
  | mkdir (p : List ν)
  | stat (p : List ν)
  | create (p : List ν)
  | write (p : List ν)
  | read (p : List ν)
  | rename (src dst : List ν)
  | unlink (p : List ν)
  deriving DecidableEq, Repr

def Syscall.paths : Syscall ν → List (List ν)
  | .mkdir p | .stat p | .create p | .write p | .read p | .unlink p => [p]
  | .rename src dst => [src, dst]

/-- Which calls fail, given the calls that were made, from this one to the first. A failing `write`
    writes that much before. -/
abbrev Faults (ν : Type) := List (Syscall ν) → Option ℕ

/-- An exception. -/
inductive Failure (ε : Type)
  | os (e : OSError)
  | raised (e : ε)
  deriving DecidableEq, Repr

/-- The tree, and the calls that were made, from the last to the first. -/
structure Disk (ν β : Type) where
  tree : Tree ν β
  calls : List (Syscall ν)

def Program (ν β ε α : Type) := Faults ν → Disk ν β → Except (Failure ε) α × Disk ν β

namespace Program

def ret (a : α) : Program ν β ε α := fun _ d => (.ok a, d)

def throw (e : Failure ε) : Program ν β ε α := fun _ d => (.error e, d)

def bind (m : Program ν β ε α) (f : α → Program ν β ε γ) : Program ν β ε γ := fun faults d =>
  match m faults d with
  | (.ok a, d') => f a faults d'
  | (.error e, d') => (.error e, d')

instance : Monad (Program ν β ε) where
  pure := ret
  bind := bind

/-- `try`, and `except`. -/
def handle (m : Program ν β ε α) (f : Failure ε → Program ν β ε α) : Program ν β ε α :=
  fun faults d =>
  match m faults d with
  | (.ok a, d') => (.ok a, d')
  | (.error e, d') => f e faults d'

def ofExcept : Except ε α → Program ν β ε α
  | .ok a => ret a
  | .error e => throw (.raised e)

/-- A system call that reads the tree. -/
def query (c : Syscall ν) (f : Tree ν β → Except OSError α) : Program ν β ε α := fun faults d =>
  match faults (c :: d.calls) with
  | some _ => (.error (.os .other), ⟨d.tree, c :: d.calls⟩)
  | none => ((f d.tree).mapError .os, ⟨d.tree, c :: d.calls⟩)

/-- A system call that changes the tree, or leaves a broken one. -/
def change (c : Syscall ν) (broken : ℕ → Tree ν β → Tree ν β)
    (f : Tree ν β → Except OSError (Tree ν β)) :
    Program ν β ε Unit := fun faults d =>
  match faults (c :: d.calls) with
  | some n => (.error (.os .other), ⟨broken n d.tree, c :: d.calls⟩)
  | none =>
    match f d.tree with
    | .ok t => (.ok (), ⟨t, c :: d.calls⟩)
    | .error e => (.error (.os e), ⟨d.tree, c :: d.calls⟩)

section Calls

variable [DecidableEq ν]

def mkdir (p : List ν) : Program ν β ε Unit := change (.mkdir p) (fun _ t => t) (·.mkdir p)

def isDir (p : List ν) : Program ν β ε Bool :=
  query (.stat p) fun t => .ok (t.node p = some .directory)

/-- `open` for writing. -/
def create (p : List ν) : Program ν β ε Unit := change (.create p) (fun _ t => t) (·.writeFile p [])

/-- `write` to the file that is open, which has become empty. -/
def write (p : List ν) (content : List β) : Program ν β ε Unit :=
  change (.write p) (fun n t => (t.writeFile p (content.take n)).toOption.getD t)
    (·.writeFile p content)

def writeBytes (p : List ν) (content : List β) : Program ν β ε Unit := do
  create p
  write p content

def readBytes (p : List ν) : Program ν β ε (List β) := query (.read p) (·.readFile p)

/-- `os.replace`. -/
def replace (src dst : List ν) : Program ν β ε Unit :=
  change (.rename src dst) (fun _ t => t) (·.rename src dst)

def unlink (p : List ν) : Program ν β ε Unit := change (.unlink p) (fun _ t => t) (·.unlink p)

/-- A directory, that may be there. -/
def makeDir (p : List ν) : Program ν β ε Unit :=
  handle (mkdir p) fun e =>
    match e with
    | .os .fileNotFound => throw e
    | _ => do
      let directory ← isDir p
      if directory then ret () else throw e

/-- A directory, that may be there, and those above it. -/
def makeDirs : List ν → Program ν β ε Unit
  | [] => makeDir []
  | name :: p =>
    handle (makeDir (name :: p)) fun e =>
      match e with
      | .os .fileNotFound => do
        makeDirs p
        makeDir (name :: p)
      | _ => throw e

end Calls

/-! ## Weakest preconditions -/

/-- What holds of the result or the exception, and of the disk, after a program. -/
def wp (m : Program ν β ε α) (faults : Faults ν) (Q : Except (Failure ε) α → Disk ν β → Prop)
    (d : Disk ν β) : Prop :=
  Q (m faults d).1 (m faults d).2

variable {faults : Faults ν} {d d' d'' : Disk ν β} {m : Program ν β ε α}
  {Q Q' : Except (Failure ε) α → Disk ν β → Prop}

theorem wp_mono (h : wp m faults Q d) (hQ : ∀ r d', Q r d' → Q' r d') : wp m faults Q' d := hQ _ _ h

/-- A program ends as it runs. -/
theorem wp_run (h : wp m faults Q d) : wp m faults (fun r d' => m faults d = (r, d') ∧ Q r d') d :=
  ⟨rfl, h⟩

@[simp]
theorem wp_ret {a : α} : wp (ret a) faults Q d ↔ Q (.ok a) d := Iff.rfl

@[simp]
theorem wp_throw {e : Failure ε} : wp (throw e) faults Q d ↔ Q (.error e) d := Iff.rfl

theorem wp_bind {f : α → Program ν β ε γ} {Q : Except (Failure ε) γ → Disk ν β → Prop} :
    wp (m >>= f) faults Q d ↔
      wp m faults (fun r d' => match r with
        | .ok a => wp (f a) faults Q d'
        | .error e => Q (.error e) d') d := by
  simp only [wp, Bind.bind, bind]
  rcases m faults d with ⟨e | a, d'⟩
  · exact Iff.rfl
  · exact Iff.rfl

theorem wp_handle {f : Failure ε → Program ν β ε α} :
    wp (handle m f) faults Q d ↔
      wp m faults (fun r d' => match r with
        | .ok a => Q (.ok a) d'
        | .error e => wp (f e) faults Q d') d := by
  simp only [wp, handle]
  rcases m faults d with ⟨e | a, d'⟩
  · exact Iff.rfl
  · exact Iff.rfl

theorem wp_ofExcept {x : Except ε α} : wp (ofExcept x) faults Q d ↔ Q (x.mapError .raised) d := by
  rcases x with e | a
  · exact Iff.rfl
  · exact Iff.rfl

theorem wp_query {c : Syscall ν} {f : Tree ν β → Except OSError α}
    (hfault : faults (c :: d.calls) ≠ none → Q (.error (.os .other)) ⟨d.tree, c :: d.calls⟩)
    (hresult : faults (c :: d.calls) = none → Q ((f d.tree).mapError .os) ⟨d.tree, c :: d.calls⟩) :
    wp (query c f) faults Q d := by
  rw [wp, query]
  rcases h : faults (c :: d.calls) with - | n
  · exact hresult h
  · exact hfault (by simp [h])

theorem wp_change {c : Syscall ν} {broken : ℕ → Tree ν β → Tree ν β}
    {f : Tree ν β → Except OSError (Tree ν β)} {Q : Except (Failure ε) Unit → Disk ν β → Prop}
    (hbroken : ∀ n, faults (c :: d.calls) = some n →
      Q (.error (.os .other)) ⟨broken n d.tree, c :: d.calls⟩)
    (hok : ∀ t, f d.tree = .ok t → Q (.ok ()) ⟨t, c :: d.calls⟩)
    (herror : ∀ e, f d.tree = .error e → Q (.error (.os e)) ⟨d.tree, c :: d.calls⟩) :
    wp (change c broken f) faults Q d := by
  rw [wp, change]
  rcases hfault : faults (c :: d.calls) with - | n
  · rcases hf : f d.tree with e | t
    · simpa only [hf] using herror e hf
    · simpa only [hf] using hok t hf
  · exact hbroken n hfault

/-! ## Directories -/

/-- The calls that are made have paths at or below `r`. -/
def Within (r : List ν) (d d' : Disk ν β) : Prop :=
  ∀ c ∈ d'.calls, c ∈ d.calls ∨ ∀ p ∈ c.paths, r <:+ p

theorem Within.refl (r : List ν) (d : Disk ν β) : Within r d d := fun _ hc => .inl hc

theorem Within.mono {r r' : List ν} (h : Within r' d d') (hr : r <:+ r') : Within r d d' :=
  fun c hc =>
  (h c hc).imp_right fun h p hp => hr.trans (h p hp)

theorem Within.trans {r : List ν} (h : Within r d d') (h' : Within r d' d'') : Within r d d'' :=
  fun c hc =>
  (h' c hc).elim (h c) .inr

theorem Within.call {r : List ν} {c : Syscall ν} {t : Tree ν β} (h : Within r d d')
    (hc : ∀ p ∈ c.paths, r <:+ p) :
    Within r d ⟨t, c :: d'.calls⟩ := by
  intro c' hc'
  rcases List.mem_cons.1 hc' with rfl | hc'
  · exact .inr hc
  · exact h c' hc'

/-- The tree only gains directories, at or above `p`. -/
def Grows (p : List ν) (t t' : Tree ν β) : Prop :=
  ∀ q, t'.node q = t.node q ∨ q <:+ p ∧ t.node q = none ∧ t'.node q = some .directory

theorem Grows.refl (p : List ν) (t : Tree ν β) : Grows p t t := fun _ => .inl rfl

theorem Grows.trans {p : List ν} {t t' t'' : Tree ν β} (h : Grows p t t')
    (h' : Grows p t' t'') : Grows p t t'' := by
  intro q
  rcases h' q with hq' | ⟨hqp, hnone, hdirectory⟩
  · rw [hq']
    exact h q
  · rcases h q with hq | ⟨-, -, hq⟩
    · exact .inr ⟨hqp, hq ▸ hnone, hdirectory⟩
    · cases hq.symm.trans hnone

theorem Grows.mono {p q : List ν} {t t' : Tree ν β} (h : Grows p t t')
    (hpq : p <:+ q) : Grows q t t' := fun p' =>
  (h p').imp_right fun ⟨hp', hnone, hdirectory⟩ => ⟨hp'.trans hpq, hnone, hdirectory⟩

theorem Grows.node {p q : List ν} {t t' : Tree ν β} (h : Grows p t t')
    (hq : t.node q ≠ none) : t'.node q = t.node q :=
  (h q).resolve_right fun ⟨_, hnone, _⟩ => hq hnone

theorem Grows.fileAt {p : List ν} {t t' : Tree ν β} (h : Grows p t t')
    (q : List ν) : t'.fileAt q = t.fileAt q := by
  rcases h q with hq | ⟨-, hnone, hdirectory⟩
  · exact Tree.fileAt_of_node hq
  · rw [Tree.fileAt, Tree.fileAt, hnone, hdirectory]

/-- What a program that makes directories does, at or below `r`, and at or above `p`. -/
structure Gains (r p : List ν) (d d' : Disk ν β) : Prop where
  within : Within r d d'
  grows : Grows p d.tree d'.tree

theorem Gains.trans (h : Gains r p d d') (h' : Gains r p d' d'') : Gains r p d d'' :=
  ⟨h.within.trans h'.within, h.grows.trans h'.grows⟩

variable [DecidableEq ν] {r p : List ν}

/-- A directory is made where nothing was, or was there. -/
theorem wp_makeDir (hr : r <:+ p) : wp (makeDir p : Program ν β ε Unit) faults (fun res d' =>
    Gains r p d d' ∧ (res = .error (.os .fileNotFound) → d.tree.node p = none)) d := by
  have hpaths : ∀ q ∈ (Syscall.mkdir p).paths, r <:+ q := by simpa [Syscall.paths] using hr
  have hwithin : Within r d ⟨d.tree, .mkdir p :: d.calls⟩ := (Within.refl r d).call hpaths
  have hstat : Gains r p d ⟨d.tree, .stat p :: .mkdir p :: d.calls⟩ :=
    ⟨hwithin.call hpaths, Grows.refl _ _⟩
  -- An exception other than of a missing directory is raised again unless there is a directory.
  have hcheck : ∀ e : Failure ε, e ≠ .os .fileNotFound → wp (do
      let directory ← isDir p
      if directory then ret () else throw e : Program ν β ε Unit) faults (fun res d' =>
        Gains r p d d' ∧ (res = .error (.os .fileNotFound) → d.tree.node p = none)) ⟨d.tree,
          .mkdir p :: d.calls⟩ := by
    intro e he
    refine wp_bind.2 (wp_query ?_ ?_)
    · exact fun _ => ⟨hstat, by simp⟩
    · intro _
      dsimp only [Except.mapError]
      by_cases hdirectory : d.tree.node p = some .directory
      · rw [if_pos (by simpa using hdirectory), wp_ret]
        exact ⟨hstat, by simp⟩
      · rw [if_neg (by simpa using hdirectory), wp_throw]
        exact ⟨hstat, fun h => absurd (Except.error.inj h) he⟩
  refine wp_handle.2 (wp_change ?_ ?_ ?_)
  · exact fun n _ => hcheck _ (by simp)
  · intro t hmkdir
    obtain ⟨hnone, -, hnode⟩ := Tree.mkdir_eq_ok hmkdir
    refine ⟨⟨(Within.refl r d).call hpaths, fun q => ?_⟩, by simp⟩
    by_cases hq : q = p
    · subst hq
      exact .inr ⟨List.suffix_rfl, hnone, by rw [hnode, Function.update_self]⟩
    · exact .inl (by rw [hnode, Function.update_of_ne hq])
  · intro e hmkdir
    by_cases he : e = .fileNotFound
    · subst he
      exact ⟨⟨hwithin, Grows.refl _ _⟩, fun _ => Tree.mkdir_not_found hmkdir⟩
    · have h := hcheck (.os e) (by simpa using he)
      rcases e with - | - | - | - | -
      · exact absurd rfl he
      all_goals exact h

/-- Directories are made below one that is there. -/
theorem wp_makeDirs (hr : r <:+ p) (hdirectory : d.tree.node r = some .directory) :
    wp (makeDirs p : Program ν β ε Unit) faults (fun _ d' => Gains r p d d') d := by
  induction p generalizing d with
  | nil => exact wp_mono (wp_makeDir hr) fun _ _ h => h.1
  | cons name p ih =>
    refine wp_handle.2 (wp_mono (wp_makeDir hr) ?_)
    rintro (e | _) d' ⟨hgains, hnone⟩
    · by_cases he : e = .os .fileNotFound
      · subst he
        -- The directory isn't the one that is there, so it is below it.
        have hne : r ≠ name :: p := by
          rintro rfl
          cases hdirectory.symm.trans (hnone rfl)
        have hp : r <:+ p := (List.suffix_cons_iff.1 hr).resolve_left hne
        have hdirectory' : d'.tree.node r = some .directory := by
          rw [hgains.grows.node (by simp [hdirectory]), hdirectory]
        refine wp_bind.2 (wp_mono (ih hp hdirectory') ?_)
        rintro (e | _) d'' ⟨hwithin, hgrows⟩
        · exact hgains.trans ⟨hwithin, hgrows.mono (List.suffix_cons ..)⟩
        · refine wp_mono (wp_makeDir hr) fun _ d₃ h => ?_
          exact (hgains.trans ⟨hwithin, hgrows.mono (List.suffix_cons ..)⟩).trans h.1
      · rcases e with (- | - | - | - | -) | e
        · exact absurd rfl he
        all_goals exact hgains
    · exact hgains

/-! ## Files -/

/-- How the writing of a file ends: it was not opened, is broken off, or has been written. -/
inductive Written (p : List ν) (content : List β) (faults : Faults ν) (d : Disk ν β) :
    Except (Failure ε) Unit → Tree ν β → Prop
  | refused (e : Failure ε) : Written p content faults d (.error e) d.tree
  | broken {e : Failure ε} {calls n t'} : (create p faults d).1 = (.ok () : Except (Failure ε) Unit) →
      faults (.write p :: calls) = some n → d.tree.node p ≠ some .directory →
      t'.node = Function.update d.tree.node p (some (.file (content.take n))) →
      Written p content faults d (.error e) t'
  | done {t'} : (create p faults d).1 = (.ok () : Except (Failure ε) Unit) →
    d.tree.node p ≠ some .directory →
      t'.node = Function.update d.tree.node p (some (.file content)) →
      Written p content faults d (.ok ()) t'

theorem wp_create : wp (create p : Program ν β ε Unit) faults (fun res d' => Within p d d' ∧
    ((∃ e, res = .error e) ∧ d'.tree = d.tree ∨
      res = .ok () ∧ d.tree.writeFile p [] = .ok d'.tree)) d := by
  have hpaths : ∀ q ∈ (Syscall.create p).paths, p <:+ q := by simp [Syscall.paths]
  refine wp_change ?_ ?_ ?_
  · exact fun n _ => ⟨(Within.refl p d).call hpaths, .inl ⟨⟨_, rfl⟩, rfl⟩⟩
  · exact fun t ht => ⟨(Within.refl p d).call hpaths, .inr ⟨rfl, ht⟩⟩
  · exact fun e _ => ⟨(Within.refl p d).call hpaths, .inl ⟨⟨_, rfl⟩, rfl⟩⟩

theorem wp_writeBytes {content : List β} : wp (writeBytes p content : Program ν β ε Unit) faults
    (fun res d' => Within p d d' ∧ Written p content faults d res d'.tree) d := by
  have hpaths : ∀ q ∈ (Syscall.write p).paths, p <:+ q := by simp [Syscall.paths]
  refine wp_bind.2 (wp_mono (wp_run wp_create) ?_)
  rintro res d₁ ⟨hrun, hwithin, ⟨⟨e, rfl⟩, htree⟩ | ⟨rfl, hopen⟩⟩
  · exact ⟨hwithin, htree ▸ .refused e⟩
  · have hopened := congrArg Prod.fst hrun
    have hne := (Tree.writeFile_eq_ok hopen).1
    refine wp_change ?_ ?_ ?_
    · intro n hfault
      obtain ⟨t', ht', hnode⟩ := Tree.writeFile_writeFile (content.take n) hopen
      refine ⟨hwithin.call hpaths, ?_⟩
      simp only [ht', Except.toOption, Option.getD_some]
      exact .broken hopened hfault hne hnode
    · intro t' ht'
      obtain ⟨t'', ht'', hnode⟩ := Tree.writeFile_writeFile content hopen
      obtain rfl := Except.ok.inj (ht'.symm.trans ht'')
      exact ⟨hwithin.call hpaths, .done hopened hne hnode⟩
    · intro e he
      obtain ⟨t'', ht'', -⟩ := Tree.writeFile_writeFile content hopen
      cases he.symm.trans ht''

/-- A file takes the place of another, or everything stays in place. -/
theorem wp_replace {src dst : List ν} (hsrc : r <:+ src) (hdst : r <:+ dst) : wp
    (replace src dst : Program ν β ε Unit) faults
    (fun res d' => Within r d d' ∧
      ((∃ e, res = .error e) ∧ d'.tree = d.tree ∧
          ((∃ calls, faults (.rename src dst :: calls) ≠ none) ∨
            ∃ e, d.tree.rename src dst = .error e) ∨
        res = .ok () ∧ ∃ content, d.tree.node src = some (.file content) ∧
        d.tree.node dst ≠ some .directory ∧
          d'.tree.node = Function.update (Function.update d.tree.node src none) dst
            (some (.file content)))) d := by
  have hpaths : ∀ q ∈ (Syscall.rename src dst).paths, r <:+ q := by
    simpa [Syscall.paths] using ⟨hsrc, hdst⟩
  refine wp_change ?_ ?_ ?_
  · exact fun n hn =>
      ⟨(Within.refl r d).call hpaths, .inl ⟨⟨_, rfl⟩, rfl, .inl ⟨d.calls, by simp [hn]⟩⟩⟩
  · exact fun t ht => ⟨(Within.refl r d).call hpaths, .inr ⟨rfl, Tree.rename_eq_ok ht⟩⟩
  · exact fun e he => ⟨(Within.refl r d).call hpaths, .inl ⟨⟨_, rfl⟩, rfl, .inr ⟨e, he⟩⟩⟩

theorem wp_unlink : wp (unlink p : Program ν β ε Unit) faults (fun res d' => Within p d d' ∧
    ((∃ e, res = .error e ∧ (e = .os .fileNotFound → d.tree.node p = none)) ∧ d'.tree = d.tree ∨
      res = .ok () ∧ d.tree.node p ≠ some .directory ∧
      d'.tree.node = Function.update d.tree.node p none)) d := by
  have hpaths : ∀ q ∈ (Syscall.unlink p).paths, p <:+ q := by simp [Syscall.paths]
  refine wp_change ?_ ?_ ?_
  · exact fun n _ => ⟨(Within.refl p d).call hpaths, .inl ⟨⟨_, rfl, by simp⟩, rfl⟩⟩
  · exact fun t ht => ⟨(Within.refl p d).call hpaths, .inr ⟨rfl, Tree.unlink_eq_ok ht⟩⟩
  · intro e he
    refine ⟨(Within.refl p d).call hpaths, .inl ⟨⟨_, rfl, fun h => ?_⟩, rfl⟩⟩
    cases h
    exact Tree.unlink_not_found he

end Program

end FileTree
