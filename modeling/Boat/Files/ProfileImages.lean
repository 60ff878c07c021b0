import Boat.Files.UseCases
import Boat.ReadCommitted.Checks

/-!
# Files: profile images

Whether the files that profiles refer to exist. Setting the image of a profile checks that there is
the file, deleting a file that no profile refers to it, each before its own commit and without a
lock.

* `profile_images_exist`: they do, in all runs in which no image is set while the file is being
  deleted past its check, and no file is deleted while an image is being set past its check.
* `profile_image_of_deleted_file`: there are others.
-/

namespace Boat.Files

open ReadCommitted SqlAlchemyFileRepository UpdateProfileImageCommandUseCase
open Users (UserRecord)

inductive ProfileRequest
  | setImage (command : SetProfileImageCommand) (stamp : Stamp)
  | clearImage (userId : UUID) (stamp : Stamp)
  | deleteFile (command : DeleteFileCommand) (stamp : Stamp)

namespace ProfileRequest

/-- The program of a request. -/
def prog : ProfileRequest → FilesTx Unit
  | setImage command stamp => do let _ ← setProfileImage command stamp
  | clearImage userId stamp => clearProfileImage userId stamp
  | deleteFile command stamp => DeleteFileCommandUseCase.execute command stamp

/-- The statement by which a request checks what it relies on: that there is the file, and that no
    profile refers to it. -/
def check : ProfileRequest → FilesStatement
  | setImage command _ => .selectFile command.fileId
  | clearImage userId _ => .selectUser userId
  | deleteFile command _ => .selectReferences command.fileId

/-- One sets an image, the other deletes the file. -/
def Conflicts : ProfileRequest → ProfileRequest → Prop
  | setImage command _, deleteFile command' _ | deleteFile command' _, setImage command _ =>
    command.fileId = command'.fileId
  | _, _ => False

end ProfileRequest

/-- A user's image is the content of a file of theirs. -/
def FilesDatabase.ImagesExist (d : FilesDatabase) : Prop :=
  ∀ r ∈ d.users.rows, ∀ fileId, r.profileImageUrl = some (contentPath fileId) →
    ∃ f ∈ d.files.rows, f.id = fileId ∧ f.userId = r.id

/-! ## What the requests check and change -/

namespace ProfileRequest

/-- What a request has seen in its check. -/
def Sees : ProfileRequest → FilesDatabase → Prop
  | setImage command _, d => ∃ f ∈ d.files.rows, f.id = command.fileId ∧ f.userId = command.userId
  | clearImage .., _ => True
  | deleteFile command _, d =>
    ∀ r ∈ d.users.rows, r.profileImageUrl ≠ some (contentPath command.fileId)

/-- What a request changes, of files and images. -/
def Changes : ProfileRequest → FilesDatabase → FilesDatabase → Prop
  | setImage command _, d, d' => d'.files = d.files ∧ ∀ r ∈ d'.users.rows,
      (∃ q ∈ d.users.rows, q.id = r.id ∧ q.profileImageUrl = r.profileImageUrl) ∨
        r.id = command.userId ∧ r.profileImageUrl = some (contentPath command.fileId)
  | clearImage .., d, d' => d'.files = d.files ∧ ∀ r ∈ d'.users.rows,
      (∃ q ∈ d.users.rows, q.id = r.id ∧ q.profileImageUrl = r.profileImageUrl) ∨
      r.profileImageUrl = none
  | deleteFile command _, d, d' =>
    d'.users = d.users ∧ ∀ f ∈ d.files.rows, f.id ≠ command.fileId → f ∈ d'.files.rows

theorem changes_refl (r : ProfileRequest) (d : FilesDatabase) : r.Changes d d := by
  rcases r with ⟨command, stamp⟩ | ⟨userId, stamp⟩ | ⟨command, stamp⟩
  · exact ⟨rfl, fun r hr => .inl ⟨r, hr, rfl, rfl⟩⟩
  · exact ⟨rfl, fun r hr => .inl ⟨r, hr, rfl, rfl⟩⟩
  · exact ⟨rfl, fun f hf _ => hf⟩

theorem changes_trans {r : ProfileRequest} {d d' d'' : FilesDatabase} (h : r.Changes d d')
    (h' : r.Changes d' d'') :
    r.Changes d d'' := by
  rcases r with ⟨command, stamp⟩ | ⟨userId, stamp⟩ | ⟨command, stamp⟩
  · refine ⟨h'.1.trans h.1, fun r hr => ?_⟩
    obtain ⟨q, hq, hid, hurl⟩ | hset := h'.2 r hr
    · rw [← hid, ← hurl]
      exact h.2 q hq
    · exact .inr hset
  · refine ⟨h'.1.trans h.1, fun r hr => ?_⟩
    obtain ⟨q, hq, hid, hurl⟩ | hset := h'.2 r hr
    · rw [← hid, ← hurl]
      exact h.2 q hq
    · exact .inr hset
  · exact ⟨h'.1.trans h.1, fun f hf hne => h'.2 f (h.2 f hf hne) hne⟩

/-- The own writes of a request do not establish what it checks. -/
theorem sees_of_changes {r : ProfileRequest} {d d' : FilesDatabase} (h : r.Changes d d')
    (h' : r.Sees d') : r.Sees d := by
  rcases r with ⟨command, stamp⟩ | ⟨userId, stamp⟩ | ⟨command, stamp⟩
  · show ∃ f ∈ d.files.rows, _
    rw [← h.1]
    exact h'
  · trivial
  · show ∀ r ∈ d.users.rows, _
    rw [← h.1]
    exact h'

theorem contentPath_inj {f f' : UUID} (h : contentPath f = contentPath f') : f = f' := by
  simp only [contentPath, String.append_left_inj, String.append_right_inj] at h
  exact UUID.str_inj h

/-- A request that has seen what it checks keeps that images exist. -/
theorem keeps_imagesExist {r : ProfileRequest} {d d' : FilesDatabase} (hd : d.ImagesExist)
    (hsees : r.Sees d) (h : r.Changes d d') : d'.ImagesExist := by
  intro u hu fileId hurl
  rcases r with ⟨command, stamp⟩ | ⟨userId, stamp⟩ | ⟨command, stamp⟩
  · rw [h.1]
    obtain ⟨q, hq, hid, hq'⟩ | ⟨hid, hset⟩ := h.2 u hu
    · rw [← hid]
      exact hd q hq fileId (hq'.trans hurl)
    · -- The image that has been set.
      obtain rfl : fileId = command.fileId := contentPath_inj (Option.some.inj (hurl.symm.trans hset))
      rw [hid]
      exact hsees
  · rw [h.1]
    obtain ⟨q, hq, hid, hq'⟩ | hnone := h.2 u hu
    · rw [← hid]
      exact hd q hq fileId (hq'.trans hurl)
    · rw [hnone] at hurl
      cases hurl
  · rw [h.1] at hu
    obtain ⟨f, hf, rfl, howner⟩ := hd u hu fileId hurl
    have hne : f.id ≠ command.fileId := by
      intro heq
      rw [heq] at hurl
      exact hsees u hu hurl
    exact ⟨f, h.2 f hf hne, rfl, howner⟩

/-- Requests that do not conflict keep what the other has seen. -/
theorem keeps_sees {r r' : ProfileRequest} {d d' : FilesDatabase} (hconflict : ¬r.Conflicts r')
    (hsees : r'.Sees d) (h : r.Changes d d') : r'.Sees d' := by
  rcases r' with ⟨command', stamp'⟩ | ⟨userId', stamp'⟩ | ⟨command', stamp'⟩
  · obtain ⟨f, hf, hid, howner⟩ := hsees
    refine ⟨f, ?_, hid, howner⟩
    rcases r with ⟨command, stamp⟩ | ⟨userId, stamp⟩ | ⟨command, stamp⟩
    · rw [h.1]
      exact hf
    · rw [h.1]
      exact hf
    · refine h.2 f hf fun heq => hconflict ?_
      exact hid.symm.trans heq
  · trivial
  · intro u hu hurl
    rcases r with ⟨command, stamp⟩ | ⟨userId, stamp⟩ | ⟨command, stamp⟩
    · obtain ⟨q, hq, -, hq'⟩ | ⟨-, hset⟩ := h.2 u hu
      · exact hsees q hq (hq'.trans hurl)
      · exact hconflict (contentPath_inj (Option.some.inj (hset.symm.trans hurl)))
    · obtain ⟨q, hq, -, hq'⟩ | hnone := h.2 u hu
      · exact hsees q hq (hq'.trans hurl)
      · rw [hnone] at hurl
        cases hurl
    · rw [h.1] at hu
      exact hsees u hu hurl

/-! ## The programs -/

section

variable {r : ProfileRequest} {l : FilesStatement} {α β : Type}

theorem changes_insertOutbox (r : ProfileRequest) (events : List (Stamped FilesEvent))
    (d : FilesDatabase) :
    r.Changes d (d.insertOutbox events) := by
  rcases r with ⟨command, stamp⟩ | ⟨userId, stamp⟩ | ⟨command, stamp⟩
  · exact changes_refl (.setImage command stamp) d
  · exact changes_refl (.clearImage userId stamp) d
  · exact changes_refl (.deleteFile command stamp) d

theorem inside_select {s : FilesStatement} (hs : s ≠ l) {g : FilesDatabase → α} {f : α → FilesTx β}
    (hf : ∀ a, (f a).Inside l fun w => ∀ d, r.Changes d (w d)) :
    ((Prog.exec s (.fault s) (.query (fun _ => []) g)).bind f).Inside l fun w =>
      ∀ d, r.Changes d (w d) := by
  refine Prog.inside_exec_bind hs r.changes_refl ?_ hf
  rintro v a u ⟨⟩
  exact r.changes_refl

theorem inside_lift {e : Except DomainError α} {f : α → FilesTx β}
    (hf : ∀ a, (f a).Inside l fun w => ∀ d, r.Changes d (w d)) :
    ((FilesTx.lift e).bind f).Inside l fun w => ∀ d, r.Changes d (w d) := by
  rcases e with e | a
  · trivial
  · exact hf a

/-- The end of a request. -/
theorem inside_publish (hl : .insertOutbox ≠ l) (events : List (Stamped FilesEvent))
    {f : Unit → FilesTx α} (hf : (f ()).Inside l fun w => ∀ d, r.Changes d (w d)) :
    ((publish events).bind f).Inside l fun w => ∀ d, r.Changes d (w d) := by
  refine Prog.inside_exec_bind hl r.changes_refl ?_ fun _ => hf
  intro v a u hu
  rw [Command.run_insert hu]
  exact r.changes_insertOutbox events

/-- Setting the image of a profile, once the user has been read. -/
theorem inside_updateUser {userId : UUID} {url : Option String} (hl : .updateUser userId ≠ l)
    (hset : ∀ d : FilesDatabase, r.Changes d (d.setProfileImage userId url)) {record : UserRecord}
    {event : FilesEvent} {f : FilesEvent → FilesTx α}
    (hf : ∀ e, (f e).Inside l fun w => ∀ d, r.Changes d (w d)) :
    (Prog.bind (if url = record.profileImageUrl then return event
      else do
        FilesTx.exec (.updateUser userId)
          (.update (fun v => v.users.find userId) (fun _ => .row (.user userId)) .stale
          (fun _ => FilesDatabase.setProfileImage userId url) fun _ =>
            FilesDatabase.touches_setProfileImage userId url)
        return event) f).Inside l fun w => ∀ d, r.Changes d (w d) := by
  split
  · exact hf event
  · simp only [FilesTx.exec, Prog.bind_eq, Prog.bind_assoc]
    refine Prog.inside_exec_bind hl r.changes_refl ?_ fun _ => hf event
    intro v a u hu
    obtain ⟨-, -, rfl⟩ := Command.run_update hu
    exact hset

theorem inside_updateProfileImageUrl {userId : UUID} {url : Option String}
    (hl : .selectUser userId ≠ l) (hl' : .updateUser userId ≠ l)
    (hset : ∀ d : FilesDatabase, r.Changes d (d.setProfileImage userId url))
    {f : FilesEvent → FilesTx α} (hf : ∀ e, (f e).Inside l fun w => ∀ d, r.Changes d (w d)) :
    ((updateProfileImageUrl userId url).bind f).Inside l fun w => ∀ d, r.Changes d (w d) := by
  simp only [updateProfileImageUrl, FilesTx.select, FilesTx.exec, Prog.bind_eq, Prog.bind_assoc]
  refine inside_select hl fun record => ?_
  rcases record with - | record
  · trivial
  · exact inside_updateUser hl' hset hf

theorem checked_select {C : FilesDatabase → Prop} {s : FilesStatement} (hs : s ≠ l)
    {g : FilesDatabase → α} {f : α → FilesTx β}
    (hf : ∀ a, (f a).Checked l C fun w => ∀ d, r.Changes d (w d)) :
    ((Prog.exec s (.fault s) (.query (fun _ => []) g)).bind f).Checked l C fun w =>
      ∀ d, r.Changes d (w d) := by
  refine Prog.checked_exec_bind hs r.changes_refl ?_ hf
  rintro v a u ⟨⟩
  exact r.changes_refl

theorem checked_lift {C : FilesDatabase → Prop} {e : Except DomainError α} {f : α → FilesTx β}
    (hf : ∀ a, (f a).Checked l C fun w => ∀ d, r.Changes d (w d)) :
    ((FilesTx.lift e).bind f).Checked l C fun w => ∀ d, r.Changes d (w d) := by
  rcases e with e | a
  · trivial
  · exact hf a

/-- Deleting the contents is inside. -/
theorem inside_deleteContents (hl : ∀ key, .deleteContent key ≠ l)
    (storedFiles : List StoredFile) {f : Unit → FilesTx α}
    (hf : (f ()).Inside l fun w => ∀ d, r.Changes d (w d)) :
    ((deleteContents storedFiles).bind f).Inside l fun w => ∀ d, r.Changes d (w d) := by
  induction storedFiles with
  | nil => exact hf
  | cons storedFile storedFiles ih =>
    simp only [deleteContents, deleteContent, FilesTx.call, FilesTx.select, FilesTx.exec,
      Prog.bind_eq, Prog.bind_assoc]
    exact inside_select (hl _) fun _ => ih

end

theorem changes_setProfileImage (command : SetProfileImageCommand) (stamp : Stamp)
    (d : FilesDatabase) :
    (setImage command stamp).Changes d
      (d.setProfileImage command.userId (some (contentPath command.fileId))) := by
  refine ⟨rfl, fun r hr => ?_⟩
  obtain ⟨hr, -⟩ | ⟨q, -, hid, rfl⟩ := FilesDatabase.mem_setProfileImage.1 hr
  · exact .inl ⟨r, hr, rfl, rfl⟩
  · exact .inr ⟨hid, rfl⟩

theorem changes_clearProfileImage (userId : UUID) (stamp : Stamp) (d : FilesDatabase) :
    (clearImage userId stamp).Changes d (d.setProfileImage userId none) := by
  refine ⟨rfl, fun r hr => ?_⟩
  obtain ⟨hr, -⟩ | ⟨q, -, -, rfl⟩ := FilesDatabase.mem_setProfileImage.1 hr
  · exact .inl ⟨r, hr, rfl, rfl⟩
  · exact .inr rfl

theorem changes_deleteFile (command : DeleteFileCommand) (stamp : Stamp)
    (objects : List FileObjectRecord) (d : FilesDatabase) :
    (deleteFile command stamp).Changes d (d.deleteFile command.fileId objects) :=
  ⟨rfl, fun _ hf hne => List.mem_filter.2 ⟨hf, decide_eq_true hne⟩⟩

/-- A request checks before it commits. -/
theorem checked (r : ProfileRequest) : r.prog.Checked r.check r.Sees fun w =>
    ∀ d, r.Changes d (w d) := by
  rcases r with ⟨command, stamp⟩ | ⟨userId, stamp⟩ | ⟨command, stamp⟩
  · simp only [prog, check, setProfileImage, ensureOwnedImageFile, findByIdForUser, FilesTx.select,
      FilesTx.exec, Prog.bind_eq, Prog.bind_assoc]
    refine Prog.check_query_bind (changes_refl _) fun v => ?_
    rcases hfile : v.fileOf command.fileId command.userId with - | file
    · exact .inl trivial
    -- The file is there. What follows changes the image only.
    obtain ⟨hfind, howner⟩ := FilesDatabase.fileOf_eq_some.1 hfile
    obtain ⟨hmem, hid⟩ := Table.find_eq_some.1 hfind
    refine .inr ⟨⟨file, hmem, hid, howner⟩, ?_⟩
    simp only [Prog.bind_assoc]
    refine inside_select (by rintro ⟨⟩) fun object => ?_
    rcases object with - | object
    · trivial
    simp only [Prog.bind_assoc]
    refine inside_lift fun _ => ?_
    refine inside_updateProfileImageUrl (by rintro ⟨⟩) (by rintro ⟨⟩)
      (changes_setProfileImage command stamp) fun _ => ?_
    exact inside_publish (by rintro ⟨⟩) _ (Prog.inside_commitOr_bind _)
  · simp only [prog, check, clearProfileImage, updateProfileImageUrl, FilesTx.select, FilesTx.exec,
      Prog.bind_eq, Prog.bind_assoc]
    refine Prog.check_query_bind (changes_refl _) fun v => .inr ⟨trivial, ?_⟩
    rcases v.users.find userId with - | record
    · trivial
    refine inside_updateUser (by rintro ⟨⟩) (changes_clearProfileImage userId stamp) fun _ => ?_
    exact inside_publish (by rintro ⟨⟩) _ Prog.inside_commitOr
  · simp only [prog, check, DeleteFileCommandUseCase.execute, findAllByIdForUser,
      ensureNotReferenced, FilesTx.select, FilesTx.exec, Prog.bind_eq, Prog.bind_assoc]
    refine checked_select (by rintro ⟨⟩) fun file => ?_
    rcases file with - | file
    · trivial
    simp only [Prog.bind_assoc]
    refine checked_select (by rintro ⟨⟩) fun objects => ?_
    refine checked_lift fun storedFiles => ?_
    rcases storedFiles with - | ⟨storedFile, storedFiles⟩
    · trivial
    refine Prog.check_query_bind (changes_refl _) fun v => ?_
    split
    · exact .inl trivial
    · next href =>
      refine .inr ⟨fun u hu hurl => href ?_, ?_⟩
      · exact List.any_eq_true.2 ⟨u, hu, decide_eq_true hurl⟩
      refine inside_deleteContents (fun _ => by rintro ⟨⟩) _ ?_
      simp only [deleteById, FilesTx.exec, Prog.bind_eq, Prog.bind_assoc]
      refine Prog.inside_exec_bind (by rintro ⟨⟩)
        (deleteFile command stamp).changes_refl ?_ fun _ => ?_
      · rintro v a u ⟨⟩
        exact changes_deleteFile command stamp _
      · exact inside_publish (by rintro ⟨⟩) _ Prog.inside_commitOr

end ProfileRequest

/-! ## Runs -/

section

variable {ι : Type} [DecidableEq ι]

omit [DecidableEq ι] in
/-- The requests check what they rely on, and those that do not conflict leave it to each other. -/
theorem profileRequests_checks (requests : ι → ProfileRequest) :
    Checks (fun i => (requests i).prog) (fun i => (requests i).check) (fun i => (requests i).Sees)
      (fun i => (requests i).Changes) FilesDatabase.ImagesExist fun i j =>
        (requests i).Conflicts (requests j) where
  checked i := (requests i).checked
  refl i := (requests i).changes_refl
  trans _ _ _ _ := ProfileRequest.changes_trans
  reads _ _ _ := ProfileRequest.sees_of_changes
  keeps _ _ _ := ProfileRequest.keeps_imagesExist
  other _ _ _ _ _ hconflict _ _ hsees h := ProfileRequest.keeps_sees hconflict hsees h

/-- In all runs in which no image is set, and no file deleted, while a request that does the other
    with the file is between its check and its end, images are contents of files that exist. -/
theorem profile_images_exist {requests : ι → ProfileRequest} {d : FilesDatabase} (hd : d.ImagesExist)
    {s : System ι FilesDatabase FilesStatement FilesError Unit}
    (hs : ReachIf (NoOverlap (fun i => (requests i).check) fun i j =>
      (requests i).Conflicts (requests j))
      (System.init (fun i => (requests i).prog) d) s) : s.store.ImagesExist :=
  (profileRequests_checks requests).reach hd hs

end

def portraitOwner : UserRecord := ⟨.ofNat 1, none, none, none, none⟩

/-- A user with two files. -/
def portraits : FilesDatabase where
  files := (Table.empty.insert ⟨.ofNat 2, .ofNat 1, "portrait.png"⟩).insert
    ⟨.ofNat 3, .ofNat 1, "other.png"⟩
  fileObjects := [⟨.ofNat 4, .ofNat 2, "original", "portrait", "image/png", 1, none⟩,
    ⟨.ofNat 5, .ofNat 3, "original", "other", "image/png", 1, none⟩]
  users := Table.empty.insert portraitOwner
  outboxEvents := []

theorem portraits_imagesExist : portraits.ImagesExist := by
  intro r hr fileId hurl
  obtain rfl : r = portraitOwner := List.mem_singleton.1 hr
  cases hurl

/-- The portrait becomes the image of the profile, while a file is deleted. -/
def portraitRequests (deleted : UUID) : Bool → ProfileRequest
  | false => .setImage ⟨.ofNat 1, .ofNat 2⟩ ⟨.ofNat 6, 0⟩
  | true => .deleteFile ⟨deleted, .ofNat 1⟩ ⟨.ofNat 7, 0⟩

/-- The other file may be deleted. -/
theorem profile_images_exist_portrait :
    ∃ s, Reach Always (System.init (fun i => (portraitRequests (.ofNat 3) i).prog) portraits) s ∧
      (∀ i, (s.returned i).isSome) ∧ s.store.ImagesExist := by
  obtain ⟨s, hs, hreturned⟩ := System.exists_reach (C := Always)
    (s := System.init (fun i => (portraitRequests (.ofNat 3) i).prog) portraits)
      (p := fun s => ∀ i, (s.returned i).isSome)
    (List.replicate 2 (.run false) ++ List.replicate 7 (.run true) ++ List.replicate 4 (.run false))
      (by decide +kernel)
  refine ⟨s, hs, hreturned, profile_images_exist portraits_imagesExist (hs.noOverlap ?_)⟩
  rintro (- | -) (- | -) hconflict
  · exact hconflict
  · exact absurd (show UUID.ofNat 2 = .ofNat 3 from hconflict) (by decide)
  · exact absurd (show UUID.ofNat 2 = .ofNat 3 from hconflict) (by decide)
  · exact hconflict

/-- The portrait is deleted, once the one request has seen it, and the other that no profile refers
    to it. -/
theorem profile_image_of_deleted_file : portraits.ImagesExist ∧
    ∃ s, Reach Always (System.init (fun i => (portraitRequests (.ofNat 2) i).prog) portraits) s ∧
      (∀ i, (s.returned i).isSome) ∧ ¬s.store.ImagesExist := by
  obtain ⟨s, hs, hreturned, hurl, hfiles⟩ := System.exists_reach (C := Always)
    (s := System.init (fun i => (portraitRequests (.ofNat 2) i).prog) portraits)
    (p := fun s => (∀ i, (s.returned i).isSome) ∧
      (∃ r ∈ s.store.users.rows, r.profileImageUrl = some (contentPath (.ofNat 2))) ∧
        ∀ f ∈ s.store.files.rows, f.id ≠ .ofNat 2)
    (List.replicate 2 (.run false) ++ List.replicate 7 (.run true) ++ List.replicate 4 (.run false))
      (by decide +kernel)
  refine ⟨portraits_imagesExist, s, hs, hreturned, fun hexist => ?_⟩
  obtain ⟨r, hr, hurl⟩ := hurl
  obtain ⟨f, hf, hid, -⟩ := hexist r hr _ hurl
  exact hfiles f hf hid

end Boat.Files
