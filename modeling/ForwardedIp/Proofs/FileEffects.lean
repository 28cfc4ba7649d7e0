import ForwardedIp.Proofs.PathPlaces
/-!
# Effects on file trees

Giving a file its content leaves every directory and every other place as they were, so that all
paths lead where they led before. Creating, writing, copying and moving files are made of this,
and what a path leads to after them is read off the places they can reach.
-/
namespace ForwardedIp.FileTree
variable {t t' t'' : FileTree} {place goal : List String} {path other : String}
  {paths : List String} {content : ByteArray}

/-- What stands at a path. -/
def standing? (t : FileTree) (path : String) : Option FileEntry :=
  match t.locate path with
  | .ok place => t.get? place
  | .error _ => none

theorem standing?_of_locate (h : t.locate path = .ok place) :
    t.standing? path = t.get? place := by
  rw [standing?, h]

theorem locate_of_standing? {entry : FileEntry} (h : t.standing? path = some entry) :
    ∃ place, t.locate path = .ok place ∧ t.get? place = some entry := by
  unfold standing? at h
  split at h
  · next place hplace => exact ⟨place, hplace, h⟩
  · cases h

theorem contains_eq (t : FileTree) (path : String) :
    t.contains path = (t.standing? path).isSome := by
  unfold contains standing?
  cases t.locate path <;> rfl

theorem content_of_standing? (h : t.standing? path = some (.file content)) :
    t.content path = .ok content := by
  obtain ⟨place, hplace, hentry⟩ := locate_of_standing? h
  unfold FileTree.content
  rw [hplace]
  show t.contentAt place = _
  rw [contentAt, hentry]

theorem content_directory (h : t.standing? path = some .directory) :
    t.content path = .error .isADirectory := by
  obtain ⟨place, hplace, hentry⟩ := locate_of_standing? h
  unfold FileTree.content
  rw [hplace]
  show t.contentAt place = _
  rw [contentAt, hentry]

theorem get?_of_contentAt (h : t.contentAt place = .ok content) :
    t.get? place = some (.file content) := by
  unfold contentAt at h
  split at h
  · next hentry =>
    cases h
    exact hentry
  · cases h
  · cases h

theorem ok_of_settle {x : Except IoFault FileTree} (h : t.settle x = (.ok (), t')) :
    x = .ok t' := by
  cases x with
  | ok t₁ =>
    cases h
    rfl
  | error fault => cases h

theorem eq_of_settle {x : Except IoFault FileTree} {fault : IoFault}
    (h : t.settle x = (.error fault, t')) : t' = t := by
  cases x with
  | ok t₁ => cases h
  | error fault =>
    cases h
    rfl

/-! ## Directories that stay -/

/-- The directories of one tree are directories of another one. -/
def KeepsDirectories (t t' : FileTree) : Prop :=
  ∀ place, t.get? place = some .directory → t'.get? place = some .directory

namespace KeepsDirectories

theorem step (h : t.KeepsDirectories t') {piece : String} (hstep : t.step place piece = .ok goal) :
    t'.step place piece = .ok goal := by
  have hplace := directory_of_step hstep
  simp only [FileTree.step, hplace, h place hplace] at hstep ⊢
  exact hstep

theorem foldlM (h : t.KeepsDirectories t') {pieces : List String}
    (hfold : pieces.foldlM t.step place = .ok goal) : pieces.foldlM t'.step place = .ok goal := by
  induction pieces generalizing place with
  | nil => exact hfold
  | cons piece pieces ih =>
    rw [List.foldlM_cons] at hfold ⊢
    obtain ⟨next, hstep, hfold⟩ := ok_of_bind hfold
    rw [h.step hstep]
    exact ih hfold

theorem follow (h : t.KeepsDirectories t') {pieces : List String}
    (hplace : t.follow path pieces = .ok place) : t'.follow path pieces = .ok place := by
  obtain ⟨hfold, hguards⟩ := follow_ok.mp hplace
  exact follow_ok.mpr ⟨h.foldlM hfold, hguards⟩

end KeepsDirectories

/-- The same places are directories in two trees. -/
def SameDirectories (t t' : FileTree) : Prop :=
  ∀ place, t.get? place = some .directory ↔ t'.get? place = some .directory

namespace SameDirectories

theorem refl (t : FileTree) : t.SameDirectories t := fun _ => Iff.rfl

theorem symm (h : t.SameDirectories t') : t'.SameDirectories t := fun place => (h place).symm

theorem trans (h : t.SameDirectories t') (h' : t'.SameDirectories t'') : t.SameDirectories t'' :=
  fun place => (h place).trans (h' place)

/-- Every path leads to the same place. -/
theorem locate (h : t.SameDirectories t') (hplace : t.locate path = .ok place) :
    t'.locate path = .ok place :=
  KeepsDirectories.follow (fun place => (h place).mp) hplace

end SameDirectories

/-! ## Changes confined to some paths -/

/-- Two trees differ at most in the files that some paths lead to. -/
structure Confined (paths : List String) (t t' : FileTree) : Prop where
  directories : t.SameDirectories t'
  elsewhere : ∀ place, (∀ path ∈ paths, t.locate path ≠ .ok place) → t'.get? place = t.get? place

namespace Confined

theorem refl (paths : List String) (t : FileTree) : Confined paths t t :=
  ⟨.refl t, fun _ _ => rfl⟩

theorem trans (h : Confined paths t t') (h' : Confined paths t' t'') : Confined paths t t'' where
  directories := h.directories.trans h'.directories
  elsewhere place hplace := by
    rw [← h.elsewhere place hplace]
    refine h'.elsewhere place fun path hpath hlocate => hplace path hpath ?_
    exact h.directories.symm.locate hlocate

theorem mono {more : List String} (h : Confined paths t t') (hsubset : paths ⊆ more) :
    Confined more t t' :=
  ⟨h.directories, fun place hplace => h.elsewhere place fun path hpath =>
    hplace path (hsubset hpath)⟩

/-- At a path that leads elsewhere everything is as it was. -/
theorem standing?_eq (h : Confined paths t t')
    (hother : ∀ path ∈ paths, ∀ place, t.locate path = .ok place → t.locate other = .ok place →
      t.get? place = some .directory) : t'.standing? other = t.standing? other := by
  cases hplace : t.locate other with
  | error fault =>
    have hplace' : ∀ place, t'.locate other ≠ .ok place := fun place hlocate => by
      rw [h.directories.symm.locate hlocate] at hplace
      cases hplace
    unfold standing?
    rw [hplace]
    split
    · next place hlocate => exact absurd hlocate (hplace' place)
    · rfl
  | ok place =>
    rw [standing?_of_locate hplace, standing?_of_locate (h.directories.locate hplace)]
    by_cases hdirectory : t.get? place = some .directory
    · rw [hdirectory, (h.directories place).mp hdirectory]
    · exact h.elsewhere place fun path hpath hlocate =>
        hdirectory (hother path hpath place hlocate hplace)

end Confined

/-! ## Giving a file its content -/

/-- The file that a path leads to is given its content, or made with it. -/
def Puts (path : String) (content : ByteArray) (t t' : FileTree) : Prop :=
  ∃ place, t.locate path = .ok place ∧ t.get? place ≠ some .directory ∧
    t' = t.put place (.file content)

theorem get?_put_file (h : t.get? place ≠ some .directory) (content : ByteArray) :
    (t.put place (.file content)).get? place = some (.file content) := by
  refine get?_put_self t _ fun hroot => h ?_
  rw [get?, if_pos hroot]

theorem sameDirectories_put (h : t.get? place ≠ some .directory) (content : ByteArray) :
    t.SameDirectories (t.put place (.file content)) := by
  intro goal
  by_cases hgoal : goal = place
  · subst hgoal
    rw [get?_put_file h]
    exact ⟨fun hdirectory => absurd hdirectory h, fun hfile => by cases hfile⟩
  · rw [get?_put_of_ne t hgoal]

theorem sameDirectories_erase (h : t.get? place = some (.file content)) :
    t.SameDirectories (t.erase place) := by
  intro goal
  by_cases hgoal : goal = place
  · subst hgoal
    have hroot : ¬(goal = [] ∨ goal = ["/"]) := fun hroot => by
      rw [get?, if_pos hroot] at h
      cases h
    have hgone : (t.erase goal).get? goal = none := by
      rw [get?, if_neg hroot]
      exact Keyed.lookup_drop_self goal t.entries
    simp [h, hgone]
  · rw [get?_erase_of_ne t hgoal]

namespace Puts

theorem confined (h : Puts path content t t') : Confined [path] t t' := by
  obtain ⟨place, hplace, hentry, rfl⟩ := h
  refine ⟨sameDirectories_put hentry content, fun goal hgoal => get?_put_of_ne t ?_ _⟩
  rintro rfl
  exact hgoal path List.mem_cons_self hplace

theorem standing? (h : Puts path content t t') : t'.standing? path = some (.file content) := by
  have hdirectories := h.confined.directories
  obtain ⟨place, hplace, hentry, rfl⟩ := h
  rw [standing?_of_locate (hdirectories.locate hplace), get?_put_file hentry]

end Puts

theorem puts_of_createFile (h : t.createFile path = .ok t') : Puts path .empty t t' := by
  obtain ⟨place, hplace, h⟩ := ok_of_bind h
  split at h
  · cases h
  · next hentry =>
    cases h
    exact ⟨place, hplace, hentry, rfl⟩

theorem puts_of_writeFile (h : t.writeFile path content = .ok t') : Puts path content t t' := by
  obtain ⟨place, hplace, h⟩ := ok_of_bind h
  obtain ⟨old, hold, h⟩ := ok_of_bind h
  cases h
  refine ⟨place, hplace, fun hdirectory => ?_, rfl⟩
  rw [get?_of_contentAt hold] at hdirectory
  cases hdirectory

/-- A copy empties its target before it gives it the content. -/
theorem puts_of_copyFile {source target : String} (h : t.copyFile source target = .ok t') :
    ∃ t₁ content, Puts target .empty t t₁ ∧ Puts target content t₁ t' := by
  obtain ⟨place, hplace, h⟩ := ok_of_bind h
  split at h
  · obtain ⟨t₁, hcreate, h⟩ := ok_of_bind h
    obtain ⟨content, -, h⟩ := ok_of_bind h
    exact ⟨t₁, content, puts_of_createFile hcreate, puts_of_writeFile h⟩
  · cases h
  · cases h

/-- What stood at the source of a copy stands at its target. -/
theorem standing?_of_copyFile {source target : String}
    (hsource : t.standing? source = some (.file content))
    (hapart : ∀ place, t.locate source = .ok place → t.locate target ≠ .ok place)
    (h : t.copyFile source target = .ok t') : t'.standing? target = some (.file content) := by
  obtain ⟨place, hplace, hentry⟩ := locate_of_standing? hsource
  simp only [copyFile, hplace, bind, Except.bind, hentry] at h
  obtain ⟨t₁, hcreate, h⟩ := ok_of_bind h
  have hkept : t₁.get? place = some (.file content) := by
    rw [← hentry]
    refine (puts_of_createFile hcreate).confined.elsewhere place fun path hpath => ?_
    rw [List.mem_singleton.mp hpath]
    exact hapart place hplace
  simp only [contentAt, hkept] at h
  exact (puts_of_writeFile h).standing?

theorem exists_writeFile {old : ByteArray} (h : t.standing? path = some (.file old))
    (content : ByteArray) : ∃ t', t.writeFile path content = .ok t' := by
  obtain ⟨place, hplace, hentry⟩ := locate_of_standing? h
  refine ⟨t.put place (.file content), ?_⟩
  simp only [writeFile, hplace, bind, Except.bind, contentAt, hentry]
  rfl

/-- A file can be copied over another one. -/
theorem exists_copyFile {source target : String} {old : ByteArray}
    (hsource : t.standing? source = some (.file content))
    (htarget : t.standing? target = some (.file old))
    (hapart : ∀ place, t.locate source = .ok place → t.locate target ≠ .ok place) :
    ∃ t', t.copyFile source target = .ok t' := by
  obtain ⟨place, hplace, hentry⟩ := locate_of_standing? hsource
  obtain ⟨goal, hgoal, htaken⟩ := locate_of_standing? htarget
  have hcreate : t.createFile target = .ok (t.put goal (.file .empty)) := by
    simp only [createFile, hgoal, bind, Except.bind, htaken]
  have hne : place ≠ goal := by
    rintro rfl
    exact hapart place hplace hgoal
  obtain ⟨t', hwrite⟩ := exists_writeFile (puts_of_createFile hcreate).standing? content
  refine ⟨t', ?_⟩
  simp only [copyFile, hplace, bind, Except.bind, hentry, hcreate, contentAt,
    get?_put_of_ne t hne, hwrite]

/-- A file that is moved stands at its new path with its content. -/
theorem renameFile_ok {source target : String}
    (hsource : t.standing? source = some (.file content))
    (h : t.renameFile source target = .ok t') :
    Confined [source, target] t t' ∧ t'.standing? target = some (.file content) := by
  obtain ⟨place, hplace, hentry⟩ := locate_of_standing? hsource
  obtain ⟨place', hplace', h⟩ := ok_of_bind h
  rw [hplace] at hplace'
  cases hplace'
  obtain ⟨content', hcontent, h⟩ := ok_of_bind h
  rw [contentAt, hentry] at hcontent
  cases hcontent
  obtain ⟨goal, hgoal, h⟩ := ok_of_bind h
  split at h
  · next heq =>
    cases h
    subst heq
    exact ⟨.refl _ t, by rw [standing?_of_locate hgoal, hentry]⟩
  · next hne =>
    split at h
    · cases h
    · next hfree =>
      cases h
      have herased := sameDirectories_erase hentry
      have hfree' : (t.erase place).get? goal ≠ some .directory := fun hdirectory =>
        hfree ((herased goal).mpr hdirectory)
      have hdirectories := herased.trans (sameDirectories_put hfree' content)
      refine ⟨⟨hdirectories, fun other hother => ?_⟩, ?_⟩
      · have hsource : other ≠ place := by
          rintro rfl
          exact hother source List.mem_cons_self hplace
        have htarget : other ≠ goal := by
          rintro rfl
          exact hother target (List.mem_cons_of_mem _ List.mem_cons_self) hgoal
        rw [get?_put_of_ne _ htarget, get?_erase_of_ne t hsource]
      · rw [standing?_of_locate (hdirectories.locate hgoal), get?_put_file hfree']

/-! ## Creating directories -/

theorem keepsDirectories_put (h : t.get? place = none) :
    t.KeepsDirectories (t.put place .directory) := by
  intro goal hgoal
  have hne : goal ≠ place := by
    rintro rfl
    rw [h] at hgoal
    cases hgoal
  rwa [get?_put_of_ne t hne]

theorem contains_of_createDirectory (h : t.createDirectory path = .ok t') :
    t'.contains path = true := by
  obtain ⟨place, hplace, h⟩ := ok_of_bind h
  split at h
  · cases h
  · next hfree =>
    cases h
    have hentry : (t.put place .directory).get? place = some .directory :=
      get?_put_self t _ fun hroot => by
        rw [get?, if_pos hroot] at hfree
        cases hfree
    obtain ⟨hfold, hguards⟩ := follow_ok.mp ((keepsDirectories_put hfree).follow hplace)
    -- The slashes at the end of the path only ask for the directory that is there now.
    obtain ⟨tail, htail, hchars⟩ := Path.exists_dropSlashes path.toList
    obtain ⟨rest, hrest, hidle, -⟩ := htail.exists_cut (Path.dropSlashes path.toList)
    have hpieces : Path.pieces path = Path.directoryPieces path ++ rest := by
      rw [← hchars] at hrest
      rw [Path.directoryPieces, Path.pieces, Path.pieces, String.toList_ofList]
      exact hrest
    have hlocate : (t.put place .directory).locate path = .ok place := by
      refine follow_ok.mpr ⟨?_, hguards⟩
      rw [hpieces, List.foldlM_append, hfold]
      exact foldlM_of_idle hidle hentry
    rw [contains_eq, standing?_of_locate hlocate, hentry]
    rfl

theorem contains_of_isDirectory (h : t.isDirectory path = true) : t.contains path = true := by
  unfold isDirectory at h
  unfold contains
  split at h
  · next place hplace =>
    cases hentry : t.get? place with
    | none =>
      rw [hentry] at h
      cases h
    | some entry => rfl
  · cases h

/-- A directory that is there or has been created has its path. -/
theorem contains_of_ensureDirectory (h : t.ensureDirectory path = .ok t') :
    t'.contains path = true := by
  unfold ensureDirectory at h
  split at h
  · next hcreate =>
    cases h
    exact contains_of_createDirectory hcreate
  · split at h
    · next hdirectory =>
      cases h
      exact contains_of_isDirectory hdirectory
    · cases h

/-- Directories that have been created are there. -/
theorem contains_of_createDirectories (hpath : path ≠ "")
    (h : t.createDirectories path = (.ok (), t')) : t'.contains path = true := by
  rw [createDirectories, Path.lineage, if_neg hpath, ensureLineage] at h
  split at h
  · split at h
    · exact contains_of_ensureDirectory (ok_of_settle h)
    · next hrefused => exact absurd h (hrefused _)
  · exact contains_of_ensureDirectory (ok_of_settle h)

end ForwardedIp.FileTree
