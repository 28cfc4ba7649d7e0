import ForwardedIp.Proofs.FixedFaults
import ForwardedIp.Proofs.LedgerDrift
/-!
# Ledger files on which the same fails all the time

Whether a ledger file can be written depends on the directories around it and on what stands in its
place, not on the text. A write that goes through changes no directory, and one that is refused
leaves at most the temporary file behind. So the next write is answered as the last one was, and a
ledger in a file tree is a ledger whose failures are fixed.
-/
namespace ForwardedIp

namespace FileTree
variable {t t' : FileTree} {path other : String} {place : List String} {content old : ByteArray}

/-- What comes of putting a file at a path: the path must lead somewhere, and not to a directory. -/
def placing (t : FileTree) (path : String) : Except IoFault Unit := do
  let place ← t.locate path
  match t.get? place with
  | some .directory => .error .isADirectory
  | _ => .ok ()

theorem placing_ok : t.placing path = .ok () ↔
    ∃ place, t.locate path = .ok place ∧ t.get? place ≠ some .directory := by
  constructor
  · intro h
    obtain ⟨place, hplace, h⟩ := ok_of_bind h
    refine ⟨place, hplace, fun hdirectory => ?_⟩
    rw [hdirectory] at h
    cases h
  · rintro ⟨place, hplace, hentry⟩
    simp only [placing, hplace, bind, Except.bind]

theorem SameDirectories.placing (h : t.SameDirectories t') (hplacing : t.placing path = .ok ()) :
    t'.placing path = .ok () := by
  obtain ⟨place, hplace, hentry⟩ := placing_ok.mp hplacing
  exact placing_ok.mpr ⟨place, h.locate hplace, fun hdirectory => hentry ((h place).mpr hdirectory)⟩

theorem Puts.placing (h : Puts path content t t') : t.placing path = .ok () := by
  obtain ⟨place, hplace, hentry, -⟩ := h
  exact placing_ok.mpr ⟨place, hplace, hentry⟩

theorem placing_of_standing? (h : t.standing? path = some (.file content)) :
    t.placing path = .ok () := by
  obtain ⟨place, hplace, hentry⟩ := locate_of_standing? h
  exact placing_ok.mpr ⟨place, hplace, by simp [hentry]⟩

theorem exists_createFile (h : t.placing path = .ok ()) : ∃ t', t.createFile path = .ok t' := by
  obtain ⟨place, hplace, hentry⟩ := placing_ok.mp h
  refine ⟨t.put place (.file .empty), ?_⟩
  simp only [createFile, hplace, bind, Except.bind]

/-- What is copied is a file. -/
theorem placing_of_copyFile {source target : String} (h : t.copyFile source target = .ok t') :
    t.placing source = .ok () := by
  obtain ⟨place, hplace, h⟩ := ok_of_bind h
  split at h
  · next hentry => exact placing_ok.mpr ⟨place, hplace, by simp [hentry]⟩
  · cases h
  · cases h

/-- A file can be moved to where a file can be put. -/
theorem renameFile_answer {source target : String} (h : t.standing? source = some (.file content)) :
    (t.renameFile source target).map (fun _ => ()) = t.placing target := by
  obtain ⟨place, hplace, hentry⟩ := locate_of_standing? h
  simp only [renameFile, FileTree.placing, hplace, bind, Except.bind, contentAt, hentry]
  cases t.locate target with
  | error fault => rfl
  | ok goal =>
    simp only
    by_cases hsame : place = goal
    · subst hsame
      simp only [hentry]
      rfl
    · rw [if_neg hsame]
      cases hgoal : t.get? goal with
      | none => rfl
      | some entry => cases entry <;> rfl

/-- A file stays one when another one is put somewhere. -/
theorem Puts.keeps (h : Puts path content t t') (hother : t.standing? other = some (.file old)) :
    ∃ content', t'.standing? other = some (.file content') := by
  have hdirectories := h.confined.directories
  obtain ⟨place, hplace, hentry, rfl⟩ := h
  obtain ⟨goal, hgoal, hfile⟩ := locate_of_standing? hother
  rw [standing?_of_locate (hdirectories.locate hgoal)]
  by_cases hsame : goal = place
  · subst hsame
    exact ⟨content, get?_put_file hentry content⟩
  · exact ⟨old, (get?_put_of_ne t hsame _).trans hfile⟩

/-! ## A file in the place of a file -/

/-- Every path leads where it led when a file gets new content, or is refused for the same
reason. -/
theorem step_put_file (h : t.get? place = some (.file old)) (content : ByteArray) :
    (t.put place (.file content)).step = t.step := by
  funext goal piece
  by_cases hgoal : goal = place
  · subst hgoal
    have hentry : (t.put goal (.file content)).get? goal = some (.file content) :=
      get?_put_file (by simp [h]) content
    simp only [step, hentry, h]
  · simp only [step, get?_put_of_ne t hgoal]

theorem placing_put_file (h : t.get? place = some (.file old)) (content : ByteArray)
    (path : String) : (t.put place (.file content)).placing path = t.placing path := by
  have hlocate : (t.put place (.file content)).locate path = t.locate path := by
    simp only [locate, follow, step_put_file h]
  simp only [placing, hlocate]
  cases t.locate path with
  | error fault => rfl
  | ok goal =>
    by_cases hgoal : goal = place
    · subst hgoal
      have hentry : (t.put goal (.file content)).get? goal = some (.file content) :=
        get?_put_file (by simp [h]) content
      simp only [bind, Except.bind, hentry, h]
    · simp only [bind, Except.bind, get?_put_of_ne t hgoal]

theorem Puts.placing_eq (h : Puts other content t t')
    (hfile : t.standing? other = some (.file old)) (path : String) :
    t'.placing path = t.placing path := by
  obtain ⟨place, hplace, -, rfl⟩ := h
  exact placing_put_file (by rwa [← standing?_of_locate hplace]) content path

end FileTree

namespace FileLedger
open FileTree
variable {t t' t₁ t₂ : FileTree} {path text : String} {result : Except Fault Unit}

/-! ## Writing once more -/

/-- What writing a ledger file comes to, whatever the text. -/
def writing (path : String) (t : FileTree) : Except Fault Unit := do
  let t ← (t.createFile (temporary path)).mapError fun fault =>
    ioFault "create" (temporary path) fault.message
  (t.placing path).mapError fun fault => ioFault "replace" path fault.message

theorem writing_of_createFile (h : t.createFile (temporary path) = .ok t₁) :
    writing path t =
      (t₁.placing path).mapError fun fault => ioFault "replace" path fault.message := by
  rw [writing, h]
  rfl

/-- What a write of a ledger file leaves. The text gets into the temporary file if that can be
opened, and into the ledger file if the temporary file can be moved there. -/
inductive Outcome (path : String) (t : FileTree) : Except Fault Unit → FileTree → Prop where
  | uncreated {fault : IoFault} (h : t.createFile (temporary path) = .error fault) :
      Outcome path t (.error (ioFault "create" (temporary path) fault.message)) t
  | unmoved {t₁ t' : FileTree} {fault : IoFault} {content : ByteArray}
      (hcreate : t.createFile (temporary path) = .ok t₁) (h : t₁.placing path = .error fault)
      (hstaged : t'.standing? (temporary path) = some (.file content))
      (hrefused : t'.placing path = .error fault) :
      Outcome path t (.error (ioFault "replace" path fault.message)) t'
  | moved {t₁ t' : FileTree} (hcreate : t.createFile (temporary path) = .ok t₁)
      (h : t₁.placing path = .ok ()) (hdirectories : t₁.SameDirectories t') :
      Outcome path t (.ok ()) t'

/-- The move is answered as the place of the ledger file is, and keeps the directories. -/
theorem move_cases {content : ByteArray}
    (hstaged : t.standing? (temporary path) = some (.file content))
    (h : (runSteps [⟨.rename (temporary path) path, some ("replace", path)⟩]).run t =
      (result, t')) :
    (∃ fault, t.placing path = .error fault ∧
        result = .error (ioFault "replace" path fault.message) ∧ t' = t) ∨
      (t.placing path = .ok () ∧ result = .ok () ∧ t.SameDirectories t') := by
  have hanswer : (t.renameFile (temporary path) path).map (fun _ => ()) = t.placing path :=
    renameFile_answer hstaged
  cases hrename : t.renameFile (temporary path) path with
  | error fault =>
    have hperform : FileSystem.perform (.rename (temporary path) path) t = (.error fault, t) :=
      congrArg t.settle hrename
    have hrun : (runSteps [⟨.rename (temporary path) path, some ("replace", path)⟩]).run t = _ :=
      runSteps_refused hperform rfl
    rw [hrun] at h
    cases h
    rw [hrename] at hanswer
    exact .inl ⟨fault, hanswer.symm, rfl, rfl⟩
  | ok t₁ =>
    have hperform : FileSystem.perform (.rename (temporary path) path) t = (.ok (), t₁) :=
      congrArg t.settle hrename
    have hrun : (runSteps [⟨.rename (temporary path) path, some ("replace", path)⟩]).run t = _ :=
      runSteps_ok hperform
    rw [hrun] at h
    cases h
    rw [hrename] at hanswer
    exact .inr ⟨hanswer.symm, rfl, (renameFile_ok hstaged hrename).1.directories⟩

/-- Creating, writing and syncing the temporary file leave the copy and the move. -/
theorem runSteps_staged (hcreate : t.createFile (temporary path) = .ok t₁)
    (hwrite : t₁.writeFile (temporary path) text.toByteArray = .ok t₂) :
    (runSteps (writeSteps path text)).run t =
      (runSteps [⟨.copy path (backup path), none⟩,
        ⟨.rename (temporary path) path, some ("replace", path)⟩]).run t₂ := by
  have hsync : FileSystem.perform (.sync (temporary path)) t₂ = (.ok (), t₂) := by
    show ((t₂.content (temporary path)).map fun _ => (), t₂) = _
    rw [content_of_standing? (puts_of_writeFile hwrite).standing?]
    rfl
  calc (runSteps (writeSteps path text)).run t
      = (runSteps (writeSteps path text).tail).run t₁ := runSteps_ok (congrArg t.settle hcreate)
    _ = (runSteps (writeSteps path text).tail.tail).run t₂ :=
        runSteps_ok (congrArg t₁.settle hwrite)
    _ = _ := runSteps_ok hsync

/-- The copy, whether it is made or not, changes nothing for the move. -/
theorem exists_copied {content : ByteArray} {rest : List WriteStep}
    (hstaged : t.standing? (temporary path) = some (.file content)) :
    ∃ t' content', (runSteps (⟨.copy path (backup path), none⟩ :: rest)).run t =
        (runSteps rest).run t' ∧
      t'.standing? (temporary path) = some (.file content') ∧ t.SameDirectories t' ∧
      t'.placing path = t.placing path := by
  cases hcopy : t.copyFile path (backup path) with
  | error fault =>
    have hperform : FileSystem.perform (.copy path (backup path)) t = (.error fault, t) :=
      congrArg t.settle hcopy
    exact ⟨t, content, runSteps_ignored hperform rfl, hstaged, .refl t, rfl⟩
  | ok t' =>
    have hperform : FileSystem.perform (.copy path (backup path)) t = (.ok (), t') :=
      congrArg t.settle hcopy
    have hsame := (confined_of_copyFile hcopy).directories
    -- What could be copied is a file, and can be replaced by one.
    have hfile := placing_of_copyFile hcopy
    obtain ⟨t₁, copied, hemptied, hfilled⟩ := puts_of_copyFile hcopy
    obtain ⟨_, hstaged⟩ := hemptied.keeps hstaged
    obtain ⟨content', hstaged⟩ := hfilled.keeps hstaged
    exact ⟨t', content', runSteps_ok hperform, hstaged, hsame,
      (hsame.placing hfile).trans hfile.symm⟩

theorem outcome_of_runSteps (h : (runSteps (writeSteps path text)).run t = (result, t')) :
    Outcome path t result t' := by
  cases hcreate : t.createFile (temporary path) with
  | error fault =>
    have hperform : FileSystem.perform (.create (temporary path)) t = (.error fault, t) :=
      congrArg t.settle hcreate
    have hrun : (runSteps (writeSteps path text)).run t = _ := runSteps_refused hperform rfl
    rw [hrun] at h
    cases h
    exact .uncreated hcreate
  | ok t₁ =>
    have hcreated := (puts_of_createFile hcreate).standing?
    obtain ⟨t₂, hwrite⟩ := exists_writeFile hcreated text.toByteArray
    have hwritten := puts_of_writeFile hwrite
    obtain ⟨t₃, content, hcopied, hstaged, hsame, hplacing⟩ :=
      exists_copied hwritten.standing?
    rw [runSteps_staged hcreate hwrite, hcopied] at h
    have hplacing : t₁.placing path = t₃.placing path :=
      ((hwritten.placing_eq hcreated path).symm).trans hplacing.symm
    rcases move_cases hstaged h with ⟨fault, hrefused, rfl, rfl⟩ | ⟨hok, rfl, hmoved⟩
    · exact .unmoved hcreate (hplacing.trans hrefused) hstaged hrefused
    · exact .moved hcreate (hplacing.trans hok)
        (hwritten.confined.directories.trans (hsame.trans hmoved))

namespace Outcome

/-- What a write answers does not depend on the text. -/
theorem answer (h : Outcome path t result t') : result = writing path t := by
  cases h with
  | uncreated h =>
    rw [writing, h]
    rfl
  | unmoved hcreate h =>
    rw [writing_of_createFile hcreate, h]
    rfl
  | moved hcreate h =>
    rw [writing_of_createFile hcreate, h]
    rfl

/-- A write leaves the tree so that the next one is answered in the same way. -/
theorem again (h : Outcome path t result t') : writing path t' = writing path t := by
  cases h with
  | uncreated => rfl
  | unmoved hcreate h hstaged hrefused =>
    -- The temporary file is there now, and creating it once more only empties it.
    obtain ⟨t₂, hcreate'⟩ := exists_createFile (placing_of_standing? hstaged)
    have hplacing := (puts_of_createFile hcreate').placing_eq hstaged path
    rw [writing_of_createFile hcreate, writing_of_createFile hcreate', h, hplacing, hrefused]
  | moved hcreate h hdirectories =>
    have hcreated := puts_of_createFile hcreate
    have hsame := hcreated.confined.directories.trans hdirectories
    obtain ⟨t₂, hcreate'⟩ := exists_createFile (hsame.placing hcreated.placing)
    have hplacing : t₂.placing path = .ok () :=
      (puts_of_createFile hcreate').confined.directories.placing (hdirectories.placing h)
    rw [writing_of_createFile hcreate, writing_of_createFile hcreate', h, hplacing]

end Outcome
end FileLedger

namespace FileLedgerSite
variable {F : Type} [FileSystem F] {s s' : FileLedgerSite F} {key : String} {ips : List String}

theorem write_run {result : Except Fault Unit} {files : F}
    (h : (FileLedger.runSteps (FileLedger.writeSteps s.ledger.path
      (s.ledger.put s.now key ips).text)).run s.files = (result, files)) :
    (LedgerStore.write key ips).run s = (result, ⟨files,
      if result.isOk then { s.ledger.put s.now key ips with dirty := false }
        else s.ledger.put s.now key ips, s.now⟩) := by
  have hsave : (s.ledger.put s.now key ips).save s.files = ((result, _), files) :=
    FileLedger.save_of_runSteps h
  show save (s.ledger.put s.now key ips) s = _
  simp only [save, hsave]

/-- A write is seen in memory, also one that is answered by a fault. -/
theorem get?_of_write {a : Except Fault Unit} (h : (LedgerStore.write key ips).run s = (a, s')) :
    s'.ledger.get? = Function.update s.ledger.get? key (some ips) := by
  cases hrun : (FileLedger.runSteps (FileLedger.writeSteps s.ledger.path
      (s.ledger.put s.now key ips).text)).run s.files with
  | mk result files =>
    rw [write_run hrun] at h
    cases h
    rw [← FileLedger.get?_put s.ledger s.now key ips]
    cases a <;> rfl

/-- A ledger file shows what was written last, even if that has not gone through. -/
instance : RecordedLedger (FileLedgerSite F) where
  record s := s.ledger.get?
  read_keeps := by rintro s s' key a ⟨⟩; rfl
  read_ok := by rintro s s' key r ⟨⟩; rfl
  write_ok := by
    intro s s' key ips h
    rw [get?_of_write h, Function.update_self]
  write_error := by
    intro s s' key ips f h
    exact .inr (by rw [get?_of_write h, Function.update_self])
  write_other := by
    intro s s' key other ips a h hne
    rw [get?_of_write h, Function.update_of_ne hne]

/-- What a write of a ledger file in a tree answers, and what the next one will. -/
theorem write_answer (s : FileLedgerSite FileTree) (key : String) (ips : List String) :
    let written := (LedgerStore.write key ips).run s
    written.1 = FileLedger.writing s.ledger.path s.files ∧
      FileLedger.writing written.2.ledger.path written.2.files =
        FileLedger.writing s.ledger.path s.files := by
  cases hrun : (FileLedger.runSteps (FileLedger.writeSteps s.ledger.path
      (s.ledger.put s.now key ips).text)).run s.files with
  | mk result files =>
    have houtcome := FileLedger.outcome_of_runSteps hrun
    rw [write_run hrun]
    refine ⟨houtcome.answer, ?_⟩
    rw [← houtcome.again]
    cases result <;> rfl

/-- What fails for a ledger file in a tree is writing, and that again and again. -/
instance : FixedLedger (FileLedgerSite FileTree) where
  Faults := Except Fault Unit
  faults s := FileLedger.writing s.ledger.path s.files
  lands _ _ := true
  read_faults _ _ := rfl
  write_faults s key ips := (write_answer s key ips).2
  read_congr _ hrecord := congrArg Except.ok hrecord
  write_congr key ips ips' hfaults :=
    (write_answer _ key ips).1.trans (hfaults.trans (write_answer _ key ips').1.symm)
  write_record s key ips := by
    cases h : (LedgerStore.write key ips).run s with
    | mk a s' =>
      show s'.ledger.get? key = some ips
      rw [get?_of_write h, Function.update_self]

end FileLedgerSite
end ForwardedIp
