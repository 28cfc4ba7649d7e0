import ForwardedIp.Proofs.FileEffects
import ForwardedIp.Proofs.LedgerOpening
/-!
# Interrupted writes

A write of the ledger may stop anywhere: between two of its steps, or within one, with any bytes in
the file it was filling. The steps before the last one touch the temporary file and the backup
only, so the ledger file still holds the old records; the last one puts the new ones in its place.
-/
namespace ForwardedIp

namespace FileTree

/-- What an effect may leave behind when it does not come to its end. A write and a copy leave
their target with any bytes; the other effects happen at once. -/
inductive Torn : FileEffect → FileTree → FileTree → Prop where
  | untouched (effect : FileEffect) (t : FileTree) : Torn effect t t
  | write {t t' : FileTree} {path : String} {part : ByteArray} (content : ByteArray)
      (h : t.writeFile path part = .ok t') : Torn (.write path content) t t'
  | copy {t t₁ t' : FileTree} {target : String} {part : ByteArray} (source : String)
      (hcreate : t.createFile target = .ok t₁) (hwrite : t₁.writeFile target part = .ok t') :
      Torn (.copy source target) t t'

/-- A file system that keeps a tree. What is read is read from the tree, what succeeds has its
effect on it, and what fails may have torn it. -/
class KeepsTree (F : Type) [FileSystem F] where
  tree : F → FileTree
  contains_eq (files : F) (path : String) :
    FileSystem.contains files path = (tree files).contains path
  read_eq (files : F) (path : String) : FileSystem.read files path = (tree files).content path
  perform_ok {effect : FileEffect} {files files' : F} :
    FileSystem.perform effect files = (.ok (), files') →
      FileSystem.perform effect (tree files) = (.ok (), tree files')
  perform_error {effect : FileEffect} {files files' : F} {fault : IoFault} :
    (∀ dir, effect ≠ .createDirectories dir) →
      FileSystem.perform effect files = (.error fault, files') →
        Torn effect (tree files) (tree files')

theorem eq_of_refused {effect : FileEffect} {t t' : FileTree} {fault : IoFault}
    (heffect : ∀ dir, effect ≠ .createDirectories dir)
    (h : FileSystem.perform effect t = (.error fault, t')) : t' = t := by
  cases effect with
  | createDirectories dir => exact absurd rfl (heffect dir)
  | create => exact eq_of_settle h
  | write => exact eq_of_settle h
  | sync => exact (congrArg Prod.snd h).symm
  | copy => exact eq_of_settle h
  | rename => exact eq_of_settle h

instance : KeepsTree FileTree where
  tree t := t
  contains_eq _ _ := rfl
  read_eq _ _ := rfl
  perform_ok h := h
  perform_error heffect h := by
    rw [eq_of_refused heffect h]
    exact .untouched _ _

/-- Steps of writing are taken until something stops them: a crash, or a failure that counts. One
that does not count may have torn its effect. The mark tells whether all steps were taken. -/
inductive Stops : List FileLedger.WriteStep → FileTree → Bool → FileTree → Prop where
  | finished (t : FileTree) : Stops [] t true t
  | torn {step : FileLedger.WriteStep} {t t' : FileTree} (rest : List FileLedger.WriteStep)
      (h : Torn step.effect t t') : Stops (step :: rest) t false t'
  | done {step : FileLedger.WriteStep} {rest : List FileLedger.WriteStep} {t t₁ t' : FileTree}
      {all : Bool} (h : FileSystem.perform step.effect t = (.ok (), t₁))
      (hrest : Stops rest t₁ all t') : Stops (step :: rest) t all t'
  | ignored {step : FileLedger.WriteStep} {rest : List FileLedger.WriteStep} {t t₁ t' : FileTree}
      {all : Bool} (hstep : step.failure = none) (h : Torn step.effect t t₁)
      (hrest : Stops rest t₁ all t') : Stops (step :: rest) t all t'

end FileTree

namespace FileLedger
open FileTree ForwardedIp.Path
variable {t t' t₁ : FileTree} {path text : String} {name : List Char} {all : Bool}
  {records : List (String × LedgerRecord)}

theorem isExtension_tmp : IsExtension "tmp" := by
  have hchars : "tmp".toList = ['t', 'm', 'p'] := rfl
  constructor <;> simp [hchars]

theorem isExtension_backup : IsExtension "backup" := by
  have hchars : "backup".toList = ['b', 'a', 'c', 'k', 'u', 'p'] := rfl
  constructor <;> simp [hchars]

/-- A path without a file name has no extension to replace. -/
theorem temporary_of_unnamed (h : fileName? path = none) : temporary path = path := by
  simp only [temporary, withExtension, h]

theorem backup_ne_temporary (hname : fileName? path = some name) :
    backup path ≠ temporary path := by
  intro heq
  have hbackup := (named_withExtension hname isExtension_backup).chars
  have htemporary := (named_withExtension hname isExtension_tmp).chars
  rw [show withExtension path "backup" = withExtension path "tmp" from heq, htemporary] at hbackup
  simp only [List.append_nil, List.append_cancel_left_eq] at hbackup
  revert hbackup
  decide

/-- What is loaded is what stands at the path. -/
theorem load_eq (t : FileTree) (path : String) : load t path =
    match t.standing? path with
    | none => .ok []
    | some (.file content) => decode content
    | some .directory => .error (.file (.io .isADirectory)) := by
  cases hentry : t.standing? path with
  | none => exact load_of_absent ((contains_eq t path).trans (by rw [hentry]; rfl))
  | some entry =>
    have hcontains : t.contains path = true := (contains_eq t path).trans (by rw [hentry]; rfl)
    cases entry with
    | file content => exact load_of_read hcontains (content_of_standing? hentry)
    | directory =>
      have hread : FileSystem.read t path = .error .isADirectory := content_directory hentry
      have hpresent : FileSystem.contains t path = true := hcontains
      simp only [load, hpresent, if_true, FileSystem.readText, hread]

/-- The directory of a ledger is not missing if a path in it leads somewhere. -/
theorem missingDirectory?_of_locate {other : String} {other_name tail : List Char}
    {place : List String} (hother : Named other (lead path) other_name tail)
    (h : t.locate other = .ok place) : missingDirectory? t path = none := by
  unfold missingDirectory?
  cases hparent : parent? path with
  | none => rfl
  | some dir =>
    by_cases hdir : dir = ""
    · simp [hdir]
    · have hcontains : FileSystem.contains t dir = true := contains_parent hother h hparent hdir
      simp [hcontains]

/-! ## How far a write has come -/

/-- The temporary file holds the new text, and nothing but it and the backup has changed. -/
structure Staged (path text : String) (t t₁ : FileTree) : Prop where
  confined : Confined [temporary path, backup path] t t₁
  staged : t₁.standing? (temporary path) = some (.file text.toByteArray)

/-- How far a write of the ledger has come. -/
inductive Reaches (path text : String) (t : FileTree) : Bool → FileTree → Prop where
  /-- Nothing has been done. -/
  | nothing : Reaches path text t false t
  /-- The temporary file has been opened, and the ledger file is as it was. -/
  | pending {t' : FileTree} {place : List String}
      (hplace : t.locate (temporary path) = .ok place)
      (hconfined : Confined [temporary path, backup path] t t') : Reaches path text t false t'
  /-- The new text has taken the place of the old one. -/
  | replaced {t₁ t' : FileTree} (hstaged : Staged path text t t₁)
      (hrename : t₁.renameFile (temporary path) path = .ok t') : Reaches path text t true t'

theorem staged_of_steps {t₂ : FileTree} (hcreate : t.createFile (temporary path) = .ok t₁)
    (hwrite : t₁.writeFile (temporary path) text.toByteArray = .ok t₂) :
    Staged path text t t₂ where
  confined := ((puts_of_createFile hcreate).confined.trans
    (puts_of_writeFile hwrite).confined).mono (by simp)
  staged := (puts_of_writeFile hwrite).standing?

theorem eq_of_sync {result : Except IoFault Unit}
    (h : FileSystem.perform (.sync path) t = (result, t')) : t' = t :=
  (congrArg Prod.snd h).symm

theorem confined_of_torn_copy {source target : String} (h : Torn (.copy source target) t t') :
    Confined [target] t t' := by
  cases h with
  | untouched => exact .refl _ t
  | copy _ hcreate hwrite =>
    exact (puts_of_createFile hcreate).confined.trans (puts_of_writeFile hwrite).confined

theorem confined_of_copyFile {source target : String} (h : t.copyFile source target = .ok t') :
    Confined [target] t t' := by
  obtain ⟨t₁, content, hcreate, hwrite⟩ := puts_of_copyFile h
  exact hcreate.confined.trans hwrite.confined

/-- Copying the ledger file to the backup leaves the temporary file as it is. -/
theorem Staged.copied (hname : fileName? path = some name) {t₂ : FileTree}
    (h : Staged path text t t₁) (hcopy : Confined [backup path] t₁ t₂) :
    Staged path text t t₂ where
  confined := h.confined.trans (hcopy.mono (by simp))
  staged := by
    rw [← h.staged]
    refine hcopy.standing?_eq fun other hother place hplace hplace' => ?_
    rw [List.mem_singleton.mp hother] at hplace
    exact directory_of_locate_eq (named_withExtension hname isExtension_tmp)
      (named_withExtension hname isExtension_backup) (backup_ne_temporary hname) hplace' hplace

/-- With the new text in the temporary file only the move is left. -/
theorem Staged.reaches (h : Staged path text t t₁) {failure : Option (String × String)}
    (hfailure : failure ≠ none)
    (hstops : Stops [⟨.rename (temporary path) path, failure⟩] t₁ all t') :
    Reaches path text t all t' := by
  cases hstops with
  | torn _ htorn =>
    cases htorn
    obtain ⟨place, hplace, -⟩ := locate_of_standing? h.staged
    exact .pending (h.confined.directories.symm.locate hplace) h.confined
  | ignored hnone => exact absurd hnone hfailure
  | done hrename hrest =>
    cases hrest
    exact .replaced h (ok_of_settle hrename)

/-- With the new text in the temporary file the copy does not matter, however it goes. -/
theorem Staged.reaches_of_copy (hname : fileName? path = some name) (h : Staged path text t t₁)
    {failure : Option (String × String)} (hfailure : failure ≠ none)
    (hstops : Stops [⟨.copy path (backup path), none⟩, ⟨.rename (temporary path) path, failure⟩]
      t₁ all t') : Reaches path text t all t' := by
  cases hstops with
  | torn _ htorn =>
    obtain ⟨place, hplace, -⟩ := locate_of_standing? h.staged
    exact .pending (h.confined.directories.symm.locate hplace)
      (h.copied hname (confined_of_torn_copy htorn)).confined
  | ignored _ htorn hrest =>
    exact (h.copied hname (confined_of_torn_copy htorn)).reaches hfailure hrest
  | done hcopy hrest =>
    have hcopied := confined_of_copyFile (ok_of_settle hcopy)
    exact (h.copied hname hcopied).reaches hfailure hrest

/-- Wherever a write stops, the ledger file is as it was or holds the new text. -/
theorem reaches_of_stops (hname : fileName? path = some name)
    (h : Stops (writeSteps path text) t all t') : Reaches path text t all t' := by
  have htemporary : [temporary path] ⊆ [temporary path, backup path] := by simp
  -- Step by step: the temporary file is created, filled and synced before the copy.
  cases h with
  | torn _ htorn =>
    cases htorn
    exact .nothing
  | ignored hnone => cases hnone
  | done hcreate h =>
    have hcreated := puts_of_createFile (ok_of_settle hcreate)
    have hconfined := hcreated.confined.mono htemporary
    obtain ⟨place, hplace, -⟩ := hcreated
    cases h with
    | torn _ htorn =>
      cases htorn with
      | untouched => exact .pending hplace hconfined
      | write _ hwrite =>
        have hwritten := (puts_of_writeFile hwrite).confined.mono htemporary
        exact .pending hplace (hconfined.trans hwritten)
    | ignored hnone => cases hnone
    | done hwrite h =>
      have hstaged := staged_of_steps (ok_of_settle hcreate) (ok_of_settle hwrite)
      cases h with
      | torn _ htorn =>
        cases htorn
        exact .pending hplace hstaged.confined
      | ignored hnone => cases hnone
      | done hsync h =>
        cases eq_of_sync hsync
        exact hstaged.reaches_of_copy hname (by simp) h

/-! ## Writes that nothing interrupts -/

section Runs
variable {F : Type} [FileSystem F] {files files' : F} {step : WriteStep} {rest : List WriteStep}

theorem runSteps_ok (h : FileSystem.perform step.effect files = (.ok (), files')) :
    (runSteps (step :: rest)).run files = (runSteps rest).run files' := by
  rw [runSteps, StateT.run_bind]
  simp only [StateT.run, h]
  rfl

theorem runSteps_ignored {fault : IoFault}
    (h : FileSystem.perform step.effect files = (.error fault, files'))
    (hnone : step.failure = none) :
    (runSteps (step :: rest)).run files = (runSteps rest).run files' := by
  rw [runSteps, StateT.run_bind]
  simp only [StateT.run, h, hnone]
  rfl

theorem runSteps_refused {fault : IoFault} {action path : String}
    (h : FileSystem.perform step.effect files = (.error fault, files'))
    (hsome : step.failure = some (action, path)) :
    (runSteps (step :: rest)).run files =
      (.error (ioFault action path fault.message), files') := by
  rw [runSteps, StateT.run_bind]
  simp only [StateT.run, h, hsome]
  rfl

/-- Saving a ledger takes the steps of writing its text; memory is clean after all of them. -/
theorem save_of_runSteps {l : FileLedger} {result : Except Fault Unit}
    (h : (runSteps (writeSteps l.path l.text)).run files = (result, files')) :
    l.save.run files =
      ((result, if result.isOk then { l with dirty := false } else l), files') := by
  rw [save, StateT.run_bind, h]
  cases result <;> rfl

end Runs

section Stops
variable {F : Type} [FileSystem F] [KeepsTree F] {files files' : F}

/-- A run of steps is one way to take them: up to the end, or up to a failure that counts. -/
theorem stops_of_runSteps {steps : List WriteStep}
    (hsteps : ∀ step ∈ steps, ∀ dir, step.effect ≠ .createDirectories dir)
    {result : Except Fault Unit} (h : (runSteps steps).run files = (result, files')) :
    Stops steps (KeepsTree.tree files) result.isOk (KeepsTree.tree files') := by
  induction steps generalizing files with
  | nil =>
    cases h
    exact .finished _
  | cons step rest ih =>
    obtain ⟨hstep, hrest⟩ := List.forall_mem_cons.mp hsteps
    cases hperform : FileSystem.perform step.effect files with
    | mk outcome files₁ =>
      cases outcome with
      | ok =>
        rw [runSteps_ok hperform] at h
        exact .done (KeepsTree.perform_ok hperform) (ih hrest h)
      | error fault =>
        have htorn := KeepsTree.perform_error hstep hperform
        cases hfailure : step.failure with
        | none =>
          rw [runSteps_ignored hperform hfailure] at h
          exact .ignored hfailure htorn (ih hrest h)
        | some failure =>
          rw [runSteps_refused hperform hfailure] at h
          cases h
          exact .torn rest htorn

theorem effect_ne_of_mem_writeSteps {step : WriteStep} (h : step ∈ writeSteps path text)
    (dir : String) : step.effect ≠ .createDirectories dir := by
  simp only [writeSteps, List.mem_cons, List.not_mem_nil, or_false] at h
  rcases h with rfl | rfl | rfl | rfl | rfl <;> simp

theorem stops_of_save {l l' : FileLedger} {result : Except Fault Unit}
    (h : l.save.run files = ((result, l'), files')) :
    Stops (writeSteps l.path l.text) (KeepsTree.tree files) result.isOk (KeepsTree.tree files') ∧
      l' = if result.isOk then { l with dirty := false } else l := by
  cases hrun : (runSteps (writeSteps l.path l.text)).run files with
  | mk outcome files₁ =>
    rw [save_of_runSteps hrun] at h
    cases h
    exact ⟨stops_of_runSteps (fun step hstep => effect_ne_of_mem_writeSteps hstep) hrun, rfl⟩

end Stops

/-! ## What is opened after that -/

/-- A file stands at a path, and some records are decoded from it. -/
def Holds (t : FileTree) (path : String) (records : List (String × LedgerRecord)) : Prop :=
  ∃ content, t.standing? path = some (.file content) ∧ decode content = .ok records

theorem Holds.load (h : Holds t path records) : load t path = .ok records := by
  obtain ⟨content, hentry, hdecode⟩ := h
  rw [load_eq, hentry]
  exact hdecode

theorem missingDirectory?_of_standing? {entry : FileEntry} (hname : fileName? path = some name)
    (h : t.standing? path = some entry) : missingDirectory? t path = none := by
  obtain ⟨tail, hnamed⟩ := exists_named hname
  obtain ⟨place, hplace, -⟩ := locate_of_standing? h
  exact missingDirectory?_of_locate hnamed hplace

theorem Holds.directory (hname : fileName? path = some name) (h : Holds t path records) :
    missingDirectory? t path = none := by
  obtain ⟨content, hentry, -⟩ := h
  exact missingDirectory?_of_standing? hname hentry

/-- A write that has taken all its steps leaves the records written in the file. -/
theorem holds_of_finished (hname : fileName? path = some name)
    (hsound : LedgerDocument.Sound records)
    (h : Stops (writeSteps path (LedgerDocument.ofRecords records).text) t true t') :
    Holds t' path records := by
  cases reaches_of_stops hname h with
  | replaced hstaged hrename =>
    exact ⟨_, (renameFile_ok hstaged.staged hrename).2, decode_text hsound⟩

/-- After a write that has taken all its steps the ledger opens with the records written. -/
theorem openAt_of_finished (hname : fileName? path = some name)
    (hsound : LedgerDocument.Sound records)
    (h : Stops (writeSteps path (LedgerDocument.ofRecords records).text) t true t') :
    missingDirectory? t' path = none ∧ load t' path = .ok records := by
  have hholds := holds_of_finished hname hsound h
  exact ⟨hholds.directory hname, hholds.load⟩

theorem exists_fileName?_of_ne (h : temporary path ≠ path) :
    ∃ name, fileName? path = some name := by
  cases hname : fileName? path with
  | some name => exact ⟨name, rfl⟩
  | none => exact absurd (temporary_of_unnamed hname) h

/-- As long as nothing but the temporary file and the backup changes, the ledger file is as it
was. -/
theorem standing?_of_confined (htemporary : temporary path ≠ path) (hbackup : backup path ≠ path)
    (h : Confined [temporary path, backup path] t t') : t'.standing? path = t.standing? path := by
  obtain ⟨name, hname⟩ := exists_fileName?_of_ne htemporary
  obtain ⟨tail, hnamed⟩ := exists_named hname
  refine h.standing?_eq fun other hother place hplace hplace' => ?_
  rcases List.mem_cons.mp hother with rfl | hother
  · exact directory_of_locate_eq hnamed (named_withExtension hname isExtension_tmp) htemporary
      hplace' hplace
  · rw [List.mem_singleton.mp hother] at hplace
    exact directory_of_locate_eq hnamed (named_withExtension hname isExtension_backup) hbackup
      hplace' hplace

theorem load_of_confined (htemporary : temporary path ≠ path) (hbackup : backup path ≠ path)
    (h : Confined [temporary path, backup path] t t') : load t' path = load t path := by
  rw [load_eq, load_eq, standing?_of_confined htemporary hbackup h]

theorem sound_change {l l' : FileLedger} {now : Timestamp} {key : String} {ips : List String}
    (hsound : LedgerDocument.Sound l.records) (hnow : now.Valid)
    (hchange : l' = l.put now key ips ∨ l' = l.erase key) :
    l'.path = l.path ∧ LedgerDocument.Sound l'.records := by
  rcases hchange with rfl | rfl
  · exact ⟨rfl, hsound.put key hnow⟩
  · exact ⟨rfl, hsound.drop key⟩

/-- A write that stops anywhere leaves a ledger that opens as if it had not begun or with all it
was to write, and with that once the file has been moved. As if it had not begun means with the
records loaded before, unless the directory was gone. -/
theorem interrupted_write_atomic {l l' : FileLedger} {now : Timestamp} {key : String}
    {ips : List String} (htemporary : temporary l.path ≠ l.path)
    (hbackup : backup l.path ≠ l.path) (hload : load t l.path = .ok records)
    (hsound : LedgerDocument.Sound l.records) (hnow : now.Valid)
    (hchange : l' = l.put now key ips ∨ l' = l.erase key)
    (hstops : Stops (writeSteps l'.path l'.text) t all t') :
    let opened := fun t : FileTree => ((openAt l.path).run t).1
    (opened t' = opened t ∨ opened t' = .ok ⟨l.path, l'.records, false⟩) ∧
      (all = true → opened t' = .ok ⟨l.path, l'.records, false⟩) ∧
      (missingDirectory? t l.path = none → opened t = .ok ⟨l.path, records, false⟩) := by
  intro opened
  obtain ⟨name, hname⟩ := exists_fileName?_of_ne htemporary
  obtain ⟨hpath, hsound'⟩ := sound_change hsound hnow hchange
  rw [hpath] at hstops
  have hopened (hdir : missingDirectory? t l.path = none) :
      opened t = .ok ⟨l.path, records, false⟩ := congrArg Prod.fst (openAt_of_load hdir hload)
  have hfinished (hall : all = true) : opened t' = .ok ⟨l.path, l'.records, false⟩ := by
    subst hall
    obtain ⟨hdir, hload'⟩ := openAt_of_finished hname hsound' hstops
    exact congrArg Prod.fst (openAt_of_load hdir hload')
  refine ⟨?_, hfinished, hopened⟩
  cases reaches_of_stops hname hstops with
  | nothing => exact .inl rfl
  | replaced => exact .inr (hfinished rfl)
  | pending hplace hconfined =>
    -- The temporary file was reached, so the directory of both is there, before and after.
    have htemp := named_withExtension hname isExtension_tmp
    have hdir := missingDirectory?_of_locate htemp hplace
    have hdir' := missingDirectory?_of_locate htemp (hconfined.directories.locate hplace)
    have hload' := (load_of_confined htemporary hbackup hconfined).trans hload
    left
    rw [hopened hdir]
    exact congrArg Prod.fst (openAt_of_load hdir' hload')

/-- A backup that breaks off does not keep the new records from their place. -/
theorem torn_backup_harmless :
    let l : FileLedger := ⟨"ledger.json", [("02:00:00:00:00:0a", ⟨["10.0.0.5"], ⟨0, 0, 0⟩⟩)], false⟩
    let l' := l.put ⟨0, 0, 0⟩ "02:00:00:00:00:0a" ["10.0.0.6"]
    let t : FileTree := ⟨[(["ledger.json"], .file l.text.toByteArray)]⟩
    let t' : FileTree := ⟨[(["ledger.json"], .file l'.text.toByteArray),
      (["ledger.backup"], .file "\x7b".toByteArray)]⟩
    temporary l.path ≠ l.path ∧ backup l.path ≠ l.path ∧ load t l.path = .ok l.records ∧
      Stops (writeSteps l'.path l'.text) t true t' ∧
      ((openAt l.path).run t').1 = .ok ⟨l.path, l'.records, false⟩ := by
  intro l l' t t'
  have htemporary : temporary l.path ≠ l.path := by decide
  have hbackup : backup l.path ≠ l.path := by decide
  have hsound : LedgerDocument.Sound l.records :=
    LedgerDocument.sound_nil.put "02:00:00:00:00:0a" Timestamp.valid_epoch
  have hload : load t l.path = .ok l.records := by
    have hread (content : ByteArray) :
        load (⟨[(["ledger.json"], .file content)]⟩ : FileTree) "ledger.json" = decode content :=
      load_of_read rfl rfl
    exact (hread _).trans (decode_text hsound)
  have hstops : Stops (writeSteps l'.path l'.text) t true t' := by
    have hsteps (old new : ByteArray) (text : String) (htext : text.toByteArray = new) :
        Stops (writeSteps "ledger.json" text) ⟨[(["ledger.json"], .file old)]⟩ true
          ⟨[(["ledger.json"], .file new), (["ledger.backup"], .file "\x7b".toByteArray)]⟩ := by
      subst htext
      exact .done rfl (.done rfl (.done rfl (.ignored rfl (.copy _ rfl rfl)
        (.done rfl (.finished _)))))
    exact hsteps _ _ l'.text rfl
  exact ⟨htemporary, hbackup, hload, hstops,
    (interrupted_write_atomic htemporary hbackup hload hsound Timestamp.valid_epoch (.inl rfl)
      hstops).2.1 rfl⟩

end FileLedger
end ForwardedIp
