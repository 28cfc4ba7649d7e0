import ForwardedIp.Proofs.FaultyTree
import ForwardedIp.Proofs.LedgerRestarts
/-!
# Ledgers over which nothing fails

A tree that notes what fails shows after the fact that nothing has failed. Then each write took all
its steps, and the copy among them unless there was nothing to copy: what the ledger file held
before the write is in the backup after it.
-/
namespace ForwardedIp

namespace FileTree

/-- Steps of writing are carried out one after the other. A copy of what is not there is left out
where its failure would not count. -/
inductive Smooth : List FileLedger.WriteStep → FileTree → FileTree → Prop where
  | nil (t : FileTree) : Smooth [] t t
  | done {step : FileLedger.WriteStep} {rest : List FileLedger.WriteStep} {t t₁ t' : FileTree}
      (h : FileSystem.perform step.effect t = (.ok (), t₁)) (hrest : Smooth rest t₁ t') :
      Smooth (step :: rest) t t'
  | idle {step : FileLedger.WriteStep} {rest : List FileLedger.WriteStep} {t t' : FileTree}
      (hstep : step.failure = none) (h : t.isIdleCopy step.effect = true)
      (hrest : Smooth rest t t') : Smooth (step :: rest) t t'

theorem Smooth.stops {steps : List FileLedger.WriteStep} {t t' : FileTree}
    (h : Smooth steps t t') : Stops steps t true t' := by
  induction h with
  | nil t => exact .finished t
  | done h _ ih => exact .done h ih
  | idle hstep _ _ ih => exact .ignored hstep (.untouched _ _) ih

end FileTree

namespace FileLedger
open FileTree ForwardedIp.Path
variable {f f' : FaultyTree} {l : FileLedger} {path text : String} {name : List Char}
  {t t' : FileTree} {content : ByteArray}

/-! ## Runs in which nothing fails -/

theorem smooth_of_runSteps {steps : List WriteStep}
    (hidle : ∀ step ∈ steps, ∀ t : FileTree, t.isIdleCopy step.effect = true → step.failure = none)
    {result : Except Fault Unit} (h : (runSteps steps).run f = (result, f'))
    (hquiet : f'.failures = []) :
    f.failures = [] ∧ result = .ok () ∧ Smooth steps f.tree f'.tree := by
  induction steps generalizing f with
  | nil =>
    cases h
    exact ⟨hquiet, rfl, .nil _⟩
  | cons step rest ih =>
    obtain ⟨hstep, hrest⟩ := List.forall_mem_cons.mp hidle
    cases hperform : FileSystem.perform step.effect f with
    | mk outcome f₁ =>
      cases outcome with
      | ok =>
        rw [runSteps_ok hperform] at h
        obtain ⟨hquiet₁, hok, hsmooth⟩ := ih hrest h
        obtain ⟨hquiet₀, ⟨-, hdone⟩ | ⟨-, fault, hfault, -⟩⟩ :=
          FaultyTree.perform_quiet hperform hquiet₁
        · exact ⟨hquiet₀, hok, .done hdone hsmooth⟩
        · cases hfault
      | error fault =>
        cases hfailure : step.failure with
        | none =>
          rw [runSteps_ignored hperform hfailure] at h
          obtain ⟨hquiet₁, hok, hsmooth⟩ := ih hrest h
          obtain ⟨hquiet₀, ⟨hdone, -⟩ | ⟨hcopy, -, -, hsame⟩⟩ :=
            FaultyTree.perform_quiet hperform hquiet₁
          · cases hdone
          · rw [hsame] at hsmooth
            exact ⟨hquiet₀, hok, .idle hfailure hcopy hsmooth⟩
        | some failure =>
          -- An effect that has been asked for would have been noted.
          rw [runSteps_refused hperform hfailure] at h
          cases h
          obtain ⟨-, ⟨hdone, -⟩ | ⟨hcopy, -⟩⟩ := FaultyTree.perform_quiet hperform hquiet
          · cases hdone
          · rw [hstep f.tree hcopy] at hfailure
            cases hfailure

/-- Steps that go smoothly in a tree do so where no fates are laid down. -/
theorem runSteps_of_smooth {steps : List WriteStep} (h : Smooth steps t t') :
    (runSteps steps).run (⟨t, [], []⟩ : FaultyTree) = (.ok (), ⟨t', [], []⟩) := by
  induction h with
  | nil => rfl
  | done h _ ih => rw [runSteps_ok (FaultyTree.perform_fateless h), ih]
  | @idle step rest t t' hstep hidle _ ih =>
    obtain ⟨fault, hrefused⟩ := perform_idleCopy hidle
    have hperform : FileSystem.perform step.effect (⟨t, [], []⟩ : FaultyTree) =
        (.error fault, ⟨t, [], []⟩) := by
      rw [FaultyTree.perform_idle ⟨t, [], []⟩ hidle, hrefused]
    rw [runSteps_ignored hperform hstep, ih]

theorem failure_of_isIdleCopy {step : WriteStep} (hstep : step ∈ writeSteps path text)
    (t : FileTree) (h : t.isIdleCopy step.effect = true) : step.failure = none := by
  simp only [writeSteps, List.mem_cons, List.not_mem_nil, or_false] at hstep
  rcases hstep with rfl | rfl | rfl | rfl | rfl
  · cases h
  · cases h
  · cases h
  · rfl
  · cases h

/-- Saving without a failure writes the ledger and leaves it clean. -/
theorem saved_quiet (hquiet : (saved l f).2.1.failures = []) :
    f.failures = [] ∧ (saved l f).2.2 = { l with dirty := false } ∧
      Smooth (writeSteps l.path l.text) f.tree (saved l f).2.1.tree := by
  cases hrun : (runSteps (writeSteps l.path l.text)).run f with
  | mk result f' =>
    rw [saved_of_runSteps hrun] at hquiet ⊢
    obtain ⟨hquiet₀, rfl, hsmooth⟩ :=
      smooth_of_runSteps (fun step hstep => failure_of_isIdleCopy hstep) hrun hquiet
    exact ⟨hquiet₀, rfl, hsmooth⟩

theorem recover_quiet (h : (recover path f).2.failures = []) : f.failures = [] := by
  unfold recover at h
  split at h
  · split at h
    · cases hcopy : FileSystem.perform (.copy (backup path) path) f with
      | mk result f' =>
        rw [hcopy] at h
        exact (FaultyTree.perform_quiet hcopy h).1
    · exact h
  · exact h

theorem loadOrRecover_quiet (h : (loadOrRecover path f).2.failures = []) : f.failures = [] := by
  cases hload : load f path with
  | ok records => rwa [loadOrRecover_of_ok hload] at h
  | error fault =>
    cases fault with
    | file fault => rwa [loadOrRecover_of_file hload] at h
    | document defect =>
      rw [loadOrRecover_of_document hload] at h
      dsimp only at h
      exact recover_quiet h

theorem openAt_quiet (h : ((openAt path).run f).2.failures = []) : f.failures = [] := by
  cases hdir : missingDirectory? f path with
  | none =>
    have hprepares : Prepares f path f := by rw [Prepares, hdir]
    rw [openAt_of_prepares hprepares] at h
    exact loadOrRecover_quiet h
  | some dir =>
    cases hcreate : FileSystem.perform (.createDirectories dir) f with
    | mk result f₁ =>
      cases result with
      | ok =>
        have hprepares : Prepares f path f₁ := by
          rw [Prepares, hdir]
          exact hcreate
        rw [openAt_of_prepares hprepares] at h
        exact (FaultyTree.perform_quiet hcreate (loadOrRecover_quiet h)).1
      | error fault =>
        rw [openAt_of_refused hdir hcreate] at h
        exact (FaultyTree.perform_quiet hcreate h).1

/-! ## The backup after a write -/

/-- The path of a ledger and that of its backup lead to one place only if a directory stands
there. -/
theorem directory_of_backup (hname : fileName? path = some name) (hbackup : backup path ≠ path)
    {place : List String} (hpath : t.locate path = .ok place)
    (hplace : t.locate (backup path) = .ok place) : t.get? place = some .directory := by
  obtain ⟨tail, hnamed⟩ := exists_named hname
  exact directory_of_locate_eq hnamed (named_withExtension hname isExtension_backup) hbackup hpath
    hplace

/-- A file at the path of a ledger does not stand at that of its backup. -/
theorem apart_of_standing? (hname : fileName? path = some name) (hbackup : backup path ≠ path)
    (h : t.standing? path = some (.file content)) {place : List String}
    (hpath : t.locate path = .ok place) : t.locate (backup path) ≠ .ok place := by
  intro hplace
  have hdirectory := directory_of_backup hname hbackup hpath hplace
  rw [standing?_of_locate hpath, hdirectory] at h
  cases h

/-- With the new text in the temporary file the last steps leave in the backup what stands at the
path. -/
theorem Staged.behind (hname : fileName? path = some name) (htemporary : temporary path ≠ path)
    (hbackup : backup path ≠ path) {t₁ : FileTree} (h : Staged path text t t₁)
    (hold : t.standing? path = some (.file content)) {failure : Option (String × String)}
    (hsmooth : Smooth [⟨.copy path (backup path), none⟩,
      ⟨.rename (temporary path) path, failure⟩] t₁ t') :
    t'.standing? (backup path) = some (.file content) := by
  have hstanding := (standing?_of_confined htemporary hbackup h.confined).trans hold
  cases hsmooth with
  | idle _ hidle =>
    have habsent := absent_of_isIdleCopy hidle
    rw [contains_eq, hstanding] at habsent
    cases habsent
  | done hcopy hrest =>
    have hcopied := standing?_of_copyFile hstanding
      (fun place => apart_of_standing? hname hbackup hstanding) (ok_of_settle hcopy)
    have hstaged := h.copied hname (confined_of_copyFile (ok_of_settle hcopy))
    cases hrest with
    | idle _ hidle => cases hidle
    | done hrename hnil =>
      cases hnil
      rw [← hcopied]
      -- The move touches the temporary file and the ledger file, and neither is the backup.
      refine (renameFile_ok hstaged.staged (ok_of_settle hrename)).1.standing?_eq
        fun other hother place hplace hplace' => ?_
      rcases List.mem_cons.mp hother with rfl | hother
      · exact directory_of_locate_eq (named_withExtension hname isExtension_backup)
          (named_withExtension hname isExtension_tmp) (backup_ne_temporary hname).symm hplace' hplace
      · rw [List.mem_singleton.mp hother] at hplace
        exact directory_of_backup hname hbackup hplace hplace'

/-- A write that goes smoothly leaves in the backup what it replaces. -/
theorem behind_of_smooth (hname : fileName? path = some name) (htemporary : temporary path ≠ path)
    (hbackup : backup path ≠ path) (h : Smooth (writeSteps path text) t t')
    (hold : t.standing? path = some (.file content)) :
    t'.standing? (backup path) = some (.file content) := by
  cases h with
  | idle _ hidle => cases hidle
  | done hcreate h =>
    cases h with
    | idle _ hidle => cases hidle
    | done hwrite h =>
      have hstaged := staged_of_steps (ok_of_settle hcreate) (ok_of_settle hwrite)
      cases h with
      | idle _ hidle => cases hidle
      | done hsync h =>
        cases eq_of_sync hsync
        exact hstaged.behind hname htemporary hbackup hold h

end FileLedger
end ForwardedIp
