import ForwardedIp.Proofs.LedgerDrift
import ForwardedIp.Proofs.SmoothWrites
/-!
# Backups one write behind

Each write of the ledger copies the file it is about to replace, so that the backup holds what the
ledger held before its last write. Deletions of absent records, flushes of a clean ledger and
openings write nothing and leave the backup alone. A ledger file that holds no document any more
is therefore replaced by what it was before its last write.
-/
namespace ForwardedIp

/-- A move of whoever uses a ledger: a call at some time by the clock, or opening it anew. -/
inductive LedgerMove where
  | call (now : Timestamp) (call : LedgerCall)
  | reopen

namespace LedgerMove
variable {F : Type} [FileSystem F]

/-- The files and the ledger after a move. An opening that fails leaves the ledger as it is. -/
def step (path : String) : LedgerMove → F × FileLedger → F × FileLedger
  | call now c, s => (FileLedger.turn (now, c) s).2
  | reopen, s =>
      match FileLedger.openAt path s.1 with
      | (.ok l, files) => (files, l)
      | (.error _, files) => (files, s.2)

/-- Whether a move writes the ledger file. -/
def rewrites (l : FileLedger) : LedgerMove → Bool
  | call _ c => c.saves l
  | reopen => false

/-- The time of a call exists. -/
def Timely : LedgerMove → Prop
  | call now _ => now.Valid
  | reopen => True

/-- The files and the ledger after some moves. -/
def run (path : String) (moves : List LedgerMove) (s : F × FileLedger) : F × FileLedger :=
  moves.foldl (fun s move => move.step path s) s

theorem run_cons (path : String) (move : LedgerMove) (moves : List LedgerMove)
    (s : F × FileLedger) : run path (move :: moves) s = run path moves (move.step path s) := rfl

/-- What the ledger held before each of the moves that write its file. -/
def rewritten (path : String) :
    List LedgerMove → F × FileLedger → List (List (String × LedgerRecord))
  | [], _ => []
  | move :: moves, s =>
      if move.rewrites s.2 then s.2.records :: rewritten path moves (move.step path s)
      else rewritten path moves (move.step path s)

/-- The ways a move can go: nothing happens, the ledger is opened or cannot be, or what the move has
changed in memory is saved. -/
inductive Goes (path : String) (s : F × FileLedger) (move : LedgerMove) : F × FileLedger → Prop where
  | idle (hidle : move.rewrites s.2 = false) : Goes path s move s
  | opened {l : FileLedger} {files : F} (hidle : move.rewrites s.2 = false)
      (h : (FileLedger.openAt path).run s.1 = (.ok l, files)) : Goes path s move (files, l)
  | refused {fault : Fault} {files : F} (hidle : move.rewrites s.2 = false)
      (h : (FileLedger.openAt path).run s.1 = (.error fault, files)) :
      Goes path s move (files, s.2)
  | saved {l : FileLedger} (hwrites : move.rewrites s.2 = true) (hpath : l.path = s.2.path)
      (hsound : LedgerDocument.Sound s.2.records → move.Timely → LedgerDocument.Sound l.records) :
      Goes path s move (FileLedger.saved l s.1).2

theorem goes_step (path : String) (s : F × FileLedger) (move : LedgerMove) :
    Goes path s move (move.step path s) := by
  cases move with
  | call now c =>
    show Goes path s (.call now c) (FileLedger.turn (now, c) (s.1, s.2)).2
    obtain ⟨hidle, hsame, -⟩ | ⟨hwrites, l, hsaved, -, hpath, -, hsound⟩ :=
      FileLedger.turn_cases (now, c) s.1 s.2
    · rw [hsame]
      exact .idle hidle
    · rw [hsaved]
      exact .saved hwrites hpath hsound
  | reopen =>
    simp only [step]
    split
    · next l files hopen => exact .opened rfl hopen
    · next fault files hopen => exact .refused rfl hopen

end LedgerMove

namespace FileLedger
open FileTree ForwardedIp.Path
variable {f : FaultyTree} {l : FileLedger} {path text : String} {name : List Char}
  {t : FileTree} {records : List (String × LedgerRecord)}

/-- Without failures after some move there were none before. -/
theorem step_quiet {s : FaultyTree × FileLedger} {move : LedgerMove}
    (h : (move.step path s).1.failures = []) : s.1.failures = [] := by
  have hgoes := LedgerMove.goes_step path s move
  generalize move.step path s = s' at hgoes h
  cases hgoes with
  | idle => exact h
  | opened _ hopen => exact openAt_quiet (by rw [hopen]; exact h)
  | refused _ hopen => exact openAt_quiet (by rw [hopen]; exact h)
  | saved => exact (saved_quiet h).1

theorem run_quiet {s : FaultyTree × FileLedger} {moves : List LedgerMove}
    (h : (LedgerMove.run path moves s).1.failures = []) : s.1.failures = [] := by
  induction moves generalizing s with
  | nil => exact h
  | cons move moves ih => exact step_quiet (ih h)

/-- The ledger file holds what is in memory, and the backup holds some records if it is known
which. -/
structure Written (path : String) (kept : Option (List (String × LedgerRecord)))
    (s : FaultyTree × FileLedger) : Prop where
  path_eq : s.2.path = path
  sound : LedgerDocument.Sound s.2.records
  current : Holds s.1.tree path s.2.records
  behind : ∀ records, kept = some records → Holds s.1.tree (backup path) records

/-- Whatever the file held before, it holds the ledger after saving without a failure. -/
theorem written_of_saved (htemporary : temporary path ≠ path) (hpath : l.path = path)
    (hsound : LedgerDocument.Sound l.records) (hquiet : (saved l f).2.1.failures = []) :
    Written path none (saved l f).2 := by
  obtain ⟨name, hname⟩ := exists_fileName?_of_ne htemporary
  obtain ⟨-, hclean, hsmooth⟩ := saved_quiet hquiet
  rw [hpath] at hsmooth
  have hcurrent := holds_of_finished hname hsound hsmooth.stops
  refine ⟨?_, ?_, ?_, fun records hnone => by cases hnone⟩
  · rw [hclean, ← hpath]
  · rw [hclean]
    exact hsound
  · rw [hclean]
    exact hcurrent

section Moves
variable {kept : Option (List (String × LedgerRecord))} {s : FaultyTree × FileLedger}

/-- Saving without a failure leaves in the backup what the ledger held before. -/
theorem Written.saved (htemporary : temporary path ≠ path) (hbackup : backup path ≠ path)
    (h : Written path kept s) (hpath : l.path = path) (hsound : LedgerDocument.Sound l.records)
    (hquiet : (FileLedger.saved l s.1).2.1.failures = []) :
    Written path (some s.2.records) (FileLedger.saved l s.1).2 := by
  obtain ⟨name, hname⟩ := exists_fileName?_of_ne htemporary
  have hwritten := written_of_saved htemporary hpath hsound hquiet
  obtain ⟨-, -, hsmooth⟩ := saved_quiet hquiet
  rw [hpath] at hsmooth
  obtain ⟨content, hstanding, hdecode⟩ := h.current
  refine { hwritten with behind := fun records hrecords => ?_ }
  cases hrecords
  exact ⟨content, behind_of_smooth hname htemporary hbackup hsmooth hstanding, hdecode⟩

theorem Written.opens (htemporary : temporary path ≠ path) (h : Written path kept s) :
    (openAt path).run s.1 = (.ok ⟨path, s.2.records, false⟩, s.1) := by
  obtain ⟨name, hname⟩ := exists_fileName?_of_ne htemporary
  have hdir := h.current.directory hname
  have hload := h.current.load
  exact openAt_of_load hdir hload

/-- A move that writes the file leaves in the backup what the ledger held before, and any other
leaves the backup as it is. -/
theorem Written.step (htemporary : temporary path ≠ path) (hbackup : backup path ≠ path)
    (h : Written path kept s) {move : LedgerMove} (htimely : move.Timely)
    (hquiet : (move.step path s).1.failures = []) :
    Written path (if move.rewrites s.2 then some s.2.records else kept) (move.step path s) := by
  have hopens := h.opens htemporary
  have hgoes := LedgerMove.goes_step path s move
  generalize move.step path s = s' at hgoes hquiet ⊢
  cases hgoes with
  | idle hidle =>
    rw [if_neg (Bool.eq_false_iff.mp hidle)]
    exact h
  | opened hidle hopen =>
    rw [hopens] at hopen
    cases hopen
    rw [if_neg (Bool.eq_false_iff.mp hidle)]
    exact ⟨rfl, h.sound, h.current, h.behind⟩
  | refused _ hopen =>
    rw [hopens] at hopen
    cases hopen
  | saved hwrites hpath hsound =>
    rw [if_pos hwrites]
    exact h.saved htemporary hbackup (hpath.trans h.path_eq) (hsound h.sound htimely) hquiet

/-- After any moves the backup holds what the ledger held before the last of them that wrote. -/
theorem Written.run (htemporary : temporary path ≠ path) (hbackup : backup path ≠ path)
    (h : Written path kept s) {moves : List LedgerMove} (htimely : ∀ move ∈ moves, move.Timely)
    (hquiet : (LedgerMove.run path moves s).1.failures = []) :
    Written path ((LedgerMove.rewritten path moves s).getLast?.or kept)
      (LedgerMove.run path moves s) := by
  induction moves generalizing kept s with
  | nil => exact h
  | cons move moves ih =>
    obtain ⟨hmove, hmoves⟩ := List.forall_mem_cons.mp htimely
    have hstep := ih (h.step htemporary hbackup hmove (run_quiet hquiet)) hmoves hquiet
    rw [LedgerMove.run_cons, LedgerMove.rewritten]
    cases hwrites : move.rewrites s.2 with
    | false => simpa only [hwrites, Bool.false_eq_true, if_false] using hstep
    | true =>
      simp only [hwrites, if_true, Option.or_some] at hstep
      simpa only [if_true, List.getLast?_cons, Option.some_or] using hstep

/-- The first write leaves the ledger in its file, whatever the file held before. Until then the
ledger keeps its path, and records that a ledger can hold. -/
theorem first_step (htemporary : temporary path ≠ path) (hpath : s.2.path = path)
    (hsound : LedgerDocument.Sound s.2.records) {move : LedgerMove} (htimely : move.Timely)
    (hquiet : (move.step path s).1.failures = []) :
    (move.rewrites s.2 = true → Written path none (move.step path s)) ∧
      (move.step path s).2.path = path ∧ LedgerDocument.Sound (move.step path s).2.records := by
  have hgoes := LedgerMove.goes_step path s move
  generalize move.step path s = s' at hgoes hquiet ⊢
  cases hgoes with
  | idle hidle => exact ⟨by simp [hidle], hpath, hsound⟩
  | opened hidle hopen =>
    obtain ⟨hpath', -, hsound'⟩ := sound_of_openAt (congrArg Prod.fst hopen)
    exact ⟨by simp [hidle], hpath', hsound'⟩
  | refused hidle => exact ⟨by simp [hidle], hpath, hsound⟩
  | saved _ hpath' hsound' =>
    have hwritten := written_of_saved htemporary (hpath'.trans hpath) (hsound' hsound htimely) hquiet
    exact ⟨fun _ => hwritten, hwritten.path_eq, hwritten.sound⟩

/-- After two moves that wrote the backup holds what the ledger held before the last of them. -/
theorem written_of_two (htemporary : temporary path ≠ path) (hbackup : backup path ≠ path)
    (hpath : s.2.path = path) (hsound : LedgerDocument.Sound s.2.records)
    {moves : List LedgerMove} (htimely : ∀ move ∈ moves, move.Timely)
    (hquiet : (LedgerMove.run path moves s).1.failures = [])
    (htwo : 2 ≤ (LedgerMove.rewritten path moves s).length) :
    Written path (LedgerMove.rewritten path moves s).getLast? (LedgerMove.run path moves s) := by
  induction moves generalizing s with
  | nil => simp [LedgerMove.rewritten] at htwo
  | cons move moves ih =>
    obtain ⟨hmove, hmoves⟩ := List.forall_mem_cons.mp htimely
    rw [LedgerMove.run_cons] at hquiet ⊢
    obtain ⟨hfirst, hpath', hsound'⟩ :=
      first_step htemporary hpath hsound hmove (run_quiet hquiet)
    rw [LedgerMove.rewritten] at htwo ⊢
    cases hwrites : move.rewrites s.2 with
    | false =>
      simp only [hwrites, Bool.false_eq_true, if_false] at htwo ⊢
      exact ih hpath' hsound' hmoves hquiet htwo
    | true =>
      simp only [hwrites, if_true, List.length_cons] at htwo ⊢
      have hlater := (hfirst hwrites).run htemporary hbackup hmoves hquiet
      cases hrest : LedgerMove.rewritten path moves (move.step path s) with
      | nil =>
        rw [hrest] at htwo
        simp at htwo
      | cons records rest =>
        rw [hrest, Option.or_none] at hlater
        exact hlater

/-! ## Recovery -/

theorem load_of_corrupt {defect : Json.Defect} (htext : LedgerDocument.parse text = .error defect)
    (h : t.standing? path = some (.file text.toByteArray)) :
    load t path = .error (.document defect) := by
  rw [load_eq, h]
  exact decode_of_defect htext

/-- A ledger file that holds a text but no document is replaced by its backup, and then opens with
the same records. -/
theorem openAt_of_corrupt (hname : fileName? path = some name) (hbackup : backup path ≠ path)
    {defect : Json.Defect} (htext : LedgerDocument.parse text = .error defect)
    (h : t.standing? path = some (.file text.toByteArray)) (hkept : Holds t (backup path) records) :
    ∃ t', (openAt path).run t = (.ok ⟨path, records, false⟩, t') ∧ Holds t' path records := by
  have hload := hkept.load
  obtain ⟨content, hstanding, hdecode⟩ := hkept
  have hapart {place : List String} (hplace : t.locate (backup path) = .ok place) :
      t.locate path ≠ .ok place := fun hpath => apart_of_standing? hname hbackup h hpath hplace
  obtain ⟨t', hcopy⟩ := exists_copyFile hstanding h fun place => hapart
  have hrecover : recover path t = (records, t') := by
    have hcontains : FileSystem.contains t (backup path) = true :=
      (contains_eq t (backup path)).trans (by rw [hstanding]; rfl)
    have hperform : FileSystem.perform (.copy (backup path) path) t = (.ok (), t') := by
      show t.settle (t.copyFile (backup path) path) = _
      rw [hcopy]
      rfl
    simp only [recover, hcontains, if_true, hload, hperform]
  have hprepares : Prepares t path t := by rw [Prepares, missingDirectory?_of_standing? hname h]
  refine ⟨t', ?_, content, standing?_of_copyFile hstanding (fun place => hapart) hcopy, hdecode⟩
  rw [openAt_of_prepares hprepares, loadOrRecover_of_document (load_of_corrupt htext h), hrecover]
  rfl

theorem Written.recovers (hname : fileName? path = some name) (hbackup : backup path ≠ path)
    (h : Written path (some records) s) {defect : Json.Defect}
    (htext : LedgerDocument.parse text = .error defect) :
    ∃ t t', s.1.tree.writeFile path text.toByteArray = .ok t ∧
      (openAt path).run t = (.ok ⟨path, records, false⟩, t') ∧
      (openAt path).run t' = (.ok ⟨path, records, false⟩, t') := by
  obtain ⟨old, hold, -⟩ := h.current
  obtain ⟨content, hstanding, hdecode⟩ := h.behind records rfl
  obtain ⟨t, hwrite⟩ := exists_writeFile hold text.toByteArray
  have hput := puts_of_writeFile hwrite
  have hkept : Holds t (backup path) records := by
    refine ⟨content, ?_, hdecode⟩
    rw [← hstanding]
    refine hput.confined.standing?_eq fun other hother place hplace hplace' => ?_
    rw [List.mem_singleton.mp hother] at hplace
    exact directory_of_backup hname hbackup hplace hplace'
  obtain ⟨t', hopen, hrestored⟩ := openAt_of_corrupt hname hbackup htext hput.standing? hkept
  exact ⟨t, t', hwrite, hopen, openAt_of_load (hrestored.directory hname) hrestored.load⟩

end Moves

/-- After any moves in which nothing fails and at least two write the ledger file, the backup is
one write behind: a text in the place of the file that is no ledger document is replaced by what
the ledger held before the last of these writes, and stays replaced. -/
theorem backup_one_write_behind {f₀ : FaultyTree} {moves : List LedgerMove}
    {last : List (String × LedgerRecord)} {defect : Json.Defect}
    (htemporary : temporary path ≠ path) (hbackup : backup path ≠ path)
    (hopen : (openAt path).run f₀ = (.ok l, f)) (htimely : ∀ move ∈ moves, move.Timely)
    (hquiet : (LedgerMove.run path moves (f, l)).1.failures = [])
    (htwo : 2 ≤ (LedgerMove.rewritten path moves (f, l)).length)
    (hlast : (LedgerMove.rewritten path moves (f, l)).getLast? = some last)
    (htext : LedgerDocument.parse text = .error defect) :
    ∃ t t', (LedgerMove.run path moves (f, l)).1.tree.writeFile path text.toByteArray = .ok t ∧
      (openAt path).run t = (.ok ⟨path, last, false⟩, t') ∧
      (openAt path).run t' = (.ok ⟨path, last, false⟩, t') := by
  obtain ⟨name, hname⟩ := exists_fileName?_of_ne htemporary
  obtain ⟨hpath, -, hsound⟩ := sound_of_openAt (congrArg Prod.fst hopen)
  have hwritten := written_of_two htemporary hbackup hpath hsound htimely hquiet htwo
  rw [hlast] at hwritten
  exact hwritten.recovers hname hbackup htext

/-- A record that was deleted is back once the ledger file breaks off. A flush in between does not
count. -/
theorem deleted_record_recovered :
    let files : FaultyTree := ⟨{}, [], []⟩
    let opened : FileLedger := ⟨"ledger.json", [], false⟩
    let record : LedgerRecord := ⟨["10.0.0.5"], ⟨0, 0, 0⟩⟩
    let moves : List LedgerMove := [.call ⟨0, 0, 0⟩ (.write "eth0" ["10.0.0.5"]),
      .call ⟨0, 0, 0⟩ .flush, .call ⟨0, 0, 0⟩ (.delete "eth0")]
    temporary "ledger.json" ≠ "ledger.json" ∧ backup "ledger.json" ≠ "ledger.json" ∧
      (openAt "ledger.json").run files = (.ok opened, files) ∧
      (LedgerMove.run "ledger.json" moves (files, opened)).1.failures = [] ∧
      LedgerMove.rewritten "ledger.json" moves (files, opened) = [[], [("eth0", record)]] ∧
      LedgerDocument.parse "\x7b" = .error .truncated ∧
      ∃ t t', (LedgerMove.run "ledger.json" moves (files, opened)).1.tree.writeFile "ledger.json"
          "\x7b".toByteArray = .ok t ∧
        (openAt "ledger.json").run t = (.ok ⟨"ledger.json", [("eth0", record)], false⟩, t') ∧
        (openAt "ledger.json").run t' = (.ok ⟨"ledger.json", [("eth0", record)], false⟩, t') := by
  intro files opened record moves
  have htemporary : temporary "ledger.json" ≠ "ledger.json" := by decide
  have hbackup : backup "ledger.json" ≠ "ledger.json" := by decide
  have hopen : (openAt "ledger.json").run files = (.ok opened, files) := rfl
  have htimely : ∀ move ∈ moves, move.Timely := by
    simp [moves, LedgerMove.Timely, Timestamp.valid_epoch]
  have htext : LedgerDocument.parse "\x7b" = .error .truncated := rfl
  let written : FileLedger := ⟨"ledger.json", [("eth0", record)], false⟩
  obtain ⟨l₁, hput⟩ : ∃ l, opened.put ⟨0, 0, 0⟩ "eth0" ["10.0.0.5"] = l := ⟨_, rfl⟩
  have hpath₁ : l₁.path = "ledger.json" := by rw [← hput]; rfl
  have hclean₁ : { l₁ with dirty := false } = written := by rw [← hput]; rfl
  obtain ⟨l₂, herase⟩ : ∃ l, written.erase "eth0" = l := ⟨_, rfl⟩
  have hpath₂ : l₂.path = "ledger.json" := by rw [← herase]; rfl
  have hclean₂ : { l₂ with dirty := false } = opened := by rw [← herase]; rfl
  have hcreated (text : String) : Smooth (writeSteps "ledger.json" text) files.tree
      ⟨[(["ledger.json"], .file text.toByteArray)]⟩ :=
    .done rfl (.done rfl (.done rfl (.idle rfl rfl (.done rfl (.nil _)))))
  have hreplaced (old : ByteArray) (text : String) : Smooth (writeSteps "ledger.json" text)
      ⟨[(["ledger.json"], .file old)]⟩
      ⟨[(["ledger.json"], .file text.toByteArray), (["ledger.backup"], .file old)]⟩ :=
    .done rfl (.done rfl (.done rfl (.done rfl (.done rfl (.nil _)))))
  -- The trees stay closed from here on, so that no step prints the texts in them.
  obtain ⟨t₁, hsmooth₁, t₂, hsmooth₂⟩ :
      ∃ t₁, Smooth (writeSteps "ledger.json" l₁.text) files.tree t₁ ∧
        ∃ t₂, Smooth (writeSteps "ledger.json" l₂.text) t₁ t₂ :=
    ⟨_, hcreated l₁.text, _, hreplaced l₁.text.toByteArray l₂.text⟩
  rw [← hpath₁] at hsmooth₁
  rw [← hpath₂] at hsmooth₂
  have hwrite : LedgerMove.step "ledger.json" (.call ⟨0, 0, 0⟩ (.write "eth0" ["10.0.0.5"]))
      (files, opened) = ((⟨t₁, [], []⟩ : FaultyTree), written) := by
    rw [← hclean₁]
    show (turn (⟨0, 0, 0⟩, .write "eth0" ["10.0.0.5"]) (files, opened)).2 = _
    rw [turn_write, hput, saved_of_runSteps (runSteps_of_smooth hsmooth₁)]
    rfl
  have hflush : LedgerMove.step "ledger.json" (.call ⟨0, 0, 0⟩ .flush)
      ((⟨t₁, [], []⟩ : FaultyTree), written) = (⟨t₁, [], []⟩, written) := by
    show (turn (⟨0, 0, 0⟩, .flush) (_, written)).2 = _
    rw [turn_flush]
    rfl
  have hdelete : LedgerMove.step "ledger.json" (.call ⟨0, 0, 0⟩ (.delete "eth0"))
      ((⟨t₁, [], []⟩ : FaultyTree), written) = (⟨t₂, [], []⟩, opened) := by
    rw [← hclean₂]
    show (turn (⟨0, 0, 0⟩, .delete "eth0") (_, written)).2 = _
    rw [turn_delete, herase, saved_of_runSteps (runSteps_of_smooth hsmooth₂)]
    rfl
  have hquiet : (LedgerMove.run "ledger.json" moves (files, opened)).1.failures = [] := by
    simp only [moves, LedgerMove.run_cons, hwrite, hflush, hdelete]
    rfl
  have hrewritten : LedgerMove.rewritten "ledger.json" moves (files, opened) =
      [[], [("eth0", record)]] := by
    simp only [moves, LedgerMove.rewritten, hwrite, hflush]
    rfl
  have hlast : (LedgerMove.rewritten "ledger.json" moves (files, opened)).getLast? =
      some [("eth0", record)] := by
    rw [hrewritten]
    rfl
  refine ⟨htemporary, hbackup, hopen, hquiet, hrewritten, htext, ?_⟩
  exact backup_one_write_behind htemporary hbackup hopen htimely hquiet (by rw [hrewritten]; rfl)
    hlast htext

end FileLedger
end ForwardedIp
