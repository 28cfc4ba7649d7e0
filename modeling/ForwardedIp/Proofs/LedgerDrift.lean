import Mathlib.Data.List.Induction
import Mathlib.Logic.Function.Basic
import ForwardedIp.Proofs.FaultyTree
import ForwardedIp.Proofs.LedgerRestarts
/-!
# Ledgers ahead of their files

A change is made in memory first, and writing it may fail at any step. Memory is then ahead of the
file, and stays so until a later write goes through. The dirty mark tells which it is: a clean
ledger is what its file holds, and a dirty one was that when it was clean for the last time.
-/
namespace ForwardedIp

/-- What a call makes of the addresses that a ledger shows for each key, however it is answered. -/
def LedgerCall.changes (shown : String → Option (List String)) :
    LedgerCall → String → Option (List String)
  | write key ips => Function.update shown key (some ips)
  | delete key => Function.update shown key none
  | read _ => shown
  | list => shown
  | flush => shown

/-- Whether a call writes the ledger file. -/
def LedgerCall.saves (l : FileLedger) : LedgerCall → Bool
  | write _ _ => true
  | delete key => (l.get? key).isSome
  | flush => l.dirty
  | read _ => false
  | list => false

/-- The calls that write what memory is ahead by, or have nothing to write. -/
inductive LedgerCall.Settles : LedgerCall → Prop where
  | write (key : String) (ips : List String) : Settles (.write key ips)
  | flush : Settles .flush

namespace FileLedger
open FileTree ForwardedIp.Path

theorem get?_put (l : FileLedger) (now : Timestamp) (key : String) (ips : List String) :
    (l.put now key ips).get? = Function.update l.get? key (some ips) := by
  funext other
  by_cases hother : other = key
  · subst hother
    rw [Function.update_self, get?, put, Keyed.lookup_put_self]
    rfl
  · rw [Function.update_of_ne hother, get?, put, Keyed.lookup_put_of_ne hother]
    rfl

theorem get?_erase (l : FileLedger) (key : String) :
    (l.erase key).get? = Function.update l.get? key none := by
  funext other
  by_cases hother : other = key
  · subst hother
    rw [Function.update_self, get?, erase, Keyed.lookup_drop_self]
    rfl
  · rw [Function.update_of_ne hother, get?, erase, Keyed.lookup_drop_of_ne hother]
    rfl

section Calls
variable {F : Type} [FileSystem F] {path : String} {kept : List (String × LedgerRecord)}
  {s : F × FileLedger}

/-- The files and the ledger after some calls. -/
def after (s : F × FileLedger) (calls : List (Timestamp × LedgerCall)) : F × FileLedger :=
  (calls.mapM turn s).2

theorem after_concat (s : F × FileLedger) (calls : List (Timestamp × LedgerCall))
    (call : Timestamp × LedgerCall) :
    after s (calls ++ [call]) = (turn call (after s calls)).2 := by
  rw [after, mapM_append]
  rfl

/-- What a call does: it writes what it has changed in memory, or nothing at all. -/
theorem turn_cases (call : Timestamp × LedgerCall) (files : F) (l : FileLedger) :
    (call.2.saves l = false ∧ (turn call (files, l)).2 = (files, l) ∧
        call.2.changes l.get? = l.get?) ∨
      (call.2.saves l = true ∧ ∃ l', turn call (files, l) = saved l' files ∧
        l'.get? = call.2.changes l.get? ∧ l'.path = l.path ∧ l'.dirty = true ∧
        (LedgerDocument.Sound l.records → call.1.Valid → LedgerDocument.Sound l'.records)) := by
  obtain ⟨now, call⟩ := call
  cases call with
  | read key => exact .inl ⟨rfl, rfl, rfl⟩
  | list => exact .inl ⟨rfl, rfl, rfl⟩
  | write key ips =>
    exact .inr ⟨rfl, _, turn_write ips, get?_put l now key ips, rfl, rfl,
      fun hsound hnow => hsound.put key hnow⟩
  | delete key =>
    rw [turn_delete]
    cases hfound : l.get? key with
    | none =>
      refine .inl ⟨by simp [LedgerCall.saves, hfound], by simp, ?_⟩
      rw [LedgerCall.changes, ← hfound, Function.update_eq_self]
    | some ips =>
      refine .inr ⟨by simp [LedgerCall.saves, hfound], _, by simp, get?_erase l key, rfl, rfl,
        fun hsound _ => hsound.drop key⟩
  | flush =>
    rw [turn_flush]
    cases hdirty : l.dirty with
    | false => exact .inl ⟨hdirty, by simp, rfl⟩
    | true => exact .inr ⟨hdirty, l, by simp, rfl, rfl, hdirty, fun hsound _ => hsound⟩

/-- After `past` the ledger was clean for the last time. -/
structure LastClean (s : F × FileLedger) (calls past : List (Timestamp × LedgerCall)) : Prop where
  isPrefix : past <+: calls
  clean : (after s past).2.dirty = false
  dirty : ∀ later, later ≠ [] → past ++ later <+: calls → (after s (past ++ later)).2.dirty = true

namespace LastClean
variable {calls past : List (Timestamp × LedgerCall)}

theorem of_clean (h : (after s calls).2.dirty = false) : LastClean s calls calls where
  isPrefix := List.prefix_rfl
  clean := h
  dirty later hlater hprefix := by
    have hlength := hprefix.length_le
    rw [List.length_append] at hlength
    exact absurd (List.length_eq_zero_iff.mp (by omega)) hlater

theorem concat (h : LastClean s calls past) {call : Timestamp × LedgerCall}
    (hdirty : (after s (calls ++ [call])).2.dirty = true) :
    LastClean s (calls ++ [call]) past where
  isPrefix := h.isPrefix.trans (List.prefix_append calls [call])
  clean := h.clean
  dirty later hlater hprefix := by
    rcases List.prefix_concat_iff.mp hprefix with heq | hprefix
    · rwa [heq]
    · exact h.dirty later hlater hprefix

end LastClean

/-- The ledger file holds some records, which are those in memory if the ledger is clean. -/
structure Persists (path : String) (kept : List (String × LedgerRecord)) (s : F × FileLedger) :
    Prop where
  path_eq : s.2.path = path
  sound : LedgerDocument.Sound s.2.records
  directory : missingDirectory? s.1 path = none
  loads : load s.1 path = .ok kept
  clean : s.2.dirty = false → s.2.records = kept

namespace Persists

theorem opens (h : Persists path kept s) :
    (openAt path).run s.1 = (.ok ⟨path, kept, false⟩, s.1) :=
  openAt_of_load h.directory h.loads

theorem opens_clean (h : Persists path kept s) (hclean : s.2.dirty = false) :
    (openAt path).run s.1 = (.ok s.2, s.1) := by
  rw [h.opens, ← h.clean hclean, eq_of_clean h.path_eq hclean]

end Persists

end Calls

/-- A write that does not come to its end leaves the ledger file as it was. -/
theorem load_of_stopped {t t' : FileTree} {path text : String}
    (htemporary : temporary path ≠ path) (hbackup : backup path ≠ path)
    (hdir : missingDirectory? t path = none) (h : Stops (writeSteps path text) t false t') :
    missingDirectory? t' path = none ∧ load t' path = load t path := by
  obtain ⟨name, hname⟩ := exists_fileName?_of_ne htemporary
  cases reaches_of_stops hname h with
  | nothing => exact ⟨hdir, rfl⟩
  | pending hplace hconfined =>
    exact ⟨missingDirectory?_of_locate (named_withExtension hname isExtension_tmp)
      (hconfined.directories.locate hplace), load_of_confined htemporary hbackup hconfined⟩

section Drift
variable {F : Type} [FileSystem F] [KeepsTree F] {files : F} {l : FileLedger} {path : String}
  {kept : List (String × LedgerRecord)} {s : F × FileLedger}

theorem load_tree (files : F) (path : String) :
    load (KeepsTree.tree files) path = load files path := by
  have hcontains : FileSystem.contains (KeepsTree.tree files) path =
      FileSystem.contains files path := (KeepsTree.contains_eq files path).symm
  have hread : FileSystem.read (KeepsTree.tree files) path = FileSystem.read files path :=
    (KeepsTree.read_eq files path).symm
  simp only [load, FileSystem.readText, hcontains, hread]

theorem missingDirectory?_tree (files : F) (path : String) :
    missingDirectory? (KeepsTree.tree files) path = missingDirectory? files path := by
  have hcontains (dir : String) : FileSystem.contains (KeepsTree.tree files) dir =
      FileSystem.contains files dir := (KeepsTree.contains_eq files dir).symm
  simp only [missingDirectory?, hcontains]

/-- Saving ends with a clean ledger, or with a failure that leaves it as it is. -/
theorem saved_cases (l : FileLedger) (files : F) : ∃ result files',
    saved l files =
      (.done result, (files', if result.isOk then { l with dirty := false } else l)) ∧
    Stops (writeSteps l.path l.text) (KeepsTree.tree files) result.isOk
      (KeepsTree.tree files') := by
  cases hsave : l.save files with
  | mk answered files' =>
    obtain ⟨result, l'⟩ := answered
    obtain ⟨hstops, rfl⟩ := stops_of_save hsave
    exact ⟨result, files', by simp only [saved, hsave], hstops⟩

theorem get?_saved (l : FileLedger) (files : F) : (saved l files).2.2.get? = l.get? := by
  obtain ⟨result, files', hsaved, -⟩ := saved_cases l files
  rw [hsaved]
  cases result <;> rfl

/-- However a call is answered, the ledger shows what it has changed. -/
theorem get?_turn (call : Timestamp × LedgerCall) (s : F × FileLedger) :
    (turn call s).2.2.get? = call.2.changes s.2.get? := by
  obtain ⟨-, hidle, hsame⟩ | ⟨-, l', hsaved, hchanges, -⟩ := turn_cases call s.1 s.2
  · rw [hidle, hsame]
  · rw [hsaved, get?_saved, hchanges]

theorem get?_after (s : F × FileLedger) (calls : List (Timestamp × LedgerCall)) :
    (after s calls).2.get? =
      calls.foldl (fun shown call => call.2.changes shown) s.2.get? := by
  induction calls using List.reverseRecOn with
  | nil => rfl
  | append_singleton calls call ih =>
    rw [after_concat, get?_turn, ih, List.foldl_append]
    rfl

/-- A call that settles a ledger leaves it clean, unless it fails. -/
theorem clean_of_settles {call : Timestamp × LedgerCall} (hcall : call.2.Settles)
    (hok : (turn call s).1 = .done (.ok ())) : (turn call s).2.2.dirty = false := by
  have hsaved (l : FileLedger) (hok : (saved l s.1).1 = .done (.ok ())) :
      (saved l s.1).2.2.dirty = false := by
    obtain ⟨result, files', heq, -⟩ := saved_cases l s.1
    rw [heq] at hok ⊢
    cases hok
    rfl
  obtain ⟨hidle, hsame, -⟩ | ⟨-, l', heq, -⟩ := turn_cases call s.1 s.2
  · -- Only a flush of a clean ledger does nothing.
    rw [hsame]
    generalize call.2 = c at hcall hidle
    cases hcall with
    | write key ips => cases hidle
    | flush => exact hidle
  · rw [heq] at hok ⊢
    exact hsaved l' hok

/-- The file holds what has been saved, or what it held before if saving has failed. -/
theorem Persists.saved (htemporary : temporary path ≠ path) (hbackup : backup path ≠ path)
    (h : Persists path kept (files, l)) {l' : FileLedger} (hpath : l'.path = path)
    (hsound : LedgerDocument.Sound l'.records) (hdirty : l'.dirty = true) :
    ∃ kept', Persists path kept' (FileLedger.saved l' files).2 ∧
      ((FileLedger.saved l' files).2.2.dirty = true → kept' = kept) := by
  obtain ⟨name, hname⟩ := exists_fileName?_of_ne htemporary
  have hdir : missingDirectory? files path = none := h.directory
  obtain ⟨result, files', hsaved, hstops⟩ := saved_cases l' files
  rw [hsaved]
  rw [hpath] at hstops
  cases result with
  | ok =>
    obtain ⟨hdirectory, hloads⟩ := openAt_of_finished hname hsound hstops
    rw [missingDirectory?_tree] at hdirectory
    rw [load_tree] at hloads
    exact ⟨l'.records, ⟨hpath, hsound, hdirectory, hloads, fun _ => rfl⟩,
      fun hmark => absurd hmark Bool.false_ne_true⟩
  | error fault =>
    rw [← missingDirectory?_tree] at hdir
    obtain ⟨hdirectory, hloads⟩ := load_of_stopped htemporary hbackup hdir hstops
    rw [missingDirectory?_tree] at hdirectory
    rw [load_tree, load_tree, h.loads] at hloads
    refine ⟨kept, ⟨hpath, hsound, hdirectory, hloads, fun hmark => ?_⟩, fun _ => rfl⟩
    exact absurd (hmark.symm.trans hdirty) Bool.false_ne_true

/-- A call that leaves the ledger clean leaves it in its file, and any other leaves the file as it
was. -/
theorem Persists.turn (htemporary : temporary path ≠ path) (hbackup : backup path ≠ path)
    (h : Persists path kept s) {call : Timestamp × LedgerCall} (hclock : call.1.Valid) :
    ∃ kept', Persists path kept' (FileLedger.turn call s).2 ∧
      ((FileLedger.turn call s).2.2.dirty = true → kept' = kept) := by
  obtain ⟨files, l⟩ := s
  obtain ⟨-, hidle, -⟩ | ⟨-, l', hsaved, -, hpath, hdirty, hsound⟩ :=
    turn_cases call files l
  · rw [hidle]
    exact ⟨kept, h, fun _ => rfl⟩
  · rw [hsaved]
    exact h.saved htemporary hbackup (hpath.trans h.path_eq) (hsound h.sound hclock) hdirty

/-- After any calls the file holds what the ledger held when it was clean for the last time. -/
theorem Persists.after (htemporary : temporary path ≠ path) (hbackup : backup path ≠ path)
    (h : Persists path kept s) (hclean : s.2.dirty = false)
    {calls : List (Timestamp × LedgerCall)} (hclock : ∀ c ∈ calls, c.1.Valid) :
    ∃ past, LastClean s calls past ∧
      Persists path (FileLedger.after s past).2.records (FileLedger.after s calls) := by
  induction calls using List.reverseRecOn with
  | nil =>
    refine ⟨[], .of_clean hclean, ?_⟩
    show Persists path s.2.records s
    rwa [h.clean hclean]
  | append_singleton calls call ih =>
    rw [List.forall_mem_append, List.forall_mem_singleton] at hclock
    obtain ⟨past, hpast, hkept⟩ := ih hclock.1
    obtain ⟨kept', hkept', hsame⟩ := hkept.turn htemporary hbackup hclock.2
    rw [← after_concat] at hkept' hsame
    cases hmark : (FileLedger.after s (calls ++ [call])).2.dirty with
    | false =>
      rw [← hkept'.clean hmark] at hkept'
      exact ⟨_, .of_clean hmark, hkept'⟩
    | true =>
      rw [hsame hmark] at hkept'
      exact ⟨past, hpast.concat hmark, hkept'⟩

/-- The dirty mark tells how memory and file stand to each other after some calls. -/
structure MarkHonest (path : String) (s : F × FileLedger)
    (calls : List (Timestamp × LedgerCall)) : Prop where
  /-- Reads show all that was asked for, also by calls that have failed. -/
  shown : ∀ now key, (FileLedger.turn (now, .read key) (FileLedger.after s calls)).1 =
    .found (.ok (calls.foldl (fun shown call => call.2.changes shown) s.2.get? key))
  /-- The file of a clean ledger opens as the ledger that it is. -/
  clean : (FileLedger.after s calls).2.dirty = false →
    (openAt path).run (FileLedger.after s calls).1 =
      (.ok (FileLedger.after s calls).2, (FileLedger.after s calls).1)
  /-- A write or flush that has succeeded leaves the ledger clean. -/
  settled : ∀ before call, calls = before ++ [call] → call.2.Settles →
    (FileLedger.turn call (FileLedger.after s before)).1 = .done (.ok ()) →
      (FileLedger.after s calls).2.dirty = false
  /-- The file of a dirty ledger opens as the ledger was when it was clean for the last time. -/
  dirty : (FileLedger.after s calls).2.dirty = true → ∃ past, LastClean s calls past ∧
    (openAt path).run (FileLedger.after s calls).1 =
      (.ok (FileLedger.after s past).2, (FileLedger.after s calls).1)

/-- A ledger that was opened on a valid file, or on none, is never ahead of its file without
being dirty, whatever of its writes fails. -/
theorem mark_honest {files₀ : F} {records : List (String × LedgerRecord)}
    {calls : List (Timestamp × LedgerCall)} (htemporary : temporary path ≠ path)
    (hbackup : backup path ≠ path) (hdir : Prepares files₀ path files)
    (hload : load files path = .ok records) (hclock : ∀ c ∈ calls, c.1.Valid) :
    (openAt path).run files₀ = (.ok ⟨path, records, false⟩, files) ∧
      MarkHonest path (files, ⟨path, records, false⟩) calls := by
  have hdirectory := missingDirectory?_of_prepares hdir
  have hopened : Persists path records (files, ⟨path, records, false⟩) :=
    ⟨rfl, sound_of_load hload, hdirectory, hload, fun _ => rfl⟩
  obtain ⟨past, hpast, hkept⟩ := hopened.after htemporary hbackup rfl hclock
  refine ⟨?_, ?_, hkept.opens_clean, ?_, fun _ => ⟨past, hpast, ?_⟩⟩
  · rw [openAt_of_prepares hdir, loadOrRecover_of_ok hload]
    rfl
  · intro now key
    show LedgerAnswer.found (.ok ((FileLedger.after _ calls).2.get? key)) = _
    rw [get?_after]
  · rintro before call rfl hcall hok
    rw [after_concat]
    exact clean_of_settles hcall hok
  · -- The ledger had the same path when it was clean.
    have hclock' : ∀ c ∈ past, c.1.Valid := fun c hc => hclock c (hpast.isPrefix.subset hc)
    obtain ⟨_, -, hkept'⟩ := hopened.after htemporary hbackup rfl hclock'
    rw [hkept.opens, eq_of_clean hkept'.path_eq hpast.clean]

/-- A write that fails when the file is synced shows, but not in the file. -/
theorem unsynced_write_shown :
    let files : FaultyTree := ⟨{}, [.done, .done, .failed .invalidArgument none], []⟩
    let s : FaultyTree × FileLedger := (files, ⟨"ledger.json", [], false⟩)
    let calls : List (Timestamp × LedgerCall) := [(⟨0, 0, 0⟩, .write "eth0" ["10.0.0.5"])]
    temporary "ledger.json" ≠ "ledger.json" ∧ backup "ledger.json" ≠ "ledger.json" ∧
      Prepares files "ledger.json" files ∧ load files "ledger.json" = .ok [] ∧
      (after s calls).2.get? "eth0" = some ["10.0.0.5"] ∧ (after s calls).2.dirty = true ∧
      ((openAt "ledger.json").run (after s calls).1).1 = .ok ⟨"ledger.json", [], false⟩ ∧
      MarkHonest "ledger.json" s calls := by
  intro files s calls
  have htemporary : temporary "ledger.json" ≠ "ledger.json" := by decide
  have hbackup : backup "ledger.json" ≠ "ledger.json" := by decide
  have hdir : Prepares files "ledger.json" files := rfl
  have hload : load files "ledger.json" = .ok [] := rfl
  have hclock : ∀ c ∈ calls, c.1.Valid := by simp [calls, Timestamp.valid_epoch]
  obtain ⟨l, hl⟩ :
      ∃ l, (⟨"ledger.json", [], false⟩ : FileLedger).put ⟨0, 0, 0⟩ "eth0" ["10.0.0.5"] = l :=
    ⟨_, rfl⟩
  have hpath : l.path = "ledger.json" := by rw [← hl]; rfl
  have hshown : l.get? "eth0" = some ["10.0.0.5"] := by rw [← hl]; rfl
  have hdirty : l.dirty = true := by rw [← hl]; rfl
  let stopped (content : ByteArray) : FaultyTree :=
    ⟨⟨[(["ledger.tmp"], .file content)]⟩, [], [.sync "ledger.tmp"]⟩
  have hsteps (text : String) : ∃ fault, (runSteps (writeSteps "ledger.json" text)).run files =
      (.error fault, stopped text.toByteArray) := ⟨_, rfl⟩
  have hopened (content : ByteArray) : ((openAt "ledger.json").run (stopped content)).1 =
      .ok ⟨"ledger.json", [], false⟩ := rfl
  -- The text that is written stays closed, so that no step prints it.
  have hafter : after s calls = (stopped l.text.toByteArray, l) := by
    obtain ⟨fault, hrun⟩ := hsteps l.text
    rw [← hpath] at hrun
    rw [after, mapM_cons, turn_write, hl, saved_of_runSteps hrun]
    rfl
  have hhonest := @mark_honest FaultyTree _ _ files "ledger.json" files [] calls htemporary hbackup
    hdir hload hclock
  refine ⟨htemporary, hbackup, hdir, hload, ?_, ?_, ?_, hhonest.2⟩
  · rw [hafter, hshown]
  · rw [hafter, hdirty]
  · rw [hafter, hopened]

end Drift

end FileLedger
end ForwardedIp
