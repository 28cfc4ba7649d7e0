import ForwardedIp.Ledger.Memory
import ForwardedIp.Proofs.LedgerWrites
/-!
# Ledgers across restarts

A ledger in a file answers as one in memory does, for as long as nothing fails, however often it is
closed and opened again. What is on disk between two calls is all that is in memory, so an opening
finds just what the last session left.
-/
namespace ForwardedIp

/-- A call of a ledger. -/
inductive LedgerCall where
  | read (key : String)
  | write (key : String) (ips : List String)
  | delete (key : String)
  | list
  | flush

/-- What a call of a ledger answers. -/
inductive LedgerAnswer where
  | found (result : Except Fault (Option (List String)))
  | listed (result : Except Fault (List String))
  | done (result : Except Fault Unit)

/-- An answer that is no fault. -/
def LedgerAnswer.isOk : LedgerAnswer → Bool
  | found result => result.isOk
  | listed result => result.isOk
  | done result => result.isOk

/-- Makes a call. -/
def LedgerCall.answer {L : Type} [LedgerStore L] : LedgerCall → StateM L LedgerAnswer
  | read key => return .found (← LedgerStore.read key)
  | write key ips => return .done (← LedgerStore.write key ips)
  | delete key => return .done (← LedgerStore.delete key)
  | list => return .listed (← LedgerStore.list)
  | flush => return .done (← LedgerStore.flush)

namespace FileLedger

section Sessions
variable {F : Type} [FileSystem F]

/-- Makes a call at some time by the clock. -/
def turn (call : Timestamp × LedgerCall) : StateM (F × FileLedger) LedgerAnswer := fun (files, l) =>
  let (answer, s) := (call.2.answer : StateM (FileLedgerSite F) LedgerAnswer) ⟨files, l, call.1⟩
  (answer, (s.files, s.ledger))

/-- What came of some sessions: what the calls were answered, and why an opening failed. -/
structure Transcript where
  answers : List LedgerAnswer
  refused : Option Fault := none

/-- The same with some answers before. -/
def Transcript.after (answers : List LedgerAnswer) (later : Transcript) : Transcript :=
  { later with answers := answers ++ later.answers }

/-- Opens a ledger, makes some calls and closes it. -/
def session (path : String) (calls : List (Timestamp × LedgerCall)) : StateM F Transcript :=
  fun files =>
    match openAt path files with
    | (.error fault, files) => (⟨[], some fault⟩, files)
    | (.ok l, files) =>
        let (answers, s) := calls.mapM turn (files, l)
        (⟨answers, none⟩, s.1)

/-- One session after the other, up to an opening that fails. -/
def sessions (path : String) : List (List (Timestamp × LedgerCall)) → StateM F Transcript
  | [] => fun files => (⟨[], none⟩, files)
  | calls :: rest => fun files =>
      match session path calls files with
      | (⟨answers, some fault⟩, files) => (⟨answers, some fault⟩, files)
      | (⟨answers, none⟩, files) =>
          let (later, files) := sessions path rest files
          (later.after answers, files)

variable {files files' : F} {l : FileLedger} {now : Timestamp} {key : String}

/-- What came of saving a ledger, as an answer and a new state. -/
def saved (l : FileLedger) (files : F) : LedgerAnswer × (F × FileLedger) :=
  let ((result, l), files) := l.save files
  (.done result, (files, l))

theorem turn_read : turn (now, .read key) (files, l) = (.found (.ok (l.get? key)), (files, l)) :=
  rfl

theorem turn_list : turn (now, .list) (files, l) = (.listed (.ok l.keys), (files, l)) := rfl

theorem turn_write (ips : List String) :
    turn (now, .write key ips) (files, l) = saved (l.put now key ips) files := rfl

theorem turn_delete : turn (now, .delete key) (files, l) =
    if (l.get? key).isNone then (.done (.ok ()), (files, l)) else saved (l.erase key) files := by
  have hdelete (s : FileLedgerSite F) : LedgerStore.delete key s =
      if (s.ledger.get? key).isNone then (.ok (), s)
      else FileLedgerSite.save (s.ledger.erase key) s := by
    show (if (s.ledger.get? key).isNone then pure (.ok ())
      else FileLedgerSite.save (s.ledger.erase key) : StateM (FileLedgerSite F) _) s = _
    split <;> rfl
  show (match LedgerStore.delete key (⟨files, l, now⟩ : FileLedgerSite F) with
    | (result, s) => (LedgerAnswer.done result, (s.files, s.ledger))) = _
  rw [hdelete]
  simp only
  split <;> rfl

theorem saved_of_runSteps {result : Except Fault Unit}
    (h : (runSteps (writeSteps l.path l.text)).run files = (result, files')) :
    saved l files =
      (.done result, (files', if result.isOk then { l with dirty := false } else l)) := by
  have hsave : l.save files =
      ((result, if result.isOk then { l with dirty := false } else l), files') := save_of_runSteps h
  simp only [saved, hsave]

theorem turn_flush : turn (now, .flush) (files, l) =
    if l.dirty then saved l files else (.done (.ok ()), (files, l)) := by
  have hflush (s : FileLedgerSite F) : LedgerStore.flush s =
      if s.ledger.dirty then FileLedgerSite.save s.ledger s else (.ok (), s) := by
    show (if s.ledger.dirty then FileLedgerSite.save s.ledger else pure (.ok ()) :
      StateM (FileLedgerSite F) _) s = _
    split <;> rfl
  show (match LedgerStore.flush (⟨files, l, now⟩ : FileLedgerSite F) with
    | (result, s) => (LedgerAnswer.done result, (s.files, s.ledger))) = _
  rw [hflush]
  by_cases hdirty : l.dirty = true
  · simp only [if_pos hdirty]
    rfl
  · simp only [if_neg hdirty]

theorem sessions_cons {path : String} (h : (openAt path).run files = (.ok l, files'))
    (calls : List (Timestamp × LedgerCall)) (rest : List (List (Timestamp × LedgerCall))) :
    (sessions path (calls :: rest) files).1 =
      (sessions path rest (calls.mapM turn (files', l)).2.1).1.after
        (calls.mapM turn (files', l)).1 := by
  have hopen : openAt path files = (.ok l, files') := h
  simp only [sessions, session, hopen]
  rfl

end Sessions

open FileTree ForwardedIp.Path
variable {t t' : FileTree} {path : String} {l l' : FileLedger} {m : MemoryLedger}

/-- Between two calls the disk holds all that is in memory, and that is what a ledger in memory
holds. -/
structure Kept (path : String) (s : FileTree × FileLedger) (m : MemoryLedger) : Prop where
  path_eq : s.2.path = path
  clean : s.2.dirty = false
  sound : LedgerDocument.Sound s.2.records
  directory : missingDirectory? s.1 path = none
  loads : load s.1 path = .ok s.2.records
  same : m.records = Keyed.mapValues LedgerRecord.forwardedIps s.2.records

/-- The directory of a ledger is there once an opening has seen to it. -/
theorem missingDirectory?_of_prepares {F : Type} [FileSystem F] [KeepsTree F] {files files' : F}
    (h : Prepares files path files') : missingDirectory? files' path = none := by
  unfold Prepares at h
  split at h
  · next hdir => rwa [h]
  · next dir hdir =>
    obtain ⟨hparent, hmissing⟩ := Option.filter_eq_some_iff.mp hdir
    have hne : dir ≠ "" := by
      intro hempty
      simp [hempty] at hmissing
    have hcontains : FileSystem.contains files' dir = true := by
      rw [KeepsTree.contains_eq]
      exact contains_of_createDirectories hne (KeepsTree.perform_ok h)
    rw [missingDirectory?, hparent, Option.filter_some, if_neg]
    simp [hcontains]

theorem eq_of_clean (hpath : l.path = path) (hclean : l.dirty = false) :
    (⟨path, l.records, false⟩ : FileLedger) = l := by
  rw [← hpath, ← hclean]

theorem exists_fileName?_of_finished {text : String}
    (h : Stops (writeSteps path text) t true t') : ∃ name, fileName? path = some name := by
  cases h with
  | ignored hnone => cases hnone
  | done hcreate _ =>
    obtain ⟨place, hplace, hentry, -⟩ := puts_of_createFile (ok_of_settle hcreate)
    cases hname : fileName? path with
    | some name => exact ⟨name, rfl⟩
    | none =>
      rw [temporary_of_unnamed hname] at hplace
      obtain ⟨name, hsome⟩ := exists_fileName? hplace hentry
      rw [hname] at hsome
      cases hsome

/-- A ledger that has been saved is kept. -/
theorem kept_of_saved (hpath : l.path = path) (hsound : LedgerDocument.Sound l.records)
    (hsame : m.records = Keyed.mapValues LedgerRecord.forwardedIps l.records)
    (hok : (saved l t).1.isOk = true) :
    (saved l t).1 = .done (.ok ()) ∧ Kept path (saved l t).2 m := by
  unfold saved at hok ⊢
  cases hsave : l.save t with
  | mk answered t' =>
    obtain ⟨result, l'⟩ := answered
    rw [hsave] at hok
    obtain ⟨hstops, hl'⟩ := stops_of_save hsave
    cases result with
    | error fault => cases hok
    | ok =>
      subst hpath hl'
      obtain ⟨name, hname⟩ := exists_fileName?_of_finished hstops
      obtain ⟨hdirectory, hloads⟩ := openAt_of_finished hname hsound hstops
      exact ⟨rfl, rfl, rfl, hsound, hdirectory, hloads, hsame⟩

namespace Kept
variable {s : FileTree × FileLedger}

theorem get?_eq (h : Kept path s m) (key : String) : m.get? key = s.2.get? key := by
  rw [MemoryLedger.get?, h.same, Keyed.lookup_mapValues]
  rfl

theorem keys_eq (h : Kept path s m) : m.keys = s.2.keys := by
  rw [MemoryLedger.keys, h.same, Keyed.keys_mapValues]
  rfl

/-- Forgetting what is not recorded is no change of a ledger in memory. -/
theorem erase_of_absent (h : Kept path s m) {key : String} (hnone : (s.2.get? key).isNone = true) :
    m.erase key = m := by
  have hlookup : m.records.lookup key = none := by
    rw [← Option.isNone_iff_eq_none]
    exact (congrArg Option.isNone (h.get?_eq key)).trans hnone
  rw [MemoryLedger.erase, Keyed.drop_of_lookup hlookup]

/-- Ledgers that record the same do so after a write of both. -/
theorem same_put (h : Kept path s m) (now : Timestamp) (key : String) (ips : List String) :
    (m.put key ips).records =
      Keyed.mapValues LedgerRecord.forwardedIps (s.2.put now key ips).records := by
  rw [MemoryLedger.put, h.same]
  exact Keyed.put_mapValues LedgerRecord.forwardedIps key ⟨ips, now⟩ s.2.records

/-- Ledgers that record the same do so after a deletion from both. -/
theorem same_erase (h : Kept path s m) (key : String) :
    (m.erase key).records = Keyed.mapValues LedgerRecord.forwardedIps (s.2.erase key).records := by
  rw [MemoryLedger.erase, h.same]
  exact Keyed.drop_mapValues LedgerRecord.forwardedIps key s.2.records

/-- A call that is answered keeps the ledger, and a ledger in memory answers the same. -/
theorem turn (h : Kept path s m) {call : Timestamp × LedgerCall} (hclock : call.1.Valid)
    (hok : (FileLedger.turn call s).1.isOk = true) :
    (FileLedger.turn call s).1 = (call.2.answer m).1 ∧
      Kept path (FileLedger.turn call s).2 (call.2.answer m).2 := by
  obtain ⟨now, call⟩ := call
  obtain ⟨t, l⟩ := s
  cases call with
  | read key =>
    rw [turn_read, ← h.get?_eq]
    exact ⟨rfl, h⟩
  | list =>
    rw [turn_list, ← h.keys_eq]
    exact ⟨rfl, h⟩
  | write key ips =>
    rw [turn_write] at hok ⊢
    exact kept_of_saved h.path_eq (h.sound.put key hclock) (h.same_put now key ips) hok
  | delete key =>
    rw [turn_delete] at hok ⊢
    split at hok
    · next hnone =>
      -- Nothing is written, and a ledger in memory drops nothing.
      rw [if_pos hnone]
      refine ⟨rfl, ?_⟩
      show Kept path (t, l) (m.erase key)
      rw [h.erase_of_absent hnone]
      exact h
    · next hsome =>
      rw [if_neg hsome]
      exact kept_of_saved h.path_eq (h.sound.drop key) (h.same_erase key) hok
  | flush =>
    -- A kept ledger is clean, so a flush has nothing to write.
    rw [turn_flush, h.clean, if_neg Bool.false_ne_true]
    exact ⟨rfl, h⟩

end Kept

theorem mapM_nil {σ α β : Type} (f : α → StateM σ β) (s : σ) : [].mapM f s = ([], s) := rfl

theorem mapM_cons {σ α β : Type} (f : α → StateM σ β) (a : α) (as : List α) (s : σ) :
    (a :: as).mapM f s =
      ((f a s).1 :: (as.mapM f (f a s).2).1, (as.mapM f (f a s).2).2) := run_mapM_cons f a as s

theorem mapM_append {σ α β : Type} (f : α → StateM σ β) (as bs : List α) (s : σ) :
    (as ++ bs).mapM f s =
      ((as.mapM f s).1 ++ (bs.mapM f (as.mapM f s).2).1, (bs.mapM f (as.mapM f s).2).2) := by
  rw [List.mapM_append]
  rfl

/-- The calls of a session keep the ledger, and a ledger in memory answers them the same. -/
theorem Kept.turns {s : FileTree × FileLedger} (h : Kept path s m)
    {calls : List (Timestamp × LedgerCall)} (hclock : ∀ c ∈ calls, c.1.Valid)
    (hok : ∀ a ∈ (calls.mapM FileLedger.turn s).1, a.isOk = true) :
    (calls.mapM FileLedger.turn s).1 = ((calls.map Prod.snd).mapM LedgerCall.answer m).1 ∧
      Kept path (calls.mapM FileLedger.turn s).2
        ((calls.map Prod.snd).mapM LedgerCall.answer m).2 := by
  induction calls generalizing s m with
  | nil => exact ⟨rfl, h⟩
  | cons call calls ih =>
    obtain ⟨hcall, hcalls⟩ := List.forall_mem_cons.mp hclock
    rw [mapM_cons] at hok ⊢
    rw [List.map_cons, mapM_cons]
    obtain ⟨hanswer, hanswers⟩ := List.forall_mem_cons.mp hok
    obtain ⟨hsame, hkept⟩ := h.turn hcall hanswer
    obtain ⟨hrest, hkept'⟩ := ih hkept hcalls hanswers
    rw [hsame, hrest]
    exact ⟨rfl, hkept'⟩

/-- Opening the ledger finds what a ledger in memory holds. -/
def Opens (path : String) (t : FileTree) (m : MemoryLedger) : Prop :=
  ∃ l t', (openAt path).run t = (.ok l, t') ∧ Kept path (t', l) m

/-- A ledger that is kept is found again, and opening it changes nothing. -/
theorem Kept.opens (h : Kept path (t, l) m) : Opens path t m := by
  obtain ⟨hpath, hclean, -, hdirectory, hloads, -⟩ := id h
  have hopen := openAt_of_load hdirectory hloads
  rw [eq_of_clean hpath hclean] at hopen
  exact ⟨l, t, hopen, h⟩

/-- A ledger whose file is not there opens empty. -/
theorem opens_of_absent (hdir : Prepares t path t') (habsent : t'.contains path = false) :
    Opens path t {} := by
  have hload : load t' path = .ok [] := load_of_absent habsent
  have hopen := openAt_of_prepares hdir
  rw [loadOrRecover_of_ok hload] at hopen
  exact ⟨⟨path, [], false⟩, t', hopen, rfl, rfl, LedgerDocument.sound_nil,
    missingDirectory?_of_prepares hdir, hload, rfl⟩

theorem sessions_of_opens {sessions : List (List (Timestamp × LedgerCall))} (h : Opens path t m)
    (hclock : ∀ calls ∈ sessions, ∀ c ∈ calls, c.1.Valid)
    (hok : ∀ a ∈ (FileLedger.sessions path sessions t).1.answers, a.isOk = true) :
    (FileLedger.sessions path sessions t).1 =
      ⟨((sessions.flatten.map Prod.snd).mapM LedgerCall.answer m).1, none⟩ := by
  induction sessions generalizing t m with
  | nil => rfl
  | cons calls sessions ih =>
    obtain ⟨hcalls, hsessions⟩ := List.forall_mem_cons.mp hclock
    obtain ⟨l, t', hopen, hkept⟩ := h
    rw [sessions_cons hopen] at hok ⊢
    obtain ⟨hfirst, hlater⟩ := List.forall_mem_append.mp hok
    obtain ⟨hsame, hkept'⟩ := hkept.turns hcalls hfirst
    rw [List.flatten_cons, List.map_append, mapM_append, hsame,
      ih hkept'.opens hsessions hlater]
    rfl

/-- A ledger in a file that was not there is opened again whenever it has been closed, and answers
as a ledger in memory does, if none of the calls fails. -/
theorem restarts_unnoticed {sessions : List (List (Timestamp × LedgerCall))}
    (hdir : Prepares t path t') (habsent : t'.contains path = false)
    (hclock : ∀ calls ∈ sessions, ∀ c ∈ calls, c.1.Valid)
    (hok : ∀ a ∈ ((FileLedger.sessions path sessions).run t).1.answers, a.isOk = true) :
    ((FileLedger.sessions path sessions).run t).1 =
      ⟨(((sessions.flatten.map Prod.snd).mapM LedgerCall.answer).run ({} : MemoryLedger)).1,
        none⟩ :=
  sessions_of_opens (opens_of_absent hdir habsent) hclock hok

/-- An address with a quote and a line break in it is found again after a restart. -/
theorem written_record_found_again :
    let ips := ["10.0.0.5", "\"\n"]
    let sessions : List (List (Timestamp × LedgerCall)) :=
      [[(⟨0, 0, 0⟩, .write "eth0" ips)], [(⟨0, 0, 0⟩, .read "eth0")]]
    let answers : List LedgerAnswer := [.done (.ok ()), .found (.ok (some ips))]
    let t : FileTree := {}
    Prepares t "ledger.json" t ∧ t.contains "ledger.json" = false ∧
      ((FileLedger.sessions "ledger.json" sessions).run t).1 = ⟨answers, none⟩ ∧
      answers = (((sessions.flatten.map Prod.snd).mapM LedgerCall.answer).run
        ({} : MemoryLedger)).1 := by
  intro ips sessions answers t
  have hdir : Prepares t "ledger.json" t := rfl
  have habsent : t.contains "ledger.json" = false := rfl
  have hrun : ((FileLedger.sessions "ledger.json" sessions).run t).1 = ⟨answers, none⟩ := by
    obtain ⟨l, hl⟩ : ∃ l, (⟨"ledger.json", [], false⟩ : FileLedger).put ⟨0, 0, 0⟩ "eth0" ips = l :=
      ⟨_, rfl⟩
    have hpath : l.path = "ledger.json" := by rw [← hl]; rfl
    have hsound : LedgerDocument.Sound l.records := by
      rw [← hl]
      exact LedgerDocument.sound_nil.put "eth0" Timestamp.valid_epoch
    have hfound : l.get? "eth0" = some ips := by rw [← hl]; rfl
    let written : FileTree := ⟨[(["ledger.json"], .file l.text.toByteArray)]⟩
    have hopened : (openAt "ledger.json").run t = (.ok ⟨"ledger.json", [], false⟩, t) := rfl
    have hsteps (text : String) : (runSteps (writeSteps "ledger.json" text)).run t =
      (.ok (), ⟨[(["ledger.json"], .file text.toByteArray)]⟩) := rfl
    have hwrite : turn (⟨0, 0, 0⟩, .write "eth0" ips) (t, ⟨"ledger.json", [], false⟩) =
        (.done (.ok ()), (written, { l with dirty := false })) := by
      rw [turn_write, hl]
      refine saved_of_runSteps ?_
      rw [hpath]
      exact hsteps l.text
    have hfile (content : ByteArray) :
        let written : FileTree := ⟨[(["ledger.json"], .file content)]⟩
        missingDirectory? written "ledger.json" = none ∧
          load written "ledger.json" = decode content := ⟨rfl, load_of_read rfl rfl⟩
    have hreopened : (openAt "ledger.json").run written =
        (.ok ⟨"ledger.json", l.records, false⟩, written) :=
      openAt_of_load (hfile l.text.toByteArray).1
        ((hfile l.text.toByteArray).2.trans (decode_text hsound))
    have hread : turn (⟨0, 0, 0⟩, .read "eth0") (written, ⟨"ledger.json", l.records, false⟩) =
        (.found (.ok (some ips)), (written, ⟨"ledger.json", l.records, false⟩)) := by
      rw [turn_read]
      exact congrArg (fun found => (LedgerAnswer.found (.ok found), _)) hfound
    -- The text written stays closed, so that no step below prints it.
    clear_value written
    rw [StateT.run, sessions_cons hopened, mapM_cons, hwrite]
    simp only [mapM_nil]
    rw [sessions_cons hreopened, mapM_cons, hread]
    rfl
  have hclock : ∀ calls ∈ sessions, ∀ c ∈ calls, c.1.Valid := by
    simp [sessions, Timestamp.valid_epoch]
  have hok : ∀ a ∈ ((FileLedger.sessions "ledger.json" sessions).run t).1.answers,
      a.isOk = true := by
    rw [hrun]
    decide
  have hsame := restarts_unnoticed hdir habsent hclock hok
  exact ⟨hdir, habsent, hrun, congrArg Transcript.answers (hrun.symm.trans hsame)⟩

end FileLedger
end ForwardedIp
