import ForwardedIp.Files.FileTree
import ForwardedIp.Ledger.File
import ForwardedIp.Proofs.LedgerDocuments
/-!
# Opening ledgers

What an opening starts with, by the contents of the ledger file and of its backup. A ledger file
whose text is no ledger document is replaced by its backup, and by an empty ledger if that holds
none either. A ledger file that is no text at all is not: it keeps the ledger from being opened,
with whatever backup, although it is as corrupt as the others.
-/
namespace ForwardedIp.FileLedger

variable {F : Type} [FileSystem F] {files files' : F} {path : String}
  {records : List (String × LedgerRecord)}

/-- The records that the content of a file decodes to. -/
def decode (content : ByteArray) : Except LoadFault (List (String × LedgerRecord)) :=
  match String.fromUTF8? content with
  | none => .error (.file .notUtf8)
  | some text =>
      match LedgerDocument.parse text with
      | .ok d => .ok d.records
      | .error defect => .error (.document defect)

/-- The records that an opening should start with: those of the ledger file, or else those of its
backup. No file holds no records, and neither do two corrupt ones. -/
def startingRecords : Option ByteArray → Option ByteArray → List (String × LedgerRecord)
  | none, _ => []
  | some content, kept =>
      ((decode content).toOption.orElse fun _ => kept.bind fun c => (decode c).toOption).getD []

theorem startingRecords_of_kept {content kept : ByteArray} {fault : LoadFault}
    (hcontent : decode content = .error fault) (hkept : decode kept = .ok records) :
    startingRecords (some content) (some kept) = records := by
  simp only [startingRecords, hcontent, Option.bind_some, hkept]
  rfl

/-- A file that can be read has this content, or there is no file. -/
def Stands (files : F) (path : String) : Option ByteArray → Prop
  | none => FileSystem.contains files path = false
  | some content =>
      FileSystem.contains files path = true ∧ FileSystem.read files path = .ok content

/-- The directory of a ledger is there, or is created. -/
def Prepares (files : F) (path : String) (files' : F) : Prop :=
  match missingDirectory? files path with
  | none => files' = files
  | some dir => FileSystem.perform (.createDirectories dir) files = (.ok (), files')

theorem fromUTF8?_toByteArray (text : String) : String.fromUTF8? text.toByteArray = some text := by
  rw [String.fromUTF8?, dif_pos text.isValidUTF8]
  rfl

theorem decode_text (h : LedgerDocument.Sound records) :
    decode (LedgerDocument.ofRecords records).text.toByteArray = .ok records := by
  simp only [decode, fromUTF8?_toByteArray, LedgerDocument.parse_text h]
  rfl

theorem decode_of_defect {text : String} {defect : Json.Defect}
    (h : LedgerDocument.parse text = .error defect) :
    decode text.toByteArray = .error (.document defect) := by
  simp only [decode, fromUTF8?_toByteArray, h]

theorem openAt_of_prepares (h : Prepares files path files') :
    (openAt path).run files =
      ((loadOrRecover path files').1.map fun records => ⟨path, records, false⟩,
        (loadOrRecover path files').2) := by
  unfold Prepares at h
  unfold openAt
  split at h
  · next hdir =>
    subst h
    simp only [StateT.run_bind, StateT.run_get, pure_bind, hdir]
    rfl
  · next dir hdir =>
    simp only [StateT.run_bind, StateT.run_get, pure_bind, hdir]
    simp only [StateT.run, h]
    rfl

theorem openAt_of_refused {dir : String} {fault : IoFault}
    (hdir : missingDirectory? files path = some dir)
    (h : FileSystem.perform (.createDirectories dir) files = (.error fault, files')) :
    (openAt path).run files = (.error (.config
      ("Failed to create ledger directory " ++ dir ++ ": " ++ fault.message)), files') := by
  unfold openAt
  simp only [StateT.run_bind, StateT.run_get, pure_bind, hdir]
  simp only [StateT.run, h]
  rfl

/-- An opening that succeeds has found its directory or created it. -/
theorem exists_prepares {l : FileLedger} (h : ((openAt path).run files).1 = .ok l) :
    ∃ files', Prepares files path files' := by
  cases hdir : missingDirectory? files path with
  | none => exact ⟨files, by rw [Prepares, hdir]⟩
  | some dir =>
    cases hcreate : FileSystem.perform (.createDirectories dir) files with
    | mk result files' =>
      cases result with
      | ok => exact ⟨files', by rw [Prepares, hdir]; exact hcreate⟩
      | error fault =>
        rw [openAt_of_refused hdir hcreate] at h
        cases h

theorem loadOrRecover_of_ok (h : load files path = .ok records) :
    loadOrRecover path files = (.ok records, files) := by
  show (loadOrRecover path).run files = _
  unfold loadOrRecover
  simp only [StateT.run_bind, StateT.run_get, pure_bind, h]
  rfl

theorem loadOrRecover_of_document {defect : Json.Defect}
    (h : load files path = .error (.document defect)) :
    loadOrRecover path files = (.ok (recover path files).1, (recover path files).2) := by
  show (loadOrRecover path).run files = _
  unfold loadOrRecover
  simp only [StateT.run_bind, StateT.run_get, pure_bind, h]
  rfl

theorem loadOrRecover_of_file {fault : TextFault} (h : load files path = .error (.file fault)) :
    loadOrRecover path files = (.error (ioFault "read" path fault.message), files) := by
  show (loadOrRecover path).run files = _
  unfold loadOrRecover
  simp only [StateT.run_bind, StateT.run_get, pure_bind, h]
  rfl

/-- A ledger that can be loaded opens with what is loaded, and nothing else happens. -/
theorem openAt_of_load (hdir : missingDirectory? files path = none)
    (h : load files path = .ok records) :
    (openAt path).run files = (.ok ⟨path, records, false⟩, files) := by
  have hprepares : Prepares files path files := by rw [Prepares, hdir]
  rw [openAt_of_prepares hprepares, loadOrRecover_of_ok h]
  rfl

theorem load_of_absent (h : FileSystem.contains files path = false) :
    load files path = .ok [] := by
  rw [load, h]
  rfl

theorem load_of_read {content : ByteArray} (hcontains : FileSystem.contains files path = true)
    (hread : FileSystem.read files path = .ok content) : load files path = decode content := by
  unfold load decode FileSystem.readText
  rw [if_pos hcontains]
  simp only [hread]
  cases String.fromUTF8? content <;> rfl

/-- A ledger is recovered from a backup that decodes, and is empty otherwise. -/
theorem recover_fst {kept : Option ByteArray} (h : Stands files (backup path) kept) :
    (recover path files).1 = (kept.bind fun content => (decode content).toOption).getD [] := by
  cases kept with
  | none =>
    have habsent : FileSystem.contains files (backup path) = false := h
    simp only [recover, habsent]
    rfl
  | some content =>
    simp only [recover, h.1, load_of_read h.1 h.2, if_true, Option.bind_some]
    cases decode content <;> rfl

theorem sound_of_load (h : load files path = .ok records) : LedgerDocument.Sound records := by
  unfold load at h
  split at h
  · split at h
    · cases h
    · split at h
      · next d hparse =>
        cases h
        exact LedgerDocument.sound_of_parse hparse
      · cases h
  · cases h
    exact LedgerDocument.sound_nil

theorem sound_of_recover (path : String) (files : F) :
    LedgerDocument.Sound (recover path files).1 := by
  unfold recover
  split
  · split
    · next hload => exact sound_of_load hload
    · exact LedgerDocument.sound_nil
  · exact LedgerDocument.sound_nil

/-- An opened ledger is clean and holds records that a ledger can hold. -/
theorem sound_of_openAt {l : FileLedger} (h : ((openAt path).run files).1 = .ok l) :
    l.path = path ∧ l.dirty = false ∧ LedgerDocument.Sound l.records := by
  obtain ⟨files', hprepares⟩ := exists_prepares h
  rw [openAt_of_prepares hprepares] at h
  cases hload : load files' path with
  | ok records =>
    rw [loadOrRecover_of_ok hload] at h
    cases h
    exact ⟨rfl, rfl, sound_of_load hload⟩
  | error fault =>
    cases fault with
    | file fault =>
      rw [loadOrRecover_of_file hload] at h
      cases h
    | document defect =>
      rw [loadOrRecover_of_document hload] at h
      cases h
      exact ⟨rfl, rfl, sound_of_recover path files'⟩

/-- A ledger opens with the records it should start with, unless its file is there and no text:
then it does not open at all. -/
theorem opens_recovered_iff {content kept : Option ByteArray} (hdir : Prepares files path files')
    (hledger : Stands files' path content) (hbackup : Stands files' (backup path) kept) :
    (((openAt path).run files).1 = .ok ⟨path, startingRecords content kept, false⟩ ↔
      ∀ bytes, content = some bytes → (String.fromUTF8? bytes).isSome) ∧
    ((∃ bytes, content = some bytes ∧ String.fromUTF8? bytes = none) →
      ((openAt path).run files).1 =
        .error (ioFault "read" path "stream did not contain valid UTF-8")) := by
  have hrefused : ∀ bytes, content = some bytes → String.fromUTF8? bytes = none →
      ((openAt path).run files).1 =
        .error (ioFault "read" path "stream did not contain valid UTF-8") := by
    rintro bytes rfl htext
    have hload : load files' path = .error (.file .notUtf8) := by
      rw [load_of_read hledger.1 hledger.2, decode, htext]
    rw [openAt_of_prepares hdir, loadOrRecover_of_file hload]
    rfl
  refine ⟨⟨fun hopens bytes hcontent => ?_, fun htext => ?_⟩,
    fun ⟨bytes, hcontent, htext⟩ => hrefused bytes hcontent htext⟩
  · cases hbytes : String.fromUTF8? bytes with
    | some text => rfl
    | none =>
      rw [hrefused bytes hcontent hbytes] at hopens
      cases hopens
  · rw [openAt_of_prepares hdir]
    cases content with
    | none =>
      rw [loadOrRecover_of_ok (load_of_absent hledger)]
      rfl
    | some bytes =>
      obtain ⟨text, hbytes⟩ := Option.isSome_iff_exists.mp (htext bytes rfl)
      have hload : load files' path = decode bytes := load_of_read hledger.1 hledger.2
      cases hdoc : LedgerDocument.parse text with
      | ok d =>
        have hdecode : decode bytes = .ok d.records := by simp only [decode, hbytes, hdoc]
        rw [hdecode] at hload
        rw [loadOrRecover_of_ok hload, startingRecords, hdecode]
        rfl
      | error defect =>
        have hdecode : decode bytes = .error (.document defect) := by
          simp only [decode, hbytes, hdoc]
        rw [hdecode] at hload
        rw [loadOrRecover_of_document hload, recover_fst hbackup, startingRecords, hdecode]
        rfl

/-- A ledger file that breaks off is replaced by its backup. -/
theorem torn_ledger_recovered :
    let records := [("02:00:00:00:00:0a", (⟨["10.0.0.5"], ⟨0, 0, 0⟩⟩ : LedgerRecord))]
    let kept := (LedgerDocument.ofRecords records).text.toByteArray
    let files : FileTree := ⟨[(["ledger.json"], .file "\x7b".toByteArray),
      (["ledger.backup"], .file kept)]⟩
    Prepares files "ledger.json" files ∧
      Stands files "ledger.json" (some "\x7b".toByteArray) ∧
      Stands files (backup "ledger.json") (some kept) ∧
      ((openAt "ledger.json").run files).1 = .ok ⟨"ledger.json", records, false⟩ := by
  intro records kept files
  have hsound : LedgerDocument.Sound records := LedgerDocument.sound_nil.put _ Timestamp.valid_epoch
  have hkept : decode kept = .ok records := decode_text hsound
  clear_value kept
  have hdir : Prepares files "ledger.json" files := rfl
  have hledger : Stands files "ledger.json" (some "\x7b".toByteArray) := ⟨rfl, rfl⟩
  have hbackup : Stands files (backup "ledger.json") (some kept) := ⟨rfl, rfl⟩
  have hstart : startingRecords (some "\x7b".toByteArray) (some kept) = records := by
    have htorn : decode "\x7b".toByteArray = .error (.document .truncated) := rfl
    exact startingRecords_of_kept htorn hkept
  refine ⟨hdir, hledger, hbackup, ?_⟩
  rw [← hstart]
  refine (opens_recovered_iff hdir hledger hbackup).1.mpr fun bytes hbytes => ?_
  cases hbytes
  rfl

/-- A ledger file with a byte that is no text is not replaced by its backup, which is good. -/
theorem garbled_ledger_refused :
    let records := [("02:00:00:00:00:0a", (⟨["10.0.0.5"], ⟨0, 0, 0⟩⟩ : LedgerRecord))]
    let kept := (LedgerDocument.ofRecords records).text.toByteArray
    let files : FileTree := ⟨[(["ledger.json"], .file ⟨#[0xff]⟩),
      (["ledger.backup"], .file kept)]⟩
    Prepares files "ledger.json" files ∧
      Stands files "ledger.json" (some ⟨#[0xff]⟩) ∧
      Stands files (backup "ledger.json") (some kept) ∧
      startingRecords (some ⟨#[0xff]⟩) (some kept) = records ∧
      ((openAt "ledger.json").run files).1 = .error (.ledger
        "Failed to read ledger file ledger.json: stream did not contain valid UTF-8") := by
  intro records kept files
  have hsound : LedgerDocument.Sound records := LedgerDocument.sound_nil.put _ Timestamp.valid_epoch
  have hkept : decode kept = .ok records := decode_text hsound
  clear_value kept
  have hstart : startingRecords (some ⟨#[0xff]⟩) (some kept) = records := by
    have hgarbled : decode ⟨#[0xff]⟩ = .error (.file .notUtf8) := rfl
    exact startingRecords_of_kept hgarbled hkept
  exact ⟨rfl, ⟨rfl, rfl⟩, ⟨rfl, rfl⟩, hstart, rfl⟩

end ForwardedIp.FileLedger
