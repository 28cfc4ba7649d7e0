import ForwardedIp.Fault
import ForwardedIp.Files.FileSystem
import ForwardedIp.Files.Path
import ForwardedIp.Ledger.Document
import ForwardedIp.Ledger.Store
/-!
# Ledgers in files

Every change is written at once: the new document goes to a temporary file, the old file is
copied to a backup, and the temporary file takes the place of the old one in one step. A file that
holds no ledger document is replaced by its backup, and by an empty ledger if that holds none
either. After a failed write memory is ahead of the disk, which the dirty mark remembers.
-/
namespace ForwardedIp

/-- An open ledger file with its records in memory. -/
structure FileLedger where
  path : String
  records : List (String × LedgerRecord)
  dirty : Bool
  deriving DecidableEq

namespace FileLedger

variable {F : Type} [FileSystem F]

/-- The file that a new document is written to first. -/
def temporary (path : String) : String := Path.withExtension path "tmp"

/-- The file that keeps the document before the last one. -/
def backup (path : String) : String := Path.withExtension path "backup"

/-- Why a ledger could not be loaded from a file: the file, or the document in it. -/
inductive LoadFault where
  | file (fault : TextFault)
  | document (defect : Json.Defect)

/-- The records in a file. A file that is not there holds none. -/
def load (files : F) (path : String) : Except LoadFault (List (String × LedgerRecord)) :=
  if FileSystem.contains files path then
    match FileSystem.readText files path with
    | .error fault => .error (.file fault)
    | .ok text =>
        match LedgerDocument.parse text with
        | .ok d => .ok d.records
        | .error defect => .error (.document defect)
  else .ok []

/-- The records to start with when the ledger file holds no document: those of the backup, which
is then copied back if it can be. -/
def recover (path : String) : StateM F (List (String × LedgerRecord)) := fun files =>
  if FileSystem.contains files (backup path) then
    match load files (backup path) with
    | .ok records => (records, (FileSystem.perform (.copy (backup path) path) files).2)
    | .error _ => ([], files)
  else ([], files)

/-- A failure of the file system with a ledger file. -/
def ioFault (action path message : String) : Fault :=
  .ledger ("Failed to " ++ action ++ " ledger file " ++ path ++ ": " ++ message)

/-- The directory to create before a ledger is opened: the one that holds the file, if missing. -/
def missingDirectory? (files : F) (path : String) : Option String :=
  (Path.parent? path).filter fun dir => dir ≠ "" && !FileSystem.contains files dir

/-- The records to start with. Only a file that cannot be read at all is a fault. -/
def loadOrRecover (path : String) : StateM F (Except Fault (List (String × LedgerRecord))) := do
  match load (← get) path with
  | .ok records => return .ok records
  | .error (.document _) => return .ok (← recover path)
  | .error (.file fault) => return .error (ioFault "read" path fault.message)

/-- Opens a ledger file. -/
def openAt (path : String) : StateM F (Except Fault FileLedger) := do
  match missingDirectory? (← get) path with
  | some dir =>
      match ← (FileSystem.perform (.createDirectories dir) : StateM F (Except IoFault Unit)) with
      | .error fault => return .error (.config
          ("Failed to create ledger directory " ++ dir ++ ": " ++ fault.message))
      | .ok () => pure ()
  | none => pure ()
  return (← loadOrRecover path).map fun records => ⟨path, records, false⟩

/-- A step of writing: what it does to the files, and what it is called if its failure counts. -/
structure WriteStep where
  effect : FileEffect
  failure : Option (String × String)

/-- The steps that put a document in the place of the ledger file. The old file is copied only if
it is there, and a failed copy stops nothing. -/
def writeSteps (path text : String) : List WriteStep :=
  [⟨.create (temporary path), some ("create", temporary path)⟩,
    ⟨.write (temporary path) text.toByteArray, some ("write", temporary path)⟩,
    ⟨.sync (temporary path), some ("sync", temporary path)⟩,
    ⟨.copy path (backup path), none⟩,
    ⟨.rename (temporary path) path, some ("replace", path)⟩]

/-- Carries out steps up to the first failure that counts. -/
def runSteps : List WriteStep → StateM F (Except Fault Unit)
  | [] => return .ok ()
  | step :: rest => do
      match ← (FileSystem.perform step.effect : StateM F (Except IoFault Unit)), step.failure with
      | .error fault, some (action, path) => return .error (ioFault action path fault.message)
      | _, _ => runSteps rest

/-- The text of the ledger as it is in memory. -/
def text (l : FileLedger) : String := (LedgerDocument.ofRecords l.records).text

/-- Writes the ledger as it is in memory. -/
def save (l : FileLedger) : StateM F (Except Fault Unit × FileLedger) := do
  match ← (runSteps (writeSteps l.path l.text) : StateM F (Except Fault Unit)) with
  | .ok () => return (.ok (), { l with dirty := false })
  | .error fault => return (.error fault, l)

def get? (l : FileLedger) (key : String) : Option (List String) :=
  (l.records.lookup key).map LedgerRecord.forwardedIps

/-- Replaces a record in memory, stamped with the time. -/
def put (l : FileLedger) (now : Timestamp) (key : String) (ips : List String) : FileLedger :=
  { l with records := Keyed.put key ⟨ips, now⟩ l.records, dirty := true }

def erase (l : FileLedger) (key : String) : FileLedger :=
  { l with records := Keyed.drop key l.records, dirty := true }

def keys (l : FileLedger) : List String := Keyed.keys l.records

end FileLedger

/-- A ledger file, the files around it, and the clock that stamps its records. -/
structure FileLedgerSite (F : Type) where
  files : F
  ledger : FileLedger
  now : Timestamp

namespace FileLedgerSite

variable {F : Type} [FileSystem F]

/-- Writes a ledger and keeps what came of it. -/
def save (l : FileLedger) : StateM (FileLedgerSite F) (Except Fault Unit) := fun s =>
  let ((result, ledger), files) := l.save s.files
  (result, { s with files, ledger })

/-- Deleting an absent record and flushing a clean ledger write nothing. -/
instance : LedgerStore (FileLedgerSite F) where
  read key := return .ok ((← get).ledger.get? key)
  write key ips := do
    let s ← get
    save (s.ledger.put s.now key ips)
  delete key := do
    let s ← get
    if (s.ledger.get? key).isNone then return .ok () else save (s.ledger.erase key)
  list := return .ok (← get).ledger.keys
  flush := do
    let s ← get
    if s.ledger.dirty then save s.ledger else return .ok ()

end FileLedgerSite

end ForwardedIp
