import ForwardedIp.Config.Basic
import ForwardedIp.Ledger.File
import ForwardedIp.Ledger.Memory
/-!
# Open ledgers

A ledger of either kind, with the files and the clock around it.
-/
namespace ForwardedIp

/-- An open ledger of either kind. -/
inductive OpenLedger where
  | memory (l : MemoryLedger)
  | file (l : FileLedger)
  deriving DecidableEq

/-- An open ledger with the files around it and the clock that stamps its records. -/
structure LedgerSite (F : Type) where
  files : F
  ledger : OpenLedger
  now : Timestamp

/-- Opens the ledger that a configuration names. -/
def LedgerConfig.openLedger {F : Type} [FileSystem F] :
    LedgerConfig → StateM F (Except Fault OpenLedger)
  | .memory => return .ok (.memory {})
  | .file path => return (← FileLedger.openAt path).map .file

namespace LedgerSite

variable {F : Type} [FileSystem F]

/-- Runs the action for the kind of ledger that is open. -/
def within (onMemory : StateM MemoryLedger α) (onFile : StateM (FileLedgerSite F) α) :
    StateM (LedgerSite F) α := fun s =>
  match s.ledger with
  | .memory l =>
      let (a, l) := onMemory l
      (a, { s with ledger := .memory l })
  | .file l =>
      let (a, t) := onFile ⟨s.files, l, s.now⟩
      (a, { s with files := t.files, ledger := .file t.ledger })

instance : LedgerStore (LedgerSite F) where
  read key := within (LedgerStore.read key) (LedgerStore.read key)
  write key ips := within (LedgerStore.write key ips) (LedgerStore.write key ips)
  delete key := within (LedgerStore.delete key) (LedgerStore.delete key)
  list := within LedgerStore.list LedgerStore.list
  flush := within LedgerStore.flush LedgerStore.flush

end LedgerSite

end ForwardedIp
