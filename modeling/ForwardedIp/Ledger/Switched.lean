import ForwardedIp.Ledger.Store
/-!
# Ledgers that can be made to fail

A store behind two switches, for rehearsing failures.
-/
namespace ForwardedIp

/-- What reading a record does. -/
inductive ReadSwitch where
  | works
  | fails
  | findsNothing
  deriving DecidableEq

/-- A store with its switches. -/
structure SwitchedLedger (L : Type) where
  store : L
  reading : ReadSwitch := .works
  writeFails : Bool := false

namespace SwitchedLedger

variable {L : Type} [LedgerStore L]

/-- Runs an operation on the store inside. -/
def inside (action : StateM L α) : StateM (SwitchedLedger L) α := fun s =>
  let (a, store) := action s.store
  (a, { s with store })

instance : LedgerStore (SwitchedLedger L) where
  read key := do
    match (← get).reading with
    | .works => inside (LedgerStore.read key)
    | .fails => return .error (.ledger "ledger unreadable")
    | .findsNothing => return .error (.notFound key)
  write key ips := do
    if (← get).writeFails then return .error (.ledger "ledger unwritable")
    else inside (LedgerStore.write key ips)
  delete key := inside (LedgerStore.delete key)
  list := inside LedgerStore.list
  flush := inside LedgerStore.flush

end SwitchedLedger

end ForwardedIp
