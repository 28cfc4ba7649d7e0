import ForwardedIp.Keyed
import ForwardedIp.Ledger.Store
/-!
# Ledgers in memory

A ledger that never fails and does not outlive the process.
-/
namespace ForwardedIp

structure MemoryLedger where
  records : List (String × List String) := []
  deriving DecidableEq

namespace MemoryLedger

def get? (l : MemoryLedger) (key : String) : Option (List String) := l.records.lookup key

def put (l : MemoryLedger) (key : String) (ips : List String) : MemoryLedger :=
  ⟨Keyed.put key ips l.records⟩

def erase (l : MemoryLedger) (key : String) : MemoryLedger := ⟨Keyed.drop key l.records⟩

def keys (l : MemoryLedger) : List String := Keyed.keys l.records

def size (l : MemoryLedger) : Nat := l.records.length

instance : LedgerStore MemoryLedger where
  read key := fun l => (.ok (l.get? key), l)
  write key ips := fun l => (.ok (), l.put key ips)
  delete key := fun l => (.ok (), l.erase key)
  list := fun l => (.ok l.keys, l)
  flush := fun l => (.ok (), l)

@[simp] theorem get?_put_self (l : MemoryLedger) (key : String) (ips : List String) :
    (l.put key ips).get? key = some ips := by simp [get?, put]

theorem get?_put_of_ne {key other : String} (h : other ≠ key) (l : MemoryLedger)
    (ips : List String) : (l.put key ips).get? other = l.get? other := by
  simp [get?, put, Keyed.lookup_put_of_ne h]

@[simp] theorem get?_erase_self (l : MemoryLedger) (key : String) :
    (l.erase key).get? key = none := by simp [get?, erase]

theorem get?_erase_of_ne {key other : String} (h : other ≠ key) (l : MemoryLedger) :
    (l.erase key).get? other = l.get? other := by
  simp [get?, erase, Keyed.lookup_drop_of_ne h]

end MemoryLedger

end ForwardedIp
