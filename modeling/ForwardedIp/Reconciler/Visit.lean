import ForwardedIp.Reconciler.AddressDiff
import ForwardedIp.Reconciler.Site
import ForwardedIp.Snapshot
import ForwardedIp.Text.Quoted
/-!
# Visiting one interface

A declared interface is matched to a live one by its hardware address. What is bound there and
what the ledger records are read, the difference to what is wanted is carried out, additions
before removals, and the ledger gets a new record: what was wanted, without the addresses that
could not be bound, and with those that could not be removed. A visit remembers everything that
happened; it looks at nothing but the declaration and the site.
-/
namespace ForwardedIp

/-- An address that was to be bound or unbound, and what came of it. -/
structure Attempt where
  ip : String
  answer : Except Fault Unit

namespace Attempt

def fault? (a : Attempt) : Option Fault :=
  match a.answer with
  | .ok _ => none
  | .error fault => some fault

def failed (a : Attempt) : Bool := a.fault?.isSome

end Attempt

/-- What was found and done on a live interface. -/
structure Work where
  mac : Mac
  iface : LiveInterface
  /-- The comparison forms of the addresses that were bound. -/
  bound : List String
  /-- The addresses of the ledger's record. -/
  recorded : List String
  /-- Declared texts that are no address. -/
  rejected : List String
  /-- Declared addresses, each once. -/
  wanted : List String
  binds : List Attempt
  unbinds : List Attempt
  /-- The new record. -/
  next : List String
  saved : Except Fault Unit

/-- What came of a declared interface. -/
inductive Visit where
  /-- The text is no hardware address. -/
  | unparseable (raw : String)
  /-- No live interface has the hardware address. -/
  | unmatched (raw : String) (mac : Mac)
  /-- The addresses of the interface could not be read. -/
  | unreadable (mac : Mac) (iface : LiveInterface) (fault : Fault)
  /-- The ledger could not be read. -/
  | unrecorded (mac : Mac) (iface : LiveInterface) (fault : Fault)
  | reconciled (work : Work)

namespace Visit

variable {N : Type} [Site N]

/-- The declared texts that are addresses, each once. -/
def wantedOf (declared : List String) : List String :=
  declared.eraseDups.filter IpAddr.isIp

/-- The declared texts that are no address, each once. -/
def rejectedOf (declared : List String) : List String :=
  declared.eraseDups.filter fun ip => !IpAddr.isIp ip

/-- The addresses that the manager owns by a record. What is no address cannot be bound, so it
cannot be owned either, and without a record nothing is owned. -/
def ownedOf (record : Option (List String)) : List String :=
  (record.getD []).filter IpAddr.isIp

/-- The fault of a text that is to be bound or unbound and is no address. -/
def notAnIp (ip : String) : Fault :=
  .invalidInput (Text.quoted ip ++ " is not an IP address")

/-- Binds an address as a single host. -/
def bindText (iface : LiveInterface) (ip : String) : StateM N Attempt := do
  match IpAddr.parse? ip with
  | some addr => return ⟨ip, ← Site.bind iface addr addr.hostPrefix⟩
  | none => return ⟨ip, .error (notAnIp ip)⟩

/-- Unbinds an address. -/
def unbindText (iface : LiveInterface) (ip : String) : StateM N Attempt := do
  match IpAddr.parse? ip with
  | some addr => return ⟨ip, ← Site.unbind iface addr⟩
  | none => return ⟨ip, .error (notAnIp ip)⟩

/-- Corrects a record for an attempt to bind: what failed is not bound. -/
def afterBind (record : List String) (a : Attempt) : List String :=
  if a.failed then record.filter (· ≠ a.ip) else record

/-- Corrects a record for an attempt to unbind: what failed is still bound. -/
def afterUnbind (record : List String) (a : Attempt) : List String :=
  if a.failed && !record.contains a.ip then record ++ [a.ip] else record

/-- The new record: what was wanted, corrected for whatever failed. -/
def nextRecord (wanted : List String) (binds unbinds : List Attempt) : List String :=
  unbinds.foldl afterUnbind (binds.foldl afterBind wanted)

/-- Brings a live interface to its declaration. -/
def carryOut (mac : Mac) (iface : LiveInterface) (bound recorded declared : List String) :
    StateM N Work := do
  let wanted := wantedOf declared
  let diff := AddressDiff.between recorded wanted bound
  let binds ← diff.toAdd.mapM (bindText iface)
  let unbinds ← diff.toRemove.mapM (unbindText iface)
  let next := nextRecord wanted binds unbinds
  let saved ← Site.writeRecord mac.text next
  return {
    mac, iface, bound, recorded, wanted, binds, unbinds, next, saved
    rejected := rejectedOf declared }

/-- The record of a hardware address. A missing thing is an empty record. -/
def recallOwned (mac : Mac) : StateM N (Except Fault (List String)) := do
  match ← Site.readRecord mac.text with
  | .ok record => return .ok (ownedOf record)
  | .error fault => return if fault.isNotFound then .ok [] else .error fault

/-- The first live interface with a hardware address. -/
def matching? (live : List LiveInterface) (mac : Mac) : Option LiveInterface :=
  live.find? fun i => i.mac = some mac

/-- Visits a declared interface. -/
def run (live : List LiveInterface) (declared : DeclaredInterface) : StateM N Visit := do
  match Mac.parse? declared.mac with
  | none => return .unparseable declared.mac
  | some mac =>
      match matching? live mac with
      | none => return .unmatched declared.mac mac
      | some iface =>
          match ← Site.addresses iface with
          | .error fault => return .unreadable mac iface fault
          | .ok addresses =>
              match ← recallOwned mac with
              | .error fault => return .unrecorded mac iface fault
              | .ok recorded =>
                  return .reconciled (← carryOut mac iface (addresses.map LiveAddress.text)
                    recorded declared.forwardedIps)

end Visit

end ForwardedIp
