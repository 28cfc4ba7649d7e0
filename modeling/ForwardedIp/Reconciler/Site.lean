import ForwardedIp.Host.Backend
import ForwardedIp.Ledger.Store
/-!
# Where a reconciler works

A reconciler talks to a host and to a ledger, in turns. `Site` is all that it can ask. A machine
is a site made of a host and a ledger. An observed site notes every request with its answer.
-/
namespace ForwardedIp

/-- A host together with a ledger. -/
class Site (N : Type) where
  interfaces : StateM N (Except Fault (List LiveInterface))
  addresses : LiveInterface → StateM N (Except Fault (List LiveAddress))
  bind : LiveInterface → IpAddr → Nat → StateM N (Except Fault Unit)
  unbind : LiveInterface → IpAddr → StateM N (Except Fault Unit)
  readRecord : String → StateM N (Except Fault (Option (List String)))
  writeRecord : String → List String → StateM N (Except Fault Unit)
  /-- Makes sure that the ledger is kept for good. -/
  flush : StateM N (Except Fault Unit)

/-- A host and a ledger side by side. -/
structure Machine (H L : Type) where
  host : H
  ledger : L

namespace Machine

variable {H L : Type}

/-- Runs an action of the host. -/
def onHost (action : StateM H α) : StateM (Machine H L) α := fun m =>
  let (a, host) := action m.host
  (a, { m with host })

/-- Runs an action of the ledger. -/
def onLedger (action : StateM L α) : StateM (Machine H L) α := fun m =>
  let (a, ledger) := action m.ledger
  (a, { m with ledger })

instance [HostBackend H] [LedgerStore L] : Site (Machine H L) where
  interfaces := onHost HostBackend.interfaces
  addresses iface := onHost (HostBackend.addresses iface)
  bind iface ip prefixLen := onHost (HostBackend.bind iface ip prefixLen)
  unbind iface ip := onHost (HostBackend.unbind iface ip)
  readRecord key := onLedger (LedgerStore.read key)
  writeRecord key ips := onLedger (LedgerStore.write key ips)
  flush := onLedger LedgerStore.flush

end Machine

/-- A request to a site with its answer. -/
inductive Call where
  | interfaces (answer : Except Fault (List LiveInterface))
  | addresses (iface : LiveInterface) (answer : Except Fault (List LiveAddress))
  | bind (iface : LiveInterface) (ip : IpAddr) (prefixLen : Nat) (answer : Except Fault Unit)
  | unbind (iface : LiveInterface) (ip : IpAddr) (answer : Except Fault Unit)
  | readRecord (key : String) (answer : Except Fault (Option (List String)))
  | writeRecord (key : String) (ips : List String) (answer : Except Fault Unit)
  | flush (answer : Except Fault Unit)

/-- A site with the calls so far, the latest last. -/
structure Observed (N : Type) where
  site : N
  calls : List Call := []

namespace Observed

variable {N : Type}

/-- Runs an action of the site and notes it. -/
def noting (action : StateM N α) (call : α → Call) : StateM (Observed N) α := fun o =>
  let (a, site) := action o.site
  (a, { site, calls := o.calls ++ [call a] })

instance [Site N] : Site (Observed N) where
  interfaces := noting Site.interfaces .interfaces
  addresses iface := noting (Site.addresses iface) (.addresses iface)
  bind iface ip prefixLen := noting (Site.bind iface ip prefixLen) (.bind iface ip prefixLen)
  unbind iface ip := noting (Site.unbind iface ip) (.unbind iface ip)
  readRecord key := noting (Site.readRecord key) (.readRecord key)
  writeRecord key ips := noting (Site.writeRecord key ips) (.writeRecord key ips)
  flush := noting Site.flush .flush

end Observed

end ForwardedIp
