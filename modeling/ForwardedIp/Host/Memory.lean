import ForwardedIp.Host.Backend
import ForwardedIp.Keyed
/-!
# Hosts in memory

A host whose state is a value: its interfaces, what is bound by interface index, and the
operations that fail at the moment. Binding appends, even an address that is there already;
unbinding drops every address with that IP, whatever its prefix length.
-/
namespace ForwardedIp

structure HostFaults where
  enumerate : Bool := false
  unreadable : List Nat := []
  unbindable : List IpAddr := []
  unremovable : List IpAddr := []
  deriving DecidableEq

structure MemoryHost where
  interfaces : List LiveInterface := []
  bound : List (Nat × List LiveAddress) := []
  faults : HostFaults := {}
  deriving DecidableEq

namespace MemoryHost

def addressesAt (h : MemoryHost) (index : Nat) : List LiveAddress :=
  (h.bound.lookup index).getD []

def setAddresses (h : MemoryHost) (index : Nat) (addresses : List LiveAddress) : MemoryHost :=
  { h with bound := Keyed.put index addresses h.bound }

/-- Appends an address at an index. -/
def append (h : MemoryHost) (index : Nat) (a : LiveAddress) : MemoryHost :=
  h.setAddresses index (h.addressesAt index ++ [a])

/-- Drops the addresses with an IP at an index. -/
def dropIp (h : MemoryHost) (index : Nat) (ip : IpAddr) : MemoryHost :=
  h.setAddresses index ((h.addressesAt index).filter (·.ip ≠ ip))

instance : HostBackend MemoryHost where
  name := "memory-host"
  interfaces := fun h =>
    (if h.faults.enumerate then .error (.backend "enumeration unavailable") else .ok h.interfaces,
      h)
  addresses iface := fun h =>
    (if h.faults.unreadable.contains iface.index then .error (.backend "address read failed")
      else .ok (h.addressesAt iface.index), h)
  bind iface ip prefixLen := fun h =>
    if h.faults.unbindable.contains ip then
      (.error (.backend ("cannot add " ++ ip.text)), h)
    else (.ok (), h.append iface.index ⟨ip, prefixLen⟩)
  unbind iface ip := fun h =>
    if h.faults.unremovable.contains ip then
      (.error (.backend ("cannot remove " ++ ip.text)), h)
    else (.ok (), h.dropIp iface.index ip)

@[simp] theorem addressesAt_setAddresses (h : MemoryHost) (index : Nat)
    (addresses : List LiveAddress) :
    (h.setAddresses index addresses).addressesAt index = addresses := by
  simp [addressesAt, setAddresses]

theorem addressesAt_setAddresses_of_ne {index other : Nat} (hne : other ≠ index)
    (h : MemoryHost) (addresses : List LiveAddress) :
    (h.setAddresses index addresses).addressesAt other = h.addressesAt other := by
  simp [addressesAt, setAddresses, Keyed.lookup_put_of_ne hne]

end MemoryHost

end ForwardedIp
