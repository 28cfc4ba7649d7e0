import ForwardedIp.Ip
/-!
# A kernel's link and address tables

Links and addresses are messages with attributes. A kernel may ignore the index that a dump asks
for, a dump may break off after its last message, and changes may be refused. A kernel in memory
keeps its tables as lists and notes every request for a change.
-/
namespace ForwardedIp

inductive LinkAttribute where
  | name (name : String)
  | hardware (octets : List UInt8)
  | mtu (n : Nat)
  deriving DecidableEq

structure LinkMessage where
  index : Nat
  attributes : List LinkAttribute
  deriving DecidableEq

inductive AddressAttribute where
  /-- The address of the near end. -/
  | near (ip : IpAddr)
  /-- The address, or that of the far end of a point-to-point link. -/
  | address (ip : IpAddr)
  | label (text : String)
  deriving DecidableEq

structure AddressMessage where
  index : Nat
  prefixLen : Nat
  attributes : List AddressAttribute
  deriving DecidableEq

inductive AddressRequest where
  | add (index : Nat) (ip : IpAddr) (prefixLen : Nat)
  | delete (message : AddressMessage)
  deriving DecidableEq

/-- How a kernel behaves at the moment. -/
structure KernelSwitches where
  ignoresFilter : Bool := false
  noSocket : Bool := false
  linksFail : Bool := false
  dumpsFail : List Nat := []
  addsFail : List IpAddr := []
  deletesFail : List IpAddr := []
  deriving DecidableEq

structure Kernel where
  links : List LinkMessage := []
  addresses : List AddressMessage := []
  switches : KernelSwitches := {}
  /-- The requests for changes so far, the latest last. -/
  requests : List AddressRequest := []
  deriving DecidableEq

namespace AddressMessage

/-- The near addresses of a message. -/
def nears (m : AddressMessage) : List IpAddr :=
  m.attributes.filterMap fun
    | .near ip => some ip
    | _ => none

/-- The plain addresses of a message. -/
def plains (m : AddressMessage) : List IpAddr :=
  m.attributes.filterMap fun
    | .address ip => some ip
    | _ => none

/-- The first near address, else the first plain one. -/
def firstIp? (m : AddressMessage) : Option IpAddr := m.nears.head?.or m.plains.head?

end AddressMessage

namespace Kernel

/-- The messages of a list, and the error after them if the list breaks off. -/
structure Dump (α : Type) where
  messages : List α
  failure : Option String

/-- All of a dump, or its error. -/
def Dump.collect (d : Dump α) : Except String (List α) :=
  match d.failure with
  | none => .ok d.messages
  | some error => .error error

/-- The error of a dump that breaks off. -/
def interrupted : String := "dump interrupted"

def dumpLinks (k : Kernel) : Dump LinkMessage :=
  ⟨k.links, if k.switches.linksFail then some interrupted else none⟩

/-- Lists the addresses at an index, or all of them if the kernel ignores the index. -/
def dumpAddresses (k : Kernel) (index : Nat) : Dump AddressMessage :=
  ⟨if k.switches.ignoresFilter then k.addresses else k.addresses.filter (·.index = index),
    if k.switches.dumpsFail.contains index then some interrupted else none⟩

/-- The message that the kernel makes of an added address. -/
def messageOf (index : Nat) (ip : IpAddr) (prefixLen : Nat) : AddressMessage :=
  ⟨index, prefixLen, [.address ip, .near ip]⟩

def note (k : Kernel) (r : AddressRequest) : Kernel := { k with requests := k.requests ++ [r] }

/-- Adds an address, unless it is refused or there already. -/
def add (index : Nat) (ip : IpAddr) (prefixLen : Nat) : StateM Kernel (Except String Unit) :=
  fun k =>
    let k := k.note (.add index ip prefixLen)
    let m := messageOf index ip prefixLen
    if k.switches.addsFail.contains ip then (.error "refused", k)
    else if k.addresses.contains m then (.error "exists", k)
    else (.ok (), { k with addresses := k.addresses ++ [m] })

/-- Deletes the first message that equals a given one, unless it is refused. -/
def delete (m : AddressMessage) : StateM Kernel (Except String Unit) := fun k =>
  let k := k.note (.delete m)
  if m.firstIp?.any k.switches.deletesFail.contains then (.error "refused", k)
  else if k.addresses.contains m then (.ok (), { k with addresses := k.addresses.erase m })
  else (.error "gone", k)

end Kernel

/-- What a host can ask a kernel about its tables. -/
class RouteKernel (K : Type) where
  dumpLinks : K → Kernel.Dump LinkMessage
  dumpAddresses : K → Nat → Kernel.Dump AddressMessage
  add : Nat → IpAddr → Nat → StateM K (Except String Unit)
  delete : AddressMessage → StateM K (Except String Unit)

instance : RouteKernel Kernel where
  dumpLinks := Kernel.dumpLinks
  dumpAddresses := Kernel.dumpAddresses
  add := Kernel.add
  delete := Kernel.delete

end ForwardedIp
