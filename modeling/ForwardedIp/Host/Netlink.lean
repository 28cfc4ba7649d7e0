import ForwardedIp.Host.Backend
import ForwardedIp.Host.Kernel
/-!
# Linux hosts

A host that talks to a kernel about its tables. Links are listed for their name and hardware
address; addresses are dumped for one index, and messages of other indexes are passed over, for a
kernel may ignore the index. To unbind an IP the interface is dumped again, and the first message
with that IP is deleted as it came.
-/
namespace ForwardedIp

/-- A host that talks to a kernel of some kind. -/
structure NetlinkHost (K : Type) where
  kernel : K
  deriving DecidableEq

/-- A host that talks to a kernel in memory. -/
abbrev LinuxHost := NetlinkHost Kernel

namespace LinkMessage

/-- The name given last. -/
def name (m : LinkMessage) : String :=
  m.attributes.foldl (fun found a => match a with
    | .name n => n
    | _ => found) ""

/-- The hardware address given last that has six octets. -/
def mac? (m : LinkMessage) : Option Mac :=
  m.attributes.foldl (fun found a => match a with
    | .hardware octets => (Mac.ofOctets? octets).or found
    | _ => found) none

def toInterface (m : LinkMessage) : LiveInterface := ⟨m.name, m.index, m.mac?⟩

end LinkMessage

namespace AddressMessage

/-- The address of a message: the near one given last, else the plain one given last. -/
def toAddress? (m : AddressMessage) : Option LiveAddress :=
  (m.nears.getLast?.or m.plains.getLast?).map (⟨·, m.prefixLen⟩)

end AddressMessage

namespace LinuxHost

/-- Opens the socket to the kernel. -/
def connect (kernel : Kernel) (hasRuntime : Bool) : Except Fault LinuxHost :=
  if !hasRuntime then
    .error (.config "The netlink backend needs a running tokio runtime")
  else if kernel.switches.noSocket then
    .error (.backend "Unable to create netlink socket: no netlink")
  else .ok ⟨kernel⟩

end LinuxHost

namespace NetlinkHost
variable {K : Type} [RouteKernel K]

def messages (h : NetlinkHost K) (index : Nat) : Except Fault (List AddressMessage) :=
  match (RouteKernel.dumpAddresses h.kernel index).collect with
  | .ok ms => .ok (ms.filter (·.index = index))
  | .error e =>
      .error (.backend ("Failed to dump addresses of link " ++ toString index ++ ": " ++ e))

/-- Asks the kernel for a change; a refusal is told with the interface's name. -/
def request (change : StateM K (Except String Unit)) (what : String) (iface : LiveInterface) :
    StateM (NetlinkHost K) (Except Fault Unit) := fun h =>
  let (result, kernel) := change h.kernel
  (result.mapError fun e => .backend ("Unable to " ++ what ++ " " ++ iface.name ++ ": " ++ e),
    ⟨kernel⟩)

instance : HostBackend (NetlinkHost K) where
  name := "linux-netlink"
  interfaces := fun h =>
    (match (RouteKernel.dumpLinks h.kernel).collect with
      | .ok ms => .ok (ms.map LinkMessage.toInterface)
      | .error e => .error (.backend ("Failed to list links: " ++ e)), h)
  addresses iface := fun h =>
    ((h.messages iface.index).map (·.filterMap AddressMessage.toAddress?), h)
  bind iface ip prefixLen :=
    request (RouteKernel.add iface.index ip prefixLen) ("add " ++ ip.text ++ " to") iface
  unbind iface ip := fun h =>
    match h.messages iface.index with
    | .error fault => (.error fault, h)
    | .ok ms =>
        match ms.find? fun m => m.toAddress?.any (·.ip = ip) with
        | none => (.error (.notFound (ip.text ++ " on " ++ iface.name)), h)
        | some m => request (RouteKernel.delete m) ("remove " ++ ip.text ++ " from") iface h

end NetlinkHost

end ForwardedIp
