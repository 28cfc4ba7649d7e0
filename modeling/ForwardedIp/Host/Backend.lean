import ForwardedIp.Fault
import ForwardedIp.Ip
import ForwardedIp.Mac
/-!
# Hosts

A host has interfaces and addresses bound to them. Every operation may fail.
-/
namespace ForwardedIp

/-- An interface of a host. Some have no hardware address of 48 bits. -/
structure LiveInterface where
  name : String
  index : Nat
  mac : Option Mac
  deriving DecidableEq

/-- A host that addresses can be bound on. -/
class HostBackend (H : Type) where
  name : String
  interfaces : StateM H (Except Fault (List LiveInterface))
  addresses : LiveInterface → StateM H (Except Fault (List LiveAddress))
  bind : LiveInterface → IpAddr → Nat → StateM H (Except Fault Unit)
  unbind : LiveInterface → IpAddr → StateM H (Except Fault Unit)

end ForwardedIp
