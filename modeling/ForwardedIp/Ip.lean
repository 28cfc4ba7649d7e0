import ForwardedIp.Ip.V6
/-!
# IP addresses

An address of either family, its text, and addresses as they are bound to an interface. Two bound
addresses are compared by their text: an address with the host prefix is its bare text, so that it
equals the text in a declaration or in the ledger, and every other one carries its prefix length.
-/
namespace ForwardedIp

inductive IpAddr where
  | v4 (ip : Ip.V4)
  | v6 (ip : Ip.V6)
  deriving DecidableEq

namespace IpAddr

/-- Reads an address from its characters, IPv4 first. -/
def ofChars? (cs : List Char) : Option IpAddr :=
  match Ip.V4.parse? cs with
  | some ip => some (v4 ip)
  | none => (Ip.V6.parse? cs).map v6

def parse? (text : String) : Option IpAddr := ofChars? text.toList

def chars : IpAddr → List Char
  | v4 ip => ip.chars
  | v6 ip => ip.chars

/-- The printed form. -/
def text (ip : IpAddr) : String := String.ofList ip.chars

/-- The prefix length of a single host. -/
def hostPrefix : IpAddr → Nat
  | v4 _ => 32
  | v6 _ => 128

/-- Whether a text is the text of some address, in any spelling. -/
def isIp (text : String) : Bool := (parse? text).isSome

end IpAddr

structure LiveAddress where
  ip : IpAddr
  prefixLen : Nat
  deriving DecidableEq

namespace LiveAddress

/-- An address bound with the prefix of a single host. -/
def host (ip : IpAddr) : LiveAddress := ⟨ip, ip.hostPrefix⟩

/-- The comparison form: bare with the host prefix, with a slash and the prefix length otherwise. -/
def text (a : LiveAddress) : String :=
  if a.prefixLen = a.ip.hostPrefix then a.ip.text
  else a.ip.text ++ "/" ++ toString a.prefixLen

@[simp] theorem host_ip (ip : IpAddr) : (host ip).ip = ip := rfl

@[simp] theorem text_host (ip : IpAddr) : (host ip).text = ip.text := by simp [host, text]

end LiveAddress

end ForwardedIp
