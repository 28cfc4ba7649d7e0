import ForwardedIp.Ip
import ForwardedIp.Text.Blank
/-!
# Address lists

A setting holds several addresses as one text with commas. Blanks around an entry and entries that
are no address are dropped, and an entry counts once, at its first place.
-/
namespace ForwardedIp.AddressList

/-- The entries of a list, trimmed. -/
def entries (raw : String) : List String :=
  (raw.toList.splitOn ',').map fun piece => String.ofList (Text.trim piece)

/-- The addresses of a list, in the spelling they came in. -/
def parse (raw : String) : List String := ((entries raw).filter IpAddr.isIp).eraseDups

end ForwardedIp.AddressList
