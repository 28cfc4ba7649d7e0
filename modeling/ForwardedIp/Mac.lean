import ForwardedIp.Fault
import ForwardedIp.Text.Digits
import ForwardedIp.Text.Quoted
/-!
# Hardware addresses

A hardware address is six octets. It is written in six groups of two hexadecimal digits joined by
colons, by hyphens or by dots, or in three groups of four joined by dots; letter case does not
matter. The canonical text, lower case with colons, is the key of an interface in the ledger.
-/
namespace ForwardedIp

structure Mac where
  octets : List UInt8
  length_octets : octets.length = 6
  deriving DecidableEq

namespace Mac

/-- The address with these octets, if there are six. -/
def ofOctets? (octets : List UInt8) : Option Mac :=
  if h : octets.length = 6 then some ⟨octets, h⟩ else none

/-- The octets written by hexadecimal digits, two digits each. -/
def octetsOfHex? : List Char → Option (List UInt8)
  | [] => some []
  | [_] => none
  | high :: low :: rest => do return (← Text.ofHexPair? high low) :: (← octetsOfHex? rest)

/-- Six groups of two digits, or three groups of four where they are allowed. -/
def wellGrouped (quads : Bool) (groups : List (List Char)) : Bool :=
  (groups.length == 6 && groups.all (·.length == 2)) ||
    (quads && groups.length == 3 && groups.all (·.length == 4))

/-- The address written by groups of hexadecimal digits. -/
def ofGroups? (quads : Bool) (groups : List (List Char)) : Option Mac :=
  if wellGrouped quads groups then octetsOfHex? groups.flatten >>= ofOctets? else none

/-- Reads an address. The first of colon, hyphen and dot that occurs is the separator. -/
def parse? (text : String) : Option Mac :=
  let cs := text.toList
  if cs.contains ':' then ofGroups? false (cs.splitOn ':')
  else if cs.contains '-' then ofGroups? false (cs.splitOn '-')
  else if cs.contains '.' then ofGroups? true (cs.splitOn '.')
  else none

/-- Why a text is no address. -/
def invalid (text : String) : Fault :=
  .invalidInput ("invalid MAC address " ++ Text.quoted text)

/-- Reads an address and says why when it cannot. -/
def parse (text : String) : Except Fault Mac :=
  match parse? text with
  | some mac => .ok mac
  | none => .error (invalid text)

/-- The canonical text: lower case, with colons. -/
def text (mac : Mac) : String :=
  String.ofList ([':'].intercalate (mac.octets.map Text.hexPair))

/-- Addresses are ordered by their octets, the first octet first. -/
instance : Ord Mac where
  compare a b := List.compareLex compare a.octets b.octets

end Mac

end ForwardedIp
