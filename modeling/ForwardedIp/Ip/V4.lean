import ForwardedIp.Text.Digits
/-!
# IPv4 addresses

Four octets. Written in decimal with dots, without leading zeros and without blanks.
-/
namespace ForwardedIp.Ip

structure V4 where
  octets : List UInt8
  length_octets : octets.length = 4
  deriving DecidableEq

namespace V4

/-- The address with these octets, if there are four. -/
def ofOctets? (octets : List UInt8) : Option V4 :=
  if h : octets.length = 4 then some ⟨octets, h⟩ else none

/-- An octet has one to three digits, at most 255, and a leading zero only as its one digit. -/
def octet? (digits : List Char) : Option UInt8 := do
  let n ← Text.ofDecimal? digits
  if digits ≠ [] ∧ digits.length ≤ 3 ∧ (digits.head? = some '0' → digits.length = 1) ∧ n < 256
  then some (UInt8.ofNat n)
  else none

/-- Reads four octets joined by dots. -/
def parse? (cs : List Char) : Option V4 := (cs.splitOn '.').mapM octet? >>= ofOctets?

/-- The octets in decimal, joined by dots. -/
def chars (ip : V4) : List Char :=
  ['.'].intercalate (ip.octets.map fun o => Nat.toDigits 10 o.toNat)

end V4

end ForwardedIp.Ip
