import ForwardedIp.Ip.V4
/-!
# IPv6 addresses

Eight groups of 16 bits. A text has up to four hexadecimal digits a group, in either letter case,
joined by colons; the last two groups may be written as an IPv4 address, and one run of zero
groups as two colons. The printed form is lower case, abbreviates the first of the longest runs of
at least two zero groups, and shows addresses that stand for IPv4 ones with dots.
-/
namespace ForwardedIp.Ip

structure V6 where
  groups : List UInt16
  length_groups : groups.length = 8
  deriving DecidableEq

namespace V6

/-- The address with these groups, if there are eight. -/
def ofGroups? (groups : List UInt16) : Option V6 :=
  if h : groups.length = 8 then some ⟨groups, h⟩ else none

/-- A group has one to four hexadecimal digits. -/
def group? (digits : List Char) : Option UInt16 := do
  let n ← Text.ofHex? digits
  if digits ≠ [] ∧ digits.length ≤ 4 then some (UInt16.ofNat n) else none

/-- Two octets, the high one first, as one group. -/
def ofOctetPair (high low : UInt8) : UInt16 := UInt16.ofNat (256 * high.toNat + low.toNat)

/-- The two groups that an IPv4 address fills. -/
def groupsOfV4 (ip : V4) : List UInt16 :=
  match ip.octets with
  | [a, b, c, d] => [ofOctetPair a b, ofOctetPair c d]
  | _ => []

/-- Groups joined by colons, the last of which may be an IPv4 address. -/
def tail? : List (List Char) → Option (List UInt16)
  | [] => some []
  | [last] =>
      match group? last with
      | some g => some [g]
      | none => (V4.parse? last).map groupsOfV4
  | first :: rest => do return (← group? first) :: (← tail? rest)

/-- The pieces between colons; an empty text has none. -/
def pieces (cs : List Char) : List (List Char) :=
  if cs.isEmpty then [] else cs.splitOn ':'

/-- The text before and after the first two colons in a row. -/
def splitGap : List Char → Option (List Char × List Char)
  | [] => none
  | ':' :: ':' :: rest => some ([], rest)
  | c :: rest => (splitGap rest).map fun (front, back) => (c :: front, back)

/-- Reads an address. Two colons stand for at least one zero group. -/
def parse? (cs : List Char) : Option V6 :=
  match splitGap cs with
  | none => tail? (pieces cs) >>= ofGroups?
  | some (front, back) => do
      let head ← (pieces front).mapM group?
      let tail ← tail? (pieces back)
      if head.length + tail.length ≤ 7 then
        ofGroups? (head ++ List.replicate (8 - head.length - tail.length) 0 ++ tail)
      else none

def groupChars (g : UInt16) : List Char := Nat.toDigits 16 g.toNat

def groupsChars (groups : List UInt16) : List Char := [':'].intercalate (groups.map groupChars)

def leadingZeros (groups : List UInt16) : Nat := (groups.takeWhile (· == 0)).length

/-- Start and length of the first of the longest runs of zero groups. -/
def longestZeros : List UInt16 → Nat × Nat
  | [] => (0, 0)
  | g :: rest =>
      let here := leadingZeros (g :: rest)
      let (start, length) := longestZeros rest
      if length ≤ here then (0, here) else (start + 1, length)

/-- The IPv4 address that an IPv6 address stands for, `::ffff:a.b.c.d`. -/
def mappedV4? (ip : V6) : Option V4 :=
  match ip.groups with
  | [0, 0, 0, 0, 0, 0xffff, a, b] =>
      some ⟨[UInt8.ofNat (a.toNat / 256), UInt8.ofNat (a.toNat % 256),
        UInt8.ofNat (b.toNat / 256), UInt8.ofNat (b.toNat % 256)], rfl⟩
  | _ => none

def chars (ip : V6) : List Char :=
  match ip.mappedV4? with
  | some v4 => [':', ':', 'f', 'f', 'f', 'f', ':'] ++ v4.chars
  | none =>
      let (start, length) := longestZeros ip.groups
      if 2 ≤ length then
        groupsChars (ip.groups.take start) ++ [':', ':'] ++
          groupsChars (ip.groups.drop (start + length))
      else groupsChars ip.groups

end V6

end ForwardedIp.Ip
