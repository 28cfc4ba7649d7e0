/-!
# Digits

Reading digits back as numbers. Printing is core's `Nat.toDigits`: lower case, no padding.
-/
namespace ForwardedIp.Text

def decimalDigit? (c : Char) : Option Nat :=
  if '0' ≤ c ∧ c ≤ '9' then some (c.toNat - '0'.toNat) else none

def hexDigit? (c : Char) : Option Nat :=
  if '0' ≤ c ∧ c ≤ '9' then some (c.toNat - '0'.toNat)
  else if 'a' ≤ c ∧ c ≤ 'f' then some (c.toNat - 'a'.toNat + 10)
  else if 'A' ≤ c ∧ c ≤ 'F' then some (c.toNat - 'A'.toNat + 10)
  else none

/-- The number written by digits of a base, the highest first; an empty text is zero. -/
def ofDigits? (digit? : Char → Option Nat) (base : Nat) (cs : List Char) : Option Nat :=
  cs.foldlM (fun n c => (digit? c).map (base * n + ·)) 0

def ofDecimal? (cs : List Char) : Option Nat := ofDigits? decimalDigit? 10 cs

def ofHex? (cs : List Char) : Option Nat := ofDigits? hexDigit? 16 cs

/-- The two hexadecimal digits of a byte. -/
def hexPair (b : UInt8) : List Char :=
  [Nat.digitChar (b.toNat / 16), Nat.digitChar (b.toNat % 16)]

/-- The byte written by two hexadecimal digits. -/
def ofHexPair? (high low : Char) : Option UInt8 := do
  return UInt8.ofNat (16 * (← hexDigit? high) + (← hexDigit? low))

theorem hexDigit?_digitChar : ∀ n, n < 16 → hexDigit? (Nat.digitChar n) = some n := by decide

/-- The two digits of a byte read back as the byte. -/
theorem ofHexPair?_digitChar (b : UInt8) :
    ofHexPair? (Nat.digitChar (b.toNat / 16)) (Nat.digitChar (b.toNat % 16)) = some b := by
  have hb : b.toNat < 256 := b.toNat_lt
  rw [ofHexPair?, hexDigit?_digitChar _ (by omega), hexDigit?_digitChar _ (by omega)]
  have h : 16 * (b.toNat / 16) + b.toNat % 16 = b.toNat := by omega
  show some (UInt8.ofNat (16 * (b.toNat / 16) + b.toNat % 16)) = some b
  rw [h, UInt8.ofNat_toNat]

end ForwardedIp.Text
