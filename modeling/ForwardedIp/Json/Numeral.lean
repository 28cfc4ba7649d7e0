import ForwardedIp.Json.Defect
import ForwardedIp.Json.Value
import ForwardedIp.Text.Digits
/-!
# Numerals

The grammar of numbers and their values. An integer that fits 64 bits is exact. For every other
numeral the digits are collected in a 64-bit significand: integer digits that no longer fit only
raise the exponent, fraction digits that no longer fit are dropped. The significand, rounded, is
then multiplied or divided by a power of ten, with one rounding more.
-/
namespace ForwardedIp.Json

/-- A numeral by its parts: sign, integer digits, fraction digits and exponent. -/
structure Numeral where
  negative : Bool
  whole : List Char
  fraction : Option (List Char)
  exponent : Option (Bool × List Char)
  deriving DecidableEq

namespace Numeral

/-- The defect of a numeral that breaks off. Ignored numerals do not tell the end of the text from
a wrong character. -/
def missing (wanted : Bool) (cs : List Char) : Defect :=
  if wanted && cs.isEmpty then .truncated else .malformed

/-- At least one digit, and as many as there are. -/
def digits (wanted : Bool) (cs : List Char) : Except Defect (List Char × List Char) :=
  let ds := cs.takeWhile Char.isDigit
  if ds.isEmpty then .error (missing wanted cs) else .ok (ds, cs.dropWhile Char.isDigit)

/-- Integer digits: a zero stands alone. -/
def wholeDigits (wanted : Bool) (cs : List Char) : Except Defect (List Char × List Char) :=
  match cs with
  | '0' :: rest =>
      if (rest.head?.map Char.isDigit).getD false then .error .malformed else .ok (['0'], rest)
  | _ => digits wanted cs

/-- A fraction, if a point follows. -/
def fractionDigits (wanted : Bool) :
    List Char → Except Defect (Option (List Char) × List Char)
  | '.' :: cs => (digits wanted cs).map fun (ds, rest) => (some ds, rest)
  | cs => .ok (none, cs)

/-- The sign of an exponent; `true` means negative. -/
def exponentSign : List Char → Bool × List Char
  | '+' :: rest => (false, rest)
  | '-' :: rest => (true, rest)
  | cs => (false, cs)

/-- An exponent, if the letter follows. -/
def exponentDigits (wanted : Bool) :
    List Char → Except Defect (Option (Bool × List Char) × List Char)
  | c :: cs =>
      if c = 'e' ∨ c = 'E' then
        let (down, cs) := exponentSign cs
        (digits wanted cs).map fun (ds, rest) => (some (down, ds), rest)
      else .ok (none, c :: cs)
  | [] => .ok (none, [])

def scan (wanted : Bool) (cs : List Char) : Except Defect (Numeral × List Char) := do
  let (negative, cs) := match cs with
    | '-' :: rest => (true, rest)
    | _ => (false, cs)
  let (whole, cs) ← wholeDigits wanted cs
  let (fraction, cs) ← fractionDigits wanted cs
  let (exponent, cs) ← exponentDigits wanted cs
  return (⟨negative, whole, fraction, exponent⟩, cs)

/-- The values that a significand can take are below this bound. -/
def significandBound : Nat := UInt64.size

/-- Appends digits to a significand while they fit; the rest of the digits comes back. -/
def accumulate (n : Nat) : List Char → Nat × List Char
  | [] => (n, [])
  | c :: cs =>
      let n' := 10 * n + (c.toNat - '0'.toNat)
      if n' < significandBound then accumulate n' cs else (n, c :: cs)

/-- A magnitude times a power of ten that is a number of the format, or over it. Divisors larger
than that are taken in steps. -/
def scale (f : Decimal.Binary64) : Nat → Int → Except Defect Decimal.Binary64
  | 0, _ => .ok f
  | fuel + 1, exponent =>
      let power (k : Nat) := (Decimal.Binary64.ofNat (Nat.pow 10 k)).getD .zero
      if exponent.natAbs ≤ 308 then
        let result := if 0 ≤ exponent then f.mul (power exponent.natAbs)
          else f.div (power exponent.natAbs)
        match result with
        | some f => .ok f
        | none => .error .malformed
      else if f.isZero then .ok f
      else if 0 ≤ exponent then .error .malformed
      else scale ((f.div (power 308)).getD .zero) fuel (exponent + 308)

/-- A significand times a power of ten. After four steps of division nothing is left. -/
def magnitude (significand : Nat) (exponent : Int) : Except Defect Decimal.Binary64 :=
  scale ((Decimal.Binary64.ofNat significand).getD .zero) 5 exponent

/-- Exponents are kept in 32 bits. -/
def exponentBound : Int := Nat.pow 2 31

/-- The value of a numeral that is no integer of 64 bits. -/
def floatValue (x : Numeral) : Except Defect Decimal.Binary64 := do
  let (n, wholeRest) := accumulate 0 x.whole
  let (n, fractionRest) := accumulate n (x.fraction.getD [])
  let used := (x.fraction.getD []).length - fractionRest.length
  let start : Int := (wholeRest.length : Int) - used
  match x.exponent with
  | none => magnitude n start
  | some (down, ds) =>
      let e : Int := (Text.ofDecimal? ds).getD 0
      if exponentBound ≤ e then
        if n ≠ 0 ∧ !down then .error .malformed else .ok .zero
      else magnitude n (if down then max (start - e) (-exponentBound)
        else min (start + e) (exponentBound - 1))

/-- The value of a numeral. A negative zero and integers beyond 64 bits are floating-point. -/
def value (x : Numeral) : Except Defect Number :=
  let n := (Text.ofDecimal? x.whole).getD 0
  if x.fraction.isNone ∧ x.exponent.isNone ∧
      (if x.negative then 0 < n ∧ n ≤ Nat.pow 2 63 else n < significandBound) then
    .ok (.int (if x.negative then -n else n))
  else (floatValue x).map (.float x.negative)

end Numeral

end ForwardedIp.Json
