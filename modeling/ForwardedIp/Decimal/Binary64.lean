/-!
# Binary floating-point magnitudes

Nonnegative finite numbers of the 64-bit binary format, kept exactly as `mantissa * 2 ^ exponent`.
Every operation computes the exact result first and rounds it once, to the nearest number of the
format and a tie to the even mantissa.
-/
namespace ForwardedIp.Decimal

/-- A magnitude `mantissa * 2 ^ exponent`. Results of `round` have a mantissa below `2 ^ 53` and
an exponent of at least `-1074`. -/
structure Binary64 where
  mantissa : Nat
  exponent : Int
  deriving DecidableEq

namespace Binary64

def zero : Binary64 := ⟨0, -1074⟩

/-- A magnitude as a quotient of natural numbers. -/
def ratio (x : Binary64) : Nat × Nat :=
  (x.mantissa * Nat.pow 2 x.exponent.toNat, Nat.pow 2 (-x.exponent).toNat)

/-- A quotient rounded to the nearest integer, a tie to the even one. -/
def divEven (num den : Nat) : Nat :=
  let q := num / den
  let r := num % den
  if 2 * r < den then q else if den < 2 * r then q + 1 else q + q % 2

/-- The least exponent for which the quotient has at most 53 binary digits before the point. -/
def exponentFor (num den : Nat) : Int :=
  let low : Int := (Nat.log2 num : Int) - Nat.log2 den - 53
  let fits := num * Nat.pow 2 (-low).toNat < Nat.pow 2 53 * den * Nat.pow 2 low.toNat
  max (if fits then low else low + 1) (-1074)

/-- A quotient rounded to the format; nothing where it is too large. -/
def round (num den : Nat) : Option Binary64 :=
  if num = 0 then some zero
  else
    let e := exponentFor num den
    let m := divEven (num * Nat.pow 2 (-e).toNat) (den * Nat.pow 2 e.toNat)
    if Nat.pow 2 1024 ≤ m * Nat.pow 2 e.toNat then none
    else if m = Nat.pow 2 53 then some ⟨Nat.pow 2 52, e + 1⟩
    else some ⟨m, e⟩

def ofNat (n : Nat) : Option Binary64 := round n 1

def mul (x y : Binary64) : Option Binary64 :=
  round (x.ratio.1 * y.ratio.1) (x.ratio.2 * y.ratio.2)

def div (x y : Binary64) : Option Binary64 :=
  round (x.ratio.1 * y.ratio.2) (x.ratio.2 * y.ratio.1)

def isZero (x : Binary64) : Bool := x.mantissa == 0

end Binary64

end ForwardedIp.Decimal
