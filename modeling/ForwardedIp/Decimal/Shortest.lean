import ForwardedIp.Decimal.Binary64
/-!
# Shortest decimals

The fewest digits that read back as a given magnitude, and of those the nearest to it. A decimal
reads back if it lies in the interval of numbers that round to the magnitude; the ends belong to
the interval if the mantissa is even. For one digit, two digits and so on, the two neighbours of
the magnitude on that decimal grid are tried.
-/
namespace ForwardedIp.Decimal

/-- A decimal `digits * 10 ^ scale`. -/
structure Digits where
  digits : Nat
  scale : Int
  deriving DecidableEq

/-- The numbers that round to a magnitude, in units of `2 ^ unit`: `low`, the magnitude itself,
`high`, and whether the ends belong to them. -/
structure Interval where
  low : Nat
  middle : Nat
  high : Nat
  unit : Int
  closed : Bool

/-- The interval of a magnitude. Just above a power of two the lower half is only half as wide. -/
def Interval.of (x : Binary64) : Interval :=
  let m := x.mantissa
  let narrow := m == Nat.pow 2 52 && -1074 < x.exponent
  ⟨4 * m - (if narrow then 1 else 2), 4 * m, 4 * m + 2, x.exponent - 2, m % 2 == 0⟩

/-- `n * 2 ^ unit` and `d * 10 ^ scale` brought to one denominator, in this order. -/
def align (n : Nat) (unit : Int) (d : Nat) (scale : Int) : Nat × Nat :=
  (n * Nat.pow 2 unit.toNat * Nat.pow 10 (-scale).toNat,
    d * Nat.pow 10 scale.toNat * Nat.pow 2 (-unit).toNat)

def Interval.holds (i : Interval) (d : Nat) (scale : Int) : Bool :=
  let (low, x) := align i.low i.unit d scale
  let (high, y) := align i.high i.unit d scale
  if i.closed then low ≤ x && y ≤ high else low < x && y < high

/-- The neighbours of the middle on the grid of `10 ^ scale`, the lower one first. -/
def Interval.neighbours (i : Interval) (scale : Int) : Nat × Nat :=
  let (num, den) := align i.middle i.unit 1 scale
  (num / den, num / den + 1)

/-- The better of the two neighbours on a grid: in the interval, and of two such the nearer one,
an even one on a tie. -/
def Interval.best? (i : Interval) (scale : Int) : Option Nat :=
  let (below, above) := i.neighbours scale
  match i.holds below scale, i.holds above scale with
  | true, false => some below
  | false, true => some above
  | false, false => none
  | true, true =>
      let (num, den) := align i.middle i.unit 1 scale
      let gapBelow := num - below * den
      let gapAbove := above * den - num
      if gapBelow < gapAbove then some below
      else if gapAbove < gapBelow then some above
      else if below % 2 = 0 then some below else some above

/-- The power of ten of the first digit of `n * 2 ^ unit`, for a nonzero `n`. -/
def leadingPower (n : Nat) (unit : Int) : Int :=
  let num := n * Nat.pow 2 unit.toNat
  let den := Nat.pow 2 (-unit).toNat
  if den ≤ num then ((Nat.toDigits 10 (num / den)).length : Int) - 1
  else -((Nat.toDigits 10 ((den - 1) / num)).length : Int)

/-- Tries the grids from a scale downwards. -/
def Interval.search (i : Interval) : Nat → Int → Digits
  | 0, scale => ⟨(i.neighbours scale).1, scale⟩
  | fuel + 1, scale =>
      match i.best? scale with
      | some d => ⟨d, scale⟩
      | none => i.search fuel (scale - 1)

/-- Moves the trailing zeros of the digits into the scale. -/
def Digits.normal (d : Digits) : Digits :=
  let zeros := ((Nat.toDigits 10 d.digits).reverse.takeWhile (· == '0')).length
  ⟨d.digits / Nat.pow 10 zeros, d.scale + zeros⟩

/-- The shortest decimal of a nonzero magnitude. Seventeen digits always suffice. -/
def shortest (x : Binary64) : Digits :=
  let i := Interval.of x
  (i.search 17 (leadingPower i.middle i.unit)).normal

/-- Decimal notation: positional with at least one digit after the point for magnitudes from
`10 ^ (-5)` to below `10 ^ 16`, with a signed exponent of at least one digit otherwise. -/
def Binary64.text (x : Binary64) : String :=
  if x.isZero then "0.0"
  else
    let d := shortest x
    let ds := Nat.toDigits 10 d.digits
    -- the magnitude is `0.ds * 10 ^ point`
    let point : Int := ds.length + d.scale
    if 0 < point ∧ point ≤ 16 then
      let n := point.toNat
      let whole := ds.take n ++ List.replicate (n - ds.length) '0'
      let fraction := if ds.length ≤ n then ['0'] else ds.drop n
      String.ofList (whole ++ '.' :: fraction)
    else if -5 < point ∧ point ≤ 0 then
      String.ofList ('0' :: '.' :: List.replicate (-point).toNat '0' ++ ds)
    else
      let e := point - 1
      let sign := if e < 0 then "-" else "+"
      let fraction := if ds.length ≤ 1 then [] else '.' :: ds.drop 1
      String.ofList (ds.take 1 ++ fraction) ++ "e" ++ sign ++ toString e.natAbs

end ForwardedIp.Decimal
