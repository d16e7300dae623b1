import TypedSql.Decimal.Binary
import TypedSql.Decimal.Digits

/-!
# Shortest decimals

A binary number is written with the fewest decimal digits that read back as the same number. The
reals that round to `m · 2 ^ q` form an interval; `shortest` looks for a multiple of a power of ten
in it, from coarse powers to fine ones. On the first grid that meets the interval, the multiple
nearest to the number is taken, and of two equally near ones the greater.

`floatText` writes these digits out in full: never with an exponent, and with a point only in front
of a fraction.
-/

namespace TypedSql.Decimal

/-! ### The interval -/

/-- The reals that round to one binary number, on a common scale: from `low` to `high`, around `value`.
The ends belong to the interval when `closed`. -/
structure Interval where
  low : Nat
  value : Nat
  high : Nat
  closed : Bool
deriving DecidableEq, Repr

/-- A point of the scale lies in the interval. -/
def Interval.contains (i : Interval) (point : Nat) : Bool :=
  if i.closed then i.low ≤ point && point ≤ i.high else i.low < point && point < i.high

/-- The interval of `m · 2 ^ q`, in units of `2 ^ (q - 2) / scale`. It reaches half a unit of the last
place to either side, but only a quarter below a power of two, where the next number down is nearer.
The ends round to the number exactly when `m` is even. -/
def Interval.around (m : Nat) (q : Int) (scale : Nat) : Interval :=
  { low := (if m = Nat.pow 2 52 && -1074 < q then 4 * m - 1 else 4 * m - 2) * scale
    value := 4 * m * scale
    high := (4 * m + 2) * scale
    closed := m % 2 = 0 }

/-! ### The search -/

/-- The multiple of `10 ^ e` that is nearest to `m · 2 ^ q` among those that round to it. -/
def onGrid? (m : Nat) (q e : Int) : Option Nat :=
  let scale := Nat.pow 2 (q - 2).toNat * Nat.pow 10 (-e).toNat
  let step := Nat.pow 2 (2 - q).toNat * Nat.pow 10 e.toNat
  let i := Interval.around m q scale
  let d := i.value / step
  let below := i.contains (d * step)
  let above := i.contains ((d + 1) * step)
  if below && (!above || i.value - d * step < (d + 1) * step - i.value) then some d
  else if above then some (d + 1)
  else none

/-- Tries the grids `10 ^ e`, `10 ^ (e - 1)`, … in this order, at most `tries` of them. -/
def search (m : Nat) (q : Int) : Nat → Int → Nat × Int
  | 0, e => (m, e)
  | tries + 1, e =>
    match onGrid? m q e with
    | some d => (d, e)
    | none => search m q tries (e - 1)

/-- A power of ten that is at least `2 ^ n`, and less than a hundred times as much, for the exponents
of 64-bit numbers. -/
def powerAbove (n : Int) : Int :=
  n * 30103 / 100000 + 1

/-- The shortest decimal `d · 10 ^ e` that rounds to `m · 2 ^ q`, for a positive `m`. Seventeen digits
always suffice, so twenty grids do. -/
def shortest (m : Nat) (q : Int) : Nat × Int :=
  search m q 20 (powerAbove (m.log2 + 1 + q))

/-! ### Writing it out -/

/-- The digits `ds` times `10 ^ e` in positional notation. -/
def positional (ds : List Char) (e : Int) : List Char :=
  if 0 ≤ e then ds ++ List.replicate e.toNat '0'
  else
    let places := (-e).toNat
    if places < ds.length then
      ds.take (ds.length - places) ++ '.' :: ds.drop (ds.length - places)
    else ['0', '.'] ++ List.replicate (places - ds.length) '0' ++ ds

/-- The text of a magnitude `m · 2 ^ q`. -/
def magnitudeText (m : Nat) (q : Int) : List Char :=
  if m = 0 then ['0']
  else
    let (d, e) := shortest m q
    positional (digits d) e

/-- The text of a binary number; only the number that is no number has no sign. -/
def Binary.text : Binary → String
  | .nan => "NaN"
  | .infinite negative => if negative then "-inf" else "inf"
  | .finite negative m q =>
    String.ofList (if negative then '-' :: magnitudeText m q else magnitudeText m q)

/-- The text of a 64-bit floating-point number. -/
def floatText (x : Float) : String :=
  (Binary.ofFloat x).text

end TypedSql.Decimal
