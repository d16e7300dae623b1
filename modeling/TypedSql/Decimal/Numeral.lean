import TypedSql.Decimal.Digits

/-!
# Numerals

Decimal numerals as text: an optional sign, digits with an optional point among them or at either
end, and an optional exponent. `Numeral.read?` reads a text that is a numeral as a whole,
`leadingNumeral` finds the longest numeral that a text begins with, and `Numeral.toFloat` is the
64-bit floating-point number nearest to the numeral's value, ties to even.
-/

namespace TypedSql.Decimal

/-- The number `± mantissa · 10 ^ exponent`. Zero has a sign. -/
structure Numeral where
  /-- Whether the numeral has a minus sign. -/
  negative : Bool
  /-- All digits before the exponent, read as one number. -/
  mantissa : Nat
  /-- The power of ten. -/
  exponent : Int
deriving DecidableEq, Repr

/-! ### Parts of a numeral -/

/-- A sign at the head of the text, and what follows it. -/
def splitSign : List Char → List Char × List Char
  | '+' :: rest => (['+'], rest)
  | '-' :: rest => (['-'], rest)
  | cs => ([], cs)

/-- The digits at the head of the text, and what follows them. -/
def splitDigits (cs : List Char) : List Char × List Char :=
  (cs.takeWhile Char.isDigit, cs.dropWhile Char.isDigit)

/-- The longest fraction at the head of the text: a point and digits. A point without digits counts
when there are digits in front of it. -/
def splitFraction (whole : List Char) : List Char → List Char × List Char
  | '.' :: rest =>
    let (fraction, rest') := splitDigits rest
    if whole.isEmpty && fraction.isEmpty then ([], '.' :: rest) else ('.' :: fraction, rest')
  | cs => ([], cs)

/-- The longest exponent at the head of the text: `e` or `E`, an optional sign and digits. -/
def splitExponent : List Char → List Char × List Char
  | [] => ([], [])
  | c :: rest =>
    if c = 'e' || c = 'E' then
      let (sign, rest') := splitSign rest
      let (power, rest'') := splitDigits rest'
      if power.isEmpty then ([], c :: rest) else (c :: sign ++ power, rest'')
    else ([], c :: rest)

/-- The longest numeral that the text begins with. -/
def leadingNumeral (cs : List Char) : Option (List Char) :=
  let (sign, afterSign) := splitSign cs
  let (whole, afterWhole) := splitDigits afterSign
  let (fraction, afterFraction) := splitFraction whole afterWhole
  let (exponent, _) := splitExponent afterFraction
  if whole.isEmpty && fraction.isEmpty then none
  else some (sign ++ whole ++ fraction ++ exponent)

/-! ### Reading -/

/-- An integer with an optional sign, to the end of the text. -/
def signedInteger? (cs : List Char) : Option Int :=
  let (sign, rest) := splitSign cs
  let (ds, rest') := splitDigits rest
  if ds.isEmpty || !rest'.isEmpty then none
  else some (if sign = ['-'] then -(ofDigits ds : Int) else ofDigits ds)

/-- The power of ten that an exponent at the end of a numeral stands for. -/
def exponentValue? : List Char → Option Int
  | [] => some 0
  | c :: rest => if c = 'e' || c = 'E' then signedInteger? rest else none

/-- The digits after the point. -/
def fractionDigits : List Char → List Char
  | [] => []
  | _ :: ds => ds

/-- The numeral that the whole text is, if it is one. -/
def Numeral.read? (cs : List Char) : Option Numeral :=
  let (sign, afterSign) := splitSign cs
  let (whole, afterWhole) := splitDigits afterSign
  let (fraction, afterFraction) := splitFraction whole afterWhole
  if whole.isEmpty && fraction.isEmpty then none
  else
    let fraction := fractionDigits fraction
    (exponentValue? afterFraction).map fun power =>
      { negative := sign = ['-']
        mantissa := ofDigits (whole ++ fraction)
        exponent := power - fraction.length }

/-! ### Value -/

/-- Positive infinity. -/
def infinity : Float := Float.ofBits 0x7FF0000000000000

/-- The number that is no number. -/
def notANumber : Float := Float.ofBits 0x7FF8000000000000

/-- Whether `mantissa · 10 ^ exponent` lies beyond every finite number. -/
def Numeral.isHuge (n : Numeral) : Bool :=
  n.mantissa ≠ 0 && 400 < n.exponent

/-- Whether `mantissa · 10 ^ exponent` lies below half of the least positive number. -/
def Numeral.isTiny (n : Numeral) : Bool :=
  n.mantissa = 0 || n.exponent < -(400 + n.mantissa.log2 : Int)

/-- The 64-bit number nearest to the numeral, ties to even; infinity beyond the greatest. Numbers far
out of range are settled without computing the power of ten. -/
def Numeral.toFloat (n : Numeral) : Float :=
  let magnitude :=
    if n.isHuge then infinity
    else if n.isTiny then 0.0
    else Float.ofScientific n.mantissa (n.exponent < 0) n.exponent.natAbs
  if n.negative then -magnitude else magnitude

/-- The 32-bit number nearest to the numeral, ties to even; infinity beyond the greatest. -/
def Numeral.toFloat32 (n : Numeral) : Float32 :=
  let magnitude :=
    if n.isHuge then Float32.ofBits 0x7F800000
    else if n.isTiny then 0.0
    else Float32.ofScientific n.mantissa (n.exponent < 0) n.exponent.natAbs
  if n.negative then -magnitude else magnitude

/-- The 64-bit number that a text names: a numeral, or `NaN`, `inf` or `-inf`. -/
def float? (s : String) : Option Float :=
  if s = "NaN" then some notANumber
  else if s = "inf" then some infinity
  else if s = "-inf" then some (-infinity)
  else (Numeral.read? s.toList).map Numeral.toFloat

/-- The 32-bit number that a text names, widened to 64 bits; every such number keeps its value. -/
def widenedFloat32? (s : String) : Option Float :=
  if s = "NaN" then some notANumber
  else if s = "inf" then some infinity
  else if s = "-inf" then some (-infinity)
  else (Numeral.read? s.toList).map fun n => n.toFloat32.toFloat

end TypedSql.Decimal
