import TypedSql.Decimal.Numeral
import TypedSql.Toml.Value

/-!
# TOML numbers, truth values, dates and times

Values that are written without quotes. Underscores may stand between digits. Integers fit in 128 bits,
with a sign or without, and real numbers are finite unless they are written as infinite. A date or a
time has to exist.
-/

namespace TypedSql.Toml

/-! ### Digits -/

/-- Digits with single underscores between them; the digits are left. -/
def digitGroup? (isDigit : Char → Bool) : List Char → Option (List Char)
  | [] => none
  | [c] => if isDigit c then some [c] else none
  | c :: '_' :: rest => if isDigit c then (digitGroup? isDigit rest).map (c :: ·) else none
  | c :: d :: rest => if isDigit c then (digitGroup? isDigit (d :: rest)).map (c :: ·) else none

/-- The digits of a decimal integer: zero, or no zero in front. -/
def wholeGroup? (cs : List Char) : Option (List Char) :=
  match digitGroup? Char.isDigit cs with
  | some ('0' :: _ :: _) => none
  | found => found

/-- A digit of a base up to sixteen. -/
def isDigitOf (base : Nat) (c : Char) : Bool :=
  let c := c.toLower
  (c.isDigit && c.toNat - '0'.toNat < base) || (base == 16 && 'a' ≤ c && c ≤ 'f')

/-- The number that digits of a base stand for. -/
def ofDigitsOf (base : Nat) (ds : List Char) : Nat :=
  ds.foldl (fun value c =>
    base * value + (if c.isDigit then c.toNat - '0'.toNat else c.toLower.toNat - 'a'.toNat + 10)) 0

/-! ### Numbers -/

/-- An integer that fits in 128 bits, with a sign or without. -/
def inRange (n : Int) : Option Value :=
  if -(Nat.pow 2 127 : Int) ≤ n && n < Nat.pow 2 128 then some (.integer n) else none

/-- An integer in base sixteen, eight or two, behind its mark. -/
def basedInteger? (base : Nat) (cs : List Char) : Option Value :=
  (digitGroup? (isDigitOf base) cs).bind fun ds => inRange (ofDigitsOf base ds)

/-- An integer. -/
def integer? : List Char → Option Value
  | '0' :: 'x' :: rest => basedInteger? 16 rest
  | '0' :: 'o' :: rest => basedInteger? 8 rest
  | '0' :: 'b' :: rest => basedInteger? 2 rest
  | cs =>
    let (sign, rest) := Decimal.splitSign cs
    (wholeGroup? rest).bind fun ds =>
      inRange (if sign = ['-'] then -(Decimal.ofDigits ds : Int) else Decimal.ofDigits ds)

/-- The characters in front of the point and the exponent, those behind the point, and those behind the
mark of the exponent. -/
def splitReal (cs : List Char) : List Char × Option (List Char) × Option (List Char) :=
  let isMark (c : Char) : Bool := c == 'e' || c == 'E'
  let front := cs.takeWhile fun c => !(isMark c || c == '.')
  let afterExponent (cs : List Char) : Option (List Char) :=
    match cs.dropWhile fun c => !isMark c with
    | [] => none
    | _ :: rest => some rest
  match cs.drop front.length with
  | '.' :: rest => (front, some (rest.takeWhile fun c => !isMark c), afterExponent rest)
  | rest => (front, none, afterExponent rest)

/-- A real number: an integer with a fraction, an exponent or both, or infinity, or no number. -/
def real? (cs : List Char) : Option Value :=
  let (sign, rest) := Decimal.splitSign cs
  if rest = ['i', 'n', 'f'] then
    some (.real (if sign = ['-'] then -Decimal.infinity else Decimal.infinity))
  else if rest = ['n', 'a', 'n'] then some (.real Decimal.notANumber)
  else
    match splitReal rest with
    | (_, none, none) => none
    | (front, fraction, exponent) => do
      let whole ← wholeGroup? front
      let fraction ← match fraction with
        | none => some []
        | some ds => (digitGroup? Char.isDigit ds).map ('.' :: ·)
      let exponent ← match exponent with
        | none => some []
        | some ds =>
          let (sign, ds) := Decimal.splitSign ds
          (digitGroup? Char.isDigit ds).map fun ds => 'e' :: sign ++ ds
      let numeral ← Decimal.Numeral.read? (sign ++ whole ++ fraction ++ exponent)
      if numeral.toFloat.isFinite then some (.real numeral.toFloat) else none

/-! ### Dates and times -/

/-- A number of exactly `count` digits at the head of the text. -/
def fixedNumber? (count : Nat) (cs : List Char) : Option (Nat × List Char) :=
  let ds := cs.take count
  if ds.length = count && ds.all Char.isDigit then some (Decimal.ofDigits ds, cs.drop count)
  else none

/-- The number of days of a month. -/
def daysInMonth (year month : Nat) : Nat :=
  if month = 2 then
    if year % 4 = 0 && (year % 100 ≠ 0 || year % 400 = 0) then 29 else 28
  else if month = 4 || month = 6 || month = 9 || month = 11 then 30
  else 31

/-- What follows one character. -/
def after? (mark : Char) : List Char → Option (List Char)
  | c :: rest => if c = mark then some rest else none
  | [] => none

/-- What follows a date. -/
def afterDate? (cs : List Char) : Option (List Char) := do
  let (year, cs) ← fixedNumber? 4 cs
  let (month, cs) ← fixedNumber? 2 (← after? '-' cs)
  let (day, cs) ← fixedNumber? 2 (← after? '-' cs)
  if 1 ≤ month && month ≤ 12 && 1 ≤ day && day ≤ daysInMonth year month then some cs else none

/-- What follows the seconds of a time and their fraction, which may both be missing. -/
def afterSeconds? (cs : List Char) : Option (List Char) :=
  match cs with
  | ':' :: rest => do
    let (second, rest) ← fixedNumber? 2 rest
    if 60 < second then none
    else match rest with
      | '.' :: rest' =>
        match Decimal.splitDigits rest' with
        | ([], _) => none
        | (_, rest'') => some rest''
      | _ => some rest
  | _ => some cs

/-- What follows a time. -/
def afterTime? (cs : List Char) : Option (List Char) := do
  let (hour, cs) ← fixedNumber? 2 cs
  let (minute, cs) ← fixedNumber? 2 (← after? ':' cs)
  if hour ≤ 23 && minute ≤ 59 then afterSeconds? cs else none

/-- Whether the text is nothing or the distance from universal time. -/
def isOffset : List Char → Bool
  | [] => true
  | [c] => c == 'Z' || c == 'z'
  | c :: rest =>
    (c == '+' || c == '-') &&
      match fixedNumber? 2 rest with
      | some (hour, ':' :: rest') =>
        match fixedNumber? 2 rest' with
        | some (minute, []) => hour ≤ 23 && minute ≤ 59
        | _ => false
      | _ => false

/-- A date, a time, or both with a mark between them. -/
def isDateTime (cs : List Char) : Bool :=
  match afterDate? cs with
  | some [] => true
  | some (mark :: rest) =>
    (mark == 'T' || mark == 't' || mark == ' ') &&
      match afterTime? rest with
      | some offset => isOffset offset
      | none => false
  | none => afterTime? cs == some []

/-! ### Any of these -/

/-- A character of a value without quotes. -/
def isScalarChar (c : Char) : Bool :=
  c.isAlphanum || c == '+' || c == '-' || c == '_' || c == '.' || c == ':'

/-- The characters of a value without quotes, and what follows. A blank belongs to it between a date and
a time. -/
def splitScalar (cs : List Char) : List Char × List Char :=
  let front := cs.takeWhile isScalarChar
  match afterDate? front, cs.drop front.length with
  | some [], ' ' :: c :: rest =>
    if c.isDigit then
      (front ++ ' ' :: (c :: rest).takeWhile isScalarChar, (c :: rest).dropWhile isScalarChar)
    else (front, ' ' :: c :: rest)
  | _, rest => (front, rest)

/-- A value without quotes. -/
def scalarValue? (cs : List Char) : Option Value :=
  if cs = ['t', 'r', 'u', 'e'] then some (.bool true)
  else if cs = ['f', 'a', 'l', 's', 'e'] then some (.bool false)
  else if isDateTime cs then some (.dateTime cs)
  else (integer? cs).or (real? cs)

end TypedSql.Toml
