import TypedSql.BuildError
import TypedSql.Decimal.Numeral
import TypedSql.Settings
import TypedSql.Text.Blank

/-!
# Pages

The page that a select asks for: a list of two whole numbers, how many rows to skip and how many to
take. A fraction is cut off, and a number out of range becomes the nearest one in range. The lenient
policy also reads numbers from the beginning of texts, where a number out of range counts as none.
-/

namespace TypedSql.Page

/-- The whole number that a numeric value gives. -/
def strictInt? : Value → Option Int64
  | .int n => some n
  | .float x => Decimal.truncatedInt64? x
  | _ => none

/-- The whole number that a text begins with after its leading blanks: an optional sign and all digits
that follow. There is none when there is no digit or the number does not fit in 64 bits. -/
def leadingInt64? (s : String) : Option Int64 :=
  let (sign, rest) := Decimal.splitSign (Text.trimStart s.toList)
  let (ds, _) := Decimal.splitDigits rest
  if ds.isEmpty then none
  else
    let magnitude : Int := Decimal.ofDigits ds
    Decimal.int64? (if sign = ['-'] then -magnitude else magnitude)

/-- The whole number that the lenient policy reads from a value. -/
def lenientInt? : Value → Option Int64
  | .text s => leadingInt64? s
  | v => strictInt? v

/-- The page under the strict policy. -/
def strict? : Value → Except ShapeFault Page
  | .list [index, limit] =>
    match strictInt? index, strictInt? limit with
    | some offset, some limit => .ok { offset, limit }
    | none, _ => .error .offsetNotNumber
    | some _, none => .error .limitNotNumber
  | .list _ => .error .offsetNotPair
  | _ => .error .offsetNotList

/-- The page under the lenient policy, if the value gives one. -/
def lenient? : Value → Option Page
  | .list [index, limit] =>
    match lenientInt? index, lenientInt? limit with
    | some offset, some limit => some { offset, limit }
    | _, _ => none
  | _ => none

/-- The page that a request asks for. -/
def ofValue? (settings : Settings) : Option Value → Except BuildError (Option Page)
  | none | some .null => .ok none
  | some v =>
    if settings.isLenient then .ok ((lenient? v).or settings.fallback)
    else (strict? v).map some |>.mapError .invalidShape

/-- The LIMIT part, with a blank in front. -/
def clause (page : Page) : String :=
  " LIMIT " ++ Decimal.integerText page.offset.toInt ++ ", "
    ++ Decimal.integerText page.limit.toInt

end TypedSql.Page
