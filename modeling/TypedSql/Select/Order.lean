import TypedSql.BuildError
import TypedSql.Dialect

/-!
# Orders

The order of a select: a map with the key `by`, the field, and the key `sort`, the direction. Without
a field there is no order.
-/

namespace TypedSql

/-- A direction of an order. -/
inductive Direction where
  | ascending | descending
deriving DecidableEq, Repr

namespace Direction

/-- The keyword of a direction. -/
def keyword : Direction → String
  | .ascending => "ASC"
  | .descending => "DESC"

/-- The direction of a keyword in any case. -/
def ofKeyword? (s : String) : Option Direction :=
  let upper := s.toList.map Char.toUpper
  if upper = ['A', 'S', 'C'] then some .ascending
  else if upper = ['D', 'E', 'S', 'C'] then some .descending
  else none

end Direction

/-- An order: a field, and a direction if one is asked for. -/
structure Order where
  field : String
  direction : Option Direction
deriving DecidableEq, Repr

namespace Order

/-- The field under `by`; none when there is no value. -/
def field? : Option Value → Except ShapeFault (Option String)
  | none | some .null => .ok none
  | some (.text s) => if s = "" then .error .orderFieldNotText else .ok (some s)
  | some _ => .error .orderFieldNotText

/-- The direction under `sort`; none when there is no value. -/
def direction? : Option Value → Except ShapeFault (Option Direction)
  | none | some .null => .ok none
  | some (.text s) =>
    match Direction.ofKeyword? s with
    | some d => .ok (some d)
    | none => .error .sortUnknown
  | some _ => .error .sortUnknown

/-- The order that a map asks for. The direction is looked at only when there is a field. -/
def ofFields (fields : Record) : Except ShapeFault (Option Order) := do
  match ← field? (Fields.get? fields "by") with
  | none => return none
  | some field =>
    let direction ← direction? (Fields.get? fields "sort")
    return some { field, direction }

/-- The order that a request asks for. -/
def ofValue? : Option Value → Except BuildError (Option Order)
  | none | some .null => .ok none
  | some (.map fields) => (ofFields fields).mapError .invalidShape
  | some _ => .error (.invalidShape .orderNotMap)

/-- The ORDER BY part, with a blank in front. -/
def clause (w : Writer) (order : Order) : String :=
  " ORDER BY " ++ w.identifier order.field
    ++ (match order.direction with
      | some direction => " " ++ direction.keyword
      | none => "")

end Order

end TypedSql
