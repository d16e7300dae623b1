import TypedSql.Decimal.Shortest
import TypedSql.Fields
import TypedSql.DateTime

/-!
# Values

The values that a caller supplies for fields and conditions. A value knows its kind, so that checking
it against the type of a field is a matter of cases. A record is an insertion-ordered list of named
values; the order of assignments and conditions in a statement follows it.
-/

namespace TypedSql

/-- A value of a field or a condition. -/
inductive Value where
  /-- No value. -/
  | null
  | bool (b : Bool)
  /-- A whole number of 64 bits. -/
  | int (n : Int64)
  /-- A floating-point number of 64 bits. -/
  | float (x : Float)
  | text (s : String)
  | datetime (t : DateTime)
  | list (items : List Value)
  /-- Named values. -/
  | map (fields : List (String × Value))

instance : Inhabited Value := ⟨.null⟩

/-- Named values in the order of their first insertion. -/
abbrev Record := List (String × Value)

/-- The kinds of values. -/
inductive Kind where
  | null | bool | int | float | text | datetime | list | map
deriving DecidableEq, Repr

/-- The name of a kind. -/
def Kind.name : Kind → String
  | .null => "null"
  | .bool => "bool"
  | .int => "int"
  | .float => "float"
  | .text => "text"
  | .datetime => "datetime"
  | .list => "list"
  | .map => "map"

namespace Value

/-- The kind of a value. -/
def kind : Value → Kind
  | .null => .null
  | .bool _ => .bool
  | .int _ => .int
  | .float _ => .float
  | .text _ => .text
  | .datetime _ => .datetime
  | .list _ => .list
  | .map _ => .map

/-! ### Views -/

/-- There is no value. -/
def isNull : Value → Bool
  | .null => true
  | _ => false

/-- A whole number, or a floating-point number that is neither infinite nor no number. -/
def isNumeric : Value → Bool
  | .int _ => true
  | .float x => x.isFinite
  | _ => false

/-- The text of a text value. -/
def text? : Value → Option String
  | .text s => some s
  | _ => none

/-- The items of a list. -/
def items? : Value → Option (List Value)
  | .list items => some items
  | _ => none

/-- The fields of a map. -/
def fields? : Value → Option Record
  | .map fields => some fields
  | _ => none

/-! ### Display -/

mutual

/-- A value as it is shown in messages: texts bare, lists separated by commas, maps in braces. -/
def display : Value → String
  | .null => "null"
  | .bool b => if b then "true" else "false"
  | .int n => Decimal.integerText n.toInt
  | .float x => Decimal.floatText x
  | .text s => s
  | .datetime t => t.text
  | .list items => String.intercalate "," (displayItems items)
  | .map fields => "\x7b" ++ String.intercalate ", " (displayFields fields) ++ "\x7d"

/-- The items of a list as they are shown. -/
def displayItems : List Value → List String
  | [] => []
  | v :: rest => display v :: displayItems rest

/-- The fields of a map as they are shown. -/
def displayFields : List (String × Value) → List String
  | [] => []
  | (name, v) :: rest => (name ++ ": " ++ display v) :: displayFields rest

end

/-! ### Equality -/

mutual

/-- Equality of values. Numbers are compared as numbers within their kind: a whole number never equals
a floating-point number, negative zero equals zero, and what is no number equals nothing. -/
def equal : Value → Value → Bool
  | .null, .null => true
  | .bool a, .bool b => a == b
  | .int a, .int b => a == b
  | .float a, .float b => a == b
  | .text a, .text b => a == b
  | .datetime a, .datetime b => a == b
  | .list a, .list b => equalItems a b
  | .map a, .map b => equalFields a b
  | _, _ => false

/-- Equality item by item. -/
def equalItems : List Value → List Value → Bool
  | [], [] => true
  | a :: as, b :: bs => equal a b && equalItems as bs
  | _, _ => false

/-- Equality field by field, in order. -/
def equalFields : List (String × Value) → List (String × Value) → Bool
  | [], [] => true
  | (n, a) :: as, (m, b) :: bs => n == m && equal a b && equalFields as bs
  | _, _ => false

end

instance : BEq Value := ⟨equal⟩

end Value

end TypedSql
