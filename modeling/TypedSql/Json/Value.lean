import TypedSql.Json.Node
import TypedSql.Value

/-!
# Values from JSON

A number without fraction and exponent that fits in 64 bits is a whole number; every other number is a
floating-point number, and so is minus zero. A number beyond the greatest finite one is refused, and so
are strings without a text and values that are nested too deep. Of a repeated key the last value counts,
in the place of the first.
-/

namespace TypedSql.Json

/-! ### Numbers -/

/-- A number is written without fraction and exponent. -/
def isWhole (lexeme : List Char) : Bool := lexeme.all fun c => c.isDigit || c == '-'

/-- The integer that a number is, if it is written as one and is not minus zero. -/
def integer? (lexeme : List Char) : Option Int :=
  match isWhole lexeme, Decimal.Numeral.read? lexeme with
  | true, some n =>
    if n.negative then
      if n.mantissa = 0 then none else some (-(n.mantissa : Int))
    else some n.mantissa
  | _, _ => none

/-- The finite floating-point number nearest to a number. -/
def finite? (lexeme : List Char) : Option Float :=
  match Decimal.Numeral.read? lexeme with
  | some n => if n.toFloat.isFinite then some n.toFloat else none
  | none => none

/-- The value of a number. -/
def numberValue? (lexeme : List Char) : Option Value :=
  match (integer? lexeme).bind Decimal.int64? with
  | some n => some (.int n)
  | none => (finite? lexeme).map .float

/-! ### Values -/

mutual

/-- The value of a node, whatever its depth. -/
def valueOfNode? : Node → Option Value
  | .null => some .null
  | .bool b => some (.bool b)
  | .number lexeme => numberValue? lexeme
  | .string text => text.map .text
  | .array items => (valuesOfItems? items).map .list
  | .object members => (recordOfMembers? [] members).map .map

/-- The values of the items of an array. -/
def valuesOfItems? : List Node → Option (List Value)
  | [] => some []
  | item :: rest => do
    let value ← valueOfNode? item
    let values ← valuesOfItems? rest
    return value :: values

/-- Inserts the members of an object one after the other. -/
def recordOfMembers? (record : Record) : List (Option String × Node) → Option Record
  | [] => some record
  | (key, member) :: rest => do
    let key ← key
    let value ← valueOfNode? member
    recordOfMembers? (Fields.insert record key value) rest

end

/-- The value of a node that stands inside `outer` arrays and objects. -/
def value? (outer : Nat) (node : Node) : Option Value :=
  if node.depth + outer < depthLimit then valueOfNode? node else none

/-- The value that a whole text is. -/
def valueOfText? (text : String) : Option Value :=
  (wholeNode? text).bind (value? 0)

/-! ### Records -/

/-- Why a JSON text is refused. -/
inductive Fault where
  /-- It is not JSON, or does not fit what is read. -/
  | malformed
  /-- A value of another kind stands in the place of an object. -/
  | notObject (kind : Kind)
deriving DecidableEq, Repr

/-- The text of a fault, where it has one of its own. -/
def Fault.message? : Fault → Option String
  | .malformed => none
  | .notObject kind => some ("expected an object, got " ++ kind.name)

/-- The record of a node that stands inside `outer` arrays and objects. -/
def record (outer : Nat) (node : Node) : Except Fault Record :=
  match value? outer node with
  | some (.map fields) => .ok fields
  | some other => .error (.notObject other.kind)
  | none => .error .malformed

/-- The record that a whole text is. What follows the value is looked at last. -/
def recordOfText (text : String) : Except Fault Record := do
  match firstNode? text.toList with
  | some (node, rest) =>
    let fields ← record 0 node
    if atEnd rest then return fields else throw .malformed
  | none => throw .malformed

end TypedSql.Json
