import TypedSql.Json.Value

/-!
# JSON trees

A JSON value with its meaning, but without the order of members: an object keeps its keys in ascending
order. A value can be made from a tree as well as from the text directly; the two ways differ only in
the order of the fields.
-/

namespace TypedSql.Json

/-- A JSON value. -/
inductive Tree where
  | null
  | bool (b : Bool)
  /-- A whole number that fits in 64 bits, with a sign or without. -/
  | integer (n : Int)
  | real (x : Float)
  | string (s : String)
  | array (items : List Tree)
  /-- Members in ascending order of their keys. -/
  | object (members : List (String × Tree))

namespace Tree

/-- A whole number fits in 64 bits, with a sign or without. -/
def FitsWord (n : Int) : Prop := Int64.minValue.toInt ≤ n ∧ n < UInt64.size

instance (n : Int) : Decidable (FitsWord n) := by
  unfold FitsWord; infer_instance

/-- The tree of a number. -/
def ofNumber? (lexeme : List Char) : Option Tree :=
  match integer? lexeme with
  | some n => if FitsWord n then some (.integer n) else (finite? lexeme).map .real
  | none => (finite? lexeme).map .real

mutual

/-- The tree of a node, whatever its depth. -/
def ofNode? : Node → Option Tree
  | .null => some .null
  | .bool b => some (.bool b)
  | .number lexeme => ofNumber? lexeme
  | .string text => text.map .string
  | .array items => (ofItems? items).map .array
  | .object members => (ofMembers? [] members).map .object

/-- The trees of the items of an array. -/
def ofItems? : List Node → Option (List Tree)
  | [] => some []
  | item :: rest => do
    let tree ← ofNode? item
    let trees ← ofItems? rest
    return tree :: trees

/-- Inserts the members of an object in the ascending order of their keys. -/
def ofMembers? (sorted : List (String × Tree)) :
    List (Option String × Node) → Option (List (String × Tree))
  | [] => some sorted
  | (key, member) :: rest => do
    let key ← key
    let tree ← ofNode? member
    ofMembers? (Fields.insertSorted sorted key tree) rest

end

/-- The tree that a whole text is. -/
def ofText? (text : String) : Option Tree :=
  (wholeNode? text).bind fun node => if node.depth < depthLimit then ofNode? node else none

/-! ### Values -/

/-- The value of a whole number: a floating-point number when it does not fit in 64 bits with a sign. -/
def integerValue (n : Int) : Value :=
  match Decimal.int64? n with
  | some m => .int m
  | none => .float (Decimal.Numeral.toFloat ⟨n < 0, n.natAbs, 0⟩)

mutual

/-- The value of a tree. -/
def toValue : Tree → Value
  | .null => .null
  | .bool b => .bool b
  | .integer n => integerValue n
  | .real x => .float x
  | .string s => .text s
  | .array items => .list (toValues items)
  | .object members => .map (toRecord [] members)

/-- The values of a list of trees. -/
def toValues : List Tree → List Value
  | [] => []
  | t :: rest => toValue t :: toValues rest

/-- Inserts the members of a tree one after the other. -/
def toRecord (record : Record) : List (String × Tree) → Record
  | [] => record
  | (key, t) :: rest => toRecord (Fields.insert record key (toValue t)) rest

end

end Tree

end TypedSql.Json
