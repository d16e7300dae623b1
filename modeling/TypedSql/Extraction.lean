import TypedSql.Dialect
import TypedSql.Geometry
import TypedSql.Logged
import TypedSql.Mapping
import TypedSql.Text.Normal

/-!
# Data for a SET clause

The fields of a data record that a statement assigns. A field that is not declared, or whose value
does not satisfy its scalar type, is dropped and reported; a declared field without a value is left
out in silence. Only a malformed point or polygon is an error.

A SET clause has the points first, then the polygons, then the scalar assignments.
-/

namespace TypedSql

/-- What one data field contributes to a SET clause. -/
inductive SetItem where
  /-- A scalar assignment. -/
  | assignment (name : String) (value : Value)
  /-- The fragment of a point. -/
  | point (fragment : String)
  /-- The fragment of a polygon. -/
  | polygon (fragment : String)

namespace SetItem

/-- The pair of a scalar assignment. -/
def assignment? : SetItem → Option (String × Value)
  | .assignment name value => some (name, value)
  | _ => none

/-- The fragment of a point. -/
def point? : SetItem → Option String
  | .point fragment => some fragment
  | _ => none

/-- The fragment of a polygon. -/
def polygon? : SetItem → Option String
  | .polygon fragment => some fragment
  | _ => none

end SetItem

/-- The fields of a data record that a statement assigns, each list in the order of the record. -/
structure Extraction where
  assignments : List (String × Value)
  points : List String
  polygons : List String

namespace Extraction

/-! ### Extracting -/

/-- Reports that a field is dropped; it contributes nothing. -/
def drop (name : String) (value : Value) (reason : DropReason) :
    Logged BuildError (Option SetItem) := do
  Logged.emit (.droppedField name value.kind reason)
  return none

/-- What one field contributes. -/
def item (mapping : Mapping) (name : String) (value : Value) :
    Logged BuildError (Option SetItem) :=
  match mapping.get? name with
  | none => drop name value .unmapped
  | some type =>
    if value.isNull then pure none
    else match type with
      | .string =>
        match value with
        | .text s => pure (some (.assignment name (.text (Text.normalise s))))
        | _ => drop name value .notText
      | .number | .datetime =>
        if type.accepts value then pure (some (.assignment name value))
        else drop name value .typeMismatch
      | .point => do
        let fragment ← Logged.ofExcept (Geometry.point name value)
        return fragment.map .point
      | .polygon => do
        let fragment ← Logged.ofExcept (Geometry.polygon name value)
        return fragment.map .polygon

/-- What the fields of a record contribute, in order. -/
def items (mapping : Mapping) : Record → Logged BuildError (List SetItem)
  | [] => pure []
  | (name, value) :: rest => do
    let first ← item mapping name value
    let others ← items mapping rest
    return first.toList ++ others

/-- Sorts the contributions by their sort, keeping the order within each. -/
def ofItems (items : List SetItem) : Extraction :=
  { assignments := items.filterMap SetItem.assignment?
    points := items.filterMap SetItem.point?
    polygons := items.filterMap SetItem.polygon? }

/-- The fields of a record that the mapping lets into a statement. -/
def ofRecord (data : Record) (mapping : Mapping) : Logged BuildError Extraction := do
  let found ← items mapping data
  return ofItems found

/-- Nothing is assigned. -/
def isEmpty (e : Extraction) : Bool :=
  e.assignments.isEmpty && e.points.isEmpty && e.polygons.isEmpty

/-! ### Rendering -/

/-- The text without a comma at its end. -/
def dropLastComma (s : String) : String :=
  if s.toList.getLast? = some ',' then String.ofList s.toList.dropLast else s

/-- The body of the SET clause. The comma after the last fragment stays only in front of a scalar
assignment. -/
def setBody (w : Writer) (e : Extraction) : String :=
  let geometry := String.join (e.points ++ e.polygons)
  if e.assignments.isEmpty then dropLastComma geometry
  else geometry ++ w.assignments e.assignments

end Extraction

end TypedSql
