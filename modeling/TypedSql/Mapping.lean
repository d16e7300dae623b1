import TypedSql.Value

/-!
# Mappings

A mapping declares the fields of a table: each name has one of five types. Values of the scalar types
are accepted or not by their kind; the geometric types accept no scalar value at all.
-/

namespace TypedSql

/-- The declared type of a field. -/
inductive FieldType where
  | string | number | datetime | point | polygon
deriving DecidableEq, Repr

namespace FieldType

/-- All types, in the order of their declaration. -/
def all : List FieldType := [.string, .number, .datetime, .point, .polygon]

/-- The name of a type. -/
def name : FieldType → String
  | .string => "string"
  | .number => "number"
  | .datetime => "datetime"
  | .point => "point"
  | .polygon => "polygon"

/-- The type of a name. -/
def ofName? (s : String) : Option FieldType :=
  all.find? fun t => t.name == s

/-- Points and polygons. -/
def isGeometry : FieldType → Bool
  | .point | .polygon => true
  | _ => false

/-- Whether a value satisfies the type as a scalar: text for `string`, a finite number for `number`,
text or a date and time for `datetime`, and nothing for the geometric types. -/
def accepts : FieldType → Value → Bool
  | .string, .text _ => true
  | .number, v => v.isNumeric
  | .datetime, .text _ => true
  | .datetime, .datetime _ => true
  | _, _ => false

@[simp] theorem ofName?_name (t : FieldType) : ofName? t.name = some t := by
  cases t <;> decide

theorem accepts_eq_false_of_isGeometry {t : FieldType} (h : t.isGeometry = true) (v : Value) :
    t.accepts v = false := by
  cases t <;> simp_all [isGeometry, accepts]

@[simp] theorem accepts_null (t : FieldType) : t.accepts .null = false := by
  cases t <;> rfl

end FieldType

/-- The types of the fields of a table, in ascending order of their names. -/
structure Mapping where
  fields : Fields FieldType
deriving DecidableEq, Repr

namespace Mapping

/-- The mapping without fields. -/
def empty : Mapping := ⟨[]⟩

/-- Declares a field; a field that is declared again takes the new type. -/
def insert (m : Mapping) (name : String) (type : FieldType) : Mapping :=
  ⟨Fields.insertSorted m.fields name type⟩

/-- The mapping of a list of declarations. -/
def ofPairs (pairs : List (String × FieldType)) : Mapping :=
  ⟨Fields.ofPairsSorted pairs⟩

/-- The declared type of a field. -/
def get? (m : Mapping) (name : String) : Option FieldType :=
  Fields.get? m.fields name

/-- Whether a field is declared. -/
def contains (m : Mapping) (name : String) : Bool :=
  (m.get? name).isSome

/-- The number of fields. -/
def size (m : Mapping) : Nat := m.fields.length

/-- No field is declared. -/
def isEmpty (m : Mapping) : Bool := m.fields.isEmpty

@[simp] theorem get?_insert_self (m : Mapping) (name : String) (type : FieldType) :
    (m.insert name type).get? name = some type :=
  Fields.get?_insertSorted_self _ _ _

end Mapping

end TypedSql
