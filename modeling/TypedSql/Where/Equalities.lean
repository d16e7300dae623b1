import TypedSql.BuildError
import TypedSql.Dialect
import TypedSql.Mapping
import TypedSql.Text.Normal

/-!
# Equality conditions

A where object of the simple kind: every entry asks that a field equals a value, and all of them have
to hold. An entry that is not declared, has no value or does not satisfy its type is an error.
-/

namespace TypedSql.Where

/-- The equalities of a where clause, in order. -/
structure Equalities where
  params : List (String × Value)

namespace Equalities

/-- The value that is bound to a field: a text in normal form for a text field, the value itself for
a number or a date and time. -/
def bind? : FieldType → Value → Option Value
  | .string, .text s => some (.text (Text.normalise s))
  | .number, v => if FieldType.number.accepts v then some v else none
  | .datetime, v => if FieldType.datetime.accepts v then some v else none
  | _, _ => none

/-- One entry with the value that is bound to it. -/
def param (mapping : Mapping) (name : String) (value : Value) :
    Except BuildError (String × Value) :=
  match (mapping.get? name).bind fun type => bind? type value with
  | some bound => .ok (name, bound)
  | none => .error (.invalidWhereValue name value)

/-- The entries with their bound values, up to the first that has none. -/
def params? (mapping : Mapping) : Record → Except BuildError (List (String × Value))
  | [] => .ok []
  | (name, value) :: rest => do
    let first ← param mapping name value
    let others ← params? mapping rest
    return first :: others

/-- The equalities that a where object asks for. -/
def ofRecord (filter : Record) (mapping : Mapping) : Except BuildError Equalities :=
  (params? mapping filter).map Equalities.mk

/-- Nothing is asked for. -/
def isEmpty (e : Equalities) : Bool := e.params.isEmpty

/-- The template of the clause, `WHERE ? AND ?`, with one placeholder for each equality. -/
def template (e : Equalities) : String :=
  if e.params.isEmpty then ""
  else "WHERE " ++ String.intercalate " AND " (e.params.map fun _ => "?")

/-- The clause, in which each placeholder is filled with one assignment. -/
def render (w : Writer) (e : Equalities) : String :=
  w.format e.template (e.params.map fun pair => .assignments [pair])

end Equalities

end TypedSql.Where
