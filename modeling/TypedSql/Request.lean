import TypedSql.Mapping

/-!
# Requests

A request holds the parts that a statement is built from, each of which may be absent. An operation
reads the parts that it needs, reports those that it requires and does not find, and passes over the
rest.
-/

namespace TypedSql

/-- The parts of a statement that a caller supplies. -/
structure Request where
  /-- The fields to assign. -/
  data : Option Record
  /-- The condition on the rows. -/
  filter : Option Record
  /-- The types of the fields. -/
  mapping : Option Mapping
  /-- The name of the table. -/
  table : Option String
  /-- The columns to read. -/
  select : Option Value
  /-- The order of the rows. -/
  order : Option Value
  /-- The page of rows. -/
  offset : Option Value
  /-- The alias of the count. -/
  count : Option Value

namespace Request

/-- The request without parts. -/
def empty : Request :=
  { data := none, filter := none, mapping := none, table := none
    select := none, order := none, offset := none, count := none }

/-- The request with another table and its mapping. -/
def withTarget (r : Request) (table : String) (mapping : Mapping) : Request :=
  { r with table := some table, mapping := some mapping }

end Request

end TypedSql
