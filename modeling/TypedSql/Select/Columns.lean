import TypedSql.Dialect
import TypedSql.Mapping

/-!
# Columns of a select

The columns of a select are the declared ones among the names that a request lists, or all columns when
none is left.
-/

namespace TypedSql

namespace Columns

/-- The declared names in a list of values; values of another kind than text are passed over. -/
def declared (mapping : Mapping) : List Value → List String
  | [] => []
  | .text name :: rest =>
    if mapping.contains name then name :: declared mapping rest else declared mapping rest
  | _ :: rest => declared mapping rest

/-- The names that a request selects. Anything but a list selects nothing by name. -/
def names (mapping : Mapping) : Option Value → List String
  | some (.list items) => declared mapping items
  | _ => []

/-- One more column, after a comma when the text so far is not empty. -/
def push (w : Writer) (columns name : String) : String :=
  (if columns = "" then "" else columns ++ ", ") ++ w.identifier name

/-- The column list: the selected names, or `*` when nothing is written for them. -/
def text (w : Writer) (mapping : Mapping) (select : Option Value) : String :=
  let columns := (names mapping select).foldl (push w) ""
  if columns = "" then "*" else columns

end Columns

end TypedSql
