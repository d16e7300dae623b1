import TypedSql.BuildError
import TypedSql.Text.Blank
import TypedSql.Value

/-!
# The alias of a count

The alias of a count is a text that is not blank. A request without one asks for no count.
-/

namespace TypedSql

namespace CountAlias

/-- The alias that a request asks for. -/
def ofValue? : Option Value → Except BuildError (Option String)
  | none | some .null => .ok none
  | some (.text label) =>
    if Text.allBlank label then .error (.invalidShape .countBlank) else .ok (some label)
  | some _ => .error (.invalidShape .countNotText)

end CountAlias

end TypedSql
