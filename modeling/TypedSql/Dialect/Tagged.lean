import TypedSql.Dialect

/-!
# The tagged dialect

A dialect that escapes nothing and shows where values and names stand: a value is its display between
angle brackets, a name stands between double quotes. It is for looking at what a statement is made of.
-/

namespace TypedSql.Dialect

/-- Values in angle brackets, names in double quotes. -/
def tagged : Dialect :=
  { literal := fun v => "<" ++ v.display ++ ">"
    identifier := fun name => "\"" ++ name ++ "\"" }

end TypedSql.Dialect
