import TypedSql.Dialect

/-!
# Conditions on a field

A condition compares a field with a value, or asks whether it is in a list. A list without items needs
no field: nothing is in it, so `IN` never holds and `NOT IN` always does.
-/

namespace TypedSql.Where

/-- How a field is compared with a value. -/
inductive Comparison where
  | equal | greater | less | greaterOrEqual | lessOrEqual
deriving DecidableEq, Repr

/-- The operator of a comparison. -/
def Comparison.symbol : Comparison → String
  | .equal => "="
  | .greater => ">"
  | .less => "<"
  | .greaterOrEqual => ">="
  | .lessOrEqual => "<="

/-- A condition on one field. -/
inductive Clause where
  | compare (field : String) (comparison : Comparison) (value : Value)
  | member (field : String) (values : List Value) (negated : Bool)

namespace Clause

/-- The field that the condition is on. -/
def field : Clause → String
  | .compare field _ _ => field
  | .member field _ _ => field

/-- The template of a membership in a list of `count` items. -/
def memberTemplate (negated : Bool) (count : Nat) : String :=
  "?? " ++ (if negated then "NOT IN" else "IN") ++ "("
    ++ String.intercalate "," (List.replicate count "?") ++ ")"

/-- The text of a condition. -/
def render (w : Writer) : Clause → String
  | .compare field comparison value =>
    w.format ("?? " ++ comparison.symbol ++ " ?") [.name field, .value value]
  | .member _ [] negated => if negated then "1=1" else "1=0"
  | .member field (v :: rest) negated =>
    w.format (memberTemplate negated (rest.length + 1))
      (.name field :: (v :: rest).map .value)

end Clause

end TypedSql.Where
