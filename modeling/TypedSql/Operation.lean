/-!
# Operations

The operations that a statement can carry out. Each has a name, by which it is found.
-/

namespace TypedSql

/-- What can be built. The advanced operations take a filter with groups, as do `query` and `count`;
the others take equalities. -/
inductive Operation where
  | insert | replace | update | advancedUpdate | delete | advancedDelete | get | query | count
deriving DecidableEq, Repr

namespace Operation

/-- All operations. -/
def all : List Operation :=
  [.insert, .replace, .update, .advancedUpdate, .delete, .advancedDelete, .get, .query, .count]

/-- The name of an operation. -/
def name : Operation → String
  | .insert => "insert"
  | .replace => "replace"
  | .update => "update"
  | .advancedUpdate => "advanced-update"
  | .delete => "delete"
  | .advancedDelete => "advanced-delete"
  | .get => "get"
  | .query => "query"
  | .count => "count"

/-- The operation of a name. -/
def ofName? (s : String) : Option Operation :=
  all.find? fun op => op.name == s

@[simp] theorem ofName?_name (op : Operation) : ofName? op.name = some op := by
  cases op <;> decide

end Operation

end TypedSql
