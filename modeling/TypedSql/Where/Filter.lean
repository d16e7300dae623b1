import TypedSql.BuildError
import TypedSql.Logged
import TypedSql.Mapping
import TypedSql.Where.Clause

/-!
# Filters

A where object of the advanced kind has a group `and`, a group `or`, or both. An entry of a group asks
that a field equals a value, or has a map of operators for the field. Entries that are not declared or
have no value are skipped, and so are operators that are not known, which are reported. A value that
does not satisfy the type of its field is an error, but inside a list it is merely left out.

The clauses of the group `and` are joined with `AND`, those of the group `or` with `OR`, and the two
groups with `OR`; no parentheses are written.
-/

namespace TypedSql.Where

/-! ### Operators -/

/-- What a key in a map of operators asks for. -/
inductive Operator where
  | compare (comparison : Comparison)
  | member (negated : Bool)
deriving DecidableEq, Repr

/-- The operator that a key names. -/
def Operator.ofKey? (key : String) : Option Operator :=
  if key = ">" then some (.compare .greater)
  else if key = "<" then some (.compare .less)
  else if key = ">=" then some (.compare .greaterOrEqual)
  else if key = "<=" then some (.compare .lessOrEqual)
  else if key = "in" then some (.member false)
  else if key = "not in" then some (.member true)
  else none

/-! ### Compiling -/

/-- A condition on a field that compares it with a value of its type. -/
def comparing (name : String) (type : FieldType) (comparison : Comparison) (value : Value) :
    Except BuildError Clause :=
  if type.accepts value then .ok (.compare name comparison value)
  else .error (.invalidWhereValue name value)

/-- The condition of one operator. -/
def operatorClause (name : String) (type : FieldType) (key : String) (operand : Value) :
    Logged BuildError (Option Clause) :=
  match Operator.ofKey? key with
  | some (.compare comparison) => do
    let clause ← Logged.ofExcept (comparing name type comparison operand)
    return some clause
  | some (.member negated) =>
    match operand with
    | .list items => pure (some (.member name (items.filter type.accepts) negated))
    | _ => Logged.fail (.invalidWhereValue name operand)
  | none => do
    Logged.emit (.ignoredOperator name key)
    return none

/-- The conditions of a map of operators, in order. -/
def operatorClauses (name : String) (type : FieldType) : Record → Logged BuildError (List Clause)
  | [] => pure []
  | (key, operand) :: rest => do
    let first ← operatorClause name type key operand
    let others ← operatorClauses name type rest
    return first.toList ++ others

/-- The conditions of one entry of a group. -/
def entryClauses (mapping : Mapping) (name : String) (value : Value) :
    Logged BuildError (List Clause) :=
  match mapping.get? name with
  | none => pure []
  | some type =>
    match value with
    | .null => pure []
    | .map operators => operatorClauses name type operators
    | scalar => do
      let clause ← Logged.ofExcept (comparing name type .equal scalar)
      return [clause]

/-- The conditions of a group, in order. -/
def groupClauses (mapping : Mapping) : Record → Logged BuildError (List Clause)
  | [] => pure []
  | (name, value) :: rest => do
    let first ← entryClauses mapping name value
    let others ← groupClauses mapping rest
    return first ++ others

/-- The group under a key, when it is a map with entries. -/
def group? (filter : Record) (key : String) : Option Record :=
  match Fields.get? filter key with
  | some (.map (entry :: rest)) => some (entry :: rest)
  | _ => none

/-- The conditions of a filter. -/
structure Filter where
  /-- The conditions that have to hold together. -/
  all : List Clause
  /-- The conditions each of which is enough. -/
  any : List Clause

namespace Filter

/-- The filter that a where object asks for. -/
def ofRecord (filter : Record) (mapping : Mapping) : Logged BuildError Filter :=
  match group? filter "and", group? filter "or" with
  | none, none => Logged.fail .missingFilterGroup
  | all, any => do
    let all ← groupClauses mapping (all.getD [])
    let any ← groupClauses mapping (any.getD [])
    return { all, any }

/-- No condition is left. -/
def isEmpty (f : Filter) : Bool := f.all.isEmpty && f.any.isEmpty

/-- The clause, or nothing when no condition is left. -/
def render (w : Writer) (f : Filter) : String :=
  let all := String.intercalate " AND " (f.all.map (Clause.render w))
  let any := String.intercalate " OR " (f.any.map (Clause.render w))
  match f.all, f.any with
  | [], [] => ""
  | _ :: _, [] => "WHERE " ++ all
  | [], _ :: _ => "WHERE " ++ any
  | _ :: _, _ :: _ => "WHERE " ++ all ++ " OR " ++ any

end Filter

end TypedSql.Where
