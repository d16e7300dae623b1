import TypedSql.Value

/-!
# Why a statement cannot be built

Every error is a fault of the request: a part that is missing, a part of the wrong shape, a value that
does not fit its field, or a table name that cannot be written into a statement. `BuildError.message`
gives the text of each.
-/

namespace TypedSql

/-- The parts of a request that an operation may require. -/
inductive Requirement where
  | data | mapping | table | filter | count
deriving DecidableEq, Repr

/-- The name under which a request carries the part. -/
def Requirement.name : Requirement → String
  | .data => "data"
  | .mapping => "mapping"
  | .table => "tableName"
  | .filter => "where"
  | .count => "count"

/-- The axes of a point. -/
inductive Axis where
  | x | y
deriving DecidableEq, Repr

/-- The name of an axis. -/
def Axis.name : Axis → String
  | .x => "X"
  | .y => "Y"

/-- What is wrong with the shape of an order, offset or count. -/
inductive ShapeFault where
  | orderNotMap
  | orderFieldNotText
  | sortUnknown
  | offsetNotList
  | offsetNotPair
  | offsetNotNumber
  | limitNotNumber
  | countBlank
  | countNotText
  /-- A fault in the words of the caller. -/
  | described (text : String)
deriving DecidableEq, Repr

/-- The text of a shape fault. -/
def ShapeFault.message : ShapeFault → String
  | .orderNotMap => "order must be an object of \x7bby, sort\x7d"
  | .orderFieldNotText => "order by value has to be a non-empty string"
  | .sortUnknown => "order sort value has to be ASC or DESC"
  | .offsetNotList => "offset must be an array"
  | .offsetNotPair => "offset must be an array of [index,limit]"
  | .offsetNotNumber => "index value has to be a number"
  | .limitNotNumber => "limit value has to be a number"
  | .countBlank => "count value has to be a non-empty string"
  | .countNotText => "count value has to be a string"
  | .described text => text

/-- What is wrong with a table name. -/
inductive NameFault where
  | emptyName
  | emptySegment (name : String)
  | badStart (c : Char) (name : String)
  | badCharacter (c : Char) (name : String)
  /-- A fault in the words of the caller. -/
  | described (text : String)
deriving DecidableEq, Repr

/-- The text of a fault in a table name. -/
def NameFault.message : NameFault → String
  | .emptyName => "table name cannot be empty"
  | .emptySegment name => "empty segment in table name '" ++ name ++ "'"
  | .badStart c name =>
    "invalid start character '" ++ String.singleton c ++ "' in table name '" ++ name ++ "'"
  | .badCharacter c name =>
    "invalid character '" ++ String.singleton c ++ "' in table name '" ++ name ++ "'"
  | .described text => text

/-- Why no statement was built. -/
inductive BuildError where
  /-- A required part of the request is absent. -/
  | missingArgument (requirement : Requirement)
  /-- A value of a condition is unmapped, null or not of the declared type. -/
  | invalidWhereValue (field : String) (value : Value)
  /-- A polygon is not a list of points. -/
  | invalidPolygon (field : String)
  /-- A coordinate is not a finite number. -/
  | invalidCoordinate (field : String) (axis : Axis) (value : Value)
  /-- A filter has neither of its two groups. -/
  | missingFilterGroup
  /-- An order, offset or count is malformed. -/
  | invalidShape (fault : ShapeFault)
  /-- A table name cannot be written into a statement. -/
  | invalidIdentifier (fault : NameFault)

namespace BuildError

/-- The text of an error. -/
def message : BuildError → String
  | .missingArgument requirement =>
    "Unexpected " ++ requirement.name ++ " value null or undefined"
  | .invalidWhereValue field value =>
    "Invalid value " ++ field ++ " : " ++ value.display ++ " in where object"
  | .invalidPolygon field => "Invalid Polygon value of " ++ field
  | .invalidCoordinate field axis value =>
    "Invalid " ++ axis.name ++ " value of " ++ field ++ ": " ++ value.display
  | .missingFilterGroup => "'and' value or 'or' value required"
  | .invalidShape fault => fault.message
  | .invalidIdentifier fault => "Invalid identifier: " ++ fault.message

/-- A required part is absent. -/
def isMissingArgument : BuildError → Bool
  | .missingArgument _ => true
  | _ => false

/-- A value of a condition is at fault. -/
def isInvalidWhere : BuildError → Bool
  | .invalidWhereValue _ _ => true
  | _ => false

/-- A point or polygon is at fault. -/
def isGeometry : BuildError → Bool
  | .invalidPolygon _ | .invalidCoordinate _ _ _ => true
  | _ => false

end BuildError

end TypedSql
