import TypedSql.BuildError

/-!
# Table names

A table name is written into a statement as it is, so it is checked first. It consists of segments
separated by dots; a segment begins with a letter or an underscore and goes on with letters, digits,
underscores and dollar signs. Letters and digits are those of ASCII.
-/

namespace TypedSql.TableName

/-- A letter of ASCII or an underscore. -/
def isStart (c : Char) : Bool := c == '_' || c.isAlpha

/-- A letter or digit of ASCII, an underscore or a dollar sign. -/
def isPart (c : Char) : Bool := c == '_' || c == '$' || c.isAlphanum

/-- The segments between the dots. -/
def segments : List Char → List (List Char)
  | [] => [[]]
  | c :: rest =>
    if c = '.' then [] :: segments rest
    else match segments rest with
      | [] => [[c]]
      | first :: others => (c :: first) :: others

/-- What is wrong with a segment of the name. -/
def segmentFault? (name : String) : List Char → Option NameFault
  | [] => some (.emptySegment name)
  | first :: rest =>
    if !isStart first then some (.badStart first name)
    else (rest.find? fun c => !isPart c).map fun c => .badCharacter c name

/-- What is wrong with a table name: the fault of its first bad segment. -/
def fault? (name : String) : Option NameFault :=
  if name.toList.isEmpty then some .emptyName
  else (segments name.toList).findSome? (segmentFault? name)

/-- The name itself, if nothing is wrong with it. -/
def check (name : String) : Except BuildError String :=
  match fault? name with
  | none => .ok name
  | some fault => .error (.invalidIdentifier fault)

end TypedSql.TableName
