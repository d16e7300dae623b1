import TypedSql.Dialect

/-!
# The MySQL dialect

Texts are quoted with apostrophes and escaped with backslashes, names are quoted with back-ticks. A
dot in a name separates qualifiers, each of which is quoted; a back-tick in a name is doubled. Numbers
that are not finite have no literal and become `NULL`.
-/

namespace TypedSql.MySql

/-! ### Texts -/

/-- A character inside a quoted text. -/
def escapeChar : Char → List Char
  | '\x00' => ['\\', '0']
  | '\x08' => ['\\', 'b']
  | '\t' => ['\\', 't']
  | '\n' => ['\\', 'n']
  | '\r' => ['\\', 'r']
  | '\x1a' => ['\\', 'Z']
  | '"' => ['\\', '"']
  | '\'' => ['\\', '\'']
  | '\\' => ['\\', '\\']
  | c => [c]

/-- The characters of a text, escaped. -/
def escapeChars (cs : List Char) : List Char :=
  cs.flatMap escapeChar

/-- The literal of a text. -/
def textLiteral (s : String) : String :=
  String.ofList ('\'' :: (escapeChars s.toList ++ ['\'']))

/-! ### Names -/

/-- A character inside a quoted name: a dot closes the quotes, separates, and opens them again. -/
def quoteChar : Char → List Char
  | '\x60' => ['\x60', '\x60']
  | '.' => ['\x60', '.', '\x60']
  | c => [c]

/-- The quoted form of a name. -/
def identifier (name : String) : String :=
  String.ofList ('\x60' :: (name.toList.flatMap quoteChar ++ ['\x60']))

/-! ### Values -/

mutual

/-- The literal of a value. A list is written as its items separated by commas, without brackets of its
own, but a list inside a list gets parentheses; a map is written as assignments. -/
def literal : Value → String
  | .null => "NULL"
  | .bool b => if b then "true" else "false"
  | .int n => Decimal.integerText n.toInt
  | .float x => if x.isFinite then Decimal.floatText x else "NULL"
  | .text s => textLiteral s
  | .datetime t => "'" ++ t.text ++ "'"
  | .list items => String.intercalate ", " (itemLiterals items)
  | .map fields => String.intercalate ", " (fieldLiterals fields)

/-- The literals of the items of a list. -/
def itemLiterals : List Value → List String
  | [] => []
  | .list items :: rest => ("(" ++ String.intercalate ", " (itemLiterals items) ++ ")") :: itemLiterals rest
  | v :: rest => literal v :: itemLiterals rest

/-- The assignments of the fields of a map. -/
def fieldLiterals : List (String × Value) → List String
  | [] => []
  | (name, v) :: rest => (identifier name ++ " = " ++ literal v) :: fieldLiterals rest

end

end TypedSql.MySql

namespace TypedSql.Dialect

/-- The MySQL dialect. -/
def mySql : Dialect :=
  { literal := MySql.literal, identifier := MySql.identifier }

end TypedSql.Dialect

namespace TypedSql.Writer

/-- The writer of the MySQL dialect. -/
abbrev mySql : Writer := Dialect.mySql

end TypedSql.Writer
