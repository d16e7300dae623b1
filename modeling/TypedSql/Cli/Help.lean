import TypedSql.Cli.Arguments

/-!
# Help texts

The help of the program lists the operations. The help of an operation names the keys that its request
may hold.
-/

namespace TypedSql.Cli

/-- The parts of a request that an operation reads besides the table and its mapping. -/
def requestKeys : Operation → String
  | .insert | .replace => "data"
  | .update => "data, where (field: value)"
  | .advancedUpdate => "data, where (\x7band, or\x7d)"
  | .delete => "where (field: value, optional)"
  | .advancedDelete => "where (\x7band, or\x7d, optional)"
  | .get => "select, where (field: value), order, offset"
  | .query => "select, where (\x7band, or\x7d), order, offset, count"
  | .count => "as, where (\x7band, or\x7d)"

/-- What an operation does, in the overview. -/
def summary : Operation → String
  | .insert => "INSERT INTO ... SET"
  | .replace => "REPLACE INTO ... SET"
  | .update => "UPDATE with an equality where object"
  | .advancedUpdate => "UPDATE with an and/or filter"
  | .delete => "DELETE with an equality where object"
  | .advancedDelete => "DELETE with an and/or filter"
  | .get => "SELECT with an equality where object"
  | .query => "SELECT with an and/or filter, optional COUNT"
  | .count => "SELECT COUNT(*) with an and/or filter"

/-- A text filled up with blanks to a width. -/
def filled (width : Nat) (s : String) : String :=
  s ++ String.ofList (List.replicate (width - s.length) ' ')

/-- The line of an operation in the overview. -/
def overviewLine (operation : Operation) : String :=
  "  " ++ filled 18 operation.name ++ summary operation

/-- The help text on the program. -/
def overview : String :=
  String.intercalate "\n" <|
    ["mapsql - build SQL statements from a table mapping and a JSON request", "", "USAGE:",
      "  mapsql <COMMAND> --table <NAME> [OPTIONS]", "", "COMMANDS:"]
    ++ Operation.all.map overviewLine
    ++ ["", "Run \x60mapsql <command> --help\x60 for more."]

/-- The help text on an operation. -/
def operationHelp (operation : Operation) : String :=
  String.intercalate "\n"
    ["USAGE:",
      "  mapsql " ++ operation.name ++ " --table <NAME> [OPTIONS]",
      "",
      "OPTIONS:",
      "  --config <FILE>       Config file path (default: mapsql.toml)",
      "  --table <NAME>        Table whose mapping is used (from [tables.<NAME>])",
      "  --request <FILE>      JSON request file; \x60-\x60 or absent reads stdin",
      "  -h, --help            Print help",
      "",
      "REQUEST KEYS:",
      "  " ++ requestKeys operation]

/-- The help text on a topic. -/
def helpText : Option Operation → String
  | none => overview
  | some operation => operationHelp operation

end TypedSql.Cli
