import TypedSql.BuildError
import TypedSql.Mapping
import TypedSql.Settings
import TypedSql.TableName
import TypedSql.Toml.Document

/-!
# Project files

A project file declares tables, each with its mapping, and the settings of the builder. It is a TOML
document with the tables `[tables.<name>]` and an optional table `[builder]`; keys that are not known are
passed over. A project has at least one table, every table has a valid name and at least one field, and
a fallback page is not negative. Tables are checked in ascending order of their names, the page last.
-/

namespace TypedSql

/-- A project: the settings of its builder and the mappings of its tables, in ascending order. -/
structure Project where
  settings : Settings
  tables : Fields Mapping

namespace Project

/-- Why a project file is refused. -/
inductive Fault where
  /-- It is not TOML, or does not fit what is read. -/
  | malformed
  | noTables
  | badTableName (fault : NameFault)
  | noFields (table : String)
  | negativePage
deriving DecidableEq, Repr

/-- The text of a fault. -/
def Fault.message : Fault → String
  | .malformed => "TOML parse error"
  | .noTables => "at least one [tables.<name>] section is required"
  | .badTableName fault => (BuildError.invalidIdentifier fault).message
  | .noFields table => "tables." ++ table ++ " must declare at least one field"
  | .negativePage => "builder.fallback_page offset and limit must not be negative"

/-! ### Reading -/

/-- The name that a value gives: a text, or a table with one key whose value is empty. -/
def name? : Toml.Value → Option String
  | .text s => some s
  | .table _ [(key, .table _ [])] => some key
  | .table _ [(key, .array [])] => some key
  | _ => none

/-- An integer of 64 bits. -/
def int64? : Toml.Value → Option Int64
  | .integer n => Decimal.int64? n
  | _ => none

/-- The page that a value gives: a table with the keys `offset` and `limit`, or an array that begins with
the two. -/
def page? : Toml.Value → Option Page
  | .table _ entries => do
    let offset ← Fields.get? entries "offset"
    let limit ← Fields.get? entries "limit"
    return { offset := ← int64? offset, limit := ← int64? limit }
  | .array (offset :: limit :: _) => do
    return { offset := ← int64? offset, limit := ← int64? limit }
  | _ => none

/-- The settings with the parts that are given. -/
def settingsOf? (policy fallback : Option Toml.Value) : Option Settings := do
  let policy ← match policy with
    | none => some Settings.strict.policy
    | some v => (name? v).bind LimitPolicy.ofName?
  let fallback ← match fallback with
    | none => some none
    | some v => (page? v).map some
  return { policy, fallback }

/-- The settings that a value gives: a table with the keys `limit_policy` and `fallback_page`, or an array
that begins with the two. A date or time names neither. -/
def settings? : Toml.Value → Option Settings
  | .table _ entries =>
    settingsOf? (Fields.get? entries "limit_policy") (Fields.get? entries "fallback_page")
  | .array items => settingsOf? items[0]? items[1]?
  | .dateTime _ => settingsOf? none none
  | _ => none

/-- The declarations of a table, in the order of the text. -/
def declarations? : Toml.Entries → Option (List (String × FieldType))
  | [] => some []
  | (key, v) :: rest => do
    let type ← (name? v).bind FieldType.ofName?
    let others ← declarations? rest
    return (key, type) :: others

/-- The mappings of the tables, in the order of the text. -/
def mappings? : Toml.Entries → Option (List (String × Mapping))
  | [] => some []
  | (key, .table _ entries) :: rest => do
    let declarations ← declarations? entries
    let others ← mappings? rest
    return (key, Mapping.ofPairs declarations) :: others
  | _ => none

/-- The project that the entries of a document give. -/
def ofEntries? (entries : Toml.Entries) : Option Project := do
  let settings ← match Fields.get? entries "builder" with
    | none => some Settings.strict
    | some v => settings? v
  let tables ← match Fields.get? entries "tables" with
    | none => some []
    | some (.table _ tables) => mappings? tables
    | some _ => none
  return { settings, tables := Fields.ofPairsSorted tables }

/-! ### Checking -/

/-- What is wrong with a table. -/
def tableFault? (table : String × Mapping) : Option Fault :=
  match TableName.fault? table.1 with
  | some fault => some (.badTableName fault)
  | none => if table.2.isEmpty then some (.noFields table.1) else none

/-- A page with a negative number. -/
def isNegative (page : Page) : Bool := page.offset < 0 || page.limit < 0

/-- What is wrong with a project. -/
def fault? (p : Project) : Option Fault :=
  if p.tables.isEmpty then some .noTables
  else
    match p.tables.findSome? tableFault? with
    | some fault => some fault
    | none =>
      match p.settings.fallback with
      | some page => if isNegative page then some .negativePage else none
      | none => none

/-- The project of a file, if nothing is wrong with it. -/
def ofText (text : String) : Except Fault Project :=
  match (Toml.document? text).bind ofEntries? with
  | none => .error .malformed
  | some project =>
    match project.fault? with
    | some fault => .error fault
    | none => .ok project

/-- The mapping of a table. -/
def mapping? (p : Project) (table : String) : Option Mapping :=
  Fields.get? p.tables table

end Project

end TypedSql
