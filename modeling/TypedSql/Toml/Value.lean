import TypedSql.Fields

/-!
# TOML documents

The values of a TOML document, and how its lines build it up. A table remembers how it came about,
because that decides who may add to it: a table with a header of its own cannot get another header, a
table of dotted keys belongs to the lines of one header, and an inline table is complete.
-/

namespace TypedSql.Toml

/-- How a table came about. -/
inductive Origin where
  /-- Its header stands in the document; so it is with the document itself. -/
  | header
  /-- A longer header goes through it. -/
  | implied
  /-- A dotted key goes through it. -/
  | dotted
  /-- It is written out in braces. -/
  | inlined
deriving DecidableEq, Repr

/-- A value of a TOML document. -/
inductive Value where
  | text (s : String)
  | bool (b : Bool)
  | integer (n : Int)
  | real (x : Float)
  /-- A date, a time or both, as it is written. -/
  | dateTime (lexeme : List Char)
  | array (items : List Value)
  /-- Tables that stand one after the other under one header in double brackets. -/
  | tables (elements : List Value)
  | table (origin : Origin) (entries : List (String × Value))

/-- The names and values of a table. -/
abbrev Entries := List (String × Value)

/-! ### Going down a path -/

/-- What becomes of the last table of an array of tables. -/
def updateLast (f : Value → Option Value) : List Value → Option (List Value)
  | [] => none
  | [v] => (f v).map fun v' => [v']
  | v :: rest => (updateLast f rest).map (v :: ·)

/-- Which tables a path goes through, and which it leaves behind where there is none. -/
inductive Route where
  /-- A header: through all tables that are not inline. -/
  | header
  /-- A dotted key: through tables without a header of their own that are not inline. -/
  | dotted
deriving DecidableEq, Repr

/-- The origin of a table that a route leaves behind. -/
def Route.origin : Route → Origin
  | .header => .implied
  | .dotted => .dotted

/-- Whether a route may go through a table. -/
def Route.mayEnter : Route → Origin → Bool
  | _, .inlined => false
  | .dotted, .header => false
  | _, _ => true

/-- Changes the table at the end of a path. An array of tables is entered at its last table. -/
def descend (route : Route) (change : Origin → Entries → Option (Origin × Entries)) :
    List String → Origin → Entries → Option (Origin × Entries)
  | [], origin, entries => change origin entries
  | key :: path, origin, entries =>
    let put (v : Value) : Origin × Entries := (origin, Fields.insert entries key v)
    match Fields.get? entries key with
    | none =>
      (descend route change path route.origin []).map fun (o, es) => put (.table o es)
    | some (.table o es) =>
      if route.mayEnter o then
        (descend route change path o es).map fun (o', es') => put (.table o' es')
      else none
    | some (.tables elements) =>
      let enter : Value → Option Value
        | .table o es => (descend route change path o es).map fun (o', es') => .table o' es'
        | _ => none
      (updateLast enter elements).map fun elements' => put (.tables elements')
    | some _ => none

/-! ### Lines -/

/-- The header of a table: the table is new, or only longer headers have gone through it. -/
def openTable (key : String) (origin : Origin) (entries : Entries) : Option (Origin × Entries) :=
  match Fields.get? entries key with
  | none => some (origin, Fields.insert entries key (.table .header []))
  | some (.table .implied es) => some (origin, Fields.insert entries key (.table .header es))
  | some _ => none

/-- The header of an array of tables: one more table under the key. -/
def openElement (key : String) (origin : Origin) (entries : Entries) : Option (Origin × Entries) :=
  match Fields.get? entries key with
  | none => some (origin, Fields.insert entries key (.tables [.table .header []]))
  | some (.tables elements) =>
    some (origin, Fields.insert entries key (.tables (elements ++ [.table .header []])))
  | some _ => none

/-- A value under the last part of a dotted key. The key must be new, and the table in front of it must
be the one of the line itself or one of dotted keys. -/
def assign (isDotted : Bool) (key : String) (value : Value) (origin : Origin) (entries : Entries) :
    Option (Origin × Entries) :=
  if isDotted != (origin == .dotted) || Fields.contains entries key then none
  else some (origin, Fields.insert entries key value)

/-- A line of a document. -/
inductive Line where
  /-- `[path.key]` -/
  | table (path : List String) (key : String)
  /-- `[[path.key]]` -/
  | element (path : List String) (key : String)
  /-- `path.key = value` -/
  | assignment (path : List String) (key : String) (value : Value)

/-- Puts a value under a dotted key. -/
def assignAt (path : List String) (key : String) (value : Value) (origin : Origin)
    (entries : Entries) : Option (Origin × Entries) :=
  descend .dotted (assign (!path.isEmpty) key value) path origin entries

/-- Adds lines to a document; `current` is the path of the last header. -/
def addLines (current : List String) (document : Entries) : List Line → Option Entries
  | [] => some document
  | line :: rest =>
    let added := match line with
      | .table path key =>
        (descend .header (openTable key) path .header document).map (path ++ [key], ·)
      | .element path key =>
        (descend .header (openElement key) path .header document).map (path ++ [key], ·)
      | .assignment path key value =>
        (descend .header (assignAt path key value) current .header document).map (current, ·)
    match added with
    | some (current', _, document') => addLines current' document' rest
    | none => none

/-- An inline table of assignments in order. -/
def inlineEntries (entries : Entries) : List (List String × String × Value) → Option Entries
  | [] => some entries
  | (path, key, value) :: rest => do
    let (_, entries') ← assignAt path key value .inlined entries
    inlineEntries entries' rest

end TypedSql.Toml
