import TypedSql.Extraction
import TypedSql.Operation
import TypedSql.Request
import TypedSql.Select.Columns
import TypedSql.Select.CountAlias
import TypedSql.Select.Order
import TypedSql.Select.Page
import TypedSql.TableName
import TypedSql.Where.Equalities
import TypedSql.Where.Filter

/-!
# Statements

The text of a statement, built from a request. Each operation first looks for the parts that it
requires and checks the shape of the others; only then are conditions and data compiled. Every
statement that is built is reported.
-/

namespace TypedSql

/-- What statements are built with: what writes them, and how pages are read. -/
structure Builder where
  writer : Writer
  settings : Settings

namespace Builder

/-! ### Parts of a request -/

/-- A part that has to be there. -/
def require {α : Type} (requirement : Requirement) : Option α → Except BuildError α
  | some a => .ok a
  | none => .error (.missingArgument requirement)

/-- The mapping and the checked table name of a request. -/
def target (r : Request) : Except BuildError (Mapping × String) := do
  let mapping ← require .mapping r.mapping
  let table ← require .table r.table
  let table ← TableName.check table
  return (mapping, table)

/-- An empty where object of a select asks for nothing. -/
def nonEmpty : Option Record → Option Record
  | some (entry :: rest) => some (entry :: rest)
  | _ => none

/-- The where clause of an optional equality object; nothing without one. -/
def equalities (b : Builder) (mapping : Mapping) : Option Record → Except BuildError String
  | none => .ok ""
  | some filter => (Where.Equalities.ofRecord filter mapping).map (Where.Equalities.render b.writer)

/-- The where clause of an optional filter object; nothing without one. -/
def filter (b : Builder) (mapping : Mapping) : Option Record → Logged BuildError String
  | none => pure ""
  | some filter => do
    let compiled ← Where.Filter.ofRecord filter mapping
    return compiled.render b.writer

/-- The body of the SET clause for the data. -/
def setBody (b : Builder) (mapping : Mapping) (data : Record) : Logged BuildError String := do
  let extraction ← Extraction.ofRecord data mapping
  return extraction.setBody b.writer

/-- Reports a statement that was built. -/
def finish (kind : StatementKind) (sql : String) : Logged BuildError String := do
  Logged.emit (.builtStatement kind sql)
  return sql

/-! ### Writing -/

/-- `INSERT INTO table SET …` and `REPLACE INTO table SET …`. -/
def write (b : Builder) (kind : StatementKind) (r : Request) : Logged BuildError String := do
  let data ← Logged.ofExcept (require .data r.data)
  let (mapping, table) ← Logged.ofExcept (target r)
  let set ← b.setBody mapping data
  finish kind (kind.keyword ++ " INTO " ++ table ++ " SET " ++ set)

/-- `INSERT INTO table SET …`. -/
def insert (b : Builder) (r : Request) : Logged BuildError String := b.write .insert r

/-- `REPLACE INTO table SET …`. -/
def replace (b : Builder) (r : Request) : Logged BuildError String := b.write .replace r

/-- Data, where object, mapping and table of an update, looked for in this order. -/
def updateParts (r : Request) : Except BuildError (Record × Record × Mapping × String) := do
  let data ← require .data r.data
  let filter ← require .filter r.filter
  let (mapping, table) ← target r
  return (data, filter, mapping, table)

/-- The text of an update. -/
def updateText (table set whereClause : String) : String :=
  "UPDATE " ++ table ++ " SET " ++ set ++ " " ++ whereClause

/-- `UPDATE table SET … WHERE …` with equalities, which are compiled before the data. -/
def update (b : Builder) (r : Request) : Logged BuildError String := do
  let (data, filter, mapping, table) ← Logged.ofExcept (updateParts r)
  let whereClause ← Logged.ofExcept (b.equalities mapping (some filter))
  let set ← b.setBody mapping data
  finish .update (updateText table set whereClause)

/-- `UPDATE table SET … WHERE …` with a filter, which is compiled after the data. -/
def advancedUpdate (b : Builder) (r : Request) : Logged BuildError String := do
  let (data, filter, mapping, table) ← Logged.ofExcept (updateParts r)
  let set ← b.setBody mapping data
  let whereClause ← b.filter mapping (some filter)
  finish .update (updateText table set whereClause)

/-- The text of a deletion. -/
def deleteText (table whereClause : String) : String :=
  "DELETE FROM " ++ table ++ " " ++ whereClause

/-- `DELETE FROM table WHERE …` with equalities; without a where object it is about every row. -/
def delete (b : Builder) (r : Request) : Logged BuildError String := do
  let (mapping, table) ← Logged.ofExcept (target r)
  let whereClause ← Logged.ofExcept (b.equalities mapping r.filter)
  finish .delete (deleteText table whereClause)

/-- `DELETE FROM table WHERE …` with a filter; without a where object it is about every row. -/
def advancedDelete (b : Builder) (r : Request) : Logged BuildError String := do
  let (mapping, table) ← Logged.ofExcept (target r)
  let whereClause ← b.filter mapping r.filter
  finish .delete (deleteText table whereClause)

/-! ### Reading -/

/-- A where clause with a blank in front, or nothing at all. -/
def spaced (whereClause : String) : String :=
  if whereClause = "" then "" else " " ++ whereClause

/-- The text of a select. -/
def selectText (b : Builder) (r : Request) (mapping : Mapping) (table whereClause : String)
    (order : Option Order) (page : Option Page) : String :=
  "SELECT " ++ Columns.text b.writer mapping r.select ++ " FROM " ++ table
    ++ spaced whereClause
    ++ (match order with
      | some order => order.clause b.writer
      | none => "")
    ++ (match page with
      | some page => page.clause
      | none => "")

/-- The text of a count. -/
def countText (b : Builder) (label table whereClause : String) : String :=
  "SELECT COUNT(*) AS " ++ b.writer.identifier label ++ " FROM " ++ table ++ spaced whereClause

/-- `SELECT … FROM table WHERE … ORDER BY … LIMIT …` with equalities. -/
def get (b : Builder) (r : Request) : Logged BuildError String := do
  let (mapping, table) ← Logged.ofExcept (target r)
  let order ← Logged.ofExcept (Order.ofValue? r.order)
  let page ← Logged.ofExcept (Page.ofValue? b.settings r.offset)
  let whereClause ← Logged.ofExcept (b.equalities mapping (nonEmpty r.filter))
  finish .select (b.selectText r mapping table whereClause order page)

/-- `SELECT … FROM table WHERE … ORDER BY … LIMIT …` with a filter. With an alias, a count over the same
rows follows after a semicolon. -/
def query (b : Builder) (r : Request) : Logged BuildError String := do
  let (mapping, table) ← Logged.ofExcept (target r)
  let order ← Logged.ofExcept (Order.ofValue? r.order)
  let page ← Logged.ofExcept (Page.ofValue? b.settings r.offset)
  let label ← Logged.ofExcept (CountAlias.ofValue? r.count)
  let whereClause ← b.filter mapping (nonEmpty r.filter)
  let select := b.selectText r mapping table whereClause order page
  finish .select
    (match label with
      | some label => select ++ ";" ++ b.countText label table whereClause
      | none => select)

/-- `SELECT COUNT(*) AS alias FROM table WHERE …` with a filter. -/
def count (b : Builder) (r : Request) : Logged BuildError String := do
  let (mapping, table) ← Logged.ofExcept (target r)
  let label ← Logged.ofExcept (CountAlias.ofValue? r.count)
  let label ← Logged.ofExcept (require .count label)
  let whereClause ← b.filter mapping (nonEmpty r.filter)
  finish .count (b.countText label table whereClause)

/-! ### Every operation -/

/-- The statement of an operation. -/
def build (b : Builder) : Operation → Request → Logged BuildError String
  | .insert => b.insert
  | .replace => b.replace
  | .update => b.update
  | .advancedUpdate => b.advancedUpdate
  | .delete => b.delete
  | .advancedDelete => b.advancedDelete
  | .get => b.get
  | .query => b.query
  | .count => b.count

end Builder

end TypedSql
