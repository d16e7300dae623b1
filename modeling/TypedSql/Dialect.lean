import TypedSql.Value

/-!
# Dialects

A dialect says how a value and a name are written in SQL. Everything else that a statement needs is
derived from these two: assignments, and templates with placeholders.

A template is read from the left. Two question marks in a row are a placeholder for a name, a single
one is a placeholder for a value. Each placeholder takes the next binding; when the bindings are used
up, the placeholders that are left stay as they are. What a binding writes is never read again.

A formatter fills templates in this way, but may write lists of assignments in a way of its own, where a
dialect makes them of its names and literals. A writer may do both in a way of its own: statements are
built with any writer. So what holds of every writer holds of every formatter, and what holds of every
formatter holds of every dialect.
-/

namespace TypedSql

/-- How values and names are written. -/
structure Dialect where
  /-- The literal of a value. -/
  literal : Value → String
  /-- The quoted form of a name. -/
  identifier : String → String

/-- What a placeholder stands for. -/
inductive Binding where
  | value (v : Value)
  | name (s : String)
  /-- A list of assignments. -/
  | assignments (pairs : List (String × Value))

/-- How values, names and lists of assignments are written at the placeholders of a template. -/
structure Formatter where
  literal : Value → String
  identifier : String → String
  assignments : List (String × Value) → String

namespace Formatter

/-- What a binding writes at a placeholder for a value. -/
def atValue (f : Formatter) : Binding → String
  | .value v => f.literal v
  | .name s => f.identifier s
  | .assignments pairs => f.assignments pairs

/-- What a binding writes at a placeholder for a name: a value is named by its display. -/
def atName (f : Formatter) : Binding → String
  | .value v => f.identifier v.display
  | .name s => f.identifier s
  | .assignments pairs => f.assignments pairs

/-- Fills the placeholders of a template with the bindings in order. -/
def fill (f : Formatter) : List Char → List Binding → List Char
  | [], _ => []
  | '?' :: '?' :: rest, [] => '?' :: '?' :: f.fill rest []
  | '?' :: '?' :: rest, b :: bs => (f.atName b).toList ++ f.fill rest bs
  | '?' :: rest, [] => '?' :: f.fill rest []
  | '?' :: rest, b :: bs => (f.atValue b).toList ++ f.fill rest bs
  | c :: rest, bs => c :: f.fill rest bs

/-- The text of a template with its bindings. -/
def format (f : Formatter) (template : String) (bindings : List Binding) : String :=
  String.ofList (f.fill template.toList bindings)

@[simp] theorem toList_format (f : Formatter) (template : String) (bindings : List Binding) :
    (f.format template bindings).toList = f.fill template.toList bindings :=
  String.toList_ofList

end Formatter

/-- What a statement is written with: names, lists of assignments, and templates with their bindings. -/
structure Writer where
  identifier : String → String
  assignments : List (String × Value) → String
  format : String → List Binding → String

/-- The writer of a formatter, which fills templates. -/
def Formatter.writer (f : Formatter) : Writer :=
  { identifier := f.identifier, assignments := f.assignments, format := f.format }

instance : Coe Formatter Writer := ⟨Formatter.writer⟩

@[simp] theorem Formatter.writer_format (f : Formatter) : f.writer.format = f.format := rfl

namespace Dialect

/-- A name and its value, `name = value`. -/
def assignment (d : Dialect) (pair : String × Value) : String :=
  d.identifier pair.1 ++ " = " ++ d.literal pair.2

/-- Assignments separated by commas. -/
def assignments (d : Dialect) (pairs : List (String × Value)) : String :=
  String.intercalate ", " (pairs.map d.assignment)

/-- The formatter of a dialect. -/
def formatter (d : Dialect) : Formatter :=
  { literal := d.literal, identifier := d.identifier, assignments := d.assignments }

instance : Coe Dialect Formatter := ⟨formatter⟩

@[simp] theorem formatter_literal (d : Dialect) : d.formatter.literal = d.literal := rfl

@[simp] theorem formatter_identifier (d : Dialect) : d.formatter.identifier = d.identifier := rfl

/-- The text of a template with its bindings. -/
def format (d : Dialect) (template : String) (bindings : List Binding) : String :=
  d.formatter.format template bindings

@[simp] theorem assignments_nil (d : Dialect) : d.assignments [] = "" := rfl

@[simp] theorem assignments_singleton (d : Dialect) (pair : String × Value) :
    d.assignments [pair] = d.assignment pair := rfl

end Dialect

end TypedSql
