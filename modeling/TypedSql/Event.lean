import TypedSql.Value

/-!
# Events

What is reported while a statement is built: the statement itself, data fields that are dropped,
operators that are ignored, and the configuration that was loaded. An event has a target, a level and
named texts.
-/

namespace TypedSql

/-- The kinds of statements. A select may be followed by a count; `count` is a count of its own. -/
inductive StatementKind where
  | insert | replace | update | delete | select | count
deriving DecidableEq, Repr

/-- The keyword of a kind of statement. -/
def StatementKind.keyword : StatementKind → String
  | .insert => "INSERT"
  | .replace => "REPLACE"
  | .update => "UPDATE"
  | .delete => "DELETE"
  | .select => "SELECT"
  | .count => "COUNT"

/-- Why a data field is left out of a statement. -/
inductive DropReason where
  /-- The mapping does not declare the field. -/
  | unmapped
  /-- The field holds text and the value is none. -/
  | notText
  /-- The value does not satisfy the type of the field. -/
  | typeMismatch
deriving DecidableEq, Repr

/-- The text of a reason. -/
def DropReason.text : DropReason → String
  | .unmapped => "unmapped"
  | .notText => "not text"
  | .typeMismatch => "type mismatch"

/-- Something that is reported. -/
inductive Event where
  | builtStatement (kind : StatementKind) (sql : String)
  | droppedField (field : String) (kind : Kind) (reason : DropReason)
  | ignoredOperator (field : String) (operator : String)
  | loadedConfig (path : String) (tables : Nat)
deriving DecidableEq, Repr

/-- How detailed an event is. -/
inductive Level where
  | debug | trace
deriving DecidableEq, Repr

/-- The name of a level. -/
def Level.name : Level → String
  | .debug => "DEBUG"
  | .trace => "TRACE"

namespace Event

/-- The part of the program that reports the event. -/
def target : Event → String
  | .builtStatement _ _ => "mapsql.sql"
  | .droppedField _ _ _ => "mapsql.extract"
  | .ignoredOperator _ _ => "mapsql.filter"
  | .loadedConfig _ _ => "mapsql.cli"

/-- Dropped fields are traced; everything else is for debugging. -/
def level : Event → Level
  | .droppedField _ _ _ => .trace
  | _ => .debug

/-- The texts that an event carries. -/
def details : Event → Fields String
  | .builtStatement kind sql =>
    [("message", "built statement"), ("statement", kind.keyword), ("sql", sql)]
  | .droppedField field kind reason =>
    [("message", "dropping data field"), ("field", field), ("kind", kind.name),
      ("reason", reason.text)]
  | .ignoredOperator field operator =>
    [("message", "ignoring unrecognized operator"), ("field", field), ("operator", operator)]
  | .loadedConfig path tables =>
    [("message", "loaded config"), ("config", path),
      ("tables", Decimal.integerText tables)]

end Event

end TypedSql
