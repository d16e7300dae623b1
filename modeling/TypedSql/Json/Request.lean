import TypedSql.Json.Declaration
import TypedSql.Operation
import TypedSql.Request

/-!
# Requests from JSON

A request is an object with the parts of a statement under their keys, or an array of the parts in a
fixed order. Only the parts that the operation reads are looked at; other keys are passed over. A part
that is null is absent, and a part may stand only once.

The parts are read in the order of the text, and the first fault counts. A text that breaks off is
therefore still read up to the break: a part of the wrong kind in front of it is the fault.
-/

namespace TypedSql.Json

/-! ### The outline of a text -/

/-- The members or items of a text as far as they can be read, and whether the text is whole: that it
does not break off, and that nothing follows. -/
inductive Outline where
  | object (members : List (Option String × Node)) (whole : Bool)
  | array (items : List Node) (whole : Bool)
  /-- Neither an object nor an array. -/
  | other

/-- The items up to the closing bracket or the first break. -/
def outlineItems : Nat → List Char → List Node × Bool
  | 0, _ => ([], false)
  | fuel + 1, cs =>
    match firstNode? cs with
    | none => ([], false)
    | some (item, rest) =>
      match skipSpace rest with
      | ']' :: rest' => ([item], atEnd rest')
      | ',' :: rest' =>
        let (items, whole) := outlineItems fuel rest'
        (item :: items, whole)
      | _ => ([item], false)

/-- The members up to the closing brace or the first break. -/
def outlineMembers : Nat → List Char → List (Option String × Node) × Bool
  | 0, _ => ([], false)
  | fuel + 1, cs =>
    match key? cs with
    | none => ([], false)
    | some (key, rest) =>
      match firstNode? rest with
      | none => ([], false)
      | some (value, rest') =>
        match skipSpace rest' with
        | '\x7d' :: rest'' => ([(key, value)], atEnd rest'')
        | ',' :: rest'' =>
          let (members, whole) := outlineMembers fuel rest''
          ((key, value) :: members, whole)
        | _ => ([(key, value)], false)

/-- The outline of a text. -/
def outline (text : String) : Outline :=
  let cs := text.toList
  match skipSpace cs with
  | '[' :: rest =>
    match skipSpace rest with
    | ']' :: rest' => .array [] (atEnd rest')
    | rest' =>
      let (items, whole) := outlineItems cs.length rest'
      .array items whole
  | '\x7b' :: rest =>
    match skipSpace rest with
    | '\x7d' :: rest' => .object [] (atEnd rest')
    | rest' =>
      let (members, whole) := outlineMembers cs.length rest'
      .object members whole
  | _ => .other

/-! ### Parts -/

/-- The parts of a request. -/
inductive Part where
  | data | filter | mapping | table | select | order | offset | count
deriving DecidableEq, Repr

namespace Part

/-- The parts that an operation reads, in the order in which an array gives them. -/
def ofOperation : Operation → List Part
  | .insert | .replace => [.data, .mapping, .table]
  | .update | .advancedUpdate => [.data, .filter, .mapping, .table]
  | .delete | .advancedDelete => [.filter, .mapping, .table]
  | .get => [.select, .filter, .mapping, .table, .order, .offset]
  | .query => [.select, .filter, .mapping, .table, .order, .offset, .count]
  | .count => [.count, .filter, .mapping, .table]

/-- The keys of a part. A count has its alias under `as` as well. -/
def keys (op : Operation) : Part → List String
  | .data => ["data"]
  | .filter => ["where"]
  | .mapping => ["mapping"]
  | .table => ["tableName", "table_name"]
  | .select => ["select"]
  | .order => ["order"]
  | .offset => ["offset"]
  | .count => if op = .count then ["as", "count"] else ["count"]

/-- The part of an operation that a key names. -/
def ofKey? (op : Operation) (key : String) : Option Part :=
  (ofOperation op).find? fun part => (part.keys op).contains key

end Part

/-- A part of the form that `read` accepts; null is no part. -/
def optional {α : Type} (read : Node → Option α) : Node → Except Fault (Option α)
  | .null => .ok none
  | node =>
    match read node with
    | some a => .ok (some a)
    | none => .error .malformed

/-- A record; null is none. -/
def optionalRecord : Node → Except Fault (Option Record)
  | .null => .ok none
  | node => (record 1 node).map some

/-- A text. -/
def text? : Node → Option String
  | .string text => text
  | _ => none

/-- The request with one more part. -/
def withPart (r : Request) (node : Node) : Part → Except Fault Request
  | .data => do return { r with data := ← optionalRecord node }
  | .filter => do return { r with filter := ← optionalRecord node }
  | .mapping => do return { r with mapping := ← optional mapping? node }
  | .table => do return { r with table := ← optional text? node }
  | .select => do return { r with select := ← optional (value? 1) node }
  | .order => do return { r with order := ← optional (value? 1) node }
  | .offset => do return { r with offset := ← optional (value? 1) node }
  | .count => do return { r with count := ← optional (value? 1) node }

/-! ### Requests -/

/-- Reads members into a request that has the parts `seen`. -/
def readMembers (op : Operation) (seen : List Part) (r : Request) :
    List (Option String × Node) → Except Fault Request
  | [] => .ok r
  | (none, _) :: _ => .error .malformed
  | (some key, node) :: rest =>
    match Part.ofKey? op key with
    | none => readMembers op seen r rest
    | some part =>
      if seen.contains part then .error .malformed
      else do
        let r ← withPart r node part
        readMembers op (part :: seen) r rest

/-- Reads items into a request; those that are not given are absent. -/
def readItems (r : Request) : List Part → List Node → Except Fault Request
  | _, [] => .ok r
  | [], _ :: _ => .error .malformed
  | part :: parts, node :: rest => do
    let r ← withPart r node part
    readItems r parts rest

/-- The request of an operation that a whole text is. -/
def requestOfText (op : Operation) (text : String) : Except Fault Request := do
  match outline text with
  | .object members whole =>
    let r ← readMembers op [] .empty members
    if whole then return r else throw .malformed
  | .array items whole =>
    let r ← readItems .empty (Part.ofOperation op) items
    if whole then return r else throw .malformed
  | .other => throw .malformed

end TypedSql.Json
