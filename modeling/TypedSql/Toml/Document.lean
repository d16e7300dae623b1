import TypedSql.Toml.Quoted
import TypedSql.Toml.Scalar

/-!
# TOML text

A reader of TOML 1.1. A document is a list of lines: headers of tables, headers of arrays of tables, and
assignments; blank lines and comments count for nothing. The lines are read first and put together
afterwards, so `document?` refuses both a text that is no TOML and one that says a thing twice.
-/

namespace TypedSql.Toml

/-! ### Blanks and comments -/

/-- The text without blanks at its head. -/
def skipSpace (cs : List Char) : List Char := cs.dropWhile isSpace

/-- What follows a comment behind its `#`: the line end or nothing. -/
def afterComment? (cs : List Char) : Option (List Char) :=
  match cs.dropWhile fun c => !isControl c with
  | [] => some []
  | rest => (lineEnd? rest).map fun _ => rest

/-- What follows the end of a line, which blanks and a comment may precede. -/
def afterLine? (cs : List Char) : Option (List Char) :=
  let finish : List Char → Option (List Char)
    | [] => some []
    | rest => lineEnd? rest
  match skipSpace cs with
  | '#' :: rest => (afterComment? rest).bind finish
  | rest => finish rest

/-- The text from the next token on, over blanks, comments and line ends. -/
def skipLines? : Nat → List Char → Option (List Char)
  | 0, _ => none
  | fuel + 1, cs =>
    match skipSpace cs with
    | '#' :: rest => (afterComment? rest).bind (skipLines? fuel)
    | rest =>
      match lineEnd? rest with
      | some rest' => skipLines? fuel rest'
      | none => some rest

/-! ### Keys -/

/-- A character of a key without quotes. -/
def isBareKeyChar (c : Char) : Bool := c.isAlphanum || c == '_' || c == '-'

/-- One part of a key. -/
def simpleKey? (cs : List Char) : Option (String × List Char) :=
  match quoted? cs with
  | some found => some found
  | none =>
    match cs.takeWhile isBareKeyChar with
    | [] => none
    | name => some (String.ofList name, cs.dropWhile isBareKeyChar)

/-- A dotted key: its parts in front of the last one, the last one, and what follows the key. -/
def dottedKey? : Nat → List Char → Option (List String × String × List Char)
  | 0, _ => none
  | fuel + 1, cs => do
    let (first, rest) ← simpleKey? (skipSpace cs)
    match skipSpace rest with
    | '.' :: rest' =>
      let (path, last, rest'') ← dottedKey? fuel rest'
      return (first :: path, last, rest'')
    | rest' => return ([], first, rest')

/-- A key of any length. -/
def key? (cs : List Char) : Option (List String × String × List Char) :=
  dottedKey? (cs.length + 1) cs

/-- What follows the equals sign. -/
def afterEquals? (cs : List Char) : Option (List Char) :=
  match skipSpace cs with
  | '=' :: rest => some (skipSpace rest)
  | _ => none

/-! ### Values -/

mutual

/-- A value at the head of the text. -/
def value? : Nat → List Char → Option (Value × List Char)
  | 0, _ => none
  | fuel + 1, cs =>
    match cs with
    | '[' :: rest => (items? fuel rest).map fun (items, rest') => (.array items, rest')
    | '\x7b' :: rest => do
      let (pairs, rest') ← pairs? fuel rest
      let entries ← inlineEntries [] pairs
      return (.table .inlined entries, rest')
    | '"' :: _ | '\'' :: _ => (string? cs).map fun (s, rest) => (.text s, rest)
    | _ =>
      let (lexeme, rest) := splitScalar cs
      (scalarValue? lexeme).map fun v => (v, rest)

/-- The items of an array up to its closing bracket; a comma may stand behind the last one. -/
def items? : Nat → List Char → Option (List Value × List Char)
  | 0, _ => none
  | fuel + 1, cs => do
    match ← skipLines? (cs.length + 1) cs with
    | ']' :: rest => return ([], rest)
    | cs =>
      let (item, rest) ← value? fuel cs
      match ← skipLines? (rest.length + 1) rest with
      | ',' :: rest' =>
        let (items, rest'') ← items? fuel rest'
        return (item :: items, rest'')
      | ']' :: rest' => return ([item], rest')
      | _ => none

/-- The assignments of an inline table up to its closing brace; a comma may stand behind the last. -/
def pairs? : Nat → List Char → Option (List (List String × String × Value) × List Char)
  | 0, _ => none
  | fuel + 1, cs => do
    match ← skipLines? (cs.length + 1) cs with
    | '\x7d' :: rest => return ([], rest)
    | cs =>
      let (path, key, rest) ← key? cs
      let (value, rest) ← value? fuel (← afterEquals? rest)
      match ← skipLines? (rest.length + 1) rest with
      | ',' :: rest' =>
        let (pairs, rest'') ← pairs? fuel rest'
        return ((path, key, value) :: pairs, rest'')
      | '\x7d' :: rest' => return ([(path, key, value)], rest')
      | _ => none

end

/-! ### Lines -/

/-- A header behind its opening bracket. -/
def header? (cs : List Char) : Option (Line × List Char) :=
  match cs with
  | '[' :: rest => do
    let (path, key, rest) ← key? rest
    match rest with
    | ']' :: ']' :: rest' => return (.element path key, rest')
    | _ => none
  | _ => do
    let (path, key, rest) ← key? cs
    match rest with
    | ']' :: rest' => return (.table path key, rest')
    | _ => none

/-- An assignment. -/
def assignment? (cs : List Char) : Option (Line × List Char) := do
  let (path, key, rest) ← key? cs
  let rest ← afterEquals? rest
  let (value, rest) ← value? (2 * rest.length + 2) rest
  return (.assignment path key value, rest)

/-- The lines of a document. -/
def lines? : Nat → List Char → Option (List Line)
  | 0, _ => none
  | fuel + 1, cs => do
    match ← skipLines? (cs.length + 1) cs with
    | [] => return []
    | cs =>
      let (line, rest) ← match cs with
        | '[' :: rest => header? rest
        | _ => assignment? cs
      let lines ← lines? fuel (← afterLine? rest)
      return line :: lines

/-- The entries of a document; a byte-order mark in front of it counts for nothing. -/
def document? (text : String) : Option Entries :=
  let cs := match text.toList with
    | '\ufeff' :: rest => rest
    | cs => cs
  (lines? (cs.length + 1) cs).bind (addLines [] [])

end TypedSql.Toml
