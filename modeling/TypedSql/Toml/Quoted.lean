import TypedSql.Text.Hex

/-!
# TOML strings

Strings in double quotes have escapes, strings in apostrophes have none. Three quotes open a string
that may run over several lines. Every reader here starts behind the opening quotes and returns the
text with what follows the closing ones.
-/

namespace TypedSql.Toml

/-- A control character that may not stand in a document, line ends apart. -/
def isControl (c : Char) : Bool := (c.toNat < 0x20 && c != '\t') || c == '\x7f'

/-- A blank within a line. -/
def isSpace (c : Char) : Bool := c == ' ' || c == '\t'

/-- A line end at the head of the text: LF or CR LF. -/
def lineEnd? : List Char → Option (List Char)
  | '\n' :: rest => some rest
  | '\r' :: '\n' :: rest => some rest
  | _ => none

/-! ### Escapes -/

/-- The character whose code point is written in `count` hexadecimal digits. -/
def scalar? (count value : Nat) (cs : List Char) : Option (Char × List Char) :=
  match count, cs with
  | 0, rest => if value.isValidChar then some (Char.ofNat value, rest) else none
  | count + 1, c :: rest => do scalar? count (16 * value + (← Text.hexDigit? c)) rest
  | _ + 1, [] => none

/-- The character that an escape behind its backslash stands for. -/
def escape? : List Char → Option (Char × List Char)
  | 'b' :: rest => some ('\x08', rest)
  | 't' :: rest => some ('\t', rest)
  | 'n' :: rest => some ('\n', rest)
  | 'f' :: rest => some ('\x0c', rest)
  | 'r' :: rest => some ('\r', rest)
  | 'e' :: rest => some ('\x1b', rest)
  | '"' :: rest => some ('"', rest)
  | '\\' :: rest => some ('\\', rest)
  | 'x' :: rest => scalar? 2 0 rest
  | 'u' :: rest => scalar? 4 0 rest
  | 'U' :: rest => scalar? 8 0 rest
  | _ => none

/-- What follows a backslash at the end of a line: blanks and line ends up to the next text. -/
def continued? (cs : List Char) : Option (List Char) :=
  (lineEnd? (cs.dropWhile isSpace)).map fun rest =>
    rest.dropWhile fun c => isSpace c || c == '\n' || c == '\r'

/-! ### Strings on one line -/

/-- A string in double quotes. -/
def basic? : Nat → List Char → Option (List Char × List Char)
  | 0, _ => none
  | _ + 1, [] => none
  | _ + 1, '"' :: rest => some ([], rest)
  | fuel + 1, '\\' :: rest => do
    let (c, rest') ← escape? rest
    let (cs, rest'') ← basic? fuel rest'
    return (c :: cs, rest'')
  | fuel + 1, c :: rest =>
    if isControl c then none
    else (basic? fuel rest).map fun (cs, rest') => (c :: cs, rest')

/-- A string in apostrophes. -/
def literal? : List Char → Option (List Char × List Char)
  | [] => none
  | '\'' :: rest => some ([], rest)
  | c :: rest =>
    if isControl c then none else (literal? rest).map fun (cs, rest') => (c :: cs, rest')

/-! ### Strings over several lines -/

/-- The quotes that end a string over several lines: three that close it, after up to two that still
belong to it. -/
def closing? (quote : Char) (cs : List Char) : Option (List Char × List Char) :=
  let run := (cs.take 5).takeWhile (· == quote)
  if run.length < 3 then none else some (run.drop 3, cs.drop run.length)

/-- A string in double quotes over several lines. -/
def multilineBasic? : Nat → List Char → Option (List Char × List Char)
  | 0, _ => none
  | fuel + 1, cs =>
    match closing? '"' cs with
    | some found => some found
    | none =>
      match lineEnd? cs with
      | some rest => (multilineBasic? fuel rest).map fun (cs, rest') => ('\n' :: cs, rest')
      | none =>
        match cs with
        | [] => none
        | '\\' :: rest =>
          match continued? rest with
          | some rest' => multilineBasic? fuel rest'
          | none => do
            let (c, rest') ← escape? rest
            let (cs, rest'') ← multilineBasic? fuel rest'
            return (c :: cs, rest'')
        | c :: rest =>
          if isControl c then none
          else (multilineBasic? fuel rest).map fun (cs, rest') => (c :: cs, rest')

/-- A string in apostrophes over several lines. -/
def multilineLiteral? : Nat → List Char → Option (List Char × List Char)
  | 0, _ => none
  | fuel + 1, cs =>
    match closing? '\'' cs with
    | some found => some found
    | none =>
      match lineEnd? cs with
      | some rest => (multilineLiteral? fuel rest).map fun (cs, rest') => ('\n' :: cs, rest')
      | none =>
        match cs with
        | [] => none
        | c :: rest =>
          if isControl c then none
          else (multilineLiteral? fuel rest).map fun (cs, rest') => (c :: cs, rest')

/-- The text without a line end at its head. -/
def dropLineEnd (cs : List Char) : List Char := (lineEnd? cs).getD cs

/-- A string on one line, from its opening quote on. -/
def quoted? : List Char → Option (String × List Char)
  | '"' :: rest => (basic? (rest.length + 1) rest).map fun (cs, rest') => (String.ofList cs, rest')
  | '\'' :: rest => (literal? rest).map fun (cs, rest') => (String.ofList cs, rest')
  | _ => none

/-- A string of any form, from its opening quotes on. -/
def string? : List Char → Option (String × List Char)
  | '"' :: '"' :: '"' :: rest =>
    (multilineBasic? (rest.length + 1) (dropLineEnd rest)).map fun (cs, rest') =>
      (String.ofList cs, rest')
  | '\'' :: '\'' :: '\'' :: rest =>
    (multilineLiteral? (rest.length + 1) (dropLineEnd rest)).map fun (cs, rest') =>
      (String.ofList cs, rest')
  | cs => quoted? cs

end TypedSql.Toml
