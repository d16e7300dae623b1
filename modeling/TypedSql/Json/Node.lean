import TypedSql.Decimal.Numeral
import TypedSql.Text.Hex

/-!
# JSON text

A reader of strict JSON. What it reads is a node: the text's structure, with numbers as they are
written and with the members of objects in order, repeated ones included. The meaning of numbers,
repetitions and depth is left to those who use the node, so a part that nobody uses is never refused
for its meaning.

A string may contain escaped halves of surrogate pairs. Halves that do not pair up stand for no text;
such a string is a node, but one without a text.
-/

namespace TypedSql.Json

/-- A JSON value as it is written. -/
inductive Node where
  | null
  | bool (b : Bool)
  /-- A number with the characters that it is written with. -/
  | number (lexeme : List Char)
  /-- A string, and its text if it has one. -/
  | string (text : Option String)
  | array (items : List Node)
  /-- The members in order, each with the text of its key if that has one. -/
  | object (members : List (Option String × Node))

/-! ### Blanks -/

/-- The four characters that may stand between tokens. -/
def isSpace (c : Char) : Bool := c == ' ' || c == '\t' || c == '\n' || c == '\r'

/-- The text from its first token on. -/
def skipSpace (cs : List Char) : List Char := cs.dropWhile isSpace

/-! ### Strings -/

/-- The number that hexadecimal digits stand for. -/
def hexNumber? (cs : List Char) : Option Nat :=
  cs.foldl (fun value c => do return 16 * (← value) + (← Text.hexDigit? c)) (some 0)

/-- The character that a letter after a backslash stands for. -/
def escaped? : Char → Option Char
  | '"' => some '"'
  | '\\' => some '\\'
  | '/' => some '/'
  | 'b' => some '\x08'
  | 'f' => some '\x0c'
  | 'n' => some '\n'
  | 'r' => some '\r'
  | 't' => some '\t'
  | _ => none

/-- The codes of a string up to its closing quote, and what follows it. A code is a code point, or half
of a surrogate pair that was escaped. -/
def codes? : List Char → Option (List Nat × List Char)
  | [] => none
  | '"' :: rest => some ([], rest)
  | '\\' :: 'u' :: a :: b :: c :: d :: rest => do
    let code ← hexNumber? [a, b, c, d]
    let (codes, rest') ← codes? rest
    return (code :: codes, rest')
  | '\\' :: e :: rest => do
    let c ← escaped? e
    let (codes, rest') ← codes? rest
    return (c.toNat :: codes, rest')
  | c :: rest =>
    if c.toNat < 0x20 then none
    else do
      let (codes, rest') ← codes? rest
      return (c.toNat :: codes, rest')

/-- The first half of a surrogate pair. -/
def isHighHalf (code : Nat) : Bool := 0xD800 ≤ code && code ≤ 0xDBFF

/-- The second half of a surrogate pair. -/
def isLowHalf (code : Nat) : Bool := 0xDC00 ≤ code && code ≤ 0xDFFF

/-- The code point of a surrogate pair. -/
def pairedCode (high low : Nat) : Nat := 0x10000 + (high - 0xD800) * 0x400 + (low - 0xDC00)

/-- The characters that codes stand for, when all halves of surrogate pairs pair up. -/
def charsOfCodes? : List Nat → Option (List Char)
  | [] => some []
  | [code] => if isHighHalf code || isLowHalf code then none else some [Char.ofNat code]
  | high :: low :: rest =>
    if isHighHalf high then
      if isLowHalf low then (charsOfCodes? rest).map (Char.ofNat (pairedCode high low) :: ·)
      else none
    else if isLowHalf high then none
    else (charsOfCodes? (low :: rest)).map (Char.ofNat high :: ·)

/-- The text of a string behind its opening quote, if it has one, and what follows the string. -/
def string? (cs : List Char) : Option (Option String × List Char) :=
  (codes? cs).map fun (codes, rest) => ((charsOfCodes? codes).map String.ofList, rest)

/-! ### Numbers -/

/-- The digits in front of the point: a zero alone, or digits that begin with another. -/
def wholeDigits? (cs : List Char) : Option (List Char × List Char) :=
  match Decimal.splitDigits cs with
  | ([], _) => none
  | (['0'], rest) => some (['0'], rest)
  | ('0' :: _ :: _, _) => none
  | found => some found

/-- The point with its digits; a point without digits is an error. -/
def fraction? : List Char → Option (List Char × List Char)
  | '.' :: rest =>
    match Decimal.splitDigits rest with
    | ([], _) => none
    | (ds, rest') => some ('.' :: ds, rest')
  | cs => some ([], cs)

/-- The exponent with its digits; an exponent without digits is an error. -/
def exponent? : List Char → Option (List Char × List Char)
  | [] => some ([], [])
  | c :: rest =>
    if c = 'e' || c = 'E' then
      let (sign, rest') := Decimal.splitSign rest
      match Decimal.splitDigits rest' with
      | ([], _) => none
      | (ds, rest'') => some (c :: sign ++ ds, rest'')
    else some ([], c :: rest)

/-- The minus sign of a number. -/
def minus : List Char → List Char × List Char
  | '-' :: rest => (['-'], rest)
  | cs => ([], cs)

/-- A number at the head of the text, as it is written, and what follows it. -/
def number? (cs : List Char) : Option (List Char × List Char) := do
  let (sign, cs) := minus cs
  let (whole, cs) ← wholeDigits? cs
  let (fraction, cs) ← fraction? cs
  let (exponent, cs) ← exponent? cs
  return (sign ++ whole ++ fraction ++ exponent, cs)

/-! ### Values -/

/-- A key at the head of the text with the colon behind it, and what follows. -/
def key? (cs : List Char) : Option (Option String × List Char) :=
  match skipSpace cs with
  | '"' :: rest => do
    let (text, rest') ← string? rest
    match skipSpace rest' with
    | ':' :: rest'' => return (text, rest'')
    | _ => none
  | _ => none

mutual

/-- A value at the head of the text, and what follows it. -/
def node? : Nat → List Char → Option (Node × List Char)
  | 0, _ => none
  | fuel + 1, cs =>
    match skipSpace cs with
    | [] => none
    | 'n' :: 'u' :: 'l' :: 'l' :: rest => some (.null, rest)
    | 't' :: 'r' :: 'u' :: 'e' :: rest => some (.bool true, rest)
    | 'f' :: 'a' :: 'l' :: 's' :: 'e' :: rest => some (.bool false, rest)
    | '"' :: rest => (string? rest).map fun (text, rest') => (.string text, rest')
    | '[' :: rest =>
      match skipSpace rest with
      | ']' :: rest' => some (.array [], rest')
      | rest' => (items? fuel rest').map fun (items, rest'') => (.array items, rest'')
    | '\x7b' :: rest =>
      match skipSpace rest with
      | '\x7d' :: rest' => some (.object [], rest')
      | rest' => (members? fuel rest').map fun (members, rest'') => (.object members, rest'')
    | c :: rest => (number? (c :: rest)).map fun (lexeme, rest') => (.number lexeme, rest')

/-- The items of an array up to its closing bracket; there is at least one. -/
def items? : Nat → List Char → Option (List Node × List Char)
  | 0, _ => none
  | fuel + 1, cs => do
    let (item, rest) ← node? fuel cs
    match skipSpace rest with
    | ']' :: rest' => return ([item], rest')
    | ',' :: rest' =>
      let (items, rest'') ← items? fuel rest'
      return (item :: items, rest'')
    | _ => none

/-- The members of an object up to its closing brace; there is at least one. -/
def members? : Nat → List Char → Option (List (Option String × Node) × List Char)
  | 0, _ => none
  | fuel + 1, cs => do
    let (key, rest) ← key? cs
    let (value, rest') ← node? fuel rest
    match skipSpace rest' with
    | '\x7d' :: rest'' => return ([(key, value)], rest'')
    | ',' :: rest'' =>
      let (members, rest''') ← members? fuel rest''
      return ((key, value) :: members, rest''')
    | _ => none

end

/-- Enough fuel for a text: a step that reads nothing is followed by one that reads a character. -/
def fuelFor (cs : List Char) : Nat := 2 * cs.length + 2

/-- The first value of a text, and what follows it. -/
def firstNode? (cs : List Char) : Option (Node × List Char) := node? (fuelFor cs) cs

/-- The text holds nothing more. -/
def atEnd (cs : List Char) : Bool := (skipSpace cs).isEmpty

/-- The value that a whole text is. -/
def wholeNode? (text : String) : Option Node :=
  match firstNode? text.toList with
  | some (node, rest) => if atEnd rest then some node else none
  | none => none

/-! ### Depth -/

mutual

/-- How many arrays and objects are nested in a node. -/
def Node.depth : Node → Nat
  | .array items => Node.depthOfItems items + 1
  | .object members => Node.depthOfMembers members + 1
  | _ => 0

/-- The greatest depth of a list of nodes. -/
def Node.depthOfItems : List Node → Nat
  | [] => 0
  | n :: rest => max n.depth (Node.depthOfItems rest)

/-- The greatest depth of a list of members. -/
def Node.depthOfMembers : List (Option String × Node) → Nat
  | [] => 0
  | (_, n) :: rest => max n.depth (Node.depthOfMembers rest)

end

/-- A value may be nested less than this deep. -/
def depthLimit : Nat := 128

end TypedSql.Json
