/-!
# Normal form of text fields

A text is put into normal form before it is bound to a text field. A backslash, a quote of either
kind and a NUL are written with a backslash in front, and each line end (CR LF, LF CR, CR or LF,
taken in pairs from the left) becomes one LF.
-/

namespace TypedSql.Text

/-- Escapes quotes, backslashes and NUL, and writes every line end as LF. -/
def normaliseChars : List Char → List Char
  | [] => []
  | '\\' :: rest => '\\' :: '\\' :: normaliseChars rest
  | '\'' :: rest => '\\' :: '\'' :: normaliseChars rest
  | '"' :: rest => '\\' :: '"' :: normaliseChars rest
  | '\x00' :: rest => '\\' :: '0' :: normaliseChars rest
  | '\r' :: '\n' :: rest => '\n' :: normaliseChars rest
  | '\r' :: rest => '\n' :: normaliseChars rest
  | '\n' :: '\r' :: rest => '\n' :: normaliseChars rest
  | '\n' :: rest => '\n' :: normaliseChars rest
  | c :: rest => c :: normaliseChars rest

/-- The normal form of a text. -/
def normalise (s : String) : String :=
  String.ofList (normaliseChars s.toList)

@[simp] theorem toList_normalise (s : String) : (normalise s).toList = normaliseChars s.toList :=
  String.toList_ofList

end TypedSql.Text
