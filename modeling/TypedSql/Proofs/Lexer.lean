import TypedSql.Proofs.Literals

/-!
# Words and marks

A text of SQL is read from the left into tokens (`lex`). A quoted text and a quoted name are words;
every other character is a mark. In a quoted text a backslash escapes the character behind it and two
quotes in a row are one; in a quoted name two back-ticks in a row are one, and a dot between back-ticks
separates the parts of the name. A text in which quotes stay open is not read at all, so a text that is
read ends outside quotes for the scanner too (`finish_of_lex`).

The reader cannot tell two quotes in a row from a closing one unless it sees what follows, so what the
dialect quotes is read in front of a text that does not go on with it: `next?_textLiteral`,
`next?_datetime` and `next?_identifier`.
-/

namespace TypedSql.MySql

open Scan

/-! ### The lexer -/

/-- What stands in quotes. -/
inductive Word where
  | text (s : String)
  /-- A name, its parts joined with dots. -/
  | name (s : String)
deriving DecidableEq, Repr

/-- What a text of SQL is read as. -/
inductive Token where
  | word (w : Word)
  /-- A character outside quotes. -/
  | mark (c : Char)
deriving DecidableEq, Repr

/-- The quoted text behind an opening quote, and what follows the closing one. -/
def readString : List Char → Option (List Char × List Char)
  | [] => none
  | '\'' :: '\'' :: rest => (readString rest).map fun (cs, rest') => ('\'' :: cs, rest')
  | '\'' :: rest => some ([], rest)
  | '\\' :: c :: rest => (readString rest).map fun (cs, rest') => (unescapeChar c :: cs, rest')
  | c :: rest => (readString rest).map fun (cs, rest') => (c :: cs, rest')

/-- The parts of the quoted name behind an opening back-tick, and what follows the closing one. -/
def readName : List Char → Option (List (List Char) × List Char)
  | [] => none
  | '\x60' :: '\x60' :: rest =>
    (readName rest).map fun (parts, rest') => (parts.modifyHead ('\x60' :: ·), rest')
  | '\x60' :: '.' :: '\x60' :: rest => (readName rest).map fun (parts, rest') => ([] :: parts, rest')
  | '\x60' :: rest => some ([[]], rest)
  | c :: rest => (readName rest).map fun (parts, rest') => (parts.modifyHead (c :: ·), rest')

/-- The first token, and what follows it. -/
def next? : List Char → Option (Token × List Char)
  | [] => none
  | '\'' :: rest =>
    (readString rest).map fun (cs, rest') => (.word (.text (String.ofList cs)), rest')
  | '\x60' :: rest =>
    (readName rest).map fun (parts, rest') =>
      (.word (.name (String.ofList (['.'].intercalate parts))), rest')
  | c :: rest => some (.mark c, rest)

/-- What follows a quoted text is shorter than the text with what follows it. -/
theorem readString_length (cs : List Char) : ∀ p ∈ readString cs, p.2.length < cs.length := by
  fun_induction readString cs with
  | case1 => simp
  | case3 rest => simp
  | case2 rest ih | case4 c rest ih | case5 c rest _ _ _ ih =>
    intro p hp
    obtain ⟨q, hq, rfl⟩ := Option.map_eq_some_iff.mp hp
    have hshorter := ih q hq
    simp only [List.length_cons]
    omega

theorem readName_length (cs : List Char) : ∀ p ∈ readName cs, p.2.length < cs.length := by
  fun_induction readName cs with
  | case1 => simp
  | case4 rest => simp
  | case2 rest ih | case3 rest ih | case5 c rest _ _ _ ih =>
    intro p hp
    obtain ⟨q, hq, rfl⟩ := Option.map_eq_some_iff.mp hp
    have hshorter := ih q hq
    simp only [List.length_cons]
    omega

theorem next?_length (cs : List Char) : ∀ p ∈ next? cs, p.2.length < cs.length := by
  fun_cases next? cs with
  | case1 => simp
  | case2 rest =>
    intro p hp
    obtain ⟨q, hq, rfl⟩ := Option.map_eq_some_iff.mp hp
    exact Nat.lt_succ_of_lt (readString_length rest q hq)
  | case3 rest =>
    intro p hp
    obtain ⟨q, hq, rfl⟩ := Option.map_eq_some_iff.mp hp
    exact Nat.lt_succ_of_lt (readName_length rest q hq)
  | case4 c rest => simp

/-- The tokens of a text, unless quotes stay open in it. -/
def lex (cs : List Char) : Option (List Token) :=
  if cs = [] then some []
  else match _ : next? cs with
    | none => none
    | some (token, rest) => (lex rest).map (token :: ·)
termination_by cs.length
decreasing_by exact next?_length cs _ ‹_›

@[simp] theorem lex_nil : lex [] = some [] := by
  rw [lex, if_pos rfl]

theorem lex_of_next? {cs rest : List Char} {token : Token} (h : next? cs = some (token, rest)) :
    lex cs = (lex rest).map (token :: ·) := by
  have hne : cs ≠ [] := by
    rintro rfl
    cases h
  rw [lex, if_neg hne]
  split
  · next hnone => simp [hnone] at h
  · next hsome =>
    obtain ⟨rfl, rfl⟩ := Prod.mk.inj (Option.some.inj (hsome.symm.trans h))
    rfl

/-- The words among the tokens. -/
def words (tokens : List Token) : List Word :=
  tokens.filterMap fun
    | .word w => some w
    | .mark _ => none

/-- The characters outside quotes. -/
def marks (tokens : List Token) : List Char :=
  tokens.filterMap fun
    | .word _ => none
    | .mark c => some c

/-- A text of characters that open no quotes is read character by character. -/
theorem lex_marks {cs : List Char} (h : ∀ c ∈ cs, Unquoting c) (rest : List Char) :
    lex (cs ++ rest) = (lex rest).map (cs.map .mark ++ ·) := by
  induction cs with
  | nil => simp
  | cons c cs ih =>
    rw [List.forall_mem_cons] at h
    have hnext : next? (c :: (cs ++ rest)) = some (.mark c, cs ++ rest) :=
      next?.eq_4 c _ h.1.1 h.1.2
    rw [List.cons_append, lex_of_next? hnext, ih h.2, Option.map_map]
    rfl

/-! ### Reading and scanning

What is read to its end ends outside quotes for the scanner as well: two quotes in a row leave the
quotes and come back to them.
-/

theorem finish_of_readString (cs : List Char) :
    ∀ p ∈ readString cs, finish .quoted cs = finish .plain p.2 := by
  fun_induction readString cs with
  | case1 => simp
  | case3 rest => simp [Mode.next]
  | case2 rest ih | case4 c rest ih =>
    intro p hp
    obtain ⟨q, hq, rfl⟩ := Option.map_eq_some_iff.mp hp
    exact ih q hq
  | case5 c rest _ hquote hbackslash ih =>
    intro p hp
    obtain ⟨q, hq, rfl⟩ := Option.map_eq_some_iff.mp hp
    have hne : rest ≠ [] := by
      rintro rfl
      cases hq
    obtain ⟨d, rest', rfl⟩ := List.exists_cons_of_ne_nil hne
    have hnext : Mode.quoted.next c = .quoted := by
      rw [Mode.next, if_neg fun hc => hbackslash d rest' hc rfl, if_neg hquote]
    rw [finish_cons, hnext, ih q hq]

theorem finish_of_readName (cs : List Char) :
    ∀ p ∈ readName cs, finish .named cs = finish .plain p.2 := by
  fun_induction readName cs with
  | case1 => simp
  | case4 rest => simp [Mode.next]
  | case2 rest ih | case3 rest ih =>
    intro p hp
    obtain ⟨q, hq, rfl⟩ := Option.map_eq_some_iff.mp hp
    exact ih q hq
  | case5 c rest _ _ htick ih =>
    intro p hp
    obtain ⟨q, hq, rfl⟩ := Option.map_eq_some_iff.mp hp
    have hnext : Mode.named.next c = .named := if_neg htick
    rw [finish_cons, hnext, ih q hq]

theorem finish_of_next? (cs : List Char) :
    ∀ p ∈ next? cs, finish .plain cs = finish .plain p.2 := by
  fun_cases next? cs with
  | case1 => simp
  | case2 rest =>
    intro p hp
    obtain ⟨q, hq, rfl⟩ := Option.map_eq_some_iff.mp hp
    exact finish_of_readString rest q hq
  | case3 rest =>
    intro p hp
    obtain ⟨q, hq, rfl⟩ := Option.map_eq_some_iff.mp hp
    exact finish_of_readName rest q hq
  | case4 c rest hquote htick =>
    intro p hp
    obtain rfl := Option.some.inj hp
    have hnext : Mode.plain.next c = .plain := by
      rw [Mode.next, if_neg hquote, if_neg htick]
    rw [finish_cons, hnext]

/-- **A text that is read to its end ends outside quotes.** -/
theorem finish_of_lex {cs : List Char} {tokens : List Token} (h : lex cs = some tokens) :
    finish .plain cs = .plain := by
  fun_induction lex cs generalizing tokens with
  | case1 => rfl
  | case2 => cases h
  | case3 cs _ token rest hnext ih =>
    obtain ⟨tokens', hrest, -⟩ := Option.map_eq_some_iff.mp h
    rw [finish_of_next? cs _ hnext, ih hrest]

/-! ### What is quoted is read -/

/-- **An escaped text is read back** up to the quote behind it, unless another quote follows. -/
theorem readString_escapeChars (cs : List Char) {rest : List Char} (h : rest.head? ≠ some '\'') :
    readString (escapeChars cs ++ '\'' :: rest) = some (cs, rest) := by
  induction cs with
  | nil =>
    refine readString.eq_3 rest ?_
    rintro rest' rfl
    exact h rfl
  | cons c cs ih =>
    rw [escapeChars, List.flatMap_cons, List.append_assoc]
    rcases escapeChar_cases c with ⟨d, hescape, hunescape⟩ | ⟨hsame, hquote, hbackslash⟩
    · rw [hescape]
      change (readString (escapeChars cs ++ '\'' :: rest)).map _ = _
      rw [ih, Option.map_some, hunescape]
    · rw [hsame, List.singleton_append, readString.eq_5 c _ (fun _ hc _ => hquote hc) hquote
        (fun _ _ hc _ => hbackslash hc)]
      change (readString (escapeChars cs ++ '\'' :: rest)).map _ = _
      rw [ih, Option.map_some]

/-- A text of characters that need no escape is read back as well. -/
theorem readString_quotable {cs : List Char} (hcs : ∀ c ∈ cs, Quotable c) {rest : List Char}
    (h : rest.head? ≠ some '\'') : readString (cs ++ '\'' :: rest) = some (cs, rest) := by
  induction cs with
  | nil => exact readString_escapeChars [] h
  | cons c cs ih =>
    rw [List.forall_mem_cons] at hcs
    obtain ⟨⟨hquote, hbackslash⟩, hcs⟩ := hcs
    rw [List.cons_append, readString.eq_5 c _ (fun _ hc _ => hquote hc) hquote
      (fun _ _ hc _ => hbackslash hc), ih hcs, Option.map_some]

theorem segments_ne_nil (cs : List Char) : TableName.segments cs ≠ [] := by
  fun_cases TableName.segments cs <;> simp

theorem segments_cons_of_ne {c : Char} (h : c ≠ '.') (cs : List Char) :
    TableName.segments (c :: cs) = (TableName.segments cs).modifyHead (c :: ·) := by
  obtain ⟨first, others, hsegments⟩ := List.exists_cons_of_ne_nil (segments_ne_nil cs)
  rw [TableName.segments, if_neg h, hsegments, List.modifyHead_cons]

/-- The segments of a name are joined with dots again. -/
theorem intercalate_segments (cs : List Char) : ['.'].intercalate (TableName.segments cs) = cs := by
  induction cs with
  | nil => rfl
  | cons c cs ih =>
    obtain ⟨first, others, hsegments⟩ := List.exists_cons_of_ne_nil (segments_ne_nil cs)
    rw [hsegments] at ih
    by_cases hdot : c = '.'
    · rw [TableName.segments, if_pos hdot, hsegments, List.intercalate_cons_cons, ih, hdot]
      rfl
    · rw [segments_cons_of_ne hdot, hsegments, List.modifyHead_cons, ← ih]
      cases others <;> rfl

/-- **A quoted name is read back** as its segments, unless what follows goes on with the name. -/
theorem readName_quoteChars (cs : List Char) {rest : List Char} (htick : rest.head? ≠ some '\x60')
    (hdot : rest.head? ≠ some '.') :
    readName (cs.flatMap quoteChar ++ '\x60' :: rest) = some (TableName.segments cs, rest) := by
  induction cs with
  | nil =>
    refine readName.eq_4 rest ?_ ?_
    · rintro rest' rfl
      exact htick rfl
    · rintro rest' rfl
      exact hdot rfl
  | cons c cs ih =>
    rw [List.flatMap_cons, List.append_assoc]
    by_cases hc : c = '\x60'
    · rw [hc]
      change (readName (cs.flatMap quoteChar ++ '\x60' :: rest)).map _ = _
      rw [ih, Option.map_some, segments_cons_of_ne (by decide)]
    · by_cases hc' : c = '.'
      · rw [hc']
        change (readName (cs.flatMap quoteChar ++ '\x60' :: rest)).map _ = _
        rw [ih, Option.map_some]
        rfl
      · rw [quoteChar.eq_3 c hc hc', List.singleton_append, readName.eq_5 c _ (fun _ h _ => hc h)
          (fun _ h _ => hc h) hc, ih, Option.map_some, segments_cons_of_ne hc']

/-- A text that does not go on with quotes that were closed in front of it. -/
structure Boundary (rest : List Char) : Prop where
  noQuote : rest.head? ≠ some '\''
  noTick : rest.head? ≠ some '\x60'
  noDot : rest.head? ≠ some '.'

instance (rest : List Char) : Decidable (Boundary rest) :=
  decidable_of_iff
    (rest.head? ≠ some '\'' ∧ rest.head? ≠ some '\x60' ∧ rest.head? ≠ some '.')
    ⟨fun ⟨h₁, h₂, h₃⟩ => ⟨h₁, h₂, h₃⟩, fun ⟨h₁, h₂, h₃⟩ => ⟨h₁, h₂, h₃⟩⟩

theorem next?_textLiteral (s : String) {rest : List Char} (h : rest.head? ≠ some '\'') :
    next? ((textLiteral s).toList ++ rest) = some (.word (.text s), rest) := by
  have hsplit : (textLiteral s).toList ++ rest = '\'' :: (escapeChars s.toList ++ '\'' :: rest) := by
    simp [textLiteral]
  simp only [hsplit, next?, readString_escapeChars s.toList h, Option.map_some, String.ofList_toList]

theorem next?_datetime (t : DateTime) {rest : List Char} (h : rest.head? ≠ some '\'') :
    next? (("'" ++ t.text ++ "'").toList ++ rest) = some (.word (.text t.text), rest) := by
  have hsplit : ("'" ++ t.text ++ "'").toList ++ rest = '\'' :: (t.text.toList ++ '\'' :: rest) := by
    simp
  simp only [hsplit, next?, readString_quotable (fun _ => quotable_of_mem_text) h, Option.map_some,
    String.ofList_toList]

theorem next?_identifier (name : String) {rest : List Char} (htick : rest.head? ≠ some '\x60')
    (hdot : rest.head? ≠ some '.') :
    next? ((identifier name).toList ++ rest) = some (.word (.name name), rest) := by
  have hsplit : (identifier name).toList ++ rest =
      '\x60' :: (name.toList.flatMap quoteChar ++ '\x60' :: rest) := by
    simp [identifier]
  simp only [hsplit, next?, readName_quoteChars name.toList htick hdot, Option.map_some,
    intercalate_segments, String.ofList_toList]

end TypedSql.MySql
