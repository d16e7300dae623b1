import TypedSql.Proofs.Lexer
import TypedSql.Proofs.Operations

/-!
# Quoted names

A server reads a name as a chain of quoted names with dots between them (`MySql.readChain`). One quoted
name ends at a back-tick that is not followed by another one, and the chain goes on where a dot and an
opening back-tick follow. This is what the lexer reads in one pass (`MySql.readChain_eq_readName`), so
every name is read back as its segments between dots (`MySql.identifier_read_back`).

The label of a count is written as any other name. It is read back as one name, the name of a column,
exactly when it has no dot (`Builder.label_names_column_iff`).
-/

namespace TypedSql

namespace MySql

/-! ### Quoted names one by one -/

/-- The characters behind an opening back-tick up to the closing one, and what follows it; of two
back-ticks in a row, one is a character. -/
def readTicked : List Char → Option (List Char × List Char)
  | [] => none
  | '\x60' :: '\x60' :: rest => (readTicked rest).map fun (cs, rest') => ('\x60' :: cs, rest')
  | '\x60' :: rest => some ([], rest)
  | c :: rest => (readTicked rest).map fun (cs, rest') => (c :: cs, rest')

/-- One quoted name, and what follows it. -/
def readQuoted : List Char → Option (List Char × List Char)
  | '\x60' :: rest => readTicked rest
  | _ => none

theorem readTicked_length (cs : List Char) : ∀ p ∈ readTicked cs, p.2.length < cs.length := by
  fun_induction readTicked cs with
  | case1 => simp
  | case3 rest => simp
  | case2 rest ih | case4 c rest _ _ ih =>
    intro p hp
    obtain ⟨q, hq, rfl⟩ := Option.map_eq_some_iff.mp hp
    have hshorter := ih q hq
    simp only [List.length_cons]
    omega

theorem readQuoted_length (cs : List Char) : ∀ p ∈ readQuoted cs, p.2.length < cs.length := by
  fun_cases readQuoted cs with
  | case1 rest => exact fun p hp => Nat.lt_succ_of_lt (readTicked_length rest p hp)
  | case2 => simp

/-- Quoted names joined with dots, and what follows the last of them. -/
def readChain (cs : List Char) : Option (List (List Char) × List Char) :=
  match _ : readQuoted cs with
  | none => none
  | some (part, '.' :: '\x60' :: rest) =>
    (readChain ('\x60' :: rest)).map fun (parts, rest') => (part :: parts, rest')
  | some (part, rest) => some ([part], rest)
termination_by cs.length
decreasing_by
  have hshorter := readQuoted_length cs _ ‹_›
  simp only [List.length_cons] at hshorter ⊢
  omega

theorem readChain_of_none {cs : List Char} (h : readQuoted cs = none) : readChain cs = none := by
  rw [readChain]
  split
  · rfl
  · next hsome => simp [hsome] at h
  · next hsome => simp [hsome] at h

theorem readChain_of_dot {cs part rest : List Char}
    (h : readQuoted cs = some (part, '.' :: '\x60' :: rest)) :
    readChain cs =
      (readChain ('\x60' :: rest)).map fun (parts, rest') => (part :: parts, rest') := by
  rw [readChain]
  split
  · next hnone => simp [hnone] at h
  · next hsome =>
    rw [h] at hsome
    cases hsome
    rfl
  · next hother hsome =>
    rw [h] at hsome
    cases hsome
    exact (hother rest rfl).elim

theorem readChain_of_end {cs part rest : List Char} (h : readQuoted cs = some (part, rest))
    (hend : ∀ rest', rest ≠ '.' :: '\x60' :: rest') : readChain cs = some ([part], rest) := by
  rw [readChain]
  split
  · next hnone => simp [hnone] at h
  · next hsome =>
    rw [h] at hsome
    cases hsome
    exact (hend _ rfl).elim
  · next hsome =>
    rw [h] at hsome
    cases hsome
    rfl

/-- A character in front of the first name of a chain is a character of that name. -/
theorem readChain_cons {c : Char} {cs cs' : List Char}
    (h : readTicked cs' = (readTicked cs).map fun (part, rest) => (c :: part, rest)) :
    readChain ('\x60' :: cs') =
      (readChain ('\x60' :: cs)).map fun (parts, rest) => (parts.modifyHead (c :: ·), rest) := by
  cases hread : readTicked cs with
  | none =>
    have hnone : readQuoted ('\x60' :: cs') = none := by rw [readQuoted, h, hread]; rfl
    have hnone' : readQuoted ('\x60' :: cs) = none := hread
    rw [readChain_of_none hnone, readChain_of_none hnone']
    rfl
  | some found =>
    obtain ⟨part, rest⟩ := found
    have hfirst : readQuoted ('\x60' :: cs') = some (c :: part, rest) := by
      rw [readQuoted, h, hread]
      rfl
    have hfirst' : readQuoted ('\x60' :: cs) = some (part, rest) := hread
    by_cases hdot : ∃ rest', rest = '.' :: '\x60' :: rest'
    · obtain ⟨rest', rfl⟩ := hdot
      rw [readChain_of_dot hfirst, readChain_of_dot hfirst', Option.map_map]
      rfl
    · have hend : ∀ rest', rest ≠ '.' :: '\x60' :: rest' := fun rest' heq => hdot ⟨rest', heq⟩
      rw [readChain_of_end hfirst hend, readChain_of_end hfirst' hend]
      rfl

/-- **A chain is read in one pass**: reading quoted names one by one gives what the lexer reads in one
go, looking two characters ahead at each back-tick. -/
theorem readChain_eq_readName (cs : List Char) : readChain ('\x60' :: cs) = readName cs := by
  fun_induction readName cs with
  | case1 => exact readChain_of_none rfl
  | case2 rest ih => rw [readChain_cons (readTicked.eq_2 rest), ih]
  | case3 rest ih =>
    have hfirst : readQuoted ('\x60' :: '\x60' :: '.' :: '\x60' :: rest) =
        some ([], '.' :: '\x60' :: rest) := readTicked.eq_3 _ (by simp)
    rw [readChain_of_dot hfirst, ih]
  | case4 rest htick hdot =>
    have hfirst : readQuoted ('\x60' :: '\x60' :: rest) = some ([], rest) := readTicked.eq_3 _ htick
    exact readChain_of_end hfirst hdot
  | case5 c rest _ _ hc ih =>
    rw [readChain_cons (readTicked.eq_4 c rest (fun _ hc' _ => hc hc') hc), ih]

/-! ### Names read back -/

/-- The segments of a name are the texts between its dots. -/
theorem segments_eq_splitOn (cs : List Char) : TableName.segments cs = cs.splitOn '.' := by
  induction cs with
  | nil => rfl
  | cons c cs ih =>
    rw [List.splitOn_cons_eq_if_modifyHead]
    by_cases hc : c = '.'
    · rw [TableName.segments, if_pos hc, if_pos (by simp [hc]), ih]
    · rw [segments_cons_of_ne hc, if_neg (by simp [hc]), ih]

theorem readChain_identifier (name : String) (rest : List Char) (htick : rest.head? ≠ some '\x60')
    (hdot : rest.head? ≠ some '.') :
    readChain ((identifier name).toList ++ rest) = some (name.toList.splitOn '.', rest) := by
  have hsplit : (identifier name).toList ++ rest =
      '\x60' :: (name.toList.flatMap quoteChar ++ '\x60' :: rest) := by
    simp [identifier]
  rw [hsplit, readChain_eq_readName, readName_quoteChars name.toList htick hdot, segments_eq_splitOn]

/-- **Names are read back**: in front of a text that begins with neither a back-tick nor a dot, what the
dialect writes for a name is read to its end as the segments of the name between its dots, empty ones
included. So different names are written differently. -/
theorem identifier_read_back :
    (∀ (name : String) (rest : List Char), rest.head? ≠ some '\x60' → rest.head? ≠ some '.' →
        readChain ((Dialect.mySql.identifier name).toList ++ rest) =
          some (name.toList.splitOn '.', rest)) ∧
      Function.Injective Dialect.mySql.identifier := by
  refine ⟨readChain_identifier, fun name name' heq => ?_⟩
  have hread (name : String) :
      readChain ((Dialect.mySql.identifier name).toList ++ []) = some (name.toList.splitOn '.', []) :=
    readChain_identifier name [] (by simp) (by simp)
  have hsegments : name.toList.splitOn '.' = name'.toList.splitOn '.' := by
    have hname := hread name
    rw [heq, hread name'] at hname
    exact (congrArg Prod.fst (Option.some.inj hname)).symm
  have hjoined := congrArg ['.'].intercalate hsegments
  rwa [List.intercalate_splitOn, List.intercalate_splitOn, String.toList_inj] at hjoined

/-- Back-ticks next to dots, a dot at the beginning and one at the end. -/
theorem identifier_read_back_ticks :
    let quoted := "\x60\x60.\x60\x60\x60\x60\x60\x60.\x60\x60\x60a\x60.\x60\x60"
    Dialect.mySql.identifier ".\x60\x60.\x60a." = quoted ∧
      [' '].head? ≠ some '\x60' ∧ [' '].head? ≠ some '.' ∧
      readChain (quoted.toList ++ [' ']) = some ([[], ['\x60', '\x60'], ['\x60', 'a'], []], [' ']) := by
  intro quoted
  have hquoted : Dialect.mySql.identifier ".\x60\x60.\x60a." = quoted := by decide
  refine ⟨hquoted, by decide, by decide, ?_⟩
  rw [← hquoted, identifier_read_back.1 ".\x60\x60.\x60a." [' '] (by decide) (by decide)]
  decide

/-- A name has one segment exactly when there is no dot in it. -/
theorem splitOn_dot_eq_singleton_iff (cs : List Char) : cs.splitOn '.' = [cs] ↔ '.' ∉ cs := by
  constructor
  · intro h hmem
    obtain ⟨before, after, rfl⟩ := List.append_of_mem hmem
    rw [List.splitOn_append_cons_self] at h
    have hlength := congrArg List.length h
    have hbefore := List.length_pos_of_ne_nil (List.splitOn_ne_nil '.' before)
    have hafter := List.length_pos_of_ne_nil (List.splitOn_ne_nil '.' after)
    simp only [List.length_append, List.length_singleton] at hlength
    omega
  · exact List.splitOn_eq_singleton

end MySql

/-! ### The label of a count -/

namespace Builder

variable {b : Builder} {r : Request}

/-- What stands in front of the count: the select of a query with a semicolon, or nothing. -/
def InFrontOfCount (b : Builder) (op : Operation) (r : Request) (before : String) : Prop :=
  match op with
  | .query => ∃ select, (b.build .query { r with count := none }).result = .ok select ∧
      before = select ++ ";"
  | _ => before = ""

/-- The text begins with one quoted name, which is the label, and goes on with the table. -/
def NamesColumn (label table text : String) : Prop :=
  ∃ clause, MySql.readChain text.toList =
    some ([label.toList], (" FROM " ++ table ++ spaced clause).toList)

/-- A query or a count with a label has one count in it. -/
theorem count_of_build {op : Operation} {label sql : String} (hop : op = .query ∨ op = .count)
    (hlabel : CountAlias.ofValue? r.count = .ok (some label))
    (h : (b.build op r).result = .ok sql) :
    ∃ before table clause, r.table = some table ∧ InFrontOfCount b op r before ∧
      sql = before ++ b.countText label table clause := by
  rcases hop with rfl | rfl
  · obtain ⟨mapping, table, order, page, label', clause, htarget, horder, hpage, hlabel', hclause,
      rfl⟩ := query_eq_ok_iff.mp h
    obtain rfl : label' = some label := Except.ok.inj (hlabel'.symm.trans hlabel)
    have hselect : (b.build .query { r with count := none }).result =
        .ok (b.selectText r mapping table clause order page) :=
      query_eq_ok_iff.mpr
        ⟨mapping, table, order, page, none, clause, htarget, horder, hpage, rfl, hclause, rfl⟩
    exact ⟨_, table, clause, (target_eq_ok_iff.mp htarget).2.1, ⟨_, hselect, rfl⟩, rfl⟩
  · obtain ⟨mapping, table, label', clause, htarget, hlabel', -, rfl⟩ := count_eq_ok_iff.mp h
    obtain rfl : label' = label := Option.some.inj (Except.ok.inj (hlabel'.symm.trans hlabel))
    exact ⟨"", table, clause, (target_eq_ok_iff.mp htarget).2.1, rfl, (String.empty_append).symm⟩

/-- **The label of a count** is written as its segments between dots, whatever else is in it, and the table
follows. So it names one column exactly when it has no dot. -/
theorem label_names_column_iff (settings : Settings) (r : Request) (label sql : String)
    (op : Operation) (hop : op = .query ∨ op = .count)
    (hlabel : CountAlias.ofValue? r.count = .ok (some label))
    (h : ((Builder.mk .mySql settings).build op r).result = .ok sql) :
    ∃ before table text, r.table = some table ∧ InFrontOfCount ⟨.mySql, settings⟩ op r before ∧
      sql = before ++ "SELECT COUNT(*) AS " ++ text ∧
      (∃ clause, MySql.readChain text.toList =
        some (label.toList.splitOn '.', (" FROM " ++ table ++ spaced clause).toList)) ∧
      (NamesColumn label table text ↔ '.' ∉ label.toList) := by
  obtain ⟨before, table, clause, htable, hbefore, rfl⟩ := count_of_build hop hlabel h
  have hread : MySql.readChain
      (MySql.identifier label ++ (" FROM " ++ table ++ spaced clause)).toList =
        some (label.toList.splitOn '.', (" FROM " ++ table ++ spaced clause).toList) := by
    rw [String.toList_append]
    exact MySql.readChain_identifier label _ (by simp) (by simp)
  refine ⟨before, table, MySql.identifier label ++ (" FROM " ++ table ++ spaced clause), htable,
    hbefore, ?_, ⟨clause, hread⟩, ?_⟩
  · have htext : (Builder.mk .mySql settings).countText label table clause =
        "SELECT COUNT(*) AS " ++ MySql.identifier label ++ " FROM " ++ table ++ spaced clause := rfl
    rw [htext]
    simp only [String.append_assoc]
  · rw [← MySql.splitOn_dot_eq_singleton_iff]
    constructor
    · rintro ⟨clause', hone⟩
      rw [hread] at hone
      exact congrArg Prod.fst (Option.some.inj hone)
    · intro hone
      rw [hone] at hread
      exact ⟨clause, hread⟩

/-- A label with a blank and back-ticks in it, behind a query. -/
theorem label_names_column_iff_ticks :
    let r : Request :=
      { Request.empty with
        mapping := some ⟨[("id", .number)]⟩
        table := some "users"
        count := some (.text "all \x60rows\x60") }
    let sql := "SELECT * FROM users;SELECT COUNT(*) AS \x60all \x60\x60rows\x60\x60\x60 FROM users"
    CountAlias.ofValue? r.count = .ok (some "all \x60rows\x60") ∧
      ((Builder.mk .mySql .strict).build .query r).result = .ok sql ∧
      ∃ before table text, r.table = some table ∧
        sql = before ++ "SELECT COUNT(*) AS " ++ text ∧ NamesColumn "all \x60rows\x60" table text := by
  intro r sql
  have hlabel : CountAlias.ofValue? r.count = .ok (some "all \x60rows\x60") := rfl
  have hsql : ((Builder.mk .mySql .strict).build .query r).result = .ok sql := rfl
  obtain ⟨before, table, text, htable, -, hsplit, -, hone⟩ :=
    label_names_column_iff .strict r _ sql .query (.inl rfl) hlabel hsql
  exact ⟨hlabel, hsql, before, table, text, htable, hsplit, hone.mpr (by decide)⟩

/-- A label with a dot is written as a name with a qualifier, which is no name of a column. -/
theorem dotted_label_names_no_column :
    let r : Request :=
      { Request.empty with
        mapping := some ⟨[("id", .number)]⟩
        table := some "users"
        count := some (.text "a.b") }
    let text := "\x60a\x60.\x60b\x60 FROM users"
    CountAlias.ofValue? r.count = .ok (some "a.b") ∧
      ((Builder.mk .mySql .strict).build .count r).result = .ok ("SELECT COUNT(*) AS " ++ text) ∧
      ¬ NamesColumn "a.b" "users" text := by
  intro r text
  have htext : text.toList = '\x60' :: "a\x60.\x60b\x60 FROM users".toList := by decide
  have hread : MySql.readChain text.toList = some ([['a'], ['b']], " FROM users".toList) := by
    rw [htext, MySql.readChain_eq_readName]
    decide
  refine ⟨rfl, rfl, ?_⟩
  rintro ⟨clause, hone⟩
  rw [hread] at hone
  simp at hone

end Builder

end TypedSql
