import TypedSql.Proofs.Assembly
import TypedSql.Proofs.Literals
import TypedSql.Proofs.Template

/-!
# Selects, counts and deletions are single statements

Whatever a request for a select, a count or a deletion holds, the MySQL dialect makes one statement of
it. Names and values are fragments, so conditions, where clauses, columns, orders and pages are, and
the text of the statement is put together from them. Only a query that is given an alias has a
semicolon: it stands between the select, which is the query without the alias, and the count.
-/

namespace TypedSql

open Scan

/-! ### Where clauses -/

namespace Where

theorem Clause.fragment_render (clause : Clause) : Fragment (clause.render .mySql) := by
  cases clause with
  | compare field comparison value =>
    have hsymbol : Fragment comparison.symbol := by
      cases comparison <;> decide
    rw [Clause.render_compare]
    exact ((((MySql.fragment_identifier field).append (by decide)).append hsymbol).append
      (by decide)).append (MySql.fragment_literal value)
  | member field values negated =>
    by_cases hvalues : values = []
    · have hconstant : Fragment (if negated then "1=1" else "1=0") := by
        cases negated <;> decide
      rw [hvalues]
      exact hconstant
    · have hkeyword : Fragment (memberKeyword negated) := by
        cases negated <;> decide
      have hitems : Fragment (String.intercalate "," (values.map Dialect.mySql.literal)) :=
        .intercalate_map (by decide) MySql.fragment_literal values
      rw [Clause.render_member Dialect.mySql field hvalues]
      exact (((((MySql.fragment_identifier field).append (by decide)).append hkeyword).append
        (by decide)).append hitems).append (by decide)

theorem Filter.fragment_render (f : Filter) : Fragment (f.render .mySql) := by
  have hwhere : Fragment "WHERE " := by decide
  have hand : Fragment " AND " := by decide
  have hor : Fragment " OR " := by decide
  have hall := Fragment.intercalate_map hand Clause.fragment_render f.all
  have hany := Fragment.intercalate_map hor Clause.fragment_render f.any
  unfold Filter.render
  dsimp only
  split
  · exact .empty
  · exact hwhere.append hall
  · exact hwhere.append hany
  · exact ((hwhere.append hall).append hor).append hany

theorem Equalities.fragment_render (e : Equalities) : Fragment (e.render .mySql) := by
  have hwhere : Fragment "WHERE " := by decide
  rw [Equalities.render_eq]
  split
  · exact .empty
  · exact hwhere.append (.intercalate_map (by decide) MySql.fragment_assignment e.params)

end Where

/-! ### Parts of a select -/

theorem Columns.fragment_push {columns : String} (h : Fragment columns) (name : String) :
    Fragment (Columns.push .mySql columns name) := by
  unfold Columns.push
  refine Fragment.append ?_ (MySql.fragment_identifier name)
  split
  · exact .empty
  · exact h.append (by decide)

theorem Columns.fragment_foldl_push {columns : String} (h : Fragment columns) (names : List String) :
    Fragment (names.foldl (Columns.push .mySql) columns) := by
  induction names generalizing columns with
  | nil => exact h
  | cons name rest ih => exact ih (Columns.fragment_push h name)

theorem Columns.fragment_text (mapping : Mapping) (select : Option Value) :
    Fragment (Columns.text .mySql mapping select) := by
  unfold Columns.text
  dsimp only
  split
  · decide
  · exact Columns.fragment_foldl_push .empty _

theorem Order.fragment_clause (order : Order) : Fragment (order.clause .mySql) := by
  have hby : Fragment " ORDER BY " := by decide
  unfold Order.clause
  refine (hby.append (MySql.fragment_identifier order.field)).append ?_
  cases order.direction with
  | none => exact .empty
  | some direction => cases direction <;> decide

theorem Page.fragment_clause (page : Page) : Fragment (Page.clause page) := by
  have hlimit : Fragment " LIMIT " := by decide
  exact ((hlimit.append (Decimal.fragment_integerText _)).append (by decide)).append
    (Decimal.fragment_integerText _)

namespace Builder

/-- The where clause of every operation is a fragment. -/
theorem fragment_clauseOf {settings : Settings} {op : Operation} {mapping : Mapping}
    {filter : Option Record} {clause : String}
    (h : (Builder.mk .mySql settings).clauseOf op mapping filter = .ok clause) :
    Fragment clause := by
  cases filter with
  | none =>
    rw [clauseOf_none] at h
    obtain rfl : "" = clause := Except.ok.inj h
    exact .empty
  | some filter =>
    rw [clauseOf_some] at h
    split at h
    · obtain ⟨f, -, rfl⟩ := map_eq_ok_iff.mp h
      exact f.fragment_render
    · obtain ⟨e, -, rfl⟩ := map_eq_ok_iff.mp h
      exact e.fragment_render

theorem fragment_spaced {clause : String} (h : Fragment clause) : Fragment (spaced clause) := by
  unfold spaced
  split
  · exact .empty
  · exact Fragment.append (by decide) h

theorem fragment_table {r : Request} {mapping : Mapping} {table : String}
    (h : target r = .ok (mapping, table)) : Fragment table :=
  TableName.fragment_of_fault?_eq_none (target_eq_ok_iff.mp h).2.2

theorem fragment_selectText (settings : Settings) (r : Request) (mapping : Mapping)
    {table clause : String} (htable : Fragment table) (hclause : Fragment clause) (order : Option Order)
    (page : Option Page) :
    Fragment ((Builder.mk .mySql settings).selectText r mapping table clause order page) := by
  have hselect : Fragment "SELECT " := by decide
  have hcolumns := Columns.fragment_text mapping r.select
  unfold selectText
  refine Fragment.append (.append ((((hselect.append hcolumns).append (by decide)).append
    htable).append (fragment_spaced hclause)) ?_) ?_
  · cases order with
    | none => exact .empty
    | some order => exact order.fragment_clause
  · cases page with
    | none => exact .empty
    | some page => exact Page.fragment_clause page

theorem fragment_countText (settings : Settings) (label : String) {table clause : String}
    (htable : Fragment table) (hclause : Fragment clause) :
    Fragment ((Builder.mk .mySql settings).countText label table clause) := by
  have hselect : Fragment "SELECT COUNT(*) AS " := by decide
  exact (((hselect.append (MySql.fragment_identifier label)).append (by decide)).append
    htable).append (fragment_spaced hclause)

theorem fragment_deleteText {table clause : String} (htable : Fragment table)
    (hclause : Fragment clause) : Fragment (deleteText table clause) := by
  have hdelete : Fragment "DELETE FROM " := by decide
  exact ((hdelete.append htable).append (by decide)).append hclause

/-! ### Statements -/

/-- The text is two single statements, with the only semicolon outside quotes between them. -/
structure Paired (first second sql : String) : Prop extends Contained sql where
  eq_append : sql = first ++ ";" ++ second
  first_single : Single first
  second_single : Single second
  count_semicolon : (plainChars .plain sql.toList).count ';' = 1

theorem paired_of_fragment {first second : String} (hfirst : Fragment first)
    (hsecond : Fragment second) : Paired first second (first ++ ";" ++ second) := by
  have hsemicolon : Contained ";" := by decide
  have hplain : plainChars .plain (first ++ ";").toList = plainChars .plain first.toList ++ [';'] :=
    plainChars_toList_append hfirst.finish_eq ";"
  have hhead : Contained (first ++ ";") :=
    hfirst.toContained.append hsemicolon fun a ha b _ => hfirst.noSeam a ha b
  refine ⟨hhead.append hsecond.toContained fun a ha b _ => ?_, rfl, hfirst.toSingle,
    hsecond.toSingle, ?_⟩
  · rw [hplain, List.getLast?_concat, Option.mem_some_iff] at ha
    rintro (⟨hdash, -⟩ | ⟨hslash, -⟩)
    · exact absurd (ha.trans hdash) (by decide)
    · exact absurd (ha.trans hslash) (by decide)
  · rw [plainChars_toList_append hhead.finish_eq, hplain, List.count_append, List.count_append,
      List.count_eq_zero.mpr hfirst.noSemicolon, List.count_eq_zero.mpr hsecond.noSemicolon]
    rfl

/-- The request asks for a count under an alias. -/
def HasAlias (r : Request) : Prop := ∃ label, CountAlias.ofValue? r.count = .ok (some label)

/-- **Reading statements are single**: every select, count and deletion of the MySQL dialect is one
statement. The exception is a query with an alias, which is the query without it and the count, with
one semicolon between the two. -/
theorem reading_statement_single (settings : Settings) (r : Request) (sql : String) (op : Operation)
    (hop : op ∈ [.get, .query, .count, .delete, .advancedDelete])
    (h : ((Builder.mk .mySql settings).build op r).result = .ok sql) :
    (¬ (op = .query ∧ HasAlias r) → Single sql) ∧
      (op = .query → HasAlias r → ∃ select count,
        ((Builder.mk .mySql settings).build .query { r with count := none }).result = .ok select ∧
        ((Builder.mk .mySql settings).build .count r).result = .ok count ∧
        Paired select count sql) := by
  simp only [List.mem_cons, List.not_mem_nil, or_false] at hop
  rcases hop with rfl | rfl | rfl | hop
  · obtain ⟨mapping, table, order, page, clause, htarget, -, -, hclause, rfl⟩ :=
      get_eq_ok_iff.mp h
    have hselect := fragment_selectText settings r mapping (fragment_table htarget)
      (fragment_clauseOf hclause) order page
    exact ⟨fun _ => hselect.toSingle, fun hquery => nomatch hquery⟩
  · obtain ⟨mapping, table, order, page, label, clause, htarget, horder, hpage, hlabel, hclause,
      rfl⟩ := query_eq_ok_iff.mp h
    have htable := fragment_table htarget
    have hselect := fragment_selectText settings r mapping htable (fragment_clauseOf hclause) order page
    cases label with
    | none =>
      refine ⟨fun _ => hselect.toSingle, fun _ halias => ?_⟩
      obtain ⟨label, hsome⟩ := halias
      rw [hlabel] at hsome
      cases hsome
    | some label =>
      refine ⟨fun hnot => absurd ⟨rfl, label, hlabel⟩ hnot, fun _ _ => ?_⟩
      refine ⟨_, _, query_eq_ok_iff.mpr ⟨mapping, table, order, page, none, clause, htarget,
        horder, hpage, rfl, hclause, rfl⟩, count_eq_ok_iff.mpr ⟨mapping, table, label, clause,
        htarget, hlabel, hclause, rfl⟩, ?_⟩
      exact paired_of_fragment hselect
        (fragment_countText settings label htable (fragment_clauseOf hclause))
  · obtain ⟨mapping, table, label, clause, htarget, -, hclause, rfl⟩ := count_eq_ok_iff.mp h
    have hcount := fragment_countText settings label (fragment_table htarget)
      (fragment_clauseOf hclause)
    exact ⟨fun _ => hcount.toSingle, fun hquery => nomatch hquery⟩
  · obtain ⟨mapping, table, clause, htarget, hclause, rfl⟩ := (delete_eq_ok_iff hop).mp h
    have hdelete := fragment_deleteText (fragment_table htarget) (fragment_clauseOf hclause)
    refine ⟨fun _ => hdelete.toSingle, ?_⟩
    rcases hop with rfl | rfl
    all_goals exact fun hquery => nomatch hquery

/-- Quotes, back-ticks, a backslash and a semicolon in names, values and alias stay inside quotes. -/
theorem reading_statement_single_hostile_query :
    let b : Builder := ⟨.mySql, .strict⟩
    let r : Request :=
      { Request.empty with
        mapping := some ⟨[("a\x60;.b", .string)]⟩
        table := some "users"
        filter := some [("and", .map [("a\x60;.b", .text "\\'; --")])]
        count := some (.text "n; #") }
    let sql := "SELECT * FROM users WHERE \x60a\x60\x60;\x60.\x60b\x60 = '\\\\\\'; --';"
      ++ "SELECT COUNT(*) AS \x60n; #\x60 FROM users WHERE \x60a\x60\x60;\x60.\x60b\x60 = '\\\\\\'; --'"
    (b.build .query r).result = .ok sql ∧ HasAlias r ∧ ∃ select count,
      (b.build .query { r with count := none }).result = .ok select ∧
      (b.build .count r).result = .ok count ∧ Paired select count sql :=
  ⟨rfl, ⟨"n; #", rfl⟩,
    (reading_statement_single .strict _ _ .query (by decide) rfl).2 rfl ⟨"n; #", rfl⟩⟩

end Builder

end TypedSql
