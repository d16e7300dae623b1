import TypedSql.Dialect.MySql
import TypedSql.Proofs.Assembly

/-!
# Operations with one where object

Seven operations read a where object, four of them as a filter and three as equalities. What it compiles
to does not depend on the operation: all operations of a family report the same fault, or they carry the
same clause in its place (`one_clause_in_every_operation`). A query with an alias has the clause twice,
and is the query without the alias and the count under the alias (`query_with_count`).
-/

namespace TypedSql

theorem CountAlias.ofValue?_eq_ok_some_iff {count : Option Value} {label : String} :
    CountAlias.ofValue? count = .ok (some label) ↔
      count = some (.text label) ∧ Text.allBlank label = false := by
  rcases count with _ | v
  · simp [CountAlias.ofValue?]
  · cases v with
    | text s =>
      rw [CountAlias.ofValue?]
      split
      · next hblank =>
        constructor
        · intro h
          cases h
        · rintro ⟨h, hnot⟩
          cases h
          exact absurd hblank (by simp [hnot])
      · next hblank =>
        constructor
        · intro h
          cases h
          exact ⟨rfl, by simpa using hblank⟩
        · rintro ⟨h, -⟩
          cases h
          rfl
    | _ => simp [CountAlias.ofValue?]

namespace Builder

/-! ### A query with a count -/

/-- The count under an alias over the rows that a request is about. -/
def countRequest (r : Request) (label : String) : Request :=
  { Request.empty with
    filter := r.filter
    mapping := r.mapping
    table := r.table
    count := some (.text label) }

variable {b : Builder} {r : Request}

theorem countRequest_alias {label : String} (h : CountAlias.ofValue? r.count = .ok (some label)) :
    CountAlias.ofValue? (countRequest r label).count = .ok (some label) :=
  CountAlias.ofValue?_eq_ok_some_iff.mpr ⟨rfl, (CountAlias.ofValue?_eq_ok_some_iff.mp h).2⟩

/-- A query with an alias is the query without it, and then the count. -/
theorem query_eq_bind {label : String} (h : CountAlias.ofValue? r.count = .ok (some label)) :
    (b.build .query r).result =
      (b.build .query { r with count := none }).result.bind fun select =>
        (b.build .count (countRequest r label)).result.map fun count => select ++ ";" ++ count := by
  have hnone : CountAlias.ofValue? none = .ok none := rfl
  have htarget : target { r with count := none } = target r := rfl
  have htarget' : target (countRequest r label) = target r := rfl
  rw [result_query, result_query, result_count, htarget, htarget', h, hnone, countRequest_alias h]
  cases target r with
  | error fault => rfl
  | ok found =>
    obtain ⟨mapping, table⟩ := found
    cases Order.ofValue? r.order with
    | error fault => rfl
    | ok order =>
      cases Page.ofValue? b.settings r.offset with
      | error fault => rfl
      | ok page =>
        have hclause : b.clauseOf .count mapping (nonEmpty (countRequest r label).filter) =
            b.clauseOf .query mapping (nonEmpty r.filter) := rfl
        simp only [Except.bind, require, hclause]
        cases b.clauseOf .query mapping (nonEmpty r.filter) with
        | error fault => rfl
        | ok clause => rfl

/-- **A query with a count**: a query that is given an alias succeeds exactly when it does without the
alias. Then the count under the alias succeeds too, and the text is both texts with a semicolon between
them; otherwise both queries report the same fault. -/
theorem query_with_count (b : Builder) (r : Request) (label : String)
    (h : CountAlias.ofValue? r.count = .ok (some label)) :
    ((∃ sql, (b.build .query r).result = .ok sql) ↔
        ∃ select, (b.build .query { r with count := none }).result = .ok select) ∧
      (∀ select, (b.build .query { r with count := none }).result = .ok select →
        ∃ count, (b.build .count (countRequest r label)).result = .ok count ∧
          (b.build .query r).result = .ok (select ++ ";" ++ count)) ∧
      (∀ fault, (b.build .query { r with count := none }).result = .error fault →
        (b.build .query r).result = .error fault) := by
  have hsplit := query_eq_bind (b := b) h
  have hcount (select : String)
      (hselect : (b.build .query { r with count := none }).result = .ok select) :
      ∃ count, (b.build .count (countRequest r label)).result = .ok count ∧
        (b.build .query r).result = .ok (select ++ ";" ++ count) := by
    obtain ⟨mapping, table, order, page, label', clause, htarget, -, -, -, hclause, -⟩ :=
      query_eq_ok_iff.mp hselect
    have hcount : (b.build .count (countRequest r label)).result =
        .ok (b.countText label table clause) :=
      count_eq_ok_iff.mpr
        ⟨mapping, table, label, clause, htarget, countRequest_alias h, hclause, rfl⟩
    refine ⟨_, hcount, ?_⟩
    rw [hsplit, hselect, hcount]
    rfl
  refine ⟨⟨?_, ?_⟩, hcount, ?_⟩
  · rintro ⟨sql, hsql⟩
    rw [hsplit] at hsql
    obtain ⟨select, hselect, -⟩ := bind_eq_ok_iff.mp hsql
    exact ⟨select, hselect⟩
  · rintro ⟨select, hselect⟩
    obtain ⟨count, -, hsql⟩ := hcount select hselect
    exact ⟨_, hsql⟩
  · intro fault hfault
    rw [hsplit, hfault]
    rfl

/-- The count behind a page of users has no page of its own. -/
theorem query_with_count_page :
    let b : Builder := ⟨.mySql, .strict⟩
    let r : Request :=
      { Request.empty with
        mapping := some ⟨[("id", .number)]⟩
        table := some "users"
        filter := some [("and", .map [("id", .map [(">", .int 5)])])]
        offset := some (.list [.int 20, .int 10])
        count := some (.text "n") }
    CountAlias.ofValue? r.count = .ok (some "n") ∧
      ∃ count, (b.build .count (countRequest r "n")).result = .ok count ∧
        (b.build .query r).result =
          .ok ("SELECT * FROM users WHERE \x60id\x60 > 5 LIMIT 20, 10" ++ ";" ++ count) := by
  intro b r
  have halias : CountAlias.ofValue? r.count = .ok (some "n") := rfl
  have hselect : (b.build .query { r with count := none }).result =
      .ok "SELECT * FROM users WHERE \x60id\x60 > 5 LIMIT 20, 10" := by
    dsimp only [b, r]
    rfl
  exact ⟨halias, (query_with_count b r "n" halias).2.1 _ hselect⟩

/-! ### One clause in every operation -/

/-- The where clause stands right behind the table, with a blank in front; when it is empty, nothing
stands there. -/
structure Reads (head table clause tail sql : String) : Prop where
  of_empty : clause = "" → sql = head ++ " FROM " ++ table ++ tail
  of_nonempty : clause ≠ "" → sql = head ++ " FROM " ++ table ++ " " ++ clause ++ tail

/-- What a select has in front of the table. -/
def selectHead (b : Builder) (r : Request) (mapping : Mapping) : String :=
  "SELECT " ++ Columns.text b.writer mapping r.select

/-- What a select has behind the where clause. -/
def selectTail (b : Builder) (order : Option Order) (page : Option Page) : String :=
  order.elim "" (Order.clause b.writer) ++ page.elim "" Page.clause

/-- What a count has in front of the table. -/
def countHead (b : Builder) (label : String) : String :=
  "SELECT COUNT(*) AS " ++ b.writer.identifier label

/-- The parts that the operation needs beside target and where object are there and compile. -/
def Ready (b : Builder) (op : Operation) (r : Request) (mapping : Mapping) : Prop :=
  match op with
  | .update | .advancedUpdate =>
    ∃ data set, r.data = some data ∧ (b.setBody mapping data).result = .ok set
  | .delete | .advancedDelete => True
  | .get => ∃ order page, Order.ofValue? r.order = .ok order ∧
      Page.ofValue? b.settings r.offset = .ok page
  | .query => ∃ order page label, Order.ofValue? r.order = .ok order ∧
      Page.ofValue? b.settings r.offset = .ok page ∧ CountAlias.ofValue? r.count = .ok label
  | .count => ∃ label, CountAlias.ofValue? r.count = .ok (some label)
  | .insert | .replace => False

/-- The statement of the operation has the where clause in its place. -/
def Carries (b : Builder) (op : Operation) (r : Request) (mapping : Mapping)
    (table clause sql : String) : Prop :=
  match op with
  | .update | .advancedUpdate => ∃ data set, r.data = some data ∧
      (b.setBody mapping data).result = .ok set ∧
      sql = "UPDATE " ++ table ++ " SET " ++ set ++ " " ++ clause
  | .delete | .advancedDelete => sql = "DELETE FROM " ++ table ++ " " ++ clause
  | .get => ∃ order page, Order.ofValue? r.order = .ok order ∧
      Page.ofValue? b.settings r.offset = .ok page ∧
      Reads (b.selectHead r mapping) table clause (b.selectTail order page) sql
  | .query => ∃ order page label select, Order.ofValue? r.order = .ok order ∧
      Page.ofValue? b.settings r.offset = .ok page ∧ CountAlias.ofValue? r.count = .ok label ∧
      Reads (b.selectHead r mapping) table clause (b.selectTail order page) select ∧
      match label with
      | none => sql = select
      | some label => ∃ count, Reads (b.countHead label) table clause "" count ∧
          sql = select ++ ";" ++ count
  | .count => ∃ label, CountAlias.ofValue? r.count = .ok (some label) ∧
      Reads (b.countHead label) table clause "" sql
  | .insert | .replace => False

theorem reads_of_spaced (head table clause tail : String) :
    Reads head table clause tail (head ++ " FROM " ++ table ++ spaced clause ++ tail) := by
  unfold spaced
  constructor
  · intro h
    simp [h]
  · intro h
    simp [h, String.append_assoc]

theorem reads_selectText (b : Builder) (r : Request) (mapping : Mapping) (table clause : String)
    (order : Option Order) (page : Option Page) :
    Reads (b.selectHead r mapping) table clause (b.selectTail order page)
      (b.selectText r mapping table clause order page) := by
  have htext : b.selectText r mapping table clause order page =
      b.selectHead r mapping ++ " FROM " ++ table ++ spaced clause ++ b.selectTail order page := by
    unfold selectText selectHead selectTail
    cases order <;> cases page <;> simp [String.append_assoc]
  rw [htext]
  exact reads_of_spaced ..

theorem reads_countText (b : Builder) (label table clause : String) :
    Reads (b.countHead label) table clause "" (b.countText label table clause) := by
  have htext : b.countText label table clause =
      b.countHead label ++ " FROM " ++ table ++ spaced clause ++ "" := by
    rw [String.append_empty]
    rfl
  rw [htext]
  exact reads_of_spaced ..

/-- The request with a where object over the rows of a table. -/
def about (r : Request) (mapping : Mapping) (table : String) (filter : Record) : Request :=
  { r.withTarget table mapping with filter := some filter }

/-- An operation over a where object is a text around the clause that it compiles. -/
theorem result_about_eq_map {op : Operation} {mapping : Mapping} {table : String} {filter : Record}
    (htable : TableName.fault? table = none) (hne : filter ≠ []) (hready : Ready b op r mapping) :
    ∃ text : String → String,
      (b.build op (about r mapping table filter)).result =
        (b.clauseOf op mapping (some filter)).map text ∧
      ∀ clause, Carries b op r mapping table clause (text clause) := by
  have htarget : target (about r mapping table filter) = .ok (mapping, table) :=
    target_eq_ok_iff.mpr ⟨rfl, rfl, htable⟩
  have hparts {data : Record} (hdata : r.data = some data) :
      updateParts (about r mapping table filter) = .ok (data, filter, mapping, table) :=
    updateParts_eq_ok_iff.mpr ⟨hdata, rfl, htarget⟩
  have hnonEmpty : nonEmpty (about r mapping table filter).filter = some filter :=
    nonEmpty_of_ne_nil hne
  cases op with
  | insert => exact hready.elim
  | replace => exact hready.elim
  | update =>
    obtain ⟨data, set, hdata, hset⟩ := hready
    refine ⟨updateText table set, ?_, fun clause => ⟨data, set, hdata, hset, rfl⟩⟩
    rw [result_update, hparts hdata]
    simp only [Except.bind, hset]
    cases b.clauseOf .update mapping (some filter) <;> rfl
  | advancedUpdate =>
    obtain ⟨data, set, hdata, hset⟩ := hready
    refine ⟨updateText table set, ?_, fun clause => ⟨data, set, hdata, hset, rfl⟩⟩
    rw [result_advancedUpdate, hparts hdata]
    simp only [Except.bind, hset]
  | delete =>
    refine ⟨deleteText table, ?_, fun clause => rfl⟩
    rw [result_delete (.inl rfl), htarget]
    rfl
  | advancedDelete =>
    refine ⟨deleteText table, ?_, fun clause => rfl⟩
    rw [result_delete (.inr rfl), htarget]
    rfl
  | get =>
    obtain ⟨order, page, horder, hpage⟩ := hready
    refine ⟨fun clause => b.selectText r mapping table clause order page, ?_, fun clause =>
      ⟨order, page, horder, hpage, reads_selectText b r mapping table clause order page⟩⟩
    rw [result_get, htarget, hnonEmpty]
    simp only [about, Request.withTarget, Except.bind, horder, hpage]
    rfl
  | query =>
    obtain ⟨order, page, label, horder, hpage, hlabel⟩ := hready
    refine ⟨fun clause => b.queryText r mapping table clause order page label, ?_, fun clause =>
      ⟨order, page, label, _, horder, hpage, hlabel,
        reads_selectText b r mapping table clause order page, ?_⟩⟩
    · rw [result_query, htarget, hnonEmpty]
      simp only [about, Request.withTarget, Except.bind, horder, hpage, hlabel]
      rfl
    · cases label with
      | none => rfl
      | some label => exact ⟨_, reads_countText b label table clause, rfl⟩
  | count =>
    obtain ⟨label, hlabel⟩ := hready
    refine ⟨fun clause => b.countText label table clause, ?_, fun clause =>
      ⟨label, hlabel, reads_countText b label table clause⟩⟩
    rw [result_count, htarget, hnonEmpty]
    simp only [about, Request.withTarget, Except.bind, hlabel]
    rfl

/-- All these operations report the fault of the where object, or all of them carry its clause. The parts
beside the where object may be others in each. -/
def Share (b : Builder) (ops : List Operation) (mapping : Mapping) (table : String) (filter : Record)
    (compiled : Except BuildError String) : Prop :=
  (∃ fault, compiled = .error fault ∧
      ∀ op ∈ ops, ∀ r, Ready b op r mapping →
        (b.build op (about r mapping table filter)).result = .error fault) ∨
    ∃ clause, compiled = .ok clause ∧
      ∀ op ∈ ops, ∀ r, Ready b op r mapping →
        ∃ sql, (b.build op (about r mapping table filter)).result = .ok sql ∧
          Carries b op r mapping table clause sql

theorem share_of_clauseOf {ops : List Operation} {mapping : Mapping} {table : String}
    {filter : Record} {compiled : Except BuildError String}
    (htable : TableName.fault? table = none) (hne : filter ≠ [])
    (hops : ∀ op ∈ ops, b.clauseOf op mapping (some filter) = compiled) :
    Share b ops mapping table filter compiled := by
  cases compiled with
  | error fault =>
    refine .inl ⟨fault, rfl, fun op hop r hready => ?_⟩
    obtain ⟨text, hresult, -⟩ := result_about_eq_map htable hne hready
    rw [hresult, hops op hop]
    rfl
  | ok clause =>
    refine .inr ⟨clause, rfl, fun op hop r hready => ?_⟩
    obtain ⟨text, hresult, hcarries⟩ := result_about_eq_map htable hne hready
    rw [hresult, hops op hop]
    exact ⟨text clause, rfl, hcarries clause⟩

/-- **One where object, one clause**: over a valid table, and with the other parts of the requests in
order, the four operations that read a where object as a filter all report the fault of the filter, or all
carry its clause: an update and a deletion end with it, a select has it between table and order, a count
ends with it. The same holds of the three operations that read it as equalities. -/
theorem one_clause_in_every_operation (b : Builder) (mapping : Mapping) (table : String)
    (filter : Record) (htable : TableName.fault? table = none) (hne : filter ≠ []) :
    Share b [.query, .count, .advancedDelete, .advancedUpdate] mapping table filter
        ((Where.Filter.ofRecord filter mapping).result.map (Where.Filter.render b.writer)) ∧
      Share b [.get, .delete, .update] mapping table filter
        ((Where.Equalities.ofRecord filter mapping).map (Where.Equalities.render b.writer)) := by
  constructor
  · apply share_of_clauseOf htable hne
    intro op hop
    have htakes : op.takesFilter = true := by
      revert op
      decide
    rw [clauseOf_some, if_pos htakes]
  · apply share_of_clauseOf htable hne
    intro op hop
    have htakes : op.takesFilter ≠ true := by
      revert op
      decide
    rw [clauseOf_some, if_neg htakes]

/-- A group is a filter, and no value of an equality. -/
theorem one_clause_in_every_operation_group :
    let b : Builder := ⟨.mySql, .strict⟩
    let mapping : Mapping := ⟨[("name", .string)]⟩
    let filter : Record := [("and", .map [("name", .text "x"), ("age", .int 1)])]
    TableName.fault? "users" = none ∧ filter ≠ [] ∧
      Share b [.query, .count, .advancedDelete, .advancedUpdate] mapping "users" filter
        (.ok "WHERE \x60name\x60 = 'x'") ∧
      Share b [.get, .delete, .update] mapping "users" filter
        (.error (.invalidWhereValue "and" (.map [("name", .text "x"), ("age", .int 1)]))) :=
  ⟨by decide, by simp, one_clause_in_every_operation _ _ _ _ (by decide) (by simp)⟩

end Builder

end TypedSql
