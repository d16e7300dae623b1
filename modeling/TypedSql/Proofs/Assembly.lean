import TypedSql.Proofs.Steps
import TypedSql.Statement

/-!
# What a statement is made of

Every operation looks for the parts of the request, compiles them and puts the texts together. For
each operation one equation says in which order it does so (`Builder.result_query` and its kin), and so
which of two faults it reports. Its success is then read as the success of its steps: for each shape of
statement, one equivalence says which parts a request had, what they were compiled to, and which text
they make. The two operations of a shape differ in how they read the where object (`Builder.clauseOf`).
-/

namespace TypedSql

/-- The operations whose where object is a filter with groups. -/
def Operation.takesFilter : Operation → Bool
  | .advancedUpdate | .advancedDelete | .query | .count => true
  | _ => false

theorem TableName.check_eq_ok_iff {name name' : String} :
    TableName.check name = .ok name' ↔ TableName.fault? name = none ∧ name = name' := by
  unfold TableName.check
  split <;> simp_all

namespace Builder

/-! ### Parts of a request -/

theorem require_eq_ok_iff {α : Type} {requirement : Requirement} {part : Option α} {a : α} :
    require requirement part = .ok a ↔ part = some a := by
  cases part <;> simp [require]

theorem target_eq_ok_iff {r : Request} {mapping : Mapping} {table : String} :
    target r = .ok (mapping, table) ↔
      r.mapping = some mapping ∧ r.table = some table ∧ TableName.fault? table = none := by
  simp only [target, except_bind_def, except_pure_def, bind_eq_ok_iff, require_eq_ok_iff,
    TableName.check_eq_ok_iff, Except.ok.injEq, Prod.mk.injEq]
  constructor
  · rintro ⟨m, hm, t, ht, t', ⟨hfault, rfl⟩, rfl, rfl⟩
    exact ⟨hm, ht, hfault⟩
  · rintro ⟨hm, ht, hfault⟩
    exact ⟨mapping, hm, table, ht, table, ⟨hfault, rfl⟩, rfl, rfl⟩

theorem updateParts_eq_ok_iff {r : Request} {data filter : Record} {mapping : Mapping}
    {table : String} :
    updateParts r = .ok (data, filter, mapping, table) ↔
      r.data = some data ∧ r.filter = some filter ∧ target r = .ok (mapping, table) := by
  simp only [updateParts, except_bind_def, except_pure_def, bind_eq_ok_iff, require_eq_ok_iff,
    Except.ok.injEq, Prod.mk.injEq]
  constructor
  · rintro ⟨_, hdata, _, hfilter, ⟨_, _⟩, htarget, rfl, rfl, rfl, rfl⟩
    exact ⟨hdata, hfilter, htarget⟩
  · rintro ⟨hdata, hfilter, htarget⟩
    exact ⟨data, hdata, filter, hfilter, (mapping, table), htarget, rfl, rfl, rfl, rfl⟩

variable (b : Builder)

/-- The where clause that an operation compiles from a where object. -/
def clauseOf (op : Operation) (mapping : Mapping) (filter : Option Record) :
    Except BuildError String :=
  if op.takesFilter then (b.filter mapping filter).result else b.equalities mapping filter

@[simp] theorem clauseOf_none (op : Operation) (mapping : Mapping) :
    b.clauseOf op mapping none = .ok "" := by
  unfold clauseOf
  split <;> rfl

theorem clauseOf_some (op : Operation) (mapping : Mapping) (filter : Record) :
    b.clauseOf op mapping (some filter) =
      if op.takesFilter then
        (Where.Filter.ofRecord filter mapping).result.map (Where.Filter.render b.writer)
      else (Where.Equalities.ofRecord filter mapping).map (Where.Equalities.render b.writer) := by
  simp only [clauseOf, Builder.filter, equalities, Logged.result_bind, Logged.result_pure]
  rfl

theorem nonEmpty_of_ne_nil {filter : Record} (h : filter ≠ []) :
    nonEmpty (some filter) = some filter := by
  obtain ⟨entry, rest, rfl⟩ := List.exists_cons_of_ne_nil h
  rfl

@[simp] theorem result_finish (kind : StatementKind) (sql : String) :
    (finish kind sql).result = .ok sql := rfl

/-! ### Shapes of statements -/

variable {b} {r : Request} {sql : String}

/-- An insertion succeeds exactly when its data is there and compiles. -/
theorem write_eq_ok_iff {kind : StatementKind} :
    (b.write kind r).result = .ok sql ↔ ∃ data mapping table set, r.data = some data ∧
      target r = .ok (mapping, table) ∧ (b.setBody mapping data).result = .ok set ∧
      sql = kind.keyword ++ " INTO " ++ table ++ " SET " ++ set := by
  simp only [write, Logged.result_bind, Logged.result_ofExcept, result_finish, bind_eq_ok_iff,
    require_eq_ok_iff, Except.ok.injEq]
  constructor
  · rintro ⟨data, hdata, ⟨mapping, table⟩, htarget, set, hset, rfl⟩
    exact ⟨data, mapping, table, set, hdata, htarget, hset, rfl⟩
  · rintro ⟨data, mapping, table, set, hdata, htarget, hset, rfl⟩
    exact ⟨data, hdata, (mapping, table), htarget, set, hset, rfl⟩

theorem result_write {kind : StatementKind} :
    (b.write kind r).result =
      (require .data r.data).bind fun data =>
        (target r).bind fun (mapping, table) =>
          (b.setBody mapping data).result.map fun set =>
            kind.keyword ++ " INTO " ++ table ++ " SET " ++ set := by
  simp only [write, Logged.result_bind, Logged.result_ofExcept, result_finish]
  rfl

/-- The equalities of an update are compiled before its data. -/
theorem result_update :
    (b.build .update r).result =
      (updateParts r).bind fun (data, filter, mapping, table) =>
        (b.clauseOf .update mapping (some filter)).bind fun clause =>
          (b.setBody mapping data).result.map fun set => updateText table set clause := by
  simp only [build, update, Logged.result_bind, Logged.result_ofExcept, result_finish]
  rfl

/-- The filter of an update is compiled after its data. -/
theorem result_advancedUpdate :
    (b.build .advancedUpdate r).result =
      (updateParts r).bind fun (data, filter, mapping, table) =>
        (b.setBody mapping data).result.bind fun set =>
          (b.clauseOf .advancedUpdate mapping (some filter)).map fun clause =>
            updateText table set clause := by
  simp only [build, advancedUpdate, Logged.result_bind, Logged.result_ofExcept, result_finish]
  rfl

/-- An update succeeds exactly when data and where object are there and compile. -/
theorem update_eq_ok_iff {op : Operation} (hop : op = .update ∨ op = .advancedUpdate) :
    (b.build op r).result = .ok sql ↔ ∃ data filter mapping table set clause,
      r.data = some data ∧ r.filter = some filter ∧ target r = .ok (mapping, table) ∧
      (b.setBody mapping data).result = .ok set ∧ b.clauseOf op mapping (some filter) = .ok clause ∧
      sql = updateText table set clause := by
  constructor
  · rcases hop with rfl | rfl
    · rw [result_update]
      simp only [bind_eq_ok_iff, map_eq_ok_iff]
      rintro ⟨⟨data, filter, mapping, table⟩, hparts, clause, hclause, set, hset, rfl⟩
      obtain ⟨hdata, hfilter, htarget⟩ := updateParts_eq_ok_iff.mp hparts
      exact ⟨data, filter, mapping, table, set, clause, hdata, hfilter, htarget, hset, hclause, rfl⟩
    · rw [result_advancedUpdate]
      simp only [bind_eq_ok_iff, map_eq_ok_iff]
      rintro ⟨⟨data, filter, mapping, table⟩, hparts, set, hset, clause, hclause, rfl⟩
      obtain ⟨hdata, hfilter, htarget⟩ := updateParts_eq_ok_iff.mp hparts
      exact ⟨data, filter, mapping, table, set, clause, hdata, hfilter, htarget, hset, hclause, rfl⟩
  · rintro ⟨data, filter, mapping, table, set, clause, hdata, hfilter, htarget, hset, hclause, rfl⟩
    have hparts := updateParts_eq_ok_iff.mpr ⟨hdata, hfilter, htarget⟩
    rcases hop with rfl | rfl
    · rw [result_update]
      simp only [bind_eq_ok_iff, map_eq_ok_iff]
      exact ⟨_, hparts, clause, hclause, set, hset, rfl⟩
    · rw [result_advancedUpdate]
      simp only [bind_eq_ok_iff, map_eq_ok_iff]
      exact ⟨_, hparts, set, hset, clause, hclause, rfl⟩

theorem result_delete {op : Operation} (hop : op = .delete ∨ op = .advancedDelete) :
    (b.build op r).result =
      (target r).bind fun (mapping, table) =>
        (b.clauseOf op mapping r.filter).map fun clause => deleteText table clause := by
  rcases hop with rfl | rfl
  all_goals
    simp only [build, delete, advancedDelete, Logged.result_bind, Logged.result_ofExcept, result_finish]
    rfl

/-- A deletion succeeds exactly when the where object, if there is one, compiles. -/
theorem delete_eq_ok_iff {op : Operation} (hop : op = .delete ∨ op = .advancedDelete) :
    (b.build op r).result = .ok sql ↔ ∃ mapping table clause, target r = .ok (mapping, table) ∧
      b.clauseOf op mapping r.filter = .ok clause ∧ sql = deleteText table clause := by
  rw [result_delete hop]
  simp only [bind_eq_ok_iff, map_eq_ok_iff]
  constructor
  · rintro ⟨⟨mapping, table⟩, htarget, clause, hclause, rfl⟩
    exact ⟨mapping, table, clause, htarget, hclause, rfl⟩
  · rintro ⟨mapping, table, clause, htarget, hclause, rfl⟩
    exact ⟨(mapping, table), htarget, clause, hclause, rfl⟩

theorem result_get :
    (b.build .get r).result =
      (target r).bind fun (mapping, table) =>
        (Order.ofValue? r.order).bind fun order =>
          (Page.ofValue? b.settings r.offset).bind fun page =>
            (b.clauseOf .get mapping (nonEmpty r.filter)).map fun clause =>
              b.selectText r mapping table clause order page := by
  simp only [build, get, Logged.result_bind, Logged.result_ofExcept, result_finish]
  rfl

/-- A select with equalities. -/
theorem get_eq_ok_iff :
    (b.build .get r).result = .ok sql ↔ ∃ mapping table order page clause,
      target r = .ok (mapping, table) ∧ Order.ofValue? r.order = .ok order ∧
      Page.ofValue? b.settings r.offset = .ok page ∧
      b.clauseOf .get mapping (nonEmpty r.filter) = .ok clause ∧
      sql = b.selectText r mapping table clause order page := by
  rw [result_get]
  simp only [bind_eq_ok_iff, map_eq_ok_iff]
  constructor
  · rintro ⟨⟨mapping, table⟩, htarget, order, horder, page, hpage, clause, hclause, rfl⟩
    exact ⟨mapping, table, order, page, clause, htarget, horder, hpage, hclause, rfl⟩
  · rintro ⟨mapping, table, order, page, clause, htarget, horder, hpage, hclause, rfl⟩
    exact ⟨(mapping, table), htarget, order, horder, page, hpage, clause, hclause, rfl⟩

/-- The text of a query: a select, and with an alias a count over the same rows. -/
def queryText (b : Builder) (r : Request) (mapping : Mapping) (table clause : String)
    (order : Option Order) (page : Option Page) (label : Option String) : String :=
  match label with
  | some label =>
    b.selectText r mapping table clause order page ++ ";" ++ b.countText label table clause
  | none => b.selectText r mapping table clause order page

theorem result_query :
    (b.build .query r).result =
      (target r).bind fun (mapping, table) =>
        (Order.ofValue? r.order).bind fun order =>
          (Page.ofValue? b.settings r.offset).bind fun page =>
            (CountAlias.ofValue? r.count).bind fun label =>
              (b.clauseOf .query mapping (nonEmpty r.filter)).map fun clause =>
                b.queryText r mapping table clause order page label := by
  simp only [build, query, Logged.result_bind, Logged.result_ofExcept, result_finish]
  rfl

/-- A select with a filter. -/
theorem query_eq_ok_iff :
    (b.build .query r).result = .ok sql ↔ ∃ mapping table order page label clause,
      target r = .ok (mapping, table) ∧ Order.ofValue? r.order = .ok order ∧
      Page.ofValue? b.settings r.offset = .ok page ∧ CountAlias.ofValue? r.count = .ok label ∧
      b.clauseOf .query mapping (nonEmpty r.filter) = .ok clause ∧
      sql = b.queryText r mapping table clause order page label := by
  rw [result_query]
  simp only [bind_eq_ok_iff, map_eq_ok_iff]
  constructor
  · rintro ⟨⟨mapping, table⟩, htarget, order, horder, page, hpage, label, hlabel, clause, hclause, rfl⟩
    exact ⟨mapping, table, order, page, label, clause, htarget, horder, hpage, hlabel, hclause, rfl⟩
  · rintro ⟨mapping, table, order, page, label, clause, htarget, horder, hpage, hlabel, hclause, rfl⟩
    exact ⟨(mapping, table), htarget, order, horder, page, hpage, label, hlabel, clause, hclause, rfl⟩

/-- The alias that a select looks at; `get` has none. -/
def selectLabel (op : Operation) (r : Request) : Except BuildError (Option String) :=
  if op = .query then CountAlias.ofValue? r.count else .ok none

/-- The two operations that select rows have one shape. -/
theorem result_select {op : Operation} (hop : op = .get ∨ op = .query) :
    (b.build op r).result =
      (target r).bind fun (mapping, table) =>
        (Order.ofValue? r.order).bind fun order =>
          (Page.ofValue? b.settings r.offset).bind fun page =>
            (selectLabel op r).bind fun label =>
              (b.clauseOf op mapping (nonEmpty r.filter)).map fun clause =>
                b.queryText r mapping table clause order page label := by
  rcases hop with rfl | rfl
  · rw [result_get]
    rfl
  · rw [result_query]
    rfl

theorem result_count :
    (b.build .count r).result =
      (target r).bind fun (mapping, table) =>
        (CountAlias.ofValue? r.count).bind fun label =>
          (require .count label).bind fun label =>
            (b.clauseOf .count mapping (nonEmpty r.filter)).map fun clause =>
              b.countText label table clause := by
  simp only [build, count, Logged.result_bind, Logged.result_ofExcept, result_finish]
  rfl

/-- A count succeeds exactly when it has an alias and the where object compiles. -/
theorem count_eq_ok_iff :
    (b.build .count r).result = .ok sql ↔ ∃ mapping table label clause,
      target r = .ok (mapping, table) ∧ CountAlias.ofValue? r.count = .ok (some label) ∧
      b.clauseOf .count mapping (nonEmpty r.filter) = .ok clause ∧
      sql = b.countText label table clause := by
  rw [result_count]
  simp only [bind_eq_ok_iff, map_eq_ok_iff, require_eq_ok_iff]
  constructor
  · rintro ⟨⟨mapping, table⟩, htarget, _, hlabel, label, rfl, clause, hclause, rfl⟩
    exact ⟨mapping, table, label, clause, htarget, hlabel, hclause, rfl⟩
  · rintro ⟨mapping, table, label, clause, htarget, hlabel, hclause, rfl⟩
    exact ⟨(mapping, table), htarget, some label, hlabel, label, rfl, clause, hclause, rfl⟩

end Builder

end TypedSql
