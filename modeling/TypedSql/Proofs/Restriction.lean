import TypedSql.Dialect.MySql
import TypedSql.Proofs.Assembly
import TypedSql.Proofs.Demands
import TypedSql.Proofs.Precedence

/-!
# Writes with a where object

An update or a deletion that is given a where object with entries should not be about every row. With
equalities it never is, because every entry is compiled or is an error. With a filter it depends on the
entries: those that are not declared or have no value are skipped, and so are operators that are not
known; and an exclusion from a list without items is a condition that every row meets. `Asked` says which
where objects ask for a condition at all, and `AdmitsEveryRow` which of them ask for nothing that a row
could fail. A statement has a condition exactly for the first, and is about every row exactly for the
second (`where_clause_of_write`).
-/

namespace TypedSql

namespace Where

/-! ### The rows that a filter selects -/

/-- A row has values for some of the fields. -/
abbrev Row := String → Option Value

/-- The condition holds in the row, when `test` says how values compare. A field without a value meets no
condition. What is asked of a list without items is not about the row. -/
def Clause.Holds (test : Comparison → Value → Value → Prop) (row : Row) : Clause → Prop
  | .compare field comparison value => ∃ v, row field = some v ∧ test comparison v value
  | .member _ [] negated => negated = true
  | .member field (first :: rest) negated => ∃ v, row field = some v ∧
      if negated then ∀ item ∈ first :: rest, ¬ test .equal v item
      else ∃ item ∈ first :: rest, test .equal v item

/-- The filter selects the row: it has no condition, or one of its conjunctions holds. -/
def Filter.Selects (test : Comparison → Value → Value → Prop) (row : Row) (f : Filter) : Prop :=
  f.isEmpty = true ∨ ∃ conjunction ∈ f.disjuncts, ∀ clause ∈ conjunction, clause.Holds test row

/-- The condition is an exclusion from a list without items, which is written `1=1`. -/
def Clause.Vacuous (clause : Clause) : Prop :=
  ∃ field, clause = .member field [] true

/-- The vacuous conditions are those that also hold in a row without values. -/
theorem Clause.vacuous_iff (test : Comparison → Value → Value → Prop) (clause : Clause) :
    clause.Vacuous ↔ clause.Holds test fun _ => none := by
  unfold Vacuous
  match clause with
  | .compare _ _ _ => simp [Holds]
  | .member _ [] negated => simp [Holds]
  | .member _ (_ :: _) _ => simp [Holds]

theorem Clause.Vacuous.holds {clause : Clause} (h : clause.Vacuous)
    (test : Comparison → Value → Value → Prop) (row : Row) : clause.Holds test row := by
  obtain ⟨field, rfl⟩ := h
  rfl

/-- A filter selects every row exactly when it has no condition, or a conjunction of vacuous ones. -/
theorem Filter.selects_every_row_iff (test : Comparison → Value → Value → Prop) (f : Filter) :
    (∀ row, f.Selects test row) ↔
      f.isEmpty = true ∨ ∃ conjunction ∈ f.disjuncts, ∀ clause ∈ conjunction, clause.Vacuous := by
  constructor
  · intro h
    simp only [Clause.vacuous_iff test]
    exact h fun _ => none
  · rintro (hempty | ⟨conjunction, hmem, hvacuous⟩) row
    · exact .inl hempty
    · exact .inr ⟨conjunction, hmem, fun clause hc => (hvacuous clause hc).holds test row⟩

theorem Filter.exists_disjunct_iff {f : Filter} {P : Clause → Prop} :
    (∃ conjunction ∈ f.disjuncts, ∀ clause ∈ conjunction, P clause) ↔
      (f.all ≠ [] ∧ ∀ clause ∈ f.all, P clause) ∨ ∃ clause ∈ f.any, P clause := by
  unfold disjuncts
  by_cases h : f.all = [] <;> simp [h, or_and_right, exists_or]

/-! ### What a where object asks for -/

/-- The demand is an exclusion from a list that has no item of the type of the field. -/
def Demand.ExcludesNothing (demand : Demand) : Prop :=
  demand.operator = .member true ∧
    ∃ items, demand.operand = .list items ∧ ∀ v ∈ items, demand.type.accepts v = false

/-- A demand that is met excludes nothing exactly when its condition is vacuous. -/
theorem Demand.vacuous_clause_iff {demand : Demand} (h : demand.Met) :
    demand.clause.Vacuous ↔ demand.ExcludesNothing := by
  obtain ⟨field, type, operator, operand⟩ := demand
  unfold Met at h
  unfold clause Clause.Vacuous ExcludesNothing
  cases operator with
  | compare comparison => simp
  | member negated =>
    cases operand with
    | list items => simp [Value.items?, List.filter_eq_nil_iff, and_comm]
    | _ => cases h

variable {mapping : Mapping}

/-- The conditions that an operation compiles from a where object. Equalities are conditions that have
to hold together. -/
def conditionsOf (op : Operation) (mapping : Mapping) : Option Record → Except BuildError Filter
  | none => .ok { all := [], any := [] }
  | some filter =>
    if op.takesFilter then (Filter.ofRecord filter mapping).result
    else (Equalities.ofRecord filter mapping).map fun e => equalFilter e.params

/-- The where object of an operation asks for a condition. Equalities do when there is one. -/
def Asked (op : Operation) (mapping : Mapping) : Option Record → Prop
  | none => False
  | some filter =>
    if op.takesFilter then
      groupDemands mapping filter "and" ≠ [] ∨ groupDemands mapping filter "or" ≠ []
    else filter ≠ []

/-- The where object of an operation asks for nothing that a row could fail. A filter does so when it asks
for nothing at all, when its group `and` asks for something but only excludes nothing, or when its group
`or` excludes nothing in one place. Equalities do when there is none. -/
def AdmitsEveryRow (op : Operation) (mapping : Mapping) : Option Record → Prop
  | none => True
  | some filter =>
    if op.takesFilter then
      (groupDemands mapping filter "and" = [] ∧ groupDemands mapping filter "or" = []) ∨
        (groupDemands mapping filter "and" ≠ [] ∧
          ∀ d ∈ groupDemands mapping filter "and", d.ExcludesNothing) ∨
        ∃ d ∈ groupDemands mapping filter "or", d.ExcludesNothing
    else filter = []

variable {op : Operation} {filter : Option Record} {f : Filter}

/-- Without a where object there is no condition. With one, the conditions are those of the demands of a
filter, which are met, or one equality for each entry. -/
theorem conditionsOf_eq_ok_cases (h : conditionsOf op mapping filter = .ok f) :
    (filter = none ∧ f = { all := [], any := [] }) ∨
      (∃ asked, filter = some asked ∧ op.takesFilter = true ∧
        (∀ d ∈ groupDemands mapping asked "and", d.Met) ∧
        (∀ d ∈ groupDemands mapping asked "or", d.Met) ∧
        f = { all := (groupDemands mapping asked "and").map Demand.clause
              any := (groupDemands mapping asked "or").map Demand.clause }) ∨
      ∃ asked params, filter = some asked ∧ op.takesFilter = false ∧
        (params = [] ↔ asked = []) ∧ f = equalFilter params := by
  unfold conditionsOf at h
  cases filter with
  | none =>
    cases h
    exact .inl ⟨rfl, rfl⟩
  | some asked =>
    cases htakes : op.takesFilter with
    | true =>
      simp only [htakes, if_true] at h
      obtain ⟨hmet, rfl⟩ := Filter.eq_of_result_eq_ok h
      obtain ⟨hand, hor⟩ := List.forall_mem_append.mp hmet
      exact .inr (.inl ⟨asked, rfl, rfl, hand, hor, rfl⟩)
    | false =>
      simp only [htakes, Bool.false_eq_true, if_false, map_eq_ok_iff] at h
      obtain ⟨e, he, rfl⟩ := h
      have hlength := (Equalities.ofRecord_eq_ok_iff.mp he).length_eq
      refine .inr (.inr ⟨asked, e.params, rfl, rfl, ?_, rfl⟩)
      rw [← List.length_eq_zero_iff, ← List.length_eq_zero_iff, hlength]

/-- There are conditions exactly when the where object asks for one. -/
theorem isEmpty_eq_false_iff_asked (h : conditionsOf op mapping filter = .ok f) :
    f.isEmpty = false ↔ Asked op mapping filter := by
  unfold Asked
  obtain ⟨rfl, rfl⟩ | ⟨asked, rfl, htakes, -, -, rfl⟩ | ⟨asked, params, rfl, htakes, hnil, rfl⟩ :=
    conditionsOf_eq_ok_cases h
  · simp [Filter.isEmpty]
  · simp [htakes, Filter.isEmpty, ← not_and_or]
  · simp [htakes, Filter.isEmpty, equalFilter, hnil]

/-- The conditions select every row exactly when the where object admits every row. -/
theorem selects_every_row_iff_admits (h : conditionsOf op mapping filter = .ok f)
    (test : Comparison → Value → Value → Prop) :
    (∀ row, f.Selects test row) ↔ AdmitsEveryRow op mapping filter := by
  rw [Filter.selects_every_row_iff, Filter.exists_disjunct_iff]
  unfold AdmitsEveryRow
  obtain ⟨rfl, rfl⟩ | ⟨asked, rfl, htakes, hand, hor, rfl⟩ | ⟨asked, params, rfl, htakes, hnil, rfl⟩ :=
    conditionsOf_eq_ok_cases h
  · simp [Filter.isEmpty]
  · have hall : (∀ d ∈ groupDemands mapping asked "and", d.clause.Vacuous) ↔
        ∀ d ∈ groupDemands mapping asked "and", d.ExcludesNothing :=
      forall₂_congr fun d hd => Demand.vacuous_clause_iff (hand d hd)
    have hany : (∃ d ∈ groupDemands mapping asked "or", d.clause.Vacuous) ↔
        ∃ d ∈ groupDemands mapping asked "or", d.ExcludesNothing :=
      exists_congr fun d => and_congr_right fun hd => Demand.vacuous_clause_iff (hor d hd)
    simp [htakes, Filter.isEmpty, hall, hany]
  · -- an equality is not vacuous, so only a list without equalities selects every row
    cases params with
    | nil => simp [htakes, Filter.isEmpty, equalFilter, ← hnil]
    | cons pair rest => simp [htakes, Filter.isEmpty, equalFilter, Clause.Vacuous, ← hnil]

/-! ### Clauses with a condition -/

variable (d : Dialect)

/-- A condition is never an empty text, whatever names and values are written as. -/
theorem Clause.render_ne_empty (condition : Clause) : condition.render d ≠ "" := by
  intro hempty
  have hlength : (condition.render d).toList.length = 0 := by rw [hempty]; rfl
  cases condition with
  | compare field comparison value =>
    rw [Clause.render_compare] at hlength
    simp at hlength
  | member field values negated =>
    cases values with
    | nil => cases negated <;> simp [Clause.render] at hlength
    | cons v rest =>
      rw [Clause.render_member d field (List.cons_ne_nil v rest)] at hlength
      simp at hlength

/-- The clause of the filter is the keyword and at least one of its conditions. The condition may be
vacuous. -/
def Filter.HasCondition (f : Filter) : Prop :=
  ∃ condition ∈ f.all ++ f.any, ∃ more, condition.render d ≠ "" ∧
    f.render d = "WHERE " ++ condition.render d ++ more

theorem Filter.hasCondition_of_isEmpty_eq_false {f : Filter} (h : f.isEmpty = false) :
    f.HasCondition d := by
  obtain ⟨conjunction, disjuncts, hdisjuncts⟩ := List.exists_cons_of_ne_nil (disjuncts_ne_nil h)
  have hfirst : conjunction ∈ f.disjuncts := by
    rw [hdisjuncts]
    exact List.mem_cons_self
  obtain ⟨hne, hmem⟩ := mem_disjuncts hfirst
  obtain ⟨condition, conditions, rfl⟩ := List.exists_cons_of_ne_nil hne
  obtain ⟨ands, hands⟩ :=
    intercalate_eq_append " AND " (condition.render d) (conditions.map (Clause.render d))
  obtain ⟨ors, hors⟩ := intercalate_eq_append " OR "
    (String.intercalate " AND " ((condition :: conditions).map (Clause.render d)))
    (disjuncts.map fun conjunction => String.intercalate " AND " (conjunction.map (Clause.render d)))
  refine ⟨condition, hmem condition List.mem_cons_self, ands ++ ors, condition.render_ne_empty d, ?_⟩
  rw [render_eq_disjuncts d h, hdisjuncts, List.map_cons, hors, List.map_cons, hands]
  simp only [String.append_assoc]

theorem Filter.render_of_isEmpty {f : Filter} (h : f.isEmpty = true) : f.render d = "" := by
  obtain ⟨all, any⟩ := f
  simp only [isEmpty, Bool.and_eq_true, List.isEmpty_iff] at h
  obtain ⟨rfl, rfl⟩ := h
  rfl

end Where

namespace Builder

open Where

/-! ### Writes -/

/-- The statement is the update or deletion that the request asks for, with this where clause. -/
def IsWrite (b : Builder) (op : Operation) (r : Request) (mapping : Mapping) (clause sql : String) :
    Prop :=
  ∃ table, r.table = some table ∧
    match op with
    | .update | .advancedUpdate => ∃ data set, r.data = some data ∧
        (b.setBody mapping data).result = .ok set ∧ sql = updateText table set clause
    | .delete | .advancedDelete => sql = deleteText table clause
    | _ => False

/-- The where clause that an operation compiles is that of its conditions. -/
theorem clauseOf_eq_map (d : Dialect) (s : Settings) (op : Operation) (mapping : Mapping)
    (filter : Option Record) :
    (Builder.mk d s).clauseOf op mapping filter =
      (conditionsOf op mapping filter).map (Filter.render d) := by
  cases filter with
  | none =>
    rw [clauseOf_none]
    rfl
  | some filter =>
    rw [clauseOf_some]
    unfold conditionsOf
    dsimp only
    split
    · rfl
    · cases Equalities.ofRecord filter mapping with
      | error fault => rfl
      | ok e => exact congrArg Except.ok (e.render_eq_equalFilter d)

/-- A write that succeeds has the where clause that its operation compiles. -/
theorem exists_isWrite {b : Builder} {op : Operation} {r : Request} {sql : String}
    (hop : op ∈ [.update, .advancedUpdate, .delete, .advancedDelete])
    (h : (b.build op r).result = .ok sql) :
    ∃ mapping clause, r.mapping = some mapping ∧ b.clauseOf op mapping r.filter = .ok clause ∧
      IsWrite b op r mapping clause sql := by
  simp only [List.mem_cons, List.not_mem_nil, or_false] at hop
  have hshape : (op = .update ∨ op = .advancedUpdate) ∨ (op = .delete ∨ op = .advancedDelete) := by
    tauto
  rcases hshape with hop | hop
  · obtain ⟨data, filter, mapping, table, set, clause, hdata, hfilter, htarget, hset, hclause, rfl⟩ :=
      (update_eq_ok_iff hop).mp h
    obtain ⟨hmapping, htable, -⟩ := target_eq_ok_iff.mp htarget
    refine ⟨mapping, clause, hmapping, by rw [hfilter, hclause], table, htable, ?_⟩
    rcases hop with rfl | rfl
    all_goals exact ⟨data, set, hdata, hset, rfl⟩
  · obtain ⟨mapping, table, clause, htarget, hclause, rfl⟩ := (delete_eq_ok_iff hop).mp h
    obtain ⟨hmapping, htable, -⟩ := target_eq_ok_iff.mp htarget
    refine ⟨mapping, clause, hmapping, hclause, table, htable, ?_⟩
    rcases hop with rfl | rfl
    all_goals rfl

/-- **The where clause of a write**: an update or deletion that succeeds has the clause of its where
object. In every dialect this has a condition exactly when the where object asks for one, and otherwise
nothing stands in its place. However values compare, the statement is about every row exactly when the
where object admits every row: when there is none, when it asks for nothing, and when it excludes
nothing where that is enough. -/
theorem where_clause_of_write (d : Dialect) (s : Settings) (r : Request) (sql : String) (op : Operation)
    (hop : op ∈ [.update, .advancedUpdate, .delete, .advancedDelete])
    (h : (Builder.build ⟨d, s⟩ op r).result = .ok sql) :
    ∃ mapping f, r.mapping = some mapping ∧ conditionsOf op mapping r.filter = .ok f ∧
      IsWrite ⟨d, s⟩ op r mapping (f.render d) sql ∧
      (Asked op mapping r.filter → f.HasCondition d) ∧
      (¬ Asked op mapping r.filter → f.render d = "") ∧
      ∀ test, (∀ row, f.Selects test row) ↔ AdmitsEveryRow op mapping r.filter := by
  obtain ⟨mapping, clause, hmapping, hclause, hwrite⟩ := exists_isWrite hop h
  rw [clauseOf_eq_map, map_eq_ok_iff] at hclause
  obtain ⟨f, hf, rfl⟩ := hclause
  refine ⟨mapping, f, hmapping, hf, hwrite, fun hasked => ?_, fun hnot => ?_,
    selects_every_row_iff_admits hf⟩
  · exact f.hasCondition_of_isEmpty_eq_false d ((isEmpty_eq_false_iff_asked hf).mpr hasked)
  · rw [← isEmpty_eq_false_iff_asked hf, Bool.not_eq_false] at hnot
    exact f.render_of_isEmpty d hnot

/-- Of three entries only the operator `>` asks for a condition; the exclusion beside it has no number to
exclude, so every row is deleted. -/
theorem where_clause_of_write_exclusion :
    let r : Request :=
      { Request.empty with
        mapping := some ⟨[("id", .number), ("name", .string)]⟩
        table := some "users"
        filter := some
          [("and", .map [("ghost", .int 1), ("name", .null),
            ("id", .map [("like", .text "1%"), (">", .int 5)])]),
            ("or", .map [("id", .map [("not in", .list [.text "x"])])])] }
    (Builder.build ⟨.mySql, .strict⟩ .advancedDelete r).result =
        .ok "DELETE FROM users WHERE \x60id\x60 > 5 OR 1=1" ∧
      ∃ mapping f, r.mapping = some mapping ∧ conditionsOf .advancedDelete mapping r.filter = .ok f ∧
        f.HasCondition .mySql ∧ ∀ test row, f.Selects test row := by
  intro r
  have hsql : (Builder.build ⟨.mySql, .strict⟩ .advancedDelete r).result =
      .ok "DELETE FROM users WHERE \x60id\x60 > 5 OR 1=1" := rfl
  obtain ⟨mapping, f, hmapping, hf, -, hasked, -, hevery⟩ :=
    where_clause_of_write .mySql .strict r _ .advancedDelete (by decide) hsql
  obtain rfl := Option.some.inj hmapping
  refine ⟨hsql, _, f, hmapping, hf, hasked (.inl (List.cons_ne_nil _ _)), fun test => ?_⟩
  refine (hevery test).mpr (.inr (.inr ⟨_, List.mem_singleton_self _, rfl, [.text "x"], rfl, ?_⟩))
  exact List.forall_mem_singleton.mpr rfl

/-- A where object with an entry is not always a condition: a filter about a field that is not
declared deletes every row. -/
theorem supplied_filter_without_condition :
    ¬ ∀ (b : Builder) (r : Request) (filter : Record) (sql : String) (op : Operation),
      op ∈ [.update, .advancedUpdate, .delete, .advancedDelete] →
      r.filter = some filter → filter ≠ [] → (b.build op r).result = .ok sql →
      ∃ mapping clause, r.mapping = some mapping ∧ IsWrite b op r mapping clause sql ∧ clause ≠ "" := by
  intro hall
  obtain ⟨mapping, clause, -, ⟨table, htable, htext⟩, hne⟩ :=
    hall ⟨.mySql, .strict⟩
      { Request.empty with
        mapping := some ⟨[("id", .number)]⟩
        table := some "users"
        filter := some [("and", .map [("ghost", .int 1)])] }
      [("and", .map [("ghost", .int 1)])] "DELETE FROM users " .advancedDelete (by decide) rfl
      (by simp) rfl
  obtain rfl : "users" = table := Option.some.inj htable
  have hlength : "DELETE FROM users ".length = (deleteText "users" clause).length :=
    congrArg String.length htext
  have hhead : (deleteText "users" clause).length = "DELETE FROM users ".length + clause.length := by
    rw [deleteText, String.length_append]
    rfl
  exact hne (String.length_eq_zero_iff.mp (by omega))

end Builder

end TypedSql
