import TypedSql.Dialect.MySql
import TypedSql.Proofs.Binding

/-!
# Preconditions of a statement

An operation looks for the parts that it requires and checks table name, order, offset and alias before
it compiles anything (`Builder.checks`). What is compiled afterwards never fails with a fault of this
kind, so a statement fails with a precondition exactly as its checks do
(`Builder.build_eq_error_iff_checks`). The checks do not look into data, where object, mapping and select:
two requests that differ in these alone report the same precondition, whatever else is wrong with them
(`Builder.precondition_of_arguments`).
-/

namespace TypedSql

/-- The fault is about the request and not about what is compiled from it: a part is missing, the table
name is malformed, or an order, offset or count has the wrong shape. -/
def BuildError.isPrecondition : BuildError → Bool
  | .missingArgument _ | .invalidIdentifier _ | .invalidShape _ => true
  | _ => false

/-- No fault of the step is a precondition. -/
def CompilationOnly {α : Type} (x : Except BuildError α) : Prop :=
  ∀ fault, x = .error fault → fault.isPrecondition = false

namespace CompilationOnly

variable {α β : Type} {x : Except BuildError α}

theorem ok (a : α) : CompilationOnly (.ok a) := by
  intro fault h
  cases h

theorem error {fault : BuildError} (h : fault.isPrecondition = false) :
    CompilationOnly (.error fault : Except BuildError α) := by
  rintro _ ⟨⟩
  exact h

theorem bind {f : α → Except BuildError β} (hx : CompilationOnly x)
    (hf : ∀ a, CompilationOnly (f a)) : CompilationOnly (x.bind f) := by
  intro fault h
  rcases bind_eq_error_iff.mp h with hfirst | ⟨a, -, hsecond⟩
  · exact hx fault hfirst
  · exact hf a fault hsecond

theorem map {f : α → β} (hx : CompilationOnly x) : CompilationOnly (x.map f) := by
  intro fault h
  exact hx fault (map_eq_error_iff.mp h)

theorem ne_error (hx : CompilationOnly x) {fault : BuildError} (h : fault.isPrecondition = true) :
    x ≠ .error fault := by
  intro hfault
  rw [hx fault hfault] at h
  cases h

end CompilationOnly

/-! ### What is compiled -/

namespace Where

variable {mapping : Mapping} {name : String} {type : FieldType}

theorem compilationOnly_equalities (filter : Record) :
    CompilationOnly (Equalities.ofRecord filter mapping) := by
  intro fault h
  obtain ⟨_, entry, _, -, -, -, rfl⟩ := Equalities.ofRecord_eq_error_iff.mp h
  rfl

theorem compilationOnly_comparing (comparison : Comparison) (value : Value) :
    CompilationOnly (comparing name type comparison value) := by
  unfold comparing
  split
  · exact .ok _
  · exact .error rfl

theorem compilationOnly_operatorClause (key : String) (operand : Value) :
    CompilationOnly (operatorClause name type key operand).result := by
  unfold operatorClause
  split
  · simp only [Logged.result_bind, Logged.result_ofExcept]
    exact (compilationOnly_comparing _ operand).bind fun clause => .ok _
  · split
    · exact .ok _
    · exact .error rfl
  · exact .ok _

theorem compilationOnly_operatorClauses (operators : Record) :
    CompilationOnly (operatorClauses name type operators).result := by
  induction operators with
  | nil => exact .ok _
  | cons entry rest ih =>
    simp only [operatorClauses, Logged.result_bind]
    exact (compilationOnly_operatorClause _ _).bind fun first => ih.bind fun others => .ok _

theorem compilationOnly_entryClauses (value : Value) :
    CompilationOnly (entryClauses mapping name value).result := by
  unfold entryClauses
  split
  · exact .ok _
  · split
    · exact .ok _
    · exact compilationOnly_operatorClauses _
    · simp only [Logged.result_bind, Logged.result_ofExcept]
      exact (compilationOnly_comparing _ _).bind fun clause => .ok _

theorem compilationOnly_groupClauses (group : Record) :
    CompilationOnly (groupClauses mapping group).result := by
  induction group with
  | nil => exact .ok _
  | cons entry rest ih =>
    simp only [groupClauses, Logged.result_bind]
    exact (compilationOnly_entryClauses _).bind fun first => ih.bind fun others => .ok _

theorem compilationOnly_filter (filter : Record) :
    CompilationOnly (Filter.ofRecord filter mapping).result := by
  unfold Filter.ofRecord
  split
  · exact .error rfl
  · simp only [Logged.result_bind]
    exact (compilationOnly_groupClauses _).bind fun all =>
      (compilationOnly_groupClauses _).bind fun any => .ok _

end Where

namespace Geometry

variable (name : String) (v : Value)

theorem compilationOnly_coordinates : CompilationOnly (coordinates name v) := by
  unfold coordinates
  split
  · split
    · split
      · exact .ok _
      · exact .error rfl
      · exact .error rfl
    · exact .ok _
  · exact .ok _

theorem compilationOnly_point : CompilationOnly (point name v) :=
  (compilationOnly_coordinates name v).map

theorem compilationOnly_corners (items : List Value) (index : Nat) :
    CompilationOnly (corners name index items) := by
  induction items generalizing index with
  | nil => exact .ok _
  | cons v rest ih =>
    exact (compilationOnly_coordinates _ v).bind fun found =>
      (ih (index + 1)).bind fun others => .ok _

theorem compilationOnly_polygon : CompilationOnly (polygon name v) := by
  unfold polygon
  split
  · exact .ok _
  · exact (compilationOnly_corners name _ 0).map
  · exact .error rfl

end Geometry

namespace Extraction

variable {mapping : Mapping}

theorem compilationOnly_item (name : String) (value : Value) :
    CompilationOnly (item mapping name value).result := by
  unfold item
  split
  · exact .ok _
  · split
    · exact .ok _
    · split
      · split <;> exact .ok _
      · split <;> exact .ok _
      · split <;> exact .ok _
      · simp only [Logged.result_bind, Logged.result_ofExcept]
        exact (Geometry.compilationOnly_point name value).bind fun fragment => .ok _
      · simp only [Logged.result_bind, Logged.result_ofExcept]
        exact (Geometry.compilationOnly_polygon name value).bind fun fragment => .ok _

theorem compilationOnly_items (data : Record) : CompilationOnly (items mapping data).result := by
  induction data with
  | nil => exact .ok _
  | cons entry rest ih =>
    simp only [items, Logged.result_bind]
    exact (compilationOnly_item _ _).bind fun first => ih.bind fun others => .ok _

end Extraction

namespace Builder

variable {b : Builder} {op : Operation} {r r' : Request}

theorem compilationOnly_setBody (mapping : Mapping) (data : Record) :
    CompilationOnly (b.setBody mapping data).result := by
  simp only [setBody, Extraction.ofRecord, Logged.result_bind]
  exact ((Extraction.compilationOnly_items data).bind fun found => .ok _).bind fun e => .ok _

theorem compilationOnly_clauseOf (mapping : Mapping) (filter : Option Record) :
    CompilationOnly (b.clauseOf op mapping filter) := by
  cases filter with
  | none =>
    rw [clauseOf_none]
    exact .ok _
  | some filter =>
    rw [clauseOf_some]
    split
    · exact (Where.compilationOnly_filter filter).map
    · exact (Where.compilationOnly_equalities filter).map

/-! ### What is checked -/

/-- The checks of an operation, in its order. -/
def checks (s : Settings) (r : Request) : Operation → Except BuildError Unit
  | .insert | .replace => (require .data r.data).bind fun _ => (target r).map fun _ => ()
  | .update | .advancedUpdate => (updateParts r).map fun _ => ()
  | .delete | .advancedDelete => (target r).map fun _ => ()
  | .get =>
    (target r).bind fun _ => (Order.ofValue? r.order).bind fun _ =>
      (Page.ofValue? s r.offset).map fun _ => ()
  | .query =>
    (target r).bind fun _ => (Order.ofValue? r.order).bind fun _ =>
      (Page.ofValue? s r.offset).bind fun _ => (CountAlias.ofValue? r.count).map fun _ => ()
  | .count =>
    (target r).bind fun _ => (CountAlias.ofValue? r.count).bind fun label =>
      (require .count label).map fun _ => ()

/-- A statement fails with a precondition exactly as its checks do. -/
theorem build_eq_error_iff_checks {fault : BuildError} (hfault : fault.isPrecondition = true) :
    (b.build op r).result = .error fault ↔ checks b.settings r op = .error fault := by
  have hset (mapping : Mapping) (data : Record) : (b.setBody mapping data).result ≠ .error fault :=
    (compilationOnly_setBody mapping data).ne_error hfault
  have hclause (op : Operation) (mapping : Mapping) (filter : Option Record) :
      b.clauseOf op mapping filter ≠ .error fault :=
    (compilationOnly_clauseOf mapping filter).ne_error hfault
  have hdelete (op : Operation) (hop : op = .delete ∨ op = .advancedDelete) :
      (b.build op r).result = .error fault ↔ target r = .error fault := by
    rw [result_delete hop]
    simp only [bind_eq_error_iff, map_eq_error_iff, hclause, and_false, exists_false, or_false]
  have hwrite (kind : StatementKind) : (b.write kind r).result = .error fault ↔
      checks b.settings r .insert = .error fault := by
    rw [result_write]
    simp only [checks, bind_eq_error_iff, map_eq_error_iff, hset, and_false, exists_false, or_false]
  cases op with
  | insert => exact hwrite .insert
  | replace => exact hwrite .replace
  | update =>
    rw [result_update]
    simp only [checks, bind_eq_error_iff, map_eq_error_iff, hset, hclause, and_false, exists_false,
      or_false]
  | advancedUpdate =>
    rw [result_advancedUpdate]
    simp only [checks, bind_eq_error_iff, map_eq_error_iff, hset, hclause, and_false, exists_false,
      or_false]
  | delete => exact (hdelete .delete (.inl rfl)).trans map_eq_error_iff.symm
  | advancedDelete => exact (hdelete .advancedDelete (.inr rfl)).trans map_eq_error_iff.symm
  | get =>
    rw [result_get]
    simp only [checks, bind_eq_error_iff, map_eq_error_iff, hclause, and_false, exists_false, or_false]
  | query =>
    rw [result_query]
    simp only [checks, bind_eq_error_iff, map_eq_error_iff, hclause, and_false, exists_false, or_false]
  | count =>
    rw [result_count]
    simp only [checks, bind_eq_error_iff, map_eq_error_iff, hclause, and_false, exists_false, or_false]

end Builder

/-! ### What the checks look at -/

/-- The parts that an operation requires. -/
def Operation.requirements : Operation → List Requirement
  | .insert | .replace => [.data, .mapping, .table]
  | .update | .advancedUpdate => [.data, .filter, .mapping, .table]
  | .delete | .advancedDelete | .get | .query => [.mapping, .table]
  | .count => [.mapping, .table, .count]

/-- Whether a request has a part. -/
def Request.has (r : Request) : Requirement → Bool
  | .data => r.data.isSome
  | .mapping => r.mapping.isSome
  | .table => r.table.isSome
  | .filter => r.filter.isSome
  | .count => r.count.isSome

/-- Two requests give an operation the same arguments but for the contents of data, where object, mapping
and select. -/
structure Operation.SameArguments (op : Operation) (r r' : Request) : Prop where
  table : r.table = r'.table
  order : r.order = r'.order
  offset : r.offset = r'.offset
  count : r.count = r'.count
  present : ∀ requirement ∈ op.requirements, r.has requirement = r'.has requirement

namespace Builder

variable {b : Builder} {op : Operation} {r r' : Request}

theorem require_congr {α β : Type} {requirement : Requirement} {part : Option α} {part' : Option β}
    (h : part.isSome = part'.isSome) : ((require requirement part).map fun _ => ()) =
      (require requirement part').map fun _ => () := by
  cases part with
  | none =>
    cases part' with
    | none => rfl
    | some _ => cases h
  | some _ =>
    cases part' with
    | none => cases h
    | some _ => rfl

theorem target_congr (htable : r.table = r'.table)
    (hmapping : r.mapping.isSome = r'.mapping.isSome) :
    ((target r).map fun _ => ()) = (target r').map fun _ => () := by
  have hsplit (r : Request) : ((target r).map fun _ => ()) =
      (require .mapping r.mapping).bind fun _ =>
        (require .table r.table).bind fun table => (TableName.check table).map fun _ => () := by
    simp only [target, except_bind_def, except_pure_def, map_of_bind]
    rfl
  rw [hsplit, hsplit, htable]
  exact bind_const_congr (require_congr hmapping) _

theorem updateParts_congr (hdata : r.data.isSome = r'.data.isSome)
    (hfilter : r.filter.isSome = r'.filter.isSome)
    (htarget : ((target r).map fun _ => ()) = (target r').map fun _ => ()) :
    ((updateParts r).map fun _ => ()) = (updateParts r').map fun _ => () := by
  have hsplit (r : Request) : ((updateParts r).map fun _ => ()) =
      (require .data r.data).bind fun _ =>
        (require .filter r.filter).bind fun _ => (target r).map fun _ => () := by
    simp only [updateParts, except_bind_def, except_pure_def, map_of_bind]
    rfl
  rw [hsplit, hsplit, htarget, bind_const_congr (require_congr hdata)]
  exact congrArg _ (funext fun _ => bind_const_congr (require_congr hfilter) _)

/-- The checks look at nothing but these arguments. -/
theorem checks_congr (s : Settings) (h : op.SameArguments r r') : checks s r op = checks s r' op := by
  have hmapping : r.mapping.isSome = r'.mapping.isSome :=
    h.present .mapping (by cases op <;> simp [Operation.requirements])
  have htarget := target_congr h.table hmapping
  cases op with
  | insert | replace =>
    have hdata : r.data.isSome = r'.data.isSome :=
      h.present .data (by simp [Operation.requirements])
    simp only [checks]
    rw [htarget]
    exact bind_const_congr (require_congr hdata) _
  | update | advancedUpdate =>
    have hdata : r.data.isSome = r'.data.isSome :=
      h.present .data (by simp [Operation.requirements])
    have hfilter : r.filter.isSome = r'.filter.isSome :=
      h.present .filter (by simp [Operation.requirements])
    exact updateParts_congr hdata hfilter htarget
  | delete | advancedDelete => exact htarget
  | get =>
    simp only [checks, h.order, h.offset]
    exact bind_const_congr htarget _
  | query =>
    simp only [checks, h.order, h.offset, h.count]
    exact bind_const_congr htarget _
  | count =>
    simp only [checks, h.count]
    exact bind_const_congr htarget _

/-- **Preconditions come first**: two requests that give an operation the same arguments, but for the
contents of data, where object, mapping and select, fail with a missing part, a malformed table name or
a wrong shape in one case exactly when they do in the other, and with the same fault. -/
theorem precondition_of_arguments (s : Settings) (w w' : Writer) (op : Operation) (r r' : Request)
    (h : op.SameArguments r r') (fault : BuildError) (hfault : fault.isPrecondition = true) :
    (Builder.build ⟨w, s⟩ op r).result = .error fault ↔
      (Builder.build ⟨w', s⟩ op r').result = .error fault := by
  rw [build_eq_error_iff_checks hfault, build_eq_error_iff_checks hfault, checks_congr s h]

/-- A malformed offset is reported over a well-formed filter and over one with a fault of its own. -/
theorem precondition_of_arguments_offset :
    let r : Request :=
      { Request.empty with
        mapping := some ⟨[("id", .number)]⟩
        table := some "users"
        offset := some (.int 5) }
    let r' : Request :=
      { r with
        mapping := some ⟨[("name", .string)]⟩
        filter := some [("and", .map [("name", .int 3)])]
        select := some (.list [.text "name"]) }
    Operation.query.SameArguments r r' ∧
      (Where.Filter.ofRecord [("and", .map [("name", .int 3)])] ⟨[("name", .string)]⟩).result =
        .error (.invalidWhereValue "name" (.int 3)) ∧
      (Builder.build ⟨.mySql, .strict⟩ .query r').result = .error (.invalidShape .offsetNotList) := by
  intro r r'
  have hsame : Operation.query.SameArguments r r' :=
    ⟨rfl, rfl, rfl, rfl, by simp [Operation.requirements, Request.has, r, r']⟩
  exact ⟨hsame, rfl, (precondition_of_arguments .strict .mySql .mySql .query r r' hsame
    (.invalidShape .offsetNotList) rfl).mp rfl⟩

end Builder

end TypedSql
