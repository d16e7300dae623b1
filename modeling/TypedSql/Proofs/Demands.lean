import TypedSql.Proofs.Conditions

/-!
# What a filter demands of its values

Every entry of a group makes demands of values: that a comparison can be made with them under the type
of the field, or that they are a list (`Demand`). An entry that is not declared or has no value demands
nothing, and neither does an operator that is not known. Compiling a filter meets the demands of its
two groups in order, one condition for each (`groupClauses_eq_mapM`). So a filter with a group fails
exactly at the first demand that is not met, and otherwise has one typed condition for each demand
(`filter_meets_demands`).
-/

namespace TypedSql.Where

/-! ### Demands -/

/-- An operator on a field and the value that it is about. -/
structure Demand where
  field : String
  type : FieldType
  operator : Operator
  operand : Value

namespace Demand

/-- The operator can be applied: a comparison to a value of the type of the field, a membership to a
list of any values. -/
def Met (d : Demand) : Prop :=
  match d.operator with
  | .compare _ => d.type.accepts d.operand = true
  | .member _ => d.operand.kind = .list

instance (d : Demand) : Decidable d.Met := by
  unfold Met; cases d.operator <;> infer_instance

/-- The condition of a demand that is met. A membership is about those items of the list that have the
type of the field, in order and as often as they are there. -/
def clause (d : Demand) : Clause :=
  match d.operator with
  | .compare comparison => .compare d.field comparison d.operand
  | .member negated => .member d.field ((d.operand.items?.getD []).filter d.type.accepts) negated

/-- Meets a demand, or reports the value that it was made of. -/
def meet (d : Demand) : Except BuildError Clause :=
  if d.Met then .ok d.clause else .error (.invalidWhereValue d.field d.operand)

theorem meet_eq_ok_iff {d : Demand} {clause : Clause} :
    d.meet = .ok clause ↔ d.Met ∧ clause = d.clause := by
  unfold meet
  split <;> simp_all [eq_comm]

theorem meet_eq_error_iff {d : Demand} {fault : BuildError} :
    d.meet = .error fault ↔ ¬ d.Met ∧ fault = .invalidWhereValue d.field d.operand := by
  unfold meet
  split <;> simp_all [eq_comm]

/-- Demands are met as a whole when each of them is, and then each has its condition. -/
theorem mapM_meet_eq_ok_iff {demands : List Demand} {clauses : List Clause} :
    demands.mapM meet = .ok clauses ↔ (∀ d ∈ demands, d.Met) ∧ clauses = demands.map clause := by
  induction demands generalizing clauses with
  | nil => simp [except_pure_def, eq_comm]
  | cons d rest ih =>
    simp only [List.mapM_cons, except_bind_def, except_pure_def, bind_eq_ok_iff, meet_eq_ok_iff, ih,
      Except.ok.injEq, List.forall_mem_cons, List.map_cons]
    constructor
    · rintro ⟨_, ⟨hd, rfl⟩, _, ⟨hrest, rfl⟩, rfl⟩
      exact ⟨⟨hd, hrest⟩, rfl⟩
    · rintro ⟨⟨hd, hrest⟩, rfl⟩
      exact ⟨_, ⟨hd, rfl⟩, _, ⟨hrest, rfl⟩, rfl⟩

end Demand

/-- The demand of one operator of a field, if the operator is known. -/
def operatorDemand? (name : String) (type : FieldType) (entry : String × Value) : Option Demand :=
  (Operator.ofKey? entry.1).map fun operator =>
    { field := name, type := type, operator := operator, operand := entry.2 }

/-- The demands of one entry of a group. A map holds operators; any other value has to be equal. -/
def entryDemands (mapping : Mapping) (entry : String × Value) : List Demand :=
  match mapping.get? entry.1 with
  | none => []
  | some type =>
    match entry.2 with
    | .null => []
    | .map operators => operators.filterMap (operatorDemand? entry.1 type)
    | scalar =>
      [{ field := entry.1, type := type, operator := .compare .equal, operand := scalar }]

/-- The demands of the group under a key, in order. -/
def groupDemands (mapping : Mapping) (filter : Record) (key : String) : List Demand :=
  (groupEntries filter key).flatMap (entryDemands mapping)

/-! ### Meeting demands in order -/

variable {mapping : Mapping} {name : String} {type : FieldType}

theorem comparing_eq_meet (comparison : Comparison) (operand : Value) :
    comparing name type comparison operand =
      Demand.meet { field := name, type := type, operator := .compare comparison, operand := operand } :=
  rfl

/-- An operator compiles as its demand is met; without a demand it has no condition. -/
theorem operatorClause_eq_mapM (name : String) (type : FieldType) (key : String)
    (operand : Value) :
    (operatorClause name type key operand).result.map Option.toList =
      (operatorDemand? name type (key, operand)).toList.mapM Demand.meet := by
  unfold operatorClause operatorDemand?
  cases Operator.ofKey? key with
  | none => rfl
  | some operator =>
    cases operator with
    | compare comparison =>
      simp only [Logged.result_bind, Logged.result_ofExcept, Logged.result_pure, comparing_eq_meet,
        Option.map_some, Option.toList_some, List.mapM_cons, List.mapM_nil]
      cases Demand.meet _ <;> rfl
    | member negated =>
      cases operand with
      | list items => rfl
      | _ => rfl

theorem operatorClauses_eq_mapM (operators : Record) :
    (operatorClauses name type operators).result =
      (operators.filterMap (operatorDemand? name type)).mapM Demand.meet := by
  induction operators with
  | nil => rfl
  | cons entry rest ih =>
    have hfirst := operatorClause_eq_mapM name type entry.1 entry.2
    have hcons : (entry :: rest).filterMap (operatorDemand? name type) =
        (operatorDemand? name type entry).toList ++ rest.filterMap (operatorDemand? name type) := by
      rw [List.filterMap_cons]
      cases operatorDemand? name type entry <;> rfl
    rw [hcons, mapM_append, ← hfirst, ← ih]
    simp only [operatorClauses, Logged.result_bind, Logged.result_pure]
    cases (operatorClause name type entry.1 entry.2).result <;> rfl

theorem entryClauses_eq_mapM (value : Value) :
    (entryClauses mapping name value).result =
      (entryDemands mapping (name, value)).mapM Demand.meet := by
  unfold entryClauses entryDemands
  cases mapping.get? name with
  | none => rfl
  | some type =>
    cases value with
    | null => rfl
    | map operators => exact operatorClauses_eq_mapM operators
    | _ =>
      simp only [Logged.result_bind, Logged.result_ofExcept, Logged.result_pure, comparing_eq_meet,
        List.mapM_cons, List.mapM_nil]
      rfl

/-- **A group meets its demands in order.** -/
theorem groupClauses_eq_mapM (group : Record) :
    (groupClauses mapping group).result =
      (group.flatMap (entryDemands mapping)).mapM Demand.meet := by
  induction group with
  | nil => rfl
  | cons entry rest ih =>
    rw [List.flatMap_cons, mapM_append, ← entryClauses_eq_mapM, ← ih]
    simp only [groupClauses, Logged.result_bind, Logged.result_pure]
    rfl

/-! ### Filters -/

/-- The where object has a map with entries under the key. -/
def HasGroup (filter : Record) (key : String) : Prop :=
  ∃ entry rest, Fields.get? filter key = some (.map (entry :: rest))

theorem group?_eq_none_iff {filter : Record} {key : String} :
    group? filter key = none ↔ ¬ HasGroup filter key := by
  unfold group? HasGroup
  split
  · next entry rest h => simp [h]
  · next h =>
    refine iff_of_true rfl ?_
    rintro ⟨entry, rest, hgroup⟩
    exact h entry rest hgroup

theorem Filter.result_ofRecord {filter : Record} (h : HasGroup filter "and" ∨ HasGroup filter "or") :
    (Filter.ofRecord filter mapping).result =
      ((groupDemands mapping filter "and").mapM Demand.meet).bind fun all =>
        ((groupDemands mapping filter "or").mapM Demand.meet).map fun any => { all, any } := by
  unfold Filter.ofRecord groupDemands groupEntries
  split
  · next hand hor =>
    rw [group?_eq_none_iff] at hand hor
    exact absurd h (not_or.mpr ⟨hand, hor⟩)
  · simp only [Logged.result_bind, Logged.result_pure, groupClauses_eq_mapM]
    rfl

theorem Filter.result_ofRecord_of_not {filter : Record}
    (h : ¬ (HasGroup filter "and" ∨ HasGroup filter "or")) :
    (Filter.ofRecord filter mapping).result = .error .missingFilterGroup := by
  rw [not_or, ← group?_eq_none_iff, ← group?_eq_none_iff] at h
  unfold Filter.ofRecord
  rw [h.1, h.2]
  rfl

/-- With a group, a filter fails at the first demand that is not met. -/
theorem Filter.ofRecord_eq_error_iff {filter : Record} {fault : BuildError}
    (h : HasGroup filter "and" ∨ HasGroup filter "or") :
    (Filter.ofRecord filter mapping).result = .error fault ↔ ∃ before d after,
      groupDemands mapping filter "and" ++ groupDemands mapping filter "or" = before ++ d :: after ∧
      (∀ earlier ∈ before, earlier.Met) ∧ ¬ d.Met ∧ fault = .invalidWhereValue d.field d.operand := by
  have hall : (Filter.ofRecord filter mapping).result = .error fault ↔
      (groupDemands mapping filter "and" ++ groupDemands mapping filter "or").mapM Demand.meet =
        .error fault := by
    rw [Filter.result_ofRecord h, mapM_append]
    simp only [bind_eq_error_iff, map_eq_error_iff]
  have hmeets (d : Demand) : (∃ clause, d.meet = .ok clause) ↔ d.Met := by
    simp [Demand.meet_eq_ok_iff]
  rw [hall, mapM_eq_error_iff]
  simp only [hmeets, Demand.meet_eq_error_iff]

/-- With a group, a filter succeeds when all demands are met. -/
theorem Filter.ofRecord_eq_ok_iff_met {filter : Record} {f : Filter}
    (h : HasGroup filter "and" ∨ HasGroup filter "or") :
    (Filter.ofRecord filter mapping).result = .ok f ↔
      (∀ d ∈ groupDemands mapping filter "and" ++ groupDemands mapping filter "or", d.Met) ∧
        f = { all := (groupDemands mapping filter "and").map Demand.clause
              any := (groupDemands mapping filter "or").map Demand.clause } := by
  rw [Filter.result_ofRecord h, List.forall_mem_append]
  simp only [bind_eq_ok_iff, map_eq_ok_iff, Demand.mapM_meet_eq_ok_iff]
  constructor
  · rintro ⟨_, ⟨hand, rfl⟩, _, ⟨hor, rfl⟩, rfl⟩
    exact ⟨⟨hand, hor⟩, rfl⟩
  · rintro ⟨⟨hand, hor⟩, rfl⟩
    exact ⟨_, ⟨hand, rfl⟩, _, ⟨hor, rfl⟩, rfl⟩

/-- A filter that compiles has the conditions of the demands of its groups, all of which are met. -/
theorem Filter.eq_of_result_eq_ok {filter : Record} {f : Filter}
    (h : (Filter.ofRecord filter mapping).result = .ok f) :
    (∀ d ∈ groupDemands mapping filter "and" ++ groupDemands mapping filter "or", d.Met) ∧
      f = { all := (groupDemands mapping filter "and").map Demand.clause
            any := (groupDemands mapping filter "or").map Demand.clause } := by
  by_cases hgroup : HasGroup filter "and" ∨ HasGroup filter "or"
  · exact (Filter.ofRecord_eq_ok_iff_met hgroup).mp h
  · rw [Filter.result_ofRecord_of_not hgroup] at h
    cases h

/-- **A filter has one condition for each demand**. Without a group it is refused as such. With one, it
fails exactly when a demand of its groups is not met, and names the field and the value of the first,
where the demands of the group `and` stand in front of those of the group `or`; otherwise its
conditions are those of the demands of either group, in order. Every condition of a filter is about a
declared field and about values that satisfy its type. -/
theorem filter_meets_demands (filter : Record) (mapping : Mapping) :
    (∀ fault, (Filter.ofRecord filter mapping).result = .error fault ↔
      (¬ HasGroup filter "and" ∧ ¬ HasGroup filter "or" ∧ fault = .missingFilterGroup) ∨
        ((HasGroup filter "and" ∨ HasGroup filter "or") ∧ ∃ before d after,
          groupDemands mapping filter "and" ++ groupDemands mapping filter "or" =
            before ++ d :: after ∧
          (∀ earlier ∈ before, earlier.Met) ∧ ¬ d.Met ∧
          fault = .invalidWhereValue d.field d.operand)) ∧
      (∀ f, (Filter.ofRecord filter mapping).result = .ok f ↔
        (HasGroup filter "and" ∨ HasGroup filter "or") ∧
          (∀ d ∈ groupDemands mapping filter "and" ++ groupDemands mapping filter "or", d.Met) ∧
          f = { all := (groupDemands mapping filter "and").map Demand.clause
                any := (groupDemands mapping filter "or").map Demand.clause }) ∧
      ∀ f, (Filter.ofRecord filter mapping).result = .ok f →
        ∀ clause ∈ f.all ++ f.any, clause.Typed mapping := by
  have htyped (f : Filter) (hf : (Filter.ofRecord filter mapping).result = .ok f) :
      ∀ clause ∈ f.all ++ f.any, clause.Typed mapping :=
    fun clause hclause => Filter.typed_of_ofRecord hf hclause
  by_cases hgroup : HasGroup filter "and" ∨ HasGroup filter "or"
  · refine ⟨fun fault => ?_, fun f => ?_, htyped⟩
    · rw [Filter.ofRecord_eq_error_iff hgroup]
      constructor
      · exact fun hunmet => .inr ⟨hgroup, hunmet⟩
      · rintro (⟨hand, hor, -⟩ | ⟨-, hunmet⟩)
        · exact absurd hgroup (not_or.mpr ⟨hand, hor⟩)
        · exact hunmet
    · rw [Filter.ofRecord_eq_ok_iff_met hgroup]
      exact (and_iff_right hgroup).symm
  · have hmissing : (Filter.ofRecord filter mapping).result = .error .missingFilterGroup :=
      Filter.result_ofRecord_of_not hgroup
    refine ⟨fun fault => ?_, fun f => ?_, htyped⟩
    · rw [hmissing]
      constructor
      · rintro ⟨⟩
        exact .inl ⟨(not_or.mp hgroup).1, (not_or.mp hgroup).2, rfl⟩
      · rintro (⟨-, -, rfl⟩ | ⟨hsome, -⟩)
        · rfl
        · exact absurd hsome hgroup
    · rw [hmissing]
      constructor
      · rintro ⟨⟩
      · rintro ⟨hsome, -⟩
        exact absurd hsome hgroup

/-- The first fault is the one in the group `and`, although the group `or` is written first. -/
example :
    let mapping : Mapping := ⟨[("age", .number), ("name", .string)]⟩
    (Filter.ofRecord [("or", .map [("age", .text "x")]),
      ("and", .map [("ghost", .int 1), ("name", .text "a"), ("age", .map [("~", .null), (">", .bool true)])])]
        mapping).result = .error (.invalidWhereValue "age" (.bool true)) := by
  rfl

end TypedSql.Where
