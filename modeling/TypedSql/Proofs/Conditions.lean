import Mathlib.Data.List.Forall2
import TypedSql.Proofs.Assembly

/-!
# The conditions that a where object asks for

The compilers of where objects check values on their way and stop at the first fault. Here the check
and the result are told apart: a group compiles exactly when each of its entries fits (`EntryFits`),
and then to the conditions of its entries in order (`groupClauses_eq_ok_iff`). A where object of
equalities compiles exactly when each entry binds a value, and then to these in order
(`Equalities.ofRecord_eq_ok_iff`).
-/

namespace TypedSql.Where

/-! ### Operators -/

/-- The operand has the kind that a known operator wants. -/
def OperatorFits (type : FieldType) (entry : String × Value) : Prop :=
  match Operator.ofKey? entry.1 with
  | none => True
  | some (.compare _) => type.accepts entry.2 = true
  | some (.member _) => ∃ items, entry.2 = .list items

/-- The condition that one operator asks for. -/
def operatorCondition (name : String) (type : FieldType) (entry : String × Value) : Option Clause :=
  match Operator.ofKey? entry.1, entry.2 with
  | some (.compare comparison), value => some (.compare name comparison value)
  | some (.member negated), .list items =>
    some (.member name (items.filter type.accepts) negated)
  | _, _ => none

variable {mapping : Mapping} {name : String} {type : FieldType}

theorem comparing_eq_ok_iff {comparison : Comparison} {value : Value} {clause : Clause} :
    comparing name type comparison value = .ok clause ↔
      type.accepts value = true ∧ clause = .compare name comparison value := by
  unfold comparing
  split
  · next h => simp [h, eq_comm]
  · next h => simp [h]

theorem operatorClause_eq_ok_iff {key : String} {operand : Value} {found : Option Clause} :
    (operatorClause name type key operand).result = .ok found ↔
      OperatorFits type (key, operand) ∧ found = operatorCondition name type (key, operand) := by
  unfold operatorClause OperatorFits operatorCondition
  cases hkey : Operator.ofKey? key with
  | none =>
    simp only [Logged.result_bind, Logged.result_emit, Logged.result_pure, bind_eq_ok_iff,
      Except.ok.injEq, true_and]
    constructor
    · rintro ⟨_, rfl⟩
      rfl
    · rintro rfl
      exact ⟨(), rfl⟩
  | some operator =>
    cases operator with
    | compare comparison =>
      simp only [Logged.result_bind, Logged.result_ofExcept, Logged.result_pure,
        bind_eq_ok_iff, comparing_eq_ok_iff, Except.ok.injEq]
      constructor
      · rintro ⟨_, ⟨haccepts, rfl⟩, rfl⟩
        exact ⟨haccepts, rfl⟩
      · rintro ⟨haccepts, rfl⟩
        exact ⟨_, ⟨haccepts, rfl⟩, rfl⟩
    | member negated =>
      cases operand with
      | list items => simp [eq_comm]
      | _ => simp

theorem operatorClauses_eq_ok_iff {operators : Record} {clauses : List Clause} :
    (operatorClauses name type operators).result = .ok clauses ↔
      (∀ entry ∈ operators, OperatorFits type entry) ∧
        clauses = operators.filterMap (operatorCondition name type) := by
  induction operators generalizing clauses with
  | nil => simp [operatorClauses, eq_comm]
  | cons entry rest ih =>
    have hhead : operatorCondition name type (entry.1, entry.2) =
      operatorCondition name type entry := rfl
    simp only [operatorClauses, Logged.result_bind, Logged.result_pure, bind_eq_ok_iff,
      operatorClause_eq_ok_iff, ih, Except.ok.injEq, List.forall_mem_cons, hhead]
    constructor
    · rintro ⟨_, ⟨hfirst, rfl⟩, _, ⟨hrest, rfl⟩, rfl⟩
      refine ⟨⟨hfirst, hrest⟩, ?_⟩
      cases hc : operatorCondition name type entry <;> simp [hc]
    · rintro ⟨⟨hfirst, hrest⟩, rfl⟩
      refine ⟨_, ⟨hfirst, rfl⟩, _, ⟨hrest, rfl⟩, ?_⟩
      cases hc : operatorCondition name type entry <;> simp [hc]

/-! ### Groups -/

/-- The values of the entry satisfy the type of its field, if it is declared. -/
def EntryFits (mapping : Mapping) (entry : String × Value) : Prop :=
  match mapping.get? entry.1 with
  | none => True
  | some type =>
    match entry.2 with
    | .null => True
    | .map operators => ∀ operator ∈ operators, OperatorFits type operator
    | scalar => type.accepts scalar = true

/-- The conditions that one entry of a group asks for. -/
def entryConditions (mapping : Mapping) (entry : String × Value) : List Clause :=
  match mapping.get? entry.1 with
  | none => []
  | some type =>
    match entry.2 with
    | .null => []
    | .map operators => operators.filterMap (operatorCondition entry.1 type)
    | scalar => [.compare entry.1 .equal scalar]

theorem entryClauses_eq_ok_iff {value : Value} {clauses : List Clause} :
    (entryClauses mapping name value).result = .ok clauses ↔
      EntryFits mapping (name, value) ∧ clauses = entryConditions mapping (name, value) := by
  unfold entryClauses EntryFits entryConditions
  cases mapping.get? name with
  | none => simp [eq_comm]
  | some type =>
    cases value with
    | null => simp [eq_comm]
    | map operators => exact operatorClauses_eq_ok_iff
    | _ =>
      simp only [Logged.result_bind, Logged.result_ofExcept, Logged.result_pure,
        bind_eq_ok_iff, comparing_eq_ok_iff, Except.ok.injEq]
      constructor
      · rintro ⟨_, ⟨haccepts, rfl⟩, rfl⟩
        exact ⟨haccepts, rfl⟩
      · rintro ⟨haccepts, rfl⟩
        exact ⟨_, ⟨haccepts, rfl⟩, rfl⟩

/-- **A group** compiles exactly when its entries fit, and to their conditions in order. -/
theorem groupClauses_eq_ok_iff {group : Record} {clauses : List Clause} :
    (groupClauses mapping group).result = .ok clauses ↔
      (∀ entry ∈ group, EntryFits mapping entry) ∧
        clauses = group.flatMap (entryConditions mapping) := by
  induction group generalizing clauses with
  | nil => simp [groupClauses, eq_comm]
  | cons entry rest ih =>
    simp only [groupClauses, Logged.result_bind, Logged.result_pure, bind_eq_ok_iff,
      entryClauses_eq_ok_iff, ih, Except.ok.injEq, List.forall_mem_cons, List.flatMap_cons]
    constructor
    · rintro ⟨_, ⟨hfirst, rfl⟩, _, ⟨hrest, rfl⟩, rfl⟩
      exact ⟨⟨hfirst, hrest⟩, rfl⟩
    · rintro ⟨⟨hfirst, hrest⟩, rfl⟩
      exact ⟨_, ⟨hfirst, rfl⟩, _, ⟨hrest, rfl⟩, rfl⟩

/-- The entries of the group under a key; none when there is no map with entries. -/
def groupEntries (filter : Record) (key : String) : Record := (group? filter key).getD []

/-- **A filter** compiles exactly when it has a group and the entries of its groups fit, and to
their conditions. -/
theorem Filter.ofRecord_eq_ok_iff {filter : Record} {f : Filter} :
    (Filter.ofRecord filter mapping).result = .ok f ↔
      (group? filter "and" ≠ none ∨ group? filter "or" ≠ none) ∧
      (∀ key ∈ ["and", "or"], ∀ entry ∈ groupEntries filter key, EntryFits mapping entry) ∧
      f = { all := (groupEntries filter "and").flatMap (entryConditions mapping)
            any := (groupEntries filter "or").flatMap (entryConditions mapping) } := by
  unfold Filter.ofRecord groupEntries
  split
  · next hand hor => simp [hand, hor]
  · next hsome =>
    have hgroup : group? filter "and" ≠ none ∨ group? filter "or" ≠ none := by
      by_contra hnone
      simp only [ne_eq, not_or, not_not] at hnone
      exact hsome hnone.1 hnone.2
    simp only [Logged.result_bind, Logged.result_pure, bind_eq_ok_iff, groupClauses_eq_ok_iff,
      Except.ok.injEq, List.forall_mem_cons, hgroup, true_and]
    constructor
    · rintro ⟨_, ⟨hall, rfl⟩, _, ⟨hany, rfl⟩, rfl⟩
      exact ⟨⟨hall, hany, by simp⟩, rfl⟩
    · rintro ⟨⟨hall, hany, -⟩, rfl⟩
      exact ⟨_, ⟨hall, rfl⟩, _, ⟨hany, rfl⟩, rfl⟩

/-! ### Types of conditions -/

/-- The values that a condition is about. -/
def Clause.values : Clause → List Value
  | .compare _ _ value => [value]
  | .member _ values _ => values

/-- The field of the condition is declared, and the values satisfy its type. -/
def Clause.Typed (mapping : Mapping) (clause : Clause) : Prop :=
  ∃ type, mapping.get? clause.field = some type ∧ ∀ v ∈ clause.values, type.accepts v = true

theorem typed_of_operatorCondition (htype : mapping.get? name = some type)
    {entry : String × Value} (hfits : OperatorFits type entry) {clause : Clause}
    (h : operatorCondition name type entry = some clause) : clause.Typed mapping := by
  unfold OperatorFits at hfits
  unfold operatorCondition at h
  split at h
  · next comparison value hkey =>
    rw [hkey] at hfits
    cases h
    exact ⟨type, htype, by simpa [Clause.values] using hfits⟩
  · cases h
    exact ⟨type, htype, fun v hv => (List.mem_filter.mp hv).2⟩
  · cases h

theorem typed_of_mem_entryConditions {entry : String × Value} (hfits : EntryFits mapping entry)
    {clause : Clause} (h : clause ∈ entryConditions mapping entry) : clause.Typed mapping := by
  obtain ⟨name, value⟩ := entry
  unfold EntryFits at hfits
  unfold entryConditions at h
  cases htype : mapping.get? name with
  | none => simp [htype] at h
  | some type =>
    simp only [htype] at hfits h
    cases value with
    | null => cases h
    | map operators =>
      obtain ⟨operator, hmem, hcondition⟩ := List.mem_filterMap.mp h
      exact typed_of_operatorCondition htype (hfits operator hmem) hcondition
    | _ =>
      rw [List.mem_singleton.mp h]
      exact ⟨type, htype, by simpa [Clause.values] using hfits⟩

/-- **What a filter compares is typed**: every condition of a filter that compiles is about a declared
field and about values that satisfy its type. -/
theorem Filter.typed_of_ofRecord {filter : Record} {f : Filter}
    (h : (Filter.ofRecord filter mapping).result = .ok f) {clause : Clause}
    (hmem : clause ∈ f.all ++ f.any) : clause.Typed mapping := by
  obtain ⟨-, hfits, rfl⟩ := Filter.ofRecord_eq_ok_iff.mp h
  have hgroup (key : String) (hkey : key ∈ ["and", "or"])
      (hc : clause ∈ (groupEntries filter key).flatMap (entryConditions mapping)) :
      clause.Typed mapping := by
    obtain ⟨entry, hentry, hcondition⟩ := List.mem_flatMap.mp hc
    exact typed_of_mem_entryConditions (hfits key hkey entry hentry) hcondition
  rcases List.mem_append.mp hmem with hall | hany
  · exact hgroup "and" (by simp) hall
  · exact hgroup "or" (by simp) hany

/-! ### Equalities -/

namespace Equalities

/-- The entry is declared and its value can be bound, to the second of the pair. -/
def Binds (mapping : Mapping) (entry pair : String × Value) : Prop :=
  pair.1 = entry.1 ∧ ∃ type, mapping.get? entry.1 = some type ∧ bind? type entry.2 = some pair.2

theorem param_eq_ok_iff {value : Value} {pair : String × Value} :
    param mapping name value = .ok pair ↔ Binds mapping (name, value) pair := by
  obtain ⟨name', bound⟩ := pair
  unfold param Binds
  split
  · next bound' hbound =>
    rw [Option.bind_eq_some_iff] at hbound
    obtain ⟨type, htype, hbind⟩ := hbound
    constructor
    · rintro h
      obtain ⟨rfl, rfl⟩ : name = name' ∧ bound' = bound := by simpa using h
      exact ⟨rfl, type, htype, hbind⟩
    · rintro ⟨rfl, type', htype', hbind'⟩
      obtain rfl : type = type' := Option.some.inj (htype.symm.trans htype')
      rw [Option.some.inj (hbind.symm.trans hbind')]
  · next hnone =>
    constructor
    · intro h
      cases h
    · rintro ⟨rfl, type, htype, hbind⟩
      simp [htype, hbind] at hnone

/-- **The equalities of a where object**: one for each entry, in order. -/
theorem params?_eq_ok_iff {filter : Record} {params : List (String × Value)} :
    params? mapping filter = .ok params ↔ List.Forall₂ (Binds mapping) filter params := by
  induction filter generalizing params with
  | nil => simp [params?, eq_comm]
  | cons entry rest ih =>
    simp only [params?, except_bind_def, except_pure_def, bind_eq_ok_iff, param_eq_ok_iff, ih,
      Except.ok.injEq]
    constructor
    · rintro ⟨first, hfirst, others, hothers, rfl⟩
      exact .cons hfirst hothers
    · rintro (_ | ⟨hfirst, hothers⟩)
      exact ⟨_, hfirst, _, hothers, rfl⟩

theorem ofRecord_eq_ok_iff {filter : Record} {e : Equalities} :
    ofRecord filter mapping = .ok e ↔ List.Forall₂ (Binds mapping) filter e.params := by
  unfold ofRecord
  rw [map_eq_ok_iff, ← params?_eq_ok_iff]
  constructor
  · rintro ⟨params, hparams, rfl⟩
    exact hparams
  · exact fun h => ⟨e.params, h, rfl⟩

end Equalities

end TypedSql.Where
