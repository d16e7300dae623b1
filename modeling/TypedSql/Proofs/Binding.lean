import TypedSql.Proofs.Contributions

/-!
# What data assigns and what equalities bind

Data and equalities are checked by two compilers: data drops a field that does not fit and goes on,
equalities report it and stop. Both take the same fields in the same form. A record compiles to
equalities exactly when data keeps all of its fields as scalar assignments; what is bound is then what
is assigned, and otherwise the fault is the first field that data does not keep so
(`equalities_bind_what_data_assigns`).
-/

namespace TypedSql

variable {mapping : Mapping} {entry : String × Value} {record : Record}

namespace Extraction

/-! ### Fields that are assigned -/

/-- Data of this one field is kept as a scalar assignment. -/
def Assigned (mapping : Mapping) (entry : String × Value) : Prop :=
  ∃ e, (ofRecord [entry] mapping).result = .ok e ∧ e.assignments ≠ []

/-- A field is assigned exactly when an equality binds its value. -/
theorem assigned_iff_binds :
    Assigned mapping entry ↔ ∃ pair, Where.Equalities.Binds mapping entry pair := by
  unfold Assigned
  constructor
  · rintro ⟨e, he, hne⟩
    obtain ⟨found, hfound, rfl⟩ := ofRecord_eq_ok_iff.mp he
    obtain ⟨first, others, hfirst, hothers, rfl⟩ := items_cons_eq_ok_iff.mp hfound
    obtain rfl : [] = others := Except.ok.inj hothers
    match first with
    | some (.assignment name bound) =>
      obtain ⟨type, htype, hname, hbind⟩ := item_eq_ok_some_iff.mp hfirst
      exact ⟨(name, bound), hname, type, htype, hbind⟩
    | some (.point _) | some (.polygon _) | none => exact absurd rfl hne
  · rintro ⟨pair, hbinds⟩
    exact ⟨_, ofRecord_of_binds (.cons hbinds .nil), List.cons_ne_nil pair []⟩

/-- Each field makes at most one assignment. -/
theorem length_assignments_le {found : List SetItem} (h : (items mapping record).result = .ok found) :
    (found.filterMap SetItem.assignment?).length ≤ record.length := by
  induction record generalizing found with
  | nil =>
    obtain rfl : [] = found := Except.ok.inj h
    exact Nat.le_refl 0
  | cons entry rest ih =>
    obtain ⟨first, others, -, hothers, rfl⟩ := items_cons_eq_ok_iff.mp h
    have hrest := ih hothers
    have hfirst : (first.toList.filterMap SetItem.assignment?).length ≤ first.toList.length :=
      List.length_filterMap_le ..
    have hone : first.toList.length ≤ 1 := by cases first <;> simp
    rw [List.filterMap_append, List.length_append, List.length_cons]
    omega

/-- Where there are as many assignments as fields, each field is assigned what an equality binds. -/
theorem binds_of_length_eq {found : List SetItem} (h : (items mapping record).result = .ok found)
    (hlength : (found.filterMap SetItem.assignment?).length = record.length) :
    List.Forall₂ (Where.Equalities.Binds mapping) record (found.filterMap SetItem.assignment?) := by
  induction record generalizing found with
  | nil =>
    obtain rfl : [] = found := Except.ok.inj h
    exact .nil
  | cons entry rest ih =>
    obtain ⟨first, others, hfirst, hothers, rfl⟩ := items_cons_eq_ok_iff.mp h
    -- the other fields make no more assignments than they are, so the first field makes one
    have hrest := length_assignments_le hothers
    match first with
    | some (.assignment name bound) =>
      obtain ⟨type, htype, hname, hbind⟩ := item_eq_ok_some_iff.mp hfirst
      have hothers' : (others.filterMap SetItem.assignment?).length = rest.length :=
        Nat.succ.inj hlength
      exact .cons ⟨hname, type, htype, hbind⟩ (ih hothers hothers')
    | some (.point _) | some (.polygon _) | none =>
      have hnone : (others.filterMap SetItem.assignment?).length = rest.length + 1 := hlength
      omega

end Extraction

namespace Where.Equalities

open Extraction

/-! ### The first fault -/

theorem param_eq_error_iff {fault : BuildError} : param mapping entry.1 entry.2 = .error fault ↔
    ¬ Assigned mapping entry ∧ fault = .invalidWhereValue entry.1 entry.2 := by
  have hassigned : Assigned mapping entry ↔ ∃ pair, param mapping entry.1 entry.2 = .ok pair := by
    simp only [assigned_iff_binds, param_eq_ok_iff]
  rw [hassigned, param]
  split <;> simp [eq_comm]

theorem params?_eq_mapM : params? mapping record =
    record.mapM fun entry => param mapping entry.1 entry.2 := by
  induction record with
  | nil => rfl
  | cons entry rest ih => rw [List.mapM_cons, ← ih, params?]

/-- Equalities fail at the first field that data does not assign. -/
theorem ofRecord_eq_error_iff {fault : BuildError} : ofRecord record mapping = .error fault ↔
    ∃ before entry after, record = before ++ entry :: after ∧
      (∀ earlier ∈ before, Assigned mapping earlier) ∧ ¬ Assigned mapping entry ∧
      fault = .invalidWhereValue entry.1 entry.2 := by
  rw [ofRecord, map_eq_error_iff, params?_eq_mapM, mapM_eq_error_iff]
  simp only [param_eq_ok_iff, ← assigned_iff_binds, param_eq_error_iff]

/-- **Data and equalities take the same values**: a record compiles to equalities exactly when, as data,
it is extracted with as many assignments as fields. The parameters are then these assignments, with the
same names and values in the same order, and there are no points and polygons. Otherwise the fault names
the first field that data does not assign, and shows its value. -/
theorem equalities_bind_what_data_assigns (mapping : Mapping) (record : Record) :
    ((∃ e, ofRecord record mapping = .ok e) ↔
        ∃ x, (Extraction.ofRecord record mapping).result = .ok x ∧
          x.assignments.length = record.length) ∧
      (∀ e, ofRecord record mapping = .ok e ↔
        (Extraction.ofRecord record mapping).result =
            .ok { assignments := e.params, points := [], polygons := [] } ∧
          e.params.length = record.length) ∧
      ∀ fault, ofRecord record mapping = .error fault ↔
        ∃ before name value after, record = before ++ (name, value) :: after ∧
          (∀ earlier ∈ before, Assigned mapping earlier) ∧ ¬ Assigned mapping (name, value) ∧
          fault = .invalidWhereValue name value ∧
          fault.message = "Invalid value " ++ name ++ " : " ++ value.display ++ " in where object" := by
  have hkept {x : Extraction} (hx : (Extraction.ofRecord record mapping).result = .ok x)
      (hlength : x.assignments.length = record.length) :
      ofRecord record mapping = .ok ⟨x.assignments⟩ := by
    obtain ⟨found, hfound, rfl⟩ := Extraction.ofRecord_eq_ok_iff.mp hx
    exact ofRecord_eq_ok_iff.mpr (binds_of_length_eq hfound hlength)
  have hassigns {e : Equalities} (he : ofRecord record mapping = .ok e) :
      (Extraction.ofRecord record mapping).result =
          .ok { assignments := e.params, points := [], polygons := [] } ∧
        e.params.length = record.length := by
    have hbinds := ofRecord_eq_ok_iff.mp he
    exact ⟨Extraction.ofRecord_of_binds hbinds, hbinds.length_eq.symm⟩
  refine ⟨⟨?_, ?_⟩, fun e => ⟨hassigns, fun ⟨hx, hlength⟩ => hkept hx hlength⟩, fun fault => ?_⟩
  · rintro ⟨e, he⟩
    obtain ⟨hx, hlength⟩ := hassigns he
    exact ⟨_, hx, hlength⟩
  · rintro ⟨x, hx, hlength⟩
    exact ⟨_, hkept hx hlength⟩
  · rw [ofRecord_eq_error_iff]
    constructor
    · rintro ⟨before, ⟨name, value⟩, after, hrecord, hbefore, hentry, rfl⟩
      exact ⟨before, name, value, after, hrecord, hbefore, hentry, rfl, rfl⟩
    · rintro ⟨before, name, value, after, hrecord, hbefore, hentry, rfl, -⟩
      exact ⟨before, (name, value), after, hrecord, hbefore, hentry, rfl⟩

end Where.Equalities

end TypedSql
