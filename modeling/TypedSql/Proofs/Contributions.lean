import TypedSql.Extraction
import TypedSql.Proofs.Conditions

/-!
# What data contributes to a SET clause

A data field contributes an assignment, the fragment of a point or polygon, or nothing at all.
`Contributes` says which contribution a value of a type makes; a scalar is assigned in the form in which
an equality binds it.
-/

namespace TypedSql.Extraction

/-- The contribution that a value of a type makes under a name. -/
def Contributes (type : FieldType) (name : String) (value : Value) : SetItem → Prop
  | .assignment name' bound => name' = name ∧ Where.Equalities.bind? type value = some bound
  | .point fragment => type = .point ∧ Geometry.point name value = .ok (some fragment)
  | .polygon fragment => type = .polygon ∧ Geometry.polygon name value = .ok (some fragment)

variable {mapping : Mapping} {entry : String × Value} {data : Record}

/-- There is no contribution without a value. -/
theorem not_contributes_null (type : FieldType) (name : String) (i : SetItem) :
    ¬ Contributes type name .null i := by
  cases i with
  | assignment name' bound =>
    rintro ⟨-, hbind⟩
    cases type <;> simp [Where.Equalities.bind?] at hbind
  | point fragment =>
    rintro ⟨-, hpoint⟩
    cases hpoint
  | polygon fragment =>
    rintro ⟨-, hpolygon⟩
    cases hpolygon

theorem result_drop (name : String) (value : Value) (reason : DropReason) :
    (drop name value reason).result = .ok none := rfl

/-- A field contributes exactly when it is declared and its value makes a contribution. -/
theorem item_eq_ok_some_iff {name : String} {value : Value} {i : SetItem} :
    (item mapping name value).result = .ok (some i) ↔
      ∃ type, mapping.get? name = some type ∧ Contributes type name value i := by
  unfold item
  cases mapping.get? name with
  | none => simp [result_drop]
  | some type =>
    simp only [Option.some.injEq, exists_eq_left']
    split
    · next hnull =>
      obtain rfl : value = .null := by
        cases value <;> first | rfl | cases hnull
      simp [not_contributes_null]
    · cases type with
      | string =>
        cases value <;> cases i <;>
          simp [Contributes, Where.Equalities.bind?, result_drop, eq_comm]
      | number =>
        dsimp only
        split
        · next haccepts =>
          cases i <;> simp [Contributes, Where.Equalities.bind?, haccepts, eq_comm]
        · next haccepts =>
          cases i <;> simp [Contributes, Where.Equalities.bind?, haccepts, result_drop]
      | datetime =>
        dsimp only
        split
        · next haccepts =>
          cases i <;> simp [Contributes, Where.Equalities.bind?, haccepts, eq_comm]
        · next haccepts =>
          cases i <;> simp [Contributes, Where.Equalities.bind?, haccepts, result_drop]
      | point =>
        simp only [Logged.result_bind, Logged.result_ofExcept, Logged.result_pure, bind_eq_ok_iff,
          Except.ok.injEq, Option.map_eq_some_iff]
        cases i <;> simp [Contributes, Where.Equalities.bind?, eq_comm]
      | polygon =>
        simp only [Logged.result_bind, Logged.result_ofExcept, Logged.result_pure, bind_eq_ok_iff,
          Except.ok.injEq, Option.map_eq_some_iff]
        cases i <;> simp [Contributes, Where.Equalities.bind?, eq_comm]

theorem ofRecord_eq_ok_iff {e : Extraction} : (ofRecord data mapping).result = .ok e ↔
    ∃ found, (items mapping data).result = .ok found ∧ e = ofItems found := by
  simp only [ofRecord, Logged.result_bind, Logged.result_pure, bind_eq_ok_iff, Except.ok.injEq]
  simp only [eq_comm]

theorem items_cons_eq_ok_iff {found : List SetItem} :
    (items mapping (entry :: data)).result = .ok found ↔
      ∃ first others, (item mapping entry.1 entry.2).result = .ok first ∧
        (items mapping data).result = .ok others ∧ found = first.toList ++ others := by
  simp only [items, Logged.result_bind, Logged.result_pure, bind_eq_ok_iff, Except.ok.injEq]
  constructor
  · rintro ⟨first, hfirst, others, hothers, rfl⟩
    exact ⟨first, others, hfirst, hothers, rfl⟩
  · rintro ⟨first, others, hfirst, hothers, rfl⟩
    exact ⟨first, hfirst, others, hothers, rfl⟩

/-- Every contribution of a record is made by one of its fields. -/
theorem mem_items {data : Record} {found : List SetItem}
    (h : (items mapping data).result = .ok found) :
    ∀ i ∈ found, ∃ pair ∈ data, ∃ type, mapping.get? pair.1 = some type ∧
      Contributes type pair.1 pair.2 i := by
  induction data generalizing found with
  | nil =>
    obtain rfl : [] = found := by simpa [items] using h
    simp
  | cons pair rest ih =>
    simp only [items, Logged.result_bind, Logged.result_pure, bind_eq_ok_iff, Except.ok.injEq] at h
    obtain ⟨first, hfirst, others, hothers, rfl⟩ := h
    intro i hi
    rcases List.mem_append.mp hi with hi | hi
    · rw [Option.mem_toList.mp hi] at hfirst
      exact ⟨pair, by simp, item_eq_ok_some_iff.mp hfirst⟩
    · obtain ⟨pair', hmem, hitem⟩ := ih hothers i hi
      exact ⟨pair', List.mem_cons_of_mem pair hmem, hitem⟩

/-- A point of an extraction is made by a field of that type. -/
theorem mem_points {e : Extraction} (h : (ofRecord data mapping).result = .ok e) {s : String}
    (hs : s ∈ e.points) : ∃ pair ∈ data, mapping.get? pair.1 = some .point ∧
      Geometry.point pair.1 pair.2 = .ok (some s) := by
  obtain ⟨found, hfound, rfl⟩ := ofRecord_eq_ok_iff.mp h
  obtain ⟨i, hi, his⟩ := List.mem_filterMap.mp hs
  obtain ⟨pair, hpair, type, htype, hcontributes⟩ := mem_items hfound i hi
  cases i with
  | point fragment =>
    cases his
    obtain ⟨rfl, hpoint⟩ := hcontributes
    exact ⟨pair, hpair, htype, hpoint⟩
  | _ => cases his

/-- A polygon of an extraction is made by a field of that type. -/
theorem mem_polygons {e : Extraction} (h : (ofRecord data mapping).result = .ok e) {s : String}
    (hs : s ∈ e.polygons) : ∃ pair ∈ data, mapping.get? pair.1 = some .polygon ∧
      Geometry.polygon pair.1 pair.2 = .ok (some s) := by
  obtain ⟨found, hfound, rfl⟩ := ofRecord_eq_ok_iff.mp h
  obtain ⟨i, hi, his⟩ := List.mem_filterMap.mp hs
  obtain ⟨pair, hpair, type, htype, hcontributes⟩ := mem_items hfound i hi
  cases i with
  | polygon fragment =>
    cases his
    obtain ⟨rfl, hpolygon⟩ := hcontributes
    exact ⟨pair, hpair, htype, hpolygon⟩
  | _ => cases his

/-- Data that an equality binds as a where object is assigned in the form in which it is bound. -/
theorem ofRecord_of_binds {data : Record} {params : List (String × Value)}
    (h : List.Forall₂ (Where.Equalities.Binds mapping) data params) :
    (ofRecord data mapping).result =
      .ok { assignments := params, points := [], polygons := [] } := by
  have hitems : (items mapping data).result =
      .ok (params.map fun pair => .assignment pair.1 pair.2) := by
    induction h with
    | nil => rfl
    | @cons entry pair data params hbinds _ ih =>
      obtain ⟨hname, type, htype, hbind⟩ := hbinds
      have hitem : (item mapping entry.1 entry.2).result =
          .ok (some (.assignment pair.1 pair.2)) :=
        item_eq_ok_some_iff.mpr ⟨type, htype, hname, hbind⟩
      simp [items, hitem, ih, Except.bind]
  simp [ofRecord, hitems, Except.bind, ofItems, List.filterMap_map, Function.comp_def,
    SetItem.assignment?, SetItem.point?, SetItem.polygon?]

end TypedSql.Extraction
