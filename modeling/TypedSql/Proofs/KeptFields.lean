import TypedSql.Proofs.Fates

/-!
# The fields that data keeps

Data keeps the fields whose values their types accept, in the order of the record: scalars as
assignments, points and polygons as fragments. A scalar that is not accepted never makes an extraction
fail; only the value of a point or polygon can, and the first that does is the one reported
(`Extraction.keeps_accepted_fields`). Fields that are not declared, that have no value or that are
refused do not matter, then: insertions and updates about the fields that are left are the same.
-/

namespace TypedSql

namespace Extraction

variable {mapping : Mapping} {entry : String × Value} {data : Record}

/-! ### What is kept -/

/-- A value as it is assigned to a field: a text field takes the normal form. -/
def stored : FieldType → Value → Value
  | .string, .text s => .text (Text.normalise s)
  | _, value => value

/-- The assignment of a field whose declared type accepts the value. -/
def assigned? (mapping : Mapping) (entry : String × Value) : Option (String × Value) :=
  (mapping.get? entry.1).bind fun type =>
    if type.accepts entry.2 then some (entry.1, stored type entry.2) else none

/-- The fragment of a field that is declared with a geometric type. -/
def fragment? (mapping : Mapping) (type : FieldType)
    (compile : String → Value → Except BuildError (Option String)) (entry : String × Value) :
    Option String :=
  if mapping.get? entry.1 = some type then (compile entry.1 entry.2).toOption.join else none

/-- The field is a point or a polygon, and its value is refused as one. -/
def Refused (mapping : Mapping) (entry : String × Value) (fault : BuildError) : Prop :=
  entry.2 ≠ .null ∧
    (mapping.get? entry.1 = some .point ∧ Geometry.point entry.1 entry.2 = .error fault ∨
      mapping.get? entry.1 = some .polygon ∧ Geometry.polygon entry.1 entry.2 = .error fault)

/-- The field is declared and has a value, and the value is accepted if the type is scalar. -/
def matters (mapping : Mapping) (entry : String × Value) : Bool :=
  match mapping.get? entry.1 with
  | none => false
  | some type => !entry.2.isNull && (type.isGeometry || type.accepts entry.2)

/-! ### One field -/

theorem bind?_eq_stored (type : FieldType) (value : Value) :
    Where.Equalities.bind? type value =
      if type.accepts value then some (stored type value) else none := by
  cases type with
  | string => cases value <;> rfl
  | number | datetime => rfl
  | point | polygon => rfl

theorem assigned?_eq_bind? {type : FieldType} (htype : mapping.get? entry.1 = some type) :
    assigned? mapping entry = (Where.Equalities.bind? type entry.2).map (entry.1, ·) := by
  rw [assigned?, htype, Option.bind_some, bind?_eq_stored]
  split <;> rfl

theorem assigned?_eq_none_of_isGeometry {type : FieldType}
    (htype : mapping.get? entry.1 = some type) (h : type.isGeometry = true) :
    assigned? mapping entry = none := by
  simp [assigned?, htype, FieldType.accepts_eq_false_of_isGeometry h]

/-- What a field contributes: a scalar what is assigned, a point or a polygon what it compiles to. -/
theorem result_item (mapping : Mapping) (entry : String × Value) :
    (item mapping entry.1 entry.2).result =
      match mapping.get? entry.1 with
      | none => .ok none
      | some .point => (Geometry.point entry.1 entry.2).map (Option.map .point)
      | some .polygon => (Geometry.polygon entry.1 entry.2).map (Option.map .polygon)
      | some _ => .ok ((assigned? mapping entry).map fun pair => .assignment pair.1 pair.2) := by
  have hscalar {type : FieldType} (htype : mapping.get? entry.1 = some type)
      (hgeometry : type.isGeometry = false) : (item mapping entry.1 entry.2).result =
        .ok ((assigned? mapping entry).map fun pair => .assignment pair.1 pair.2) := by
    rw [assigned?_eq_bind? htype]
    by_cases hvalue : entry.2 = .null
    · rw [hvalue, item_null htype, bind?_eq_none_iff.mpr (FieldType.accepts_null type)]
      rfl
    · rw [item_scalar htype hgeometry hvalue]
      cases Where.Equalities.bind? type entry.2 <;> rfl
  cases htype : mapping.get? entry.1 with
  | none => rw [item_unmapped htype]
  | some type =>
    cases type with
    | point => rw [item_point htype]
    | polygon => rw [item_polygon htype]
    | string | number | datetime => exact hscalar htype rfl

/-- A field fails exactly as it is refused. -/
theorem item_eq_error_iff {fault : BuildError} :
    (item mapping entry.1 entry.2).result = .error fault ↔ Refused mapping entry fault := by
  have hpoint (h : Geometry.point entry.1 entry.2 = .error fault) : entry.2 ≠ .null := by
    intro hnull
    rw [hnull] at h
    cases h
  have hpolygon (h : Geometry.polygon entry.1 entry.2 = .error fault) : entry.2 ≠ .null := by
    intro hnull
    rw [hnull] at h
    cases h
  rw [result_item]
  unfold Refused
  cases htype : mapping.get? entry.1 with
  | none => simp
  | some type =>
    cases type with
    | point => simpa [map_eq_error_iff] using hpoint
    | polygon => simpa [map_eq_error_iff] using hpolygon
    | string | number | datetime => simp

/-- A field that does not matter contributes nothing. -/
theorem item_of_matters_eq_false (h : matters mapping entry = false) :
    (item mapping entry.1 entry.2).result = .ok none := by
  unfold matters at h
  cases htype : mapping.get? entry.1 with
  | none => rw [item_unmapped htype]
  | some type =>
    by_cases hvalue : entry.2 = .null
    · rw [hvalue, item_null htype]
    · simp only [htype, Bool.and_eq_false_iff, Bool.not_eq_false', Bool.or_eq_false_iff] at h
      have hrefused : type.isGeometry = false ∧ type.accepts entry.2 = false := by
        rcases h with hnull | hrefused
        · cases hv : entry.2 with
          | null => exact absurd hv hvalue
          | _ => simp [hv, Value.isNull] at hnull
        · exact hrefused
      rw [item_scalar htype hrefused.1 hvalue, bind?_eq_none_iff.mpr hrefused.2]

/-- What a field contributes is what is kept of it. -/
theorem views_of_item_eq_ok {found : Option SetItem}
    (h : (item mapping entry.1 entry.2).result = .ok found) :
    found.bind SetItem.assignment? = assigned? mapping entry ∧
      found.bind SetItem.point? = fragment? mapping .point Geometry.point entry ∧
      found.bind SetItem.polygon? = fragment? mapping .polygon Geometry.polygon entry := by
  rw [result_item] at h
  unfold fragment?
  cases htype : mapping.get? entry.1 with
  | none =>
    rw [htype] at h
    cases h
    simp [assigned?, htype]
  | some type =>
    rw [htype] at h
    cases type with
    | point =>
      obtain ⟨fragment, hfragment, rfl⟩ := map_eq_ok_iff.mp h
      rw [assigned?_eq_none_of_isGeometry htype rfl, hfragment]
      cases fragment <;> simp [SetItem.assignment?, SetItem.point?, SetItem.polygon?, Except.toOption]
    | polygon =>
      obtain ⟨fragment, hfragment, rfl⟩ := map_eq_ok_iff.mp h
      rw [assigned?_eq_none_of_isGeometry htype rfl, hfragment]
      cases fragment <;> simp [SetItem.assignment?, SetItem.point?, SetItem.polygon?, Except.toOption]
    | string | number | datetime =>
      cases h
      cases assigned? mapping entry <;>
        simp [SetItem.assignment?, SetItem.point?, SetItem.polygon?]

/-! ### All fields -/

theorem items_eq_mapM (mapping : Mapping) (data : Record) :
    (items mapping data).result =
      (data.mapM fun entry => (item mapping entry.1 entry.2).result).map fun found =>
        found.flatMap Option.toList := by
  induction data with
  | nil => rfl
  | cons entry rest ih =>
    simp only [items, Logged.result_bind, Logged.result_pure, ih, List.mapM_cons, except_bind_def,
      except_pure_def]
    cases (item mapping entry.1 entry.2).result with
    | error fault => rfl
    | ok first => cases rest.mapM fun entry => (item mapping entry.1 entry.2).result <;> rfl

theorem exists_item_iff : (∃ found, (item mapping entry.1 entry.2).result = .ok found) ↔
    ∀ fault, ¬ Refused mapping entry fault := by
  simp only [← item_eq_error_iff]
  cases (item mapping entry.1 entry.2).result <;> simp

/-- Fields can be extracted when none of them is refused. -/
theorem exists_items_iff : (∃ found, (items mapping data).result = .ok found) ↔
    ∀ entry ∈ data, ∀ fault, ¬ Refused mapping entry fault := by
  induction data with
  | nil => exact iff_of_true ⟨[], rfl⟩ (List.forall_mem_nil _)
  | cons entry rest ih =>
    rw [List.forall_mem_cons, ← ih, ← exists_item_iff]
    simp only [items_cons_eq_ok_iff]
    constructor
    · rintro ⟨_, first, others, hfirst, hothers, rfl⟩
      exact ⟨⟨first, hfirst⟩, others, hothers⟩
    · rintro ⟨⟨first, hfirst⟩, others, hothers⟩
      exact ⟨_, first, others, hfirst, hothers, rfl⟩

/-- An extraction fails exactly at the first field that is refused. -/
theorem ofRecord_eq_error_iff {fault : BuildError} :
    (ofRecord data mapping).result = .error fault ↔ ∃ before entry after,
      data = before ++ entry :: after ∧
      (∀ earlier ∈ before, ∀ other, ¬ Refused mapping earlier other) ∧
      Refused mapping entry fault := by
  have hitems : (ofRecord data mapping).result = .error fault ↔
      (data.mapM fun entry => (item mapping entry.1 entry.2).result) = .error fault := by
    simp only [ofRecord, Logged.result_bind, Logged.result_pure, bind_eq_error_iff, items_eq_mapM,
      map_eq_error_iff, reduceCtorEq, and_false, exists_false, or_false]
  rw [hitems, mapM_eq_error_iff]
  simp only [exists_item_iff, item_eq_error_iff]

/-- A view of what the fields contribute is, in order, what it shows of each. -/
theorem filterMap_items {α : Type} {view : SetItem → Option α} {keep : String × Value → Option α}
    (hview : ∀ entry found, (item mapping entry.1 entry.2).result = .ok found →
      found.bind view = keep entry)
    {found : List SetItem} (h : (items mapping data).result = .ok found) :
    found.filterMap view = data.filterMap keep := by
  induction data generalizing found with
  | nil =>
    obtain rfl : [] = found := Except.ok.inj h
    rfl
  | cons entry rest ih =>
    obtain ⟨first, others, hfirst, hothers, rfl⟩ := items_cons_eq_ok_iff.mp h
    rw [List.filterMap_append, ih hothers, List.filterMap_cons, ← hview entry first hfirst]
    cases first with
    | none => rfl
    | some i => cases hi : view i <;> simp [hi]

/-- What the fields contribute is what is kept of them. -/
theorem ofItems_of_items_eq_ok {found : List SetItem} (h : (items mapping data).result = .ok found) :
    ofItems found =
      { assignments := data.filterMap (assigned? mapping)
        points := data.filterMap (fragment? mapping .point Geometry.point)
        polygons := data.filterMap (fragment? mapping .polygon Geometry.polygon) } := by
  unfold ofItems
  rw [filterMap_items (fun _ _ hitem => (views_of_item_eq_ok hitem).1) h,
    filterMap_items (fun _ _ hitem => (views_of_item_eq_ok hitem).2.1) h,
    filterMap_items (fun _ _ hitem => (views_of_item_eq_ok hitem).2.2) h]

/-- Fields that do not matter can be left out. -/
theorem result_items_filter (mapping : Mapping) (data : Record) :
    (items mapping (data.filter (matters mapping))).result = (items mapping data).result := by
  induction data with
  | nil => rfl
  | cons entry rest ih =>
    by_cases hmatters : matters mapping entry = true
    · rw [List.filter_cons_of_pos hmatters]
      simp only [items, Logged.result_bind, ih]
    · have hitem := item_of_matters_eq_false (Bool.eq_false_iff.mpr hmatters)
      rw [List.filter_cons_of_neg hmatters, ih]
      simp only [items, Logged.result_bind, Logged.result_pure, hitem]
      cases (items mapping rest).result <;> rfl

/-- Two records that agree on the fields that matter extract alike. -/
theorem result_ofRecord_congr {other : Record}
    (h : data.filter (matters mapping) = other.filter (matters mapping)) :
    (ofRecord data mapping).result = (ofRecord other mapping).result := by
  simp only [ofRecord, Logged.result_bind, Logged.result_pure]
  rw [← result_items_filter mapping data, h, result_items_filter]

end Extraction

namespace Builder

variable {b : Builder} {r : Request}

theorem updateParts_with_data (r : Request) (data : Record) :
    updateParts { r with data := some data } =
      (require .filter r.filter).bind fun filter =>
        (target r).map fun (mapping, table) => (data, filter, mapping, table) := by
  have htarget : target { r with data := some data } = target r := rfl
  unfold updateParts
  rw [htarget]
  cases require .filter r.filter with
  | error fault => rfl
  | ok filter => cases target r <;> rfl

/-- Statements that write data depend on it only through what it extracts to. -/
theorem result_congr_data {data other : Record} {op : Operation}
    (hop : op ∈ [.insert, .replace, .update, .advancedUpdate])
    (h : ∀ mapping, r.mapping = some mapping →
      (Extraction.ofRecord data mapping).result = (Extraction.ofRecord other mapping).result) :
    (b.build op { r with data := some data }).result =
      (b.build op { r with data := some other }).result := by
  have hset {mapping : Mapping} {table : String} (htarget : target r = .ok (mapping, table)) :
      (b.setBody mapping data).result = (b.setBody mapping other).result := by
    simp only [setBody, Logged.result_bind, Logged.result_pure,
      h mapping (target_eq_ok_iff.mp htarget).1]
  have hwrite (kind : StatementKind) : (b.write kind { r with data := some data }).result =
      (b.write kind { r with data := some other }).result := by
    have htarget (data : Record) : target { r with data := some data } = target r := rfl
    simp only [result_write, htarget, require, Except.bind]
    cases hparts : target r with
    | error fault => rfl
    | ok parts => simp only [hset hparts]
  simp only [List.mem_cons, List.not_mem_nil, or_false] at hop
  rcases hop with rfl | rfl | rfl | rfl
  · exact hwrite .insert
  · exact hwrite .replace
  · rw [result_update, result_update, updateParts_with_data, updateParts_with_data]
    cases require .filter r.filter with
    | error fault => rfl
    | ok filter =>
      cases hparts : target r with
      | error fault => rfl
      | ok parts => simp only [Except.bind, Except.map, hset hparts]
  · rw [result_advancedUpdate, result_advancedUpdate, updateParts_with_data, updateParts_with_data]
    cases require .filter r.filter with
    | error fault => rfl
    | ok filter =>
      cases hparts : target r with
      | error fault => rfl
      | ok parts => simp only [Except.bind, Except.map, hset hparts]

end Builder

namespace Extraction

/-- **Data keeps the fields that their types accept.** An extraction fails exactly when a point or a
polygon has a value that is refused, and reports the first of them; scalars never make it fail.
Otherwise its assignments are those of the scalars whose values are accepted, and its fragments those of
the points and the polygons, each in the order of the record. So two records that agree on the fields
that matter give the same statement or the same fault in every operation that writes data. -/
theorem keeps_accepted_fields (mapping : Mapping) (data : Record) :
    (∀ fault, (ofRecord data mapping).result = .error fault ↔ ∃ before entry after,
      data = before ++ entry :: after ∧
      (∀ earlier ∈ before, ∀ other, ¬ Refused mapping earlier other) ∧
      Refused mapping entry fault) ∧
    (∀ e, (ofRecord data mapping).result = .ok e ↔
      (∀ entry ∈ data, ∀ fault, ¬ Refused mapping entry fault) ∧
      e = { assignments := data.filterMap (assigned? mapping)
            points := data.filterMap (fragment? mapping .point Geometry.point)
            polygons := data.filterMap (fragment? mapping .polygon Geometry.polygon) }) ∧
    ∀ (b : Builder) (r : Request) (other : Record), (∀ declared ∈ r.mapping, declared = mapping) →
      data.filter (matters mapping) = other.filter (matters mapping) →
      ∀ op ∈ [Operation.insert, .replace, .update, .advancedUpdate],
        (b.build op { r with data := some data }).result =
          (b.build op { r with data := some other }).result := by
  refine ⟨fun fault => ofRecord_eq_error_iff, fun e => ?_, fun b r other hmapping hsame op hop => ?_⟩
  · rw [ofRecord_eq_ok_iff, ← exists_items_iff]
    constructor
    · rintro ⟨found, hfound, rfl⟩
      exact ⟨⟨found, hfound⟩, ofItems_of_items_eq_ok hfound⟩
    · rintro ⟨⟨found, hfound⟩, rfl⟩
      exact ⟨found, hfound, (ofItems_of_items_eq_ok hfound).symm⟩
  · refine Builder.result_congr_data hop fun declared hdeclared => ?_
    rw [hmapping declared hdeclared]
    exact result_ofRecord_congr hsame

/-- Only the second point is refused, and it is in front of the polygon. -/
example :
    let mapping : Mapping := ⟨[("area", .polygon), ("at", .point), ("id", .number), ("to", .point)]⟩
    (ofRecord [("id", .text "7"), ("at", .int 1), ("to", .map [("x", .null), ("y", .int 1)]),
      ("area", .int 5)] mapping).result = .error (.invalidCoordinate "to" .x .null) := by
  rfl

end Extraction

end TypedSql
