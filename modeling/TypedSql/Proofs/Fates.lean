import TypedSql.Proofs.Contributions

/-!
# What becomes of data fields

A data field is kept as a contribution to the SET clause, or it is dropped and an event reports it, or
it is left out in silence. When a record can be extracted, each field has exactly one of these fates,
and contributions and events stand in the order of the fields. A field that has a value is silent only
as a point whose value lacks a coordinate, so all such fields are accounted for exactly when there is
no such point (`fields_accounted_iff`).
-/

namespace TypedSql

/-- A point has both coordinates, whatever they are. -/
def Geometry.HasCoordinates (v : Value) : Prop :=
  ∃ fields x y, v = .map fields ∧ Fields.get? fields "x" = some x ∧ Fields.get? fields "y" = some y

namespace Geometry

theorem coordinates_eq_ok_none_iff {name : String} {v : Value} :
    coordinates name v = .ok none ↔ ¬ HasCoordinates v := by
  unfold HasCoordinates
  cases v with
  | map fields =>
    simp only [coordinates, Value.map.injEq, exists_and_left, exists_eq_left']
    cases hx : Fields.get? fields "x" with
    | none => simp
    | some x =>
      cases hy : Fields.get? fields "y" with
      | none => simp
      | some y =>
        dsimp only
        split <;> simp
  | _ => simp [coordinates]

theorem point_eq_ok_none_iff {name : String} {v : Value} :
    point name v = .ok none ↔ ¬ HasCoordinates v := by
  rw [← coordinates_eq_ok_none_iff, point, map_eq_ok_iff]
  constructor
  · rintro ⟨found, hfound, hnone⟩
    rwa [Option.map_eq_none_iff.mp hnone] at hfound
  · intro h
    exact ⟨none, h, rfl⟩

theorem polygon_ne_ok_none {name : String} {v : Value} (h : v ≠ .null) :
    polygon name v ≠ .ok none := by
  intro hnone
  cases v with
  | null => exact h rfl
  | list items =>
    obtain ⟨found, -, hfound⟩ := map_eq_ok_iff.mp hnone
    cases hfound
  | _ => cases hnone

end Geometry

namespace Extraction

/-! ### Fates -/

/-- What becomes of a data field. -/
inductive Fate where
  /-- It contributes to the SET clause. -/
  | kept (item : SetItem)
  /-- It is dropped, and an event reports it. -/
  | reported (event : Event)
  /-- It is left out, and nothing reports it. -/
  | silent

namespace Fate

/-- The contribution of a field that is kept. -/
def item? : Fate → Option SetItem
  | .kept item => some item
  | _ => none

/-- The event on a field that is dropped. -/
def event? : Fate → Option Event
  | .reported event => some event
  | _ => none

/-- A fate is known by its contribution and its event. -/
theorem eq_of_views {f g : Fate} (hitem : f.item? = g.item?) (hevent : f.event? = g.event?) :
    f = g := by
  cases f <;> cases g <;> simp_all [item?, event?]

end Fate

/-- The reason that is given for a value that its scalar type does not accept. -/
def refusal : FieldType → DropReason
  | .string => .notText
  | _ => .typeMismatch

/-- The reason for which a field is dropped: it is not declared, or it has a value that its scalar type
does not accept. -/
def DroppedFor (mapping : Mapping) (entry : String × Value) (reason : DropReason) : Prop :=
  mapping.get? entry.1 = none ∧ reason = .unmapped ∨
    ∃ type, mapping.get? entry.1 = some type ∧ type.isGeometry = false ∧ entry.2 ≠ .null ∧
      type.accepts entry.2 = false ∧ reason = refusal type

/-- The field is a point that has a value, but not both coordinates. -/
def Overlooked (mapping : Mapping) (entry : String × Value) : Prop :=
  mapping.get? entry.1 = some .point ∧ entry.2 ≠ .null ∧ ¬ Geometry.HasCoordinates entry.2

/-- What becomes of a field under a mapping. -/
def Becomes (mapping : Mapping) (entry : String × Value) : Fate → Prop
  | .kept item => ∃ type, mapping.get? entry.1 = some type ∧ Contributes type entry.1 entry.2 item
  | .reported event => ∃ reason, event = .droppedField entry.1 entry.2.kind reason ∧
      DroppedFor mapping entry reason
  | .silent => mapping.contains entry.1 = true ∧ entry.2 = .null ∨ Overlooked mapping entry

variable {mapping : Mapping} {entry : String × Value} {data : Record}

/-! ### One field -/

theorem bind?_eq_none_iff {type : FieldType} {value : Value} :
    Where.Equalities.bind? type value = none ↔ type.accepts value = false := by
  cases type with
  | string => cases value <;> simp [Where.Equalities.bind?, FieldType.accepts]
  | number => cases h : FieldType.number.accepts value <;> simp [Where.Equalities.bind?, h]
  | datetime => cases h : FieldType.datetime.accepts value <;> simp [Where.Equalities.bind?, h]
  | point | polygon => exact iff_of_true rfl rfl

theorem item_unmapped (h : mapping.get? entry.1 = none) :
    item mapping entry.1 entry.2 = ⟨[.droppedField entry.1 entry.2.kind .unmapped], .ok none⟩ := by
  unfold item
  rw [h]
  rfl

theorem item_null {type : FieldType} (htype : mapping.get? entry.1 = some type) :
    item mapping entry.1 .null = ⟨[], .ok none⟩ := by
  unfold item
  rw [htype]
  rfl

/-- A value of a scalar type is assigned as an equality binds it, and otherwise dropped. -/
theorem item_scalar {type : FieldType} (htype : mapping.get? entry.1 = some type)
    (hscalar : type.isGeometry = false) (hvalue : entry.2 ≠ .null) :
    item mapping entry.1 entry.2 =
      match Where.Equalities.bind? type entry.2 with
      | some bound => ⟨[], .ok (some (.assignment entry.1 bound))⟩
      | none => ⟨[.droppedField entry.1 entry.2.kind (refusal type)], .ok none⟩ := by
  obtain ⟨name, value⟩ := entry
  have hnull : value.isNull = false := by
    cases value with
    | null => exact absurd rfl hvalue
    | _ => rfl
  simp only [item, htype, hnull, Bool.false_eq_true, if_false]
  cases type with
  | string => cases value <;> rfl
  | number =>
    simp only [Where.Equalities.bind?]
    split <;> rfl
  | datetime =>
    simp only [Where.Equalities.bind?]
    split <;> rfl
  | point => cases hscalar
  | polygon => cases hscalar

theorem item_point (htype : mapping.get? entry.1 = some .point) :
    item mapping entry.1 entry.2 =
      ⟨[], (Geometry.point entry.1 entry.2).map (Option.map .point)⟩ := by
  obtain ⟨name, value⟩ := entry
  cases value with
  | null => exact item_null htype
  | _ =>
    simp only [item, htype]
    exact Logged.ofExcept_bind_pure ..

theorem item_polygon (htype : mapping.get? entry.1 = some .polygon) :
    item mapping entry.1 entry.2 =
      ⟨[], (Geometry.polygon entry.1 entry.2).map (Option.map .polygon)⟩ := by
  obtain ⟨name, value⟩ := entry
  cases value with
  | null => exact item_null htype
  | _ =>
    simp only [item, htype]
    exact Logged.ofExcept_bind_pure ..

/-- A field that can be extracted has a fate. -/
theorem exists_becomes {found : Option SetItem}
    (h : (item mapping entry.1 entry.2).result = .ok found) : ∃ fate, Becomes mapping entry fate := by
  cases found with
  | some i => exact ⟨.kept i, item_eq_ok_some_iff.mp h⟩
  | none =>
    cases htype : mapping.get? entry.1 with
    | none => exact ⟨.reported _, .unmapped, rfl, .inl ⟨htype, rfl⟩⟩
    | some type =>
      by_cases hvalue : entry.2 = .null
      · exact ⟨.silent, .inl ⟨by simp [Mapping.contains, htype], hvalue⟩⟩
      · cases hgeometry : type.isGeometry with
        | false =>
          have hnone : Where.Equalities.bind? type entry.2 = none := by
            rw [item_scalar htype hgeometry hvalue] at h
            split at h
            · cases h
            · assumption
          exact ⟨.reported _, refusal type, rfl,
            .inr ⟨type, htype, hgeometry, hvalue, bind?_eq_none_iff.mp hnone, rfl⟩⟩
        | true =>
          cases type with
          | point =>
            rw [item_point htype] at h
            obtain ⟨fragment, hpoint, hnone⟩ := map_eq_ok_iff.mp h
            rw [Option.map_eq_none_iff.mp hnone] at hpoint
            exact ⟨.silent, .inr ⟨htype, hvalue, Geometry.point_eq_ok_none_iff.mp hpoint⟩⟩
          | polygon =>
            rw [item_polygon htype] at h
            obtain ⟨fragment, hpolygon, hnone⟩ := map_eq_ok_iff.mp h
            rw [Option.map_eq_none_iff.mp hnone] at hpolygon
            exact absurd hpolygon (Geometry.polygon_ne_ok_none hvalue)
          | _ => cases hgeometry

/-- The fate of a field is what its extraction gives and reports. -/
theorem item_of_becomes {fate : Fate} (h : Becomes mapping entry fate) :
    item mapping entry.1 entry.2 = ⟨fate.event?.toList, .ok fate.item?⟩ := by
  cases fate with
  | kept i =>
    obtain ⟨type, htype, hcontributes⟩ := h
    have hvalue : entry.2 ≠ .null := by
      intro hnull
      rw [hnull] at hcontributes
      exact not_contributes_null type entry.1 i hcontributes
    cases i with
    | assignment name bound =>
      obtain ⟨rfl, hbind⟩ := hcontributes
      have hscalar : type.isGeometry = false := by
        cases type with
        | point | polygon => cases hbind
        | _ => rfl
      rw [item_scalar htype hscalar hvalue, hbind]
      rfl
    | point fragment =>
      obtain ⟨rfl, hpoint⟩ := hcontributes
      rw [item_point htype, hpoint]
      rfl
    | polygon fragment =>
      obtain ⟨rfl, hpolygon⟩ := hcontributes
      rw [item_polygon htype, hpolygon]
      rfl
  | reported event =>
    obtain ⟨reason, rfl, ⟨hnone, rfl⟩ | ⟨type, htype, hscalar, hvalue, hrefused, rfl⟩⟩ := h
    · exact item_unmapped hnone
    · rw [item_scalar htype hscalar hvalue, bind?_eq_none_iff.mpr hrefused]
      rfl
  | silent =>
    rcases h with ⟨hdeclared, hnull⟩ | ⟨htype, -, hmissing⟩
    · obtain ⟨type, htype⟩ := Option.isSome_iff_exists.mp hdeclared
      rw [hnull, item_null htype]
      rfl
    · rw [item_point htype, Geometry.point_eq_ok_none_iff.mpr hmissing]
      rfl

/-- A field has at most one fate. -/
theorem Becomes.unique {f g : Fate} (hf : Becomes mapping entry f) (hg : Becomes mapping entry g) :
    f = g := by
  have h := (item_of_becomes hf).symm.trans (item_of_becomes hg)
  rw [Logged.mk.injEq, Except.ok.injEq] at h
  refine Fate.eq_of_views h.2 ?_
  have hevents := congrArg List.head? h.1
  simpa only [Option.head?_toList] using hevents

/-- A field that has a value is silent exactly as a point without both coordinates. -/
theorem Becomes.silent_iff {fate : Fate} (h : Becomes mapping entry fate) (hvalue : entry.2 ≠ .null) :
    fate = .silent ↔ Overlooked mapping entry := by
  constructor
  · rintro rfl
    rcases h with ⟨-, hnull⟩ | hoverlooked
    · exact absurd hnull hvalue
    · exact hoverlooked
  · intro hoverlooked
    exact h.unique (g := .silent) (.inr hoverlooked)

/-! ### All fields -/

/-- The fates of fields are what their extraction gives and reports, in order. -/
theorem items_of_becomes {fates : List Fate} (h : List.Forall₂ (Becomes mapping) data fates) :
    items mapping data = ⟨fates.filterMap Fate.event?, .ok (fates.filterMap Fate.item?)⟩ := by
  induction h with
  | nil => rfl
  | @cons entry fate data fates hfate _ ih =>
    have hitems : items mapping (entry :: data) = ⟨fate.event?.toList ++ (fates.filterMap Fate.event? ++ []),
        .ok (fate.item?.toList ++ fates.filterMap Fate.item?)⟩ := by
      simp only [items, item_of_becomes hfate, ih]
      rfl
    rw [hitems, List.append_nil]
    cases fate <;> rfl

/-- Fields that can be extracted have their fates. -/
theorem exists_fates {found : List SetItem} (h : (items mapping data).result = .ok found) :
    ∃ fates, List.Forall₂ (Becomes mapping) data fates := by
  induction data generalizing found with
  | nil => exact ⟨[], .nil⟩
  | cons entry rest ih =>
    obtain ⟨first, others, hfirst, hothers, -⟩ := items_cons_eq_ok_iff.mp h
    obtain ⟨fate, hfate⟩ := exists_becomes hfirst
    obtain ⟨fates, hfates⟩ := ih hothers
    exact ⟨fate :: fates, .cons hfate hfates⟩

/-- Fields have at most one list of fates. -/
theorem fates_unique {fates others : List Fate} (h : List.Forall₂ (Becomes mapping) data fates)
    (hothers : List.Forall₂ (Becomes mapping) data others) : others = fates :=
  List.right_unique_forall₂' (fun _ _ _ hf hg => hf.unique hg) hothers h

/-- No field with a value is silent exactly when no field is a point without both coordinates. -/
theorem forall_not_silent_iff {fates : List Fate} (h : List.Forall₂ (Becomes mapping) data fates) :
    List.Forall₂ (fun entry fate => entry.2 ≠ .null → fate ≠ .silent) data fates ↔
      ∀ entry ∈ data, ¬ Overlooked mapping entry := by
  induction h with
  | nil => simp
  | @cons entry fate data fates hfate _ ih =>
    rw [List.forall₂_cons, List.forall_mem_cons, ih]
    refine and_congr_left' ⟨?_, ?_⟩
    · intro hnot hoverlooked
      exact hnot hoverlooked.2.1 ((hfate.silent_iff hoverlooked.2.1).mpr hoverlooked)
    · intro hnot hvalue hsilent
      exact hnot ((hfate.silent_iff hvalue).mp hsilent)

/-- **Every field has one fate**: the fields of a record that can be extracted are kept, reported or
silent, each in one way; the extraction has what is kept, and the events are those that are reported, in
the order of the fields. All fields with a value are accounted for exactly when none of them is a point
without both coordinates. -/
theorem fields_accounted_iff {mapping : Mapping} {data : Record} {e : Extraction}
    (h : (ofRecord data mapping).result = .ok e) :
    ∃ fates, List.Forall₂ (Becomes mapping) data fates ∧
      (∀ others, List.Forall₂ (Becomes mapping) data others → others = fates) ∧
      e = ofItems (fates.filterMap Fate.item?) ∧
      (ofRecord data mapping).events = fates.filterMap Fate.event? ∧
      (List.Forall₂ (fun entry fate => entry.2 ≠ .null → fate ≠ .silent) data fates ↔
        ∀ entry ∈ data, ¬ Overlooked mapping entry) := by
  obtain ⟨found, hfound, rfl⟩ := ofRecord_eq_ok_iff.mp h
  obtain ⟨fates, hfates⟩ := exists_fates hfound
  have hitems := items_of_becomes hfates
  have hkept : fates.filterMap Fate.item? = found := by
    rw [hitems] at hfound
    exact Except.ok.inj hfound
  have hevents : (ofRecord data mapping).events = fates.filterMap Fate.event? := by
    rw [ofRecord, Logged.events_bind_of_ok hfound, Logged.events_pure, hitems, List.append_nil]
  exact ⟨fates, hfates, fun others => fates_unique hfates, by rw [hkept], hevents,
    forall_not_silent_iff hfates⟩

/-- A record with a field of every fate, among them a point with one coordinate. -/
theorem fields_accounted_iff_incomplete_point :
    let mapping : Mapping := ⟨[("at", .point), ("id", .number), ("name", .string), ("note", .string)]⟩
    let data : Record := [("id", .int 7), ("ghost", .null), ("name", .int 3),
      ("at", .map [("x", .int 1)]), ("note", .null)]
    let e : Extraction := { assignments := [("id", .int 7)], points := [], polygons := [] }
    (ofRecord data mapping).result = .ok e ∧
      (ofRecord data mapping).events =
        [.droppedField "ghost" .null .unmapped, .droppedField "name" .int .notText] ∧
      ∃ fates, List.Forall₂ (Becomes mapping) data fates ∧
        (∀ others, List.Forall₂ (Becomes mapping) data others → others = fates) ∧
        e = ofItems (fates.filterMap Fate.item?) ∧
        (ofRecord data mapping).events = fates.filterMap Fate.event? ∧
        (List.Forall₂ (fun entry fate => entry.2 ≠ .null → fate ≠ .silent) data fates ↔
          ∀ entry ∈ data, ¬ Overlooked mapping entry) :=
  ⟨rfl, rfl, fields_accounted_iff rfl⟩

/-- A number in the place of a point is neither assigned nor reported. -/
theorem point_without_coordinates_unreported :
    ¬ ∀ (mapping : Mapping) (data : Record) (e : Extraction),
      (ofRecord data mapping).result = .ok e → ∀ entry ∈ data, entry.2 ≠ .null →
        (∃ bound, (entry.1, bound) ∈ e.assignments) ∨
          (∃ fragment ∈ e.points ++ e.polygons, entry.1.toList <+: fragment.toList) ∨
          ∃ reason, .droppedField entry.1 entry.2.kind reason ∈ (ofRecord data mapping).events := by
  intro hall
  have haccounted := hall ⟨[("location", .point)]⟩ [("location", .int 5)]
    { assignments := [], points := [], polygons := [] } rfl ("location", .int 5) (by simp) (by simp)
  have hevents : (ofRecord [("location", .int 5)] ⟨[("location", .point)]⟩).events = [] := rfl
  rw [hevents] at haccounted
  simp at haccounted

end Extraction

end TypedSql
