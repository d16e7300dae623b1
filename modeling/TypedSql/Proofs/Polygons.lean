import TypedSql.Proofs.ByteScan
import TypedSql.Proofs.FiniteNumbers
import TypedSql.Proofs.Steps

/-!
# Polygons from their elements

What is a coordinate, and which of two raw values is blamed when they are no corner, are said here
without reading anything (`IsCoordinate`, `Blames`). The walk along the elements stops at the first bad
one and names it by its place in the whole list (`corners_eq_error_iff`); when no element is bad it
keeps the corners of those that have both coordinates, in their order (`corners_eq_ok_iff`).
-/

namespace TypedSql.Geometry

open Decimal

/-! ### Coordinates -/

/-- A value is a coordinate: an integer, a finite number, or a text whose longest leading numeral,
behind its blanks, is a finite number. -/
inductive IsCoordinate : Value → Float → Prop where
  | int (n : Int64) : IsCoordinate (.int n) (Float.ofInt n.toInt)
  | float {x : Float} (hfinite : x.isFinite = true) : IsCoordinate (.float x) x
  | text {s : String} {p : List Char} {n : Numeral}
      (hlongest : LongestPrefix IsNumeral (Text.trimStart s.toList) p)
      (hread : Numeral.read? p = some n) (hfinite : n.toFloat.isFinite = true) :
      IsCoordinate (.text s) n.toFloat

theorem leadingNumber?_eq_some_iff {s : String} {x : Float} :
    leadingNumber? s = some x ↔
      ∃ p n, LongestPrefix IsNumeral (Text.trimStart s.toList) p ∧ Numeral.read? p = some n ∧
        n.toFloat = x := by
  simp only [leadingNumber?, Option.bind_eq_some_iff, Option.map_eq_some_iff,
    leadingNumeral_eq_some_iff, exists_and_left]

/-- **Exactly the coordinates are read as one.** -/
theorem coordinate?_eq_some_iff {v : Value} {x : Float} :
    coordinate? v = some x ↔ IsCoordinate v x := by
  simp only [coordinate?, Option.filter_eq_some_iff]
  constructor
  · rintro ⟨hnumber, hfinite⟩
    cases v with
    | int n =>
      cases hnumber
      exact .int n
    | float y =>
      cases hnumber
      exact .float hfinite
    | text s =>
      obtain ⟨p, n, hlongest, hread, rfl⟩ := leadingNumber?_eq_some_iff.mp hnumber
      exact .text hlongest hread hfinite
    | _ => cases hnumber
  · intro h
    cases h with
    | int n => exact ⟨rfl, isFinite_ofInt n⟩
    | float hfinite => exact ⟨rfl, hfinite⟩
    | text hlongest hread hfinite =>
      exact ⟨leadingNumber?_eq_some_iff.mpr ⟨_, _, hlongest, hread, rfl⟩, hfinite⟩

theorem coordinate?_eq_none_iff {v : Value} : coordinate? v = none ↔ ∀ x, ¬ IsCoordinate v x := by
  simp only [Option.eq_none_iff_forall_ne_some, ne_eq, coordinate?_eq_some_iff]

/-! ### Elements -/

/-- The values under the keys `x` and `y` of a map that has both. -/
def rawCoordinates? : Value → Option (Value × Value)
  | .map fields =>
    (Fields.get? fields "x").bind fun x => (Fields.get? fields "y").map fun y => (x, y)
  | _ => none

/-- The raw values are the coordinates of a corner. -/
def IsCorner (raw : Value × Value) (corner : Float × Float) : Prop :=
  IsCoordinate raw.1 corner.1 ∧ IsCoordinate raw.2 corner.2

/-- The axis that is blamed when raw values are no corner, and its value: the first axis comes before
the second. -/
inductive Blames (raw : Value × Value) : Axis → Value → Prop where
  | x (hx : ∀ x, ¬ IsCoordinate raw.1 x) : Blames raw .x raw.1
  | y {x : Float} (hx : IsCoordinate raw.1 x) (hy : ∀ y, ¬ IsCoordinate raw.2 y) : Blames raw .y raw.2

/-- An element is bad: it has both keys, and at least one of them without a coordinate. -/
def Bad (v : Value) : Prop :=
  ∃ raw, rawCoordinates? v = some raw ∧ ((∀ x, ¬ IsCoordinate raw.1 x) ∨ ∀ y, ¬ IsCoordinate raw.2 y)

/-- Raw values are a corner, or an axis is to blame. -/
theorem isCorner_or_blames (raw : Value × Value) :
    (∃ corner, IsCorner raw corner) ∨ ∃ axis value, Blames raw axis value := by
  by_cases hx : ∃ x, IsCoordinate raw.1 x
  · obtain ⟨x, hx⟩ := hx
    by_cases hy : ∃ y, IsCoordinate raw.2 y
    · obtain ⟨y, hy⟩ := hy
      exact .inl ⟨(x, y), hx, hy⟩
    · exact .inr ⟨_, _, .y hx (not_exists.mp hy)⟩
  · exact .inr ⟨_, _, .x (not_exists.mp hx)⟩

theorem exists_blames_iff {raw : Value × Value} :
    (∃ axis value, Blames raw axis value) ↔
      (∀ x, ¬ IsCoordinate raw.1 x) ∨ ∀ y, ¬ IsCoordinate raw.2 y := by
  constructor
  · rintro ⟨_, _, hx | ⟨-, hy⟩⟩
    · exact .inl hx
    · exact .inr hy
  · intro h
    rcases isCorner_or_blames raw with ⟨corner, hx, hy⟩ | hblames
    · exact (h.elim (· _ hx) (· _ hy)).elim
    · exact hblames

theorem bad_iff {v : Value} :
    Bad v ↔ ∃ raw axis value, rawCoordinates? v = some raw ∧ Blames raw axis value := by
  simp only [Bad, ← exists_blames_iff, exists_and_left]

/-! ### The step: one element -/

variable {name : String} {v : Value} {raw : Value × Value}

/-- The coordinates of an element, by the values under its keys. -/
theorem coordinates_eq (name : String) (v : Value) :
    coordinates name v = match rawCoordinates? v with
      | none => .ok none
      | some raw =>
        match coordinate? raw.1, coordinate? raw.2 with
        | some x, some y => .ok (some (x, y))
        | none, _ => .error (.invalidCoordinate name .x raw.1)
        | some _, none => .error (.invalidCoordinate name .y raw.2) := by
  cases v with
  | map fields =>
    simp only [coordinates, rawCoordinates?]
    cases Fields.get? fields "x" with
    | none => rfl
    | some rawX => cases Fields.get? fields "y" <;> rfl
  | _ => rfl

theorem coordinates_of_eq_none (h : rawCoordinates? v = none) : coordinates name v = .ok none := by
  rw [coordinates_eq, h]

theorem coordinates_of_isCorner (hraw : rawCoordinates? v = some raw) {corner : Float × Float}
    (h : IsCorner raw corner) : coordinates name v = .ok (some corner) := by
  have hx := coordinate?_eq_some_iff.mpr h.1
  have hy := coordinate?_eq_some_iff.mpr h.2
  simp only [coordinates_eq, hraw, hx, hy]

theorem coordinates_of_blames (hraw : rawCoordinates? v = some raw) {axis : Axis} {value : Value}
    (h : Blames raw axis value) :
    coordinates name v = .error (.invalidCoordinate name axis value) := by
  cases h with
  | x hx =>
    have hx := coordinate?_eq_none_iff.mpr hx
    simp only [coordinates_eq, hraw, hx]
  | y hx hy =>
    have hx := coordinate?_eq_some_iff.mpr hx
    have hy := coordinate?_eq_none_iff.mpr hy
    simp only [coordinates_eq, hraw, hx, hy]

/-- **What an element gives**: nothing when it lacks a key, its corner, or the blame of an axis. -/
theorem coordinates_cases (name : String) (v : Value) :
    (rawCoordinates? v = none ∧ coordinates name v = .ok none) ∨
      (∃ raw corner, rawCoordinates? v = some raw ∧ IsCorner raw corner ∧
        coordinates name v = .ok (some corner)) ∨
      ∃ raw axis value, rawCoordinates? v = some raw ∧ Blames raw axis value ∧
        coordinates name v = .error (.invalidCoordinate name axis value) := by
  cases hraw : rawCoordinates? v with
  | none => exact .inl ⟨rfl, coordinates_of_eq_none hraw⟩
  | some raw =>
    rcases isCorner_or_blames raw with ⟨corner, hcorner⟩ | ⟨axis, value, hblames⟩
    · exact .inr (.inl ⟨raw, corner, rfl, hcorner, coordinates_of_isCorner hraw hcorner⟩)
    · exact .inr (.inr ⟨raw, axis, value, rfl, hblames, coordinates_of_blames hraw hblames⟩)

theorem coordinates_eq_error_iff {e : BuildError} :
    coordinates name v = .error e ↔
      ∃ raw axis value, rawCoordinates? v = some raw ∧ Blames raw axis value ∧
        e = .invalidCoordinate name axis value := by
  constructor
  · intro h
    rcases coordinates_cases name v with ⟨-, hok⟩ | ⟨_, _, -, -, hok⟩ | ⟨raw, axis, value, hraw, hblames, he⟩
    · cases h.symm.trans hok
    · cases h.symm.trans hok
    · exact ⟨raw, axis, value, hraw, hblames, Except.error.inj (h.symm.trans he)⟩
  · rintro ⟨raw, axis, value, hraw, hblames, rfl⟩
    exact coordinates_of_blames hraw hblames

theorem exists_coordinates_eq_error_iff (name : String) (v : Value) :
    (∃ e, coordinates name v = .error e) ↔ Bad v := by
  simp only [bad_iff, coordinates_eq_error_iff]
  constructor
  · rintro ⟨e, raw, axis, value, hraw, hblames, -⟩
    exact ⟨raw, axis, value, hraw, hblames⟩
  · rintro ⟨raw, axis, value, hraw, hblames⟩
    exact ⟨_, raw, axis, value, hraw, hblames, rfl⟩

theorem exists_coordinates_eq_ok_iff (name : String) (v : Value) :
    (∃ found, coordinates name v = .ok found) ↔ ¬ Bad v := by
  rw [← exists_coordinates_eq_error_iff name]
  cases coordinates name v <;> simp

/-! ### The run: all elements -/

variable {index : Nat} {items : List Value}

theorem corners_cons_eq_error_iff {e : BuildError} :
    corners name index (v :: items) = .error e ↔
      coordinates (elementName name index) v = .error e ∨
        ¬ Bad v ∧ corners name (index + 1) items = .error e := by
  rw [← exists_coordinates_eq_ok_iff (elementName name index), corners, except_bind_def,
    bind_eq_error_iff]
  simp [except_bind_def, except_pure_def, bind_eq_error_iff]

/-- **The first bad element is blamed**, by its place among all elements. -/
theorem corners_eq_error_iff {e : BuildError} :
    corners name index items = .error e ↔
      ∃ i v, items[i]? = some v ∧ (∀ u ∈ items.take i, ¬ Bad u) ∧
        coordinates (elementName name (index + i)) v = .error e := by
  induction items generalizing index with
  | nil => simp [corners]
  | cons head rest ih =>
    rw [corners_cons_eq_error_iff, ih]
    constructor
    · rintro (hhead | ⟨hgood, i, v, hv, hbefore, he⟩)
      · exact ⟨0, head, rfl, List.forall_mem_nil _, hhead⟩
      · -- in the whole list the element stands one place further on
        refine ⟨i + 1, v, hv, List.forall_mem_cons.mpr ⟨hgood, hbefore⟩, ?_⟩
        rwa [Nat.add_right_comm] at he
    · rintro ⟨_ | i, v, hv, hbefore, he⟩
      · cases hv
        exact .inl he
      · obtain ⟨hgood, hbefore⟩ := List.forall_mem_cons.mp hbefore
        refine .inr ⟨hgood, i, v, hv, hbefore, ?_⟩
        rwa [Nat.add_right_comm]

/-- **The corners are those of the elements with both keys**, in the order of the elements. -/
theorem corners_eq_ok_iff {found : List (Float × Float)} :
    corners name index items = .ok found ↔
      List.Forall₂ IsCorner (items.filterMap rawCoordinates?) found := by
  induction items generalizing index found with
  | nil => simp [corners, eq_comm]
  | cons head rest ih =>
    rw [corners, except_bind_def, bind_eq_ok_iff]
    simp only [except_bind_def, bind_eq_ok_iff, ih, except_pure_def, Except.ok.injEq]
    -- a corner of the head is unique, because the head gives it whatever else is claimed of it
    rcases coordinates_cases (elementName name index) head with
      ⟨hraw, hok⟩ | ⟨raw, corner, hraw, hcorner, hok⟩ | ⟨raw, axis, value, hraw, hblames, herror⟩
    · rw [List.filterMap_cons_none hraw, hok]
      simp
    · rw [List.filterMap_cons_some hraw, hok, List.forall₂_cons_left_iff]
      constructor
      · rintro ⟨_, hfound, others, hothers, rfl⟩
        cases hfound
        exact ⟨corner, others, hcorner, hothers, rfl⟩
      · rintro ⟨corner', others, hcorner', hothers, rfl⟩
        cases hok.symm.trans (coordinates_of_isCorner hraw hcorner')
        exact ⟨_, rfl, others, hothers, rfl⟩
    · rw [List.filterMap_cons_some hraw, herror, List.forall₂_cons_left_iff]
      refine iff_of_false (by rintro ⟨_, hfound, -⟩; cases hfound) ?_
      rintro ⟨corner, -, hcorner, -⟩
      cases herror.symm.trans (coordinates_of_isCorner hraw hcorner)

/-- The walk fails exactly when some element is bad. -/
theorem exists_corners_eq_error_iff :
    (∃ e, corners name index items = .error e) ↔ ∃ v ∈ items, Bad v := by
  induction items generalizing index with
  | nil => simp [corners]
  | cons head rest ih =>
    simp only [corners_cons_eq_error_iff, exists_or, exists_coordinates_eq_error_iff, exists_and_left,
      ih, List.exists_mem_cons_iff]
    exact or_and_left.trans (and_iff_right (Classical.em _))

/-- **Polygons, by their elements.** A list with a bad element is refused, and the error names the first
bad one by its place in the list, with the axis that is to blame and its value. Any other list is
written as one fragment with the corners of the elements that have both keys, in the order of the list.
A null is written as nothing, and nothing else is a polygon. -/
theorem polygon_by_elements (name : String) :
    (∀ items, (∃ e, polygon name (.list items) = .error e) ↔ ∃ v ∈ items, Bad v) ∧
      (∀ items e, polygon name (.list items) = .error e ↔
        ∃ i v raw axis value, items[i]? = some v ∧ (∀ u ∈ items.take i, ¬ Bad u) ∧
          rawCoordinates? v = some raw ∧ Blames raw axis value ∧
          e = .invalidCoordinate (name ++ "[" ++ String.ofList (digits i) ++ "]") axis value) ∧
      (∀ items fragment, polygon name (.list items) = .ok fragment ↔
        ∃ found, List.Forall₂ IsCorner (items.filterMap rawCoordinates?) found ∧
          fragment = some (name ++ " = ST_GeomFromText('POLYGON(" ++ String.intercalate ","
            (found.map fun corner => floatText corner.1 ++ "  " ++ floatText corner.2) ++ ")'),")) ∧
      polygon name .null = .ok none ∧
      ∀ v, v ≠ .null → (∀ items, v ≠ .list items) → polygon name v = .error (.invalidPolygon name) := by
  refine ⟨fun items => ?_, fun items e => ?_, fun items fragment => ?_, rfl, fun v hnull hlist => ?_⟩
  · simp only [polygon, map_eq_error_iff, exists_corners_eq_error_iff]
  · simp only [polygon, map_eq_error_iff, corners_eq_error_iff, coordinates_eq_error_iff, Nat.zero_add,
      elementName, exists_and_left]
  · simp only [polygon, map_eq_ok_iff, corners_eq_ok_iff, eq_comm (b := fragment)]
    rfl
  · cases v with
    | null => exact absurd rfl hnull
    | list items => exact absurd rfl (hlist items)
    | _ => rfl

/-- The first bad element stands behind one that is skipped; without it the corner is written. -/
theorem polygon_by_elements_third :
    let skipped : Value := .map [("x", .int 1)]
    let good : Value := .map [("y", .float 2.5), ("x", .text "12.5deg")]
    let bad : Value := .map [("x", .int 1), ("y", .text "north")]
    polygon "area" (.list [skipped, good, bad, .map [("x", .null), ("y", .null)]]) =
        .error (.invalidCoordinate "area[2]" .y (.text "north")) ∧
      (∃ e, polygon "area" (.list [skipped, good, bad]) = .error e) ∧
      polygon "area" (.list [.text "none", good, skipped, good]) =
        .ok (some ("area = ST_GeomFromText('POLYGON(" ++ String.intercalate ","
          [floatText 12.5 ++ "  " ++ floatText 2.5, floatText 12.5 ++ "  " ++ floatText 2.5] ++ ")'),")) ∧
      polygon "area" (.int 1) = .error (.invalidPolygon "area") := by
  intro skipped good bad
  obtain ⟨hrefused, herror, hwritten, -, hother⟩ := polygon_by_elements "area"
  have hcorner : IsCorner (.text "12.5deg", .float 2.5) (12.5, 2.5) :=
    ⟨.text (p := "12.5".toList) (n := ⟨false, 125, -1⟩) (leadingNumeral_eq_some_iff.mp (by decide))
      (by decide) (by decide), .float (by decide)⟩
  have hnorth (y : Float) : ¬ IsCoordinate (.text "north") y :=
    coordinate?_eq_none_iff.mp (by rfl) y
  have hbad : Bad bad := ⟨(.int 1, .text "north"), rfl, .inr hnorth⟩
  have hgood {v raw corner} (hraw : rawCoordinates? v = some raw) (h : IsCorner raw corner) : ¬ Bad v := by
    rintro ⟨raw', hraw', hbad⟩
    cases hraw.symm.trans hraw'
    exact hbad.elim (· _ h.1) (· _ h.2)
  refine ⟨?_, (hrefused _).mpr ⟨bad, by simp, hbad⟩, ?_, hother _ nofun nofun⟩
  · refine (herror _ _).mpr ⟨2, bad, _, _, _, rfl, ?_, rfl, .y (.int 1) hnorth, rfl⟩
    have hskipped : ¬ Bad skipped := by
      rintro ⟨raw, hraw, -⟩
      cases hraw
    exact List.forall_mem_cons.mpr ⟨hskipped, List.forall_mem_singleton.mpr (hgood rfl hcorner)⟩
  · exact (hwritten _ _).mpr ⟨[(12.5, 2.5), (12.5, 2.5)], .cons hcorner (.cons hcorner .nil), rfl⟩

end TypedSql.Geometry
