import TypedSql.Proofs.Writing

/-!
# The body of a SET clause, item by item

Points and polygons are written as fragments that bring a comma with them, scalar assignments are joined
by commas, and the comma of the last fragment is taken off when nothing follows it. What comes out is the
items in order with a separator between any two of them (`Extraction.set_body_separated`). This rests on
the form of the fragments: each ends with a parenthesis and one comma (`Geometry.Terminated`).
-/

namespace TypedSql

/-! ### Fragments -/

namespace Geometry

/-- The text ends with a parenthesis and one comma behind it. -/
def Terminated (s : String) : Prop :=
  ∃ t, s = t ++ "," ∧ t.toList.getLast? = some ')'

theorem getLast?_append_parenthesis (s t : String) :
    (s ++ (t ++ ")")).toList.getLast? = some ')' := by
  rw [← String.append_assoc, String.toList_append]
  exact List.getLast?_concat

theorem terminated_point {name : String} {v : Value} {s : String}
    (h : point name v = .ok (some s)) : Terminated s := by
  obtain ⟨x, y, -, rfl⟩ := point_eq_ok_iff.mp h
  unfold pointTail
  exact ⟨_, rfl, getLast?_append_parenthesis name _⟩

theorem terminated_polygon {name : String} {v : Value} {s : String}
    (h : polygon name v = .ok (some s)) : Terminated s := by
  obtain ⟨items, found, -, -, rfl⟩ := polygon_eq_ok_iff.mp h
  unfold polygonTail
  exact ⟨_, rfl, getLast?_append_parenthesis name _⟩

/-- Terminated texts are other texts with a comma behind each. -/
theorem exists_eq_map_of_terminated {fragments : List String} (h : ∀ s ∈ fragments, Terminated s) :
    ∃ texts : List String, fragments = texts.map (· ++ ",") ∧
      ∀ t ∈ texts, t.toList.getLast? = some ')' := by
  induction fragments with
  | nil => exact ⟨[], rfl, List.forall_mem_nil _⟩
  | cons s rest ih =>
    obtain ⟨⟨t, rfl, ht⟩, hrest⟩ := List.forall_mem_cons.mp h
    obtain ⟨texts, rfl, htexts⟩ := ih hrest
    exact ⟨t :: texts, rfl, List.forall_mem_cons.mpr ⟨ht, htexts⟩⟩

end Geometry

/-! ### Items -/

/-- An item of the body of a SET clause. -/
inductive BodyItem where
  /-- A point or a polygon, without a comma. -/
  | geometry (text : String)
  /-- A scalar assignment. -/
  | scalar (text : String)

namespace BodyItem

/-- The text of an item. -/
def text : BodyItem → String
  | .geometry text | .scalar text => text

/-- What stands between an item and the next one. -/
def separator : BodyItem → String
  | .geometry _ => ","
  | .scalar _ => ", "

/-- The items in order, with a separator between any two of them. -/
def render : List BodyItem → String
  | [] => ""
  | [i] => i.text
  | i :: next :: rest => i.text ++ (i.separator ++ render (next :: rest))

theorem render_cons {i : BodyItem} {items : List BodyItem} (h : items ≠ []) :
    render (i :: items) = i.text ++ (i.separator ++ render items) := by
  obtain ⟨next, rest, rfl⟩ := List.exists_cons_of_ne_nil h
  rfl

/-- In front of other items each item brings its separator with it. -/
theorem render_append (before : List BodyItem) {items : List BodyItem} (h : items ≠ []) :
    render (before ++ items) =
      String.join (before.map fun i => i.text ++ i.separator) ++ render items := by
  induction before with
  | nil => simp
  | cons i before ih =>
    rw [List.cons_append, render_cons (List.append_ne_nil_of_right_ne_nil before h), ih]
    simp [String.append_assoc]

example : render [.geometry "p = POINT(3,4)", .scalar "a = 1", .scalar "b = 2"] =
    "p = POINT(3,4),a = 1, b = 2" := rfl

theorem render_scalars (texts : List String) :
    render (texts.map .scalar) = String.intercalate ", " texts := by
  induction texts with
  | nil => rfl
  | cons t rest ih =>
    cases rest with
    | nil => rfl
    | cons u rest =>
      rw [String.intercalate_cons_cons, ← ih, String.append_assoc]
      rfl

theorem render_eq_empty_iff {items : List BodyItem} (h : ∀ i ∈ items, i.text ≠ "") :
    render items = "" ↔ items = [] := by
  cases items with
  | nil => simp [render]
  | cons i rest =>
    have hi := h i List.mem_cons_self
    cases rest <;> simp [render, hi]

end BodyItem

/-! ### The body -/

namespace Extraction

open BodyItem

variable {data : Record} {mapping : Mapping} {e : Extraction}

theorem terminated_of_mem_points (h : (ofRecord data mapping).result = .ok e) :
    ∀ s ∈ e.points, Geometry.Terminated s := by
  intro s hs
  obtain ⟨pair, -, -, hpoint⟩ := mem_points h hs
  exact Geometry.terminated_point hpoint

theorem terminated_of_mem_polygons (h : (ofRecord data mapping).result = .ok e) :
    ∀ s ∈ e.polygons, Geometry.Terminated s := by
  intro s hs
  obtain ⟨pair, -, -, hpolygon⟩ := mem_polygons h hs
  exact Geometry.terminated_polygon hpolygon

/-- Fragments with a comma each are the fragments and their separators. -/
theorem join_map_comma (texts : List String) :
    String.join (texts.map (· ++ ",")) =
      String.join ((texts.map BodyItem.geometry).map fun i => i.text ++ i.separator) := by
  rw [List.map_map]
  rfl

/-- The last comma that is dropped is no separator: nothing follows it. -/
theorem dropLastComma_join (texts : List String) :
    dropLastComma (String.join (texts.map (· ++ ","))) = render (texts.map .geometry) := by
  rcases List.eq_nil_or_concat' texts with rfl | ⟨init, last, rfl⟩
  · rfl
  · have hjoin : String.join ((init ++ [last]).map (· ++ ",")) =
        String.join (init.map (· ++ ",")) ++ last ++ "," := by
      simp [String.append_assoc]
    rw [hjoin, dropLastComma_append, join_map_comma, List.map_append, render_append _ (by simp)]
    rfl

/-- The body is rendered from its items, when each fragment has a comma. -/
theorem setBody_eq_render (d : Dialect) {texts : List String}
    (h : e.points ++ e.polygons = texts.map (· ++ ",")) :
    e.setBody d = render (texts.map .geometry ++ (e.assignments.map d.assignment).map .scalar) := by
  simp only [setBody, h, List.isEmpty_iff]
  split
  · next hnone => rw [dropLastComma_join, hnone, List.map_nil, List.map_nil, List.append_nil]
  · next hsome =>
    rw [render_append _ (by simpa using hsome), join_map_comma, render_scalars]
    rfl

theorem assignment_ne_empty (d : Dialect) (pair : String × Value) : d.assignment pair ≠ "" := by
  simp [Dialect.assignment]

/-- **The body of a SET clause is its items, properly separated.** The points come first, then the
polygons, then the scalar assignments. Each fragment is an item and one comma, and the item has none at
its end. A comma follows each point and polygon that is followed by anything, a comma and a blank follow
each scalar that is followed by another, and nothing stands in front of the first item or behind the last
one. So the body is empty exactly when nothing is assigned. -/
theorem set_body_separated {data : Record} {mapping : Mapping} {e : Extraction}
    (h : (ofRecord data mapping).result = .ok e) (d : Dialect) :
    (∃ points polygons : List String,
        e.points = points.map (· ++ ",") ∧ e.polygons = polygons.map (· ++ ",") ∧
        (∀ t ∈ points ++ polygons, t.toList.getLast? = some ')') ∧
        e.setBody d = render (points.map .geometry ++ (polygons.map .geometry ++
          e.assignments.map fun pair => .scalar (d.identifier pair.1 ++ " = " ++ d.literal pair.2)))) ∧
      (e.setBody d = "" ↔ e.points = [] ∧ e.polygons = [] ∧ e.assignments = []) ∧
      (e.setBody d = "" ↔ e.isEmpty = true) := by
  obtain ⟨points, hpoints, hp⟩ :=
    Geometry.exists_eq_map_of_terminated (terminated_of_mem_points h)
  obtain ⟨polygons, hpolygons, hq⟩ :=
    Geometry.exists_eq_map_of_terminated (terminated_of_mem_polygons h)
  have hends : ∀ t ∈ points ++ polygons, t.toList.getLast? = some ')' :=
    List.forall_mem_append.mpr ⟨hp, hq⟩
  have hbody : e.setBody d =
      render ((points ++ polygons).map .geometry ++ (e.assignments.map d.assignment).map .scalar) :=
    setBody_eq_render d (by rw [hpoints, hpolygons, List.map_append])
  have hempty : e.setBody d = "" ↔ e.points = [] ∧ e.polygons = [] ∧ e.assignments = [] := by
    have hne : ∀ i ∈ (points ++ polygons).map BodyItem.geometry ++
        (e.assignments.map d.assignment).map BodyItem.scalar, i.text ≠ "" := by
      intro i hi
      rcases List.mem_append.mp hi with hi | hi
      · obtain ⟨t, ht, rfl⟩ := List.mem_map.mp hi
        rintro rfl
        cases hends "" ht
      · obtain ⟨t, ht, rfl⟩ := List.mem_map.mp hi
        obtain ⟨pair, -, rfl⟩ := List.mem_map.mp ht
        exact assignment_ne_empty d pair
    rw [hbody, render_eq_empty_iff hne]
    simp [hpoints, hpolygons]
  refine ⟨⟨points, polygons, hpoints, hpolygons, hends, ?_⟩, hempty, ?_⟩
  · rw [hbody, List.map_append, List.append_assoc, List.map_map]
    rfl
  · rw [hempty]
    simp [isEmpty, and_comm, and_left_comm]

/-- Fields of all sorts, in an order of their own. -/
theorem set_body_separated_all_sorts :
    let mapping := Mapping.ofPairs
      [("id", .number), ("area", .polygon), ("spot", .point), ("name", .string)]
    let data : Record := [("id", .int 7), ("area", .list []),
      ("spot", .map [("x", .int 3), ("y", .int 4)]), ("name", .text "Ann")]
    let e : Extraction :=
      { assignments := [("id", .int 7), ("name", .text "Ann")]
        points := ["spot = POINT(3,4),"]
        polygons := ["area = ST_GeomFromText('POLYGON()'),"] }
    (ofRecord data mapping).result = .ok e ∧ e.setBody .mySql ≠ "" ∧
      ∃ points polygons : List String,
        e.points = points.map (· ++ ",") ∧ e.polygons = polygons.map (· ++ ",") ∧
        e.setBody .mySql = render (points.map .geometry ++ (polygons.map .geometry ++
          [.scalar "`id` = 7", .scalar "`name` = 'Ann'"])) := by
  intro mapping data e
  have hextracted : (ofRecord data mapping).result = .ok e := rfl
  obtain ⟨⟨points, polygons, hpoints, hpolygons, -, hbody⟩, hempty, -⟩ :=
    set_body_separated hextracted .mySql
  refine ⟨hextracted, ?_, points, polygons, hpoints, hpolygons, hbody⟩
  rw [ne_eq, hempty]
  simp [e]

end Extraction

end TypedSql
