import TypedSql.Proofs.Contributions
import TypedSql.Proofs.Reading

/-!
# Insertions and updates are single statements where names are

The scalar assignments and the where clause of an insertion or an update are fragments, like those of
other statements. The fragments of points and polygons are not: the name of the field stands in them as
it is, without quotes. So the statements about some fields are single exactly when the names of the
points and polygons among them are (`Builder.writing_statement_single_iff`).
-/

namespace TypedSql

open Scan

/-! ### Fragments of points and polygons -/

namespace Geometry

/-- What follows the name in the fragment of a point, without the comma. -/
def pointTail (x y : Float) : String :=
  " = POINT(" ++ Decimal.floatText x ++ "," ++ Decimal.floatText y ++ ")"

/-- What a polygon says in quotes. -/
def ringText (found : List (Float × Float)) : String :=
  "POLYGON(" ++ String.intercalate "," (found.map cornerText) ++ ")"

/-- What follows the name in the fragment of a polygon, without the comma. -/
def polygonTail (found : List (Float × Float)) : String :=
  " = ST_GeomFromText(" ++ ("'" ++ ringText found ++ "'") ++ ")"

/-- A point is written as its name and its tail. -/
theorem point_eq_ok_iff {name : String} {v : Value} {s : String} :
    point name v = .ok (some s) ↔
      ∃ x y, coordinates name v = .ok (some (x, y)) ∧ s = name ++ pointTail x y ++ "," := by
  have htext (x y : Float) : name ++ " = POINT(" ++ Decimal.floatText x ++ "," ++ Decimal.floatText y
      ++ ")," = name ++ pointTail x y ++ "," := by
    unfold pointTail
    simp only [String.append_assoc]
    congr 5
  rw [point, map_eq_ok_iff]
  constructor
  · rintro ⟨found, hfound, hs⟩
    obtain ⟨⟨x, y⟩, rfl, rfl⟩ := Option.map_eq_some_iff.mp hs
    exact ⟨x, y, hfound, htext x y⟩
  · rintro ⟨x, y, hfound, rfl⟩
    exact ⟨some (x, y), hfound, congrArg some (htext x y)⟩

/-- A polygon is written as its name and its tail. -/
theorem polygon_eq_ok_iff {name : String} {v : Value} {s : String} :
    polygon name v = .ok (some s) ↔
      ∃ items found, v = .list items ∧ corners name 0 items = .ok found ∧
        s = name ++ polygonTail found ++ "," := by
  have htext (found : List (Float × Float)) : name ++ " = ST_GeomFromText('POLYGON("
      ++ String.intercalate "," (found.map cornerText) ++ ")')," =
        name ++ polygonTail found ++ "," := by
    have hhead : " = ST_GeomFromText('POLYGON(".toList =
        " = ST_GeomFromText(".toList ++ ("'".toList ++ "POLYGON(".toList) := by decide
    have hend : ")'),".toList = ")".toList ++ ("'".toList ++ (")".toList ++ ",".toList)) := by decide
    unfold polygonTail ringText
    rw [← String.toList_inj]
    simp only [String.toList_append]
    rw [hhead, hend]
    simp only [List.append_assoc]
  cases v with
  | list items =>
    rw [polygon, map_eq_ok_iff]
    constructor
    · rintro ⟨found, hfound, hs⟩
      exact ⟨items, found, rfl, hfound, (Option.some.inj hs).symm.trans (htext found)⟩
    · rintro ⟨_, found, hitems, hfound, rfl⟩
      cases hitems
      exact ⟨found, hfound, congrArg some (htext found)⟩
  | _ => simp [polygon]

theorem fragment_pointTail (x y : Float) : Fragment (pointTail x y) := by
  have hopen : Fragment " = POINT(" := by decide
  exact (((hopen.append (Decimal.fragment_floatText x)).append (by decide)).append
    (Decimal.fragment_floatText y)).append (by decide)

/-- The characters of a corner do not end the quotes around them. -/
theorem quotable_of_mem_cornerText {corner : Float × Float} {c : Char}
    (h : c ∈ (cornerText corner).toList) : Quotable c := by
  have hsigns : ∀ d ∈ ['-', '.', 'N', 'a', 'i', 'n', 'f'], Quotable d :=
    List.all_iff_forall_prop.mp (by decide)
  have hnumber (x : Float) (hc : c ∈ (Decimal.floatText x).toList) : Quotable c := by
    rcases Decimal.mem_floatText hc with hdigit | hsign
    · exact quotable_of_isAlphanum (by simp [Char.isAlphanum, hdigit])
    · exact hsigns c hsign
  simp only [cornerText, String.toList_append, List.mem_append] at h
  rcases h with (h | h) | h
  · exact hnumber _ h
  · have hblanks : ∀ d ∈ "  ".toList, Quotable d :=
      List.all_iff_forall_prop.mp (by decide)
    exact hblanks c h
  · exact hnumber _ h

theorem mem_intercalate {separator : String} {texts : List String} {c : Char}
    (h : c ∈ (String.intercalate separator texts).toList) :
    c ∈ separator.toList ∨ ∃ s ∈ texts, c ∈ s.toList := by
  induction texts with
  | nil => cases h
  | cons s rest ih =>
    cases rest with
    | nil => exact .inr ⟨s, by simp, by simpa using h⟩
    | cons t rest =>
      rw [String.intercalate_cons_cons, String.toList_append, String.toList_append, List.mem_append,
        List.mem_append] at h
      rcases h with (h | h) | h
      · exact .inr ⟨s, by simp, h⟩
      · exact .inl h
      · rcases ih h with h | ⟨u, hu, h⟩
        · exact .inl h
        · exact .inr ⟨u, List.mem_cons_of_mem s hu, h⟩

theorem quotable_of_mem_ringText {found : List (Float × Float)} {c : Char}
    (h : c ∈ (ringText found).toList) : Quotable c := by
  have hhead : ∀ d ∈ "POLYGON(".toList, Quotable d :=
    List.all_iff_forall_prop.mp (by decide)
  have hcomma : ∀ d ∈ ",".toList, Quotable d :=
    List.all_iff_forall_prop.mp (by decide)
  have hend : ∀ d ∈ ")".toList, Quotable d :=
    List.all_iff_forall_prop.mp (by decide)
  simp only [ringText, String.toList_append, List.mem_append] at h
  rcases h with (h | h) | h
  · exact hhead c h
  · rcases mem_intercalate h with h | ⟨s, hs, h⟩
    · exact hcomma c h
    · obtain ⟨corner, -, rfl⟩ := List.mem_map.mp hs
      exact quotable_of_mem_cornerText h
  · exact hend c h

theorem fragment_polygonTail (found : List (Float × Float)) : Fragment (polygonTail found) := by
  have hopen : Fragment " = ST_GeomFromText(" := by decide
  have hring : Fragment ("'" ++ ringText found ++ "'") :=
    fragment_of_quotable fun _ => quotable_of_mem_ringText
  exact (hopen.append hring).append (by decide)

/-- Behind a single name the fragments of points and polygons are fragments with a comma. -/
theorem point_eq_fragment {name : String} {v : Value} {s : String} (hname : Single name)
    (h : point name v = .ok (some s)) : ∃ t, Fragment t ∧ s = t ++ "," := by
  obtain ⟨x, y, -, rfl⟩ := point_eq_ok_iff.mp h
  have hopen : " = POINT(".toList.head? = some ' ' := by decide
  have hhead : (pointTail x y).toList.head? = some ' ' := by
    unfold pointTail
    rw [String.append_assoc, String.append_assoc, String.append_assoc, String.toList_append,
      List.head?_append, hopen, Option.some_or]
  exact ⟨_, hname.append_fragment (fragment_pointTail x y) ⟨' ', hhead, by decide, by decide⟩, rfl⟩

theorem polygon_eq_fragment {name : String} {v : Value} {s : String} (hname : Single name)
    (h : polygon name v = .ok (some s)) : ∃ t, Fragment t ∧ s = t ++ "," := by
  obtain ⟨items, found, -, -, rfl⟩ := polygon_eq_ok_iff.mp h
  have hopen : " = ST_GeomFromText(".toList.head? = some ' ' := by decide
  have hhead : (polygonTail found).toList.head? = some ' ' := by
    unfold polygonTail
    rw [String.append_assoc, String.toList_append, List.head?_append, hopen, Option.some_or]
  exact ⟨_, hname.append_fragment (fragment_polygonTail found) ⟨' ', hhead, by decide, by decide⟩, rfl⟩

end Geometry

/-! ### The body of a SET clause -/

namespace Extraction

theorem dropLastComma_append (t : String) : dropLastComma (t ++ ",") = t := by
  have hlist : (t ++ ",").toList = t.toList ++ [','] := String.toList_append
  unfold dropLastComma
  rw [hlist, if_pos List.getLast?_concat, List.dropLast_concat, String.ofList_toList]

/-- Fragments with a comma each are a fragment when they are joined and the last comma is dropped. -/
theorem fragment_dropLastComma {parts : List String}
    (h : ∀ s ∈ parts, ∃ t, Fragment t ∧ s = t ++ ",") :
    Fragment (dropLastComma (String.join parts)) := by
  rcases List.eq_nil_or_concat' parts with rfl | ⟨init, last, rfl⟩
  · decide
  · obtain ⟨t, ht, rfl⟩ := h last (by simp)
    have hinit : Fragment (String.join init) := by
      refine .join fun s hs => ?_
      obtain ⟨t', ht', rfl⟩ := h s (by simp [hs])
      exact ht'.append (by decide)
    have hjoin : String.join (init ++ [t ++ ","]) = String.join init ++ t ++ "," := by
      simp [String.append_assoc]
    rw [hjoin, dropLastComma_append]
    exact hinit.append ht

/-- The body of a SET clause is a fragment when the names of the points and polygons are single. -/
theorem fragment_setBody {mapping : Mapping} {data : Record} {e : Extraction}
    (h : (ofRecord data mapping).result = .ok e)
    (hnames : ∀ pair ∈ data, ∀ type, mapping.get? pair.1 = some type → type.isGeometry = true →
      Single pair.1) : Fragment (e.setBody .mySql) := by
  have hparts : ∀ s ∈ e.points ++ e.polygons, ∃ t, Fragment t ∧ s = t ++ "," := by
    intro s hs
    rcases List.mem_append.mp hs with hs | hs
    · obtain ⟨pair, hpair, htype, hpoint⟩ := mem_points h hs
      exact Geometry.point_eq_fragment (hnames pair hpair .point htype rfl) hpoint
    · obtain ⟨pair, hpair, htype, hpolygon⟩ := mem_polygons h hs
      exact Geometry.polygon_eq_fragment (hnames pair hpair .polygon htype rfl) hpolygon
  unfold setBody
  dsimp only
  split
  · exact fragment_dropLastComma hparts
  · refine Fragment.append (.join fun s hs => ?_) (MySql.fragment_assignments _)
    obtain ⟨t, ht, rfl⟩ := hparts s hs
    exact ht.append (by decide)

end Extraction

namespace Builder

/-! ### Statements -/

/-- The operations that assign data. -/
def writing : List Operation := [.insert, .replace, .update, .advancedUpdate]

theorem fragment_setBody {settings : Settings} {mapping : Mapping} {data : Record} {set : String}
    (hnames : ∀ pair ∈ data, ∀ type, mapping.get? pair.1 = some type → type.isGeometry = true →
      Single pair.1)
    (h : ((Builder.mk .mySql settings).setBody mapping data).result = .ok set) : Fragment set := by
  simp only [setBody, Logged.result_bind, Logged.result_pure, bind_eq_ok_iff, Except.ok.injEq] at h
  obtain ⟨e, he, rfl⟩ := h
  exact Extraction.fragment_setBody he hnames

/-- A writing statement is single when the names of its points and polygons are. -/
theorem writing_statement_single {settings : Settings} {r : Request} {mapping : Mapping}
    {data : Record} {sql : String} {op : Operation} (hop : op ∈ writing)
    (hmapping : r.mapping = some mapping) (hdata : r.data = some data)
    (hnames : ∀ pair ∈ data, ∀ type, mapping.get? pair.1 = some type → type.isGeometry = true →
      Single pair.1)
    (h : ((Builder.mk .mySql settings).build op r).result = .ok sql) : Single sql := by
  have hparts {data' : Record} {mapping' : Mapping} {table : String} (hdata' : r.data = some data')
      (htarget : target r = .ok (mapping', table)) : data' = data ∧ mapping' = mapping := by
    obtain ⟨hmapping', -, -⟩ := target_eq_ok_iff.mp htarget
    exact ⟨Option.some.inj (hdata'.symm.trans hdata), Option.some.inj (hmapping'.symm.trans hmapping)⟩
  have hwrite (kind : StatementKind) (hkind : Fragment kind.keyword)
      (h : ((Builder.mk .mySql settings).write kind r).result = .ok sql) : Single sql := by
    obtain ⟨data', mapping', table, set, hdata', htarget, hset, rfl⟩ := write_eq_ok_iff.mp h
    obtain ⟨rfl, rfl⟩ := hparts hdata' htarget
    exact ((((hkind.append (by decide)).append (fragment_table htarget)).append (by decide)).append
      (fragment_setBody hnames hset)).toSingle
  have hupdate (hop : op = .update ∨ op = .advancedUpdate) : Single sql := by
    obtain ⟨data', filter, mapping', table, set, clause, hdata', -, htarget, hset, hclause, rfl⟩ :=
      (update_eq_ok_iff hop).mp h
    obtain ⟨rfl, rfl⟩ := hparts hdata' htarget
    have hkeyword : Fragment "UPDATE " := by decide
    exact (((((hkeyword.append (fragment_table htarget)).append (by decide)).append
      (fragment_setBody hnames hset)).append (by decide)).append (fragment_clauseOf hclause)).toSingle
  simp only [writing, List.mem_cons, List.not_mem_nil, or_false] at hop
  rcases hop with rfl | rfl | rfl | rfl
  · exact hwrite .insert (by decide) h
  · exact hwrite .replace (by decide) h
  · exact hupdate (.inl rfl)
  · exact hupdate (.inr rfl)

/-- A single point or polygon is the whole body, without its comma. -/
theorem setBody_singleton (b : Builder) {mapping : Mapping} {name t : String} {value : Value}
    {i : SetItem} (hitem : (Extraction.item mapping name value).result = .ok (some i))
    (hi : i = .point (t ++ ",") ∨ i = .polygon (t ++ ",")) :
    (b.setBody mapping [(name, value)]).result = .ok t := by
  have hitems : (Extraction.items mapping [(name, value)]).result = .ok [i] := by
    simp [Extraction.items, hitem, Except.bind]
  have hrender : (Extraction.ofItems [i]).setBody b.writer = t := by
    rcases hi with rfl | rfl
    all_goals
      simp [Extraction.ofItems, Extraction.setBody, List.filterMap_cons, SetItem.assignment?,
        SetItem.point?, SetItem.polygon?, Extraction.dropLastComma_append]
  simp [setBody, Extraction.ofRecord, hitems, Except.bind, hrender]

/-- An insertion of a point at the origin, or of a polygon without corners, into a table `t`. -/
def insertion (mapping : Mapping) (name : String) (type : FieldType) : Request :=
  { Request.empty with
    mapping := some mapping
    table := some "t"
    data := some [(name, if type = .point then .map [("x", .int 0), ("y", .int 0)] else .list [])] }

/-- What follows the name in such an insertion. -/
def insertionTail (type : FieldType) : String :=
  if type = .point then " = POINT(0,0)" else " = ST_GeomFromText('POLYGON()')"

theorem insertion_eq_ok (b : Builder) {mapping : Mapping} {name : String} {type : FieldType}
    (htype : mapping.get? name = some type) (hgeometry : type.isGeometry = true) :
    (b.build .insert (insertion mapping name type)).result =
      .ok ("INSERT INTO t SET " ++ (name ++ insertionTail type)) := by
  have htarget : target (insertion mapping name type) = .ok (mapping, "t") :=
    target_eq_ok_iff.mpr ⟨rfl, rfl, by decide⟩
  refine write_eq_ok_iff.mpr ⟨_, mapping, "t", name ++ insertionTail type, rfl, htarget, ?_, ?_⟩
  · cases type with
    | point =>
      have hpoint : Geometry.point name (.map [("x", .int 0), ("y", .int 0)]) =
          .ok (some (name ++ insertionTail .point ++ ",")) :=
        Geometry.point_eq_ok_iff.mpr ⟨Float.ofInt 0, Float.ofInt 0, rfl, rfl⟩
      have hitem : (Extraction.item mapping name (.map [("x", .int 0), ("y", .int 0)])).result =
          .ok (some (.point (name ++ insertionTail .point ++ ","))) :=
        Extraction.item_eq_ok_some_iff.mpr ⟨.point, htype, rfl, hpoint⟩
      exact setBody_singleton b hitem (.inl rfl)
    | polygon =>
      have hpolygon : Geometry.polygon name (.list []) =
          .ok (some (name ++ insertionTail .polygon ++ ",")) :=
        Geometry.polygon_eq_ok_iff.mpr ⟨[], [], rfl, rfl, rfl⟩
      have hitem : (Extraction.item mapping name (.list [])).result =
          .ok (some (.polygon (name ++ insertionTail .polygon ++ ","))) :=
        Extraction.item_eq_ok_some_iff.mpr ⟨.polygon, htype, rfl, hpolygon⟩
      exact setBody_singleton b hitem (.inr rfl)
    | _ => cases hgeometry
  · rfl

/-- The tail of an insertion ends outside quotes only where it begins outside quotes. -/
theorem eq_plain_of_finish_insertionTail {m : Mode} (type : FieldType)
    (h : Scan.finish m (insertionTail type).toList = .plain) : m = .plain := by
  have hpoint : ∀ m ∈ [Mode.quoted, .escaped, .named],
      Scan.finish m " = POINT(0,0)".toList ≠ .plain := by decide
  have hpolygon : ∀ m ∈ [Mode.quoted, .escaped, .named],
      Scan.finish m " = ST_GeomFromText('POLYGON()')".toList ≠ .plain := by decide
  unfold insertionTail at h
  by_contra hm
  have hmem : m ∈ [Mode.quoted, .escaped, .named] := by
    cases m with
    | plain => exact absurd rfl hm
    | _ => decide
  split at h
  · exact hpoint m hmem h
  · exact hpolygon m hmem h

/-- **Writing statements are single where names are**: all insertions and updates about some fields are
single exactly when the points and polygons among these fields have single names. All other names, and
all values, may be anything. -/
theorem writing_statement_single_iff (mapping : Mapping) (names : List String) :
    (∀ op ∈ writing, ∀ (settings : Settings) (r : Request) (data : Record) (sql : String),
        r.mapping = some mapping → r.data = some data → (∀ pair ∈ data, pair.1 ∈ names) →
        ((Builder.mk .mySql settings).build op r).result = .ok sql → Single sql) ↔
      ∀ name ∈ names, ∀ type, mapping.get? name = some type → type.isGeometry = true →
        Single name := by
  constructor
  · intro hall name hname type htype hgeometry
    have hinsert := insertion_eq_ok ⟨.mySql, .strict⟩ htype hgeometry
    have hsingle := hall .insert (by decide) .strict (insertion mapping name type) _ _ rfl rfl
      (by simpa using hname) hinsert
    have htail := (hsingle.of_append (by decide)).2
    -- an open quote in the name would not be closed by the tail
    have hfinish : Scan.finish .plain name.toList = .plain := by
      have hend := htail.finish_eq
      rw [String.toList_append, finish_append] at hend
      exact eq_plain_of_finish_insertionTail type hend
    exact (htail.of_append hfinish).1
  · intro hnames op hop settings r data sql hmapping hdata hmem h
    exact writing_statement_single hop hmapping hdata
      (fun pair hpair => hnames pair.1 (hmem pair hpair)) h

/-- The name of a point is a second statement. -/
theorem point_name_not_quoted :
    ¬ ∀ op ∈ writing, ∀ (settings : Settings) (r : Request) (sql : String),
      ((Builder.mk .mySql settings).build op r).result = .ok sql → Single sql := by
  intro hall
  have hsingle := hall .insert (by decide) .strict
    (insertion ⟨[("p = 1; DROP TABLE t; --", .point)]⟩ "p = 1; DROP TABLE t; --" .point)
    "INSERT INTO t SET p = 1; DROP TABLE t; -- = POINT(0,0)" rfl
  exact absurd hsingle (by decide)

end Builder

end TypedSql
