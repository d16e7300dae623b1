import TypedSql.BuildError
import TypedSql.Decimal.Numeral
import TypedSql.Text.Blank

/-!
# Points and polygons

A point is a map with the keys `x` and `y`; a polygon is a list of points. They are written as
fragments of a list of assignments, each with a trailing comma. A coordinate is a number or a text
that begins with one, and it has to be finite.
-/

namespace TypedSql.Geometry

/-! ### Coordinates -/

/-- The number that a text begins with after its leading blanks. -/
def leadingNumber? (s : String) : Option Float :=
  (Decimal.leadingNumeral (Text.trimStart s.toList)).bind fun numeral =>
    (Decimal.Numeral.read? numeral).map Decimal.Numeral.toFloat

/-- The finite number that a value gives as a coordinate. -/
def coordinate? (v : Value) : Option Float :=
  let number := match v with
    | .int n => some (Float.ofInt n.toInt)
    | .float x => some x
    | .text s => leadingNumber? s
    | _ => none
  number.filter Float.isFinite

/-- The coordinates of a value, `x` before `y`; none when it is not a map with both keys. The name is
what an error calls the value. -/
def coordinates (name : String) (v : Value) : Except BuildError (Option (Float × Float)) :=
  match v with
  | .map fields =>
    match Fields.get? fields "x", Fields.get? fields "y" with
    | some rawX, some rawY =>
      match coordinate? rawX, coordinate? rawY with
      | some x, some y => .ok (some (x, y))
      | none, _ => .error (.invalidCoordinate name .x rawX)
      | some _, none => .error (.invalidCoordinate name .y rawY)
    | _, _ => .ok none
  | _ => .ok none

/-! ### Fragments -/

/-- The fragment of a point field, `name = POINT(x,y),`. -/
def point (name : String) (v : Value) : Except BuildError (Option String) :=
  (coordinates name v).map fun found => found.map fun (x, y) =>
    name ++ " = POINT(" ++ Decimal.floatText x ++ "," ++ Decimal.floatText y ++ "),"

/-- What an error calls an element of a polygon. -/
def elementName (name : String) (index : Nat) : String :=
  name ++ "[" ++ String.ofList (Decimal.digits index) ++ "]"

/-- The coordinates of the elements from an index on; elements without coordinates are left out. -/
def corners (name : String) : Nat → List Value → Except BuildError (List (Float × Float))
  | _, [] => .ok []
  | index, v :: rest => do
    let found ← coordinates (elementName name index) v
    let others ← corners name (index + 1) rest
    return found.toList ++ others

/-- A corner of a polygon, with two blanks between its coordinates. -/
def cornerText (corner : Float × Float) : String :=
  Decimal.floatText corner.1 ++ "  " ++ Decimal.floatText corner.2

/-- The fragment of a polygon field, `name = ST_GeomFromText('POLYGON(x  y,x  y)'),`. -/
def polygon (name : String) (v : Value) : Except BuildError (Option String) :=
  match v with
  | .null => .ok none
  | .list items => (corners name 0 items).map fun found =>
    some (name ++ " = ST_GeomFromText('POLYGON(" ++ String.intercalate "," (found.map cornerText) ++ ")'),")
  | _ => .error (.invalidPolygon name)

/-! ### Shapes as values -/

/-- A pair of coordinates as a value. -/
def ofPair (pair : Float × Float) : Value :=
  .map [("x", .float pair.1), ("y", .float pair.2)]

/-- A line as a value: the list of its points. -/
def ofLine (line : List (Float × Float)) : Value :=
  .list (line.map ofPair)

/-- Closes a ring: the first point is repeated at the end unless the last one equals it. -/
def closeRing (ring : List (Float × Float)) : List (Float × Float) :=
  match ring.head?, ring.getLast? with
  | some first, some last =>
    if first.1 == last.1 && first.2 == last.2 then ring else ring ++ [first]
  | _, _ => ring

/-- A polygon as a value: its outer ring, closed. Inner rings have no written form here. -/
def ofRing (exterior : List (Float × Float)) : Value :=
  ofLine (closeRing exterior)

end TypedSql.Geometry
