import TypedSql.Json.Value
import TypedSql.Mapping
import TypedSql.Settings

/-!
# Mappings and settings from JSON

A mapping is an object from field names to type names. Settings are an object with the keys
`limit_policy` and `fallback_page`, or an array of the two; a fallback page is an object with the keys
`offset` and `limit`, or an array of the two. A name in the place of a type or policy may also be
written as an object with that name as its only key and no value. Keys that are not known are passed
over, and a known key may stand only once.
-/

namespace TypedSql.Json

/-- The name that a node gives: a string, or an object with one key and no value. -/
def name? : Node → Option String
  | .string text => text
  | .object [(key, .null)] => key
  | _ => none

/-! ### Mappings -/

/-- The declarations of a mapping, in the order of the text. -/
def declarations? : List (Option String × Node) → Option (List (String × FieldType))
  | [] => some []
  | (key, node) :: rest => do
    let key ← key
    let type ← (name? node).bind FieldType.ofName?
    let others ← declarations? rest
    return (key, type) :: others

/-- The mapping that a node gives; of a repeated field the last type counts. -/
def mapping? : Node → Option Mapping
  | .object members => (declarations? members).map Mapping.ofPairs
  | _ => none

/-- The mapping that a whole text is. -/
def mappingOfText? (text : String) : Option Mapping :=
  (wholeNode? text).bind mapping?

/-! ### Settings -/

/-- The values of the members under the known keys, for each known key at most one. -/
def knownMembers? (known : List String) (found : Fields Node) :
    List (Option String × Node) → Option (Fields Node)
  | [] => some found
  | (key, node) :: rest => do
    let key ← key
    if known.contains key then
      if Fields.contains found key then none
      else knownMembers? known (Fields.insert found key node) rest
    else knownMembers? known found rest

/-- A whole number of 64 bits. -/
def int64? : Node → Option Int64
  | .number lexeme => (integer? lexeme).bind Decimal.int64?
  | _ => none

/-- The page that a node gives. -/
def page? : Node → Option Page
  | .array [offset, limit] => do
    return { offset := ← int64? offset, limit := ← int64? limit }
  | .object members => do
    let found ← knownMembers? ["offset", "limit"] [] members
    let offset ← Fields.get? found "offset"
    let limit ← Fields.get? found "limit"
    return { offset := ← int64? offset, limit := ← int64? limit }
  | _ => none

/-- The policy that a node gives. -/
def policy? (node : Node) : Option LimitPolicy :=
  (name? node).bind LimitPolicy.ofName?

/-- The settings with the parts that are given; a fallback page may also be null. -/
def settingsOf? (policy fallback : Option Node) : Option Settings := do
  let policy ← match policy with
    | none => some Settings.strict.policy
    | some node => policy? node
  let fallback ← match fallback with
    | none | some .null => some none
    | some node => (page? node).map some
  return { policy, fallback }

/-- The settings that a node gives. -/
def settings? : Node → Option Settings
  | .array [] => settingsOf? none none
  | .array [policy] => settingsOf? (some policy) none
  | .array [policy, fallback] => settingsOf? (some policy) (some fallback)
  | .object members => do
    let found ← knownMembers? ["limit_policy", "fallback_page"] [] members
    settingsOf? (Fields.get? found "limit_policy") (Fields.get? found "fallback_page")
  | _ => none

/-- The settings that a whole text is. -/
def settingsOfText? (text : String) : Option Settings :=
  (wholeNode? text).bind settings?

end TypedSql.Json
