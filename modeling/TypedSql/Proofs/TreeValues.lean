import TypedSql.Proofs.FieldOrder
import TypedSql.Proofs.WholeNumbers

/-!
# Values through trees

A JSON text is a value directly and by way of its tree. The tree keeps the members of its objects in
ascending order, so the second value is the first one with every map in it put in the order of the bytes
of its keys (`Json.value_of_tree`); apart from that they are the same, and they exist for the same texts.
-/

namespace TypedSql

namespace Value

mutual

/-- The value with every map in it in the order of the bytes of its keys. -/
def sorted : Value → Value
  | .list items => .list (sortedItems items)
  | .map fields => .map (Fields.byKey (sortedFields fields))
  | .null => .null
  | .bool b => .bool b
  | .int n => .int n
  | .float x => .float x
  | .text s => .text s
  | .datetime t => .datetime t

/-- The items of a list, sorted inside. -/
def sortedItems : List Value → List Value
  | [] => []
  | v :: rest => sorted v :: sortedItems rest

/-- The fields of a map, sorted inside. -/
def sortedFields : List (String × Value) → List (String × Value)
  | [] => []
  | (name, v) :: rest => (name, sorted v) :: sortedFields rest

end

theorem sortedFields_eq_mapValues (fields : Record) :
    sortedFields fields = Fields.mapValues sorted fields := by
  induction fields with
  | nil => rfl
  | cons field rest ih =>
    rw [sortedFields, ih]
    rfl

end Value

namespace Json

variable {α β : Type}

/-! ### Members -/

/-- The members of an object with what is read from their nodes, repetitions included. -/
def readMembers? (f : Node → Option α) : List (Option String × Node) → Option (List (String × α))
  | [] => some []
  | (key, node) :: rest => do
    let key ← key
    let a ← f node
    let pairs ← readMembers? f rest
    return (key, a) :: pairs

/-- The fields of a record are made of the members that are read. -/
theorem recordOfMembers?_eq (record : Record) (members : List (Option String × Node)) :
    recordOfMembers? record members =
      (readMembers? valueOfNode? members).map (Fields.insertAll record) := by
  induction members generalizing record with
  | nil => rfl
  | cons member rest ih =>
    obtain ⟨key, node⟩ := member
    rw [recordOfMembers?, readMembers?]
    cases key with
    | none => rfl
    | some key =>
      simp only [Option.bind_eq_bind, Option.bind_some]
      cases valueOfNode? node with
      | none => rfl
      | some v =>
        simp only [Option.bind_some, ih]
        cases readMembers? valueOfNode? rest with
        | none => rfl
        | some pairs => rfl

theorem ofMembers?_eq (sorted : Fields Tree) (members : List (Option String × Node)) :
    Tree.ofMembers? sorted members =
      (readMembers? Tree.ofNode? members).map fun pairs =>
        pairs.foldl (fun fields pair => Fields.insertSorted fields pair.1 pair.2) sorted := by
  induction members generalizing sorted with
  | nil => rfl
  | cons member rest ih =>
    obtain ⟨key, node⟩ := member
    rw [Tree.ofMembers?, readMembers?]
    cases key with
    | none => rfl
    | some key =>
      simp only [Option.bind_eq_bind, Option.bind_some]
      cases Tree.ofNode? node with
      | none => rfl
      | some t =>
        simp only [Option.bind_some, ih]
        cases readMembers? Tree.ofNode? rest with
        | none => rfl
        | some pairs => rfl

/-- The node of the last member under a key. -/
def lastMember? (key : String) : List (Option String × Node) → Option Node
  | [] => none
  | (found, node) :: rest =>
    (lastMember? key rest).or (if found = some key then some node else none)

/-- Among the members that are read, the first one from behind is the last one of the object. -/
theorem get?_reverse_of_readMembers? {f : Node → Option α} {members : List (Option String × Node)}
    {pairs : List (String × α)} (h : readMembers? f members = some pairs) (key : String) :
    (Fields.get? pairs.reverse key).map some = (lastMember? key members).map f := by
  induction members generalizing pairs with
  | nil =>
    obtain rfl : [] = pairs := Option.some.inj h
    rfl
  | cons member rest ih =>
    obtain ⟨found, node⟩ := member
    simp only [readMembers?, Option.bind_eq_bind, Option.bind_eq_some_iff] at h
    obtain ⟨name, rfl, a, hnode, pairs', hrest, hpairs⟩ := h
    obtain rfl : (name, a) :: pairs' = pairs := Option.some.inj hpairs
    rw [List.reverse_cons, Fields.get?_append, lastMember?, Option.map_or, Option.map_or, ih hrest]
    congr 1
    by_cases hname : name = key
    · simp [Fields.get?, hname, hnode]
    · simp [Fields.get?, hname]

/-- **Of a repeated key the last value counts**, in a record as in a tree. -/
theorem get?_of_recordOfMembers? {members : List (Option String × Node)} {record : Record}
    (h : recordOfMembers? [] members = some record) (key : String) :
    (Fields.get? record key).map some = (lastMember? key members).map valueOfNode? := by
  rw [recordOfMembers?_eq] at h
  obtain ⟨pairs, hpairs, rfl⟩ := Option.map_eq_some_iff.mp h
  rw [← get?_reverse_of_readMembers? hpairs, ← Fields.get?_ofPairs]
  rfl

theorem get?_of_ofMembers? {members : List (Option String × Node)} {sorted : List (String × Tree)}
    (h : Tree.ofMembers? [] members = some sorted) (key : String) :
    (Fields.get? sorted key).map some = (lastMember? key members).map Tree.ofNode? := by
  rw [ofMembers?_eq] at h
  obtain ⟨pairs, hpairs, rfl⟩ := Option.map_eq_some_iff.mp h
  rw [← get?_reverse_of_readMembers? hpairs, ← Fields.get?_ofPairsSorted]
  rfl

/-! ### Nodes -/

theorem toRecord_eq_insertAll (record : Record) (members : List (String × Tree)) :
    Tree.toRecord record members = Fields.insertAll record (Fields.mapValues Tree.toValue members) := by
  induction members generalizing record with
  | nil => rfl
  | cons member rest ih =>
    rw [Tree.toRecord, ih]
    rfl

/-- The value of an object is made of the values of its members, in the order of the keys. -/
theorem toValue_object (pairs : List (String × Tree)) :
    Tree.toValue (.object (Fields.ofPairsSorted pairs)) =
      .map (Fields.byKey (Fields.ofPairs (Fields.mapValues Tree.toValue pairs))) := by
  have hdistinct := (Fields.ascending_ofPairsSorted (Fields.mapValues Tree.toValue pairs)).distinct
  rw [Tree.toValue, toRecord_eq_insertAll, Fields.mapValues_ofPairsSorted,
    ← Fields.ofPairsSorted_eq_byKey]
  exact congrArg Value.map (Fields.ofPairs_of_distinct hdistinct)

theorem sorted_map_ofPairs (pairs : List (String × Value)) :
    Value.sorted (.map (Fields.ofPairs pairs)) =
      .map (Fields.byKey (Fields.ofPairs (Fields.mapValues Value.sorted pairs))) := by
  rw [Value.sorted, Value.sortedFields_eq_mapValues, Fields.mapValues_ofPairs]

theorem map_sorted_numberValue? (lexeme : List Char) :
    (numberValue? lexeme).map Value.sorted = numberValue? lexeme := by
  unfold numberValue?
  split
  · rfl
  · cases finite? lexeme <;> rfl

theorem map_readMembers?_cons (f : Node → Option α) (g : α → β) (key : Option String) (node : Node)
    (rest : List (Option String × Node)) :
    (readMembers? f ((key, node) :: rest)).map (Fields.mapValues g) =
      key.bind fun key => ((f node).map g).bind fun b =>
        ((readMembers? f rest).map (Fields.mapValues g)).map ((key, b) :: ·) := by
  rw [readMembers?]
  cases key with
  | none => rfl
  | some key => cases f node <;> cases readMembers? f rest <;> rfl

mutual

/-- The value of the tree of a node is the sorted value of the node, whatever the depth. -/
theorem map_ofNode? (node : Node) :
    (Tree.ofNode? node).map Tree.toValue = (valueOfNode? node).map Value.sorted := by
  cases node with
  | null => rfl
  | bool b => rfl
  | number lexeme => rw [Tree.ofNode?, valueOfNode?, map_ofNumber?, map_sorted_numberValue?]
  | string text => cases text <;> rfl
  | array items =>
    rw [Tree.ofNode?, valueOfNode?, Option.map_map, Option.map_map]
    have hitems := congrArg (Option.map Value.list) (map_ofItems? items)
    rw [Option.map_map, Option.map_map] at hitems
    exact hitems
  | object members =>
    let ofPairs (pairs : Fields Value) : Value := .map (Fields.byKey (Fields.ofPairs pairs))
    calc (Tree.ofNode? (.object members)).map Tree.toValue
      _ = (readMembers? Tree.ofNode? members).map fun pairs =>
            Tree.toValue (.object (Fields.ofPairsSorted pairs)) := by
          rw [Tree.ofNode?, ofMembers?_eq, Option.map_map, Option.map_map]
          rfl
      _ = ((readMembers? Tree.ofNode? members).map (Fields.mapValues Tree.toValue)).map ofPairs := by
          rw [Option.map_map]
          exact Option.map_congr fun pairs _ => toValue_object pairs
      _ = ((readMembers? valueOfNode? members).map (Fields.mapValues Value.sorted)).map ofPairs := by
          rw [map_readMembers?]
      _ = (readMembers? valueOfNode? members).map fun pairs =>
            Value.sorted (.map (Fields.ofPairs pairs)) := by
          rw [Option.map_map]
          exact Option.map_congr fun pairs _ => (sorted_map_ofPairs pairs).symm
      _ = (valueOfNode? (.object members)).map Value.sorted := by
          rw [valueOfNode?, recordOfMembers?_eq, Option.map_map, Option.map_map]
          rfl

theorem map_ofItems? (items : List Node) :
    (Tree.ofItems? items).map Tree.toValues = (valuesOfItems? items).map Value.sortedItems := by
  cases items with
  | nil => rfl
  | cons item rest =>
    have htrees : (Tree.ofItems? (item :: rest)).map Tree.toValues =
        ((Tree.ofNode? item).map Tree.toValue).bind fun v =>
          ((Tree.ofItems? rest).map Tree.toValues).map (v :: ·) := by
      rw [Tree.ofItems?]
      cases Tree.ofNode? item <;> cases Tree.ofItems? rest <;> rfl
    have hvalues : (valuesOfItems? (item :: rest)).map Value.sortedItems =
        ((valueOfNode? item).map Value.sorted).bind fun v =>
          ((valuesOfItems? rest).map Value.sortedItems).map (v :: ·) := by
      rw [valuesOfItems?]
      cases valueOfNode? item <;> cases valuesOfItems? rest <;> rfl
    rw [htrees, hvalues, map_ofNode? item, map_ofItems? rest]

theorem map_readMembers? (members : List (Option String × Node)) :
    (readMembers? Tree.ofNode? members).map (Fields.mapValues Tree.toValue) =
      (readMembers? valueOfNode? members).map (Fields.mapValues Value.sorted) := by
  cases members with
  | nil => rfl
  | cons member rest =>
    obtain ⟨key, node⟩ := member
    rw [map_readMembers?_cons, map_readMembers?_cons, map_ofNode? node, map_readMembers? rest]

end

/-- **A value is the same through a tree, but for the order of its maps.** A text has a value exactly
when it has a tree, and the value of the tree is the value with every map in it, however deep, in the
order of the bytes of its keys. In a record and in a tree the last value of a repeated key counts, also
where it stands behind other keys. -/
theorem value_of_tree (text : String) :
    ((valueOfText? text).isSome = (Tree.ofText? text).isSome ∧
      (Tree.ofText? text).map Tree.toValue = (valueOfText? text).map Value.sorted) ∧
    ∀ (members : List (Option String × Node)) (key : String),
      (∀ record, recordOfMembers? [] members = some record →
        (Fields.get? record key).map some = (lastMember? key members).map valueOfNode?) ∧
      (∀ sorted, Tree.ofMembers? [] members = some sorted →
        (Fields.get? sorted key).map some = (lastMember? key members).map Tree.ofNode?) := by
  have hsame : (Tree.ofText? text).map Tree.toValue = (valueOfText? text).map Value.sorted := by
    rw [Tree.ofText?, valueOfText?, Option.map_bind, Option.map_bind]
    refine Option.bind_congr fun node _ => ?_
    simp only [Function.comp, value?, Nat.add_zero]
    split
    · exact map_ofNode? node
    · rfl
  refine ⟨⟨?_, hsame⟩, fun members key => ⟨fun record h => get?_of_recordOfMembers? h key,
    fun sorted h => get?_of_ofMembers? h key⟩⟩
  have hsome := congrArg Option.isSome hsame
  rw [Option.isSome_map, Option.isSome_map] at hsome
  exact hsome.symm

/-- A key that is repeated behind another one keeps its place and gets the last value. -/
theorem value_of_tree_repeated_key :
    let text := "\x7b\"b\": null, \"a\": [false], \"b\": true\x7d"
    let members : List (Option String × Node) :=
      [(some "b", .null), (some "a", .array [.bool false]), (some "b", .bool true)]
    let record : Record := [("b", .bool true), ("a", .list [.bool false])]
    valueOfText? text = some (.map record) ∧
      (Tree.ofText? text).map Tree.toValue = some (Value.sorted (.map record)) ∧
      recordOfMembers? [] members = some record ∧
      (Fields.get? record "b").map some = (lastMember? "b" members).map valueOfNode? := by
  intro text members record
  have htext : valueOfText? text = some (.map record) := by
    simp only [text, record]
    cbv
  have hrecord : recordOfMembers? [] members = some record := rfl
  obtain ⟨⟨-, htree⟩, hlast⟩ := value_of_tree text
  rw [htext] at htree
  exact ⟨htext, htree, hrecord, (hlast members "b").1 record hrecord⟩

end Json

end TypedSql
