import Mathlib.Data.Finset.Card
import TypedSql.Proofs.Steps
import TypedSql.Proofs.TreeValues

/-!
# Records in the order of insertion

What a record holds is determined by the pairs that were inserted, in order, with repetitions: every name
stands once, where it was inserted first, with the value that was inserted last
(`Fields.InsertionOrdered`, which two records never share: `InsertionOrdered.unique`). One insertion
changes the value of one name or adds an entry at the end, and every entry stays in its place
(`Fields.Inserts`). So records that are made step by step, from pairs or from the members of a JSON object
are all read off their history (`record_keeps_insertion_order`).
-/

namespace TypedSql

namespace Fields

variable {α : Type}

/-! ### Histories -/

/-- The value of the last pair with a name. -/
def IsLatest (history : List (String × α)) (name : String) (value : α) : Prop :=
  ∃ before after, history = before ++ (name, value) :: after ∧ name ∉ keys after

/-- The fields that a history of insertions makes, and what can be looked up in them. -/
structure InsertionOrdered (history : List (String × α)) (fields : Fields α) : Prop where
  distinct : Distinct fields
  /-- The names stand in the order of their first insertion. -/
  order : (keys fields).Pairwise fun a b => (keys history).idxOf a < (keys history).idxOf b
  mem_keys_iff : ∀ name, name ∈ keys fields ↔ name ∈ keys history
  get?_eq_some_iff : ∀ name value, get? fields name = some value ↔ IsLatest history name value
  get?_eq_none_iff : ∀ name, get? fields name = none ↔ name ∉ keys history
  contains_iff : ∀ name, contains fields name = true ↔ name ∈ keys history
  length_eq : fields.length = (keys history).toFinset.card
  isEmpty_iff : fields.isEmpty = true ↔ history = []
  /-- The entries are the names, each with the value that is found for it. -/
  entries : fields.map some = (keys fields).map fun name => (get? fields name).map (name, ·)

/-- `Inserts fields name value fields'`: the second fields are the first ones with a value under a name. -/
structure Inserts (fields : Fields α) (name : String) (value : α) (fields' : Fields α) : Prop where
  get?_self : get? fields' name = some value
  get?_of_ne : ∀ other, other ≠ name → get? fields' other = get? fields other
  /-- An entry stays in its place, and only the one with the name gets the value. -/
  place : ∀ (i : Nat) (key : String) (old : α), fields[i]? = some (key, old) →
    fields'[i]? = some (key, if key = name then value else old)
  length_of_mem : name ∈ keys fields → fields'.length = fields.length
  append_of_notMem : name ∉ keys fields → fields' = fields ++ [(name, value)]

/-! ### Looking up in a list of pairs -/

theorem get?_eq_none_iff {fields : Fields α} {name : String} :
    get? fields name = none ↔ name ∉ keys fields := by
  induction fields with
  | nil => simp [keys]
  | cons head rest ih =>
    obtain ⟨key, value⟩ := head
    rw [get?, keys_cons, List.mem_cons, not_or]
    by_cases hkey : key = name
    · simp [hkey]
    · rw [if_neg hkey, ih]
      exact (and_iff_right (Ne.symm hkey)).symm

/-- A value that is found stands in the first pair with the name. -/
theorem get?_eq_some_iff_append {fields : Fields α} {name : String} {value : α} :
    get? fields name = some value ↔
      ∃ before after, fields = before ++ (name, value) :: after ∧ name ∉ keys before := by
  constructor
  · intro h
    induction fields with
    | nil => cases h
    | cons head rest ih =>
      obtain ⟨key, found⟩ := head
      rw [get?] at h
      split at h
      · next hkey =>
        rw [hkey, Option.some.inj h]
        exact ⟨[], rest, rfl, List.not_mem_nil⟩
      · next hkey =>
        obtain ⟨before, after, rfl, hbefore⟩ := ih h
        refine ⟨(key, found) :: before, after, rfl, ?_⟩
        rw [keys_cons, List.mem_cons, not_or]
        exact ⟨Ne.symm hkey, hbefore⟩
  · rintro ⟨before, after, rfl, hbefore⟩
    rw [get?_append, get?_eq_none_iff.mpr hbefore, Option.none_or, get?, if_pos rfl]

/-- Looking from behind finds the latest value. -/
theorem get?_reverse_eq_some_iff {history : List (String × α)} {name : String} {value : α} :
    get? history.reverse name = some value ↔ IsLatest history name value := by
  have hkeys (pairs : List (String × α)) : name ∉ keys pairs.reverse ↔ name ∉ keys pairs := by
    simp [keys]
  rw [get?_eq_some_iff_append]
  constructor
  · rintro ⟨before, after, hsplit, hbefore⟩
    refine ⟨after.reverse, before.reverse, ?_, (hkeys before).mpr hbefore⟩
    rw [← List.reverse_reverse history, hsplit]
    simp
  · rintro ⟨before, after, rfl, hafter⟩
    exact ⟨after.reverse, before.reverse, by simp, (hkeys after).mpr hafter⟩

/-! ### One insertion -/

/-- An entry with the value, if it has the name. -/
def replaced (name : String) (value : α) (field : String × α) : String × α :=
  (field.1, if field.1 = name then value else field.2)

/-- A name that is there gets the value in its place. -/
theorem insert_of_mem {fields : Fields α} (hdistinct : Distinct fields) {name : String}
    (h : name ∈ keys fields) (value : α) :
    insert fields name value = fields.map (replaced name value) := by
  induction fields with
  | nil => cases h
  | cons head rest ih =>
    obtain ⟨key, old⟩ := head
    obtain ⟨hkey, hrest⟩ := List.nodup_cons.mp hdistinct
    rw [insert, List.map_cons, replaced]
    by_cases heq : key = name
    · subst heq
      have hother : ∀ field ∈ rest, replaced key value field = id field := by
        intro field hfield
        have hne : field.1 ≠ key := by
          rintro rfl
          exact hkey (List.mem_map.mpr ⟨field, hfield, rfl⟩)
        rw [replaced, if_neg hne]
        rfl
      rw [if_pos rfl, if_pos rfl, List.map_congr_left hother, List.map_id]
    · rw [if_neg heq, if_neg heq, ih hrest ((List.mem_cons.mp h).resolve_left (Ne.symm heq))]

theorem inserts_insert {fields : Fields α} (hdistinct : Distinct fields) (name : String) (value : α) :
    Inserts fields name value (insert fields name value) where
  get?_self := get?_insert_self fields name value
  get?_of_ne _ hother := get?_insert_of_ne fields value hother
  place i key old hentry := by
    by_cases hmem : name ∈ keys fields
    · rw [insert_of_mem hdistinct hmem, List.getElem?_map, hentry]
      rfl
    · have hne : key ≠ name := by
        rintro rfl
        exact hmem (List.mem_map_of_mem (List.mem_of_getElem? hentry))
      obtain ⟨hlength, -⟩ := List.getElem?_eq_some_iff.mp hentry
      rw [insert_of_notMem hmem, List.getElem?_append_left hlength, hentry, if_neg hne]
  length_of_mem hmem := by rw [insert_of_mem hdistinct hmem, List.length_map]
  append_of_notMem hmem := insert_of_notMem hmem value

/-! ### Pairs -/

theorem keys_append (xs ys : Fields α) : keys (xs ++ ys) = keys xs ++ keys ys :=
  List.map_append

theorem ofPairs_append_singleton (history : List (String × α)) (pair : String × α) :
    ofPairs (history ++ [pair]) = insert (ofPairs history) pair.1 pair.2 := by
  rw [ofPairs, insertAll, List.foldl_append]
  rfl

theorem mem_keys_ofPairs_iff {history : List (String × α)} {name : String} :
    name ∈ keys (ofPairs history) ↔ name ∈ keys history := by
  induction history using List.reverseRecOn with
  | nil => rfl
  | append_singleton history pair ih =>
    rw [ofPairs_append_singleton, keys_insert, keys_append, List.mem_append, ← ih]
    split
    · next hmem =>
      refine (or_iff_left_of_imp fun hpair => ?_).symm
      rwa [List.mem_singleton.mp hpair]
    · exact List.mem_append

/-- Names stand in the order of their first insertion. -/
theorem pairwise_ofPairs (history : List (String × α)) :
    (keys (ofPairs history)).Pairwise fun a b =>
      (keys history).idxOf a < (keys history).idxOf b := by
  induction history using List.reverseRecOn with
  | nil => exact .nil
  | append_singleton history pair ih =>
    have hbefore {name : String} (h : name ∈ keys (ofPairs history)) :
        (keys (history ++ [pair])).idxOf name = (keys history).idxOf name := by
      rw [keys_append, List.idxOf_append_of_mem (mem_keys_ofPairs_iff.mp h)]
    have hkept : (keys (ofPairs history)).Pairwise fun a b =>
        (keys (history ++ [pair])).idxOf a < (keys (history ++ [pair])).idxOf b := by
      refine ih.imp_of_mem ?_
      intro a b ha hb hlt
      rwa [hbefore ha, hbefore hb]
    rw [ofPairs_append_singleton, keys_insert]
    split
    · exact hkept
    · next hnew =>
      refine List.pairwise_append.mpr ⟨hkept, List.pairwise_singleton .., ?_⟩
      intro a ha b hb
      obtain rfl := List.mem_singleton.mp hb
      rw [hbefore ha, keys_append, List.idxOf_append_of_notMem (mt mem_keys_ofPairs_iff.mpr hnew)]
      have hlt := List.idxOf_lt_length_of_mem (mem_keys_ofPairs_iff.mp ha)
      omega

/-- **Pairs make the fields of their history.** -/
theorem insertionOrdered_ofPairs (history : List (String × α)) :
    InsertionOrdered history (ofPairs history) where
  distinct := distinct_ofPairs history
  order := pairwise_ofPairs history
  mem_keys_iff _ := mem_keys_ofPairs_iff
  get?_eq_some_iff name value := by rw [get?_ofPairs, get?_reverse_eq_some_iff]
  get?_eq_none_iff name := by rw [Fields.get?_eq_none_iff, mem_keys_ofPairs_iff]
  contains_iff name := by
    rw [contains, Option.isSome_iff_ne_none, ne_eq, Fields.get?_eq_none_iff, not_not, mem_keys_ofPairs_iff]
  length_eq := by
    have hnames : (keys (ofPairs history)).toFinset = (keys history).toFinset := by
      ext name
      rw [List.mem_toFinset, List.mem_toFinset, mem_keys_ofPairs_iff]
    rw [← hnames, List.toFinset_card_of_nodup (distinct_ofPairs history), keys, List.length_map]
  isEmpty_iff := by
    have hempty (fields : Fields α) : fields = [] ↔ ∀ name, name ∉ keys fields := by
      rw [← List.eq_nil_iff_forall_not_mem, keys, List.map_eq_nil_iff]
    rw [List.isEmpty_iff, hempty, hempty]
    simp only [mem_keys_ofPairs_iff]
  entries := by
    rw [keys, List.map_map]
    refine List.map_congr_left fun field hfield => ?_
    have hget := (Fields.get?_eq_some_iff (distinct_ofPairs history)).mpr hfield
    rw [Function.comp, hget]
    rfl

/-- A history makes one list of fields only. -/
theorem InsertionOrdered.unique {history : List (String × α)} {fields fields' : Fields α}
    (h : InsertionOrdered history fields) (h' : InsertionOrdered history fields') : fields = fields' := by
  have hkeys : keys fields = keys fields' := by
    have hperm : (keys fields).Perm (keys fields') :=
      (List.perm_ext_iff_of_nodup h.distinct h'.distinct).mpr fun name => by
        rw [h.mem_keys_iff, h'.mem_keys_iff]
    exact hperm.eq_of_pairwise (fun a b _ _ hab hba => absurd hba (Nat.lt_asymm hab)) h.order h'.order
  have hget : get? fields = get? fields' := by
    funext name
    refine Option.ext fun value => ?_
    rw [h.get?_eq_some_iff, h'.get?_eq_some_iff]
  have hentries : fields.map some = fields'.map some := by
    rw [h.entries, h'.entries, hkeys, hget]
  exact List.map_injective_iff.mpr (Option.some_injective _) hentries

/-! ### Step by step -/

/-- An insertion: `exchange` answers with the value that was there before, `insert` does not answer. -/
inductive Step (α : Type) where
  | exchange (name : String) (value : α)
  | insert (name : String) (value : α)

/-- What is inserted. -/
def Step.pair : Step α → String × α
  | .exchange name value | .insert name value => (name, value)

/-- The fields behind an insertion. -/
def Step.apply (fields : Fields α) : Step α → Fields α
  | .exchange name value => (Fields.exchange fields name value).2
  | .insert name value => Fields.insert fields name value

/-- The fields behind insertions, begun without fields. -/
def afterSteps (steps : List (Step α)) : Fields α := steps.foldl Step.apply []

theorem Step.apply_eq (fields : Fields α) (step : Step α) :
    step.apply fields = Fields.insert fields step.pair.1 step.pair.2 := by
  cases step with
  | exchange name value => rw [apply, exchange_eq, pair]
  | insert name value => rfl

theorem afterSteps_append_singleton (steps : List (Step α)) (step : Step α) :
    afterSteps (steps ++ [step]) = step.apply (afterSteps steps) := by
  rw [afterSteps, List.foldl_append]
  rfl

theorem afterSteps_eq_ofPairs (steps : List (Step α)) :
    afterSteps steps = ofPairs (steps.map Step.pair) := by
  induction steps using List.reverseRecOn with
  | nil => rfl
  | append_singleton steps step ih =>
    rw [afterSteps_append_singleton, Step.apply_eq, ih, List.map_append, List.map_singleton,
      ofPairs_append_singleton]

theorem inserts_afterSteps (steps : List (Step α)) (step : Step α) :
    Inserts (afterSteps steps) step.pair.1 step.pair.2 (afterSteps (steps ++ [step])) := by
  have hdistinct : Distinct (afterSteps steps) := by
    rw [afterSteps_eq_ofPairs]
    exact distinct_ofPairs _
  rw [afterSteps_append_singleton, Step.apply_eq]
  exact inserts_insert hdistinct _ _

end Fields

/-! ### Objects -/

namespace Json

open Fields

/-- An object has the value that its members make, repeated keys included. -/
theorem valueOfNode?_object_eq_some_iff {members : List (Option String × Node)} {value : Value} :
    valueOfNode? (.object members) = some value ↔
      ∃ pairs record, readMembers? valueOfNode? members = some pairs ∧
        InsertionOrdered pairs record ∧ value = .map record := by
  rw [valueOfNode?, recordOfMembers?_eq, Option.map_map, Option.map_eq_some_iff]
  constructor
  · rintro ⟨pairs, hpairs, rfl⟩
    exact ⟨pairs, ofPairs pairs, hpairs, insertionOrdered_ofPairs pairs, rfl⟩
  · rintro ⟨pairs, record, hpairs, hrecord, rfl⟩
    rw [hrecord.unique (insertionOrdered_ofPairs pairs)]
    exact ⟨pairs, hpairs, rfl⟩

/-- Only an object has a map as its value. -/
theorem exists_object_of_valueOfNode? {node : Node} {record : Record}
    (h : valueOfNode? node = some (.map record)) : ∃ members, node = .object members := by
  cases node with
  | object members => exact ⟨members, rfl⟩
  | null | bool b => cases h
  | number lexeme =>
    rw [valueOfNode?, numberValue?] at h
    split at h
    · cases h
    · obtain ⟨_, -, hfloat⟩ := Option.map_eq_some_iff.mp h
      cases hfloat
  | string text =>
    obtain ⟨_, -, htext⟩ := Option.map_eq_some_iff.mp h
    cases htext
  | array items =>
    rw [valueOfNode?] at h
    obtain ⟨_, -, hlist⟩ := Option.map_eq_some_iff.mp h
    cases hlist

/-- A record is the value of an object. -/
theorem exists_object_of_record {outer : Nat} {node : Node} {found : Record}
    (h : record outer node = .ok found) :
    ∃ members, node = .object members ∧ valueOfNode? (.object members) = some (.map found) := by
  have hvalue : value? outer node = some (.map found) := by
    unfold record at h
    split at h
    · next hvalue => rwa [← Except.ok.inj h]
    · cases h
    · cases h
  unfold value? at hvalue
  split at hvalue
  · obtain ⟨members, rfl⟩ := exists_object_of_valueOfNode? hvalue
    exact ⟨members, rfl, hvalue⟩
  · cases hvalue

theorem exists_object_of_recordOfText {text : String} {found : Record}
    (h : recordOfText text = .ok found) :
    ∃ members rest, firstNode? text.toList = some (.object members, rest) ∧
      valueOfNode? (.object members) = some (.map found) := by
  unfold recordOfText at h
  split at h
  · next node rest hnode =>
    obtain ⟨fields, hrecord, hrest⟩ := bind_eq_ok_iff.mp h
    obtain ⟨members, rfl, hvalue⟩ := exists_object_of_record hrecord
    split at hrest
    · cases hrest
      exact ⟨members, rest, hnode, hvalue⟩
    · cases hrest
  · cases h

end Json

open Fields in
/-- **A record keeps the order of insertion**, however it is made: by insertions one after the other, from
pairs, or as the value of a JSON object whose keys may be repeated. Its names stand in the order in which
they came first, each with the value that came last. An insertion answers with the value that was there
just before it, and moves no entry and changes no other value. -/
theorem record_keeps_insertion_order :
    (∀ steps : List (Step Value), InsertionOrdered (steps.map Step.pair) (afterSteps steps)) ∧
    (∀ (steps : List (Step Value)) (step : Step Value),
      Inserts (afterSteps steps) step.pair.1 step.pair.2 (afterSteps (steps ++ [step]))) ∧
    (∀ (steps : List (Step Value)) (name : String) (value : Value),
      (exchange (afterSteps steps) name value).1 = get? (afterSteps steps) name) ∧
    (∀ pairs : List (String × Value), InsertionOrdered pairs (ofPairs pairs)) ∧
    (∀ members value, Json.valueOfNode? (.object members) = some value ↔
      ∃ pairs record, Json.readMembers? Json.valueOfNode? members = some pairs ∧
        InsertionOrdered pairs record ∧ value = .map record) ∧
    ∀ text record, Json.recordOfText text = .ok record →
      ∃ members rest pairs, Json.firstNode? text.toList = some (.object members, rest) ∧
        Json.readMembers? Json.valueOfNode? members = some pairs ∧ InsertionOrdered pairs record := by
  refine ⟨?_, inserts_afterSteps, ?_, insertionOrdered_ofPairs, ?_, ?_⟩
  · intro steps
    rw [afterSteps_eq_ofPairs]
    exact insertionOrdered_ofPairs _
  · intro steps name value
    rw [exchange_eq]
  · intro members value
    exact Json.valueOfNode?_object_eq_some_iff
  · intro text record h
    obtain ⟨members, rest, hnode, hvalue⟩ := Json.exists_object_of_recordOfText h
    obtain ⟨pairs, _, hpairs, hrecord, heq⟩ := Json.valueOfNode?_object_eq_some_iff.mp hvalue
    cases heq
    exact ⟨members, rest, pairs, hnode, hpairs, hrecord⟩

open Fields in
/-- A key that is repeated behind another one: the record of the text, and the fields behind the same
insertions. -/
theorem record_keeps_insertion_order_repeated_key :
    let text := "\x7b\"b\": 1, \"a\": null, \"b\": true\x7d"
    let pairs : List (String × Value) := [("b", .int 1), ("a", .null), ("b", .bool true)]
    let record : Record := [("b", .bool true), ("a", .null)]
    Json.recordOfText text = .ok record ∧
      (∃ members rest pairs, Json.firstNode? text.toList = some (.object members, rest) ∧
        Json.readMembers? Json.valueOfNode? members = some pairs ∧ InsertionOrdered pairs record) ∧
      afterSteps (pairs.map fun pair => .exchange pair.1 pair.2) = record ∧
      InsertionOrdered pairs record := by
  intro text pairs record
  have hrecord : Json.recordOfText text = .ok record := by
    simp only [text, record]
    cbv
  obtain ⟨hsteps, -, -, -, -, htext⟩ := record_keeps_insertion_order
  have hordered := hsteps (pairs.map fun pair => .exchange pair.1 pair.2)
  exact ⟨hrecord, htext text record hrecord, rfl, hordered⟩

end TypedSql
