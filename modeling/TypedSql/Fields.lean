/-!
# Named values

Values under names, each name at most once. `insert` keeps the order of first insertion: a name that
is already there keeps its place and gets the new value. `insertSorted` keeps the names in ascending
order instead; texts are compared code point by code point, which is also the order of their bytes.
-/

namespace TypedSql

/-- Values under names, in a fixed order. -/
abbrev Fields (α : Type) := List (String × α)

namespace Fields

variable {α : Type}

/-- The value under a name. -/
def get? : Fields α → String → Option α
  | [], _ => none
  | (key, value) :: rest, name => if key = name then some value else get? rest name

/-- Whether there is a value under a name. -/
def contains (fields : Fields α) (name : String) : Bool :=
  (get? fields name).isSome

/-- The names in order. -/
def keys (fields : Fields α) : List String :=
  fields.map Prod.fst

/-- Puts a value under a name: in place of the old value, or at the end. -/
def insert : Fields α → String → α → Fields α
  | [], name, value => [(name, value)]
  | (key, old) :: rest, name, value =>
    if key = name then (key, value) :: rest else (key, old) :: insert rest name value

/-- `insert`, together with the value that was there before. -/
def exchange : Fields α → String → α → Option α × Fields α
  | [], name, value => (none, [(name, value)])
  | (key, old) :: rest, name, value =>
    if key = name then (some old, (key, value) :: rest)
    else
      let (previous, rest') := exchange rest name value
      (previous, (key, old) :: rest')

/-- Inserts the pairs one after the other. -/
def insertAll (fields : Fields α) (pairs : List (String × α)) : Fields α :=
  pairs.foldl (fun fields pair => insert fields pair.1 pair.2) fields

/-- The fields that the pairs make when they are inserted in order. -/
def ofPairs (pairs : List (String × α)) : Fields α :=
  insertAll [] pairs

/-- Puts a value under a name: in place of the old value, or where the ascending order wants it. -/
def insertSorted : Fields α → String → α → Fields α
  | [], name, value => [(name, value)]
  | (key, old) :: rest, name, value =>
    if key = name then (key, value) :: rest
    else if name < key then (name, value) :: (key, old) :: rest
    else (key, old) :: insertSorted rest name value

/-- The fields that the pairs make in ascending order; of a repeated name the last value counts. -/
def ofPairsSorted (pairs : List (String × α)) : Fields α :=
  pairs.foldl (fun fields pair => insertSorted fields pair.1 pair.2) []

/-! ### Looking up -/

theorem mem_of_get?_eq_some {fields : Fields α} {name : String} {value : α}
    (h : get? fields name = some value) : (name, value) ∈ fields := by
  induction fields with
  | nil => cases h
  | cons head rest ih =>
    obtain ⟨key, found⟩ := head
    rw [get?] at h
    split at h
    · next hkey =>
      rw [hkey, Option.some.inj h]
      exact List.mem_cons_self
    · exact List.mem_cons_of_mem _ (ih h)

/-! ### Looking up after an insertion -/

@[simp] theorem get?_nil (name : String) : get? ([] : Fields α) name = none := rfl

@[simp] theorem get?_insert_self (fields : Fields α) (name : String) (value : α) :
    get? (insert fields name value) name = some value := by
  induction fields with
  | nil => simp [insert, get?]
  | cons head rest ih =>
    obtain ⟨key, old⟩ := head
    by_cases h : key = name <;> simp [insert, get?, h, ih]

theorem get?_insert_of_ne (fields : Fields α) {name other : String} (value : α)
    (h : other ≠ name) : get? (insert fields name value) other = get? fields other := by
  induction fields with
  | nil => simp [insert, get?, Ne.symm h]
  | cons head rest ih =>
    obtain ⟨key, old⟩ := head
    by_cases hk : key = name
    · subst hk; simp [insert, get?, Ne.symm h]
    · by_cases ho : key = other
      · subst ho; simp [insert, get?, hk]
      · simp [insert, get?, hk, ho, ih]

theorem exchange_eq (fields : Fields α) (name : String) (value : α) :
    exchange fields name value = (get? fields name, insert fields name value) := by
  induction fields with
  | nil => rfl
  | cons head rest ih =>
    obtain ⟨key, old⟩ := head
    by_cases h : key = name <;> simp [exchange, get?, insert, h, ih]

@[simp] theorem get?_insertSorted_self (fields : Fields α) (name : String) (value : α) :
    get? (insertSorted fields name value) name = some value := by
  induction fields with
  | nil => simp [insertSorted, get?]
  | cons head rest ih =>
    obtain ⟨key, old⟩ := head
    by_cases h : key = name
    · simp [insertSorted, get?, h]
    · by_cases hlt : name < key <;> simp [insertSorted, get?, h, hlt, ih]

end Fields

end TypedSql
