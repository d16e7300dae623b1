import TypedSql.Fields
import TypedSql.Proofs.ByteOrder

/-!
# The two orders of fields

Pairs make fields in two ways: in the order of first insertion (`Fields.ofPairs`) and in ascending order
(`Fields.ofPairsSorted`). Either way every name stands once, and under a name is the value of the last
pair that has it, which is the first one from behind (`Fields.get?_ofPairs`, `Fields.get?_ofPairsSorted`).
So the two ways differ in the order only: the second one is the first one put in the order of the names'
bytes (`Fields.ofPairsSorted_eq_byKey`).
-/

namespace TypedSql.Fields

variable {α β : Type}

/-- Every name stands once. -/
def Distinct (fields : Fields α) : Prop := (keys fields).Nodup

/-- The names stand in ascending order. -/
def Ascending (fields : Fields α) : Prop := fields.Pairwise fun a b => a.1 < b.1

/-- The fields with another value for each. -/
def mapValues (f : α → β) (fields : Fields α) : Fields β :=
  fields.map fun field => (field.1, f field.2)

/-- The fields in the order of the bytes of their names. -/
def byKey (fields : Fields α) : Fields α :=
  fields.mergeSort fun a b => Text.bytes a.1 ≤ Text.bytes b.1

theorem lt_of_le_of_ne {s t : String} (hle : s ≤ t) (hne : s ≠ t) : s < t :=
  String.not_le.mp fun hge => hne (String.le_antisymm hle hge)

@[simp] theorem keys_cons (field : String × α) (fields : Fields α) :
    keys (field :: fields) = field.1 :: keys fields := rfl

/-! ### Fields with distinct names -/

theorem get?_eq_some_iff {fields : Fields α} (h : Distinct fields) {name : String} {value : α} :
    get? fields name = some value ↔ (name, value) ∈ fields := by
  refine ⟨mem_of_get?_eq_some, fun hmem => ?_⟩
  induction fields with
  | nil => cases hmem
  | cons head rest ih =>
    obtain ⟨key, found⟩ := head
    obtain ⟨hkey, hrest⟩ := List.nodup_cons.mp h
    rcases List.mem_cons.mp hmem with heq | hmem
    · obtain ⟨rfl, rfl⟩ := Prod.mk.inj heq
      rw [get?, if_pos rfl]
    · have hne : key ≠ name := by
        rintro rfl
        exact hkey (List.mem_map.mpr ⟨_, hmem, rfl⟩)
      rw [get?, if_neg hne, ih hrest hmem]

theorem distinct_nil : Distinct ([] : Fields α) := List.nodup_nil

theorem Ascending.distinct {fields : Fields α} (h : Ascending fields) : Distinct fields := by
  refine List.pairwise_map.mpr (h.imp fun hlt heq => ?_)
  rw [heq] at hlt
  exact String.lt_irrefl _ hlt

theorem Ascending.nodup {fields : Fields α} (h : Ascending fields) : fields.Nodup := by
  refine h.imp fun hlt heq => ?_
  rw [heq] at hlt
  exact String.lt_irrefl _ hlt

/-- Two ascending lists of fields that have the same values under all names are the same. -/
theorem Ascending.ext {xs ys : Fields α} (hxs : Ascending xs) (hys : Ascending ys)
    (h : ∀ name, get? xs name = get? ys name) : xs = ys := by
  have hperm : xs.Perm ys := by
    refine (List.perm_ext_iff_of_nodup hxs.nodup hys.nodup).mpr ?_
    rintro ⟨name, value⟩
    rw [← get?_eq_some_iff hxs.distinct, ← get?_eq_some_iff hys.distinct, h name]
  refine hperm.eq_of_pairwise (fun a b _ _ hab hba => ?_) hxs hys
  exact absurd hba (String.lt_asymm hab)

/-! ### Other values -/

theorem mapValues_insert (f : α → β) (fields : Fields α) (name : String) (value : α) :
    mapValues f (insert fields name value) = insert (mapValues f fields) name (f value) := by
  induction fields with
  | nil => rfl
  | cons head rest ih =>
    obtain ⟨key, old⟩ := head
    simp only [mapValues, insert, List.map_cons] at ih ⊢
    split
    · rfl
    · rw [List.map_cons, ih]

theorem mapValues_insertSorted (f : α → β) (fields : Fields α) (name : String) (value : α) :
    mapValues f (insertSorted fields name value) = insertSorted (mapValues f fields) name (f value) := by
  induction fields with
  | nil => rfl
  | cons head rest ih =>
    obtain ⟨key, old⟩ := head
    simp only [mapValues, insertSorted, List.map_cons] at ih ⊢
    split
    · rfl
    · split
      · rfl
      · rw [List.map_cons, ih]

/-! ### Insertion in order -/

theorem keys_insert (fields : Fields α) (name : String) (value : α) :
    keys (insert fields name value) =
      if name ∈ keys fields then keys fields else keys fields ++ [name] := by
  induction fields with
  | nil => rfl
  | cons head rest ih =>
    obtain ⟨key, old⟩ := head
    by_cases hkey : key = name
    · rw [insert, if_pos hkey, keys_cons, keys_cons, if_pos (by simp [hkey])]
    · rw [insert, if_neg hkey, keys_cons, keys_cons, ih]
      by_cases hmem : name ∈ keys rest
      · rw [if_pos hmem, if_pos (List.mem_cons_of_mem _ hmem)]
      · rw [if_neg hmem, if_neg (by simp [Ne.symm hkey, hmem]), List.cons_append]

theorem Distinct.insert {fields : Fields α} (h : Distinct fields) (name : String) (value : α) :
    Distinct (insert fields name value) := by
  rw [Distinct, keys_insert]
  split
  · exact h
  · next hnot =>
    refine List.nodup_append.mpr ⟨h, by simp, fun a ha b hb heq => ?_⟩
    rw [heq, List.mem_singleton.mp hb] at ha
    exact hnot ha

theorem insert_of_notMem {fields : Fields α} {name : String} (h : name ∉ keys fields) (value : α) :
    insert fields name value = fields ++ [(name, value)] := by
  induction fields with
  | nil => rfl
  | cons head rest ih =>
    obtain ⟨key, old⟩ := head
    rw [keys_cons, List.mem_cons, not_or] at h
    rw [insert, if_neg (Ne.symm h.1), ih h.2, List.cons_append]

theorem get?_insertSorted_of_ne (fields : Fields α) {name other : String} (value : α)
    (h : other ≠ name) : get? (insertSorted fields name value) other = get? fields other := by
  induction fields with
  | nil => simp [insertSorted, get?, Ne.symm h]
  | cons head rest ih =>
    obtain ⟨key, old⟩ := head
    by_cases hkey : key = name
    · rw [insertSorted, if_pos hkey, get?, get?, hkey, if_neg (Ne.symm h), if_neg (Ne.symm h)]
    · rw [insertSorted, if_neg hkey]
      split
      · rw [get?, if_neg (Ne.symm h)]
      · rw [get?, get?, ih]

theorem mem_keys_insertSorted {fields : Fields α} {name other : String} {value : α}
    (h : other ∈ keys (insertSorted fields name value)) : other = name ∨ other ∈ keys fields := by
  induction fields with
  | nil => exact .inl (List.mem_singleton.mp h)
  | cons head rest ih =>
    obtain ⟨key, old⟩ := head
    rw [insertSorted] at h
    split at h
    · exact .inr h
    · split at h
      · exact List.mem_cons.mp h
      · rcases List.mem_cons.mp h with hkey | hrest
        · exact .inr (hkey ▸ List.mem_cons_self)
        · exact (ih hrest).imp id (List.mem_cons_of_mem key)

theorem ascending_cons_iff {key : String} {value : α} {rest : Fields α} :
    Ascending ((key, value) :: rest) ↔ (∀ other ∈ keys rest, key < other) ∧ Ascending rest := by
  rw [Ascending, List.pairwise_cons, keys, List.forall_mem_map]
  rfl

theorem Ascending.insertSorted {fields : Fields α} (h : Ascending fields) (name : String)
    (value : α) : Ascending (insertSorted fields name value) := by
  induction fields with
  | nil => exact List.pairwise_singleton ..
  | cons head rest ih =>
    obtain ⟨key, old⟩ := head
    obtain ⟨hkey, hrest⟩ := ascending_cons_iff.mp h
    rw [Fields.insertSorted]
    split
    · exact ascending_cons_iff.mpr ⟨hkey, hrest⟩
    · next hne =>
      split
      · next hlt =>
        refine ascending_cons_iff.mpr ⟨fun other hother => ?_, h⟩
        rcases List.mem_cons.mp hother with rfl | hother
        · exact hlt
        · exact String.lt_trans hlt (hkey other hother)
      · next hnot =>
        -- the name stands behind the key
        have hlt : key < name := lt_of_le_of_ne hnot hne
        refine ascending_cons_iff.mpr ⟨fun other hother => ?_, ih hrest⟩
        rcases mem_keys_insertSorted hother with rfl | hother
        · exact hlt
        · exact hkey other hother

/-! ### Pairs -/

theorem get?_append (xs ys : Fields α) (name : String) :
    get? (xs ++ ys) name = (get? xs name).or (get? ys name) := by
  induction xs with
  | nil => rfl
  | cons head rest ih =>
    obtain ⟨key, value⟩ := head
    rw [List.cons_append, get?, get?]
    split
    · rfl
    · exact ih

/-- When pairs are put under their names one after the other, the last one counts. -/
theorem get?_foldl {put : Fields α → String → α → Fields α}
    (hself : ∀ fields name value, get? (put fields name value) name = some value)
    (hother : ∀ fields name value other, other ≠ name →
      get? (put fields name value) other = get? fields other)
    (pairs : List (String × α)) (fields : Fields α) (name : String) :
    get? (pairs.foldl (fun fields pair => put fields pair.1 pair.2) fields) name =
      (get? pairs.reverse name).or (get? fields name) := by
  induction pairs generalizing fields with
  | nil => rfl
  | cons pair rest ih =>
    obtain ⟨key, value⟩ := pair
    have hfirst : get? (put fields key value) name = (get? [(key, value)] name).or (get? fields name) := by
      by_cases hkey : key = name
      · rw [hkey, hself, get?, if_pos rfl, Option.some_or]
      · rw [hother fields key value name (Ne.symm hkey), get?, if_neg hkey]
        rfl
    rw [List.foldl_cons, ih, hfirst, List.reverse_cons, get?_append, Option.or_assoc]

/-- **Of a repeated name the last value counts.** -/
theorem get?_ofPairs (pairs : List (String × α)) (name : String) :
    get? (ofPairs pairs) name = get? pairs.reverse name := by
  have h := get?_foldl get?_insert_self (fun fields _ value _ => get?_insert_of_ne fields value) pairs
    [] name
  rwa [get?_nil, Option.or_none] at h

theorem get?_ofPairsSorted (pairs : List (String × α)) (name : String) :
    get? (ofPairsSorted pairs) name = get? pairs.reverse name := by
  have h := get?_foldl get?_insertSorted_self
    (fun fields _ value _ => get?_insertSorted_of_ne fields value) pairs [] name
  rwa [get?_nil, Option.or_none] at h

theorem distinct_insertAll {fields : Fields α} (h : Distinct fields) (pairs : List (String × α)) :
    Distinct (insertAll fields pairs) := by
  induction pairs generalizing fields with
  | nil => exact h
  | cons pair rest ih => exact ih (h.insert pair.1 pair.2)

/-- No name is repeated. -/
theorem distinct_ofPairs (pairs : List (String × α)) : Distinct (ofPairs pairs) :=
  distinct_insertAll distinct_nil pairs

theorem ascending_foldl {fields : Fields α} (h : Ascending fields) (pairs : List (String × α)) :
    Ascending (pairs.foldl (fun fields pair => insertSorted fields pair.1 pair.2) fields) := by
  induction pairs generalizing fields with
  | nil => exact h
  | cons pair rest ih => exact ih (h.insertSorted pair.1 pair.2)

theorem ascending_ofPairsSorted (pairs : List (String × α)) : Ascending (ofPairsSorted pairs) :=
  ascending_foldl .nil pairs

/-- Pairs with new names are added behind what is there. -/
theorem insertAll_of_distinct {fields pairs : Fields α} (h : Distinct (fields ++ pairs)) :
    insertAll fields pairs = fields ++ pairs := by
  induction pairs generalizing fields with
  | nil => rw [List.append_nil]; rfl
  | cons pair rest ih =>
    obtain ⟨name, value⟩ := pair
    have hname : name ∉ keys fields := by
      rw [Distinct, keys, List.map_append, List.nodup_append] at h
      exact fun hmem => h.2.2 name hmem name List.mem_cons_self rfl
    change insertAll (insert fields name value) rest = _
    rw [insert_of_notMem hname, ih, List.append_assoc, List.singleton_append]
    rwa [List.append_assoc, List.singleton_append]

theorem ofPairs_of_distinct {pairs : Fields α} (h : Distinct pairs) : ofPairs pairs = pairs :=
  insertAll_of_distinct h

theorem mapValues_foldl {f : α → β} {put : Fields α → String → α → Fields α}
    {put' : Fields β → String → β → Fields β}
    (h : ∀ fields name value,
      mapValues f (put fields name value) = put' (mapValues f fields) name (f value))
    (pairs : List (String × α)) (fields : Fields α) :
    mapValues f (pairs.foldl (fun fields pair => put fields pair.1 pair.2) fields) =
      (mapValues f pairs).foldl (fun fields pair => put' fields pair.1 pair.2)
        (mapValues f fields) := by
  induction pairs generalizing fields with
  | nil => rfl
  | cons pair rest ih =>
    rw [List.foldl_cons, ih, h]
    rfl

theorem mapValues_ofPairs (f : α → β) (pairs : List (String × α)) :
    mapValues f (ofPairs pairs) = ofPairs (mapValues f pairs) :=
  mapValues_foldl (mapValues_insert f) pairs []

theorem mapValues_ofPairsSorted (f : α → β) (pairs : List (String × α)) :
    mapValues f (ofPairsSorted pairs) = ofPairsSorted (mapValues f pairs) :=
  mapValues_foldl (mapValues_insertSorted f) pairs []

/-! ### Sorting -/

theorem byKey_perm (fields : Fields α) : (byKey fields).Perm fields :=
  List.mergeSort_perm fields _

theorem ascending_byKey {fields : Fields α} (h : Distinct fields) : Ascending (byKey fields) := by
  have hle : (byKey fields).Pairwise fun a b => a.1 ≤ b.1 := by
    refine (List.pairwise_mergeSort (fun a b c hab hbc => ?_) (fun a b => ?_) fields).imp fun hab => ?_
    · simp only [decide_eq_true_eq, Text.bytes_le_iff] at hab hbc ⊢
      exact String.le_trans hab hbc
    · simp only [Bool.or_eq_true, decide_eq_true_eq, Text.bytes_le_iff]
      exact String.le_total a.1 b.1
    · simpa only [decide_eq_true_eq, Text.bytes_le_iff] using hab
  have hne : (byKey fields).Pairwise fun a b => a.1 ≠ b.1 :=
    List.pairwise_map.mp (((byKey_perm fields).map Prod.fst).nodup_iff.mpr h)
  exact (hle.and hne).imp fun hab => lt_of_le_of_ne hab.1 hab.2

theorem get?_byKey {fields : Fields α} (h : Distinct fields) (name : String) :
    get? (byKey fields) name = get? fields name := by
  have hperm := byKey_perm fields
  have hdistinct : Distinct (byKey fields) := (hperm.map Prod.fst).nodup_iff.mpr h
  refine Option.ext fun value => ?_
  rw [get?_eq_some_iff hdistinct, get?_eq_some_iff h, hperm.mem_iff]

/-- **The two ways to make fields differ in the order only.** -/
theorem ofPairsSorted_eq_byKey (pairs : List (String × α)) :
    ofPairsSorted pairs = byKey (ofPairs pairs) := by
  refine (ascending_ofPairsSorted pairs).ext (ascending_byKey (distinct_ofPairs pairs)) fun name => ?_
  rw [get?_byKey (distinct_ofPairs pairs), get?_ofPairsSorted, get?_ofPairs]

end TypedSql.Fields
